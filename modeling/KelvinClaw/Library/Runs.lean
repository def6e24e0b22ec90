import Mathlib.Data.List.SplitBy

/-!
# Runs of a list, and merging into the last element

A list falls into runs of related neighbours. A loop that puts every item into the last of its
results, if that takes the item, or behind it, as a result of its own, computes one result for each
of the runs.
-/

namespace Systems

universe u v

variable {α : Type u} {β : Type v} {related : α → α → Bool}

/-! ### One more item -/

end Systems
