import Mathlib
import KelvinClaw.Core.Text

/-!
# Lower case

Lower case is that of ASCII: other letters stay as they are.
-/

namespace KelvinClaw.Core

theorem toList_toAsciiLowercase (s : String) :
    (toAsciiLowercase s).toList = s.toList.map Char.toLower :=
  String.toList_ofList

@[simp] theorem toAsciiLowercase_toAsciiLowercase (s : String) :
    toAsciiLowercase (toAsciiLowercase s) = toAsciiLowercase s := by
  apply String.ext
  rw [toList_toAsciiLowercase, toList_toAsciiLowercase, List.map_map]
  refine List.map_congr_left fun c _ => ?_
  exact Char.toLower_toLower_eq_toLower c

theorem toAsciiLowercase_eq_empty {s : String} : toAsciiLowercase s = "" ↔ s = "" := by
  rw [← String.toList_eq_nil_iff, toList_toAsciiLowercase, List.map_eq_nil_iff,
    String.toList_eq_nil_iff]

end KelvinClaw.Core
