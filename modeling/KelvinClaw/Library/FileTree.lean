import Mathlib.Data.List.Infix
import Mathlib.Logic.Function.Basic
import KelvinClaw.Library.Journal
import KelvinClaw.Library.Paths

/-!
# Operations on a tree of files

A tree of files has directories, files and symbolic links. Paths are followed by their texts: two
dots lead to the parent that the text names, whatever stands there, and a link counts where it
stands at the end of a path.

Each operation may fail. A failure leaves a part of its work done: some of the directories are
made, some of the entries are removed, some of a file is written. The journal of an operation
lists the places that it touched.
-/

namespace Systems

/-! ### Trees -/

inductive Node where
  | directory
  | file (content : List UInt8)
  | link (target : String)
  deriving DecidableEq, Repr

/-- What stands at each place. -/
abbrev Tree := Location → Option Node

namespace Tree

variable (tree : Tree)

/-- Where a place leads, after at most so many links. -/
def final (tree : Tree) : ℕ → Location → Location
  | 0, place => place
  | hops + 1, place =>
    match tree place with
    | some (.link target) => final tree hops (locate place.dropLast target)
    | _ => place

/-- What a place leads to. More than 40 links lead nowhere. -/
def stat (place : Location) : Option Node :=
  match tree (tree.final 40 place) with
  | some (.link _) => none
  | node => node

def prune (place : Location) : Tree := fun other => if place <+: other then none else tree other

/-- Some of what lies below a place is gone. -/
def lose (place : Location) (lost : Location → Bool) : Tree := fun other =>
  if place <+: other ∧ other ≠ place ∧ lost other then none else tree other

def put (place : Location) (node : Node) : Tree := Function.update tree place (some node)

def drop (place : Location) : Tree := Function.update tree place none

def withDirs (places : List Location) : Tree := fun other =>
  if other ∈ places then some .directory else tree other

variable {tree} {place other : Location} {node : Node} {hops : ℕ}

@[simp] theorem put_self : tree.put place node place = some node := Function.update_self ..

theorem put_of_ne (elsewhere : other ≠ place) : tree.put place node other = tree other :=
  Function.update_of_ne elsewhere ..

@[simp] theorem drop_self : tree.drop place place = none := Function.update_self ..

theorem drop_of_ne (elsewhere : other ≠ place) : tree.drop place other = tree other :=
  Function.update_of_ne elsewhere ..

theorem put_eq_self (there : tree place = some node) : tree.put place node = tree := by
  rw [put, ← there, Function.update_eq_self]

theorem prune_of_below (below : place <+: other) : tree.prune place other = none := if_pos below

theorem prune_of_outside (outside : ¬ place <+: other) :
    tree.prune place other = tree other := if_neg outside

theorem lose_of_outside {lost : Location → Bool} (outside : ¬ place <+: other) :
    tree.lose place lost other = tree other :=
  if_neg fun inside => outside inside.1

@[simp] theorem lose_self {lost : Location → Bool} : tree.lose place lost place = tree place :=
  if_neg fun inside => inside.2.1 rfl

theorem withDirs_of_mem {places : List Location} (member : place ∈ places) :
    tree.withDirs places place = some .directory := if_pos member

theorem withDirs_of_not_mem {places : List Location} (absent : place ∉ places) :
    tree.withDirs places place = tree place := if_neg absent

@[simp] theorem withDirs_nil : tree.withDirs [] = tree := by
  funext other
  exact withDirs_of_not_mem List.not_mem_nil

theorem withDirs_cons {places : List Location} :
    tree.withDirs (place :: places) = (tree.put place .directory).withDirs places := by
  funext other
  by_cases later : other ∈ places
  · rw [withDirs_of_mem later, withDirs_of_mem (List.mem_cons_of_mem place later)]
  · rw [withDirs_of_not_mem later]
    by_cases here : other = place
    · rw [here, put_self, withDirs_of_mem List.mem_cons_self]
    · rw [put_of_ne here, withDirs_of_not_mem fun member => later
        ((List.mem_cons.mp member).resolve_left here)]

theorem final_of_not_link (plain : ∀ target, tree place ≠ some (.link target)) :
    tree.final hops place = place := by
  cases hops with
  | zero => rfl
  | succ hops =>
    rw [final]
    split
    · next target found => exact absurd found (plain target)
    · rfl

theorem stat_of_not_link (plain : ∀ target, tree place ≠ some (.link target)) :
    tree.stat place = tree place := by
  rw [stat, final_of_not_link plain]
  split
  · next target found => exact absurd found (plain target)
  · rfl

theorem stat_of_directory (there : tree place = some .directory) :
    tree.stat place = some .directory := by
  rw [stat_of_not_link, there]
  intro target same
  rw [there] at same
  cases same

theorem stat_of_none (nothing : tree place = none) : tree.stat place = none := by
  rw [stat_of_not_link, nothing]
  intro target same
  rw [nothing] at same
  cases same

/-- What is made where nothing was does not change where another place leads. -/
theorem final_put (nothing : tree place = none) (made : ∀ target, node ≠ .link target) :
    (tree.put place node).final hops other = tree.final hops other := by
  induction hops generalizing other with
  | zero => rfl
  | succ hops ih =>
    by_cases here : other = place
    · rw [here, final_of_not_link, final_of_not_link]
      · simp [nothing]
      · simpa using made
    · rw [final, final, put_of_ne here]
      split
      · exact ih
      · rfl

theorem final_of_stat (there : tree.stat place = some .directory) :
    tree (tree.final 40 place) = some .directory := by
  rw [stat] at there
  split at there
  · cases there
  · exact there

theorem stat_put_of_directory (nothing : tree place = none) (made : ∀ target, node ≠ .link target)
    (there : tree.stat other = some .directory) :
    (tree.put place node).stat other = some .directory := by
  have elsewhere : tree.final 40 other ≠ place := by
    intro same
    rw [stat, same, nothing] at there
    cases there
  rwa [stat, final_put nothing made, put_of_ne elsewhere]

/-- Nothing but directories stands in the tree. -/
def OnlyDirs (tree : Tree) : Prop := ∀ place, tree place = none ∨ tree place = some .directory

def downTo (places : List Location) : Tree := fun place =>
  if ∃ low ∈ places, place <+: low then some .directory else none

theorem downTo_of_above {places : List Location} {low : Location} (member : low ∈ places)
    (above : place <+: low) : downTo places place = some .directory :=
  if_pos ⟨low, member, above⟩

theorem exists_of_downTo {places : List Location} (there : downTo places place ≠ none) :
    ∃ low ∈ places, place <+: low := by
  by_contra nowhere
  exact there (if_neg nowhere)

theorem onlyDirs_downTo (places : List Location) : (downTo places).OnlyDirs := by
  intro place
  by_cases above : ∃ low ∈ places, place <+: low
  · exact .inr (if_pos above)
  · exact .inl (if_neg above)

theorem OnlyDirs.withDirs (only : tree.OnlyDirs) (places : List Location) :
    (tree.withDirs places).OnlyDirs := by
  intro other
  by_cases member : other ∈ places
  · exact .inr (withDirs_of_mem member)
  · rw [withDirs_of_not_mem member]
    exact only other

theorem OnlyDirs.prune (only : tree.OnlyDirs) (place : Location) : (tree.prune place).OnlyDirs := by
  intro other
  by_cases below : place <+: other
  · exact .inl (prune_of_below below)
  · rw [prune_of_outside below]
    exact only other

/-! ### What stands below a place -/

def Stands (tree : Tree) (place : Location) (entries : List (Location × Node)) : Prop :=
  ∀ path node, tree (place ++ path) = some node ↔ (path, node) ∈ entries

/-- Nothing but what is at a place and below it is different. -/
def SameOutside (place : Location) (before after : Tree) : Prop :=
  ∀ other, ¬ place <+: other → after other = before other

theorem SameOutside.trans {before between after : Tree} (first : SameOutside place before between)
    (later : SameOutside place between after) : SameOutside place before after :=
  fun other outside => (later other outside).trans (first other outside)

theorem sameOutside_put (below : place <+: other) : SameOutside place tree (tree.put other node) :=
  fun _ outside => put_of_ne fun same => outside (same ▸ below)

section Stands

variable {entries : List (Location × Node)} {path : Location}

theorem stands_nil (nothing : ∀ other, place <+: other → tree other = none) :
    tree.Stands place [] := by
  intro path node
  rw [nothing _ (List.prefix_append place path)]
  exact iff_of_false nofun List.not_mem_nil

theorem Stands.eq_none (stands : tree.Stands place entries)
    (fresh : ∀ node, (path, node) ∉ entries) : tree (place ++ path) = none := by
  cases here : tree (place ++ path) with
  | none => rfl
  | some node => exact absurd ((stands path node).mp here) (fresh node)

theorem Stands.put (stands : tree.Stands place entries) (fresh : ∀ node, (path, node) ∉ entries)
    (node : Node) : (tree.put (place ++ path) node).Stands place (entries ++ [(path, node)]) := by
  intro other node'
  rw [List.mem_append, List.mem_singleton, Prod.mk.injEq]
  by_cases same : other = path
  · subst same
    rw [put_self, Option.some_inj]
    exact ⟨fun equal => .inr ⟨rfl, equal.symm⟩,
      fun either => either.elim (fun there => absurd there (fresh node')) fun equal => equal.2.symm⟩
  · rw [put_of_ne fun equal => same (List.append_cancel_left equal), stands other node']
    exact ⟨.inl, fun either => either.resolve_right fun equal => same equal.1⟩

theorem Stands.of_same {after : Tree} (stands : tree.Stands place entries)
    (same : ∀ other, place <+: other → after other = tree other) : after.Stands place entries := by
  intro path node
  rw [same _ (List.prefix_append place path)]
  exact stands path node

/-- What stands there is what stood there exactly if it is the same. -/
theorem Stands.iff_same {before after : Tree} (stands : after.Stands place entries) :
    before.Stands place entries ↔ ∀ other, place <+: other → after other = before other := by
  constructor
  · rintro stood other ⟨path, rfl⟩
    exact Option.ext fun node => (stands path node).trans (stood path node).symm
  · exact fun same => stands.of_same fun other inside => (same other inside).symm

end Stands

end Tree

/-! ### Routes -/

/-- A path that is followed. A text with a NUL character is not a path to the system. -/
structure Route where
  text : String
  /-- The entries that it passes through. -/
  way : List Location
  place : Location
  nul : Bool
  deriving DecidableEq, Repr

def HasNul (text : String) : Prop := '\x00' ∈ text.toList

instance (text : String) : Decidable (HasNul text) := inferInstanceAs (Decidable (_ ∈ _))

namespace Route

def direct (place : Location) : Route := ⟨"/" ++ "/".intercalate place, place.inits, place, false⟩

/-- A path below this one; an absolute one replaces it. -/
def join (route : Route) (path : String) : Route :=
  let parts := components path
  if IsAbsolute path then ⟨path, entered [] parts, resolve [] parts, HasNul path⟩
  else
    ⟨Systems.join route.text path, route.way ++ entered route.place parts,
      resolve route.place parts, route.nul || HasNul path⟩

variable (route : Route) (tree : Tree)

/-- What is there, when links are followed. -/
def stat : Option Node := if route.nul then none else tree.stat route.place

def «exists» : Bool := (route.stat tree).isSome

def isDir : Bool := route.stat tree = some .directory

def isSymlink : Bool :=
  match tree route.place with
  | some (.link _) => !route.nul
  | _ => false

variable {route} {text : String}

theorem place_join : (route.join text).place = locate route.place text := by
  rw [join, locate, origin]
  split_ifs <;> rfl

/-- An absolute path forgets what it is joined to. -/
theorem nul_join : (route.join text).nul = (HasNul text ∨ ¬ IsAbsolute text ∧ route.nul) := by
  rw [join]
  split_ifs with absolute <;> simp [absolute, or_comm]

section Names

variable (name : IsName text)
include name

theorem not_isAbsolute_of_isName : ¬ IsAbsolute text := by
  intro absolute
  exact name.plain (List.mem_of_mem_head? absolute)

theorem place_join_of_isName : (route.join text).place = route.place ++ [text] := by
  rw [place_join, locate, origin, if_neg (not_isAbsolute_of_isName name),
    components_of_isName name, resolve_of_isName name]

theorem way_join_of_isName :
    (route.join text).way = route.way ++ [route.place ++ [text]] := by
  rw [join, if_neg (not_isAbsolute_of_isName name), components_of_isName name]
  simp [entered, name.not_dots]

theorem nul_join_of_isName (proper : ¬ HasNul text) : (route.join text).nul = route.nul := by
  rw [join, if_neg (not_isAbsolute_of_isName name)]
  simp [proper]

end Names

/-- Everything above the end of a route is passed on the way, but for the root. -/
def Whole (route : Route) : Prop :=
  ∀ place, place <+: route.place → place ≠ [] → place ∈ route.way

theorem whole_direct (place : Location) : (direct place).Whole :=
  fun other above _ => (List.mem_inits other place).mpr above

theorem Whole.join (whole : route.Whole) (text : String) : (route.join text).Whole := by
  intro place above nonempty
  rw [Route.join] at above ⊢
  split_ifs at above ⊢
  · -- an absolute path starts at the root
    rcases mem_entered_of_prefix above with root | passed
    · exact absurd (List.prefix_nil.mp root) nonempty
    · exact passed
  · rcases mem_entered_of_prefix above with before | passed
    · exact List.mem_append_left _ (whole place before nonempty)
    · exact List.mem_append_right _ passed

end Route

/-! ### Operations -/

/-- The places that an operation touches. What is removed is gone with all below it. -/
inductive Touch where
  | created (place : Location)
  | wrote (place : Location)
  | removed (place : Location)
  deriving DecidableEq, Repr

def Touch.place : Touch → Location
  | .created place | .wrote place | .removed place => place

/-- How an operation fails: with an error, after it has made some directories, lost some entries
or left some of a file. -/
structure Fault where
  error : String
  made : ℕ
  lost : Location → Bool
  left : Option (List UInt8)

/-- What is left of a fault after one directory is made. -/
def Fault.spend : Option Fault → Except String (Option Fault)
  | none => .ok none
  | some fault =>
    if fault.made = 0 then .error fault.error
    else .ok (some { fault with made := fault.made - 1 })

abbrev FileAction (α : Type) := Action Tree Touch String α

namespace FileAction

open Systems.Action

def noEntry : String := "No such file or directory (os error 2)"

def fileExists : String := "File exists (os error 17)"

def notDirectory : String := "Not a directory (os error 20)"

def isDirectory : String := "Is a directory (os error 21)"

def tooManyLinks : String := "Too many levels of symbolic links (os error 40)"

def nulByte : String := "file name contained an unexpected NUL byte"

/-- Change the tree at a place and below it. -/
def alter (change : Tree → Tree) (touch : Touch) : FileAction Unit := fun tree =>
  ⟨.ok (), change tree, [touch]⟩

theorem alter_apply (change : Tree → Tree) (touch : Touch) (tree : Tree) :
    alter change touch tree = ⟨.ok (), change tree, [touch]⟩ := rfl

def raise : Option Fault → FileAction Unit
  | none => pure ()
  | some fault => fail fault.error

def inContext {α : Type} (text : String) (act : FileAction α) : FileAction α := do
  match ← attempt act with
  | .ok a => return a
  | .error _ => fail text

/-- Make the directories of a way that are missing. -/
def makeDirs : Option Fault → List Location → FileAction Unit
  | fault, [] => raise fault
  | fault, place :: rest => do
    let tree ← get
    match tree.stat place, tree place with
    | some .directory, _ => makeDirs fault rest
    | some _, _ => fail (if rest = [] then fileExists else notDirectory)
    -- a link that leads nowhere
    | none, some _ => fail fileExists
    | none, none =>
      let left ← ofExcept (Fault.spend fault)
      alter (Tree.put · place .directory) (.created place)
      makeDirs left rest

def createDirAll (fault : Option Fault) (route : Route) : FileAction Unit :=
  if route.nul then fail nulByte else makeDirs fault route.way

/-- A link is removed itself, and not what it leads to. -/
def removeDirAll (fault : Option Fault) (route : Route) : FileAction Unit :=
  if route.nul then fail nulByte
  else do
    let tree ← get
    match tree route.place, fault with
    | none, _ => fail noEntry
    | some (.file _), _ => fail notDirectory
    | some (.link _), none => alter (Tree.drop · route.place) (.removed route.place)
    | some (.link _), some failure => fail failure.error
    | some .directory, none => alter (Tree.prune · route.place) (.removed route.place)
    | some .directory, some failure =>
      alter (Tree.lose · route.place failure.lost) (.removed route.place)
      fail failure.error

def removeFile (fault : Option Fault) (route : Route) : FileAction Unit :=
  if route.nul then fail nulByte
  else do
    let tree ← get
    match tree route.place, fault with
    | none, _ => fail noEntry
    | some .directory, _ => fail isDirectory
    | some _, some failure => fail failure.error
    | some _, none => alter (Tree.drop · route.place) (.removed route.place)

/-- Write the file that a path leads to, in a directory that is there. -/
def write (path place : Location) (content : List UInt8) : Option Fault → FileAction Unit
  | none => alter (Tree.put · place (.file content)) (.wrote path)
  | some failure =>
    match failure.left with
    | none => fail failure.error
    | some part => do
      alter (Tree.put · place (.file part)) (.wrote path)
      fail failure.error

/-- A link at the end of the path is followed. -/
def copyFile (fault : Option Fault) (content : List UInt8) (route : Route) : FileAction Unit :=
  if route.nul then fail nulByte
  else do
    let tree ← get
    match tree (tree.final 40 route.place) with
    | some .directory => fail isDirectory
    | some (.link _) => fail tooManyLinks
    | _ =>
      if tree.stat (tree.final 40 route.place).dropLast ≠ some .directory then fail noEntry
      else write route.place (tree.final 40 route.place) content fault

def symlink (fault : Option Fault) (target : String) (route : Route) : FileAction Unit :=
  if route.nul ∨ HasNul target then fail nulByte
  else do
    let tree ← get
    if target = "" ∨ tree.stat route.place.dropLast ≠ some .directory then fail noEntry
    else if tree route.place ≠ none then fail fileExists
    else
      match fault with
      | some failure => fail failure.error
      | none => alter (Tree.put · route.place (.link target)) (.created route.place)

/-! ### Invariants -/

section Invariants

variable {L : Type} {record : L → Touch → L} {during : L → Prop} {inv : Tree → L → Prop}
  (safe : ∀ tree ledger, inv tree ledger → during ledger)
include safe

theorem keeps_get_bind {α : Type} {next : Tree → FileAction α}
    (goes : ∀ tree ledger, inv tree ledger →
      wp record during (next tree) (fun _ t after => inv t after) tree ledger) :
    Keeps record during inv (get >>= next) := by
  intro tree ledger holds
  apply wp_bind.mpr
  exact wp_get.mpr ⟨safe tree ledger holds, goes tree ledger holds⟩

/-- A change that keeps an invariant, and what follows it. -/
theorem wp_alter {change : Tree → Tree} {touch : Touch} {tree : Tree} {ledger : L}
    {post : Except String Unit → Tree → L → Prop} (before : inv tree ledger)
    (after : inv (change tree) (record ledger touch))
    (reached : post (.ok ()) (change tree) (record ledger touch)) :
    wp record during (alter change touch) post tree ledger := by
  refine ⟨fun events => ?_, reached⟩
  cases events with
  | zero => exact safe _ _ before
  | succ events =>
    rw [show (alter change touch tree).journal = [touch] from rfl, List.take_of_length_le (by simp)]
    exact safe _ _ after

theorem keeps_raise (fault : Option Fault) : Keeps record during inv (raise fault) := by
  cases fault with
  | none => exact keeps_pure safe ()
  | some failure => exact keeps_fail safe failure.error

theorem keeps_makeDirs {way : List Location}
    (makes : ∀ tree ledger place, place ∈ way → tree place = none → inv tree ledger →
      inv (tree.put place .directory) (record ledger (.created place)))
    (fault : Option Fault) : Keeps record during inv (makeDirs fault way) := by
  induction way generalizing fault with
  | nil => exact keeps_raise safe fault
  | cons place rest ih =>
    have later := ih fun tree ledger place member => makes tree ledger place
      (List.mem_cons_of_mem _ member)
    apply keeps_get_bind safe
    intro tree ledger holds
    split
    · exact later fault tree ledger holds
    · exact wp_fail.mpr ⟨safe tree ledger holds, holds⟩
    · exact wp_fail.mpr ⟨safe tree ledger holds, holds⟩
    · next nothing =>
      cases Fault.spend fault with
      | error e =>
        exact wp_bind.mpr (wp_fail.mpr ⟨safe tree ledger holds, holds⟩)
      | ok left =>
        have made := makes tree ledger place List.mem_cons_self nothing holds
        rw [ofExcept_ok, Action.pure_bind]
        exact wp_bind.mpr (wp_alter safe holds made (later left _ _ made))

theorem keeps_createDirAll {route : Route}
    (makes : ∀ tree ledger place, place ∈ route.way → tree place = none → inv tree ledger →
      inv (tree.put place .directory) (record ledger (.created place)))
    (fault : Option Fault) : Keeps record during inv (createDirAll fault route) :=
  keeps_ite (keeps_fail safe _) (keeps_makeDirs safe makes fault)

theorem keeps_removeDirAll {route : Route}
    (unlinks : ∀ tree ledger, inv tree ledger →
      inv (tree.drop route.place) (record ledger (.removed route.place)))
    (removes : ∀ tree ledger, inv tree ledger →
      inv (tree.prune route.place) (record ledger (.removed route.place)))
    (loses : ∀ tree ledger lost, inv tree ledger →
      inv (tree.lose route.place lost) (record ledger (.removed route.place)))
    (fault : Option Fault) : Keeps record during inv (removeDirAll fault route) := by
  apply keeps_ite (keeps_fail safe _)
  apply keeps_get_bind safe
  intro tree ledger holds
  have stays {e : String} : wp record during (fail e : FileAction Unit)
      (fun _ t after => inv t after) tree ledger :=
    wp_fail.mpr ⟨safe tree ledger holds, holds⟩
  split
  · exact stays
  · exact stays
  · have after := unlinks tree ledger holds
    exact wp_alter safe holds after after
  · exact stays
  · have after := removes tree ledger holds
    exact wp_alter safe holds after after
  · next failure _ =>
    have after := loses tree ledger failure.lost holds
    exact wp_bind.mpr (wp_alter safe holds after (wp_fail.mpr ⟨safe _ _ after, after⟩))

theorem keeps_removeFile {route : Route}
    (unlinks : ∀ tree ledger, inv tree ledger →
      inv (tree.drop route.place) (record ledger (.removed route.place)))
    (fault : Option Fault) : Keeps record during inv (removeFile fault route) := by
  apply keeps_ite (keeps_fail safe _)
  apply keeps_get_bind safe
  intro tree ledger holds
  split
  · exact wp_fail.mpr ⟨safe tree ledger holds, holds⟩
  · exact wp_fail.mpr ⟨safe tree ledger holds, holds⟩
  · exact wp_fail.mpr ⟨safe tree ledger holds, holds⟩
  · have after := unlinks tree ledger holds
    exact wp_alter safe holds after after

theorem keeps_write {path place : Location} {content : List UInt8} {tree : Tree} {ledger : L}
    (writes : ∀ written, inv (tree.put place (.file written)) (record ledger (.wrote path)))
    (holds : inv tree ledger) (fault : Option Fault) :
    wp record during (write path place content fault) (fun _ t after => inv t after) tree
      ledger := by
  cases fault with
  | none => exact wp_alter safe holds (writes content) (writes content)
  | some failure =>
    rw [write]
    split
    · exact wp_fail.mpr ⟨safe tree ledger holds, holds⟩
    · next part _ =>
      have after := writes part
      exact wp_bind.mpr (wp_alter safe holds after (wp_fail.mpr ⟨safe _ _ after, after⟩))

/-- A file is written, wherever the path leads, in the place of a file or of nothing. -/
theorem keeps_copyFile {route : Route}
    (writes : ∀ tree ledger place content, tree place ≠ some .directory → inv tree ledger →
      inv (tree.put place (.file content)) (record ledger (.wrote route.place)))
    (fault : Option Fault) (content : List UInt8) :
    Keeps record during inv (copyFile fault content route) := by
  apply keeps_ite (keeps_fail safe _)
  apply keeps_get_bind safe
  intro tree ledger holds
  split
  · exact wp_fail.mpr ⟨safe tree ledger holds, holds⟩
  · exact wp_fail.mpr ⟨safe tree ledger holds, holds⟩
  · next free _ =>
    split
    · exact wp_fail.mpr ⟨safe tree ledger holds, holds⟩
    · exact keeps_write safe (fun content => writes tree ledger _ content free holds) holds fault

theorem keeps_symlink {route : Route} {target : String}
    (links : ∀ tree ledger, tree route.place = none → inv tree ledger →
      inv (tree.put route.place (.link target)) (record ledger (.created route.place)))
    (fault : Option Fault) : Keeps record during inv (symlink fault target route) := by
  apply keeps_ite (keeps_fail safe _)
  apply keeps_get_bind safe
  intro tree ledger holds
  split_ifs
  · exact wp_fail.mpr ⟨safe tree ledger holds, holds⟩
  · exact wp_fail.mpr ⟨safe tree ledger holds, holds⟩
  · split
    · exact wp_fail.mpr ⟨safe tree ledger holds, holds⟩
    · have after := links tree ledger (not_not.mp ‹_›) holds
      exact wp_alter safe holds after after

end Invariants

/-! ### Directories that are made -/

section Made

variable {tree : Tree} {place : Location} {route : Route}

/-- The first of a way is there, or it is made, or nothing is. -/
theorem makeDirs_cons (fault : Option Fault) (place : Location) (rest : List Location)
    (tree : Tree) :
    tree.stat place = some .directory ∧
        makeDirs fault (place :: rest) tree = makeDirs fault rest tree ∨
      (tree place = none ∧ ∃ left, makeDirs fault (place :: rest) tree =
        ⟨(makeDirs left rest (tree.put place .directory)).result,
          (makeDirs left rest (tree.put place .directory)).state,
          .created place :: (makeDirs left rest (tree.put place .directory)).journal⟩) ∨
      ∃ e, makeDirs fault (place :: rest) tree = ⟨.error e, tree, []⟩ := by
  rw [makeDirs, get_bind_apply]
  cases stat : tree.stat place with
  | some node =>
    cases node with
    | directory => exact .inl ⟨rfl, rfl⟩
    | file content => exact .inr (.inr ⟨_, rfl⟩)
    | link target => exact .inr (.inr ⟨_, rfl⟩)
  | none =>
    cases here : tree place with
    | some node => exact .inr (.inr ⟨_, rfl⟩)
    | none =>
      simp only
      cases Fault.spend fault with
      | error e => exact .inr (.inr ⟨e, rfl⟩)
      | ok left =>
        rw [ofExcept_ok, Action.pure_bind, bind_apply_ok (alter_apply _ _ _)]
        exact .inr (.inl ⟨trivial, left, rfl⟩)

theorem stat_makeDirs_of_directory (there : tree.stat place = some .directory)
    (fault : Option Fault) (way : List Location) :
    (makeDirs fault way tree).state.stat place = some .directory := by
  induction way generalizing fault tree with
  | nil => cases fault <;> exact there
  | cons first rest ih =>
    rcases makeDirs_cons fault first rest tree with ⟨_, ran⟩ | ⟨nothing, left, ran⟩ | ⟨e, ran⟩
    · rw [ran]
      exact ih there fault
    · rw [ran]
      exact ih (Tree.stat_put_of_directory nothing (fun _ same => by cases same) there) left
    · rw [ran]
      exact there

/-- What a way passes through are directories once it is made. -/
theorem stat_of_makeDirs {fault : Option Fault} {way : List Location}
    (made : (makeDirs fault way tree).result = .ok ()) (passed : place ∈ way) :
    (makeDirs fault way tree).state.stat place = some .directory := by
  induction way generalizing fault tree with
  | nil => cases passed
  | cons first rest ih =>
    rcases makeDirs_cons fault first rest tree with ⟨there, ran⟩ | ⟨_, left, ran⟩ | ⟨e, ran⟩
    · rw [ran] at made ⊢
      rcases List.mem_cons.mp passed with rfl | later
      · exact stat_makeDirs_of_directory there fault rest
      · exact ih made later
    · rw [ran] at made ⊢
      rcases List.mem_cons.mp passed with rfl | later
      · exact stat_makeDirs_of_directory (Tree.stat_of_directory Tree.put_self) left rest
      · exact ih made later
    · rw [ran] at made
      cases made

theorem of_createDirAll {fault : Option Fault}
    (made : (createDirAll fault route tree).result = .ok ()) :
    route.nul = false ∧
      ∀ place ∈ route.way, (createDirAll fault route tree).state.stat place = some .directory := by
  rw [createDirAll] at made ⊢
  split_ifs at made ⊢ with nul
  · cases made
  · exact ⟨Bool.not_eq_true _ ▸ nul, fun place => stat_of_makeDirs made⟩

/-- A directory is not written over. -/
theorem copyFile_of_directory (there : tree.stat route.place = some .directory)
    (fault : Option Fault) (content : List UInt8) :
    ∃ e, copyFile fault content route tree = ⟨.error e, tree, []⟩ := by
  rw [copyFile]
  split_ifs
  · exact ⟨_, rfl⟩
  · rw [get_bind_apply, Tree.final_of_stat there]
    exact ⟨_, rfl⟩

end Made

/-! ### Trees that are ready -/

section Ready

variable {tree : Tree} {route : Route} {place : Location}

/-- Directories that are there are not made. -/
theorem makeDirs_of_directories {front rest : List Location} (fault : Option Fault)
    (there : ∀ place ∈ front, tree place = some .directory) :
    makeDirs fault (front ++ rest) tree = makeDirs fault rest tree := by
  induction front with
  | nil => rfl
  | cons place front ih =>
    rw [List.forall_mem_cons] at there
    rw [List.cons_append, makeDirs, get_bind_apply, Tree.stat_of_directory there.1]
    exact ih there.2

/-- A directory on the way leaves it open. -/
theorem ready_put {way : List Location} (place : Location)
    (ready : ∀ other ∈ way, tree other = none ∨ tree other = some .directory) :
    ∀ other ∈ way, tree.put place .directory other = none ∨
      tree.put place .directory other = some .directory := by
  intro other member
  by_cases here : other = place
  · exact .inr (by rw [here, Tree.put_self])
  · rw [Tree.put_of_ne here]
    exact ready other member

/-- With a fault, some of the missing directories are made. -/
theorem makeDirs_of_fault {way : List Location} (fault : Fault)
    (ready : ∀ place ∈ way, tree place = none ∨ tree place = some .directory) :
    ∃ e places log, makeDirs (some fault) way tree = ⟨.error e, tree.withDirs places, log⟩ ∧
      places ⊆ way := by
  induction way generalizing fault tree with
  | nil => exact ⟨fault.error, [], [], by rw [Tree.withDirs_nil]; rfl, List.Subset.refl _⟩
  | cons place rest ih =>
    rw [List.forall_mem_cons] at ready
    rcases ready.1 with nothing | there
    · rw [makeDirs, get_bind_apply, Tree.stat_of_none nothing]
      simp only [nothing, Fault.spend]
      split_ifs
      · exact ⟨fault.error, [], [], by rw [Tree.withDirs_nil]; rfl, List.nil_subset _⟩
      · obtain ⟨e, places, log, ran, inside⟩ :=
          ih { fault with made := fault.made - 1 } (ready_put place ready.2)
        refine ⟨e, place :: places, .created place :: log, ?_, List.cons_subset_cons _ inside⟩
        rw [ofExcept_ok, Action.pure_bind, bind_apply_ok (alter_apply _ _ _), ran,
          Tree.withDirs_cons]
        rfl
    · obtain ⟨e, places, log, ran, inside⟩ := ih fault ready.2
      refine ⟨e, places, log, ?_, List.subset_cons_of_subset _ inside⟩
      rw [makeDirs, get_bind_apply, Tree.stat_of_directory there]
      exact ran

/-- Where nothing but directories stands on the way, the missing ones are made. -/
theorem makeDirs_of_ready {way : List Location}
    (ready : ∀ place ∈ way, tree place = none ∨ tree place = some .directory) :
    ∃ log, makeDirs none way tree = ⟨.ok (), tree.withDirs way, log⟩ ∧
      ∀ place ∈ way, tree place = none → .created place ∈ log := by
  induction way generalizing tree with
  | nil => exact ⟨[], by rw [Tree.withDirs_nil]; rfl, fun place member => by cases member⟩
  | cons place rest ih =>
    rw [List.forall_mem_cons] at ready
    rcases ready.1 with nothing | there
    · obtain ⟨log, ran, logged⟩ := ih (ready_put place ready.2)
      refine ⟨.created place :: log, ?_, ?_⟩
      · rw [makeDirs, get_bind_apply, Tree.stat_of_none nothing]
        simp only [nothing]
        rw [Fault.spend, ofExcept_ok, Action.pure_bind, bind_apply_ok (alter_apply _ _ _), ran,
          Tree.withDirs_cons]
        rfl
      · intro other member nothing
        by_cases here : other = place
        · rw [here]
          exact List.mem_cons_self
        · have later := (List.mem_cons.mp member).resolve_left here
          exact List.mem_cons_of_mem _ (logged other later (by rw [Tree.put_of_ne here, nothing]))
    · obtain ⟨log, ran, logged⟩ := ih ready.2
      refine ⟨log, ?_, ?_⟩
      · rw [makeDirs, get_bind_apply, Tree.stat_of_directory there]
        simp only
        rw [ran, Tree.withDirs_cons, Tree.put_eq_self there]
      · intro other member nothing
        rcases List.mem_cons.mp member with rfl | later
        · rw [there] at nothing
          cases nothing
        · exact logged other later nothing

section Context

variable {α : Type} {act : FileAction α} {t : Tree} {log : List Touch}

theorem inContext_of_ok {a : α} (text : String) (ran : act tree = ⟨.ok a, t, log⟩) :
    inContext text act tree = ⟨.ok a, t, log⟩ := by
  rw [inContext, bind_apply_ok (attempt_apply _ _), ran]
  exact congrArg _ (List.append_nil log)

theorem inContext_of_error {e : String} (text : String) (ran : act tree = ⟨.error e, t, log⟩) :
    inContext text act tree = ⟨.error text, t, log⟩ := by
  rw [inContext, bind_apply_ok (attempt_apply _ _), ran]
  exact congrArg _ (List.append_nil log)

end Context

section Routes

variable (proper : route.nul = false)
include proper

theorem createDirAll_of_fault (fault : Fault)
    (ready : ∀ place ∈ route.way, tree place = none ∨ tree place = some .directory) :
    ∃ e places log, createDirAll (some fault) route tree =
      ⟨.error e, tree.withDirs places, log⟩ ∧ places ⊆ route.way := by
  rw [createDirAll, if_neg (by rw [proper]; exact nofun)]
  exact makeDirs_of_fault fault ready

theorem createDirAll_of_last {front : List Location} (way : route.way = front ++ [route.place])
    (there : ∀ place ∈ front, tree place = some .directory) (nothing : tree route.place = none) :
    createDirAll none route tree =
      ⟨.ok (), tree.put route.place .directory, [.created route.place]⟩ := by
  rw [createDirAll, if_neg (by rw [proper]; exact nofun), way, makeDirs_of_directories none there,
    makeDirs, get_bind_apply, Tree.stat_of_none nothing]
  simp only [nothing]
  rfl

theorem createDirAll_of_last_fault {front : List Location} (fault : Fault)
    (way : route.way = front ++ [route.place])
    (there : ∀ place ∈ front, tree place = some .directory) (nothing : tree route.place = none) :
    ∃ log, createDirAll (some fault) route tree = ⟨.error fault.error,
      if fault.made = 0 then tree else tree.put route.place .directory, log⟩ := by
  rw [createDirAll, if_neg (by rw [proper]; exact nofun), way,
    makeDirs_of_directories (some fault) there, makeDirs, get_bind_apply,
    Tree.stat_of_none nothing]
  simp only [nothing, Fault.spend]
  split_ifs
  · exact ⟨[], rfl⟩
  · exact ⟨[.created route.place], rfl⟩

theorem createDirAll_of_ready
    (ready : ∀ place ∈ route.way, tree place = none ∨ tree place = some .directory) :
    ∃ log, createDirAll none route tree = ⟨.ok (), tree.withDirs route.way, log⟩ ∧
      ∀ place ∈ route.way, tree place = none → .created place ∈ log := by
  rw [createDirAll, if_neg (by rw [proper]; exact nofun)]
  exact makeDirs_of_ready ready

theorem removeDirAll_of_directory (there : tree route.place = some .directory) :
    removeDirAll none route tree =
      ⟨.ok (), tree.prune route.place, [.removed route.place]⟩ := by
  rw [removeDirAll, if_neg (by rw [proper]; exact nofun), get_bind_apply, there]
  rfl

theorem removeDirAll_of_fault (fault : Fault) (there : tree route.place = some .directory) :
    removeDirAll (some fault) route tree =
      ⟨.error fault.error, tree.lose route.place fault.lost, [.removed route.place]⟩ := by
  rw [removeDirAll, if_neg (by rw [proper]; exact nofun), get_bind_apply, there]
  rfl

theorem removeFile_of_link {target : String} (there : tree route.place = some (.link target)) :
    removeFile none route tree = ⟨.ok (), tree.drop route.place, [.removed route.place]⟩ := by
  rw [removeFile, if_neg (by rw [proper]; exact nofun), get_bind_apply, there]
  rfl

theorem removeFile_of_fault (fault : Fault) {target : String}
    (there : tree route.place = some (.link target)) :
    removeFile (some fault) route tree = ⟨.error fault.error, tree, []⟩ := by
  rw [removeFile, if_neg (by rw [proper]; exact nofun), get_bind_apply, there]
  rfl

/-- A file is written where nothing is. -/
theorem copyFile_eq_write (nothing : tree route.place = none)
    (above : tree route.place.dropLast = some .directory) (fault : Option Fault)
    (content : List UInt8) :
    copyFile fault content route tree = write route.place route.place content fault tree := by
  have direct : tree.final 40 route.place = route.place :=
    Tree.final_of_not_link fun target same => by
      rw [nothing] at same
      cases same
  rw [copyFile, if_neg (by rw [proper]; exact nofun), get_bind_apply, direct, nothing,
    Tree.stat_of_directory above]
  rfl

theorem copyFile_of_none (nothing : tree route.place = none)
    (above : tree route.place.dropLast = some .directory) (content : List UInt8) :
    copyFile none content route tree =
      ⟨.ok (), tree.put route.place (.file content), [.wrote route.place]⟩ :=
  copyFile_eq_write proper nothing above none content

/-- A link is made where nothing is. -/
theorem symlink_eq_of_none (fault : Option Fault) {target : String} (named : target ≠ "")
    (plain : ¬ HasNul target) (nothing : tree route.place = none)
    (above : tree route.place.dropLast = some .directory) :
    symlink fault target route tree = (match fault with
      | some failure => fail failure.error
      | none => alter (Tree.put · route.place (.link target)) (.created route.place)) tree := by
  rw [symlink.eq_def, if_neg (by rw [proper]; exact fun either => either.elim nofun plain),
    get_bind_apply, Tree.stat_of_directory above,
    if_neg (fun either => either.elim named fun missing => missing rfl), nothing, if_neg (by simp)]

theorem symlink_of_none {target : String} (named : target ≠ "") (plain : ¬ HasNul target)
    (nothing : tree route.place = none) (above : tree route.place.dropLast = some .directory) :
    symlink none target route tree =
      ⟨.ok (), tree.put route.place (.link target), [.created route.place]⟩ :=
  symlink_eq_of_none proper none named plain nothing above

end Routes

end Ready

end FileAction

end Systems
