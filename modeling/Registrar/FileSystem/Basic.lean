import Registrar.Text.Basic

/-! A file system as a list of places and what lies there. A place is given by the names that lead
to it from the root. -/

namespace Registrar

abbrev Location := List Text

/-- Whether a place stands no later than another: names are compared by code points, and what lies
in a directory stands where the directory stands. -/
def Location.le : Location → Location → Bool
  | [], _ => true
  | _ :: _, [] => false
  | a :: s, b :: t => if a = b then le s t else Text.le a b

inductive Node where
  | directory
  | file (bytes : List UInt8)
  | link (target : Text)
deriving DecidableEq

/-- The nodes of a file system, the root left out, and the directory that relative paths start
from. A file lies at one place only: writing it there changes nothing at any other place, so there
are no hard links. -/
structure FileSystem where
  nodes : List (Location × Node) := []
  working : Location := []
deriving DecidableEq

namespace FileSystem

/-- What lies at a place. The root is a directory. -/
def get? (files : FileSystem) (place : Location) : Option Node :=
  if place.isEmpty then some .directory else files.nodes.lookup place

def replace (place : Location) (node : Node) : List (Location × Node) → List (Location × Node)
  | [] => []
  | entry :: more =>
    if entry.1 = place then (place, node) :: more else entry :: replace place node more

def put (files : FileSystem) (place : Location) (node : Node) : FileSystem :=
  if (files.get? place).isSome then { files with nodes := replace place node files.nodes }
  else { files with nodes := files.nodes ++ [(place, node)] }

private theorem lookup_replace_self {place : Location} (node : Node)
    {nodes : List (Location × Node)} (h : (nodes.lookup place).isSome) :
    (replace place node nodes).lookup place = some node := by
  induction nodes with
  | nil => simp at h
  | cons entry more ih =>
    obtain ⟨spot, old⟩ := entry
    by_cases he : spot = place
    · simp [replace, he]
    · have hb : (place == spot) = false := by simp [Ne.symm he]
      simp only [List.lookup_cons, hb] at h
      simp [replace, he, List.lookup_cons, hb, ih h]

private theorem lookup_replace_of_ne {place other : Location} (node : Node)
    (nodes : List (Location × Node)) (h : other ≠ place) :
    (replace place node nodes).lookup other = nodes.lookup other := by
  induction nodes with
  | nil => rfl
  | cons entry more ih =>
    obtain ⟨spot, old⟩ := entry
    by_cases he : spot = place
    · have hb : (other == place) = false := by simp [h]
      simp [replace, he, List.lookup_cons, hb]
    · simp [replace, he, List.lookup_cons, ih]

/-- A node that is put at a place other than the root is found there. -/
theorem get?_put_self (files : FileSystem) {place : Location} (node : Node) (h : place ≠ []) :
    (files.put place node).get? place = some node := by
  have he : ¬ place.isEmpty = true := by simp [h]
  unfold put
  split
  · rename_i hs
    rw [get?, if_neg he] at hs ⊢
    exact lookup_replace_self node hs
  · rename_i hs
    have hn := Option.not_isSome_iff_eq_none.mp hs
    rw [get?, if_neg he] at hn ⊢
    simp only [List.lookup_append, hn, List.lookup_cons, beq_self_eq_true, Option.none_or]

/-- A node that is put at one place changes no other. -/
theorem get?_put_of_ne (files : FileSystem) {place other : Location} (node : Node)
    (h : other ≠ place) : (files.put place node).get? other = files.get? other := by
  have hb : (other == place) = false := by simp [h]
  unfold put
  split
  · simp only [get?, lookup_replace_of_ne node files.nodes h]
  · simp [get?, List.lookup_append, List.lookup_cons, hb]

def namesBelow? : Location → Location → Option (List Text)
  | [], place => some place
  | _ :: _, [] => none
  | a :: above, name :: place => if a = name then namesBelow? above place else none

/-- The nodes that lie in `after` and not so in `before`, those made first in front. -/
def changes (before after : FileSystem) : List (Location × Node) :=
  after.nodes.filter fun entry => before.get? entry.1 != some entry.2

def erase (files : FileSystem) (place : Location) : FileSystem :=
  { files with nodes := files.nodes.filter fun entry => (namesBelow? place entry.1).isNone }

/-- The nodes below a place, each with the names that lead down to it, in the order of these. -/
def below (files : FileSystem) (place : Location) : List (List Text × Node) :=
  (files.nodes.filterMap fun entry =>
      match namesBelow? place entry.1 with
      | some (name :: names) => some (name :: names, entry.2)
      | _ => none).mergeSort
    fun a b => Location.le a.1 b.1

end FileSystem

end Registrar
