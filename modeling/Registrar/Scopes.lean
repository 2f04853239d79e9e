import Registrar.Heading
import Registrar.Registry

/-! Open namespaces and classes.

One counter follows the depth of braces. Every frame knows the depth of its body and is closed as
soon as the depth falls below it, so one line can close several frames. A line first opens scopes,
at the depth before it, and closes scopes after everything else on it has been read. -/

namespace Registrar

structure Braces where
  opened : Nat
  closed : Nat
deriving DecidableEq

namespace Braces

/-- Counts the braces of a line, also those inside literals. -/
def ofLine (line : Text) : Braces := ⟨line.count '{', line.count '}'⟩

theorem ofLine_opening {line : Text} (hopen : '{' ∉ line) (hclose : '}' ∉ line) :
    ofLine (line ++ [' ', '{']) = ⟨1, 0⟩ := by
  simp [ofLine, List.count_append, List.count_eq_zero.mpr hopen, List.count_eq_zero.mpr hclose]

def change (braces : Braces) : Int := braces.opened - braces.closed

end Braces

/-- An open namespace. A chained name such as `A::B` is one frame. -/
structure NamespaceFrame where
  name : Text
  bodyDepth : Int
deriving DecidableEq

/-- The names given by markers that still wait for their declaration; an empty name stands for the
identifier that will be found. -/
structure Slots where
  member : Option Text := none
  function : Option Text := none
deriving DecidableEq

namespace Slots

def get (slots : Slots) : BindingKind → Option Text
  | .member => slots.member
  | .function => slots.function

def set (slots : Slots) (kind : BindingKind) (name : Option Text) : Slots :=
  match kind with
  | .member => { slots with member := name }
  | .function => { slots with function := name }

@[simp] theorem get_set (slots : Slots) (kind other : BindingKind) (name : Option Text) :
    (slots.set kind name).get other = if other = kind then name else slots.get other := by
  cases kind <;> cases other <;> rfl

def isWaiting (slots : Slots) : Bool := slots.member.isSome || slots.function.isSome

end Slots

/-- An open class body; `index` is the place of the class in the registry. -/
structure ClassFrame where
  index : Nat
  bodyDepth : Int
  slots : Slots := {}
deriving DecidableEq

/-- The depth of braces, the open frames, innermost first, and the class head whose body has not
been opened yet. -/
structure Scopes where
  depth : Int := 0
  namespaces : List NamespaceFrame := []
  classes : List ClassFrame := []
  pending : Option ClassHead := none
deriving DecidableEq

namespace Scopes

def innermost? (scopes : Scopes) : Option ClassFrame := scopes.classes.head?

/-- Opens the namespaces of a line. All of them get the same depth of their body, one more than the
depth before the line. -/
def openNamespaces (line : Text) (scopes : Scopes) : Scopes :=
  let frames := (Heading.namespaces line).map fun name => ⟨name, scopes.depth + 1⟩
  { scopes with namespaces := frames.reverse ++ scopes.namespaces }

/-- The segments that qualify a class opened now: the namespaces and then the classes around it,
outermost first. -/
def segments (registry : Registry) (scopes : Scopes) : List Text :=
  (scopes.namespaces.map NamespaceFrame.name).reverse ++
    (scopes.classes.filterMap fun frame => registry[frame.index]?.map (·.name.name)).reverse

/-- The class whose body a line opens, and the class head that is pending after it. A head on the
line itself comes before one that is pending; any `{` opens the body of a pending head. -/
def headings (marker line : Text) (scopes : Scopes) : Option ClassHead × Option ClassHead :=
  match heading? marker line with
  | some (.opening name) => (some ⟨name, none⟩, none)
  | some (.split head) => (none, some head)
  | _ => if line.contains '{' then (scopes.pending, none) else (none, scopes.pending)

def close (braces : Braces) (scopes : Scopes) : Scopes :=
  let depth := scopes.depth + braces.change
  { scopes with
    depth
    namespaces := scopes.namespaces.dropWhile fun frame => depth < frame.bodyDepth
    classes := scopes.classes.dropWhile fun frame => depth < frame.bodyDepth }

end Scopes

/-- Whether the class marker of a line belongs to a class head whose body opens later, so that it
says nothing about the class around it. -/
def marksLaterClass (marker line : Text) : Bool :=
  match heading? marker line with
  | some (.split head) => head.mark.isSome
  | _ => false

end Registrar
