import Registrar.Scan

/-! Declaration forests: the namespaces, classes and marked declarations of a header as a tree, the
text that spells them one construct a line, and the classes that they stand for. -/

namespace Registrar

/-- Whether no marker stands in a text, not even as part of a longer word. -/
def Markers.absentFrom (markers : Markers) (t : Text) : Bool :=
  markers.named.all fun marker => !Text.occursIn marker.2 t

namespace Forest

/-- An identifier that holds no marker. -/
structure Word (markers : Markers) where
  text : Text
  isIdentifier : text.isIdentifier = true
  isFree : markers.absentFrom text = true

/-- A name that a marker is given between double quotes. The argument must be read as one piece and
count as no brace. -/
structure Label (markers : Markers) where
  text : Text
  nonempty : text ≠ []
  isWhole : text.all (fun c => !(['"', ',', ')', '{', '}', '\n'].contains c)) = true
  isFree : markers.absentFrom text = true

/-- A marked data member or function. The declaration stands behind the marker or, `apart` from it,
on the next line. -/
structure Item (markers : Markers) where
  kind : BindingKind
  label : Option (Label markers)
  type : Word markers
  name : Word markers
  apart : Bool
  type_visible : type.text ∉ Declaration.accessSpecifiers
  name_declares : kind = .function → name.text ∉ Declaration.controlKeywords

inductive Keyword where
  | cls
  | struct

/-- Where the class marker of a class stands: nowhere, in front of the head, or alone on the first
line of the body. -/
inductive Mark (markers : Markers) where
  | absent
  | leading (label : Option (Label markers))
  | inside (label : Option (Label markers))

/-- How a class is introduced. The brace stands on the line of the head or, if the head is split,
alone on the next one; a `;` in front of it would end the declaration. -/
structure Head (markers : Markers) where
  keyword : Keyword
  name : Word markers
  mark : Mark markers
  isSplit : Bool
  isOpen : isSplit = true → ∀ label, mark = .leading (some label) → ';' ∉ label.text

/-- The body of a class: marked declarations and nested classes in any order. -/
inductive Body (markers : Markers) where
  | done
  | item (entry : Item markers) (rest : Body markers)
  | nested (head : Head markers) (inner rest : Body markers)

/-- The name of a namespace, with the words chained to it by `::`. -/
structure SpaceName (markers : Markers) where
  first : Word markers
  more : List (Word markers)

end Forest

open Forest in
/-- What stands side by side outside of classes: namespaces, with a forest of their own, and
classes. -/
inductive Forest (markers : Markers) where
  | done
  | space (name : SpaceName markers) (inner rest : Forest markers)
  | cls (head : Head markers) (body : Body markers) (rest : Forest markers)

namespace Forest

variable {markers : Markers}

def argument : Option (Label markers) → Text
  | some label => '"' :: (label.text ++ ['"'])
  | none => []

def invoke (marker : Text) (label : Option (Label markers)) : Text :=
  marker ++ ('(' :: argument label ++ [')'])

def Item.declaration (item : Item markers) : Text :=
  match item.kind with
  | .member => item.type.text ++ ' ' :: (item.name.text ++ [';'])
  | .function => item.type.text ++ ' ' :: (item.name.text ++ ['(', ')', ';'])

def Item.lines (item : Item markers) : List Text :=
  let marker := invoke (markers.onBinding item.kind) item.label
  if item.apart then [marker, item.declaration] else [marker ++ ' ' :: item.declaration]

def Keyword.text : Keyword → Text
  | .cls => "class".toList
  | .struct => "struct".toList

def Head.plain (head : Head markers) : Text := head.keyword.text ++ ' ' :: head.name.text

def Head.front (head : Head markers) : Text :=
  match head.mark with
  | .leading label => invoke markers.onClass label ++ ' ' :: head.plain
  | _ => head.plain

/-- The lines up to the brace, and the class marker at the start of the body. -/
def Head.lines (head : Head markers) : List Text :=
  (if head.isSplit then [head.front, ['{']] else [head.front ++ [' ', '{']]) ++
    match head.mark with
    | .inside label => [invoke markers.onClass label]
    | _ => []

def Body.lines : Body markers → List Text
  | .done => []
  | .item entry rest => entry.lines ++ rest.lines
  | .nested head inner rest => head.lines ++ inner.lines ++ ['}', ';'] :: rest.lines

def SpaceName.text (name : SpaceName markers) : Text :=
  name.first.text ++ name.more.flatMap fun word => ':' :: ':' :: word.text

def SpaceName.line (name : SpaceName markers) : Text :=
  "namespace".toList ++ ' ' :: (name.text ++ [' ', '{'])

theorem SpaceName.line_eq (name : SpaceName markers) :
    name.line = "namespace".toList ++ ' ' :: (name.text ++ [' ', '{']) := rfl

def lines : Forest markers → List Text
  | .done => []
  | .space name inner rest => name.line :: inner.lines ++ ['}'] :: rest.lines
  | .cls head body rest => head.lines ++ body.lines ++ ['}', ';'] :: rest.lines

def render (forest : Forest markers) : Text := forest.lines.flatMap fun line => line ++ ['\n']

def Item.binding (item : Item markers) : Binding where
  registration := match item.label with
    | some label => label.text
    | none => item.name.text
  identifier := item.name.text

/-- The bindings of one kind that a body declares, those of nested classes left out. -/
def Body.bindings (kind : BindingKind) : Body markers → List Binding
  | .done => []
  | .item entry rest =>
    if entry.kind = kind then entry.binding :: rest.bindings kind else rest.bindings kind
  | .nested _ _ rest => rest.bindings kind

def Head.reflect (header : Text) (scope : List Text) (head : Head markers) (body : Body markers) :
    ReflectedClass where
  name := ⟨scope, head.name.text⟩
  header := header
  registration := match head.mark with
    | .absent => none
    | .leading (some label) | .inside (some label) => some label.text
    | .leading none | .inside none => some (QualifiedName.render ⟨scope, head.name.text⟩)
  members := body.bindings .member
  functions := body.bindings .function

/-- The classes nested in a body, outer ones before those inside them. -/
def Body.classes (header : Text) (scope : List Text) : Body markers → List ReflectedClass
  | .done => []
  | .item _ rest => rest.classes header scope
  | .nested head inner rest =>
    head.reflect header scope inner ::
      inner.classes header (scope ++ [head.name.text]) ++ rest.classes header scope

def SpaceName.parts (name : SpaceName markers) : List Text :=
  name.first.text :: name.more.map Word.text

def classes (header : Text) (scope : List Text) : Forest markers → List ReflectedClass
  | .done => []
  | .space name inner rest =>
    inner.classes header (scope ++ name.parts) ++ rest.classes header scope
  | .cls head body rest =>
    head.reflect header scope body ::
      body.classes header (scope ++ [head.name.text]) ++ rest.classes header scope

def Mark.isPresent : Mark markers → Bool
  | .absent => false
  | _ => true

def Body.isMarked : Body markers → Bool
  | .done => false
  | .item _ rest => rest.isMarked
  | .nested head inner rest => head.mark.isPresent || inner.isMarked || rest.isMarked

def isMarked : Forest markers → Bool
  | .done => false
  | .space _ inner rest => inner.isMarked || rest.isMarked
  | .cls head body rest => head.mark.isPresent || body.isMarked || rest.isMarked

end Forest

end Registrar
