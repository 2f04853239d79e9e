import Registrar.Scopes

/-! How far a header has been read: the scopes that are open and the classes that were found. -/

namespace Registrar

/-- What is known after some lines of a header: the open scopes and the classes found. -/
structure Progress where
  scopes : Scopes := {}
  registry : Registry := []
deriving DecidableEq

namespace Progress

def openClass (header : Text) (head : ClassHead) (progress : Progress) : Progress :=
  let scopes := progress.scopes
  let fresh : ReflectedClass :=
    { name := .ofSegments (scopes.segments progress.registry) head.name, header }
  let cls := match head.mark with
    | some registration => fresh.register registration
    | none => fresh
  { scopes := { scopes with
      classes := ⟨progress.registry.length, scopes.depth + 1, {}⟩ :: scopes.classes }
    registry := progress.registry.push cls }

/-- Opens the namespaces and the class of a line, at the depth before the line. -/
def openScopes (marker header line : Text) (progress : Progress) : Progress :=
  let scopes := progress.scopes.openNamespaces line
  let (opened, pending) := scopes.headings marker line
  let entered : Progress := { progress with scopes := { scopes with pending } }
  match opened with
  | some head => entered.openClass header head
  | none => entered

def closeScopes (line : Text) (progress : Progress) : Progress :=
  { progress with scopes := progress.scopes.close (.ofLine line) }

end Progress

end Registrar
