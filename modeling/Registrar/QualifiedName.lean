import Registrar.Text.Basic

/-! Qualified names of classes. -/

namespace Registrar

/-- The name of a class: the namespaces and classes around it, outermost first, and its simple
name. -/
structure QualifiedName where
  scope : List Text
  name : Text
deriving DecidableEq

namespace QualifiedName

def splitScope : Text → List Text
  | [] => [[]]
  | ':' :: ':' :: t => [] :: splitScope t
  | c :: t => Text.consPiece c (splitScope t)

/-- A name inside segments that may be chained themselves, such as `A::B`. Empty parts are
dropped. -/
def ofSegments (segments : List Text) (name : Text) : QualifiedName :=
  ⟨(segments.flatMap splitScope).filter fun part => !part.isEmpty, name⟩

def global (name : Text) : QualifiedName := ⟨[], name⟩

def render (q : QualifiedName) : Text := List.intercalate "::".toList (q.scope ++ [q.name])

end QualifiedName

end Registrar
