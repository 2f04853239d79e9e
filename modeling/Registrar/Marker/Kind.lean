import Registrar.Text.Basic

/-! Kinds of markers. -/

namespace Registrar

/-- What a marker is put on. -/
inductive MarkerKind where
  | onClass
  | onMember
  | onFunction
deriving DecidableEq

def MarkerKind.word : MarkerKind → Text
  | .onClass => "Class".toList
  | .onMember => "Member".toList
  | .onFunction => "Function".toList

end Registrar
