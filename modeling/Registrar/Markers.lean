import Registrar.Fault
import Registrar.Marker.Invocation
import Registrar.Text.Identifier

/-! The three markers that a header is searched for. -/

namespace Registrar

/-- The names of the markers put on classes, members and functions. -/
structure Markers where
  onClass : Text := "REFLECT_CLASS".toList
  onMember : Text := "REFLECT_MEMBER".toList
  onFunction : Text := "REFLECT_FUNCTION".toList
deriving DecidableEq

namespace Markers

/-- The markers with their kinds, in the order in which they are checked. -/
def named (markers : Markers) : List (MarkerKind × Text) :=
  [(.onClass, markers.onClass), (.onMember, markers.onMember), (.onFunction, markers.onFunction)]

/-- Refuses markers that are no identifiers; the first one is blamed. -/
def validate (markers : Markers) : Except Fault Unit :=
  match markers.named.find? fun marker => !marker.2.isIdentifier with
  | some (kind, name) => .error (.invalidMarker kind name)
  | none => .ok ()

theorem validate_eq_ok_iff {markers : Markers} :
    markers.validate = .ok () ↔ ∀ marker ∈ markers.named, marker.2.isIdentifier = true := by
  unfold validate
  split
  · rename_i kind name hfound
    have hrefused := List.find?_some hfound
    have hmem := List.mem_of_find?_eq_some hfound
    refine ⟨nofun, fun h => ?_⟩
    rw [h _ hmem] at hrefused
    exact Bool.noConfusion hrefused
  · rename_i hnone
    simpa using hnone

def onBinding (markers : Markers) : BindingKind → Text
  | .member => markers.onMember
  | .function => markers.onFunction

theorem isIdentifier_onClass {markers : Markers} (h : markers.validate = .ok ()) :
    markers.onClass.isIdentifier = true :=
  validate_eq_ok_iff.mp h (.onClass, markers.onClass) (by simp [named])

theorem isIdentifier_onBinding {markers : Markers} (h : markers.validate = .ok ())
    (kind : BindingKind) : (markers.onBinding kind).isIdentifier = true := by
  cases kind with
  | member => exact validate_eq_ok_iff.mp h (.onMember, markers.onMember) (by simp [named])
  | function => exact validate_eq_ok_iff.mp h (.onFunction, markers.onFunction) (by simp [named])

/-- The line without every marker invocation, those of the class marker removed first. -/
def strip (markers : Markers) (line : Text) : Text :=
  Marker.strip markers.onFunction
    (Marker.strip markers.onMember (Marker.strip markers.onClass line))

end Markers

end Registrar
