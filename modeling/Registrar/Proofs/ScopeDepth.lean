import Registrar.Proofs.ScopeBalance

/-! Frames are closed by their depth alone. The depth counts the braces of all lines so far, and a
line takes away exactly the frames, at any place of either stack, whose bodies lie deeper than the
depth it ends at. -/

namespace Registrar.Progress

variable {limit : Int} {progress : Progress}

theorem trackLines_append (marker header : Text) (first second : List Text) (progress : Progress) :
    progress.trackLines marker header (first ++ second) =
      (progress.trackLines marker header first).trackLines marker header second :=
  List.foldl_append

@[simp] theorem depth_openScopes (marker header line : Text) (progress : Progress) :
    (progress.openScopes marker header line).scopes.depth = progress.scopes.depth := by
  rcases h : progress.scopes.headings marker line with ⟨_ | head, pending⟩
  · rw [openScopes_of_none marker header h]
    rfl
  · rw [openScopes_of_some marker header h]
    rfl

private theorem depth_track (marker header line : Text) (progress : Progress) :
    (progress.track marker header line).scopes.depth =
      progress.scopes.depth + (Braces.ofLine line).change := by
  have hclose : (progress.track marker header line).scopes.depth =
      (progress.openScopes marker header line).scopes.depth + (Braces.ofLine line).change := rfl
  rw [hclose, depth_openScopes]

/-- The depth counts braces and looks at nothing else. -/
private theorem depth_trackLines (marker header : Text) (lines : List Text) (progress : Progress) :
    (progress.trackLines marker header lines).scopes.depth =
      progress.scopes.depth + (lines.flatten.count '{' - lines.flatten.count '}') := by
  induction lines generalizing progress with
  | nil => simp [trackLines]
  | cons line lines ih =>
    refine (ih (progress.track marker header line)).trans ?_
    simp only [depth_track, Braces.change, Braces.ofLine, List.flatten_cons, List.count_append,
      Int.natCast_add]
    omega

/-- Closing looks at the top of the namespaces only, but it leaves those that are not too deep. -/
theorem Nested.namespaces_closeScopes (h : Nested limit progress) (line : Text) :
    (progress.closeScopes line).scopes.namespaces = progress.scopes.namespaces.filter
      fun frame => frame.bodyDepth ≤ (progress.closeScopes line).scopes.depth :=
  dropWhile_eq_filter h.namespaces_deeper

/-- Closing looks at the innermost classes only, but it leaves those that are not too deep. -/
theorem Nested.classes_closeScopes (h : Nested limit progress) (line : Text) :
    (progress.closeScopes line).scopes.classes = progress.scopes.classes.filter
      fun frame => frame.bodyDepth ≤ (progress.closeScopes line).scopes.depth :=
  dropWhile_eq_filter (h.classes_deeper.imp Int.le_of_lt)

/-- In every state that lines can lead to, the depth is the number of braces opened less those
closed, and it may be negative; no open body is deeper, bodies grow deeper inwards, and the classes
on the stack were found in the order in which they lie inside one another. Whatever the next line
is, it closes exactly the frames, those it has opened itself among them, whose bodies are deeper
than the depth after it, and keeps the others in their order. -/
theorem frames_close_by_depth (marker header : Text) (registry : Registry) (before : List Text)
    (line : Text) :
    let progress := trackLines marker header before ⟨{}, registry⟩
    let opened := progress.openScopes marker header line
    let closed := opened.closeScopes line
    let depth : Int :=
      (before ++ [line]).flatten.count '{' - (before ++ [line]).flatten.count '}'
    progress.scopes.depth = before.flatten.count '{' - before.flatten.count '}' ∧
      Nested progress.scopes.depth progress ∧
      closed.scopes.depth = depth ∧
      closed.scopes.namespaces =
        opened.scopes.namespaces.filter (fun frame => frame.bodyDepth ≤ depth) ∧
      closed.scopes.classes =
        opened.scopes.classes.filter (fun frame => frame.bodyDepth ≤ depth) := by
  intro progress opened closed depth
  have hnested : Nested progress.scopes.depth progress :=
    (nested_start registry).trackLines marker header before
  have hopened := hnested.openScopes marker header line
  have hdepth : ∀ lines : List Text, (trackLines marker header lines ⟨{}, registry⟩).scopes.depth =
      lines.flatten.count '{' - lines.flatten.count '}' := fun lines =>
    (depth_trackLines marker header lines ⟨{}, registry⟩).trans (Int.zero_add _)
  have hclosed : closed = trackLines marker header (before ++ [line]) ⟨{}, registry⟩ := by
    rw [trackLines_append]
    rfl
  have hnext : closed.scopes.depth = depth := hclosed ▸ hdepth (before ++ [line])
  refine ⟨hdepth before, hnested, hnext, ?_, ?_⟩
  · rw [← hnext]
    exact hopened.namespaces_closeScopes line
  · rw [← hnext]
    exact hopened.classes_closeScopes line

/-- One line closes two classes and leaves the namespace around them open. -/
example :
    let inside := trackLines "REFLECT_CLASS".toList "a.hpp".toList
      ["namespace a \x7b".toList, "class Outer \x7b".toList, "struct Inner \x7b".toList] {}
    let after := inside.track "REFLECT_CLASS".toList "a.hpp".toList "\x7d; \x7d;".toList
    inside.scopes.namespaces = [⟨"a".toList, 1⟩] ∧
      inside.scopes.classes = [⟨1, 3, {}⟩, ⟨0, 2, {}⟩] ∧
      after.scopes.namespaces = [⟨"a".toList, 1⟩] ∧ after.scopes.classes = [] := by
  decide +kernel

end Registrar.Progress
