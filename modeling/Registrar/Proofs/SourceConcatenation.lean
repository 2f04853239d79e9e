import Registrar.Proofs.ScopeSteps
import Registrar.Proofs.Text.Lines

/-! Scanning one source after another. A run does not notice classes that were there before it: it
only counts its own classes from where they end. -/

namespace Registrar

def ClassFrame.shift (base : Registry) (frame : ClassFrame) : ClassFrame :=
  { frame with index := base.length + frame.index }

namespace Progress

/-- The same progress, made after the classes of `base` were found. -/
def shift (base : Registry) (progress : Progress) : Progress where
  scopes := { progress.scopes with classes := progress.scopes.classes.map (ClassFrame.shift base) }
  registry := base ++ progress.registry

variable (base : Registry) (progress : Progress)

private theorem segments_shift :
    (progress.shift base).scopes.segments (progress.shift base).registry =
      progress.scopes.segments progress.registry := by
  have hlookup : ∀ frame : ClassFrame,
      (base ++ progress.registry)[(frame.shift base).index]? = progress.registry[frame.index]? := by
    intro frame
    rw [ClassFrame.shift, List.getElem?_append_right (Nat.le_add_right ..), Nat.add_sub_cancel_left]
  simp only [Scopes.segments, shift, List.filterMap_map, Function.comp_def, hlookup]

private theorem openClass_shift (header : Text) (head : ClassHead) :
    (progress.shift base).openClass header head = (progress.openClass header head).shift base := by
  unfold openClass
  simp only [segments_shift]
  simp only [shift, Registry.push, List.length_append, List.map_cons, ClassFrame.shift,
    List.append_assoc]

private theorem openScopes_shift (marker header line : Text) :
    (progress.shift base).openScopes marker header line =
      (progress.openScopes marker header line).shift base := by
  rcases h : progress.scopes.headings marker line with ⟨_ | head, pending⟩
  · have hs : (progress.shift base).scopes.headings marker line = (none, pending) := h
    rw [openScopes_of_none marker header h, openScopes_of_none marker header hs]
    rfl
  · have hs : (progress.shift base).scopes.headings marker line = (some head, pending) := h
    rw [openScopes_of_some marker header h, openScopes_of_some marker header hs]
    exact openClass_shift base (progress.enter line pending) header head

private theorem readMarkers_shift (markers : Markers) (line : Text) :
    (progress.shift base).readMarkers markers line =
      (progress.readMarkers markers line).shift base := by
  unfold readMarkers
  split
  · rfl
  · unfold annotate
    rcases h : progress.scopes.classes with _ | ⟨frame, outer⟩
    · simp only [shift, h, List.map_nil]
    · simp only [shift, h, List.map_cons, ClassFrame.shift, Registry.update_append_right]

private theorem closeScopes_shift (line : Text) :
    (progress.shift base).closeScopes line = (progress.closeScopes line).shift base := by
  have hclasses : (progress.shift base).scopes.classes.dropWhile
        (fun frame => (progress.closeScopes line).scopes.depth < frame.bodyDepth) =
      (progress.closeScopes line).scopes.classes.map (ClassFrame.shift base) :=
    List.dropWhile_map ..
  exact congrArg (fun classes => Progress.mk
    { (progress.closeScopes line).scopes with classes } (base ++ progress.registry)) hclasses

private theorem readLine_shift (markers : Markers) (header line : Text) :
    (progress.shift base).readLine markers header line =
      (progress.readLine markers header line).shift base := by
  unfold readLine
  rw [openScopes_shift, readMarkers_shift, closeScopes_shift]

/-- Every run goes the same way after other classes were found. -/
private theorem readLines_shift (markers : Markers) (header : Text) (lines : List Text) :
    (progress.shift base).readLines markers header lines =
      (progress.readLines markers header lines).shift base := by
  induction lines generalizing progress with
  | nil => rfl
  | cons line lines ih =>
    have hstep := ih (progress.readLine markers header line)
    rw [← readLine_shift] at hstep
    exact hstep

/-- Once every scope is closed, the rest of the lines is read as from the start. -/
private theorem registry_readLines_of_neutral {progress : Progress} (h : progress.scopes = {})
    (markers : Markers) (header : Text) (lines : List Text) :
    (progress.readLines markers header lines).registry =
      progress.registry ++ (readLines markers header lines {}).registry := by
  have hshift : progress = ({} : Progress).shift progress.registry := by
    obtain ⟨scopes, registry⟩ := progress
    obtain rfl : scopes = {} := h
    simp only [shift, List.map_nil, List.append_nil]
  have hrun := readLines_shift progress.registry {} markers header lines
  rw [← hshift] at hrun
  rw [hrun]
  rfl

end Progress

namespace Markers

private theorem needsScan_append (markers : Markers) {s t : Text} (h : markers.needsScan s = true) :
    markers.needsScan (s ++ t) = true := by
  obtain ⟨before, after, rfl⟩ := Text.occursIn_iff.mp h
  refine Text.occursIn_iff.mpr ⟨before, after ++ t, ?_⟩
  simp only [List.append_assoc]

/-- Scanning a concatenation merges the scans, provided that the first source consists of whole
lines and leaves nothing open: no string, no block comment, no brace, no frame, no class head. -/
theorem scan_append (markers : Markers) (header first second : Text)
    (hfirst : markers.needsScan first = true) (hsecond : markers.needsScan second = true)
    (hend : first.getLast? = some '\n')
    (hmode : Text.modeAfter .code first.lines = .code)
    (hscopes : (Progress.readLines markers header first.cleanLines {}).scopes = {}) :
    markers.scan header (first ++ second) =
      (markers.scan header first).merge (markers.scan header second) := by
  obtain ⟨front, rfl⟩ := List.getLast?_eq_some_iff.mp hend
  have hlines : Text.cleanLines (front ++ ['\n'] ++ second) =
      Text.cleanLines (front ++ ['\n']) ++ second.cleanLines := by
    rw [List.append_assoc, List.singleton_append]
    exact Text.cleanLines_append front second hmode
  unfold scan
  rw [if_pos hfirst, if_pos hsecond, if_pos (needsScan_append markers hfirst), hlines,
    Progress.readLines_append]
  exact Progress.registry_readLines_of_neutral hscopes markers header second.cleanLines

/-- The first source opens a namespace on a line with a comment and closes it together with the
class. The class of the second one lies in no namespace. -/
theorem scan_append_two_classes :
    let first := "namespace a \x7b // open\nclass A \x7b REFLECT_CLASS()\n\x7d; \x7d\n".toList
    let second := "struct B \x7b REFLECT_CLASS(\"b\") \x7d;".toList
    let inside : ReflectedClass :=
      ⟨⟨["a".toList], "A".toList⟩, "a.hpp".toList, some "a::A".toList, [], []⟩
    let behind : ReflectedClass := ⟨.global "B".toList, "a.hpp".toList, some "b".toList, [], []⟩
    ({} : Markers).scan "a.hpp".toList first = [inside] ∧
      ({} : Markers).scan "a.hpp".toList second = [behind] ∧
      ({} : Markers).scan "a.hpp".toList (first ++ second) =
        (({} : Markers).scan "a.hpp".toList first).merge
          (({} : Markers).scan "a.hpp".toList second) :=
  ⟨by decide +kernel, by decide +kernel,
    scan_append {} _ _ _ (by decide) (by decide) (by decide) (by decide) (by decide +kernel)⟩

end Markers

end Registrar
