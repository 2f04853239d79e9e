import Registrar.Proofs.ScopeNesting

/-! Balanced text restores the scopes: lines that never sink below the depth they start at, and end
at it, leave both stacks as they found them, whatever they open in between. -/

namespace Registrar

/-- A stack grown from `base` by frames whose bodies are deeper than `floor`. -/
def GrownAbove {α : Type} (depthOf : α → Int) (floor : Int) (base stack : List α) : Prop :=
  ∃ fresh, stack = fresh ++ base ∧ ∀ frame ∈ fresh, floor < depthOf frame

namespace GrownAbove

variable {α : Type} {depthOf : α → Int} {floor depth : Int} {base stack : List α}

private theorem refl (depthOf : α → Int) (floor : Int) (base : List α) :
    GrownAbove depthOf floor base base :=
  ⟨[], rfl, by simp⟩

private theorem push (h : GrownAbove depthOf floor base stack) (frames : List α)
    (hframes : ∀ frame ∈ frames, floor < depthOf frame) :
    GrownAbove depthOf floor base (frames ++ stack) := by
  obtain ⟨fresh, rfl, hfresh⟩ := h
  refine ⟨frames ++ fresh, (List.append_assoc ..).symm, ?_⟩
  intro frame hframe
  exact (List.mem_append.mp hframe).elim (hframes frame) (hfresh frame)

/-- Popping stops at the base as long as the depth stays at or above the floor. -/
private theorem pop (h : GrownAbove depthOf floor base stack)
    (hbase : ∀ frame ∈ base, depthOf frame ≤ floor) (hdepth : floor ≤ depth) :
    GrownAbove depthOf floor base (stack.dropWhile fun frame => depth < depthOf frame) := by
  obtain ⟨fresh, rfl, hfresh⟩ := h
  have hstop := Progress.dropWhile_of_le fun frame hframe =>
    Int.le_trans (hbase frame hframe) hdepth
  refine ⟨fresh.dropWhile fun frame => depth < depthOf frame, ?_, ?_⟩
  · rw [List.dropWhile_append, hstop]
    split
    · rename_i hempty
      rw [List.isEmpty_iff.mp hempty, List.nil_append]
    · rfl
  · intro frame hframe
    exact hfresh frame ((List.dropWhile_sublist _).mem hframe)

/-- Frames deeper than the floor cannot be left when nothing on the stack is. -/
private theorem eq_base (h : GrownAbove depthOf floor base stack)
    (hstack : ∀ frame ∈ stack, depthOf frame ≤ floor) : stack = base := by
  obtain ⟨fresh, rfl, hfresh⟩ := h
  cases fresh with
  | nil => rfl
  | cons first more =>
    have hle := hstack first (by simp)
    have hlt := hfresh first (by simp)
    omega

end GrownAbove

namespace Progress

/-- Follows the scopes of one line and reads no markers. -/
def track (marker header line : Text) (progress : Progress) : Progress :=
  (progress.openScopes marker header line).closeScopes line

def trackLines (marker header : Text) (lines : List Text) (progress : Progress) : Progress :=
  lines.foldl (fun progress line => progress.track marker header line) progress

variable {start progress : Progress} {floor : Int}

theorem Nested.trackLines (h : Nested progress.scopes.depth progress) (marker header : Text)
    (lines : List Text) :
    Nested (progress.trackLines marker header lines).scopes.depth
      (progress.trackLines marker header lines) := by
  induction lines generalizing progress with
  | nil => exact h
  | cons line lines ih => exact ih ((h.openScopes marker header line).closeScopes line)

/-- Both stacks of a progress have grown from those of `start`, which lie at its depth or below. -/
structure Above (start progress : Progress) : Prop where
  depth_le : start.scopes.depth ≤ progress.scopes.depth
  namespaces : GrownAbove NamespaceFrame.bodyDepth start.scopes.depth
    start.scopes.namespaces progress.scopes.namespaces
  classes : GrownAbove ClassFrame.bodyDepth start.scopes.depth
    start.scopes.classes progress.scopes.classes

private theorem Above.refl (start : Progress) : Above start start :=
  ⟨Int.le_refl _, .refl _ _ _, .refl _ _ _⟩

/-- One line keeps the old frames in place, provided that it ends no lower than the start. -/
private theorem Above.track (h : Above start progress) (hstart : Nested start.scopes.depth start)
    (marker header line : Text)
    (hdepth : start.scopes.depth ≤ (progress.track marker header line).scopes.depth) :
    Above start (progress.track marker header line) := by
  have hfloor := h.depth_le
  refine ⟨hdepth, ?_, ?_⟩
  · refine GrownAbove.pop ?_ hstart.namespaces_le hdepth
    rw [namespaces_openScopes]
    apply h.namespaces.push
    intro frame hframe
    obtain ⟨name, _, rfl⟩ := List.mem_map.mp (List.mem_reverse.mp hframe)
    exact Int.lt_add_one_of_le hfloor
  · refine GrownAbove.pop ?_ hstart.classes_le hdepth
    obtain ⟨hclasses, _⟩ | ⟨cls, hclasses, _⟩ := openScopes_cases marker header line progress
    · rw [hclasses]
      exact h.classes
    · rw [hclasses]
      apply h.classes.push [_]
      intro frame hframe
      rw [List.mem_singleton.mp hframe]
      exact Int.lt_add_one_of_le hfloor

/-- Lines that stay at or above the depth of the start keep its frames in place. -/
private theorem Above.trackLines (h : Above start progress)
    (hstart : Nested start.scopes.depth start) (marker header : Text) (lines : List Text)
    (hdepth : ∀ count ≤ lines.length, start.scopes.depth ≤
      (progress.trackLines marker header (lines.take count)).scopes.depth) :
    Above start (progress.trackLines marker header lines) := by
  induction lines generalizing progress with
  | nil => exact h
  | cons line lines ih =>
    have hline : Above start (progress.track marker header line) :=
      h.track hstart marker header line (hdepth 1 (Nat.succ_le_succ (Nat.zero_le _)))
    apply ih hline
    intro count hcount
    exact hdepth (count + 1) (Nat.succ_le_succ hcount)

/-- Whatever the lines contain, both stacks come back frame by frame once the depth is back where
it started, provided that it was never below that after a line. The start is any state that lines
can lead to. -/
theorem trackLines_restores_scopes (marker header : Text) (registry : Registry)
    (before lines : List Text) :
    let start := trackLines marker header before ⟨{}, registry⟩
    let stop := start.trackLines marker header lines
    (∀ count ≤ lines.length, start.scopes.depth ≤
      (start.trackLines marker header (lines.take count)).scopes.depth) →
    stop.scopes.depth = start.scopes.depth →
    stop.scopes.namespaces = start.scopes.namespaces ∧
      stop.scopes.classes = start.scopes.classes := by
  intro start stop hdepth hback
  have hstart : Nested start.scopes.depth start :=
    (nested_start registry).trackLines marker header before
  have hstop : Nested stop.scopes.depth stop := hstart.trackLines marker header lines
  have habove : Above start stop :=
    (Above.refl start).trackLines hstart marker header lines hdepth
  rw [hback] at hstop
  exact ⟨habove.namespaces.eq_base hstop.namespaces_le, habove.classes.eq_base hstop.classes_le⟩

/-- Inside a namespace and a class: a namespace and a split class head open and close again, two
frames with one line. -/
theorem trackLines_restores_scopes_nested :
    let start := trackLines "REFLECT_CLASS".toList "a.hpp".toList
      ["namespace a \x7b".toList, "class Outer \x7b".toList] {}
    let stop := start.trackLines "REFLECT_CLASS".toList "a.hpp".toList
      ["namespace b \x7b".toList, "struct Inner".toList, "\x7b".toList, "\x7d; \x7d".toList]
    stop.registry.length = 2 ∧ stop.scopes.namespaces = start.scopes.namespaces ∧
      stop.scopes.classes = start.scopes.classes :=
  ⟨by decide +kernel,
    trackLines_restores_scopes _ _ [] _ _ (by decide +kernel) (by decide +kernel)⟩

end Progress

end Registrar
