import Registrar.Proofs.ScopeSteps

/-! The order that the open frames keep: bodies grow deeper inwards, and classes that were found
later lie further inside. -/

namespace Registrar

/-- Frames lie inside one another, innermost first, and no body is deeper than `limit`. Namespaces
opened on one line share a depth; classes never do. -/
structure Progress.Nested (limit : Int) (progress : Progress) : Prop where
  namespaces_le : ∀ frame ∈ progress.scopes.namespaces, frame.bodyDepth ≤ limit
  namespaces_deeper : progress.scopes.namespaces.Pairwise
    fun inner outer => outer.bodyDepth ≤ inner.bodyDepth
  classes_le : ∀ frame ∈ progress.scopes.classes, frame.bodyDepth ≤ limit
  classes_deeper : progress.scopes.classes.Pairwise
    fun inner outer => outer.bodyDepth < inner.bodyDepth
  indices_lt : ∀ frame ∈ progress.scopes.classes, frame.index < progress.registry.length
  indices_later : progress.scopes.classes.Pairwise
    fun inner outer => outer.index < inner.index

namespace Progress

/-- A header of which nothing has been read has no frame at all. -/
theorem nested_start (registry : Registry) : Nested 0 ⟨{}, registry⟩ :=
  ⟨by simp, .nil, by simp, .nil, by simp, .nil⟩

/-- Nothing is popped as long as no body is deeper than the depth. -/
theorem dropWhile_of_le {α : Type} {depthOf : α → Int} {depth : Int} {frames : List α}
    (h : ∀ frame ∈ frames, depthOf frame ≤ depth) :
    frames.dropWhile (fun frame => depth < depthOf frame) = frames := by
  cases frames with
  | nil => rfl
  | cons first more =>
    have := h first (List.mem_cons_self ..)
    exact List.dropWhile_cons_of_neg (by simpa using this)

/-- Exactly one frame is popped if its body alone is too deep. -/
theorem dropWhile_cons_of_le {α : Type} (depthOf : α → Int) (first : α) {depth : Int}
    {frames : List α} (hfirst : depth < depthOf first)
    (h : ∀ frame ∈ frames, depthOf frame ≤ depth) :
    (first :: frames).dropWhile (fun frame => depth < depthOf frame) = frames := by
  rw [List.dropWhile_cons_of_pos (by simpa using hfirst), dropWhile_of_le h]

/-- A line that leaves the depth above every open body closes nothing. -/
theorem closeScopes_of_le {progress : Progress} {line : Text} (depth : Int)
    (hdepth : progress.scopes.depth + (Braces.ofLine line).change = depth)
    (hnamespaces : ∀ frame ∈ progress.scopes.namespaces, frame.bodyDepth ≤ depth)
    (hclasses : ∀ frame ∈ progress.scopes.classes, frame.bodyDepth ≤ depth) :
    progress.closeScopes line = { progress with scopes := { progress.scopes with depth } } := by
  simp only [closeScopes, Scopes.close, hdepth, dropWhile_of_le hnamespaces,
    dropWhile_of_le hclasses]

/-- Popping from the top of a stack whose bodies grow deeper inwards takes away every frame that is
too deep, wherever it lies. -/
theorem dropWhile_eq_filter {α : Type} {depthOf : α → Int} {depth : Int} {frames : List α}
    (h : frames.Pairwise fun inner outer => depthOf outer ≤ depthOf inner) :
    frames.dropWhile (fun frame => depth < depthOf frame) =
      frames.filter fun frame => depthOf frame ≤ depth := by
  induction frames with
  | nil => rfl
  | cons first more ih =>
    obtain ⟨hfirst, hmore⟩ := List.pairwise_cons.mp h
    by_cases hdeep : depth < depthOf first
    · rw [List.dropWhile_cons_of_pos (by simpa using hdeep),
        List.filter_cons_of_neg (by simpa using hdeep), ih hmore]
    · have hall : ∀ frame ∈ first :: more, depthOf frame ≤ depth := by
        refine List.forall_mem_cons.mpr ⟨by omega, fun frame hframe => ?_⟩
        have := hfirst frame hframe
        omega
      rw [dropWhile_of_le hall]
      exact (List.filter_eq_self.mpr fun frame hframe => decide_eq_true (hall frame hframe)).symm

private theorem pairwise_dropWhile_le {α : Type} {depthOf : α → Int} {depth : Int}
    {frames : List α} (h : frames.Pairwise fun inner outer => depthOf outer ≤ depthOf inner) :
    ∀ frame ∈ frames.dropWhile (fun frame => depth < depthOf frame), depthOf frame ≤ depth := by
  intro frame hframe
  rw [dropWhile_eq_filter h] at hframe
  exact of_decide_eq_true (List.mem_filter.mp hframe).2

namespace Nested

variable {limit : Int} {progress : Progress}

/-- The frames that a line opens lie one deeper than the depth before it, so above all others. -/
theorem openScopes (h : Nested progress.scopes.depth progress) (marker header line : Text) :
    Nested (progress.scopes.depth + 1) (progress.openScopes marker header line) := by
  have hfresh : ∀ frame ∈ ((Heading.namespaces line).map
      fun name => (⟨name, progress.scopes.depth + 1⟩ : NamespaceFrame)).reverse,
      frame.bodyDepth = progress.scopes.depth + 1 := by
    intro frame hframe
    obtain ⟨name, _, rfl⟩ := List.mem_map.mp (List.mem_reverse.mp hframe)
    rfl
  have hnamespaces : ∀ frame ∈ (progress.openScopes marker header line).scopes.namespaces,
      frame.bodyDepth ≤ progress.scopes.depth + 1 := by
    intro frame hframe
    rw [namespaces_openScopes] at hframe
    rcases List.mem_append.mp hframe with hframe | hframe
    · exact Int.le_of_eq (hfresh frame hframe)
    · have := h.namespaces_le frame hframe
      omega
  have hdeeper : (progress.openScopes marker header line).scopes.namespaces.Pairwise
      fun inner outer => outer.bodyDepth ≤ inner.bodyDepth := by
    rw [namespaces_openScopes]
    refine List.pairwise_append.mpr ⟨?_, h.namespaces_deeper, ?_⟩
    · exact List.pairwise_of_forall_mem_list fun a ha b hb =>
        Int.le_of_eq ((hfresh b hb).trans (hfresh a ha).symm)
    · intro inner hinner outer houter
      have := h.namespaces_le outer houter
      rw [hfresh inner hinner]
      omega
  obtain ⟨hclasses, hregistry⟩ | ⟨cls, hclasses, hregistry⟩ :=
    openScopes_cases marker header line progress
  · refine ⟨hnamespaces, hdeeper, ?_, ?_, ?_, ?_⟩
    · intro frame hframe
      have := h.classes_le frame (hclasses ▸ hframe)
      omega
    · exact hclasses ▸ h.classes_deeper
    · rw [hclasses, hregistry]
      exact h.indices_lt
    · exact hclasses ▸ h.indices_later
  · refine ⟨hnamespaces, hdeeper, ?_, ?_, ?_, ?_⟩ <;> rw [hclasses]
    · intro frame hframe
      rcases List.mem_cons.mp hframe with rfl | hframe
      · exact Int.le_refl _
      · have := h.classes_le frame hframe
        omega
    · refine List.pairwise_cons.mpr ⟨?_, h.classes_deeper⟩
      intro outer houter
      have := h.classes_le outer houter
      exact Int.lt_add_one_of_le this
    · intro frame hframe
      rw [hregistry, List.length_append, List.length_singleton]
      rcases List.mem_cons.mp hframe with rfl | hframe
      · exact Nat.lt_succ_self _
      · exact Nat.lt_succ_of_lt (h.indices_lt frame hframe)
    · exact List.pairwise_cons.mpr ⟨h.indices_lt, h.indices_later⟩

/-- Slots and classes have no part in the order. -/
theorem readMarkers (h : Nested limit progress) (markers : Markers) (line : Text) :
    Nested limit (progress.readMarkers markers line) := by
  obtain heq | ⟨frame, outer, hclasses, heq⟩ := readMarkers_cases markers line progress
  · rw [heq]
    exact h
  · have hlength := length_registry_readMarkers markers line progress
    obtain ⟨hns, hnsd, hle, hdeeper, hlt, hlater⟩ := h
    rw [hclasses] at hle hdeeper hlt hlater
    rw [heq] at hlength ⊢
    refine ⟨hns, hnsd, ?_, ?_, ?_, ?_⟩
    · exact List.forall_mem_cons.mpr (List.forall_mem_cons.mp hle)
    · exact List.pairwise_cons.mpr (List.pairwise_cons.mp hdeeper)
    · rw [hlength]
      exact List.forall_mem_cons.mpr (List.forall_mem_cons.mp hlt)
    · exact List.pairwise_cons.mpr (List.pairwise_cons.mp hlater)

/-- Closing looks at the top of each stack only, but because of the order no frame deeper than the
new depth is left anywhere. -/
theorem closeScopes (h : Nested limit progress) (line : Text) :
    Nested (progress.closeScopes line).scopes.depth (progress.closeScopes line) where
  namespaces_le := pairwise_dropWhile_le h.namespaces_deeper
  namespaces_deeper := h.namespaces_deeper.sublist (List.dropWhile_sublist _)
  classes_le := pairwise_dropWhile_le (h.classes_deeper.imp Int.le_of_lt)
  classes_deeper := h.classes_deeper.sublist (List.dropWhile_sublist _)
  indices_lt := fun frame hframe => h.indices_lt frame ((List.dropWhile_sublist _).mem hframe)
  indices_later := h.indices_later.sublist (List.dropWhile_sublist _)

theorem readLine (h : Nested progress.scopes.depth progress) (markers : Markers)
    (header line : Text) :
    Nested (progress.readLine markers header line).scopes.depth
      (progress.readLine markers header line) :=
  ((h.openScopes markers.onClass header line).readMarkers markers line).closeScopes line

/-- The order holds after every line of every header. -/
theorem readLines (h : Nested progress.scopes.depth progress) (markers : Markers) (header : Text)
    (lines : List Text) :
    Nested (progress.readLines markers header lines).scopes.depth
      (progress.readLines markers header lines) := by
  induction lines generalizing progress with
  | nil => exact h
  | cons line lines ih => exact ih (h.readLine markers header line)

end Nested

end Progress

end Registrar
