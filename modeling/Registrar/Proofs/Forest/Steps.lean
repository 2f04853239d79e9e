import Mathlib.Data.List.Basic
import Registrar.Proofs.Forest.Lines
import Registrar.Proofs.QualifiedNames
import Registrar.Proofs.ScopeNesting

/-! What one line of a forest does to the scopes: it opens a scope, closes the innermost one, or
speaks about the innermost class. -/

namespace Registrar

namespace Progress

variable {progress : Progress}

private theorem path_congr {registry : Registry} (h : ∀ frame ∈ progress.scopes.classes,
      registry[frame.index]?.map (·.name.name) =
        progress.registry[frame.index]?.map (·.name.name)) :
    path ⟨progress.scopes, registry⟩ = progress.path := by
  have hnames : progress.scopes.classes.filterMap
      (fun frame => registry[frame.index]?.map (·.name.name)) =
      progress.scopes.classes.filterMap
        (fun frame => progress.registry[frame.index]?.map (·.name.name)) :=
    List.filterMap_congr h
  rw [path, path, Scopes.segments, Scopes.segments, hnames]

/-- Classes found inside a scope have no part in its path. -/
theorem path_append (h : ∀ frame ∈ progress.scopes.classes,
      frame.index < progress.registry.length) (more : Registry) :
    path ⟨progress.scopes, progress.registry ++ more⟩ = progress.path := by
  apply path_congr
  intro frame hframe
  rw [List.getElem?_append_left (h frame hframe)]

theorem path_update {change : ReflectedClass → ReflectedClass}
    (hname : ∀ cls, (change cls).name = cls.name) (index : Nat) :
    path ⟨progress.scopes, progress.registry.update index change⟩ = progress.path := by
  apply path_congr
  intro frame _
  rw [Registry.update, List.getElem?_modify, Option.map_eq_map, Option.map_map]
  refine congrArg (Option.map · _) ?_
  funext cls
  by_cases hindex : index = frame.index
  · simp only [Function.comp, if_pos hindex, hname]
  · simp only [Function.comp, if_neg hindex]

def enterClass (cls : ReflectedClass) (progress : Progress) : Progress where
  scopes := { progress.scopes with
    depth := progress.scopes.depth + 1
    classes :=
      ⟨progress.registry.length, progress.scopes.depth + 1, {}⟩ :: progress.scopes.classes }
  registry := progress.registry ++ [cls]

def enterSpace (name : Text) (progress : Progress) : Progress where
  scopes := { progress.scopes with
    depth := progress.scopes.depth + 1
    namespaces := ⟨name, progress.scopes.depth + 1⟩ :: progress.scopes.namespaces }
  registry := progress.registry

theorem path_enterClass (h : ∀ frame ∈ progress.scopes.classes,
      frame.index < progress.registry.length) (cls : ReflectedClass)
    (hname : cls.name.name.isIdentifier = true) :
    (progress.enterClass cls).path = progress.path ++ [cls.name.name] := by
  have hne : ¬ cls.name.name.isEmpty = true := by
    simpa using Text.ne_nil_of_isIdentifier hname
  have hcolon : ':' ∉ cls.name.name := Text.not_mem_of_isIdentifier hname (by decide)
  rw [← path_append h [cls]]
  simp only [path, enterClass, Scopes.segments, QualifiedName.ofSegments, List.filterMap_cons,
    List.getElem?_append_right (Nat.le_refl _), Nat.sub_self, List.getElem?_cons_zero,
    Option.map_some, List.reverse_cons, ← List.append_assoc, List.flatMap_append,
    List.filter_append, List.flatMap_cons, List.flatMap_nil, QualifiedName.splitScope_word hcolon,
    List.append_nil]
  rw [List.filter_cons_of_pos (by simpa using hne), List.filter_nil]

theorem path_enterSpace (h : progress.scopes.classes = []) {w : Text} {ws : List Text}
    (hw : w.isIdentifier = true) (hws : ∀ w ∈ ws, w.isIdentifier = true) :
    (progress.enterSpace (w ++ Heading.chained ws)).path = progress.path ++ w :: ws := by
  have hkept : (w :: ws).filter (fun part => !part.isEmpty) = w :: ws := by
    rw [List.filter_eq_self]
    intro part hpart
    have hident : part.isIdentifier = true := (List.mem_cons.mp hpart).elim (· ▸ hw) (hws part)
    simpa using Text.ne_nil_of_isIdentifier hident
  have hcolon : ':' ∉ w := Text.not_mem_of_isIdentifier hw (by decide)
  have hcolons : ∀ w ∈ ws, ':' ∉ w := fun w hmem =>
    Text.not_mem_of_isIdentifier (hws w hmem) (by decide)
  simp only [path, enterSpace, Scopes.segments, QualifiedName.ofSegments, h, List.filterMap_nil,
    List.reverse_nil, List.append_nil, List.map_cons, List.reverse_cons, List.flatMap_append,
    List.filter_append, List.flatMap_cons, List.flatMap_nil,
    QualifiedName.splitScope_word_chained hcolon hcolons, hkept]

/-- Between two constructs no class head is pending and no marker waits. -/
structure Ready (progress : Progress) : Prop where
  nested : Nested progress.scopes.depth progress
  pending : progress.scopes.pending = none
  slots : ∀ frame ∈ progress.scopes.classes, frame.slots = {}

variable {markers : Markers} {header line : Text} {frame : ClassFrame} {outer : List ClassFrame}

theorem Ready.withRegistry (h : Ready progress) {registry : Registry}
    (hlength : progress.registry.length ≤ registry.length) : Ready ⟨progress.scopes, registry⟩ := by
  obtain ⟨⟨hns, hnsd, hle, hdeeper, hlt, hlater⟩, hpending, hslots⟩ := h
  refine ⟨⟨hns, hnsd, hle, hdeeper, ?_, hlater⟩, hpending, hslots⟩
  intro frame hframe
  exact Nat.lt_of_lt_of_le (hlt frame hframe) hlength

theorem Ready.enterClass (h : Ready progress) (cls : ReflectedClass) :
    Ready (progress.enterClass cls) := by
  obtain ⟨⟨hns, hnsd, hle, hdeeper, hlt, hlater⟩, hpending, hslots⟩ := h
  refine ⟨⟨?_, hnsd, ?_, ?_, ?_, ?_⟩, hpending, ?_⟩
  · intro frame hframe
    exact Int.le_add_one (hns frame hframe)
  · refine List.forall_mem_cons.mpr ⟨Int.le_refl _, ?_⟩
    intro frame hframe
    exact Int.le_add_one (hle frame hframe)
  · refine List.pairwise_cons.mpr ⟨?_, hdeeper⟩
    intro frame hframe
    exact Int.lt_add_one_of_le (hle frame hframe)
  · intro frame hframe
    rw [Progress.enterClass, List.length_append, List.length_singleton]
    rcases List.mem_cons.mp hframe with rfl | hframe
    · exact Nat.lt_succ_self _
    · exact Nat.lt_succ_of_lt (hlt frame hframe)
  · exact List.pairwise_cons.mpr ⟨hlt, hlater⟩
  · exact List.forall_mem_cons.mpr ⟨rfl, hslots⟩

theorem Ready.enterSpace (h : Ready progress) (name : Text) : Ready (progress.enterSpace name) := by
  obtain ⟨⟨hns, hnsd, hle, hdeeper, hlt, hlater⟩, hpending, hslots⟩ := h
  refine ⟨⟨?_, ?_, ?_, hdeeper, hlt, hlater⟩, hpending, hslots⟩
  · refine List.forall_mem_cons.mpr ⟨Int.le_refl _, ?_⟩
    intro frame hframe
    exact Int.le_add_one (hns frame hframe)
  · refine List.pairwise_cons.mpr ⟨?_, hnsd⟩
    intro frame hframe
    exact Int.le_add_one (hns frame hframe)
  · intro frame hframe
    exact Int.le_add_one (hle frame hframe)

theorem Ready.await_none (h : Ready progress) : progress.await none = progress := by
  simp only [await, ← h.pending]

private theorem annotate_top (hclasses : progress.scopes.classes = frame :: outer)
    {effects : List Effect} (heffects : markers.effects line frame.slots = effects) :
    progress.annotate markers line =
      { scopes := { progress.scopes with
          classes := { frame with slots := Effect.slotsAfter effects frame.slots } :: outer }
        registry := progress.registry.update frame.index (Effect.classAfter effects) } := by
  subst heffects
  simp only [annotate, hclasses]
  rfl

/-- A line without markers is passed over. -/
theorem annotate_of_absentFrom (hslots : ∀ frame ∈ progress.scopes.classes, frame.slots = {})
    (habsent : markers.absentFrom line = true) : progress.annotate markers line = progress := by
  rcases hclasses : progress.scopes.classes with _ | ⟨frame, outer⟩
  · simp only [annotate, hclasses]
  · have hslots : frame.slots = {} := hslots frame (by simp [hclasses])
    have heffects : markers.effects line frame.slots = [] := by
      rw [hslots, Markers.effects_empty_of_absentFrom habsent]
    have hregistry : progress.registry.update frame.index (Effect.classAfter []) =
        progress.registry := List.modify_id ..
    rw [annotate_top hclasses heffects, hregistry]
    simp only [Effect.slotsAfter, List.foldl_nil, ← hclasses]

theorem change_of_isFlat (h : Text.IsFlat line) : (Braces.ofLine line).change = 0 := by
  rw [Braces.ofLine, List.count_eq_zero.mpr h.1, List.count_eq_zero.mpr h.2]
  rfl

/-- Without any brace a line speaks about the innermost class only. -/
theorem readLine_of_isFlat (hnested : Nested progress.scopes.depth progress)
    (hclasses : progress.scopes.classes = frame :: outer) {effects : List Effect}
    (heffects : markers.effects line frame.slots = effects) (hflat : Text.IsFlat line)
    (hhead : heading? markers.onClass line = none ∨
      heading? markers.onClass line = some .forward) :
    progress.readLine markers header line =
      { scopes := { progress.scopes with
          classes := { frame with slots := Effect.slotsAfter effects frame.slots } :: outer }
        registry := progress.registry.update frame.index (Effect.classAfter effects) } := by
  have hle := hnested.classes_le
  rw [hclasses] at hle
  rw [readLine_of_plain hflat.1 hhead, annotate_top hclasses heffects]
  refine closeScopes_of_le _ ?_ hnested.namespaces_le ?_
  · rw [change_of_isFlat hflat, Int.add_zero]
  · exact List.forall_mem_cons.mpr (List.forall_mem_cons.mp hle)

/-- A line opens the body of a class. The markers on it speak about that class already. -/
theorem readLine_opens (hready : Ready progress) (header : Text) {pending : Option ClassHead}
    {head : ClassHead} {effects : List Effect} (hnamespaces : Heading.namespaces line = [])
    (hheadings : (progress.await pending).scopes.headings markers.onClass line = (some head, none))
    (hmarks : marksLaterClass markers.onClass line = false)
    (hbraces : Braces.ofLine line = ⟨1, 0⟩) (heffects : markers.effects line {} = effects)
    (hslots : Effect.slotsAfter effects {} = {}) :
    (progress.await pending).readLine markers header line =
      progress.enterClass (Effect.classAfter effects (progress.fresh header head)) := by
  have hopen : (progress.await pending).openScopes markers.onClass header line =
      progress.openClass header head := by
    rw [openScopes_of_some markers.onClass header hheadings, enter_of_nil hnamespaces]
    exact congrArg (openClass header head) hready.await_none
  have hannotate : (progress.openClass header head).annotate markers line = _ :=
    annotate_top rfl heffects
  have hregistry := Registry.update_append_right progress.registry [progress.fresh header head] 0
    (Effect.classAfter effects)
  have hentered := (hready.enterClass (progress.fresh header head)).nested
  rw [readLine, hopen, readMarkers, hmarks, if_neg Bool.false_ne_true, hannotate]
  refine (closeScopes_of_le (progress.scopes.depth + 1) ?_ ?_ ?_).trans ?_
  · rw [hbraces]
    rfl
  · exact hentered.namespaces_le
  · exact List.forall_mem_cons.mpr (List.forall_mem_cons.mp hentered.classes_le)
  · rw [hslots]
    exact congrArg _ hregistry

/-- A line opens a namespace. -/
theorem readLine_space (hready : Ready progress) {name : Text}
    (hnamespaces : Heading.namespaces line = [name])
    (hhead : heading? markers.onClass line = none) (hbraces : Braces.ofLine line = ⟨1, 0⟩)
    (habsent : markers.absentFrom line = true) :
    progress.readLine markers header line = progress.enterSpace name := by
  have hheadings : progress.scopes.headings markers.onClass line = (none, none) := by
    simp only [Scopes.headings, hhead, hready.pending]
    split <;> rfl
  have henter : progress.enter line none = { progress with scopes := { progress.scopes with
      namespaces := ⟨name, progress.scopes.depth + 1⟩ :: progress.scopes.namespaces } } := by
    simp only [enter, Scopes.openNamespaces, hnamespaces, ← hready.pending]
    rfl
  have hmarks : marksLaterClass markers.onClass line = false := by
    simp only [marksLaterClass, hhead]
  have hslots : ∀ frame ∈ (progress.enter line none).scopes.classes, frame.slots = {} :=
    hready.slots
  rw [readLine, openScopes_of_none markers.onClass header hheadings, readMarkers, hmarks,
    if_neg Bool.false_ne_true, annotate_of_absentFrom hslots habsent, henter]
  refine closeScopes_of_le (progress.scopes.depth + 1) ?_ ?_ ?_
  · rw [hbraces]
    rfl
  · exact (hready.enterSpace name).nested.namespaces_le
  · exact (hready.enterSpace name).nested.classes_le

def IsClosing (line : Text) : Prop := line = ['}'] ∨ line = ['}', ';']

private theorem readLine_closing (h : markers.Apart) (hclosing : IsClosing line)
    (hslots : ∀ frame ∈ progress.scopes.classes, frame.slots = {}) :
    progress.readLine markers header line = progress.closeScopes line := by
  have hwordless : line.isWordless = true := by
    rcases hclosing with rfl | rfl <;> decide
  have habsent := Markers.absentFrom_of_isWordless h hwordless
  have hbrace : '{' ∉ line := by
    rcases hclosing with rfl | rfl <;> decide
  have hhead : heading? markers.onClass line = none := by
    apply heading?_of_className?
    rw [Marker.skipLeading_of_absent (Markers.onClass_absent habsent)]
    rcases hclosing with rfl | rfl <;> rfl
  rw [readLine_of_plain hbrace (.inl hhead), annotate_of_absentFrom hslots habsent]

private theorem depth_closing (hclosing : IsClosing line) (depth : Int) :
    depth + 1 + (Braces.ofLine line).change = depth := by
  have hchange : (Braces.ofLine line).change = -1 := by
    rcases hclosing with rfl | rfl <;> rfl
  omega

/-- The brace at the end of a class closes that class and nothing else. -/
theorem readLine_closes_class (h : markers.Apart) (hready : Ready progress)
    (hclosing : IsClosing line) (cls : ReflectedClass) (registry : Registry) :
    readLine markers header line ⟨(progress.enterClass cls).scopes, registry⟩ =
      ⟨progress.scopes, registry⟩ := by
  have hread : readLine markers header line ⟨(progress.enterClass cls).scopes, registry⟩ =
      closeScopes line ⟨(progress.enterClass cls).scopes, registry⟩ :=
    readLine_closing h hclosing (hready.enterClass cls).slots
  have hpop := dropWhile_cons_of_le ClassFrame.bodyDepth
    ⟨progress.registry.length, progress.scopes.depth + 1, {}⟩
    (Int.lt_add_one_of_le (Int.le_refl _)) hready.nested.classes_le
  rw [hread]
  simp only [closeScopes, Scopes.close, enterClass, depth_closing hclosing,
    dropWhile_of_le hready.nested.namespaces_le, hpop]

/-- The brace at the end of a namespace closes that namespace and nothing else. -/
theorem readLine_closes_space (h : markers.Apart) (hready : Ready progress)
    (hclosing : IsClosing line) (name : Text) (registry : Registry) :
    readLine markers header line ⟨(progress.enterSpace name).scopes, registry⟩ =
      ⟨progress.scopes, registry⟩ := by
  have hread : readLine markers header line ⟨(progress.enterSpace name).scopes, registry⟩ =
      closeScopes line ⟨(progress.enterSpace name).scopes, registry⟩ :=
    readLine_closing h hclosing hready.slots
  have hpop := dropWhile_cons_of_le NamespaceFrame.bodyDepth
    ⟨name, progress.scopes.depth + 1⟩ (Int.lt_add_one_of_le (Int.le_refl _))
    hready.nested.namespaces_le
  rw [hread]
  simp only [closeScopes, Scopes.close, enterSpace, depth_closing hclosing,
    dropWhile_of_le hready.nested.classes_le, hpop]

end Progress

end Registrar
