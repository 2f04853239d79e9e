import Registrar.Proofs.ScopeNesting

/-! A line writes to the innermost class only, and a class whose body is closed is final. -/

namespace Registrar

/-- The same class, read further: its name and its header stay, bindings are added behind. -/
structure ReflectedClass.Extends (old new : ReflectedClass) : Prop where
  name_eq : new.name = old.name
  header_eq : new.header = old.header
  bindings : ∀ kind, old.bindings kind <+: new.bindings kind

namespace ReflectedClass.Extends

variable {a b c : ReflectedClass}

private theorem refl (a : ReflectedClass) : a.Extends a :=
  ⟨rfl, rfl, fun _ => List.prefix_rfl⟩

private theorem trans (hab : a.Extends b) (hbc : b.Extends c) : a.Extends c :=
  ⟨hbc.name_eq.trans hab.name_eq, hbc.header_eq.trans hab.header_eq,
    fun kind => (hab.bindings kind).trans (hbc.bindings kind)⟩

private theorem addBinding (kind : BindingKind) (binding : Binding) (cls : ReflectedClass) :
    cls.Extends (cls.addBinding kind binding) := by
  refine ⟨name_addBinding .., header_addBinding .., ?_⟩
  intro other
  rw [bindings_addBinding]
  exact List.prefix_append ..

private theorem onClass (effect : Effect) (cls : ReflectedClass) :
    cls.Extends (effect.onClass cls) := by
  cases effect with
  | register registration =>
    refine ⟨name_register .., header_register .., ?_⟩
    intro kind
    exact bindings_register registration cls kind ▸ List.prefix_rfl
  | bind kind binding => exact addBinding kind binding cls
  | wait kind explicit => exact refl cls
  | resolve kind binding => exact addBinding kind binding cls

theorem annotateClass (markers : Markers) (line : Text) (slots : Slots) (cls : ReflectedClass) :
    cls.Extends (markers.annotateClass line slots cls) := by
  unfold Markers.annotateClass
  induction markers.effects line slots generalizing cls with
  | nil => exact refl cls
  | cons effect effects ih => exact (onClass effect cls).trans (ih (effect.onClass cls))

end ReflectedClass.Extends

namespace Progress

variable {markers : Markers} {header line : Text} {progress : Progress} {index : Nat}
  {cls : ReflectedClass}

theorem registry_openScopes_of_lt (marker header line : Text)
    (h : index < progress.registry.length) :
    (progress.openScopes marker header line).registry[index]? = progress.registry[index]? := by
  obtain ⟨_, hregistry⟩ | ⟨cls, _, hregistry⟩ := openScopes_cases marker header line progress
  · rw [hregistry]
  · rw [hregistry, List.getElem?_append_left h]

theorem registry_readMarkers_of_ne (markers : Markers) (line : Text)
    (h : ∀ top ∈ progress.scopes.innermost?, top.index ≠ index) :
    (progress.readMarkers markers line).registry[index]? = progress.registry[index]? := by
  obtain heq | ⟨frame, outer, hclasses, heq⟩ := readMarkers_cases markers line progress
  · rw [heq]
  · rw [heq]
    apply List.getElem?_modify_ne
    apply h frame
    rw [Scopes.innermost?, hclasses]
    rfl

private theorem extends_readMarkers (markers : Markers) (line : Text)
    (h : progress.registry[index]? = some cls) :
    ∃ now, (progress.readMarkers markers line).registry[index]? = some now ∧ cls.Extends now := by
  obtain heq | ⟨frame, outer, _, heq⟩ := readMarkers_cases markers line progress
  · refine ⟨cls, ?_, .refl cls⟩
    rw [heq]
    exact h
  · by_cases hindex : frame.index = index
    · refine ⟨markers.annotateClass line frame.slots cls, ?_, .annotateClass ..⟩
      rw [heq, Registry.update, hindex, List.getElem?_modify_eq, h]
      rfl
    · refine ⟨cls, ?_, .refl cls⟩
      rw [heq]
      exact (List.getElem?_modify_ne _ _ hindex).trans h

private theorem extends_readLine (markers : Markers) (header line : Text)
    (h : progress.registry[index]? = some cls) :
    ∃ now, (progress.readLine markers header line).registry[index]? = some now ∧
      cls.Extends now := by
  have hlt : index < progress.registry.length := (List.getElem?_eq_some_iff.mp h).1
  apply extends_readMarkers markers line
  rw [registry_openScopes_of_lt markers.onClass header line hlt, h]

/-- Over a whole run no class changes its name or its header, and none loses a binding. -/
private theorem extends_readLines (markers : Markers) (header : Text) (lines : List Text)
    (h : progress.registry[index]? = some cls) :
    ∃ now, (progress.readLines markers header lines).registry[index]? = some now ∧
      cls.Extends now := by
  induction lines generalizing progress cls with
  | nil => exact ⟨cls, h, .refl cls⟩
  | cons line lines ih =>
    obtain ⟨next, hnext, hcls⟩ := extends_readLine markers header line h
    obtain ⟨now, hnow, hnext⟩ := ih hnext
    exact ⟨now, hnow, hcls.trans hnext⟩

private theorem length_registry_readLine (markers : Markers) (header line : Text)
    (progress : Progress) :
    (progress.readLine markers header line).registry.length = progress.registry.length ∨
      (progress.readLine markers header line).registry.length = progress.registry.length + 1 := by
  have hlength := length_registry_readMarkers markers line
    (progress.openScopes markers.onClass header line)
  obtain ⟨_, hregistry⟩ | ⟨cls, _, hregistry⟩ :=
    openScopes_cases markers.onClass header line progress
  · rw [hregistry] at hlength
    exact Or.inl hlength
  · rw [hregistry, List.length_append] at hlength
    exact Or.inr hlength

private theorem registry_readLine_of_ne (h : progress.registry[index]? = some cls)
    (hne : ∀ top ∈ (progress.openScopes markers.onClass header line).scopes.innermost?,
      top.index ≠ index) :
    (progress.readLine markers header line).registry[index]? = some cls := by
  have hlt : index < progress.registry.length := (List.getElem?_eq_some_iff.mp h).1
  calc (progress.readLine markers header line).registry[index]?
      = (progress.openScopes markers.onClass header line).registry[index]? :=
        registry_readMarkers_of_ne markers line hne
    _ = progress.registry[index]? := registry_openScopes_of_lt markers.onClass header line hlt
    _ = some cls := h

/-- The frames that are open after the markers of a line, the innermost one apart, are those that
were open before the line. -/
private theorem mem_classes_readLine {frame : ClassFrame}
    (h : frame ∈ (progress.readLine markers header line).scopes.classes)
    (hne : ∀ top ∈ (progress.openScopes markers.onClass header line).scopes.innermost?,
      top.index ≠ frame.index) :
    frame ∈ progress.scopes.classes := by
  have hopened : frame ∈ (progress.openScopes markers.onClass header line).scopes.classes := by
    have hread := (List.dropWhile_sublist _).mem h
    obtain heq | ⟨top, outer, hclasses, heq⟩ := readMarkers_cases markers line
      (progress.openScopes markers.onClass header line)
    · rw [heq] at hread
      exact hread
    · rw [heq] at hread
      rcases List.mem_cons.mp hread with rfl | houter
      · refine absurd rfl (hne top ?_)
        rw [Scopes.innermost?, hclasses]
        rfl
      · rw [hclasses]
        exact List.mem_cons_of_mem _ houter
  obtain ⟨hclasses, _⟩ | ⟨cls, hclasses, _⟩ := openScopes_cases markers.onClass header line progress
  · exact hclasses ▸ hopened
  · rw [Scopes.innermost?, hclasses] at hne
    rw [hclasses] at hopened
    rcases List.mem_cons.mp hopened with rfl | hframe
    · exact absurd rfl (hne _ rfl)
    · exact hframe

/-- The class at an index was found and its body is closed: no open frame stands for it. -/
def Closed (index : Nat) (progress : Progress) : Prop :=
  index < progress.registry.length ∧ ∀ frame ∈ progress.scopes.classes, frame.index ≠ index

/-- No later frame gets the index of a class that was found, so a closed class stays closed. -/
private theorem Closed.openScopes (h : Closed index progress) (marker header line : Text) :
    Closed index (progress.openScopes marker header line) := by
  obtain ⟨hlt, hne⟩ := h
  obtain ⟨hclasses, hregistry⟩ | ⟨cls, hclasses, hregistry⟩ :=
    openScopes_cases marker header line progress
  · exact ⟨hregistry ▸ hlt, hclasses ▸ hne⟩
  · refine ⟨?_, ?_⟩
    · rw [hregistry, List.length_append]
      exact Nat.lt_add_right _ hlt
    · rw [hclasses]
      exact List.forall_mem_cons.mpr ⟨Nat.ne_of_gt hlt, hne⟩

private theorem Closed.readLine (h : Closed index progress) (markers : Markers)
    (header line : Text) : Closed index (progress.readLine markers header line) ∧
      (progress.readLine markers header line).registry[index]? = progress.registry[index]? := by
  obtain ⟨hlt, hne⟩ := h.openScopes markers.onClass header line
  have hinner : ∀ top ∈ (progress.openScopes markers.onClass header line).scopes.innermost?,
      top.index ≠ index :=
    fun top htop => hne top (List.mem_of_mem_head? htop)
  refine ⟨⟨?_, ?_⟩, ?_⟩
  · obtain heq | heq := length_registry_readLine markers header line progress
    · exact heq ▸ h.1
    · exact heq ▸ Nat.lt_succ_of_lt h.1
  · intro frame hframe heq
    exact h.2 frame (mem_classes_readLine hframe (fun top htop => heq ▸ hinner top htop)) heq
  · have hget := List.getElem?_eq_getElem h.1
    rw [hget]
    exact registry_readLine_of_ne hget hinner

/-- Whatever is read afterwards, a closed class stays as it is. -/
private theorem Closed.readLines (h : Closed index progress) (markers : Markers) (header : Text)
    (lines : List Text) :
    (progress.readLines markers header lines).registry[index]? = progress.registry[index]? := by
  induction lines generalizing progress with
  | nil => rfl
  | cons line lines ih =>
    obtain ⟨hclosed, heq⟩ := h.readLine markers header line
    exact (ih hclosed).trans heq

def popped (line : Text) (progress : Progress) : List ClassFrame :=
  progress.scopes.classes.takeWhile
    fun frame => (progress.closeScopes line).scopes.depth < frame.bodyDepth

/-- The frames that stay were opened before the closed ones, so none of them stands for the same
class. -/
private theorem closed_of_mem_popped {limit : Int} {frame : ClassFrame} (h : Nested limit progress)
    (hframe : frame ∈ progress.popped line) : Closed frame.index (progress.closeScopes line) := by
  have hsplit : progress.popped line ++ (progress.closeScopes line).scopes.classes =
      progress.scopes.classes := List.takeWhile_append_dropWhile
  have hlater := h.indices_later
  have hlt := h.indices_lt
  rw [← hsplit] at hlater hlt
  refine ⟨hlt frame (List.mem_append_left _ hframe), ?_⟩
  intro kept hkept
  exact Nat.ne_of_lt ((List.pairwise_append.mp hlater).2.2 frame hframe kept hkept)

/-- What one line does to the classes found so far, in every state that lines can lead to: at most
one class is added; a class other than that of the innermost frame stays as it is; frames other
than the innermost one keep their slots. Whatever is read afterwards, every class keeps its name,
its header and the bindings it has, and the classes closed on the line never change again. -/
theorem readLine_writes_innermost_only (markers : Markers) (header : Text) (before : List Text)
    (line : Text) :
    let progress := readLines markers header before {}
    let opened := progress.openScopes markers.onClass header line
    let next := progress.readLine markers header line
    (next.registry.length = progress.registry.length ∨
      next.registry.length = progress.registry.length + 1) ∧
    (∀ index cls, progress.registry[index]? = some cls →
      ((∀ top ∈ opened.scopes.innermost?, top.index ≠ index) →
        next.registry[index]? = some cls) ∧
      ∀ after, ∃ now,
        (next.readLines markers header after).registry[index]? = some now ∧ cls.Extends now) ∧
    (∀ frame ∈ next.scopes.classes,
      (∀ top ∈ opened.scopes.innermost?, top.index ≠ frame.index) →
        frame ∈ progress.scopes.classes) ∧
    (∀ frame ∈ (opened.readMarkers markers line).popped line, ∀ after,
      (next.readLines markers header after).registry[frame.index]? =
        next.registry[frame.index]?) := by
  intro progress opened next
  refine ⟨length_registry_readLine markers header line progress, ?_, ?_, ?_⟩
  · intro index cls hcls
    refine ⟨registry_readLine_of_ne hcls, ?_⟩
    intro after
    exact extends_readLines markers header (line :: after) hcls
  · intro frame hframe hne
    exact mem_classes_readLine hframe hne
  · intro frame hframe after
    have hnested : Nested progress.scopes.depth progress :=
      (nested_start []).readLines markers header before
    have hread := (hnested.openScopes markers.onClass header line).readMarkers markers line
    exact (closed_of_mem_popped hread hframe).readLines markers header after

/-- A line inside two classes: it binds a member of the inner class and closes it. The outer class
keeps what it has, and a member declared afterwards does not reach the inner one. -/
theorem readLine_writes_innermost_only_nested :
    let progress := readLines {} "a.hpp".toList
      ["class Outer \x7b".toList, "class Inner \x7b".toList] {}
    let next := progress.readLine {} "a.hpp".toList "REFLECT_MEMBER() int x; \x7d;".toList
    next.registry[0]? = progress.registry[0]? ∧
      (next.readLines {} "a.hpp".toList ["REFLECT_MEMBER() int y;".toList]).registry[1]? =
        next.registry[1]? := by
  intro progress next
  have h := readLine_writes_innermost_only {} "a.hpp".toList
    ["class Outer \x7b".toList, "class Inner \x7b".toList] "REFLECT_MEMBER() int x; \x7d;".toList
  have houter : progress.registry[0]? =
      some { name := .global "Outer".toList, header := "a.hpp".toList } := by decide +kernel
  refine ⟨((h.2.1 0 _ houter).1 (by decide +kernel)).trans houter.symm, ?_⟩
  exact h.2.2.2 ⟨1, 2, {}⟩ (by decide +kernel) ["REFLECT_MEMBER() int y;".toList]

end Progress

end Registrar
