import Mathlib.Data.List.Nodup
import Registrar.Proofs.ClassFinality
import Registrar.Proofs.LineEffects

/-! Markers that wait for their declaration. Whatever is read in between, a marker that waits in a
class stays there through every line that is not read for this class or declares nothing to it, and
the first line that does declare something ends the wait. -/

namespace Registrar

namespace Markers

variable (markers : Markers) (kind : BindingKind) (line : Text)

/-- Whether a line without the marker of a kind says nothing about a marker of this kind that
waits: it is looked past or declares nothing. -/
def IsSilent : Prop :=
  Declaration.isTransparent line = true ∨
    Declaration.identifier? kind (markers.strip line) = none

instance : Decidable (markers.IsSilent kind line) :=
  inferInstanceAs (Decidable (_ ∨ _))

variable {markers kind line} (habsent : Text.occursIn (markers.onBinding kind) line = false)
include habsent

private theorem annotate_of_isSilent (h : markers.IsSilent kind line) (slots : Slots) :
    (markers.annotateSlots line slots).get kind = slots.get kind ∧
      markers.bound kind line slots = [] := by
  rw [get_annotateSlots]
  unfold markerEffects slotEffects bound sought?
  rw [habsent]
  rcases h with h | h
  · rw [h]
    exact ⟨rfl, rfl⟩
  · rw [h]
    cases Declaration.isTransparent line <;> cases slots.get kind <;> exact ⟨rfl, rfl⟩

/-- A declaration ends the wait on its own line. -/
private theorem annotate_of_not_isSilent {slots : Slots} {explicit : Text}
    (h : ¬ markers.IsSilent kind line) (hslot : slots.get kind = some explicit) :
    ∃ identifier, Declaration.identifier? kind (markers.strip line) = some identifier ∧
      (markers.annotateSlots line slots).get kind = none ∧
      markers.bound kind line slots = [.named explicit identifier] := by
  obtain ⟨htransparent, hdeclares⟩ := not_or.mp h
  obtain ⟨identifier, hidentifier⟩ := Option.ne_none_iff_exists'.mp hdeclares
  refine ⟨identifier, hidentifier, ?_⟩
  rw [get_annotateSlots]
  unfold markerEffects slotEffects bound sought?
  rw [habsent, Bool.eq_false_iff.mpr htransparent, hidentifier, hslot]
  exact ⟨rfl, rfl⟩

end Markers

namespace Progress

variable {markers : Markers} {header line : Text} {progress : Progress} {kind : BindingKind}
  {index : Nat} {slot : Option Text} {explicit : Text} {bindings : List Binding}

/-- No two open classes are one. -/
private theorem Nested.eq_of_index_eq {limit : Int} {a b : ClassFrame} (h : Nested limit progress)
    (ha : a ∈ progress.scopes.classes) (hb : b ∈ progress.scopes.classes)
    (heq : a.index = b.index) : a = b := by
  have hnodup : (progress.scopes.classes.map ClassFrame.index).Nodup :=
    List.pairwise_map.mpr (h.indices_later.imp fun hlater => (Nat.ne_of_lt hlater).symm)
  exact List.inj_on_of_nodup_map hnodup ha hb heq

/-- The body of the class at an index is open, and the class has the given slot and the given
bindings of one kind. -/
structure Holds (kind : BindingKind) (index : Nat) (slot : Option Text) (bindings : List Binding)
    (progress : Progress) : Prop where
  frame : ∃ frame ∈ progress.scopes.classes, frame.index = index ∧ frame.slots.get kind = slot
  cls : ∃ cls, progress.registry[index]? = some cls ∧ cls.bindings kind = bindings

def IsOpen (index : Nat) (progress : Progress) : Prop :=
  ∃ frame ∈ progress.scopes.classes, frame.index = index

/-- The markers and the declaration of a line are read for the class at an index: its body is the
innermost one on the line, and the line is no marked head of a later class. -/
def ReadsFor (markers : Markers) (header line : Text) (index : Nat) (progress : Progress) : Prop :=
  (progress.openScopes markers.onClass header line).scopes.innermost?.map ClassFrame.index =
      some index ∧
    marksLaterClass markers.onClass line = false

/-- A line keeps the body of the class open, and no marker of the kind on it is read for the
class. -/
def Undisturbed (markers : Markers) (header : Text) (kind : BindingKind) (index : Nat)
    (line : Text) (progress : Progress) : Prop :=
  (progress.readLine markers header line).IsOpen index ∧
    (progress.ReadsFor markers header line index →
      Text.occursIn (markers.onBinding kind) line = false)

/-- A line says nothing to a marker of the kind that waits in the class: it is not read for the
class, or it is silent. -/
def LooksPast (markers : Markers) (header : Text) (kind : BindingKind) (index : Nat)
    (line : Text) (progress : Progress) : Prop :=
  progress.ReadsFor markers header line index → markers.IsSilent kind line

/-- While the lines are read one after the other, none of them disturbs or ends the wait of a
marker in the class. -/
def Waits (markers : Markers) (header : Text) (kind : BindingKind) (index : Nat) :
    List Text → Progress → Prop
  | [], _ => True
  | line :: lines, progress =>
    progress.Undisturbed markers header kind index line ∧
      progress.LooksPast markers header kind index line ∧
      Waits markers header kind index lines (progress.readLine markers header line)

section Decidable

variable (markers : Markers) (header line : Text) (kind : BindingKind) (index : Nat)
  (progress : Progress)

instance : Decidable (progress.IsOpen index) :=
  inferInstanceAs (Decidable (∃ frame ∈ progress.scopes.classes, frame.index = index))

instance : Decidable (progress.ReadsFor markers header line index) :=
  inferInstanceAs (Decidable (_ ∧ _))

instance : Decidable (progress.Undisturbed markers header kind index line) :=
  inferInstanceAs (Decidable (_ ∧ (_ → _)))

instance : Decidable (progress.LooksPast markers header kind index line) :=
  inferInstanceAs (Decidable (_ → _))

instance decidableWaits : (lines : List Text) → (progress : Progress) →
    Decidable (Waits markers header kind index lines progress)
  | [], _ => isTrue trivial
  | line :: lines, progress =>
    have := decidableWaits lines (progress.readLine markers header line)
    inferInstanceAs (Decidable (_ ∧ _ ∧ _))

end Decidable

private theorem readMarkers_of_readsFor (h : progress.ReadsFor markers header line index) :
    (progress.openScopes markers.onClass header line).readMarkers markers line =
      (progress.openScopes markers.onClass header line).annotate markers line := by
  rw [readMarkers, h.2, if_neg Bool.false_ne_true]

namespace Holds

private theorem openScopes (h : progress.Holds kind index slot bindings)
    (marker header line : Text) :
    (progress.openScopes marker header line).Holds kind index slot bindings := by
  obtain ⟨frame, hframe, hslot⟩ := h.frame
  obtain ⟨cls, hcls, hbindings⟩ := h.cls
  have hlt : index < progress.registry.length := (List.getElem?_eq_some_iff.mp hcls).1
  refine ⟨⟨frame, ?_, hslot⟩, cls, ?_, hbindings⟩
  · obtain ⟨hclasses, _⟩ | ⟨_, hclasses, _⟩ := openScopes_cases marker header line progress
    · exact hclasses ▸ hframe
    · exact hclasses ▸ List.mem_cons_of_mem _ hframe
  · rw [registry_openScopes_of_lt marker header line hlt, hcls]

/-- A line that is not read for the class says nothing to it. -/
private theorem readMarkers_of_ne (h : progress.Holds kind index slot bindings)
    (hne : progress.scopes.innermost?.map ClassFrame.index ≠ some index) (markers : Markers)
    (line : Text) : (progress.readMarkers markers line).Holds kind index slot bindings := by
  obtain ⟨frame, hframe, hindex, hslot⟩ := h.frame
  obtain ⟨cls, hcls, hbindings⟩ := h.cls
  have htop : ∀ top ∈ progress.scopes.innermost?, top.index ≠ index := by
    intro top htop heq
    exact hne (by rw [Option.mem_def.mp htop, Option.map_some, heq])
  refine ⟨⟨frame, ?_, hindex, hslot⟩, cls, ?_, hbindings⟩
  · obtain heq | ⟨top, outer, hclasses, heq⟩ := readMarkers_cases markers line progress
    · rw [heq]
      exact hframe
    · rw [heq]
      rw [hclasses] at hframe
      rcases List.mem_cons.mp hframe with rfl | houter
      · refine absurd hindex (htop frame ?_)
        rw [Scopes.innermost?, hclasses]
        rfl
      · exact List.mem_cons_of_mem _ houter
  · rw [registry_readMarkers_of_ne markers line htop, hcls]

private theorem readMarkers_of_not_readsFor
    (h : (progress.openScopes markers.onClass header line).Holds kind index slot bindings)
    (hreads : ¬ progress.ReadsFor markers header line index) :
    ((progress.openScopes markers.onClass header line).readMarkers markers line).Holds kind index
      slot bindings := by
  cases hlater : marksLaterClass markers.onClass line with
  | true =>
    rw [readMarkers, hlater, if_pos rfl]
    exact h
  | false => exact h.readMarkers_of_ne (fun htop => hreads ⟨htop, hlater⟩) markers line

/-- A line that is read for the class leaves the slot and the bindings that the markers say. -/
private theorem annotate {limit : Int} (h : progress.Holds kind index slot bindings)
    (hnested : Nested limit progress)
    (htop : progress.scopes.innermost?.map ClassFrame.index = some index) (markers : Markers)
    (line : Text) : ∃ slots, slots.get kind = slot ∧
      (progress.annotate markers line).Holds kind index
        ((markers.annotateSlots line slots).get kind)
        (bindings ++ markers.bound kind line slots) := by
  obtain ⟨frame, hframe, rfl, hslot⟩ := h.frame
  obtain ⟨cls, hcls, rfl⟩ := h.cls
  rcases hclasses : progress.scopes.classes with _ | ⟨top, outer⟩
  · rw [hclasses] at hframe
    exact absurd hframe List.not_mem_nil
  · have hindex : top.index = frame.index := by
      simpa [Scopes.innermost?, hclasses] using htop
    have hmem : top ∈ progress.scopes.classes := hclasses ▸ List.mem_cons_self
    obtain rfl : top = frame := hnested.eq_of_index_eq hmem hframe hindex
    refine ⟨top.slots, hslot, ?_, ?_⟩
    · simp only [Progress.annotate, hclasses]
      exact ⟨_, List.mem_cons_self, rfl, rfl⟩
    · simp only [Progress.annotate, hclasses]
      refine ⟨markers.annotateClass line top.slots cls, ?_, markers.bindings_annotateClass ..⟩
      rw [Registry.update, List.getElem?_modify_eq, hcls]
      rfl

private theorem closeScopes {limit : Int} (h : progress.Holds kind index slot bindings)
    (hnested : Nested limit progress) (hopen : (progress.closeScopes line).IsOpen index) :
    (progress.closeScopes line).Holds kind index slot bindings := by
  obtain ⟨frame, hframe, hindex, hslot⟩ := h.frame
  obtain ⟨kept, hkept, hsame⟩ := hopen
  have hmem : kept ∈ progress.scopes.classes := (List.dropWhile_sublist _).mem hkept
  obtain rfl : kept = frame := hnested.eq_of_index_eq hmem hframe (hsame.trans hindex.symm)
  exact ⟨⟨kept, hkept, hindex, hslot⟩, h.cls⟩

/-- A line that does not disturb the class and either is not read for it or is silent leaves
everything as it is. -/
private theorem readLine (h : progress.Holds kind index (some explicit) bindings)
    (hnested : Nested progress.scopes.depth progress)
    (hundisturbed : progress.Undisturbed markers header kind index line)
    (hpast : progress.LooksPast markers header kind index line) :
    (progress.readLine markers header line).Holds kind index (some explicit) bindings := by
  obtain ⟨hopen, habsent⟩ := hundisturbed
  have hopened := h.openScopes markers.onClass header line
  have hopenedNested := hnested.openScopes markers.onClass header line
  refine closeScopes ?_ (hopenedNested.readMarkers markers line) hopen
  by_cases hreads : progress.ReadsFor markers header line index
  · obtain ⟨slots, hslot, hread⟩ := hopened.annotate hopenedNested hreads.1 markers line
    obtain ⟨hkeeps, hnone⟩ :=
      Markers.annotate_of_isSilent (habsent hreads) (hpast hreads) slots
    rw [readMarkers_of_readsFor hreads]
    rwa [hkeeps, hslot, hnone, List.append_nil] at hread
  · exact hopened.readMarkers_of_not_readsFor hreads

/-- A line that is read for the class and is not silent ends the wait. -/
private theorem readLine_of_declares (h : progress.Holds kind index (some explicit) bindings)
    (hnested : Nested progress.scopes.depth progress)
    (hundisturbed : progress.Undisturbed markers header kind index line)
    (hends : ¬ progress.LooksPast markers header kind index line) :
    ∃ identifier, Declaration.identifier? kind (markers.strip line) = some identifier ∧
      (progress.readLine markers header line).Holds kind index none
        (bindings ++ [.named explicit identifier]) := by
  obtain ⟨hopen, habsent⟩ := hundisturbed
  obtain ⟨hreads, hspeaks⟩ := Classical.not_imp.mp hends
  have hopenedNested := hnested.openScopes markers.onClass header line
  obtain ⟨slots, hslot, hread⟩ := (h.openScopes markers.onClass header line).annotate
    hopenedNested hreads.1 markers line
  obtain ⟨identifier, hidentifier, hcleared, hbound⟩ :=
    Markers.annotate_of_not_isSilent (habsent hreads) hspeaks hslot
  refine ⟨identifier, hidentifier, closeScopes ?_ (hopenedNested.readMarkers markers line) hopen⟩
  rw [readMarkers_of_readsFor hreads]
  rwa [hcleared, hbound] at hread

/-- The wait lasts over any number of lines. -/
private theorem readLines {lines : List Text}
    (h : progress.Holds kind index (some explicit) bindings)
    (hnested : Nested progress.scopes.depth progress)
    (hwaits : Waits markers header kind index lines progress) :
    (progress.readLines markers header lines).Holds kind index (some explicit) bindings := by
  induction lines generalizing progress with
  | nil => exact h
  | cons line lines ih =>
    obtain ⟨hundisturbed, hpast, hmore⟩ := hwaits
    exact ih (h.readLine hnested hundisturbed hpast) (hnested.readLine markers header line) hmore

end Holds

/-- A marker that waits in a class of any header is resolved by the first declaration of this class
and of its kind: however many lines are read in between, it waits and the bindings of the class stay
as they are, and the line that is the first to end the wait binds its identifier and clears the
slot. -/
theorem waiting_marker_binds_first_declaration (markers : Markers) (header : Text)
    (before : List Text) (kind : BindingKind) :
    let start := readLines markers header before {}
    ∀ frame ∈ start.scopes.classes, ∀ explicit, frame.slots.get kind = some explicit →
    ∃ cls, start.registry[frame.index]? = some cls ∧
    ∀ passed, Waits markers header kind frame.index passed start →
      let reached := start.readLines markers header passed
      reached.Holds kind frame.index (some explicit) (cls.bindings kind) ∧
      ∀ line, reached.Undisturbed markers header kind frame.index line →
        ¬ reached.LooksPast markers header kind frame.index line →
        ∃ identifier, Declaration.identifier? kind (markers.strip line) = some identifier ∧
          (reached.readLine markers header line).Holds kind frame.index none
            (cls.bindings kind ++
              [⟨if explicit.isEmpty then identifier else explicit, identifier⟩]) := by
  intro start frame hframe explicit hslot
  have hnested : Nested start.scopes.depth start :=
    (nested_start []).readLines markers header before
  obtain ⟨cls, hcls⟩ : ∃ cls, start.registry[frame.index]? = some cls :=
    ⟨_, List.getElem?_eq_getElem (hnested.indices_lt frame hframe)⟩
  have hstart : start.Holds kind frame.index (some explicit) (cls.bindings kind) :=
    ⟨⟨frame, hframe, rfl, hslot⟩, cls, hcls, rfl⟩
  refine ⟨cls, hcls, ?_⟩
  intro passed hwaits reached
  have hreached := hstart.readLines hnested hwaits
  refine ⟨hreached, ?_⟩
  intro line hundisturbed hends
  exact hreached.readLine_of_declares (hnested.readLines markers header passed) hundisturbed hends

/-- A member marker waits while a nested class with a marker of its own is opened, read and closed,
over an access specifier, a directive, a marked head of a later class and a function. -/
theorem waiting_marker_binds_first_declaration_after_nested_class :
    let start := readLines {} "a.hpp".toList
      ["class Outer \x7b".toList, "REFLECT_MEMBER(\"n\")".toList] {}
    let reached := start.readLines {} "a.hpp".toList
      ["class Inner \x7b".toList, "REFLECT_MEMBER()".toList, "int a;".toList, "\x7d;".toList,
        "public:".toList, "#if X".toList, "REFLECT_CLASS() struct Later".toList,
        "void f();".toList]
    reached.Holds .member 0 (some "n".toList) [] ∧
      (reached.readLine {} "a.hpp".toList "int count;".toList).Holds .member 0 none
        [⟨"n".toList, "count".toList⟩] := by
  intro start reached
  obtain ⟨cls, hcls, hwaiting⟩ := waiting_marker_binds_first_declaration {} "a.hpp".toList
    ["class Outer \x7b".toList, "REFLECT_MEMBER(\"n\")".toList] .member
    ⟨0, 1, { member := some "n".toList }⟩ (by decide +kernel) "n".toList rfl
  have hregistered : start.registry[0]? =
      some { name := .global "Outer".toList, header := "a.hpp".toList } := by decide +kernel
  obtain rfl := Option.some.inj (hregistered.symm.trans hcls)
  obtain ⟨hkept, hresolved⟩ := hwaiting
    ["class Inner \x7b".toList, "REFLECT_MEMBER()".toList, "int a;".toList, "\x7d;".toList,
      "public:".toList, "#if X".toList, "REFLECT_CLASS() struct Later".toList,
      "void f();".toList] (by decide +kernel)
  refine ⟨hkept, ?_⟩
  obtain ⟨identifier, hidentifier, hends⟩ := hresolved "int count;".toList (by decide +kernel)
    (by decide +kernel)
  have hcount : Declaration.identifier? .member (Markers.strip {} "int count;".toList) =
      some "count".toList := by decide +kernel
  obtain rfl := Option.some.inj (hcount.symm.trans hidentifier)
  exact hends

end Progress

end Registrar
