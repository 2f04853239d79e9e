import Registrar.Proofs.WaitingMarkers

/-! How long a marker waits. A line that declares something under a marker of its own binds to that
marker and leaves an earlier one waiting, so what an unmarked declaration is bound to may have been
given before any number of other declarations. -/

namespace Registrar.Markers

variable (markers : Markers) (kind : BindingKind) (explicit line : Text)

/-- The marker of a kind on a line waits under the given name: nothing is declared on the line. -/
def Leaves : Prop :=
  Effect.wait kind explicit ∈ markers.markerEffects kind line

/-- A line keeps what waits: its own marker of the kind finds a declaration on it, or it has none
and is silent. -/
def Keeps : Prop :=
  if Text.occursIn (markers.onBinding kind) line = true then
    Declaration.identifier? kind (markers.strip line) ≠ none
  else markers.IsSilent kind line

def slotsAfter (lines : List Text) (slots : Slots) : Slots :=
  lines.foldl (fun slots line => markers.annotateSlots line slots) slots

instance : Decidable (markers.Leaves kind explicit line) :=
  inferInstanceAs (Decidable (_ ∈ _))

instance : Decidable (markers.Keeps kind line) :=
  inferInstanceAs (Decidable (if _ = true then _ else _))

variable {markers kind explicit line}

/-- A declaration keeps what waits exactly if it has a marker of its own. -/
private theorem keeps_iff_of_not_isSilent (h : ¬ markers.IsSilent kind line) :
    markers.Keeps kind line ↔ Text.occursIn (markers.onBinding kind) line = true := by
  unfold Keeps
  split
  · rename_i hmarked
    exact iff_of_true (not_or.mp h).2 hmarked
  · rename_i hunmarked
    exact iff_of_false h hunmarked

private theorem not_leaves_of_not_isSilent (h : ¬ markers.IsSilent kind line) :
    ¬ markers.Leaves kind explicit line := by
  obtain ⟨identifier, hidentifier⟩ := Option.ne_none_iff_exists'.mp (not_or.mp h).2
  unfold Leaves markerEffects
  rw [hidentifier]
  split <;> simp

variable (markers kind explicit line)

/-- After one line a name waits if it did and the line keeps it, or if the line leaves it. -/
private theorem get_annotateSlots_eq_some_iff (slots : Slots) :
    (markers.annotateSlots line slots).get kind = some explicit ↔
      slots.get kind = some explicit ∧ markers.Keeps kind line ∨
        markers.Leaves kind explicit line := by
  rw [get_annotateSlots]
  unfold Keeps Leaves IsSilent markerEffects slotEffects
  cases Text.occursIn (markers.onBinding kind) line <;>
    cases Declaration.isTransparent line <;>
    cases Declaration.identifier? kind (markers.strip line) <;>
    cases slots.get kind <;> simp [Effect.onSlot, eq_comm]

/-- Behind a declaration with a marker of its own the slot is as in front of it, behind any other
declaration it is empty. -/
private theorem get_annotateSlots_of_not_isSilent (slots : Slots)
    (h : ¬ markers.IsSilent kind line) : (markers.annotateSlots line slots).get kind =
      if Text.occursIn (markers.onBinding kind) line then slots.get kind else none := by
  ext explicit
  rw [get_annotateSlots_eq_some_iff, keeps_iff_of_not_isSilent h,
    or_iff_left (not_leaves_of_not_isSilent h)]
  cases Text.occursIn (markers.onBinding kind) line <;> simp

/-- After any number of lines a name waits if it did at first and every line keeps it, or if one of
the lines leaves it and every later line keeps it. -/
private theorem get_slotsAfter_eq_some_iff (lines : List Text) (slots : Slots) :
    (markers.slotsAfter lines slots).get kind = some explicit ↔
      (slots.get kind = some explicit ∧ ∀ line ∈ lines, markers.Keeps kind line) ∨
        ∃ before marked after, lines = before ++ marked :: after ∧
          markers.Leaves kind explicit marked ∧ ∀ line ∈ after, markers.Keeps kind line := by
  induction lines generalizing slots with
  | nil => simp [slotsAfter]
  | cons line lines ih =>
    refine (ih (markers.annotateSlots line slots)).trans ?_
    rw [get_annotateSlots_eq_some_iff, List.forall_mem_cons, or_and_right, or_assoc, and_assoc]
    refine or_congr_right ?_
    constructor
    · rintro (⟨hleaves, hkeep⟩ | ⟨before, marked, after, rfl, hlater⟩)
      · exact ⟨[], line, lines, rfl, hleaves, hkeep⟩
      · exact ⟨line :: before, marked, after, rfl, hlater⟩
    · rintro ⟨before, marked, after, heq, hlater⟩
      rcases List.cons_eq_append_iff.mp heq with ⟨rfl, heq⟩ | ⟨before, rfl, rfl⟩
      · obtain ⟨rfl, rfl⟩ := List.cons_eq_cons.mp heq.symm
        exact .inl hlater
      · exact .inr ⟨before, marked, after, rfl, hlater⟩

/-- A declaration is bound under the name its line seeks, if it seeks one. -/
private theorem bound_of_not_isSilent (slots : Slots) (h : ¬ markers.IsSilent kind line) :
    ∃ identifier, Declaration.identifier? kind (markers.strip line) = some identifier ∧
      markers.bound kind line slots =
        ((if Text.occursIn (markers.onBinding kind) line then
            some ((Marker.explicitName? (markers.onBinding kind) line).getD [])
          else slots.get kind).map fun explicit => .named explicit identifier).toList := by
  obtain ⟨htransparent, hdeclares⟩ := not_or.mp h
  obtain ⟨identifier, hidentifier⟩ := Option.ne_none_iff_exists'.mp hdeclares
  refine ⟨identifier, hidentifier, ?_⟩
  unfold bound sought?
  rw [hidentifier, if_neg htransparent]
  cases Text.occursIn (markers.onBinding kind) line <;> cases slots.get kind <;> rfl

/-- Which markers wait after any lines of a class, and what a declaration makes of them. A name that
waits was given at the start or by one of the lines, and each later line is silent or declares
something under a marker of its own. Behind a declaration the slot is empty unless an earlier name
waits and the declaration has a marker of its own; with one it is bound to it, and without one it is
bound to the name that waits. -/
theorem slot_outlives_marked_declarations_only (markers : Markers) (kind : BindingKind)
    (lines : List Text) (slots : Slots) :
    let reached := markers.slotsAfter lines slots
    (∀ explicit, reached.get kind = some explicit ↔
      slots.get kind = some explicit ∧ (∀ line ∈ lines, markers.Keeps kind line) ∨
        ∃ before marked after, lines = before ++ marked :: after ∧
          markers.Leaves kind explicit marked ∧ ∀ line ∈ after, markers.Keeps kind line) ∧
    ∀ line, ¬ markers.IsSilent kind line →
      ((markers.annotateSlots line reached).get kind = none ↔
        Text.occursIn (markers.onBinding kind) line = false ∨ reached.get kind = none) ∧
      ∃ identifier, Declaration.identifier? kind (markers.strip line) = some identifier ∧
        ∀ cls, (markers.annotateClass line reached cls).bindings kind =
          cls.bindings kind ++
            ((if Text.occursIn (markers.onBinding kind) line then
                some ((Marker.explicitName? (markers.onBinding kind) line).getD [])
              else reached.get kind).map fun explicit => .named explicit identifier).toList := by
  intro reached
  refine ⟨fun explicit => markers.get_slotsAfter_eq_some_iff kind explicit lines slots, ?_⟩
  intro line hspeaks
  constructor
  · rw [markers.get_annotateSlots_of_not_isSilent kind line reached hspeaks]
    cases Text.occursIn (markers.onBinding kind) line <;> simp
  · obtain ⟨identifier, hidentifier, hbound⟩ :=
      markers.bound_of_not_isSilent kind line reached hspeaks
    refine ⟨identifier, hidentifier, fun cls => ?_⟩
    rw [bindings_annotateClass, hbound]

/-- A declaration without a marker is bound under a name that an earlier marker left for an earlier
declaration, which had a marker of its own. -/
theorem slot_outlives_marked_declarations_only_over_one :
    let lines := ["REFLECT_MEMBER(\"a\")".toList, "REFLECT_MEMBER(\"b\") int x;".toList]
    let cls : ReflectedClass := { name := .global "Foo".toList, header := "a.hpp".toList }
    ¬ IsSilent {} .member "int y;".toList ∧
      (slotsAfter {} lines {}).get .member = some "a".toList ∧
      (annotateClass {} "int y;".toList (slotsAfter {} lines {}) cls).bindings .member =
        [⟨"a".toList, "y".toList⟩] ∧
      (annotateSlots {} "int y;".toList (slotsAfter {} lines {})).get .member = none := by
  intro lines cls
  have hspeaks : ¬ IsSilent {} .member "int y;".toList := by decide +kernel
  obtain ⟨hwaits, hends⟩ := slot_outlives_marked_declarations_only {} .member lines {}
  have hslot : (slotsAfter {} lines {}).get .member = some "a".toList :=
    (hwaits "a".toList).mpr
      (.inr ⟨[], _, _, rfl, by decide +kernel, by decide +kernel⟩)
  obtain ⟨hcleared, identifier, hidentifier, hbound⟩ := hends "int y;".toList hspeaks
  have hy : Declaration.identifier? .member (strip {} "int y;".toList) = some "y".toList := by
    decide +kernel
  have hunmarked : Text.occursIn (onBinding {} .member) "int y;".toList = false := by decide +kernel
  obtain rfl := Option.some.inj (hy.symm.trans hidentifier)
  refine ⟨hspeaks, hslot, ?_, hcleared.mpr (.inl hunmarked)⟩
  rw [hbound, hunmarked, hslot]
  rfl

/-- A slot is not always empty behind a line that declares something: one with a marker of its own
leaves an earlier name waiting, and the next declaration is bound under it. -/
theorem slot_survives_marked_declaration :
    let marked := "REFLECT_MEMBER(\"b\") int x;".toList
    ¬ (∀ (markers : Markers) (kind : BindingKind) (line : Text) (slots : Slots),
        markers.validate = .ok () → Declaration.isTransparent line = false →
        (Declaration.identifier? kind (markers.strip line)).isSome →
        (markers.annotateSlots line slots).get kind = none) ∧
      bound {} .member "int y;".toList (annotateSlots {} marked { member := some "a".toList }) =
        [⟨"a".toList, "y".toList⟩] := by
  intro marked
  refine ⟨fun hcleared => ?_, by decide +kernel⟩
  have hempty := hcleared {} .member marked { member := some "a".toList } (by decide +kernel)
    (by decide +kernel) (by decide +kernel)
  revert hempty
  decide +kernel

end Registrar.Markers
