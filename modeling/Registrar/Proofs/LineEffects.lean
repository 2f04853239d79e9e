import Registrar.Effect
import Registrar.Proofs.Declarations
import Registrar.Proofs.Invocations

/-! What a line says about the class around it, one kind of binding at a time: the name it seeks a
declaration for, the binding it adds, and the slot it leaves. -/

namespace Registrar

namespace Effect

def slotsAfter (effects : List Effect) (slots : Slots) : Slots :=
  effects.foldl (fun slots effect => effect.onSlots slots) slots

def classAfter (effects : List Effect) (cls : ReflectedClass) : ReflectedClass :=
  effects.foldl (fun cls effect => effect.onClass cls) cls

def concerns (kind : BindingKind) : Effect → Bool
  | .register _ => false
  | .bind other _ => kind = other
  | .wait other _ => kind = other
  | .resolve other _ => kind = other

def bindings : Effect → List Binding
  | .register _ => []
  | .bind _ binding => [binding]
  | .wait _ _ => []
  | .resolve _ binding => [binding]

def onSlot : Effect → Option Text → Option Text
  | .register _, slot => slot
  | .bind _ _, slot => slot
  | .wait _ explicit, _ => some explicit
  | .resolve _ _, _ => none

variable (kind : BindingKind)

private theorem bindings_onClass (effect : Effect) (cls : ReflectedClass) :
    (effect.onClass cls).bindings kind =
      cls.bindings kind ++ if effect.concerns kind then effect.bindings else [] := by
  cases effect <;> simp [onClass, concerns, bindings]

private theorem get_onSlots (effect : Effect) (slots : Slots) :
    (effect.onSlots slots).get kind =
      if effect.concerns kind then effect.onSlot (slots.get kind) else slots.get kind := by
  cases effect <;> simp [onSlots, concerns, onSlot]

/-- The bindings of one kind are added by the effects about this kind. -/
theorem bindings_classAfter (effects : List Effect) (cls : ReflectedClass) :
    (classAfter effects cls).bindings kind =
      cls.bindings kind ++ (effects.filter (concerns kind)).flatMap bindings := by
  induction effects generalizing cls with
  | nil => simp [classAfter]
  | cons effect effects ih =>
    refine (ih (effect.onClass cls)).trans ?_
    rw [bindings_onClass]
    by_cases h : effect.concerns kind = true
    · rw [if_pos h, List.filter_cons_of_pos h, List.flatMap_cons, List.append_assoc]
    · rw [if_neg h, List.filter_cons_of_neg h, List.append_nil]

private theorem get_slotsAfter (effects : List Effect) (slots : Slots) :
    (slotsAfter effects slots).get kind =
      (effects.filter (concerns kind)).foldl (fun slot effect => effect.onSlot slot)
        (slots.get kind) := by
  induction effects generalizing slots with
  | nil => rfl
  | cons effect effects ih =>
    refine (ih (effect.onSlots slots)).trans ?_
    rw [get_onSlots]
    by_cases h : effect.concerns kind = true
    · rw [if_pos h, List.filter_cons_of_pos h, List.foldl_cons]
    · rw [if_neg h, List.filter_cons_of_neg h]

variable {kind} in
/-- Effects that are all about one kind concern this kind or nothing at all. -/
theorem filter_concerns {other : BindingKind} {effects : List Effect}
    (h : ∀ effect ∈ effects, ∀ kind, effect.concerns kind = decide (kind = other)) :
    effects.filter (concerns kind) = if kind = other then effects else [] := by
  split
  · rename_i heq
    rw [List.filter_eq_self]
    intro effect heffect
    rw [h effect heffect, heq, decide_eq_true_iff]
  · rename_i hne
    rw [List.filter_eq_nil_iff]
    intro effect heffect
    rw [h effect heffect, decide_eq_true_iff]
    exact hne

/-- Only a class marker registers the class. -/
theorem registration_classAfter {effects : List Effect} (cls : ReflectedClass)
    (h : ∀ effect ∈ effects, ∃ kind, effect.concerns kind = true) :
    (classAfter effects cls).registration = cls.registration := by
  induction effects generalizing cls with
  | nil => rfl
  | cons effect effects ih =>
    obtain ⟨⟨kind, heffect⟩, heffects⟩ := List.forall_mem_cons.mp h
    refine (ih (effect.onClass cls) heffects).trans ?_
    cases effect with
    | register registration => exact absurd heffect Bool.false_ne_true
    | bind kind binding => exact ReflectedClass.registration_addBinding ..
    | wait kind explicit => rfl
    | resolve kind binding => exact ReflectedClass.registration_addBinding ..

end Effect

namespace Markers

variable {markers : Markers} {t : Text}

theorem slotEffects_empty (kind : BindingKind) (line : Text) :
    markers.slotEffects kind line {} = [] := by
  have hslot : ({} : Slots).get kind = none := by cases kind <;> rfl
  rw [slotEffects, hslot]
  split <;> rfl

theorem effects_empty (line : Text) : markers.effects line {} =
    markers.classEffects line ++ markers.markerEffects .member line ++
      markers.markerEffects .function line := by
  rw [effects, slotEffects_empty, slotEffects_empty, List.append_nil, List.append_nil]

theorem classEffects_of_absent (h : Text.occursIn markers.onClass t = false) :
    markers.classEffects t = [] := by
  rw [classEffects, h, if_neg Bool.false_ne_true]

theorem markerEffects_of_absent (kind : BindingKind)
    (h : Text.occursIn (markers.onBinding kind) t = false) : markers.markerEffects kind t = [] := by
  rw [markerEffects, h, if_neg Bool.false_ne_true]

theorem strip_of_absent (hclass : Text.occursIn markers.onClass t = false)
    (hbinding : ∀ kind, Text.occursIn (markers.onBinding kind) t = false) :
    markers.strip t = t := by
  have hmember : Text.occursIn markers.onMember t = false := hbinding .member
  have hfunction : Text.occursIn markers.onFunction t = false := hbinding .function
  rw [strip, Marker.strip_of_absent hclass, Marker.strip_of_absent hmember,
    Marker.strip_of_absent hfunction]

/-- A line without markers that declares nothing says nothing, whatever waits. -/
theorem effects_of_silent (hclass : Text.occursIn markers.onClass t = false)
    (hbinding : ∀ kind, Text.occursIn (markers.onBinding kind) t = false)
    (hnone : ∀ kind, Declaration.identifier? kind t = none) (slots : Slots) :
    markers.effects t slots = [] := by
  have hslot : ∀ kind, markers.slotEffects kind t slots = [] := by
    intro kind
    rw [slotEffects, strip_of_absent hclass hbinding, hnone]
    split
    · rfl
    · split
      · rename_i hsome
        exact absurd hsome (by simp)
      · rfl
  rw [effects, classEffects_of_absent hclass, markerEffects_of_absent _ (hbinding _),
    markerEffects_of_absent _ (hbinding _), hslot, hslot]
  rfl

variable (markers) (kind : BindingKind) (line : Text) (slots : Slots)

private theorem concerns_of_mem_markerEffects : ∀ effect ∈ markers.markerEffects kind line,
    ∀ other, effect.concerns other = decide (other = kind) := by
  unfold markerEffects
  split
  · split <;> exact List.forall_mem_singleton.mpr fun _ => rfl
  · simp

private theorem concerns_of_mem_slotEffects : ∀ effect ∈ markers.slotEffects kind line slots,
    ∀ other, effect.concerns other = decide (other = kind) := by
  unfold slotEffects
  split
  · simp
  · split
    · exact List.forall_mem_singleton.mpr fun _ => rfl
    · simp

/-- About one kind a line says what its marker of this kind says, or else what becomes of the
slot. -/
theorem filter_effects : (markers.effects line slots).filter (Effect.concerns kind) =
    markers.markerEffects kind line ++ markers.slotEffects kind line slots := by
  have hclass : (markers.classEffects line).filter (Effect.concerns kind) = [] := by
    unfold classEffects
    split <;> rfl
  simp only [effects, List.filter_append, hclass,
    Effect.filter_concerns (markers.concerns_of_mem_markerEffects _ line),
    Effect.filter_concerns (markers.concerns_of_mem_slotEffects _ line slots)]
  cases kind <;> simp

/-- A class marker on the line registers the class anew; otherwise its registration stays. -/
theorem registration_annotateClass (cls : ReflectedClass) :
    (markers.annotateClass line slots cls).registration =
      if Text.occursIn markers.onClass line then
        some (cls.nameFor (Marker.registration markers.onClass line))
      else cls.registration := by
  have hbindings : ∀ effect ∈ markers.markerEffects .member line ++
      markers.markerEffects .function line ++ markers.slotEffects .member line slots ++
      markers.slotEffects .function line slots, ∃ kind, effect.concerns kind = true := by
    simp only [List.mem_append]
    rintro effect (((h | h) | h) | h)
    · exact ⟨_, markers.concerns_of_mem_markerEffects _ line effect h .member⟩
    · exact ⟨_, markers.concerns_of_mem_markerEffects _ line effect h .function⟩
    · exact ⟨_, markers.concerns_of_mem_slotEffects _ line slots effect h .member⟩
    · exact ⟨_, markers.concerns_of_mem_slotEffects _ line slots effect h .function⟩
  have hclass : markers.annotateClass line slots cls =
      Effect.classAfter (markers.markerEffects .member line ++
        markers.markerEffects .function line ++ markers.slotEffects .member line slots ++
        markers.slotEffects .function line slots)
        (Effect.classAfter (markers.classEffects line) cls) := by
    simp only [annotateClass, effects, Effect.classAfter, ← List.foldl_append, List.append_assoc]
  rw [hclass, Effect.registration_classAfter _ hbindings, classEffects]
  split <;> rfl

/-- The name that a line seeks a declaration for: the one its own marker gives, or else the one
that waits, unless the line is looked past. -/
def sought? (markers : Markers) (kind : BindingKind) (line : Text) (slots : Slots) : Option Text :=
  if Text.occursIn (markers.onBinding kind) line then
    some ((Marker.explicitName? (markers.onBinding kind) line).getD [])
  else if Declaration.isTransparent line then none
  else slots.get kind

/-- The bindings of one kind that a line adds: at most one, of the identifier that it declares. -/
def bound (markers : Markers) (kind : BindingKind) (line : Text) (slots : Slots) : List Binding :=
  match markers.sought? kind line slots, Declaration.identifier? kind (markers.strip line) with
  | some explicit, some identifier => [.named explicit identifier]
  | _, _ => []

theorem bindings_annotateClass (cls : ReflectedClass) :
    (markers.annotateClass line slots cls).bindings kind =
      cls.bindings kind ++ markers.bound kind line slots := by
  refine (Effect.bindings_classAfter kind (markers.effects line slots) cls).trans ?_
  rw [filter_effects]
  refine congrArg (cls.bindings kind ++ ·) ?_
  -- With a marker on the line the slot is silent, without one only the slot can speak.
  unfold markerEffects slotEffects bound sought?
  cases Text.occursIn (markers.onBinding kind) line <;>
    cases Declaration.isTransparent line <;>
    cases Declaration.identifier? kind (markers.strip line) <;>
    cases slots.get kind <;> rfl

/-- A line adds one binding at most, whatever waits: it declares either a member or a function. -/
theorem length_bound_add_length_bound_le :
    (markers.bound .member line slots).length +
      (markers.bound .function line slots).length ≤ 1 := by
  have hone : ∀ kind, (markers.bound kind line slots).length ≤ 1 := by
    intro kind
    unfold bound
    split <;> simp
  have hnone : ∀ kind, Declaration.identifier? kind (markers.strip line) = none →
      (markers.bound kind line slots).length = 0 := by
    intro kind h
    unfold bound
    rw [h]
    split
    · rename_i hsome
      exact absurd hsome (by simp)
    · rfl
  have hmember := hone .member
  have hfunction := hone .function
  rcases Declaration.identifier?_exclusive (markers.strip line) with h | h
  · rw [hnone .member h]
    omega
  · rw [hnone .function h]
    omega

theorem get_annotateSlots : (markers.annotateSlots line slots).get kind =
    (markers.markerEffects kind line ++ markers.slotEffects kind line slots).foldl
      (fun slot effect => effect.onSlot slot) (slots.get kind) := by
  rw [← filter_effects]
  exact Effect.get_slotsAfter kind (markers.effects line slots) slots

/-- A line that adds a binding of one kind has a marker of this kind or leaves an earlier one no
longer waiting, so bindings and waiting markers together grow by markers only. -/
theorem length_bound_le :
    (markers.bound kind line slots).length +
        (if ((markers.annotateSlots line slots).get kind).isSome then 1 else 0) ≤
      (if (slots.get kind).isSome then 1 else 0) +
        if Text.occursIn (markers.onBinding kind) line then 1 else 0 := by
  rw [get_annotateSlots]
  unfold markerEffects slotEffects bound sought?
  cases Text.occursIn (markers.onBinding kind) line <;>
    cases Declaration.isTransparent line <;>
    cases Declaration.identifier? kind (markers.strip line) <;>
    cases slots.get kind <;> simp [Effect.onSlot]

/-- As long as no marker of a kind waits, a marker of this kind on the line either finds its
declaration there or waits. -/
theorem length_bound_of_none {slots : Slots} (h : slots.get kind = none) :
    (markers.bound kind line slots).length +
        (if ((markers.annotateSlots line slots).get kind).isSome then 1 else 0) =
      if Text.occursIn (markers.onBinding kind) line then 1 else 0 := by
  rw [get_annotateSlots]
  unfold markerEffects slotEffects bound sought?
  rw [h]
  cases Text.occursIn (markers.onBinding kind) line <;>
    cases Declaration.isTransparent line <;>
    cases Declaration.identifier? kind (markers.strip line) <;> simp [Effect.onSlot]

end Markers

end Registrar
