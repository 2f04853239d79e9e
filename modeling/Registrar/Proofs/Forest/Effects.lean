import Registrar.Proofs.Forest.Basic
import Registrar.Proofs.LineEffects

/-! What the lines of a forest say about the class around them: an invocation at the front of a line
is the only one on it, and a declaration is found behind its marker or on the next line. -/

namespace Registrar

namespace Markers

/-- The markers can be told apart: none stands in another one or in a keyword. -/
structure Apart (markers : Markers) : Prop where
  onClass : markers.onClass.isIdentifier = true
  onBinding : ∀ kind, (markers.onBinding kind).isIdentifier = true
  class_apart : ∀ kind, Text.occursIn markers.onClass (markers.onBinding kind) = false
  binding_apart : ∀ kind, Text.occursIn (markers.onBinding kind) markers.onClass = false
  bindings_apart : ∀ kind other, kind ≠ other →
    Text.occursIn (markers.onBinding kind) (markers.onBinding other) = false
  keywords : ∀ keyword ∈ ["class".toList, "struct".toList, "namespace".toList],
    markers.absentFrom keyword = true

theorem apart_default : ({} : Markers).Apart where
  onClass := by decide
  onBinding := by rintro (_ | _) <;> decide
  class_apart := by rintro (_ | _) <;> decide
  binding_apart := by rintro (_ | _) <;> decide
  bindings_apart := by rintro (_ | _) (_ | _) <;> decide
  keywords := by decide

variable {markers : Markers} {s t : Text}

private theorem absentFrom_iff : markers.absentFrom t = true ↔
    Text.occursIn markers.onClass t = false ∧
      ∀ kind, Text.occursIn (markers.onBinding kind) t = false := by
  have hkinds : (∀ kind, Text.occursIn (markers.onBinding kind) t = false) ↔
      Text.occursIn markers.onMember t = false ∧ Text.occursIn markers.onFunction t = false :=
    ⟨fun h => ⟨h .member, h .function⟩, fun h kind => by cases kind with
      | member => exact h.1
      | function => exact h.2⟩
  rw [hkinds]
  simp [absentFrom, named]

theorem onClass_absent (h : markers.absentFrom t = true) :
    Text.occursIn markers.onClass t = false :=
  (absentFrom_iff.mp h).1

private theorem onBinding_absent (h : markers.absentFrom t = true) (kind : BindingKind) :
    Text.occursIn (markers.onBinding kind) t = false :=
  (absentFrom_iff.mp h).2 kind

/-- Punctuation and blanks cut the search for markers in two. -/
theorem absentFrom_append_cons (h : markers.Apart) {c : Char} (hc : isIdentChar c = false) :
    markers.absentFrom (s ++ c :: t) = (markers.absentFrom s && markers.absentFrom t) := by
  have hcut : ∀ word : Text, word.isIdentifier = true →
      Text.occursIn word (s ++ c :: t) = (Text.occursIn word s || Text.occursIn word t) :=
    fun word hword => Text.occursIn_append_cons (Text.ne_nil_of_isIdentifier hword)
      (Text.not_mem_of_isIdentifier hword hc)
  rw [Bool.eq_iff_iff, Bool.and_eq_true, absentFrom_iff, absentFrom_iff, absentFrom_iff,
    hcut _ h.onClass]
  simp only [hcut _ (h.onBinding _), Bool.or_eq_false_iff]
  constructor
  · rintro ⟨⟨hs, ht⟩, hbinding⟩
    exact ⟨⟨hs, fun kind => (hbinding kind).1⟩, ht, fun kind => (hbinding kind).2⟩
  · rintro ⟨⟨hs, hbindings⟩, ht, hbindingt⟩
    exact ⟨⟨hs, ht⟩, fun kind => ⟨hbindings kind, hbindingt kind⟩⟩

theorem absentFrom_nil (h : markers.Apart) : markers.absentFrom [] = true :=
  absentFrom_iff.mpr ⟨Text.occursIn_nil (Text.ne_nil_of_isIdentifier h.onClass),
    fun kind => Text.occursIn_nil (Text.ne_nil_of_isIdentifier (h.onBinding kind))⟩

theorem absentFrom_cons (h : markers.Apart) {c : Char} (hc : isIdentChar c = false) :
    markers.absentFrom (c :: t) = markers.absentFrom t := by
  have hcut := absentFrom_append_cons (s := []) (t := t) h hc
  rwa [absentFrom_nil h, Bool.true_and] at hcut

theorem absentFrom_of_isWordless (h : markers.Apart) (ht : t.isWordless = true) :
    markers.absentFrom t = true :=
  absentFrom_iff.mpr ⟨Text.occursIn_of_isWordless h.onClass ht,
    fun kind => Text.occursIn_of_isWordless (h.onBinding kind) ht⟩

private theorem strip_of_absentFrom (h : markers.absentFrom t = true) : markers.strip t = t :=
  strip_of_absent (onClass_absent h) (onBinding_absent h)

private theorem effects_of_absentFrom (h : markers.absentFrom t = true) (slots : Slots) :
    markers.effects t slots =
      markers.slotEffects .member t slots ++ markers.slotEffects .function t slots := by
  rw [effects, classEffects_of_absent (onClass_absent h),
    markerEffects_of_absent .member (onBinding_absent h .member),
    markerEffects_of_absent .function (onBinding_absent h .function)]
  rfl

/-- A line without markers says nothing if no marker waits. -/
theorem effects_empty_of_absentFrom (h : markers.absentFrom t = true) :
    markers.effects t {} = [] := by
  rw [effects_of_absentFrom h, slotEffects_empty, slotEffects_empty, List.append_nil]

end Markers

namespace Forest

variable {markers : Markers}

/-- The name that a marker gives; without a label it is empty. -/
def given (label : Option (Label markers)) : Text := (label.map Label.text).getD []

def registrationOf : Option (Label markers) → Registration
  | some label => .explicit label.text
  | none => .qualified

theorem Label.not_mem (label : Label markers) {c : Char}
    (hc : c ∈ ['"', ',', ')', '{', '}', '\n']) : c ∉ label.text := by
  intro hmem
  have hwhole := List.all_eq_true.mp label.isWhole c hmem
  rw [List.contains_iff_mem.mpr hc] at hwhole
  exact Bool.noConfusion hwhole

theorem not_mem_argument (label : Option (Label markers)) {c : Char}
    (hc : c ∈ [',', ')', '{', '}', '\n']) : c ∉ argument label := by
  cases label with
  | none => exact List.not_mem_nil
  | some label =>
    have hlabel := label.not_mem (List.mem_cons_of_mem _ hc)
    have hquote : c ≠ '"' := by
      rintro rfl
      exact absurd hc (by decide)
    simp [argument, hlabel, hquote]

private theorem absentFrom_given (h : markers.Apart) (label : Option (Label markers)) :
    markers.absentFrom (given label) = true := by
  cases label with
  | none => exact Markers.absentFrom_nil h
  | some label => exact label.isFree

theorem invoke_append (marker : Text) (label : Option (Label markers)) (rest : Text) :
    invoke marker label ++ rest = marker ++ ('(' :: argument label ++ ')' :: rest) := by
  simp only [invoke, List.cons_append, List.append_assoc, List.nil_append]

variable {marker : Text} (label : Option (Label markers)) (rest : Text)

private theorem occursIn_invoke_append {word : Text} (hword : word.isIdentifier = true)
    (hlabel : Text.occursIn word (given label) = false) :
    Text.occursIn word (invoke marker label ++ rest) =
      (Text.occursIn word marker || Text.occursIn word rest) := by
  have hne := Text.ne_nil_of_isIdentifier hword
  have hcut : ∀ {s t : Text} {c : Char}, isIdentChar c = false →
      Text.occursIn word (s ++ c :: t) = (Text.occursIn word s || Text.occursIn word t) :=
    fun hc => Text.occursIn_append_cons hne (Text.not_mem_of_isIdentifier hword hc)
  have hargument : Text.occursIn word (argument label) = false := by
    cases label with
    | none => exact Text.occursIn_nil hne
    | some label =>
      have hquote := hcut (s := label.text) (t := []) (c := '"') (by decide)
      rw [Text.occursIn_nil hne, show Text.occursIn word label.text = false from hlabel] at hquote
      rw [argument, Text.occursIn_cons hne (Text.not_mem_of_isIdentifier hword (by decide)), hquote]
      rfl
  rw [invoke_append, List.cons_append, hcut (by decide), hcut (by decide), hargument,
    Bool.false_or]

private theorem explicitName?_invoke_append :
    Marker.explicitName? marker (invoke marker label ++ rest) = label.map Label.text := by
  have hargument : ')' ∉ argument label := not_mem_argument label (by decide)
  rw [Marker.explicitName?, invoke_append, Marker.args_front rest hargument]
  cases label with
  | none => rfl
  | some label =>
    rw [argument, Marker.args_quoted rest (label.not_mem (by decide))]
    exact congrArg some (Marker.unquote_quoted label.text)

theorem registration_invoke_append :
    Marker.registration marker (invoke marker label ++ rest) = registrationOf label := by
  rw [Marker.registration, explicitName?_invoke_append label rest]
  cases label with
  | none => rfl
  | some label =>
    have hname : ¬ label.text.isEmpty = true := by simpa using label.nonempty
    simp only [Option.map_some]
    rw [if_neg hname]
    rfl

section Apart

variable {rest} (h : markers.Apart) (hrest : markers.absentFrom rest = true)
include h hrest

theorem occursIn_onClass_binding (kind : BindingKind) :
    Text.occursIn markers.onClass (invoke (markers.onBinding kind) label ++ rest) = false := by
  have hlabel := Markers.onClass_absent (absentFrom_given h label)
  rw [occursIn_invoke_append label rest h.onClass hlabel, h.class_apart,
    Markers.onClass_absent hrest]
  rfl

private theorem occursIn_onBinding_class (kind : BindingKind) :
    Text.occursIn (markers.onBinding kind) (invoke markers.onClass label ++ rest) = false := by
  rw [occursIn_invoke_append label rest (h.onBinding kind)
      (Markers.onBinding_absent (absentFrom_given h label) kind),
    h.binding_apart, Markers.onBinding_absent hrest]
  rfl

private theorem occursIn_onBinding_binding (kind other : BindingKind) (hne : kind ≠ other) :
    Text.occursIn (markers.onBinding kind) (invoke (markers.onBinding other) label ++ rest) =
      false := by
  rw [occursIn_invoke_append label rest (h.onBinding kind)
      (Markers.onBinding_absent (absentFrom_given h label) kind),
    h.bindings_apart kind other hne, Markers.onBinding_absent hrest]
  rfl

/-- Only the invocation at the front is removed. -/
theorem strip_binding (kind : BindingKind) :
    markers.strip (invoke (markers.onBinding kind) label ++ rest) = rest := by
  have hargument : ')' ∉ argument label := not_mem_argument label (by decide)
  have honClass := occursIn_onClass_binding label h hrest kind
  have hown : Marker.strip (markers.onBinding kind)
      (invoke (markers.onBinding kind) label ++ rest) = rest := by
    rw [invoke_append, Marker.strip_front rest hargument,
      Marker.strip_of_absent (Markers.onBinding_absent hrest kind)]
  rw [Markers.strip, Marker.strip_of_absent honClass]
  cases kind with
  | member =>
    have hafter : Marker.strip markers.onFunction rest = rest :=
      Marker.strip_of_absent (Markers.onBinding_absent hrest .function)
    exact (congrArg (Marker.strip markers.onFunction) hown).trans hafter
  | function =>
    have hbefore := Marker.strip_of_absent
      (occursIn_onBinding_binding label h hrest .member .function (by decide))
    exact (congrArg (Marker.strip markers.onFunction) hbefore).trans hown

/-- A class marker at the front of a line registers the class around it. -/
theorem effects_class : markers.effects (invoke markers.onClass label ++ rest) {} =
    [.register (registrationOf label)] := by
  have hoccurs : Text.occursIn markers.onClass (invoke markers.onClass label ++ rest) = true := by
    rw [invoke_append]
    exact Text.occursIn_self_append ..
  rw [Markers.effects_empty,
    Markers.markerEffects_of_absent .member (occursIn_onBinding_class label h hrest .member),
    Markers.markerEffects_of_absent .function (occursIn_onBinding_class label h hrest .function),
    Markers.classEffects, if_pos hoccurs, registration_invoke_append label rest]
  rfl

/-- A member or function marker binds what is declared behind it, or waits. -/
theorem effects_binding (kind : BindingKind) :
    markers.effects (invoke (markers.onBinding kind) label ++ rest) {} =
      match Declaration.identifier? kind rest with
      | some identifier => [.bind kind (.named (given label) identifier)]
      | none => [.wait kind (given label)] := by
  have hoccurs : Text.occursIn (markers.onBinding kind)
      (invoke (markers.onBinding kind) label ++ rest) = true := by
    rw [invoke_append]
    exact Text.occursIn_self_append ..
  have hown : markers.markerEffects kind (invoke (markers.onBinding kind) label ++ rest) =
      match Declaration.identifier? kind rest with
      | some identifier => [.bind kind (.named (given label) identifier)]
      | none => [.wait kind (given label)] := by
    rw [Markers.markerEffects, if_pos hoccurs, strip_binding label h hrest kind,
      explicitName?_invoke_append label rest]
    rfl
  rw [Markers.effects_empty,
    Markers.classEffects_of_absent (occursIn_onClass_binding label h hrest kind)]
  cases kind with
  | member =>
    rw [Markers.markerEffects_of_absent .function
      (occursIn_onBinding_binding label h hrest .function .member (by decide)), hown,
      List.append_nil]
    rfl
  | function =>
    rw [Markers.markerEffects_of_absent .member
      (occursIn_onBinding_binding label h hrest .member .function (by decide)), hown]
    rfl

end Apart

variable (item : Item markers)

theorem Word.absentFrom_append (h : markers.Apart) (word : Word markers) (tail : Text)
    (htail : tail.isWordless = true) : markers.absentFrom (word.text ++ tail) = true := by
  cases tail with
  | nil =>
    rw [List.append_nil]
    exact word.isFree
  | cons c tail =>
    obtain ⟨hc, htail⟩ := Text.isWordless_cons.mp htail
    rw [Markers.absentFrom_append_cons h hc, word.isFree,
      Markers.absentFrom_of_isWordless h htail]
    rfl

theorem absentFrom_declaration (h : markers.Apart) :
    markers.absentFrom item.declaration = true := by
  rw [Item.declaration]
  split
  · rw [Markers.absentFrom_append_cons h (by decide), item.type.isFree,
      item.name.absentFrom_append h _ (by decide)]
    rfl
  · rw [Markers.absentFrom_append_cons h (by decide), item.type.isFree,
      item.name.absentFrom_append h _ (by decide)]
    rfl

theorem identifier?_declaration (lead : Text) (hlead : ∀ c ∈ lead, c = ' ') :
    Declaration.identifier? item.kind (lead ++ item.declaration) = some item.name.text := by
  have htype := item.type.isIdentifier
  have hname := item.name.isIdentifier
  rw [Item.declaration]
  split
  · rename_i hkind
    rw [hkind]
    exact Declaration.memberIdentifier?_two hlead htype hname
  · rename_i hkind
    rw [hkind]
    exact Declaration.functionIdentifier?_two hlead htype hname (item.name_declares hkind)

private theorem isTransparent_declaration : Declaration.isTransparent item.declaration = false := by
  have htype := item.type.isIdentifier
  rw [Item.declaration]
  split
  · exact Declaration.isTransparent_two htype item.type_visible (by decide)
  · have hline : item.name.text ++ ['(', ')', ';'] = (item.name.text ++ ['(', ')']) ++ [';'] := by
      simp
    rw [hline]
    exact Declaration.isTransparent_two htype item.type_visible (by decide)

/-- A declaration ends the wait of the marker on the line before it. -/
theorem effects_declaration (h : markers.Apart) (explicit : Text) :
    markers.effects item.declaration (({} : Slots).set item.kind (some explicit)) =
      [.resolve item.kind (.named explicit item.name.text)] := by
  have habsent := absentFrom_declaration item h
  have hidentifier : Declaration.identifier? item.kind item.declaration = some item.name.text :=
    identifier?_declaration item [] (by simp)
  have hslot : ∀ kind, markers.slotEffects kind item.declaration
      (({} : Slots).set item.kind (some explicit)) =
        if kind = item.kind then [.resolve item.kind (.named explicit item.name.text)] else [] := by
    intro kind
    rw [Markers.slotEffects, Markers.onBinding_absent habsent, isTransparent_declaration,
      Markers.strip_of_absentFrom habsent, Slots.get_set, if_neg (by decide)]
    by_cases hkind : kind = item.kind
    · rw [if_pos hkind, if_pos hkind, hkind, hidentifier]
    · have hempty : ({} : Slots).get kind = none := by cases kind <;> rfl
      rw [if_neg hkind, if_neg hkind, hempty]
  rw [Markers.effects_of_absentFrom habsent, hslot, hslot]
  cases item.kind <;> rfl

end Forest

end Registrar
