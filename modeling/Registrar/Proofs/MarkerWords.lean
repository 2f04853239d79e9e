import Registrar.Proofs.LineEffects

/-! Which words of a line count as markers. A marker is searched for as a piece of text, so every
word that holds its name does what the marker itself does: it registers the class, or it binds a
member or a function. -/

namespace Registrar.Markers

/-- A line registers the class exactly if one of its words holds the name of the class marker. It
binds nothing of a kind and leaves nothing waiting, as long as nothing waits, exactly if none of its
words holds the name of the marker of this kind. -/
theorem annotate_iff_word_holds_marker (markers : Markers) (hvalid : markers.validate = .ok ())
    (line : Text) (slots : Slots) (cls : ReflectedClass) :
    (markers.annotateClass line slots cls).registration =
        (if line.words.any (Text.occursIn markers.onClass) then
          some (cls.nameFor (Marker.registration markers.onClass line))
        else cls.registration) ∧
      ∀ kind, slots.get kind = none →
        ((markers.annotateClass line slots cls).bindings kind = cls.bindings kind ∧
            (markers.annotateSlots line slots).get kind = none ↔
          line.words.any (Text.occursIn (markers.onBinding kind)) = false) := by
  constructor
  · rw [registration_annotateClass, Text.any_occursIn_words (isIdentifier_onClass hvalid)]
  · intro kind hslot
    have hcount := markers.length_bound_of_none kind line hslot
    rw [bindings_annotateClass, List.append_right_eq_self, ← List.length_eq_zero_iff,
      Text.any_occursIn_words (isIdentifier_onBinding hvalid kind)]
    constructor
    · rintro ⟨hbound, hafter⟩
      rw [hbound, hafter] at hcount
      simpa using hcount.symm
    · intro habsent
      rw [habsent] at hcount
      simpa using hcount

/-- A line with the class marker alone binds nothing, and the marker of a member registers the class
because it holds the name of the class marker. -/
theorem annotate_iff_word_holds_marker_field :
    let markers : Markers := ⟨"META".toList, "META_FIELD".toList, "META_CALL".toList⟩
    let cls : ReflectedClass := { name := .global "Foo".toList, header := "a.hpp".toList }
    ((markers.annotateClass "META(\"F\") int x;".toList {} cls).bindings .member = [] ∧
        (markers.annotateSlots "META(\"F\") int x;".toList {}).get .member = none) ∧
      (markers.annotateClass "META_FIELD() int x;".toList {} cls).registration =
        some "Foo".toList := by
  intro markers cls
  refine ⟨((annotate_iff_word_holds_marker markers rfl _ {} cls).2 .member rfl).mpr ?_, ?_⟩
  · decide +kernel
  · rw [(annotate_iff_word_holds_marker markers rfl _ {} cls).1]
    decide +kernel

/-- Longer words that only hold the name of a marker register the class, bind a member and bind a
function. -/
theorem annotate_longer_words :
    let cls : ReflectedClass := { name := .global "Foo".toList, header := "a.hpp".toList }
    let markers : Markers := {}
    ("REFLECT_CLASS".toList ∉ Text.words "int REFLECT_CLASS_COUNT;".toList ∧
        (markers.annotateClass "int REFLECT_CLASS_COUNT;".toList {} cls).registration =
          some "Foo".toList) ∧
      ("REFLECT_MEMBER".toList ∉ Text.words "int REFLECT_MEMBERS;".toList ∧
        (markers.annotateClass "int REFLECT_MEMBERS;".toList {} cls).members =
          [.same "REFLECT_MEMBERS".toList]) ∧
      ("REFLECT_FUNCTION".toList ∉ Text.words "NO_REFLECT_FUNCTION()".toList ∧
        (markers.annotateSlots "NO_REFLECT_FUNCTION()".toList {}).function = some []) := by
  decide +kernel

end Registrar.Markers
