import Registrar.Proofs.LineEffects
import Registrar.Proofs.ScopeSteps
import Registrar.Proofs.Text.Comments

/-! Headers that are skipped. A header is searched for the class marker before its comments are
removed, and read afterwards. Lines without the marker register nothing, so skipping loses nothing,
unless the marker is there only once a comment inside it is gone. -/

namespace Registrar

/-- Removing comments joins the word: a cleaned line holds it, the text itself does not. -/
def Text.JoinsWord (word source : Text) : Prop :=
  occursIn word source = false ∧ ∃ line ∈ source.cleanLines, occursIn word line = true

instance (word source : Text) : Decidable (Text.JoinsWord word source) :=
  inferInstanceAs (Decidable (_ ∧ _))

/-- Only a word that a block comment cuts can be joined. -/
private theorem Text.JoinsWord.cutIn {word source : Text} (h : JoinsWord word source) :
    CutIn word source := by
  obtain ⟨habsent, line, hline, hword⟩ := h
  rcases keptIn_of_mem_cleanLines hline (occursIn_iff_isInfix.mp hword) with hinfix | hcut
  · rw [occursIn_iff_isInfix.mpr hinfix] at habsent
    exact absurd habsent Bool.noConfusion
  · exact hcut

/-- A head on a line without the class marker is not marked. -/
private theorem mark_eq_none_of_absent {marker line : Text} {head : ClassHead}
    (habsent : Text.occursIn marker line = false)
    (h : heading? marker line = some (.split head)) : head.mark = none := by
  obtain ⟨name, _, ⟨_, heq⟩ | ⟨_, _, heq⟩ | ⟨_, _, heq⟩⟩ := heading?_cases h <;> cases heq
  rw [Marker.skipLeading_of_absent habsent]
  exact if_neg (Nat.lt_irrefl _)

namespace Progress

/-- No class marker was seen: no class is registered and the pending head is not marked. -/
structure Unmarked (progress : Progress) : Prop where
  classes : ∀ cls ∈ progress.registry, cls.registration = none
  pending : ∀ head ∈ progress.scopes.pending, head.mark = none

namespace Unmarked

variable {markers : Markers} {header : Text} {progress : Progress}

private theorem registration_fresh {head : ClassHead} (h : head.mark = none) :
    (progress.fresh header head).registration = none := by
  rw [fresh, h]

private theorem readLine (h : progress.Unmarked) {line : Text}
    (habsent : Text.occursIn markers.onClass line = false) :
    (progress.readLine markers header line).Unmarked := by
  obtain ⟨hopened, hpending⟩ : (∀ head ∈ (progress.scopes.headings markers.onClass line).1,
      head.mark = none) ∧ ∀ head ∈ (progress.scopes.headings markers.onClass line).2,
      head.mark = none :=
    Scopes.forall_headings h.pending (fun _ _ => rfl) fun _ => mark_eq_none_of_absent habsent
  refine ⟨?_, ?_⟩
  · apply forall_mem_registry_readLine h.classes
    · intro head hhead
      exact registration_fresh (hopened head hhead)
    · intro slots cls hcls
      rw [Markers.registration_annotateClass, habsent, if_neg Bool.false_ne_true]
      exact hcls
  · rw [pending_readLine]
    exact hpending

private theorem readLines (h : progress.Unmarked) {lines : List Text}
    (habsent : ∀ line ∈ lines, Text.occursIn markers.onClass line = false) :
    (progress.readLines markers header lines).Unmarked := by
  induction lines generalizing progress with
  | nil => exact h
  | cons line lines ih =>
    obtain ⟨hline, hlines⟩ := List.forall_mem_cons.mp habsent
    exact ih (h.readLine hline) hlines

private theorem registered_eq_nil (h : progress.Unmarked) : progress.registry.registered = [] := by
  rw [Registry.registered, List.filter_eq_nil_iff]
  intro cls hcls
  rw [ReflectedClass.isRegistered, h.classes cls hcls]
  exact Bool.false_ne_true

end Unmarked

end Progress

namespace Markers

/-- Skipping a header loses no registered class: a scan registers what reading all cleaned lines
registers, unless removing comments joins the class marker. In that case the header is skipped, and
somewhere in it a block comment starts inside the marker. -/
theorem scan_registered_unless_joined (markers : Markers) (header source : Text) :
    let read := Progress.readLines markers header source.cleanLines {}
    (¬ Text.JoinsWord markers.onClass source →
      (markers.scan header source).registered = read.registry.registered) ∧
    (Text.JoinsWord markers.onClass source →
      markers.scan header source = [] ∧ Text.CutIn markers.onClass source) := by
  intro read
  refine ⟨?_, ?_⟩
  · intro hjoins
    by_cases hfound : Text.occursIn markers.onClass source = true
    · rw [scan, needsScan, if_pos hfound]
    · have hskipped := Bool.eq_false_iff.mpr hfound
      have habsent : ∀ line ∈ source.cleanLines, Text.occursIn markers.onClass line = false := by
        intro line hline
        rw [Bool.eq_false_iff]
        exact fun hword => hjoins ⟨hskipped, line, hline, hword⟩
      have hstart : Progress.Unmarked {} := ⟨nofun, nofun⟩
      rw [(hstart.readLines habsent).registered_eq_nil, scan, needsScan, if_neg hfound]
      rfl
  · intro hjoins
    refine ⟨?_, hjoins.cutIn⟩
    rw [scan, needsScan, hjoins.1, if_neg Bool.false_ne_true]

/-- A class with half of the marker in a comment and the other half in its body, and one with a
comment inside the marker. -/
theorem scan_registered_unless_joined_comments :
    let halves : Text := "class A \x7b // REFLECT_\nCLASS() int x;\n\x7d;\n".toList
    let joined : Text := "class A \x7b\nREFLECT_/**/CLASS()\n\x7d;\n".toList
    let marker := ({} : Markers).onClass
    ¬ Text.JoinsWord marker halves ∧ Text.JoinsWord marker joined ∧
      (Markers.scan {} "a.hpp".toList halves).registered =
        (Progress.readLines {} "a.hpp".toList halves.cleanLines {}).registry.registered ∧
      Text.CutIn marker joined := by
  intro halves joined marker
  have hhalves : ¬ Text.JoinsWord marker halves := by decide +kernel
  have hjoined : Text.JoinsWord marker joined := by decide +kernel
  exact ⟨hhalves, hjoined, (scan_registered_unless_joined {} "a.hpp".toList halves).1 hhalves,
    ((scan_registered_unless_joined {} "a.hpp".toList joined).2 hjoined).2⟩

/-- The markers are valid and reading the lines registers the class, but the header is skipped. -/
theorem scan_skips_joined_class :
    let source : Text := "class A \x7b\nREFLECT_/**/CLASS()\n\x7d;\n".toList
    Markers.validate {} = .ok () ∧
      (Markers.scan {} "test.hpp".toList source).registered = [] ∧
      (Progress.readLines {} "test.hpp".toList source.cleanLines {}).registry.registered =
        [⟨.global "A".toList, "test.hpp".toList, some "A".toList, [], []⟩] := by
  intro source
  exact ⟨rfl, by decide +kernel, by decide +kernel⟩

end Markers

end Registrar
