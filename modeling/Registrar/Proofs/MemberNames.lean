import Mathlib.Data.List.Forall2
import Registrar.Proofs.Initializers

/-! What the name of a member does not depend on. A literal separates what stands around it,
whatever it holds, and blanking numbers does not change the identifiers of a text as long as only
ASCII digits make numbers. -/

namespace Registrar

private theorem Quoting.shown_ne (place : Quoting) (c : Char) :
    place.shown c ≠ '\\' ∧ place.shown c ≠ '"' ∧ place.shown c ≠ '\'' := by
  unfold shown
  split
  · decide
  · rename_i hplain
    simp only [Bool.or_eq_true, not_or, beq_iff_eq] at hplain
    exact ⟨hplain.1.1.2, hplain.1.2, hplain.2⟩

namespace Text

variable {quote : Char} {body : Text}

/-- Every character is kept in its place or replaced by a space there. -/
private theorem forall₂_blankLiteralsFrom (place : Quoting) (t : Text) :
    List.Forall₂ (fun c shown => shown = c ∨ shown = ' ') t (blankLiteralsFrom place t) := by
  induction t generalizing place with
  | nil => exact .nil
  | cons c t ih =>
    refine .cons ?_ (ih _)
    rcases shown_eq place c with hspace | ⟨hkept, _⟩
    · exact .inr hspace
    · exact .inl hkept

private theorem ne_of_mem_blankLiteralsFrom (place : Quoting) (t : Text) :
    ∀ c ∈ blankLiteralsFrom place t, c ≠ '\\' ∧ c ≠ '"' ∧ c ≠ '\'' := by
  induction t generalizing place with
  | nil => exact nofun
  | cons c t ih => exact List.forall_mem_cons.mpr ⟨place.shown_ne c, ih _⟩

private theorem blankLiterals_blankLiterals (t : Text) :
    t.blankLiterals.blankLiterals = t.blankLiterals :=
  blankLiterals_of_plain (ne_of_mem_blankLiteralsFrom {} t)

/-- A literal that a text is read up to outside of literals is blanked, and what follows it is read
as if it stood alone. -/
private theorem blankLiterals_append_quoted {s : Text} (hplace : s.foldl Quoting.next {} = {})
    (hquote : quote = '"' ∨ quote = '\'') (hbody : Enclosed quote body) (t : Text) :
    blankLiterals (s ++ quote :: (body ++ quote :: t)) =
      s.blankLiterals ++ (List.replicate (body.length + 2) ' ' ++ t.blankLiterals) := by
  rw [blankLiterals, blankLiteralsFrom_append, hplace, ← blankLiterals, ← blankLiterals,
    blankLiterals_quoted hquote hbody]

private theorem names_blankNumbers_space (s t : Text) :
    (blankNumbers (s ++ ' ' :: t)).names = s.blankNumbers.names ++ t.blankNumbers.names := by
  have hspace : EndsNumber ' ' := ⟨by decide, by decide, by decide⟩
  rw [blankNumbers, hspace.blankNumbersFrom, ← blankNumbers,
    names_append _ (forall_head?_cons (by decide) _), names_separator (by decide)]

/-- However many blanks part two texts, numbers are blanked and names are read on each side for
itself. -/
private theorem names_blankNumbers_blanks (s t : Text) (n : Nat) :
    (blankNumbers (s ++ (List.replicate (n + 1) ' ' ++ t))).names =
      s.blankNumbers.names ++ t.blankNumbers.names := by
  induction n generalizing s with
  | zero => exact names_blankNumbers_space s t
  | succ n ih =>
    have hnone : blankNumbers [] = [] := by rw [blankNumbers, blankNumbersFrom]
    have hblanks := ih []
    rw [List.nil_append, hnone, names_nil, List.nil_append] at hblanks
    rw [List.replicate_succ, List.cons_append, names_blankNumbers_space, hblanks]

end Text

namespace Declaration

variable {quote : Char} {p q body : Text}

/-- Around a literal a line declares what is declared behind it, or else what is declared in front
of it. -/
private theorem memberIdentifier?_quoted (hquote : quote = '"' ∨ quote = '\'')
    (hplace : p.foldl Quoting.next {} = {}) (hbody : Enclosed quote body)
    (hp : '(' ∉ p) (hq : '(' ∉ q) (hcall : '(' ∉ body) :
    memberIdentifier? (p ++ quote :: (body ++ quote :: q)) =
      (memberIdentifier? q).or (memberIdentifier? p) := by
  have hopen : '(' ≠ quote := by
    rcases hquote with rfl | rfl <;> decide
  have hline : '(' ∉ p ++ quote :: (body ++ quote :: q) := by
    simp [hp, hq, hcall, hopen]
  rw [memberIdentifier?_eq hline, memberIdentifier?_eq hp, memberIdentifier?_eq hq,
    Text.blankLiterals_append_quoted hplace hquote hbody, Text.names_blankNumbers_blanks,
    List.getLast?_append]

/-- What stands in a literal has no influence on the name of a member. Two lines that differ in the
contents of one literal only declare the same one, whatever identifiers, numbers and other quotes
the contents hold and however long they are. Blanking literals keeps each character in its place or
replaces it by a space, leaves neither quotes nor backslashes, and does nothing the second time. -/
theorem member_hides_literal_contents :
    (∀ (quote : Char) (p q u v : Text), quote = '"' ∨ quote = '\'' →
      (∀ t ∈ [p, q, u, v], '(' ∉ t) → (∀ t ∈ [u, v], quote ∉ t ∧ '\\' ∉ t) →
      p.foldl Quoting.next {} = {} →
        memberIdentifier? (p ++ quote :: (u ++ quote :: q)) =
          memberIdentifier? (p ++ quote :: (v ++ quote :: q))) ∧
    ∀ line : Text, line.blankLiterals.length = line.length ∧
      List.Forall₂ (fun c shown => shown = c ∨ shown = ' ') line line.blankLiterals ∧
      (∀ c ∈ line.blankLiterals, c ≠ '\\' ∧ c ≠ '"' ∧ c ≠ '\'') ∧
      line.blankLiterals.blankLiterals = line.blankLiterals := by
  constructor
  · intro quote p q u v hquote hcall hcontents hplace
    simp only [List.forall_mem_cons] at hcall hcontents
    obtain ⟨hp, hq, hu, hv, _⟩ := hcall
    have henclosed : ∀ {t : Text}, quote ∉ t ∧ '\\' ∉ t → Enclosed quote t := fun ht =>
      Text.enclosed_of_plain fun c hc => ⟨fun h => ht.1 (h ▸ hc), fun h => ht.2 (h ▸ hc)⟩
    rw [memberIdentifier?_quoted hquote hplace (henclosed hcontents.1) hp hq hu,
      memberIdentifier?_quoted hquote hplace (henclosed hcontents.2.1) hp hq hv]
  · intro line
    exact ⟨Text.length_blankLiteralsFrom {} line, Text.forall₂_blankLiteralsFrom {} line,
      Text.ne_of_mem_blankLiteralsFrom {} line, Text.blankLiterals_blankLiterals line⟩

/-- The literal stands behind another one with an escaped quote in it and in front of a number. Its
contents are told apart by a name, a number that is cut off at either end and quotes of the other
kind. -/
theorem member_hides_literal_contents_names :
    let p := "const char *name = '\\'' + ".toList
    let q := ", size[0x1F]".toList
    memberIdentifier? (p ++ '"' :: ("hp '1.5e".toList ++ '"' :: q)) = some "size".toList ∧
      memberIdentifier? (p ++ '"' :: ("f \x7b 'x'y' \x7d 0x1p3 éé".toList ++ '"' :: q)) =
        some "size".toList := by
  intro p q
  have hname : memberIdentifier? (p ++ '"' :: ("hp '1.5e".toList ++ '"' :: q)) =
      some "size".toList := by decide +kernel
  have hsame := member_hides_literal_contents.1 '"' p q "hp '1.5e".toList
    "f \x7b 'x'y' \x7d 0x1p3 éé".toList (.inl rfl) (by decide) (by decide) (by decide)
  exact ⟨hname, hsame.symm.trans hname⟩

/-- Blanking the numbers of a line neither creates nor destroys nor alters an identifier if all
decimal digits of the line are ASCII digits, whatever other characters it holds. So a member is
named by the last identifier outside of literals, with or without the numbers. -/
theorem identifiers_kept_without_numbers (line : Text) (hdigits : line.HasAsciiDigits) :
    line.blankNumbers.identifiers.map Text.Run.word = line.identifiers.map Text.Run.word ∧
      memberIdentifier? line =
        if line.contains '(' then none
        else line.blankLiterals.identifiers.getLast?.map Text.Run.word := by
  constructor
  · exact (Text.names_blankNumbersFrom hdigits false).1
  · split
    · rename_i hcall
      rw [memberIdentifier?, if_pos hcall]
    · rename_i hcall
      have hblanked : line.blankLiterals.HasAsciiDigits := hdigits.blankLiteralsFrom {}
      have hline : '(' ∉ line := fun hmem => hcall (List.contains_iff_mem.mpr hmem)
      rw [memberIdentifier?_eq hline, Text.blankNumbers,
        (Text.names_blankNumbersFrom hblanked false).1, Text.names, List.getLast?_map]

/-- Malformed numbers in front of letters, some of them not ASCII, and behind one. -/
theorem identifiers_kept_without_numbers_malformed :
    let line : Text := "é1.5e 1e-5x 1.5é2.e5 ²_3 = 7.0fL + 0x1p+3u".toList
    line.blankNumbers.identifiers.map Text.Run.word = ["e5".toList, "_3".toList] ∧
      line.blankNumbers ≠ line := by
  intro line
  have hkept := (identifiers_kept_without_numbers line (by decide +kernel)).1
  exact ⟨hkept.trans (by decide +kernel), by decide +kernel⟩

/-- A digit of another script makes a number of what is an identifier behind a separator. -/
example : memberIdentifier? "float v = 1٥f;".toList = some "v".toList ∧
    (Text.identifiers "float v = 1٥f;".toList).getLast?.map Text.Run.word = some "f".toList := by
  decide +kernel

end Declaration

end Registrar
