import Registrar.Text.Blank
import Registrar.Text.Digit
import Registrar.Text.Identifier
import Registrar.Text.Word

/-! Identifier characters are told from blanks and from punctuation, so a text of words can be cut
at its separators. -/

namespace Registrar

theorem ne_of_isIdentChar {c d : Char} (hc : isIdentChar c = true) (hd : isIdentChar d = false) :
    c ≠ d := by
  rintro rfl
  rw [hc] at hd
  exact Bool.noConfusion hd

private theorem toNat_of_isAlpha {c : Char} (h : c.isAlpha = true) :
    65 ≤ c.toNat ∧ c.toNat ≤ 122 := by
  rcases Bool.or_eq_true_iff.mp h with hupper | hlower
  · have hrange : 65 ≤ c.toNat ∧ c.toNat ≤ 90 := of_decide_eq_true hupper
    omega
  · have hfirst : 97 ≤ c.toNat := of_decide_eq_true (Bool.and_eq_true_iff.mp hlower).1
    have hlast : c.toNat ≤ 122 := of_decide_eq_true (Bool.and_eq_true_iff.mp hlower).2
    omega

private theorem toNat_of_isDigit {c : Char} (h : c.isDigit = true) : c.toNat ≤ 57 :=
  of_decide_eq_true (Bool.and_eq_true_iff.mp h).2

theorem toNat_lt_of_isIdentChar {c : Char} (h : isIdentChar c = true) : c.toNat < 0x80 := by
  rcases Bool.or_eq_true_iff.mp h with halnum | hunder
  · rcases Bool.or_eq_true_iff.mp halnum with halpha | hdigit
    · have hrange := toNat_of_isAlpha halpha
      omega
    · have hlast := toNat_of_isDigit hdigit
      omega
  · rw [eq_of_beq hunder]
    decide

theorem isWordChar_of_isIdentChar {c : Char} (h : isIdentChar c = true) : isWordChar c = true := by
  rw [isWordChar, if_pos (toNat_lt_of_isIdentChar h)]
  exact h

private theorem isDecimalDigit_of_isIdentStart {c : Char} (h : isIdentStart c = true) :
    isDecimalDigit c = false := by
  rw [isDecimalDigit, if_pos (toNat_lt_of_isIdentChar (isIdentChar_of_isIdentStart h)),
    Bool.eq_false_iff]
  intro hdigit
  have hlast := toNat_of_isDigit hdigit
  rcases Bool.or_eq_true_iff.mp h with halpha | hunder
  · have hrange := toNat_of_isAlpha halpha
    omega
  · rw [eq_of_beq hunder] at hdigit
    exact absurd hdigit (by decide)

theorem isIdentStart_of_isDigit {c : Char} (h : c.isDigit = true) : isIdentStart c = false := by
  rw [Bool.eq_false_iff]
  intro hstart
  have hdecimal := isDecimalDigit_of_isIdentStart hstart
  rw [isDecimalDigit, if_pos (toNat_lt_of_isIdentChar (isIdentChar_of_isDigit h)), h] at hdecimal
  exact Bool.noConfusion hdecimal

private theorem isBlank_of_isWordChar {c : Char} (h : isWordChar c = true) : isBlank c = false := by
  have htable : blanks.all (fun b => !isWordChar b) = true := by decide +kernel
  rw [Bool.eq_false_iff]
  intro hblank
  have hword := List.all_eq_true.mp htable c (List.contains_iff_mem.mp hblank)
  rw [h] at hword
  exact Bool.noConfusion hword

theorem isWordChar_of_isBlank {c : Char} (h : isBlank c = true) : isWordChar c = false := by
  rw [Bool.eq_false_iff]
  intro hc
  rw [isBlank_of_isWordChar hc] at h
  exact Bool.noConfusion h

theorem isDecimalDigit_of_isBlank {c : Char} (h : isBlank c = true) :
    isDecimalDigit c = false := by
  have htable : blanks.all (fun b => !isDecimalDigit b) = true := by decide +kernel
  simpa using List.all_eq_true.mp htable c (List.contains_iff_mem.mp h)

theorem ne_of_isBlank {c d : Char} (hc : isBlank c = true) (hd : isBlank d = false) : c ≠ d := by
  rintro rfl
  rw [hc] at hd
  exact Bool.noConfusion hd

theorem isBlank_of_isIdentChar {c : Char} (h : isIdentChar c = true) : isBlank c = false :=
  isBlank_of_isWordChar (isWordChar_of_isIdentChar h)

theorem isIdentChar_of_isBlank {c : Char} (h : isBlank c = true) : isIdentChar c = false := by
  rw [Bool.eq_false_iff]
  intro hc
  rw [isBlank_of_isIdentChar hc] at h
  exact Bool.noConfusion h

namespace Text

variable {t : Text}

theorem exists_of_isIdentifier (h : t.isIdentifier = true) :
    ∃ c rest, t = c :: rest ∧ isIdentStart c = true ∧ ∀ d ∈ rest, isIdentChar d = true := by
  cases t with
  | nil => exact absurd h Bool.noConfusion
  | cons c rest =>
    obtain ⟨hc, hrest⟩ := Bool.and_eq_true_iff.mp h
    exact ⟨c, rest, rfl, hc, List.all_eq_true.mp hrest⟩

theorem ne_nil_of_isIdentifier (h : t.isIdentifier = true) : t ≠ [] := by
  obtain ⟨c, rest, rfl, _, _⟩ := exists_of_isIdentifier h
  exact List.cons_ne_nil c rest

theorem isIdentChar_of_mem (h : t.isIdentifier = true) {c : Char} (hc : c ∈ t) :
    isIdentChar c = true := by
  obtain ⟨d, rest, rfl, hd, hrest⟩ := exists_of_isIdentifier h
  rcases List.mem_cons.mp hc with rfl | hc
  · exact isIdentChar_of_isIdentStart hd
  · exact hrest c hc

theorem not_mem_of_isIdentifier (h : t.isIdentifier = true) {c : Char}
    (hc : isIdentChar c = false) : c ∉ t := by
  intro hmem
  exact ne_of_isIdentChar (isIdentChar_of_mem h hmem) hc rfl

def isWord (t : Text) : Bool := !t.isEmpty && t.all isWordChar

def isName : Text → Bool
  | [] => false
  | c :: t => isIdentStart c && t.all isWordChar

theorem isWord_iff : t.isWord = true ↔ t ≠ [] ∧ ∀ c ∈ t, isWordChar c = true := by
  simp [isWord]

theorem isWord_of_isName (h : t.isName = true) : t.isWord = true := by
  cases t with
  | nil => exact absurd h Bool.noConfusion
  | cons c rest =>
    obtain ⟨hc, hrest⟩ := Bool.and_eq_true_iff.mp h
    have hword := isWordChar_of_isIdentChar (isIdentChar_of_isIdentStart hc)
    exact isWord_iff.mpr ⟨List.cons_ne_nil c rest,
      List.forall_mem_cons.mpr ⟨hword, List.all_eq_true.mp hrest⟩⟩

theorem isName_of_isIdentifier (h : t.isIdentifier = true) : t.isName = true := by
  obtain ⟨c, rest, rfl, hc, hrest⟩ := exists_of_isIdentifier h
  exact Bool.and_eq_true_iff.mpr
    ⟨hc, List.all_eq_true.mpr fun d hd => isWordChar_of_isIdentChar (hrest d hd)⟩

theorem not_mem_of_isWord (h : t.isWord = true) {c : Char} (hc : isWordChar c = false) :
    c ∉ t := by
  intro hmem
  rw [(isWord_iff.mp h).2 c hmem] at hc
  exact Bool.noConfusion hc

theorem isBlank_of_isWord (h : t.isWord = true) : ∀ c ∈ t, isBlank c = false :=
  fun c hc => isBlank_of_isWordChar ((isWord_iff.mp h).2 c hc)

theorem isWord_takeWhile (h : t.head?.any isWordChar = true) :
    isWord (t.takeWhile isWordChar) = true := by
  refine isWord_iff.mpr ⟨?_, List.all_eq_true.mp List.all_takeWhile⟩
  cases t with
  | nil => exact absurd h Bool.noConfusion
  | cons c rest =>
    rw [List.takeWhile_cons_of_pos (show isWordChar c = true from h)]
    exact List.cons_ne_nil _ _

def isWordless (t : Text) : Bool := t.all fun c => !isIdentChar c

theorem isWordless_cons {c : Char} :
    isWordless (c :: t) = true ↔ isIdentChar c = false ∧ t.isWordless = true := by
  simp [isWordless]

theorem isIdentChar_of_isWordless (h : t.isWordless = true) : ∀ c ∈ t, isIdentChar c = false := by
  simpa [isWordless] using h

theorem occursIn_of_isWordless {word : Text} (hword : word.isIdentifier = true)
    (ht : t.isWordless = true) : occursIn word t = false := by
  rw [Bool.eq_false_iff]
  intro h
  obtain ⟨before, after, rfl⟩ := occursIn_iff.mp h
  obtain ⟨c, rest, rfl, hc, _⟩ := exists_of_isIdentifier hword
  have hno := isIdentChar_of_isWordless ht c (by simp)
  rw [isIdentChar_of_isIdentStart hc] at hno
  exact Bool.noConfusion hno

/-- What is blind to one blank in front of a text is blind to any number of them. -/
theorem blank_append_eq {α : Type} {f : Text → α} {gap : Text}
    (hcons : ∀ c t, isBlank c = true → f (c :: t) = f t) (h : ∀ c ∈ gap, isBlank c = true)
    (t : Text) : f (gap ++ t) = f t := by
  induction gap with
  | nil => rfl
  | cons c gap ih =>
    obtain ⟨hc, hgap⟩ := List.forall_mem_cons.mp h
    rw [List.cons_append, hcons c _ hc, ih hgap]

/-- What keeps one blank in front of a text keeps any number of them. -/
theorem blank_append_keep {f : Text → Text} {gap : Text}
    (hcons : ∀ c t, isBlank c = true → f (c :: t) = c :: f t) (h : ∀ c ∈ gap, isBlank c = true)
    (t : Text) : f (gap ++ t) = gap ++ f t := by
  induction gap with
  | nil => rfl
  | cons c gap ih =>
    obtain ⟨hc, hgap⟩ := List.forall_mem_cons.mp h
    rw [List.cons_append, hcons c _ hc, ih hgap, List.cons_append]

theorem trimStart_of_head {c : Char} (t : Text) (h : isBlank c = false) :
    trimStart (c :: t) = c :: t :=
  List.dropWhile_cons_of_neg (by simp [h])

theorem head?_dropWhile (p : Char → Bool) (t : Text) :
    ∀ c ∈ (t.dropWhile p).head?, p c = false := by
  intro c hc
  have hnot := List.head?_dropWhile_not p t
  rw [Option.mem_def.mp hc] at hnot
  simpa using hnot

theorem isBlank_of_trimStart {c : Char} {rest : Text} (h : t.trimStart = c :: rest) :
    isBlank c = false := by
  have hhead := head?_dropWhile isBlank t
  rw [show t.dropWhile isBlank = c :: rest from h] at hhead
  exact hhead c rfl

theorem trimStart_trimStart (t : Text) : t.trimStart.trimStart = t.trimStart := by
  cases h : t.trimStart with
  | nil => rfl
  | cons c rest => exact trimStart_of_head rest (isBlank_of_trimStart h)

theorem trimStart_identifier_append (h : t.isIdentifier = true) (rest : Text) :
    trimStart (t ++ rest) = t ++ rest := by
  obtain ⟨c, more, rfl, hc, _⟩ := exists_of_isIdentifier h
  exact trimStart_of_head _ (isBlank_of_isIdentChar (isIdentChar_of_isIdentStart hc))

theorem trimEnd_append_singleton {c : Char} (t : Text) (h : isBlank c = false) :
    trimEnd (t ++ [c]) = t ++ [c] := by
  rw [trimEnd, List.reverse_append, List.reverse_singleton, List.singleton_append,
    List.dropWhile_cons_of_neg (by simp [h]), List.reverse_cons, List.reverse_reverse]

theorem trimEnd_append_blank {c : Char} (t : Text) (h : isBlank c = true) :
    trimEnd (t ++ [c]) = trimEnd t := by
  rw [trimEnd, List.reverse_append, List.reverse_singleton, List.singleton_append,
    List.dropWhile_cons_of_pos h, trimEnd]

theorem forall_head?_cons {p : Char → Prop} {c : Char} (hc : p c) (t : Text) :
    ∀ d ∈ (c :: t).head?, p d := by
  intro d hd
  obtain rfl : c = d := Option.some.inj hd
  exact hc

theorem takeWhile_append_stop {p : Char → Bool} {w rest : Text} (hw : ∀ c ∈ w, p c = true)
    (hrest : ∀ c ∈ rest.head?, p c = false) : (w ++ rest).takeWhile p = w := by
  rw [List.takeWhile_append_of_pos hw]
  cases rest with
  | nil => simp
  | cons c rest =>
    have hc := hrest c rfl
    rw [List.takeWhile_cons_of_neg (by simp [hc]), List.append_nil]

theorem dropWhile_append_stop {p : Char → Bool} {w rest : Text} (hw : ∀ c ∈ w, p c = true)
    (hrest : ∀ c ∈ rest.head?, p c = false) : (w ++ rest).dropWhile p = rest := by
  rw [List.dropWhile_append_of_pos hw]
  cases rest with
  | nil => rfl
  | cons c rest =>
    have hc := hrest c rfl
    exact List.dropWhile_cons_of_neg (by simp [hc])

end Text

end Registrar
