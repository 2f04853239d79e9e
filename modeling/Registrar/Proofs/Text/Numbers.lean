import Registrar.Proofs.Text.Masking
import Registrar.Proofs.Text.Names

/-! Numbers and what stands around them. A number ends in front of a character that is no part of
one, whatever follows, and it holds no names, so blanking numbers leaves the names of a text alone
as long as only ASCII digits make a number. -/

namespace Registrar.Text

variable {t rest : Text} {c : Char}

private theorem isIdentChar_of_isNumberSuffix (h : isNumberSuffix c = true) :
    isIdentChar c = true := by
  have hall : "fFlLuU".toList.all isIdentChar = true := by decide
  exact List.all_eq_true.mp hall c (List.contains_iff_mem.mp h)

/-- A character that is no part of a number and ends one in front of it. -/
structure EndsNumber (c : Char) : Prop where
  not_word : isWordChar c = false
  not_digit : isDecimalDigit c = false
  not_sign : c ∉ ['.', '+', '-']

private theorem dropWhile_append_cons {p : Char → Bool} (hc : p c = false) (s t : Text) :
    (s ++ c :: t).dropWhile p = s.dropWhile p ++ c :: t := by
  induction s with
  | nil => exact List.dropWhile_cons_of_neg (by simp [hc])
  | cons d s ih =>
    rw [List.cons_append, List.dropWhile_cons, List.dropWhile_cons]
    split
    · exact ih
    · rfl

namespace EndsNumber

private theorem afterDigits? (hc : EndsNumber c) (s t : Text) :
    afterDigits? (s ++ c :: t) = (afterDigits? s).map (· ++ c :: t) := by
  cases s with
  | nil => simp [Text.afterDigits?, hc.not_digit]
  | cons d s =>
    simp only [List.cons_append, Text.afterDigits?, dropWhile_append_cons hc.not_digit]
    split <;> rfl

private theorem afterFraction? (hc : EndsNumber c) (s t : Text) :
    afterFraction? (s ++ c :: t) = (afterFraction? s).map (· ++ c :: t) := by
  have hpoint : c ≠ '.' := List.ne_of_not_mem_cons hc.not_sign
  cases s with
  | nil => simp [Text.afterFraction?, hpoint]
  | cons d s =>
    by_cases hd : d = '.'
    · rw [hd]
      exact hc.afterDigits? s t
    · simp [Text.afterFraction?, hd]

private theorem afterExponent? (hc : EndsNumber c) (s t : Text) :
    afterExponent? (s ++ c :: t) = (afterExponent? s).map (· ++ c :: t) := by
  have hsign : c ≠ '+' ∧ c ≠ '-' := by simpa using List.not_mem_of_not_mem_cons hc.not_sign
  have hexponent : ¬ (c = 'e' ∨ c = 'E') := by
    rintro (rfl | rfl) <;> exact absurd hc.not_word (by decide)
  cases s with
  | nil => simp [Text.afterExponent?, hexponent]
  | cons d s =>
    by_cases hd : d = 'e' ∨ d = 'E'
    · cases s with
      | nil =>
        simp [Text.afterExponent?, hd, hsign, Text.afterDigits?, hc.not_digit]
      | cons e s =>
        by_cases hplus : e = '+'
        · simpa [Text.afterExponent?, hd, hplus] using hc.afterDigits? s t
        · by_cases hminus : e = '-'
          · simpa [Text.afterExponent?, hd, hminus] using hc.afterDigits? s t
          · simpa [Text.afterExponent?, hd, hplus, hminus] using hc.afterDigits? (e :: s) t
    · simp [Text.afterExponent?, hd]

private theorem afterSuffixes? (hc : EndsNumber c) (s t : Text) :
    afterSuffixes? (s ++ c :: t) = (afterSuffixes? s).map (· ++ c :: t) := by
  have hsuffix : isNumberSuffix c = false := by
    rw [Bool.eq_false_iff]
    intro h
    have hword := isWordChar_of_isIdentChar (isIdentChar_of_isNumberSuffix h)
    exact absurd hc.not_word (by simp [hword])
  have hstarts : ∀ s : Text, startsWord (s ++ c :: t) = startsWord s := by
    intro s
    cases s with
    | nil => exact hc.not_word
    | cons d s => rfl
  simp only [Text.afterSuffixes?, dropWhile_append_cons hsuffix, hstarts]
  split <;> rfl

private theorem afterTail? (hc : EndsNumber c) (s t : Text) :
    afterTail? (s ++ c :: t) = (afterTail? s).map (· ++ c :: t) := by
  rw [Text.afterTail?, Text.afterTail?, hc.afterExponent?, hc.afterSuffixes?, Option.bind_map]
  have hbind : (Text.afterExponent? s).bind (Text.afterSuffixes? ∘ (· ++ c :: t)) =
      ((Text.afterExponent? s).bind Text.afterSuffixes?).map (· ++ c :: t) := by
    rw [Option.map_bind]
    exact congrArg _ (funext fun u => hc.afterSuffixes? u t)
  rw [hbind, ← Option.map_or]

private theorem afterNumber? (hc : EndsNumber c) (s t : Text) :
    afterNumber? (s ++ c :: t) = (afterNumber? s).map (· ++ c :: t) := by
  rw [Text.afterNumber?, Text.afterNumber?, hc.afterDigits?, Option.bind_map, Option.map_bind]
  refine congrArg _ (funext fun u => ?_)
  have hbind : (Text.afterFraction? u).bind (Text.afterTail? ∘ (· ++ c :: t)) =
      ((Text.afterFraction? u).bind Text.afterTail?).map (· ++ c :: t) := by
    rw [Option.map_bind]
    exact congrArg _ (funext fun v => hc.afterTail? v t)
  rw [Function.comp, Function.comp, hc.afterFraction?, hc.afterTail?, Option.bind_map, hbind,
    ← Option.map_or]

/-- Numbers are blanked in front of such a character and behind it, each part for itself. -/
theorem blankNumbersFrom (hc : EndsNumber c) (inWord : Bool) (s t : Text) :
    blankNumbersFrom inWord (s ++ c :: t) =
      blankNumbersFrom inWord s ++ c :: blankNumbers t := by
  have hfront : ∀ inWord u, numberFront? inWord (u ++ c :: t) =
      (numberFront? inWord u).map (· ++ c :: t) := by
    intro inWord u
    unfold numberFront?
    split
    · rfl
    · exact hc.afterNumber? u t
  fun_induction Text.blankNumbersFrom inWord s with
  | case1 inWord =>
    rw [List.nil_append, blankNumbersFrom_cons (.inr hc.not_digit), hc.not_word, blankNumbers,
      List.nil_append]
  | case2 inWord d s rest hfound ih =>
    have hnext := hfront inWord (d :: s)
    rw [hfound, Option.map_some, List.cons_append] at hnext
    rw [List.cons_append, blankNumbersFrom_of_some hnext, ih, List.cons_append]
  | case3 inWord d s hnone ih =>
    have hnext := hfront inWord (d :: s)
    rw [hnone, Option.map_none, List.cons_append] at hnext
    rw [List.cons_append, blankNumbersFrom_of_none hnext, ih, List.cons_append]

end EndsNumber

def HasAsciiDigits (t : Text) : Prop := ∀ c ∈ t, isDecimalDigit c = true → c.isDigit = true

instance (t : Text) : Decidable t.HasAsciiDigits := List.decidableBAll _ t

private theorem HasAsciiDigits.of_suffix (h : t.HasAsciiDigits) (hrest : rest <:+ t) :
    rest.HasAsciiDigits :=
  fun c hc => h c (hrest.mem hc)

theorem hasAsciiDigits_of_ascii (h : ∀ c ∈ t, c.toNat < 0x80) : t.HasAsciiDigits := by
  intro c hc hdigit
  rwa [isDecimalDigit, if_pos (h c hc)] at hdigit

theorem HasAsciiDigits.blankLiteralsFrom (h : t.HasAsciiDigits) (place : Quoting) :
    (blankLiteralsFrom place t).HasAsciiDigits := by
  induction t generalizing place with
  | nil => exact h
  | cons c t ih =>
    obtain ⟨hc, ht⟩ := List.forall_mem_cons.mp h
    rw [Text.blankLiteralsFrom]
    refine List.forall_mem_cons.mpr ⟨?_, ih ht _⟩
    rcases shown_eq place c with hshown | ⟨hshown, _⟩
    · rw [hshown]
      exact fun hspace => absurd hspace (by decide)
    · rw [hshown]
      exact hc

private theorem names_of_afterDigits? (hdigits : t.HasAsciiDigits)
    (h : afterDigits? t = some rest) :
    t.names = rest.namesBehindWord ∧ t.namesBehindWord = rest.namesBehindWord := by
  cases t with
  | nil => exact absurd h (by simp [afterDigits?])
  | cons c t =>
    rw [afterDigits?] at h
    split at h
    · rename_i hc
      obtain rfl := Option.some.inj h
      obtain ⟨hfirst, hmore⟩ := List.forall_mem_cons.mp hdigits
      have hident := isIdentChar_of_isDigit (hfirst hc)
      have hrun : ∀ d ∈ t.takeWhile isDecimalDigit, isIdentChar d = true := fun d hd =>
        isIdentChar_of_isDigit
          (hmore d ((List.takeWhile_sublist _).mem hd)
            (List.all_eq_true.mp List.all_takeWhile d hd))
      have htail : namesBehindWord t = namesBehindWord (t.dropWhile isDecimalDigit) := by
        have happend := namesBehindWord_append hrun (t.dropWhile isDecimalDigit)
        rwa [List.takeWhile_append_dropWhile] at happend
      constructor
      · rw [names_cons hident, isIdentStart_of_isDigit (hfirst hc), if_neg Bool.false_ne_true,
          List.nil_append, htail]
      · rw [namesBehindWord_cons hident, htail]
    · exact absurd h (by simp)

private theorem names_of_afterFraction? (hdigits : t.HasAsciiDigits)
    (h : afterFraction? t = some rest) : t.namesBehindWord = rest.namesBehindWord := by
  unfold afterFraction? at h
  split at h
  · rename_i t
    have htail : HasAsciiDigits t := hdigits.of_suffix (List.suffix_cons _ _)
    rw [namesBehindWord_of_stop (forall_head?_cons (by decide) t), names_separator (by decide),
      (names_of_afterDigits? htail h).1]
  · exact absurd h (by simp)

private theorem names_of_afterExponent? (hdigits : t.HasAsciiDigits)
    (h : afterExponent? t = some rest) : t.namesBehindWord = rest.namesBehindWord := by
  unfold afterExponent? at h
  split at h
  · exact absurd h (by simp)
  · rename_i c t
    split at h
    · rename_i hexponent
      have hc : isIdentChar c = true := by
        rcases hexponent with rfl | rfl <;> decide
      have htail : HasAsciiDigits t := hdigits.of_suffix (List.suffix_cons _ _)
      rw [namesBehindWord_cons hc]
      -- A sign ends the word of the digits in front of it.
      have hsign : ∀ {sign : Char} {t : Text}, isIdentChar sign = false →
          HasAsciiDigits (sign :: t) → afterDigits? t = some rest →
          namesBehindWord (sign :: t) = rest.namesBehindWord := by
        intro sign t hsign hdigits h
        rw [namesBehindWord_of_stop (forall_head?_cons hsign t), names_separator hsign,
          (names_of_afterDigits? (hdigits.of_suffix (List.suffix_cons _ _)) h).1]
      split at h
      · exact hsign (by decide) htail h
      · exact hsign (by decide) htail h
      · exact (names_of_afterDigits? htail h).2
    · exact absurd h (by simp)

private theorem names_of_afterSuffixes? (h : afterSuffixes? t = some rest) :
    t.namesBehindWord = rest.names := by
  simp only [afterSuffixes?] at h
  split at h
  · exact absurd h (by simp)
  · rename_i hends
    obtain rfl := Option.some.inj h
    have hsuffixes : ∀ d ∈ t.takeWhile isNumberSuffix, isIdentChar d = true := fun d hd =>
      isIdentChar_of_isNumberSuffix (List.all_eq_true.mp List.all_takeWhile d hd)
    have hstop : ∀ d ∈ (t.dropWhile isNumberSuffix).head?, isIdentChar d = false := by
      intro d hd
      rw [Bool.eq_false_iff]
      intro hident
      obtain ⟨more, hmore⟩ := List.head?_eq_some_iff.mp hd
      rw [hmore, startsWord] at hends
      exact hends (isWordChar_of_isIdentChar hident)
    have happend := namesBehindWord_append hsuffixes (t.dropWhile isNumberSuffix)
    rwa [List.takeWhile_append_dropWhile, namesBehindWord_of_stop hstop] at happend

private theorem names_of_afterTail? (hdigits : t.HasAsciiDigits) (h : afterTail? t = some rest) :
    t.namesBehindWord = rest.names := by
  rcases Option.or_eq_some_iff.mp h with h | ⟨_, h⟩
  · obtain ⟨u, hu, hrest⟩ := Option.bind_eq_some_iff.mp h
    rw [names_of_afterExponent? hdigits hu, names_of_afterSuffixes? hrest]
  · exact names_of_afterSuffixes? h

private theorem names_of_afterNumber? (hdigits : t.HasAsciiDigits)
    (h : afterNumber? t = some rest) : t.names = rest.names := by
  obtain ⟨u, hu, h⟩ := Option.bind_eq_some_iff.mp h
  have hbehind := hdigits.of_suffix (afterDigits?_suffix hu)
  rw [(names_of_afterDigits? hdigits hu).1]
  rcases Option.or_eq_some_iff.mp h with h | ⟨_, h⟩
  · obtain ⟨v, hv, hrest⟩ := Option.bind_eq_some_iff.mp h
    rw [names_of_afterFraction? hbehind hv,
      names_of_afterTail? (hbehind.of_suffix (afterFraction?_suffix hv)) hrest]
  · exact names_of_afterTail? hbehind h

/-- Blanking the numbers of a text keeps its names, and inside a word it keeps the rest of the word
too. -/
theorem names_blankNumbersFrom (hdigits : t.HasAsciiDigits) (inWord : Bool) :
    (blankNumbersFrom inWord t).names = t.names ∧
      (inWord = true →
        (blankNumbersFrom inWord t).takeWhile isIdentChar = t.takeWhile isIdentChar ∧
        (blankNumbersFrom inWord t).namesBehindWord = t.namesBehindWord) := by
  fun_induction blankNumbersFrom inWord t with
  | case1 => exact ⟨rfl, fun _ => ⟨rfl, rfl⟩⟩
  | case2 inWord c t rest hfound ih =>
    cases inWord with
    | true => exact absurd hfound (by simp [numberFront?])
    | false =>
      have hrest := hdigits.of_suffix (afterNumber?_suffix hfound)
      refine ⟨?_, fun hword => absurd hword Bool.false_ne_true⟩
      rw [names_separator (by decide), (ih hrest).1, names_of_afterNumber? hdigits hfound]
  | case3 inWord c t hnone ih =>
    obtain ⟨hnames, hword⟩ := ih (hdigits.of_suffix (List.suffix_cons _ _))
    by_cases hc : isIdentChar c = true
    · obtain ⟨hkept, hbehind⟩ := hword (isWordChar_of_isIdentChar hc)
      refine ⟨?_, fun _ => ⟨?_, ?_⟩⟩
      · rw [names_cons hc, names_cons hc, hkept, hbehind]
      · rw [List.takeWhile_cons_of_pos hc, List.takeWhile_cons_of_pos hc, hkept]
      · rw [namesBehindWord_cons hc, namesBehindWord_cons hc, hbehind]
    · have hc := Bool.eq_false_iff.mpr hc
      have heq : names (c :: blankNumbersFrom (isWordChar c) t) = names (c :: t) := by
        rw [names_separator hc, names_separator hc, hnames]
      refine ⟨heq, fun _ => ⟨?_, ?_⟩⟩
      · rw [List.takeWhile_cons_of_neg (by simp [hc]), List.takeWhile_cons_of_neg (by simp [hc])]
      · rw [namesBehindWord_of_stop (forall_head?_cons hc _),
          namesBehindWord_of_stop (forall_head?_cons hc _), heq]

end Registrar.Text
