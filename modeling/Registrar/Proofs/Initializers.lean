import Registrar.Proofs.Declarations
import Registrar.Proofs.Text.Pieces

/-! Members with literal initializers. Whatever a literal leaves of itself once literals and numbers
are blanked counts as a name of the line and hides the member in front of it. Quoted literals leave
nothing, keywords leave themselves, and a number leaves what starts a word in it once every other of
the parts between its separators is blanked like a character. -/

namespace Registrar

/-- What may stand between two quotes: characters other than the quote and the backslash, and
backslashes with the characters that they escape. -/
inductive Enclosed (quote : Char) : Text → Prop
  | nil : Enclosed quote []
  | plain {c : Char} {t : Text} : c ≠ quote → c ≠ '\\' → Enclosed quote t → Enclosed quote (c :: t)
  | escape (c : Char) {t : Text} : Enclosed quote t → Enclosed quote ('\\' :: c :: t)

def literalKeywords : List Text := ["true".toList, "false".toList, "nullptr".toList]

/-- Whether the text is spelled like an integer or floating literal: it starts with a digit or with
a point and a digit, and goes on with letters, digits, points, separators and signs. -/
def Text.isNumber (t : Text) : Bool :=
  (t.head?.any Char.isDigit || t.head? == some '.' && t.tail.head?.any Char.isDigit) &&
    t.all fun c => isIdentChar c || ".'+-".toList.contains c

/-- A literal without prefix. Every text that is spelled like a number counts as one. -/
inductive Literal where
  | quoted (quote : Char) (body : Text) (hquote : quote = '"' ∨ quote = '\'')
      (hbody : Enclosed quote body)
  | keyword (word : Text) (hword : word ∈ literalKeywords)
  | number (digits : Text) (hdigits : digits.isNumber = true)

namespace Literal

def text : Literal → Text
  | quoted quote body _ _ => quote :: (body ++ [quote])
  | keyword word _ => word
  | number digits _ => digits

def everyOther : List Text → List Text
  | [] => []
  | [part] => [part]
  | part :: _ :: parts => part :: everyOther parts

/-- The names that a literal adds to its line. The part of a number between a separator and the next
one is taken for a character. -/
def names : Literal → List Text
  | quoted .. => []
  | keyword word _ => [word]
  | number digits _ => (everyOther (digits.splitAt '\'')).flatMap Text.names

/-- Whether a literal vanishes from its line: it is quoted, or it is a number whose letters all go
on with a word, the parts that are taken for characters left out. -/
def Vanishes : Literal → Prop
  | quoted .. => True
  | keyword .. => False
  | number digits _ => ∀ part ∈ everyOther (digits.splitAt '\''), part.LettersContinue

private theorem everyOther_cons (part : Text) (parts : List Text) :
    everyOther (part :: parts) = part :: everyOther parts.tail := by
  cases parts <;> rfl

private theorem names_eq_nil_iff (literal : Literal) : literal.names = [] ↔ literal.Vanishes := by
  cases literal with
  | quoted => exact iff_of_true rfl trivial
  | keyword => exact iff_of_false (List.cons_ne_nil _ _) id
  | number digits =>
    rw [names, List.flatMap_eq_nil_iff]
    exact forall₂_congr fun part _ => Text.names_eq_nil_iff

end Literal

namespace Text

variable {quote : Char} {body tail t : Text}

/-- The inside of a literal is blanked, escaped characters included. -/
private theorem blankLiteralsFrom_enclosed (h : Enclosed quote body) (t : Text) :
    blankLiteralsFrom { quote := some quote } (body ++ t) =
      List.replicate body.length ' ' ++ blankLiteralsFrom { quote := some quote } t := by
  induction h with
  | nil => rfl
  | plain hc hslash h ih =>
    simp [blankLiteralsFrom, Quoting.shown, Quoting.next, hc, hslash, ih, List.replicate_succ]
  | escape c h ih =>
    simp [blankLiteralsFrom, Quoting.shown, Quoting.next, ih, List.replicate_succ]

private theorem blankLiteralsFrom_close (hquote : quote ≠ '\\') (t : Text) :
    blankLiteralsFrom { quote := some quote } (quote :: t) = ' ' :: t.blankLiterals := by
  simp [blankLiteralsFrom, Quoting.shown, Quoting.next, hquote, blankLiterals]

private theorem blankLiterals_open (h : quote = '"' ∨ quote = '\'') (t : Text) :
    blankLiterals (quote :: t) = ' ' :: blankLiteralsFrom { quote := some quote } t := by
  rcases h with rfl | rfl <;> rfl

theorem blankLiterals_quoted (hquote : quote = '"' ∨ quote = '\'') (h : Enclosed quote body)
    (t : Text) : blankLiterals (quote :: (body ++ quote :: t)) =
      List.replicate (body.length + 2) ' ' ++ t.blankLiterals := by
  have hslash : quote ≠ '\\' := by
    rcases hquote with rfl | rfl <;> decide
  rw [blankLiterals_open hquote, blankLiteralsFrom_enclosed h, blankLiteralsFrom_close hslash,
    List.replicate_succ, List.replicate_succ', List.cons_append, List.append_assoc,
    List.singleton_append]

theorem enclosed_of_plain (h : ∀ c ∈ t, c ≠ quote ∧ c ≠ '\\') : Enclosed quote t := by
  induction t with
  | nil => exact .nil
  | cons c t ih =>
    obtain ⟨⟨hquote, hslash⟩, ht⟩ := List.forall_mem_cons.mp h
    exact .plain hquote hslash (ih ht)

private theorem isWordless_replicate (n : Nat) : isWordless (List.replicate n ' ') = true :=
  List.all_eq_true.mpr fun c hc => by rw [List.eq_of_mem_replicate hc]; decide

private theorem names_blanks_append (n : Nat) (t : Text) :
    names (List.replicate n ' ' ++ t) = t.names :=
  names_wordless_append (isWordless_replicate n) t

/-- Read outside of characters a text shows every other one of its parts from the first on, read
inside one it shows every other one from the second on. -/
private theorem names_blankLiterals_separated (ht : ∀ c ∈ t, c ≠ '\\' ∧ c ≠ '"')
    (htail : tail.IsPlain) (hwordless : tail.isWordless = true) :
    names (blankLiterals (t ++ tail)) =
        (Literal.everyOther (t.splitAt '\'')).flatMap names ∧
      names (blankLiteralsFrom { quote := some '\'' } (t ++ tail)) =
        (Literal.everyOther (t.splitAt '\'').tail).flatMap names := by
  induction t using splitAt_induction '\'' with
  | last part hpart =>
    have hplain : ∀ c ∈ part, c ≠ '\\' ∧ c ≠ '"' ∧ c ≠ '\'' := fun c hc =>
      ⟨(ht c hc).1, (ht c hc).2, fun heq => hpart (heq ▸ hc)⟩
    have hall : ∀ c ∈ part ++ tail, c ≠ '\\' ∧ c ≠ '"' ∧ c ≠ '\'' :=
      List.forall_mem_append.mpr ⟨hplain, htail.ne.2⟩
    have henclosed : Enclosed '\'' (part ++ tail) :=
      enclosed_of_plain fun c hc => ⟨(hall c hc).2.2, (hall c hc).1⟩
    have hstop : ∀ c ∈ tail.head?, isIdentChar c = false := fun c hc =>
      isIdentChar_of_isWordless hwordless c (List.mem_of_mem_head? hc)
    rw [splitAt_of_not_mem hpart, blankLiterals_of_plain hall, names_append part hstop,
      names_of_isWordless hwordless, List.append_nil]
    refine ⟨by simp [Literal.everyOther], ?_⟩
    have hblank := blankLiteralsFrom_enclosed henclosed []
    rw [List.append_nil] at hblank
    rw [hblank, names_blanks_append]
    rfl
  | cons part t hpart ih =>
    obtain ⟨hpartPlain, hmore⟩ := List.forall_mem_append.mp ht
    obtain ⟨hread, hskipped⟩ := ih (List.forall_mem_cons.mp hmore).2
    have hplain : ∀ c ∈ part, c ≠ '\\' ∧ c ≠ '"' ∧ c ≠ '\'' := fun c hc =>
      ⟨(hpartPlain c hc).1, (hpartPlain c hc).2, fun heq => hpart (heq ▸ hc)⟩
    have henclosed : Enclosed '\'' part :=
      enclosed_of_plain fun c hc => ⟨(hplain c hc).2.2, (hplain c hc).1⟩
    have hspace : ∀ (u : Text), ∀ c ∈ (' ' :: u).head?, isIdentChar c = false :=
      fun u => forall_head?_cons (by decide) u
    rw [splitAt_append_cons, splitAt_of_not_mem hpart, List.append_assoc, List.cons_append,
      List.singleton_append, List.tail_cons]
    constructor
    · rw [blankLiterals_append_of_plain hplain, blankLiterals_open (.inr rfl),
        names_append part (hspace _), names_separator (by decide), hskipped,
        Literal.everyOther_cons, List.flatMap_cons]
    · rw [blankLiteralsFrom_enclosed henclosed, names_blanks_append,
        blankLiteralsFrom_close (by decide), names_separator (by decide), hread]

end Text

namespace Literal

private theorem ascii_of_isNumber {t : Text} (h : t.isNumber = true) :
    ∀ c ∈ t, c.toNat < 0x80 ∧ c ≠ '\\' ∧ c ≠ '"' := by
  intro c hc
  have hspelled := List.all_eq_true.mp (Bool.and_eq_true_iff.mp h).2 c hc
  rcases Bool.or_eq_true_iff.mp hspelled with hident | hmark
  · obtain ⟨hslash, hdouble, _⟩ := Text.ne_quote_of_isIdentChar hident
    exact ⟨toNat_lt_of_isIdentChar hident, hslash, hdouble⟩
  · have hall : ".'+-".toList.all (fun c => c.toNat < 0x80 && c != '\\' && c != '"') = true := by
      decide
    simpa [and_assoc] using List.all_eq_true.mp hall c (List.contains_iff_mem.mp hmark)

/-- What a literal leaves of itself when the literals of its line are blanked. -/
private theorem blankLiterals_text (literal : Literal) (tail : Text)
    (hdigits : tail.HasAsciiDigits) (htail : tail.IsPlain) (hwordless : tail.isWordless = true) :
    (literal.text ++ tail).blankLiterals.HasAsciiDigits ∧
      (literal.text ++ tail).blankLiterals.names = literal.names := by
  have hends : tail.names = [] := Text.names_of_isWordless hwordless
  have hstop : ∀ c ∈ tail.head?, isIdentChar c = false := fun c hc =>
    Text.isIdentChar_of_isWordless hwordless c (List.mem_of_mem_head? hc)
  cases literal with
  | quoted quote body hquote hbody =>
    have hblank : Text.blankLiterals (quote :: (body ++ [quote]) ++ tail) =
        List.replicate (body.length + 2) ' ' ++ tail := by
      rw [List.cons_append, List.append_assoc, List.singleton_append,
        Text.blankLiterals_quoted hquote hbody, Text.blankLiterals_of_plain htail.ne.2]
    rw [text, hblank, Text.names_blanks_append, hends]
    refine ⟨List.forall_mem_append.mpr ⟨Text.hasAsciiDigits_of_ascii ?_, hdigits⟩, rfl⟩
    intro c hc
    rw [List.eq_of_mem_replicate hc]
    decide
  | keyword word hword =>
    have hkeyword : ∀ word ∈ literalKeywords, word.isIdentifier = true := by decide
    have hidentifier := hkeyword word hword
    have hident : ∀ c ∈ word, isIdentChar c = true := fun c hc =>
      Text.isIdentChar_of_mem hidentifier hc
    have hplain : Text.IsPlain (word ++ tail) := (Text.isPlain_of_isIdentChar hident).append htail
    rw [text, Text.blankLiterals_of_plain hplain.ne.2,
      Text.names_append word hstop, hends, Text.names_identifier hidentifier]
    refine ⟨List.forall_mem_append.mpr ⟨Text.hasAsciiDigits_of_ascii ?_, hdigits⟩, rfl⟩
    exact fun c hc => toNat_lt_of_isIdentChar (hident c hc)
  | number digits hnumber =>
    have hspelled := ascii_of_isNumber hnumber
    have hall : Text.HasAsciiDigits (digits ++ tail) := List.forall_mem_append.mpr
      ⟨Text.hasAsciiDigits_of_ascii fun c hc => (hspelled c hc).1, hdigits⟩
    refine ⟨hall.blankLiteralsFrom {}, ?_⟩
    exact (Text.names_blankLiterals_separated (fun c hc => (hspelled c hc).2) htail hwordless).1

end Literal

namespace Declaration

/-- What a member initialized by a literal is taken for. Both forms of the initializer declare the
last name that the literal adds to the line, or else what the head declares by itself, which is its
last identifier if only ASCII digits make its numbers. So the member is declared whenever the
literal vanishes, and a literal that does not vanish adds a name. -/
theorem member_declared_unless_literal_named (head : Text) (hhead : head.IsPlain)
    (literal : Literal) (hcall : '(' ∉ literal.text) :
    let declared := literal.names.getLast?.or (memberIdentifier? head)
    memberIdentifier? (head ++ " = ".toList ++ literal.text ++ ";".toList) = declared ∧
      memberIdentifier? (head ++ "\x7b".toList ++ literal.text ++ "\x7d;".toList) = declared ∧
      (literal.names = [] ↔ literal.Vanishes) ∧
      (head.HasAsciiDigits →
        memberIdentifier? head = head.identifiers.getLast?.map Text.Run.word) := by
  intro declared
  have hcalled : ∀ lead tail : Text, '(' ∉ lead → '(' ∉ tail →
      '(' ∉ lead ++ (literal.text ++ tail) := by
    intro lead tail hlead htail
    simp [hlead, hcall, htail]
  refine ⟨?_, ?_, literal.names_eq_nil_iff, ?_⟩
  · obtain ⟨hdigits, hnames⟩ := literal.blankLiterals_text [';'] (by decide) (by decide)
      (by decide)
    have hgap : Text.IsPlain ['=', ' '] := by decide
    have hgapDigits : Text.HasAsciiDigits ['=', ' '] := by decide
    have hlead : Text.blankLiterals (['=', ' '] ++ (literal.text ++ [';'])) =
        ['=', ' '] ++ Text.blankLiterals (literal.text ++ [';']) :=
      Text.blankLiterals_append_of_plain hgap.ne.2 _
    have hread := memberIdentifier?_append_cons (c := ' ') (['=', ' '] ++ (literal.text ++ [';']))
      hhead ⟨by decide, by decide, by decide⟩ (by decide)
      (hcalled ['=', ' '] [';'] (by decide) (by decide))
      (hlead ▸ List.forall_mem_append.mpr ⟨hgapDigits, hdigits⟩)
    rw [hlead, Text.names_wordless_append (by decide), hnames] at hread
    simpa using hread
  · obtain ⟨hdigits, hnames⟩ := literal.blankLiterals_text ['}', ';'] (by decide)
      (by decide) (by decide)
    have hread := memberIdentifier?_append_cons (c := '{') (literal.text ++ ['}', ';'])
      hhead ⟨by decide, by decide, by decide⟩ (by decide)
      (hcalled [] ['}', ';'] (by decide) (by decide)) hdigits
    rw [hnames] at hread
    simpa using hread
  · intro hdigits
    obtain ⟨hcall, hquotes⟩ := hhead.ne
    rw [memberIdentifier?_eq hcall, Text.blankLiterals_of_plain hquotes, Text.blankNumbers,
      (Text.names_blankNumbersFrom hdigits false).1, Text.names, List.getLast?_map]

/-- A floating literal with an exponent and a suffix vanishes. -/
theorem member_declared_unless_literal_named_float :
    memberIdentifier? "float rate = 6.02e+23f;".toList = some "rate".toList ∧
      memberIdentifier? "float rate\x7b6.02e+23f\x7d;".toList = some "rate".toList := by
  obtain ⟨hequals, hbraces, hvanishes, hhead⟩ := member_declared_unless_literal_named
    "float rate".toList (by decide) (.number "6.02e+23f".toList (by decide)) (by decide)
  rw [hhead (by decide +kernel)] at hequals hbraces
  exact ⟨hequals, hbraces⟩

/-- Literals do not always vanish: what follows the point of a number that has no digits there is
read as a name, and so are keywords and every other part of a number with separators. -/
theorem literal_hides_member :
    ¬ (∀ (head name : Text) (literal : Literal), head.IsPlain → '=' ∉ head →
        head.identifiers.getLast?.map Text.Run.word = some name → '(' ∉ literal.text →
        memberIdentifier? (head ++ " = ".toList ++ literal.text ++ ";".toList) = some name) ∧
      memberIdentifier? "float v = 1.f;".toList = some "f".toList ∧
      memberIdentifier? "bool alive = true;".toList = some "true".toList ∧
      memberIdentifier? "int mask = 0xAB'CD'EF;".toList = some "EF".toList := by
  refine ⟨fun hmember => ?_, by decide +kernel, by decide +kernel, by decide +kernel⟩
  have hname := hmember "float v".toList "v".toList (.number "1.f".toList (by decide)) (by decide)
    (by decide) (by decide) (by decide)
  revert hname
  decide +kernel

end Declaration

end Registrar
