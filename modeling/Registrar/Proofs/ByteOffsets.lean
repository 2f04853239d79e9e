import Registrar.Declaration
import Registrar.Proofs.FirstInvocations
import Registrar.Proofs.IdentifierRuns

/-! Byte offsets never cut a character. Whatever a reader is asked for, it stands between two
characters, with as many bytes in front of it as it has read, and the texts that are cut out by
offsets while a line is judged all exist: the identifiers, what follows a name that may be called,
and what stands between two quotes. -/

namespace Registrar

namespace Text

/-- The longest run of characters at the front of a text that satisfy `p`. -/
structure IsLongestRun (p : Char → Bool) (run t : Text) : Prop where
  isPrefix : run <+: t
  satisfied : ∀ c ∈ run, p c = true
  longest : ∀ longer, longer <+: t → (∀ c ∈ longer, p c = true) → longer.length ≤ run.length

/-- A reader that has read `consumed` of a line. Nothing else is missing from what is still to come,
the offset counts its bytes, the longest run is read, and the slices up to the position are what was
read, cut at the boundaries between its characters. -/
structure Reader.StandsBehind (line consumed : Text) (reader : Reader) : Prop where
  line_eq : reader.line = line
  split : line = consumed ++ reader.rest
  offset_eq : reader.offset = consumed.byteLength
  eatWhile : ∀ p, ∃ run next, reader.eatWhile? p = some (run, next) ∧ IsLongestRun p run reader.rest
  slice_exists : ∀ n, (reader.sliceFrom? n).isSome = true ↔ n ≤ reader.offset ∧ IsBoundary n line
  slice_eq : ∀ n s, reader.sliceFrom? n = some s ↔ ∃ front, consumed = front ++ s ∧
    front.byteLength = n

private theorem isLongestRun_takeWhile (p : Char → Bool) (t : Text) :
    IsLongestRun p (t.takeWhile p) t := by
  refine ⟨List.takeWhile_prefix p, List.all_eq_true.mp List.all_takeWhile, ?_⟩
  rintro longer ⟨after, rfl⟩ hlonger
  rw [List.takeWhile_append_of_pos hlonger, List.length_append]
  exact Nat.le_add_right _ _

/-- A slice up to the position of a reader exists exactly if it starts at a boundary that the reader
has reached: the position is a boundary itself. -/
private theorem isSome_sliceFrom?_reader (n : Nat) (cursor : Cursor) :
    (cursor.reader.sliceFrom? n).isSome = true ↔
      n ≤ cursor.offset ∧ IsBoundary n cursor.line := by
  have hposition : IsBoundary cursor.offset cursor.line :=
    isBoundary_iff.mpr ⟨cursor.consumed, cursor.rest, rfl, rfl⟩
  constructor
  · intro h
    obtain ⟨hle, hstart, _⟩ := isSome_slice?_iff.mp h
    exact ⟨hle, hstart⟩
  · rintro ⟨hle, hstart⟩
    exact isSome_slice?_iff.mpr ⟨hle, hstart, hposition⟩

private theorem standsBehind_reader (cursor : Cursor) :
    cursor.reader.StandsBehind cursor.line cursor.consumed := by
  refine ⟨rfl, rfl, rfl, fun p => ?_, fun n => isSome_sliceFrom?_reader n cursor, fun n s => ?_⟩
  · exact ⟨_, _, Reader.eatWhile?_reader p cursor, isLongestRun_takeWhile p cursor.rest⟩
  · rw [Reader.sliceFrom?_reader]
    exact dropBytes?_eq_some_iff

def unquoteAt? (t : Text) : Option Text :=
  if 2 ≤ t.byteLength ∧ t.head? = some '"' ∧ t.getLast? = some '"' then
    slice? 1 (t.byteLength - 1) t
  else some t

private theorem unquoteAt?_eq (t : Text) : unquoteAt? t = some t.unquote := by
  have hcases := Marker.unquoted_unquote t
  rw [unquoteAt?]
  generalize t.unquote = inner at hcases
  cases hcases with
  | quoted =>
    have hquote : byteLength ['"'] = 1 := by decide
    have hlength : byteLength ('"' :: (inner ++ ['"'])) = 1 + byteLength inner + 1 := by
      rw [← List.singleton_append, byteLength_append, byteLength_append, hquote, Nat.add_assoc]
    have hlast : ('"' :: (inner ++ ['"'])).getLast? = some '"' := by
      rw [← List.cons_append, List.getLast?_concat]
    rw [if_pos ⟨by omega, rfl, hlast⟩]
    refine slice?_eq_some_iff.mpr ⟨['"'], ['"'], rfl, hquote, ?_⟩
    rw [hlength, byteLength_append, hquote, Nat.add_sub_cancel]
  | bare hbare =>
    rw [if_neg]
    rintro ⟨hlength, hfirst, hlast⟩
    obtain ⟨more, rfl⟩ := List.head?_eq_some_iff.mp hfirst
    rcases List.eq_nil_or_concat more with rfl | ⟨body, c, rfl⟩
    · exact absurd hlength (by decide)
    · rw [List.concat_eq_append] at hbare hlast
      rw [← List.cons_append, List.getLast?_concat] at hlast
      obtain rfl := Option.some.inj hlast
      exact hbare body rfl

end Text

namespace Declaration

/-- The first identifier in front of `(`, among identifiers with the byte offsets of their ends. -/
def calledAt? (line : Text) : List (Text × Nat) → Option (Option Text)
  | [] => some none
  | (word, stop) :: more =>
    (Text.dropBytes? stop line).bind fun after =>
      if after.trimStart.head? = some '(' then some (some word) else calledAt? line more

def functionIdentifierAt? (line : Text) : Option (Option Text) :=
  (Text.Reader.start line).identifiers?.bind fun found =>
    (calledAt? line found).map fun called =>
      called.filter fun name => !controlKeywords.contains name

private theorem calledAt?_eq {line : Text} {runs : List Text.Run}
    (h : ∀ run ∈ runs, Text.dropBytes? run.stop line = some run.after) :
    calledAt? line (runs.map fun run => (run.word, run.stop)) =
      some ((runs.find? isCalled).map Text.Run.word) := by
  induction runs with
  | nil => rfl
  | cons run more ih =>
    obtain ⟨hrun, hmore⟩ := List.forall_mem_cons.mp h
    rw [List.map_cons, calledAt?, hrun, Option.bind_some]
    by_cases hcalled : run.after.trimStart.head? = some '('
    · have hfound : isCalled run = true := by simp [isCalled, hcalled]
      rw [if_pos hcalled, List.find?_cons_of_pos hfound, Option.map_some]
    · have hpassed : ¬ isCalled run = true := by simp [isCalled, hcalled]
      rw [if_neg hcalled, List.find?_cons_of_neg hpassed, ih hmore]

private theorem functionIdentifierAt?_eq (line : Text) :
    functionIdentifierAt? line = some (functionIdentifier? line) := by
  have hruns : ∀ run ∈ line.identifiers, Text.dropBytes? run.stop line = some run.after :=
    fun run => Text.dropBytes?_of_mem_identifiers
  rw [functionIdentifierAt?, Text.Reader.identifiers?_start, Option.bind_some, calledAt?_eq hruns]
  rfl

end Declaration

namespace Text

/-- A reader never cuts a character. After any requests it has stepped over what they report, its
offset counts the bytes of this, and it stands between two characters where a cursor stands after
the same requests; a slice up to it exists exactly from the boundaries that it has reached. So no
slice fails that is taken for the identifiers of a line, for the function that a line declares, or
for an argument without its quotes. -/
theorem reading_keeps_to_boundaries :
    (∀ (line : Text) (requests : List Request), ∃ replies consumed reader,
      (Reader.start line).answers? requests = some (replies, reader) ∧
      consumed = (List.zipWith Reply.eaten requests replies).flatten ∧
      reader.StandsBehind line consumed ∧
      (Cursor.start line).answers requests = (replies, ⟨consumed, reader.rest⟩)) ∧
    (∀ line : Text, (Reader.start line).identifiers? =
      some (line.identifiers.map fun run => (run.word, run.stop))) ∧
    (∀ line : Text, Declaration.functionIdentifierAt? line =
      some (Declaration.functionIdentifier? line)) ∧
    ∀ argument : Text, unquoteAt? argument = some argument.unquote := by
  refine ⟨fun line requests => ?_, Reader.identifiers?_start,
    Declaration.functionIdentifierAt?_eq, unquoteAt?_eq⟩
  have hstands := standsBehind_reader ((Cursor.start line).answers requests).2
  rw [Cursor.line_answers] at hstands
  exact ⟨_, _, _, Reader.answers?_reader requests (Cursor.start line),
    Cursor.consumed_answers requests (Cursor.start line), hstands, rfl⟩

end Text

end Registrar
