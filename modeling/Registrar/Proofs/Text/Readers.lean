import Registrar.Proofs.Text.Runs
import Registrar.Text.Cursor
import Registrar.Text.Reader

/-! Readers stay in step with cursors. A cursor keeps the characters it has read, a reader only how
many bytes they take up. Every step of a reader that stands where a cursor stands succeeds and
brings it where the cursor goes, so no slice is ever taken inside a character. -/

namespace Registrar.Text

def Cursor.reader (cursor : Cursor) : Reader := ⟨cursor.line, cursor.rest, cursor.offset⟩

namespace Reader

/-- Read off the first byte or decoded, the character is the first one still to come. -/
theorem peek_eq_head? (reader : Reader) : reader.peek = reader.rest.head? := by
  obtain ⟨line, rest, offset⟩ := reader
  cases rest with
  | nil => rw [peek, encode_nil, List.head?_nil]
  | cons c rest =>
    obtain ⟨byte, more, hbytes, hascii⟩ := exists_utf8EncodeChar c
    rw [peek, encode_cons, hbytes, List.cons_append, List.head?_cons]
    simp only
    split
    · rename_i hlow
      rw [hascii hlow]
    · rfl

private theorem peek_reader (consumed : Text) (c : Char) (rest : Text) :
    (Cursor.reader ⟨consumed, c :: rest⟩).peek = some c :=
  peek_eq_head? _

private theorem skip?_reader (consumed s rest : Text) :
    (Cursor.reader ⟨consumed, s ++ rest⟩).skip? s.byteLength =
      some (Cursor.reader ⟨consumed ++ s, rest⟩) := by
  simp [skip?, Cursor.reader, Cursor.line, Cursor.offset, dropBytes?_append]

private theorem advance?_cons (consumed : Text) (c : Char) (rest : Text) :
    (Cursor.reader ⟨consumed, c :: rest⟩).advance? =
      some (some c, Cursor.reader ⟨consumed ++ [c], rest⟩) := by
  have hskip := skip?_reader consumed [c] rest
  rw [byteLength_cons, byteLength_nil, Nat.add_zero, List.singleton_append] at hskip
  rw [advance?, peek_reader]
  simp only
  rw [hskip, Option.map_some]

private theorem advance?_reader (cursor : Cursor) :
    cursor.reader.advance? = some (cursor.advance.1, cursor.advance.2.reader) := by
  obtain ⟨consumed, rest⟩ := cursor
  cases rest with
  | nil => rw [advance?, peek_eq_head?]; rfl
  | cons c rest => exact advance?_cons consumed c rest

private theorem eatText?_reader (text : Text) (cursor : Cursor) :
    cursor.reader.eatText? text =
      some ((cursor.eatText text).1, (cursor.eatText text).2.reader) := by
  obtain ⟨consumed, rest⟩ := cursor
  rw [eatText?, Cursor.eatText]
  cases h : after? text rest with
  | none =>
    have hstart : startsWith text (Cursor.reader ⟨consumed, rest⟩).rest = false := by
      simp [startsWith, Cursor.reader, h]
    rw [hstart, if_neg Bool.false_ne_true]
  | some after =>
    obtain rfl := after?_eq_some_iff.mp h
    have hstart : startsWith text (Cursor.reader ⟨consumed, text ++ after⟩).rest = true :=
      startsWith_iff.mpr ⟨after, rfl⟩
    rw [hstart, if_pos rfl, skip?_reader, Option.map_some]

theorem sliceFrom?_reader (n : Nat) (cursor : Cursor) :
    cursor.reader.sliceFrom? n = cursor.sliceFrom? n :=
  slice?_append n cursor.consumed cursor.rest

private theorem passWhile?_reader (p : Char → Bool) (consumed rest : Text) :
    (Cursor.reader ⟨consumed, rest⟩).passWhile? p =
      some (Cursor.reader ⟨consumed ++ rest.takeWhile p, rest.dropWhile p⟩) := by
  induction rest generalizing consumed with
  | nil =>
    rw [passWhile?, check, peek_eq_head?]
    simp [Cursor.reader]
  | cons c rest ih =>
    rw [passWhile?, check, peek_reader, Option.any_some]
    cases hc : p c with
    | false => simp [hc]
    | true =>
      rw [if_pos rfl, advance?_cons]
      simp only
      rw [ih, List.takeWhile_cons_of_pos hc, List.dropWhile_cons_of_pos hc, List.append_assoc,
        List.singleton_append]

/-- What was read since a position is cut out from the offset of this position on. -/
theorem sliceFrom?_offset (consumed rest run after : Text) :
    (Cursor.reader ⟨consumed ++ run, after⟩).sliceFrom? (Cursor.reader ⟨consumed, rest⟩).offset =
      some run := by
  rw [sliceFrom?_reader]
  exact dropBytes?_append consumed run

theorem eatWhile?_reader (p : Char → Bool) (cursor : Cursor) :
    cursor.reader.eatWhile? p = some ((cursor.eatWhile p).1, (cursor.eatWhile p).2.reader) := by
  obtain ⟨consumed, rest⟩ := cursor
  rw [eatWhile?, passWhile?_reader, Option.bind_some, sliceFrom?_offset]
  rfl

/-- One round of the scan, without the proofs that it ends. -/
theorem identifiers?_eq (reader : Reader) : reader.identifiers? =
    match reader.peek with
    | none => some []
    | some c =>
      if isIdentStart c then
        (reader.eatWhile? isIdentChar).bind fun (_, next) =>
          (next.sliceFrom? reader.offset).bind fun word =>
            next.identifiers?.map fun more => (word, next.offset) :: more
      else if c.isDigit then
        (reader.eatWhile? isIdentChar).bind fun (_, next) => next.identifiers?
      else reader.advance?.bind fun (_, next) => next.identifiers? := by
  rw [identifiers?]
  split
  · rename_i hpeek
    rw [hpeek]
  · rename_i c hpeek
    rw [hpeek]
    simp only
    congr 1
    · split <;> (rename_i hrun; rw [hrun]; rfl)
    · congr 1
      · split <;> (rename_i hrun; rw [hrun]; rfl)
      · split <;> (rename_i hadvance; rw [hadvance]; rfl)

/-- The scan stops in front of a run or behind it and never inside, so what it cuts out by offsets
are the identifiers among the runs. -/
theorem identifiers?_reader (consumed rest : Text) :
    (Cursor.reader ⟨consumed, rest⟩).identifiers? =
      some (((runsFrom consumed.byteLength rest).filter Run.isIdentifier).map fun run =>
        (run.word, run.stop)) := by
  induction rest using word_induction generalizing consumed with
  | nil => rw [identifiers?_eq, peek_eq_head?]; rfl
  | separator c t hc ih =>
    have hskip := runsFrom_separators (List.forall_mem_singleton.mpr hc) consumed.byteLength t
    rw [List.singleton_append, ← byteLength_append] at hskip
    rw [isIdentChar_eq, Bool.or_eq_false_iff] at hc
    rw [identifiers?_eq, peek_reader]
    simp only
    rw [hc.1, if_neg Bool.false_ne_true, hc.2, if_neg Bool.false_ne_true, advance?_cons,
      Option.bind_some, ih, hskip]
  | word c w t hw ht ih =>
    have heat := eatWhile?_reader isIdentChar ⟨consumed, c :: w ++ t⟩
    simp only [Cursor.eatWhile] at heat
    rw [takeWhile_append_stop hw ht, dropWhile_append_stop hw ht] at heat
    have hpeek : (Cursor.reader ⟨consumed, c :: w ++ t⟩).peek = some c :=
      peek_reader consumed c (w ++ t)
    rw [identifiers?_eq, hpeek, heat, runsFrom_word hw ht, ← byteLength_append]
    simp only [Option.bind_some]
    cases hc : isIdentStart c with
    | true =>
      have hname : Run.isIdentifier ⟨c :: w, byteLength (consumed ++ c :: w), t⟩ = true := hc
      rw [if_pos rfl, sliceFrom?_offset, ih, Option.bind_some, Option.map_some,
        List.filter_cons_of_pos hname]
      rfl
    | false =>
      have hdigit : c.isDigit = true := by
        have hident := hw c (List.mem_cons_self ..)
        rwa [isIdentChar_eq, hc, Bool.false_or] at hident
      have hnumber : ¬ Run.isIdentifier ⟨c :: w, byteLength (consumed ++ c :: w), t⟩ = true :=
        Bool.eq_false_iff.mp hc
      rw [if_neg Bool.false_ne_true, if_pos hdigit, ih, List.filter_cons_of_neg hnumber]

theorem identifiers?_start (line : Text) : (start line).identifiers? =
    some (line.identifiers.map fun run => (run.word, run.stop)) :=
  identifiers?_reader [] line

end Reader

/-- A step that a position in a line can be asked for. -/
inductive Request where
  | advance
  | eatText (text : Text)
  | eatWhile (p : Char → Bool)

/-- The answer to a request: the character that was stepped over, whether the text was there, or
the run. -/
inductive Reply where
  | char (c : Option Char)
  | matched (isThere : Bool)
  | run (run : Text)
deriving DecidableEq

/-- What was stepped over, as the answer to a request tells it. -/
def Reply.eaten : Request → Reply → Text
  | _, .char c => c.toList
  | .eatText text, .matched true => text
  | _, .matched _ => []
  | _, .run w => w

def Cursor.answer (request : Request) (cursor : Cursor) : Reply × Cursor :=
  match request with
  | .advance => (.char cursor.advance.1, cursor.advance.2)
  | .eatText text => (.matched (cursor.eatText text).1, (cursor.eatText text).2)
  | .eatWhile p => (.run (cursor.eatWhile p).1, (cursor.eatWhile p).2)

def Cursor.answers : List Request → Cursor → List Reply × Cursor
  | [], cursor => ([], cursor)
  | request :: more, cursor =>
    let (reply, next) := cursor.answer request
    let (replies, final) := next.answers more
    (reply :: replies, final)

def Reader.answer? (request : Request) (reader : Reader) : Option (Reply × Reader) :=
  match request with
  | .advance => reader.advance?.map fun (c, next) => (.char c, next)
  | .eatText text => (reader.eatText? text).map fun (isThere, next) => (.matched isThere, next)
  | .eatWhile p => (reader.eatWhile? p).map fun (run, next) => (.run run, next)

def Reader.answers? : List Request → Reader → Option (List Reply × Reader)
  | [], reader => some ([], reader)
  | request :: more, reader =>
    (reader.answer? request).bind fun (reply, next) =>
      (next.answers? more).map fun (replies, final) => (reply :: replies, final)

private theorem Reader.answer?_reader (request : Request) (cursor : Cursor) :
    cursor.reader.answer? request =
      some ((cursor.answer request).1, (cursor.answer request).2.reader) := by
  cases request with
  | advance => rw [answer?, advance?_reader]; rfl
  | eatText text => rw [answer?, eatText?_reader]; rfl
  | eatWhile p => rw [answer?, eatWhile?_reader]; rfl

theorem Reader.answers?_reader (requests : List Request) (cursor : Cursor) :
    cursor.reader.answers? requests =
      some ((cursor.answers requests).1, (cursor.answers requests).2.reader) := by
  induction requests generalizing cursor with
  | nil => rfl
  | cons request more ih =>
    rw [answers?, answer?_reader, Option.bind_some]
    simp only
    rw [ih]
    rfl

private theorem Cursor.consumed_answer (request : Request) (cursor : Cursor) :
    (cursor.answer request).2.consumed =
      cursor.consumed ++ (cursor.answer request).1.eaten request := by
  obtain ⟨consumed, rest⟩ := cursor
  cases request with
  | advance => cases rest <;> simp [answer, advance, Reply.eaten]
  | eatText text =>
    simp only [answer, eatText]
    cases after? text rest <;> simp [Reply.eaten]
  | eatWhile p => rfl

theorem Cursor.consumed_answers (requests : List Request) (cursor : Cursor) :
    (cursor.answers requests).2.consumed = cursor.consumed ++
      (List.zipWith Reply.eaten requests (cursor.answers requests).1).flatten := by
  induction requests generalizing cursor with
  | nil => exact (List.append_nil _).symm
  | cons request more ih =>
    calc ((cursor.answer request).2.answers more).2.consumed
      _ = (cursor.answer request).2.consumed ++ (List.zipWith Reply.eaten more
            ((cursor.answer request).2.answers more).1).flatten := ih _
      _ = _ := by
        rw [consumed_answer, List.append_assoc]
        rfl

theorem Cursor.line_answers (requests : List Request) (cursor : Cursor) :
    (cursor.answers requests).2.line = cursor.line := by
  induction requests generalizing cursor with
  | nil => rfl
  | cons request more ih =>
    calc ((cursor.answer request).2.answers more).2.line
      _ = (cursor.answer request).2.line := ih _
      _ = cursor.line := by
        cases request with
        | advance => exact cursor.line_advance
        | eatText text => exact cursor.line_eatText text
        | eatWhile p => exact cursor.line_eatWhile p

end Registrar.Text
