import Registrar.Text.Basic

/-! Slices of a text, cut out by byte offsets. A slice exists only if both of its ends stand between
characters. -/

namespace Registrar.Text

def takeBytes? : Nat → Text → Option Text
  | 0, _ => some []
  | _ + 1, [] => none
  | n + 1, c :: t =>
    if c.utf8Size ≤ n + 1 then (takeBytes? (n + 1 - c.utf8Size) t).map (c :: ·) else none

/-- The text from byte `start` to byte `stop`; nothing if the end stands in front of the start, or
if one of them lies past the end of the text or inside a character. -/
def slice? (start stop : Nat) (t : Text) : Option Text :=
  if start ≤ stop then (dropBytes? start t).bind (takeBytes? (stop - start)) else none

variable {start stop n : Nat} {s t u v : Text}

theorem dropBytes?_eq_some_iff :
    dropBytes? n t = some u ↔ ∃ s, t = s ++ u ∧ byteLength s = n := by
  constructor
  · intro h
    fun_induction dropBytes? n t with
    | case1 t =>
      cases h
      exact ⟨[], rfl, rfl⟩
    | case2 => exact nomatch h
    | case3 n c t hle ih =>
      obtain ⟨s, rfl, hs⟩ := ih h
      refine ⟨c :: s, rfl, ?_⟩
      rw [byteLength_cons]
      omega
    | case4 => exact nomatch h
  · rintro ⟨s, rfl, rfl⟩
    exact dropBytes?_append s u

private theorem takeBytes?_append (s t : Text) : takeBytes? (byteLength s) (s ++ t) = some s := by
  induction s with
  | nil => rw [byteLength_nil, takeBytes?]
  | cons c s ih =>
    have hpos := c.utf8Size_pos
    obtain ⟨n, hn⟩ : ∃ n, c.utf8Size + byteLength s = n + 1 :=
      ⟨c.utf8Size + byteLength s - 1, by omega⟩
    rw [byteLength_cons, List.cons_append, hn, takeBytes?, if_pos (by omega), ← hn,
      Nat.add_sub_cancel_left, ih, Option.map_some]

private theorem takeBytes?_eq_some_iff :
    takeBytes? n t = some s ↔ ∃ u, t = s ++ u ∧ byteLength s = n := by
  constructor
  · intro h
    induction t generalizing n s with
    | nil =>
      cases n with
      | zero =>
        cases h
        exact ⟨[], rfl, rfl⟩
      | succ n => exact nomatch h
    | cons c t ih =>
      cases n with
      | zero =>
        cases h
        exact ⟨c :: t, rfl, rfl⟩
      | succ n =>
        rw [takeBytes?] at h
        split at h
        · obtain ⟨s, hs, rfl⟩ := Option.map_eq_some_iff.mp h
          obtain ⟨u, rfl, hlength⟩ := ih hs
          refine ⟨u, rfl, ?_⟩
          rw [byteLength_cons]
          omega
        · exact nomatch h
  · rintro ⟨u, rfl, rfl⟩
    exact takeBytes?_append s u

/-- A slice stands in the text behind as many bytes as its start says, and its end is where it
stops. -/
theorem slice?_eq_some_iff :
    slice? start stop t = some s ↔ ∃ front back, t = front ++ (s ++ back) ∧
      byteLength front = start ∧ byteLength (front ++ s) = stop := by
  constructor
  · intro h
    rw [slice?] at h
    split at h
    · rename_i hle
      obtain ⟨rest, hrest, htake⟩ := Option.bind_eq_some_iff.mp h
      obtain ⟨front, rfl, hfront⟩ := dropBytes?_eq_some_iff.mp hrest
      obtain ⟨back, rfl, hs⟩ := takeBytes?_eq_some_iff.mp htake
      refine ⟨front, back, rfl, hfront, ?_⟩
      rw [byteLength_append]
      omega
    · exact nomatch h
  · rintro ⟨front, back, rfl, rfl, rfl⟩
    rw [slice?, byteLength_append, if_pos (Nat.le_add_right _ _), dropBytes?_append,
      Option.bind_some, Nat.add_sub_cancel_left, takeBytes?_append]

/-- A text is cut at one place only after so many bytes. -/
theorem append_inj_of_byteLength (h : s ++ t = u ++ v) (hlength : byteLength s = byteLength u) :
    s = u ∧ t = v := by
  have hcut := dropBytes?_append s t
  rw [h, hlength, dropBytes?_append] at hcut
  obtain rfl : v = t := Option.some.inj hcut
  exact ⟨List.append_cancel_right h, rfl⟩

/-- A slice up to the end of what a text starts with leaves out what follows there. -/
theorem slice?_append (n : Nat) (s t : Text) :
    slice? n (byteLength s) (s ++ t) = dropBytes? n s := by
  ext u
  rw [slice?_eq_some_iff, dropBytes?_eq_some_iff]
  constructor
  · rintro ⟨front, back, heq, hfront, hlength⟩
    rw [← List.append_assoc] at heq
    exact ⟨front, (append_inj_of_byteLength heq hlength.symm).1, hfront⟩
  · rintro ⟨front, rfl, hfront⟩
    exact ⟨front, t, List.append_assoc .., hfront, rfl⟩

/-- Whether byte `n` of the text in UTF-8 is the first one of a character or the end of the text. -/
def IsBoundary (n : Nat) (t : Text) : Prop := (String.Pos.Raw.mk n).IsValid (String.ofList t)

private theorem utf8ByteSize_ofList (t : Text) : (String.ofList t).utf8ByteSize = byteLength t := by
  induction t with
  | nil => rfl
  | cons c t ih =>
    rw [String.ofList_cons, String.utf8ByteSize_append, String.utf8ByteSize_singleton, ih,
      byteLength_cons]

/-- The boundaries of a text are the lengths of what it starts with. -/
theorem isBoundary_iff : IsBoundary n t ↔ ∃ s u, t = s ++ u ∧ byteLength s = n := by
  rw [IsBoundary, String.Pos.Raw.isValid_iff_exists_append]
  constructor
  · rintro ⟨front, back, happend, hn⟩
    refine ⟨front.toList, back.toList, ?_, ?_⟩
    · rw [← String.toList_append, ← happend, String.toList_ofList]
    · rw [← utf8ByteSize_ofList, String.ofList_toList, ← String.byteIdx_rawEndPos, ← hn]
  · rintro ⟨s, u, rfl, rfl⟩
    refine ⟨String.ofList s, String.ofList u, String.ofList_append, ?_⟩
    rw [← utf8ByteSize_ofList]
    rfl

/-- A slice exists exactly if its ends are boundaries in this order. -/
theorem isSome_slice?_iff : (slice? start stop t).isSome = true ↔
    start ≤ stop ∧ IsBoundary start t ∧ IsBoundary stop t := by
  simp only [Option.isSome_iff_exists, slice?_eq_some_iff, isBoundary_iff]
  constructor
  · rintro ⟨s, front, back, rfl, rfl, rfl⟩
    refine ⟨?_, ⟨front, s ++ back, rfl, rfl⟩, front ++ s, back, (List.append_assoc ..).symm, rfl⟩
    rw [byteLength_append]
    exact Nat.le_add_right _ _
  · rintro ⟨hle, ⟨front, u, rfl, rfl⟩, before, back, heq, rfl⟩
    rcases List.append_eq_append_iff.mp heq with ⟨s, rfl, rfl⟩ | ⟨s, rfl, rfl⟩
    · exact ⟨s, front, back, rfl, rfl, rfl⟩
    · -- The end does not stand in front of the start, so nothing stands between them.
      have hs : byteLength s = 0 := by
        rw [byteLength_append] at hle
        omega
      obtain rfl := byteLength_eq_zero_iff.mp hs
      exact ⟨[], before, u, by simp, by simp, by simp⟩

/-- The second byte of a letter beyond ASCII starts no slice. -/
example : slice? 2 3 "dé".toList = none ∧ slice? 1 3 "dé".toList = some "é".toList := by decide

end Registrar.Text
