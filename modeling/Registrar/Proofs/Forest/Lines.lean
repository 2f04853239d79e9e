import Registrar.Proofs.Forest.Effects
import Registrar.Proofs.Headings
import Registrar.Proofs.Text.Lines

/-! The lines of a forest: which of them are headings, where their braces stand, and that cleaning
leaves every one of them as it is. -/

namespace Registrar

namespace Text

def IsFlat (t : Text) : Prop := '{' ∉ t ∧ '}' ∉ t

variable {s t : Text} {c : Char}

@[simp] theorem isFlat_nil : IsFlat [] := ⟨by simp, by simp⟩

@[simp] theorem isFlat_append : IsFlat (s ++ t) ↔ IsFlat s ∧ IsFlat t := by
  simp only [IsFlat, List.mem_append, not_or]
  exact ⟨fun h => ⟨⟨h.1.1, h.2.1⟩, h.1.2, h.2.2⟩, fun h => ⟨⟨h.1.1, h.2.1⟩, h.1.2, h.2.2⟩⟩

@[simp] theorem isFlat_cons : IsFlat (c :: t) ↔ (c ≠ '{' ∧ c ≠ '}') ∧ IsFlat t := by
  simp only [IsFlat, List.mem_cons, not_or, eq_comm, ne_eq]
  exact ⟨fun h => ⟨⟨h.1.1, h.2.1⟩, h.1.2, h.2.2⟩, fun h => ⟨⟨h.1.1, h.2.1⟩, h.1.2, h.2.2⟩⟩

private theorem isFlat_of_isIdentifier (h : t.isIdentifier = true) : IsFlat t :=
  ⟨not_mem_of_isIdentifier h (by decide), not_mem_of_isIdentifier h (by decide)⟩

end Text

/-- A line that ends in front of a brace declares at most a class without a body. -/
theorem heading?_of_semicolon {marker line : Text} (hbrace : '{' ∉ line) (hend : ';' ∈ line) :
    heading? marker line = none ∨ heading? marker line = some .forward := by
  have hopen : ¬ line.contains '{' = true := mt List.contains_iff_mem.mp hbrace
  have hforward : line.contains ';' = true := List.contains_iff_mem.mpr hend
  rw [heading?]
  cases Heading.className? (Marker.skipLeading marker line) with
  | none => exact Or.inl rfl
  | some name =>
    right
    rw [Option.map_some, if_neg hopen, if_pos hforward]

theorem heading?_of_className? {marker line : Text}
    (h : Heading.className? (Marker.skipLeading marker line) = none) :
    heading? marker line = none := by
  rw [heading?, h]
  rfl

namespace Forest

variable {markers : Markers}

theorem heading?_binding (h : markers.Apart) (kind : BindingKind) (label : Option (Label markers))
    {rest : Text} (hrest : markers.absentFrom rest = true) :
    heading? markers.onClass (invoke (markers.onBinding kind) label ++ rest) = none := by
  apply heading?_of_className?
  rw [Marker.skipLeading_of_absent (occursIn_onClass_binding label h hrest kind), invoke_append,
    Text.trimStart_identifier_append (h.onBinding kind)]
  exact Heading.className?_invocation (h.onBinding kind) _

private theorem skipLeading_invoke_append (h : markers.Apart) (label : Option (Label markers))
    (rest : Text) :
    Marker.skipLeading markers.onClass (invoke markers.onClass label ++ rest) =
      Marker.skipLeading markers.onClass rest := by
  rw [invoke_append]
  exact Marker.skipLeading_front rest (not_mem_argument label (by decide)) h.onClass

theorem heading?_class (h : markers.Apart) (label : Option (Label markers)) :
    heading? markers.onClass (invoke markers.onClass label) = none := by
  apply heading?_of_className?
  rw [← List.append_nil (invoke markers.onClass label), skipLeading_invoke_append h,
    Marker.skipLeading_of_absent (Text.occursIn_nil (Text.ne_nil_of_isIdentifier h.onClass))]
  rfl

theorem isFlat_invoke {marker : Text} (hmarker : marker.isIdentifier = true)
    (label : Option (Label markers)) : Text.IsFlat (invoke marker label) := by
  have hargument : Text.IsFlat (argument label) :=
    ⟨not_mem_argument label (by decide), not_mem_argument label (by decide)⟩
  simp [invoke, Text.isFlat_of_isIdentifier hmarker, hargument]

theorem isFlat_declaration (item : Item markers) : Text.IsFlat item.declaration := by
  have htype := Text.isFlat_of_isIdentifier item.type.isIdentifier
  have hname := Text.isFlat_of_isIdentifier item.name.isIdentifier
  rw [Item.declaration]
  split <;> simp [htype, hname]

theorem heading?_declaration (marker : Text) (item : Item markers) :
    heading? marker item.declaration = none ∨ heading? marker item.declaration = some .forward := by
  apply heading?_of_semicolon (isFlat_declaration item).1
  rw [Item.declaration]
  split <;> simp

variable (head : Head markers)

private theorem Keyword.isIdentifier (keyword : Keyword) : keyword.text.isIdentifier = true := by
  cases keyword <;> decide

theorem absentFrom_plain (h : markers.Apart) (tail : Text)
    (htail : tail.isWordless = true) :
    markers.absentFrom (head.plain ++ tail) = true := by
  have hkeyword : markers.absentFrom head.keyword.text = true := by
    cases head.keyword with
    | cls => exact h.keywords "class".toList (List.mem_cons_self ..)
    | struct => exact h.keywords "struct".toList (List.mem_cons_of_mem _ (List.mem_cons_self ..))
  rw [Head.plain, List.append_assoc, List.cons_append, Markers.absentFrom_append_cons h (by decide),
    hkeyword, head.name.absentFrom_append h tail htail]
  rfl

private theorem className?_plain (tail : Text) (htail : ∀ c ∈ tail.head?, isWordChar c = false) :
    Heading.className? (head.plain ++ tail) = some head.name.text := by
  rw [Head.plain, List.append_assoc, List.cons_append]
  cases head.keyword with
  | cls => exact Heading.className?_class head.name.isIdentifier htail
  | struct => exact Heading.className?_struct head.name.isIdentifier htail

/-- A class marker in front of the head is looked past. -/
theorem skipLeading_head (h : markers.Apart) (tail : Text)
    (htail : tail.isWordless = true) :
    Marker.skipLeading markers.onClass (head.front ++ tail) = head.plain ++ tail := by
  have habsent := Markers.onClass_absent (absentFrom_plain head h tail htail)
  have htrim : Text.trimStart (head.plain ++ tail) = head.plain ++ tail := by
    rw [Head.plain, List.append_assoc]
    exact Text.trimStart_identifier_append head.keyword.isIdentifier _
  have hplain : Marker.skipLeading markers.onClass (head.plain ++ tail) = head.plain ++ tail :=
    (Marker.skipLeading_of_absent habsent).trans htrim
  rw [Head.front]
  split
  · have hspace : Text.occursIn markers.onClass (' ' :: (head.plain ++ tail)) = false := by
      rw [Text.occursIn_cons (Text.ne_nil_of_isIdentifier h.onClass)
        (Text.not_mem_of_isIdentifier h.onClass (by decide)), habsent]
    rw [List.append_assoc, List.cons_append, skipLeading_invoke_append h,
      Marker.skipLeading_of_absent hspace]
    exact htrim
  · exact hplain

theorem heading?_opening (h : markers.Apart) :
    heading? markers.onClass (head.front ++ [' ', '{']) = some (.opening head.name.text) := by
  have hbrace : (head.front ++ [' ', '{']).contains '{' = true := by simp
  rw [heading?, skipLeading_head head h [' ', '{'] (by decide),
    className?_plain head [' ', '{'] (Text.forall_head?_cons (by decide) _), Option.map_some,
    if_pos hbrace]

def Mark.pending : Mark markers → Option Registration
  | .leading label => some (registrationOf label)
  | _ => none

/-- What stands in front of the keyword has no brace. -/
theorem exists_front_eq (h : markers.Apart) :
    ∃ lead, Text.IsFlat lead ∧ head.front = lead ++ head.plain := by
  rw [Head.front]
  split
  · rename_i label _
    refine ⟨invoke markers.onClass label ++ [' '], ?_, by simp⟩
    simp [isFlat_invoke h.onClass label]
  · exact ⟨[], Text.isFlat_nil, rfl⟩

theorem isFlat_front (h : markers.Apart) : Text.IsFlat head.front := by
  obtain ⟨lead, hlead, hfront⟩ := exists_front_eq head h
  have hkeyword := Text.isFlat_of_isIdentifier head.keyword.isIdentifier
  have hname := Text.isFlat_of_isIdentifier head.name.isIdentifier
  rw [hfront, Head.plain]
  simp [hlead, hkeyword, hname]

theorem namespaces_opening (h : markers.Apart) :
    Heading.namespaces (head.front ++ [' ', '{']) = [] := by
  obtain ⟨lead, hlead, hfront⟩ := exists_front_eq head h
  have hlast : ∃ front k, head.keyword.text = front ++ [k] ∧ '{' ∉ front ++ [k] ∧
      isBlank k = false ∧ k ≠ 'e' := by
    cases head.keyword with
    | cls => exact ⟨"clas".toList, 's', rfl, by decide, by decide, by decide⟩
    | struct => exact ⟨"struc".toList, 't', rfl, by decide, by decide, by decide⟩
  obtain ⟨front, k, hkeyword, hbrace, hblank, hne⟩ := hlast
  have hline : head.front ++ [' ', '{'] =
      (lead ++ front) ++ k :: ' ' :: (head.name.text ++ [' ', '{']) := by
    simp [hfront, Head.plain, hkeyword]
  rw [hline]
  refine Heading.namespaces_of_keyword head.name.isIdentifier ?_ hblank hne
  rw [List.append_assoc]
  exact fun hmem => (List.mem_append.mp hmem).elim hlead.1 hbrace

private theorem semicolon_not_mem_front (h : markers.Apart) (hsplit : head.isSplit = true) :
    ';' ∉ head.front := by
  have hplain : ';' ∉ head.plain := by
    have hkeyword := Text.not_mem_of_isIdentifier head.keyword.isIdentifier (c := ';') (by decide)
    have hname := Text.not_mem_of_isIdentifier head.name.isIdentifier (c := ';') (by decide)
    simp [Head.plain, hkeyword, hname]
  rw [Head.front]
  split
  · rename_i label hmark
    have hmarker := Text.not_mem_of_isIdentifier h.onClass (c := ';') (by decide)
    cases label with
    | none => simp [invoke, argument, hmarker, hplain]
    | some label =>
      have hlabel := head.isOpen hsplit label hmark
      simp [invoke, argument, hmarker, hplain, hlabel]
  · exact hplain

theorem heading?_split (h : markers.Apart) (hsplit : head.isSplit = true) :
    heading? markers.onClass head.front = some (.split ⟨head.name.text, head.mark.pending⟩) := by
  have hbrace : ¬ head.front.contains '{' = true :=
    mt List.contains_iff_mem.mp (isFlat_front head h).1
  have hend : ¬ head.front.contains ';' = true :=
    mt List.contains_iff_mem.mp (semicolon_not_mem_front head h hsplit)
  have hskip := skipLeading_head head h [] rfl
  have hname := className?_plain head [] (by simp)
  simp only [List.append_nil] at hskip hname
  simp only [heading?, hskip, hname, Option.map_some, if_neg hbrace, if_neg hend]
  rw [Head.front]
  split
  · rename_i label hmark
    have htrim : Text.trimStart (invoke markers.onClass label ++ ' ' :: head.plain) =
        invoke markers.onClass label ++ ' ' :: head.plain := by
      rw [invoke_append, Text.trimStart_identifier_append h.onClass]
    have hlonger : head.plain.length <
        (invoke markers.onClass label ++ ' ' :: head.plain).length := by
      rw [List.length_append, List.length_cons]
      omega
    rw [htrim, if_pos hlonger, registration_invoke_append label _, hmark]
    rfl
  · rename_i hmark
    have htrim : head.plain.trimStart = head.plain := by
      rw [Head.plain, Text.trimStart_identifier_append head.keyword.isIdentifier]
    have hpending : head.mark.pending = none := by
      cases hcase : head.mark with
      | leading label => exact absurd hcase (hmark label)
      | absent => rfl
      | inside label => rfl
    rw [htrim, if_neg (Nat.lt_irrefl _), hpending]

theorem SpaceName.text_eq (name : SpaceName markers) :
    name.text = name.first.text ++ Heading.chained (name.more.map Word.text) := by
  rw [SpaceName.text, Heading.chained, List.flatMap_map]

private theorem SpaceName.isIdentifier_more (name : SpaceName markers) :
    ∀ w ∈ name.more.map Word.text, w.isIdentifier = true := by
  intro w hw
  obtain ⟨word, _, rfl⟩ := List.mem_map.mp hw
  exact word.isIdentifier

theorem namespaces_space (name : SpaceName markers) :
    Heading.namespaces name.line = [name.text] := by
  rw [name.line_eq, name.text_eq]
  exact Heading.namespaces_space name.first.isIdentifier name.isIdentifier_more

theorem absentFrom_space (h : markers.Apart) (name : SpaceName markers) :
    markers.absentFrom name.line = true := by
  have hkeyword : markers.absentFrom "namespace".toList = true := h.keywords _ (by simp)
  have hchain : ∀ word : Word markers, markers.absentFrom
      (word.text ++ ((name.more.flatMap fun word => ':' :: ':' :: word.text) ++ [' ', '{'])) =
      true := by
    induction name.more with
    | nil => exact fun word => word.absentFrom_append h [' ', '{'] (by decide)
    | cons next more ih =>
      intro word
      rw [List.flatMap_cons, List.append_assoc, List.cons_append, List.cons_append,
        Markers.absentFrom_append_cons h (by decide), Markers.absentFrom_cons h (by decide),
        word.isFree, ih next]
      rfl
  rw [name.line_eq, Markers.absentFrom_append_cons h (by decide), hkeyword, SpaceName.text,
    List.append_assoc, hchain]
  rfl

theorem heading?_space (h : markers.Apart) (name : SpaceName markers) :
    heading? markers.onClass name.line = none := by
  apply heading?_of_className?
  rw [Marker.skipLeading_of_absent (Markers.onClass_absent (absentFrom_space h name))]
  rfl

theorem ofLine_space (name : SpaceName markers) : Braces.ofLine name.line = ⟨1, 0⟩ := by
  have habsent {c : Char} := Heading.not_mem_space (c := c) name.first.isIdentifier
    name.isIdentifier_more
  have hopening := Braces.ofLine_opening (habsent (c := '{') (by decide) (by decide) (by decide))
    (habsent (c := '}') (by decide) (by decide) (by decide))
  rwa [List.append_assoc, List.cons_append, ← name.text_eq] at hopening

private theorem isCode_invoke_append {marker rest : Text} (hmarker : marker.isIdentifier = true)
    (label : Option (Label markers)) (hrest : Text.IsCode rest) :
    Text.IsCode (invoke marker label ++ rest) := by
  have hclose : Text.IsCode (')' :: rest) := hrest.cons (by decide)
  rw [invoke_append]
  refine Text.IsCode.word (Text.IsCode.cons ?_ (by decide)) hmarker
  cases label with
  | none => exact hclose
  | some label =>
    have hquoted := hclose.quoted (label.not_mem (by decide)) (label.not_mem (by decide))
    simpa [argument] using hquoted

private theorem isClean_invoke {marker : Text} (hmarker : marker.isIdentifier = true)
    (label : Option (Label markers)) : Text.IsClean (invoke marker label) := by
  have hcode := isCode_invoke_append hmarker label Text.IsCode.nil
  rw [List.append_nil] at hcode
  exact ⟨hcode, marker ++ '(' :: argument label, ')', by simp [invoke], by decide⟩

private theorem isClean_declaration (item : Item markers) : Text.IsClean item.declaration := by
  have hwords : ∀ {tail}, Text.IsCode tail →
      Text.IsCode (item.type.text ++ ' ' :: (item.name.text ++ tail)) := by
    intro tail htail
    exact ((htail.word item.name.isIdentifier).cons (by decide)).word item.type.isIdentifier
  have hend : Text.IsCode [';'] := Text.IsCode.nil.cons (by decide)
  rw [Item.declaration]
  split
  · exact ⟨hwords hend, item.type.text ++ ' ' :: item.name.text, ';', by simp, by decide⟩
  · exact ⟨hwords ((hend.cons (by decide)).cons (by decide)),
      item.type.text ++ ' ' :: (item.name.text ++ ['(', ')']), ';', by simp, by decide⟩

private theorem isClean_item (h : markers.Apart) (item : Item markers) :
    ∀ line ∈ item.lines, Text.IsClean line := by
  have hmarker := h.onBinding item.kind
  have hdeclaration := isClean_declaration item
  rw [Item.lines]
  split
  · rw [List.forall_mem_cons, List.forall_mem_singleton]
    exact ⟨isClean_invoke hmarker item.label, hdeclaration⟩
  · have hspace : Text.IsClean (' ' :: item.declaration) :=
      hdeclaration.append (s := [' ']) (hdeclaration.code.cons (by decide))
    rw [List.forall_mem_singleton]
    exact hspace.append (isCode_invoke_append hmarker item.label hspace.code)

private theorem isCode_front (h : markers.Apart) {tail : Text} (htail : Text.IsCode tail) :
    Text.IsCode (head.front ++ tail) := by
  have hplain : Text.IsCode (head.plain ++ tail) := by
    rw [Head.plain, List.append_assoc]
    exact ((htail.word head.name.isIdentifier).cons (by decide)).word head.keyword.isIdentifier
  rw [Head.front]
  split
  · rw [List.append_assoc]
    exact isCode_invoke_append h.onClass _ (hplain.cons (by decide))
  · exact hplain

private theorem isClean_front (h : markers.Apart) : Text.IsClean head.front := by
  have hcode := isCode_front head h Text.IsCode.nil
  obtain ⟨lead, _, hfront⟩ := exists_front_eq head h
  have hsplit : head.front = (lead ++ (head.keyword.text ++ [' '])) ++ head.name.text := by
    simp [hfront, Head.plain]
  rw [List.append_nil, hsplit] at hcode
  rw [hsplit]
  exact (Text.isClean_of_isIdentifier head.name.isIdentifier).append hcode

private theorem isClean_head (h : markers.Apart) : ∀ line ∈ head.lines, Text.IsClean line := by
  have hbrace : Text.IsClean ['{'] := Text.isClean_singleton (by decide) (by decide)
  have hspace : Text.IsClean [' ', '{'] :=
    hbrace.append (s := [' ']) (hbrace.code.cons (by decide))
  have hfirst : ∀ line ∈ if head.isSplit then [head.front, ['{']] else [head.front ++ [' ', '{']],
      Text.IsClean line := by
    split
    · rw [List.forall_mem_cons, List.forall_mem_singleton]
      exact ⟨isClean_front head h, hbrace⟩
    · rw [List.forall_mem_singleton]
      exact hspace.append (isCode_front head h hspace.code)
  rw [Head.lines, List.forall_mem_append]
  refine ⟨hfirst, ?_⟩
  split
  · rw [List.forall_mem_singleton]
    exact isClean_invoke h.onClass _
  · exact fun _ hline => absurd hline List.not_mem_nil

private theorem isClean_closing : Text.IsClean ['}', ';'] := by
  have hend : Text.IsClean [';'] := Text.isClean_singleton (by decide) (by decide)
  exact hend.append (s := ['}']) (hend.code.cons (by decide))

private theorem isClean_body (h : markers.Apart) (body : Body markers) :
    ∀ line ∈ body.lines, Text.IsClean line := by
  induction body with
  | done => exact fun _ hline => absurd hline List.not_mem_nil
  | item entry rest ih =>
    rw [Body.lines, List.forall_mem_append]
    exact ⟨isClean_item h entry, ih⟩
  | nested head inner rest ihInner ihRest =>
    rw [Body.lines, List.forall_mem_append, List.forall_mem_append, List.forall_mem_cons]
    exact ⟨⟨isClean_head head h, ihInner⟩, isClean_closing, ihRest⟩

private theorem isClean_space (name : SpaceName markers) : Text.IsClean name.line := by
  rw [name.line_eq, name.text_eq]
  exact Heading.isClean_space name.first.isIdentifier name.isIdentifier_more

private theorem isClean_lines (h : markers.Apart) (forest : Forest markers) :
    ∀ line ∈ forest.lines, Text.IsClean line := by
  induction forest with
  | done => exact fun _ hline => absurd hline List.not_mem_nil
  | space name inner rest ihInner ihRest =>
    have hclose : Text.IsClean ['}'] := Text.isClean_singleton (by decide) (by decide)
    rw [lines, List.cons_append, List.forall_mem_cons, List.forall_mem_append, List.forall_mem_cons]
    exact ⟨isClean_space name, ihInner, hclose, ihRest⟩
  | cls head body rest ih =>
    rw [lines, List.forall_mem_append, List.forall_mem_append, List.forall_mem_cons]
    exact ⟨⟨isClean_head head h, isClean_body h body⟩, isClean_closing, ih⟩

/-- The lines of a forest are what is read of its text. -/
theorem cleanLines_render (h : markers.Apart) (forest : Forest markers) :
    Text.cleanLines forest.render = forest.lines :=
  Text.cleanLines_flatMap (isClean_lines h forest)

section Occurrence

variable (h : markers.Apart)
include h

private theorem any_occursIn_item (item : Item markers) :
    item.lines.any (Text.occursIn markers.onClass) = false := by
  have hdeclaration := absentFrom_declaration item h
  rw [Item.lines]
  split
  · have hmarker := occursIn_onClass_binding item.label h (Markers.absentFrom_nil h) item.kind
    rw [List.append_nil] at hmarker
    simp [hmarker, Markers.onClass_absent hdeclaration]
  · have hrest : markers.absentFrom (' ' :: item.declaration) = true := by
      rw [Markers.absentFrom_cons h (by decide), hdeclaration]
    simp [occursIn_onClass_binding item.label h hrest item.kind]

private theorem any_occursIn_head :
    head.lines.any (Text.occursIn markers.onClass) = head.mark.isPresent := by
  have hinvoke : ∀ (label : Option (Label markers)) (rest : Text),
      Text.occursIn markers.onClass (invoke markers.onClass label ++ rest) = true := by
    intro label rest
    rw [invoke_append]
    exact Text.occursIn_self_append ..
  have hbrace := Text.occursIn_of_isWordless (t := ['{']) h.onClass (by decide)
  have hplain : ∀ tail : Text, tail.isWordless = true →
      Text.occursIn markers.onClass (head.plain ++ tail) = false := by
    intro tail htail
    exact Markers.onClass_absent (absentFrom_plain head h tail htail)
  have hclosed := hplain [] rfl
  have hopening := hplain [' ', '{'] (by decide)
  rw [List.append_nil] at hclosed
  rw [Head.lines, Head.front]
  cases head.mark with
  | absent => split <;> simp [hclosed, hopening, hbrace, Mark.isPresent]
  | leading label => split <;> simp [hinvoke, Mark.isPresent]
  | inside label =>
    have halone := hinvoke label []
    rw [List.append_nil] at halone
    split <;> simp [halone, Mark.isPresent]

private theorem any_occursIn_body (body : Body markers) :
    body.lines.any (Text.occursIn markers.onClass) = body.isMarked := by
  have hclosing := Text.occursIn_of_isWordless (t := ['}', ';']) h.onClass (by decide)
  induction body with
  | done => rfl
  | item entry rest ih =>
    rw [Body.lines, List.any_append, any_occursIn_item h entry, ih, Body.isMarked, Bool.false_or]
  | nested head inner rest ihInner ihRest =>
    rw [Body.lines, List.any_append, List.any_append, List.any_cons, any_occursIn_head head h,
      ihInner, hclosing, ihRest, Body.isMarked, Bool.false_or]

private theorem any_occursIn_lines (forest : Forest markers) :
    forest.lines.any (Text.occursIn markers.onClass) = forest.isMarked := by
  induction forest with
  | done => rfl
  | space name inner rest ihInner ihRest =>
    have hclosing := Text.occursIn_of_isWordless (t := ['}']) h.onClass (by decide)
    rw [lines, List.cons_append, List.any_cons, List.any_append, List.any_cons,
      Markers.onClass_absent (absentFrom_space h name), ihInner, hclosing, ihRest, isMarked,
      Bool.false_or, Bool.false_or]
  | cls head body rest ih =>
    have hclosing := Text.occursIn_of_isWordless (t := ['}', ';']) h.onClass (by decide)
    rw [lines, List.any_append, List.any_append, List.any_cons, any_occursIn_head head h,
      any_occursIn_body h body, hclosing, ih, isMarked, Bool.false_or]

/-- The text of a forest needs a scan exactly if one of its classes is marked. -/
theorem needsScan_render (forest : Forest markers) :
    markers.needsScan forest.render = forest.isMarked := by
  rw [Markers.needsScan, render, Text.occursIn_flatMap (Text.ne_nil_of_isIdentifier h.onClass)
    (Text.not_mem_of_isIdentifier h.onClass (by decide)), any_occursIn_lines h forest]

end Occurrence

end Forest

end Registrar
