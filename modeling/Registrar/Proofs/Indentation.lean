import Registrar.Proofs.Declarations
import Registrar.Proofs.ScopeSteps
import Registrar.Proofs.Text.Indentation

/-! Scanning texts that differ in the indentation of their lines only. Blanks in front of a line are
looked past by everything that reads it: they belong to no marker, no keyword and no identifier,
they are no braces and no digits, and what starts at the front of a line starts behind them. -/

namespace Registrar

variable {gap t : Text} {c : Char}

namespace Text

private theorem trimStart_blank_append (h : ∀ c ∈ gap, isBlank c = true) (t : Text) :
    trimStart (gap ++ t) = t.trimStart :=
  List.dropWhile_append_of_pos h

private theorem contains_blank_append (h : ∀ c ∈ gap, isBlank c = true) (hc : isBlank c = false)
    (t : Text) : (gap ++ t).contains c = t.contains c := by
  have hmem : c ∉ gap := fun hmem => ne_of_isBlank (h c hmem) hc rfl
  rw [Bool.eq_iff_iff, List.contains_iff_mem, List.contains_iff_mem, List.mem_append,
    or_iff_right hmem]

private theorem count_blank_append (h : ∀ c ∈ gap, isBlank c = true) (hc : isBlank c = false)
    (t : Text) : (gap ++ t).count c = t.count c := by
  have hmem : c ∉ gap := fun hmem => ne_of_isBlank (h c hmem) hc rfl
  rw [List.count_append, List.count_eq_zero.mpr hmem, Nat.zero_add]

private theorem blankLiterals_blank_append (h : ∀ c ∈ gap, isBlank c = true) (t : Text) :
    blankLiterals (gap ++ t) = gap ++ t.blankLiterals := by
  refine blank_append_keep ?_ h t
  intro c t hc
  exact blankLiterals_cons ⟨ne_of_isBlank hc (by decide), ne_of_isBlank hc (by decide),
    ne_of_isBlank hc (by decide)⟩ t

private theorem blankNumbers_blank_append (h : ∀ c ∈ gap, isBlank c = true) (t : Text) :
    blankNumbers (gap ++ t) = gap ++ t.blankNumbers := by
  refine blank_append_keep ?_ h t
  intro c t hc
  rw [blankNumbers, blankNumbersFrom_cons (.inr (isDecimalDigit_of_isBlank hc)),
    isWordChar_of_isBlank hc, ← blankNumbers]

def Run.moved (distance : Nat) (run : Run) : Run := { run with stop := distance + run.stop }

/-- The offset of a text changes the places of its runs only. -/
private theorem runsFrom_add (distance offset : Nat) (t : Text) :
    runsFrom (distance + offset) t = (runsFrom offset t).map (Run.moved distance) := by
  induction t using word_induction generalizing offset with
  | nil => rfl
  | separator c t hc ih =>
    have hskip := fun offset =>
      runsFrom_separators (List.forall_mem_singleton.mpr hc) offset t
    simp only [List.singleton_append] at hskip
    rw [hskip, hskip, Nat.add_assoc, ih]
  | word c w t hw hstop ih =>
    rw [runsFrom_word hw hstop, runsFrom_word hw hstop, Nat.add_assoc, ih]
    rfl

private theorem identifiers_blank_append (h : ∀ c ∈ gap, isBlank c = true) (t : Text) :
    identifiers (gap ++ t) = t.identifiers.map (Run.moved gap.byteLength) := by
  have hsame : Run.isIdentifier ∘ Run.moved gap.byteLength = Run.isIdentifier := rfl
  rw [identifiers, runsFrom_separators fun c hc => isIdentChar_of_isBlank (h c hc), Nat.add_comm,
    runsFrom_add, List.filter_map, hsame, ← identifiers]

end Text

namespace Declaration

private theorem identifier?_blank_append (h : ∀ c ∈ gap, isBlank c = true) (kind : BindingKind)
    (t : Text) : identifier? kind (gap ++ t) = identifier? kind t := by
  cases kind with
  | member =>
    rw [identifier?, memberIdentifier?, memberIdentifier?, Text.contains_blank_append h (by decide),
      Text.blankLiterals_blank_append h, Text.blankNumbers_blank_append h,
      Text.identifiers_blank_append h, List.getLast?_map, Option.map_map]
    rfl
  | function =>
    have hcalled : isCalled ∘ Text.Run.moved gap.byteLength = isCalled := rfl
    rw [identifier?, functionIdentifier?, functionIdentifier?, Text.identifiers_blank_append h,
      List.find?_map, hcalled, Option.map_map]
    rfl

private theorem isTransparent_blank_append (h : ∀ c ∈ gap, isBlank c = true) (t : Text) :
    isTransparent (gap ++ t) = isTransparent t := by
  rw [isTransparent, isTransparent, Text.trim, Text.trimStart_blank_append h, ← Text.trim]

end Declaration

namespace Marker

variable {name : Text} (hname : name.isIdentifier = true)
include hname

private theorem occursIn_blank_append (h : ∀ c ∈ gap, isBlank c = true) (t : Text) :
    Text.occursIn name (gap ++ t) = Text.occursIn name t :=
  Text.occursIn_blank_append (Text.ne_nil_of_isIdentifier hname)
    (fun _ hc => isBlank_of_isIdentChar (Text.isIdentChar_of_mem hname hc)) h t

private theorem invocationFront?_blank_cons (hc : isBlank c = true) (t : Text) :
    invocationFront? name (c :: t) = none := by
  obtain ⟨first, more, rfl, hfirst, _⟩ := Text.exists_of_isIdentifier hname
  have hne : first ≠ c := by
    have hblank := isBlank_of_isIdentChar (isIdentChar_of_isIdentStart hfirst)
    exact (ne_of_isBlank hc hblank).symm
  rw [invocationFront?, Text.after?, if_neg hne]
  rfl

private theorem invocation?_blank_append (h : ∀ c ∈ gap, isBlank c = true) (t : Text) :
    invocation? name (gap ++ t) = invocation? name t := by
  refine Text.blank_append_eq ?_ h t
  intro c t hc
  rw [invocation?, invocationFront?_blank_cons hname hc, Option.none_or]

private theorem explicitName?_blank_append (h : ∀ c ∈ gap, isBlank c = true) (t : Text) :
    explicitName? name (gap ++ t) = explicitName? name t := by
  rw [explicitName?, args, invocation?_blank_append hname h, ← args, ← explicitName?]

private theorem registration_blank_append (h : ∀ c ∈ gap, isBlank c = true) (t : Text) :
    registration name (gap ++ t) = registration name t := by
  rw [registration, explicitName?_blank_append hname h, ← registration]

private theorem strip_blank_append (h : ∀ c ∈ gap, isBlank c = true) (t : Text) :
    strip name (gap ++ t) = gap ++ strip name t :=
  Text.blank_append_keep (fun _ _ hc => strip_cons (invocationFront?_blank_cons hname hc _)) h t

omit hname in
private theorem skipLeading_blank_append (h : ∀ c ∈ gap, isBlank c = true) (name t : Text) :
    skipLeading name (gap ++ t) = skipLeading name t := by
  rw [skipLeading, skipLeading, Text.trimStart_blank_append h]

end Marker

private theorem heading?_blank_append {marker : Text} (hmarker : marker.isIdentifier = true)
    (h : ∀ c ∈ gap, isBlank c = true) (t : Text) :
    heading? marker (gap ++ t) = heading? marker t := by
  simp only [heading?, Marker.skipLeading_blank_append h, Text.trimStart_blank_append h,
    Text.contains_blank_append h (show isBlank '{' = false by decide),
    Text.contains_blank_append h (show isBlank ';' = false by decide),
    Marker.registration_blank_append hmarker h]

private theorem Braces.ofLine_blank_append (h : ∀ c ∈ gap, isBlank c = true) (t : Text) :
    ofLine (gap ++ t) = ofLine t := by
  rw [ofLine, ofLine, Text.count_blank_append h (by decide), Text.count_blank_append h (by decide)]

namespace Markers

variable {markers : Markers} (hvalid : markers.validate = .ok ())
include hvalid

private theorem identifier?_strip_blank_append (h : ∀ c ∈ gap, isBlank c = true)
    (kind : BindingKind) (t : Text) :
    Declaration.identifier? kind (markers.strip (gap ++ t)) =
      Declaration.identifier? kind (markers.strip t) := by
  have hmember : markers.onMember.isIdentifier = true := isIdentifier_onBinding hvalid .member
  have hfunction : markers.onFunction.isIdentifier = true := isIdentifier_onBinding hvalid .function
  rw [strip, Marker.strip_blank_append (isIdentifier_onClass hvalid) h,
    Marker.strip_blank_append hmember h, Marker.strip_blank_append hfunction h,
    Declaration.identifier?_blank_append h, ← strip]

/-- An indented line says the same about the class around it. -/
private theorem effects_blank_append (h : ∀ c ∈ gap, isBlank c = true) (t : Text) (slots : Slots) :
    markers.effects (gap ++ t) slots = markers.effects t slots := by
  have hclass := isIdentifier_onClass hvalid
  have hbinding := isIdentifier_onBinding hvalid
  have hregister : markers.classEffects (gap ++ t) = markers.classEffects t := by
    rw [classEffects, Marker.occursIn_blank_append hclass h,
      Marker.registration_blank_append hclass h, ← classEffects]
  have hmarker : ∀ kind, markers.markerEffects kind (gap ++ t) = markers.markerEffects kind t := by
    intro kind
    simp only [markerEffects, Marker.occursIn_blank_append (hbinding kind) h,
      Marker.explicitName?_blank_append (hbinding kind) h, identifier?_strip_blank_append hvalid h]
  have hslot : ∀ kind, markers.slotEffects kind (gap ++ t) slots =
      markers.slotEffects kind t slots := by
    intro kind
    simp only [slotEffects, Marker.occursIn_blank_append (hbinding kind) h,
      Declaration.isTransparent_blank_append h, identifier?_strip_blank_append hvalid h]
  simp only [effects, hregister, hmarker, hslot]

end Markers

namespace Progress

variable {markers : Markers} (hvalid : markers.validate = .ok ()) (header : Text)
include hvalid

private theorem openScopes_blank_append (h : ∀ c ∈ gap, isBlank c = true) (line : Text)
    (progress : Progress) :
    progress.openScopes markers.onClass header (gap ++ line) =
      progress.openScopes markers.onClass header line := by
  simp only [openScopes, Scopes.openNamespaces, Scopes.headings,
    Heading.namespaces_blank_append h,
    heading?_blank_append (Markers.isIdentifier_onClass hvalid) h,
    Text.contains_blank_append h (show isBlank '{' = false by decide)]

private theorem readMarkers_blank_append (h : ∀ c ∈ gap, isBlank c = true) (line : Text)
    (progress : Progress) :
    progress.readMarkers markers (gap ++ line) = progress.readMarkers markers line := by
  have hlater : marksLaterClass markers.onClass (gap ++ line) =
      marksLaterClass markers.onClass line := by
    rw [marksLaterClass, heading?_blank_append (Markers.isIdentifier_onClass hvalid) h,
      ← marksLaterClass]
  have hannotate : progress.annotate markers (gap ++ line) = progress.annotate markers line := by
    unfold annotate Markers.annotateSlots Markers.annotateClass
    simp only [Markers.effects_blank_append hvalid h]
  rw [readMarkers, hlater, hannotate, ← readMarkers]

/-- A line is read the same way behind blanks. -/
private theorem readLine_of_indented {line indented : Text} (h : Text.Indented line indented)
    (progress : Progress) :
    progress.readLine markers header indented = progress.readLine markers header line := by
  obtain ⟨gap, hgap, rfl⟩ := h
  rw [readLine, openScopes_blank_append hvalid header hgap, readMarkers_blank_append hvalid hgap,
    closeScopes, Braces.ofLine_blank_append hgap, ← closeScopes, ← readLine]

private theorem readLines_of_indented {lines moved : List Text}
    (h : List.Forall₂ Text.Indented lines moved) (progress : Progress) :
    progress.readLines markers header moved = progress.readLines markers header lines := by
  induction h generalizing progress with
  | nil => rfl
  | @cons line indented lines moved hline _ ih =>
    refine (ih (progress.readLine markers header indented)).trans ?_
    rw [readLine_of_indented hvalid header hline]
    rfl

end Progress

namespace Markers

/-- Indentation does not matter: whatever spaces and tabs are put in front of the lines of a source,
the scan finds the same classes. -/
theorem scan_indent (markers : Markers) (hvalid : markers.validate = .ok ())
    (header source : Text) (gaps : Nat → Text)
    (hgaps : ∀ row, ∀ c ∈ gaps row, c = ' ' ∨ c = '\t') :
    markers.scan header (source.indent gaps) = markers.scan header source := by
  have hblank : ∀ row, ∀ c ∈ gaps row, isBlank c = true := by
    intro row c hc
    rcases hgaps row c hc with rfl | rfl <;> decide
  have hnewline : ∀ row, '\n' ∉ gaps row := by
    intro row hmem
    rcases hgaps row _ hmem with h | h <;> exact absurd h (by decide)
  have hrows := Text.forall₂_splitAt_indent hblank hnewline source
  have hclass := isIdentifier_onClass hvalid
  have hneeds : markers.needsScan (source.indent gaps) = markers.needsScan source :=
    Text.occursIn_eq_of_indented (Text.ne_nil_of_isIdentifier hclass)
      (fun c hc => isBlank_of_isIdentChar (Text.isIdentChar_of_mem hclass hc)) hrows
  rw [scan, scan, hneeds,
    Progress.readLines_of_indented hvalid header (Text.forall₂_cleanLines hrows)]

/-- The second line starts inside a block comment and the fourth inside a string that the third one
leaves open. -/
theorem scan_indent_inside_comment :
    let source : Text :=
      "/* class B \x7b\nREFLECT_CLASS() */ class A \x7b\n".toList ++
        "REFLECT_CLASS() REFLECT_MEMBER(\"n\nint n; // \"\n\x7d;\n".toList
    let gaps : Nat → Text := fun row => List.replicate row ' ' ++ ['\t']
    let cls : ReflectedClass :=
      { name := .global "A".toList, header := "a.hpp".toList, registration := some "A".toList,
        members := [.same "n".toList] }
    source.indent gaps ≠ source ∧ Markers.scan {} "a.hpp".toList (source.indent gaps) = [cls] := by
  intro source gaps cls
  refine ⟨by decide +kernel, ?_⟩
  have hgaps : ∀ row, ∀ c ∈ gaps row, c = ' ' ∨ c = '\t' := by
    intro row c hc
    rcases List.mem_append.mp hc with hc | hc
    · exact Or.inl (List.eq_of_mem_replicate hc)
    · exact Or.inr (List.mem_singleton.mp hc)
  rw [scan_indent {} rfl "a.hpp".toList source gaps hgaps]
  decide +kernel

end Markers

end Registrar
