import Registrar.Proofs.BindingCounts
import Registrar.Proofs.Text.Masking

/-! Declarations next to markers. Before a declaration is read off a line, the invocations of the
three markers are removed from it, one marker after the other. If every word that ends like a marker
is that marker, invoked on its line, then the removal of one marker leaves the others as they were,
and in the end no word ends like a marker. A marker that is not invoked on its line stays there and
is taken for a declaration. -/

namespace Registrar

/-- Whether a text breaks off inside a word; the empty text does if the text before it did. -/
def Text.endsInWord (inWord : Bool) (t : Text) : Bool := t.foldl (fun _ c => isIdentChar c) inWord

private theorem Text.endsInWord_concat (inWord : Bool) (t : Text) (c : Char) :
    (t ++ [c]).endsInWord inWord = isIdentChar c := by
  simp [endsInWord]

private theorem Text.endsInWord_of_getLast? {t : Text}
    (h : ∀ c ∈ t.getLast?, isIdentChar c = false) : t.endsInWord false = false := by
  rcases List.eq_nil_or_concat t with rfl | ⟨s, c, rfl⟩
  · rfl
  · rw [List.concat_eq_append] at h ⊢
    rw [endsInWord_concat]
    exact h c (by simp)

namespace Marker

variable {names gone : List Text} {name t : Text}

/-- Whether a text starts, behind blanks, with arguments in parentheses that hold none of the
names. -/
def isInvoked (names : List Text) (t : Text) : Bool :=
  match parenthesized? t.trimStart with
  | some invocation => names.all fun name => !Text.occursIn name invocation.body
  | none => false

private theorem exists_of_isInvoked (h : isInvoked names t = true) :
    ∃ found, parenthesized? t.trimStart = some found ∧
      (names.all fun name => !Text.occursIn name found.body) = true := by
  unfold isInvoked at h
  split at h
  · rename_i found hfound
    exact ⟨found, hfound, h⟩
  · exact Bool.noConfusion h

private theorem head?_of_gap {gap rest : Text} (h : ∀ c ∈ gap, isBlank c = true) :
    ∀ c ∈ (gap ++ '(' :: rest).head?, isIdentChar c = false := by
  cases gap with
  | nil => exact Text.forall_head?_cons (by decide) rest
  | cons d gap =>
    exact Text.forall_head?_cons (isIdentChar_of_isBlank (h d List.mem_cons_self)) _

/-- The other markers keep their arguments when the invocations of one are removed. -/
private theorem isInvoked_strip (hname : name.isIdentifier = true) (hmem : name ∈ names)
    (h : isInvoked names t = true) : isInvoked names (strip name t) = true := by
  obtain ⟨found, hfound, hnames⟩ := exists_of_isInvoked h
  obtain ⟨gap, rfl, hgap, hbody⟩ := exists_of_parenthesized? hfound
  have hwordless : gap.isWordless = true :=
    List.all_eq_true.mpr fun c hc => by rw [isIdentChar_of_isBlank (hgap c hc)]; rfl
  have habsent : Text.occursIn name (gap ++ '(' :: found.body) = false := by
    rw [Text.occursIn_append_cons (Text.ne_nil_of_isIdentifier hname)
      (Text.not_mem_of_isIdentifier hname (by decide)), Text.occursIn_of_isWordless hname hwordless]
    simpa using List.all_eq_true.mp hnames name hmem
  have hstrip := strip_append_cons (t := found.after) hname habsent (c := ')') (by decide)
  rw [List.append_assoc, List.append_assoc] at hstrip
  have hopen : ∀ c ∈ ('(' :: found.body ++ ')' :: strip name found.after).head?,
      isBlank c = false := Text.forall_head?_cons (by decide) _
  rw [hstrip, isInvoked, Text.trimStart, Text.dropWhile_append_stop hgap hopen,
    parenthesized?_front _ hbody]
  exact hnames

/-- A text whose markers are intact: each of the names that ends a word is a whole word and invoked
there, and is not among those that are gone. `inWord` tells whether the text goes on with a word. -/
def Intact (names gone : List Text) (inWord : Bool) (t : Text) : Prop :=
  ∀ name ∈ names, ∀ before after, t = before ++ (name ++ after) →
    (∀ c ∈ after.head?, isIdentChar c = false) →
      name ∉ gone ∧ before.endsInWord inWord = false ∧ isInvoked names after = true

namespace Intact

variable {inWord : Bool}

private theorem of_append {s : Text} (h : Intact names gone inWord (s ++ t)) :
    Intact names gone (s.endsInWord inWord) t := by
  intro other hother before after heq hstop
  have hsplit := h other hother (s ++ before) after (by rw [heq, List.append_assoc]) hstop
  rwa [Text.endsInWord, List.foldl_append] at hsplit

/-- No invocation starts inside a word. -/
private theorem invocationFront?_eq_none (h : Intact names gone true t) (hmem : name ∈ names) :
    invocationFront? name t = none := by
  rw [Option.eq_none_iff_forall_not_mem]
  intro found hfound
  obtain ⟨_, gap, hgap, heq⟩ := invocationFront?_eq_some_iff.mp hfound
  rw [heq] at h
  obtain ⟨_, hword, _⟩ := h name hmem [] _ rfl (head?_of_gap hgap)
  exact Bool.noConfusion hword

/-- Removal starts no earlier than the word that a text begins in ends. -/
private theorem exists_append_of_strip {w s : Text} (h : Intact names gone true t)
    (hmem : name ∈ names) (hw : ∀ c ∈ w, isIdentChar c = true)
    (hs : ∀ c ∈ s.head?, isIdentChar c = false)
    (heq : strip name t = w ++ s) :
    ∃ rest, t = w ++ rest ∧ s = strip name rest ∧ ∀ c ∈ rest.head?, isIdentChar c = false := by
  induction w generalizing t with
  | nil =>
    refine ⟨t, rfl, heq.symm, ?_⟩
    cases t with
    | nil => exact nofun
    | cons d t =>
      rw [strip_cons (h.invocationFront?_eq_none hmem)] at heq
      rw [← List.nil_append s, ← heq] at hs
      exact Text.forall_head?_cons (hs d rfl) t
  | cons c w ih =>
    obtain ⟨hc, hmore⟩ := List.forall_mem_cons.mp hw
    cases t with
    | nil => exact absurd heq (by simp [strip])
    | cons d t =>
      rw [strip_cons (h.invocationFront?_eq_none hmem)] at heq
      obtain ⟨rfl, htail⟩ := List.cons.inj heq
      have hrest : Intact names gone (isIdentChar d) t := h.of_append (s := [d])
      rw [hc] at hrest
      obtain ⟨rest, rfl, hs, hstop⟩ := ih hrest hmore htail
      exact ⟨rest, rfl, hs, hstop⟩

/-- Once the invocations of a marker are removed it ends no word, and the others are intact. -/
private theorem strip (hnames : ∀ name ∈ names, name.isIdentifier = true) (hmem : name ∈ names)
    (h : Intact names gone inWord t) : Intact names (name :: gone) inWord (strip name t) := by
  fun_induction Marker.strip name t generalizing inWord with
  | case1 =>
    intro other hother before after heq
    have hne := Text.ne_nil_of_isIdentifier (hnames other hother)
    exact absurd heq (by simp [hne])
  | case2 c t found hfound ih =>
    obtain ⟨_, gap, hgap, heq⟩ := invocationFront?_eq_some_iff.mp hfound
    rw [heq] at h
    -- The invocation is a word of its own, so the text goes on between words where it ends.
    obtain ⟨_, rfl, _⟩ := h name hmem [] _ rfl (head?_of_gap hgap)
    have hafter : Intact names gone false found.after := by
      have hsplit : name ++ (gap ++ ('(' :: found.body ++ ')' :: found.after)) =
          (name ++ gap ++ '(' :: found.body ++ [')']) ++ found.after := by simp
      rw [hsplit] at h
      have hrest := h.of_append
      rwa [Text.endsInWord_concat] at hrest
    exact ih hafter
  | case3 c t hnone ih =>
    have hrest : Intact names gone (isIdentChar c) t := h.of_append (s := [c])
    intro other hother before after heq hstop
    cases before with
    | cons b before =>
      obtain ⟨rfl, htail⟩ := List.cons.inj heq
      exact ih hrest other hother before after htail hstop
    | nil =>
      have hident : ∀ d ∈ other, isIdentChar d = true := fun d hd =>
        Text.isIdentChar_of_mem (hnames other hother) hd
      obtain ⟨first, more, rfl, _, _⟩ := Text.exists_of_isIdentifier (hnames other hother)
      obtain ⟨rfl, htail⟩ := List.cons.inj heq
      obtain ⟨hc, hmore⟩ := List.forall_mem_cons.mp hident
      rw [hc] at hrest
      obtain ⟨rest, rfl, rfl, hend⟩ := hrest.exists_append_of_strip hmem hmore hstop htail
      obtain ⟨hgone, hword, hinvoked⟩ := h _ hother [] rest rfl hend
      refine ⟨?_, hword, isInvoked_strip (hnames name hmem) hmem hinvoked⟩
      -- The marker itself would have been removed here.
      intro hfirst
      rcases List.mem_cons.mp hfirst with rfl | hfirst
      · obtain ⟨found, hfound, _⟩ := exists_of_isInvoked hinvoked
        rw [← List.cons_append, invocationFront?, Text.after?_append, Option.bind_some, hfound]
          at hnone
        exact absurd hnone (by simp)
      · exact hgone hfirst

end Intact

end Marker

namespace Markers

variable {markers : Markers} {line : Text}

def names (markers : Markers) : List Text := markers.named.map Prod.snd

private theorem isIdentifier_of_mem_names (hvalid : markers.validate = .ok ()) :
    ∀ name ∈ markers.names, name.isIdentifier = true :=
  List.forall_mem_map.mpr (validate_eq_ok_iff.mp hvalid)

/-- Whether every word of a line that ends like a marker is that marker, invoked on the line with
arguments that hold no marker. -/
def InvokedOn (markers : Markers) (line : Text) : Prop :=
  ∀ run ∈ line.runsFrom 0, ∀ name ∈ markers.names, name <:+ run.word →
    run.word = name ∧ Marker.isInvoked markers.names run.after = true

instance (markers : Markers) (line : Text) : Decidable (markers.InvokedOn line) :=
  inferInstanceAs (Decidable (∀ run ∈ line.runsFrom 0, ∀ name ∈ markers.names, name <:+ run.word →
    run.word = name ∧ Marker.isInvoked markers.names run.after = true))

private theorem InvokedOn.intact (h : markers.InvokedOn line) (hvalid : markers.validate = .ok ()) :
    Marker.Intact markers.names [] false line := by
  rintro name hname before after rfl hstop
  have hident := isIdentifier_of_mem_names hvalid name hname
  obtain ⟨run, hrun, hsuffix, rfl, hbefore⟩ := Text.exists_run_of_append
    (Text.ne_nil_of_isIdentifier hident) (fun c hc => Text.isIdentChar_of_mem hident hc) hstop
    before 0
  obtain ⟨hword, hinvoked⟩ := h run hrun name hname hsuffix
  exact ⟨List.not_mem_nil, Text.endsInWord_of_getLast? (hbefore hword), hinvoked⟩

/-- Without its invocations no word of such a line ends like a marker. -/
private theorem InvokedOn.not_endsWord (h : markers.InvokedOn line)
    (hvalid : markers.validate = .ok ()) :
    ∀ name ∈ markers.names, ¬ Text.EndsWord name (markers.strip line) := by
  have hnames := isIdentifier_of_mem_names hvalid
  have hclass : markers.onClass ∈ markers.names := by simp [names, named]
  have hmember : markers.onMember ∈ markers.names := by simp [names, named]
  have hfunction : markers.onFunction ∈ markers.names := by simp [names, named]
  have hintact := (((h.intact hvalid).strip hnames hclass).strip hnames hmember).strip hnames
    hfunction
  rintro name hname ⟨before, after, heq, hstop⟩
  obtain ⟨hgone, _⟩ := hintact name hname before after heq hstop
  refine hgone ?_
  simpa [names, named, or_comm, or_left_comm] using hname

private theorem InvokedOn.identifier_of_mem_bound (h : markers.InvokedOn line)
    (hvalid : markers.validate = .ok ()) {kind : BindingKind} {slots : Slots} :
    ∀ binding ∈ markers.bound kind line slots, binding.identifier ∉ markers.names := by
  unfold bound
  split
  · rename_i explicit identifier _ hidentifier
    refine List.forall_mem_singleton.mpr fun hname => ?_
    exact h.not_endsWord hvalid identifier hname (Declaration.endsWord_of_identifier? hidentifier)
  · exact nofun

end Markers

/-- Whether none of the bindings of a class is declared by one of the names. -/
def ReflectedClass.Avoids (names : List Text) (cls : ReflectedClass) : Prop :=
  ∀ kind, ∀ binding ∈ cls.bindings kind, binding.identifier ∉ names

namespace Progress

variable {markers : Markers} {progress : Progress} (hvalid : markers.validate = .ok ())
  (header : Text)
include hvalid

private theorem avoids_readLine {line : Text} (hline : markers.InvokedOn line)
    (h : ∀ cls ∈ progress.registry, cls.Avoids markers.names) :
    ∀ cls ∈ (progress.readLine markers header line).registry, cls.Avoids markers.names := by
  apply forall_mem_registry_readLine h
  · intro head _ kind
    rw [bindings_fresh]
    exact nofun
  · intro slots cls hcls kind
    rw [Markers.bindings_annotateClass]
    exact List.forall_mem_append.mpr ⟨hcls kind, hline.identifier_of_mem_bound hvalid⟩

private theorem avoids_readLines {lines : List Text}
    (hlines : ∀ line ∈ lines, markers.InvokedOn line)
    (h : ∀ cls ∈ progress.registry, cls.Avoids markers.names) :
    ∀ cls ∈ (progress.readLines markers header lines).registry, cls.Avoids markers.names := by
  induction lines generalizing progress with
  | nil => exact h
  | cons line lines ih =>
    obtain ⟨hline, hlines⟩ := List.forall_mem_cons.mp hlines
    exact ih hlines (avoids_readLine hvalid header hline h)

end Progress

namespace Markers

/-- No member and no function of a scan is declared by the name of a marker, provided that on every
line each word that ends like a marker is that marker and is invoked there. -/
theorem scan_avoids_markers (markers : Markers) (hvalid : markers.validate = .ok ())
    (header source : Text) (hlines : ∀ line ∈ source.cleanLines, markers.InvokedOn line) :
    ∀ cls ∈ markers.scan header source, cls.Avoids markers.names := by
  rcases markers.scan_cases header source with hscan | hscan
  · rw [hscan]
    exact Progress.avoids_readLines hvalid header hlines nofun
  · rw [hscan]
    exact nofun

/-- Several markers on one line, one of them in front of the name that it is not for, and a function
that waits across the line of a member. -/
theorem scan_avoids_markers_crowded :
    let source : Text :=
      "struct A \x7b REFLECT_CLASS(\"B\") REFLECT_MEMBER ( ) int REFLECT;\n".toList ++
        "REFLECT_FUNCTION() REFLECT_CLASS(REFLECT)\nREFLECT_MEMBER(\"hp\") int hp;\n".toList ++
        "void REFLECT_MEMBER() run();\n\x7d;\n".toList
    (Markers.scan {} "a.hpp".toList source).map (fun cls => (cls.members, cls.functions)) =
        [([.same "REFLECT".toList, .same "hp".toList], [.same "run".toList])] ∧
      ∀ cls ∈ Markers.scan {} "a.hpp".toList source, cls.Avoids (names {}) := by
  intro source
  exact ⟨by decide +kernel,
    scan_avoids_markers {} rfl "a.hpp".toList source (by decide +kernel)⟩

/-- A marker whose arguments stand on the next line is bound as the function that waits, and a
marker without arguments as a member. -/
theorem scan_binds_markers :
    let broken : Text :=
      "class A \x7b\nREFLECT_CLASS()\nREFLECT_FUNCTION()\nREFLECT_MEMBER(\n".toList ++
        "\"hp\") int health;\nvoid f();\n\x7d;\n".toList
    let bare : Text := "class A \x7b\nREFLECT_CLASS()\nREFLECT_MEMBER\nint x;\n\x7d;\n".toList
    (Markers.scan {} "a.hpp".toList broken).map (·.functions) =
        [[.same "REFLECT_MEMBER".toList]] ∧
      (Markers.scan {} "a.hpp".toList bare).map (·.members) =
        [[.same "REFLECT_MEMBER".toList]] := by
  decide +kernel

end Markers

end Registrar
