import Registrar.Proofs.Headings

/-! Qualified names are read back from their spelling: as long as no part holds a colon, the `::` of
a rendered name stand between its parts and nowhere else. -/

namespace Registrar.QualifiedName

private theorem splitScope_append {w rest : Text} {parts : List Text} (hw : ':' ∉ w)
    (hrest : splitScope rest = [] :: parts) : splitScope (w ++ rest) = w :: parts := by
  induction w with
  | nil => exact hrest
  | cons c w ih =>
    obtain ⟨hc, hw⟩ := not_or.mp (mt List.mem_cons.mpr hw)
    rw [List.cons_append, splitScope, ih hw]
    · rfl
    · intro _ heq
      exact absurd heq.symm hc

private theorem splitScope_chained {ws : List Text} (h : ∀ w ∈ ws, ':' ∉ w) :
    splitScope (Heading.chained ws) = [] :: ws := by
  induction ws with
  | nil => rfl
  | cons w ws ih =>
    obtain ⟨hw, hws⟩ := List.forall_mem_cons.mp h
    rw [Heading.chained_cons, splitScope, splitScope_append hw (ih hws)]

/-- A name is split where its words are chained. -/
theorem splitScope_word_chained {w : Text} {ws : List Text} (hw : ':' ∉ w)
    (hws : ∀ w ∈ ws, ':' ∉ w) : splitScope (w ++ Heading.chained ws) = w :: ws :=
  splitScope_append hw (splitScope_chained hws)

theorem splitScope_word {w : Text} (hw : ':' ∉ w) : splitScope w = [w] := by
  have hchain : splitScope (w ++ Heading.chained []) = [w] :=
    splitScope_word_chained hw (by simp)
  rwa [show Heading.chained [] = [] from rfl, List.append_nil] at hchain

/-- The parts of a chained name are the words it is chained of. -/
theorem isWord_of_mem_splitScope {name : Text} (h : Heading.IsChain name) :
    ∀ part ∈ splitScope name, part.isWord = true := by
  obtain ⟨first, ws, rfl, hfirst, hws⟩ := h
  have hparts : ∀ part ∈ first :: ws, part.isWord = true :=
    List.forall_mem_cons.mpr ⟨Text.isWord_of_isName hfirst, hws⟩
  have hcolon : ∀ part ∈ first :: ws, ':' ∉ part := fun part hpart =>
    Text.not_mem_of_isWord (hparts part hpart) (by decide)
  obtain ⟨hfirst, hws⟩ := List.forall_mem_cons.mp hcolon
  rw [splitScope_word_chained hfirst hws]
  exact hparts

theorem intercalate_colons (w : Text) (ws : List Text) :
    List.intercalate "::".toList (w :: ws) = w ++ Heading.chained ws := by
  induction ws generalizing w with
  | nil => simp [Heading.chained]
  | cons v ws ih =>
    rw [List.intercalate_cons_cons, ih v, Heading.chained_cons, List.append_assoc]
    rfl

def IsPlain (q : QualifiedName) : Prop := ∀ part ∈ q.scope ++ [q.name], ':' ∉ part

private theorem splitScope_render {q : QualifiedName} (h : q.IsPlain) :
    splitScope q.render = q.scope ++ [q.name] := by
  unfold IsPlain at h
  unfold render
  cases hparts : q.scope ++ [q.name] with
  | nil => exact absurd hparts (by simp)
  | cons w ws =>
    obtain ⟨hw, hws⟩ := List.forall_mem_cons.mp (hparts ▸ h)
    rw [intercalate_colons, splitScope_word_chained hw hws]

theorem render_ne_nil {q : QualifiedName} (h : q.IsPlain) (hname : q.name ≠ []) :
    q.render ≠ [] := by
  intro hempty
  have hparts : [] ++ [[]] = q.scope ++ [q.name] := by
    rw [← splitScope_render h, hempty]
    rfl
  obtain ⟨_, hlast⟩ := List.append_inj' hparts rfl
  exact hname (List.singleton_inj.mp hlast).symm

/-- Two names with one spelling are the same name. -/
theorem eq_of_render_eq {a b : QualifiedName} (ha : a.IsPlain) (hb : b.IsPlain)
    (h : a.render = b.render) : a = b := by
  have hparts : a.scope ++ [a.name] = b.scope ++ [b.name] := by
    rw [← splitScope_render ha, ← splitScope_render hb, h]
  obtain ⟨hscope, hname⟩ := List.append_inj' hparts rfl
  obtain ⟨scope, name⟩ := a
  obtain ⟨scope', name'⟩ := b
  obtain rfl : scope = scope' := hscope
  obtain rfl : name = name' := List.singleton_inj.mp hname
  rfl

end Registrar.QualifiedName
