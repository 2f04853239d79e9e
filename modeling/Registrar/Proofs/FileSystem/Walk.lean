import Registrar.Discovery
import Registrar.Proofs.FileSystem.Tree

/-! What a walk below a directory finds. In a tree every node below the directory is met once, in
the order of the names that lead to it, so the headers found depend on nothing but which header
files there are. -/

namespace Registrar

/-- Whether a test compares any two different values, one way only. -/
structure IsOrder {α : Type} (le : α → α → Bool) : Prop where
  total : ∀ {a b}, a ≠ b → le a b = true ∨ le b a = true
  antisymm : ∀ {a b}, le a b = true → le b a = true → a = b
  trans : ∀ {a b c}, le a b = true → le b c = true → le a c = true

/-- The comparison of lists at the first entry in which they differ. -/
def compareFirst {α : Type} [DecidableEq α] (le : α → α → Bool) : List α → List α → Bool
  | [], _ => true
  | _ :: _, [] => false
  | a :: s, b :: t => if a = b then compareFirst le s t else le a b

section CompareFirst

variable {α : Type} [DecidableEq α] {le : α → α → Bool}

private theorem compareFirst_total (h : IsOrder le) (s t : List α) :
    compareFirst le s t = true ∨ compareFirst le t s = true := by
  induction s generalizing t with
  | nil => simp [compareFirst]
  | cons a s ih =>
    cases t with
    | nil => simp [compareFirst]
    | cons b t =>
      by_cases hab : a = b
      · simpa [compareFirst, hab] using ih t
      · simpa [compareFirst, hab, Ne.symm hab] using h.total hab

private theorem compareFirst_antisymm (h : IsOrder le) {s t : List α}
    (hst : compareFirst le s t = true) (hts : compareFirst le t s = true) : s = t := by
  induction s generalizing t with
  | nil =>
    cases t with
    | nil => rfl
    | cons b t => cases hts
  | cons a s ih =>
    cases t with
    | nil => cases hst
    | cons b t =>
      by_cases hab : a = b
      · subst hab
        simp only [compareFirst, if_true] at hst hts
        rw [ih hst hts]
      · simp only [compareFirst, hab, Ne.symm hab, if_false] at hst hts
        exact absurd (h.antisymm hst hts) hab

private theorem compareFirst_trans (h : IsOrder le) {s t u : List α}
    (hst : compareFirst le s t = true)
    (htu : compareFirst le t u = true) : compareFirst le s u = true := by
  induction s generalizing t u with
  | nil => rfl
  | cons a s ih =>
    match t, u, hst, htu with
    | b :: t, c :: u, hst, htu =>
      simp only [compareFirst] at hst htu ⊢
      by_cases hab : a = b
      · subst hab
        by_cases hac : a = c
        · simp only [hac, if_true] at hst htu ⊢
          exact ih hst htu
        · simpa only [hac, if_false] using htu
      · rw [if_neg hab] at hst
        by_cases hbc : b = c
        · subst hbc
          rwa [if_neg hab]
        · rw [if_neg hbc] at htu
          -- Equal ends would make the middle equal to both.
          have hac : a ≠ c := fun hac => hab (h.antisymm hst (hac ▸ htu))
          rw [if_neg hac]
          exact h.trans hst htu

private theorem IsOrder.compareFirst (h : IsOrder le) : IsOrder (compareFirst le) where
  total {s t} _ := compareFirst_total h s t
  antisymm := compareFirst_antisymm h
  trans := compareFirst_trans h

end CompareFirst

private theorem isOrder_toNat : IsOrder fun a b : Char => decide (a.toNat < b.toNat) where
  total {a b} hab := by
    have hne : a.toNat ≠ b.toNat := fun heq => hab (Char.toNat_inj.mp heq)
    simp only [decide_eq_true_eq]
    omega
  antisymm hab hba := by
    simp only [decide_eq_true_eq] at hab hba
    omega
  trans hab hbc := by
    simp only [decide_eq_true_eq] at hab hbc ⊢
    omega

private theorem Text.le_eq_compareFirst :
    Text.le = compareFirst fun a b : Char => decide (a.toNat < b.toNat) := by
  funext s t
  induction s generalizing t with
  | nil => rfl
  | cons a s ih =>
    cases t with
    | nil => rfl
    | cons b t => rw [Text.le, compareFirst, ih]

private theorem Location.le_eq_compareFirst : Location.le = compareFirst Text.le := by
  funext s t
  induction s generalizing t with
  | nil => rfl
  | cons a s ih =>
    cases t with
    | nil => rfl
    | cons b t => rw [Location.le, compareFirst, ih]

private theorem Text.isOrder_le : IsOrder Text.le :=
  Text.le_eq_compareFirst ▸ isOrder_toNat.compareFirst

private theorem Location.le_total (s t : Location) :
    Location.le s t = true ∨ Location.le t s = true :=
  Location.le_eq_compareFirst ▸ compareFirst_total Text.isOrder_le s t

private theorem Location.isOrder_le : IsOrder Location.le :=
  Location.le_eq_compareFirst ▸ Text.isOrder_le.compareFirst

namespace FileSystem

variable {files : FileSystem} {place : Location} {names : List Text} {node : Node}

private theorem namesBelow?_eq_some_iff {above : Location} :
    namesBelow? above place = some names ↔ place = above ++ names := by
  induction above generalizing place with
  | nil => simp [namesBelow?]
  | cons a above ih =>
    cases place with
    | nil => simp [namesBelow?]
    | cons b place =>
      by_cases h : a = b
      · simp [namesBelow?, h, ih]
      · simp [namesBelow?, h, Ne.symm h]

def entryBelow? (place : Location) (entry : Location × Node) : Option (List Text × Node) :=
  match namesBelow? place entry.1 with
  | some (name :: names) => some (name :: names, entry.2)
  | _ => none

private theorem entryBelow?_eq_some_iff {entry : Location × Node} {found : List Text × Node} :
    entryBelow? place entry = some found ↔
      found.1 ≠ [] ∧ entry = (place ++ found.1, found.2) := by
  obtain ⟨spot, node⟩ := entry
  obtain ⟨names, node'⟩ := found
  unfold entryBelow?
  split
  · rename_i name more hnames
    rw [namesBelow?_eq_some_iff] at hnames
    subst hnames
    simp only [Option.some.injEq, Prod.mk.injEq, List.append_cancel_left_eq]
    constructor
    · rintro ⟨rfl, rfl⟩
      exact ⟨List.cons_ne_nil _ _, rfl, rfl⟩
    · rintro ⟨_, rfl, rfl⟩
      exact ⟨rfl, rfl⟩
  · rename_i hnames
    simp only [reduceCtorEq, Prod.mk.injEq, false_iff]
    rintro ⟨hne, rfl, rfl⟩
    obtain ⟨name, more, rfl⟩ := List.exists_cons_of_ne_nil hne
    exact hnames name more (namesBelow?_eq_some_iff.mpr rfl)

private theorem below_eq (files : FileSystem) (place : Location) :
    files.below place =
      (files.nodes.filterMap (entryBelow? place)).mergeSort fun a b => Location.le a.1 b.1 := rfl

private theorem mem_below_iff (h : IsTree files) :
    (names, node) ∈ files.below place ↔ names ≠ [] ∧ files.get? (place ++ names) = some node := by
  rw [below_eq, List.mem_mergeSort, List.mem_filterMap]
  constructor
  · rintro ⟨entry, hentry, hfound⟩
    obtain ⟨hne, rfl⟩ := entryBelow?_eq_some_iff.mp hfound
    exact ⟨hne, h.get?_of_mem hentry⟩
  · rintro ⟨hne, hnode⟩
    exact ⟨(place ++ names, node), mem_nodes_of_get? (by simp [hne]) hnode,
      entryBelow?_eq_some_iff.mpr ⟨hne, rfl⟩⟩

private theorem pairwise_below (files : FileSystem) (place : Location) :
    (files.below place).Pairwise fun a b => Location.le a.1 b.1 = true := by
  have htrans (a b c : List Text × Node) (hab : Location.le a.1 b.1 = true)
      (hbc : Location.le b.1 c.1 = true) : Location.le a.1 c.1 = true :=
    Location.isOrder_le.trans hab hbc
  have htotal (a b : List Text × Node) : (Location.le a.1 b.1 || Location.le b.1 a.1) = true := by
    rw [Bool.or_eq_true]
    exact Location.le_total a.1 b.1
  rw [below_eq]
  exact List.pairwise_mergeSort htrans htotal _

/-- No two entries of a walk have the same names. -/
theorem pairwise_below_ne (h : IsTree files) (place : Location) :
    (files.below place).Pairwise fun a b => a.1 ≠ b.1 := by
  have hplaces : (files.nodes.filterMap (entryBelow? place)).Pairwise fun a b => a.1 ≠ b.1 := by
    have hnodes : files.nodes.Pairwise fun a b => a.1 ≠ b.1 := List.pairwise_map.mp h.nodup
    refine List.Pairwise.filterMap _ ?_ hnodes
    intro entry other hne found hfound found' hfound' hnames
    obtain ⟨_, rfl⟩ := entryBelow?_eq_some_iff.mp hfound
    obtain ⟨_, rfl⟩ := entryBelow?_eq_some_iff.mp hfound'
    exact hne (by rw [hnames])
  exact (List.mergeSort_perm _ _).symm.pairwise hplaces Ne.symm

theorem unreadable?_eq_none_iff (h : IsTree files) (root : Text) (place : Location) :
    files.unreadable? root place = none ↔
      ∀ names, names ≠ [] → files.get? (place ++ names) = some .directory →
        Path.refusal? (names.foldl Path.join root) = none := by
  rw [unreadable?, List.findSome?_eq_none_iff]
  constructor
  · intro hall names hne hnode
    simpa using hall (names, .directory) ((mem_below_iff h).mpr ⟨hne, hnode⟩)
  · rintro hall ⟨names, node⟩ hmem
    obtain ⟨hne, hnode⟩ := (mem_below_iff h).mp hmem
    cases node with
    | directory => simpa using hall names hne hnode
    | file bytes => rfl
    | link target => rfl

theorem exists_of_unreadable? (h : IsTree files) {root path : Text} {cause : FileFault}
    (hfound : files.unreadable? root place = some (path, cause)) :
    ∃ names, names ≠ [] ∧ files.get? (place ++ names) = some .directory ∧
      path = names.foldl Path.join root ∧ Path.refusal? path = some cause := by
  obtain ⟨⟨names, node⟩, hmem, hrefused⟩ := List.exists_of_findSome?_eq_some hfound
  obtain ⟨hne, hnode⟩ := (mem_below_iff h).mp hmem
  cases node with
  | directory =>
    obtain ⟨cause', hcause, hpair⟩ := Option.map_eq_some_iff.mp hrefused
    cases hpair
    exact ⟨names, hne, hnode, rfl, hcause⟩
  | file bytes => cases hrefused
  | link target => cases hrefused

end FileSystem

namespace Settings

variable {settings : Settings} {files after : FileSystem} {place : Location} {root : Text}
  {names : List Text}

def isHeaderEntry (settings : Settings) (root : Text) (entry : List Text × Node) : Bool :=
  match entry.2 with
  | .file _ => settings.isHeader (entry.1.foldl Path.join root)
  | _ => false

def headerNames (settings : Settings) (files : FileSystem) (root : Text) (place : Location) :
    List (List Text) :=
  ((files.below place).filter (settings.isHeaderEntry root)).map Prod.fst

theorem headersBelow_eq (settings : Settings) (files : FileSystem) (root : Text)
    (place : Location) :
    settings.headersBelow files root place =
      (settings.headerNames files root place).map (·.foldl Path.join root) := by
  unfold headersBelow headerNames
  induction files.below place with
  | nil => rfl
  | cons entry more ih =>
    obtain ⟨names, node⟩ := entry
    cases node with
    | directory => simpa [isHeaderEntry] using ih
    | link target => simpa [isHeaderEntry] using ih
    | file bytes =>
      by_cases hheader : settings.isHeader (names.foldl Path.join root) = true
      · simpa [isHeaderEntry, hheader] using ih
      · simpa [isHeaderEntry, hheader] using ih

theorem mem_headerNames_iff (h : files.IsTree) :
    names ∈ settings.headerNames files root place ↔
      names ≠ [] ∧ (∃ bytes, files.get? (place ++ names) = some (.file bytes)) ∧
        settings.isHeader (names.foldl Path.join root) = true := by
  simp only [headerNames, List.mem_map, List.mem_filter]
  constructor
  · rintro ⟨⟨names, node⟩, ⟨hmem, hheader⟩, rfl⟩
    obtain ⟨hne, hnode⟩ := (FileSystem.mem_below_iff h).mp hmem
    cases node with
    | file bytes => exact ⟨hne, ⟨bytes, hnode⟩, hheader⟩
    | directory => cases hheader
    | link target => cases hheader
  · rintro ⟨hne, ⟨bytes, hnode⟩, hheader⟩
    exact ⟨(names, .file bytes), ⟨(FileSystem.mem_below_iff h).mpr ⟨hne, hnode⟩, hheader⟩, rfl⟩

theorem nodup_headerNames (h : files.IsTree) :
    (settings.headerNames files root place).Nodup :=
  List.pairwise_map.mpr ((FileSystem.pairwise_below_ne h place).filter _)

private theorem pairwise_headerNames (settings : Settings) (files : FileSystem) (root : Text)
    (place : Location) :
    (settings.headerNames files root place).Pairwise fun a b => Location.le a b = true :=
  List.pairwise_map.mpr ((FileSystem.pairwise_below files place).filter _)

/-- The same header files below a place are listed alike. -/
theorem headerNames_congr (h : files.IsTree) (hafter : after.IsTree)
    (hmem : ∀ names, names ∈ settings.headerNames files root place ↔
      names ∈ settings.headerNames after root place) :
    settings.headerNames files root place = settings.headerNames after root place := by
  have hperm : (settings.headerNames files root place).Perm
      (settings.headerNames after root place) :=
    (List.perm_ext_iff_of_nodup (nodup_headerNames h) (nodup_headerNames hafter)).mpr hmem
  exact hperm.eq_of_pairwise (fun _ _ _ _ => Location.isOrder_le.antisymm)
    (pairwise_headerNames settings files root place)
    (pairwise_headerNames settings after root place)

end Settings

end Registrar
