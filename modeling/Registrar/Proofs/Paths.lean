import Registrar.FileSystem.Lookup
import Registrar.Proofs.Text.Pieces
import Registrar.Settings

/-! Paths below a directory. A name joined to a path is one more step and one more component at its
end, whatever the path looks like. -/

namespace Registrar

namespace Path

/-- Whether a text can be the name of an entry of a directory. -/
structure IsName (name : Text) : Prop where
  ne_nil : name ≠ []
  slash : '/' ∉ name
  nul : '\x00' ∉ name
  here : name ≠ ".".toList
  up : name ≠ "..".toList

instance (name : Text) : Decidable (IsName name) :=
  decidable_of_iff (name ≠ [] ∧ '/' ∉ name ∧ '\x00' ∉ name ∧ name ≠ ".".toList ∧ name ≠ "..".toList)
    ⟨fun ⟨hne, hslash, hnul, hhere, hup⟩ => ⟨hne, hslash, hnul, hhere, hup⟩,
      fun h => ⟨h.ne_nil, h.slash, h.nul, h.here, h.up⟩⟩

variable {directory path root name : Text} {names : List Text}

private theorem ofPiece_of_isName (h : IsName name) : Component.ofPiece name = .name name := by
  rw [Component.ofPiece, if_neg h.here, if_neg h.up]

theorem ofPiece_ne_root (piece : Text) : Component.ofPiece piece ≠ .root := by
  unfold Component.ofPiece
  split
  · simp
  · split <;> simp

theorem ne_nil_of_refusal? (h : refusal? path = none) : path ≠ [] := by
  rintro rfl
  simp [refusal?] at h

theorem length_le_of_refusal? (h : refusal? path = none) : path.byteLength ≤ maxBytes := by
  rw [← Nat.not_lt]
  intro hlong
  rw [refusal?, if_pos hlong] at h
  split at h <;> cases h

/-- The steps of a path that is not refused go through proper names. -/
theorem isName_of_mem_steps (hpath : refusal? path = none) (h : .name name ∈ steps path) :
    IsName name := by
  have hnul : '\x00' ∉ path := by
    intro hmem
    simp [refusal?, hmem] at hpath
  have hpiece : ∃ piece ∈ pieces path, Component.ofPiece piece = .name name := by
    unfold steps at h
    split at h <;> simpa using h
  obtain ⟨piece, hmem, hpiece⟩ := hpiece
  obtain ⟨hsplit, hne⟩ := List.mem_filter.mp hmem
  obtain ⟨hslash, hchars⟩ := Text.of_mem_splitAt hsplit
  unfold Component.ofPiece at hpiece
  split at hpiece
  · cases hpiece
  rename_i hhere
  split at hpiece
  · cases hpiece
  rename_i hup
  cases hpiece
  exact ⟨by simpa using hne, hslash, fun hmem => hnul (hchars _ hmem), hhere, hup⟩

theorem join_of_isName (hdirectory : directory ≠ []) (h : IsName name) :
    join directory name =
      if directory.getLast? = some '/' then directory ++ name else directory ++ '/' :: name := by
  have hrelative : isAbsolute name = false := by
    cases name with
    | nil => rfl
    | cons c name =>
      have hc : c ≠ '/' := fun hc => h.slash (hc ▸ List.mem_cons_self)
      simpa [isAbsolute] using hc
  simp [join, hrelative, hdirectory]

private theorem join_ne_nil (h : IsName name) : join directory name ≠ [] := by
  unfold join
  split
  · exact h.ne_nil
  · split <;> simp_all

private theorem isAbsolute_join (hdirectory : directory ≠ []) (h : IsName name) :
    isAbsolute (join directory name) = isAbsolute directory := by
  obtain ⟨c, rest, rfl⟩ := List.exists_cons_of_ne_nil hdirectory
  rw [join_of_isName hdirectory h]
  split <;> rfl

private theorem pieces_join (hdirectory : directory ≠ []) (h : IsName name) :
    pieces (join directory name) = pieces directory ++ [name] := by
  rw [join_of_isName hdirectory h]
  split
  · rename_i hlast
    obtain ⟨front, rfl⟩ := List.getLast?_eq_some_iff.mp hlast
    rw [List.append_assoc, List.singleton_append, pieces, pieces, Text.splitAt_append_cons,
      Text.splitAt_append_cons, Text.splitAt_of_not_mem h.slash]
    simp [Text.splitAt, h.ne_nil]
  · rw [pieces, pieces, Text.splitAt_append_cons, Text.splitAt_of_not_mem h.slash]
    simp [h.ne_nil]

private theorem steps_join (hdirectory : directory ≠ []) (h : IsName name) :
    steps (join directory name) = steps directory ++ [.name name] := by
  simp [steps, isAbsolute_join hdirectory h, pieces_join hdirectory h, ofPiece_of_isName h]

private theorem pieces_ne_nil (hdirectory : directory ≠ []) (h : isAbsolute directory = false) :
    pieces directory ≠ [] := by
  obtain ⟨c, rest, rfl⟩ := List.exists_cons_of_ne_nil hdirectory
  have hc : c ≠ '/' := by simpa [isAbsolute] using h
  obtain ⟨piece, more, hpieces⟩ := Text.exists_splitAt_cons hc rest
  simp [pieces, hpieces]

private theorem components_join (hdirectory : directory ≠ []) (h : IsName name) :
    components (join directory name) = components directory ++ [.name name] := by
  unfold components
  rw [isAbsolute_join hdirectory h, pieces_join hdirectory h, List.map_append]
  cases habsolute : isAbsolute directory with
  | true => simp [ofPiece_of_isName h]
  | false =>
    obtain ⟨first, more, hpieces⟩ := List.exists_cons_of_ne_nil (pieces_ne_nil hdirectory habsolute)
    simp [hpieces, ofPiece_of_isName h]

section Below

variable (hroot : root ≠ []) (hnames : ∀ name ∈ names, IsName name)

include hroot hnames

private theorem foldl_join_ne_nil : names.foldl join root ≠ [] := by
  induction names generalizing root with
  | nil => exact hroot
  | cons name names ih =>
    obtain ⟨hname, hnames⟩ := List.forall_mem_cons.mp hnames
    exact ih (join_ne_nil hname) hnames

/-- What a path shows of its steps, it shows of the names below it. -/
theorem foldl_join_eq {view : Text → List Component}
    (hview : ∀ directory name, directory ≠ [] → IsName name →
      view (join directory name) = view directory ++ [.name name]) :
    view (names.foldl join root) = view root ++ names.map .name := by
  induction names generalizing root with
  | nil => simp
  | cons name names ih =>
    obtain ⟨hname, hnames⟩ := List.forall_mem_cons.mp hnames
    rw [List.foldl_cons, ih (join_ne_nil hname) hnames, hview root name hroot hname]
    simp

theorem steps_foldl_join : steps (names.foldl join root) = steps root ++ names.map .name :=
  foldl_join_eq hroot hnames fun _ _ => steps_join

theorem components_foldl_join :
    components (names.foldl join root) = components root ++ names.map .name :=
  foldl_join_eq hroot hnames fun _ _ => components_join

private theorem not_mem_foldl_join {c : Char} (hc : c ≠ '/') (hmem : c ∉ root)
    (hall : ∀ name ∈ names, c ∉ name) : c ∉ names.foldl join root := by
  induction names generalizing root with
  | nil => exact hmem
  | cons name names ih =>
    obtain ⟨hname, hnames⟩ := List.forall_mem_cons.mp hnames
    obtain ⟨hfirst, hall⟩ := List.forall_mem_cons.mp hall
    refine ih (join_ne_nil hname) hnames ?_ hall
    rw [join_of_isName hroot hname]
    split <;> simp [hmem, hfirst, hc]

end Below

/-- Below a root that is not refused, a path is refused for nothing but its length. -/
theorem refusal?_foldl_join (haccepted : refusal? root = none)
    (hnames : ∀ name ∈ names, IsName name) :
    refusal? (names.foldl join root) =
      if maxBytes < (names.foldl join root).byteLength then some .nameTooLong else none := by
  have hroot := ne_nil_of_refusal? haccepted
  have hnul : '\x00' ∉ root := by
    intro hmem
    simp [refusal?, hmem] at haccepted
  have hpath := not_mem_foldl_join hroot hnames (by decide) hnul fun name hname =>
    (hnames name hname).nul
  simp [refusal?, hpath, foldl_join_ne_nil hroot hnames]

private theorem components_of_steps {front : List Component}
    (h : (pieces path).map Component.ofPiece = front ++ [.name name]) :
    (components path).getLast? = some (.name name) := by
  have hkept (kept : List Component) :
      (kept ++ [Component.name name]).filter (· != .here) =
        kept.filter (· != .here) ++ [.name name] := by
    simp
  simp only [components, h]
  split
  · rw [hkept, ← List.cons_append, List.getLast?_concat]
  · cases front with
    | nil => rfl
    | cons first more =>
      simp only [List.cons_append]
      rw [hkept, ← List.cons_append, List.getLast?_concat]

theorem fileName?_of_steps (h : (steps path).getLast? = some (.name name)) :
    fileName? path = some name := by
  have hpieces : ∃ front, (pieces path).map Component.ofPiece = front ++ [.name name] := by
    rw [← List.getLast?_eq_some_iff]
    unfold steps at h
    split at h
    · rw [List.getLast?_append] at h
      cases hlast : ((pieces path).map Component.ofPiece).getLast? with
      | none => simp [hlast] at h
      | some last => simpa [hlast] using h
    · simpa using h
  obtain ⟨front, hfront⟩ := hpieces
  rw [fileName?, components_of_steps hfront]

theorem fileName?_foldl_join (hroot : root ≠ []) (hnames : ∀ name ∈ names, IsName name)
    (hlast : names.getLast? = some name) : fileName? (names.foldl join root) = some name := by
  rw [fileName?, components_foldl_join hroot hnames, List.getLast?_append, List.getLast?_map, hlast]
  rfl

theorem mem_components_of_mem_steps {component : Component} (h : component ∈ steps path)
    (hhere : component ≠ .here) : component ∈ components path := by
  unfold steps at h
  unfold components
  split
  · rename_i habsolute
    rw [if_pos habsolute] at h
    simpa [hhere] using h
  · rename_i hrelative
    rw [if_neg hrelative, List.nil_append] at h
    cases hpieces : (pieces path).map Component.ofPiece with
    | nil => simp [hpieces] at h
    | cons first more => simpa [hpieces, hhere] using h

/-- The component that a path starts with if it is no name: the root, or `.`. -/
def origin? (path : Text) : Option Component :=
  (components path).head?.filter fun component => component == .root || component == .here

private theorem exists_names_of_pieces {pieces : List Text}
    (h : .up ∉ pieces.map Component.ofPiece) : ∃ names : List Text,
      (pieces.map Component.ofPiece).filter (· != .here) = names.map Component.name := by
  induction pieces with
  | nil => exact ⟨[], rfl⟩
  | cons piece pieces ih =>
    obtain ⟨hpiece, hpieces⟩ := not_or.mp (mt List.mem_cons.mpr h)
    obtain ⟨names, hnames⟩ := ih hpieces
    cases hcase : Component.ofPiece piece with
    | root => exact absurd hcase (ofPiece_ne_root piece)
    | here => exact ⟨names, by simpa [hcase] using hnames⟩
    | up => exact absurd hcase.symm hpiece
    | name name => exact ⟨name :: names, by simpa [hcase] using hnames⟩

/-- A path without `..` is told by its origin and its names. -/
theorem exists_names_of_components (hup : .up ∉ components path) :
    ∃ names : List Text, components path = (origin? path).toList ++ names.map Component.name := by
  unfold origin?
  simp only [components] at hup ⊢
  split
  · rename_i habsolute
    rw [if_pos habsolute] at hup
    have hpieces : .up ∉ (pieces path).map Component.ofPiece := by simpa using hup
    obtain ⟨names, hnames⟩ := exists_names_of_pieces hpieces
    rw [hnames]
    exact ⟨names, rfl⟩
  · rename_i hrelative
    rw [if_neg hrelative] at hup
    cases hpieces : pieces path with
    | nil => exact ⟨[], rfl⟩
    | cons piece more =>
      simp only [hpieces, List.map_cons] at hup ⊢
      obtain ⟨hpiece, hmore⟩ := not_or.mp (mt List.mem_cons.mpr hup)
      have hnamed : .up ∉ more.map Component.ofPiece := by simpa using hmore
      obtain ⟨names, hnames⟩ := exists_names_of_pieces hnamed
      rw [hnames]
      cases hcase : Component.ofPiece piece with
      | root => exact absurd hcase (ofPiece_ne_root piece)
      | here => exact ⟨names, rfl⟩
      | up => exact absurd hcase.symm hpiece
      | name name => exact ⟨name :: names, rfl⟩

end Path

/-- Whether a path is that of a header depends on its file name alone. -/
theorem Settings.isHeader_congr (settings : Settings) {path other : Text}
    (h : Path.fileName? path = Path.fileName? other) :
    settings.isHeader path = settings.isHeader other := by
  rw [isHeader, isHeader, Path.extension?, Path.extension?, h]

end Registrar
