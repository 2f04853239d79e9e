import Registrar.Proofs.FileSystem.Following

/-! What writing a text may change. Before the file is written, missing directories above it are
made: each of them at a free name, below a directory that is there. -/

namespace Registrar.FileSystem

variable {files made after : FileSystem} {path text : Text} {paths : List Text} {place : Location}

/-- Whether a path leads to a free name below a directory, so that a directory can be made there. -/
structure FreeAt (files : FileSystem) (path : Text) (parent : Location) (name : Text) : Prop where
  accepted : Path.refusal? path = none
  parent_eq : files.directoryAt (Path.steps path).dropLast = .ok parent
  last_eq : (Path.steps path).getLast? = some (.name name)
  short : Path.nameIsTooLong name = false
  free : files.get? (parent ++ [name]) = none

theorem exists_of_makeDirectory (h : files.makeDirectory path = .ok made) :
    ∃ parent name, FreeAt files path parent name ∧
      made = files.put (parent ++ [name]) .directory := by
  unfold makeDirectory at h
  split at h
  · cases h
  rename_i hrefusal
  split at h
  · cases h
  rename_i parent hparent
  split at h
  · rename_i name hlast
    split at h
    · cases h
    rename_i hshort
    split at h
    · cases h
    rename_i hfree
    cases h
    exact ⟨parent, name,
      ⟨hrefusal, hparent, hlast, by simpa using hshort, by simpa using hfree⟩, rfl⟩
  · cases h

namespace FreeAt

variable {parent : Location} {name : Text}

private theorem keepsWays (h : FreeAt files path parent name) :
    KeepsWays files (files.put (parent ++ [name]) .directory) :=
  keepsWays_put _ (by simp [h.free]) (by simp [h.free])

private theorem steps_eq (h : FreeAt files path parent name) :
    Path.steps path = (Path.steps path).dropLast ++ [.name name] := by
  obtain ⟨front, hfront⟩ := List.getLast?_eq_some_iff.mp h.last_eq
  rw [hfront, List.dropLast_concat]

/-- The path then leads to the directory that was made. -/
theorem directory?_put (h : FreeAt files path parent name) :
    (files.put (parent ++ [name]) .directory).directory? path = some (parent ++ [name]) := by
  have hparent := follow_of_keepsWays h.keepsWays (fun hne => absurd rfl hne)
    (directoryAt_eq_ok_iff.mp h.parent_eq)
  obtain ⟨left, hleft⟩ := follow_append (List.cons_ne_nil (.name name) []) hparent
  rw [directory?_eq_some_iff, lookup_eq_ok_iff, working_put, h.steps_eq, hleft]
  refine ⟨h.accepted, ?_⟩
  simp [follow, h.short, get?_put_self, (by decide : (Purpose.use == .write) = false)]

/-- A path that leads to a free name does not lead to a directory. -/
theorem directory?_eq_none (h : FreeAt files path parent name) : files.directory? path = none := by
  obtain ⟨left, hleft⟩ := follow_append (List.cons_ne_nil (.name name) [])
    (directoryAt_eq_ok_iff.mp h.parent_eq)
  rw [Option.eq_none_iff_forall_ne_some]
  intro place hplace
  rw [directory?_eq_some_iff, lookup_eq_ok_iff, h.steps_eq, hleft] at hplace
  simp [follow, h.short, h.free, (by decide : (Purpose.use == .write) = false)] at hplace

end FreeAt

private theorem ensureDirectory_of_directory? (h : files.directory? path = some place) :
    files.ensureDirectory path = (.ok (), files) := by
  unfold ensureDirectory
  split
  · rename_i made hmade
    obtain ⟨parent, name, hfree, _⟩ := exists_of_makeDirectory hmade
    rw [hfree.directory?_eq_none] at h
    cases h
  · rw [h, Option.isSome_some, if_pos rfl]

private theorem exists_directory?_of_ensureDirectory
    (h : files.ensureDirectory path = (.ok (), after)) :
    ∃ place, after.directory? path = some place := by
  unfold ensureDirectory at h
  split at h
  · rename_i made hmade
    obtain ⟨parent, name, hfree, rfl⟩ := exists_of_makeDirectory hmade
    cases h
    exact ⟨_, hfree.directory?_put⟩
  · split at h
    · rename_i hthere
      cases h
      exact Option.isSome_iff_exists.mp hthere
    · cases h

section Making

variable {P : FileSystem → Prop}

private theorem ensureDirectory_induction
    (hstep : ∀ made, files.makeDirectory path = .ok made → P made)
    (h : P files) : P (files.ensureDirectory path).2 := by
  unfold ensureDirectory
  split
  · rename_i made hmade
    exact hstep made hmade
  · split
    · exact h
    · exact h

/-- What the making of every single directory keeps, the making of all of them keeps. -/
theorem ensureDirectories_induction
    (hstep : ∀ files made, ∀ path ∈ paths, P files → files.makeDirectory path = .ok made → P made)
    (h : P files) : P (files.ensureDirectories paths).2 := by
  induction paths with
  | nil => exact h
  | cons path above ih =>
    have hone (files : FileSystem) (h : P files) : P (files.ensureDirectory path).2 :=
      ensureDirectory_induction (fun made => hstep files made path List.mem_cons_self h) h
    have habove : P (files.ensureDirectories above).2 :=
      ih fun files made path hpath => hstep files made path (List.mem_cons_of_mem _ hpath)
    unfold ensureDirectories
    split
    · split
      · rename_i made hmade
        rw [hmade] at habove
        exact hone made habove
      · exact habove
    · exact hone files h

end Making

theorem ensureDirectories_of_directory? {above : List Text}
    (h : files.directory? path = some place) :
    files.ensureDirectories (path :: above) = (.ok (), files) := by
  rw [ensureDirectories, ensureDirectory_of_directory? h]

theorem exists_directory?_of_ensureDirectories {above : List Text}
    (h : files.ensureDirectories (path :: above) = (.ok (), after)) :
    ∃ place, after.directory? path = some place := by
  unfold ensureDirectories at h
  split at h
  · split at h
    · exact exists_directory?_of_ensureDirectory h
    · rename_i hfailed
      exact absurd h (hfailed _)
  · exact exists_directory?_of_ensureDirectory h

/-- Whether one file system is another with some directories added, each of which one of the paths
leads to. -/
structure AddsDirectories (paths : List Text) (before after : FileSystem) : Prop where
  working : after.working = before.working
  get?_cases : ∀ place, after.get? place = before.get? place ∨
    before.get? place = none ∧ after.get? place = some .directory ∧
      ∃ path ∈ paths, after.directory? path = some place

namespace AddsDirectories

private theorem refl (paths : List Text) (files : FileSystem) : AddsDirectories paths files files :=
  ⟨rfl, fun _ => .inl rfl⟩

private theorem get?_of_some {node : Node} (h : AddsDirectories paths files after)
    (hnode : files.get? place = some node) : after.get? place = some node := by
  rcases h.get?_cases place with heq | ⟨hnone, _⟩
  · rw [heq, hnode]
  · rw [hnode] at hnone
    cases hnone

private theorem keepsWays (h : AddsDirectories paths files after) : KeepsWays files after :=
  ⟨h.working, fun _ => h.get?_of_some, fun _ _ => h.get?_of_some⟩

private theorem makeDirectory (h : AddsDirectories paths files after) (hpath : path ∈ paths)
    (hmade : after.makeDirectory path = .ok made) : AddsDirectories paths files made := by
  obtain ⟨parent, name, hfree, rfl⟩ := exists_of_makeDirectory hmade
  refine ⟨(working_put _ _ _).trans h.working, fun other => ?_⟩
  by_cases hother : other = parent ++ [name]
  · subst hother
    have hnone : files.get? (parent ++ [name]) = none := by
      rw [Option.eq_none_iff_forall_ne_some]
      intro node hnode
      have hthere := h.get?_of_some hnode
      rw [hfree.free] at hthere
      cases hthere
    exact .inr ⟨hnone, get?_put_self _ _ (by simp), path, hpath, hfree.directory?_put⟩
  · rw [get?_put_of_ne _ _ hother]
    rcases h.get?_cases other with heq | ⟨hnone, hdirectory, above, habove, hplace⟩
    · exact .inl heq
    · exact .inr ⟨hnone, hdirectory, above, habove, directory?_of_keepsWays hfree.keepsWays hplace⟩

end AddsDirectories

/-- Making directories adds nothing but directories that the paths lead to. -/
theorem addsDirectories_ensureDirectories (files : FileSystem) (paths : List Text) :
    AddsDirectories paths files (files.ensureDirectories paths).2 :=
  ensureDirectories_induction (fun _ _ _ hpath h hmade => h.makeDirectory hpath hmade)
    (.refl paths files)

private theorem exists_of_writeBytes {bytes : List UInt8}
    (h : files.writeBytes path bytes = .ok after) :
    ∃ dest place, files.lookup .write path = .ok dest ∧ dest.target? = some place ∧
      after = files.put place (.file bytes) := by
  unfold writeBytes at h
  split at h
  · cases h
  · rename_i place node hnode hdest
    cases h
    refine ⟨_, place, hdest, ?_, rfl⟩
    cases node with
    | directory => exact absurd rfl hnode
    | file bytes => rfl
    | link target => rfl
  · rename_i place hdest
    cases h
    exact ⟨_, place, hdest, rfl, rfl⟩
  · cases h

/-- What writing a text does to a file system: directories above the path are made, then a file is
put at the place that the path leads to, which held none or an older file. -/
structure Writes (path text : Text) (files made after : FileSystem) (place : Location) : Prop where
  ensured : files.ensureDirectories (Path.ancestors path).tail = (.ok (), made)
  leads : ∃ dest, made.lookup .write path = .ok dest ∧ dest.target? = some place
  after_eq : after = made.put place (.file (Text.encode text))

theorem exists_of_writeText (h : files.writeText path text = (.ok (), after)) :
    ∃ made place, Writes path text files made after place := by
  unfold writeText at h
  split at h
  · rename_i made hmade
    split at h
    · rename_i written hwritten
      cases h
      obtain ⟨dest, place, hdest, htarget, rfl⟩ := exists_of_writeBytes hwritten
      exact ⟨made, place, hmade, ⟨dest, hdest, htarget⟩, rfl⟩
    · cases h
  · rename_i hfailed
    exact absurd h (hfailed after)

namespace Writes

private theorem adds (h : Writes path text files made after place) :
    AddsDirectories (Path.ancestors path).tail files made := by
  have hadds := addsDirectories_ensureDirectories files (Path.ancestors path).tail
  rwa [h.ensured] at hadds

theorem place_ne_nil (h : Writes path text files made after place) : place ≠ [] := by
  obtain ⟨dest, hdest, htarget⟩ := h.leads
  exact (get?_of_follow_write (lookup_eq_ok_iff.mp hdest).2 htarget).1

theorem get?_made (h : Writes path text files made after place) :
    made.get? place = none ∨ ∃ bytes, made.get? place = some (.file bytes) := by
  obtain ⟨dest, hdest, htarget⟩ := h.leads
  exact (get?_of_follow_write (lookup_eq_ok_iff.mp hdest).2 htarget).2

theorem get?_place (h : Writes path text files made after place) :
    after.get? place = some (.file (Text.encode text)) := by
  rw [h.after_eq, get?_put_self made _ h.place_ne_nil]

theorem keepsWays_made (h : Writes path text files made after place) : KeepsWays made after := by
  rw [h.after_eq]
  rcases h.get?_made with hnone | ⟨bytes, hfile⟩
  · exact keepsWays_put _ (by simp [hnone]) (by simp [hnone])
  · exact keepsWays_put _ (by simp [hfile]) (by simp [hfile])

theorem keepsWays (h : Writes path text files made after place) : KeepsWays files after :=
  h.adds.keepsWays.trans h.keepsWays_made

/-- The path leads to the file that was written, for reading and for writing. -/
theorem lookup_eq (h : Writes path text files made after place) (purpose : Purpose) :
    after.lookup purpose path = .ok (.found place (.file (Text.encode text))) := by
  obtain ⟨dest, hdest, htarget⟩ := h.leads
  rw [lookup_eq_ok_iff] at hdest ⊢
  rw [h.keepsWays_made.working]
  exact ⟨hdest.1, follow_written h.keepsWays_made hdest.2 htarget h.get?_place⟩

/-- Every place but that of the file is as before, or a directory that was made above it. -/
theorem get?_cases (h : Writes path text files made after place) {other : Location}
    (hother : other ≠ place) :
    after.get? other = files.get? other ∨
      files.get? other = none ∧ after.get? other = some .directory ∧
        ∃ above ∈ (Path.ancestors path).tail, after.directory? above = some other := by
  have hmade : after.get? other = made.get? other := by
    rw [h.after_eq, get?_put_of_ne made _ hother]
  rw [hmade]
  rcases h.adds.get?_cases other with heq | ⟨hnone, hdirectory, above, habove, hplace⟩
  · exact .inl heq
  · exact .inr ⟨hnone, hdirectory, above, habove, directory?_of_keepsWays h.keepsWays_made hplace⟩

/-- No file but the written one changes, appears or disappears. -/
theorem get?_file_iff (h : Writes path text files made after place) {other : Location}
    (hother : other ≠ place) (bytes : List UInt8) :
    after.get? other = some (.file bytes) ↔ files.get? other = some (.file bytes) := by
  rcases h.get?_cases hother with heq | ⟨hnone, hdirectory, _⟩
  · rw [heq]
  · rw [hnone, hdirectory]
    simp

end Writes

end Registrar.FileSystem
