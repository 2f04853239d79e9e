import Registrar.Proofs.FileSystem.Writing
import Registrar.Proofs.Paths

/-! File systems that are trees without links. There a path leads where its steps say, whatever
stands at other places, and writing a file keeps the tree. -/

namespace Registrar

def Node.isLink : Node → Bool
  | .link _ => true
  | _ => false

namespace Location

/-- The place that one step leads to if nothing is in its way. -/
def step (place : Location) : Component → Location
  | .root => []
  | .here => place
  | .up => place.dropLast
  | .name name => place ++ [name]

/-- Steps that neither go up nor start anew stay below the place they start from. -/
theorem prefix_foldl_step {steps : List Component}
    (h : ∀ component ∈ steps, component ≠ .up ∧ component ≠ .root) (place : Location) :
    place <+: steps.foldl step place := by
  induction steps generalizing place with
  | nil => exact List.prefix_rfl
  | cons component more ih =>
    obtain ⟨⟨hup, hroot⟩, hmore⟩ := List.forall_mem_cons.mp h
    cases component with
    | root => exact absurd rfl hroot
    | here => exact ih hmore place
    | up => exact absurd rfl hup
    | name name => exact (List.prefix_append place [name]).trans (ih hmore _)

private theorem foldl_step_filter (steps : List Component) (place : Location) :
    (steps.filter (· != .here)).foldl step place = steps.foldl step place := by
  induction steps generalizing place with
  | nil => rfl
  | cons component more ih =>
    cases component with
    | here => exact ih place
    | root => exact ih []
    | up => exact ih place.dropLast
    | name name => exact ih (place ++ [name])

private theorem foldl_step_names (names : List Text) (place : Location) :
    (names.map Component.name).foldl step place = place ++ names := by
  induction names generalizing place with
  | nil => simp
  | cons name names ih => simp [step, ih]

end Location

namespace FileSystem

/-- Whether the nodes form a tree without links: every place is listed once, under proper names, and
lies in a directory, and relative paths start at a directory. -/
structure IsTree (files : FileSystem) : Prop where
  nodup : (files.nodes.map Prod.fst).Nodup
  ne_nil : ∀ entry ∈ files.nodes, entry.1 ≠ []
  isName : ∀ entry ∈ files.nodes, ∀ name ∈ entry.1, Path.IsName name
  parent : ∀ entry ∈ files.nodes, files.get? entry.1.dropLast = some .directory
  isLink : ∀ entry ∈ files.nodes, entry.2.isLink = false
  working : files.get? files.working = some .directory

instance (files : FileSystem) : Decidable files.IsTree :=
  decidable_of_iff ((files.nodes.map Prod.fst).Nodup ∧ (∀ entry ∈ files.nodes, entry.1 ≠ []) ∧
      (∀ entry ∈ files.nodes, ∀ name ∈ entry.1, Path.IsName name) ∧
      (∀ entry ∈ files.nodes, files.get? entry.1.dropLast = some .directory) ∧
      (∀ entry ∈ files.nodes, entry.2.isLink = false) ∧
      files.get? files.working = some .directory)
    ⟨fun ⟨hnodup, hne, hname, hparent, hlink, hworking⟩ =>
        ⟨hnodup, hne, hname, hparent, hlink, hworking⟩,
      fun h => ⟨h.nodup, h.ne_nil, h.isName, h.parent, h.isLink, h.working⟩⟩

/-- The place that a path names, whether or not there is something. -/
def placeOf (files : FileSystem) (path : Text) : Location :=
  (Path.steps path).foldl Location.step files.working

variable {files : FileSystem} {purpose : Purpose} {links : Nat} {slash : Bool}
  {start place parent : Location} {steps : List Component} {node : Node} {dest : Destination}
  {path name : Text} {names : List Text}

/-- The place of a path is told by its components. -/
theorem foldl_components (files : FileSystem) (path : Text) :
    (Path.components path).foldl Location.step files.working = files.placeOf path := by
  simp only [placeOf, Path.components, Path.steps]
  split
  · exact Location.foldl_step_filter _ _
  · cases (Path.pieces path).map Component.ofPiece with
    | nil => rfl
    | cons first more => exact Location.foldl_step_filter more _

theorem placeOf_foldl_join (files : FileSystem) {root : Text} (hroot : root ≠ [])
    (hnames : ∀ name ∈ names, Path.IsName name) :
    files.placeOf (names.foldl Path.join root) = files.placeOf root ++ names := by
  rw [placeOf, Path.steps_foldl_join hroot hnames, List.foldl_append, Location.foldl_step_names]
  rfl

/-- Two paths of one file that never go up and start alike have the same components. -/
theorem components_eq_of_placeOf_eq {path other : Text}
    (hplace : files.placeOf path = files.placeOf other) (hpath : .up ∉ Path.components path)
    (hother : .up ∉ Path.components other) (horigin : Path.origin? path = Path.origin? other) :
    Path.components path = Path.components other := by
  obtain ⟨names, hnames⟩ := Path.exists_names_of_components hpath
  obtain ⟨names', hnames'⟩ := Path.exists_names_of_components hother
  rw [← files.foldl_components path, ← files.foldl_components other, hnames, hnames', horigin,
    List.foldl_append, List.foldl_append, Location.foldl_step_names,
    Location.foldl_step_names] at hplace
  rw [hnames, hnames', horigin, List.append_cancel_left hplace]

private theorem get?_nil (files : FileSystem) : files.get? [] = some .directory := rfl

theorem mem_nodes_of_get? (hplace : place ≠ []) (h : files.get? place = some node) :
    (place, node) ∈ files.nodes := by
  rw [get?, if_neg (by simpa using hplace)] at h
  obtain ⟨front, back, hnodes, _⟩ := List.lookup_eq_some_iff.mp h
  simp [hnodes]

namespace IsTree

theorem get?_of_mem (h : IsTree files) (hmem : (place, node) ∈ files.nodes) :
    files.get? place = some node := by
  have hplace := h.ne_nil _ hmem
  obtain ⟨front, back, hnodes⟩ := List.append_of_mem hmem
  have hnodup := h.nodup
  rw [hnodes, List.map_append, List.map_cons, List.nodup_append] at hnodup
  rw [get?, if_neg (by simpa using hplace), List.lookup_eq_some_iff]
  refine ⟨front, back, hnodes, fun entry hentry => ?_⟩
  have hne := hnodup.2.2 entry.1 (List.mem_map_of_mem hentry) place List.mem_cons_self
  simpa using Ne.symm hne

private theorem get?_ne_link (h : IsTree files) (place : Location) (target : Text) :
    files.get? place ≠ some (.link target) := by
  intro hlink
  by_cases hplace : place = []
  · rw [hplace, get?_nil] at hlink
    cases hlink
  · exact Bool.noConfusion (h.isLink _ (mem_nodes_of_get? hplace hlink))

private theorem get?_dropLast (h : IsTree files) (hnode : files.get? place = some node) :
    files.get? place.dropLast = some .directory := by
  by_cases hplace : place = []
  · rw [hplace]
    exact get?_nil files
  · exact h.parent _ (mem_nodes_of_get? hplace hnode)

theorem isName_of_get? (h : IsTree files) (hnode : files.get? place = some node) :
    ∀ name ∈ place, Path.IsName name := by
  by_cases hplace : place = []
  · simp [hplace]
  · exact h.isName _ (mem_nodes_of_get? hplace hnode)

/-- Whatever has something below it is a directory. -/
theorem get?_of_append (h : IsTree files) (hnames : names ≠ [])
    (hnode : files.get? (place ++ names) = some node) : files.get? place = some .directory := by
  induction names generalizing place with
  | nil => exact absurd rfl hnames
  | cons name more ih =>
    have hname : ∃ node, files.get? (place ++ [name]) = some node := by
      cases more with
      | nil => exact ⟨node, hnode⟩
      | cons next more =>
        exact ⟨.directory, ih (List.cons_ne_nil _ _) (by rwa [List.append_assoc])⟩
    obtain ⟨below, hbelow⟩ := hname
    simpa using h.get?_dropLast hbelow

private theorem follow_place (h : IsTree files)
    (hfound : files.follow purpose links slash start steps = .ok (.found place node)) :
    place = steps.foldl Location.step start ∧
      (files.get? start = some .directory → files.get? place = some node) := by
  fun_induction follow files purpose links slash start steps with
  | case1 links slash start =>
    cases hfound
    exact ⟨rfl, id⟩
  | case2 links slash start more ih =>
    exact ⟨(ih hfound).1, fun _ => (ih hfound).2 (get?_nil files)⟩
  | case3 links slash start more ih => exact ih hfound
  | case4 links slash start more ih =>
    exact ⟨(ih hfound).1, fun hstart => (ih hfound).2 (h.get?_dropLast hstart)⟩
  | case9 links slash start name more hwrite hshort hthere ih =>
    exact ⟨(ih hfound).1, fun _ => (ih hfound).2 hthere⟩
  | case10 links slash start name more hwrite hshort bytes hthere hlast =>
    cases hfound
    obtain rfl : more = [] := by simp_all
    exact ⟨rfl, fun _ => hthere⟩
  | case13 slash start name more hwrite hshort target hthere links ih =>
    exact absurd hthere (h.get?_ne_link _ _)
  | _ => cases hfound

/-- What can be written lies in a directory, under the name that the path ends with. -/
theorem exists_of_target? (h : IsTree files) (hstart : files.get? start = some .directory)
    (hdest : files.follow purpose links slash start steps = .ok dest)
    (htarget : dest.target? = some place) :
    ∃ parent name, place = parent ++ [name] ∧ files.get? parent = some .directory ∧
      steps.getLast? = some (.name name) := by
  have hcons (component : Component) {more : List Component} {name : Text}
      (hlast : more.getLast? = some (.name name)) :
      (component :: more).getLast? = some (.name name) := by
    rw [List.getLast?_cons, hlast]
    rfl
  fun_induction follow files purpose links slash start steps with
  | case1 =>
    cases hdest
    cases htarget
  | case2 links slash start more ih =>
    obtain ⟨parent, name, hplace, hparent, hlast⟩ := ih (get?_nil files) hdest
    exact ⟨parent, name, hplace, hparent, hcons _ hlast⟩
  | case3 links slash start more ih =>
    obtain ⟨parent, name, hplace, hparent, hlast⟩ := ih hstart hdest
    exact ⟨parent, name, hplace, hparent, hcons _ hlast⟩
  | case4 links slash start more ih =>
    obtain ⟨parent, name, hplace, hparent, hlast⟩ := ih (h.get?_dropLast hstart) hdest
    exact ⟨parent, name, hplace, hparent, hcons _ hlast⟩
  | case7 links slash start name more hwrite hshort hthere hmore =>
    cases hdest
    cases htarget
    obtain rfl : more = [] := by simpa using hmore
    exact ⟨start, name, rfl, hstart, rfl⟩
  | case9 links slash start name more hwrite hshort hthere ih =>
    obtain ⟨parent, name, hplace, hparent, hlast⟩ := ih hthere hdest
    exact ⟨parent, name, hplace, hparent, hcons _ hlast⟩
  | case10 links slash start name more hwrite hshort bytes hthere hmore =>
    cases hdest
    cases htarget
    obtain rfl : more = [] := by simp_all
    exact ⟨start, name, rfl, hstart, rfl⟩
  | case13 slash start name more hwrite hshort target hthere links ih =>
    exact absurd hthere (h.get?_ne_link _ _)
  | _ => cases hdest

theorem lookup_place (h : IsTree files)
    (hfound : files.lookup purpose path = .ok (.found place node)) :
    place = files.placeOf path ∧ files.get? place = some node := by
  obtain ⟨hplace, hnode⟩ := h.follow_place (lookup_eq_ok_iff.mp hfound).2
  exact ⟨hplace, hnode h.working⟩

theorem directory?_place (h : IsTree files) (hplace : files.directory? path = some place) :
    place = files.placeOf path ∧ files.get? place = some .directory :=
  h.lookup_place (directory?_eq_some_iff.mp hplace)

/-- Steps that never go up find the same directory in every tree that has it. -/
theorem follow_of_get? {after : FileSystem} (h : IsTree files) (hafter : IsTree after)
    (hplain : ∀ component ∈ steps, component ≠ .up ∧ component ≠ .root)
    (hplace : files.get? place = some .directory)
    (hfound : after.follow purpose links slash start steps = .ok (.found place .directory)) :
    files.follow purpose links slash start steps = .ok (.found place .directory) := by
  fun_induction follow after purpose links slash start steps with
  | case1 => rwa [follow]
  | case2 links slash start more ih => exact absurd rfl (hplain _ List.mem_cons_self).2
  | case3 links slash start more ih =>
    rw [follow]
    exact ih (List.forall_mem_cons.mp hplain).2 hfound
  | case4 links slash start more ih => exact absurd rfl (hplain _ List.mem_cons_self).1
  | case9 links slash start name more hwrite hshort hthere ih =>
    obtain ⟨-, hmore⟩ := List.forall_mem_cons.mp hplain
    obtain ⟨rest, hrest⟩ := Location.prefix_foldl_step hmore (start ++ [name])
    rw [← (hafter.follow_place hfound).1] at hrest
    have hdirectory : files.get? (start ++ [name]) = some .directory := by
      cases rest with
      | nil => rwa [← hrest, List.append_nil] at hplace
      | cons next rest => exact h.get?_of_append (List.cons_ne_nil _ _) (hrest ▸ hplace)
    rw [follow, if_neg hwrite, if_neg hshort, hdirectory]
    exact ih hmore hfound
  | case13 slash start name more hwrite hshort target hthere links ih =>
    exact absurd hthere (hafter.get?_ne_link _ _)
  | _ => cases hfound

theorem directory?_of_get? {after : FileSystem} (h : IsTree files) (hafter : IsTree after)
    (hworking : after.working = files.working) (hup : .up ∉ Path.components path)
    (hplace : files.get? place = some .directory) (hfound : after.directory? path = some place) :
    files.directory? path = some place := by
  have hplain : ∀ component ∈ (Path.pieces path).map Component.ofPiece,
      component ≠ .up ∧ component ≠ .root := by
    intro component hmem
    have hsteps : component ∈ Path.steps path := List.mem_append_right _ hmem
    refine ⟨?_, ?_⟩
    · rintro rfl
      exact hup (Path.mem_components_of_mem_steps hsteps (by simp))
    · rintro rfl
      obtain ⟨piece, _, hpiece⟩ := List.mem_map.mp hmem
      exact Path.ofPiece_ne_root piece hpiece
  rw [directory?_eq_some_iff, lookup_eq_ok_iff] at hfound ⊢
  refine ⟨hfound.1, ?_⟩
  rw [hworking] at hfound
  unfold Path.steps at hfound ⊢
  split
  · rename_i habsolute
    rw [if_pos habsolute] at hfound
    rw [List.singleton_append, follow] at hfound ⊢
    exact h.follow_of_get? hafter hplain hplace hfound.2
  · rename_i hrelative
    rw [if_neg hrelative] at hfound
    exact h.follow_of_get? hafter hplain hplace hfound.2

/-- A file that a path leads to bears the file name of the path. -/
theorem fileName?_of_target? (h : IsTree files) (hdest : files.lookup purpose path = .ok dest)
    (htarget : dest.target? = some place) :
    ∃ parent name, place = parent ++ [name] ∧ files.get? parent = some .directory ∧
      Path.IsName name ∧ Path.fileName? path = some name := by
  obtain ⟨hrefusal, hfollow⟩ := lookup_eq_ok_iff.mp hdest
  obtain ⟨parent, name, hplace, hparent, hlast⟩ := h.exists_of_target? h.working hfollow htarget
  exact ⟨parent, name, hplace, hparent,
    Path.isName_of_mem_steps hrefusal (List.mem_of_getLast? hlast), Path.fileName?_of_steps hlast⟩

end IsTree

private theorem map_fst_replace (place : Location) (node : Node) (nodes : List (Location × Node)) :
    (replace place node nodes).map Prod.fst = nodes.map Prod.fst := by
  induction nodes with
  | nil => rfl
  | cons entry more ih =>
    by_cases hentry : entry.1 = place
    · simp [replace, hentry]
    · simp [replace, hentry, ih]

private theorem mem_replace {entry : Location × Node} {nodes : List (Location × Node)}
    (h : entry ∈ replace place node nodes) : entry = (place, node) ∨ entry ∈ nodes := by
  induction nodes with
  | nil => simp [replace] at h
  | cons first more ih =>
    unfold replace at h
    split at h
    · rcases List.mem_cons.mp h with h | h
      · exact .inl h
      · exact .inr (List.mem_cons_of_mem _ h)
    · rcases List.mem_cons.mp h with rfl | h
      · exact .inr List.mem_cons_self
      · exact (ih h).imp_right (List.mem_cons_of_mem _)

private theorem mem_nodes_put {entry : Location × Node} (h : entry ∈ (files.put place node).nodes) :
    entry = (place, node) ∨ entry ∈ files.nodes := by
  unfold put at h
  split at h
  · exact mem_replace h
  · rcases List.mem_append.mp h with h | h
    · exact .inr h
    · exact .inl (List.mem_singleton.mp h)

private theorem nodup_put (hplace : place ≠ []) (h : (files.nodes.map Prod.fst).Nodup) :
    ((files.put place node).nodes.map Prod.fst).Nodup := by
  unfold put
  split
  · rwa [map_fst_replace]
  · rename_i hnone
    rw [Option.not_isSome_iff_eq_none, get?, if_neg (by simpa using hplace),
      List.lookup_eq_none_iff] at hnone
    rw [List.map_append, List.nodup_append]
    refine ⟨h, by simp, ?_⟩
    rintro other hother spot hspot rfl
    obtain ⟨entry, hentry, rfl⟩ := List.mem_map.mp hother
    have hne := hnone entry hentry
    simp_all

namespace IsTree

/-- A file or a directory put below a directory, not in the place of another directory, leaves a
tree. -/
theorem put (h : IsTree files) (hparent : files.get? parent = some .directory)
    (hname : Path.IsName name) (hold : files.get? (parent ++ [name]) ≠ some .directory)
    (hnode : node.isLink = false) : IsTree (files.put (parent ++ [name]) node) := by
  have hways := keepsWays_put node hold (h.get?_ne_link _)
  refine ⟨nodup_put (by simp) h.nodup, ?_, ?_, ?_, ?_, ?_⟩
  · intro entry hentry
    rcases mem_nodes_put hentry with rfl | hentry
    · simp
    · exact h.ne_nil entry hentry
  · intro entry hentry
    rcases mem_nodes_put hentry with rfl | hentry
    · intro other hother
      rcases List.mem_append.mp hother with hother | hother
      · exact h.isName_of_get? hparent other hother
      · rwa [List.mem_singleton.mp hother]
    · exact h.isName entry hentry
  · intro entry hentry
    apply hways.directory
    rcases mem_nodes_put hentry with rfl | hentry
    · rwa [List.dropLast_concat]
    · exact h.parent entry hentry
  · intro entry hentry
    rcases mem_nodes_put hentry with rfl | hentry
    · exact hnode
    · exact h.isLink entry hentry
  · rw [working_put]
    exact hways.directory _ h.working

private theorem makeDirectory {made : FileSystem} (h : IsTree files)
    (hmade : files.makeDirectory path = .ok made) : IsTree made := by
  obtain ⟨parent, name, hfree, rfl⟩ := exists_of_makeDirectory hmade
  have hparent := (h.follow_place (directoryAt_eq_ok_iff.mp hfree.parent_eq)).2 h.working
  have hname := Path.isName_of_mem_steps hfree.accepted (List.mem_of_getLast? hfree.last_eq)
  exact h.put hparent hname (by simp [hfree.free]) rfl

private theorem ensureDirectories (h : IsTree files) (paths : List Text) :
    IsTree (files.ensureDirectories paths).2 :=
  ensureDirectories_induction (fun _ _ _ _ h hmade => h.makeDirectory hmade) h

end IsTree

/-- Writing a text keeps the tree. -/
theorem Writes.isTree {made after : FileSystem} {text : Text}
    (h : Writes path text files made after place) (htree : IsTree files) : IsTree after := by
  have hmade := htree.ensureDirectories (Path.ancestors path).tail
  rw [h.ensured] at hmade
  obtain ⟨dest, hdest, htarget⟩ := h.leads
  obtain ⟨parent, name, rfl, hparent, hname, _⟩ := hmade.fileName?_of_target? hdest htarget
  rw [h.after_eq]
  refine hmade.put hparent hname ?_ rfl
  rcases h.get?_made with hnone | ⟨bytes, hfile⟩
  · simp [hnone]
  · simp [hfile]

end FileSystem

end Registrar
