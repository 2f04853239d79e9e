import Registrar.Proofs.ListedHeaders
import Registrar.Proofs.WrittenOutput

/-! Running again. A run changes the tree that the next run walks: it adds a file and directories,
and so perhaps a root that was not there. None of this is a header, so the next run finds the same
headers, reads the same texts and writes the same source, unless one of the new directories has a
path below some root that is too long to be read. -/

namespace Registrar

namespace FileSystem

private theorem replace_of_lookup {place : Location} {node : Node} {nodes : List (Location × Node)}
    (h : nodes.lookup place = some node) : replace place node nodes = nodes := by
  induction nodes with
  | nil => rfl
  | cons entry more ih =>
    obtain ⟨spot, old⟩ := entry
    by_cases hspot : spot = place
    · subst hspot
      obtain rfl : old = node := by simpa [List.lookup_cons] using h
      simp [replace]
    · have hother : (place == spot) = false := by simp [Ne.symm hspot]
      rw [List.lookup_cons, hother] at h
      simp [replace, hspot, ih h]

/-- What is there already can be put there again. -/
private theorem put_of_get? {files : FileSystem} {place : Location} {node : Node}
    (hplace : place ≠ []) (h : files.get? place = some node) : files.put place node = files := by
  rw [put, h, Option.isSome_some, if_pos rfl]
  rw [get?, if_neg (by simpa using hplace)] at h
  rw [replace_of_lookup h]

variable {files made after : FileSystem} {path text : Text} {place : Location}

/-- A text that was written can be written again, and nothing changes. -/
private theorem Writes.writeText_again (h : Writes path text files made after place) :
    after.writeText path text = (.ok (), after) := by
  have hensured : after.ensureDirectories (Path.ancestors path).tail = (.ok (), after) := by
    cases hpaths : (Path.ancestors path).tail with
    | nil => rfl
    | cons parent above =>
      obtain ⟨spot, hspot⟩ := exists_directory?_of_ensureDirectories (hpaths ▸ h.ensured)
      exact ensureDirectories_of_directory? (directory?_of_keepsWays h.keepsWays_made hspot)
  have hwritten : after.writeBytes path (Text.encode text) = .ok after := by
    rw [writeBytes, h.lookup_eq .write]
    simp only [put_of_get? h.place_ne_nil h.get?_place]
  rw [writeText, hensured]
  simp only [hwritten]

/-- Whether every directory that stands in one file system and not in the other has a path below a
root that is not too long. -/
def FitsBelow (files after : FileSystem) (root : Text) : Prop :=
  ∀ place names, after.directory? root = some place →
    after.get? (place ++ names) = some .directory → files.get? (place ++ names) = none →
    (names.foldl Path.join root).byteLength ≤ Path.maxBytes

/-- Whether a path leads from a root down to a directory that stands in one file system and not in
the other, and is too long. -/
def OverlongBelow (files after : FileSystem) (root path : Text) : Prop :=
  ∃ place names, after.directory? root = some place ∧
    after.get? (place ++ names) = some .directory ∧ files.get? (place ++ names) = none ∧
    path = names.foldl Path.join root ∧ Path.maxBytes < path.byteLength

end FileSystem

namespace Settings

variable {settings : Settings} {files made after : FileSystem} {text root path : Text}
  {place spot : Location} {names listed headers roots : List Text} {report : RootReport}
  {classes : Registry}

section AfterWriting

variable (hwrites : FileSystem.Writes settings.output text files made after place)
  (htree : files.IsTree) (houtput : settings.isHeader settings.output = false)

include hwrites htree houtput

/-- No header bears the name of the file that was written. -/
private theorem isHeader_of_last (hlast : Path.fileName? path = place.getLast?) :
    settings.isHeader path = false := by
  obtain ⟨parent, name, rfl, _, _, hname⟩ :=
    (hwrites.isTree htree).fileName?_of_target? (hwrites.lookup_eq .use) rfl
  rw [List.getLast?_concat] at hlast
  rw [settings.isHeader_congr (hlast.trans hname.symm), houtput]

private theorem HeaderAt.ne_place {walked : FileSystem} (hwalked : walked.IsTree)
    (h : settings.HeaderAt walked root spot names) : spot ++ names ≠ place := by
  intro hplace
  have hname := List.getLast?_eq_some_getLast h.ne_nil
  have hlast : Path.fileName? (names.foldl Path.join root) = place.getLast? := by
    rw [Path.fileName?_foldl_join h.root_ne_nil (h.isName hwalked) hname, ← hplace,
      List.getLast?_append, hname]
    rfl
  have hheader := h.isHeader
  rw [isHeader_of_last hwrites htree houtput hlast] at hheader
  cases hheader

/-- A root without `..` finds the same headers before and after the write. -/
private theorem headerAt_again (hup : .up ∉ Path.components root) :
    settings.HeaderAt after root spot names ↔ settings.HeaderAt files root spot names := by
  constructor
  · intro h
    have hne := h.ne_place hwrites htree houtput (hwrites.isTree htree)
    obtain ⟨bytes, hfile⟩ := h.file
    rw [hwrites.get?_file_iff hne] at hfile
    have hspot := htree.get?_of_append h.ne_nil hfile
    have hroot := htree.directory?_of_get? (hwrites.isTree htree) hwrites.keepsWays.working hup
      hspot h.root_eq
    exact ⟨hroot, h.ne_nil, ⟨bytes, hfile⟩, h.isHeader⟩
  · intro h
    have hne := h.ne_place hwrites htree houtput htree
    obtain ⟨bytes, hfile⟩ := h.file
    rw [← hwrites.get?_file_iff hne] at hfile
    exact ⟨FileSystem.directory?_of_keepsWays hwrites.keepsWays h.root_eq, h.ne_nil, ⟨bytes, hfile⟩,
      h.isHeader⟩

private theorem headersBelow_again (hup : .up ∉ Path.components root)
    (hbefore : files.directory? root = some spot) :
    settings.headersBelow after root spot = settings.headersBelow files root spot := by
  have hafter := FileSystem.directory?_of_keepsWays hwrites.keepsWays hbefore
  rw [headersBelow_eq, headersBelow_eq, headerNames_congr (hwrites.isTree htree) htree]
  intro names
  rw [mem_headerNames_iff_headerAt (hwrites.isTree htree) hafter,
    mem_headerNames_iff_headerAt htree hbefore, headerAt_again hwrites htree houtput hup]

/-- A root that was not there before the write finds nothing. -/
private theorem headersBelow_of_new (hup : .up ∉ Path.components root)
    (hbefore : files.directory? root = none) (hafter : after.directory? root = some spot) :
    settings.headersBelow after root spot = [] := by
  rw [List.eq_nil_iff_forall_not_mem]
  intro path hpath
  obtain ⟨above, names, hnames, _⟩ := (mem_headersBelow_iff (hwrites.isTree htree) hafter).mp hpath
  have hroot := ((headerAt_again hwrites htree houtput hup).mp hnames).root_eq
  rw [hbefore] at hroot
  cases hroot

private theorem readText_again {content : Text} (hheader : settings.isHeader path = true)
    (h : files.readText path = .ok content) : after.readText path = .ok content := by
  obtain ⟨spot, bytes, hfound, hdecoded⟩ := FileSystem.readText_eq_ok_iff.mp h
  obtain ⟨_, hfile⟩ := htree.lookup_place hfound
  have hne : spot ≠ place := by
    rintro rfl
    obtain ⟨parent, name, rfl, _, _, hname⟩ := htree.fileName?_of_target? hfound rfl
    have hlast : Path.fileName? path = (parent ++ [name]).getLast? := by
      rw [hname, List.getLast?_concat]
    rw [isHeader_of_last hwrites htree houtput hlast] at hheader
    cases hheader
  rw [← hwrites.get?_file_iff hne] at hfile
  exact FileSystem.readText_eq_ok_iff.mpr ⟨spot, bytes,
    FileSystem.lookup_of_keepsWays hwrites.keepsWays (fun _ => hfile) hfound, hdecoded⟩

private theorem scanFiles_again (hheaders : ∀ header ∈ headers, settings.isHeader header = true)
    (h : settings.markers.scanFiles files headers = .ok classes) :
    settings.markers.scanFiles after headers = .ok classes := by
  induction headers generalizing classes with
  | nil => exact h
  | cons header more ih =>
    obtain ⟨hheader, hmore⟩ := List.forall_mem_cons.mp hheaders
    obtain ⟨content, rest, hcontent, hrest, rfl⟩ := Markers.scanFiles_cons_eq_ok_iff.mp h
    exact Markers.scanFiles_cons_eq_ok_iff.mpr ⟨content, rest,
      readText_again hwrites htree houtput hheader hcontent, ih hmore hrest, rfl⟩

section WalkedRoot

variable (hup : .up ∉ Path.components root)
  (hbefore : files.directory? root = some spot → files.unreadable? root spot = none)
  (hafter : after.directory? root = some spot)

include hup hbefore hafter

omit houtput in
/-- A directory below a root that stood before the write has a path that is not too long, if the
root could be walked then. -/
private theorem length_le_of_stood (hnode : after.get? (spot ++ names) = some .directory)
    (hstood : files.get? (spot ++ names) ≠ none) :
    (names.foldl Path.join root).byteLength ≤ Path.maxBytes := by
  cases names with
  | nil => exact Path.length_le_of_refusal? (FileSystem.refusal?_of_directory? hafter)
  | cons name more =>
    obtain ⟨node, hold⟩ := Option.ne_none_iff_exists'.mp hstood
    have hne : name :: more ≠ [] := List.cons_ne_nil _ _
    have hspot := htree.get?_of_append hne hold
    have hroot := htree.directory?_of_get? (hwrites.isTree htree) hwrites.keepsWays.working hup
      hspot hafter
    have hplace : spot ++ name :: more ≠ place := by
      intro heq
      rw [heq, hwrites.get?_place] at hnode
      cases hnode
    have hdirectory : files.get? (spot ++ name :: more) = some .directory := by
      rcases hwrites.get?_cases hplace with heq | ⟨hnone, _⟩
      · rw [← heq, hnode]
      · exact absurd hnone hstood
    have hreadable := (FileSystem.unreadable?_eq_none_iff htree root spot).mp (hbefore hroot)
    exact Path.length_le_of_refusal? (hreadable _ hne hdirectory)

omit houtput in
/-- After the write every directory below a root can be read exactly if the new ones can. -/
private theorem unreadable?_again :
    after.unreadable? root spot = none ↔ files.FitsBelow after root := by
  have hwritten := hwrites.isTree htree
  have haccepted := FileSystem.refusal?_of_directory? hafter
  rw [FileSystem.unreadable?_eq_none_iff hwritten]
  constructor
  · intro hall above names habove hnode _
    obtain rfl : spot = above := Option.some.inj (hafter.symm.trans habove)
    cases names with
    | nil => exact Path.length_le_of_refusal? haccepted
    | cons name more =>
      exact Path.length_le_of_refusal? (hall _ (List.cons_ne_nil _ _) hnode)
  · intro hfits names hne hnode
    have hlength : (names.foldl Path.join root).byteLength ≤ Path.maxBytes := by
      by_cases hnew : files.get? (spot ++ names) = none
      · exact hfits spot names hafter hnode hnew
      · exact length_le_of_stood hwrites htree hup hbefore hafter hnode hnew
    rw [Path.refusal?_foldl_join haccepted fun name hname =>
      hwritten.isName_of_get? hnode name (List.mem_append_right _ hname)]
    exact if_neg (Nat.not_lt.mpr hlength)

omit houtput in
/-- Only a new directory stops the walk below a root that could be walked before the write. -/
private theorem overlongBelow_of_report_error {fault : Fault}
    (h : settings.report after listed root = .error fault) :
    ∃ path, files.OverlongBelow after root path ∧ fault = .walkRoot path .nameTooLong := by
  obtain ⟨above, names, habove, hnode, hlong, rfl⟩ :=
    exists_of_report_error (hwrites.isTree htree) h
  obtain rfl : spot = above := Option.some.inj (hafter.symm.trans habove)
  refine ⟨_, ⟨spot, names, hafter, hnode, ?_, rfl, hlong⟩, rfl⟩
  by_contra hstood
  exact absurd hlong
    (Nat.not_lt.mpr (length_le_of_stood hwrites htree hup hbefore hafter hnode hstood))

/-- Below a root that can be walked after the write too, the same headers are listed. -/
private theorem listed_report_again (hreadable : after.unreadable? root spot = none)
    (h : settings.report files listed root = .ok report) :
    ∃ again, settings.report after listed root = .ok again ∧ again.listed = report.listed := by
  rw [report_of_directory? hafter, hreadable]
  refine ⟨_, rfl, ?_⟩
  cases hroot : files.directory? root with
  | none =>
    rw [Settings.report, hroot] at h
    cases h
    rw [headersBelow_of_new hwrites htree houtput hup hroot hafter]
    rfl
  | some above =>
    obtain rfl : spot = above := Option.some.inj
      (hafter.symm.trans (FileSystem.directory?_of_keepsWays hwrites.keepsWays hroot))
    rw [report_of_directory? hroot, hbefore hroot] at h
    cases h
    rw [headersBelow_again hwrites htree houtput hup hroot]

end WalkedRoot

/-- A root that could be walked before the write contributes the same headers after it, or cannot be
walked because of a new directory, which the error names. -/
private theorem report_again (hup : .up ∉ Path.components root)
    (h : settings.report files listed root = .ok report) :
    (files.FitsBelow after root →
      ∃ again, settings.report after listed root = .ok again ∧ again.listed = report.listed) ∧
    (¬ files.FitsBelow after root → ∃ path, files.OverlongBelow after root path ∧
      settings.report after listed root = .error (.walkRoot path .nameTooLong)) := by
  cases hafter : after.directory? root with
  | none =>
    have hbefore : files.directory? root = none := by
      rw [Option.eq_none_iff_forall_ne_some]
      intro spot hspot
      rw [FileSystem.directory?_of_keepsWays hwrites.keepsWays hspot] at hafter
      cases hafter
    have hsame : settings.report after listed root = settings.report files listed root := by
      rw [Settings.report, Settings.report, hafter, hbefore]
    refine ⟨fun _ => ⟨report, hsame.trans h, rfl⟩, fun hnot => absurd ?_ hnot⟩
    intro above names habove
    rw [hafter] at habove
    cases habove
  | some spot =>
    have hbefore (hroot : files.directory? root = some spot) :
        files.unreadable? root spot = none := by
      rw [report_of_directory? hroot] at h
      split at h
      · cases h
      · assumption
    have hfits := unreadable?_again hwrites htree hup hbefore hafter
    refine ⟨fun hfit => ?_, fun hnot => ?_⟩
    · exact listed_report_again hwrites htree houtput hup hbefore hafter (hfits.mpr hfit) h
    · cases hreport : settings.report after listed root with
      | error fault =>
        obtain ⟨path, hpath, rfl⟩ :=
          overlongBelow_of_report_error hwrites htree hup hbefore hafter hreport
        exact ⟨path, hpath, rfl⟩
      | ok again =>
        rw [report_of_directory? hafter] at hreport
        split at hreport
        · cases hreport
        · exact absurd (hfits.mp ‹_›) hnot

private theorem searchFrom_again (hup : ∀ root ∈ roots, .up ∉ Path.components root)
    (h : (settings.searchFrom files listed roots).headers = .ok headers) :
    ((∀ root ∈ roots, files.FitsBelow after root) →
      (settings.searchFrom after listed roots).headers = .ok headers) ∧
    ((¬ ∀ root ∈ roots, files.FitsBelow after root) →
      ∃ root ∈ roots, ∃ path, files.OverlongBelow after root path ∧
        (settings.searchFrom after listed roots).headers =
          .error (.walkRoot path .nameTooLong)) := by
  induction roots generalizing listed headers with
  | nil =>
    obtain rfl : [] = headers := Except.ok.inj h
    exact ⟨fun _ => rfl, fun hnot => absurd (by simp) hnot⟩
  | cons root more ih =>
    obtain ⟨hroot, hmore⟩ := List.forall_mem_cons.mp hup
    obtain ⟨report, rest, hreport, hrest, rfl⟩ := headers_searchFrom_cons_eq_ok h
    obtain ⟨hfit, hnot⟩ := report_again hwrites htree houtput hroot hreport
    obtain ⟨hfitMore, hnotMore⟩ := ih hmore hrest
    rw [headers_searchFrom_cons, List.forall_mem_cons]
    by_cases hfits : files.FitsBelow after root
    · obtain ⟨again, hagain, hlisted⟩ := hfit hfits
      rw [hagain]
      simp only [hfits, true_and, hlisted]
      refine ⟨fun hall => ?_, fun hsome => ?_⟩
      · rw [hfitMore hall]
        rfl
      · obtain ⟨other, hother, path, hoverlong, hpath⟩ := hnotMore hsome
        rw [hpath]
        exact ⟨other, List.mem_cons_of_mem _ hother, path, hoverlong, rfl⟩
    · obtain ⟨path, hoverlong, hpath⟩ := hnot hfits
      rw [hpath]
      refine ⟨fun hall => absurd hall.1 hfits, fun _ => ?_⟩
      exact ⟨root, List.mem_cons_self, path, hoverlong, rfl⟩

end AfterWriting

private theorem isHeader_of_mem_discover (htree : files.IsTree)
    (h : settings.discover files = .ok headers) :
    ∀ header ∈ headers, settings.isHeader header = true := by
  intro header hheader
  obtain ⟨_, hfinds⟩ := (mem_headers_searchFrom_iff htree h).mp hheader
  obtain ⟨root, _, place, names, hnames, rfl⟩ := hfinds.exists_root
  exact hnames.isHeader

/-- A run that succeeds can be repeated with the same outcome, and the second run changes nothing,
provided that the roots have no `..`, the output is no header, and the directories that the first
run made have paths below the roots that are not too long. If one of these paths is too long the
second run stops at such a path, of a directory below a root that the first run made, and it changes
nothing either. -/
theorem run_again_unchanged (settings : Settings) (files after : FileSystem) (summary : Summary)
    (htree : files.IsTree) (hroots : ∀ root ∈ settings.roots, .up ∉ Path.components root)
    (houtput : settings.isHeader settings.output = false)
    (hrun : settings.run files = (.ok summary, after)) :
    ((∀ root ∈ settings.roots, files.FitsBelow after root) →
      settings.run after = (.ok summary, after)) ∧
    ((¬ ∀ root ∈ settings.roots, files.FitsBelow after root) →
      ∃ root ∈ settings.roots, ∃ path, files.OverlongBelow after root path ∧
        settings.run after = (.error (.walkRoot path .nameTooLong), after)) := by
  obtain ⟨hvalid, headers, classes, hheaders, hclasses, hwritten, rfl⟩ := run_eq_ok_iff.mp hrun
  obtain ⟨made, place, hwrites⟩ := FileSystem.exists_of_writeText hwritten
  obtain ⟨hfit, hnot⟩ := searchFrom_again hwrites htree houtput hroots hheaders
  refine ⟨fun hfits => ?_, fun hlong => ?_⟩
  · have hagain := scanFiles_again hwrites htree houtput
      (isHeader_of_mem_discover htree hheaders) hclasses
    exact run_eq_ok_iff.mpr ⟨hvalid, headers, classes, hfit hfits, hagain,
      hwrites.writeText_again, rfl⟩
  · obtain ⟨root, hroot, path, hoverlong, hpath⟩ := hnot hlong
    exact ⟨root, hroot, path, hoverlong, run_of_discover_error hvalid hpath⟩

/-- A header below one root, and a second root that the first run makes for its output. -/
theorem run_again_unchanged_new_root :
    let files : FileSystem := { nodes := [(["a".toList], .directory),
      (["a".toList, "x.hpp".toList], .file [])] }
    let settings : Settings := { roots := ["a".toList, "g".toList], output := "g/o.cpp".toList }
    let bytes := Text.encode (settings.render [])
    let after : FileSystem := { nodes := files.nodes ++
      [(["g".toList], .directory), (["g".toList, "o.cpp".toList], .file bytes)] }
    files.directory? "g".toList = none ∧ after.directory? "g".toList = some ["g".toList] ∧
      settings.run files = (.ok ⟨1, 0, 0, "g/o.cpp".toList⟩, after) ∧
      settings.run after = (.ok ⟨1, 0, 0, "g/o.cpp".toList⟩, after) := by
  intro files settings bytes after
  have hbefore : files.directory? "g".toList = none := by cbv
  have hdiscover : settings.discover files = .ok ["a/x.hpp".toList] := by cbv
  have hread : files.readText "a/x.hpp".toList = .ok [] := by cbv
  have hscan : settings.markers.scanFiles files ["a/x.hpp".toList] = .ok [] :=
    Markers.scanFiles_cons_eq_ok_iff.mpr ⟨[], [], hread, rfl, by decide +kernel⟩
  have hwrite (text : Text) : files.writeText settings.output text = (.ok (),
      { nodes := files.nodes ++ [(["g".toList], .directory),
        (["g".toList, "o.cpp".toList], .file (Text.encode text))] }) := by cbv
  have hrun : settings.run files = (.ok ⟨1, 0, 0, "g/o.cpp".toList⟩, after) :=
    run_eq_ok_iff.mpr ⟨rfl, _, _, hdiscover, hscan, hwrite _, rfl⟩
  have hagain := run_again_unchanged settings files after _ (by decide) (by decide +kernel)
    (by decide +kernel) hrun
  -- What the output holds does not matter for where the directories are.
  clear_value bytes
  have hroot : after.directory? "a".toList = some ["a".toList] := by cbv
  have hafter : after.directory? "g".toList = some ["g".toList] := by cbv
  refine ⟨hbefore, hafter, hrun, hagain.1 ?_⟩
  have hnew {spot : Location} (hnode : after.get? spot = some .directory)
      (hnone : files.get? spot = none) : spot = ["g".toList] := by
    by_cases hspot : spot = []
    · subst hspot
      cases hnone
    · have hmem := FileSystem.mem_nodes_of_get? hspot hnode
      obtain rfl | rfl : spot = ["a".toList] ∨ spot = ["g".toList] := by
        simpa [after, files] using hmem
      · cases hnone
      · rfl
  intro root hmem place names hplace hnode hnone
  have hspot := hnew hnode hnone
  rcases List.mem_cons.mp hmem with rfl | hmem
  · obtain rfl : ["a".toList] = place := Option.some.inj (hroot.symm.trans hplace)
    cases hspot
  · obtain rfl : root = "g".toList := by simpa using hmem
    obtain rfl : ["g".toList] = place := Option.some.inj (hafter.symm.trans hplace)
    obtain rfl : names = [] := by simpa using hspot
    decide

/-- The working directory, under a path that is as long as a path can be. -/
def longestHere : Text := '.' :: List.replicate 4094 '/'

private theorem directory?_longestHere {files : FileSystem} (h : files.working = []) :
    files.directory? longestHere = some [] := by
  have hrefusal : Path.refusal? longestHere = none := by decide +kernel
  have hsteps : Path.steps longestHere = [.here] := by decide +kernel
  rw [FileSystem.directory?_eq_some_iff, FileSystem.lookup_eq_ok_iff, hsteps, h]
  refine ⟨hrefusal, ?_⟩
  simp [FileSystem.follow]

/-- The first run makes a directory below a root whose path has the greatest length; the second run
cannot read that directory. -/
theorem run_again_stops_at_long_path :
    let settings : Settings := { roots := [longestHere], output := "g/o.cpp".toList }
    let after : FileSystem := { nodes := [(["g".toList], .directory),
      (["g".toList, "o.cpp".toList], .file (Text.encode (settings.render [])))] }
    FileSystem.IsTree {} ∧ (∀ root ∈ settings.roots, .up ∉ Path.components root) ∧
      settings.isHeader settings.output = false ∧
      settings.run {} = (.ok ⟨0, 0, 0, "g/o.cpp".toList⟩, after) ∧
      settings.run after =
        (.error (.walkRoot (longestHere ++ "g".toList) .nameTooLong), after) := by
  intro settings after
  have hempty : settings.discover {} = .ok [] := by
    have hbelow : FileSystem.below {} [] = [] := by simp [FileSystem.below]
    rw [discover, search, headers_searchFrom_cons,
      report_of_directory? (directory?_longestHere rfl), FileSystem.unreadable?, headersBelow,
      hbelow]
    rfl
  have hwrite (text : Text) : FileSystem.writeText {} settings.output text = (.ok (),
      { nodes := [(["g".toList], .directory),
        (["g".toList, "o.cpp".toList], .file (Text.encode text))] }) := by cbv
  have hjoin : Path.join longestHere "g".toList = longestHere ++ "g".toList := by
    have hne : longestHere ≠ [] := List.cons_ne_nil _ _
    have hslash : longestHere.getLast? = some '/' := by decide +kernel
    have hname : Path.IsName "g".toList := by decide
    rw [Path.join_of_isName hne hname, if_pos hslash]
  have hlong : Path.refusal? (longestHere ++ "g".toList) = some .nameTooLong := by decide +kernel
  have hmade (bytes : List UInt8) : FileSystem.unreadable? { nodes := [(["g".toList], .directory),
      (["g".toList, "o.cpp".toList], .file bytes)] } longestHere [] =
        some (longestHere ++ "g".toList, .nameTooLong) := by
    have hbelow : FileSystem.below { nodes := [(["g".toList], .directory),
        (["g".toList, "o.cpp".toList], .file bytes)] } [] =
          [(["g".toList], .directory), (["g".toList, "o.cpp".toList], .file bytes)] := by cbv
    simp only [FileSystem.unreadable?, hbelow, List.findSome?_cons, List.foldl_cons,
      List.foldl_nil, hjoin, hlong, Option.map_some]
  have hstopped : settings.discover after =
      .error (.walkRoot (longestHere ++ "g".toList) .nameTooLong) := by
    rw [discover, search, headers_searchFrom_cons,
      report_of_directory? (directory?_longestHere rfl), hmade]
  exact ⟨by decide, by decide +kernel, by decide +kernel,
    run_eq_ok_iff.mpr ⟨rfl, [], [], hempty, rfl, hwrite _, rfl⟩, run_of_discover_error rfl hstopped⟩

end Settings

end Registrar
