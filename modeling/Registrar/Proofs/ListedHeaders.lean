import Mathlib
import Registrar.Proofs.FileSystem.Walk

/-! Which headers a search lists. A path is listed if a root finds it and no root before has found a
path of the same components. So a header is always listed under the first root that reaches it, but
two paths of one header are both listed if their components differ, as those of `a` and `./a` do. -/

namespace Registrar

namespace Settings

variable {settings : Settings} {files : FileSystem} {listed headers : List Text} {root path : Text}
  {place : Location} {names roots : List Text} {fault : Fault} {report : RootReport}

/-- Whether names lead from a root, which is the directory at a place, down to a header file. -/
structure HeaderAt (settings : Settings) (files : FileSystem) (root : Text) (place : Location)
    (names : List Text) : Prop where
  root_eq : files.directory? root = some place
  ne_nil : names ≠ []
  file : ∃ bytes, files.get? (place ++ names) = some (.file bytes)
  isHeader : settings.isHeader (names.foldl Path.join root) = true

def Finds (settings : Settings) (files : FileSystem) (root path : Text) : Prop :=
  ∃ place names, settings.HeaderAt files root place names ∧ names.foldl Path.join root = path

namespace HeaderAt

theorem isName (h : settings.HeaderAt files root place names) (htree : files.IsTree) :
    ∀ name ∈ names, Path.IsName name := by
  obtain ⟨bytes, hfile⟩ := h.file
  exact fun name hname => htree.isName_of_get? hfile name (List.mem_append_right _ hname)

theorem root_ne_nil (h : settings.HeaderAt files root place names) : root ≠ [] :=
  Path.ne_nil_of_refusal? (FileSystem.refusal?_of_directory? h.root_eq)

private theorem placeOf_eq (h : settings.HeaderAt files root place names) (htree : files.IsTree) :
    files.placeOf (names.foldl Path.join root) = place ++ names := by
  rw [files.placeOf_foldl_join h.root_ne_nil (h.isName htree), (htree.directory?_place h.root_eq).1]

private theorem components_eq (h : settings.HeaderAt files root place names)
    (htree : files.IsTree) :
    Path.components (names.foldl Path.join root) =
      Path.components root ++ names.map Component.name :=
  Path.components_foldl_join h.root_ne_nil (h.isName htree)

end HeaderAt

theorem mem_headerNames_iff_headerAt (htree : files.IsTree)
    (hroot : files.directory? root = some place) :
    names ∈ settings.headerNames files root place ↔ settings.HeaderAt files root place names := by
  rw [mem_headerNames_iff htree]
  exact ⟨fun ⟨hne, hfile, hheader⟩ => ⟨hroot, hne, hfile, hheader⟩,
    fun h => ⟨h.ne_nil, h.file, h.isHeader⟩⟩

theorem mem_headersBelow_iff (htree : files.IsTree) (hroot : files.directory? root = some place) :
    path ∈ settings.headersBelow files root place ↔ settings.Finds files root path := by
  simp only [headersBelow_eq, List.mem_map, mem_headerNames_iff_headerAt htree hroot]
  constructor
  · rintro ⟨names, hnames, hpath⟩
    exact ⟨place, names, hnames, hpath⟩
  · rintro ⟨place', names, hnames, hpath⟩
    obtain rfl : place = place' := Option.some.inj (hroot.symm.trans hnames.root_eq)
    exact ⟨names, hnames, hpath⟩

/-- Below one root different headers have different components. -/
private theorem nodup_components_headersBelow (htree : files.IsTree)
    (hroot : files.directory? root = some place) :
    ((settings.headersBelow files root place).map Path.components).Nodup := by
  rw [headersBelow_eq, List.map_map]
  refine List.pairwise_map.mpr ((nodup_headerNames htree).imp_of_mem ?_)
  intro names other hnames hother hne hcomponents
  rw [mem_headerNames_iff_headerAt htree hroot] at hnames hother
  simp only [Function.comp, hnames.components_eq htree, hother.components_eq htree] at hcomponents
  exact hne ((List.map_inj_right fun _ _ => Component.name.inj).mp
    (List.append_cancel_left hcomponents))

private theorem unlisted_eq_filter {seen : List (List Component)} {paths : List Text}
    (h : (paths.map Path.components).Nodup) :
    unlisted seen paths = paths.filter fun path => decide (Path.components path ∉ seen) := by
  induction paths generalizing seen with
  | nil => rfl
  | cons path more ih =>
    obtain ⟨hpath, hmore⟩ := List.nodup_cons.mp h
    by_cases hseen : Path.components path ∈ seen
    · simp [unlisted, hseen, ih hmore]
    · simp only [unlisted, hseen, if_false, ih hmore, not_false_eq_true, decide_true,
        List.filter_cons_of_pos, List.cons.injEq, true_and]
      apply List.filter_congr
      intro other hother
      have hne : Path.components other ≠ Path.components path := fun heq =>
        hpath (heq ▸ List.mem_map_of_mem hother)
      simp [hne]

theorem report_of_directory? (hroot : files.directory? root = some place) :
    settings.report files listed root =
      match files.unreadable? root place with
      | some (directory, cause) => .error (.walkRoot directory cause)
      | none => .ok ⟨root, some (unlisted (listed.map Path.components)
          (settings.headersBelow files root place))⟩ := by
  cases hunreadable : files.unreadable? root place <;>
    simp only [Settings.report, hroot, hunreadable]

/-- A root contributes what it finds and no root before has listed, each path once. -/
private theorem listed_of_report (htree : files.IsTree)
    (h : settings.report files listed root = .ok report) :
    (∀ path, path ∈ report.listed ↔
        settings.Finds files root path ∧ Path.components path ∉ listed.map Path.components) ∧
      report.listed.Pairwise fun path other => Path.components path ≠ Path.components other := by
  cases hroot : files.directory? root with
  | none =>
    rw [Settings.report, hroot] at h
    cases h
    refine ⟨fun path => ?_, .nil⟩
    simp only [RootReport.listed, Option.getD_none, List.not_mem_nil, false_iff, not_and]
    rintro ⟨place, names, hnames, _⟩
    rw [hnames.root_eq] at hroot
    cases hroot
  | some place =>
    have hnodup : ((settings.headersBelow files root place).map Path.components).Nodup :=
      nodup_components_headersBelow htree hroot
    rw [report_of_directory? hroot] at h
    split at h
    · cases h
    · cases h
      simp only [RootReport.listed, Option.getD_some, unlisted_eq_filter hnodup]
      refine ⟨fun path => ?_, (List.pairwise_map.mp hnodup).filter _⟩
      rw [List.mem_filter, mem_headersBelow_iff htree hroot, decide_eq_true_eq]

/-- A root cannot be walked only if a directory below it has a path that is too long. -/
theorem exists_of_report_error (htree : files.IsTree)
    (h : settings.report files listed root = .error fault) :
    ∃ place names, files.directory? root = some place ∧
      files.get? (place ++ names) = some .directory ∧
      Path.maxBytes < (names.foldl Path.join root).byteLength ∧
      fault = .walkRoot (names.foldl Path.join root) .nameTooLong := by
  cases hroot : files.directory? root with
  | none =>
    rw [Settings.report, hroot] at h
    cases h
  | some place =>
    rw [report_of_directory? hroot] at h
    split at h
    · rename_i directory cause hunreadable
      cases h
      obtain ⟨names, _, hnode, rfl, hcause⟩ := FileSystem.exists_of_unreadable? htree hunreadable
      have hnames : ∀ name ∈ names, Path.IsName name := fun name hname =>
        htree.isName_of_get? hnode name (List.mem_append_right _ hname)
      rw [Path.refusal?_foldl_join (FileSystem.refusal?_of_directory? hroot) hnames] at hcause
      split at hcause
      · rename_i hlong
        cases hcause
        exact ⟨place, names, rfl, hnode, hlong, rfl⟩
      · cases hcause
    · cases h

theorem headers_searchFrom_cons (settings : Settings) (files : FileSystem) (listed : List Text)
    (root : Text) (more : List Text) :
    (settings.searchFrom files listed (root :: more)).headers =
      match settings.report files listed root with
      | .error fault => .error fault
      | .ok report => (settings.searchFrom files (listed ++ report.listed) more).headers.map
          (report.listed ++ ·) := by
  rw [searchFrom]
  cases settings.report files listed root with
  | error fault => rfl
  | ok report =>
    simp only [Search.headers]
    cases (settings.searchFrom files (listed ++ report.listed) more).failure <;> rfl

theorem headers_searchFrom_cons_eq_ok {more : List Text}
    (h : (settings.searchFrom files listed (root :: more)).headers = .ok headers) :
    ∃ report rest, settings.report files listed root = .ok report ∧
      (settings.searchFrom files (listed ++ report.listed) more).headers = .ok rest ∧
      headers = report.listed ++ rest := by
  rw [headers_searchFrom_cons] at h
  split at h
  · cases h
  · rename_i report hreport
    cases hrest : (settings.searchFrom files (listed ++ report.listed) more).headers with
    | error fault =>
      rw [hrest] at h
      cases h
    | ok rest =>
      rw [hrest] at h
      cases h
      exact ⟨report, rest, hreport, hrest, rfl⟩

private theorem exists_of_headers_searchFrom_error
    (h : (settings.searchFrom files listed roots).headers = .error fault) :
    ∃ root ∈ roots, ∃ listed, settings.report files listed root = .error fault := by
  induction roots generalizing listed with
  | nil => cases h
  | cons root more ih =>
    rw [headers_searchFrom_cons] at h
    split at h
    · rename_i fault' hreport
      cases h
      exact ⟨root, List.mem_cons_self, listed, hreport⟩
    · rename_i report hreport
      cases hrest : (settings.searchFrom files (listed ++ report.listed) more).headers with
      | error fault' =>
        rw [hrest] at h
        cases h
        obtain ⟨other, hother, hfault⟩ := ih hrest
        exact ⟨other, List.mem_cons_of_mem _ hother, hfault⟩
      | ok rest =>
        rw [hrest] at h
        cases h

/-- Whether some root finds a path and no root before it finds one of the same components. -/
def FindsFirst (settings : Settings) (files : FileSystem) : List Text → Text → Prop
  | [], _ => False
  | root :: more, path => settings.Finds files root path ∨
      (∀ other, settings.Finds files root other → Path.components other ≠ Path.components path) ∧
        FindsFirst settings files more path

theorem FindsFirst.exists_root (h : settings.FindsFirst files roots path) :
    ∃ root ∈ roots, settings.Finds files root path := by
  induction roots with
  | nil => cases h
  | cons root more ih =>
    rcases h with h | ⟨_, h⟩
    · exact ⟨root, List.mem_cons_self, h⟩
    · obtain ⟨other, hother, hfinds⟩ := ih h
      exact ⟨other, List.mem_cons_of_mem _ hother, hfinds⟩

private theorem FindsFirst.of_append {front back : List Text} (h : settings.Finds files root path)
    (hfront : ∀ before ∈ front, ∀ other, settings.Finds files before other →
      Path.components other ≠ Path.components path) :
    settings.FindsFirst files (front ++ root :: back) path := by
  induction front with
  | nil => exact .inl h
  | cons before front ih =>
    obtain ⟨hbefore, hfront⟩ := List.forall_mem_cons.mp hfront
    exact .inr ⟨hbefore, ih hfront⟩

/-- A path is listed exactly if it is found, and its components are not listed before. -/
theorem mem_headers_searchFrom_iff (htree : files.IsTree)
    (h : (settings.searchFrom files listed roots).headers = .ok headers) :
    path ∈ headers ↔
      Path.components path ∉ listed.map Path.components ∧ settings.FindsFirst files roots path := by
  induction roots generalizing listed headers with
  | nil =>
    obtain rfl : [] = headers := Except.ok.inj h
    simp [FindsFirst]
  | cons root more ih =>
    obtain ⟨report, rest, hreport, hrest, rfl⟩ := headers_searchFrom_cons_eq_ok h
    have hlisted := (listed_of_report htree hreport).1
    rw [List.mem_append, hlisted, ih hrest, FindsFirst, List.map_append, List.mem_append, not_or]
    -- What the root has found and listed before does not matter for a path that was not listed.
    have hnew (hpath : Path.components path ∉ listed.map Path.components) :
        Path.components path ∉ report.listed.map Path.components ↔
          ∀ other, settings.Finds files root other →
            Path.components other ≠ Path.components path := by
      simp only [List.mem_map, hlisted, not_exists, not_and]
      constructor
      · intro hall other hother heq
        exact hall other ⟨hother, by simpa [heq] using hpath⟩ heq
      · exact fun hall other hother => hall other hother.1
    by_cases hpath : Path.components path ∈ listed.map Path.components
    · simp [hpath]
    · rw [hnew hpath]
      simp [hpath]

private theorem pairwise_headers_searchFrom (htree : files.IsTree)
    (h : (settings.searchFrom files listed roots).headers = .ok headers) :
    headers.Pairwise fun path other => Path.components path ≠ Path.components other := by
  induction roots generalizing listed headers with
  | nil =>
    obtain rfl : [] = headers := Except.ok.inj h
    exact .nil
  | cons root more ih =>
    obtain ⟨report, rest, hreport, hrest, rfl⟩ := headers_searchFrom_cons_eq_ok h
    rw [List.pairwise_append]
    refine ⟨(listed_of_report htree hreport).2, ih hrest, ?_⟩
    intro path hpath other hother heq
    obtain ⟨hnew, _⟩ := (mem_headers_searchFrom_iff htree hrest).mp hother
    rw [List.map_append, List.mem_append, not_or, ← heq] at hnew
    exact hnew.2 (List.mem_map_of_mem hpath)

/-- A search lists every header file below a root that is a directory, under the first root that
reaches it, and nothing else. Two of the listed paths can be those of one file only if one of them
goes up or they do not start alike. The search fails only at a directory whose path is too long. -/
theorem discover_lists_header_files (settings : Settings) (files : FileSystem)
    (htree : files.IsTree) :
    (∃ root ∈ settings.roots, ∃ place names, files.directory? root = some place ∧
      files.get? (place ++ names) = some .directory ∧
      Path.maxBytes < (names.foldl Path.join root).byteLength ∧
      settings.discover files = .error (.walkRoot (names.foldl Path.join root) .nameTooLong)) ∨
    ∃ headers, settings.discover files = .ok headers ∧
      (∀ header ∈ headers, ∃ root ∈ settings.roots, ∃ place names,
        settings.HeaderAt files root place names ∧ header = names.foldl Path.join root ∧
          files.placeOf header = place ++ names) ∧
      (∀ front root back place names, settings.roots = front ++ root :: back →
        settings.HeaderAt files root place names →
        (∀ before ∈ front, ∀ above, files.directory? before = some above →
          ¬ above <+: place ++ names) →
        names.foldl Path.join root ∈ headers) ∧
      headers.Pairwise fun path other =>
        files.placeOf path ≠ files.placeOf other ∨ .up ∈ Path.components path ∨
          .up ∈ Path.components other ∨ Path.origin? path ≠ Path.origin? other := by
  cases hdiscover : settings.discover files with
  | error fault =>
    left
    obtain ⟨root, hroot, listed, hreport⟩ := exists_of_headers_searchFrom_error hdiscover
    obtain ⟨place, names, hplace, hnode, hlong, rfl⟩ := exists_of_report_error htree hreport
    exact ⟨root, hroot, place, names, hplace, hnode, hlong, rfl⟩
  | ok headers =>
    right
    refine ⟨headers, rfl, ?_, ?_, ?_⟩
    · intro header hheader
      obtain ⟨_, hfinds⟩ := (mem_headers_searchFrom_iff htree hdiscover).mp hheader
      obtain ⟨root, hroot, place, names, hnames, rfl⟩ := hfinds.exists_root
      exact ⟨root, hroot, place, names, hnames, rfl, hnames.placeOf_eq htree⟩
    · intro front root back place names hroots hnames hfirst
      refine (mem_headers_searchFrom_iff htree hdiscover).mpr ⟨by simp, ?_⟩
      rw [hroots]
      refine FindsFirst.of_append ⟨place, names, hnames, rfl⟩ ?_
      rintro before hbefore other ⟨above, names', hnames', rfl⟩ hcomponents
      refine hfirst before hbefore above hnames'.root_eq ⟨names', ?_⟩
      rw [← hnames'.placeOf_eq htree, ← hnames.placeOf_eq htree, ← files.foldl_components,
        hcomponents, files.foldl_components]
    · refine (pairwise_headers_searchFrom htree hdiscover).imp ?_
      intro path other hne
      refine Classical.byContradiction fun hsame => hne ?_
      simp only [ne_eq, not_or, Classical.not_not] at hsame
      obtain ⟨hplace, hpath, hother, horigin⟩ := hsame
      exact FileSystem.components_eq_of_placeOf_eq hplace hpath hother horigin

/-- Nested and repeated roots: a header is listed under the first of them that reaches it. -/
theorem discover_lists_header_files_nested :
    let files : FileSystem :=
      { nodes := [(["s".toList], .directory), (["s".toList, "i".toList], .directory),
          (["s".toList, "i".toList, "a.h".toList], .file []),
          (["s".toList, "b.h".toList], .file [])] }
    let settings : Settings :=
      { roots := ["s/i".toList, "s".toList, "s/i/".toList], output := "o.cpp".toList }
    files.IsTree ∧ ∃ headers, settings.discover files = .ok headers ∧
      "s/i/a.h".toList ∈ headers ∧ "s/b.h".toList ∈ headers := by
  intro files settings
  have htree : files.IsTree := by decide
  rcases discover_lists_header_files settings files htree with herror | hlisted
  · obtain ⟨_, _, _, _, _, _, _, herror⟩ := herror
    have hdiscover : settings.discover files = .ok ["s/i/a.h".toList, "s/b.h".toList] := by cbv
    rw [hdiscover] at herror
    cases herror
  · obtain ⟨headers, hheaders, _, hfirst, _⟩ := hlisted
    have ha : settings.HeaderAt files "s/i".toList ["s".toList, "i".toList] ["a.h".toList] :=
      ⟨by cbv, by decide, ⟨[], by cbv⟩, by cbv⟩
    have hb : settings.HeaderAt files "s".toList ["s".toList] ["b.h".toList] :=
      ⟨by cbv, by decide, ⟨[], by cbv⟩, by cbv⟩
    refine ⟨htree, headers, hheaders, hfirst [] _ _ _ _ rfl ha (by simp),
      hfirst ["s/i".toList] _ _ _ _ rfl hb ?_⟩
    intro before hbefore above habove
    obtain rfl : before = "s/i".toList := List.mem_singleton.mp hbefore
    obtain rfl : ["s".toList, "i".toList] = above := Option.some.inj (ha.root_eq.symm.trans habove)
    decide

/-- One header is listed under two spellings of its root. -/
theorem discover_lists_header_twice :
    let files : FileSystem :=
      { nodes := [(["a".toList], .directory), (["a".toList, "x.hpp".toList], .file [])] }
    let settings : Settings := { roots := ["a".toList, "./a".toList], output := "o.cpp".toList }
    files.IsTree ∧ settings.discover files = .ok ["a/x.hpp".toList, "./a/x.hpp".toList] ∧
      files.placeOf "a/x.hpp".toList = files.placeOf "./a/x.hpp".toList := by
  intro files settings
  exact ⟨by decide, by cbv, by decide⟩

end Settings

end Registrar
