import Mathlib
import Registrar.Proofs.FileSystem.Writing
import Registrar.Run

/-! What a run writes. All headers are read before the first change, so a run that cannot read one
of them leaves the file system as it is. A run that succeeds writes the source of the classes that
were there before it, and nothing else but directories above the output. -/

namespace Registrar

namespace FileSystem

variable {files : FileSystem} {path text : Text}

theorem readText_eq_ok_iff :
    files.readText path = .ok text ↔
      ∃ place bytes, files.lookup .use path = .ok (.found place (.file bytes)) ∧
        Text.decode? bytes = some text := by
  constructor
  · intro h
    unfold readText at h
    split at h
    · rename_i place bytes hfound
      split at h
      · rename_i hdecoded
        cases h
        exact ⟨place, bytes, hfound, hdecoded⟩
      · cases h
    all_goals cases h
  · rintro ⟨place, bytes, hfound, hdecoded⟩
    simp only [readText, hfound, hdecoded]

private theorem readHeader_eq_ok_iff :
    files.readHeader path = .ok text ↔ files.readText path = .ok text := by
  unfold readHeader
  cases files.readText path <;> simp [Except.mapError]

private theorem writeOutput_eq_ok_iff {after : FileSystem} :
    files.writeOutput path text = (.ok (), after) ↔
      files.writeText path text = (.ok (), after) := by
  unfold writeOutput
  obtain ⟨result, written⟩ := files.writeText path text
  cases result <;> simp [Except.mapError]

end FileSystem

namespace Markers

variable {markers : Markers} {files : FileSystem} {headers : List Text} {classes : Registry}

theorem scanFiles_cons_eq_ok_iff {header : Text} {more : List Text} :
    markers.scanFiles files (header :: more) = .ok classes ↔
      ∃ text rest, files.readText header = .ok text ∧ markers.scanFiles files more = .ok rest ∧
        classes = markers.scan header text ++ rest := by
  simp only [← FileSystem.readHeader_eq_ok_iff, scanFiles, scanFile]
  cases files.readHeader header with
  | error fault => simp [Except.map]
  | ok text => cases scanFiles markers files more <;> simp [Except.map, Registry.merge, eq_comm]

/-- A scan of header files reads every one of them. -/
private theorem exists_text_of_scanFiles (h : markers.scanFiles files headers = .ok classes) :
    ∀ header ∈ headers, ∃ text, files.readText header = .ok text := by
  induction headers generalizing classes with
  | nil => simp
  | cons header more ih =>
    obtain ⟨text, rest, htext, hrest, _⟩ := scanFiles_cons_eq_ok_iff.mp h
    exact List.forall_mem_cons.mpr ⟨⟨text, htext⟩, ih hrest⟩

end Markers

namespace Settings

variable {settings : Settings} {files after : FileSystem} {headers : List Text}
  {classes : Registry} {summary : Summary} {fault : Fault}

private theorem scan_eq_ok_iff {count : Nat} :
    settings.scan files = .ok (count, classes) ↔
      ∃ headers, settings.discover files = .ok headers ∧
        settings.markers.scanFiles files headers = .ok classes ∧ count = headers.length := by
  unfold scan
  cases settings.discover files with
  | error fault => simp
  | ok headers =>
    simp only [Except.ok.injEq, exists_eq_left']
    cases settings.markers.scanFiles files headers with
    | error fault => simp [Except.map]
    | ok found => simp [Except.map, eq_comm, and_comm]

private theorem run_of_scan_error (h : settings.scan files = .error fault) :
    ∃ fault, settings.run files = (.error fault, files) := by
  unfold run generate
  rw [h]
  cases settings.markers.validate with
  | error fault => exact ⟨fault, rfl⟩
  | ok _ => exact ⟨fault, rfl⟩

theorem run_of_discover_error (hvalid : settings.markers.validate = .ok ())
    (h : settings.discover files = .error fault) : settings.run files = (.error fault, files) := by
  rw [run, hvalid]
  simp only [generate, scan, h]

/-- A run succeeds if its markers are valid, its headers can be found and read and its output can be
written. -/
theorem run_eq_ok_iff :
    settings.run files = (.ok summary, after) ↔
      settings.markers.validate = .ok () ∧ ∃ headers classes,
        settings.discover files = .ok headers ∧
          settings.markers.scanFiles files headers = .ok classes ∧
          files.writeText settings.output (settings.render classes) = (.ok (), after) ∧
          summary = settings.summary headers.length classes := by
  unfold run generate
  cases settings.markers.validate with
  | error fault => simp
  | ok _ =>
    simp only [true_and, ← FileSystem.writeOutput_eq_ok_iff]
    constructor
    · intro h
      split at h
      · cases h
      · rename_i headers classes hscan
        obtain ⟨headers, hheaders, hclasses, rfl⟩ := scan_eq_ok_iff.mp hscan
        split at h
        · cases h
        · rename_i written hwritten
          cases h
          exact ⟨headers, classes, hheaders, hclasses, hwritten, rfl⟩
    · rintro ⟨headers, classes, hheaders, hclasses, hwritten, rfl⟩
      simp only [scan_eq_ok_iff.mpr ⟨headers, hheaders, hclasses, rfl⟩, hwritten]

/-- A run with invalid markers, or with a header that leads to no file or to bytes that spell no
text, fails and changes nothing. A run that succeeds puts the source of the classes it found into
the output, leaves every other file as it is and adds nothing but directories above the output. -/
theorem run_writes_source_or_nothing (settings : Settings) (files : FileSystem) :
    (settings.markers.validate ≠ .ok () → ∃ fault, settings.run files = (.error fault, files)) ∧
    (∀ headers, settings.discover files = .ok headers →
      (∃ header ∈ headers, ∀ place bytes,
        files.lookup .use header = .ok (.found place (.file bytes)) → Text.decode? bytes = none) →
      ∃ fault, settings.run files = (.error fault, files)) ∧
    ∀ summary after, settings.run files = (.ok summary, after) → ∃ headers classes place,
      settings.discover files = .ok headers ∧
        settings.markers.scanFiles files headers = .ok classes ∧
        after.lookup .use settings.output =
          .ok (.found place (.file (Text.encode (settings.render classes)))) ∧
        (∀ other ≠ place, ∀ bytes,
          after.get? other = some (.file bytes) ↔ files.get? other = some (.file bytes)) ∧
        (∀ other ≠ place, after.get? other ≠ files.get? other →
          files.get? other = none ∧ after.get? other = some .directory ∧
            ∃ above ∈ (Path.ancestors settings.output).tail,
              after.directory? above = some other) ∧
        summary = ⟨headers.length, classes.length, classes.registered.length, settings.output⟩ := by
  refine ⟨?_, ?_, ?_⟩
  · intro hinvalid
    unfold run
    cases hmarkers : settings.markers.validate with
    | error fault => exact ⟨fault, rfl⟩
    | ok _ => exact absurd hmarkers hinvalid
  · rintro headers hheaders ⟨header, hmem, hunreadable⟩
    cases hscan : settings.scan files with
    | error fault => exact run_of_scan_error hscan
    | ok found =>
      obtain ⟨headers', hheaders', hclasses, _⟩ := scan_eq_ok_iff.mp hscan
      obtain rfl : headers = headers' := Except.ok.inj (hheaders.symm.trans hheaders')
      obtain ⟨text, htext⟩ := Markers.exists_text_of_scanFiles hclasses header hmem
      obtain ⟨place, bytes, hfound, hdecoded⟩ := FileSystem.readText_eq_ok_iff.mp htext
      rw [hunreadable place bytes hfound] at hdecoded
      cases hdecoded
  · intro summary after hrun
    obtain ⟨_, headers, classes, hheaders, hclasses, hwritten, rfl⟩ := run_eq_ok_iff.mp hrun
    obtain ⟨made, place, hwrites⟩ := FileSystem.exists_of_writeText hwritten
    refine ⟨headers, classes, place, hheaders, hclasses, hwrites.lookup_eq .use,
      fun other hother bytes => hwrites.get?_file_iff hother bytes, ?_, rfl⟩
    intro other hother hchanged
    exact (hwrites.get?_cases hother).resolve_left hchanged

/-- The output lies below the root that is scanned, in a directory that is made. With a second
header that is no text, the same run changes nothing. -/
theorem run_writes_source_or_nothing_below_root :
    let source : Text := "class A \x7b\nREFLECT_CLASS()\n\x7d;\n".toList
    let good : FileSystem := { nodes := [(["a".toList], .directory),
      (["a".toList, "x.hpp".toList], .file (Text.encode source))] }
    let bad : FileSystem := { nodes := good.nodes ++ [(["a".toList, "y.hpp".toList], .file [255])] }
    let settings : Settings := { roots := ["a".toList], output := "a/g/o.cpp".toList }
    let written : List String :=
      ["// This file is auto-generated by reflectgen.", "// Do not edit manually.", "",
        "#include \"engine/global_context.hpp\"", "#include \"core/reflect/reflect_system.hpp\"",
        "#include \"x.hpp\"", "", "void Parser() \x7b", "    using namespace wen;",
        "    if (global_context == nullptr) \x7b", "        return;", "    \x7d",
        "    if (global_context->reflect_system.getInstance() == nullptr) \x7b",
        "        return;", "    \x7d",
        "    auto& reflect_system = *global_context->reflect_system;", "", "    \x7b",
        "        auto class_builder = reflect_system.addClass<A>(\"A\");", "    \x7d", "",
        "\x7d", ""]
    let bytes := Text.encode (List.intercalate ['\n'] (written.map String.toList))
    (∃ fault, settings.run bad = (.error fault, bad)) ∧
      ∃ after place, settings.run good = (.ok ⟨1, 1, 1, "a/g/o.cpp".toList⟩, after) ∧
        after.lookup .use "a/g/o.cpp".toList = .ok (.found place (.file bytes)) := by
  intro source good bad settings written bytes
  let found : Registry := [⟨.global "A".toList, "a/x.hpp".toList, some "A".toList, [], []⟩]
  have hscan : settings.markers.scan "a/x.hpp".toList source = found := by decide +kernel
  have hbytes : Text.encode (settings.render found) = bytes :=
    congrArg Text.encode (by decide +kernel)
  -- From here on it does not matter what is read and written.
  clear_value source bytes
  have hbad : settings.discover bad = .ok ["a/x.hpp".toList, "a/y.hpp".toList] := by cbv
  have hlookup : bad.lookup .use "a/y.hpp".toList =
      .ok (.found ["a".toList, "y.hpp".toList] (.file [255])) := by cbv
  have hgood : settings.discover good = .ok ["a/x.hpp".toList] := by cbv
  have hread : good.readText "a/x.hpp".toList = .ok source :=
    FileSystem.readText_eq_ok_iff.mpr
      ⟨["a".toList, "x.hpp".toList], _, by cbv, Text.decode?_encode source⟩
  have hwrite (text : Text) : good.writeText settings.output text = (.ok (),
      { nodes := good.nodes ++ [(["a".toList, "g".toList], .directory),
        (["a".toList, "g".toList, "o.cpp".toList], .file (Text.encode text))] }) := by cbv
  have hclasses : settings.markers.scanFiles good ["a/x.hpp".toList] = .ok found :=
    Markers.scanFiles_cons_eq_ok_iff.mpr ⟨source, [], hread, rfl,
      ((List.append_nil _).trans hscan).symm⟩
  have hrun : settings.run good = (.ok ⟨1, 1, 1, "a/g/o.cpp".toList⟩, _) :=
    run_eq_ok_iff.mpr ⟨rfl, _, _, hgood, hclasses, hwrite _, rfl⟩
  obtain ⟨_, hunreadable, _⟩ := run_writes_source_or_nothing settings bad
  obtain ⟨headers, classes, place, hheaders, hscanned, hplace, _⟩ :=
    (run_writes_source_or_nothing settings good).2.2 _ _ hrun
  obtain rfl : ["a/x.hpp".toList] = headers := Except.ok.inj (hgood.symm.trans hheaders)
  obtain rfl : found = classes := Except.ok.inj (hclasses.symm.trans hscanned)
  rw [hbytes] at hrun hplace
  refine ⟨hunreadable _ hbad ⟨"a/y.hpp".toList, by simp, ?_⟩, _, place, hrun, hplace⟩
  intro spot bytes hspot
  obtain ⟨_, rfl⟩ : _ ∧ [255] = bytes := by simpa using hlookup.symm.trans hspot
  cbv

end Settings

end Registrar
