import Mathlib.Data.List.Induction
import Mathlib.Data.List.Nodup
import Registrar.Include

/-! Which headers the includes stand for. An include path is what is left of a header without the
root in front of it. So two headers below different roots can have one include path, and then only
one include stands for both; nothing else keeps a header from having an include of its own. -/

namespace Registrar.Include

variable {roots paths : List Text} {registry : Registry} {header other : Text}

private theorem eraseDups_concat (paths : List Text) (path : Text) :
    (paths ++ [path]).eraseDups =
      if path ∈ paths then paths.eraseDups else paths.eraseDups ++ [path] := by
  rw [List.eraseDups_append]
  by_cases h : path ∈ paths
  · simp [List.removeAll, h]
  · simp [List.removeAll, h, List.eraseDups_cons]

private theorem nodup_eraseDups (paths : List Text) : paths.eraseDups.Nodup := by
  induction paths using List.reverseRecOn with
  | nil => exact .nil
  | append_singleton paths path ih =>
    rw [eraseDups_concat]
    split
    · exact ih
    · rename_i h
      refine List.nodup_append.mpr ⟨ih, by simp, ?_⟩
      rintro other hother _ hpath rfl
      obtain rfl := List.mem_singleton.mp hpath
      exact h (List.mem_eraseDups.mp hother)

private theorem eraseDups_eq_self_iff : paths.eraseDups = paths ↔ paths.Nodup := by
  constructor
  · intro h
    rw [← h]
    exact nodup_eraseDups paths
  · intro h
    induction paths using List.reverseRecOn with
    | nil => rfl
    | append_singleton paths path ih =>
      obtain ⟨hpaths, _, hpath⟩ := List.nodup_append.mp h
      have hnew : path ∉ paths := fun hmem => hpath path hmem path List.mem_cons_self rfl
      rw [eraseDups_concat, if_neg hnew, ih hpaths]

/-- Repeated paths can be left out before a map as well as after it. -/
private theorem eraseDups_map_eraseDups (f : Text → Text) (paths : List Text) :
    (paths.eraseDups.map f).eraseDups = (paths.map f).eraseDups := by
  induction paths using List.reverseRecOn with
  | nil => rfl
  | append_singleton paths path ih =>
    rw [List.map_append, List.map_singleton, eraseDups_concat, eraseDups_concat]
    by_cases h : path ∈ paths
    · rw [if_pos h, if_pos (List.mem_map_of_mem h), ih]
    · have hmem : f path ∈ paths.eraseDups.map f ↔ f path ∈ paths.map f := by
        simp only [List.mem_map, List.mem_eraseDups]
      rw [if_neg h, List.map_append, List.map_singleton, eraseDups_concat, ih]
      simp only [hmem]

/-- What the include path leaves out in front of a header: the first root that the header lies
below, or nothing. -/
def front (roots : List Text) (header : Text) : Text :=
  ((roots.map rootStart).find? fun start => Text.startsWith start (normalize header)).getD []

def headers (registry : Registry) : List Text :=
  (registry.registered.map fun cls => normalize cls.header).eraseDups

private theorem normalize_normalize (path : Text) :
    normalize (normalize path) = normalize path := by
  rw [normalize, normalize, List.map_map]
  refine List.map_congr_left fun c _ => ?_
  by_cases h : c = '\\' <;> simp [h]

private theorem normalize_of_mem_headers (h : header ∈ headers registry) :
    normalize header = header := by
  obtain ⟨cls, _, rfl⟩ := List.mem_map.mp (List.mem_eraseDups.mp h)
  exact normalize_normalize cls.header

private theorem path_normalize (roots : List Text) (header : Text) :
    path roots (normalize header) = path roots header := by
  rw [path, path, normalize_normalize]

private theorem front_append_path (roots : List Text) (header : Text) :
    front roots header ++ path roots header = normalize header := by
  induction roots with
  | nil => rfl
  | cons root more ih =>
    simp only [front, path, List.map_cons, List.find?_cons, List.findSome?_cons,
      Text.startsWith] at ih ⊢
    cases hrest : Text.after? (rootStart root) (normalize header) with
    | none => exact ih
    | some rest => exact (Text.after?_eq_some_iff.mp hrest).symm

/-- Two headers have one include path exactly if they differ in nothing but what it leaves out. -/
private theorem path_eq_path_iff : path roots header = path roots other ↔
    ∃ rest, normalize header = front roots header ++ rest ∧
      normalize other = front roots other ++ rest := by
  constructor
  · intro h
    refine ⟨path roots header, (front_append_path roots header).symm, ?_⟩
    rw [h, front_append_path]
  · rintro ⟨rest, hheader, hother⟩
    rw [← front_append_path] at hheader hother
    rw [List.append_cancel_left hheader, List.append_cancel_left hother]

private theorem collect_eq (roots : List Text) (registry : Registry) :
    collect roots registry = ((headers registry).map (path roots)).eraseDups := by
  rw [headers, eraseDups_map_eraseDups, List.map_map, collect]
  simp only [Function.comp_def, path_normalize]

/-- Every registered class has the include path of its header among the includes, which come in the
order of the headers and without repetition. Each header has an include of its own exactly if no two
headers below different roots, or with only one of them below a root, go on alike. -/
theorem collect_includes_each_header_iff (roots : List Text) (registry : Registry) :
    (∀ cls ∈ registry.registered, path roots cls.header ∈ collect roots registry) ∧
      collect roots registry = ((headers registry).map (path roots)).eraseDups ∧
      (collect roots registry = (headers registry).map (path roots) ↔
        ∀ header ∈ headers registry, ∀ other ∈ headers registry,
          front roots header ≠ front roots other →
            ∀ rest, header = front roots header ++ rest → other ≠ front roots other ++ rest) := by
  refine ⟨fun cls hcls => List.mem_eraseDups.mpr (List.mem_map_of_mem hcls),
    collect_eq roots registry, ?_⟩
  rw [collect_eq, eraseDups_eq_self_iff]
  constructor
  · intro hnodup header hheader other hother hfront rest hrest hrest'
    have hpath : path roots header = path roots other := by
      rw [path_eq_path_iff, normalize_of_mem_headers hheader, normalize_of_mem_headers hother]
      exact ⟨rest, hrest, hrest'⟩
    exact hfront (congrArg (front roots) (List.inj_on_of_nodup_map hnodup hheader hother hpath))
  · intro h
    refine List.pairwise_map.mpr ((nodup_eraseDups _).imp_of_mem ?_)
    intro header other hheader hother hne hpath
    obtain ⟨rest, hrest, hrest'⟩ := path_eq_path_iff.mp hpath
    rw [normalize_of_mem_headers hheader] at hrest
    rw [normalize_of_mem_headers hother] at hrest'
    refine h header hheader other hother ?_ rest hrest hrest'
    intro hfront
    exact hne (by rw [hrest, hrest', hfront])

/-- Two headers of one name below two roots: one include stands for both. -/
theorem collect_includes_one_of_two_headers :
    let cls (name header : Text) : ReflectedClass := ⟨.global name, header, some name, [], []⟩
    let registry : Registry :=
      [cls "A".toList "a/x.hpp".toList, cls "B".toList "b/x.hpp".toList]
    headers registry = ["a/x.hpp".toList, "b/x.hpp".toList] ∧
      collect ["a".toList, "b".toList] registry = ["x.hpp".toList] := by
  decide +kernel

end Registrar.Include
