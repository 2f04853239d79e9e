import Registrar.FileSystem.Operation

/-! Where a path leads once the file system has changed. Only directories and links lead on to other
places, so a path keeps its destination as long as these stay and the destination itself does. -/

namespace Registrar

/-- The place that a write to a destination puts its file at: a free name, or a file that is
there. -/
def Destination.target? : Destination → Option Location
  | .free place => some place
  | .found _ .directory => none
  | .found place _ => some place

namespace FileSystem

/-- Whether every directory and every link of one file system stands in another, and relative paths
start at the same place. -/
structure KeepsWays (before after : FileSystem) : Prop where
  working : after.working = before.working
  directory : ∀ place, before.get? place = some .directory → after.get? place = some .directory
  link : ∀ place target, before.get? place = some (.link target) →
    after.get? place = some (.link target)

namespace KeepsWays

theorem trans {before middle after : FileSystem} (first : KeepsWays before middle)
    (last : KeepsWays middle after) : KeepsWays before after where
  working := last.working.trans first.working
  directory place h := last.directory place (first.directory place h)
  link place target h := last.link place target (first.link place target h)

end KeepsWays

@[simp] theorem working_put (files : FileSystem) (place : Location) (node : Node) :
    (files.put place node).working = files.working := by
  unfold put
  split <;> rfl

variable {files before after : FileSystem} {purpose : Purpose} {links : Nat} {slash : Bool}
  {start place : Location} {steps : List Component} {node : Node} {path : Text}

/-- A node that is put where neither a directory nor a link stands leaves every way as it is. -/
theorem keepsWays_put (node : Node) (hdirectory : files.get? place ≠ some .directory)
    (hlink : ∀ target, files.get? place ≠ some (.link target)) :
    KeepsWays files (files.put place node) where
  working := working_put files place node
  directory other h := by
    have hne : other ≠ place := fun heq => hdirectory (heq ▸ h)
    rwa [get?_put_of_ne files node hne]
  link other target h := by
    have hne : other ≠ place := fun heq => hlink target (heq ▸ h)
    rwa [get?_put_of_ne files node hne]

theorem follow_of_keepsWays (h : KeepsWays before after)
    (hnode : node ≠ .directory → after.get? place = some node)
    (hfound : before.follow purpose links slash start steps = .ok (.found place node)) :
    after.follow purpose links slash start steps = .ok (.found place node) := by
  fun_induction follow before purpose links slash start steps with
  | case1 => simpa [follow] using hfound
  | case2 links slash start more ih => simpa [follow] using ih hfound
  | case3 links slash start more ih => simpa [follow] using ih hfound
  | case4 links slash start more ih => simpa [follow] using ih hfound
  | case9 links slash start name more hwrite hshort hthere ih =>
    rw [follow, if_neg hwrite, if_neg hshort, h.directory _ hthere]
    exact ih hfound
  | case10 links slash start name more hwrite hshort bytes hthere hlast =>
    cases hfound
    rw [follow, if_neg hwrite, if_neg hshort, hnode (by simp)]
    simp only [if_pos hlast]
  | case13 slash start name more hwrite hshort target hthere links ih =>
    rw [follow, if_neg hwrite, if_neg hshort, h.link _ _ hthere]
    exact ih hfound
  | _ => cases hfound

/-- The destination of a write, once a file lies there, is found for every purpose. -/
theorem follow_written {dest : Destination} {bytes : List UInt8} (h : KeepsWays before after)
    (hdest : before.follow .write links slash start steps = .ok dest)
    (htarget : dest.target? = some place) (hwritten : after.get? place = some (.file bytes)) :
    after.follow purpose links slash start steps = .ok (.found place (.file bytes)) := by
  -- A write that is not refused is not refused for any other purpose.
  have hany {slash last : Bool} (hwrite : ¬ (slash && last && Purpose.write == .write) = true) :
      ¬ (slash && last && purpose == .write) = true := by
    intro hpurpose
    exact hwrite (by simp_all)
  fun_induction follow before .write links slash start steps with
  | case1 =>
    cases hdest
    cases htarget
  | case2 links slash start more ih => simpa [follow] using ih hdest
  | case3 links slash start more ih => simpa [follow] using ih hdest
  | case4 links slash start more ih => simpa [follow] using ih hdest
  | case7 links slash start name more hwrite hshort hthere hlast =>
    cases hdest
    cases htarget
    have hslash : slash = false := by simpa [hlast] using hwrite
    rw [follow, if_neg (hany hwrite), if_neg hshort, hwritten]
    simp only [hlast, hslash, Bool.not_false, Bool.and_self, if_true]
  | case9 links slash start name more hwrite hshort hthere ih =>
    rw [follow, if_neg (hany hwrite), if_neg hshort, h.directory _ hthere]
    exact ih hdest
  | case10 links slash start name more hwrite hshort bytes hthere hlast =>
    cases hdest
    cases htarget
    rw [follow, if_neg (hany hwrite), if_neg hshort, hwritten]
    simp only [if_pos hlast]
  | case13 slash start name more hwrite hshort target hthere links ih =>
    rw [follow, if_neg (hany hwrite), if_neg hshort, h.link _ _ hthere]
    exact ih hdest
  | _ => cases hdest

/-- A write puts its file below a directory, at a free name or in the place of a file. -/
theorem get?_of_follow_write {dest : Destination}
    (hdest : before.follow .write links slash start steps = .ok dest)
    (htarget : dest.target? = some place) :
    place ≠ [] ∧ (before.get? place = none ∨ ∃ bytes, before.get? place = some (.file bytes)) := by
  fun_induction follow before .write links slash start steps with
  | case1 =>
    cases hdest
    cases htarget
  | case2 links slash start more ih => exact ih hdest
  | case3 links slash start more ih => exact ih hdest
  | case4 links slash start more ih => exact ih hdest
  | case7 links slash start name more hwrite hshort hthere hlast =>
    cases hdest
    cases htarget
    exact ⟨by simp, .inl hthere⟩
  | case9 links slash start name more hwrite hshort hthere ih => exact ih hdest
  | case10 links slash start name more hwrite hshort bytes hthere hlast =>
    cases hdest
    cases htarget
    exact ⟨by simp, .inr ⟨bytes, hthere⟩⟩
  | case13 slash start name more hwrite hshort target hthere links ih => exact ih hdest
  | _ => cases hdest

/-- Steps that lead to a directory can be taken before others: these start there, with the links
that are left. -/
theorem follow_append {front more : List Component} (hmore : more ≠ [])
    (hfront : files.follow .use links slash start front = .ok (.found place .directory)) :
    ∃ left, ∀ slash, files.follow .use links slash start (front ++ more) =
      files.follow .use left slash place more := by
  fun_induction follow files .use links slash start front with
  | case1 links slash start =>
    cases hfront
    exact ⟨links, fun _ => rfl⟩
  | case2 links slash start front ih => simpa [follow] using ih hfront
  | case3 links slash start front ih => simpa [follow] using ih hfront
  | case4 links slash start front ih => simpa [follow] using ih hfront
  | case9 links slash start name front hwrite hshort hthere ih =>
    simpa [follow, hthere, hshort, (by decide : (Purpose.use == .write) = false)] using ih hfront
  | case13 slash start name front hwrite hshort target hthere links ih =>
    obtain ⟨left, hleft⟩ := ih hfront
    have hlast : (front ++ more).isEmpty = false := by simp [hmore]
    refine ⟨left, fun slash => ?_⟩
    rw [← hleft slash]
    simp [follow, hthere, hshort, hlast, (by decide : (Purpose.use == .write) = false)]
  | _ => cases hfront

theorem lookup_eq_ok_iff {dest : Destination} :
    files.lookup purpose path = .ok dest ↔ Path.refusal? path = none ∧
      files.follow purpose maxLinks (Path.endsWithSlash path) files.working (Path.steps path) =
        .ok dest := by
  unfold lookup
  cases Path.refusal? path <;> simp

theorem lookup_of_keepsWays (h : KeepsWays before after)
    (hnode : node ≠ .directory → after.get? place = some node)
    (hfound : before.lookup purpose path = .ok (.found place node)) :
    after.lookup purpose path = .ok (.found place node) := by
  rw [lookup_eq_ok_iff] at hfound ⊢
  rw [h.working]
  exact ⟨hfound.1, follow_of_keepsWays h hnode hfound.2⟩

theorem directory?_eq_some_iff :
    files.directory? path = some place ↔
      files.lookup .use path = .ok (.found place .directory) := by
  unfold directory?
  split <;> simp_all

theorem refusal?_of_directory? (h : files.directory? path = some place) :
    Path.refusal? path = none :=
  (lookup_eq_ok_iff.mp (directory?_eq_some_iff.mp h)).1

theorem directory?_of_keepsWays (h : KeepsWays before after)
    (hplace : before.directory? path = some place) : after.directory? path = some place := by
  rw [directory?_eq_some_iff] at hplace ⊢
  exact lookup_of_keepsWays h (fun hne => absurd rfl hne) hplace

theorem directoryAt_eq_ok_iff :
    files.directoryAt steps = .ok place ↔
      files.follow .use maxLinks false files.working steps = .ok (.found place .directory) := by
  unfold directoryAt
  split <;> simp_all

end FileSystem

end Registrar
