import Tagline.History.Medium

/-!
# Media that keep what is written

A medium is **faithful** if what was written without an error is what is read
next.  This is all that the history asks of its medium.  The memory is faithful
for no reason but its definition.  For a file it has to be seen that the temporary
file and the history file are no directories that a path leads through, so that
both paths lead to the same places before and after.

* `FileSystem.follow_of_directories` — names lead to the same place as long as no
  directory is taken away;
* `FileSystem.readPlace_of_write`, `FileSystem.read_of_rename` — what is read after
  writing and after renaming;
* the instances of `FaithfulMedium` for `Memory` and `HistoryFile`.
-/

namespace Tagline

/-- A medium whose bytes are the last ones that were written without an error. -/
class FaithfulMedium (β : Type) [Medium β] : Prop where
  read_of_write {m m' : β} {bytes : ByteArray} (h : Medium.write m bytes = (m', .ok ())) :
    Medium.read m' = .ok (some bytes)

instance : FaithfulMedium Memory where
  read_of_write h := by
    cases h
    rfl

namespace FileSystem

/-- What is put in a place stands there, and all else stands where it stood. -/
theorem node?_put {fs : FileSystem} {place other : List Text} {node : Node} (h : place ≠ []) :
    (fs.put place node).node? other = if other = place then some node else fs.node? other := by
  by_cases hempty : other = []
  · simp [node?, hempty, Ne.symm h]
  by_cases hsame : other = place
  · subst hsame
    simp [node?, put, hempty]
  · have hne : (place == other) = false := by simpa using Ne.symm hsame
    simp only [node?, put, List.isEmpty_iff, hempty, hsame, if_false, List.find?_cons, hne]
    rw [List.find?_filter]
    congr 2
    funext e
    by_cases he : e.1 = other <;> simp [he, hsame]

theorem node?_delete {fs : FileSystem} {place other : List Text} (h : other ≠ place) :
    (fs.delete place).node? other = fs.node? other := by
  by_cases hempty : other = []
  · simp [node?, hempty]
  · simp only [node?, delete, List.isEmpty_iff, hempty, if_false]
    rw [List.find?_filter]
    congr 2
    funext e
    by_cases he : e.1 = other <;> simp [he, h]

/-- **Names lead to the same place** in every file system that has the directories
of the first. -/
theorem follow_of_directories {fs fs' : FileSystem}
    (h : ∀ q, fs.node? q = some .directory → fs'.node? q = some .directory)
    {place target : List Text} {names : List Text} (hfollow : fs.follow place names = .ok target) :
    fs'.follow place names = .ok target := by
  induction names generalizing place with
  | nil => exact hfollow
  | cons name names ih =>
      rw [follow] at hfollow ⊢
      cases hnode : fs.node? place with
      | none =>
          rw [hnode] at hfollow
          cases hfollow
      | some node =>
          cases node with
          | file contents =>
              rw [hnode] at hfollow
              cases hfollow
          | directory =>
              rw [hnode] at hfollow
              rw [h place hnode]
              by_cases hname : name = parentName
              · simp only [hname, if_true] at hfollow ⊢
                exact ih hfollow
              · simp only [hname, if_false] at hfollow ⊢
                exact ih hfollow

/-- **What a write does**: it puts the contents in the place that the names lead to. -/
theorem write_eq_ok {fs fs' : FileSystem} {names : List Text} {contents : ByteArray}
    (h : fs.write names contents = (fs', .ok ())) :
    ∃ place, fs.follow [] names = .ok place ∧ fs.node? place ≠ some .directory ∧
      fs' = fs.put place (.file contents) := by
  unfold write at h
  split at h
  · cases h
  · next place hfollow =>
      split at h
      · cases h
      · next hnode =>
          cases h
          exact ⟨place, hfollow, hnode, rfl⟩

/-- What is located is the place that the path leads to. -/
theorem locate_eq_ok {fs : FileSystem} {p : Path} {place : List Text}
    (h : fs.locate p = .ok place) :
    p ≠ [] ∧ fs.follow [] (Path.names p) = .ok place ∧
      ∀ contents, fs.node? place = some (.file contents) → Path.namesDirectory p = false := by
  unfold locate at h
  split at h
  · cases h
  · next hempty =>
      split at h
      · cases h
      · next target hfollow =>
          split at h
          · cases h
          · next hnot =>
              cases h
              refine ⟨by simpa using hempty, hfollow, fun contents hnode => ?_⟩
              rw [← Bool.not_eq_true]
              exact fun hdirectory => hnot contents hdirectory hnode

/-- A place that a path leads to is located, unless the path asks for a directory. -/
theorem locate_of_follow {fs : FileSystem} {p : Path} {place : List Text} (hne : p ≠ [])
    (hfollow : fs.follow [] (Path.names p) = .ok place) (hfile : Path.namesDirectory p = false) :
    fs.locate p = .ok place := by
  simp [locate, hne, hfollow, hfile]

/-- **What a rename does**: the contents leave one place and are put in the other. -/
theorem rename_eq_ok {fs fs' : FileSystem} {names : List Text} {p : Path}
    (h : fs.rename names p = (fs', .ok ())) :
    ∃ place contents target, fs.follow [] names = .ok place ∧
      fs.readPlace place = .ok contents ∧ fs.locate p = .ok target ∧
      fs.node? target ≠ some .directory ∧ Path.namesDirectory p = false ∧
      fs' = (fs.delete place).put target (.file contents) := by
  unfold rename at h
  split at h
  · cases h
  · next place hfollow =>
      split at h
      · cases h
      · cases h
      · next contents target hread hlocate =>
          split at h
          · cases h
          · next hnone =>
              split at h
              · cases h
              · next hfile =>
                  cases h
                  exact ⟨place, contents, target, hfollow, hread, hlocate, by simp [hnone],
                    by simpa using hfile, rfl⟩
          · next old hnode =>
              cases h
              exact ⟨place, contents, target, hfollow, hread, hlocate, by simp [hnode],
                (locate_eq_ok hlocate).2.2 old hnode, rfl⟩

/-- A place that is no directory is not the working directory. -/
theorem ne_nil_of_node? {fs : FileSystem} {place : List Text}
    (h : fs.node? place ≠ some .directory) : place ≠ [] := by
  rintro rfl
  exact h rfl

/-- A written file is there, and the names still lead to it. -/
theorem readPlace_of_write {fs fs' : FileSystem} {names : List Text} {contents : ByteArray}
    (h : fs.write names contents = (fs', .ok ())) :
    ∃ place, fs'.follow [] names = .ok place ∧ fs'.readPlace place = .ok contents := by
  obtain ⟨place, hfollow, hnode, rfl⟩ := write_eq_ok h
  have hplace := ne_nil_of_node? hnode
  refine ⟨place, follow_of_directories (fun q hq => ?_) hfollow, ?_⟩
  · have hne : q ≠ place := fun heq => hnode (heq ▸ hq)
    rw [node?_put hplace, if_neg hne, hq]
  · rw [readPlace, node?_put hplace, if_pos rfl]

/-- A directory is no file. -/
theorem ne_of_readPlace {fs : FileSystem} {place q : List Text} {contents : ByteArray}
    (hread : fs.readPlace place = .ok contents) (hq : fs.node? q = some .directory) :
    q ≠ place := by
  rintro rfl
  rw [readPlace, hq] at hread
  cases hread

/-- A renamed file is read under its new path. -/
theorem read_of_rename {fs fs' : FileSystem} {names place : List Text} {p : Path}
    {contents : ByteArray} (hfollow : fs.follow [] names = .ok place)
    (hread : fs.readPlace place = .ok contents) (h : fs.rename names p = (fs', .ok ())) :
    fs'.read p = .ok contents := by
  obtain ⟨source, old, target, hsource, hold, hlocate, hnode, hfile, rfl⟩ := rename_eq_ok h
  obtain rfl : place = source := Except.ok.inj (hfollow.symm.trans hsource)
  obtain rfl : contents = old := Except.ok.inj (hread.symm.trans hold)
  obtain ⟨hne, htarget, _⟩ := locate_eq_ok hlocate
  have hplace := ne_nil_of_node? hnode
  -- Neither place is a directory, so every directory stays.
  have hstays : ∀ q, fs.node? q = some .directory →
      ((fs.delete place).put target (.file contents)).node? q = some .directory := by
    intro q hq
    have hqtarget : q ≠ target := fun heq => hnode (heq ▸ hq)
    rw [node?_put hplace, if_neg hqtarget, node?_delete (ne_of_readPlace hread hq), hq]
  rw [read, locate_of_follow hne (follow_of_directories hstays htarget) hfile]
  simp only [readPlace, node?_put hplace, if_true]

end FileSystem

instance : FaithfulMedium HistoryFile where
  read_of_write {f f' bytes} h := by
    change f.write bytes = (f', .ok ()) at h
    change f'.read = .ok (some bytes)
    unfold HistoryFile.write at h
    split at h
    · cases h
    · next files _ =>
        split at h
        · cases h
        · next files' hwrite =>
            obtain ⟨place, hfollow, hread⟩ := FileSystem.readPlace_of_write hwrite
            cases hrename : files'.rename f.temporaryNames f.path with
            | mk files'' result =>
                simp only [hrename] at h
                cases h
                rw [HistoryFile.read, FileSystem.read_of_rename hfollow hread hrename]

end Tagline
