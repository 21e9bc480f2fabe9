import Tagline.Proofs.History.Medium

/-!
# Replacing the history file

A history file is replaced in three steps: the directories in front of it are made, the bytes
are written to a temporary file beside it, and this file is renamed.  Whatever stops the writing
leaves the files as they are at some point of the first two steps, and at each of these points
a reader sees what there was before.  Only the renaming changes what a reader sees, and it
changes all of it.

For the second step this holds because the temporary file stands in the same directory as the
history file under a longer name, and because a path does not lead through a file.  For the
first step it is a property of the path.  A path that goes up again, such as `a/../h`, leads
nowhere as long as `a` is missing and to the file `h` once it is made; a path that never goes up
is **steady** wherever all nodes stand in directories.

* `FileSystem.read_put` — a file that is written elsewhere is not read;
* `FileSystem.read_makeDirectories` — directories that are made in front of a path do not
  change what is read at its end;
* `HistoryFile.read_of_underway` — what a reader sees while the file is replaced;
* `HistoryFile.all_or_nothing` — the whole of it.
-/

namespace Tagline

/-- The name of the file that a path leads to; the root directory and a path that goes up at
its end have none. -/
def Path.fileName? (p : Path) : Option Text :=
  (Path.names p).getLast?.filter fun name => name != parentName && name != ['/']

/-- The name of a file is the last of the names of its path. -/
theorem Path.fileName?_eq_some {p : Path} {name : Text} (h : Path.fileName? p = some name) :
    Path.names p = (Path.names p).dropLast ++ [name] ∧ name ≠ parentName := by
  obtain ⟨hlast, hname⟩ := Option.filter_eq_some_iff.1 h
  obtain ⟨front, hfront⟩ := List.getLast?_eq_some_iff.1 hlast
  refine ⟨by rw [hfront, List.dropLast_concat], ?_⟩
  intro heq
  simp [heq] at hname

namespace FileSystem

/-! ## A file that is written elsewhere -/

/-- Names lead to a file in the directory to which all but the last of them lead. -/
theorem follow_concat_eq_ok {fs : FileSystem} {place target : List Text} {names : List Text}
    {name : Text} (hname : name ≠ parentName) :
    fs.follow place (names ++ [name]) = .ok target ↔
      ∃ directory, fs.follow place names = .ok directory ∧
        fs.node? directory = some .directory ∧ target = directory ++ [name] := by
  induction names generalizing place with
  | nil =>
      simp only [List.nil_append, follow]
      cases hnode : fs.node? place with
      | none => simp [hnode]
      | some node => cases node <;> simp [hname, hnode, eq_comm]
  | cons first names ih =>
      simp only [List.cons_append, follow]
      cases fs.node? place with
      | none => simp
      | some node =>
          cases node with
          | file contents => simp
          | directory =>
              dsimp only
              split
              · exact ih
              · exact ih

/-- What is read depends on where the names lead and on the node there. -/
theorem read_congr {fs fs' : FileSystem} {p : Path}
    (hfollow : fs'.follow [] (Path.names p) = fs.follow [] (Path.names p))
    (hnode : ∀ target, fs.follow [] (Path.names p) = .ok target →
      fs'.node? target = fs.node? target) : fs'.read p = fs.read p := by
  have hlocate : fs'.locate p = fs.locate p := by
    rw [locate, locate, hfollow]
    cases htarget : fs.follow [] (Path.names p) with
    | error e => rfl
    | ok target => simp only [hnode target htarget]
  rw [read, read, hlocate]
  cases hlocated : fs.locate p with
  | error e => rfl
  | ok target =>
      dsimp only
      rw [readPlace, readPlace, hnode target (locate_eq_ok hlocated).2.1]

/-- Where no place is found there is nothing to read. -/
theorem read_of_follow_notFound {fs : FileSystem} {p : Path}
    (h : fs.follow [] (Path.names p) = .error .notFound) : fs.read p = .error .notFound := by
  simp [read, locate, h]

/-- Nor is there where nothing stands in the place. -/
theorem read_of_node?_none {fs : FileSystem} {p : Path} {target : List Text}
    (h : fs.follow [] (Path.names p) = .ok target) (hnode : fs.node? target = none) :
    fs.read p = .error .notFound := by
  by_cases hempty : p = []
  · simp [read, locate, hempty]
  · simp [read, locate, hempty, h, hnode, readPlace]

/-- **A file that is written elsewhere is not read**, and it bars no way. -/
theorem read_put {fs : FileSystem} {p : Path} {place target : List Text} {contents : ByteArray}
    (hnode : fs.node? place ≠ some .directory)
    (hfollow : fs.follow [] (Path.names p) = .ok target) (hne : target ≠ place) :
    (fs.put place (.file contents)).read p = fs.read p := by
  have hplace := ne_nil_of_node? hnode
  have hstill : (fs.put place (.file contents)).follow [] (Path.names p) = .ok target := by
    refine follow_of_directories (fun q hq => ?_) hfollow
    have hq' : q ≠ place := fun heq => hnode (heq ▸ hq)
    rw [node?_put hplace, if_neg hq', hq]
  refine read_congr (hstill.trans hfollow.symm) fun found hfound => ?_
  obtain rfl : target = found := Except.ok.inj (hfollow.symm.trans hfound)
  rw [node?_put hplace, if_neg hne]

/-- Writing that fails leaves the files as they are. -/
theorem write_eq_error {fs fs' : FileSystem} {names : List Text} {contents : ByteArray}
    {e : FileError} (h : fs.write names contents = (fs', .error e)) : fs' = fs := by
  unfold write at h
  split at h
  · cases h
    rfl
  · split at h
    · cases h
      rfl
    · cases h

/-- Renaming that fails leaves the files as they are. -/
theorem rename_eq_error {fs fs' : FileSystem} {names : List Text} {p : Path} {e : FileError}
    (h : fs.rename names p = (fs', .error e)) : fs' = fs := by
  unfold rename at h
  split at h
  · cases h
    rfl
  · split at h
    · cases h
      rfl
    · cases h
      rfl
    · split at h
      · cases h
        rfl
      · split at h
        · cases h
          rfl
        · cases h
      · cases h

/-! ## Directories that are made on the way -/

/-- Every node stands in a directory. -/
def IsTree (fs : FileSystem) : Prop :=
  ∀ e ∈ fs.nodes, fs.node? e.1.dropLast = some .directory

/-- In a tree whatever is there stands in a directory. -/
theorem IsTree.node?_eq_directory {fs : FileSystem} (h : fs.IsTree) {place : List Text}
    {name : Text} {node : Node} (hnode : fs.node? (place ++ [name]) = some node) :
    fs.node? place = some .directory := by
  have hne : (place ++ [name]).isEmpty = false := by simp
  rw [node?, hne, if_neg Bool.false_ne_true, Option.map_eq_some_iff] at hnode
  obtain ⟨e, hfind, _⟩ := hnode
  have hplace : e.1 = place ++ [name] := by simpa using List.find?_some hfind
  have hdirectory := h e (List.mem_of_find?_eq_some hfind)
  rwa [hplace, List.dropLast_concat] at hdirectory

/-- Where no node stands, none stands further on. -/
theorem IsTree.node?_eq_none {fs : FileSystem} (h : fs.IsTree) {place : List Text}
    (hnode : fs.node? place = none) (names : List Text) : fs.node? (place ++ names) = none := by
  induction names generalizing place with
  | nil => rwa [List.append_nil]
  | cons name names ih =>
      have hnext : fs.node? (place ++ [name]) = none := by
        cases hlast : fs.node? (place ++ [name]) with
        | none => rfl
        | some node =>
            rw [h.node?_eq_directory hlast] at hnode
            cases hnode
      have hrest := ih hnext
      rwa [List.append_assoc, List.singleton_append] at hrest

/-- The nodes are the same, but for directories where there was nothing. -/
def Opens (fs fs' : FileSystem) : Prop :=
  ∀ place, fs'.node? place = fs.node? place ∨
    fs.node? place = none ∧ fs'.node? place = some .directory

/-- **Making directories along names that do not go up** changes no node, and makes
directories only where there was nothing and no further on than the names. -/
theorem node?_makeDirectories {names : List Text} (hplain : parentName ∉ names)
    (fs : FileSystem) (place q : List Text) :
    (fs.makeDirectories place names).1.node? q = fs.node? q ∨
      fs.node? q = none ∧ (fs.makeDirectories place names).1.node? q = some .directory ∧
        q.length ≤ place.length + names.length := by
  induction names generalizing fs place with
  | nil => exact Or.inl rfl
  | cons name names ih =>
      have hname : name ≠ parentName := fun heq => hplain (heq ▸ List.mem_cons_self)
      have hrest := ih fun h => hplain (List.mem_cons_of_mem _ h)
      have hlength : (place ++ [name]).length + names.length
          = place.length + (name :: names).length := by
        simp only [List.length_append, List.length_cons, List.length_nil]
        omega
      rw [makeDirectories, if_neg hname]
      dsimp only
      cases hnext : fs.node? (place ++ [name]) with
      | some node =>
          cases node with
          | file contents => exact Or.inl rfl
          | directory =>
              rw [← hlength]
              exact hrest fs (place ++ [name])
      | none =>
          have hput : (fs.put (place ++ [name]) .directory).node? q
              = if q = place ++ [name] then some .directory else fs.node? q :=
            node?_put (by simp)
          have hafter := hrest (fs.put (place ++ [name]) .directory) (place ++ [name])
          rw [hlength, hput] at hafter
          by_cases hq : q = place ++ [name]
          · subst hq
            rw [if_pos rfl] at hafter
            rcases hafter with hsame | ⟨hnone, _⟩
            · refine Or.inr ⟨hnext, hsame, ?_⟩
              rw [← hlength]
              exact Nat.le_add_right _ _
            · cases hnone
          · rwa [if_neg hq] at hafter

/-- Names that do not go up lead to the place that they spell. -/
theorem follow_eq_ok {fs : FileSystem} {names : List Text} (hplain : parentName ∉ names)
    {place target : List Text} (h : fs.follow place names = .ok target) :
    target = place ++ names := by
  induction names generalizing place with
  | nil =>
      cases h
      rw [List.append_nil]
  | cons name names ih =>
      have hname : name ≠ parentName := fun heq => hplain (heq ▸ List.mem_cons_self)
      rw [follow, if_neg hname] at h
      split at h
      · cases h
      · cases h
      · have hrest := ih (fun h => hplain (List.mem_cons_of_mem _ h)) h
        rwa [List.append_assoc, List.singleton_append] at hrest

/-- Directories that are opened lead no further than to a place without a node. -/
theorem follow_of_opens {fs fs' : FileSystem} (htree : fs.IsTree) (hopens : fs.Opens fs')
    {names : List Text} (hplain : parentName ∉ names) (place : List Text) :
    fs'.follow place names = fs.follow place names ∨
      fs.follow place names = .error .notFound ∧ fs.node? (place ++ names) = none ∧
        (fs'.follow place names = .error .notFound ∨
          fs'.follow place names = .ok (place ++ names)) := by
  induction names generalizing place with
  | nil => exact Or.inl rfl
  | cons name names ih =>
      have hname : name ≠ parentName := fun heq => hplain (heq ▸ List.mem_cons_self)
      have hrest := ih (fun h => hplain (List.mem_cons_of_mem _ h)) (place ++ [name])
      rw [List.append_assoc, List.singleton_append] at hrest
      simp only [follow, hname, if_false]
      rcases hopens place with hsame | ⟨hnone, hmade⟩
      · rw [hsame]
        cases hnode : fs.node? place with
        | none => exact Or.inl rfl
        | some node =>
            cases node with
            | file contents => exact Or.inl rfl
            | directory => exact hrest
      · rw [hnone, hmade]
        refine Or.inr ⟨rfl, htree.node?_eq_none hnone _, ?_⟩
        rcases hrest with hsame | ⟨_, _, hlater⟩
        · -- Nothing stands further on, so the old names end here at the latest.
          have hnext := htree.node?_eq_none hnone [name]
          rw [hsame]
          cases names with
          | nil => exact Or.inr rfl
          | cons next names =>
              rw [follow, hnext]
              exact Or.inl rfl
        · exact hlater

/-- **Directories that are made in front of a path do not change what is read at its end**, if
every node stands in a directory and the path does not go up. -/
theorem read_makeDirectories {fs : FileSystem} (htree : fs.IsTree) {p : Path}
    (hplain : parentName ∉ Path.names p) (hne : Path.names p ≠ []) {names : List Text}
    (hnames : names <+: (Path.names p).dropLast) :
    (fs.makeDirectories [] names).1.read p = fs.read p := by
  have hplainNames : parentName ∉ names := fun h =>
    hplain (List.dropLast_subset _ (hnames.subset h))
  have hnodes := node?_makeDirectories hplainNames fs []
  generalize (fs.makeDirectories [] names).1 = fs' at hnodes
  have hopens : fs.Opens fs' := fun place => (hnodes place).imp id fun h => ⟨h.1, h.2.1⟩
  have hend : fs'.node? (Path.names p) = fs.node? (Path.names p) := by
    refine (hnodes (Path.names p)).resolve_right fun ⟨_, _, hlong⟩ => ?_
    have hshort := hnames.length_le
    have hpos := List.length_pos_iff.2 hne
    rw [List.length_dropLast] at hshort
    rw [List.length_nil, Nat.zero_add] at hlong
    omega
  rcases follow_of_opens htree hopens hplain [] with hsame | ⟨hmissing, hnone, hlater⟩
  · refine read_congr hsame fun target htarget => ?_
    rw [follow_eq_ok hplain htarget, List.nil_append, hend]
  · rw [List.nil_append] at hnone hlater
    rw [read_of_follow_notFound hmissing]
    rcases hlater with hlater | hlater
    · exact read_of_follow_notFound hlater
    · exact read_of_node?_none hlater (hend.trans hnone)

end FileSystem

namespace HistoryFile

variable {f g : HistoryFile} {bytes : ByteArray} {files : FileSystem}

/-! ## The temporary file -/

/-- The temporary name is another name. -/
theorem append_temporaryEnding_ne (name : Text) : name ++ temporaryEnding ≠ name := by
  have hending : temporaryEnding ≠ [] := by decide
  simpa using hending

/-- It is not the name of the parent either. -/
theorem append_temporaryEnding_ne_parentName (name : Text) :
    name ++ temporaryEnding ≠ parentName := by
  intro heq
  have hlength := congrArg List.length heq
  rw [List.length_append] at hlength
  have hending : temporaryEnding.length = 4 := rfl
  have hparent : parentName.length = 2 := rfl
  omega

/-- The temporary file stands beside the file. -/
theorem temporaryNames_eq {name : Text} (h : Path.fileName? f.path = some name) :
    f.temporaryNames = f.parentNames ++ [name ++ temporaryEnding] := by
  obtain ⟨hnames, hname⟩ := Path.fileName?_eq_some h
  rw [temporaryNames, hnames, List.getLast?_concat]
  simp only [hname, if_false]

/-- The temporary file stands under another name. -/
theorem temporaryNames_ne (h : (Path.fileName? f.path).isSome) :
    f.temporaryNames ≠ Path.names f.path := by
  obtain ⟨name, hname⟩ := Option.isSome_iff_exists.1 h
  rw [temporaryNames_eq hname, (Path.fileName?_eq_some hname).1]
  intro heq
  have hlast : [name ++ temporaryEnding] = [name] := List.append_cancel_left heq
  exact append_temporaryEnding_ne name (List.cons.inj hlast).1

/-! ## Points of a replacement -/

/-- The files at the points of a replacement before the renaming. -/
inductive Underway (f : HistoryFile) (bytes : ByteArray) : FileSystem → Prop where
  /-- The first directories in front of the file are made, or as many as can be. -/
  | directories (n : Nat) :
      Underway f bytes (f.files.makeDirectories [] (f.parentNames.take n)).1
  /-- All directories are there, and the temporary file holds the first of the bytes. -/
  | temporary {files files' : FileSystem} (n : Nat)
      (hmade : f.files.makeDirectories [] f.parentNames = (files, .ok ()))
      (hwritten : files.write f.temporaryNames (bytes.extract 0 n) = (files', .ok ())) :
      Underway f bytes files'

/-- Making directories in front of the file does not change what is read of it. -/
def Steady (f : HistoryFile) : Prop :=
  ∀ n, (f.files.makeDirectories [] (f.parentNames.take n)).1.read f.path = f.files.read f.path

/-- A path that does not go up is steady where all nodes stand in directories. -/
theorem steady_of_isTree (htree : f.files.IsTree) (hplain : parentName ∉ Path.names f.path)
    (hname : (Path.fileName? f.path).isSome) : f.Steady := by
  obtain ⟨name, hname⟩ := Option.isSome_iff_exists.1 hname
  have hne : Path.names f.path ≠ [] := by
    rw [(Path.fileName?_eq_some hname).1]
    simp
  exact fun n => FileSystem.read_makeDirectories htree hplain hne (List.take_prefix n _)

/-- **At every point before the renaming** the file is read as it was. -/
theorem read_of_underway (hname : (Path.fileName? f.path).isSome) (hsteady : f.Steady)
    (h : f.Underway bytes files) : files.read f.path = f.files.read f.path := by
  cases h with
  | directories n => exact hsteady n
  | @temporary made _ n hmade hwritten =>
      obtain ⟨name, hname⟩ := Option.isSome_iff_exists.1 hname
      obtain ⟨hnames, hup⟩ := Path.fileName?_eq_some hname
      have hmadeRead : made.read f.path = f.files.read f.path := by
        have hall := hsteady f.parentNames.length
        rwa [List.take_length, hmade] at hall
      obtain ⟨place, hplace, hnode, rfl⟩ := FileSystem.write_eq_ok hwritten
      -- Both files stand in the directory to which the names in front of them lead.
      rw [temporaryNames_eq hname] at hplace
      obtain ⟨directory, hdirectory, hthere, rfl⟩ :=
        (FileSystem.follow_concat_eq_ok (append_temporaryEnding_ne_parentName name)).1 hplace
      have hfollow : made.follow [] (Path.names f.path) = .ok (directory ++ [name]) := by
        rw [hnames]
        exact (FileSystem.follow_concat_eq_ok hup).2 ⟨directory, hdirectory, hthere, rfl⟩
      rw [FileSystem.read_put hnode hfollow, hmadeRead]
      intro heq
      exact append_temporaryEnding_ne name (List.cons.inj (List.append_cancel_left heq)).1.symm

/-- **Writing that fails stops at one of these points.** -/
theorem underway_of_write_error {e : FileError} (h : f.write bytes = (g, .error e)) :
    g.path = f.path ∧ f.Underway bytes g.files := by
  have hdirectories : f.Underway bytes (f.files.makeDirectories [] f.parentNames).1 := by
    rw [← List.take_length (l := f.parentNames)]
    exact .directories _
  unfold write at h
  split at h
  · next hmade =>
      cases h
      rw [hmade] at hdirectories
      exact ⟨rfl, hdirectories⟩
  · next files hmade =>
      split at h
      · next hwrite =>
          cases h
          rw [hmade] at hdirectories
          rw [FileSystem.write_eq_error hwrite]
          exact ⟨rfl, hdirectories⟩
      · next files' hwrite =>
          cases hrename : files'.rename f.temporaryNames f.path with
          | mk files'' result =>
              simp only [hrename] at h
              cases h
              rw [FileSystem.rename_eq_error hrename]
              refine ⟨rfl, .temporary bytes.size hmade ?_⟩
              rw [ByteArray.extract_zero_size]
              exact hwrite

/-- **Writing that succeeds is a renaming** at the last of these points. -/
theorem underway_of_write_ok (h : f.write bytes = (g, .ok ())) :
    g.path = f.path ∧ ∃ files, f.Underway bytes files ∧
      files.rename f.temporaryNames f.path = (g.files, .ok ()) := by
  unfold write at h
  split at h
  · cases h
  · next files hmade =>
      split at h
      · cases h
      · next files' hwrite =>
          cases hrename : files'.rename f.temporaryNames f.path with
          | mk files'' result =>
              simp only [hrename] at h
              cases h
              refine ⟨rfl, files', .temporary bytes.size hmade ?_, hrename⟩
              rw [ByteArray.extract_zero_size]
              exact hwrite

/-! ## The whole -/

/-- What a file shows depends on what is read at its path. -/
theorem read_of_files_read (hpath : g.path = f.path)
    (h : g.files.read f.path = f.files.read f.path) : g.read = f.read := by
  rw [read, read, hpath, h]

/-- **A file is replaced as a whole or not at all.**  Let the path of a history file have a file
name.  Its temporary file has another path.  After a write that succeeds exactly the written
bytes are read, and what came before is one renaming away.  If making directories does not change
what is read at the path, which is so for every path that does not go up where all nodes stand in
directories, then the file is read as it was at every point before the renaming; and a write that
fails has stopped at one of these points. -/
theorem all_or_nothing (f : HistoryFile) (bytes : ByteArray)
    (hname : (Path.fileName? f.path).isSome) :
    f.temporaryNames ≠ Path.names f.path ∧
    (∀ g, f.write bytes = (g, .ok ()) → g.read = .ok (some bytes) ∧
      ∃ files, f.Underway bytes files ∧
        files.rename f.temporaryNames f.path = (g.files, .ok ())) ∧
    (f.files.IsTree → parentName ∉ Path.names f.path → f.Steady) ∧
    (f.Steady →
      (∀ files, f.Underway bytes files → ({ f with files } : HistoryFile).read = f.read) ∧
      ∀ g e, f.write bytes = (g, .error e) → f.Underway bytes g.files ∧ g.read = f.read) := by
  refine ⟨temporaryNames_ne hname, fun g hwrite => ?_,
    fun htree hplain => steady_of_isTree htree hplain hname, fun hsteady => ⟨?_, ?_⟩⟩
  · exact ⟨FaithfulMedium.read_of_write (β := HistoryFile) hwrite,
      (underway_of_write_ok hwrite).2⟩
  · intro files hfiles
    exact read_of_files_read rfl (read_of_underway hname hsteady hfiles)
  · intro g e hwrite
    obtain ⟨hpath, hfiles⟩ := underway_of_write_error hwrite
    exact ⟨hfiles, read_of_files_read hpath (read_of_underway hname hsteady hfiles)⟩

/-- A history file in a directory; a directory also stands in the place of the temporary file
if the file cannot be replaced. -/
def notesFile (blocked : Bool) : HistoryFile where
  path := "notes/h.json"
  files :=
    ⟨(["notes".toList], .directory) ::
      (["notes".toList, "h.json".toList], .file "first".toUTF8) ::
      if blocked then [(["notes".toList, "h.json.tmp".toList], .directory)] else []⟩

theorem isTree_notesFile (blocked : Bool) : (notesFile blocked).files.IsTree := by
  cases blocked with
  | false => exact List.forall_mem_cons.2 ⟨rfl, List.forall_mem_singleton.2 rfl⟩
  | true =>
      exact List.forall_mem_cons.2
        ⟨rfl, List.forall_mem_cons.2 ⟨rfl, List.forall_mem_singleton.2 rfl⟩⟩

/-- The files when the first three bytes of another text stand in the temporary file. -/
def notesHalfway : FileSystem :=
  ((notesFile false).files.write (notesFile false).temporaryNames
    ("second".toUTF8.extract 0 3)).1

/-- The old text is read halfway, the new one at the end; and a write that fails keeps the old
text. -/
theorem all_or_nothing_notes :
    (∀ blocked, (notesFile blocked).Steady) ∧
      (notesFile false).Underway "second".toUTF8 notesHalfway ∧
      ({ notesFile false with files := notesHalfway } : HistoryFile).read
        = .ok (some "first".toUTF8) ∧
      ((notesFile false).write "second".toUTF8).1.read = .ok (some "second".toUTF8) ∧
      ((notesFile true).write "second".toUTF8).2 = .error .isDirectory ∧
      ((notesFile true).write "second".toUTF8).1.read = .ok (some "first".toUTF8) := by
  have hname : ∀ blocked, (Path.fileName? (notesFile blocked).path).isSome := by decide
  have hplain : ∀ blocked, parentName ∉ Path.names (notesFile blocked).path := by decide
  have hfirst : ∀ blocked, (notesFile blocked).read = .ok (some "first".toUTF8) := by
    rintro (_ | _) <;> rfl
  have hhalfway : (notesFile false).Underway "second".toUTF8 notesHalfway :=
    .temporary 3 rfl rfl
  have hsteady : ∀ blocked, (notesFile blocked).Steady := fun blocked =>
    (all_or_nothing _ "second".toUTF8 (hname blocked)).2.2.1 (isTree_notesFile blocked)
      (hplain blocked)
  obtain ⟨_, hdone, _, hkeeps⟩ := all_or_nothing (notesFile false) "second".toUTF8 (hname false)
  obtain ⟨_, _, _, hfails⟩ := all_or_nothing (notesFile true) "second".toUTF8 (hname true)
  have hsees := (hkeeps (hsteady false)).1 notesHalfway hhalfway
  have hstays := ((hfails (hsteady true)).2 ((notesFile true).write "second".toUTF8).1
    .isDirectory rfl).2
  exact ⟨hsteady, hhalfway, hsees.trans (hfirst false), (hdone _ rfl).1, rfl,
    hstays.trans (hfirst true)⟩

end HistoryFile

end Tagline
