import Tagline.Proofs.History.Store

/-!
# What the dirty flag says

A store is dirty while its document may differ from what its medium holds.  The flag
goes up with every change in memory and comes down with a save or a load that
succeeds, and a document without repeats is read back as it was written.  So a store
whose flag is down finds itself on its medium, as long as nobody else writes there
and a write that fails leaves what the medium holds.

* `load_eq` — a load is an opening;
* `Honest.call` — every call, successful or not, keeps the flag honest;
* `Alone.load_of_not_dirty` — a store that is not dirty is loaded just as it is.
-/

namespace Tagline

namespace Store

variable {β : Type} [Medium β]

/-! ## Loads -/

/-- **A load is an opening**, whatever the store held before.  Where it fails, it
changes nothing. -/
theorem load_eq (s : Store β) :
    s.load = match openOn s.medium with
      | .ok t => (t, .ok ())
      | .error e => (s, .error e) := by
  unfold openOn load
  cases Medium.read s.medium with
  | error e => rfl
  | ok blob =>
      cases blob with
      | none => rfl
      | some bytes =>
          dsimp only
          cases Document.decode? bytes <;> rfl

/-! ## Stores that alone write to their medium -/

/-- A medium that keeps what it holds where a write to it fails. -/
def Keeps (medium : β) : Prop :=
  ∀ bytes after e, Medium.write medium bytes = (after, .error e) →
    Medium.read after = Medium.read medium

/-- The states of a store that was opened and that alone writes to its medium.  Its
writes may fail; then the medium keeps what it holds. -/
inductive Alone : Store β → Prop where
  | opened {medium : β} {s : Store β} (h : openOn medium = .ok s) : Alone s
  /-- A call leads on, whether it succeeds or fails. -/
  | call {s : Store β} (h : Alone s) (hkeeps : Keeps s.medium) (c : Call) : Alone (s.call c)

/-! ## Honest flags -/

/-- A store whose flag is up unless the store is what its medium opens as. -/
structure Honest (s : Store β) : Prop where
  noRepeats : s.document.NoRepeats
  opens : s.dirty = false → openOn s.medium = .ok s

/-- A store that has just been opened is honest. -/
theorem honest_of_openOn {medium : β} {s : Store β} (h : openOn medium = .ok s) : Honest s where
  noRepeats := noRepeats_of_openOn h
  opens _ := by
    rw [medium_of_openOn h]
    exact h

/-- A delta that makes nothing grow leaves a store as it is, and any other puts the
flag up. -/
theorem Honest.apply {s : Store β} (h : Honest s) (delta : Delta) : Honest (s.apply delta).1 where
  noRepeats := h.noRepeats.apply delta
  opens hclean := by
    obtain ⟨hold, hsame⟩ := Bool.or_eq_false_iff.1 hclean
    have hstore : (s.apply delta).1 = s := by
      rw [Store.apply, hsame, Document.apply_eq_self hsame, Bool.or_false]
    rw [hstore]
    exact h.opens hold

/-- It stays so when a value is removed. -/
theorem Honest.removeValue {s : Store β} (h : Honest s) (database key value : Text) :
    Honest (s.removeValue database key value).1 := by
  unfold Store.removeValue
  split
  · exact ⟨h.noRepeats.remove _, fun hclean => absurd hclean (by simp)⟩
  · exact h

theorem Honest.load {s : Store β} (h : Honest s) : Honest s.load.1 := by
  rw [load_eq]
  cases hopen : openOn s.medium with
  | ok t => exact honest_of_openOn hopen
  | error e => exact h

variable [FaithfulMedium β]

/-- A save that succeeds takes the flag down, and one that fails changes nothing that
is read. -/
theorem Honest.save {s : Store β} (h : Honest s) (hkeeps : Keeps s.medium) :
    Honest s.save.1 := by
  cases hsave : s.save with
  | mk t answer =>
      cases answer with
      | ok _ => exact honest_of_openOn (openOn_of_save h.noRepeats hsave)
      | error e =>
          obtain ⟨⟨cause, hwrite⟩, hdocument, hdirty⟩ := save_eq_error hsave
          refine ⟨hdocument ▸ h.noRepeats, fun hclean => ?_⟩
          have hopens := h.opens (hdirty ▸ hclean)
          rw [openOn_of_read (hkeeps _ _ _ hwrite).symm, hopens, Except.map, ← hdocument, ← hdirty]

/-- **Every call keeps a flag honest**, be it successful or not. -/
theorem Honest.call {s : Store β} (h : Honest s) (hkeeps : Keeps s.medium) (c : Call) :
    Honest (s.call c) := by
  cases c with
  | addRecord database record => exact h.apply (s.diff database record)
  | apply delta => exact h.apply delta
  | removeValue database key value => exact h.removeValue database key value
  | save => exact h.save hkeeps
  | load => exact h.load
  | deleteHistory =>
      -- The flag goes up before the empty document is saved.
      have hemptied : Honest { s with document := Document.empty, dirty := true } :=
        ⟨Document.noRepeats_empty, fun hclean => absurd hclean (by simp)⟩
      exact hemptied.save hkeeps

/-! ## Every state -/

/-- A store that is alone on its medium is honest. -/
theorem Alone.honest {s : Store β} (h : Alone s) : Honest s := by
  induction h with
  | opened hopen => exact honest_of_openOn hopen
  | call _ hkeeps c ih => exact ih.call hkeeps c

/-- **A store that is not dirty is what its medium holds.**  In every state in which
the flag of an opened store is down a load would succeed and change nothing, whatever
was called before and whichever writes failed. -/
theorem Alone.load_of_not_dirty {s : Store β} (h : Alone s) (hclean : s.dirty = false) :
    s.load = (s, .ok ()) := by
  rw [load_eq, h.honest.opens hclean]

/-- A history of one place. -/
def parkDocument : Document :=
  ⟨SortedMap.ofList [("Exercise", SortedMap.ofList [("Place", ["Park"])])]⟩

/-- A history file that cannot be replaced, as a directory stands where its temporary
file would be written. -/
def lockedFile : HistoryFile where
  path := "h.json"
  files := ⟨[(["h.json".toList], .file parkDocument.encode), (["h.json.tmp".toList], .directory)]⟩

/-- What is opened of that file. -/
def lockedStore : Store HistoryFile where
  medium := lockedFile
  document := parkDocument

/-- The file can be opened. -/
theorem openOn_lockedFile : openOn lockedFile = .ok lockedStore := by
  have hread : Medium.read lockedFile = .ok (some parkDocument.encode) := rfl
  have hdedup : parkDocument.dedup = parkDocument := by decide +kernel
  rw [openOn_eq_ok, load]
  simp only [hread, Document.decode?_encode, hdedup, bne_self_eq_false]
  rfl

theorem write_lockedFile (bytes : ByteArray) :
    Medium.write lockedFile bytes = (lockedFile, .error .isDirectory) := rfl

/-- That store with another place, which cannot be saved. -/
def grownStore : Store HistoryFile :=
  lockedStore.call (.apply ⟨[⟨"exercise", "PLACE", "Gym"⟩]⟩)

/-- What has grown cannot be saved. -/
theorem save_grownStore : grownStore.save = (grownStore, .error (.io .isDirectory)) := rfl

/-- The place cannot be saved, and the load after that gives it up; now the flag is
down, and another load would change nothing. -/
theorem load_of_not_dirty_locked :
    grownStore.dirty = true ∧ grownStore.document ≠ parkDocument ∧
      (grownStore.call .save).dirty = true ∧
      ((grownStore.call .save).call .load).dirty = false ∧
      ((grownStore.call .save).call .load).load
        = ((grownStore.call .save).call .load, .ok ()) := by
  have hkeeps : Keeps lockedFile := by
    intro bytes after e hwrite
    rw [write_lockedFile] at hwrite
    cases hwrite
    rfl
  have hmedium : grownStore.medium = lockedFile := rfl
  have hsaved : grownStore.call .save = grownStore := congrArg Prod.fst save_grownStore
  have hloaded : (grownStore.call .save).call .load = lockedStore := by
    rw [hsaved, call, load_eq, hmedium, openOn_lockedFile]
  have hgrown : Alone grownStore :=
    (Alone.opened openOn_lockedFile).call hkeeps (.apply ⟨[⟨"exercise", "PLACE", "Gym"⟩]⟩)
  have hfailed : Alone (grownStore.call .save) := hgrown.call (hmedium ▸ hkeeps) .save
  have hlast : Alone ((grownStore.call .save).call .load) := by
    refine hfailed.call ?_ .load
    rw [hsaved]
    exact hkeeps
  have hclean : ((grownStore.call .save).call .load).dirty = false := by
    rw [hloaded]
    rfl
  refine ⟨by decide +kernel, by decide +kernel, ?_, hclean, hlast.load_of_not_dirty hclean⟩
  rw [hsaved]
  decide +kernel

end Store

end Tagline
