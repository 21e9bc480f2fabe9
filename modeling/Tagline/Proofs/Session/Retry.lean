import Tagline.Proofs.Rendering
import Tagline.Proofs.Session.Run

/-!
# Changes that were not saved

A change is made in memory before it is saved, and whether it has to be made is
decided in memory.  So a change whose saving failed is not tried again when it is
asked for again: the session finds its effect in memory, answers that all is well,
and writes nothing.  What the medium holds then shows the effect only if it did so
before the first attempt.  Nothing is lost in memory, the history stays dirty, and
the next saving that succeeds brings the effect to the medium.

* `Failing` — attempts at a change whose saving fails;
* `Failing.single` — there is never more than one such attempt;
* `retry_saves_nothing` — what the repeated change answers, and what is kept.
-/

namespace Tagline

namespace Store

variable {β : Type} [Medium β]

/-- The document that a load brings from a medium. -/
def loads? (medium : β) : Option Document :=
  match openOn medium with
  | .ok s => some s.document
  | .error _ => none

/-- What a load brings depends on what is read. -/
theorem loads?_of_read {m m' : β} (h : Medium.read m = Medium.read m') :
    loads? m = loads? m' := by
  unfold loads?
  rw [openOn_of_read h]
  cases openOn m <;> rfl

/-- A store that was opened is what the medium loads. -/
theorem loads?_of_openOn {medium : β} {s : Store β} (h : openOn medium = .ok s) :
    loads? medium = some s.document := by
  rw [loads?, h]

end Store

namespace Session

variable {β : Type} [Medium β]

/-- Attempts at a change, one after another, each of which reports that the saving
failed and leaves what the medium holds. -/
inductive Failing (c : Change) : Session β → Session β → Prop where
  | once {s t : Session β} {e : HistoryError} (h : s.change c = (t, .error (.history e)))
      (hmedium : Medium.read t.history.medium = Medium.read s.history.medium) : Failing c s t
  | again {s t u : Session β} {e : HistoryError} (h : Failing c s t)
      (hagain : t.change c = (u, .error (.history e)))
      (hmedium : Medium.read u.history.medium = Medium.read t.history.medium) : Failing c s u

/-- A save that fails leaves all but the medium as it was. -/
theorem saving_eq_error {s t : Session β} {answer : Answer} {e : HistoryError}
    (h : s.saving answer = (t, .error (.history e))) :
    t.registry = s.registry ∧ t.history.document = s.history.document ∧
      t.history.dirty = s.history.dirty := by
  unfold saving at h
  split at h
  · cases h
  · next history cause hsave =>
      cases h
      exact ⟨rfl, (Store.save_eq_error hsave).2⟩

/-- A change whose saving failed was not shown before, can be read, and is in memory. -/
theorem change_eq_error {s t : Session β} {c : Change} {e : HistoryError}
    (h : s.change c = (t, .error (.history e))) :
    ¬ c.Shown s.registry s.history.document ∧ t.registry = s.registry ∧
      t.history.document = c.applied s.registry s.history.document ∧ t.history.dirty = true := by
  have hnot : ¬ c.Shown s.registry s.history.document := by
    intro hshown
    obtain ⟨answer, hchange, hanswer⟩ := change_of_shown hshown
    obtain ⟨_, rfl⟩ := Prod.mk.inj (hchange.symm.trans h)
    obtain ⟨_, _, _, _, hline⟩ := hanswer _ rfl
    cases hline
  obtain ⟨answer, hchange⟩ := change_of_not_shown hnot
  obtain ⟨hregistry, hdocument, hdirty⟩ := saving_eq_error (hchange.symm.trans h)
  exact ⟨hnot, hregistry, hdocument, hdirty⟩

/-- **A change that is repeated in memory is taken for done.** -/
theorem change_of_applied {s t : Session β} {c : Change} (hs : s.history.document.NoRepeats)
    (hnot : ¬ c.Shown s.registry s.history.document) (hregistry : t.registry = s.registry)
    (hdocument : t.history.document = c.applied s.registry s.history.document) :
    c.Shown t.registry t.history.document ∧ ∃ answer, t.change c = (t, .ok answer) := by
  have hshown : c.Shown t.registry t.history.document := by
    rw [hregistry, hdocument]
    exact c.shown_applied hs
  refine ⟨hshown, ?_⟩
  obtain ⟨answer, hchange, hanswer⟩ := change_of_shown hshown
  cases answer with
  | ok answer => exact ⟨answer, hchange⟩
  | error e =>
      obtain ⟨line, cause, rfl, hparse, _⟩ := hanswer e rfl
      rw [hregistry] at hparse
      refine absurd (fun outcome database hread => ?_) hnot
      rw [hparse] at hread
      cases hread

/-- There is never more than one failing attempt: the second finds the change done. -/
theorem Failing.single {s t : Session β} {c : Change} (hs : s.history.document.NoRepeats)
    (h : Failing c s t) :
    ∃ e, s.change c = (t, .error (.history e)) ∧
      Medium.read t.history.medium = Medium.read s.history.medium := by
  induction h with
  | once h hmedium => exact ⟨_, h, hmedium⟩
  | again _ hagain _ ih =>
      obtain ⟨e, hfirst, _⟩ := ih
      obtain ⟨hnot, hregistry, hdocument, _⟩ := change_eq_error hfirst
      obtain ⟨_, answer, hchange⟩ := change_of_applied hs hnot hregistry hdocument
      cases hchange.symm.trans hagain

/-- **A repeated change saves nothing.**  Let a session be reached, and let attempts
at a change fail to be saved and leave what the medium holds.  Then the change, when
it is asked for again, succeeds and alters neither session nor medium; memory shows
the effect and the history is still dirty.  A load from the medium shows the effect
exactly if it did so before the first attempt, which it never did if the session was
settled.  Only a saving that succeeds brings the document to the medium. -/
theorem retry_saves_nothing [FaithfulMedium β] {c : Change} {s t u : Session β}
    {answer : Except SessionError Answer} (hs : Reached s) (hfailing : Failing c s t)
    (hretry : t.change c = (u, answer)) :
    (∃ a, answer = .ok a) ∧ u = t ∧
      c.Shown u.registry u.history.document ∧ u.history.dirty = true ∧
      ((∃ d, Store.loads? u.history.medium = some d ∧ c.Shown u.registry d) ↔
        ∃ d, Store.loads? s.history.medium = some d ∧ c.Shown s.registry d) ∧
      (s.Settled →
        ¬ ∃ d, Store.loads? u.history.medium = some d ∧ c.Shown u.registry d) ∧
      ∀ saved, u.history.save = (saved, .ok ()) →
        Store.loads? saved.medium = some u.history.document := by
  have hrepeats := hs.noRepeats
  obtain ⟨e, hfirst, hmedium⟩ := hfailing.single hrepeats
  obtain ⟨hnot, hregistry, hdocument, hdirty⟩ := change_eq_error hfirst
  obtain ⟨hshown, a, hchange⟩ := change_of_applied hrepeats hnot hregistry hdocument
  obtain ⟨rfl, rfl⟩ := Prod.mk.inj (hchange.symm.trans hretry)
  have hloads := Store.loads?_of_read hmedium
  refine ⟨⟨a, rfl⟩, rfl, hshown, hdirty, by rw [hloads, hregistry], ?_, fun saved hsave => ?_⟩
  · rintro hsettled ⟨d, hd, hshownd⟩
    rw [hloads, Store.loads?_of_openOn hsettled] at hd
    cases hd
    rw [hregistry] at hshownd
    exact hnot hshownd
  · have hkept : t.history.document.NoRepeats := by
      rw [hdocument]
      exact hrepeats.of_follows (c.follows_applied _ _)
    rw [Store.loads?_of_openOn (Store.openOn_of_save hkept hsave), (Store.save_eq_ok hsave).2.1]

/-- A history file whose temporary file cannot be written, as a directory stands in
its place. -/
def blockedFile : HistoryFile where
  path := "h.json"
  files := FileSystem.withDirectory {} "h.json.tmp"

/-- The session on that file. -/
def blockedSession : Session HistoryFile where
  registry := workoutRegistry
  history := { medium := blockedFile }

/-- A line with a value for the history. -/
def blockedChange : Change := .record "#Exercise/Run 30".toList

/-- The session is opened on the blocked file. -/
theorem openOn_blocked : Session.openOn workoutRegistry blockedFile = .ok blockedSession := rfl

theorem retry_saves_nothing_blocked :
    (blockedSession.change blockedChange).2 = .error (.history (.io .isDirectory)) ∧
      (∃ a, ((blockedSession.change blockedChange).1.change blockedChange).2 = .ok a) ∧
      ¬ ∃ d, Store.loads? (blockedSession.change blockedChange).1.history.medium = some d ∧
        blockedChange.Shown workoutRegistry d := by
  have hfails : (blockedSession.change blockedChange).2
      = .error (.history (.io .isDirectory)) := by decide +kernel
  have hmedium : Medium.read (blockedSession.change blockedChange).1.history.medium
      = Medium.read blockedSession.history.medium := by decide +kernel
  have hregistry : (blockedSession.change blockedChange).1.registry = workoutRegistry :=
    (stepped_change blockedSession blockedChange).registry
  have hfailing : Failing blockedChange blockedSession (blockedSession.change blockedChange).1 :=
    .once (by rw [← hfails]) hmedium
  obtain ⟨hok, hsame, _, _, _, hsettled, _⟩ :=
    retry_saves_nothing (.opened openOn_blocked) hfailing Prod.mk.eta.symm
  rw [hsame, hregistry] at hsettled
  exact ⟨hfails, hok, hsettled (openOn_eq_ok.1 openOn_blocked).1⟩

end Session

end Tagline
