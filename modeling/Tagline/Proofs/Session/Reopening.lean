import Tagline.Proofs.Rendering
import Tagline.Proofs.Session.Run

/-!
# Closing and reopening a session

A session on a faithful medium is **settled** when its medium opens as its history.
An opened session is settled, and every operation whose writing does not fail
leaves it settled, although not every operation writes: what the medium holds and
what is in memory differ at most in repeats, which an opening drops again.  So it
makes no difference whether a session goes on or is closed and opened again.

* `settled_perform` — one operation;
* `openOn_of_mem_trace` — every session of a run is the one that its medium opens
  as;
* `reopening_is_transparent` — a run with reopenings is the run without them.
-/

namespace Tagline

namespace Session

variable {β : Type} [Medium β]

/-- The answers of a run, each with the session after it. -/
def trace (s : Session β) : List Op → List (Except SessionError Answer × Session β)
  | [] => []
  | op :: ops => ((s.perform op).2, (s.perform op).1) :: (s.perform op).1.trace ops

/-- The same for a run in which the session is closed before the operations that
are marked, and opened again on its medium. -/
def traceReopening (s : Session β) :
    List (Bool × Op) → Except SessionError (List (Except SessionError Answer × Session β))
  | [] => .ok []
  | (reopen, op) :: plan =>
      match if reopen then Session.openOn s.registry s.history.medium else .ok s with
      | .error e => .error e
      | .ok t =>
          ((t.perform op).1.traceReopening plan).map (((t.perform op).2, (t.perform op).1) :: ·)

/-- No writing fails in a run: no answer is an error of the medium. -/
def Writes (s : Session β) (ops : List Op) : Prop :=
  ∀ step ∈ s.trace ops, ∀ e, step.1 ≠ .error (.history e)

/-- **A settled session is what is opened on its medium.** -/
theorem openOn_of_settled {s : Session β} (h : s.Settled) (hline : s.lastLine = none) :
    Session.openOn s.registry s.history.medium = .ok s :=
  openOn_eq_ok.2 ⟨h, rfl, hline⟩

/-- No operation leaves a line waiting. -/
theorem lastLine_perform {s : Session β} (h : s.lastLine = none) (op : Op) :
    (s.perform op).1.lastLine = none :=
  (stepped_perform s op).lastLine.elim (·.trans h) id

variable [FaithfulMedium β]

/-- **An operation that does not fail to write leaves a session settled.** -/
theorem settled_perform {s : Session β} (h : s.Settled) {op : Op}
    (hwrites : ∀ e, (s.perform op).2 ≠ .error (.history e)) : (s.perform op).1.Settled := by
  rcases (stepped_perform s op).history with ⟨hsame, _⟩ | ⟨store, hfollows, hsave, hanswer⟩
  · rw [Settled, hsame]
    exact h
  · have hdocument := (Store.noRepeats_of_openOn h).of_follows hfollows
    cases hresult : store.save with
    | mk history result =>
        cases result with
        | ok _ =>
            rw [Settled, hsave, hresult]
            exact Store.openOn_of_save hdocument hresult
        | error e => exact absurd ((hanswer e).2 (by rw [hresult])) (hwrites e)

/-- Every session of a run is the one that its medium opens as. -/
theorem openOn_of_mem_trace {s : Session β} (h : s.Settled) (hline : s.lastLine = none)
    {ops : List Op} (hwrites : s.Writes ops) :
    ∀ step ∈ s.trace ops, Session.openOn s.registry step.2.history.medium = .ok step.2 := by
  induction ops generalizing s with
  | nil => exact fun step hstep => absurd hstep List.not_mem_nil
  | cons op ops ih =>
      obtain ⟨hfirst, hlater⟩ := List.forall_mem_cons.1 hwrites
      have hsettled := settled_perform h hfirst
      have hnone := lastLine_perform hline op
      have hregistry := (stepped_perform s op).registry
      refine List.forall_mem_cons.2 ⟨?_, ?_⟩
      · rw [← hregistry]
        exact openOn_of_settled hsettled hnone
      · rw [← hregistry]
        exact ih hsettled hnone hlater

/-- **Reopening is transparent.**  Let no writing fail in a run of an opened
session.  Then after each operation the medium opens as the session just as it is,
and a run that closes and reopens the session before any of the operations has the
same answers and the same sessions. -/
theorem reopening_is_transparent {registry : Registry} {medium : β} {s : Session β}
    (hopen : Session.openOn registry medium = .ok s) (plan : List (Bool × Op))
    (hwrites : s.Writes (plan.map (·.2))) :
    (∀ step ∈ s.trace (plan.map (·.2)),
      Session.openOn registry step.2.history.medium = .ok step.2) ∧
    s.traceReopening plan = .ok (s.trace (plan.map (·.2))) := by
  obtain ⟨hsettled, rfl, hline⟩ := openOn_eq_ok.1 hopen
  have hs : s.Settled := by
    rw [Settled, Store.medium_of_openOn hsettled]
    exact hsettled
  refine ⟨openOn_of_mem_trace hs hline hwrites, ?_⟩
  clear hopen hsettled
  induction plan generalizing s with
  | nil => rfl
  | cons step plan ih =>
      obtain ⟨reopen, op⟩ := step
      obtain ⟨hfirst, hlater⟩ := List.forall_mem_cons.1 hwrites
      have hreopened : (if reopen then Session.openOn s.registry s.history.medium else .ok s)
          = .ok s := by
        cases reopen with
        | false => rfl
        | true => exact openOn_of_settled hs hline
      rw [traceReopening, hreopened]
      simp only [ih hlater (lastLine_perform hline op) (settled_perform hs hfirst), Except.map]
      rfl

/-- Memory never fails to be written. -/
theorem writes_memory (s : Session Memory) (ops : List Op) : s.Writes ops := by
  induction ops generalizing s with
  | nil => exact fun step hstep => absurd hstep List.not_mem_nil
  | cons op ops ih =>
      refine List.forall_mem_cons.2 ⟨fun e => ?_, ih _⟩
      rcases (stepped_perform s op).history with ⟨_, hanswer⟩ | ⟨store, _, _, hanswer⟩
      · exact hanswer e
      · intro herror
        cases (hanswer e).1 herror

/-- A history of workouts in which a value was written twice. -/
def workoutHistory : Document :=
  ⟨SortedMap.ofList [("exercise", SortedMap.ofList [("DURATION", ["30", "45", "30"])])]⟩

/-- What is opened of that history: it is without the repeat and dirty. -/
def workoutSession : Session Memory where
  registry := workoutRegistry
  history :=
    { medium := ⟨some workoutHistory.encode⟩
      document :=
        ⟨SortedMap.ofList [("exercise", SortedMap.ofList [("DURATION", ["30", "45"])])]⟩
      dirty := true }

/-- A session that is closed before its first, third, fourth and last operation. -/
def workoutPlan : List (Bool × Op) :=
  [ (true, .change (.record "#Exercise/Run 30".toList)),
    (false, .change (.record "#Exercise/Run 60; ; Goggles".toList)),
    (true, .change (.forget "Exercise" "Duration" "45")),
    (true, .scanText "#Exercise/Swim 15\n#Exercise/Swim 15".toList),
    (false, .scanFiles [none, some "#Exercise/Swim 20".toList]),
    (false, .change (.commit ⟨[⟨"Book", "Author", "Eliot"⟩]⟩)),
    (true, .deleteHistory) ]

/-- The session is opened on the history. -/
theorem openOn_workoutHistory :
    Session.openOn workoutRegistry (⟨some workoutHistory.encode⟩ : Memory)
      = .ok workoutSession := by
  refine openOn_eq_ok.2 ⟨Store.openOn_eq_ok.2 ?_, rfl, rfl⟩
  have hread : Medium.read (⟨some workoutHistory.encode⟩ : Memory)
      = .ok (some workoutHistory.encode) := rfl
  have hdedup : workoutHistory.dedup = workoutSession.history.document := by decide +kernel
  have hdirty : (workoutSession.history.document != workoutHistory) = true := by decide +kernel
  simp only [Store.load, hread, Document.decode?_encode, hdedup, hdirty]
  rfl

theorem reopening_is_transparent_workout :
    workoutSession.traceReopening workoutPlan
      = .ok (workoutSession.trace (workoutPlan.map (·.2))) ∧
    (workoutSession.trace (workoutPlan.map (·.2))).map (·.1) =
      [ .ok (.delta {}),
        .ok (.delta ⟨[⟨"Exercise", "Duration", "60"⟩,
          ⟨"Exercise", "Run-Equipment", "Goggles"⟩]⟩),
        .ok (.flag true), .ok (.report ⟨0, 0, 2, 1⟩), .ok (.report ⟨1, 1, 1, 1⟩),
        .ok (.flag true), .ok .done ] := by
  refine ⟨(reopening_is_transparent openOn_workoutHistory workoutPlan
    (writes_memory _ _)).2, ?_⟩
  decide +kernel

end Session

end Tagline
