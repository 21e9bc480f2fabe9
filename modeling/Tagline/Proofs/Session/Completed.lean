import Tagline.Proofs.Session.Bulk
import Tagline.Proofs.Text.Pieces
import Tagline.Shell

/-!
# Lines that are completed

A session sees one line after another, and each time a line is completed, what it adds
is committed at once.  The line that waits is the one that was seen just before, if it
was not blank: a line that is not blank takes the place of the one that waits, and a
blank line takes that away, be it readable or not.  So a line is completed exactly if
it can be read and the next line is blank, and never a second time.

What a completed line adds is found in the history as it is then, with all that the
lines before it have brought.  This is how a line is recorded, and the line that waits
plays no part in that; so the history becomes what it would be if the completed lines
were recorded and nothing else were seen.

* `Taken`, `taken_take` — what a session does with one line;
* `exists_completion_iff` — which of several lines are completed;
* `each_completed` — the completed lines are recorded;
* `completed_lines_are_recorded` — the whole of it, where the session can save;
* `Shell.feedAll_eq` — a shell that does not ask does this with its lines.
-/

namespace Tagline

/-! ## Blank lines -/

/-- A tag line has a hash. -/
theorem Prefix.hash_mem_of_strip? {line body : Text} (h : strip? line = some body) :
    '#' ∈ line := by
  unfold strip? at h
  split at h
  · next rest hheading =>
      rw [Text.eq_append_of_dropLead? hheading]
      exact List.mem_append_left _ List.mem_cons_self
  · obtain ⟨rest, hrest, _⟩ := Option.map_eq_some_iff.1 h
    rw [afterHash?_eq_some hrest]
    exact List.mem_cons_self

/-- A blank line is no tag line. -/
theorem Registry.parseTagLine_of_allBlank {r : Registry} {line : Text}
    (h : Text.allBlank line = true) : r.parseTagLine line = .error .notTagLine := by
  have hstrip : Prefix.strip? line = none := by
    rw [Option.eq_none_iff_forall_ne_some]
    intro body hbody
    have hblank := List.all_eq_true.1 h '#' (Prefix.hash_mem_of_strip? hbody)
    exact absurd hblank (by decide)
  rw [parseTagLine, hstrip]

/-- A line that can be read is not blank. -/
theorem Registry.allBlank_of_parseTagLine {r : Registry} {line : Text} {outcome : Outcome}
    (h : r.parseTagLine line = .ok outcome) : Text.allBlank line = false := by
  rw [← Bool.not_eq_true]
  intro hblank
  rw [parseTagLine_of_allBlank hblank] at h
  cases h

namespace Session

variable {β : Type}

/-! ## The line that waits -/

/-- A session in which another line waits, or none. -/
def waiting (s : Session β) (line : Option Text) : Session β :=
  { s with lastLine := line }

/-- A completed line, and the answer to the commit of what it adds. -/
abbrev Completion := CompletedLine × Except SessionError Bool

/-- The line that is seen before the line at a place; before the first line this is
the one that waits. -/
def lineBefore (s : Session β) (lines : List Text) : Nat → Option Text
  | 0 => s.lastLine
  | i + 1 => lines[i]?

/-- The line at a place among some lines completes a line, which is read as a record:
it is blank, and the line before it is not blank and can be read. -/
structure CompletesAt (s : Session β) (lines : List Text) (i : Nat) (line : Text)
    (record : Record) : Prop where
  blank : ∃ blank, lines[i]? = some blank ∧ Text.allBlank blank = true
  before : s.lineBefore lines i = some line
  notBlank : Text.allBlank line = false
  read : ∃ outcome, s.registry.parseTagLine line = .ok outcome ∧ outcome.record = record

/-- The lines that are completed, with their answers. -/
def completions (answers : List (Option Completion)) : List Completion :=
  answers.filterMap id

variable [Medium β]

/-- Takes notice of a line, and commits at once what a completed line adds. -/
def take (s : Session β) (line : Text) : Session β × Option Completion :=
  match s.observe line with
  | (s, none) => (s, none)
  | (s, some done) => ((s.commit done.delta).1, some (done, (s.commit done.delta).2))

/-- Takes several lines, one after another, and collects the answers. -/
def takeAll (s : Session β) : List Text → Session β × List (Option Completion)
  | [] => (s, [])
  | line :: lines =>
      (((s.take line).1.takeAll lines).1, (s.take line).2 :: ((s.take line).1.takeAll lines).2)

/-- A save does not touch the waiting line. -/
theorem saving_waiting {α : Type} (s : Session β) (line : Option Text) (answer : α) :
    (s.waiting line).saving answer
      = ((s.saving answer).1.waiting line, (s.saving answer).2) := by
  have hhistory : (s.waiting line).history = s.history := rfl
  unfold saving
  rw [hhistory]
  split <;> rfl

/-- Nor does a commit. -/
theorem commit_waiting (s : Session β) (line : Option Text) (delta : Delta) :
    (s.waiting line).commit delta
      = ((s.commit delta).1.waiting line, (s.commit delta).2) := by
  have hhistory : (s.waiting line).history = s.history := rfl
  cases hgrows : s.history.document.grows delta with
  | false => rw [commit_of_not_grows hgrows, commit_of_not_grows (s := s.waiting line) hgrows]
  | true =>
      rw [commit_of_grows hgrows, commit_of_grows (s := s.waiting line) hgrows]
      exact saving_waiting (s.holding (s.history.document.apply delta)) line true

/-- **The line that waits plays no part** in the recording of another. -/
theorem recordLine_waiting (s : Session β) (line : Option Text) (recorded : Text) :
    (s.waiting line).recordLine recorded
      = ((s.recordLine recorded).1.waiting line, (s.recordLine recorded).2) := by
  have hregistry : (s.waiting line).registry = s.registry := rfl
  cases hparse : s.registry.parseTagLine recorded with
  | error e =>
      rw [recordLine_of_error hparse, recordLine_of_error (s := s.waiting line) hparse]
  | ok outcome =>
      rw [recordLine_of_ok hparse, recordLine_of_ok (s := s.waiting line) hparse, commit_waiting]
      rfl

/-! ## One line -/

/-- What a session does with one line: where it is afterwards, and what it answers. -/
inductive Taken (s : Session β) (line : Text) : Session β → Option Completion → Prop where
  /-- A line that is not blank waits. -/
  | waits (h : Text.allBlank line = false) : Taken s line (s.waiting (some line)) none
  /-- A blank line completes the line that waits, if that can be read. -/
  | completes (hblank : Text.allBlank line = true) {previous : Text} {outcome : Outcome}
      {delta : Delta} (hwaits : s.lastLine = some previous)
      (hread : s.registry.parseTagLine previous = .ok outcome)
      (hdelta : delta = Change.lineDelta s.registry s.history.document previous) :
      Taken s line ((s.commit delta).1.waiting none)
        (some (⟨previous, outcome.record, delta⟩, (s.commit delta).2))
  /-- If no line waits, or one that cannot be read, a blank line takes it away. -/
  | clears (hblank : Text.allBlank line = true)
      (hunread : ∀ previous outcome, s.lastLine = some previous →
        s.registry.parseTagLine previous ≠ .ok outcome) : Taken s line (s.waiting none) none

/-- **What a session does with one line.** -/
theorem taken_take (s : Session β) (line : Text) :
    ∃ t answer, s.take line = (t, answer) ∧ s.Taken line t answer := by
  cases hblank : Text.allBlank line with
  | false =>
      refine ⟨_, _, ?_, .waits hblank⟩
      simp [take, observe, hblank, waiting]
  | true =>
      cases hwaits : s.lastLine with
      | none =>
          refine ⟨_, _, ?_, .clears hblank (by simp [hwaits])⟩
          simp [take, observe, hblank, hwaits, waiting]
      | some previous =>
          cases hread : s.registry.parseTagLine previous with
          | error e =>
              refine ⟨_, _, ?_, .clears hblank fun other outcome hother => ?_⟩
              · simp [take, observe, hblank, hwaits, parse, hread, Except.mapError, waiting]
              · rw [← Option.some.inj (hwaits.symm.trans hother), hread]
                simp
          | ok outcome =>
              refine ⟨_, _, ?_, .completes hblank hwaits hread rfl⟩
              have hobserved : s.observe line = (s.waiting none,
                  some ⟨previous, outcome.record,
                    Change.lineDelta s.registry s.history.document previous⟩) := by
                simp [observe, hblank, hwaits, parse, hread, Except.mapError,
                  pendingDelta_of_read hread, waiting]
              rw [take, hobserved]
              simp only [commit_waiting]

/-- The databases stay the same from line to line. -/
theorem Taken.registry {s t : Session β} {line : Text} {answer : Option Completion}
    (h : s.Taken line t answer) : t.registry = s.registry := by
  cases h with
  | waits _ => rfl
  | @completes _ _ _ delta _ _ _ => exact (stepped_change s (.commit delta)).registry
  | clears _ _ => rfl

/-- The line that waits after a line is that line, unless it is blank. -/
theorem Taken.lastLine {s t : Session β} {line : Text} {answer : Option Completion}
    (h : s.Taken line t answer) :
    t.lastLine = if Text.allBlank line = true then none else some line := by
  cases h with
  | waits hnot => simp [waiting, hnot]
  | completes hblank _ _ _ => simp [waiting, hblank]
  | clears hblank _ => simp [waiting, hblank]

/-- The first of several lines completes the line that waits. -/
theorem Taken.completesAt_zero {s t : Session β} {line : Text} {answer : Option Completion}
    (h : s.Taken line t answer) {lines : List Text} {previous : Text} {record : Record} :
    (∃ p, answer = some p ∧ p.1.line = previous ∧ p.1.record = record) ↔
      s.CompletesAt (line :: lines) 0 previous record := by
  cases h with
  | waits hnot =>
      refine ⟨fun ⟨p, hp, _⟩ => (Option.some_ne_none p hp.symm).elim, fun hcompletes => ?_⟩
      obtain ⟨blank, hplace, hblank⟩ := hcompletes.blank
      rw [← Option.some.inj hplace, hnot] at hblank
      cases hblank
  | @completes hblank waited outcome _ hwaits hread _ =>
      constructor
      · rintro ⟨p, hp, rfl, rfl⟩
        cases hp
        exact ⟨⟨line, rfl, hblank⟩, hwaits, Registry.allBlank_of_parseTagLine hread,
          ⟨outcome, hread, rfl⟩⟩
      · intro hcompletes
        obtain rfl := Option.some.inj (hwaits.symm.trans hcompletes.before)
        obtain ⟨other, hother, hrecord⟩ := hcompletes.read
        obtain rfl := Except.ok.inj (hread.symm.trans hother)
        exact ⟨_, rfl, rfl, hrecord⟩
  | clears hblank hunread =>
      refine ⟨fun ⟨p, hp, _⟩ => (Option.some_ne_none p hp.symm).elim, fun hcompletes => ?_⟩
      obtain ⟨outcome, hread, _⟩ := hcompletes.read
      exact absurd hread (hunread _ outcome hcompletes.before)

/-- Which of the later lines complete a line is seen from the session after the first. -/
theorem Taken.completesAt_succ {s t : Session β} {line : Text} {answer : Option Completion}
    (h : s.Taken line t answer) {lines : List Text} {i : Nat} {previous : Text}
    {record : Record} :
    t.CompletesAt lines i previous record ↔
      s.CompletesAt (line :: lines) (i + 1) previous record := by
  -- Only the line in front of the second one is looked up in the session.
  have hbefore : Text.allBlank previous = false →
      (t.lineBefore lines i = some previous ↔
        s.lineBefore (line :: lines) (i + 1) = some previous) := by
    intro hnot
    cases i with
    | succ i => rfl
    | zero =>
        simp only [lineBefore, h.lastLine, List.getElem?_cons_zero, Option.some.injEq]
        split
        · next hblank =>
            refine ⟨fun hnone => (Option.some_ne_none previous hnone.symm).elim, ?_⟩
            rintro rfl
            rw [hblank] at hnot
            cases hnot
        · exact Option.some_inj
  constructor
  · rintro ⟨hblank, hline, hnot, hread⟩
    exact ⟨hblank, (hbefore hnot).1 hline, hnot, h.registry ▸ hread⟩
  · rintro ⟨hblank, hline, hnot, hread⟩
    exact ⟨hblank, (hbefore hnot).2 hline, hnot, h.registry.symm ▸ hread⟩

/-! ## Several lines -/

/-- Lines are taken one after another, each with its answer. -/
theorem takeAll_cons {s t : Session β} {line : Text} {answer : Option Completion}
    (h : s.take line = (t, answer)) (lines : List Text) :
    s.takeAll (line :: lines) = ((t.takeAll lines).1, answer :: (t.takeAll lines).2) := by
  rw [takeAll, h]

theorem length_takeAll (s : Session β) (lines : List Text) :
    (s.takeAll lines).2.length = lines.length := by
  induction lines generalizing s with
  | nil => rfl
  | cons line lines ih => exact congrArg (· + 1) (ih (s.take line).1)

/-- **Which of several lines complete a line**, and which line that is. -/
theorem exists_completion_iff {s : Session β} {lines : List Text} {i : Nat} {line : Text}
    {record : Record} :
    (∃ p, (s.takeAll lines).2[i]? = some (some p) ∧ p.1.line = line ∧ p.1.record = record) ↔
      s.CompletesAt lines i line record := by
  induction lines generalizing s i with
  | nil =>
      refine ⟨fun ⟨p, hp, _⟩ => by simp [takeAll] at hp, fun h => ?_⟩
      obtain ⟨blank, hplace, _⟩ := h.blank
      simp at hplace
  | cons first lines ih =>
      obtain ⟨t, answer, htake, htaken⟩ := s.taken_take first
      rw [takeAll_cons htake]
      cases i with
      | zero =>
          rw [← htaken.completesAt_zero]
          simp only [List.getElem?_cons_zero, Option.some.injEq]
      | succ i =>
          rw [← htaken.completesAt_succ, ← ih]
          simp only [List.getElem?_cons_succ]

theorem completions_none (answers : List (Option Completion)) :
    completions (none :: answers) = completions answers := rfl

theorem completions_some (p : Completion) (answers : List (Option Completion)) :
    completions (some p :: answers) = p :: completions answers := rfl

/-- The completions are the answers that there are. -/
theorem mem_completions {p : Completion} {answers : List (Option Completion)} :
    p ∈ completions answers ↔ some p ∈ answers := by
  simp [completions]

/-- **A line is completed at most once**, in the order in which the lines are seen. -/
theorem completed_sublist (s : Session β) (lines : List Text) :
    ((completions (s.takeAll lines).2).map (·.1.line)).Sublist
      ((s.lastLine.toList ++ lines).filter fun line => !Text.allBlank line) := by
  induction lines generalizing s with
  | nil => exact List.nil_sublist _
  | cons line lines ih =>
      obtain ⟨t, answer, htake, htaken⟩ := s.taken_take line
      have hrest := ih t
      rw [htaken.lastLine] at hrest
      rw [takeAll_cons htake, List.filter_append]
      cases htaken with
      | waits hnot =>
          rw [if_neg (by simp [hnot])] at hrest
          exact hrest.trans (List.sublist_append_right _ _)
      | completes hblank hwaits hread _ =>
          have hnot := Registry.allBlank_of_parseTagLine hread
          rw [if_pos hblank] at hrest
          rw [completions_some, List.map_cons]
          simpa [hwaits, hnot, hblank] using hrest
      | clears hblank _ =>
          rw [if_pos hblank] at hrest
          rw [completions_none, List.filter_cons_of_neg (by simp [hblank])]
          exact hrest.trans (List.sublist_append_right _ _)

/-- **The completed lines are recorded**, whichever line waits meanwhile: recording them
one after another makes the same session and gives the same answers. -/
theorem each_completed (s : Session β) (waits : Option Text) (lines : List Text) :
    (s.waiting waits).each recordLine ((completions (s.takeAll lines).2).map (·.1.line))
      = ((s.takeAll lines).1.waiting waits,
        (completions (s.takeAll lines).2).map fun p => p.2.map fun _ => p.1.delta) := by
  induction lines generalizing s with
  | nil => rfl
  | cons line lines ih =>
      obtain ⟨t, answer, htake, htaken⟩ := s.taken_take line
      have hrest := ih t
      rw [takeAll_cons htake]
      cases htaken with
      | waits _ => exact hrest
      | @completes _ previous outcome delta _ hread hdelta =>
          have hrecorded : (s.waiting waits).recordLine previous
              = ((s.commit delta).1.waiting waits, (s.commit delta).2.map fun _ => delta) := by
            rw [recordLine_waiting, recordLine_of_ok hread, hdelta]
          change ((s.commit delta).1.waiting waits).each recordLine _ = _ at hrest
          rw [completions_some, List.map_cons, each_cons hrecorded, hrest]
          rfl
      | clears _ _ => exact hrest

/-! ## Sessions that can save -/

open Medium (Writable)

/-- **A commit succeeds**, and the next one can be saved as well. -/
theorem commit_of_writable {s : Session β} (h : Writable s.history.medium) (delta : Delta) :
    (s.commit delta).2.isOk = true ∧ Writable (s.commit delta).1.history.medium := by
  cases hgrows : s.history.document.grows delta with
  | false =>
      rw [commit_of_not_grows hgrows]
      exact ⟨rfl, h⟩
  | true =>
      rw [commit_of_grows hgrows]
      obtain ⟨hanswer, _, hnext⟩ := saving_of_writable
        (s := s.holding (s.history.document.apply delta)) h true
      rw [hanswer]
      exact ⟨rfl, hnext⟩

/-- On a medium that can be written every commit succeeds. -/
theorem Taken.writable {s t : Session β} {line : Text} {answer : Option Completion}
    (h : s.Taken line t answer) (hwritable : Writable s.history.medium) :
    (∀ p, answer = some p → p.2.isOk = true) ∧ Writable t.history.medium := by
  cases h with
  | waits _ => exact ⟨nofun, hwritable⟩
  | @completes _ _ _ delta _ _ _ =>
      obtain ⟨hok, hnext⟩ := commit_of_writable hwritable delta
      refine ⟨fun p hp => ?_, hnext⟩
      rw [← Option.some.inj hp]
      exact hok
  | clears _ _ => exact ⟨nofun, hwritable⟩

/-- Every commit of what a line adds succeeds. -/
theorem isOk_of_mem_takeAll {s : Session β} (h : Writable s.history.medium) {lines : List Text}
    {p : Completion} (hp : some p ∈ (s.takeAll lines).2) : p.2.isOk = true := by
  induction lines generalizing s with
  | nil => cases hp
  | cons line lines ih =>
      obtain ⟨t, answer, htake, htaken⟩ := s.taken_take line
      obtain ⟨hok, hnext⟩ := htaken.writable h
      rw [takeAll_cons htake] at hp
      rcases List.mem_cons.1 hp with hfirst | hlater
      · exact hok p hfirst.symm
      · exact ih hnext hlater

/-- **Completed lines are recorded, and no others.**  Seeing a line changes nothing of
the history.  Where each completed line is committed at once, a line is completed
exactly if it is blank, the line seen before it is not, and that line can be read; the
line seen before the first one is the one that waited.  No line is completed twice.  On
a medium whose writes succeed every commit succeeds, and in the end the history is what
it is if just the completed lines are recorded one after another, with the same answers. -/
theorem completed_lines_are_recorded {s : Session β} (h : Writable s.history.medium) :
    (∀ line, (s.observe line).1.history = s.history) ∧
    ∀ lines, ∃ t answers, s.takeAll lines = (t, answers) ∧ answers.length = lines.length ∧
      (∀ i line record,
        (∃ p, answers[i]? = some (some p) ∧ p.1.line = line ∧ p.1.record = record) ↔
          s.CompletesAt lines i line record) ∧
      ((completions answers).map (·.1.line)).Sublist
        ((s.lastLine.toList ++ lines).filter fun line => !Text.allBlank line) ∧
      (∀ p ∈ completions answers, p.2.isOk = true) ∧
      ∃ u, s.each recordLine ((completions answers).map (·.1.line))
          = (u, (completions answers).map fun p => .ok p.1.delta) ∧
        t.history = u.history := by
  refine ⟨history_observe s, fun lines => ⟨(s.takeAll lines).1, (s.takeAll lines).2, rfl,
    length_takeAll s lines, fun i line record => exists_completion_iff,
    completed_sublist s lines, fun p hp => isOk_of_mem_takeAll h (mem_completions.1 hp), ?_⟩⟩
  have hanswers : (completions (s.takeAll lines).2).map (fun p => p.2.map fun _ => p.1.delta)
      = (completions (s.takeAll lines).2).map fun p => .ok p.1.delta := by
    refine List.map_congr_left fun p hp => ?_
    have hok := isOk_of_mem_takeAll h (mem_completions.1 hp)
    cases hanswer : p.2 with
    | ok grew => rfl
    | error e =>
        rw [hanswer] at hok
        cases hok
  refine ⟨(s.takeAll lines).1.waiting s.lastLine, ?_, rfl⟩
  rw [← hanswers]
  exact each_completed s s.lastLine lines

/-- A laboratory in which a line waits. -/
def labAtWork : Session Memory :=
  labSession.waiting (some "#Lab 7")

/-- Blank lines, one after a line that waited, one after a blank line, one after a note
that is no tag line, and one after a reading that is there already. -/
def labLines : List Text :=
  ["", " ", "#Lab 1e3, 7", "", "warm day", "", "#Lab 2", "#Lab 1E3", "\t"].map String.toList

/-- What the second of the completed lines says. -/
def labReading : Record where
  database := "Lab"
  params := [⟨"Readings", .multi ["1e3", "7"]⟩]
  location := some (.parameter "Readings" "1e3, 7")

/-- Three lines are completed, of which one adds nothing; `#Lab 2` is not, since a line
that is not blank follows it. -/
theorem completed_lines_are_recorded_lab :
    ∃ t answers u, labAtWork.takeAll labLines = (t, answers) ∧
      (completions answers).map (·.1.line)
        = ["#Lab 7".toList, "#Lab 1e3, 7".toList, "#Lab 1E3".toList] ∧
      (completions answers).map (fun p => p.1.delta.entries.length) = [1, 1, 0] ∧
      labAtWork.CompletesAt labLines 3 "#Lab 1e3, 7" labReading ∧
      labAtWork.each recordLine ["#Lab 7".toList, "#Lab 1e3, 7".toList, "#Lab 1E3".toList]
        = (u, (completions answers).map fun p => .ok p.1.delta) ∧
      t.history = u.history := by
  obtain ⟨_, htaken⟩ := completed_lines_are_recorded (s := labAtWork)
    (Medium.writable_memory labAtWork.history.medium)
  obtain ⟨t, answers, htake, _, hplaces, _, _, u, heach, hhistory⟩ := htaken labLines
  have hanswers : answers = (labAtWork.takeAll labLines).2 := by rw [htake]
  have hlines : (completions answers).map (·.1.line)
      = ["#Lab 7".toList, "#Lab 1e3, 7".toList, "#Lab 1E3".toList] := by
    rw [hanswers]
    decide +kernel
  rw [hlines] at heach
  refine ⟨t, answers, u, htake, hlines, ?_, (hplaces 3 _ _).1 ?_, heach, hhistory⟩
  · rw [hanswers]
    decide +kernel
  · have hthird : ((labAtWork.takeAll labLines).2[3]?.join.map fun p => (p.1.line, p.1.record))
        = some ("#Lab 1e3, 7".toList, labReading) := by decide +kernel
    obtain ⟨p, hp, heq⟩ := Option.map_eq_some_iff.1 hthird
    rw [hanswers]
    exact ⟨p, Option.join_eq_some_iff.1 hp, congrArg Prod.fst heq, congrArg Prod.snd heq⟩

end Session

/-! ## The shell -/

namespace Shell

/-- What a request leaves of the session is all that changes in a shell. -/
theorem shell_report {α : Type} (s : Shell) (result : Session HistoryFile × Except SessionError α)
    (onSuccess : α → Printed) : (s.report result onSuccess).1 = { s with session := result.1 } := by
  unfold report
  split <;> rfl

/-- A shell that does not ask commits what a line adds; if that is nothing, a commit
would change nothing. -/
theorem shell_recordOrAsk {s : Shell} (hask : s.confirm = false) (done : CompletedLine) :
    (s.recordOrAsk done).1 = { s with session := (s.session.commit done.delta).1 } := by
  by_cases hchanged : done.delta.changed = true
  · rw [recordOrAsk, if_neg (by simp [hchanged]), if_neg (by simp [hask])]
    exact s.shell_report _ _
  · have hempty : done.delta.entries = [] := by simpa [Delta.changed] using hchanged
    have hidle : s.session.commit done.delta = (s.session, .ok false) :=
      Session.commit_of_not_grows (by simp [Document.grows, hempty])
    rw [recordOrAsk, if_pos (by simp [hchanged]), hidle]

/-- A shell that does not ask does with a line what its session does. -/
theorem shell_feed {s : Shell} (hask : s.confirm = false) (hquestion : s.question = none)
    (hopen : s.finished = false) {line : Text} (hline : (Text.trim line).head? ≠ some '\\') :
    (s.feed line).1 = { s with session := (s.session.take line).1 } := by
  have hfeed : s.feed line = s.takeLine line := by simp [feed, hopen, hquestion]
  rw [hfeed, takeLine, if_neg hline]
  rcases hobserved : s.session.observe line with ⟨session, _ | done⟩
  · simp only [Session.take, hobserved]
    split <;> rfl
  · -- Only a blank line completes another.
    have hblank : Text.trim line = [] := by
      rw [← Text.allBlank_iff]
      by_contra hnot
      simp [Session.observe, hnot] at hobserved
    simp only [Session.take, hobserved, hblank, List.isEmpty_nil, if_true]
    exact shell_recordOrAsk (s := { s with session }) hask done

/-- **A shell that does not ask commits what a completed line adds.**  Fed lines that are
no commands, it does with them what its session does. -/
theorem feedAll_eq {s : Shell} (hask : s.confirm = false) (hquestion : s.question = none)
    (hopen : s.finished = false) {lines : List Text}
    (hlines : ∀ line ∈ lines, (Text.trim line).head? ≠ some '\\') (printed : Printed) :
    (s.feedAll printed lines).1 = { s with session := (s.session.takeAll lines).1 } := by
  induction lines generalizing s printed with
  | nil => rfl
  | cons line lines ih =>
      have hfirst := shell_feed hask hquestion hopen (hlines line List.mem_cons_self)
      rw [feedAll, ih (by rw [hfirst]; exact hask) (by rw [hfirst]; exact hquestion)
        (by rw [hfirst]; exact hopen) fun l hl => hlines l (List.mem_cons_of_mem _ hl), hfirst]
      rfl

end Shell

end Tagline
