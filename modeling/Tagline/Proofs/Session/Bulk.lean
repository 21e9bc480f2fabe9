import Tagline.Proofs.Session.Scan

/-!
# A scan records its lines and saves once

A line that is recorded is saved before the next one, if it adds anything; a scan adds
its lines in memory and saves when it has seen them all.  What a line adds depends on
the registry and on the document before it, and on nothing that a save changes.  So
both ways make the same document, however often they write.

* `Medium.Writable` — no write to a medium fails, now or later;
* `Session.each` — the same is done for several items, one after another;
* `Journal` — a medium that lists what is written to it;
* `each_recordLine`, `each_scanText` — lines that are recorded and texts that are
  scanned, one after another;
* `scan_is_recording` — a scan is the recording of its lines, with one write.
-/

namespace Tagline

/-! ## Media whose writes succeed -/

namespace Medium

variable {β : Type} [Medium β]

/-- A medium to which every write succeeds, whatever was written before. -/
def Writable (medium : β) : Prop :=
  ∀ (before : List ByteArray) (bytes : ByteArray),
    (write (before.foldl (fun m b => (write m b).1) medium) bytes).2 = .ok ()

theorem Writable.ok {medium : β} (h : Writable medium) (bytes : ByteArray) :
    (write medium bytes).2 = .ok () :=
  h [] bytes

theorem Writable.next {medium : β} (h : Writable medium) (bytes : ByteArray) :
    Writable (write medium bytes).1 :=
  fun before => h (bytes :: before)

/-- The memory can always be written. -/
theorem writable_memory (m : Memory) : Writable m :=
  fun _ _ => rfl

end Medium

/-- A medium with a list of what was written to it, oldest first. -/
structure Journal (β : Type) where
  medium : β
  written : List ByteArray := []

instance {β : Type} [Medium β] : Medium (Journal β) where
  read j := Medium.read j.medium
  write j bytes :=
    (⟨(Medium.write j.medium bytes).1, j.written ++ [bytes]⟩, (Medium.write j.medium bytes).2)
  label j := Medium.label j.medium

namespace Session

variable {β : Type}

/-- Does the same for several items, one after another, and collects the answers. -/
def each {α γ : Type} (s : Session β) (f : Session β → α → Session β × Except SessionError γ) :
    List α → Session β × List (Except SessionError γ)
  | [] => (s, [])
  | item :: items =>
      (((f s item).1.each f items).1, (f s item).2 :: ((f s item).1.each f items).2)

theorem each_cons {α γ : Type} {f : Session β → α → Session β × Except SessionError γ}
    {s t : Session β} {item : α} {answer : Except SessionError γ} (h : f s item = (t, answer))
    (items : List α) :
    s.each f (item :: items) = ((t.each f items).1, answer :: (t.each f items).2) := by
  rw [each, h]

/-- A session that keeps its history on another medium. -/
def onMedium {γ : Type} (s : Session β) (medium : γ) : Session γ where
  registry := s.registry
  history := { medium, document := s.history.document, dirty := s.history.dirty }
  lastLine := s.lastLine

/-- A session whose medium lists what is written to it, after what it lists already. -/
def journaled (s : Session β) (written : List ByteArray) : Session (Journal β) :=
  s.onMedium ⟨s.history.medium, written⟩

/-! ## Media -/

/-- Taking in a line does not depend on the medium. -/
theorem ingestLine_onMedium {γ : Type} (s : Session β) (medium : γ) (report : ScanReport)
    (line : Text) :
    (s.onMedium medium).ingestLine report line
      = ((s.ingestLine report line).1.onMedium medium, (s.ingestLine report line).2) := by
  have hregistry : (s.onMedium medium).registry = s.registry := rfl
  unfold ingestLine
  rw [hregistry]
  cases s.registry.parseTagLine line with
  | error e => rfl
  | ok outcome =>
      dsimp only
      cases s.registry.database? outcome.record.database <;> rfl

/-- **What lines add in memory** is the same on every medium. -/
theorem ingestLines_onMedium {γ : Type} (s : Session β) (medium : γ) (report : ScanReport)
    (lines : List Text) :
    (s.onMedium medium).ingestLines report lines
      = ((s.ingestLines report lines).1.onMedium medium, (s.ingestLines report lines).2) := by
  induction lines generalizing s report with
  | nil => rfl
  | cons line lines ih =>
      rw [ingestLines, ingestLine_onMedium]
      exact ih _ _

/-- Nor does taking in several texts. -/
theorem ingestFiles_onMedium {γ : Type} (s : Session β) (medium : γ) (report : ScanReport)
    (texts : List (Option Text)) :
    (s.onMedium medium).ingestFiles report texts
      = ((s.ingestFiles report texts).1.onMedium medium, (s.ingestFiles report texts).2) := by
  induction texts generalizing s report with
  | nil => rfl
  | cons text texts ih =>
      cases text with
      | none => exact ih _ _
      | some text =>
          rw [ingestFiles, ingest, ingestLines_onMedium]
          exact ih _ _

/-- Nothing is written while lines are added in memory. -/
theorem medium_ingestLines (s : Session β) (report : ScanReport) (lines : List Text) :
    (s.ingestLines report lines).1.history.medium = s.history.medium :=
  congrArg (·.1.history.medium) (ingestLines_onMedium s s.history.medium report lines)

/-- Several texts leave the medium as well. -/
theorem medium_ingestFiles (s : Session β) (report : ScanReport) (texts : List (Option Text)) :
    (s.ingestFiles report texts).1.history.medium = s.history.medium :=
  congrArg (·.1.history.medium) (ingestFiles_onMedium s s.history.medium report texts)

variable [Medium β]

/-- **A save is one write**, of the document. -/
theorem saving_journaled {α : Type} (s : Session β) (written : List ByteArray) (answer : α) :
    (s.journaled written).saving answer
      = ((s.saving answer).1.journaled (written ++ [s.history.document.encode]),
        (s.saving answer).2) := by
  have hwrite : Medium.write (s.journaled written).history.medium
      (s.journaled written).history.document.encode
      = (⟨(Medium.write s.history.medium s.history.document.encode).1,
          written ++ [s.history.document.encode]⟩,
        (Medium.write s.history.medium s.history.document.encode).2) := rfl
  unfold saving Store.save
  rw [hwrite]
  rcases Medium.write s.history.medium s.history.document.encode with ⟨medium, _ | _⟩ <;> rfl

/-- **A scan of a text writes once**, and what it writes is the document. -/
theorem scanText_journaled (s : Session β) (text : Text) :
    (s.journaled []).scanText text
      = ((s.scanText text).1.journaled [(s.scanText text).1.history.document.encode],
        (s.scanText text).2) := by
  have hsaved : (s.scanText text).1.history.document
      = (s.ingest {} text).1.history.document := document_saving _ _
  rw [hsaved, scanText, journaled, ingest, ingestLines_onMedium,
    ← medium_ingestLines s {} (Text.lines text)]
  exact saving_journaled _ [] _

/-- **So does a scan of several texts**, whether or not all can be read. -/
theorem scanFiles_journaled (s : Session β) (texts : List (Option Text)) :
    (s.journaled []).scanFiles texts
      = ((s.scanFiles texts).1.journaled [(s.scanFiles texts).1.history.document.encode],
        (s.scanFiles texts).2) := by
  have hsaved : (s.scanFiles texts).1.history.document
      = (s.ingestFiles {} texts).1.history.document := document_saving _ _
  rw [hsaved, scanFiles, journaled, ingestFiles_onMedium, ← medium_ingestFiles s {} texts]
  exact saving_journaled _ [] _

/-! ## One save after another -/

open Medium (Writable)

/-- A save to a medium that can be written succeeds, and so will the next. -/
theorem saving_of_writable {α : Type} {s : Session β} (h : Writable s.history.medium)
    (answer : α) :
    (s.saving answer).2 = .ok answer ∧ (s.saving answer).1.registry = s.registry ∧
      Writable (s.saving answer).1.history.medium := by
  have hok := h.ok s.history.document.encode
  have hnext := h.next s.history.document.encode
  unfold saving Store.save
  cases hwrite : Medium.write s.history.medium s.history.document.encode with
  | mk medium result =>
      rw [hwrite] at hok hnext
      cases hok
      exact ⟨rfl, rfl, hnext⟩

/-- **A line that can be read is recorded**, and the next line can be saved as well. -/
theorem recordLine_of_writable {s : Session β} (h : Writable s.history.medium) (line : Text) :
    (s.recordLine line).2.isOk = (s.registry.parseTagLine line).isOk ∧
      Writable (s.recordLine line).1.history.medium := by
  cases hparse : s.registry.parseTagLine line with
  | error e =>
      rw [recordLine_of_error hparse]
      exact ⟨rfl, h⟩
  | ok outcome =>
      rw [recordLine_of_ok hparse]
      cases hgrows : s.history.document.grows
          (Change.lineDelta s.registry s.history.document line) with
      | false =>
          rw [commit_of_not_grows hgrows]
          exact ⟨rfl, h⟩
      | true =>
          rw [commit_of_grows hgrows]
          obtain ⟨hanswer, _, hnext⟩ := saving_of_writable
            (s := s.holding (s.history.document.apply
              (Change.lineDelta s.registry s.history.document line))) h true
          rw [hanswer]
          exact ⟨rfl, hnext⟩

/-- **Lines that are recorded one after another**, each saved before the next if it adds
anything. -/
theorem each_recordLine {s : Session β} (h : Writable s.history.medium) (lines : List Text) :
    (s.each recordLine lines).1.history.document
        = withLines s.registry s.history.document lines ∧
      (s.each recordLine lines).2.countP Except.isOk = readCount s.registry lines := by
  induction lines generalizing s with
  | nil => exact ⟨rfl, rfl⟩
  | cons line lines ih =>
      obtain ⟨hanswer, hnext⟩ := recordLine_of_writable h line
      have hregistry : (s.recordLine line).1.registry = s.registry :=
        (stepped_change s (.record line)).registry
      have hrest := ih hnext
      rw [hregistry, document_recordLine] at hrest
      refine ⟨hrest.1, ?_⟩
      rw [each, List.countP_cons, hanswer, hrest.2, readCount_cons, Nat.add_comm]

/-- What a scan of a text leaves and reports where it can be saved. -/
theorem scanText_of_writable {s : Session β} (h : Writable s.history.medium) (text : Text) :
    (s.scanText text).2 = .ok
        { linesParsed := readCount s.registry (Text.lines text)
          valuesAdded :=
            listed (lineDeltas s.registry s.history.document (Text.lines text)) } ∧
      (s.scanText text).1.registry = s.registry ∧
      (s.scanText text).1.history.document
        = withLines s.registry s.history.document (Text.lines text) ∧
      Writable (s.scanText text).1.history.medium := by
  obtain ⟨hregistry, hdocument, _⟩ := ingestLines_eq s {} (Text.lines text)
  have hwritable : Writable (s.ingest {} text).1.history.medium := by
    rw [ingest, medium_ingestLines]
    exact h
  obtain ⟨hanswer, hkept, hnext⟩ := saving_of_writable hwritable (s.ingest {} text).2
  have hsaved := document_saving (s.ingest {} text).1 (s.ingest {} text).2
  refine ⟨hanswer.trans ?_, hkept.trans hregistry, hsaved.trans hdocument, hnext⟩
  simp only [ingest, report_ingestLines, Nat.zero_add]

/-- Every file can be read or not. -/
theorem length_readable (texts : List (Option Text)) :
    (texts.filterMap id).length + texts.countP Option.isNone = texts.length := by
  rw [List.length_filterMap_eq_countP, List.length_eq_countP_add_countP Option.isSome]
  congr 1
  exact List.countP_congr fun text _ => by cases text <;> simp

/-- What a scan of files leaves and reports where it can be saved. -/
theorem scanFiles_of_writable {s : Session β} (h : Writable s.history.medium)
    (texts : List (Option Text)) :
    (s.scanFiles texts).2 = .ok
        { filesScanned := (texts.filterMap id).length
          filesFailed := texts.countP Option.isNone
          linesParsed := readCount s.registry ((texts.filterMap id).flatMap Text.lines)
          valuesAdded := listed (lineDeltas s.registry s.history.document
            ((texts.filterMap id).flatMap Text.lines)) } ∧
      (s.scanFiles texts).1.history.document
        = withLines s.registry s.history.document ((texts.filterMap id).flatMap Text.lines) := by
  obtain ⟨hdocument, hreport⟩ := ingestFiles_eq s {} texts
  have hwritable : Writable (s.ingestFiles {} texts).1.history.medium := by
    rw [medium_ingestFiles]
    exact h
  obtain ⟨hanswer, _⟩ := saving_of_writable hwritable (s.ingestFiles {} texts).2
  have hsaved := document_saving (s.ingestFiles {} texts).1 (s.ingestFiles {} texts).2
  refine ⟨hanswer.trans ?_, hsaved.trans hdocument⟩
  simp only [hreport, Nat.zero_add]

/-- **Texts that are scanned one after another**, each with a save of its own. -/
theorem each_scanText {s : Session β} (h : Writable s.history.medium) (texts : List Text) :
    ∃ (u : Session β) (reports : List ScanReport),
      s.each scanText texts = (u, reports.map .ok) ∧
      u.history.document
        = withLines s.registry s.history.document (texts.flatMap Text.lines) ∧
      (reports.map ScanReport.linesParsed).sum
        = readCount s.registry (texts.flatMap Text.lines) ∧
      (reports.map ScanReport.valuesAdded).sum
        = listed (lineDeltas s.registry s.history.document (texts.flatMap Text.lines)) := by
  induction texts generalizing s with
  | nil => exact ⟨s, [], rfl, rfl, rfl, rfl⟩
  | cons text texts ih =>
      obtain ⟨hanswer, hregistry, hdocument, hnext⟩ := scanText_of_writable h text
      obtain ⟨u, reports, heach, hdocument', hparsed, hadded⟩ := ih hnext
      rw [hregistry, hdocument] at hdocument' hadded
      rw [hregistry] at hparsed
      refine ⟨u, _ :: reports, by rw [each, heach, hanswer]; rfl, ?_, ?_, ?_⟩
      · rw [List.flatMap_cons, withLines_append]
        exact hdocument'
      · rw [List.flatMap_cons, readCount_append, List.map_cons, List.sum_cons, hparsed]
      · rw [List.flatMap_cons, lineDeltas_append, listed_append, List.map_cons, List.sum_cons,
          hadded]

/-- **A scan is the recording of its lines, saved once.**  On a medium whose writes
succeed, a scan of a text succeeds, leaves the document that is left if its lines are
recorded one after another, and counts the lines whose recording succeeds.  A scan of
files passes over those that cannot be read, leaves the document that is left if the
others are scanned one after another, and adds up what those scans report.  Either
scan writes once, whatever it finds, and what it writes is the document at its end. -/
theorem scan_is_recording {s : Session β} (h : Writable s.history.medium) :
    (∀ text, ∃ t report, s.scanText text = (t, .ok report) ∧
      t.history.document = (s.each recordLine (Text.lines text)).1.history.document ∧
      report.linesParsed = (s.each recordLine (Text.lines text)).2.countP Except.isOk ∧
      (s.journaled []).scanText text
        = (t.journaled [t.history.document.encode], .ok report)) ∧
    ∀ texts, ∃ (t u : Session β) (report : ScanReport) (reports : List ScanReport),
      s.scanFiles texts = (t, .ok report) ∧
      s.each scanText (texts.filterMap id) = (u, reports.map .ok) ∧
      t.history.document = u.history.document ∧
      report.filesScanned = (texts.filterMap id).length ∧
      report.filesScanned + report.filesFailed = texts.length ∧
      report.linesParsed = (reports.map ScanReport.linesParsed).sum ∧
      report.valuesAdded = (reports.map ScanReport.valuesAdded).sum ∧
      (s.journaled []).scanFiles texts
        = (t.journaled [t.history.document.encode], .ok report) := by
  refine ⟨fun text => ?_, fun texts => ?_⟩
  · obtain ⟨hanswer, _, hdocument, _⟩ := scanText_of_writable h text
    obtain ⟨hrecorded, hcount⟩ := each_recordLine h (Text.lines text)
    refine ⟨_, _, Prod.ext rfl hanswer, hdocument.trans hrecorded.symm, hcount.symm, ?_⟩
    rw [scanText_journaled, hanswer]
  · obtain ⟨u, reports, heach, hdocument, hparsed, hadded⟩ := each_scanText h (texts.filterMap id)
    obtain ⟨hanswer, hscanned⟩ := scanFiles_of_writable h texts
    refine ⟨_, u, _, reports, Prod.ext rfl hanswer, heach, hscanned.trans hdocument.symm, rfl,
      length_readable texts, hparsed.symm, hadded.symm, ?_⟩
    rw [scanFiles_journaled, hanswer]

/-- Notes of a laboratory: readings, a line that is no tag line, and a database that
is not known. -/
def labNotes : Text := "#Lab 1e3,1E3\nwarm day\n#Lab 2\n#Garden/Rose".toList

/-- Those notes, a file that cannot be read, and a file with one reading more. -/
def labFiles : List (Option Text) := [some labNotes, none, some "#Lab 2, 3".toList]

/-- Two of the notes are recorded, and three lines of the files. -/
theorem scan_is_recording_lab :
    (labSession.each recordLine (Text.lines labNotes)).2.countP Except.isOk = 2 ∧
    ∃ (t u : Session Memory) (reports : List ScanReport),
      labSession.scanFiles labFiles = (t, .ok ⟨2, 1, 3, 4⟩) ∧
      labSession.each scanText (labFiles.filterMap id) = (u, reports.map .ok) ∧
      t.history.document = u.history.document ∧
      (reports.map ScanReport.linesParsed).sum = 3 ∧
      (labSession.journaled []).scanFiles labFiles
        = (t.journaled [t.history.document.encode], .ok ⟨2, 1, 3, 4⟩) := by
  obtain ⟨htext, hfiles⟩ :=
    scan_is_recording (Medium.writable_memory labSession.history.medium)
  have hnotes : (labSession.scanText labNotes).2
      = .ok { linesParsed := 2, valuesAdded := 3 } := by decide +kernel
  have hscan : (labSession.scanFiles labFiles).2 = .ok ⟨2, 1, 3, 4⟩ := by decide +kernel
  obtain ⟨t, report, htaken, _, hcount, _⟩ := htext labNotes
  obtain ⟨t', u, report', reports, hanswer, heach, hdocument, _, _, hparsed, _, hjournal⟩ :=
    hfiles labFiles
  have hreport : report = { linesParsed := 2, valuesAdded := 3 } := by
    rw [htaken] at hnotes
    exact Except.ok.inj hnotes
  have hreport' : report' = ⟨2, 1, 3, 4⟩ := by
    rw [hanswer] at hscan
    exact Except.ok.inj hscan
  subst hreport hreport'
  exact ⟨hcount.symm, t', u, reports, hanswer, heach, hdocument, hparsed.symm, hjournal⟩

end Session

end Tagline
