import Tagline.Proofs.History.Growth
import Tagline.Proofs.Record
import Tagline.Proofs.Session.Run

/-!
# What a scan counts

A line adds the entries that its record has and the document lacks.  A scan adds up
their numbers, line after line, and so says how much the history grew only if they
are all additions: a record with two variants of one value lists both, and the
document takes one.

* `Document.Lists.growsBy` — what is listed and what is added;
* `ingestLines_eq`, `report_ingestLines`, `ingestFiles_eq` — what a scan adds and counts;
* `growsBy_listed` — the count is the growth where no line lists variants, and only
  there if the names of the history differ.
-/

namespace Tagline

namespace Document

/-- What is listed for a document: entries of one database that it does not hold. -/
structure Lists (doc : Document) (delta : Delta) : Prop where
  database : ∃ name, ∀ e ∈ delta.entries, e.database = name
  new : ∀ e ∈ delta.entries, doc.contains e.database e.key e.value = false

/-- What a record adds is of its own database, and not held yet. -/
theorem lists_diff (doc : Document) (d : Database) (r : Record) : doc.Lists (doc.diff d r) where
  database := ⟨d.name, fun _ he => Record.database_of_mem_entries (mem_diff.1 he).1⟩
  new _ he := (mem_diff.1 he).2

/-- How the growth of a document compares with what is listed for it. -/
structure GrowsBy (doc after : Document) (listed : Nat) (noVariants : Prop) : Prop where
  lower : doc.valueCount ≤ after.valueCount
  upper : after.valueCount ≤ doc.valueCount + listed
  exact : noVariants → after.valueCount = doc.valueCount + listed
  sharp : doc.NamesDiffer → after.valueCount = doc.valueCount + listed → noVariants

/-- **The growth is what is listed, less the variants.** -/
theorem Lists.growsBy {doc : Document} {delta : Delta} (h : doc.Lists delta) :
    doc.GrowsBy (doc.apply delta) delta.entries.length delta.NoVariants := by
  obtain ⟨name, hdatabase⟩ := h.database
  have hcount : (doc.apply delta).valueCount
      = doc.valueCount + (doc.additions delta.entries).length :=
    doc.valueCount_apply delta.entries
  have hsub := doc.additions_sublist delta.entries
  have hlength := hsub.length_le
  refine ⟨?_, ?_, fun hdiffer => ?_, fun hnames hexact => ?_⟩
  · omega
  · omega
  · have hall := additions_eq_self hdatabase h.new hdiffer
    rw [hall] at hcount
    exact hcount
  · have hall := hsub.eq_of_length (by omega)
    exact noVariants_of_additions_eq hnames hdatabase hall

end Document

namespace Session

/-! ## Lines -/

/-- So is what a line adds. -/
theorem lists_lineDelta (r : Registry) (d : Document) (line : Text) :
    d.Lists (Change.lineDelta r d line) := by
  have hnone : d.Lists {} := ⟨⟨[], by simp⟩, by simp⟩
  unfold Change.lineDelta
  split
  · exact hnone
  · split
    · exact hnone
    · exact d.lists_diff _ _

/-- What several lines list, each for the document with the lines before it. -/
def lineDeltas (r : Registry) (d : Document) : List Text → List Delta
  | [] => []
  | line :: lines =>
      Change.lineDelta r d line ::
        lineDeltas r (d.apply (Change.lineDelta r d line)) lines

/-- The document with several lines, one after another. -/
def withLines (r : Registry) (d : Document) (lines : List Text) : Document :=
  lines.foldl (fun d line => d.apply (Change.lineDelta r d line)) d

/-- What all lines together list. -/
def listed (deltas : List Delta) : Nat :=
  (deltas.map fun delta => delta.entries.length).sum

theorem listed_cons (delta : Delta) (deltas : List Delta) :
    listed (delta :: deltas) = delta.entries.length + listed deltas := by
  simp [listed]

/-- How many of several lines can be read. -/
def readCount (r : Registry) (lines : List Text) : Nat :=
  lines.countP fun line => (r.parseTagLine line).isOk

theorem readCount_cons (r : Registry) (line : Text) (lines : List Text) :
    readCount r (line :: lines)
      = (if (r.parseTagLine line).isOk then 1 else 0) + readCount r lines := by
  rw [readCount, List.countP_cons, Nat.add_comm]
  rfl

theorem readCount_append (r : Registry) (lines lines' : List Text) :
    readCount r (lines ++ lines') = readCount r lines + readCount r lines' :=
  List.countP_append

/-- Lines are taken in one text after another. -/
theorem withLines_append (r : Registry) (d : Document) (lines lines' : List Text) :
    withLines r d (lines ++ lines') = withLines r (withLines r d lines) lines' :=
  List.foldl_append

/-- The deltas of the later lines are those for the document behind the earlier ones. -/
theorem lineDeltas_append (r : Registry) (d : Document) (lines lines' : List Text) :
    lineDeltas r d (lines ++ lines')
      = lineDeltas r d lines ++ lineDeltas r (withLines r d lines) lines' := by
  induction lines generalizing d with
  | nil => rfl
  | cons line lines ih => exact congrArg (_ :: ·) (ih _)

theorem listed_append (deltas deltas' : List Delta) :
    listed (deltas ++ deltas') = listed deltas + listed deltas' := by
  simp [listed]

/-- **Lines grow a document by what they list**, if they list no variants. -/
theorem growsBy_withLines (r : Registry) (d : Document) (lines : List Text) :
    d.GrowsBy (withLines r d lines) (listed (lineDeltas r d lines))
      (∀ delta ∈ lineDeltas r d lines, delta.NoVariants) := by
  induction lines generalizing d with
  | nil => exact ⟨Nat.le_refl _, Nat.le_refl _, fun _ => rfl, by simp [lineDeltas]⟩
  | cons line lines ih =>
      have hfirst := (lists_lineDelta r d line).growsBy
      have hrest := ih (d.apply (Change.lineDelta r d line))
      have hafter : withLines r d (line :: lines)
          = withLines r (d.apply (Change.lineDelta r d line)) lines := rfl
      rw [hafter, lineDeltas, listed_cons]
      have hlower := hfirst.lower
      have hupper := hfirst.upper
      have hlower' := hrest.lower
      have hupper' := hrest.upper
      refine ⟨by omega, by omega, fun hall => ?_, fun hnames hexact => ?_⟩
      · obtain ⟨hline, hlines⟩ := List.forall_mem_cons.1 hall
        have hone := hfirst.exact hline
        have hmore := hrest.exact hlines
        omega
      · -- Neither part exceeds what it lists, so together they reach it only if both do.
        have hone := hfirst.sharp hnames (by omega)
        have hmore := hrest.sharp (hnames.apply _) (by omega)
        exact List.forall_mem_cons.2 ⟨hone, hmore⟩

/-! ## Scans -/

variable {β : Type}

/-- **One line of a scan** changes the document as a recorded line does, and counts
what the line lists. -/
theorem ingestLine_eq (s : Session β) (report : ScanReport) (line : Text) :
    (s.ingestLine report line).1.registry = s.registry ∧
      (s.ingestLine report line).1.history.document
        = s.history.document.apply (Change.lineDelta s.registry s.history.document line) ∧
      (s.ingestLine report line).2.valuesAdded = report.valuesAdded
        + (Change.lineDelta s.registry s.history.document line).entries.length := by
  unfold ingestLine Change.lineDelta
  cases s.registry.parseTagLine line with
  | error e => exact ⟨rfl, rfl, rfl⟩
  | ok outcome =>
      dsimp only
      cases s.registry.database? outcome.record.database with
      | none => exact ⟨rfl, rfl, rfl⟩
      | some d => exact ⟨rfl, rfl, rfl⟩

/-- **The lines of a scan**, one after another. -/
theorem ingestLines_eq (s : Session β) (report : ScanReport) (lines : List Text) :
    (s.ingestLines report lines).1.registry = s.registry ∧
      (s.ingestLines report lines).1.history.document
        = withLines s.registry s.history.document lines ∧
      (s.ingestLines report lines).2.valuesAdded = report.valuesAdded
        + listed (lineDeltas s.registry s.history.document lines) := by
  induction lines generalizing s report with
  | nil => exact ⟨rfl, rfl, rfl⟩
  | cons line lines ih =>
      obtain ⟨hregistry, hdocument, hcount⟩ := ingestLine_eq s report line
      have hrest := ih (s.ingestLine report line).1 (s.ingestLine report line).2
      rw [hregistry, hdocument, hcount] at hrest
      obtain ⟨hregistry', hdocument', hcount'⟩ := hrest
      refine ⟨hregistry', hdocument', ?_⟩
      rw [lineDeltas, listed_cons, ← Nat.add_assoc]
      exact hcount'

/-- **What one line of a scan counts** besides the values that it lists. -/
theorem counts_ingestLine (s : Session β) (report : ScanReport) (line : Text) :
    (s.ingestLine report line).2.filesScanned = report.filesScanned ∧
      (s.ingestLine report line).2.filesFailed = report.filesFailed ∧
      (s.ingestLine report line).2.linesParsed = report.linesParsed
        + (if (s.registry.parseTagLine line).isOk then 1 else 0) := by
  unfold ingestLine
  cases s.registry.parseTagLine line with
  | error e => exact ⟨rfl, rfl, rfl⟩
  | ok outcome =>
      dsimp only
      cases s.registry.database? outcome.record.database with
      | none => exact ⟨rfl, rfl, rfl⟩
      | some d => exact ⟨rfl, rfl, rfl⟩

/-- **The totals after the lines of a scan.** -/
theorem report_ingestLines (s : Session β) (report : ScanReport) (lines : List Text) :
    (s.ingestLines report lines).2 =
      { report with
        linesParsed := report.linesParsed + readCount s.registry lines
        valuesAdded := report.valuesAdded
          + listed (lineDeltas s.registry s.history.document lines) } := by
  induction lines generalizing s report with
  | nil => rfl
  | cons line lines ih =>
      obtain ⟨hregistry, hdocument, hadded⟩ := ingestLine_eq s report line
      obtain ⟨hscanned, hfailed, hparsed⟩ := counts_ingestLine s report line
      have hrest := ih (s.ingestLine report line).1 (s.ingestLine report line).2
      rw [hregistry, hdocument, hadded, hscanned, hfailed, hparsed] at hrest
      rw [readCount_cons, lineDeltas, listed_cons, ← Nat.add_assoc, ← Nat.add_assoc]
      exact hrest

/-- **The files of a scan** are the lines of those that can be read, one file after
another. -/
theorem ingestFiles_eq (s : Session β) (report : ScanReport) (texts : List (Option Text)) :
    (s.ingestFiles report texts).1.history.document
        = withLines s.registry s.history.document ((texts.filterMap id).flatMap Text.lines) ∧
      (s.ingestFiles report texts).2 =
        { filesScanned := report.filesScanned + (texts.filterMap id).length
          filesFailed := report.filesFailed + texts.countP Option.isNone
          linesParsed := report.linesParsed
            + readCount s.registry ((texts.filterMap id).flatMap Text.lines)
          valuesAdded := report.valuesAdded
            + listed (lineDeltas s.registry s.history.document
              ((texts.filterMap id).flatMap Text.lines)) } := by
  induction texts generalizing s report with
  | nil => exact ⟨rfl, rfl⟩
  | cons text texts ih =>
      cases text with
      | none =>
          obtain ⟨hdocument, hreport⟩ := ih s { report with filesFailed := report.filesFailed + 1 }
          refine ⟨hdocument, hreport.trans ?_⟩
          simp only [List.filterMap_cons, id, List.countP_cons, Option.isNone_none, if_true,
            Nat.add_assoc, Nat.add_comm 1]
      | some text =>
          obtain ⟨hregistry, hdocument, _⟩ := ingestLines_eq s report (Text.lines text)
          have hstep : s.ingestFiles report (some text :: texts)
              = (s.ingestLines report (Text.lines text)).1.ingestFiles
                { (s.ingestLines report (Text.lines text)).2 with
                  filesScanned := (s.ingestLines report (Text.lines text)).2.filesScanned + 1 }
                texts := rfl
          have hrest := ih (s.ingestLines report (Text.lines text)).1
            { (s.ingestLines report (Text.lines text)).2 with
              filesScanned := (s.ingestLines report (Text.lines text)).2.filesScanned + 1 }
          rw [← hstep, hregistry, hdocument, report_ingestLines] at hrest
          obtain ⟨hdocument', hreport⟩ := hrest
          have hlines : ((some text :: texts).filterMap id).flatMap Text.lines
              = Text.lines text ++ (texts.filterMap id).flatMap Text.lines := rfl
          rw [hlines, withLines_append, readCount_append, lineDeltas_append, listed_append]
          refine ⟨hdocument', hreport.trans ?_⟩
          simp only [List.filterMap_cons, id, List.length_cons, List.countP_cons,
            Option.isNone_some, Bool.false_eq_true, if_false, Nat.add_assoc, Nat.add_comm 1,
            Nat.add_zero]

variable [Medium β]

/-- A save leaves the document. -/
theorem document_saving {α : Type} (s : Session β) (answer : α) :
    (s.saving answer).1.history.document = s.history.document := by
  have hsave := Store.document_save s.history
  unfold saving
  split <;> next heq => rw [heq] at hsave; exact hsave

/-- A save that succeeds gives the answer that was meant. -/
theorem saving_eq_ok {α : Type} {s t : Session β} {answer given : α}
    (h : s.saving answer = (t, .ok given)) :
    given = answer ∧ t.history.document = s.history.document := by
  have hdocument := document_saving s answer
  rw [h] at hdocument
  refine ⟨?_, hdocument⟩
  unfold saving at h
  split at h <;> cases h
  rfl

/-- The document that a recorded line leaves, saved or not. -/
theorem document_recordLine (s : Session β) (line : Text) :
    (s.recordLine line).1.history.document
      = s.history.document.apply (Change.lineDelta s.registry s.history.document line) := by
  by_cases h : (Change.record line).Shown s.registry s.history.document
  · obtain ⟨answer, hchange, _⟩ := change_of_shown h
    have hsame : (s.recordLine line).1 = s := congrArg Prod.fst hchange
    rw [hsame, Document.apply_eq_self (Change.shown_record_iff.1 h)]
  · obtain ⟨answer, hchange⟩ := change_of_not_shown h
    have hmade : (s.recordLine line).1 = (Session.saving _ answer).1 :=
      congrArg Prod.fst hchange
    rw [hmade, document_saving]
    rfl

/-- **What is listed and what is stored.**  A record is stored by its additions, one
value for each, and its delta lists the additions and their variants.  So the delta
is as long as the growth of the history where it lists no variants; and where it
lists some, and the names of the history differ, it is longer.  The count of a scan
is as exact as the deltas of its lines. -/
theorem growsBy_listed :
    (∀ (s : Store β) (d : Database) (r : Record),
      (s.addRecord d r).1.document.valueCount = s.document.valueCount
        + (s.document.additions (s.addRecord d r).2.entries).length ∧
      ((s.addRecord d r).2.NoVariants →
        s.document.additions (s.addRecord d r).2.entries = (s.addRecord d r).2.entries) ∧
      s.document.GrowsBy (s.addRecord d r).1.document (s.addRecord d r).2.entries.length
        (s.addRecord d r).2.NoVariants) ∧
    ∀ (s t : Session β) (text : Text) (report : ScanReport),
      s.scanText text = (t, .ok report) →
        s.history.document.GrowsBy t.history.document report.valuesAdded
          (∀ delta ∈ lineDeltas s.registry s.history.document (Text.lines text),
            delta.NoVariants) := by
  refine ⟨fun s d r => ?_, fun s t text report hscan => ?_⟩
  · have hlists := s.document.lists_diff d r
    obtain ⟨name, hdatabase⟩ := hlists.database
    refine ⟨s.document.valueCount_apply _, fun hdiffer => ?_, hlists.growsBy⟩
    exact Document.additions_eq_self hdatabase hlists.new hdiffer
  · obtain ⟨_, hdocument, hcount⟩ := ingestLines_eq s {} (Text.lines text)
    obtain ⟨hreport, hsaved⟩ := saving_eq_ok hscan
    change report = (s.ingestLines {} (Text.lines text)).2 at hreport
    change t.history.document = (s.ingestLines {} (Text.lines text)).1.history.document at hsaved
    rw [hreport, hcount, hsaved, hdocument, Nat.zero_add]
    exact growsBy_withLines s.registry s.history.document (Text.lines text)

/-- Settings with readings, several on a line. -/
def labSettings : Settings where
  databases :=
    [ { database := "Lab"
        params := ["Readings"]
        fields := SortedMap.ofList
          [("Readings", { allowed := some .history, multi := some "," })] } ]

/-- The registry of those settings. -/
def labRegistry : Registry where
  databases :=
    [ { name := "Lab"
        typeField := { name := "Type" }
        params :=
          [{ name := "Readings", policy := .history ⟨[], []⟩, multi := some "," }] } ]

/-- A session that remembers nothing yet. -/
def labSession : Session Memory where
  registry := labRegistry
  history := { medium := {} }

/-- The same reading with a small and with a capital exponent is listed twice and
stored once. -/
theorem growsBy_listed_lab :
    Registry.ofSettings labSettings = .ok labRegistry ∧
      ∃ t report, labSession.scanText "#Lab 1e3,1E3" = (t, .ok report) ∧
        report.valuesAdded = 2 ∧ labSession.history.document.valueCount = 0 ∧
        t.history.document.valueCount = 1 ∧
        ¬ ∀ delta ∈ lineDeltas labRegistry labSession.history.document
          (Text.lines "#Lab 1e3,1E3"), delta.NoVariants := by
  have hscan : labSession.scanText "#Lab 1e3,1E3"
      = ((labSession.scanText "#Lab 1e3,1E3").1, .ok { linesParsed := 1, valuesAdded := 2 }) :=
    Prod.ext rfl (by decide +kernel)
  have hgrowth : (labSession.scanText "#Lab 1e3,1E3").1.history.document.valueCount = 1 := by
    decide +kernel
  have hgrows := growsBy_listed.2 _ _ _ _ hscan
  refine ⟨rfl, _, _, hscan, rfl, rfl, hgrowth, fun hdiffer => ?_⟩
  have hexact := hgrows.exact hdiffer
  rw [hgrowth] at hexact
  cases hexact

end Session

end Tagline
