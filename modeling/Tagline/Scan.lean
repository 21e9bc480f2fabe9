import Tagline.Session

/-!
# Scanning notes

A **scan** adds the values of all tag lines of existing notes and saves once at
the end.  Lines that cannot be read are passed over, and so are files that cannot
be read, but those are counted.
-/

namespace Tagline

/-- The totals of a scan. -/
structure ScanReport where
  filesScanned : Nat := 0
  filesFailed : Nat := 0
  /-- Tag lines that could be read. -/
  linesParsed : Nat := 0
  /-- Values that are new in the history. -/
  valuesAdded : Nat := 0
deriving DecidableEq

namespace Session

variable {β : Type}

/-- Adds the values of one line in memory. -/
def ingestLine (s : Session β) (report : ScanReport) (line : Text) : Session β × ScanReport :=
  match s.registry.parseTagLine line with
  | .error _ => (s, report)
  | .ok outcome =>
      let report := { report with linesParsed := report.linesParsed + 1 }
      match s.registry.database? outcome.record.database with
      | none => (s, report)
      | some d =>
          let (history, delta) := s.history.addRecord d outcome.record
          ({ s with history },
            { report with valuesAdded := report.valuesAdded + delta.entries.length })

/-- Adds the values of several lines in memory. -/
def ingestLines (s : Session β) (report : ScanReport) : List Text → Session β × ScanReport
  | [] => (s, report)
  | line :: lines =>
      let (s, report) := s.ingestLine report line
      s.ingestLines report lines

/-- Adds the values of a text in memory. -/
def ingest (s : Session β) (report : ScanReport) (text : Text) : Session β × ScanReport :=
  s.ingestLines report (Text.lines text)

/-- Adds the values of several files in memory; `none` is a file that cannot be
read. -/
def ingestFiles (s : Session β) (report : ScanReport) :
    List (Option Text) → Session β × ScanReport
  | [] => (s, report)
  | none :: texts =>
      s.ingestFiles { report with filesFailed := report.filesFailed + 1 } texts
  | some text :: texts =>
      let (s, report) := s.ingest report text
      s.ingestFiles { report with filesScanned := report.filesScanned + 1 } texts

variable [Medium β]

/-- Adds the values of a text and saves. -/
def scanText (s : Session β) (text : Text) : Session β × Except SessionError ScanReport :=
  let (s, report) := s.ingest {} text
  s.saving report

/-- Adds the values of several files and saves; `none` is a file that cannot be
read. -/
def scanFiles (s : Session β) (texts : List (Option Text)) :
    Session β × Except SessionError ScanReport :=
  let (s, report) := s.ingestFiles {} texts
  s.saving report

end Session

end Tagline
