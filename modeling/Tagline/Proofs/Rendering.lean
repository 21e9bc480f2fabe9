import Tagline.Proofs.Parse

/-!
# Writing a record as a line

A record is written in standard form: the database, the type behind a slash, and
the segments of the parameters up to the last one that has a value, joined with
the separator.  Where the separators are single ASCII punctuation characters, the
line of a clean record is read back to the record.

The segments are matched with the parameters by position, and the record keeps
them by name.  `stands_upToLast` goes from one to the other by an induction over
the parameters, whose names differ, so that each look-up by name finds the value
of its own position.
-/

namespace Tagline

/-! ## The written form -/

/-- A character of ASCII punctuation. -/
def Text.isPunctuation (c : Char) : Bool :=
  let n := c.toNat
  (0x21 ≤ n && n ≤ 0x2F) || (0x3A ≤ n && n ≤ 0x40) || (0x5B ≤ n && n ≤ 0x60) ||
    (0x7B ≤ n && n ≤ 0x7E)

/-- The separators are single characters of ASCII punctuation. -/
structure Registry.Punctuated (r : Registry) : Prop where
  split : ∃ c, r.splitSeparator = [c] ∧ Text.isPunctuation c = true
  multi : ∀ d ∈ r.databases, ∀ f ∈ d.fields, ∀ m, f.multi = some m →
    ∃ c, m = [c] ∧ Text.isPunctuation c = true

namespace Record

/-- The segment of a field, if the record has a value for it. -/
def segment? (r : Record) (f : Field) : Option Text :=
  if Text.alike f.name descriptionField then r.description.head?
  else (r.param? f.name).map (Value.joined f.multi)

end Record

/-- The texts up to the last one that is there; one that is missing is empty. -/
def upToLast : List (Option Text) → List Text
  | [] => []
  | some t :: os => t :: upToLast os
  | none :: os => if upToLast os = [] then [] else [] :: upToLast os

namespace Record

/-- The database, and the type behind a slash. -/
def head (r : Record) : Text :=
  match r.typeValue with
  | none => r.database
  | some type => r.database ++ '/' :: type

/-- The line of a record. -/
def render (r : Record) (d : Database) (separator : Text) : Text :=
  if r.params.isEmpty && r.description.isEmpty then r.head
  else r.head ++ ' ' :: separator.intercalate (upToLast (d.params.map r.segment?))

end Record

/-- The line of a record of one of the databases. -/
def Registry.render (r : Registry) (record : Record) : Text :=
  match r.database? record.database with
  | some d => record.render d r.splitSeparator
  | none => record.head

/-! ## Separators -/

/-- Punctuation separates values. -/
theorem isSeparator_of_isPunctuation {c : Char} (h : Text.isPunctuation c = true) :
    IsSeparator c := by
  simp only [Text.isPunctuation, Bool.or_eq_true, Bool.and_eq_true, decide_eq_true_eq] at h
  constructor
  · simp only [Text.isMark, Text.markRanges, List.any_cons, List.any_nil, Bool.or_eq_true,
      Bool.and_eq_true, decide_eq_true_eq]
    omega
  · simp only [Text.isBlank, Bool.or_eq_false_iff, Bool.and_eq_false_iff, beq_eq_false_iff_ne,
      decide_eq_false_iff_not]
    omega

/-! ## Segments by position and by name -/

variable {database : Text} {type : Option Text}

/-- The parameters and the free text of a record come from some fields. -/
def Record.ComesFrom (r : Record) (ps : List Field) : Prop :=
  (∀ x ∈ r.params, ∃ p ∈ ps, x.name = p.name) ∧
    (r.description ≠ [] → ∃ p ∈ ps, Text.alike p.name descriptionField = true)

/-- A record that holds what the segments add. -/
structure Record.Holds (r : Record) (readings : List Reading) : Prop where
  params : r.params = readings.filterMap (·.parameter)
  description : r.description = readings.filterMap (·.description)

/-- A record holds one more reading if it has what that adds in front. -/
theorem Record.Holds.cons {r r' : Record} {rd : Reading} {rds : List Reading}
    (h : r'.Holds rds) (hparams : r.params = rd.parameter.toList ++ r'.params)
    (hdescription : r.description = rd.description.toList ++ r'.description) :
    r.Holds (rd :: rds) where
  params := by
    rw [hparams, h.params, List.filterMap_cons]
    cases rd.parameter <;> rfl
  description := by
    rw [hdescription, h.description, List.filterMap_cons]
    cases rd.description <;> rfl

/-- What a record holds beside its first reading is a record. -/
theorem Record.Holds.tail {r : Record} {rd : Reading} {rds : List Reading}
    (h : r.Holds (rd :: rds)) :
    ∃ r' : Record, r'.Holds rds ∧ r.params = rd.parameter.toList ++ r'.params ∧
      r.description = rd.description.toList ++ r'.description := by
  refine ⟨{ r with
    params := rds.filterMap (·.parameter)
    description := rds.filterMap (·.description) }, ⟨rfl, rfl⟩, ?_, ?_⟩
  · rw [h.params, List.filterMap_cons]
    cases rd.parameter <;> rfl
  · rw [h.description, List.filterMap_cons]
    cases rd.description <;> rfl

/-- What a record holds of the readings of some fields comes from those fields. -/
theorem comesFrom_of_holds {r : Record} {ps : List Field} {segments : List Text}
    (h : r.Holds (readings database type ps segments)) : r.ComesFrom ps := by
  constructor
  · intro x hx
    rw [h.params] at hx
    obtain ⟨rd, hrd, hparam⟩ := List.mem_filterMap.1 hx
    obtain ⟨p, s, hpair, rfl⟩ := mem_readings.1 hrd
    exact ⟨p, (List.of_mem_zip hpair).1, Field.name_of_readSegment hparam⟩
  · intro hne
    obtain ⟨t, ht⟩ := List.exists_mem_of_ne_nil _ hne
    rw [h.description] at ht
    obtain ⟨rd, hrd, htext⟩ := List.mem_filterMap.1 ht
    obtain ⟨p, s, hpair, rfl⟩ := mem_readings.1 hrd
    refine ⟨p, (List.of_mem_zip hpair).1, ?_⟩
    rcases Field.readSegment_description_cases p database type s with ⟨hd, _⟩ | ⟨_, hnone⟩
    · exact hd
    · simp [hnone] at htext

/-- Two names that are not alike are not both alike to a third. -/
theorem not_alike_of_alike {a b c : Text} (hab : Text.alike a b = false)
    (ha : Text.alike a c = true) : Text.alike b c = false := by
  by_cases hb : Text.alike b c = true
  · rw [Text.alike_trans ha (Text.alike_symm hb)] at hab
    exact absurd hab (by decide)
  · simpa using hb

section Lookup

variable {p : Field} {ps : List Field} {s : Text} {r r' : Record}
  (hother : ∀ q ∈ ps, Text.alike p.name q.name = false)
  (hparams : r.params = (p.readSegment database type s).parameter.toList ++ r'.params)
  (hdescription :
    r.description = (p.readSegment database type s).description.toList ++ r'.description)

include hother hparams hdescription

/-- The later fields find theirs as if the first were not there. -/
theorem segment?_later : ∀ q ∈ ps, r.segment? q = r'.segment? q := by
  intro q hq
  by_cases hqd : Text.alike q.name descriptionField = true
  · have hnone : (p.readSegment database type s).description = none := by
      rcases Field.readSegment_description_cases p database type s with ⟨hd, _⟩ | ⟨_, hnone⟩
      · rw [not_alike_of_alike (hother q hq) hd] at hqd
        exact absurd hqd (by decide)
      · exact hnone
    simp [Record.segment?, hqd, hdescription, hnone]
  · have hskip : (p.readSegment database type s).parameter.toList.find?
        (fun x => Text.alike x.name q.name) = none := by
      refine List.find?_eq_none.2 fun x hx halike => ?_
      rw [Field.name_of_readSegment (Option.mem_toList.1 hx), hother q hq] at halike
      exact absurd halike (by decide)
    simp [Record.segment?, hqd, Record.param?, hparams, List.find?_append, hskip]

variable (hfrom : r'.ComesFrom ps)

include hfrom

/-- **The first field finds its own segment.** -/
theorem segment?_first : r.segment? p = (p.readSegment database type s).segment? p := by
  rcases Field.readSegment_description_cases p database type s with ⟨hd, hnoparam, _⟩ | ⟨hd, hnone⟩
  · have hrest : r'.description = [] := by
      by_cases hne : r'.description = []
      · exact hne
      · obtain ⟨q, hq, hqd⟩ := hfrom.2 hne
        rw [not_alike_of_alike (hother q hq) hd] at hqd
        exact absurd hqd (by decide)
    rw [hrest, List.append_nil] at hdescription
    simp only [Record.segment?, hd, if_true, hdescription, Reading.segment?, hnoparam]
    cases (p.readSegment database type s).description <;> rfl
  · have hrest : r'.params.find? (fun x => Text.alike x.name p.name) = none := by
      refine List.find?_eq_none.2 fun x hx halike => ?_
      obtain ⟨q, hq, hname⟩ := hfrom.1 x hx
      rw [hname] at halike
      have hpq := hother q hq
      rw [Text.alike_symm halike] at hpq
      exact absurd hpq (by decide)
    simp only [Record.segment?, hd, Bool.false_eq_true, if_false, Record.param?, hparams,
      List.find?_append, hrest, Option.or_none, Reading.segment?, hnone]
    cases hx : (p.readSegment database type s).parameter with
    | none => rfl
    | some x => simp [Field.name_of_readSegment hx]

end Lookup

/-! ## Segments that are written and read -/

/-- Segments in standard form say what the readings say: each can stand between
separators, and together they are read to the same. -/
structure Stands (c : Char) (database : Text) (type : Option Text) (ps : List Field)
    (r : Record) (segments : List Text) : Prop where
  length : segments.length ≤ ps.length
  trimmed : ∀ s ∈ segments, Text.Trimmed s ∧ c ∉ s
  some : segments ≠ [[]]
  empty : segments = [] → r.params = [] ∧ r.description = []
  holds : r.Holds (readings database type ps segments)
  clean : ∀ rd ∈ readings database type ps segments, rd.warnings = []

/-- A segment that stands is put in front of others that do. -/
theorem Stands.cons {c : Char} {p : Field} {ps : List Field} {r r' : Record} {s : Text}
    {segments : List Text} (h : Stands c database type ps r' segments)
    (hs : Text.Trimmed s ∧ c ∉ s) (hsome : s = [] → segments ≠ [])
    (hclean : (p.readSegment database type s).warnings = [])
    (hr : r.Holds (p.readSegment database type s :: readings database type ps segments)) :
    Stands c database type (p :: ps) r (s :: segments) where
  length := by simpa using h.length
  trimmed t ht := by
    rcases List.mem_cons.1 ht with rfl | ht
    · exact hs
    · exact h.trimmed t ht
  some heq := by
    simp only [List.cons.injEq] at heq
    exact hsome heq.1 heq.2
  empty heq := by simp at heq
  holds := hr
  clean rd hrd := by
    rw [readings_cons] at hrd
    rcases List.mem_cons.1 hrd with rfl | hrd
    · exact hclean
    · exact h.clean rd hrd

/-- A first field without a value has an empty segment, or none where no field
after it has one. -/
theorem Stands.skip {c : Char} {p : Field} {ps : List Field} {r r' : Record}
    {segments : List Text} (h : Stands c database type ps r' segments)
    (hparams : r.params = r'.params) (hdescription : r.description = r'.description) :
    Stands c database type (p :: ps) r (if segments = [] then [] else [] :: segments) := by
  have hblank := Field.readSegment_of_blank (f := p) (s := []) database type rfl
  split
  · next hnil =>
      obtain ⟨hp, hd⟩ := h.empty hnil
      rw [hp] at hparams
      rw [hd] at hdescription
      exact ⟨by simp, by simp, by simp, fun _ => ⟨hparams, hdescription⟩,
        ⟨hparams, hdescription⟩, by simp [readings]⟩
  · next hne =>
      refine h.cons ⟨Text.trimmed_nil, by simp⟩ (fun _ => hne) (by rw [hblank]) ?_
      rw [hblank]
      exact h.holds.cons hparams hdescription

/-- A line without a segment for the first field says the same as one with an
empty segment for it. -/
theorem exists_first_segment {c : Char} {p : Field} {ps : List Field} {segments : List Text}
    {r : Record} (hsegments : ∀ s ∈ segments, c ∉ s)
    (hclean : ∀ rd ∈ readings database type (p :: ps) segments, rd.warnings = [])
    (hr : r.Holds (readings database type (p :: ps) segments)) :
    ∃ s rest, c ∉ s ∧ (∀ t ∈ rest, c ∉ t) ∧ (p.readSegment database type s).warnings = [] ∧
      (∀ rd ∈ readings database type ps rest, rd.warnings = []) ∧
      r.Holds (p.readSegment database type s :: readings database type ps rest) := by
  cases segments with
  | nil =>
      have hblank := Field.readSegment_of_blank (f := p) (s := []) database type rfl
      refine ⟨[], [], by simp, by simp, by rw [hblank], by simp [readings], ?_⟩
      rw [hblank]
      exact ⟨by simpa [readings] using hr.params, by simpa [readings] using hr.description⟩
  | cons s rest =>
      rw [readings_cons] at hclean hr
      exact ⟨s, rest, hsegments s List.mem_cons_self,
        fun t ht => hsegments t (List.mem_cons_of_mem _ ht), hclean _ List.mem_cons_self,
        fun rd hrd => hclean rd (List.mem_cons_of_mem _ hrd), hr⟩

/-- **The written segments are read back.** -/
theorem stands_upToLast {c : Char} (hc : IsSeparator c) {ps : List Field}
    {segments : List Text} {r : Record}
    (hdiffer : ps.Pairwise fun f g => Text.alike f.name g.name = false)
    (hmulti : ∀ p ∈ ps, ∀ m, p.multi = some m → ∃ x, m = [x] ∧ IsSeparator x)
    (hsegments : ∀ s ∈ segments, c ∉ s)
    (hclean : ∀ rd ∈ readings database type ps segments, rd.warnings = [])
    (hr : r.Holds (readings database type ps segments)) :
    Stands c database type ps r (upToLast (ps.map r.segment?)) := by
  induction ps generalizing segments r with
  | nil =>
      exact ⟨by simp [upToLast], by simp [upToLast], by simp [upToLast],
        fun _ => ⟨hr.params, hr.description⟩, hr, by simp [readings]⟩
  | cons p ps ih =>
      obtain ⟨hother, hdiffer⟩ := List.pairwise_cons.1 hdiffer
      obtain ⟨s, rest, hs, hrest, hfirst, hclean, hr⟩ :=
        exists_first_segment hsegments hclean hr
      obtain ⟨r', hr', hparams, hdescription⟩ := hr.tail
      have hstands := ih hdiffer (fun q hq => hmulti q (List.mem_cons_of_mem _ hq)) hrest
        hclean hr'
      have hlater : ps.map r.segment? = ps.map r'.segment? :=
        List.map_congr_left (segment?_later hother hparams hdescription)
      have hwritten : (p.readSegment database type s).IsWritten p database type c :=
        Field.isWritten_readSegment hc (hmulti p List.mem_cons_self) hs hfirst
      rw [List.map_cons, hlater,
        segment?_first hother hparams hdescription (comesFrom_of_holds hr')]
      generalize hread : p.readSegment database type s = rd at *
      unfold Reading.IsWritten at hwritten
      cases hseg : rd.segment? p with
      | some u =>
          simp only [hseg] at hwritten
          obtain ⟨htrim, hne, hmem, hagain⟩ := hwritten
          rw [upToLast]
          refine hstands.cons ⟨htrim, hmem⟩ (fun h0 => absurd h0 hne) (hagain ▸ hfirst) ?_
          rw [hagain]
          exact hstands.holds.cons hparams hdescription
      | none =>
          simp only [hseg] at hwritten
          obtain rfl := hwritten
          rw [upToLast]
          exact hstands.skip (by simpa using hparams) (by simpa using hdescription)

/-! ## Lines -/

/-- Segments that stand are read from their join. -/
theorem readSegments_join {d : Database} {c : Char} {r : Record} {segments : List Text}
    (h : Stands c d.name type d.params r segments) (hne : segments ≠ []) :
    ∃ o, d.readSegments [c] type ([c].intercalate segments) = .ok o ∧ o.warnings = [] ∧
      o.record.database = d.name ∧ o.record.typeValue = type ∧ o.record.params = r.params ∧
      o.record.description = r.description := by
  have hpieces : Text.pieces [c] ([c].intercalate segments) = segments :=
    Text.pieces_intercalate hne fun s hs => (h.trimmed s hs).2
  obtain ⟨o, ho⟩ : ∃ o, d.readSegments [c] type ([c].intercalate segments) = .ok o := by
    simp [Database.readSegments, hpieces, Nat.not_lt.2 h.length]
  obtain ⟨hdatabase, htype, _⟩ := Database.readSegments_head ho
  obtain ⟨hparams, hdescription, hwarnings⟩ := Database.readSegments_eq_ok ho
  rw [hpieces] at hparams hdescription hwarnings
  refine ⟨o, ho, ?_, hdatabase, htype, ?_, ?_⟩
  · rw [hwarnings]
    exact List.flatMap_eq_nil_iff.2 h.clean
  · rw [hparams, h.holds.params]
  · rw [hdescription, h.holds.description]

/-- The head of a record is read back to its database and type. -/
theorem splitType_head {d : Database} {r : Record} (hd : d.Accepted)
    (hdatabase : r.database = d.name) (htype : ∀ t, r.typeValue = some t → d.KeepsType t) :
    (∀ c ∈ r.head, Text.isBlank c = false) ∧ r.head ≠ [] ∧
      splitType r.head = (d.name, r.typeValue) := by
  have hslash : '/' ∉ d.name := fun h => (hd.name_char '/' h).1 rfl
  unfold Record.head
  cases ht : r.typeValue with
  | none =>
      rw [hdatabase]
      exact ⟨fun c hc => (hd.name_char c hc).2, hd.name_ne, splitType_of_not_mem hslash⟩
  | some t =>
      rw [hdatabase]
      refine ⟨fun c hc => ?_, by simp, splitType_append hslash⟩
      rcases List.mem_append.1 hc with hc | hc
      · exact (hd.name_char c hc).2
      · rcases List.mem_cons.1 hc with rfl | hc
        · decide
        · exact (htype t ht).2.1 c hc

/-- The segments of a clean line stand in standard form. -/
theorem stands_of_readSegments {d : Database} {c : Char} {body : Text} {o : Outcome}
    (hc : IsSeparator c) (hd : d.Accepted)
    (hmulti : ∀ f ∈ d.fields, ∀ m, f.multi = some m → ∃ x, m = [x] ∧ IsSeparator x)
    (h : d.readSegments [c] type body = .ok o) (hclean : o.warnings = []) :
    Stands c d.name type d.params o.record (upToLast (d.params.map o.record.segment?)) := by
  obtain ⟨hparams, hdescription, hwarnings⟩ := Database.readSegments_eq_ok h
  refine stands_upToLast hc hd.params_differ (fun p hp => hmulti p (List.mem_cons_of_mem _ hp))
    (fun s hs => Text.not_mem_of_mem_pieces hs) (fun rd hrd => ?_) ⟨hparams, hdescription⟩
  rw [hwarnings] at hclean
  exact List.flatMap_eq_nil_iff.1 hclean rd hrd

section Line

variable {r : Registry} {d : Database} {head : Text}
  (hblank : ∀ c ∈ head, Text.isBlank c = false) (hne : head ≠ [])
  (hhead : splitType head = (d.name, type)) (hself : r.database? d.name = some d)
  (htype : ∀ t, type = some t → d.KeepsType t)

include hblank hne hhead hself htype

/-- A head that stands alone is read to its database and type. -/
theorem parse_of_head (hentry : r.dailyEntry? head = none) :
    ∃ o, r.parse head = .ok o ∧ o.warnings = [] ∧ o.record.database = d.name ∧
      o.record.typeValue = type ∧ o.record.params = [] ∧ o.record.description = [] := by
  have hsplit := splitHead_of_no_blank hblank
  have hdatabase : r.database? (splitType (splitHead head).1).1 = some d := by
    rw [hsplit, hhead]
    exact hself
  have hparse := Registry.parse_of_trimmed (Text.trimmed_of_no_blank hblank) hne hentry hdatabase
  rw [hsplit, hhead, Database.readLine_of_keepsType htype] at hparse
  exact ⟨_, hparse, rfl, rfl, rfl, rfl, rfl⟩

/-- A head with segments that stand is read to them. -/
theorem parse_of_segments {c : Char} {segments : List Text} {record : Record}
    (hc : IsSeparator c) (hsplit : r.splitSeparator = [c])
    (hstands : Stands c d.name type d.params record segments) (hsegments : segments ≠ [])
    (hentry : r.dailyEntry? (head ++ ' ' :: [c].intercalate segments) = none) :
    ∃ o, r.parse (head ++ ' ' :: [c].intercalate segments) = .ok o ∧ o.warnings = [] ∧
      o.record.database = d.name ∧ o.record.typeValue = type ∧
      o.record.params = record.params ∧ o.record.description = record.description := by
  have hjoin : [c].intercalate segments ≠ [] := by
    intro h0
    rcases Text.intercalate_eq_nil h0 with hnil | hone
    · exact hsegments hnil
    · exact hstands.some hone
  have htrimmed : Text.Trimmed ([c].intercalate segments) :=
    Text.trimmed_intercalate (fun s hs => (hstands.trimmed s hs).1) (Or.inl hc.2)
  have hline : Text.Trimmed (head ++ ' ' :: [c].intercalate segments) := by
    simpa using Text.trimmed_append (s := ' ') (Text.trimmed_of_no_blank hblank) htrimmed
      (Or.inr ⟨hne, hjoin⟩)
  have hsplitHead := splitHead_append hblank htrimmed
  have hdatabase : r.database? (splitType
      (splitHead (head ++ ' ' :: [c].intercalate segments)).1).1 = some d := by
    rw [hsplitHead, hhead]
    exact hself
  have hparse := Registry.parse_of_trimmed hline (by simp) hentry hdatabase
  rw [hsplitHead, hhead, Database.readLine_of_keepsType htype, hsplit] at hparse
  obtain ⟨o, ho, hresult⟩ := readSegments_join hstands hsegments
  exact ⟨o, hparse.trans ho, hresult⟩

end Line

/-- **Reading is stable under writing.**  Where the separators are single
characters of ASCII punctuation, the line of a clean record that is no daily entry
is read without a warning, to a record with the same database, type, parameters
and free text. -/
theorem parse_render {s : Settings} {r : Registry} (hr : Registry.ofSettings s = .ok r)
    (hpunctuated : r.Punctuated) {line : Text} {o : Outcome} (h : r.parse line = .ok o)
    (hdaily : o.record.daily = false) (hclean : o.warnings = [])
    (hentry : r.dailyEntry? (r.render o.record) = none) :
    ∃ o', r.parse (r.render o.record) = .ok o' ∧ o'.warnings = [] ∧
      o'.record.database = o.record.database ∧ o'.record.typeValue = o.record.typeValue ∧
      o'.record.params = o.record.params ∧ o'.record.description = o.record.description := by
  obtain ⟨head, rest, trailing, d, hhead, hd, hread⟩ := Registry.parse_eq_ok h hdaily
  obtain ⟨c, hsplit, hpunctuation⟩ := hpunctuated.split
  have hc := isSeparator_of_isPunctuation hpunctuation
  have hmem := Registry.mem_of_database? hd
  have haccepted := Registry.accepted_of_ofSettings hr d hmem
  have hself := Registry.database?_name hd haccepted.trim_name
  obtain ⟨hdatabase, htype, hbody⟩ := Database.readLine_eq_ok hread hclean
    fun t ht a ha => hhead a (mem_of_splitType ht a ha)
  obtain ⟨hblank, hne, hsplitType⟩ := splitType_head haccepted hdatabase htype
  have hrender : r.render o.record = o.record.render d [c] := by
    simp only [Registry.render, hdatabase, hself, hsplit]
  rw [hrender] at hentry ⊢
  rw [hdatabase]
  unfold Record.render at hentry ⊢
  by_cases hempty : o.record.params = [] ∧ o.record.description = []
  · simp only [hempty, List.isEmpty_nil, Bool.and_self, if_true] at hentry ⊢
    exact parse_of_head hblank hne hsplitType hself htype hentry
  · have hsome : (o.record.params.isEmpty && o.record.description.isEmpty) = false := by
      simpa [not_and_or] using hempty
    simp only [hsome, Bool.false_eq_true, if_false] at hentry ⊢
    obtain ⟨body, o', hsegments, hclean', hparams, hdescription⟩ := hbody.resolve_left hempty
    have hsegment : o'.record.segment? = o.record.segment? := by
      funext f
      simp only [Record.segment?, Record.param?, hparams, hdescription]
    rw [hsplit] at hsegments
    have hstands := stands_of_readSegments hc haccepted
      (fun f hf m hm => (hpunctuated.multi d hmem f hf m hm).imp fun x hx =>
        ⟨hx.1, isSeparator_of_isPunctuation hx.2⟩) hsegments hclean'
    rw [hsegment] at hstands
    have hsome : upToLast (d.params.map o.record.segment?) ≠ [] := fun h0 =>
      hempty (by simpa [hparams, hdescription] using hstands.empty h0)
    rw [← hparams, ← hdescription]
    exact parse_of_segments hblank hne hsplitType hself htype hc hsplit hstands hsome hentry

/-- Settings with a closed list, an optional value, a field with several values and
the free text. -/
def workoutSettings : Settings where
  dailyEntries := ["Daily"]
  databases :=
    [ { database := "Exercise"
        params := ["Duration", "Place", "Equipment", "Description"]
        fields := SortedMap.ofList
          [ ("Type",
              { allowed := some .fixed
                values := SortedMap.ofList [(allTypesKey, ["Run", "Swim"])] }),
            ("Duration", { allowed := some .history }),
            ("Equipment", { allowed := some .historyByType, multi := some "," }) ] } ]

/-- The registry of those settings. -/
def workoutRegistry : Registry where
  dailyEntries := ["Daily"]
  databases :=
    [ { name := "Exercise"
        typeField := { name := "Type", policy := .fixed ⟨["Run", "Swim"], []⟩ }
        params :=
          [ { name := "Duration", policy := .history ⟨[], []⟩ }, { name := "Place" },
            { name := "Equipment", policy := .historyByType ⟨[], []⟩, multi := some "," },
            { name := "Description" } ] } ]

/-- The settings give this registry. -/
theorem ofSettings_workout : Registry.ofSettings workoutSettings = .ok workoutRegistry := rfl

/-- Its separators are a semicolon and commas. -/
theorem workoutRegistry_punctuated : workoutRegistry.Punctuated where
  split := ⟨';', rfl, rfl⟩
  multi d hd f hf m hm := by
    obtain rfl := List.mem_singleton.1 hd
    simp only [Database.fields, List.mem_cons, List.not_mem_nil, or_false] at hf
    rcases hf with rfl | rfl | rfl | rfl | rfl <;> simp at hm
    exact ⟨',', hm.symm, rfl⟩

/-- A line with an empty segment, an empty piece and blanks of several kinds. -/
theorem parse_render_workout :
    ∃ o o', workoutRegistry.parse "exercise/rUN  30 ; ; goggles,swim-FINS ,;  felt  great "
        = .ok o ∧ o.record.daily = false ∧ o.warnings = [] ∧
      workoutRegistry.render o.record
        = "Exercise/Run 30;;Goggles,Swim-Fins;felt  great".toList ∧
      workoutRegistry.parse (workoutRegistry.render o.record) = .ok o' ∧ o'.warnings = [] ∧
      o'.record.params = o.record.params := by
  let o : Outcome :=
    { record :=
        { database := "Exercise"
          typeValue := some "Run".toList
          params :=
            [⟨"Duration", .single "30"⟩, ⟨"Equipment", .multi ["Goggles", "Swim-Fins"]⟩]
          description := ["felt  great"]
          location := some (.parameter "Description" "  felt  great") } }
  have hparse : workoutRegistry.parse
      "exercise/rUN  30 ; ; goggles,swim-FINS ,;  felt  great " = .ok o := by decide +kernel
  have hrender : workoutRegistry.render o.record
      = "Exercise/Run 30;;Goggles,Swim-Fins;felt  great".toList := by decide +kernel
  obtain ⟨o', h, hclean, _, _, hparams, _⟩ := parse_render ofSettings_workout
    workoutRegistry_punctuated hparse rfl rfl (by rw [hrender]; decide +kernel)
  exact ⟨o, o', hparse, rfl, rfl, hrender, h, hclean, hparams⟩

end Tagline
