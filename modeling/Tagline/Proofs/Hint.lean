import Tagline.Proofs.Acceptance
import Tagline.Proofs.Alignment
import Tagline.Proofs.Filling
import Tagline.Proofs.Rendering

/-!
# Hints are lines

A hint shows the head of an entry and, where the values would stand, the names of the
parameters, with a space behind each separator.  It can be typed as it is shown.  The type
of a clean record is kept by its own check, so the head of the hint is read to the same
database and the same type.  The space behind a separator belongs to the segment behind it,
so the segments are the names in their order, each but the first with a space in front.
What the names come to as values does not matter to the next hint, which has the same head
and the same names.

* `Text.pieces_spaced`, `Text.trimmed_spaced` — names joined with a separator and a space;
* `Registry.exists_parse_of_head` — what is read behind the head of a clean record;
* `Registry.hint_reads_back` — a hint is read to the entry that it is shown for.
-/

namespace Tagline

/-! ## Names between separators -/

namespace Text

variable {c : Char}

/-- Names as segments: each but the first has a space in front. -/
def spaced : List Text → List Text
  | [] => []
  | name :: names => name :: names.map (' ' :: ·)

/-- Names that are joined with a separator and a space are spaced names joined with the
separator. -/
theorem intercalate_spaced (c : Char) (names : List Text) :
    [c, ' '].intercalate names = [c].intercalate (spaced names) := by
  induction names with
  | nil => rfl
  | cons name names ih =>
      cases names with
      | nil => simp [spaced]
      | cons second others =>
          have hspace := intercalate_append_cons [c] [' '] second (others.map (' ' :: ·))
          rw [List.singleton_append, List.singleton_append] at hspace
          rw [spaced, List.map_cons, List.intercalate_cons_cons, List.intercalate_cons_cons, ih,
            hspace, spaced]
          simp

/-- **Spaced names are the segments** of the names that are joined. -/
theorem pieces_spaced (hc : isBlank c = false) {names : List Text} (hne : names ≠ [])
    (hfree : ∀ name ∈ names, c ∉ name) :
    pieces [c] ([c, ' '].intercalate names) = spaced names := by
  have hspace : c ≠ ' ' := by
    rintro rfl
    exact absurd hc (by decide)
  rw [intercalate_spaced]
  obtain ⟨name, others, rfl⟩ := List.exists_cons_of_ne_nil hne
  refine pieces_intercalate (List.cons_ne_nil _ _) fun segment hsegment => ?_
  rcases List.mem_cons.1 hsegment with rfl | hsegment
  · exact hfree _ List.mem_cons_self
  · obtain ⟨other, hother, rfl⟩ := List.mem_map.1 hsegment
    rw [List.mem_cons, not_or]
    exact ⟨hspace, hfree other (List.mem_cons_of_mem _ hother)⟩

theorem map_trimStart_spaced {names : List Text} (htrim : ∀ name ∈ names, Trimmed name) :
    (spaced names).map trimStart = names := by
  cases names with
  | nil => rfl
  | cons name names =>
      rw [List.forall_mem_cons] at htrim
      have hothers : (names.map (' ' :: ·)).map trimStart = names := by
        rw [List.map_map]
        conv_rhs => rw [← List.map_id names]
        refine List.map_congr_left fun other hother => ?_
        exact trimStart_of_trimmed (htrim.2 other hother)
      rw [spaced, List.map_cons, trimStart_of_trimmed htrim.1, hothers]

/-- Names that are joined with a separator and a space neither begin nor end with a blank. -/
theorem trimmed_spaced (hc : isBlank c = false) {names : List Text}
    (hnames : ∀ name ∈ names, Trimmed name ∧ name ≠ []) :
    Trimmed ([c, ' '].intercalate names) ∧ (names ≠ [] → [c, ' '].intercalate names ≠ []) := by
  induction names with
  | nil => simp [trimmed_nil]
  | cons name names ih =>
      rw [List.forall_mem_cons] at hnames
      obtain ⟨⟨hname, hne⟩, hothers⟩ := hnames
      cases names with
      | nil => simpa using ⟨hname, hne⟩
      | cons second others =>
          obtain ⟨hrest, hrestNe⟩ := ih hothers
          have hfront : Trimmed (name ++ [c]) := by
            simpa using trimmed_append hname trimmed_nil (Or.inl hc)
          have hjoin := trimmed_append hfront hrest
            (Or.inr ⟨by simp, hrestNe (List.cons_ne_nil _ _)⟩ : isBlank ' ' = false ∨ _)
          rw [List.intercalate_cons_cons]
          exact ⟨by simpa using hjoin, fun _ => by simp [hne]⟩

end Text

/-! ## What is read behind a clean head -/

/-- The names of the parameters of an accepted registry have no blanks around them. -/
theorem Registry.trimmed_paramNames {s : Settings} {r : Registry} (h : ofSettings s = .ok r)
    {d : Database} (hd : d ∈ r.databases) : ∀ name ∈ d.paramNames, Text.Trimmed name := by
  obtain ⟨_, rfl⟩ := ofSettings_eq_ok_iff.1 h
  obtain ⟨definition, _, rfl⟩ := List.mem_map.1 hd
  have hfields := Database.names_declared definition
  rw [Database.fields, DatabaseSettings.fieldNames, List.map_cons, List.map_cons,
    List.cons.injEq] at hfields
  intro name hname
  rw [Database.paramNames, hfields.2] at hname
  obtain ⟨raw, _, rfl⟩ := List.mem_map.1 hname
  exact Text.trimmed_trim raw

namespace Registry

/-- The segments of a line are those behind its head. -/
theorem segments_of_splitHead {r : Registry} {line head : Text} {rest : Option Text}
    (ht : Text.Trimmed line) (h : splitHead line = (head, rest)) :
    r.segments line = segmentsIn r.splitSeparator rest := by
  have hsplit := splitHead_trim line
  rw [Text.trim_of_trimmed ht, h, Prod.mk.injEq] at hsplit
  rw [segments, ← hsplit.2]

/-- **Behind a clean head** as many segments can stand as there are parameters, whatever
they hold. -/
theorem exists_parse_of_head {r : Registry} {d : Database} (haccepted : d.Accepted)
    (hself : r.database? d.name = some d) {line head : Text} {type rest : Option Text}
    (ht : Text.Trimmed line) (hne : line ≠ []) (hentry : line ∉ r.dailyEntries)
    (hsplit : splitHead line = (head, rest)) (hhead : splitType head = (d.name, type))
    (htype : ∀ t, type = some t → d.KeepsType t)
    (hfew : (r.segments line).length ≤ d.params.length) :
    ∃ o, r.parse line = .ok o ∧ o.record.daily = false ∧ o.record.database = d.name ∧
      o.record.typeValue = type ∧ d.Aligned (r.segments line) o.record ∧
      (rest = none → o.record.location = d.headLocation head type false) := by
  have hparse := parse_of_trimmed ht hne (dailyEntry?_eq_none_iff.2 hentry)
    (by rw [hsplit, hhead]; exact hself)
  rw [hsplit, hhead] at hparse
  rw [segments_of_splitHead ht hsplit] at hfew ⊢
  rcases d.readLine_segments r.splitSeparator head type rest false with
    ⟨hmany, _⟩ | ⟨_, o, hread, hdaily, haligned⟩
  · exact absurd hfew (Nat.not_le.2 hmany)
  · refine ⟨o, hparse.trans hread, hdaily, ?_⟩
    rw [Database.readLine_of_keepsType htype] at hread
    cases rest with
    | none =>
        obtain rfl := Except.ok.inj hread
        exact ⟨rfl, rfl, haligned haccepted, fun _ => rfl⟩
    | some body =>
        obtain ⟨hdatabase, hvalue, _⟩ := Database.readSegments_head hread
        exact ⟨hdatabase, hvalue, haligned haccepted, by simp⟩

/-! ## Hints -/

/-- The hint for an entry is its head with the names of the parameters behind it. -/
theorem hint_eq_head {r : Registry} {d : Database} {record : Record} {type : Text}
    (hdaily : record.daily = false) (hd : r.database? record.database = some d)
    (hname : record.database = d.name) (htype : record.typeValue = some type) :
    r.hint record = some
      (if d.paramNames = [] then record.head
        else record.head ++ ' ' :: (r.splitSeparator ++ [' ']).intercalate d.paramNames) := by
  rw [hname] at hd
  simp [hint, hdaily, hd, Record.head, htype, hname, Database.paramNames]

/-- A record outlines an entry: it has its database and its type, and each parameter has
its own name in its place. -/
structure Outlines (r : Registry) (line : Text) (d : Database) (entry record : Record) :
    Prop where
  daily : record.daily = false
  database : record.database = entry.database
  type : record.typeValue = entry.typeValue
  /-- There is one segment for each parameter, which holds its name. -/
  segments : (r.segments line).map Text.trimStart = d.paramNames
  /-- The parameters of the record are read from these segments. -/
  aligned : d.Aligned (r.segments line) record
  /-- The line ends in the last parameter, in which its name is typed. -/
  ends : ∀ name, d.paramNames.getLast? = some name →
    ∃ typed, record.location = some (.parameter name typed) ∧ Text.trimStart typed = name
  /-- Without parameters it ends in the type. -/
  bare : d.paramNames = [] → ∀ type, entry.typeValue = some type →
    record.location = some (.type type)

/-- Where a line with one segment for each parameter ends. -/
theorem location_of_names {d : Database} {record : Record} {segments : List Text}
    (haligned : d.Aligned segments record)
    (hnames : segments.map Text.trimStart = d.paramNames) {name : Text}
    (hlast : d.paramNames.getLast? = some name) :
    ∃ typed, record.location = some (.parameter name typed) ∧ Text.trimStart typed = name := by
  rw [← hnames, List.getLast?_map] at hlast
  obtain ⟨typed, htyped, rfl⟩ := Option.map_eq_some_iff.1 hlast
  obtain ⟨earlier, rfl⟩ := List.getLast?_eq_some_iff.1 htyped
  obtain ⟨f, hf, hlocation⟩ := haligned.location earlier typed rfl
  have hname : d.paramNames[earlier.length]? = some f.name := by
    rw [Database.paramNames, List.getElem?_map, hf, Option.map_some]
  rw [← hnames] at hname
  simp only [List.map_append, List.map_cons, List.map_nil] at hname
  rw [List.getElem?_append_right (by simp)] at hname
  obtain hname : Text.trimStart typed = f.name := by simpa using hname
  exact ⟨typed, by rw [hlocation, hname], rfl⟩

/-- **Names behind the head of a clean entry** are read to an outline of the entry, for which
the hint is the same. -/
theorem exists_outlines {r : Registry} {d : Database} (haccepted : d.Accepted)
    (hself : r.database? d.name = some d) {entry : Record} (hdaily : entry.daily = false)
    (hdatabase : entry.database = d.name) (hkept : ∀ t, entry.typeValue = some t → d.KeepsType t)
    {line : Text} {rest : Option Text} (ht : Text.Trimmed line) (hne : line ≠ [])
    (hnoEntry : line ∉ r.dailyEntries) (hsplit : splitHead line = (entry.head, rest))
    (hnames : (r.segments line).map Text.trimStart = d.paramNames)
    (hbare : d.paramNames = [] → rest = none) :
    ∃ o, r.parse line = .ok o ∧ r.Outlines line d entry o.record ∧
      r.hint o.record = r.hint entry := by
  obtain ⟨_, _, hhead⟩ := splitType_head haccepted hdatabase hkept
  have hlength : (r.segments line).length = d.params.length := by
    have h := congrArg List.length hnames
    rwa [Database.paramNames, List.length_map, List.length_map] at h
  obtain ⟨o, hparse, hdaily', hdatabase', htype', haligned, hlocation⟩ :=
    exists_parse_of_head haccepted hself ht hne hnoEntry hsplit hhead hkept hlength.le
  rw [← hdatabase] at hdatabase'
  refine ⟨o, hparse, ⟨hdaily', hdatabase', htype', hnames, haligned,
    fun name => location_of_names haligned hnames, fun hnone type htype => ?_⟩, ?_⟩
  · rw [hlocation (hbare hnone), htype]
    rfl
  · simp only [hint, hdaily, hdaily', hdatabase', htype']

/-- **A hint reads back.**  The hint for a clean entry with a type, unless it is a daily entry,
is a line with the head of the entry and one segment for each parameter, which holds the
name of the parameter; and the hint for what it is read to is the same hint. -/
theorem hint_reads_back {s : Settings} {r : Registry} (hsettings : ofSettings s = .ok r)
    {c : Char} (hsep : r.splitSeparator = [c]) (hc : Text.isBlank c = false) {line : Text}
    {o : Outcome} (hparse : r.parse line = .ok o) (hdaily : o.record.daily = false)
    (hclean : o.warnings = []) (htype : o.record.typeValue ≠ none)
    (hnames : ∀ d, r.database? o.record.database = some d →
      ∀ name ∈ d.paramNames, name ≠ [] ∧ c ∉ name) :
    ∃ d text, r.database? o.record.database = some d ∧ r.hint o.record = some text ∧
      (text ∉ r.dailyEntries →
        ∃ o', r.parse text = .ok o' ∧ r.Outlines text d o.record o'.record ∧
          r.hint o'.record = some text) := by
  obtain ⟨type, htype⟩ := Option.ne_none_iff_exists'.1 htype
  obtain ⟨_, _, _, d, hchars, hfound, hread⟩ := parse_eq_ok hparse hdaily
  have hmem := mem_of_database? hfound
  have haccepted := accepted_of_ofSettings hsettings d hmem
  have hself := database?_name hfound haccepted.trim_name
  obtain ⟨hdatabase, hkept, _⟩ := Database.readLine_eq_ok hread hclean
    fun t ht a ha => hchars a (mem_of_splitType ht a ha)
  have hd : r.database? o.record.database = some d := hdatabase ▸ hself
  have hhint := hint_eq_head hdaily hd hdatabase htype
  refine ⟨d, _, hd, hhint, fun hnoEntry => ?_⟩
  rw [← hhint]
  obtain ⟨hblank, hne, _⟩ := splitType_head haccepted hdatabase hkept
  have hhead := Text.trimmed_of_no_blank hblank
  by_cases hbare : d.paramNames = []
  · -- The hint is the head alone.
    rw [if_pos hbare] at hnoEntry ⊢
    have hsplit := splitHead_of_no_blank hblank
    refine exists_outlines haccepted hself hdaily hdatabase hkept hhead hne hnoEntry hsplit ?_
      fun _ => rfl
    rw [segments_of_splitHead hhead hsplit, hbare]
    rfl
  · rw [if_neg hbare, hsep, List.singleton_append] at hnoEntry ⊢
    have hnames := hnames d hd
    have htrimmed := trimmed_paramNames hsettings hmem
    obtain ⟨hbody, hbodyNe⟩ :=
      Text.trimmed_spaced hc fun name hname => ⟨htrimmed name hname, (hnames name hname).1⟩
    have hline : Text.Trimmed (o.record.head ++ ' ' :: [c, ' '].intercalate d.paramNames) := by
      simpa using Text.trimmed_append (s := ' ') hhead hbody (Or.inr ⟨hne, hbodyNe hbare⟩)
    have hsplit := splitHead_append hblank hbody
    refine exists_outlines haccepted hself hdaily hdatabase hkept hline (by simp) hnoEntry hsplit ?_
      fun hnone => absurd hnone hbare
    rw [segments_of_splitHead hline hsplit, hsep, segmentsIn,
      Text.pieces_spaced hc hbare fun name hname => (hnames name hname).2,
      Text.map_trimStart_spaced htrimmed]

/-- The type is typed in other letters than it is declared in, and the hint shows it as it is
declared. -/
theorem hint_reads_back_workout :
    ∃ o o', workoutRegistry.parse "exercise/rUN 30" = .ok o ∧
      workoutRegistry.hint o.record
        = some "Exercise/Run Duration; Place; Equipment; Description".toList ∧
      workoutRegistry.parse "Exercise/Run Duration; Place; Equipment; Description" = .ok o' ∧
      o'.record.database = "Exercise".toList ∧ o'.record.typeValue = some "Run".toList ∧
      (workoutRegistry.segments "Exercise/Run Duration; Place; Equipment; Description").map
          Text.trimStart = ["Duration", "Place", "Equipment", "Description"].map String.toList ∧
      (∃ typed, o'.record.location = some (.parameter "Description" typed) ∧
        Text.trimStart typed = "Description") ∧
      workoutRegistry.hint o'.record
        = some "Exercise/Run Duration; Place; Equipment; Description".toList := by
  let o : Outcome :=
    { record :=
        { database := "Exercise"
          typeValue := some "Run".toList
          params := [⟨"Duration", .single "30"⟩]
          location := some (.parameter "Duration" "30") } }
  have hparse : workoutRegistry.parse "exercise/rUN 30" = .ok o := by decide +kernel
  have hhint : workoutRegistry.hint o.record
      = some "Exercise/Run Duration; Place; Equipment; Description".toList := by decide +kernel
  obtain ⟨d, text, hd, htext, hreads⟩ := hint_reads_back ofSettings_workout (c := ';') rfl
    (by decide) hparse rfl rfl (by decide) fun d hd name hname => by
      obtain rfl := Option.some.inj hd
      revert name
      decide
  obtain rfl := Option.some.inj (hhint.symm.trans htext)
  obtain rfl := Option.some.inj hd
  obtain ⟨o', hparse', houtlines, hhint'⟩ := hreads (by decide)
  exact ⟨o, o', hparse, hhint, hparse', houtlines.database, houtlines.type, houtlines.segments,
    houtlines.ends _ rfl, hhint'⟩

end Registry

end Tagline
