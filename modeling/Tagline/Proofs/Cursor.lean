import Tagline.Proofs.Filling
import Tagline.Proofs.Index
import Tagline.Proofs.Text.Overlap

/-!
# The end of a line, whatever the separators are

The place where a line ends is found by cutting what follows its head from the left.  Nothing
is known of the separators but that they are not empty, so they may hold blanks and overlap
with themselves.  A line that ends in a parameter is taken apart once (`Cursor`); whatever is
put behind it is cut together with what is typed of the last segment, up to the blanks that are
trimmed (`Cursor.added`), and nothing else is cut again.

Inside that segment the value being typed is looked for from the right.  This finds the piece
that the reader finds, unless the rightmost separator overlaps with the one that the reader
has cut at.

* `Cursor.exists_of_parse` — a line that ends in a parameter can be taken apart;
* `Cursor.parse_append_eq_ok`, `Cursor.location_of_parse_append` — where a longer line ends;
* `Registry.matchText_eq_last_piece_iff` — whether the value that is matched is the one that
  is read.
-/

namespace Tagline

/-- A text that is not blank keeps what stands in front of it when its end is trimmed. -/
theorem Text.trimEnd_append_of_ne_nil (lead : Text) {t : Text} (h : trimEnd t ≠ []) :
    trimEnd (lead ++ t) = lead ++ trimEnd t := by
  have hne : t.reverse.dropWhile isBlank ≠ [] := fun hnil => h (by rw [trimEnd, hnil]; rfl)
  unfold trimEnd
  rw [List.reverse_append, List.dropWhile_append, if_neg (by simpa using hne), List.reverse_append,
    List.reverse_reverse]

/-- What ends a text that does not end in a blank does not either. -/
theorem Text.getLast_of_suffix {t u : Text} (h : t <:+ u)
    (hu : ∀ c ∈ u.getLast?, isBlank c = false) : ∀ c ∈ t.getLast?, isBlank c = false := by
  obtain ⟨front, rfl⟩ := h
  exact fun c hc => hu c (List.mem_getLast?_append_of_mem_getLast? hc)

namespace Registry

/-- Blanks in front of a line do not count. -/
theorem parse_append_of_blank (r : Registry) {lead : Text}
    (hlead : ∀ c ∈ lead, Text.isBlank c = true) (line : Text) :
    r.parse (lead ++ line) = r.parse line := by
  by_cases hblank : Text.trimEnd line = []
  · have hempty : Text.trimStart (Text.trimEnd line) = [] := by
      rw [hblank]
      rfl
    have hall : Text.trimStart (Text.trimEnd (lead ++ line)) = [] := by
      obtain ⟨gap, hline, hgap⟩ := Text.trimEnd_append line
      rw [hblank, List.nil_append] at hline
      refine Text.trim_of_blank fun c hc => ?_
      rw [hline] at hc
      exact (List.mem_append.1 hc).elim (hlead c) (hgap c)
    simp only [parse, hall, hempty, List.isEmpty_nil, if_true]
  · have htrim := Text.trimEnd_append_of_ne_nil lead hblank
    simp only [parse, htrim, Text.trimStart_append_of_blank hlead, List.length_append,
      Nat.add_lt_add_iff_left]

/-- More blanks behind a line do not count if there are some. -/
theorem parse_append_blanks (r : Registry) (t : Text) {gap more : Text} (hne : gap ≠ [])
    (hgap : ∀ c ∈ gap, Text.isBlank c = true) (hmore : ∀ c ∈ more, Text.isBlank c = true) :
    r.parse (t ++ gap ++ more) = r.parse (t ++ gap) := by
  have hshort : (Text.trimEnd t).length < (t ++ gap).length := by
    obtain ⟨tail, ht, _⟩ := Text.trimEnd_append t
    have hlength := congrArg List.length ht
    have hpos := List.length_pos_iff.2 hne
    rw [List.length_append] at hlength ⊢
    omega
  have hshort' : (Text.trimEnd t).length < (t ++ gap ++ more).length :=
    hshort.trans_le (by simp)
  simp only [parse, Text.trimEnd_append_of_blank _ hmore, Text.trimEnd_append_of_blank _ hgap,
    hshort, hshort']

/-- Blanks behind a line do not count if something follows its head. -/
theorem parse_append_blanks_of_rest (r : Registry) {line rest gap : Text}
    (hrest : (splitHead (Text.trim line)).2 = some rest)
    (hgap : ∀ c ∈ gap, Text.isBlank c = true) : r.parse (line ++ gap) = r.parse line := by
  simp only [Text.trim] at hrest
  simp only [parse, Text.trimEnd_append_of_blank _ hgap, hrest, Database.readLine]

end Registry

namespace Database

variable {d : Database} {separator body p : Text} {fs more : List Field} {f : Field}
  {ps : List Text}

/-- Segments that do not outnumber the parameters are read, up to the last one. -/
theorem readSegments_of_pieces (type : Option Text) (hparams : d.params = fs ++ f :: more)
    (hpieces : Text.pieces separator body = ps ++ [p]) (hlength : fs.length = ps.length) :
    ∃ o, d.readSegments separator type body = .ok o ∧ o.record.daily = false ∧
      o.record.location = some (.parameter f.name p) := by
  have hfew : ¬ d.params.length < (ps ++ [p]).length := by
    rw [hparams]
    simp
    omega
  have hzip : d.params.zip (ps ++ [p]) = fs.zip ps ++ [(f, p)] := by
    rw [hparams, List.zip_append hlength]
    simp
  simp only [readSegments, hpieces, if_neg hfew, hzip]
  exact ⟨_, rfl, rfl, by simp⟩

end Database

/-! ## Lines that end in a parameter -/

/-- A line that ends in a parameter, taken apart: a head, the segments in front, and what is
typed of the last one, with blanks around the head and behind. -/
structure Cursor (r : Registry) (line : Text) (o : Outcome) where
  d : Database
  before : List Field
  f : Field
  after : List Field
  earlier : List Text
  typed : Text
  lead : Text
  head : Text
  blanks : Text
  rest : Text
  gap : Text
  line_eq : line = lead ++ (head ++ blanks ++ rest ++ gap)
  lead_blank : ∀ c ∈ lead, Text.isBlank c = true
  head_ne : head ≠ []
  head_char : ∀ c ∈ head, Text.isBlank c = false
  blanks_ne : blanks ≠ []
  blanks_blank : ∀ c ∈ blanks, Text.isBlank c = true
  rest_trimmed : Text.Trimmed rest
  gap_blank : ∀ c ∈ gap, Text.isBlank c = true
  gap_nil : rest = [] → gap = []
  params : d.params = before ++ f :: after
  pieces : Text.pieces r.splitSeparator rest = earlier ++ [typed]
  length_eq : before.length = earlier.length
  found : r.database? (splitType head).1 = some d
  parsed : r.parse line = .ok o
  read : d.readLine r.splitSeparator head (splitType head).2 (some rest) false = .ok o

namespace Cursor

variable {r : Registry} {line : Text} {o : Outcome}

/-- **A line that ends in a parameter can be taken apart.** -/
theorem exists_of_parse {name typed : Text} (h : r.parse line = .ok o)
    (hplace : o.record.location = some (.parameter name typed)) :
    ∃ c : Cursor r line o, c.f.name = name ∧ c.typed = typed := by
  have hparsed := h
  obtain ⟨lead, hline, hlead⟩ := Text.trimStart_append line
  have hstart : ∀ b ∈ (Text.trimStart line).head?, Text.isBlank b = false := by
    intro b hb
    obtain ⟨rest, hrest⟩ := List.head?_eq_some_iff.1 hb
    exact Text.dropWhile_head_false Text.isBlank hrest
  rw [hline, r.parse_append_of_blank hlead] at h
  obtain ⟨head, blanks, rest, gap, d, hbody, hhead, hheadNe, hblanksNe, hblanks, hgap, hrest,
    hgapNil, hd, hread⟩ := Registry.parse_parameter_cases hstart h hplace
  obtain ⟨value, ws, o', hsegments, rfl, _⟩ := Database.readLine_some_eq_ok hread
  obtain ⟨fs, f, more, ps, segment, hparams, hpieces, hlength, hlocation⟩ :=
    Database.readSegments_ends hsegments
  have hsame := Option.some.inj (hlocation.symm.trans hplace)
  rw [Location.parameter.injEq] at hsame
  exact ⟨⟨d, fs, f, more, ps, segment, lead, head, blanks, rest, gap,
    by rw [← hbody, ← hline], hlead, hheadNe, hhead, hblanksNe, hblanks, hrest, hgap, hgapNil,
    hparams, hpieces, hlength, hd, hparsed, hread⟩, hsame.1, hsame.2⟩

variable (c : Cursor r line o)

/-- The segments are read for a type, and others would be read for the same one. -/
theorem exists_segments : ∃ type ws o',
    c.d.readSegments r.splitSeparator type c.rest = .ok o' ∧ o.record = o'.record ∧
      ∀ other filled again, c.d.readSegments r.splitSeparator type other = .ok filled →
        c.d.readLine r.splitSeparator c.head (splitType c.head).2 (some other) again
          = .ok { filled with warnings := ws ++ filled.warnings } := by
  obtain ⟨type, ws, o', hsegments, ho, hagain⟩ := Database.readLine_some_eq_ok c.read
  exact ⟨type, ws, o', hsegments, congrArg (·.record) ho, hagain⟩

/-- The record is of the database whose parameters these are. -/
theorem database? (haccepted : ∀ d ∈ r.databases, d.Accepted) :
    r.database? o.record.database = some c.d := by
  obtain ⟨type, ws, o', hsegments, hrecord, _⟩ := c.exists_segments
  rw [hrecord, (Database.readSegments_head hsegments).1]
  exact Registry.database?_name c.found
    (haccepted c.d (Registry.mem_of_database? c.found)).trim_name

theorem f_mem : c.f ∈ c.d.params := by
  simp [c.params]

/-- There is no rest exactly if nothing is typed of the first parameter. -/
theorem rest_eq_nil_iff : c.rest = [] ↔ c.before = [] ∧ c.typed = [] := by
  constructor
  · intro hnil
    have hpieces := c.pieces
    rw [hnil] at hpieces
    have hone : ([] : List Text) ++ [[]] = c.earlier ++ [c.typed] := hpieces
    obtain ⟨hearlier, htyped⟩ := List.append_inj' hone rfl
    refine ⟨List.length_eq_zero_iff.1 ?_, (List.cons.inj htyped).1.symm⟩
    rw [c.length_eq, ← hearlier, List.length_nil]
  · rintro ⟨hbefore, htyped⟩
    have hearlier : c.earlier = [] :=
      List.length_eq_zero_iff.1 (by rw [← c.length_eq, hbefore]; rfl)
    have hpieces := c.pieces
    rw [hearlier, htyped] at hpieces
    exact (Text.eq_of_piecesFrom_eq_singleton hpieces).symm

/-- Where something is typed there is a rest. -/
theorem rest_ne_nil (htyped : Text.trim c.typed ≠ []) : c.rest ≠ [] := by
  intro hnil
  rw [(c.rest_eq_nil_iff.1 hnil).2] at htyped
  exact htyped rfl

/-! ### Something put behind -/

/-- What is put behind a line and read: blanks at its end do not count, nor do those at its
start if nothing stands in front. -/
def added (ext : Text) : Text :=
  if c.rest = [] then Text.trim ext else Text.trimEnd (c.gap ++ ext)

/-- What follows the head of the longer line. -/
theorem trim_rest_append (ext : Text) :
    Text.trim (c.rest ++ c.gap ++ ext) = c.rest ++ c.added ext := by
  by_cases hnil : c.rest = []
  · rw [added, if_pos hnil, hnil, c.gap_nil hnil]
    rfl
  · have hstart : ∀ tail, Text.trimStart (c.rest ++ tail) = c.rest ++ tail := by
      obtain ⟨first, rest, hrest⟩ := List.exists_cons_of_ne_nil hnil
      have hfirst := c.rest_trimmed.1 first (by rw [hrest]; rfl)
      rw [hrest]
      exact fun tail => List.dropWhile_cons_of_neg (by simp [hfirst])
    rw [added, if_neg hnil, Text.trim, List.append_assoc]
    by_cases hblank : Text.trimEnd (c.gap ++ ext) = []
    · obtain ⟨tail, htail, hall⟩ := Text.trimEnd_append (c.gap ++ ext)
      rw [hblank, List.nil_append] at htail
      rw [hblank, htail, Text.trimEnd_append_of_blank _ hall,
        Text.trimEnd_of_trimmed c.rest_trimmed, List.append_nil,
        Text.trimStart_of_trimmed c.rest_trimmed]
    · rw [Text.trimEnd_append_of_ne_nil _ hblank, hstart]

/-- Nothing is lost of what does not end in a blank, nor begin with one where nothing stands
in front. -/
theorem added_of_ends {ext : Text} (hne : ext ≠ [])
    (hlast : ∀ b ∈ ext.getLast?, Text.isBlank b = false)
    (hfirst : c.rest = [] → ∀ b ∈ ext.head?, Text.isBlank b = false) :
    c.added ext = c.gap ++ ext := by
  have hend : Text.trimEnd ext = ext := by
    unfold Text.trimEnd
    rw [Text.dropWhile_of_head (by simpa using hlast), List.reverse_reverse]
  rw [added]
  split
  · next hnil =>
      rw [c.gap_nil hnil, Text.trim_of_trimmed ⟨hfirst hnil, hlast⟩]
      rfl
  · rw [Text.trimEnd_append_of_ne_nil _ (hend.symm ▸ hne), hend]

/-- What is typed then does not end in a blank. -/
theorem getLast_typed_added (ext : Text) :
    ∀ b ∈ (c.typed ++ c.added ext).getLast?, Text.isBlank b = false := by
  refine Text.getLast_of_suffix ?_ (Text.trimmed_trim (c.rest ++ c.gap ++ ext)).2
  obtain ⟨front, hfront⟩ := Text.getLast_pieces_suffix r.splitSeparator (t := c.rest)
    (p := c.typed) (by rw [c.pieces, List.getLast?_append, List.getLast?_singleton]; rfl)
  exact ⟨front, by rw [c.trim_rest_append, ← List.append_assoc, hfront]⟩

section Append

variable {c} {ext : Text} (hentry : r.dailyEntry? (Text.trim (line ++ ext)) = none)

include hentry

/-- A line behind which something stands is read with a longer rest. -/
theorem parse_append : r.parse (line ++ ext)
    = c.d.readLine r.splitSeparator c.head (splitType c.head).2
        (some (c.rest ++ c.added ext)) false := by
  have hbody := c.trim_rest_append ext
  by_cases hnil : c.rest ++ c.added ext = []
  · -- There are only blanks behind the head, as there were before.
    have hrest : c.rest = [] := (List.append_eq_nil_iff.1 hnil).1
    rw [hnil, hrest, c.gap_nil hrest, List.nil_append, List.nil_append] at hbody
    have hline : line = c.lead ++ c.head ++ c.blanks :=
      c.line_eq.trans (by rw [hrest, c.gap_nil hrest]; simp)
    have hsame := r.parse_append_blanks (c.lead ++ c.head) c.blanks_ne c.blanks_blank
      (List.all_eq_true.1 (Text.allBlank_iff.2 hbody))
    rw [← hline] at hsame
    rw [hsame, c.parsed, hnil, ← hrest, c.read]
  · obtain ⟨front, tail, hsplit, hfront, htail⟩ :=
      Text.eq_surrounded_trim (c.rest ++ c.gap ++ ext)
    have htrim := Text.trimmed_trim (c.rest ++ c.gap ++ ext)
    rw [hbody] at hsplit htrim
    have hline : line ++ ext
        = c.lead ++ (c.head ++ (c.blanks ++ front) ++ (c.rest ++ c.added ext)) ++ tail := by
      conv_lhs => rw [c.line_eq]
      simpa using hsplit
    have hblanksNe : c.blanks ++ front ≠ [] := by simp [c.blanks_ne]
    have hblanks : ∀ b ∈ c.blanks ++ front, Text.isBlank b = true := fun b hb =>
      (List.mem_append.1 hb).elim (c.blanks_blank b) (hfront b)
    have hwhole : Text.Trimmed (c.head ++ (c.blanks ++ front) ++ (c.rest ++ c.added ext)) := by
      refine Text.trimmed_append_of_head (fun b hb => c.head_char b ?_) hnil htrim
      obtain ⟨first, more, hfirst⟩ := List.exists_cons_of_ne_nil c.head_ne
      rw [hfirst] at hb ⊢
      exact List.mem_of_mem_head? hb
    have hrest := splitHead_append_blanks c.head_char hblanksNe hblanks htrim.1
    rw [hline, Text.trim_append_of_blank c.lead_blank htail] at hentry
    rw [hline, List.append_assoc, r.parse_append_of_blank c.lead_blank,
      r.parse_append_blanks_of_rest (by rw [Text.trim_of_trimmed hwhole, hrest]) htail]
    exact Registry.parse_of_parts c.head_char c.head_ne hblanksNe hblanks htrim hnil c.found hentry

/-- **Where the longer line ends**: what is put behind is cut together with what is typed, and
each cut leads one parameter on. -/
theorem parse_append_eq_ok {fs more : List Field} {g : Field} {ps : List Text} {p : Text}
    (hpieces : Text.pieces r.splitSeparator (c.typed ++ c.added ext) = ps ++ [p])
    (hparams : c.d.params = fs ++ g :: more) (hlength : fs.length = c.before.length + ps.length) :
    ∃ o', r.parse (line ++ ext) = .ok o' ∧ o'.record.daily = false ∧
      o'.record.database = o.record.database ∧ o'.record.typeValue = o.record.typeValue ∧
      o'.record.location = some (.parameter g.name p) := by
  obtain ⟨type, ws, o', hsegments, hrecord, hagain⟩ := c.exists_segments
  have hall : Text.pieces r.splitSeparator (c.rest ++ c.added ext)
      = (c.earlier ++ ps) ++ [p] := by
    rw [Text.pieces_append_last _ c.pieces, hpieces, List.append_assoc]
  obtain ⟨filled, hfilled, hdaily, hlocation⟩ := Database.readSegments_of_pieces type hparams hall
    (by rw [hlength, c.length_eq, List.length_append])
  obtain ⟨hdatabase, htype, _⟩ := Database.readSegments_head hsegments
  obtain ⟨hdatabase', htype', _⟩ := Database.readSegments_head hfilled
  refine ⟨_, (parse_append hentry).trans (hagain _ filled false hfilled), hdaily, ?_, ?_,
    hlocation⟩
  · rw [hrecord, hdatabase]
    exact hdatabase'
  · rw [hrecord, htype]
    exact htype'

/-- The longer line ends in that parameter only. -/
theorem location_of_parse_append {o' : Outcome} (h : r.parse (line ++ ext) = .ok o')
    {ps : List Text} {p : Text}
    (hpieces : Text.pieces r.splitSeparator (c.typed ++ c.added ext) = ps ++ [p]) :
    ∃ fs g more, c.d.params = fs ++ g :: more ∧ fs.length = c.before.length + ps.length ∧
      o'.record.location = some (.parameter g.name p) := by
  rw [parse_append hentry] at h
  obtain ⟨type, ws, o'', hsegments, rfl, _⟩ := Database.readLine_some_eq_ok h
  obtain ⟨fs, g, more, qs, q, hparams, hqs, hlength, hlocation⟩ :=
    Database.readSegments_ends hsegments
  rw [Text.pieces_append_last _ c.pieces, hpieces, ← List.append_assoc] at hqs
  obtain ⟨rfl, hlastPiece⟩ := List.append_inj' hqs rfl
  obtain rfl := (List.cons.inj hlastPiece).1
  refine ⟨fs, g, more, hparams, ?_, hlocation⟩
  rw [hlength, c.length_eq, List.length_append]

end Append

end Cursor

/-! ## The value being typed -/

/-- Blanks are all that can be dropped in front of a text without being missed. -/
theorem Text.blank_of_trimStart_append {t u : Text} (h : trimStart (t ++ u) = trimStart u) :
    ∀ c ∈ t, isBlank c = true := by
  unfold trimStart at h
  rw [List.dropWhile_append] at h
  split at h
  · next hblank =>
      rw [List.isEmpty_iff] at hblank
      exact List.dropWhile_eq_nil_iff.1 hblank
  · next hkept =>
      have hlength := congrArg List.length h
      have hle := (List.dropWhile_suffix (l := u) isBlank).length_le
      rw [List.length_append] at hlength
      exact absurd (List.isEmpty_iff.2 (List.length_eq_zero_iff.1 (by omega))) hkept

namespace Registry

variable {s : Settings} {r : Registry} {line : Text} {o : Outcome} {name typed : Text}

/-- The text that is matched at a field is what is typed of its last value. -/
theorem matchText_of_field {record : Record} {d : Database} {f : Field}
    (hplace : record.location = some (.parameter name typed))
    (hd : r.database? record.database = some d) (hf : d.field? name = some f) :
    r.matchText record = some (currentPiece typed f.multi) := by
  rw [matchText, hplace, hd]
  simp [hf]

/-- What is suggested at a field is what the field offers for that text. -/
theorem suggest_of_field {record : Record} {d : Database} {f : Field}
    (hdaily : record.daily = false) (hplace : record.location = some (.parameter name typed))
    (hd : r.database? record.database = some d) (hf : d.field? name = some f)
    (history : Document) :
    r.suggest history record
      = some (f.suggest d history record.typeValue (currentPiece typed f.multi)) := by
  rw [suggest, hdaily, hplace, hd]
  simp [hf]

/-- No separator of an accepted registry is empty. -/
theorem separators_of_ofSettings (hr : ofSettings s = .ok r) :
    r.splitSeparator ≠ [] ∧ ∀ d ∈ r.databases, ∀ f ∈ d.fields, f.multi ≠ some [] := by
  obtain ⟨hacceptable, rfl⟩ := ofSettings_eq_ok_iff.1 hr
  exact ⟨hacceptable.separator, (holds_declared hacceptable).separators⟩

/-- **What is matched is the value being typed, unless separators overlap.**  In a parameter
that may have several values the text that candidates are matched against ends the last piece
of what is typed, as the reader cuts it.  It is that piece without the blanks in front, unless
the separator in front of the piece overlaps with another one that begins inside it and takes
away something that is not blank. -/
theorem matchText_eq_last_piece_iff (hr : ofSettings s = .ok r) (h : r.parse line = .ok o)
    (hplace : o.record.location = some (.parameter name typed)) :
    ∃ d f, r.database? o.record.database = some d ∧ f ∈ d.params ∧ f.name = name ∧
      ∀ m, f.multi = some m → ∀ before p, Text.pieces m typed = before ++ [p] →
        (∃ q, q <:+ p ∧ r.matchText o.record = some (Text.trimStart q)) ∧
        (r.matchText o.record = some (Text.trimStart p) ↔
          before = [] ∨
            ∀ u x, x <+: p → Text.Overlap m u x → ∀ c ∈ x, Text.isBlank c = true) := by
  obtain ⟨c, rfl, rfl⟩ := Cursor.exists_of_parse h hplace
  have haccepted := accepted_of_ofSettings hr
  have hd := c.database? haccepted
  have hmem := mem_of_database? hd
  have hf : c.f ∈ c.d.fields := List.mem_cons_of_mem _ c.f_mem
  have hfield : c.d.field? c.f.name = some c.f := (haccepted c.d hmem).field?_name hf
  refine ⟨c.d, c.f, hd, c.f_mem, rfl, fun m hm before p hpieces => ?_⟩
  have hne : m ≠ [] := by
    rintro rfl
    exact (separators_of_ofSettings hr).2 c.d hmem c.f hf hm
  obtain ⟨u, x, q, rfl, hlast, hoverlap, hone, hlongest⟩ := Text.exists_afterLast? hne hpieces
  have hmatch : r.matchText o.record = some (Text.trimStart q) := by
    rw [matchText_of_field hplace hd hfield, hm]
    exact congrArg (fun piece => some (Text.trimStart piece)) hlast
  refine ⟨⟨q, List.suffix_append x q, hmatch⟩, ?_⟩
  rw [hmatch, Option.some.injEq]
  constructor
  · intro heq
    by_cases hbefore : before = []
    · exact Or.inl hbefore
    · refine Or.inr fun u' x' hx' hoverlap' b hb => ?_
      have hshort : x' <+: x := List.prefix_of_prefix_length_le hx' (List.prefix_append x q)
        (hlongest hbefore u' x' hx' hoverlap')
      exact Text.blank_of_trimStart_append heq.symm b (hshort.subset hb)
  · rintro (hbefore | hblank)
    · rw [hone hbefore, List.nil_append]
    · exact (Text.trimStart_append_of_blank
        (hblank u x (List.prefix_append x q) hoverlap) q).symm

/-- Settings with a parameter whose values are separated by two hyphens. -/
def packingSettings : Settings where
  databases :=
    [ { database := "Trip"
        params := ["Gear"]
        fields := SortedMap.ofList
          [("Gear", { values := SortedMap.ofList [("_ALL", ["Hat", "-Hat"])]
                      multi := some "--" })] } ]

/-- The registry of those settings. -/
def packing : Registry where
  databases :=
    [ { name := "Trip"
        typeField := { name := "Type" }
        params :=
          [{ name := "Gear", policy := .fixed ⟨["Hat", "-Hat"], []⟩, multi := some "--" }] } ]

/-- What is read where a third hyphen stands: it begins the second value. -/
def packed : Outcome where
  record :=
    { database := "Trip"
      params := [⟨"Gear", .multi ["Boots", "-H"]⟩]
      location := some (.parameter "Gear" "boots---h") }
  warnings :=
    [⟨.valueNotAllowed, "Trip", "Gear", "Boots", ["Hat", "-Hat"]⟩,
      ⟨.valueNotAllowed, "Trip", "Gear", "-H", ["Hat", "-Hat"]⟩]

/-- The second value is `-h` and begins the second value that is declared, but `h` is matched
and the first one is offered. -/
theorem matchText_eq_last_piece_iff_packing :
    ofSettings packingSettings = .ok packing ∧ packing.parse "Trip boots---h" = .ok packed ∧
      Text.pieces "--" "boots---h" = ["boots".toList, "-h".toList] ∧
      packing.matchText packed.record = some "h".toList ∧
      packing.matchText packed.record ≠ some (Text.trimStart "-h") ∧
      packing.suggest {} packed.record = some [.ofValue .fixed "Hat"] := by
  have hr : ofSettings packingSettings = .ok packing := rfl
  have hparse : packing.parse "Trip boots---h" = .ok packed := by decide +kernel
  have hpieces : Text.pieces "--" "boots---h" = ["boots".toList] ++ ["-h".toList] := by
    decide +kernel
  obtain ⟨d, f, hd, hf, hname, hlast⟩ := matchText_eq_last_piece_iff hr hparse rfl
  obtain rfl : packing.databases.head (by decide) = d := Option.some.inj hd
  obtain rfl := List.mem_singleton.1 hf
  refine ⟨hr, hparse, hpieces, by decide +kernel, fun heq => ?_, by decide +kernel⟩
  have hagree := ((hlast "--" rfl _ _ hpieces).2.1 heq).resolve_left (by decide)
  have hblank := hagree "-" "-" (by decide) (by decide) '-' (by decide)
  exact absurd hblank (by decide)

end Registry

end Tagline
