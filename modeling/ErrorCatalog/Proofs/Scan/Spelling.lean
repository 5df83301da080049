import ErrorCatalog.Proofs.Scan.Completion
import ErrorCatalog.Proofs.Scan.WellFormed

/-!
# Proofs/Scan/Spelling — well-formed catalogues are written down and read back

Each part of a catalogue has a spelling, with as little space as the grammar allows: a comma ends
each item of a list, and a blank stands between two words only.  A spelling is derived before
anything that the grammar lets follow it, so the spelling of a well-formed catalogue declares it,
and the catalogues that can be read are the well-formed ones (`Catalog.exists_ofText_iff`).
-/

namespace ErrorCatalog

/-! ## Literals -/

namespace Literal

/-- The value with a backslash before each quote. -/
def escape : Text → Text
  | '\x22' :: rest => '\\' :: '\x22' :: escape rest
  | c :: rest => c :: escape rest
  | [] => []

variable {v : Text}

theorem head?_escape_ne (v : Text) : (escape v).head? ≠ some '\x22' := by
  fun_cases escape v with
  | case1 rest => simp
  | case2 c rest hc => simpa using hc
  | case3 => simp

/-- **An escaped value is read back.** -/
theorem value_escape (v : Text) : value (escape v) = v := by
  fun_induction escape v with
  | case1 rest ih => rw [value, ih]
  | case2 c rest hc ih =>
    rw [value, ih]
    -- A backslash of the value does not meet a quote: each quote has one of its own.
    rintro r - hr
    exact head?_escape_ne rest (hr ▸ rfl)
  | case3 => rfl

theorem getLast?_escape (v : Text) : (escape v).getLast? = v.getLast? := by
  fun_induction escape v with
  | case1 rest ih => rw [List.getLast?_cons_cons, List.getLast?_cons, List.getLast?_cons, ih]
  | case2 c rest hc ih => rw [List.getLast?_cons, List.getLast?_cons, ih]
  | case3 => rfl

theorem open_escape (escaped : Bool) (v : Text) : Open escaped (escape v) := by
  fun_induction escape v generalizing escaped with
  | case1 rest ih => exact ⟨fun h => absurd h (by decide), fun _ => rfl, ih _⟩
  | case2 c rest hc ih => exact ⟨fun h => absurd h hc, ih _⟩
  | case3 => trivial

theorem isContent_escape (h : v.getLast? ≠ some '\\') : IsContent (escape v) := by
  refine isContent_iff.mpr ⟨open_escape false v, ?_⟩
  rwa [← Bool.not_eq_true, endsEscaped_false_iff, getLast?_escape]

end Literal

/-! ## Spellings -/

/-- Items between two characters, with a comma behind each. -/
def spellList {α : Type} (opening : Char) (spell : α → Text) (close : Char) (xs : List α) : Text :=
  opening :: xs.flatMap (fun x => spell x ++ [',']) ++ [close]

def Param.spelling (p : Param) : Text :=
  p.name ++ "=\"".toList ++ Literal.escape p.value ++ ['\x22']

def Attribute.spelling (a : Attribute) : Text :=
  "#[".toList ++ a.name ++ spellList '(' Param.spelling ')' a.params ++ [']']

/-- A line of documentation, or nothing for the empty text. -/
def Marker.spelling (m : Marker) (doc : Text) : Text :=
  if doc = [] then [] else m.text ++ doc ++ ['\n']

/-- A field without its documentation. -/
def Field.declared (d : Dialect) (f : Field) : Text :=
  d.visibility.text ++ ' ' :: f.name ++ ':' :: f.type

def Field.spelling (d : Dialect) (f : Field) : Text := d.marker.spelling f.doc ++ f.declared d

def Record.spelling (d : Dialect) (x : Record) : Text :=
  d.visibility.text ++ ' ' :: d.record.text ++ ' ' :: x.name ++
    spellList '\x7b' (Field.spelling d) '\x7d' x.fields

def Entry.spelling (d : Dialect) (e : Entry) : Text := e.tag.spelling ++ e.record.spelling d

/-- **A text for a catalogue.** -/
def Catalog.spelling (d : Dialect) (c : Catalog) : Text := c.flatMap (Entry.spelling d)

/-- The marker is told apart from whatever else may stand where a field starts: the word before the
field, a comma, and the brace that closes the record. -/
structure Dialect.MarksFields (d : Dialect) : Prop where
  visibility : ¬ d.marker.text <+: d.visibility.text
  comma : d.marker.text.head? ≠ some ','
  brace : d.marker.text.head? ≠ some '\x7d'

/-- **The field can be written in the dialect**: what it starts with is taken neither for a line of
documentation, unless it is one, nor for the brace that closes a record. -/
structure Dialect.CanWrite (d : Dialect) (f : Field) : Prop where
  visibility : ¬ d.marker.text <+: d.visibility.text
  brace : f.doc ≠ [] → d.marker.text.head? ≠ some '\x7d'

theorem Dialect.MarksFields.canWrite {d : Dialect} (hd : d.MarksFields) (f : Field) :
    d.CanWrite f := ⟨hd.visibility, fun _ => hd.brace⟩

namespace Language

variable {α : Type} {p : Char → Bool} {d : Dialect} {r : Text} {xs : List α} {P : α → Phrase}
  {spell : α → Text}

/-! ## Tokens and lists -/

theorem run_of_stops (h : Stops p r) : run p r r := ⟨[], h.run⟩

theorem run_of_blank (h : Stops isSpace r) : run isSpace (' ' :: r) r := ⟨[' '], Scan.Gap.run h⟩

theorem word_append {w : Text} (h : IsWord w) (hr : Stops isNameChar r) : word w (w ++ r) r :=
  ⟨⟨rfl, h.2, hr⟩, h.1⟩

theorem stops_word_append {w : Text} (h : IsWord w) (r : Text) : Stops isSeparator (w ++ r) :=
  (stops_append h.1).mpr (Scan.stops_of_forall_isNameChar h.2)

theorem isWord_keyword (k : Keyword) : IsWord k.text :=
  ⟨k.text_ne_nil, List.all_eq_true.mp k.isName⟩

theorem literal_escape {v : Text} (h : v.getLast? ≠ some '\\') (r : Text) :
    literal v ('\x22' :: (Literal.escape v ++ '\x22' :: r)) r :=
  ⟨Literal.escape v, ⟨_, rfl, _, rfl, _, rfl, rfl⟩, Literal.isContent_escape h,
    (Literal.value_escape v).symm⟩

/-- **Spellings put together are phrases in a row**, if each is one before what stops the class. -/
theorem star_flatMap (hx : ∀ x ∈ xs, ∀ {r}, Stops p r → seq [P x, run p] (spell x ++ r) r)
    (hstops : ∀ x ∈ xs, ∀ r, Stops p (spell x ++ r)) (hr : Stops p r) :
    Star (fun x => seq [P x, run p]) xs (xs.flatMap spell ++ r) r ∧
      Stops p (xs.flatMap spell ++ r) := by
  induction xs with
  | nil => exact ⟨.nil r, hr⟩
  | cons x xs ih =>
    obtain ⟨hx, hxs⟩ := List.forall_mem_cons.mp hx
    obtain ⟨hxstops, hxsstops⟩ := List.forall_mem_cons.mp hstops
    obtain ⟨hrow, hrest⟩ := ih hxs hxsstops
    rw [List.flatMap_cons, List.append_assoc]
    exact ⟨.cons (hx hrest) hrow, hxstops _⟩

/-- **The spelling of a list**, if each of its items is spelled before a comma. -/
theorem list_spellList {opening close : Char} (hclose : isSeparator close = false)
    (hx : ∀ x ∈ xs, ∀ r, P x (spell x ++ ',' :: r) (',' :: r))
    (hstops : ∀ x ∈ xs, ∀ r, Stops isSeparator (spell x ++ r)) (r : Text) :
    list opening P close xs (spellList opening spell close xs ++ r) r := by
  have hitem : ∀ x ∈ xs, ∀ {r}, Stops isSeparator r →
      seq [P x, run isSeparator] (spell x ++ [','] ++ r) r := by
    intro x hmem r hr
    rw [List.append_assoc]
    exact ⟨_, hx x hmem r, r, ⟨[','], rfl, List.forall_mem_singleton.mpr rfl, hr⟩, rfl⟩
  have hfront : ∀ x ∈ xs, ∀ r, Stops isSeparator (spell x ++ [','] ++ r) := by
    intro x hmem r
    rw [List.append_assoc]
    exact hstops x hmem _
  obtain ⟨hrow, hrest⟩ := star_flatMap hitem hfront (r := close :: r) (stops_cons.mpr hclose)
  rw [spellList, List.cons_append, List.cons_append, List.append_assoc]
  exact ⟨_, rfl, _, run_of_stops (Scan.Gap.stops hrest), _, hrow, r, rfl, rfl⟩

/-! ## Attributes -/

theorem param_spelling {p : Param} (h : p.WellFormed) (r : Text) : param p (p.spelling ++ r) r := by
  have htext : p.spelling ++ r =
      p.name ++ '=' :: '\x22' :: (Literal.escape p.value ++ '\x22' :: r) := by
    simp [Param.spelling]
  rw [htext]
  exact ⟨_, word_append h.name (stops_cons.mpr rfl), _, run_of_stops (stops_cons.mpr rfl), _, rfl,
    _, run_of_stops (stops_cons.mpr rfl), r, literal_escape h.value r, rfl⟩

theorem tag_spelling {a : Attribute} (h : a.WellFormed) (r : Text) : tag a (a.spelling ++ r) r := by
  have hfront : ∀ p ∈ a.params, ∀ r, Stops isSeparator (p.spelling ++ r) := by
    intro p hp r
    simp only [Param.spelling, List.append_assoc]
    exact stops_word_append (h.params p hp).name _
  have hparams : ∀ r,
      list '(' param ')' a.params (spellList '(' Param.spelling ')' a.params ++ r) r :=
    list_spellList rfl (fun p hp r => param_spelling (h.params p hp) _) hfront
  have htext : a.spelling ++ r =
      '#' :: '[' :: (a.name ++ (spellList '(' Param.spelling ')' a.params ++ ']' :: r)) := by
    simp [Attribute.spelling]
  rw [htext]
  exact ⟨_, rfl, _, run_of_stops (stops_cons.mpr rfl), _, rfl, _,
    run_of_stops (Scan.Gap.stops (stops_word_append h.name _)), _,
    word_append h.name (stops_cons.mpr rfl), _, run_of_stops (stops_cons.mpr rfl), _, hparams _, _,
    run_of_stops (stops_cons.mpr rfl), r, rfl, rfl⟩

/-! ## Fields -/

section Fields

variable {f : Field}

theorem stops_declared (hp : ∀ c, isNameChar c = true → p c = false) (r : Text) :
    Stops p (f.declared d ++ r) := by
  have hword := isWord_keyword d.visibility
  rw [Field.declared, List.append_assoc, List.append_assoc]
  exact (stops_append hword.1).mpr fun c hc => hp c (hword.2 c (List.mem_of_mem_head? hc))

/-- **A field starts with the marker or with a word.** -/
theorem stops_spelling (hp : ∀ c, isNameChar c = true → p c = false)
    (hmarker : f.doc ≠ [] → Stops p d.marker.text) (r : Text) : Stops p (f.spelling d ++ r) := by
  rw [Field.spelling, Marker.spelling]
  split
  · exact stops_declared hp r
  · next hdoc =>
    simp only [List.append_assoc]
    exact (stops_append d.marker.text_ne_nil).mpr (hmarker hdoc)

theorem stops_marker (m : Marker) : Stops isSpace m.text := fun _ hc =>
  Bool.eq_false_iff.mpr fun hspace => Scan.not_mem_marker m hspace (List.mem_of_mem_head? hc)

/-- A marker that no comma opens is not read with the separators before it. -/
theorem stops_marker_isSeparator (hd : d.MarksFields) : Stops isSeparator d.marker.text := by
  intro c hc
  have hcomma : c ≠ ',' := fun h => hd.comma (h ▸ hc)
  simp [isSeparator, isComma, stops_marker d.marker c hc, hcomma]

/-- **A field that can be written is not taken for the end of the fields.** -/
theorem head?_spelling_ne (hd : d.CanWrite f) (r : Text) :
    (f.spelling d ++ r).head? ≠ some '\x7d' := fun hhead => by
  have hbrace : Stops (fun c => decide (c = '\x7d')) (f.spelling d ++ r) := by
    refine stops_spelling (fun c hc => decide_eq_false ?_) (fun hdoc c hc => decide_eq_false ?_) r
    · rintro rfl
      exact absurd hc (by decide)
    · rintro rfl
      exact hd.brace hdoc hc
  exact absurd (hbrace _ hhead) (by decide)

/-- Documentation is read as it was, up to the line feed behind it. -/
theorem star_docLine (h : f.WellFormed) (hr : Stops isSpace r) :
    ∃ lines, f.doc = Scan.docOfLines (lines.map Text.trim) ∧
      Star (docLine d.marker) lines (d.marker.spelling f.doc ++ r) r := by
  by_cases hdoc : f.doc = []
  · refine ⟨[], hdoc, ?_⟩
    rw [Marker.spelling, if_pos hdoc]
    exact .nil r
  · refine ⟨[f.doc], ?_, ?_⟩
    · simp [Scan.docOfLines, h.trimmed, hdoc]
    · rw [Marker.spelling, if_neg hdoc]
      refine .cons ⟨h.line, _, ?_, _, rfl, _, rfl, _, run_of_stops hr, rfl⟩ (.nil r)
      simp [text]

theorem field_spelling (hd : d.CanWrite f) (h : f.WellFormed) (r : Text) :
    field d f (f.spelling d ++ ',' :: r) (',' :: r) := by
  have hspace : Stops isSpace (f.declared d ++ ',' :: r) :=
    Scan.Gap.stops (stops_declared (fun _ => Scan.isSeparator_eq_false) _)
  obtain ⟨lines, hdoc, hlines⟩ := star_docLine (d := d) h hspace
  have hdeclared : f.declared d ++ ',' :: r =
      d.visibility.text ++ ' ' :: (f.name ++ ':' :: (f.type ++ ',' :: r)) := by
    simp [Field.declared]
  have hmarker : ¬ d.marker.text <+: f.declared d ++ ',' :: r := by
    rw [hdeclared]
    exact (Scan.noMarker_append_cons rfl).mpr hd.visibility
  refine ⟨lines, hdoc, _, ⟨head?_spelling_ne hd _, rfl⟩, f.declared d ++ ',' :: r, ?_, _, ⟨hmarker, rfl⟩, ?_⟩
  · rwa [Field.spelling, List.append_assoc]
  · rw [hdeclared]
    exact ⟨_, word_append (isWord_keyword d.visibility) (stops_cons.mpr rfl), _,
      run_of_blank (Scan.Gap.stops (stops_word_append h.name _)), _,
      word_append h.name (stops_cons.mpr rfl), _, run_of_stops (stops_cons.mpr rfl), _, rfl, _,
      run_of_stops (Scan.Gap.stops (stops_word_append h.type _)), _,
      word_append h.type (stops_cons.mpr rfl), rfl⟩

end Fields

/-! ## Records and catalogues -/

/-- The fields of the record are read as they are spelled. -/
def FieldsSpelled (d : Dialect) (x : Record) : Prop := ∀ r, list '\x7b' (field d) '\x7d' x.fields
  (spellList '\x7b' (Field.spelling d) '\x7d' x.fields ++ r) r

theorem fieldsSpelled (hd : d.MarksFields) {x : Record} (h : x.WellFormed) : FieldsSpelled d x :=
  list_spellList rfl (fun f hf r => field_spelling (hd.canWrite f) (h.fields f hf) r) fun _ _ r =>
    stops_spelling (fun _ => Scan.isSeparator_eq_false) (fun _ => stops_marker_isSeparator hd) r

theorem record_spelling {x : Record} (hname : IsWord x.name) (hfields : FieldsSpelled d x)
    (r : Text) : record d x (x.spelling d ++ r) r := by
  have hrecord := isWord_keyword d.record
  have htext : x.spelling d ++ r = d.visibility.text ++ ' ' :: (d.record.text ++ ' ' ::
      (x.name ++ (spellList '\x7b' (Field.spelling d) '\x7d' x.fields ++ r))) := by
    simp [Record.spelling]
  rw [htext]
  exact ⟨_, word_append (isWord_keyword d.visibility) (stops_cons.mpr rfl), _,
    run_of_blank (Scan.Gap.stops (stops_word_append hrecord _)), _,
    word_append hrecord (stops_cons.mpr rfl), _,
    run_of_blank (Scan.Gap.stops (stops_word_append hname _)), _,
    word_append hname (stops_cons.mpr rfl), _, run_of_stops (stops_cons.mpr rfl), r, hfields r,
    rfl⟩

theorem declaration_spelling {e : Entry} (h : e.WellFormed) (hfields : FieldsSpelled d e.record)
    (r : Text) : declaration d e (e.spelling d ++ r) r := by
  have hspace : Stops isSpace (e.record.spelling d ++ r) := by
    simp only [Record.spelling, List.append_assoc]
    exact Scan.Gap.stops (stops_word_append (isWord_keyword d.visibility) _)
  have hrecord := record_spelling h.record.name hfields r
  rw [Entry.spelling, List.append_assoc]
  exact ⟨_, tag_spelling h.tag _, _, run_of_stops hspace, r, hrecord, rfl⟩

/-- A well-formed catalogue is declared by its spelling, if all fields are read as spelled. -/
theorem document_of_fieldsSpelled {c : Catalog} (h : c.WellFormed)
    (hfields : ∀ e ∈ c, FieldsSpelled d e.record) : document d c (c.spelling d) [] := by
  have hentry : ∀ e ∈ c, ∀ {r}, Stops isSpace r →
      seq [declaration d e, run isSpace] (e.spelling d ++ r) r := fun e he r hr =>
    ⟨_, declaration_spelling (h e he) (hfields e he) r, r, run_of_stops hr, rfl⟩
  have hstops : ∀ e ∈ c, ∀ r, Stops isSpace (e.spelling d ++ r) := fun e _ r => stops_cons.mpr rfl
  obtain ⟨hrow, hfront⟩ := star_flatMap hentry hstops stops_nil
  rw [List.append_nil] at hrow hfront
  exact ⟨_, run_of_stops hfront, [], hrow, rfl⟩

/-- **The spelling of a well-formed catalogue declares it.** -/
theorem document_spelling (hd : d.MarksFields) {c : Catalog} (h : c.WellFormed) :
    document d c (c.spelling d) [] :=
  document_of_fieldsSpelled h fun e he => fieldsSpelled hd (h e he).record

end Language

namespace Catalog

/-- **What can be read is what is well-formed**: some text declares a catalogue just if its names
are words, no value of a parameter ends in a backslash, and each documentation is one line without
blanks at its ends. -/
theorem exists_ofText_iff {d : Dialect} (hd : d.MarksFields) (c : Catalog) :
    (∃ t, ofText? d t = .ok c) ↔ c.WellFormed := by
  simp only [Scan.ofText?_eq_ok_iff, Scan.declares_iff]
  constructor
  · rintro ⟨t, ht⟩
    exact Language.wellFormed_of_document ht
  · exact fun h => ⟨c.spelling d, Language.document_spelling hd h⟩

/-- One error type, whose parameter has the value `value` and whose field the documentation `doc`. -/
def withValueAndDoc (value doc : Text) : Catalog :=
  [{ tag := { name := "e".toList, params := [⟨"message".toList, value⟩] }
     record := { name := "A_1".toList, fields := [⟨"x".toList, "u64".toList, doc⟩] } }]

/-- Quotes, line feeds and backslashes inside a value, and inner blanks of a documentation, can be
read; a backslash at the end and a line feed cannot. -/
theorem exists_ofText_iff_withValueAndDoc :
    (∃ t, ofText? .standard t = .ok (withValueAndDoc "\\\"\n\"".toList "//  two".toList)) ∧
      (¬ ∃ t, ofText? .standard t = .ok (withValueAndDoc "a\\".toList [])) ∧
      ¬ ∃ t, ofText? .standard t = .ok (withValueAndDoc [] "a\nb".toList) := by
  have hd : Dialect.standard.MarksFields := ⟨by decide, by decide, by decide⟩
  refine ⟨(exists_ofText_iff hd _).mpr (by decide), ?_, ?_⟩
  · exact mt (exists_ofText_iff hd _).mp (by decide)
  · exact mt (exists_ofText_iff hd _).mp (by decide)

end Catalog

end ErrorCatalog
