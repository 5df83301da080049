import ErrorCatalog.Proofs.Scan.Rule

/-!
# Proofs/Scan/Language — the language that is read

The grammar of declarations, written as the phrases a text is made of and without any reader.  Space
between tokens is a longest run, and so is a word, so two words need something between them.  The
main result is that the texts with a catalogue are the texts of the language: everything the grammar
derives is read, with the catalogue it derives, and nothing else is.

    document     :=  W (declaration W)*
    declaration  :=  attribute W record
    attribute    :=  "#" W "[" W name W "(" W (param WC)* ")" W "]"
    param        :=  name WC "=" W literal
    record       :=  visibility W recordWord W name W "\x7b" W (field WC)* "\x7d"
    field        :=  (marker line "\n" W)* visibility W name W ":" W name
-/

namespace ErrorCatalog

namespace Language

/-! ## Phrases -/

/-- A sort of phrase: `P t r` says that `t` starts with such a phrase and goes on with `r`. -/
abbrev Phrase := Text → Text → Prop

/-- Phrases in turn. -/
def seq : List Phrase → Phrase
  | [] => fun t r => t = r
  | P :: Ps => fun t r => ∃ s, P t s ∧ seq Ps s r

/-- A phrase for each item of a list, in turn. -/
inductive Star {α : Type} (P : α → Phrase) : List α → Text → Text → Prop
  | nil (t : Text) : Star P [] t t
  | cons {t s r : Text} {x : α} {xs : List α} (head : P x t s) (tail : Star P xs s r) :
      Star P (x :: xs) t r

/-- The very text `s`. -/
def text (s : Text) : Phrase := fun t r => t = s ++ r

/-- The character `c`. -/
def char (c : Char) : Phrase := text [c]

/-- The longest run of a class, which may be empty. -/
def run (p : Char → Bool) : Phrase := fun t r => ∃ w, Run p t w r

/-- The word `w`, with no character of a word behind it. -/
def word (w : Text) : Phrase := fun t r => Run isNameChar t w r ∧ w ≠ []

/-- A literal that stands for `v`. -/
def literal (v : Text) : Phrase := fun t r =>
  ∃ raw, seq [char '\x22', text raw, char '\x22'] t r ∧ Literal.IsContent raw ∧
    v = Literal.value raw

/-- Nothing, where `P` holds of what comes next. -/
def ahead (P : Text → Prop) : Phrase := fun t r => P t ∧ t = r

/-- A list: items between two characters, each with the separators behind it. -/
def list {α : Type} (opening : Char) (P : α → Phrase) (close : Char) (xs : List α) : Phrase :=
  seq [char opening, run isSpace, Star (fun x => seq [P x, run isSeparator]) xs, char close]

/-! ## The grammar -/

/-- `name = "value"`. -/
def param (p : Param) : Phrase :=
  seq [word p.name, run isSeparator, char '=', run isSpace, literal p.value]

/-- `#[name(params)]`. -/
def tag (a : Attribute) : Phrase :=
  seq [char '#', run isSpace, char '[', run isSpace, word a.name, run isSpace,
    list '(' param ')' a.params, run isSpace, char ']']

/-- A line of documentation and the space after it. -/
def docLine (m : Marker) (line : Text) : Phrase := fun t r =>
  '\n' ∉ line ∧ seq [text m.text, text line, char '\n', run isSpace] t r

/-- A field with its documentation.  Whatever starts with the marker is documentation, and a closing
brace in front is no field. -/
def field (d : Dialect) (f : Field) : Phrase := fun t r =>
  ∃ lines, f.doc = Scan.docOfLines (lines.map Text.trim) ∧
    seq [ahead (·.head? ≠ some '\x7d'), Star (docLine d.marker) lines,
      ahead (¬ d.marker.text <+: ·), word d.visibility.text, run isSpace, word f.name, run isSpace,
      char ':', run isSpace, word f.type] t r

/-- A record and its fields. -/
def record (d : Dialect) (x : Record) : Phrase :=
  seq [word d.visibility.text, run isSpace, word d.record.text, run isSpace, word x.name,
    run isSpace, list '\x7b' (field d) '\x7d' x.fields]

/-- A record under its attribute. -/
def declaration (d : Dialect) (e : Entry) : Phrase :=
  seq [tag e.tag, run isSpace, record d e.record]

/-- **The texts that declare a catalogue**, up to the rest that is no declaration. -/
def document (d : Dialect) (c : Catalog) : Phrase :=
  seq [run isSpace, Star (fun e => seq [declaration d e, run isSpace]) c]

end Language

/-! ## Reading the grammar -/

namespace Scan

open ErrorCatalog.Language (Phrase Star seq)

variable {α : Type} {m : Scan α} {p : Char → Bool} {t r : Text} {xs : List α}

section Star

variable [Onward m] {P : Text → Prop} {G : α → Phrase}

/-- **Padded items in a row** are items each with a run of the class behind it. -/
theorem repeats_padded_iff (hp : ∀ c, isSpace c = true → p c = true)
    (hG : ∀ {t x r}, Stops isSpace t → (¬ P t ∧ m.Reads t x r ↔ G x t r)) (ht : Stops isSpace t) :
    Repeats (padded m p) P t xs r ↔ Star (fun x => seq [G x, Language.run p]) xs t r := by
  constructor
  · intro h
    induction h with
    | nil t => exact .nil t
    | cons hP head tail ih =>
      obtain ⟨w, hspaced, hw⟩ := reads_padded.mp head
      have hx := (reads_spaced_of_stops ht).mp hspaced
      exact .cons ⟨_, (hG ht).mp ⟨hP, hx⟩, _, ⟨w, hw⟩, rfl⟩ (ih (hw.stops.imp hp))
  · intro h
    induction h with
    | nil t => exact .nil t
    | cons head tail ih =>
      obtain ⟨s, hx, _, ⟨w, hw⟩, rfl⟩ := head
      obtain ⟨hP, hx⟩ := (hG ht).mpr hx
      obtain rfl := hw.eq_append
      have hspaced := (reads_spaced_of_stops ht).mpr hx
      exact .cons hP (reads_padded.mpr ⟨w, hspaced, hw⟩) (ih (hw.stops.imp hp))

/-- A list is its items between two characters. -/
theorem reads_listed {h : (padded m isSeparator).Consumes} {opening close : Char}
    (hG : ∀ {t x r}, Stops isSpace t → (¬ t.head? = some close ∧ m.Reads t x r ↔ G x t r)) :
    (listed opening (padded m isSeparator) h close).Reads t xs r ↔
      Language.list opening G close xs t r := by
  have hsep : ∀ c, isSpace c = true → isSeparator c = true := fun c hc => by
    rw [isSeparator, hc, Bool.true_or]
  simp only [listed, reads_bind, reads_expect, reads_space, reads_closed]
  constructor
  · rintro ⟨-, s, rfl, w, s', hw, hrow⟩
    exact ⟨s, rfl, s', ⟨w, hw⟩, _, (repeats_padded_iff hsep hG hw.stops).mp hrow, r, rfl, rfl⟩
  · rintro ⟨s, rfl, s', ⟨w, hw⟩, _, hrow, _, rfl, rfl⟩
    exact ⟨(), s, rfl, w, s', hw, (repeats_padded_iff hsep hG hw.stops).mpr hrow⟩

end Star

/-! ## Tokens -/

theorem reads_char {c : Char} {x : Unit} : (expect c).Reads t x r ↔ Language.char c t r :=
  reads_expect

theorem reads_word {what x : Text} : (name what).Reads t x r ↔ Language.word x t r := reads_name

theorem reads_keyword_word {k : Keyword} {x : Unit} :
    (keyword k.text).Reads t x r ↔ Language.word k.text t r := by
  rw [reads_keyword, Language.word, and_iff_left k.text_ne_nil]

theorem reads_literal {v : Text} : quoted.Reads t v r ↔ Language.literal v t r := by
  rw [reads_quoted]
  constructor
  · rintro ⟨raw, rfl, hraw, rfl⟩
    exact ⟨raw, ⟨_, rfl, _, rfl, _, rfl, rfl⟩, hraw, rfl⟩
  · rintro ⟨raw, ⟨_, rfl, _, rfl, _, rfl, rfl⟩, hraw, rfl⟩
    exact ⟨raw, rfl, hraw, rfl⟩

/-- The text of a run does not matter. -/
theorem exists_run {K : Text → Prop} :
    (∃ w s, Run p t w s ∧ K s) ↔ ∃ s, Language.run p t s ∧ K s :=
  ⟨fun ⟨w, s, hw, hs⟩ => ⟨s, ⟨w, hw⟩, hs⟩, fun ⟨s, ⟨w, hw⟩, hs⟩ => ⟨w, s, hw, hs⟩⟩

/-- A word does not start with a character that is in none. -/
theorem head?_ne_of_word {x : Text} {c : Char} (h : Language.word x t r)
    (hc : isNameChar c = false) : t.head? ≠ some c := fun hhead =>
  h.1.not_stops h.2 fun a ha => by rwa [← Option.some.inj (hhead.symm.trans ha)]

/-! ## Attributes -/

theorem reads_paramCore {p : Param} : paramCore.Reads t p r ↔ Language.param p t r := by
  simp only [paramCore, Language.param, seq, reads_bind, reads_word, reads_separators, reads_char,
    reads_space, reads_literal, reads_pure, exists_run, exists_const]
  constructor
  · rintro ⟨x, s, hname, s₁, h₁, s₂, h₂, s₃, h₃, v, s₄, hvalue, rfl, rfl⟩
    exact ⟨s, hname, s₁, h₁, s₂, h₂, s₃, h₃, r, hvalue, rfl⟩
  · rintro ⟨s, hname, s₁, h₁, s₂, h₂, s₃, h₃, s₄, hvalue, rfl⟩
    exact ⟨p.name, s, hname, s₁, h₁, s₂, h₂, s₃, h₃, p.value, s₄, hvalue, rfl, rfl⟩

theorem reads_params {h : (padded paramCore isSeparator).Consumes} {ps : List Param} :
    (listed '(' (padded paramCore isSeparator) h ')').Reads t ps r ↔
      Language.list '(' Language.param ')' ps t r := by
  refine reads_listed fun _ => ?_
  rw [reads_paramCore, and_iff_right_iff_imp]
  rintro ⟨_, hname, -⟩
  exact head?_ne_of_word hname rfl

theorem reads_tagCore {a : Attribute} : tagCore.Reads t a r ↔ Language.tag a t r := by
  simp only [tagCore, Language.tag, seq, reads_bind, reads_char, reads_space, reads_word,
    reads_params, reads_pure, exists_run, exists_const]
  constructor
  · rintro ⟨s₁, h₁, s₂, h₂, s₃, h₃, s₄, h₄, x, s₅, hname, s₆, h₆, ps, s₇, hparams, s₈, h₈, s₉, h₉,
      rfl, rfl⟩
    exact ⟨s₁, h₁, s₂, h₂, s₃, h₃, s₄, h₄, s₅, hname, s₆, h₆, s₇, hparams, s₈, h₈, r, h₉, rfl⟩
  · rintro ⟨s₁, h₁, s₂, h₂, s₃, h₃, s₄, h₄, s₅, hname, s₆, h₆, s₇, hparams, s₈, h₈, s₉, h₉, rfl⟩
    exact ⟨s₁, h₁, s₂, h₂, s₃, h₃, s₄, h₄, a.name, s₅, hname, s₆, h₆, a.params, s₇, hparams, s₈,
      h₈, s₉, h₉, rfl, rfl⟩

/-! ## Documentation -/

section Documentation

variable {mk : Marker} {line x : Text} {lines : List Text}

theorem reads_of_docLine (h : Language.docLine mk line t r) :
    ¬ NoMarker mk t ∧ (docLine mk).Reads t (Text.trim line) r := by
  obtain ⟨hline, _, rfl, _, rfl, s, rfl, _, ⟨v, hv⟩, rfl⟩ := h
  refine reads_docLine.mpr ⟨line, '\n' :: s, '\n' :: v, rfl, ⟨rfl, fun c hc => ?_, by simp⟩,
    (run_cons rfl).mpr ⟨v, rfl, hv⟩, rfl⟩
  exact decide_eq_true fun h => hline (h ▸ hc)

/-- **A line of documentation ends with a line feed** if anything comes after it. -/
theorem exists_docLine_of_reads (hmark : ¬ NoMarker mk t) (h : (docLine mk).Reads t x r)
    (hr : r ≠ []) : ∃ line, Language.docLine mk line t r ∧ x = Text.trim line := by
  obtain ⟨line, s, w, rfl, hline, hw, rfl⟩ := reads_docLine.mp ⟨hmark, h⟩
  cases s with
  | nil => exact absurd (List.append_eq_nil_iff.mp hw.eq_append.symm).2 hr
  | cons c s =>
    obtain rfl : c = '\n' := by simpa using hline.stops
    obtain ⟨v, rfl, hv⟩ := (run_cons rfl).mp hw
    exact ⟨line, ⟨fun h => of_decide_eq_true (hline.all _ h) rfl, _, rfl, _, rfl, s, rfl, r,
      ⟨v, hv⟩, rfl⟩, rfl⟩

/-- **Documentation is all that starts with the marker**, before something that does not. -/
theorem reads_docLines_iff (hr : r ≠ []) : (docLines mk).Reads t lines r ↔
    ∃ raw, lines = raw.map Text.trim ∧ Star (Language.docLine mk) raw t r ∧ NoMarker mk r := by
  rw [reads_docLines]
  constructor
  · rintro ⟨hrow, hmark⟩
    induction hrow with
    | nil t => exact ⟨[], rfl, .nil t, hmark⟩
    | @cons t s r x lines hgo head tail ih =>
      obtain ⟨w, hs⟩ := tail.exists_eq_append
      have hne : s ≠ [] := fun h => hr (List.append_eq_nil_iff.mp (hs.symm.trans h)).2
      obtain ⟨line, hline, rfl⟩ := exists_docLine_of_reads hgo head hne
      obtain ⟨raw, rfl, htail, hmark⟩ := ih hr hmark
      exact ⟨line :: raw, rfl, .cons hline htail, hmark⟩
  · rintro ⟨raw, rfl, hrow, hmark⟩
    refine ⟨?_, hmark⟩
    induction hrow with
    | nil t => exact .nil t
    | cons head tail ih =>
      obtain ⟨hgo, hx⟩ := reads_of_docLine head
      exact .cons hgo hx (ih hr hmark)

/-- The space after documentation is read with it. -/
theorem stops_of_docLines {raw : List Text} (h : Star (Language.docLine mk) raw t r)
    (ht : Stops isSpace t) : Stops isSpace r := by
  induction h with
  | nil t => exact ht
  | cons head tail ih =>
    obtain ⟨-, _, -, _, -, _, -, _, ⟨w, hw⟩, rfl⟩ := head
    exact ih hw.stops

end Documentation

/-! ## Records -/

section Records

variable {d : Dialect}

theorem reads_fieldName {x : Text} : (fieldName d).Reads t x r ↔
    seq [Language.word d.visibility.text, Language.run isSpace, Language.word x] t r := by
  simp only [fieldName, seq, reads_bind, reads_keyword_word, reads_space, reads_word, exists_run,
    exists_const, exists_eq_right]

theorem reads_fieldCore {f : Field} (ht : Stops isSpace t) :
    ¬ t.head? = some '\x7d' ∧ (fieldCore d).Reads t f r ↔ Language.field d f t r := by
  simp only [fieldCore, fieldHead, bind_assoc, pure_bind, Language.field, seq, Language.ahead,
    reads_bind, reads_char, reads_space, reads_word, reads_pure, exists_run, exists_const]
  constructor
  · rintro ⟨hclose, lines, s, hdoc, x, s₁, hname, s₂, h₂, s₃, h₃, s₄, h₄, y, s₅, htype, rfl, rfl⟩
    have hne : s ≠ [] := List.ne_nil_of_length_pos
      (Nat.zero_lt_of_lt (hname.length_lt (consumes_fieldName d).spaced))
    obtain ⟨raw, rfl, hdoc, hmark⟩ := (reads_docLines_iff hne).mp hdoc
    rw [reads_spaced_of_stops (stops_of_docLines hdoc ht), reads_fieldName] at hname
    obtain ⟨s₆, h₆, s₇, h₇, s₈, h₈, rfl⟩ := hname
    exact ⟨raw, rfl, t, ⟨hclose, rfl⟩, s, hdoc, s, ⟨hmark, rfl⟩, s₆, h₆, s₇, h₇, s₈, h₈, s₂, h₂,
      s₃, h₃, s₄, h₄, r, htype, rfl⟩
  · rintro ⟨raw, hvalue, _, ⟨hclose, rfl⟩, s, hdoc, _, ⟨hmark, rfl⟩, s₁, h₁, s₂, h₂, s₃, h₃, s₄,
      h₄, s₅, h₅, s₆, h₆, s₇, htype, rfl⟩
    have hname : (fieldName d).Reads s f.name s₃ :=
      reads_fieldName.mpr ⟨s₁, h₁, s₂, h₂, s₃, h₃, rfl⟩
    have hne : s ≠ [] := List.ne_nil_of_length_pos
      (Nat.zero_lt_of_lt (hname.length_lt (consumes_fieldName d)))
    refine ⟨hclose, raw.map Text.trim, s, (reads_docLines_iff hne).mpr ⟨raw, rfl, hdoc, hmark⟩,
      f.name, s₃, (reads_spaced_of_stops (stops_of_docLines hdoc ht)).mpr hname, s₄, h₄, s₅, h₅,
      s₆, h₆, f.type, s₇, htype, ?_, rfl⟩
    rw [← hvalue]

theorem reads_fields {h : (padded (fieldCore d) isSeparator).Consumes} {fs : List Field} :
    (listed '\x7b' (padded (fieldCore d) isSeparator) h '\x7d').Reads t fs r ↔
      Language.list '\x7b' (Language.field d) '\x7d' fs t r :=
  reads_listed reads_fieldCore

theorem reads_recordCore {x : Record} : (recordCore d).Reads t x r ↔ Language.record d x t r := by
  simp only [recordCore, Language.record, seq, reads_bind, reads_keyword_word, reads_space,
    reads_word, reads_fields, reads_pure, exists_run, exists_const]
  constructor
  · rintro ⟨s₁, h₁, s₂, h₂, s₃, h₃, s₄, h₄, y, s₅, hname, s₆, h₆, fields, s₇, hfields, rfl, rfl⟩
    exact ⟨s₁, h₁, s₂, h₂, s₃, h₃, s₄, h₄, s₅, hname, s₆, h₆, r, hfields, rfl⟩
  · rintro ⟨s₁, h₁, s₂, h₂, s₃, h₃, s₄, h₄, s₅, hname, s₆, h₆, s₇, hfields, rfl⟩
    exact ⟨s₁, h₁, s₂, h₂, s₃, h₃, s₄, h₄, x.name, s₅, hname, s₆, h₆, x.fields, s₇, hfields, rfl,
      rfl⟩

/-! ## Whole texts -/

theorem reads_entryCore {e : Entry} :
    (entryCore d).Reads t e r ↔ Language.declaration d e t r := by
  simp only [entryCore, Language.declaration, seq, reads_bind, reads_tagCore, reads_space,
    reads_recordCore, reads_pure, exists_run]
  constructor
  · rintro ⟨a, s₁, ha, s₂, h₂, x, s₃, hx, rfl, rfl⟩
    exact ⟨s₁, ha, s₂, h₂, r, hx, rfl⟩
  · rintro ⟨s₁, ha, s₂, h₂, s₃, hx, rfl⟩
    exact ⟨e.tag, s₁, ha, s₂, h₂, e.record, s₃, hx, rfl, rfl⟩

theorem declares_iff {c : Catalog} : Declares d t c r ↔ Language.document d c t r := by
  have hentry : ∀ {t e r}, Stops isSpace t →
      (¬ t = [] ∧ (entryCore d).Reads t e r ↔ Language.declaration d e t r) := fun _ => by
    rw [reads_entryCore, and_iff_right_iff_imp]
    rintro ⟨_, ⟨_, rfl, -⟩, -⟩
    exact List.cons_ne_nil _ _
  constructor
  · rintro ⟨w, s, hw, hrow⟩
    exact ⟨s, ⟨w, hw⟩, r, (repeats_padded_iff (fun _ hc => hc) hentry hw.stops).mp hrow, rfl⟩
  · rintro ⟨s, ⟨w, hw⟩, _, hrow, rfl⟩
    exact ⟨w, s, hw, (repeats_padded_iff (fun _ hc => hc) hentry hw.stops).mpr hrow⟩

end Records

end Scan

namespace Catalog

/-- **The language that is read is that of the grammar**: a text declares a catalogue just if the
grammar derives the whole text as that catalogue. -/
theorem ofText_ok_iff_document (d : Dialect) (t : Text) (c : Catalog) :
    ofText? d t = .ok c ↔ Language.document d c t [] := by
  rw [Scan.ofText?_eq_ok_iff, Scan.declares_iff]

end Catalog

end ErrorCatalog
