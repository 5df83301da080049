import ErrorCatalog.Proofs.Scan.Completion
import ErrorCatalog.Proofs.Scan.WellFormed

/-!
# Proofs/Scan/Shortening — documentation under a shorter marker

Whatever a dialect reads is also read with its marker cut short, and what was cut off stands at the
front of each line of documentation.  The two dialects take the same turn everywhere: a marker that
is there is there cut short, and where it is not, the word that makes a field visible is, which the
shorter marker is no front of.

A catalogue has the lines of documentation trimmed and joined.  `Language.linedDocument` is the
grammar with the lines as they stand in the text; the catalogues of the language are the joined ones
of this grammar (`exists_linedDocument`, `document_of_linedDocument`).
-/

namespace ErrorCatalog

/-- A field with the lines of its documentation as they stand behind the marker. -/
structure LinedField where
  name : Text
  type : Text
  lines : List Text
  deriving DecidableEq, Repr

/-- A declaration with such fields. -/
structure LinedEntry where
  tag : Attribute
  name : Text
  fields : List LinedField
  deriving DecidableEq, Repr

/-- The field whose documentation is `join` of its lines. -/
def LinedField.field (join : List Text → Text) (f : LinedField) : Field :=
  ⟨f.name, f.type, join f.lines⟩

/-- The entry of such fields. -/
def LinedEntry.entry (join : List Text → Text) (e : LinedEntry) : Entry :=
  ⟨e.tag, ⟨e.name, e.fields.map (·.field join)⟩⟩

/-- The field with `b` in front of each of its lines. -/
def LinedField.extend (b : Text) (f : LinedField) : LinedField :=
  { f with lines := f.lines.map (b ++ ·) }

/-- The declaration with `b` in front of each line of its fields. -/
def LinedEntry.extend (b : Text) (e : LinedEntry) : LinedEntry :=
  { e with fields := e.fields.map (·.extend b) }

theorem LinedEntry.entry_extend (join : List Text → Text) (b : Text) (e : LinedEntry) :
    (e.extend b).entry join = e.entry fun lines => join (lines.map (b ++ ·)) := by
  simp only [entry, extend, List.map_map]
  rfl

/-! ## Lines behind a text -/

namespace Text

variable {b l : Text}

theorem trimRight_append (hb : Stops isBlank b.reverse) :
    trimRight (b ++ l) = b ++ trimRight l := by
  rw [trimRight, trimRight, List.reverse_append, List.dropWhile_append]
  split
  · next h =>
    rw [List.isEmpty_iff.mp h, hb.dropWhile_eq, List.reverse_reverse, List.reverse_nil,
      List.append_nil]
  · rw [List.reverse_append, List.reverse_reverse]

/-- **Trimming a line behind a text without blanks** leaves the text and trims the line's end. -/
theorem trim_append (hb : b ≠ []) (hblank : b.any isBlank = false) :
    trim (b ++ l) = b ++ trimRight l := by
  have hstops : ∀ {u : Text}, (∀ c ∈ u, c ∈ b) → Stops isBlank u := fun hu c hc =>
    Bool.eq_false_iff.mpr fun h =>
      absurd (List.any_eq_true.mpr ⟨c, hu c (List.mem_of_mem_head? hc), h⟩) (by simp [hblank])
  have hfront : Stops isBlank (b ++ l) := (stops_append hb).mpr (hstops fun _ hc => hc)
  rw [trim, trimLeft, hfront.dropWhile_eq,
    trimRight_append (hstops fun _ hc => List.mem_reverse.mp hc)]

end Text

/-! ## The grammar with lines -/

namespace Language

section Rows

variable {α β : Type} {P : α → Phrase} {Q : β → Phrase} {xs : List α} {p : Char → Bool}
  {opening close : Char} {t r : Text}

/-- Phrases of items are phrases of what the items are taken to. -/
theorem Star.map {g : α → β} (h : Star P xs t r) (hP : ∀ {x t r}, P x t r → Q (g x) t r) :
    Star Q (xs.map g) t r := by
  induction h with
  | nil t => exact .nil t
  | cons head tail ih => exact .cons (hP head) ih

theorem row_map {g : α → β} (h : Star (fun x => seq [P x, run p]) xs t r)
    (hP : ∀ {x t r}, P x t r → Q (g x) t r) :
    Star (fun y => seq [Q y, run p]) (xs.map g) t r := by
  refine h.map ?_
  rintro x t r ⟨s, hx, hs⟩
  exact ⟨s, hP hx, hs⟩

/-- **Phrases of items that are all taken from others** are phrases of those. -/
theorem row_exists_map {g : β → α} (h : Star (fun x => seq [P x, run p]) xs t r)
    (hP : ∀ {x t r}, P x t r → ∃ y, x = g y ∧ Q y t r) :
    ∃ ys, xs = ys.map g ∧ Star (fun y => seq [Q y, run p]) ys t r := by
  induction h with
  | nil t => exact ⟨[], rfl, .nil t⟩
  | cons head tail ih =>
    obtain ⟨s, hx, hs⟩ := head
    obtain ⟨y, rfl, hy⟩ := hP hx
    obtain ⟨ys, rfl, hys⟩ := ih
    exact ⟨y :: ys, rfl, .cons ⟨s, hy, hs⟩ hys⟩

theorem list_map {g : α → β} (h : list opening P close xs t r)
    (hP : ∀ {x t r}, P x t r → Q (g x) t r) : list opening Q close (xs.map g) t r := by
  obtain ⟨s₁, hopen, s₂, hspace, s₃, hrow, hclose⟩ := h
  exact ⟨s₁, hopen, s₂, hspace, s₃, row_map hrow hP, hclose⟩

theorem list_exists_map {g : β → α} (h : list opening P close xs t r)
    (hP : ∀ {x t r}, P x t r → ∃ y, x = g y ∧ Q y t r) :
    ∃ ys, xs = ys.map g ∧ list opening Q close ys t r := by
  obtain ⟨s₁, hopen, s₂, hspace, s₃, hrow, hclose⟩ := h
  obtain ⟨ys, rfl, hys⟩ := row_exists_map hrow hP
  exact ⟨ys, rfl, s₁, hopen, s₂, hspace, s₃, hys, hclose⟩

end Rows

/-- A field with the lines of its documentation. -/
def linedField (d : Dialect) (f : LinedField) : Phrase :=
  seq [ahead (·.head? ≠ some '\x7d'), Star (docLine d.marker) f.lines,
    ahead (¬ d.marker.text <+: ·), word d.visibility.text, run isSpace, word f.name, run isSpace,
    char ':', run isSpace, word f.type]

/-- What a declaration has before its fields. -/
def declarationHead (d : Dialect) (a : Attribute) (name : Text) : Phrase :=
  seq [tag a, run isSpace, word d.visibility.text, run isSpace, word d.record.text, run isSpace,
    word name, run isSpace]

/-- A declaration with the lines of its documentation. -/
def linedDeclaration (d : Dialect) (e : LinedEntry) : Phrase :=
  seq [declarationHead d e.tag e.name, list '\x7b' (linedField d) '\x7d' e.fields]

/-- **The texts that declare a catalogue**, with the lines of its documentation as they stand. -/
def linedDocument (d : Dialect) (L : List LinedEntry) : Phrase :=
  seq [run isSpace, Star (fun e => seq [linedDeclaration d e, run isSpace]) L]

/-- The documentation that a catalogue has for these lines. -/
def joined (lines : List Text) : Text := Scan.docOfLines (lines.map Text.trim)

variable {d : Dialect} {m : Marker} {b t r : Text} {f : LinedField} {e : LinedEntry}
  {L : List LinedEntry} {c : Catalog}

theorem field_of_linedField (h : linedField d f t r) : field d (f.field joined) t r :=
  ⟨f.lines, rfl, h⟩

theorem exists_linedField {g : Field} (h : field d g t r) :
    ∃ f : LinedField, g = f.field joined ∧ linedField d f t r := by
  obtain ⟨name, type, doc⟩ := g
  obtain ⟨lines, rfl, h⟩ := h
  exact ⟨⟨name, type, lines⟩, rfl, h⟩

theorem declaration_iff {x : Entry} : declaration d x t r ↔
    seq [declarationHead d x.tag x.record.name, list '\x7b' (field d) '\x7d' x.record.fields]
      t r := by
  constructor
  · rintro ⟨s₁, h₁, s₂, h₂, _, ⟨s₃, h₃, s₄, h₄, s₅, h₅, s₆, h₆, s₇, h₇, s₈, h₈, _, hfields, rfl⟩,
      rfl⟩
    exact ⟨s₈, ⟨s₁, h₁, s₂, h₂, s₃, h₃, s₄, h₄, s₅, h₅, s₆, h₆, s₇, h₇, s₈, h₈, rfl⟩, _, hfields,
      rfl⟩
  · rintro ⟨_, ⟨s₁, h₁, s₂, h₂, s₃, h₃, s₄, h₄, s₅, h₅, s₆, h₆, s₇, h₇, s₈, h₈, rfl⟩, _, hfields,
      rfl⟩
    exact ⟨s₁, h₁, s₂, h₂, _, ⟨s₃, h₃, s₄, h₄, s₅, h₅, s₆, h₆, s₇, h₇, s₈, h₈, _, hfields, rfl⟩,
      rfl⟩

theorem declaration_of_linedDeclaration (h : linedDeclaration d e t r) :
    declaration d (e.entry joined) t r := by
  obtain ⟨s, hhead, _, hfields, rfl⟩ := h
  exact declaration_iff.mpr ⟨s, hhead, _, list_map hfields field_of_linedField, rfl⟩

theorem exists_linedDeclaration {x : Entry} (h : declaration d x t r) :
    ∃ e : LinedEntry, x = e.entry joined ∧ linedDeclaration d e t r := by
  obtain ⟨s, hhead, _, hfields, rfl⟩ := declaration_iff.mp h
  obtain ⟨fields, heq, hfields'⟩ := list_exists_map hfields exists_linedField
  refine ⟨⟨x.tag, x.record.name, fields⟩, ?_, s, hhead, _, hfields', rfl⟩
  rw [LinedEntry.entry, ← heq]

/-- **A text with lines of documentation declares what they are joined to.** -/
theorem document_of_linedDocument (h : linedDocument d L t r) :
    document d (L.map (·.entry joined)) t r := by
  obtain ⟨s, hs, _, hrow, rfl⟩ := h
  exact ⟨s, hs, _, row_map hrow declaration_of_linedDeclaration, rfl⟩

/-- **What a text declares is joined of lines that stand in it.** -/
theorem exists_linedDocument (h : document d c t r) :
    ∃ L : List LinedEntry, c = L.map (·.entry joined) ∧ linedDocument d L t r := by
  obtain ⟨s, hs, _, hrow, rfl⟩ := h
  obtain ⟨L, hL, hrow'⟩ := row_exists_map hrow exists_linedDeclaration
  exact ⟨L, hL, s, hs, _, hrow', rfl⟩

/-! ## A shorter marker -/

/-- The documentation of these lines under the marker without `b`. -/
def joinedBehind (b : Text) (lines : List Text) : Text :=
  List.intercalate [' '] (lines.map (b ++ Text.trimRight ·))

theorem joined_map_append (hb : b ≠ []) (hblank : b.any isBlank = false) (lines : List Text) :
    joined (lines.map (b ++ ·)) = joinedBehind b lines := by
  have hfilter : (lines.map (b ++ Text.trimRight ·)).filter (· ≠ []) =
      lines.map (b ++ Text.trimRight ·) := by
    refine List.filter_eq_self.mpr fun l hl => ?_
    obtain ⟨line, -, rfl⟩ := List.mem_map.mp hl
    simp [hb]
  rw [joined, joinedBehind, Scan.docOfLines, List.map_map, ← hfilter]
  congr 2
  exact List.map_congr_left fun line _ => Text.trim_append hb hblank

/-- **There is documentation under the shorter marker where there are lines.** -/
theorem joinedBehind_eq_nil_iff (hb : b ≠ []) (lines : List Text) :
    joinedBehind b lines = [] ↔ lines = [] := by
  cases lines with
  | nil => exact iff_of_true rfl rfl
  | cons line lines =>
    rw [joinedBehind, List.map_cons, intercalate_cons_eq]
    simp [hb]

section Shorter

variable (hmarker : d.marker.text = m.text ++ b)

include hmarker

theorem shorter_docLine {line : Text} (h : docLine d.marker line t r) :
    docLine m (b ++ line) t r := by
  obtain ⟨hline, s, rfl, hrest⟩ := h
  have hb : '\n' ∉ b := fun hmem =>
    Scan.not_mem_marker d.marker rfl (hmarker ▸ List.mem_append_right _ hmem)
  refine ⟨by simp [hb, hline], b ++ s, ?_, ?_⟩
  · rw [text, hmarker, List.append_assoc]
  · obtain ⟨s', rfl, hend⟩ := hrest
    exact ⟨s', by rw [text, List.append_assoc], hend⟩

/-- **A field is read with the shorter marker**, unless that is a front of the word before it. -/
theorem shorter_linedField (hkeyword : ¬ m.text <+: d.visibility.text) (h : linedField d f t r) :
    linedField { d with marker := m } (f.extend b) t r := by
  obtain ⟨s₁, hclose, s₂, hlines, _, ⟨-, rfl⟩, s₃, h₃, s₄, h₄, s₅, h₅, hrest⟩ := h
  have hname : (Scan.fieldName { d with marker := m }).Reads s₂ f.name s₅ :=
    Scan.reads_fieldName.mpr ⟨s₃, h₃, s₄, h₄, s₅, h₅, rfl⟩
  have hstops : Stops isSpace s₂ := by
    rw [h₃.1.eq_append]
    exact Scan.Gap.stops ((stops_append h₃.2).mpr (Scan.stops_of_forall_isNameChar h₃.1.all))
  have hmark := Scan.noMarker_of_reads_fieldName hkeyword
    ((Scan.reads_spaced_of_stops hstops).mpr hname)
  exact ⟨s₁, hclose, s₂, hlines.map (shorter_docLine hmarker), s₂, ⟨hmark, rfl⟩, s₃, h₃, s₄, h₄,
    s₅, h₅, hrest⟩

theorem shorter_linedDeclaration (hkeyword : ¬ m.text <+: d.visibility.text)
    (h : linedDeclaration d e t r) : linedDeclaration { d with marker := m } (e.extend b) t r := by
  obtain ⟨s, hhead, _, hfields, rfl⟩ := h
  exact ⟨s, hhead, _, list_map hfields (shorter_linedField hmarker hkeyword), rfl⟩

/-- **A text is read with the shorter marker**, and the rest of the marker with its lines. -/
theorem shorter_linedDocument (hkeyword : ¬ m.text <+: d.visibility.text)
    (h : linedDocument d L t r) :
    linedDocument { d with marker := m } (L.map (·.extend b)) t r := by
  obtain ⟨s, hs, _, hrow, rfl⟩ := h
  exact ⟨s, hs, _, row_map hrow (shorter_linedDeclaration hmarker hkeyword), rfl⟩

/-- Joined are the lines trimmed at their ends, behind `b`. -/
theorem entry_extend_joined (hb : b ≠ []) (e : LinedEntry) :
    (e.extend b).entry joined = e.entry (joinedBehind b) := by
  have hblank : b.any isBlank = false := by
    have h := d.marker.not_blank
    rw [hmarker, List.any_append, Bool.or_eq_false_iff] at h
    exact h.2
  rw [LinedEntry.entry_extend, funext (joined_map_append hb hblank)]

/-- **The catalogue under the shorter marker** has the same lines, with `b` in front of each. -/
theorem shorter_document (hb : b ≠ []) (hkeyword : ¬ m.text <+: d.visibility.text)
    (h : linedDocument d L t r) :
    document { d with marker := m } (L.map (·.entry (joinedBehind b))) t r := by
  have hentries : (L.map (·.extend b)).map (·.entry joined) = L.map (·.entry (joinedBehind b)) := by
    rw [List.map_map]
    exact List.map_congr_left fun e _ => entry_extend_joined hmarker hb e
  rw [← hentries]
  exact document_of_linedDocument (shorter_linedDocument hmarker hkeyword h)

end Shorter

end Language

namespace Catalog

open ErrorCatalog.Language (joined joinedBehind linedDocument)

/-- **A shorter marker breaks no text.**  Cut the end `b` off the marker, so that what is left is no
front of the word before a field.  What is read then has the same attributes and the same fields,
and for its documentation `b` in front of each line that stands behind the longer marker. -/
theorem ofText_shorter_marker (d : Dialect) (m : Marker) (b : Text) (hb : b ≠ [])
    (hmarker : d.marker.text = m.text ++ b) (hkeyword : ¬ m.text <+: d.visibility.text)
    (t : Text) (c : Catalog) (h : ofText? d t = .ok c) :
    (∃ L, linedDocument d L t []) ∧ ∀ L, linedDocument d L t [] →
      c = L.map (·.entry joined) ∧
        ofText? { d with marker := m } t = .ok (L.map (·.entry (joinedBehind b))) ∧
          ∀ e ∈ L, ∀ f ∈ e.fields, joinedBehind b f.lines = [] ↔ f.lines = [] := by
  constructor
  · obtain ⟨L, -, hL⟩ :=
      Language.exists_linedDocument (Scan.declares_iff.mp (Scan.ofText?_eq_ok_iff.mp h))
    exact ⟨L, hL⟩
  · intro L hL
    have hlong := Scan.declares_iff.mpr (Language.document_of_linedDocument hL)
    have hshort := Scan.declares_iff.mpr (Language.shorter_document hmarker hb hkeyword hL)
    refine ⟨?_, hshort.ofText?_eq, fun e _ f _ => Language.joinedBehind_eq_nil_iff hb f.lines⟩
    exact Except.ok.inj (h.symm.trans hlong.ofText?_eq)

/-- Two lines of documentation behind four slashes, both blank at the end, and a field that has
none. -/
theorem ofText_shorter_marker_slashes :
    let t := "#[e()] pub struct A \x7b ////one \n  //// two\t\n pub x: y, pub z: w \x7d".toList
    let catalog : Text → Catalog := fun doc => [⟨⟨"e".toList, []⟩, "A".toList,
      [⟨"x".toList, "y".toList, doc⟩, ⟨"z".toList, "w".toList, []⟩]⟩]
    let b := ['/']
    let m := Dialect.tripleSlash.marker
    b ≠ [] ∧ Dialect.standard.marker.text = m.text ++ b ∧
      ¬ m.text <+: Dialect.standard.visibility.text ∧
      ofText? .standard t = .ok (catalog "one two".toList) ∧
      ofText? .tripleSlash t = .ok (catalog "/one / two".toList) ∧
      (∃ L, linedDocument .standard L t []) ∧ ∀ L, linedDocument .standard L t [] →
        catalog "one two".toList = L.map (·.entry joined) ∧
          ofText? .tripleSlash t = .ok (L.map (·.entry (joinedBehind b))) ∧
            ∀ e ∈ L, ∀ f ∈ e.fields, joinedBehind b f.lines = [] ↔ f.lines = [] := by
  intro t catalog b m
  have hb : b ≠ [] := by decide
  have hmarker : Dialect.standard.marker.text = m.text ++ b := rfl
  have hkeyword : ¬ m.text <+: Dialect.standard.visibility.text := by decide
  have hread : ofText? .standard t = .ok (catalog "one two".toList) := by decide +kernel
  have hshort : ofText? .tripleSlash t = .ok (catalog "/one / two".toList) := by decide +kernel
  exact ⟨hb, hmarker, hkeyword, hread, hshort,
    ofText_shorter_marker .standard m b hb hmarker hkeyword t _ hread⟩

/-- **What is read with four slashes is read with three.** -/
theorem exists_ofText_tripleSlash {t : Text} {c : Catalog} (h : ofText? .standard t = .ok c) :
    ∃ c', ofText? .tripleSlash t = .ok c' := by
  obtain ⟨L, -, hL⟩ :=
    Language.exists_linedDocument (Scan.declares_iff.mp (Scan.ofText?_eq_ok_iff.mp h))
  have hshort := Language.shorter_document (m := Dialect.tripleSlash.marker) (b := ['/']) rfl
    (List.cons_ne_nil _ _) (by decide) hL
  exact ⟨_, (Scan.declares_iff.mpr hshort).ofText?_eq⟩

end Catalog

end ErrorCatalog
