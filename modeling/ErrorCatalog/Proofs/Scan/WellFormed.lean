import ErrorCatalog.Proofs.Scan.Language
import ErrorCatalog.Proofs.Text
import Mathlib.Data.List.DropRight

/-!
# Proofs/Scan/WellFormed — what a catalogue that was read looks like

Names are words, no value of a parameter ends in a backslash, and documentation is one line without
blanks at its ends.  Whatever the grammar derives is of this form (`wellFormed_of_document`), phrase
by phrase.
-/

namespace ErrorCatalog

/-! ## Trimmed texts -/

namespace Text

/-- No blank stands at either end. -/
structure Trimmed (t : Text) : Prop where
  front : Stops isBlank t
  back : Stops isBlank t.reverse

variable {a b : Text} {ls : List Text}

theorem trimmed_nil : Trimmed [] := ⟨stops_nil, stops_nil⟩

theorem trim_isInfix (t : Text) : trim t <:+: t :=
  (List.rdropWhile_prefix isBlank _).isInfix.trans (List.dropWhile_suffix isBlank).isInfix

theorem trimmed_trim (t : Text) : Trimmed (trim t) where
  front := (run_takeWhile isBlank t).stops.of_isPrefix (List.rdropWhile_prefix isBlank _)
  back := by
    rw [trim, trimRight, List.reverse_reverse]
    exact (run_takeWhile isBlank _).stops

/-- **The trimmed texts are those that trimming leaves as they are.** -/
theorem trim_eq_self_iff : trim a = a ↔ Trimmed a := by
  constructor
  · exact fun h => h ▸ trimmed_trim a
  · intro h
    rw [trim, trimRight, trimLeft, h.front.dropWhile_eq, h.back.dropWhile_eq, List.reverse_reverse]

/-- Only the outer ends of texts put together matter. -/
theorem Trimmed.append (ha : Trimmed a) (hb : Trimmed b) (hane : a ≠ []) (hbne : b ≠ [])
    (sep : Text) : Trimmed (a ++ sep ++ b) where
  front := by
    rw [List.append_assoc]
    exact (stops_append hane).mpr ha.front
  back := by
    rw [List.reverse_append]
    exact (stops_append (mt List.reverse_eq_nil_iff.mp hbne)).mpr hb.back

theorem trimmed_intercalate (h : ∀ l ∈ ls, l ≠ [] ∧ Trimmed l) (sep : Text) :
    Trimmed (List.intercalate sep ls) := by
  have hrow : ls ≠ [] → List.intercalate sep ls ≠ [] ∧ Trimmed (List.intercalate sep ls) := by
    intro hls
    induction ls with
    | nil => exact absurd rfl hls
    | cons l ls ih =>
      obtain ⟨⟨hl, hltrim⟩, hrest⟩ := List.forall_mem_cons.mp h
      by_cases hne : ls = []
      · subst hne
        rw [List.intercalate_singleton]
        exact ⟨hl, hltrim⟩
      · obtain ⟨hrne, hrtrim⟩ := ih hrest hne
        rw [intercalate_cons hne]
        exact ⟨by simp [hl], hltrim.append hrtrim hl hrne sep⟩
  by_cases hls : ls = []
  · subst hls
    exact trimmed_nil
  · exact (hrow hls).2

end Text

/-! ## Well-formed catalogues -/

/-- A word is what a name is read as. -/
def IsWord (w : Text) : Prop := w ≠ [] ∧ ∀ c ∈ w, isNameChar c = true

/-- A parameter as it can be read: before the closing quote stands no backslash. -/
structure Param.WellFormed (p : Param) : Prop where
  name : IsWord p.name
  value : p.value.getLast? ≠ some '\\'

structure Attribute.WellFormed (a : Attribute) : Prop where
  name : IsWord a.name
  params : ∀ p ∈ a.params, p.WellFormed

/-- A field as it can be read: its documentation is one line, without blanks at its ends. -/
structure Field.WellFormed (f : Field) : Prop where
  name : IsWord f.name
  type : IsWord f.type
  line : '\n' ∉ f.doc
  trimmed : Text.trim f.doc = f.doc

structure Record.WellFormed (x : Record) : Prop where
  name : IsWord x.name
  fields : ∀ f ∈ x.fields, f.WellFormed

structure Entry.WellFormed (e : Entry) : Prop where
  tag : e.tag.WellFormed
  record : e.record.WellFormed

/-- **A catalogue as it can be read.** -/
def Catalog.WellFormed (c : Catalog) : Prop := ∀ e ∈ c, e.WellFormed

section Decidable

instance (w : Text) : Decidable (IsWord w) :=
  decidable_of_iff (w ≠ [] ∧ w.all isNameChar = true) (and_congr_right fun _ => List.all_eq_true)

instance (p : Param) : Decidable p.WellFormed :=
  decidable_of_iff (IsWord p.name ∧ p.value.getLast? ≠ some '\\')
    ⟨fun h => ⟨h.1, h.2⟩, fun h => ⟨h.name, h.value⟩⟩

instance (a : Attribute) : Decidable a.WellFormed :=
  decidable_of_iff (IsWord a.name ∧ ∀ p ∈ a.params, p.WellFormed)
    ⟨fun h => ⟨h.1, h.2⟩, fun h => ⟨h.name, h.params⟩⟩

instance (f : Field) : Decidable f.WellFormed :=
  decidable_of_iff (IsWord f.name ∧ IsWord f.type ∧ '\n' ∉ f.doc ∧ Text.trim f.doc = f.doc)
    ⟨fun h => ⟨h.1, h.2.1, h.2.2.1, h.2.2.2⟩, fun h => ⟨h.name, h.type, h.line, h.trimmed⟩⟩

instance (x : Record) : Decidable x.WellFormed :=
  decidable_of_iff (IsWord x.name ∧ ∀ f ∈ x.fields, f.WellFormed)
    ⟨fun h => ⟨h.1, h.2⟩, fun h => ⟨h.name, h.fields⟩⟩

instance (e : Entry) : Decidable e.WellFormed :=
  decidable_of_iff (e.tag.WellFormed ∧ e.record.WellFormed)
    ⟨fun h => ⟨h.1, h.2⟩, fun h => ⟨h.tag, h.record⟩⟩

instance (c : Catalog) : Decidable c.WellFormed :=
  inferInstanceAs (Decidable (∀ e ∈ c, e.WellFormed))

end Decidable

/-! ## What is read is well-formed -/

/-- Only backslashes before another character are dropped. -/
theorem Literal.getLast?_value (raw : Text) : (value raw).getLast? = raw.getLast? := by
  fun_induction value raw with
  | case1 rest ih => rw [List.getLast?_cons_cons, List.getLast?_cons, List.getLast?_cons, ih]
  | case2 c rest hnot ih => rw [List.getLast?_cons, List.getLast?_cons, ih]
  | case3 => rfl

namespace Language

variable {t r : Text}

theorem Star.forall_mem {α : Type} {P : α → Phrase} {Q : α → Prop} {xs : List α}
    (h : Star P xs t r) (hP : ∀ {x t r}, P x t r → Q x) : ∀ x ∈ xs, Q x := by
  induction h with
  | nil t => exact List.forall_mem_nil Q
  | cons head tail ih => exact List.forall_mem_cons.mpr ⟨hP head, ih⟩

theorem list_forall_mem {α : Type} {opening close : Char} {P : α → Phrase} {Q : α → Prop}
    {xs : List α} (h : list opening P close xs t r) (hP : ∀ {x t r}, P x t r → Q x) :
    ∀ x ∈ xs, Q x := by
  obtain ⟨_, -, _, -, _, hrow, -⟩ := h
  exact hrow.forall_mem fun ⟨_, hx, _⟩ => hP hx

theorem word.isWord {w : Text} (h : word w t r) : IsWord w := ⟨h.2, h.1.all⟩

/-- **A literal does not stand for a text that ends in a backslash**: it would not be closed. -/
theorem getLast?_ne_of_literal {v : Text} (h : literal v t r) : v.getLast? ≠ some '\\' := by
  obtain ⟨raw, -, hraw, rfl⟩ := h
  rw [Literal.getLast?_value]
  exact hraw.last

theorem wellFormed_of_param {p : Param} (h : param p t r) : p.WellFormed := by
  obtain ⟨_, hname, _, -, _, -, _, -, _, hvalue, -⟩ := h
  exact ⟨hname.isWord, getLast?_ne_of_literal hvalue⟩

theorem wellFormed_of_tag {a : Attribute} (h : tag a t r) : a.WellFormed := by
  obtain ⟨_, -, _, -, _, -, _, -, _, hname, _, -, _, hparams, -⟩ := h
  exact ⟨hname.isWord, list_forall_mem hparams wellFormed_of_param⟩

/-- **Lines of documentation add up to one line**, which is trimmed because each of them is. -/
theorem oneLine_docOfLines {lines : List Text} (h : ∀ line ∈ lines, '\n' ∉ line) :
    '\n' ∉ Scan.docOfLines (lines.map Text.trim) ∧
      Text.Trimmed (Scan.docOfLines (lines.map Text.trim)) := by
  constructor
  · intro hbreak
    obtain hbreak | ⟨l, hl, hbreak⟩ := mem_intercalate hbreak
    · exact absurd hbreak (by decide)
    · obtain ⟨line, hline, rfl⟩ := List.mem_map.mp (List.mem_of_mem_filter hl)
      exact h line hline ((Text.trim_isInfix line).subset hbreak)
  · refine Text.trimmed_intercalate (fun l hl => ?_) [' ']
    obtain ⟨hl, hne⟩ := List.mem_filter.mp hl
    obtain ⟨line, -, rfl⟩ := List.mem_map.mp hl
    exact ⟨of_decide_eq_true hne, Text.trimmed_trim line⟩

theorem doc_of_lines {m : Marker} {lines : List Text} (h : Star (docLine m) lines t r) :
    '\n' ∉ Scan.docOfLines (lines.map Text.trim) ∧
      Text.Trimmed (Scan.docOfLines (lines.map Text.trim)) :=
  oneLine_docOfLines (h.forall_mem fun hline => hline.1)

theorem wellFormed_of_field {d : Dialect} {f : Field} (h : field d f t r) : f.WellFormed := by
  obtain ⟨lines, hdoc, _, -, _, hlines, _, -, _, -, _, -, _, hname, _, -, _, -, _, -, _, htype, -⟩ :=
    h
  obtain ⟨hline, htrimmed⟩ := doc_of_lines hlines
  rw [← hdoc] at hline htrimmed
  exact ⟨hname.isWord, htype.isWord, hline, Text.trim_eq_self_iff.mpr htrimmed⟩

theorem wellFormed_of_record {d : Dialect} {x : Record} (h : record d x t r) : x.WellFormed := by
  obtain ⟨_, -, _, -, _, -, _, -, _, hname, _, -, _, hfields, -⟩ := h
  exact ⟨hname.isWord, list_forall_mem hfields wellFormed_of_field⟩

theorem wellFormed_of_declaration {d : Dialect} {e : Entry} (h : declaration d e t r) :
    e.WellFormed := by
  obtain ⟨_, htag, _, -, _, hrecord, -⟩ := h
  exact ⟨wellFormed_of_tag htag, wellFormed_of_record hrecord⟩

/-- **Whatever is derived is well-formed.** -/
theorem wellFormed_of_document {d : Dialect} {c : Catalog} (h : document d c t r) :
    c.WellFormed := by
  obtain ⟨_, -, _, hrow, -⟩ := h
  exact hrow.forall_mem fun ⟨_, he, _⟩ => wellFormed_of_declaration he

end Language

end ErrorCatalog
