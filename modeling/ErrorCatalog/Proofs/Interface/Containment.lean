import ErrorCatalog.Proofs.Interface.Erasure
import ErrorCatalog.Scan.Dialect
import Mathlib.Data.List.Forall2

/-!
# Proofs/Interface/Containment — comments and literals keep what they hold

Messages, codes and documentation are arbitrary texts and end up in generated code.  Two catalogues
with the same names and types (`Entry.SameOutline`), whatever those texts are, are rendered to
modules that differ inside comments and literals only (`Style.erase_render`).  The proof follows the
lines of a module: `Alike` holds of texts that leave the same code, and passes from the parts of a
line to the line, from lines to sections (`AlikeLines`) and from sections to the module.
-/

namespace ErrorCatalog

/-- What is found in a table was entered in it. -/
theorem Table.mem_of_get? {t : Table} {key value : Text} (h : t.get? key = some value) :
    (key, value) ∈ t := by
  obtain ⟨before, after, heq, -⟩ := List.lookup_eq_some_iff.mp h
  have hmem : (key, value) ∈ t.reverse := heq ▸ List.mem_append_right _ (List.mem_cons_self ..)
  exact List.mem_reverse.mp hmem

/-- **Texts that leave the same code**, both from the code to the code. -/
def Alike (a b : Text) : Prop := ∃ x, Erases a x ∧ Erases b x

section Alike

variable {a a' b b' x sep : Text} {ls ls' ks ks' : List Text}

theorem Erases.alike (ha : Erases a x) (hb : Erases b x) : Alike a b := ⟨x, ha, hb⟩

theorem IsPlain.alike (h : IsPlain a) : Alike a a := h.erases.alike h.erases

theorem alike_nil : Alike [] [] := erases_nil.alike erases_nil

theorem Alike.append (ha : Alike a a') (hb : Alike b b') : Alike (a ++ b) (a' ++ b') := by
  obtain ⟨x, hx, hx'⟩ := ha
  obtain ⟨y, hy, hy'⟩ := hb
  exact ⟨x ++ y, hx.append hy, hx'.append hy'⟩

/-- What is left is all code. -/
theorem Alike.erase_eq (h : Alike a b) :
    erase .code a = erase .code b ∧ (erase .code a).2 = .code := by
  obtain ⟨x, ha, hb⟩ := h
  have ha' := ha []
  have hb' := hb []
  rw [List.append_nil] at ha' hb'
  rw [ha', hb']
  exact ⟨rfl, rfl⟩

/-- **Lines that leave the same code**, each with its line feed behind it. -/
def AlikeLines (ls ls' : List Text) : Prop := Alike (Text.ended ls) (Text.ended ls')

theorem alikeLines_nil : AlikeLines [] [] := alike_nil

theorem AlikeLines.append (h : AlikeLines ls ls') (hk : AlikeLines ks ks') :
    AlikeLines (ls ++ ks) (ls' ++ ks') := by
  rw [AlikeLines, Text.ended_append, Text.ended_append]
  exact Alike.append h hk

theorem Alike.cons (h : Alike a b) (hl : AlikeLines ls ls') : AlikeLines (a :: ls) (b :: ls') := by
  have hbreak : IsPlain ['\n'] := by decide
  exact (h.append hbreak.alike).append hl

theorem Alike.singleton (h : Alike a b) : AlikeLines [a] [b] := h.cons alikeLines_nil

theorem alikeLines_of_forall₂ (h : List.Forall₂ Alike ls ls') : AlikeLines ls ls' := by
  induction h with
  | nil => exact alikeLines_nil
  | cons head tail ih => exact head.cons ih

theorem alikeLines_flatten {gs gs' : List (List Text)} (h : List.Forall₂ AlikeLines gs gs') :
    AlikeLines gs.flatten gs'.flatten := by
  induction h with
  | nil => exact alikeLines_nil
  | cons head tail ih => exact head.append ih

theorem alike_intercalate (hsep : IsPlain sep) (h : List.Forall₂ Alike ls ls') :
    Alike (List.intercalate sep ls) (List.intercalate sep ls') := by
  induction h with
  | nil => exact alike_nil
  | @cons a b ls ls' head tail ih =>
    cases tail with
    | nil => simpa using head
    | cons _ _ =>
      rw [List.intercalate_cons_cons, List.intercalate_cons_cons]
      exact (head.append hsep.alike).append ih

end Alike

/-! ## Catalogues with one outline -/

/-- Fields that differ at most in the words of their documentation. -/
structure Field.SameOutline (f g : Field) : Prop where
  name : f.name = g.name
  type : f.type = g.type
  doc : f.doc = [] ↔ g.doc = []

/-- **Entries with the same names and types**, which agree on what there is to be rendered. -/
structure Entry.SameOutline (s : Style) (e e' : Entry) : Prop where
  name : e.record.name = e'.record.name
  fields : List.Forall₂ Field.SameOutline e.record.fields e'.record.fields
  code : (e.tag.value? s.codeParam).isSome = (e'.tag.value? s.codeParam).isSome
  message : s.message e = [] ↔ s.message e' = []

/-- Both have a code, or neither has. -/
theorem Entry.SameOutline.code_cases {s : Style} {e e' : Entry} (h : e.SameOutline s e') :
    (e.tag.value? s.codeParam = none ∧ e'.tag.value? s.codeParam = none) ∨
      ∃ code code', e.tag.value? s.codeParam = some code ∧
        e'.tag.value? s.codeParam = some code' := by
  have hcode := h.code
  cases hc : e.tag.value? s.codeParam with
  | none =>
    rw [hc, eq_comm, Option.isSome_none, Option.isSome_eq_false_iff,
      Option.isNone_iff_eq_none] at hcode
    exact .inl ⟨rfl, hcode⟩
  | some code =>
    rw [hc, eq_comm, Option.isSome_some, Option.isSome_iff_exists] at hcode
    obtain ⟨code', hcode'⟩ := hcode
    exact .inr ⟨code, code', rfl, hcode'⟩

/-- The names of an entry and of its fields cannot be taken for anything else. -/
structure Entry.IsPlain (e : Entry) : Prop where
  name : ErrorCatalog.IsPlain e.record.name
  fields : ∀ f ∈ e.record.fields, ErrorCatalog.IsPlain f.name

namespace Style

/-- A style all whose texts lead from the code to the code. -/
structure IsContained (s : Style) : Prop where
  indent : IsMargin s.indent
  types : ∀ entry ∈ s.types, Alike entry.2 entry.2
  fallback : Alike s.fallback.text s.fallback.text
  base : ∀ base ∈ s.base, Alike base base
  unionName : Alike s.unionName s.unionName
  enumName : Alike s.enumName s.enumName

variable {s : Style} {e e' : Entry} {f g : Field} {c c' : Catalog} {indent t t' : Text}

/-! ## Lines -/

theorem alike_blockIfAny (h : IsMargin indent) (ht : t = [] ↔ t' = []) :
    AlikeLines (Comment.blockIfAny indent t) (Comment.blockIfAny indent t') := by
  rw [Comment.blockIfAny, Comment.blockIfAny]
  by_cases hnil : t = []
  · rw [if_pos hnil, if_pos (ht.mp hnil)]
    exact alikeLines_nil
  · rw [if_neg hnil, if_neg (mt ht.mpr hnil)]
    exact (h.erases_block t).alike (h.erases_block t')

theorem IsContained.typeText (hs : s.IsContained) (type : Text) :
    Alike (s.typeText type) (s.typeText type) := by
  rw [Style.typeText, mapType]
  split
  · next mapped hmapped => exact hs.types _ (Table.mem_of_get? hmapped)
  · exact hs.fallback

theorem IsContained.fieldText (hs : s.IsContained) (hindent : IsMargin indent)
    (hname : IsPlain f.name) (h : f.SameOutline g) :
    AlikeLines (s.fieldText indent f) (s.fieldText indent g) := by
  refine (alike_blockIfAny hindent h.doc).append (Alike.singleton ?_)
  rw [← h.name, ← h.type]
  have hcolon : IsPlain ": ".toList := by decide
  have hend : IsPlain ";".toList := by decide
  exact (((hindent.isPlain.alike.append hname.alike).append hcolon.alike).append
    (hs.typeText f.type)).append hend.alike

theorem IsContained.metaText (hs : s.IsContained) {fs gs : List Field}
    (hnames : ∀ f ∈ fs, IsPlain f.name) (h : List.Forall₂ Field.SameOutline fs gs) :
    AlikeLines (s.metaText fs) (s.metaText gs) := by
  have hmargin := hs.indent.isPlain.alike
  have hdouble := hs.indent.append hs.indent
  have hempty : IsPlain "meta: \x7b\x7d;".toList := by decide
  have hopen : IsPlain "meta: \x7b".toList := by decide
  have hclose : IsPlain "\x7d;".toList := by decide
  have hgroups : List.Forall₂ AlikeLines (fs.map (s.fieldText (s.indent ++ s.indent)))
      (gs.map (s.fieldText (s.indent ++ s.indent))) := by
    rw [List.forall₂_map_left_iff, List.forall₂_map_right_iff]
    exact ((List.forall₂_and_left fs gs).mpr ⟨hnames, h⟩).imp fun f g hfg =>
      hs.fieldText hdouble hfg.1 hfg.2
  cases h with
  | nil => exact (hmargin.append hempty.alike).singleton
  | cons head tail =>
    have hfields := (hmargin.append hopen.alike).cons (alikeLines_flatten hgroups)
    exact hfields.append (hmargin.append hclose.alike).singleton

theorem IsContained.headLine (hs : s.IsContained) (ht : IsPlain t) :
    Alike (s.headLine t) (s.headLine t) := by
  have hopen : IsPlain "export interface ".toList := by decide
  have hextends : IsPlain " extends ".toList := by decide
  have hend : IsPlain " \x7b".toList := by decide
  refine ((hopen.alike.append ht.alike).append ?_).append hend.alike
  split
  · exact alike_nil
  · next base hbase =>
    split
    · exact alike_nil
    · exact hextends.alike.append (hs.base base hbase)

/-- **A code is a literal, whatever it is.** -/
theorem codeType_alike (h : e.SameOutline s e') : Alike (s.codeType e) (s.codeType e') := by
  have hany : IsPlain "string".toList := by decide
  rw [codeType, codeType]
  obtain ⟨hc, hc'⟩ | ⟨code, code', hc, hc'⟩ := h.code_cases
  · rw [hc, hc']
    exact hany.alike
  · rw [hc, hc']
    exact (erases_literal code).alike (erases_literal code')

theorem IsContained.codeLine (hs : s.IsContained) (h : e.SameOutline s e') :
    Alike (s.codeLine e) (s.codeLine e') := by
  have hopen : IsPlain "code: ".toList := by decide
  have hend : IsPlain ";".toList := by decide
  exact ((hs.indent.isPlain.alike.append hopen.alike).append (codeType_alike h)).append hend.alike

/-! ## Sections -/

theorem IsContained.interfaceText (hs : s.IsContained) (he : e.IsPlain) (h : e.SameOutline s e') :
    AlikeLines (s.interfaceText e) (s.interfaceText e') := by
  have hend : IsPlain "\x7d".toList := by decide
  have hhead : Alike (s.headLine e.record.name) (s.headLine e'.record.name) :=
    h.name ▸ hs.headLine he.name
  have hbody := hhead.cons ((hs.codeLine h).cons (hs.metaText he.fields h.fields))
  exact ((alike_blockIfAny isMargin_nil h.message).append hbody).append hend.alike.singleton

/-- An error type has its line in the enumeration in both, or in neither. -/
theorem IsContained.enumText (hs : s.IsContained) (he : e.IsPlain) (h : e.SameOutline s e') :
    Option.Rel Alike (s.enumText e) (s.enumText e') := by
  rw [Style.enumText, Style.enumText, ← h.name]
  obtain ⟨hc, hc'⟩ | ⟨code, code', hc, hc'⟩ := h.code_cases
  · rw [hc, hc']
    exact .none
  · have hequals : IsPlain " = ".toList := by decide
    have hend : IsPlain ",".toList := by decide
    have hname := (hs.indent.isPlain.alike.append he.name.alike).append hequals.alike
    have hcode := (erases_literal code).alike (erases_literal code')
    rw [hc, hc']
    exact .some ((hname.append hcode).append hend.alike)

theorem IsContained.enumerationText (hs : s.IsContained)
    (h : List.Forall₂ (fun e e' => e.IsPlain ∧ e.SameOutline s e') c c') :
    AlikeLines (s.enumerationText c) (s.enumerationText c') := by
  have hopen : IsPlain "export enum ".toList := by decide
  have hbrace : IsPlain " \x7b".toList := by decide
  have hend : IsPlain "\x7d".toList := by decide
  have hmembers : List.Forall₂ Alike (c.filterMap s.enumText) (c'.filterMap s.enumText) :=
    List.rel_filterMap (fun _ _ he => hs.enumText he.1 he.2) h
  have hhead := (hopen.alike.append hs.enumName).append hbrace.alike
  exact (hhead.cons (alikeLines_of_forall₂ hmembers)).append hend.alike.singleton

theorem IsContained.union (hs : s.IsContained)
    (h : List.Forall₂ (fun e e' => e.IsPlain ∧ e.SameOutline s e') c c') :
    Alike (s.union c) (s.union c') := by
  have hopen : IsPlain "export type ".toList := by decide
  have hequals : IsPlain " = ".toList := by decide
  have hnever : IsPlain "never".toList := by decide
  have hbar : IsPlain " | ".toList := by decide
  have hend : IsPlain ";".toList := by decide
  have hnames : List.Forall₂ Alike c.names c'.names :=
    List.rel_map (fun _ _ he => he.2.name ▸ he.1.name.alike) h
  refine ((((hopen.alike.append hs.unionName).append hequals.alike).append ?_).append hend.alike)
  cases h with
  | nil => exact hnever.alike
  | cons _ _ => exact alike_intercalate hbar hnames

/-- **No section of a module lets out what is written into it.** -/
theorem IsContained.sectionTexts (hs : s.IsContained)
    (h : List.Forall₂ (fun e e' => e.IsPlain ∧ e.SameOutline s e') c c') :
    List.Forall₂ AlikeLines (s.sectionTexts c) (s.sectionTexts c') := by
  have hinterfaces : List.Forall₂ AlikeLines
      (c.map s.interfaceText) (c'.map s.interfaceText) := by
    rw [List.forall₂_map_left_iff, List.forall₂_map_right_iff]
    exact h.imp fun _ _ he => hs.interfaceText he.1 he.2
  exact List.rel_append hinterfaces
    (.cons (hs.union h).singleton (.cons (hs.enumerationText h) .nil))

theorem IsContained.render (hs : s.IsContained)
    (h : List.Forall₂ (fun e e' => e.IsPlain ∧ e.SameOutline s e') c c') :
    Alike (s.render c).value (s.render c').value := by
  have hbreak : IsPlain ['\n'] := by decide
  rw [value_render, value_render]
  refine alike_intercalate hbreak ?_
  rw [List.forall₂_map_left_iff, List.forall₂_map_right_iff]
  exact hs.sectionTexts h

/-! ## The default style -/

/-- Every text of the default style stays in the code, at any indentation by blanks and tabs. -/
theorem isContained_default (h : IsMargin indent) : ({ indent } : Style).IsContained where
  indent := h
  types := by
    have hstring : IsPlain "string".toList := by decide
    have hnumber : IsPlain "number".toList := by decide
    -- One type is yet to be found: a comment says so.
    have htodo : NoClose " @todo ".toList := by simp [noClose_cons, noClose_nil]
    have hobject : IsPlain " object".toList := by decide
    have hcomment := (erases_comment htodo).alike (erases_comment htodo)
    simp only [List.mem_cons, List.not_mem_nil, or_false]
    rintro _ (rfl | rfl | rfl)
    · exact hstring.alike
    · exact hnumber.alike
    · exact hcomment.append hobject.alike
  fallback := by
    have hunknown : IsPlain "unknown".toList := by decide
    exact hunknown.alike
  base := by
    have hbase : IsPlain "Prisma.PrismaClientKnownRequestError".toList := by decide
    rintro _ ⟨⟩
    exact hbase.alike
  unionName := by
    have hunion : IsPlain "PrismaErrors".toList := by decide
    exact hunion.alike
  enumName := by
    have henum : IsPlain "PrismaErrorCode".toList := by decide
    exact henum.alike

theorem isPlain_of_isNameChar (h : ∀ ch ∈ t, isNameChar ch) : IsPlain t := by
  intro ch hch
  have hname := h ch hch
  constructor <;> rintro rfl <;> exact absurd hname (by decide)

/-- **Comments and literals keep what they hold.**  Two catalogues that differ at most in messages,
codes and words of documentation, and agree on which of them there are, leave the same code when
rendered; and both modules end outside comments and literals. -/
theorem erase_render (hindent : IsMargin indent)
    (hnames : ∀ e ∈ c, (∀ ch ∈ e.record.name, isNameChar ch) ∧
      ∀ f ∈ e.record.fields, ∀ ch ∈ f.name, isNameChar ch)
    (h : List.Forall₂ (Entry.SameOutline { indent }) c c') :
    erase .code (({ indent } : Style).render c).value =
        erase .code (({ indent } : Style).render c').value ∧
      (erase .code (({ indent } : Style).render c).value).2 = .code := by
  have hplain : ∀ e ∈ c, e.IsPlain := by
    intro e he
    obtain ⟨hname, hfields⟩ := hnames e he
    exact ⟨isPlain_of_isNameChar hname, fun f hf => isPlain_of_isNameChar (hfields f hf)⟩
  have hpairs := (List.forall₂_and_left c c').mpr ⟨hplain, h⟩
  exact ((isContained_default hindent).render hpairs).erase_eq

/-- One error type with one field, around a code, a message and a documentation. -/
def wrapping (code message doc : Text) : Catalog :=
  [{ tag := { name := "e".toList
              params := [⟨"code".toList, code⟩, ⟨"message".toList, message⟩] }
     record := { name := "A_1".toList, fields := [⟨"x".toList, "u64".toList, doc⟩] } }]

/-- Texts that try to end the literal and the comments they stand in. -/
theorem erase_render_wrapping :
    erase .code (({ indent := ['\t'] } : Style).render
        (wrapping "\\\"; //".toList "*/ \" **//\n/".toList "**/ /*".toList)).value =
      erase .code (({ indent := ['\t'] } : Style).render
        (wrapping [] "m".toList "d".toList)).value ∧
      (erase .code (({ indent := ['\t'] } : Style).render
        (wrapping "\\\"; //".toList "*/ \" **//\n/".toList "**/ /*".toList)).value).2 = .code := by
  have hindent : IsMargin ['\t'] := List.forall_mem_singleton.mpr (.inr rfl)
  have hrecord : ∀ ch ∈ "A_1".toList, isNameChar ch := List.all_eq_true.mp rfl
  have hfield : ∀ ch ∈ "x".toList, isNameChar ch := List.all_eq_true.mp rfl
  refine erase_render hindent
    (List.forall_mem_singleton.mpr ⟨hrecord, List.forall_mem_singleton.mpr hfield⟩) (.cons ?_ .nil)
  exact
    { name := rfl
      fields := .cons ⟨rfl, rfl, by decide⟩ .nil
      code := by decide
      message := by decide }

end Style

end ErrorCatalog
