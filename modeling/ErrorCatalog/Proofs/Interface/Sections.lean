import ErrorCatalog.Proofs.Interface.Agreement
import ErrorCatalog.Proofs.Interface.Containment

/-!
# Proofs/Interface/Sections — a module is cut into its sections again

Sections stand apart by an empty line, so a module can be cut where two line feeds meet if no line
of a section is empty.  None is (`FillsLine`): what is rendered on a line closes it with a character
of its own, and a line of a comment keeps its star when its end is trimmed.  Cutting a module
(`Text.cut`) gives back its interfaces, its union and its enumeration (`Style.cut_render`).
-/

namespace ErrorCatalog

/-! ## Cutting -/

namespace Text

variable {mark p t : Text} {ps : List Text}

/-- **The pieces of a text between the marks `mark`**, each mark as early as may be; the empty mark
cuts nothing. -/
def cut (mark t : Text) : List Text :=
  if _hmark : mark = [] then [t]
  else
    match _hcut : t.dropInfix? mark with
    | none => [t]
    | some (piece, rest) => piece :: cut mark rest
termination_by t.length
decreasing_by
  obtain ⟨⟨mark', rfl, hbeq⟩, -⟩ := List.dropInfix?_eq_some_iff.mp _hcut
  obtain rfl := eq_of_beq hbeq
  have hpos := List.length_pos_iff.mpr _hmark
  simp only [List.length_append]
  omega

theorem cut_of_none (h : t.dropInfix? mark = none) : cut mark t = [t] := by
  rw [cut]
  split
  · rfl
  · split
    · rfl
    · next hcut => cases h.symm.trans hcut

theorem cut_of_some (hmark : mark ≠ []) {piece rest : Text}
    (h : t.dropInfix? mark = some (piece, rest)) : cut mark t = piece :: cut mark rest := by
  rw [cut, dif_neg hmark]
  split
  · next hcut => cases h.symm.trans hcut
  · next hcut =>
    obtain ⟨rfl, rfl⟩ := Prod.mk.inj (Option.some.inj (h.symm.trans hcut))
    rfl

/-- What divides sections. -/
def emptyLine : Text := "\n\n".toList

/-- Two line feeds in a row leave an empty line, so they stand **behind a text without empty lines**
and not earlier. -/
theorem length_le_of_eq_append (hp : [] ∉ lines p) {rest p' rest' : Text}
    (h : p ++ rest = p' ++ emptyLine ++ rest') : p.length ≤ p'.length := by
  by_contra hlt
  have hfront : p' ++ ['\n'] <+: p := by
    have hwhole : p' ++ ['\n'] <+: p ++ rest := ⟨'\n' :: rest', by simp [h, emptyLine]⟩
    refine List.prefix_of_prefix_length_le hwhole (List.prefix_append p rest) ?_
    simp only [List.length_append, List.length_singleton]
    omega
  obtain ⟨q, rfl⟩ := hfront
  have hlines : lines (p' ++ ['\n'] ++ q) = lines p' ++ lines q := by
    rw [List.append_assoc, List.singleton_append, lines, pieces_append_cons]
    rfl
  rw [hlines, List.mem_append, not_or] at hp
  cases q with
  | nil => exact hp.2 (List.mem_cons_self ..)
  | cons a q =>
    have hmark : a :: (q ++ rest) = '\n' :: rest' := by simpa [emptyLine] using h
    obtain rfl := (List.cons.inj hmark).1
    exact hp.2 (List.mem_cons_self ..)

theorem dropInfix?_emptyLine_append (hp : [] ∉ lines p) (rest : Text) :
    (p ++ emptyLine ++ rest).dropInfix? emptyLine = some (p, rest) := by
  refine List.dropInfix?_eq_some_iff.mpr ⟨⟨emptyLine, rfl, beq_self_eq_true _⟩, ?_⟩
  intro p' mark' rest' heq hbeq
  obtain rfl := eq_of_beq hbeq
  rw [List.append_assoc] at heq
  exact length_le_of_eq_append hp heq

theorem dropInfix?_emptyLine_eq_none (hp : [] ∉ lines p) : p.dropInfix? emptyLine = none := by
  refine Option.eq_none_iff_forall_ne_some.mpr fun ⟨p', rest⟩ h => ?_
  obtain ⟨⟨mark', heq, hbeq⟩, -⟩ := List.dropInfix?_eq_some_iff.mp h
  obtain rfl := eq_of_beq hbeq
  have hle := length_le_of_eq_append hp ((List.append_nil p).trans heq)
  have hmark : emptyLine.length = 2 := rfl
  rw [heq, List.length_append, List.length_append, hmark] at hle
  omega

/-- **Texts without empty lines are cut at the empty lines between them.** -/
theorem cut_intercalate (hps : ∀ p ∈ ps, [] ∉ lines p) (hne : ps ≠ []) :
    cut emptyLine (List.intercalate emptyLine ps) = ps := by
  induction ps with
  | nil => exact absurd rfl hne
  | cons p ps ih =>
    obtain ⟨hp, hps⟩ := List.forall_mem_cons.mp hps
    by_cases hnil : ps = []
    · subst hnil
      rw [List.intercalate_singleton, cut_of_none (dropInfix?_emptyLine_eq_none hp)]
    · rw [intercalate_cons hnil, cut_of_some (by decide) (dropInfix?_emptyLine_append hp _),
        ih hps hnil]

end Text

/-! ## Lines that are filled -/

/-- A text that fills one line: it is not empty and has no line feed. -/
structure FillsLine (l : Text) : Prop where
  ne_nil : l ≠ []
  line_feed_not_mem : '\n' ∉ l

theorem FillsLine.append {a b : Text} (ha : '\n' ∉ a) (hb : FillsLine b) : FillsLine (a ++ b) :=
  ⟨List.append_ne_nil_of_right_ne_nil a hb.ne_nil, List.not_mem_append ha hb.line_feed_not_mem⟩

/-- Filled lines make up a text without empty lines. -/
theorem Text.nil_not_mem_lines_unlines {ls : List Text} (hls : ∀ l ∈ ls, FillsLine l)
    (hne : ls ≠ []) : [] ∉ lines (unlines ls) := by
  rw [lines_unlines (fun l hl => (hls l hl).line_feed_not_mem) hne]
  exact fun h => (hls [] h).ne_nil rfl

namespace Comment

variable {indent l t : Text}

/-- **The star of a comment line stays** when the line is trimmed. -/
theorem line_ne_nil (indent t : Text) : line indent t ≠ [] := by
  intro h
  have hblank := List.rdropWhile_eq_nil_iff.mp h '*' (by simp)
  exact absurd hblank (by decide)

/-- **A block is made of filled lines**, whatever it documents. -/
theorem fillsLine_of_mem_block (hindent : '\n' ∉ indent) (h : l ∈ block indent t) :
    FillsLine l := by
  rw [block, List.cons_append, List.mem_cons, List.mem_append, List.mem_map,
    List.mem_singleton] at h
  obtain rfl | ⟨x, hx, rfl⟩ | rfl := h
  · exact .append hindent ⟨by decide, by decide⟩
  · have hfront : line indent x <+: indent ++ " * ".toList ++ x := List.rdropWhile_prefix isBlank _
    have hmark : '\n' ∉ indent ++ " * ".toList := List.not_mem_append hindent (by decide)
    have hfeed := List.not_mem_append hmark (Text.not_mem_of_mem_pieces hx)
    exact ⟨line_ne_nil indent x, fun hmem => hfeed (hfront.subset hmem)⟩
  · exact .append hindent ⟨by decide, by decide⟩

theorem fillsLine_of_mem_blockIfAny (hindent : '\n' ∉ indent) (h : l ∈ blockIfAny indent t) :
    FillsLine l := by
  rw [blockIfAny] at h
  split at h
  · cases h
  · exact fillsLine_of_mem_block hindent h

end Comment

/-! ## The lines of a module -/

/-- The names of an entry and of its fields break no line. -/
structure Entry.IsOneLine (e : Entry) : Prop where
  name : '\n' ∉ e.record.name
  fields : ∀ f ∈ e.record.fields, '\n' ∉ f.name

namespace Style

/-- A style none of whose texts that are rendered breaks a line. -/
structure IsOneLine (s : Style) : Prop where
  types : ∀ type mapped, s.types.get? type = some mapped → '\n' ∉ mapped
  fallback : '\n' ∉ s.fallback.text
  base : ∀ base ∈ s.base, '\n' ∉ base
  unionName : '\n' ∉ s.unionName
  enumName : '\n' ∉ s.enumName
  indent : '\n' ∉ s.indent

variable {s : Style} {c : Catalog} {e : Entry} {f : Field} {indent l : Text} {ls : List Text}

theorem IsOneLine.typeText (hs : s.IsOneLine) (type : Text) : '\n' ∉ s.typeText type := by
  rw [Style.typeText, mapType]
  split
  · next mapped hmapped => exact hs.types type mapped hmapped
  · exact hs.fallback

theorem IsOneLine.fieldText (hs : s.IsOneLine) (hindent : '\n' ∉ indent) (hname : '\n' ∉ f.name)
    (h : l ∈ s.fieldText indent f) : FillsLine l := by
  obtain h | h := List.mem_append.mp h
  · exact Comment.fillsLine_of_mem_blockIfAny hindent h
  · obtain rfl := List.mem_singleton.mp h
    have hcolon := List.not_mem_append (List.not_mem_append hindent hname)
      (show '\n' ∉ ": ".toList by decide)
    exact .append (List.not_mem_append hcolon (hs.typeText f.type)) ⟨by decide, by decide⟩

theorem IsOneLine.metaText (hs : s.IsOneLine) {fields : List Field}
    (hnames : ∀ f ∈ fields, '\n' ∉ f.name) (h : l ∈ s.metaText fields) : FillsLine l := by
  rw [Style.metaText] at h
  split at h
  · obtain rfl := List.mem_singleton.mp h
    exact .append hs.indent ⟨by decide, by decide⟩
  · rw [List.cons_append, List.mem_cons, List.mem_append, List.mem_flatten,
      List.mem_singleton] at h
    obtain rfl | ⟨group, hgroup, hl⟩ | rfl := h
    · exact .append hs.indent ⟨by decide, by decide⟩
    · obtain ⟨f, hf, rfl⟩ := List.mem_map.mp hgroup
      exact hs.fieldText (List.not_mem_append hs.indent hs.indent) (hnames f hf) hl
    · exact .append hs.indent ⟨by decide, by decide⟩

theorem IsOneLine.interfaceText (hs : s.IsOneLine) (he : e.IsOneLine)
    (h : l ∈ s.interfaceText e) : FillsLine l := by
  simp only [Style.interfaceText, List.mem_append, List.mem_cons, List.not_mem_nil,
    or_false] at h
  obtain (hmessage | rfl | rfl | hmeta) | rfl := h
  · exact Comment.fillsLine_of_mem_blockIfAny List.not_mem_nil hmessage
  · exact ⟨List.append_ne_nil_of_right_ne_nil _ (by decide),
      line_feed_not_mem_headLine hs.base he.name⟩
  · exact ⟨List.append_ne_nil_of_right_ne_nil _ (by decide),
      line_feed_not_mem_codeLine hs.indent⟩
  · exact hs.metaText he.fields hmeta
  · exact ⟨by decide, by decide⟩

theorem IsOneLine.enumText (hs : s.IsOneLine) (he : e.IsOneLine) (h : s.enumText e = some l) :
    FillsLine l := by
  obtain ⟨code, -, rfl⟩ := Option.map_eq_some_iff.mp h
  have hname := List.not_mem_append (List.not_mem_append hs.indent he.name)
    (show '\n' ∉ " = ".toList by decide)
  exact .append (List.not_mem_append hname (Json.line_feed_not_mem_literal code))
    ⟨by decide, by decide⟩

theorem IsOneLine.union (hs : s.IsOneLine) (hc : ∀ e ∈ c, e.IsOneLine) :
    FillsLine (s.union c) := by
  have hopen := List.not_mem_append (List.not_mem_append
    (show '\n' ∉ "export type ".toList by decide) hs.unionName) (show '\n' ∉ " = ".toList by decide)
  refine .append (List.not_mem_append hopen ?_) ⟨by decide, by decide⟩
  split
  · decide
  · intro h
    obtain hbar | ⟨name, hname, hfeed⟩ := mem_intercalate h
    · exact absurd hbar (by decide)
    · obtain ⟨e, he, rfl⟩ := List.mem_map.mp hname
      exact (hc e he).name hfeed

theorem IsOneLine.enumerationText (hs : s.IsOneLine) (hc : ∀ e ∈ c, e.IsOneLine)
    (h : l ∈ s.enumerationText c) : FillsLine l := by
  rw [Style.enumerationText, List.cons_append, List.mem_cons, List.mem_append,
    List.mem_filterMap, List.mem_singleton] at h
  obtain rfl | ⟨e, he, hl⟩ | rfl := h
  · have hopen := List.not_mem_append (show '\n' ∉ "export enum ".toList by decide) hs.enumName
    exact .append hopen ⟨by decide, by decide⟩
  · exact hs.enumText (hc e he) hl
  · exact ⟨by decide, by decide⟩

/-- **No line of a section is empty**, and each is one line. -/
theorem IsOneLine.sectionTexts (hs : s.IsOneLine) (hc : ∀ e ∈ c, e.IsOneLine)
    (hls : ls ∈ s.sectionTexts c) (hl : l ∈ ls) : FillsLine l := by
  simp only [Style.sectionTexts, List.mem_append, List.mem_map, List.mem_cons,
    List.not_mem_nil, or_false] at hls
  obtain ⟨e, he, rfl⟩ | rfl | rfl := hls
  · exact hs.interfaceText (hc e he) hl
  · obtain rfl := List.mem_singleton.mp hl
    exact hs.union hc
  · exact hs.enumerationText hc hl

/-! ## The sections of a module -/

/-- **A module is cut into its sections.**  Without the line feed at its end it falls, at the empty
lines, into the interfaces of its error types in order, the union and the enumeration; and no
section has an empty line.  Messages, codes and documentation may be any texts. -/
theorem cut_render (s : Style) (c : Catalog) (hs : s.IsOneLine) (hc : ∀ e ∈ c, e.IsOneLine) :
    let parts := c.map (fun e => (s.interface e).value) ++ [s.union c, (s.enumeration c).value]
    (∃ t, (s.render c).value = t ++ ['\n'] ∧ Text.cut Text.emptyLine t = parts) ∧
      parts.length = c.length + 2 ∧ ∀ part ∈ parts, [] ∉ Text.lines part := by
  intro parts
  have hparts : parts = (s.sectionTexts c).map Text.unlines := by
    rw [← value_sections, sections, Logged.value_bind, Logged.value_bind, Logged.value_mapM]
    rfl
  have hfilled : ∀ part ∈ parts, [] ∉ Text.lines part := by
    intro part hpart
    rw [hparts] at hpart
    obtain ⟨ls, hls, rfl⟩ := List.mem_map.mp hpart
    exact Text.nil_not_mem_lines_unlines (fun l hl => hs.sectionTexts hc hls hl)
      (s.ne_nil_of_mem_sectionTexts hls)
  refine ⟨⟨List.intercalate Text.emptyLine parts, ?_, ?_⟩, ?_, hfilled⟩
  · rw [render, Logged.value_bind, Logged.value_pure, value_sections, hparts]
    rfl
  · exact Text.cut_intercalate hfilled (List.append_ne_nil_of_right_ne_nil _ (by simp))
  · simp [parts]

/-- A message of empty and of blank lines, a documentation that ends in line feeds, and a code with
two of them, at no indentation. -/
theorem cut_render_blank :
    let s : Style := { indent := [] }
    let c : Catalog := [
      ⟨⟨"e".toList, [⟨"message".toList, "\n\n \t\n".toList⟩, ⟨"code".toList, "\n\n".toList⟩]⟩,
        ⟨"A".toList, [⟨"x".toList, "\n\n".toList, "d\n\n".toList⟩]⟩⟩]
    let parts := c.map (fun e => (s.interface e).value) ++ [s.union c, (s.enumeration c).value]
    s.IsOneLine ∧ (∀ e ∈ c, e.IsOneLine) ∧
      (∃ t, (s.render c).value = t ++ ['\n'] ∧ Text.cut Text.emptyLine t = parts) ∧
      parts.length = 3 ∧ ∀ part ∈ parts, [] ∉ Text.lines part := by
  intro s c parts
  have hs : s.IsOneLine := by
    refine ⟨fun type mapped h => ?_, by decide, ?_, by decide, by decide, by decide⟩
    · have hmem := Table.mem_of_get? h
      have hall : ∀ entry ∈ s.types, '\n' ∉ entry.2 := by decide
      exact hall _ hmem
    · intro base h
      obtain rfl := Option.some.inj h
      decide
  have hc : ∀ e ∈ c, e.IsOneLine := by
    refine List.forall_mem_singleton.mpr ⟨by decide, List.forall_mem_singleton.mpr (by decide)⟩
  exact ⟨hs, hc, cut_render s c hs hc⟩

end Style

end ErrorCatalog
