import ErrorCatalog.Proofs.Interface.Lines
import ErrorCatalog.Proofs.Json.Token
import ErrorCatalog.Proofs.Scan.WellFormed
import Mathlib.Data.List.Forall2

/-!
# Proofs/Interface/Agreement — interfaces, union and enumeration tell the same

The code of an error type is written twice, in its interface and in the enumeration, and its name
three times.  Read back from the lines of the sections, they agree (`Style.sections_agree`): a line
of the enumeration gives a name and a literal (`Member.ofLine?`), the literal stands for the code,
and the same literal is the type of the code in the interface.
-/

namespace ErrorCatalog

/-! ## Reading sections back -/

/-- The line directly behind the first that starts with `front`. -/
def Text.lineBehind? (front t : Text) : Option Text :=
  ((lines t).dropWhile fun l => !front.isPrefixOf l)[1]?

/-- What a line of an enumeration gives: a name, a literal, and the text that it stands for. -/
structure Member where
  name : Text
  literal : Text
  value : Text
  deriving DecidableEq, Repr

/-- The text that a JSON literal stands for; other JSON texts have none. -/
def Json.textOfLiteral? (literal : Text) : Option Text :=
  match Json.Value.ofText? literal with
  | some (.scalar (.text value)) => some value
  | _ => none

/-- **The member that a line gives**: behind the indentation the name, which ends at the first
equals sign between spaces, and a literal before the comma at the end. -/
def Member.ofLine? (indent line : Text) : Option Member := do
  let member ← line.dropPrefix? indent
  let (name, rest) ← member.dropInfix? " = ".toList
  let literal ← rest.dropSuffix? [',']
  return { name, literal, value := ← Json.textOfLiteral? literal }

/-- The member as a line. -/
def Member.line (indent : Text) (m : Member) : Text :=
  indent ++ m.name ++ " = ".toList ++ m.literal ++ ",".toList

namespace Style

variable (s : Style)

/-- The members that the lines of an enumeration give, without the first line and the last. -/
def members? (t : Text) : Option (List Member) :=
  (Text.lines t).tail.dropLast.mapM (Member.ofLine? s.indent)

/-- The names between the bars of a union, without the spaces around them. -/
def alternatives? (t : Text) : Option (List Text) := do
  let rest ← t.dropPrefix? ("export type ".toList ++ s.unionName ++ " = ".toList)
  let body ← rest.dropSuffix? [';']
  return Text.pieces '|' (body.filter (· ≠ ' '))

end Style

/-! ## Rows of items -/

/-- What is read of all that was written, if it is known of each. -/
theorem mapM_map_eq_some {α β γ : Type} {f : α → β} {g : β → Option γ} {k : α → γ} {xs : List α}
    (h : ∀ x ∈ xs, g (f x) = some (k x)) : (xs.map f).mapM g = some (xs.map k) := by
  induction xs with
  | nil => rfl
  | cons x xs ih =>
    obtain ⟨hx, hxs⟩ := List.forall_mem_cons.mp h
    rw [List.map_cons, List.mapM_cons, hx, ih hxs]
    rfl

/-- Items that give something, beside what they give. -/
theorem forall₂_filterMap {α β : Type} {R : α → β → Prop} {f : α → Option β} {xs : List α}
    (h : ∀ x ∈ xs, ∀ y, f x = some y → R x y) :
    List.Forall₂ R (xs.filter fun x => (f x).isSome) (xs.filterMap f) := by
  induction xs with
  | nil => exact .nil
  | cons x xs ih =>
    obtain ⟨hx, hxs⟩ := List.forall_mem_cons.mp h
    cases hfx : f x with
    | none =>
      rw [List.filter_cons_of_neg (by simp [hfx]), List.filterMap_cons_none hfx]
      exact ih hxs
    | some y =>
      rw [List.filter_cons_of_pos (by simp [hfx]), List.filterMap_cons_some hfx]
      exact .cons (hx y hfx) (ih hxs)

/-! ## Words and literals -/

theorem IsWord.not_mem {w : Text} {a : Char} (h : IsWord w) (ha : isNameChar a = false) : a ∉ w :=
  fun hmem => absurd (h.2 a hmem) (Bool.eq_false_iff.mp ha)

/-- **What starts with `a` is found first** behind a text without `a`. -/
theorem dropInfix?_eq_some {w : Text} {a : Char} (h : a ∉ w) (l t : Text) :
    (w ++ a :: l ++ t).dropInfix? (a :: l) = some (w, t) := by
  refine List.dropInfix?_eq_some_iff.mpr ⟨⟨a :: l, rfl, beq_self_eq_true _⟩, ?_⟩
  intro w' i t' heq hi
  obtain rfl := eq_of_beq hi
  refine Nat.le_of_not_lt fun hlt => h ?_
  have ha : (w ++ (a :: l ++ t))[w'.length]? = some a := by
    rw [← List.append_assoc, heq]
    simp
  rw [List.getElem?_append_left hlt] at ha
  exact List.mem_of_getElem? ha

namespace Json

theorem textOfLiteral?_literal (t : Text) : textOfLiteral? (literal t) = some t := by
  have hvalue : Value.ofText? (literal t) = some (.scalar (.text t)) :=
    Value.ofText?_eq_some_iff.mpr (spells_literal t).tokens?_eq
  rw [textOfLiteral?, hvalue]

theorem line_feed_not_mem_escapeChar (c : Char) : '\n' ∉ escapeChar c := by
  have hhex : ∀ n < 0x20, (Text.hex 4 n).all (· ≠ '\n') = true := by decide +kernel
  unfold escapeChar
  split_ifs with _ _ hfeed _ _ _ _ hcontrol
  -- The seven characters with an escape of their own.
  iterate 7 decide
  · have hdigits := List.all_eq_true.mp (hhex c.toNat hcontrol) '\n'
    exact List.not_mem_append (by decide) (by simpa using hdigits)
  · exact fun h => hfeed (List.mem_singleton.mp h).symm

/-- **A literal is one line.** -/
theorem line_feed_not_mem_literal (t : Text) : '\n' ∉ literal t := by
  have hcontent : '\n' ∉ t.flatMap escapeChar := fun h => by
    obtain ⟨c, -, hc⟩ := List.mem_flatMap.mp h
    exact line_feed_not_mem_escapeChar c hc
  exact List.not_mem_append (List.not_mem_cons_of_ne_of_not_mem (by decide) hcontent) (by decide)

end Json

/-- **The value under a name** is that of the last parameter of that name. -/
theorem Attribute.value?_eq (a : Attribute) (name : Text) :
    a.value? name = (a.params.filter (·.name = name)).getLast?.map Param.value := by
  rw [List.getLast?_filter, value?, table, Table.get?, ← List.map_reverse]
  induction a.params.reverse with
  | nil => rfl
  | cons p ps ih =>
    rw [List.map_cons, List.lookup_cons, List.find?_cons, ih]
    by_cases hp : p.name = name
    · simp [hp]
    · rw [beq_eq_false_iff_ne.mpr (Ne.symm hp), decide_eq_false hp]

/-! ## The enumeration -/

/-- **A member is read from its line.** -/
theorem Member.ofLine?_line {m : Member} (indent : Text) (hname : IsWord m.name)
    (hliteral : m.literal = Json.literal m.value) : ofLine? indent (m.line indent) = some m := by
  have hline : m.line indent = indent ++ (m.name ++ " = ".toList ++ (m.literal ++ ",".toList)) := by
    simp only [line, List.append_assoc]
  have hfront := List.dropPrefix?_append_of_beq
    (m.name ++ " = ".toList ++ (m.literal ++ ",".toList)) (beq_self_eq_true indent)
  have hequals : (m.name ++ " = ".toList ++ (m.literal ++ ",".toList)).dropInfix? " = ".toList =
      some (m.name, m.literal ++ ",".toList) := dropInfix?_eq_some (hname.not_mem rfl) _ _
  have hend : (m.literal ++ ",".toList).dropSuffix? [','] = some m.literal :=
    List.dropSuffix?_eq_some_iff.mpr ⟨[','], rfl, rfl⟩
  have hvalue : Json.textOfLiteral? m.literal = some m.value := by
    rw [hliteral, Json.textOfLiteral?_literal]
  simp only [ofLine?, hline, hfront, hequals, hend, hvalue, Option.bind_eq_bind,
    Option.bind_some, Option.pure_def]

namespace Style

variable {s : Style} {c : Catalog} {e : Entry}

/-- The member of an error type, if it has a code. -/
def member? (s : Style) (e : Entry) : Option Member :=
  (e.tag.value? s.codeParam).map fun code => ⟨e.record.name, Json.literal code, code⟩

/-- The members are the lines between the first and the last. -/
theorem enumerationText_eq (s : Style) (c : Catalog) : s.enumerationText c =
    ("export enum ".toList ++ s.enumName ++ " \x7b".toList) ::
      (c.filterMap s.member?).map (Member.line s.indent) ++ ["\x7d".toList] := by
  have hmember : s.enumText = fun e => (s.member? e).map (Member.line s.indent) := by
    funext e
    rw [enumText, member?, Option.map_map]
    rfl
  rw [enumerationText, hmember, ← List.map_filterMap]

theorem eq_of_mem_members {m : Member} (h : m ∈ c.filterMap s.member?) : ∃ e ∈ c,
    m.name = e.record.name ∧ m.literal = Json.literal m.value := by
  obtain ⟨e, he, hm⟩ := List.mem_filterMap.mp h
  obtain ⟨code, -, rfl⟩ := Option.map_eq_some_iff.mp hm
  exact ⟨e, he, rfl, rfl⟩

/-- **The lines of an enumeration are read as its members**, in order. -/
theorem members?_enumeration (hindent : '\n' ∉ s.indent) (henum : '\n' ∉ s.enumName)
    (hnames : ∀ e ∈ c, IsWord e.record.name) :
    s.members? (s.enumeration c).value = some (c.filterMap s.member?) := by
  have hmembers : ∀ m ∈ c.filterMap s.member?,
      IsWord m.name ∧ m.literal = Json.literal m.value := by
    intro m hm
    obtain ⟨e, he, hname, hliteral⟩ := eq_of_mem_members hm
    exact ⟨hname ▸ hnames e he, hliteral⟩
  have hlines : ∀ l ∈ s.enumerationText c, '\n' ∉ l := by
    intro l hl
    rw [enumerationText_eq, List.cons_append, List.mem_cons, List.mem_append, List.mem_map,
      List.mem_singleton] at hl
    obtain rfl | ⟨m, hm, rfl⟩ | rfl := hl
    · simp [henum]
    · obtain ⟨hname, hliteral⟩ := hmembers m hm
      have hword : '\n' ∉ m.name := hname.not_mem rfl
      simp [Member.line, hindent, hword, hliteral, Json.line_feed_not_mem_literal]
    · decide
  rw [members?, value_enumeration, Text.lines_unlines hlines (List.cons_ne_nil _ _),
    enumerationText_eq, List.cons_append, List.tail_cons, List.dropLast_concat]
  refine (mapM_map_eq_some (k := id) fun m hm => ?_).trans (congrArg some (List.map_id _))
  obtain ⟨hname, hliteral⟩ := hmembers m hm
  exact Member.ofLine?_line s.indent hname hliteral

end Style

/-! ## The interfaces -/

/-- **No line of a comment opens an interface**, and each is one line. -/
theorem Comment.mem_blockIfAny {t l : Text} (h : l ∈ blockIfAny [] t) :
    '\n' ∉ l ∧ ¬ "export interface ".toList <+: l := by
  rw [blockIfAny] at h
  split at h
  · cases h
  · rw [block, List.cons_append, List.mem_cons, List.mem_append, List.mem_map,
      List.mem_singleton] at h
    obtain rfl | ⟨x, hx, rfl⟩ | rfl := h
    · decide
    · have hfront : line [] x <+: " * ".toList ++ x := List.rdropWhile_prefix isBlank _
      have hfeed : '\n' ∉ " * ".toList ++ x := by
        simp [Text.not_mem_of_mem_pieces hx]
      refine ⟨fun hmem => hfeed (hfront.subset hmem), fun hopen => ?_⟩
      have hhead := (List.cons_prefix_cons.mp (hopen.trans hfront)).1
      exact absurd hhead (by decide)
    · decide

namespace Style

variable {s : Style} {c : Catalog} {e : Entry}

theorem line_feed_not_mem_headLine {name : Text} (hbase : ∀ base ∈ s.base, '\n' ∉ base)
    (hname : '\n' ∉ name) : '\n' ∉ s.headLine name := by
  have hopen : '\n' ∉ "export interface ".toList ++ name := List.not_mem_append (by decide) hname
  refine List.not_mem_append (List.not_mem_append hopen ?_) (by decide)
  split
  · exact List.not_mem_nil
  · next base heq =>
    split
    · exact List.not_mem_nil
    · exact List.not_mem_append (by decide) (hbase base heq)

theorem isPrefix_headLine (s : Style) (name : Text) :
    "export interface ".toList <+: s.headLine name :=
  ((List.prefix_append _ name).trans (List.prefix_append _ _)).trans (List.prefix_append _ _)

theorem line_feed_not_mem_codeLine (hindent : '\n' ∉ s.indent) : '\n' ∉ s.codeLine e := by
  have htype : '\n' ∉ s.codeType e := by
    rw [codeType]
    split
    · exact Json.line_feed_not_mem_literal _
    · decide
  simp [codeLine, hindent, htype]

/-- **The code stands behind the line that opens the interface**, whatever the message is. -/
theorem lineBehind?_interface (hindent : '\n' ∉ s.indent) (hbase : ∀ base ∈ s.base, '\n' ∉ base)
    (hname : IsWord e.record.name) :
    Text.lineBehind? "export interface ".toList (s.interface e).value = some (s.codeLine e) := by
  have hfront : ∀ l ∈ Comment.blockIfAny [] (s.message e) ++
      [s.headLine e.record.name, s.codeLine e], '\n' ∉ l := by
    intro l hl
    simp only [List.mem_append, List.mem_cons, List.not_mem_nil, or_false] at hl
    obtain hl | rfl | rfl := hl
    · exact (Comment.mem_blockIfAny hl).1
    · exact line_feed_not_mem_headLine hbase (hname.not_mem rfl)
    · exact line_feed_not_mem_codeLine hindent
  have htext : s.interfaceText e =
      (Comment.blockIfAny [] (s.message e) ++ [s.headLine e.record.name, s.codeLine e]) ++
        (s.metaText e.record.fields ++ ["\x7d".toList]) := by
    simp [interfaceText]
  have hvalue : (s.interface e).value = Text.unlines (s.interfaceText e) := by
    rw [interface, Logged.value_map, value_interfaceLines]
  have hopen : "export interface ".toList.isPrefixOf (s.headLine e.record.name) = true :=
    List.isPrefixOf_iff_prefix.mpr (s.isPrefix_headLine e.record.name)
  rw [Text.lineBehind?, hvalue, htext, Text.unlines_append_eq (by simp),
    Text.lines_ended_append hfront, List.append_assoc, List.dropWhile_append_of_pos,
    List.cons_append, List.dropWhile_cons_of_neg]
  · rfl
  · rw [hopen]
    exact Bool.false_ne_true
  · intro l hl
    have hclosed := (Comment.mem_blockIfAny hl).2
    simpa [← List.isPrefixOf_iff_prefix] using hclosed

theorem codeLine_of_code {code : Text} (h : e.tag.value? s.codeParam = some code) :
    s.codeLine e = s.indent ++ "code: ".toList ++ Json.literal code ++ ";".toList := by
  rw [codeLine, codeType, h]

/-- **Any code is accepted where none is given**: no literal reads `string`. -/
theorem codeLine_eq_string_iff :
    s.codeLine e = s.indent ++ "code: string;".toList ↔ e.tag.value? s.codeParam = none := by
  have hstring : s.indent ++ "code: string;".toList =
      s.indent ++ "code: ".toList ++ "string".toList ++ ";".toList := by
    simp only [List.append_assoc]
    rfl
  rw [hstring, codeLine, List.append_left_inj, List.append_right_inj, codeType]
  cases e.tag.value? s.codeParam with
  | none => exact iff_of_true rfl rfl
  | some code =>
    refine iff_of_false (fun h => ?_) (Option.some_ne_none code)
    exact absurd (List.cons.inj h).1 (by decide)

/-! ## The union -/

/-- Words between bars are cut at the bars. -/
theorem pieces_intercalate_words {names : List Text} (h : ∀ name ∈ names, IsWord name)
    (hne : names ≠ []) :
    Text.pieces '|' ((List.intercalate " | ".toList names).filter (· ≠ ' ')) = names := by
  have hwords : names.map (·.filter (· ≠ ' ')) = names := by
    refine (List.map_congr_left fun name hname => ?_).trans (List.map_id names)
    refine List.filter_eq_self.mpr fun a ha => decide_eq_true fun hspace => ?_
    exact (h name hname).not_mem (a := ' ') rfl (hspace ▸ ha)
  have hbar : " | ".toList.filter (· ≠ ' ') = ['|'] := rfl
  rw [filter_intercalate, hwords, hbar]
  exact Text.pieces_intercalate (fun name hname => (h name hname).not_mem rfl) hne

/-- **The union is read as the names**, in order. -/
theorem alternatives?_union (hnames : ∀ e ∈ c, IsWord e.record.name) :
    s.alternatives? (s.union c) = some (if c = [] then ["never".toList] else c.names) := by
  have hread : ∀ body : Text,
      s.alternatives? ("export type ".toList ++ s.unionName ++ " = ".toList ++ body ++ ";".toList) =
        some (Text.pieces '|' (body.filter (· ≠ ' '))) := by
    intro body
    have hfront := List.dropPrefix?_append_of_beq (body ++ ";".toList)
      (beq_self_eq_true ("export type ".toList ++ s.unionName ++ " = ".toList))
    have hend : (body ++ ";".toList).dropSuffix? [';'] = some body :=
      List.dropSuffix?_eq_some_iff.mpr ⟨[';'], rfl, rfl⟩
    rw [alternatives?, List.append_assoc _ body, hfront]
    simp only [Option.bind_eq_bind, Option.bind_some, hend, Option.pure_def]
  have hunion : s.union c = "export type ".toList ++ s.unionName ++ " = ".toList ++
      (if c.isEmpty then "never".toList else List.intercalate " | ".toList c.names) ++
        ";".toList := rfl
  rw [hunion, hread]
  cases c with
  | nil => rfl
  | cons e c =>
    have hwords : ∀ name ∈ Catalog.names (e :: c), IsWord name := by
      intro name hname
      obtain ⟨e', he', rfl⟩ := List.mem_map.mp hname
      exact hnames e' he'
    rw [if_neg (List.cons_ne_nil e c)]
    exact congrArg some (pieces_intercalate_words hwords (List.cons_ne_nil _ _))

/-! ## The sections together -/

/-- **Interfaces, union and enumeration agree.**  The lines of the enumeration give the name and the
code of each error type that has one, in order; the literal that the code is written with there is
its type in the interface, directly behind the line that opens it; the error types without a code,
and no others, accept any code there; and the union gives all names in order. -/
theorem sections_agree (s : Style) (c : Catalog) (hindent : '\n' ∉ s.indent)
    (hbase : ∀ base ∈ s.base, '\n' ∉ base) (henum : '\n' ∉ s.enumName)
    (hnames : ∀ e ∈ c, IsWord e.record.name) :
    let code := fun e : Entry =>
      (e.tag.params.filter (·.name = s.codeParam)).getLast?.map Param.value
    let codeLine := fun e => Text.lineBehind? "export interface ".toList (s.interface e).value
    (∃ members, s.members? (s.enumeration c).value = some members ∧
      members.map (fun m => (m.name, m.value)) =
        c.filterMap (fun e => (code e).map fun value => (e.record.name, value)) ∧
      List.Forall₂ (fun e m =>
          codeLine e = some (s.indent ++ "code: ".toList ++ m.literal ++ ";".toList))
        (c.filter fun e => (code e).isSome) members) ∧
      (∀ e ∈ c, codeLine e = some (s.indent ++ "code: string;".toList) ↔ code e = none) ∧
      s.alternatives? (s.union c) = some (if c = [] then ["never".toList] else c.names) := by
  intro code codeLine
  have hcode : code = fun e => e.tag.value? s.codeParam := by
    funext e
    exact (e.tag.value?_eq s.codeParam).symm
  have hcodeLine : ∀ e ∈ c, codeLine e = some (s.codeLine e) := fun e he =>
    lineBehind?_interface hindent hbase (hnames e he)
  refine ⟨⟨_, members?_enumeration hindent henum hnames, ?_, ?_⟩, fun e he => ?_,
    alternatives?_union hnames⟩
  · rw [hcode, List.map_filterMap]
    refine List.filterMap_congr fun e _ => ?_
    rw [member?, Option.map_map]
    rfl
  · have hcoded : ∀ e, (code e).isSome = (s.member? e).isSome := fun e => by
      rw [hcode, member?, Option.isSome_map]
    simp only [hcoded]
    refine forall₂_filterMap fun e he m hm => ?_
    obtain ⟨value, hvalue, rfl⟩ := Option.map_eq_some_iff.mp hm
    rw [hcodeLine e he, codeLine_of_code hvalue]
  · rw [hcodeLine e he, hcode, Option.some_inj, codeLine_eq_string_iff]

/-- A message that looks like an interface, a code with a quote, a backslash and a line feed that
hides an earlier one, a type without a code, and an empty code under a name that is taken. -/
theorem sections_agree_quoted :
    let s : Style := {}
    let c : Catalog := [
      ⟨⟨"e".toList, [⟨"code".toList, "E1".toList⟩, ⟨"message".toList, "\nexport interface ".toList⟩,
        ⟨"code".toList, "\x22\\\n,".toList⟩]⟩, ⟨"A".toList, []⟩⟩,
      ⟨⟨"e".toList, []⟩, ⟨"B".toList, []⟩⟩,
      ⟨⟨"e".toList, [⟨"code".toList, []⟩]⟩, ⟨"A".toList, []⟩⟩]
    let code := fun e : Entry =>
      (e.tag.params.filter (·.name = s.codeParam)).getLast?.map Param.value
    let codeLine := fun e => Text.lineBehind? "export interface ".toList (s.interface e).value
    '\n' ∉ s.indent ∧ (∀ base ∈ s.base, '\n' ∉ base) ∧ '\n' ∉ s.enumName ∧
      (∀ e ∈ c, IsWord e.record.name) ∧
      (∃ members, s.members? (s.enumeration c).value = some members ∧
        members.map (fun m => (m.name, m.value)) =
          [("A".toList, "\x22\\\n,".toList), ("A".toList, [])] ∧
        List.Forall₂ (fun e m =>
            codeLine e = some (s.indent ++ "code: ".toList ++ m.literal ++ ";".toList))
          (c.filter fun e => (code e).isSome) members) ∧
      (∀ e ∈ c, codeLine e = some (s.indent ++ "code: string;".toList) ↔ code e = none) ∧
      s.alternatives? (s.union c) = some ["A".toList, "B".toList, "A".toList] := by
  intro s c
  have hindent : '\n' ∉ s.indent := by decide
  have hbase : ∀ base ∈ s.base, '\n' ∉ base := by
    intro base h
    obtain rfl := Option.some.inj h
    decide
  have henum : '\n' ∉ s.enumName := by decide
  have hnames : ∀ e ∈ c, IsWord e.record.name := by decide
  exact ⟨hindent, hbase, henum, hnames, sections_agree s c hindent hbase henum hnames⟩

end Style

end ErrorCatalog
