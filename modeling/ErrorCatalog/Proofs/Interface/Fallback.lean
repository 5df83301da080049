import ErrorCatalog.Proofs.Interface.Lines

/-!
# Proofs/Interface/Fallback — what is missing is reported, once each time

A field whose type is in no table falls back to one type, and an error type without a code is left
out of the enumeration.  Both are reported where they happen, so what is reported of a module counts
just these fields and error types, in the order they are rendered in (`Style.events_render`).
`Style.moduleWith` is the module with the type of each field put in its place by a function of its
own, and with an enumeration of the error types that have a code.
-/

namespace ErrorCatalog

/-! ## Keys -/

/-- The keys of a table, in the order they were entered. -/
def Table.keys (t : Table) : List Text := t.map Prod.fst

/-- A table has something under its keys alone. -/
theorem Table.get?_eq_none_iff {t : Table} {key : Text} : t.get? key = none ↔ key ∉ t.keys := by
  have hkeys : key ∉ t.keys ↔ ∀ entry ∈ t, key ≠ entry.1 := by
    simp only [keys, List.mem_map, not_exists, not_and, ne_eq, eq_comm]
  rw [get?, List.lookup_eq_none_iff, hkeys]
  simp only [List.mem_reverse, bne_iff_ne]

theorem Attribute.value?_eq_none_iff {a : Attribute} {name : Text} :
    a.value? name = none ↔ name ∉ a.params.map Param.name := by
  rw [value?, Table.get?_eq_none_iff, Table.keys, table, List.map_map]
  rfl

/-! ## Events of rows -/

namespace Logged

variable {α β : Type}

@[simp] theorem events_map (g : α → β) (m : Logged α) : (g <$> m).events = m.events :=
  List.append_nil m.events

/-- **The events of a row** are those of its items, one after the other. -/
@[simp] theorem events_mapM (f : α → Logged β) (l : List α) :
    (l.mapM f).events = l.flatMap fun a => (f a).events := by
  induction l with
  | nil => rfl
  | cons a l ih => simp [List.mapM_cons, ih]

end Logged

/-- What is said of items that lack something is said of those. -/
theorem flatMap_ite {α β : Type} (p : α → Prop) [DecidablePred p] (f : α → β) (xs : List α) :
    (xs.flatMap fun x => if p x then [] else [f x]) = (xs.filter fun x => ¬ p x).map f := by
  induction xs with
  | nil => rfl
  | cons x xs ih =>
    by_cases hx : p x
    · rw [List.flatMap_cons, if_pos hx, List.nil_append, ih, List.filter_cons_of_neg (by simpa)]
    · rw [List.flatMap_cons, if_neg hx, ih, List.filter_cons_of_pos (by simpa), List.map_cons,
        List.singleton_append]

namespace Style

/-! ## The module with its types put in -/

section With

variable (s : Style) (typeOf : Text → Text)

/-- The lines of an interface in which `typeOf` says what a field's type is rendered as. -/
def interfaceWith (e : Entry) : List Text :=
  let margin := s.indent ++ s.indent
  let member := fun f : Field => Comment.blockIfAny margin f.doc ++
    [margin ++ f.name ++ ": ".toList ++ typeOf f.type ++ ";".toList]
  let members :=
    if e.record.fields = [] then [s.indent ++ "meta: \x7b\x7d;".toList]
    else (s.indent ++ "meta: \x7b".toList) :: e.record.fields.flatMap member ++
      [s.indent ++ "\x7d;".toList]
  Comment.blockIfAny [] (s.message e) ++ s.headLine e.record.name :: s.codeLine e :: members ++
    ["\x7d".toList]

/-- The lines of an enumeration of the error types that have a code. -/
def enumerationOfCoded (c : Catalog) : List Text :=
  let coded := c.filter fun e => s.codeParam ∈ e.tag.params.map Param.name
  ("export enum ".toList ++ s.enumName ++ " \x7b".toList) :: coded.map (fun e =>
    s.indent ++ e.record.name ++ " = ".toList ++ s.codeType e ++ ",".toList) ++ ["\x7d".toList]

/-- **The module in which `typeOf` says what the type of a field is rendered as.** -/
def moduleWith (c : Catalog) : Text :=
  let interfaces := c.map fun e => Text.unlines (s.interfaceWith typeOf e)
  List.intercalate "\n\n".toList
    (interfaces ++ [s.union c, Text.unlines (s.enumerationOfCoded c)]) ++ ['\n']

end With

variable {s : Style} {c : Catalog} {e : Entry} {f : Field}

theorem enumText_of_mem (h : s.codeParam ∈ e.tag.params.map Param.name) : s.enumText e =
    some (s.indent ++ e.record.name ++ " = ".toList ++ s.codeType e ++ ",".toList) := by
  have hne : e.tag.value? s.codeParam ≠ none := fun hnone =>
    Attribute.value?_eq_none_iff.mp hnone h
  obtain ⟨code, hcode⟩ := Option.ne_none_iff_exists'.mp hne
  rw [enumText, codeType, hcode]
  rfl

/-- **The enumeration has the error types that have a code.** -/
theorem enumerationText_eq_ofCoded (s : Style) (c : Catalog) :
    s.enumerationText c = s.enumerationOfCoded c := by
  have hmembers : c.filterMap s.enumText =
      (c.filter fun e => s.codeParam ∈ e.tag.params.map Param.name).map fun e =>
        s.indent ++ e.record.name ++ " = ".toList ++ s.codeType e ++ ",".toList := by
    induction c with
    | nil => rfl
    | cons e c ih =>
      by_cases he : s.codeParam ∈ e.tag.params.map Param.name
      · rw [List.filterMap_cons_some (enumText_of_mem he), ih,
          List.filter_cons_of_pos (by simpa using he), List.map_cons]
      · have hnone : s.enumText e = none := by
          rw [enumText, Attribute.value?_eq_none_iff.mpr he]
          rfl
        rw [List.filterMap_cons_none hnone, ih, List.filter_cons_of_neg (by simpa using he)]
  rw [enumerationText, hmembers]
  rfl

/-- **A module is the one whose types the style puts in.** -/
theorem value_render_eq_moduleWith (s : Style) (c : Catalog) :
    (s.render c).value = s.moduleWith s.typeText c := by
  have hunion : Text.unlines [s.union c] = s.union c := List.intercalate_singleton ..
  rw [render, Logged.value_bind, Logged.value_pure, value_sections, sectionTexts,
    enumerationText_eq_ofCoded, List.map_append, List.map_map, List.map_cons, hunion]
  rfl

theorem value_mapType (s : Style) (type : Text) :
    (s.mapType type).value = (s.types.get? type).getD s.fallback.text := by
  rw [mapType]
  cases s.types.get? type <;> rfl

theorem typeText_of_get? {type mapped : Text} (h : s.types.get? type = some mapped) :
    s.typeText type = mapped := by
  rw [typeText, value_mapType, h, Option.getD_some]

theorem typeText_of_not_mem {type : Text} (h : type ∉ s.types.keys) :
    s.typeText type = s.fallback.text := by
  rw [typeText, value_mapType, Table.get?_eq_none_iff.mpr h, Option.getD_none]

/-! ## What is reported -/

theorem events_mapType (s : Style) (type : Text) : (s.mapType type).events =
    if type ∈ s.types.keys then [] else [.noMapping type s.fallback] := by
  rw [mapType]
  split
  · next mapped hmapped =>
    have hmem : type ∈ s.types.keys := by
      by_contra hne
      cases hmapped.symm.trans (Table.get?_eq_none_iff.mpr hne)
    rw [if_pos hmem]
    rfl
  · next hnone =>
    rw [if_neg (Table.get?_eq_none_iff.mp hnone)]
    rfl

theorem events_metaLines (s : Style) (fields : List Field) : (s.metaLines fields).events =
    fields.flatMap fun f => (s.mapType f.type).events := by
  cases fields with
  | nil => rfl
  | cons f fields =>
    rw [metaLines, Logged.events_bind, Logged.events_mapM, Logged.events_pure, List.append_nil]
    · simp [fieldLines]
    · exact List.cons_ne_nil f fields

theorem events_interface (s : Style) (e : Entry) : (s.interface e).events =
    e.record.fields.flatMap fun f => (s.mapType f.type).events := by
  rw [interface, Logged.events_map, interfaceLines, Logged.events_bind, Logged.events_pure,
    List.append_nil, events_metaLines]

theorem events_enumLine (s : Style) (e : Entry) : (s.enumLine e).events =
    if s.codeParam ∈ e.tag.params.map Param.name then []
    else [.noCode e.record.name s.codeParam s.enumName] := by
  rw [enumLine]
  split
  · next code hcode =>
    have hmem : s.codeParam ∈ e.tag.params.map Param.name := by
      by_contra hne
      cases hcode.symm.trans (Attribute.value?_eq_none_iff.mpr hne)
    rw [if_pos hmem]
    rfl
  · next hnone =>
    rw [if_neg (Attribute.value?_eq_none_iff.mp hnone)]
    rfl

theorem events_enumeration (s : Style) (c : Catalog) : (s.enumeration c).events =
    (c.filter fun e => s.codeParam ∉ e.tag.params.map Param.name).map
      fun e => .noCode e.record.name s.codeParam s.enumName := by
  rw [enumeration, Logged.events_bind, Logged.events_mapM, Logged.events_pure, List.append_nil,
    funext s.events_enumLine, flatMap_ite]

/-- **What is reported of a module**: first the fields without a type, interface by interface, then
the error types without a code. -/
theorem events_render_eq (s : Style) (c : Catalog) : (s.render c).events =
    ((c.flatMap fun e => e.record.fields).filter fun f => f.type ∉ s.types.keys).map
        (fun f => .noMapping f.type s.fallback) ++
      (c.filter fun e => s.codeParam ∉ e.tag.params.map Param.name).map
        fun e => .noCode e.record.name s.codeParam s.enumName := by
  have hfields : (c.flatMap fun e => (s.interface e).events) =
      ((c.flatMap fun e => e.record.fields).filter fun f => f.type ∉ s.types.keys).map
        fun f => .noMapping f.type s.fallback := by
    simp only [events_interface, events_mapType]
    rw [← List.flatMap_assoc, flatMap_ite fun f : Field => f.type ∈ s.types.keys]
  rw [render, Logged.events_bind, sections, Logged.events_bind, Logged.events_bind,
    Logged.events_mapM, hfields, events_enumeration]
  simp only [Logged.events_pure, List.append_nil]

/-- All that is reported of a module is a warning. -/
theorem level_of_mem_events_render {event : Event} (h : event ∈ (s.render c).events) :
    event.level = .warning := by
  rw [events_render_eq, List.mem_append, List.mem_map, List.mem_map] at h
  obtain ⟨f, -, rfl⟩ | ⟨e, -, rfl⟩ := h <;> rfl

/-- **Every fallback is reported, once each time.**  What is reported of a module are the fields
whose type is no key of the table, in order, and then the error types without a parameter for the
code, in order; all of it is a warning.  Just these fields are rendered with the fallback for want
of a type, and just these error types are left out of the enumeration. -/
theorem events_render (s : Style) (c : Catalog) :
    let fields := c.flatMap fun e => e.record.fields
    let untyped := fields.filter fun f => f.type ∉ s.types.keys
    let uncoded := c.filter fun e => s.codeParam ∉ e.tag.params.map Param.name
    (s.render c).events = untyped.map (fun f => .noMapping f.type s.fallback) ++
        uncoded.map (fun e => .noCode e.record.name s.codeParam s.enumName) ∧
      (∀ event ∈ (s.render c).events, event.level = .warning) ∧
      ∃ typeOf : Text → Text, (∀ type ∉ s.types.keys, typeOf type = s.fallback.text) ∧
        (∀ type mapped, s.types.get? type = some mapped → typeOf type = mapped) ∧
        (s.render c).value = s.moduleWith typeOf c := by
  intro fields untyped uncoded
  exact ⟨s.events_render_eq c, fun _ => level_of_mem_events_render, s.typeText,
    fun _ => typeText_of_not_mem, fun _ _ => typeText_of_get?, s.value_render_eq_moduleWith c⟩

/-- A type that is mapped to nothing is mapped, and an empty code is a code. -/
example :
    let s : Style := { types := [("T".toList, [])] }
    let c : Catalog := [
      ⟨⟨"e".toList, [⟨"code".toList, []⟩]⟩,
        ⟨"A".toList, [⟨"x".toList, "U".toList, []⟩, ⟨"y".toList, "T".toList, []⟩]⟩⟩,
      ⟨⟨"e".toList, []⟩, ⟨"B".toList, [⟨"z".toList, "U".toList, []⟩]⟩⟩]
    (s.render c).events = [.noMapping "U".toList s.fallback, .noMapping "U".toList s.fallback,
      .noCode "B".toList "code".toList "PrismaErrorCode".toList] := by
  decide +kernel

end Style

end ErrorCatalog
