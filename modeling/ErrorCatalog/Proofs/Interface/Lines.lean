import ErrorCatalog.Interface.Module
import ErrorCatalog.Proofs.Text

/-!
# Proofs/Interface/Lines — a module as lines

A module is made of sections and a section of lines, each with its line feed behind it, and the
module is its sections with one empty line between any two (`value_render`).  What is reported on
the way has no part in it: the values of the renderers are given here without their events.
-/

namespace ErrorCatalog

/-! ## Values without their events -/

namespace Logged

variable {α β : Type}

@[simp] theorem value_map (g : α → β) (m : Logged α) : (g <$> m).value = g m.value := rfl

@[simp] theorem value_mapM (f : α → Logged β) (l : List α) :
    (l.mapM f).value = l.map fun a => (f a).value := by
  induction l with
  | nil => rfl
  | cons a l ih => rw [List.mapM_cons, value_bind, value_bind, ih]; rfl

end Logged

namespace Style

variable (s : Style)

/-- The type that stands for the field type `type`. -/
def typeText (type : Text) : Text := (s.mapType type).value

/-- The lines of a field. -/
def fieldText (indent : Text) (f : Field) : List Text :=
  Comment.blockIfAny indent f.doc ++
    [indent ++ f.name ++ ": ".toList ++ s.typeText f.type ++ ";".toList]

/-- The lines that give the fields. -/
def metaText (fields : List Field) : List Text :=
  if fields = [] then [s.indent ++ "meta: \x7b\x7d;".toList]
  else (s.indent ++ "meta: \x7b".toList) ::
    (fields.map (s.fieldText (s.indent ++ s.indent))).flatten ++ [s.indent ++ "\x7d;".toList]

/-- The lines of an interface. -/
def interfaceText (e : Entry) : List Text :=
  Comment.blockIfAny [] (s.message e) ++ s.headLine e.record.name :: s.codeLine e ::
    s.metaText e.record.fields ++ ["\x7d".toList]

/-- The line of an error type in the enumeration, if it has a code. -/
def enumText (e : Entry) : Option Text :=
  (e.tag.value? s.codeParam).map fun code =>
    s.indent ++ e.record.name ++ " = ".toList ++ Json.literal code ++ ",".toList

/-- The lines of the enumeration. -/
def enumerationText (c : Catalog) : List Text :=
  ("export enum ".toList ++ s.enumName ++ " \x7b".toList) :: c.filterMap s.enumText ++
    ["\x7d".toList]

theorem value_metaLines (fields : List Field) :
    (s.metaLines fields).value = s.metaText fields := by
  cases fields with
  | nil => rfl
  | cons f fields =>
    rw [metaLines, Logged.value_bind, Logged.value_mapM]
    · rfl
    · exact List.cons_ne_nil f fields

theorem value_interfaceLines (e : Entry) : (s.interfaceLines e).value = s.interfaceText e := by
  rw [interfaceLines, Logged.value_bind, value_metaLines]
  rfl

theorem value_enumLine (e : Entry) : (s.enumLine e).value = s.enumText e := by
  rw [enumLine, enumText]
  cases e.tag.value? s.codeParam <;> rfl

theorem value_enumeration (c : Catalog) :
    (s.enumeration c).value = Text.unlines (s.enumerationText c) := by
  rw [enumeration, Logged.value_bind, Logged.value_mapM]
  simp only [value_enumLine, Logged.value_pure, enumerationText, List.filterMap_map,
    Function.id_comp]

/-- The lines of each section. -/
def sectionTexts (c : Catalog) : List (List Text) :=
  c.map s.interfaceText ++ [[s.union c], s.enumerationText c]

theorem ne_nil_of_mem_sectionTexts {c : Catalog} {ls : List Text} (h : ls ∈ s.sectionTexts c) :
    ls ≠ [] := by
  simp only [sectionTexts, List.mem_append, List.mem_map, List.mem_cons, List.not_mem_nil,
    or_false] at h
  obtain ⟨e, -, rfl⟩ | rfl | rfl := h
  · simp [interfaceText]
  · exact List.cons_ne_nil _ _
  · exact List.cons_ne_nil _ _

theorem value_sections (c : Catalog) :
    (s.sections c).value = (s.sectionTexts c).map Text.unlines := by
  rw [sections, Logged.value_bind, Logged.value_bind, Logged.value_mapM, value_enumeration]
  simp [sectionTexts, interface, value_interfaceLines, Text.unlines]

/-- **A module is its sections, with an empty line between any two.** -/
theorem value_render (c : Catalog) :
    (s.render c).value = List.intercalate ['\n'] ((s.sectionTexts c).map Text.ended) := by
  have hne : (s.sectionTexts c).map Text.unlines ≠ [] := by simp [sectionTexts]
  have hended : ((s.sectionTexts c).map Text.unlines).map (· ++ ['\n']) =
      (s.sectionTexts c).map Text.ended := by
    rw [List.map_map]
    exact List.map_congr_left fun ls hls =>
      Text.unlines_append (s.ne_nil_of_mem_sectionTexts hls)
  rw [render, Logged.value_bind, Logged.value_pure, value_sections, ← hended]
  exact intercalate_append_eq ['\n'] ['\n'] hne

end Style

end ErrorCatalog
