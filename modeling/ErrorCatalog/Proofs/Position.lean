import ErrorCatalog.Position
import Mathlib.Data.List.Induction

/-!
# Proofs/Position — positions of the places of a text

Reading a text from its front counts its line feeds and the characters behind the last of them, so
the position of a place says how much of the text lies before it (`Marks`).  Line and column grow
with the offset (`byLine_advanceBy`): the places of one text are in the same order by either.  Counting on
from the front never makes numbers that are no position (`foldlM_checkedAdvance`).
-/

namespace ErrorCatalog

/-- What stands behind the last line feed of a text. -/
def Text.lastLine (t : Text) : Text := (t.reverse.takeWhile (· ≠ '\n')).reverse

theorem Text.lastLine_append_singleton (t : Text) (c : Char) :
    lastLine (t ++ [c]) = if c = '\n' then [] else lastLine t ++ [c] := by
  by_cases h : c = '\n' <;> simp [lastLine, h]

namespace Position

variable {p q : Position} {t u v w : Text} {c : Char}

/-! ## Counting from the front -/

theorem line_advance (p : Position) (c : Char) :
    (p.advance c).line = if c = '\n' then p.line + 1 else p.line := by
  unfold advance
  split <;> rfl

theorem column_advance (p : Position) (c : Char) :
    (p.advance c).column = if c = '\n' then 1 else p.column + 1 := by
  unfold advance
  split <;> rfl

theorem advanceBy_append_singleton (p : Position) (t : Text) (c : Char) :
    p.advanceBy (t ++ [c]) = (p.advanceBy t).advance c := advanceBy_append p t [c]

/-- **The line counts the line feeds.** -/
theorem line_advanceBy_start (t : Text) : (start.advanceBy t).line = 1 + t.count '\n' := by
  induction t using List.reverseRecOn with
  | nil => rfl
  | append_singleton t c ih =>
    rw [advanceBy_append_singleton, line_advance, ih, List.count_append, List.count_singleton]
    split
    · next h => simp [h, Nat.add_assoc]
    · next h => simp [h]

/-- **The column counts the characters behind the last line feed.** -/
theorem column_advanceBy_start (t : Text) :
    (start.advanceBy t).column = 1 + t.lastLine.length := by
  induction t using List.reverseRecOn with
  | nil => rfl
  | append_singleton t c ih =>
    rw [advanceBy_append_singleton, column_advance, ih, Text.lastLine_append_singleton]
    split
    · rfl
    · rw [List.length_append, List.length_singleton, Nat.add_assoc]

/-- **`p` is the position of a place in the text `t`.** -/
structure Marks (p : Position) (t : Text) : Prop where
  offset_le : p.offset ≤ t.length
  line_eq : p.line = 1 + (t.take p.offset).count '\n'
  column_eq : p.column = 1 + (Text.lastLine (t.take p.offset)).length

theorem ext_of_eq (ho : p.offset = q.offset) (hl : p.line = q.line) (hc : p.column = q.column) :
    p = q := by
  cases p
  cases q
  simp_all

/-- The places of a text are marked by what was read up to them. -/
theorem marks_iff : p.Marks t ↔ ∃ u, u <+: t ∧ p = start.advanceBy u := by
  constructor
  · intro h
    have hoffset : p.offset = (start.advanceBy (t.take p.offset)).offset := by
      rw [offset_advanceBy_start, List.length_take, Nat.min_eq_left h.offset_le]
    refine ⟨t.take p.offset, List.take_prefix _ _, ext_of_eq hoffset ?_ ?_⟩
    · rw [line_advanceBy_start, h.line_eq]
    · rw [column_advanceBy_start, h.column_eq]
  · rintro ⟨u, ⟨v, rfl⟩, rfl⟩
    have hfront : (u ++ v).take (start.advanceBy u).offset = u := by
      rw [offset_advanceBy_start, List.take_left]
    refine ⟨?_, ?_, ?_⟩
    · rw [offset_advanceBy_start, List.length_append]
      exact Nat.le_add_right _ _
    · rw [hfront, line_advanceBy_start]
    · rw [hfront, column_advanceBy_start]

/-! ## Positions made from plain numbers -/

/-- The position after `c`, made from plain numbers. -/
def checkedAdvance (p : Position) (c : Char) : Except Invalid Position :=
  if c = '\n' then ofInts? (p.offset + 1) (p.line + 1) 1
  else ofInts? (p.offset + 1) p.line (p.column + 1)

/-- The numbers of a position are accepted. -/
theorem ofInts?_of_position (p : Position) : ofInts? p.offset p.line p.column = .ok p := by
  have hline := p.line_pos
  have hcolumn := p.column_pos
  rw [ofInts?, if_neg (by omega), dif_neg (by omega)]
  rfl

/-- **No character takes a position to numbers that are refused.** -/
theorem checkedAdvance_eq (p : Position) (c : Char) : p.checkedAdvance c = .ok (p.advance c) := by
  rw [checkedAdvance, advance]
  split
  · exact ofInts?_of_position ⟨p.offset + 1, p.line + 1, 1, by omega, by decide⟩
  · exact ofInts?_of_position ⟨p.offset + 1, p.line, p.column + 1, p.line_pos, by omega⟩

theorem foldlM_checkedAdvance (p : Position) (t : Text) :
    t.foldlM checkedAdvance p = .ok (p.advanceBy t) := by
  induction t generalizing p with
  | nil => rfl
  | cons c t ih =>
    rw [List.foldlM_cons, checkedAdvance_eq]
    exact ih _

/-- **`p` can be counted off from the front of `t`**, and no number on the way is refused. -/
def Counted (p : Position) (t : Text) : Prop :=
  ∃ n ≤ t.length, (t.take n).foldlM checkedAdvance start = .ok p

/-! ## Order -/

/-- The order by line, and by column within a line. -/
def byLine (p q : Position) : Ordering := (compare p.line q.line).then (compare p.column q.column)

theorem byLine_self (p : Position) : p.byLine p = .eq := by simp [byLine]

theorem byLine_eq_lt_iff :
    p.byLine q = .lt ↔ p.line < q.line ∨ p.line = q.line ∧ p.column < q.column := by
  rw [byLine, Ordering.then_eq_lt, Nat.compare_eq_lt, Nat.compare_eq_eq, Nat.compare_eq_lt]

theorem byLine_swap (p q : Position) : (p.byLine q).swap = q.byLine p := by
  rw [byLine, byLine, Ordering.swap_then, Nat.compare_swap, Nat.compare_swap]

/-- **Every character moves a position on**, to the next column or to the next line. -/
theorem byLine_advance (p : Position) (c : Char) : p.byLine (p.advance c) = .lt := by
  rw [byLine_eq_lt_iff, line_advance, column_advance]
  split
  · exact .inl (Nat.lt_succ_self _)
  · exact .inr ⟨rfl, Nat.lt_succ_self _⟩

theorem byLine_advanceBy (p : Position) (hw : w ≠ []) : p.byLine (p.advanceBy w) = .lt := by
  induction w using List.reverseRecOn with
  | nil => exact absurd rfl hw
  | append_singleton w c ih =>
    rw [advanceBy_append_singleton]
    have hlast := byLine_eq_lt_iff.mp ((p.advanceBy w).byLine_advance c)
    by_cases hnil : w = []
    · rw [hnil] at hlast ⊢
      exact byLine_eq_lt_iff.mpr hlast
    · have hfirst := byLine_eq_lt_iff.mp (ih hnil)
      exact byLine_eq_lt_iff.mpr (by omega)

/-- Places of one text are ordered by how much lies before them. -/
theorem byLine_of_prefix (h : u <+: v) :
    (start.advanceBy u).byLine (start.advanceBy v) = compare u.length v.length := by
  obtain ⟨w, rfl⟩ := h
  by_cases hw : w = []
  · rw [hw, List.append_nil, byLine_self, Nat.compare_eq_eq.mpr rfl]
  · have hlength : u.length < (u ++ w).length := by
      rw [List.length_append]
      exact Nat.lt_add_of_pos_right (List.length_pos_iff.mpr hw)
    rw [advanceBy_append, byLine_advanceBy _ hw, Nat.compare_eq_lt.mpr hlength]

/-- **Line and column order the places of a text as the offset does.** -/
theorem Marks.byLine_eq (hp : p.Marks t) (hq : q.Marks t) :
    p.byLine q = compare p.offset q.offset := by
  obtain ⟨u, hu, rfl⟩ := marks_iff.mp hp
  obtain ⟨v, hv, rfl⟩ := marks_iff.mp hq
  rw [offset_advanceBy_start, offset_advanceBy_start]
  obtain h | h := List.prefix_or_prefix_of_prefix hu hv
  · exact byLine_of_prefix h
  · rw [← byLine_swap, byLine_of_prefix h, Nat.compare_swap]

end Position

end ErrorCatalog
