import ErrorCatalog.Text.Basic

/-!
# Position — where in a text a reader stands

A position is an offset with its line and column; the column is that of the character at the
offset, the next one to be read.  Lines and columns count from 1, so the type holds no other
numbers and `ofInts?` refuses them.
-/

namespace ErrorCatalog

/-- An offset into a text with its line and column. -/
structure Position where
  offset : Nat
  line : Nat
  column : Nat
  line_pos : 0 < line := by omega
  column_pos : 0 < column := by omega
  deriving DecidableEq, Repr

namespace Position

/-- The position of the first character of any text. -/
def start : Position := ⟨0, 1, 1, by decide, by decide⟩

/-- The position after reading `c`. -/
def advance (p : Position) (c : Char) : Position :=
  if c = '\n' then ⟨p.offset + 1, p.line + 1, 1, by omega, by decide⟩
  else ⟨p.offset + 1, p.line, p.column + 1, p.line_pos, by omega⟩

/-- The position after reading every character of `t`. -/
def advanceBy (p : Position) (t : Text) : Position := t.foldl advance p

/-- Positions are ordered by offset, then line, then column. -/
def order (p q : Position) : Ordering :=
  (compare p.offset q.offset).then ((compare p.line q.line).then (compare p.column q.column))

/-! ## Positions from plain numbers -/

/-- Why three numbers are no position. -/
inductive Invalid
  | negativeOffset
  | notOneBased
  deriving DecidableEq, Repr

/-- The wording of a refusal. -/
def Invalid.message : Invalid → Text
  | .negativeOffset => "Position offset cannot be negative".toList
  | .notOneBased => "Position line and column are 1-based".toList

/-- The position with these numbers.  A negative offset is refused first. -/
def ofInts? (offset line column : Int) : Except Invalid Position :=
  if offset < 0 then .error .negativeOffset
  else if h : line < 1 ∨ column < 1 then .error .notOneBased
  else .ok ⟨offset.toNat, line.toNat, column.toNat, by omega, by omega⟩

/-! ## Written forms -/

/-- `line:column`. -/
def coordinates (p : Position) : Text := Text.ofNat p.line ++ ':' :: Text.ofNat p.column

/-- The position with its offset, as a log would show it. -/
def description (p : Position) : Text :=
  "Position(".toList ++ Text.ofNat p.offset ++ ", ".toList ++ p.coordinates ++ ")".toList

/-! ## Reading on -/

@[simp] theorem advanceBy_nil (p : Position) : p.advanceBy [] = p := rfl

@[simp] theorem advanceBy_cons (p : Position) (c : Char) (t : Text) :
    p.advanceBy (c :: t) = (p.advance c).advanceBy t := rfl

theorem advanceBy_append (p : Position) (s t : Text) :
    p.advanceBy (s ++ t) = (p.advanceBy s).advanceBy t := List.foldl_append

@[simp] theorem offset_advance (p : Position) (c : Char) : (p.advance c).offset = p.offset + 1 := by
  unfold advance
  split <;> rfl

@[simp] theorem offset_advanceBy (p : Position) (t : Text) :
    (p.advanceBy t).offset = p.offset + t.length := by
  induction t generalizing p with
  | nil => rfl
  | cons c t ih => rw [advanceBy_cons, ih, offset_advance, List.length_cons]; omega

theorem offset_advanceBy_start (t : Text) : (start.advanceBy t).offset = t.length := by
  rw [offset_advanceBy]
  exact Nat.zero_add _

end Position

end ErrorCatalog
