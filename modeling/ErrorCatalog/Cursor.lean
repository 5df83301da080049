import ErrorCatalog.Position
import ErrorCatalog.Text.Basic

/-!
# Cursor — a text with the place up to which it has been read

A cursor splits its text into what was read and what lies ahead.  The text never changes and the
split only moves forward: `c ≤ c'` says that `c'` is such a later state of `c`.  The position is
counted off from the text that was read, so it can never disagree with it.
-/

namespace ErrorCatalog

/-- A text read up to some point. -/
structure Cursor where
  /-- The text read so far, latest character first. -/
  behind : Text
  /-- The text still to be read. -/
  ahead : Text
  deriving DecidableEq, Repr

namespace Cursor

/-- The cursor at the front of a text. -/
def start (source : Text) : Cursor := ⟨[], source⟩

/-- The whole text. -/
def source (c : Cursor) : Text := c.behind.reverse ++ c.ahead

/-- How many characters were read. -/
def offset (c : Cursor) : Nat := c.behind.length

/-- The position of the next character. -/
def position (c : Cursor) : Position := Position.start.advanceBy c.behind.reverse

/-- The next character. -/
def peek (c : Cursor) : Option Char := c.ahead.head?

/-- The character `n` places on from the next one, or back from it when `n` is negative. -/
def peekAt (c : Cursor) (n : Int) : Option Char :=
  if (c.offset : Int) + n < 0 then none else c.source[((c.offset : Int) + n).toNat]?

/-- Is the whole text read? -/
def atEnd (c : Cursor) : Bool := c.ahead.isEmpty

/-- The text around the next character. -/
def surroundings (c : Cursor) : Text := c.source.window c.offset Text.windowRadius

/-- The cursor `n` characters on, or at the end if fewer are left. -/
def advance (c : Cursor) (n : Nat) : Cursor where
  behind := (c.ahead.take n).reverse ++ c.behind
  ahead := c.ahead.drop n

/-! ## Views after a move -/

@[simp] theorem source_start (t : Text) : (start t).source = t := rfl

@[simp] theorem offset_start (t : Text) : (start t).offset = 0 := rfl

@[simp] theorem source_advance (c : Cursor) (n : Nat) : (c.advance n).source = c.source := by
  simp [source, advance]

@[simp] theorem ahead_advance (c : Cursor) (n : Nat) : (c.advance n).ahead = c.ahead.drop n := rfl

theorem offset_advance (c : Cursor) (n : Nat) :
    (c.advance n).offset = c.offset + min n c.ahead.length := by
  simp [offset, advance, Nat.add_comm]

theorem length_source (c : Cursor) : c.source.length = c.offset + c.ahead.length := by
  simp [source, offset]

@[simp] theorem offset_position (c : Cursor) : c.position.offset = c.offset := by
  simp [position, offset, Position.start]

/-! ## Later states -/

instance : LE Cursor := ⟨fun c c' => c'.source = c.source ∧ c.offset ≤ c'.offset⟩

theorem le_def {c c' : Cursor} : c ≤ c' ↔ c'.source = c.source ∧ c.offset ≤ c'.offset := Iff.rfl

theorem le_refl (c : Cursor) : c ≤ c := ⟨rfl, Nat.le_refl _⟩

theorem le_trans {a b c : Cursor} (h : a ≤ b) (h' : b ≤ c) : a ≤ c :=
  ⟨h'.1.trans h.1, Nat.le_trans h.2 h'.2⟩

theorem le_advance (c : Cursor) (n : Nat) : c ≤ c.advance n :=
  ⟨source_advance c n, by rw [offset_advance]; exact Nat.le_add_right _ _⟩

/-- **A later state has no more to read.** -/
theorem length_ahead_le {c c' : Cursor} (h : c ≤ c') : c'.ahead.length ≤ c.ahead.length := by
  have hs := congrArg List.length h.1
  rw [length_source, length_source] at hs
  have := h.2
  omega

end Cursor

end ErrorCatalog
