import ErrorCatalog.Scan.Basic
import ErrorCatalog.Scan.Dialect

/-!
# Scan/Token — the smallest readers

Runs of a character class, single characters, keywords, names and string literals.  A run is always
read to its end, so a keyword is compared with the whole word that stands in its place.

A literal stands between double quotes.  A double quote directly after a backslash does not close
it; that is the only use of the backslash, so a backslash before anything else stands for itself.
-/

namespace ErrorCatalog

/-- The text that two texts start with in common. -/
def commonStart : Text → Text → Text
  | a :: s, b :: t => if a = b then a :: commonStart s t else []
  | _, _ => []

namespace Scan

variable {α : Type}

/-! ## Runs -/

/-- Passes over `n` characters, or over the rest of the text if fewer are left. -/
def skip (n : Nat) : Scan Unit := ⟨fun c => .ok () (c.advance n), fun c => c.le_advance n⟩

/-- The longest run of characters of the class `p`, which may be empty. -/
def readWhile (p : Char → Bool) : Scan Text where
  run c := .ok (c.ahead.takeWhile p) (c.advance (c.ahead.takeWhile p).length)
  le_run c := c.le_advance _

/-- The space that comes next. -/
def space : Scan Text := readWhile isSpace

/-- The commas that come next. -/
def commas : Scan Text := readWhile isComma

/-- The space and commas that come next. -/
def separators : Scan Text := readWhile isSeparator

/-! ## Failures -/

/-- Fails where the cursor stands. -/
def failWith (e : Cursor → ScanError) : Scan α := ⟨fun c => .error (e c) c, fun c => c.le_refl⟩

/-- The error of a cursor that does not stand before what the grammar asks for.  At the end of the
text the input is truncated; before that it is wrong. -/
def missing (wanted : Expectation) (c : Cursor) : ScanError :=
  match c.peek with
  | none => ⟨.endOfInput wanted, c.position, .unterminated, none⟩
  | some found => ⟨.unexpected wanted found c.surroundings, c.position, .unexpected, none⟩

/-! ## Tokens -/

/-- The character `ch`. -/
def expect (ch : Char) : Scan Unit where
  run c := if c.peek = some ch then .ok () (c.advance 1) else .error (missing (.char ch) c) c
  le_run c := by
    split
    · exact c.le_advance 1
    · exact c.le_refl

/-- The error of a word that stands in the place of a keyword.  It points at the first character
that tells the two apart; where there is no word at all, at the place itself. -/
def wrongWord (keyword word : Text) (c : Cursor) : ScanError :=
  if word = [] then missing (.keyword keyword) c
  else ⟨.otherWord keyword word, (c.advance (commonStart word keyword).length).position,
    .unexpected, none⟩

/-- The keyword `keyword`, standing as a whole word.  The word is read even if it is another. -/
def keyword (keyword : Text) : Scan Unit where
  run c :=
    let word := c.ahead.takeWhile isNameChar
    if word = keyword then .ok () (c.advance word.length)
    else .error (wrongWord keyword word c) (c.advance word.length)
  le_run c := by
    dsimp only
    split <;> exact c.le_advance _

/-- A name; `what` says of which sort, in case there is none. -/
def name (what : Text) : Scan Text where
  run c :=
    let word := c.ahead.takeWhile isNameChar
    if word = [] then .error (missing (.name what) c) c
    else .ok word (c.advance word.length)
  le_run c := by
    dsimp only
    split
    · exact c.le_refl
    · exact c.le_advance _

/-! ## Tokens are not empty -/

theorem length_ahead_advance_lt {c : Cursor} {n : Nat} (hn : 0 < n) (hc : n ≤ c.ahead.length) :
    (c.advance n).ahead.length < c.ahead.length := by
  rw [Cursor.ahead_advance, List.length_drop]
  omega

theorem consumes_expect (ch : Char) : (expect ch).Consumes := by
  intro c a c' h
  simp only [expect] at h
  split at h
  · next hp =>
    cases h
    refine length_ahead_advance_lt Nat.one_pos (Nat.pos_of_ne_zero fun h0 => ?_)
    rw [Cursor.peek, List.length_eq_zero_iff.mp h0] at hp
    cases hp
  · cases h

theorem consumes_keyword {word : Text} (hw : word ≠ []) : (keyword word).Consumes := by
  intro c a c' h
  simp only [keyword] at h
  split at h
  · next hp =>
    cases h
    exact length_ahead_advance_lt (List.length_pos_iff.mpr (hp ▸ hw)) (List.takeWhile_sublist _).length_le
  · cases h

theorem consumes_name (what : Text) : (name what).Consumes := by
  intro c a c' h
  simp only [name] at h
  split at h
  · cases h
  · next hp =>
    cases h
    exact length_ahead_advance_lt (List.length_pos_iff.mpr hp) (List.takeWhile_sublist _).length_le

end Scan

/-! ## String literals -/

namespace Literal

/-- The content up to the closing quote, or up to the end of the text if there is none; `escaped`
says whether a backslash has just been read. -/
def content (escaped : Bool) : Text → Text
  | [] => []
  | c :: rest => if c = '\x22' && !escaped then [] else c :: content (c = '\\') rest

/-- The value of a content: the backslash before each quote is dropped. -/
def value : Text → Text
  | '\\' :: '\x22' :: rest => '\x22' :: value rest
  | c :: rest => c :: value rest
  | [] => []

end Literal

namespace Scan

/-- The content of a literal whose opening quote was just read. -/
def literalContent : Scan Text where
  run c := .ok (Literal.content false c.ahead) (c.advance (Literal.content false c.ahead).length)
  le_run c := c.le_advance _

/-- **A string literal**, after the space before it. -/
def literal : Scan Text := do
  let _ ← space
  expect '\x22'
  let raw ← literalContent
  expect '\x22'
  return Literal.value raw

end Scan

end ErrorCatalog
