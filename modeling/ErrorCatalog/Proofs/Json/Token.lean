import ErrorCatalog.Json
import ErrorCatalog.Proofs.Json.Value
import Mathlib.Data.List.Forall2
import Mathlib.Tactic.SplitIfs

/-!
# Proofs/Json/Token — JSON texts and their tokens

The spelling of JSON (RFC 8259), read character by character.  `Value.ofText?` is the value of a
text, if the text is JSON.  A literal may spell a character in many ways and is read as what it
stands for, so the one way in which literals are written loses nothing (`lexes_literal`).
-/

namespace ErrorCatalog

namespace Json

/-! ## Characters -/

/-- Space between tokens. -/
def isPadding (c : Char) : Bool := c = ' ' || c = '\t' || c = '\n' || c = '\r'

/-- A character of a number or of a word. -/
def isWordChar (c : Char) : Bool := c.isAlphanum || c = '+' || c = '-' || c = '.'

/-- The token that a character is by itself. -/
def Token.mark? : Char → Option Token
  | '[' => some .openArray
  | ']' => some .closeArray
  | '\x7b' => some .openObject
  | '\x7d' => some .closeObject
  | ',' => some .comma
  | ':' => some .colon
  | _ => none

/-- What a character stands for behind a backslash. -/
def unescape? : Char → Option Char
  | '\x22' => some '\x22'
  | '\\' => some '\\'
  | '/' => some '/'
  | 'b' => some '\x08'
  | 'f' => some '\x0c'
  | 'n' => some '\n'
  | 'r' => some '\r'
  | 't' => some '\t'
  | _ => none

/-- The value of a hexadecimal digit. -/
def hexDigit? (c : Char) : Option Nat :=
  if '0' ≤ c ∧ c ≤ '9' then some (c.toNat - '0'.toNat)
  else if 'a' ≤ c ∧ c ≤ 'f' then some (c.toNat - 'a'.toNat + 10)
  else if 'A' ≤ c ∧ c ≤ 'F' then some (c.toNat - 'A'.toNat + 10)
  else none

/-! ## Numbers and words -/

/-- An exponent, which may be missing. -/
def isExponent : Text → Bool
  | [] => true
  | e :: sign :: digits =>
      (e = 'e' || e = 'E') &&
        if sign = '+' || sign = '-' then digits ≠ [] && digits.all Char.isDigit
        else (sign :: digits).all Char.isDigit
  | _ => false

/-- What follows the whole part of a number: a fraction and an exponent, each of which may be
missing. -/
def isFraction : Text → Bool
  | '.' :: t => t.takeWhile Char.isDigit ≠ [] && isExponent (t.dropWhile Char.isDigit)
  | t => isExponent t

/-- A number without a sign; its whole part has no leading zero. -/
def isUnsigned (t : Text) : Bool :=
  let whole := t.takeWhile Char.isDigit
  whole ≠ [] && (whole.head? ≠ some '0' || whole = ['0']) && isFraction (t.dropWhile Char.isDigit)

/-- A number. -/
def isNumber : Text → Bool
  | '-' :: t => isUnsigned t
  | t => isUnsigned t

/-- What is spelt without quotes. -/
def Scalar.ofWord? (w : Text) : Option Scalar :=
  if w = "null".toList then some .null
  else if w = "true".toList then some (.bool true)
  else if w = "false".toList then some (.bool false)
  else if isNumber w then some (.number w)
  else none

/-! ## Literals -/

/-- A piece of a literal: a character, or a number that is part of the UTF-16 form of one. -/
inductive Piece
  | char (c : Char)
  | unit (n : Nat)

/-- The first half of a pair. -/
def isHigh (n : Nat) : Bool := 0xd800 ≤ n && n < 0xdc00

/-- The second half of a pair. -/
def isLow (n : Nat) : Bool := 0xdc00 ≤ n && n < 0xe000

/-- The character of a pair. -/
def paired (high low : Nat) : Char :=
  Char.ofNat (0x10000 + 0x400 * (high - 0xd800) + (low - 0xdc00))

/-- **The text of a literal**, whose pairs must be complete. -/
def textOf? : List Piece → Option Text
  | [] => some []
  | .char c :: pieces => (textOf? pieces).map (c :: ·)
  | .unit n :: pieces =>
      if isHigh n then
        match pieces with
        | .unit m :: pieces =>
            if isLow m then (textOf? pieces).map (paired n m :: ·) else none
        | _ => none
      else if isLow n then none
      else (textOf? pieces).map (Char.ofNat n :: ·)

/-! ## Texts -/

/-- What the characters so far belong to. -/
inductive Mode
  /-- To complete tokens and the space behind them. -/
  | between
  | word (w : Text)
  | literal (pieces : List Piece)
  /-- To a literal up to a backslash. -/
  | escape (pieces : List Piece)
  /-- To a literal up to some digits of a number. -/
  | unit (pieces : List Piece) (n digits : Nat)

/-- The tokens that are complete, and what is not. -/
structure Lexer where
  done : List Token
  mode : Mode

namespace Lexer

/-- The state behind a character that starts something new. -/
def start (done : List Token) (c : Char) : Option Lexer :=
  if isPadding c then some ⟨done, .between⟩
  else if c = '\x22' then some ⟨done, .literal []⟩
  else if isWordChar c then some ⟨done, .word [c]⟩
  else (Token.mark? c).map fun token => ⟨done ++ [token], .between⟩

/-- The state behind one more character; `none` if it cannot come here. -/
def step (l : Lexer) (c : Char) : Option Lexer :=
  match l.mode with
  | .between => start l.done c
  | .word w =>
      if isWordChar c then some ⟨l.done, .word (w ++ [c])⟩
      else do start (l.done ++ [.scalar (← Scalar.ofWord? w)]) c
  | .literal pieces =>
      if c = '\x22' then
        (textOf? pieces).map fun t => ⟨l.done ++ [.scalar (.text t)], .between⟩
      else if c = '\\' then some ⟨l.done, .escape pieces⟩
      else if c.toNat < 0x20 then none
      else some ⟨l.done, .literal (pieces ++ [.char c])⟩
  | .escape pieces =>
      if c = 'u' then some ⟨l.done, .unit pieces 0 0⟩
      else (unescape? c).map fun c => ⟨l.done, .literal (pieces ++ [.char c])⟩
  | .unit pieces n digits =>
      (hexDigit? c).map fun d =>
        if digits = 3 then ⟨l.done, .literal (pieces ++ [.unit (16 * n + d)])⟩
        else ⟨l.done, .unit pieces (16 * n + d) (digits + 1)⟩

/-- The tokens at the end of the text. -/
def finish (l : Lexer) : Option (List Token) :=
  match l.mode with
  | .between => some l.done
  | .word w => (Scalar.ofWord? w).map fun s => l.done ++ [.scalar s]
  | _ => none

end Lexer

/-- The tokens of a text. -/
def tokens? (t : Text) : Option (List Token) :=
  t.foldlM Lexer.step ⟨[], .between⟩ >>= Lexer.finish

/-- **The value of a JSON text**; `none` if the text is no JSON. -/
def Value.ofText? (t : Text) : Option Value := tokens? t >>= Value.ofTokens?

/-- **A text is read as a value if its tokens are those that the value is written with.** -/
theorem Value.ofText?_eq_some_iff {t : Text} {v : Value} :
    ofText? t = some v ↔ tokens? t = some v.tokens := by
  rw [ofText?]
  exact Option.bind_eq_some_iff.trans ⟨fun ⟨_, ht, hv⟩ => ofTokens?_eq_some_iff.mp hv ▸ ht,
    fun ht => ⟨_, ht, ofTokens?_eq_some_iff.mpr rfl⟩⟩

example : tokens? " \x7b\"a\\u00E9\\ud83d\\uDE00\\/\" : [ -1.5e+3,null ]\x7d\n".toList =
    some [.openObject, .scalar (.text "aé😀/".toList), .colon, .openArray,
      .scalar (.number "-1.5e+3".toList), .comma, .scalar .null, .closeArray, .closeObject] := by
  decide +kernel

example : ∀ t ∈ ["[1,]", "[01]", "\"\\ud83d\"", "\"\t\"", "\x7b1:2\x7d", "[] []", ""],
    (Value.ofText? t.toList).isNone := by
  decide +kernel

/-! ## Spelling tokens -/

/-- **A text that spells tokens** wherever one may start, and leaves none open. -/
def Spells (t : Text) (tokens : List Token) : Prop :=
  ∀ done, t.foldlM Lexer.step ⟨done, .between⟩ = some ⟨done ++ tokens, .between⟩

section Spells

variable {t t' : Text} {tokens tokens' : List Token} {c : Char} {token : Token}

theorem Spells.nil : Spells [] [] := fun done => by
  rw [List.append_nil]
  rfl

theorem Spells.append (h : Spells t tokens) (h' : Spells t' tokens') :
    Spells (t ++ t') (tokens ++ tokens') := fun done => by
  rw [List.foldlM_append, h done, ← List.append_assoc]
  exact h' _

theorem Spells.tokens?_eq (h : Spells t tokens) : tokens? t = some tokens := by
  rw [tokens?, h]
  rfl

theorem spells_padding (ht : ∀ c ∈ t, isPadding c = true) : Spells t [] := by
  induction t with
  | nil => exact .nil
  | cons c t ih =>
    obtain ⟨hc, ht⟩ := List.forall_mem_cons.mp ht
    have hspells : Spells [c] [] := fun done => by
      simp [Lexer.step, Lexer.start, hc]
    exact hspells.append (ih ht)

theorem spells_mark (h : ∀ done, Lexer.start done c = some ⟨done ++ [token], .between⟩) :
    Spells [c] [token] := fun done => by
  rw [List.foldlM_cons]
  change Lexer.start done c >>= some = _
  rw [h]
  rfl

/-! ### Literals -/

theorem hex_control : ∀ n < 0x20,
    Text.hex 4 n = ['0', '0', Nat.digitChar (n / 16), Nat.digitChar (n % 16)] := by
  decide +kernel

theorem hexDigit?_digitChar : ∀ d < 16, hexDigit? (Nat.digitChar d) = some d := by
  decide +kernel

theorem foldlM_hex {n : Nat} (h : n < 0x20) (done : List Token) (pieces : List Piece) :
    (Text.hex 4 n).foldlM Lexer.step ⟨done, .unit pieces 0 0⟩ =
      some ⟨done, .literal (pieces ++ [.unit n])⟩ := by
  have hhigh := hexDigit?_digitChar (n / 16) (by omega)
  have hlow := hexDigit?_digitChar (n % 16) (by omega)
  have hzero : hexDigit? '0' = some 0 := rfl
  simp [hex_control n h, Lexer.step, hhigh, hlow, hzero, Nat.div_add_mod]

/-- A piece that stands for one character. -/
def Piece.StandsFor (p : Piece) (c : Char) : Prop :=
  ∀ pieces, textOf? (p :: pieces) = (textOf? pieces).map (c :: ·)

theorem standsFor_unit (c : Char) : Piece.StandsFor (.unit c.toNat) c := fun pieces => by
  have hc : c.toNat < 0xd800 ∨ 0xdfff < c.toNat ∧ c.toNat < 0x110000 := c.valid
  have hhigh : isHigh c.toNat = false := by simp [isHigh]; omega
  have hlow : isLow c.toNat = false := by simp [isLow]; omega
  rw [textOf?.eq_def]
  simp only [hhigh, hlow, Bool.false_eq_true, if_false, Char.ofNat_toNat]

/-- **A character inside a literal is read as one piece**, however it is written there. -/
theorem exists_piece (c : Char) : ∃ p, Piece.StandsFor p c ∧ ∀ done pieces,
    (escapeChar c).foldlM Lexer.step ⟨done, .literal pieces⟩ =
      some ⟨done, .literal (pieces ++ [p])⟩ := by
  unfold escapeChar
  split_ifs with hquote hslash _ _ _ _ _ hcontrol
  -- The seven characters with an escape of their own.
  iterate 7 exact ⟨.char c, fun _ => rfl, fun _ _ => by subst ‹c = _›; rfl⟩
  · exact ⟨.unit c.toNat, standsFor_unit c, foldlM_hex hcontrol⟩
  · exact ⟨.char c, fun _ => rfl, fun _ _ => by simp [Lexer.step, hquote, hslash, hcontrol]⟩

theorem exists_pieces (t : Text) : ∃ pieces, textOf? pieces = some t ∧ ∀ done before,
    (t.flatMap escapeChar).foldlM Lexer.step ⟨done, .literal before⟩ =
      some ⟨done, .literal (before ++ pieces)⟩ := by
  induction t with
  | nil => exact ⟨[], rfl, fun _ _ => by rw [List.append_nil]; rfl⟩
  | cons c t ih =>
    obtain ⟨p, hp, hc⟩ := exists_piece c
    obtain ⟨pieces, hpieces, ht⟩ := ih
    refine ⟨p :: pieces, by rw [hp, hpieces]; rfl, fun done before => ?_⟩
    rw [List.flatMap_cons, List.foldlM_append, hc]
    change List.foldlM Lexer.step ⟨done, .literal (before ++ [p])⟩ _ = _
    rw [ht, List.append_assoc, List.singleton_append]

/-- **A literal spells the text it is written for.** -/
theorem spells_literal (t : Text) : Spells (literal t) [.scalar (.text t)] := fun done => by
  obtain ⟨pieces, hpieces, hrun⟩ := exists_pieces t
  rw [literal, List.cons_append, List.foldlM_cons]
  change List.foldlM Lexer.step ⟨done, .literal []⟩ _ = _
  rw [List.foldlM_append, hrun]
  change Option.map _ (textOf? pieces) >>= some = _
  rw [List.nil_append, hpieces]
  rfl

end Spells

end Json

end ErrorCatalog
