import ErrorCatalog.Text.Basic

/-!
# Text/Encoding — texts as UTF-8

`encode` writes a text as bytes, `decode` reads bytes back.  Decoding stops at the first sequence
that is no character and reports where it starts, which bytes belong to it and what is wrong.
-/

namespace ErrorCatalog

namespace Encoding

/-! ## Writing -/

/-- A text as UTF-8. -/
def encode (t : Text) : Bytes := t.flatMap String.utf8EncodeChar

/-! ## Sequences -/

/-- The range of an ordinary continuation byte. -/
def continuation : UInt8 × UInt8 := (0x80, 0xbf)

/-- The ranges of the bytes that must follow a lead byte; `none` if the byte starts no character.
The second byte of some sequences has a narrower range, so that no character has two spellings and
no code point is out of range. -/
def following? (lead : UInt8) : Option (List (UInt8 × UInt8)) :=
  if lead < 0x80 then some []
  else if lead < 0xc2 then none
  else if lead < 0xe0 then some [continuation]
  else if lead = 0xe0 then some [(0xa0, 0xbf), continuation]
  else if lead = 0xed then some [(0x80, 0x9f), continuation]
  else if lead < 0xf0 then some [continuation, continuation]
  else if lead = 0xf0 then some [(0x90, 0xbf), continuation, continuation]
  else if lead < 0xf4 then some [continuation, continuation, continuation]
  else if lead = 0xf4 then some [(0x80, 0x8f), continuation, continuation]
  else none

/-- The bytes at the front that fall into the given ranges, one by one. -/
def fitting : List (UInt8 × UInt8) → Bytes → Bytes
  | r :: ranges, b :: rest => if r.1 ≤ b && b ≤ r.2 then b :: fitting ranges rest else []
  | _, _ => []

/-- What a lead byte with `n` followers contributes to the code point. -/
def leadBits (lead : UInt8) (n : Nat) : Nat :=
  match n with
  | 0 => lead.toNat
  | 1 => lead.toNat - 0xc0
  | 2 => lead.toNat - 0xe0
  | _ => lead.toNat - 0xf0

/-- The character that a complete sequence stands for. -/
def character (lead : UInt8) (tail : Bytes) : Char :=
  Char.ofNat (tail.foldl (fun n b => 64 * n + (b.toNat - 0x80)) (leadBits lead tail.length))

/-! ## Reading -/

/-- What is wrong with a sequence of bytes. -/
inductive Reason
  | startByte
  | continuationByte
  | endOfData
  deriving DecidableEq, Repr

/-- A sequence that is no character: where it starts, its bytes, and what is wrong with it. -/
structure Fault where
  start : Nat
  bytes : Bytes
  reason : Reason
  deriving DecidableEq, Repr

/-- The character at the front and how many bytes follow its lead byte, or the bytes that stand in
its way. -/
def front (lead : UInt8) (rest : Bytes) : Except (Bytes × Reason) (Char × Nat) :=
  match following? lead with
  | none => .error ([lead], .startByte)
  | some ranges =>
      let tail := fitting ranges rest
      if tail.length = ranges.length then .ok (character lead tail, tail.length)
      else if tail.length = rest.length then .error (lead :: tail, .endOfData)
      else .error (lead :: tail, .continuationByte)

/-- The text of the bytes from offset `start` on. -/
def decodeFrom (start : Nat) : Bytes → Except Fault Text
  | [] => .ok []
  | lead :: rest =>
      match front lead rest with
      | .error (bytes, reason) => .error ⟨start, bytes, reason⟩
      | .ok (c, n) => (decodeFrom (start + 1 + n) (rest.drop n)).map (c :: ·)
termination_by bytes => bytes.length
decreasing_by simp only [List.length_cons, List.length_drop]; omega

/-- **The text that the bytes encode**, or the first fault in them. -/
def decode (bytes : Bytes) : Except Fault Text := decodeFrom 0 bytes

/-- The byte order mark. -/
def byteOrderMark : Char := '\uFEFF'

/-- The text without the byte order mark it may start with. -/
def dropByteOrderMark : Text → Text
  | [] => []
  | c :: rest => if c = byteOrderMark then rest else c :: rest

/-! ## Messages -/

/-- The wording of a reason. -/
def Reason.message : Reason → Text
  | .startByte => "invalid start byte".toList
  | .continuationByte => "invalid continuation byte".toList
  | .endOfData => "unexpected end of data".toList

/-- Which bytes are at fault: a single one by its value, a longer sequence by its extent. -/
def Fault.extent (f : Fault) : Text :=
  match f.bytes with
  | [b] => "byte 0x".toList ++ Text.hex 2 b.toNat ++ " in position ".toList ++ Text.ofNat f.start
  | bytes => "bytes in position ".toList ++ Text.ofNat f.start ++ "-".toList ++
      Text.ofNat (f.start + bytes.length - 1)

/-- The full wording of a fault. -/
def Fault.message (f : Fault) : Text :=
  "'utf-8' codec can't decode ".toList ++ f.extent ++ ": ".toList ++ f.reason.message

end Encoding

end ErrorCatalog
