import ErrorCatalog.Catalog

/-!
# Json — a catalogue written as JSON

Only the values a catalogue needs: texts, arrays and objects.  A text escapes the quote, the
backslash and the control characters and nothing else; an array or object that is not empty puts
each of its parts on a line of its own.  Lines are indented by a width, which has to be a signed
number of 64 bits, and as many blanks have to fit into memory.

Every name, value, type and comment of a catalogue appears in source order, so nothing is lost.
-/

namespace ErrorCatalog

/-! ## Widths -/

/-- Why a number is no width of an indentation. -/
inductive WidthFault
  /-- No signed word of 64 bits holds it. -/
  | noWord
  /-- No memory holds that many blanks. -/
  | tooWide
  deriving DecidableEq, Repr

/-- The wording of a refused width. -/
def WidthFault.message : WidthFault → Text
  | noWord => "indentation is no 64-bit number".toList
  | tooWide => "indentation is too wide".toList

/-- The least width that no memory is taken to hold. -/
def widthLimit : Int := 0x1000000000

/-- The width `n`, if lines can be indented by it; a negative one stands for none. -/
def widthOf? (n : Int) : Except WidthFault Int :=
  if (Int64.ofInt n).toInt ≠ n then .error .noWord
  else if widthLimit ≤ n then .error .tooWide
  else .ok n

/-! ## Values -/

/-- A JSON value without numbers. -/
inductive Json where
  | text (t : Text)
  | array (items : List Json)
  | object (members : List (Text × Json))

namespace Json

/-! ### Texts -/

/-- One character inside a string literal. -/
def escapeChar (c : Char) : Text :=
  if c = '\x22' then "\\\"".toList
  else if c = '\\' then "\\\\".toList
  else if c = '\n' then "\\n".toList
  else if c = '\r' then "\\r".toList
  else if c = '\t' then "\\t".toList
  else if c = '\x08' then "\\b".toList
  else if c = '\x0c' then "\\f".toList
  else if c.toNat < 0x20 then "\\u".toList ++ Text.hex 4 c.toNat
  else [c]

/-- A text as a string literal. -/
def literal (t : Text) : Text := '\x22' :: t.flatMap escapeChar ++ ['\x22']

/-! ### Layout -/

/-- A line break and the space of `level` steps of `width`. -/
def newline (width level : Nat) : Text := '\n' :: List.replicate (width * level) ' '

/-- The parts of an array or object between its brackets, which stand at `level`. -/
def block (width level : Nat) (opening closing : Char) : List Text → Text
  | [] => [opening, closing]
  | part :: parts =>
      opening :: List.intercalate [','] ((part :: parts).map (newline width (level + 1) ++ ·)) ++
        newline width level ++ [closing]

mutual

/-- A value whose first line stands at `level`. -/
def render (width level : Nat) : Json → Text
  | text t => literal t
  | array items => block width level '[' ']' (renderItems width (level + 1) items)
  | object members => block width level '\x7b' '\x7d' (renderMembers width (level + 1) members)

/-- The parts of an array. -/
def renderItems (width level : Nat) : List Json → List Text
  | [] => []
  | item :: items => render width level item :: renderItems width level items

/-- The parts of an object. -/
def renderMembers (width level : Nat) : List (Text × Json) → List Text
  | [] => []
  | (key, value) :: members =>
      (literal key ++ ": ".toList ++ render width level value) :: renderMembers width level members

end

/-- **A value as a JSON text.**  A width below one leaves the line breaks and drops the space.  The
indentation is made first, so a width that is none is refused whatever the value. -/
def print (width : Int) (j : Json) : Except WidthFault Text :=
  (widthOf? width).map fun width => render width.toNat 0 j

end Json

/-! ## Catalogues -/

/-- A parameter as JSON. -/
def Param.toJson (p : Param) : Json :=
  .object [("name".toList, .text p.name), ("value".toList, .text p.value)]

/-- An attribute as JSON. -/
def Attribute.toJson (a : Attribute) : Json :=
  .object [("name".toList, .text a.name), ("params".toList, .array (a.params.map Param.toJson))]

/-- A field as JSON. -/
def Field.toJson (f : Field) : Json :=
  .object [("name".toList, .text f.name), ("type".toList, .text f.type),
    ("doc_comment".toList, .text f.doc)]

/-- A record as JSON. -/
def Record.toJson (r : Record) : Json :=
  .object [("name".toList, .text r.name), ("fields".toList, .array (r.fields.map Field.toJson))]

/-- An entry as JSON. -/
def Entry.toJson (e : Entry) : Json :=
  .object [("attribute".toList, e.tag.toJson), ("declaration".toList, e.record.toJson)]

/-- A catalogue as JSON. -/
def Catalog.toJson (c : Catalog) : Json := .array (c.map Entry.toJson)

/-- **The dump of a catalogue**, indented by `width`. -/
def Catalog.dump (c : Catalog) (width : Int) : Except WidthFault Text := c.toJson.print width

end ErrorCatalog
