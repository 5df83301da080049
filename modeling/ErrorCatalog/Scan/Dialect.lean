import ErrorCatalog.Log

/-!
# Scan/Dialect — the characters and words a declaration language uses

Between tokens only six ASCII characters count as space, and a name is made of ASCII letters,
digits and underscores.

Dialects differ in the keyword that makes an item visible, the keyword that opens a record, and the
marker that opens a line of documentation.  A keyword is a non-empty name; a marker is non-empty
and holds no blank.
-/

namespace ErrorCatalog

/-! ## Classes of characters -/

/-- Space between tokens. -/
def isSpace (c : Char) : Bool :=
  c = ' ' || c = '\t' || c = '\n' || c = '\r' || c = '\x0b' || c = '\x0c'

/-- A comma. -/
def isComma (c : Char) : Bool := c = ','

/-- Space or a comma: what may stand between the items of a list. -/
def isSeparator (c : Char) : Bool := isSpace c || isComma c

/-- A character of a name. -/
def isNameChar (c : Char) : Bool := c.isAlphanum || c = '_'

/-- The classes a run of characters can be read by. -/
inductive CharClass
  | space
  | comma
  | name
  deriving DecidableEq, Repr

/-- The characters of a class. -/
def CharClass.contains : CharClass → Char → Bool
  | .space => isSpace
  | .comma => isComma
  | .name => isNameChar

instance : Coe CharClass (Char → Bool) := ⟨CharClass.contains⟩

/-! ## Dialects -/

/-- A word with a fixed meaning. -/
structure Keyword where
  text : Text
  text_ne_nil : text ≠ []
  isName : text.all isNameChar = true
  deriving DecidableEq

/-- The text that opens a line of documentation. -/
structure Marker where
  text : Text
  text_ne_nil : text ≠ []
  not_blank : text.any isBlank = false
  deriving DecidableEq

/-- The words of one declaration language. -/
structure Dialect where
  /-- The word before a record and before a field. -/
  visibility : Keyword
  /-- The word before a record's name. -/
  record : Keyword
  /-- The opening of a documentation line. -/
  marker : Marker
  deriving DecidableEq

namespace Dialect

/-- The dialect that is meant unless another is asked for. -/
def standard : Dialect where
  visibility := ⟨"pub".toList, List.cons_ne_nil _ _, rfl⟩
  record := ⟨"struct".toList, List.cons_ne_nil _ _, rfl⟩
  marker := ⟨"////".toList, List.cons_ne_nil _ _, rfl⟩

/-- The dialect whose documentation lines open with three slashes. -/
def tripleSlash : Dialect :=
  { standard with marker := ⟨"///".toList, List.cons_ne_nil _ _, rfl⟩ }

/-- Why a set of words is no dialect. -/
inductive Invalid
  | keyword (word : Text)
  /-- A text that is no marker, or no text at all. -/
  | marker (text : Setting Text)
  deriving DecidableEq, Repr

/-- The wording of a refusal. -/
def Invalid.message : Invalid → Text
  | .keyword word => "Keyword must be a non-empty name: ".toList ++ Text.quoted word
  | .marker text =>
      "Doc comment marker must be non-empty without whitespace: ".toList ++ text.quoted

end Dialect

/-- The keyword spelled `word`. -/
def Keyword.ofText? (word : Text) : Except Dialect.Invalid Keyword :=
  if h : word ≠ [] ∧ word.all isNameChar = true then .ok ⟨word, h.1, h.2⟩
  else .error (.keyword word)

/-- The marker spelled `text`. -/
def Marker.ofText? (text : Text) : Except Dialect.Invalid Marker :=
  if h : text ≠ [] ∧ text.any isBlank = false then .ok ⟨text, h.1, h.2⟩
  else .error (.marker (.value text))

/-- The marker that is set. -/
def Marker.ofSetting? (text : Setting Text) : Except Dialect.Invalid Marker :=
  text.toExcept (.marker text) >>= Marker.ofText?

namespace Dialect

/-- The dialect with these words, tried in this order. -/
def ofTexts? (visibility record marker : Text) : Except Invalid Dialect := do
  let visibility ← Keyword.ofText? visibility
  let record ← Keyword.ofText? record
  let marker ← Marker.ofText? marker
  return { visibility, record, marker }

end Dialect

end ErrorCatalog
