import ErrorCatalog.Catalog
import ErrorCatalog.Log
import ErrorCatalog.Scan.Token

/-!
# Scan/Entry — the grammar of declarations

With space allowed between any two tokens:

    entry      := attribute record
    attribute  := "#" "[" name "(" (param separators)* ")" "]"
    param      := name separators "=" literal
    record     := visibility recordWord name "\x7b" (field separators)* "\x7d"
    field      := (marker restOfLine)* visibility name ":" name

Each rule is a reader.  Whether a list goes on is decided by its closing character alone, whatever
else comes next.

`entriesFrom` reads entries up to the end of the text and keeps those it completed before an error;
each completed entry is an event.  `Catalog.ofText?` is the catalogue of a text, all or nothing.
-/

namespace ErrorCatalog

namespace Scan

/-! ## Attributes -/

/-- `name = "value"`, where separators may stand before the equals sign. -/
def param : Scan Param := do
  let _ ← space
  let name ← name "parameter name".toList
  let _ ← separators
  expect '='
  let _ ← space
  let value ← literal
  return { name, value }

/-- A parameter with the separators after it. -/
def paramItem : Scan Param := do
  let p ← param
  let _ ← separators
  return p

theorem consumes_param : param.Consumes :=
  Consumes.of_bind _ fun _ => (consumes_name _).bind _

theorem consumes_paramItem : paramItem.Consumes := consumes_param.bind _

/-- `#[name(params)]` with the space around it. -/
def tag : Scan Attribute := do
  let _ ← space
  expect '#'
  let _ ← space
  expect '['
  let _ ← space
  let name ← name "attribute name".toList
  let _ ← space
  expect '('
  let _ ← space
  let params ← manyUntil paramItem consumes_paramItem ')'
  expect ')'
  let _ ← space
  expect ']'
  let _ ← space
  return { name, params }

theorem consumes_tag : tag.Consumes :=
  Consumes.of_bind _ fun _ => (consumes_expect _).bind _

/-! ## Documentation -/

/-- Does the cursor stand before the marker? -/
def atMarker (m : Marker) (c : Cursor) : Bool := m.text.isPrefixOf c.ahead

/-- One line of documentation with the space after it; its text is trimmed. -/
def docLine (m : Marker) : Scan Text := do
  skip m.text.length
  let line ← readWhile (· ≠ '\n')
  let _ ← space
  return Text.trim line

theorem progresses_docLine (m : Marker) : (docLine m).Progresses fun c => !atMarker m c := by
  intro c a c'' hs h
  obtain ⟨u, c', hskip, hrest⟩ := run_bind_eq_ok.mp h
  cases hskip
  refine Nat.lt_of_le_of_lt (Cursor.length_ahead_le (le_of_run_ok hrest)) ?_
  have hp : m.text <+: c.ahead := List.isPrefixOf_iff_prefix.mp (by simpa [atMarker] using hs)
  exact length_ahead_advance_lt (List.length_pos_iff.mpr m.text_ne_nil) hp.length_le

/-- The lines of documentation that come next, joined by single spaces; empty lines are left
out. -/
def docComment (m : Marker) : Scan Text := do
  let _ ← space
  let lines ← many (docLine m) (fun c => !atMarker m c) (progresses_docLine m)
  return List.intercalate [' '] (lines.filter (· ≠ []))

/-! ## Records -/

/-- A field with its documentation and the separators after it. -/
def field (d : Dialect) : Scan Field := do
  let _ ← space
  let doc ← docComment d.marker
  let _ ← space
  keyword d.visibility.text
  let _ ← space
  let name ← name "field name".toList
  let _ ← space
  expect ':'
  let _ ← space
  let type ← Scan.name "field type".toList
  let _ ← separators
  return { name, type, doc }

theorem consumes_field (d : Dialect) : (field d).Consumes :=
  Consumes.of_bind _ fun _ => Consumes.of_bind _ fun _ => Consumes.of_bind _ fun _ =>
    (consumes_keyword d.visibility.text_ne_nil).bind _

/-- A record with the space around it. -/
def record (d : Dialect) : Scan Record := do
  let _ ← space
  keyword d.visibility.text
  let _ ← space
  keyword d.record.text
  let _ ← space
  let name ← name "struct name".toList
  let _ ← space
  expect '\x7b'
  let _ ← space
  let fields ← manyUntil (field d) (consumes_field d) '\x7d'
  expect '\x7d'
  let _ ← space
  return { name, fields }

/-- **A record under its attribute.** -/
def entry (d : Dialect) : Scan Entry := do
  let tag ← tag
  let record ← record d
  return { tag, record }

theorem consumes_entry (d : Dialect) : (entry d).Consumes := consumes_tag.bind _

end Scan

/-! ## Whole texts -/

/-- The event of an entry that was read to its end. -/
def Entry.event (e : Entry) : Event :=
  .scanned e.tag.name e.record.name e.record.fields.length

/-- The events of the entries that were read to their end. -/
def Harvest.events (h : Harvest Entry) : List Event := h.items.map Entry.event

namespace Scan

/-- The entries from the cursor to the end of the text. -/
def entriesFrom (d : Dialect) (c : Cursor) : Harvest Entry :=
  harvest (entry d) Cursor.atEnd ((consumes_entry d).progresses _)
    (c.advance (c.ahead.takeWhile isSpace).length)

/-- The entries of a text. -/
def entriesOf (d : Dialect) (t : Text) : Harvest Entry := entriesFrom d (Cursor.start t)

/-- The reader of all entries up to the end of the text. -/
def entries (d : Dialect) : Scan (List Entry) where
  run c := (entriesFrom d c).outcome
  le_run c := by
    rw [Harvest.cursor_outcome]
    exact Cursor.le_trans (c.le_advance _) (le_harvest _ _)

end Scan

/-- **The catalogue that a text declares**, or the first error in it. -/
def Catalog.ofText? (d : Dialect) (t : Text) : Except ScanError Catalog :=
  ((Scan.entries d).run (Cursor.start t)).result

end ErrorCatalog
