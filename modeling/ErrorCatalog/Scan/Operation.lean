import ErrorCatalog.Scan.Entry

/-!
# Scan/Operation — a cursor driven step by step

Every reader, and every view of the cursor, as a step that can be asked for on its own.  A session
is a list of steps; a step that fails leaves the cursor where it stopped, and the next step goes on
from there.
-/

namespace ErrorCatalog

/-- A step that can be asked of a cursor. -/
inductive Operation
  | next
  | peek
  | peekAt (ahead : Int)
  | atEnd
  | surroundings
  | position
  | source
  | fail (message : Text) (kind : DiagnosticKind) (place : Option Position)
  /-- The characters that come next and are of the class `p`. -/
  | readWhile (p : Char → Bool)
  | expect (ch : Char)
  | keyword (word : Text)
  | name (what : Text)
  | space
  | commas
  | separators
  | literal
  | param
  | tag
  | docComment
  | field
  | record
  | entries

/-- What a step gives. -/
inductive Answer
  | nothing
  | char (c : Option Char)
  | flag (b : Bool)
  | text (t : Text)
  | position (p : Position)
  | param (p : Param)
  | tag (t : Attribute)
  | field (f : Field)
  | record (r : Record)
  | catalog (c : Catalog)

namespace Operation

/-- A step that only looks. -/
def look (view : Cursor → Answer) : Scan Answer := ⟨fun c => .ok (view c) c, fun c => c.le_refl⟩

/-- The next character, read. -/
def readNext : Scan Answer := ⟨fun c => .ok (.char c.peek) (c.advance 1), fun c => c.le_advance 1⟩

/-- **The reader that a step stands for.** -/
def reader (d : Dialect) : Operation → Scan Answer
  | next => readNext
  | peek => look fun c => .char c.peek
  | peekAt ahead => look fun c => .char (c.peekAt ahead)
  | atEnd => look fun c => .flag c.atEnd
  | surroundings => look fun c => .text c.surroundings
  | position => look fun c => .position c.position
  | source => look fun c => .text c.source
  | fail message kind place =>
      Scan.failWith fun c => ⟨.stated message, place.getD c.position, kind, none⟩
  | readWhile p => .text <$> Scan.readWhile p
  | expect ch => (fun _ => .nothing) <$> Scan.expect ch
  | keyword word => (fun _ => .nothing) <$> Scan.keyword word
  | name what => .text <$> Scan.name what
  | space => .text <$> Scan.space
  | commas => .text <$> Scan.commas
  | separators => .text <$> Scan.separators
  | literal => .text <$> Scan.literal
  | param => .param <$> Scan.param
  | tag => .tag <$> Scan.tag
  | docComment => .text <$> Scan.docComment d.marker
  | field => .field <$> Scan.field d
  | record => .record <$> Scan.record d
  | entries => .catalog <$> Scan.entries d

/-- The events of a step: only reading whole entries has any. -/
def events (d : Dialect) (c : Cursor) : Operation → List Event
  | entries => (Scan.entriesFrom d c).events
  | _ => []

/-- The outcomes of steps done in turn, with their events. -/
def session (d : Dialect) : List Operation → Cursor → List (Outcome Answer) × List Event
  | [], _ => ([], [])
  | o :: os, c =>
      let outcome := (o.reader d).run c
      let rest := session d os outcome.cursor
      (outcome :: rest.1, o.events d c ++ rest.2)

end Operation

end ErrorCatalog
