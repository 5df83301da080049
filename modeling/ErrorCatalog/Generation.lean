import ErrorCatalog.Files.Path
import ErrorCatalog.Interface.Module
import ErrorCatalog.Scan.Entry
import ErrorCatalog.Text.Encoding

/-!
# Generation — from a file, a text or a catalogue to a module

A file is decoded as a whole before it is scanned, so a fault in its encoding comes before any
error in its text.  A byte order mark at its start is no part of the text.

The catalogue to generate from either is given or is read from a text in some dialect; a dialect
says nothing about a given catalogue, so having both is refused.
-/

namespace ErrorCatalog

/-! ## The catalogue of a file -/

/-- Why a file gives no catalogue. -/
inductive LoadFault
  | file (fault : FileFault)
  | encoding (path : Path) (fault : Encoding.Fault)
  | scan (e : ScanError)

/-- The catalogue of a decoded text, whose errors name the file. -/
def Catalog.ofFileText (d : Dialect) (p : Path) (t : Text) : Logged (Except LoadFault Catalog) :=
  let harvest := Scan.entriesOf d t
  match harvest.outcome.result with
  | .error e => ⟨.error (.scan (e.inFile p.label)), harvest.events⟩
  | .ok c => ⟨.ok c, harvest.events ++ [.loaded c.length p.label]⟩

/-- **The catalogue of a file** whose content was asked for. -/
def Catalog.load (d : Dialect) (p : Path) (content : Except FileFault Bytes) :
    Logged (Except LoadFault Catalog) :=
  match content with
  | .error fault => ⟨.error (.file fault), []⟩
  | .ok bytes =>
      match Encoding.decode bytes with
      | .error fault => ⟨.error (.encoding p fault), []⟩
      | .ok t => Catalog.ofFileText d p (Encoding.dropByteOrderMark t)

/-! ## The module of a catalogue -/

/-- A catalogue and the module generated from it. -/
structure Generation where
  catalog : Catalog
  output : Text

namespace Generation

/-- Why nothing was generated. -/
inductive Failure
  | scan (e : ScanError)
  | dialectForCatalog

/-- The wording of the refusal of a dialect beside a catalogue. -/
def dialectForCatalogMessage : Text :=
  "Pass either document or scanner_options, not both".toList

/-- The catalogue to generate from. -/
def source (t : Text) (dialect : Option Dialect) (given : Option Catalog) :
    Logged (Except Failure Catalog) :=
  match given, dialect with
  | some c, none => ⟨.ok c, []⟩
  | some _, some _ => ⟨.error .dialectForCatalog, []⟩
  | none, _ =>
      let harvest := Scan.entriesOf (dialect.getD .standard) t
      ⟨harvest.outcome.result.mapError .scan, harvest.events⟩

/-- A catalogue's module. -/
def ofCatalog (s : Style) (c : Catalog) : Logged Generation := do
  let output ← s.render c
  return ⟨c, output⟩

/-- **Reading and rendering in one.** -/
def run (s : Style) (t : Text) (dialect : Option Dialect) (given : Option Catalog) :
    Logged (Except Failure Generation) := do
  match ← source t dialect given with
  | .ok c => Except.ok <$> ofCatalog s c
  | .error e => return .error e

end Generation

end ErrorCatalog
