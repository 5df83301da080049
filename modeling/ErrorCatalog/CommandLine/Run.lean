import ErrorCatalog.CommandLine.Command
import ErrorCatalog.Files.Tree
import ErrorCatalog.Generation

/-!
# CommandLine/Run — what a command line does to a tree of files

A run goes in three steps: the arguments are understood, the inputs are read and turned into the
product, and the product is put out.  Files are only read in the second step and only written in
the third, so whatever fails before leaves the tree as it was.

A run fails on what its arguments say, on a file it reads or on the file it writes.  It also fails
on a choice that it needs and that is set to nothing, or to a width that no line can have.
-/

namespace ErrorCatalog

/-! ## Settings that a run cannot use -/

/-- What a run cannot do without once it is asked for. -/
inductive Need
  /-- The name of the file to write. -/
  | target
  /-- The text of a type mapping. -/
  | mapping
  /-- The width of an indentation. -/
  | indentation
  deriving DecidableEq, Repr

/-- A need as a message names it. -/
def Need.name : Need → Text
  | target => "output file".toList
  | mapping => "type mapping".toList
  | indentation => "indentation".toList

/-! ## Failures -/

/-- Why a run fails. -/
inductive Failure
  /-- The arguments make no sense to the program of that name. -/
  | usage (program : Text) (fault : UsageFault)
  | load (fault : LoadFault)
  | save (fault : FileFault)
  /-- Something needed is set to nothing. -/
  | unset (need : Need)
  | width (fault : WidthFault)

namespace Failure

/-- The code a process ends with after a failure. -/
def exitCode : Failure → Nat
  | usage .. => 2
  | _ => 1

/-- An error in one line. -/
def errorLine (message : Text) : Text := "error: ".toList ++ message ++ ['\n']

/-- What a failure prints. -/
def text : Failure → Text
  | usage program fault => program ++ ": error: ".toList ++ fault.message ++ ['\n']
  | load (.file fault) => errorLine fault.message
  | load (.encoding path fault) =>
      errorLine (path.toText ++ ": not valid UTF-8 (".toList ++ fault.reason.message ++
        " at byte ".toList ++ Text.ofNat fault.start ++ ")".toList)
  | load (.scan e) =>
      "error[".toList ++ e.code ++ "]: ".toList ++ e.message ++ "\n  --> ".toList ++ e.location ++
        ['\n']
  | save fault => errorLine fault.message
  | unset need => errorLine ("no ".toList ++ need.name)
  | width fault => errorLine fault.message

end Failure

/-! ## From arguments to a product -/

/-- What a run puts out. -/
structure Product where
  text : Text
  /-- How many entries it is made of. -/
  entries : Nat
  /-- The file it goes to; without one, the output. -/
  target : Option Path

/-- A computation that reports events and may fail. -/
abbrev Attempt := ExceptT Failure Logged

/-- The mapping `source=target`, trimmed; neither side may be blank. -/
def mappingOf? (t : Text) : Option (Text × Text) :=
  match cutAtEquals t with
  | (source, some target) =>
      if Text.trim source = [] || Text.trim target = [] then none
      else some (Text.trim source, Text.trim target)
  | _ => none

/-- The mapping that is set. -/
def mappingOf (v : Setting Text) : Except Failure (Text × Text) := do
  let t ← v.toExcept (.unset .mapping)
  match mappingOf? t with
  | some mapping => return mapping
  | none => throw (.usage programName (.mapping t))

/-- The table of the mappings, or the failure of the first one that is none. -/
def mappingsOf (types : List (Setting Text)) : Except Failure Table := types.mapM mappingOf

namespace Invocation

/-- A step that reports nothing. -/
def silently {α : Type} (r : Except Failure α) : Attempt α := ExceptT.mk (pure r)

/-- The catalogue of an input. -/
def input (d : Dialect) (read : Path → Except FileFault Bytes) (p : Path) : Attempt Catalog :=
  ExceptT.mk (Except.mapError .load <$> Catalog.load d p (read p))

/-- The dialect with the marker that was asked for. -/
def dialect? (i : Invocation) : Except Failure Dialect :=
  ((Marker.ofSetting? i.marker).map fun marker => { Dialect.standard with marker }).mapError
    fun reason => .usage programName (.dialect reason)

/-- The dump of a catalogue, indented by the width that is set. -/
def dumped (c : Catalog) (indent : Setting Int) : Except Failure Text := do
  (c.dump (← indent.toExcept (.unset .indentation))).mapError .width

/-- **The product of an invocation**, given the content of the files. -/
def product (i : Invocation) (read : Path → Except FileFault Bytes) : Attempt Product := do
  let d ← silently i.dialect?
  match i.command with
  | .generate inputs output types fallback =>
      let table ← silently (mappingsOf types)
      let catalogs ← inputs.mapM (input d read)
      let style := ({ fallback } : Style).withTypes table
      let generation ← ExceptT.lift (Generation.ofCatalog style catalogs.flatten)
      let target ← silently (output.mapM (·.toExcept (.unset .target)))
      return ⟨generation.output, generation.catalog.length, target⟩
  | .dump path indent =>
      let catalog ← input d read path
      let text ← silently (dumped catalog indent)
      return ⟨text ++ ['\n'], catalog.length, none⟩

end Invocation

/-! ## Reports -/

/-- What a run shows to its user. -/
structure Report where
  stdout : Text := []
  events : List Event := []
  verbose : Bool := false
  failure : Option Failure := none

namespace Report

/-- The code the process ends with. -/
def exitCode (r : Report) : Nat := r.failure.elim 0 Failure.exitCode

/-- The events that are shown. -/
def shown (r : Report) : List Event := r.events.filter fun e => r.verbose || e.isAlwaysShown

/-- The log and after it the failure.  The bar that shows how far the reading of the files has come,
unless it is switched off, is not among this. -/
def stderr (r : Report) : Text :=
  r.shown.flatMap (fun e => e.line ++ ['\n']) ++ r.failure.elim [] Failure.text

/-- The report of arguments that ask for nothing. -/
def ofStop : Stop → Report
  | .help usage => { stdout := usage }
  | .usage program fault => { failure := some (.usage program fault) }

/-- The report of an invocation that gave no product. -/
def ofFailure (i : Invocation) (events : List Event) (f : Failure) : Report :=
  { events, verbose := i.verbose, failure := some f }

/-- The report of a product that goes to the output. -/
def ofPrinting (i : Invocation) (events : List Event) (p : Product) : Report :=
  { stdout := p.text, events, verbose := i.verbose }

/-- The report of a product that goes to a file. -/
def ofSaving (i : Invocation) (events : List Event) (p : Product) (path : Path) :
    Except FileFault Unit → Report
  | .ok () => { events := events ++ [.wrote p.entries path.toText], verbose := i.verbose }
  | .error fault => ofFailure i events (.save fault)

end Report

/-! ## Runs -/

/-- What an understood command line does to a tree. -/
def Invocation.run (i : Invocation) (t : FileTree) : Report × FileTree :=
  match i.product t.read with
  | ⟨.error f, events⟩ => (.ofFailure i events f, t)
  | ⟨.ok p, events⟩ =>
      match p.target with
      | none => (.ofPrinting i events p, t)
      | some path =>
          let saved := t.save path (Encoding.encode p.text)
          (.ofSaving i events p path saved.1, saved.2)

/-- **What a command line does to a tree of files**, and what it shows. -/
def run (arguments : List Text) (t : FileTree) : Report × FileTree :=
  match Invocation.ofArguments arguments with
  | .error stop => (.ofStop stop, t)
  | .ok i => i.run t

end ErrorCatalog
