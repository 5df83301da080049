import ErrorCatalog.CommandLine.Grammar
import ErrorCatalog.Files.Path
import ErrorCatalog.Interface.Module

/-!
# CommandLine/Command — what the program is asked to do

Two commands: `generate` renders the catalogues of its input files as one module, `dump` prints the
catalogue of one file.  `Invocation.ofArguments` reads a command line as one of them.  What a
command leaves over is refused only once the command itself made sense.
-/

namespace ErrorCatalog

/-- What is to be done. -/
inductive Command
  /-- Render the catalogues of files, to a file or to the output. -/
  | generate (inputs : List Path) (output : Option (Setting Path)) (types : List (Setting Text))
      (fallback : Setting Text)
  /-- Print the catalogue of a file. -/
  | dump (input : Path) (indent : Setting Int)
  deriving DecidableEq, Repr

/-- The files that a command reads, in order. -/
def Command.inputs : Command → List Path
  | generate inputs .. => inputs
  | dump input _ => [input]

/-- The type mappings that a command is given. -/
def Command.types : Command → List (Setting Text)
  | .generate _ _ types _ => types
  | .dump .. => []

/-- A command with what applies to all commands. -/
structure Invocation where
  verbose : Bool
  marker : Setting Text
  command : Command
  deriving DecidableEq, Repr

/-- Why a command line asks for nothing. -/
inductive Stop
  /-- It asks how it should look. -/
  | help (usage : Text)
  | usage (program : Text) (fault : UsageFault)
  deriving DecidableEq, Repr

/-! ## The programs -/

/-- The switches before a command. -/
inductive MainKey
  | help
  | verbose
  | marker
  deriving DecidableEq

/-- The switches of `generate`. -/
inductive GenerateKey
  | help
  | output
  | type
  | fallback
  /-- Shows no bar while the files are read.  The bar is drawn on the error output meanwhile and is
  no part of what a run is taken to show, so the switch changes nothing here. -/
  | noProgress
  deriving DecidableEq

/-- The switches of `dump`. -/
inductive DumpKey
  | help
  | indent
  deriving DecidableEq

/-- The name of the program. -/
def programName : Text := "declscan".toList

/-- The program with its commands. -/
def mainGrammar : Grammar MainKey where
  program := programName
  switches := [⟨.help, some 'h', "--help".toList, false⟩,
    ⟨.verbose, some 'v', "--verbose".toList, false⟩,
    ⟨.marker, none, "--doc-marker".toList, true⟩]
  operands := .command
  operandName := "command".toList

/-- The command that renders modules. -/
def generateGrammar : Grammar GenerateKey where
  program := programName ++ " generate".toList
  switches := [⟨.help, some 'h', "--help".toList, false⟩,
    ⟨.output, some 'o', "--output".toList, true⟩,
    ⟨.type, none, "--type".toList, true⟩,
    ⟨.fallback, none, "--fallback-type".toList, true⟩,
    ⟨.noProgress, none, "--no-progress".toList, false⟩]
  operands := .row
  operandName := "inputs".toList

/-- The command that prints a catalogue. -/
def dumpGrammar : Grammar DumpKey where
  program := programName ++ " dump".toList
  switches := [⟨.help, some 'h', "--help".toList, false⟩,
    ⟨.indent, none, "--indent".toList, true⟩]
  operands := .one
  operandName := "input".toList

/-- How the arguments of a program should look. -/
def Grammar.usage {κ : Type} (g : Grammar κ) : Text :=
  let switches := g.switches.map fun s =>
    " [".toList ++ s.label ++ (if s.takesValue then " VALUE]".toList else "]".toList)
  "usage: ".toList ++ g.program ++ switches.flatten ++ ' ' :: g.operandName ++ ['\n']

/-! ## Items in turn -/

/-- What the items add up to, one after the other, unless one of them or the reading's own fault
stops it. -/
def Reading.fold {κ σ : Type} (r : Reading κ) (program : Text) (step : σ → Item κ → Except Stop σ)
    (s : σ) : Except Stop σ := do
  let s ← r.items.foldlM step s
  match r.fault with
  | none => return s
  | some fault => throw (.usage program fault)

/-- What was said about a `generate` so far. -/
structure GenerateRequest where
  inputs : List Path := []
  output : Option (Setting Path) := none
  types : List (Setting Text) := []
  fallback : Setting Text := ({} : Style).fallback
  extras : List Text := []

/-- One more item of a `generate`. -/
def GenerateRequest.add (r : GenerateRequest) : Item GenerateKey → Except Stop GenerateRequest
  | .flag .help => throw (.help generateGrammar.usage)
  -- `noProgress`: a report has no bar that could be left out.
  | .flag _ => return r
  | .set .output v => return { r with output := some (v.map .ofText) }
  | .set .type v => return { r with types := r.types ++ [v] }
  | .set .fallback v => return { r with fallback := v }
  | .set _ _ => return r
  | .operand t => return { r with inputs := r.inputs ++ [.ofText t] }
  | .command _ _ => return r
  | .extra t => return { r with extras := r.extras ++ [t] }

/-- The `generate` that the arguments ask for, and what it leaves over. -/
def generateOf (arguments : List Text) : Except Stop (Command × List Text) := do
  let r ← (generateGrammar.read arguments).fold generateGrammar.program GenerateRequest.add {}
  return (.generate r.inputs r.output r.types r.fallback, r.extras)

/-- What was said about a `dump` so far. -/
structure DumpRequest where
  input : Path := .ofText []
  indent : Setting Int := .value 2
  extras : List Text := []

/-- One more item of a `dump`. -/
def DumpRequest.add (r : DumpRequest) : Item DumpKey → Except Stop DumpRequest
  | .flag .help => throw (.help dumpGrammar.usage)
  | .flag _ => return r
  | .set .indent .nothing => return { r with indent := .nothing }
  | .set .indent (.value t) =>
      match Text.toInt? t with
      | some n => return { r with indent := .value n }
      | none => throw (.usage dumpGrammar.program (.notInteger "--indent".toList t))
  | .set _ _ => return r
  | .operand t => return { r with input := .ofText t }
  | .command _ _ => return r
  | .extra t => return { r with extras := r.extras ++ [t] }

/-- The `dump` that the arguments ask for, and what it leaves over. -/
def dumpOf (arguments : List Text) : Except Stop (Command × List Text) := do
  let r ← (dumpGrammar.read arguments).fold dumpGrammar.program DumpRequest.add {}
  return (.dump r.input r.indent, r.extras)

/-- The command of that name. -/
def commandOf (name : Text) (arguments : List Text) : Except Stop (Command × List Text) :=
  if name = "generate".toList then generateOf arguments
  else if name = "dump".toList then dumpOf arguments
  else throw (.usage mainGrammar.program (.noSuchCommand name))

/-- What was said so far. -/
structure Request where
  verbose : Bool := false
  marker : Setting Text := .value Dialect.standard.marker.text
  command : Option Command := none
  extras : List Text := []

/-- One more item. -/
def Request.add (r : Request) : Item MainKey → Except Stop Request
  | .flag .help => throw (.help mainGrammar.usage)
  | .flag .verbose => return { r with verbose := true }
  | .flag _ => return r
  | .set .marker v => return { r with marker := v }
  | .set _ _ => return r
  | .operand _ => return r
  | .command name arguments => do
      let (command, extras) ← commandOf name arguments
      return { r with command := some command, extras := r.extras ++ extras }
  | .extra t => return { r with extras := r.extras ++ [t] }

/-- **What a command line asks for.** -/
def Invocation.ofArguments (arguments : List Text) : Except Stop Invocation := do
  let r ← (mainGrammar.read arguments).fold mainGrammar.program Request.add {}
  match r.command, r.extras with
  | none, _ => throw (.usage mainGrammar.program (.missing mainGrammar.operandName))
  | some _, extra :: extras =>
      throw (.usage mainGrammar.program (.unrecognized (extra :: extras)))
  | some command, [] => return ⟨r.verbose, r.marker, command⟩

end ErrorCatalog
