import ErrorCatalog.CommandLine.Run

/-!
# Main — the program on a real file system

The inputs are read in turn, the product is made by `Invocation.product`, and it is put out.
-/

namespace ErrorCatalog

/-- The fault with a number; some systems give the number negated. -/
def faultOfNumber (code : UInt32) (details : String) : SystemFault :=
  match (min code (0 - code)).toNat with
  | 2 => .notFound
  | 17 => .alreadyExists
  | 20 => .notDirectory
  | 21 => .isDirectory
  | 36 => .nameTooLong
  | n => .other n details.toList

/-- The fault that a system error stands for. -/
def faultOf : IO.Error → SystemFault
  | .noFileOrDirectory _ code details => faultOfNumber code details
  | .inappropriateType _ code details => faultOfNumber code details
  | .alreadyExists _ code details => faultOfNumber code details
  | .invalidArgument _ code details => faultOfNumber code details
  | .permissionDenied _ code details => faultOfNumber code details
  | e => .other 0 (toString e).toList

/-- An action on the file that a path names. -/
def onFile {α : Type} (p : Path) (action : String → IO α) : IO (Except FileFault α) := do
  if '\x00' ∈ p.toText then return .error .nul
  try
    return .ok (← action (String.ofList p.toText))
  catch e =>
    return .error (.system (faultOf e) p)

/-- The content of a file. -/
def readFile (p : Path) : IO (Except FileFault Bytes) :=
  onFile p fun name => return (← IO.FS.readBinFile name).toList

/-- The files of the system. -/
def systemStorage : Storage IO where
  makeDirectory p := onFile p fun name => IO.FS.createDir name
  isDirectory p := return (← onFile p fun name => discard (IO.FS.realPath (name ++ "/."))).isOk
  write p content := onFile p fun name => IO.FS.writeBinFile name ⟨content.toArray⟩

/-- The contents of files, read one after the other up to the first that gives no catalogue. -/
def contentsOf (d : Dialect) : List Path → IO (List (Path × Except FileFault Bytes))
  | [] => return []
  | p :: ps => do
      let content ← readFile p
      match (Catalog.load d p content).value with
      | .ok _ => return (p, content) :: (← contentsOf d ps)
      | .error _ => return [(p, content)]

/-- The contents that an invocation depends on; none if its settings are refused. -/
def Invocation.contents (i : Invocation) : IO (List (Path × Except FileFault Bytes)) :=
  match i.dialect?, mappingsOf i.command.types with
  | .ok d, .ok _ => contentsOf d i.command.inputs
  | _, _ => return []

/-- The report of an invocation carried out on the files there are. -/
def carryOut (i : Invocation) : IO Report := do
  let contents ← i.contents
  -- A file that was not read plays no part in the product, so any fault may stand for it.
  let read := fun p => (contents.lookup p).getD (.error (.system .notFound p))
  match i.product read with
  | ⟨.error f, events⟩ => return .ofFailure i events f
  | ⟨.ok p, events⟩ =>
      match p.target with
      | none => return .ofPrinting i events p
      | some path =>
          let saved ← systemStorage.save path (Encoding.encode p.text)
          return .ofSaving i events p path saved

end ErrorCatalog

open ErrorCatalog in
/-- The program. -/
def main (arguments : List String) : IO UInt32 := do
  let report ← match Invocation.ofArguments (arguments.map String.toList) with
    | .error stop => pure (Report.ofStop stop)
    | .ok i => carryOut i
  (← IO.getStderr).putStr (String.ofList report.stderr)
  (← IO.getStdout).putStr (String.ofList report.stdout)
  return UInt32.ofNat report.exitCode
