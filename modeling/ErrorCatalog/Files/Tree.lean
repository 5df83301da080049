import ErrorCatalog.Files.Path
import ErrorCatalog.Text.Encoding

/-!
# Files/Tree — places where files are kept, and a tree of files and directories

Saving needs three things of the place where files are kept: making one directory, telling whether a
directory is there, and writing one file.  The directories above a file are made from the first
missing one down; those made before a failure stay.

A tree lists its nodes by location.  A path is followed part by part from the working directory or
the root, and every part but the last must be a directory that exists; that fixes which error comes
first.  Reading leaves the tree alone, and writing changes the one file it names.
-/

namespace ErrorCatalog

/-! ## A file in a directory that may be missing -/

/-- A place where files are kept. -/
structure Storage (m : Type → Type) where
  /-- Makes a directory inside one that is there. -/
  makeDirectory : Path → m (Except FileFault Unit)
  isDirectory : Path → m Bool
  /-- Writes a file in a directory that is there. -/
  write : Path → Bytes → m (Except FileFault Unit)

namespace Storage

variable {m : Type → Type} [Monad m] (s : Storage m)

/-- The result of making a directory that could not be made, which is none if it is there. -/
def unlessThere (p : Path) (fault : FileFault) : m (Except FileFault Unit) := do
  if ← s.isDirectory p then return .ok () else return .error fault

/-- A directory inside one that is there, unless it is there itself. -/
def makeIfMissing (p : Path) : m (Except FileFault Unit) := do
  match ← s.makeDirectory p with
  | .ok () => return .ok ()
  | .error fault => s.unlessThere p fault

/-- A directory and those above it, as far as they are missing. -/
def makeDirectories (p : Path) : m (Except FileFault Unit) := do
  match ← s.makeDirectory p with
  | .ok () => return .ok ()
  | .error (.system .notFound path) =>
      if _ : p.parts = [] then return .error (.system .notFound path)
      else match ← makeDirectories p.parent with
        | .ok () => s.makeIfMissing p
        | .error fault => return .error fault
  | .error fault => s.unlessThere p fault
termination_by p.parts.length
decreasing_by
  simp only [Path.parent, List.length_dropLast]
  have := List.length_pos_iff.mpr ‹p.parts ≠ []›
  omega

/-- **A file written in a directory that is made if it is missing.** -/
def save (p : Path) (content : Bytes) : m (Except FileFault Unit) := do
  match ← s.makeDirectories p.parent with
  | .ok () => s.write p content
  | .error fault => return .error fault

end Storage

/-! ## Trees -/

/-- The names on the way down from the root. -/
abbrev Location := List Text

/-- What stands at a location. -/
inductive Node
  | file (content : Bytes)
  | directory
  deriving DecidableEq, Repr

/-- A tree of files and directories. -/
structure FileTree where
  nodes : List (Location × Node)
  /-- The working directory. -/
  home : Location

namespace FileTree

/-! ## Nodes -/

/-- The tree that holds nothing but the working directory and the directories above it. -/
def bare (home : Location) : FileTree where
  nodes := (List.range home.length).map fun n => (home.take (n + 1), .directory)
  home := home

/-- What stands at a location; the root is always there. -/
def node? (t : FileTree) (l : Location) : Option Node :=
  if l = [] then some .directory else t.nodes.lookup l

/-- The tree with `n` at the location `l`. -/
def put (t : FileTree) (l : Location) (n : Node) : FileTree :=
  { t with nodes := (l, n) :: t.nodes.filter fun entry => entry.1 ≠ l }

/-! ## Following a path -/

/-- The longest part of a path, in bytes. -/
def maxPart : Nat := 255

/-- The longest path, in bytes. -/
def maxPath : Nat := 4095

/-- The location that `part` names inside `l`. -/
def descend (t : FileTree) (l : Location) (part : Text) : Except SystemFault Location :=
  match t.node? l with
  | none => .error .notFound
  | some (.file _) => .error .notDirectory
  | some .directory =>
      if part = "..".toList then .ok l.dropLast
      else if maxPart < (Encoding.encode part).length then .error .nameTooLong
      else .ok (l ++ [part])

/-- The location where a path starts. -/
def base (t : FileTree) : Anchor → Location
  | .relative => t.home
  | _ => []

/-- The location that a path names; nothing need stand there. -/
def locate (t : FileTree) (p : Path) : Except FileFault Location :=
  if '\x00' ∈ p.toText then .error .nul
  else if maxPath < (Encoding.encode p.toText).length then .error (.system .nameTooLong p)
  else (p.parts.foldlM t.descend (t.base p.anchor)).mapError (.system · p)

/-- Does the path name a directory? -/
def isDirectory (t : FileTree) (p : Path) : Bool :=
  match t.locate p with
  | .ok l => t.node? l = some .directory
  | .error _ => false

/-! ## Reading and writing -/

/-- **The content of a file.** -/
def read (t : FileTree) (p : Path) : Except FileFault Bytes := do
  match t.node? (← t.locate p) with
  | none => throw (.system .notFound p)
  | some .directory => throw (.system .isDirectory p)
  | some (.file content) => return content

/-- The tree with the content of a file replaced; the file is made if there is none. -/
def write (t : FileTree) (p : Path) (content : Bytes) : Except FileFault FileTree := do
  let l ← t.locate p
  match t.node? l with
  | some .directory => throw (.system .isDirectory p)
  | _ => return t.put l (.file content)

/-- The tree with one directory more. -/
def makeDirectory (t : FileTree) (p : Path) : Except FileFault FileTree := do
  let l ← t.locate p
  match t.node? l with
  | some _ => throw (.system .alreadyExists p)
  | none => return t.put l .directory

/-- The tree after a change, or as it was if the change is refused. -/
def change (f : FileTree → Except FileFault FileTree) : StateM FileTree (Except FileFault Unit) :=
  fun t => match f t with
    | .ok t' => (.ok (), t')
    | .error fault => (.error fault, t)

/-- The tree as a place where files are kept. -/
def storage : Storage (StateM FileTree) where
  makeDirectory p := change (makeDirectory · p)
  isDirectory p := return (← get).isDirectory p
  write p content := change (write · p content)

/-- **A file saved in the tree**, whose directory is made if it is missing. -/
def save (t : FileTree) (p : Path) (content : Bytes) : Except FileFault Unit × FileTree :=
  storage.save p content t

/-! ## Comparing trees -/

/-- The files of `t` that `old` has not, or has with another content. -/
def changes (old t : FileTree) : List (Location × Bytes) :=
  t.nodes.filterMap fun entry =>
    match t.node? entry.1 with
    | some (.file content) =>
        if old.node? entry.1 = some (.file content) then none else some (entry.1, content)
    | _ => none

end FileTree

end ErrorCatalog
