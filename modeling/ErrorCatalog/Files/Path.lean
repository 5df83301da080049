import ErrorCatalog.Text.Quoted

/-!
# Files/Path — names of files, and why a file cannot be used

A path is an anchor and the parts between its slashes.  Empty parts and single dots are dropped
when a path is read; double dots stay, since what they mean depends on the tree.

A request about a file is refused by the system, with one of its numbered errors, or it never gets
there because the path holds a NUL character, which no file name can.
-/

namespace ErrorCatalog

/-! ## Paths -/

/-- Where a path starts. -/
inductive Anchor
  /-- At the working directory. -/
  | relative
  /-- At the root. -/
  | root
  /-- At the root, written with exactly two slashes, which are kept. -/
  | doubleRoot
  deriving DecidableEq, Repr

/-- The slashes of an anchor. -/
def Anchor.text : Anchor → Text
  | relative => []
  | root => ['/']
  | doubleRoot => ['/', '/']

/-- The name of a file or directory. -/
structure Path where
  anchor : Anchor
  parts : List Text
  deriving DecidableEq, Repr

namespace Path

/-- The anchor of a path that starts with `n` slashes. -/
def anchorOf : Nat → Anchor
  | 0 => .relative
  | 2 => .doubleRoot
  | _ => .root

/-- The path that a text names. -/
def ofText (t : Text) : Path where
  anchor := anchorOf (t.takeWhile (· = '/')).length
  parts := (Text.pieces '/' t).filter fun part => part ≠ [] && part ≠ ['.']

/-- The path written out; the working directory is a dot. -/
def toText (p : Path) : Text :=
  let t := p.anchor.text ++ List.intercalate ['/'] p.parts
  if t = [] then ['.'] else t

/-- The directory that holds what the path names. -/
def parent (p : Path) : Path := { p with parts := p.parts.dropLast }

/-- The path as errors and logs about its content name it, with forward slashes only. -/
def label (p : Path) : Text := p.toText.map fun c => if c = '\\' then '/' else c

end Path

/-! ## Faults -/

/-- The errors of a file system. -/
inductive SystemFault
  | notFound
  | alreadyExists
  | notDirectory
  | isDirectory
  | nameTooLong
  /-- Any other error, by its number and wording. -/
  | other (number : Nat) (text : Text)
  deriving DecidableEq, Repr

namespace SystemFault

/-- The number of an error. -/
def number : SystemFault → Nat
  | notFound => 2
  | alreadyExists => 17
  | notDirectory => 20
  | isDirectory => 21
  | nameTooLong => 36
  | other n _ => n

/-- The wording of an error. -/
def text : SystemFault → Text
  | notFound => "No such file or directory".toList
  | alreadyExists => "File exists".toList
  | notDirectory => "Not a directory".toList
  | isDirectory => "Is a directory".toList
  | nameTooLong => "File name too long".toList
  | other _ t => t

end SystemFault

/-- Why a request about a file fails. -/
inductive FileFault
  /-- The system refuses it. -/
  | system (fault : SystemFault) (path : Path)
  /-- The path holds a NUL character. -/
  | nul
  deriving DecidableEq, Repr

/-- The wording of a failure. -/
def FileFault.message : FileFault → Text
  | .system fault path =>
      "[Errno ".toList ++ Text.ofNat fault.number ++ "] ".toList ++ fault.text ++ ": ".toList ++
        Text.quoted path.toText
  | .nul => "embedded null byte".toList

end ErrorCatalog
