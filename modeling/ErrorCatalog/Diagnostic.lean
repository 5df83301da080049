import ErrorCatalog.Position
import ErrorCatalog.Text.Quoted

/-!
# Diagnostic — what is reported about a text that cannot be scanned

A scan error has a cause, the position it points at, and a kind that tells truncated input from
wrong input.  The wording of a cause is made here and nowhere else.
-/

namespace ErrorCatalog

/-! ## Kinds -/

/-- How grave a diagnostic is. -/
inductive Severity
  | error
  | warning
  deriving DecidableEq, Repr

/-- A kind of diagnostic: its code, what it says in general, and how to mend the input. -/
structure DiagnosticKind where
  code : Text
  message : Text
  hint : Option Text := none
  severity : Severity := .error
  category : Option Text := none
  deriving DecidableEq, Repr

namespace DiagnosticKind

/-- A character that cannot stand where it stands. -/
def unexpected : DiagnosticKind where
  code := "SCAN_UNEXPECTED_CHARACTER".toList
  message := "Unexpected character".toList
  hint := some ("Declarations look like `#[name(key = \"value\")] pub struct Name \x7b ".toList ++
    "pub field: Type \x7d`.".toList)
  category := some "scanner".toList

/-- The text ends inside a declaration. -/
def unterminated : DiagnosticKind where
  code := "SCAN_UNTERMINATED_CONSTRUCT".toList
  message := "Unexpected end of input".toList
  hint := some "Close the open string literal, attribute or struct body.".toList
  category := some "scanner".toList

end DiagnosticKind

/-! ## Causes -/

/-- What the grammar asks for at some point. -/
inductive Expectation
  /-- This very character. -/
  | char (c : Char)
  /-- This keyword. -/
  | keyword (word : Text)
  /-- Some name, of the sort described. -/
  | name (what : Text)
  deriving DecidableEq, Repr

/-- The wording of an expectation. -/
def Expectation.message : Expectation → Text
  | .char c => "Expected ".toList ++ Text.quoted [c]
  | .keyword word => "Expected keyword ".toList ++ Text.quoted word
  | .name what => "Expected ".toList ++ what

/-- Why a scan cannot go on. -/
inductive Cause
  /-- Another character stands where something was expected; `near` is the text around it. -/
  | unexpected (wanted : Expectation) (found : Char) (near : Text)
  /-- The text ends where something was expected. -/
  | endOfInput (wanted : Expectation)
  /-- Another word stands where a keyword was expected. -/
  | otherWord (keyword word : Text)
  /-- A reason in the words of the caller. -/
  | stated (message : Text)
  deriving DecidableEq, Repr

/-- The wording of a cause. -/
def Cause.message : Cause → Text
  | .unexpected wanted found near =>
      wanted.message ++ ", found ".toList ++ Text.quoted [found] ++ " near ".toList ++
        Text.quoted near
  | .endOfInput wanted => wanted.message ++ ", found end of input".toList
  | .otherWord keyword word =>
      "Expected keyword ".toList ++ Text.quoted keyword ++ ", found ".toList ++ Text.quoted word
  | .stated message => message

/-! ## Errors -/

/-- The first violation of the grammar in a text. -/
structure ScanError where
  cause : Cause
  position : Position
  kind : DiagnosticKind := .unexpected
  /-- The file the text came from, if it came from one. -/
  source : Option Text := none
  deriving DecidableEq, Repr

namespace ScanError

/-- The wording of the error, without its place. -/
def message (e : ScanError) : Text := e.cause.message

/-- The code of the error's kind. -/
def code (e : ScanError) : Text := e.kind.code

/-- The wording with line and column. -/
def summary (e : ScanError) : Text :=
  e.message ++ " (".toList ++ e.position.coordinates ++ ")".toList

/-- Line and column, after the file's name where there is one. -/
def location (e : ScanError) : Text :=
  match e.source with
  | none => e.position.coordinates
  | some path => path ++ ':' :: e.position.coordinates

/-- The same error, found in the file `path`. -/
def inFile (e : ScanError) (path : Text) : ScanError := { e with source := some path }

end ScanError

end ErrorCatalog
