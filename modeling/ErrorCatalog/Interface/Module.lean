import ErrorCatalog.Json
import ErrorCatalog.Log

/-!
# Interface/Module — a catalogue as a module of typed errors

The module has one interface for each error type, then the union of them all, then an enumeration
of their codes, with an empty line between sections.  A type without a code accepts any code and is
left out of the enumeration, which is reported.

A style gives the name of the union and of the enumeration, the interface all error types extend,
the parameters that hold code and message, the indentation, and the type that stands for each
field type.  A field type in no table falls back to one type, and that is reported.

Documentation becomes a block comment with one line for each of its own.  The two characters that
would end the comment early are kept apart by a backslash.
-/

namespace ErrorCatalog

/-! ## How the generated types are named -/

/-- The choices of a generated module. -/
structure Style where
  /-- The type that stands for a field type. -/
  types : Table := [("String".toList, "string".toList), ("u64".toList, "number".toList),
    ("DatabaseConstraint".toList, "/* @todo */ object".toList)]
  /-- The type that stands for all others. -/
  fallback : Setting Text := .value "unknown".toList
  /-- The interface that every error type extends; none if absent or empty. -/
  base : Option Text := some "Prisma.PrismaClientKnownRequestError".toList
  unionName : Text := "PrismaErrors".toList
  enumName : Text := "PrismaErrorCode".toList
  /-- The parameter that holds the code. -/
  codeParam : Text := "code".toList
  /-- The parameter that holds the message. -/
  messageParam : Text := "message".toList
  indent : Text := "  ".toList
  deriving DecidableEq, Repr

namespace Style

/-- The style in which the entries of `extra` come before its own. -/
def withTypes (s : Style) (extra : Table) : Style := { s with types := s.types.extend extra }

/-- **The type that stands for the field type `type`.** -/
def mapType (s : Style) (type : Text) : Logged Text :=
  match s.types.get? type with
  | some mapped => pure mapped
  | none => do
      Logged.report (.noMapping type s.fallback)
      return s.fallback.text

end Style

/-! ## Documentation blocks -/

namespace Comment

/-- The text with a backslash between each star and the slash after it. -/
def escape : Text → Text
  | '*' :: '/' :: rest => '*' :: '\\' :: '/' :: escape rest
  | c :: rest => c :: escape rest
  | [] => []

/-- One line of a comment, without blanks at its end. -/
def line (indent t : Text) : Text := Text.trimRight (indent ++ " * ".toList ++ t)

/-- **The lines of a documentation block.** -/
def block (indent t : Text) : List Text :=
  (indent ++ "/**".toList) :: (Text.lines (escape t)).map (line indent) ++ [indent ++ " */".toList]

/-- The block, or nothing for the empty text. -/
def blockIfAny (indent t : Text) : List Text := if t = [] then [] else block indent t

end Comment

namespace Style

variable (s : Style)

/-! ## Interfaces -/

/-- The lines of a field at the indentation `indent`. -/
def fieldLines (indent : Text) (f : Field) : Logged (List Text) := do
  let type ← s.mapType f.type
  return Comment.blockIfAny indent f.doc ++
    [indent ++ f.name ++ ": ".toList ++ type ++ ";".toList]

/-- The line that opens the interface `name`. -/
def headLine (name : Text) : Text :=
  let extension := match s.base with
    | none => []
    | some base => if base = [] then [] else " extends ".toList ++ base
  "export interface ".toList ++ name ++ extension ++ " \x7b".toList

/-- The type of the code of an error type: its own code, or any. -/
def codeType (e : Entry) : Text :=
  match e.tag.value? s.codeParam with
  | some code => Json.literal code
  | none => "string".toList

/-- The line that gives the code. -/
def codeLine (e : Entry) : Text := s.indent ++ "code: ".toList ++ s.codeType e ++ ";".toList

/-- The lines that give the fields. -/
def metaLines : List Field → Logged (List Text)
  | [] => return [s.indent ++ "meta: \x7b\x7d;".toList]
  | fields => do
      let groups ← fields.mapM (s.fieldLines (s.indent ++ s.indent))
      return (s.indent ++ "meta: \x7b".toList) :: groups.flatten ++ [s.indent ++ "\x7d;".toList]

/-- The message of an error type, or the empty text. -/
def message (e : Entry) : Text := (e.tag.value? s.messageParam).getD []

/-- The lines of the interface of an error type. -/
def interfaceLines (e : Entry) : Logged (List Text) := do
  let fields ← s.metaLines e.record.fields
  return Comment.blockIfAny [] (s.message e) ++ s.headLine e.record.name :: s.codeLine e ::
    fields ++ ["\x7d".toList]

/-- The interface of an error type. -/
def interface (e : Entry) : Logged Text := Text.unlines <$> s.interfaceLines e

/-! ## Union and enumeration -/

/-- The union of all error types. -/
def union (c : Catalog) : Text :=
  let members := if c.isEmpty then "never".toList else List.intercalate " | ".toList c.names
  "export type ".toList ++ s.unionName ++ " = ".toList ++ members ++ ";".toList

/-- The line of an error type in the enumeration, if it has a code. -/
def enumLine (e : Entry) : Logged (Option Text) :=
  match e.tag.value? s.codeParam with
  | some code => return some (s.indent ++ e.record.name ++ " = ".toList ++ Json.literal code ++
      ",".toList)
  | none => do
      Logged.report (.noCode e.record.name s.codeParam s.enumName)
      return none

/-- The enumeration of the codes. -/
def enumeration (c : Catalog) : Logged Text := do
  let members ← c.mapM s.enumLine
  return Text.unlines (("export enum ".toList ++ s.enumName ++ " \x7b".toList) ::
    members.filterMap id ++ ["\x7d".toList])

/-! ## The module -/

/-- The sections of the module in order. -/
def sections (c : Catalog) : Logged (List Text) := do
  let interfaces ← c.mapM s.interface
  let codes ← s.enumeration c
  return interfaces ++ [s.union c, codes]

/-- **The module of a catalogue.** -/
def render (c : Catalog) : Logged Text := do
  let parts ← s.sections c
  return List.intercalate "\n\n".toList parts ++ ['\n']

end Style

end ErrorCatalog
