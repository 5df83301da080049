import ErrorCatalog.Scan.Dialect

/-!
# CommandLine/Word — what an argument is taken for

An argument is a switch if it is spelled like one: a short switch is a dash and a character, a long
one two dashes and a name, which may be cut short as long as one switch alone starts that way.  A
text may be attached, to either after an equals sign and to a short one directly.  Everything else
that starts with a dash is an unknown switch, unless it is a negative number or holds a space.  A
lone `--` divides: after it nothing is a switch.

What can be wrong with a command line is a fault; its wording follows the message that names the
program.
-/

namespace ErrorCatalog

/-! ## Faults -/

/-- Why a command line is refused. -/
inductive UsageFault
  /-- A shortened switch that could be several. -/
  | ambiguous (argument : Text) (candidates : List Text)
  /-- A switch without the value it needs. -/
  | noValue (switch : Text)
  /-- A value for a switch that takes none. -/
  | needlessValue (switch value : Text)
  /-- A value that is no whole number. -/
  | notInteger (switch value : Text)
  /-- A command that does not exist. -/
  | noSuchCommand (name : Text)
  /-- An operand that is missing. -/
  | missing (operand : Text)
  /-- Arguments that nothing takes. -/
  | unrecognized (arguments : List Text)
  /-- Words that make no dialect. -/
  | dialect (reason : Dialect.Invalid)
  /-- A type mapping that is not of the form `source=target`. -/
  | mapping (value : Text)
  deriving DecidableEq, Repr

namespace UsageFault

/-- A fault of one argument. -/
def about (argument message : Text) : Text :=
  "argument ".toList ++ argument ++ ": ".toList ++ message

/-- The wording of a fault. -/
def message : UsageFault → Text
  | ambiguous argument candidates =>
      "ambiguous option: ".toList ++ argument ++ " could match ".toList ++
        List.intercalate ", ".toList candidates
  | noValue switch => about switch "expected one argument".toList
  | needlessValue switch value =>
      about switch ("ignored explicit argument ".toList ++ Text.quoted value)
  | notInteger switch value => about switch ("invalid int value: ".toList ++ Text.quoted value)
  | noSuchCommand name =>
      about "command".toList ("invalid choice: ".toList ++ Text.quoted name ++
        " (choose from 'generate', 'dump')".toList)
  | missing operand => "the following arguments are required: ".toList ++ operand
  | unrecognized arguments =>
      "unrecognized arguments: ".toList ++ List.intercalate [' '] arguments
  | dialect reason => reason.message
  | mapping value =>
      "Invalid --type mapping ".toList ++ Text.quoted value ++ ", expected SOURCE=TS".toList

end UsageFault

/-! ## Switches -/

/-- A switch, known to its program by `key`. -/
structure Switch (κ : Type) where
  key : κ
  short : Option Char := none
  /-- The long spelling, with its two dashes. -/
  long : Text
  takesValue : Bool := false

variable {κ : Type}

/-- The switch as messages name it. -/
def Switch.label (s : Switch κ) : Text :=
  match s.short with
  | none => s.long
  | some c => '-' :: c :: '/' :: s.long

/-- Is the switch spelled `t`, in full? -/
def Switch.isSpelled (s : Switch κ) (t : Text) : Bool :=
  t = s.long || s.short.any fun c => t = ['-', c]

/-! ## Words -/

/-- What an argument is taken for. -/
inductive Meaning (κ : Type)
  /-- An operand, or the value of the switch before it. -/
  | plain
  /-- The end of the switches. -/
  | divider
  /-- A switch, with the text attached to it; `isShort` says in which spelling. -/
  | switch (s : Switch κ) (isShort : Bool) (attached : Option Text)
  /-- A switch that does not exist. -/
  | unknown

/-- An argument and what it is taken for. -/
structure Word (κ : Type) where
  raw : Text
  meaning : Meaning κ

/-- The argument that ends the switches. -/
def dividerText : Text := "--".toList

/-- Is the text, which starts with a dash, a negative number? -/
def isNegativeNumber (t : Text) : Bool :=
  let body := t.drop 1
  let body := if body.getLast? = some '\n' then body.dropLast else body
  let isDigit := fun c => (digitValue? c).isSome
  match body.dropWhile isDigit with
  | [] => body ≠ []
  | '.' :: fraction => fraction ≠ [] && fraction.all isDigit
  | _ => false

/-- An argument cut at its first equals sign. -/
def cutAtEquals (t : Text) : Text × Option Text :=
  match t.dropWhile (· ≠ '=') with
  | [] => (t, none)
  | _ :: value => (t.takeWhile (· ≠ '='), some value)

/-- The switches that an argument could be short for, or could have a text attached to. -/
def candidates (switches : List (Switch κ)) (t : Text) : List (Switch κ × Meaning κ) :=
  match t with
  | '-' :: '-' :: _ =>
      let (head, value) := cutAtEquals t
      (switches.filter fun s => head.isPrefixOf s.long).map fun s =>
        (s, .switch s false value)
  | '-' :: c :: value =>
      (switches.filter fun s => s.short = some c).map fun s =>
        (s, .switch s true (some value))
  | _ => []

/-- The meaning of an argument that is no full spelling. -/
def guess (switches : List (Switch κ)) (t : Text) : Except UsageFault (Meaning κ) :=
  match candidates switches t with
  | [] => if isNegativeNumber t || t.contains ' ' then .ok .plain else .ok .unknown
  | [(_, meaning)] => .ok meaning
  | several => .error (.ambiguous t (several.map fun s => s.1.long))

/-- The switch that is spelled `t`. -/
def spelled? (switches : List (Switch κ)) (t : Text) : Option (Switch κ) :=
  switches.find? (·.isSpelled t)

/-- **What an argument is taken for** before any divider. -/
def meaningOf (switches : List (Switch κ)) (t : Text) : Except UsageFault (Meaning κ) :=
  match t with
  | '-' :: _ :: _ =>
      match spelled? switches t, cutAtEquals t with
      | some s, _ => .ok (.switch s (t ≠ s.long) none)
      | none, (head, some value) =>
          match spelled? switches head with
          | some s => .ok (.switch s (head ≠ s.long) (some value))
          | none => guess switches t
      | none, (_, none) => guess switches t
  | _ => .ok .plain

/-- **The words of a command line.** -/
def wordsOf (switches : List (Switch κ)) : List Text → Except UsageFault (List (Word κ))
  | [] => .ok []
  | t :: rest =>
      if t = dividerText then .ok (⟨t, .divider⟩ :: rest.map (⟨·, .plain⟩))
      else do
        let meaning ← meaningOf switches t
        let words ← wordsOf switches rest
        return ⟨t, meaning⟩ :: words

end ErrorCatalog
