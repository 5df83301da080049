import ErrorCatalog.Text.Quoted

/-!
# Log — what is reported while work goes on

An event says what happened; its level, the part of the program it comes from and its wording
follow from it.  `Logged` is a value together with the events that led to it, in order.

What an event reports may be a choice, which is set to a value or, where its value was left out, to
nothing.  Nothing is written as the empty list, in what is generated as in what is reported.
-/

namespace ErrorCatalog

/-! ## What a choice is set to -/

/-- What a choice is set to. -/
inductive Setting (α : Type)
  | value (a : α)
  | nothing
  deriving DecidableEq, Repr

namespace Setting

variable {α β : Type}

/-- The setting with its value, if any, changed by `f`. -/
def map (f : α → β) : Setting α → Setting β
  | value a => value (f a)
  | nothing => nothing

/-- The value, or the error `e` if nothing is set. -/
def toExcept {ε : Type} (e : ε) : Setting α → Except ε α
  | value a => .ok a
  | nothing => .error e

/-- Nothing, as it is written. -/
def nothingText : Text := "[]".toList

/-- The text as it is written where it is used. -/
def text : Setting Text → Text
  | value t => t
  | nothing => nothingText

/-- The text as a message shows it. -/
def quoted : Setting Text → Text
  | value t => Text.quoted t
  | nothing => nothingText

end Setting

/-! ## Events -/

/-- How important an event is. -/
inductive Level
  | debug
  | info
  | warning
  deriving DecidableEq, Repr

/-- The name of a level. -/
def Level.name : Level → Text
  | .debug => "DEBUG".toList
  | .info => "INFO".toList
  | .warning => "WARNING".toList

/-- Something worth reporting. -/
inductive Event
  /-- A declaration was read to its end. -/
  | scanned (tag record : Text) (fields : Nat)
  /-- A file was read to its end. -/
  | loaded (entries : Nat) (path : Text)
  /-- A field's type is in no table. -/
  | noMapping (type : Text) (fallback : Setting Text)
  /-- A declaration has no code and is missing from the enumeration. -/
  | noCode (record param enumName : Text)
  /-- The result was written to a file. -/
  | wrote (entries : Nat) (path : Text)
  deriving DecidableEq, Repr

namespace Event

/-- The level of an event. -/
def level : Event → Level
  | scanned .. | loaded .. => .debug
  | noMapping .. | noCode .. => .warning
  | wrote .. => .info

/-- The part of the program an event comes from. -/
def channel : Event → Text
  | scanned .. => "declscan.parser.scanner".toList
  | loaded .. => "declscan.parser.parse".toList
  | noMapping .. | noCode .. => "declscan.codegen.typescript".toList
  | wrote .. => "declscan.cli".toList

/-- The wording of an event. -/
def message : Event → Text
  | scanned tag record fields =>
      "Scanned #[".toList ++ tag ++ "] ".toList ++ record ++ " with ".toList ++
        Text.ofNat fields ++ " field(s)".toList
  | loaded entries path =>
      "Loaded ".toList ++ Text.ofNat entries ++ " declaration(s) from ".toList ++ path
  | noMapping type fallback =>
      "No TypeScript mapping for ".toList ++ Text.quoted type ++ ", using ".toList ++
        fallback.quoted
  | noCode record param enumName =>
      "Declaration ".toList ++ record ++ " has no ".toList ++ Text.quoted param ++
        " parameter; left out of ".toList ++ enumName
  | wrote entries path =>
      "Wrote ".toList ++ Text.ofNat entries ++ " declaration(s) to ".toList ++ path

/-- The event as a line of a log. -/
def line (e : Event) : Text :=
  '[' :: e.channel ++ "] [".toList ++ e.level.name ++ "] ".toList ++ e.message

/-- Is the event important enough to be shown without being asked for? -/
def isAlwaysShown (e : Event) : Bool := e.level = .warning

end Event

/-! ## Values with their events -/

/-- A value and the events that led to it. -/
structure Logged (α : Type) where
  value : α
  events : List Event

namespace Logged

variable {α β : Type}

/-- One event and no value. -/
def report (e : Event) : Logged Unit := ⟨(), [e]⟩

instance : Monad Logged where
  pure a := ⟨a, []⟩
  bind m f := ⟨(f m.value).value, m.events ++ (f m.value).events⟩

@[simp] theorem value_pure (a : α) : (pure a : Logged α).value = a := rfl

@[simp] theorem events_pure (a : α) : (pure a : Logged α).events = [] := rfl

@[simp] theorem value_bind (m : Logged α) (f : α → Logged β) :
    (m >>= f).value = (f m.value).value := rfl

@[simp] theorem events_bind (m : Logged α) (f : α → Logged β) :
    (m >>= f).events = m.events ++ (f m.value).events := rfl

@[simp] theorem events_report (e : Event) : (report e).events = [e] := rfl

instance : LawfulMonad Logged := LawfulMonad.mk' Logged
  (fun m => congrArg (Logged.mk m.value) (List.append_nil m.events))
  (fun _ _ => rfl)
  (fun m _ _ => congrArg (Logged.mk _) (List.append_assoc m.events _ _))

end Logged

end ErrorCatalog
