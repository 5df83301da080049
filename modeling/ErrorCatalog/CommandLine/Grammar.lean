import ErrorCatalog.CommandLine.Word

/-!
# CommandLine/Grammar — what the words of a command line add up to

A program has switches and takes one operand, a row of operands, or a command with arguments of its
own.  Reading its words gives items in order and, where they stop making sense, a fault; the items
before the fault still count, since what one of them asks for may come first.
-/

namespace ErrorCatalog

/-- What a program takes besides its switches. -/
inductive Operands
  | one
  /-- A row of operands, which a switch ends. -/
  | row
  /-- A command, to which everything after it belongs. -/
  | command
  deriving DecidableEq, Repr

/-- The switches and operands of a program. -/
structure Grammar (κ : Type) where
  /-- The program's name in messages. -/
  program : Text
  switches : List (Switch κ)
  operands : Operands
  /-- The operands' name in messages. -/
  operandName : Text

/-- What a part of a command line says. -/
inductive Item (κ : Type)
  | flag (key : κ)
  | set (key : κ) (v : Setting Text)
  | operand (t : Text)
  | command (name : Text) (arguments : List Text)
  /-- An argument that nothing takes. -/
  | extra (t : Text)

/-- What a command line says, as far as it makes sense. -/
structure Reading (κ : Type) where
  items : List (Item κ)
  fault : Option UsageFault

/-- How far the operands are read. -/
inductive Stage
  | pending
  /-- The last word was an operand. -/
  | taking
  | done
  deriving DecidableEq, Repr

/-- The stage after a switch. -/
def Stage.afterSwitch : Stage → Stage
  | pending => pending
  | _ => done

variable {κ : Type}

/-- The reading with more items in front. -/
def Reading.prepend (items : List (Item κ)) (r : Reading κ) : Reading κ :=
  { r with items := items ++ r.items }

namespace Grammar

variable (g : Grammar κ)

/-! ## Switches -/

/-- What the text given to a switch sets it to: a divider is dropped from what a switch is given,
as it is from a row of operands, and leaves nothing. -/
def settingOf (t : Text) : Setting Text := if t = dividerText then .nothing else .value t

/-- The text, unless it is empty. -/
def nonempty? (t : Text) : Option Text := if t = [] then none else some t

theorem length_nonempty?_le (t : Text) : ((nonempty? t).map List.length).getD 0 ≤ t.length := by
  unfold nonempty?
  split <;> simp

/-- The items of a switch, and whether it uses up `next`, the plain word after it.  What is attached
to a short switch without a value is a cluster of further short switches, all behind one dash. -/
def expand (s : Switch κ) (isShort : Bool) (attached next : Option Text) :
    Except UsageFault (List (Item κ) × Bool) :=
  match attached with
  | none =>
      if s.takesValue then
        match next with
        | some t => .ok ([.set s.key (settingOf t)], true)
        | none => .error (.noValue s.label)
      else .ok ([.flag s.key], false)
  | some t =>
      if s.takesValue then .ok ([.set s.key (settingOf t)], false)
      else match t with
        | [] => .error (.needlessValue s.label t)
        | c :: rest =>
            match if isShort then g.switches.find? (·.short = some c) else none with
            | none => .error (.needlessValue s.label t)
            | some s' => do
                let (items, used) ← expand s' true (nonempty? rest) next
                return (.flag s.key :: items, used)
termination_by (attached.map List.length).getD 0
decreasing_by
  have := length_nonempty?_le rest
  simp only [Option.map_some, Option.getD_some, List.length_cons]
  omega

/-- The plain word that comes first. -/
def plainFirst? : List (Word κ) → Option Text
  | ⟨t, .plain⟩ :: _ => some t
  | _ => none

/-! ## Words in order -/

/-- What the words say from the stage `stage` on. -/
def readFrom : Stage → List (Word κ) → Reading κ
  | stage, [] => ⟨[], if stage = .pending then some (.missing g.operandName) else none⟩
  | stage, ⟨raw, .unknown⟩ :: rest => (readFrom stage.afterSwitch rest).prepend [.extra raw]
  | stage, ⟨_, .switch s isShort attached⟩ :: rest =>
      match g.expand s isShort attached (plainFirst? rest), rest with
      | .error fault, _ => ⟨[], some fault⟩
      | .ok (items, true), _ :: rest' => (readFrom stage.afterSwitch rest').prepend items
      | .ok (items, _), rest => (readFrom stage.afterSwitch rest).prepend items
  | .pending, ⟨raw, .plain⟩ :: rest =>
      match g.operands with
      | .command => ⟨[.command raw (rest.map (·.raw))], none⟩
      | _ => (readFrom .taking rest).prepend [.operand raw]
  | .pending, ⟨raw, .divider⟩ :: rest =>
      match g.operands, rest with
      | _, [] => ⟨[.extra raw], some (.missing g.operandName)⟩
      | .command, rest => ⟨[.command raw (rest.map (·.raw))], none⟩
      | _, rest => readFrom .pending rest
  | .taking, ⟨raw, .plain⟩ :: rest =>
      match g.operands with
      | .row => (readFrom .taking rest).prepend [.operand raw]
      | _ => (readFrom .done rest).prepend [.extra raw]
  | .taking, ⟨_, .divider⟩ :: rest => readFrom .taking rest
  | .done, ⟨raw, .plain⟩ :: rest => (readFrom .done rest).prepend [.extra raw]
  | .done, ⟨raw, .divider⟩ :: rest => (readFrom .done rest).prepend [.extra raw]

/-- **What a command line says.**  A switch that could be several is a fault before all others. -/
def read (arguments : List Text) : Reading κ :=
  match wordsOf g.switches arguments with
  | .error fault => ⟨[], some fault⟩
  | .ok words => g.readFrom .pending words

end Grammar

end ErrorCatalog
