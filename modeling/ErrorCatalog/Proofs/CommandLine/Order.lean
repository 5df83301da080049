import ErrorCatalog.CommandLine.Command
import ErrorCatalog.Proofs.CommandLine.Reading

/-!
# Proofs/CommandLine/Order — inputs keep the order of the arguments

A command is what its items add up to one after the other (`Reading.of_fold`), and the items come
from the arguments in their order, so the inputs of the command stand in this order too
(`Invocation.inputs_of_ofArguments`).
-/

namespace ErrorCatalog

variable {κ : Type}

/-! ## Items in turn -/

/-- **What items add up to**: a relation between the items so far and what was said by them, which
holds at first and goes on with each item, holds in the end. -/
theorem Reading.of_fold {σ : Type} {r : Reading κ} {program : Text}
    {step : σ → Item κ → Except Stop σ} {s s' : σ} {P : List (Item κ) → σ → Prop} (h0 : P [] s)
    (hstep : ∀ items item s s', P items s → step s item = .ok s' → P (items ++ [item]) s')
    (h : r.fold program step s = .ok s') : P r.items s' ∧ r.fault = none := by
  obtain ⟨s₁, hitems, hend⟩ := eq_ok_of_bind h
  have hfold : ∀ (before items : List (Item κ)) (s : σ), P before s →
      items.foldlM step s = .ok s₁ → P (before ++ items) s₁ := by
    intro before items
    induction items generalizing before with
    | nil =>
      intro s hs hrun
      obtain rfl := Except.ok.inj hrun
      rwa [List.append_nil]
    | cons item items ih =>
      intro s hs hrun
      obtain ⟨s₂, hitem, hrest⟩ := eq_ok_of_bind hrun
      rw [List.append_cons]
      exact ih _ s₂ (hstep _ _ _ _ hs hitem) hrest
  cases hfault : r.fault with
  | none =>
    rw [hfault] at hend
    obtain rfl := Except.ok.inj hend
    exact ⟨hfold [] r.items s h0 hitems, rfl⟩
  | some fault =>
    rw [hfault] at hend
    cases hend

/-- The paths are named by some of the texts, in their order. -/
def NamesOf (texts : List Text) (paths : List Path) : Prop :=
  ∃ names : List Text, names.Sublist texts ∧ paths = names.map .ofText

theorem NamesOf.mono {texts texts' : List Text} {paths : List Path} (h : NamesOf texts paths)
    (ht : texts.Sublist texts') : NamesOf texts' paths :=
  h.imp fun _ hnames => ⟨hnames.1.trans ht, hnames.2⟩

section Commands

variable {arguments extras : List Text} {command : Command}

/-- Operands are the inputs of a `generate`, one behind the other. -/
theorem GenerateRequest.inputs_add {item : Item GenerateKey} {r r' : GenerateRequest}
    (h : r.add item = .ok r') :
    (∃ t, item = .operand t ∧ r'.inputs = r.inputs ++ [.ofText t]) ∨ r'.inputs = r.inputs := by
  cases item with
  | operand t =>
    obtain rfl := Except.ok.inj h
    exact .inl ⟨t, rfl, rfl⟩
  | flag key =>
    cases key with
    | help => cases h
    | _ =>
      obtain rfl := Except.ok.inj h
      exact .inr rfl
  | set key v =>
    cases key with
    | _ =>
      obtain rfl := Except.ok.inj h
      exact .inr rfl
  | command | extra =>
    obtain rfl := Except.ok.inj h
    exact .inr rfl

/-- The inputs said so far are named by the items so far. -/
def GenerateRequest.Ordered (items : List (Item GenerateKey)) (r : GenerateRequest) : Prop :=
  NamesOf (items.flatMap Item.texts) r.inputs

theorem GenerateRequest.Ordered.add {items : List (Item GenerateKey)} {item : Item GenerateKey}
    {r r' : GenerateRequest} (hr : r.Ordered items) (h : r.add item = .ok r') :
    r'.Ordered (items ++ [item]) := by
  rw [Ordered, List.flatMap_append, List.flatMap_singleton]
  obtain ⟨t, rfl, hr'⟩ | hr' := inputs_add h
  · obtain ⟨names, hnames, hinputs⟩ := hr
    exact ⟨names ++ [t], hnames.append (List.Sublist.refl _), by simp [hr', hinputs]⟩
  · rw [hr']
    exact hr.mono (List.sublist_append_left ..)

theorem namesOf_generateOf (h : generateOf arguments = .ok (command, extras)) :
    NamesOf arguments command.inputs := by
  obtain ⟨r, hread, hr⟩ := eq_ok_of_bind h
  have hstart : GenerateRequest.Ordered [] {} := ⟨[], List.nil_sublist _, rfl⟩
  obtain ⟨hinputs, -⟩ := Reading.of_fold hstart (fun _ _ _ _ => .add) hread
  obtain ⟨rfl, -⟩ := Prod.mk.inj (Except.ok.inj hr)
  exact hinputs.mono (generateGrammar.texts_read arguments)

/-- An operand is the input of a `dump`. -/
theorem DumpRequest.input_add {item : Item DumpKey} {r r' : DumpRequest}
    (h : r.add item = .ok r') :
    (∃ t, item = .operand t ∧ r'.input = .ofText t) ∨
      (∀ t, item ≠ .operand t) ∧ r'.input = r.input := by
  cases item with
  | operand t =>
    obtain rfl := Except.ok.inj h
    exact .inl ⟨t, rfl, rfl⟩
  | flag key =>
    cases key with
    | help => cases h
    | indent =>
      obtain rfl := Except.ok.inj h
      exact .inr ⟨nofun, rfl⟩
  | set key v =>
    cases key with
    | help =>
      obtain rfl := Except.ok.inj h
      exact .inr ⟨nofun, rfl⟩
    | indent =>
      cases v with
      | nothing =>
        obtain rfl := Except.ok.inj h
        exact .inr ⟨nofun, rfl⟩
      | value t =>
        rw [add] at h
        split at h
        · obtain rfl := Except.ok.inj h
          exact .inr ⟨nofun, rfl⟩
        · cases h
  | command | extra =>
    obtain rfl := Except.ok.inj h
    exact .inr ⟨nofun, rfl⟩

/-- The input said so far is named by the items so far, once there is an operand. -/
def DumpRequest.Ordered (items : List (Item DumpKey)) (r : DumpRequest) : Prop :=
  ∀ t, .operand t ∈ items → NamesOf (items.flatMap Item.texts) [r.input]

theorem DumpRequest.Ordered.add {items : List (Item DumpKey)} {item : Item DumpKey}
    {r r' : DumpRequest} (hr : r.Ordered items) (h : r.add item = .ok r') :
    r'.Ordered (items ++ [item]) := by
  intro t ht
  rw [List.flatMap_append, List.flatMap_singleton]
  obtain ⟨t', rfl, hr'⟩ | ⟨hitem, hr'⟩ := input_add h
  · exact ⟨[t'], List.sublist_append_right .., by simp [hr']⟩
  · obtain ht | ht := List.mem_append.mp ht
    · rw [hr']
      exact (hr t ht).mono (List.sublist_append_left ..)
    · exact absurd (List.mem_singleton.mp ht).symm (hitem t)

theorem namesOf_dumpOf (h : dumpOf arguments = .ok (command, extras)) :
    NamesOf arguments command.inputs := by
  obtain ⟨r, hread, hr⟩ := eq_ok_of_bind h
  have hstart : DumpRequest.Ordered [] {} := nofun
  obtain ⟨hinput, hfault⟩ := Reading.of_fold hstart (fun _ _ _ _ => .add) hread
  obtain ⟨t, ht⟩ := Grammar.exists_operand_of_read (g := dumpGrammar) (by decide) hfault
  obtain ⟨rfl, -⟩ := Prod.mk.inj (Except.ok.inj hr)
  exact (hinput t ht).mono (dumpGrammar.texts_read arguments)

theorem namesOf_commandOf {name : Text} (h : commandOf name arguments = .ok (command, extras)) :
    NamesOf arguments command.inputs := by
  rw [commandOf] at h
  split at h
  · exact namesOf_generateOf h
  · split at h
    · exact namesOf_dumpOf h
    · cases h

/-- A command is what its name makes of the arguments behind it. -/
theorem Request.command_add {item : Item MainKey} {r r' : Request} (h : r.add item = .ok r') :
    (∃ name arguments extras command, item = .command name arguments ∧
      commandOf name arguments = .ok (command, extras) ∧ r'.command = some command) ∨
        r'.command = r.command := by
  cases item with
  | command name arguments =>
    obtain ⟨⟨command, extras⟩, hcommand, hr⟩ := eq_ok_of_bind h
    obtain rfl := Except.ok.inj hr
    exact .inl ⟨name, arguments, extras, command, rfl, hcommand, rfl⟩
  | flag key =>
    cases key with
    | help => cases h
    | _ =>
      obtain rfl := Except.ok.inj h
      exact .inr rfl
  | set key v =>
    cases key with
    | _ =>
      obtain rfl := Except.ok.inj h
      exact .inr rfl
  | operand | extra =>
    obtain rfl := Except.ok.inj h
    exact .inr rfl

/-- The command said so far is what a name among the items so far makes of the arguments behind
it. -/
def Request.Named (items : List (Item MainKey)) (r : Request) : Prop :=
  ∀ command, r.command = some command → ∃ name arguments extras,
    commandOf name arguments = .ok (command, extras) ∧
      (name :: arguments).Sublist (items.flatMap Item.texts)

theorem Request.Named.add {items : List (Item MainKey)} {item : Item MainKey} {r r' : Request}
    (hr : r.Named items) (h : r.add item = .ok r') : r'.Named (items ++ [item]) := by
  intro command hcommand
  rw [List.flatMap_append, List.flatMap_singleton]
  obtain ⟨name, arguments, extras, command', rfl, hname, hr'⟩ | hr' := command_add h
  · obtain rfl := Option.some.inj (hr'.symm.trans hcommand)
    exact ⟨name, arguments, extras, hname, List.sublist_append_right ..⟩
  · obtain ⟨name, arguments, extras, hname, hsub⟩ := hr command (hr' ▸ hcommand)
    exact ⟨name, arguments, extras, hname, hsub.trans (List.sublist_append_left ..)⟩

/-- **The command of a command line** is what one of its arguments makes of others behind it. -/
theorem Invocation.commandOf_of_ofArguments {i : Invocation}
    (h : ofArguments arguments = .ok i) : ∃ name arguments' extras,
      commandOf name arguments' = .ok (i.command, extras) ∧
        (name :: arguments').Sublist arguments := by
  obtain ⟨r, hread, hr⟩ := eq_ok_of_bind h
  have hstart : Request.Named [] {} := by
    rintro command ⟨⟩
  obtain ⟨hnamed, -⟩ := Reading.of_fold hstart (fun _ _ _ _ => .add) hread
  split at hr
  · cases hr
  · cases hr
  · next command hcommand _ =>
    obtain rfl := Except.ok.inj hr
    obtain ⟨name, arguments', extras, hname, hsub⟩ := hnamed command hcommand
    exact ⟨name, arguments', extras, hname, hsub.trans (mainGrammar.texts_read arguments)⟩

/-- **The inputs of a command line stand in the order of its arguments.** -/
theorem Invocation.inputs_of_ofArguments {i : Invocation} (h : ofArguments arguments = .ok i) :
    NamesOf arguments i.command.inputs := by
  obtain ⟨name, arguments', extras, hname, hsub⟩ := commandOf_of_ofArguments h
  exact (namesOf_commandOf hname).mono ((List.sublist_cons_self ..).trans hsub)

end Commands

end ErrorCatalog
