import ErrorCatalog.CommandLine.Run
import ErrorCatalog.Proofs.CommandLine.Order
import ErrorCatalog.Proofs.Except
import ErrorCatalog.Proofs.Files.Tree
import Mathlib

/-!
# Proofs/CommandLine/Priority — which failure a run ends with, and what it leaves

A run can fail in many places, and they have an order: the settings that need no file, the inputs
one after the other, the making of the product, the saving of it.  The failure of a run is the first
one in this order (`Invocation.failure_run`), and what comes after it plays no part
(`Invocation.product_congr`).  A run that fails leaves no trace, and one that does not fail changes
the file it was asked to write and no other (`run_all_or_nothing`).
-/

namespace ErrorCatalog

/-! ## Attempts -/

namespace Attempt

variable {α β : Type} {m : Attempt α}

/-- The value of an attempt, or its failure, without the events. -/
def value (m : Attempt α) : Except Failure α := m.run.value

/-- The events of an attempt. -/
def events (m : Attempt α) : List Event := m.run.events

@[simp] theorem value_pure (a : α) : value (pure a) = .ok a := rfl

@[simp] theorem value_bind (m : Attempt α) (f : α → Attempt β) :
    value (m >>= f) = value m >>= fun a => value (f a) := by
  unfold value
  rw [ExceptT.run_bind, Logged.value_bind]
  cases m.run.value <;> rfl

@[simp] theorem value_silently (r : Except Failure α) : value (Invocation.silently r) = r := rfl

@[simp] theorem value_lift (m : Logged α) : value (ExceptT.lift m) = .ok m.value := rfl

@[simp] theorem value_mapM (f : α → Attempt β) (xs : List α) :
    value (xs.mapM f) = xs.mapM fun x => value (f x) := by
  induction xs with
  | nil => rfl
  | cons x xs ih => simp only [List.mapM_cons, value_bind, ih, value_pure]; rfl

/-- What comes after an attempt that fails plays no part. -/
theorem bind_congr_of_fault? (hm : fault? (value m) ≠ none) (f g : α → Attempt β) :
    m >>= f = m >>= g := by
  apply ExceptT.ext
  rw [ExceptT.run_bind, ExceptT.run_bind]
  rw [value] at hm
  rcases hrun : m.run with ⟨e | a, events⟩
  · rfl
  · rw [hrun] at hm
    exact absurd rfl hm

/-- The items up to the first one that `f` fails on. -/
def tried (f : α → Attempt β) : List α → List α
  | [] => []
  | x :: xs => x :: if fault? (value (f x)) = none then tried f xs else []

/-- **Items that are not tried play no part.** -/
theorem mapM_congr_of_tried {f g : α → Attempt β} {xs : List α}
    (h : ∀ x ∈ tried f xs, g x = f x) : xs.mapM g = xs.mapM f := by
  induction xs with
  | nil => rfl
  | cons x xs ih =>
    obtain ⟨hx, hxs⟩ := List.forall_mem_cons.mp h
    rw [List.mapM_cons, List.mapM_cons, hx]
    by_cases hfault : fault? (value (f x)) = none
    · rw [if_pos hfault] at hxs
      rw [ih hxs]
    · exact bind_congr_of_fault? hfault _ _

end Attempt

/-! ## Invocations -/

/-- The file that a command is asked to write. -/
def Command.output? : Command → Option Path
  | .generate _ (some (.value path)) .. => some path
  | _ => none

/-- A text is refused as a mapping unless it is one. -/
theorem mappingOf_value (t : Text) : mappingOf (.value t) =
    (mappingOf? t).elim (.error (.usage programName (.mapping t))) .ok := by
  simp only [mappingOf, Setting.toExcept, bind, Except.bind]
  cases mappingOf? t <;> rfl

namespace Invocation

open Attempt

variable {i : Invocation} {read read' : Path → Except FileFault Bytes} {f : Failure} {d : Dialect}

/-- The failure that comes before any file is read: that of the marker, or of the first type mapping
that is none. -/
def refusal? (i : Invocation) : Option Failure :=
  (fault? i.dialect?).or (i.command.types.findSome? fun v => fault? (mappingOf v))

/-- The catalogue of an input, in the dialect of the invocation. -/
def load (i : Invocation) (read : Path → Except FileFault Bytes) (p : Path) : Attempt Catalog := do
  input (← silently i.dialect?) read p

/-- The failure of the first input, in their order, that gives no catalogue. -/
def loadFailure? (i : Invocation) (read : Path → Except FileFault Bytes) : Option Failure :=
  i.command.inputs.findSome? fun p => fault? (value (i.load read p))

/-- The width that is set. -/
def widthOf (v : Setting Int) : Except Failure Int := do
  (widthOf? (← v.toExcept (.unset .indentation))).mapError .width

/-- The failure of a product whose inputs are all there: the file to write, or the width of an
indentation, is none. -/
def makingFailure? (i : Invocation) : Option Failure :=
  match i.command with
  | .generate _ output .. => fault? (output.mapM (·.toExcept (.unset .target)))
  | .dump _ indent => fault? (widthOf indent)

/-- The failure to save a product that was made. -/
def savingFailure? (i : Invocation) (t : FileTree) : Option Failure :=
  match value (i.product t.read) with
  | .ok ⟨text, _, some path⟩ => (fault? (t.save path (Encoding.encode text)).1).map .save
  | _ => none

/-! ### The failure of a product -/

theorem load_eq (hd : i.dialect? = .ok d) (read : Path → Except FileFault Bytes) (p : Path) :
    i.load read p = input d read p := by
  rw [load, hd]
  rfl

theorem value_input (d : Dialect) (read : Path → Except FileFault Bytes) (p : Path) :
    value (input d read p) = (Catalog.load d p (read p)).value.mapError .load := rfl

/-- A dump fails on its width alone, whatever is dumped. -/
theorem fault?_dumped (c : Catalog) (indent : Setting Int) :
    fault? (dumped c indent) = fault? (widthOf indent) := by
  cases indent with
  | nothing => rfl
  | value n =>
    change fault? ((c.toJson.print n).mapError Failure.width) =
      fault? ((widthOf? n).mapError Failure.width)
    rw [Json.print]
    cases widthOf? n <;> rfl

/-- **A product fails on its settings, on its inputs and on its making**, in this order. -/
theorem fault?_product (i : Invocation) (read : Path → Except FileFault Bytes) :
    fault? (value (i.product read)) =
      i.refusal?.or ((i.loadFailure? read).or i.makingFailure?) := by
  cases hd : i.dialect? with
  | error e =>
    rw [product, value_bind, value_silently, refusal?, hd]
    rfl
  | ok d =>
    have hrefusal : i.refusal? = i.command.types.findSome? fun v => fault? (mappingOf v) := by
      rw [refusal?, hd]
      rfl
    have hload : i.loadFailure? read =
        i.command.inputs.findSome? fun p => fault? (value (input d read p)) := by
      simp only [loadFailure?, load_eq hd]
    rw [hrefusal, hload, product, hd]
    obtain ⟨verbose, marker, command⟩ := i
    cases command with
    | generate inputs output types fallback =>
      change fault? (value (silently (mappingsOf types) >>= fun table => _)) = _
      rw [value_bind, fault?_bind, value_silently, mappingsOf, fault?_mapM]
      · rfl
      · intro table
        rw [value_bind, fault?_bind, value_mapM, fault?_mapM]
        · rfl
        · intro catalogs
          change fault? (value (silently _ >>= fun target => pure _)) = makingFailure? _
          rw [value_bind, fault?_bind (k := none) fun _ => rfl, Option.or_none]
          rfl
    | dump p indent =>
      change fault? (value (input d read p >>= fun catalog => _)) = _
      rw [Command.types, List.findSome?_nil, Option.none_or, Command.inputs,
        List.findSome?_singleton, value_bind, fault?_bind]
      intro catalog
      rw [value_bind, fault?_bind (k := none) fun _ => rfl, Option.or_none]
      exact fault?_dumped catalog indent

/-! ### What plays no part -/

/-- **The files play no part once the settings are refused.** -/
theorem product_congr_of_refusal? (hf : i.refusal? = some f)
    (read read' : Path → Except FileFault Bytes) : i.product read' = i.product read := by
  cases hd : i.dialect? with
  | error e =>
    refine bind_congr_of_fault? ?_ _ _
    rw [value_silently, hd]
    exact nofun
  | ok d =>
    rw [refusal?, hd] at hf
    rw [product, product, hd]
    obtain ⟨verbose, marker, command⟩ := i
    cases command with
    | generate inputs output types fallback =>
      change silently (mappingsOf types) >>= _ = silently (mappingsOf types) >>= _
      refine bind_congr_of_fault? ?_ _ _
      rw [value_silently, mappingsOf, fault?_mapM]
      exact fun hnone => nomatch hnone.symm.trans hf
    | dump p indent => cases hf

/-- **Only the inputs that are tried play a part**: those up to the first that gives no catalogue. -/
theorem product_congr (h : ∀ p ∈ tried (i.load read) i.command.inputs, read' p = read p) :
    i.product read' = i.product read := by
  cases hd : i.dialect? with
  | error e =>
    refine product_congr_of_refusal? (f := e) ?_ read read'
    rw [refusal?, hd]
    rfl
  | ok d =>
    rw [funext (load_eq hd read)] at h
    rw [product, product, hd]
    obtain ⟨verbose, marker, command⟩ := i
    cases command with
    | generate inputs output types fallback =>
      have hinputs : inputs.mapM (input d read') = inputs.mapM (input d read) :=
        mapM_congr_of_tried fun p hp => by rw [input, input, h p hp]
      change (silently (mappingsOf types) >>= fun table => inputs.mapM (input d read') >>= _) = _
      rw [hinputs]
      rfl
    | dump p indent =>
      have hp : read' p = read p := h p (List.mem_cons_self ..)
      change input d read' p >>= _ = input d read p >>= _
      rw [input, input, hp]

/-! ### Exit codes -/

/-- **Settings are refused as wrong usage**, unless a type mapping is set to nothing. -/
theorem exitCode_of_refusal? (hf : i.refusal? = some f) (hset : .nothing ∉ i.command.types) :
    f.exitCode = 2 := by
  rw [refusal?, Option.or_eq_some_iff] at hf
  obtain hmarker | ⟨-, htypes⟩ := hf
  · rw [dialect?] at hmarker
    cases hd : (Marker.ofSetting? i.marker).map fun marker => { Dialect.standard with marker } with
    | error reason =>
      rw [hd] at hmarker
      obtain rfl := Option.some.inj hmarker
      rfl
    | ok d =>
      rw [hd] at hmarker
      cases hmarker
  · obtain ⟨v, hv, hfault⟩ := List.exists_of_findSome?_eq_some htypes
    cases v with
    | nothing => exact absurd hv hset
    | value text =>
      rw [mappingOf_value] at hfault
      cases hmapping : mappingOf? text with
      | some mapping =>
        rw [hmapping] at hfault
        cases hfault
      | none =>
        rw [hmapping] at hfault
        obtain rfl := Option.some.inj hfault
        rfl

theorem exitCode_of_loadFailure? (hrefusal : i.refusal? = none)
    (hf : i.loadFailure? read = some f) : f.exitCode = 1 := by
  obtain ⟨p, -, hfault⟩ := List.exists_of_findSome?_eq_some hf
  cases hd : i.dialect? with
  | error e =>
    rw [refusal?, hd] at hrefusal
    cases hrefusal
  | ok d =>
    rw [load_eq hd, value_input] at hfault
    cases hload : (Catalog.load d p (read p)).value with
    | error fault =>
      rw [hload] at hfault
      obtain rfl := Option.some.inj hfault
      rfl
    | ok c =>
      rw [hload] at hfault
      cases hfault

theorem exitCode_of_makingFailure? (hf : i.makingFailure? = some f) : f.exitCode = 1 := by
  rw [makingFailure?] at hf
  split at hf
  · next output _ _ _ =>
    obtain _ | _ | _ := output
    · cases hf
    · cases hf
    · obtain rfl := Option.some.inj hf
      rfl
  · next indent _ =>
    cases indent with
    | nothing =>
      obtain rfl := Option.some.inj hf
      rfl
    | value n =>
      change fault? ((widthOf? n).mapError .width) = some f at hf
      cases hwidth : widthOf? n with
      | error fault =>
        rw [hwidth] at hf
        obtain rfl := Option.some.inj hf
        rfl
      | ok n =>
        rw [hwidth] at hf
        cases hf

/-! ### Runs -/

/-- **The three ways a run goes**: no product, a product that is printed, or one that is saved. -/
theorem run_cases (i : Invocation) (t : FileTree) :
    (∃ f, value (i.product t.read) = .error f ∧
      i.run t = (.ofFailure i (events (i.product t.read)) f, t)) ∨
    (∃ p, value (i.product t.read) = .ok p ∧ p.target = none ∧
      i.run t = (.ofPrinting i (events (i.product t.read)) p, t)) ∨
    ∃ p path, value (i.product t.read) = .ok p ∧ p.target = some path ∧
      i.run t = (.ofSaving i (events (i.product t.read)) p path
        (t.save path (Encoding.encode p.text)).1, (t.save path (Encoding.encode p.text)).2) := by
  rw [run, value, events]
  rcases hproduct : i.product t.read with ⟨f | ⟨text, entries, _ | path⟩, reported⟩
  · exact .inl ⟨f, rfl, rfl⟩
  · exact .inr (.inl ⟨_, rfl, rfl, rfl⟩)
  · exact .inr (.inr ⟨_, path, rfl, rfl, rfl⟩)

/-- **The failure of a run is the first one** on the way from its settings to the file it writes. -/
theorem failure_run (i : Invocation) (t : FileTree) :
    (i.run t).1.failure = i.refusal?.or ((i.loadFailure? t.read).or
      (i.makingFailure?.or (i.savingFailure? t))) := by
  have hproduct : (fault? (value (i.product t.read))).or (i.savingFailure? t) =
      i.refusal?.or ((i.loadFailure? t.read).or (i.makingFailure?.or (i.savingFailure? t))) := by
    rw [fault?_product, Option.or_assoc, Option.or_assoc]
  rw [← hproduct, savingFailure?]
  obtain ⟨f, hvalue, hrun⟩ | ⟨p, hvalue, htarget, hrun⟩ |
    ⟨p, path, hvalue, htarget, hrun⟩ := i.run_cases t
  · rw [hrun, hvalue]
    rfl
  · obtain ⟨text, entries, target⟩ := p
    subst htarget
    rw [hrun, hvalue]
    rfl
  · obtain ⟨text, entries, target⟩ := p
    subst htarget
    rw [hrun, hvalue]
    dsimp only
    cases (t.save path (Encoding.encode text)).1 <;> rfl

theorem exitCode_of_savingFailure? {t : FileTree} (hf : i.savingFailure? t = some f) :
    f.exitCode = 1 := by
  rw [savingFailure?] at hf
  split at hf
  · obtain ⟨fault, -, rfl⟩ := Option.map_eq_some_iff.mp hf
    rfl
  · cases hf

/-- **Past its settings a run fails with one code.** -/
theorem exitCode_of_accepted {t : FileTree} (hrefusal : i.refusal? = none)
    (hf : (i.run t).1.failure = some f) : f.exitCode = 1 := by
  rw [failure_run, hrefusal, Option.none_or, Option.or_eq_some_iff, Option.or_eq_some_iff] at hf
  obtain hload | ⟨-, hmaking | ⟨-, hsaving⟩⟩ := hf
  · exact exitCode_of_loadFailure? hrefusal hload
  · exact exitCode_of_makingFailure? hmaking
  · exact exitCode_of_savingFailure? hsaving

/-- A product goes where the command says. -/
theorem target_of_product {p : Product} {path : Path} (h : value (i.product read) = .ok p)
    (hp : p.target = some path) : i.command.output? = some path := by
  rw [product, value_bind] at h
  obtain ⟨d, -, h⟩ := eq_ok_of_bind h
  obtain ⟨verbose, marker, command⟩ := i
  cases command with
  | generate inputs output types fallback =>
    simp only [value_bind, value_silently, value_lift, value_pure] at h
    obtain ⟨table, -, h⟩ := eq_ok_of_bind h
    obtain ⟨catalogs, -, h⟩ := eq_ok_of_bind h
    obtain ⟨generation, -, h⟩ := eq_ok_of_bind h
    obtain ⟨target, htarget, h⟩ := eq_ok_of_bind h
    obtain rfl := Except.ok.inj h
    obtain _ | _ | _ := output
    · cases htarget
      cases hp
    · cases htarget
      exact hp
    · cases htarget
  | dump input indent =>
    simp only [value_bind, value_silently, value_pure] at h
    obtain ⟨catalog, -, h⟩ := eq_ok_of_bind h
    obtain ⟨text, -, h⟩ := eq_ok_of_bind h
    obtain rfl := Except.ok.inj h
    cases hp

/-! ### What a run leaves -/

/-- **A run that writes no file** shows the product and the events of its making. -/
theorem run_of_output? {t : FileTree} (h : i.command.output? = none) :
    (i.run t).1.failure = fault? (value (i.product t.read)) ∧
      (i.run t).1.stdout = (value (i.product t.read)).toOption.elim [] Product.text ∧
      (i.run t).1.events = events (i.product t.read) := by
  obtain ⟨f, hvalue, hrun⟩ | ⟨p, hvalue, -, hrun⟩ | ⟨p, path, hvalue, htarget, -⟩ := i.run_cases t
  · rw [hrun, hvalue]
    exact ⟨rfl, rfl, rfl⟩
  · rw [hrun, hvalue]
    exact ⟨rfl, rfl, rfl⟩
  · cases h.symm.trans (target_of_product hvalue htarget)

/-- **A run that fails leaves no trace**: it prints nothing and keeps all files. -/
theorem run_of_failure {t : FileTree} (hf : (i.run t).1.failure ≠ none) :
    (i.run t).1.stdout = [] ∧ t.SameFiles (i.run t).2 := by
  obtain ⟨f, -, hrun⟩ | ⟨p, -, -, hrun⟩ | ⟨p, path, -, -, hrun⟩ :=
    i.run_cases t
  · rw [hrun]
    exact ⟨rfl, .refl t⟩
  · rw [hrun] at hf
    exact absurd rfl hf
  · rw [hrun] at hf ⊢
    obtain ⟨fault, hsave, hkeep⟩ | ⟨l, hsave, -⟩ := t.save_cases path (Encoding.encode p.text)
    · rw [hsave]
      exact ⟨rfl, hkeep⟩
    · rw [hsave] at hf
      exact absurd rfl hf

/-- **A run changes the file it was asked to write**, and no other. -/
theorem locate_of_file?_ne {t : FileTree} {l : Location}
    (hl : (i.run t).2.file? l ≠ t.file? l) :
    ∃ path, i.command.output? = some path ∧ (i.run t).2.locate path = .ok l := by
  obtain ⟨f, -, hrun⟩ | ⟨p, -, -, hrun⟩ | ⟨p, path, hvalue, htarget, hrun⟩ :=
    i.run_cases t
  · rw [hrun] at hl
    exact absurd rfl hl
  · rw [hrun] at hl
    exact absurd rfl hl
  · rw [hrun] at hl ⊢
    obtain ⟨fault, -, hkeep⟩ | ⟨l', -, hlocate, -, hother⟩ :=
      t.save_cases path (Encoding.encode p.text)
    · exact absurd (hkeep l) hl
    · obtain rfl : l = l' := Classical.byContradiction fun hne => hl (hother l hne)
      exact ⟨path, target_of_product hvalue htarget, hlocate⟩

end Invocation

/-- A report has the code of its failure. -/
theorem Report.exitCode_eq_zero_iff (r : Report) : r.exitCode = 0 ↔ r.failure = none := by
  obtain ⟨stdout, events, verbose, _ | f⟩ := r
  · exact iff_of_true rfl rfl
  · refine iff_of_false ?_ nofun
    cases f <;> exact nofun

/-! ## Command lines -/

section Arguments

variable {arguments : List Text} {t : FileTree} {l : Location} {i : Invocation} {stop : Stop}

theorem run_of_stop (h : Invocation.ofArguments arguments = .error stop) (t : FileTree) :
    run arguments t = (.ofStop stop, t) := by
  rw [run, h]

theorem run_of_invocation (h : Invocation.ofArguments arguments = .ok i) (t : FileTree) :
    run arguments t = i.run t := by
  rw [run, h]

theorem run_of_exitCode_ne_zero (h : (run arguments t).1.exitCode ≠ 0) :
    (run arguments t).1.stdout = [] ∧ t.SameFiles (run arguments t).2 := by
  cases hstop : Invocation.ofArguments arguments with
  | error stop =>
    rw [run_of_stop hstop] at h ⊢
    cases stop with
    | help usage => exact absurd rfl h
    | usage program fault => exact ⟨rfl, .refl t⟩
  | ok i =>
    rw [run_of_invocation hstop] at h ⊢
    exact Invocation.run_of_failure (mt (Report.exitCode_eq_zero_iff _).mpr h)

theorem exists_output_of_file?_ne (h : (run arguments t).2.file? l ≠ t.file? l) :
    ∃ i path, Invocation.ofArguments arguments = .ok i ∧ i.command.output? = some path ∧
      (run arguments t).2.locate path = .ok l := by
  cases hstop : Invocation.ofArguments arguments with
  | error stop =>
    rw [run_of_stop hstop] at h
    exact absurd rfl h
  | ok i =>
    rw [run_of_invocation hstop] at h ⊢
    obtain ⟨path, houtput, hlocate⟩ := Invocation.locate_of_file?_ne h
    exact ⟨i, path, rfl, houtput, hlocate⟩

end Arguments

/-- **All or nothing, and the first failure decides.**  A command line that fails prints nothing and
keeps all files; one that does not fail changes the file it was asked to write and no other.  Wrong
usage is told from the arguments alone.  After that the failure is the first one in the order of
settings, inputs, making and saving, where the inputs stand in the order of the arguments.  The
settings, unless a type mapping is set to nothing, end a run with code 2 and before any file plays a
part; every later failure ends it with code 1, and no input behind the first that gives no catalogue
plays a part. -/
theorem run_all_or_nothing (arguments : List Text) (t : FileTree) :
    let report := (run arguments t).1
    let after := (run arguments t).2
    (report.exitCode ≠ 0 → report.stdout = [] ∧ t.SameFiles after) ∧
      (report.exitCode = 0 → ∀ l, after.file? l ≠ t.file? l →
        ∃ i path, Invocation.ofArguments arguments = .ok i ∧ i.command.output? = some path ∧
          after.locate path = .ok l) ∧
      (∀ program fault, Invocation.ofArguments arguments = .error (.usage program fault) →
        report.failure = some (.usage program fault) ∧ report.exitCode = 2) ∧
      ∀ i, Invocation.ofArguments arguments = .ok i →
        report.failure = i.refusal?.or ((i.loadFailure? t.read).or
          (i.makingFailure?.or (i.savingFailure? t))) ∧
        NamesOf arguments i.command.inputs ∧
        (∀ f, i.refusal? = some f → (.nothing ∉ i.command.types → report.exitCode = 2) ∧
          ∀ read, i.product read = i.product t.read) ∧
        (i.refusal? = none → report.failure ≠ none → report.exitCode = 1) ∧
        ∀ read, (∀ p ∈ Attempt.tried (i.load t.read) i.command.inputs, read p = t.read p) →
          i.product read = i.product t.read := by
  intro report after
  refine ⟨run_of_exitCode_ne_zero, fun _ l => exists_output_of_file?_ne, fun program fault h => ?_,
    fun i hi => ?_⟩
  · have hreport : report = .ofStop (.usage program fault) := congrArg Prod.fst (run_of_stop h t)
    rw [hreport]
    exact ⟨rfl, rfl⟩
  · have hreport : report = (i.run t).1 := congrArg Prod.fst (run_of_invocation hi t)
    have hfailure : report.failure = _ := hreport ▸ i.failure_run t
    refine ⟨hfailure, Invocation.inputs_of_ofArguments hi, fun f hf => ⟨fun hset => ?_,
      Invocation.product_congr_of_refusal? hf t.read⟩, fun hrefusal hfail => ?_,
      fun _ => Invocation.product_congr⟩
    · rw [hf] at hfailure
      rw [Report.exitCode, hfailure]
      exact Invocation.exitCode_of_refusal? hf hset
    · obtain ⟨f, hf⟩ := Option.ne_none_iff_exists'.mp hfail
      rw [Report.exitCode, hf]
      exact Invocation.exitCode_of_accepted hrefusal (hreport ▸ hf)

/-- A module asked for from one file, with one type mapping. -/
def Invocation.withMapping (mapping : Setting Text) : Invocation where
  verbose := false
  marker := .value "////".toList
  command := .generate [.ofText "a.rs".toList] none [mapping] (.value "unknown".toList)

/-- A tree with one file, which is empty. -/
def FileTree.withEmptyFile : FileTree := (FileTree.bare []).put ["a.rs".toList] (.file [])

/-- One run of each kind: without arguments; with a type mapping that is none, refused before the
file, which is missing, is asked for; with one that is a mapping, so that the missing file is the
failure, whatever is read for other paths; and a run that saves. -/
theorem run_all_or_nothing_each :
    (Invocation.ofArguments [] = .error (.usage programName (.missing "command".toList)) ∧
      (run [] (.bare [])).1.exitCode = 2) ∧
    (Invocation.ofArguments ["generate".toList, "a.rs".toList, "--type=x".toList] =
        .ok (.withMapping (.value "x".toList)) ∧
      (Invocation.withMapping (.value "x".toList)).refusal? =
        some (.usage programName (.mapping "x".toList)) ∧
      .nothing ∉ (Invocation.withMapping (.value "x".toList)).command.types ∧
      (run ["generate".toList, "a.rs".toList, "--type=x".toList] (.bare [])).1.exitCode = 2 ∧
      (run ["generate".toList, "a.rs".toList, "--type=x".toList] (.bare [])).1.stdout = []) ∧
    (Invocation.ofArguments ["generate".toList, "a.rs".toList, "--type=x=y".toList] =
        .ok (.withMapping (.value "x=y".toList)) ∧
      (Invocation.withMapping (.value "x=y".toList)).refusal? = none ∧
      (run ["generate".toList, "a.rs".toList, "--type=x=y".toList] (.bare [])).1.failure ≠ none ∧
      (run ["generate".toList, "a.rs".toList, "--type=x=y".toList] (.bare [])).1.exitCode = 1 ∧
      (Invocation.withMapping (.value "x=y".toList)).product
          (fun p => if p = .ofText "a.rs".toList then (FileTree.bare []).read p else .error .nul) =
        (Invocation.withMapping (.value "x=y".toList)).product (FileTree.bare []).read) ∧
    let saved := run ["generate".toList, "a.rs".toList, "-o".toList, "b.ts".toList] .withEmptyFile
    saved.1.exitCode = 0 ∧
      saved.2.file? ["b.ts".toList] ≠ FileTree.withEmptyFile.file? ["b.ts".toList] ∧
      ∃ path, saved.2.locate path = .ok ["b.ts".toList] := by
  have husage : Invocation.ofArguments [] =
      .error (.usage programName (.missing "command".toList)) := by cbv
  have hmalformed : Invocation.ofArguments ["generate".toList, "a.rs".toList, "--type=x".toList] =
      .ok (.withMapping (.value "x".toList)) := by cbv
  have hmissing : Invocation.ofArguments ["generate".toList, "a.rs".toList, "--type=x=y".toList] =
      .ok (.withMapping (.value "x=y".toList)) := by cbv
  have hrefusal : (Invocation.withMapping (.value "x".toList)).refusal? =
      some (.usage programName (.mapping "x".toList)) := rfl
  have hset : .nothing ∉ (Invocation.withMapping (.value "x".toList)).command.types := by decide
  have haccepted : (Invocation.withMapping (.value "x=y".toList)).refusal? = none := by
    decide +kernel
  have hfailure :
      (run ["generate".toList, "a.rs".toList, "--type=x=y".toList] (.bare [])).1.failure ≠ none := by
    decide +kernel
  refine ⟨⟨husage, ?_⟩, ⟨hmalformed, hrefusal, hset, ?_⟩, ⟨hmissing, haccepted, hfailure, ?_⟩, ?_⟩
  · exact ((run_all_or_nothing [] (.bare [])).2.2.1 _ _ husage).2
  · obtain ⟨hfailed, -, -, hrun⟩ :=
      run_all_or_nothing ["generate".toList, "a.rs".toList, "--type=x".toList] (.bare [])
    obtain ⟨-, -, hsettings, -⟩ := hrun _ hmalformed
    have hcode := (hsettings _ hrefusal).1 hset
    refine ⟨hcode, (hfailed ?_).1⟩
    rw [hcode]
    decide
  · obtain ⟨-, -, -, hrun⟩ :=
      run_all_or_nothing ["generate".toList, "a.rs".toList, "--type=x=y".toList] (.bare [])
    obtain ⟨-, -, -, hcode, hread⟩ := hrun _ hmissing
    refine ⟨hcode haccepted hfailure, hread _ fun p hp => ?_⟩
    obtain rfl | hp := List.mem_cons.mp hp
    · rfl
    · split at hp <;> cases hp
  · have hcode : (run ["generate".toList, "a.rs".toList, "-o".toList, "b.ts".toList]
        .withEmptyFile).1.exitCode = 0 := by decide +kernel
    have hnew : (run ["generate".toList, "a.rs".toList, "-o".toList, "b.ts".toList]
        .withEmptyFile).2.file? ["b.ts".toList] ≠
          FileTree.withEmptyFile.file? ["b.ts".toList] := by decide +kernel
    obtain ⟨-, hsaved, -⟩ := run_all_or_nothing
      ["generate".toList, "a.rs".toList, "-o".toList, "b.ts".toList] .withEmptyFile
    obtain ⟨-, path, -, -, hlocate⟩ := hsaved hcode _ hnew
    exact ⟨hcode, hnew, path, hlocate⟩

/-- A type mapping that is set to nothing has no equals sign either, and its refusal is not that of
wrong usage. -/
theorem run_mapping_set_to_nothing :
    Invocation.ofArguments ["generate".toList, "a.rs".toList, "--type=--".toList] =
        .ok (.withMapping .nothing) ∧
      (Invocation.withMapping .nothing).refusal? = some (.unset .mapping) ∧
      (run ["generate".toList, "a.rs".toList, "--type=--".toList] (.bare [])).1.exitCode ≠ 2 :=
  ⟨by cbv, rfl, by decide +kernel⟩

end ErrorCatalog
