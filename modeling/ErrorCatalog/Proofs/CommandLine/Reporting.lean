import ErrorCatalog.Proofs.CommandLine.Adding
import ErrorCatalog.Proofs.CommandLine.Priority
import ErrorCatalog.Proofs.Files.Saving

/-!
# Proofs/CommandLine/Reporting — how results are reported does not change them

What a run makes depends neither on how much of it is shown nor on where it goes.  Where everything
is shown the run is the same (`Invocation.run_shown`), with more of its events in the log, and where
the product goes to a file it is the one that would be printed (`Invocation.run_withOutput`).  For
whole command lines this is `run_reporting`.

The error output is here the log and the failure (`Report.stderr`), without the bar that may be drawn
there while files are read.
-/

namespace ErrorCatalog

/-! ## Logs -/

namespace Report

/-- The report without the events of the levels `levels`. -/
def withoutLevels (levels : List Level) (r : Report) : Report :=
  { r with events := r.events.filter (·.level ∉ levels) }

/-- **What is shown besides** if everything is shown are the events below a warning. -/
theorem stderr_withoutLevels {r : Report} (h : r.verbose = false) :
    (withoutLevels [.debug, .info] { r with verbose := true }).stderr = r.stderr := by
  have hlevel : ∀ e : Event, (e.level ∉ [Level.debug, .info] : Bool) = e.isAlwaysShown := by
    intro e
    rw [Event.isAlwaysShown]
    cases e.level <;> rfl
  simp only [stderr, shown, withoutLevels, h, hlevel, Bool.true_or, Bool.false_or, List.filter_true]

/-- That a file was written is shown only if everything is. -/
theorem stderr_wrote {r : Report} (h : r.verbose = false) (entries : Nat) (path : Text) :
    stderr { r with events := r.events ++ [.wrote entries path] } = r.stderr := by
  simp only [stderr, shown, h, List.filter_append]
  rw [List.filter_cons_of_neg Bool.false_ne_true, List.filter_nil, List.append_nil]

end Report

/-! ## Invocations -/

/-- What is done with the value of an attempt reports nothing. -/
theorem Attempt.map_eq {α β : Type} (f : α → β) (m : Attempt α) :
    f <$> m = ExceptT.mk ⟨(value m).map f, events m⟩ := by
  rcases m with ⟨e | a, events⟩ <;> exact congrArg (Logged.mk _) (List.append_nil events)

namespace Invocation

variable {i : Invocation}

/-- **A run that shows everything** is the run itself, shown in full. -/
theorem run_shown (i : Invocation) (t : FileTree) :
    i.shown.run t = ({ (i.run t).1 with verbose := true }, (i.run t).2) := by
  have hproduct : i.shown.product t.read = i.product t.read := rfl
  rw [run, run, hproduct]
  rcases i.product t.read with ⟨f | ⟨text, entries, _ | path⟩, events⟩
  · rfl
  · rfl
  · dsimp only
    cases (t.save path (Encoding.encode text)).1 <;> rfl

theorem verbose_run (i : Invocation) (t : FileTree) : (i.run t).1.verbose = i.verbose := by
  obtain ⟨f, -, hrun⟩ | ⟨p, -, -, hrun⟩ | ⟨p, path, -, -, hrun⟩ := i.run_cases t
  · rw [hrun]
    rfl
  · rw [hrun]
    rfl
  · rw [hrun]
    cases (t.save path (Encoding.encode p.text)).1 <;> rfl

/-- **A product with a file to go to** is the one that would be printed. -/
theorem product_withOutput (hi : i.command.IsGenerate) (hout : i.command.NamesNoOutput)
    (path : Path) (read : Path → Except FileFault Bytes) :
    (i.withOutput path).product read =
      ExceptT.mk ⟨(Attempt.value (i.product read)).map fun p => { p with target := some path },
        Attempt.events (i.product read)⟩ := by
  rw [← Attempt.map_eq]
  obtain ⟨verbose, marker, ⟨inputs, _, types, fallback⟩ | _⟩ := i
  · obtain rfl := hout
    simp only [product, map_bind, withOutput, Command.withOutput, Option.none_or]
    rfl
  · exact hi.elim

theorem target_eq_none {p : Product} {read : Path → Except FileFault Bytes}
    (hout : i.command.NamesNoOutput) (h : Attempt.value (i.product read) = .ok p) :
    p.target = none := by
  cases htarget : p.target with
  | none => rfl
  | some path =>
    have houtput := target_of_product h htarget
    obtain ⟨verbose, marker, ⟨inputs, _, types, fallback⟩ | _⟩ := i
    · obtain rfl := hout
      cases houtput
    · cases houtput

/-- **With a file to write** a run fails as before, or it saves what would be printed. -/
theorem run_withOutput (hi : i.command.IsGenerate) (hout : i.command.NamesNoOutput) (path : Path)
    (t : FileTree) :
    (∃ events f, i.run t = (.ofFailure i events f, t) ∧ (i.withOutput path).run t = i.run t) ∨
      ∃ events p, i.run t = (.ofPrinting i events p, t) ∧
        (i.withOutput path).run t = (.ofSaving i events p path
          (t.save path (Encoding.encode p.text)).1, (t.save path (Encoding.encode p.text)).2) := by
  have hproduct := product_withOutput hi hout path t.read
  have htarget : ∀ p, Attempt.value (i.product t.read) = .ok p → p.target = none :=
    fun p => target_eq_none hout
  rw [run, run, hproduct]
  rcases hmade : i.product t.read with ⟨f | ⟨text, entries, target⟩, events⟩
  · exact .inl ⟨events, f, rfl, rfl⟩
  · rw [hmade] at htarget
    obtain rfl : target = none := htarget _ rfl
    exact .inr ⟨events, ⟨text, entries, none⟩, rfl, rfl⟩

end Invocation

/-! ## Products in files -/

/-- **The run `saved` writes what the run `plain` prints**, and shows nothing else. -/
structure Saves (plain saved : Report × FileTree) (path : Path) : Prop where
  exitCode : saved.1.exitCode = 0
  stdout : saved.1.stdout = []
  stderr : saved.1.stderr = plain.1.stderr
  content : saved.2.read path = .ok (Encoding.encode plain.1.stdout)

/-- **The run `saved` cannot write what the run `plain` prints**: an error of the system comes after
what is shown there, and all files of `t` are kept.  The error names the file to write, its
directory, or a directory above that where the place for it is missing. -/
structure FailsToSave (t : FileTree) (plain saved : Report × FileTree) (path : Path) : Prop where
  exitCode : saved.1.exitCode = 1
  stdout : saved.1.stdout = []
  files : t.SameFiles saved.2
  error : ∃ fault q, saved.1.failure = some (.save (.system fault q)) ∧
    saved.1.stderr = plain.1.stderr ++ (Failure.save (.system fault q)).text ∧
    (q = path ∨ q = path.parent ∨
      q.IsAbove path.parent ∧ t.isDirectory path.parent.parent = false)

section Saving

variable {i : Invocation} {t : FileTree} {path : Path}

/-- A product that goes to a file is there afterwards, or all files are kept. -/
theorem saves_or_failsToSave (hverbose : i.verbose = false) (events : List Event) (p : Product)
    (hnul : '\x00' ∉ path.toText) (t' : FileTree) :
    let saved := t.save path (Encoding.encode p.text)
    Saves (.ofPrinting i events p, t') (.ofSaving i events p path saved.1, saved.2) path ∨
      FailsToSave t (.ofPrinting i events p, t') (.ofSaving i events p path saved.1, saved.2)
        path := by
  intro saved
  obtain ⟨fault, hfault, hkeep⟩ | ⟨-, hsaved, -⟩ := t.save_cases path (Encoding.encode p.text)
  · obtain ⟨f, q, rfl, hq⟩ := FileTree.save_eq_error hnul hfault
    have hreport : Report.ofSaving i events p path saved.1 =
        .ofFailure i events (.save (.system f q)) :=
      congrArg (Report.ofSaving i events p path) hfault
    rw [hreport]
    exact .inr ⟨rfl, rfl, hkeep, f, q, rfl, congrArg (· ++ _) (List.append_nil _).symm, hq⟩
  · have hreport : Report.ofSaving i events p path saved.1 =
        { Report.ofPrinting i events p with
          stdout := [], events := events ++ [.wrote p.entries path.toText] } :=
      congrArg (Report.ofSaving i events p path) hsaved
    rw [hreport]
    exact .inl ⟨rfl, rfl, Report.stderr_wrote hverbose _ _, FileTree.read_of_save hsaved⟩

/-- **With a file to write** a run that fails does so as before, and one that succeeds writes what
it would print. -/
theorem Invocation.run_withOutput_cases (hi : i.command.IsGenerate)
    (hout : i.command.NamesNoOutput) (hverbose : i.verbose = false) (hnul : '\x00' ∉ path.toText)
    (t : FileTree) :
    ((i.run t).1.exitCode = 0 ∧ (Saves (i.run t) ((i.withOutput path).run t) path ∨
        FailsToSave t (i.run t) ((i.withOutput path).run t) path)) ∨
      (i.run t).1.exitCode ≠ 0 ∧ (i.withOutput path).run t = i.run t := by
  obtain ⟨events, f, hfailed, hsame⟩ | ⟨events, p, hprinted, hsave⟩ := run_withOutput hi hout path t
  · refine .inr ⟨?_, hsame⟩
    rw [hfailed, Ne, Report.exitCode_eq_zero_iff]
    rintro ⟨⟩
  · rw [hprinted, hsave]
    exact .inl ⟨rfl, saves_or_failsToSave hverbose events p hnul t⟩

end Saving

/-! ## Command lines -/

section Arguments

variable {arguments before own : List Text} {file : Text} {t : FileTree}

/-- **A `-v` in front** changes nothing but the log. -/
theorem run_verbose (hverbose : ∀ i, Invocation.ofArguments arguments = .ok i → i.verbose = false)
    (t : FileTree) :
    ∃ r, run ("-v".toList :: arguments) t = (r, (run arguments t).2) ∧
      r.exitCode = (run arguments t).1.exitCode ∧ r.stdout = (run arguments t).1.stdout ∧
      (r.withoutLevels [.debug, .info]).stderr = (run arguments t).1.stderr := by
  have hshown := Invocation.ofArguments_verbose arguments
  cases hstop : Invocation.ofArguments arguments with
  | error stop =>
    rw [hstop] at hshown
    rw [run_of_stop hstop, run_of_stop hshown]
    cases stop <;> exact ⟨_, rfl, rfl, rfl, rfl⟩
  | ok i =>
    rw [hstop] at hshown
    rw [run_of_invocation hstop, run_of_invocation hshown, Invocation.run_shown]
    exact ⟨_, rfl, rfl, rfl,
      Report.stderr_withoutLevels ((i.verbose_run t).trans (hverbose i hstop))⟩

/-- **A file to write right behind `generate`** gets what was printed before, or it cannot be
written; a run that failed, or was asked for help, stays as it is. -/
theorem run_output
    (hplain : ∀ i, Invocation.ofArguments (before ++ "generate".toList :: own) = .ok i →
      i.verbose = false ∧ i.command.NamesNoOutput)
    (hcalled : Invocation.CallsGenerate before own) (hfile : file.head? ≠ some '-')
    (hnul : '\x00' ∉ file) (t : FileTree) :
    let plain := run (before ++ "generate".toList :: own) t
    let saved := run (before ++ "generate".toList :: "-o".toList :: file :: own) t
    (plain.1.exitCode = 0 ∧ (Saves plain saved (.ofText file) ∨
        FailsToSave t plain saved (.ofText file))) ∨
      (plain.1.exitCode = 0 → ∃ usage,
        Invocation.ofArguments (before ++ "generate".toList :: own) = .error (.help usage)) ∧
      saved = plain := by
  intro plain saved
  have houtput := Invocation.ofArguments_output hfile hcalled
  cases hstop : Invocation.ofArguments (before ++ "generate".toList :: own) with
  | error stop =>
    rw [hstop] at houtput
    refine .inr ⟨fun hcode => ?_, (run_of_stop houtput t).trans (run_of_stop hstop t).symm⟩
    rw [show plain = _ from run_of_stop hstop t] at hcode
    cases stop with
    | help usage => exact ⟨usage, rfl⟩
    | usage program fault => cases hcode
  | ok i =>
    rw [hstop] at houtput
    obtain ⟨hverbose, hout⟩ := hplain i hstop
    rw [show plain = _ from run_of_invocation hstop t,
      show saved = _ from run_of_invocation houtput t]
    exact (i.run_withOutput_cases (hcalled.isGenerate hstop) hout hverbose
      (Path.nul_not_mem_ofText hnul) t).imp_right fun h => ⟨fun hcode => absurd hcode h.1, h.2⟩

end Arguments

/-- **How results are reported does not change them.**  Let the arguments ask neither that
everything be shown nor for a file to be written.  With `-v` in front the run ends, prints and
writes the same, and its log without the entries below a warning is the log it had.  With a file to
write right behind the word that calls `generate`, whichever file that is, a run that succeeded
leaves there what it printed before, or the file cannot be written and all files are kept; one that
failed fails the same, and a request for help is answered the same. -/
theorem run_reporting (arguments : List Text) (t : FileTree)
    (hplain : ∀ i, Invocation.ofArguments arguments = .ok i →
      i.verbose = false ∧ i.command.NamesNoOutput) :
    let plain := run arguments t
    let shown := run ("-v".toList :: arguments) t
    (shown.1.exitCode = plain.1.exitCode ∧ shown.1.stdout = plain.1.stdout ∧ shown.2 = plain.2 ∧
        (shown.1.withoutLevels [.debug, .info]).stderr = plain.1.stderr) ∧
      (∀ i, Invocation.ofArguments arguments = .ok i → i.command.IsGenerate →
        ∃ before own, arguments = before ++ "generate".toList :: own ∧
          Invocation.CallsGenerate before own) ∧
      ∀ before own, arguments = before ++ "generate".toList :: own →
        Invocation.CallsGenerate before own →
        ∀ file : Text, file.head? ≠ some '-' → '\x00' ∉ file →
          let saved := run (before ++ "generate".toList :: "-o".toList :: file :: own) t
          (plain.1.exitCode = 0 →
            ((∃ usage, Invocation.ofArguments arguments = .error (.help usage)) ∧ saved = plain) ∨
              Saves plain saved (.ofText file) ∨ FailsToSave t plain saved (.ofText file)) ∧
          (plain.1.exitCode = 1 →
            saved.1.exitCode = 1 ∧ saved.1.stderr = plain.1.stderr) := by
  intro plain shown
  refine ⟨?_, fun i => Invocation.exists_callsGenerate, ?_⟩
  · obtain ⟨r, hrun, hcode, hstdout, hstderr⟩ := run_verbose (fun i hi => (hplain i hi).1) t
    rw [show shown = _ from hrun]
    exact ⟨hcode, hstdout, rfl, hstderr⟩
  · rintro before own rfl hcalled file hfile hnul saved
    obtain ⟨hcode, hsaved⟩ | ⟨hhelp, hsame⟩ := run_output hplain hcalled hfile hnul t
    · refine ⟨fun _ => .inr hsaved, fun hcode' => ?_⟩
      cases hcode.symm.trans hcode'
    · refine ⟨fun hcode => .inl ⟨hhelp hcode, hsame⟩, fun hcode => ?_⟩
      rw [show saved = plain from hsame]
      exact ⟨hcode, rfl⟩

/-- A module asked for from one file, to be printed. -/
def Invocation.printing : Invocation where
  verbose := false
  marker := .value "////".toList
  command := .generate [.ofText "a.rs".toList] none [] (.value "unknown".toList)

theorem Invocation.ofArguments_printing :
    ofArguments ["generate".toList, "a.rs".toList] = .ok printing := by cbv

/-- A file with a field type that is in no table and without a code, so that its module comes with
two warnings: in full, written over the file itself, and with the file as a directory. -/
theorem run_reporting_each :
    let tree := (FileTree.bare []).put ["a.rs".toList]
      (.file (Encoding.encode "#[f()]pub struct B\x7bpub x: T\x7d\n".toList))
    let plain := (run ["generate".toList, "a.rs".toList] tree).1
    let shown := (run ["-v".toList, "generate".toList, "a.rs".toList] tree).1
    let saved := run ["generate".toList, "-o".toList, "a.rs".toList, "a.rs".toList] tree
    let below := run ["generate".toList, "-o".toList, "a.rs/b".toList, "a.rs".toList] tree
    plain.exitCode = 0 ∧ plain.events.length = 4 ∧
      (shown.withoutLevels [.debug, .info]).stderr = plain.stderr ∧
      (saved.1.stderr = plain.stderr ∧
        saved.2.read (.ofText "a.rs".toList) = .ok (Encoding.encode plain.stdout)) ∧
      below.1.exitCode = 1 ∧ below.1.stdout = [] ∧ tree.SameFiles below.2 := by
  intro tree plain shown saved below
  have hcode : plain.exitCode = 0 := by decide +kernel
  have hsavedCode : saved.1.exitCode = 0 := by decide +kernel
  have hbelowCode : below.1.exitCode = 1 := by decide +kernel
  have hhelp : ∀ usage, Invocation.ofArguments ["generate".toList, "a.rs".toList] ≠
      .error (.help usage) := by
    intro usage h
    cases Invocation.ofArguments_printing.symm.trans h
  obtain ⟨⟨-, -, -, hlog⟩, -, hfile⟩ := run_reporting ["generate".toList, "a.rs".toList] tree
    fun i hi => by
      obtain rfl := Except.ok.inj (Invocation.ofArguments_printing.symm.trans hi)
      exact ⟨rfl, rfl⟩
  have hcalls : Invocation.CallsGenerate [] ["a.rs".toList] := List.mem_singleton_self _
  refine ⟨hcode, by decide +kernel, hlog, ?_, hbelowCode, ?_⟩
  · obtain ⟨⟨usage, h⟩, -⟩ | hsaved | hunsaved :=
      (hfile [] _ rfl hcalls "a.rs".toList (by decide) (by decide)).1 hcode
    · exact absurd h (hhelp usage)
    · exact ⟨hsaved.stderr, hsaved.content⟩
    · cases hsavedCode.symm.trans hunsaved.exitCode
  · obtain ⟨⟨usage, h⟩, -⟩ | hsaved | hunsaved :=
      (hfile [] _ rfl hcalls "a.rs/b".toList (by decide) (by decide)).1 hcode
    · exact absurd h (hhelp usage)
    · cases hbelowCode.symm.trans hsaved.exitCode
    · exact ⟨hunsaved.stdout, hunsaved.files⟩

/-- A path over a directory that is not there and back, and then through a file: what cannot be made
is neither the file to write nor its directory, but the directory above that. -/
theorem run_saved_below_file :
    let file := "x/../a.rs/b/c".toList
    let saved := (run ["generate".toList, "-o".toList, file, "a.rs".toList] .withEmptyFile).1
    Invocation.ofArguments ["generate".toList, "a.rs".toList] = .ok .printing ∧
      Invocation.printing.verbose = false ∧ Invocation.printing.command.NamesNoOutput ∧
      (run ["generate".toList, "a.rs".toList] .withEmptyFile).1.exitCode = 0 ∧
      saved.exitCode = 1 ∧
      saved.failure = some (.save (.system .alreadyExists (.ofText "x/../a.rs".toList))) ∧
      Path.ofText "x/../a.rs".toList ≠ .ofText file ∧
      Path.ofText "x/../a.rs".toList ≠ (Path.ofText file).parent := by
  intro file saved
  have hcode : (run ["generate".toList, "a.rs".toList] .withEmptyFile).1.exitCode = 0 := by
    decide +kernel
  have hmade : (FileTree.storage.makeDirectories (Path.ofText file).parent .withEmptyFile).1 =
      .error (.system .alreadyExists (.ofText "x/../a.rs".toList)) := by decide +kernel
  have hfailure :
      saved.failure = some (.save (.system .alreadyExists (.ofText "x/../a.rs".toList))) := by
    have hdash : file.head? ≠ some '-' := by decide
    have hcalls : Invocation.CallsGenerate [] ["a.rs".toList] := List.mem_singleton_self _
    have hsaved : Invocation.ofArguments ["generate".toList, "-o".toList, file, "a.rs".toList] =
        (Invocation.ofArguments ["generate".toList, "a.rs".toList]).map
          (Invocation.withOutput (.ofText file)) :=
      Invocation.ofArguments_output hdash hcalls
    rw [Invocation.ofArguments_printing] at hsaved
    rw [show saved = _ from congrArg Prod.fst (run_of_invocation hsaved .withEmptyFile)]
    rw [run_of_invocation Invocation.ofArguments_printing] at hcode
    obtain ⟨events, f, hfailed, -⟩ | ⟨events, p, -, hsave⟩ :=
      Invocation.run_withOutput (i := .printing) trivial rfl (.ofText file) .withEmptyFile
    · rw [hfailed, Report.exitCode_eq_zero_iff] at hcode
      cases hcode
    · rw [hsave, FileTree.save_of_makeDirectories hmade]
      rfl
  have hsavedCode : saved.exitCode = 1 := by
    rw [Report.exitCode, hfailure]
    rfl
  exact ⟨Invocation.ofArguments_printing, rfl, rfl, hcode, hsavedCode, hfailure, by decide,
    by decide⟩

end ErrorCatalog
