import ErrorCatalog.Proofs.CommandLine.Priority
import ErrorCatalog.Proofs.Files.Load
import ErrorCatalog.Proofs.Scan.Concatenation
import ErrorCatalog.Proofs.Scan.Language

/-!
# Proofs/CommandLine/Joining — many files as one

A module is made of the catalogues of its files in a row, so it does not matter how the declarations
are spread over files.  Texts in a row declare their catalogues in a row
(`Invocation.exists_catalogs`), no byte order mark turns up at their front
(`Scan.Declares.marked`), and reading a file warns of nothing (`Invocation.sameView_input`).  From
the catalogue on a run cannot tell where it came from, so many files and one that joins them give
runs that look the same (`run_joined`).
-/

namespace ErrorCatalog

/-! ## Attempts that cannot be told apart -/

namespace Attempt

variable {α β : Type} {m m' m'' : Attempt α}

/-- The warnings among the events of an attempt. -/
def warnings (m : Attempt α) : List Event := m.run.events.filter (·.level = .warning)

/-- **Attempts with the same view**: they come to the same end and warn of the same. -/
structure SameView (m m' : Attempt α) : Prop where
  value : value m = Attempt.value m'
  warnings : warnings m = Attempt.warnings m'

theorem SameView.refl (m : Attempt α) : SameView m m := ⟨rfl, rfl⟩

theorem SameView.symm (h : SameView m m') : SameView m' m := ⟨h.value.symm, h.warnings.symm⟩

theorem SameView.trans (h : SameView m m') (h' : SameView m' m'') : SameView m m'' :=
  ⟨h.value.trans h'.value, h.warnings.trans h'.warnings⟩

theorem warnings_bind_ok {a : α} (h : value m = .ok a) (f : α → Attempt β) :
    warnings (m >>= f) = warnings m ++ warnings (f a) := by
  rw [warnings, ExceptT.run_bind, Logged.events_bind, List.filter_append]
  rw [value] at h
  rw [h]
  rfl

theorem warnings_bind_error {e : Failure} (h : value m = .error e) (f : α → Attempt β) :
    warnings (m >>= f) = warnings m := by
  rw [warnings, ExceptT.run_bind, Logged.events_bind, List.filter_append]
  rw [value] at h
  rw [h]
  exact List.append_nil _

/-- **Steps with the same view make attempts with the same view.** -/
theorem SameView.bind {f f' : α → Attempt β} (h : SameView m m')
    (hf : ∀ a, Attempt.value m = .ok a → SameView (f a) (f' a)) : SameView (m >>= f) (m' >>= f') := by
  cases hm : Attempt.value m with
  | error e =>
    have hm' := h.value.symm.trans hm
    exact ⟨by rw [value_bind, value_bind, hm, hm']; rfl,
      by rw [warnings_bind_error hm, warnings_bind_error hm', h.warnings]⟩
  | ok a =>
    have hm' := h.value.symm.trans hm
    exact ⟨by rw [value_bind, value_bind, hm, hm']; exact (hf a hm).value,
      by rw [warnings_bind_ok hm, warnings_bind_ok hm', h.warnings, (hf a hm).warnings]⟩

/-- An attempt with the view of its result goes on with that. -/
theorem SameView.bind_pure {a : α} (h : SameView m (pure a)) (f : α → Attempt β) :
    SameView (m >>= f) (f a) := by
  have hbind := h.bind (f := f) fun _ _ => .refl _
  rwa [pure_bind] at hbind

end Attempt

/-! ## Texts in a row -/

namespace Scan

variable {d : Dialect} {t : Text} {c : Catalog}

/-- **A text that declares a catalogue starts with space or with an attribute**, if with anything. -/
theorem Declares.head?_ne (h : Declares d t c []) {x : Char} (hspace : isSpace x = false)
    (hx : x ≠ '#') : t.head? ≠ some x := by
  intro ht
  obtain ⟨u, rfl⟩ := List.head?_eq_some_iff.mp ht
  obtain ⟨s, ⟨w, hw⟩, r, hstar, rfl⟩ := declares_iff.mp h
  cases w with
  | cons y w =>
    obtain rfl : x = y := (List.cons.inj hw.eq_append).1
    exact Bool.false_ne_true (hspace.symm.trans (hw.all x (List.mem_cons_self ..)))
  | nil =>
    obtain rfl : x :: u = s := hw.eq_append
    cases hstar with
    | cons head _ =>
      obtain ⟨_, ⟨_, ⟨_, hchar, -⟩, -⟩, -⟩ := head
      exact hx (List.cons.inj hchar).1

/-- A text that declares a catalogue has no byte order mark at its front. -/
theorem Declares.marked (h : Declares d t c []) : Encoding.Marked [] t :=
  .inr ⟨rfl, h.head?_ne (by decide) (by decide)⟩

end Scan

/-- **The texts of files in a row**, each without the byte order mark that it may start with. -/
def joinedText (files : List (Path × Text)) : Text :=
  files.flatMap fun file => Encoding.dropByteOrderMark file.2

namespace Invocation

open Attempt

variable {d : Dialect} {read read' : Path → Except FileFault Bytes} {files : List (Path × Text)}
  {p : Path} {t : Text} {c : Catalog}

/-- **Reading a file warns of nothing**, whatever comes of it. -/
theorem warnings_input (d : Dialect) (read : Path → Except FileFault Bytes) (p : Path) :
    warnings (input d read p) = [] := by
  have hscanned : ∀ harvest : Harvest Entry,
      harvest.events.filter (·.level = .warning) = [] := fun harvest =>
    List.filter_eq_nil_iff.mpr fun e he => by
      obtain ⟨entry, -, rfl⟩ := List.mem_map.mp he
      exact Bool.false_ne_true
  have hload : (Catalog.load d p (read p)).events.filter (·.level = .warning) = [] := by
    rw [Catalog.load.eq_def]
    split
    · rfl
    · split
      · rfl
      · rw [Catalog.ofFileText]
        split
        · exact hscanned _
        · rw [List.filter_append, hscanned]
          rfl
  change (_ ++ []).filter _ = []
  rwa [List.append_nil]

/-- **Reading a file** whose text declares a catalogue comes to that and nothing else. -/
theorem sameView_input (hread : read p = .ok (Encoding.encode t))
    (ht : Scan.Declares d (Encoding.dropByteOrderMark t) c []) :
    SameView (input d read p) (pure c) := by
  refine ⟨?_, warnings_input d read p⟩
  rw [value_input, hread, Catalog.load_encode, Catalog.value_ofFileText, ht.ofText?_eq]
  rfl

/-- **The catalogues of files are that of their texts in a row**, and reading them warns of
nothing. -/
theorem exists_catalogs (h : ∀ file ∈ files, read file.1 = .ok (Encoding.encode file.2) ∧
      ∃ c, Catalog.ofText? d (Encoding.dropByteOrderMark file.2) = .ok c) :
    ∃ catalogs, SameView ((files.map Prod.fst).mapM (input d read)) (pure catalogs) ∧
      Scan.Declares d (joinedText files) catalogs.flatten [] := by
  induction files with
  | nil => exact ⟨[], .refl _, Scan.declares_nil d⟩
  | cons file files ih =>
    obtain ⟨⟨hread, c, hc⟩, hfiles⟩ := List.forall_mem_cons.mp h
    obtain ⟨catalogs, hview, hdeclares⟩ := ih hfiles
    have hfirst := Scan.ofText?_eq_ok_iff.mp hc
    refine ⟨c :: catalogs, ?_, hfirst.append hdeclares⟩
    rw [List.map_cons, List.mapM_cons]
    exact (sameView_input hread hfirst).bind fun _ _ => hview.bind fun _ _ => .refl _

theorem dialect?_of_marker {marker : Setting Text} {m : Marker} {verbose : Bool}
    {command : Command} (h : Marker.ofSetting? marker = .ok m) :
    dialect? ⟨verbose, marker, command⟩ = .ok { Dialect.standard with marker := m } := by
  rw [dialect?, h]
  rfl

/-- **A module cannot tell one file from many**: whatever is read, it is made of the entries that
are. -/
theorem sameView_product {marker : Setting Text} {m : Marker} {g : Path} (verbose verbose' : Bool)
    (types : List (Setting Text)) (fallback : Setting Text)
    (hmarker : Marker.ofSetting? marker = .ok m)
    (hfiles : ∀ file ∈ files, read file.1 = .ok (Encoding.encode file.2) ∧
      ∃ c, Catalog.ofText? { Dialect.standard with marker := m }
        (Encoding.dropByteOrderMark file.2) = .ok c)
    (hg : read' g = .ok (Encoding.encode (joinedText files))) :
    SameView (product ⟨verbose, marker, .generate (files.map Prod.fst) none types fallback⟩ read)
      (product ⟨verbose', marker, .generate [g] none types fallback⟩ read') := by
  obtain ⟨catalogs, hview, hdeclares⟩ := exists_catalogs hfiles
  have hone : SameView ([g].mapM (input { Dialect.standard with marker := m } read'))
      (pure [catalogs.flatten]) := by
    rw [List.mapM_cons]
    have hmark : Encoding.dropByteOrderMark (joinedText files) = joinedText files :=
      hdeclares.marked.dropByteOrderMark
    exact (sameView_input hg (hmark.symm ▸ hdeclares)).bind fun _ _ => .refl _
  rw [product, product, dialect?_of_marker hmarker, dialect?_of_marker hmarker]
  refine (SameView.refl _).bind fun d' hd' => ?_
  obtain rfl := Except.ok.inj hd'
  refine (SameView.refl _).bind fun table _ => ?_
  -- What follows sees the catalogues only in a row, and there one is as good as many.
  refine (hview.bind_pure _).trans (.trans ?_ (hone.bind_pure _).symm)
  rw [List.flatten_singleton]
  exact .refl _

end Invocation

/-- **Many files behave as one.**  A module asked for from files whose texts all declare catalogues
comes out as from one file that holds these texts in a row, each without the byte order mark that it
may start with: with the same code at the end, the same output and the same warnings.  Whatever else
the two command lines say, they agree on the marker, the type mappings and the fallback. -/
theorem run_joined (arguments arguments' : List Text) (t t' : FileTree)
    (files : List (Path × Text)) (g : Path) (verbose verbose' : Bool) (marker : Setting Text)
    (types : List (Setting Text)) (fallback : Setting Text) (m : Marker)
    (hmany : Invocation.ofArguments arguments =
      .ok ⟨verbose, marker, .generate (files.map Prod.fst) none types fallback⟩)
    (hone : Invocation.ofArguments arguments' =
      .ok ⟨verbose', marker, .generate [g] none types fallback⟩)
    (hmarker : Marker.ofSetting? marker = .ok m)
    (hfiles : ∀ file ∈ files, t.read file.1 = .ok (Encoding.encode file.2) ∧
      ∃ c, Catalog.ofText? { Dialect.standard with marker := m }
        (Encoding.dropByteOrderMark file.2) = .ok c)
    (hg : t'.read g = .ok (Encoding.encode (joinedText files))) :
    let many := (run arguments t).1
    let one := (run arguments' t').1
    many.exitCode = one.exitCode ∧ many.stdout = one.stdout ∧
      many.events.filter (·.level = .warning) = one.events.filter (·.level = .warning) := by
  intro many one
  have hview :=
    Invocation.sameView_product verbose verbose' types fallback hmarker hfiles hg
  have hmanyRun : many = (Invocation.run _ t).1 := congrArg Prod.fst (run_of_invocation hmany t)
  have honeRun : one = (Invocation.run _ t').1 := congrArg Prod.fst (run_of_invocation hone t')
  obtain ⟨hfailure, hstdout, hevents⟩ := Invocation.run_of_output? (t := t)
    (i := ⟨verbose, marker, .generate (files.map Prod.fst) none types fallback⟩) rfl
  obtain ⟨hfailure', hstdout', hevents'⟩ := Invocation.run_of_output? (t := t')
    (i := ⟨verbose', marker, .generate [g] none types fallback⟩) rfl
  rw [hmanyRun, honeRun, Report.exitCode, Report.exitCode, hfailure, hfailure', hstdout, hstdout',
    hevents, hevents', hview.value]
  exact ⟨rfl, rfl, hview.warnings⟩

/-- A file with a byte order mark and one with a field type that is in no table, asked for one after
the other and as one file. -/
theorem run_joined_two :
    let files : List (Path × Text) :=
      [(.ofText "a.rs".toList, "\uFEFF#[e()]pub struct A\x7b\x7d".toList),
        (.ofText "b.rs".toList, "#[f()]pub struct B\x7bpub x: T\x7d\n".toList)]
    let tree := (((FileTree.bare []).put ["a.rs".toList]
        (.file (Encoding.encode "\uFEFF#[e()]pub struct A\x7b\x7d".toList))).put ["b.rs".toList]
        (.file (Encoding.encode "#[f()]pub struct B\x7bpub x: T\x7d\n".toList))).put ["g.rs".toList]
        (.file (Encoding.encode (joinedText files)))
    let many := (run ["generate".toList, "a.rs".toList, "b.rs".toList, "--type=u=v".toList] tree).1
    let one := (run ["-v".toList, "generate".toList, "--type=u=v".toList, "g.rs".toList] tree).1
    joinedText files = "#[e()]pub struct A\x7b\x7d#[f()]pub struct B\x7bpub x: T\x7d\n".toList ∧
      many.exitCode = one.exitCode ∧ many.stdout = one.stdout ∧
      many.events.filter (·.level = .warning) = one.events.filter (·.level = .warning) := by
  intro files tree many one
  have hmany : Invocation.ofArguments
      ["generate".toList, "a.rs".toList, "b.rs".toList, "--type=u=v".toList] =
        .ok ⟨false, .value "////".toList, .generate (files.map Prod.fst) none
          [.value "u=v".toList] (.value "unknown".toList)⟩ := by cbv
  have hone : Invocation.ofArguments
      ["-v".toList, "generate".toList, "--type=u=v".toList, "g.rs".toList] =
        .ok ⟨true, .value "////".toList, .generate [.ofText "g.rs".toList] none
          [.value "u=v".toList] (.value "unknown".toList)⟩ := by cbv
  have hfiles : ∀ file ∈ files, tree.read file.1 = .ok (Encoding.encode file.2) ∧
      ∃ c, Catalog.ofText? .standard (Encoding.dropByteOrderMark file.2) = .ok c := by
    refine List.forall_mem_cons.mpr ⟨⟨by decide +kernel, ?_⟩,
      List.forall_mem_singleton.mpr ⟨by decide +kernel, ?_⟩⟩
    · exact ⟨[⟨⟨"e".toList, []⟩, ⟨"A".toList, []⟩⟩], by decide +kernel⟩
    · exact ⟨[⟨⟨"f".toList, []⟩, ⟨"B".toList, [⟨"x".toList, "T".toList, []⟩]⟩⟩], by decide +kernel⟩
  exact ⟨by decide +kernel, run_joined _ _ tree tree files (.ofText "g.rs".toList) _ _ _ _ _
    Dialect.standard.marker hmany hone rfl hfiles (by decide +kernel)⟩

end ErrorCatalog
