import ErrorCatalog.Proofs.CommandLine.Joining
import ErrorCatalog.Proofs.Interface.Precedence

/-!
# Proofs/CommandLine/Mapping — which type a field gets

The type of a field is looked up in two tables, one behind the other: what the arguments map types
to, where the last mapping of a type counts (`Tabulates.get?_eq_some`), and what types are mapped to
by default (`Style.get?_withTypes`).  A type in neither gets the fallback, and a warning.  So the
module that a run puts out has the types that the rule gives, and a run with something that is no
mapping names the first such text (`run_types`).
-/

namespace ErrorCatalog

/-! ## The mappings that are set -/

section Arguments

variable {arguments : List Text}

/-- A `generate` is told its type mappings one by one, and its last fallback counts. -/
theorem GenerateRequest.mappings_add {item : Item GenerateKey} {r r' : GenerateRequest}
    (h : r.add item = .ok r') : r'.types = r.types ++ item.settingsOf .type ∧
      r'.fallback = (item.settingsOf .fallback).getLast?.getD r.fallback := by
  cases item with
  | flag key =>
    cases key with
    | help => cases h
    | _ =>
      obtain rfl := Except.ok.inj h
      exact ⟨(List.append_nil _).symm, rfl⟩
  | set key v =>
    cases key with
    | type =>
      obtain rfl := Except.ok.inj h
      exact ⟨rfl, rfl⟩
    | _ =>
      obtain rfl := Except.ok.inj h
      exact ⟨(List.append_nil _).symm, rfl⟩
  | operand | command | extra =>
    obtain rfl := Except.ok.inj h
    exact ⟨(List.append_nil _).symm, rfl⟩

/-- The type mappings and the fallback said so far are those of the items so far. -/
def GenerateRequest.Mapped (items : List (Item GenerateKey)) (r : GenerateRequest) : Prop :=
  r.types = items.flatMap (Item.settingsOf .type) ∧
    r.fallback = (items.flatMap (Item.settingsOf .fallback)).getLast?.getD ({} : Style).fallback

theorem GenerateRequest.Mapped.add {items : List (Item GenerateKey)} {item : Item GenerateKey}
    {r r' : GenerateRequest} (hr : r.Mapped items) (h : r.add item = .ok r') :
    r'.Mapped (items ++ [item]) := by
  obtain ⟨htypes, hfallback⟩ := hr
  obtain ⟨htypes', hfallback'⟩ := mappings_add h
  refine ⟨?_, ?_⟩
  · rw [htypes', htypes, List.flatMap_append, List.flatMap_singleton]
  · rw [hfallback', hfallback, List.flatMap_append, List.flatMap_singleton, List.getLast?_append,
      Option.getD_or]

/-- **The type mappings of a command line** are what the switch for them is set to, each time it is,
in the order of the arguments; the fallback is what its switch is set to last. -/
theorem Invocation.mappings_of_ofArguments {verbose : Bool} {marker fallback : Setting Text}
    {inputs : List Path} {output : Option (Setting Path)} {types : List (Setting Text)}
    (h : ofArguments arguments = .ok ⟨verbose, marker, .generate inputs output types fallback⟩) :
    ∃ given : List Text, given.Sublist arguments ∧
      types = (generateGrammar.read given).settingsOf .type ∧
      fallback = ((generateGrammar.read given).settingsOf .fallback).getLast?.getD
        ({} : Style).fallback ∧ ComesFrom GivenBy types given := by
  obtain ⟨name, given, extras, hname, hgiven⟩ := commandOf_of_ofArguments h
  rw [commandOf] at hname
  split at hname
  · obtain ⟨r, hread, hr⟩ := eq_ok_of_bind hname
    have hstart : GenerateRequest.Mapped [] {} := ⟨rfl, rfl⟩
    obtain ⟨⟨htypes, hfallback⟩, -⟩ := Reading.of_fold hstart (fun _ _ _ _ => .add) hread
    obtain ⟨rfl, rfl, rfl, rfl⟩ := Command.generate.inj (Prod.mk.inj (Except.ok.inj hr)).1
    refine ⟨given, (List.sublist_cons_self ..).trans hgiven, htypes, hfallback, ?_⟩
    rw [htypes]
    exact (generateGrammar.follows_settingsOf .type).read given
  · split at hname
    · obtain ⟨r, -, hr⟩ := eq_ok_of_bind hname
      cases hr
    · cases hname

end Arguments

/-! ## Mappings -/

/-- The setting maps the type `source` to `target`: these are the two sides of its first equals
sign, both trimmed and neither of them blank. -/
def MapsTo (v : Setting Text) (source target : Text) : Prop :=
  ∃ left right, v = .value (left ++ '=' :: right) ∧ '=' ∉ left ∧ Text.trim left = source ∧
    Text.trim right = target ∧ source ≠ [] ∧ target ≠ []

theorem cutAtEquals_append {left right : Text} (hleft : '=' ∉ left) :
    cutAtEquals (left ++ '=' :: right) = (left, some right) := by
  have hne : ∀ c ∈ left, decide (c ≠ '=') = true := fun c hc =>
    decide_eq_true (ne_of_mem_of_not_mem hc hleft)
  rw [cutAtEquals, List.dropWhile_append_of_pos hne, List.takeWhile_append_of_pos hne]
  simp

theorem eq_of_cutAtEquals {t left right : Text} (h : cutAtEquals t = (left, some right)) :
    t = left ++ '=' :: right ∧ '=' ∉ left := by
  rw [cutAtEquals] at h
  split at h
  · cases h
  · next c value hvalue =>
    obtain ⟨rfl, ⟨⟩⟩ := Prod.mk.inj h
    have hc : c = '=' := by
      have hhead := List.head?_dropWhile_not (fun c : Char => decide (c ≠ '=')) t
      rw [hvalue] at hhead
      simpa using hhead
    refine ⟨?_, fun hmem => by simpa using List.mem_takeWhile_imp hmem⟩
    subst hc
    rw [← hvalue, List.takeWhile_append_dropWhile]

theorem mappingOf?_eq_some_iff {t source target : Text} :
    mappingOf? t = some (source, target) ↔ MapsTo (.value t) source target := by
  rw [mappingOf?]
  constructor
  · intro h
    split at h
    · next left right hcut =>
      obtain ⟨rfl, hleft⟩ := eq_of_cutAtEquals hcut
      split at h
      · cases h
      · next hblank =>
        obtain ⟨rfl, rfl⟩ := Prod.mk.inj (Option.some.inj h)
        simp only [Bool.or_eq_true, decide_eq_true_eq, not_or] at hblank
        exact ⟨left, right, rfl, hleft, rfl, rfl, hblank.1, hblank.2⟩
    · cases h
  · rintro ⟨left, right, ⟨⟩, hleft, rfl, rfl, hsource, htarget⟩
    rw [cutAtEquals_append hleft]
    exact if_neg (by simp [hsource, htarget])

theorem mappingOf_eq_ok_iff {v : Setting Text} {source target : Text} :
    mappingOf v = .ok (source, target) ↔ MapsTo v source target := by
  cases v with
  | nothing => exact iff_of_false nofun (by rintro ⟨left, right, ⟨⟩, -⟩)
  | value t =>
    rw [← mappingOf?_eq_some_iff, mappingOf_value]
    cases mappingOf? t with
    | none => exact iff_of_false nofun nofun
    | some mapping => simp

/-- A text that maps nothing is refused. -/
theorem mappingOf_of_not_mapsTo {t : Text}
    (h : ∀ source target, ¬ MapsTo (.value t) source target) :
    mappingOf (.value t) = .error (.usage programName (.mapping t)) := by
  have hnone : mappingOf? t = none :=
    Option.eq_none_iff_forall_not_mem.mpr fun mapping hmapping =>
      h _ _ (mappingOf?_eq_some_iff.mp hmapping)
  rw [mappingOf_value, hnone]
  rfl

theorem MapsTo.unique {v : Setting Text} {source source' target target' : Text}
    (h : MapsTo v source target) (h' : MapsTo v source' target') :
    source = source' ∧ target = target' :=
  Prod.mk.inj (Except.ok.inj ((mappingOf_eq_ok_iff.mpr h).symm.trans (mappingOf_eq_ok_iff.mpr h')))

theorem MapsTo.of_mappingOf? {t source target : Text} (h : mappingOf? t = some (source, target)) :
    MapsTo (.value t) source target := mappingOf?_eq_some_iff.mp h

/-- A setting that maps one type maps no other. -/
theorem MapsTo.not_of_ne {v : Setting Text} {source source' target : Text}
    (h : MapsTo v source target) (hne : source ≠ source') : ∀ target', ¬ MapsTo v source' target' :=
  fun _ h' => hne (h.unique h').1

/-- **The last of the settings that map `source`** maps it to `target`. -/
def LastMaps (types : List (Setting Text)) (source target : Text) : Prop :=
  ∃ before v after, types = before ++ v :: after ∧ MapsTo v source target ∧
    ∀ v' ∈ after, ∀ target', ¬ MapsTo v' source target'

/-- The table has what each of the settings maps, in turn. -/
def Tabulates (types : List (Setting Text)) (table : Table) : Prop :=
  List.Forall₂ (fun v entry => MapsTo v entry.1 entry.2) types table

namespace Tabulates

variable {types : List (Setting Text)} {table : Table} {source target : Text}

theorem of_mappingsOf (h : mappingsOf types = .ok table) : Tabulates types table :=
  (forall₂_of_mapM h).imp fun _ _ => mappingOf_eq_ok_iff.mp

theorem exists_mapsTo (h : Tabulates types table) : ∀ v ∈ types, ∃ source target,
    MapsTo v source target := by
  induction h with
  | nil => exact List.forall_mem_nil _
  | cons hv _ ih => exact List.forall_mem_cons.mpr ⟨⟨_, _, hv⟩, ih⟩

/-- A table of mappings has nothing under what none of them maps. -/
theorem get?_eq_none (h : Tabulates types table) (hnone : ∀ v ∈ types, ∀ target,
    ¬ MapsTo v source target) : table.get? source = none := by
  rw [Table.get?_eq_none_iff]
  induction h with
  | nil => exact List.not_mem_nil
  | cons hv _ ih =>
    obtain ⟨hhead, htail⟩ := List.forall_mem_cons.mp hnone
    rintro (_ | ⟨_, hmem⟩)
    · exact hhead _ hv
    · exact ih htail hmem

/-- **A table of mappings has what the last one says.** -/
theorem get?_eq_some (h : Tabulates types table) (hlast : LastMaps types source target) :
    table.get? source = some target := by
  obtain ⟨before, v, after, rfl, hv, hafter⟩ := hlast
  have hdrop := List.forall₂_drop_append table before (v :: after) h.flip
  obtain ⟨⟨source', target'⟩, rest, hentry, hrest, hdropped⟩ :=
    List.forall₂_cons_right_iff.mp hdrop
  obtain ⟨rfl, rfl⟩ := MapsTo.unique hentry hv
  have hsplit : table =
      Table.extend (Table.extend (table.take before.length) [(source', target')]) rest := by
    rw [Table.extend, Table.extend, ← List.append_cons, ← hdropped, List.take_append_drop]
  rw [hsplit, Table.get?_extend, get?_eq_none hrest.flip hafter, Option.none_or, Table.get?_extend,
    Table.get?_singleton, Option.some_or]

end Tabulates

/-! ## The module that is put out -/

/-- **The text is put out**: it is what is printed, or the content of the file that is named. -/
def PutOut (target : Option Path) (report : Report) (after : FileTree) (text : Text) : Prop :=
  target = none ∧ report.stdout = text ∨ ∃ path l, target = some path ∧
    after.locate path = .ok l ∧ after.file? l = some (Encoding.encode text)

/-- Warnings are shown. -/
theorem Report.filter_shown (r : Report) : (r.shown.filter fun e => e.level = .warning) =
    r.events.filter fun e => e.level = .warning := by
  rw [shown, List.filter_filter]
  refine List.filter_congr fun e _ => ?_
  by_cases he : e.level = .warning <;> simp [he, Event.isAlwaysShown]

namespace Invocation

open Attempt

variable {d : Dialect} {read : Path → Except FileFault Bytes} {verbose : Bool} {m : Marker}
  {marker fallback : Setting Text} {inputs : List Path} {output : Option (Setting Path)}
  {types : List (Setting Text)} {t : FileTree}

@[simp] theorem warnings_pure {α : Type} (a : α) : warnings (pure a) = [] := rfl

@[simp] theorem warnings_silently {α : Type} (r : Except Failure α) :
    warnings (silently r) = [] := rfl

@[simp] theorem warnings_lift {α : Type} (a : Logged α) :
    warnings (ExceptT.lift a) = a.events.filter fun e => e.level = .warning := by
  change (_ ++ []).filter _ = _
  rw [List.append_nil]

/-- Steps that warn of nothing make an attempt that warns of nothing. -/
theorem warnings_bind_eq_nil {α β : Type} {a : Attempt α} {f : α → Attempt β}
    (ha : warnings a = []) (hf : ∀ x, warnings (f x) = []) : warnings (a >>= f) = [] := by
  cases hvalue : value a with
  | error e => rw [warnings_bind_error hvalue, ha]
  | ok x => rw [warnings_bind_ok hvalue, ha, hf, List.append_nil]

theorem warnings_inputs (d : Dialect) (read : Path → Except FileFault Bytes)
    (inputs : List Path) : warnings (inputs.mapM (input d read)) = [] := by
  induction inputs with
  | nil => rfl
  | cons p inputs ih =>
    rw [List.mapM_cons]
    exact warnings_bind_eq_nil (warnings_input d read p) fun _ =>
      warnings_bind_eq_nil ih fun _ => rfl

/-- The catalogues of files are what each of them loads to. -/
theorem forall₂_load {catalogs : List Catalog}
    (h : (inputs.mapM fun p => value (input d read p)) = .ok catalogs) :
    List.Forall₂ (fun p c => (Catalog.load d p (read p)).value = .ok c) inputs catalogs := by
  refine (forall₂_of_mapM h).imp fun p c hc => ?_
  rw [value_input] at hc
  cases hload : (Catalog.load d p (read p)).value with
  | error fault =>
    rw [hload] at hc
    cases hc
  | ok c' =>
    rw [hload] at hc
    obtain rfl := Except.ok.inj hc
    rfl

/-- **The module of a `generate`** is that of the catalogues of its inputs, in the style with its
mappings, and its warnings are those of the module. -/
theorem exists_of_product {p : Product} (hm : Marker.ofSetting? marker = .ok m)
    (h : value (product ⟨verbose, marker, .generate inputs output types fallback⟩ read) = .ok p) :
    ∃ table catalogs, mappingsOf types = .ok table ∧
      (inputs.mapM fun path => value (input { Dialect.standard with marker := m } read path)) =
        .ok catalogs ∧
      output.mapM (·.toExcept (Failure.unset .target)) = .ok p.target ∧
      p.text = ((({ fallback } : Style).withTypes table).render catalogs.flatten).value ∧
      warnings (product ⟨verbose, marker, .generate inputs output types fallback⟩ read) =
        ((({ fallback } : Style).withTypes table).render catalogs.flatten).events := by
  rw [product, dialect?_of_marker hm] at h ⊢
  obtain ⟨d, ⟨⟩, h⟩ := eq_ok_of_bind ((value_bind ..).symm.trans h)
  obtain ⟨table, htable, h⟩ := eq_ok_of_bind ((value_bind ..).symm.trans h)
  obtain ⟨catalogs, hcatalogs, h⟩ := eq_ok_of_bind ((value_bind ..).symm.trans h)
  obtain ⟨generation, hgeneration, h⟩ := eq_ok_of_bind ((value_bind ..).symm.trans h)
  obtain ⟨target, htarget, h⟩ := eq_ok_of_bind ((value_bind ..).symm.trans h)
  obtain rfl := Except.ok.inj h
  obtain rfl := Except.ok.inj hgeneration
  refine ⟨table, catalogs, htable, (value_mapM ..).symm.trans hcatalogs, htarget, rfl, ?_⟩
  rw [warnings_bind_ok rfl, warnings_bind_ok htable, warnings_bind_ok hcatalogs,
    warnings_bind_ok hgeneration, warnings_bind_ok htarget]
  simp only [warnings_silently, warnings_inputs, warnings_lift, warnings_pure, List.nil_append,
    List.append_nil]
  rw [Generation.ofCatalog, Logged.events_bind, Logged.events_pure, List.append_nil]
  exact List.filter_eq_self.mpr fun event hevent =>
    decide_eq_true (Style.level_of_mem_events_render hevent)

theorem eq_map_of_target {target : Option Path}
    (h : output.mapM (·.toExcept (Failure.unset .target)) = .ok target) :
    output = target.map .value := by
  obtain _ | _ | _ := output
  · rw [← Except.ok.inj h, Option.map_none]
  · rw [← Except.ok.inj h, Option.map_some]
  · cases h

/-- **A run that ends well** puts out its product and shows the warnings of its making. -/
theorem exists_product_of_exitCode {i : Invocation} (h : (i.run t).1.exitCode = 0) :
    ∃ p, value (i.product t.read) = .ok p ∧ PutOut p.target (i.run t).1 (i.run t).2 p.text ∧
      (i.run t).1.shown.filter (fun e => e.level = .warning) = warnings (i.product t.read) := by
  rw [Report.exitCode_eq_zero_iff] at h
  rw [Report.filter_shown]
  obtain ⟨f, -, hrun⟩ | ⟨p, hvalue, htarget, hrun⟩ | ⟨p, path, hvalue, htarget, hrun⟩ :=
    i.run_cases t
  · rw [hrun] at h
    cases h
  · rw [hrun]
    exact ⟨p, hvalue, .inl ⟨htarget, rfl⟩, rfl⟩
  · rw [hrun] at h ⊢
    obtain ⟨fault, hsave, -⟩ | ⟨l, hsave, hlocate, hfile, -⟩ :=
      t.save_cases path (Encoding.encode p.text)
    · rw [hsave] at h
      cases h
    · rw [hsave]
      refine ⟨p, hvalue, .inr ⟨path, l, htarget, hlocate, hfile⟩, ?_⟩
      change (_ ++ [_]).filter _ = _
      rw [List.filter_append]
      exact List.append_nil _

/-- **A run whose mappings are refused** fails on the first that is none, and says so. -/
theorem run_of_mapping {before after : List (Setting Text)} {text : Text}
    (hm : Marker.ofSetting? marker = .ok m)
    (hbefore : ∀ v ∈ before, ∃ source target, MapsTo v source target)
    (htext : ∀ source target, ¬ MapsTo (.value text) source target) (t : FileTree) :
    run ⟨verbose, marker, .generate inputs output (before ++ .value text :: after) fallback⟩ t =
      ({ verbose, failure := some (.usage programName (.mapping text)) }, t) := by
  have hmappings : mappingsOf (before ++ .value text :: after) =
      .error (.usage programName (.mapping text)) := by
    refine eq_error_of_fault? ?_
    have hnone : (before.findSome? fun v => fault? (mappingOf v)) = none := by
      refine List.findSome?_eq_none_iff.mpr fun v hv => ?_
      obtain ⟨source, target, hmaps⟩ := hbefore v hv
      rw [mappingOf_eq_ok_iff.mpr hmaps]
      rfl
    rw [mappingsOf, fault?_mapM, List.findSome?_append, hnone, List.findSome?_cons,
      mappingOf_of_not_mapsTo htext]
    rfl
  have hproduct : ∀ read, product ⟨verbose, marker,
      .generate inputs output (before ++ .value text :: after) fallback⟩ read =
        silently (.error (.usage programName (.mapping text))) := fun read => by
    rw [product, dialect?_of_marker hm]
    change silently (mappingsOf _) >>= _ = _
    rw [hmappings]
    rfl
  rw [run, hproduct]
  rfl

end Invocation

theorem Failure.text_of_mapping (t : Text) : (usage programName (.mapping t)).text =
    "declscan: error: Invalid --type mapping ".toList ++ Text.quoted t ++
      ", expected SOURCE=TS\n".toList := by
  have hstart : "declscan: error: Invalid --type mapping ".toList =
      programName ++ ": error: ".toList ++ "Invalid --type mapping ".toList := by decide +kernel
  have hend : ", expected SOURCE=TS\n".toList = ", expected SOURCE=TS".toList ++ ['\n'] := by
    decide +kernel
  rw [hstart, hend]
  change programName ++ ": error: ".toList ++ ("Invalid --type mapping ".toList ++ Text.quoted t ++
    ", expected SOURCE=TS".toList) ++ ['\n'] = _
  simp only [List.append_assoc]

/-- **The last mapping counts, below it the defaults, and the fallback comes last.**  The mappings
of a `generate` are what its switch for them is set to, in the order of the arguments.  If the run
ends well, all of them are mappings, and in the module that is put out each field has the type that
the last of them maps its own to, else the default one, else the fallback; fields that get the
fallback are warned of, each of them.  The first text that is no mapping ends the run with code 2,
and the message names it.  A style that takes in tables in turn looks a type up in the last table
that has it, else among its own, and is otherwise the style it was. -/
theorem run_types {arguments : List Text} {verbose : Bool} {marker fallback : Setting Text}
    {inputs : List Path} {output : Option (Setting Path)} {types : List (Setting Text)} {m : Marker}
    (t : FileTree) (h : Invocation.ofArguments arguments =
      .ok ⟨verbose, marker, .generate inputs output types fallback⟩)
    (hm : Marker.ofSetting? marker = .ok m) :
    let report := (run arguments t).1
    let after := (run arguments t).2
    let defaults : Style := {}
    (∃ given : List Text, given.Sublist arguments ∧
        types = (generateGrammar.read given).settingsOf .type ∧
        fallback = ((generateGrammar.read given).settingsOf .fallback).getLast?.getD
          defaults.fallback ∧ ComesFrom GivenBy types given) ∧
      (report.exitCode = 0 → (∀ v ∈ types, ∃ source target, MapsTo v source target) ∧
        ∃ (catalogs : List Catalog) (mapped : Text → Option Text) (target : Option Path),
          List.Forall₂ (fun path c =>
            (Catalog.load { Dialect.standard with marker := m } path (t.read path)).value = .ok c)
            inputs catalogs ∧
          (∀ type mapping, LastMaps types type mapping → mapped type = some mapping) ∧
          (∀ type, (∀ v ∈ types, ∀ mapping, ¬ MapsTo v type mapping) →
            mapped type = defaults.types.get? type) ∧
          output = target.map .value ∧
          PutOut target report after (defaults.moduleWith
            (fun type => (mapped type).getD fallback.text) catalogs.flatten) ∧
          report.shown.filter (fun e => e.level = .warning) =
            ((catalogs.flatten.flatMap fun e => e.record.fields).filter fun f =>
                mapped f.type = none).map (fun f => .noMapping f.type fallback) ++
              (catalogs.flatten.filter fun e =>
                defaults.codeParam ∉ e.tag.params.map Param.name).map
                  fun e => .noCode e.record.name defaults.codeParam defaults.enumName) ∧
      (∀ before text rest, types = before ++ .value text :: rest →
        (∀ v ∈ before, ∃ source target, MapsTo v source target) →
        (∀ source target, ¬ MapsTo (.value text) source target) →
          report.exitCode = 2 ∧ report.stderr = "declscan: error: Invalid --type mapping ".toList ++
            Text.quoted text ++ ", expected SOURCE=TS\n".toList) ∧
      ∀ (g : Style) (extras : List Table),
        let joined := extras.foldl Style.withTypes g
        { joined with types := g.types } = g ∧ ∀ type, (joined.mapType type).value =
          ((extras.reverse.findSome? (·.get? type)).or (g.types.get? type)).getD
            g.fallback.text := by
  intro report after defaults
  have hrun : run arguments t = _ := run_of_invocation h t
  refine ⟨Invocation.mappings_of_ofArguments h, fun hcode => ?_,
    fun before text rest htypes hbefore htext => ?_, fun g extras => ⟨?_, fun type => ?_⟩⟩
  · rw [show report = _ from congrArg Prod.fst hrun] at hcode ⊢
    rw [show after = _ from congrArg Prod.snd hrun]
    obtain ⟨p, hproduct, hput, hwarnings⟩ := Invocation.exists_product_of_exitCode hcode
    obtain ⟨table, catalogs, htable, hcatalogs, htarget, htext, hevents⟩ :=
      Invocation.exists_of_product hm hproduct
    have hof := Tabulates.of_mappingsOf htable
    rw [htext, Style.value_render_withTypes] at hput
    rw [hevents, Style.events_render_withTypes] at hwarnings
    refine ⟨hof.exists_mapsTo, catalogs, Style.mappedBy table, p.target,
      Invocation.forall₂_load hcatalogs, fun type mapping hlast => ?_, fun type hnone => ?_,
      Invocation.eq_map_of_target htarget, hput, hwarnings⟩
    · rw [Style.mappedBy, hof.get?_eq_some hlast, Option.some_or]
    · rw [Style.mappedBy, hof.get?_eq_none hnone, Option.none_or]
  · subst htypes
    have hreport : report = _ :=
      congrArg Prod.fst (hrun.trans (Invocation.run_of_mapping hm hbefore htext t))
    rw [hreport]
    exact ⟨rfl, Failure.text_of_mapping text⟩
  · rw [g.foldl_withTypes extras]
  · rw [g.foldl_withTypes extras, Style.value_mapType, ← Table.get?_flatten]
    exact congrArg (Option.getD · _) (g.types.get?_extend extras.flatten type)

/-- One run that ends well, in which one type is mapped twice, the second time with blanks around it
and to a text with an equals sign in it, another one is mapped by default as well, and a third one
gets the fallback; and one run with two texts that are no mappings. -/
theorem run_types_each :
    let text := "#[e()]pub struct A\x7bpub x: T, pub y: u64, pub z: U\x7d".toList
    let tree := (FileTree.bare []).put ["a.rs".toList] (.file (Encoding.encode text))
    let c : Catalog := [⟨⟨"e".toList, []⟩, ⟨"A".toList, [⟨"x".toList, "T".toList, []⟩,
      ⟨"y".toList, "u64".toList, []⟩, ⟨"z".toList, "U".toList, []⟩]⟩⟩]
    let report := (run ["generate".toList, "a.rs".toList, "--type=T=a".toList,
      "--type= T = b=c ".toList, "--type=u64=bigint".toList, "--fallback-type=any".toList] tree).1
    let refused := (run ["generate".toList, "a.rs".toList, "--type=T=a".toList,
      "--type= =x".toList, "--type=y".toList] (.bare [])).1
    report.exitCode = 0 ∧
      (∃ mapped : Text → Option Text, mapped "T".toList = some "b=c".toList ∧
        mapped "u64".toList = some "bigint".toList ∧
        mapped "String".toList = some "string".toList ∧ mapped "U".toList = none ∧
        report.stdout =
          ({} : Style).moduleWith (fun type => (mapped type).getD "any".toList) c) ∧
      refused.exitCode = 2 ∧ refused.stderr =
        "declscan: error: Invalid --type mapping ' =x', expected SOURCE=TS\n".toList := by
  intro text tree c report refused
  have hreport : Invocation.ofArguments ["generate".toList, "a.rs".toList, "--type=T=a".toList,
      "--type= T = b=c ".toList, "--type=u64=bigint".toList, "--fallback-type=any".toList] =
        .ok ⟨false, .value "////".toList, .generate [.ofText "a.rs".toList] none
          [.value "T=a".toList, .value " T = b=c ".toList, .value "u64=bigint".toList]
          (.value "any".toList)⟩ := by cbv
  have hrefused : Invocation.ofArguments ["generate".toList, "a.rs".toList, "--type=T=a".toList,
      "--type= =x".toList, "--type=y".toList] =
        .ok ⟨false, .value "////".toList, .generate [.ofText "a.rs".toList] none
          [.value "T=a".toList, .value " =x".toList, .value "y".toList]
          (.value "unknown".toList)⟩ := by cbv
  have hcode : report.exitCode = 0 := by decide +kernel
  have hload : (Catalog.load .standard (.ofText "a.rs".toList)
      (tree.read (.ofText "a.rs".toList))).value = .ok c := by
    have hread : tree.read (.ofText "a.rs".toList) = .ok (Encoding.encode text) := by decide +kernel
    have htext : Catalog.ofText? .standard (Encoding.dropByteOrderMark text) = .ok c := by
      decide +kernel
    rw [hread, Catalog.load_encode, Catalog.value_ofFileText, htext]
    rfl
  have hfirst : MapsTo (.value "T=a".toList) "T".toList "a".toList :=
    .of_mappingOf? (by decide +kernel)
  have hsecond : MapsTo (.value " T = b=c ".toList) "T".toList "b=c".toList :=
    .of_mappingOf? (by decide +kernel)
  have hthird : MapsTo (.value "u64=bigint".toList) "u64".toList "bigint".toList :=
    .of_mappingOf? (by decide +kernel)
  have hblank : ∀ source target, ¬ MapsTo (.value " =x".toList) source target :=
    fun source target h => by
      have hnone : mappingOf? " =x".toList = none := by decide +kernel
      cases hnone.symm.trans (mappingOf?_eq_some_iff.mpr h)
  have hothers : ∀ source, source ≠ "T".toList → source ≠ "u64".toList → ∀ v ∈
      [Setting.value "T=a".toList, .value " T = b=c ".toList, .value "u64=bigint".toList],
        ∀ target, ¬ MapsTo v source target := fun source hT hu64 =>
    List.forall_mem_cons.mpr ⟨hfirst.not_of_ne hT.symm, List.forall_mem_cons.mpr
      ⟨hsecond.not_of_ne hT.symm, List.forall_mem_singleton.mpr (hthird.not_of_ne hu64.symm)⟩⟩
  obtain ⟨-, hwell, -⟩ := run_types tree hreport (m := Dialect.standard.marker) rfl
  obtain ⟨-, catalogs, mapped, target, hcatalogs, hlast, hnone, htarget, hput, -⟩ := hwell hcode
  obtain ⟨-, -, hmalformed, -⟩ :=
    run_types (.bare []) hrefused (m := Dialect.standard.marker) rfl
  obtain ⟨hrefusedCode, hstderr⟩ := hmalformed [.value "T=a".toList] " =x".toList
    [.value "y".toList] rfl (List.forall_mem_singleton.mpr ⟨_, _, hfirst⟩) hblank
  refine ⟨hcode, ⟨mapped, ?_, ?_, ?_, ?_, ?_⟩, hrefusedCode, ?_⟩
  · exact hlast _ _ ⟨[.value "T=a".toList], _, [.value "u64=bigint".toList], rfl, hsecond,
      List.forall_mem_singleton.mpr (hthird.not_of_ne (by decide))⟩
  · exact hlast _ _ ⟨[.value "T=a".toList, .value " T = b=c ".toList], _, [], rfl, hthird,
      List.forall_mem_nil _⟩
  · exact hnone _ (hothers _ (by decide) (by decide))
  · exact hnone _ (hothers _ (by decide) (by decide))
  · obtain ⟨c', rest, hc', hrest, rfl⟩ := List.forall₂_cons_left_iff.mp hcatalogs
    obtain rfl := List.forall₂_nil_left_iff.mp hrest
    obtain rfl : c' = c := Except.ok.inj (hc'.symm.trans hload)
    obtain ⟨-, hstdout⟩ | ⟨path, l, rfl, -⟩ := hput
    · rw [hstdout, List.flatten_singleton]
      rfl
    · cases htarget
  · exact hstderr.trans (by decide +kernel)

/-- A last mapping that is set to nothing is no mapping, and the run does not end as with one that
has no equals sign. -/
theorem run_last_mapping_set_to_nothing :
    Invocation.ofArguments ["generate".toList, "a.rs".toList, "--type=i32=number".toList,
        "--type=--".toList] = .ok ⟨false, .value "////".toList,
          .generate [.ofText "a.rs".toList] none [.value "i32=number".toList, .nothing]
            (.value "unknown".toList)⟩ ∧
      Marker.ofSetting? (.value "////".toList) = .ok Dialect.standard.marker ∧
      MapsTo (.value "i32=number".toList) "i32".toList "number".toList ∧
      (∀ source target, ¬ MapsTo .nothing source target) ∧
      (run ["generate".toList, "a.rs".toList, "--type=i32=number".toList, "--type=--".toList]
        .withEmptyFile).1.exitCode ≠ 2 :=
  ⟨by cbv, rfl, .of_mappingOf? (by decide +kernel), by rintro _ _ ⟨left, right, ⟨⟩, -⟩,
    by decide +kernel⟩

end ErrorCatalog
