import ErrorCatalog.CommandLine.Run
import ErrorCatalog.Proofs.CommandLine.Order

/-!
# Proofs/CommandLine/Adding — what one more switch does to a command line

A switch in front of the arguments of a program says its own item, and behind it the others say what
they said (`Grammar.fold_read_append`).  So a `-v` in front of a command line changes nothing but
what is shown (`Invocation.ofArguments_verbose`), and a file to write right behind `generate` counts
unless another one is named later (`Invocation.ofArguments_output`).
-/

namespace ErrorCatalog

variable {κ σ : Type}

/-! ## Words -/

section Words

variable {switches : List (Switch κ)} {t : Text} {m : Meaning κ}

theorem wordsOf_cons (ht : t ≠ dividerText) (hm : meaningOf switches t = .ok m)
    (rest : List Text) :
    wordsOf switches (t :: rest) = (⟨t, m⟩ :: ·) <$> wordsOf switches rest := by
  rw [wordsOf, if_neg ht, hm]
  rfl

/-- A text without a dash in front is no switch. -/
theorem meaningOf_plain (ht : t.head? ≠ some '-') : meaningOf switches t = .ok .plain := by
  rw [meaningOf.eq_def]
  split
  · exact absurd rfl ht
  · rfl

theorem ne_dividerText (ht : t.head? ≠ some '-') : t ≠ dividerText := by
  rintro rfl
  exact ht rfl

/-- A text without a dash in front stays what it is behind `-o` as well. -/
theorem wordsOf_output {file : Text} (ho : meaningOf switches "-o".toList = .ok m)
    (hfile : file.head? ≠ some '-') (rest : List Text) :
    wordsOf switches (["-o".toList, file] ++ rest) =
      ([⟨"-o".toList, m⟩, ⟨file, .plain⟩] ++ ·) <$> wordsOf switches rest := by
  rw [List.cons_append, List.singleton_append, wordsOf_cons (by decide) ho,
    wordsOf_cons (ne_dividerText hfile) (meaningOf_plain hfile), Functor.map_map]
  rfl

theorem ne_divider_of_mem_candidates {s : Switch κ} (h : (s, m) ∈ candidates switches t) :
    m ≠ .divider := by
  rintro rfl
  rw [candidates.eq_def] at h
  split at h
  · obtain ⟨_, -, heq⟩ := List.mem_map.mp h
    cases heq
  · obtain ⟨_, -, heq⟩ := List.mem_map.mp h
    cases heq
  · cases h

theorem ne_divider_of_guess (h : guess switches t = .ok m) : m ≠ .divider := by
  rintro rfl
  rw [guess] at h
  split at h
  · split at h <;> cases h
  · next hcandidates =>
    obtain rfl := Except.ok.inj h
    exact ne_divider_of_mem_candidates (hcandidates ▸ List.mem_singleton_self _) rfl
  · cases h

theorem ne_divider_of_meaningOf (h : meaningOf switches t = .ok m) : m ≠ .divider := by
  rintro rfl
  rw [meaningOf.eq_def] at h
  split at h
  · split at h
    · cases h
    · split at h
      · cases h
      · exact ne_divider_of_guess h rfl
    · exact ne_divider_of_guess h rfl
  · cases h

/-- One text alone divides. -/
theorem raw_of_divider {arguments : List Text} {words : List (Word κ)}
    (h : wordsOf switches arguments = .ok words) :
    ∀ w ∈ words, w.meaning = .divider → w.raw = dividerText := by
  induction arguments generalizing words with
  | nil =>
    obtain rfl := Except.ok.inj h
    exact List.forall_mem_nil _
  | cons t rest ih =>
    rw [wordsOf] at h
    split at h
    · next ht =>
      obtain rfl := Except.ok.inj h
      refine List.forall_mem_cons.mpr ⟨fun _ => ht, fun w hw => ?_⟩
      obtain ⟨_, -, rfl⟩ := List.mem_map.mp hw
      rintro ⟨⟩
    · obtain ⟨meaning, hmeaning, hrest⟩ := eq_ok_of_bind h
      obtain ⟨words', hwords, hcons⟩ := eq_ok_of_bind hrest
      obtain rfl := Except.ok.inj hcons
      exact List.forall_mem_cons.mpr
        ⟨fun hw => absurd hw (ne_divider_of_meaningOf hmeaning), ih hwords⟩

/-- **Words put in before any divider** leave the others as they were. -/
theorem wordsOf_insert {front more rest : List Text} {before added words : List (Word κ)}
    (hadded : wordsOf switches (more ++ rest) = (added ++ ·) <$> wordsOf switches rest)
    (hfront : before.map Word.raw = front) (hdivider : ∀ w ∈ before, w.meaning ≠ .divider)
    (h : wordsOf switches (front ++ rest) = .ok (before ++ words)) :
    wordsOf switches (front ++ (more ++ rest)) = .ok (before ++ (added ++ words)) := by
  subst hfront
  induction before with
  | nil =>
    change wordsOf switches rest = .ok words at h
    change wordsOf switches (more ++ rest) = _
    rw [hadded, h]
    rfl
  | cons w before ih =>
    obtain ⟨hw, hbefore⟩ := List.forall_mem_cons.mp hdivider
    obtain ⟨t, m⟩ := w
    rw [List.map_cons, List.cons_append, wordsOf] at h ⊢
    split at h
    · obtain ⟨hcons, -⟩ := List.cons.inj (Except.ok.inj h)
      exact absurd (congrArg Word.meaning hcons).symm hw
    · next ht =>
      obtain ⟨meaning, hmeaning, hrest⟩ := eq_ok_of_bind h
      obtain ⟨words', hwords, hcons⟩ := eq_ok_of_bind hrest
      obtain ⟨hword, rfl⟩ := List.cons.inj (Except.ok.inj hcons)
      obtain rfl : meaning = m := congrArg Word.meaning hword
      rw [if_neg ht, hmeaning, ih hbefore hwords]
      rfl

end Words

/-! ## Items -/

namespace Reading

variable {r : Reading κ} {τ : Type} {program : Text} {step : σ → Item κ → Except Stop σ}
  {step' : τ → Item κ → Except Stop τ} {s s' : σ}

/-- **What every item goes along with, all of them do**, also if they stop. -/
theorem fold_map {f : σ → τ} (hf : ∀ s item, step' (f s) item = (step s item).map f)
    (r : Reading κ) (program : Text) (s : σ) :
    r.fold program step' (f s) = (r.fold program step s).map f := by
  obtain ⟨items, fault⟩ := r
  induction items generalizing s with
  | nil => cases fault <;> rfl
  | cons item items ih =>
    rw [fold, fold, List.foldlM_cons, List.foldlM_cons, hf]
    cases hitem : step s item with
    | error stop => rfl
    | ok s₁ => exact ih s₁

theorem fold_prepend {items : List (Item κ)} (h : items.foldlM step s = .ok s') :
    (r.prepend items).fold program step s = r.fold program step s' := by
  rw [fold, fold, prepend, List.foldlM_append, h]
  rfl

theorem fold_concat {items : List (Item κ)} {item : Item κ} :
    fold ⟨items ++ [item], none⟩ program step s = items.foldlM step s >>= (step · item) := by
  rw [fold, List.foldlM_append]
  cases items.foldlM step s with
  | error stop => rfl
  | ok s₁ =>
    change (([item].foldlM step s₁) >>= _) = step s₁ item
    rw [List.foldlM_cons]
    cases step s₁ item <;> rfl

end Reading

namespace Grammar

variable {g : Grammar κ} {words : List (Word κ)} {items : List (Item κ)} {s : Switch κ}
  {isShort : Bool} {attached next : Option Text} {stage : Stage} {raw name : Text}

/-- **Arguments in front** say their items, and those behind say what they said. -/
theorem fold_read_append {front arguments : List Text} {program : Text}
    {step : σ → Item κ → Except Stop σ} {s s' : σ}
    (hwords : wordsOf g.switches (front ++ arguments) =
      (words ++ ·) <$> wordsOf g.switches arguments)
    (hread : ∀ rest, g.readFrom .pending (words ++ rest) = (g.readFrom .pending rest).prepend items)
    (hitems : items.foldlM step s = .ok s') :
    (g.read (front ++ arguments)).fold program step s =
      (g.read arguments).fold program step s' := by
  rw [read, read, hwords]
  cases wordsOf g.switches arguments with
  | error fault => rfl
  | ok rest =>
    exact (congrArg (·.fold program step s) (hread rest)).trans (Reading.fold_prepend hitems)

/-! ### Commands -/

theorem ne_none_of_expand (h : g.expand s isShort attached next = .ok (items, true)) :
    next ≠ none := by
  fun_induction expand g s isShort attached next generalizing items with
  | case1 s isShort hvalue t hnext =>
    subst hnext
    exact Option.some_ne_none t
  | case2 | case3 | case4 | case5 | case6 => cases h
  | case7 s isShort hflag c rest s' hs' ih =>
    obtain ⟨⟨more, used⟩, hrest, hcons⟩ := eq_ok_of_bind h
    obtain ⟨rfl, rfl⟩ := Prod.mk.inj (Except.ok.inj hcons)
    exact ih hrest

theorem command_not_mem_expand {used : Bool} {own : List Text}
    (h : g.expand s isShort attached next = .ok (items, used)) : .command name own ∉ items :=
  fun hmem =>
    List.not_mem_nil (texts_expand h ▸ List.mem_flatMap_of_mem hmem (List.mem_cons_self ..))

theorem plainFirst?_congr (w : Word κ) (rest rest' : List (Word κ)) :
    plainFirst? (w :: rest) = plainFirst? (w :: rest') := by
  obtain ⟨t, m⟩ := w
  cases m <;> rfl

theorem plainFirst?_append_congr (before : List (Word κ)) (w : Word κ)
    (rest rest' : List (Word κ)) :
    plainFirst? (before ++ w :: rest) = plainFirst? (before ++ w :: rest') := by
  cases before with
  | nil => exact plainFirst?_congr w rest rest'
  | cons w' before => exact plainFirst?_congr w' _ _

theorem meaning_of_plainFirst? {w : Word κ} (h : plainFirst? (w :: words) ≠ none) :
    w.meaning = .plain := by
  obtain ⟨t, m⟩ := w
  cases m with
  | plain => rfl
  | _ => exact absurd rfl h

theorem readFrom_of_used {w : Word κ}
    (h : g.expand s isShort attached (plainFirst? (w :: words)) = .ok (items, true)) :
    g.readFrom stage (⟨raw, .switch s isShort attached⟩ :: w :: words) =
      (g.readFrom stage.afterSwitch words).prepend items := by
  rw [readFrom.eq_def]
  dsimp only
  rw [h]

theorem readFrom_of_unused
    (h : g.expand s isShort attached (plainFirst? words) = .ok (items, false)) :
    g.readFrom stage (⟨raw, .switch s isShort attached⟩ :: words) =
      (g.readFrom stage.afterSwitch words).prepend items := by
  rw [readFrom.eq_def]
  dsimp only
  rw [h]

/-- **A command is called by a plain word**, and whatever comes behind that belongs to it. -/
theorem exists_of_command_mem (hg : g.operands = .command) {own : List Text}
    (hstage : stage = .pending) (hname : ∀ w ∈ words, w.meaning = .divider → w.raw ≠ name)
    (h : .command name own ∈ (g.readFrom stage words).items) :
    ∃ before after items, words = before ++ ⟨name, .plain⟩ :: after ∧ after.map Word.raw = own ∧
      (∀ w ∈ before, w.meaning ≠ .divider) ∧
      ∀ after', g.readFrom .pending (before ++ ⟨name, .plain⟩ :: after') =
        ⟨items ++ [.command name (after'.map Word.raw)], none⟩ := by
  fun_induction readFrom g stage words with
  | case1 => cases h
  | case2 stage raw rest ih =>
    subst hstage
    obtain h | h := List.mem_append.mp h
    · cases List.mem_singleton.mp h
    obtain ⟨before, after, items, rfl, hown, hbefore, hread⟩ :=
      ih rfl (List.forall_mem_cons.mp hname).2 h
    refine ⟨⟨raw, .unknown⟩ :: before, after, .extra raw :: items, rfl, hown,
      List.forall_mem_cons.mpr ⟨by rintro ⟨⟩, hbefore⟩, fun after' => ?_⟩
    rw [List.cons_append, readFrom, Stage.afterSwitch, hread]
    rfl
  | case3 stage raw s isShort attached rest fault hexpand =>
    simp only [hexpand] at h
    cases h
  | case4 stage raw s isShort attached items head rest hexpand ih =>
    subst hstage
    simp only [hexpand] at h
    have h := (List.mem_append.mp h).resolve_left (command_not_mem_expand hexpand)
    obtain ⟨before, after, items', rfl, hown, hbefore, hread⟩ :=
      ih rfl (List.forall_mem_cons.mp (List.forall_mem_cons.mp hname).2).2 h
    -- The word that a switch uses up is a plain one, so it does not divide.
    have hhead : head.meaning = .plain := meaning_of_plainFirst? (ne_none_of_expand hexpand)
    have hbefore' : ∀ w ∈ head :: before, w.meaning ≠ .divider :=
      List.forall_mem_cons.mpr ⟨by simp [hhead], hbefore⟩
    refine ⟨⟨raw, .switch s isShort attached⟩ :: head :: before, after, items ++ items', rfl, hown,
      List.forall_mem_cons.mpr ⟨by rintro ⟨⟩, hbefore'⟩, fun after' => ?_⟩
    rw [plainFirst?_congr] at hexpand
    rw [List.cons_append, List.cons_append, readFrom_of_used hexpand, Stage.afterSwitch, hread,
      Reading.prepend, List.append_assoc]
  | case5 stage raw s isShort attached items used rest hused hexpand ih =>
    subst hstage
    simp only [hexpand] at h
    have h := (List.mem_append.mp h).resolve_left (command_not_mem_expand hexpand)
    obtain ⟨before, after, items', rfl, hown, hbefore, hread⟩ :=
      ih rfl (List.forall_mem_cons.mp hname).2 h
    refine ⟨⟨raw, .switch s isShort attached⟩ :: before, after, items ++ items', rfl, hown,
      List.forall_mem_cons.mpr ⟨by rintro ⟨⟩, hbefore⟩, fun after' => ?_⟩
    obtain rfl : used = false := by
      cases before with
      | nil => exact Bool.eq_false_iff.mpr (hused _ _ rfl)
      | cons w before => exact Bool.eq_false_iff.mpr (hused _ _ rfl)
    -- A switch looks at the first word behind it only, and that stays where it is.
    rw [plainFirst?_append_congr before _ after after'] at hexpand
    rw [List.cons_append, readFrom_of_unused hexpand, Stage.afterSwitch, hread,
      Reading.prepend, List.append_assoc]
  | case6 raw rest hcommand =>
    obtain ⟨rfl, rfl⟩ := Item.command.inj (List.mem_singleton.mp h)
    refine ⟨[], rest, [], rfl, rfl, List.forall_mem_nil _, fun after' => ?_⟩
    rw [List.nil_append, readFrom, hcommand]
    rfl
  | case9 raw rest hrest hcommand =>
    obtain ⟨rfl, -⟩ := Item.command.inj (List.mem_singleton.mp h)
    exact absurd rfl ((List.forall_mem_cons.mp hname).1 rfl)
  | case7 raw rest hcommand ih => exact absurd hg hcommand
  | case8 => cases List.mem_singleton.mp h
  | case10 raw rest hrest hcommand ih => exact absurd hg hcommand
  | case11 | case12 | case13 | case14 | case15 => cases hstage

theorem exists_words_of_command_mem (hg : g.operands = .command) {arguments own : List Text}
    (hname : name ≠ dividerText) (h : .command name own ∈ (g.read arguments).items) :
    ∃ before after items, wordsOf g.switches arguments = .ok (before ++ ⟨name, .plain⟩ :: after) ∧
      after.map Word.raw = own ∧ (∀ w ∈ before, w.meaning ≠ .divider) ∧
      ∀ after', g.readFrom .pending (before ++ ⟨name, .plain⟩ :: after') =
        ⟨items ++ [.command name (after'.map Word.raw)], none⟩ := by
  rw [read] at h
  split at h
  · cases h
  · next words hwords =>
    obtain ⟨before, after, items, rfl, hrest⟩ := exists_of_command_mem hg rfl
      (fun w hw hdivider => raw_of_divider hwords w hw hdivider ▸ hname.symm) h
    exact ⟨before, after, items, hwords, hrest⟩

/-- The word that calls a command is one of the arguments, and those behind it are the command's. -/
theorem exists_of_command_mem_read (hg : g.operands = .command) {arguments own : List Text}
    (hname : name ≠ dividerText) (h : .command name own ∈ (g.read arguments).items) :
    ∃ before, arguments = before ++ name :: own := by
  obtain ⟨before, after, -, hwords, rfl, -⟩ := exists_words_of_command_mem hg hname h
  refine ⟨before.map Word.raw, ?_⟩
  rw [← raw_of_wordsOf hwords, List.map_append, List.map_cons]

/-- **Arguments put in behind the name of a command** come first among its own arguments, and
nothing else is read in another way. -/
theorem read_insert (hg : g.operands = .command) {before more own : List Text}
    (hname : name ≠ dividerText) {added : List (Word κ)}
    (hadded : wordsOf g.switches (more ++ own) = (added ++ ·) <$> wordsOf g.switches own)
    (hmore : added.map Word.raw = more)
    (h : .command name own ∈ (g.read (before ++ name :: own)).items) :
    ∃ items, g.read (before ++ name :: own) = ⟨items ++ [.command name own], none⟩ ∧
      g.read (before ++ name :: (more ++ own)) =
        ⟨items ++ [.command name (more ++ own)], none⟩ := by
  obtain ⟨front, after, items, hwords, rfl, hfront, hread⟩ := exists_words_of_command_mem hg hname h
  have hraw := raw_of_wordsOf hwords
  rw [List.map_append, List.map_cons] at hraw
  obtain rfl := List.append_cancel_right hraw
  have hdivider : ∀ w ∈ front ++ [⟨name, .plain⟩], w.meaning ≠ .divider := by
    intro w hw
    obtain hw | hw := List.mem_append.mp hw
    · exact hfront w hw
    · rw [List.mem_singleton.mp hw]
      rintro ⟨⟩
  have hinsert : wordsOf g.switches
      (front.map Word.raw ++ [name] ++ (more ++ after.map Word.raw)) = _ :=
    wordsOf_insert hadded (by simp) hdivider (by simpa using hwords)
  simp only [List.append_assoc, List.singleton_append] at hinsert
  refine ⟨items, ?_, ?_⟩
  · rw [read, hwords]
    exact hread after
  · rw [read, hinsert]
    dsimp only
    rw [hread, List.map_append, hmore]

end Grammar

/-! ## A file to write -/

section Output

variable {file : Text} {own : List Text}

/-- The command renders a module. -/
def Command.IsGenerate : Command → Prop
  | .generate _ _ _ _ => True
  | .dump _ _ => False

/-- The command names no file to write. -/
def Command.NamesNoOutput : Command → Prop
  | .generate _ output _ _ => output = none
  | .dump _ _ => True

/-- The command with a file to write, unless it names one itself. -/
def Command.withOutput (path : Path) : Command → Command
  | .generate inputs output types fallback =>
      .generate inputs (output.or (some (.value path))) types fallback
  | .dump input indent => .dump input indent

/-- The request with a file to write, unless it names one itself. -/
def GenerateRequest.withOutput (path : Path) (r : GenerateRequest) : GenerateRequest :=
  { r with output := r.output.or (some (.value path)) }

/-- An item says the same where a file to write was named. -/
theorem GenerateRequest.withOutput_add (path : Path) (r : GenerateRequest)
    (item : Item GenerateKey) :
    (r.withOutput path).add item = (r.add item).map (withOutput path) := by
  cases item with
  | flag key => cases key <;> rfl
  | set key v => cases key <;> rfl
  | operand | command | extra => rfl

/-- The request as a command, with what it leaves over. -/
def GenerateRequest.command (r : GenerateRequest) : Command × List Text :=
  (.generate r.inputs r.output r.types r.fallback, r.extras)

theorem generateOf_eq (arguments : List Text) : generateOf arguments =
    ((generateGrammar.read arguments).fold generateGrammar.program GenerateRequest.add {}).map
      GenerateRequest.command := by
  rw [generateOf]
  cases (generateGrammar.read arguments).fold generateGrammar.program GenerateRequest.add {} <;> rfl

theorem isGenerate_of_generateOf {command : Command} {extras : List Text}
    (h : generateOf own = .ok (command, extras)) : command.IsGenerate := by
  rw [generateOf_eq] at h
  cases hread : (generateGrammar.read own).fold generateGrammar.program GenerateRequest.add {} with
  | error stop =>
    rw [hread] at h
    cases h
  | ok r =>
    rw [hread] at h
    obtain ⟨rfl, -⟩ := Prod.mk.inj (Except.ok.inj h)
    trivial

/-- The switch that names the file to write. -/
def outputSwitch : Switch GenerateKey := ⟨.output, some 'o', "--output".toList, true⟩

theorem readFrom_output (hfile : file.head? ≠ some '-') (rest : List (Word GenerateKey)) :
    generateGrammar.readFrom .pending
        (⟨"-o".toList, .switch outputSwitch true none⟩ :: ⟨file, .plain⟩ :: rest) =
      (generateGrammar.readFrom .pending rest).prepend [.set .output (.value file)] := by
  refine Grammar.readFrom_of_used ?_
  have hset : Grammar.settingOf file = .value file := if_neg (ne_dividerText hfile)
  rw [Grammar.expand.eq_def, ← hset]
  rfl

/-- **A file to write in front of the arguments of `generate`** is written, unless these name one.
-/
theorem generateOf_output (hfile : file.head? ≠ some '-') (own : List Text) :
    generateOf ("-o".toList :: file :: own) =
      (generateOf own).map fun made => (made.1.withOutput (.ofText file), made.2) := by
  have hfold : (generateGrammar.read ("-o".toList :: file :: own)).fold generateGrammar.program
      GenerateRequest.add {} = (generateGrammar.read own).fold generateGrammar.program
        GenerateRequest.add (GenerateRequest.withOutput (.ofText file) {}) :=
    Grammar.fold_read_append (wordsOf_output rfl hfile own) (readFrom_output hfile) rfl
  rw [generateOf_eq, generateOf_eq, hfold,
    Reading.fold_map (GenerateRequest.withOutput_add (.ofText file))]
  cases (generateGrammar.read own).fold generateGrammar.program GenerateRequest.add {} <;> rfl

end Output

/-! ## Invocations -/

namespace Request

/-- What is asked for in the end. -/
def invocation (r : Request) : Except Stop Invocation :=
  match r.command, r.extras with
  | none, _ => throw (.usage mainGrammar.program (.missing mainGrammar.operandName))
  | some _, extra :: extras =>
      throw (.usage mainGrammar.program (.unrecognized (extra :: extras)))
  | some command, [] => return ⟨r.verbose, r.marker, command⟩

theorem command_of_invocation {r : Request} {i : Invocation} (h : r.invocation = .ok i) :
    r.command = some i.command := by
  rw [invocation] at h
  split at h
  · cases h
  · cases h
  · next hcommand _ =>
    obtain rfl := Except.ok.inj h
    exact hcommand

/-- The request that everything be shown. -/
def shown (r : Request) : Request := { r with verbose := true }

/-- The request whose command has a file to write, unless it names one itself. -/
def withOutput (path : Path) (r : Request) : Request :=
  { r with command := r.command.map (.withOutput path) }

/-- The command said so far is called by an item. -/
def CalledIn (items : List (Item MainKey)) (r : Request) : Prop :=
  ∀ command, r.command = some command → ∃ name own extras,
    .command name own ∈ items ∧ commandOf name own = .ok (command, extras)

theorem CalledIn.add {items : List (Item MainKey)} {item : Item MainKey} {r r' : Request}
    (hr : r.CalledIn items) (h : r.add item = .ok r') : r'.CalledIn (items ++ [item]) := by
  intro command hcommand
  obtain ⟨name, own, extras, command', rfl, hname, hr'⟩ | hr' := command_add h
  · obtain rfl := Option.some.inj (hr'.symm.trans hcommand)
    exact ⟨name, own, extras, List.mem_concat_self, hname⟩
  · obtain ⟨name, own, extras, hmem, hname⟩ := hr command (hr' ▸ hcommand)
    exact ⟨name, own, extras, List.mem_append_left _ hmem, hname⟩

/-- An item says the same where everything is shown. -/
theorem shown_add (r : Request) (item : Item MainKey) :
    r.shown.add item = (r.add item).map shown := by
  cases item with
  | flag key => cases key <;> rfl
  | set key v => cases key <;> rfl
  | operand | extra => rfl
  | command name own =>
    rw [add, add]
    cases commandOf name own <;> rfl

theorem add_output {file : Text} (hfile : file.head? ≠ some '-') (own : List Text) (r : Request) :
    r.add (.command "generate".toList ("-o".toList :: file :: own)) =
      (r.add (.command "generate".toList own)).map (withOutput (.ofText file)) := by
  rw [add, add, commandOf, commandOf, if_pos rfl, if_pos rfl, generateOf_output hfile]
  cases generateOf own <;> rfl

end Request

namespace Invocation

variable {arguments before own : List Text} {file : Text}

/-- The invocation that shows everything. -/
def shown (i : Invocation) : Invocation := { i with verbose := true }

/-- The invocation with a file to write, unless its command names one. -/
def withOutput (path : Path) (i : Invocation) : Invocation :=
  { i with command := i.command.withOutput path }

theorem ofArguments_eq (arguments : List Text) : ofArguments arguments =
    (mainGrammar.read arguments).fold mainGrammar.program Request.add {} >>=
      Request.invocation := rfl

theorem invocation_shown (r : Request) : r.shown.invocation = r.invocation.map shown := by
  obtain ⟨verbose, marker, _ | command, _ | _⟩ := r <;> rfl

theorem invocation_withOutput (path : Path) (r : Request) :
    (r.withOutput path).invocation = r.invocation.map (withOutput path) := by
  obtain ⟨verbose, marker, _ | command, _ | _⟩ := r <;> rfl

/-- The switch that shows everything. -/
def verboseSwitch : Switch MainKey := ⟨.verbose, some 'v', "--verbose".toList, false⟩

theorem readFrom_verbose (rest : List (Word MainKey)) :
    mainGrammar.readFrom .pending (⟨"-v".toList, .switch verboseSwitch true none⟩ :: rest) =
      (mainGrammar.readFrom .pending rest).prepend [.flag .verbose] := by
  refine Grammar.readFrom_of_unused ?_
  rw [Grammar.expand.eq_def]
  rfl

/-- **A `-v` in front** asks for the same, and for everything to be shown. -/
theorem ofArguments_verbose (arguments : List Text) :
    ofArguments ("-v".toList :: arguments) = (ofArguments arguments).map shown := by
  have hwords : wordsOf mainGrammar.switches (["-v".toList] ++ arguments) =
      ([⟨"-v".toList, .switch verboseSwitch true none⟩] ++ ·) <$>
        wordsOf mainGrammar.switches arguments := wordsOf_cons (by decide) rfl arguments
  have hfold : (mainGrammar.read ("-v".toList :: arguments)).fold mainGrammar.program
      Request.add {} =
        (mainGrammar.read arguments).fold mainGrammar.program Request.add (Request.shown {}) :=
    Grammar.fold_read_append hwords readFrom_verbose rfl
  rw [ofArguments_eq, ofArguments_eq, hfold, Reading.fold_map Request.shown_add]
  cases (mainGrammar.read arguments).fold mainGrammar.program Request.add {} with
  | error stop => rfl
  | ok r => exact invocation_shown r

theorem name_of_commandOf {name : Text} {command : Command} {extras : List Text}
    (h : commandOf name own = .ok (command, extras)) (hcommand : command.IsGenerate) :
    name = "generate".toList := by
  rw [commandOf] at h
  split at h
  · assumption
  · split at h
    · obtain ⟨r, -, hr⟩ := eq_ok_of_bind h
      obtain ⟨rfl, -⟩ := Prod.mk.inj (Except.ok.inj hr)
      exact hcommand.elim
    · cases h

/-- The arguments `before` are followed by a call of `generate`, with the arguments `own`. -/
def CallsGenerate (before own : List Text) : Prop :=
  .command "generate".toList own ∈ (mainGrammar.read (before ++ "generate".toList :: own)).items

/-- **A `generate` is called by its name**, and what stands behind that belongs to it. -/
theorem exists_callsGenerate {i : Invocation} (h : ofArguments arguments = .ok i)
    (hi : i.command.IsGenerate) :
    ∃ before own, arguments = before ++ "generate".toList :: own ∧ CallsGenerate before own := by
  obtain ⟨r, hread, hr⟩ := eq_ok_of_bind h
  have hstart : Request.CalledIn [] {} := by
    rintro command ⟨⟩
  obtain ⟨hcalled, -⟩ := Reading.of_fold hstart (fun _ _ _ _ => .add) hread
  obtain ⟨name, own, extras, hmem, hname⟩ := hcalled _ (Request.command_of_invocation hr)
  obtain rfl := name_of_commandOf hname hi
  obtain ⟨before, rfl⟩ := Grammar.exists_of_command_mem_read rfl (by decide) hmem
  exact ⟨before, own, rfl, hmem⟩

/-- Where `generate` is called, a module is asked for. -/
theorem CallsGenerate.isGenerate {i : Invocation} (hcalled : CallsGenerate before own)
    (h : ofArguments (before ++ "generate".toList :: own) = .ok i) : i.command.IsGenerate := by
  have hnone : wordsOf mainGrammar.switches ([] ++ own) =
      (([] : List (Word MainKey)) ++ ·) <$> wordsOf mainGrammar.switches own := (id_map _).symm
  obtain ⟨items, hread, -⟩ :=
    Grammar.read_insert (g := mainGrammar) rfl (by decide) hnone rfl hcalled
  rw [ofArguments_eq, hread, Reading.fold_concat] at h
  obtain ⟨r, hr, hinvocation⟩ := eq_ok_of_bind h
  obtain ⟨r₀, -, hadd⟩ := eq_ok_of_bind hr
  obtain ⟨⟨command, extras⟩, hcommand, hmake⟩ := eq_ok_of_bind hadd
  obtain rfl := Except.ok.inj hmake
  obtain rfl : command = i.command := Option.some.inj (Request.command_of_invocation hinvocation)
  exact isGenerate_of_generateOf hcommand

/-- **A file to write right behind `generate`** is written, unless the arguments behind it name one;
what they ask for besides, or stop at, is the same. -/
theorem ofArguments_output (hfile : file.head? ≠ some '-') (h : CallsGenerate before own) :
    ofArguments (before ++ "generate".toList :: "-o".toList :: file :: own) =
      (ofArguments (before ++ "generate".toList :: own)).map (withOutput (.ofText file)) := by
  obtain ⟨items, hplain, houtput⟩ :=
    Grammar.read_insert (g := mainGrammar) rfl (by decide) (wordsOf_output rfl hfile own) rfl h
  rw [List.cons_append, List.singleton_append] at houtput
  rw [ofArguments_eq, ofArguments_eq, hplain, houtput, Reading.fold_concat, Reading.fold_concat]
  cases items.foldlM Request.add {} with
  | error stop => rfl
  | ok r =>
    change (r.add (.command "generate".toList ("-o".toList :: file :: own)) >>= _) =
      (r.add (.command "generate".toList own) >>= _).map _
    rw [Request.add_output hfile]
    cases r.add (.command "generate".toList own) with
    | error stop => rfl
    | ok r' => exact invocation_withOutput _ r'

end Invocation

end ErrorCatalog
