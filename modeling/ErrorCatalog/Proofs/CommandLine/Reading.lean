import ErrorCatalog.CommandLine.Grammar
import ErrorCatalog.Proofs.Except
import Mathlib.Data.List.Forall2

/-!
# Proofs/CommandLine/Reading — items come from the words in their order

What a command line says is read off its words from left to right, so what is taken of its items one
after the other comes from the words in their order (`Grammar.Follows.read`).  This goes for the
operands (`Grammar.follows_texts`) and for what a switch is set to (`Grammar.follows_settingsOf`),
which is attached to the switch or is the word behind it.
-/

namespace ErrorCatalog

variable {κ : Type}

/-! ## Rows that come from texts -/

/-- **Each of a row comes from a text of its own**, and these stand in the same order. -/
def ComesFrom {α : Type} (R : α → Text → Prop) (xs : List α) (texts : List Text) : Prop :=
  List.SublistForall₂ R xs texts

namespace ComesFrom

variable {α : Type} {R : α → Text → Prop} {xs xs' : List α} {texts texts' : List Text}

theorem nil : ComesFrom R [] texts := List.SublistForall₂.nil

protected theorem refl (texts : List Text) : ComesFrom Eq texts texts :=
  List.sublistForall₂_iff.mpr ⟨texts, List.forall₂_refl texts, List.Sublist.refl texts⟩

theorem append (h : ComesFrom R xs texts) (h' : ComesFrom R xs' texts') :
    ComesFrom R (xs ++ xs') (texts ++ texts') := by
  obtain ⟨given, hgiven, htexts⟩ := List.sublistForall₂_iff.mp h
  obtain ⟨given', hgiven', htexts'⟩ := List.sublistForall₂_iff.mp h'
  exact List.sublistForall₂_iff.mpr
    ⟨given ++ given', List.rel_append hgiven hgiven', htexts.append htexts'⟩

theorem mono (h : ComesFrom R xs texts) (htexts : texts.Sublist texts') :
    ComesFrom R xs texts' := by
  obtain ⟨given, hgiven, hsub⟩ := List.sublistForall₂_iff.mp h
  exact List.sublistForall₂_iff.mpr ⟨given, hgiven, hsub.trans htexts⟩

theorem sublist {given : List Text} (h : ComesFrom Eq given texts) : given.Sublist texts := by
  obtain ⟨_, rfl, hsub⟩ := List.forall₂_eq_eq_eq ▸ List.sublistForall₂_iff.mp h
  exact hsub

end ComesFrom

/-! ## Words -/

/-- What is attached to the switch that a word is taken for ends the word. -/
def Word.Attaches (w : Word κ) : Prop :=
  ∀ s isShort t, w.meaning = .switch s isShort (some t) → t <:+ w.raw

theorem Word.Attaches.of_eq {w : Word κ} {s : Switch κ} {isShort : Bool} {attached : Option Text}
    (h : w.Attaches) (hw : w.meaning = .switch s isShort attached) :
    ∀ t, attached = some t → t <:+ w.raw := by
  rintro t rfl
  exact h s isShort t hw

section Words

variable {switches : List (Switch κ)} {s : Switch κ} {isShort : Bool} {t u : Text}

theorem isSuffix_of_cutAtEquals (h : (cutAtEquals t).2 = some u) : u <:+ t := by
  rw [cutAtEquals] at h
  split at h
  · cases h
  · next c value hvalue =>
    obtain rfl := Option.some.inj h
    exact (List.suffix_cons c value).trans (hvalue ▸ List.dropWhile_suffix _)

theorem isSuffix_of_mem_candidates {s' : Switch κ}
    (h : (s', .switch s isShort (some u)) ∈ candidates switches t) : u <:+ t := by
  rw [candidates.eq_def] at h
  split at h
  · obtain ⟨_, -, heq⟩ := List.mem_map.mp h
    obtain ⟨-, -, hvalue⟩ := Meaning.switch.inj (Prod.mk.inj heq).2
    exact isSuffix_of_cutAtEquals hvalue
  · obtain ⟨_, -, heq⟩ := List.mem_map.mp h
    obtain ⟨-, -, hvalue⟩ := Meaning.switch.inj (Prod.mk.inj heq).2
    obtain rfl := Option.some.inj hvalue
    exact (List.suffix_cons _ _).trans (List.suffix_cons _ _)
  · cases h

theorem isSuffix_of_guess (h : guess switches t = .ok (.switch s isShort (some u))) : u <:+ t := by
  rw [guess] at h
  split at h
  · split at h <;> cases h
  · next s' m hcandidates =>
    obtain rfl := Except.ok.inj h
    exact isSuffix_of_mem_candidates (hcandidates ▸ List.mem_singleton_self _)
  · cases h

theorem isSuffix_of_meaningOf (h : meaningOf switches t = .ok (.switch s isShort (some u))) :
    u <:+ t := by
  rw [meaningOf.eq_def] at h
  split at h
  · split at h
    · cases h
    · next head value hspelled hcut =>
      split at h
      · obtain ⟨-, -, hvalue⟩ := Meaning.switch.inj (Except.ok.inj h)
        exact isSuffix_of_cutAtEquals ((congrArg Prod.snd hcut).trans hvalue)
      · exact isSuffix_of_guess h
    · exact isSuffix_of_guess h
  · cases h

/-- The words of a command line are its arguments. -/
theorem raw_of_wordsOf {arguments : List Text} {words : List (Word κ)}
    (h : wordsOf switches arguments = .ok words) : words.map Word.raw = arguments := by
  induction arguments generalizing words with
  | nil =>
    obtain rfl := Except.ok.inj h
    rfl
  | cons t rest ih =>
    rw [wordsOf] at h
    split at h
    · obtain rfl := Except.ok.inj h
      simp [Function.comp_def]
    · obtain ⟨meaning, -, hrest⟩ := eq_ok_of_bind h
      obtain ⟨words', hwords, hcons⟩ := eq_ok_of_bind hrest
      obtain rfl := Except.ok.inj hcons
      rw [List.map_cons, ih hwords]

theorem attaches_of_wordsOf {arguments : List Text} {words : List (Word κ)}
    (h : wordsOf switches arguments = .ok words) : ∀ w ∈ words, w.Attaches := by
  induction arguments generalizing words with
  | nil =>
    obtain rfl := Except.ok.inj h
    exact List.forall_mem_nil _
  | cons t rest ih =>
    rw [wordsOf] at h
    split at h
    · obtain rfl := Except.ok.inj h
      refine List.forall_mem_cons.mpr ⟨nofun, fun w hw => ?_⟩
      obtain ⟨_, -, rfl⟩ := List.mem_map.mp hw
      exact nofun
    · obtain ⟨meaning, hmeaning, hrest⟩ := eq_ok_of_bind h
      obtain ⟨words', hwords, hcons⟩ := eq_ok_of_bind hrest
      obtain rfl := Except.ok.inj hcons
      refine List.forall_mem_cons.mpr ⟨fun s isShort u hu => ?_, ih hwords⟩
      exact isSuffix_of_meaningOf (hmeaning.trans (congrArg Except.ok hu))

end Words

/-! ## Items -/

/-- The words that an item is made of, apart from switches and what is left over. -/
def Item.texts : Item κ → List Text
  | .operand t => [t]
  | .command name arguments => name :: arguments
  | _ => []

/-- The words that operands and commands are made of. -/
def Reading.texts (r : Reading κ) : List Text := r.items.flatMap Item.texts

/-- What an item sets the switch of that key to. -/
def Item.settingsOf [DecidableEq κ] (key : κ) : Item κ → List (Setting Text)
  | .set key' v => if key' = key then [v] else []
  | _ => []

/-- **What the switch of that key is set to**, each time it is. -/
def Reading.settingsOf [DecidableEq κ] (key : κ) (r : Reading κ) : List (Setting Text) :=
  r.items.flatMap (Item.settingsOf key)

/-- A setting is given by an argument: the text that is set ends it, or is all of it. -/
def GivenBy (v : Setting Text) (argument : Text) : Prop :=
  ∃ t, t <:+ argument ∧ v = Grammar.settingOf t

theorem Reading.flatMap_prepend {α : Type} (f : Item κ → List α) (items : List (Item κ))
    (r : Reading κ) : (r.prepend items).items.flatMap f = items.flatMap f ++ r.items.flatMap f :=
  List.flatMap_append

namespace Grammar

variable {g : Grammar κ} {words : List (Word κ)}

/-- A switch says nothing about operands. -/
theorem texts_expand {s : Switch κ} {isShort used : Bool} {attached next : Option Text}
    {items : List (Item κ)} (h : g.expand s isShort attached next = .ok (items, used)) :
    items.flatMap Item.texts = [] := by
  fun_induction expand g s isShort attached next generalizing items used with
  | case1 | case3 | case4 =>
    obtain ⟨rfl, -⟩ := Prod.mk.inj (Except.ok.inj h)
    rfl
  | case2 | case5 | case6 => cases h
  | case7 s isShort hflag c rest s' hs' ih =>
    obtain ⟨more, hrest, hcons⟩ := eq_ok_of_bind h
    obtain ⟨rfl, -⟩ := Prod.mk.inj (Except.ok.inj hcons)
    change more.1.flatMap Item.texts = []
    exact ih hrest

theorem comesFrom_set [DecidableEq κ] {key key' : κ} {t argument : Text} (h : t <:+ argument) :
    ComesFrom GivenBy ([.set key' (settingOf t)].flatMap (Item.settingsOf key)) [argument] := by
  rw [List.flatMap_singleton, Item.settingsOf]
  split
  · exact List.SublistForall₂.cons ⟨t, h, rfl⟩ .nil
  · exact .nil

/-- **A switch is set to what is attached to it**, or else to the word that it uses up. -/
theorem settingsOf_expand [DecidableEq κ] {key : κ} {s : Switch κ} {isShort used : Bool}
    {attached next : Option Text} {items : List (Item κ)} {raw : Text}
    (hraw : ∀ t, attached = some t → t <:+ raw)
    (h : g.expand s isShort attached next = .ok (items, used)) :
    ComesFrom GivenBy (items.flatMap (Item.settingsOf key))
      (raw :: if used then next.toList else []) := by
  fun_induction expand g s isShort attached next generalizing items used with
  | case1 s isShort hvalue t hnext =>
    obtain ⟨rfl, rfl⟩ := Prod.mk.inj (Except.ok.inj h)
    subst hnext
    exact (comesFrom_set (List.suffix_refl t)).mono (List.sublist_cons_self raw [t])
  | case3 s isShort hvalue =>
    obtain ⟨rfl, rfl⟩ := Prod.mk.inj (Except.ok.inj h)
    exact .nil
  | case4 s isShort t hvalue =>
    obtain ⟨rfl, rfl⟩ := Prod.mk.inj (Except.ok.inj h)
    exact comesFrom_set (hraw t rfl)
  | case2 | case5 | case6 => cases h
  | case7 s isShort hflag c rest s' hs' ih =>
    obtain ⟨⟨more, used'⟩, hrest, hcons⟩ := eq_ok_of_bind h
    obtain ⟨rfl, rfl⟩ := Prod.mk.inj (Except.ok.inj hcons)
    change ComesFrom GivenBy (more.flatMap (Item.settingsOf key)) _
    refine ih (fun t ht => ?_) hrest
    rw [nonempty?] at ht
    split at ht
    · cases ht
    · obtain rfl := Option.some.inj ht
      exact (List.suffix_cons c rest).trans (hraw _ rfl)

/-! ### Words in order -/

theorem plainFirst?_sublist (w : Word κ) (words : List (Word κ)) :
    (plainFirst? (w :: words)).toList.Sublist [w.raw] := by
  rw [plainFirst?.eq_def]
  split
  · next heq =>
    obtain ⟨rfl, -⟩ := List.cons.inj heq
    exact List.Sublist.refl _
  · exact List.nil_sublist _

theorem plainFirst?_unused {used : Bool}
    (h : ∀ w words', words = w :: words' → used = true → False) :
    (if used then (plainFirst? words).toList else []) = [] := by
  cases words with
  | nil => exact ite_self _
  | cons w words' => exact if_neg (h w words' rfl)

/-- What `f` takes of an item comes from the words that the item is read from. -/
structure Follows {α : Type} (g : Grammar κ) (R : α → Text → Prop) (f : Item κ → List α) :
    Prop where
  expand : ∀ {s isShort attached next items used raw}, (∀ t, attached = some t → t <:+ raw) →
    g.expand s isShort attached next = .ok (items, used) →
      ComesFrom R (items.flatMap f) (raw :: if used then next.toList else [])
  operand : ∀ t, ComesFrom R (f (.operand t)) [t]
  extra : ∀ t, ComesFrom R (f (.extra t)) [t]
  command : ∀ name arguments, ComesFrom R (f (.command name arguments)) (name :: arguments)

/-- **Items keep the order of the words**: what is taken of one item after the other comes from the
words in their order. -/
theorem Follows.readFrom {α : Type} {R : α → Text → Prop} {f : Item κ → List α}
    (hf : g.Follows R f) (stage : Stage) (hwords : ∀ w ∈ words, w.Attaches) :
    ComesFrom R ((g.readFrom stage words).items.flatMap f) (words.map Word.raw) := by
  fun_induction Grammar.readFrom g stage words with
  | case1 => exact .nil
  | case8 raw =>
    rw [List.flatMap_singleton]
    exact hf.extra raw
  | case2 stage raw rest ih =>
    rw [Reading.flatMap_prepend, List.flatMap_singleton]
    exact (hf.extra raw).append (ih (List.forall_mem_cons.mp hwords).2)
  | case3 stage raw s isShort attached rest fault h =>
    simp only [h]
    exact .nil
  | case4 stage raw s isShort attached items head rest h ih =>
    simp only [h]
    rw [Reading.flatMap_prepend]
    obtain ⟨hattached, hrest⟩ := List.forall_mem_cons.mp hwords
    have hitems := (hf.expand (hattached.of_eq rfl) h).mono
      ((plainFirst?_sublist head rest).cons_cons raw)
    exact hitems.append (ih (List.forall_mem_cons.mp hrest).2)
  | case5 stage raw s isShort attached items used rest hused h ih =>
    simp only [h]
    rw [Reading.flatMap_prepend]
    obtain ⟨hattached, hrest⟩ := List.forall_mem_cons.mp hwords
    have hitems := hf.expand (hattached.of_eq rfl) h
    rw [plainFirst?_unused hused] at hitems
    exact hitems.append (ih hrest)
  | case6 raw rest hcommand =>
    rw [List.flatMap_singleton]
    exact hf.command raw _
  | case9 raw rest hrest hcommand =>
    rw [List.flatMap_singleton]
    exact hf.command raw _
  | case7 raw rest hcommand ih =>
    rw [Reading.flatMap_prepend, List.flatMap_singleton]
    exact (hf.operand raw).append (ih (List.forall_mem_cons.mp hwords).2)
  | case11 raw rest hrow ih =>
    rw [Reading.flatMap_prepend, List.flatMap_singleton]
    exact (hf.operand raw).append (ih (List.forall_mem_cons.mp hwords).2)
  | case10 raw rest hrest hcommand ih =>
    exact (ih (List.forall_mem_cons.mp hwords).2).mono (List.sublist_cons_self ..)
  | case13 raw rest ih =>
    exact (ih (List.forall_mem_cons.mp hwords).2).mono (List.sublist_cons_self ..)
  | case12 raw rest hrow ih =>
    rw [Reading.flatMap_prepend, List.flatMap_singleton]
    exact (hf.extra raw).append (ih (List.forall_mem_cons.mp hwords).2)
  | case14 raw rest ih =>
    rw [Reading.flatMap_prepend, List.flatMap_singleton]
    exact (hf.extra raw).append (ih (List.forall_mem_cons.mp hwords).2)
  | case15 raw rest ih =>
    rw [Reading.flatMap_prepend, List.flatMap_singleton]
    exact (hf.extra raw).append (ih (List.forall_mem_cons.mp hwords).2)

/-- A program that takes operands reads one at least, or has a fault. -/
theorem exists_operand_of_readFrom (hg : g.operands ≠ .command) {stage : Stage}
    (hstage : stage = .pending) (h : (g.readFrom stage words).fault = none) :
    ∃ t, Item.operand t ∈ (g.readFrom stage words).items := by
  fun_induction readFrom g stage words with
  | case1 =>
    rw [if_pos hstage] at h
    cases h
  | case2 stage raw rest ih =>
    subst hstage
    exact (ih rfl h).imp fun _ => List.mem_cons_of_mem _
  | case3 stage raw s isShort attached rest fault hexpand =>
    simp only [hexpand] at h
    cases h
  | case4 stage raw s isShort attached items head rest hexpand ih =>
    subst hstage
    simp only [hexpand] at h ⊢
    exact (ih rfl h).imp fun _ => List.mem_append_right _
  | case5 stage raw s isShort attached items used rest hused hexpand ih =>
    subst hstage
    simp only [hexpand] at h ⊢
    exact (ih rfl h).imp fun _ => List.mem_append_right _
  | case6 raw rest hcommand => exact absurd hcommand hg
  | case7 raw rest hcommand ih => exact ⟨raw, List.mem_cons_self ..⟩
  | case8 => cases h
  | case9 raw rest hrest hcommand => exact absurd hcommand hg
  | case10 raw rest hrest hcommand ih => exact ih rfl h
  | case11 | case12 | case13 | case14 | case15 => cases hstage

/-- **Operands keep the order of the words.** -/
theorem follows_texts (g : Grammar κ) : g.Follows Eq Item.texts where
  expand _ h := (texts_expand h).symm ▸ ComesFrom.nil
  operand t := .refl [t]
  extra _ := .nil
  command name arguments := .refl (name :: arguments)

/-- **Settings keep the order of the words.** -/
theorem follows_settingsOf [DecidableEq κ] (g : Grammar κ) (key : κ) :
    g.Follows GivenBy (Item.settingsOf key) where
  expand := settingsOf_expand
  operand _ := .nil
  extra _ := .nil
  command _ _ := .nil

theorem Follows.read {α : Type} {R : α → Text → Prop} {f : Item κ → List α}
    (hf : g.Follows R f) (arguments : List Text) :
    ComesFrom R ((g.read arguments).items.flatMap f) arguments := by
  rw [Grammar.read]
  split
  · exact .nil
  · next words hwords =>
    rw [← raw_of_wordsOf hwords]
    exact hf.readFrom _ (attaches_of_wordsOf hwords)

theorem texts_read (g : Grammar κ) (arguments : List Text) :
    (g.read arguments).texts.Sublist arguments :=
  (g.follows_texts.read arguments).sublist

theorem exists_operand_of_read {arguments : List Text} (hg : g.operands ≠ .command)
    (h : (g.read arguments).fault = none) : ∃ t, Item.operand t ∈ (g.read arguments).items := by
  rw [read] at h ⊢
  split at h
  · cases h
  · exact exists_operand_of_readFrom hg rfl h

end Grammar

end ErrorCatalog
