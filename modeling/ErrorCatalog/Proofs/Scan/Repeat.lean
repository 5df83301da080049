import ErrorCatalog.Proofs.Scan.Onward

/-!
# Proofs/Scan/Repeat — loops as items read one after another

`Repeats item P t xs r` says that from `t` on the items `xs` are read one after another, with `P`
false before each, and `r` is left.  Every loop reads some such row and then stops because `P`
holds or because an item fails (`exists_repeats`); `harvest_eq` is the law that takes the row off a
harvest, and what a loop reads and where it fails follow from it.
-/

namespace ErrorCatalog

namespace Harvest

variable {α : Type}

/-- The harvest with more items in front. -/
def prepend (xs : List α) (h : Harvest α) : Harvest α := { h with items := xs ++ h.items }

@[simp] theorem items_prepend (xs : List α) (h : Harvest α) :
    (h.prepend xs).items = xs ++ h.items := rfl

theorem cons_prepend (x : α) (xs : List α) (h : Harvest α) :
    (h.prepend xs).cons x = h.prepend (x :: xs) := rfl

end Harvest

namespace Scan

variable {α : Type}

/-- **Items in a row**: `item` reads `xs` one after another, none of them where `P` holds. -/
inductive Repeats (item : Scan α) (P : Text → Prop) : Text → List α → Text → Prop
  | nil (t : Text) : Repeats item P t [] t
  | cons {t s r : Text} {x : α} {xs : List α} (hP : ¬ P t) (head : item.Reads t x s)
      (tail : Repeats item P s xs r) : Repeats item P t (x :: xs) r

/-- The stopping condition `stop` looks at what lies ahead only, and holds where `P` does. -/
def Sees (stop : Cursor → Bool) (P : Text → Prop) : Prop := ∀ b t, stop ⟨b, t⟩ = true ↔ P t

theorem sees_peek (close : Char) :
    Sees (fun c => c.peek = some close) fun t => t.head? = some close :=
  fun _ _ => decide_eq_true_iff

theorem sees_atEnd : Sees Cursor.atEnd fun t => t = [] := fun _ _ => List.isEmpty_iff

variable {item : Scan α} {stop : Cursor → Bool} {P : Text → Prop} {h : item.Progresses stop}
  {t u s r : Text} {x : α} {xs ys : List α} {k : DiagnosticKind}

namespace Repeats

theorem exists_eq_append (hr : Repeats item P t xs r) : ∃ w, t = w ++ r := by
  induction hr with
  | nil t => exact ⟨[], rfl⟩
  | cons hP head tail ih =>
    obtain ⟨v, rfl⟩ := head.exists_eq_append
    obtain ⟨w, rfl⟩ := ih
    exact ⟨v ++ w, (List.append_assoc ..).symm⟩

theorem append (hx : Repeats item P t xs s) (hy : Repeats item P s ys r) :
    Repeats item P t (xs ++ ys) r := by
  induction hx with
  | nil t => exact hy
  | cons hP head tail ih => exact .cons hP head (ih hy)

end Repeats

/-! ## The harvest of a loop -/

theorem harvest_of_stop {c : Cursor} (hc : stop c = true) :
    harvest item stop h c = ⟨[], none, c⟩ := by
  rw [harvest, dif_pos hc]

theorem harvest_of_ok {c c' : Cursor} (hc : ¬ stop c = true) (hr : item.run c = .ok x c') :
    harvest item stop h c = (harvest item stop h c').cons x := by
  rw [harvest, dif_neg hc]
  split
  · next hi =>
    obtain ⟨rfl, rfl⟩ := Outcome.ok.inj (hr.symm.trans hi)
    rfl
  · next hi =>
    rw [hr] at hi
    contradiction

theorem harvest_of_error {c c' : Cursor} {e : ScanError} (hc : ¬ stop c = true)
    (hr : item.run c = .error e c') : harvest item stop h c = ⟨[], some e, c'⟩ := by
  rw [harvest, dif_neg hc]
  split
  · next hi =>
    rw [hr] at hi
    contradiction
  · next hi =>
    obtain ⟨rfl, rfl⟩ := Outcome.error.inj (hr.symm.trans hi)
    rfl

/-- **A row of items comes off the front of a harvest.** -/
theorem Repeats.harvest_eq (hs : Sees stop P) (hr : Repeats item P t xs s) :
    ∃ w, t = w ++ s ∧ ∀ b, harvest item stop h ⟨b, t⟩ =
      (harvest item stop h ⟨w.reverse ++ b, s⟩).prepend xs := by
  induction hr with
  | nil t => exact ⟨[], rfl, fun b => rfl⟩
  | cons hP head tail ih =>
    obtain ⟨v, rfl, hrun⟩ := head.exists_run
    obtain ⟨w, rfl, ih⟩ := ih
    refine ⟨v ++ w, (List.append_assoc ..).symm, fun b => ?_⟩
    rw [harvest_of_ok (mt (hs _ _).mp hP) (hrun b), ih, List.reverse_append, List.append_assoc,
      Harvest.cons_prepend]

/-- **Where a loop stops**: it reads a row of items, after which `P` holds or an item fails. -/
theorem exists_repeats [hi : Onward item] (h : item.Progresses stop) (hs : Sees stop P) (t : Text) :
    ∃ xs s, Repeats item P t xs s ∧ (P s ∨ ¬ P s ∧ ∃ u k, item.Fails s u k) := by
  by_cases hP : P t
  · exact ⟨[], t, .nil t, .inl hP⟩
  · obtain ⟨x, s, hx⟩ | hu := hi.settled t
    · have hlt : s.length < t.length := by
        obtain ⟨b', hb⟩ := hx []
        exact h _ _ _ (Bool.eq_false_iff.mpr (mt (hs _ _).mp hP)) hb
      obtain ⟨xs, r, hxs, hend⟩ := exists_repeats h hs s
      exact ⟨x :: xs, r, .cons hP hx hxs, hend⟩
    · exact ⟨[], t, .nil t, .inr ⟨hP, hu⟩⟩
termination_by t.length

theorem Repeats.reads_many (hs : Sees stop P) (hr : Repeats item P t xs r) (hP : P r) :
    (many item stop h).Reads t xs r := by
  intro b
  obtain ⟨w, -, hw⟩ := hr.harvest_eq (h := h) hs
  refine ⟨w.reverse ++ b, ?_⟩
  change (harvest item stop h ⟨b, t⟩).outcome = _
  rw [hw, harvest_of_stop ((hs _ _).mpr hP), Harvest.prepend, List.append_nil]
  rfl

theorem Repeats.fails_many {w : Text} (hs : Sees stop P) (hr : Repeats item P (w ++ s) xs s)
    (hP : ¬ P s) (hf : item.Fails s u k) : (many item stop h).Fails (w ++ s) (w ++ u) k := by
  refine ⟨(List.prefix_append_right_inj w).mpr hf.1, fun b => ?_⟩
  obtain ⟨w', hw, hharvest⟩ := hr.harvest_eq (h := h) hs
  obtain rfl : w = w' := List.append_cancel_right hw
  obtain ⟨e, c, he, hk, hp⟩ := hf.2 (w.reverse ++ b)
  refine ⟨e, c, ?_, hk, ?_⟩
  · change (harvest item stop h ⟨b, w ++ s⟩).outcome = _
    rw [hharvest, harvest_of_error (mt (hs _ _).mp hP) he]
    rfl
  · rw [hp, List.reverse_append, List.reverse_reverse, List.append_assoc]

section Onward

variable [Onward item]

theorem onward_many (hs : Sees stop P) : Onward (many item stop h) where
  settled t := by
    obtain ⟨xs, s, hr, hP | ⟨hP, u, k, hf⟩⟩ := exists_repeats h hs t
    · exact .inl ⟨xs, s, hr.reads_many hs hP⟩
    · obtain ⟨w, rfl⟩ := hr.exists_eq_append
      exact .inr ⟨w ++ u, k, hr.fails_many hs hP hf⟩

/-- **A loop reads a row of items up to where `P` holds.** -/
theorem reads_many (hs : Sees stop P) :
    (many item stop h).Reads t xs r ↔ Repeats item P t xs r ∧ P r := by
  constructor
  · intro hm
    obtain ⟨ys, s, hr, hP | ⟨hP, u, k, hf⟩⟩ := exists_repeats h hs t
    · obtain ⟨rfl, rfl⟩ := hm.unique (hr.reads_many hs hP)
      exact ⟨hr, hP⟩
    · obtain ⟨w, rfl⟩ := hr.exists_eq_append
      exact absurd (hr.fails_many hs hP hf) hm.not_fails
  · exact fun hm => hm.1.reads_many hs hm.2

/-- **A loop fails where one of its items does.** -/
theorem fails_many (hs : Sees stop P) : (many item stop h).Fails t u k ↔
    ∃ xs w s u', t = w ++ s ∧ u = w ++ u' ∧ Repeats item P t xs s ∧ ¬ P s ∧ item.Fails s u' k := by
  constructor
  · intro hm
    obtain ⟨ys, s, hr, hP | ⟨hP, u', k', hf⟩⟩ := exists_repeats h hs t
    · exact absurd hm (hr.reads_many (h := h) hs hP).not_fails
    · obtain ⟨w, rfl⟩ := hr.exists_eq_append
      obtain ⟨rfl, rfl⟩ := hm.unique (hr.fails_many hs hP hf)
      exact ⟨ys, w, s, u', rfl, rfl, hr, hP, hf⟩
  · rintro ⟨xs, w, s, u', rfl, rfl, hr, hP, hf⟩
    exact hr.fails_many hs hP hf

section Until

variable {hc : item.Consumes} {close : Char}

instance : Onward (manyUntil item hc close) := onward_many (sees_peek close)

theorem reads_manyUntil : (manyUntil item hc close).Reads t xs r ↔
    Repeats item (·.head? = some close) t xs r ∧ r.head? = some close :=
  reads_many (sees_peek close)

theorem fails_manyUntil : (manyUntil item hc close).Fails t u k ↔ ∃ xs w s u', t = w ++ s ∧
    u = w ++ u' ∧ Repeats item (·.head? = some close) t xs s ∧ s.head? ≠ some close ∧
      item.Fails s u' k := fails_many (sees_peek close)

end Until

end Onward

end Scan

end ErrorCatalog
