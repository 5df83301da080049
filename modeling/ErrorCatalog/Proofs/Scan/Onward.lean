import ErrorCatalog.Scan.Entry

/-!
# Proofs/Scan/Onward — what a reader does is settled by what lies ahead

A run of a reader starts from a cursor, which knows both what was read and what is left.  The rules
of the declaration language look at the second only: `Reads m t x r` and `Fails m t u k` say what
`m` makes of the text `t` whatever was read before it, and `Onward m` says that there is always one
of the two.  Reading in turn is then composition of relations (`reads_bind`, `fails_bind`), and no
later proof runs a reader on a cursor.
-/

namespace ErrorCatalog

/-- **A later state has read some more of the same text.** -/
theorem Cursor.le_iff {c c' : Cursor} :
    c ≤ c' ↔ ∃ w, c.ahead = w ++ c'.ahead ∧ c'.behind = w.reverse ++ c.behind := by
  constructor
  · rintro ⟨hsource, hoffset⟩
    rw [source, source] at hsource
    obtain ⟨w, hb, ha⟩ | ⟨w, hb, ha⟩ := List.append_eq_append_iff.mp hsource
    · have hw : w = [] := by
        have := congrArg List.length hb
        simp only [offset, List.length_append, List.length_reverse] at this hoffset
        exact List.eq_nil_of_length_eq_zero (by omega)
      subst hw
      exact ⟨[], by simpa using ha.symm, by simpa using (congrArg List.reverse hb).symm⟩
    · exact ⟨w, ha, by simpa using congrArg List.reverse hb⟩
  · rintro ⟨w, ha, hb⟩
    exact ⟨by simp [source, ha, hb], by simp [offset, hb]⟩

namespace Scan

variable {α β : Type}

/-! ## What a reader makes of a text -/

/-- From `t` on, `m` reads the value `x` and leaves `r`. -/
def Reads (m : Scan α) (t : Text) (x : α) (r : Text) : Prop :=
  ∀ b, ∃ b', m.run ⟨b, t⟩ = .ok x ⟨b', r⟩

/-- From `t` on, `m` fails with an error of kind `k` that points behind `u`, the front of `t`. -/
def Fails (m : Scan α) (t u : Text) (k : DiagnosticKind) : Prop :=
  u <+: t ∧ ∀ b, ∃ e c, m.run ⟨b, t⟩ = .error e c ∧ e.kind = k ∧
    e.position = Position.start.advanceBy (b.reverse ++ u)

/-- **What lies ahead decides**: what was read before does not change what the reader makes of the
rest. -/
class Onward (m : Scan α) : Prop where
  settled : ∀ t, (∃ x r, m.Reads t x r) ∨ ∃ u k, m.Fails t u k

variable {m : Scan α} {f : α → Scan β} {x : α} {y : β} {t u r s : Text} {k : DiagnosticKind}

/-- **A reader takes its text from the front.** -/
theorem Reads.exists_run (h : m.Reads t x r) :
    ∃ w, t = w ++ r ∧ ∀ b, m.run ⟨b, t⟩ = .ok x ⟨w.reverse ++ b, r⟩ := by
  have hstep : ∀ b, ∃ w, t = w ++ r ∧ m.run ⟨b, t⟩ = .ok x ⟨w.reverse ++ b, r⟩ := fun b => by
    obtain ⟨b', hb⟩ := h b
    obtain ⟨w, ht, rfl⟩ := Cursor.le_iff.mp (le_of_run_ok hb)
    exact ⟨w, ht, hb⟩
  obtain ⟨w, ht, -⟩ := hstep []
  refine ⟨w, ht, fun b => ?_⟩
  obtain ⟨w', ht', hb⟩ := hstep b
  rwa [List.append_cancel_right (ht.symm.trans ht')]

theorem Reads.exists_eq_append (h : m.Reads t x r) : ∃ w, t = w ++ r :=
  h.exists_run.imp fun _ hw => hw.1

theorem Reads.length_lt (hm : m.Consumes) (h : m.Reads t x r) : r.length < t.length := by
  obtain ⟨b', hb⟩ := h []
  exact hm _ _ _ hb

/-- A reader that always reads something reads a text that is not empty. -/
theorem Reads.ne_nil (hm : m.Consumes) (h : m.Reads (u ++ r) x r) : u ≠ [] := by
  rintro rfl
  exact absurd (h.length_lt hm) (Nat.lt_irrefl _)

/-! ## Runs -/

section Run

variable {x' : α} {b b' r' : Text} {e : ScanError} {c : Cursor}

theorem Reads.eq_of_run (h : m.Reads t x r) (hrun : m.run ⟨b, t⟩ = .ok x' ⟨b', r'⟩) :
    x = x' ∧ r = r' := by
  obtain ⟨b'', hb⟩ := h b
  obtain ⟨hx, hc⟩ := Outcome.ok.inj (hb.symm.trans hrun)
  exact ⟨hx, (Cursor.mk.inj hc).2⟩

theorem Reads.run_ne_error (h : m.Reads t x r) : m.run ⟨b, t⟩ ≠ .error e c := by
  obtain ⟨b', hb⟩ := h b
  rw [hb]
  exact nofun

theorem Fails.eq_of_run (h : m.Fails t u k) (hrun : m.run ⟨b, t⟩ = .error e c) :
    e.kind = k ∧ e.position = Position.start.advanceBy (b.reverse ++ u) := by
  obtain ⟨e', c', hb, hat⟩ := h.2 b
  obtain ⟨rfl, -⟩ := Outcome.error.inj (hb.symm.trans hrun)
  exact hat

/-- A text that is read does not fail. -/
theorem Reads.not_fails (h : m.Reads t x r) : ¬ m.Fails t u k := fun hf => by
  obtain ⟨e, c, hb, -⟩ := hf.2 []
  exact h.run_ne_error hb

/-- A text is read in one way only. -/
theorem Reads.unique (h : m.Reads t x r) (h' : m.Reads t x' r') : x = x' ∧ r = r' := by
  obtain ⟨b, hb⟩ := h' []
  exact h.eq_of_run hb

theorem reads_of_run [hm : Onward m] (h : m.run ⟨b, t⟩ = .ok x ⟨b', r⟩) : m.Reads t x r := by
  obtain ⟨x', r', hr⟩ | ⟨u, k, hf⟩ := hm.settled t
  · obtain ⟨rfl, rfl⟩ := hr.eq_of_run h
    exact hr
  · obtain ⟨e, c, hb, -⟩ := hf.2 b
    exact nomatch h.symm.trans hb

end Run

/-- Two places of one text with one position are the same place. -/
theorem eq_of_advanceBy_eq {p : Position} {v w : Text} (hv : v <+: t) (hw : w <+: t)
    (h : p.advanceBy v = p.advanceBy w) : v = w := by
  have hlength : v.length = w.length := by
    have := congrArg Position.offset h
    rw [Position.offset_advanceBy, Position.offset_advanceBy] at this
    omega
  exact (List.prefix_of_prefix_length_le hv hw (Nat.le_of_eq hlength)).eq_of_length hlength

/-- A failure points at one place only, and has one kind. -/
theorem Fails.unique {u' : Text} {k' : DiagnosticKind} (h : m.Fails t u k)
    (h' : m.Fails t u' k') : u = u' ∧ k = k' := by
  obtain ⟨e, c, hb, hk, hp⟩ := h.2 []
  obtain ⟨hk', hp'⟩ := h'.eq_of_run hb
  exact ⟨eq_of_advanceBy_eq h.1 h'.1 (hp.symm.trans hp'), hk.symm.trans hk'⟩

/-! ## One reader after another -/

theorem reads_pure {x' : α} : (pure x : Scan α).Reads t x' r ↔ x' = x ∧ r = t := by
  have hreads : (pure x : Scan α).Reads t x t := fun b => ⟨b, rfl⟩
  refine ⟨fun h => h.unique hreads, ?_⟩
  rintro ⟨rfl, rfl⟩
  exact hreads

instance (x : α) : Onward (pure x) := ⟨fun t => .inl ⟨x, t, reads_pure.mpr ⟨rfl, rfl⟩⟩⟩

theorem not_fails_pure : ¬ (pure x : Scan α).Fails t u k :=
  (reads_pure.mpr ⟨rfl, rfl⟩).not_fails

theorem Reads.bind (h : m.Reads t x s) (h' : (f x).Reads s y r) : (m >>= f).Reads t y r := by
  intro b
  obtain ⟨b', hb⟩ := h b
  obtain ⟨b'', hb'⟩ := h' b'
  exact ⟨b'', run_bind_eq_ok.mpr ⟨x, _, hb, hb'⟩⟩

theorem Fails.bind (h : m.Fails t u k) : (m >>= f).Fails t u k := by
  refine ⟨h.1, fun b => ?_⟩
  obtain ⟨e, c, hb, hrest⟩ := h.2 b
  exact ⟨e, c, by rw [run_bind, hb], hrest⟩

theorem Reads.bind_fails {w : Text} (h : m.Reads (w ++ s) x s) (h' : (f x).Fails s u k) :
    (m >>= f).Fails (w ++ s) (w ++ u) k := by
  refine ⟨(List.prefix_append_right_inj w).mpr h'.1, fun b => ?_⟩
  obtain ⟨w', hw, hrun⟩ := h.exists_run
  obtain rfl : w = w' := List.append_cancel_right hw
  obtain ⟨e, c, hb, hk, hp⟩ := h'.2 (w.reverse ++ b)
  refine ⟨e, c, by rw [run_bind, hrun]; exact hb, hk, ?_⟩
  rw [hp, List.reverse_append, List.reverse_reverse, List.append_assoc]

instance [hm : Onward m] [hf : ∀ x, Onward (f x)] : Onward (m >>= f) where
  settled t := by
    obtain ⟨x, s, hx⟩ | ⟨u, k, hu⟩ := hm.settled t
    · obtain ⟨w, rfl⟩ := hx.exists_eq_append
      obtain ⟨y, r, hy⟩ | ⟨u, k, hu⟩ := (hf x).settled s
      · exact .inl ⟨y, r, hx.bind hy⟩
      · exact .inr ⟨w ++ u, k, hx.bind_fails hu⟩
    · exact .inr ⟨u, k, hu.bind⟩

/-- The same for a second reader that does not use the value, so that the search for an instance
does not go below a binder. -/
instance (priority := 1100) {n : Scan β} [Onward m] [Onward n] : Onward (m >>= fun _ => n) :=
  inferInstance

/-- **Two readers in turn read what the one and then the other reads.** -/
theorem reads_bind [hm : Onward m] [hf : ∀ x, Onward (f x)] :
    (m >>= f).Reads t y r ↔ ∃ x s, m.Reads t x s ∧ (f x).Reads s y r := by
  refine ⟨fun h => ?_, fun ⟨x, s, hx, hy⟩ => hx.bind hy⟩
  obtain ⟨b', hb⟩ := h []
  obtain ⟨x, ⟨c, s⟩, hx, hy⟩ := run_bind_eq_ok.mp hb
  exact ⟨x, s, reads_of_run hx, reads_of_run hy⟩

/-- What two readers in turn take is what the one takes, and behind it what the other takes. -/
theorem reads_bind_append [hm : Onward m] [hf : ∀ x, Onward (f x)] :
    (m >>= f).Reads (u ++ r) y r ↔ ∃ w v x, u = w ++ v ∧ m.Reads (w ++ (v ++ r)) x (v ++ r) ∧
      (f x).Reads (v ++ r) y r := by
  rw [reads_bind]
  constructor
  · rintro ⟨x, s, hx, hy⟩
    obtain ⟨v, rfl⟩ := hy.exists_eq_append
    obtain ⟨w, hw⟩ := hx.exists_eq_append
    rw [hw] at hx
    exact ⟨w, v, x, List.append_cancel_right (hw.trans (List.append_assoc ..).symm), hx, hy⟩
  · rintro ⟨w, v, x, rfl, hx, hy⟩
    rw [List.append_assoc]
    exact ⟨x, _, hx, hy⟩

/-- **Two readers in turn fail where the first does, or where the second does after it.** -/
theorem fails_bind [hm : Onward m] [hf : ∀ x, Onward (f x)] :
    (m >>= f).Fails t u k ↔ m.Fails t u k ∨
      ∃ x w s u', t = w ++ s ∧ u = w ++ u' ∧ m.Reads t x s ∧ (f x).Fails s u' k := by
  constructor
  · intro h
    obtain ⟨x, s, hx⟩ | ⟨u', k', hu⟩ := hm.settled t
    · obtain ⟨w, rfl⟩ := hx.exists_eq_append
      obtain ⟨y, r, hy⟩ | ⟨u', k', hu⟩ := (hf x).settled s
      · exact absurd h (hx.bind hy).not_fails
      · obtain ⟨rfl, rfl⟩ := h.unique (hx.bind_fails hu)
        exact .inr ⟨x, w, s, u', rfl, rfl, hx, hu⟩
    · obtain ⟨rfl, rfl⟩ := h.unique (hu.bind (f := f))
      exact .inl hu
  · rintro (h | ⟨x, w, s, u', rfl, rfl, hx, hu⟩)
    · exact h.bind
    · exact hx.bind_fails hu

/-- The place where two readers in turn fail is in the text of the first, or behind it in that of
the second. -/
theorem fails_bind_append {v : Text} [hm : Onward m] [hf : ∀ x, Onward (f x)] :
    (m >>= f).Fails (u ++ v) u k ↔ m.Fails (u ++ v) u k ∨
      ∃ w u' x, u = w ++ u' ∧ m.Reads (w ++ (u' ++ v)) x (u' ++ v) ∧
        (f x).Fails (u' ++ v) u' k := by
  rw [fails_bind]
  refine or_congr_right ⟨?_, ?_⟩
  · rintro ⟨x, w, s, u', hw, rfl, hx, hu⟩
    rw [List.append_assoc] at hw hx
    obtain rfl := List.append_cancel_left hw
    exact ⟨w, u', x, rfl, hx, hu⟩
  · rintro ⟨w, u', x, rfl, hx, hu⟩
    rw [List.append_assoc]
    exact ⟨x, w, _, u', rfl, rfl, hx, hu⟩

end Scan

end ErrorCatalog
