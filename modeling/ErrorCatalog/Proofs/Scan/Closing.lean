import ErrorCatalog.Proofs.Scan.Spelling

/-!
# Proofs/Scan/Closing — the quote that closes a literal

A literal runs up to the first quote behind the opening one that has no backslash directly before it
(`Literal.ClosesAt`); if there is none the literal is not read.  What stands between the two quotes
is the escaped form of the value and of no other text (`Literal.escape_value`), so literals are an
exact code for their values (`Scan.literal_exact`).
-/

namespace ErrorCatalog

namespace Literal

variable {raw raw' r s t : Text} {n : Nat}

/-! ## The first closing quote -/

/-- **The quote at the place `n` closes a literal at the front of `t`**: it stands behind the opening
one, and the character directly before it is no backslash. -/
structure ClosesAt (t : Text) (n : Nat) : Prop where
  behind : 0 < n
  quote : t[n]? = some '\x22'
  bare : t[n - 1]? ≠ some '\\'

/-- The same, said of the text before the quote. -/
theorem closesAt_iff : ClosesAt t n ↔
    ∃ s r, t = s ++ '\x22' :: r ∧ n = s.length ∧ s ≠ [] ∧ s.getLast? ≠ some '\\' := by
  constructor
  · rintro ⟨hbehind, hquote, hbare⟩
    obtain ⟨hn, hc⟩ := List.getElem?_eq_some_iff.mp hquote
    have hlength : (t.take n).length = n := List.length_take_of_le (Nat.le_of_lt hn)
    refine ⟨t.take n, t.drop (n + 1), ?_, hlength.symm, ?_, ?_⟩
    · rw [← hc, ← List.drop_eq_getElem_cons, List.take_append_drop]
    · exact List.ne_nil_of_length_pos (by omega)
    · rw [List.getLast?_eq_getElem?, hlength, List.getElem?_take_of_lt (by omega)]
      exact hbare
  · rintro ⟨s, r, rfl, rfl, hs, hlast⟩
    have hlength : 0 < s.length := List.length_pos_iff.mpr hs
    refine ⟨hlength, by simp, ?_⟩
    rw [List.getElem?_append_left (by omega), ← List.getLast?_eq_getElem?]
    exact hlast

/-- The quote behind a content closes it. -/
theorem IsContent.closesAt (h : IsContent raw) (r : Text) :
    ClosesAt ('\x22' :: (raw ++ '\x22' :: r)) (raw.length + 1) := by
  refine closesAt_iff.mpr ⟨'\x22' :: raw, r, rfl, rfl, List.cons_ne_nil _ _, ?_⟩
  rw [List.getLast?_cons]
  cases hlast : raw.getLast? with
  | none => decide
  | some c =>
    rw [Option.getD_some, ← hlast]
    exact h.last

/-- No quote closes a literal before an open text is over. -/
theorem Open.not_closesAt (h : Open false raw) (r : Text) (hn : n ≤ raw.length) :
    ¬ ClosesAt ('\x22' :: (raw ++ r)) n := by
  intro hcloses
  obtain ⟨s, r', hs, rfl, hne, hlast⟩ := closesAt_iff.mp hcloses
  obtain ⟨c, s, rfl⟩ := List.exists_cons_of_ne_nil hne
  obtain ⟨rfl, htail⟩ := List.cons.inj hs
  -- The quote belongs to the open text, so a backslash stands before it.
  obtain ⟨u, hu, -⟩ | ⟨u, hu, hr'⟩ := List.append_eq_append_iff.mp htail
  · have := congrArg List.length hu
    simp only [List.length_append, List.length_cons] at this hn
    omega
  · cases u with
    | nil =>
      obtain rfl : raw = s := by simpa using hu
      exact absurd hn (Nat.not_succ_le_self _)
    | cons a u =>
      obtain ⟨rfl, -⟩ := List.cons.inj hr'
      have hescaped := endsEscaped_false_iff.mp (open_iff.mp h s u hu)
      rw [List.getLast?_cons, hescaped] at hlast
      exact hlast rfl

/-- **A literal that is open to the end of the text is never closed.** -/
theorem Open.not_exists_closesAt (h : Open false t) : ¬ ∃ n, ClosesAt ('\x22' :: t) n := by
  rintro ⟨n, hn⟩
  obtain ⟨hlt, -⟩ := List.getElem?_eq_some_iff.mp hn.quote
  refine h.not_closesAt [] (Nat.le_of_lt_succ hlt) ?_
  rwa [List.append_nil]

/-! ## Contents and values -/

/-- A text that starts with no quote is open wherever it starts. -/
theorem Open.of_head?_ne {e : Bool} (h : Open e t) (ht : t.head? ≠ some '\x22') : Open false t := by
  cases t with
  | nil => trivial
  | cons c t => exact ⟨fun hc => absurd (congrArg some hc) ht, h.2⟩

/-- **An open text is the escaped form of its value.** -/
theorem Open.escape_value (h : Open false raw) : escape (value raw) = raw := by
  fun_induction value raw with
  | case1 rest ih => rw [escape, ih h.2.2]
  | case2 c rest hnot ih =>
    have hc : c ≠ '\x22' := fun hc => Bool.false_ne_true (h.1 hc)
    have hrest : Open false rest := by
      by_cases hslash : c = '\\'
      · refine h.2.of_head?_ne fun hhead => ?_
        obtain ⟨r, rfl⟩ := List.head?_eq_some_iff.mp hhead
        exact hnot r hslash rfl
      · have := h.2
        rwa [decide_eq_false hslash] at this
    rw [escape, ih hrest]
    exact hc
  | case3 => rfl

theorem IsContent.escape_value (h : IsContent raw) : escape (value raw) = raw :=
  (isContent_iff.mp h).1.escape_value

/-- **Contents with the same value are the same.** -/
theorem IsContent.eq_of_value_eq (h : IsContent raw) (h' : IsContent raw')
    (hv : value raw = value raw') : raw = raw' := by
  rw [← h.escape_value, hv, h'.escape_value]

end Literal

/-! ## Literals -/

namespace Scan

variable {t v r : Text} {c c' : Cursor}

/-- A literal stands behind the space before it. -/
theorem reads_literal_iff : literal.Reads t v r ↔ quoted.Reads (t.dropWhile isSpace) v r := by
  simp only [literal_eq, reads_bind, reads_space]
  constructor
  · rintro ⟨w, s, hw, hs⟩
    obtain ⟨-, rfl⟩ := hw.unique (run_takeWhile isSpace t)
    exact hs
  · exact fun h => ⟨_, _, run_takeWhile isSpace t, h⟩

/-- **A literal is read just if some quote closes it.** -/
theorem exists_reads_quoted_iff : (∃ v r, quoted.Reads t v r) ↔
    t.head? = some '\x22' ∧ ∃ n, Literal.ClosesAt t n := by
  constructor
  · rintro ⟨v, r, h⟩
    obtain ⟨raw, rfl, hraw, -⟩ := reads_quoted.mp h
    exact ⟨rfl, _, hraw.closesAt r⟩
  · rintro ⟨hhead, hcloses⟩
    obtain h | ⟨u, k, hf⟩ := Onward.settled (m := quoted) t
    · exact h
    · obtain ⟨hnone, -⟩ | ⟨raw, rfl, hopen, -⟩ := fails_quoted.mp hf
      · exact absurd hhead hnone
      · exact absurd hcloses hopen.not_exists_closesAt

/-- A reader stops behind what it takes. -/
theorem Reads.run_eq {α : Type} {m : Scan α} {x : α} {w : Text} (h : m.Reads (w ++ r) x r)
    (b : Text) : m.run ⟨b, w ++ r⟩ = .ok x ((⟨b, w ++ r⟩ : Cursor).advance w.length) := by
  obtain ⟨w', hw, hrun⟩ := h.exists_run
  obtain rfl := List.append_cancel_right hw
  rw [hrun, Cursor.advance_append]

/-- **What a literal gives and where it stops.** -/
theorem run_literal_iff : literal.run c = .ok v c' ↔
    ∃ raw r, c.ahead.dropWhile isSpace = '\x22' :: (raw ++ '\x22' :: r) ∧ Literal.IsContent raw ∧
      v = Literal.value raw ∧
      c' = c.advance ((c.ahead.takeWhile isSpace).length + (raw.length + 1) + 1) := by
  obtain ⟨b, t⟩ := c
  have hrun : ∀ {v raw r}, t.dropWhile isSpace = '\x22' :: (raw ++ '\x22' :: r) →
      literal.Reads t v r → literal.run ⟨b, t⟩ = .ok v
        ((⟨b, t⟩ : Cursor).advance ((t.takeWhile isSpace).length + (raw.length + 1) + 1)) := by
    intro v raw r hsplit hreads
    have ht : t = t.takeWhile isSpace ++ '\x22' :: raw ++ ['\x22'] ++ r := by
      rw [List.append_assoc, List.append_assoc, List.cons_append, List.singleton_append, ← hsplit,
        List.takeWhile_append_dropWhile]
    have hlength : (t.takeWhile isSpace ++ '\x22' :: raw ++ ['\x22']).length =
        (t.takeWhile isSpace).length + (raw.length + 1) + 1 := by simp [Nat.add_assoc]
    rw [← hlength]
    generalize t.takeWhile isSpace ++ '\x22' :: raw ++ ['\x22'] = w at ht
    subst ht
    exact hreads.run_eq b
  constructor
  · intro h
    obtain ⟨b', r⟩ := c'
    have hreads : literal.Reads t v r := reads_of_run h
    obtain ⟨raw, hsplit, hraw, hv⟩ := reads_quoted.mp (reads_literal_iff.mp hreads)
    obtain ⟨-, hc⟩ := Outcome.ok.inj (h.symm.trans (hrun hsplit hreads))
    exact ⟨raw, r, hsplit, hraw, hv, hc⟩
  · rintro ⟨raw, r, hsplit, hraw, rfl, rfl⟩
    exact hrun hsplit (reads_literal_iff.mpr (reads_quoted.mpr ⟨raw, hsplit, hraw, rfl⟩))

/-- **Literals are an exact code for their values.**  Behind the space before it a literal is read
just if there is a quote, and behind it some quote with no backslash directly before it.  It then
ends behind the first such quote, and its content is the escaped form of its value, which ends in no
backslash.  Every text that ends in no backslash is the value of its escaped form between quotes,
whatever follows; and contents with the same value are the same. -/
theorem literal_exact (c : Cursor) :
    let space := c.ahead.takeWhile isSpace
    let t := c.ahead.dropWhile isSpace
    ((∃ v c', literal.run c = .ok v c') ↔
        t.head? = some '\x22' ∧ ∃ n, Literal.ClosesAt t n) ∧
      (∀ v c', literal.run c = .ok v c' → ∃ n, Literal.ClosesAt t n ∧
        (∀ m < n, ¬ Literal.ClosesAt t m) ∧ c' = c.advance (space.length + n + 1) ∧
        Literal.IsContent ((t.take n).drop 1) ∧ v = Literal.value ((t.take n).drop 1) ∧
        Literal.escape v = (t.take n).drop 1 ∧ v.getLast? ≠ some '\\') ∧
      (∀ v r, v.getLast? ≠ some '\\' → t = '\x22' :: (Literal.escape v ++ '\x22' :: r) →
        ∃ c', literal.run c = .ok v c' ∧ c'.ahead = r) ∧
      ∀ raw raw', Literal.IsContent raw → Literal.IsContent raw' →
        Literal.value raw = Literal.value raw' → raw = raw' := by
  intro space t
  refine ⟨?_, fun v c' h => ?_, fun v r hv ht => ?_,
    fun _ _ hraw hraw' hv => hraw.eq_of_value_eq hraw' hv⟩
  · rw [← exists_reads_quoted_iff]
    constructor
    · rintro ⟨v, c', h⟩
      obtain ⟨raw, r, ht, hraw, hv, -⟩ := run_literal_iff.mp h
      exact ⟨v, r, reads_quoted.mpr ⟨raw, ht, hraw, hv⟩⟩
    · rintro ⟨v, r, h⟩
      obtain ⟨raw, ht, hraw, hv⟩ := reads_quoted.mp h
      exact ⟨v, _, run_literal_iff.mpr ⟨raw, r, ht, hraw, hv, rfl⟩⟩
  · obtain ⟨raw, r, hsplit, hraw, rfl, hc'⟩ := run_literal_iff.mp h
    have ht : t = '\x22' :: (raw ++ '\x22' :: r) := hsplit
    have hcontent : (t.take (raw.length + 1)).drop 1 = raw := by
      rw [ht, List.take_succ_cons, List.drop_succ_cons, List.drop_zero, List.take_left]
    have hopen := (Literal.isContent_iff.mp hraw).1
    refine ⟨raw.length + 1, ?_, fun m hm => ?_, hc', ?_⟩
    · rw [ht]
      exact hraw.closesAt r
    · rw [ht]
      exact hopen.not_closesAt _ (Nat.le_of_lt_succ hm)
    · rw [hcontent, Literal.getLast?_value]
      exact ⟨hraw, rfl, hraw.escape_value, hraw.last⟩
  · have hreads : quoted.Reads t v r :=
      reads_quoted.mpr ⟨_, ht, Literal.isContent_escape hv, (Literal.value_escape v).symm⟩
    obtain ⟨b, hrun⟩ := reads_literal_iff.mpr hreads c.behind
    exact ⟨_, hrun, rfl⟩

end Scan

end ErrorCatalog
