import ErrorCatalog.Proofs.Scan.Onward
import Mathlib.Tactic.SplitIfs

/-!
# Proofs/Scan/Token — what the smallest readers read and where they fail

For each token there are two lemmas: `reads_…` says which texts start with the token and what is
left, `fails_…` says where the reader fails on all others.  A run of a class is maximal (`Run`), so
what follows a token is part of what is said about it.
-/

namespace ErrorCatalog

/-! ## Maximal runs -/

/-- No character of the class `p` comes first. -/
def Stops (p : Char → Bool) (t : Text) : Prop := ∀ c ∈ t.head?, p c = false

/-- `w` is the longest run of the class `p` at the front of `t`, and `r` is what follows it. -/
structure Run (p : Char → Bool) (t w r : Text) : Prop where
  eq_append : t = w ++ r
  all : ∀ c ∈ w, p c = true
  stops : Stops p r

section Run

variable {p q : Char → Bool} {t w r : Text} {c : Char}

@[simp] theorem stops_nil : Stops p [] := fun _ h => nomatch h

@[simp] theorem stops_cons : Stops p (c :: t) ↔ p c = false := by simp [Stops]

theorem stops_append (hw : w ≠ []) : Stops p (w ++ t) ↔ Stops p w := by
  obtain ⟨c, w, rfl⟩ := List.exists_cons_of_ne_nil hw
  rw [List.cons_append, stops_cons, stops_cons]

theorem Stops.imp (h : Stops p t) (hpq : ∀ c, q c = true → p c = true) : Stops q t :=
  fun c hc => Bool.eq_false_iff.mpr fun hq => Bool.eq_false_iff.mp (h c hc) (hpq c hq)

/-- A text that stops a class is not entered by it. -/
theorem Stops.takeWhile_eq (h : Stops p t) : t.takeWhile p = [] := by
  cases t with
  | nil => rfl
  | cons c t => rw [List.takeWhile_cons, stops_cons.mp h]; rfl

theorem Stops.dropWhile_eq (h : Stops p t) : t.dropWhile p = t := by
  have := List.takeWhile_append_dropWhile (p := p) (l := t)
  rwa [h.takeWhile_eq, List.nil_append] at this

theorem Stops.of_isPrefix (h : Stops p t) (hw : w <+: t) : Stops p w := by
  obtain ⟨r, rfl⟩ := hw
  cases w with
  | nil => exact stops_nil
  | cons c w => exact h

theorem run_takeWhile (p : Char → Bool) (t : Text) : Run p t (t.takeWhile p) (t.dropWhile p) where
  eq_append := List.takeWhile_append_dropWhile.symm
  all c hc := List.all_eq_true.mp List.all_takeWhile c hc
  stops c hc := by
    have := List.head?_dropWhile_not p t
    rw [Option.mem_def.mp hc] at this
    simpa using this

/-- A run is determined by its text. -/
theorem Run.takeWhile_eq (h : Run p t w r) : t.takeWhile p = w := by
  rw [h.eq_append, List.takeWhile_append_of_pos h.all, h.stops.takeWhile_eq, List.append_nil]

theorem Run.unique {w' r' : Text} (h : Run p t w r) (h' : Run p t w' r') : w = w' ∧ r = r' := by
  obtain rfl : w = w' := h.takeWhile_eq.symm.trans h'.takeWhile_eq
  exact ⟨rfl, List.append_cancel_left (h.eq_append.symm.trans h'.eq_append)⟩

/-- Where a class stops its run is empty. -/
theorem Stops.run (h : Stops p t) : Run p t [] t := ⟨rfl, by simp, h⟩

theorem run_nil_iff : Run p t [] r ↔ t = r ∧ Stops p t := by
  constructor
  · intro h
    obtain rfl : t = r := h.eq_append
    exact ⟨rfl, h.stops⟩
  · rintro ⟨rfl, h⟩
    exact h.run

/-- A run that is not empty can be entered. -/
theorem Run.not_stops (h : Run p t w r) (hw : w ≠ []) : ¬ Stops p t := by
  intro hs
  obtain ⟨hnil, -⟩ := h.unique hs.run
  exact hw hnil

/-- A character of the class is the first of the run. -/
theorem run_cons (hc : p c = true) : Run p (c :: t) w r ↔ ∃ v, w = c :: v ∧ Run p t v r := by
  constructor
  · intro h
    cases w with
    | nil =>
      obtain ⟨rfl, hstops⟩ := run_nil_iff.mp h
      rw [stops_cons, hc] at hstops
      cases hstops
    | cons a v =>
      obtain ⟨rfl, ht⟩ := List.cons.inj h.eq_append
      exact ⟨v, rfl, ht, fun b hb => h.all b (List.mem_cons_of_mem _ hb), h.stops⟩
  · rintro ⟨v, rfl, h⟩
    refine ⟨by rw [h.eq_append, List.cons_append], fun b hb => ?_, h.stops⟩
    obtain rfl | hb := List.mem_cons.mp hb
    · exact hc
    · exact h.all b hb

/-- **A run goes on where another text of the class is put in front.** -/
theorem Run.append {v : Text} (h : Run p t w r) (hv : ∀ c ∈ v, p c = true) :
    Run p (v ++ t) (v ++ w) r where
  eq_append := by rw [h.eq_append, List.append_assoc]
  all c hc := (List.mem_append.mp hc).elim (hv c) (h.all c)
  stops := h.stops

end Run

/-! ## Characters -/

/-- The kind of the error where a token is missing: truncated input at the end of the text, wrong
input before it. -/
def DiagnosticKind.missing : Text → DiagnosticKind
  | [] => .unterminated
  | _ :: _ => .unexpected

/-- Passing over the front of a text leaves the rest. -/
theorem Cursor.advance_append (b w r : Text) :
    (⟨b, w ++ r⟩ : Cursor).advance w.length = ⟨w.reverse ++ b, r⟩ := by
  simp [advance]

namespace Scan

variable {α : Type} {t u w r : Text} {k : DiagnosticKind}

theorem kind_missing (wanted : Expectation) (b t : Text) :
    (missing wanted ⟨b, t⟩).kind = DiagnosticKind.missing t := by
  cases t <;> rfl

theorem position_missing (wanted : Expectation) (b t : Text) :
    (missing wanted ⟨b, t⟩).position = Position.start.advanceBy b.reverse := by
  cases t <;> rfl

/-- A reader that finds its token missing fails at the front. -/
theorem fails_of_missing {m : Scan α} {wanted : Expectation}
    (h : ∀ b, m.run ⟨b, t⟩ = .error (missing wanted ⟨b, t⟩) ⟨b, t⟩) :
    m.Fails t [] (.missing t) :=
  ⟨List.nil_prefix, fun b => ⟨_, _, h b, kind_missing wanted b t, by
    rw [position_missing, List.append_nil]⟩⟩

theorem run_expect (ch : Char) (b t : Text) :
    (expect ch).run ⟨b, t⟩ = if t.head? = some ch then .ok () ((⟨b, t⟩ : Cursor).advance 1)
      else .error (missing (.char ch) ⟨b, t⟩) ⟨b, t⟩ := rfl

theorem reads_expect {ch : Char} {x : Unit} : (expect ch).Reads t x r ↔ t = ch :: r := by
  constructor
  · intro h
    obtain ⟨b, hb⟩ := h []
    rw [run_expect] at hb
    split_ifs at hb with hc
    obtain ⟨s, rfl⟩ := List.head?_eq_some_iff.mp hc
    cases hb
    rfl
  · rintro rfl b
    exact ⟨ch :: b, by rw [run_expect, List.head?_cons, if_pos rfl]; rfl⟩

theorem fails_expect_of_ne {ch : Char} (h : t.head? ≠ some ch) :
    (expect ch).Fails t [] (.missing t) :=
  fails_of_missing fun b => by rw [run_expect, if_neg h]

instance (ch : Char) : Onward (expect ch) where
  settled t := by
    by_cases h : t.head? = some ch
    · obtain ⟨s, rfl⟩ := List.head?_eq_some_iff.mp h
      exact .inl ⟨(), s, reads_expect.mpr rfl⟩
    · exact .inr ⟨[], _, fails_expect_of_ne h⟩

theorem fails_expect {ch : Char} :
    (expect ch).Fails t u k ↔ t.head? ≠ some ch ∧ u = [] ∧ k = .missing t := by
  constructor
  · intro h
    have hne : t.head? ≠ some ch := fun hc => by
      obtain ⟨s, rfl⟩ := List.head?_eq_some_iff.mp hc
      have hreads : (expect ch).Reads (ch :: s) () s := reads_expect.mpr rfl
      exact hreads.not_fails h
    exact ⟨hne, h.unique (fails_expect_of_ne hne)⟩
  · rintro ⟨hne, rfl, rfl⟩
    exact fails_expect_of_ne hne

/-! ## Runs -/

theorem reads_skip {n : Nat} {x : Unit} : (skip n).Reads t x r ↔ r = t.drop n := by
  constructor
  · intro h
    obtain ⟨b, hb⟩ := h []
    cases hb
    rfl
  · rintro rfl b
    exact ⟨_, rfl⟩

instance (n : Nat) : Onward (skip n) := ⟨fun _ => .inl ⟨(), _, reads_skip.mpr rfl⟩⟩

theorem reads_of_run_of_class {p : Char → Bool} (h : Run p t w r) : (readWhile p).Reads t w r := by
  intro b
  refine ⟨w.reverse ++ b, ?_⟩
  simp only [readWhile, h.takeWhile_eq]
  rw [h.eq_append, Cursor.advance_append]

theorem not_fails_skip {n : Nat} : ¬ (skip n).Fails t u k := by
  have hreads : (skip n).Reads t () (t.drop n) := reads_skip.mpr rfl
  exact hreads.not_fails

theorem reads_readWhile {p : Char → Bool} : (readWhile p).Reads t w r ↔ Run p t w r := by
  constructor
  · intro h
    obtain ⟨rfl, rfl⟩ := h.unique (reads_of_run_of_class (run_takeWhile p t))
    exact run_takeWhile p t
  · exact reads_of_run_of_class

instance (p : Char → Bool) : Onward (readWhile p) :=
  ⟨fun t => .inl ⟨_, _, reads_readWhile.mpr (run_takeWhile p t)⟩⟩

theorem not_fails_readWhile {p : Char → Bool} : ¬ (readWhile p).Fails t u k :=
  (reads_readWhile.mpr (run_takeWhile p t)).not_fails

instance : Onward space := inferInstanceAs (Onward (readWhile isSpace))

instance : Onward separators := inferInstanceAs (Onward (readWhile isSeparator))

theorem reads_space : space.Reads t w r ↔ Run isSpace t w r := reads_readWhile

theorem reads_separators : separators.Reads t w r ↔ Run isSeparator t w r := reads_readWhile

theorem not_fails_space : ¬ space.Fails t u k := not_fails_readWhile

/-! ## Names -/

theorem run_name (what b t : Text) :
    (name what).run ⟨b, t⟩ = if t.takeWhile isNameChar = [] then
        .error (missing (.name what) ⟨b, t⟩) ⟨b, t⟩
      else .ok (t.takeWhile isNameChar)
        ((⟨b, t⟩ : Cursor).advance (t.takeWhile isNameChar).length) := rfl

theorem fails_name_of_stops {what : Text} (h : Stops isNameChar t) :
    (name what).Fails t [] (.missing t) :=
  fails_of_missing fun b => by rw [run_name, if_pos h.takeWhile_eq]

theorem reads_name {what : Text} : (name what).Reads t w r ↔ Run isNameChar t w r ∧ w ≠ [] := by
  have hreads : ∀ {w r}, Run isNameChar t w r → w ≠ [] → (name what).Reads t w r := by
    intro w r h hw b
    refine ⟨w.reverse ++ b, ?_⟩
    rw [run_name, h.takeWhile_eq, if_neg hw, h.eq_append, Cursor.advance_append]
  constructor
  · intro h
    have hrun := run_takeWhile isNameChar t
    by_cases hw : t.takeWhile isNameChar = []
    · rw [hw] at hrun
      exact absurd (fails_name_of_stops (run_nil_iff.mp hrun).2) h.not_fails
    · obtain ⟨rfl, rfl⟩ := h.unique (hreads hrun hw)
      exact ⟨hrun, hw⟩
  · exact fun h => hreads h.1 h.2

/-- Text that stops a name starts with none, and other text does. -/
theorem stops_or_name (t : Text) :
    Stops isNameChar t ∨ ∃ w r, Run isNameChar t w r ∧ w ≠ [] := by
  have hrun := run_takeWhile isNameChar t
  by_cases hw : t.takeWhile isNameChar = []
  · rw [hw] at hrun
    exact .inl (run_nil_iff.mp hrun).2
  · exact .inr ⟨_, _, hrun, hw⟩

instance (what : Text) : Onward (name what) where
  settled t := (stops_or_name t).symm.imp
    (fun ⟨w, r, h, hw⟩ => ⟨w, r, reads_name.mpr ⟨h, hw⟩⟩)
    (fun h => ⟨[], _, fails_name_of_stops h⟩)

theorem fails_name {what : Text} :
    (name what).Fails t u k ↔ Stops isNameChar t ∧ u = [] ∧ k = .missing t := by
  constructor
  · intro h
    obtain hs | ⟨w, r, hrun, hw⟩ := stops_or_name t
    · exact ⟨hs, h.unique (fails_name_of_stops hs)⟩
    · exact absurd h (reads_name.mpr ⟨hrun, hw⟩).not_fails
  · rintro ⟨hs, rfl, rfl⟩
    exact fails_name_of_stops hs

end Scan

/-! ## Keywords -/

section CommonStart

variable {c : Char} {s t u : Text}

@[simp] theorem commonStart_nil_left (t : Text) : commonStart [] t = [] := rfl

theorem commonStart_cons (a b : Char) (s t : Text) :
    commonStart (a :: s) (b :: t) = if a = b then a :: commonStart s t else [] := rfl

theorem commonStart_isPrefix (s t : Text) : commonStart s t <+: s ∧ commonStart s t <+: t := by
  fun_induction commonStart s t with
  | case1 a s t ih =>
    exact ⟨List.cons_prefix_cons.mpr ⟨rfl, ih.1⟩, List.cons_prefix_cons.mpr ⟨rfl, ih.2⟩⟩
  | case2 a s b t h => exact ⟨List.nil_prefix, List.nil_prefix⟩
  | case3 s t h => exact ⟨List.nil_prefix, List.nil_prefix⟩

theorem commonStart_append (u s t : Text) :
    commonStart (u ++ s) (u ++ t) = u ++ commonStart s t := by
  induction u with
  | nil => rfl
  | cons a u ih => rw [List.cons_append, List.cons_append, commonStart_cons, if_pos rfl, ih]; rfl

theorem commonStart_self (s : Text) : commonStart s s = s := by
  simpa using commonStart_append s [] []

theorem commonStart_cons_eq_nil_iff : commonStart (c :: s) t = [] ↔ t.head? ≠ some c := by
  cases t with
  | nil => simp [commonStart]
  | cons a t =>
    rw [commonStart_cons, List.head?_cons, ne_eq, Option.some.injEq]
    split_ifs with h
    · simp [h]
    · simp [Ne.symm h]

/-- **The first character that differs tells the words apart**, whatever follows it. -/
theorem commonStart_append_cons (h : commonStart (u ++ c :: s) t = u) (s' : Text) :
    commonStart (u ++ c :: s') t = u := by
  obtain ⟨z, rfl⟩ : u <+: t := h ▸ (commonStart_isPrefix (u ++ c :: s) t).2
  rw [commonStart_append, List.append_right_eq_self] at h ⊢
  exact commonStart_cons_eq_nil_iff.mpr (commonStart_cons_eq_nil_iff.mp h)

end CommonStart

namespace Scan

variable {t u w r : Text} {k : DiagnosticKind}

theorem run_keyword (word b t : Text) :
    (keyword word).run ⟨b, t⟩ =
      if t.takeWhile isNameChar = word then
        .ok () ((⟨b, t⟩ : Cursor).advance (t.takeWhile isNameChar).length)
      else .error (wrongWord word (t.takeWhile isNameChar) ⟨b, t⟩)
        ((⟨b, t⟩ : Cursor).advance (t.takeWhile isNameChar).length) := rfl

/-- **A wrong word is reported at the first character that tells it from the keyword.** -/
theorem position_wrongWord (word b : Text) (h : Run isNameChar t w r) :
    (wrongWord word w ⟨b, t⟩).position =
      Position.start.advanceBy (b.reverse ++ commonStart w word) := by
  rw [wrongWord]
  split_ifs with hnil
  · rw [position_missing, hnil, commonStart_nil_left, List.append_nil]
  · obtain ⟨v, hv⟩ : commonStart w word <+: t :=
      (commonStart_isPrefix w word).1.trans ⟨r, h.eq_append.symm⟩
    dsimp only
    rw [← hv, Cursor.advance_append, Cursor.position, List.reverse_append, List.reverse_reverse]

theorem fails_keyword_of_ne {word : Text} (h : Run isNameChar t w r) (hw : w ≠ word) :
    (keyword word).Fails t (commonStart w word) (if w = [] then .missing t else .unexpected) := by
  refine ⟨(commonStart_isPrefix w word).1.trans ⟨r, h.eq_append.symm⟩, fun b => ?_⟩
  refine ⟨_, _, by rw [run_keyword, h.takeWhile_eq, if_neg hw], ?_, position_wrongWord word b h⟩
  rw [wrongWord]
  split_ifs with hnil
  · exact kind_missing _ b t
  · rfl

theorem reads_keyword {word : Text} {x : Unit} :
    (keyword word).Reads t x r ↔ Run isNameChar t word r := by
  have hreads : ∀ {r}, Run isNameChar t word r → (keyword word).Reads t () r := by
    intro r h b
    refine ⟨word.reverse ++ b, ?_⟩
    rw [run_keyword, h.takeWhile_eq, if_pos rfl, h.eq_append, Cursor.advance_append]
  constructor
  · intro h
    have hrun := run_takeWhile isNameChar t
    by_cases hw : t.takeWhile isNameChar = word
    · rw [hw] at hrun
      obtain ⟨-, rfl⟩ := h.unique (hreads hrun)
      exact hrun
    · exact absurd (fails_keyword_of_ne hrun hw) h.not_fails
  · exact hreads

instance (word : Text) : Onward (keyword word) where
  settled t := by
    have hrun := run_takeWhile isNameChar t
    by_cases hw : t.takeWhile isNameChar = word
    · exact .inl ⟨(), _, reads_keyword.mpr (hw ▸ hrun)⟩
    · exact .inr ⟨_, _, fails_keyword_of_ne hrun hw⟩

theorem fails_keyword {word : Text} :
    (keyword word).Fails t u k ↔ ∃ w r, Run isNameChar t w r ∧ w ≠ word ∧
      u = commonStart w word ∧ k = if w = [] then .missing t else .unexpected := by
  constructor
  · intro h
    have hrun := run_takeWhile isNameChar t
    by_cases hw : t.takeWhile isNameChar = word
    · rw [hw] at hrun
      have hreads : (keyword word).Reads t () (t.dropWhile isNameChar) := reads_keyword.mpr hrun
      exact absurd h hreads.not_fails
    · obtain ⟨hu, hk⟩ := h.unique (fails_keyword_of_ne hrun hw)
      exact ⟨_, _, hrun, hw, hu, hk⟩
  · rintro ⟨w, r, hrun, hw, rfl, rfl⟩
    exact fails_keyword_of_ne hrun hw

end Scan

end ErrorCatalog
