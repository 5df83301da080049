import ErrorCatalog.Cursor
import ErrorCatalog.Diagnostic

/-!
# Scan/Basic — readers, and what they leave behind

A reader takes a cursor and gives a value or an error; either way it says where it stopped.  The
type records that a reader never moves back and never changes the text, so every reader that is
built from others has this for free.  `Consumes` marks the readers that always read something.

Every loop of the language is one function, `harvest`: it reads items until the cursor stands where
no further item belongs, or an item fails.  It keeps the items read before a failure.  It ends
because each item takes something off the text (`Progresses`).
-/

namespace ErrorCatalog

/-- What a reader gives, with the cursor where it stopped. -/
inductive Outcome (α : Type) where
  | ok (value : α) (cursor : Cursor)
  | error (e : ScanError) (cursor : Cursor)

namespace Outcome

variable {α : Type}

/-- Where the reader stopped. -/
def cursor : Outcome α → Cursor
  | ok _ c => c
  | error _ c => c

/-- The value or the error alone. -/
def result : Outcome α → Except ScanError α
  | ok a _ => .ok a
  | error e _ => .error e

@[simp] theorem cursor_ok (a : α) (c : Cursor) : (ok a c).cursor = c := rfl

@[simp] theorem cursor_error (e : ScanError) (c : Cursor) :
    (error e c : Outcome α).cursor = c := rfl

end Outcome

/-- **A reader.** -/
structure Scan (α : Type) where
  run : Cursor → Outcome α
  le_run : ∀ c, c ≤ (run c).cursor

namespace Scan

variable {α β : Type}

theorem ext {m n : Scan α} (h : ∀ c, m.run c = n.run c) : m = n := by
  cases m
  cases n
  cases funext h
  rfl

/-- **A reader moves forward only.** -/
theorem le_of_run_ok {m : Scan α} {c c' : Cursor} {a : α} (h : m.run c = .ok a c') : c ≤ c' := by
  have hle := m.le_run c
  rwa [h] at hle

theorem le_of_run_error {m : Scan α} {c c' : Cursor} {e : ScanError}
    (h : m.run c = .error e c') : c ≤ c' := by
  have hle := m.le_run c
  rwa [h] at hle

/-! ## One reader after another -/

/-- The reader that reads nothing. -/
protected def pure (a : α) : Scan α := ⟨fun c => .ok a c, fun c => c.le_refl⟩

/-- The second reader starts where the first one stopped, unless that one failed. -/
protected def bind (m : Scan α) (f : α → Scan β) : Scan β where
  run c := match m.run c with
    | .ok a c' => (f a).run c'
    | .error e c' => .error e c'
  le_run c := by
    split
    · next a c' hm => exact Cursor.le_trans (le_of_run_ok hm) ((f a).le_run c')
    · next e c' hm => exact le_of_run_error hm

instance : Monad Scan where
  pure := Scan.pure
  bind := Scan.bind

@[simp] theorem run_pure (a : α) (c : Cursor) : (pure a : Scan α).run c = .ok a c := rfl

theorem run_bind (m : Scan α) (f : α → Scan β) (c : Cursor) :
    (m >>= f).run c = match m.run c with
      | .ok a c' => (f a).run c'
      | .error e c' => .error e c' := rfl

/-- **Two readers in turn succeed exactly when both do.** -/
theorem run_bind_eq_ok {m : Scan α} {f : α → Scan β} {c c'' : Cursor} {b : β} :
    (m >>= f).run c = .ok b c'' ↔ ∃ a c', m.run c = .ok a c' ∧ (f a).run c' = .ok b c'' := by
  rw [run_bind]
  constructor
  · intro h
    split at h
    · next a c' hm => exact ⟨a, c', hm, h⟩
    · cases h
  · rintro ⟨a, c', hm, hf⟩
    rw [hm]
    exact hf

instance : LawfulMonad Scan := LawfulMonad.mk' Scan
  (fun m => ext fun c => by
    change (m >>= fun a => pure (id a)).run c = m.run c
    rw [run_bind]
    cases m.run c <;> rfl)
  (fun _ _ => rfl)
  (fun m f g => ext fun c => by
    rw [run_bind, run_bind, run_bind]
    cases m.run c <;> rfl)

/-! ## Readers that always read something -/

/-- Wherever the reader succeeds, less is left than before. -/
def Consumes (m : Scan α) : Prop :=
  ∀ c a c', m.run c = .ok a c' → c'.ahead.length < c.ahead.length

theorem Consumes.bind {m : Scan α} (h : m.Consumes) (f : α → Scan β) : (m >>= f).Consumes := by
  intro c b c'' hb
  obtain ⟨a, c', ha, hf⟩ := run_bind_eq_ok.mp hb
  exact Nat.lt_of_le_of_lt (Cursor.length_ahead_le (le_of_run_ok hf)) (h c a c' ha)

theorem Consumes.of_bind (m : Scan α) {f : α → Scan β} (h : ∀ a, (f a).Consumes) :
    (m >>= f).Consumes := by
  intro c b c'' hb
  obtain ⟨a, c', ha, hf⟩ := run_bind_eq_ok.mp hb
  exact Nat.lt_of_lt_of_le (h a c' b c'' hf) (Cursor.length_ahead_le (le_of_run_ok ha))

end Scan

/-! ## Items until a condition holds -/

/-- What a loop has read: the items, the error that ended it early if one did, and the cursor. -/
structure Harvest (α : Type) where
  items : List α
  error : Option ScanError
  cursor : Cursor

namespace Harvest

variable {α : Type}

/-- The harvest with one more item in front. -/
def cons (a : α) (h : Harvest α) : Harvest α := { h with items := a :: h.items }

/-- The harvest as the outcome of a reader: all items or the error. -/
def outcome (h : Harvest α) : Outcome (List α) :=
  match h.error with
  | none => .ok h.items h.cursor
  | some e => .error e h.cursor

@[simp] theorem cursor_cons (a : α) (h : Harvest α) : (h.cons a).cursor = h.cursor := rfl

@[simp] theorem cursor_outcome (h : Harvest α) : h.outcome.cursor = h.cursor := by
  unfold outcome
  split <;> rfl

end Harvest

namespace Scan

variable {α : Type}

/-- Wherever a loop over `item` goes on, an item read takes something off the text. -/
def Progresses (item : Scan α) (stop : Cursor → Bool) : Prop :=
  ∀ c a c', stop c = false → item.run c = .ok a c' → c'.ahead.length < c.ahead.length

theorem Consumes.progresses {item : Scan α} (h : item.Consumes) (stop : Cursor → Bool) :
    item.Progresses stop := fun c a c' _ => h c a c'

/-- **The loop**: items until `stop` holds or an item fails. -/
def harvest (item : Scan α) (stop : Cursor → Bool) (h : item.Progresses stop) (c : Cursor) :
    Harvest α :=
  if _ : stop c = true then ⟨[], none, c⟩
  else match _ : item.run c with
    | .ok a c' => (harvest item stop h c').cons a
    | .error e c' => ⟨[], some e, c'⟩
termination_by c.ahead.length
decreasing_by exact h c a c' (Bool.eq_false_iff.mpr ‹_›) ‹_›

theorem le_harvest {item : Scan α} {stop : Cursor → Bool} (h : item.Progresses stop) (c : Cursor) :
    c ≤ (harvest item stop h c).cursor := by
  fun_induction harvest item stop h c with
  | case1 c hs => exact c.le_refl
  | case2 c hs a c' hi ih => exact Cursor.le_trans (le_of_run_ok hi) ih
  | case3 c hs e c' hi => exact le_of_run_error hi

/-- The reader of all items until `stop` holds. -/
def many (item : Scan α) (stop : Cursor → Bool) (h : item.Progresses stop) : Scan (List α) where
  run c := (harvest item stop h c).outcome
  le_run c := by
    rw [Harvest.cursor_outcome]
    exact le_harvest h c

/-- The reader of all items up to the character `close`. -/
def manyUntil (item : Scan α) (h : item.Consumes) (close : Char) : Scan (List α) :=
  many item (fun c => c.peek = some close) (h.progresses _)

end Scan

end ErrorCatalog
