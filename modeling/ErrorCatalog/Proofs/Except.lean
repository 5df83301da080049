import Mathlib.Data.List.Forall2

/-!
# Proofs/Except — how computations in turn succeed and fail

A computation in several steps succeeds only if each of them does (`eq_ok_of_bind`,
`forall₂_of_mapM`), and it fails the way the first of them fails that does (`eq_error_of_bind`,
`fault?_bind`, `fault?_mapM`).
-/

namespace ErrorCatalog

variable {ε α β : Type}

/-- Two computations in turn succeed only if both do. -/
theorem eq_ok_of_bind {m : Except ε α} {f : α → Except ε β} {b : β} (h : m >>= f = .ok b) :
    ∃ a, m = .ok a ∧ f a = .ok b := by
  cases m with
  | error e => cases h
  | ok a => exact ⟨a, rfl, h⟩

/-- Two computations in turn fail with the first of them, or with the second after it. -/
theorem eq_error_of_bind {m : Except ε α} {f : α → Except ε β} {e : ε} (h : m >>= f = .error e) :
    m = .error e ∨ ∃ a, m = .ok a ∧ f a = .error e := by
  cases m with
  | error e' => exact .inl (congrArg Except.error (Except.error.inj h))
  | ok a => exact .inr ⟨a, rfl, h⟩

/-- **Computations in a row succeed** only if each of them does, and give what these give. -/
theorem forall₂_of_mapM {f : α → Except ε β} {xs : List α} {ys : List β}
    (h : xs.mapM f = .ok ys) : List.Forall₂ (fun x y => f x = .ok y) xs ys := by
  induction xs generalizing ys with
  | nil =>
    obtain rfl := Except.ok.inj h
    exact .nil
  | cons x xs ih =>
    rw [List.mapM_cons] at h
    obtain ⟨y, hy, hrest⟩ := eq_ok_of_bind h
    obtain ⟨ys', hys, hcons⟩ := eq_ok_of_bind hrest
    obtain rfl := Except.ok.inj hcons
    exact .cons hy (ih hys)

/-- What makes a computation fail, if it fails. -/
def fault? : Except ε α → Option ε
  | .ok _ => none
  | .error e => some e

theorem eq_error_of_fault? {m : Except ε α} {e : ε} (h : fault? m = some e) : m = .error e := by
  cases m with
  | error e' => exact congrArg Except.error (Option.some.inj h)
  | ok a => cases h

/-- **Of two computations in turn the first failure counts**, if how the second one fails does not
depend on the value of the first. -/
theorem fault?_bind {m : Except ε α} {f : α → Except ε β} {k : Option ε}
    (hf : ∀ a, fault? (f a) = k) : fault? (m >>= f) = (fault? m).or k := by
  cases m with
  | error e => rfl
  | ok a => exact hf a

/-- **Of computations in a row the first failure counts.** -/
theorem fault?_mapM (f : α → Except ε β) (xs : List α) :
    fault? (xs.mapM f) = xs.findSome? fun x => fault? (f x) := by
  induction xs with
  | nil => rfl
  | cons x xs ih =>
    rw [List.mapM_cons, fault?_bind (k := fault? (xs.mapM f)), ih, List.findSome?_cons]
    · cases fault? (f x) <;> rfl
    · intro y
      rw [fault?_bind (k := none) fun _ => rfl, Option.or_none]

end ErrorCatalog
