import ErrorCatalog.Proofs.Scan.Token
import Mathlib.Data.List.Basic

/-!
# Proofs/Scan/Literal — which texts are string literals

`Open` says that nothing in a text closes a literal that it continues: every quote in it stands
directly behind a backslash.  A content is an open text that does not end in a backslash, so the
quote after it closes the literal (`reads_quoted`); a literal that is never closed fails at the end
of the text and nowhere else (`fails_quoted`).
-/

namespace ErrorCatalog

namespace Literal

/-- Does `raw` end in a backslash, where `escaped` answers for what came before it? -/
def endsEscaped (escaped : Bool) (raw : Text) : Bool := raw.foldl (fun _ c => c = '\\') escaped

/-- No quote in `raw` closes a literal; `escaped` says whether a backslash came before it. -/
def Open (escaped : Bool) : Text → Prop
  | [] => True
  | c :: rest => (c = '\x22' → escaped = true) ∧ Open (c = '\\') rest

/-- **The content of a literal**: each quote in it stands behind a backslash, and the quote after
it does not. -/
structure IsContent (raw : Text) : Prop where
  quotes : ∀ s t, raw = s ++ '\x22' :: t → s.getLast? = some '\\'
  last : raw.getLast? ≠ some '\\'

section

variable {e : Bool} {c : Char} {raw t : Text}

@[simp] theorem endsEscaped_nil (e : Bool) : endsEscaped e [] = e := rfl

theorem endsEscaped_append_singleton (e : Bool) (t : Text) (c : Char) :
    endsEscaped e (t ++ [c]) = decide (c = '\\') := by
  rw [endsEscaped, List.foldl_append]
  rfl

theorem endsEscaped_false_iff : endsEscaped false t = true ↔ t.getLast? = some '\\' := by
  obtain rfl | ⟨s, c, rfl⟩ := List.eq_nil_or_concat' t
  · simp
  · rw [endsEscaped_append_singleton, List.getLast?_concat, decide_eq_true_iff, Option.some.injEq]

theorem open_cons : Open e (c :: t) ↔ (c = '\x22' → e = true) ∧ Open (c = '\\') t := Iff.rfl

/-- An open text stays open behind any character but a quote. -/
theorem Open.append_singleton (h : Open e raw) (hc : c ≠ '\x22') : Open e (raw ++ [c]) := by
  induction raw generalizing e with
  | nil => exact ⟨fun hq => absurd hq hc, trivial⟩
  | cons a raw ih => exact ⟨h.1, ih h.2⟩

theorem open_iff : Open e raw ↔ ∀ s t, raw = s ++ '\x22' :: t → endsEscaped e s = true := by
  induction raw generalizing e with
  | nil => simp [Open]
  | cons c raw ih =>
    rw [open_cons, ih]
    constructor
    · rintro ⟨hc, hraw⟩ s t h
      cases s with
      | nil => exact hc (List.cons.inj h).1
      | cons a s =>
        obtain ⟨rfl, hs⟩ := List.cons.inj h
        exact hraw s t hs
    · intro h
      refine ⟨fun hc => h [] raw (by rw [hc]; rfl), fun s t hs => ?_⟩
      exact h (c :: s) t (by rw [hs]; rfl)

theorem isContent_iff : IsContent raw ↔ Open false raw ∧ endsEscaped false raw = false := by
  rw [← Bool.not_eq_true, endsEscaped_false_iff, open_iff]
  simp only [endsEscaped_false_iff]
  exact ⟨fun h => ⟨h.quotes, h.last⟩, fun h => ⟨h.1, h.2⟩⟩

/-- The content goes on behind an open text. -/
theorem content_append (h : Open e raw) :
    content e (raw ++ t) = raw ++ content (endsEscaped e raw) t := by
  induction raw generalizing e with
  | nil => rfl
  | cons c raw ih =>
    obtain ⟨hc, hraw⟩ := h
    have hgoes : (decide (c = '\x22') && !e) = false := by
      by_cases hq : c = '\x22'
      · simp [hq, hc hq]
      · simp [hq]
    rw [List.cons_append, content, hgoes, ih hraw]
    rfl

theorem open_content (e : Bool) (t : Text) : Open e (content e t) := by
  fun_induction content e t with
  | case1 e => trivial
  | case2 e c t h => trivial
  | case3 e c t h ih => exact ⟨fun hc => by simpa [hc] using h, ih⟩

/-- **The content ends at the end of the text or before a quote that closes it.** -/
theorem exists_eq_content_append (e : Bool) (t : Text) : ∃ r, t = content e t ++ r ∧
    (r = [] ∨ r.head? = some '\x22' ∧ endsEscaped e (content e t) = false) := by
  fun_induction content e t with
  | case1 e => exact ⟨[], rfl, .inl rfl⟩
  | case2 e c t h =>
    obtain ⟨rfl, he⟩ : c = '\x22' ∧ e = false := by simpa using h
    exact ⟨'\x22' :: t, rfl, .inr ⟨rfl, he⟩⟩
  | case3 e c t h ih =>
    obtain ⟨r, hr, hend⟩ := ih
    exact ⟨r, by rw [List.cons_append, ← hr], hend⟩

/-- A content is read up to the quote after it. -/
theorem IsContent.content_eq (h : IsContent raw) (t : Text) :
    content false (raw ++ '\x22' :: t) = raw := by
  obtain ⟨hopen, hend⟩ := isContent_iff.mp h
  rw [content_append hopen, hend]
  simp [content]

end

end Literal

namespace Scan

variable {t u r raw v : Text} {k : DiagnosticKind}

theorem reads_literalContent : literalContent.Reads t raw r ↔
    raw = Literal.content false t ∧ t = raw ++ r := by
  have hreads : ∀ {raw r}, raw = Literal.content false t → t = raw ++ r →
      literalContent.Reads t raw r := by
    intro raw r hraw h b
    refine ⟨raw.reverse ++ b, ?_⟩
    simp only [literalContent, ← hraw]
    rw [h, Cursor.advance_append]
  constructor
  · intro h
    obtain ⟨s, hs, -⟩ := Literal.exists_eq_content_append false t
    obtain ⟨rfl, rfl⟩ := h.unique (hreads rfl hs)
    exact ⟨rfl, hs⟩
  · exact fun h => hreads h.1 h.2

instance : Onward literalContent where
  settled t := by
    obtain ⟨r, hr, -⟩ := Literal.exists_eq_content_append false t
    exact .inl ⟨_, r, reads_literalContent.mpr ⟨rfl, hr⟩⟩

theorem not_fails_literalContent : ¬ literalContent.Fails t u k := by
  obtain ⟨r, hr, -⟩ := Literal.exists_eq_content_append false t
  have hreads := reads_literalContent.mpr ⟨rfl, hr⟩
  exact hreads.not_fails

/-- A string literal with no space before it. -/
def quoted : Scan Text := do
  expect '\x22'
  let raw ← literalContent
  expect '\x22'
  return Literal.value raw

instance : Onward quoted := by unfold quoted; infer_instance

theorem literal_eq : literal = space >>= fun _ => quoted := rfl

instance : Onward literal := inferInstanceAs (Onward (space >>= fun _ => quoted))

/-- **A literal is a content between two quotes.** -/
theorem reads_quoted : quoted.Reads t v r ↔
    ∃ raw, t = '\x22' :: (raw ++ '\x22' :: r) ∧ Literal.IsContent raw ∧ v = Literal.value raw := by
  simp only [quoted, reads_bind, reads_expect, reads_literalContent, reads_pure]
  constructor
  · rintro ⟨-, s, rfl, raw, -, ⟨hraw, rfl⟩, -, _, rfl, rfl, rfl⟩
    refine ⟨raw, rfl, Literal.isContent_iff.mpr ⟨hraw ▸ Literal.open_content _ _, ?_⟩, rfl⟩
    obtain ⟨r', hr, rfl | ⟨-, hend⟩⟩ :=
      Literal.exists_eq_content_append false (raw ++ '\x22' :: r)
    · simp [← hraw] at hr
    · rwa [← hraw] at hend
  · rintro ⟨raw, rfl, hraw, rfl⟩
    exact ⟨(), _, rfl, raw, _, ⟨(hraw.content_eq r).symm, rfl⟩, (), r, rfl, rfl, rfl⟩

/-- **A text that starts no literal has no quote in front, or none that closes.** -/
theorem fails_quoted : quoted.Fails t u k ↔
    (t.head? ≠ some '\x22' ∧ u = [] ∧ k = .missing t) ∨
      ∃ raw, t = '\x22' :: raw ∧ Literal.Open false raw ∧ u = t ∧ k = .unterminated := by
  simp only [quoted, fails_bind, reads_expect, fails_expect, reads_literalContent,
    not_fails_literalContent, not_fails_pure, false_or, and_false, exists_const, or_false]
  refine or_congr Iff.rfl ?_
  constructor
  · rintro ⟨w, s, u', hw, rfl, rfl, raw, w', r, u'', hw', rfl, ⟨hraw, rfl⟩, hr, rfl, rfl⟩
    obtain rfl : ['\x22'] = w := List.append_cancel_right hw
    obtain rfl : raw = w' := List.append_cancel_right hw'
    obtain ⟨r', hr', hend⟩ := Literal.exists_eq_content_append false (raw ++ r)
    rw [← hraw] at hr' hend
    obtain rfl : r = r' := List.append_cancel_left hr'
    obtain rfl : r = [] := hend.resolve_right fun h => hr h.1
    exact ⟨raw, by simp, hraw ▸ Literal.open_content _ _, by simp, rfl⟩
  · rintro ⟨raw, rfl, hopen, rfl, rfl⟩
    have hcontent : raw = Literal.content false raw := by
      simpa [Literal.content] using (Literal.content_append (t := []) hopen).symm
    exact ⟨['\x22'], raw, raw, rfl, rfl, rfl, raw, raw, [], [], by simp, by simp,
      ⟨hcontent, by simp⟩, by simp, rfl, rfl⟩

end Scan

end ErrorCatalog
