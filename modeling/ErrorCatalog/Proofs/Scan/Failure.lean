import ErrorCatalog.Proofs.Scan.Rule

/-!
# Proofs/Scan/Failure — how a reader fails

A reader fails in two ways only (`Stuck`): what the grammar asks for is not where the cursor stands,
or another word stands in the place of a keyword.  Every rule of the language inherits this from its
tokens, so a fact about errors needs a proof for these two ways and no other.

The kind of an error tells truncated input from wrong input, with one exception
(`Catalog.code_of_error`): a text that breaks off inside a keyword ends in another word than the
keyword, and that counts as wrong input although the error points at the end of the text.
-/

namespace ErrorCatalog

/-- The keywords of a dialect. -/
def Dialect.IsKeyword (d : Dialect) (word : Text) : Prop :=
  word = d.visibility.text ∨ word = d.record.text

namespace Scan

/-- **How a reader that starts at `c` fails**, with its error and the cursor where it stops; `K`
holds of the keywords that it asks for. -/
inductive Stuck (K : Text → Prop) (c : Cursor) : ScanError → Cursor → Prop
  /-- What is wanted does not come next. -/
  | missing {c' : Cursor} (wanted : Expectation) (hle : c ≤ c') :
      Stuck K c (missing wanted c') c'
  /-- The word `w` stands in the place of the keyword `word`, and is read. -/
  | wrongWord {c' : Cursor} {word w r : Text} (hle : c ≤ c') (hword : K word)
      (hrun : Run isNameChar c'.ahead w r) (hw : w ≠ []) (hne : w ≠ word) :
      Stuck K c (wrongWord word w c') (c'.advance w.length)

/-- A reader that fails in no other way. -/
class Reports {α : Type} (K : Text → Prop) (m : Scan α) : Prop where
  stuck : ∀ {c c' e}, m.run c = .error e c' → Stuck K c e c'

section Reports

variable {α β : Type} {K : Text → Prop} {m : Scan α} {f : α → Scan β} {c c' c₁ : Cursor}
  {e : ScanError}

theorem Stuck.of_le (hle : c ≤ c₁) (h : Stuck K c₁ e c') : Stuck K c e c' := by
  cases h with
  | missing wanted h => exact .missing wanted (Cursor.le_trans hle h)
  | wrongWord h hword hrun hw hne => exact .wrongWord (Cursor.le_trans hle h) hword hrun hw hne

/-! ## Tokens -/

instance (x : α) : Reports K (pure x : Scan α) := ⟨nofun⟩

instance (n : Nat) : Reports K (skip n) := ⟨nofun⟩

instance (p : Char → Bool) : Reports K (readWhile p) := ⟨nofun⟩

instance : Reports K space := inferInstanceAs (Reports K (readWhile isSpace))

instance : Reports K separators := inferInstanceAs (Reports K (readWhile isSeparator))

instance : Reports K literalContent := ⟨nofun⟩

instance (ch : Char) : Reports K (expect ch) where
  stuck {c c' e} h := by
    simp only [expect] at h
    split at h
    · cases h
    · cases h
      exact .missing _ c.le_refl

instance (what : Text) : Reports K (name what) where
  stuck {c c' e} h := by
    simp only [name] at h
    split at h
    · cases h
      exact .missing _ c.le_refl
    · cases h

theorem reports_keyword {word : Text} (hword : K word) : Reports K (keyword word) where
  stuck {c c' e} h := by
    have hrun := run_takeWhile isNameChar c.ahead
    simp only [keyword] at h
    split at h
    · cases h
    · next hne =>
      cases h
      by_cases hw : c.ahead.takeWhile isNameChar = []
      · rw [hw, wrongWord, if_pos rfl]
        exact .missing _ c.le_refl
      · exact .wrongWord c.le_refl hword hrun hw hne

/-! ## Readers in turn and loops -/

instance [hm : Reports K m] [hf : ∀ x, Reports K (f x)] : Reports K (m >>= f) where
  stuck {c c' e} h := by
    rw [run_bind] at h
    split at h
    · next hx => exact (Reports.stuck h).of_le (le_of_run_ok hx)
    · next hx =>
      cases h
      exact hm.stuck hx

/-- The same for a second reader that does not use the value, so that the search for an instance
does not go below a binder. -/
instance (priority := 1100) {n : Scan β} [Reports K m] [Reports K n] :
    Reports K (m >>= fun _ => n) := inferInstance

variable {stop : Cursor → Bool} {hp : m.Progresses stop}

/-- **A loop fails as its items do.** -/
theorem stuck_of_harvest [hm : Reports K m] (h : (harvest m stop hp c).outcome = .error e c') :
    Stuck K c e c' := by
  fun_induction harvest m stop hp c with
  | case1 c hs => cases h
  | case2 c hs a c₁ hi ih =>
    have hrest : (harvest m stop hp c₁).outcome = .error e c' := by
      generalize harvest m stop hp c₁ = rest at h
      obtain ⟨items, _ | e₁, c₂⟩ := rest
      · cases h
      · exact h
    exact (ih hrest).of_le (le_of_run_ok hi)
  | case3 c hs e₁ c₁ hi =>
    cases h
    exact hm.stuck hi

instance [Reports K m] : Reports K (many m stop hp) := ⟨stuck_of_harvest⟩

instance [Reports K m] {hc : m.Consumes} {close : Char} : Reports K (manyUntil m hc close) :=
  inferInstanceAs (Reports K (many m _ _))

end Reports

/-! ## Rules -/

section Rules

variable {K : Text → Prop}

instance : Reports K literal := by
  unfold literal
  infer_instance

instance : Reports K param := by
  unfold param
  infer_instance

instance : Reports K paramItem := by
  unfold paramItem
  infer_instance

instance : Reports K tag := by
  unfold tag
  infer_instance

instance (m : Marker) : Reports K (docLine m) := by
  unfold docLine
  infer_instance

instance (m : Marker) : Reports K (docComment m) := by
  unfold docComment
  infer_instance

variable (d : Dialect)

instance : Reports d.IsKeyword (keyword d.visibility.text) := reports_keyword (.inl rfl)

instance : Reports d.IsKeyword (keyword d.record.text) := reports_keyword (.inr rfl)

instance : Reports d.IsKeyword (field d) := by
  unfold field
  infer_instance

instance : Reports d.IsKeyword (record d) := by
  unfold record
  infer_instance

instance : Reports d.IsKeyword (entry d) := by
  unfold entry
  infer_instance

instance : Reports d.IsKeyword (entries d) where
  stuck {c _ _} h := (stuck_of_harvest h).of_le (c.le_advance _)

end Rules

/-! ## Kinds -/

/-- **The text `t` breaks off inside a keyword**: it ends in a front of the keyword, which is found
to be another word, at the end of the text. -/
def EndsInKeyword (d : Dialect) (t : Text) (e : ScanError) : Prop :=
  ∃ word w, d.IsKeyword word ∧ w ≠ [] ∧ w ≠ word ∧ w <+: word ∧ w <:+ t ∧
    e.cause = .otherWord word w ∧ e.position = Position.start.advanceBy t

section Kinds

variable {d : Dialect} {c c' : Cursor} {e : ScanError}

/-- What is missing at the end of the text is cut off, and what is missing before it is wrong. -/
theorem kind_missing_iff (wanted : Expectation) (c : Cursor) :
    (missing wanted c).kind = .unterminated ↔
      (missing wanted c).position.offset = c.source.length := by
  obtain ⟨b, t⟩ := c
  rw [kind_missing, position_missing, Position.offset_advanceBy_start, Cursor.length_source]
  cases t with
  | nil => simp [DiagnosticKind.missing, Cursor.offset]
  | cons a t =>
    have hkind : DiagnosticKind.unexpected ≠ .unterminated := by decide
    simp [DiagnosticKind.missing, Cursor.offset, hkind]

theorem not_endsInKeyword_missing {t : Text} (wanted : Expectation) (c : Cursor) :
    ¬ EndsInKeyword d t (missing wanted c) := by
  rintro ⟨word, w, -, -, -, -, -, hcause, -⟩
  rw [missing] at hcause
  split at hcause <;> cases hcause

/-- **A wrong word is found at the end of the text** just if the text breaks off in it. -/
theorem endsInKeyword_wrongWord_iff {word w r : Text} (hword : d.IsKeyword word)
    (hrun : Run isNameChar c.ahead w r) (hw : w ≠ []) (hne : w ≠ word) :
    EndsInKeyword d c.source (wrongWord word w c) ↔
      (wrongWord word w c).position.offset = c.source.length := by
  obtain ⟨b, t⟩ := c
  have hlength : (wrongWord word w ⟨b, t⟩).position.offset =
      b.length + (commonStart w word).length := by
    rw [position_wrongWord word b hrun, Position.offset_advanceBy_start, List.length_append,
      List.length_reverse]
  obtain ⟨z, hz⟩ := (commonStart_isPrefix w word).1
  constructor
  · rintro ⟨_, _, -, -, -, -, -, -, hposition⟩
    rw [hposition, Position.offset_advanceBy_start]
  · intro hoffset
    -- Nothing of the word is left behind the common start, and nothing of the text behind the word.
    obtain rfl : t = w ++ r := hrun.eq_append
    have hlast : z = [] ∧ r = [] := by
      have hw' := congrArg List.length hz
      rw [hlength, Cursor.length_source, Cursor.offset] at hoffset
      simp only [List.length_append] at hw' hoffset
      exact ⟨List.eq_nil_of_length_eq_zero (by omega), List.eq_nil_of_length_eq_zero (by omega)⟩
    obtain ⟨rfl, rfl⟩ := hlast
    rw [List.append_nil] at hz
    refine ⟨word, w, hword, hw, hne, hz ▸ (commonStart_isPrefix w word).2, ?_, ?_, ?_⟩
    · simp [Cursor.source]
    · rw [wrongWord, if_neg hw]
    · rw [position_wrongWord word b hrun, hz]
      simp [Cursor.source]

/-- **The kind of an error tells truncated input from wrong input**, unless the text breaks off
inside a keyword. -/
theorem Stuck.kind_iff (h : Stuck d.IsKeyword c e c') :
    (e.kind = .unterminated ∨ e.kind = .unexpected) ∧
      ((e.kind = .unterminated ↔ e.position.offset = c.source.length) ↔
        ¬ EndsInKeyword d c.source e) := by
  cases h with
  | @missing c' wanted hle =>
    have hiff := kind_missing_iff wanted c'
    rw [hle.1] at hiff
    refine ⟨?_, iff_of_true hiff (not_endsInKeyword_missing wanted c')⟩
    obtain ⟨b, _ | ⟨a, t⟩⟩ := c'
    · exact .inl rfl
    · exact .inr rfl
  | @wrongWord c' word w r hle hword hrun hw hne =>
    have hiff := endsInKeyword_wrongWord_iff hword hrun hw hne
    have hkind : (Scan.wrongWord word w c').kind = .unexpected := by
      rw [Scan.wrongWord, if_neg hw]
    have hother : DiagnosticKind.unexpected ≠ .unterminated := by decide
    rw [hle.1] at hiff
    rw [hiff, hkind]
    exact ⟨.inr rfl, by simp [hother]⟩

/-- The code of an error is that of its kind. -/
theorem Stuck.code_iff (h : Stuck d.IsKeyword c e c') :
    (e.code = "SCAN_UNTERMINATED_CONSTRUCT".toList ↔ e.kind = .unterminated) ∧
      (e.code = "SCAN_UNEXPECTED_CHARACTER".toList ↔ e.kind = .unexpected) := by
  rw [ScanError.code]
  obtain h | h := h.kind_iff.1
  · rw [h]
    exact ⟨iff_of_true rfl rfl, iff_of_false (by decide) (by decide)⟩
  · rw [h]
    exact ⟨iff_of_false (by decide) (by decide), iff_of_true rfl rfl⟩

/-- A text without a catalogue is one that the reader of all entries fails on. -/
theorem stuck_of_ofText? {t : Text} (h : Catalog.ofText? d t = .error e) :
    ∃ c', Stuck d.IsKeyword (Cursor.start t) e c' := by
  rw [Catalog.ofText?] at h
  cases hrun : (entries d).run (Cursor.start t) with
  | ok c c' =>
    rw [hrun] at h
    cases h
  | error e' c' =>
    rw [hrun] at h
    obtain rfl := Except.error.inj h
    exact ⟨c', Reports.stuck hrun⟩

end Kinds

end Scan

namespace Catalog

/-- **The code of an error tells truncated input from wrong input** just where the text does not
break off inside a keyword: there the input counts as truncated if and only if the error points at
its end. -/
theorem code_of_error (d : Dialect) (t : Text) (e : ScanError) (h : ofText? d t = .error e) :
    (e.code = "SCAN_UNTERMINATED_CONSTRUCT".toList ∨ e.code = "SCAN_UNEXPECTED_CHARACTER".toList) ∧
      ((e.code = "SCAN_UNTERMINATED_CONSTRUCT".toList ↔ e.position.offset = t.length) ↔
        ¬ Scan.EndsInKeyword d t e) := by
  obtain ⟨c', hstuck⟩ := Scan.stuck_of_ofText? h
  obtain ⟨hkind, hiff⟩ := hstuck.kind_iff
  rw [hstuck.code_iff.1, hstuck.code_iff.2]
  exact ⟨hkind, hiff⟩

/-- A literal that is cut off behind a quote in it. -/
theorem code_of_error_literal : ∃ e, ofText? .standard "#[e(m=\x22x\\\x22".toList = .error e ∧
    (e.code = "SCAN_UNTERMINATED_CONSTRUCT".toList ∨ e.code = "SCAN_UNEXPECTED_CHARACTER".toList) ∧
      ((e.code = "SCAN_UNTERMINATED_CONSTRUCT".toList ↔
          e.position.offset = "#[e(m=\x22x\\\x22".toList.length) ↔
        ¬ Scan.EndsInKeyword .standard "#[e(m=\x22x\\\x22".toList e) := by
  have herror : ofText? .standard "#[e(m=\x22x\\\x22".toList = .error ⟨.endOfInput (.char '\x22'),
      ⟨10, 1, 11, by decide, by decide⟩, .unterminated, none⟩ := by decide +kernel
  exact ⟨_, herror, code_of_error _ _ _ herror⟩

/-- A text that breaks off inside a keyword counts as wrong, though the error points at its end. -/
theorem code_of_error_in_keyword : ∃ e, ofText? .standard "#[e()]\npu".toList = .error e ∧
    e.position.offset = "#[e()]\npu".toList.length ∧
      e.code ≠ "SCAN_UNTERMINATED_CONSTRUCT".toList := by
  have herror : ofText? .standard "#[e()]\npu".toList =
      .error ⟨.otherWord "pub".toList "pu".toList, ⟨9, 2, 3, by decide, by decide⟩, .unexpected,
        none⟩ := by decide +kernel
  exact ⟨_, herror, rfl, by decide⟩

end Catalog

end ErrorCatalog
