import ErrorCatalog.Proofs.Scan.Failure
import ErrorCatalog.Proofs.Scan.Session

/-!
# Proofs/Scan/Termination — every loop ends, and only syntax errors come out

What a loop does is told turn by turn (`Turns`), with no bound on the turns and no promise of
progress.  That the four loops of the language end is then a theorem: a turn that goes through takes
a character at least (`IsLoop.progresses`), so no more turns go through than characters are left,
and the loop stops by its test or in a turn that fails (`loopEnds_iff`).  For the lines of
documentation this rests on the marker, which is not empty.

Whatever a scanner is asked to do, at whatever place a session has reached, it gives a value or one
of the two errors of the grammar, and no position on the way is refused
(`Operation.session_closed`).
-/

namespace ErrorCatalog

namespace Scan

variable {α β : Type}

/-! ## Loops turn by turn -/

/-- **Turns of a loop**: from `c` on, `item` reads `xs`, one in each turn, and stands at the last
cursor; the test lets each of the turns begin. -/
inductive Turns (item : Scan α) (stop : Cursor → Bool) : Cursor → List α → Cursor → Prop
  | nil (c : Cursor) : Turns item stop c [] c
  | cons {c c₁ c' : Cursor} {x : α} {xs : List α} (hgo : stop c = false)
      (hrun : item.run c = .ok x c₁) (rest : Turns item stop c₁ xs c') :
      Turns item stop c (x :: xs) c'

/-- **How a loop ends**: after some turns its test holds, or the next turn fails. -/
inductive LoopEnds (item : Scan α) (stop : Cursor → Bool) (c : Cursor) : Harvest α → Prop
  | stopped {c' : Cursor} {xs : List α} (turns : Turns item stop c xs c') (hstop : stop c' = true) :
      LoopEnds item stop c ⟨xs, none, c'⟩
  | failed {c' c'' : Cursor} {xs : List α} {e : ScanError} (turns : Turns item stop c xs c')
      (hgo : stop c' = false) (hrun : item.run c' = .error e c'') :
      LoopEnds item stop c ⟨xs, some e, c''⟩

section Loops

variable {item : Scan α} {stop : Cursor → Bool} {c c' : Cursor} {x : α} {xs : List α}
  {h : Harvest α}

theorem LoopEnds.cons (hgo : stop c = false) (hrun : item.run c = .ok x c')
    (hend : LoopEnds item stop c' h) : LoopEnds item stop c (h.cons x) := by
  cases hend with
  | stopped turns hstop => exact .stopped (.cons hgo hrun turns) hstop
  | failed turns hgo' hrun' => exact .failed (.cons hgo hrun turns) hgo' hrun'

/-- **Each turn takes a character at least**, so there are no more of them than characters. -/
theorem Turns.offset_le (hp : item.Progresses stop) (ht : Turns item stop c xs c') :
    c ≤ c' ∧ c.offset + xs.length ≤ c'.offset := by
  induction ht with
  | nil c => exact ⟨c.le_refl, Nat.le_refl _⟩
  | @cons c c₁ c' x xs hgo hrun _ ih =>
    obtain ⟨hle, hlength⟩ := ih
    have hstep := le_of_run_ok hrun
    have hlt := hp c x c₁ hgo hrun
    have hsource := congrArg List.length hstep.1
    rw [Cursor.length_source, Cursor.length_source] at hsource
    refine ⟨Cursor.le_trans hstep hle, ?_⟩
    rw [List.length_cons]
    omega

theorem Turns.length_le (hp : item.Progresses stop) (ht : Turns item stop c xs c') :
    xs.length ≤ c.source.length - c.offset := by
  obtain ⟨hle, hlength⟩ := ht.offset_le hp
  rw [← hle.1, Cursor.length_source]
  omega

theorem Turns.harvest_eq (hp : item.Progresses stop) (ht : Turns item stop c xs c') :
    harvest item stop hp c = (harvest item stop hp c').prepend xs := by
  induction ht with
  | nil c => rfl
  | cons hgo hrun _ ih =>
    rw [harvest_of_ok (Bool.eq_false_iff.mp hgo) hrun, ih, Harvest.cons_prepend]

/-- **The loop ends**, and its harvest is what its turns give. -/
theorem loopEnds_iff (hp : item.Progresses stop) :
    LoopEnds item stop c h ↔ h = harvest item stop hp c := by
  constructor
  · rintro (⟨turns, hstop⟩ | ⟨turns, hgo, hrun⟩)
    · rw [turns.harvest_eq hp, harvest_of_stop hstop, Harvest.prepend, List.append_nil]
    · rw [turns.harvest_eq hp, harvest_of_error (Bool.eq_false_iff.mp hgo) hrun, Harvest.prepend,
        List.append_nil]
  · rintro rfl
    fun_induction harvest item stop hp c with
    | case1 c hstop => exact .stopped (.nil c) hstop
    | case2 c hstop x c' hrun ih => exact ih.cons (Bool.eq_false_iff.mpr hstop) hrun
    | case3 c hstop e c' hrun => exact .failed (.nil c) (Bool.eq_false_iff.mpr hstop) hrun

end Loops

/-- The loops of the language, each with its turn and the test that ends it. -/
inductive IsLoop (d : Dialect) : {α : Type} → Scan α → (Cursor → Bool) → Prop
  | entries : IsLoop d (entry d) Cursor.atEnd
  | params : IsLoop d paramItem fun c => c.peek = some ')'
  | docLines : IsLoop d (docLine d.marker) fun c => !atMarker d.marker c
  | fields : IsLoop d (field d) fun c => c.peek = some '\x7d'

/-- **A turn of a loop that goes through takes something off the text.** -/
theorem IsLoop.progresses {d : Dialect} {item : Scan α} {stop : Cursor → Bool}
    (h : IsLoop d item stop) : item.Progresses stop := by
  cases h with
  | entries => exact (consumes_entry d).progresses _
  | params => exact consumes_paramItem.progresses _
  | docLines => exact progresses_docLine d.marker
  | fields => exact (consumes_field d).progresses _

/-! ## Where errors point -/

section Errors

variable {K K' : Text → Prop} {c c' : Cursor} {e : ScanError}

theorem Stuck.mono (h : Stuck K c e c') (hK : ∀ word, K word → K' word) : Stuck K' c e c' := by
  cases h with
  | missing wanted hle => exact .missing wanted hle
  | wrongWord hle hword hrun hw hne => exact .wrongWord hle (hK _ hword) hrun hw hne

/-- **An error points at a place the reader has passed**, or at the one where it stands. -/
theorem Stuck.exists_place (h : Stuck K c e c') :
    ∃ place : Cursor, c ≤ place ∧ place ≤ c' ∧ e.position = place.position := by
  cases h with
  | missing wanted hle => exact ⟨c', hle, c'.le_refl, position_missing wanted _ _⟩
  | @wrongWord c' word w r hle hword hrun hw hne =>
    have hlength := (commonStart_isPrefix w word).1.length_le
    refine ⟨c'.advance (commonStart w word).length, Cursor.le_trans hle (c'.le_advance _),
      ⟨by simp, ?_⟩, by rw [Scan.wrongWord, if_neg hw]⟩
    rw [Cursor.offset_advance, Cursor.offset_advance]
    omega

instance : Reports K commas := inferInstanceAs (Reports K (readWhile isComma))

/-- A reader fails in the two ways whatever becomes of its value. -/
theorem stuck_of_map (K : Text → Prop) {m : Scan α} [Reports K m] {g : α → β}
    (h : (g <$> m).run c = .error e c') : Stuck (fun _ => True) c e c' := by
  rw [map_eq_pure_bind] at h
  exact (Reports.stuck (K := K) h).mono fun _ _ => trivial

end Errors

end Scan

/-- The position of a cursor is counted off without any number being refused. -/
theorem Cursor.counted_position (c : Cursor) : c.position.Counted c.source := by
  refine ⟨c.offset, by rw [length_source]; omega, ?_⟩
  rw [take_source]
  exact Position.foldlM_checkedAdvance _ _

namespace Operation

open Scan (Stuck IsLoop Turns LoopEnds)

/-- The steps of a scanner: the readers of runs, tokens and rules. -/
def isScanner : Operation → Bool
  | readWhile _ | expect _ | keyword _ | name _ | space | commas | separators | literal | param
  | tag | docComment | field | record | entries => true
  | _ => false

variable {d : Dialect} {o : Operation} {c c' : Cursor} {e : ScanError}

/-- **A step of a scanner fails in the two ways of the grammar only.** -/
theorem stuck_of_isScanner (ho : o.isScanner = true) (h : (o.reader d).run c = .error e c') :
    Stuck (fun _ => True) c e c' := by
  cases o with
  | keyword word =>
    have hreports : Scan.Reports (· = word) (Scan.keyword word) := Scan.reports_keyword rfl
    exact Scan.stuck_of_map (· = word) h
  | readWhile | expect | name | space | commas | separators | literal | param | tag | docComment
  | field | record | entries => exact Scan.stuck_of_map d.IsKeyword h
  | _ => cases ho

/-- **Every step of a scanner ends, and fails with a syntax error only.**  Whatever steps were done
before, a step of the scanner gives a value or one of the two errors of the grammar, stands further
on in the same text, and counts positions of that text without any number being refused.  From the
place of the step on, each loop of the language ends, by its test or in a turn that fails; the turns
before that took a character each, so there are no more of them than characters were left. -/
theorem session_closed (d : Dialect) (source : Text) (os : List Operation) :
    let before := stop d os (Cursor.start source)
    (∀ o : Operation, o.isScanner = true →
      ∃ after, before ≤ after ∧ after.source = source ∧ after.position.Counted source ∧
        ((∃ a, (o.reader d).run before = .ok a after) ∨
          ∃ e, (o.reader d).run before = .error e after ∧ Stuck (fun _ => True) before e after ∧
            e.position.Counted source)) ∧
      ∀ {α : Type} {item : Scan α} {test : Cursor → Bool}, IsLoop d item test →
        ∀ c, before ≤ c → (∃ h, LoopEnds item test c h) ∧
          ∀ xs c', Turns item test c xs c' → c.offset + xs.length ≤ c'.offset ∧
            xs.length ≤ source.length - c.offset := by
  intro before
  have hbefore : before.source = source := (le_stop d os (Cursor.start source)).1
  have hsource : ∀ {c}, before ≤ c → c.source = source := fun h => h.1.trans hbefore
  refine ⟨fun o ho => ?_, fun hloop c hc => ⟨⟨_, (Scan.loopEnds_iff hloop.progresses).mpr rfl⟩,
    fun xs c' hturns => ⟨(hturns.offset_le hloop.progresses).2, ?_⟩⟩⟩
  · have hle := (o.reader d).le_run before
    have hcounted := ((o.reader d).run before).cursor.counted_position
    rw [hsource hle] at hcounted
    refine ⟨_, hle, hsource hle, hcounted, ?_⟩
    cases hrun : (o.reader d).run before with
    | ok a after => exact .inl ⟨a, rfl⟩
    | error e after =>
      have hstuck := stuck_of_isScanner ho hrun
      obtain ⟨place, hplace, -, hposition⟩ := hstuck.exists_place
      have hcounted := place.counted_position
      rw [hsource hplace, ← hposition] at hcounted
      exact .inr ⟨e, rfl, hstuck, hcounted⟩
  · rw [← hsource hc]
    exact hturns.length_le hloop.progresses

/-- A text that breaks off in a keyword behind its first word: the keyword fails at a place of the
text, and a loop over fields from there has two characters to take at most. -/
theorem session_closed_keyword :
    let source := "a pu".toList
    let before := stop .standard [.name "a name".toList, .space] (.start source)
    isScanner (.keyword "pub".toList) = true ∧
      IsLoop .standard (Scan.field .standard) (fun c => c.peek = some '\x7d') ∧ before ≤ before ∧
      (∃ e after, (reader .standard (.keyword "pub".toList)).run before = .error e after ∧
        e.position.Counted source) ∧
      (∃ h, LoopEnds (Scan.field .standard) (fun c => c.peek = some '\x7d') before h) ∧
        ∀ xs c', Turns (Scan.field .standard) (fun c => c.peek = some '\x7d') before xs c' →
          xs.length ≤ 2 := by
  intro source before
  have hscanner : isScanner (.keyword "pub".toList) = true := rfl
  have hloop : IsLoop .standard (Scan.field .standard) fun c => c.peek = some '\x7d' := .fields
  have hclosed := session_closed .standard source [.name "a name".toList, .space]
  obtain ⟨hends, hturns⟩ := hclosed.2 hloop before before.le_refl
  obtain ⟨after, -, -, -, ⟨a, ha⟩ | ⟨e, he, -, hcounted⟩⟩ := hclosed.1 _ hscanner
  · exact nomatch ha
  · exact ⟨hscanner, hloop, before.le_refl, ⟨e, after, he, hcounted⟩, hends,
      fun xs c' h => (hturns xs c' h).2⟩

end Operation

end ErrorCatalog
