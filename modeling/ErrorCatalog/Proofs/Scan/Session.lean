import ErrorCatalog.Proofs.Position
import ErrorCatalog.Proofs.Scan.Token
import ErrorCatalog.Scan.Operation

/-!
# Proofs/Scan/Session — where a cursor stands while it is driven

A cursor is driven by steps of any kind in any order, and goes on after a step that fails from where
that step left it.  No step changes the text or moves back, so the cursor always stands at a place
of its text and its position marks that place; the steps that give the text they take give exactly
what lies between the two places (`session_positions`).
-/

namespace ErrorCatalog

/-! ## Places of a cursor -/

namespace Cursor

variable {c c' : Cursor}

theorem take_source (c : Cursor) : c.source.take c.offset = c.behind.reverse := by
  rw [source, offset, ← List.length_reverse, List.take_left]

/-- **A cursor stands at a place of its text.** -/
theorem marks_position (c : Cursor) : c.position.Marks c.source :=
  Position.marks_iff.mpr ⟨c.behind.reverse, List.prefix_append _ _, rfl⟩

/-- The text between a cursor and a later state of it. -/
theorem slice_source (h : c ≤ c') {w : Text} (hw : c.ahead = w ++ c'.ahead) :
    (c.source.take c'.offset).drop c.offset = w := by
  obtain ⟨v, hv, hbehind⟩ := le_iff.mp h
  obtain rfl : v = w := List.append_cancel_right (hv.symm.trans hw)
  rw [← h.1, take_source, hbehind, List.reverse_append, List.reverse_reverse, offset,
    ← List.length_reverse, List.drop_left]

end Cursor

/-! ## Steps that give the text they take -/

namespace Scan

/-- The text `m` gives is the text it takes. -/
def Verbatim (m : Scan Text) : Prop :=
  ∀ c w c', m.run c = .ok w c' → c.ahead = w ++ c'.ahead

theorem verbatim_readWhile (p : Char → Bool) : (readWhile p).Verbatim := by
  rintro ⟨b, t⟩ w ⟨b', r⟩ h
  have hrun : Run p t w r := reads_readWhile.mp (reads_of_run h)
  exact hrun.eq_append

theorem verbatim_name (what : Text) : (name what).Verbatim := by
  rintro ⟨b, t⟩ w ⟨b', r⟩ h
  obtain ⟨hrun, -⟩ := reads_name.mp (reads_of_run h)
  exact hrun.eq_append

theorem Verbatim.of_text {m : Scan Text} (h : m.Verbatim) {c c' : Cursor} {a : Answer}
    (hrun : (Answer.text <$> m).run c = .ok a c') :
    a = .text ((c.source.take c'.offset).drop c.offset) := by
  rw [map_eq_pure_bind, run_bind_eq_ok] at hrun
  obtain ⟨w, c₁, hw, hpure⟩ := hrun
  obtain ⟨rfl, rfl⟩ := Outcome.ok.inj hpure
  rw [Cursor.slice_source (le_of_run_ok hw) (h _ _ _ hw)]

end Scan

namespace Operation

/-- The steps that give the text they take. -/
def givesText : Operation → Bool
  | readWhile _ | space | commas | separators | name _ => true
  | _ => false

variable {d : Dialect} {c c' : Cursor} {o : Operation} {a : Answer}

/-- **A step that gives the text it takes** gives what lies between the two places. -/
theorem eq_slice_of_givesText (ho : o.givesText = true) (h : (o.reader d).run c = .ok a c') :
    a = .text ((c.source.take c'.offset).drop c.offset) := by
  cases o with
  | readWhile p => exact (Scan.verbatim_readWhile p).of_text h
  | space => exact (Scan.verbatim_readWhile isSpace).of_text h
  | commas => exact (Scan.verbatim_readWhile isComma).of_text h
  | separators => exact (Scan.verbatim_readWhile isSeparator).of_text h
  | name what => exact (Scan.verbatim_name what).of_text h
  | _ => cases ho

/-! ## Sessions -/

/-- Where a session ends. -/
def stop (d : Dialect) (os : List Operation) (c : Cursor) : Cursor :=
  os.foldl (fun c o => ((o.reader d).run c).cursor) c

theorem stop_append_singleton (d : Dialect) (os : List Operation) (o : Operation) (c : Cursor) :
    stop d (os ++ [o]) c = ((o.reader d).run (stop d os c)).cursor := by
  rw [stop, List.foldl_append]
  rfl

/-- **A session goes on from where it stopped**, also after a step that failed. -/
theorem session_append_singleton (d : Dialect) (os : List Operation) (o : Operation) (c : Cursor) :
    (session d (os ++ [o]) c).1 = (session d os c).1 ++ [(o.reader d).run (stop d os c)] := by
  induction os generalizing c with
  | nil => rfl
  | cons o' os ih =>
    rw [List.cons_append, session, session]
    exact congrArg _ (ih _)

/-- **A session moves forward in one text.** -/
theorem le_stop (d : Dialect) (os : List Operation) (c : Cursor) : c ≤ stop d os c := by
  induction os generalizing c with
  | nil => exact c.le_refl
  | cons o os ih => exact Cursor.le_trans ((o.reader d).le_run c) (ih _)

theorem marks_stop (d : Dialect) (os : List Operation) (source : Text) :
    (stop d os (Cursor.start source)).position.Marks source := by
  have h := (stop d os (Cursor.start source)).marks_position
  rwa [(le_stop d os (Cursor.start source)).1] at h

/-- **Positions in sessions.**  Whatever steps were done before, a step starts where the last one
stopped and does not move back; the position then marks a place of the text; a step that gives the
text it takes gives what lies between the places before and after it; and line and column order the
positions that any two sessions reach in a text as their offsets do. -/
theorem session_positions (d d' : Dialect) (source : Text) (os os' : List Operation)
    (o : Operation) :
    let before := stop d os (Cursor.start source)
    let outcome := (o.reader d).run before
    let after := stop d (os ++ [o]) (Cursor.start source)
    let other := stop d' os' (Cursor.start source)
    (session d (os ++ [o]) (Cursor.start source)).1 =
        (session d os (Cursor.start source)).1 ++ [outcome] ∧
      after = outcome.cursor ∧
      before.position.Marks source ∧
      after.position.Marks source ∧
      before.position.offset ≤ after.position.offset ∧
      (o.givesText = true → ∀ a, outcome = .ok a after →
        a = .text ((source.take after.position.offset).drop before.position.offset)) ∧
      before.position.byLine other.position =
        compare before.position.offset other.position.offset := by
  intro before outcome after other
  have hafter : after = outcome.cursor := stop_append_singleton d os o _
  refine ⟨session_append_singleton d os o _, hafter, marks_stop d os source,
    marks_stop d _ source, ?_, fun ho a ha => ?_,
    (marks_stop d os source).byLine_eq (marks_stop d' os' source)⟩
  · rw [Cursor.offset_position, Cursor.offset_position, hafter]
    exact ((o.reader d).le_run before).2
  · have hsource : before.source = source := (le_stop d os (Cursor.start source)).1
    rw [Cursor.offset_position, Cursor.offset_position, ← hsource]
    exact eq_slice_of_givesText ho ha

/-- A name on the second line, read after a keyword that was not there. -/
theorem session_positions_name :
    let before := stop .standard [.keyword "struct".toList, .space] (.start "pub\nab c".toList)
    givesText (.name "a name".toList) = true ∧
      ∃ after, (reader .standard (.name "a name".toList)).run before =
          .ok (.text "ab".toList) after ∧
        before.position = ⟨4, 2, 1, by decide, by decide⟩ ∧
        after.position = ⟨6, 2, 3, by decide, by decide⟩ ∧
        Answer.text "ab".toList = .text (("pub\nab c".toList.take 6).drop 4) := by
  have hgives : givesText (.name "a name".toList) = true := rfl
  have h := session_positions .standard .standard "pub\nab c".toList
    [.keyword "struct".toList, .space] [.next] (.name "a name".toList)
  exact ⟨hgives, _, rfl, rfl, rfl, h.2.2.2.2.2.1 hgives _ rfl⟩

end Operation

end ErrorCatalog
