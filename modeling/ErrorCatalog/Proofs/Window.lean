import ErrorCatalog.Cursor

/-!
# Proofs/Window — which characters a window shows

A window is meant to show the characters whose index is within its radius of the offset, wherever the
offset lies (`Text.between`).  It does unless its end is a place before the front of the text: such an
end counts back from the end of the text instead, and the window is then empty only if it reaches
past the front again (`Text.window_eq_between_iff`).  A reader stands in its text, so the text around
it is always what it should be (`Cursor.surroundings_eq`).
-/

namespace ErrorCatalog

namespace Text

variable {t : Text} {start stop offset radius : Int}

/-- **The characters whose index is at least `start` and less than `stop`.** -/
def between (t : Text) (start stop : Int) : Text :=
  (t.zipIdx.filter fun c => start ≤ c.2 ∧ c.2 < stop).map Prod.fst

/-- Counted from `n` on, too, the characters between two indices are a piece of the text. -/
theorem map_filter_zipIdx (t : Text) (n : Nat) (start stop : Int) :
    ((t.zipIdx n).filter fun c => start ≤ c.2 ∧ c.2 < stop).map Prod.fst =
      (t.take (stop - n).toNat).drop (start - n).toNat := by
  induction t generalizing n with
  | nil => simp
  | cons c t ih =>
    rw [List.zipIdx_cons]
    by_cases hstop : (n : Int) < stop
    · have htake : (stop - n).toNat = (stop - (n + 1 : Nat)).toNat + 1 := by omega
      rw [htake, List.take_succ_cons]
      by_cases hstart : start ≤ (n : Int)
      · have hdrop : (start - n).toNat = 0 := by omega
        have hdrop' : (start - (n + 1 : Nat)).toNat = 0 := by omega
        rw [List.filter_cons_of_pos (by simpa using ⟨hstart, hstop⟩), List.map_cons, ih, hdrop,
          hdrop', List.drop_zero, List.drop_zero]
      · have hdrop : (start - n).toNat = (start - (n + 1 : Nat)).toNat + 1 := by omega
        rw [List.filter_cons_of_neg (by simpa using fun h => absurd h hstart), ih, hdrop,
          List.drop_succ_cons]
    · have htake : (stop - n).toNat = 0 := by omega
      have htake' : (stop - (n + 1 : Nat)).toNat = 0 := by omega
      rw [List.filter_cons_of_neg (by simpa using fun _ => Int.not_lt.mp hstop), ih, htake, htake',
        List.take_zero, List.drop_nil, List.take_zero, List.drop_nil]

theorem between_eq (t : Text) (start stop : Int) :
    t.between start stop = (t.take stop.toNat).drop start.toNat := by
  rw [between, map_filter_zipIdx, Int.natCast_zero, Int.sub_zero, Int.sub_zero]

/-- **Nothing lies between two indices** that both lie before the text, or both behind it. -/
theorem between_eq_nil (h : stop ≤ 0 ∨ t.length ≤ start) : t.between start stop = [] := by
  rw [between_eq, List.drop_eq_nil_iff, List.length_take]
  omega

/-- **A window whose end is no place before the text** shows what it should. -/
theorem window_eq_between (h : 0 ≤ offset + radius) :
    t.window offset radius = t.between (offset - radius) (offset + radius) := by
  have hstart : (max (offset - radius) 0).toNat = (offset - radius).toNat := by omega
  rw [window, slice, if_neg (Int.not_lt.mpr h), hstart, between_eq]

/-- A window whose end is a place before the text starts at the front, and its end counts back from
the end of the text. -/
theorem window_of_neg (hradius : 0 ≤ radius) (h : offset + radius < 0) :
    t.window offset radius = t.take (offset + radius + t.length).toNat := by
  have hstart : (max (offset - radius) 0).toNat = 0 := by omega
  rw [window, slice, if_pos h, hstart, List.drop_zero]

/-- **A window shows the characters within its radius** just if its end is no place before the text,
or one so far before it that counting back from the end of the text reaches its front.  Where none
are within its radius, it is empty under the same condition. -/
theorem window_eq_between_iff (t : Text) (offset radius : Int) (hradius : 0 ≤ radius) :
    (t.window offset radius = t.between (offset - radius) (offset + radius) ↔
        0 ≤ offset + radius ∨ offset + radius + t.length ≤ 0) ∧
      (offset + radius ≤ 0 ∨ t.length ≤ offset - radius →
        (t.window offset radius = [] ↔
          0 ≤ offset + radius ∨ offset + radius + t.length ≤ 0)) := by
  have hiff : t.window offset radius = t.between (offset - radius) (offset + radius) ↔
      0 ≤ offset + radius ∨ offset + radius + t.length ≤ 0 := by
    by_cases h : 0 ≤ offset + radius
    · exact iff_of_true (window_eq_between h) (.inl h)
    · have hneg : offset + radius < 0 := Int.not_le.mp h
      rw [window_of_neg hradius hneg, between_eq_nil (.inl (Int.le_of_lt hneg)),
        List.take_eq_nil_iff]
      constructor
      · rintro (hcount | rfl)
        · exact .inr (by omega)
        · exact .inr (by simpa using Int.le_of_lt hneg)
      · rintro (hend | hcount)
        · exact absurd hend h
        · exact .inl (by omega)
  exact ⟨hiff, fun hout => by rw [← hiff, between_eq_nil hout]⟩

/-- A window so far before the text that counting back from the end of the text passes its front. -/
theorem window_eq_between_iff_far : (0 : Int) ≤ 5 ∧
    (window "ab".toList (-10) 5 = between "ab".toList (-10 - 5) (-10 + 5) ↔
        (0 : Int) ≤ -10 + 5 ∨ -10 + 5 + ("ab".toList.length : Int) ≤ 0) ∧
      ((-10 : Int) + 5 ≤ 0 ∨ ("ab".toList.length : Int) ≤ -10 - 5 →
        (window "ab".toList (-10) 5 = [] ↔
          (0 : Int) ≤ -10 + 5 ∨ -10 + 5 + ("ab".toList.length : Int) ≤ 0)) :=
  ⟨by decide, window_eq_between_iff "ab".toList (-10) 5 (by decide)⟩

/-- All of this window lies before the text, and yet it shows the front of the text. -/
theorem window_before_text : window "ab".toList (-6) 5 = "a".toList ∧
    between "ab".toList (-6 - 5) (-6 + 5) = [] := by decide

end Text

/-- **The text around a reader** is what lies within the radius of its place. -/
theorem Cursor.surroundings_eq (c : Cursor) : c.surroundings =
    c.source.between (c.offset - Text.windowRadius) (c.offset + Text.windowRadius) :=
  Text.window_eq_between (Int.add_nonneg (Int.natCast_nonneg _) (by decide))

end ErrorCatalog
