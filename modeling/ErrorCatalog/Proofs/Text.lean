import ErrorCatalog.Text.Basic
import Mathlib.Data.List.Infix

/-!
# Proofs/Text — texts put together

What a text put together from pieces is made of, that the pieces of a text make up the text, and
that such a text is cut into its pieces again.  Written with the line feed behind it instead of
between it and the next (`Text.ended`), a line does not depend on its neighbours.
-/

namespace ErrorCatalog

/-! ## Texts between separators -/

section Intercalate

variable {α : Type} {sep : List α} {x y : List α} {ls : List (List α)}

theorem intercalate_cons (h : ls ≠ []) :
    List.intercalate sep (x :: ls) = x ++ sep ++ List.intercalate sep ls := by
  obtain ⟨y, ls, rfl⟩ := List.exists_cons_of_ne_nil h
  rw [List.intercalate_cons_cons]

/-- **What ends a separator may end the items instead.** -/
theorem intercalate_append_eq (s sep : List α) (h : ls ≠ []) :
    List.intercalate (s ++ sep) ls ++ s = List.intercalate sep (ls.map (· ++ s)) := by
  induction ls with
  | nil => exact absurd rfl h
  | cons x ls ih =>
    by_cases hls : ls = []
    · subst hls
      simp
    · rw [intercalate_cons hls, List.map_cons, intercalate_cons (by simpa using hls), ← ih hls]
      simp only [List.append_assoc]

theorem intercalate_nil_left (ls : List (List α)) : List.intercalate [] ls = ls.flatten := by
  induction ls with
  | nil => rfl
  | cons x ls ih =>
    by_cases hls : ls = []
    · subst hls
      simp
    · rw [intercalate_cons hls, ih, List.append_nil, List.flatten_cons]

theorem intercalate_concat (sep x : List α) (ls : List (List α)) :
    List.intercalate sep (ls ++ [x]) = ls.flatMap (· ++ sep) ++ x := by
  induction ls with
  | nil => simp
  | cons y ls ih =>
    rw [List.cons_append, intercalate_cons (by simp), ih, List.flatMap_cons, ← List.append_assoc]

theorem intercalate_cons_eq (sep x : List α) (ls : List (List α)) :
    List.intercalate sep (x :: ls) = x ++ ls.flatMap (sep ++ ·) := by
  induction ls generalizing x with
  | nil => simp
  | cons y ls ih => rw [intercalate_cons (by simp), ih, List.flatMap_cons]; simp

theorem infix_intercalate (sep : List α) (h : x ∈ ls) : x <:+: List.intercalate sep ls := by
  induction ls with
  | nil => cases h
  | cons y ls ih =>
    by_cases hls : ls = []
    · subst hls
      obtain rfl := List.mem_singleton.mp h
      rw [List.intercalate_singleton]
    · rw [intercalate_cons hls]
      obtain rfl | hx := List.mem_cons.mp h
      · exact ((List.prefix_append _ _).trans (List.prefix_append _ _)).isInfix
      · exact (ih hx).trans (List.suffix_append _ _).isInfix

theorem mem_intercalate {a : α} (h : a ∈ List.intercalate sep ls) :
    a ∈ sep ∨ ∃ l ∈ ls, a ∈ l := by
  induction ls with
  | nil => cases h
  | cons x ls ih =>
    by_cases hls : ls = []
    · subst hls
      rw [List.intercalate_singleton] at h
      exact .inr ⟨x, List.mem_cons_self .., h⟩
    · rw [intercalate_cons hls, List.append_assoc, List.mem_append, List.mem_append] at h
      obtain hx | hsep | hrest := h
      · exact .inr ⟨x, List.mem_cons_self .., hx⟩
      · exact .inl hsep
      · refine (ih hrest).imp_right fun ⟨l, hl, ha⟩ => ⟨l, List.mem_cons_of_mem x hl, ha⟩

theorem filter_intercalate (p : α → Bool) : (List.intercalate sep ls).filter p =
    List.intercalate (sep.filter p) (ls.map (·.filter p)) := by
  induction ls with
  | nil => rfl
  | cons x ls ih =>
    by_cases hls : ls = []
    · subst hls
      simp
    · rw [intercalate_cons hls, List.map_cons, intercalate_cons (by simpa using hls), ← ih,
        List.filter_append, List.filter_append]

end Intercalate

/-! ## Lines -/

namespace Text

variable {ls ls' : List Text} {l t : Text} {mark c : Char}

/-- Pieces are what splitting at the mark gives. -/
theorem pieces_eq_splitOn (mark : Char) (t : Text) : pieces mark t = t.splitOn mark := by
  induction t with
  | nil => rfl
  | cons c t ih =>
    rw [pieces, List.splitOn_cons_eq_if_modifyHead, ih]
    by_cases hc : c = mark
    · rw [if_pos hc, if_pos (beq_iff_eq.mpr hc)]
    · rw [if_neg hc, if_neg (mt beq_iff_eq.mp hc)]
      obtain ⟨piece, more, heq⟩ := List.exists_cons_of_ne_nil (List.splitOn_ne_nil mark t)
      rw [heq, List.modifyHead_cons]

theorem pieces_ne_nil (mark : Char) (t : Text) : pieces mark t ≠ [] := by
  rw [pieces_eq_splitOn]
  exact List.splitOn_ne_nil mark t

/-- **The pieces of a text make up the text.** -/
theorem intercalate_pieces (mark : Char) (t : Text) :
    List.intercalate [mark] (pieces mark t) = t := by
  rw [pieces_eq_splitOn, List.intercalate_splitOn]

/-- **A text made up of pieces is cut into them**, if the mark is in none. -/
theorem pieces_intercalate (hls : ∀ l ∈ ls, mark ∉ l) (h : ls ≠ []) :
    pieces mark (List.intercalate [mark] ls) = ls := by
  rw [pieces_eq_splitOn, List.splitOn_intercalate mark hls h]

theorem pieces_append_cons (l t : Text) :
    pieces mark (l ++ mark :: t) = pieces mark l ++ pieces mark t := by
  simp only [pieces_eq_splitOn, List.splitOn_append_cons_self]

theorem pieces_of_not_mem (h : mark ∉ l) : pieces mark l = [l] := by
  rw [pieces_eq_splitOn, List.splitOn_eq_singleton h]

/-- **No piece holds the mark.** -/
theorem not_mem_of_mem_pieces (h : l ∈ pieces mark t) : mark ∉ l := by
  fun_induction pieces mark t generalizing l with
  | case1 =>
    obtain rfl := List.mem_singleton.mp h
    exact List.not_mem_nil
  | case2 rest ih =>
    obtain rfl | h := List.mem_cons.mp h
    · exact List.not_mem_nil
    · exact ih h
  | case3 c rest hc hnil ih => exact absurd hnil (pieces_ne_nil mark rest)
  | case4 c rest hc piece more heq ih =>
    rw [heq] at ih
    obtain rfl | h := List.mem_cons.mp h
    · exact List.not_mem_cons_of_ne_of_not_mem (Ne.symm hc) (ih (List.mem_cons_self ..))
    · exact ih (List.mem_cons_of_mem piece h)

/-- A line of a text is part of it. -/
theorem infix_of_mem_lines (h : l ∈ lines t) : l <:+: t := by
  have := infix_intercalate ['\n'] h
  rwa [lines, intercalate_pieces] at this

/-- The lines, each with a line feed behind it. -/
def ended (ls : List Text) : Text := (ls.map (· ++ ['\n'])).flatten

@[simp] theorem ended_nil : ended [] = [] := rfl

theorem ended_cons : ended (l :: ls) = l ++ ['\n'] ++ ended ls := rfl

theorem ended_append : ended (ls ++ ls') = ended ls ++ ended ls' := by
  rw [ended, List.map_append, List.flatten_append]
  rfl

/-- The last line feed ends the lines. -/
theorem unlines_append (h : ls ≠ []) : unlines ls ++ ['\n'] = ended ls := by
  have := intercalate_append_eq ['\n'] [] h
  rwa [List.append_nil, intercalate_nil_left] at this

/-- Lines in front of others are ended. -/
theorem unlines_append_eq (h : ls' ≠ []) : unlines (ls ++ ls') = ended ls ++ unlines ls' := by
  induction ls with
  | nil => rfl
  | cons l ls ih =>
    rw [List.cons_append, unlines, intercalate_cons (by simp [h]), ← unlines, ih, ended_cons,
      List.append_assoc (l ++ ['\n'])]

theorem lines_unlines (hls : ∀ l ∈ ls, '\n' ∉ l) (h : ls ≠ []) : lines (unlines ls) = ls :=
  pieces_intercalate hls h

/-- **Ended lines come off the front of a text.** -/
theorem lines_ended_append (hls : ∀ l ∈ ls, '\n' ∉ l) (t : Text) :
    lines (ended ls ++ t) = ls ++ lines t := by
  induction ls with
  | nil => rfl
  | cons l ls ih =>
    obtain ⟨hl, hls⟩ := List.forall_mem_cons.mp hls
    have hcons : ended (l :: ls) ++ t = l ++ '\n' :: (ended ls ++ t) := by
      simp [ended_cons]
    rw [hcons, lines, pieces_append_cons, pieces_of_not_mem hl, ← lines, ih hls]
    rfl

end Text

end ErrorCatalog
