import ErrorCatalog.Proofs.Interface.Sections

/-!
# Proofs/Interface/Documentation — what a documentation block says

A block has one line for each line of the text it documents, behind a margin and a star, and it is
closed by the two characters that escaping keeps out of it.  `Comment.ofBlock?` reads a block: the
escape is undone (`unescape_escape`) and each line gives back its own, of which only the blanks at
its end are lost, since escaping neither joins lines (`lines_escape`) nor touches their ends
(`trimRight_escape`).
-/

namespace ErrorCatalog

namespace Comment

variable {indent l t a b : Text} {c : Char} {ls : List Text}

/-! ## Reading blocks -/

/-- The text without the backslash between a star and a slash. -/
def unescape : Text → Text
  | '*' :: '\\' :: '/' :: rest => '*' :: '/' :: unescape rest
  | c :: rest => c :: unescape rest
  | [] => []

/-- **What a line of a block says**: what stands behind the margin, the star and a space, or nothing
if the line ends with the star. -/
def ofLine? (indent l : Text) : Option Text :=
  if l = indent ++ " *".toList then some []
  else (l.dropPrefix? (indent ++ " * ".toList)).map unescape

/-- **What a block says**, without its first line and its last. -/
def ofBlock? (indent t : Text) : Option Text :=
  ((Text.lines t).tail.dropLast.mapM (ofLine? indent)).map Text.unlines

/-! ## The escape -/

/-- What the two characters that close a comment are escaped to. -/
def escapedClose : Text := ['*', '\\', '/']

theorem escape_cons (h : ¬ (c = '*' ∧ t.head? = some '/')) : escape (c :: t) = c :: escape t := by
  rw [escape]
  rintro rest rfl rfl
  exact h ⟨rfl, rfl⟩

/-- Texts are escaped apart unless a slash comes first in the second. -/
theorem escape_append (hb : b.head? ≠ some '/') : escape (a ++ b) = escape a ++ escape b := by
  fun_induction escape a with
  | case1 rest ih => rw [List.cons_append, List.cons_append, escape, ih]; rfl
  | case2 c rest hnot ih =>
    rw [List.cons_append, escape_cons, ih]
    · rfl
    · rintro ⟨rfl, hhead⟩
      cases rest with
      | nil => exact hb hhead
      | cons d rest => exact hnot rest rfl (congrArg (· :: rest) (Option.some.inj hhead))
  | case3 => rfl

theorem not_mem_escape (hc : c ≠ '\\') (ht : c ∉ t) : c ∉ escape t := by
  fun_induction escape t with
  | case1 rest ih => simp_all
  | case2 d rest hnot ih => simp_all
  | case3 => exact ht

theorem getLast?_escape (t : Text) : (escape t).getLast? = t.getLast? := by
  fun_induction escape t with
  | case1 rest ih => simp [List.getLast?_cons, ih]
  | case2 d rest hnot ih => simp [List.getLast?_cons, ih]
  | case3 => rfl

theorem unescape_cons (h : ¬ escapedClose <+: c :: t) : unescape (c :: t) = c :: unescape t := by
  rw [unescape]
  rintro rest rfl rfl
  exact h ⟨rest, rfl⟩

/-- **Escaping is undone**, unless the text already has the escape in it. -/
theorem unescape_escape (h : ¬ escapedClose <:+: t) : unescape (escape t) = t := by
  fun_induction escape t with
  | case1 rest ih =>
    rw [unescape, ih fun hrest => h (hrest.trans ((List.suffix_cons ..).trans
      (List.suffix_cons ..)).isInfix)]
  | case2 c rest hnot ih =>
    have hrest : ¬ escapedClose <:+: rest := fun hrest =>
      h (hrest.trans (List.suffix_cons ..).isInfix)
    rw [unescape_cons, ih hrest]
    -- An escape at the front of the escaped text stood there before.
    rintro ⟨r, hr⟩
    obtain ⟨rfl, hbehind⟩ := List.cons.inj hr
    have hslash : (escape rest).head? = some '\\' := congrArg List.head? hbehind.symm
    rw [head?_escape, List.head?_eq_some_iff] at hslash
    obtain ⟨rest', rfl⟩ := hslash
    rw [escape_cons (by simp)] at hbehind
    have hclose : (escape rest').head? = some '/' :=
      congrArg List.head? (List.cons.inj hbehind).2.symm
    rw [head?_escape, List.head?_eq_some_iff] at hclose
    obtain ⟨rest'', rfl⟩ := hclose
    exact h (List.prefix_append escapedClose rest'').isInfix
  | case3 => rfl

/-! ### Lines -/

theorem escape_unlines (ls : List Text) :
    escape (Text.unlines ls) = Text.unlines (ls.map escape) := by
  induction ls with
  | nil => rfl
  | cons l ls ih =>
    by_cases hls : ls = []
    · subst hls
      simp [Text.unlines]
    · rw [Text.unlines, intercalate_cons hls, List.append_assoc, List.singleton_append,
        escape_append (by simp), escape_cons (by simp), ← Text.unlines, ih, List.map_cons,
        Text.unlines, Text.unlines, intercalate_cons (by simpa using hls)]
      simp

/-- **Escaping keeps the lines apart.** -/
theorem lines_escape (t : Text) : Text.lines (escape t) = (Text.lines t).map escape := by
  have hlines : ∀ l ∈ (Text.lines t).map escape, '\n' ∉ l := by
    intro l hl
    obtain ⟨l, hmem, rfl⟩ := List.mem_map.mp hl
    exact not_mem_escape (by decide) (Text.not_mem_of_mem_pieces hmem)
  have hne : (Text.lines t).map escape ≠ [] :=
    mt List.map_eq_nil_iff.mp (Text.pieces_ne_nil '\n' t)
  have htext : Text.unlines (Text.lines t) = t := Text.intercalate_pieces '\n' t
  rw [← Text.lines_unlines hlines hne, ← escape_unlines, htext]

/-- **Escaping leaves the end of a text alone**, where the blanks are. -/
theorem trimRight_escape (t : Text) : Text.trimRight (escape t) = escape (Text.trimRight t) := by
  induction t using List.reverseRecOn with
  | nil => rfl
  | append_singleton u c ih =>
    by_cases hc : isBlank c = true
    · have hslash : [c].head? ≠ some '/' := by
        rintro ⟨⟩
        exact absurd hc (by decide)
      have hsingle : escape [c] = [c] := escape_cons (by simp)
      have hleft : Text.trimRight (escape u ++ [c]) = Text.trimRight (escape u) :=
        List.rdropWhile_concat_pos isBlank _ c hc
      have hright : Text.trimRight (u ++ [c]) = Text.trimRight u :=
        List.rdropWhile_concat_pos isBlank u c hc
      rw [escape_append hslash, hsingle, hleft, hright, ih]
    · have hright : Text.trimRight (u ++ [c]) = u ++ [c] :=
        List.rdropWhile_concat_neg isBlank u c hc
      rw [hright]
      refine List.rdropWhile_eq_self_iff.mpr fun hne => ?_
      have hlast := getLast?_escape (u ++ [c])
      rw [List.getLast?_concat, List.getLast?_eq_some_getLast hne, Option.some_inj] at hlast
      rwa [hlast]

/-! ## Blocks -/

/-- A line is trimmed up to what it documents, or else up to its star. -/
theorem line_eq (indent t : Text) : line indent t =
    if Text.trimRight t = [] then indent ++ " *".toList
    else indent ++ " * ".toList ++ Text.trimRight t := by
  have hstar : (indent ++ " * ".toList).reverse.dropWhile isBlank =
      (indent ++ " *".toList).reverse := by
    simp [isBlank, blankRanges]
  rw [line, Text.trimRight, Text.trimRight, List.reverse_append, List.dropWhile_append, hstar]
  split
  · next h =>
    rw [if_pos (by rw [List.isEmpty_iff.mp h]; rfl), List.reverse_reverse]
  · next h =>
    rw [if_neg (by simpa using h), List.reverse_append, List.reverse_reverse]

/-- **A line of a block gives back its own**, without the blanks at its end. -/
theorem ofLine?_line (indent : Text) (h : ¬ escapedClose <:+: l) :
    ofLine? indent (line indent (escape l)) = some (Text.trimRight l) := by
  have hempty : escape (Text.trimRight l) = [] ↔ Text.trimRight l = [] := by
    rw [← List.head?_eq_none_iff, head?_escape, List.head?_eq_none_iff]
  rw [line_eq, trimRight_escape]
  by_cases hl : Text.trimRight l = []
  · rw [if_pos (hempty.mpr hl), ofLine?, if_pos rfl, hl]
  · have hmark : indent ++ " * ".toList ++ escape (Text.trimRight l) ≠ indent ++ " *".toList := by
      intro heq
      rw [List.append_assoc, List.append_right_inj] at heq
      exact absurd (congrArg List.length heq) (by simp)
    have hback : unescape (escape (Text.trimRight l)) = Text.trimRight l :=
      unescape_escape fun hmem => h (hmem.trans (List.rdropWhile_prefix isBlank l).isInfix)
    rw [if_neg (mt hempty.mp hl), ofLine?, if_neg hmark,
      List.dropPrefix?_append_of_beq _ (beq_self_eq_true _), Option.map_some, hback]

theorem block_tail_dropLast (indent t : Text) : (block indent t).tail.dropLast =
    (Text.lines t).map fun l => line indent (escape l) := by
  rw [block, List.cons_append, List.tail_cons, List.dropLast_concat, lines_escape, List.map_map]
  rfl

theorem noClose_append_of_not_mem (ha : '*' ∉ a) (hb : NoClose b) : NoClose (a ++ b) := by
  induction a with
  | nil => exact hb
  | cons c a ih =>
    rw [List.mem_cons, not_or] at ha
    obtain ⟨hc, ha⟩ := ha
    exact noClose_cons.mpr ⟨fun hclose => hc hclose.1.symm, ih ha⟩

/-- **Behind a text without the two characters that close a comment** they come at once, and nothing
comes behind them. -/
theorem append_close_eq_iff (ha : NoClose a) {p q : Text} :
    a ++ ['*', '/'] = p ++ ['*', '/'] ++ q ↔ p = a ∧ q = [] := by
  constructor
  · intro h
    obtain rfl | ⟨q, x, rfl⟩ := List.eq_nil_or_concat q
    · rw [List.append_nil, List.append_left_inj] at h
      exact ⟨h.symm, rfl⟩
    · have hslash : a ++ ['*'] ++ ['/'] = p ++ ['*', '/'] ++ q ++ [x] := by simpa using h
      have hstar := (List.append_inj' hslash rfl).1
      obtain rfl | ⟨q, y, rfl⟩ := List.eq_nil_or_concat q
      · have hlast := congrArg List.getLast? hstar
        simp at hlast
      · rw [List.concat_eq_append, ← List.append_assoc] at hstar
        exact absurd ⟨p, q, (List.append_inj' hstar rfl).1.symm⟩ ha
  · rintro ⟨rfl, rfl⟩
    rw [List.append_nil]

/-- A block up to the two characters that close it. -/
theorem unlines_block (indent t : Text) : Text.unlines (block indent t) =
    indent ++ ("/*".toList ++ blockBody indent t) ++ ['*', '/'] := by
  have hne : block indent t ≠ [] := by simp [block]
  have hended := Text.unlines_append hne
  rw [ended_block, List.append_left_inj] at hended
  rw [hended, List.append_assoc indent]
  rfl

theorem noClose_front (h : IsMargin indent) (t : Text) :
    NoClose (indent ++ ("/*".toList ++ blockBody indent t)) := by
  refine noClose_append_of_not_mem (fun hmem => ?_) ?_
  · obtain h | h := h '*' hmem <;> cases h
  · change NoClose ('/' :: '*' :: blockBody indent t)
    simpa [noClose_cons, blockBody] using h.noClose_blockBody t

/-- **A block keeps the text that it documents.**  It has the two characters that close a comment
once, at its end; and unless the text has the escape of these in it, reading the block gives back
the text line by line, without the blanks at the ends of its lines. -/
theorem ofBlock?_block (indent m : Text) (hindent : IsMargin indent)
    (hm : ¬ escapedClose <:+: m) :
    let text := Text.unlines (block indent m)
    (∃ front, ∀ a b, text = a ++ ['*', '/'] ++ b ↔ a = front ∧ b = []) ∧
      ofBlock? indent text = some (Text.unlines ((Text.lines m).map Text.trimRight)) ∧
      Text.lines (Text.unlines ((Text.lines m).map Text.trimRight)) =
        (Text.lines m).map Text.trimRight := by
  intro text
  have hfeed : '\n' ∉ indent := fun hmem => by
    obtain h | h := hindent '\n' hmem <;> cases h
  have hlines : Text.lines text = block indent m :=
    Text.lines_unlines (fun l hl => (fillsLine_of_mem_block hfeed hl).line_feed_not_mem)
      (by simp [block])
  have hread : ∀ l ∈ Text.lines m, ofLine? indent (line indent (escape l)) =
      some (Text.trimRight l) := fun l hl =>
    ofLine?_line indent fun hmem => hm (hmem.trans (Text.infix_of_mem_lines hl))
  refine ⟨⟨indent ++ ("/*".toList ++ blockBody indent m), fun a b => ?_⟩, ?_, ?_⟩
  · have htext : text = _ := unlines_block indent m
    rw [htext]
    exact append_close_eq_iff (noClose_front hindent m)
  · rw [ofBlock?, hlines, block_tail_dropLast, mapM_map_eq_some hread, Option.map_some]
  · refine Text.lines_unlines (fun l hl => ?_) (mt List.map_eq_nil_iff.mp (Text.pieces_ne_nil _ m))
    obtain ⟨l, hmem, rfl⟩ := List.mem_map.mp hl
    exact fun h => Text.not_mem_of_mem_pieces hmem ((List.rdropWhile_prefix isBlank l).subset h)

/-- A text with the close behind another star, a slash that comes first on its line, a no-break
space and other blanks at the ends of lines, and a star and a backslash at its own end. -/
theorem ofBlock?_block_stars :
    let indent : Text := ['\t', ' ']
    let m : Text := "**/ a\u00A0\n/ \n \t\n*\\".toList
    let text := Text.unlines (block indent m)
    IsMargin indent ∧ ¬ escapedClose <:+: m ∧
      (∃ front, ∀ a b, text = a ++ ['*', '/'] ++ b ↔ a = front ∧ b = []) ∧
      ofBlock? indent text = some "**/ a\n/\n\n*\\".toList ∧
      Text.lines "**/ a\n/\n\n*\\".toList = (Text.lines m).map Text.trimRight := by
  intro indent m text
  have hindent : IsMargin indent :=
    List.forall_mem_cons.mpr ⟨.inr rfl, List.forall_mem_singleton.mpr (.inl rfl)⟩
  have hm : ¬ escapedClose <:+: m := by decide
  exact ⟨hindent, hm, ofBlock?_block indent m hindent hm⟩

end Comment

end ErrorCatalog
