import ErrorCatalog.Json
import ErrorCatalog.Interface.Module
import ErrorCatalog.Proofs.Interface.Lines
import Mathlib.Data.List.DropRight

/-!
# Proofs/Interface/Erasure — generated code without its comments and literals

`erase` reads generated code from left to right and drops block comments and string literals; what
is left is the code itself.  `Erases a x` says that `a` starts and ends in the code and that `x` is
left of it, whatever comes behind: such texts can be put together (`Erases.append`).  A text stays
inside the literal or the comment it is written in, since the one escapes every character that
could end it (`erases_literal`) and the other cannot hold the two characters that do
(`erases_comment`, `noClose_escape`).
-/

namespace ErrorCatalog

/-- What a place in generated code belongs to. -/
inductive Zone
  | code
  | comment
  | literal
  deriving DecidableEq, Repr

/-- **What is left of a text without comments and literals**, and the zone in which it ends; `z` is
the zone in which it starts.  A backslash in a literal takes the next character with it. -/
def erase : Zone → Text → Text × Zone
  | .code, '/' :: '*' :: t => erase .comment t
  | .code, '\x22' :: t => erase .literal t
  | .code, c :: t => ((erase .code t).1.cons c, (erase .code t).2)
  | .comment, '*' :: '/' :: t => erase .code t
  | .comment, _ :: t => erase .comment t
  | .literal, '\\' :: _ :: t => erase .literal t
  | .literal, '\x22' :: t => erase .code t
  | .literal, _ :: t => erase .literal t
  | z, [] => ([], z)

/-- From the code, `a` leads back to the code and leaves `x`. -/
def Erases (a x : Text) : Prop :=
  ∀ t, erase .code (a ++ t) = (x ++ (erase .code t).1, (erase .code t).2)

/-! ## Code -/

/-- No comment and no literal starts in the text. -/
def IsPlain (t : Text) : Prop := ∀ c ∈ t, c ≠ '/' ∧ c ≠ '\x22'

instance (t : Text) : Decidable (IsPlain t) :=
  List.decidableBAll (fun c => c ≠ '/' ∧ c ≠ '\x22') t

section Code

variable {a b x y t : Text} {c : Char}

theorem erases_nil : Erases [] [] := fun _ => rfl

theorem Erases.append (ha : Erases a x) (hb : Erases b y) : Erases (a ++ b) (x ++ y) := by
  intro t
  rw [List.append_assoc, ha, hb, List.append_assoc]

theorem erase_code_cons (hc : c ≠ '/' ∧ c ≠ '\x22') (t : Text) :
    erase .code (c :: t) = (c :: (erase .code t).1, (erase .code t).2) := by
  rw [erase]
  · exact fun _ h => absurd h hc.1
  · exact hc.2

theorem IsPlain.erases (h : IsPlain a) : Erases a a := by
  induction a with
  | nil => exact erases_nil
  | cons c a ih =>
    have htail := ih fun b hb => h b (List.mem_cons_of_mem c hb)
    intro t
    rw [List.cons_append, erase_code_cons (h c (List.mem_cons_self ..)), htail]
    rfl

end Code

/-! ## Literals -/

section Literal

variable {c : Char} {t : Text}

theorem erase_literal_cons (hc : c ≠ '\x22' ∧ c ≠ '\\') (t : Text) :
    erase .literal (c :: t) = erase .literal t := by
  rw [erase]
  · exact fun _ _ h => absurd h hc.2
  · exact hc.1

theorem erase_literal_append (h : ∀ c ∈ t, c ≠ '\x22' ∧ c ≠ '\\') (r : Text) :
    erase .literal (t ++ r) = erase .literal r := by
  induction t with
  | nil => rfl
  | cons c t ih =>
    rw [List.cons_append, erase_literal_cons (h c (List.mem_cons_self ..)),
      ih fun b hb => h b (List.mem_cons_of_mem c hb)]

/-- A code of a control character is written in digits. -/
theorem hex_ne_of_lt {n : Nat} (h : n < 0x20) : ∀ c ∈ Text.hex 4 n, c ≠ '\x22' ∧ c ≠ '\\' := by
  have hall : ∀ n < 0x20, (Text.hex 4 n).all (fun c => c ≠ '\x22' ∧ c ≠ '\\') = true := by
    decide +kernel
  simpa using hall n h

/-- **No character of a text ends the literal it is written in.** -/
theorem erase_literal_escapeChar (c : Char) (t : Text) :
    erase .literal (Json.escapeChar c ++ t) = erase .literal t := by
  unfold Json.escapeChar
  split_ifs with hquote hslash _ _ _ _ _ hcontrol
  -- A backslash and a letter or mark are passed over together.
  any_goals rfl
  · rw [List.append_assoc]
    exact erase_literal_append (hex_ne_of_lt hcontrol) t
  · exact erase_literal_cons ⟨hquote, hslash⟩ t

/-- **A literal ends where it is closed.** -/
theorem erases_literal (t : Text) : Erases (Json.literal t) [] := by
  have hcontent : ∀ r,
      erase .literal (t.flatMap Json.escapeChar ++ '\x22' :: r) = erase .code r := by
    intro r
    induction t with
    | nil => rfl
    | cons c t ih => rw [List.flatMap_cons, List.append_assoc, erase_literal_escapeChar, ih]
  intro r
  rw [Json.literal, List.cons_append, List.cons_append, List.append_assoc]
  exact hcontent r

end Literal

/-! ## Comments -/

/-- The two characters that end a comment do not stand in the text. -/
def NoClose (t : Text) : Prop := ¬ ['*', '/'] <:+: t

section Comment

variable {c : Char} {a b t : Text}

theorem noClose_nil : NoClose [] := by simp [NoClose]

theorem noClose_cons : NoClose (c :: t) ↔ ¬ (c = '*' ∧ t.head? = some '/') ∧ NoClose t := by
  have hfront : ['*', '/'] <+: c :: t ↔ c = '*' ∧ t.head? = some '/' := by
    rw [List.cons_prefix_cons, List.singleton_prefix_iff_head?_eq_some, eq_comm]
  rw [NoClose, List.infix_cons_iff, hfront, not_or, NoClose]

theorem noClose_append (hb : b.head? ≠ some '/') : NoClose (a ++ b) ↔ NoClose a ∧ NoClose b := by
  induction a with
  | nil => simp [noClose_nil]
  | cons c a ih =>
    have hhead : (a ++ b).head? = some '/' ↔ a.head? = some '/' := by
      cases a with
      | nil => simpa using hb
      | cons d a => rfl
    rw [List.cons_append, noClose_cons, noClose_cons, ih, hhead, and_assoc]

theorem NoClose.mono (h : NoClose t) (ha : a <:+: t) : NoClose a := fun hc => h (hc.trans ha)

theorem erase_comment_cons (hc : ¬ (c = '*' ∧ t.head? = some '/')) :
    erase .comment (c :: t) = erase .comment t := by
  rw [erase]
  rintro r rfl rfl
  exact hc ⟨rfl, rfl⟩

/-- **A comment that the two characters do not stand in ends where it is closed.** -/
theorem erase_comment_append (h : NoClose t) (r : Text) :
    erase .comment (t ++ '*' :: '/' :: r) = erase .code r := by
  induction t with
  | nil => rfl
  | cons c t ih =>
    obtain ⟨hc, ht⟩ := noClose_cons.mp h
    rw [List.cons_append, erase_comment_cons, ih ht]
    rintro ⟨rfl, hhead⟩
    cases t with
    | nil => simp at hhead
    | cons d t => exact hc ⟨rfl, hhead⟩

theorem erases_comment (h : NoClose t) : Erases ("/*".toList ++ t ++ "*/".toList) [] := by
  intro r
  rw [List.append_assoc, List.append_assoc]
  exact erase_comment_append h r

/-! ## Documentation blocks -/

theorem head?_escape (t : Text) : (Comment.escape t).head? = t.head? := by
  fun_cases Comment.escape t <;> rfl

/-- **An escaped text does not end a comment.** -/
theorem noClose_escape (t : Text) : NoClose (Comment.escape t) := by
  fun_induction Comment.escape t with
  | case1 rest ih => simp [noClose_cons, ih]
  | case2 c rest hnot ih =>
    refine noClose_cons.mpr ⟨?_, ih⟩
    rw [head?_escape]
    rintro ⟨rfl, hhead⟩
    obtain ⟨r, rfl⟩ := List.head?_eq_some_iff.mp hhead
    exact hnot r rfl rfl
  | case3 => exact noClose_nil

/-- A margin is made of blanks and tabs. -/
def IsMargin (indent : Text) : Prop := ∀ c ∈ indent, c = ' ' ∨ c = '\t'

section Margin

variable {indent l : Text} {ls : List Text}

theorem IsMargin.append (h : IsMargin a) (h' : IsMargin b) : IsMargin (a ++ b) :=
  List.forall_mem_append.mpr ⟨h, h'⟩

theorem isMargin_nil : IsMargin [] := List.forall_mem_nil _

theorem IsMargin.isPlain (h : IsMargin indent) : IsPlain indent := by
  intro c hc
  obtain rfl | rfl := h c hc <;> decide

theorem IsMargin.noClose (h : IsMargin indent) : NoClose indent := by
  intro hc
  obtain h | h := h '*' (hc.subset (List.mem_cons_self ..)) <;> cases h

theorem IsMargin.head?_ne (h : IsMargin indent) : indent.head? ≠ some '/' := fun hhead => by
  obtain h | h := h '/' (List.mem_of_mem_head? hhead) <;> cases h

theorem IsMargin.noClose_line (h : IsMargin indent) (hl : NoClose l) :
    NoClose (Comment.line indent l) := by
  have hmark : NoClose (" * ".toList ++ l) := by
    change NoClose (' ' :: '*' :: ' ' :: l)
    simp [noClose_cons, hl]
  have hbody : NoClose (indent ++ (" * ".toList ++ l)) :=
    (noClose_append (by simp)).mpr ⟨h.noClose, hmark⟩
  rw [Comment.line, List.append_assoc]
  exact hbody.mono (List.rdropWhile_prefix isBlank _).isInfix

theorem noClose_ended (h : ∀ l ∈ ls, NoClose l) : NoClose (Text.ended ls) := by
  induction ls with
  | nil => exact noClose_nil
  | cons l ls ih =>
    have htail := ih fun l' hl => h l' (List.mem_cons_of_mem l hl)
    rw [Text.ended_cons, List.append_assoc, noClose_append (by simp)]
    exact ⟨h l (List.mem_cons_self ..), noClose_cons.mpr ⟨by simp, htail⟩⟩

/-- What a block holds between the characters that open it and those that close it. -/
def blockBody (indent t : Text) : Text :=
  "*\n".toList ++ (Text.ended ((Text.lines (Comment.escape t)).map (Comment.line indent)) ++
    (indent ++ [' ']))

theorem ended_block (indent t : Text) : Text.ended (Comment.block indent t) =
    indent ++ ("/*".toList ++ blockBody indent t ++ "*/".toList) ++ ['\n'] := by
  simp [Comment.block, blockBody, Text.ended_append, Text.ended_cons]

/-- **A block is not ended by what it documents.** -/
theorem IsMargin.noClose_blockBody (h : IsMargin indent) (t : Text) :
    NoClose (blockBody indent t) := by
  have hlines : ∀ l ∈ (Text.lines (Comment.escape t)).map (Comment.line indent), NoClose l := by
    intro l hl
    obtain ⟨piece, hpiece, rfl⟩ := List.mem_map.mp hl
    exact h.noClose_line ((noClose_escape t).mono (Text.infix_of_mem_lines hpiece))
  have hmargin : IsMargin (indent ++ [' ']) := h.append (List.forall_mem_singleton.mpr (.inl rfl))
  have hend : NoClose (Text.ended ((Text.lines (Comment.escape t)).map (Comment.line indent)) ++
      (indent ++ [' '])) :=
    (noClose_append hmargin.head?_ne).mpr ⟨noClose_ended hlines, hmargin.noClose⟩
  change NoClose ('*' :: '\n' :: _)
  simpa [noClose_cons] using hend

/-- **A documentation block leaves its margin only**, whatever it documents. -/
theorem IsMargin.erases_block (h : IsMargin indent) (t : Text) :
    Erases (Text.ended (Comment.block indent t)) (indent ++ ['\n']) := by
  have hcomment := erases_comment (h.noClose_blockBody t)
  have hbreak : Erases ['\n'] ['\n'] := IsPlain.erases (by decide)
  have hblock := (h.isPlain.erases.append hcomment).append hbreak
  rwa [List.append_nil, ← ended_block] at hblock

end Margin

end Comment

end ErrorCatalog
