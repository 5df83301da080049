import ErrorCatalog.Proofs.Scan.Closing

/-!
# Proofs/Scan/DocComment — what is read as documentation, and what is left

Documentation is space and lines that open with the marker, in any number (`Language.comment`).  The
grammar lets a run of space end anywhere, so such a front of a text can be cut short; what is read is
the one that goes on as far as it can, and it stands for its lines that are not blank
(`Scan.reads_docComment_iff`).  Fronts follow one another (`Language.comment.append`), so the one that
is read holds all others, reading on behind it finds nothing, and blank lines may be put in or left
out.

    comment  :=  W (marker line W)*
-/

namespace ErrorCatalog

namespace Language

/-! ## Documentation as a phrase -/

/-- Some space, of which more may follow. -/
def gap : Phrase := fun t r => ∃ w, t = w ++ r ∧ ∀ c ∈ w, isSpace c = true

/-- The text `line`, up to a line feed or to the end of the text. -/
def restOfLine (line : Text) : Phrase := fun t r => Run (· ≠ '\n') t line r

/-- **Documentation**: lines behind the marker, with space before, between and behind them. -/
def comment (m : Marker) : List Text → Phrase
  | [] => gap
  | line :: lines => seq [gap, text m.text, restOfLine line, comment m lines]

variable {m : Marker} {t s r : Text} {lines lines' : List Text}

theorem gap_refl (t : Text) : gap t t := ⟨[], rfl, List.forall_mem_nil _⟩

theorem gap.trans (h : gap t s) (h' : gap s r) : gap t r := by
  obtain ⟨w, rfl, hw⟩ := h
  obtain ⟨v, rfl, hv⟩ := h'
  exact ⟨w ++ v, (List.append_assoc ..).symm, List.forall_mem_append.mpr ⟨hw, hv⟩⟩

theorem gap.comment (h : gap t s) (h' : comment m lines s r) : comment m lines t r := by
  cases lines with
  | nil => exact h.trans h'
  | cons line lines =>
    obtain ⟨_, hgap, hline⟩ := h'
    exact ⟨_, h.trans hgap, hline⟩

/-- **Documentation goes on with more of it.** -/
theorem comment.append (h : comment m lines t s) (h' : comment m lines' s r) :
    comment m (lines ++ lines') t r := by
  induction lines generalizing t with
  | nil => exact gap.comment h h'
  | cons line lines ih =>
    obtain ⟨_, hgap, _, hmark, _, hline, _, hrest, rfl⟩ := h
    exact ⟨_, hgap, _, hmark, _, hline, r, ih hrest, rfl⟩

theorem comment.exists_eq_append (h : comment m lines t r) : ∃ w, t = w ++ r := by
  induction lines generalizing t with
  | nil =>
    obtain ⟨w, rfl, -⟩ := h
    exact ⟨w, rfl⟩
  | cons line lines ih =>
    obtain ⟨_, ⟨w, rfl, -⟩, _, rfl, _, hline, _, hrest, rfl⟩ := h
    obtain ⟨v, rfl⟩ := ih hrest
    exact ⟨w ++ (m.text ++ (line ++ v)), by simp [hline.eq_append]⟩

theorem comment.forall_not_mem (h : comment m lines t r) : ∀ line ∈ lines, '\n' ∉ line := by
  induction lines generalizing t with
  | nil => exact List.forall_mem_nil _
  | cons line lines ih =>
    obtain ⟨_, -, _, -, _, hline, _, hrest, rfl⟩ := h
    exact List.forall_mem_cons.mpr
      ⟨fun hmem => of_decide_eq_true (hline.all _ hmem) rfl, ih hrest⟩

end Language

namespace Scan

variable {m : Marker} {t s r x : Text} {lines xs : List Text}

/-! ## What is read -/

/-- A marker is not part of the space before it. -/
theorem stops_of_text_marker (h : Language.text m.text t s) : Stops isSpace t := by
  obtain rfl : t = m.text ++ s := h
  exact (stops_append m.text_ne_nil).mpr (Language.stops_marker m)

/-- Lines that are read are documentation, and no space is left behind them. -/
theorem exists_comment_of_repeats (h : Repeats (docLine m) (NoMarker m) t xs r)
    (ht : Stops isSpace t) :
    ∃ lines, xs = lines.map Text.trim ∧ Language.comment m lines t r ∧ Stops isSpace r := by
  induction h with
  | nil t => exact ⟨[], rfl, Language.gap_refl t, ht⟩
  | cons hgo head tail ih =>
    obtain ⟨line, s₁, w, rfl, hline, hw, rfl⟩ := reads_docLine.mp ⟨hgo, head⟩
    obtain ⟨lines, rfl, hrest, hr⟩ := ih hw.stops
    have hgap : Language.gap s₁ _ := ⟨w, hw.eq_append, hw.all⟩
    exact ⟨line :: lines, rfl,
      ⟨_, Language.gap_refl _, _, rfl, _, hline, _, hgap.comment hrest, rfl⟩, hr⟩

/-- **Documentation is read line by line** once nothing of it is left: what looked like a cut in the
space between two lines is none, since a line follows it. -/
theorem exists_repeats_of_comment (h : Language.comment m lines t r) (hr : Stops isSpace r) :
    ∃ w s, Run isSpace t w s ∧ Repeats (docLine m) (NoMarker m) s (lines.map Text.trim) r := by
  induction lines generalizing t with
  | nil =>
    obtain ⟨w, rfl, hw⟩ := h
    exact ⟨w, r, ⟨rfl, hw, hr⟩, .nil r⟩
  | cons line lines ih =>
    obtain ⟨s, ⟨w, rfl, hw⟩, s₁, hmark, s₂, hline, _, hrest, rfl⟩ := h
    obtain ⟨v, s₃, hv, hrow⟩ := ih hrest
    refine ⟨w, s, ⟨rfl, hw, stops_of_text_marker hmark⟩, ?_⟩
    obtain rfl : s = m.text ++ s₁ := hmark
    obtain rfl := hline.eq_append
    obtain ⟨hgo, hread⟩ := reads_docLine.mpr ⟨line, s₂, v, rfl, hline, hv, rfl⟩
    exact .cons hgo hread hrow

/-- **What is read is documentation that goes on as far as it can**, and it stands for its lines. -/
theorem reads_docComment_iff : (docComment m).Reads t x r ↔
    ∃ lines, x = docOfLines (lines.map Text.trim) ∧ Language.comment m lines t r ∧
      Stops isSpace r ∧ NoMarker m r := by
  simp only [docComment_eq, map_eq_pure_bind, reads_bind, reads_space, reads_docLines, reads_pure]
  constructor
  · rintro ⟨w, s, hw, xs, _, ⟨hrow, hmark⟩, rfl, rfl⟩
    obtain ⟨lines, rfl, hcomment, hr⟩ := exists_comment_of_repeats hrow hw.stops
    have hgap : Language.gap t s := ⟨w, hw.eq_append, hw.all⟩
    exact ⟨lines, rfl, hgap.comment hcomment, hr, hmark⟩
  · rintro ⟨lines, rfl, hcomment, hr, hmark⟩
    obtain ⟨w, s, hw, hrow⟩ := exists_repeats_of_comment hcomment hr
    exact ⟨w, s, hw, _, r, ⟨hrow, hmark⟩, rfl, rfl⟩

instance (m : Marker) : Onward (docComment m) := by
  rw [docComment_eq, map_eq_pure_bind]
  infer_instance

/-- **There is documentation before every text**, if only an empty one. -/
theorem exists_reads_docComment (m : Marker) (t : Text) : ∃ x r, (docComment m).Reads t x r := by
  obtain h | ⟨u, k, hf⟩ := Onward.settled (m := docComment m) t
  · exact h
  · simp only [docComment_eq, map_eq_pure_bind, fails_bind, not_fails_space, not_fails_docLines,
      not_fails_pure, false_or, and_false, exists_false] at hf

/-- **Nothing is documentation that is not read.** -/
theorem Reads.isSuffix_of_comment (h : (docComment m).Reads t x r)
    (hs : Language.comment m lines t s) : r <:+ s := by
  obtain ⟨x', r', hread⟩ := exists_reads_docComment m s
  obtain ⟨lines', -, hcomment, hr, hmark⟩ := reads_docComment_iff.mp hread
  have hall := reads_docComment_iff.mpr ⟨_, rfl, hs.append hcomment, hr, hmark⟩
  obtain ⟨-, rfl⟩ := h.unique hall
  obtain ⟨v, rfl⟩ := hcomment.exists_eq_append
  exact List.suffix_append v r

/-! ## Blank lines -/

/-- Lines that are blank leave no trace in the documentation. -/
theorem docOfLines_blank {before blank after : List Text} (h : ∀ line ∈ blank, Text.trim line = []) :
    docOfLines ((before ++ (blank ++ after)).map Text.trim) =
      docOfLines ((before ++ after).map Text.trim) := by
  have hblank : (blank.map Text.trim).filter (· ≠ []) = [] := by
    refine List.filter_eq_nil_iff.mpr fun line hline => ?_
    obtain ⟨raw, hraw, rfl⟩ := List.mem_map.mp hline
    simp [h raw hraw]
  simp only [docOfLines, List.map_append, List.filter_append, hblank, List.nil_append]

/-- **Blank lines may be put into documentation and left out of it**, wherever what comes before them
is documentation with and without them. -/
theorem reads_insert_blank_iff {u v z : Text} {before blank : List Text}
    (hwithout : Language.comment m before (u ++ v) v)
    (hwith : Language.comment m before (u ++ (z ++ v)) (z ++ v))
    (hz : Language.comment m blank (z ++ v) v) (hblank : ∀ line ∈ blank, Text.trim line = []) :
    (docComment m).Reads (u ++ (z ++ v)) x r ↔ (docComment m).Reads (u ++ v) x r := by
  obtain ⟨x', r', hread⟩ := exists_reads_docComment m v
  obtain ⟨after, -, hafter, hr, hmark⟩ := reads_docComment_iff.mp hread
  have hshort : (docComment m).Reads (u ++ v) _ r' :=
    reads_docComment_iff.mpr ⟨_, rfl, hwithout.append hafter, hr, hmark⟩
  have hlong : (docComment m).Reads (u ++ (z ++ v)) _ r' := reads_docComment_iff.mpr
    ⟨_, (docOfLines_blank hblank).symm, hwith.append (hz.append hafter), hr, hmark⟩
  constructor
  · intro h
    obtain ⟨rfl, rfl⟩ := h.unique hlong
    exact hshort
  · intro h
    obtain ⟨rfl, rfl⟩ := h.unique hshort
    exact hlong

/-! ## Documentation at a place -/

/-- **Documentation is read exactly, and all of it.**  Wherever a reader stands, reading
documentation succeeds.  The front `w` that it takes is documentation, every front that is
documentation is part of `w`, and behind `w` comes neither space nor the marker, so that there is
nothing more to read.  The value is made of the lines in `w`: trimmed, without those that are then
empty, and with one space between two of them.  It is one line and trimmed itself.  It stays the
same, and so does what is left, if lines that are blank are put in or left out. -/
theorem docComment_exact (m : Marker) (c : Cursor) :
    ∃ w r lines doc, c.ahead = w ++ r ∧ (docComment m).run c = .ok doc (c.advance w.length) ∧
      Language.comment m lines (w ++ r) r ∧
      (∀ w' r' lines', c.ahead = w' ++ r' → Language.comment m lines' (w' ++ r') r' → w' <+: w) ∧
      Stops isSpace r ∧ ¬ m.text <+: r ∧
      (docComment m).run (c.advance w.length) = .ok [] (c.advance w.length) ∧
      doc = List.intercalate [' '] ((lines.map Text.trim).filter (· ≠ [])) ∧
      '\n' ∉ doc ∧ Text.trim doc = doc ∧
      ∀ u z v before blank, Language.comment m before (u ++ v) v →
        Language.comment m before (u ++ (z ++ v)) (z ++ v) → Language.comment m blank (z ++ v) v →
        (∀ line ∈ blank, Text.trim line = []) →
        (c.ahead = u ++ v →
          ∃ c', (docComment m).run ⟨c.behind, u ++ (z ++ v)⟩ = .ok doc c' ∧ c'.ahead = r) ∧
        (c.ahead = u ++ (z ++ v) →
          ∃ c', (docComment m).run ⟨c.behind, u ++ v⟩ = .ok doc c' ∧ c'.ahead = r) := by
  obtain ⟨b, t⟩ := c
  obtain ⟨doc, r, hread⟩ := exists_reads_docComment m t
  obtain ⟨lines, rfl, hcomment, hr, hmark⟩ := reads_docComment_iff.mp hread
  obtain ⟨w, rfl⟩ := hcomment.exists_eq_append
  obtain ⟨hline, htrimmed⟩ := Language.oneLine_docOfLines hcomment.forall_not_mem
  refine ⟨w, r, lines, _, rfl, hread.run_eq b, hcomment, ?_, hr, hmark, ?_, rfl, hline,
    Text.trim_eq_self_iff.mpr htrimmed, ?_⟩
  · intro w' r' lines' ht hcomment'
    obtain ⟨v, rfl⟩ := hread.isSuffix_of_comment (ht ▸ hcomment')
    have hw : w = w' ++ v := List.append_cancel_right (ht.trans (List.append_assoc ..).symm)
    exact hw ▸ List.prefix_append w' v
  · have hagain : (docComment m).Reads ([] ++ r) [] r :=
      reads_docComment_iff.mpr ⟨[], rfl, Language.gap_refl r, hr, hmark⟩
    rw [Cursor.advance_append]
    exact hagain.run_eq _
  · intro u z v before blank hwithout hwith hz hblank
    constructor
    · intro ht
      change w ++ r = u ++ v at ht
      obtain ⟨b', hrun⟩ := (reads_insert_blank_iff hwithout hwith hz hblank).mpr (ht ▸ hread) b
      exact ⟨_, hrun, rfl⟩
    · intro ht
      change w ++ r = u ++ (z ++ v) at ht
      obtain ⟨b', hrun⟩ := (reads_insert_blank_iff hwithout hwith hz hblank).mp (ht ▸ hread) b
      exact ⟨_, hrun, rfl⟩

end Scan

end ErrorCatalog
