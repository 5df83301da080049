import ErrorCatalog.Proofs.Except
import ErrorCatalog.Proofs.Scan.Termination

/-!
# Proofs/Scan/Residue — what a step that fails leaves behind

A step that fails has read some of the text, and its error points at a place of what it has read or
at the end of that.  The two differ for one reason only: a keyword is compared with the whole word
that stands in its place, and the error points back into that word.  `Compares` says which keywords
a reader comes to on its way and where, so the place of an error can be told from the word that was
found (`Operation.position_of_error`).
-/

namespace ErrorCatalog

/-- **The common start of two texts is the longest**: it starts with whatever both start with. -/
theorem isPrefix_commonStart_iff {u s t : Text} :
    u <+: commonStart s t ↔ u <+: s ∧ u <+: t := by
  constructor
  · intro h
    exact ⟨h.trans (commonStart_isPrefix s t).1, h.trans (commonStart_isPrefix s t).2⟩
  · rintro ⟨⟨v, rfl⟩, ⟨w, rfl⟩⟩
    rw [commonStart_append]
    exact List.prefix_append _ _

namespace Scan

variable {α β : Type} {m : Scan α} {f : α → Scan β} {c c' c₁ q : Cursor} {word : Text}
  {e : ScanError}

/-! ## Keywords on the way -/

/-- **The keywords a reader comes to**: on its way from `c` the reader compares the keyword `word`
with the word that stands at `q`. -/
inductive Compares : {α : Type} → Scan α → Cursor → Text → Cursor → Prop
  /-- The keyword itself. -/
  | here (word : Text) (c : Cursor) : Compares (keyword word) c word c
  /-- In the first of two readers. -/
  | first {α β : Type} {m : Scan α} {f : α → Scan β} {c q : Cursor} {word : Text}
      (h : Compares m c word q) : Compares (m >>= f) c word q
  /-- In the second, which starts where the first has stopped. -/
  | second {α β : Type} {m : Scan α} {f : α → Scan β} {c c' q : Cursor} {word : Text} {x : α}
      (hrun : m.run c = .ok x c') (h : Compares (f x) c' word q) : Compares (m >>= f) c word q
  /-- In a turn of a loop, after the turns before it. -/
  | turn {α : Type} {item : Scan α} {stop : Cursor → Bool} {hp : item.Progresses stop}
      {c c' q : Cursor} {word : Text} {xs : List α} (turns : Turns item stop c xs c')
      (hgo : stop c' = false) (h : Compares item c' word q) : Compares (many item stop hp) c word q

/-- A keyword is compared no earlier than where the reader starts. -/
theorem Compares.le (h : m.Compares c word q) : c ≤ q := by
  induction h with
  | here word c => exact c.le_refl
  | first _ ih => exact ih
  | second hrun _ ih => exact Cursor.le_trans (le_of_run_ok hrun) ih
  | @turn _ _ _ hp _ _ _ _ _ turns _ _ ih => exact Cursor.le_trans (turns.offset_le hp).1 ih

/-! ## How readers break off -/

/-- **How a reader that starts at `c` breaks off**, with its error and the cursor where it stops. -/
inductive Breaks (m : Scan α) (c : Cursor) : ScanError → Cursor → Prop
  /-- What is wanted does not come next. -/
  | missing (wanted : Expectation) (c' : Cursor) : Breaks m c (missing wanted c') c'
  /-- A keyword that the reader comes to is compared with another word. -/
  | otherWord {word : Text} {q c' : Cursor} {e : ScanError} (hcompares : m.Compares c word q)
      (hfound : q.ahead.takeWhile isNameChar ≠ []) (hrun : (keyword word).run q = .error e c') :
      Breaks m c e c'

/-- A reader whose errors can be traced to what it asks for. -/
class Traced (m : Scan α) : Prop where
  breaks : ∀ {c c' e}, m.run c = .error e c' → m.Breaks c e c'

/-- What breaks off a part breaks off the whole, if the whole comes to the keywords of the part. -/
theorem Breaks.mono {n : Scan β} (h : m.Breaks c e c')
    (hn : ∀ {word q}, m.Compares c word q → n.Compares c₁ word q) : n.Breaks c₁ e c' := by
  cases h with
  | missing wanted c' => exact .missing wanted c'
  | otherWord hcompares hfound hrun => exact .otherWord (hn hcompares) hfound hrun

/-! ### Tokens -/

instance (x : α) : Traced (pure x : Scan α) := ⟨nofun⟩

instance (n : Nat) : Traced (skip n) := ⟨nofun⟩

instance (p : Char → Bool) : Traced (readWhile p) := ⟨nofun⟩

instance : Traced space := inferInstanceAs (Traced (readWhile isSpace))

instance : Traced commas := inferInstanceAs (Traced (readWhile isComma))

instance : Traced separators := inferInstanceAs (Traced (readWhile isSeparator))

instance : Traced literalContent := ⟨nofun⟩

instance (ch : Char) : Traced (expect ch) where
  breaks {c c' e} h := by
    simp only [expect] at h
    split at h
    · cases h
    · cases h
      exact .missing _ c

instance (what : Text) : Traced (name what) where
  breaks {c c' e} h := by
    simp only [name] at h
    split at h
    · cases h
      exact .missing _ c
    · cases h

instance (word : Text) : Traced (keyword word) where
  breaks {c c' e} h := by
    by_cases hfound : c.ahead.takeWhile isNameChar = []
    · simp only [keyword, hfound] at h
      split at h
      · cases h
      · cases h
        exact .missing _ c
    · exact .otherWord (.here word c) hfound h

/-! ### Readers in turn and loops -/

instance [hm : Traced m] [hf : ∀ x, Traced (f x)] : Traced (m >>= f) where
  breaks {c c' e} h := by
    rw [run_bind] at h
    split at h
    · next hx => exact ((hf _).breaks h).mono fun hc => .second hx hc
    · next hx =>
      cases h
      exact (hm.breaks hx).mono .first

/-- The same for a second reader that does not use the value, so that the search for an instance
does not go below a binder. -/
instance (priority := 1100) {n : Scan β} [Traced m] [Traced n] : Traced (m >>= fun _ => n) :=
  inferInstance

instance [hm : Traced m] {stop : Cursor → Bool} {hp : m.Progresses stop} :
    Traced (many m stop hp) where
  breaks {c c' e} h := by
    have hend : LoopEnds m stop c (harvest m stop hp c) := (loopEnds_iff hp).mpr rfl
    change (harvest m stop hp c).outcome = _ at h
    generalize harvest m stop hp c = loop at h hend
    cases hend with
    | stopped => cases h
    | failed turns hgo hrun =>
      cases h
      exact (hm.breaks hrun).mono fun hc => .turn turns hgo hc

instance [Traced m] {hc : m.Consumes} {close : Char} : Traced (manyUntil m hc close) :=
  inferInstanceAs (Traced (many m _ _))

/-! ### Rules -/

instance : Traced literal := by
  unfold literal
  infer_instance

instance : Traced param := by
  unfold param
  infer_instance

instance : Traced paramItem := by
  unfold paramItem
  infer_instance

instance : Traced tag := by
  unfold tag
  infer_instance

instance (mk : Marker) : Traced (docLine mk) := by
  unfold docLine
  infer_instance

instance (mk : Marker) : Traced (docComment mk) := by
  unfold docComment
  infer_instance

instance (d : Dialect) : Traced (field d) := by
  unfold field
  infer_instance

instance (d : Dialect) : Traced (record d) := by
  unfold record
  infer_instance

instance (d : Dialect) : Traced (entry d) := by
  unfold entry
  infer_instance

/-- All entries are one loop behind the space in front. -/
theorem entries_eq_bind (d : Dialect) : entries d = space >>= fun _ =>
    many (entry d) Cursor.atEnd ((consumes_entry d).progresses _) := ext fun _ => rfl

instance (d : Dialect) : Traced (entries d) := by
  rw [entries_eq_bind]
  infer_instance

/-- A reader breaks off in these ways whatever becomes of its value. -/
theorem breaks_of_map [Traced m] {g : α → β} (h : (g <$> m).run c = .error e c') :
    (g <$> m).Breaks c e c' := by
  rw [map_eq_pure_bind] at h ⊢
  exact Traced.breaks h

/-! ## Where the error points -/

/-- **The error of a keyword points behind the longest start that the word found has in common with
it**, and the whole word has been read. -/
theorem place_of_otherWord (hfound : q.ahead.takeWhile isNameChar ≠ [])
    (h : (keyword word).run q = .error e c') : ∃ common rest,
      q.ahead.takeWhile isNameChar = common ++ rest ∧
        (∀ u, u <+: common ↔ u <+: common ++ rest ∧ u <+: word) ∧
        e.position = (q.advance common.length).position ∧
        c' = q.advance (common ++ rest).length := by
  obtain ⟨rest, hrest⟩ := (commonStart_isPrefix (q.ahead.takeWhile isNameChar) word).1
  refine ⟨_, rest, hrest.symm, fun u => by rw [hrest, isPrefix_commonStart_iff], ?_⟩
  rw [hrest]
  simp only [keyword] at h
  split at h
  · cases h
  · cases h
    rw [wrongWord, if_neg hfound]
    exact ⟨rfl, rfl⟩

/-- **From the place of an error to the cursor stand characters of names only.** -/
theorem Breaks.exists_place (h : m.Breaks c e c') (hle : c ≤ c') : ∃ (place : Cursor) (w : Text),
    c ≤ place ∧ place ≤ c' ∧ e.position = place.position ∧ place.ahead = w ++ c'.ahead ∧
      ∀ ch ∈ w, isNameChar ch = true := by
  cases h with
  | missing wanted c' =>
    exact ⟨c', [], hle, c'.le_refl, position_missing wanted _ _, rfl, List.forall_mem_nil _⟩
  | @otherWord word q c' e hcompares hfound hrun =>
    obtain ⟨common, rest, hsplit, -, hposition, rfl⟩ := place_of_otherWord hfound hrun
    have hword := run_takeWhile isNameChar q.ahead
    rw [hsplit] at hword
    refine ⟨q.advance common.length, rest, Cursor.le_trans hcompares.le (q.le_advance _), ?_,
      hposition, ?_, fun ch hch => hword.all ch (List.mem_append_right _ hch)⟩
    · refine ⟨by simp, ?_⟩
      rw [Cursor.offset_advance, Cursor.offset_advance, List.length_append]
      omega
    · rw [Cursor.ahead_advance, Cursor.ahead_advance, hword.eq_append, List.drop_left,
        List.append_assoc, List.drop_left]

/-- **A word in the place of a keyword** runs up to the cursor, and the error points into it. -/
theorem between_of_otherWord (hfound : q.ahead.takeWhile isNameChar ≠ [])
    (h : (keyword word).run q = .error e c') :
    (q.source.take c'.offset).drop q.offset = q.ahead.takeWhile isNameChar ∧
      ∃ common, (∀ u, u <+: common ↔ u <+: q.ahead.takeWhile isNameChar ∧ u <+: word) ∧
        e.position.offset = q.offset + common.length := by
  obtain ⟨common, rest, hsplit, hlongest, hposition, rfl⟩ := place_of_otherWord hfound h
  have hword := run_takeWhile isNameChar q.ahead
  rw [hsplit] at hword ⊢
  refine ⟨Cursor.slice_source (q.le_advance _) ?_, common, hlongest, ?_⟩
  · rw [Cursor.ahead_advance, hword.eq_append, List.drop_left]
  · have hlength := congrArg List.length hword.eq_append
    rw [List.length_append, List.length_append] at hlength
    rw [hposition, Cursor.offset_position, Cursor.offset_advance, Nat.min_eq_left (by omega)]

end Scan

/-- What lies ahead of a cursor is its text from there on. -/
theorem Cursor.drop_source (c : Cursor) : c.source.drop c.offset = c.ahead := by
  rw [source, offset, ← List.length_reverse, List.drop_left]

namespace Operation

variable {d : Dialect} {o : Operation} {before after : Cursor} {e : ScanError}

/-- **A step of a scanner breaks off at something it asks for.** -/
theorem breaks_of_isScanner (ho : o.isScanner = true)
    (h : (o.reader d).run before = .error e after) : (o.reader d).Breaks before e after := by
  cases o with
  | readWhile | expect | keyword | name | space | commas | separators | literal | param | tag
  | docComment | field | record | entries => exact Scan.breaks_of_map h
  | _ => cases ho

/-- **Where the error of a step points, and where it leaves the cursor.**  The error points at a
place of the text that the step has reached and not yet left behind, and from there to the cursor
stand characters of names only.  Either something is missing right at the cursor, or a keyword that
the step comes to was compared with another word: then that word, which runs from where the keyword
was expected up to the cursor, is a whole run of such characters, and the error points behind the
longest start it has in common with the keyword. -/
theorem position_of_error (d : Dialect) (o : Operation) (ho : o.isScanner = true)
    (before after : Cursor) (e : ScanError) (h : (o.reader d).run before = .error e after) :
    let source := before.source
    let between := fun i j => (source.take j).drop i
    after.source = source ∧
      before.offset ≤ e.position.offset ∧ e.position.offset ≤ after.offset ∧
      e.position = Position.start.advanceBy (source.take e.position.offset) ∧
      (∀ ch ∈ between e.position.offset after.offset, isNameChar ch = true) ∧
      ((e.position.offset = after.offset ∧ ∃ wanted, e = Scan.missing wanted after) ∨
        ∃ word q found common, (o.reader d).Compares before word q ∧
          (Scan.keyword word).run q = .error e after ∧
          found = between q.offset after.offset ∧ found ≠ [] ∧
          found = (source.drop q.offset).takeWhile isNameChar ∧
          (∀ u, u <+: common ↔ u <+: found ∧ u <+: word) ∧
          e.position.offset = q.offset + common.length) := by
  intro source between
  have hle : before ≤ after := Scan.le_of_run_error h
  have hbreaks := breaks_of_isScanner ho h
  obtain ⟨place, w, hplace, hafter, hposition, hw, hnames⟩ := hbreaks.exists_place hle
  have hoffset : e.position.offset = place.offset := by rw [hposition, Cursor.offset_position]
  have hsource : place.source = source := hplace.1
  refine ⟨hle.1, hoffset ▸ hplace.2, hoffset ▸ hafter.2, ?_, ?_, ?_⟩
  · rw [hoffset, ← hsource, Cursor.take_source, hposition, Cursor.position]
  · have hbetween : between place.offset after.offset = w := by
      change (source.take after.offset).drop place.offset = w
      rw [← hsource, Cursor.slice_source hafter hw]
    rwa [hoffset, hbetween]
  · cases hbreaks with
    | missing wanted after =>
      exact .inl ⟨by rw [Scan.position_missing wanted, ← Cursor.position, Cursor.offset_position],
        wanted, rfl⟩
    | @otherWord word q after e hcompares hfound hrun =>
      have hq : q.source = source := hcompares.le.1
      obtain ⟨hfound', common, hlongest, hplace'⟩ := Scan.between_of_otherWord hfound hrun
      refine .inr ⟨word, q, _, common, hcompares, hrun, ?_, hfound, ?_, hlongest, hplace'⟩
      · rw [← hfound', hq]
      · rw [← hq, Cursor.drop_source]

/-- A wrong word in the place of the second keyword of a record, behind a step that failed: the
error points at the fourth character of the word, and the cursor stands behind the sixth. -/
theorem position_of_error_strict :
    let source := "x pub strict A".toList
    let before := stop .standard [.expect '#', .next] (.start source)
    let between := fun i j => (source.take j).drop i
    isScanner .record = true ∧ ∃ e after, (reader .standard .record).run before = .error e after ∧
      before.offset = 1 ∧ e.position.offset = 9 ∧ after.offset = 12 ∧
      (∀ ch ∈ between 9 12, isNameChar ch = true) ∧
      ∃ word q found common, (reader .standard .record).Compares before word q ∧
        (Scan.keyword word).run q = .error e after ∧ found = between q.offset 12 ∧ found ≠ [] ∧
        found = (source.drop q.offset).takeWhile isNameChar ∧
        (∀ u, u <+: common ↔ u <+: found ∧ u <+: word) ∧ 9 = q.offset + common.length := by
  intro source before between
  have hscanner : isScanner .record = true := rfl
  have hposition : (fault? ((reader .standard .record).run before).result).map
      (·.position.offset) = some 9 := by decide +kernel
  have hafter : ((reader .standard .record).run before).cursor.offset = 12 := by decide +kernel
  cases hrun : (reader .standard .record).run before with
  | ok a after =>
    rw [hrun] at hposition
    cases hposition
  | error e after =>
    rw [hrun] at hposition hafter
    replace hposition : e.position.offset = 9 := Option.some.inj hposition
    replace hafter : after.offset = 12 := hafter
    obtain ⟨-, -, -, -, hnames, hplace⟩ := position_of_error _ _ hscanner before after e hrun
    rw [hposition, hafter] at hnames hplace
    obtain ⟨hplace, -⟩ | hword := hplace
    · cases hplace
    · exact ⟨hscanner, e, after, rfl, rfl, hposition, hafter, hnames, hword⟩

end Operation

end ErrorCatalog
