import ErrorCatalog.Proofs.Scan.Literal
import ErrorCatalog.Proofs.Scan.Repeat

/-!
# Proofs/Scan/Rule — the rules of the language, each without the space around it

The rules of `Scan/Entry` pass over space generously, often twice in one place.  Here each rule is
its core, which starts and ends with a token, between two runs that are skipped (`padded`), and a
list is a loop of padded cores with its closing character (`listed`).  The `…_eq` theorems say that
these are the same readers.
-/

namespace ErrorCatalog

namespace Scan

variable {α : Type}

/-! ## Space before and after -/

/-- **Skipping space twice is skipping it once.** -/
theorem space_space (m : Scan α) :
    (space >>= fun _ => space >>= fun _ => m) = space >>= fun _ => m := by
  refine ext fun ⟨b, t⟩ => ?_
  have hrun := run_takeWhile isSpace t
  have hagain := (reads_space.mpr hrun.stops.run).exists_run
  obtain ⟨w, -, hw⟩ := (reads_space.mpr hrun).exists_run
  obtain ⟨v, hv, hagain⟩ := hagain
  obtain rfl : v = [] := List.append_cancel_right (hv.symm.trans (List.nil_append _).symm)
  simp only [run_bind, hw, hagain, List.reverse_nil, List.nil_append]

theorem space_eq : space = readWhile isSpace := rfl

/-- `m` with the space before it. -/
def spaced (m : Scan α) : Scan α := space >>= fun _ => m

/-- `m` with the space before it and the run of the class `p` after it. -/
def padded (m : Scan α) (p : Char → Bool) : Scan α := do
  let x ← spaced m
  let _ ← readWhile p
  return x

theorem Consumes.spaced {m : Scan α} (h : m.Consumes) : (spaced m).Consumes := .of_bind _ fun _ => h

theorem Consumes.padded {m : Scan α} (h : m.Consumes) (p : Char → Bool) : (padded m p).Consumes :=
  h.spaced.bind _

/-- Items up to the character `close`, and the character itself. -/
def closed (item : Scan α) (h : item.Consumes) (close : Char) : Scan (List α) := do
  let xs ← manyUntil item h close
  expect close
  return xs

/-- A list: items between the characters `opening` and `close`. -/
def listed (opening : Char) (item : Scan α) (h : item.Consumes) (close : Char) :
    Scan (List α) := do
  expect opening
  let _ ← space
  closed item h close

instance {m : Scan α} [Onward m] : Onward (spaced m) := by
  unfold spaced
  infer_instance

instance {m : Scan α} [Onward m] {p : Char → Bool} : Onward (padded m p) := by
  unfold padded
  infer_instance

instance {item : Scan α} [Onward item] {h : item.Consumes} {close : Char} :
    Onward (closed item h close) := by
  unfold closed
  infer_instance

instance {opening close : Char} {item : Scan α} [Onward item] {h : item.Consumes} :
    Onward (listed opening item h close) := by
  unfold listed
  infer_instance

section Padded

variable {m : Scan α} [Onward m] {p : Char → Bool} {t u r : Text} {x : α} {k : DiagnosticKind}

theorem reads_spaced : (spaced m).Reads t x r ↔ ∃ w s, Run isSpace t w s ∧ m.Reads s x r := by
  simp only [spaced, reads_bind, reads_space]

/-- No space is skipped where there is none. -/
theorem reads_spaced_of_stops (ht : Stops isSpace t) :
    (spaced m).Reads t x r ↔ m.Reads t x r := by
  rw [reads_spaced]
  constructor
  · rintro ⟨w, s, hw, hx⟩
    obtain ⟨-, rfl⟩ := hw.unique ht.run
    exact hx
  · exact fun hx => ⟨[], t, ht.run, hx⟩

theorem fails_spaced : (spaced m).Fails t u k ↔ ∃ w s u', t = w ++ s ∧ u = w ++ u' ∧
    Run isSpace t w s ∧ m.Fails s u' k := by
  simp only [spaced, fails_bind, not_fails_space, reads_space, false_or]
  constructor
  · rintro ⟨w, w', s, u', ht, rfl, hspace, hu⟩
    obtain rfl : w = w' := List.append_cancel_right (hspace.eq_append.symm.trans ht)
    exact ⟨w, s, u', ht, rfl, hspace, hu⟩
  · rintro ⟨w, s, u', ht, rfl, hspace, hu⟩
    exact ⟨w, w, s, u', ht, rfl, hspace, hu⟩

/-- **A padded text goes on behind its token with a run of the class.** -/
theorem reads_padded : (padded m p).Reads t x r ↔
    ∃ w, (spaced m).Reads t x (w ++ r) ∧ Run p (w ++ r) w r := by
  simp only [padded, reads_bind, reads_readWhile, reads_pure]
  constructor
  · rintro ⟨_, _, hx, w, _, hw, rfl, rfl⟩
    obtain rfl := hw.eq_append
    exact ⟨w, hx, hw⟩
  · rintro ⟨w, hx, hw⟩
    exact ⟨x, _, hx, w, r, hw, rfl, rfl⟩

theorem fails_padded : (padded m p).Fails t u k ↔ (spaced m).Fails t u k := by
  simp only [padded, fails_bind, not_fails_readWhile, not_fails_pure, or_false, and_false,
    exists_false]

end Padded

section Closed

variable {item : Scan α} [Onward item] {h : item.Consumes} {close : Char} {t u r : Text}
  {xs : List α} {k : DiagnosticKind}

/-- **The items of a list go up to its closing character.** -/
theorem reads_closed : (closed item h close).Reads t xs r ↔
    Repeats item (·.head? = some close) t xs (close :: r) := by
  simp only [closed, reads_bind, reads_manyUntil, reads_expect, reads_pure]
  constructor
  · rintro ⟨_, _, ⟨hrow, -⟩, -, _, rfl, rfl, rfl⟩
    exact hrow
  · exact fun hrow => ⟨xs, _, ⟨hrow, rfl⟩, (), r, rfl, rfl, rfl⟩

/-- **A list fails in one of its items**: the loop ends before the closing character only. -/
theorem fails_closed : (closed item h close).Fails t u k ↔ ∃ xs w s u', t = w ++ s ∧ u = w ++ u' ∧
    Repeats item (·.head? = some close) t xs s ∧ s.head? ≠ some close ∧ item.Fails s u' k := by
  constructor
  · intro hf
    obtain hf | ⟨xs, w, s, u', -, -, hx, hf⟩ := fails_bind.mp hf
    · exact fails_manyUntil.mp hf
    · obtain ⟨-, hs⟩ := reads_manyUntil.mp hx
      obtain hf | ⟨_, _, _, _, -, -, -, hf⟩ := fails_bind.mp hf
      · exact absurd hs (fails_expect.mp hf).1
      · exact absurd hf not_fails_pure
  · exact fun hf => (fails_manyUntil.mpr hf).bind

end Closed

/-! ## Attributes -/

/-- The core of a parameter. -/
def paramCore : Scan Param := do
  let name ← name "parameter name".toList
  let _ ← separators
  expect '='
  let _ ← space
  let value ← quoted
  return { name, value }

theorem consumes_paramCore : paramCore.Consumes := (consumes_name _).bind _

theorem paramItem_eq : paramItem = padded paramCore isSeparator := by
  simp only [paramItem, param, padded, spaced, paramCore, literal_eq, separators, bind_assoc,
    pure_bind, space_space]

/-- The core of an attribute. -/
def tagCore : Scan Attribute := do
  expect '#'
  let _ ← space
  expect '['
  let _ ← space
  let name ← name "attribute name".toList
  let _ ← space
  let params ← listed '(' (padded paramCore isSeparator) (consumes_paramCore.padded _) ')'
  let _ ← space
  expect ']'
  return { name, params }

theorem tag_eq : tag = padded tagCore isSpace := by
  have hitem : ∀ h h', manyUntil paramItem h ')'
      = manyUntil (padded paramCore isSeparator) h' ')' := by
    rw [paramItem_eq]
    exact fun _ _ => rfl
  simp only [tag, padded, spaced, tagCore, listed, closed, space, bind_assoc, pure_bind,
    hitem _ (consumes_paramCore.padded _)]

/-! ## Documentation -/

/-- Does the marker not come next? -/
def NoMarker (m : Marker) (t : Text) : Prop := ¬ m.text <+: t

/-- The lines of documentation that come next. -/
def docLines (m : Marker) : Scan (List Text) :=
  many (docLine m) (fun c => !atMarker m c) (progresses_docLine m)

/-- The documentation that lines add up to. -/
def docOfLines (lines : List Text) : Text := List.intercalate [' '] (lines.filter (· ≠ []))

theorem docComment_eq (m : Marker) : docComment m = space >>= fun _ => docOfLines <$> docLines m :=
  rfl

theorem sees_atMarker (m : Marker) : Sees (fun c => !atMarker m c) (NoMarker m) := by
  intro b t
  rw [Bool.not_eq_true', ← Bool.not_eq_true, atMarker, List.isPrefixOf_iff_prefix]
  rfl

instance (m : Marker) : Onward (docLine m) := by
  unfold docLine
  infer_instance

instance (m : Marker) : Onward (docLines m) := onward_many (sees_atMarker m)

section Documentation

variable {m : Marker} {t u r x : Text} {lines : List Text} {k : DiagnosticKind}

/-- **A line of documentation is what stands between the marker and the end of the line.** -/
theorem reads_docLine : ¬ NoMarker m t ∧ (docLine m).Reads t x r ↔
    ∃ line s w, t = m.text ++ (line ++ s) ∧ Run (· ≠ '\n') (line ++ s) line s ∧
      Run isSpace s w r ∧ x = Text.trim line := by
  simp only [NoMarker, not_not, docLine, reads_bind, reads_skip, reads_readWhile, reads_space,
    reads_pure]
  constructor
  · rintro ⟨⟨t, rfl⟩, -, _, rfl, line, s, hline, w, _, hw, rfl, rfl⟩
    rw [List.drop_left] at hline
    obtain rfl := hline.eq_append
    exact ⟨line, s, w, rfl, hline, hw, rfl⟩
  · rintro ⟨line, s, w, rfl, hline, hw, rfl⟩
    exact ⟨List.prefix_append _ _, (), _, rfl, line, s, by rwa [List.drop_left], w, r, hw, rfl, rfl⟩

theorem not_fails_docLine : ¬ (docLine m).Fails t u k := by
  simp only [docLine, fails_bind, not_fails_skip, not_fails_readWhile, not_fails_space,
    not_fails_pure, false_or, and_false, exists_false, not_false_eq_true]

theorem reads_docLines : (docLines m).Reads t lines r ↔
    Repeats (docLine m) (NoMarker m) t lines r ∧ NoMarker m r := reads_many (sees_atMarker m)

/-- **Reading documentation never fails.** -/
theorem not_fails_docLines : ¬ (docLines m).Fails t u k := by
  intro h
  obtain ⟨_, _, _, _, _, _, _, _, hf⟩ := (fails_many (sees_atMarker m)).mp h
  exact not_fails_docLine hf

end Documentation

/-! ## Records -/

/-- The name of a field behind the word that makes it visible. -/
def fieldName (d : Dialect) : Scan Text := do
  keyword d.visibility.text
  let _ ← space
  name "field name".toList

/-- The lines of documentation before a field and its name. -/
def fieldHead (d : Dialect) : Scan (List Text × Text) := do
  let lines ← docLines d.marker
  let name ← spaced (fieldName d)
  return (lines, name)

/-- The core of a field. -/
def fieldCore (d : Dialect) : Scan Field := do
  let head ← fieldHead d
  let _ ← space
  expect ':'
  let _ ← space
  let type ← name "field type".toList
  return { name := head.2, type, doc := docOfLines head.1 }

theorem consumes_fieldName (d : Dialect) : (fieldName d).Consumes :=
  (consumes_keyword d.visibility.text_ne_nil).bind _

theorem consumes_fieldHead (d : Dialect) : (fieldHead d).Consumes :=
  .of_bind _ fun _ => (consumes_fieldName d).spaced.bind _

theorem consumes_fieldCore (d : Dialect) : (fieldCore d).Consumes := (consumes_fieldHead d).bind _

theorem field_eq (d : Dialect) : field d = padded (fieldCore d) isSeparator := by
  simp only [field, padded, spaced, fieldCore, fieldHead, fieldName, docComment_eq, separators,
    map_eq_pure_bind, bind_assoc, pure_bind, space_space]

/-- The core of a record. -/
def recordCore (d : Dialect) : Scan Record := do
  keyword d.visibility.text
  let _ ← space
  keyword d.record.text
  let _ ← space
  let name ← name "struct name".toList
  let _ ← space
  let fields ← listed '\x7b' (padded (fieldCore d) isSeparator)
    ((consumes_fieldCore d).padded _) '\x7d'
  return { name, fields }

theorem record_eq (d : Dialect) : record d = padded (recordCore d) isSpace := by
  have hitem : ∀ h h', manyUntil (field d) h '\x7d'
      = manyUntil (padded (fieldCore d) isSeparator) h' '\x7d' := by
    rw [field_eq]
    exact fun _ _ => rfl
  simp only [record, padded, spaced, recordCore, listed, closed, space, bind_assoc, pure_bind,
    hitem _ ((consumes_fieldCore d).padded _)]

/-- The core of an entry. -/
def entryCore (d : Dialect) : Scan Entry := do
  let tag ← tagCore
  let _ ← space
  let record ← recordCore d
  return { tag, record }

theorem consumes_entryCore (d : Dialect) : (entryCore d).Consumes :=
  ((consumes_expect _).bind _ : tagCore.Consumes).bind _

theorem entry_eq (d : Dialect) : entry d = padded (entryCore d) isSpace := by
  simp only [entry, tag_eq, record_eq, padded, spaced, entryCore, bind_assoc, pure_bind, ← space_eq,
    space_space]

instance : Onward paramCore := by
  unfold paramCore
  infer_instance

instance : Onward tagCore := by
  unfold tagCore
  infer_instance

instance (d : Dialect) : Onward (fieldName d) := by
  unfold fieldName
  infer_instance

instance (d : Dialect) : Onward (fieldHead d) := by
  unfold fieldHead
  infer_instance

instance (d : Dialect) : Onward (fieldCore d) := by
  unfold fieldCore
  infer_instance

instance (d : Dialect) : Onward (recordCore d) := by
  unfold recordCore
  infer_instance

instance (d : Dialect) : Onward (entryCore d) := by
  unfold entryCore
  infer_instance

/-! ## Whole texts -/

theorem progresses_padded_entryCore (d : Dialect) :
    (padded (entryCore d) isSpace).Progresses Cursor.atEnd :=
  ((consumes_entryCore d).padded _).progresses _

/-- The harvest of a text is that of padded cores behind the space in front. -/
theorem entriesFrom_eq (d : Dialect) (c : Cursor) :
    entriesFrom d c = harvest (padded (entryCore d) isSpace) Cursor.atEnd
      (progresses_padded_entryCore d) (c.advance (c.ahead.takeWhile isSpace).length) := by
  have hitem : ∀ h h', harvest (entry d) Cursor.atEnd h
      = harvest (padded (entryCore d) isSpace) Cursor.atEnd h' := by
    rw [entry_eq]
    exact fun _ _ => rfl
  rw [entriesFrom, hitem]

theorem entries_eq (d : Dialect) : entries d = space >>= fun _ =>
    many (padded (entryCore d) isSpace) Cursor.atEnd (progresses_padded_entryCore d) := by
  refine ext fun c => ?_
  change (entriesFrom d c).outcome = _
  rw [entriesFrom_eq, run_bind]
  rfl

instance (d : Dialect) : Onward (many (padded (entryCore d) isSpace) Cursor.atEnd
    (progresses_padded_entryCore d)) := onward_many sees_atEnd

instance (d : Dialect) : Onward (entries d) := by
  rw [entries_eq]
  infer_instance

/-- The entries `c` from the front of `t` on, up to `r`. -/
abbrev EntryRow (d : Dialect) : Text → Catalog → Text → Prop :=
  Repeats (padded (entryCore d) isSpace) (· = [])

/-- **What a text declares**: the entries `c` behind the space in front, up to `r`. -/
def Declares (d : Dialect) (t : Text) (c : Catalog) (r : Text) : Prop :=
  ∃ w s, Run isSpace t w s ∧ EntryRow d s c r

section Entries

variable {d : Dialect} {t u r : Text} {c : Catalog} {k : DiagnosticKind}

theorem declares_nil (d : Dialect) : Declares d [] [] [] := ⟨[], [], stops_nil.run, .nil []⟩

theorem Declares.exists_eq_append (h : Declares d t c r) : ∃ v, t = v ++ r := by
  obtain ⟨w, s, hw, hrow⟩ := h
  obtain ⟨y, rfl⟩ := hrow.exists_eq_append
  exact ⟨w ++ y, hw.eq_append.trans (List.append_assoc ..).symm⟩

/-- **A text is read if it declares entries up to its end.** -/
theorem reads_entries : (entries d).Reads t c r ↔ Declares d t c r ∧ r = [] := by
  simp only [entries_eq, reads_bind, reads_space, reads_many sees_atEnd, Declares]
  constructor
  · rintro ⟨w, s, hw, hrow, hend⟩
    exact ⟨⟨w, s, hw, hrow⟩, hend⟩
  · rintro ⟨⟨w, s, hw, hrow⟩, hend⟩
    exact ⟨w, s, hw, hrow, hend⟩

/-- **A text fails where an entry does**, behind the entries that it declares. -/
theorem fails_entries : (entries d).Fails t u k ↔ ∃ v s u' c, t = v ++ s ∧ u = v ++ u' ∧
    Declares d t c s ∧ s ≠ [] ∧ (padded (entryCore d) isSpace).Fails s u' k := by
  simp only [entries_eq, fails_bind, not_fails_space, false_or, reads_space, fails_many sees_atEnd]
  constructor
  · rintro ⟨x, w, r, _, rfl, rfl, hw, c, v, s, u', rfl, rfl, hrow, hs, hu⟩
    exact ⟨w ++ v, s, u', c, by simp, by simp, ⟨x, _, hw, hrow⟩, hs, hu⟩
  · rintro ⟨v, s, u', c, rfl, rfl, ⟨w, r, hw, hrow⟩, hs, hu⟩
    obtain ⟨x, rfl⟩ := hrow.exists_eq_append
    obtain rfl : v = w ++ x :=
      List.append_cancel_right (hw.eq_append.trans (List.append_assoc ..).symm)
    exact ⟨w, w, x ++ s, x ++ u', by simp, by simp, hw, c, x, s, u', rfl, rfl, hrow, hs, hu⟩

/-- Every text declares some entries, up to its end or to the first that is wrong. -/
theorem exists_declares (d : Dialect) (t : Text) : ∃ c s, Declares d t c s ∧
    (s = [] ∨ s ≠ [] ∧ ∃ u k, (padded (entryCore d) isSpace).Fails s u k) := by
  obtain ⟨c, s, hrow, hend⟩ :=
    exists_repeats (progresses_padded_entryCore d) sees_atEnd (t.dropWhile isSpace)
  exact ⟨c, s, ⟨_, _, run_takeWhile isSpace t, hrow⟩, hend⟩

/-- **The declared entries are those that are kept** when the next one is wrong. -/
theorem Declares.items_eq {s : Text} (h : Declares d t c s)
    (hend : s = [] ∨ s ≠ [] ∧ ∃ u k, (padded (entryCore d) isSpace).Fails s u k) :
    (entriesOf d t).items = c := by
  obtain ⟨w, r, hw, hrow⟩ := h
  obtain ⟨v, -, hharvest⟩ := hrow.harvest_eq (h := progresses_padded_entryCore d) sees_atEnd
  rw [entriesOf, entriesFrom_eq, Cursor.start, hw.takeWhile_eq, hw.eq_append,
    Cursor.advance_append, hharvest, Harvest.items_prepend]
  obtain hs | ⟨hs, u, k, hf⟩ := hend
  · rw [harvest_of_stop ((sees_atEnd _ _).mpr hs), List.append_nil]
  · obtain ⟨e, cursor, hrun, -⟩ := hf.2 (v.reverse ++ (w.reverse ++ []))
    rw [harvest_of_error (mt (sees_atEnd _ _).mp hs) hrun, List.append_nil]

/-! ## Catalogues and errors -/

theorem Declares.ofText?_eq (h : Declares d t c []) : Catalog.ofText? d t = .ok c := by
  obtain ⟨b, hb⟩ := reads_entries.mpr ⟨h, rfl⟩ []
  rw [Catalog.ofText?, Cursor.start, hb]
  rfl

theorem Fails.exists_error (h : (entries d).Fails t u k) : ∃ e,
    Catalog.ofText? d t = .error e ∧ e.kind = k ∧ e.position = Position.start.advanceBy u := by
  obtain ⟨e, cursor, hrun, hk, hp⟩ := h.2 []
  exact ⟨e, by rw [Catalog.ofText?, Cursor.start, hrun]; rfl, hk, hp⟩

/-- Every text declares a catalogue or fails. -/
theorem declares_or_fails (d : Dialect) (t : Text) :
    (∃ c, Declares d t c []) ∨ ∃ u k, (entries d).Fails t u k := by
  refine (Onward.settled (m := entries d) t).imp_left fun ⟨c, r, hr⟩ => ?_
  obtain ⟨h, rfl⟩ := reads_entries.mp hr
  exact ⟨c, h⟩

theorem ofText?_eq_ok_iff : Catalog.ofText? d t = .ok c ↔ Declares d t c [] := by
  refine ⟨fun h => ?_, Declares.ofText?_eq⟩
  obtain ⟨c', h'⟩ | ⟨u, k, hf⟩ := declares_or_fails d t
  · obtain rfl := Except.ok.inj (h'.ofText?_eq.symm.trans h)
    exact h'
  · obtain ⟨e, he, -⟩ := hf.exists_error
    exact nomatch h.symm.trans he

/-- **The position of an error is where its text fails.** -/
theorem fails_of_ofText? {e : ScanError} (h : Catalog.ofText? d t = .error e) :
    (entries d).Fails t (t.take e.position.offset) e.kind ∧
      e.position = Position.start.advanceBy (t.take e.position.offset) := by
  obtain ⟨c, hc⟩ | ⟨u, k, hf⟩ := declares_or_fails d t
  · exact nomatch h.symm.trans hc.ofText?_eq
  · obtain ⟨e', he', rfl, hposition⟩ := hf.exists_error
    obtain rfl := Except.error.inj (he'.symm.trans h)
    have hoffset : e'.position.offset = u.length := by
      rw [hposition, Position.offset_advanceBy_start]
    rw [hoffset, ← List.prefix_iff_eq_take.mp hf.1]
    exact ⟨hf, hposition⟩

end Entries

end Scan

end ErrorCatalog
