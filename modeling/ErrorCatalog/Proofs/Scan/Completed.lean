import ErrorCatalog.Proofs.Scan.Concatenation

/-!
# Proofs/Scan/Completed — what a failing text completes

The entries that are read before an error are those of a complete text: the part of the text in
front of the entry that fails.  No longer front of the text is complete.  What follows would have to
begin with an entry, and an entry is read whatever stands behind it, so it would have been read in
the whole text as well.
-/

namespace ErrorCatalog

namespace Scan

variable {d : Dialect} {t t₁ s u v : Text} {c : Catalog} {x : Entry}

/-- **Behind the entries of a row no space is left**, if there was none in front of them. -/
theorem EntryRow.stops (h : EntryRow d t c s) (ht : Stops isSpace t) : Stops isSpace s := by
  induction h with
  | nil t => exact ht
  | cons hgo head tail ih =>
    obtain ⟨w, -, hw⟩ := reads_padded.mp head
    exact ih hw.stops

theorem Declares.stops (h : Declares d t c s) : Stops isSpace s := by
  obtain ⟨w, r, hw, hrow⟩ := h
  exact EntryRow.stops hrow hw.stops

/-- **What is declared up to some place is declared by the text in front of it alone.** -/
theorem Declares.front (h : Declares d (v ++ s) c s) : Declares d v c [] := by
  obtain ⟨w, t, hw, hrow⟩ := h
  obtain ⟨y, rfl⟩ := hrow.exists_eq_append
  obtain rfl : v = w ++ y :=
    List.append_cancel_right (hw.eq_append.trans (List.append_assoc ..).symm)
  have hnil : Run isSpace [] [] [] := stops_nil.run
  by_cases hy : y = []
  · -- No entry is read, and the front is the space before the place.
    subst hy
    obtain rfl := hrow.eq_nil (settled_entry d)
    exact ⟨w ++ [], [], hnil.append hw.all, .nil []⟩
  · have hrow' := EntryRow.before hrow hy hnil
    rw [List.append_assoc] at hw
    have hw' := (agree_one_append hy s []).run hw
    rw [List.append_nil] at hw' hrow'
    exact ⟨w, y, hw', hrow'⟩

/-- **An entry is read whatever stands behind it.** -/
theorem exists_reads_of_isPrefix (h : (padded (entryCore d) isSpace).Reads u x v) (hu : u <+: s) :
    ∃ r, (padded (entryCore d) isSpace).Reads s x r := by
  obtain ⟨y, rfl⟩ := h.exists_eq_append
  obtain ⟨z, rfl⟩ := hu
  rw [List.append_assoc]
  exact ⟨_, reads_padded_before h
    (fun h => (token_spaced (token_entryCore d)).reads h (agree_zero _ _))
    (run_takeWhile isSpace (v ++ z))⟩

/-- A complete text that does not begin with space begins with an entry. -/
theorem Declares.exists_entry (h : Declares d u c []) (hu : u ≠ []) (hstops : Stops isSpace u) :
    ∃ x r, (padded (entryCore d) isSpace).Reads u x r := by
  obtain ⟨w, r, hw, hrow⟩ := h
  obtain rfl : u = r := (hw.unique hstops.run).2.symm
  cases hrow with
  | nil => exact absurd rfl hu
  | cons hgo head tail => exact ⟨_, _, head⟩

/-- **No longer front is complete** than the one before the entry that fails. -/
theorem Declares.isPrefix_of_fails {k : DiagnosticKind} {c' : Catalog} (h : Declares d (v ++ s) c s)
    (hf : (padded (entryCore d) isSpace).Fails s u k) (h' : Declares d t₁ c' [])
    (ht : t₁ <+: v ++ s) : t₁ <+: v := by
  obtain hle | ⟨z, rfl⟩ := List.prefix_or_prefix_of_prefix ht (List.prefix_append v s)
  · exact hle
  have hz : z <+: s := (List.prefix_append_right_inj v).mp ht
  by_cases hnil : z = []
  · simp [hnil]
  -- What is longer would be complete by itself, and the entry in front of it would be read.
  have hstops := h.stops.of_isPrefix hz
  obtain ⟨c'', h''⟩ | ⟨u', k', hu'⟩ := declares_or_fails d z
  · obtain ⟨x, r, hx⟩ := h''.exists_entry hnil hstops
    obtain ⟨r', hx'⟩ := exists_reads_of_isPrefix hx hz
    exact absurd hf hx'.not_fails
  · exact absurd (h.front.append_fails hu') (reads_entries.mpr ⟨h', rfl⟩).not_fails

end Scan

namespace Catalog

/-- **A failing text logs what its longest complete front declares.**  Of the fronts of the text
that can be read one is the longest; its entries, in order, are the events of the text, and alone it
reports the same. -/
theorem events_of_error (d : Dialect) (t : Text) (e : ScanError) (h : ofText? d t = .error e) :
    let events := fun t => (Scan.entriesOf d t).events
    ofText? d [] = .ok [] ∧ ∃ t₁ c₁, t₁ <+: t ∧ ofText? d t₁ = .ok c₁ ∧
      (∀ t₂ c₂, t₂ <+: t → ofText? d t₂ = .ok c₂ → t₂ <+: t₁) ∧
      events t =
        c₁.map (fun x => Event.scanned x.tag.name x.record.name x.record.fields.length) ∧
      (∀ event ∈ events t, event.level = .debug) ∧ events t₁ = events t := by
  intro events
  obtain ⟨c, s, hdeclares, rfl | ⟨hs, u, k, hf⟩⟩ := Scan.exists_declares d t
  · rw [hdeclares.ofText?_eq] at h
    cases h
  obtain ⟨v, rfl⟩ := hdeclares.exists_eq_append
  have hfront := hdeclares.front
  have hwhole : events (v ++ s) = c.map Entry.event := by
    change (Scan.entriesOf d (v ++ s)).items.map Entry.event = _
    rw [hdeclares.items_eq (.inr ⟨hs, u, k, hf⟩)]
  have halone : events v = c.map Entry.event := by
    change (Scan.entriesOf d v).items.map Entry.event = _
    rw [hfront.items_eq (.inl rfl)]
  refine ⟨(Scan.declares_nil d).ofText?_eq, v, c, List.prefix_append v s, hfront.ofText?_eq,
    fun t₂ c₂ ht₂ hc₂ => ?_, hwhole, ?_, halone.trans hwhole.symm⟩
  · exact hdeclares.isPrefix_of_fails hf (Scan.ofText?_eq_ok_iff.mp hc₂) ht₂
  · rw [hwhole]
    intro event hevent
    obtain ⟨x, -, rfl⟩ := List.mem_map.mp hevent
    rfl

/-- Two declarations on one line, the second with documentation, and a third that is cut off before
its name. -/
theorem events_of_error_third :
    let t := ("#[a()]pub struct A\x7b\x7d#[b()]pub struct B\x7b//// b\npub x:y\x7d \n".toList ++
      "#[c()] pub struct".toList)
    let events := fun t => (Scan.entriesOf .standard t).events
    ∃ e, ofText? .standard t = .error e ∧
      events t = [.scanned "a".toList "A".toList 0, .scanned "b".toList "B".toList 1] ∧
        ofText? .standard [] = .ok [] ∧ ∃ t₁ c₁, t₁ <+: t ∧ ofText? .standard t₁ = .ok c₁ ∧
          (∀ t₂ c₂, t₂ <+: t → ofText? .standard t₂ = .ok c₂ → t₂ <+: t₁) ∧
          events t =
            c₁.map (fun x => Event.scanned x.tag.name x.record.name x.record.fields.length) ∧
          (∀ event ∈ events t, event.level = .debug) ∧ events t₁ = events t := by
  intro t events
  have hevents : events t =
      [.scanned "a".toList "A".toList 0, .scanned "b".toList "B".toList 1] := by decide +kernel
  have hfails : (ofText? .standard t).toOption = none := by decide +kernel
  cases hrun : ofText? .standard t with
  | ok c =>
    rw [hrun] at hfails
    cases hfails
  | error e => exact ⟨e, rfl, hevents, events_of_error .standard t e hrun⟩

end Catalog

end ErrorCatalog
