import ErrorCatalog.Proofs.Scan.Lookahead

/-!
# Proofs/Scan/Concatenation — a text behind a text

Nothing that is read of a complete text depends on where it ends: its last entry is closed by a
character, and only the space behind that goes on into the next text.  So the entries of a text and
of a text behind it are those of the one and then those of the other, and an error in the second is
found in the same place, moved by the first.
-/

namespace ErrorCatalog

namespace Scan

variable {d : Dialect} {s r t w v u : Text} {e : Entry} {c c' : Catalog} {k : DiagnosticKind}

/-- An entry is settled one character past the space behind it. -/
theorem settled_entry (d : Dialect) : Settled (padded (entryCore d) isSpace) (· = []) :=
  settled_of_token (token_padded (token_entryCore d).one isSpace) Agree.eq_nil

/-- **A row before another text**: its entries are read again, and the space at the front of the
other text with them. -/
theorem EntryRow.before (h : EntryRow d (s ++ r) c r) (hs : s ≠ []) (ht : Run isSpace t w v) :
    EntryRow d (s ++ t) c v := by
  refine Repeats.before (settled_entry d) (fun hgo hx => ⟨?_, ?_⟩) h hs
  · rw [List.append_eq_nil_iff]
    exact fun hnil => (settled_entry d).ne_nil hgo hx hnil.1
  · exact reads_padded_before hx
      (fun h => (token_spaced (token_entryCore d)).reads h (agree_zero _ _)) ht

/-- **A complete text declares the same before another one**, which goes on as it would alone. -/
theorem Declares.append (h : Declares d s c []) (h' : Declares d t c' r) :
    Declares d (s ++ t) (c ++ c') r := by
  obtain ⟨w, s₁, hw, hrow⟩ := h
  obtain ⟨w', t₁, hw', hrow'⟩ := h'
  by_cases hs₁ : s₁ = []
  · -- The first text is all space and declares nothing.
    subst hs₁
    cases hrow with
    | cons hgo _ _ => exact absurd rfl hgo
    | nil =>
      obtain rfl : s = w := by simpa using hw.eq_append
      exact ⟨s ++ w', t₁, hw'.append hw.all, hrow'⟩
  · obtain rfl := hw.eq_append
    have hspace := (agree_one_append hs₁ [] t).run (by simpa using hw)
    have hrow₁ : EntryRow d (s₁ ++ []) c [] := by rwa [List.append_nil]
    have hfirst := EntryRow.before hrow₁ hs₁ hw'
    exact ⟨w, s₁ ++ t, by simpa using hspace, Repeats.append hfirst hrow'⟩

/-- **An error stays in its place** when a complete text is put before it. -/
theorem Declares.append_fails (h : Declares d s c []) (hf : (entries d).Fails t u k) :
    (entries d).Fails (s ++ t) (s ++ u) k := by
  obtain ⟨v, r, u', c', rfl, rfl, hdeclares, hr, hu⟩ := fails_entries.mp hf
  exact fails_entries.mpr ⟨s ++ v, r, u', c ++ c', (List.append_assoc ..).symm,
    (List.append_assoc ..).symm, h.append hdeclares, hr, hu⟩

/-- **The entries of two texts**: all that the first declares, and those that are read of the
second. -/
theorem Declares.items_append (h : Declares d s c []) :
    (entriesOf d (s ++ t)).items = (entriesOf d s).items ++ (entriesOf d t).items := by
  obtain ⟨c', r, hdeclares, hend⟩ := exists_declares d t
  rw [(h.append hdeclares).items_eq hend, h.items_eq (.inl rfl), hdeclares.items_eq hend]

end Scan

namespace Catalog

/-- **Reading respects concatenation**: behind a text that declares a catalogue another text
declares what it does alone, or has the same error as far behind the first text; and the events of
both texts are those of the one and then those of the other. -/
theorem ofText_append (d : Dialect) (t₁ t₂ : Text) (c₁ : Catalog) (h : ofText? d t₁ = .ok c₁) :
    (∀ c₂, ofText? d t₂ = .ok c₂ → ofText? d (t₁ ++ t₂) = .ok (c₁ ++ c₂)) ∧
      (∀ e, ofText? d t₂ = .error e → ∃ e', ofText? d (t₁ ++ t₂) = .error e' ∧
        e'.code = e.code ∧ e'.position =
          (Position.start.advanceBy t₁).advanceBy (t₂.take e.position.offset)) ∧
      (Scan.entriesOf d (t₁ ++ t₂)).events =
        (Scan.entriesOf d t₁).events ++ (Scan.entriesOf d t₂).events := by
  have hfirst := Scan.ofText?_eq_ok_iff.mp h
  refine ⟨fun c₂ h₂ => ?_, fun e h₂ => ?_, ?_⟩
  · exact Scan.ofText?_eq_ok_iff.mpr (hfirst.append (Scan.ofText?_eq_ok_iff.mp h₂))
  · obtain ⟨hf, -⟩ := Scan.fails_of_ofText? h₂
    obtain ⟨e', he', hkind, hposition⟩ := (hfirst.append_fails hf).exists_error
    refine ⟨e', he', congrArg DiagnosticKind.code hkind, ?_⟩
    rw [hposition, Position.advanceBy_append]
  · rw [Harvest.events, hfirst.items_append, List.map_append]
    rfl

/-- A wrong attribute on the line behind a declaration. -/
theorem ofText_append_attribute : ∃ e,
    ofText? .standard "#[e()]pub struct A\x7b\x7d\n".toList =
        .ok [⟨⟨"e".toList, []⟩, ⟨"A".toList, []⟩⟩] ∧
      ofText? .standard "#]".toList = .error e ∧ ∃ e',
        ofText? .standard ("#[e()]pub struct A\x7b\x7d\n".toList ++ "#]".toList) = .error e' ∧
          e'.code = "SCAN_UNEXPECTED_CHARACTER".toList ∧
          e'.position = ⟨22, 2, 2, by decide, by decide⟩ := by
  have hfirst : ofText? .standard "#[e()]pub struct A\x7b\x7d\n".toList =
      .ok [⟨⟨"e".toList, []⟩, ⟨"A".toList, []⟩⟩] := by decide +kernel
  have hsecond : ofText? .standard "#]".toList = .error ⟨.unexpected (.char '[') ']' "#]".toList,
      ⟨1, 1, 2, by decide, by decide⟩, .unexpected, none⟩ := by decide +kernel
  exact ⟨_, hfirst, hsecond, (ofText_append _ _ _ _ hfirst).2.1 _ hsecond⟩

end Catalog

end ErrorCatalog
