import ErrorCatalog.Proofs.Scan.Spelling

/-!
# Proofs/Scan/SingleField — the fields a dialect can write

The words of a dialect are checked one by one, and some of them get in each other's way: where a
field starts, the closing brace is tried before the marker and the marker before the word of the
field.  A field of any catalogue that is read can be written in the sense of `Dialect.CanWrite`
(`Language.canWrite_of_document`), and that is all a record of one field needs
(`Catalog.exists_single_field_iff`).
-/

namespace ErrorCatalog

namespace Language

variable {d : Dialect} {t r : Text}

/-! ## Fields that are read -/

/-- **A field that is read can be written.** -/
theorem canWrite_of_field {f : Field} (h : field d f t r) : d.CanWrite f := by
  obtain ⟨lines, hdoc, _, ⟨hbrace, rfl⟩, s, hlines, _, ⟨hmarker, rfl⟩, s', hword, -⟩ := h
  refine ⟨fun hprefix => hmarker ?_, fun hne hhead => hbrace ?_⟩
  · rw [hword.1.eq_append]
    exact hprefix.trans (List.prefix_append _ _)
  · cases hlines with
    | nil => exact absurd hdoc hne
    | cons hline _ =>
      obtain ⟨-, _, rfl, -⟩ := hline
      rw [List.head?_append_of_ne_nil _ d.marker.text_ne_nil]
      exact hhead

theorem canWrite_of_record {x : Record} (h : record d x t r) : ∀ f ∈ x.fields, d.CanWrite f := by
  obtain ⟨_, -, _, -, _, -, _, -, _, -, _, -, _, hfields, -⟩ := h
  exact list_forall_mem hfields canWrite_of_field

/-- **Every field of a document can be written.** -/
theorem canWrite_of_document {c : Catalog} (h : document d c t r) :
    ∀ e ∈ c, ∀ f ∈ e.record.fields, d.CanWrite f := by
  obtain ⟨_, -, _, hrow, -⟩ := h
  refine hrow.forall_mem ?_
  rintro e t r ⟨_, ⟨_, -, _, -, _, hrecord, -⟩, -⟩
  exact canWrite_of_record hrecord

/-! ## One field alone -/

/-- **One field is read as it is spelled.**  No comma stands before it, so the marker may start with
one. -/
theorem fieldsSpelled_singleton {x : Record} {f : Field} (hx : x.fields = [f])
    (hd : d.CanWrite f) (h : f.WellFormed) : FieldsSpelled d x := by
  intro r
  have hspace : Stops isSpace (f.spelling d ++ ',' :: '\x7d' :: r) :=
    stops_spelling (fun c hc => (Bool.or_eq_false_iff.mp (Scan.isSeparator_eq_false hc)).1)
      (fun _ => stops_marker d.marker) _
  have hcomma : run isSeparator (',' :: '\x7d' :: r) ('\x7d' :: r) :=
    ⟨[','], rfl, List.forall_mem_singleton.mpr rfl, stops_cons.mpr rfl⟩
  have htext : spellList '\x7b' (Field.spelling d) '\x7d' x.fields ++ r =
      '\x7b' :: (f.spelling d ++ ',' :: '\x7d' :: r) := by
    simp [spellList, hx]
  rw [htext, hx]
  exact ⟨_, rfl, _, run_of_stops hspace, '\x7d' :: r,
    .cons ⟨_, field_spelling hd h _, _, hcomma, rfl⟩ (.nil _), r, rfl, rfl⟩

end Language

namespace Catalog

/-- A catalogue of one error type, whose only field is `f`. -/
def single (tag : Attribute) (name : Text) (f : Field) : Catalog :=
  [{ tag, record := { name, fields := [f] } }]

/-- What is read as the only field of a catalogue is well-formed and can be written. -/
theorem canWrite_of_single {d : Dialect} {t name : Text} {tag : Attribute} {f : Field}
    (h : ofText? d t = .ok (single tag name f)) : f.WellFormed ∧ d.CanWrite f := by
  have hdocument := Scan.declares_iff.mp (Scan.ofText?_eq_ok_iff.mp h)
  have hmem := List.mem_singleton_self f
  exact ⟨(Language.wellFormed_of_document hdocument _ (List.mem_singleton_self _)).record.fields f
    hmem, Language.canWrite_of_document hdocument _ (List.mem_singleton_self _) f hmem⟩

/-- **What a dialect can declare**: some text declares a catalogue of one error type with just this
field, if and only if the field is well-formed, the word before a field does not start with the
marker, and the marker of a field with documentation does not start with a closing brace. -/
theorem exists_single_field_iff (d : Dialect) (f : Field) :
    (∃ t tag name, ofText? d t = .ok (single tag name f)) ↔
      f.WellFormed ∧ ¬ d.marker.text <+: d.visibility.text ∧
        (f.doc ≠ [] → d.marker.text.head? ≠ some '\x7d') := by
  constructor
  · rintro ⟨t, tag, name, h⟩
    obtain ⟨hf, hd⟩ := canWrite_of_single h
    exact ⟨hf, hd.visibility, hd.brace⟩
  · rintro ⟨hf, hvisibility, hbrace⟩
    obtain ⟨tag, htag⟩ : ∃ tag : Attribute, tag.WellFormed := ⟨⟨['e'], []⟩, by decide⟩
    obtain ⟨name, hname⟩ : ∃ name, IsWord name := ⟨['A'], by decide⟩
    have hwellFormed : (single tag name f).WellFormed :=
      List.forall_mem_singleton.mpr ⟨htag, hname, List.forall_mem_singleton.mpr hf⟩
    have hfields : ∀ e ∈ single tag name f, Language.FieldsSpelled d e.record :=
      List.forall_mem_singleton.mpr
        (Language.fieldsSpelled_singleton rfl ⟨hvisibility, hbrace⟩ hf)
    have hdocument := Language.document_of_fieldsSpelled hwellFormed hfields
    exact ⟨_, tag, name, Scan.ofText?_eq_ok_iff.mpr (Scan.declares_iff.mpr hdocument)⟩

/-- Words that are each allowed and leave no field: the marker is the word before a field. -/
theorem not_exists_single_field_of_marker_pub : ∃ d,
    Dialect.ofTexts? "pub".toList "struct".toList "pub".toList = .ok d ∧
      Field.WellFormed ⟨"x".toList, "y".toList, []⟩ ∧
        ¬ ∃ t tag name, ofText? d t = .ok (single tag name ⟨"x".toList, "y".toList, []⟩) := by
  refine ⟨⟨⟨"pub".toList, by decide, rfl⟩, ⟨"struct".toList, by decide, rfl⟩,
    ⟨"pub".toList, by decide, rfl⟩⟩, rfl, by decide, ?_⟩
  rintro ⟨t, tag, name, h⟩
  exact (canWrite_of_single h).2.visibility (List.prefix_refl _)

end Catalog

end ErrorCatalog
