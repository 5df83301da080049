import ErrorCatalog.Proofs.Position
import ErrorCatalog.Proofs.Scan.Lookahead
import ErrorCatalog.Proofs.Scan.WellFormed

/-!
# Proofs/Scan/LineEnding — lines that end in a carriage return and a line feed

`Text.crlf` puts a carriage return before each line feed of a text.  Between tokens both are space,
a name holds neither, and the end of a documentation line is trimmed, so only the literals show the
difference: what is read of the longer text is what is read of the shorter one, but for the values
of parameters (`Catalog.ofText_crlf`).

`Follows g m m'` compares two readers on the two texts.  Readers in turn and loops pass it on
(`Follows.bind`, `follows_many`), so it is proved of the tokens and of the one rule whose text
changes inside, a line of documentation.
-/

namespace ErrorCatalog

/-! ## Texts with carriage returns -/

namespace Text

/-- The text with a carriage return before each line feed. -/
def crlf (t : Text) : Text := t.flatMap fun c => if c = '\n' then ['\r', '\n'] else [c]

variable {s t u : Text} {c : Char}

@[simp] theorem crlf_nil : crlf [] = [] := rfl

theorem crlf_cons (c : Char) (t : Text) :
    crlf (c :: t) = (if c = '\n' then ['\r', '\n'] else [c]) ++ crlf t := rfl

@[simp] theorem crlf_cons_line_feed (t : Text) : crlf ('\n' :: t) = '\r' :: '\n' :: crlf t := rfl

theorem crlf_cons_of_ne (hc : c ≠ '\n') (t : Text) : crlf (c :: t) = c :: crlf t := by
  rw [crlf_cons, if_neg hc]
  rfl

theorem crlf_append (s t : Text) : crlf (s ++ t) = crlf s ++ crlf t := List.flatMap_append

theorem crlf_of_not_mem (h : '\n' ∉ t) : crlf t = t := by
  induction t with
  | nil => rfl
  | cons c t ih =>
    rw [crlf_cons_of_ne (Ne.symm (List.ne_of_not_mem_cons h)), ih (List.not_mem_of_not_mem_cons h)]

theorem crlf_eq_nil_iff : crlf t = [] ↔ t = [] := by
  cases t with
  | nil => simp
  | cons c t =>
    rw [crlf_cons]
    split <;> simp

/-- **A character that ends no line comes first in both texts.** -/
theorem head?_crlf (hc : c ≠ '\n') (hc' : c ≠ '\r') :
    (crlf t).head? = some c ↔ t.head? = some c := by
  cases t with
  | nil => rfl
  | cons a t =>
    by_cases ha : a = '\n'
    · subst ha
      simp [Ne.symm hc, Ne.symm hc']
    · rw [crlf_cons_of_ne ha, List.head?_cons, List.head?_cons]

/-- A text that ends no line comes first in both texts. -/
theorem isPrefix_crlf (hu : '\n' ∉ u) (hu' : '\r' ∉ u) : u <+: crlf t ↔ u <+: t := by
  induction u generalizing t with
  | nil => simp
  | cons c u ih =>
    have hc := List.ne_of_not_mem_cons hu
    have hc' := List.ne_of_not_mem_cons hu'
    cases t with
    | nil => rfl
    | cons a t =>
      by_cases ha : a = '\n'
      · subst ha
        simp [List.cons_prefix_cons, Ne.symm hc, Ne.symm hc']
      · rw [crlf_cons_of_ne ha, List.cons_prefix_cons, List.cons_prefix_cons,
          ih (List.not_mem_of_not_mem_cons hu) (List.not_mem_of_not_mem_cons hu')]

theorem count_crlf (t : Text) : (crlf t).count '\n' = t.count '\n' := by
  induction t with
  | nil => rfl
  | cons c t ih =>
    by_cases hc : c = '\n'
    · subst hc
      simp [ih]
    · rw [crlf_cons_of_ne hc, List.count_cons, List.count_cons, ih]

theorem lastLine_crlf (t : Text) : lastLine (crlf t) = lastLine t := by
  induction t using List.reverseRecOn with
  | nil => rfl
  | append_singleton t c ih =>
    rw [crlf_append, lastLine_append_singleton]
    split
    · next hc =>
      subst hc
      have hend : crlf t ++ crlf ['\n'] = (crlf t ++ ['\r']) ++ ['\n'] := by simp
      rw [hend, lastLine_append_singleton, if_pos rfl]
    · next hc => rw [crlf_cons_of_ne hc, crlf_nil, lastLine_append_singleton, if_neg hc, ih]

/-- A blank at the end is trimmed. -/
theorem trim_append_blank (hc : isBlank c = true) (t : Text) : trim (t ++ [c]) = trim t := by
  have hright : ∀ s : Text, trimRight (s ++ [c]) = trimRight s := fun s => by
    simp [trimRight, hc]
  rw [trim, trimLeft, List.dropWhile_append]
  split
  · next h => simp [trim, trimLeft, List.isEmpty_iff.mp h, hc]
  · rw [hright, trim, trimLeft]

end Text

namespace Position

open Text (crlf)

/-- **Line and column do not count the carriage returns** of the lines before. -/
theorem line_advanceBy_crlf (t : Text) :
    (start.advanceBy (crlf t)).line = (start.advanceBy t).line := by
  rw [line_advanceBy_start, line_advanceBy_start, Text.count_crlf]

theorem column_advanceBy_crlf (t : Text) :
    (start.advanceBy (crlf t)).column = (start.advanceBy t).column := by
  rw [column_advanceBy_start, column_advanceBy_start, Text.lastLine_crlf]

end Position

open Text (crlf)

/-! ## Runs -/

/-- The class does not tell a carriage return from a line feed. -/
class EndsAlike (p : Char → Bool) : Prop where
  eq : p '\r' = p '\n'

instance : EndsAlike isSpace := ⟨rfl⟩

instance : EndsAlike isSeparator := ⟨rfl⟩

instance : EndsAlike isNameChar := ⟨rfl⟩

section Run

variable {p : Char → Bool} [hp : EndsAlike p] {t w r : Text}

theorem Stops.crlf (h : Stops p t) : Stops p (crlf t) := by
  cases t with
  | nil => exact stops_nil
  | cons c t =>
    by_cases hc : c = '\n'
    · subst hc
      rw [Text.crlf_cons_line_feed, stops_cons, hp.eq]
      exact stops_cons.mp h
    · rw [Text.crlf_cons_of_ne hc]
      exact h

theorem forall_mem_crlf (h : ∀ c ∈ w, p c = true) : ∀ c ∈ crlf w, p c = true := by
  intro c hc
  obtain ⟨a, ha, hc⟩ := List.mem_flatMap.mp hc
  split at hc
  · next hend =>
    subst hend
    obtain rfl | hc := List.mem_cons.mp hc
    · rw [hp.eq]
      exact h _ ha
    · exact List.mem_singleton.mp hc ▸ h _ ha
  · exact List.mem_singleton.mp hc ▸ h _ ha

theorem Run.crlf (h : Run p t w r) : Run p (crlf t) (crlf w) (crlf r) where
  eq_append := by rw [h.eq_append, Text.crlf_append]
  all := forall_mem_crlf h.all
  stops := h.stops.crlf

end Run

/-- A name ends no line. -/
theorem crlf_of_forall_isNameChar {w : Text} (h : ∀ c ∈ w, isNameChar c = true) : crlf w = w :=
  Text.crlf_of_not_mem fun hmem => absurd (h _ hmem) (by decide)

/-! ## Literals -/

namespace Literal

theorem open_crlf {e : Bool} {raw : Text} (h : Open e raw) : Open e (crlf raw) := by
  induction raw generalizing e with
  | nil => trivial
  | cons c raw ih =>
    by_cases hc : c = '\n'
    · subst hc
      exact ⟨nofun, nofun, ih h.2⟩
    · rw [Text.crlf_cons_of_ne hc]
      exact ⟨h.1, ih h.2⟩

theorem endsEscaped_crlf (e : Bool) (raw : Text) : endsEscaped e (crlf raw) = endsEscaped e raw := by
  induction raw generalizing e with
  | nil => rfl
  | cons c raw ih =>
    by_cases hc : c = '\n'
    · subst hc
      exact ih _
    · rw [Text.crlf_cons_of_ne hc]
      exact ih _

theorem IsContent.crlf {raw : Text} (h : IsContent raw) : IsContent (crlf raw) := by
  obtain ⟨hopen, hend⟩ := isContent_iff.mp h
  exact isContent_iff.mpr ⟨open_crlf hopen, (endsEscaped_crlf false raw).trans hend⟩

/-- **A carriage return takes no part in an escape**: it stands before a line feed only. -/
theorem value_crlf (raw : Text) : value (crlf raw) = crlf (value raw) := by
  fun_induction value raw with
  | case1 rest ih =>
    rw [Text.crlf_cons_of_ne (by decide), Text.crlf_cons_of_ne (by decide),
      Text.crlf_cons_of_ne (by decide), value, ih]
  | case2 c rest hc ih =>
    by_cases hend : c = '\n'
    · subst hend
      rw [Text.crlf_cons_line_feed, Text.crlf_cons_line_feed, value, value, ih] <;> simp
    · rw [Text.crlf_cons_of_ne hend, Text.crlf_cons_of_ne hend, value, ih]
      rintro s rfl hs
      have hhead : rest.head? = some '\x22' :=
        (Text.head?_crlf (by decide) (by decide)).mp (by rw [hs]; rfl)
      obtain ⟨s', rfl⟩ := List.head?_eq_some_iff.mp hhead
      exact hc s' rfl rfl
  | case3 => rfl

end Literal

/-! ## Catalogues -/

/-- The parameter with its value changed by `f`. -/
def Param.mapValue (f : Text → Text) (p : Param) : Param := { p with value := f p.value }

/-- The attribute with the values of its parameters changed by `f`. -/
def Attribute.mapValues (f : Text → Text) (a : Attribute) : Attribute :=
  { a with params := a.params.map (Param.mapValue f) }

/-- The entry with the values of its parameters changed by `f`. -/
def Entry.mapValues (f : Text → Text) (e : Entry) : Entry := { e with tag := e.tag.mapValues f }

/-- The catalogue with the values of its parameters changed by `f`. -/
def Catalog.mapValues (f : Text → Text) (c : Catalog) : Catalog := c.map (Entry.mapValues f)

/-! ## Readers on both texts -/

namespace Scan

variable {α α' β β' : Type}

/-- **`m'` makes of the longer text what `m` makes of the shorter one**: it reads `g x` where `m`
reads `x`, and fails where `m` does. -/
structure Follows (g : α → α') (m : Scan α) (m' : Scan α') : Prop where
  reads : ∀ {t x r}, m.Reads t x r → m'.Reads (crlf t) (g x) (crlf r)
  fails : ∀ {t u k}, m.Fails t u k → m'.Fails (crlf t) (crlf u) k

variable {g : α → α'} {h : β → β'} {m : Scan α} {m' : Scan α'} {f : α → Scan β} {f' : α' → Scan β'}

theorem follows_pure {x : α} {x' : α'} (hx : g x = x') : Follows g (pure x) (pure x') where
  reads hr := by
    obtain ⟨rfl, rfl⟩ := reads_pure.mp hr
    exact reads_pure.mpr ⟨hx, rfl⟩
  fails hf := absurd hf not_fails_pure

theorem Follows.bind [Onward m] [∀ x, Onward (f x)] (hm : Follows g m m')
    (hf : ∀ x, Follows h (f x) (f' (g x))) : Follows h (m >>= f) (m' >>= f') where
  reads hr := by
    obtain ⟨x, s, hx, hy⟩ := reads_bind.mp hr
    exact (hm.reads hx).bind ((hf x).reads hy)
  fails hu := by
    obtain hu | ⟨x, w, s, u, rfl, rfl, hx, hu⟩ := fails_bind.mp hu
    · exact (hm.fails hu).bind
    · have hx' := hm.reads hx
      rw [Text.crlf_append] at hx' ⊢
      rw [Text.crlf_append]
      exact hx'.bind_fails ((hf x).fails hu)

/-! ### Loops -/

section Loops

variable {item : Scan α} {item' : Scan α'} {P : Text → Prop} {t r : Text} {xs : List α}

theorem Repeats.crlf (hP : ∀ {t}, P (crlf t) ↔ P t)
    (hi : ∀ {t x r}, ¬ P t → item.Reads t x r → item'.Reads (crlf t) (g x) (crlf r))
    (hr : Repeats item P t xs r) : Repeats item' P (crlf t) (xs.map g) (crlf r) := by
  induction hr with
  | nil t => exact .nil _
  | cons hgo head tail ih => exact .cons (mt hP.mp hgo) (hi hgo head) ih

theorem follows_many [Onward item] [Onward item'] {stop : Cursor → Bool}
    {hp : item.Progresses stop} {hp' : item'.Progresses stop} (hs : Sees stop P)
    (hP : ∀ {t}, P (Text.crlf t) ↔ P t) (hi : Follows g item item') :
    Follows (List.map g) (many item stop hp) (many item' stop hp') where
  reads hr := by
    obtain ⟨hrow, hend⟩ := (reads_many hs).mp hr
    exact (hrow.crlf hP fun _ => hi.reads).reads_many hs (hP.mpr hend)
  fails hf := by
    obtain ⟨xs, w, s, u, rfl, rfl, hrow, hgo, hu⟩ := (fails_many hs).mp hf
    have hrow' := hrow.crlf hP fun _ => hi.reads
    rw [Text.crlf_append] at hrow' ⊢
    rw [Text.crlf_append]
    exact hrow'.fails_many hs (mt hP.mp hgo) (hi.fails hu)

end Loops

/-! ### Tokens -/

theorem missing_crlf (t : Text) : DiagnosticKind.missing (crlf t) = .missing t := by
  cases t with
  | nil => rfl
  | cons c t =>
    rw [Text.crlf_cons]
    split <;> rfl

theorem follows_readWhile (p : Char → Bool) [EndsAlike p] :
    Follows crlf (readWhile p) (readWhile p) where
  reads hr := reads_readWhile.mpr (reads_readWhile.mp hr).crlf
  fails hf := absurd hf not_fails_readWhile

theorem follows_space : Follows crlf space space := follows_readWhile isSpace

theorem follows_separators : Follows crlf separators separators := follows_readWhile isSeparator

theorem follows_expect {c : Char} (hc : c ≠ '\n') (hc' : c ≠ '\r') :
    Follows id (expect c) (expect c) where
  reads hr := by
    obtain rfl := reads_expect.mp hr
    exact reads_expect.mpr (Text.crlf_cons_of_ne hc _)
  fails hf := by
    obtain ⟨hne, rfl, rfl⟩ := fails_expect.mp hf
    exact fails_expect.mpr ⟨mt (Text.head?_crlf hc hc').mp hne, rfl, (missing_crlf _).symm⟩

theorem follows_name (what : Text) : Follows id (name what) (name what) where
  reads hr := by
    obtain ⟨hrun, hw⟩ := reads_name.mp hr
    have hrun' := hrun.crlf
    rw [crlf_of_forall_isNameChar hrun.all] at hrun'
    exact reads_name.mpr ⟨hrun', hw⟩
  fails hf := by
    obtain ⟨hs, rfl, rfl⟩ := fails_name.mp hf
    exact fails_name.mpr ⟨hs.crlf, rfl, (missing_crlf _).symm⟩

theorem follows_keyword (word : Text) : Follows id (keyword word) (keyword word) where
  reads hr := by
    have hrun := reads_keyword.mp hr
    have hrun' := hrun.crlf
    rw [crlf_of_forall_isNameChar hrun.all] at hrun'
    exact reads_keyword.mpr hrun'
  fails hf := by
    obtain ⟨w, r, hrun, hw, rfl, rfl⟩ := fails_keyword.mp hf
    have hrun' := hrun.crlf
    rw [crlf_of_forall_isNameChar hrun.all] at hrun'
    have hcommon : crlf (commonStart w word) = commonStart w word :=
      crlf_of_forall_isNameChar fun c hc =>
        hrun.all c ((commonStart_isPrefix w word).1.subset hc)
    exact fails_keyword.mpr ⟨w, crlf r, hrun', hw, hcommon, by rw [missing_crlf]⟩

theorem follows_quoted : Follows crlf quoted quoted where
  reads hr := by
    obtain ⟨raw, rfl, hraw, rfl⟩ := reads_quoted.mp hr
    refine reads_quoted.mpr ⟨crlf raw, ?_, hraw.crlf, (Literal.value_crlf raw).symm⟩
    rw [Text.crlf_cons_of_ne (by decide), Text.crlf_append, Text.crlf_cons_of_ne (by decide)]
  fails hf := by
    obtain ⟨hne, rfl, rfl⟩ | ⟨raw, rfl, hopen, rfl, rfl⟩ := fails_quoted.mp hf
    · exact fails_quoted.mpr
        (.inl ⟨mt (Text.head?_crlf (by decide) (by decide)).mp hne, rfl, (missing_crlf _).symm⟩)
    · exact fails_quoted.mpr
        (.inr ⟨crlf raw, Text.crlf_cons_of_ne (by decide) _, Literal.open_crlf hopen, rfl, rfl⟩)

/-! ### Rules -/

section Rules

variable {p : Char → Bool} [EndsAlike p] {item : Scan α} {item' : Scan α'}

theorem Follows.spaced [Onward m] (hm : Follows g m m') : Follows g (spaced m) (spaced m') :=
  follows_space.bind fun _ => hm

theorem Follows.padded [Onward m] (hm : Follows g m m') :
    Follows g (padded m p) (padded m' p) :=
  hm.spaced.bind fun _ => (follows_readWhile p).bind fun _ => follows_pure rfl

theorem follows_listed [Onward item] [Onward item'] {hc : item.Consumes} {hc' : item'.Consumes}
    {opening close : Char} (ho : opening ≠ '\n' ∧ opening ≠ '\r') (hl : close ≠ '\n' ∧ close ≠ '\r')
    (hi : Follows g item item') :
    Follows (List.map g) (listed opening item hc close) (listed opening item' hc' close) := by
  have hmany : Follows (List.map g) (manyUntil item hc close) (manyUntil item' hc' close) :=
    follows_many (sees_peek close) (Text.head?_crlf hl.1 hl.2) hi
  exact (follows_expect ho.1 ho.2).bind fun _ => follows_space.bind fun _ =>
    hmany.bind fun _ => (follows_expect hl.1 hl.2).bind fun _ => follows_pure rfl

theorem follows_paramCore : Follows (Param.mapValue crlf) paramCore paramCore :=
  (follows_name _).bind fun _ => follows_separators.bind fun _ =>
    (follows_expect (by decide) (by decide)).bind fun _ => follows_space.bind fun _ =>
      follows_quoted.bind fun _ => follows_pure rfl

theorem follows_tagCore : Follows (Attribute.mapValues crlf) tagCore tagCore :=
  (follows_expect (by decide) (by decide)).bind fun _ => follows_space.bind fun _ =>
    (follows_expect (by decide) (by decide)).bind fun _ => follows_space.bind fun _ =>
      (follows_name _).bind fun _ => follows_space.bind fun _ =>
        (follows_listed (by decide) (by decide) follows_paramCore.padded).bind fun _ =>
          follows_space.bind fun _ =>
            (follows_expect (by decide) (by decide)).bind fun _ => follows_pure rfl

/-- **A marker holds no space**, so the same lines are documentation in both texts. -/
theorem noMarker_crlf {mk : Marker} {t : Text} : NoMarker mk (crlf t) ↔ NoMarker mk t :=
  not_congr (Text.isPrefix_crlf (not_mem_marker mk rfl) (not_mem_marker mk rfl))

/-- **The carriage return at the end of a line of documentation** is trimmed with it. -/
theorem reads_docLine_crlf {mk : Marker} {t r x : Text} (hmark : ¬ NoMarker mk t)
    (h : (docLine mk).Reads t x r) : (docLine mk).Reads (crlf t) x (crlf r) := by
  obtain ⟨line, s, w, rfl, hline, hw, rfl⟩ := reads_docLine.mp ⟨hmark, h⟩
  have hline' : crlf line = line :=
    Text.crlf_of_not_mem fun hmem => of_decide_eq_true (hline.all _ hmem) rfl
  have hmarker : crlf mk.text = mk.text := Text.crlf_of_not_mem (not_mem_marker mk rfl)
  rw [Text.crlf_append, Text.crlf_append, hmarker, hline']
  cases s with
  | nil =>
    obtain ⟨rfl, rfl⟩ := List.append_eq_nil_iff.mp hw.eq_append.symm
    exact (reads_docLine.mpr ⟨line, [], [], rfl, hline, hw, rfl⟩).2
  | cons c s =>
    obtain rfl : c = '\n' := by simpa using hline.stops
    obtain ⟨v, rfl, hv⟩ := (run_cons rfl).mp hw
    have hall : ∀ c ∈ line ++ ['\r'], decide (c ≠ '\n') = true :=
      List.forall_mem_append.mpr ⟨hline.all, List.forall_mem_singleton.mpr rfl⟩
    have hline'' : Run (· ≠ '\n') ((line ++ ['\r']) ++ '\n' :: crlf s) (line ++ ['\r'])
        ('\n' :: crlf s) := ⟨rfl, hall, stops_cons.mpr rfl⟩
    have hspace : Run isSpace ('\n' :: crlf s) ('\n' :: crlf v) (crlf r) :=
      (run_cons rfl).mpr ⟨_, rfl, hv.crlf⟩
    refine (reads_docLine.mpr ⟨line ++ ['\r'], _, _, ?_, hline'', hspace, ?_⟩).2
    · simp
    · exact (Text.trim_append_blank rfl line).symm

theorem follows_docLines (mk : Marker) : Follows id (docLines mk) (docLines mk) where
  reads hr := by
    obtain ⟨hrow, hend⟩ := reads_docLines.mp hr
    have hrow' := hrow.crlf (g := id) noMarker_crlf reads_docLine_crlf
    rw [List.map_id] at hrow'
    exact reads_docLines.mpr ⟨hrow', noMarker_crlf.mpr hend⟩
  fails hf := absurd hf not_fails_docLines

theorem follows_fieldName (d : Dialect) : Follows id (fieldName d) (fieldName d) :=
  (follows_keyword _).bind fun _ => follows_space.bind fun _ => follows_name _

theorem follows_fieldHead (d : Dialect) : Follows id (fieldHead d) (fieldHead d) :=
  (follows_docLines _).bind fun _ => (follows_fieldName d).spaced.bind fun _ => follows_pure rfl

theorem follows_fieldCore (d : Dialect) : Follows id (fieldCore d) (fieldCore d) :=
  (follows_fieldHead d).bind fun _ => follows_space.bind fun _ =>
    (follows_expect (by decide) (by decide)).bind fun _ => follows_space.bind fun _ =>
      (follows_name _).bind fun _ => follows_pure rfl

theorem follows_recordCore (d : Dialect) : Follows id (recordCore d) (recordCore d) := by
  have hfields : ∀ hc, Follows (List.map id)
      (listed '\x7b' (padded (fieldCore d) isSeparator) hc '\x7d')
      (listed '\x7b' (padded (fieldCore d) isSeparator) hc '\x7d') := fun _ =>
    follows_listed (by decide) (by decide) (follows_fieldCore d).padded
  rw [List.map_id_fun] at hfields
  exact (follows_keyword _).bind fun _ => follows_space.bind fun _ =>
    (follows_keyword _).bind fun _ => follows_space.bind fun _ => (follows_name _).bind fun _ =>
      follows_space.bind fun _ => (hfields _).bind fun _ => follows_pure rfl

theorem follows_entryCore (d : Dialect) :
    Follows (Entry.mapValues crlf) (entryCore d) (entryCore d) :=
  follows_tagCore.bind fun _ => follows_space.bind fun _ =>
    (follows_recordCore d).bind fun _ => follows_pure rfl

theorem follows_entries (d : Dialect) :
    Follows (Catalog.mapValues crlf) (entries d) (entries d) := by
  rw [entries_eq]
  exact follows_space.bind fun _ =>
    follows_many sees_atEnd Text.crlf_eq_nil_iff (follows_entryCore d).padded

end Rules

end Scan

namespace ScanError

/-- What an error says of a text apart from its wording: its code, line and column. -/
def spot (e : ScanError) : Text × Nat × Nat := (e.code, e.position.line, e.position.column)

end ScanError

namespace Catalog

/-- **Longer line ends change nothing but the values**: a text with a carriage return before each
line feed declares a catalogue just if the text without them does, the same one but for the carriage
returns in the values of parameters; and otherwise both have an error of the same code, in the same
line and column. -/
theorem ofText_crlf (d : Dialect) (t : Text) :
    (ofText? d (crlf t)).mapError ScanError.spot =
      ((ofText? d t).map (mapValues crlf)).mapError ScanError.spot := by
  cases h : ofText? d t with
  | ok c =>
    have hread : (Scan.entries d).Reads t c [] :=
      Scan.reads_entries.mpr ⟨Scan.ofText?_eq_ok_iff.mp h, rfl⟩
    obtain ⟨hdeclares, -⟩ := Scan.reads_entries.mp ((Scan.follows_entries d).reads hread)
    rw [hdeclares.ofText?_eq]
    rfl
  | error e =>
    obtain ⟨hfails, hposition⟩ := Scan.fails_of_ofText? h
    obtain ⟨e', he', hkind, hposition'⟩ := ((Scan.follows_entries d).fails hfails).exists_error
    have hspot : e'.spot = e.spot := by
      rw [ScanError.spot, ScanError.spot, ScanError.code, ScanError.code, hkind, hposition',
        Position.line_advanceBy_crlf, Position.column_advanceBy_crlf, ← hposition]
    rw [he']
    exact congrArg Except.error hspot

end Catalog

end ErrorCatalog
