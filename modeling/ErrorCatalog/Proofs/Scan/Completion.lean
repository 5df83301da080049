import ErrorCatalog.Proofs.Scan.Lookahead

/-!
# Proofs/Scan/Completion — what comes before an error can be completed

An error is reported no later than it has to be: what comes before it is the front of some text
without errors.  A text is completed token by token, each with a blank behind it, since a blank ends
whatever may be read there (`Spells`).  `Completable` is the invariant: a reader in the middle of
its text can be taken to its end, and readers in turn pass this on where a gap stands between them
(`Completable.gap`).
-/

namespace ErrorCatalog

namespace Scan

variable {α β : Type} {n : Nat} {m : Scan α} {f : α → Scan β} {p : Char → Bool}

/-! ## Texts before a blank -/

/-- A class of characters that may stand between two tokens. -/
class Gap (p : Char → Bool) : Prop where
  blank : p ' ' = true
  separates : ∀ c, p c = true → isSeparator c = true

instance : Gap isSpace := ⟨rfl, fun c hc => by rw [isSeparator, hc, Bool.true_or]⟩

instance : Gap isSeparator := ⟨rfl, fun _ hc => hc⟩

theorem Gap.stops [hp : Gap p] {t : Text} (h : Stops isSeparator t) : Stops p t :=
  h.imp hp.separates

theorem Gap.all_blank [hp : Gap p] : ∀ c ∈ [' '], p c = true :=
  List.forall_mem_singleton.mpr hp.blank

/-- Before a blank, `s` is what `m` reads as `x`. -/
def Spells (m : Scan α) (s : Text) (x : α) : Prop := ∀ r, m.Reads (s ++ ' ' :: r) x (' ' :: r)

theorem Spells.ne_nil {s : Text} {x : α} (h : m.Spells s x) (hm : m.Consumes) : s ≠ [] :=
  (h []).ne_nil hm

/-- **A reader that can be taken to the end of its text**, wherever it fails. -/
structure Completable (n : Nat) (m : Scan α) : Prop extends Token 1 n m where
  /-- What is read is read before a blank as well. -/
  spells : ∀ {u r x}, m.Reads (u ++ r) x r → m.Spells u x
  /-- Something can be read behind any gap. -/
  exists_spells : ∃ s x, m.Spells s x ∧ Stops isSeparator s
  /-- What comes before a failure can be gone on with. -/
  completes : ∀ {t u k}, m.Fails t u k → ∃ z x, m.Spells (u ++ z) x

/-- A token that a gap may follow is read as it is before a longer gap. -/
theorem Completable.reads_blank (hm : Completable n m) {u v r r' : Text} {x : α}
    (h : m.Reads (u ++ (v ++ r)) x (v ++ r)) :
    m.Reads (u ++ (v ++ ' ' :: r')) x (v ++ ' ' :: r') := by
  by_cases hv : v = []
  · subst hv
    exact hm.spells h r'
  · exact hm.reads h (agree_one_append hv _ _)

/-- **Of two readers only the second sees the blank.** -/
theorem spells_bind [Onward m] [∀ x, Onward (f x)] (hm : Sighted 1 n m)
    (hf : ∀ {x v r y}, (f x).Reads (v ++ r) y r → v ≠ [] ∧ (f x).Spells v y) {u r : Text} {y : β}
    (h : (m >>= f).Reads (u ++ r) y r) : (m >>= f).Spells u y := by
  obtain ⟨w, v, x, rfl, hx, hy⟩ := reads_bind_append.mp h
  obtain ⟨hne, hspells⟩ := hf hy
  intro r'
  have hx' := hm.reads hx (agree_one_append hne r (' ' :: r'))
  exact reads_bind_append.mpr ⟨w, v, x, rfl, hx', hspells r'⟩

/-- Two readers in turn, with a gap `v` between the texts that they read. -/
theorem Spells.gap {w v s : Text} {x : α} {y : β}
    (hw : ∀ r, m.Reads (w ++ (v ++ (s ++ ' ' :: r))) x (v ++ (s ++ ' ' :: r)))
    (hv : ∀ c ∈ v, p c = true) (hs : (f x).Spells s y) (hstops : Stops p s) (hne : s ≠ []) :
    (m >>= fun x => readWhile p >>= fun _ => f x).Spells (w ++ (v ++ s)) y := by
  intro r
  simp only [List.append_assoc]
  have hrun : Run p (v ++ (s ++ ' ' :: r)) v (s ++ ' ' :: r) :=
    ⟨rfl, hv, (stops_append hne).mpr hstops⟩
  exact (hw r).bind ((reads_readWhile.mpr hrun).bind (hs r))

/-- **Behind a gap a reader is completed** that failed there: its text is gone on with, or started
behind a longer gap. -/
theorem Completable.behind_gap [hp : Gap p] (hm : Completable n m)
    (hf : ∀ x, Completable n (f x)) {w v s u : Text} {x : α} {k : DiagnosticKind}
    (hx : m.Reads (w ++ (v ++ s)) x (v ++ s)) (hv : Run p (v ++ s) v s) (h : (f x).Fails s u k) :
    ∃ z y, (m >>= fun x => readWhile p >>= fun _ => f x).Spells (w ++ (v ++ (u ++ z))) y := by
  by_cases hu : u = []
  · obtain ⟨z, y, hz, hstops⟩ := (hf x).exists_spells
    have hall : ∀ c ∈ v ++ [' '], p c = true := List.forall_mem_append.mpr ⟨hv.all, Gap.all_blank⟩
    have hx' : ∀ r, m.Reads (w ++ ((v ++ [' ']) ++ (z ++ ' ' :: r))) x
        ((v ++ [' ']) ++ (z ++ ' ' :: r)) := fun r => by
      simpa only [List.append_assoc, List.singleton_append] using hm.reads_blank hx
    have hgap := Spells.gap hx' hall hz (Gap.stops hstops) (hz.ne_nil (hf x).consumes)
    refine ⟨' ' :: z, y, ?_⟩
    simpa only [hu, List.append_assoc, List.nil_append, List.singleton_append] using hgap
  · obtain ⟨z, y, hz⟩ := (hf x).completes h
    obtain ⟨r, rfl⟩ := h.1
    have hstops : Stops p (u ++ z) := (stops_append hu).mpr ((stops_append hu).mp hv.stops)
    refine ⟨z, y, .gap (fun r' => ?_) hv.all hz hstops (hz.ne_nil (hf x).consumes)⟩
    rw [List.append_assoc]
    exact hm.reads hx ((agree_one_append hu _ _).append v)

/-- **Two readers with a gap between them are completed** if each of them is. -/
theorem Completable.gap [Fact (0 < n)] [Onward m] [∀ x, Onward (f x)] [hp : Gap p]
    (hm : Completable n m) (hf : ∀ x, Completable n (f x)) :
    Completable n (m >>= fun x => readWhile p >>= fun _ => f x) where
  toToken := hm.toSighted.bind_token fun x => (sighted_readWhile p).bind_token fun _ =>
    (hf x).toToken
  spells h := by
    refine spells_bind hm.toSighted (fun {x _ _ _} hx => ⟨hx.ne_nil ?_, ?_⟩) h
    · exact .of_bind _ fun _ => (hf x).consumes
    · exact spells_bind (sighted_readWhile (n := n) p)
        (fun hy => ⟨hy.ne_nil (hf x).consumes, (hf x).spells hy⟩) hx
  exists_spells := by
    obtain ⟨s, x, hs, hstops⟩ := hm.exists_spells
    obtain ⟨s', y, hs', hstops'⟩ := (hf x).exists_spells
    refine ⟨s ++ ([' '] ++ s'), y, .gap (fun r => hs _) Gap.all_blank hs' (Gap.stops hstops')
      (hs'.ne_nil (hf x).consumes), ?_⟩
    exact (stops_append (hs.ne_nil hm.consumes)).mpr hstops
  completes {t u k} h := by
    obtain h | ⟨x, w, s, u, rfl, rfl, hx, h⟩ := fails_bind.mp h
    · -- The first reader is taken to its end, and the second one starts behind a blank.
      obtain ⟨z, x, hz⟩ := hm.completes h
      obtain ⟨s, y, hs, hstops⟩ := (hf x).exists_spells
      refine ⟨z ++ ([' '] ++ s), y, ?_⟩
      rw [← List.append_assoc]
      exact .gap (fun r => hz _) Gap.all_blank hs (Gap.stops hstops) (hs.ne_nil (hf x).consumes)
    · obtain h | ⟨v', v, s, u, rfl, rfl, hv, h⟩ := fails_bind.mp h
      · exact absurd h not_fails_readWhile
      have hrun := reads_readWhile.mp hv
      obtain rfl : v = v' := List.append_cancel_right hrun.eq_append
      obtain ⟨z, y, hz⟩ := hm.behind_gap hf hx hrun h
      exact ⟨z, y, by simpa only [List.append_assoc] using hz⟩

theorem Completable.map [Onward m] (hm : Completable n m) (g : α → β) :
    Completable n (m >>= fun x => pure (g x)) where
  toToken := hm.toToken.map g
  spells h r := by
    obtain ⟨x, s, hx, hs⟩ := reads_bind.mp h
    obtain ⟨rfl, rfl⟩ := reads_pure.mp hs
    exact (hm.spells hx r).bind (reads_pure.mpr ⟨rfl, rfl⟩)
  exists_spells := by
    obtain ⟨s, x, hs, hstops⟩ := hm.exists_spells
    exact ⟨s, g x, fun r => (hs r).bind (reads_pure.mpr ⟨rfl, rfl⟩), hstops⟩
  completes h := by
    obtain h | ⟨x, w, s, u, -, -, -, h⟩ := fails_bind.mp h
    · obtain ⟨z, x, hz⟩ := hm.completes h
      exact ⟨z, g x, fun r => (hz r).bind (reads_pure.mpr ⟨rfl, rfl⟩)⟩
    · exact absurd h not_fails_pure

/-! ## Tokens -/

/-- A token that no character can be taken from is read before a blank. -/
theorem Token.spells (hm : Token 0 n m) {u r : Text} {x : α} (h : m.Reads (u ++ r) x r) :
    m.Spells u x := fun _ => hm.reads h (agree_zero _ _)

section Tokens

variable [Fact (0 < n)]

theorem completable_expect {ch : Char} (hch : isSeparator ch = false) :
    Completable n (expect ch) where
  toToken := (token_expect ch).one
  spells := (token_expect (n := n) ch).spells
  exists_spells := ⟨[ch], (), fun r => reads_expect.mpr rfl, stops_cons.mpr hch⟩
  completes h := by
    obtain ⟨-, rfl, -⟩ := fails_expect.mp h
    exact ⟨[ch], (), fun r => reads_expect.mpr rfl⟩

theorem isSeparator_eq_false {c : Char} (h : isNameChar c = true) : isSeparator c = false := by
  rw [← Bool.not_eq_true]
  intro hc
  simp only [isSeparator, isSpace, isComma, Bool.or_eq_true, decide_eq_true_eq] at hc
  rcases hc with (((((rfl | rfl) | rfl) | rfl) | rfl) | rfl) | rfl <;> revert h <;> decide

/-- A name ends at a blank. -/
theorem run_blank {w r : Text} (h : ∀ c ∈ w, isNameChar c = true) :
    Run isNameChar (w ++ ' ' :: r) w (' ' :: r) := ⟨rfl, h, stops_cons.mpr rfl⟩

theorem stops_of_forall_isNameChar {w : Text} (h : ∀ c ∈ w, isNameChar c = true) :
    Stops isSeparator w := fun _ hc => isSeparator_eq_false (h _ (List.mem_of_mem_head? hc))

/-- Any letter is a name. -/
theorem spells_name (what : Text) : (name what).Spells ['a'] ['a'] := fun _ =>
  reads_name.mpr ⟨run_blank (List.forall_mem_singleton.mpr rfl), List.cons_ne_nil _ _⟩

theorem completable_name (what : Text) : Completable n (name what) where
  toToken := token_name what
  spells {u r x} h r' := by
    obtain ⟨hrun, hx⟩ := reads_name.mp h
    obtain rfl := List.append_cancel_right hrun.eq_append
    exact reads_name.mpr ⟨run_blank hrun.all, hx⟩
  exists_spells := ⟨['a'], ['a'], spells_name what, stops_cons.mpr rfl⟩
  completes h := by
    obtain ⟨-, rfl, -⟩ := fails_name.mp h
    exact ⟨['a'], ['a'], spells_name what⟩

theorem spells_keyword (k : Keyword) : (keyword k.text).Spells k.text () := fun _ =>
  reads_keyword.mpr (run_blank (List.all_eq_true.mp k.isName))

/-- **A keyword that was broken off is gone on with.** -/
theorem completable_keyword (k : Keyword) : Completable n (keyword k.text) where
  toToken := token_keyword k.text_ne_nil
  spells h := by
    have hrun := reads_keyword.mp h
    obtain rfl := List.append_cancel_right hrun.eq_append
    exact spells_keyword k
  exists_spells :=
    ⟨k.text, (), spells_keyword k, stops_of_forall_isNameChar (List.all_eq_true.mp k.isName)⟩
  completes h := by
    obtain ⟨w, r, -, -, rfl, -⟩ := fails_keyword.mp h
    obtain ⟨z, hz⟩ := (commonStart_isPrefix w k.text).2
    exact ⟨z, (), by rw [hz]; exact spells_keyword k⟩

/-- **A literal that was never closed is closed**, behind a blank so that no backslash stands before
the quote. -/
theorem completable_quoted : Completable n quoted where
  toToken := token_quoted.one
  spells := (token_quoted (n := n)).spells
  exists_spells := ⟨['\x22', '\x22'], _,
    fun r => reads_quoted.mpr ⟨[], rfl, ⟨by simp, by simp⟩, rfl⟩, stops_cons.mpr rfl⟩
  completes h := by
    obtain ⟨-, rfl, -⟩ | ⟨raw, rfl, hopen, rfl, -⟩ := fails_quoted.mp h
    · exact ⟨['\x22', '\x22'], _, fun r => reads_quoted.mpr ⟨[], rfl, ⟨by simp, by simp⟩, rfl⟩⟩
    · refine ⟨[' ', '\x22'], _, fun r => reads_quoted.mpr ⟨raw ++ [' '], by simp, ?_, rfl⟩⟩
      exact Literal.isContent_iff.mpr
        ⟨hopen.append_singleton (by decide), Literal.endsEscaped_append_singleton _ _ _⟩

end Tokens

/-! ## Loops and lists -/

variable [Fact (0 < n)] [Onward m]

/-- The space before a token is a gap like any other. -/
theorem Completable.spaced (hm : Completable n m) : Completable n (spaced m) where
  toToken := token_spaced hm.toToken
  spells h := spells_bind (sighted_space (n := n))
    (fun hx => ⟨hx.ne_nil hm.consumes, hm.spells hx⟩) h
  exists_spells := by
    obtain ⟨s, x, hs, hstops⟩ := hm.exists_spells
    refine ⟨s, x, fun r => reads_spaced.mpr ⟨[], _, Stops.run ?_, hs r⟩, hstops⟩
    exact (stops_append (hs.ne_nil hm.consumes)).mpr (Gap.stops hstops)
  completes {t u k} h := by
    obtain ⟨w, s, u', rfl, rfl, hw, h⟩ := fails_spaced.mp h
    obtain ⟨z, x, hz, hstops⟩ : ∃ z x, m.Spells (u' ++ z) x ∧ Stops isSpace (u' ++ z) := by
      by_cases hu : u' = []
      · subst hu
        obtain ⟨s, x, hs, hstops⟩ := hm.exists_spells
        exact ⟨s, x, hs, Gap.stops hstops⟩
      · obtain ⟨z, x, hz⟩ := hm.completes h
        obtain ⟨r, rfl⟩ := h.1
        exact ⟨z, x, hz, (stops_append hu).mpr ((stops_append hu).mp hw.stops)⟩
    refine ⟨z, x, fun r => reads_spaced.mpr ⟨w, u' ++ z ++ ' ' :: r, ⟨?_, hw.all, ?_⟩, hz r⟩⟩
    · simp only [List.append_assoc]
    · exact (stops_append (hz.ne_nil hm.consumes)).mpr hstops

section Loops

variable [hp : Gap p] {u v w s r : Text} {x : α} {k : DiagnosticKind} {P : Text → Prop}
  {xs : List α}

/-- A run of the class that is only a blank. -/
theorem Gap.run (hv : Stops p v) : Run p (' ' :: v) [' '] v := ⟨rfl, Gap.all_blank, hv⟩

/-- **An item is read before a blank**, and the blank with it. -/
theorem Completable.padded_blank (hm : Completable n m) (h : (padded m p).Reads (u ++ r) x r)
    (hv : Stops p v) : (padded m p).Reads (u ++ ' ' :: v) x v :=
  reads_padded_before h (fun hx => hm.spaced.reads_blank hx) (Gap.run hv)

/-- **An item that fails is completed** up to a blank. -/
theorem Completable.padded_completes (hm : Completable n m) (h : (padded m p).Fails s u k) :
    ∃ z x, ∀ v, Stops p v → (padded m p).Reads (u ++ (z ++ ' ' :: v)) x v := by
  obtain ⟨z, x, hz⟩ := hm.spaced.completes (fails_padded.mp h)
  refine ⟨z, x, fun v hv => reads_padded.mpr ⟨[' '], ?_, Gap.run hv⟩⟩
  rw [← List.append_assoc]
  exact hz v

/-- **A row whose next item fails is completed**: the item is, if any of it is there, and else the
row ends behind a blank. -/
theorem Completable.exists_row (hm : Completable n m) (hP : ∀ {t t'}, Agree 1 t t' → P t' → P t)
    (h : Repeats (padded m p) P (w ++ s) xs s) (hs : ¬ P s) (hf : (padded m p).Fails s u k) :
    ∃ z ys, (w ++ u = [] → z = []) ∧
      ∀ v, Stops p v → Repeats (padded m p) P (w ++ (u ++ (z ++ v))) ys v := by
  have hi := settled_of_token (token_padded hm.toToken p) hP
  obtain ⟨t, rfl⟩ := hf.1
  by_cases hu : u = []
  · subst hu
    by_cases hw : w = []
    · subst hw
      exact ⟨[], [], fun _ => rfl, fun v _ => .nil v⟩
    · refine ⟨[' '], xs, fun h => absurd (List.append_eq_nil_iff.mp h).1 hw, fun v hv => ?_⟩
      refine h.before hi (fun {y x} hgo hx => ⟨fun hy => hgo (hP ?_ hy), hm.padded_blank hx hv⟩) hw
      exact agree_one_append (hi.ne_nil hgo hx) _ _
  · obtain ⟨z, x, hz⟩ := hm.padded_completes hf
    refine ⟨z ++ [' '], xs ++ [x], fun h => absurd (List.append_eq_nil_iff.mp h).2 hu,
      fun v hv => ?_⟩
    have hagree := agree_one_append hu t (z ++ ' ' :: v)
    have hlast : Repeats (padded m p) P (u ++ (z ++ ' ' :: v)) [x] v :=
      .cons (fun h => hs (hP hagree h)) (hz v hv) (.nil v)
    simpa only [List.append_assoc, List.singleton_append] using (h.of_agree hi hagree).append hlast

/-- **The rest of a list is completed** if its items are. -/
theorem completable_closed (hm : Completable n m) (h : (padded m p).Consumes) {close : Char}
    (hclose : isSeparator close = false) : Completable n (closed (padded m p) h close) where
  toToken := (token_closed (token_padded hm.toToken p) close).one
  spells := (token_closed (n := n) (token_padded hm.toToken p) close).spells
  exists_spells :=
    ⟨[close], [], fun r => reads_closed.mpr (.nil _), stops_cons.mpr hclose⟩
  completes {t u k} hf := by
    obtain ⟨xs, w, s, u', rfl, rfl, hrow, hs, hf⟩ := fails_closed.mp hf
    obtain ⟨z, ys, -, hz⟩ := hm.exists_row (P := (·.head? = some close))
      (fun ha h => ha.head?_eq.trans h) hrow hs hf
    refine ⟨z ++ [close], ys, fun r => reads_closed.mpr ?_⟩
    simpa only [List.append_assoc, List.singleton_append] using
      hz (close :: ' ' :: r) (Gap.stops (stops_cons.mpr hclose))

theorem completable_listed (hm : Completable n m) (h : (padded m p).Consumes) {opening close : Char}
    (hopening : isSeparator opening = false) (hclose : isSeparator close = false) :
    Completable n (listed opening (padded m p) h close) :=
  (completable_expect hopening).gap fun _ => completable_closed hm h hclose

end Loops

/-! ## Rules -/

section Rules

variable {d : Dialect} {t u r s : Text} {x : Text} {k : DiagnosticKind}

omit [Onward m]

theorem completable_paramCore : Completable n paramCore :=
  (completable_name _).gap fun _ => (completable_expect rfl).gap fun _ => completable_quoted.map _

theorem completable_tagCore : Completable n tagCore :=
  (completable_expect rfl).gap fun _ => (completable_expect rfl).gap fun _ =>
    (completable_name _).gap fun _ =>
      (completable_listed completable_paramCore _ rfl rfl).gap fun _ =>
        (completable_expect rfl).map _

theorem completable_fieldName : Completable n (fieldName d) :=
  (completable_keyword d.visibility).gap fun _ => completable_name _

theorem noMarker_cons {mk : Marker} {c : Char} (h : isSpace c = true) : NoMarker mk (c :: t) :=
  (noMarker_append_cons (a := []) h).mpr fun hp => mk.text_ne_nil (List.prefix_nil.mp hp)

/-- **A field's name is not taken for documentation**, unless the marker is a front of the word that
makes it visible. -/
theorem noMarker_of_reads_fieldName (hd : ¬ d.marker.text <+: d.visibility.text)
    (h : (spaced (fieldName d)).Reads t x r) : NoMarker d.marker t := by
  obtain ⟨u, rfl⟩ := h.exists_eq_append
  obtain ⟨w, c, b, rfl, hc, hw⟩ := exists_space_of_reads_fieldName h
  cases w with
  | nil =>
    rw [List.nil_append, List.append_assoc, List.cons_append, noMarker_append_cons hc]
    exact hd
  | cons c' w => exact noMarker_cons (hw c' (List.mem_cons_self ..))

/-- **A line of documentation is ended** by a line feed, which is read with it. -/
theorem reads_docLine_before_line_feed {mk : Marker} {v : Text} (hgo : ¬ NoMarker mk (u ++ s))
    (hx : (docLine mk).Reads (u ++ s) x s) (hv : Stops isSpace v) :
    ¬ NoMarker mk (u ++ '\n' :: v) ∧ (docLine mk).Reads (u ++ '\n' :: v) x v := by
  obtain ⟨line, s', w, ht, hline, hw, rfl⟩ := reads_docLine.mp ⟨hgo, hx⟩
  obtain rfl := hw.eq_append
  obtain rfl : u = mk.text ++ (line ++ w) :=
    List.append_cancel_right (ht.trans (by simp only [List.append_assoc]))
  have hends : Stops (· ≠ '\n') (w ++ '\n' :: v) := by
    by_cases hnil : w = []
    · subst hnil
      exact stops_cons.mpr rfl
    · exact (agree_one_append hnil s _).stops hline.stops
  have hspace : ∀ c ∈ w ++ ['\n'], isSpace c = true :=
    List.forall_mem_append.mpr ⟨hw.all, List.forall_mem_singleton.mpr rfl⟩
  refine reads_docLine.mpr ⟨line, w ++ '\n' :: v, w ++ ['\n'], ?_, ⟨rfl, hline.all, hends⟩,
    ⟨?_, hspace, hv⟩, rfl⟩
  · simp only [List.append_assoc]
  · simp only [List.append_assoc, List.singleton_append]

/-- Documentation and a name are the head of a field. -/
theorem reads_fieldHead (hd : ¬ d.marker.text <+: d.visibility.text) {lines : List Text}
    (hrow : Repeats (docLine d.marker) (NoMarker d.marker) t lines s)
    (hname : (spaced (fieldName d)).Reads s x r) : (fieldHead d).Reads t (lines, x) r := by
  have hlines : (docLines d.marker).Reads t lines s :=
    reads_docLines.mpr ⟨hrow, noMarker_of_reads_fieldName hd hname⟩
  exact hlines.bind (hname.bind (reads_pure.mpr ⟨rfl, rfl⟩))

/-- **Where nothing of a field's name is there**, documentation is ended and a name put after it. -/
theorem exists_spells_of_docLines (hd : ¬ d.marker.text <+: d.visibility.text) {w : Text}
    {lines : List Text} (hrow : Repeats (docLine d.marker) (NoMarker d.marker) (w ++ s) lines s) :
    ∃ z x, (fieldHead d).Spells (w ++ z) x := by
  have hcore : Completable d.marker.text.length (fieldName d) := completable_fieldName
  obtain ⟨z, x, hz, hz'⟩ := hcore.exists_spells
  have hstops : ∀ r, Stops isSpace (z ++ ' ' :: r) := fun r =>
    (stops_append (hz.ne_nil hcore.consumes)).mpr (Gap.stops hz')
  by_cases hw : w = []
  · subst hw
    refine ⟨z, ([], x), fun r => reads_fieldHead hd (.nil _) ?_⟩
    exact (reads_spaced_of_stops (hstops r)).mpr (hz r)
  · refine ⟨'\n' :: z, (lines, x), fun r => ?_⟩
    have hrow' := hrow.before (settled_docLine _)
      (fun hgo hx => reads_docLine_before_line_feed hgo hx (hstops r)) hw
    rw [List.append_assoc, List.cons_append]
    exact reads_fieldHead hd hrow' ((reads_spaced_of_stops (hstops r)).mpr (hz r))

/-- **A field is completed**: a line of documentation by a line feed, and what comes after it by the
rest of the field's name. -/
theorem completable_fieldHead (hd : ¬ d.marker.text <+: d.visibility.text) :
    Completable d.marker.text.length (fieldHead d) := by
  have hname : Completable d.marker.text.length (spaced (fieldName d)) :=
    completable_fieldName.spaced
  refine ⟨token_fieldHead d, fun h r => reads_fieldHead_before h fun hx => hname.spells hx r, ?_,
    fun h => ?_⟩
  · obtain ⟨s, x, hs, hstops⟩ := hname.exists_spells
    exact ⟨s, ([], x), fun r => reads_fieldHead hd (.nil _) (hs r), hstops⟩
  · obtain h | ⟨lines, w, s, u, rfl, rfl, hx, h⟩ := fails_bind.mp h
    · exact absurd h not_fails_docLines
    obtain ⟨hrow, -⟩ := reads_docLines.mp hx
    obtain h | ⟨_, _, _, _, -, -, -, h⟩ := fails_bind.mp h
    · obtain ⟨v, rfl⟩ := h.1
      by_cases hu : u = []
      · subst hu
        rw [List.append_nil]
        exact exists_spells_of_docLines hd hrow
      · obtain ⟨z, x, hz⟩ := hname.completes h
        refine ⟨z, (lines, x), fun r => ?_⟩
        have hagree := agree_one_append hu v (z ++ ' ' :: r)
        have hread := hz r
        rw [List.append_assoc] at hread
        rw [List.append_assoc, List.append_assoc]
        exact reads_fieldHead hd (hrow.of_agree (settled_docLine _) hagree) hread
    · exact absurd h not_fails_pure

theorem completable_fieldCore (hd : ¬ d.marker.text <+: d.visibility.text) :
    Completable d.marker.text.length (fieldCore d) :=
  (completable_fieldHead hd).gap fun _ => (completable_expect rfl).gap fun _ =>
    (completable_name _).map _

theorem completable_recordCore (hd : ¬ d.marker.text <+: d.visibility.text) :
    Completable d.marker.text.length (recordCore d) :=
  (completable_keyword d.visibility).gap fun _ => (completable_keyword d.record).gap fun _ =>
    (completable_name _).gap fun _ =>
      (completable_listed (completable_fieldCore hd) _ rfl rfl).map _

theorem completable_entryCore (hd : ¬ d.marker.text <+: d.visibility.text) :
    Completable d.marker.text.length (entryCore d) :=
  completable_tagCore.gap fun _ => (completable_recordCore hd).map _

/-- **What comes before an error declares a catalogue** when the right text is put behind it. -/
theorem Fails.exists_declares (hd : ¬ d.marker.text <+: d.visibility.text)
    (h : (entries d).Fails t u k) : ∃ z c, Declares d (u ++ z) c [] := by
  obtain ⟨v, s, u', c, rfl, rfl, ⟨w, s₁, hw, hrow⟩, hs, hf⟩ := fails_entries.mp h
  obtain ⟨y, rfl⟩ := hrow.exists_eq_append
  obtain rfl : v = w ++ y :=
    List.append_cancel_right (hw.eq_append.trans (List.append_assoc ..).symm)
  obtain ⟨z, c', hz, hrow'⟩ := (completable_entryCore hd).exists_row Agree.eq_nil hrow hs hf
  refine ⟨z, c', w, y ++ (u' ++ (z ++ [])), ⟨by simp only [List.append_assoc, List.append_nil],
    hw.all, ?_⟩, hrow' [] stops_nil⟩
  by_cases hnil : y ++ u' = []
  · obtain ⟨rfl, rfl⟩ := List.append_eq_nil_iff.mp hnil
    rw [hz hnil]
    exact stops_nil
  · obtain ⟨r, rfl⟩ := hf.1
    have hstops := hw.stops
    rw [← List.append_assoc, stops_append hnil] at hstops ⊢
    exact hstops

end Rules

end Scan

namespace Catalog

/-- **An error is found no later than where the text goes wrong**: what comes before it is the front
of a text that declares a catalogue. -/
theorem front_of_error_completable (d : Dialect) (hd : ¬ d.marker.text <+: d.visibility.text)
    (t : Text) (e : ScanError) (h : ofText? d t = .error e) :
    ∃ s c, ofText? d (t.take e.position.offset ++ s) = .ok c := by
  obtain ⟨hf, -⟩ := Scan.fails_of_ofText? h
  obtain ⟨s, c, hs⟩ := hf.exists_declares hd
  exact ⟨s, c, Scan.ofText?_eq_ok_iff.mpr hs⟩

/-- A literal that breaks off behind a backslash can still be closed. -/
theorem front_of_error_completable_literal : ∃ e,
    ¬ Dialect.standard.marker.text <+: Dialect.standard.visibility.text ∧
      ofText? .standard "#[e(m=\x22x\\".toList = .error e ∧
        ∃ s c, ofText? .standard ("#[e(m=\x22x\\".toList.take e.position.offset ++ s) = .ok c := by
  have hmarker : ¬ Dialect.standard.marker.text <+: Dialect.standard.visibility.text := by decide
  have herror : ofText? .standard "#[e(m=\x22x\\".toList = .error ⟨.endOfInput (.char '\x22'),
      ⟨9, 1, 10, by decide, by decide⟩, .unterminated, none⟩ := by decide +kernel
  exact ⟨_, hmarker, herror, front_of_error_completable _ hmarker _ _ herror⟩

end Catalog

end ErrorCatalog
