import ErrorCatalog.Proofs.Scan.Rule

/-!
# Proofs/Scan/Lookahead — how far a reader looks ahead

Every decision of a reader is settled a few characters past the text it has read: one character
tells where a run of a class ends, and as many as the marker has tell whether documentation goes
on.  `Sighted k n m` says that what `m` reads is settled `k` characters further on, and that where
it fails is settled `n` characters past the place it reports.  Readers in turn look no further than
their parts, since what the second one reads lies ahead of the first.

The documentation of a field is the one place that looks further than a character, and the keyword
after it makes up for that: a field is read with one character to spare (`token_fieldHead`).
-/

namespace ErrorCatalog

/-! ## Texts that agree at the front -/

/-- The texts agree on their first `k` characters; one that ends before that agrees with itself
alone. -/
def Agree (k : Nat) (r r' : Text) : Prop := r.take k = r'.take k

section Agree

variable {j k : Nat} {r r' u w : Text} {p : Char → Bool}

theorem agree_zero (r r' : Text) : Agree 0 r r' := rfl

theorem Agree.symm (h : Agree k r r') : Agree k r' r := Eq.symm h

theorem Agree.mono (h : Agree k r r') (hj : j ≤ k) : Agree j r r' := by
  have := congrArg (List.take j) h
  rwa [List.take_take, List.take_take, Nat.min_eq_left hj] at this

theorem Agree.one [hk : Fact (0 < k)] (h : Agree k r r') : Agree 1 r r' := h.mono hk.out

theorem Agree.append (h : Agree k r r') (u : Text) : Agree k (u ++ r) (u ++ r') := by
  rw [Agree, List.take_append, List.take_append, h.mono (Nat.sub_le k u.length)]

/-- **What lies behind a text does not show in its first character.** -/
theorem agree_one_append (hu : u ≠ []) (r r' : Text) : Agree 1 (u ++ r) (u ++ r') := by
  obtain ⟨c, u, rfl⟩ := List.exists_cons_of_ne_nil hu
  rfl

theorem Agree.head?_eq (h : Agree 1 r r') : r.head? = r'.head? := by
  have := congrArg List.head? h
  simpa [List.head?_take] using this

theorem Agree.stops (h : Agree 1 r r') (hs : Stops p r) : Stops p r' := by
  rwa [Stops, ← h.head?_eq]

theorem Agree.run (h : Agree 1 r r') (hr : Run p (w ++ r) w r) : Run p (w ++ r') w r' :=
  ⟨rfl, hr.all, h.stops hr.stops⟩

theorem Agree.eq_nil (h : Agree 1 r r') (hr : r' = []) : r = [] := by
  subst hr
  exact List.head?_eq_none_iff.mp h.head?_eq

theorem Agree.missing_eq (h : Agree 1 r r') :
    DiagnosticKind.missing r = DiagnosticKind.missing r' := by
  cases r with
  | nil => rw [h.symm.eq_nil rfl]
  | cons c r =>
    cases r' with
    | nil => exact absurd (h.eq_nil rfl) (List.cons_ne_nil c r)
    | cons c' r' => rfl

theorem Agree.isPrefix (h : Agree k r r') (hu : u.length ≤ k) (hp : u <+: r) : u <+: r' := by
  rw [List.prefix_iff_eq_take] at hp ⊢
  rw [← h.mono hu]
  exact hp

end Agree

namespace Scan

variable {α β : Type} {j k n : Nat} {m : Scan α} {f : α → Scan β}

/-- **How far `m` looks**: what it reads is settled `k` characters further on, where it fails is
settled `n` characters past the place it reports. -/
structure Sighted (k n : Nat) (m : Scan α) : Prop where
  reads : ∀ {u r r' x}, m.Reads (u ++ r) x r → Agree k r r' → m.Reads (u ++ r') x r'
  fails : ∀ {u v v' e}, m.Fails (u ++ v) u e → Agree n v v' → m.Fails (u ++ v') u e

/-- A reader that looks no further than `Sighted` says and always reads something. -/
structure Token (k n : Nat) (m : Scan α) : Prop extends Sighted k n m where
  consumes : m.Consumes

theorem Sighted.mono (h : Sighted j n m) (hjk : j ≤ k) : Sighted k n m :=
  ⟨fun hr hk => h.reads hr (hk.mono hjk), h.fails⟩

theorem Token.one (h : Token 0 n m) : Token 1 n m :=
  ⟨h.toSighted.mono (Nat.zero_le 1), h.consumes⟩

/-! ## Readers in turn -/

theorem sighted_pure (x : α) : Sighted k n (pure x : Scan α) where
  reads h _ := by
    obtain ⟨rfl, hu⟩ := reads_pure.mp h
    obtain rfl := List.self_eq_append_left.mp hu
    exact reads_pure.mpr ⟨rfl, rfl⟩
  fails h := absurd h not_fails_pure

theorem Token.map [Onward m] (h : Token k n m) (g : α → β) :
    Token k n (m >>= fun x => pure (g x)) where
  reads hr hk := by
    obtain ⟨x, s, hx, hs⟩ := reads_bind.mp hr
    obtain ⟨rfl, rfl⟩ := reads_pure.mp hs
    exact (h.reads hx hk).bind (reads_pure.mpr ⟨rfl, rfl⟩)
  fails hf hv := by
    obtain hf | ⟨_, _, _, -, -, hp⟩ := fails_bind_append.mp hf
    · exact (h.fails hf hv).bind
    · exact absurd hp not_fails_pure
  consumes := h.consumes.bind _

section Bind

variable [Onward m] [∀ x, Onward (f x)]

/-- The first of two readers sees enough if what the second one reads shows it what it looks for. -/
theorem reads_bind_of_agree (hm : Sighted 1 n m)
    (hf : ∀ {x u r r' y}, (f x).Reads (u ++ r) y r → Agree k r r' →
      (f x).Reads (u ++ r') y r' ∧ Agree 1 (u ++ r) (u ++ r'))
    {u r r' : Text} {y : β} (h : (m >>= f).Reads (u ++ r) y r) (hr : Agree k r r') :
    (m >>= f).Reads (u ++ r') y r' := by
  obtain ⟨w, v, x, rfl, hx, hy⟩ := reads_bind_append.mp h
  obtain ⟨hy', hagree⟩ := hf hy hr
  exact reads_bind_append.mpr ⟨w, v, x, rfl, hm.reads hx hagree, hy'⟩

theorem fails_bind_of_agree [Fact (0 < n)] (hm : Sighted 1 n m) (hf : ∀ x, Sighted k n (f x))
    {u v v' : Text} {e : DiagnosticKind} (h : (m >>= f).Fails (u ++ v) u e) (hv : Agree n v v') :
    (m >>= f).Fails (u ++ v') u e := by
  obtain h | ⟨w, u', x, rfl, hx, hu⟩ := fails_bind_append.mp h
  · exact (hm.fails h hv).bind
  · have hx' := hm.reads hx (hv.one.append u')
    exact fails_bind_append.mpr (.inr ⟨w, u', x, rfl, hx', (hf x).fails hu hv⟩)

theorem Sighted.bind [Fact (0 < n)] (hm : Sighted 1 n m) (hf : ∀ x, Sighted 1 n (f x)) :
    Sighted 1 n (m >>= f) where
  reads := reads_bind_of_agree hm fun hy hr => ⟨(hf _).reads hy hr, hr.append _⟩
  fails := fails_bind_of_agree hm hf

/-- **A token after a reader hides from it what lies behind the token.** -/
theorem Sighted.bind_token [Fact (0 < n)] (hm : Sighted 1 n m) (hf : ∀ x, Token k n (f x)) :
    Token k n (m >>= f) where
  reads := reads_bind_of_agree hm fun hy hr =>
    ⟨(hf _).reads hy hr, agree_one_append (hy.ne_nil (hf _).consumes) _ _⟩
  fails := fails_bind_of_agree hm fun x => (hf x).toSighted
  consumes := .of_bind m fun x => (hf x).consumes

end Bind

/-! ## Tokens -/

section Tokens

variable {u v v' r r' : Text} {e : DiagnosticKind}

theorem sighted_readWhile (p : Char → Bool) : Sighted 1 n (readWhile p) where
  reads h hr := by
    have hrun := reads_readWhile.mp h
    obtain rfl := List.append_cancel_right hrun.eq_append
    exact reads_readWhile.mpr (hr.run hrun)
  fails h := absurd h not_fails_readWhile

theorem sighted_space : Sighted 1 n space := sighted_readWhile _

theorem sighted_separators : Sighted 1 n separators := sighted_readWhile _

variable [Fact (0 < n)]

theorem token_expect (ch : Char) : Token 0 n (expect ch) where
  reads {u r r' x} h _ := by
    obtain rfl : u = [ch] := List.append_cancel_right (reads_expect.mp h)
    exact reads_expect.mpr rfl
  fails {u v v' e} h hv := by
    obtain ⟨hne, rfl, rfl⟩ := fails_expect.mp h
    have hone := hv.one
    simp only [List.nil_append, hone.missing_eq, hone.head?_eq] at hne ⊢
    exact fails_expect_of_ne hne
  consumes := consumes_expect ch

theorem token_name (what : Text) : Token 1 n (name what) where
  reads h hr := by
    obtain ⟨hrun, hw⟩ := reads_name.mp h
    obtain rfl := List.append_cancel_right hrun.eq_append
    exact reads_name.mpr ⟨hr.run hrun, hw⟩
  fails {u v v' e} h hv := by
    obtain ⟨hs, rfl, rfl⟩ := fails_name.mp h
    have hone := hv.one
    simp only [List.nil_append, hone.missing_eq] at hs ⊢
    exact fails_name_of_stops (hone.stops hs)
  consumes := consumes_name what

/-- **A wrong word stays wrong whatever follows the place that tells it from the keyword.** -/
theorem fails_keyword_of_agree {word : Text} (h : (keyword word).Fails (u ++ v) u e)
    (hv : Agree 1 v v') : (keyword word).Fails (u ++ v') u e := by
  obtain ⟨w, r, hrun, hw, hu, rfl⟩ := fails_keyword.mp h
  obtain ⟨z, rfl⟩ : u <+: w := hu ▸ (commonStart_isPrefix w word).1
  obtain rfl : v = z ++ r :=
    List.append_cancel_left (hrun.eq_append.trans (List.append_assoc ..))
  cases z with
  | nil =>
    -- The word ends at the place itself, and the next character shows that it does.
    rw [List.append_nil] at hrun hw hu
    refine fails_keyword.mpr ⟨u, v', hv.run hrun, hw, hu, ?_⟩
    rw [List.append_nil, (hv.append u).missing_eq]
  | cons c z =>
    -- The word goes on with a character that is not the keyword's.
    obtain ⟨v', rfl⟩ := List.head?_eq_some_iff.mp hv.head?_eq.symm
    have hrest := run_takeWhile isNameChar v'
    have hall : ∀ a ∈ u ++ [c], isNameChar a = true := fun a ha =>
      hrun.all a (by simp only [List.mem_append, List.mem_cons] at ha ⊢; tauto)
    have hrun' := hrest.append hall
    simp only [List.append_assoc, List.cons_append, List.nil_append] at hrun'
    have hu' := commonStart_append_cons hu.symm (v'.takeWhile isNameChar)
    refine fails_keyword.mpr ⟨_, _, hrun', fun hword => ?_, hu'.symm, by simp⟩
    rw [hword, commonStart_self, ← hword] at hu'
    simp at hu'

theorem token_keyword {word : Text} (hw : word ≠ []) : Token 1 n (keyword word) where
  reads h hr := by
    have hrun := reads_keyword.mp h
    obtain rfl := List.append_cancel_right hrun.eq_append
    exact reads_keyword.mpr (hr.run hrun)
  fails h hv := fails_keyword_of_agree h hv.one
  consumes := consumes_keyword hw

theorem consumes_quoted : quoted.Consumes := (consumes_expect _).bind _

theorem token_quoted : Token 0 n quoted where
  reads {u r r' x} h _ := by
    obtain ⟨raw, ht, hraw, rfl⟩ := reads_quoted.mp h
    obtain rfl : u = '\x22' :: (raw ++ ['\x22']) :=
      List.append_cancel_right (ht.trans (by simp))
    exact reads_quoted.mpr ⟨raw, by simp, hraw, rfl⟩
  fails {u v v' e} h hv := by
    have hone := hv.one
    obtain ⟨hne, rfl, rfl⟩ | ⟨raw, ht, hopen, hu, rfl⟩ := fails_quoted.mp h
    · rw [List.nil_append, hone.head?_eq] at hne
      exact fails_quoted.mpr (.inl ⟨hne, rfl, hone.missing_eq⟩)
    · obtain rfl : v = [] := List.self_eq_append_right.mp hu
      obtain rfl : v' = [] := hone.symm.eq_nil rfl
      exact h
  consumes := consumes_quoted

end Tokens

/-! ## Loops and lists -/

/-- Items of a row take some text each, and one character past an item settles it. -/
structure Settled (item : Scan α) (P : Text → Prop) : Prop where
  ne_nil : ∀ {u r x}, ¬ P (u ++ r) → item.Reads (u ++ r) x r → u ≠ []
  reads : ∀ {u r r' x}, ¬ P (u ++ r) → item.Reads (u ++ r) x r → Agree 1 r r' →
    ¬ P (u ++ r') ∧ item.Reads (u ++ r') x r'

/-- Tokens are settled where one character tells that the row goes on. -/
theorem settled_of_token {item : Scan α} {P : Text → Prop} (hi : Token 1 n item)
    (hP : ∀ {t t'}, Agree 1 t t' → P t' → P t) : Settled item P where
  ne_nil _ hx := hx.ne_nil hi.consumes
  reads {u _ _ _} hgo hx ha := ⟨fun h => hgo (hP (ha.append u) h), hi.reads hx ha⟩

section Settled

variable {item : Scan α} {P : Text → Prop} {u v r r' : Text} {xs : List α}

/-- A row that takes no text has no items. -/
theorem Repeats.eq_nil (hi : Settled item P) (h : Repeats item P r xs r) : xs = [] := by
  generalize hr : r = t at h
  cases h with
  | nil => rfl
  | @cons _ s _ x xs hgo head tail =>
    obtain ⟨y, hy⟩ := tail.exists_eq_append
    obtain ⟨z, hz⟩ := head.exists_eq_append
    have hnil : z ++ y = [] := by
      refine List.self_eq_append_left.mp (?_ : t = z ++ y ++ t)
      rw [List.append_assoc, ← hy, ← hz]
    obtain ⟨rfl, -⟩ := List.append_eq_nil_iff.mp hnil
    rw [hz] at hgo head
    exact absurd rfl (hi.ne_nil hgo head)

/-- **A row of items before another text**: only its last item sees what has changed. -/
theorem Repeats.before (hi : Settled item P)
    (hlast : ∀ {u x}, ¬ P (u ++ r) → item.Reads (u ++ r) x r →
      ¬ P (u ++ r') ∧ item.Reads (u ++ r') x v)
    (h : Repeats item P (u ++ r) xs r) (hu : u ≠ []) : Repeats item P (u ++ r') xs v := by
  generalize ht : u ++ r = t at h
  induction h generalizing u with
  | nil t => exact absurd (List.append_left_eq_self.mp ht) hu
  | cons hgo head tail ih =>
    obtain ⟨y, rfl⟩ := tail.exists_eq_append
    obtain ⟨z, rfl⟩ := head.exists_eq_append
    rw [← List.append_assoc] at ht
    obtain rfl := List.append_cancel_right ht
    rw [List.append_assoc]
    by_cases hy : y = []
    · subst hy
      obtain rfl := tail.eq_nil hi
      obtain ⟨hgo', head'⟩ := hlast hgo head
      exact .cons hgo' head' (.nil v)
    · obtain ⟨hgo', head'⟩ := hi.reads hgo head (agree_one_append hy _ _)
      exact .cons hgo' head' (ih hlast hy rfl)

/-- A row of items stands as it is before a text with the same front. -/
theorem Repeats.of_agree (hi : Settled item P) (h : Repeats item P (u ++ r) xs r)
    (hr : Agree 1 r r') : Repeats item P (u ++ r') xs r' := by
  by_cases hu : u = []
  · subst hu
    obtain rfl := h.eq_nil hi
    exact .nil r'
  · exact h.before hi (fun hgo hx => hi.reads hgo hx hr) hu

end Settled

variable [Fact (0 < n)]

section Loops

variable {item : Scan α} [Onward item] {stop : Cursor → Bool} {P : Text → Prop}
  {h : item.Progresses stop}

theorem sighted_many (hi : Token 1 n item) (hs : Sees stop P)
    (hP : ∀ {t t'}, Agree 1 t t' → P t' → P t) : Sighted 1 n (many item stop h) where
  reads hr hk := by
    obtain ⟨hrow, hend⟩ := (reads_many hs).mp hr
    exact (hrow.of_agree (settled_of_token hi hP) hk).reads_many hs (hP hk.symm hend)
  fails {u v v' e} hf hv := by
    obtain ⟨xs, w, s, u', hw, rfl, hrow, hgo, hu⟩ := (fails_many hs).mp hf
    rw [List.append_assoc] at hw
    obtain rfl := List.append_cancel_left hw
    rw [List.append_assoc] at hrow ⊢
    have hone := hv.one.append u'
    exact (hrow.of_agree (settled_of_token hi hP) hone).fails_many hs (fun hP' => hgo (hP hone hP'))
      (hi.fails hu hv)

theorem sighted_manyUntil (hi : Token 1 n item) {hc : item.Consumes} (close : Char) :
    Sighted 1 n (manyUntil item hc close) :=
  sighted_many hi (sees_peek close) fun ha h' => ha.head?_eq.trans h'

theorem token_closed (hi : Token 1 n item) {hc : item.Consumes} (close : Char) :
    Token 0 n (closed item hc close) :=
  (sighted_manyUntil hi close).bind_token fun _ => (token_expect close).map _

theorem token_listed (hi : Token 1 n item) {hc : item.Consumes} (opening close : Char) :
    Token 0 n (listed opening item hc close) :=
  (token_expect opening).one.bind_token fun _ => sighted_space.bind_token fun _ =>
    token_closed hi close

theorem token_spaced {m : Scan α} [Onward m] (hm : Token k n m) : Token k n (spaced m) :=
  sighted_space.bind_token fun _ => hm

theorem token_padded {m : Scan α} [Onward m] (hm : Token 1 n m) (p : Char → Bool) :
    Token 1 n (padded m p) where
  toSighted := (token_spaced hm).toSighted.bind fun _ =>
    (sighted_readWhile p).bind fun _ => sighted_pure _
  consumes := hm.consumes.padded p

/-- **A padded token before another text**: the run behind it goes on into that text, and the token
itself is read again. -/
theorem reads_padded_before {m : Scan α} [Onward m] {p : Char → Bool} {u r r' w v : Text} {x : α}
    (h : (padded m p).Reads (u ++ r) x r)
    (hm : ∀ {y w}, (spaced m).Reads (y ++ (w ++ r)) x (w ++ r) →
      (spaced m).Reads (y ++ (w ++ r')) x (w ++ r'))
    (hr' : Run p r' w v) : (padded m p).Reads (u ++ r') x v := by
  obtain ⟨w', hx, hafter⟩ := reads_padded.mp h
  obtain ⟨y, hy⟩ := hx.exists_eq_append
  obtain rfl : u = y ++ w' := List.append_cancel_right (hy.trans (List.append_assoc ..).symm)
  rw [List.append_assoc] at hx ⊢
  obtain rfl := hr'.eq_append
  refine reads_padded.mpr ⟨w' ++ w, ?_, ?_⟩
  · simpa only [List.append_assoc] using hm hx
  · simpa only [List.append_assoc] using hr'.append hafter.all

end Loops

/-! ## Attributes -/

theorem token_paramCore : Token 0 n paramCore :=
  (token_name _).bind_token fun _ => sighted_separators.bind_token fun _ =>
    (token_expect '=').one.bind_token fun _ => sighted_space.bind_token fun _ =>
      token_quoted.map _

theorem token_tagCore : Token 0 n tagCore :=
  (token_expect '#').one.bind_token fun _ => sighted_space.bind_token fun _ =>
    (token_expect '[').one.bind_token fun _ => sighted_space.bind_token fun _ =>
      (token_name _).bind_token fun _ => sighted_space.bind_token fun _ =>
        (token_listed (token_padded token_paramCore.one _) '(' ')').one.bind_token fun _ =>
          sighted_space.bind_token fun _ => (token_expect ']').map _

/-! ## Documentation

Whether documentation goes on is decided by the marker, which may be long.  Behind it comes a
keyword and then space, which no marker holds: a marker that is not read there is not read whatever
follows. -/

section Documentation

variable {mk : Marker} {d : Dialect} {a b b' u r r' : Text} {c : Char} {lines : List Text}

theorem isBlank_of_isSpace (h : isSpace c = true) : isBlank c = true := by
  simp only [isSpace, Bool.or_eq_true, decide_eq_true_eq] at h
  rcases h with ((((rfl | rfl) | rfl) | rfl) | rfl) | rfl <;> decide

/-- A marker holds no space. -/
theorem not_mem_marker (mk : Marker) (h : isSpace c = true) : c ∉ mk.text := fun hc =>
  absurd (List.any_eq_true.mpr ⟨c, hc, isBlank_of_isSpace h⟩) (by simp [mk.not_blank])

/-- **A marker is looked for up to the next space only.** -/
theorem noMarker_append_cons (h : isSpace c = true) :
    NoMarker mk (a ++ c :: b) ↔ NoMarker mk a := by
  refine not_congr ⟨fun hp => ?_, fun hp => hp.trans (List.prefix_append a _)⟩
  refine List.prefix_of_prefix_length_le hp (List.prefix_append a _) ?_
  refine Nat.le_of_not_lt fun hlt => not_mem_marker mk h ?_
  obtain ⟨z, hz⟩ := hp
  have hc : (mk.text ++ z)[a.length]? = some c := by rw [hz]; simp
  rw [List.getElem?_append_left hlt] at hc
  exact List.mem_of_getElem? hc

/-- A line of documentation is read as it is before a text with the same front. -/
theorem settled_docLine (mk : Marker) : Settled (docLine mk) (NoMarker mk) where
  ne_nil {u r x} hgo hx := by
    rintro rfl
    obtain ⟨line, s, w, ht, -, hw, -⟩ := reads_docLine.mp ⟨hgo, hx⟩
    rw [hw.eq_append, List.nil_append, ← List.append_assoc, ← List.append_assoc] at ht
    have hnil := List.self_eq_append_left.mp ht
    exact mk.text_ne_nil (List.append_eq_nil_iff.mp (List.append_eq_nil_iff.mp hnil).1).1
  reads {u r r' x} hgo hx ha := by
    obtain ⟨line, s, w, ht, hline, hw, rfl⟩ := reads_docLine.mp ⟨hgo, hx⟩
    obtain rfl := hw.eq_append
    obtain rfl : u = mk.text ++ (line ++ w) :=
      List.append_cancel_right (ht.trans (by simp only [List.append_assoc]))
    simp only [List.append_assoc]
    exact reads_docLine.mpr ⟨line, _, w, rfl, (ha.append w).run hline, ha.run hw, rfl⟩

theorem token_fieldName : Token 1 n (fieldName d) :=
  (token_keyword d.visibility.text_ne_nil).bind_token fun _ =>
    sighted_space.bind_token fun _ => token_name _

/-- A field has space between the word that makes it visible and its name. -/
theorem exists_space_of_reads_fieldName {x : Text} (h : (spaced (fieldName d)).Reads (u ++ r) x r) :
    ∃ w c b, u = w ++ (d.visibility.text ++ c :: b) ∧ isSpace c = true ∧
      ∀ c ∈ w, isSpace c = true := by
  simp only [reads_spaced, fieldName, reads_bind, reads_space, reads_keyword, reads_name] at h
  obtain ⟨w, s₁, hw, -, s₂, hvisible, w', s₃, hw', hname, hx⟩ := h
  cases w' with
  | nil =>
    -- With no space between them the two words would be one.
    obtain ⟨rfl, -⟩ := run_nil_iff.mp hw'
    exact absurd hvisible.stops (hname.not_stops hx)
  | cons c w' =>
    have hu : u ++ r = w ++ (d.visibility.text ++ c :: (w' ++ x)) ++ r := by
      rw [hw.eq_append, hvisible.eq_append, hw'.eq_append, hname.eq_append]
      simp only [List.append_assoc, List.cons_append]
    exact ⟨w, c, w' ++ x, List.append_cancel_right hu, hw'.all c (List.mem_cons_self ..), hw.all⟩

instance (mk : Marker) : Fact (0 < mk.text.length) :=
  ⟨List.length_pos_iff.mpr mk.text_ne_nil⟩

/-- **The head of a field is read before another text** if its name is: the space before the name
keeps the marker from looking that far. -/
theorem reads_fieldHead_before {x : List Text × Text} (h : (fieldHead d).Reads (u ++ r) x r)
    (hname : ∀ {v}, (spaced (fieldName d)).Reads (v ++ r) x.2 r →
      (spaced (fieldName d)).Reads (v ++ r') x.2 r') : (fieldHead d).Reads (u ++ r') x r' := by
  obtain ⟨w, v, lines, rfl, hlines, h⟩ := reads_bind_append.mp h
  obtain ⟨name, s, hx, hs⟩ := reads_bind.mp h
  obtain ⟨rfl, rfl⟩ := reads_pure.mp hs
  obtain ⟨hrow, hmark⟩ := reads_docLines.mp hlines
  have hne := hx.ne_nil (consumes_fieldName d).spaced
  have hrow' := hrow.of_agree (settled_docLine _) (agree_one_append hne r r')
  have hmark' : NoMarker d.marker (v ++ r') := by
    obtain ⟨w, c, b, rfl, hc, -⟩ := exists_space_of_reads_fieldName hx
    rw [← List.append_assoc, List.append_assoc, List.cons_append, noMarker_append_cons hc]
      at hmark ⊢
    exact hmark
  have hlines' := reads_docLines.mpr ⟨hrow', hmark'⟩
  rw [List.append_assoc]
  exact hlines'.bind ((hname hx).bind (reads_pure.mpr ⟨rfl, rfl⟩))

/-- **A field is settled one character further on**, however long the marker is. -/
theorem token_fieldHead (d : Dialect) : Token 1 d.marker.text.length (fieldHead d) where
  reads h hr := reads_fieldHead_before h fun hx =>
    (token_spaced (token_fieldName (n := d.marker.text.length))).reads hx hr
  fails {u v v' e} h hv := by
    obtain h | ⟨w, u', lines, rfl, hx, hu⟩ := fails_bind_append.mp h
    · exact absurd h not_fails_docLines
    obtain ⟨hrow, hmark⟩ := reads_docLines.mp hx
    have hrow' := hrow.of_agree (settled_docLine _) (hv.one.append u')
    -- The marker is looked for in the very characters on which the two texts agree.
    have hmark' : NoMarker d.marker (u' ++ v') := fun hp =>
      hmark ((hv.symm.append u').isPrefix (Nat.le_refl _) hp)
    have hlines' := reads_docLines.mpr ⟨hrow', hmark'⟩
    have hu' := ((token_spaced token_fieldName).map _).fails hu hv
    exact fails_bind_append.mpr (.inr ⟨w, u', lines, rfl, hlines', hu'⟩)
  consumes := consumes_fieldHead d

end Documentation

/-! ## Whole texts -/

section Whole

variable (d : Dialect)

theorem token_fieldCore : Token 1 d.marker.text.length (fieldCore d) :=
  (token_fieldHead d).bind_token fun _ => sighted_space.bind_token fun _ =>
    (token_expect ':').one.bind_token fun _ => sighted_space.bind_token fun _ =>
      (token_name _).map _

theorem token_recordCore : Token 0 d.marker.text.length (recordCore d) :=
  (token_keyword d.visibility.text_ne_nil).bind_token fun _ => sighted_space.bind_token fun _ =>
    (token_keyword d.record.text_ne_nil).bind_token fun _ => sighted_space.bind_token fun _ =>
      (token_name _).bind_token fun _ => sighted_space.bind_token fun _ =>
        (token_listed (token_padded (token_fieldCore d) _) _ _).map _

theorem token_entryCore : Token 0 d.marker.text.length (entryCore d) :=
  token_tagCore.one.bind_token fun _ => sighted_space.bind_token fun _ => (token_recordCore d).map _

theorem sighted_entries : Sighted 1 d.marker.text.length (entries d) := by
  have hentry := token_padded (token_entryCore d).one isSpace
  have hloop : Sighted 1 d.marker.text.length
      (many (padded (entryCore d) isSpace) Cursor.atEnd (progresses_padded_entryCore d)) :=
    sighted_many hentry sees_atEnd Agree.eq_nil
  rw [entries_eq]
  exact sighted_space.bind fun _ => hloop

end Whole

end Scan

namespace Catalog

/-- **Nothing after a syntax error matters**: a text that agrees with a wrong one up to the error
and as far past it as the marker is long has the same error in the same place. -/
theorem error_settled_by_front (d : Dialect) (t t' : Text) (e : ScanError)
    (h : ofText? d t = .error e)
    (hfront : t.take (e.position.offset + d.marker.text.length) =
      t'.take (e.position.offset + d.marker.text.length)) :
    ∃ e', ofText? d t' = .error e' ∧ e'.position = e.position ∧ e'.code = e.code := by
  obtain ⟨hu, hposition⟩ := Scan.fails_of_ofText? h
  generalize e.position.offset = k at hu hposition hfront
  have hread : t.take k = t'.take k := Agree.mono hfront (Nat.le_add_right k _)
  have hnext : Agree d.marker.text.length (t.drop k) (t'.drop k) := by
    have := congrArg (List.drop k) hfront
    rwa [List.drop_take, List.drop_take, Nat.add_sub_cancel_left] at this
  have hu' : (Scan.entries d).Fails (t.take k ++ t.drop k) (t.take k) e.kind := by
    rwa [List.take_append_drop]
  have hfails := (Scan.sighted_entries d).fails hu' hnext
  rw [hread, List.take_append_drop] at hfails
  obtain ⟨e', he', hkind, hposition'⟩ := hfails.exists_error
  exact ⟨e', he', by rw [hposition', hposition, hread], congrArg DiagnosticKind.code hkind⟩

/-- Three slashes open no documentation if the character after them is another. -/
theorem error_settled_by_front_slashes : ∃ e,
    ofText? .standard "#[e()] pub struct A \x7b /// x \x7d".toList = .error e ∧
      e.position.offset = 22 ∧ ∃ e',
        ofText? .standard "#[e()] pub struct A \x7b /// pub x: y \x7d".toList = .error e' ∧
          e'.position = e.position ∧ e'.code = e.code := by
  have herror : ofText? .standard "#[e()] pub struct A \x7b /// x \x7d".toList =
      .error ⟨.unexpected (.keyword "pub".toList) '/' " A \x7b /// x".toList,
        ⟨22, 1, 23, by decide, by decide⟩, .unexpected, none⟩ := by decide +kernel
  exact ⟨_, herror, rfl, error_settled_by_front _ _ _ _ herror (by decide)⟩

end Catalog

end ErrorCatalog
