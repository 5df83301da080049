import ErrorCatalog.Proofs.Text

/-!
# Proofs/Json/Value — JSON values and their tokens

The values of JSON (RFC 8259) and the tokens a value is written with.  A machine reads tokens one by
one; what it has read so far can be told from its state (`State.step_tokens`), so it accepts just
the rows of tokens that values are written with (`ofTokens?_eq_some_iff`).
-/

namespace ErrorCatalog

namespace Json

/-! ## Values -/

/-- A value without parts.  A number is kept as it is spelt. -/
inductive Scalar
  | null
  | bool (b : Bool)
  | number (spelling : Text)
  | text (t : Text)
  deriving DecidableEq, Repr

/-- **A value of JSON**; an object keeps its members in order, and all of one name. -/
inductive Value
  | scalar (s : Scalar)
  | array (items : List Value)
  | object (members : List (Text × Value))

/-! ## Tokens -/

/-- What a JSON text is made of, besides the space in it. -/
inductive Token
  | openArray
  | closeArray
  | openObject
  | closeObject
  | comma
  | colon
  | scalar (s : Scalar)
  deriving DecidableEq, Repr

namespace Value

mutual

/-- **The tokens that a value is written with.** -/
def tokens : Value → List Token
  | scalar s => [.scalar s]
  | array items => .openArray :: List.intercalate [.comma] (itemTokens items) ++ [.closeArray]
  | object members =>
      .openObject :: List.intercalate [.comma] (memberTokens members) ++ [.closeObject]

/-- The tokens of items, one by one. -/
def itemTokens : List Value → List (List Token)
  | [] => []
  | v :: items => v.tokens :: itemTokens items

/-- The tokens of members, one by one. -/
def memberTokens : List (Text × Value) → List (List Token)
  | [] => []
  | (key, v) :: members => (.scalar (.text key) :: .colon :: v.tokens) :: memberTokens members

end

/-- The tokens of a member. -/
def tokensOfMember (m : Text × Value) : List Token :=
  .scalar (.text m.1) :: .colon :: m.2.tokens

theorem itemTokens_eq_map (items : List Value) : itemTokens items = items.map tokens := by
  induction items with
  | nil => rfl
  | cons v items ih => rw [itemTokens, ih, List.map_cons]

theorem memberTokens_eq_map (members : List (Text × Value)) :
    memberTokens members = members.map tokensOfMember := by
  induction members with
  | nil => rfl
  | cons m members ih => rw [memberTokens, ih, List.map_cons, tokensOfMember]

theorem tokens_array (items : List Value) : (array items).tokens =
    .openArray :: List.intercalate [.comma] (items.map tokens) ++ [.closeArray] := by
  rw [tokens, itemTokens_eq_map]

theorem tokens_object (members : List (Text × Value)) : (object members).tokens =
    .openObject :: List.intercalate [.comma] (members.map tokensOfMember) ++ [.closeObject] := by
  rw [tokens, memberTokens_eq_map]

/-- **Induction over values**: what all parts hand on to the whole holds of every value. -/
@[induction_eliminator]
theorem induct {P : Value → Prop} (scalar : ∀ s, P (.scalar s))
    (array : ∀ items, (∀ v ∈ items, P v) → P (.array items))
    (object : ∀ members, (∀ m ∈ members, P m.2) → P (.object members)) (v : Value) : P v :=
  @Value.rec P (fun items => ∀ v ∈ items, P v) (fun members => ∀ m ∈ members, P m.2)
    (fun m => P m.2) scalar array object nofun
    (fun _ _ hv hitems => List.forall_mem_cons.mpr ⟨hv, hitems⟩) nofun
    (fun _ _ hm hmembers => List.forall_mem_cons.mpr ⟨hm, hmembers⟩) (fun _ _ hv => hv) v

end Value

/-! ## Reading tokens -/

/-- An array or object that is not closed yet, up to the value that comes next. -/
inductive Frame
  | array (done : List Value)
  | object (done : List (Text × Value)) (key : Text)

/-- **What is read so far**, inside the frames, the innermost of them first. -/
inductive State
  /-- A value comes. -/
  | value (frames : List Frame)
  /-- The first item of an array comes, or its end. -/
  | first (frames : List Frame)
  /-- The first key of an object comes, or its end. -/
  | firstKey (frames : List Frame)
  /-- Another key comes. -/
  | key (frames : List Frame) (done : List (Text × Value))
  /-- The colon behind a key comes. -/
  | colon (frames : List Frame) (done : List (Text × Value)) (key : Text)
  /-- A value is complete. -/
  | after (frames : List Frame) (v : Value)

namespace State

/-- The state behind the first token of a value. -/
def start (frames : List Frame) : Token → Option State
  | .scalar s => some (after frames (.scalar s))
  | .openArray => some (first frames)
  | .openObject => some (firstKey frames)
  | _ => none

/-- The state behind one more token; `none` if it cannot come here. -/
def step : State → Token → Option State
  | value frames, token => start frames token
  | first frames, .closeArray => some (after frames (.array []))
  | first frames, token => start (.array [] :: frames) token
  | firstKey frames, .closeObject => some (after frames (.object []))
  | firstKey frames, .scalar (.text k) => some (colon frames [] k)
  | key frames done, .scalar (.text k) => some (colon frames done k)
  | colon frames done k, .colon => some (value (.object done k :: frames))
  | after (.array done :: frames) v, .comma => some (value (.array (done ++ [v]) :: frames))
  | after (.array done :: frames) v, .closeArray => some (after frames (.array (done ++ [v])))
  | after (.object done k :: frames) v, .comma => some (key frames (done ++ [(k, v)]))
  | after (.object done k :: frames) v, .closeObject =>
      some (after frames (.object (done ++ [(k, v)])))
  | _, _ => none

end State

/-- **The value that a row of tokens is written for**, if there is one. -/
def Value.ofTokens? (tokens : List Token) : Option Value :=
  match tokens.foldlM State.step (.value []) with
  | some (.after [] v) => some v
  | _ => none

/-! ## What is read is what was written -/

/-- The tokens of a frame that is not closed. -/
@[simp]
def Frame.tokens : Frame → List Token
  | array done => .openArray :: done.flatMap (·.tokens ++ [.comma])
  | object done key => .openObject :: done.flatMap (Value.tokensOfMember · ++ [.comma]) ++
      [.scalar (.text key), .colon]

/-- The tokens of frames inside each other. -/
@[simp]
def framesTokens : List Frame → List Token
  | [] => []
  | f :: frames => framesTokens frames ++ f.tokens

/-- The tokens that lead to a state. -/
@[simp]
def State.tokens : State → List Token
  | value frames => framesTokens frames
  | first frames => framesTokens frames ++ [.openArray]
  | firstKey frames => framesTokens frames ++ [.openObject]
  | key frames done =>
      framesTokens frames ++ .openObject :: done.flatMap (Value.tokensOfMember · ++ [.comma])
  | colon frames done k =>
      framesTokens frames ++ .openObject :: done.flatMap (Value.tokensOfMember · ++ [.comma]) ++
        [.scalar (.text k)]
  | after frames v => framesTokens frames ++ v.tokens

namespace State

variable {s s' : State} {token : Token} {tokens : List Token} {frames : List Frame} {v : Value}

theorem tokens_start (h : start frames token = some s) :
    s.tokens = framesTokens frames ++ [token] := by
  cases token with
  | scalar | openArray | openObject => cases h; simp [Value.tokens]
  | _ => cases h

/-- **A step reads its token and nothing else.** -/
theorem tokens_step (h : s.step token = some s') : s'.tokens = s.tokens ++ [token] := by
  unfold step at h
  -- One goal for each row of `step`, in their order.
  split at h
  · exact tokens_start h
  · cases h; simp [Value.tokens_array]
  · rw [tokens_start h]; simp
  · cases h; simp [Value.tokens_object]
  · cases h; simp
  · cases h; simp
  · cases h; simp
  · cases h; simp
  · cases h; simp [Value.tokens_array, intercalate_concat, List.flatMap_map]
  · cases h; simp [Value.tokensOfMember]
  · cases h; simp [Value.tokens_object, Value.tokensOfMember, intercalate_concat, List.flatMap_map]
  · cases h

/-- **A run reads its tokens and nothing else.** -/
theorem tokens_foldlM (h : tokens.foldlM step s = some s') : s'.tokens = s.tokens ++ tokens := by
  induction tokens generalizing s with
  | nil =>
    cases h
    rw [List.append_nil]
  | cons token tokens ih =>
    rw [List.foldlM_cons] at h
    obtain ⟨s₁, hstep, htokens⟩ := Option.bind_eq_some_iff.mp h
    rw [ih htokens, tokens_step hstep, List.append_assoc, List.singleton_append]

/-! ## What is written is read -/

/-- From a state that a value can come in, its tokens lead to the state behind it. -/
def Runs (v : Value) : Prop :=
  ∀ frames, v.tokens.foldlM step (value frames) = some (after frames v)

/-- A value that comes first in an array is read as any other. -/
theorem foldlM_first (v : Value) (frames : List Frame) :
    v.tokens.foldlM step (first frames) = v.tokens.foldlM step (value (.array [] :: frames)) := by
  cases v <;> rfl

/-- **Parts behind a comma each, up to the end**, are read one by one if each of them is. -/
theorem foldlM_parts {α : Type} (tokensOf : α → List Token) (last : List α → α → State)
    (whole : List α → State) {close : Token} {xs : List α}
    (hcomma : ∀ done x, ∀ y ∈ xs,
      List.foldlM step (last done x) (.comma :: tokensOf y) = some (last (done ++ [x]) y))
    (hclose : ∀ done x, step (last done x) close = some (whole (done ++ [x])))
    (done : List α) (x : α) :
    List.foldlM step (last done x) ((xs.map tokensOf).flatMap ([.comma] ++ ·) ++ [close]) =
      some (whole (done ++ x :: xs)) := by
  induction xs generalizing done x with
  | nil => exact congrArg (· >>= some) (hclose done x)
  | cons y xs ih =>
    have hy := hcomma done x y (List.mem_cons_self ..)
    rw [List.map_cons, List.flatMap_cons, List.append_assoc, List.singleton_append,
      List.foldlM_append, hy]
    change List.foldlM step (last (done ++ [x]) y) _ = _
    rw [ih fun done x y hy => hcomma done x y (List.mem_cons_of_mem _ hy), List.append_assoc,
      List.singleton_append]

theorem foldlM_member {m : Text × Value} (hm : Runs m.2) (done : List (Text × Value))
    (frames : List Frame) : (Value.tokensOfMember m).foldlM step (key frames done) =
      some (after (.object done m.1 :: frames) m.2) := hm _

/-- The first key of an object is read as any other. -/
theorem foldlM_firstKey (m : Text × Value) (frames : List Frame) :
    (Value.tokensOfMember m).foldlM step (firstKey frames) =
      (Value.tokensOfMember m).foldlM step (key frames []) := rfl

/-- **The tokens of a value are read as that value.** -/
theorem runs (v : Value) : Runs v := by
  induction v with
  | scalar s => exact fun _ => rfl
  | array items hitems =>
    intro frames
    rw [Value.tokens_array, List.cons_append, List.foldlM_cons]
    change List.foldlM step (first frames) _ = _
    cases items with
    | nil => rfl
    | cons v items =>
      obtain ⟨hv, hitems⟩ := List.forall_mem_cons.mp hitems
      rw [List.map_cons, intercalate_cons_eq, List.append_assoc, List.foldlM_append, foldlM_first,
        hv]
      exact foldlM_parts Value.tokens (fun done v => after (.array done :: frames) v)
        (fun items => after frames (.array items)) (fun _ _ w hw => hitems w hw _)
        (fun _ _ => rfl) [] v
  | object members hmembers =>
    intro frames
    rw [Value.tokens_object, List.cons_append, List.foldlM_cons]
    change List.foldlM step (firstKey frames) _ = _
    cases members with
    | nil => rfl
    | cons m members =>
      obtain ⟨hm, hmembers⟩ := List.forall_mem_cons.mp hmembers
      rw [List.map_cons, intercalate_cons_eq, List.append_assoc, List.foldlM_append,
        foldlM_firstKey, foldlM_member hm]
      exact foldlM_parts Value.tokensOfMember (fun done m => after (.object done m.1 :: frames) m.2)
        (fun members => after frames (.object members))
        (fun _ _ n hn => foldlM_member (hmembers n hn) _ _) (fun _ _ => rfl) [] m

end State

/-- **The tokens that are read as a value are those that it is written with**, and no others. -/
theorem Value.ofTokens?_eq_some_iff {tokens : List Token} {v : Value} :
    ofTokens? tokens = some v ↔ tokens = v.tokens := by
  unfold ofTokens?
  constructor
  · intro h
    split at h
    · next w hrun =>
      cases h
      exact (State.tokens_foldlM hrun).symm
    · cases h
  · rintro rfl
    rw [State.runs v []]

end Json

end ErrorCatalog
