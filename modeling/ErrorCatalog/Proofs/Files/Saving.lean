import ErrorCatalog.Proofs.Files.Tree
import ErrorCatalog.Proofs.Text

/-!
# Proofs/Files/Saving — what a failed save complains of

A request that is refused by the system names the path it was made with.  Saving makes several
requests: one for the file, one for its directory and, as long as that has no place to stand in, one
for each directory above.  So a save that fails names the file, its directory, or a directory above
that if the place for its directory was missing (`FileTree.save_eq_error`).
-/

namespace ErrorCatalog

namespace Path

variable {p q : Path}

/-- `q` is a directory on the way to what `p` names. -/
def IsAbove (q p : Path) : Prop :=
  q.anchor = p.anchor ∧ ∃ part parts, p.parts = q.parts ++ part :: parts

theorem parent_isAbove (hp : p.parts ≠ []) : p.parent.IsAbove p :=
  ⟨rfl, _, [], (List.dropLast_append_getLast hp).symm⟩

theorem IsAbove.of_parent (h : q.IsAbove p.parent) : q.IsAbove p := by
  obtain ⟨hanchor, part, parts, hparts⟩ := h
  obtain ⟨last, hlast⟩ := List.dropLast_prefix p.parts
  change p.parts.dropLast = q.parts ++ part :: parts at hparts
  exact ⟨hanchor, part, parts ++ last, by rw [← hlast, hparts, List.append_assoc, List.cons_append]⟩

/-- A path holds a NUL character just if one of its parts does. -/
theorem nul_mem_toText : '\x00' ∈ p.toText ↔ ∃ part ∈ p.parts, '\x00' ∈ part := by
  have hslash : '\x00' ∉ p.anchor.text := by cases p.anchor <;> decide
  have hiff : '\x00' ∈ p.anchor.text ++ List.intercalate ['/'] p.parts ↔
      ∃ part ∈ p.parts, '\x00' ∈ part := by
    rw [List.mem_append, or_iff_right hslash]
    refine ⟨fun h => (mem_intercalate h).resolve_left (by decide), fun ⟨part, hpart, h⟩ => ?_⟩
    exact (infix_intercalate ['/'] hpart).subset h
  rw [toText]
  split
  · next hnil =>
    rw [hnil] at hiff
    rw [← hiff]
    decide
  · exact hiff

theorem nul_not_mem_parent (h : '\x00' ∉ p.toText) : '\x00' ∉ p.parent.toText := by
  rw [nul_mem_toText] at h ⊢
  exact fun ⟨part, hpart, hnul⟩ => h ⟨part, List.mem_of_mem_dropLast hpart, hnul⟩

theorem nul_not_mem_ofText {t : Text} (h : '\x00' ∉ t) : '\x00' ∉ (ofText t).toText := by
  rw [nul_mem_toText]
  rintro ⟨part, hpart, hnul⟩
  have hpiece := infix_intercalate ['/'] (List.mem_of_mem_filter hpart)
  rw [Text.intercalate_pieces] at hpiece
  exact h (hpiece.subset hnul)

end Path

namespace FileTree

variable {t t' : FileTree} {l : Location} {p q : Path} {content : Bytes} {fault fault' : FileFault}

/-! ## Requests that are refused -/

theorem locate_eq_error (hnul : '\x00' ∉ p.toText) (h : t.locate p = .error fault) :
    ∃ f, fault = .system f p := by
  rw [locate, if_neg hnul] at h
  split at h
  · obtain rfl := Except.error.inj h
    exact ⟨_, rfl⟩
  · cases hparts : p.parts.foldlM t.descend (t.base p.anchor) with
    | ok l =>
      rw [hparts] at h
      cases h
    | error f =>
      rw [hparts] at h
      obtain rfl := Except.error.inj h
      exact ⟨f, rfl⟩

theorem makeDirectory_eq_error (hnul : '\x00' ∉ p.toText) (h : t.makeDirectory p = .error fault) :
    ∃ f, fault = .system f p := by
  obtain hlocate | ⟨l, -, hnode⟩ := eq_error_of_bind h
  · exact locate_eq_error hnul hlocate
  · split at hnode
    · obtain rfl := Except.error.inj hnode
      exact ⟨_, rfl⟩
    · cases hnode

theorem write_eq_error (hnul : '\x00' ∉ p.toText) (h : t.write p content = .error fault) :
    ∃ f, fault = .system f p := by
  obtain hlocate | ⟨l, -, hnode⟩ := eq_error_of_bind h
  · exact locate_eq_error hnul hlocate
  · split at hnode
    · obtain rfl := Except.error.inj hnode
      exact ⟨_, rfl⟩
    · cases hnode

section Locate

theorem foldlM_of_locate (h : t.locate p = .ok l) :
    p.parts.foldlM t.descend (t.base p.anchor) = .ok l := by
  rw [locate] at h
  split at h
  · cases h
  · split at h
    · cases h
    · cases hparts : p.parts.foldlM t.descend (t.base p.anchor) with
      | error f =>
        rw [hparts] at h
        cases h
      | ok l' =>
        rw [hparts] at h
        exact congrArg Except.ok (Except.ok.inj h)

theorem foldlM_of_locate_notFound (h : t.locate p = .error (.system .notFound q)) :
    p.parts.foldlM t.descend (t.base p.anchor) = .error .notFound := by
  rw [locate] at h
  split at h
  · cases h
  · split at h
    · cases h
    · cases hparts : p.parts.foldlM t.descend (t.base p.anchor) with
      | error f =>
        rw [hparts] at h
        obtain ⟨rfl, -⟩ := FileFault.system.inj (Except.error.inj h)
        rfl
      | ok l =>
        rw [hparts] at h
        cases h

theorem descend_ne_notFound (hl : t.node? l = some .directory) (part : Text) :
    t.descend l part ≠ .error .notFound := by
  rw [descend, hl]
  dsimp only
  split_ifs <;> rintro ⟨⟩

end Locate

/-- **In a directory that is there nothing is missing**: a path into it names a location, or its
last part is too long. -/
theorem locate_ne_notFound (hp : p.parts ≠ []) (h : t.isDirectory p.parent = true) :
    t.locate p ≠ .error (.system .notFound q) := by
  intro hlocate
  rw [isDirectory] at h
  split at h
  · next l hparent =>
    have hlast := foldlM_of_locate_notFound hlocate
    rw [← List.dropLast_append_getLast hp, List.foldlM_append] at hlast
    obtain hfront | ⟨l', hfront, hpart⟩ := eq_error_of_bind hlast
    · cases (foldlM_of_locate hparent).symm.trans hfront
    · obtain rfl := Except.ok.inj ((foldlM_of_locate hparent).symm.trans hfront)
      obtain hpart | ⟨_, -, hnil⟩ := eq_error_of_bind hpart
      · exact descend_ne_notFound (of_decide_eq_true h) _ hpart
      · cases hnil
  · cases h

/-- A directory that has no place to stand in. -/
theorem isDirectory_parent_of_notFound (hp : p.parts ≠ [])
    (h : t.makeDirectory p = .error (.system .notFound q)) : t.isDirectory p.parent = false := by
  refine Bool.eq_false_iff.mpr fun hparent => ?_
  obtain hlocate | ⟨l, -, hnode⟩ := eq_error_of_bind h
  · exact locate_ne_notFound hp hparent hlocate
  · split at hnode
    · cases hnode
    · cases hnode

/-! ## Directories -/

section Change

variable {f : FileTree → Except FileFault FileTree}

theorem change_of_ok (h : f t = .ok t') : change f t = (.ok (), t') := by rw [change, h]

theorem change_of_error (h : f t = .error fault) : change f t = (.error fault, t) := by
  rw [change, h]

theorem change_eq_error (h : (change f t).1 = .error fault) : f t = .error fault := by
  cases hf : f t with
  | ok t' =>
    rw [change_of_ok hf] at h
    cases h
  | error fault' =>
    rw [change_of_error hf] at h
    exact congrArg Except.error (Except.error.inj h)

end Change

theorem makeDirectory_apply_ok (h : t.makeDirectory p = .ok t') :
    storage.makeDirectory p t = (.ok (), t') := change_of_ok (f := (·.makeDirectory p)) h

theorem makeDirectory_apply_error (h : t.makeDirectory p = .error fault) :
    storage.makeDirectory p t = (.error fault, t) := change_of_error (f := (·.makeDirectory p)) h

theorem unlessThere_eq_error (h : (storage.unlessThere p fault t).1 = .error fault') :
    fault' = fault := by
  rw [Storage.unlessThere, bind_apply] at h
  split at h
  · cases h
  · exact (Except.error.inj h).symm

theorem makeIfMissing_eq_error (hnul : '\x00' ∉ p.toText)
    (h : (storage.makeIfMissing p t).1 = .error fault) : ∃ f, fault = .system f p := by
  rw [Storage.makeIfMissing, bind_apply] at h
  cases hmade : t.makeDirectory p with
  | ok t' =>
    rw [makeDirectory_apply_ok hmade] at h
    cases h
  | error fault' =>
    rw [makeDirectory_apply_error hmade] at h
    obtain rfl := unlessThere_eq_error h
    exact makeDirectory_eq_error hnul hmade

/-- **A directory that cannot be made** is named in the error, or another one above it is whose
place was missing.  The induction is on the number of parts, as directories are made from the top.
-/
theorem makeDirectories_eq_error (hnul : '\x00' ∉ p.toText)
    (h : (storage.makeDirectories p t).1 = .error fault) :
    ∃ f q, fault = .system f q ∧ (q = p ∨ q.IsAbove p ∧ t.isDirectory p.parent = false) := by
  induction hn : p.parts.length using Nat.strongRecOn generalizing p with
  | ind k ih =>
    rw [Storage.makeDirectories, bind_apply] at h
    cases hmade : t.makeDirectory p with
    | ok t' =>
      rw [makeDirectory_apply_ok hmade] at h
      cases h
    | error fault' =>
      rw [makeDirectory_apply_error hmade] at h
      obtain ⟨f, rfl⟩ := makeDirectory_eq_error hnul hmade
      cases f with
      | notFound =>
        dsimp only at h
        split at h
        · exact ⟨_, p, (Except.error.inj h).symm, .inl rfl⟩
        · next hparts =>
          rw [bind_apply] at h
          rcases habove : storage.makeDirectories p.parent t with ⟨fault₁ | _, t₁⟩
          · rw [habove] at h
            obtain rfl := Except.error.inj h
            have hlt : p.parent.parts.length < k := by
              have := List.length_pos_iff.mpr hparts
              rw [Path.parent, List.length_dropLast]
              omega
            obtain ⟨f, q, rfl, hq⟩ := ih _ hlt (Path.nul_not_mem_parent hnul)
              (congrArg Prod.fst habove) rfl
            have hq' : q.IsAbove p := by
              obtain rfl | ⟨hq, -⟩ := hq
              · exact Path.parent_isAbove hparts
              · exact hq.of_parent
            exact ⟨f, q, rfl, .inr ⟨hq', isDirectory_parent_of_notFound hparts hmade⟩⟩
          · rw [habove] at h
            obtain ⟨f, rfl⟩ := makeIfMissing_eq_error hnul h
            exact ⟨f, p, rfl, .inl rfl⟩
      | _ =>
        obtain rfl := unlessThere_eq_error h
        exact ⟨_, p, rfl, .inl rfl⟩

/-! ## Saving -/

/-- **A save that fails** complains of the file, of its directory or, if the place for that was
missing, of a directory above it. -/
theorem save_eq_error (hnul : '\x00' ∉ p.toText) (h : (t.save p content).1 = .error fault) :
    ∃ f q, fault = .system f q ∧ (q = p ∨ q = p.parent ∨
      q.IsAbove p.parent ∧ t.isDirectory p.parent.parent = false) := by
  rw [save_eq] at h
  rcases hmade : storage.makeDirectories p.parent t with ⟨fault₁ | _, t₁⟩
  · rw [hmade] at h
    obtain rfl := Except.error.inj h
    obtain ⟨f, q, rfl, hq⟩ :=
      makeDirectories_eq_error (Path.nul_not_mem_parent hnul) (congrArg Prod.fst hmade)
    exact ⟨f, q, rfl, .inr hq⟩
  · rw [hmade] at h
    obtain ⟨f, rfl⟩ := write_eq_error hnul (change_eq_error h)
    exact ⟨f, p, rfl, .inl rfl⟩

/-- Nothing is saved where the directory cannot be made. -/
theorem save_of_makeDirectories (h : (storage.makeDirectories p.parent t).1 = .error fault)
    (content : Bytes) : (t.save p content).1 = .error fault := by
  rw [save_eq]
  rcases hmade : storage.makeDirectories p.parent t with ⟨fault' | _, t₁⟩
  · rw [hmade] at h
    exact h
  · rw [hmade] at h
    cases h

theorem read_of_file? (hl : t.locate p = .ok l) (hfile : t.file? l = some content) :
    t.read p = .ok content := by
  rw [file?] at hfile
  split at hfile
  · next hnode =>
    obtain rfl := Option.some.inj hfile
    simp only [read, hl, bind, Except.bind, hnode]
    rfl
  · cases hfile

/-- What was saved is read back. -/
theorem read_of_save (h : (t.save p content).1 = .ok ()) :
    (t.save p content).2.read p = .ok content := by
  obtain ⟨fault, hfault, -⟩ | ⟨l, -, hl, hfile, -⟩ := t.save_cases p content
  · cases h.symm.trans hfault
  · exact read_of_file? hl hfile

end FileTree

end ErrorCatalog
