import ErrorCatalog.Files.Tree
import ErrorCatalog.Proofs.Except

/-!
# Proofs/Files/Tree — what happens to the files of a tree

A tree is looked at for its files alone: `SameFiles` ignores the directories.  Making directories
keeps the files (`keepsFiles_makeDirectories`), so a save that fails keeps them too, and one that
succeeds changes the file its path names and no other (`save_cases`).
-/

namespace ErrorCatalog

namespace FileTree

variable {t t' t'' : FileTree} {l l' : Location} {n : Node} {p : Path} {content : Bytes}

/-! ## Files -/

/-- The content of the file at a location, if a file stands there. -/
def file? (t : FileTree) (l : Location) : Option Bytes :=
  match t.node? l with
  | some (.file content) => some content
  | _ => none

/-- **The files of `t'` are those of `t`**, each at its location with its content. -/
def SameFiles (t t' : FileTree) : Prop := ∀ l, t'.file? l = t.file? l

theorem SameFiles.refl (t : FileTree) : t.SameFiles t := fun _ => rfl

theorem SameFiles.trans (h : t.SameFiles t') (h' : t'.SameFiles t'') : t.SameFiles t'' :=
  fun l => (h' l).trans (h l)

/-! ## One node more -/

theorem lookup_filter_ne {entries : List (Location × Node)} (h : l' ≠ l) :
    (entries.filter fun entry => entry.1 ≠ l).lookup l' = entries.lookup l' := by
  induction entries with
  | nil => rfl
  | cons entry entries ih =>
    obtain ⟨k, m⟩ := entry
    by_cases hk : k = l
    · subst hk
      rw [List.filter_cons_of_neg (by simp), ih, List.lookup_cons, beq_false_of_ne h]
    · rw [List.filter_cons_of_pos (by simpa using hk), List.lookup_cons, List.lookup_cons, ih]

theorem node?_put_self (hl : l ≠ []) : (t.put l n).node? l = some n := by
  rw [node?, if_neg hl, put, List.lookup_cons, beq_self_eq_true]

theorem node?_put_of_ne (h : l' ≠ l) : (t.put l n).node? l' = t.node? l' := by
  rw [node?, node?, put, List.lookup_cons, beq_false_of_ne h, lookup_filter_ne h]

/-- The root is a directory. -/
theorem ne_nil_of_node? (h : t.node? l ≠ some .directory) : l ≠ [] := by
  rintro rfl
  exact h rfl

theorem file?_put_self (hl : l ≠ []) : (t.put l (.file content)).file? l = some content := by
  rw [file?, node?_put_self hl]

theorem file?_put_of_ne (h : l' ≠ l) : (t.put l n).file? l' = t.file? l' := by
  rw [file?, file?, node?_put_of_ne h]

/-- **A directory where nothing was** is no file more or less. -/
theorem sameFiles_put_directory (h : t.node? l = none) : t.SameFiles (t.put l .directory) := by
  have hl : l ≠ [] := ne_nil_of_node? (t := t) (by simp [h])
  intro l'
  by_cases hl' : l' = l
  · rw [hl', file?, file?, node?_put_self hl, h]
  · exact file?_put_of_ne hl'

/-! ## Paths -/

section Paths

variable {m m' : Location} {part : Text} {parts : List Text}

/-- A part is followed in a directory only, so a node in the place of none does not matter. -/
theorem descend_put (hl : t.node? l ≠ some .directory) (h : t.descend m part = .ok m') :
    (t.put l n).descend m part = .ok m' := by
  have hm : m ≠ l := by
    rintro rfl
    rw [descend] at h
    split at h
    · cases h
    · cases h
    · exact hl ‹_›
  rwa [descend, node?_put_of_ne hm]

theorem foldlM_descend_put (hl : t.node? l ≠ some .directory)
    (h : parts.foldlM t.descend m = .ok m') : parts.foldlM (t.put l n).descend m = .ok m' := by
  induction parts generalizing m with
  | nil => exact h
  | cons part parts ih =>
    rw [List.foldlM_cons] at h ⊢
    obtain ⟨m₁, hd, hrest⟩ := eq_ok_of_bind h
    rw [descend_put hl hd]
    exact ih hrest

/-- **A path still names its location** after a node was put where no directory stands. -/
theorem locate_put (hl : t.node? l ≠ some .directory) (h : t.locate p = .ok m) :
    (t.put l n).locate p = .ok m := by
  rw [locate] at h ⊢
  split at h
  · cases h
  · split at h
    · cases h
    · cases hparts : p.parts.foldlM t.descend (t.base p.anchor) with
      | error fault =>
        rw [hparts] at h
        cases h
      | ok m₁ =>
        rw [hparts] at h
        have hbase : (t.put l n).base p.anchor = t.base p.anchor := by cases p.anchor <;> rfl
        rw [if_neg ‹_›, if_neg ‹_›, hbase, foldlM_descend_put hl hparts]
        exact h

/-- What a write does, if it is not refused. -/
theorem write_eq_ok (h : t.write p content = .ok t') :
    ∃ l, t.locate p = .ok l ∧ t.node? l ≠ some .directory ∧ t' = t.put l (.file content) := by
  obtain ⟨l, hl, hrest⟩ := eq_ok_of_bind h
  split at hrest
  · cases hrest
  · next hnode => exact ⟨l, hl, hnode, (Except.ok.inj hrest).symm⟩

/-- What making a directory does, if it is not refused. -/
theorem makeDirectory_eq_ok (h : t.makeDirectory p = .ok t') :
    ∃ l, t.node? l = none ∧ t' = t.put l .directory := by
  obtain ⟨l, -, hrest⟩ := eq_ok_of_bind h
  split at hrest
  · cases hrest
  · next hnode => exact ⟨l, hnode, (Except.ok.inj hrest).symm⟩

end Paths

/-! ## Actions that keep the files -/

/-- The action leaves every tree with the files that it had. -/
def KeepsFiles {α : Type} (m : StateM FileTree α) : Prop :=
  ∀ t : FileTree, t.SameFiles (m t).2

section KeepsFiles

variable {α β : Type} {m : StateM FileTree α} {f : α → StateM FileTree β}

theorem keepsFiles_pure (a : α) : KeepsFiles (pure a) := fun t => .refl t

theorem KeepsFiles.bind (hm : KeepsFiles m) (hf : ∀ a, KeepsFiles (f a)) : KeepsFiles (m >>= f) :=
  fun t => (hm t).trans (hf _ _)

theorem keepsFiles_makeDirectory (p : Path) : KeepsFiles (storage.makeDirectory p) := by
  intro t
  change t.SameFiles (change (·.makeDirectory p) t).2
  rw [change]
  split
  · next t' h =>
    obtain ⟨l, hl, rfl⟩ := makeDirectory_eq_ok h
    exact sameFiles_put_directory hl
  · exact .refl t

theorem keepsFiles_unlessThere (p : Path) (fault : FileFault) :
    KeepsFiles (storage.unlessThere p fault) := by
  refine KeepsFiles.bind (fun t => .refl t) fun there => ?_
  cases there <;> exact keepsFiles_pure _

theorem keepsFiles_makeIfMissing (p : Path) : KeepsFiles (storage.makeIfMissing p) := by
  refine KeepsFiles.bind (keepsFiles_makeDirectory p) fun made => ?_
  cases made with
  | ok _ => exact keepsFiles_pure _
  | error fault => exact keepsFiles_unlessThere p fault

/-- **Making directories keeps the files**, also when it stops half way.  The induction is on the
number of parts, since a directory that cannot be made for lack of its parent has that made first. -/
theorem keepsFiles_makeDirectories (p : Path) : KeepsFiles (storage.makeDirectories p) := by
  induction hn : p.parts.length using Nat.strongRecOn generalizing p with
  | ind k ih =>
    rw [Storage.makeDirectories]
    refine KeepsFiles.bind (keepsFiles_makeDirectory p) fun made => ?_
    split
    · exact keepsFiles_pure _
    · split
      · exact keepsFiles_pure _
      · next hparts =>
        have hlt : p.parent.parts.length < k := by
          have := List.length_pos_iff.mpr hparts
          rw [Path.parent, List.length_dropLast]
          omega
        refine KeepsFiles.bind (ih _ hlt p.parent rfl) fun above => ?_
        split
        · exact keepsFiles_makeIfMissing p
        · exact keepsFiles_pure _
    · exact keepsFiles_unlessThere p _

end KeepsFiles

/-! ## Saving -/

theorem bind_apply {α β : Type} (m : StateM FileTree α) (f : α → StateM FileTree β)
    (t : FileTree) : (m >>= f) t = f (m t).1 (m t).2 := rfl

/-- A file is written in the tree that making the directories above it leaves. -/
theorem save_eq (t : FileTree) (p : Path) (content : Bytes) :
    t.save p content = match storage.makeDirectories p.parent t with
      | (.ok (), t₁) => change (·.write p content) t₁
      | (.error fault, t₁) => (.error fault, t₁) := by
  rw [save, Storage.save, bind_apply]
  rcases storage.makeDirectories p.parent t with ⟨_ | _, t₁⟩ <;> rfl

/-- **What a save does**: it fails and keeps all files, or in the tree that is left the path names a
file with the content, and all other files are kept. -/
theorem save_cases (t : FileTree) (p : Path) (content : Bytes) :
    (∃ fault, (t.save p content).1 = .error fault ∧ t.SameFiles (t.save p content).2) ∨
      ∃ l, (t.save p content).1 = .ok () ∧ (t.save p content).2.locate p = .ok l ∧
        (t.save p content).2.file? l = some content ∧
          ∀ l' ≠ l, (t.save p content).2.file? l' = t.file? l' := by
  have hkeep := keepsFiles_makeDirectories p.parent t
  rw [save_eq]
  rcases hmade : storage.makeDirectories p.parent t with ⟨fault | ⟨⟩, t₁⟩
  · rw [hmade] at hkeep
    exact .inl ⟨fault, rfl, hkeep⟩
  · rw [hmade] at hkeep
    dsimp only [change]
    cases hwrite : t₁.write p content with
    | error fault => exact .inl ⟨fault, rfl, hkeep⟩
    | ok t₂ =>
      obtain ⟨l, hlocate, hl, rfl⟩ := write_eq_ok hwrite
      exact .inr ⟨l, rfl, locate_put hl hlocate, file?_put_self (ne_nil_of_node? hl),
        fun l' hne => (file?_put_of_ne hne).trans (hkeep l')⟩

end FileTree

end ErrorCatalog
