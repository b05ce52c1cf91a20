import Rulebook.File.Tree

/-!
# Normal paths and reading

A normal path starts at the root and goes up nowhere (`Path.IsNormal`); made absolute once more it
stays as it is, and it can only be read where the tree has an entry at just that location
(`View.mem_entries_of_readText`). A file that cannot be read is there or not as the obstacle says
(`View.present_of_readText_error`).
-/

namespace Rulebook

/-! ## Normal paths -/

namespace Path

/-- Absolute, without `..`. -/
structure IsNormal (p : Path) : Prop where
  isAbsolute : p.isAbsolute = true
  not_mem : ".." ∉ p.parts

variable {p base : Path}

theorem not_mem_step {reversed : List String} (h : ".." ∉ reversed) (part : String) :
    ".." ∉ step true reversed part := by
  unfold step
  split
  next hne => exact List.not_mem_cons_of_ne_of_not_mem (Ne.symm hne) h
  next =>
    cases reversed with
    | nil => exact List.not_mem_nil
    | cons last rest =>
      obtain ⟨hlast, hrest⟩ := not_or.mp (h ∘ List.mem_cons.mpr)
      simpa [Ne.symm hlast] using hrest

theorem not_mem_foldl_step {reversed : List String} (h : ".." ∉ reversed) (parts : List String) :
    ".." ∉ parts.foldl (step true) reversed := by
  induction parts generalizing reversed with
  | nil => exact h
  | cons part parts ih => exact ih (not_mem_step h part)

theorem foldl_step_of_not_mem {absolute : Bool} {parts : List String} (h : ".." ∉ parts)
    (reversed : List String) :
    parts.foldl (step absolute) reversed = parts.reverse ++ reversed := by
  induction parts generalizing reversed with
  | nil => rfl
  | cons part parts ih =>
    obtain ⟨hpart, hparts⟩ := not_or.mp (h ∘ List.mem_cons.mpr)
    have hstep : step absolute reversed part = part :: reversed := if_pos (Ne.symm hpart)
    rw [List.foldl_cons, hstep, ih hparts, List.reverse_cons, List.append_assoc,
      List.singleton_append]

theorem isNormal_normalize (h : p.isAbsolute = true) : p.normalize.IsNormal where
  isAbsolute := h
  not_mem := by
    unfold normalize
    rw [h, List.mem_reverse]
    exact not_mem_foldl_step List.not_mem_nil p.parts

theorem isAbsolute_join (h : base.isAbsolute = true) (p : Path) :
    (base.join p).isAbsolute = true := by
  unfold join
  split
  next hp => exact hp
  next => exact h

theorem isNormal_absolute (h : base.isAbsolute = true) (p : Path) : (base.absolute p).IsNormal :=
  isNormal_normalize (isAbsolute_join h p)

theorem IsNormal.absolute_eq (h : p.IsNormal) (base : Path) : base.absolute p = p := by
  unfold absolute join normalize
  rw [if_pos h.isAbsolute, foldl_step_of_not_mem h.not_mem, List.append_nil, List.reverse_reverse]

theorem IsNormal.parent (h : p.IsNormal) : p.parent.IsNormal where
  isAbsolute := h.isAbsolute
  not_mem hmem := h.not_mem (List.dropLast_subset _ hmem)

end Path

theorem View.isNormal_absolute (v : View) (p : Path) : (v.absolute p).IsNormal :=
  Path.isNormal_absolute rfl p

/-! ## Looking up -/

namespace FileTree

variable {t : FileTree} {l l' cwd : Location} {parts : List String} {p : Path}

theorem walk_eq_append (hdots : ".." ∉ parts) (h : t.walk l parts = .ok l') : l' = l ++ parts := by
  induction parts generalizing l with
  | nil =>
    cases h
    rw [List.append_nil]
  | cons part parts ih =>
    obtain ⟨hpart, hparts⟩ := not_or.mp (hdots ∘ List.mem_cons.mpr)
    unfold walk at h
    split at h
    · cases h
    rw [if_neg (Ne.symm hpart)] at h
    split at h
    · cases h
    split at h
    · cases h
    · rw [ih hparts h, List.append_assoc, List.singleton_append]

/-- A walk does not mind that it comes to a directory. -/
theorem walk_ne_isADirectory (h : t.walk l parts = .error o) : o ≠ .isADirectory := by
  induction parts generalizing l with
  | nil => cases h
  | cons part parts ih =>
    unfold walk at h
    split at h
    · cases h
      decide
    split at h
    · exact ih h
    split at h
    · cases h
      decide
    split at h
    · cases h
      decide
    · exact ih h

theorem locate_ne_isADirectory (h : t.locate cwd p = .error o) : o ≠ .isADirectory := by
  unfold locate at h
  split at h
  · cases h
    decide
  split at h
  next hwalk =>
    cases h
    exact walk_ne_isADirectory hwalk
  next =>
    split at h
    · cases h
    · cases h
      decide

/-- Where a file has been read, the tree has it at the place that the walk came to. -/
theorem of_readBytes {bytes : List UInt8} (h : t.readBytes cwd p = .ok bytes) :
    ∃ l, t.walk (if p.isAbsolute then [] else cwd) p.parts = .ok l ∧
      t.find? l = some (.file bytes) := by
  unfold readBytes at h
  split at h
  · cases h
  split at h
  next hlocate =>
    cases h
    unfold locate at hlocate
    split at hlocate
    · cases hlocate
    split at hlocate
    · cases hlocate
    next l hwalk =>
      split at hlocate
      next hfind =>
        cases hlocate
        exact ⟨l, hwalk, hfind⟩
      · cases hlocate
  · cases h
  · cases h

theorem mem_entries_of_find? {bytes : List UInt8} (h : t.find? l = some (.file bytes)) :
    l ∈ t.entries.map (·.1) := by
  unfold find? at h
  split at h
  · cases h
  · obtain ⟨entry, hentry, -⟩ := Option.map_eq_some_iff.mp h
    have hl : entry.1 = l := by simpa using List.find?_some hentry
    exact List.mem_map.mpr ⟨entry, List.mem_of_find?_eq_some hentry, hl⟩

end FileTree

/-- What a search for a file says when the file could not be read. -/
def File.ReadError.presence : File.ReadError → Except File.Error Bool
  | .refused ⟨.isADirectory, _⟩ => .ok true
  | .refused ⟨.nameTooLong, p⟩ => .error ⟨.nameTooLong, p⟩
  | .refused _ => .ok false
  | .undecodable _ => .ok true
  | .nullInPath => .ok false

namespace View

variable {v : View} {p : Path}

/-- All that can keep a file from being read. -/
theorem readText_error_cases {why : File.ReadError} (h : v.readText p = .error why) :
    (FileTree.hasNull p = true ∧ why = .nullInPath) ∨
    FileTree.hasNull p = false ∧
      ((∃ o, v.tree.locate v.here p = .error o ∧ why = .refused ⟨o, p⟩) ∨
        (v.tree.locate v.here p = .ok .directory ∧ why = .refused ⟨.isADirectory, p⟩) ∨
        ∃ bytes e, v.tree.locate v.here p = .ok (.file bytes) ∧ why = .undecodable e) := by
  have h : v.tree.readText v.here p = .error why := h
  unfold FileTree.readText FileTree.readBytes at h
  cases hnull : FileTree.hasNull p with
  | true =>
    rw [if_pos hnull] at h
    exact .inl ⟨rfl, (Except.error.inj h).symm⟩
  | false =>
    rw [hnull, if_neg Bool.false_ne_true] at h
    refine .inr ⟨rfl, ?_⟩
    cases hl : v.tree.locate v.here p with
    | error o =>
      rw [hl] at h
      exact .inl ⟨o, rfl, (Except.error.inj h).symm⟩
    | ok entry =>
      rw [hl] at h
      cases entry with
      | directory => exact .inr (.inl ⟨rfl, (Except.error.inj h).symm⟩)
      | file bytes =>
        dsimp only at h
        split at h
        next e _ => exact .inr (.inr ⟨bytes, e, rfl, (Except.error.inj h).symm⟩)
        next => cases h

/-- Only a path with a null character is no path at all. -/
theorem readText_eq_nullInPath_iff :
    v.readText p = .error .nullInPath ↔ FileTree.hasNull p = true := by
  constructor
  · intro h
    rcases readText_error_cases h with ⟨hnull, -⟩ | ⟨-, ⟨_, _, ⟨⟩⟩ | ⟨_, ⟨⟩⟩ | ⟨_, _, _, ⟨⟩⟩⟩
    exact hnull
  · intro h
    show FileTree.readText _ _ _ = _
    unfold FileTree.readText FileTree.readBytes
    rw [if_pos h]

theorem present_of_readText_error {why : File.ReadError} (h : v.readText p = .error why) :
    v.present p = why.presence := by
  show (v.tree.stat v.here p).map (·.isSome) = _
  unfold FileTree.stat
  rcases readText_error_cases h with ⟨hnull, rfl⟩ | ⟨hnull, hwhy⟩
  · rw [if_pos hnull]
    rfl
  rw [hnull, if_neg Bool.false_ne_true]
  rcases hwhy with ⟨o, hl, rfl⟩ | ⟨hl, rfl⟩ | ⟨bytes, e, hl, rfl⟩
  · rw [hl]
    cases o with
    | isADirectory => exact absurd rfl (FileTree.locate_ne_isADirectory hl)
    | _ => rfl
  · rw [hl]
    rfl
  · rw [hl]
    rfl

/-- Where the system refuses to read a path, the error names that path. -/
theorem path_of_readText_error {e : File.Error} (h : v.readText p = .error (.refused e)) :
    e.path = p := by
  rcases readText_error_cases h with ⟨-, hwhy⟩ | ⟨-, ⟨o, -, hwhy⟩ | ⟨-, hwhy⟩ | ⟨_, _, -, hwhy⟩⟩
  · cases hwhy
  · rw [File.ReadError.refused.inj hwhy]
  · rw [File.ReadError.refused.inj hwhy]
  · cases hwhy

/-- A normal path that can be read leads to an entry of the tree. -/
theorem mem_entries_of_readText {s : Text} (hp : p.IsNormal) (h : v.readText p = .ok s) :
    p.parts ∈ v.tree.entries.map (·.1) := by
  have h : v.tree.readText v.here p = .ok s := h
  unfold FileTree.readText at h
  split at h
  · cases h
  next bytes hbytes =>
    obtain ⟨l, hwalk, hfind⟩ := FileTree.of_readBytes hbytes
    rw [if_pos hp.isAbsolute] at hwalk
    rw [← List.nil_append p.parts, ← FileTree.walk_eq_append hp.not_mem hwalk]
    exact FileTree.mem_entries_of_find? hfind

end View

end Rulebook
