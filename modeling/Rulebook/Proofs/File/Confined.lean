import Mathlib.Data.List.Induction
import Mathlib.Data.List.Infix
import Rulebook.Proofs.File.Reading

/-!
# Walks that stay near a directory

Two trees that have the same at a directory and below it also have the same on the way to it, for
what stands somewhere stands in directories. So a walk that comes to no other place goes the same
way in both (`FileTree.walk_congr`). A walk that does come to another place goes through in a tree
that has directories wherever it comes, and stops in the tree that has just those near the
directory (`FileTree.walk_dirs`, `FileTree.walk_dirs_near`).

## Main results

* `FileTree.stat_congr`: a path that stays near a directory is the same in all trees that agree
  below it.
* `FileTree.exists_isDir_ne`: a path that leaves it is not.
-/

namespace Rulebook

namespace FileTree

open File

variable {t t' : FileTree} {root l l' m m' cwd : Location} {part : String}
  {parts parts' : List String} {p : Path} {o : Obstacle}

/-- What stands somewhere stands in a directory. -/
def IsGrounded (t : FileTree) : Prop :=
  ∀ l part, (t.find? (l ++ [part])).isSome = true → t.isDirectory l = true

/-- The same stands at `root` and everywhere below it. -/
def AgreeBelow (root : Location) (t t' : FileTree) : Prop :=
  ∀ l, root <+: l → t.find? l = t'.find? l

/-- On the way to `root`, at it, or below it. -/
def Near (root l : Location) : Prop := l <+: root ∨ root <+: l

instance : Decidable (Near root l) := inferInstanceAs (Decidable (_ ∨ _))

/-- From `l`, walking `parts` comes only to places near `root`. A name that is too long ends the
walk. -/
def staysNear (root : Location) : Location → List String → Bool
  | _, [] => true
  | l, part :: parts =>
    if part = ".." then staysNear root l.dropLast parts
    else if nameLimit < part.utf8ByteSize then true
    else decide (Near root (l ++ [part])) && staysNear root (l ++ [part]) parts

theorem Near.above (h : Near root l) (hl : l' <+: l) : Near root l' := by
  rcases h with h | h
  · exact .inl (hl.trans h)
  · exact List.prefix_or_prefix_of_prefix hl h

theorem Near.dropLast (h : Near root l) : Near root l.dropLast :=
  h.above (List.dropLast_prefix l)

/-- A walk that goes up nowhere stays near `root` if all its places are. -/
theorem staysNear_of_near (hdots : ".." ∉ parts) (h : Near root (l ++ parts)) :
    staysNear root l parts = true := by
  induction parts generalizing l with
  | nil => rfl
  | cons part parts ih =>
    obtain ⟨hpart, hdots⟩ := not_or.mp (hdots ∘ List.mem_cons.mpr)
    rw [List.append_cons] at h
    unfold staysNear
    rw [if_neg (Ne.symm hpart), ih hdots h, decide_eq_true (h.above (List.prefix_append _ _))]
    split <;> rfl

/-! ## Trees that agree -/

theorem isDirectory_iff : t.isDirectory l = true ↔ t.find? l = some .directory := by
  simp [isDirectory]

theorem isGrounded_of_entries (h : ∀ e ∈ t.entries, t.isDirectory e.1.dropLast = true) :
    t.IsGrounded := by
  intro l part hl
  unfold find? at hl
  rw [if_neg (by simp), Option.isSome_map] at hl
  obtain ⟨e, he, heq⟩ := List.find?_isSome.mp hl
  have hdir := h e he
  rwa [of_decide_eq_true heq, List.dropLast_concat] at hdir

theorem IsGrounded.isDirectory_above (ht : t.IsGrounded) (hl : (t.find? l).isSome = true)
    (hsub : l' <+: l) (hne : l' ≠ l) : t.isDirectory l' = true := by
  induction l using List.reverseRecOn with
  | nil => exact absurd (List.prefix_nil.mp hsub) hne
  | append_singleton l part ih =>
    have hdir := ht l part hl
    have hsub : l' <+: l := (List.prefix_concat_iff.mp hsub).resolve_left hne
    by_cases heq : l' = l
    · rw [heq]
      exact hdir
    · exact ih (by rw [isDirectory_iff.mp hdir]; rfl) hsub heq

/-- Where a directory is the same in two trees, so is the way to it. -/
theorem AgreeBelow.find?_of_near (h : AgreeBelow root t t') (ht : t.IsGrounded)
    (ht' : t'.IsGrounded) (hroot : t.isDirectory root = true) (hl : Near root l) :
    t.find? l = t'.find? l := by
  by_cases hbelow : root <+: l
  · exact h l hbelow
  · have habove : l <+: root := hl.resolve_right hbelow
    have hne : l ≠ root := fun heq => hbelow (heq ▸ List.prefix_refl l)
    have hfind := isDirectory_iff.mp hroot
    have hfind' : t'.find? root = some .directory :=
      (h root (List.prefix_refl root)).symm.trans hfind
    rw [isDirectory_iff.mp (ht.isDirectory_above (by rw [hfind]; rfl) habove hne),
      isDirectory_iff.mp (ht'.isDirectory_above (by rw [hfind']; rfl) habove hne)]

theorem walk_congr (h : ∀ l, Near root l → t.find? l = t'.find? l) (hl : Near root l)
    (hstays : staysNear root l parts = true) : t.walk l parts = t'.walk l parts := by
  induction parts generalizing l with
  | nil => rfl
  | cons part parts ih =>
    unfold staysNear at hstays
    unfold walk isDirectory
    rw [h l hl]
    split
    · rfl
    by_cases hpart : part = ".."
    · rw [if_pos hpart] at hstays ⊢
      rw [if_pos hpart]
      exact ih hl.dropLast hstays
    · rw [if_neg hpart] at hstays ⊢
      rw [if_neg hpart]
      split at hstays
      next hlong => rw [if_pos hlong, if_pos hlong]
      next hshort =>
        simp only [Bool.and_eq_true, decide_eq_true_eq] at hstays
        rw [if_neg hshort, if_neg hshort, h _ hstays.1, ih hstays.1 hstays.2]

theorem near_of_walk (hl : Near root l) (hstays : staysNear root l parts = true)
    (h : t.walk l parts = .ok l') : Near root l' := by
  induction parts generalizing l with
  | nil =>
    cases h
    exact hl
  | cons part parts ih =>
    unfold staysNear at hstays
    unfold walk at h
    split at h
    · cases h
    split at hstays
    next hpart =>
      rw [if_pos hpart] at h
      exact ih hl.dropLast hstays h
    next hpart =>
      rw [if_neg hpart] at h
      split at h
      · cases h
      next hshort =>
        rw [if_neg hshort, Bool.and_eq_true, decide_eq_true_eq] at hstays
        split at h
        · cases h
        · exact ih hstays.1 hstays.2 h

/-! ## Walking to a place -/

theorem walk_append :
    t.walk l (parts ++ parts') = t.walk l parts >>= fun l' => t.walk l' parts' := by
  induction parts generalizing l with
  | nil => rfl
  | cons part parts ih =>
    rw [List.cons_append, walk, walk]
    split
    · rfl
    split
    · exact ih
    split
    · rfl
    split
    · rfl
    · exact ih

/-- What stands somewhere is found. -/
theorem IsGrounded.walk_eq (ht : t.IsGrounded) (hdots : ".." ∉ parts)
    (hshort : ∀ part ∈ parts, part.utf8ByteSize ≤ nameLimit)
    (h : (t.find? (l ++ parts)).isSome = true) : t.walk l parts = .ok (l ++ parts) := by
  induction parts generalizing l with
  | nil => rw [List.append_nil]; rfl
  | cons part parts ih =>
    obtain ⟨hpart, hdots⟩ := not_or.mp (hdots ∘ List.mem_cons.mpr)
    obtain ⟨hsize, hshort⟩ := List.forall_mem_cons.mp hshort
    have hdir : t.isDirectory l = true :=
      ht.isDirectory_above h (List.prefix_append l _) (by simp)
    rw [List.append_cons] at h ⊢
    have hnext : (t.find? (l ++ [part])).isSome = true := by
      by_cases hnil : parts = []
      · rwa [hnil, List.append_nil] at h
      · rw [isDirectory_iff.mp
          (ht.isDirectory_above h (List.prefix_append _ _) (by simp [hnil]))]
        rfl
    unfold walk
    rw [hdir, if_neg (Ne.symm hpart), if_neg (Nat.not_lt_of_le hsize),
      Option.isNone_eq_false_iff.mpr hnext]
    exact ih hdots hshort h

theorem walk_ne_nameTooLong (hshort : ∀ part ∈ parts, part.utf8ByteSize ≤ nameLimit)
    (h : t.walk l parts = .error o) : o ≠ .nameTooLong := by
  induction parts generalizing l with
  | nil => cases h
  | cons part parts ih =>
    obtain ⟨hsize, hshort⟩ := List.forall_mem_cons.mp hshort
    unfold walk at h
    split at h
    · cases h
      decide
    split at h
    · exact ih hshort h
    rw [if_neg (Nat.not_lt_of_le hsize)] at h
    split at h
    · cases h
      decide
    · exact ih hshort h

/-- From what is no directory, only the empty walk leads anywhere. -/
theorem walk_of_not_isDirectory (h : t.isDirectory l = false) (hparts : parts ≠ []) :
    t.walk l parts = .error .notADirectory := by
  cases parts with
  | nil => exact absurd rfl hparts
  | cons part parts =>
    unfold walk
    rw [h]
    rfl

/-! ## Looking at a path -/

/-- What `stat` makes of the walk along an absolute path. -/
def shown (t : FileTree) (p : Path) : Except Obstacle Location → Except File.Error (Option Entry)
  | .ok l => .ok (t.find? l)
  | .error .nameTooLong => .error ⟨.nameTooLong, p⟩
  | .error _ => .ok none

theorem shown_of_ne (h : o ≠ .nameTooLong) : t.shown p (.error o) = .ok none := by
  cases o <;> first | rfl | exact absurd rfl h

/-- A path that the system takes up. -/
structure Admitted (p : Path) : Prop where
  isAbsolute : p.isAbsolute = true
  hasNull : hasNull p = false
  short : p.text.utf8ByteSize < pathLimit

theorem stat_eq_shown (h : Admitted p) : t.stat cwd p = t.shown p (t.walk [] p.parts) := by
  unfold stat locate
  rw [if_neg (by rw [h.hasNull]; exact Bool.false_ne_true), if_neg (Nat.not_le_of_lt h.short),
    if_pos h.isAbsolute]
  cases t.walk [] p.parts with
  | error o => cases o <;> rfl
  | ok l =>
    cases hfind : t.find? l with
    | none => simp [shown, hfind]
    | some e => simp [shown, hfind]

/-- A path that the system does not take up is the same everywhere. -/
theorem stat_eq_of_not_admitted (habs : p.isAbsolute = true) (h : ¬ Admitted p) (cwd' : Location) :
    t.stat cwd p = t'.stat cwd' p := by
  unfold stat locate
  split
  · rfl
  next hnull =>
    have hlong : pathLimit ≤ p.text.utf8ByteSize :=
      Nat.not_lt.mp fun hshort => h ⟨habs, by simpa using hnull, hshort⟩
    rw [if_pos hlong, if_pos hlong]

/-! ## Trees of directories -/

/-- The tree with directories at the places `ls` and nothing else. -/
def dirs (ls : List Location) : FileTree := ⟨ls.map fun l => (l, .directory)⟩

variable {ls : List Location}

theorem find?_dirs : (dirs ls).find? l = if l = [] ∨ l ∈ ls then some .directory else none := by
  by_cases hnil : l = []
  · rw [if_pos (.inl hnil), hnil]
    rfl
  unfold find? dirs
  rw [if_neg hnil]
  simp only [hnil, false_or]
  induction ls with
  | nil => rfl
  | cons m ls ih =>
    rw [List.map_cons, List.find?_cons]
    by_cases hm : m = l
    · simp [hm]
    · simp only [hm, decide_false, ih, List.mem_cons, Ne.symm hm, false_or]

theorem isDirectory_dirs : (dirs ls).isDirectory l = true ↔ l = [] ∨ l ∈ ls := by
  rw [isDirectory_iff, find?_dirs]
  split
  next h => exact iff_of_true rfl h
  next h => exact iff_of_false nofun h

theorem isSome_find?_dirs : ((dirs ls).find? l).isSome = true ↔ l = [] ∨ l ∈ ls := by
  rw [find?_dirs]
  split
  next h => simp only [h, Option.isSome_some]
  next h => simp only [h, Option.isSome_none, Bool.false_eq_true]

theorem isGrounded_dirs (h : ∀ l ∈ ls, ∀ l', l' <+: l → l' ∈ ls) : (dirs ls).IsGrounded := by
  refine isGrounded_of_entries fun e he => isDirectory_dirs.mpr (.inr ?_)
  obtain ⟨l, hl, rfl⟩ := List.mem_map.mp he
  exact h l hl l.dropLast (List.dropLast_prefix l)

/-- The places that a walk comes to if nothing but a name that is too long ends it. -/
def visited : Location → List String → List Location
  | l, [] => [l]
  | l, part :: parts =>
    l :: if part = ".." then visited l.dropLast parts
      else if nameLimit < part.utf8ByteSize then []
      else visited (l ++ [part]) parts

theorem mem_visited_self (l : Location) (parts : List String) : l ∈ visited l parts := by
  cases parts <;> exact List.mem_cons_self

theorem mem_visited_above (hm : m ∈ visited l parts) (hsub : m' <+: m) :
    m' <+: l ∨ m' ∈ visited l parts := by
  induction parts generalizing l with
  | nil => exact .inl (List.mem_singleton.mp hm ▸ hsub)
  | cons part parts ih =>
    unfold visited at hm ⊢
    rcases List.mem_cons.mp hm with rfl | hm
    · exact .inl hsub
    split at hm
    · rcases ih hm with h | h
      · exact .inl (h.trans (List.dropLast_prefix l))
      · rw [if_pos ‹_›]
        exact .inr (List.mem_cons_of_mem l h)
    · rw [if_neg ‹_›]
      split at hm
      · cases hm
      rw [if_neg ‹_›]
      rcases ih hm with h | h
      · rcases List.prefix_concat_iff.mp h with rfl | h
        · exact .inr (List.mem_cons_of_mem l (mem_visited_self _ _))
        · exact .inl h
      · exact .inr (List.mem_cons_of_mem l h)

/-- A walk goes through where it comes to directories only. -/
theorem walk_dirs (h : ∀ m ∈ visited l parts, m ∈ ls) :
    (dirs ls).walk l parts = .error .nameTooLong ∨
      ∃ l' ∈ ls, (dirs ls).walk l parts = .ok l' := by
  induction parts generalizing l with
  | nil => exact .inr ⟨l, h l (mem_visited_self l []), rfl⟩
  | cons part parts ih =>
    unfold visited at h
    obtain ⟨hl, h⟩ := List.forall_mem_cons.mp h
    unfold walk
    rw [isDirectory_dirs.mpr (.inr hl)]
    split at h
    next hpart =>
      rw [if_pos hpart]
      exact ih h
    next hpart =>
      rw [if_neg hpart]
      split at h
      next hlong =>
        rw [if_pos hlong]
        exact .inl rfl
      next hshort =>
        have hnext : l ++ [part] ∈ ls := h _ (mem_visited_self _ _)
        rw [if_neg hshort, Option.isNone_eq_false_iff.mpr (isSome_find?_dirs.mpr (.inr hnext))]
        exact ih h

/-- A walk that does not stay near `root` stops where there is nothing else. -/
theorem walk_dirs_near (hl : Near root l) (hstays : staysNear root l parts = false)
    (h : ∀ m ∈ visited l parts, m ∈ ls) :
    (dirs (ls.filter (Near root))).walk l parts = .error .notFound := by
  induction parts generalizing l with
  | nil => cases hstays
  | cons part parts ih =>
    unfold visited at h
    obtain ⟨hmem, h⟩ := List.forall_mem_cons.mp h
    unfold staysNear at hstays
    unfold walk
    rw [isDirectory_dirs.mpr (.inr (List.mem_filter.mpr ⟨hmem, decide_eq_true hl⟩))]
    split at h
    next hpart =>
      rw [if_pos hpart] at hstays ⊢
      exact ih hl.dropLast hstays h
    next hpart =>
      rw [if_neg hpart] at hstays ⊢
      split at h
      next hlong =>
        rw [if_pos hlong] at hstays
        cases hstays
      next hshort =>
        rw [if_neg hshort] at hstays ⊢
        have hnext : l ++ [part] ∈ ls := h _ (mem_visited_self _ _)
        by_cases hnear : Near root (l ++ [part])
        · have hkept : l ++ [part] ∈ ls.filter (Near root) :=
            List.mem_filter.mpr ⟨hnext, decide_eq_true hnear⟩
          rw [decide_eq_true hnear, Bool.true_and] at hstays
          rw [Option.isNone_eq_false_iff.mpr (isSome_find?_dirs.mpr (.inr hkept))]
          exact ih hnear hstays h
        · have hgone : (dirs (ls.filter (Near root))).find? (l ++ [part]) = none := by
            rw [find?_dirs, if_neg]
            simp [hnear]
          rw [hgone]
          rfl

theorem short_of_mem_visited (hl : ∀ part ∈ l, part.utf8ByteSize ≤ nameLimit)
    (h : m ∈ visited l parts) : ∀ part ∈ m, part.utf8ByteSize ≤ nameLimit := by
  induction parts generalizing l with
  | nil => rwa [List.mem_singleton.mp h]
  | cons part parts ih =>
    unfold visited at h
    rcases List.mem_cons.mp h with rfl | h
    · exact hl
    split at h
    · exact ih (fun x hx => hl x (List.dropLast_subset l hx)) h
    split at h
    · cases h
    next hshort =>
      refine ih (fun x hx => ?_) h
      rcases List.mem_append.mp hx with hx | hx
      · exact hl x hx
      · rw [List.mem_singleton.mp hx]
        exact Nat.le_of_not_lt hshort

/-! ## What is seen of a path -/

/-- Looking at a path below `root` takes no notice of what stands outside. Nothing is looked at if
the system does not take up the path or its first name is too long. -/
def Confined (root : Location) (p : Path) : Prop :=
  ¬ Admitted p ∨ nameLimit < (root.head?.getD "").utf8ByteSize ∨
    (∀ part ∈ root, part.utf8ByteSize ≤ nameLimit) ∧ staysNear root [] p.parts = true

theorem shown_of_not_isDirectory (ht : t.IsGrounded) (hdots : ".." ∉ root)
    (hshort : ∀ part ∈ root, part.utf8ByteSize ≤ nameLimit) (h : t.isDirectory root = false) :
    t.shown p (t.walk [] (root ++ parts)) = .ok (if parts = [] then t.find? root else none) := by
  have hwalk : t.walk [] (root ++ parts) = t.walk [] root >>= fun l => t.walk l parts := walk_append
  cases hroot : t.walk [] root with
  | error o =>
    rw [hwalk, hroot]
    have hnone : t.find? root = none := by
      by_contra hsome
      have hfound : t.walk [] root = .ok root :=
        ht.walk_eq hdots hshort (Option.isSome_iff_ne_none.mpr hsome)
      rw [hfound] at hroot
      cases hroot
    rw [hnone, ite_self]
    exact shown_of_ne (walk_ne_nameTooLong hshort hroot)
  | ok l =>
    have hl : l = root := walk_eq_append hdots hroot
    rw [hwalk, hroot, hl]
    by_cases hparts : parts = []
    · rw [if_pos hparts, hparts]
      rfl
    · rw [if_neg hparts]
      show t.shown p (t.walk root parts) = _
      rw [walk_of_not_isDirectory h hparts]
      rfl

theorem walk_of_long_head (h : nameLimit < (root.head?.getD "").utf8ByteSize) :
    t.walk [] (root ++ parts) = .error .nameTooLong := by
  cases root with
  | nil => exact absurd h (Nat.not_lt_zero _)
  | cons part rest =>
    have hlong : nameLimit < part.utf8ByteSize := h
    have hpart : part ≠ ".." := by
      rintro rfl
      exact absurd hlong (by decide)
    rw [List.cons_append, walk, if_neg hpart, if_pos hlong]
    rfl

/-- A confined path is the same in all trees that agree below the root. -/
theorem stat_congr (h : Confined root p) (habs : p.isAbsolute = true) (hroot : root <+: p.parts)
    (hdots : ".." ∉ root) (ht : t.IsGrounded) (ht' : t'.IsGrounded) (hagree : AgreeBelow root t t')
    (cwd cwd' : Location) : t.stat cwd p = t'.stat cwd' p := by
  by_cases hp : Admitted p
  case neg => exact stat_eq_of_not_admitted habs hp cwd'
  obtain ⟨parts, hparts⟩ := hroot
  rw [stat_eq_shown hp, stat_eq_shown hp, ← hparts]
  rcases h.resolve_left (not_not_intro hp) with hlong | ⟨hshort, hstays⟩
  · rw [walk_of_long_head hlong, walk_of_long_head hlong]
    rfl
  cases hdir : t.isDirectory root with
  | true =>
    have hfind : ∀ l, Near root l → t.find? l = t'.find? l :=
      fun l hl => hagree.find?_of_near ht ht' hdir hl
    have hnear : Near root [] := .inl List.nil_prefix
    rw [← hparts] at hstays
    rw [← walk_congr hfind hnear hstays]
    cases hwalk : t.walk [] (root ++ parts) with
    | error o => cases o <;> rfl
    | ok l => exact congrArg Except.ok (hfind l (near_of_walk hnear hstays hwalk))
  | false =>
    have hdir' : t'.isDirectory root = false := by
      unfold isDirectory at hdir ⊢
      rw [← hagree root (List.prefix_refl root), hdir]
    rw [shown_of_not_isDirectory ht hdots hshort hdir,
      shown_of_not_isDirectory ht' hdots hshort hdir', hagree root (List.prefix_refl root)]

theorem isDir_ne (hp : Admitted p) (h : ∀ m ∈ visited [] p.parts, m ∈ ls)
    (hstops : t.walk [] p.parts = .error .notFound) :
    (dirs ls).isDir cwd p ≠ t.isDir cwd p := by
  unfold isDir
  rw [stat_eq_shown hp, stat_eq_shown hp, hstops]
  rcases walk_dirs h with hlong | ⟨l, hl, hok⟩
  · rw [hlong]
    exact nofun
  · have hfind : (dirs ls).find? l = some .directory :=
      isDirectory_iff.mp (isDirectory_dirs.mpr (.inr hl))
    rw [hok]
    show Except.map _ (Except.ok _) ≠ Except.map _ (Except.ok none)
    rw [hfind]
    decide

/-- A path that is not confined is not the same in all trees that agree below the root. -/
theorem exists_isDir_ne (h : ¬ Confined root p) (hdots : ".." ∉ root) (hroot : root <+: p.parts)
    (cwd : Location) : ∃ t t' : FileTree, t.IsGrounded ∧ t'.IsGrounded ∧ AgreeBelow root t t' ∧
      t.isDir cwd p ≠ t'.isDir cwd p := by
  obtain ⟨hp, h⟩ := not_or.mp h
  obtain ⟨hfirst, h⟩ := not_or.mp h
  have hp : Admitted p := not_not.mp hp
  have hclosed : ∀ l ∈ visited [] p.parts, ∀ l', l' <+: l → l' ∈ visited [] p.parts := by
    intro l hl l' hsub
    rcases mem_visited_above hl hsub with hnil | hmem
    · rw [List.prefix_nil.mp hnil]
      exact mem_visited_self [] p.parts
    · exact hmem
  by_cases hshort : ∀ part ∈ root, part.utf8ByteSize ≤ nameLimit
  · -- The walk leaves the neighbourhood of the root: let nothing be outside it.
    have hstays : staysNear root [] p.parts = false :=
      Bool.eq_false_iff.mpr fun hstays => h ⟨hshort, hstays⟩
    refine ⟨dirs (visited [] p.parts), dirs ((visited [] p.parts).filter (Near root)),
      isGrounded_dirs hclosed, isGrounded_dirs ?_, ?_,
      isDir_ne hp (fun _ hm => hm) (walk_dirs_near (.inl List.nil_prefix) hstays fun _ hm => hm)⟩
    · intro l hl l' hsub
      obtain ⟨hmem, hnear⟩ := List.mem_filter.mp hl
      exact List.mem_filter.mpr ⟨hclosed l hmem l' hsub,
        decide_eq_true ((of_decide_eq_true hnear).above hsub)⟩
    · intro l hl
      have hnear : Near root l := .inr hl
      simp [find?_dirs, hnear]
  · -- The walk does not get to the root: let nothing be on the way.
    refine ⟨dirs (visited [] p.parts), dirs [], isGrounded_dirs hclosed, isGrounded_dirs nofun, ?_,
      isDir_ne hp (fun _ hm => hm) ?_⟩
    · intro l hl
      have hmem : l ∉ visited [] p.parts := fun hmem => hshort fun part hpart =>
        short_of_mem_visited (List.forall_mem_nil _) hmem part (hl.subset hpart)
      simp [find?_dirs, hmem]
    · obtain ⟨rest, hrest⟩ := hroot
      rw [← hrest]
      cases root with
      | nil => exact absurd (List.forall_mem_nil _) hshort
      | cons part parts =>
        have hpart : part ≠ ".." := fun heq => hdots (heq ▸ List.mem_cons_self)
        have hfirst : ¬ nameLimit < part.utf8ByteSize := hfirst
        have hgone : (dirs []).find? ([] ++ [part]) = none := by
          rw [find?_dirs, if_neg (by simp)]
        rw [List.cons_append, walk, if_neg hpart, if_neg hfirst, hgone]
        rfl

end FileTree

end Rulebook
