import Rulebook.Proofs.File.Confined
import Rulebook.Proofs.Project.Question

/-!
# Looking for files from the root

A name is looked for from the root of the project, however it starts (`Project.pathOf_eq`). What is
found depends on the project alone just if the path to it is confined to the root
(`Project.hasPlace_agree_iff`); a name without `..` always is (`Project.confined_of_not_mem`), and a
name that starts with `..` leads out of the project.
-/

namespace Rulebook

open FileTree File

namespace Project

variable {p : Project}

/-- The names that lead from the root to `name`. -/
def namesOf (name : String) : List String :=
  (Path.ofText (String.ofList (name.toList.dropWhile fun c => c == '/' || c == '\\'))).parts

theorem originOf_dropWhile {f : Char → Bool} (hf : f '/' = true) (s : Text) :
    Path.originOf (s.dropWhile f) = .here := by
  cases hs : s.dropWhile f with
  | nil => rfl
  | cons c rest =>
    have hhead := List.head?_dropWhile_not f s
    rw [hs] at hhead
    have hc : c ≠ '/' := by
      rintro rfl
      exact absurd (hf.symm.trans hhead) nofun
    unfold Path.originOf
    split
    case h_4 => rfl
    all_goals
      next heq => exact absurd (List.cons.inj heq).1 hc

/-- A name is looked for below the root. -/
theorem pathOf_eq (p : Project) (name : String) :
    p.pathOf name = ⟨p.root.origin, p.root.parts ++ namesOf name⟩ := by
  have horigin : (Path.ofText (String.ofList
      (name.toList.dropWhile fun c => c == '/' || c == '\\'))).isAbsolute = false := by
    show decide (Path.originOf (String.ofList _).toList ≠ .here) = false
    rw [String.toList_ofList, originOf_dropWhile rfl]
    rfl
  unfold pathOf Path.join
  rw [horigin]
  rfl

theorem confined_of_not_mem (hdots : ".." ∉ p.root.parts)
    (hshort : ∀ part ∈ p.root.parts, part.utf8ByteSize ≤ nameLimit) {name : String}
    (hname : ".." ∉ namesOf name) : Confined p.root.parts (p.pathOf name) := by
  rw [pathOf_eq]
  refine .inr (.inr ⟨hshort, staysNear_of_near ?_ (.inr (List.prefix_append _ _))⟩)
  exact fun hmem => (List.mem_append.mp hmem).elim hdots hname

theorem hasPlace_empty (p : Project) (v : View) (place : Place) :
    (p.hasPlace v place .empty).1 = p.present v place := 
    (hasPlace_recalls place).answer_empty

theorem mapError_refused_injective {x y : Except File.Error Bool}
    (h : x.mapError (fun e => Condition.Failure.fault (.refused e)) =
      y.mapError fun e => Condition.Failure.fault (.refused e)) : x = y := by
  cases x <;> cases y <;> cases h <;> rfl

/-- With nothing found yet, what is found at a place is the same in all file systems that agree at
the root and below just if its path is confined to the root. -/
theorem hasPlace_agree_iff (here : View) (root : Path) (vars : Entries) (name : String) :
    (∀ (kind : String) (v v' : View), v.tree.IsGrounded → v'.tree.IsGrounded →
      AgreeBelow (here.absolute root).parts v.tree v'.tree →
      ((Project.mk (here.absolute root) vars).hasPlace v ⟨kind, name⟩ .empty).1 =
        ((Project.mk (here.absolute root) vars).hasPlace v' ⟨kind, name⟩ .empty).1) ↔
    Confined (here.absolute root).parts ((Project.mk (here.absolute root) vars).pathOf name) := by
  have hroot := here.isNormal_absolute root
  generalize hp : Project.mk (here.absolute root) vars = p
  have hbase : here.absolute root = p.root := by rw [← hp]
  rw [hbase] at hroot ⊢
  have hbelow : p.root.parts <+: (p.pathOf name).parts := by
    rw [pathOf_eq]
    exact List.prefix_append _ _
  simp only [hasPlace_empty, present]
  constructor
  · intro h
    by_contra hnot
    obtain ⟨t, t', ht, ht', hagree, hne⟩ := exists_isDir_ne hnot hroot.not_mem hbelow []
    have hsame := h Namespace.dir.name ⟨t, []⟩ ⟨t', []⟩ ht ht' hagree
    rw [if_pos rfl, if_pos rfl] at hsame
    exact hne (mapError_refused_injective hsame)
  · intro h kind v v' ht ht' hagree
    have habs : (p.pathOf name).isAbsolute = true := by
      rw [pathOf_eq]
      exact hroot.isAbsolute
    have hstat := stat_congr h habs hbelow hroot.not_mem ht ht' hagree v.here v'.here
    unfold View.isDir View.isFile isDir isFile
    rw [hstat]

/-- A name that goes up leads to what is beside the root. -/
theorem not_forall_hasPlace_agree :
    ¬ ∀ (here : View) (root : Path) (vars : Entries) (name kind : String) (v v' : View),
      v.tree.IsGrounded → v'.tree.IsGrounded →
      AgreeBelow (here.absolute root).parts v.tree v'.tree →
      ((Project.mk (here.absolute root) vars).hasPlace v ⟨kind, name⟩ .empty).1 =
        ((Project.mk (here.absolute root) vars).hasPlace v' ⟨kind, name⟩ .empty).1 := by
  intro h
  have hagree : AgreeBelow ["p"] ⟨[(["outside.txt"], .file []), (["p"], .directory)]⟩
      ⟨[(["p"], .directory)]⟩ := by
    rintro l ⟨parts, rfl⟩
    rfl
  have hsame := h ⟨⟨[]⟩, []⟩ ⟨.root, ["p"]⟩ [] "../outside.txt" "file"
    ⟨⟨[(["outside.txt"], .file []), (["p"], .directory)]⟩, []⟩ ⟨⟨[(["p"], .directory)]⟩, []⟩
    (isGrounded_of_entries (by decide)) (isGrounded_of_entries (by decide)) hagree
  rw [hasPlace_empty, hasPlace_empty] at hsame
  revert hsame
  decide

end Project

end Rulebook
