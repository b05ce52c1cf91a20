import Rulebook.Proofs.Document.Block
import Rulebook.Proofs.Include.Walk
import Rulebook.Proofs.Text.Pieces

/-!
# Walks over joined texts

A text cut between two lines has the directives of both parts, so the walk over it is the walk over
the first part and then the one over the second. A block of metadata ends with a line; so a walk
over a document that does not leave its block out goes through the directives in the block first
(`Include.walk_eq_prologue_body`).
-/

namespace Rulebook

/-! ## Lines of joined texts -/

namespace Directive

/-- The paths that the lines of a text ask for. -/
theorem map_path_find (s : Text) : (find s).map (·.path) =
    (Lines.byLineFeed s).filterMap fun line => path? (Lines.withoutReturn line) := by
  have hfrom (offset : Nat) (lines : List Text) : (findFrom offset lines).map (·.path) =
      lines.filterMap fun line => path? (Lines.withoutReturn line) := by
    induction lines generalizing offset with
    | nil => rfl
    | cons line lines ih =>
      rw [findFrom, List.filterMap_cons]
      cases path? (Lines.withoutReturn line) with
      | some path => exact congrArg (path :: ·) (ih _)
      | none => exact ih _
  exact hfrom 0 (Lines.byLineFeed s)

theorem map_path_find_append {s t : Text} (h : s = [] ∨ t = [] ∨ ∃ r, s = r ++ ['\n']) :
    (find (s ++ t)).map (·.path) = (find s).map (·.path) ++ (find t).map (·.path) := by
  have hnil : find [] = [] := by decide
  rcases h with rfl | rfl | ⟨r, rfl⟩
  · rw [hnil]
    rfl
  · rw [hnil, List.append_nil, List.map_nil, List.append_nil]
  · have hlast : Lines.byLineFeed (r ++ ['\n']) = Lines.byLineFeed r ++ [[]] :=
      Lines.byLineFeed_append r []
    have hempty : path? (Lines.withoutReturn []) = none := by decide
    rw [List.append_assoc, List.singleton_append, map_path_find, map_path_find, map_path_find,
      Lines.byLineFeed_append, hlast]
    simp [List.filterMap_append, hempty]

end Directive

/-! ## Walks -/

namespace Include

section Walks

variable {read : Path → Except File.ReadError Text} {limit depth : Nat} {n : Nesting}
  {d d' : Directive} {file base : Path}

/-- What happens at a directive depends on its path alone. -/
theorem ran_opened_congr (h : d.path = d'.path) :
    (opened read limit depth n d).ran = (opened read limit depth n d').ran := by
  have htarget : target n d = target n d' := by
    unfold target
    rw [h]
  rw [ran_opened, ran_opened, htarget]
  simp only [fault, framed, htarget, h]

theorem visit_opened_congr {ds es : List Directive} (h : ds.map (·.path) = es.map (·.path)) :
    visit (opened read limit depth n) ds = visit (opened read limit depth n) es := by
  refine visit_congr ?_
  have hran (d : Directive) : (opened read limit depth n d).ran =
      (opened read limit depth n ⟨d.path, [], 0⟩).ran := ran_opened_congr rfl
  have hmap (l : List Directive) : l.map (fun d => (opened read limit depth n d).ran) =
      (l.map (·.path)).map fun path => (opened read limit depth n ⟨path, [], 0⟩).ran := by
    rw [List.map_map]
    exact List.map_congr_left fun d _ => hran d
  rw [hmap, hmap, h]

theorem walk_append {s t : Text} (h : s = [] ∨ t = [] ∨ ∃ r, s = r ++ ['\n']) :
    walk read limit file base (s ++ t) =
      walk read limit file base s >>= fun _ => walk read limit file base t := by
  unfold walk
  rw [← visit_append]
  refine visit_opened_congr ?_
  rw [List.map_append, Directive.map_path_find_append h]

/-- A walk that does not leave the block of metadata out goes through its directives first. -/
theorem walk_eq_prologue_body (s : Text) :
    walk read limit file base s = walk read limit file base (Frontmatter.prologue s) >>= fun _ =>
      walk read limit file base (Frontmatter.body s) := by
  rw [← walk_append (Frontmatter.prologue_cases s), Frontmatter.prologue_append_body]

end Walks

end Include

end Rulebook
