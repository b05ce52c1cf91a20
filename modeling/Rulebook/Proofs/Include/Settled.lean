import Rulebook.File.Tree
import Rulebook.Proofs.Include.Replacement

/-!
# Nothing is left to expand

A text in which every directive has been replaced by a text without directives has no directives:
what takes the place of a directive starts and ends where a line does, up to a carriage return, and
a carriage return makes no line a directive (`Directive.find_replace`). So an expansion that
succeeds leaves none behind, at any depth. The block of metadata in front of it stays as it is, or
has nothing inside; so a second resolution finds nothing to do (`resolve_leaves_no_directive`).
-/

namespace Rulebook

/-! ## Texts without directives -/

namespace Directive

theorem path?_return (line : Text) : path? (line ++ ['\r']) = none := by
  have hreturn : Blank.isSpaceOrTab '\r' = false := by decide
  unfold path?
  rw [Blank.dropWhile_append_cons hreturn]
  split
  next blank rest heq =>
    have hline := Search.dropStart?_eq_some.mp heq
    rcases List.eq_nil_or_concat rest with rfl | ⟨rest, c, rfl⟩
    · have hblank := congrArg List.getLast? hline
      simp only [List.getLast?_append, List.getLast?_singleton, Option.some_or,
        Option.some.injEq] at hblank
      rw [← hblank, hreturn]
      rfl
    · have hc := congrArg List.getLast? hline
      simp only [List.concat_eq_append, List.getLast?_append, List.getLast?_cons,
        List.getLast?_nil, Option.getD_none, Option.some_or, Option.getD_some,
        Option.some.injEq] at hc
      subst hc
      have htarget : Blank.dropEndWhile Blank.isSpaceOrTab (rest ++ ['\r']) = rest ++ ['\r'] := by
        simp [Blank.dropEndWhile, hreturn]
      have hsuffix : suffix.isSuffixOf (rest ++ ['\r']) = false := by
        simp only [List.isSuffixOf, List.reverse_append]
        rfl
      dsimp only
      rw [List.concat_eq_append, htarget, hsuffix, Bool.and_false, Bool.false_and]
      rfl
  next => rfl

/-- A directive has an at sign. -/
theorem mem_of_path? {line path : Text} (h : path? line = some path) : '@' ∈ line := by
  unfold path? at h
  split at h
  next heq =>
    have hline := Search.dropStart?_eq_some.mp heq
    have hmem : '@' ∈ line.dropWhile Blank.isSpaceOrTab := by
      rw [hline]
      exact List.mem_append_left _ (by decide)
    exact (List.dropWhile_sublist _).mem hmem
  next => cases h

theorem find_eq_nil_iff {s : Text} :
    find s = [] ↔ ∀ line ∈ Lines.byLineFeed s, path? (Lines.withoutReturn line) = none := by
  rw [← List.map_eq_nil_iff (f := (·.path)), map_path_find, List.filterMap_eq_nil_iff]

theorem find_of_not_mem {s : Text} (h : '@' ∉ s) : find s = [] := by
  refine find_eq_nil_iff.mpr fun line hline => ?_
  cases hpath : path? (Lines.withoutReturn line) with
  | none => rfl
  | some path =>
    have hmem := mem_of_path? hpath
    rcases Lines.withoutReturn_cases line with heq | heq
    · exact absurd (Blank.mem_of_mem_splitWhere hline (heq ▸ hmem)) h
    · exact absurd (Blank.mem_of_mem_splitWhere hline (heq ▸ List.mem_append_left _ hmem)) h

/-- A carriage return after a text makes no line a directive. -/
theorem find_append_return {s : Text} (h : find s = []) : find (s ++ ['\r']) = [] := by
  rw [find_eq_nil_iff] at h ⊢
  obtain ⟨pieces, last, hs, hr⟩ :=
    Blank.splitWhere_append_of_not (p := (· == '\n')) (t := ['\r']) (by simp) s
  unfold Lines.byLineFeed at h ⊢
  rw [hs, List.forall_mem_append] at h
  rw [hr, List.forall_mem_append]
  refine ⟨h.1, fun line hline => ?_⟩
  obtain rfl := List.mem_singleton.mp hline
  have hlast := h.2 last (List.mem_singleton_self last)
  rw [Lines.withoutReturn, if_pos (by simp), List.dropLast_concat]
  rcases Lines.withoutReturn_cases last with heq | heq
  · rwa [heq] at hlast
  · rw [heq]
    exact path?_return _

theorem find_append_lineFeed {s t : Text} (hs : find s = []) (ht : find t = []) :
    find (s ++ '\n' :: t) = [] := by
  rw [find_eq_nil_iff] at hs ht ⊢
  rw [Lines.byLineFeed_append]
  exact List.forall_mem_append.mpr ⟨hs, ht⟩

theorem find_intercalate {pieces : List Text} (h : ∀ piece ∈ pieces, find piece = []) :
    find (['\n'].intercalate pieces) = [] := by
  cases pieces with
  | nil => decide
  | cons piece pieces =>
    obtain ⟨hpiece, hpieces⟩ := List.forall_mem_cons.mp h
    rw [Lines.intercalate_cons]
    clear h
    induction pieces generalizing piece with
    | nil => simpa using hpiece
    | cons next pieces ih =>
      obtain ⟨hnext, hpieces⟩ := List.forall_mem_cons.mp hpieces
      exact find_append_lineFeed hpiece (ih next hnext hpieces)

section Replace

variable {f : Directive → Text}

/-- What takes the place of a line has no directives if what takes the place of its directive has
none. -/
theorem find_replaceLine {offset : Nat} {line : Text} (hline : '\n' ∉ line)
    (h : ∀ d ∈ (ofLine? offset line).toList, find (f d) = []) :
    find (replaceLine f offset line) = [] := by
  unfold replaceLine
  cases hd : ofLine? offset line with
  | none =>
    have hpath : path? (Lines.withoutReturn line) = none := Option.map_eq_none_iff.mp hd
    refine find_eq_nil_iff.mpr fun line' hline' => ?_
    rw [Lines.byLineFeed_of_not_mem hline] at hline'
    rwa [List.mem_singleton.mp hline']
  | some d =>
    have hnone : find (f d) = [] := h d (by rw [hd]; exact List.mem_singleton_self d)
    obtain ⟨-, tail, rfl, rfl | rfl⟩ := of_ofLine? hd
    · simpa using hnone
    · simpa using find_append_return hnone

theorem find_replaceLines {offset : Nat} {lines : List Text} (hlines : ∀ line ∈ lines, '\n' ∉ line)
    (h : ∀ d ∈ findFrom offset lines, find (f d) = []) :
    ∀ piece ∈ replaceLines f offset lines, find piece = [] := by
  induction lines generalizing offset with
  | nil => exact fun _ hpiece => nomatch hpiece
  | cons line lines ih =>
    rw [findFrom_cons, List.forall_mem_append] at h
    rw [List.forall_mem_cons] at hlines
    exact List.forall_mem_cons.mpr ⟨find_replaceLine hlines.1 h.1, ih hlines.2 h.2⟩

theorem find_replace {s : Text} (h : ∀ d ∈ find s, find (f d) = []) :
    find (replace f s (find s)) = [] := by
  rw [replace_find]
  exact find_intercalate
    (find_replaceLines (fun _ hline => Lines.not_mem_of_mem_byLineFeed hline) h)

end Replace

end Directive

/-! ## Expansions -/

namespace Include

section Expand

variable {read : Path → Except File.ReadError Text} {limit depth : Nat} {n : Nesting}

theorem find_expand {body out : Text} (h : (expand read limit depth n body).result = .ok out) :
    Directive.find out = [] := by
  induction depth using Nat.strongRecOn generalizing n body out with
  | ind depth ih =>
    rw [expand_eq] at h
    obtain ⟨hok, rfl⟩ := splice_find_ok_iff.mp h
    refine Directive.find_replace fun d hd => ?_
    obtain ⟨-, deeper, _, rfl, -, hinner⟩ :=
      opened_eq_ok_iff.mp (Traced.result_of_ran_ok (hok d hd))
    exact ih deeper (Nat.lt_succ_self deeper) hinner

end Expand

end Include

/-! ## The document afterwards -/

theorem Directive.find_body {s : Text} (h : find s = []) : find (Frontmatter.body s) = [] := by
  have hcut := map_path_find_append (Frontmatter.prologue_cases s)
  rw [Frontmatter.prologue_append_body, h, List.map_nil] at hcut
  exact List.map_eq_nil_iff.mp (List.append_eq_nil_iff.mp hcut.symm).2

/-- Where the body of a document changes to a text without directives, the document has none
outside its block, even if the block gets longer. -/
theorem Directive.find_body_append {s rest : Text} (hs : Frontmatter.body s ≠ [])
    (hrest : find rest = []) : find (Frontmatter.body (Frontmatter.prologue s ++ rest)) = [] := by
  rcases Frontmatter.prologue_append_or hs with hkept | hplain
  · have hbody := Frontmatter.prologue_append_body (Frontmatter.prologue s ++ rest)
    rw [hkept rest] at hbody
    rwa [List.append_cancel_left hbody]
  · refine find_body ?_
    have hat : '@' ∉ Frontmatter.prologue s := fun hc => by
      have hnot : ¬Frontmatter.IsPlain '@' := by
        unfold Frontmatter.IsPlain
        decide
      exact hnot (hplain _ hc)
    rcases Frontmatter.prologue_cases s with hnil | hall | ⟨line, hline⟩
    · rwa [hnil]
    · exact absurd hall hs
    · rw [hline] at hat ⊢
      rw [List.append_assoc]
      exact find_append_lineFeed
        (find_of_not_mem fun hc => hat (List.mem_append_left _ hc)) hrest

namespace Include

/-- A resolution that succeeds leaves no directive in what follows the block of the document, and
there is nothing to do for a second one, wherever it is made. -/
theorem resolve_leaves_no_directive (v : View) (limit : Nat) (document base : Path) (content : Text)
    {r : Resolution}
    (h : resolve v.readText limit (v.absolute document) (v.absolute base) content = .ok r)
    (he : r.error = none) :
    (∃ rest, r.content = Frontmatter.prologue content ++ rest ∧ Directive.find rest = []) ∧
      ∀ (w : View) (limit' : Nat) (document' base' : Path),
        resolve w.readText limit' (w.absolute document') (w.absolute base') r.content =
          .ok ⟨r.content, false, [], none⟩ := by
  obtain rfl := eq_resolution_of_resolve h
  obtain ⟨out, hout, hcontent⟩ := content_resolution he
  refine ⟨⟨out, hcontent, find_expand hout⟩, fun w limit' document' base' => ?_⟩
  have hfind : Directive.find (Frontmatter.body
      (resolution v.readText limit (v.absolute document) (v.absolute base)
        content).content) = [] := by
    by_cases hf : Directive.find (Frontmatter.body content) = []
    · rwa [resolution_of_find_eq_nil hf]
    · rw [hcontent]
      refine Directive.find_body_append (fun hnil => hf ?_) (find_expand hout)
      rw [hnil]
      decide
  unfold resolve
  rw [resolution_of_find_eq_nil hfind]

theorem resolve_leaves_no_directive_in_block :
    let v : View := ⟨⟨[(["x.md"], .file [88])]⟩, []⟩
    let document := Path.ofText "doc.md"
    let content := "---\n@include y.md\n---\n@include x.md\r\n".toList
    ∃ r, resolve v.readText 1 (v.absolute document) (v.absolute document.parent) content = .ok r ∧
      r.error = none ∧ r.content = "---\n@include y.md\n---\nX\r\n".toList ∧
      (∃ rest, r.content = Frontmatter.prologue content ++ rest ∧ Directive.find rest = []) ∧
      ∀ (w : View) (limit' : Nat) (document' base' : Path),
        resolve w.readText limit' (w.absolute document') (w.absolute base') r.content =
          .ok ⟨r.content, false, [], none⟩ := by
  intro v document content
  have hfacts : (resolve v.readText 1 (v.absolute document) (v.absolute document.parent)
      content).toOption.map (fun r => (r.error, r.content)) =
        some (none, "---\n@include y.md\n---\nX\r\n".toList) := by
    decide +kernel
  obtain ⟨r, hr, hcontent⟩ := exists_of_map_toOption hfacts
  rw [Prod.mk.injEq] at hcontent
  exact ⟨r, hr, hcontent.1, hcontent.2,
    resolve_leaves_no_directive v 1 document document.parent content hr hcontent.1⟩

end Include

end Rulebook
