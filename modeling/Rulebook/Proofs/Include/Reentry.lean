import Rulebook.Proofs.Include.Arrival
import Rulebook.Proofs.Include.Limit

/-!
# Files inside their own expansion

Targets are compared as paths, and a path is made normal without looking at any file; where a lookup
of the path comes to a place, that is the place of the normal path (`View.LeadsTo.parts_normalize`).
So the paths of one place differ at most in having one slash or two at the start. A directive that
leads to a file being expanded is refused just if one of the paths of that file starts as its own
does, and no file is being expanded more than twice (`Include.resolve_refuses_reentry`).
-/

namespace Rulebook

/-! ## Places of paths -/

/-- Looking the path up leads to the place `l`. -/
def View.LeadsTo (v : View) (p : Path) (l : Location) : Prop :=
  v.tree.walk (if p.isAbsolute then [] else v.here) p.parts = .ok l

section Place

variable {v : View} {p : Path} {l : Location}

/-- Cancelling names agrees with leaving directories. -/
theorem FileTree.foldl_step_of_walk {t : FileTree} {l l' : Location} {parts : List String}
    (hl : ".." ∉ l) (h : t.walk l parts = .ok l') :
    parts.foldl (Path.step true) l.reverse = l'.reverse := by
  induction parts generalizing l with
  | nil =>
    cases h
    rfl
  | cons part parts ih =>
    unfold walk at h
    split at h
    · cases h
    rw [List.foldl_cons]
    split at h
    next hpart =>
      have hstep : Path.step true l.reverse part = l.dropLast.reverse := by
        rcases List.eq_nil_or_concat l with rfl | ⟨l, last, rfl⟩
        · rw [hpart]
          rfl
        · have hlast : last ≠ ".." := by
            rintro rfl
            exact hl (by simp)
          simp [Path.step, hpart, hlast]
      rw [hstep]
      exact ih (fun hmem => hl (List.dropLast_subset _ hmem)) h
    next hpart =>
      split at h
      · cases h
      split at h
      · cases h
      have hstep : Path.step true l.reverse part = (l ++ [part]).reverse := by
        simp [Path.step, hpart]
      rw [hstep]
      refine ih (fun hmem => ?_) h
      rcases List.mem_append.mp hmem with hmem | hmem
      · exact hl hmem
      · exact hpart (List.mem_singleton.mp hmem).symm

theorem View.LeadsTo.parts_normalize (hp : p.isAbsolute = true) (h : v.LeadsTo p l) :
    p.normalize.parts = l := by
  unfold LeadsTo at h
  rw [hp, if_pos rfl] at h
  have hfold := FileTree.foldl_step_of_walk List.not_mem_nil h
  unfold Path.normalize
  rw [hp]
  show (p.parts.foldl (Path.step true) [].reverse).reverse = l
  rw [hfold, List.reverse_reverse]

/-- Absolute paths through the same names are at most two. -/
theorem Path.count_parts_le_two {files : List Path} (hnodup : files.Nodup)
    (habsolute : ∀ p ∈ files, p.isAbsolute = true) (l : Location) :
    (files.map Path.parts).count l ≤ 2 := by
  have hsubset : files.filter (fun p => p.parts = l) ⊆ [⟨.root, l⟩, ⟨.doubleRoot, l⟩] := by
    intro p hp
    obtain ⟨hmem, hparts⟩ := List.mem_filter.mp hp
    obtain rfl : p.parts = l := by simpa using hparts
    have hp := habsolute p hmem
    obtain ⟨origin, parts⟩ := p
    cases origin with
    | here => cases hp
    | root => exact List.mem_cons_self
    | doubleRoot => exact List.mem_cons_of_mem _ List.mem_cons_self
  calc (files.map Path.parts).count l
      = (files.filter fun p => p.parts = l).length := by
        rw [List.count, List.countP_map, ← List.countP_eq_length_filter]
        exact List.countP_congr fun p _ => by simp
    _ ≤ [(⟨.root, l⟩ : Path), ⟨.doubleRoot, l⟩].length :=
        ((hnodup.filter _).subperm hsubset).length_le

end Place

namespace Include

section Reentry

variable {read : Path → Except File.ReadError Text} {limit depth : Nat} {file base directory : Path}
  {outer : List Path} {ds : List Directive} {content : Text} {address : List Nat} {s : Spot}
  {begun begun' : List (List Nat × Spot)} {c : Cause}

theorem BegunBefore.unique (h : BegunBefore read directory ds address begun)
    (h' : BegunBefore read directory ds address begun') : begun = begun' := by
  have hirrefl : Std.Irrefl fun x y : List Nat × Spot => x.1 < y.1 := ⟨fun x => lt_irrefl x.1⟩
  have hasymm : Std.Asymm fun x y : List Nat × Spot => x.1 < y.1 := ⟨fun x y => lt_asymm⟩
  refine List.Pairwise.eq_of_mem_iff h.ordered h'.ordered fun ⟨b, s⟩ => ?_
  rw [h.mem_iff, h'.mem_iff]

theorem StoppedBy.exists_circular_iff (h : StoppedBy read limit depth outer s c) :
    (∃ chain, c = .circular chain) ↔ s.target ∈ s.files outer := by
  cases h with
  | circular hmem => exact iff_of_true ⟨_, rfl⟩ hmem
  | tooDeep hfiles => exact iff_of_false (fun ⟨_, hc⟩ => nomatch hc) hfiles
  | @unread why hfiles =>
    refine iff_of_false (fun ⟨_, hc⟩ => ?_) hfiles
    rcases Error.ofRead_cases why with h | h <;> cases h.symm.trans hc

/-- The resolution fails at the directive because its target is being expanded. By then it has
entered the files of the directives before, and no other. -/
def RefusedAsCircular (read : Path → Except File.ReadError Text) (limit : Nat) (file base : Path)
    (content : Text) (address : List Nat) (s : Spot) : Prop :=
  ∃ r e chain, resolve read limit file base content = .ok r ∧ r.error = some e ∧
    e.cause = .circular chain ∧ e.written = s.written ∧ e.target = s.target ∧
    (s.files [file]).head? = some e.source ∧
    Entered read base (Directive.find (Frontmatter.body content)) address (enteredIn r.steps)

/-- A target is refused just if its path is among those of the files being expanded. -/
theorem Arrives.refusedAsCircular_iff
    (h : Arrives read limit [file] base (Directive.find (Frontmatter.body content)) address s) :
    RefusedAsCircular read limit file base content address s ↔ s.target ∈ s.files [file] := by
  constructor
  · rintro ⟨r, e, chain, hr, he, hcause, -, -, -, begun, hbegun, hentered⟩
    obtain rfl := eq_resolution_of_resolve hr
    by_cases hstops : Stops read limit [file] s
    · obtain ⟨e', he', hblames, -⟩ := (firstStop_iff.mpr ⟨h, hstops⟩).resolution
      obtain rfl : e = e' := Option.some.inj (he.symm.trans he')
      exact hblames.cause.exists_circular_iff.mp ⟨chain, hcause⟩
    · -- the target would have been entered
      obtain ⟨before, rest, hbefore, hsteps⟩ := h.entered hstops
      rw [hentered, hbegun.unique hbefore] at hsteps
      exact absurd hsteps (by simp)
  · intro hmem
    obtain ⟨e, he, hblames, hentered⟩ := (firstStop_iff.mpr ⟨h, .inl hmem⟩).resolution
    obtain ⟨chain, hcause⟩ := hblames.cause.exists_circular_iff.mpr hmem
    refine ⟨_, e, chain, ?_, he, hcause, hblames.written, hblames.target, hblames.source, hentered⟩
    rcases resolve_cases read limit file base content with ⟨-, hok⟩ | ⟨e', he', hcause', -⟩
    · exact hok
    · obtain rfl : e = e' := Option.some.inj (he.symm.trans he')
      cases hcause.symm.trans hcause'

theorem Stands.isAbsolute_directory (hbase : directory.isAbsolute = true)
    (h : Stands read directory ds address s) : s.directory.isAbsolute = true := by
  induction h with
  | here => exact hbase
  | inside _ _ _ ih =>
    exact ih (Path.isNormal_absolute hbase _).parent.isAbsolute

end Reentry

/-- Where the lookup of a directive's path comes to a place, that is the place of its target. A
directive whose target has the place of a file being expanded is refused, however deep it lies and
before the file is entered once more, just if such a file has a path that starts with as many
slashes. Otherwise the file is entered again, unless it lies too deep. No place is that of more than
two of the files being expanded. -/
theorem resolve_refuses_reentry (v : View) (limit : Nat) (document base : Path) (content : Text)
    {address : List Nat} {s : Spot}
    (h : Arrives v.readText limit [v.absolute document] (v.absolute base)
      (Directive.find (Frontmatter.body content)) address s) :
    (∀ l, v.LeadsTo (s.directory.join (Path.ofText s.written)) l → s.target.parts = l) ∧
    (RefusedAsCircular v.readText limit (v.absolute document) (v.absolute base) content address s ↔
      ∃ p ∈ s.files [v.absolute document],
        p.parts = s.target.parts ∧ p.origin = s.target.origin) ∧
    ((∀ p ∈ s.files [v.absolute document],
        p.parts = s.target.parts → p.origin ≠ s.target.origin) →
      s.level ≤ limit → v.HasText s.target →
      ∀ r, resolve v.readText limit (v.absolute document) (v.absolute base) content = .ok r →
        ∃ before rest, BegunBefore v.readText (v.absolute base)
            (Directive.find (Frontmatter.body content)) address before ∧
          enteredIn r.steps = targets before ++ s.target :: rest) ∧
    ∀ l, ((s.files [v.absolute document]).map Path.parts).count l ≤ 2 := by
  have hbase := v.isNormal_absolute base
  have hmem : s.target ∈ s.files [v.absolute document] ↔ ∃ p ∈ s.files [v.absolute document],
      p.parts = s.target.parts ∧ p.origin = s.target.origin := by
    constructor
    · exact fun hmem => ⟨_, hmem, rfl, rfl⟩
    · rintro ⟨⟨origin, parts⟩, hp, rfl, rfl⟩
      exact hp
  refine ⟨fun l hl => ?_, h.refusedAsCircular_iff.trans hmem, fun hother hlevel htext r hr => ?_,
    Path.count_parts_le_two ?_ ?_⟩
  · have hdirectory := h.stands.isAbsolute_directory hbase.isAbsolute
    exact hl.parts_normalize (Path.isAbsolute_join hdirectory _)
  · obtain rfl := eq_resolution_of_resolve hr
    obtain ⟨text, htext⟩ := View.hasText_iff.mp htext
    refine h.entered ?_
    rintro (hin | hdeep | hread)
    · obtain ⟨p, hp, hparts, horigin⟩ := hmem.mp hin
      exact hother p hp hparts horigin
    · exact Nat.not_lt_of_le hlevel hdeep
    · exact hread text htext
  · refine h.stands.nodup_files (List.nodup_singleton _) fun b t ht hb hne hin => ?_
    exact h.passed b t ht (lt_of_prefix_of_ne hb hne) (.inl hin)
  · intro p hp
    rcases List.mem_append.mp hp with hp | hp
    · exact (h.stands.isNormal_above hbase p hp).isAbsolute
    · rw [List.mem_singleton.mp hp]
      exact (v.isNormal_absolute document).isAbsolute

theorem resolve_refuses_reentry_of_document :
    let v : View := ⟨⟨[(["p"], .directory)]⟩, ["p"]⟩
    let document := Path.ofText "doc.md"
    let base := Path.ofText "."
    let content := "@include ./sub/..//doc.md\n".toList
    let s : Spot := ⟨[], v.absolute base,
      ⟨"./sub/..//doc.md".toList, "@include ./sub/..//doc.md".toList, 0⟩⟩
    Arrives v.readText 0 [v.absolute document] (v.absolute base)
        (Directive.find (Frontmatter.body content)) [0] s ∧
      0 < s.level ∧
      RefusedAsCircular v.readText 0 (v.absolute document) (v.absolute base) content [0] s := by
  intro v document base content s
  have h : Arrives v.readText 0 [v.absolute document] (v.absolute base)
      (Directive.find (Frontmatter.body content)) [0] s :=
    ⟨.here (by decide +kernel), fun b t ht hlt => absurd hlt ht.not_lt_first⟩
  exact ⟨h, by decide, (resolve_refuses_reentry v 0 document base content h).2.1.mpr
    ⟨v.absolute document, List.mem_singleton_self _, by decide +kernel, by decide +kernel⟩⟩

/-- Two slashes at the start hide that a directive leads back to its document. -/
theorem not_forall_refusedAsCircular :
    ¬∀ (v : View) (limit : Nat) (document base : Path) (content : Text) (address : List Nat)
        (s : Spot),
      Arrives v.readText limit [v.absolute document] (v.absolute base)
        (Directive.find (Frontmatter.body content)) address s →
      (∃ p ∈ s.files [v.absolute document], p.parts = s.target.parts) →
      RefusedAsCircular v.readText limit (v.absolute document) (v.absolute base) content address
        s := by
  intro h
  let v : View := ⟨⟨[(["p"], .directory)]⟩, ["p"]⟩
  let document := Path.ofText "doc.md"
  let base := Path.ofText "."
  let content := "@include //p/doc.md\n".toList
  have hstands : Stands v.readText (v.absolute base) (Directive.find (Frontmatter.body content)) [0]
      ⟨[], v.absolute base, ⟨"//p/doc.md".toList, "@include //p/doc.md".toList, 0⟩⟩ :=
    .here (by decide +kernel)
  obtain ⟨r, e, chain, hr, he, hcause, -⟩ := h v 0 document base content [0] _
    ⟨hstands, fun b t ht hlt => absurd hlt ht.not_lt_first⟩
    ⟨v.absolute document, List.mem_singleton_self _, by decide +kernel⟩
  have hfacts : (resolve v.readText 0 (v.absolute document) (v.absolute base)
      content).toOption.map (fun r => r.error.map Error.cause) = some (some (.tooDeep 0)) := by
    decide +kernel
  obtain ⟨r', hr', hrfacts⟩ := exists_of_map_toOption hfacts
  obtain rfl : r = r' := Except.ok.inj (hr.symm.trans hr')
  rw [he, Option.map_some, hcause] at hrfacts
  cases hrfacts

end Include

end Rulebook
