import Rulebook.Proofs.Include.Limit

/-!
# Files resolved by themselves

What the target of a directive is expanded to does not depend on the files around it, as long as it
comes out: leaving out of account that a file is being expanded changes nothing for a run that does
not enter this file (`expand_eq_of_sameBut`). So a document is resolved by resolving its targets as
documents of their own, each without the way back to it (`resolve_iff_alone`).
-/

namespace Rulebook.Include

/-! ## Runs that come out -/

namespace Traced

variable {α : Type} {p : Path}

/-- Comes out without having entered `p`. -/
def IsClearOf (p : Path) (x : Traced α) : Prop :=
  (∃ a, x.result = .ok a) ∧ p ∉ enteredIn x.steps

theorem isInherited_isClearOf (p : Path) : IsInherited (IsClearOf p) where
  first {_ _ x f} h := by
    cases hx : x.result with
    | error e =>
      rw [bind_of_error hx] at h
      obtain ⟨⟨a, ha⟩, -⟩ := h
      cases ha
    | ok a =>
      rw [bind_of_ok hx, IsClearOf, enteredIn_append, List.mem_append, not_or] at h
      exact ⟨⟨a, hx⟩, h.2.1⟩
  rest {_ _ x f a} h hx := by
    rw [bind_of_ok hx, IsClearOf, enteredIn_append, List.mem_append, not_or] at h
    exact ⟨h.1, h.2.2⟩

end Traced

/-- The same directory, and the same files being expanded, but perhaps for `p`. -/
structure Nesting.SameBut (p : Path) (n n' : Nesting) : Prop where
  directory : n'.directory = n.directory
  files : ∀ q, q ≠ p → (q ∈ n'.files ↔ q ∈ n.files)

section SameBut

variable {read : Path → Except File.ReadError Text} {limit limit' depth : Nat} {n n' : Nesting}
  {p : Path} {d : Directive} {body : Text}

theorem Nesting.SameBut.enter (h : n.SameBut p n') (file : Path) :
    (n.enter file).SameBut p (n'.enter file) where
  directory := rfl
  files q hq := by
    show q ∈ file :: n'.files ↔ q ∈ file :: n.files
    rw [List.mem_cons, List.mem_cons, h.files q hq]

/-- A directive that comes out without entering `p` does so whether `p` is being expanded or not. -/
theorem opened_eq_of_sameBut (hn : n.SameBut p n')
    (ih : ∀ deeper < depth, ∀ body,
      (expand read limit deeper (n.enter (target n d)) body).IsClearOf p →
        expand read limit' deeper (n'.enter (target n d)) body =
          expand read limit deeper (n.enter (target n d)) body)
    (h : (opened read limit depth n d).IsClearOf p) :
    opened read limit' depth n' d = opened read limit depth n d := by
  obtain ⟨out, hout⟩ := h.1
  obtain ⟨hc, deeper, text, rfl, hr, -⟩ := opened_eq_ok_iff.mp hout
  have hinner := (Traced.isInherited_isClearOf p).of_opened h hc hr
  have htarget : target n' d = target n d := by rw [target, hn.directory, target]
  have hne : target n d ≠ p := by
    rw [opened_of_ok hc hr] at h
    have hentered := ((Traced.isInherited_isClearOf p).first h).2
    exact fun heq => hentered (List.mem_singleton.mpr heq.symm)
  have hc' : target n' d ∉ n'.files := by rwa [htarget, hn.files _ hne]
  rw [opened_of_ok hc hr, opened_of_ok hc' (htarget ▸ hr), htarget,
    ih deeper (Nat.lt_succ_self deeper) _ hinner]

theorem expand_eq_of_sameBut (hn : n.SameBut p n')
    (h : (expand read limit depth n body).IsClearOf p) :
    expand read limit' depth n' body = expand read limit depth n body := by
  -- the nestings differ only in `p` again where a target is entered
  induction depth using Nat.strongRecOn generalizing n n' body with
  | ind depth ih =>
    rw [expand_eq] at h ⊢
    rw [expand_eq]
    refine splice_eq_of_isInherited (Traced.isInherited_isClearOf p) (fun d hd => ?_) h
    exact opened_eq_of_sameBut hn (fun deeper hlt body hbody => ih deeper hlt (hn.enter _) hbody) hd

/-! ## Files on the way are not entered -/

theorem exists_of_mem_entered {expansion : Directive → Traced Text} {ds : List Directive}
    (h : p ∈ enteredIn (visit expansion ds).steps) :
    ∃ d ∈ ds, p ∈ enteredIn (expansion d).steps := by
  induction ds with
  | nil => cases h
  | cons d ds ih =>
    rw [visit_cons] at h
    cases hd : (expansion d).ran.result with
    | error e =>
      rw [Traced.bind_of_error hd] at h
      exact ⟨d, List.mem_cons_self, h⟩
    | ok a =>
      rw [Traced.bind_of_ok hd, enteredIn_append, List.mem_append] at h
      rcases h with h | h
      · exact ⟨d, List.mem_cons_self, h⟩
      · obtain ⟨d', hd', hp⟩ := ih h
        exact ⟨d', List.mem_cons_of_mem d hd', hp⟩

theorem entered_opened {text : Text} (hc : target n d ∉ n.files)
    (hr : read (target n d) = .ok text) :
    enteredIn (opened read limit (depth + 1) n d).steps =
      target n d ::
        enteredIn (expand read limit depth (n.enter (target n d))
          (Frontmatter.body text)).steps := by
  rw [opened_of_ok hc hr, Traced.bind_of_ok rfl]
  cases hx : (expand read limit depth (n.enter (target n d)) (Frontmatter.body text)).result with
  | error e =>
    rw [Traced.bind_of_error hx]
    rfl
  | ok inner =>
    rw [Traced.bind_of_ok hx, enteredIn_append, enteredIn_append]
    exact congrArg (target n d :: ·) (List.append_nil _)

theorem not_mem_files_of_entered (h : p ∈ enteredIn (expand read limit depth n body).steps) :
    p ∉ n.files := by
  induction depth generalizing n body with
  | zero =>
    rw [← Traced.steps_ran, ran_expand] at h
    obtain ⟨d, -, hp⟩ := exists_of_mem_entered h
    by_cases hc : target n d ∈ n.files
    · rw [opened_of_mem hc] at hp
      cases hp
    · rw [opened_zero hc] at hp
      cases hp
  | succ depth ih =>
    rw [← Traced.steps_ran, ran_expand] at h
    obtain ⟨d, -, hp⟩ := exists_of_mem_entered h
    by_cases hc : target n d ∈ n.files
    · rw [opened_of_mem hc] at hp
      cases hp
    cases hr : read (target n d) with
    | error why =>
      rw [opened_of_error hc hr] at hp
      cases hp
    | ok text =>
      rw [entered_opened hc hr, List.mem_cons] at hp
      rcases hp with rfl | hp
      · exact hc
      · exact fun hmem => ih hp (List.mem_cons_of_mem _ hmem)

end SameBut

/-! ## Resolutions that come out -/

section Resolution

variable {read : Path → Except File.ReadError Text} {limit limit' depth : Nat} {file base p : Path}
  {content body out : Text} {steps : List Step}

/-- Below a document, a file is expanded as it is by itself, if the document is not entered. -/
theorem expand_below_iff :
    expand read limit depth ⟨file, [p], base⟩ body = ⟨steps, .ok out⟩ ↔
      expand read limit' depth ⟨file, [], base⟩ body = ⟨steps, .ok out⟩ ∧ p ∉ enteredIn steps := by
  have hbut : Nesting.SameBut p ⟨file, [p], base⟩ ⟨file, [], base⟩ :=
    ⟨rfl, fun q hq => by simp [Nesting.files, hq]⟩
  have hbut' : Nesting.SameBut p ⟨file, [], base⟩ ⟨file, [p], base⟩ :=
    ⟨rfl, fun q hq => by simp [Nesting.files, hq]⟩
  constructor
  · intro h
    have hnot : p ∉ enteredIn steps := fun hp => by
      have hentered : p ∈ enteredIn (expand read limit depth ⟨file, [p], base⟩ body).steps := by
        rwa [h]
      exact not_mem_files_of_entered hentered
        (List.mem_cons_of_mem file (List.mem_singleton_self p))
    rw [expand_eq_of_sameBut hbut, h]
    · exact ⟨rfl, hnot⟩
    · rw [h]
      exact ⟨⟨out, rfl⟩, hnot⟩
  · rintro ⟨h, hnot⟩
    have hclear : (expand read limit' depth ⟨file, [], base⟩ body).IsClearOf p := by
      rw [h]
      exact ⟨⟨out, rfl⟩, hnot⟩
    rw [expand_eq_of_sameBut hbut' hclear, h]

/-- What a resolution that succeeds is made of. -/
theorem resolution_eq_ok_iff :
    ((resolution read limit file base content).error = none ∧
      (resolution read limit file base content).content = Frontmatter.prologue content ++ out ∧
      (resolution read limit file base content).steps = steps) ↔
    expand read limit limit ⟨file, [], base⟩ (Frontmatter.body content) = ⟨steps, .ok out⟩ := by
  have hsteps : (resolution read limit file base content).steps =
      (expand read limit limit ⟨file, [], base⟩ (Frontmatter.body content)).steps := by
    rw [steps_resolution, walk, ← ran_expand, Traced.steps_ran]
  constructor
  · rintro ⟨he, hcontent, rfl⟩
    obtain ⟨out', hout', hcontent'⟩ := content_resolution he
    obtain rfl : out = out' := List.append_cancel_left (hcontent.symm.trans hcontent')
    rw [hsteps, ← hout']
  · intro h
    have he : (resolution read limit file base content).error = none := by
      rw [resolution_error_eq_none_iff, walk, ← ran_expand, Traced.ran_ok_iff, h]
      exact ⟨out, rfl⟩
    obtain ⟨out', hout', hcontent⟩ := content_resolution he
    rw [h] at hout' hsteps
    obtain rfl : out = out' := Except.ok.inj hout'
    exact ⟨he, hcontent, hsteps⟩

theorem included_of_error_eq_none {r : Resolution} (h : r.error = none) :
    r.included = enteredIn r.steps := by
  unfold Resolution.included
  rw [h]
  rfl

end Resolution

/-! ## Targets as documents -/

/-- The file at `p` with the text `text`, resolved as a document of its own. -/
def alone (v : View) (limit : Nat) (p : Path) (text : Text) : Except Fault Resolution :=
  resolve v.readText limit (v.absolute p) (v.absolute p.parent) text

section Alone

variable {v : View} {limit : Nat} {document base p : Path} {d : Directive} {text out : Text}
  {included : List Path}

theorem alone_eq (hp : p.IsNormal) (limit : Nat) (text : Text) :
    alone v limit p text = resolve v.readText limit p p.parent text := by
  unfold alone View.absolute
  rw [hp.absolute_eq, hp.parent.absolute_eq]

/-- Below a document, a file is expanded as it is resolved by itself, if the document is not
included. -/
theorem expand_below_iff_alone (hp : p.IsNormal) (limit' : Nat) :
    (expand v.readText limit' limit ⟨p, [document], p.parent⟩ (Frontmatter.body text)).result =
          .ok out ∧
        enteredIn (expand v.readText limit' limit ⟨p, [document], p.parent⟩
          (Frontmatter.body text)).steps = included ↔
      ∃ s, alone v limit p text = .ok s ∧ s.error = none ∧
        s.content = Frontmatter.prologue text ++ out ∧ document ∉ s.included ∧
        s.included = included := by
  rw [alone_eq hp]
  constructor
  · rintro ⟨hout, rfl⟩
    obtain ⟨hexpand, hnot⟩ :
        expand v.readText limit limit ⟨p, [], p.parent⟩ (Frontmatter.body text) = ⟨_, .ok out⟩ ∧
          document ∉ enteredIn _ :=
      expand_below_iff.mp (congrArg (Traced.mk _) hout)
    obtain ⟨he, hcontent, hsteps⟩ := resolution_eq_ok_iff.mpr hexpand
    have hincluded := included_of_error_eq_none he
    rw [hsteps] at hincluded
    exact ⟨_, resolve_of_error_eq_none he, he, hcontent, hincluded ▸ hnot, hincluded⟩
  · rintro ⟨s, hs, he, hcontent, hnot, rfl⟩
    obtain rfl := eq_resolution_of_resolve hs
    have hincluded := included_of_error_eq_none he
    have hexpand := resolution_eq_ok_iff.mp ⟨he, hcontent, rfl⟩
    have hbelow : expand v.readText limit' limit ⟨p, [document], p.parent⟩ (Frontmatter.body text) =
        ⟨_, .ok out⟩ := expand_below_iff.mpr ⟨hexpand, hincluded ▸ hnot⟩
    rw [hbelow, hincluded]
    exact ⟨rfl, rfl⟩

/-- A directive of a document is replaced just when its target is another file that can be read and
that, resolved by itself one level less deep, does not include the document. -/
theorem opened_ok_iff_alone (hbase : base.IsNormal) :
    (opened v.readText limit limit ⟨document, [], base⟩ d).result = .ok out ∧
        enteredIn (opened v.readText limit limit ⟨document, [], base⟩ d).steps = included ↔
      1 ≤ limit ∧ d.targetFrom base ≠ document ∧
        ∃ text s, v.readText (d.targetFrom base) = .ok text ∧
          alone v (limit - 1) (d.targetFrom base) text = .ok s ∧ s.error = none ∧
          s.content = Frontmatter.prologue text ++ out ∧ document ∉ s.included ∧
          d.targetFrom base :: s.included = included := by
  have htarget : (d.targetFrom base).IsNormal := Path.isNormal_absolute hbase.isAbsolute _
  constructor
  · rintro ⟨hout, rfl⟩
    obtain ⟨hc, deeper, text, rfl, hr, hx⟩ := opened_eq_ok_iff.mp hout
    obtain ⟨s, hs, he, hcontent, hnot, hincluded⟩ :=
      (expand_below_iff_alone htarget (deeper + 1)).mp ⟨hx, rfl⟩
    refine ⟨Nat.succ_pos deeper, fun heq => hc (List.mem_singleton.mpr heq), text, s, hr, hs, he,
      hcontent, hnot, ?_⟩
    rw [entered_opened hc hr, hincluded]
    rfl
  · rintro ⟨hlimit, hne, text, s, hr, hs, he, hcontent, hnot, rfl⟩
    obtain ⟨deeper, rfl⟩ : ∃ k, limit = k + 1 := ⟨limit - 1, by omega⟩
    have hc : target ⟨document, [], base⟩ d ∉ [document] := fun hmem =>
      hne (List.mem_singleton.mp hmem)
    obtain ⟨hx, hentered⟩ := (expand_below_iff_alone htarget (deeper + 1)).mpr
      ⟨s, hs, he, hcontent, hnot, rfl⟩
    refine ⟨opened_eq_ok_iff.mpr ⟨hc, deeper, text, rfl, hr, hx⟩, ?_⟩
    rw [entered_opened hc hr]
    exact congrArg (d.targetFrom base :: ·) hentered

theorem exists_content_of_alone {s : Resolution} (h : alone v limit p text = .ok s)
    (he : s.error = none) : ∃ rest, s.content = Frontmatter.prologue text ++ rest := by
  obtain rfl := eq_resolution_of_resolve h
  obtain ⟨out, -, hcontent⟩ := content_resolution he
  exact ⟨out, hcontent⟩

end Alone

theorem entered_visit_of_ok {expansion : Directive → Traced Text} {ds : List Directive}
    (h : ∀ d ∈ ds, (expansion d).ran.result = .ok ()) :
    enteredIn (visit expansion ds).steps = ds.flatMap fun d => enteredIn (expansion d).steps := by
  induction ds with
  | nil => rfl
  | cons d ds ih =>
    obtain ⟨hd, hds⟩ := List.forall_mem_cons.mp h
    rw [steps_visit_cons hd, enteredIn_append, ih hds, List.flatMap_cons]

theorem resolve_succeeds_iff {read : Path → Except File.ReadError Text} {limit : Nat}
    {file base : Path} {content : Text} :
    (∃ r, resolve read limit file base content = .ok r ∧ r.error = none) ↔
      ∀ d ∈ Directive.find (Frontmatter.body content),
        (opened read limit limit ⟨file, [], base⟩ d).ran.result = .ok () := by
  rw [← visit_ok_iff]
  constructor
  · rintro ⟨r, hr, he⟩
    obtain rfl := eq_resolution_of_resolve hr
    exact resolution_error_eq_none_iff.mp he
  · intro h
    have he := resolution_error_eq_none_iff.mpr h
    exact ⟨_, resolve_of_error_eq_none he, he⟩

/-- A document with directives is resolved just when includes are allowed and each target is another
file that can be read and that, resolved by itself one level less deep, does not include the
document. The directives then give way to what comes out of their targets behind the blocks of
these, and the files included are the targets, each with the files that it includes itself. -/
theorem resolve_iff_alone (v : View) (limit : Nat) (document base : Path) (content : Text)
    (h : Directive.find (Frontmatter.body content) ≠ []) :
    ((∃ r, resolve v.readText limit (v.absolute document) (v.absolute base) content = .ok r ∧
        r.error = none) ↔
      1 ≤ limit ∧ ∀ d ∈ Directive.find (Frontmatter.body content),
        d.targetFrom (v.absolute base) ≠ v.absolute document ∧
        ∃ text s, v.readText (d.targetFrom (v.absolute base)) = .ok text ∧
          alone v (limit - 1) (d.targetFrom (v.absolute base)) text = .ok s ∧ s.error = none ∧
          v.absolute document ∉ s.included) ∧
    ∀ r, resolve v.readText limit (v.absolute document) (v.absolute base) content = .ok r →
      r.error = none →
      ∃ (text : Directive → Text) (inner : Directive → Resolution) (rest : Directive → Text),
        (∀ d ∈ Directive.find (Frontmatter.body content),
          v.readText (d.targetFrom (v.absolute base)) = .ok (text d) ∧
          alone v (limit - 1) (d.targetFrom (v.absolute base)) (text d) = .ok (inner d) ∧
          (inner d).error = none ∧
          (inner d).content = Frontmatter.prologue (text d) ++ rest d) ∧
        r.content = Frontmatter.prologue content ++
          Directive.replace rest (Frontmatter.body content)
            (Directive.find (Frontmatter.body content)) ∧
        r.included = (Directive.find (Frontmatter.body content)).flatMap fun d =>
          d.targetFrom (v.absolute base) :: (inner d).included := by
  have hbase := v.isNormal_absolute base
  constructor
  · rw [resolve_succeeds_iff]
    constructor
    · intro hok
      have hd (d : Directive) (hd : d ∈ Directive.find (Frontmatter.body content)) :=
        (opened_ok_iff_alone hbase).mp ⟨Traced.result_of_ran_ok (hok d hd), rfl⟩
      obtain ⟨d, ds, hds⟩ := List.exists_cons_of_ne_nil h
      refine ⟨(hd d (hds ▸ List.mem_cons_self)).1, fun d hmem => ?_⟩
      obtain ⟨-, hne, text, s, hr, hs, he, -, hnot, -⟩ := hd d hmem
      exact ⟨hne, text, s, hr, hs, he, hnot⟩
    · rintro ⟨hlimit, hall⟩ d hd
      obtain ⟨hne, text, s, hr, hs, he, hnot⟩ := hall d hd
      obtain ⟨out, hcontent⟩ := exists_content_of_alone hs he
      exact Traced.ran_ok_iff.mpr ⟨out, ((opened_ok_iff_alone hbase).mpr
        ⟨hlimit, hne, text, s, hr, hs, he, hcontent, hnot, rfl⟩).1⟩
  · intro r hr he
    have hok := resolve_succeeds_iff.mp ⟨r, hr, he⟩
    obtain rfl := eq_resolution_of_resolve hr
    obtain ⟨out, hout, hcontent⟩ := content_resolution he
    rw [expand_eq] at hout
    obtain ⟨-, rfl⟩ := splice_find_ok_iff.mp hout
    have hincluded := included_of_error_eq_none he
    rw [steps_resolution, walk, entered_visit_of_ok hok] at hincluded
    have hinner (d : Directive) (hd : d ∈ Directive.find (Frontmatter.body content)) :=
      ((opened_ok_iff_alone hbase).mp ⟨Traced.result_of_ran_ok (hok d hd), rfl⟩).2.2
    have : Nonempty Resolution := ⟨resolution v.readText limit (v.absolute document) base content⟩
    choose! text inner hr hs he hrest hnot hsteps using hinner
    refine ⟨text, inner, _, fun d hd => ⟨hr d hd, hs d hd, he d hd, hrest d hd⟩, hcontent, ?_⟩
    rw [hincluded]
    exact List.flatMap_congr fun d hd => (hsteps d hd).symm

theorem resolve_iff_alone_two_levels :
    let bytes (s : String) := s.toList.map fun c => UInt8.ofNat c.toNat
    let v : View := ⟨⟨[(["a.md"], .file (bytes "---\nt: 1\n---\n@include b.md\n")),
      (["b.md"], .file (bytes "B\n"))]⟩, []⟩
    let document := Path.ofText "doc.md"
    let base := v.absolute document.parent
    let content := "D\n@include a.md\n".toList
    ∃ r, resolve v.readText 2 (v.absolute document) base content = .ok r ∧ r.error = none ∧
      r.content = "D\nB\n\n\n".toList ∧
      (∀ d ∈ Directive.find (Frontmatter.body content),
        d.targetFrom base ≠ v.absolute document ∧
        ∃ text s, v.readText (d.targetFrom base) = .ok text ∧
          alone v 1 (d.targetFrom base) text = .ok s ∧ s.error = none ∧
          v.absolute document ∉ s.included) ∧
      ∃ (inner : Directive → Resolution) (rest : Directive → Text),
        r.content = Frontmatter.prologue content ++
          Directive.replace rest (Frontmatter.body content)
            (Directive.find (Frontmatter.body content)) ∧
        r.included = (Directive.find (Frontmatter.body content)).flatMap fun d =>
          d.targetFrom base :: (inner d).included := by
  intro bytes v document base content
  have hfacts : (resolve v.readText 2 (v.absolute document) base content).toOption.map
      (fun r => (r.error, r.content)) = some (none, "D\nB\n\n\n".toList) := by
    decide +kernel
  obtain ⟨r, hr, hrfacts⟩ := exists_of_map_toOption hfacts
  obtain ⟨he, hcontent⟩ := Prod.mk.inj hrfacts
  have hdirectives : Directive.find (Frontmatter.body content) ≠ [] := by decide +kernel
  obtain ⟨hiff, hparts⟩ := resolve_iff_alone v 2 document document.parent content hdirectives
  obtain ⟨-, inner, rest, -, hreplaced, hincluded⟩ := hparts r hr he
  exact ⟨r, hr, he, hcontent, (hiff.mp ⟨r, hr, he⟩).2, inner, rest, hreplaced, hincluded⟩

end Rulebook.Include
