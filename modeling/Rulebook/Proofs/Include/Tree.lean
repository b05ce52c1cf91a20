import Mathlib.Control.Monad.Basic
import Rulebook.File.Tree
import Rulebook.Proofs.Include.Walk

/-!
# The include tree

The body of a document is the root of a tree: below a body stand its directives in order, and below
a directive the body of its target. The tree may be endless. `Reached` says which bodies stand in
it and below which targets. An `Outline` is the whole of a tree that ends and whose targets can all
be read; `Outlines` says when it is the tree of some directives.

Resolution succeeds on the trees in which every directive lies within the limit, can be read, and
leads neither to the document nor to a file above it. It then lists the files in pre-order and the
replaced directives in post-order (`resolve_succeeds_iff_tree`).
-/

namespace Rulebook

/-- The file that `d` names from `directory`. -/
def Directive.targetFrom (d : Directive) (directory : Path) : Path :=
  directory.absolute (Path.ofText (String.ofList d.path))

/-- There is a file at `p`, and it is text in UTF-8. -/
def View.HasText (v : View) (p : Path) : Prop :=
  ∃ bytes, v.readBytes p = .ok bytes ∧ ∃ s, Utf8.decode bytes = .ok s

theorem View.hasText_iff {v : View} {p : Path} : v.HasText p ↔ ∃ s, v.readText p = .ok s := by
  show (∃ bytes, v.tree.readBytes v.here p = .ok bytes ∧ _) ↔ ∃ s, v.tree.readText v.here p = .ok s
  unfold FileTree.readText
  cases v.tree.readBytes v.here p with
  | error e => simp
  | ok bytes => cases h : Utf8.decode bytes <;> simp [h]

namespace Include

section Trees

variable (read : Path → Except File.ReadError Text)

/-- Below the targets `above`, innermost first, the tree of `document` has the body `body`, whose
directives are read from `directory`. -/
inductive Reached (base : Path) (document : Text) : List Path → Path → Text → Prop where
  | root : Reached base document [] base document
  | inside {above : List Path} {directory : Path} {body text : Text} {d : Directive} :
      Reached base document above directory body → d ∈ Directive.find body →
      read (d.targetFrom directory) = .ok text →
      Reached base document (d.targetFrom directory :: above) (d.targetFrom directory).parent
        (Frontmatter.body text)

/-- Directives with their targets: the first one, those in the body of its target, and those that
come after it. -/
inductive Outline where
  | nil
  | cons (written : String) (target : Path) (inside after : Outline)

namespace Outline

/-- The targets, each before those inside it. -/
def preorder : Outline → List Path
  | nil => []
  | cons _ target inside after => target :: (inside.preorder ++ after.preorder)

/-- The directives with their targets, each after those inside it. -/
def postorder : Outline → List (String × Path)
  | nil => []
  | cons written target inside after => inside.postorder ++ (written, target) :: after.postorder

/-- The steps of an expansion that goes through all of it. -/
def steps : Outline → List Step
  | nil => []
  | cons written target inside after =>
    .entered target :: inside.steps ++ [.spliced written target] ++ after.steps

end Outline

/-- The directives, read from a directory, have an outline. -/
inductive Outlines : Path → List Directive → Outline → Prop where
  | nil (directory : Path) : Outlines directory [] .nil
  | cons {directory : Path} {d : Directive} {ds : List Directive} {text : Text}
      {inside after : Outline} :
      read (d.targetFrom directory) = .ok text →
      Outlines (d.targetFrom directory).parent (Directive.find (Frontmatter.body text)) inside →
      Outlines directory ds after →
      Outlines directory (d :: ds)
        (.cons (String.ofList d.path) (d.targetFrom directory) inside after)

end Trees

/-! ## Outlines -/

theorem Outline.preorder_perm (o : Outline) : (o.postorder.map Prod.snd).Perm o.preorder := by
  induction o with
  | nil => exact .nil
  | cons written target inside after ihi iha =>
    simp only [postorder, preorder, List.map_append, List.map_cons]
    exact List.perm_middle.trans ((ihi.append iha).cons target)

theorem Outline.included_eq {r : Resolution} {o : Outline} (he : r.error = none)
    (hs : r.steps = o.steps) : r.included = o.preorder := by
  unfold Resolution.included
  rw [he, hs]
  simp only [Option.isSome_none, Bool.false_eq_true, ↓reduceIte]
  clear hs
  induction o with
  | nil => rfl
  | cons written target inside after ihi iha =>
    simp [steps, preorder, List.filterMap_append, ihi, iha]

theorem Outline.spliced_eq {r : Resolution} {o : Outline} (hs : r.steps = o.steps) :
    r.spliced = o.postorder := by
  unfold Resolution.spliced
  rw [hs]
  clear hs
  induction o with
  | nil => rfl
  | cons written target inside after ihi iha =>
    simp [steps, postorder, List.filterMap_append, ihi, iha]

section Trees

variable {read : Path → Except File.ReadError Text} {limit : Nat}

theorem Outlines.unique {directory : Path} {ds : List Directive} {o o' : Outline}
    (h : Outlines read directory ds o) (h' : Outlines read directory ds o') : o = o' := by
  induction h generalizing o' with
  | nil => cases h'; rfl
  | cons hr _ _ ihi iha =>
    obtain - | ⟨hr', hi', ha'⟩ := h'
    obtain rfl : _ = _ := Except.ok.inj (hr.symm.trans hr')
    rw [ihi hi', iha ha']

/-! ## Expansions that succeed -/

/-- A directive is replaced just when its target lies within the limit, is not being expanded and
can be read, and its body can be expanded one level deeper. -/
theorem opened_ok_iff {depth : Nat} {n : Nesting} {d : Directive} :
    (opened read limit depth n d).ran.result = .ok () ↔
      target n d ∉ n.files ∧ ∃ deeper text, depth = deeper + 1 ∧ read (target n d) = .ok text ∧
        (visit (opened read limit deeper (n.enter (target n d)))
          (Directive.find (Frontmatter.body text))).result = .ok () := by
  rw [ran_opened]
  dsimp only
  by_cases hc : target n d ∈ n.files
  · simp [hc, Traced.fail]
  · cases depth with
    | zero => simp [hc, Traced.fail]
    | succ depth =>
      cases hr : read (target n d) with
      | error why => simp [hc, Traced.fail]
      | ok text => simp [hc, framed_ok_iff]

theorem steps_opened {depth : Nat} {n : Nesting} {d : Directive} {text : Text}
    (hc : target n d ∉ n.files) (hr : read (target n d) = .ok text)
    (hv : (visit (opened read limit depth (n.enter (target n d)))
      (Directive.find (Frontmatter.body text))).result = .ok ()) :
    (opened read limit (depth + 1) n d).steps =
      .entered (target n d) :: (visit (opened read limit depth (n.enter (target n d)))
        (Directive.find (Frontmatter.body text))).steps ++
        [.spliced (String.ofList d.path) (target n d)] := by
  rw [← Traced.steps_ran, ran_opened]
  simp only [hc, ↓reduceIte, hr]
  rw [framed_of_ok hv]

/-- A walk that succeeds goes through the outline of its directives. -/
theorem outlines_of_visit {depth : Nat} {n : Nesting} {ds : List Directive}
    (h : (visit (opened read limit depth n) ds).result = .ok ()) :
    ∃ o, Outlines read n.directory ds o ∧
      (visit (opened read limit depth n) ds).steps = o.steps := by
  induction depth generalizing n ds with
  | zero =>
    cases ds with
    | nil => exact ⟨.nil, .nil _, rfl⟩
    | cons d ds =>
      obtain ⟨-, _, _, hd, -⟩ := opened_ok_iff.mp (visit_ok_iff.mp h d List.mem_cons_self)
      cases hd
  | succ depth ihd =>
    induction ds with
    | nil => exact ⟨.nil, .nil _, rfl⟩
    | cons d ds ih =>
      obtain ⟨hd, hds⟩ := List.forall_mem_cons.mp (visit_ok_iff.mp h)
      obtain ⟨after, ha, hsa⟩ := ih (visit_ok_iff.mpr hds)
      obtain ⟨hc, _, text, hk, hr, hv⟩ := opened_ok_iff.mp hd
      obtain rfl : depth = _ := Nat.succ.inj hk
      obtain ⟨inside, hi, hsi⟩ := ihd hv
      refine ⟨.cons _ _ inside after, .cons hr hi ha, ?_⟩
      rw [steps_visit_cons hd, hsa, steps_opened hc hr hv, hsi]
      rfl

/-- Where a walk succeeds, it succeeds below every directive of the tree. -/
theorem visit_of_reached {file base : Path} {document : Text}
    (h : (walk read limit file base document).result = .ok ())
    {above : List Path} {directory : Path} {body : Text}
    (hr : Reached read base document above directory body) :
    ∃ depth n, depth + above.length = limit ∧ n.directory = directory ∧ n.files = above ++ [file] ∧
      (visit (opened read limit depth n) (Directive.find body)).result = .ok () := by
  induction hr with
  | root => exact ⟨limit, _, rfl, rfl, rfl, h⟩
  | @inside above directory body text d _ hd hread ih =>
    obtain ⟨depth, n, hlen, rfl, hfiles, hv⟩ := ih
    obtain ⟨-, deeper, text', rfl, hread', hv'⟩ := opened_ok_iff.mp (visit_ok_iff.mp hv d hd)
    obtain rfl : text = text' := Except.ok.inj (hread.symm.trans hread')
    refine ⟨deeper, _, ?_, rfl, ?_, hv'⟩
    · rw [List.length_cons]; omega
    · exact congrArg (target n d :: ·) hfiles

/-- The directives of a tree that do not stop its expansion. -/
def Admissible (read : Path → Except File.ReadError Text) (limit : Nat) (file base : Path)
    (document : Text) : Prop :=
  ∀ above directory body, Reached read base document above directory body →
    ∀ d ∈ Directive.find body, above.length < limit ∧
      (∃ text, read (d.targetFrom directory) = .ok text) ∧ d.targetFrom directory ∉ above ++ [file]

/-- Where no directive of the tree stops it, a walk succeeds from every body of the tree. -/
theorem visit_of_admissible {file base : Path} {document : Text}
    (h : Admissible read limit file base document) {depth : Nat} :
    ∀ {above : List Path} {n : Nesting} {body : Text},
      Reached read base document above n.directory body → n.files = above ++ [file] →
      depth + above.length = limit →
      (visit (opened read limit depth n) (Directive.find body)).result = .ok () := by
  induction depth with
  | zero =>
    intro above n body hr _ hlen
    refine visit_ok_iff.mpr fun d hd => ?_
    have := (h _ _ _ hr d hd).1
    omega
  | succ depth ih =>
    intro above n body hr hfiles hlen
    refine visit_ok_iff.mpr fun d hd => ?_
    obtain ⟨-, ⟨text, hread⟩, hc⟩ := h _ _ _ hr d hd
    refine opened_ok_iff.mpr ⟨hfiles ▸ hc, depth, text, rfl, hread, ?_⟩
    refine ih (.inside hr hd hread) (congrArg (target n d :: ·) hfiles) ?_
    rw [List.length_cons]
    omega

theorem walk_ok_iff_admissible {file base : Path} {document : Text} :
    (walk read limit file base document).result = .ok () ↔
      Admissible read limit file base document := by
  refine ⟨fun h above directory body hr d hd => ?_, fun h => visit_of_admissible h .root rfl rfl⟩
  obtain ⟨depth, n, hlen, rfl, hfiles, hv⟩ := visit_of_reached h hr
  obtain ⟨hc, deeper, text, rfl, hread, -⟩ := opened_ok_iff.mp (visit_ok_iff.mp hv d hd)
  exact ⟨by omega, ⟨text, hread⟩, hfiles ▸ hc⟩

end Trees

/-! ## The tree of a document -/

/-- Resolution succeeds if and only if every directive of the include tree lies within the limit,
leads to a file with text, and leads neither to the document nor to a target above it. The tree
then has one outline, whose targets in pre-order are the included files and whose directives in
post-order are the replaced ones. -/
theorem resolve_succeeds_iff_tree (v : View) (limit : Nat) (document base : Path) (content : Text) :
    ((∃ r, resolve v.readText limit (v.absolute document) (v.absolute base) content = .ok r ∧
        r.error = none) ↔
      ∀ above directory body,
        Reached v.readText (v.absolute base) (Frontmatter.body content) above directory body →
        ∀ d ∈ Directive.find body, above.length + 1 ≤ limit ∧ v.HasText (d.targetFrom directory) ∧
          d.targetFrom directory ≠ v.absolute document ∧ d.targetFrom directory ∉ above) ∧
    ∀ r, resolve v.readText limit (v.absolute document) (v.absolute base) content = .ok r →
      r.error = none →
      ∃ o, (∀ o', Outlines v.readText (v.absolute base)
          (Directive.find (Frontmatter.body content)) o' ↔ o' = o) ∧
        r.included = o.preorder ∧ r.spliced = o.postorder ∧
        (r.spliced.map Prod.snd).Perm r.included := by
  constructor
  · have hok : (∃ r,
          resolve v.readText limit (v.absolute document) (v.absolute base) content = .ok r ∧
          r.error = none) ↔
        Admissible v.readText limit (v.absolute document) (v.absolute base)
          (Frontmatter.body content) := by
      rw [← walk_ok_iff_admissible, ← resolution_error_eq_none_iff]
      constructor
      · rintro ⟨r, hr, he⟩
        rwa [← eq_resolution_of_resolve hr]
      · exact fun he => ⟨_, resolve_of_error_eq_none he, he⟩
    rw [hok]
    refine forall₄_congr fun above directory body _ => forall₂_congr fun d _ => ?_
    rw [View.hasText_iff, List.mem_append, List.mem_singleton, not_or, Nat.succ_le_iff,
      and_comm (a := _ ∉ above)]
  · intro r hr he
    obtain rfl := eq_resolution_of_resolve hr
    obtain ⟨o, ho, hs⟩ := outlines_of_visit (resolution_error_eq_none_iff.mp he)
    have hs' := (steps_resolution content).trans hs
    have hi := Outline.included_eq he hs'
    have hp := Outline.spliced_eq hs'
    refine ⟨o, fun o' => ⟨fun h => h.unique ho, fun h => h ▸ ho⟩, hi, hp, ?_⟩
    rw [hi, hp]
    exact o.preorder_perm

/-- A file that is included below another one and beside it, under two names. -/
theorem resolve_succeeds_iff_tree_repeated :
    let v : View := ⟨⟨[(["x"], .directory), (["x", "a.md"], .file "@include c.md\n".toUTF8.toList),
      (["x", "c.md"], .file "C\n".toUTF8.toList)]⟩, []⟩
    let document := Path.ofText "doc.md"
    let content := "@include x/a.md\n@include x/c.md\n".toList
    let a := v.absolute (Path.ofText "x/a.md")
    let c := v.absolute (Path.ofText "x/c.md")
    ∃ r, resolve v.readText 2 (v.absolute document) (v.absolute document.parent) content = .ok r ∧
      r.error = none ∧ r.included = [a, c, c] ∧
      r.spliced = [("c.md", c), ("x/a.md", a), ("x/c.md", c)] := by
  intro v document content a c
  have hok : (resolve v.readText 2 (v.absolute document) (v.absolute document.parent)
      content).toOption.map (·.error) = some none := by
    decide +kernel
  -- the tree, from the innermost file outwards
  have hreada : v.readText a = .ok "@include c.md\n".toList := by decide +kernel
  have hreadc : v.readText c = .ok "C\n".toList := by decide +kernel
  have hc : Outlines v.readText c.parent (Directive.find (Frontmatter.body "C\n".toList)) .nil := by
    have hfind : Directive.find (Frontmatter.body "C\n".toList) = [] := by decide +kernel
    exact hfind ▸ .nil c.parent
  have ha : Outlines v.readText a.parent
      (Directive.find (Frontmatter.body "@include c.md\n".toList)) (.cons "c.md" c .nil .nil) := by
    have hfind : Directive.find (Frontmatter.body "@include c.md\n".toList) =
        [⟨"c.md".toList, "@include c.md".toList, 0⟩] := by decide +kernel
    rw [hfind]
    exact .cons hreadc hc (.nil a.parent)
  have htree : Outlines v.readText v.directory (Directive.find (Frontmatter.body content))
      (.cons "x/a.md" a (.cons "c.md" c .nil .nil) (.cons "x/c.md" c .nil .nil)) := by
    have hfind : Directive.find (Frontmatter.body content) =
        [⟨"x/a.md".toList, "@include x/a.md".toList, 0⟩,
          ⟨"x/c.md".toList, "@include x/c.md".toList, 16⟩] := by decide +kernel
    rw [hfind]
    exact .cons hreada ha (.cons hreadc hc (.nil v.directory))
  cases hr : resolve v.readText 2 (v.absolute document) (v.absolute document.parent) content with
  | error e =>
    rw [hr] at hok
    cases hok
  | ok r =>
    rw [hr] at hok
    have he : r.error = none := Option.some.inj hok
    obtain ⟨o, ho, hi, hp, -⟩ :=
      (resolve_succeeds_iff_tree v 2 document document.parent content).2 r hr he
    obtain rfl := (ho _).mp htree
    exact ⟨r, rfl, he, hi, hp⟩

end Include

end Rulebook
