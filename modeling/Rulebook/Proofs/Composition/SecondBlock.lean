import Rulebook.Composition.Composer
import Rulebook.Proofs.Include.Append

/-!
# Blocks behind the metadata

A body can begin with a block between two lines of dashes itself. Resolving the whole document
expands the directives in that block; composing takes the metadata off first and then leaves the
second block out as well. `Composer.compose_agrees_iff` says when the two come to the same: the
block has no directives, or both fail, and at the same place.
-/

namespace Rulebook

namespace Include

/-- What an error of its includes means for the document at `path`. -/
def Error.failure (path : Path) : Error → Composition.Failure
  | ⟨.unreadable .nullInPath, _, _, _⟩ => .fault (.badValue .nullInPath)
  | e => .error ⟨path, .includes e⟩

/-- What a resolution means for the document at `path`: the files that it includes, or why it
fails. -/
def outcome (path : Path) : Except Fault Resolution → Except Composition.Failure (List Path)
  | .error f => .error (.fault f)
  | .ok r => match r.error with
    | some e => .error (.error ⟨path, .includes e⟩)
    | none => .ok r.included

/-- The same for a walk. -/
def Traced.outcome (path : Path) (t : Traced Unit) : Except Composition.Failure (List Path) :=
  match t.result with
  | .ok _ => .ok (enteredIn t.steps)
  | .error e => .error (e.failure path)

section Outcomes

variable {read : Path → Except File.ReadError Text} {limit depth : Nat} {n : Nesting}
  {path file base : Path} {content : Text} {d : Directive} {ds : List Directive} {v w : Traced Unit}

theorem outcome_resolve_of_error {e : Error}
    (he : (resolution read limit file base content).error = some e) :
    outcome path (resolve read limit file base content) = .error (e.failure path) := by
  unfold resolve
  dsimp only
  split
  next h =>
    rw [he] at h
    cases h
    rfl
  next hne =>
    rw [outcome, he]
    dsimp only
    unfold Error.failure
    split
    next => exact absurd he (hne _ _ _)
    next => rfl

theorem outcome_resolve : outcome path (resolve read limit file base content) =
    (walk read limit file base (Frontmatter.body content)).outcome path := by
  unfold Traced.outcome
  cases hw : (walk read limit file base (Frontmatter.body content)).result with
  | ok a =>
    have he := resolution_error_eq_none_iff.mpr hw
    rw [resolve_of_error_eq_none he, outcome, he, Resolution.included, he, steps_resolution]
    rfl
  | error e => exact outcome_resolve_of_error (resolution_error_eq_some_iff.mpr hw)

theorem entered_of_opened (h : (opened read limit depth n d).ran.result = .ok ()) :
    enteredIn (opened read limit depth n d).steps ≠ [] := by
  rw [← Traced.steps_ran]
  rw [ran_opened] at h ⊢
  dsimp only at h ⊢
  split at h
  · cases h
  next hnew =>
    rw [if_neg hnew]
    split at h
    · cases h
    split at h
    · cases h
    next text htext =>
      rw [framed_of_ok (framed_ok_iff.mp h)]
      simp [enteredIn]

/-- A walk that comes to its end without entering a file has no directives. -/
theorem visit_enters_nothing_iff : (visit (opened read limit depth n) ds).result = .ok () ∧
    enteredIn (visit (opened read limit depth n) ds).steps = [] ↔ ds = [] := by
  cases ds with
  | nil => exact iff_of_true ⟨rfl, rfl⟩ rfl
  | cons d ds =>
    refine iff_of_false ?_ (List.cons_ne_nil d ds)
    rintro ⟨hok, hnone⟩
    have hd := visit_ok_iff.mp hok d List.mem_cons_self
    rw [steps_visit_cons hd, enteredIn_append, List.append_eq_nil_iff] at hnone
    exact entered_of_opened hd hnone.1

/-- Walking through `v` first makes no difference if nothing is in it, or if the walk fails as it
would without `v`. -/
theorem outcome_bind_eq_iff : (v >>= fun _ => w).outcome path = w.outcome path ↔
    (v.result = .ok () ∧ enteredIn v.steps = []) ∨
      ∃ e, w.result = .error e ∧ ∀ e', v.result = .error e' → e'.failure path = e.failure path := by
  unfold Traced.outcome
  cases hv : v.result with
  | error e' =>
    rw [Traced.bind_of_error hv]
    cases hw : w.result with
    | error e => simp
    | ok a => simp
  | ok a =>
    rw [Traced.bind_of_ok hv]
    cases hw : w.result with
    | error e => simp
    | ok b => simp [enteredIn_append]

/-- Resolving a text again after its block was taken off gives the same just if the block that its
body begins with has no directives, or the rest fails and the block does not fail otherwise. -/
theorem outcome_resolve_body_eq_iff (s : Text) :
    outcome path (resolve read limit file base (Frontmatter.body s)) =
        outcome path (resolve read limit file base s) ↔
      Directive.find (Frontmatter.prologue (Frontmatter.body s)) = [] ∨
        ∃ e, (expand read limit limit ⟨file, [], base⟩
            (Frontmatter.body (Frontmatter.body s))).result = .error e ∧
          ∀ e', (expand read limit limit ⟨file, [], base⟩
              (Frontmatter.prologue (Frontmatter.body s))).result = .error e' →
            e'.failure path = e.failure path := by
  have hexpand (t : Text) (e : Error) :
      (expand read limit limit ⟨file, [], base⟩ t).result = .error e ↔
        (walk read limit file base t).result = .error e := by
    rw [← Traced.ran_error_iff, ran_expand, walk]
  rw [outcome_resolve, outcome_resolve, walk_eq_prologue_body (Frontmatter.body s), eq_comm,
    outcome_bind_eq_iff]
  simp only [hexpand]
  exact or_congr_left visit_enters_nothing_iff

end Outcomes

end Include

/-! ## Composing and resolving -/

theorem Document.body_of_parse {text : Text} {d : Document} (h : parse text = .ok d) :
    d.body = Frontmatter.body text := by
  unfold parse at h
  unfold Frontmatter.body
  split at h
  next hb =>
    cases h
    rw [hb]
    rfl
  next b hb =>
    rw [hb]
    cases hm : metadataOf b.raw with
    | error e =>
      rw [hm] at h
      cases h
    | ok metadata =>
      rw [hm] at h
      cases h
      rfl

namespace Composer

section Compose

variable {c : Composer} {v : View} {path : Path} {source : Option Text} {text : Text}
  {doc : Document} {f : Findings} {i : Inclusion}

theorem expand_map_included (content : Text) :
    (c.expand v path content).map (·.included) = Include.outcome path
      (Include.resolve v.readText c.depthLimit (v.absolute path) (v.absolute path.parent)
        content) := by
  unfold expand
  cases Include.resolve v.readText c.depthLimit (v.absolute path) (v.absolute path.parent)
    content with
  | error e => rfl
  | ok r =>
    unfold Include.outcome
    dsimp only [Except.mapError, bind, Except.bind]
    cases r.error with
    | some e => rfl
    | none => rfl

/-- A text that is not given is read from the file. -/
theorem compose_none_eq (hread : v.readText path = .ok text) :
    c.compose v path none = c.compose v path (some text) := by
  have hr : Composition.readText v path = .ok text := by
    simp [Composition.readText, hread, Except.mapError]
  unfold compose
  show Inquiry.bind (.ofExcept (Composition.readText v path)) _ = _
  rw [hr]
  rfl

/-- Where a document is well formed and its condition can be evaluated, its includes alone decide
whether it is composed. -/
theorem compose_map_included (hdoc : Document.parse text = .ok doc)
    (hwhen : (Inclusion.decide c.project v (.map doc.metadata) f).1 = .ok i)
    (herror : i.error = none) :
    (c.compose v path (some text) f).1.map (·.included) =
      (c.expand v path doc.body).map (·.included) := by
  have hparse : Composition.parse path text = .ok doc := by
    simp [Composition.parse, hdoc, Except.mapError]
  unfold compose
  show (Inquiry.bind (.ofExcept (Composition.parse path text)) _ f).1.map _ = _
  rw [hparse]
  show (Inquiry.bind (.ofExcept (c.expand v path doc.body)) _ f).1.map _ = _
  cases c.expand v path doc.body with
  | error e => rfl
  | ok r =>
    show (Inquiry.bind (Inquiry.mapError _ (Inclusion.decide c.project v (.map doc.metadata))) _
      f).1.map _ = _
    unfold Inquiry.bind Inquiry.mapError
    rw [hwhen]
    dsimp only [Except.mapError]
    rw [herror]
    rfl

/-- What replacing the directives of `s` in the document at `path` gives. -/
def expanded (c : Composer) (v : View) (path : Path) (s : Text) : Except Include.Error Text :=
  (Include.expand v.readText c.depthLimit c.depthLimit ⟨v.absolute path, [], v.absolute path.parent⟩
    s).result

/-- A document that is well formed and whose condition can be evaluated is composed of the files
that resolving all of it includes, or fails as that does, just if no directive stands in a block
that its body begins with, or what follows that block fails and nothing in it fails otherwise. -/
theorem compose_agrees_iff
    (hsource : source = some text ∨ source = none ∧ v.readText path = .ok text)
    (hdoc : Document.parse text = .ok doc)
    (hwhen : (Inclusion.decide c.project v (.map doc.metadata) f).1 = .ok i)
    (herror : i.error = none) :
    (c.compose v path source f).1.map (·.included) = Include.outcome path
        (Include.resolve v.readText c.depthLimit (v.absolute path) (v.absolute path.parent) text) ↔
      Directive.find (Frontmatter.prologue doc.body) = [] ∨
        ∃ e, c.expanded v path (Frontmatter.body doc.body) = .error e ∧
          ∀ e', c.expanded v path (Frontmatter.prologue doc.body) = .error e' →
            e'.failure path = e.failure path := by
  have hcompose : c.compose v path source = c.compose v path (some text) := by
    rcases hsource with rfl | ⟨rfl, hread⟩
    · rfl
    · exact compose_none_eq hread
  rw [hcompose, compose_map_included hdoc hwhen herror, expand_map_included,
    Document.body_of_parse hdoc]
  exact Include.outcome_resolve_body_eq_iff text

theorem parse_second_block : Document.parse "---\n\n---\n---\n@include x.md\n---\n".toList =
    .ok ⟨[], [], "---\n@include x.md\n---\n".toList⟩ := by
  cbv

theorem compose_agrees_iff_second_block :
    let c : Composer := ⟨⟨⟨.root, []⟩, []⟩, [], 10, false⟩
    let v : View := ⟨⟨[(["x.md"], .file [])]⟩, []⟩
    let path := Path.ofText "doc.md"
    let text := "---\n\n---\n---\n@include x.md\n---\n".toList
    let body := "---\n@include x.md\n---\n".toList
    Document.parse text = .ok ⟨[], [], body⟩ ∧
      ((c.compose v path (some text) .empty).1.map (·.included) = Include.outcome path
          (Include.resolve v.readText c.depthLimit (v.absolute path) (v.absolute path.parent)
            text) ↔
        Directive.find (Frontmatter.prologue body) = [] ∨
          ∃ e, c.expanded v path (Frontmatter.body body) = .error e ∧
            ∀ e', c.expanded v path (Frontmatter.prologue body) = .error e' →
              e'.failure path = e.failure path) :=
  ⟨parse_second_block, compose_agrees_iff (.inl rfl) parse_second_block rfl rfl⟩

/-- A directive in a second block is expanded where all of the document is resolved, and left as it
stands where it is composed. -/
theorem not_forall_compose_agrees :
    ¬∀ (c : Composer) (v : View) (path : Path) (text : Text) (doc : Document) (f : Findings)
      (i : Inclusion), Document.parse text = .ok doc →
      (Inclusion.decide c.project v (.map doc.metadata) f).1 = .ok i → i.error = none →
      (c.compose v path (some text) f).1.map (·.included) = Include.outcome path
        (Include.resolve v.readText c.depthLimit (v.absolute path) (v.absolute path.parent)
          text) := by
  intro h
  have hdoc := parse_second_block
  have hagree := h ⟨⟨⟨.root, []⟩, []⟩, [], 10, false⟩ ⟨⟨[(["x.md"], .file [])]⟩, []⟩
    (Path.ofText "doc.md") _ _ .empty _ hdoc rfl rfl
  rw [compose_map_included hdoc rfl rfl, expand_map_included, Document.body_of_parse hdoc,
    Include.outcome_resolve_body_eq_iff, ← Document.body_of_parse hdoc] at hagree
  have hrest : Frontmatter.body "---\n@include x.md\n---\n".toList = [] := by cbv
  rcases hagree with hnone | ⟨e, he, -⟩
  · have hfound :
        (Directive.find (Frontmatter.prologue "---\n@include x.md\n---\n".toList)).length = 1 := by
      cbv
    rw [hnone] at hfound
    cases hfound
  · rw [hrest] at he
    cases he

end Compose

end Composer

end Rulebook
