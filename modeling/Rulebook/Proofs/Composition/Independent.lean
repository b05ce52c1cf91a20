import Mathlib.Data.List.Forall2
import Rulebook.Proofs.Project.History

/-!
# Composing one document after another

What was composed, evaluated or looked up before leaves findings behind, and while the files stay as
they are these are what the files show. So a document comes out as it does alone, several documents
come out as each does alone, up to the first that fails, and in another order they come out in that
order (`Composer.compose_after_calls`).
-/

namespace Rulebook

/-- What holds of the pairs of two lists holds of them in any order of the first. -/
theorem exists_forall₂_of_perm {R : α → β → Prop} {as as' : List α} (h : as.Perm as')
    {bs : List β} (hbs : List.Forall₂ R as bs) :
    ∃ bs', List.Forall₂ R as' bs' ∧ (as.zip bs).Perm (as'.zip bs') := by
  induction h generalizing bs with
  | nil => exact ⟨bs, hbs, .refl _⟩
  | cons a _ ih =>
    cases hbs with
    | cons hb hbs =>
      obtain ⟨bs', hbs', hperm⟩ := ih hbs
      exact ⟨_, .cons hb hbs', hperm.cons _⟩
  | swap a a' as =>
    cases hbs with
    | cons hb hbs =>
      cases hbs with
      | cons hb' hbs => exact ⟨_, .cons hb' (.cons hb hbs), .swap _ _ _⟩
  | trans _ _ ih ih' =>
    obtain ⟨bs', hbs', hperm⟩ := ih hbs
    obtain ⟨bs'', hbs'', hperm'⟩ := ih' hbs'
    exact ⟨bs'', hbs'', hperm.trans hperm'⟩

namespace Composer

variable {c : Composer} {v : View}

/-- The composition of a document by a composer whose project has found out nothing yet. -/
def alone (c : Composer) (v : View) (path : Path) (text : Option Text) :
    Except Composition.Failure Composition :=
  (c.compose v path text .empty).1

section Answered

variable {ask : Identifier → Except Condition.Failure Answer}

theorem composeAllFrom_ok_iff {paths : List Path} {ds : List Composition} :
    c.composeAllFrom v ask paths = .ok ds ↔
      List.Forall₂ (fun path d => c.composeFrom v ask path none = .ok d) paths ds := by
  induction paths generalizing ds with
  | nil =>
    rw [List.forall₂_nil_left_iff]
    exact ⟨fun h => (Except.ok.inj h).symm, fun h => congrArg Except.ok h.symm⟩
  | cons path paths ih =>
    rw [List.forall₂_cons_left_iff]
    constructor
    · intro h
      obtain ⟨first, hfirst, h⟩ := bind_eq_ok_iff.mp h
      obtain ⟨rest, hrest, h⟩ := bind_eq_ok_iff.mp h
      exact ⟨first, rest, hfirst, ih.mp hrest, (Except.ok.inj h).symm⟩
    · rintro ⟨first, rest, hfirst, hrest, rfl⟩
      exact bind_eq_ok_iff.mpr ⟨first, hfirst, bind_eq_ok_iff.mpr ⟨rest, ih.mpr hrest, rfl⟩⟩

theorem composeAllFrom_error_iff {paths : List Path} {e : Composition.Failure} :
    c.composeAllFrom v ask paths = .error e ↔ ∃ before path after,
      paths = before ++ path :: after ∧
      (∀ p ∈ before, ∃ d, c.composeFrom v ask p none = .ok d) ∧
      c.composeFrom v ask path none = .error e := by
  induction paths with
  | nil => exact ⟨fun h => (nomatch h), fun ⟨_, _, _, h, _⟩ => by simp at h⟩
  | cons path paths ih =>
    have hbind : c.composeAllFrom v ask (path :: paths) = .error e ↔
        c.composeFrom v ask path none = .error e ∨
          (∃ d, c.composeFrom v ask path none = .ok d) ∧
            c.composeAllFrom v ask paths = .error e := by
      have hrest (d : Composition) :
          ((c.composeAllFrom v ask paths >>= fun ds => .ok (d :: ds)) = .error e) ↔
            c.composeAllFrom v ask paths = .error e :=
        bind_eq_error_iff.trans (or_iff_left fun ⟨_, _, h⟩ => nomatch h)
      refine bind_eq_error_iff.trans (or_congr_right ?_)
      simp only [hrest, exists_and_right]
    rw [hbind, ih]
    constructor
    · rintro (hpath | ⟨hpath, before, path', after, rfl, hbefore, hpath'⟩)
      · exact ⟨[], path, paths, rfl, List.forall_mem_nil _, hpath⟩
      · exact ⟨path :: before, path', after, rfl, List.forall_mem_cons.mpr ⟨hpath, hbefore⟩, hpath'⟩
    · rintro ⟨before, path', after, hpaths, hbefore, hpath'⟩
      cases before with
      | nil =>
        cases hpaths
        exact .inl hpath'
      | cons first before =>
        cases hpaths
        obtain ⟨hfirst, hbefore⟩ := List.forall_mem_cons.mp hbefore
        exact .inr ⟨hfirst, before, path', after, rfl, hbefore, hpath'⟩

end Answered

/-! ## After other calls -/

section Calls

variable {f : Findings}

theorem alone_eq_composeFrom (path : Path) (text : Option Text) : c.alone v path text =
    c.composeFrom v (c.project.answers v fun _ => v) path text :=
  (c.compose_recalls path text).answer_empty

/-- Whatever is found already on the files as they are, a document comes out as it does alone. -/
theorem compose_eq_alone (hf : Consistent c.project v (fun _ => v) f) (path : Path)
    (text : Option Text) : (c.compose v path text f).1 = c.alone v path text :=
  ((c.compose_recalls path text).answer hf).trans (alone_eq_composeFrom path text).symm

theorem composeAll_ok_iff (hf : Consistent c.project v (fun _ => v) f) {paths : List Path}
    {ds : List Composition} : (c.composeAll v paths f).1 = .ok ds ↔
      List.Forall₂ (fun path d => c.alone v path none = .ok d) paths ds := by
  rw [(c.composeAll_recalls paths).answer hf, composeAllFrom_ok_iff]
  simp only [alone_eq_composeFrom]

theorem composeAll_error_iff (hf : Consistent c.project v (fun _ => v) f) {paths : List Path}
    {e : Composition.Failure} : (c.composeAll v paths f).1 = .error e ↔ ∃ before path after,
      paths = before ++ path :: after ∧ (∀ p ∈ before, ∃ d, c.alone v p none = .ok d) ∧
        c.alone v path none = .error e := by
  rw [(c.composeAll_recalls paths).answer hf, composeAllFrom_error_iff]
  simp only [alone_eq_composeFrom]

/-- The findings after calls of any kind, by this composer or another one for the project. -/
def foundBy (c : Composer) (v : View) (calls : List Call) : Findings :=
  ((Situation.start v).after c.project (calls.map .call)).findings

theorem consistent_foundBy (calls : List Call) :
    Consistent c.project v (fun _ => v) (c.foundBy v calls) :=
  (Situation.after_calls (Situation.consistent_start c.project v) calls).2

end Calls

/-- After any calls on unchanged files, also after calls that failed, a document is composed as it
is alone, or fails as it does alone. Several documents come out as each does alone, or fail as the
first of them does that fails alone. In another order they come out as the same documents in that
order. -/
theorem compose_after_calls (c : Composer) (v : View) (calls : List Call) :
    let f := c.foundBy v calls
    (∀ path text, (c.compose v path text f).1 = c.alone v path text) ∧
    (∀ paths ds, (c.composeAll v paths f).1 = .ok ds ↔
      List.Forall₂ (fun path d => c.alone v path none = .ok d) paths ds) ∧
    (∀ paths e, (c.composeAll v paths f).1 = .error e ↔ ∃ before path after,
      paths = before ++ path :: after ∧ (∀ p ∈ before, ∃ d, c.alone v p none = .ok d) ∧
        c.alone v path none = .error e) ∧
    ∀ paths paths' ds, paths.Perm paths' → (c.composeAll v paths f).1 = .ok ds →
      ∃ ds', (c.composeAll v paths' f).1 = .ok ds' ∧ (paths.zip ds).Perm (paths'.zip ds') := by
  intro f
  have hf : Consistent c.project v (fun _ => v) f := consistent_foundBy calls
  refine ⟨compose_eq_alone hf, fun paths ds => composeAll_ok_iff hf,
    fun paths e => composeAll_error_iff hf, fun paths paths' ds hperm hds => ?_⟩
  obtain ⟨ds', hds', hzip⟩ := exists_forall₂_of_perm hperm ((composeAll_ok_iff hf).mp hds)
  exact ⟨ds', (composeAll_ok_iff hf).mpr hds', hzip⟩

/-- After a document that is not there, two documents come out in either order. -/
theorem compose_after_calls_swapped :
    let c : Composer := ⟨⟨⟨.root, []⟩, []⟩, Target.all, 10, false⟩
    let v : View := ⟨⟨[(["a.md"], .file "---\nwhen: file:a.md\n---\n".toUTF8.toList),
      (["b.md"], .file "@include a.md".toUTF8.toList)]⟩, []⟩
    let f := c.foundBy v [.compose c (.ofText "x.md") none, .ask (.hasPlace ⟨"dir", "a.md"⟩)]
    let paths := [Path.ofText "a.md", Path.ofText "b.md"]
    ∃ ds ds', (c.composeAll v paths f).1 = .ok ds ∧ (c.composeAll v paths.reverse f).1 = .ok ds' ∧
      (paths.zip ds).Perm (paths.reverse.zip ds') := by
  intro c v f paths
  have hok : (c.composeAll v paths f).1.toOption.isSome = true := by decide +kernel
  cases hds : (c.composeAll v paths f).1 with
  | error e =>
    rw [hds] at hok
    cases hok
  | ok ds =>
    have hperm : paths.Perm paths.reverse := (List.reverse_perm paths).symm
    obtain ⟨ds', hds', hzip⟩ := (compose_after_calls c v _).2.2.2 _ _ ds hperm hds
    exact ⟨ds, ds', rfl, hds', hzip⟩

end Composer

end Rulebook
