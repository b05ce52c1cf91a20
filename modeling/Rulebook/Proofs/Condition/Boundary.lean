import Mathlib.Control.Monad.Basic
import Rulebook.Proofs.Condition.Outcome
import Rulebook.Proofs.Manifest.Unforeseen

/-!
# The boundary of an evaluation

An evaluation reports the failures of its terms as part of its outcome, all but those that no reader
foresees. `Condition.IsUnforeseen` says which terms fail so: a package whose manifests are
unforeseen (`Manifest.IsUnforeseen`), and a field or a variable whose path stumbles or whose value
has no text to compare. An evaluation has no outcome just if the first term that is not answered is
one of these (`Condition.evaluateText_outcome_iff`).
-/

namespace Rulebook

open Condition (Failure)
open FileTree (hasNull)

namespace Condition

variable {p : Project} {v : View} {f : Findings} {t : Term} {a : Answer} {e : Expression}
  {y : Failure} {es : Entries}

theorem error?_eq_none_iff {source : String} : y.error? source = none ↔ y.Escapes := by
  cases y with
  | error x => simp [Failure.error?, Failure.Escapes]
  | fault y => cases y <;> simp [Failure.error?, Failure.Escapes]

/-! ## Terms -/

/-- The path of `t` stumbles in `es`, or leads to a value that cannot be compared. -/
def IsLost (es : Entries) (t : Term) : Prop :=
  (es.field? t.identifier.name = none ∧
    (Value.map es).Stumbles (dottedParts t.identifier.name)) ∨
  ∃ test value why, t.test = some test ∧
    (Value.map es).resolve t.identifier.name = .ok (some value) ∧ value.comparand = .error why

/-- What makes a term fail with something that is not reported. -/
def IsUnforeseen (p : Project) (v : View) (f : Findings) (t : Term) : Prop :=
  match t.identifier.space with
  | .package e => f.dependencies.lookup e = none ∧
    (hasNull p.root = true ∨ Manifest.IsUnforeseen v p.root e)
  | .pkg => (f.package = none ∧ (hasNull p.root = true ∨ Manifest.IsUnforeseen v p.root .npm)) ∨
    ∃ es, (p.packageFields v f).1 = .ok es ∧ IsLost es t
  | .var => IsLost p.vars t
  | .file | .dir | .unknown _ => False

theorem throws_holds_iff : Throws (holds t a) ↔ ∃ test value why,
    t.test = some test ∧ a.value = some value ∧ value.comparand = .error why := by
  constructor
  · intro h
    rcases holds_cases t a with ⟨said, hsaid⟩ | hvalue
    · rw [holds_of_said hsaid] at h
      exact absurd h (not_throws_ok _)
    · exact hvalue
  · rintro ⟨test, value, why, htest, hvalue, hwhy⟩
    rw [holds_of_unwritable htest hvalue hwhy, throws_error_iff]
    exact error?_eq_none_iff.mp (Failure.error?_fault "" why)

theorem throws_load_iff {i : Finding} : Throws (i.question.ask p v f).1 ↔
    f.get? i = none ∧ Throws (i.question.fresh p v) := by
  cases hget : f.get? i with
  | some a =>
    rw [Finding.ask_of_get? hget]
    exact iff_of_false (not_throws_ok a) fun h => nomatch h.1
  | none =>
    cases hfresh : i.question.fresh p v with
    | ok a =>
      rw [Finding.ask_of_fresh hget hfresh]
      exact iff_of_false (not_throws_ok a) fun h => not_throws_ok a h.2
    | error y =>
      rw [Finding.ask_of_fresh_error hget hfresh]
      exact (and_iff_right rfl).symm

theorem throws_answer_iff : Throws (es.answer t.identifier.name >>= holds t) ↔ IsLost es t := by
  rw [throws_bind_iff]
  simp only [throws_holds_iff]
  unfold IsLost Entries.answer
  rcases Value.resolve_map_cases es t.identifier.name with
    ⟨⟨value, hvalue⟩, hno⟩ | ⟨⟨e, he⟩, hstumbles⟩
  · rw [or_iff_right hno, hvalue]
    constructor
    · rintro (h | ⟨_, ⟨⟩, test, w, why, htest, rfl, hwhy⟩)
      · exact absurd h (not_throws_ok _)
      · exact ⟨test, w, why, htest, rfl, hwhy⟩
    · rintro ⟨test, w, why, htest, ⟨⟩, hwhy⟩
      exact .inr ⟨_, rfl, test, w, why, htest, rfl, hwhy⟩
  · rw [he]
    exact iff_of_true (.inl (throws_error_iff.mpr trivial)) (.inl hstumbles)

/-- An answer without a value is lost with the load that it rests on, or not at all. -/
theorem throws_lookup_iff {i : Identifier} {j : Finding} {g : j.question.Answer → Bool}
    (h : p.lookup v i = j.question.ask p v >>= fun a => .ofExcept (.ok ⟨g a, none⟩)) :
    Throws ((p.lookup v i f).1 >>= holds t) ↔ f.get? j = none ∧ Throws (j.question.fresh p v) := by
  rw [h, Inquiry.fst_bind_ofExcept, throws_bind_iff, throws_bind_ok_iff, throws_load_iff]
  refine or_iff_left ?_
  rintro ⟨a, ha, hholds⟩
  obtain ⟨b, -, ⟨⟩⟩ := bind_eq_ok_iff.mp ha
  obtain ⟨_, _, _, -, hvalue, -⟩ := throws_holds_iff.mp hholds
  cases hvalue

theorem not_throws_fresh_place (pl : Rulebook.Place) :
    ¬Throws ((Finding.place pl).question.fresh p v) := by
  rw [Finding.fresh_place]
  unfold Project.present
  generalize (if pl.kind = _ then _ else _ : Except File.Error Bool) = x
  cases x with
  | ok b => exact not_throws_ok b
  | error e => exact fun h => throws_error_iff.mp h

theorem throws_truth_iff : Throws (truth p v t f).1 ↔ IsUnforeseen p v f t := by
  rw [fst_truth]
  obtain ⟨⟨space, name⟩, negated, test⟩ := t
  cases space with
  | package e =>
    refine (throws_lookup_iff (j := .dependencies e) (p.lookup_package e name v)).trans ?_
    rw [Finding.fresh_dependencies]
    exact and_congr_right fun _ => Manifest.throws_dependencies_iff e
  | file =>
    refine (throws_lookup_iff (j := .place ⟨"file", name⟩) (p.lookup_file name v)).trans ?_
    exact iff_of_false (fun h => not_throws_fresh_place _ h.2) id
  | dir =>
    refine (throws_lookup_iff (j := .place ⟨"dir", name⟩) (p.lookup_dir name v)).trans ?_
    exact iff_of_false (fun h => not_throws_fresh_place _ h.2) id
  | pkg =>
    have hload : Throws (p.packageFields v f).1 ↔ f.package = none ∧
        (hasNull p.root = true ∨ Manifest.IsUnforeseen v p.root .npm) := by
      rw [← Manifest.throws_packageFields_iff, ← Finding.fresh_package]
      exact throws_load_iff (i := .package)
    rw [p.lookup_pkg, Inquiry.fst_bind_ofExcept, bind_assoc, throws_bind_iff, hload]
    simp only [throws_answer_iff (t := ⟨⟨.pkg, name⟩, negated, test⟩)]
    rfl
  | var =>
    rw [Project.lookup_var]
    exact throws_answer_iff (t := ⟨⟨.var, name⟩, negated, test⟩)
  | unknown _ => exact iff_of_false (not_throws_error _) id

/-! ## Evaluations -/

/-- Terms are answered as far as the first that is not. -/
theorem answered_or_stop (p : Project) (v : View) (f : Findings) (ts : List Term) :
    (∀ t ∈ ts, ∃ b, Answered p v f t b) ∨
    ∃ before t after y, ts = before ++ t :: after ∧ (∀ u ∈ before, ∃ b, Answered p v f u b) ∧
      (truth p v t f).1 = .error y := by
  induction ts with
  | nil => exact .inl fun _ h => (nomatch h)
  | cons t ts ih =>
    cases ht : (truth p v t f).1 with
    | error y => exact .inr ⟨[], t, ts, y, rfl, fun _ h => (nomatch h), ht⟩
    | ok b =>
      have hanswered : ∃ b, Answered p v f t b := ⟨b, answered_iff.mpr ht⟩
      rcases ih with hall | ⟨before, u, after, y, rfl, hbefore, hu⟩
      · exact .inl (List.forall_mem_cons.mpr ⟨hanswered, hall⟩)
      · exact .inr ⟨t :: before, u, after, y, rfl,
          List.forall_mem_cons.mpr ⟨hanswered, hbefore⟩, hu⟩

theorem throws_value_iff : Throws (value p v e f).1 ↔
    ∃ before t after, e.terms = before ++ t :: after ∧
      (∀ u ∈ before, ∃ b, Answered p v f u b) ∧ IsUnforeseen p v f t := by
  constructor
  · intro h
    rcases answered_or_stop p v f e.terms with hall | ⟨before, t, after, y, hterms, hbefore, ht⟩
    · choose! comes hcomes using hall
      rw [(value_of_answered hcomes).1] at h
      exact absurd h (not_throws_ok _)
    · obtain ⟨f', -, hvalue⟩ := value_of_stop hterms hbefore ht
      rw [hvalue, throws_error_iff, ← throws_error_iff (α := Bool), ← ht, throws_truth_iff] at h
      exact ⟨before, t, after, hterms, hbefore, h⟩
  · rintro ⟨before, t, after, hterms, hbefore, ht⟩
    obtain ⟨y, hy, hescapes⟩ := throws_truth_iff.mpr ht
    obtain ⟨f', -, hvalue⟩ := value_of_stop hterms hbefore hy
    rw [hvalue]
    exact ⟨y, rfl, hescapes⟩

theorem value_eq_ok_iff : (∃ b, (value p v e f).1 = .ok b) ↔
    ∀ t ∈ e.terms, ∃ b, Answered p v f t b := by
  constructor
  · rintro ⟨b, hb⟩
    rcases answered_or_stop p v f e.terms with hall | ⟨before, t, after, y, hterms, hbefore, ht⟩
    · exact hall
    · obtain ⟨f', -, hvalue⟩ := value_of_stop hterms hbefore ht
      rw [hvalue] at hb
      cases hb
  · intro hall
    choose! comes hcomes using hall
    exact ⟨_, (value_of_answered hcomes).1⟩

/-- The three things that come of an evaluation. -/
theorem evaluateAs_cases (source : String) (p : Project) (v : View) (e : Expression)
    (f : Findings) :
    (∃ b, (value p v e f).1 = .ok b ∧ (evaluateAs source p v e f).1 = .ok (.ofValue e b)) ∨
    (∃ y x, (value p v e f).1 = .error y ∧ ¬y.Escapes ∧
      (evaluateAs source p v e f).1 = .ok (.ofError x)) ∨
    ∃ y, (value p v e f).1 = .error y ∧ y.Escapes ∧ (evaluateAs source p v e f).1 = .error y := by
  cases hvalue : (value p v e f).1 with
  | ok b => exact .inl ⟨b, rfl, by rw [evaluateAs_of_ok source (Prod.ext hvalue rfl)]⟩
  | error y =>
    obtain ⟨hcaught, hescaped⟩ := evaluateAs_of_error source (Prod.ext hvalue rfl)
    cases hy : y.error? source with
    | none =>
      refine .inr (.inr ⟨y, rfl, error?_eq_none_iff.mp hy, by rw [hescaped hy]⟩)
    | some x =>
      refine .inr (.inl ⟨y, x, rfl, fun h => ?_, by rw [hcaught x hy]⟩)
      cases hy.symm.trans (error?_eq_none_iff.mpr h)

theorem evaluateAs_ok_iff {source : String} :
    (∃ E, (evaluateAs source p v e f).1 = .ok E) ↔ ¬Throws (value p v e f).1 := by
  rcases evaluateAs_cases source p v e f with
    ⟨b, hvalue, h⟩ | ⟨y, x, hvalue, hy, h⟩ | ⟨y, hvalue, hy, h⟩
  · rw [h, hvalue]
    exact iff_of_true ⟨_, rfl⟩ (not_throws_ok b)
  · rw [h, hvalue, throws_error_iff]
    exact iff_of_true ⟨_, rfl⟩ hy
  · rw [h, hvalue, throws_error_iff]
    exact iff_of_false (fun ⟨_, h⟩ => nomatch h) (not_not_intro hy)

theorem error_eq_none_iff {source : String} {E : Evaluation}
    (hE : (evaluateAs source p v e f).1 = .ok E) :
    E.error = none ↔ ∀ t ∈ e.terms, ∃ b, Answered p v f t b := by
  rw [← value_eq_ok_iff]
  rcases evaluateAs_cases source p v e f with ⟨b, hvalue, h⟩ | ⟨y, x, hvalue, -, h⟩ | ⟨y, -, -, h⟩
  · cases h.symm.trans hE
    exact iff_of_true rfl ⟨b, hvalue⟩
  · cases h.symm.trans hE
    exact iff_of_false (fun h => nomatch h) fun ⟨_, h⟩ => nomatch hvalue.symm.trans h
  · cases h.symm.trans hE

/-- A number in the place of a table of `pyproject.toml`. -/
theorem isUnforeseen_of_number {root : Path}
    (hlines : Manifest.IsAbsent v (root.child "requirements.txt"))
    (hproject : v.readText (root.child "pyproject.toml") = .ok "project=1".toList) :
    Manifest.IsUnforeseen v root .pip := by
  have hshape : ¬Manifest.IsProject [(.str "project", .int 1)] := fun h => by
    obtain ⟨es, hes⟩ := h.project
    cases hes
  have hread : Toml.read "project=1".toList = .ok [(.str "project", .int 1)] := by decide +kernel
  exact ⟨.inl hlines, .inr (.inl ⟨_, ⟨_, hproject, hread⟩, hshape⟩)⟩

/-- An evaluation has an outcome unless the first term that is not answered fails in a way that no
reader foresees. The outcome is free of errors just if the text is an expression and all its terms
are answered. -/
theorem evaluateText_outcome_iff (p : Project) (v : View) (f : Findings) (s : Text) :
    ((∃ E, (evaluateText p v s f).1 = .ok E) ↔
      ¬∃ e before t after, Expression.parse s = .ok e ∧ e.terms = before ++ t :: after ∧
        (∀ u ∈ before, ∃ b, Answered p v f u b) ∧ IsUnforeseen p v f t) ∧
    ∀ E, (evaluateText p v s f).1 = .ok E →
      (E.error = none ↔
        ∃ e, Expression.parse s = .ok e ∧ ∀ t ∈ e.terms, ∃ b, Answered p v f t b) := by
  unfold evaluateText
  cases hparse : Expression.parse s with
  | error x =>
    refine ⟨iff_of_true ⟨_, rfl⟩ fun ⟨_, _, _, _, h, _⟩ => (nomatch h), ?_⟩
    rintro E ⟨⟩
    exact iff_of_false (fun h => nomatch h) fun ⟨_, h, _⟩ => nomatch h
  | ok e =>
    refine ⟨?_, fun E hE => (error_eq_none_iff hE).trans ⟨fun h => ⟨e, rfl, h⟩, ?_⟩⟩
    · refine evaluateAs_ok_iff.trans (not_congr (throws_value_iff.trans ⟨?_, ?_⟩))
      · rintro ⟨before, t, after, h⟩
        exact ⟨e, before, t, after, rfl, h⟩
      · rintro ⟨_, before, t, after, ⟨⟩, h⟩
        exact ⟨before, t, after, h⟩
    · rintro ⟨_, ⟨⟩, h⟩
      exact h

/-- A list in the place of `package.json` is an error of the outcome, as long as it is asked for
before `project=1` in `pyproject.toml`, which leaves no outcome. -/
theorem evaluateText_outcome_iff_shapes :
    let p : Project := ⟨⟨.root, []⟩, []⟩
    let v : View := ⟨⟨[(["package.json"], .file "[]".toUTF8.toList),
      (["pyproject.toml"], .file "project=1".toUTF8.toList)]⟩, []⟩
    (∃ E, (evaluateText p v "npm:x && pip:y".toList .empty).1 = .ok E ∧ E.error ≠ none) ∧
      ¬∃ E, (evaluateText p v "pip:y && npm:x".toList .empty).1 = .ok E := by
  intro p v
  let x : Term := ⟨⟨.package .npm, "x"⟩, false, none⟩
  let y : Term := ⟨⟨.package .pip, "y"⟩, false, none⟩
  have hxy : Expression.parse "npm:x && pip:y".toList = .ok ⟨x, [(.and, y)]⟩ := by decide +kernel
  have hyx : Expression.parse "pip:y && npm:x".toList = .ok ⟨y, [(.and, x)]⟩ := by decide +kernel
  have hjson : v.readText (p.root.child "package.json") = .ok "[]".toList := by decide +kernel
  have htoml : v.readText (p.root.child "pyproject.toml") = .ok "project=1".toList := by
    decide +kernel
  have hx : ¬∃ b, Answered p v .empty x b := by
    rintro ⟨-, a, said, hlookup, -⟩
    have hnone : (p.lookup v x.identifier .empty).1.toOption.isNone = true := by decide +kernel
    rw [hlookup] at hnone
    cases hnone
  have hforeseen : ¬IsUnforeseen p v .empty x := by
    rintro ⟨-, hnull | ⟨s, e, hs, -, hread⟩⟩
    · cases hnull
    · cases hjson.symm.trans hs
      have hlist : Json.read "[]".toList = .ok (.list []) := by decide +kernel
      cases hlist.symm.trans hread
  have hunforeseen : IsUnforeseen p v .empty y :=
    ⟨rfl, .inr (isUnforeseen_of_number ⟨_, rfl⟩ htoml)⟩
  constructor
  · obtain ⟨hiff, herror⟩ := evaluateText_outcome_iff p v .empty "npm:x && pip:y".toList
    obtain ⟨E, hE⟩ := hiff.mpr <| by
      rintro ⟨e, before, t, after, he, hterms, hbefore, ht⟩
      cases hxy.symm.trans he
      cases before with
      | nil =>
        cases hterms
        exact hforeseen ht
      | cons u before =>
        obtain ⟨rfl, -⟩ : x = u ∧ _ := List.cons.inj hterms
        exact hx (hbefore x List.mem_cons_self)
    refine ⟨E, hE, fun hnone => ?_⟩
    obtain ⟨e, he, hterms⟩ := (herror E hE).mp hnone
    cases hxy.symm.trans he
    exact hx (hterms x List.mem_cons_self)
  · refine fun h => (evaluateText_outcome_iff p v .empty "pip:y && npm:x".toList).1.mp h ?_
    exact ⟨_, [], y, [x], hyx, rfl, List.forall_mem_nil _, hunforeseen⟩

/-- With `project=1` in `pyproject.toml` there is no outcome. -/
theorem not_forall_evaluateText_outcome : ¬∀ (p : Project) (v : View) (f : Findings) (s : Text),
    ∃ E, (evaluateText p v s f).1 = .ok E := by
  intro h
  let p : Project := ⟨⟨.root, []⟩, []⟩
  let v : View := ⟨⟨[(["pyproject.toml"], .file "project=1".toUTF8.toList)]⟩, []⟩
  let t : Term := ⟨⟨.package .pip, "x"⟩, false, none⟩
  have htoml : v.readText (p.root.child "pyproject.toml") = .ok "project=1".toList := by
    decide +kernel
  have ht : IsUnforeseen p v .empty t := ⟨rfl, .inr (isUnforeseen_of_number ⟨_, rfl⟩ htoml)⟩
  have hparse : Expression.parse "pip:x".toList = .ok ⟨t, []⟩ := by decide +kernel
  have hthrows : Throws (value p v ⟨t, []⟩ .empty).1 :=
    throws_value_iff.mpr ⟨[], t, [], rfl, List.forall_mem_nil _, ht⟩
  obtain ⟨E, hE⟩ := h p v .empty "pip:x".toList
  unfold evaluateText at hE
  rw [hparse] at hE
  exact evaluateAs_ok_iff.mp ⟨E, hE⟩ hthrows

end Condition

end Rulebook
