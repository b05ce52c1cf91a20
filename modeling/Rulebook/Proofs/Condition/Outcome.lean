import Mathlib.Control.Monad.Basic
import Mathlib.Tactic.Choose
import Rulebook.Condition.Evaluation
import Rulebook.Proofs.Project.Gained

/-!
# Outcomes of evaluations

An evaluation looks up all terms from left to right. `Answered p v f t b` says what a term comes to
on its own, in a project with the findings `f`: earlier terms have no say in it. If all terms are
answered, their answers are joined from left to right; else the first term that is not decides the
outcome, whatever the terms before it come to. The findings gain the entries of the terms that were
answered until then (`Condition.evaluates`).
-/

namespace Rulebook

open Condition (Failure)

/-- The entries that looking up the identifier of a term leaves: one at most. -/
def Term.entries (t : Term) : List Finding := (Question.identifier t.identifier).finding?.toList

namespace Condition

/-- The error that an evaluation of `source` ends with: an error of conditions as it stands, a path
that the system refuses as an error about manifests. Other failures leave it without an outcome. -/
def Failure.error? (source : String) : Failure → Option Error
  | .error e => some e
  | .fault (.refused x) => some ⟨.manifest "" (.refused source x), source, none⟩
  | .fault _ => none

/-- What a term says of an answer before its sign. A missing value compares as false. -/
inductive Says (a : Answer) : Option (Comparison × String) → Bool → Prop
  | found : Says a none a.found
  | missing {test : Comparison × String} : a.value = none → Says a (some test) false
  | equal {value : Value} {shown text : String} :
    a.value = some value → value.comparand = .ok shown →
      Says a (some (.equal, text)) (decide (shown = text))
  | different {value : Value} {shown text : String} :
    a.value = some value → value.comparand = .ok shown →
      Says a (some (.different, text)) (decide (shown ≠ text))

/-- On the findings `f`, the term `t` comes to `b`. -/
def Answered (p : Project) (v : View) (f : Findings) (t : Term) (b : Bool) : Prop :=
  ∃ a said, (p.lookup v t.identifier f).1 = .ok a ∧ Says a t.test said ∧
    b = if t.negated then !said else said

/-- The term `t` compares a value that has no text, for the reason `why`. -/
def Unwritable (p : Project) (v : View) (f : Findings) (t : Term) (why : Json.Unwritable) : Prop :=
  ∃ a test value, (p.lookup v t.identifier f).1 = .ok a ∧ t.test = some test ∧
    a.value = some value ∧ value.comparand = .error why

/-- What has no text is none of the errors that an evaluation ends with. -/
theorem Failure.error?_fault (source : String) (why : Json.Unwritable) :
    (Failure.fault why.fault).error? source = none := by
  cases why <;> rfl

variable {p : Project} {v : View} {f f' : Findings} {is : List Finding} {t : Term} {a : Answer}
  {b : Bool} {y : Failure} {why : Json.Unwritable} {e : Expression}

/-! ## One term -/

theorem holds_of_said {said : Bool} (h : Says a t.test said) :
    holds t a = .ok (if t.negated then !said else said) := by
  obtain ⟨identifier, negated, test⟩ := t
  cases h with
  | found => rfl
  | missing hv => simp only [holds, hv]
  | equal hv hs => simp only [holds, hv, hs, Comparison.holds]
  | different hv hs => simp only [holds, hv, hs, Comparison.holds]

theorem holds_of_unwritable {test : Comparison × String} {value : Value}
    (htest : t.test = some test) (hvalue : a.value = some value)
    (hwhy : value.comparand = .error why) : holds t a = .error (.fault why.fault) := by
  simp only [holds, htest, hvalue, hwhy]

theorem holds_cases (t : Term) (a : Answer) : (∃ said, Says a t.test said) ∨
    ∃ test value why, t.test = some test ∧ a.value = some value ∧
      value.comparand = .error why := by
  cases t.test with
  | none => exact .inl ⟨_, .found⟩
  | some test =>
    cases hv : a.value with
    | none => exact .inl ⟨false, .missing hv⟩
    | some value =>
      cases hs : value.comparand with
      | error why => exact .inr ⟨_, value, why, rfl, rfl, hs⟩
      | ok shown =>
        refine .inl ?_
        obtain ⟨comparison, text⟩ := test
        cases comparison with
        | equal => exact ⟨_, .equal hv hs⟩
        | different => exact ⟨_, .different hv hs⟩

theorem fst_truth : (truth p v t f).1 = (p.lookup v t.identifier f).1 >>= holds t :=
  Inquiry.fst_bind_ofExcept f

theorem snd_truth : (truth p v t f).2 = (p.lookup v t.identifier f).2 :=
  Inquiry.snd_bind_ofExcept f

theorem answered_iff : Answered p v f t b ↔ (truth p v t f).1 = .ok b := by
  rw [fst_truth, bind_eq_ok_iff]
  constructor
  · rintro ⟨a, said, ha, hsaid, rfl⟩
    exact ⟨a, ha, holds_of_said hsaid⟩
  · rintro ⟨a, ha, hb⟩
    rcases holds_cases t a with ⟨said, hsaid⟩ | ⟨_, _, _, htest, hvalue, hwhy⟩
    · cases (holds_of_said hsaid).symm.trans hb
      exact ⟨a, said, ha, hsaid, rfl⟩
    · cases (holds_of_unwritable htest hvalue hwhy).symm.trans hb

theorem truth_of_unwritable (h : Unwritable p v f t why) :
    (truth p v t f).1 = .error (.fault why.fault) := by
  obtain ⟨a, test, value, ha, htest, hvalue, hwhy⟩ := h
  rw [fst_truth, ha]
  exact holds_of_unwritable htest hvalue hwhy

theorem truth_of_failed (h : (p.lookup v t.identifier f).1 = .error y) :
    (truth p v t f).1 = .error y := by
  rw [fst_truth, h]
  rfl

theorem gains_truth (h : Answered p v f t b) : Gains p v f t.entries (truth p v t f).2 := by
  obtain ⟨a, -, ha, -⟩ := h
  rw [snd_truth]
  exact Question.gains_of_ask (q := .identifier t.identifier) (Prod.ext ha rfl)

theorem truth_eq_of_gains (h : Gains p v f is f') :
    (truth p v t f').1 = (truth p v t f).1 := by
  rw [fst_truth, fst_truth]
  exact congrArg (· >>= holds t) (h.ask_eq (.identifier t.identifier))

/-- A lookup that ends in an error of its own finds out nothing. -/
theorem snd_lookup_of_error {i : Identifier} {source : String} {x : Error}
    (h : (p.lookup v i f).1 = .error y) (hx : y.error? source = some x) :
    (p.lookup v i f).2 = f := by
  have hload {j : Finding} {k : j.question.Answer → Except Failure Answer}
      (hk : p.lookup v i = j.question.ask p v >>= fun a => .ofExcept (k a))
      (hno : ∀ a y, k a = .error y → y.error? source = none) : (p.lookup v i f).2 = f := by
    rw [hk, Inquiry.fst_bind_ofExcept] at h
    rw [hk, Inquiry.snd_bind_ofExcept]
    cases hask : (j.question.ask p v f).1 with
    | error y => exact Finding.snd_ask_of_error hask
    | ok a =>
      rw [hask] at h
      cases (hno a y h).symm.trans hx
  obtain ⟨space, name⟩ := i
  cases space with
  | package e =>
    exact hload (j := .dependencies e) (p.lookup_package e name v) fun _ _ h => nomatch h
  | file => exact hload (j := .place ⟨"file", name⟩) (p.lookup_file name v) fun _ _ h => nomatch h
  | dir => exact hload (j := .place ⟨"dir", name⟩) (p.lookup_dir name v) fun _ _ h => nomatch h
  | pkg =>
    refine hload (j := .package) (p.lookup_pkg name v) fun es y hy => ?_
    rcases Entries.answer_cases es name with ⟨_, -, hok⟩ | ⟨⟨e, he⟩, -⟩
    · cases hok.symm.trans hy
    · cases he.symm.trans hy
      rfl
  | var =>
    rw [Project.lookup_var]
    rfl
  | unknown _ => rfl

/-! ## All terms -/

section Terms

variable {x : Connective × Term} {ts before : List (Connective × Term)} {comes : Term → Bool}

theorem truths_cons_of_ok (h : (truth p v x.2 f).1 = .ok b) :
    truths p v (x :: ts) f =
      ((truths p v ts (truth p v x.2 f).2).1.map ((x.1, b) :: ·),
        (truths p v ts (truth p v x.2 f).2).2) := by
  show Inquiry.bind (truth p v x.2) _ f = _
  unfold Inquiry.bind
  rcases hx : truth p v x.2 f with ⟨r, f'⟩
  rw [hx] at h
  subst h
  show Inquiry.bind (truths p v ts) _ f' = _
  unfold Inquiry.bind
  rcases truths p v ts f' with ⟨_ | _, _⟩ <;> rfl

theorem truths_cons_of_error (h : (truth p v x.2 f).1 = .error y) :
    truths p v (x :: ts) f = (.error y, (truth p v x.2 f).2) :=
  Inquiry.bind_of_error (Prod.ext h rfl)

/-- Terms that are answered, each on its own, have no say in what the terms after them come to. -/
theorem truths_append (ts : List (Connective × Term))
    (h : ∀ x ∈ before, Answered p v f x.2 (comes x.2)) :
    ∃ f', Gains p v f (before.flatMap fun x => x.2.entries) f' ∧
      truths p v (before ++ ts) f =
        ((truths p v ts f').1.map (before.map (fun x => (x.1, comes x.2)) ++ ·),
          (truths p v ts f').2) := by
  induction before generalizing f with
  | nil =>
    refine ⟨f, .refl p v f, ?_⟩
    rcases hts : truths p v ts f with ⟨_ | _, _⟩ <;> simp [hts, Except.map]
  | cons x before ih =>
    obtain ⟨hx, hbefore⟩ := List.forall_mem_cons.mp h
    have hgains := gains_truth hx
    obtain ⟨f', hgained, htruths⟩ := ih fun u hu => by
      rw [answered_iff, truth_eq_of_gains hgains]
      exact answered_iff.mp (hbefore u hu)
    refine ⟨f', hgains.trans hgained, ?_⟩
    rw [List.cons_append, truths_cons_of_ok (answered_iff.mp hx), htruths]
    rcases truths p v ts f' with ⟨_ | _, _⟩ <;> rfl

/-- The terms with a connective each; the first one joins nothing. -/
def joined (e : Expression) : List (Connective × Term) := (.and, e.first) :: e.rest

theorem value_eq (e : Expression) :
    value p v e f =
      ((truths p v (joined e) f).1.map (foldTruth true), (truths p v (joined e) f).2) := by
  show Inquiry.bind (truth p v e.first) _ f = _
  unfold Inquiry.bind
  rcases hfirst : truth p v e.first f with ⟨_ | b, f'⟩
  · rw [joined, truths_cons_of_error (x := (.and, e.first)) (congrArg Prod.fst hfirst), hfirst]
    rfl
  · rw [joined, truths_cons_of_ok (x := (.and, e.first)) (congrArg Prod.fst hfirst), hfirst]
    show Inquiry.bind (truths p v e.rest) _ f' = _
    unfold Inquiry.bind
    rcases truths p v e.rest f' with ⟨_ | _, _⟩ <;> rfl

theorem value_of_answered {comes : Term → Bool}
    (h : ∀ t ∈ e.terms, Answered p v f t (comes t)) :
    (value p v e f).1 = .ok (e.rest.foldl (fun b x => x.1.apply b (comes x.2)) (comes e.first)) ∧
      Gains p v f (e.terms.flatMap Term.entries) (value p v e f).2 := by
  have hjoined : ∀ x ∈ joined e, Answered p v f x.2 (comes x.2) := fun x hx =>
    h x.2 (List.mem_map_of_mem (f := fun x : Connective × Term => x.2) hx)
  obtain ⟨f', hgains, htruths⟩ := truths_append [] hjoined
  have hentries : (joined e).flatMap (fun x => x.2.entries) = e.terms.flatMap Term.entries := by
    rw [← List.flatMap_map]
    rfl
  rw [List.append_nil] at htruths
  rw [value_eq, htruths, ← hentries]
  refine ⟨?_, hgains⟩
  show Except.ok (foldTruth true ((joined e).map (fun x => (x.1, comes x.2)) ++ [])) = _
  rw [List.append_nil, foldTruth, List.foldl_map]
  rfl

/-- The value fails with the first term that does, on what the terms before it have gained. -/
theorem value_of_stop {before after : List Term} (h : e.terms = before ++ t :: after)
    (hbefore : ∀ u ∈ before, ∃ b, Answered p v f u b) (ht : (truth p v t f).1 = .error y) :
    ∃ f', Gains p v f (before.flatMap Term.entries) f' ∧
      value p v e f = (.error y, (truth p v t f').2) := by
  have hterms : (joined e).map (·.2) = before ++ t :: after := h
  obtain ⟨first, others, hjoined, rfl, hothers⟩ := List.map_eq_append_iff.mp hterms
  obtain ⟨x, last, rfl, rfl, -⟩ := List.map_eq_cons_iff.mp hothers
  choose! comes hcomes using hbefore
  have hfirst : ∀ x ∈ first, Answered p v f x.2 (comes x.2) := fun x hx =>
    hcomes x.2 (List.mem_map_of_mem hx)
  obtain ⟨f', hgains, htruths⟩ := truths_append (x :: last) hfirst
  refine ⟨f', by rwa [List.flatMap_map], ?_⟩
  rw [value_eq, hjoined, htruths, truths_cons_of_error ((truth_eq_of_gains hgains).trans ht)]
  rfl

end Terms

/-! ## Evaluations -/

theorem evaluateAs_of_ok (source : String) (h : value p v e f = (.ok b, f')) :
    evaluateAs source p v e f = (.ok (.ofValue e b), f') := by
  unfold evaluateAs
  rw [h]

theorem evaluateAs_of_error (source : String) (h : value p v e f = (.error y, f')) :
    (∀ x, y.error? source = some x → evaluateAs source p v e f = (.ok (.ofError x), f')) ∧
      (y.error? source = none → evaluateAs source p v e f = (.error y, f')) := by
  unfold evaluateAs
  rw [h]
  cases y with
  | error x => exact ⟨fun _ hx => by cases hx; rfl, fun hx => (nomatch hx)⟩
  | fault y =>
    cases y with
    | refused x => exact ⟨fun _ hx => by cases hx; rfl, fun hx => (nomatch hx)⟩
    | _ => exact ⟨fun _ hx => (nomatch hx), fun _ => rfl⟩

/-- What an evaluation of `e`, written `source`, comes to on the findings `f`: its result `r`. -/
structure Evaluates (p : Project) (v : View) (f : Findings) (source : String) (e : Expression)
    (r : Except Failure Evaluation × Findings) : Prop where
  /-- All terms are answered: they are joined from left to right, and each has left its entry. -/
  answered : ∀ comes : Term → Bool, (∀ t ∈ e.terms, Answered p v f t (comes t)) →
    r.1 = .ok (.ofValue e (e.rest.foldl (fun b x => x.1.apply b (comes x.2)) (comes e.first))) ∧
      Gains p v f (e.terms.flatMap Term.entries) r.2
  /-- The first lookup that fails decides, whatever the terms before it come to. -/
  failed : ∀ before t after y, e.terms = before ++ t :: after →
    (∀ u ∈ before, ∃ b, Answered p v f u b) → (p.lookup v t.identifier f).1 = .error y →
    (∀ x, y.error? source = some x →
      r.1 = .ok (.ofError x) ∧ Gains p v f (before.flatMap Term.entries) r.2) ∧
    (y.error? source = none → r.1 = .error y)
  /-- A value that has no text to compare leaves no outcome. -/
  unwritable : ∀ before t after why, e.terms = before ++ t :: after →
    (∀ u ∈ before, ∃ b, Answered p v f u b) → Unwritable p v f t why →
    r.1 = .error (.fault why.fault)

theorem evaluateAs_evaluates (source : String) (p : Project) (v : View) (e : Expression)
    (f : Findings) : Evaluates p v f source e (evaluateAs source p v e f) := by
  refine ⟨fun comes h => ?_, fun before t after y h hbefore hy => ?_,
    fun before t after why h hbefore ht => ?_⟩
  · obtain ⟨hvalue, hgains⟩ := value_of_answered h
    rw [evaluateAs_of_ok source (Prod.ext hvalue rfl)]
    exact ⟨rfl, hgains⟩
  · obtain ⟨f', hgains, hvalue⟩ := value_of_stop h hbefore (truth_of_failed hy)
    obtain ⟨hcaught, hescaped⟩ := evaluateAs_of_error source hvalue
    refine ⟨fun x hx => ?_, fun hnone => by rw [hescaped hnone]⟩
    have hlookup : (p.lookup v t.identifier f').1 = .error y :=
      (hgains.ask_eq (.identifier t.identifier)).trans hy
    rw [hcaught x hx, snd_truth, snd_lookup_of_error hlookup hx]
    exact ⟨rfl, hgains⟩
  · obtain ⟨f', -, hvalue⟩ := value_of_stop h hbefore (truth_of_unwritable ht)
    rw [(evaluateAs_of_error source hvalue).2 (Failure.error?_fault source why)]

/-- A text that is no expression is not evaluated, and asks nothing; all else is evaluated as it
was written, an expression that was not read as it would be written. -/
theorem evaluates (p : Project) (v : View) (f : Findings) :
    (∀ s x, Expression.parse s = .error x → evaluateText p v s f = (.ok (.ofError x), f)) ∧
    (∀ s e, Expression.parse s = .ok e →
      Evaluates p v f (String.ofList s) e (evaluateText p v s f)) ∧
    ∀ e, Evaluates p v f e.text e (evaluate p v e f) := by
  refine ⟨fun s x h => ?_, fun s e h => ?_, fun e => evaluateAs_evaluates e.text p v e f⟩
  · unfold evaluateText
    rw [h]
    rfl
  · unfold evaluateText
    rw [h]
    exact evaluateAs_evaluates (String.ofList s) p v e f

/-- With two variables, no file `x`, and a directory in the place of `package.json`. -/
theorem evaluates_manifest_directory :
    let p : Project := ⟨⟨.root, []⟩, [(.str "a", .int 1), (.str "d", .list [.date ⟨2020, 1, 1⟩])]⟩
    let v : View := ⟨⟨[(["package.json"], .directory)]⟩, []⟩
    let isOne : Term := ⟨⟨.var, "a"⟩, false, some (.equal, "1")⟩
    let both : Expression := ⟨isOne, [(.and, ⟨⟨.file, "x"⟩, true, none⟩)]⟩
    let s := "var:a == 1 || npm:x && !file:x".toList
    let x : Error := ⟨.manifest "/package.json"
      (.unreadable "package.json" (.refused ⟨.isADirectory, ⟨.root, ["package.json"]⟩⟩)), "", none⟩
    evaluateText p v [] .empty = (.ok (.ofError ⟨.emptyExpression, "", none⟩), .empty) ∧
    ((evaluateText p v s .empty).1 = .ok (.ofError x) ∧
      Gains p v .empty [] (evaluateText p v s .empty).2) ∧
    ((evaluate p v both .empty).1 = .ok (.ofValue both true) ∧
      Gains p v .empty [.place ⟨"file", "x"⟩] (evaluate p v both .empty).2) ∧
    (evaluateText p v "var:d == x".toList .empty).1 = .error (.fault (.shape .kind)) := by
  intro p v isOne both s x
  obtain ⟨hunread, hread, hbuilt⟩ := evaluates p v .empty
  have hisOne : Answered p v .empty isOne true := answered_iff.mpr (by decide +kernel)
  have hnoFile : Answered p v .empty ⟨⟨.file, "x"⟩, true, none⟩ true :=
    answered_iff.mpr (by decide +kernel)
  refine ⟨hunread [] _ rfl, ?_, ?_, ?_⟩
  · have hparse : Expression.parse "var:a == 1 || npm:x && !file:x".toList = .ok ⟨isOne,
        [(.or, ⟨⟨.package .npm, "x"⟩, false, none⟩), (.and, ⟨⟨.file, "x"⟩, true, none⟩)]⟩ := by
      decide +kernel
    have hlookup : (p.lookup v ⟨.package .npm, "x"⟩ .empty).1 = .error (.error x) := rfl
    exact ((hread s _ hparse).failed [isOne] _ _ _ rfl
      (List.forall_mem_singleton.mpr ⟨true, hisOne⟩) hlookup).1 x rfl
  · exact (hbuilt both).answered (fun _ => true)
      (List.forall_mem_cons.mpr ⟨hisOne, List.forall_mem_singleton.mpr hnoFile⟩)
  · have hparse : Expression.parse "var:d == x".toList =
        .ok ⟨⟨⟨.var, "d"⟩, false, some (.equal, "x")⟩, []⟩ := by decide +kernel
    have hlookup : (p.lookup v ⟨.var, "d"⟩ .empty).1 =
        .ok ⟨true, some (.list [.date ⟨2020, 1, 1⟩])⟩ := by decide +kernel
    exact (hread _ _ hparse).unwritable [] _ [] .kind rfl (List.forall_mem_nil _)
      ⟨_, _, _, hlookup, rfl, rfl, by decide +kernel⟩

/-- A list that holds a date has no text: no lookup fails, and yet there is no outcome. -/
theorem not_forall_evaluates : ¬∀ (p : Project) (v : View) (f : Findings) (s : Text)
    (e : Expression), Expression.parse s = .ok e →
    (∀ t ∈ e.terms, ∃ a, (p.lookup v t.identifier f).1 = .ok a) →
    ∃ E, (evaluateText p v s f).1 = .ok E ∧ E.error = none := by
  intro h
  have hparse : Expression.parse "var:d == x".toList =
      .ok ⟨⟨⟨.var, "d"⟩, false, some (.equal, "x")⟩, []⟩ := by decide +kernel
  let p : Project := ⟨⟨.root, []⟩, [(.str "d", .list [.date ⟨2020, 1, 1⟩])]⟩
  have hlookup : (p.lookup ⟨⟨[]⟩, []⟩ ⟨.var, "d"⟩ .empty).1 =
      .ok ⟨true, some (.list [.date ⟨2020, 1, 1⟩])⟩ := by decide +kernel
  have herror :
      (evaluateText p ⟨⟨[]⟩, []⟩ "var:d == x".toList .empty).1.toOption.isNone = true := by
    decide +kernel
  obtain ⟨E, hE, -⟩ := h p ⟨⟨[]⟩, []⟩ .empty _ _ hparse (List.forall_mem_singleton.mpr ⟨_, hlookup⟩)
  rw [hE] at herror
  cases herror

end Condition

end Rulebook
