import Mathlib.Control.Monad.Basic
import Rulebook.Proofs.Project.Answered

/-!
# Histories of a project

The files change and calls are made, in any order. Main statement
(`Situation.replies_of_first_findings`): whatever happened, each call answers as one with no
findings would that looks up each identifier on the view on which its finding was first made.
-/

namespace Rulebook

/-- What can be asked of one project: its questions, evaluations and compositions. -/
inductive Call where
  | ask (q : Question)
  | evaluate (e : Expression)
  | evaluateText (s : Text)
  | decide (metadata : Value)
  | compose (c : Composer) (path : Path) (text : Option Text)
  | composeAll (c : Composer) (paths : List Path)

namespace Call

abbrev Failure : Call → Type
  | .compose .. | .composeAll .. => Composition.Failure
  | _ => Condition.Failure

abbrev Answer : Call → Type
  | .ask q => q.Answer
  | .evaluate _ | .evaluateText _ => Condition.Evaluation
  | .decide _ => Inclusion
  | .compose .. => Composition
  | .composeAll .. => List Composition

/-- Makes the call. Composers work for the project, whichever they were made for. -/
def perform (p : Project) (v : View) : (c : Call) → Inquiry c.Failure c.Answer
  | .ask q => q.ask p v
  | .evaluate e => Condition.evaluate p v e
  | .evaluateText s => Condition.evaluateText p v s
  | .decide metadata => Inclusion.decide p v metadata
  | .compose c path text => { c with project := p }.compose v path text
  | .composeAll c paths => { c with project := p }.composeAll v paths

/-- The answer with no findings kept: each identifier is looked up afresh on the view that `seen`
gives for its finding, and documents are read on `now`. -/
def performFrom (p : Project) (now : View) (seen : Finding → View) :
    (c : Call) → Except c.Failure c.Answer
  | .ask q => q.fresh p (q.viewOf now seen)
  | .evaluate e => Condition.outcome e.text e (Condition.valueFrom (p.answers now seen) e)
  | .evaluateText s => Condition.evaluateTextFrom (p.answers now seen) s
  | .decide metadata => Inclusion.decideFrom (p.answers now seen) metadata
  | .compose c path text => { c with project := p }.composeFrom now (p.answers now seen) path text
  | .composeAll c paths => { c with project := p }.composeAllFrom now (p.answers now seen) paths

theorem recalls {p : Project} {now : View} (c : Call) :
    Recalls p now (c.perform p now) fun seen => c.performFrom p now seen := by
  cases c with
  | ask q => exact q.recalls
  | evaluate e => exact Condition.evaluateAs_recalls e.text e
  | evaluateText s => exact Condition.evaluateText_recalls s
  | decide metadata => exact Inclusion.decide_recalls metadata
  | compose c path text => exact Composer.compose_recalls { c with project := p } path text
  | composeAll c paths => exact Composer.composeAll_recalls { c with project := p } paths

end Call

/-! ## Histories -/

inductive Event where
  | write (l : Location) (e : Entry)
  | remove (l : Location)
  | call (c : Call)

/-- The files as they are, and what a project has found out so far. -/
structure Situation where
  view : View
  findings : Findings

namespace Situation

variable (p : Project)

/-- A project that has found out nothing yet. -/
def start (v : View) : Situation := ⟨v, .empty⟩

def next (s : Situation) : Event → Situation
  | .write l e => { s with view.tree := s.view.tree.write l e }
  | .remove l => { s with view.tree := s.view.tree.remove l }
  | .call c => { s with findings := (c.perform p s.view s.findings).2 }

def after (s : Situation) (h : List Event) : Situation := h.foldl (next p) s

/-- The answer to a call that is made now. -/
def reply (s : Situation) (c : Call) : Except c.Failure c.Answer :=
  (c.perform p s.view s.findings).1

/-- The view of the first event after which the finding is there. -/
def firstFound (i : Finding) : Situation → List Event → Option View
  | _, [] => none
  | s, e :: h => if (s.next p e).findings.holds i then some s.view else firstFound i (s.next p e) h

/-- The view that decides a finding after `h`: where it was first made, else the one after `h`. -/
def viewOf (s : Situation) (h : List Event) (i : Finding) : View :=
  (s.firstFound p i h).getD (s.after p h).view

end Situation

/-! ## What one event preserves -/

section Step

variable {p : Project} {now : View} {seen seen' : Finding → View} {f : Findings} {s : Situation}

theorem FoundOn.congr (hf : FoundOn p seen f) (h : ∀ i, f.holds i = true → seen i = seen' i) :
    FoundOn p seen' f := by
  refine ⟨fun e d hd => ?_, fun pl b hb => ?_, fun es hes => ?_⟩
  · rw [← h (.dependencies e) (by simp [Findings.holds, hd])]
    exact hf.dependencies e d hd
  · rw [← h (.place pl) (by simp [Findings.holds, hb])]
    exact hf.places pl b hb
  · rw [← h .package (by simp [Findings.holds, hes])]
    exact hf.package es hes

/-- A finding is what its load gives on the view on which it was made. -/
theorem FoundOn.load (hf : FoundOn p seen f) {i : Finding} (hi : f.holds i = true) :
    ∃ a, i.question.fresh p (seen i) = .ok a := by
  cases i with
  | dependencies e =>
    obtain ⟨d, hd⟩ := Option.isSome_iff_exists.mp hi
    exact ⟨d, Finding.fresh_dependencies e ▸ hf.dependencies e d hd⟩
  | place pl =>
    obtain ⟨b, hb⟩ := Option.isSome_iff_exists.mp hi
    exact ⟨b, Finding.fresh_place pl ▸ hf.places pl b hb⟩
  | package =>
    obtain ⟨es, hes⟩ := Option.isSome_iff_exists.mp hi
    exact ⟨es, Finding.fresh_package ▸ hf.package es hes⟩

namespace Situation

theorem holds_next (hs : Consistent p s.view seen s.findings) (e : Event) {i : Finding}
    (hi : s.findings.holds i = true) : (s.next p e).findings.holds i = true := by
  cases e with
  | write _ _ => exact hi
  | remove _ => exact hi
  | call c => exact c.recalls.grows hs hi

/-- Findings keep their views; what is not found yet will be found on the files as they become. -/
theorem consistent_next (hs : Consistent p s.view seen s.findings) (e : Event) :
    Consistent p (s.next p e).view
      (fun i => if (s.next p e).findings.holds i then seen i else (s.next p e).view)
      (s.next p e).findings := by
  refine ⟨?_, fun i hi => if_neg (by simp [hi])⟩
  have hf : FoundOn p seen (s.next p e).findings := by
    cases e with
    | write _ _ => exact hs.found
    | remove _ => exact hs.found
    | call c => exact (c.recalls.consistent hs).found
  exact hf.congr fun i hi => (if_pos hi).symm

end Situation

end Step

/-! ## What a history preserves -/

namespace Situation

variable {p : Project} {seen : Finding → View} {s : Situation}

theorem consistent_start (p : Project) (v : View) :
    Consistent p (start v).view (fun _ => v) (start v).findings := .empty p v

theorem consistent_after (hs : Consistent p s.view seen s.findings) (h : List Event) :
    Consistent p (s.after p h).view
      (fun i => if s.findings.holds i then seen i else s.viewOf p h i) (s.after p h).findings := by
  induction h generalizing s seen with
  | nil =>
    have hseen : seen = fun i => if s.findings.holds i then seen i else s.viewOf p [] i := by
      funext i
      by_cases hi : s.findings.holds i = true
      · rw [if_pos hi]
      · rw [if_neg hi, hs.rest i (by simpa using hi)]
        rfl
    rw [← hseen]
    exact hs
  | cons e h ih =>
    have hseen : (fun i => if (s.next p e).findings.holds i then
          (if (s.next p e).findings.holds i then seen i else (s.next p e).view)
        else (s.next p e).viewOf p h i) =
        fun i => if s.findings.holds i then seen i else s.viewOf p (e :: h) i := by
      funext i
      by_cases hn : (s.next p e).findings.holds i = true
      · rw [if_pos hn, if_pos hn]
        by_cases hi : s.findings.holds i = true
        · rw [if_pos hi]
        · -- the event makes the finding, on the files as they were
          rw [if_neg hi, hs.rest i (by simpa using hi), viewOf, firstFound, if_pos hn]
          rfl
      · have hi : ¬s.findings.holds i = true := fun hi => hn (holds_next hs e hi)
        rw [if_neg hn, if_neg hi, viewOf, viewOf, firstFound, if_neg hn]
        rfl
    have hafter := ih (consistent_next hs e)
    rw [hseen] at hafter
    exact hafter

/-- After a history that starts with nothing found, each finding stands for its first view. -/
theorem consistent_after_start (v : View) (h : List Event) :
    Consistent p ((start v).after p h).view ((start v).viewOf p h)
      ((start v).after p h).findings := by
  have hafter := consistent_after (consistent_start p v) h
  simpa [start, Findings.holds_empty] using hafter

theorem reply_eq (hs : Consistent p s.view seen s.findings) (c : Call) :
    s.reply p c = c.performFrom p s.view seen := c.recalls.answer hs

theorem holds_after (hs : Consistent p s.view seen s.findings) (h : List Event) (i : Finding) :
    (s.after p h).findings.holds i = (s.findings.holds i || (s.firstFound p i h).isSome) := by
  induction h generalizing s seen with
  | nil => simp [after, firstFound]
  | cons e h ih =>
    have hafter : s.after p (e :: h) = (s.next p e).after p h := rfl
    rw [hafter, ih (consistent_next hs e), firstFound]
    by_cases hn : (s.next p e).findings.holds i = true
    · rw [if_pos hn, hn]
      simp
    · have hi : s.findings.holds i = false := by
        cases hi : s.findings.holds i with
        | false => rfl
        | true => exact absurd (holds_next hs e hi) hn
      rw [if_neg hn, hi, Bool.eq_false_iff.mpr hn]

theorem load_of_firstFound {v w : View} {h : List Event} {i : Finding}
    (hw : (start v).firstFound p i h = some w) : ∃ a, i.question.fresh p w = .ok a := by
  have hi : ((start v).after p h).findings.holds i = true := by
    rw [holds_after (consistent_start p v), hw]
    simp
  have hload := (consistent_after_start (p := p) v h).found.load hi
  rwa [viewOf, hw] at hload

/-- A question whose finding is there keeps its answer. -/
theorem reply_after_of_holds (hs : Consistent p s.view seen s.findings) {q : Question}
    (hq : ∀ i, q.finding? = some i → s.findings.holds i = true) (h : List Event) :
    (s.after p h).reply p (.ask q) = s.reply p (.ask q) := by
  rw [reply_eq (consistent_after hs h), reply_eq hs]
  show q.fresh p (q.viewOf _ _) = q.fresh p (q.viewOf _ _)
  unfold Question.viewOf
  cases hi : q.finding? with
  | none => exact Question.fresh_of_finding?_eq_none hi _ _
  | some i =>
    dsimp only
    rw [if_pos (hq i hi)]

theorem reply_after_of_reply (hs : Consistent p s.view seen s.findings) {q : Question}
    {a : q.Answer} (ha : s.reply p (.ask q) = .ok a) (h : List Event) :
    (s.after p (.call (.ask q) :: h)).reply p (.ask q) = .ok a := by
  have hask : q.ask p s.view s.findings = (.ok a, (q.ask p s.view s.findings).2) :=
    Prod.ext ha rfl
  have hn := (Call.ask q).recalls.consistent hs
  have hkept : (s.next p (.call (.ask q))).reply p (.ask q) = .ok a := by
    rw [reply_eq hn, ← ha, reply_eq hs]
    rfl
  rw [← hkept]
  exact reply_after_of_holds hn (fun i hi => Question.holds_of_ask hi hask) h

theorem after_calls (hs : Consistent p s.view (fun _ => s.view) s.findings) (cs : List Call) :
    (s.after p (cs.map .call)).view = s.view ∧
      Consistent p s.view (fun _ => s.view) (s.after p (cs.map .call)).findings := by
  induction cs generalizing s with
  | nil => exact ⟨rfl, hs⟩
  | cons c cs ih => exact ih (c.recalls.consistent hs)

/-- After any history, each call answers as one without findings would that asks each identifier on
the view on which its finding was first made, and on the present files if it was not; and the
first finding was a load that succeeded. Variables do not depend on the history. A question that
was answered keeps its answer; without a finding it is asked anew, and a load that fails is not
kept. While the files stay as they are, answers are those of a project that has found nothing. -/
theorem replies_of_first_findings (p : Project) (v : View) (h : List Event) :
    let s := (start v).after p h
    (∀ c, s.reply p c = c.performFrom p s.view ((start v).viewOf p h)) ∧
    (∀ i w, (start v).firstFound p i h = some w → ∃ a, i.question.fresh p w = .ok a) ∧
    (∀ name, s.reply p (.ask (.variableValue name)) = (p.variableValue? name).mapError .fault ∧
      s.reply p (.ask (.identifier ⟨.var, name⟩)) =
        ((p.variableValue? name).mapError .fault).map fun value => ⟨value.isSome, value⟩) ∧
    (∀ q a, s.reply p (.ask q) = .ok a →
      ∀ h', (s.after p (.call (.ask q) :: h')).reply p (.ask q) = .ok a) ∧
    (∀ q i, q.finding? = some i → s.findings.holds i = false →
      s.reply p (.ask q) = q.fresh p s.view ∧
      ∀ e, i.question.fresh p s.view = .error e →
        s.reply p (.ask q) = .error e ∧ s.next p (.call (.ask q)) = s) ∧
    ∀ cs : List Call, h = cs.map .call → ∀ c, s.reply p c = (start v).reply p c := by
  intro s
  have hs : Consistent p s.view ((start v).viewOf p h) s.findings := consistent_after_start v h
  refine ⟨fun c => reply_eq hs c, fun i w hw => load_of_firstFound hw, fun name => ⟨rfl, ?_⟩,
    fun q a ha h' => reply_after_of_reply hs ha h', fun q i hq hi => ⟨?_, fun e he => ?_⟩, ?_⟩
  · exact congrArg (fun x => (x s.findings).1) (Project.lookup_var name s.view)
  · have hview : q.viewOf s.view ((start v).viewOf p h) = s.view := by
      unfold Question.viewOf
      rw [hq]
      exact hs.rest i hi
    rw [reply_eq hs]
    show q.fresh p _ = _
    rw [hview]
  · have hask := Question.ask_of_failed_load hq hi he
    exact ⟨congrArg Prod.fst hask, congrArg (Situation.mk s.view) (congrArg Prod.snd hask)⟩
  · rintro cs rfl c
    have hcalls := after_calls (s := start v) (consistent_start p v) cs
    have hview : s.view = v := hcalls.1
    have hfindings : Consistent p s.view (fun _ => v) s.findings := by
      rw [hview]
      exact hcalls.2
    rw [reply_eq hfindings, reply_eq (consistent_start p v), hview]
    rfl

/-- A file that was found stays there for the project when it is gone. -/
theorem replies_of_first_findings_place :
    let v : View := ⟨⟨[(["a"], .file [])]⟩, []⟩
    let p : Project := ⟨⟨.root, []⟩, []⟩
    let asked : Question := .hasPlace ⟨"file", "a"⟩
    (start v).reply p (.ask asked) = .ok true ∧
      ((start v).after p [.call (.ask asked), .remove ["a"]]).reply p (.ask asked) = .ok true ∧
      ((start v).after p [.remove ["a"]]).reply p (.ask asked) = .ok false :=
  ⟨by decide +kernel, (replies_of_first_findings ⟨⟨.root, []⟩, []⟩ ⟨⟨[(["a"], .file [])]⟩, []⟩
    []).2.2.2.1 (.hasPlace ⟨"file", "a"⟩) true (by decide +kernel) [.remove ["a"]],
    by decide +kernel⟩

end Situation

end Rulebook
