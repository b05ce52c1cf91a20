import Rulebook.Composition.Composer
import Rulebook.Proofs.Project.Question

/-!
# Outcomes from answers

What evaluations and compositions come to where each identifier has an answer of its own: the same
rules as those of inquiries, with no findings in them. Each inquiry recalls the outcome from the
answers that its findings give (`Condition.evaluateAs_recalls`, `Composer.compose_recalls`).
-/

namespace Rulebook

open Condition (Failure)

namespace Condition

section Answered

variable (ask : Identifier → Except Failure Answer)

def truthFrom (t : Term) : Except Failure Bool := do
  holds t (← ask t.identifier)

def truthsFrom : List (α × Term) → Except Failure (List (α × Bool))
  | [] => .ok []
  | (a, t) :: more => do
    let b ← truthFrom ask t
    let bs ← truthsFrom more
    .ok ((a, b) :: bs)

def valueFrom (e : Expression) : Except Failure Bool := do
  let first ← truthFrom ask e.first
  let rest ← truthsFrom ask e.rest
  .ok (foldTruth first rest)

/-- What the value of an expression written `source`, or the failure to find it, comes to. -/
def outcome (source : String) (e : Expression) : Except Failure Bool → Except Failure Evaluation
  | .ok b => .ok (.ofValue e b)
  | .error (.error x) => .ok (.ofError x)
  | .error (.fault (.refused x)) => .ok (.ofError ⟨.manifest "" (.refused source x), source, none⟩)
  | .error x => .error x

def evaluateTextFrom (s : Text) : Except Failure Evaluation :=
  match Expression.parse s with
  | .ok e => outcome (String.ofList s) e (valueFrom ask e)
  | .error e => .ok (.ofError e)

end Answered

end Condition

/-- Whether a document with that metadata takes part, given what identifiers stand for. -/
def Inclusion.decideFrom (ask : Identifier → Except Failure Answer) (metadata : Value) :
    Except Failure Inclusion :=
  let unconditional := ⟨true, "No condition provided, defaulting to include", none⟩
  match conditionOf metadata with
  | .null => .ok unconditional
  | .str s =>
    if Blank.isAllBlank s.toList then .ok unconditional
    else do
      let outcome ← Condition.evaluateTextFrom ask s.toList
      .ok ⟨outcome.isMatch, outcome.reason, outcome.error⟩
  | w =>
    let e : Condition.Error := ⟨.conditionKind w.kindName, w.text, none⟩
    if w.isShowable then .ok ⟨false, e.message, some e⟩
    else .error (.fault (.badValue (.literal .unwritable)))

namespace Composer

section Answered

variable (c : Composer) (v : View) (ask : Identifier → Except Failure Answer)

/-- The composition of a document on `v`, given what identifiers stand for. -/
def composeFrom (path : Path) (text : Option Text) : Except Composition.Failure Composition := do
  let s ← (match text with
    | some s => .ok s
    | none => Composition.readText v path)
  let document ← Composition.parse path s
  let r ← c.expand v path document.body
  let inclusion ← (Inclusion.decideFrom ask (.map document.metadata)).mapError
    (Composition.Failure.ofCondition path)
  match inclusion.error with
  | some e => .error (.error ⟨path, .condition e⟩)
  | none =>
    .ok {
      path
      metadata := document.metadata
      inclusion
      included := r.included
      body := r.content
      renderings :=
        if inclusion.isIncluded then c.targets.map fun t => (t, c.render r.content t) else [] }

def composeAllFrom : List Path → Except Composition.Failure (List Composition)
  | [] => .ok []
  | path :: paths => do
    let first ← c.composeFrom v ask path none
    let rest ← composeAllFrom paths
    .ok (first :: rest)

end Answered

end Composer

/-! ## Inquiries recall the outcomes -/

section Recalls

variable {p : Project} {now : View}

/-- What identifiers stand for on the views `seen` of their findings. -/
def Project.answers (p : Project) (now : View) (seen : Finding → View) (i : Identifier) :
    Except Failure Answer :=
  (Question.identifier i).fresh p ((Question.identifier i).viewOf now seen)

theorem Project.lookup_recalls (i : Identifier) :
    Recalls p now (p.lookup now i) fun seen => p.answers now seen i :=
  (Question.identifier i).recalls

namespace Condition

theorem truth_recalls (t : Term) :
    Recalls p now (truth p now t) fun seen => truthFrom (p.answers now seen) t :=
  (p.lookup_recalls t.identifier).bind fun a => .ofExcept (holds t a)

theorem truths_recalls (ts : List (α × Term)) :
    Recalls p now (truths p now ts) fun seen => truthsFrom (p.answers now seen) ts := by
  induction ts with
  | nil => exact .pure []
  | cons t ts ih =>
    exact (truth_recalls t.2).bind fun b => ih.bind fun bs => .pure ((t.1, b) :: bs)

theorem value_recalls (e : Expression) :
    Recalls p now (value p now e) fun seen => valueFrom (p.answers now seen) e :=
  (truth_recalls e.first).bind fun first =>
    (truths_recalls e.rest).bind fun rest => .pure (foldTruth first rest)

theorem evaluateAs_eq_outcome (source : String) (e : Expression) :
    evaluateAs source p now e =
      fun f => (outcome source e (value p now e f).1, (value p now e f).2) := by
  funext f
  unfold evaluateAs
  split <;> simp [outcome, *]

theorem evaluateAs_recalls (source : String) (e : Expression) :
    Recalls p now (evaluateAs source p now e) fun seen =>
      outcome source e (valueFrom (p.answers now seen) e) := by
  rw [evaluateAs_eq_outcome]
  exact (value_recalls e).map (outcome source e)

theorem evaluateText_recalls (s : Text) :
    Recalls p now (evaluateText p now s) fun seen => evaluateTextFrom (p.answers now seen) s := by
  unfold evaluateText evaluateTextFrom
  cases Expression.parse s with
  | ok e => exact evaluateAs_recalls (String.ofList s) e
  | error e => exact .pure (Evaluation.ofError e)

end Condition

theorem Inclusion.decide_recalls (metadata : Value) :
    Recalls p now (decide p now metadata) fun seen => decideFrom (p.answers now seen) metadata := by
  unfold decide decideFrom
  generalize conditionOf metadata = w
  cases w with
  | null => exact .pure _
  | str s =>
    dsimp only
    split
    · exact .pure _
    · exact (Condition.evaluateText_recalls s.toList).bind fun outcome => .pure _
  | _ =>
    dsimp only
    split
    · exact .pure _
    · exact .fail _

theorem Composer.compose_recalls (c : Composer) (path : Path) (text : Option Text) :
    Recalls c.project now (c.compose now path text) fun seen =>
      c.composeFrom now (c.project.answers now seen) path text := by
  unfold compose composeFrom
  refine Recalls.bind (Recalls.ofExcept _) fun s => ?_
  refine (Recalls.ofExcept (Composition.parse path s)).bind fun document => ?_
  refine (Recalls.ofExcept (c.expand now path document.body)).bind fun r => ?_
  refine ((Inclusion.decide_recalls (.map document.metadata)).mapError _).bind fun inclusion => ?_
  cases inclusion.error with
  | some e => exact .fail _
  | none => exact .pure _

theorem Composer.composeAll_recalls (c : Composer) (paths : List Path) :
    Recalls c.project now (c.composeAll now paths) fun seen =>
      c.composeAllFrom now (c.project.answers now seen) paths := by
  induction paths with
  | nil => exact .pure []
  | cons path paths ih =>
    exact (c.compose_recalls path none).bind fun first => ih.bind fun rest => .pure (first :: rest)

end Recalls

end Rulebook
