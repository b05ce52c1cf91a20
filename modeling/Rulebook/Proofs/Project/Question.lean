import Rulebook.Proofs.Project.Recall

/-!
# Questions

The questions that a project answers, and the finding that each of them rests on. The answer of a
question is the one that empty findings give on the view of its finding (`Question.recalls`).
Where the load of that finding fails, so does the question, and nothing is kept
(`Question.ask_of_failed_load`); where the question succeeds, the finding is there
(`Question.holds_of_ask`).
-/

namespace Rulebook

open Condition (Failure)

/-! ## Keeping a finding -/

namespace Findings

def keepDependencies (e : Ecosystem) (d : Dependencies) (f : Findings) : Findings :=
  { f with dependencies := (e, d) :: f.dependencies }

def keepPlace (pl : Place) (b : Bool) (f : Findings) : Findings :=
  { f with places := (pl, b) :: f.places }

def keepPackage (es : Entries) (f : Findings) : Findings := { f with package := some es }

end Findings

section Keep

variable {p : Project} {now : View} {seen : Finding → View} {f : Findings}

theorem lookup_cons_ite [DecidableEq κ] (k j : κ) (a : α) (l : List (κ × α)) :
    ((k, a) :: l).lookup j = if j = k then some a else l.lookup j := by
  by_cases h : j = k
  · simp [h]
  · have hb : (j == k) = false := beq_false_of_ne h
    rw [List.lookup_cons, hb, if_neg h]

theorem Findings.holds_keepDependencies (e : Ecosystem) (d : Dependencies) (j : Finding) :
    (f.keepDependencies e d).holds j = (f.holds j || decide (j = .dependencies e)) := by
  cases j with
  | dependencies j =>
    simp only [holds, keepDependencies, lookup_cons_ite, Finding.dependencies.injEq]
    split <;> simp [*]
  | place _ => simp [holds, keepDependencies]
  | package => simp [holds, keepDependencies]

theorem Findings.holds_keepPlace (pl : Place) (b : Bool) (j : Finding) :
    (f.keepPlace pl b).holds j = (f.holds j || decide (j = .place pl)) := by
  cases j with
  | dependencies _ => simp [holds, keepPlace]
  | place j =>
    simp only [holds, keepPlace, lookup_cons_ite, Finding.place.injEq]
    split <;> simp [*]
  | package => simp [holds, keepPlace]

theorem Findings.holds_keepPackage (es : Entries) (j : Finding) :
    (f.keepPackage es).holds j = (f.holds j || decide (j = .package)) := by
  cases j <;> simp [holds, keepPackage]

theorem FoundOn.keepDependencies {e : Ecosystem} {d : Dependencies} (hf : FoundOn p seen f)
    (hd : e.dependencies (seen (.dependencies e)) p.root = .ok d) :
    FoundOn p seen (f.keepDependencies e d) := by
  refine ⟨fun j d' h => ?_, hf.places, hf.package⟩
  rw [Findings.keepDependencies, lookup_cons_ite] at h
  split at h
  next hj =>
    cases hj
    cases h
    exact hd
  next => exact hf.dependencies j d' h

theorem FoundOn.keepPlace {pl : Place} {b : Bool} (hf : FoundOn p seen f)
    (hb : p.present (seen (.place pl)) pl = .ok b) : FoundOn p seen (f.keepPlace pl b) := by
  refine ⟨hf.dependencies, fun j b' h => ?_, hf.package⟩
  rw [Findings.keepPlace, lookup_cons_ite] at h
  split at h
  next hj =>
    cases hj
    cases h
    exact hb
  next => exact hf.places j b' h

theorem FoundOn.keepPackage {es : Entries} (hf : FoundOn p seen f)
    (hes : Manifest.packageFields (seen .package) p.root = .ok es) :
    FoundOn p seen (f.keepPackage es) := by
  refine ⟨hf.dependencies, hf.places, fun es' h => ?_⟩
  cases h
  exact hes

/-! ## Loads -/

theorem Project.dependencies_recalls (e : Ecosystem) :
    Recalls p now (p.dependencies now e) fun seen =>
      e.dependencies (seen (.dependencies e)) p.root :=
  Recalls.remember (.dependencies e) (fun f => f.dependencies.lookup e)
    (Findings.keepDependencies e) (fun v => e.dependencies v p.root) (fun _ => rfl)
    (fun _ d j => Findings.holds_keepDependencies e d j) (fun _ _ d hf => hf.dependencies e d)
    fun _ _ _ hf hd => hf.keepDependencies hd

theorem Project.hasPlace_recalls (pl : Place) :
    Recalls p now (p.hasPlace now pl) fun seen => p.present (seen (.place pl)) pl :=
  Recalls.remember (.place pl) (fun f => f.places.lookup pl) (Findings.keepPlace pl)
    (fun v => p.present v pl) (fun _ => rfl) (fun _ b j => Findings.holds_keepPlace pl b j)
    (fun _ _ b hf => hf.places pl b) fun _ _ _ hf hb => hf.keepPlace hb

theorem Project.packageFields_recalls :
    Recalls p now (p.packageFields now) fun seen =>
      Manifest.packageFields (seen .package) p.root :=
  Recalls.remember .package (fun f => f.package) Findings.keepPackage
    (fun v => Manifest.packageFields v p.root) (fun _ => rfl)
    (fun _ es j => Findings.holds_keepPackage es j) (fun _ _ es hf => hf.package es)
    fun _ _ _ hf hes => hf.keepPackage hes

end Keep

/-! ## Questions -/

inductive Question where
  | dependencies (e : Ecosystem)
  | hasDependency (e : Ecosystem) (name : String)
  | hasPlace (place : Place)
  | packageFields
  | packageField (path : String)
  | variableValue (path : String)
  | identifier (i : Identifier)

/-- The question that is answered by loading the finding and nothing else. -/
def Finding.question : Finding → Question
  | .dependencies e => .dependencies e
  | .place pl => .hasPlace pl
  | .package => .packageFields

namespace Question

abbrev Answer : Question → Type
  | .dependencies _ => Dependencies
  | .hasDependency .. => Bool
  | .hasPlace _ => Bool
  | .packageFields => Entries
  | .packageField _ => Option Value
  | .variableValue _ => Option Value
  | .identifier _ => Rulebook.Answer

def ask (p : Project) (v : View) : (q : Question) → Inquiry Failure q.Answer
  | .dependencies e => p.dependencies v e
  | .hasDependency e name => p.hasDependency v e name
  | .hasPlace place => p.hasPlace v place
  | .packageFields => p.packageFields v
  | .packageField path => p.packageField v path
  | .variableValue path => .ofExcept ((p.variableValue? path).mapError .fault)
  | .identifier i => p.lookup v i

/-- The answer of a project that has found out nothing yet. -/
def fresh (p : Project) (v : View) (q : Question) : Except Failure q.Answer := (q.ask p v .empty).1

/-- The finding that the answer rests on; variables and unknown namespaces need none. -/
def finding? : Question → Option Finding
  | .dependencies e => some (.dependencies e)
  | .hasDependency e _ => some (.dependencies e)
  | .hasPlace place => some (.place place)
  | .packageFields => some .package
  | .packageField _ => some .package
  | .variableValue _ => none
  | .identifier i => match i.space with
    | .package e => some (.dependencies e)
    | .file | .dir => some (.place ⟨i.space.name, i.name⟩)
    | .pkg => some .package
    | .var | .unknown _ => none

/-- The view that decides the answer: the one of the finding that it rests on. -/
def viewOf (q : Question) (now : View) (seen : Finding → View) : View :=
  match q.finding? with
  | some i => seen i
  | none => now

end Question

/-! ## What a load can do -/

theorem Inquiry.remember_cases (i : Finding) (known : Findings → Option α)
    (keep : α → Findings → Findings) (find : Except ε α) (f : Findings)
    (hknown : f.holds i = (known f).isSome) (hkeep : ∀ a, (keep a f).holds i = true) :
    (f.holds i = true ∧ ∃ a, remember known keep find f = (.ok a, f)) ∨
    f.holds i = false ∧
      ((∃ e, find = .error e ∧ remember known keep find f = (.error e, f)) ∨
        ∃ a f', find = .ok a ∧ remember known keep find f = (.ok a, f') ∧ f'.holds i = true) := by
  unfold remember
  rw [hknown]
  cases known f with
  | some a => exact .inl ⟨rfl, a, rfl⟩
  | none =>
    cases find with
    | error e => exact .inr ⟨rfl, .inl ⟨e, rfl, rfl⟩⟩
    | ok a => exact .inr ⟨rfl, .inr ⟨a, _, rfl, rfl, hkeep a⟩⟩

theorem Inquiry.bind_ok_iff {x : Inquiry ε α} {y : α → Inquiry ε β} {f f' : Findings} {b : β} :
    (x >>= y) f = (.ok b, f') ↔ ∃ a f'', x f = (.ok a, f'') ∧ y a f'' = (.ok b, f') := by
  show Inquiry.bind x y f = _ ↔ _
  unfold Inquiry.bind
  rcases x f with ⟨_ | a, f₁⟩
  · constructor
    · intro h
      cases h
    · rintro ⟨_, _, h, _⟩
      cases h
  · constructor
    · exact fun h => ⟨a, f₁, rfl, h⟩
    · rintro ⟨_, _, h, h'⟩
      cases h
      exact h'

theorem Inquiry.bind_of_error {x : Inquiry ε α} {y : α → Inquiry ε β} {f f' : Findings} {e : ε}
    (h : x f = (.error e, f')) : (x >>= y) f = (.error e, f') := by
  show Inquiry.bind x y f = _
  unfold Inquiry.bind
  rw [h]

section Load

variable {p : Project} {v now : View} {f : Findings}

theorem Finding.fresh_dependencies (e : Ecosystem) :
    (Finding.dependencies e).question.fresh p v = e.dependencies v p.root :=
  (p.dependencies_recalls e).answer_empty

theorem Finding.fresh_place (pl : Place) :
    (Finding.place pl).question.fresh p v = p.present v pl :=
  (p.hasPlace_recalls pl).answer_empty

theorem Finding.fresh_package :
    Finding.package.question.fresh p v = Manifest.packageFields v p.root :=
  p.packageFields_recalls.answer_empty

/-- A load gives what is found already, or fails and keeps nothing, or keeps what it finds. -/
theorem Finding.load_cases (i : Finding) :
    (f.holds i = true ∧ ∃ a, i.question.ask p v f = (.ok a, f)) ∨
    f.holds i = false ∧
      ((∃ e, i.question.fresh p v = .error e ∧ i.question.ask p v f = (.error e, f)) ∨
        ∃ a f', i.question.fresh p v = .ok a ∧ i.question.ask p v f = (.ok a, f') ∧
          f'.holds i = true) := by
  cases i with
  | dependencies e =>
    rw [fresh_dependencies]
    exact Inquiry.remember_cases (.dependencies e) (fun f => f.dependencies.lookup e)
      (Findings.keepDependencies e) (e.dependencies v p.root) f rfl
      fun d => by simp [Findings.holds_keepDependencies]
  | place pl =>
    rw [fresh_place]
    exact Inquiry.remember_cases (.place pl) (fun f => f.places.lookup pl) (Findings.keepPlace pl)
      (p.present v pl) f rfl fun b => by simp [Findings.holds_keepPlace]
  | package =>
    rw [fresh_package]
    exact Inquiry.remember_cases .package (fun f => f.package) Findings.keepPackage
      (Manifest.packageFields v p.root) f rfl fun es => rfl

theorem Finding.question_recalls (i : Finding) :
    Recalls p now (i.question.ask p now) fun seen => i.question.fresh p (seen i) := by
  cases i with
  | dependencies e =>
    simp only [fresh_dependencies]
    exact p.dependencies_recalls e
  | place pl =>
    simp only [fresh_place]
    exact p.hasPlace_recalls pl
  | package =>
    simp only [fresh_package]
    exact p.packageFields_recalls

end Load

/-! ## Identifiers -/

theorem Inquiry.bind_ofExcept (r : Except ε α) (g : α → β) :
    bind (.ofExcept r) (fun a => .pure (g a)) = ofExcept (r.map g) := by
  cases r <;> rfl

/-- What a dotted path stands for in a mapping. -/
def Entries.answer (es : Entries) (path : String) : Except Failure Answer :=
  (((Value.map es).resolve path).mapError .fault).map fun value => ⟨value.isSome, value⟩

namespace Project

variable {p : Project}

theorem lookup_package (e : Ecosystem) (name : String) (v : View) :
    p.lookup v ⟨.package e, name⟩ = p.dependencies v e >>= fun d =>
      .ofExcept (.ok ⟨d.contains (e.normalName name), none⟩) :=
  Inquiry.bind_assoc _ _ _

theorem lookup_file (name : String) (v : View) :
    p.lookup v ⟨.file, name⟩ = p.hasPlace v ⟨"file", name⟩ >>= fun b => .ofExcept (.ok ⟨b, none⟩) :=
  rfl

theorem lookup_dir (name : String) (v : View) :
    p.lookup v ⟨.dir, name⟩ = p.hasPlace v ⟨"dir", name⟩ >>= fun b => .ofExcept (.ok ⟨b, none⟩) :=
  rfl

theorem lookup_pkg (name : String) (v : View) :
    p.lookup v ⟨.pkg, name⟩ = p.packageFields v >>= fun es => .ofExcept (es.answer name) := by
  refine (Inquiry.bind_assoc _ _ _).trans (congrArg (Inquiry.bind _) (funext fun es => ?_))
  exact Inquiry.bind_ofExcept _ _

/-- What a variable stands for is read off the variables alone. -/
theorem lookup_var (name : String) (v : View) :
    p.lookup v ⟨.var, name⟩ = .ofExcept (p.vars.answer name) :=
  Inquiry.bind_ofExcept _ _

end Project

/-! ## What a question can do -/

namespace Question

variable {p : Project} {v w now : View} {f f' : Findings} {q : Question} {i : Finding}

private theorem eq_bind_ok {x : View → Inquiry ε α} :
    ∃ k : α → Except ε α, ∀ v, x v = x v >>= fun a => Inquiry.ofExcept (k a) := by
  refine ⟨.ok, fun v => ?_⟩
  funext f
  show _ = Inquiry.bind (x v) _ f
  unfold Inquiry.bind
  rcases x v f with ⟨_ | _, _⟩ <;> rfl

/-- A question that needs a finding computes its answer from what is loaded for it. -/
theorem ask_eq_load (h : q.finding? = some i) :
    ∃ k : i.question.Answer → Except Failure q.Answer,
      ∀ v, q.ask p v = i.question.ask p v >>= fun a => .ofExcept (k a) := by
  cases q with
  | dependencies e =>
    cases h
    exact eq_bind_ok
  | hasDependency e name =>
    cases h
    exact ⟨fun d => .ok (d.contains (e.normalName name)), fun _ => rfl⟩
  | hasPlace pl =>
    cases h
    exact eq_bind_ok
  | packageFields =>
    cases h
    exact eq_bind_ok
  | packageField path =>
    cases h
    exact ⟨fun es => ((Value.map es).resolve path).mapError .fault, fun _ => rfl⟩
  | variableValue path => cases h
  | identifier j =>
    obtain ⟨space, name⟩ := j
    cases space with
    | package e =>
      cases h
      exact ⟨_, p.lookup_package e name⟩
    | file =>
      cases h
      exact ⟨_, p.lookup_file name⟩
    | dir =>
      cases h
      exact ⟨_, p.lookup_dir name⟩
    | pkg =>
      cases h
      exact ⟨_, p.lookup_pkg name⟩
    | var => cases h
    | unknown _ => cases h

/-- Where nothing is needed of the files, nothing is asked of them and nothing is kept. -/
theorem ask_of_finding?_eq_none (h : q.finding? = none) :
    ∃ r : Except Failure q.Answer, ∀ v, q.ask p v = .ofExcept r := by
  cases q with
  | variableValue path => exact ⟨_, fun _ => rfl⟩
  | identifier j =>
    obtain ⟨space, name⟩ := j
    cases space with
    | var =>
      exact ⟨_, p.lookup_var name⟩
    | unknown name' => exact ⟨_, fun _ => rfl⟩
    | _ => cases h
  | _ => cases h

theorem fresh_of_finding?_eq_none (h : q.finding? = none) (v w : View) :
    q.fresh p v = q.fresh p w := by
  obtain ⟨r, hr⟩ := ask_of_finding?_eq_none (p := p) h
  unfold fresh
  rw [hr, hr]

/-- The answer is the one that empty findings give on the view of the finding it rests on. -/
theorem recalls (q : Question) :
    Recalls p now (q.ask p now) fun seen => q.fresh p (q.viewOf now seen) := by
  unfold viewOf
  cases h : q.finding? with
  | none =>
    obtain ⟨r, hr⟩ := ask_of_finding?_eq_none (p := p) h
    have hfresh : q.fresh p now = r := by
      unfold fresh
      rw [hr]
      rfl
    rw [hr]
    dsimp only
    rw [hfresh]
    exact .ofExcept r
  | some i =>
    obtain ⟨k, hk⟩ := ask_eq_load (p := p) h
    have hq (now) : Recalls p now (q.ask p now) fun seen =>
        i.question.fresh p (seen i) >>= fun a => k a := by
      rw [hk]
      exact i.question_recalls.bind fun a => .ofExcept (k a)
    have hfresh (v) : q.fresh p v = i.question.fresh p v >>= fun a => k a := (hq v).answer_empty
    simpa only [hfresh] using hq now

/-- A failed load fails the question, and is not kept. -/
theorem ask_of_failed_load {e : Failure} (h : q.finding? = some i) (hf : f.holds i = false)
    (he : i.question.fresh p v = .error e) : q.ask p v f = (.error e, f) := by
  obtain ⟨k, hk⟩ := ask_eq_load (p := p) h
  rw [hk]
  refine Inquiry.bind_of_error ?_
  rcases i.load_cases (p := p) (v := v) (f := f) with ⟨hi, _⟩ | ⟨_, ⟨e', he', hl⟩ | ⟨a, _, ha, _⟩⟩
  · rw [hf] at hi
    cases hi
  · rw [he] at he'
    cases he'
    exact hl
  · rw [he] at ha
    cases ha

/-- A question that is answered leaves the finding it rests on. -/
theorem holds_of_ask {a : q.Answer} (h : q.finding? = some i) (ha : q.ask p v f = (.ok a, f')) :
    f'.holds i = true := by
  obtain ⟨k, hk⟩ := ask_eq_load (p := p) h
  rw [hk, Inquiry.bind_ok_iff] at ha
  obtain ⟨d, f'', hd, hk⟩ := ha
  have hf : f'' = f' := congrArg Prod.snd hk
  subst hf
  rcases i.load_cases (p := p) (v := v) (f := f) with
    ⟨hi, _, hl⟩ | ⟨_, ⟨_, _, hl⟩ | ⟨_, _, _, hl, hi⟩⟩
  · rw [hl] at hd
    cases hd
    exact hi
  · rw [hl] at hd
    cases hd
  · rw [hl] at hd
    cases hd
    exact hi

end Question

end Rulebook
