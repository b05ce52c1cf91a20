import Rulebook.Project.Lookup

/-!
# Remembered answers

Findings are made one by one, each on the files as they are at its moment. `FoundOn p seen f` says
that every finding of `f` is what the files show on the view `seen` gives for it. An inquiry
`Recalls` a function of such views if it answers as the function does, whatever is found already:
findings are taken from where they were made, the rest from the files as they are now.

The questions that a project answers are of this kind (`Question.recalls`): each rests on one
finding at most, and its answer is the one that empty findings give on the view of that finding.
-/

namespace Rulebook

open Condition (Failure)

/-- One thing that findings can hold. -/
inductive Finding where
  | dependencies (e : Ecosystem)
  | place (place : Place)
  | package
  deriving DecidableEq

namespace Findings

def holds (f : Findings) : Finding → Bool
  | .dependencies e => (f.dependencies.lookup e).isSome
  | .place place => (f.places.lookup place).isSome
  | .package => f.package.isSome

theorem holds_empty (i : Finding) : empty.holds i = false := by cases i <;> rfl

end Findings

namespace Project

/-- Whether the place exists on `v`. -/
def present (p : Project) (v : View) (place : Place) : Except Failure Bool :=
  (if place.kind = Namespace.dir.name then v.isDir (p.pathOf place.name)
    else v.isFile (p.pathOf place.name)).mapError fun e => .fault (.refused e)

end Project

/-- What `f` holds is what the views `seen` show. -/
structure FoundOn (p : Project) (seen : Finding → View) (f : Findings) : Prop where
  dependencies : ∀ e d, f.dependencies.lookup e = some d →
    e.dependencies (seen (.dependencies e)) p.root = .ok d
  places : ∀ place b, f.places.lookup place = some b → p.present (seen (.place place)) place = .ok b
  package : ∀ es, f.package = some es → Manifest.packageFields (seen .package) p.root = .ok es

theorem FoundOn.empty (p : Project) (seen : Finding → View) : FoundOn p seen .empty :=
  ⟨fun _ _ h => (nomatch h), fun _ _ h => (nomatch h), fun _ h => (nomatch h)⟩

/-- Findings made on the views `seen`, where `seen` gives the present view for all the rest. -/
structure Consistent (p : Project) (now : View) (seen : Finding → View) (f : Findings) : Prop where
  found : FoundOn p seen f
  rest : ∀ i, f.holds i = false → seen i = now

theorem Consistent.empty (p : Project) (now : View) : Consistent p now (fun _ => now) .empty :=
  ⟨.empty p _, fun _ _ => rfl⟩

/-- Whatever is found already, `x` answers as `g` does, and only adds to the findings. -/
def Recalls (p : Project) (now : View) (x : Inquiry ε α) (g : (Finding → View) → Except ε α) :
    Prop :=
  ∀ seen f, Consistent p now seen f →
    (x f).1 = g seen ∧ FoundOn p seen (x f).2 ∧ ∀ i, f.holds i = true → (x f).2.holds i = true

namespace Recalls

variable {p : Project} {now : View} {x : Inquiry ε α} {g : (Finding → View) → Except ε α}
  {seen : Finding → View} {f : Findings}

theorem answer (h : Recalls p now x g) (hf : Consistent p now seen f) : (x f).1 = g seen :=
  (h seen f hf).1

theorem grows (h : Recalls p now x g) (hf : Consistent p now seen f) {i : Finding}
    (hi : f.holds i = true) : (x f).2.holds i = true :=
  (h seen f hf).2.2 i hi

theorem consistent (h : Recalls p now x g) (hf : Consistent p now seen f) :
    Consistent p now seen (x f).2 := by
  refine ⟨(h seen f hf).2.1, fun i hi => hf.rest i ?_⟩
  cases hb : f.holds i with
  | false => rfl
  | true => rw [h.grows hf hb] at hi; cases hi

/-- With nothing found, the answer is the one of the present view. -/
theorem answer_empty (h : Recalls p now x g) : (x .empty).1 = g fun _ => now :=
  h.answer (.empty p now)

theorem ofExcept (r : Except ε α) : Recalls p now (Inquiry.ofExcept r) fun _ => r :=
  fun _ _ hf => ⟨rfl, hf.found, fun _ hi => hi⟩

theorem pure (a : α) : Recalls p now (Inquiry.pure a : Inquiry ε α) fun _ => .ok a :=
  fun _ _ hf => ⟨rfl, hf.found, fun _ hi => hi⟩

theorem fail (e : ε) : Recalls p now (Inquiry.fail e : Inquiry ε α) fun _ => .error e :=
  fun _ _ hf => ⟨rfl, hf.found, fun _ hi => hi⟩

theorem bind {y : α → Inquiry ε β} {k : α → (Finding → View) → Except ε β} (hx : Recalls p now x g)
    (hy : ∀ a, Recalls p now (y a) (k a)) :
    Recalls p now (x >>= y) fun seen => g seen >>= fun a => k a seen := by
  intro seen f hf
  show (Inquiry.bind x y f).1 = _ ∧ FoundOn p seen (Inquiry.bind x y f).2 ∧
    ∀ i, f.holds i = true → (Inquiry.bind x y f).2.holds i = true
  unfold Inquiry.bind
  have ha := hx.answer hf
  have hc := hx.consistent hf
  have hg := fun i => hx.grows hf (i := i)
  generalize x f = r at ha hc hg ⊢
  obtain ⟨r, f'⟩ := r
  dsimp only at ha hc hg ⊢
  rw [← ha]
  cases r with
  | error e => exact ⟨rfl, hc.found, hg⟩
  | ok a =>
    exact ⟨(hy a).answer hc, ((hy a).consistent hc).found, fun i hi => (hy a).grows hc (hg i hi)⟩

/-- A later step that touches no findings changes the answer alone. -/
theorem map (h : Recalls p now x g) (k : Except ε α → Except δ β) :
    Recalls p now (fun f => (k (x f).1, (x f).2)) fun seen => k (g seen) :=
  fun _ _ hf => ⟨congrArg k (h.answer hf), (h.consistent hf).found, fun _ hi => h.grows hf hi⟩

theorem mapError (h : Recalls p now x g) (k : ε → δ) :
    Recalls p now (x.mapError k) fun seen => (g seen).mapError k :=
  h.map fun r => r.mapError k

/-- A remembered answer is the one of the view on which it was found. -/
theorem remember (i : Finding) (known : Findings → Option α) (keep : α → Findings → Findings)
    (find : View → Except ε α) (hknown : ∀ f, f.holds i = (known f).isSome)
    (hkept : ∀ f a j, (keep a f).holds j = (f.holds j || j = i))
    (hfound : ∀ seen f a, FoundOn p seen f → known f = some a → find (seen i) = .ok a)
    (hkeep : ∀ seen f a, FoundOn p seen f → find (seen i) = .ok a → FoundOn p seen (keep a f)) :
    Recalls p now (Inquiry.remember known keep (find now)) fun seen => find (seen i) := by
  intro seen f hf
  unfold Inquiry.remember
  cases hk : known f with
  | some a => exact ⟨(hfound seen f a hf.found hk).symm, hf.found, fun _ hi => hi⟩
  | none =>
    have hnow : seen i = now := hf.rest i (by rw [hknown, hk]; rfl)
    rw [← hnow]
    cases hr : find (seen i) with
    | error e => exact ⟨hr.symm, hf.found, fun _ hi => hi⟩
    | ok a =>
      refine ⟨hr.symm, hkeep seen f a hf.found hr, fun j hj => ?_⟩
      rw [hkept, hj, Bool.true_or]

end Recalls

end Rulebook
