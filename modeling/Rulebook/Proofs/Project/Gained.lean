import Rulebook.Proofs.Project.Question
import Rulebook.Proofs.Value.Descent

/-!
# Gained findings

What questions add to what is found already, while the files stay as they are. `Gains p v f is f'`
says that `f'` holds what `f` holds, and besides just the entries `is`, each as the view `v` shows
it. A question that is answered gains the one entry that it rests on (`Question.gains_of_ask`), and
what is gained leaves all answers as they were (`Gains.ask_eq`).
-/

namespace Rulebook

open Condition (Failure)

/-! ## Entries of findings -/

namespace Findings

/-- What is found out about `i`. -/
def get? (f : Findings) : (i : Finding) → Option i.question.Answer
  | .dependencies e => f.dependencies.lookup e
  | .place pl => f.places.lookup pl
  | .package => f.package

def keep (f : Findings) : (i : Finding) → i.question.Answer → Findings
  | .dependencies e, d => f.keepDependencies e d
  | .place pl, b => f.keepPlace pl b
  | .package, es => f.keepPackage es

variable {f : Findings} {i j : Finding}

theorem get?_keep_self (a : i.question.Answer) : (f.keep i a).get? i = some a := by
  cases i with
  | package => rfl
  | _ => exact List.lookup_cons_self

theorem get?_keep_of_ne (a : i.question.Answer) (h : j ≠ i) : (f.keep i a).get? j = f.get? j := by
  cases i with
  | dependencies e =>
    cases j with
    | dependencies e' =>
      have he : e' ≠ e := fun he => h (congrArg _ he)
      exact (lookup_cons_ite e e' a f.dependencies).trans (if_neg he)
    | _ => rfl
  | place pl =>
    cases j with
    | place pl' =>
      have hpl : pl' ≠ pl := fun hpl => h (congrArg _ hpl)
      exact (lookup_cons_ite pl pl' a f.places).trans (if_neg hpl)
    | _ => rfl
  | package =>
    cases j with
    | package => exact absurd rfl h
    | _ => rfl

end Findings

/-- `f'` holds what `f` holds, and besides just the entries `is`, as `v` shows them. -/
structure Gains (p : Project) (v : View) (f : Findings) (is : List Finding) (f' : Findings) :
    Prop where
  kept : ∀ i a, f.get? i = some a → f'.get? i = some a
  gained : ∀ i ∈ is, f.get? i = none → ∃ a, i.question.fresh p v = .ok a ∧ f'.get? i = some a
  rest : ∀ i, i ∉ is → f'.get? i = f.get? i

variable {p : Project} {v : View} {f f' f'' : Findings} {is js : List Finding}

/-! ## Loads -/

namespace Finding

/-- A load takes what is found, or else finds what the view shows and keeps it. -/
theorem ask_eq_remember (i : Finding) :
    i.question.ask p v = Inquiry.remember (fun f => f.get? i) (fun a f => f.keep i a)
      (i.question.fresh p v) := by
  cases i with
  | dependencies e =>
    rw [fresh_dependencies]
    rfl
  | place pl =>
    rw [fresh_place]
    rfl
  | package =>
    rw [fresh_package]
    rfl

variable {i : Finding}

theorem ask_of_get? {a : i.question.Answer} (h : f.get? i = some a) :
    i.question.ask p v f = (.ok a, f) := by
  rw [ask_eq_remember]
  exact Inquiry.remember_of_known h

theorem ask_of_fresh {a : i.question.Answer} (h : f.get? i = none)
    (ha : i.question.fresh p v = .ok a) : i.question.ask p v f = (.ok a, f.keep i a) := by
  rw [ask_eq_remember]
  unfold Inquiry.remember
  dsimp only
  rw [h, ha]

theorem ask_of_fresh_error {e : Failure} (h : f.get? i = none)
    (he : i.question.fresh p v = .error e) : i.question.ask p v f = (.error e, f) := by
  rw [ask_eq_remember]
  unfold Inquiry.remember
  dsimp only
  rw [h, he]

theorem snd_ask_of_error {e : Failure} (h : (i.question.ask p v f).1 = .error e) :
    (i.question.ask p v f).2 = f := by
  cases hget : f.get? i with
  | some a => rw [ask_of_get? hget]
  | none =>
    cases hfresh : i.question.fresh p v with
    | ok a =>
      rw [ask_of_fresh hget hfresh] at h
      cases h
    | error e => rw [ask_of_fresh_error hget hfresh]

end Finding

namespace Gains

theorem refl (p : Project) (v : View) (f : Findings) : Gains p v f [] f :=
  ⟨fun _ _ h => h, fun _ hi => (nomatch hi), fun _ _ => rfl⟩

theorem trans (h : Gains p v f is f') (h' : Gains p v f' js f'') :
    Gains p v f (is ++ js) f'' := by
  refine ⟨fun i a hi => h'.kept i a (h.kept i a hi), fun i hi hnone => ?_, fun i hi => ?_⟩
  · by_cases his : i ∈ is
    · obtain ⟨a, ha, hget⟩ := h.gained i his hnone
      exact ⟨a, ha, h'.kept i a hget⟩
    · have hjs : i ∈ js := (List.mem_append.mp hi).resolve_left his
      exact h'.gained i hjs ((h.rest i his).trans hnone)
  · obtain ⟨his, hjs⟩ := not_or.mp (hi ∘ List.mem_append.mpr)
    exact (h'.rest i hjs).trans (h.rest i his)

theorem of_load {i : Finding} {a : i.question.Answer} (h : i.question.ask p v f = (.ok a, f')) :
    Gains p v f [i] f' := by
  cases hget : f.get? i with
  | some b =>
    cases (Finding.ask_of_get? hget).symm.trans h
    refine ⟨fun _ _ h => h, fun j hj hnone => ?_, fun _ _ => rfl⟩
    obtain rfl := List.mem_singleton.mp hj
    cases hget.symm.trans hnone
  | none =>
    cases hfresh : i.question.fresh p v with
    | error e => cases (Finding.ask_of_fresh_error hget hfresh).symm.trans h
    | ok b =>
      cases (Finding.ask_of_fresh hget hfresh).symm.trans h
      refine ⟨fun j b hj => ?_, fun j hj _ => ?_, fun j hj => ?_⟩
      · have hne : j ≠ i := fun hji => by
          subst hji
          cases hget.symm.trans hj
        rw [Findings.get?_keep_of_ne a hne, hj]
      · obtain rfl := List.mem_singleton.mp hj
        exact ⟨a, hfresh, Findings.get?_keep_self a⟩
      · exact Findings.get?_keep_of_ne a fun hji => hj (List.mem_singleton.mpr hji)

theorem load_eq (h : Gains p v f is f') (i : Finding) :
    (i.question.ask p v f').1 = (i.question.ask p v f).1 := by
  cases hget : f.get? i with
  | some a => rw [Finding.ask_of_get? hget, Finding.ask_of_get? (h.kept i a hget)]
  | none =>
    by_cases hi : i ∈ is
    · obtain ⟨a, ha, hget'⟩ := h.gained i hi hget
      rw [Finding.ask_of_get? hget', Finding.ask_of_fresh hget ha]
    · have hget' : f'.get? i = none := (h.rest i hi).trans hget
      cases hfresh : i.question.fresh p v with
      | ok a => rw [Finding.ask_of_fresh hget hfresh, Finding.ask_of_fresh hget' hfresh]
      | error e =>
        rw [Finding.ask_of_fresh_error hget hfresh, Finding.ask_of_fresh_error hget' hfresh]

end Gains

/-! ## Questions -/

section Bind

variable {x : Inquiry ε α} {k : α → Except ε β}

theorem Inquiry.fst_bind_ofExcept (f : Findings) :
    ((x >>= fun a => .ofExcept (k a)) f).1 = (x f).1 >>= k := by
  show (Inquiry.bind x _ f).1 = _
  unfold Inquiry.bind
  rcases x f with ⟨_ | _, _⟩ <;> rfl

theorem Inquiry.snd_bind_ofExcept (f : Findings) :
    ((x >>= fun a => .ofExcept (k a)) f).2 = (x f).2 := by
  show (Inquiry.bind x _ f).2 = _
  unfold Inquiry.bind
  rcases x f with ⟨_ | _, _⟩ <;> rfl

end Bind

namespace Question

variable {q : Question}

theorem gains_of_ask {a : q.Answer} (h : q.ask p v f = (.ok a, f')) :
    Gains p v f q.finding?.toList f' := by
  cases hq : q.finding? with
  | none =>
    obtain ⟨r, hr⟩ := ask_of_finding?_eq_none (p := p) hq
    rw [hr] at h
    cases congrArg Prod.snd h
    exact .refl p v f
  | some i =>
    obtain ⟨k, hk⟩ := ask_eq_load (p := p) hq
    rw [hk, Inquiry.bind_ok_iff] at h
    obtain ⟨b, f'', hb, hk⟩ := h
    cases congrArg Prod.snd hk
    exact .of_load hb

end Question

/-- What is gained while the files stay as they are changes no answer. -/
theorem Gains.ask_eq (h : Gains p v f is f') (q : Question) :
    (q.ask p v f').1 = (q.ask p v f).1 := by
  cases hq : q.finding? with
  | none =>
    obtain ⟨r, hr⟩ := Question.ask_of_finding?_eq_none (p := p) hq
    rw [hr]
    rfl
  | some i =>
    obtain ⟨k, hk⟩ := Question.ask_eq_load (p := p) hq
    rw [hk, Inquiry.fst_bind_ofExcept, Inquiry.fst_bind_ofExcept, h.load_eq i]

/-! ## Identifiers -/

theorem Entries.answer_cases (es : Entries) (path : String) :
    (∃ value, (Value.map es).resolve path = .ok value ∧
      es.answer path = .ok ⟨value.isSome, value⟩) ∨
    ((∃ e, es.answer path = .error (.fault (.badValue (.literal e)))) ∧
      es.field? path = none ∧ (Value.map es).Stumbles (dottedParts path)) := by
  unfold answer
  rcases Value.resolve_map_cases es path with ⟨⟨value, hvalue⟩, -⟩ | ⟨⟨e, he⟩, hstumbles⟩
  · exact .inl ⟨value, hvalue, by rw [hvalue]; rfl⟩
  · exact .inr ⟨⟨e, by rw [he]; rfl⟩, hstumbles⟩

end Rulebook
