import Mathlib.Data.List.Forall2
import Rulebook.Condition.Basic

/-!
# Folding truth values

Connectives bind in written order, so what a fold comes to is decided from its end: a true value
counts if it comes first or is joined with `or`, and if every later value that is joined with `and`
is true as well (`ComesThrough`). One step of the fold keeps whether there is such a value
(`exists_comesThrough_cons_iff`), hence the whole fold does (`foldValues_comesThrough`). Values that
grow never make the result fall, and where all connectives are the same the order of the values does
not matter.
-/

namespace Rulebook

/-- The value at `i` is true, and nothing before it or after it undoes it. The connective at `i - 1`
joins the value at `i` to those before it. -/
structure ComesThrough (values : List Bool) (connectives : List Connective) (i : Nat) : Prop where
  holds : values[i]? = some true
  joined : i = 0 ∨ connectives[i - 1]? = some .or
  lasts : ∀ j, i < j → connectives[j - 1]? = some .and → values[j]? = some true

/-! ## One step -/

section Step

variable {v w x : Bool} {vs : List Bool} {c : Connective} {cs : List Connective} {i : Nat}

/-- Every value that is joined with `and` is true. -/
def AllHold (values : List Bool) (connectives : List Connective) : Prop :=
  ∀ j : Nat, connectives[j]? = some .and → values[j]? = some true

theorem allHold_cons_iff :
    AllHold (w :: vs) (c :: cs) ↔ (c = .and → w = true) ∧ AllHold vs cs := by
  constructor
  · intro h
    exact ⟨fun hc => by simpa using h 0 (by simp [hc]), fun j hj => by simpa using h (j + 1) hj⟩
  · rintro ⟨hw, h⟩ j hj
    cases j with
    | zero => simpa using hw (by simpa using hj)
    | succ j => simpa using h j (by simpa using hj)

theorem comesThrough_zero_iff : ComesThrough (v :: vs) cs 0 ↔ v = true ∧ AllHold vs cs := by
  constructor
  · rintro ⟨hv, -, hlasts⟩
    exact ⟨by simpa using hv, fun j hj => by simpa using hlasts (j + 1) (by omega) hj⟩
  · rintro ⟨rfl, h⟩
    refine ⟨rfl, .inl rfl, fun j hj hc => ?_⟩
    obtain ⟨j, rfl⟩ := Nat.exists_eq_add_of_lt hj
    simpa using h j (by simpa using hc)

theorem comesThrough_succ_iff : ComesThrough (v :: vs) cs (i + 1) ↔
    cs[i]? = some .or ∧ vs[i]? = some true ∧
      ∀ j, i < j → cs[j]? = some .and → vs[j]? = some true := by
  constructor
  · rintro ⟨hv, hc, hlasts⟩
    exact ⟨by simpa using hc, by simpa using hv,
      fun j hj hand => by simpa using hlasts (j + 1) (by omega) hand⟩
  · rintro ⟨hc, hv, hlasts⟩
    refine ⟨by simpa using hv, .inr hc, fun j hj hand => ?_⟩
    obtain ⟨j, rfl⟩ : ∃ k, j = k + 1 := ⟨j - 1, by omega⟩
    simpa using hlasts j (by omega) hand

/-- From the third value on it is the same whether the first two have been joined already. -/
theorem comesThrough_cons_succ_iff :
    ComesThrough (v :: w :: vs) (c :: cs) (i + 2) ↔ ComesThrough (x :: vs) cs (i + 1) := by
  rw [comesThrough_succ_iff, comesThrough_succ_iff]
  refine and_congr Iff.rfl (and_congr Iff.rfl
    ⟨fun h j hj => h (j + 1) (by omega), fun h j hj => ?_⟩)
  obtain ⟨j, rfl⟩ : ∃ k, j = k + 1 := ⟨j - 1, by omega⟩
  exact h j (by omega)

theorem comesThrough_one_iff :
    ComesThrough (v :: w :: vs) (c :: cs) 1 ↔ c = .or ∧ w = true ∧ AllHold vs cs := by
  rw [comesThrough_succ_iff]
  refine and_congr (by simp) (and_congr (by simp) ⟨fun h j hj => ?_, fun h j hj hand => ?_⟩)
  · simpa using h (j + 1) (by omega) (by simpa using hj)
  · obtain ⟨j, rfl⟩ : ∃ k, j = k + 1 := ⟨j - 1, by omega⟩
    simpa using h j (by simpa using hand)

/-- Joining the first two values keeps whether one of the values comes through. -/
theorem exists_comesThrough_cons_iff : (∃ i, ComesThrough (v :: w :: vs) (c :: cs) i) ↔
    ∃ i, ComesThrough (c.apply v w :: vs) cs i := by
  have hfirst : ComesThrough (v :: w :: vs) (c :: cs) 0 ∨ ComesThrough (v :: w :: vs) (c :: cs) 1 ↔
      ComesThrough (c.apply v w :: vs) cs 0 := by
    rw [comesThrough_zero_iff, comesThrough_one_iff, comesThrough_zero_iff, allHold_cons_iff]
    cases c <;> simp [Connective.apply] <;> tauto
  constructor
  · rintro ⟨i, h⟩
    match i with
    | 0 => exact ⟨0, hfirst.mp (.inl h)⟩
    | 1 => exact ⟨0, hfirst.mp (.inr h)⟩
    | i + 2 => exact ⟨i + 1, comesThrough_cons_succ_iff.mp h⟩
  · rintro ⟨i, h⟩
    cases i with
    | zero => exact (hfirst.mpr h).elim (⟨0, ·⟩) (⟨1, ·⟩)
    | succ i => exact ⟨i + 2, comesThrough_cons_succ_iff.mpr h⟩

end Step

/-! ## The whole fold -/

section Fold

variable {v w : Bool} {vs ws values values' : List Bool} {cs connectives : List Connective}
  {k : Connective}

theorem foldTruth_eq_true_iff (h : vs.length = cs.length) :
    foldTruth v (cs.zip vs) = true ↔ ∃ i, ComesThrough (v :: vs) cs i := by
  induction cs generalizing v vs with
  | nil =>
    obtain rfl := List.length_eq_zero_iff.mp h
    constructor
    · intro hv
      exact ⟨0, comesThrough_zero_iff.mpr ⟨hv, fun j hj => nomatch hj⟩⟩
    · rintro ⟨i, h⟩
      cases i with
      | zero => exact (comesThrough_zero_iff.mp h).1
      | succ i => exact nomatch (comesThrough_succ_iff.mp h).1
  | cons c cs ih =>
    obtain ⟨w, vs, rfl⟩ := List.exists_cons_of_length_eq_add_one h
    exact (ih (Nat.succ.inj h)).trans exists_comesThrough_cons_iff.symm

theorem Connective.apply_mono (c : Connective) {v v' w w' : Bool} (hv : v ≤ v') (hw : w ≤ w') :
    c.apply v w ≤ c.apply v' w' := by
  cases c <;> (revert v v' w w'; decide)

theorem foldTruth_mono (hv : v ≤ w) (h : List.Forall₂ (· ≤ ·) vs ws) (cs : List Connective) :
    foldTruth v (cs.zip vs) ≤ foldTruth w (cs.zip ws) := by
  induction h generalizing v w cs with
  | nil => simpa [foldTruth] using hv
  | cons hx _ ih =>
    cases cs with
    | nil => exact hv
    | cons c cs => exact ih (c.apply_mono hv hx) cs

/-- The value that a connective takes no notice of. -/
def Connective.neutral : Connective → Bool
  | .and => true
  | .or => false

theorem Connective.neutral_apply (k : Connective) (v : Bool) : k.apply k.neutral v = v := by
  cases k <;> rfl

theorem Connective.apply_right_comm (k : Connective) (u v w : Bool) :
    k.apply (k.apply u v) w = k.apply (k.apply u w) v := by
  cases k <;> (revert u v w; decide)

/-- With one connective throughout, a fold goes over the values alone. -/
theorem foldTruth_eq_foldl (h : vs.length = cs.length) (hk : ∀ c ∈ cs, c = k) :
    foldTruth v (cs.zip vs) = vs.foldl k.apply v := by
  induction cs generalizing v vs with
  | nil => rw [List.length_eq_zero_iff.mp h]; rfl
  | cons c cs ih =>
    obtain ⟨w, vs, rfl⟩ := List.exists_cons_of_length_eq_add_one h
    obtain ⟨rfl, hk⟩ := List.forall_mem_cons.mp hk
    exact ih (Nat.succ.inj h) hk

theorem foldValues_eq_foldl (h : values.length = cs.length + 1) (hk : ∀ c ∈ cs, c = k) :
    foldValues values cs = .ok (values.foldl k.apply k.neutral) := by
  obtain ⟨v, vs, rfl⟩ := List.exists_cons_of_length_eq_add_one h
  rw [foldValues, foldTruth_eq_foldl (Nat.succ.inj h) hk, List.foldl_cons, k.neutral_apply]

theorem foldValues_perm (h : values.length = cs.length + 1) (hk : ∀ c ∈ cs, c = k)
    (hperm : values.Perm values') : foldValues values' cs = foldValues values cs := by
  have hcomm : values'.foldl k.apply k.neutral = values.foldl k.apply k.neutral :=
    (hperm.foldl_eq' (fun x _ y _ z => k.apply_right_comm z x y) k.neutral).symm
  rw [foldValues_eq_foldl (hperm.length_eq ▸ h) hk, foldValues_eq_foldl h hk, hcomm]

/-- A fold is true just if one of its values comes through. It is monotone in every value, and with
one connective throughout it does not depend on their order. -/
theorem foldValues_comesThrough (h : values.length = connectives.length + 1) :
    (∃ b, foldValues values connectives = .ok b ∧
      (b = true ↔ ∃ i, ComesThrough values connectives i)) ∧
    (∀ values', List.Forall₂ (· ≤ ·) values values' →
      foldValues values connectives = .ok true → foldValues values' connectives = .ok true) ∧
    ∀ k, (∀ c ∈ connectives, c = k) → ∀ values', values.Perm values' →
      foldValues values' connectives = foldValues values connectives := by
  obtain ⟨v, vs, rfl⟩ := List.exists_cons_of_length_eq_add_one h
  refine ⟨⟨_, rfl, foldTruth_eq_true_iff (Nat.succ.inj h)⟩, fun values' hle htrue => ?_,
    fun k hk values' hperm => foldValues_perm h hk hperm⟩
  obtain ⟨w, ws, hw, hws, rfl⟩ := List.forall₂_cons_left_iff.mp hle
  exact congrArg Except.ok (foldTruth_mono hw hws connectives (Except.ok.inj htrue))

theorem foldValues_comesThrough_mixed :
    [true, false, true].length = [Connective.or, .and].length + 1 ∧
      (∃ i, ComesThrough [true, false, true] [.or, .and] i) ∧
      foldValues [true, true, true] [.or, .and] = .ok true ∧
      [true, false, true].length = [Connective.or, .or].length + 1 ∧
      foldValues [false, true, true] [.or, .or] = foldValues [true, false, true] [.or, .or] := by
  have hmixed : [true, false, true].length = [Connective.or, .and].length + 1 := rfl
  have hsame : [true, false, true].length = [Connective.or, .or].length + 1 := rfl
  obtain ⟨⟨b, hb, hthrough⟩, hmono, -⟩ := foldValues_comesThrough hmixed
  obtain ⟨-, -, hperm⟩ := foldValues_comesThrough hsame
  refine ⟨hmixed, hthrough.mp (Except.ok.inj hb).symm, hmono _ ?_ rfl, hsame, ?_⟩
  · exact .cons (Bool.le_refl _) (.cons (Bool.false_le _) (.cons (Bool.le_refl _) .nil))
  · exact hperm .or (by decide) _ (by decide)

/-- No connective binds before another. -/
example : foldValues [true, false, false] [.or, .and] = .ok false := rfl

end Fold

end Rulebook
