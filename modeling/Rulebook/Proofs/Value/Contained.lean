import Mathlib.Logic.Relation
import Rulebook.Proofs.Value.Keyed
import Rulebook.Proofs.Value.Preferred

/-!
# What a lookup comes to

A lookup never leaves the data that it starts from: each step of a descent goes to an item of a list
or to what stands under a key of a mapping, so the value found is contained in the data
(`Value.contains_of_resolve`). It comes to an end except where a descent stumbles, and where the
data itself cannot be asked for a key (`Value.resolve_found_iff`).
-/

namespace Rulebook

namespace Value

/-! ## Values inside a value -/

/-- The items of a list; what stands under the keys of a mapping. -/
def children : Value → List Value
  | .list items => items
  | .map es => es.map (·.2)
  | _ => []

/-- One value is somewhere inside another. -/
def Contains : Value → Value → Prop := Relation.TransGen fun v w => w ∈ v.children

variable {v w : Value} {part path : String} {parts : List String}

theorem mem_children_of_field? (h : v.field? path = some w) : w ∈ v.children := by
  cases v with
  | map es =>
    obtain ⟨k, hk⟩ := Entries.exists_mem_of_find? h
    exact List.mem_map.mpr ⟨(k, w), hk, rfl⟩
  | _ => cases h

theorem mem_children_of_part? (h : v.part? part = .ok (some w)) : w ∈ v.children := by
  cases v with
  | map es => exact mem_children_of_field? (v := map es) (Except.ok.inj h)
  | list items =>
    unfold part? at h
    cases hindex : listIndex? part with
    | error e =>
      rw [hindex] at h
      cases h
    | ok index =>
      rw [hindex] at h
      cases index with
      | none => cases h
      | some n => exact List.mem_of_getElem? (Except.ok.inj h)
  | _ => cases h

/-- A descent comes to a value by its first step and a descent from there. -/
theorem descend_cons_eq_some_iff : v.descend (part :: parts) = .ok (some w) ↔
    ∃ x, v.part? part = .ok (some x) ∧ x.descend parts = .ok (some w) := by
  rw [descend]
  constructor
  · intro h
    cases hstep : v.part? part with
    | error e =>
      rw [hstep] at h
      cases h
    | ok found =>
      rw [hstep] at h
      cases found with
      | none => cases h
      | some x => exact ⟨x, rfl, h⟩
  · rintro ⟨x, hstep, hrest⟩
    rw [hstep]
    exact hrest

/-- What a descent of at least one step comes to is inside the value that it starts from. -/
theorem contains_of_descend (h : v.descend (part :: parts) = .ok (some w)) : v.Contains w := by
  induction parts generalizing v part with
  | nil =>
    obtain ⟨x, hstep, hend⟩ := descend_cons_eq_some_iff.mp h
    obtain rfl : x = w := Option.some.inj (Except.ok.inj hend)
    exact .single (mem_children_of_part? hstep)
  | cons next parts ih =>
    obtain ⟨x, hstep, hrest⟩ := descend_cons_eq_some_iff.mp h
    exact .head (mem_children_of_part? hstep) (ih hrest)

/-- What a lookup finds stands under the path as a key or is what the descent comes to. -/
theorem resolve_eq_some (h : v.resolve path = .ok (some w)) :
    v.field? path = some w ∨ v.descend (dottedParts path) = .ok (some w) := by
  have hsearched (h : (if v.holds path then .error (.shape .kind)
      else v.descend (dottedParts path)) = Except.ok (some w)) :
      v.descend (dottedParts path) = .ok (some w) := by
    split at h
    · cases h
    · exact h
  cases v with
  | map es =>
    unfold resolve at h
    dsimp only at h
    cases hkey : Entries.field? es path with
    | some x =>
      rw [hkey] at h
      exact .inl (hkey.trans (Except.ok.inj h))
    | none =>
      rw [hkey] at h
      exact .inr h
  | list items => exact .inr (hsearched h)
  | str s => exact .inr (hsearched h)
  | set members => exact .inr (hsearched h)
  | _ => cases h

theorem contains_of_resolve (h : v.resolve path = .ok (some w)) : v.Contains w := by
  rcases resolve_eq_some h with hkey | hdescend
  · exact .single (mem_children_of_field? hkey)
  · cases hparts : dottedParts path with
    | nil => exact absurd (List.map_eq_nil_iff.mp hparts) (Blank.splitWhere_ne_nil _ _)
    | cons part parts => exact contains_of_descend (hparts ▸ hdescend)

/-! ## Where a lookup ends -/

/-- Only a mapping has keys. A list, a text or a set can still be searched for the path, but not
when it holds the path itself; nothing else can be asked for one. -/
def Refuses (v : Value) (path : String) : Prop :=
  match v with
  | .map _ => False
  | .list _ | .str _ | .set _ => v.holds path = true
  | _ => True

theorem exists_descend_iff (v : Value) (parts : List String) :
    (∃ found, v.descend parts = .ok found) ↔ ¬v.Stumbles parts := by
  rcases v.descend_cases parts with ⟨hok, hno⟩ | ⟨⟨e, he⟩, hstumbles⟩
  · exact iff_of_true hok hno
  · exact iff_of_false (fun ⟨_, hok⟩ => nomatch he.symm.trans hok) fun hno => hno hstumbles

theorem exists_resolve_iff (v : Value) (path : String) : (∃ found, v.resolve path = .ok found) ↔
    ¬v.Refuses path ∧ ((v.field? path).isSome = true ∨ ¬v.Stumbles (dottedParts path)) := by
  have hsearched (hnone : v.field? path = none) (hresolve : v.resolve path =
      if v.holds path then .error (.shape .kind) else v.descend (dottedParts path)) :
      (∃ found, v.resolve path = .ok found) ↔ ¬(v.holds path = true) ∧
        ((v.field? path).isSome = true ∨ ¬v.Stumbles (dottedParts path)) := by
    rw [hresolve, hnone, ← exists_descend_iff]
    split
    next h => simp [h]
    next h => simp [h]
  cases v with
  | map es =>
    rcases resolve_map_cases es path with ⟨hok, hno⟩ | ⟨⟨e, he⟩, hkey, hstumbles⟩
    · refine iff_of_true hok ⟨id, ?_⟩
      show (Entries.field? es path).isSome = true ∨ _
      cases hkey : Entries.field? es path with
      | some w => exact .inl rfl
      | none => exact .inr fun hstumbles => hno ⟨hkey, hstumbles⟩
    · refine iff_of_false (fun ⟨_, hok⟩ => nomatch he.symm.trans hok) fun ⟨_, h⟩ => ?_
      have hfield : (map es).field? path = none := hkey
      rw [hfield] at h
      exact h.elim (fun h => nomatch h) fun h => h hstumbles
  | list items => exact hsearched rfl rfl
  | str s => exact hsearched rfl rfl
  | set members => exact hsearched rfl rfl
  | _ => exact iff_of_false (fun ⟨_, h⟩ => nomatch h) fun h => h.1 trivial

/-- A lookup ends, with nothing or with a value inside the data, just if the data does not refuse
the path, and the path is a key or descending along it does not stumble. A part of a path is read as
a position, by its decimal digits, just if it is not made of digits that write no number. -/
theorem resolve_found_iff (v : Value) (path part : String) :
    ((∃ found, v.resolve path = .ok found ∧ ∀ w ∈ found, v.Contains w) ↔
      ¬v.Refuses path ∧ ((v.field? path).isSome = true ∨ ¬v.Stumbles (dottedParts path))) ∧
    (listIndex? part = .ok (position? part) ↔ ¬IsNoPosition part) := by
  refine ⟨?_, fun hok hno => ?_, listIndex?_eq_ok⟩
  · rw [← exists_resolve_iff]
    refine ⟨fun ⟨found, hok, _⟩ => ⟨found, hok⟩, fun ⟨found, hok⟩ => ⟨found, hok, fun w hw => ?_⟩⟩
    exact contains_of_resolve (hok.trans (congrArg _ (Option.mem_def.mp hw)))
  · rcases listIndex?_cases part with ⟨-, hposition⟩ | ⟨⟨e, he⟩, -⟩
    · exact hposition hno
    · cases he.symm.trans hok

/-- A superscript in front of a list is a digit, and no number can be made of it. -/
theorem not_forall_resolve_found : ¬∀ (es : Entries) (path : String),
    ∃ found, (map es).resolve path = .ok found ∧ ∀ w ∈ found, (map es).Contains w := by
  intro h
  obtain ⟨found, hfound, -⟩ := h [(.str "l", .list [.int 1])] "l.²"
  have hfails : (map [(.str "l", .list [.int 1])]).resolve "l.²" =
      .error (.badValue (.literal (.integer 10 "²"))) := rfl
  cases hfails.symm.trans hfound

end Value

end Rulebook
