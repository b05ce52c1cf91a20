import Rulebook.Proofs.Value.Descent

/-!
# Keys with dots at every level

A key that holds dots can stand in any of the mappings that a dotted path leads through. Following
the path with such keys in mind, at each mapping an entry under all that remains of the path comes
before the one under its next part (`Value.seek`). A lookup has them in mind at the first mapping
only, and `Value.resolve_eq_seek_iff` says when that makes no difference.
-/

namespace Rulebook

/-! ## Positions -/

/-- The number that decimal digits of any script write. -/
def position? (part : String) : Option Nat :=
  if part = "" then none else (part.toList.mapM Digit.decimal?).map (Literal.ofDigits 10)

theorem isSome_of_mapM {f : α → Option β} {xs : List α} {ys : List β} (h : xs.mapM f = some ys) :
    ∀ x ∈ xs, (f x).isSome = true := by
  induction xs generalizing ys with
  | nil => exact fun _ hx => nomatch hx
  | cons x xs ih =>
    rw [List.mapM_cons] at h
    cases hx : f x with
    | none =>
      rw [hx] at h
      cases h
    | some y =>
      cases hxs : xs.mapM f with
      | none =>
        rw [hx, hxs] at h
        cases h
      | some zs => exact List.forall_mem_cons.mpr ⟨by rw [hx]; rfl, ih hxs⟩

/-- A part that fails to be a position only where it looks like one is read as one otherwise. -/
theorem listIndex?_eq_ok {part : String} (h : ¬IsNoPosition part) :
    listIndex? part = .ok (position? part) := by
  unfold listIndex? position?
  by_cases hempty : part = ""
  · simp [hempty]
  have hne : part.toList ≠ [] := by simpa using hempty
  simp only [ne_eq, hempty, not_false_eq_true, decide_true, Bool.true_and, ↓reduceIte]
  split
  next hdigits =>
    have hdigits := List.all_eq_true.mp hdigits
    have herror := mt (Literal.integer_eq_error_iff hne hdigits).mp fun hfails =>
      h ⟨hempty, hdigits, by rwa [String.length_toList] at hfails⟩
    rw [Literal.integer_of_digits hne hdigits] at herror ⊢
    cases hds : part.toList.mapM Digit.decimal? with
    | none =>
      rw [hds] at herror
      exact absurd ⟨_, rfl⟩ herror
    | some ds =>
      rw [hds] at herror
      dsimp only at herror ⊢
      split at herror
      next => exact absurd ⟨_, rfl⟩ herror
      next hlimit =>
        rw [if_neg hlimit]
        rfl
  next hdigits =>
    cases hds : part.toList.mapM Digit.decimal? with
    | none => rfl
    | some ds =>
      refine absurd (List.all_eq_true.mpr fun c hc => ?_) hdigits
      rw [Digit.isDigitLike, Digit.isDecimal, isSome_of_mapM hds c hc]
      rfl

/-! ## Following a path -/

theorem intercalate_dottedParts (path : String) : ".".intercalate (dottedParts path) = path := by
  rw [← String.toList_inj, String.toList_intercalate, dottedParts, List.map_map]
  have hid : String.toList ∘ String.ofList = id := funext fun s => String.toList_ofList
  rw [hid, List.map_id]
  exact Blank.intercalate_splitWhere '.' path.toList

namespace Value

/-- The entry of a mapping under the key `part`, or the item of a list at the position `part`. -/
def child? (v : Value) (part : String) : Option Value :=
  match v with
  | .map es => Entries.field? es part
  | .list items => (position? part).bind (items[·]?)
  | _ => none

/-- The value at the end of a path. At each mapping an entry under all the parts that remain, with
dots between them, ends the path there; only without one the next part leads on. -/
def seek (v : Value) : List String → Option Value
  | [] => some v
  | part :: parts =>
    match v.field? (".".intercalate (part :: parts)) with
    | some w => some w
    | none => (v.child? part).bind fun w => w.seek parts

variable {v w : Value} {part : String} {parts : List String}

theorem part?_eq_ok (h : ¬((∃ items, v = .list items) ∧ IsNoPosition part)) :
    v.part? part = .ok (v.child? part) := by
  cases v with
  | list items =>
    have hpart : ¬IsNoPosition part := fun hno => h ⟨⟨items, rfl⟩, hno⟩
    unfold part?
    rw [listIndex?_eq_ok hpart, child?]
    cases position? part <;> rfl
  | _ => rfl

/-- On the way from a value, a mapping has a key for all that remains of the path, and descending
part by part comes to something else than the entry there. -/
inductive Overlooks : Value → List String → Prop
  | here {v w : Value} {part : String} {parts : List String}
    (key : v.field? (".".intercalate (part :: parts)) = some w)
    (other : v.descend (part :: parts) ≠ .ok (some w)) : Overlooks v (part :: parts)
  | later {v w : Value} {part : String} {parts : List String}
    (noKey : v.field? (".".intercalate (part :: parts)) = none) (step : v.child? part = some w)
    (more : Overlooks w parts) : Overlooks v (part :: parts)

theorem descend_of_child? (h : ¬((∃ items, v = .list items) ∧ IsNoPosition part)) :
    v.descend (part :: parts) = match v.child? part with
      | some w => w.descend parts
      | none => .ok none := by
  rw [descend, part?_eq_ok h]
  cases v.child? part <;> rfl

theorem not_stumbles_of_descend {x : Option Value} (h : v.descend parts = .ok x) :
    ¬v.Stumbles parts := by
  rcases v.descend_cases parts with ⟨-, hno⟩ | ⟨⟨e, he⟩, -⟩
  · exact hno
  · cases h.symm.trans he

/-- Descending comes to the value sought just if it does not stumble and overlooks no key. -/
theorem descend_eq_seek_iff (v : Value) (parts : List String) :
    v.descend parts = .ok (v.seek parts) ↔ ¬v.Stumbles parts ∧ ¬v.Overlooks parts := by
  refine ⟨fun h => ⟨not_stumbles_of_descend h, fun hover => ?_⟩, fun h => ?_⟩
  · induction hover with
    | here key other =>
      rw [seek, key] at h
      exact other h
    | @later v w part parts noKey step _ ih =>
      refine ih ?_
      have hpos : ¬((∃ items, v = .list items) ∧ IsNoPosition part) := fun ⟨⟨_, hv⟩, hno⟩ =>
        not_stumbles_of_descend h (hv ▸ .here hno)
      rw [descend_of_child? hpos, seek, noKey, step] at h
      exact h
  · obtain ⟨hstumbles, hover⟩ := h
    induction parts generalizing v with
    | nil => rfl
    | cons part parts ih =>
      have hpos : ¬((∃ items, v = .list items) ∧ IsNoPosition part) := fun ⟨⟨_, hv⟩, hno⟩ =>
        hstumbles (hv ▸ .here hno)
      cases hkey : v.field? (".".intercalate (part :: parts)) with
      | some w =>
        rw [seek, hkey]
        exact Classical.byContradiction fun hother =>
          hover (.here hkey hother)
      | none =>
        rw [descend_of_child? hpos, seek, hkey]
        cases hstep : v.child? part with
        | none => rfl
        | some w =>
          refine ih w (fun h => hstumbles (.later ?_ h)) fun h => hover (.later hkey hstep h)
          rw [part?_eq_ok hpos, hstep]

/-- A lookup in a mapping or a list finds the value sought just if the path is not an item of the
list, and the path as a whole is a key of the mapping, or descending along it meets no list with
digits that write no number and overlooks no key. -/
theorem resolve_eq_seek_iff {v : Value} (hv : (∃ es, v = .map es) ∨ ∃ items, v = .list items)
    (path : String) : v.resolve path = .ok (v.seek (dottedParts path)) ↔
      v.holds path = false ∧ ((v.field? path).isSome = true ∨
        ¬v.Stumbles (dottedParts path) ∧ ¬v.Overlooks (dottedParts path)) := by
  rw [← descend_eq_seek_iff]
  have hseek (w : Value) (hw : v.field? path = some w) : v.seek (dottedParts path) = some w := by
    cases hparts : dottedParts path with
    | nil => exact absurd (List.map_eq_nil_iff.mp hparts) (Blank.splitWhere_ne_nil _ _)
    | cons part parts => rw [seek, ← hparts, intercalate_dottedParts, hw]
  rcases hv with ⟨es, rfl⟩ | ⟨items, rfl⟩
  · cases hkey : Entries.field? es path with
    | some w =>
      have hfield : (map es).field? path = some w := hkey
      rw [hseek w hfield, resolve, hkey, hfield]
      exact iff_of_true rfl ⟨rfl, .inl rfl⟩
    | none =>
      have hfield : (map es).field? path = none := hkey
      rw [resolve, hkey, hfield]
      simp [holds]
  · cases hholds : (list items).holds path with
    | true =>
      rw [resolve, hholds, if_pos rfl]
      exact iff_of_false (fun h => nomatch h) fun h => nomatch h.1
    | false =>
      rw [resolve, hholds]
      simp [field?]

/-- A key with a dot below a list, where descending part by part finds nothing; and one at the first
mapping, beside a longer way to another value. -/
theorem resolve_eq_seek_iff_below_list :
    let below := map [(.str "a", .list [.map [(.str "b.c", .int 1)]])]
    let first := map [(.str "a.b", .int 1), (.str "a", .map [(.str "b", .int 2)])]
    (below.Overlooks (dottedParts "a.0.b.c") ∧ below.seek (dottedParts "a.0.b.c") = some (.int 1) ∧
      below.resolve "a.0.b.c" ≠ .ok (below.seek (dottedParts "a.0.b.c"))) ∧
    (first.holds "a.b" = false ∧ (first.field? "a.b").isSome = true ∧
      first.resolve "a.b" = .ok (first.seek (dottedParts "a.b"))) := by
  intro below first
  have hparts : dottedParts "a.0.b.c" = ["a", "0", "b", "c"] := by decide
  have hover : below.Overlooks (dottedParts "a.0.b.c") := by
    rw [hparts]
    refine .later (by decide) rfl (.later rfl rfl (.here (w := .int 1) (by decide) fun h => ?_))
    cases h
  have hkey : (first.field? "a.b").isSome = true := by decide
  exact ⟨⟨hover, by rw [hparts]; decide, fun h =>
      (((resolve_eq_seek_iff (.inl ⟨_, rfl⟩) _).mp h).2.resolve_left (by decide)).2 hover⟩,
    rfl, hkey, (resolve_eq_seek_iff (.inl ⟨_, rfl⟩) _).mpr ⟨rfl, .inl hkey⟩⟩

/-- Below the first mapping a key with dots is not found. -/
theorem not_forall_resolve_eq_seek : ¬∀ (es : Entries) (path : String),
    (map es).resolve path = .ok ((map es).seek (dottedParts path)) := by
  intro h
  have hsought : (map [(.str "a", .map [(.str "b.c", .int 1)])]).seek (dottedParts "a.b.c") =
      some (.int 1) := by decide
  have hfound : (map [(.str "a", .map [(.str "b.c", .int 1)])]).resolve "a.b.c" = .ok none := rfl
  have hsame := h [(.str "a", .map [(.str "b.c", .int 1)])] "a.b.c"
  rw [hsought, hfound] at hsame
  cases hsame

end Value

end Rulebook
