import Rulebook.Value.Linked

/-!
# Shared mappings without their marks

Without marks, looking up, inserting and merging are what they are for plain entries
(`Links.find?_bare`, `Links.bare_insert`, `Links.bare_merge`).
-/

namespace Rulebook

theorem map_mergeLists {α : Type} (f : α → Value) (base override : List α) :
    (mergeLists f base override).map f = mergeLists id (base.map f) (override.map f) := by
  cases override with
  | nil => rfl
  | cons first rest =>
    simp only [mergeLists, List.map_cons, id_eq]
    split
    · exact List.map_append
    · split <;> rfl

theorem Linked.bareItems_eq_map (ls : List Linked) : Linked.bareItems ls = ls.map Linked.bare := by
  induction ls with
  | nil => rfl
  | cons l ls ih => exact congrArg (l.bare :: ·) ih

theorem Linked.bareItems_mergeLists (items above : List Linked) :
    Linked.bareItems (mergeLists Linked.bare items above) =
      mergeLists id (Linked.bareItems items) (Linked.bareItems above) := by
  simp only [Linked.bareItems_eq_map, map_mergeLists]

theorem Linked.bareItems_map_plain (vs : List Value) : Linked.bareItems (vs.map .plain) = vs := by
  induction vs with
  | nil => rfl
  | cons v vs ih => exact congrArg (v :: ·) ih

namespace Links

theorem find?_insert (es : Links) (key key' : Value) (l : Linked) :
    (es.insert key l).find? key' = if key.sameKey key' then some l else es.find? key' := by
  induction es with
  | nil => simp [insert, find?]
  | cons e es ih =>
    obtain ⟨k, x⟩ := e
    by_cases hk : k.keyForm = key.keyForm
    · simp only [insert, Value.sameKey_iff, hk, ↓reduceIte, find?]
      split <;> simp_all
    · simp only [insert, Value.sameKey_iff, hk, ↓reduceIte, find?, ih]
      by_cases hk' : key.keyForm = key'.keyForm
      · simp [← hk', hk]
      · simp [hk']

theorem find?_bare (es : Links) (key : Value) :
    Entries.find? es.bare key = (es.find? key).map Linked.bare := by
  induction es with
  | nil => rfl
  | cons e es ih =>
    simp only [bare, Entries.find?, find?, ih]
    split <;> rfl

theorem bare_insert (es : Links) (key : Value) (l : Linked) :
    (es.insert key l).bare = Entries.insert es.bare key l.bare := by
  induction es with
  | nil => rfl
  | cons e es ih =>
    simp only [insert, bare, Entries.insert]
    split
    · rfl
    · rw [bare, ih]

theorem bare_ofEntries (es : Entries) : (ofEntries es).bare = es := by
  induction es with
  | nil => rfl
  | cons e es ih => exact congrArg (e :: ·) ih

end Links

mutual

theorem Linked.bare_merge (base : Linked) :
    ∀ override : Linked, (base.merge override).bare = base.bare.merge override.bare
  | .plain v => by cases base <;> rfl
  | .list above => by
    cases base with
    | list items => exact congrArg Value.list (Linked.bareItems_mergeLists items above)
    | map => rfl
    | plain v =>
      cases v with
      | list items =>
        have hitems := Linked.bareItems_mergeLists (items.map .plain) above
        rw [Linked.bareItems_map_plain] at hitems
        exact congrArg Value.list hitems
      | _ => rfl
  | .map mark above => by
    cases base with
    | map _ es => exact congrArg Value.map (Links.bare_merge es above)
    | list => rfl
    | plain v =>
      cases v with
      | map es =>
        have hes := Links.bare_merge (Links.ofEntries es) above
        rw [Links.bare_ofEntries] at hes
        exact congrArg Value.map hes
      | _ => rfl

theorem Links.bare_merge (base : Links) :
    ∀ above : Links, (Links.merge base above).bare = Value.mergeEntries base.bare above.bare
  | [] => rfl
  | (k, l) :: above => by
    rw [Links.merge, Links.bare, Value.mergeEntries, Links.bare_merge _ above, Links.bare_insert,
      Links.find?_bare]
    cases base.find? k with
    | none => rfl
    | some below =>
      show Value.mergeEntries (Entries.insert base.bare k (below.merge l).bare)
        (Links.bare above) = _
      rw [Linked.bare_merge below l]
      rfl

end

end Rulebook
