import Rulebook.Value.Basic

/-!
# Entries by their keys

What a mapping is, seen through its keys: a look-up finds an entry that is there
(`Entries.exists_mem_of_find?`), an insertion adds at most its own key (`Entries.keys_insert`), and
entries without a repeated key are known from their keys and what a look-up finds under each of them
(`Entries.eq_of_find?`).
-/

namespace Rulebook

namespace Entries

variable {es es' : Entries} {key key' v : Value}

/-! ## Look-ups -/

theorem exists_mem_of_find? (h : es.find? key = some v) : ∃ k, (k, v) ∈ es := by
  induction es with
  | nil => cases h
  | cons e es ih =>
    rw [find?] at h
    split at h
    · exact ⟨e.1, Option.some.inj h ▸ List.mem_cons_self⟩
    · obtain ⟨k, hk⟩ := ih h
      exact ⟨k, List.mem_cons_of_mem e hk⟩

theorem find?_congr (h : key.keyForm = key'.keyForm) (es : Entries) :
    es.find? key = es.find? key' := by
  induction es with
  | nil => rfl
  | cons e es ih => rw [find?, find?, ih, Value.sameKey, Value.sameKey, h]

theorem find?_eq_none_iff : es.find? key = none ↔ ∀ k ∈ es.keys, k.keyForm ≠ key.keyForm := by
  induction es with
  | nil => exact iff_of_true rfl nofun
  | cons e es ih =>
    show (if e.1.sameKey key then some e.2 else find? es key) = none ↔ ∀ k ∈ e.1 :: keys es, _
    rw [List.forall_mem_cons, ← ih]
    by_cases hk : e.1.keyForm = key.keyForm
    · simp [hk]
    · simp [hk]

theorem contains_congr (h : key.keyForm = key'.keyForm) (es : Entries) :
    es.contains key = es.contains key' := by rw [contains, contains, find?_congr h]

theorem contains_eq_false_iff :
    es.contains key = false ↔ ∀ k ∈ es.keys, k.keyForm ≠ key.keyForm := by
  rw [contains, Option.isSome_eq_false_iff, Option.isNone_iff_eq_none, find?_eq_none_iff]

theorem find?_append (es es' : Entries) (key : Value) :
    find? (es ++ es') key = (es.find? key).or (es'.find? key) := by
  induction es with
  | nil => rfl
  | cons e es ih =>
    show (if e.1.sameKey key then some e.2 else find? (es ++ es') key) =
      (if e.1.sameKey key then some e.2 else find? es key).or (find? es' key)
    rw [ih]
    split <;> rfl

/-! ## Insertions -/

theorem contains_insert (es : Entries) (key v key' : Value) :
    (es.insert key v).contains key' = (key.sameKey key' || es.contains key') := by
  rw [contains, find?_insert, contains]
  cases key.sameKey key' <;> rfl

theorem keys_insert (es : Entries) (key v : Value) :
    (es.insert key v).keys = if es.contains key then es.keys else es.keys ++ [key] := by
  induction es with
  | nil => rfl
  | cons e es ih =>
    rw [insert, contains, find?]
    split
    next => rfl
    next =>
      show e.1 :: keys (insert es key v) = if contains es key then e.1 :: keys es else _
      rw [ih]
      split <;> rfl

/-! ## Keys that stand once -/

/-- No key stands twice. -/
def IsDistinct (es : Entries) : Prop := es.keys.Pairwise fun a b => a.keyForm ≠ b.keyForm

instance (es : Entries) : Decidable es.IsDistinct := inferInstanceAs (Decidable (List.Pairwise _ _))

theorem isDistinct_iff_pairwise :
    es.IsDistinct ↔ es.Pairwise fun a b => a.1.keyForm ≠ b.1.keyForm := by
  unfold IsDistinct keys
  rw [List.pairwise_map]

/-- Entries of the same keys under which look-ups find the same are the same. -/
theorem eq_of_find? (h : es.IsDistinct) (hkeys : es.keys = es'.keys)
    (hfind : ∀ key, es.find? key = es'.find? key) : es = es' := by
  induction es generalizing es' with
  | nil => exact (List.map_eq_nil_iff.mp hkeys.symm).symm
  | cons e es ih =>
    cases es' with
    | nil => cases hkeys
    | cons e' es' =>
      obtain ⟨k, v⟩ := e
      obtain ⟨k', v'⟩ := e'
      obtain ⟨rfl, hrest⟩ : k = k' ∧ keys es = keys es' := List.cons.inj hkeys
      obtain ⟨hfirst, hdistinct⟩ := List.pairwise_cons.mp h
      obtain rfl : v = v' := by simpa [find?] using hfind k
      congr 1
      refine ih hdistinct hrest fun key => ?_
      by_cases hk : k.keyForm = key.keyForm
      · have hnone : ∀ a ∈ keys es, a.keyForm ≠ key.keyForm := fun a ha heq =>
          hfirst a ha (hk.trans heq.symm)
        rw [find?_eq_none_iff.mpr hnone, find?_eq_none_iff.mpr (hrest ▸ hnone)]
      · simpa [find?, hk] using hfind key

end Entries

end Rulebook
