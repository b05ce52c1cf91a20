import Rulebook.Proofs.Config.Present
import Rulebook.Proofs.Value.Keyed

/-!
# Merged mappings

What merging makes of two mappings: the keys of the lower one and then those that the upper one adds
(`Value.keys_mergeEntries`), and under each key what the overlay makes of the value there
(`Value.find?_mergeEntries`). So it is at every way into the overlay (`Value.at?_merge`), as long as
no mapping on it has a key twice. What is loaded is merged with the mappings that it shares, and is
the same without their marks (`Links.bare_merge`).
-/

namespace Rulebook

theorem Links.find?_ofEntries (es : Entries) (key : Value) :
    (ofEntries es).find? key = (es.find? key).map .plain := by
  induction es with
  | nil => rfl
  | cons e es ih =>
    rw [Entries.find?]
    show (if e.1.sameKey key then some (.plain e.2) else find? (ofEntries es) key) = _
    rw [ih]
    split <;> rfl

/-! ## Lists -/

/-- The first item of a list that says what is to be done with the rest. -/
def Value.IsMarker (v : Value) : Prop := v = .str "+" ∨ v = .str "="

instance (v : Value) : Decidable v.IsMarker := inferInstanceAs (Decidable (_ ∨ _))

theorem mergeLists_of_not_isMarker {first : Value} (h : ¬first.IsMarker) (items rest : List Value) :
    mergeLists id items (first :: rest) = first :: rest := by
  obtain ⟨hplus, hequals⟩ := not_or.mp h
  rw [mergeLists, id, if_neg hplus, if_neg hequals]

theorem mergeLists_of_isMarker {first : Value} (h : first.IsMarker) (items rest : List Value) :
    mergeLists id items (first :: rest) = if first = .str "+" then items ++ rest else rest := by
  rcases h with rfl | rfl
  · rfl
  · rfl

namespace Value

variable {es above : Entries} {base override key v w : Value} {path : List Value}

/-! ## Mappings key by key -/

theorem overlay_map (es above : Entries) :
    (map es).overlay (map above) = .ok (mergeEntries es above) := by
  rw [overlay, orEmpty_map]
  rfl

theorem find?_mergeEntries (h : above.IsDistinct) (es : Entries) (key : Value) :
    (mergeEntries es above).find? key = match above.find? key with
      | none => es.find? key
      | some v => some (((es.find? key).map fun below => below.merge v).getD v) := by
  -- mappings that share nothing are a case of those that do
  have hdistinct : (Links.ofEntries above).IsDistinct :=
    List.pairwise_map.mpr (Entries.isDistinct_iff_pairwise.mp h)
  have hlinks := congrArg (Option.map Linked.bare)
    (Links.find?_merge hdistinct (Links.ofEntries es) key)
  rw [← Links.find?_bare, Links.bare_merge, Links.bare_ofEntries, Links.bare_ofEntries,
    Links.find?_ofEntries, Links.find?_ofEntries] at hlinks
  rw [hlinks]
  cases above.find? key <;> cases es.find? key <;> rfl

/-- The keys of the lower mapping stay where they are; those that the overlay adds come after. -/
theorem keys_mergeEntries (h : above.IsDistinct) (es : Entries) :
    (mergeEntries es above).keys = es.keys ++ above.keys.filter fun k => !es.contains k := by
  induction above generalizing es with
  | nil => exact (List.append_nil _).symm
  | cons e above ih =>
    obtain ⟨k, v⟩ := e
    obtain ⟨hfirst, hrest⟩ := List.pairwise_cons.mp h
    -- inserting one key of the overlay brings in none of its others
    have hadded (w : Value) : (Entries.keys above).filter (fun a => !(es.insert k w).contains a) =
        (Entries.keys above).filter fun a => !es.contains a := by
      refine List.filter_congr fun a ha => ?_
      rw [Entries.contains_insert, Bool.eq_false_iff.mpr (mt sameKey_iff.mp (hfirst a ha))]
      rfl
    rw [mergeEntries, ih hrest, hadded, Entries.keys_insert]
    show _ = es.keys ++ (k :: Entries.keys above).filter fun a => !es.contains a
    rw [List.filter_cons]
    cases es.contains k with
    | true => rfl
    | false => exact List.append_assoc _ _ _

theorem isDistinct_mergeEntries (hes : es.IsDistinct) (habove : above.IsDistinct) :
    (mergeEntries es above).IsDistinct := by
  unfold Entries.IsDistinct
  rw [keys_mergeEntries habove]
  refine List.pairwise_append.mpr ⟨hes, habove.filter _, fun a ha b hb heq => ?_⟩
  have hnew : es.contains b = false := by simpa using (List.mem_filter.mp hb).2
  exact Entries.contains_eq_false_iff.mp hnew a ha heq

/-! ## Values at every depth -/

theorem at?_cons_eq_some_iff : v.at? (key :: path) = some w ↔
    ∃ es x, v = map es ∧ Entries.find? es key = some x ∧ x.at? path = some w := by
  constructor
  · intro h
    cases v with
    | map es =>
      obtain ⟨x, hx, hpath⟩ := Option.bind_eq_some_iff.mp h
      exact ⟨es, x, rfl, hx, hpath⟩
    | _ => cases h
  · rintro ⟨es, x, rfl, hx, hpath⟩
    rw [at?_map_cons, hx]
    exact hpath

theorem at?_cons_of_ne_map (h : ∀ es, v ≠ map es) : v.at? (key :: path) = none := by
  refine Option.eq_none_iff_forall_ne_some.mpr fun w hw => ?_
  obtain ⟨es, x, heq, -⟩ := at?_cons_eq_some_iff.mp hw
  exact h es heq

/-- No mapping that keys lead to has a key twice. -/
inductive HasDistinctKeys : Value → Prop
  | mapping {es : Entries} (distinct : es.IsDistinct) (values : ∀ e ∈ es, HasDistinctKeys e.2) :
    HasDistinctKeys (map es)
  | other {v : Value} (notMap : ∀ es, v ≠ .map es) : HasDistinctKeys v

theorem hasDistinctKeys_singleton {k : Value} (h : v.HasDistinctKeys) :
    (map [(k, v)]).HasDistinctKeys :=
  .mapping (List.pairwise_singleton _ _) (List.forall_mem_singleton.mpr h)

theorem HasDistinctKeys.distinct (h : (map es).HasDistinctKeys) : es.IsDistinct := by
  cases h with
  | mapping distinct _ => exact distinct
  | other notMap => exact absurd rfl (notMap es)

theorem HasDistinctKeys.of_find? (h : (map es).HasDistinctKeys)
    (hfind : es.find? key = some v) : v.HasDistinctKeys := by
  obtain ⟨k, hk⟩ := Entries.exists_mem_of_find? hfind
  cases h with
  | mapping _ values => exact values _ hk
  | other notMap => exact absurd rfl (notMap es)

theorem HasDistinctKeys.of_at? (h : v.HasDistinctKeys) (hpath : v.at? path = some w) :
    w.HasDistinctKeys := by
  induction path generalizing v with
  | nil =>
    rw [at?_nil] at hpath
    exact Option.some.inj hpath ▸ h
  | cons key path ih =>
    obtain ⟨es, x, rfl, hx, hpath⟩ := at?_cons_eq_some_iff.mp hpath
    exact ih (h.of_find? hx) hpath

/-- No list that keys lead to starts with a marker. -/
def IsUnmarked (v : Value) : Prop :=
  ∀ path first rest, v.at? path = some (.list (first :: rest)) → ¬first.IsMarker

theorem IsUnmarked.of_find? (h : (map above).IsUnmarked) (hfind : above.find? key = some v) :
    v.IsUnmarked := fun path first rest hpath =>
  h (key :: path) first rest (at?_cons_eq_some_iff.mpr ⟨above, v, rfl, hfind, hpath⟩)

theorem isUnmarked_map (h : ∀ e ∈ es, e.2.IsUnmarked) : (map es).IsUnmarked := by
  intro path first rest hpath
  cases path with
  | nil => cases hpath
  | cons key path =>
    obtain ⟨es', x, heq, hx, hpath⟩ := at?_cons_eq_some_iff.mp hpath
    obtain rfl := map.inj heq
    obtain ⟨k, hk⟩ := Entries.exists_mem_of_find? hx
    exact h _ hk path first rest hpath

theorem isUnmarked_of_ne_map (hmap : ∀ es, v ≠ map es)
    (h : ∀ first rest, v = list (first :: rest) → ¬first.IsMarker) : v.IsUnmarked := by
  intro path first rest hpath
  cases path with
  | nil =>
    rw [at?_nil] at hpath
    exact h first rest (Option.some.inj hpath)
  | cons key path =>
    rw [at?_cons_of_ne_map hmap] at hpath
    cases hpath

theorem null_merge (v : Value) : null.merge v = v := by
  cases v <;> rfl

theorem merge_of_ne_map (h : ∀ es, base ≠ map es) (above : Entries) :
    base.merge (map above) = map above := by
  cases base with
  | map es => exact absurd rfl (h es)
  | _ => rfl

theorem merge_of_ne_list (h : ∀ items, base ≠ list items) (above : List Value) :
    base.merge (list above) = list above := by
  cases base with
  | list items => exact absurd rfl (h items)
  | _ => rfl

/-- What a way into an overlay leads to once it is applied: what the value there makes of the one at
the same place below, where there is one. -/
theorem at?_merge (h : override.HasDistinctKeys) (hpath : override.at? path = some v)
    (base : Value) :
    (base.merge override).at? path =
      some (((base.at? path).map fun below => below.merge v).getD v) := by
  induction path generalizing override base with
  | nil =>
    rw [at?_nil] at hpath
    obtain rfl := Option.some.inj hpath
    simp
  | cons key path ih =>
    obtain ⟨above, w, rfl, hw, hpath⟩ := at?_cons_eq_some_iff.mp hpath
    by_cases hmap : ∃ es, base = map es
    · obtain ⟨es, rfl⟩ := hmap
      show (map (mergeEntries es above)).at? (key :: path) = _
      rw [at?_map_cons, at?_map_cons, find?_mergeEntries h.distinct, hw]
      cases Entries.find? es key with
      | none => exact hpath
      | some below => exact ih (h.of_find? hw) hpath below
    · have hbase := not_exists.mp hmap
      rw [merge_of_ne_map hbase, at?_cons_of_ne_map hbase, at?_map_cons, hw]
      exact hpath

end Value

end Rulebook
