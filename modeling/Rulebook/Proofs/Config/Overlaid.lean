import Rulebook.Proofs.Config.Merged

/-!
# Overlays by their rules

The rules of an overlay, told for two values at once and down to every depth (`Value.byRules`):
mappings key by key, a key of one of them alone with its value, lists by the marker that the upper
one starts with, and the upper value for everything else. Merging keeps to them but where an empty
list is to take the place of another (`Value.overlay_eq_byRules_iff`).
-/

namespace Rulebook

/-! ## The rules -/

/-- A list extends the one below it after `+`, and takes its place otherwise, without a leading
`=`. -/
def listByRules (items : List Value) : List Value → List Value
  | .str "+" :: rest => items ++ rest
  | .str "=" :: rest => rest
  | above => above

/-- The entries of an overlay under keys of its own. -/
def Entries.added (es above : Entries) : Entries := above.filter fun e => !Entries.contains es e.1

mutual

/-- What the rules make of a value and the one above it. -/
def Value.byRules (base override : Value) : Value :=
  match base with
  | .map es => match override with
    | .map above => .map (Entries.keptByRules es above ++ Entries.added es above)
    | v => v
  | .list items => match override with
    | .list above => .list (listByRules items above)
    | v => v
  | _ => override

/-- The entries of the lower mapping, each with what the rules make of its value. -/
def Entries.keptByRules : Entries → Entries → Entries
  | [], _ => []
  | (k, v) :: es, above =>
    (k, match above.find? k with
      | some w => v.byRules w
      | none => v) :: Entries.keptByRules es above

end

/-- What the rules make of two mappings: the entries of the lower one first. -/
def Entries.byRules (es above : Entries) : Entries := es.keptByRules above ++ es.added above

/-! ## Mappings by the rules -/

theorem listByRules_of_ne_nil {above : List Value} (h : above ≠ []) (items : List Value) :
    listByRules items above = mergeLists id items above := by
  obtain ⟨first, rest, rfl⟩ := List.exists_cons_of_ne_nil h
  unfold listByRules
  split
  next heq => obtain ⟨rfl, rfl⟩ := List.cons.inj heq; rfl
  next heq => obtain ⟨rfl, rfl⟩ := List.cons.inj heq; rfl
  next hplus hequals =>
    have hmarker : ¬first.IsMarker := fun hmarker =>
      hmarker.elim (fun h => hplus rest (h ▸ rfl)) fun h => hequals rest (h ▸ rfl)
    exact (mergeLists_of_not_isMarker hmarker items rest).symm

namespace Entries

variable {es above : Entries} {key : Value}

theorem keys_keptByRules (es above : Entries) : (es.keptByRules above).keys = es.keys := by
  induction es with
  | nil => rfl
  | cons e es ih =>
    show e.1 :: keys (keptByRules es above) = e.1 :: keys es
    rw [ih]

theorem keys_added (es above : Entries) :
    (es.added above).keys = above.keys.filter fun k => !es.contains k := by
  unfold keys added
  rw [List.filter_map]
  rfl

theorem keys_byRules (es above : Entries) :
    (es.byRules above).keys = es.keys ++ above.keys.filter fun k => !es.contains k := by
  rw [← keys_added, ← keys_keptByRules es above]
  exact List.map_append

theorem find?_keptByRules (es above : Entries) (key : Value) :
    (es.keptByRules above).find? key = (es.find? key).map fun v =>
      match above.find? key with
      | some w => v.byRules w
      | none => v := by
  induction es with
  | nil => rfl
  | cons e es ih =>
    rw [keptByRules, find?, find?, ih]
    split
    next hk => rw [find?_congr (Value.sameKey_iff.mp hk)]; rfl
    next => rfl

theorem find?_added (es above : Entries) (key : Value) :
    (es.added above).find? key = if es.contains key then none else above.find? key := by
  induction above with
  | nil => exact (ite_self _).symm
  | cons e above ih =>
    unfold added at ih ⊢
    rw [List.filter_cons]
    by_cases hk : e.1.keyForm = key.keyForm
    · rw [contains_congr hk]
      cases hes : es.contains key with
      | true =>
        rw [hes] at ih
        exact ih
      | false => simp [find?, hk]
    · have hskip (l : Entries) : find? (e :: l) key = find? l key :=
        if_neg (mt Value.sameKey_iff.mp hk)
      rw [hskip, ← ih]
      split
      · exact hskip _
      · rfl

theorem find?_byRules (es above : Entries) (key : Value) :
    (es.byRules above).find? key = match above.find? key with
      | none => es.find? key
      | some v => some (((es.find? key).map fun below => below.byRules v).getD v) := by
  rw [byRules, find?_append, find?_keptByRules, find?_added, contains]
  cases es.find? key <;> cases above.find? key <;> rfl

end Entries

/-! ## Merging and the rules -/

namespace Value

variable {es above : Entries} {base override : Value}

/-- On some way that leads into both values, an empty list stands above a list with items. -/
def Empties (base override : Value) : Prop :=
  ∃ path items, base.at? path = some (.list items) ∧ override.at? path = some (.list []) ∧
    items ≠ []

theorem empties_map_iff : (map es).Empties (map above) ↔
    ∃ key v w, es.find? key = some v ∧ above.find? key = some w ∧ v.Empties w := by
  constructor
  · rintro ⟨path, items, hbase, hover, hitems⟩
    cases path with
    | nil => cases hover
    | cons key path =>
      obtain ⟨v, hv, hbase⟩ := Option.bind_eq_some_iff.mp hbase
      obtain ⟨w, hw, hover⟩ := Option.bind_eq_some_iff.mp hover
      exact ⟨key, v, w, hv, hw, path, items, hbase, hover, hitems⟩
  · rintro ⟨key, v, w, hv, hw, path, items, hbase, hover, hitems⟩
    exact ⟨key :: path, items, at?_cons_eq_some_iff.mpr ⟨es, v, rfl, hv, hbase⟩,
      at?_cons_eq_some_iff.mpr ⟨above, w, rfl, hw, hover⟩, hitems⟩

/-- Where one of the values is no mapping, no way leads further into both. -/
theorem empties_iff_of_ne_map (h : (∀ es, base ≠ map es) ∨ ∀ above, override ≠ map above) :
    base.Empties override ↔ ∃ items, base = list items ∧ override = list [] ∧ items ≠ [] := by
  constructor
  · rintro ⟨path, items, hbase, hover, hitems⟩
    cases path with
    | nil =>
      rw [at?_nil] at hbase hover
      exact ⟨items, Option.some.inj hbase, Option.some.inj hover, hitems⟩
    | cons key path =>
      obtain ⟨es, v, hes, -⟩ := at?_cons_eq_some_iff.mp hbase
      obtain ⟨above, w, habove, -⟩ := at?_cons_eq_some_iff.mp hover
      exact h.elim (fun h => absurd hes (h es)) fun h => absurd habove (h above)
  · rintro ⟨items, rfl, rfl, hitems⟩
    exact ⟨[], items, at?_nil _, at?_nil _, hitems⟩

theorem map_merge_eq_byRules_iff :
    (map es).merge (map above) = (map es).byRules (map above) ↔
      mergeEntries es above = es.byRules above :=
  ⟨map.inj, congrArg map⟩

theorem mergeEntries_eq_byRules_iff (hes : es.IsDistinct) (habove : above.IsDistinct) :
    mergeEntries es above = es.byRules above ↔
      ∀ key v w, es.find? key = some v → above.find? key = some w → v.merge w = v.byRules w := by
  refine ⟨fun h key v w hv hw => ?_, fun h => ?_⟩
  · have hfind := congrArg (Entries.find? · key) h
    rw [find?_mergeEntries habove, Entries.find?_byRules, hv, hw] at hfind
    exact Option.some.inj hfind
  · refine Entries.eq_of_find? (isDistinct_mergeEntries hes habove) ?_ fun key => ?_
    · rw [keys_mergeEntries habove, Entries.keys_byRules]
    · rw [find?_mergeEntries habove, Entries.find?_byRules]
      cases hw : above.find? key with
      | none => rfl
      | some w =>
        cases hv : es.find? key with
        | none => rfl
        | some v => exact congrArg some (h key v w hv hw)

theorem merge_lists_eq_byRules_iff (items above : List Value) :
    (list items).merge (list above) = (list items).byRules (list above) ↔
      ¬(above = [] ∧ items ≠ []) := by
  show list (mergeLists id items above) = list (listByRules items above) ↔ _
  rw [list.injEq]
  cases above with
  | nil =>
    show items = [] ↔ _
    simp
  | cons first rest =>
    rw [listByRules_of_ne_nil (List.cons_ne_nil first rest)]
    simp

theorem merge_eq_byRules_of_ne_map (h : (∀ es, base ≠ map es) ∨ ∀ above, override ≠ map above) :
    base.merge override = base.byRules override ↔
      ¬∃ items, base = list items ∧ override = list [] ∧ items ≠ [] := by
  cases base with
  | list items =>
    cases override with
    | list above =>
      rw [merge_lists_eq_byRules_iff]
      simp
    | _ => exact iff_of_true rfl fun ⟨_, _, h, _⟩ => nomatch h
  | map es =>
    have hnone : ¬∃ items, map es = list items ∧ override = list [] ∧ items ≠ [] :=
      fun ⟨_, h, _⟩ => nomatch h
    refine iff_of_true ?_ hnone
    cases override with
    | map above => exact h.elim (fun h => absurd rfl (h es)) fun h => absurd rfl (h above)
    | _ => rfl
  | _ =>
    refine iff_of_true ?_ fun ⟨_, h, _⟩ => nomatch h
    cases override <;> rfl

/-- Merging two values keeps to the rules just if it empties no list. -/
theorem merge_eq_byRules_iff (hoverride : override.HasDistinctKeys) (hbase : base.HasDistinctKeys) :
    base.merge override = base.byRules override ↔ ¬base.Empties override := by
  induction hoverride generalizing base with
  | @mapping above distinct values ih =>
    by_cases hmap : ∃ es, base = map es
    · obtain ⟨es, rfl⟩ := hmap
      have hvalue (key v w : Value) (hv : Entries.find? es key = some v)
          (hw : Entries.find? above key = some w) : v.merge w = v.byRules w ↔ ¬v.Empties w := by
        obtain ⟨k, hk⟩ := Entries.exists_mem_of_find? hw
        exact ih _ hk (hbase.of_find? hv)
      rw [map_merge_eq_byRules_iff, mergeEntries_eq_byRules_iff hbase.distinct distinct,
        empties_map_iff]
      refine ⟨?_, fun h key v w hv hw => (hvalue key v w hv hw).mpr fun hempties =>
        h ⟨key, v, w, hv, hw, hempties⟩⟩
      rintro h ⟨key, v, w, hv, hw, hempties⟩
      exact (hvalue key v w hv hw).mp (h key v w hv hw) hempties
    · have hbase := not_exists.mp hmap
      rw [empties_iff_of_ne_map (.inl hbase), merge_eq_byRules_of_ne_map (.inl hbase)]
  | other notMap =>
    rw [empties_iff_of_ne_map (.inr notMap), merge_eq_byRules_of_ne_map (.inr notMap)]

/-- For all mappings, an overlay keeps to the rules at every depth just if it has nowhere an empty
list at the place of a list with items. -/
theorem overlay_eq_byRules_iff (hes : (map es).HasDistinctKeys)
    (habove : (map above).HasDistinctKeys) :
    (map es).overlay (map above) = .ok (es.byRules above) ↔
      ∀ path items, (map es).at? path = some (.list items) →
        (map above).at? path = some (.list []) → items = [] := by
  rw [overlay_map, Except.ok.injEq, ← map_merge_eq_byRules_iff, merge_eq_byRules_iff habove hes]
  refine ⟨fun h path items hbase hover => ?_, ?_⟩
  · exact Classical.byContradiction fun hitems => h ⟨path, items, hbase, hover, hitems⟩
  · rintro h ⟨path, items, hbase, hover, hitems⟩
    exact hitems (h path items hbase hover)

/-- Below a list that is extended and a mapping with further keys, one list is to be emptied, and
another is to be replaced. -/
theorem overlay_eq_byRules_iff_emptied :
    let es : Entries := [(.str "t", .list [.str "a"]),
      (.str "m", .map [(.str "l", .list [.int 1])])]
    let emptied : Entries := [(.str "t", .list [.str "+", .str "b"]),
      (.str "m", .map [(.str "k", .null), (.str "l", .list [])])]
    let replaced : Entries := [(.str "t", .list [.str "+", .str "b"]),
      (.str "m", .map [(.str "k", .null), (.str "l", .list [.int 2])])]
    (map es).HasDistinctKeys ∧
      ((map emptied).HasDistinctKeys ∧
        (map es).overlay (map emptied) ≠ .ok (es.byRules emptied)) ∧
      ((map replaced).HasDistinctKeys ∧
        (map es).overlay (map replaced) = .ok (es.byRules replaced) ∧
        ∀ path items, (map es).at? path = some (.list items) →
          (map replaced).at? path = some (.list []) → items = []) := by
  intro es emptied replaced
  have hes : (map es).HasDistinctKeys :=
    .mapping (by decide) (List.forall_mem_cons.mpr ⟨.other nofun, List.forall_mem_singleton.mpr
      (hasDistinctKeys_singleton (.other nofun))⟩)
  have hkeys : [str "t", str "m"].Pairwise fun a b => a.keyForm ≠ b.keyForm := by decide
  have hfields : [str "k", str "l"].Pairwise fun a b => a.keyForm ≠ b.keyForm := by decide
  have hdistinct (items : List Value) : (map [(.str "t", .list [.str "+", .str "b"]),
      (.str "m", .map [(.str "k", .null), (.str "l", .list items)])]).HasDistinctKeys :=
    .mapping hkeys (List.forall_mem_cons.mpr ⟨.other nofun, List.forall_mem_singleton.mpr
      (.mapping hfields (List.forall_mem_cons.mpr
        ⟨.other nofun, List.forall_mem_singleton.mpr (.other nofun)⟩))⟩)
  have hreplaced : (map es).overlay (map replaced) = .ok (es.byRules replaced) := rfl
  refine ⟨hes, ⟨hdistinct [], fun h => ?_⟩, hdistinct [.int 2], hreplaced,
    (overlay_eq_byRules_iff hes (hdistinct [.int 2])).mp hreplaced⟩
  cases (overlay_eq_byRules_iff hes (hdistinct [])).mp h [.str "m", .str "l"] [.int 1] rfl rfl

/-- An empty list does not take the place of another. -/
theorem not_forall_overlay_byRules : ¬∀ es above : Entries, (map es).HasDistinctKeys →
    (map above).HasDistinctKeys →
    (∀ path first rest, first.IsMarker → (map above).at? path = some (.list (first :: rest)) →
      ∃ items, (map es).at? path = some (.list items)) →
    (map es).overlay (map above) = .ok (es.byRules above) := by
  intro h
  have hdistinct (items : List Value) : (map [(.str "t", .list items)]).HasDistinctKeys :=
    hasDistinctKeys_singleton (.other nofun)
  have hmarks : (map [(.str "t", .list [])]).IsUnmarked :=
    isUnmarked_map (List.forall_mem_singleton.mpr (isUnmarked_of_ne_map nofun nofun))
  have hrules := h [(.str "t", .list [.str "a"])] [(.str "t", .list [])] (hdistinct [.str "a"])
    (hdistinct []) fun path first rest hmarker hpath =>
      absurd hmarker (hmarks path first rest hpath)
  have hkept : (map [(.str "t", .list [.str "a"])]).overlay (map [(.str "t", .list [])]) =
      .ok [(.str "t", .list [.str "a"])] := rfl
  cases hkept.symm.trans hrules

end Value

end Rulebook
