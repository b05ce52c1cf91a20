import Rulebook.Proofs.Config.Merged

/-!
# Overlays with and without markers

A marker at the start of a list of an overlay is followed only where a list stands below it;
anywhere else the list comes into the configuration as it is, with its marker
(`Value.overlay_at_marker`). An overlay without markers says what is to be there in the end:
applying it again changes nothing (`Value.overlay_again`).
-/

namespace Rulebook

namespace Value

variable {es above : Entries} {base override v : Value}

/-! ## A marker along a way -/

theorem merge_list_of_isMarker {first : Value} (h : first.IsMarker) (items rest : List Value) :
    (list items).merge (list (first :: rest)) =
      list (if first = .str "+" then items ++ rest else rest) :=
  congrArg list (mergeLists_of_isMarker h items rest)

/-- Wherever an overlay has a list that starts with a marker, the marker is followed if a list
stands there below; if none does, the list stays as it is, with the marker as its first item, and is
never what is left without it. -/
theorem overlay_at_marker (habove : (map above).HasDistinctKeys) (es : Entries) :
    ∃ merged, (map es).overlay (map above) = .ok merged ∧
      ∀ path first rest, first.IsMarker →
        (map above).at? path = some (.list (first :: rest)) →
        (∀ items, (map es).at? path = some (.list items) → (map merged).at? path =
          some (.list (if first = .str "+" then items ++ rest else rest))) ∧
        ((∀ items, (map es).at? path ≠ some (.list items)) →
          (map merged).at? path = some (.list (first :: rest)) ∧
            (map merged).at? path ≠ some (.list rest)) := by
  refine ⟨mergeEntries es above, overlay_map es above, fun path first rest hmarker hpath => ?_⟩
  have hmerged : (map (mergeEntries es above)).at? path = some ((((map es).at? path).map
      fun below => below.merge (list (first :: rest))).getD (list (first :: rest))) :=
    at?_merge habove hpath (map es)
  rw [hmerged]
  refine ⟨fun items hbelow => ?_, fun hnone => ?_⟩
  · rw [hbelow]
    exact congrArg some (merge_list_of_isMarker hmarker items rest)
  · have hkept : (((map es).at? path).map fun below =>
        below.merge (list (first :: rest))).getD (list (first :: rest)) = list (first :: rest) := by
      cases hbelow : (map es).at? path with
      | none => rfl
      | some below =>
        exact merge_of_ne_list (fun items heq => hnone items (heq ▸ hbelow)) (first :: rest)
    rw [hkept]
    exact ⟨rfl, fun heq => List.cons_ne_self first rest (list.inj (Option.some.inj heq))⟩

/-- A list below which another stands, and one in a mapping that is all the overlay's own. -/
theorem overlay_at_marker_inside :
    let es : Entries := [(.str "targets", .list [.str "a"])]
    let above : Entries := [(.str "targets", .list [.str "+", .str "b"]),
      (.str "variables", .map [(.str "l", .list [.str "=", .int 1])])]
    (map above).HasDistinctKeys ∧ ∃ merged, (map es).overlay (map above) = .ok merged ∧
      (map merged).at? [.str "targets"] = some (.list [.str "a", .str "b"]) ∧
      (map merged).at? [.str "variables", .str "l"] = some (.list [.str "=", .int 1]) := by
  intro es above
  have hinner : (map [(.str "l", .list [.str "=", .int 1])]).HasDistinctKeys :=
    hasDistinctKeys_singleton (.other nofun)
  have habove : (map above).HasDistinctKeys :=
    .mapping (by decide) (List.forall_mem_cons.mpr ⟨.other nofun,
      List.forall_mem_singleton.mpr hinner⟩)
  obtain ⟨merged, hmerged, h⟩ := overlay_at_marker habove es
  exact ⟨habove, merged, hmerged,
    (h [.str "targets"] (.str "+") [.str "b"] (.inl rfl) rfl).1 [.str "a"] rfl,
    ((h [.str "variables", .str "l"] (.str "=") [.int 1] (.inr rfl) rfl).2 nofun).1⟩

/-- Without a list below, a marker is not followed. -/
theorem not_forall_overlay_marker : ¬∀ es above : Entries, (map above).HasDistinctKeys →
    ∃ merged, (map es).overlay (map above) = .ok merged ∧
      ∀ path first rest, first.IsMarker →
        (map above).at? path = some (.list (first :: rest)) →
        (∀ items, (map es).at? path ≠ some (.list items)) →
          (map merged).at? path = some (.list rest) := by
  intro h
  have habove : (map [(.str "t", .list [.str "+", .str "b"])]).HasDistinctKeys :=
    hasDistinctKeys_singleton (.other nofun)
  obtain ⟨merged, hmerged, hfollowed⟩ := h [] [(.str "t", .list [.str "+", .str "b"])] habove
  obtain rfl := Except.ok.inj hmerged
  have hlist := hfollowed [.str "t"] (.str "+") [.str "b"] (.inl rfl) rfl nofun
  have hkept : (map [(.str "t", .list [.str "+", .str "b"])]).at? [.str "t"] ≠
      some (.list [.str "b"]) := by decide
  exact hkept hlist

/-! ## Without markers -/

theorem mergeLists_again {above : List Value}
    (h : ∀ first rest, above = first :: rest → ¬first.IsMarker) (items : List Value) :
    mergeLists id (mergeLists id items above) above = mergeLists id items above := by
  cases above with
  | nil => rfl
  | cons first rest =>
    have hmarker := h first rest rfl
    rw [mergeLists_of_not_isMarker hmarker, mergeLists_of_not_isMarker hmarker]

theorem mergeLists_self {above : List Value}
    (h : ∀ first rest, above = first :: rest → ¬first.IsMarker) :
    mergeLists id above above = above := by
  cases above with
  | nil => rfl
  | cons first rest => exact mergeLists_of_not_isMarker (h first rest rfl) _ _

/-- An overlay changes nothing where it has no key of its own and makes no value another. -/
theorem mergeEntries_eq_self (hes : es.IsDistinct) (habove : above.IsDistinct)
    (h : ∀ key w, above.find? key = some w → ∃ v, es.find? key = some v ∧ v.merge w = v) :
    mergeEntries es above = es := by
  refine Entries.eq_of_find? (isDistinct_mergeEntries hes habove) ?_ fun key => ?_
  · have hnone : (above.keys.filter fun k => !es.contains k) = [] := by
      refine List.filter_eq_nil_iff.mpr fun k hk => ?_
      cases hw : above.find? k with
      | none => exact absurd rfl (Entries.find?_eq_none_iff.mp hw k hk)
      | some w =>
        obtain ⟨v, hv, -⟩ := h k w hw
        simp [Entries.contains, hv]
    rw [keys_mergeEntries habove, hnone, List.append_nil]
  · rw [find?_mergeEntries habove]
    cases hw : above.find? key with
    | none => rfl
    | some w =>
      obtain ⟨v, hv, hmerge⟩ := h key w hw
      rw [hv]
      exact congrArg some hmerge

/-- Merging with the same overlay a second time changes nothing. The induction is on the overlay;
the case of the value `null` below says that the overlay does not change itself. -/
theorem merge_again (hoverride : override.HasDistinctKeys) (hmarks : override.IsUnmarked)
    (hbase : base.HasDistinctKeys) :
    (base.merge override).merge override = base.merge override := by
  induction hoverride generalizing base with
  | @mapping above distinct values ih =>
    have hagain {key v w : Value} (hw : Entries.find? above key = some w)
        (hv : v.HasDistinctKeys) : (v.merge w).merge w = v.merge w := by
      obtain ⟨k, hk⟩ := Entries.exists_mem_of_find? hw
      exact ih _ hk (hmarks.of_find? hw) hv
    have hself {key w : Value} (hw : Entries.find? above key = some w) : w.merge w = w := by
      have hnull := hagain hw (v := null) (.other nofun)
      rwa [null_merge] at hnull
    by_cases hmap : ∃ es, base = map es
    · obtain ⟨es, rfl⟩ := hmap
      refine congrArg map (mergeEntries_eq_self
        (isDistinct_mergeEntries hbase.distinct distinct) distinct fun key w hw => ?_)
      rw [find?_mergeEntries distinct, hw]
      cases hv : Entries.find? es key with
      | none => exact ⟨w, rfl, hself hw⟩
      | some v => exact ⟨v.merge w, rfl, hagain hw (hbase.of_find? hv)⟩
    · rw [merge_of_ne_map (not_exists.mp hmap)]
      exact congrArg map (mergeEntries_eq_self distinct distinct fun key w hw =>
        ⟨w, hw, hself hw⟩)
  | @other override notMap =>
    cases override with
    | map above => exact absurd rfl (notMap above)
    | list above =>
      have hfirst (first : Value) (rest : List Value) (heq : above = first :: rest) :
          ¬first.IsMarker := hmarks [] first rest (by rw [at?_nil, heq])
      by_cases hlist : ∃ items, base = list items
      · obtain ⟨items, rfl⟩ := hlist
        exact congrArg list (mergeLists_again hfirst items)
      · rw [merge_of_ne_list (not_exists.mp hlist)]
        exact congrArg list (mergeLists_self hfirst)
    | _ => rfl

/-- Applying an overlay without markers a second time changes nothing, and wherever both sides have
a mapping, the keys of the merged one are those of the lower one and the further ones of the
overlay. -/
theorem overlay_again (hes : (map es).HasDistinctKeys) (habove : (map above).HasDistinctKeys)
    (hmarks : (map above).IsUnmarked) :
    ∃ merged, (map es).overlay (map above) = .ok merged ∧
      (map merged).overlay (map above) = .ok merged ∧
      ∀ (path : List Value) (lower upper : Entries), (map es).at? path = some (.map lower) →
        (map above).at? path = some (.map upper) →
        ∃ both : Entries, (map merged).at? path = some (.map both) ∧
          both.keys = lower.keys ++ upper.keys.filter fun k => !lower.contains k := by
  refine ⟨mergeEntries es above, overlay_map es above, ?_, fun path lower upper hlower hupper => ?_⟩
  · have hagain := merge_again habove hmarks hes
    rw [overlay_map]
    exact congrArg Except.ok (map.inj hagain)
  · have hmerged : (map (mergeEntries es above)).at? path = some ((((map es).at? path).map
        fun below => below.merge (map upper)).getD (map upper)) := at?_merge habove hupper (map es)
    refine ⟨mergeEntries lower upper, ?_, keys_mergeEntries (habove.of_at? hupper).distinct lower⟩
    rw [hmerged, hlower]
    rfl

/-- An empty list above another, a mapping in the place of a number, and keys of the overlay
alone. -/
theorem overlay_again_mixed :
    let es : Entries := [(.str "a", .map [(.str "x", .list [.int 1]), (.str "y", .int 2)]),
      (.str "b", .int 3)]
    let above : Entries := [(.str "b", .map [(.str "z", .list [])]),
      (.str "a", .map [(.str "w", .list [.int 4]), (.str "x", .list [])])]
    (map es).HasDistinctKeys ∧ (map above).HasDistinctKeys ∧ (map above).IsUnmarked ∧
      ∃ merged, (map es).overlay (map above) = .ok merged ∧
        (map merged).overlay (map above) = .ok merged ∧
        ∃ both : Entries, (map merged).at? [.str "a"] = some (.map both) ∧
          both.keys = [.str "x", .str "y", .str "w"] := by
  intro es above
  have hes : (map es).HasDistinctKeys :=
    .mapping (by decide) (List.forall_mem_cons.mpr
      ⟨.mapping (by decide) (List.forall_mem_cons.mpr ⟨.other nofun,
        List.forall_mem_singleton.mpr (.other nofun)⟩),
      List.forall_mem_singleton.mpr (.other nofun)⟩)
  have habove : (map above).HasDistinctKeys :=
    .mapping (by decide) (List.forall_mem_cons.mpr
      ⟨hasDistinctKeys_singleton (.other nofun),
      List.forall_mem_singleton.mpr (.mapping (by decide) (List.forall_mem_cons.mpr
        ⟨.other nofun, List.forall_mem_singleton.mpr (.other nofun)⟩))⟩)
  have hempty : (list []).IsUnmarked := isUnmarked_of_ne_map nofun nofun
  have hlist : (list [.int 4]).IsUnmarked := isUnmarked_of_ne_map nofun fun first rest heq => by
    obtain ⟨rfl, rfl⟩ := List.cons.inj (list.inj heq)
    decide
  have hmarks : (map above).IsUnmarked := isUnmarked_map (List.forall_mem_cons.mpr
    ⟨isUnmarked_map (List.forall_mem_singleton.mpr hempty),
    List.forall_mem_singleton.mpr (isUnmarked_map (List.forall_mem_cons.mpr
      ⟨hlist, List.forall_mem_singleton.mpr hempty⟩))⟩)
  obtain ⟨merged, hmerged, hagain, hkeys⟩ := overlay_again hes habove hmarks
  exact ⟨hes, habove, hmarks, merged, hmerged, hagain, hkeys [.str "a"] _ _ rfl rfl⟩

end Value

end Rulebook
