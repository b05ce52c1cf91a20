import Rulebook.Proofs.Config.Applied

/-!
# The fields of a part of the configuration

Which fields stand in the mapping under a key of the configuration, as long as this mapping stands
at no other place. A setting keeps those that are there and adds the one that it leads into, unless
it puts another value in the place of the mapping (`Links.hasField_assign`). In the order of the
environment no setting comes on the way of one before it, so the settings that lead into the mapping
come last (`Links.hasField_assignAll`).
-/

namespace Rulebook

open Config (setLinked lastMarked assign assignAll Setting)

namespace Links

variable {es above : Links} {key : Value} {k top name : String} {keys : List String} {m : Nat}
  {v : Value} {w : Config.Waypoint} {settings : List Setting}

/-! ## Keys of merged and changed mappings -/

/-- No key stands twice. -/
def IsDistinct (es : Links) : Prop := es.Pairwise fun a b => a.1.keyForm ≠ b.1.keyForm

theorem mem_insert {a : Value × Linked} {l : Linked} (h : a ∈ es.insert key l) :
    a.1.keyForm = key.keyForm ∨ a ∈ es := by
  induction es with
  | nil => exact .inl (congrArg (·.1.keyForm) (List.mem_singleton.mp h))
  | cons e es ih =>
    rw [insert] at h
    split at h
    next hk =>
      rcases List.mem_cons.mp h with rfl | h
      · exact .inl (Value.sameKey_iff.mp hk)
      · exact .inr (List.mem_cons_of_mem e h)
    next =>
      rcases List.mem_cons.mp h with rfl | h
      · exact .inr List.mem_cons_self
      · exact (ih h).imp_right (List.mem_cons_of_mem e)

theorem isDistinct_insert (h : es.IsDistinct) (key : Value) (l : Linked) :
    (es.insert key l).IsDistinct := by
  induction es with
  | nil => exact List.pairwise_singleton _ _
  | cons e es ih =>
    obtain ⟨hfirst, hrest⟩ := List.pairwise_cons.mp h
    rw [insert]
    split
    next => exact List.pairwise_cons.mpr ⟨hfirst, hrest⟩
    next hk =>
      refine List.pairwise_cons.mpr ⟨fun a ha heq => ?_, ih hrest⟩
      rcases mem_insert ha with hkey | hmem
      · exact hk (Value.sameKey_iff.mpr (heq.trans hkey))
      · exact hfirst a hmem heq

theorem isDistinct_ofList (pairs : List (Value × Linked)) : (ofList pairs).IsDistinct := by
  unfold ofList
  suffices h : ∀ es : Links, es.IsDistinct →
      (pairs.foldl (fun es e => insert es e.1 e.2) es).IsDistinct from h [] List.Pairwise.nil
  induction pairs with
  | nil => exact fun _ h => h
  | cons e pairs ih => exact fun es h => ih _ (isDistinct_insert h e.1 e.2)

theorem find?_congr {key' : Value} (h : key.keyForm = key'.keyForm) (es : Links) :
    es.find? key = es.find? key' := by
  induction es with
  | nil => rfl
  | cons e es ih => rw [find?, find?, ih, Value.sameKey, Value.sameKey, h]

theorem find?_eq_none (h : ∀ e ∈ es, e.1.keyForm ≠ key.keyForm) : es.find? key = none := by
  induction es with
  | nil => rfl
  | cons e es ih =>
    obtain ⟨hfirst, hrest⟩ := List.forall_mem_cons.mp h
    rw [find?, if_neg (mt Value.sameKey_iff.mp hfirst), ih hrest]

theorem find?_merge (h : above.IsDistinct) (base : Links) (key : Value) :
    (merge base above).find? key = match above.find? key with
      | none => base.find? key
      | some l => some (((base.find? key).map fun below => below.merge l).getD l) := by
  induction above generalizing base with
  | nil => rw [merge, find?]
  | cons e above ih =>
    obtain ⟨k, l⟩ := e
    obtain ⟨hfirst, hrest⟩ := List.pairwise_cons.mp h
    rw [merge, ih hrest, find?, find?_insert]
    by_cases hk : k.keyForm = key.keyForm
    · have hnone : find? above key = none :=
        find?_eq_none fun e he heq => hfirst e he (hk.trans heq.symm)
      rw [if_pos (Value.sameKey_iff.mpr hk), if_pos (Value.sameKey_iff.mpr hk), hnone,
        find?_congr hk]
      cases base.find? key <;> rfl
    · rw [if_neg (mt Value.sameKey_iff.mp hk), if_neg (mt Value.sameKey_iff.mp hk)]

theorem find?_rewrite (m : Nat) (new es : Links) (key : Value) :
    (rewrite m new es).find? key = (es.find? key).map (Linked.rewrite m new) := by
  induction es with
  | nil => rfl
  | cons e es ih =>
    rw [rewrite, find?, find?, ih]
    split <;> rfl

/-! ## The fields under a key -/

theorem field?_bare (es : Links) (name : String) :
    Entries.field? es.bare name = (es.find? (.str name)).map Linked.bare := find?_bare es _

/-- A mapping under the key `top` has the field `name`. -/
def HasField (es : Links) (top name : String) : Prop :=
  ((es.below top).2.find? (.str name)).isSome = true

theorem hasField_iff_bare : es.HasField top name ↔
    ((Value.entries (es.bare.field? top)).field? name).isSome = true := by
  unfold HasField Entries.field?
  rw [← bare_below, find?_bare, Option.isSome_map]

/-- Changing a mapping that stands elsewhere. -/
theorem below_rewrite (hmark : (es.below top).1 = none) (m : Nat) (new : Links) (name : String) :
    ((rewrite m new es).below top).1 = none ∧
      ((rewrite m new es).HasField top name ↔ es.HasField top name) := by
  unfold HasField
  unfold below at hmark ⊢
  rw [find?_rewrite]
  cases hfind : es.find? (.str top) with
  | none => exact ⟨rfl, Iff.rfl⟩
  | some l =>
    cases l with
    | plain v => cases v <;> exact ⟨rfl, Iff.rfl⟩
    | list => exact ⟨rfl, Iff.rfl⟩
    | map mark inner =>
      rw [hfind] at hmark
      obtain rfl : mark = none := hmark
      refine ⟨rfl, ?_⟩
      show ((rewrite m new inner).find? _).isSome = true ↔ _
      rw [find?_rewrite, Option.isSome_map]
      rfl

theorem isSome_find?_setLinked (es : Links) (k : String) (keys : List String) (v : Value)
    (name : String) : ((setLinked es (k :: keys) v).find? (.str name)).isSome = true ↔
      (es.find? (.str name)).isSome = true ∨ k = name := by
  have hinsert (l : Linked) : ((es.insert (.str k) l).find? (.str name)).isSome = true ↔
      (es.find? (.str name)).isSome = true ∨ k = name := by
    rw [find?_insert]
    by_cases hk : k = name
    · simp [hk]
    · rw [if_neg (mt Value.sameKey_str.mp hk)]
      exact (or_iff_left hk).symm
  cases keys with
  | nil => exact hinsert _
  | cons next keys =>
    rw [Config.setLinked_cons_cons]
    exact hinsert _

theorem isSome_find?_of_lastMarked (h : lastMarked es (k :: keys) = some w) :
    (es.find? (.str k)).isSome = true := by
  cases hfind : es.find? (.str k) with
  | some l => rfl
  | none =>
    cases keys with
    | nil => cases h
    | cons next keys =>
      rw [lastMarked, hfind] at h
      cases h

theorem hasField_insert (es : Links) (k top name : String) (l : Linked) :
    (es.insert (.str k) l).HasField top name ↔
      if k = top then (((l.entries?).getD (none, [])).2.find? (.str name)).isSome = true
      else es.HasField top name := by
  unfold HasField
  rw [Config.below_insert]
  split <;> rfl

theorem hasField_setLinked (hmark : (es.below top).1 = none) (hkeys : keys ≠ []) (v : Value)
    (name : String) : ((setLinked es keys v).below top).1 = none ∧
      ((setLinked es keys v).HasField top name ↔
        if keys = [top] then ((Value.entries (some v)).field? name).isSome = true
        else es.HasField top name ∨ [top, name] <+: keys) := by
  obtain ⟨k, rest, rfl⟩ := List.exists_cons_of_ne_nil hkeys
  have hne (hk : k ≠ top) (rest : List String) : ¬[top, name] <+: k :: rest :=
    fun hp => hk (List.cons_prefix_cons.mp hp).1.symm
  cases rest with
  | nil =>
    rw [setLinked, Config.below_insert, hasField_insert, Config.entries?_plain]
    by_cases hk : k = top
    · subst hk
      have hplain : ((ofEntries (Value.entries (some v))).find? (.str name)).isSome =
          ((Value.entries (some v)).field? name).isSome := by
        rw [← Option.isSome_map (f := Linked.bare), ← find?_bare, bare_ofEntries]
        rfl
      rw [if_pos rfl, if_pos rfl, if_pos rfl, hplain]
      exact ⟨rfl, Iff.rfl⟩
    · have hsingle : [k] ≠ [top] := fun heq => hk (List.cons.inj heq).1
      rw [if_neg hk, if_neg hk, if_neg hsingle]
      exact ⟨hmark, (or_iff_left (hne hk [])).symm⟩
  | cons next rest =>
    have hlong : k :: next :: rest ≠ [top] := fun heq =>
      List.cons_ne_nil next rest (List.cons.inj heq).2
    rw [Config.setLinked_cons_cons, Config.below_insert, hasField_insert, if_neg hlong]
    by_cases hk : k = top
    · subst hk
      rw [if_pos rfl, if_pos rfl]
      refine ⟨hmark, (isSome_find?_setLinked _ next rest v name).trans (or_congr_right ?_)⟩
      simp [eq_comm]
    · rw [if_neg hk, if_neg hk]
      exact ⟨hmark, (or_iff_left (hne hk _)).symm⟩

/-- The fields under a key once a setting is made. -/
theorem hasField_assign (hmark : (es.below top).1 = none) (hkeys : keys ≠ []) (v : Value)
    (name : String) : ((assign es keys v).below top).1 = none ∧
      ((assign es keys v).HasField top name ↔
        if keys = [top] then ((Value.entries (some v)).field? name).isSome = true
        else es.HasField top name ∨ [top, name] <+: keys) := by
  unfold assign
  cases hlast : lastMarked es keys with
  | none => exact hasField_setLinked hmark hkeys v name
  | some w =>
    -- the fields are those of a mapping without a mark, so what changes lies below them
    obtain ⟨hnone, hsame⟩ := below_rewrite hmark w.mark (setLinked w.entries w.keys v) name
    have hlong : keys ≠ [top] := by
      rintro rfl
      cases hlast
    refine ⟨hnone, ?_⟩
    rw [hsame, if_neg hlong]
    refine (or_iff_left_of_imp ?_).symm
    rintro ⟨rest, rfl⟩
    rw [List.cons_append, List.singleton_append, Config.lastMarked_cons_cons, hmark,
      Option.map_none, Option.or_none] at hlast
    exact isSome_find?_of_lastMarked hlast

/-- The fields under a key once all settings are made: what some setting leads into, and else those
of what is there. -/
theorem hasField_assignAll (hmark : (es.below top).1 = none)
    (hkeys : ∀ s ∈ settings, s.1 ≠ [])
    (horder : settings.Pairwise fun s later => ¬ later.1 <+: s.1) (name : String) :
    (assignAll es settings).HasField top name ↔
      (∃ s ∈ settings, [top, name] <+: s.1) ∨
      (∃ s ∈ settings, s.1 = [top] ∧ ((Value.entries (some s.2)).field? name).isSome = true) ∨
      (∀ s ∈ settings, s.1 ≠ [top]) ∧ es.HasField top name := by
  induction settings generalizing es with
  | nil => simp [assignAll]
  | cons s settings ih =>
    obtain ⟨hs, hkeys⟩ := List.forall_mem_cons.mp hkeys
    obtain ⟨hlater, horder⟩ := List.pairwise_cons.mp horder
    obtain ⟨hmark', hfield⟩ := hasField_assign hmark hs s.2 name
    have hrun : assignAll es (s :: settings) = assignAll (assign es s.1 s.2) settings := rfl
    rw [hrun, ih hmark' hkeys horder, hfield]
    simp only [List.mem_cons, exists_eq_or_imp, forall_eq_or_imp]
    by_cases htop : s.1 = [top]
    · have hfirst : ¬[top, name] <+: s.1 := by simp [htop]
      have hrest (t : Setting) (ht : t ∈ settings) : t.1 ≠ [top] := fun heq =>
        hlater t ht (by rw [heq, htop])
      rw [if_pos htop]
      grind
    · -- what leads into the mapping comes after what puts a mapping there
      have hrest (hp : [top, name] <+: s.1) (t : Setting) (ht : t ∈ settings) : t.1 ≠ [top] :=
        fun heq => hlater t ht (heq ▸ (List.prefix_append [top] [name]).trans hp)
      rw [if_neg htop]
      grind

/-! ## Keys that stay -/

theorem isSome_find?_merge (h : above.IsDistinct) {base : Links}
    (hbase : (base.find? key).isSome = true) : ((merge base above).find? key).isSome = true := by
  rw [find?_merge h]
  split
  · exact hbase
  · rfl

theorem isSome_find?_assign (h : (es.find? (.str name)).isSome = true) (keys : List String)
    (v : Value) : ((assign es keys v).find? (.str name)).isSome = true := by
  unfold assign
  split
  · cases keys with
    | nil => exact h
    | cons k keys => exact (isSome_find?_setLinked es k keys v name).mpr (.inl h)
  · rw [find?_rewrite, Option.isSome_map]
    exact h

theorem isSome_find?_assignAll (h : (es.find? (.str name)).isSome = true)
    (settings : List Setting) : ((assignAll es settings).find? (.str name)).isSome = true := by
  induction settings generalizing es with
  | nil => exact h
  | cons s settings ih => exact ih (isSome_find?_assign h s.1 s.2)

end Links

theorem Value.isSome_find?_mergeEntries {es : Entries} {key : Value}
    (h : (es.find? key).isSome = true) (above : Entries) :
    ((Value.mergeEntries es above).find? key).isSome = true := by
  induction above generalizing es with
  | nil => exact h
  | cons e above ih =>
    rw [Value.mergeEntries]
    refine ih ?_
    rw [Entries.find?_insert]
    split
    · rfl
    · exact h

end Rulebook
