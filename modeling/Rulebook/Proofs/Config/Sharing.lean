import Rulebook.Proofs.Config.Override
import Rulebook.Proofs.Value.Linked

/-!
# Settings among shared mappings

A mapping that stands at several places changes at all of them. Where every marked mapping on the
way of a setting stands at one place only (`Links.Alone`), setting what the keys lead to changes
just that way (`assign_eq_setLinked`). Settings add no marks (`count_setLinked_le`) and put no
marked mapping on another way (`marksOn_setLinked_subset`), so ways that are alone stay so.
-/

namespace Rulebook

open Config (setPath setLinked lastMarked assign Waypoint)

/-! ## Marks -/

mutual

/-- The marks in a value, as often as they stand in it. -/
def Linked.marks : Linked → List Nat
  | .plain _ => []
  | .list items => Linked.marksOfItems items
  | .map mark es => mark.toList ++ Links.marks es

def Linked.marksOfItems : List Linked → List Nat
  | [] => []
  | l :: ls => l.marks ++ Linked.marksOfItems ls

def Links.marks : Links → List Nat
  | [] => []
  | (_, l) :: es => l.marks ++ Links.marks es

end

mutual

theorem Linked.rewrite_of_not_mem {m : Nat} (new : Links) :
    ∀ {l : Linked}, m ∉ l.marks → l.rewrite m new = l
  | .plain _, _ => rfl
  | .list _, h => congrArg Linked.list (Linked.rewriteItems_of_not_mem new h)
  | .map mark es, h => by
    obtain ⟨hmark, hes⟩ := not_or.mp (h ∘ List.mem_append.mpr)
    have hmark : mark ≠ some m := fun heq => hmark (heq ▸ List.mem_singleton_self m)
    rw [Linked.rewrite, if_neg hmark, Links.rewrite_of_not_mem new hes]

theorem Linked.rewriteItems_of_not_mem {m : Nat} (new : Links) :
    ∀ {ls : List Linked}, m ∉ Linked.marksOfItems ls → Linked.rewriteItems m new ls = ls
  | [], _ => rfl
  | l :: ls, h => by
    obtain ⟨hl, hls⟩ := not_or.mp (h ∘ List.mem_append.mpr)
    rw [Linked.rewriteItems, Linked.rewrite_of_not_mem new hl,
      Linked.rewriteItems_of_not_mem new hls]

theorem Links.rewrite_of_not_mem {m : Nat} (new : Links) :
    ∀ {es : Links}, m ∉ es.marks → Links.rewrite m new es = es
  | [], _ => rfl
  | (k, l) :: es, h => by
    obtain ⟨hl, hes⟩ := not_or.mp (h ∘ List.mem_append.mpr)
    rw [Links.rewrite, Linked.rewrite_of_not_mem new hl, Links.rewrite_of_not_mem new hes]

end

namespace Links

variable {es inner : Links} {key : Value} {l : Linked} {m : Nat} {mark : Option Nat} {k : String}
  {keys : List String}

theorem marks_ofEntries (es : Entries) : (ofEntries es).marks = [] := by
  induction es with
  | nil => rfl
  | cons e es ih => exact ih

/-! ## Lookup and insertion -/

theorem count_le_of_find? (h : es.find? key = some l) (m : Nat) :
    l.marks.count m ≤ es.marks.count m := by
  induction es with
  | nil => cases h
  | cons e es ih =>
    rw [find?] at h
    rw [marks, List.count_append]
    split at h
    · obtain rfl := Option.some.inj h
      exact Nat.le_add_right _ _
    · exact (ih h).trans (Nat.le_add_left _ _)

theorem count_insert_le
    (h : l.marks.count m ≤ (es.find? key).elim 0 fun x => x.marks.count m) :
    (es.insert key l).marks.count m ≤ es.marks.count m := by
  induction es with
  | nil => simpa [insert, marks, find?] using h
  | cons e es ih =>
    rw [find?] at h
    rw [insert]
    split at h
    next hk =>
      rw [if_pos hk, marks, marks, List.count_append, List.count_append]
      exact Nat.add_le_add_right h _
    next hk =>
      rw [if_neg hk, marks, marks, List.count_append, List.count_append]
      exact Nat.add_le_add_left (ih h) _

/-- Where a mark stands once, rewriting it changes just the entry that holds it. -/
theorem rewrite_eq_insert (h : es.find? key = some l) (hm : m ∈ l.marks)
    (hcount : es.marks.count m ≤ 1) (new : Links) :
    rewrite m new es = es.insert key (l.rewrite m new) := by
  have hpos := List.count_pos_iff.mpr hm
  induction es with
  | nil => cases h
  | cons e es ih =>
    rw [find?] at h
    rw [marks, List.count_append] at hcount
    rw [rewrite, insert]
    split at h
    next hk =>
      obtain rfl := Option.some.inj h
      have hes : m ∉ marks es := List.count_eq_zero.mp (by omega)
      rw [if_pos hk, rewrite_of_not_mem new hes]
    next hk =>
      have hle := count_le_of_find? h m
      have hx : m ∉ e.2.marks := List.count_eq_zero.mp (by omega)
      rw [if_neg hk, Linked.rewrite_of_not_mem new hx, ih h (by omega)]

/-! ## The mappings on a way -/

/-- The mapping under a text key, with its mark; an empty one where there is none. -/
def below (es : Links) (k : String) : Option Nat × Links :=
  ((es.find? (.str k)).bind Linked.entries?).getD (none, [])

/-- The marks of the mappings that a change of what `keys` lead to passes through. -/
def marksOn (es : Links) : List String → List Nat
  | k :: next :: keys => (es.below k).1.toList ++ (es.below k).2.marksOn (next :: keys)
  | _ => []

/-- No mapping on the way stands at another place. -/
def Alone (es : Links) (keys : List String) : Prop :=
  ∀ m ∈ es.marksOn keys, es.marks.count m ≤ 1

instance : Decidable (es.Alone keys) := inferInstanceAs (Decidable (∀ m ∈ es.marksOn keys, _))

/-- A mapping without a mark of its own or in it, or one that stands as it is under its key. -/
theorem below_cases (es : Links) (k : String) :
    ((es.below k).1 = none ∧ (es.below k).2.marks = []) ∨
      es.find? (.str k) = some (.map (es.below k).1 (es.below k).2) := by
  unfold below
  cases es.find? (.str k) with
  | none => exact .inl ⟨rfl, rfl⟩
  | some l =>
    cases l with
    | list => exact .inl ⟨rfl, rfl⟩
    | map => exact .inr rfl
    | plain v =>
      cases v with
      | map es => exact .inl ⟨rfl, marks_ofEntries es⟩
      | _ => exact .inl ⟨rfl, rfl⟩

theorem count_below_le (es : Links) (k : String) (m : Nat) :
    (es.below k).1.toList.count m + (es.below k).2.marks.count m ≤
      (es.find? (.str k)).elim 0 fun l => l.marks.count m := by
  rcases es.below_cases k with ⟨hmark, hinner⟩ | hfind
  · rw [hmark, hinner]
    exact Nat.zero_le _
  · rw [hfind, ← List.count_append]
    exact Nat.le_refl _

theorem elim_count_le (es : Links) (key : Value) (m : Nat) :
    ((es.find? key).elim 0 fun l => l.marks.count m) ≤ es.marks.count m := by
  cases h : es.find? key with
  | none => exact Nat.zero_le _
  | some l => exact count_le_of_find? h m

theorem count_marksOn (h : m ∈ es.marksOn keys) : 0 < es.marks.count m := by
  fun_induction marksOn es keys with
  | case1 es k next keys ih =>
    have hbelow := (es.count_below_le k m).trans (es.elim_count_le (.str k) m)
    rcases List.mem_append.mp h with hmark | hinner
    · have := List.count_pos_iff.mpr hmark
      omega
    · have := ih hinner
      omega
  | case2 => cases h

theorem marksOn_eq_nil (h : es.marks = []) (keys : List String) : es.marksOn keys = [] := by
  refine List.eq_nil_iff_forall_not_mem.mpr fun m hm => ?_
  have hpos := count_marksOn hm
  rw [h] at hpos
  exact Nat.lt_irrefl 0 hpos

/-- Where no mapping stands twice, none on any way does. -/
theorem alone_of_nodup (h : es.marks.Nodup) (keys : List String) : es.Alone keys :=
  fun m _ => List.nodup_iff_count.mp h m

theorem bare_below (es : Links) (k : String) :
    (es.below k).2.bare = Value.entries (Entries.find? es.bare (.str k)) := by
  rw [find?_bare]
  unfold below
  cases es.find? (.str k) with
  | none => rfl
  | some l =>
    cases l with
    | list => rfl
    | map => rfl
    | plain v =>
      cases v with
      | map es => exact bare_ofEntries es
      | _ => rfl

end Links

/-! ## Setting along one way -/

namespace Config

open Links

variable {es : Links} {keys other : List String} {k next : String} {m : Nat} {w : Waypoint}

theorem setLinked_cons_cons (es : Links) (k next : String) (keys : List String) (v : Value) :
    setLinked es (k :: next :: keys) v = es.insert (.str k)
      (.map (es.below k).1 (setLinked (es.below k).2 (next :: keys) v)) := by
  rw [setLinked]
  · rfl
  · exact nofun

theorem bare_setLinked (es : Links) (keys : List String) (v : Value) :
    (setLinked es keys v).bare = setPath es.bare keys v := by
  induction keys generalizing es with
  | nil => rfl
  | cons k keys ih =>
    cases keys with
    | nil => exact bare_insert es (.str k) (.plain v)
    | cons next keys =>
      rw [setLinked_cons_cons, setPath_cons_cons, bare_insert, Linked.bare, ih, bare_below]

/-- Setting adds no marks. -/
theorem count_setLinked_le (es : Links) (keys : List String) (v : Value) (m : Nat) :
    (setLinked es keys v).marks.count m ≤ es.marks.count m := by
  induction keys generalizing es with
  | nil => exact Nat.le_refl _
  | cons k keys ih =>
    cases keys with
    | nil => exact count_insert_le (Nat.zero_le _)
    | cons next keys =>
      rw [setLinked_cons_cons]
      refine count_insert_le (Nat.le_trans ?_ (es.count_below_le k m))
      rw [Linked.marks, List.count_append]
      exact Nat.add_le_add_left (ih _) _

theorem entries?_plain (v : Value) :
    (Linked.plain v).entries?.getD (none, []) = (none, ofEntries (Value.entries (some v))) := by
  cases v <;> rfl

theorem below_insert (es : Links) (k k' : String) (l : Linked) :
    (es.insert (.str k) l).below k' =
      if k = k' then (l.entries?).getD (none, []) else es.below k' := by
  unfold below
  rw [find?_insert]
  by_cases hk : k = k'
  · rw [if_pos (Value.sameKey_str.mpr hk), if_pos hk, Option.bind_some]
  · rw [if_neg (mt Value.sameKey_str.mp hk), if_neg hk]

/-- Setting puts no marked mapping on any way. -/
theorem marksOn_setLinked_subset (es : Links) (keys other : List String) (v : Value) :
    (setLinked es keys v).marksOn other ⊆ es.marksOn other := by
  induction keys generalizing es other with
  | nil => exact List.Subset.refl _
  | cons k keys ih =>
    cases other with
    | nil => exact List.Subset.refl _
    | cons k' other =>
      cases other with
      | nil => exact List.nil_subset _
      | cons next' other =>
        cases keys with
        | nil =>
          show marksOn (es.insert (.str k) (.plain v)) (k' :: next' :: other) ⊆ _
          rw [marksOn, marksOn, below_insert]
          split
          next =>
            rw [entries?_plain, marksOn_eq_nil (marks_ofEntries _)]
            exact List.nil_subset _
          next => exact List.Subset.refl _
        | cons next keys =>
          rw [setLinked_cons_cons, marksOn, marksOn, below_insert]
          split
          next hk =>
            subst hk
            exact List.append_subset.mpr ⟨List.subset_append_left _ _,
              List.Subset.trans (ih _ _) (List.subset_append_right _ _)⟩
          next => exact List.Subset.refl _

theorem alone_setLinked (h : es.Alone other) (keys : List String) (v : Value) :
    (setLinked es keys v).Alone other := fun m hm =>
  (count_setLinked_le es keys v m).trans (h m (marksOn_setLinked_subset es keys other v hm))

/-! ## Setting everywhere -/

theorem lastMarked_nil (keys : List String) : lastMarked [] keys = none := by
  fun_cases lastMarked [] keys with
  | _ => first | rfl | contradiction

theorem lastMarked_cons_cons (es : Links) (k next : String) (keys : List String) :
    lastMarked es (k :: next :: keys) =
      (lastMarked (es.below k).2 (next :: keys)).or
        ((es.below k).1.map fun m => ⟨m, (es.below k).2, next :: keys⟩) := by
  rw [lastMarked]
  unfold below
  cases (es.find? (.str k)).bind Linked.entries? with
  | none => exact (congrArg (Option.or · none) (lastMarked_nil (next :: keys))).symm
  | some found => rfl

theorem mem_marksOn_of_lastMarked (h : lastMarked es keys = some w) :
    w.mark ∈ es.marksOn keys := by
  induction keys generalizing es with
  | nil => cases h
  | cons k keys ih =>
    cases keys with
    | nil => cases h
    | cons next keys =>
      rw [lastMarked_cons_cons] at h
      rw [marksOn]
      rcases Option.or_eq_some_iff.mp h with hinner | ⟨-, hmark⟩
      · exact List.mem_append_right _ (ih hinner)
      · obtain ⟨m, hm, rfl⟩ := Option.map_eq_some_iff.mp hmark
        exact List.mem_append_left _ (by simp [hm])

theorem rewrite_lastMarked (h : lastMarked es keys = some w) (halone : es.Alone keys) (v : Value) :
    Links.rewrite w.mark (setLinked w.entries w.keys v) es = setLinked es keys v := by
  induction keys generalizing es with
  | nil => cases h
  | cons k keys ih =>
    cases keys with
    | nil => cases h
    | cons next keys =>
      have hcount := halone _ (mem_marksOn_of_lastMarked h)
      rw [lastMarked_cons_cons] at h
      have hle (m : Nat) := (es.count_below_le k m).trans (es.elim_count_le (.str k) m)
      rcases Option.or_eq_some_iff.mp h with hw | ⟨-, hmark⟩
      · -- the mark is further in, so the mapping under `k` keeps its own
        have hpos := count_marksOn (mem_marksOn_of_lastMarked hw)
        have hfind := (es.below_cases k).resolve_left fun ⟨_, hinner⟩ => by simp [hinner] at hpos
        have hne : (es.below k).1 ≠ some w.mark := by
          intro heq
          have hle := hle w.mark
          rw [heq, Option.toList_some, List.count_singleton_self] at hle
          omega
        have hinner : (es.below k).2.Alone (next :: keys) := fun m hm => by
          have hm := halone m (List.mem_append_right _ hm)
          have hle := hle m
          omega
        rw [rewrite_eq_insert hfind (List.mem_append_right _ (List.count_pos_iff.mp hpos)) hcount,
          Linked.rewrite, if_neg hne, ih hw hinner, setLinked_cons_cons]
      · obtain ⟨m, hm, rfl⟩ := Option.map_eq_some_iff.mp hmark
        have hfind := (es.below_cases k).resolve_left fun ⟨hnone, _⟩ => by simp [hnone] at hm
        have hmem : m ∈ (Linked.map (es.below k).1 (es.below k).2).marks :=
          List.mem_append_left _ (by simp [hm])
        rw [rewrite_eq_insert hfind hmem hcount, Linked.rewrite, if_pos hm, setLinked_cons_cons]

theorem assign_eq_setLinked (h : es.Alone keys) (v : Value) :
    assign es keys v = setLinked es keys v := by
  unfold assign
  split
  · rfl
  next w hw => exact rewrite_lastMarked hw h v

end Config

end Rulebook
