import Mathlib.Data.List.Infix
import Rulebook.Config.Environment

/-!
# One override after another

Setting what some keys lead to leaves all ways alone that part from theirs (`at?_setPath_of_apart`),
and what they lead to is then what was set (`at?_setPath`). In a sequence of settings nothing that
was set is lost again if no later way starts with an earlier one or is its start. In the order of
names a variable comes after all those whose keys its own keys start with, because the names then
start with each other too (`le_of_keysOf?`).
-/

namespace Rulebook

/-- Neither way is the start of the other. -/
def Apart {α : Type} (p q : List α) : Prop := ¬ p <+: q ∧ ¬ q <+: p

instance {α : Type} [DecidableEq α] {p q : List α} : Decidable (Apart p q) :=
  inferInstanceAs (Decidable (_ ∧ _))

/-! ## Ways into a value -/

namespace Value

/-- What the keys lead to, through mappings only. -/
def at? (v : Value) : List Value → Option Value
  | [] => some v
  | key :: keys => match v with
    | .map es => (Entries.find? es key).bind fun w => w.at? keys
    | _ => none

variable {es : Entries} {key : Value} {keys : List Value} {s : String}

@[simp] theorem at?_nil (v : Value) : v.at? [] = some v := by cases v <;> rfl

@[simp] theorem at?_map_cons : (map es).at? (key :: keys) =
    (Entries.find? es key).bind fun w => w.at? keys := rfl

theorem sameKey_str_left : (str s).sameKey key = true ↔ str s = key := by
  rw [sameKey_iff]
  constructor
  · intro h
    cases key with
    | float x =>
      simp only [keyForm] at h
      split at h <;> cases h
    | _ => first | exact h | cases h
  · exact fun h => by rw [h]

theorem find?_insert_str (es : Entries) (s : String) (key v : Value) :
    (es.insert (.str s) v).find? key = if .str s = key then some v else es.find? key := by
  rw [Entries.find?_insert]
  simp only [sameKey_str_left]

/-- The entries of a mapping; nothing else has any. -/
def entries (v : Option Value) : Entries :=
  match v with
  | some (.map es) => es
  | _ => []

end Value

namespace Config

open Value

variable {es : Entries} {keys : List String} {path : List Value} {v : Value} {name : String}

theorem setPath_cons_cons (es : Entries) (key next : String) (keys : List String) (v : Value) :
    setPath es (key :: next :: keys) v =
      es.insert (.str key) (.map (setPath (entries (es.find? (.str key))) (next :: keys) v)) := by
  rw [setPath]
  · rfl
  · exact nofun

/-- What was set is there. -/
theorem at?_setPath (hkeys : keys ≠ []) (es : Entries) (v : Value) :
    (map (setPath es keys v)).at? (keys.map .str) = some v := by
  induction keys generalizing es with
  | nil => exact absurd rfl hkeys
  | cons key keys ih =>
    cases keys with
    | nil =>
      show (map (es.insert (.str key) v)).at? [.str key] = some v
      rw [at?_map_cons, find?_insert_str, if_pos rfl, Option.bind_some, at?_nil]
    | cons next keys =>
      rw [setPath_cons_cons, List.map_cons, at?_map_cons, find?_insert_str, if_pos rfl]
      exact ih (List.cons_ne_nil next keys) _

/-- Below what is no mapping there is nothing. -/
theorem at?_entries (found : Option Value) (hpath : path ≠ []) :
    (map (entries found)).at? path = found.bind fun w => w.at? path := by
  obtain ⟨key, rest, rfl⟩ := List.exists_cons_of_ne_nil hpath
  cases found with
  | none => rfl
  | some w => cases w <;> rfl

/-- A way that parts from the one that is set leads to the same as before. -/
theorem at?_setPath_of_apart (h : Apart (keys.map .str) path) (es : Entries) (v : Value) :
    (map (setPath es keys v)).at? path = (map es).at? path := by
  induction keys generalizing es path with
  | nil => exact absurd List.nil_prefix h.1
  | cons key keys ih =>
    cases path with
    | nil => exact absurd List.nil_prefix h.2
    | cons first path =>
      have hset (w : Value) (hne : str key ≠ first) :
          (map (es.insert (.str key) w)).at? (first :: path) = (map es).at? (first :: path) := by
        rw [at?_map_cons, at?_map_cons, find?_insert_str, if_neg hne]
      by_cases hfirst : str key = first
      · subst hfirst
        have hrest : Apart (keys.map .str) path :=
          ⟨fun hp => h.1 (List.cons_prefix_cons.mpr ⟨rfl, hp⟩),
            fun hp => h.2 (List.cons_prefix_cons.mpr ⟨rfl, hp⟩)⟩
        cases keys with
        | nil => exact absurd List.nil_prefix hrest.1
        | cons next keys =>
          have hpath : path ≠ [] := fun hnil => hrest.2 (hnil ▸ List.nil_prefix)
          rw [setPath_cons_cons, at?_map_cons, at?_map_cons, find?_insert_str, if_pos rfl,
            Option.bind_some, ih hrest, at?_entries _ hpath]
      · cases keys with
        | nil => exact hset v hfirst
        | cons next keys =>
          rw [setPath_cons_cons]
          exact hset _ hfirst

/-! ## Settings in sequence -/

/-- Keys and the value that they are to lead to. -/
abbrev Setting := List String × Value

def setAll (es : Entries) (settings : List Setting) : Entries :=
  settings.foldl (fun es s => setPath es s.1 s.2) es

variable {settings : List Setting}

theorem at?_setAll_of_apart (h : ∀ s ∈ settings, Apart (s.1.map .str) path) (es : Entries) :
    (map (setAll es settings)).at? path = (map es).at? path := by
  induction settings generalizing es with
  | nil => rfl
  | cons s settings ih =>
    obtain ⟨hs, h⟩ := List.forall_mem_cons.mp h
    exact (ih h _).trans (at?_setPath_of_apart hs es s.2)

/-- A setting lasts if no later one is on its way and none goes on from it. -/
theorem at?_setAll (hne : ∀ s ∈ settings, s.1 ≠ [])
    (horder : settings.Pairwise fun s later => ¬ later.1 <+: s.1) {s : Setting} (hs : s ∈ settings)
    (hlast : ∀ other ∈ settings, s.1 <+: other.1 → other.1 = s.1) (es : Entries) :
    (map (setAll es settings)).at? (s.1.map .str) = some s.2 := by
  induction settings generalizing es with
  | nil => cases hs
  | cons first settings ih =>
    obtain ⟨hfirst, hne⟩ := List.forall_mem_cons.mp hne
    obtain ⟨hlater, horder⟩ := List.pairwise_cons.mp horder
    obtain ⟨hlast, hlast'⟩ := List.forall_mem_cons.mp hlast
    rcases List.mem_cons.mp hs with rfl | hs
    · -- what comes later neither goes on from here nor stands on the way
      have hapart : ∀ later ∈ settings, Apart (later.1.map Value.str) (s.1.map .str) := by
        intro later hmem
        have hinj : Function.Injective Value.str := fun _ _ h => Value.str.inj h
        refine ⟨fun h => hlater later hmem ((List.prefix_map_iff_of_injective hinj).mp h),
          fun h => ?_⟩
        have hsame := hlast' later hmem ((List.prefix_map_iff_of_injective hinj).mp h)
        exact hlater later hmem (hsame ▸ List.prefix_refl _)
      exact (at?_setAll_of_apart hapart _).trans (at?_setPath hfirst es s.2)
    · exact ih hne horder hs hlast' _

/-! ## The keys in a name -/

theorem intercalate_isPrefix {as bs : List Text} (sep : Text) (h : as <+: bs) :
    sep.intercalate as <+: sep.intercalate bs := by
  obtain ⟨cs, rfl⟩ := h
  induction as with
  | nil => exact List.nil_prefix
  | cons a as ih =>
    cases as with
    | nil =>
      cases cs with
      | nil => exact List.prefix_refl _
      | cons c cs =>
        rw [List.singleton_append, List.intercalate_singleton, List.intercalate_cons_cons,
          List.append_assoc]
        exact List.prefix_append a _
    | cons a' as =>
      rw [List.cons_append, List.cons_append, List.intercalate_cons_cons,
        List.intercalate_cons_cons]
      exact (List.prefix_append_right_inj _).mpr ih

theorem splitKeys_ne_nil (s : Text) : splitKeys s ≠ [] := by
  fun_cases splitKeys s <;> exact List.cons_ne_nil _ _

/-- Nothing but the double underscores is left out. -/
theorem intercalate_splitKeys (s : Text) : ['_', '_'].intercalate (splitKeys s) = s := by
  fun_induction splitKeys s with
  | case1 => rfl
  | case2 s ih => rw [List.intercalate_cons_of_ne_nil (splitKeys_ne_nil s), ih]; rfl
  | case3 c s _ hnil ih => exact absurd hnil (splitKeys_ne_nil s)
  | case4 c s _ piece pieces hsplit ih =>
    rw [hsplit] at ih
    rw [← ih]
    cases pieces <;> simp [List.intercalate_cons_cons]

/-- A name spells out its keys. -/
theorem toList_of_keysOf? (h : keysOf? name = .ok (some keys)) :
    keys ≠ [] ∧
      name.toList = variableStart.toList ++ ['_', '_'].intercalate (keys.map String.toList) := by
  unfold keysOf? at h
  split at h
  · cases h
  next rest hrest =>
    dsimp only at h
    split at h
    · cases h
    obtain rfl := Option.some.inj (Except.ok.inj h)
    refine ⟨fun hnil => splitKeys_ne_nil rest (List.map_eq_nil_iff.mp hnil), ?_⟩
    have hpieces : (splitKeys rest).map (String.toList ∘ String.ofList) = splitKeys rest := by
      simp [Function.comp_def]
    rw [List.map_map, hpieces, intercalate_splitKeys]
    exact Search.dropStart?_eq_some.mp hrest

/-- Names are in order when the keys of one start with those of the other. -/
theorem le_of_keysOf? {name' : String} {keys' : List String} (h : keysOf? name = .ok (some keys))
    (h' : keysOf? name' = .ok (some keys')) (hkeys : keys <+: keys') : name ≤ name' := by
  obtain ⟨-, hname⟩ := toList_of_keysOf? h
  obtain ⟨-, hname'⟩ := toList_of_keysOf? h'
  have hpieces := intercalate_isPrefix ['_', '_'] (hkeys.map String.toList)
  have hstart : name.toList <+: name'.toList := by
    rw [hname, hname']
    exact (List.prefix_append_right_inj _).mpr hpieces
  exact List.IsPrefix.le hstart

end Config

end Rulebook
