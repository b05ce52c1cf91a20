import Rulebook.Composition.Composer
import Rulebook.Config.Load
import Rulebook.Proofs.Config.Override

/-!
# What the schema accepts

A value without violations is of one of the kinds of its schema, is one of the choices, and so on
for all that is in it (`Schema.violations_eq_nil_iff`). For the schema of the configuration this
leaves settings that the program can use as they stand (`Config.isSound_of_violations`): those that
are there, for the schema requires none.
-/

namespace Rulebook

/-! ## Integral numbers -/

namespace Binary64

variable {x : Binary64} {n : Int}

/-- An integral number is a multiple of its sign, and has no fraction to lose. -/
theorem toInt?_cases (h : x.toInt? = some n) : ∃ (s : Bool) (m k : Nat) (e : Int),
    x.form = .finite s m e ∧ n = (if s then -(k : Int) else k) ∧ (m = 0 → k = 0) ∧
      x.truncate? = some n := by
  unfold toInt? at h
  unfold truncate?
  split at h
  next s m e hform =>
    dsimp only at h ⊢
    split at h
    next hle =>
      obtain rfl := Option.some.inj h
      exact ⟨s, m, _, e, hform, rfl, fun hm => by rw [hm, Nat.zero_mul], by rw [if_pos hle]⟩
    next hle =>
      split at h
      · obtain rfl := Option.some.inj h
        exact ⟨s, m, _, e, hform, rfl, fun hm => by rw [hm, Nat.zero_div], by rw [if_neg hle]⟩
      · cases h
  · cases h

theorem mantissa_eq_zero {s : Bool} {m : Nat} {e : Int} (h : x.form = .finite s m e)
    (hzero : x.magnitude = 0) : m = 0 := by
  have hbits : x.bits.toNat % 9223372036854775808 = 0 := hzero
  have hunit : Nat.pow 2 52 = 4503599627370496 := rfl
  have hrange : Nat.pow 2 11 = 2048 := rfl
  simp only [form, hunit, hrange] at h
  split at h
  · split at h <;> cases h
  · split at h
    · injection h with _ hm
      omega
    · omega

theorem negative_of_form {s : Bool} {m : Nat} {e : Int} (h : x.form = .finite s m e) :
    x.negative = s := by
  unfold form at h
  dsimp only at h
  split at h
  · split at h <;> cases h
  · split at h <;> cases h <;> rfl

/-- An integral number that does not lie below zero is not negative. -/
theorem nonneg_of_toInt? (h : x.toInt? = some n) (hzero : x.lt (ofInt 0) = false) : 0 ≤ n := by
  obtain ⟨s, m, k, e, hform, rfl, hk, -⟩ := toInt?_cases h
  cases s with
  | false => exact Int.natCast_nonneg k
  | true =>
    have hofInt : ofInt 0 = ⟨0⟩ := by decide
    have hmagnitude : x.magnitude = 0 := by
      rw [hofInt] at hzero
      have hform0 : (⟨0⟩ : Binary64).form = .finite false 0 (-1074) := by decide
      have hmagnitude0 : (⟨0⟩ : Binary64).magnitude = 0 := by decide
      simp only [lt, hform, hform0, negative_of_form hform, negative_of_form hform0,
        hmagnitude0] at hzero
      simpa using hzero
    simp [hk (mantissa_eq_zero hform hmagnitude)]

end Binary64

/-! ## Acceptance in general -/

namespace Schema

variable {v : Value} {es : Entries} {properties : List (String × Schema)}

theorem here_eq_nil_iff {isWrong : Bool} {offence : Offence} :
    here v isWrong offence = [] ↔ isWrong = false := by
  cases isWrong <;> simp [here]

theorem under_eq_nil_iff {key : Value} {l : List Violation} : under key l = [] ↔ l = [] :=
  List.map_eq_nil_iff

theorem propertyViolations_eq_nil_iff : propertyViolations es properties = [] ↔
    ∀ p ∈ properties, ∀ w, es.field? p.1 = some w → violations w p.2 = [] := by
  induction properties with
  | nil => exact iff_of_true rfl (List.forall_mem_nil _)
  | cons p properties ih =>
    rw [propertyViolations, List.append_eq_nil_iff, ih, List.forall_mem_cons]
    refine and_congr_left fun _ => ?_
    cases es.field? p.1 with
    | none => exact iff_of_true rfl nofun
    | some w => simp [under_eq_nil_iff]

theorem otherViolations_eq_nil_iff {others : Option Schema} : otherViolations es others = [] ↔
    ∀ s ∈ others, ∀ e ∈ es, violations e.2 s = [] := by
  cases others with
  | none => simp [otherViolations]
  | some s => simp [otherViolations, List.flatMap_eq_nil_iff, under_eq_nil_iff]

theorem itemViolations_eq_nil_iff {vs : List Value} {items : Option Schema} :
    itemViolations (.list vs) items = [] ↔ ∀ s ∈ items, ∀ w ∈ vs, violations w s = [] := by
  cases items with
  | none => simp [itemViolations]
  | some s =>
    simp only [itemViolations, List.flatMap_eq_nil_iff, under_eq_nil_iff, Option.mem_def,
      Option.some.injEq, forall_eq']
    refine ⟨fun h w hw => ?_, fun h x hx => h x.1 (List.fst_mem_of_mem_zipIdx hx)⟩
    obtain ⟨i, hi, rfl⟩ := List.mem_iff_getElem.mp hw
    exact h (vs[i], i) (List.mk_mem_zipIdx_iff_getElem?.mpr (List.getElem?_eq_getElem hi))

/-- A mapping in itself and in its parts. -/
structure AcceptsEntries (properties : List (String × Schema)) (others : Option Schema)
    (closed : Bool) (es : Entries) : Prop where
  named : ∀ p ∈ properties, ∀ w, es.field? p.1 = some w → violations w p.2 = []
  unnamed : ∀ s ∈ others, ∀ e ∈ extras properties es, violations e.2 s = []
  closed : closed = true → extras properties es = []

/-- A list in itself and in its items. -/
structure AcceptsItems (items : Option Schema) (distinct : Bool) (vs : List Value) : Prop where
  items : ∀ s ∈ items, ∀ w ∈ vs, violations w s = []
  distinct : distinct = true → Value.allDistinct vs = true

/-- Only a mapping has entries to look at. -/
theorem entryViolations_eq_nil_iff {others : Option Schema} {closed : Bool} :
    let es := match v with
      | .map es => es
      | _ => []
    let extra := extras properties es
    propertyViolations es properties = [] ∧ otherViolations extra others = [] ∧
        (closed && !extra.isEmpty) = false ↔
      ∀ es, v = .map es → AcceptsEntries properties others closed es := by
  intro es extra
  have haccepts : (propertyViolations es properties = [] ∧ otherViolations extra others = [] ∧
      (closed && !extra.isEmpty) = false) ↔ AcceptsEntries properties others closed es := by
    rw [propertyViolations_eq_nil_iff, otherViolations_eq_nil_iff]
    refine ⟨fun ⟨h₁, h₂, h₃⟩ => ⟨h₁, h₂, fun hclosed => ?_⟩, fun h => ⟨h.named, h.unnamed, ?_⟩⟩
    · simpa [hclosed] using h₃
    · cases closed with
      | false => rfl
      | true =>
        have hextra : extra = [] := h.closed rfl
        rw [hextra]
        rfl
  rw [haccepts]
  cases v with
  | map es => exact ⟨fun h _ heq => Value.map.inj heq ▸ h, fun h => h es rfl⟩
  | _ =>
    exact iff_of_true
      ⟨fun _ _ _ h => (nomatch h), fun _ _ => List.forall_mem_nil _, fun _ => rfl⟩ nofun

/-- Only a list has items to look at. -/
theorem listViolations_eq_nil_iff {items : Option Schema} {distinct : Bool} :
    (itemViolations v items = [] ∧
      (match v with
        | .list vs => here v (distinct && !Value.allDistinct vs) .repeated
        | _ => []) = []) ↔
      ∀ vs, v = .list vs → AcceptsItems items distinct vs := by
  cases v with
  | list vs =>
    simp only [itemViolations_eq_nil_iff, here_eq_nil_iff, Value.list.injEq, forall_eq']
    refine ⟨fun ⟨h₁, h₂⟩ => ⟨h₁, fun hdistinct => ?_⟩, fun h => ⟨h.items, ?_⟩⟩
    · simpa [hdistinct] using h₂
    · cases distinct with
      | false => rfl
      | true => simp [h.distinct rfl]
  | _ => cases items <;> exact iff_of_true ⟨rfl, rfl⟩ nofun

/-- A value has no violations if it satisfies the schema part by part. -/
theorem violations_eq_nil_iff {kinds : List Kind} {choices : List Value}
    {others : Option Schema} {closed : Bool} {items : Option Schema} {distinct : Bool}
    {least : Option Int} :
    violations v (.mk kinds choices properties others closed items distinct least) = [] ↔
      (kinds = [] ∨ ∃ k ∈ kinds, k.holds v = true) ∧
      (choices = [] ∨ ∃ c ∈ choices, c.equates v = true) ∧
      (∀ es, v = .map es → AcceptsEntries properties others closed es) ∧
      (∀ vs, v = .list vs → AcceptsItems items distinct vs) ∧
      ∀ n ∈ least, v.isBelow n = false := by
  have hsome {α : Type} (l : List α) (p : α → Bool) :
      (!l.isEmpty && !l.any p) = false ↔ l = [] ∨ ∃ a ∈ l, p a = true := by
    rw [Bool.and_eq_false_imp, Bool.not_eq_true', List.isEmpty_eq_false_iff, Bool.not_eq_false',
      List.any_eq_true, Classical.or_iff_not_imp_left]
  have hleast : least.elim [] (fun n => here v (v.isBelow n) (.tooSmall n)) = [] ↔
      ∀ n ∈ least, v.isBelow n = false := by
    cases least with
    | none => simp
    | some n => simp [here_eq_nil_iff]
  have hparts := and_congr (hsome kinds (·.holds v)) (and_congr (hsome choices (·.equates v))
    (and_congr (@entryViolations_eq_nil_iff v properties others closed)
      (and_congr (@listViolations_eq_nil_iff v items distinct) hleast)))
  unfold violations
  cases least <;>
    simp only [List.append_eq_nil_iff, here_eq_nil_iff, and_assoc, Option.elim] at hparts ⊢ <;>
    exact hparts

/-! ## The schema of the configuration -/

theorem violations_ofKinds_eq_nil_iff {kinds : List Kind} (h : kinds ≠ []) :
    violations v (ofKinds kinds) = [] ↔ ∃ k ∈ kinds, k.holds v = true := by
  rw [ofKinds, violations_eq_nil_iff, or_iff_right h]
  refine and_iff_left ⟨.inl rfl, fun es _ => ?_, fun vs _ => ?_, nofun⟩
  · exact ⟨fun _ h => (nomatch h), nofun, nofun⟩
  · exact ⟨nofun, nofun⟩

end Schema

namespace Entries

theorem field?_insert (es : Entries) (key name : String) (v : Value) :
    (es.insert (.str key) v).field? name = if key = name then some v else es.field? name := by
  rw [field?, Value.find?_insert_str]
  simp only [Value.str.injEq]
  rfl

theorem insert_of_find? {es : Entries} {key v : Value} (h : es.find? key = some v) :
    es.insert key v = es := by
  induction es with
  | nil => cases h
  | cons e es ih =>
    rw [find?] at h
    rw [insert]
    split at h
    next hk => rw [if_pos hk, ← Option.some.inj h]
    next hk => rw [if_neg hk, ih h]

end Entries

namespace Value

/-- The integer that a number without a fraction stands for. -/
def integral? : Value → Option Int
  | .int n => some n
  | .float x => x.toInt?
  | _ => none

theorem isSome_integral?_eq (v : Value) : v.integral?.isSome = Kind.integer.holds v := by
  cases v <;> rfl

theorem nonneg_of_integral? {v : Value} {n : Int} (h : v.integral? = some n)
    (hzero : v.isBelow 0 = false) : 0 ≤ n := by
  cases v with
  | int m =>
    obtain rfl := Option.some.inj h
    simpa [isBelow] using hzero
  | float x => exact Binary64.nonneg_of_toInt? h hzero
  | _ => cases h

theorem equates_str_iff {s : String} {v : Value} : equates (.str s) v = true ↔ v = .str s := by
  cases v with
  | bool b => exact iff_of_false Bool.false_ne_true nofun
  | _ =>
    rw [equates, sameKey_str_left, eq_comm]
    all_goals exact nofun

end Value

theorem Composer.integerOf_of_integral? {v : Value} {n : Int} (h : v.integral? = some n) :
    integerOf v = .ok n := by
  cases v with
  | int m => exact congrArg _ (Option.some.inj h)
  | float x =>
    obtain ⟨s, m, k, e, hform, -, -, htruncated⟩ := Binary64.toInt?_cases h
    simp only [integerOf, hform, htruncated]
  | _ => cases h

namespace Target

/-- Targets that are listed once each are selected as they are listed. -/
theorem selectFrom_map_name {found l : List Target} (h : (found ++ l).Nodup) :
    selectFrom found (l.map fun t => .str t.name) = .ok (found ++ l) := by
  induction l generalizing found with
  | nil => rw [List.append_nil]; rfl
  | cons t l ih =>
    have ht : t ∉ found := fun hmem =>
      (List.nodup_append.mp h).2.2 t hmem t List.mem_cons_self rfl
    have hl : (found ++ [t] ++ l).Nodup := by simpa using h
    rw [List.map_cons, selectFrom, ofValue?, ofName?_name]
    simp only [if_neg ht]
    rw [ih hl, List.append_assoc, List.singleton_append]

end Target

namespace Config

open Schema

variable {es : Entries} {v : Value}

/-- The field `name` of the composition. -/
def compositionField? (config : Entries) (name : String) : Option Value :=
  (Value.entries (config.field? "composition")).field? name

/-- What every command can rely on. -/
structure IsSound (config : Entries) : Prop where
  vars : ∃ vars, config.field? "variables" = some (.map vars)
  targets : ∃ chosen : List Target, chosen.Nodup ∧
    config.field? "targets" = some (.list (chosen.map fun t => .str t.name))
  composition : ∃ fields, config.field? "composition" = some (.map fields)
  depth : ∀ v, compositionField? config "max_include_depth" = some v →
    ∃ n : Nat, v.integral? = some (n : Int)
  keepSpace : ∀ v, compositionField? config "preserve_whitespace" = some v → ∃ b, v = .bool b

theorem exists_targets {vs : List Value} (hnamed : ∀ v ∈ vs, ∃ t : Target, v = .str t.name)
    (hdistinct : Value.allDistinct vs = true) :
    ∃ chosen : List Target, chosen.Nodup ∧ vs = chosen.map fun t => .str t.name := by
  induction vs with
  | nil => exact ⟨[], List.nodup_nil, rfl⟩
  | cons v vs ih =>
    obtain ⟨⟨t, rfl⟩, htail⟩ := List.forall_mem_cons.mp hnamed
    obtain ⟨hfirst, hrest⟩ := Bool.and_eq_true_iff.mp hdistinct
    obtain ⟨chosen, hchosen, rfl⟩ := ih htail hrest
    refine ⟨t :: chosen, List.nodup_cons.mpr ⟨fun ht => ?_, hchosen⟩, rfl⟩
    have hrepeated : (chosen.map fun t => Value.str t.name).any (Value.equates (.str t.name)) :=
      List.any_eq_true.mpr ⟨_, List.mem_map_of_mem ht, Value.equates_str_iff.mpr rfl⟩
    rw [hrepeated] at hfirst
    cases hfirst

theorem targets_of_violations (h : targetsSchema.violations v = []) :
    ∃ chosen : List Target, chosen.Nodup ∧ v = .list (chosen.map fun t => .str t.name) := by
  obtain ⟨hkind, -, -, hlist, -⟩ := violations_eq_nil_iff.mp h
  obtain ⟨vs, rfl⟩ : ∃ vs, v = .list vs := by
    cases v with
    | list vs => exact ⟨vs, rfl⟩
    | _ => simp [Kind.holds] at hkind
  obtain ⟨hitems, hdistinct⟩ := hlist vs rfl
  have hnamed (w : Value) (hw : w ∈ vs) : ∃ t : Target, w = .str t.name := by
    obtain ⟨-, hchoice, -⟩ := violations_eq_nil_iff.mp (hitems _ rfl w hw)
    obtain ⟨c, hc, hequates⟩ := hchoice.resolve_left (by decide)
    obtain ⟨t, -, rfl⟩ := List.mem_map.mp hc
    exact ⟨t, Value.equates_str_iff.mp hequates⟩
  obtain ⟨chosen, hchosen, rfl⟩ := exists_targets hnamed (hdistinct rfl)
  exact ⟨chosen, hchosen, rfl⟩

theorem eq_map_of_holds (h : Kind.object.holds v = true) : ∃ es, v = .map es := by
  cases v with
  | map es => exact ⟨es, rfl⟩
  | _ => cases h

theorem depth_of_violations
    (h : violations v (.mk [.integer] [] [] none false none false (some 0)) = []) :
    ∃ n : Nat, v.integral? = some (n : Int) := by
  obtain ⟨hkind, -, -, -, hleast⟩ := violations_eq_nil_iff.mp h
  have hinteger : Kind.integer.holds v = true := by simpa using hkind
  obtain ⟨n, hn⟩ := Option.isSome_iff_exists.mp (Value.isSome_integral?_eq v ▸ hinteger)
  obtain ⟨k, rfl⟩ := Int.eq_ofNat_of_zero_le (Value.nonneg_of_integral? hn (hleast 0 rfl))
  exact ⟨k, hn⟩

theorem truth_of_violations (h : violations v (ofKinds [.boolean]) = []) : ∃ b, v = .bool b := by
  obtain ⟨k, hk, hholds⟩ := (violations_ofKinds_eq_nil_iff (by decide)).mp h
  obtain rfl := List.mem_singleton.mp hk
  cases v with
  | bool b => exact ⟨b, rfl⟩
  | _ => cases hholds

/-- A valid configuration is sound, provided that its entries are there at all. -/
theorem isSound_of_violations (h : schema.violations (.map es) = [])
    (hkeys : ∀ name ∈ ["variables", "targets", "composition"], (es.field? name).isSome) :
    IsSound es := by
  obtain ⟨-, -, hentries, -⟩ := violations_eq_nil_iff.mp h
  have hnamed := (hentries es rfl).named
  have hkey (name : String) (hname : name ∈ ["variables", "targets", "composition"]) :=
    Option.isSome_iff_exists.mp (hkeys name hname)
  obtain ⟨vars, hvars⟩ := hkey "variables" (by decide)
  obtain ⟨targets, htargets⟩ := hkey "targets" (by decide)
  obtain ⟨composition, hcomposition⟩ := hkey "composition" (by decide)
  -- each of them satisfies its own schema
  obtain ⟨hkind, -⟩ :=
    violations_eq_nil_iff.mp (hnamed ("variables", variablesSchema) (by simp) vars hvars)
  obtain ⟨vars, rfl⟩ := eq_map_of_holds (by simpa using hkind)
  obtain ⟨chosen, hchosen, rfl⟩ :=
    targets_of_violations (hnamed ("targets", targetsSchema) (by simp) targets htargets)
  obtain ⟨hkind, -, hfields, -⟩ := violations_eq_nil_iff.mp
    (hnamed ("composition", compositionSchema) (by simp) composition hcomposition)
  obtain ⟨fields, rfl⟩ := eq_map_of_holds (by simpa using hkind)
  have hfields := (hfields fields rfl).named
  have hfield (name : String) : compositionField? es name = Entries.field? fields name := by
    rw [compositionField?, hcomposition]
    rfl
  refine ⟨⟨vars, hvars⟩, ⟨chosen, hchosen, htargets⟩, ⟨fields, hcomposition⟩, fun v hv => ?_,
    fun v hv => ?_⟩
  · rw [hfield] at hv
    exact depth_of_violations (hfields _ List.mem_cons_self v hv)
  · rw [hfield] at hv
    exact truth_of_violations (hfields ("preserve_whitespace", ofKinds [.boolean]) (by simp) v hv)

theorem Tools.validate_eq_ok_iff {t : Tools} :
    t.validate es = .ok () ↔ t.validator schema (.map es) = .ok none := by
  unfold validate
  rcases t.validator schema (.map es) with _ | _ | x
  · exact iff_of_false nofun nofun
  · exact iff_of_true rfl rfl
  · refine iff_of_false (fun h => ?_) nofun
    dsimp only [Except.mapError, bind, Except.bind] at h
    split at h <;> cases h

theorem Tools.report_eq_none_iff {s : Schema} : report s v = .ok none ↔ s.violations v = [] := by
  unfold report
  cases s.violations v with
  | nil => exact iff_of_true rfl rfl
  | cons x xs =>
    refine iff_of_false (fun h => ?_) nofun
    obtain ⟨first, -, h⟩ := bind_eq_ok_iff.mp h
    obtain ⟨worst, -, h⟩ := bind_eq_ok_iff.mp h
    cases h

theorem validate_eq_ok_iff : validate es = .ok () ↔ schema.violations (.map es) = [] :=
  Tools.validate_eq_ok_iff.trans Tools.report_eq_none_iff

end Config

end Rulebook
