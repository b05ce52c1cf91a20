import Rulebook.Config.Load
import Rulebook.Proofs.Config.Sharing

/-!
# What the environment does to a configuration

The variables apply in the order of their names. Either some text stands for no value, or every
variable sets what its keys lead to, unless the keys of another go on from its own, and nothing
that parts from all of their ways is touched. That holds as long as no mapping on their ways stands
at another place as well; where one does, the other place changes too.

## Main results

* `applyEnvironment_exact`: what the environment does to a configuration.
* `not_forall_applyEnvironment_leaves`: a variable can reach further than its keys lead.
-/

namespace Rulebook.Config

open Value Links

variable {es : Links} {env : Environment} {keys : List String} {s : String × String} {v : Value}
  {settings : List Setting}

/-- Every name that is about the configuration gives keys. -/
def WellFormed (env : Environment) : Prop := ∀ s ∈ env, (keysOf? s.1).isOk = true

instance : Decidable (WellFormed env) := inferInstanceAs (Decidable (∀ s ∈ env, _))

/-- A variable of `env` sets what `keys` lead to, and `text` says to what. -/
def Sets (env : Environment) (keys : List String) (text : String) : Prop :=
  ∃ name, (name, text) ∈ env ∧ keysOf? name = .ok (some keys)

/-! ## One variable -/

/-- The setting that a variable asks for. -/
def settingOf? (s : String × String) : Option Setting :=
  match keysOf? s.1, coerce s.2.toList with
  | .ok (some keys), .ok v => some (keys, v)
  | _, _ => none

theorem settingOf?_eq_some :
    settingOf? s = some (keys, v) ↔ keysOf? s.1 = .ok (some keys) ∧ coerce s.2.toList = .ok v := by
  unfold settingOf?
  split
  next hkeys hv => simp [hkeys, hv]
  next hnot => exact iff_of_false nofun fun ⟨hkeys, hv⟩ => hnot _ _ hkeys hv

/-- The text of a variable stands for no value, or the variable is applied. -/
theorem applyVariable_cases (h : (keysOf? s.1).isOk = true) :
    (∃ keys f, keysOf? s.1 = .ok (some keys) ∧ coerce s.2.toList = .error f ∧
      ∀ es, applyVariable es s = .error (.fault f)) ∨
    (∀ keys, keysOf? s.1 = .ok (some keys) → ∃ v, coerce s.2.toList = .ok v) ∧
      ∀ es, applyVariable es s = .ok ((settingOf? s).elim es fun x => assign es x.1 x.2) := by
  unfold applyVariable settingOf?
  cases hkeys : keysOf? s.1 with
  | error e =>
    rw [hkeys] at h
    cases h
  | ok found =>
    cases found with
    | none => exact .inr ⟨nofun, fun _ => rfl⟩
    | some keys =>
      cases hv : coerce s.2.toList with
      | error f => exact .inl ⟨keys, f, rfl, rfl, fun _ => rfl⟩
      | ok v => exact .inr ⟨fun _ _ => ⟨v, rfl⟩, fun _ => rfl⟩

/-! ## All variables -/

def assignAll (es : Links) (settings : List Setting) : Links :=
  settings.foldl (fun es s => assign es s.1 s.2) es

theorem foldlM_applyVariable_cases (h : WellFormed env) (es : Links) :
    (∃ s ∈ env, ∃ keys f, keysOf? s.1 = .ok (some keys) ∧ coerce s.2.toList = .error f ∧
      env.foldlM applyVariable es = .error (.fault f)) ∨
    (∀ s ∈ env, ∀ keys, keysOf? s.1 = .ok (some keys) → ∃ v, coerce s.2.toList = .ok v) ∧
      env.foldlM applyVariable es = .ok (assignAll es (env.filterMap settingOf?)) := by
  induction env generalizing es with
  | nil => exact .inr ⟨List.forall_mem_nil _, rfl⟩
  | cons s env ih =>
    obtain ⟨hs, henv⟩ := List.forall_mem_cons.mp h
    rw [List.foldlM_cons]
    rcases applyVariable_cases hs with ⟨keys, f, hkeys, hf, happly⟩ | ⟨hcoerced, happly⟩
    · rw [happly]
      exact .inl ⟨s, List.mem_cons_self, keys, f, hkeys, hf, rfl⟩
    · have hsettings : assignAll es ((s :: env).filterMap settingOf?) =
          assignAll ((settingOf? s).elim es fun x => assign es x.1 x.2)
            (env.filterMap settingOf?) := by
        cases hs : settingOf? s with
        | none => rw [List.filterMap_cons_none hs]; rfl
        | some x => rw [List.filterMap_cons_some hs]; rfl
      rw [happly, hsettings]
      rcases ih henv ((settingOf? s).elim es fun x => assign es x.1 x.2) with
        ⟨t, ht, keys, f, hkeys, hf, hrun⟩ | ⟨hall, hrun⟩
      · exact .inl ⟨t, List.mem_cons_of_mem s ht, keys, f, hkeys, hf, hrun⟩
      · exact .inr ⟨List.forall_mem_cons.mpr ⟨hcoerced, hall⟩, hrun⟩

/-- On ways that stay alone, setting everywhere is setting along the ways. -/
theorem bare_assignAll (h : ∀ s ∈ settings, es.Alone s.1) :
    (assignAll es settings).bare = setAll es.bare settings := by
  induction settings generalizing es with
  | nil => rfl
  | cons s settings ih =>
    obtain ⟨hs, hrest⟩ := List.forall_mem_cons.mp h
    show (assignAll (assign es s.1 s.2) settings).bare = _
    rw [assign_eq_setLinked hs, ih fun t ht => alone_setLinked (hrest t ht) s.1 s.2, bare_setLinked]
    rfl

/-- The variables are gone through in the order of their names. -/
theorem pairwise_names (env : Environment) :
    (env.mergeSort fun a b => decide (a.1 ≤ b.1)).Pairwise fun a b => a.1 ≤ b.1 := by
  have htrans : ∀ a b c : String × String, decide (a.1 ≤ b.1) = true → decide (b.1 ≤ c.1) = true →
      decide (a.1 ≤ c.1) = true := fun a b c hab hbc =>
    decide_eq_true (String.le_trans (of_decide_eq_true hab) (of_decide_eq_true hbc))
  have htotal : ∀ a b : String × String, (decide (a.1 ≤ b.1) || decide (b.1 ≤ a.1)) = true :=
    fun a b => by simpa only [Bool.or_eq_true, decide_eq_true_eq] using String.le_total a.1 b.1
  exact (List.pairwise_mergeSort htrans htotal env).imp of_decide_eq_true

/-- In the order of their names, no variable comes on the way of one before it. -/
theorem pairwise_settings (hnames : (env.map (·.1)).Nodup) :
    ((env.mergeSort fun a b => decide (a.1 ≤ b.1)).filterMap settingOf?).Pairwise
      fun s later => ¬ later.1 <+: s.1 := by
  have hdistinct : (env.mergeSort fun a b => decide (a.1 ≤ b.1)).Pairwise fun a b => a.1 ≠ b.1 :=
    List.pairwise_map.mp (((List.mergeSort_perm env _).map Prod.fst).nodup_iff.mpr hnames)
  refine List.Pairwise.filterMap settingOf? ?_ ((pairwise_names env).and hdistinct)
  rintro a b ⟨hle, hne⟩ s hs later hlater hstart
  obtain ⟨ha, -⟩ := settingOf?_eq_some.mp hs
  obtain ⟨hb, -⟩ := settingOf?_eq_some.mp hlater
  exact hne (String.le_antisymm hle (le_of_keysOf? hb ha hstart))

theorem mem_settings {s : Setting} :
    s ∈ (env.mergeSort fun a b => decide (a.1 ≤ b.1)).filterMap settingOf? ↔
      ∃ text, Sets env s.1 text ∧ coerce text.toList = .ok s.2 := by
  rw [List.mem_filterMap]
  constructor
  · rintro ⟨⟨name, text⟩, hmem, hset⟩
    obtain ⟨hkeys, hv⟩ := settingOf?_eq_some.mp hset
    exact ⟨text, ⟨name, List.mem_mergeSort.mp hmem, hkeys⟩, hv⟩
  · rintro ⟨text, ⟨name, hmem, hkeys⟩, hv⟩
    exact ⟨(name, text), List.mem_mergeSort.mpr hmem, settingOf?_eq_some.mpr ⟨hkeys, hv⟩⟩

/-! ## What is set and what is left -/

theorem exists_of_toOption_map {ε α β : Type} {x : Except ε α} {facts : α → β} {b : β}
    (h : x.toOption.map facts = some b) : ∃ a, x = .ok a ∧ facts a = b := by
  cases x with
  | error => cases h
  | ok a => exact ⟨a, rfl, Option.some.inj h⟩

/-- The keys that the variables of an environment set. -/
def keysIn (env : Environment) : List (List String) :=
  env.filterMap fun s => (keysOf? s.1).toOption.join

theorem mem_keysIn {text : String} (h : Sets env keys text) : keys ∈ keysIn env := by
  obtain ⟨name, hmem, hname⟩ := h
  exact List.mem_filterMap.mpr ⟨(name, text), hmem, by rw [hname]; rfl⟩

/-- Either the text of some variable stands for no value; or all variables are applied, what each of
them sets is there unless another goes on from it, and what parts from all of their ways is as it
was. -/
theorem applyEnvironment_exact (hnames : (env.map (·.1)).Nodup) (hkeys : WellFormed env)
    (halone : ∀ keys text, Sets env keys text → es.Alone keys) :
    (∃ keys text f, Sets env keys text ∧ coerce text.toList = .error f ∧
      applyEnvironment es env = .error (.fault f)) ∨
    ∃ es', applyEnvironment es env = .ok es' ∧
      (∀ keys text, Sets env keys text → ∃ v, coerce text.toList = .ok v ∧
        ((∀ other text', Sets env other text' → keys <+: other → other = keys) →
          (map es'.bare).at? (keys.map .str) = some v)) ∧
      ∀ path, (∀ keys text, Sets env keys text → Apart (keys.map .str) path) →
        (map es'.bare).at? path = (map es.bare).at? path := by
  have hsorted : WellFormed (env.mergeSort fun a b => decide (a.1 ≤ b.1)) :=
    fun s hs => hkeys s (List.mem_mergeSort.mp hs)
  rcases foldlM_applyVariable_cases hsorted es with
    ⟨⟨name, text⟩, hmem, keys, f, hname, hf, hrun⟩ | ⟨hall, hrun⟩
  · exact .inl ⟨keys, text, f, ⟨name, List.mem_mergeSort.mp hmem, hname⟩, hf, hrun⟩
  refine .inr ⟨_, hrun, fun keys text hsets => ?_, fun path hpath => ?_⟩
  all_goals
    rw [bare_assignAll fun s hs => by
      obtain ⟨text, hsets, -⟩ := mem_settings.mp hs
      exact halone s.1 text hsets]
  · obtain ⟨name, hmem, hname⟩ := hsets
    obtain ⟨v, hv⟩ := hall (name, text) (List.mem_mergeSort.mpr hmem) keys hname
    refine ⟨v, hv, fun hlast => ?_⟩
    refine at?_setAll (s := (keys, v)) (fun s hs => ?_) (pairwise_settings hnames)
      (mem_settings.mpr ⟨text, ⟨name, hmem, hname⟩, hv⟩) (fun other hother hstart => ?_) es.bare
    · obtain ⟨_, ⟨_, _, hname⟩, _⟩ := mem_settings.mp hs
      exact (toList_of_keysOf? hname).1
    · obtain ⟨text', hsets', -⟩ := mem_settings.mp hother
      exact hlast other.1 text' hsets' hstart
  · refine at?_setAll_of_apart (fun s hs => ?_) es.bare
    obtain ⟨text, hsets, -⟩ := mem_settings.mp hs
    exact hpath s.1 text hsets

/-- One mapping stands at two places, and the variables set a third. The first variable by name
makes way for the second. -/
theorem applyEnvironment_exact_nested :
    let es : Links := [(.str "a", .map (some 1) [(.str "k", .plain (.int 1))]),
      (.str "b", .map (some 1) [(.str "k", .plain (.int 1))]),
      (.str "c", .map (some 2) [(.str "k", .plain (.int 1))])]
    ∃ es', applyEnvironment es [("AI_SYNC_c__k__n", "true"), ("AI_SYNC_c__k", "2")] = .ok es' ∧
      (map es'.bare).at? [.str "c", .str "k", .str "n"] = some (.bool true) ∧
      (map es'.bare).at? [.str "b", .str "k"] = some (.int 1) := by
  intro es
  have hnames : ([("AI_SYNC_c__k__n", "true"), ("AI_SYNC_c__k", "2")].map (·.1)).Nodup := by decide
  have hwell : WellFormed [("AI_SYNC_c__k__n", "true"), ("AI_SYNC_c__k", "2")] := by
    decide +kernel
  have halone : ∀ keys ∈ keysIn [("AI_SYNC_c__k__n", "true"), ("AI_SYNC_c__k", "2")],
      es.Alone keys := by decide +kernel
  rcases applyEnvironment_exact hnames hwell fun keys _ h => halone keys (mem_keysIn h) with
    ⟨_, text, f, ⟨name, hmem, -⟩, hf, -⟩ | ⟨es', hok, hset, hleft⟩
  · have hcoerced : ∀ s ∈ [("AI_SYNC_c__k__n", "true"), ("AI_SYNC_c__k", "2")],
        (coerce s.2.toList).isOk = true := by decide +kernel
    have htext := hcoerced (name, text) hmem
    rw [hf] at htext
    cases htext
  · have hsets : Sets [("AI_SYNC_c__k__n", "true"), ("AI_SYNC_c__k", "2")] ["c", "k", "n"] "true" :=
      ⟨_, List.mem_cons_self, rfl⟩
    have hlast : ∀ other ∈ keysIn [("AI_SYNC_c__k__n", "true"), ("AI_SYNC_c__k", "2")],
        ["c", "k", "n"] <+: other → other = ["c", "k", "n"] := by decide +kernel
    have hapart : ∀ keys ∈ keysIn [("AI_SYNC_c__k__n", "true"), ("AI_SYNC_c__k", "2")],
        Apart (keys.map Value.str) [.str "b", .str "k"] := by decide +kernel
    obtain ⟨v, hv, hthere⟩ := hset _ _ hsets
    have htrue : (coerce "true".toList).toOption = some (.bool true) := by decide +kernel
    rw [hv] at htrue
    obtain rfl := Option.some.inj htrue
    exact ⟨es', hok, hthere fun other _ h => hlast other (mem_keysIn h),
      hleft _ fun keys _ h => hapart keys (mem_keysIn h)⟩

/-- A variable can change what parts from all ways that the variables set. -/
theorem not_forall_applyEnvironment_leaves :
    ¬ ∀ (es es' : Links) (env : Environment), (env.map (·.1)).Nodup → WellFormed env →
      applyEnvironment es env = .ok es' →
      ∀ path, (∀ keys text, Sets env keys text → Apart (keys.map .str) path) →
        (map es'.bare).at? path = (map es.bare).at? path := by
  intro h
  have hafter : ((applyEnvironment
      [(.str "a", .map (some 1) [(.str "k", .plain (.int 1))]),
        (.str "b", .map (some 1) [(.str "k", .plain (.int 1))])]
      [("AI_SYNC_a__k", "2")]).toOption.map fun es' =>
        (map es'.bare).at? [.str "b", .str "k"]) = some (some (.int 2)) := by
    decide +kernel
  obtain ⟨es', hok, hreached⟩ := exists_of_toOption_map hafter
  have hapart : ∀ keys ∈ keysIn [("AI_SYNC_a__k", "2")],
      Apart (keys.map Value.str) [.str "b", .str "k"] := by decide +kernel
  have hsame := h _ es' [("AI_SYNC_a__k", "2")] (by decide) (by decide +kernel) hok
    [.str "b", .str "k"] fun keys _ hsets => hapart keys (mem_keysIn hsets)
  rw [hreached] at hsame
  revert hsame
  decide

/-- An alias makes the same mapping stand at two places. -/
example : (load
    ⟨⟨[([".ai"], .directory), ([".ai", "config.yaml"],
      .file ("variables:\n  a: &x \x7bk: 1\x7d\n  b: *x\n".toUTF8.toList))]⟩, []⟩
    [("AI_SYNC_variables__a__k", "2")] ⟨.root, []⟩ true).toOption.bind
      (fun es => (map es).at? [.str "variables", .str "b", .str "k"]) = some (.int 2) := by
  decide +kernel

end Rulebook.Config
