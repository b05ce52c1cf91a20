import Rulebook.CommandLine.Run
import Rulebook.Proofs.Config.Loaded

/-!
# What a command can rely on

Every command reads the variables, the targets and the composition of the configuration. When it is
loaded they have the right kinds, and a composer can be made from them. But an environment variable
can put another mapping in the place of the composition, and the schema asks for none of its fields:
each is there if the file, a variable or such a mapping supplies it (`Config.Supplies`), and `deps`
fails without the limit.

## Main results

* `Config.load_sufficient`: what a loaded configuration is good for, and which fields it has.
* `Config.not_forall_depthLimit`: a loaded configuration without a limit for `deps`.
-/

namespace Rulebook

/-! ## Composers of sound configurations -/

namespace Target

theorem exists_selectFrom_map_name (found l : List Target) :
    ∃ chosen, selectFrom found (l.map fun t => .str t.name) = .ok chosen := by
  induction l generalizing found with
  | nil => exact ⟨found, rfl⟩
  | cons t l ih =>
    rw [List.map_cons, selectFrom, ofValue?, ofName?_name]
    exact ih _

end Target

namespace Composer

variable {config fields vars : Entries} {targets configured : Value} {limit : Nat}

theorem exists_targetsOf (l : List Target) :
    ∃ selected, targetsOf (.list (l.map fun t => .str t.name)) = .ok selected := by
  obtain ⟨selected, hselected⟩ := Target.exists_selectFrom_map_name [] l
  refine ⟨selected, ?_⟩
  show (Target.selection (.list (l.map fun t => .str t.name))).mapError Fault.badValue = _
  rw [Target.selection, hselected]
  rfl

theorem make_of_natCast {project : Project} {selected : List Target}
    (h : targetsOf targets = .ok selected) (limit : Nat) (keepSpace : Bool) :
    make project targets limit keepSpace = .ok ⟨project, selected, limit, keepSpace⟩ := by
  have hlimit : Include.limitOf (limit : Int) = .ok limit :=
    if_neg (Int.not_lt.mpr (Int.natCast_nonneg limit))
  unfold make
  rw [h, hlimit]
  rfl

/-- What a composer takes from a configuration with all its entries. -/
theorem ofConfig_eq (hvars : config.field? "variables" = some (.map vars))
    (htargets : config.field? "targets" = some configured)
    (hcomposition : config.field? "composition" = some (.map fields))
    (hlimit : (match fields.field? "max_include_depth" with
      | some depth => integerOf depth
      | none => .ok Include.defaultLimit) = .ok (limit : Int)) (v : View) (root : Path)
    (targets : Value) :
    ofConfig v root (.map config) targets =
      make ⟨v.absolute root, vars⟩ (if targets = .null then configured else targets) limit
        ((fields.field? "preserve_whitespace").getD .null).isGiven := by
  have hproject : Project.ofVariables v root (.map vars) = .ok ⟨v.absolute root, vars⟩ := by
    rw [Project.ofVariables, Value.orEmpty_map]
    rfl
  unfold ofConfig
  simp only [Value.get, hcomposition, hvars, htargets, Option.getD_some, Value.orEmpty_map, bind,
    Except.bind, hproject, Value.field?]
  cases hdepth : fields.field? "max_include_depth" with
  | none =>
    rw [hdepth] at hlimit
    rw [← Except.ok.inj hlimit]
    split <;> rfl
  | some depth =>
    rw [hdepth] at hlimit
    dsimp only [Option.getD_some] at hlimit ⊢
    rw [hlimit]
    split <;> rfl

end Composer

namespace Config

variable {v : View} {env : Environment} {root : Path} {config : Entries} {es : Links}

/-! ## Which fields the composition has -/

/-- A variable, or a value that a variable puts there, has the field `name` of the composition; or
no variable puts a value there, and the file, if it says anything about the composition, gives a
mapping to lay over the defaults. -/
inductive Supplies (v : View) (env : Environment) (root : Path) (name : String) : Prop where
  | field {keys : List String} {text : String} (hsets : Sets env keys text)
    (hkeys : ["composition", name] <+: keys)
  | mapping {text : String} {fields : Entries} (hsets : Sets env ["composition"] text)
    (hvalue : coerce text.toList = .ok (.map fields)) (hfield : (fields.field? name).isSome = true)
  | file {es : Links} (hnone : ∀ text, ¬Sets env ["composition"] text)
    (hread : readFile v (fileOf root) = .ok es)
    (hfile : ∀ w, es.bare.field? "composition" = some w → ∃ fields, w = .map fields)

/-- The composition below the environment is that of the defaults with that of the file over it. -/
theorem hasField_merge (hdistinct : es.IsDistinct) {name : String}
    (hname : name ∈ ["max_include_depth", "preserve_whitespace"]) :
    ((Links.merge (Links.ofEntries defaults) es).below "composition").1 = none ∧
      ((Links.merge (Links.ofEntries defaults) es).HasField "composition" name ↔
        ∀ w, es.bare.field? "composition" = some w → ∃ fields, w = .map fields) := by
  -- both fields have defaults
  obtain ⟨fields, hbase, hdefault⟩ : ∃ fields : Entries,
      (Links.ofEntries defaults).find? (.str "composition") = some (.plain (.map fields)) ∧
        (fields.field? name).isSome = true := ⟨_, rfl, by revert name; decide⟩
  rw [Links.hasField_iff_bare, Links.field?_bare, Links.field?_bare]
  unfold Links.below
  rw [Links.find?_merge hdistinct, hbase]
  cases es.find? (.str "composition") with
  | none => exact ⟨rfl, iff_of_true hdefault nofun⟩
  | some l =>
    refine ⟨?_, ?_⟩
    · cases l with
      | plain v => cases v <;> rfl
      | list => rfl
      | map => rfl
    · simp only [Option.map_some, Option.getD_some, Linked.bare_merge, Linked.bare,
        Option.some.injEq, forall_eq']
      cases l.bare with
      | map above =>
        exact iff_of_true (Value.isSome_find?_mergeEntries hdefault above) ⟨above, rfl⟩
      | _ => exact iff_of_false Bool.false_ne_true (by rintro ⟨_, ⟨⟩⟩)

theorem supplies_iff (hnames : (env.map (·.1)).Nodup) (h : load v env root true = .ok config)
    {name : String} (hname : name ∈ ["max_include_depth", "preserve_whitespace"]) :
    (compositionField? config name).isSome = true ↔
      Supplies v env root name := by
  obtain ⟨es, es', hread, happly, -, rfl⟩ := load_eq_ok_iff.mp h
  obtain ⟨hcoerced, rfl⟩ := of_applyEnvironment_ok happly
  obtain ⟨hmark, hmerged⟩ := hasField_merge (isDistinct_of_readFile hread) hname
  have hkeys (s : Setting) (hs : s ∈ settingsIn env) : s.1 ≠ [] := by
    obtain ⟨_, ⟨_, _, hname⟩, -⟩ := mem_settings.mp hs
    exact (toList_of_keysOf? hname).1
  rw [compositionField?, ← Links.hasField_iff_bare,
    Links.hasField_assignAll hmark hkeys (pairwise_settings hnames) name, hmerged]
  constructor
  · rintro (⟨s, hs, hprefix⟩ | ⟨s, hs, htop, hfield⟩ | ⟨hnone, hfile⟩)
    · obtain ⟨text, hsets, -⟩ := mem_settings.mp hs
      exact .field hsets hprefix
    · obtain ⟨text, hsets, hvalue⟩ := mem_settings.mp hs
      rw [htop] at hsets
      cases hv : s.2 with
      | map fields =>
        rw [hv] at hvalue hfield
        exact .mapping hsets hvalue hfield
      | _ =>
        rw [hv] at hfield
        cases hfield
    · refine .file (fun text hsets => ?_) hread hfile
      obtain ⟨w, hw⟩ := hcoerced _ _ hsets
      exact hnone (["composition"], w) (mem_settings.mpr ⟨text, hsets, hw⟩) rfl
  · rintro (⟨hsets, hprefix⟩ | ⟨hsets, hvalue, hfield⟩ | ⟨hnone, hread', hfile⟩)
    · obtain ⟨w, hw⟩ := hcoerced _ _ hsets
      exact .inl ⟨(_, w), mem_settings.mpr ⟨_, hsets, hw⟩, hprefix⟩
    · exact .inr (.inl ⟨(["composition"], _), mem_settings.mpr ⟨_, hsets, hvalue⟩, rfl, hfield⟩)
    · refine .inr (.inr ⟨fun s hs htop => ?_, ?_⟩)
      · obtain ⟨text, hsets, -⟩ := mem_settings.mp hs
        exact hnone text (htop ▸ hsets)
      · rw [hread] at hread'
        rw [Except.ok.inj hread']
        exact hfile

/-! ## What the commands make of it -/

open CommandLine (Command chosen depthLimit)

/-- The choice of the command line sets no other field. -/
theorem isSound_chosen (h : IsSound config) (c : Command) :
    IsSound (chosen config c) ∧ (chosen config c).field? "variables" = config.field? "variables" ∧
      compositionField? (chosen config c) "max_include_depth" =
        compositionField? config "max_include_depth" := by
  unfold chosen
  split
  · obtain ⟨fields, hcomposition⟩ := h.composition
    have hdepth : compositionField? (config.insert (.str "composition")
        (.map (setPath fields ["preserve_whitespace"] (.bool true)))) "max_include_depth" =
          compositionField? config "max_include_depth" := by
      rw [compositionField?, compositionField?, Entries.field?_insert, hcomposition, if_pos rfl]
      exact Entries.field?_insert fields _ _ _
    have hset : setPath config ["composition", "preserve_whitespace"] (.bool true) =
        config.insert (.str "composition")
          (.map (setPath fields ["preserve_whitespace"] (.bool true))) := by
      rw [setPath_cons_cons]
      rw [Entries.field?] at hcomposition
      rw [hcomposition]
      rfl
    rw [hset]
    refine ⟨⟨?_, ?_, ?_, ?_, ?_⟩, Entries.field?_insert _ _ _ _, hdepth⟩
    · rw [Entries.field?_insert, if_neg (by decide)]
      exact h.vars
    · rw [Entries.field?_insert, if_neg (by decide)]
      exact h.targets
    · rw [Entries.field?_insert, if_pos rfl]
      exact ⟨_, rfl⟩
    · rw [hdepth]
      exact h.depth
    · intro v hv
      rw [compositionField?, Entries.field?_insert, if_pos rfl] at hv
      have hkeep := (Entries.field?_insert fields _ _ _).symm.trans hv
      exact ⟨true, (Option.some.inj hkeep).symm⟩
  · exact ⟨h, rfl, rfl⟩

theorem depthLimit_eq (h : IsSound config) :
    depthLimit config = match compositionField? config "max_include_depth" with
      | some depth => Int.toNat <$> Composer.integerOf depth
      | none => .error (.shape .key) := by
  obtain ⟨fields, hcomposition⟩ := h.composition
  rw [depthLimit, compositionField?, hcomposition]
  rfl

/-- A composer always comes out, with the limit that `deps` takes if the configuration has one. -/
theorem ofConfig_of_isSound (h : IsSound config) (v : View) (root : Path)
    (given : Option (List Target)) : ∃ composer,
      Composer.ofConfig v root (.map config)
        (given.elim .null fun l => .list (l.map fun t => .str t.name)) = .ok composer ∧
      Project.ofVariables v root ((config.field? "variables").getD .null) = .ok composer.project ∧
      if (compositionField? config "max_include_depth").isSome then
        depthLimit config = .ok composer.depthLimit
      else depthLimit config = .error (.shape .key) ∧
        composer.depthLimit = Include.defaultLimit := by
  obtain ⟨vars, hvars⟩ := h.vars
  obtain ⟨chosen, -, htargets⟩ := h.targets
  obtain ⟨fields, hcomposition⟩ := h.composition
  have hfield : compositionField? config "max_include_depth" =
      Entries.field? fields "max_include_depth" := by
    rw [compositionField?, hcomposition]
    rfl
  have hproject : Project.ofVariables v root ((config.field? "variables").getD .null) =
      .ok ⟨v.absolute root, vars⟩ := by
    rw [hvars, Option.getD_some, Project.ofVariables, Value.orEmpty_map]
    rfl
  obtain ⟨selected, hselected⟩ := Composer.exists_targetsOf (given.getD chosen)
  have hcomposer (limit : Nat) (hlimit : (match Entries.field? fields "max_include_depth" with
      | some depth => Composer.integerOf depth
      | none => .ok Include.defaultLimit) = .ok (limit : Int)) :
      Composer.ofConfig v root (.map config)
          (given.elim .null fun l => .list (l.map fun t => .str t.name)) =
        .ok ⟨⟨v.absolute root, vars⟩, selected, limit,
          ((Entries.field? fields "preserve_whitespace").getD .null).isGiven⟩ := by
    rw [Composer.ofConfig_eq hvars htargets hcomposition hlimit]
    refine Composer.make_of_natCast ?_ limit _
    rw [← hselected]
    cases given <;> rfl
  have hdeps := depthLimit_eq h
  have hdepth := h.depth
  rw [hfield] at hdeps hdepth ⊢
  cases hfound : Entries.field? fields "max_include_depth" with
  | none =>
    rw [hfound] at hcomposer hdeps
    exact ⟨_, hcomposer 10 rfl, hproject, hdeps, rfl⟩
  | some depth =>
    rw [hfound] at hcomposer hdeps
    obtain ⟨limit, hlimit⟩ := hdepth depth hfound
    have hinteger := Composer.integerOf_of_integral? hlimit
    refine ⟨_, hcomposer limit hinteger, hproject, hdeps.trans ?_⟩
    dsimp only
    rw [hinteger]
    rfl

/-- A configuration that is loaded has variables, targets and a composition of the right kinds, and
a composer can always be made from it. A field of the composition is there just if it is supplied;
where the limit is not, `deps` fails on it, while `render` takes the default. -/
theorem load_sufficient (hnames : (env.map (·.1)).Nodup) (h : load v env root true = .ok config) :
    IsSound config ∧
      (∀ name ∈ ["max_include_depth", "preserve_whitespace"],
        (compositionField? config name).isSome = true ↔ Supplies v env root name) ∧
      ∀ (c : Command) (place : Path), ∃ composer,
        Composer.ofConfig v place (.map (chosen config c))
          (c.targets.elim .null fun l => .list (l.map fun t => .str t.name)) = .ok composer ∧
        Project.ofVariables v place ((config.field? "variables").getD .null) =
          .ok composer.project ∧
        (Supplies v env root "max_include_depth" →
          depthLimit config = .ok composer.depthLimit) ∧
        (¬Supplies v env root "max_include_depth" →
          depthLimit config = .error (.shape .key) ∧
            composer.depthLimit = Include.defaultLimit) := by
  have hsound := isSound_of_load h
  refine ⟨hsound, fun name hname => supplies_iff hnames h hname, fun c place => ?_⟩
  obtain ⟨hchosen, hvars, hdepth⟩ := isSound_chosen hsound c
  obtain ⟨composer, hcomposer, hproject, hlimit⟩ := ofConfig_of_isSound hchosen v place c.targets
  have hdeps : depthLimit (chosen config c) = depthLimit config := by
    rw [depthLimit_eq hchosen, depthLimit_eq hsound, hdepth]
  have hsupplies : (compositionField? (chosen config c) "max_include_depth").isSome = true ↔
      Supplies v env root "max_include_depth" := by
    rw [hdepth]
    exact supplies_iff hnames h List.mem_cons_self
  rw [hvars] at hproject
  rw [hdeps] at hlimit
  refine ⟨composer, hcomposer, hproject, fun hs => ?_, fun hs => ?_⟩
  · rwa [if_pos (hsupplies.mpr hs)] at hlimit
  · rwa [if_neg (mt hsupplies.mp hs)] at hlimit

/-- A variable replaces the composition by one that has just a limit. -/
theorem load_sufficient_limit : ∃ config composer,
    load ⟨⟨[]⟩, []⟩ [("AI_SYNC_composition", "\x7b\"max_include_depth\": 3\x7d")] ⟨.root, []⟩ true =
      .ok config ∧
    IsSound config ∧
    ¬Supplies ⟨⟨[]⟩, []⟩ [("AI_SYNC_composition", "\x7b\"max_include_depth\": 3\x7d")] ⟨.root, []⟩
      "preserve_whitespace" ∧
    Composer.ofConfig ⟨⟨[]⟩, []⟩ ⟨.root, []⟩ (.map config) .null = .ok composer ∧
    depthLimit config = .ok composer.depthLimit := by
  have hloaded : (load ⟨⟨[]⟩, []⟩ [("AI_SYNC_composition", "\x7b\"max_include_depth\": 3\x7d")]
      ⟨.root, []⟩ true).toOption.map (fun config => (compositionField? config "max_include_depth",
        compositionField? config "preserve_whitespace")) = some (some (.int 3), none) := by
    decide +kernel
  obtain ⟨config, hload, hfields⟩ := exists_of_toOption_map hloaded
  obtain ⟨hdepth, hkeep⟩ := Prod.mk.inj hfields
  obtain ⟨hsound, hsupplies, hcomposer⟩ := load_sufficient (by decide) hload
  obtain ⟨composer, hmade, -, hlimit, -⟩ :=
    hcomposer ⟨.render, "doc.md", false, none, none, false⟩ ⟨.root, []⟩
  refine ⟨config, composer, hload, hsound, fun hs => ?_, hmade,
    hlimit ((hsupplies _ (by decide)).mp (by rw [hdepth]; rfl))⟩
  have hsome := (hsupplies _ (by decide)).mpr hs
  rw [hkeep] at hsome
  cases hsome

/-- A variable that puts an empty mapping in the place of the composition takes the limit away. -/
theorem not_forall_depthLimit : ¬∀ (v : View) (env : Environment) (root : Path) (config : Entries),
    (env.map (·.1)).Nodup → load v env root true = .ok config →
      ∃ limit, depthLimit config = .ok limit := by
  intro h
  have hloaded :
      (load ⟨⟨[]⟩, []⟩ [("AI_SYNC_composition", "\x7b\x7d")] ⟨.root, []⟩ true).toOption.map
        (fun config => (depthLimit config).toOption) = some none := by
    decide +kernel
  obtain ⟨config, hload, hnone⟩ := exists_of_toOption_map hloaded
  obtain ⟨limit, hlimit⟩ := h _ _ _ config (by decide) hload
  rw [hlimit] at hnone
  cases hnone

end Config

end Rulebook
