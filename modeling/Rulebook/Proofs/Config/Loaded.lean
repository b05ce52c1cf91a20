import Rulebook.Proofs.Config.Accepted
import Rulebook.Proofs.Config.Present

/-!
# What is loaded

A configuration is loaded just if the file is read, the environment applies to it and the schema has
nothing against the result (`Config.load_eq_ok_iff`); it is then this result, for the targets of a
valid configuration are in normal form already. The entries of the defaults are always there, so
that what is loaded is sound (`Config.isSound_of_load`).
-/

namespace Rulebook

/-! ## Files hold no key twice -/

namespace Yaml

theorem Node.isDistinct_of_build {n : Node} {depth : Nat} {mark : Option Nat} {es : Links}
    (h : n.build depth = .ok (.map mark es)) : es.IsDistinct := by
  have hplain {x : Built Value} (h : Linked.plain <$> x = .ok (.map mark es)) : False := by
    cases x <;> cases h
  have hlist {x : Built (List Linked)} (h : Linked.list <$> x = .ok (.map mark es)) : False := by
    cases x <;> cases h
  cases n with
  | scalar tag text => exact (hplain h).elim
  | sequence tag items =>
    cases tag with
    | seq | omap | pairs => exact (hlist h).elim
    | map | set => cases h
    | _ => exact (hplain h).elim
  | mapping m tag pairs =>
    cases tag with
    | map =>
      obtain ⟨found, -, hfound⟩ := bind_eq_ok_iff.mp h
      cases hfound
      exact Links.isDistinct_ofList found
    | set =>
      obtain ⟨found, -, hfound⟩ := bind_eq_ok_iff.mp h
      cases hfound
    | seq | omap | pairs => cases h
    | _ => exact (hplain h).elim

theorem isDistinct_of_readLinked {s : Text} {mark : Option Nat} {es : Links}
    (h : readLinked s = .ok (.map mark es)) : es.IsDistinct := by
  unfold readLinked at h
  split at h
  · cases h
  obtain ⟨found, -, hfound⟩ := bind_eq_ok_iff.mp h
  cases found with
  | none => cases hfound
  | some n =>
    refine @Node.isDistinct_of_build n 0 mark es ?_
    dsimp only at hfound
    cases hbuild : n.build 0 with
    | error e =>
      rw [hbuild] at hfound
      cases hfound
    | ok l =>
      rw [hbuild] at hfound
      exact congrArg _ (Except.ok.inj hfound)

end Yaml

namespace Config

variable {v : View} {env : Environment} {root : Path} {config : Entries} {es es' : Links}
  {file : Path}

theorem isDistinct_of_readStream {bytes : List UInt8} {mark : Option Nat}
    (h : Tools.readStream bytes = .ok (.map mark es)) : es.IsDistinct := by
  obtain ⟨s, -, h⟩ := bind_eq_ok_iff.mp h
  exact Yaml.isDistinct_of_readLinked h

theorem isDistinct_of_readFile (h : readFile v file = .ok es) : es.IsDistinct := by
  unfold readFile Tools.readFile at h
  obtain ⟨present, -, h⟩ := bind_eq_ok_iff.mp h
  split at h
  · obtain rfl := Except.ok.inj h
    exact List.Pairwise.nil
  obtain ⟨bytes, -, h⟩ := bind_eq_ok_iff.mp h
  split at h
  · obtain rfl := Except.ok.inj h
    exact List.Pairwise.nil
  next hread =>
    obtain rfl := Except.ok.inj h
    exact isDistinct_of_readStream hread
  all_goals cases h

/-! ## What is loaded -/

theorem wellFormed_of_foldlM (h : env.foldlM applyVariable es = .ok es') : WellFormed env := by
  induction env generalizing es with
  | nil => exact List.forall_mem_nil _
  | cons s env ih =>
    rw [List.foldlM_cons] at h
    obtain ⟨next, hnext, h⟩ := bind_eq_ok_iff.mp h
    refine List.forall_mem_cons.mpr ⟨?_, ih h⟩
    unfold applyVariable at hnext
    cases hkeys : keysOf? s.1 with
    | ok found => rfl
    | error e =>
      rw [hkeys] at hnext
      cases hnext

/-- The settings that the environment asks for, in the order in which they are made. -/
def settingsIn (env : Environment) : List Setting :=
  (env.mergeSort fun a b => decide (a.1 ≤ b.1)).filterMap settingOf?

/-- Where nothing fails, all settings are made. -/
theorem of_applyEnvironment_ok (h : applyEnvironment es env = .ok es') :
    (∀ keys text, Sets env keys text → ∃ w, coerce text.toList = .ok w) ∧
      es' = assignAll es (settingsIn env) := by
  unfold applyEnvironment at h
  rcases foldlM_applyVariable_cases (wellFormed_of_foldlM h) es with
    ⟨_, _, _, _, _, _, hrun⟩ | ⟨hall, hrun⟩
  · rw [h] at hrun
    cases hrun
  · rw [h] at hrun
    refine ⟨fun keys text ⟨name, hmem, hname⟩ => ?_, Except.ok.inj hrun⟩
    exact hall (name, text) (List.mem_mergeSort.mpr hmem) keys hname

theorem normalizeTargets_of_isSound {es : Entries} (h : IsSound es) :
    normalizeTargets es = .ok es := by
  obtain ⟨chosen, hchosen, htargets⟩ := h.targets
  have hselected : Target.selection (.list (chosen.map fun t => .str t.name)) = .ok chosen :=
    @Target.selectFrom_map_name [] chosen hchosen
  unfold normalizeTargets
  rw [htargets, Option.getD_some, hselected]
  exact congrArg _ (Entries.insert_of_find? htargets)

/-- The entries of the defaults are there whatever the file and the environment say. -/
theorem isSome_loaded (hdistinct : es.IsDistinct) {name : String}
    (hname : (defaults.field? name).isSome = true)
    (h : applyEnvironment (Links.merge (Links.ofEntries defaults) es) env = .ok es') :
    (es'.bare.field? name).isSome = true := by
  have hdefault : ((Links.ofEntries defaults).find? (.str name)).isSome = true := by
    rw [← Option.isSome_map (f := Linked.bare), ← Links.field?_bare, Links.bare_ofEntries]
    exact hname
  rw [(of_applyEnvironment_ok h).2, Links.field?_bare, Option.isSome_map]
  exact Links.isSome_find?_assignAll (Links.isSome_find?_merge hdistinct hdefault) _

/-- What is loaded is the defaults with the file and the environment over them, if that is valid. -/
theorem load_eq_ok_iff : load v env root true = .ok config ↔
    ∃ es es', readFile v (fileOf root) = .ok es ∧
      applyEnvironment (Links.merge (Links.ofEntries defaults) es) env = .ok es' ∧
      schema.violations (.map es'.bare) = [] ∧ es'.bare = config := by
  unfold load Tools.load
  simp only [bind_eq_ok_iff]
  refine exists_congr fun es => ?_
  rw [exists_and_left]
  refine and_congr_right fun hread => exists_congr fun es' => and_congr_right fun happly => ?_
  have hsound (hvalid : schema.violations (.map es'.bare) = []) : IsSound es'.bare :=
    isSound_of_violations hvalid fun name hname =>
      isSome_loaded (isDistinct_of_readFile hread) (by revert name; decide) happly
  rw [if_pos trivial, bind_eq_ok_iff]
  constructor
  · rintro ⟨_, hvalid, htargets⟩
    have hvalid := validate_eq_ok_iff.mp hvalid
    rw [normalizeTargets_of_isSound (hsound hvalid)] at htargets
    exact ⟨hvalid, Except.ok.inj htargets⟩
  · rintro ⟨hvalid, rfl⟩
    exact ⟨(), validate_eq_ok_iff.mpr hvalid, normalizeTargets_of_isSound (hsound hvalid)⟩

theorem isSound_of_load (h : load v env root true = .ok config) : IsSound config := by
  obtain ⟨es, es', hread, happly, hvalid, rfl⟩ := load_eq_ok_iff.mp h
  exact isSound_of_violations hvalid fun name hname =>
    isSome_loaded (isDistinct_of_readFile hread) (by revert name; decide) happly

end Config

end Rulebook
