import Rulebook.CommandLine.Run
import Rulebook.Proofs.Config.Coerced
import Rulebook.Proofs.Config.Loaded
import Rulebook.Proofs.File.Reading

/-!
# How loading ends

Loading is built on a reader of YAML and a validator, about which nothing is assumed. Both may give
a result, report an error of their own, or fail in another way. Loading then gives a configuration,
or an error of the configuration that every command reports, unless something goes wrong that it
does not provide for: the file cannot be opened, the reader or the validator fails in another way, a
variable holds an integer with too many digits, or the way to what violates the schema cannot be
written out.

## Main results

* `Tools.readFile_fails_iff`, `applyEnvironment_fails_iff`, `Tools.validate_fails_iff`: when a step
  of loading fails in such a way.
* `load_outcome`: how loading ends, and a command with it.
* `not_forall_load`: whatever the reader and the validator, it can end in another way than its users
  provide for.
-/

namespace Rulebook.Config

variable {t : Tools} {v : View} {env : Environment} {root file : Path} {es es' : Links}
  {s u : String × String} {x : Failure}

/-! ## The file -/

/-- Why a configuration file that is there, or may be there, is not read. -/
inductive IsUnreadable (t : Tools) (v : View) (file : Path) : Prop
  /-- A name or the path is too long. -/
  | refused {e : File.Error} (h : v.present file = .error e)
  | directory (h : v.isDir file = .ok true)
  /-- The reader of YAML fails, though it reports no error of syntax. -/
  | content {bytes : List UInt8} {f : Fault} (hbytes : v.readBytes file = .ok bytes)
    (h : t.yaml bytes = .error (.fault f))

/-- What stands at a path decides alike whether something is there, whether that is a directory, and
what can be read. -/
theorem entry_cases (v : View) (file : Path) :
    (∃ e, v.present file = .error e) ∨
    (v.present file = .ok false ∧ v.isDir file = .ok false ∧ ∃ e, v.readBytes file = .error e) ∨
    (v.present file = .ok true ∧ v.isDir file = .ok true ∧ ∃ e, v.readBytes file = .error e) ∨
    (v.present file = .ok true ∧ v.isDir file = .ok false ∧
      ∃ bytes, v.readBytes file = .ok bytes) := by
  unfold View.present View.isDir View.readBytes FileTree.present FileTree.isDir FileTree.readBytes
    FileTree.stat
  cases FileTree.hasNull file with
  | true => exact .inr (.inl ⟨rfl, rfl, _, rfl⟩)
  | false =>
    rw [if_neg Bool.false_ne_true, if_neg Bool.false_ne_true]
    cases v.tree.locate v.here file with
    | error o =>
      cases o with
      | nameTooLong => exact .inl ⟨_, rfl⟩
      | _ => exact .inr (.inl ⟨rfl, rfl, _, rfl⟩)
    | ok entry =>
      cases entry with
      | directory => exact .inr (.inr (.inl ⟨rfl, rfl, _, rfl⟩))
      | file bytes => exact .inr (.inr (.inr ⟨rfl, rfl, _, rfl⟩))

theorem Tools.readFile_of_readBytes {bytes : List UInt8} (hpresent : v.present file = .ok true)
    (hbytes : v.readBytes file = .ok bytes) :
    (∃ f, t.readFile v file = .error (.fault f)) ↔ ∃ f, t.yaml bytes = .error (.fault f) := by
  unfold readFile
  rw [hpresent, hbytes]
  simp only [bind, Except.bind, Except.mapError]
  rw [if_neg nofun]
  split
  all_goals simp [*]

theorem Tools.readFile_fails_iff :
    (∃ f, t.readFile v file = .error (.fault f)) ↔ IsUnreadable t v file := by
  rcases entry_cases v file with ⟨e, hpresent⟩ | ⟨hpresent, hdir, e, hbytes⟩ |
    ⟨hpresent, hdir, e, hbytes⟩ | ⟨hpresent, hdir, bytes, hbytes⟩
  · unfold readFile
    rw [hpresent]
    exact iff_of_true ⟨_, rfl⟩ (.refused hpresent)
  · unfold readFile
    rw [hpresent]
    refine iff_of_false nofun ?_
    rintro (h | h | ⟨h, -⟩)
    · cases hpresent.symm.trans h
    · cases hdir.symm.trans h
    · cases hbytes.symm.trans h
  · unfold readFile
    rw [hpresent, hbytes]
    exact iff_of_true ⟨_, rfl⟩ (.directory hdir)
  · rw [readFile_of_readBytes hpresent hbytes]
    refine ⟨fun ⟨f, hf⟩ => .content hbytes hf, ?_⟩
    rintro (h | h | ⟨h, hf⟩)
    · cases hpresent.symm.trans h
    · cases hdir.symm.trans h
    · obtain rfl := Except.ok.inj (hbytes.symm.trans h)
      exact ⟨_, hf⟩

/-! ## The environment -/

/-- Why a variable is not applied. -/
def refusal? (s : String × String) : Option Failure :=
  match keysOf? s.1 with
  | .error e => some (.error e)
  | .ok none => none
  | .ok (some _) => match coerce s.2.toList with
    | .error f => some (.fault f)
    | .ok _ => none

theorem applyVariable_eq (es : Links) (s : String × String) :
    applyVariable es s = match refusal? s with
      | some x => .error x
      | none => .ok ((settingOf? s).elim es fun x => assign es x.1 x.2) := by
  unfold applyVariable refusal? settingOf?
  cases keysOf? s.1 with
  | error e => rfl
  | ok found =>
    cases found with
    | none => rfl
    | some keys => cases coerce s.2.toList <;> rfl

/-- The first variable that is not applied is the one that counts. -/
theorem foldlM_applyVariable_error_iff :
    env.foldlM applyVariable es = .error x ↔ env.findSome? refusal? = some x := by
  induction env generalizing es with
  | nil => exact iff_of_false nofun nofun
  | cons s env ih =>
    rw [List.foldlM_cons, applyVariable_eq, List.findSome?_cons]
    cases refusal? s with
    | some y =>
      exact ⟨fun h => congrArg some (Except.error.inj h),
        fun h => congrArg Except.error (Option.some.inj h)⟩
    | none => exact ih

/-- The text of a variable stands for no value, and no name in front of its own is malformed. -/
def HasOversized (env : Environment) : Prop :=
  ∃ s ∈ env, (∃ keys, keysOf? s.1 = .ok (some keys)) ∧ IsOversized s.2.toList ∧
    ∀ u ∈ env, (keysOf? u.1).isOk = false → s.1 ≤ u.1

theorem refusal?_eq_fault_iff : (∃ f, refusal? s = some (.fault f)) ↔
    (∃ keys, keysOf? s.1 = .ok (some keys)) ∧ IsOversized s.2.toList := by
  rw [← coerce_eq_error_iff]
  unfold refusal?
  cases keysOf? s.1 with
  | error e => simp
  | ok found =>
    cases found with
    | none => simp
    | some keys => cases coerce s.2.toList <;> simp

theorem refusal?_eq_error_iff : (∃ e, refusal? s = some (.error e)) ↔
    (keysOf? s.1).isOk = false := by
  unfold refusal?
  cases keysOf? s.1 with
  | error e => simp [Except.isOk, Except.toBool]
  | ok found =>
    cases found with
    | none => simp [Except.isOk, Except.toBool]
    | some keys => cases coerce s.2.toList <;> simp [Except.isOk, Except.toBool]

/-- In the order of their names, what does not come before `s` has no smaller name. -/
theorem le_of_not_mem {before after : Environment}
    (hsorted : (before ++ s :: after).Pairwise fun a b => a.1 ≤ b.1) (hu : u ∈ before ++ s :: after)
    (hbefore : u ∉ before) : s.1 ≤ u.1 := by
  rcases List.mem_cons.mp ((List.mem_append.mp hu).resolve_left hbefore) with rfl | hafter
  · exact String.le_refl _
  · exact List.rel_of_pairwise_cons (List.pairwise_append.mp hsorted).2.1 hafter

theorem applyEnvironment_fails_iff :
    (∃ f, applyEnvironment es env = .error (.fault f)) ↔ HasOversized env := by
  have hsorted := pairwise_names env
  have hmem (s : String × String) : s ∈ env ↔ s ∈ env.mergeSort fun a b => decide (a.1 ≤ b.1) :=
    List.mem_mergeSort.symm
  unfold applyEnvironment HasOversized
  simp only [foldlM_applyVariable_error_iff, hmem]
  clear hmem
  generalize env.mergeSort (fun a b => decide (a.1 ≤ b.1)) = sorted at hsorted ⊢
  have hnot {before : Environment} (h : ∀ s ∈ before, refusal? s = none) {s : String × String}
      {x : Failure} (hs : refusal? s = some x) : s ∉ before := fun hmem => by
    rw [h s hmem] at hs
    cases hs
  constructor
  · rintro ⟨f, hf⟩
    obtain ⟨before, s, after, rfl, hs, hbefore⟩ := List.findSome?_eq_some_iff.mp hf
    obtain ⟨hkeys, hlarge⟩ := refusal?_eq_fault_iff.mp ⟨f, hs⟩
    refine ⟨s, by simp, hkeys, hlarge, fun u hu hmalformed => ?_⟩
    obtain ⟨e, he⟩ := refusal?_eq_error_iff.mpr hmalformed
    exact le_of_not_mem hsorted hu (hnot hbefore he)
  · rintro ⟨s, hs, hkeys, hlarge, hfirst⟩
    obtain ⟨f, hf⟩ := refusal?_eq_fault_iff.mpr ⟨hkeys, hlarge⟩
    cases hx : sorted.findSome? refusal? with
    | none => exact absurd hs (hnot (List.findSome?_eq_none_iff.mp hx) hf)
    | some x =>
      cases x with
      | fault f => exact ⟨f, rfl⟩
      | error e =>
        obtain ⟨before, u, after, rfl, hu, hbefore⟩ := List.findSome?_eq_some_iff.mp hx
        have hmalformed := refusal?_eq_error_iff.mp ⟨e, hu⟩
        -- the two names would be the same, and only one of them is malformed
        have hle : u.1 ≤ s.1 := le_of_not_mem hsorted hs (hnot hbefore hf)
        obtain ⟨keys, hkeys⟩ := hkeys
        rw [String.le_antisymm hle (hfirst u (by simp) hmalformed), hkeys] at hmalformed
        cases hmalformed

/-! ## The schema -/

/-- Why it cannot be reported that a configuration is invalid. -/
inductive IsUnreportable (t : Tools) (config : Entries) : Prop
  /-- The validator fails, though it reports no violation. -/
  | validator {f : Fault} (h : t.validator schema (.map config) = .error f)
  /-- On the way to what is reported is an integer with too many digits to be written out. -/
  | location {x : Complaint} (hx : t.validator schema (.map config) = .ok (some x))
    (h : Value.allShowable x.path = false)

theorem Tools.validate_fails_iff {config : Entries} :
    (∃ f, t.validate config = .error (.fault f)) ↔ IsUnreportable t config := by
  unfold validate
  rcases hfound : t.validator schema (.map config) with f | found
  · exact iff_of_true ⟨f, rfl⟩ (.validator hfound)
  cases found with
  | none =>
    refine iff_of_false nofun ?_
    rintro (h | ⟨h, -⟩)
    all_goals cases hfound.symm.trans h
  | some x =>
    dsimp only [Except.mapError, bind, Except.bind]
    cases hshow : Value.allShowable x.path with
    | false => exact iff_of_true ⟨_, rfl⟩ (.location hfound hshow)
    | true =>
      refine iff_of_false nofun ?_
      rintro (h | ⟨h, hnot⟩)
      · cases hfound.symm.trans h
      · cases hfound.symm.trans h
        cases hshow.symm.trans hnot

/-! ## Loading -/

/-- What is loaded before the schema looks at it: the defaults with the file and the environment
over them. -/
def IsMerged (t : Tools) (v : View) (env : Environment) (root : Path) (config : Entries) : Prop :=
  ∃ es es', t.readFile v (fileOf root) = .ok es ∧
    applyEnvironment (Links.merge (Links.ofEntries defaults) es) env = .ok es' ∧ es'.bare = config

/-- What goes wrong with a configuration that its loader does not provide for. -/
inductive IsUnforeseen (t : Tools) (v : View) (env : Environment) (root : Path) : Prop
  | file (h : IsUnreadable t v (fileOf root))
  | override {es : Links} (hread : t.readFile v (fileOf root) = .ok es) (h : HasOversized env)
  | violation {config : Entries} (hmerged : IsMerged t v env root config)
    (h : IsUnreportable t config)

theorem normalizeTargets_ne_fault (es : Entries) (f : Fault) :
    normalizeTargets es ≠ .error (.fault f) := by
  unfold normalizeTargets
  split <;> exact nofun

theorem Tools.load_fails_iff :
    (∃ f, t.load v env root true = .error (.fault f)) ↔ IsUnforeseen t v env root := by
  have hsteps (f : Fault) : t.load v env root true = .error (.fault f) ↔
      t.readFile v (fileOf root) = .error (.fault f) ∨
      ∃ es, t.readFile v (fileOf root) = .ok es ∧
        (applyEnvironment (Links.merge (Links.ofEntries defaults) es) env = .error (.fault f) ∨
        ∃ es', applyEnvironment (Links.merge (Links.ofEntries defaults) es) env = .ok es' ∧
          t.validate es'.bare = .error (.fault f)) := by
    unfold load
    simp only [bind_eq_error_iff, if_pos trivial]
    simp only [normalizeTargets_ne_fault, and_false, exists_false, or_false]
  simp only [hsteps, exists_or, readFile_fails_iff]
  constructor
  · rintro (h | ⟨f, es, hread, h | ⟨es', happly, h⟩⟩)
    · exact .file h
    · exact .override hread (applyEnvironment_fails_iff.mp ⟨f, h⟩)
    · exact .violation ⟨es, es', hread, happly, rfl⟩ (validate_fails_iff.mp ⟨f, h⟩)
  · rintro (h | ⟨hread, h⟩ | ⟨⟨es, es', hread, happly, rfl⟩, h⟩)
    · exact .inl h
    · obtain ⟨f, hf⟩ := applyEnvironment_fails_iff.mpr h
      exact .inr ⟨f, _, hread, .inl hf⟩
    · obtain ⟨f, hf⟩ := validate_fails_iff.mpr h
      exact .inr ⟨f, es, hread, .inr ⟨es', happly, hf⟩⟩

/-- For every reader of YAML and every validator, loading gives a configuration or an error of the
configuration, unless something unforeseen goes wrong. Commands report such an error, and fail where
loading does. -/
theorem load_outcome (t : Tools) (v : View) (env : Environment) (root : Path) :
    (((∃ config, t.load v env root true = .ok config) ∨
        ∃ e, t.load v env root true = .error (.error e)) ↔ ¬IsUnforeseen t v env root) ∧
    ∀ c : CommandLine.Command, c.root v = .ok root →
      (IsUnforeseen t v env root → ∃ f, CommandLine.perform t v env c = .error f) ∧
      ∀ e, t.load v env root true = .error (.error e) →
        CommandLine.perform t v env c =
          .ok (.failure "config_error" e.message (some e.context)) := by
  constructor
  · rw [← Tools.load_fails_iff]
    rcases t.load v env root true with (e | f) | config
    · exact iff_of_true (.inr ⟨e, rfl⟩) nofun
    · exact iff_of_false nofun (not_not_intro ⟨f, rfl⟩)
    · exact iff_of_true (.inl ⟨config, rfl⟩) nofun
  · intro c hroot
    unfold CommandLine.perform
    rw [hroot]
    dsimp only [bind, Except.bind]
    refine ⟨fun h => ?_, fun e he => by rw [he]⟩
    obtain ⟨f, hf⟩ := Tools.load_fails_iff.mpr h
    exact ⟨f, by rw [hf]⟩

/-- A directory stands where the configuration file should; without it, nothing goes wrong. -/
theorem load_outcome_directory :
    let v : View := ⟨⟨[([".ai"], .directory), ([".ai", "config.yaml"], .directory)]⟩, []⟩
    let c : CommandLine.Command := ⟨.check, "true", false, some "/", none, false⟩
    IsUnforeseen .standard v [] ⟨.root, []⟩ ∧
      (∃ f, CommandLine.perform .standard v [] c = .error f) ∧
      ¬IsUnforeseen .standard ⟨⟨[]⟩, []⟩ [] ⟨.root, []⟩ := by
  intro v c
  have hdir : v.isDir (fileOf ⟨.root, []⟩) = .ok true := by decide +kernel
  have hroot : c.root v = .ok ⟨.root, []⟩ := by decide +kernel
  have hunforeseen : IsUnforeseen .standard v [] ⟨.root, []⟩ := .file (.directory hdir)
  have hdefaults : (Tools.standard.load ⟨⟨[]⟩, []⟩ [] ⟨.root, []⟩ true).isOk = true := by
    decide +kernel
  refine ⟨hunforeseen, ((load_outcome .standard v [] ⟨.root, []⟩).2 c hroot).1 hunforeseen,
    (load_outcome .standard ⟨⟨[]⟩, []⟩ [] ⟨.root, []⟩).1.mp (.inl ?_)⟩
  cases hload : Tools.standard.load ⟨⟨[]⟩, []⟩ [] ⟨.root, []⟩ true with
  | ok config => exact ⟨config, rfl⟩
  | error x =>
    rw [hload] at hdefaults
    cases hdefaults

/-- Where a directory stands in the place of the file, loading ends in no error of the
configuration. -/
theorem not_forall_load : ¬∃ t : Tools, ∀ (v : View) (env : Environment) (root : Path),
    (∃ config, t.load v env root true = .ok config) ∨
      ∃ e, t.load v env root true = .error (.error e) := by
  rintro ⟨t, h⟩
  have hdir : View.isDir ⟨⟨[([".ai"], .directory), ([".ai", "config.yaml"], .directory)]⟩, []⟩
      (fileOf ⟨.root, []⟩) = .ok true := by decide +kernel
  have hunforeseen : IsUnforeseen t _ [] ⟨.root, []⟩ := .file (.directory hdir)
  obtain ⟨f, hf⟩ := Tools.load_fails_iff.mpr hunforeseen
  rcases h _ [] ⟨.root, []⟩ with ⟨config, hload⟩ | ⟨e, hload⟩
  all_goals cases hload.symm.trans hf

end Rulebook.Config
