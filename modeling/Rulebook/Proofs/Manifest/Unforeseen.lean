import Rulebook.Proofs.Manifest.Parsed

/-!
# Unforeseen manifests

Tables in manifests are taken apart without looking at their shapes first. A step through such data
goes on if the data fits, and else it fails unreported (`Fits`). For each ecosystem
`Manifest.IsUnforeseen` says which files make its reader fail so: what cannot be taken from its
file, tables of another shape than the reader takes apart, and names that cannot be written out
(`Manifest.throws_dependencies_iff`).
-/

namespace Rulebook

open Condition (Failure)
open Condition (Throws not_throws_ok not_throws_error throws_error_iff throws_bind_iff
  throws_map_iff throws_bind_ok_iff throws_mapM_iff)
open FileTree (hasNull hasNull_child)

/-! ## Shapes -/

namespace Value

/-- A mapping, or what counts as not given. -/
def IsTable (v : Value) : Prop := ∃ es, v.orEmpty = .map es

/-- Something that consists of elements that can be written out, or what counts as not given. -/
def IsSeries (v : Value) : Prop :=
  ∃ items, v.orEmpty.elements? = some items ∧ ∀ item ∈ items, item.isShowable = true

/-- The value under a name, null where there is none. -/
def under (v : Value) (name : String) : Value := (v.orEmpty.field? name).getD .null

/-- The values of a table. -/
def members (v : Value) : List Value :=
  match v.orEmpty with
  | .map es => es.map (·.2)
  | _ => []

end Value

/-- A step through loosely shaped data goes on just if `P`; else it fails unreported. -/
def Fits (P : Prop) (x : Except Fault α) : Prop :=
  (P ∧ ∃ a, x = .ok a) ∨ (¬P ∧ ∃ f, x = .error f ∧ (Failure.fault f).Escapes)

namespace Fits

variable {P Q : Prop} {x : Except Fault α} {k : α → Except Fault β}

theorem ok (a : α) : Fits True (.ok a) := .inl ⟨trivial, a, rfl⟩

theorem of_ok {a : α} (h : x = .ok a) : Fits True x := .inl ⟨trivial, a, h⟩

theorem of_iff (h : Fits P x) (hpq : P ↔ Q) : Fits Q x := by
  rwa [propext hpq] at h

theorem bind (hx : Fits P x) (hk : ∀ a, Fits Q (k a)) : Fits (P ∧ Q) (x >>= k) := by
  rcases hx with ⟨hp, a, rfl⟩ | ⟨hp, f, rfl, hf⟩
  · rcases hk a with ⟨hq, hok⟩ | ⟨hq, herror⟩
    · exact .inl ⟨⟨hp, hq⟩, hok⟩
    · exact .inr ⟨fun h => hq h.2, herror⟩
  · exact .inr ⟨fun h => hp h.1, f, rfl, hf⟩

/-- A step that always goes on leaves the decision to what comes next. -/
theorem ok_bind (hx : Fits True x) (hk : ∀ a, Fits Q (k a)) : Fits Q (x >>= k) :=
  (hx.bind hk).of_iff (iff_of_eq (true_and Q))

theorem get_bind {v : Value} {name : String} {k : Value → Except Fault β}
    (hk : Fits Q (k (v.under name))) : Fits (v.IsTable ∧ Q) (v.orEmpty.get name >>= k) := by
  unfold Value.under at hk
  unfold Value.IsTable Value.get
  cases hv : v.orEmpty with
  | map es =>
    rw [hv] at hk
    exact hk.of_iff (iff_and_self.mpr fun _ => ⟨es, rfl⟩)
  | _ => exact .inr ⟨fun ⟨⟨_, h⟩, _⟩ => (nomatch h), _, rfl, trivial⟩

theorem values_bind {v : Value} {k : List Value → Except Fault β}
    (hk : Fits Q (k v.members)) : Fits (v.IsTable ∧ Q) (v.orEmpty.values >>= k) := by
  unfold Value.members at hk
  unfold Value.IsTable Value.values
  cases hv : v.orEmpty with
  | map es =>
    rw [hv] at hk
    exact hk.of_iff (iff_and_self.mpr fun _ => ⟨es, rfl⟩)
  | _ => exact .inr ⟨fun ⟨⟨_, h⟩, _⟩ => (nomatch h), _, rfl, trivial⟩

theorem throws_iff (h : Fits P x) : Throws (Manifest.ofFault x) ↔ ¬P := by
  rcases h with ⟨hp, a, rfl⟩ | ⟨hp, f, rfl, hf⟩
  · exact iff_of_false (not_throws_ok a) (not_not_intro hp)
  · exact iff_of_true (throws_error_iff.mpr hf) hp

/-- A misfit is not reported; after a fit, what comes next decides. -/
theorem throws_bind_iff {R : Prop} {k : α → Except Failure β} (h : Fits P x)
    (hk : ∀ a, Throws (k a) ↔ R) : Throws (Manifest.ofFault x >>= k) ↔ ¬P ∨ P ∧ R := by
  rcases h with ⟨hp, a, rfl⟩ | ⟨hp, f, rfl, hf⟩
  · have hbind : Throws (Manifest.ofFault (.ok a) >>= k) ↔ R := hk a
    rw [hbind, or_iff_right (not_not_intro hp), and_iff_right hp]
  · exact iff_of_true (throws_error_iff.mpr hf) (.inl hp)

end Fits

namespace Value

variable {v : Value}

theorem under_map (es : Entries) (name : String) :
    (Value.map es).under name = (es.field? name).getD .null := by
  cases es <;> rfl

theorem IsTextual.under (h : v.IsTextual) (name : String) : (v.under name).IsTextual := by
  have hempty := h.orEmpty
  unfold Value.under
  cases hv : v.orEmpty with
  | map es =>
    rw [hv] at hempty
    exact Manifest.isTextual_field hempty name
  | _ => trivial

theorem IsTextual.of_mem_members (h : v.IsTextual) : ∀ w ∈ v.members, w.IsTextual := by
  have hempty := h.orEmpty
  unfold Value.members
  cases hv : v.orEmpty with
  | map es =>
    intro w hw
    rw [hv] at hempty
    obtain ⟨e, he, rfl⟩ := List.mem_map.mp hw
    exact (Entries.isTextual_iff.mp hempty e he).2
  | _ => exact List.forall_mem_nil _

end Value

namespace Manifest

theorem fits_addRequirements (deps : Dependencies) (v : Value) :
    Fits v.IsSeries (addRequirements deps v) := by
  unfold addRequirements Value.IsSeries Value.elements
  cases v.orEmpty.elements? with
  | none => exact .inr ⟨fun ⟨_, h, _⟩ => (nomatch h), _, rfl, trivial⟩
  | some items =>
    simp only [← Value.allShowable_iff, Option.some.injEq, exists_eq_left', bind, Except.bind]
    split
    next h => exact .inl ⟨h, _, rfl⟩
    next h => exact .inr ⟨h, _, rfl, trivial⟩

theorem fits_foldlM_addRequirements (deps : Dependencies) (vs : List Value) :
    Fits (∀ v ∈ vs, v.IsSeries) (vs.foldlM addRequirements deps) := by
  induction vs generalizing deps with
  | nil => exact .inl ⟨fun _ h => (nomatch h), deps, rfl⟩
  | cons v vs ih =>
    rw [List.foldlM_cons, List.forall_mem_cons]
    exact (fits_addRequirements deps v).bind ih

theorem fits_mergeTables {tables : List Value} (h : ∀ table ∈ tables, table.IsTextual)
    (e : Ecosystem) (deps : Dependencies) : Fits True (mergeTables e deps tables) :=
  .of_ok (mergeTables_of_isTextual h e deps)

theorem fits_mergeSections {sections : List Value} (h : ∀ part ∈ sections, part.IsTextual)
    (e : Ecosystem) (names : List String) (deps : Dependencies) :
    Fits True (mergeSections e names deps sections) := by
  unfold mergeSections
  induction sections generalizing deps with
  | nil => exact .ok deps
  | cons part sections ih =>
    obtain ⟨hpart, hsections⟩ := List.forall_mem_cons.mp h
    rw [List.foldlM_cons]
    refine Fits.ok_bind ?_ (ih hsections)
    split
    next es => exact fits_mergeTables (isTextual_fields hpart names) e deps
    next => exact .ok deps

/-- The tables of `pyproject.toml` as they are taken apart. -/
structure IsProject (es : Entries) : Prop where
  project : ((Value.map es).under "project").IsTable
  dependencies : (((Value.map es).under "project").under "dependencies").IsSeries
  optional : (((Value.map es).under "project").under "optional-dependencies").IsTable
  extras : ∀ v ∈ (((Value.map es).under "project").under "optional-dependencies").members,
    v.IsSeries
  tool : ((Value.map es).under "tool").IsTable
  poetry : (((Value.map es).under "tool").under "poetry").IsTable
  group : ((((Value.map es).under "tool").under "poetry").under "group").IsTable

theorem fits_addPoetry {es : Entries} (h : es.IsTextual) (deps : Dependencies) :
    Fits (((Value.map es).under "tool").IsTable ∧
      (((Value.map es).under "tool").under "poetry").IsTable ∧
      ((((Value.map es).under "tool").under "poetry").under "group").IsTable)
      (addPoetry deps es) := by
  have htool := Value.IsTextual.under (v := .map es) h "tool"
  have hpoetry := htool.under "poetry"
  unfold addPoetry
  rw [← Value.under_map]
  refine Fits.of_iff (Fits.get_bind (Fits.get_bind (Fits.get_bind (Fits.ok_bind
    (fits_mergeTables ?_ _ _) fun deps => Fits.get_bind (Fits.values_bind (Fits.ok_bind
      (fits_mergeSections (hpoetry.under "group").of_mem_members _ _ _) fun _ => Fits.ok _))))))
    ⟨?_, ?_⟩
  · exact List.forall_mem_cons.mpr
      ⟨hpoetry.under _, List.forall_mem_singleton.mpr (hpoetry.under _)⟩
  · rintro ⟨htool, hpoetry, -, -, hgroup, -⟩
    exact ⟨htool, hpoetry, hgroup⟩
  · rintro ⟨htool, hpoetry, hgroup⟩
    exact ⟨htool, hpoetry, hpoetry, hpoetry, hgroup, trivial⟩

theorem fits_project {es : Entries} (h : es.IsTextual) (deps : Dependencies) :
    Fits (IsProject es) (do addPoetry (← addProject deps es) es) := by
  unfold addProject
  rw [← Value.under_map]
  refine Fits.of_iff (Fits.bind (Fits.get_bind (Fits.bind (fits_addRequirements deps _) fun deps =>
    Fits.get_bind (Fits.values_bind (fits_foldlM_addRequirements deps _))))
    (fits_addPoetry h)) ⟨?_, ?_⟩
  · rintro ⟨⟨hproject, hdeps, -, hoptional, hextras⟩, htool, hpoetry, hgroup⟩
    exact ⟨hproject, hdeps, hoptional, hextras, htool, hpoetry, hgroup⟩
  · rintro ⟨hproject, hdeps, hoptional, hextras, htool, hpoetry, hgroup⟩
    exact ⟨⟨hproject, hdeps, hproject, hoptional, hextras⟩, htool, hpoetry, hgroup⟩

/-- The tables of `Cargo.toml` as they are taken apart. -/
structure IsCargo (es : Entries) : Prop where
  workspace : ((Value.map es).under "workspace").IsTable
  target : ((Value.map es).under "target").IsTable

theorem fits_addCrates {es : Entries} (h : es.IsTextual) (deps : Dependencies) :
    Fits (IsCargo es) (addCrates deps es) := by
  have hroot : (Value.map es).IsTextual := h
  unfold addCrates
  dsimp only
  rw [← Value.under_map, ← Value.under_map]
  refine Fits.of_iff (Fits.get_bind (Fits.ok_bind (fits_mergeTables (fun table ht => ?_) _ _)
    fun deps => Fits.values_bind (fits_mergeSections (hroot.under "target").of_mem_members _ _ _)))
    ⟨fun ⟨hworkspace, htarget, _⟩ => ⟨hworkspace, htarget⟩,
      fun h => ⟨h.workspace, h.target, trivial⟩⟩
  rcases List.mem_append.mp ht with ht | ht
  · exact isTextual_fields h _ table ht
  · exact List.mem_singleton.mp ht ▸ (hroot.under "workspace").under "dependencies"

/-- The names in the tables of `pubspec.yaml` can be written out. -/
def IsPub (es : Entries) : Prop :=
  ∀ name ∈ ["dependencies", "dev_dependencies"], ∀ table : Entries,
    (Value.map es).under name = .map table → ∀ k ∈ Entries.keys table, k.isShowable = true

theorem fits_pub (deps : Dependencies) (es : Entries) : Fits (IsPub es)
    (mergeTables .pub deps (fields es ["dependencies", "dev_dependencies"])) := by
  have hnames : IsPub es ↔
      (fields es ["dependencies", "dev_dependencies"]).all hasNames = true := by
    unfold IsPub fields
    simp only [List.all_map, List.all_eq_true, Function.comp_apply, hasNames_iff, Value.under_map]
  unfold mergeTables
  split
  next h => exact .inl ⟨hnames.mpr h, _, rfl⟩
  next h => exact .inr ⟨fun hpub => h (hnames.mp hpub), _, rfl, trivial⟩

/-! ## Readers -/

/-- What makes the reader of an ecosystem fail with something that it does not report. -/
def IsUnforeseen (v : View) (root : Path) : Ecosystem → Prop
  | .npm => HasJsonNumeral v (root.child "package.json")
  | .composer => HasJsonNumeral v (root.child "composer.json")
  | .pub =>
    let file := root.child "pubspec.yaml"
    HasYamlFault v file ∨ ∃ es, HoldsYaml v file es ∧ ¬IsPub es
  | .cargo =>
    let file := root.child "Cargo.toml"
    HasTomlNumeral v file ∨ ∃ es, HoldsToml v file es ∧ ¬IsCargo es
  | .pip =>
    let lines := root.child "requirements.txt"
    let project := root.child "pyproject.toml"
    (IsAbsent v lines ∨ ∃ s, v.readText lines = .ok s) ∧
      (HasTomlNumeral v project ∨ (∃ es, HoldsToml v project es ∧ ¬IsProject es) ∨
        (IsAbsent v project ∨ ∃ es, HoldsToml v project es ∧ IsProject es) ∧
          HasTomlNumeral v (root.child "Pipfile"))
  | .nuget => ∃ files before file after, projectFiles v root = .ok files ∧
    files ++ [root.child "packages.config"] = before ++ file :: after ∧
    (∀ g ∈ before, ∃ s, text? v g = .ok s) ∧ hasNull file = true
  | .go | .gem | .maven | .gradle => False

variable {v : View} {file root : Path}

/-- What takes tables with texts as keys as they come fails only for the file of JSON. -/
theorem throws_json_iff {name : String} (hname : '\x00' ∉ name.toList)
    {k : Option Entries → Except Failure β}
    (hk : ∀ found : Option Entries, (found.getD []).IsTextual → ¬Throws (k found)) :
    Throws (parsed? v (root.child name) (jsonObject .standard (root.child name)) >>= k) ↔
      hasNull root = true ∨ HasJsonNumeral v (root.child name) := by
  rw [throws_bind_iff, throws_parsed?_json_iff, hasNull_child root hname]
  refine or_iff_left ?_
  rintro ⟨found, hfound, h⟩
  exact hk found (isTextual_of_parsed? (fun _ _ => isTextual_of_jsonObject) hfound) h

theorem not_throws_mergeTables {found : Option Entries} (h : (found.getD []).IsTextual)
    (e : Ecosystem) (deps : Dependencies) (names : List String) :
    ¬Throws (ofFault (mergeTables e deps (fields (found.getD []) names))) := by
  rw [mergeTables_of_isTextual (isTextual_fields h names)]
  exact not_throws_ok _

theorem throws_npm_iff :
    Throws (npm .standard v root) ↔ hasNull root = true ∨ IsUnforeseen v root .npm :=
  throws_json_iff (by decide) fun _ h => not_throws_mergeTables h _ _ _

theorem throws_composer_iff :
    Throws (composer .standard v root) ↔ hasNull root = true ∨ IsUnforeseen v root .composer :=
  throws_json_iff (by decide) fun _ h => not_throws_mergeTables h _ _ _

theorem throws_packageFields_iff :
    Throws (packageFields v root) ↔ hasNull root = true ∨ IsUnforeseen v root .npm :=
  throws_json_iff (by decide) fun found _ => not_throws_ok (found.getD [])

/-- A file is taken apart without a report just if it holds entries that do not fit. Where there is
no such file, there is nothing that could fail to fit. -/
theorem exists_throws_iff {parse : Text → Except Failure Entries} {holds fits : Entries → Prop}
    {k : Option Entries → Except Failure β} (hempty : fits [])
    (hholds : ∀ es, parsed? v file parse = .ok (some es) ↔ holds es)
    (hk : ∀ found, parsed? v file parse = .ok found →
      (Throws (k found) ↔ ¬fits (found.getD []))) :
    (∃ found, parsed? v file parse = .ok found ∧ Throws (k found)) ↔ ∃ es, holds es ∧ ¬fits es := by
  constructor
  · rintro ⟨_ | es, hes, h⟩
    · exact absurd hempty ((hk none hes).mp h)
    · exact ⟨es, (hholds es).mp hes, (hk (some es) hes).mp h⟩
  · rintro ⟨es, hes, h⟩
    have hes := (hholds es).mpr hes
    exact ⟨some es, hes, (hk (some es) hes).mpr h⟩

theorem throws_pub_iff :
    Throws (pub .standard v root) ↔ hasNull root = true ∨ IsUnforeseen v root .pub := by
  unfold pub
  rw [throws_bind_iff, throws_parsed?_yaml_iff, hasNull_child root (by decide), or_assoc]
  refine or_congr_right (or_congr_right (exists_throws_iff (fun _ _ _ h => nomatch h)
    (fun es => parsed?_yaml_eq_some_iff) fun found _ => ?_))
  exact (fits_pub .empty (found.getD [])).throws_iff

theorem throws_cargo_iff :
    Throws (cargo .standard v root) ↔ hasNull root = true ∨ IsUnforeseen v root .cargo := by
  unfold cargo
  rw [throws_bind_iff, throws_parsed?_toml_iff, hasNull_child root (by decide), or_assoc]
  refine or_congr_right (or_congr_right (exists_throws_iff ⟨⟨[], rfl⟩, [], rfl⟩
    (fun es => parsed?_toml_eq_some_iff) fun found hfound => ?_))
  have hkeys := isTextual_of_parsed? (fun _ _ => isTextual_of_tomlTable) hfound
  exact (fits_addCrates hkeys .empty).throws_iff

theorem throws_child_iff (hroot : ¬hasNull root = true) {name : String}
    (hname : '\x00' ∉ name.toList) :
    Throws (parsed? v (root.child name) (tomlTable .standard (root.child name))) ↔
      HasTomlNumeral v (root.child name) := by
  rw [throws_parsed?_toml_iff, hasNull_child root hname, or_iff_right hroot]

/-- The last file of `pip`, whose tables are taken as they come. -/
theorem throws_pipfile_iff (hroot : ¬hasNull root = true) (deps : Dependencies)
    (names : List String) : Throws (do
      let es ← parsed? v (root.child "Pipfile") (tomlTable .standard (root.child "Pipfile"))
      ofFault (mergeTables .pip deps (fields (es.getD []) names))) ↔
      HasTomlNumeral v (root.child "Pipfile") := by
  rw [throws_bind_iff, throws_child_iff hroot (by decide)]
  refine or_iff_left ?_
  rintro ⟨found, hfound, h⟩
  have hkeys := isTextual_of_parsed? (fun _ _ => isTextual_of_tomlTable) hfound
  exact not_throws_mergeTables hkeys _ _ _ h

/-- `pyproject.toml`, and after it the last file. -/
theorem throws_project_iff (hroot : ¬hasNull root = true) {es : Entries}
    (hes : HoldsToml v (root.child "pyproject.toml") es) (deps : Dependencies)
    (names : List String) : Throws (do
      let deps ← ofFault (do addPoetry (← addProject deps es) es)
      let es ← parsed? v (root.child "Pipfile") (tomlTable .standard (root.child "Pipfile"))
      ofFault (mergeTables .pip deps (fields (es.getD []) names))) ↔
      ¬IsProject es ∨ IsProject es ∧ HasTomlNumeral v (root.child "Pipfile") := by
  obtain ⟨s, -, hread⟩ := hes
  exact (fits_project (Toml.isTextual_of_read hread) deps).throws_bind_iff fun deps =>
    throws_pipfile_iff hroot deps names

theorem throws_pip_iff :
    Throws (pip .standard v root) ↔ hasNull root = true ∨ IsUnforeseen v root .pip := by
  unfold pip
  rw [throws_bind_iff, throws_text?_iff, hasNull_child root (by decide)]
  refine or_congr_right' fun hroot => ⟨?_, ?_⟩
  · rintro ⟨lines, hlines, h⟩
    refine ⟨text?_ok_iff.mp ⟨lines, hlines⟩, ?_⟩
    rcases throws_bind_iff.mp h with h | ⟨_ | es, hes, h⟩
    · exact .inl ((throws_child_iff hroot (by decide)).mp h)
    · exact .inr (.inr ⟨.inl (parsed?_eq_none_iff.mp hes), (throws_pipfile_iff hroot _ _).mp h⟩)
    · have hes := parsed?_toml_eq_some_iff.mp hes
      rcases (throws_project_iff hroot hes _ _).mp h with hno | ⟨hyes, h⟩
      · exact .inr (.inl ⟨es, hes, hno⟩)
      · exact .inr (.inr ⟨.inr ⟨es, hes, hyes⟩, h⟩)
  · rintro ⟨hlines, h⟩
    obtain ⟨lines, hlines⟩ := text?_ok_iff.mpr hlines
    refine ⟨lines, hlines, throws_bind_iff.mpr ?_⟩
    rcases h with h | ⟨es, hes, hno⟩ | ⟨hnone | ⟨es, hes, hyes⟩, h⟩
    · exact .inl ((throws_child_iff hroot (by decide)).mpr h)
    · exact .inr ⟨some es, parsed?_toml_eq_some_iff.mpr hes,
        (throws_project_iff hroot hes _ _).mpr (.inl hno)⟩
    · exact .inr ⟨none, parsed?_eq_none_iff.mpr hnone, (throws_pipfile_iff hroot _ _).mpr h⟩
    · exact .inr ⟨some es, parsed?_toml_eq_some_iff.mpr hes,
        (throws_project_iff hroot hes _ _).mpr (.inr ⟨hyes, h⟩)⟩

theorem projectFiles_of_hasNull (h : hasNull root = true) : projectFiles v root = .ok [] := by
  have hnames : v.names root = .ok [] := by
    show FileTree.names _ _ _ = _
    unfold FileTree.names FileTree.isDir FileTree.stat
    rw [if_pos h]
    rfl
  unfold projectFiles
  rw [hnames]
  show Except.ok ((List.mergeSort [] _).map root.child) = _
  rw [List.mergeSort_nil, List.map_nil]

theorem throws_nuget_iff :
    Throws (nuget v root) ↔ hasNull root = true ∨ IsUnforeseen v root .nuget := by
  have hfiles (files : List Path) (g : List (Option Text) → Dependencies) : Throws (do
      let texts ← (files ++ [root.child "packages.config"]).mapM (text? v)
      .ok (g texts)) ↔ ∃ before file after,
        files ++ [root.child "packages.config"] = before ++ file :: after ∧
        (∀ g ∈ before, ∃ s, text? v g = .ok s) ∧ hasNull file = true := by
    rw [throws_bind_ok_iff, throws_mapM_iff]
    simp only [throws_text?_iff]
  have hnull (h : hasNull root = true) : IsUnforeseen v root .nuget :=
    ⟨[], [], root.child "packages.config", [], projectFiles_of_hasNull h, rfl,
      fun _ hu => (nomatch hu), (hasNull_child root (by decide)).trans h⟩
  rw [or_iff_right_of_imp hnull]
  unfold nuget
  cases hfound : projectFiles v root with
  | error e =>
    refine iff_of_false ?_ fun ⟨_, _, _, _, h, _⟩ => nomatch hfound.symm.trans h
    rintro ⟨_, ⟨⟩, h⟩
    exact h
  | ok files =>
    refine (hfiles files _).trans
      ⟨fun ⟨before, file, after, h⟩ => ⟨files, before, file, after, hfound, h⟩, ?_⟩
    rintro ⟨_, before, file, after, h, hrest⟩
    cases hfound.symm.trans h
    exact ⟨before, file, after, hrest⟩

/-- The readers of programs and markup foresee all that a file can hold. -/
theorem throws_reported_iff {e : Ecosystem} (he : e ∈ [.go, .gem, .maven, .gradle]) :
    Throws (e.dependencies v root) ↔ hasNull root = true := by
  have htext {name : String} (hname : '\x00' ∉ name.toList) :
      Throws (text? v (root.child name)) ↔ hasNull root = true := by
    rw [throws_text?_iff, hasNull_child root hname]
  simp only [List.mem_cons, List.not_mem_nil, or_false] at he
  rcases he with rfl | rfl | rfl | rfl
  · exact (throws_bind_ok_iff _).trans (htext (by decide))
  · exact (throws_bind_ok_iff _).trans (htext (by decide))
  · show Throws (maven .standard v root) ↔ _
    unfold maven
    rw [throws_bind_iff, throws_parsed?_iff, hasNull_child root (by decide), or_assoc]
    refine or_iff_left ?_
    rintro (⟨s, -, h⟩ | ⟨_ | e, -, h⟩)
    · exact not_throws_xmlRoot h
    · exact not_throws_ok _ h
    · exact not_throws_ok _ h
  · show Throws (gradle v root) ↔ _
    unfold gradle
    rw [throws_bind_iff, htext (by decide)]
    refine or_iff_left_of_imp ?_
    rintro ⟨s, -, h⟩
    exact (htext (by decide)).mp ((throws_bind_ok_iff _).mp h)

/-- The exact cases in which the manifests of an ecosystem fail with something unreported. A null
character in the path of the project is the only one that all have in common. -/
theorem throws_dependencies_iff (e : Ecosystem) :
    Throws (e.dependencies v root) ↔ hasNull root = true ∨ IsUnforeseen v root e := by
  cases e with
  | npm => exact throws_npm_iff
  | pip => exact throws_pip_iff
  | cargo => exact throws_cargo_iff
  | composer => exact throws_composer_iff
  | pub => exact throws_pub_iff
  | nuget => exact throws_nuget_iff
  | _ => exact (throws_reported_iff (by decide)).trans (or_iff_left id).symm

end Manifest

end Rulebook
