import Mathlib.Logic.Basic
import Rulebook.Manifest.Reader
import Rulebook.Proofs.File.Reading
import Rulebook.Proofs.Manifest.Collected

/-!
# Manifests that are read

Readers of manifests report what they foresee as errors of conditions. `Throws` marks the failures
of any other kind, except that the system refuses a path. For each format it is said here what a
manifest holds, and when taking it from its file fails unreported: numerals that cannot be read, and
scalars and keys of YAML that cannot be used.
-/

namespace Rulebook

open Condition (Failure)

/-! ## Failures of another kind -/

namespace Condition

/-- Neither an error of conditions nor a path that the system refuses. -/
def Failure.Escapes : Failure → Prop
  | .error _ => False
  | .fault (.refused _) => False
  | .fault _ => True

def Throws (x : Except Failure α) : Prop := ∃ y, x = .error y ∧ y.Escapes

variable {x : Except Failure α} {k : α → Except Failure β}

theorem not_throws_ok (a : α) : ¬Throws (.ok a) := fun ⟨_, h, _⟩ => nomatch h

theorem not_throws_error (e : Error) : ¬Throws (.error (.error e) : Except Failure α) := by
  rintro ⟨_, ⟨⟩, h⟩
  exact h

theorem throws_error_iff {y : Failure} : Throws (.error y : Except Failure α) ↔ y.Escapes :=
  ⟨fun ⟨_, h, hy⟩ => Except.error.inj h ▸ hy, fun h => ⟨y, rfl, h⟩⟩

theorem throws_bind_iff : Throws (x >>= k) ↔ Throws x ∨ ∃ a, x = .ok a ∧ Throws (k a) := by
  cases x with
  | error y =>
    have hbind : Throws ((.error y : Except Failure α) >>= k) ↔ y.Escapes := throws_error_iff
    rw [hbind, throws_error_iff]
    exact ⟨.inl, fun h => h.resolve_right fun ⟨_, h, _⟩ => nomatch h⟩
  | ok a =>
    refine ⟨fun h => .inr ⟨a, rfl, h⟩, ?_⟩
    rintro (h | ⟨_, ⟨⟩, h⟩)
    · exact absurd h (not_throws_ok a)
    · exact h

theorem throws_map_iff (g : α → β) : Throws (g <$> x) ↔ Throws x := by
  cases x with
  | error y => exact throws_error_iff.trans throws_error_iff.symm
  | ok a => exact iff_of_false (not_throws_ok (g a)) (not_throws_ok a)

theorem throws_bind_ok_iff (g : α → β) : Throws (x >>= fun a => .ok (g a)) ↔ Throws x := by
  rw [throws_bind_iff]
  exact or_iff_left fun ⟨a, _, h⟩ => not_throws_ok (g a) h

/-- A list is gone through as far as nothing fails. -/
theorem throws_mapM_iff {g : α → Except Failure β} {l : List α} : Throws (l.mapM g) ↔
    ∃ before a after, l = before ++ a :: after ∧ (∀ u ∈ before, ∃ b, g u = .ok b) ∧
      Throws (g a) := by
  induction l with
  | nil =>
    refine iff_of_false (not_throws_ok []) ?_
    rintro ⟨before, a, after, hl, -⟩
    simp at hl
  | cons c l ih =>
    rw [List.mapM_cons, throws_bind_iff]
    constructor
    · rintro (h | ⟨b, hb, h⟩)
      · exact ⟨[], c, l, rfl, fun _ hu => (nomatch hu), h⟩
      · obtain ⟨before, a, after, rfl, hbefore, ha⟩ := ih.mp ((throws_bind_ok_iff _).mp h)
        exact ⟨c :: before, a, after, rfl, List.forall_mem_cons.mpr ⟨⟨b, hb⟩, hbefore⟩, ha⟩
    · rintro ⟨before, a, after, hl, hbefore, ha⟩
      cases before with
      | nil =>
        cases hl
        exact .inl ha
      | cons u before =>
        obtain ⟨rfl, rfl⟩ := List.cons.inj hl
        obtain ⟨⟨b, hb⟩, hbefore⟩ := List.forall_mem_cons.mp hbefore
        exact .inr ⟨b, hb, (throws_bind_ok_iff _).mpr
          (ih.mpr ⟨before, a, after, rfl, hbefore, ha⟩)⟩

end Condition

open Condition (Throws not_throws_ok not_throws_error throws_error_iff throws_bind_iff
  throws_map_iff throws_bind_ok_iff throws_mapM_iff)

/-! ## Texts -/

namespace FileTree

theorem hasNull_child (root : Path) {name : String} (h : '\x00' ∉ name.toList) :
    hasNull (root.child name) = hasNull root := by
  simp [hasNull, Path.child, h]

end FileTree

open FileTree (hasNull hasNull_child)

namespace Manifest

variable {v : View} {file root : Path} {s : Text} {parse : Text → Except Failure α}

/-- There is no such file. -/
def IsAbsent (v : View) (file : Path) : Prop :=
  ∃ path, v.readText file = .error (.refused ⟨.notFound, path⟩)

theorem text?_eq_some_iff : text? v file = .ok (some s) ↔ v.readText file = .ok s := by
  unfold text?
  split <;> simp [*]

theorem text?_eq_none_iff : text? v file = .ok none ↔ IsAbsent v file := by
  unfold text? IsAbsent
  split
  next h => simp [h]
  next path h => exact iff_of_true rfl ⟨path, h⟩
  next h => simp [h]
  next hfound _ h => simpa [h] using hfound

theorem throws_text?_iff : Throws (text? v file) ↔ hasNull file = true := by
  rw [← View.readText_eq_nullInPath_iff (v := v)]
  unfold text?
  split
  next h => exact iff_of_false (not_throws_ok _) (by simp [h])
  next h => exact iff_of_false (not_throws_ok _) (by simp [h])
  next h => exact iff_of_true (throws_error_iff.mpr trivial) h
  next hnull h => exact iff_of_false (not_throws_error _) (by simpa [h] using hnull)

theorem throws_parsed?_iff : Throws (parsed? v file parse) ↔
    hasNull file = true ∨ ∃ s, v.readText file = .ok s ∧ Throws (parse s) := by
  unfold parsed?
  rw [throws_bind_iff, throws_text?_iff]
  refine or_congr_right ⟨?_, ?_⟩
  · rintro ⟨_ | s, hs, h⟩
    · exact absurd h (not_throws_ok none)
    · exact ⟨s, text?_eq_some_iff.mp hs, (throws_map_iff some).mp h⟩
  · rintro ⟨s, hs, h⟩
    exact ⟨some s, text?_eq_some_iff.mpr hs, (throws_map_iff some).mpr h⟩

theorem map_eq_ok_iff {x : Except ε α} {g : α → β} {b : β} :
    g <$> x = .ok b ↔ ∃ a, x = .ok a ∧ g a = b := by
  cases x with
  | error e => exact ⟨fun h => (nomatch h), fun ⟨_, h, _⟩ => (nomatch h)⟩
  | ok a =>
    constructor
    · exact fun h => ⟨a, rfl, Except.ok.inj h⟩
    · rintro ⟨_, ⟨⟩, rfl⟩
      rfl

theorem parsed?_eq_some_iff {a : α} : parsed? v file parse = .ok (some a) ↔
    ∃ s, v.readText file = .ok s ∧ parse s = .ok a := by
  unfold parsed?
  rw [bind_eq_ok_iff]
  constructor
  · rintro ⟨_ | s, hs, h⟩
    · cases h
    · obtain ⟨b, hb, ⟨⟩⟩ := map_eq_ok_iff.mp h
      exact ⟨s, text?_eq_some_iff.mp hs, hb⟩
  · rintro ⟨s, hs, h⟩
    exact ⟨some s, text?_eq_some_iff.mpr hs, map_eq_ok_iff.mpr ⟨a, h, rfl⟩⟩

theorem parsed?_eq_none_iff : parsed? v file parse = .ok none ↔ IsAbsent v file := by
  unfold parsed?
  rw [bind_eq_ok_iff]
  constructor
  · rintro ⟨_ | s, hs, h⟩
    · exact text?_eq_none_iff.mp hs
    · obtain ⟨_, -, ⟨⟩⟩ := map_eq_ok_iff.mp h
  · exact fun h => ⟨none, text?_eq_none_iff.mpr h, rfl⟩

/-! ## Formats -/

/-- A file of JSON with a numeral that is too long to be read. -/
def HasJsonNumeral (v : View) (file : Path) : Prop :=
  ∃ s e, v.readText file = .ok s ∧ Blank.isAllBlank s = false ∧ Json.read s = .error (.numeral e)

/-- A file of TOML with a numeral that cannot be read. -/
def HasTomlNumeral (v : View) (file : Path) : Prop :=
  ∃ s e, v.readText file = .ok s ∧ Toml.read s = .error (.numeral e)

def HoldsToml (v : View) (file : Path) (es : Entries) : Prop :=
  ∃ s, v.readText file = .ok s ∧ Toml.read s = .ok es

/-- A file of YAML with a scalar or a key that cannot be used. -/
def HasYamlFault (v : View) (file : Path) : Prop :=
  ∃ s y, v.readText file = .ok s ∧ Yaml.read s = .error (.fault y) ∧ (Failure.fault y).Escapes

def HoldsYaml (v : View) (file : Path) (es : Entries) : Prop :=
  ∃ s w, v.readText file = .ok s ∧ Yaml.read s = .ok w ∧ w.orEmpty = .map es

theorem throws_jsonObject_iff : Throws (jsonObject .standard file s) ↔
    Blank.isAllBlank s = false ∧ ∃ e, Json.read s = .error (.numeral e) := by
  have hjson : Parsers.standard.json s = (Json.read s).mapError Parsers.ofJson := rfl
  unfold jsonObject
  rw [hjson]
  cases hs : Blank.isAllBlank s with
  | true => exact iff_of_false (not_throws_ok []) fun h => nomatch h.1
  | false =>
    rw [if_neg Bool.false_ne_true]
    cases Json.read s with
    | error e =>
      cases e with
      | malformed => exact iff_of_false (not_throws_error _) fun h => nomatch h.2
      | numeral e => exact iff_of_true (throws_error_iff.mpr trivial) ⟨rfl, e, rfl⟩
    | ok w =>
      cases w with
      | map es => exact iff_of_false (not_throws_ok es) fun h => nomatch h.2
      | _ => exact iff_of_false (not_throws_error _) fun h => nomatch h.2

theorem throws_tomlTable_iff : Throws (tomlTable .standard file s) ↔
    ∃ e, Toml.read s = .error (.numeral e) := by
  have htoml : tomlTable .standard file s =
      ((Toml.read s).mapError Parsers.ofToml).mapError (reported .toml file) := rfl
  rw [htoml]
  cases Toml.read s with
  | error e =>
    cases e with
    | malformed p => exact iff_of_false (not_throws_error _) fun h => nomatch h
    | numeral e => exact iff_of_true (throws_error_iff.mpr trivial) ⟨e, rfl⟩
  | ok es => exact iff_of_false (not_throws_ok es) fun h => nomatch h

theorem tomlTable_eq_ok_iff {es : Entries} :
    tomlTable .standard file s = .ok es ↔ Toml.read s = .ok es := by
  have htoml : tomlTable .standard file s =
      ((Toml.read s).mapError Parsers.ofToml).mapError (reported .toml file) := rfl
  rw [htoml]
  cases Toml.read s <;> simp [Except.mapError]

theorem yamlMapping_of_read {w : Value} (hread : Yaml.read s = .ok w) :
    (∃ es, w.orEmpty = .map es ∧ yamlMapping .standard file s = .ok es) ∨
      (∀ es, w.orEmpty ≠ .map es) ∧
        yamlMapping .standard file s = .error (failure file (.notAMapping file.name)) := by
  have hyaml : Parsers.standard.yaml s = (Yaml.read s).mapError Parsers.ofYaml := rfl
  unfold yamlMapping
  rw [hyaml, hread]
  cases hw : w.orEmpty with
  | map es => exact .inl ⟨es, rfl, by simp only [Except.mapError, hw]⟩
  | _ => exact .inr ⟨nofun, by simp only [Except.mapError, hw]⟩

theorem yamlMapping_of_error {e : Yaml.Error} (hread : Yaml.read s = .error e) :
    yamlMapping .standard file s = .error (reported .yaml file (Parsers.ofYaml e)) := by
  have hyaml : Parsers.standard.yaml s = (Yaml.read s).mapError Parsers.ofYaml := rfl
  unfold yamlMapping
  rw [hyaml, hread]
  rfl

theorem throws_yamlMapping_iff : Throws (yamlMapping .standard file s) ↔
    ∃ y, Yaml.read s = .error (.fault y) ∧ (Failure.fault y).Escapes := by
  cases hread : Yaml.read s with
  | error e =>
    rw [yamlMapping_of_error hread, throws_error_iff]
    cases e with
    | malformed p => exact iff_of_false id fun ⟨_, h, _⟩ => nomatch h
    | fault y =>
      refine ⟨fun h => ⟨y, rfl, h⟩, ?_⟩
      rintro ⟨_, ⟨⟩, h⟩
      exact h
  | ok w =>
    refine iff_of_false ?_ fun ⟨_, h, _⟩ => nomatch h
    rcases yamlMapping_of_read hread with ⟨es, -, h⟩ | ⟨-, h⟩
    · rw [h]
      exact not_throws_ok es
    · rw [h]
      exact not_throws_error _

theorem yamlMapping_eq_ok_iff {es : Entries} :
    yamlMapping .standard file s = .ok es ↔ ∃ w, Yaml.read s = .ok w ∧ w.orEmpty = .map es := by
  cases hread : Yaml.read s with
  | error e =>
    rw [yamlMapping_of_error hread]
    exact iff_of_false nofun fun ⟨_, h, _⟩ => nomatch h
  | ok w =>
    have hmatch : yamlMapping .standard file s = .ok es ↔ w.orEmpty = .map es := by
      rcases yamlMapping_of_read hread with ⟨es', hw, h⟩ | ⟨hw, h⟩
      · rw [h, hw, Except.ok.injEq, Value.map.injEq]
      · rw [h]
        exact iff_of_false nofun (hw es)
    refine hmatch.trans ⟨fun h => ⟨w, rfl, h⟩, ?_⟩
    rintro ⟨_, ⟨⟩, h⟩
    exact h

theorem not_throws_xmlRoot : ¬Throws (xmlRoot .standard file s) := by
  have hxml : xmlRoot .standard file s =
      ((Xml.read s).mapError fun p => .malformed p.message).mapError (reported .xml file) := rfl
  rw [hxml]
  cases Xml.read s with
  | ok e => exact not_throws_ok e
  | error p => exact not_throws_error _

/-! ## Files of a format -/

theorem throws_parsed?_json_iff : Throws (parsed? v file (jsonObject .standard file)) ↔
    hasNull file = true ∨ HasJsonNumeral v file := by
  rw [throws_parsed?_iff]
  simp only [throws_jsonObject_iff, HasJsonNumeral, exists_and_left]

theorem throws_parsed?_toml_iff : Throws (parsed? v file (tomlTable .standard file)) ↔
    hasNull file = true ∨ HasTomlNumeral v file := by
  rw [throws_parsed?_iff]
  simp only [throws_tomlTable_iff, HasTomlNumeral, exists_and_left]

theorem throws_parsed?_yaml_iff : Throws (parsed? v file (yamlMapping .standard file)) ↔
    hasNull file = true ∨ HasYamlFault v file := by
  rw [throws_parsed?_iff]
  simp only [throws_yamlMapping_iff, HasYamlFault, exists_and_left]

theorem parsed?_toml_eq_some_iff {es : Entries} :
    parsed? v file (tomlTable .standard file) = .ok (some es) ↔ HoldsToml v file es := by
  rw [parsed?_eq_some_iff]
  simp only [tomlTable_eq_ok_iff, HoldsToml]

theorem parsed?_yaml_eq_some_iff {es : Entries} :
    parsed? v file (yamlMapping .standard file) = .ok (some es) ↔ HoldsYaml v file es := by
  rw [parsed?_eq_some_iff]
  simp only [yamlMapping_eq_ok_iff, HoldsYaml, exists_and_left]

/-- What is taken from a file of JSON or TOML, or in its place, has texts as keys. -/
theorem isTextual_of_parsed? {parse : Text → Except Failure Entries} {found : Option Entries}
    (hparse : ∀ s es, parse s = .ok es → es.IsTextual) (h : parsed? v file parse = .ok found) :
    (found.getD []).IsTextual := by
  cases found with
  | none => trivial
  | some es =>
    obtain ⟨s, -, hs⟩ := parsed?_eq_some_iff.mp h
    exact hparse s es hs

theorem text?_ok_iff : (∃ s, text? v file = .ok s) ↔
    IsAbsent v file ∨ ∃ s, v.readText file = .ok s := by
  constructor
  · rintro ⟨_ | s, h⟩
    · exact .inl (text?_eq_none_iff.mp h)
    · exact .inr ⟨s, text?_eq_some_iff.mp h⟩
  · rintro (h | ⟨s, h⟩)
    · exact ⟨none, text?_eq_none_iff.mpr h⟩
    · exact ⟨some s, text?_eq_some_iff.mpr h⟩

end Manifest

end Rulebook
