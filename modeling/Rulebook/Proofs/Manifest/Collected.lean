import Mathlib.Data.List.Nodup
import Rulebook.Manifest.Tables
import Rulebook.Proofs.Value.Textual

/-!
# Collected packages

What a listing holds after packages were added to it: the names from before and those that were
added (`Dependencies.contains_foldl`), each once (`Dependencies.IsDistinct`), and an added package
with its new version (`Dependencies.mem_entries_insert`). Tables from JSON and TOML are always
added, for their keys are texts (`Manifest.mergeTables_of_isTextual`).
-/

namespace Rulebook

namespace Dependencies

variable {d : Dependencies} {name other : String} {version : Option String}
  {e : String × Option String}

theorem contains_insert_iff : (d.insert name version).contains other = true ↔
    d.contains other = true ∨ other = name := by
  rw [contains_insert, Bool.or_eq_true, decide_eq_true_eq, or_comm]

/-- Where each step adds the name just if `p` holds of it, all steps together add it just if `p`
holds of one of them. -/
theorem contains_foldl {f : Dependencies → α → Dependencies} {p : α → Prop}
    (hf : ∀ d a, (f d a).contains name = true ↔ d.contains name = true ∨ p a) (d : Dependencies)
    (l : List α) :
    (l.foldl f d).contains name = true ↔ d.contains name = true ∨ ∃ a ∈ l, p a := by
  induction l generalizing d with
  | nil => simp
  | cons a l ih =>
    rw [List.foldl_cons, ih, hf]
    simp only [List.mem_cons, exists_eq_or_imp, or_assoc]

/-- No name is there twice. -/
def IsDistinct (d : Dependencies) : Prop := (d.entries.map (·.1)).Nodup

theorem IsDistinct.empty : Dependencies.empty.IsDistinct := List.nodup_nil

theorem IsDistinct.insert (h : d.IsDistinct) (name : String) (version : Option String) :
    (d.insert name version).IsDistinct := by
  obtain ⟨es⟩ := d
  show ((insertInto name version es).map (·.1)).Nodup
  induction es with
  | nil => exact List.nodup_singleton name
  | cons e es ih =>
    obtain ⟨he, hes⟩ := List.nodup_cons.mp h
    rw [insertInto]
    split
    next heq => exact List.nodup_cons.mpr ⟨heq ▸ he, hes⟩
    next hne => exact List.nodup_cons.mpr ⟨fun hmem => (mem_insertInto.mp hmem).elim hne he, ih hes⟩

/-- An insertion leaves the other names as they are. -/
theorem mem_entries_insert (h : d.IsDistinct) : e ∈ (d.insert name version).entries ↔
    e = (name, version) ∨ e ∈ d.entries ∧ e.1 ≠ name := by
  obtain ⟨es⟩ := d
  show e ∈ insertInto name version es ↔ _ ∨ e ∈ es ∧ _
  induction es with
  | nil => simp [insertInto]
  | cons x es ih =>
    obtain ⟨hx, hes⟩ := List.nodup_cons.mp h
    have hother : x.1 = name → e ∈ es → e.1 ≠ name := fun heq hmem hname =>
      hx (List.mem_map.mpr ⟨e, hmem, hname.trans heq.symm⟩)
    rw [insertInto]
    split
    next heq =>
      rw [List.mem_cons, List.mem_cons]
      constructor
      · rintro (he | he)
        · exact .inl he
        · exact .inr ⟨.inr he, hother heq he⟩
      · rintro (he | ⟨rfl | he, hname⟩)
        · exact .inl he
        · exact absurd heq hname
        · exact .inr he
    next hne =>
      rw [List.mem_cons, List.mem_cons, ih hes]
      constructor
      · rintro (rfl | he | ⟨he, hname⟩)
        · exact .inr ⟨.inl rfl, hne⟩
        · exact .inl he
        · exact .inr ⟨.inr he, hname⟩
      · rintro (he | ⟨he | he, hname⟩)
        · exact .inr (.inl he)
        · exact .inl he
        · exact .inr (.inr ⟨he, hname⟩)

end Dependencies

/-! ## Tables with texts as keys -/

namespace Value

theorem allShowable_iff {vs : List Value} :
    allShowable vs = true ↔ ∀ v ∈ vs, v.isShowable = true := by
  induction vs with
  | nil => exact iff_of_true rfl (List.forall_mem_nil _)
  | cons v vs ih => rw [allShowable, Bool.and_eq_true, ih, List.forall_mem_cons]

theorem IsTextual.orEmpty {v : Value} (h : v.IsTextual) : v.orEmpty.IsTextual := by
  unfold Value.orEmpty
  split
  · exact h
  · trivial

end Value

namespace Manifest

variable {v : View} {file : Path} {s : Text} {es : Entries} {tables : List Value}

theorem hasNames_iff {table : Value} :
    hasNames table = true ↔
      ∀ es : Entries, table = .map es → ∀ k ∈ Entries.keys es, k.isShowable = true := by
  cases table with
  | map es => simp [hasNames, Value.allShowable_iff]
  | _ => exact iff_of_true rfl nofun

theorem hasNames_of_isTextual {table : Value} (h : table.IsTextual) : hasNames table = true := by
  refine hasNames_iff.mpr ?_
  rintro es rfl k hk
  obtain ⟨e, he, rfl⟩ := List.mem_map.mp hk
  obtain ⟨⟨name, hname⟩, -⟩ := Entries.isTextual_iff.mp h e he
  rw [hname]
  rfl

theorem mergeTables_of_isTextual (h : ∀ table ∈ tables, table.IsTextual) (e : Ecosystem)
    (deps : Dependencies) : mergeTables e deps tables = .ok (addTables e deps tables) :=
  if_pos (List.all_eq_true.mpr fun table ht => hasNames_of_isTextual (h table ht))

theorem isTextual_field (h : es.IsTextual) (name : String) :
    ((es.field? name).getD .null).IsTextual := by
  cases hfield : es.field? name with
  | none => trivial
  | some v => exact h.of_field? hfield

theorem isTextual_fields (h : es.IsTextual) (names : List String) :
    ∀ table ∈ fields es names, table.IsTextual := by
  intro table ht
  obtain ⟨name, -, rfl⟩ := List.mem_map.mp ht
  exact isTextual_field h name

theorem isTextual_of_jsonObject (h : jsonObject .standard file s = .ok es) : es.IsTextual := by
  unfold jsonObject at h
  split at h
  · cases h
    trivial
  · have hjson : Parsers.standard.json s = (Json.read s).mapError Parsers.ofJson := rfl
    rw [hjson] at h
    cases hread : Json.read s with
    | error e =>
      rw [hread] at h
      cases h
    | ok w =>
      rw [hread] at h
      cases w <;> cases h
      exact Json.isTextual_of_read hread

theorem isTextual_of_tomlTable (h : tomlTable .standard file s = .ok es) : es.IsTextual := by
  have htoml : ((Toml.read s).mapError Parsers.ofToml).mapError (reported .toml file) = .ok es := h
  cases hread : Toml.read s with
  | error e =>
    rw [hread] at htoml
    cases htoml
  | ok es' =>
    rw [hread] at htoml
    cases htoml
    exact Toml.isTextual_of_read hread

end Manifest

end Rulebook
