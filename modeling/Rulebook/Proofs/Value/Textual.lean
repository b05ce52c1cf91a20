import Rulebook.Fault
import Rulebook.Json.Reader
import Rulebook.Proofs.Value.Keyed
import Rulebook.Toml.Reader

/-!
# Keys that are texts

A mapping can have keys of many kinds, but a document of JSON or TOML writes texts only: at every
depth, the keys of what is read from it are texts (`Json.isTextual_of_read`,
`Toml.isTextual_of_read`).
-/

namespace Rulebook

mutual

/-- All keys in a value are texts, at every depth. -/
def Value.IsTextual : Value → Prop
  | .list vs => Value.AllTextual vs
  | .map es => Entries.IsTextual es
  | _ => True

def Value.AllTextual : List Value → Prop
  | [] => True
  | v :: vs => v.IsTextual ∧ Value.AllTextual vs

def Entries.IsTextual : Entries → Prop
  | [] => True
  | e :: es => (∃ s, e.1 = .str s) ∧ e.2.IsTextual ∧ Entries.IsTextual es

end

namespace Value

theorem allTextual_iff {vs : List Value} : AllTextual vs ↔ ∀ v ∈ vs, v.IsTextual := by
  induction vs with
  | nil => exact iff_of_true trivial (List.forall_mem_nil _)
  | cons v vs ih => rw [AllTextual, ih, List.forall_mem_cons]

end Value

namespace Entries

variable {es : Entries} {v : Value} {name : String}

theorem isTextual_iff : es.IsTextual ↔ ∀ e ∈ es, (∃ s, e.1 = .str s) ∧ e.2.IsTextual := by
  induction es with
  | nil => exact iff_of_true trivial (List.forall_mem_nil _)
  | cons e es ih => rw [IsTextual, ih, List.forall_mem_cons, and_assoc]

theorem IsTextual.of_field? (h : es.IsTextual) (hv : es.field? name = some v) : v.IsTextual := by
  obtain ⟨k, hk⟩ := exists_mem_of_find? hv
  exact (isTextual_iff.mp h (k, v) hk).2

theorem IsTextual.insert (h : es.IsTextual) (name : String) (hv : v.IsTextual) :
    (es.insert (.str name) v).IsTextual := by
  induction es with
  | nil => exact ⟨⟨name, rfl⟩, hv, trivial⟩
  | cons e es ih =>
    obtain ⟨hkey, hvalue, hes⟩ := h
    rw [Entries.insert]
    split
    · exact ⟨hkey, hv, hes⟩
    · exact ⟨hkey, hvalue, ih hes⟩

end Entries

open Value (AllTextual allTextual_iff)

/-! ## JSON -/

namespace Json

theorem isTextual_of_word? {s r : Text} {v : Value} (h : word? s = some (v, r)) : v.IsTextual := by
  obtain ⟨⟨w, u⟩, hmem, hfound⟩ := List.exists_of_findSome?_eq_some h
  have hwords : ∀ x ∈ words, x.2.IsTextual := by
    simp only [words, List.forall_mem_cons, Value.IsTextual, true_and]
    exact List.forall_mem_nil _
  dsimp only at hfound
  split at hfound
  · cases hfound
    exact hwords _ hmem
  · cases hfound

theorem Numeral.isTextual_of_value {n : Numeral} {v : Value} (h : n.value = .ok v) :
    v.IsTextual := by
  unfold Numeral.value at h
  split at h
  · split at h <;> cases h
    trivial
  · cases h
    trivial

mutual

theorem isTextual_of_value {fuel : Nat} {s r : Text} {v : Value}
    (h : value fuel s = .ok (v, r)) : v.IsTextual := by
  cases fuel with
  | zero => cases h
  | succ fuel =>
    unfold value at h
    split at h
    · split at h <;> cases h
      trivial
    · split at h
      · cases h
        trivial
      · exact isTextual_of_items (by trivial) h
    · split at h
      · cases h
        trivial
      · exact isTextual_of_members (by trivial) h
    · split at h
      next found hword =>
        cases h
        exact isTextual_of_word? hword
      next =>
        split at h
        next n rest _ =>
          obtain ⟨u, hu, heq⟩ := bind_eq_ok_iff.mp h
          cases heq
          exact Numeral.isTextual_of_value hu
        next => cases h

theorem isTextual_of_items {fuel : Nat} {done : List Value} {s r : Text} {v : Value}
    (hdone : AllTextual done) (h : items fuel done s = .ok (v, r)) : v.IsTextual := by
  cases fuel with
  | zero => cases h
  | succ fuel =>
    unfold items at h
    obtain ⟨⟨u, rest⟩, hu, h⟩ := bind_eq_ok_iff.mp h
    have hall : AllTextual (u :: done) := ⟨isTextual_of_value hu, hdone⟩
    dsimp only at h
    split at h
    · exact isTextual_of_items hall h
    · cases h
      exact allTextual_iff.mpr fun w hw => allTextual_iff.mp hall w (List.mem_reverse.mp hw)
    · cases h

theorem isTextual_of_members {fuel : Nat} {done : Entries} {s r : Text} {v : Value}
    (hdone : done.IsTextual) (h : members fuel done s = .ok (v, r)) : v.IsTextual := by
  cases fuel with
  | zero => cases h
  | succ fuel =>
    unfold members at h
    split at h
    · split at h
      next => cases h
      next key _ _ =>
        split at h
        · obtain ⟨⟨u, rest⟩, hu, h⟩ := bind_eq_ok_iff.mp h
          have hall := hdone.insert (String.ofList key) (isTextual_of_value hu)
          dsimp only at h
          split at h
          · exact isTextual_of_members hall h
          · cases h
            exact hall
          · cases h
        · cases h
    · cases h

end

/-- The keys of objects are texts. -/
theorem isTextual_of_read {s : Text} {v : Value} (h : read s = .ok v) : v.IsTextual := by
  obtain ⟨⟨u, rest⟩, hu, h⟩ := bind_eq_ok_iff.mp h
  dsimp only at h
  split at h <;> cases h
  exact isTextual_of_value hu

end Json

/-! ## TOML -/

namespace Toml

/-! ### Tables -/

variable {es es' : Entries} {v : Value} {l l' : Layout} {k : Key}

theorem isTextual_of_inTable {arrays : Bool} {change : Entries → Option Entries}
    (hchange : ∀ {es es'}, es.IsTextual → change es = some es' → es'.IsTextual)
    (hes : es.IsTextual) (h : inTable arrays es change k = some es') : es'.IsTextual := by
  induction k generalizing es es' with
  | nil => exact hchange hes h
  | cons part k ih =>
    unfold inTable at h
    split at h
    next =>
      obtain ⟨inner, hinner, ⟨⟩⟩ := Option.bind_eq_some_iff.mp h
      exact hes.insert part (ih (by trivial) hinner)
    next inner hfield =>
      obtain ⟨changed, hchanged, ⟨⟩⟩ := Option.bind_eq_some_iff.mp h
      exact hes.insert part (ih (hes.of_field? hfield) hchanged)
    next items hfield =>
      have hitems : AllTextual items := hes.of_field? hfield
      split at h
      next inner hlast =>
        obtain ⟨changed, hchanged, ⟨⟩⟩ := Option.bind_eq_some_iff.mp h
        have hinner := allTextual_iff.mp hitems _ (List.mem_of_getLast? hlast)
        refine hes.insert part (allTextual_iff.mpr fun w hw => ?_)
        rcases List.mem_append.mp hw with hw | hw
        · exact allTextual_iff.mp hitems w ((List.dropLast_sublist items).subset hw)
        · obtain rfl := List.mem_singleton.mp hw
          exact ih hinner hchanged
      next => cases h
    next => cases h

theorem isTextual_of_setNew {part : String} (hv : v.IsTextual) (hes : es.IsTextual)
    (h : setNew part v es = some es') : es'.IsTextual := by
  unfold setNew at h
  split at h <;> cases h
  exact hes.insert part hv

theorem isTextual_of_addElement {part : String} (hes : es.IsTextual)
    (h : addElement part es = some es') : es'.IsTextual := by
  have hempty : Value.IsTextual (.map []) := trivial
  unfold addElement at h
  split at h
  next =>
    cases h
    exact hes.insert part ⟨hempty, trivial⟩
  next items hfield =>
    cases h
    refine hes.insert part (allTextual_iff.mpr fun w hw => ?_)
    rcases List.mem_append.mp hw with hw | hw
    · exact allTextual_iff.mp (hes.of_field? hfield) w hw
    · exact List.mem_singleton.mp hw ▸ hempty
  next => cases h

theorem Layout.isTextual_of_declareTable (hl : l.entries.IsTextual)
    (h : l.declareTable k = .ok l') : l'.entries.IsTextual := by
  unfold declareTable at h
  split at h
  · cases h
  split at h <;> cases h
  next hentries =>
    refine isTextual_of_inTable (fun hes heq => ?_) hl hentries
    exact Option.some.inj heq ▸ hes

theorem Layout.isTextual_of_declareElement (hl : l.entries.IsTextual)
    (h : l.declareElement k = .ok l') : l'.entries.IsTextual := by
  unfold declareElement at h
  split at h
  · cases h
  split at h <;> cases h
  next hentries => exact isTextual_of_inTable isTextual_of_addElement hl hentries

theorem Layout.isTextual_of_assign (hl : l.entries.IsTextual) (hv : v.IsTextual)
    (h : l.assign k v = .ok l') : l'.entries.IsTextual := by
  unfold assign at h
  dsimp only at h
  split at h
  · cases h
  split at h
  · cases h
  split at h <;> cases h
  next hentries => exact isTextual_of_inTable (isTextual_of_setNew hv) hl hentries

theorem Inline.isTextual_of_assign {t t' : Inline} (ht : t.entries.IsTextual) (hv : v.IsTextual)
    (h : t.assign k v = .ok t') : t'.entries.IsTextual := by
  unfold assign at h
  split at h
  · cases h
  split at h <;> cases h
  next hentries => exact isTextual_of_inTable (isTextual_of_setNew hv) ht hentries

/-! ### Values -/

theorem isTextual_of_number? {s r : Text} (h : number? s = some (.ok v, r)) : v.IsTextual := by
  have hmapped {α : Type} {f : α → Value} (hf : ∀ a, (f a).IsTextual)
      {x : Except Literal.Error α} (hx : (x.map f).mapError Error.numeral = .ok v) :
      v.IsTextual := by
    cases x with
    | error e => cases hx
    | ok a =>
      cases hx
      exact hf a
  unfold number? at h
  dsimp only at h
  split at h
  · obtain ⟨hvalue, -⟩ := Prod.mk.inj (Option.some.inj h)
    exact hmapped (f := .int) (fun _ => trivial) hvalue
  · split at h
    · cases h
    · obtain ⟨hvalue, -⟩ := Prod.mk.inj (Option.some.inj h)
      split at hvalue
      · exact hmapped (f := .int) (fun _ => trivial) hvalue
      · exact hmapped (f := .float) (fun _ => trivial) hvalue

theorem isTextual_of_moment? {s r : Text} (h : moment? s = some (.ok v, r)) : v.IsTextual := by
  obtain ⟨⟨date, s⟩, -, h⟩ := Option.bind_eq_some_iff.mp h
  cases hcheck : Calendar.checkDate date with
  | error e =>
    simp only [hcheck] at h
    repeat' split at h
    all_goals cases (Prod.mk.inj (Option.some.inj h)).1
  | ok =>
    simp only [hcheck] at h
    repeat' split at h
    all_goals
      cases (Prod.mk.inj (Option.some.inj h)).1
      trivial

/-- A scalar has no keys. -/
theorem isTextual_of_scalar {s r : Text} (h : scalar s = .ok (v, r)) : v.IsTextual := by
  unfold scalar at h
  split at h
  next result _ =>
    cases result <;> cases h
    trivial
  next =>
    split at h
    next found hword =>
      cases h
      unfold literalWord? at hword
      split at hword <;> cases hword <;> trivial
    next =>
      split at h
      next result rest hmoment =>
        cases result <;> cases h
        exact isTextual_of_moment? hmoment
      next =>
        split at h
        next => cases h; trivial
        next =>
          split at h
          next result rest hnumber =>
            cases result <;> cases h
            exact isTextual_of_number? hnumber
          next => split at h <;> cases h; trivial

mutual

theorem isTextual_of_value {fuel : Nat} {s r : Text} {v : Value}
    (h : value fuel s = .ok (v, r)) : v.IsTextual := by
  cases fuel with
  | zero => cases h
  | succ fuel =>
    unfold value at h
    split at h
    · obtain ⟨s, -, h⟩ := bind_eq_ok_iff.mp h
      obtain ⟨⟨items, rest⟩, hitems, h⟩ := bind_eq_ok_iff.mp h
      cases h
      exact allTextual_of_arrayItems hitems
    · split at h
      · cases h
        trivial
      · obtain ⟨⟨es, rest⟩, hes, h⟩ := bind_eq_ok_iff.mp h
        cases h
        exact isTextual_of_inlineItems (by trivial) hes
    · exact isTextual_of_scalar h

theorem allTextual_of_arrayItems {fuel : Nat} {s r : Text} {vs : List Value}
    (h : arrayItems fuel s = .ok (vs, r)) : AllTextual vs := by
  cases fuel with
  | zero => cases h
  | succ fuel =>
    unfold arrayItems at h
    split at h
    · cases h
      trivial
    · obtain ⟨⟨v, rest⟩, hv, h⟩ := bind_eq_ok_iff.mp h
      obtain ⟨gap, -, h⟩ := bind_eq_ok_iff.mp h
      have hv := isTextual_of_value hv
      split at h
      · cases h
        exact ⟨hv, trivial⟩
      · obtain ⟨s, -, h⟩ := bind_eq_ok_iff.mp h
        obtain ⟨⟨more, rest⟩, hmore, h⟩ := bind_eq_ok_iff.mp h
        cases h
        exact ⟨hv, allTextual_of_arrayItems hmore⟩
      · cases h

theorem isTextual_of_inlineItems {fuel : Nat} {t : Inline} {s r : Text} {es : Entries}
    (ht : t.entries.IsTextual) (h : inlineItems fuel t s = .ok (es, r)) : es.IsTextual := by
  cases fuel with
  | zero => cases h
  | succ fuel =>
    unfold inlineItems at h
    obtain ⟨⟨k, v, rest⟩, hpair, h⟩ := bind_eq_ok_iff.mp h
    obtain ⟨t, hassign, h⟩ := bind_eq_ok_iff.mp h
    have ht := Inline.isTextual_of_assign ht (isTextual_of_pair hpair) hassign
    split at h
    · cases h
      exact ht
    · exact isTextual_of_inlineItems ht h
    · cases h

theorem isTextual_of_pair {fuel : Nat} {s r : Text} {k : Key} {v : Value}
    (h : pair fuel s = .ok (k, v, r)) : v.IsTextual := by
  cases fuel with
  | zero => cases h
  | succ fuel =>
    unfold pair at h
    obtain ⟨⟨k, rest⟩, -, h⟩ := bind_eq_ok_iff.mp h
    dsimp only at h
    split at h
    · obtain ⟨⟨v, rest⟩, hv, h⟩ := bind_eq_ok_iff.mp h
      cases h
      exact isTextual_of_value hv
    · cases h

end

/-! ### Documents -/

theorem isTextual_of_declaration {s r : Text} (hl : l.entries.IsTextual)
    (h : declaration l s = .ok (l', r)) : l'.entries.IsTextual := by
  unfold declaration at h
  split at h
  all_goals
    obtain ⟨⟨k, rest⟩, -, h⟩ := bind_eq_ok_iff.mp h
    obtain ⟨next, hnext, h⟩ := bind_eq_ok_iff.mp h
    split at h <;> cases h
  · exact Layout.isTextual_of_declareElement (l := l.settle) hl hnext
  · exact Layout.isTextual_of_declareTable (l := l.settle) hl hnext

theorem isTextual_of_statement {s r : Text} (hl : l.entries.IsTextual)
    (h : statement l s = .ok (l', r)) : l'.entries.IsTextual := by
  unfold statement at h
  split at h
  · cases h
    exact hl
  · exact isTextual_of_declaration hl h
  · split at h
    · cases h
      exact hl
    · split at h
      · obtain ⟨⟨k, v, rest⟩, hpair, h⟩ := bind_eq_ok_iff.mp h
        obtain ⟨next, hnext, h⟩ := bind_eq_ok_iff.mp h
        cases h
        exact Layout.isTextual_of_assign hl (isTextual_of_pair hpair) hnext
      · cases h

theorem isTextual_of_statements {fuel : Nat} {s : Text} (hl : l.entries.IsTextual)
    (h : statements fuel l s = .ok l') : l'.entries.IsTextual := by
  induction fuel generalizing l s with
  | zero =>
    cases h
    exact hl
  | succ fuel ih =>
    unfold statements at h
    obtain ⟨⟨next, rest⟩, hnext, h⟩ := bind_eq_ok_iff.mp h
    obtain ⟨s, -, h⟩ := bind_eq_ok_iff.mp h
    have hnext := isTextual_of_statement hl hnext
    split at h
    · cases h
      exact hnext
    · exact ih hnext h
    · cases h

/-- The keys of tables are texts. -/
theorem isTextual_of_read {s : Text} (h : read s = .ok es) : es.IsTextual := by
  unfold read at h
  dsimp only at h
  cases hl : statements ((withoutReturns s).length + 1) Layout.empty (withoutReturns s) with
  | error e =>
    rw [hl] at h
    cases h
  | ok l =>
    rw [hl] at h
    cases h
    exact isTextual_of_statements (by trivial) hl

end Toml

end Rulebook
