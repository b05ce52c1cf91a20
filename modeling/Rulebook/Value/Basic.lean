import Rulebook.Number.Binary64
import Rulebook.Value.Calendar

/-!
# Values

The data of configuration, frontmatter and manifests. A mapping keeps its entries in the order in
which their keys came first, and holds one entry per key.

## Main definitions

* `Value`, with decidable equality.
* `Value.sameKey`: when two keys name one entry.
* `Entries`: the entries of a mapping, with lookup, insertion and removal.
-/

namespace Rulebook

inductive Value where
  | null
  | bool (b : Bool)
  | int (n : Int)
  | float (x : Binary64)
  | str (s : String)
  | list (items : List Value)
  | map (entries : List (Value × Value))
  | date (d : Date)
  | moment (m : Moment)
  | clock (c : Clock)
  | bytes (data : List UInt8)
  | set (members : List Value)
  deriving Repr, Inhabited

/-- The entries of a mapping. -/
abbrev Entries := List (Value × Value)

/-! ### Equality -/

mutual

def Value.beq : Value → Value → Bool
  | .null, .null => true
  | .bool a, .bool b => a == b
  | .int a, .int b => a == b
  | .float a, .float b => decide (a = b)
  | .str a, .str b => a == b
  | .list a, .list b => Value.beqList a b
  | .map a, .map b => Value.beqEntries a b
  | .date a, .date b => decide (a = b)
  | .moment a, .moment b => decide (a = b)
  | .clock a, .clock b => decide (a = b)
  | .bytes a, .bytes b => a == b
  | .set a, .set b => Value.beqList a b
  | _, _ => false

def Value.beqList : List Value → List Value → Bool
  | [], [] => true
  | a :: as, b :: bs => a.beq b && Value.beqList as bs
  | _, _ => false

def Value.beqEntries : Entries → Entries → Bool
  | [], [] => true
  | (k, v) :: as, (l, w) :: bs => k.beq l && v.beq w && Value.beqEntries as bs
  | _, _ => false

end

mutual

theorem Value.eq_of_beq : ∀ {a b : Value}, a.beq b = true → a = b
  | .null, b, h => by cases b <;> simp_all [Value.beq]
  | .bool _, b, h => by cases b <;> simp_all [Value.beq]
  | .int _, b, h => by cases b <;> simp_all [Value.beq]
  | .float _, b, h => by cases b <;> simp_all [Value.beq]
  | .str _, b, h => by cases b <;> simp_all [Value.beq]
  | .list a, b, h => by
    cases b with
    | list b => exact congrArg Value.list (Value.eq_of_beqList (by simpa [Value.beq] using h))
    | _ => simp [Value.beq] at h
  | .map a, b, h => by
    cases b with
    | map b => exact congrArg Value.map (Value.eq_of_beqEntries (by simpa [Value.beq] using h))
    | _ => simp [Value.beq] at h
  | .date _, b, h => by cases b <;> simp_all [Value.beq]
  | .moment _, b, h => by cases b <;> simp_all [Value.beq]
  | .clock _, b, h => by cases b <;> simp_all [Value.beq]
  | .bytes _, b, h => by cases b <;> simp_all [Value.beq]
  | .set a, b, h => by
    cases b with
    | set b => exact congrArg Value.set (Value.eq_of_beqList (by simpa [Value.beq] using h))
    | _ => simp [Value.beq] at h

theorem Value.eq_of_beqList : ∀ {a b : List Value}, Value.beqList a b = true → a = b
  | [], b, h => by cases b <;> simp_all [Value.beqList]
  | a :: as, b, h => by
    cases b with
    | nil => simp [Value.beqList] at h
    | cons b bs =>
      simp only [Value.beqList, Bool.and_eq_true] at h
      rw [Value.eq_of_beq h.1, Value.eq_of_beqList h.2]

theorem Value.eq_of_beqEntries : ∀ {a b : Entries}, Value.beqEntries a b = true → a = b
  | [], b, h => by cases b <;> simp_all [Value.beqEntries]
  | (k, v) :: as, b, h => by
    cases b with
    | nil => simp [Value.beqEntries] at h
    | cons e bs =>
      obtain ⟨l, w⟩ := e
      simp only [Value.beqEntries, Bool.and_eq_true] at h
      rw [Value.eq_of_beq h.1.1, Value.eq_of_beq h.1.2, Value.eq_of_beqEntries h.2]

end

mutual

theorem Value.beq_self : ∀ a : Value, a.beq a = true
  | .null | .bool _ | .int _ | .float _ | .str _ | .date _ | .moment _ | .clock _ | .bytes _ => by
    simp [Value.beq]
  | .list a => by simpa [Value.beq] using Value.beqList_self a
  | .map a => by simpa [Value.beq] using Value.beqEntries_self a
  | .set a => by simpa [Value.beq] using Value.beqList_self a

theorem Value.beqList_self : ∀ a : List Value, Value.beqList a a = true
  | [] => by simp [Value.beqList]
  | a :: as => by simp [Value.beqList, Value.beq_self a, Value.beqList_self as]

theorem Value.beqEntries_self : ∀ a : Entries, Value.beqEntries a a = true
  | [] => by simp [Value.beqEntries]
  | (k, v) :: as => by
    simp [Value.beqEntries, Value.beq_self k, Value.beq_self v, Value.beqEntries_self as]

end

instance : DecidableEq Value := fun a b =>
  if h : a.beq b = true then .isTrue (Value.eq_of_beq h)
  else .isFalse fun e => h (e ▸ Value.beq_self a)

/-! ### Keys -/

/-- Numbers of equal value share one form, in which `true` counts as one. -/
def Value.keyForm : Value → Value
  | .bool b => .int b.toNat
  | .float x => match x.toInt? with
    | some n => .int n
    | none => .float x
  | v => v

/-- Two keys name the same entry. -/
def Value.sameKey (a b : Value) : Bool := decide (a.keyForm = b.keyForm)

@[simp] theorem Value.sameKey_iff {a b : Value} : a.sameKey b = true ↔ a.keyForm = b.keyForm := by
  simp [Value.sameKey]

@[simp] theorem Value.sameKey_str {s t : String} :
    (Value.str s).sameKey (.str t) = true ↔ s = t := by
  simp [Value.keyForm]

/-! ### Entries -/

namespace Entries

def find? : Entries → Value → Option Value
  | [], _ => none
  | (k, v) :: es, key => if k.sameKey key then some v else find? es key

def contains (es : Entries) (key : Value) : Bool := (es.find? key).isSome

/-- Replaces the value of `key` where it stands, or adds an entry at the end. -/
def insert : Entries → Value → Value → Entries
  | [], key, value => [(key, value)]
  | (k, v) :: es, key, value =>
    if k.sameKey key then (k, value) :: es else (k, v) :: insert es key value

def ofList (pairs : List (Value × Value)) : Entries :=
  pairs.foldl (fun es (k, v) => es.insert k v) []

def keys (es : Entries) : List Value := es.map (·.1)

/-- The value under the text key `name`. -/
def field? (es : Entries) (name : String) : Option Value := es.find? (.str name)

theorem find?_insert (es : Entries) (key key' value : Value) :
    (es.insert key value).find? key' =
      if key.sameKey key' then some value else es.find? key' := by
  induction es with
  | nil => simp [insert, find?]
  | cons e es ih =>
    obtain ⟨k, v⟩ := e
    by_cases hk : k.keyForm = key.keyForm
    · simp only [insert, Value.sameKey_iff, hk, ↓reduceIte, find?]
      split <;> simp_all
    · simp only [insert, Value.sameKey_iff, hk, ↓reduceIte, find?, ih]
      by_cases hk' : key.keyForm = key'.keyForm
      · simp [← hk', hk]
      · simp [hk']

end Entries

namespace Value

/-- The value under a text key, for a mapping. -/
def field? : Value → String → Option Value
  | .map es, name => Entries.field? es name
  | _, _ => none

/-- False, zero, nothing and what is empty do not count as given. -/
def isGiven : Value → Bool
  | .null => false
  | .bool b => b
  | .int n => n ≠ 0
  | .float x => !x.isZero
  | .str s => s ≠ ""
  | .list items => !items.isEmpty
  | .map entries => !entries.isEmpty
  | .bytes data => !data.isEmpty
  | .set members => !members.isEmpty
  | .date _ | .moment _ | .clock _ => true

/-- The word for the kind of a value in messages. -/
def kindName : Value → String
  | .null => "NoneType"
  | .bool _ => "bool"
  | .int _ => "int"
  | .float _ => "float"
  | .str _ => "str"
  | .list _ => "list"
  | .map _ => "dict"
  | .date _ => "date"
  | .moment _ => "datetime"
  | .clock _ => "time"
  | .bytes _ => "bytes"
  | .set _ => "set"

end Value

end Rulebook
