import Rulebook.Value.Merge

/-!
# Shared mappings

Data that is read can hold one mapping at several places, so that a change at one place is a change
at all. A mapping that can be shared carries a mark, and mappings with the same mark are one.

## Main definitions

* `Linked`, `Links`: values with marks, and the entries of such a mapping.
* `Linked.bare`, `Links.bare`: the same without marks.
* `Links.merge`: the merge of two mappings, with all that they share.
* `Links.rewrite`: gives new entries to the mapping with a mark, wherever it stands.
-/

namespace Rulebook

inductive Linked where
  /-- A value that shares nothing. -/
  | plain (v : Value)
  | list (items : List Linked)
  | map (mark : Option Nat) (entries : List (Value × Linked))

abbrev Links := List (Value × Linked)

/-! ### Without marks -/

mutual

def Linked.bare : Linked → Value
  | .plain v => v
  | .list items => .list (Linked.bareItems items)
  | .map _ es => .map (Links.bare es)

def Linked.bareItems : List Linked → List Value
  | [] => []
  | l :: ls => l.bare :: Linked.bareItems ls

def Links.bare : Links → Entries
  | [] => []
  | (k, l) :: es => (k, l.bare) :: Links.bare es

end

/-! ### Entries -/

namespace Links

/-- Entries that share nothing. -/
def ofEntries (es : Entries) : Links := es.map fun (k, v) => (k, .plain v)

def find? : Links → Value → Option Linked
  | [], _ => none
  | (k, l) :: es, key => if k.sameKey key then some l else find? es key

/-- Replaces what stands under `key`, or adds an entry at the end. -/
def insert : Links → Value → Linked → Links
  | [], key, l => [(key, l)]
  | (k, m) :: es, key, l =>
    if k.sameKey key then (k, l) :: es else (k, m) :: insert es key l

def ofList (pairs : List (Value × Linked)) : Links :=
  pairs.foldl (fun es (k, l) => insert es k l) []

end Links

namespace Linked

/-- The mark and the entries of a mapping. -/
def entries? : Linked → Option (Option Nat × Links)
  | .plain (.map es) => some (none, Links.ofEntries es)
  | .map mark es => some (mark, es)
  | _ => none

/-- The items of a list. -/
def items? : Linked → Option (List Linked)
  | .plain (.list items) => some (items.map .plain)
  | .list items => some items
  | _ => none

end Linked

/-! ### Merging -/

mutual

/-- What an overlay makes of the data below it. Merged mappings are new. -/
def Linked.merge (base override : Linked) : Linked :=
  match override with
  | .map mark above => match base.entries? with
    | some (_, es) => .map none (Links.merge es above)
    | none => .map mark above
  | .list above => match base.items? with
    | some items => .list (mergeLists Linked.bare items above)
    | none => .list above
  | .plain v => .plain (base.bare.merge v)

/-- Applies the entries of an overlay one by one. -/
def Links.merge (base : Links) : Links → Links
  | [] => base
  | (k, l) :: above =>
    let merged := match Links.find? base k with
      | some below => Linked.merge below l
      | none => l
    Links.merge (Links.insert base k merged) above

end

/-! ### Changing a shared mapping -/

mutual

/-- Gives the mapping with the mark `m` the entries `new`, wherever it stands. -/
def Linked.rewrite (m : Nat) (new : Links) : Linked → Linked
  | .plain v => .plain v
  | .list items => .list (Linked.rewriteItems m new items)
  | .map mark es => .map mark (if mark = some m then new else Links.rewrite m new es)

def Linked.rewriteItems (m : Nat) (new : Links) : List Linked → List Linked
  | [] => []
  | l :: ls => l.rewrite m new :: Linked.rewriteItems m new ls

def Links.rewrite (m : Nat) (new : Links) : Links → Links
  | [] => []
  | (k, l) :: es => (k, l.rewrite m new) :: Links.rewrite m new es

end

end Rulebook
