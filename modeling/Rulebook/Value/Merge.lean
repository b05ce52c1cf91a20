import Rulebook.Value.Access

/-!
# Merging

An overlay changes a mapping key by key: mappings merge in depth, a list replaces a list or, when
it starts with the marker `+`, extends it, and everything else takes the value of the overlay.

## Main definitions

* `Value.merge`, `Value.mergeEntries`: the merge of two values and of two mappings.
* `Value.overlay`: the same for data that has to be a mapping first.
-/

namespace Rulebook

/-- The list that an overlay list makes of a list below it. An empty overlay changes nothing, and
`=` asks for the replacement that is made anyway. -/
def mergeLists {α : Type} (valueOf : α → Value) (base override : List α) : List α :=
  match override with
  | [] => base
  | first :: rest =>
    if valueOf first = .str "+" then base ++ rest
    else if valueOf first = .str "=" then rest
    else override

mutual

/-- What an overlay value makes of the value below it. -/
def Value.merge (base override : Value) : Value :=
  match override with
  | .map above => match base with
    | .map es => .map (Value.mergeEntries es above)
    | _ => .map above
  | .list above => match base with
    | .list items => .list (mergeLists id items above)
    | _ => .list above
  | v => v

/-- Applies the entries of an overlay one by one. -/
def Value.mergeEntries (base : Entries) : Entries → Entries
  | [] => base
  | (k, v) :: above =>
    let merged := match base.find? k with
      | some below => Value.merge below v
      | none => v
    Value.mergeEntries (base.insert k merged) above

end

/-- A mapping with an overlay applied; one that counts as not given changes nothing. -/
def Value.overlay (base override : Value) : Except Fault Entries := do
  let es ← base.toEntries
  match override.orEmpty with
  | .map above => .ok (Value.mergeEntries es above)
  | _ => .error (.shape .attribute)

end Rulebook
