import Rulebook.Fault

/-!
# Selections of targets

A configuration selects targets by a list of names. Each target counts once, where it is first
named, and a missing selection selects all.
-/

namespace Rulebook.Target

/-- The target that a value names. -/
def ofValue? : Value → Option Target
  | .str s => ofName? s
  | _ => none

/-- A message that quotes `v` cannot be written where `v` holds an integer with too many digits. -/
def quoting (e : Value → BadValue) (v : Value) : BadValue :=
  if v.isShowable then e v else .literal .unwritable

/-- The one target to render for. -/
def ofValue (v : Value) : Except BadValue Target :=
  match ofValue? v with
  | some t => .ok t
  | none => .error (quoting .notATarget v)

/-- Reads the names `values` in order, after the targets `found` so far. -/
def selectFrom (found : List Target) : List Value → Except BadValue (List Target)
  | [] => .ok found
  | v :: vs =>
    match ofValue? v with
    | none => .error (quoting .unknownTarget v)
    | some t => selectFrom (if t ∈ found then found else found ++ [t]) vs

/-- The targets that a configured value selects. -/
def selection : Value → Except BadValue (List Target)
  | .null => .ok all
  | .list values => selectFrom [] values
  | v => .error (.targetsNotAList v.kindName)

theorem nodup_selectFrom {found chosen : List Target} {vs : List Value} (hf : found.Nodup)
    (h : selectFrom found vs = .ok chosen) : chosen.Nodup := by
  induction vs generalizing found with
  | nil => cases h; exact hf
  | cons v vs ih =>
    unfold selectFrom at h
    split at h
    · cases h
    · refine ih ?_ h
      split
      · exact hf
      · rename_i ht
        grind

end Rulebook.Target
