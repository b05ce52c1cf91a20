import Rulebook.Toml.Error
import Rulebook.Value.Basic

/-!
# Tables

The tables of a document are opened one after another, and filled by keys that may lead into
further tables. A key is set once, a table is declared once, and what is written inline is closed.

## Main definitions

* `Layout.declareTable`, `Layout.declareElement`, `Layout.assign`: the three kinds of statement.
-/

namespace Rulebook.Toml

/-- A dotted key as the list of its parts. -/
abbrev Key := List String

/-- Changes the table that `key` leads to, making the tables on the way. Through an array of
tables the way leads into its last element, if `arrays` allows it. -/
def inTable (arrays : Bool) (es : Entries) (change : Entries → Option Entries) :
    Key → Option Entries
  | [] => change es
  | part :: key =>
    match es.field? part with
    | none => do some (es.insert (.str part) (.map (← inTable arrays [] change key)))
    | some (.map inner) => do
      some (es.insert (.str part) (.map (← inTable arrays inner change key)))
    | some (.list items) =>
      match arrays, items.getLast? with
      | true, some (.map inner) => do
        let changed ← inTable arrays inner change key
        some (es.insert (.str part) (.list (items.dropLast ++ [.map changed])))
      | _, _ => none
    | some _ => none

/-- Sets a part that is not set yet. -/
def setNew (part : String) (value : Value) (es : Entries) : Option Entries :=
  if es.contains (.str part) then none else some (es.insert (.str part) value)

/-- Adds an empty table to the array of tables `part`. -/
def addElement (part : String) (es : Entries) : Option Entries :=
  match es.field? part with
  | none => some (es.insert (.str part) (.list [.map []]))
  | some (.list items) => some (es.insert (.str part) (.list (items ++ [.map []])))
  | some _ => none

/-- Whether one of the closed keys leads to `key`. -/
def isClosed (closed : List Key) (key : Key) : Bool := closed.any (·.isPrefixOf key)

def isContainer : Value → Bool
  | .map _ | .list _ => true
  | _ => false

/-- A document as far as it has been read. -/
structure Layout where
  entries : Entries
  /-- The keys of tables that are declared, and so cannot be declared again. -/
  declared : List Key
  /-- The keys of tables made by dotted keys in the open table; they count as declared from the
  next declaration on. -/
  pending : List Key
  /-- The keys of values written inline, to which nothing can be added. -/
  closed : List Key
  /-- The key of the table that is open. -/
  header : Key

namespace Layout

def empty : Layout := ⟨[], [], [], [], []⟩

def overwritten (key : Key) : Error := .malformed (.overwritten key)

/-- From here on the tables made by dotted keys count as declared. -/
def settle (l : Layout) : Layout := { l with declared := l.pending ++ l.declared, pending := [] }

/-- Opens the table `key`. -/
def declareTable (l : Layout) (key : Key) : Except Error Layout :=
  if l.declared.contains key || isClosed l.closed key then malformed (.repeated key)
  else match inTable true l.entries some key with
    | none => .error (overwritten key)
    | some entries => .ok { l with entries, declared := key :: l.declared, header := key }

/-- Opens a new element of the array of tables `key`, in which everything can be declared anew. -/
def declareElement (l : Layout) (key : Key) : Except Error Layout :=
  if isClosed l.closed key then malformed (.repeated key)
  else match inTable true l.entries (addElement (key.getLast?.getD "")) key.dropLast with
    | none => .error (overwritten key)
    | some entries =>
      let open_ (k : Key) : Bool := !key.isPrefixOf k
      .ok { l with
        entries
        declared := key :: l.declared.filter open_
        closed := l.closed.filter open_
        header := key }

/-- The keys of the tables that a dotted key leads through. -/
def passed (header key : Key) : List Key :=
  (List.range (key.length - 1)).map fun i => header ++ key.take (i + 1)

/-- Sets `key` in the open table. -/
def assign (l : Layout) (key : Key) (value : Value) : Except Error Layout :=
  let through := passed l.header key
  let table := l.header ++ key.dropLast
  match through.find? l.declared.contains with
  | some k => malformed (.repeated k)
  | none =>
    if isClosed l.closed table then malformed (.repeated table)
    else match inTable true l.entries (setNew (key.getLast?.getD "") value) table with
      | none => .error (overwritten (l.header ++ key))
      | some entries => .ok { l with
          entries
          pending := through ++ l.pending
          closed := if isContainer value then (l.header ++ key) :: l.closed else l.closed }

end Layout

/-- An inline table as far as it has been read. -/
structure Inline where
  entries : Entries
  closed : List Key

/-- Sets `key` in an inline table. -/
def Inline.assign (t : Inline) (key : Key) (value : Value) : Except Error Inline :=
  if isClosed t.closed key then malformed (.repeated key)
  else match inTable false t.entries (setNew (key.getLast?.getD "") value) key.dropLast with
    | none => .error (.malformed (.overwritten key))
    | some entries => .ok ⟨entries, if isContainer value then key :: t.closed else t.closed⟩

end Rulebook.Toml
