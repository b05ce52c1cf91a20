import Rulebook.Number.Literal
import Rulebook.Number.Shortest
import Rulebook.Text.Quoted
import Rulebook.Value.Basic

/-!
# Display of values

`Value.shown` is the form in which messages quote a value, strings in quotes; `Value.text` is the
form in which a value stands in running text, strings as they are.
-/

namespace Rulebook

mutual

def Value.shown : Value → String
  | .null => "None"
  | .bool b => if b then "True" else "False"
  | .int n => toString n
  | .float x => Shortest.text x
  | .str s => Quoted.text s
  | .list items => "[" ++ ", ".intercalate (Value.shownList items) ++ "]"
  | .map entries => "\x7b" ++ ", ".intercalate (Value.shownEntries entries) ++ "\x7d"
  | .date d => d.shown
  | .moment m => m.shown
  | .clock c => c.shown
  | .bytes data => Quoted.bytes data
  | .set members =>
    if members.isEmpty then "set()"
    else "\x7b" ++ ", ".intercalate (Value.shownList members) ++ "\x7d"

def Value.shownList : List Value → List String
  | [] => []
  | v :: vs => v.shown :: Value.shownList vs

def Value.shownEntries : Entries → List String
  | [] => []
  | (k, v) :: es => (k.shown ++ ": " ++ v.shown) :: Value.shownEntries es

end

mutual

/-- Whether a value can be shown at all. An integer with too many digits cannot, nor can what holds
one. -/
def Value.isShowable : Value → Bool
  | .int n => Literal.isWritable n
  | .list items => Value.allShowable items
  | .map entries => Value.entriesShowable entries
  | .set members => Value.allShowable members
  | _ => true

def Value.allShowable : List Value → Bool
  | [] => true
  | v :: vs => v.isShowable && Value.allShowable vs

def Value.entriesShowable : Entries → Bool
  | [] => true
  | (k, v) :: es => k.isShowable && v.isShowable && Value.entriesShowable es

end

def Value.text : Value → String
  | .str s => s
  | .date d => d.text
  | .moment m => m.text " "
  | .clock c => c.text
  | v => v.shown

end Rulebook
