import Rulebook.Number.Literal

/-!
# Errors in TOML
-/

namespace Rulebook.Toml

inductive Problem where
  | statement
  | afterStatement
  | key
  | equals
  | value
  | control (c : Char)
  | openString
  | escape
  | array
  | inlineTable
  | header
  | repeated (key : List String)
  | overwritten (key : List String)
  | calendar
  deriving DecidableEq, Repr

/-- A document is malformed, or holds a numeral that is too long to be read. -/
inductive Error where
  | malformed (p : Problem)
  | numeral (e : Literal.Error)
  deriving DecidableEq, Repr

def Problem.message : Problem → String
  | .statement => "invalid statement"
  | .afterStatement => "expected newline or end of document after a statement"
  | .key => "invalid initial character for a key part"
  | .equals => "expected an equals sign after a key"
  | .value => "invalid value"
  | .control c => s!"illegal character {Quoted.text (String.singleton c)}"
  | .openString => "unterminated string"
  | .escape => "invalid escape in a string"
  | .array => "unclosed array"
  | .inlineTable => "unclosed inline table"
  | .header => "expected brackets at the end of a table declaration"
  | .repeated parts => "cannot declare twice " ++ ".".intercalate parts
  | .overwritten parts => "cannot overwrite a value " ++ ".".intercalate parts
  | .calendar => "invalid date or datetime"

def malformed (p : Problem) : Except Error α := .error (.malformed p)

end Rulebook.Toml
