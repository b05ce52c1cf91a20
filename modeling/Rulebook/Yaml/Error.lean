import Rulebook.Fault

/-!
# Errors in YAML

What is wrong with a YAML text. A text can also be well formed and hold a value that does not
exist, such as a thirtieth of February; that is a fault, not a problem of the text.
-/

namespace Rulebook.Yaml

inductive Problem where
  | unprintable (c : Char)
  | noToken (c : Char)
  | missingColon
  | misplacedEntry
  | misplacedKey
  | misplacedValue
  | directive
  | anchor
  | tag
  | escape
  | blockHeader
  | openQuote
  | markInQuotes
  | unexpected (token : String)
  | severalDocuments
  | version
  | repeatedVersion
  | repeatedHandle (handle : String)
  | undefinedHandle (handle : String)
  | repeatedAnchor (name : String)
  | undefinedAlias (name : String)
  | undefinedTag (tag : String)
  | wrongKind (expected : String)
  | merge
  | unusableKey
  | base64
  deriving DecidableEq, Repr

inductive Error where
  | malformed (p : Problem)
  | fault (f : Fault)
  deriving DecidableEq

def Problem.message : Problem → String
  | .unprintable _ => "special characters are not allowed"
  | .noToken c => s!"character {Quoted.text (String.singleton c)} cannot start any token"
  | .missingColon => "could not find expected colon after a key"
  | .misplacedEntry => "sequence entries are not allowed here"
  | .misplacedKey => "mapping keys are not allowed here"
  | .misplacedValue => "mapping values are not allowed here"
  | .directive => "malformed directive"
  | .anchor => "malformed anchor or alias"
  | .tag => "malformed tag"
  | .escape => "unknown escape in a quoted scalar"
  | .blockHeader => "malformed header of a block scalar"
  | .openQuote => "unexpected end of stream in a quoted scalar"
  | .markInQuotes => "unexpected document separator in a quoted scalar"
  | .unexpected token => s!"unexpected {token}"
  | .severalDocuments => "expected a single document in the stream"
  | .version => "incompatible YAML document, version 1.* is required"
  | .repeatedVersion => "duplicate YAML directive"
  | .repeatedHandle handle => s!"duplicate tag handle {handle}"
  | .undefinedHandle handle => s!"undefined tag handle {handle}"
  | .repeatedAnchor name => s!"duplicate anchor {name}"
  | .undefinedAlias name => s!"undefined alias {name}"
  | .undefinedTag name => s!"could not determine a constructor for the tag {name}"
  | .wrongKind expected => s!"expected {expected}"
  | .merge => "expected a mapping or list of mappings for merging"
  | .unusableKey => "unhashable key"
  | .base64 => "failed to decode base64 data"

end Rulebook.Yaml
