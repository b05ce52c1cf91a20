import Rulebook.Condition.Error
import Rulebook.Text.Word

/-!
# Reading conditions

An expression is split at the connectives outside quotes, and each piece is read as a term:

    term       := ["!"] identifier [("==" | "!=") value]
    identifier := namespace ":" (bare name | '"' name '"')
    value      := bare word | '"' text '"' | "'" text "'"

Every reader returns what it leaves unread, so the offset of an error is what has been read.
-/

namespace Rulebook

open Condition

/-- A fault in `text` at the point where `rest` is left to read. -/
def faultAt (cause : Cause) (text rest : Text) : Condition.Error :=
  ⟨cause, String.ofList text, some (text.length - rest.length)⟩

/-- The inner text of a literal after its opening quote, and what follows its closing quote. -/
def quotedRest? (quote : Char) (s : Text) : Option (Text × Text) :=
  match s.dropWhile (· ≠ quote) with
  | [] => none
  | _ :: rest => some (s.takeWhile (· ≠ quote), rest)

/-- The comparison at the start of `s`, and what follows it. -/
def comparison? : Text → Option (Comparison × Text)
  | '=' :: '=' :: s => some (.equal, s)
  | '!' :: '=' :: s => some (.different, s)
  | _ => none

/-- A bare name ends at a blank or a comparison. -/
def bareName : Text → Text × Text
  | [] => ([], [])
  | c :: s =>
    if Blank.isBlank c || (comparison? (c :: s)).isSome then ([], c :: s)
    else
      let (name, rest) := bareName s
      (c :: name, rest)

/-- The letters before a colon at the start of `s`, and what follows the colon. -/
def namespaceWord? (s : Text) : Option (Text × Text) :=
  let word := s.takeWhile Word.isLetter
  match s.dropWhile Word.isLetter with
  | ':' :: rest => if word.isEmpty then none else some (word, rest)
  | _ => none

namespace Identifier

/-- Reads the name after the colon of `space`. -/
def scanName (space : Namespace) (text : Text) (s : Text) :
    Except Condition.Error (Identifier × Text) :=
  let named (found : Text × Text) : Except Condition.Error (Identifier × Text) :=
    if found.1.isEmpty then .error (faultAt (.missingName space) text found.2)
    else .ok (⟨space, String.ofList found.1⟩, found.2)
  match s with
  | '"' :: r => match quotedRest? '"' r with
    | some found => named found
    | none => .error (faultAt .unterminatedQuote text s)
  | s => named (bareName s)

/-- Reads an identifier from the part `s` of `text`. -/
def scan (text s : Text) : Except Condition.Error (Identifier × Text) :=
  let word := String.ofList (Blank.firstWord s)
  match namespaceWord? s with
  | none => .error ⟨.malformedIdentifier, word, some (text.length - s.length)⟩
  | some (letters, rest) =>
    match Namespace.known? (String.ofList (letters.map LowerCase.asciiChar)) with
    | none =>
      .error ⟨.unknownNamespace (String.ofList letters), word, some (text.length - s.length)⟩
    | some space => scanName space text rest

def parse (token : Text) : Except Condition.Error Identifier := do
  let text := Blank.trim token
  let (identifier, rest) ← scan text text
  if rest.isEmpty then .ok identifier
  else .error (faultAt (.afterIdentifier (String.ofList rest)) text rest)

end Identifier

namespace Term

/-- Reads the value that a comparison asks for. -/
def scanValue (text s : Text) : Except Condition.Error (Text × Text) :=
  match s with
  | [] => .error (faultAt .missingValue text s)
  | c :: r =>
    if c = '"' || c = '\'' then
      match quotedRest? c r with
      | some found => .ok found
      | none => .error (faultAt .unterminatedQuote text s)
    else .ok (s.takeWhile (!Blank.isBlank ·), s.dropWhile (!Blank.isBlank ·))

/-- Reads what follows the identifier of a term. -/
def scanTest (text : Text) (identifier : Identifier) (s : Text) :
    Except Condition.Error (Option (Comparison × String)) :=
  match s with
  | [] => .ok none
  | _ =>
    match comparison? s with
    | none => .error (faultAt (.noComparison (String.ofList s)) text s)
    | some (comparison, rest) =>
      if !identifier.space.hasValues then .error (faultAt (.noValues identifier.space) text s)
      else do
        let (value, rest) ← scanValue text (Blank.trimStart rest)
        if Blank.isAllBlank rest then .ok (some (comparison, String.ofList value))
        else .error (faultAt (.afterValue (String.ofList (Blank.trim rest))) text rest)

def parse (term : Text) : Except Condition.Error Term :=
  let text := Blank.trim term
  let body (negated : Bool) (s : Text) : Except Condition.Error Term := do
    let (identifier, rest) ← Identifier.scan text s
    let test ← scanTest text identifier (Blank.trimStart rest)
    .ok ⟨identifier, negated, test⟩
  match text with
  | [] => .error ⟨.emptyTerm, String.ofList term, none⟩
  | '!' :: s =>
    let s := Blank.trimStart s
    if s.isEmpty then .error (faultAt .missingIdentifier text s) else body true s
  | s => body false s

end Term

namespace Expression

def addChar (c : Char) : Text × List (Connective × Text) → Text × List (Connective × Text)
  | (piece, more) => (c :: piece, more)

def addConnective (c : Connective) :
    Text × List (Connective × Text) → Text × List (Connective × Text)
  | (piece, more) => ([], (c, piece) :: more)

/-- The pieces between connectives, where `quote` is the quote that is open. -/
def splitFrom : Option Char → Text → Text × List (Connective × Text)
  | _, [] => ([], [])
  | some quote, c :: s => addChar c (splitFrom (if c = quote then none else some quote) s)
  | none, '&' :: '&' :: s => addConnective .and (splitFrom none s)
  | none, '|' :: '|' :: s => addConnective .or (splitFrom none s)
  | none, c :: s => addChar c (splitFrom (if c = '"' || c = '\'' then some c else none) s)

/-- The pieces between the connectives outside quotes. -/
def split (s : Text) : Text × List (Connective × Text) := splitFrom none s

def missing (place : Place) (whole : Text) (offset : Nat) : Condition.Error :=
  ⟨.missingOperand place, String.ofList whole, some offset⟩

/-- Reads the pieces after the first; `offset` is where the next one starts in `whole`. -/
def parseRest (whole : Text) (offset : Nat) :
    List (Connective × Text) → Except Condition.Error (List (Connective × Term))
  | [] => .ok []
  | (c, piece) :: more =>
    if Blank.isAllBlank piece then
      .error (missing (if more.isEmpty then .last else .between) whole offset)
    else do
      let term ← Term.parse piece
      let terms ← parseRest whole (offset + piece.length + 2) more
      .ok ((c, term) :: terms)

def parse (s : Text) : Except Condition.Error Expression :=
  if Blank.isAllBlank s then .error ⟨.emptyExpression, String.ofList s, none⟩
  else
    match split s with
    | (first, []) => do .ok ⟨← Term.parse first, []⟩
    | (first, (c, piece) :: more) =>
      if Blank.isAllBlank first then .error (missing (.before c) s 0)
      else do
        let term ← Term.parse first
        let rest ← parseRest s (first.length + 2) ((c, piece) :: more)
        .ok ⟨term, rest⟩

end Expression

end Rulebook
