import Rulebook.Text.Search
import Rulebook.Xml.Reference

/-!
# Declarations

The declarations of a document type as sequences of marks, and the forms that they can have.

## Main definitions

* `marks`: the marks of a declaration up to its end.
* `entityForm?`, `attributeForms?`: what a declaration of entities or attributes says.
* `isNotation`, `isElement`: whether a declaration of the other kinds has an allowed form.
-/

namespace Rulebook.Xml

/-- A name or a similar word, a quoted literal, a word after a hash, or a character by itself. -/
inductive Mark where
  | word (s : Text)
  | literal (s : Text)
  | hash (s : Text)
  | symbol (c : Char)
  deriving DecidableEq, Repr

namespace Mark

/-- The mark begins a word of its own only where one of these stands after it. -/
def canFollow (others : Text) : Text → Bool
  | c :: _ => isSpace c || c == '>' || c == '%' || others.contains c
  | [] => false

def isWordChar (c : Char) : Bool := isNameChar c || c == ':'

def isRepetition (c : Char) : Bool := c == '?' || c == '*' || c == '+'

def isName (s : Text) : Bool :=
  match plainName? s with
  | some (_, rest) => rest.isEmpty
  | none => false

/-- A name that may have a prefix. What stands after the colon needs no letter in front. -/
def isQualified (s : Text) : Bool :=
  match plainName? s with
  | some (_, []) => true
  | some (_, ':' :: base) => !base.isEmpty && base.all isNameChar
  | _ => false

/-- The mark at the start of `s`, with the repetition that may cling to it, and what follows. -/
def read? (s : Text) : Option (List Mark × Text) :=
  match s with
  | [] => none
  | '#' :: s => match plainName? s with
    | some (name, rest) =>
      if canFollow [')', '|'] rest then some ([.hash name], rest) else none
    | none => none
  | ')' :: c :: rest =>
    if isRepetition c then some ([.symbol ')', .symbol c], rest)
    else if canFollow [',', '|', ')'] (c :: rest) then some ([.symbol ')'], c :: rest)
    else none
  | c :: rest =>
    if c == '"' || c == '\'' then
      match Search.split? [c] rest with
      | some (text, rest) => if canFollow ['['] rest then some ([.literal text], rest) else none
      | none => none
    else if c == '(' || c == '|' || c == ',' || c == '[' then some ([.symbol c], rest)
    else if c == '%' then
      if rest.head?.any isSpace then some ([.symbol c], rest) else none
    else
      let word := s.takeWhile isWordChar
      let rest := s.dropWhile isWordChar
      match rest with
      | d :: more =>
        if word.isEmpty then none
        else if isRepetition d && isQualified word then some ([.word word, .symbol d], more)
        else if canFollow [')', ',', '|', '['] rest then some ([.word word], rest)
        else none
      | [] => none

end Mark

/-- The marks up to `>` or, where `[` also ends them, up to that; what follows the end comes with
whether it was `[`. -/
def marks (bracket : Bool) : Nat → List Mark → Text → Except Problem (List Mark × Bool × Text)
  | 0, _, _ => .error .declaration
  | fuel + 1, done, s =>
    match skipSpace s with
    | '>' :: rest => .ok (done.reverse, false, rest)
    | s => match Mark.read? s with
      | none => .error .declaration
      | some ([.symbol '['], rest) =>
        if bracket then .ok (done.reverse, true, rest) else .error .declaration
      | some (found, rest) => marks bracket fuel (found.reverse ++ done) rest

/-! ### Identifiers of things outside -/

def isPublicChar (c : Char) : Bool :=
  Word.isLetterOrDigit c || " \n\r-'()+,./:=?;!*#@$_%".toList.contains c

/-- A name of something outside the document, and what follows it. -/
def external? : List Mark → Option (List Mark)
  | .word key :: .literal id :: rest =>
    if key = "SYSTEM".toList then some rest
    else if key = "PUBLIC".toList && id.all isPublicChar then match rest with
      | .literal _ :: rest => some rest
      | _ => none
    else none
  | _ => none

/-- Documents, in which the root is named and a part outside can be. -/
def doctypeForm? : List Mark → Option Bool
  | [.word root] => if Mark.isQualified root then some false else none
  | .word root :: more =>
    if Mark.isQualified root && external? more = some [] then some true else none
  | _ => none

/-! ### Entities and notations -/

structure EntityForm where
  name : Text
  /-- The entity is for use in declarations. -/
  parameter : Bool
  /-- The text, for an entity whose text is given. -/
  literal : Option Text

def entityForm? : List Mark → Option EntityForm
  | .symbol '%' :: .word name :: more =>
    if !Mark.isName name then none
    else match more with
      | [.literal text] => some ⟨name, true, some text⟩
      | more => if external? more = some [] then some ⟨name, true, none⟩ else none
  | .word name :: more =>
    if !Mark.isName name then none
    else match more with
      | [.literal text] => some ⟨name, false, some text⟩
      | more => match external? more with
        | some [] => some ⟨name, false, none⟩
        | some [.word key, .word notationName] =>
          if key = "NDATA".toList && Mark.isName notationName then some ⟨name, false, none⟩
          else none
        | _ => none
  | _ => none

def isNotation : List Mark → Bool
  | [.word name, .word key, .literal id] =>
    Mark.isName name &&
      (key = "SYSTEM".toList || key = "PUBLIC".toList && id.all isPublicChar)
  | .word name :: more => Mark.isName name && external? more = some []
  | _ => false

/-! ### Elements -/

/-- Alternatives of a mixed content after its first part. -/
def isMixed (named : Bool) : List Mark → Bool
  | [.symbol ')'] => !named
  | [.symbol ')', .symbol '*'] => true
  | .symbol '|' :: .word name :: more => Mark.isQualified name && isMixed true more
  | _ => false

/-- The rest of a content model. Each open group has the connective that it uses, once there is
one; `item` says that a name or a group comes next. -/
def isModel : List (Option Char) → Bool → List Mark → Bool
  | [], _, rest => rest.isEmpty
  | _ :: _, _, [] => false
  | groups, true, .symbol '(' :: rest => isModel (none :: groups) true rest
  | groups, true, .word name :: .symbol c :: rest =>
    Mark.isQualified name &&
      (if Mark.isRepetition c then isModel groups false rest
       else isModel groups false (.symbol c :: rest))
  | _ :: groups, false, .symbol ')' :: .symbol c :: rest =>
    if Mark.isRepetition c then isModel groups false rest
    else isModel groups false (.symbol c :: rest)
  | _ :: groups, false, .symbol ')' :: rest => isModel groups false rest
  | group :: groups, false, .symbol c :: rest =>
    (c == ',' || c == '|') && (group.isNone || group == some c) &&
      isModel (some c :: groups) true rest
  | _, _, _ => false
termination_by _ _ marks => marks.length

def isElement : List Mark → Bool
  | [.word name, .word key] =>
    Mark.isQualified name && (key = "EMPTY".toList || key = "ANY".toList)
  | .word name :: .symbol '(' :: .hash key :: more =>
    Mark.isQualified name && key = "PCDATA".toList && isMixed false more
  | .word name :: .symbol '(' :: more => Mark.isQualified name && isModel [none] true more
  | _ => false

/-! ### Attributes -/

def attributeTypes : List Text :=
  ["CDATA".toList, "ID".toList, "IDREF".toList, "IDREFS".toList, "ENTITY".toList,
    "ENTITIES".toList, "NMTOKEN".toList, "NMTOKENS".toList]

/-- What follows the values between parentheses, after the opening one. -/
def afterChoices? (isChoice : Text → Bool) : List Mark → Option (List Mark)
  | .word w :: .symbol '|' :: rest => if isChoice w then afterChoices? isChoice rest else none
  | .word w :: .symbol ')' :: rest => if isChoice w then some rest else none
  | _ => none

/-- What follows the type of an attribute. -/
def afterType? : List Mark → Option (List Mark)
  | .symbol '(' :: rest => afterChoices? (fun _ => true) rest
  | .word key :: rest =>
    if attributeTypes.contains key then some rest
    else if key = "NOTATION".toList then match rest with
      | .symbol '(' :: rest => afterChoices? Mark.isName rest
      | _ => none
    else none
  | _ => none

/-- The value that an attribute has where it is not given, and what follows. -/
def default? : List Mark → Option (Option Text × List Mark)
  | .literal value :: rest => some (some value, rest)
  | .hash key :: rest =>
    if key = "IMPLIED".toList || key = "REQUIRED".toList then some (none, rest)
    else if key = "FIXED".toList then match rest with
      | .literal value :: rest => some (some value, rest)
      | _ => none
    else none
  | _ => none

/-- The attributes of a declaration after its element, with their defaults. -/
def attributeForms? : Nat → List Mark → Option (List (Text × Text))
  | _, [] => some []
  | 0, _ => none
  | fuel + 1, marks =>
    match marks with
    | .word name :: rest =>
      if !Mark.isQualified name then none
      else do
        let rest ← afterType? rest
        let (value, rest) ← default? rest
        let more ← attributeForms? fuel rest
        some ((value.map fun v => (name, v)).toList ++ more)
    | _ => none

end Rulebook.Xml
