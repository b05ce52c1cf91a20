import Rulebook.Text.Blank
import Rulebook.Text.Quoted

/-!
# Elements

A document as a tree of elements, and what can be wrong with a text that should be one. Of the text
in an element only what stands before its first child is kept.
-/

namespace Rulebook.Xml

/-! ## Problems -/

inductive Problem where
  | noElement
  | character
  | markup
  | declaration
  | misplacedDeclaration
  | openElement (name : String)
  | mismatch (name : String)
  | repeatedAttribute (name : String)
  | unboundPrefix (name : String)
  | reservedPrefix (name : String)
  | reference
  | undefinedEntity (name : String)
  | unreadEntity (name : String)
  | recursiveEntity (name : String)
  | amplification
  | afterRoot
  deriving DecidableEq, Repr

def Problem.message : Problem → String
  | .noElement => "no element found"
  | .character => "not well-formed (invalid character)"
  | .markup => "not well-formed (invalid token)"
  | .declaration => "syntax error in a declaration"
  | .misplacedDeclaration => "XML declaration not at the start of the document"
  | .openElement name => s!"element {name} is not closed"
  | .mismatch name => s!"mismatched tag {name}"
  | .repeatedAttribute name => s!"duplicate attribute {name}"
  | .unboundPrefix name => s!"unbound prefix {name}"
  | .reservedPrefix name => s!"reserved prefix or namespace name {name}"
  | .reference => "reference to an invalid character"
  | .undefinedEntity name => s!"undefined entity {name}"
  | .unreadEntity name => s!"entity {name} is not part of the document"
  | .recursiveEntity name => s!"recursive entity reference {name}"
  | .amplification => "entities stand for too much text"
  | .afterRoot => "junk after document element"

/-! ## Elements -/

inductive Element where
  /-- The name is without its prefix. -/
  | mk (name : String) (text : Text) (children : List Element)
  deriving Repr

namespace Element

def name : Element → String
  | mk name _ _ => name

def text : Element → Text
  | mk _ text _ => text

def children : Element → List Element
  | mk _ _ children => children

mutual

/-- The element and everything inside, in the order of the start tags. -/
def subtree : Element → List Element
  | mk name text children => mk name text children :: subtrees children

def subtrees : List Element → List Element
  | [] => []
  | e :: es => subtree e ++ subtrees es

end

theorem subtrees_eq_flatMap (es : List Element) : subtrees es = es.flatMap subtree := by
  induction es with
  | nil => rfl
  | cons e es ih => simp [subtrees, ih]

theorem subtree_eq (e : Element) : e.subtree = e :: e.children.flatMap subtree := by
  cases e
  simp [subtree, children, subtrees_eq_flatMap]

end Element

end Rulebook.Xml
