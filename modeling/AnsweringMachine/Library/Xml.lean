import Mathlib.Data.List.Basic

/-!
# XML documents as trees

The part of a document object model that configuration and data files are read with: elements with
their namespace and name, text, and comments.  Attributes are left out.

Children are reached in two ways.  `selectNodes name` is the path expression `name`: the child
elements of that name in no namespace, and nothing else.  `children` is the raw list, in which text
and comments stand too.  `innerText` joins the text of all descendants and passes over comments,
`value?` is the text of a node that is itself a text or a comment.

`reread` is what a tree becomes when it is written to a file and the file is read again without
keeping white space: text that is blank is not found again, the rest is as it was.  `loaded` is the
same for an element, which is always found again.
-/

/-- A node of a document. -/
inductive XmlNode
  | element (uri name : String) (children : List XmlNode)
  | text (value : String)
  | comment (value : String)

namespace XmlNode

/-- A new element, in no namespace. -/
abbrev createElement (name : String) (children : List XmlNode) : XmlNode :=
  .element "" name children

/-- A new element whose inner text was set. -/
abbrev withText (name value : String) : XmlNode := createElement name [.text value]

/-- The child nodes of an element. -/
def children : XmlNode → List XmlNode
  | .element _ _ children => children
  | .text _ | .comment _ => []

/-- Is the node an element of this name, in no namespace? -/
def isNamed (name : String) : XmlNode → Bool
  | .element uri name' _ => uri = "" ∧ name' = name
  | .text _ | .comment _ => false

/-- The child elements of a name, in document order. -/
def selectNodes (node : XmlNode) (name : String) : List XmlNode :=
  node.children.filter (isNamed name)

/-- The first child element of a name. -/
def selectSingleNode (node : XmlNode) (name : String) : Option XmlNode :=
  node.children.find? (isNamed name)

/-- The first child node of any kind. -/
def firstChild (node : XmlNode) : Option XmlNode := node.children.head?

/-- The value of a node; elements have none. -/
def value? : XmlNode → Option String
  | .element _ _ _ => none
  | .text value | .comment value => some value

mutual

/-- What a node adds to the inner text of its parent; for an element, its own inner text. -/
def innerText : XmlNode → String
  | .element _ _ children => innerTexts children
  | .text value => value
  | .comment _ => ""

/-- The texts of a list of nodes, joined. -/
def innerTexts : List XmlNode → String
  | [] => ""
  | node :: nodes => node.innerText ++ innerTexts nodes

end

/-! ## Writing and reading again -/

/-- Space, tab, line feed and carriage return. -/
def isSpace (c : Char) : Bool := c = ' ' ∨ c = '\t' ∨ c = '\n' ∨ c = '\r'

/-- Nothing but white space. -/
def isBlank (value : String) : Bool := value.toList.all isSpace

mutual

/-- The node as it is read again; none for a text that is blank.  Two texts side by side would be
read as one: no tree written here has them. -/
def reread : XmlNode → Option XmlNode
  | .element uri name children => some (.element uri name (rereadAll children))
  | .text value => if isBlank value then none else some (.text value)
  | .comment value => some (.comment value)

/-- The nodes of a list that are read again. -/
def rereadAll : List XmlNode → List XmlNode
  | [] => []
  | node :: nodes => node.reread.toList ++ rereadAll nodes

end

lemma rereadAll_eq_filterMap (nodes : List XmlNode) : rereadAll nodes = nodes.filterMap reread := by
  induction nodes with
  | nil => simp [rereadAll]
  | cons node nodes ih =>
      rw [rereadAll, ih]
      cases h : node.reread with
      | none => simp [h]
      | some node' => simp [h]

lemma reread_element (uri name : String) (children : List XmlNode) :
    reread (.element uri name children) = some (.element uri name (children.filterMap reread)) := by
  rw [reread, rereadAll_eq_filterMap]

/-- An element as it is read from a file. -/
def loaded : XmlNode → XmlNode
  | .element uri name children => .element uri name (rereadAll children)
  | .text value => .text value
  | .comment value => .comment value

/-- An element with blank text comes back empty, one with other text as it was. -/
lemma reread_withText (name value : String) :
    reread (withText name value) =
      some (createElement name (if isBlank value then [] else [.text value])) := by
  by_cases h : isBlank value <;> simp [reread, rereadAll, h]

end XmlNode
