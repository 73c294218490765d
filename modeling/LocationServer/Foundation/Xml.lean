import Mathlib.Algebra.Ring.Nat
import Mathlib.Data.List.Basic

/-!
# XML documents

The tree of a document, and a parser for documents without an XML or document
type declaration: start tags with attributes, end tags, character data,
references, comments, CDATA sections and processing instructions, with the
checks of well-formedness and the normalisation of line ends and attribute
values.

The parser works on the characters of the document and has fuel for its
recursion; `document` gives it more than it can use.
-/

namespace Xml

abbrev Text := List Char

inductive Node where
  | element (name : Text) (attributes : List (Text × Text))
      (children : List Node)
  | text (data : Text)
  | cdata (data : Text)
  | comment (data : Text)
  | instruction (data : Text)

structure Element where
  name : Text
  attributes : List (Text × Text)
  children : List Node

def Element.node (element : Element) : Node :=
  .element element.name element.attributes element.children

/-- The value of an attribute; the empty text when there is none. -/
def Element.getAttribute (element : Element) (name : Text) : Text :=
  (element.attributes.lookup name).getD []

mutual

/-- The elements of a node with a given tag, in document order. -/
def Node.named (tag : Text) : Node → List Element
  | .element name attributes children =>
      (if name = tag then [⟨name, attributes, children⟩] else []) ++
        Node.allNamed tag children
  | .text _ => []
  | .cdata _ => []
  | .comment _ => []
  | .instruction _ => []

def Node.allNamed (tag : Text) : List Node → List Element
  | [] => []
  | node :: rest => node.named tag ++ Node.allNamed tag rest

end

/-- The descendants with a given tag, in document order. -/
def Element.getElementsByTagName (element : Element) (tag : Text) :
    List Element :=
  Node.allNamed tag element.children

/-- An element with the tag comes before what it contains and what follows
it. -/
theorem allNamed_cons_of_name {found : Element} {tag : Text}
    (isTag : found.name = tag) (others : List Node) :
    Node.allNamed tag (found.node :: others) =
      found ::
        (Node.allNamed tag found.children ++ Node.allNamed tag others) := by
  rw [Node.allNamed, Element.node, Node.named, if_pos isTag]
  rfl

theorem allNamed_append (tag : Text) (nodes others : List Node) :
    Node.allNamed tag (nodes ++ others) =
      Node.allNamed tag nodes ++ Node.allNamed tag others := by
  induction nodes with
  | nil => rfl
  | cons node nodes inductionHypothesis =>
      rw [List.cons_append, Node.allNamed, Node.allNamed,
        inductionHypothesis, List.append_assoc]

/-! ## Children -/

def Node.element? : Node → Option Element
  | .element name attributes children => some ⟨name, attributes, children⟩
  | .text _ => none
  | .cdata _ => none
  | .comment _ => none
  | .instruction _ => none

/-- The children that are elements. -/
def Element.elements (element : Element) : List Element :=
  element.children.filterMap Node.element?

def Element.childrenNamed (element : Element) (tag : Text) :
    List Element :=
  element.elements.filter fun child => child.name = tag

/-- An element counts itself, then its descendants. -/
theorem Node.named_eq (tag : Text) (node : Node) :
    node.named tag =
      node.element?.toList.flatMap fun child =>
        (if child.name = tag then [child] else []) ++
          child.getElementsByTagName tag := by
  cases node with
  | element name attributes children =>
      simp [Node.named, Node.element?, Element.getElementsByTagName]
  | text data => rfl
  | cdata data => rfl
  | comment data => rfl
  | instruction data => rfl

theorem Node.allNamed_eq (tag : Text) (nodes : List Node) :
    Node.allNamed tag nodes =
      (nodes.filterMap Node.element?).flatMap fun child =>
        (if child.name = tag then [child] else []) ++
          child.getElementsByTagName tag := by
  induction nodes with
  | nil => rfl
  | cons node nodes inductionHypothesis =>
      rw [Node.allNamed, Node.named_eq, inductionHypothesis]
      cases found : node.element? with
      | none => simp [found]
      | some child => simp [found]

mutual

theorem Node.name_of_mem_named (tag : Text) :
    ∀ node : Node, ∀ found ∈ node.named tag, found.name = tag
  | .element name attributes children => by
      intro found member
      rw [Node.named, List.mem_append] at member
      rcases member with isNode | below
      · split at isNode
        · rename_i isTag
          rw [List.mem_singleton.mp isNode]
          exact isTag
        · cases isNode
      · exact Node.name_of_mem_allNamed tag children found below
  | .text _ => by simp [Node.named]
  | .cdata _ => by simp [Node.named]
  | .comment _ => by simp [Node.named]
  | .instruction _ => by simp [Node.named]

theorem Node.name_of_mem_allNamed (tag : Text) :
    ∀ nodes : List Node, ∀ found ∈ Node.allNamed tag nodes, found.name = tag
  | [] => by simp [Node.allNamed]
  | node :: nodes => by
      rw [Node.allNamed, List.forall_mem_append]
      exact
        ⟨Node.name_of_mem_named tag node,
          Node.name_of_mem_allNamed tag nodes⟩

end

/-- What stands below the children comes on top of them. -/
theorem Element.length_getElementsByTagName (element : Element)
    (tag : Text) :
    (element.getElementsByTagName tag).length =
      (element.childrenNamed tag).length +
        (element.elements.map fun child =>
          (child.getElementsByTagName tag).length).sum := by
  rw [Element.getElementsByTagName, Node.allNamed_eq,
    Element.childrenNamed, ← Element.elements]
  induction element.elements with
  | nil => rfl
  | cons child children inductionHypothesis =>
      rw [List.flatMap_cons, List.length_append, inductionHypothesis,
        List.length_append, List.map_cons, List.sum_cons]
      by_cases isTag : child.name = tag
      · rw [if_pos isTag, List.filter_cons_of_pos (by simpa using isTag),
          List.length_singleton, List.length_cons]
        omega
      · rw [if_neg isTag, List.filter_cons_of_neg (by simpa using isTag),
          List.length_nil]
        omega

/-- Below the children there are no elements with the tag. -/
def Element.Shallow (element : Element) (tag : Text) : Prop :=
  ∀ child ∈ element.elements, child.getElementsByTagName tag = []

theorem Element.Shallow.getElementsByTagName {element : Element}
    {tag : Text} (shallow : element.Shallow tag) :
    element.getElementsByTagName tag = element.childrenNamed tag := by
  rw [Element.getElementsByTagName, Node.allNamed_eq,
    Element.childrenNamed, ← Element.elements]
  rw [Element.Shallow] at shallow
  generalize element.elements = elements at shallow ⊢
  induction elements with
  | nil => rfl
  | cons child children inductionHypothesis =>
      rw [List.forall_mem_cons] at shallow
      rw [List.flatMap_cons, inductionHypothesis shallow.2, shallow.1,
        List.append_nil]
      by_cases isTag : child.name = tag
      · rw [if_pos isTag, List.filter_cons_of_pos (by simpa using isTag)]
        rfl
      · rw [if_neg isTag, List.filter_cons_of_neg (by simpa using isTag)]
        rfl

theorem Element.shallow_of_length {element : Element} {tag : Text}
    (same :
      (element.getElementsByTagName tag).length =
        (element.childrenNamed tag).length) :
    element.Shallow tag := by
  rw [element.length_getElementsByTagName] at same
  have none :
      (element.elements.map fun child =>
        (child.getElementsByTagName tag).length).sum = 0 := by
    omega
  intro child member
  have isZero :=
    List.sum_eq_zero_iff_forall_eq_nat.mp none _
      (List.mem_map_of_mem member)
  exact List.length_eq_zero_iff.mp isZero

/-! ## Characters -/

def isSpace (c : Char) : Bool :=
  c = ' ' || c = '\t' || c = '\n' || c = '\r'

/-- The characters of a document. -/
def isChar (c : Char) : Bool :=
  c = '\t' || c = '\n' || c = '\r' ||
    (0x20 ≤ c.toNat && c.toNat ≤ 0xD7FF) ||
    (0xE000 ≤ c.toNat && c.toNat ≤ 0xFFFD) || 0x10000 ≤ c.toNat

/-- The ranges of the letters that can begin a name, beyond ASCII. -/
def nameRanges : List (Nat × Nat) :=
  [(0xC0, 0xD6), (0xD8, 0xF6), (0xF8, 0x2FF), (0x370, 0x37D),
    (0x37F, 0x1FFF), (0x200C, 0x200D), (0x2070, 0x218F), (0x2C00, 0x2FEF),
    (0x3001, 0xD7FF), (0xF900, 0xFDCF), (0xFDF0, 0xFFFD),
    (0x10000, 0xEFFFF)]

def inRange (c : Char) (range : Nat × Nat) : Bool :=
  range.1 ≤ c.toNat && c.toNat ≤ range.2

def isNameStart (c : Char) : Bool :=
  c.isAlpha || c = '_' || c = ':' || nameRanges.any (inRange c)

def isNameChar (c : Char) : Bool :=
  isNameStart c || c.isDigit || c = '-' || c = '.' ||
    [(0xB7, 0xB7), (0x300, 0x36F), (0x203F, 0x2040)].any (inRange c)

/-! ## References and character data -/

def digitValue (c : Char) : Nat :=
  if c.isDigit then c.toNat - '0'.toNat
  else if c.isUpper then c.toNat - 'A'.toNat + 10
  else c.toNat - 'a'.toNat + 10

/-- The number that digits denote. -/
def number (base : Nat) (digits : Text) : Nat :=
  digits.foldl (fun value c => value * base + digitValue c) 0

def charOf (code : Nat) : Option Char :=
  if code.isValidChar then
    (if isChar (Char.ofNat code) then some (Char.ofNat code) else none)
  else none

def isHexDigit (c : Char) : Bool :=
  c.isDigit || ('a' ≤ c && c ≤ 'f') || ('A' ≤ c && c ≤ 'F')

/-- What stands between `&` and `;`: a number or a predefined entity. -/
def reference : Text → Option Char
  | '#' :: 'x' :: digits =>
      if digits ≠ [] ∧ digits.all isHexDigit then
        charOf (number 16 digits)
      else none
  | '#' :: digits =>
      if digits ≠ [] ∧ digits.all Char.isDigit then
        charOf (number 10 digits)
      else none
  | ['l', 't'] => some '<'
  | ['g', 't'] => some '>'
  | ['a', 'm', 'p'] => some '&'
  | ['q', 'u', 'o', 't'] => some '"'
  | ['a', 'p', 'o', 's'] => some '\''
  | _ => none

/-- Replace the references and normalise the line ends of a text; `open?` is
what has been read of a reference, backwards. -/
def decode (normalise : Char → Char) : Option Text → Text → Option Text
  | none, [] => some []
  | some _, [] => none
  | some name, ';' :: rest =>
      (reference name.reverse).bind fun c =>
        (decode normalise none rest).map (c :: ·)
  | some name, c :: rest => decode normalise (some (c :: name)) rest
  | none, '&' :: rest => decode normalise (some []) rest
  | none, '<' :: _ => none
  | none, '\r' :: '\n' :: rest =>
      (decode normalise none rest).map (normalise '\n' :: ·)
  | none, '\r' :: rest =>
      (decode normalise none rest).map (normalise '\n' :: ·)
  | none, c :: rest =>
      if isChar c then (decode normalise none rest).map (normalise c :: ·)
      else none

/-- White space in an attribute becomes a blank. -/
def attributeChar (c : Char) : Char :=
  if isSpace c then ' ' else c

def attributeValue (raw : Text) : Option Text :=
  decode attributeChar none raw


/-- Line ends in comments, CDATA sections and instructions. -/
def lineEnds : Text → Text
  | [] => []
  | '\r' :: '\n' :: rest => '\n' :: lineEnds rest
  | '\r' :: rest => '\n' :: lineEnds rest
  | c :: rest => c :: lineEnds rest

/-! ## Tags -/

/-- The text before and after the first occurrence of `stop`. -/
def upTo (stop : Text) : Text → Option (Text × Text)
  | [] => none
  | c :: rest =>
      if stop.isPrefixOf (c :: rest) then
        some ([], (c :: rest).drop stop.length)
      else (upTo stop rest).map fun found => (c :: found.1, found.2)

def name : Text → Option (Text × Text)
  | [] => none
  | c :: rest =>
      if isNameStart c then
        some (c :: rest.takeWhile isNameChar, rest.dropWhile isNameChar)
      else none

def skipSpace (text : Text) : Text :=
  text.dropWhile isSpace

/-- `=` with white space around it. -/
def equals (text : Text) : Option Text :=
  match skipSpace text with
  | '=' :: rest => some (skipSpace rest)
  | _ => none

def quoted : Text → Option (Text × Text)
  | [] => none
  | quote :: rest =>
      if quote = '"' ∨ quote = '\'' then
        (upTo [quote] rest).bind fun found =>
          (attributeValue found.1).map fun value => (value, found.2)
      else none

structure Tag where
  name : Text
  attributes : List (Text × Text)
  /-- The tag ends in `/>`. -/
  empty : Bool

/-- The end of a start tag, which can close the element. -/
def tagEnd : Text → Option (Bool × Text)
  | '/' :: '>' :: rest => some (true, rest)
  | '>' :: rest => some (false, rest)
  | _ => none

/-- The attributes and the end of a start tag. -/
def attributes : Nat → Text → Option (List (Text × Text) × Bool × Text)
  | 0, _ => none
  | fuel + 1, text =>
      match name (skipSpace text) with
      | none =>
          (tagEnd (skipSpace text)).map fun (empty, rest) =>
            ([], empty, rest)
      | some (name, rest) =>
          if skipSpace text = text then none
          else do
            let (value, rest) ← (equals rest).bind quoted
            let (others, empty, rest) ← attributes fuel rest
            if others.any (·.1 = name) then none
            else some ((name, value) :: others, empty, rest)

/-- A start tag after its `<`. -/
def startTag (text : Text) : Option (Tag × Text) := do
  let (name, rest) ← name text
  let (attributes, empty, rest) ← attributes (rest.length + 1) rest
  some (⟨name, attributes, empty⟩, rest)

/-- An end tag with a given name. -/
def endTag (expected : Text) : Text → Option Text
  | '<' :: '/' :: rest => do
      let (name, rest) ← name rest
      match skipSpace rest with
      | '>' :: rest => if name = expected then some rest else none
      | _ => none
  | _ => none

/-! ## Elements and content -/

/-- A comment after `<!--`. -/
def comment (text : Text) : Option (Node × Text) :=
  (upTo ['-', '-'] text).bind fun (data, rest) =>
    match rest with
    | '>' :: rest =>
        if data.all isChar then some (.comment (lineEnds data), rest)
        else none
    | _ => none

/-- A CDATA section after `<![CDATA[`. -/
def cdata (text : Text) : Option (Node × Text) :=
  (upTo [']', ']', '>'] text).bind fun (data, rest) =>
    if data.all isChar then some (.cdata (lineEnds data), rest) else none

/-- A processing instruction after `<?`. -/
def instruction (text : Text) : Option (Node × Text) :=
  (upTo ['?', '>'] text).bind fun (data, rest) =>
    (name data).bind fun (target, _) =>
      if data.all isChar ∧ target.map Char.toLower ≠ ['x', 'm', 'l'] then
        some (.instruction (lineEnds data), rest)
      else none

def charData (raw : Text) : Option Text :=
  if (upTo [']', ']', '>'] raw).isSome then none else decode id none raw

/-- Character data up to the next `<`. -/
def data (text : Text) : Option (Node × Text) :=
  (charData (text.takeWhile (· ≠ '<'))).map fun data =>
    (.text data, text.dropWhile (· ≠ '<'))

/-- What a text begins with: the end of the content, a node without children,
which may be malformed, or an element after its `<`. -/
inductive Markup where
  | stop
  | leaf (found : Option (Node × Text))
  | element (rest : Text)

def markup (text : Text) : Markup :=
  match text with
  | [] => .stop
  | c :: rest =>
      if c = '<' then
        if ['/'] <+: rest then .stop
        else if ['!', '-', '-'] <+: rest then .leaf (comment (rest.drop 3))
        else if ['!', '[', 'C', 'D', 'A', 'T', 'A', '['] <+: rest then
          .leaf (cdata (rest.drop 8))
        else if ['?'] <+: rest then .leaf (instruction (rest.drop 1))
        else .element rest
      else .leaf (data text)

/-- The nodes that follow, with one more in front. -/
def prepend (node : Node) (found : List Node × Text) : List Node × Text :=
  (node :: found.1, found.2)

mutual

/-- An element after its first `<`. -/
def element : Nat → Text → Option (Element × Text)
  | 0, _ => none
  | fuel + 1, text =>
      (startTag text).bind fun (tag, rest) =>
        if tag.empty then some (⟨tag.name, tag.attributes, []⟩, rest)
        else
          (content fuel rest).bind fun (children, rest) =>
            (endTag tag.name rest).map fun rest =>
              (⟨tag.name, tag.attributes, children⟩, rest)

/-- Content up to an end tag or the end of the text. -/
def content : Nat → Text → Option (List Node × Text)
  | 0, _ => none
  | fuel + 1, text =>
      match markup text with
      | .stop => some ([], text)
      | .leaf found =>
          found.bind fun (node, rest) =>
            (content fuel rest).map (prepend node)
      | .element rest =>
          (element fuel rest).bind fun (element, rest) =>
            (content fuel rest).map (prepend element.node)

end

/-- White space, comments and instructions before and after the root. -/
def skipMisc : Nat → Text → Option Text
  | 0, _ => none
  | fuel + 1, text =>
      match markup (skipSpace text) with
      | .leaf (some (.comment _, rest)) => skipMisc fuel rest
      | .leaf (some (.instruction _, rest)) => skipMisc fuel rest
      | _ => some (skipSpace text)

/-- The root of a document. -/
def document (text : Text) : Option Element :=
  (skipMisc (text.length + 1) text).bind fun start =>
    match start with
    | '<' :: rest =>
        (element (text.length + 1) rest).bind fun (root, rest) =>
          if skipMisc (text.length + 1) rest = some [] then some root
          else none
    | _ => none

/-- The nodes of a text that is content as a whole. -/
def wholeContent (text : Text) : Option (List Node) :=
  (content (text.length + 1) text).bind fun (nodes, rest) =>
    if rest = [] then some nodes else none

end Xml
