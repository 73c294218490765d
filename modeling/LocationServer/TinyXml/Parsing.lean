import LocationServer.Message
import LocationServer.TinyXml.Reading

/-!
# Parsing a document (`tinyxmlparser.cpp`)

`TiXmlDocument::Parse` and the functions `Parse` of the nodes, with the loops
of `TiXmlElement` over attributes and content.  `SetError` marks the document,
and every caller then only hands the null pointer on, so an error of the model
ends the parse.  Elements nest as deep as the fuel, and `parseDocument` has
more than it can use.
-/

namespace LocationServer

/-! ## Attributes -/

/-- The loop of `TiXmlAttribute::Parse` for a value without quotes; `none` is
the quote that it gives up at. -/
def readUnquoted : List Char → Option (List Char × List Char)
  | [] => some ([], [])
  | c :: p =>
      if isWhiteSpace c || c = '/' || c = '>' then some ([], c :: p)
      else if c = '\'' || c = '"' then none
      else (readUnquoted p).map fun read => (c :: read.1, read.2)

/-- The value of an attribute, from its first byte on. -/
def readAttributeValue (encoding : TiXmlEncoding) (c : Char)
    (p : List Char) : Except TiXmlStop (List Char × Option (List Char)) :=
  if c = '\'' then readText encoding false ['\''] p
  else if c = '"' then readText encoding false ['"'] p
  else
    match readUnquoted (c :: p) with
    | some (value, p) => .ok (value, some p)
    | none => .ok ([], none)

/-- `TiXmlAttribute::Parse`: the name and the value.  Whether a null pointer is
an error is up to the caller; a declaration has no document for it. -/
def parseAttribute (encoding : TiXmlEncoding) (p : List Char) :
    Except TiXmlStop ((List Char × List Char) × Option (List Char)) :=
  match skipWhiteSpace encoding p with
  | none => .ok (([], []), none)
  | some p =>
      match readName p with
      | none => .ok (([], []), none)
      | some (name, p) =>
          match skipWhiteSpace encoding p with
          | some ('=' :: p) =>
              match skipWhiteSpace encoding p with
              | some (c :: p) => do
                  let (value, p) ← readAttributeValue encoding c p
                  .ok ((name, value), p)
              | _ => .ok ((name, []), none)
          | _ => .ok ((name, []), none)

/-! ## Nodes without content -/

/-- The loop of `TiXmlDeclaration::Parse`, with the value of `encoding` so
far. -/
def declarationLoop (encoding : TiXmlEncoding) :
    Nat → List Char → List Char →
      Except TiXmlStop (List Char × Option (List Char))
  | _, declared, [] => .ok (declared, none)
  | 0, _, _ :: _ => .error .fuel
  | fuel + 1, declared, c :: p =>
      if c = '>' then .ok (declared, some p)
      else do
        let p := (skipWhiteSpace encoding (c :: p)).getD []
        let isVersion ← stringEqual p "version".toList true
        let isEncoding ← stringEqual p "encoding".toList true
        let isStandalone ← stringEqual p "standalone".toList true
        if isVersion || isEncoding || isStandalone then do
          let ((_, value), next) ← parseAttribute encoding p
          let declared :=
            if !isVersion && isEncoding then value else declared
          match next with
          | none => .ok (declared, none)
          | some p => declarationLoop encoding fuel declared p
        else
          declarationLoop encoding fuel declared
            (p.dropWhile fun c => c ≠ '>' && !isWhiteSpace c)

def parseDeclaration (encoding : TiXmlEncoding) (p : List Char) :
    Except TiXmlStop (List Char × Option (List Char)) :=
  let p := p.drop 5
  declarationLoop encoding p.length [] p

/-- `TiXmlUnknown::Parse`, from the `<` on. -/
def parseUnknown (p : List Char) : Option (List Char) :=
  match (p.drop 1).dropWhile (· ≠ '>') with
  | [] => some []
  | _ :: p => some p

/-- The place where a tag begins, or the end of the text. -/
def findTag (tag : List Char) : List Char → List Char
  | [] => []
  | c :: p =>
      if beginsWith (c :: p) tag false then c :: p else findTag tag p

/-- `TiXmlComment::Parse`, from the `<!--` on. -/
def parseComment (p : List Char) : Option (List Char) :=
  some ((findTag "-->".toList (p.drop 4)).drop 3)

/-- `TiXmlText::Parse` of a CDATA section, from its tag on. -/
def parseCdata (p : List Char) : List Char × Option (List Char) :=
  let p := p.drop 9
  let rest := findTag "]]>".toList p
  (p.take (p.length - rest.length), behindTag "]]>".toList (some rest))

/-- `TiXmlText::Blank`. -/
def blank (value : List Char) : Bool :=
  value.all isWhiteSpace

/-! ## Elements -/

/-- The attributes and the end of a start tag: whether it is an empty tag, and
what follows it. -/
def readAttributes (encoding : TiXmlEncoding) :
    Nat → List (List Char × List Char) → List Char →
      Except TiXmlStop
        (List (List Char × List Char) × Bool × List Char)
  | 0, _, _ => .error .fuel
  | fuel + 1, attributes, p =>
      match skipWhiteSpace encoding p with
      | none => .error .error
      | some [] => .error .error
      | some ('/' :: p) =>
          match p with
          | '>' :: p => .ok (attributes, true, p)
          | _ => .error .error
      | some ('>' :: p) => .ok (attributes, false, p)
      | some (c :: p) => do
          let (pair, next) ← parseAttribute encoding (c :: p)
          match next with
          | none => .error .error
          | some [] => .error .error
          | some (c :: p) =>
              if attributes.any fun other => other.1 = pair.1 then
                .error .error
              else
                readAttributes encoding fuel (attributes ++ [pair])
                  (c :: p)

/-- The node that `Identify` makes. -/
inductive TiXmlNodeType where
  | declaration
  | comment
  | cdata
  | unknown
  | element
  deriving DecidableEq, Repr

/-- `TiXmlNode::Identify`, behind its white space. -/
def identify : List Char → Option TiXmlNodeType
  | '<' :: p =>
      if beginsWith ('<' :: p) "<?xml".toList true then some .declaration
      else if beginsWith ('<' :: p) "<!--".toList false then some .comment
      else if beginsWith ('<' :: p) "<![CDATA[".toList false then some .cdata
      else if beginsWith ('<' :: p) "<!".toList false then some .unknown
      else
        match p with
        | c :: _ =>
            if isAlpha c || c = '_' then some .element else some .unknown
        | [] => some .unknown
  | _ => none

def attributeStrings (attributes : List (List Char × List Char)) :
    List (String × String) :=
  attributes.map fun pair => (String.ofList pair.1, String.ofList pair.2)

mutual

/-- `TiXmlElement::Parse`, from the `<` on. -/
def parseElement (encoding : TiXmlEncoding) :
    Nat → List Char → Except TiXmlStop (TiXmlNode × Option (List Char))
  | 0, _ => .error .fuel
  | fuel + 1, p =>
      match skipWhiteSpace encoding (p.drop 1) with
      | none => .error .assertion
      | some p =>
          match readName p with
          | none => .error .error
          | some (_, []) => .error .error
          | some (name, c :: p) => do
              let (attributes, isEmpty, p) ←
                readAttributes encoding (c :: p).length [] (c :: p)
              let node :=
                TiXmlNode.element (String.ofList name)
                  (attributeStrings attributes)
              if isEmpty then .ok (node [], some p)
              else do
                let (children, next) ← readValue encoding fuel p
                match next with
                | none => .error .error
                | some p =>
                    if beginsWith p ("</".toList ++ name) false then
                      match
                        skipWhiteSpace encoding (p.drop (2 + name.length)) with
                      | some ('>' :: p) => .ok (node children, some p)
                      | _ => .error .error
                    else .error .error

/-- `TiXmlElement::ReadValue`: the nodes up to an end tag, which it goes on
at. -/
def readValue (encoding : TiXmlEncoding) :
    Nat → List Char →
      Except TiXmlStop (List TiXmlNode × Option (List Char))
  | 0, _ => .error .fuel
  | fuel + 1, p =>
      match skipWhiteSpace encoding p with
      | none => .error .error
      | some [] => .error .error
      | some (c :: p) =>
          if c ≠ '<' then do
            let (value, next) ← readText encoding true ['<'] (c :: p)
            match next with
            | none => .error .error
            | some p => do
                let (nodes, next) ← readValue encoding fuel ('<' :: p)
                .ok
                  (if blank value then nodes
                    else .text (String.ofList value) :: nodes,
                    next)
          else if beginsWith (c :: p) "</".toList false then
            .ok ([], some (c :: p))
          else
            match identify (c :: p) with
            | none => .error .error
            | some kind => do
                let ((node, _), next) ←
                  parseNode encoding fuel kind (c :: p)
                match next with
                | none => .error .error
                | some p => do
                    let (nodes, next) ← readValue encoding fuel p
                    .ok (node :: nodes, next)

/-- The function `Parse` of the node that `Identify` has made, with the
encoding that a declaration names. -/
def parseNode (encoding : TiXmlEncoding) :
    Nat → TiXmlNodeType → List Char →
      Except TiXmlStop ((TiXmlNode × List Char) × Option (List Char))
  | 0, _, _ => .error .fuel
  | fuel + 1, kind, p =>
      match kind with
      | .declaration => do
          let (declared, next) ← parseDeclaration encoding p
          .ok ((.other, declared), next)
      | .comment => .ok ((.other, []), parseComment p)
      | .cdata =>
          let (value, next) := parseCdata p
          .ok ((.text (String.ofList value), []), next)
      | .unknown => .ok ((.other, []), parseUnknown p)
      | .element => do
          let (node, next) ← parseElement encoding fuel p
          .ok ((node, []), next)

end

/-! ## Documents -/

/-- The encoding of a document after a declaration. -/
def declaredEncoding (declared : List Char) : TiXmlEncoding :=
  if declared.takeWhile (· ≠ '\x00') = [] then .utf8
  else if beginsWith declared "UTF-8".toList true then .utf8
  else if beginsWith declared "UTF8".toList true then .utf8
  else .legacy

/-- The loop of `TiXmlDocument::Parse`. -/
def documentLoop (fuel : Nat) :
    Nat → TiXmlEncoding → List Char → Except TiXmlStop (List TiXmlNode)
  | _, _, [] => .ok []
  | 0, _, _ :: _ => .error .fuel
  | count + 1, encoding, c :: p =>
      match identify (c :: p) with
      | none => .ok []
      | some kind => do
          let ((node, declared), next) ←
            parseNode encoding fuel kind (c :: p)
          let encoding :=
            if encoding = .unknown && kind = .declaration then
              declaredEncoding declared
            else encoding
          match next.bind (skipWhiteSpace encoding) with
          | none => .ok [node]
          | some p => do
              let nodes ← documentLoop fuel count encoding p
              .ok (node :: nodes)

/-- `TiXmlDocument::Parse` of a text. -/
def parseDocument (p : List Char) : Except TiXmlStop (List TiXmlNode) :=
  let encoding :=
    if beginsWith p ['\xef', '\xbb', '\xbf'] false then
      TiXmlEncoding.utf8
    else .unknown
  match skipWhiteSpace encoding p with
  | none => .error .error
  | some start => do
      let nodes ← documentLoop (p.length + 2) p.length encoding start
      if nodes = [] then .error .error else .ok nodes

/-- The nodes of a document without an error. -/
def parsedNodes (text : String) : Option (List TiXmlNode) :=
  (parseDocument text.toList).toOption

end LocationServer
