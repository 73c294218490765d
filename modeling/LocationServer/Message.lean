import LocationServer.Foundation.StepSystem
import LocationServer.Query

/-!
# The location message (`mq.h`, `mq.cpp`)

`parseMsg` walks through the child elements of a document that TinyXML has
parsed.  The parser is a parameter, from the text of the message to the nodes
of the document, `none` for an error; the accessors of its tree are modelled.
Their results are `const char *`, so a string made of one ends at the first
NUL.

`LocationDetail` has no constructor: the members that no other constructor
sets keep what the memory of the new object held, the parameter `memory`.
-/

namespace LocationServer

/-! ## The document tree -/

/-- The string made of a `const char *`. -/
def cString (text : String) : String :=
  String.ofList (text.toList.takeWhile (· ≠ '\x00'))

inductive TiXmlNode where
  | element (value : String) (attributes : List (String × String))
      (children : List TiXmlNode)
  | text (value : String)
  | other
  deriving Repr

structure TiXmlElement where
  value : String
  attributes : List (String × String)
  children : List TiXmlNode
  deriving Repr

/-- `TiXmlNode::ToElement`. -/
def TiXmlNode.toElement : TiXmlNode → Option TiXmlElement
  | .element value attributes children =>
      some { value, attributes, children }
  | _ => none

/-- The elements that `FirstChildElement` and then `NextSiblingElement`
return. -/
def childElements (nodes : List TiXmlNode) : List TiXmlElement :=
  nodes.filterMap TiXmlNode.toElement

/-- `TiXmlElement::Value`. -/
def TiXmlElement.name (e : TiXmlElement) : String :=
  cString e.value

/-- `TiXmlElement::GetText`: the first node inside, if it is a text. -/
def TiXmlElement.getText (e : TiXmlElement) : Option String :=
  match e.children with
  | .text value :: _ => some (cString value)
  | _ => none

/-- `TiXmlElement::Attribute`. -/
def TiXmlElement.getAttribute (e : TiXmlElement) (name : String) :
    Option String :=
  (e.attributes.lookup name).map cString

/-! ## Decoding -/

/-- The members of a new `LocationDetail` that no constructor sets. -/
structure FreshMemory where
  devId : UniqueId := 0
  userId : UniqueId := 0
  time : UInt32 := 0
  speed : ℚ := 0
  direction : ℚ := 0
  linkId : UniqueId := 0
  deriving DecidableEq, Repr

/-- `new LocationDetail`; the point and the list have constructors. -/
def newLocationDetail (memory : FreshMemory) : LocationDetail where
  devId := memory.devId
  userId := memory.userId
  gps :=
    { pt := {}
      time := memory.time
      speed := memory.speed
      direction := memory.direction }
  linkId := memory.linkId
  groupIds := []

def LocationDetail.addGroup (loc : LocationDetail) (gid : GroupId) :
    LocationDetail :=
  { loc with groupIds := loc.groupIds ++ [gid] }

/-- The text of an element, empty when it has none. -/
def TiXmlElement.textValue (e : TiXmlElement) : String :=
  e.getText.getD ""

/-- An attribute as the branch for the position reads it. -/
def TiXmlElement.attributeOrZero (e : TiXmlElement) (name : String) :
    String :=
  (e.getAttribute name).getD "0"

/-- The body of the loop in `parseMsg`; `none` is the null record that an
unknown element or a failed conversion makes it return. -/
def parseChild (cast : LexicalCast) (loc : LocationDetail)
    (e : TiXmlElement) : Option LocationDetail :=
  let name := e.name
  let value := e.textValue
  if name = "user_id" then do
    let userId ← cast.uint64 value
    return { loc with userId }
  else if name = "dev_id" then do
    let devId ← cast.uint64 value
    return { loc with devId }
  else if name = "gps" ∨ name = "GPS" then do
    let lon ← cast.float (e.attributeOrZero "lon")
    let lat ← cast.float (e.attributeOrZero "lat")
    let time ← cast.uint32 (e.attributeOrZero "time")
    let speed ← cast.float (e.attributeOrZero "speed")
    let direction ← cast.float (e.attributeOrZero "direction")
    return { loc with gps := { pt := { lon, lat }, time, speed, direction } }
  else if name = "roadlink" then do
    let value := if value = "" then "0" else value
    let linkId ← cast.uint64 value
    return { loc with linkId }
  else if name = "group_ids" then
    some <| (split ',' value).foldl
      (fun loc id =>
        let id := trim id
        if id = "" then loc else loc.addGroup id)
      loc
  else none

/-- The child elements that `parseMsg` walks through: those of the root, when
the text parses and the root is a `NaviMSG`. -/
def messageChildren (parse : String → Option (List TiXmlNode))
    (dc : String) : Option (List TiXmlElement) := do
  let nodes ← parse (cString dc)
  let e ← (childElements nodes).head?
  if e.name = "NaviMSG" then return childElements e.children
  else none

/-- `MessageQueue::parseMsg`.  `dc` is the chunk with the NUL that
`decodeThread` has appended. -/
def parseMsg (parse : String → Option (List TiXmlNode))
    (cast : LexicalCast) (memory : FreshMemory) (dc : String) :
    Option LocationDetail := do
  let children ← messageChildren parse dc
  StepSystem.run (parseChild cast) (newLocationDetail memory) children

end LocationServer
