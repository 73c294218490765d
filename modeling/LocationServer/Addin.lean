import LocationServer.Message

/-!
# The add-in (`addin.h`, `addin.cpp`)

`AddinWrapper::Initialize` takes the name of the configuration file from a
document.  Its loop starts at the root and goes down to a first child and from
there to the next sibling, which is the second child of where it was: it walks
along `TiXmlElement.spine` and sees the first child of each element there.

A pointer into the tree is an element with the nodes behind it.  What the
framework returns, the parser and the start of the server are parameters.
-/

namespace LocationServer

/-! ## Pointers into the tree -/

/-- A `TiXmlElement *` that is not null. -/
structure ElementPtr where
  element : TiXmlElement
  following : List TiXmlNode
  deriving Repr

/-- The first element of a chain of siblings. -/
def elementAmong : List TiXmlNode → Option ElementPtr
  | [] => none
  | node :: following =>
      match node.toElement with
      | some element => some { element, following }
      | none => elementAmong following

/-- `TiXmlNode::FirstChildElement`. -/
def ElementPtr.firstChildElement (e : ElementPtr) : Option ElementPtr :=
  elementAmong e.element.children

/-- `TiXmlNode::NextSiblingElement`. -/
def ElementPtr.nextSiblingElement (e : ElementPtr) : Option ElementPtr :=
  elementAmong e.following

theorem TiXmlNode.sizeOf_children_of_toElement {node : TiXmlNode}
    {element : TiXmlElement} (isElement : node.toElement = some element) :
    sizeOf element.children < sizeOf node := by
  cases node with
  | element value attributes children =>
      cases isElement
      simp only [TiXmlNode.element.sizeOf_spec]
      omega
  | text value =>
      cases isElement
  | other =>
      cases isElement

theorem sizeOf_children_of_mem {nodes : List TiXmlNode}
    {element : TiXmlElement} (member : element ∈ childElements nodes) :
    sizeOf element.children < sizeOf nodes := by
  obtain ⟨node, nodeMember, isElement⟩ := List.mem_filterMap.mp member
  have smaller := TiXmlNode.sizeOf_children_of_toElement isElement
  have inside := List.sizeOf_lt_of_mem nodeMember
  omega

/-- The elements from a pointer on. -/
def elementsFrom (e : Option ElementPtr) : List TiXmlElement :=
  e.elim [] fun e => e.element :: childElements e.following

theorem childElements_eq (nodes : List TiXmlNode) :
    childElements nodes = elementsFrom (elementAmong nodes) := by
  induction nodes with
  | nil =>
      rfl
  | cons node following inductionHypothesis =>
      rw [elementAmong]
      cases isElement : node.toElement with
      | none =>
          rw [childElements, List.filterMap_cons_none isElement]
          exact inductionHypothesis
      | some element =>
          rw [childElements, List.filterMap_cons_some isElement]
          rfl

theorem sizeOf_nextSiblingElement {e child : ElementPtr}
    (first : e.firstChildElement = some child) :
    (child.nextSiblingElement.elim 0 fun e => sizeOf e.element.children) <
      sizeOf e.element.children := by
  cases second : child.nextSiblingElement with
  | none =>
      cases e.element.children with
      | nil => simp
      | cons node following =>
          simp only [Option.elim_none, List.cons.sizeOf_spec]
          omega
  | some next =>
      apply sizeOf_children_of_mem
      rw [childElements_eq, ← ElementPtr.firstChildElement, first]
      simp only [elementsFrom, Option.elim_some, List.mem_cons]
      rw [childElements_eq, ← ElementPtr.nextSiblingElement, second]
      simp [elementsFrom]

/-! ## The loop of `AddinWrapper::Initialize` -/

/-- What is used although it is null: the element, or the text that a string
is made of. -/
inductive NullPointer where
  | element
  | text
  deriving DecidableEq, Repr

/-- `while(e){ .. }`. -/
def elementLoop (e : Option ElementPtr) (file : String) :
    Except NullPointer String :=
  match e with
  | none => .ok file
  | some e =>
      match _first : e.firstChildElement with
      | none => .error .element
      | some child =>
          let name := child.element.name
          match child.element.getText with
          | none => .error .text
          | some value =>
              elementLoop child.nextSiblingElement
                (if name = "config" then value else file)
  termination_by e.elim 0 fun e => sizeOf e.element.children
  decreasing_by exact sizeOf_nextSiblingElement _first

inductive FxResult where
  | ok
  | fail
  deriving DecidableEq, Repr

/-- `AddinWrapper::Initialize`.  `confile` is what `GetConfigString` hands
out, `none` when it does not. -/
def AddinWrapper.Initialize (parse : String → Option (List TiXmlNode))
    (init : String → Bool) (fw conf : Bool) (confile : Option String) :
    Except NullPointer FxResult := do
  if !fw then return .fail
  if !conf then return .fail
  match confile with
  | none => return .fail
  | some confile =>
      match parse confile with
      | none => return .fail
      | some nodes =>
          let file ← elementLoop (elementAmong nodes) ""
          if file = "" then return .fail
          if !init file then return .fail
          return .ok

/-! ## What the loop visits -/

/-- The text of the last `config` with text, if there is one. -/
def configText (file : String) (elements : List TiXmlElement) : String :=
  ((elements.filter fun e => e.name = "config").filterMap
    TiXmlElement.getText).getLast?.getD file

@[simp]
theorem configText_nil (file : String) : configText file [] = file :=
  rfl

theorem configText_cons (file : String) {e : TiXmlElement} {value : String}
    (text : e.getText = some value) (rest : List TiXmlElement) :
    configText file (e :: rest) =
      configText (if e.name = "config" then value else file) rest := by
  by_cases isConfig : e.name = "config"
  · rw [configText, List.filter_cons_of_pos (by simpa using isConfig),
      List.filterMap_cons_some text, List.getLast?_cons, if_pos isConfig]
    rfl
  · rw [configText, List.filter_cons_of_neg (by simpa using isConfig),
      if_neg isConfig]
    rfl

namespace TiXmlElement

/-- The element itself, its second child element, the second child element of
that one, and so on. -/
def spine (e : TiXmlElement) : List TiXmlElement :=
  e ::
    match _second : (childElements e.children)[1]? with
    | none => []
    | some next => spine next
  termination_by sizeOf e.children
  decreasing_by
    exact sizeOf_children_of_mem (List.mem_of_getElem? _second)

/-- The first child element is there and begins with a text. -/
def LeadsWithText (e : TiXmlElement) : Prop :=
  ∃ child value,
    (childElements e.children).head? = some child ∧
      child.getText = some value

theorem spine_eq (e : TiXmlElement) :
    e.spine = e :: ((childElements e.children)[1]?.elim [] spine) := by
  rw [spine]
  split
  · rename_i second
    rw [second, Option.elim_none]
  · rename_i next second
    rw [second, Option.elim_some]

end TiXmlElement

/-- The spine that hangs on a pointer. -/
def spineFrom (e : Option ElementPtr) : List TiXmlElement :=
  e.elim [] fun e => e.element.spine

theorem spineFrom_some {e child : ElementPtr}
    (first : e.firstChildElement = some child) :
    spineFrom (some e) =
      e.element :: spineFrom child.nextSiblingElement := by
  have siblings := childElements_eq child.following
  have children := childElements_eq e.element.children
  rw [← ElementPtr.firstChildElement, first] at children
  rw [← ElementPtr.nextSiblingElement] at siblings
  simp only [spineFrom, Option.elim_some]
  rw [TiXmlElement.spine_eq, children, elementsFrom, Option.elim_some,
    siblings]
  cases child.nextSiblingElement with
  | none => rfl
  | some next => rfl

/-- The first child element of each element of a spine. -/
def visitedFrom (spine : List TiXmlElement) : List TiXmlElement :=
  spine.filterMap fun e => (childElements e.children).head?

theorem visitedFrom_cons {e child : TiXmlElement}
    (isHead : (childElements e.children).head? = some child)
    (spine : List TiXmlElement) :
    visitedFrom (e :: spine) = child :: visitedFrom spine :=
  List.filterMap_cons_some isHead

/-- One round of the loop, with the children of its element written out. -/
theorem elementLoop_some {e child : ElementPtr}
    (first : e.firstChildElement = some child) (file : String) :
    elementLoop (some e) file =
      match child.element.getText with
      | none => .error .text
      | some value =>
          elementLoop child.nextSiblingElement
            (if child.element.name = "config" then value else file) := by
  rw [elementLoop]
  split
  · rename_i noChild
    rw [first] at noChild
    cases noChild
  · rename_i found isFirst
    rw [first] at isFirst
    cases isFirst
    rfl

theorem elementLoop_none_child {e : ElementPtr}
    (noChild : e.firstChildElement = none) (file : String) :
    elementLoop (some e) file = .error .element := by
  rw [elementLoop]
  split
  · rfl
  · rename_i found isFirst
    rw [noChild] at isFirst
    cases isFirst

/-- The loop ends when every element of the spine leads with a text, and then
it has kept the last `config` among those first children. -/
theorem elementLoop_eq_ok_iff (e : Option ElementPtr)
    (file result : String) :
    elementLoop e file = .ok result ↔
      (∀ element ∈ spineFrom e, element.LeadsWithText) ∧
        configText file (visitedFrom (spineFrom e)) = result := by
  induction e, file using elementLoop.induct with
  | case1 file =>
      rw [elementLoop]
      simp [spineFrom, visitedFrom]
  | case2 file e noChild =>
      have children := childElements_eq e.element.children
      rw [← ElementPtr.firstChildElement, noChild] at children
      have leafless : ¬ e.element.LeadsWithText := by
        rintro ⟨child, value, isFirst, -⟩
        rw [children] at isFirst
        cases isFirst
      rw [elementLoop_none_child noChild]
      constructor
      · intro ended
        cases ended
      · intro led
        exact absurd (led.1 e.element (by
          simp [spineFrom, TiXmlElement.spine_eq e.element])) leafless
  | case3 file e child first noText =>
      have children := childElements_eq e.element.children
      rw [← ElementPtr.firstChildElement, first] at children
      have silent : ¬ e.element.LeadsWithText := by
        rintro ⟨found, value, isFirst, text⟩
        rw [children] at isFirst
        cases isFirst
        rw [noText] at text
        cases text
      rw [elementLoop_some first, noText]
      constructor
      · intro ended
        cases ended
      · intro led
        exact absurd (led.1 e.element (by
          simp [spineFrom, TiXmlElement.spine_eq e.element])) silent
  | case4 file e child first name value text inductionHypothesis =>
      have children := childElements_eq e.element.children
      rw [← ElementPtr.firstChildElement, first] at children
      have isHead :
          (childElements e.element.children).head? = some child.element := by
        rw [children]
        rfl
      have leads : e.element.LeadsWithText :=
        ⟨child.element, value, isHead, text⟩
      simp only [dite_eq_ite, name] at inductionHypothesis
      rw [elementLoop_some first, text]
      simp only
      rw [inductionHypothesis, spineFrom_some first, List.forall_mem_cons,
        and_assoc, and_iff_right leads, visitedFrom_cons isHead,
        configText_cons file text]

/-! ## The file that is found -/

/-- The text of the last `config` among the children of the root. -/
def ElementPtr.configFile (root : ElementPtr) : String :=
  configText "" (childElements root.element.children)

/-- Every element along the spine of the root leads with a text, and the last
`config` among these first children names the same file as the last one among
the children of the root. -/
structure ElementPtr.SpineFindsConfig (root : ElementPtr) : Prop where
  leads : ∀ element ∈ root.element.spine, element.LeadsWithText
  agrees : configText "" (visitedFrom root.element.spine) = root.configFile

theorem elementLoop_root_iff (root : ElementPtr) :
    elementLoop (some root) "" = .ok root.configFile ↔
      root.SpineFindsConfig := by
  rw [elementLoop_eq_ok_iff]
  constructor
  · intro found
    exact ⟨found.1, found.2⟩
  · intro found
    exact ⟨found.leads, found.agrees⟩

theorem AddinWrapper.initialize_of_loop
    {parse : String → Option (List TiXmlNode)} {init : String → Bool}
    {confile file : String} {nodes : List TiXmlNode}
    (parses : parse confile = some nodes)
    (ends : elementLoop (elementAmong nodes) "" = .ok file) :
    AddinWrapper.Initialize parse init true true (some confile) =
      .ok (if file ≠ "" ∧ init file then .ok else .fail) := by
  have afterLoop :
      AddinWrapper.Initialize parse init true true (some confile) =
        if file = "" then .ok .fail
        else if !init file then .ok .fail
        else .ok .ok := by
    simp only [AddinWrapper.Initialize, parses, ends]
    rfl
  rw [afterLoop]
  by_cases empty : file = ""
  · simp [empty]
  · cases started : init file with
    | false => simp [empty]
    | true => simp [empty]

/-- For every document with a root, the add-in takes the file name from the
last `config` below the root, and fails when there is none, exactly when the
spine of the root shows it. -/
theorem AddinWrapper.initialize_finds_config_iff
    {parse : String → Option (List TiXmlNode)} (init : String → Bool)
    {confile : String} {nodes : List TiXmlNode} {root : ElementPtr}
    (parses : parse confile = some nodes)
    (isRoot : elementAmong nodes = some root) :
    (elementLoop (some root) "" = .ok root.configFile ∧
        AddinWrapper.Initialize parse init true true (some confile) =
          .ok
            (if root.configFile ≠ "" ∧ init root.configFile then .ok
            else .fail)) ↔
      root.SpineFindsConfig := by
  rw [← elementLoop_root_iff]
  constructor
  · intro found
    exact found.1
  · intro ends
    rw [← isRoot] at ends
    exact ⟨isRoot ▸ ends, initialize_of_loop parses ends⟩

/-- `<lib><config>a</config></lib>`. -/
private def libWithConfig : TiXmlElement where
  value := "lib"
  attributes := []
  children := [.element "config" [] [.text "a"]]

/-- `<addin><config>b</config><lib><config>a</config></lib>`
`<config>a</config></addin>`. -/
private def addinWithLib : ElementPtr where
  element :=
    { value := "addin"
      attributes := []
      children :=
        [.element "config" [] [.text "b"],
          .element libWithConfig.value [] libWithConfig.children,
          .element "config" [] [.text "a"]] }
  following := []

private theorem spine_addinWithLib :
    addinWithLib.element.spine = [addinWithLib.element, libWithConfig] := by
  rw [TiXmlElement.spine_eq addinWithLib.element]
  exact
    congrArg (List.cons addinWithLib.element)
      (TiXmlElement.spine_eq libWithConfig)

/-- The loop visits the first `config` of the root and the one in its second
child, which names the same file as the last one of the root. -/
theorem AddinWrapper.initialize_finds_config_sample :
    elementLoop (some addinWithLib) "" = .ok "a" ∧
      AddinWrapper.Initialize
          (fun _ => some [.element "addin" [] addinWithLib.element.children])
          (fun _ => true) true true (some "") = .ok .ok := by
  have isRoot :
      elementAmong [.element "addin" [] addinWithLib.element.children] =
        some addinWithLib := rfl
  refine
    (AddinWrapper.initialize_finds_config_iff (fun _ => true)
      rfl isRoot).mpr ⟨?_, ?_⟩
  · rw [spine_addinWithLib, List.forall_mem_cons, List.forall_mem_singleton]
    exact ⟨⟨_, "b", rfl, rfl⟩, _, "a", rfl, rfl⟩
  · rw [spine_addinWithLib]
    rfl

/-- A root without children makes the loop use a null element, where the
start has to fail, and a first child without text a null text, where the
`config` behind it has to be found. -/
theorem AddinWrapper.loop_uses_null :
    (∃ root,
        elementAmong [.element "addin" [] []] = some root ∧
          root.configFile = "" ∧
          elementLoop (some root) "" = .error .element) ∧
      ∃ root,
        elementAmong
            [.element "addin" []
              [.element "lib" [] [],
                .element "config" [] [.text "a"]]] = some root ∧
          root.configFile = "a" ∧
          elementLoop (some root) "" = .error .text := by
  constructor
  · refine ⟨_, rfl, by decide, ?_⟩
    exact elementLoop_none_child rfl ""
  · refine ⟨_, rfl, by decide, ?_⟩
    rw [elementLoop_some rfl]
    rfl

end LocationServer
