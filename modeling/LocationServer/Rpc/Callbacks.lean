import LocationServer.Rpc.Dispatch

/-!
# Asynchronous replies (emitted `callReturn`)

The callback class of an interface gets a call with its reply, and asks for
each method with a result whether the tag of that result occurs in the reply.
What the call was is not asked.  The code for a result is chosen by the
parameter that the generator has last looked at.
-/

namespace LocationServer

open Xml

/-! ## The types of the emitted code -/

/-- A Java type in the emitted code. -/
inductive JavaType where
  | boxed (builtin : Builtin)
  | object (name : Text)
  | vector (item : Text)
  | helper (name : Text)
  deriving DecidableEq

namespace IdlType

def name : IdlType → Text
  | .builtin _ => []
  | .struct name _ _ => name.text
  | .sequence name _ => name.text

/-- The Java type of a variable.  `getMappingTypeName` gives a struct its name
and has no case of Java for the other types: a sequence gets the empty text.
They are read as the types that the emitted classes handle. -/
def mapping : IdlType → JavaType
  | .builtin basic => .boxed basic
  | .struct name _ _ => .object name.text
  | .sequence _ item => .vector item.name

/-- The class that is emitted for a type, which has its `unmarshall`. -/
def emittedClass : IdlType → Option JavaType
  | .builtin _ => none
  | .struct name _ _ => some (.object name.text)
  | .sequence name _ => some (.helper name.text)

end IdlType

/-- What `callReturn` does with a result: a variable with a new object, the
`unmarshall` of a reader, and the callback with its parameter. -/
structure ResultBranch where
  declared : JavaType
  created : JavaType
  reader : JavaType
  parameter : JavaType

/-- The branch for a result of a type, with the last parameter `p` that the
generator has seen. -/
def resultBranch (p type : IdlType) : ResultBranch :=
  if p.isSequence then
    { declared := type.mapping
      created := p.mapping
      reader := .helper type.name
      parameter := .object type.name }
  else
    { declared := type.mapping
      created := type.mapping
      reader := type.mapping
      parameter := .object type.name }

/-- The branch compiles: its types agree, and the reader is a class. -/
def ResultBranch.Compiles (branch : ResultBranch) (type : IdlType) : Prop :=
  branch.declared = branch.created ∧
    type.emittedClass = some branch.reader ∧
      branch.declared = branch.parameter

theorem resultBranch_compiles_iff (p type : IdlType) :
    (resultBranch p type).Compiles type ↔
      type.isStruct = true ∧ p.isSequence = false := by
  cases p <;> cases type <;>
    simp [resultBranch, ResultBranch.Compiles, IdlType.isSequence,
      IdlType.isStruct, IdlType.mapping, IdlType.emittedClass, IdlType.name]

/-! ## The callback class -/

/-- A method of an interface; a `void` method has no result. -/
structure InterfaceMethod where
  name : Identifier
  params : List IdlType
  result : Option IdlType

/-- A parameter or result for which the generator comes to an end and whose
class compiles. -/
def IdlType.IsMessage (type : IdlType) : Prop :=
  type.isBuiltin = false ∧ type.emitted = true

/-- What `p` means behind the loops over the parameters. -/
def leftOverParam (methods : List InterfaceMethod) : Option IdlType :=
  (methods.flatMap InterfaceMethod.params).getLast?

/-- The generator comes to an end for the interface, and its callback class
compiles.  The delegates of two methods with one name would clash. -/
structure CallbackCompiles (methods : List InterfaceMethod) : Prop where
  distinct : (methods.map fun m => m.name.text).Nodup
  messages :
    ∀ m ∈ methods, ∀ type ∈ m.params ++ m.result.toList, type.IsMessage
  branches :
    ∀ m ∈ methods, ∀ type ∈ m.result,
      ∃ p ∈ leftOverParam methods, (resultBranch p type).Compiles type

/-- The same in terms of the interface: the results are structs, and the last
parameter is no sequence. -/
structure ResultsAreStructs (methods : List InterfaceMethod) : Prop where
  distinct : (methods.map fun m => m.name.text).Nodup
  messages :
    ∀ m ∈ methods, ∀ type ∈ m.params ++ m.result.toList, type.IsMessage
  structs : ∀ m ∈ methods, ∀ type ∈ m.result, type.isStruct = true
  param : ∃ p ∈ leftOverParam methods, p.isSequence = false

theorem callbackCompiles_iff {methods : List InterfaceMethod}
    {f : InterfaceMethod} (member : f ∈ methods) {type : IdlType}
    (isResult : f.result = some type) :
    CallbackCompiles methods ↔ ResultsAreStructs methods := by
  constructor
  · intro compiles
    have kinds : ∀ m ∈ methods, ∀ type ∈ m.result,
        ∃ p ∈ leftOverParam methods,
          type.isStruct = true ∧ p.isSequence = false := by
      intro m isMethod type isType
      obtain ⟨p, isLast, branch⟩ :=
        compiles.branches m isMethod type isType
      exact ⟨p, isLast, (resultBranch_compiles_iff p type).mp branch⟩
    refine ⟨compiles.distinct, compiles.messages, ?_, ?_⟩
    · intro m isMethod type isType
      obtain ⟨p, -, isStruct, -⟩ := kinds m isMethod type isType
      exact isStruct
    · obtain ⟨p, isLast, -, noSequence⟩ := kinds f member type isResult
      exact ⟨p, isLast, noSequence⟩
  · intro structs
    obtain ⟨p, isLast, noSequence⟩ := structs.param
    refine ⟨structs.distinct, structs.messages, ?_⟩
    intro m isMethod type isType
    exact
      ⟨p, isLast,
        (resultBranch_compiles_iff p type).mpr
          ⟨structs.structs m isMethod type isType, noSequence⟩⟩

/-- A call of a callback: the method, and the element that its result has been
read from. -/
structure CallbackCall where
  method : Text
  node : Element

section Callbacks

variable (raises : Text → Bool)

/-- The loop that `callReturn` unfolds; a callback that raises ends it. -/
def callReturnNodes : List InterfaceMethod → Element → List CallbackCall
  | [], _ => []
  | m :: methods, root =>
      match m.result with
      | none => callReturnNodes methods root
      | some type =>
          match root.getElementsByTagName type.tag with
          | [] => callReturnNodes methods root
          | node :: _ =>
              { method := m.name.text, node } ::
                if raises m.name.text then []
                else callReturnNodes methods root

/-- `callReturn(m1,m2)`, where `m1` is the call and `m2` the reply. -/
def callReturn (methods : List InterfaceMethod) (_m1 : RpcMessageXML)
    (m2 : ReceivedMessage) : List CallbackCall :=
  callReturnNodes raises methods m2.root

/-- The class of the interface compiles, and the callback of `f` is the only
one that is called, once. -/
def CallsOnly (methods : List InterfaceMethod) (f : InterfaceMethod)
    (m1 : RpcMessageXML) (m2 : ReceivedMessage) : Prop :=
  CallbackCompiles methods ∧
    ∃ node,
      callReturn raises methods m1 m2 = [{ method := f.name.text, node }]

/-- The reply has no element with the tag of the result. -/
def InterfaceMethod.Silent (m : InterfaceMethod) (root : Element) : Prop :=
  ∀ type ∈ m.result, root.getElementsByTagName type.tag = []

/-! ## The loop -/

variable {raises} {m : InterfaceMethod} {methods : List InterfaceMethod}
  {root : Element}

theorem callReturnNodes_silent (silent : m.Silent root) :
    callReturnNodes raises (m :: methods) root =
      callReturnNodes raises methods root := by
  rw [callReturnNodes]
  cases isResult : m.result with
  | none => rfl
  | some type =>
      dsimp only
      rw [silent type isResult]

theorem callReturnNodes_called (raises : Text → Bool)
    (methods : List InterfaceMethod) (called : ¬ m.Silent root) :
    ∃ node,
      callReturnNodes raises (m :: methods) root =
        { method := m.name.text, node } ::
          if raises m.name.text then []
          else callReturnNodes raises methods root := by
  rw [callReturnNodes]
  cases isResult : m.result with
  | none =>
      refine absurd ?_ called
      intro type isType
      rw [isResult] at isType
      cases isType
  | some type =>
      dsimp only
      cases found : root.getElementsByTagName type.tag with
      | nil =>
          refine absurd ?_ called
          intro other isOther
          rw [isResult] at isOther
          obtain rfl := Option.some.inj isOther
          exact found
      | cons node nodes => exact ⟨node, rfl⟩

theorem callReturnNodes_eq_nil_iff (raises : Text → Bool) :
    callReturnNodes raises methods root = [] ↔
      ∀ m ∈ methods, m.Silent root := by
  induction methods with
  | nil => simp [callReturnNodes]
  | cons m methods inductionHypothesis =>
      rw [List.forall_mem_cons]
      by_cases silent : m.Silent root
      · rw [callReturnNodes_silent silent, inductionHypothesis,
          and_iff_right silent]
      · obtain ⟨node, called⟩ :=
          callReturnNodes_called raises methods silent
        rw [called]
        exact iff_of_false (by simp) fun both => silent both.1

/-- The callback of `f` is called alone when the earlier methods are silent,
and the later ones are too or are not asked any more. -/
theorem callReturnNodes_only_iff {before after : List InterfaceMethod}
    {f : InterfaceMethod}
    (distinct : ∀ m ∈ before, m.name.text ≠ f.name.text)
    (called : ¬ f.Silent root) :
    (∃ node,
        callReturnNodes raises (before ++ f :: after) root =
          [{ method := f.name.text, node }]) ↔
      (∀ m ∈ before, m.Silent root) ∧
        (raises f.name.text = true ∨ ∀ m ∈ after, m.Silent root) := by
  induction before with
  | nil =>
      obtain ⟨node, calls⟩ :=
        callReturnNodes_called raises after called
      have rest :
          (if raises f.name.text then []
            else callReturnNodes raises after root) = [] ↔
            raises f.name.text = true ∨ ∀ m ∈ after, m.Silent root := by
        rw [← callReturnNodes_eq_nil_iff raises]
        by_cases stops : raises f.name.text = true
        · simp [stops]
        · simp [stops]
      rw [List.nil_append, calls, ← rest]
      constructor
      · intro only
        obtain ⟨other, same⟩ := only
        exact ⟨by simp, (List.cons.inj same).2⟩
      · intro ends
        exact ⟨node, by rw [ends.2]⟩
  | cons m before inductionHypothesis =>
      rw [List.forall_mem_cons] at distinct
      rw [List.cons_append, List.forall_mem_cons]
      by_cases silent : m.Silent root
      · rw [callReturnNodes_silent silent, and_iff_right silent]
        exact inductionHypothesis distinct.2
      · obtain ⟨node, calls⟩ :=
          callReturnNodes_called raises (before ++ f :: after) silent
        refine iff_of_false ?_ fun both => silent both.1.1
        intro only
        obtain ⟨other, same⟩ := only
        rw [calls] at same
        have sameCall := (List.cons.inj same).1
        exact distinct.1 (congrArg CallbackCall.method sameCall)

end Callbacks

/-! ## The reply -/

/-- The body of a reply is what stands in its text. -/
theorem exists_reply {call : RpcMessageXML}
    (msgcls : isIdentifier call.msgcls = true)
    (msg : isIdentifier (call.msg ++ "Resp".toList) = true) {xml : Text}
    {nodes : List Node} (whole : wholeContent xml = some nodes) :
    ∃ m2 : ReceivedMessage,
      RpcMessageXML.unmarshall (call.returnOf xml).marshall =
          some m2.toRpcMessageXML ∧
        m2.root.children = nodes := by
  have arrives :=
    @unmarshall_marshall (call.returnOf xml) msgcls msg nodes whole
  exact ⟨⟨_, (call.returnOf xml).root nodes, rfl⟩, arrives, rfl⟩

section Reply

variable [FloatTypes]

/-- The body of a reply that is a struct has an element with its tag. -/
theorem named_of_body {type : IdlType} (isStruct : type.isStruct = true)
    {value : type.Value} {root : Element}
    (body :
      wholeContent (type.marshall value) = some root.children) :
    root.getElementsByTagName type.tag ≠ [] := by
  cases type with
  | builtin basic => cases isStruct
  | sequence name item => cases isStruct
  | struct name varidx members =>
      obtain ⟨⟨nodes, rest⟩, read, same⟩ := Option.bind_eq_some_iff.mp body
      rw [Option.ite_none_right_eq_some] at same
      obtain ⟨isEnd, same⟩ := same
      have sameNodes : nodes = root.children := Option.some.inj same
      have isEnd : rest = [] := isEnd
      cases flat : members.flat with
      | false =>
          rw [marshall_complex flat] at read
          have atEnd := (Prod.mk.inj (Option.some.inj read)).2
          rw [isEnd] at atEnd
          cases atEnd
      | true =>
          have chars := isNameChar_of_tag (.struct name varidx members)
          have ends : tagEnd ['/', '>'] = some (true, []) := rfl
          rw [marshall_flat flat, content] at read
          rcases markup_of_head (head_render chars _ ends) with
            isStop | isElement
          · rw [isStop] at read
            have atEnd := (Prod.mk.inj (Option.some.inj read)).2
            rw [isEnd] at atEnd
            cases atEnd
          · rw [isElement] at read
            obtain ⟨⟨found, later⟩, isFound, read⟩ :=
              Option.bind_eq_some_iff.mp read
            obtain ⟨⟨others, left⟩, -, same⟩ :=
              Option.map_eq_some_iff.mp read
            have isTag := (name_of_element_render chars ends isFound).2
            have isFirst : found.node :: others = nodes :=
              (Prod.mk.inj same).1
            rw [Element.getElementsByTagName, ← sameNodes, ← isFirst,
              allNamed_cons_of_name isTag]
            exact List.cons_ne_nil _ _

/-- A reply with a result of `f` reaches the callback of `f` alone exactly
when the class compiles and no other result that is asked for occurs in it. -/
theorem callReturn_only_iff (raises : Text → Bool)
    (before after : List InterfaceMethod) {f : InterfaceMethod}
    {type : IdlType} (isResult : f.result = some type)
    (value : type.Value) (m1 : RpcMessageXML) {m2 : ReceivedMessage}
    (body :
      wholeContent (type.marshall value) = some m2.root.children) :
    CallsOnly raises (before ++ f :: after) f m1 m2 ↔
      ResultsAreStructs (before ++ f :: after) ∧
        (∀ m ∈ before, m.Silent m2.root) ∧
          (raises f.name.text = true ∨ ∀ m ∈ after, m.Silent m2.root) := by
  have member : f ∈ before ++ f :: after := by simp
  rw [CallsOnly, callbackCompiles_iff member isResult]
  apply and_congr_right
  intro structs
  apply callReturnNodes_only_iff
  · intro m isBefore same
    have distinct := structs.distinct
    rw [List.map_append, List.map_cons, List.nodup_append] at distinct
    exact
      distinct.2.2 _ (List.mem_map_of_mem isBefore) _ List.mem_cons_self
        same
  · intro silent
    have isStruct := structs.structs f member type isResult
    exact named_of_body isStruct body (silent type isResult)

end Reply

/-! ## Samples -/

section Samples

/-- A method with a position as its parameter. -/
private def positionMethod (name : String)
    (valid : isIdentifier name.toList = true) (result : IdlType) :
    InterfaceMethod where
  name := ⟨name.toList, valid⟩
  params := [gpsType]
  result := some result

private def locate : InterfaceMethod :=
  positionMethod "locate" (by decide) gpsType

private def redirect : InterfaceMethod :=
  positionMethod "redirect" (by decide) redirectResult

private def track : InterfaceMethod :=
  positionMethod "track" (by decide) gpsType

/-- The call of `locate`. -/
private def locateCall : RpcMessageXML where
  calltype := callBit
  msgcls := terminal
  msg := "locate".toList

/-- `<GPS time="5"/>` -/
private def positionNode : Node :=
  .element "GPS".toList [("time".toList, "5".toList)] []

private theorem wholeContent_position :
    wholeContent (@IdlType.marshall zeroTypes gpsType ((5 : BitVec 32), ())) =
      some [positionNode] := by
  have items :=
    @wholeContent_items zeroTypes _ 0 _
      (show gpsType.emitted = true by decide +kernel)
      [((5 : BitVec 32), ())]
      (fun value _ => legible_gpsType value)
  rw [List.flatMap_singleton] at items
  exact items

private theorem samples_areStructs {name : String}
    (valid : isIdentifier name.toList = true)
    (other : "locate".toList ≠ name.toList) {result : IdlType}
    (isSample : result = gpsType ∨ result = redirectResult) :
    ResultsAreStructs [locate, positionMethod name valid result] := by
  have messages (type : IdlType)
      (isSample : type = gpsType ∨ type = redirectResult) :
      type.IsMessage ∧ type.isStruct = true := by
    rcases isSample with rfl | rfl
    · exact ⟨⟨rfl, by decide +kernel⟩, rfl⟩
    · exact ⟨⟨rfl, by decide +kernel⟩, rfl⟩
  refine ⟨?_, ?_, ?_, gpsType, rfl, rfl⟩
  · simpa [locate, positionMethod] using other
  · intro m isMethod type isType
    rcases List.mem_pair.mp isMethod with rfl | rfl
    · rcases List.mem_pair.mp isType with rfl | rfl
      · exact (messages gpsType (Or.inl rfl)).1
      · exact (messages gpsType (Or.inl rfl)).1
    · rcases List.mem_pair.mp isType with rfl | rfl
      · exact (messages gpsType (Or.inl rfl)).1
      · exact (messages _ isSample).1
  · intro m isMethod type isType
    rcases List.mem_pair.mp isMethod with rfl | rfl
    · obtain rfl := Option.some.inj isType
      rfl
    · obtain rfl := Option.some.inj isType
      exact (messages _ isSample).2

/-- The reply to `locate` reaches its callback alone. -/
theorem callReturn_only_locate :
    ∃ m2 : ReceivedMessage,
      RpcMessageXML.unmarshall
          (locateCall.returnOf
            (@IdlType.marshall zeroTypes gpsType
              ((5 : BitVec 32), ()))).marshall =
          some m2.toRpcMessageXML ∧
        CallsOnly (fun _ => false) [locate, redirect] locate locateCall
          m2 := by
  obtain ⟨m2, received, body⟩ :=
    @exists_reply locateCall (by decide) (by decide) _ _
      wholeContent_position
  refine ⟨m2, received, ?_⟩
  apply
    (@callReturn_only_iff zeroTypes (fun _ => false) [] [redirect] locate
      gpsType rfl ((5 : BitVec 32), ()) locateCall m2
      (wholeContent_position.trans (congrArg some body.symm))).mpr
  refine ⟨samples_areStructs _ (by decide) (Or.inr rfl), by simp, Or.inr ?_⟩
  intro m isMethod type isType
  obtain rfl := List.mem_singleton.mp isMethod
  obtain rfl := Option.some.inj isType
  rw [Element.getElementsByTagName, body]
  rfl

/-- A reply to `locate` is also taken for one to `track`. -/
theorem callReturn_calls_two_methods :
    ∃ m2 : ReceivedMessage,
      RpcMessageXML.unmarshall
          (locateCall.returnOf
            (@IdlType.marshall zeroTypes gpsType
              ((5 : BitVec 32), ()))).marshall =
          some m2.toRpcMessageXML ∧
        CallbackCompiles [locate, track] ∧
          ((callReturn (fun _ => false) [locate, track] locateCall m2).map
              CallbackCall.method =
            ["locate".toList, "track".toList]) ∧
          ¬ CallsOnly (fun _ => false) [locate, track] locate locateCall
            m2 := by
  obtain ⟨m2, received, body⟩ :=
    @exists_reply locateCall (by decide) (by decide) _ _
      wholeContent_position
  have calls :
      (callReturn (fun _ => false) [locate, track] locateCall m2).map
          CallbackCall.method =
        ["locate".toList, "track".toList] := by
    have nodes :
        m2.root.getElementsByTagName gpsType.tag =
          [⟨"GPS".toList, [("time".toList, "5".toList)], []⟩] := by
      rw [Element.getElementsByTagName, body]
      rfl
    simp [callReturn, callReturnNodes, locate, track, positionMethod, nodes]
  have member : locate ∈ [locate, track] := List.mem_cons_self
  refine ⟨m2, received, ?_, calls, ?_⟩
  · have isResult : locate.result = some gpsType := rfl
    rw [callbackCompiles_iff member isResult]
    exact samples_areStructs _ (by decide) (Or.inl rfl)
  · intro only
    obtain ⟨-, node, called⟩ := only
    rw [called] at calls
    cases calls

end Samples

end LocationServer
