import LocationServer.Idl.Totality

/-!
# The names of the emitted methods

The parser keeps the members of a struct apart and renames parameters that
would meet some of the variables of the generator.  What is left to ask of a
unit is `NamesApart`: the parameters of a method differ, and no name meets one
of the remaining variables or a numbered helper variable of its own method.
-/

namespace LocationServer

open Xml

/-- The names from the IDL are pairwise distinct, and distinct from those that
the generator declares in the method. -/
structure JavaMethod.Hygienic (method : JavaMethod) : Prop where
  distinct : method.idlNames.Nodup
  apart : ∀ id ∈ method.idlNames, id ∉ method.ownNames

/-! ## Counted loops -/

section Counted

variable {α β : Type} (emit : α → Nat → List β) (count : α → Nat)

/-- What a loop emits when its body emits `emit` and moves the counter by
`count`. -/
def emitAll : List α → Nat → List β
  | [], _ => []
  | item :: items, varidx =>
      emit item varidx ++ emitAll items (varidx + count item)

/-- A property of the items, each with the counter before it. -/
def ForCounted (holds : α → Nat → Prop) : List α → Nat → Prop
  | [], _ => True
  | item :: items, varidx =>
      holds item varidx ∧ ForCounted holds items (varidx + count item)

variable {emit count}

theorem forEach_eq {body : α → Nat → Except GenFault (List β × Nat)}
    (accepts : α → Prop)
    (each :
      ∀ item, accepts item → ∀ varidx,
        body item varidx = .ok (emit item varidx, varidx + count item))
    (items : List α) :
    (∀ item ∈ items, accepts item) → ∀ varidx,
      forEach body items varidx =
        .ok
          (emitAll emit count items varidx,
            varidx + (items.map count).sum) := by
  induction items with
  | nil =>
      intro _ varidx
      rfl
  | cons item items inductionHypothesis =>
      intro accepted varidx
      rw [List.forall_mem_cons] at accepted
      have first := each item accepted.1 varidx
      have rest :=
        inductionHypothesis accepted.2 (varidx + count item)
      simp only [forEach, first, bind, Except.bind, rest, List.map_cons,
        List.sum_cons, Nat.add_assoc, emitAll]
      rfl

theorem forall_emitAll {good : β → Prop} (items : List α) :
    ∀ varidx,
      (∀ result ∈ emitAll emit count items varidx, good result) ↔
        ForCounted count
          (fun item varidx => ∀ result ∈ emit item varidx, good result)
          items varidx := by
  induction items with
  | nil =>
      intro varidx
      simp [emitAll, ForCounted]
  | cons item items inductionHypothesis =>
      intro varidx
      rw [emitAll, List.forall_mem_append, inductionHypothesis, ForCounted]

theorem forCounted_congr (count : α → Nat) {left right : α → Nat → Prop}
    (items : List α) :
    (∀ item ∈ items, ∀ varidx, left item varidx ↔ right item varidx) →
      ∀ varidx,
        ForCounted count left items varidx ↔
          ForCounted count right items varidx := by
  induction items with
  | nil =>
      intro _ varidx
      rfl
  | cons item items inductionHypothesis =>
      intro same varidx
      rw [List.forall_mem_cons] at same
      rw [ForCounted, ForCounted, same.1, inductionHypothesis same.2]

/-- A part that does not depend on the counter. -/
theorem forCounted_and {fixed : α → Prop} {holds : α → Nat → Prop}
    (items : List α) :
    ∀ varidx,
      ForCounted count (fun item varidx => fixed item ∧ holds item varidx)
          items varidx ↔
        (∀ item ∈ items, fixed item) ∧
          ForCounted count holds items varidx := by
  induction items with
  | nil =>
      intro varidx
      simp [ForCounted]
  | cons item items inductionHypothesis =>
      intro varidx
      rw [ForCounted, ForCounted, inductionHypothesis, List.forall_mem_cons,
        and_and_and_comm]

end Counted

/-! ## Helper variables -/

/-- The helper variables of one name with the numbers behind `varidx`. -/
def helpers (name : Text) (varidx count : Nat) : List Text :=
  (List.range' (varidx + 1) count).map (variantName name)

theorem helpers_append (name : Text) (varidx left right : Nat) :
    helpers name varidx (left + right) =
      helpers name varidx left ++ helpers name (varidx + left) right := by
  rw [helpers, ← List.range'_append_1, List.map_append, helpers, helpers,
    Nat.add_right_comm]

/-- A loop that declares one helper variable for each item of a kind. -/
theorem forEach_helpers {α : Type} {name : Text} (accepts : α → Prop)
    {asks : α → Bool} {body : α → Nat → Except GenFault (List Text × Nat)}
    (each :
      ∀ item, accepts item → ∀ varidx,
        body item varidx =
          .ok (if asks item then newVariant name varidx else ([], varidx)))
    (items : List α) :
    (∀ item ∈ items, accepts item) → ∀ varidx,
      forEach body items varidx =
        .ok
          (helpers name varidx (items.countP asks),
            varidx + items.countP asks) := by
  induction items with
  | nil =>
      intro _ varidx
      rfl
  | cons item items inductionHypothesis =>
      intro accepted varidx
      rw [List.forall_mem_cons] at accepted
      have first := each item accepted.1 varidx
      rw [List.countP_cons, Nat.add_comm, helpers_append]
      by_cases asked : asks item = true
      · have rest := inductionHypothesis accepted.2 (varidx + 1)
        rw [if_pos asked] at first
        rw [if_pos asked]
        simp only [forEach, first, bind, Except.bind, newVariant, rest,
          ← Nat.add_assoc]
        rfl
      · have rest := inductionHypothesis accepted.2 varidx
        rw [if_neg asked] at first
        rw [if_neg asked]
        simp only [forEach, first, bind, Except.bind, rest, Nat.zero_add]
        rfl

/-! ## Structs -/

def TypeDef.isSequence : TypeDef → Bool
  | .sequence _ _ => true
  | _ => false

/-- A sequence or a dictionary. -/
def TypeDef.isCollection : TypeDef → Bool
  | .sequence _ _ => true
  | .dictionary _ _ _ => true
  | _ => false

/-- The helper variables of `marshall`, and those of `unmarshall`. -/
def writtenHelpers (list : List (TypeId TypeDef)) : Nat :=
  (list.map TypeId.type).countP TypeDef.isCollection

def readHelpers (list : List (TypeId TypeDef)) : Nat :=
  (list.map TypeId.type).countP fun type =>
    type.isBuiltin || type.isCollection

def structMethods (list : List (TypeId TypeDef)) (varidx : Nat) :
    List JavaMethod :=
  [{ name := "marshall".toList
     idlNames := usedMembers list
     ownNames :=
       ["xml".toList, "complexes".toList] ++
         helpers "_b".toList varidx (writtenHelpers list) ++
           ["s".toList] },
    { name := "unmarshall".toList
      idlNames := usedMembers list
      ownNames :=
        ["xmlnode".toList, "parentNode".toList, "r".toList,
            "nodes".toList] ++
          helpers "_b".toList (varidx + writtenHelpers list)
              (readHelpers list) ++
            ["e".toList] }]

theorem createCodeStruct_eq {name : Text} {list : List (TypeId TypeDef)}
    (generates : (TypeDef.struct name list).Generates) (varidx : Nat) :
    createCodeStruct name list varidx =
      .ok
        (structMethods list varidx,
          varidx + (writtenHelpers list + readHelpers list)) := by
  obtain ⟨tag, noBool⟩ := generates
  obtain ⟨tagText, isTag⟩ := (completes_xmlTag name).mpr tag
  have written :
      forEach serialMember (list.map TypeId.type) varidx =
        .ok
          (helpers "_b".toList varidx (writtenHelpers list),
            varidx + writtenHelpers list) := by
    apply forEach_helpers fun _ => True
    · intro type _ varidx
      cases type <;> rfl
    · exact fun _ _ => trivial
  have read :
      forEach unserialMember (list.map TypeId.type)
          (varidx + writtenHelpers list) =
        .ok
          (helpers "_b".toList (varidx + writtenHelpers list)
            (readHelpers list),
            varidx + writtenHelpers list + readHelpers list) := by
    apply forEach_helpers fun type => ¬ type.isBool = true
    · intro type notBool varidx
      cases type with
      | builtin basic =>
          have other : basic ≠ .bool := by
            rintro rfl
            exact notBool rfl
          simp only [unserialMember, if_neg other]
          rfl
      | void => rfl
      | struct name list => rfl
      | sequence name type => rfl
      | dictionary name first second => rfl
      | interface name list => rfl
    · rw [List.forall_mem_map]
      exact noBool
  rw [createCodeStruct, isTag]
  simp only [bind, Except.bind, written, read]
  rw [Nat.add_assoc]
  rfl

/-- The variables of `marshall` and `unmarshall` without a number. -/
def structOwnNames : List Text :=
  ["xml".toList, "complexes".toList, "s".toList, "xmlnode".toList,
    "parentNode".toList, "r".toList, "nodes".toList, "e".toList]

/-- No member that is read and written meets a variable of the class. -/
def StructApart (list : List (TypeId TypeDef)) (varidx : Nat) : Prop :=
  ∀ id ∈ usedMembers list,
    id ∉ structOwnNames ∧
      id ∉
        helpers "_b".toList varidx (writtenHelpers list + readHelpers list)

theorem structMethods_hygienic_iff {list : List (TypeId TypeDef)}
    (distinct : (list.map TypeId.id).Nodup) (varidx : Nat) :
    (∀ method ∈ structMethods list varidx, method.Hygienic) ↔
      StructApart list varidx := by
  have usedDistinct : (usedMembers list).Nodup :=
    distinct.sublist ((List.filter_sublist).map _)
  have parts (id : Text) :
      (id ∉ structOwnNames ∧
          id ∉
            helpers "_b".toList varidx
              (writtenHelpers list + readHelpers list)) ↔
        ∀ method ∈ structMethods list varidx, id ∉ method.ownNames := by
    rw [structMethods, List.forall_mem_cons, List.forall_mem_singleton,
      structOwnNames, helpers_append]
    simp only [List.mem_append, List.mem_cons, List.not_mem_nil, or_false,
      not_or]
    -- Both sides have the same variables in another order.
    simp only [and_assoc, and_left_comm, and_comm]
  constructor
  · intro hygienic id used
    rw [parts]
    intro method member
    apply (hygienic method member).apart
    simp only [structMethods, List.mem_pair] at member
    rcases member with rfl | rfl <;> exact used
  · intro apart method member
    have names : method.idlNames = usedMembers list := by
      simp only [structMethods, List.mem_pair] at member
      rcases member with rfl | rfl <;> rfl
    constructor
    · rw [names]
      exact usedDistinct
    · intro id used
      rw [names] at used
      exact (parts id).mp (apart id used) method member

/-! ## Interfaces -/

section Method

variable (m : OperateMember TypeDef)

def sequenceParams : Nat :=
  (paramTypes m).countP TypeDef.isSequence

/-- The helper variables of the delegate of a method. -/
def delegateHelpers (varidx : Nat) : List Text :=
  helpers "_array".toList varidx (sequenceParams m) ++
    helpers "_c".toList (varidx + sequenceParams m)
      (if m.type.isSequence then 1 else 0)

def delegateCount : Nat :=
  sequenceParams m + if m.type.isSequence then 1 else 0

def delegateJava (varidx : Nat) : List JavaMethod :=
  [{ name := m.name ++ "_delegate".toList
     idlNames := paramNames m
     ownNames :=
       ["m_".toList, "m".toList, "r".toList] ++
         (if m.params.isEmpty then []
          else ["node".toList, "nodes".toList]) ++
         helpers "_array".toList varidx (sequenceParams m) ++
         ["servant".toList, "ctx".toList] ++
         (if m.type.isVoid then []
          else ["cr".toList, "mr".toList, "xml".toList]) ++
         helpers "_c".toList (varidx + sequenceParams m)
           (if m.type.isSequence then 1 else 0) }]

/-- The helper variables that a two-way method declares for its result. -/
def resultHelpers (type : TypeDef) (varidx : Nat) : List Text :=
  match type with
  | .sequence _ _ =>
      helpers "_b".toList varidx 1 ++ helpers "_array".toList (varidx + 1) 1
  | .struct _ _ => helpers "_b".toList varidx 1
  | _ => []

/-- The helper variables of the two-way method. -/
def twoWayHelpers (varidx : Nat) : List Text :=
  helpers "_c".toList varidx (sequenceParams m) ++
    resultHelpers m.type (varidx + sequenceParams m)

/-- Those of the one-way or asynchronous method behind it. -/
def secondHelpers (varidx : Nat) : List Text :=
  helpers "_c".toList (varidx + (twoWayHelpers m varidx).length)
    (sequenceParams m)

def proxyCount : Nat :=
  (twoWayHelpers m 0).length + sequenceParams m

def proxyJava (varidx : Nat) : List JavaMethod :=
  [{ name := m.name
     idlNames := paramNames m
     ownNames :=
       ["timeout".toList, "r".toList, "m".toList] ++
         helpers "_c".toList varidx (sequenceParams m) ++ ["e".toList] ++
         (if m.type.isVoid then [] else ["m2".toList]) ++
         resultHelpers m.type (varidx + sequenceParams m) },
    if m.type.isVoid then
      { name := m.name ++ "_oneway".toList
        idlNames := paramNames m
        ownNames := ["r".toList, "m".toList] ++ secondHelpers m varidx }
    else
      { name := m.name ++ "_async".toList
        idlNames := paramNames m
        ownNames :=
          ["async".toList, "r".toList, "m".toList] ++
            secondHelpers m varidx }]

/-- The shape of a method for which the generator comes to an end. -/
structure MethodGenerates : Prop where
  params : ∀ p ∈ m.params, p.type.HasTag
  result :
    m.type.isVoid = true ∨ (m.type.isMessage = true ∧ m.type.HasTag)

variable {m}

theorem delegateMethod_eq (generates : MethodGenerates m) (varidx : Nat) :
    delegateMethod m varidx =
      .ok (delegateJava m varidx, varidx + delegateCount m) := by
  have arrays :
      forEach delegateParam (paramTypes m) varidx =
        .ok
          (helpers "_array".toList varidx (sequenceParams m),
            varidx + sequenceParams m) := by
    apply forEach_helpers TypeDef.HasTag
    · intro type hasTag varidx
      obtain ⟨tag, isTag⟩ := (completes_xmlTag type.name).mpr hasTag
      unfold delegateParam
      rw [isTag]
      cases type <;> rfl
    · rw [paramTypes, List.forall_mem_map]
      exact generates.params
  have result (varidx : Nat) :
      delegateResult m.type varidx =
        .ok
          (helpers "_c".toList varidx (if m.type.isSequence then 1 else 0),
            varidx + if m.type.isSequence then 1 else 0) := by
    have shape := generates.result
    cases isType : m.type with
    | builtin basic =>
        rw [isType] at shape
        rcases shape with isVoid | ⟨isMessage, -⟩
        · cases isVoid
        · cases isMessage
    | void => rfl
    | struct name list => rfl
    | sequence name type => rfl
    | dictionary name first second => rfl
    | interface name list => rfl
  rw [delegateMethod, arrays]
  simp only [bind, Except.bind, result]
  rw [delegateCount, ← Nat.add_assoc]
  rfl

theorem length_resultHelpers (type : TypeDef) (varidx other : Nat) :
    (resultHelpers type varidx).length =
      (resultHelpers type other).length := by
  cases type <;> rfl

theorem length_twoWayHelpers (varidx : Nat) :
    (twoWayHelpers m varidx).length =
      sequenceParams m +
        (resultHelpers m.type (varidx + sequenceParams m)).length := by
  simp [twoWayHelpers, helpers]

theorem proxyMethods_eq (generates : MethodGenerates m) (varidx : Nat) :
    proxyMethods m varidx =
      .ok (proxyJava m varidx, varidx + proxyCount m) := by
  have params (varidx : Nat) :
      forEach proxyParam (paramTypes m) varidx =
        .ok
          (helpers "_c".toList varidx (sequenceParams m),
            varidx + sequenceParams m) := by
    apply forEach_helpers fun type => ¬ type.isBuiltin = true
    · intro type notBuiltin varidx
      cases type with
      | void => exact absurd rfl notBuiltin
      | builtin basic => exact absurd rfl notBuiltin
      | struct name list => rfl
      | sequence name type => rfl
      | dictionary name first second => rfl
      | interface name list => rfl
    · rw [paramTypes, List.forall_mem_map]
      intro p isParam isBuiltin
      exact
        not_hasTag_of_isBuiltin isBuiltin (generates.params p isParam)
  have result (varidx : Nat) :
      proxyResult m.type varidx =
        .ok
          (resultHelpers m.type varidx,
            varidx + (resultHelpers m.type varidx).length) := by
    have shape := generates.result
    cases isType : m.type with
    | void => rfl
    | struct name list => rfl
    | sequence name type => rfl
    | builtin basic =>
        rw [isType] at shape
        rcases shape with isVoid | ⟨isMessage, -⟩
        · cases isVoid
        · cases isMessage
    | dictionary name first second =>
        rw [isType] at shape
        rcases shape with isVoid | ⟨isMessage, -⟩
        · cases isVoid
        · cases isMessage
    | interface name list =>
        rw [isType] at shape
        rcases shape with isVoid | ⟨isMessage, -⟩
        · cases isVoid
        · cases isMessage
  have counter :
      varidx + sequenceParams m +
          (resultHelpers m.type (varidx + sequenceParams m)).length =
        varidx + (twoWayHelpers m varidx).length := by
    rw [length_twoWayHelpers, Nat.add_assoc]
  have total :
      varidx + (twoWayHelpers m varidx).length + sequenceParams m =
        varidx + proxyCount m := by
    rw [proxyCount, length_twoWayHelpers, length_twoWayHelpers,
      length_resultHelpers m.type _ (0 + sequenceParams m), Nat.add_assoc]
  rw [proxyMethods, params]
  simp only [bind, Except.bind, result, params, counter]
  rw [total]
  rfl

end Method

/-- The helper variables of `callReturn` for the result of one method. -/
def branchHelpers (p : Option (TypeId TypeDef))
    (m : OperateMember TypeDef) (varidx : Nat) : List Text :=
  if m.type.isVoid then []
  else if p.any fun p => p.type.isSequence then
    helpers "_b".toList varidx 1 ++ helpers "_array".toList (varidx + 1) 1
  else helpers "_b".toList varidx 1

def branchCount (p : Option (TypeId TypeDef))
    (m : OperateMember TypeDef) : Nat :=
  (branchHelpers p m 0).length

theorem callReturnBranch_eq {p : Option (TypeId TypeDef)}
    {m : OperateMember TypeDef} (generates : MethodGenerates m)
    (bound : ¬ m.type.isVoid = true → p.isSome = true) (varidx : Nat) :
    callReturnBranch p m varidx =
      .ok (branchHelpers p m varidx, varidx + branchCount p m) := by
  unfold callReturnBranch branchCount branchHelpers
  by_cases isVoid : m.type.isVoid = true
  · rw [if_pos isVoid, if_pos isVoid, if_pos isVoid]
    rfl
  · rw [if_neg isVoid, if_neg isVoid, if_neg isVoid]
    obtain ⟨isMessage, hasTag⟩ := generates.result.resolve_left isVoid
    obtain ⟨tag, isTag⟩ := (completes_xmlTag m.type.name).mpr hasTag
    obtain ⟨p, rfl⟩ := Option.isSome_iff_exists.mp (bound isVoid)
    rw [isTag]
    obtain ⟨methodName, type, params⟩ := m
    obtain ⟨paramType, id⟩ := p
    cases type with
    | struct name list => cases paramType <;> rfl
    | sequence name item => cases paramType <;> rfl
    | void => cases isMessage
    | builtin basic => cases isMessage
    | dictionary name first second => cases isMessage
    | interface name list => cases isMessage

def interfaceMethods (list : List (OperateMember TypeDef)) (varidx : Nat) :
    List JavaMethod :=
  let delegates := (list.map delegateCount).sum
  let proxies := (list.map proxyCount).sum
  list.map servantStub ++ emitAll delegateJava delegateCount list varidx ++
    emitAll proxyJava proxyCount list (varidx + delegates) ++
    [{ name := "callReturn".toList
       idlNames := []
       ownNames :=
         ["m1_".toList, "m2_".toList, "nodes".toList, "node".toList,
             "r".toList, "m1".toList, "m2".toList] ++
           emitAll (branchHelpers (lastParam list))
             (branchCount (lastParam list)) list
             (varidx + delegates + proxies) }]

def interfaceCount (list : List (OperateMember TypeDef)) : Nat :=
  (list.map delegateCount).sum + (list.map proxyCount).sum +
    (list.map (branchCount (lastParam list))).sum

theorem createCodeInterface_eq {name : Text}
    {list : List (OperateMember TypeDef)}
    (generates : (TypeDef.interface name list).Generates) (varidx : Nat) :
    createCodeInterface list varidx =
      .ok
        (interfaceMethods list varidx, varidx + interfaceCount list) := by
  obtain ⟨methods, bound⟩ := generates
  have shape : ∀ m ∈ list, MethodGenerates m := by
    intro m isMethod
    exact ⟨(methods m isMethod).1, (methods m isMethod).2⟩
  have delegates :=
    forEach_eq _ (fun _ => delegateMethod_eq) list shape varidx
  have proxies :=
    forEach_eq _ (fun _ => proxyMethods_eq) list shape
      (varidx + (list.map delegateCount).sum)
  have branches :=
    forEach_eq
      (fun m =>
        MethodGenerates m ∧
          (¬ m.type.isVoid = true → (lastParam list).isSome = true))
      (fun m accepted => callReturnBranch_eq accepted.1 accepted.2) list
      (fun m isMethod =>
        ⟨shape m isMethod, fun notVoid =>
          (lastParam_isSome list).mpr (bound ⟨m, isMethod, notVoid⟩)⟩)
      (varidx + (list.map delegateCount).sum + (list.map proxyCount).sum)
  rw [createCodeInterface, delegates]
  simp only [bind, Except.bind, proxies, branches]
  rw [interfaceCount, ← Nat.add_assoc, ← Nat.add_assoc]
  rfl

/-! ## What is asked of the parameters -/

/-- The unnumbered variables of the delegate that a parameter can meet after
the renaming. -/
def delegateOwnNames (m : OperateMember TypeDef) : List Text :=
  ["m_".toList, "node".toList, "nodes".toList, "servant".toList,
      "ctx".toList] ++
    if m.type.isVoid then [] else ["mr".toList, "xml".toList]

/-- Those of the two proxy methods. -/
def proxyOwnNames (m : OperateMember TypeDef) : List Text :=
  ["timeout".toList, "e".toList] ++
    if m.type.isVoid then [] else ["async".toList]

def proxyHelpers (m : OperateMember TypeDef) (varidx : Nat) : List Text :=
  twoWayHelpers m varidx ++ secondHelpers m varidx

/-- The parameters differ, and none meets one of the names. -/
def ParamsApart (m : OperateMember TypeDef) (names : List Text) : Prop :=
  (paramNames m).Nodup ∧ ∀ id ∈ paramNames m, id ∉ names

/-- No parameter meets one of the helper variables. -/
def HelpersApart (m : OperateMember TypeDef) (names : List Text) : Prop :=
  ∀ id ∈ paramNames m, id ∉ names

/-- The methods emitted for an interface, at the counter before it. -/
structure InterfaceApart (list : List (OperateMember TypeDef))
    (varidx : Nat) : Prop where
  params :
    ∀ m ∈ list, ParamsApart m (delegateOwnNames m ++ proxyOwnNames m)
  delegates :
    ForCounted delegateCount
      (fun m varidx => HelpersApart m (delegateHelpers m varidx)) list varidx
  proxies :
    ForCounted proxyCount
      (fun m varidx => HelpersApart m (proxyHelpers m varidx)) list
      (varidx + (list.map delegateCount).sum)

theorem hygienic_iff {method : JavaMethod} {m : OperateMember TypeDef}
    (fixed numbered : List Text) (isNames : method.idlNames = paramNames m)
    (own :
      ∀ id ∈ paramNames m,
        id ∉ method.ownNames ↔ id ∉ fixed ∧ id ∉ numbered) :
    method.Hygienic ↔ ParamsApart m fixed ∧ HelpersApart m numbered := by
  constructor
  · intro hygienic
    have distinct := hygienic.distinct
    have apart := hygienic.apart
    rw [isNames] at distinct apart
    exact
      ⟨⟨distinct, fun id isParam =>
          ((own id isParam).mp (apart id isParam)).1⟩,
        fun id isParam => ((own id isParam).mp (apart id isParam)).2⟩
  · intro parts
    obtain ⟨⟨distinct, fixedApart⟩, numberedApart⟩ := parts
    constructor
    · rw [isNames]
      exact distinct
    · rw [isNames]
      intro id isParam
      exact
        (own id isParam).mpr
          ⟨fixedApart id isParam, numberedApart id isParam⟩

section Renamed

variable {m : OperateMember TypeDef}

theorem paramsApart_append (left right : List Text) :
    ParamsApart m (left ++ right) ↔
      ParamsApart m left ∧ ParamsApart m right := by
  simp only [ParamsApart, List.mem_append, not_or, forall_and]
  tauto

theorem helpersApart_append (left right : List Text) :
    HelpersApart m (left ++ right) ↔
      HelpersApart m left ∧ HelpersApart m right := by
  simp only [HelpersApart, List.mem_append, not_or, forall_and]

theorem servantStub_hygienic_iff :
    (servantStub m).Hygienic ↔ ParamsApart m ["ctx".toList] := by
  rw [hygienic_iff ["ctx".toList] [] rfl
    (by simp [servantStub])]
  simp [HelpersApart]

/-- After the renaming no parameter is called `m`, `r`, `cr` or `m2`. -/
theorem ne_of_renamed (renamed : ∀ p ∈ m.params, p.id ∉ reservedParams)
    {id : Text} (isParam : id ∈ paramNames m) :
    id ≠ "m".toList ∧ id ≠ "r".toList ∧ id ≠ "cr".toList ∧
      id ≠ "m2".toList := by
  obtain ⟨p, member, rfl⟩ := List.mem_map.mp isParam
  have notReserved := renamed p member
  refine ⟨?_, ?_, ?_, ?_⟩ <;>
    exact fun same => notReserved (same ▸ by decide)

theorem delegateJava_hygienic_iff
    (renamed : ∀ p ∈ m.params, p.id ∉ reservedParams) (varidx : Nat) :
    (∀ method ∈ delegateJava m varidx, method.Hygienic) ↔
      ParamsApart m (delegateOwnNames m) ∧
        HelpersApart m (delegateHelpers m varidx) := by
  rw [delegateJava, List.forall_mem_singleton]
  apply hygienic_iff _ _ rfl
  intro id isParam
  obtain ⟨notM, notR, notCr, -⟩ := ne_of_renamed renamed isParam
  have notEmpty : m.params.isEmpty = false := by
    obtain ⟨p, member, -⟩ := List.mem_map.mp isParam
    exact List.isEmpty_eq_false_iff.mpr (List.ne_nil_of_mem member)
  rw [delegateOwnNames, delegateHelpers, notEmpty]
  by_cases isVoid : m.type.isVoid = true
  · rw [if_pos isVoid, if_pos isVoid]
    simp only [List.mem_append, List.mem_cons, List.not_mem_nil, or_false,
      not_or, notM, notR, Bool.false_eq_true, if_false]
    simp only [and_assoc, and_left_comm, and_comm]
  · rw [if_neg isVoid, if_neg isVoid]
    simp only [List.mem_append, List.mem_cons, List.not_mem_nil, or_false,
      not_or, notM, notR, notCr, Bool.false_eq_true, if_false,
      not_false_eq_true, true_and]
    simp only [and_assoc, and_left_comm, and_comm]

theorem proxyJava_hygienic_iff
    (renamed : ∀ p ∈ m.params, p.id ∉ reservedParams) (varidx : Nat) :
    (∀ method ∈ proxyJava m varidx, method.Hygienic) ↔
      ParamsApart m (proxyOwnNames m) ∧
        HelpersApart m (proxyHelpers m varidx) := by
  rw [proxyJava, List.forall_mem_cons, List.forall_mem_singleton,
    proxyOwnNames, proxyHelpers, paramsApart_append, helpersApart_append,
    and_and_and_comm]
  apply and_congr
  · apply hygienic_iff _ _ rfl
    intro id isParam
    obtain ⟨notM, notR, -, notM2⟩ := ne_of_renamed renamed isParam
    rw [twoWayHelpers]
    by_cases isVoid : m.type.isVoid = true
    · rw [if_pos isVoid]
      simp only [List.mem_append, List.mem_cons, List.not_mem_nil, or_false,
        not_or, notM, notR]
      simp only [and_assoc, and_left_comm, and_comm]
    · rw [if_neg isVoid]
      simp only [List.mem_append, List.mem_cons, List.not_mem_nil, or_false,
        not_or, notM, notR, notM2]
      simp only [and_assoc, and_left_comm, and_comm]
  · by_cases isVoid : m.type.isVoid = true
    · rw [if_pos isVoid, if_pos isVoid]
      apply hygienic_iff _ _ rfl
      intro id isParam
      obtain ⟨notM, notR, -, -⟩ := ne_of_renamed renamed isParam
      simp only [List.mem_append, List.mem_cons, List.not_mem_nil, or_false,
        not_or, notM, notR]
    · rw [if_neg isVoid, if_neg isVoid]
      apply hygienic_iff _ _ rfl
      intro id isParam
      obtain ⟨notM, notR, -, -⟩ := ne_of_renamed renamed isParam
      simp only [List.mem_append, List.mem_cons, List.not_mem_nil, or_false,
        not_or, notM, notR]

end Renamed

theorem interfaceMethods_hygienic_iff {list : List (OperateMember TypeDef)}
    (renamed : ∀ m ∈ list, ∀ p ∈ m.params, p.id ∉ reservedParams)
    (varidx : Nat) :
    (∀ method ∈ interfaceMethods list varidx, method.Hygienic) ↔
      InterfaceApart list varidx := by
  have delegates (varidx : Nat) :=
    forCounted_congr delegateCount list
      (fun m isMethod => delegateJava_hygienic_iff (renamed m isMethod))
      varidx
  have proxies (varidx : Nat) :=
    forCounted_congr proxyCount list
      (fun m isMethod => proxyJava_hygienic_iff (renamed m isMethod)) varidx
  have stub (m : OperateMember TypeDef)
      (apart : ParamsApart m (delegateOwnNames m)) :
      ParamsApart m ["ctx".toList] := by
    refine ⟨apart.1, fun id isParam meets => apart.2 id isParam ?_⟩
    rw [List.mem_singleton.mp meets]
    simp [delegateOwnNames]
  simp only [interfaceMethods, List.forall_mem_append, List.forall_mem_map,
    servantStub_hygienic_iff, forall_emitAll, delegates, proxies,
    forCounted_and, List.forall_mem_singleton]
  constructor
  · intro hygienic
    obtain ⟨⟨⟨-, ownDelegates, delegates⟩, ownProxies, proxies⟩, -⟩ :=
      hygienic
    refine ⟨?_, delegates, proxies⟩
    intro m isMethod
    rw [paramsApart_append]
    exact ⟨ownDelegates m isMethod, ownProxies m isMethod⟩
  · intro apart
    have params := apart.params
    simp only [paramsApart_append] at params
    refine
      ⟨⟨⟨fun m isMethod => stub m (params m isMethod).1,
          fun m isMethod => (params m isMethod).1, apart.delegates⟩,
        fun m isMethod => (params m isMethod).2, apart.proxies⟩, ?_⟩
    constructor
    · exact List.nodup_nil
    · intro id isName
      cases isName

/-! ## The unit -/

def sequenceMethods (type : TypeDef) (varidx : Nat) : List JavaMethod :=
  let items := if type.isCollection then 1 else 0
  [{ name := "marshall".toList
     idlNames := []
     ownNames :=
       ["xml".toList, "item".toList] ++ helpers "_b".toList varidx items },
    { name := "unmarshall".toList
      idlNames := []
      ownNames :=
        ["xmlnode".toList, "parentNode".toList, "r".toList,
            "nodes".toList, "node".toList, "_p".toList] ++
          helpers "_b".toList (varidx + items) 1 ++
          helpers "_b".toList (varidx + items + 1) items ++
            ["e".toList] }]

theorem createCodeSequence_eq {name : Text} {type : TypeDef}
    (generates : (TypeDef.sequence name type).Generates) (varidx : Nat) :
    createCodeSequence name type varidx =
      .ok
        (sequenceMethods type varidx,
          varidx + if type.isCollection then 3 else 1) := by
  obtain ⟨tag, itemTag⟩ := generates
  obtain ⟨tagText, isTag⟩ := (completes_xmlTag name).mpr tag
  obtain ⟨itemText, isItemTag⟩ := (completes_xmlTag type.name).mpr itemTag
  rw [createCodeSequence, isTag]
  cases type <;>
    simp only [bind, Except.bind, serialMember, isItemTag] <;> rfl

namespace TypeDef

/-- The number of helper variables of the classes of a definition. -/
def variants : TypeDef → Nat
  | .struct _ list => writtenHelpers list + readHelpers list
  | .sequence _ type => if type.isCollection then 3 else 1
  | .interface _ list => interfaceCount list
  | _ => 0

/-- The methods of the classes of a definition, at the counter before it. -/
def methods : TypeDef → Nat → List JavaMethod
  | .struct _ list, varidx => structMethods list varidx
  | .sequence _ type, varidx => sequenceMethods type varidx
  | .interface _ list, varidx => interfaceMethods list varidx
  | _, _ => []

/-- The names in a definition meet no variable of its classes. -/
def NamesApart : TypeDef → Nat → Prop
  | .struct _ list, varidx => StructApart list varidx
  | .interface _ list, varidx => InterfaceApart list varidx
  | _, _ => True

end TypeDef

theorem createCodeFrame_eq (e : TypeDef) (generates : e.Generates)
    (varidx : Nat) :
    createCodeFrame e varidx = .ok (e.methods varidx, varidx + e.variants) := by
  cases e with
  | void => rfl
  | builtin basic => rfl
  | struct name list => exact createCodeStruct_eq generates varidx
  | sequence name type => exact createCodeSequence_eq generates varidx
  | dictionary name first second => rfl
  | interface name list => exact createCodeInterface_eq generates varidx

theorem methods_hygienic_iff {e : TypeDef} (formed : e.Formed)
    (varidx : Nat) :
    (∀ method ∈ e.methods varidx, method.Hygienic) ↔
      e.NamesApart varidx := by
  cases e with
  | void => simp [TypeDef.methods, TypeDef.NamesApart]
  | builtin basic => simp [TypeDef.methods, TypeDef.NamesApart]
  | struct name list => exact structMethods_hygienic_iff formed varidx
  | sequence name type =>
      change _ ↔ True
      rw [iff_true]
      intro method member
      simp only [TypeDef.methods, sequenceMethods, List.mem_pair] at member
      rcases member with rfl | rfl
      · exact ⟨List.nodup_nil, fun id isName => by cases isName⟩
      · exact ⟨List.nodup_nil, fun id isName => by cases isName⟩
  | dictionary name first second =>
      simp [TypeDef.methods, TypeDef.NamesApart]
  | interface name list =>
      exact interfaceMethods_hygienic_iff formed.2 varidx

/-- The names of all definitions, with the counter that each finds. -/
def NamesApart (unit : List TypeDef) : Prop :=
  ForCounted TypeDef.variants TypeDef.NamesApart unit 0

/-- The classes of the definitions that the generator has finished are
hygienic exactly when the names in these definitions are kept apart. -/
theorem createCodes_hygienic_iff {text : Text} {unit : List TypeDef}
    (accepted : Accepts text unit) :
    ∀ finished, finished <+: unit →
      ((∀ methods, createCodes finished = .ok methods →
          ∀ method ∈ methods, method.Hygienic) ↔
        ((∀ e ∈ finished, e.Generates) → NamesApart finished)) := by
  intro finished isPrefix
  obtain ⟨tree, -, parsed⟩ := accepted
  have formed : ∀ e ∈ finished, e.Formed := by
    intro e member
    exact (pStart_inOrder parsed).2 e (isPrefix.subset member)
  have apart :=
    forCounted_congr TypeDef.variants finished
      (fun e member => methods_hygienic_iff (formed e member)) 0
  have emitted (generates : ∀ e ∈ finished, e.Generates) :
      createCodes finished =
        .ok (emitAll TypeDef.methods TypeDef.variants finished 0) := by
    have frames :=
      forEach_eq _ (fun e => createCodeFrame_eq e) finished generates 0
    rw [createCodes, frames]
    rfl
  constructor
  · intro hygienic generates
    rw [NamesApart, ← apart, ← forall_emitAll]
    exact hygienic _ (emitted generates)
  · intro kept methods ended
    have generates := (completes_createCodes finished).mp ⟨methods, ended⟩
    rw [emitted generates] at ended
    cases ended
    rw [forall_emitAll, apart]
    exact kept generates

/-- The unit of `struct a_t{int x;};interface i{a_t f(a_t p,a_t q);};`, where
the parser renames a parameter. -/
private def sampleUnit : List TypeDef :=
  let a : TypeDef :=
    .struct "a_t".toList [{ type := .builtin .int, id := "x".toList }]
  [a,
    .interface "i".toList
      [{ name := "f".toList
         type := a
         params :=
           [{ type := a, id := "p_".toList },
             { type := a, id := "q".toList }] }]]

/-- Its member and the two parameters meet no variable. -/
theorem createCodes_hygienic_sample :
    ∃ methods,
      createCodes sampleUnit = .ok methods ∧
        ∀ method ∈ methods, method.Hygienic := by
  let a : Identifier := { text := "a_t".toList, valid := by decide }
  have accepted :
      Accepts
        "struct a_t{int x;};interface i{a_t f(a_t p,a_t q);};".toList
        sampleUnit :=
    ⟨.more
        (.struct a
          (.one
            { type := { text := "int".toList, valid := by decide }
              id := { text := "x".toList, valid := by decide } }))
        (.one
          (.interface { text := "i".toList, valid := by decide }
            (.one
              { callreturn := a
                name := { text := "f".toList, valid := by decide }
                params :=
                  .more
                    { type := a
                      id := { text := "p".toList, valid := by decide } }
                    (.one
                      { type := a
                        id :=
                          { text := "q".toList
                            valid := by decide } }) }))),
      by decide +kernel, rfl⟩
  refine ⟨_, rfl, ?_⟩
  refine
    (createCodes_hygienic_iff accepted _ (List.prefix_refl _)).mpr ?_ _ rfl
  intro _
  refine ⟨?_, ⟨?_, ?_, ?_⟩, trivial⟩
  · intro id used
    have isX : id = "x".toList := List.mem_singleton.mp used
    rw [isX]
    decide
  · intro m isMethod
    rw [List.mem_singleton.mp isMethod]
    exact ⟨by decide, by decide⟩
  · exact ⟨by unfold HelpersApart; decide, trivial⟩
  · exact ⟨by unfold HelpersApart; decide, trivial⟩

/-- A member that is called like a variable of `marshall`, and two parameters
that the renaming makes equal. -/
theorem emitted_names_meet :
    (∃ unit methods,
        Accepts "struct a_t{int xml;};".toList unit ∧
          createCodes unit = .ok methods ∧
            ∃ method ∈ methods, ¬ method.Hygienic) ∧
      ∃ unit methods,
        Accepts
            "struct a_t{int x;};interface i{void f(a_t m,a_t m_);};".toList
            unit ∧
          createCodes unit = .ok methods ∧
            ∃ method ∈ methods, ¬ method.Hygienic := by
  let int : Identifier := { text := "int".toList, valid := by decide }
  let a : Identifier := { text := "a_t".toList, valid := by decide }
  constructor
  · refine
      ⟨_, _,
        ⟨.one
          (.struct a
            (.one
              { type := int
                id := { text := "xml".toList, valid := by decide } })),
          by decide +kernel, rfl⟩,
        rfl, _, List.mem_cons_self, ?_⟩
    intro hygienic
    exact hygienic.apart "xml".toList (by decide) (by decide)
  · refine
      ⟨_, _,
        ⟨.more
          (.struct a
            (.one
              { type := int
                id := { text := "x".toList, valid := by decide } }))
          (.one
            (.interface { text := "i".toList, valid := by decide }
              (.one
                { callreturn := { text := "void".toList, valid := by decide }
                  name := { text := "f".toList, valid := by decide }
                  params :=
                    .more
                      { type := a
                        id := { text := "m".toList, valid := by decide } }
                      (.one
                        { type := a
                          id :=
                            { text := "m_".toList
                              valid := by decide } }) }))),
          by decide +kernel, rfl⟩,
        rfl, _, List.mem_cons_of_mem _ (List.mem_cons_of_mem _
          List.mem_cons_self), ?_⟩
    intro hygienic
    exact absurd hygienic.distinct (by decide)

end LocationServer
