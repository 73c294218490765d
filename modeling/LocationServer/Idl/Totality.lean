import LocationServer.Idl.Generator
import LocationServer.Idl.Scoping

/-!
# When the generator comes to an end

Whether a step of the generator raises does not depend on the number of helper
variables that it has named before.  So a loop comes to an end when its body
does for each item, and the generator when each definition of the unit has the
shape that `TypeDef.Generates` describes.
-/

namespace LocationServer

open Xml

/-! ## Steps that may raise -/

/-- The step comes to an end without a fault. -/
def Completes {Fault α : Type} (step : Except Fault α) : Prop :=
  ∃ result, step = .ok result

section Completes

variable {Fault α β : Type}

@[simp]
theorem completes_ok (result : α) :
    Completes (.ok result : Except Fault α) :=
  ⟨result, rfl⟩

@[simp]
theorem completes_pure (result : α) :
    Completes (pure result : Except Fault α) :=
  ⟨result, rfl⟩

@[simp]
theorem not_completes_error (fault : Fault) :
    ¬ Completes (.error fault : Except Fault α) := by
  rintro ⟨result, ended⟩
  cases ended

/-- A second step whose end does not depend on what the first returns. -/
theorem completes_bind (ends : Prop) {first : Except Fault α}
    {next : α → Except Fault β}
    (independent : ∀ value, Completes (next value) ↔ ends) :
    Completes (first >>= next) ↔ Completes first ∧ ends := by
  constructor
  · rintro ⟨result, ended⟩
    obtain ⟨value, isFirst, isNext⟩ := bind_eq_ok.mp ended
    exact
      ⟨⟨value, isFirst⟩, (independent value).mp ⟨result, isNext⟩⟩
  · rintro ⟨⟨value, isFirst⟩, holds⟩
    obtain ⟨result, isNext⟩ := (independent value).mpr holds
    exact ⟨result, bind_eq_ok.mpr ⟨value, isFirst, isNext⟩⟩

theorem completes_bind_pure {first : Except Fault α} (next : α → β) :
    Completes (first >>= fun value => pure (next value)) ↔
      Completes first := by
  rw [completes_bind True (by simp), and_true]

end Completes

theorem completes_forEach {α β : Type}
    {body : α → Nat → Except GenFault (List β × Nat)}
    {accepts : α → Prop}
    (each : ∀ item varidx, Completes (body item varidx) ↔ accepts item)
    (items : List α) :
    ∀ varidx,
      Completes (forEach body items varidx) ↔
        ∀ item ∈ items, accepts item := by
  induction items with
  | nil =>
      intro varidx
      simp [forEach]
  | cons item items inductionHypothesis =>
      intro varidx
      rw [forEach, completes_bind _, each, List.forall_mem_cons]
      intro emitted
      rw [completes_bind_pure, inductionHypothesis]

/-! ## The steps -/

/-- The name of the type ends in `_t` behind a part for the tag. -/
def TypeDef.HasTag (type : TypeDef) : Prop :=
  (extractXMLTag type.name).isSome = true

/-- An instance of `Builtin`. -/
def TypeDef.isBuiltin : TypeDef → Bool
  | .void => true
  | .builtin _ => true
  | _ => false

/-- A struct or a sequence. -/
def TypeDef.isMessage : TypeDef → Bool
  | .struct _ _ => true
  | .sequence _ _ => true
  | _ => false

def TypeDef.isBool : TypeDef → Bool
  | .builtin .bool => true
  | _ => false

theorem completes_xmlTag (name : Text) :
    Completes (xmlTag name) ↔ (extractXMLTag name).isSome = true := by
  rw [xmlTag, extractXMLTag]
  split
  · rename_i tag others parts
    simp [parts]
  · rename_i lone
    simp [lone]
  · rename_i noTag notLone
    split
    · rename_i tag others parts
      exact absurd parts (noTag tag others)
    · simp

theorem completes_serialMember (type : TypeDef) (varidx : Nat) :
    Completes (serialMember type varidx) := by
  cases type <;> exact completes_ok _

theorem completes_unserialMember (type : TypeDef) (varidx : Nat) :
    Completes (unserialMember type varidx) ↔ ¬ type.isBool = true := by
  cases type with
  | builtin basic =>
      cases basic <;> simp [unserialMember, TypeDef.isBool]
  | void => simp [unserialMember, TypeDef.isBool]
  | struct name list => simp [unserialMember, TypeDef.isBool]
  | sequence name type => simp [unserialMember, TypeDef.isBool]
  | dictionary name first second => simp [unserialMember, TypeDef.isBool]
  | interface name list => simp [unserialMember, TypeDef.isBool]

theorem completes_delegateParam (type : TypeDef) (varidx : Nat) :
    Completes (delegateParam type varidx) ↔ type.HasTag := by
  unfold delegateParam
  rw [completes_bind True, and_true, completes_xmlTag,
    TypeDef.HasTag]
  intro tag
  rw [iff_true]
  split <;> exact completes_pure _

theorem completes_proxyParam (type : TypeDef) (varidx : Nat) :
    Completes (proxyParam type varidx) ↔ ¬ type.isBuiltin = true := by
  cases type <;> simp [proxyParam, TypeDef.isBuiltin]

theorem completes_callReturnBranch (p : Option (TypeId TypeDef))
    (m : OperateMember TypeDef) (varidx : Nat) :
    Completes (callReturnBranch p m varidx) ↔
      (m.type.isVoid = true ∨
        (m.type.HasTag ∧
          (m.type.isBuiltin = true ∨ p.isSome = true))) := by
  unfold callReturnBranch
  by_cases isVoid : m.type.isVoid = true
  · simp [isVoid]
  · rw [if_neg isVoid,
      completes_bind (m.type.isBuiltin = true ∨ p.isSome = true),
      completes_xmlTag, TypeDef.HasTag, or_iff_right isVoid]
    intro tag
    cases p with
    | none =>
        cases isType : m.type <;>
          simp_all [TypeDef.isVoid, TypeDef.isBuiltin]
    | some p =>
        simp only [Option.isSome_some, or_true, iff_true]
        split
        · exact completes_pure _
        · split <;> exact completes_pure _

theorem completes_delegateMethod (m : OperateMember TypeDef)
    (varidx : Nat) :
    Completes (delegateMethod m varidx) ↔
      (∀ p ∈ m.params, p.type.HasTag) ∧
        (m.type.isVoid = true ∨ ¬ m.type.isBuiltin = true) := by
  rw [delegateMethod, completes_bind _,
    completes_forEach completes_delegateParam, paramTypes,
    List.forall_mem_map]
  intro arrays
  rw [completes_bind_pure]
  cases m.type <;>
    simp [delegateResult, TypeDef.isVoid, TypeDef.isBuiltin]

theorem completes_proxyMethods (m : OperateMember TypeDef) (varidx : Nat) :
    Completes (proxyMethods m varidx) ↔
      (∀ p ∈ m.params, ¬ p.type.isBuiltin = true) ∧
        (m.type.isVoid = true ∨ m.type.isMessage = true) := by
  have params (varidx : Nat) :
      Completes (forEach proxyParam (paramTypes m) varidx) ↔
        ∀ p ∈ m.params, ¬ p.type.isBuiltin = true := by
    rw [completes_forEach completes_proxyParam, paramTypes,
      List.forall_mem_map]
  have result (varidx : Nat) :
      Completes (proxyResult m.type varidx) ↔
        m.type.isVoid = true ∨ m.type.isMessage = true := by
    cases m.type <;>
      simp [proxyResult, TypeDef.isVoid, TypeDef.isMessage]
  -- The loop over the parameters runs twice.
  rw [proxyMethods,
    completes_bind
      ((m.type.isVoid = true ∨ m.type.isMessage = true) ∧
        ∀ p ∈ m.params, ¬ p.type.isBuiltin = true), params]
  · rw [and_left_comm, and_self, and_comm]
  · intro helpers
    rw [completes_bind (∀ p ∈ m.params, ¬ p.type.isBuiltin = true),
      result]
    intro names
    rw [completes_bind_pure]
    exact params _

/-! ## The definitions -/

/-- The shape of a definition for which the generator comes to an end. -/
def TypeDef.Generates : TypeDef → Prop
  | .struct name list =>
      (extractXMLTag name).isSome = true ∧
        ∀ m ∈ list, ¬ m.type.isBool = true
  | .sequence name type => (extractXMLTag name).isSome = true ∧ type.HasTag
  | .interface _ list =>
      (∀ m ∈ list,
          (∀ p ∈ m.params, p.type.HasTag) ∧
            (m.type.isVoid = true ∨
              (m.type.isMessage = true ∧ m.type.HasTag))) ∧
        ((∃ m ∈ list, ¬ m.type.isVoid = true) →
          ∃ m ∈ list, m.params ≠ [])
  | _ => True

theorem not_hasTag_of_isBuiltin {type : TypeDef}
    (isBuiltin : type.isBuiltin = true) : ¬ type.HasTag := by
  cases type with
  | void => simp only [TypeDef.HasTag, TypeDef.name]; decide
  | builtin basic =>
      simp only [TypeDef.HasTag, TypeDef.name]
      cases basic <;> decide
  | struct name list => cases isBuiltin
  | sequence name type => cases isBuiltin
  | dictionary name first second => cases isBuiltin
  | interface name list => cases isBuiltin

theorem completes_createCodeStruct (name : Text)
    (list : List (TypeId TypeDef)) (varidx : Nat) :
    Completes (createCodeStruct name list varidx) ↔
      (TypeDef.struct name list).Generates := by
  have written (varidx : Nat) :
      Completes
        (forEach serialMember (list.map TypeId.type) varidx) := by
    have each (type : TypeDef) (varidx : Nat) :
        Completes (serialMember type varidx) ↔ True :=
      iff_true_intro (completes_serialMember type varidx)
    rw [completes_forEach each]
    exact fun _ _ => trivial
  have read (varidx : Nat) :
      Completes (forEach unserialMember (list.map TypeId.type) varidx) ↔
        ∀ m ∈ list, ¬ m.type.isBool = true := by
    rw [completes_forEach completes_unserialMember, List.forall_mem_map]
  rw [createCodeStruct, TypeDef.Generates, completes_bind _,
    completes_xmlTag]
  intro tag
  rw [completes_bind _, and_iff_right (written varidx)]
  intro names
  rw [completes_bind_pure, read]

theorem completes_createCodeSequence (name : Text) (type : TypeDef)
    (varidx : Nat) :
    Completes (createCodeSequence name type varidx) ↔
      (TypeDef.sequence name type).Generates := by
  rw [createCodeSequence, TypeDef.Generates, completes_bind _,
    completes_xmlTag]
  intro tag
  rw [completes_bind _, and_iff_right (completes_serialMember type varidx)]
  intro item
  rw [completes_bind True, and_true, completes_xmlTag,
    TypeDef.HasTag]
  intro itemTag
  rw [completes_bind_pure, iff_true]
  exact completes_serialMember type _

theorem lastParam_isSome (list : List (OperateMember TypeDef)) :
    (lastParam list).isSome = true ↔ ∃ m ∈ list, m.params ≠ [] := by
  rw [lastParam, List.getLast?_isSome, ne_eq, List.flatMap_eq_nil_iff]
  push Not
  rfl

theorem completes_createCodeInterface (name : Text)
    (list : List (OperateMember TypeDef)) (varidx : Nat) :
    Completes (createCodeInterface list varidx) ↔
      (TypeDef.interface name list).Generates := by
  have delegates := completes_forEach completes_delegateMethod list varidx
  have proxies := completes_forEach completes_proxyMethods list
  have branches :=
    completes_forEach (completes_callReturnBranch (lastParam list)) list
  rw [createCodeInterface, completes_bind _, delegates]
  rotate_left
  · intro emitted
    rw [completes_bind _, proxies]
    intro proxies
    rw [completes_bind_pure, branches]
  rw [lastParam_isSome, TypeDef.Generates]
  constructor
  · intro ended
    obtain ⟨delegatesEnd, proxiesEnd, branchesEnd⟩ := ended
    constructor
    · intro m isMethod
      refine ⟨(delegatesEnd m isMethod).1, ?_⟩
      rcases (proxiesEnd m isMethod).2 with isVoid | isMessage
      · exact Or.inl isVoid
      · rcases branchesEnd m isMethod with isVoid | ⟨hasTag, -⟩
        · exact Or.inl isVoid
        · exact Or.inr ⟨isMessage, hasTag⟩
    · rintro ⟨m, isMethod, notVoid⟩
      rcases branchesEnd m isMethod with isVoid | ⟨hasTag, bound⟩
      · exact absurd isVoid notVoid
      · rcases bound with isBuiltin | bound
        · exact absurd hasTag (not_hasTag_of_isBuiltin isBuiltin)
        · exact bound
  · intro generates
    obtain ⟨methods, bound⟩ := generates
    refine ⟨?_, ?_, ?_⟩
    · intro m isMethod
      obtain ⟨params, result⟩ := methods m isMethod
      refine ⟨params, result.imp_right ?_⟩
      rintro ⟨-, hasTag⟩ isBuiltin
      exact not_hasTag_of_isBuiltin isBuiltin hasTag
    · intro m isMethod
      obtain ⟨params, result⟩ := methods m isMethod
      refine ⟨?_, result.imp_right And.left⟩
      intro p isParam isBuiltin
      exact not_hasTag_of_isBuiltin isBuiltin (params p isParam)
    · intro m isMethod
      obtain ⟨-, result⟩ := methods m isMethod
      by_cases isVoid : m.type.isVoid = true
      · exact Or.inl isVoid
      · rcases result with isVoid | ⟨-, hasTag⟩
        · exact Or.inl isVoid
        · exact Or.inr ⟨hasTag, Or.inr (bound ⟨m, isMethod, isVoid⟩)⟩

theorem completes_createCodeFrame (e : TypeDef) (varidx : Nat) :
    Completes (createCodeFrame e varidx) ↔ e.Generates := by
  cases e with
  | void => simp [createCodeFrame, TypeDef.Generates]
  | builtin basic => simp [createCodeFrame, TypeDef.Generates]
  | struct name list => exact completes_createCodeStruct name list varidx
  | sequence name type => exact completes_createCodeSequence name type varidx
  | dictionary name first second =>
      simp [createCodeFrame, TypeDef.Generates]
  | interface name list =>
      exact completes_createCodeInterface name list varidx

theorem completes_createCodes (unit : List TypeDef) :
    Completes (createCodes unit) ↔ ∀ e ∈ unit, e.Generates := by
  rw [createCodes, completes_bind_pure,
    completes_forEach completes_createCodeFrame]

/-! ## The documented input language -/

/-- The limits that the header of the generator states. -/
structure WithinLimits (unit : List TypeDef) : Prop where
  notEmpty : unit ≠ []
  noDictionary :
    ∀ name first second, TypeDef.dictionary name first second ∉ unit
  items :
    ∀ name type, TypeDef.sequence name type ∈ unit →
      ¬ type.isBuiltin = true
  messages :
    ∀ name list, TypeDef.interface name list ∈ unit → ∀ m ∈ list,
      (∀ p ∈ m.params, p.type.isMessage = true) ∧
        (m.type.isVoid = true ∨ m.type.isMessage = true)
  tags : ∀ d ∈ unit, d.isMessage = true → d.HasTag

/-- What the generator asks for within these limits. -/
structure AvoidsFaults (unit : List TypeDef) : Prop where
  noBool :
    ∀ name list, TypeDef.struct name list ∈ unit → ∀ m ∈ list,
      ¬ m.type.isBool = true
  someParam :
    ∀ name list, TypeDef.interface name list ∈ unit →
      (∃ m ∈ list, ¬ m.type.isVoid = true) → ∃ m ∈ list, m.params ≠ []
  interfaceItems :
    ∀ name item list,
      TypeDef.sequence name (.interface item list) ∈ unit →
        (TypeDef.interface item list).HasTag

theorem isBuiltin_of_mem :
    ∀ type ∈ initBuiltinTypes, type.isBuiltin = true := by
  simp [initBuiltinTypes, TypeDef.isBuiltin]

theorem isMessage_not_builtin {type : TypeDef}
    (isMessage : type.isMessage = true) : ¬ type.isBuiltin = true := by
  cases type <;> simp_all [TypeDef.isMessage, TypeDef.isBuiltin]

/-- A type that a definition of the unit mentions and that is not builtin has
its tag. -/
theorem hasTag_of_reference {unit : List TypeDef} (wellScoped : WellScoped unit)
    (limits : WithinLimits unit) {d : TypeDef} (member : d ∈ unit)
    {type : TypeDef} (isReference : type ∈ d.references)
    (isMessage : type.isMessage = true) : type.HasTag := by
  rcases wellScoped.mem_of_reference member isReference with builtin | inUnit
  · exact
      absurd (isBuiltin_of_mem type builtin)
        (isMessage_not_builtin isMessage)
  · exact limits.tags type inUnit isMessage

theorem generates_iff_avoidsFaults {unit : List TypeDef}
    (wellScoped : WellScoped unit) (limits : WithinLimits unit) :
    (∀ e ∈ unit, e.Generates) ↔ AvoidsFaults unit := by
  constructor
  · intro generates
    exact
      { noBool := fun name list member => (generates _ member).2
        someParam := fun name list member => (generates _ member).2
        interfaceItems := fun name item list member =>
          (generates _ member).2 }
  · intro avoids e member
    cases e with
    | void => trivial
    | builtin basic => trivial
    | struct name list =>
        exact
          ⟨limits.tags _ member rfl, avoids.noBool name list member⟩
    | sequence name type =>
        refine ⟨limits.tags _ member rfl, ?_⟩
        have isReference : type ∈ (TypeDef.sequence name type).references :=
          List.mem_singleton_self type
        have notBuiltin := limits.items name type member
        cases type with
        | void => exact absurd rfl notBuiltin
        | builtin basic => exact absurd rfl notBuiltin
        | struct _ _ =>
            exact hasTag_of_reference wellScoped limits member isReference rfl
        | sequence _ _ =>
            exact hasTag_of_reference wellScoped limits member isReference rfl
        | dictionary other first second =>
            rcases wellScoped.mem_of_reference member isReference with
              builtin | inUnit
            · cases isBuiltin_of_mem _ builtin
            · exact
                absurd inUnit (limits.noDictionary other first second)
        | interface item list =>
            exact avoids.interfaceItems name item list member
    | dictionary name first second => trivial
    | interface name list =>
        refine ⟨?_, avoids.someParam name list member⟩
        intro m isMethod
        obtain ⟨params, result⟩ := limits.messages name list member m isMethod
        constructor
        · intro p isParam
          apply
            hasTag_of_reference wellScoped limits member _ (params p isParam)
          exact
            List.mem_flatMap.mpr
              ⟨m, isMethod,
                List.mem_cons_of_mem _ (List.mem_map_of_mem isParam)⟩
        · rcases result with isVoid | isMessage
          · exact Or.inl isVoid
          · refine Or.inr ⟨isMessage, ?_⟩
            apply hasTag_of_reference wellScoped limits member _ isMessage
            exact
              List.mem_flatMap.mpr ⟨m, isMethod, List.mem_cons_self⟩

/-- For an accepted text within the limits the generator comes to an end
exactly when no struct has a bool member, each interface with a result has a
parameter, and an interface in a sequence has a tag. -/
theorem createCodes_completes_iff {text : Text} {unit : List TypeDef}
    (accepted : Accepts text unit) (limits : WithinLimits unit) :
    (∃ methods, createCodes unit = .ok methods) ↔ AvoidsFaults unit := by
  obtain ⟨tree, -, parsed⟩ := accepted
  have wellScoped := wellScoped_of_inOrder (pStart_inOrder parsed).1
  rw [← generates_iff_avoidsFaults wellScoped limits]
  exact completes_createCodes unit

section Samples

private theorem isIdentifier_a : isIdentifier "a_t".toList = true := by
  decide

private theorem isIdentifier_x : isIdentifier "x".toList = true := by
  decide

private def identifier (text : String)
    (valid : isIdentifier text.toList = true) : Identifier where
  text := text.toList
  valid := valid

/-- `struct a_t{int x;}`, with another builtin type for the member. -/
private def structTree (type : String)
    (valid : isIdentifier type.toList = true) : Defination :=
  .struct (identifier "a_t" isIdentifier_a)
    (.one
      { type := identifier type valid, id := identifier "x" isIdentifier_x })

private def structA (basic : Builtin) : TypeDef :=
  .struct "a_t".toList [{ type := .builtin basic, id := "x".toList }]

/-- `interface i{a_t f(..);}` -/
private def interfaceTree (params : OperateParams) : Defination :=
  .interface (identifier "i" (by decide))
    (.one
      { callreturn := identifier "a_t" (by decide)
        name := identifier "f" (by decide)
        params })

private def interfaceI (params : List (TypeId TypeDef)) : TypeDef :=
  .interface "i".toList
    [{ name := "f".toList, type := structA .int, params }]

private theorem samples_withinLimits (basic : Builtin) :
    WithinLimits [structA basic] ∧
      ∀ params : List (TypeId TypeDef),
        (∀ p ∈ params, p.type.isMessage = true) →
          WithinLimits [structA .int, interfaceI params] := by
  have tag (basic : Builtin) : (structA basic).HasTag := by
    change (extractXMLTag "a_t".toList).isSome = true
    decide
  constructor
  · refine
      ⟨by simp, by simp [structA], by simp [structA], by simp [structA], ?_⟩
    intro d member isMessage
    rw [List.mem_singleton.mp member]
    exact tag basic
  · intro params messages
    constructor
    · simp
    · simp [structA, interfaceI]
    · simp [structA, interfaceI]
    · intro name list member m isMethod
      simp only [structA, interfaceI, List.mem_cons, reduceCtorEq,
        List.not_mem_nil, or_false, false_or, TypeDef.interface.injEq]
        at member
      rw [member.2, List.mem_singleton] at isMethod
      rw [isMethod]
      exact ⟨messages, Or.inr rfl⟩
    · intro d member isMessage
      rcases List.mem_pair.mp member with rfl | rfl
      · exact tag .int
      · cases isMessage

theorem createCodes_completes_sample :
    ∃ methods,
      createCodes
        [structA .int,
          interfaceI [{ type := structA .int, id := "p_".toList }]] =
        .ok methods := by
  have accepted :
      Accepts "struct a_t{int x;};interface i{a_t f(a_t p);};".toList
        [structA .int,
          interfaceI [{ type := structA .int, id := "p_".toList }]] :=
    ⟨.more (structTree "int" (by decide))
        (.one
          (interfaceTree
            (.one
              { type := identifier "a_t" (by decide)
                id := identifier "p" (by decide) }))),
      by decide +kernel, rfl⟩
  refine
    (createCodes_completes_iff accepted
      ((samples_withinLimits .int).2 _ (by simp [structA,
        TypeDef.isMessage]))).mpr ⟨?_, ?_, ?_⟩
  · simp [structA, interfaceI, TypeDef.isBool]
  · simp [structA, interfaceI]
  · simp [structA, interfaceI]

/-- A member of type bool, and an interface whose only method has a result and
no parameters, are within the limits and raise an exception. -/
theorem generator_raises_within_limits :
    (Accepts "struct a_t{bool x;};".toList [structA .bool] ∧
        WithinLimits [structA .bool] ∧
          createCodes [structA .bool] = .error .attributeError) ∧
      (Accepts "struct a_t{int x;};interface i{a_t f();};".toList
          [structA .int, interfaceI []] ∧
        WithinLimits [structA .int, interfaceI []] ∧
          createCodes [structA .int, interfaceI []] =
            .error .unboundLocalError) := by
  refine ⟨⟨?_, (samples_withinLimits .bool).1, rfl⟩,
    ?_, (samples_withinLimits .int).2 [] (by simp), rfl⟩
  · exact ⟨.one (structTree "bool" (by decide)), by decide +kernel, rfl⟩
  · exact
      ⟨.more (structTree "int" (by decide)) (.one (interfaceTree .empty)),
        by decide +kernel, rfl⟩

end Samples

end LocationServer
