import LocationServer.Foundation.Declarations
import LocationServer.Idl.Syntax

/-!
# The scopes of a unit

Every action that enters a type into `types_def` has looked up its name in the
table before, and the types that it mentions came out of the table.  So the
table is at all times a list of declarations in order, and the unit is the
table without the builtin types.
-/

namespace LocationServer

open Xml

theorem bind_eq_ok {Fault α β : Type} {first : Except Fault α}
    {next : α → Except Fault β} {result : β} :
    (first >>= next) = .ok result ↔
      ∃ value, first = .ok value ∧ next value = .ok result := by
  cases first with
  | error fault => simp [bind, Except.bind]
  | ok value => simp [bind, Except.bind]

/-! ## The table -/

theorem mem_of_getTypeDef {types_def : TypesDef} {name : Text}
    {type : TypeDef} (found : getTypeDef types_def name = some type) :
    type ∈ types_def :=
  List.mem_of_find?_eq_some found

theorem not_mem_of_getTypeDef {types_def : TypesDef} {name : Text}
    (absent : ¬ (getTypeDef types_def name).isSome = true) :
    name ∉ types_def.map TypeDef.name := by
  intro member
  obtain ⟨type, isType, rfl⟩ := List.mem_map.mp member
  exact
    absent (List.find?_isSome.mpr ⟨type, isType, decide_eq_true rfl⟩)

/-! ## What the actions refer to -/

section Actions

variable {types_def : TypesDef}

theorem pType_mem {name : Identifier} {type : TypeDef}
    (accepted : pType types_def name = .ok type) : type ∈ types_def := by
  rw [pType] at accepted
  split at accepted
  · rename_i found
    cases accepted
    exact mem_of_getTypeDef found
  · cases accepted

theorem pTypeId_mem {tree : TypeIdTree} {member : TypeId TypeDef}
    (accepted : pTypeId types_def tree = .ok member) :
    member.type ∈ types_def := by
  obtain ⟨type, isType, checked⟩ := bind_eq_ok.mp accepted
  split at checked
  · cases checked
    exact pType_mem isType
  · cases checked

/-- What holds of each item holds of the list. -/
theorem pProductions_forall {α β : Type} {pItem : α → Except ParseFault β}
    {good : β → Prop}
    (each : ∀ tree item, pItem tree = .ok item → good item)
    (tree : Productions α) :
    ∀ items, pProductions pItem tree = .ok items →
      ∀ item ∈ items, good item := by
  induction tree with
  | one tree =>
      intro items accepted item member
      obtain ⟨first, isFirst, done⟩ := bind_eq_ok.mp accepted
      cases done
      rw [List.mem_singleton.mp member]
      exact each tree first isFirst
  | more tree rest inductionHypothesis =>
      intro items accepted item member
      obtain ⟨first, isFirst, accepted⟩ := bind_eq_ok.mp accepted
      obtain ⟨others, areOthers, done⟩ := bind_eq_ok.mp accepted
      cases done
      rcases List.mem_append.mp member with isOther | isLast
      · exact inductionHypothesis others areOthers item isOther
      · rw [List.mem_singleton.mp isLast]
        exact each tree first isFirst

theorem pOperateparams_mem (tree : OperateParams) :
    ∀ params, pOperateparams types_def tree = .ok params →
      ∀ param ∈ params, param.type ∈ types_def := by
  induction tree with
  | empty =>
      intro params accepted param member
      cases accepted
      cases member
  | one tree =>
      intro params accepted param member
      obtain ⟨first, isFirst, done⟩ := bind_eq_ok.mp accepted
      cases done
      rw [List.mem_singleton.mp member]
      exact pTypeId_mem isFirst
  | more tree rest inductionHypothesis =>
      intro params accepted param member
      obtain ⟨first, isFirst, accepted⟩ := bind_eq_ok.mp accepted
      obtain ⟨others, areOthers, done⟩ := bind_eq_ok.mp accepted
      cases done
      rcases List.mem_append.mp member with isOther | isLast
      · exact inductionHypothesis others areOthers param isOther
      · rw [List.mem_singleton.mp isLast]
        exact pTypeId_mem isFirst

theorem renameParam_not_reserved (id : Text) :
    renameParam id ∉ reservedParams := by
  have renamed : ∀ id ∈ reservedParams, id ++ ['_'] ∉ reservedParams := by
    decide
  rw [renameParam]
  split
  · rename_i reserved
    exact renamed id (List.contains_iff_mem.mp reserved)
  · rename_i notReserved
    exact fun member => notReserved (List.contains_iff_mem.mpr member)

theorem pOperatemember_renamed {tree : OperateMemberTree}
    {opm : OperateMember TypeDef}
    (accepted : pOperatemember types_def tree = .ok opm) :
    ∀ param ∈ opm.params, param.id ∉ reservedParams := by
  obtain ⟨type, -, accepted⟩ := bind_eq_ok.mp accepted
  obtain ⟨params, -, done⟩ := bind_eq_ok.mp accepted
  cases done
  intro param member
  obtain ⟨before, -, rfl⟩ := List.mem_map.mp member
  exact renameParam_not_reserved before.id

theorem pOperatemember_mem {tree : OperateMemberTree}
    {opm : OperateMember TypeDef}
    (accepted : pOperatemember types_def tree = .ok opm) :
    opm.type ∈ types_def ∧ ∀ param ∈ opm.params, param.type ∈ types_def := by
  obtain ⟨type, isType, accepted⟩ := bind_eq_ok.mp accepted
  obtain ⟨params, areParams, done⟩ := bind_eq_ok.mp accepted
  cases done
  refine ⟨pType_mem isType, ?_⟩
  intro param member
  obtain ⟨before, isBefore, rfl⟩ := List.mem_map.mp member
  exact
    pOperateparams_mem tree.params params areParams before
      (List.mem_reverse.mp isBefore)

theorem createMembers_eq {β : Type} {name : β → Text} (members : List β) :
    ∀ list result, createMembers name list members = .ok result →
      (list.map name).Nodup →
        result = list ++ members ∧ (result.map name).Nodup := by
  induction members with
  | nil =>
      intro list result created nodup
      cases created
      exact ⟨(List.append_nil list).symm, nodup⟩
  | cons member members inductionHypothesis =>
      intro list result created nodup
      rw [createMembers] at created
      split at created
      · cases created
      · rename_i fresh
        have extended : ((list ++ [member]).map name).Nodup := by
          rw [List.map_append, List.nodup_append]
          refine ⟨nodup, List.nodup_singleton _, ?_⟩
          rintro left isLeft right isRight rfl
          rw [List.map_singleton, List.mem_singleton] at isRight
          exact fresh (List.contains_iff_mem.mpr (isRight ▸ isLeft))
        obtain ⟨isResult, resultNodup⟩ :=
          inductionHypothesis _ _ created extended
        exact ⟨by rw [isResult, List.append_assoc]; rfl, resultNodup⟩

/-- The members of a definition are told apart by their names, and no
parameter has a name that is to be changed. -/
def TypeDef.Formed : TypeDef → Prop
  | .struct _ list => (list.map TypeId.id).Nodup
  | .interface _ list =>
      (list.map OperateMember.name).Nodup ∧
        ∀ m ∈ list, ∀ p ∈ m.params, p.id ∉ reservedParams
  | _ => True

/-- What an action adds to the table: one type with a new name that mentions
types of the table only. -/
structure Extends (types_def : TypesDef) (d : TypeDef)
    (extended : TypesDef) : Prop where
  table : extended = d :: types_def
  fresh : d.name ∉ types_def.map TypeDef.name
  declared : ∀ reference ∈ d.references, reference ∈ types_def
  formed : d.Formed

theorem pStructDef_extends {name : Identifier}
    {datamembers : Productions TypeIdTree} {d : TypeDef}
    {extended : TypesDef}
    (accepted :
      pStructDef types_def name datamembers = .ok (d, extended)) :
    Extends types_def d extended := by
  obtain ⟨members, areMembers, accepted⟩ := bind_eq_ok.mp accepted
  split at accepted
  · cases accepted
  · rename_i absent
    obtain ⟨list, created, done⟩ := bind_eq_ok.mp accepted
    cases done
    obtain ⟨isList, distinct⟩ :=
      createMembers_eq _ _ _ created List.nodup_nil
    refine ⟨rfl, not_mem_of_getTypeDef absent, ?_, distinct⟩
    intro reference isReference
    obtain ⟨member, isMember, rfl⟩ := List.mem_map.mp isReference
    rw [isList, List.nil_append, List.mem_reverse] at isMember
    exact
      pProductions_forall (fun _ _ => pTypeId_mem) datamembers members
        areMembers member isMember

theorem pInterfaceDef_extends {name : Identifier}
    {operatemembers : Productions OperateMemberTree} {d : TypeDef}
    {extended : TypesDef}
    (accepted :
      pInterfaceDef types_def name operatemembers = .ok (d, extended)) :
    Extends types_def d extended := by
  obtain ⟨opms, areOpms, accepted⟩ := bind_eq_ok.mp accepted
  split at accepted
  · cases accepted
  · rename_i absent
    obtain ⟨list, created, done⟩ := bind_eq_ok.mp accepted
    cases done
    obtain ⟨isList, distinct⟩ :=
      createMembers_eq _ _ _ created List.nodup_nil
    refine ⟨rfl, not_mem_of_getTypeDef absent, ?_, distinct, ?_⟩
    · intro reference isReference
      obtain ⟨opm, isOpm, mentions⟩ := List.mem_flatMap.mp isReference
      rw [isList, List.nil_append, List.mem_reverse] at isOpm
      have inTable :=
        pProductions_forall (fun _ _ => pOperatemember_mem) operatemembers
          opms areOpms opm isOpm
      cases mentions with
      | head => exact inTable.1
      | tail _ isParam =>
          obtain ⟨param, isMember, rfl⟩ := List.mem_map.mp isParam
          exact inTable.2 param isMember
    · intro opm isOpm
      rw [isList, List.nil_append, List.mem_reverse] at isOpm
      exact
        pProductions_forall (fun _ _ => pOperatemember_renamed)
          operatemembers opms areOpms opm isOpm

theorem pSequenceDef_extends {type name : Identifier} {d : TypeDef}
    {extended : TypesDef}
    (accepted : pSequenceDef types_def type name = .ok (d, extended)) :
    Extends types_def d extended := by
  obtain ⟨item, isItem, accepted⟩ := bind_eq_ok.mp accepted
  split at accepted
  · cases accepted
  · split at accepted
    · cases accepted
    · rename_i absent
      cases accepted
      refine ⟨rfl, not_mem_of_getTypeDef absent, ?_, trivial⟩
      intro reference isReference
      rw [List.mem_singleton.mp isReference]
      exact pType_mem isItem

theorem pDictionaryDef_extends {first second name : Identifier}
    {d : TypeDef} {extended : TypesDef}
    (accepted :
      pDictionaryDef types_def first second name = .ok (d, extended)) :
    Extends types_def d extended := by
  obtain ⟨key, isKey, accepted⟩ := bind_eq_ok.mp accepted
  obtain ⟨value, isValue, accepted⟩ := bind_eq_ok.mp accepted
  split at accepted
  · cases accepted
  · split at accepted
    · cases accepted
    · rename_i absent
      cases accepted
      refine ⟨rfl, not_mem_of_getTypeDef absent, ?_, trivial⟩
      intro reference isReference
      rcases List.mem_pair.mp isReference with rfl | rfl
      · exact pType_mem isKey
      · exact pType_mem isValue

theorem pDefination_extends {defination : Defination} {d : TypeDef}
    {extended : TypesDef}
    (accepted : pDefination types_def defination = .ok (d, extended)) :
    Extends types_def d extended := by
  cases defination with
  | struct name datamembers => exact pStructDef_extends accepted
  | interface name operatemembers => exact pInterfaceDef_extends accepted
  | sequence type name => exact pSequenceDef_extends accepted
  | dictionary first second name => exact pDictionaryDef_extends accepted
  | empty => cases accepted

end Actions

/-! ## The unit -/

/-- The types of a text in order, the latest first, over the table before. -/
abbrev DeclaredInOrder : TypesDef → List TypeDef → Prop :=
  Declarations.InOrder TypeDef.name TypeDef.references

/-- The actions of a list of definitions put its types in front of the
table. -/
theorem pDefinations_inOrder (tree : Definations) :
    ∀ types_def defs extended,
      pDefinations types_def tree = .ok (defs, extended) →
        extended = defs ++ types_def ∧ DeclaredInOrder types_def defs ∧
          ∀ d ∈ defs, d.Formed := by
  induction tree with
  | one defination =>
      intro types_def defs extended accepted
      obtain ⟨⟨d, table⟩, isFirst, done⟩ := bind_eq_ok.mp accepted
      cases done
      have first := pDefination_extends isFirst
      refine ⟨first.table, ⟨⟨first.fresh, first.declared⟩, trivial⟩, ?_⟩
      rw [List.forall_mem_singleton]
      exact first.formed
  | more defination rest inductionHypothesis =>
      intro types_def defs extended accepted
      obtain ⟨⟨d, table⟩, isFirst, accepted⟩ := bind_eq_ok.mp accepted
      obtain ⟨⟨others, final⟩, areOthers, done⟩ := bind_eq_ok.mp accepted
      cases done
      have first := pDefination_extends isFirst
      obtain ⟨isTable, inOrder, formed⟩ :=
        inductionHypothesis _ _ _ areOthers
      rw [first.table] at isTable inOrder
      refine ⟨?_, ?_, ?_⟩
      · rw [isTable, List.append_assoc]
        rfl
      · exact
          Declarations.InOrder.append inOrder
            ⟨⟨first.fresh, first.declared⟩, trivial⟩
      · rw [List.forall_mem_append, List.forall_mem_singleton]
        exact ⟨formed, first.formed⟩

theorem pStart_inOrder {tree : Definations} {unit : List TypeDef}
    (accepted : pStart tree = .ok unit) :
    DeclaredInOrder initBuiltinTypes unit.reverse ∧
      ∀ d ∈ unit, d.Formed := by
  obtain ⟨⟨defs, table⟩, areDefs, done⟩ := bind_eq_ok.mp accepted
  cases done
  obtain ⟨-, inOrder, formed⟩ := pDefinations_inOrder tree _ _ _ areDefs
  rw [List.reverse_reverse]
  exact ⟨inOrder, fun d member => formed d (List.mem_reverse.mp member)⟩

/-- The scopes of a unit, in the order of its text. -/
structure WellScoped (unit : List TypeDef) : Prop where
  distinct : (unit.map TypeDef.name).Nodup
  notBuiltin : ∀ d ∈ unit, d.name ∉ initBuiltinTypes.map TypeDef.name
  declared :
    ∀ earlier d later, unit = earlier ++ d :: later →
      ∀ reference ∈ d.references,
        reference ∈ initBuiltinTypes ∨ reference ∈ earlier
  acyclic :
    ∀ name,
      ¬ Relation.TransGen
          (Declarations.Refers TypeDef.name TypeDef.references unit)
          name name

theorem wellScoped_of_inOrder {unit : List TypeDef}
    (inOrder : DeclaredInOrder initBuiltinTypes unit.reverse) :
    WellScoped unit := by
  constructor
  · have nodup := inOrder.nodup
    rw [List.map_reverse, List.nodup_reverse] at nodup
    exact nodup
  · intro d member
    exact inOrder.not_mem_base (List.mem_reverse.mpr member)
  · intro earlier d later split reference isReference
    rw [split, List.reverse_append, List.reverse_cons, List.append_assoc,
      List.singleton_append] at inOrder
    have standsBefore := inOrder.declared reference isReference
    rw [List.mem_append, List.mem_reverse] at standsBefore
    exact standsBefore.symm
  · intro name cycle
    apply inOrder.acyclic name
    refine Relation.TransGen.mono ?_ _ _ cycle
    rintro source target ⟨d, member, refers⟩
    exact ⟨d, List.mem_reverse.mpr member, refers⟩

theorem WellScoped.mem_of_reference {unit : List TypeDef}
    (wellScoped : WellScoped unit) {d reference : TypeDef} (member : d ∈ unit)
    (isReference : reference ∈ d.references) :
    reference ∈ initBuiltinTypes ∨ reference ∈ unit := by
  obtain ⟨earlier, later, split⟩ := List.append_of_mem member
  have declared :=
    wellScoped.declared earlier d later split reference isReference
  refine declared.imp_right ?_
  intro isEarlier
  rw [split]
  exact List.mem_append_left _ isEarlier

theorem accepted_wellScoped (text : Text) (unit : List TypeDef)
    (accepted : Accepts text unit) : WellScoped unit := by
  obtain ⟨tree, -, parsed⟩ := accepted
  exact wellScoped_of_inOrder (pStart_inOrder parsed).1

theorem accepted_wellScoped_sample :
    WellScoped
      [.struct "a_t".toList [{ type := .builtin .int, id := "x".toList }],
        .sequence "b_t".toList
          (.struct "a_t".toList
            [{ type := .builtin .int, id := "x".toList }])] := by
  refine
    accepted_wellScoped "struct a_t{int x;};sequence<a_t> b_t;".toList _
      ⟨.more
        (.struct { text := "a_t".toList, valid := by decide }
          (.one
            { type := { text := "int".toList, valid := by decide }
              id := { text := "x".toList, valid := by decide } }))
        (.one
          (.sequence { text := "a_t".toList, valid := by decide }
            { text := "b_t".toList, valid := by decide })),
        by decide +kernel, rfl⟩

end LocationServer
