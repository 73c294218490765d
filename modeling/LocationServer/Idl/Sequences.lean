import LocationServer.Idl.RoundTrip
import Mathlib.Data.List.Forall2

/-!
# The items of a sequence

The emitted `unmarshall` of a sequence asks for the descendants with the tag
of its items, so it takes the direct items alone when nothing with this tag
stands below them.
-/

namespace LocationServer

open Xml

/-! ## Well-formed elements -/

mutual

/-- An element is as `marshall` means to write a value: the builtin members
are attributes, and the others are child elements in the order of the
members. -/
def IdlType.Fits : IdlType → Element → Prop
  | .builtin _, _ => False
  | .struct name varidx members, node =>
      node.name = (IdlType.struct name varidx members).tag ∧
        members.Fits node.elements
  | .sequence name item, node =>
      node.name = (IdlType.sequence name item).tag ∧
        ∀ child ∈ node.elements, item.Fits child

def IdlMembers.Fits : IdlMembers → List Element → Prop
  | .nil, children => children = []
  | .cons _ type rest, children =>
      if type.isBuiltin then rest.Fits children
      else
        ∃ child others,
          children = child :: others ∧ type.Fits child ∧ rest.Fits others

end

section Items

variable [FloatTypes]

/-! ## The loop over the nodes -/

/-- The loop of `unmarshall`: what it returns, and what it has added to
`ds`. -/
def IdlType.addItems (item : IdlType) :
    List Element → List item.Value → Bool × List item.Value
  | [], ds => (true, ds)
  | node :: nodes, ds =>
      if node.name = item.tag then
        match item.unmarshall node with
        | some value => item.addItems nodes (ds ++ [value])
        | none => (false, ds)
      else item.addItems nodes ds

/-- `unmarshall(xmlnode, null)` of the helper of a sequence. -/
def IdlType.unmarshallItems (name : Identifier) (item : IdlType)
    (ds : List item.Value) (node : Element) : Bool × List item.Value :=
  if node.name = (IdlType.sequence name item).tag then
    item.addItems (node.getElementsByTagName item.tag) ds
  else (false, ds)

/-- The elements decode one by one to the values. -/
def IdlType.Decodes (item : IdlType) (nodes : List Element)
    (values : List item.Value) : Prop :=
  List.Forall₂ (fun node value => item.unmarshall node = some value) nodes
    values

variable {item : IdlType}

theorem addItems_iff {nodes : List Element}
    (named : ∀ node ∈ nodes, node.name = item.tag)
    (ds after : List item.Value) :
    item.addItems nodes ds = (true, after) ↔
      ∃ values, after = ds ++ values ∧ item.Decodes nodes values := by
  induction nodes generalizing ds with
  | nil =>
      rw [IdlType.addItems]
      constructor
      · intro same
        obtain ⟨-, rfl⟩ := Prod.mk.inj same
        exact ⟨[], (List.append_nil ds).symm, List.Forall₂.nil⟩
      · intro added
        obtain ⟨values, rfl, decodes⟩ := added
        cases decodes
        rw [List.append_nil]
  | cons node nodes inductionHypothesis =>
      rw [List.forall_mem_cons] at named
      rw [IdlType.addItems, if_pos named.1]
      cases decoded : item.unmarshall node with
      | none =>
          refine iff_of_false (by simp) ?_
          intro added
          obtain ⟨values, -, decodes⟩ := added
          cases decodes with
          | cons first rest =>
              rw [decoded] at first
              cases first
      | some value =>
          dsimp only
          rw [inductionHypothesis named.2]
          constructor
          · intro added
            obtain ⟨values, rfl, decodes⟩ := added
            exact
              ⟨value :: values, List.append_assoc ds [value] values,
                List.Forall₂.cons decoded decodes⟩
          · intro added
            obtain ⟨values, rfl, decodes⟩ := added
            cases decodes with
            | cons first rest =>
                obtain rfl := Option.some.inj (decoded.symm.trans first)
                exact
                  ⟨_, (List.append_assoc ds [value] _).symm, rest⟩

theorem exists_decodes_iff {nodes : List Element} :
    (∃ values, item.Decodes nodes values) ↔
      ∀ node ∈ nodes, (item.unmarshall node).isSome = true := by
  induction nodes with
  | nil => exact iff_of_true ⟨[], List.Forall₂.nil⟩ (by simp)
  | cons node nodes inductionHypothesis =>
      rw [List.forall_mem_cons, ← inductionHypothesis]
      constructor
      · intro decodes
        obtain ⟨values, decodes⟩ := decodes
        cases decodes with
        | cons first rest =>
            exact ⟨Option.isSome_of_eq_some first, _, rest⟩
      · intro decode
        obtain ⟨isSome, values, rest⟩ := decode
        obtain ⟨value, first⟩ := Option.isSome_iff_exists.mp isSome
        exact ⟨value :: values, List.Forall₂.cons first rest⟩

variable {name : Identifier}

theorem unmarshallItems_iff (ds after : List item.Value)
    (node : Element) :
    IdlType.unmarshallItems name item ds node = (true, after) ↔
      node.name = (IdlType.sequence name item).tag ∧
        ∃ values, after = ds ++ values ∧
          item.Decodes (node.getElementsByTagName item.tag) values := by
  rw [IdlType.unmarshallItems]
  by_cases isTag : node.name = (IdlType.sequence name item).tag
  · rw [if_pos isTag, and_iff_right isTag]
    exact
      addItems_iff (Node.name_of_mem_allNamed item.tag node.children) ds
        after
  · rw [if_neg isTag]
    exact iff_of_false (by simp) fun both => isTag both.1

theorem mapM_unmarshall_iff {nodes : List Element}
    {values : List item.Value} :
    nodes.mapM item.unmarshall = some values ↔
      item.Decodes nodes values := by
  induction nodes generalizing values with
  | nil =>
      rw [List.mapM_nil, IdlType.Decodes, List.forall₂_nil_left_iff]
      exact Option.some_inj.trans eq_comm
  | cons node nodes inductionHypothesis =>
      rw [List.mapM_cons]
      constructor
      · intro mapped
        obtain ⟨value, first, mapped⟩ := Option.bind_eq_some_iff.mp mapped
        obtain ⟨others, rest, same⟩ := Option.bind_eq_some_iff.mp mapped
        obtain rfl := Option.some.inj same
        exact List.Forall₂.cons first (inductionHypothesis.mp rest)
      · intro decodes
        cases decodes with
        | cons first rest =>
            rw [first, inductionHypothesis.mpr rest]
            rfl

/-- The result is what the other emitted classes see. -/
theorem unmarshall_sequence_iff (values : List item.Value)
    (node : Element) :
    (IdlType.sequence name item).unmarshall node = some values ↔
      IdlType.unmarshallItems name item [] node = (true, values) := by
  rw [unmarshallItems_iff, IdlType.unmarshall,
    Option.ite_none_right_eq_some, IdlType.readNode]
  apply and_congr_right
  intro _
  exact
    mapM_unmarshall_iff.trans
      ⟨fun decodes => ⟨values, rfl, decodes⟩,
        fun added => by
          obtain ⟨_, rfl, decodes⟩ := added
          exact decodes⟩

/-! ## The direct items -/

/-- `unmarshall` adds exactly one decoded item for each direct child with the
tag of the items, in document order. -/
def IdlType.TakesDirectItems (name : Identifier) (item : IdlType)
    (ds : List item.Value) (node : Element) : Prop :=
  ∃ values,
    IdlType.unmarshallItems name item ds node = (true, ds ++ values) ∧
      item.Decodes (node.childrenNamed item.tag) values

/-- This is so exactly when each of these children is an item and nothing with
the tag stands below a child. -/
theorem IdlType.takesDirectItems_iff (name inner : Identifier)
    (varidx : Nat) (members : IdlMembers)
    (ds : List (IdlType.struct inner varidx members).Value)
    (node : Element) :
    IdlType.TakesDirectItems name (.struct inner varidx members) ds node ↔
      node.name =
          (IdlType.sequence name (.struct inner varidx members)).tag ∧
        (∀ child ∈
            node.childrenNamed (IdlType.struct inner varidx members).tag,
          ((IdlType.struct inner varidx members).unmarshall child).isSome =
            true) ∧
          node.Shallow (IdlType.struct inner varidx members).tag := by
  rw [← exists_decodes_iff]
  constructor
  · intro takes
    obtain ⟨values, taken, direct⟩ := takes
    obtain ⟨isTag, added, same, all⟩ := (unmarshallItems_iff _ _ _).mp taken
    obtain rfl := List.append_cancel_left same
    refine ⟨isTag, ⟨values, direct⟩, Element.shallow_of_length ?_⟩
    exact
      (List.Forall₂.length_eq all).trans
        (List.Forall₂.length_eq direct).symm
  · intro kept
    obtain ⟨isTag, ⟨values, direct⟩, shallow⟩ := kept
    refine ⟨values, ?_, direct⟩
    rw [unmarshallItems_iff, shallow.getElementsByTagName]
    exact ⟨isTag, values, rfl, direct⟩

end Items

/-! ## A tag that comes back below an item -/

section Nested

private def named (text : String)
    (valid : isIdentifier text.toList = true) : Identifier where
  text := text.toList
  valid := valid

/-- `struct b_item_t{c_items_t cs;}`, where `c_items_t` is a sequence of
`struct c_t{int x;}`. -/
private def innerItem : IdlType :=
  .struct (named "b_item_t" (by decide)) 0
    (.cons (named "cs" (by decide))
      (.sequence (named "c_items_t" (by decide))
        (.struct (named "c_t" (by decide)) 0
          (.cons (named "x" (by decide)) (.builtin .int) .nil)))
      .nil)

/-- `struct a_item_t{b_items_t bs;}`, where `b_items_t` is a sequence of
`b_item_t`. -/
private def outerItem : IdlType :=
  .struct (named "a_item_t" (by decide)) 0
    (.cons (named "bs" (by decide))
      (.sequence (named "b_items_t" (by decide)) innerItem) .nil)

/-- `<item><items>..</items></item>` -/
private def itemElement (below : List Element) : Element :=
  ⟨"item".toList, [],
    [(⟨"items".toList, [], below.map Element.node⟩ : Element).node]⟩

/-- `<list><item><items><item><items/></item></items></item></list>` -/
private def nestedList : Element :=
  ⟨"list".toList, [], [(itemElement [itemElement []]).node]⟩

/-- An item that holds an element with the same tag is taken twice. -/
theorem IdlType.nested_item_is_taken :
    (IdlType.sequence (named "a_list_t" (by decide)) outerItem).emitted =
        true ∧
      (IdlType.sequence (named "a_list_t" (by decide)) outerItem).Fits
          nestedList ∧
        @IdlType.unmarshallItems zeroTypes (named "a_list_t" (by decide))
            outerItem [] nestedList =
          (true, [([([], ())], ()), ([], ())]) ∧
          ¬ @IdlType.TakesDirectItems zeroTypes
            (named "a_list_t" (by decide)) outerItem [] nestedList := by
  have taken :
      @IdlType.unmarshallItems zeroTypes (named "a_list_t" (by decide))
          outerItem [] nestedList =
        (true, [([([], ())], ()), ([], ())]) := by
    rfl
  refine ⟨by decide +kernel, ?_, taken, ?_⟩
  · have inner : innerItem.Fits (itemElement []) := by
      refine ⟨by decide +kernel, _, [], rfl, ⟨by decide +kernel, ?_⟩, rfl⟩
      intro child member
      cases member
    refine ⟨by decide +kernel, ?_⟩
    intro child member
    obtain rfl := List.mem_singleton.mp member
    refine ⟨by decide +kernel, _, [], rfl, ⟨by decide +kernel, ?_⟩, rfl⟩
    intro child member
    obtain rfl := List.mem_singleton.mp member
    exact inner
  · intro takes
    obtain ⟨values, added, direct⟩ := takes
    rw [taken] at added
    have two : 2 = values.length :=
      congrArg List.length (Prod.mk.inj added).2
    have one := List.Forall₂.length_eq direct
    have single :
        (nestedList.childrenNamed outerItem.tag).length = 1 := by
      decide +kernel
    rw [single, ← two] at one
    cases one

end Nested

end LocationServer
