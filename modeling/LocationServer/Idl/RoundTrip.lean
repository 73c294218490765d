import LocationServer.Idl.Codec

/-!
# What the emitted codecs read back

A value is read back exactly when it is a struct whose members are all of
builtin types with plain texts, and are called by names that are not taken, or
a sequence of such structs.
-/

namespace LocationServer

open Xml

section RoundTrip

variable [FloatTypes]

/-- The text that `marshall` produces is a document, and `unmarshall` reads
the value back from its root. -/
def IdlType.RoundTrips (type : IdlType) (value : type.Value) : Prop :=
  type.emitted = true ∧
    ∃ root, document (type.marshall value) = some root ∧
      type.unmarshall root = some value

/-! ## The condition -/

/-- A builtin member keeps its value: its name does not mean the text written
so far, and its text needs no escape.  A name that means a local variable of
`unmarshall` leaves the member as it is in a new object, and one that means
the vector of complex members writes the text of an empty one. -/
def Builtin.Kept (basic : Builtin) (isLocal : Bool) (name : Text)
    (value : basic.type.Value) : Prop :=
  name ≠ xmlLocal ∧
    if isLocal then value = basic.type.initial
    else if name = complexesLocal then
      value =
        (basic.type.valueOf (vectorToString [])).getD basic.type.initial
    else Plain (basic.type.toString value)

theorem Builtin.kept_of_plain {basic : Builtin} {isLocal : Bool}
    {name : Text} {value : basic.type.Value} (notXml : name ≠ xmlLocal)
    (notLocal : isLocal = false) (notComplexes : name ≠ complexesLocal)
    (plain : Plain (basic.type.toString value)) :
    basic.Kept isLocal name value := by
  refine ⟨notXml, ?_⟩
  rw [notLocal, if_neg Bool.false_ne_true, if_neg notComplexes]
  exact plain

def IdlType.Kept : (type : IdlType) → (isLocal : Bool) → Text →
    type.Value → Prop
  | .builtin basic, isLocal, name, value => basic.Kept isLocal name value
  | .struct _ _ _, _, _, _ => False
  | .sequence _ _, _, _, _ => False

def IdlMembers.Legible : (members : IdlMembers) → List Text → Nat →
    members.Value → Prop
  | .nil, _, _, _ => True
  | .cons name type rest, locals, varidx, (value, others) =>
      type.Kept (name.text ∈ type.addLocal locals varidx) name.text value ∧
        rest.Legible (type.addLocal locals varidx) (varidx + type.variants)
          others

/-- The tag begins with a letter, and the members keep their values. -/
def IdlType.Legible : (type : IdlType) → type.Value → Prop
  | .builtin _, _ => False
  | .struct name varidx members, value =>
      isName (IdlType.struct name varidx members).tag = true ∧
        members.Legible [] (varidx + members.sequences) value
  | .sequence name item, values =>
      let values : List item.Value := values
      isName (IdlType.sequence name item).tag = true ∧
        ∀ value ∈ values, item.Legible value

/-! ## Structs with builtin members alone -/

def IdlType.isBuiltin : IdlType → Bool
  | .builtin _ => true
  | _ => false

def IdlMembers.flat : IdlMembers → Bool
  | .nil => true
  | .cons _ type rest => type.isBuiltin && rest.flat

/-- The attributes that a loop over builtin members writes. -/
def IdlMembers.attributes : (members : IdlMembers) → Text →
    members.Value → List (Text × Text)
  | .nil, _, _ => []
  | .cons name type rest, xml, (value, others) =>
      let text := textOf xml [] name.text ((type.written value).getD [])
      (name.text, text) ::
        rest.attributes
          (xml ++ ' ' :: name.text ++ '=' :: '"' :: text ++ ['"']) others

theorem attributes_builtin (name : Identifier) (basic : Builtin)
    (rest : IdlMembers) (xml : Text) (value : basic.type.Value)
    (others : rest.Value) :
    (IdlMembers.cons name (.builtin basic) rest).attributes xml
        (value, others) =
      (name.text, textOf xml [] name.text (basic.type.toString value)) ::
        rest.attributes
          (xml ++ ' ' :: name.text ++ '=' :: '"' ::
            textOf xml [] name.text (basic.type.toString value) ++ ['"'])
          others :=
  rfl

theorem serial_flat {members : IdlMembers} (flat : members.flat = true)
    (xml : Text) (value : members.Value) :
    members.serial (xml, []) value =
      (xml ++ renderAttributes (members.attributes xml value), []) := by
  induction members generalizing xml with
  | nil => simp [IdlMembers.serial, IdlMembers.attributes, renderAttributes]
  | cons name type rest inductionHypothesis =>
      obtain ⟨value, others⟩ := value
      rw [IdlMembers.flat, Bool.and_eq_true] at flat
      cases type with
      | builtin basic =>
          rw [IdlMembers.serial, IdlType.written]
          dsimp only
          rw [inductionHypothesis flat.2]
          simp [IdlMembers.attributes, IdlType.written, renderAttributes]
      | struct name varidx members => cases flat.1
      | sequence name item => cases flat.1

/-- Complex members are collected. -/
theorem length_le_serial (members : IdlMembers) (found : Text × List Text)
    (value : members.Value) :
    found.2.length ≤ (members.serial found value).2.length := by
  induction members generalizing found with
  | nil => exact Nat.le_refl _
  | cons name type rest inductionHypothesis =>
      obtain ⟨xml, complexes⟩ := found
      obtain ⟨value, others⟩ := value
      cases type with
      | builtin basic =>
          rw [IdlMembers.serial, IdlType.written]
          dsimp only
          exact inductionHypothesis (_, complexes) others
      | struct inner varidx members =>
          refine Nat.le_trans ?_ (inductionHypothesis (xml, _) others)
          simp
      | sequence inner item =>
          refine Nat.le_trans ?_ (inductionHypothesis (xml, _) others)
          simp

theorem serial_complex {members : IdlMembers}
    (complex : members.flat = false) (found : Text × List Text)
    (value : members.Value) :
    found.2.length < (members.serial found value).2.length := by
  induction members generalizing found with
  | nil => cases complex
  | cons name type rest inductionHypothesis =>
      obtain ⟨xml, complexes⟩ := found
      obtain ⟨value, others⟩ := value
      cases type with
      | builtin basic =>
          rw [IdlMembers.serial, IdlType.written]
          dsimp only
          exact inductionHypothesis complex (_, complexes) others
      | struct inner varidx members =>
          refine
            Nat.lt_of_lt_of_le ?_ (length_le_serial rest (xml, _) others)
          simp
      | sequence inner item =>
          refine
            Nat.lt_of_lt_of_le ?_ (length_le_serial rest (xml, _) others)
          simp

section Struct

variable {name : Identifier} {varidx : Nat} {members : IdlMembers}

theorem marshall_flat (flat : members.flat = true)
    (value : members.Value) :
    (IdlType.struct name varidx members).marshall value =
      '<' :: ((IdlType.struct name varidx members).tag ++
        (renderAttributes
          (members.attributes
            ('<' :: (IdlType.struct name varidx members).tag) value) ++
          ['/', '>'])) := by
  rw [IdlType.marshall]
  simp [serial_flat flat]

/-- Nothing is left of a struct with a complex member but an end tag. -/
theorem marshall_complex (complex : members.flat = false)
    (value : members.Value) :
    (IdlType.struct name varidx members).marshall value =
      '<' :: '/' :: (IdlType.struct name varidx members).tag ++ ['>'] := by
  have collected :=
    serial_complex complex
      ('<' :: (IdlType.struct name varidx members).tag, []) value
  have nonempty :
      ¬ (members.serial
        ('<' :: (IdlType.struct name varidx members).tag, [])
        value).2.length = 0 :=
    Nat.ne_of_gt collected
  rw [IdlType.marshall]
  dsimp only
  rw [if_neg nonempty]

end Struct

theorem attributes_names (members : IdlMembers) (xml : Text)
    (value : members.Value) :
    (members.attributes xml value).map Prod.fst = members.names := by
  induction members generalizing xml with
  | nil => rfl
  | cons name type rest inductionHypothesis =>
      exact congrArg (name.text :: ·) (inductionHypothesis _ value.2)

theorem isName_of_attributes (members : IdlMembers) (xml : Text)
    (value : members.Value) :
    ∀ pair ∈ members.attributes xml value, isName pair.1 = true := by
  induction members generalizing xml with
  | nil => simp [IdlMembers.attributes]
  | cons name type rest inductionHypothesis =>
      exact
        List.forall_mem_cons.mpr
          ⟨isName_of_isIdentifier name.valid, inductionHypothesis _ value.2⟩

/-- One builtin member. -/
theorem kept_iff {basic : Builtin} (notBool : basic ≠ .bool)
    (isLocal : Bool) (name : Text) {xml : Text}
    (begins : xml.head? = some '<') (value : basic.type.Value)
    {node : Element}
    (found :
      node.getAttribute name =
        textOf xml [] name (basic.type.toString value)) :
    (Plain (textOf xml [] name (basic.type.toString value)) ∧
        basic.unserial isLocal name node = value) ↔
      basic.Kept isLocal name value := by
  have notPlain : ¬ Plain xml := by
    intro plain
    have member : '<' ∈ xml := List.mem_of_mem_head? begins
    exact absurd (plain '<' member) (by decide)
  rw [Builtin.unserial, Builtin.Kept, found]
  by_cases isXml : name = xmlLocal
  · rw [textOf, if_pos isXml]
    exact iff_of_false (fun both => notPlain both.1) fun both => both.1 isXml
  · by_cases takes : isLocal = true
    · rw [if_pos takes, if_pos takes]
      refine ⟨fun both => ⟨isXml, both.2.symm⟩, fun both => ⟨?_, both.2.symm⟩⟩
      rw [textOf, if_neg isXml, both.2]
      split
      · exact by decide
      · exact Builtin.plain_initial notBool
    · rw [if_neg takes, if_neg takes]
      by_cases isComplexes : name = complexesLocal
      · rw [textOf, if_neg isXml, if_pos isComplexes, if_pos isComplexes]
        exact
          ⟨fun both => ⟨isXml, both.2.symm⟩,
            fun both => ⟨by decide, both.2.symm⟩⟩
      · rw [textOf, if_neg isXml, if_neg isComplexes, if_neg isComplexes,
          Builtin.valueOf_toString notBool]
        exact ⟨fun both => ⟨isXml, both.1⟩, fun both => ⟨both.2, rfl⟩⟩

/-- Reading goes member by member. -/
theorem readMembers_builtin (name : Identifier) (basic : Builtin)
    (rest : IdlMembers) (locals : List Text) (varidx : Nat) (node : Element)
    (value : basic.type.Value) (others : rest.Value) :
    (IdlMembers.cons name (.builtin basic) rest).readMembers locals varidx
        node = some (value, others) ↔
      basic.unserial
          (name.text ∈ (IdlType.builtin basic).addLocal locals varidx)
          name.text node = value ∧
        rest.readMembers ((IdlType.builtin basic).addLocal locals varidx)
          (varidx + 1) node = some others := by
  have unfolded :
      (IdlMembers.cons name (.builtin basic) rest).readMembers locals varidx
          node =
        (rest.readMembers ((IdlType.builtin basic).addLocal locals varidx)
          (varidx + 1) node).bind fun others =>
            some
              (basic.unserial
                (name.text ∈ (IdlType.builtin basic).addLocal locals varidx)
                name.text node, others) := rfl
  rw [unfolded]
  constructor
  · intro read
    obtain ⟨later, readLater, same⟩ := Option.bind_eq_some_iff.mp read
    obtain ⟨rfl, rfl⟩ := Prod.mk.inj (Option.some.inj same)
    exact ⟨rfl, readLater⟩
  · rintro ⟨rfl, read⟩
    rw [read]
    rfl

/-- All members of a struct. -/
theorem legible_iff {members : IdlMembers} (flat : members.flat = true)
    (emitted : members.emitted = true) {xml : Text}
    (begins : xml.head? = some '<') (locals : List Text) (varidx : Nat)
    (value : members.Value) {node : Element}
    (found :
      ∀ pair ∈ members.attributes xml value,
        node.getAttribute pair.1 = pair.2) :
    ((∀ pair ∈ members.attributes xml value, Plain pair.2) ∧
        members.readMembers locals varidx node = some value) ↔
      members.Legible locals varidx value := by
  induction members generalizing xml locals varidx with
  | nil =>
      exact iff_of_true ⟨by simp [IdlMembers.attributes], rfl⟩ trivial
  | cons name type rest inductionHypothesis =>
      rw [IdlMembers.flat, Bool.and_eq_true] at flat
      rw [IdlMembers.emitted, Bool.and_eq_true] at emitted
      cases type with
      | builtin basic =>
          obtain ⟨value, others⟩ : basic.type.Value × rest.Value := value
          have notBool : basic ≠ .bool := of_decide_eq_true emitted.1
          rw [attributes_builtin, List.forall_mem_cons] at found ⊢
          rw [readMembers_builtin]
          have beginsLater :
              (xml ++ ' ' :: name.text ++ '=' :: '"' ::
                textOf xml [] name.text (basic.type.toString value) ++
                ['"']).head? = some '<' := by
            simp [begins]
          have here :=
            kept_iff notBool
              (name.text ∈ (IdlType.builtin basic).addLocal locals varidx)
              name.text begins value found.1
          have later :=
            inductionHypothesis flat.2 emitted.2 beginsLater
              ((IdlType.builtin basic).addLocal locals varidx) (varidx + 1)
              others found.2
          calc
            _ ↔ _ := and_and_and_comm
            _ ↔ _ := and_congr here later
      | struct name varidx members => cases flat.1
      | sequence name item => cases flat.1

/-- A member that has been read as it is needs no escape, or begins with
markup, or there is an attribute for it. -/
theorem kept_of_unserial {basic : Builtin} (notBool : basic ≠ .bool)
    (isLocal : Bool) (name : Text) {xml : Text}
    (begins : xml.head? = some '<') {value : basic.type.Value}
    {node : Element} (read : basic.unserial isLocal name node = value) :
    Plain (textOf xml [] name (basic.type.toString value)) ∨
      (textOf xml [] name (basic.type.toString value)).head? = some '<' ∨
      node.attributes.lookup name =
        some (textOf xml [] name (basic.type.toString value)) := by
  rw [textOf]
  split
  · exact Or.inr (Or.inl begins)
  · split
    · exact Or.inl (by decide)
    · by_cases isString : basic = .string
      · subst isString
        rw [Builtin.unserial] at read
        split at read
        · rw [← read]
          exact Or.inl (Builtin.plain_initial notBool)
        · have isValue : (node.attributes.lookup name).getD [] = value :=
            read
          cases found : node.attributes.lookup name with
          | none =>
              rw [found] at isValue
              rw [← isValue]
              exact Or.inl (Builtin.plain_initial notBool)
          | some read =>
              rw [found] at isValue
              exact Or.inr (Or.inr (congrArg some isValue))
      · exact Or.inl (Builtin.plain_toString notBool isString value)

theorem kept_of_readMembers {members : IdlMembers}
    (flat : members.flat = true) (emitted : members.emitted = true)
    {xml : Text} (begins : xml.head? = some '<') (locals : List Text)
    (varidx : Nat) {value : members.Value} {node : Element}
    (read : members.readMembers locals varidx node = some value) :
    ∀ pair ∈ members.attributes xml value,
      Plain pair.2 ∨ pair.2.head? = some '<' ∨
        node.attributes.lookup pair.1 = some pair.2 := by
  induction members generalizing xml locals varidx with
  | nil => simp [IdlMembers.attributes]
  | cons name type rest inductionHypothesis =>
      rw [IdlMembers.flat, Bool.and_eq_true] at flat
      rw [IdlMembers.emitted, Bool.and_eq_true] at emitted
      cases type with
      | builtin basic =>
          obtain ⟨value, others⟩ : basic.type.Value × rest.Value := value
          have notBool : basic ≠ .bool := of_decide_eq_true emitted.1
          obtain ⟨readValue, readOthers⟩ :=
            (readMembers_builtin name basic rest locals varidx node value
              others).mp read
          rw [attributes_builtin, List.forall_mem_cons]
          refine ⟨kept_of_unserial notBool _ name.text begins readValue, ?_⟩
          exact
            inductionHypothesis flat.2 emitted.2 (by simp [begins]) _ _
              readOthers
      | struct name varidx members => cases flat.1
      | sequence name item => cases flat.1

theorem flat_of_legible {members : IdlMembers} {locals : List Text}
    {varidx : Nat} {value : members.Value}
    (legible : members.Legible locals varidx value) :
    members.flat = true := by
  induction members generalizing locals varidx with
  | nil => rfl
  | cons name type rest inductionHypothesis =>
      obtain ⟨value, others⟩ := value
      rw [IdlMembers.flat, Bool.and_eq_true]
      refine ⟨?_, inductionHypothesis legible.2⟩
      cases type with
      | builtin basic => rfl
      | struct name varidx members => exact legible.1.elim
      | sequence name item => exact legible.1.elim

section Elements

variable {name : Identifier} {varidx : Nat} {members : IdlMembers}

/-- The element that a struct is written as. -/
def IdlMembers.elementOf (members : IdlMembers) (tag : Text)
    (value : members.Value) : Element :=
  ⟨tag, members.attributes ('<' :: tag) value, []⟩

theorem getAttribute_elementOf (distinct : members.names.Nodup)
    (tag : Text) (value : members.Value) :
    ∀ pair ∈ members.attributes ('<' :: tag) value,
      (members.elementOf tag value).getAttribute pair.1 = pair.2 := by
  intro pair member
  have distinct :
      ((members.attributes ('<' :: tag) value).map Prod.fst).Nodup := by
    rw [attributes_names]
    exact distinct
  rw [Element.getAttribute, IdlMembers.elementOf,
    lookup_eq_some_of_mem distinct member]
  rfl

/-- A struct whose element has been read and decoded as what it was keeps its
members, and nothing else has been read. -/
theorem legible_of_element
    (emitted : (IdlType.struct name varidx members).emitted = true)
    (flat : members.flat = true) {value : members.Value} {fuel : Nat}
    {found : Element} {after rest : Text}
    (read :
      element fuel
          ((IdlType.struct name varidx members).tag ++
            (renderAttributes
              (members.attributes
                ('<' :: (IdlType.struct name varidx members).tag) value) ++
              '/' :: '>' :: after)) =
        some (found, rest))
    (decoded :
      (IdlType.struct name varidx members).unmarshall found = some value) :
    (IdlType.struct name varidx members).Legible value ∧
      found =
        members.elementOf (IdlType.struct name varidx members).tag value ∧
      rest = after := by
  obtain ⟨distinct, emittedMembers⟩ := emitted_struct emitted
  rw [IdlType.unmarshall, Option.ite_none_right_eq_some] at decoded
  have readMembers :
      members.readMembers [] (varidx + members.sequences) found =
        some value :=
    decoded.2
  obtain ⟨isTag, plain, isFound, isRest⟩ :=
    element_render_empty_inv
      (isNameChar_of_tag (.struct name varidx members))
      (isName_of_attributes members _ value)
      (by rw [attributes_names]; exact distinct) read
      (kept_of_readMembers flat emittedMembers rfl [] _ readMembers)
  have written :=
    getAttribute_elementOf distinct
      (IdlType.struct name varidx members).tag value
  rw [isFound] at readMembers
  exact
    ⟨⟨isTag,
        (legible_iff flat emittedMembers rfl [] _ value written).mp
          ⟨plain, readMembers⟩⟩,
      isFound, isRest⟩

/-- A struct that keeps its members is read back from its element. -/
theorem element_of_legible
    (emitted : (IdlType.struct name varidx members).emitted = true)
    {value : members.Value}
    (legible : (IdlType.struct name varidx members).Legible value)
    (after : Text) (fuel : Nat) :
    element (fuel + 1)
        ((IdlType.struct name varidx members).tag ++
          (renderAttributes
            (members.attributes
              ('<' :: (IdlType.struct name varidx members).tag) value) ++
            '/' :: '>' :: after)) =
      some
        (members.elementOf (IdlType.struct name varidx members).tag value,
          after) ∧
      (IdlType.struct name varidx members).unmarshall
          (members.elementOf (IdlType.struct name varidx members).tag
            value) =
        some value := by
  obtain ⟨distinct, emittedMembers⟩ := emitted_struct emitted
  obtain ⟨isTag, keeps⟩ := legible
  have written :=
    getAttribute_elementOf distinct
      (IdlType.struct name varidx members).tag value
  obtain ⟨plain, readMembers⟩ :=
    (legible_iff (flat_of_legible keeps) emittedMembers rfl [] _ value
      written).mpr keeps
  refine ⟨?_, ?_⟩
  · exact
      element_render_empty isTag (isName_of_attributes members _ value)
        (by rw [attributes_names]; exact distinct) plain after fuel
  · rw [IdlType.unmarshall]
    exact (if_pos rfl).trans readMembers

/-! ## Structs -/

/-- The text of a value is one element, from which it is read back. -/
def IdlType.IsElement (type : IdlType) (value : type.Value) : Prop :=
  ∃ tag after root, isName tag = true ∧
    type.marshall value = '<' :: (tag ++ after) ∧
    element ((tag ++ after).length + 1) (tag ++ after) = some (root, []) ∧
    type.unmarshall root = some value

theorem IdlType.IsElement.document {type : IdlType} {value : type.Value}
    (isElement : type.IsElement value) :
    ∃ root, document (type.marshall value) = some root ∧
      type.unmarshall root = some value := by
  obtain ⟨tag, after, root, isTag, isText, read, decoded⟩ := isElement
  refine ⟨root, ?_, decoded⟩
  rw [isText]
  exact
    document_of_element isTag (element_mono (Nat.le_succ _) read)

theorem IdlType.IsElement.wholeContent {type : IdlType}
    {value : type.Value} (isElement : type.IsElement value) :
    ∃ found : Element,
      wholeContent (type.marshall value) = some [found.node] ∧
        type.unmarshall found = some value := by
  obtain ⟨tag, after, root, isTag, isText, read, decoded⟩ := isElement
  refine ⟨root, ?_, decoded⟩
  rw [isText]
  exact wholeContent_of_element isTag read

theorem isElement_struct
    (emitted : (IdlType.struct name varidx members).emitted = true)
    {value : members.Value}
    (legible : (IdlType.struct name varidx members).Legible value) :
    (IdlType.struct name varidx members).IsElement value :=
  ⟨_, _, _, legible.1, marshall_flat (flat_of_legible legible.2) value,
    (element_of_legible emitted legible [] _).1,
    (element_of_legible emitted legible [] 0).2⟩

theorem roundTrips_struct_iff
    (emitted : (IdlType.struct name varidx members).emitted = true)
    (value : members.Value) :
    (IdlType.struct name varidx members).RoundTrips value ↔
      (IdlType.struct name varidx members).Legible value := by
  have chars := isNameChar_of_tag (.struct name varidx members)
  constructor
  · rintro ⟨-, root, isDocument, decoded⟩
    cases flat : members.flat with
    | false =>
        rw [marshall_complex flat, List.cons_append, List.cons_append,
          document_eq (by simp), element_end] at isDocument
        cases isDocument
    | true =>
        have ends : tagEnd ['/', '>'] = some (true, []) := rfl
        rw [marshall_flat flat,
          document_eq (head_render chars _ ends)] at isDocument
        obtain ⟨⟨found, rest⟩, read, same⟩ :=
          Option.bind_eq_some_iff.mp isDocument
        rw [Option.ite_none_right_eq_some] at same
        rw [← Option.some.inj same.2] at decoded
        exact (legible_of_element emitted flat read decoded).1
  · intro legible
    exact ⟨emitted, (isElement_struct emitted legible).document⟩

/-! ## Sequences of structs -/

/-- The items of a sequence that have been read and decoded as what they were
keep their members. -/
theorem legible_items
    (emitted : (IdlType.struct name varidx members).emitted = true)
    {values : List members.Value} {after rest : Text} {fuel : Nat}
    {children : List Node}
    (read :
      content fuel
          (values.flatMap (IdlType.struct name varidx members).marshall ++
            '<' :: '/' :: after) =
        some (children, rest))
    (decoded :
      (Node.allNamed (IdlType.struct name varidx members).tag children).mapM
          (IdlType.struct name varidx members).unmarshall =
        some values) :
    ∀ value ∈ values,
      (IdlType.struct name varidx members).Legible value := by
  induction values generalizing fuel children with
  | nil => simp
  | cons value values inductionHypothesis =>
      have chars := isNameChar_of_tag (.struct name varidx members)
      have notEmpty : children ≠ [] := by
        rintro rfl
        cases decoded
      rw [List.flatMap_cons] at read
      cases fuel with
      | zero => cases read
      | succ fuel =>
          rw [content] at read
          cases flat : members.flat with
          | false =>
              rw [marshall_complex flat] at read
              exact absurd (Prod.mk.inj (Option.some.inj read)).1.symm notEmpty
          | true =>
              have ends (text : Text) :
                  tagEnd ('/' :: '>' :: text) = some (true, text) := rfl
              rw [marshall_flat flat, List.append_assoc, List.cons_append,
                List.append_assoc, List.append_assoc, List.cons_append,
                List.cons_append, List.nil_append] at read
              rcases markup_of_head (head_render chars _ (ends _)) with
                isStop | isElement
              · rw [isStop] at read
                exact
                  absurd (Prod.mk.inj (Option.some.inj read)).1.symm notEmpty
              · rw [isElement] at read
                obtain ⟨⟨found, later⟩, isFound, read⟩ :=
                  Option.bind_eq_some_iff.mp read
                obtain ⟨⟨others, left⟩, readOthers, same⟩ :=
                  Option.map_eq_some_iff.mp read
                obtain ⟨rfl, rfl⟩ := Prod.mk.inj same
                have isTag := (name_of_element_render chars (ends _) isFound).2
                rw [allNamed_cons_of_name isTag, List.mapM_cons] at decoded
                obtain ⟨first, isFirst, decoded⟩ :=
                  Option.bind_eq_some_iff.mp decoded
                obtain ⟨further, isFurther, same⟩ :=
                  Option.bind_eq_some_iff.mp decoded
                obtain ⟨rfl, rfl⟩ := List.cons.inj (Option.some.inj same)
                obtain ⟨legible, rfl, rfl⟩ :=
                  legible_of_element emitted flat isFound isFirst
                exact
                  List.forall_mem_cons.mpr
                    ⟨legible, inductionHypothesis readOthers isFurther⟩

theorem wholeContent_items
    (emitted : (IdlType.struct name varidx members).emitted = true)
    {values : List members.Value}
    (legible :
      ∀ value ∈ values,
        (IdlType.struct name varidx members).Legible value) :
    wholeContent
        (values.flatMap (IdlType.struct name varidx members).marshall) =
      some
        (values.map fun value =>
          (members.elementOf (IdlType.struct name varidx members).tag
            value).node) := by
  induction values with
  | nil => rfl
  | cons value values inductionHypothesis =>
      rw [List.forall_mem_cons] at legible
      rw [List.flatMap_cons, List.map_cons]
      apply wholeContent_append _ (inductionHypothesis legible.2)
      · cases values with
        | nil => simp
        | cons other values =>
            rw [List.flatMap_cons,
              marshall_flat (flat_of_legible (legible.2 other (by simp)).2)]
            simp
      · rw [marshall_flat (flat_of_legible legible.1.2)]
        exact
          wholeContent_of_element legible.1.1
            (element_of_legible emitted legible.1 [] _).1

theorem allNamed_items (tag : Text) (values : List members.Value) :
    Node.allNamed tag
        (values.map fun value => (members.elementOf tag value).node) =
      values.map (members.elementOf tag) := by
  induction values with
  | nil => rfl
  | cons value values inductionHypothesis =>
      have isTag : (members.elementOf tag value).name = tag := rfl
      rw [List.map_cons, allNamed_cons_of_name isTag, inductionHypothesis]
      rfl

theorem decoded_items
    (emitted : (IdlType.struct name varidx members).emitted = true)
    {values : List members.Value}
    (legible :
      ∀ value ∈ values,
        (IdlType.struct name varidx members).Legible value) :
    (values.map
        (members.elementOf (IdlType.struct name varidx members).tag)).mapM
        (IdlType.struct name varidx members).unmarshall =
      some values := by
  induction values with
  | nil => rfl
  | cons value values inductionHypothesis =>
      rw [List.forall_mem_cons] at legible
      rw [List.map_cons, List.mapM_cons,
        (element_of_legible emitted legible.1 [] 0).2,
        inductionHypothesis legible.2]
      rfl

section Sequence

variable {outer : Identifier}

theorem marshall_sequence (item : IdlType) (values : List item.Value) :
    (IdlType.sequence outer item).marshall values =
      '<' :: ((IdlType.sequence outer item).tag ++
        (renderAttributes [] ++
          '>' :: (values.flatMap item.marshall ++
            '<' :: '/' :: ((IdlType.sequence outer item).tag ++ ['>'])))) := by
  rw [IdlType.marshall]
  simp [renderAttributes]

theorem isElement_sequence
    (emitted : (IdlType.struct name varidx members).emitted = true)
    {values : List members.Value}
    (legible :
      (IdlType.sequence outer (.struct name varidx members)).Legible
        values) :
    (IdlType.sequence outer (.struct name varidx members)).IsElement
      values := by
  have whole := wholeContent_items emitted legible.2
  refine
    ⟨_, _,
      ⟨(IdlType.sequence outer (.struct name varidx members)).tag, [],
        values.map fun value =>
          (members.elementOf (IdlType.struct name varidx members).tag
            value).node⟩,
      legible.1, marshall_sequence (.struct name varidx members) values, ?_,
      ?_⟩
  · apply element_render legible.1 (by simp) (by simp) (by simp) whole
    simp
    omega
  · have items :=
      allNamed_items (IdlType.struct name varidx members).tag values
    rw [IdlType.unmarshall]
    refine (if_pos rfl).trans ?_
    rw [IdlType.readNode, Element.getElementsByTagName, items]
    exact decoded_items emitted legible.2

theorem roundTrips_sequence_iff
    (emitted :
      (IdlType.sequence outer (.struct name varidx members)).emitted = true)
    (values : List members.Value) :
    (IdlType.sequence outer (.struct name varidx members)).RoundTrips
        values ↔
      (IdlType.sequence outer (.struct name varidx members)).Legible
        values := by
  have emittedItem :
      (IdlType.struct name varidx members).emitted = true := by
    rw [IdlType.emitted, Bool.and_eq_true] at emitted
    exact emitted.2
  constructor
  · rintro ⟨-, root, isDocument, decoded⟩
    have chars :=
      isNameChar_of_tag (.sequence outer (.struct name varidx members))
    have ends (text : Text) : tagEnd ('>' :: text) = some (false, text) :=
      rfl
    rw [marshall_sequence, document_eq (head_render chars _ (ends _))]
      at isDocument
    obtain ⟨⟨found, rest⟩, read, same⟩ :=
      Option.bind_eq_some_iff.mp isDocument
    rw [Option.ite_none_right_eq_some] at same
    obtain rfl := Option.some.inj same.2
    obtain ⟨isTag, -⟩ := name_of_element_render chars (ends _) read
    obtain ⟨fuel, left, inside⟩ :=
      content_of_element_render isTag (by simp) (by simp) (by simp) read
    rw [IdlType.unmarshall, Option.ite_none_right_eq_some] at decoded
    exact ⟨isTag, legible_items emittedItem inside decoded.2⟩
  · intro legible
    exact ⟨emitted, (isElement_sequence emittedItem legible).document⟩

end Sequence

end Elements

/-! ## Any type -/

theorem roundTrips_iff_legible {type : IdlType}
    (complex : type.isBuiltin = false) (emitted : type.emitted = true)
    (value : type.Value) : type.RoundTrips value ↔ type.Legible value := by
  cases type with
  | builtin basic => cases complex
  | struct name varidx members => exact roundTrips_struct_iff emitted value
  | sequence name item =>
      have emittedItem := emitted
      rw [IdlType.emitted, Bool.and_eq_true, Bool.and_eq_true] at emittedItem
      cases item with
      | builtin basic => cases emittedItem.1.2
      | struct inner varidx members =>
          exact roundTrips_sequence_iff emitted value
      | sequence inner item => cases emittedItem.1.2

theorem isElement_of_legible {type : IdlType}
    (complex : type.isBuiltin = false) (emitted : type.emitted = true)
    {value : type.Value} (legible : type.Legible value) :
    type.IsElement value := by
  cases type with
  | builtin basic => cases complex
  | struct name varidx members => exact isElement_struct emitted legible
  | sequence name item =>
      rw [IdlType.emitted, Bool.and_eq_true, Bool.and_eq_true] at emitted
      cases item with
      | builtin basic => cases emitted.1.2
      | struct inner varidx members =>
          exact isElement_sequence emitted.2 legible
      | sequence inner item => cases emitted.1.2

end RoundTrip

/-- Floating-point types with nothing but zero. -/
def zeroType : NumberType where
  Value := Unit
  initial := ()
  toString _ := ['0', '.', '0']
  valueOf text := if text = ['0', '.', '0'] then some () else none
  valueOf_toString _ := rfl
  plain_toString _ := by decide

@[reducible]
def zeroTypes : FloatTypes :=
  ⟨zeroType, zeroType⟩

/-- The first two members of `tc_redirect_r_Result_t`. -/
def redirectResult : IdlType :=
  .struct ⟨"tc_redirect_r_Result_t".toList, by decide⟩ 0
    (.cons ⟨"code".toList, by decide⟩ (.builtin .int)
      (.cons ⟨"tc_srv_ip".toList, by decide⟩ (.builtin .string) .nil))

end LocationServer
