import LocationServer.Foundation.CommutingSteps
import LocationServer.Message.Members

/-!
# What a decoded message says

A message that is accepted sets the members that it has children for.  The
other members keep what the memory of the new record held, so the record is
determined by the message only if every member without a constructor has a
child.  The order of children with different names does not matter.
-/

namespace LocationServer

open StepSystem

section Runs

variable {cast : LexicalCast} {children : List TiXmlElement}
variable {loc : LocationDetail}

theorem parseMsg_eq_run {parse : String → Option (List TiXmlNode)}
    {dc : String} (document : messageChildren parse dc = some children)
    (cast : LexicalCast) (memory : FreshMemory) :
    parseMsg parse cast memory dc =
      run (parseChild cast) (newLocationDetail memory) children := by
  rw [parseMsg, document]
  rfl

/-- The loop fails exactly at an unknown or malformed child. -/
theorem run_parseChild_isSome_iff (cast : LexicalCast)
    (loc : LocationDetail) (children : List TiXmlElement) :
    (run (parseChild cast) loc children).isSome = true ↔
      ∀ e ∈ children, (memberValue cast e).isSome = true :=
  run_isSome_iff parseChild_isSome_iff loc children

/-- A legible message gives a record. -/
theorem exists_run_of_legible
    (legible : ∀ e ∈ children, (memberValue cast e).isSome = true)
    (loc : LocationDetail) :
    ∃ final, run (parseChild cast) loc children = some final :=
  Option.isSome_iff_exists.mp
    ((run_parseChild_isSome_iff cast loc children).mpr legible)

/-- A member without a child stays as it was. -/
theorem sameMember_run {initial : LocationDetail} {member : MessageMember}
    (execution : run (parseChild cast) initial children = some loc)
    (absent : ∀ e ∈ children, memberOf e.name ≠ some member) :
    loc.SameMember initial member := by
  refine
    @history_invariant LocationDetail TiXmlElement (parseChild cast)
      (fun history loc =>
        (∀ e ∈ history, memberOf e.name ≠ some member) →
          loc.SameMember initial member)
      ?_ initial loc children ?_ execution absent
  · intro history middle e next kept stepped absent
    rw [List.forall_mem_append, List.forall_mem_singleton] at absent
    obtain ⟨value, carries, rfl⟩ := parseChild_eq_some_iff.mp stepped
    have different : value.member ≠ member := by
      intro same
      exact absent.2 (by rw [member_of_memberValue carries, same])
    exact
      (LocationDetail.sameMember_store different).trans (kept absent.1)
  · intro _
    exact LocationDetail.SameMember.refl initial member

/-- Two records agree on a member that both have just been given, and on a
member on which they agreed before. -/
theorem sameMember_store_store {left right : LocationDetail}
    {value : MemberValue} {member : MessageMember}
    (agreed :
      left.SameMember right member ∨
        value.member = member ∧ member ≠ .groupIds) :
    (left.store value).SameMember (right.store value) member := by
  rcases agreed with before | ⟨set, notGroups⟩
  · cases value <;> cases member <;>
      first
      | exact before
      | rfl
      | exact congrArg (· ++ _) before
  · subst set
    cases value <;>
      first
      | rfl
      | exact absurd rfl notGroups

/-- Two runs of the same children agree on every member with a child, and on
the group ids if they agreed on them. -/
theorem sameMember_of_runs {left right leftFinal rightFinal : LocationDetail}
    {member : MessageMember}
    (leftRun : run (parseChild cast) left children = some leftFinal)
    (rightRun : run (parseChild cast) right children = some rightFinal)
    (present :
      left.SameMember right member ∨
        member ≠ .groupIds ∧
          ∃ e ∈ children, memberOf e.name = some member) :
    leftFinal.SameMember rightFinal member := by
  refine
    @related_of_runs LocationDetail TiXmlElement (parseChild cast)
      (fun history leftNow rightNow =>
        (left.SameMember right member ∨
            member ≠ .groupIds ∧
              ∃ e ∈ history, memberOf e.name = some member) →
          leftNow.SameMember rightNow member)
      ?_ left right leftFinal rightFinal children ?_ leftRun rightRun present
  · intro history leftNow rightNow e leftNext rightNext agreed
      leftStep rightStep present
    obtain ⟨value, carries, rfl⟩ := parseChild_eq_some_iff.mp leftStep
    obtain ⟨other, otherCarries, rfl⟩ :=
      parseChild_eq_some_iff.mp rightStep
    obtain rfl := Option.some.inj (carries.symm.trans otherCarries)
    apply sameMember_store_store
    rcases present with before | ⟨notGroups, found, member', isMember⟩
    · exact Or.inl (agreed (Or.inl before))
    · rcases List.mem_append.mp member' with earlier | last
      · exact Or.inl (agreed (Or.inr ⟨notGroups, found, earlier, isMember⟩))
      · obtain rfl := List.mem_singleton.mp last
        rw [member_of_memberValue carries] at isMember
        exact Or.inr ⟨Option.some.inj isMember, notGroups⟩
  · intro present
    rcases present with before | ⟨-, found, impossible, -⟩
    · exact before
    · cases impossible

end Runs

/-! ## The memory of the record -/

/-- Two records made of new memory agree on the group ids. -/
theorem sameMember_newLocationDetail (first second : FreshMemory) :
    (newLocationDetail first).SameMember (newLocationDetail second)
      .groupIds :=
  rfl

/-- Memory that held something else than zeros. -/
def usedMemory : FreshMemory where
  devId := 1
  userId := 1
  time := 1
  speed := 1
  direction := 1
  linkId := 1

/-- Used memory differs in every member that no constructor sets. -/
theorem not_sameMember_usedMemory {member : MessageMember}
    (notGroups : member ≠ .groupIds) :
    ¬(newLocationDetail {}).SameMember (newLocationDetail usedMemory)
      member := by
  cases member with
  | groupIds => exact absurd rfl notGroups
  | userId => exact (by decide : ¬(0 : UniqueId) = 1)
  | devId => exact (by decide : ¬(0 : UniqueId) = 1)
  | linkId => exact (by decide : ¬(0 : UniqueId) = 1)
  | gps =>
      intro same
      have times := congrArg GpsData.time same
      exact absurd times (by decide)

/-- A legible message leaves a member without a child as the memory had it. -/
theorem member_present_of_same {cast : LexicalCast}
    {children : List TiXmlElement}
    (same : ∀ first second,
      run (parseChild cast) (newLocationDetail first) children =
        run (parseChild cast) (newLocationDetail second) children)
    (legible : ∀ e ∈ children, (memberValue cast e).isSome = true)
    {member : MessageMember} (notGroups : member ≠ .groupIds) :
    ∃ e ∈ children, memberOf e.name = some member := by
  by_contra missing
  have absent : ∀ e ∈ children, memberOf e.name ≠ some member :=
    fun e inside isMember => missing ⟨e, inside, isMember⟩
  obtain ⟨left, leftRun⟩ :=
    exists_run_of_legible legible (newLocationDetail {})
  obtain ⟨right, rightRun⟩ :=
    exists_run_of_legible legible (newLocationDetail usedMemory)
  have equal := same {} usedMemory
  rw [leftRun, rightRun] at equal
  obtain rfl := Option.some.inj equal
  have leftKept := sameMember_run leftRun absent
  have rightKept := sameMember_run rightRun absent
  exact not_sameMember_usedMemory notGroups (leftKept.symm.trans rightKept)

/-- A legible message with a child for every member but the group ids gives the
same record in every memory. -/
theorem same_of_members_present {cast : LexicalCast}
    {children : List TiXmlElement}
    (legible : ∀ e ∈ children, (memberValue cast e).isSome = true)
    (complete : ∀ member, member ≠ .groupIds →
      ∃ e ∈ children, memberOf e.name = some member)
    (first second : FreshMemory) :
    run (parseChild cast) (newLocationDetail first) children =
      run (parseChild cast) (newLocationDetail second) children := by
  obtain ⟨left, leftRun⟩ :=
    exists_run_of_legible legible (newLocationDetail first)
  obtain ⟨right, rightRun⟩ :=
    exists_run_of_legible legible (newLocationDetail second)
  rw [leftRun, rightRun]
  refine congrArg some (LocationDetail.eq_of_sameMember ?_)
  intro member
  apply sameMember_of_runs leftRun rightRun
  by_cases groups : member = .groupIds
  · rw [groups]
    exact Or.inl (sameMember_newLocationDetail first second)
  · exact Or.inr ⟨groups, complete member groups⟩

/-- The decoded record does not depend on the memory exactly when the message
is refused or has a child for every member but the group ids. -/
theorem parseMsg_deterministic_iff
    (parse : String → Option (List TiXmlNode)) (cast : LexicalCast)
    (dc : String) :
    (∀ first second,
        parseMsg parse cast first dc = parseMsg parse cast second dc) ↔
      ∀ children, messageChildren parse dc = some children →
        (∀ e ∈ children, (memberValue cast e).isSome = true) →
          ∀ member, member ≠ .groupIds →
            ∃ e ∈ children, memberOf e.name = some member := by
  cases document : messageChildren parse dc with
  | none => simp [parseMsg, document]
  | some children =>
      simp only [parseMsg_eq_run document, Option.some.injEq]
      constructor
      · rintro same _ rfl legible member notGroups
        exact member_present_of_same same legible notGroups
      · intro complete first second
        by_cases legible :
            ∀ e ∈ children, (memberValue cast e).isSome = true
        · exact
            same_of_members_present legible (complete children rfl legible)
              first second
        · have refused (memory : FreshMemory) :
              run (parseChild cast) (newLocationDetail memory) children =
                none := by
            rw [← Option.not_isSome_iff_eq_none, run_parseChild_isSome_iff]
            exact legible
          rw [refused, refused]

/-- The message `<NaviMSG/>` is accepted, and its record has the device id that
the memory held. -/
theorem empty_message_keeps_memory :
    ∃ (parse : String → Option (List TiXmlNode)) (cast : LexicalCast)
        (first second : FreshMemory) (left right : LocationDetail),
      parse "<NaviMSG/>" = some [.element "NaviMSG" [] []] ∧
        parseMsg parse cast first "<NaviMSG/>\x00" = some left ∧
        parseMsg parse cast second "<NaviMSG/>\x00" = some right ∧
        left.devId ≠ right.devId := by
  refine
    ⟨fun text =>
        if text = "<NaviMSG/>" then some [.element "NaviMSG" [] []]
        else none,
      decimalCast, {}, { devId := 1 }, newLocationDetail {},
      newLocationDetail { devId := 1 }, rfl, ?_, ?_, by decide⟩
  · decide +kernel
  · decide +kernel

/-! ## The order of the children -/

section Order

variable {cast : LexicalCast} {children others : List TiXmlElement}

/-- Children with different names can be taken in both orders. -/
theorem commute_parseChild {left right : TiXmlElement}
    (different : canonicalName left.name ≠ canonicalName right.name) :
    Commute (parseChild cast) left right := by
  intro loc
  simp only [run, parseChild_eq]
  cases leftValue : memberValue cast left with
  | none =>
      cases memberValue cast right <;> rfl
  | some value =>
      cases rightValue : memberValue cast right with
      | none => rfl
      | some other =>
          have members : value.member ≠ other.member := by
            intro same
            apply different
            rw [canonicalName_of_memberOf (member_of_memberValue leftValue),
              canonicalName_of_memberOf (member_of_memberValue rightValue),
              same]
          exact congrArg some (LocationDetail.store_comm loc members)

/-- Behind children with different names the record has their values. -/
theorem carries_of_run {initial loc : LocationDetail}
    (noGroups : initial.groupIds = [])
    (distinct : (children.map fun e => canonicalName e.name).Nodup)
    (execution : run (parseChild cast) initial children = some loc) :
    ∀ e ∈ children, ∃ value,
      memberValue cast e = some value ∧ loc.Carries value := by
  have kept :=
    @history_invariant LocationDetail TiXmlElement (parseChild cast)
      (fun history loc =>
        (history.map fun e => canonicalName e.name).Nodup →
          (∀ e ∈ history, ∃ value,
              memberValue cast e = some value ∧ loc.Carries value) ∧
            ((∀ e ∈ history, memberOf e.name ≠ some .groupIds) →
              loc.groupIds = []))
      ?_ initial loc children ?_ execution distinct
  · exact kept.1
  · intro history middle e next kept stepped distinct
    rw [List.map_append, List.nodup_append] at distinct
    obtain ⟨earlierDistinct, -, apart⟩ := distinct
    obtain ⟨carried, groups⟩ := kept earlierDistinct
    obtain ⟨value, carries, rfl⟩ := parseChild_eq_some_iff.mp stepped
    have newMember := member_of_memberValue carries
    have differs (other : TiXmlElement) (earlier : other ∈ history)
        (member : MessageMember)
        (isMember : memberOf other.name = some member) :
        value.member ≠ member := by
      intro same
      have sameName :
          canonicalName other.name = canonicalName e.name := by
        rw [canonicalName_of_memberOf isMember,
          canonicalName_of_memberOf newMember, same]
      exact
        apart _ (List.mem_map_of_mem earlier) _
          (List.mem_map_of_mem List.mem_cons_self) sameName
    refine ⟨?_, ?_⟩
    · intro other inside
      rcases List.mem_append.mp inside with earlier | last
      · obtain ⟨old, oldCarries, holds⟩ := carried other earlier
        exact ⟨old, oldCarries,
          LocationDetail.carries_store_of_ne holds
            (differs other earlier _ (member_of_memberValue oldCarries))⟩
      · obtain rfl := List.mem_singleton.mp last
        refine ⟨value, carries, LocationDetail.carries_store ?_⟩
        intro isGroups
        apply groups
        intro earlierChild earlier isMember
        exact differs earlierChild earlier _ isMember isGroups
    · intro absent
      rw [List.forall_mem_append, List.forall_mem_singleton] at absent
      have notGroups : value.member ≠ .groupIds := by
        intro same
        exact absent.2 (newMember.trans (congrArg some same))
      have stored := @LocationDetail.sameMember_store middle value .groupIds
        notGroups
      exact Eq.trans stored (groups absent.1)
  · intro _
    exact ⟨by simp, fun _ => noGroups⟩

/-- A message is refused as a whole or gives a record with the value of every
child, whatever the order of its children. -/
theorem parseMsg_of_permuted_children
    {parse : String → Option (List TiXmlNode)} {dc permutedDc : String}
    (document : messageChildren parse dc = some children)
    (permutedDocument : messageChildren parse permutedDc = some others)
    (permuted : others.Perm children)
    (distinct : (children.map fun e => canonicalName e.name).Nodup)
    (cast : LexicalCast) (memory : FreshMemory) :
    parseMsg parse cast memory permutedDc =
        parseMsg parse cast memory dc ∧
      ((∃ e ∈ children, memberValue cast e = none) →
        parseMsg parse cast memory dc = none) ∧
      ((∀ e ∈ children, memberValue cast e ≠ none) →
        ∃ loc, parseMsg parse cast memory dc = some loc ∧
          ∀ e ∈ children, ∃ value,
            memberValue cast e = some value ∧ loc.Carries value) := by
  rw [parseMsg_eq_run document, parseMsg_eq_run permutedDocument]
  refine ⟨?_, ?_, ?_⟩
  · have commutes : children.Pairwise (Commute (parseChild cast)) :=
      (List.pairwise_map.mp distinct).imp commute_parseChild
    exact (run_perm permuted.symm commutes _).symm
  · rintro ⟨e, inside, illegible⟩
    rw [← Option.not_isSome_iff_eq_none, run_parseChild_isSome_iff]
    intro all
    have isSome := all e inside
    rw [illegible] at isSome
    cases isSome
  · intro all
    obtain ⟨loc, execution⟩ :=
      exists_run_of_legible
        (fun e inside => Option.isSome_iff_ne_none.mpr (all e inside))
        (newLocationDetail memory)
    exact ⟨loc, execution, carries_of_run rfl distinct execution⟩

end Order

/-- The element `<name>text</name>`. -/
def textElement (name text : String) : TiXmlNode :=
  .element name [] [.text text]

/-- A device id and group ids, in both orders. -/
theorem parseMsg_of_two_children :
    let parse : String → Option (List TiXmlNode) := fun text =>
      if text = "<NaviMSG><dev_id>2000</dev_id>" ++
          "<group_ids>7, 8</group_ids></NaviMSG>" then
        some [.element "NaviMSG" []
          [textElement "dev_id" "2000", textElement "group_ids" "7, 8"]]
      else if text = "<NaviMSG><group_ids>7, 8</group_ids>" ++
          "<dev_id>2000</dev_id></NaviMSG>" then
        some [.element "NaviMSG" []
          [textElement "group_ids" "7, 8", textElement "dev_id" "2000"]]
      else none
    parseMsg parse decimalCast {}
        ("<NaviMSG><group_ids>7, 8</group_ids>" ++
          "<dev_id>2000</dev_id></NaviMSG>\x00") =
      parseMsg parse decimalCast {}
        ("<NaviMSG><dev_id>2000</dev_id>" ++
          "<group_ids>7, 8</group_ids></NaviMSG>\x00") := by
  intro parse
  exact
    (@parseMsg_of_permuted_children
      [⟨"dev_id", [], [.text "2000"]⟩, ⟨"group_ids", [], [.text "7, 8"]⟩]
      [⟨"group_ids", [], [.text "7, 8"]⟩, ⟨"dev_id", [], [.text "2000"]⟩]
      parse
      ("<NaviMSG><dev_id>2000</dev_id>" ++
        "<group_ids>7, 8</group_ids></NaviMSG>\x00")
      ("<NaviMSG><group_ids>7, 8</group_ids>" ++
        "<dev_id>2000</dev_id></NaviMSG>\x00")
      rfl rfl (List.Perm.swap _ _ _) (by decide +kernel) decimalCast {}).1

end LocationServer
