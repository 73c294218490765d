import LocationServer.Message
import LocationServer.Text

/-!
# The members that a message sets

Each child element of a message sets one member of the record, or adds to its
group ids, with a value that does not depend on the record.  An unknown or
malformed child makes `parseMsg` fail whatever came before it.
-/

namespace LocationServer

open StepSystem

/-! ## Values of child elements -/

/-- The members of a record that have an element of their own. -/
inductive MessageMember where
  | userId
  | devId
  | gps
  | linkId
  | groupIds
  deriving DecidableEq, Repr

/-- The member that an element name stands for. -/
def memberOf (name : String) : Option MessageMember :=
  if name = "user_id" then some .userId
  else if name = "dev_id" then some .devId
  else if name = "gps" ∨ name = "GPS" then some .gps
  else if name = "roadlink" then some .linkId
  else if name = "group_ids" then some .groupIds
  else none

/-- A member with its value. -/
inductive MemberValue where
  | userId (value : UniqueId)
  | devId (value : UniqueId)
  | gps (value : GpsData)
  | linkId (value : UniqueId)
  | groupIds (value : List GroupId)
  deriving DecidableEq, Repr

def MemberValue.member : MemberValue → MessageMember
  | .userId _ => .userId
  | .devId _ => .devId
  | .gps _ => .gps
  | .linkId _ => .linkId
  | .groupIds _ => .groupIds

/-- The trimmed item of a list of group ids, if it is not empty. -/
def groupItem (item : List Char) : Option GroupId :=
  let id := trim (String.ofList item)
  if id = "" then none else some id

/-- The group ids of a text: its trimmed items between commas that are not
empty. -/
def groupItems (text : String) : List GroupId :=
  (text.toList.splitOn ',').filterMap groupItem

/-- The value that a child element carries; `none` for an unknown name or a
malformed value. -/
def memberValue (cast : LexicalCast) (e : TiXmlElement) :
    Option MemberValue :=
  match memberOf e.name with
  | some .userId => (cast.uint64 e.textValue).map .userId
  | some .devId => (cast.uint64 e.textValue).map .devId
  | some .gps => do
      let lon ← cast.float (e.attributeOrZero "lon")
      let lat ← cast.float (e.attributeOrZero "lat")
      let time ← cast.uint32 (e.attributeOrZero "time")
      let speed ← cast.float (e.attributeOrZero "speed")
      let direction ← cast.float (e.attributeOrZero "direction")
      return .gps { pt := { lon, lat }, time, speed, direction }
  | some .linkId =>
      (cast.uint64 (if e.textValue = "" then "0" else e.textValue)).map
        .linkId
  | some .groupIds => some (.groupIds (groupItems e.textValue))
  | none => none

/-- The element name of a member. -/
def MessageMember.elementName : MessageMember → String
  | .userId => "user_id"
  | .devId => "dev_id"
  | .gps => "gps"
  | .linkId => "roadlink"
  | .groupIds => "group_ids"

/-- An element name, with `gps` and `GPS` as one. -/
def canonicalName (name : String) : String :=
  if name = "GPS" then "gps" else name

theorem canonicalName_of_memberOf {name : String} {member : MessageMember}
    (isMember : memberOf name = some member) :
    canonicalName name = member.elementName := by
  simp only [memberOf] at isMember
  split at isMember
  · rename_i isName
    cases isMember
    rw [isName]
    rfl
  · split at isMember
    · rename_i isName
      cases isMember
      rw [isName]
      rfl
    · split at isMember
      · rename_i isName
        cases isMember
        rcases isName with isName | isName
        · rw [isName]
          rfl
        · rw [isName]
          rfl
      · split at isMember
        · rename_i isName
          cases isMember
          rw [isName]
          rfl
        · split at isMember
          · rename_i isName
            cases isMember
            rw [isName]
            rfl
          · cases isMember

theorem member_of_memberValue {cast : LexicalCast} {e : TiXmlElement}
    {value : MemberValue} (carries : memberValue cast e = some value) :
    memberOf e.name = some value.member := by
  rw [memberValue] at carries
  cases member : memberOf e.name with
  | none =>
      rw [member] at carries
      cases carries
  | some found =>
      rw [member] at carries
      cases found with
      | gps =>
          simp only [Option.bind_eq_bind, Option.bind_eq_some_iff,
            Option.pure_def, Option.some.injEq] at carries
          obtain ⟨lon, -, lat, -, time, -, speed, -, direction, -, rfl⟩ :=
            carries
          rfl
      | userId =>
          obtain ⟨number, -, rfl⟩ := Option.map_eq_some_iff.mp carries
          rfl
      | devId =>
          obtain ⟨number, -, rfl⟩ := Option.map_eq_some_iff.mp carries
          rfl
      | linkId =>
          obtain ⟨number, -, rfl⟩ := Option.map_eq_some_iff.mp carries
          rfl
      | groupIds =>
          obtain rfl := Option.some.inj carries
          rfl

namespace LocationDetail

/-- The record with one member set; group ids are added. -/
def store (loc : LocationDetail) : MemberValue → LocationDetail
  | .userId userId => { loc with userId }
  | .devId devId => { loc with devId }
  | .gps gps => { loc with gps }
  | .linkId linkId => { loc with linkId }
  | .groupIds ids => { loc with groupIds := loc.groupIds ++ ids }

/-- The record has the value of a member. -/
def Carries (loc : LocationDetail) : MemberValue → Prop
  | .userId userId => loc.userId = userId
  | .devId devId => loc.devId = devId
  | .gps gps => loc.gps = gps
  | .linkId linkId => loc.linkId = linkId
  | .groupIds ids => loc.groupIds = ids

/-- Two records agree on a member. -/
def SameMember (loc other : LocationDetail) : MessageMember → Prop
  | .userId => loc.userId = other.userId
  | .devId => loc.devId = other.devId
  | .gps => loc.gps = other.gps
  | .linkId => loc.linkId = other.linkId
  | .groupIds => loc.groupIds = other.groupIds

theorem eq_of_sameMember {loc other : LocationDetail}
    (same : ∀ member, loc.SameMember other member) : loc = other := by
  have userId : loc.userId = other.userId := same .userId
  have devId : loc.devId = other.devId := same .devId
  have gps : loc.gps = other.gps := same .gps
  have linkId : loc.linkId = other.linkId := same .linkId
  have groupIds : loc.groupIds = other.groupIds := same .groupIds
  cases loc
  cases other
  simp_all

namespace SameMember

variable {loc other third : LocationDetail} {member : MessageMember}

theorem refl (loc : LocationDetail) (member : MessageMember) :
    loc.SameMember loc member := by
  cases member <;> rfl

theorem symm (same : loc.SameMember other member) :
    other.SameMember loc member := by
  cases member <;> exact Eq.symm same

theorem trans (same : loc.SameMember other member)
    (next : other.SameMember third member) :
    loc.SameMember third member := by
  cases member <;> exact Eq.trans same next

end SameMember

/-- Members that are not set stay as they are. -/
theorem sameMember_store {loc : LocationDetail} {value : MemberValue}
    {member : MessageMember} (different : value.member ≠ member) :
    (loc.store value).SameMember loc member := by
  cases value <;> cases member <;>
    first
    | rfl
    | exact absurd rfl different

/-- Setting a member keeps the values of the others. -/
theorem carries_store_of_ne {loc : LocationDetail}
    {value stored : MemberValue} (carries : loc.Carries value)
    (different : stored.member ≠ value.member) :
    (loc.store stored).Carries value := by
  cases stored <;> cases value <;>
    first
    | exact carries
    | exact absurd rfl different

/-- A member that is set has its value; group ids were empty before. -/
theorem carries_store {loc : LocationDetail} {value : MemberValue}
    (fresh : value.member = .groupIds → loc.groupIds = []) :
    (loc.store value).Carries value := by
  cases value with
  | groupIds ids =>
      have empty := fresh rfl
      simp only [Carries, store, empty, List.nil_append]
  | userId value => rfl
  | devId value => rfl
  | gps value => rfl
  | linkId value => rfl

/-- Values of different members are set in any order. -/
theorem store_comm (loc : LocationDetail) {left right : MemberValue}
    (different : left.member ≠ right.member) :
    (loc.store left).store right = (loc.store right).store left := by
  cases left <;> cases right <;>
    first
    | rfl
    | exact absurd rfl different

end LocationDetail

/-! ## The loop body -/

/-- The loop over the items of a list of group ids. -/
theorem foldl_addGroup (loc : LocationDetail) (items : List String) :
    items.foldl
        (fun loc id =>
          let id := trim id
          if id = "" then loc else loc.addGroup id)
        loc =
      loc.store
        (.groupIds
          (items.filterMap fun id => groupItem id.toList)) := by
  induction items generalizing loc with
  | nil => simp [LocationDetail.store]
  | cons item items inductionHypothesis =>
      rw [List.foldl_cons, inductionHypothesis, List.filterMap_cons,
        groupItem, String.ofList_toList]
      dsimp only
      split
      · rfl
      · simp [LocationDetail.store, LocationDetail.addGroup]

theorem filterMap_groupItem (text : String) :
    ((split ',' text).filterMap fun id => groupItem id.toList) =
      groupItems text := by
  have blank : groupItem [] = none := rfl
  rw [← Function.comp_def groupItem String.toList, ← List.filterMap_map,
    toList_split, Tokens.filterMap_splitOn_squeeze blank, groupItems]

/-- A child sets the member it names, if its value is well formed. -/
theorem parseChild_eq (cast : LexicalCast) (loc : LocationDetail)
    (e : TiXmlElement) :
    parseChild cast loc e = (memberValue cast e).map loc.store := by
  rw [parseChild, memberValue, memberOf]
  dsimp only
  split
  · cases cast.uint64 e.textValue <;> rfl
  · split
    · cases cast.uint64 e.textValue <;> rfl
    · split
      · cases cast.float (e.attributeOrZero "lon") with
        | none => rfl
        | some lon =>
            cases cast.float (e.attributeOrZero "lat") with
            | none => rfl
            | some lat =>
                cases cast.uint32 (e.attributeOrZero "time") with
                | none => rfl
                | some time =>
                    cases cast.float (e.attributeOrZero "speed") with
                    | none => rfl
                    | some speed =>
                        cases cast.float (e.attributeOrZero "direction") <;>
                          rfl
      · split
        · cases cast.uint64
            (if e.textValue = "" then "0" else e.textValue) <;> rfl
        · split
          · rw [foldl_addGroup, filterMap_groupItem]
            rfl
          · rfl

theorem parseChild_eq_some_iff {cast : LexicalCast}
    {loc next : LocationDetail} {e : TiXmlElement} :
    parseChild cast loc e = some next ↔
      ∃ value, memberValue cast e = some value ∧ loc.store value = next := by
  rw [parseChild_eq, Option.map_eq_some_iff]

theorem parseChild_isSome_iff {cast : LexicalCast}
    (loc : LocationDetail) (e : TiXmlElement) :
    (parseChild cast loc e).isSome = true ↔
      (memberValue cast e).isSome = true := by
  rw [parseChild_eq, Option.isSome_map]

end LocationServer
