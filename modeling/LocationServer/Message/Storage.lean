import LocationServer.Message.Members
import LocationServer.Sync.Recovery

/-!
# Decoded records in the database

The list of group ids is stored as one text with a comma behind each id.  It is
read back because the ids of a decoded message are not empty and hold neither
a comma nor a NUL.
-/

namespace LocationServer

open StepSystem

/-! ## Lists of group ids -/

/-- A group id that the stored text keeps apart from the others. -/
structure Separable (id : GroupId) : Prop where
  nonempty : id ≠ ""
  noComma : ',' ∉ id.toList
  noNul : '\x00' ∉ id.toList

theorem toList_encodeGroupIds (ids : List GroupId) :
    (encodeGroupIds ids).toList = ids.flatMap fun id => id.toList ++ [','] := by
  have stepped (text : String) :
      (ids.foldl (fun text id => text ++ id ++ ",") text).toList =
        text.toList ++ ids.flatMap fun id => id.toList ++ [','] := by
    induction ids generalizing text with
    | nil => simp
    | cons id ids inductionHypothesis =>
        rw [List.foldl_cons, inductionHypothesis]
        simp
  exact stepped ""

theorem splitOn_flatMap {ids : List GroupId}
    (separable : ∀ id ∈ ids, Separable id) :
    (ids.flatMap fun id => id.toList ++ [',']).splitOn ',' =
      ids.map String.toList ++ [[]] := by
  induction ids with
  | nil => rfl
  | cons id ids inductionHypothesis =>
      rw [List.forall_mem_cons] at separable
      rw [List.flatMap_cons, List.append_assoc, List.singleton_append,
        List.splitOn_append_cons_self_of_not_mem separable.1.noComma,
        inductionHypothesis separable.2]
      rfl

/-- The stored text gives the ids back, in order. -/
theorem decodeGroupIds_encodeGroupIds {ids : List GroupId}
    (separable : ∀ id ∈ ids, Separable id) :
    decodeGroupIds (encodeGroupIds ids) = ids := by
  have pieces :
      ((split ',' (encodeGroupIds ids)).filter (· ≠ "")).map
          String.toList =
        ids.map String.toList := by
    have visible (items : List String) :
        (items.filter (· ≠ "")).map String.toList =
          (items.map String.toList).filter (· ≠ []) := by
      rw [List.filter_map]
      congr 2
      funext item
      simp
    rw [visible, toList_split, Tokens.filter_splitOn_squeeze,
      toList_encodeGroupIds, splitOn_flatMap separable, List.filter_append,
      List.filter_eq_self.mpr]
    · simp
    · intro item member
      obtain ⟨id, isId, rfl⟩ := List.mem_map.mp member
      simpa using (separable id isId).nonempty
  exact List.map_injective_iff.mpr (fun _ _ => String.toList_inj.mp) pieces

/-! ## The ids of a message -/

theorem not_mem_cString (text : String) : '\x00' ∉ (cString text).toList := by
  rw [cString, String.toList_ofList]
  intro member
  simpa using List.mem_takeWhile_imp member

theorem not_mem_textValue (e : TiXmlElement) :
    '\x00' ∉ e.textValue.toList := by
  rw [TiXmlElement.textValue, TiXmlElement.getText]
  split
  · exact not_mem_cString _
  · simp

/-- The ids of a text without NUL are separable. -/
theorem separable_of_mem_groupItems {text : String}
    (noNul : '\x00' ∉ text.toList) {id : GroupId}
    (member : id ∈ groupItems text) : Separable id := by
  obtain ⟨item, isItem, isId⟩ := List.mem_filterMap.mp member
  rw [groupItem] at isId
  split at isId
  · cases isId
  · rename_i nonempty
    obtain rfl := Option.some.inj isId
    have inside (character : Char)
        (found : character ∈ (trim (String.ofList item)).toList) :
        character ∈ text.toList ∧ character ≠ ',' := by
      rw [toList_trim, String.toList_ofList] at found
      exact Tokens.mem_of_mem_splitOn isItem (Tokens.mem_of_mem_strip found)
    exact ⟨nonempty, fun found => (inside _ found).2 rfl,
      fun found => noNul (inside _ found).1⟩

/-- The group ids of a decoded message are separable. -/
theorem separable_of_parseMsg
    {parse : String → Option (List TiXmlNode)} {cast : LexicalCast}
    {memory : FreshMemory} {dc : String} {loc : LocationDetail}
    (decoded : parseMsg parse cast memory dc = some loc) :
    ∀ id ∈ loc.groupIds, Separable id := by
  obtain ⟨children, -, execution⟩ := Option.bind_eq_some_iff.mp decoded
  refine
    @invariant_of_run LocationDetail TiXmlElement (parseChild cast)
      (fun loc => ∀ id ∈ loc.groupIds, Separable id) ?_ _ loc children
      ?_ execution
  · intro middle e next separable stepped
    obtain ⟨value, carries, rfl⟩ := parseChild_eq_some_iff.mp stepped
    cases value with
    | groupIds ids =>
        have isItems : ids = groupItems e.textValue := by
          have isGroups := member_of_memberValue carries
          rw [memberValue, isGroups] at carries
          exact (MemberValue.groupIds.inj (Option.some.inj carries)).symm
        rw [LocationDetail.store, List.forall_mem_append]
        refine ⟨separable, ?_⟩
        intro id member
        rw [isItems] at member
        exact separable_of_mem_groupItems (not_mem_textValue e) member
    | userId value => exact separable
    | devId value => exact separable
    | gps value => exact separable
    | linkId value => exact separable
  · intro id impossible
    cases impossible

/-- A decoded record is read back from its document, and the stored text of
its group ids has no NUL that would cut it short. -/
theorem decoded_record_round_trip
    {parse : String → Option (List TiXmlNode)} {cast : LexicalCast}
    {memory : FreshMemory} {dc : String} {loc : LocationDetail}
    (decoded : parseMsg parse cast memory dc = some loc) :
    decodeLocation (encodeLocation loc) = some loc ∧
      '\x00' ∉ (encodeGroupIds loc.groupIds).toList := by
  have separable := separable_of_parseMsg decoded
  refine ⟨?_, ?_⟩
  · rw [decodeLocation_encodeLocation, LocationDetail.reloaded,
      decodeGroupIds_encodeGroupIds separable]
  · rw [toList_encodeGroupIds, List.mem_flatMap]
    rintro ⟨id, isId, found⟩
    rw [List.mem_append, List.mem_singleton] at found
    rcases found with inside | isComma
    · exact (separable id isId).noNul inside
    · exact absurd isComma (by decide)

/-- The message with the group ids of the test script. -/
theorem decoded_record_round_trip_sample :
    let parse : String → Option (List TiXmlNode) := fun text =>
      if text = "<NaviMSG><group_ids>1001,1002,1003</group_ids></NaviMSG>" then
        some [.element "NaviMSG" []
          [.element "group_ids" [] [.text "1001,1002,1003"]]]
      else none
    let loc : LocationDetail :=
      { newLocationDetail {} with groupIds := ["1001", "1002", "1003"] }
    parseMsg parse decimalCast {}
        "<NaviMSG><group_ids>1001,1002,1003</group_ids></NaviMSG>\x00" =
          some loc ∧
      decodeLocation (encodeLocation loc) = some loc := by
  intro parse loc
  have decoded :
      parseMsg parse decimalCast {}
          "<NaviMSG><group_ids>1001,1002,1003</group_ids></NaviMSG>\x00" =
        some loc := by
    decide +kernel
  exact ⟨decoded, (@decoded_record_round_trip parse decimalCast {} _ loc
    decoded).1⟩

end LocationServer
