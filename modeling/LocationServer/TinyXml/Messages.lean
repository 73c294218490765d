import LocationServer.Message.Decoding
import LocationServer.TinyXml.Spelling

/-!
# Messages as texts

A text that spells a `NaviMSG` is decoded as its child elements say, whatever
white space, quotes and references it is written with.
-/

namespace LocationServer

open StepSystem

/-- The text of a message, as the tree that it spells. -/
structure SpelledMessage where
  raw : List Char
  attributes : List (String × String)
  children : List TiXmlNode
  spells : SpellsContent raw [.element "NaviMSG" attributes children]
  isText : '\x00' ∉ raw

namespace SpelledMessage

/-- The chunk, behind which `decodeThread` puts a NUL. -/
def chunk (message : SpelledMessage) : String :=
  String.ofList (message.raw ++ ['\x00'])

theorem cString_chunk (message : SpelledMessage) :
    cString message.chunk = String.ofList message.raw := by
  have inside : ∀ c ∈ message.raw, decide (c ≠ '\x00') = true :=
    fun c member =>
      decide_eq_true (ne_of_mem_of_not_mem member message.isText)
  rw [cString, chunk, String.toList_ofList,
    List.takeWhile_append_of_pos inside, List.takeWhile_cons_of_neg (by simp),
    List.append_nil]

theorem messageChildren_chunk (message : SpelledMessage) :
    messageChildren parsedNodes message.chunk =
      some (childElements message.children) := by
  have parsed :
      parsedNodes (String.ofList message.raw) =
        some [.element "NaviMSG" message.attributes message.children] := by
    rw [parsedNodes, String.toList_ofList,
      parseDocument_spelled message.spells]
    rfl
  have isRoot : cString "NaviMSG" = "NaviMSG" := by decide
  rw [messageChildren, message.cString_chunk, parsed]
  exact if_pos isRoot

theorem parseMsg_chunk (message : SpelledMessage) (cast : LexicalCast)
    (memory : FreshMemory) :
    parseMsg parsedNodes cast memory message.chunk =
      run (parseChild cast) (newLocationDetail memory)
        (childElements message.children) :=
  parseMsg_eq_run message.messageChildren_chunk cast memory

/-- A message with legible children of different names gives a record with
their values, and with what the memory held for the other members. -/
theorem legible_message_is_decoded (message : SpelledMessage)
    (cast : LexicalCast) (memory : FreshMemory)
    (distinct :
      ((childElements message.children).map fun e =>
        canonicalName e.name).Nodup)
    (legible :
      ∀ e ∈ childElements message.children, memberValue cast e ≠ none) :
    ∃ loc, parseMsg parsedNodes cast memory message.chunk = some loc ∧
      (∀ e ∈ childElements message.children, ∃ value,
        memberValue cast e = some value ∧ loc.Carries value) ∧
      ∀ member : MessageMember,
        (∀ e ∈ childElements message.children,
          memberOf e.name ≠ some member) →
            loc.SameMember (newLocationDetail memory) member := by
  obtain ⟨loc, execution⟩ :=
    exists_run_of_legible
      (fun e inside => Option.isSome_iff_ne_none.mpr (legible e inside))
      (newLocationDetail memory)
  exact
    ⟨loc, (message.parseMsg_chunk cast memory).trans execution,
      carries_of_run rfl distinct execution,
      fun member absent => sameMember_run execution absent⟩

end SpelledMessage

/-! ## A message -/

theorem devId_spelled :
    SpellsContent "<dev_id> &#55;</dev_id>\n".toList
      [.element "dev_id" [] [.text "7"]] := by
  have digit : SpellsByte "&#55;".toList '7' :=
    SpellsByte.decimal 55 (by decide)
  have value : SpellsText false "&#55;".toList ['7'] :=
    SpellsText.byte digit (by decide) (SpellsText.nil false)
  have content : SpellsContent " &#55;".toList [.text "7"] :=
    @SpellsContent.text [' '] "#55;".toList [] ['7'] '&' []
      (by decide) value (by decide) (by decide) (Or.inl rfl)
      (SpellsContent.nil (by decide))
  have isName : IsName "dev_id".toList :=
    ⟨⟨'d', "ev_id".toList, rfl, by decide⟩,
      List.all_eq_true.mp (by decide)⟩
  have start : SpellsTag "dev_id".toList "dev_id".toList [] :=
    @SpellsTag.mk "dev_id".toList [] [] [] isName SpellsAttributes.nil
      List.nodup_nil (by decide)
  exact
    @SpellsContent.element [] "dev_id".toList " &#55;".toList [] ['\n']
      "dev_id".toList [] [.text "7"] [] (by decide) start content (by decide)
      (SpellsContent.nil (by decide))

def sampleMessage : SpelledMessage where
  raw := "<NaviMSG type='a'><dev_id> &#55;</dev_id>\n</NaviMSG>".toList
  attributes := [("type", "a")]
  children := [.element "dev_id" [] [.text "7"]]
  spells := by
    have isType : IsName "type".toList :=
      ⟨⟨'t', "ype".toList, rfl, by decide⟩,
        List.all_eq_true.mp (by decide)⟩
    have isMessage : IsName "NaviMSG".toList :=
      ⟨⟨'N', "aviMSG".toList, rfl, by decide⟩,
        List.all_eq_true.mp (by decide)⟩
    have value : SpellsValue '\'' ['a'] ['a'] :=
      SpellsValue.cons (SpellsByte.plain 'a' (by decide)) (by decide)
        SpellsValue.nil
    have pair : SpellsAttribute "type='a'".toList ("type".toList, ['a']) :=
      @SpellsAttribute.mk [] [] "type".toList ['a'] ['a'] '\'' isType
        (by decide) (Or.inl rfl) value
    have pairs :
        SpellsAttributes " type='a'".toList [("type".toList, ['a'])] :=
      @SpellsAttributes.cons [' '] "type='a'".toList [] _ [] (by decide)
        pair SpellsAttributes.nil
    have start :
        SpellsTag "NaviMSG type='a'".toList "NaviMSG".toList
          [("type".toList, ['a'])] :=
      @SpellsTag.mk "NaviMSG".toList " type='a'".toList [] _ isMessage pairs
        (by decide) (by decide)
    exact
      @SpellsContent.element [] "NaviMSG type='a'".toList
        "<dev_id> &#55;</dev_id>\n".toList [] [] "NaviMSG".toList _ _ []
        (by decide) start devId_spelled (by decide)
        (SpellsContent.nil (by decide))
  isText := by decide

theorem legible_message_is_decoded_sample :
    ∃ loc,
      parseMsg parsedNodes decimalCast {} sampleMessage.chunk = some loc ∧
        loc.SameMember (newLocationDetail {}) .userId := by
  obtain ⟨loc, decoded, -, kept⟩ :=
    SpelledMessage.legible_message_is_decoded sampleMessage decimalCast {}
      (by decide +kernel) (by decide +kernel)
  exact ⟨loc, decoded, kept .userId (by decide)⟩

end LocationServer
