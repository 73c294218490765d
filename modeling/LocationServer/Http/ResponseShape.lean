import LocationServer.Http.Response

/-!
# The shape of a reply

A reply is to be the header block and one `result` element, with the records
that answer the request or with one error.  Two requests get another one: a
`dev_id` that does not convert gets no header, and a result as long as the
buffer of the web server loses its last character.
-/

namespace LocationServer

open Xml

/-! ## What a reply is to be -/

/-- The element of a record. -/
def LocationDetail.attributes (loc : LocationDetail) : List (Text × Text) :=
  [("user_id".toList, unsignedText loc.userId.toNat),
    ("dev_id".toList, unsignedText loc.devId.toNat),
    ("lon".toList, floatText loc.gps.pt.lon),
    ("lat".toList, floatText loc.gps.pt.lat),
    ("time".toList, unsignedText loc.gps.time.toNat),
    ("speed".toList, floatText loc.gps.speed),
    ("direction".toList, floatText loc.gps.direction),
    ("roadlink".toList, unsignedText loc.linkId.toNat)]

def LocationDetail.element (loc : LocationDetail) : Element where
  name := "location".toList
  attributes := loc.attributes
  children := []

def HttpQueryError.element (reason : HttpQueryError) : Element where
  name := "error".toList
  attributes := [("code".toList, Decimal.write reason.value)]
  children := []

/-- The answer to a request for the record of a device. -/
def locationGetAnswer (cast : LexicalCast) (pool : AOPool)
    (vars : String → String) : Except HttpQueryError (List LocationDetail) :=
  match cast.uint64 (getQsvar vars "dev_id" "") with
  | none => .error .paramDirty
  | some id =>
      match pool.whereis id with
      | some loc => .ok [loc]
      | none => .error .devNotExist

/-- The `result` element of an answer: the code 0 with the records and no
error, or the code 1 with one error and no record. -/
def IsResult (answer : Except HttpQueryError (List LocationDetail))
    (root : Element) : Prop :=
  root.name = "result".toList ∧
    match answer with
    | .ok locs =>
        root.attributes = [("code".toList, "0".toList)] ∧
          root.getElementsByTagName "error".toList = [] ∧
          root.getElementsByTagName "location".toList =
            locs.map LocationDetail.element
    | .error reason =>
        root.attributes = [("code".toList, "1".toList)] ∧
          root.getElementsByTagName "error".toList = [reason.element] ∧
          root.getElementsByTagName "location".toList = []

/-- One header block, followed by one `result` element and nothing else. -/
def IsReply (answer : Except HttpQueryError (List LocationDetail))
    (reply : Text) : Prop :=
  ∃ (body : Text) (root : Element), reply = httpResponse ++ body ∧
    wholeContent body = some [root.node] ∧ IsResult answer root

/-! ## Sizes -/

/-- The number of characters that the numbers of a record take. -/
def LocationDetail.digits (loc : LocationDetail) : Nat :=
  (loc.attributes.map fun pair => pair.2.length).sum

/-- A text of this length leaves `mg_printf` as it is. -/
def PrintsWhole (length : Nat) : Prop :=
  length < intMax ∧ length ≠ mgBufLen

theorem mgPrintf_of_printsWhole {text : Text}
    (whole : PrintsWhole text.length) : mgPrintf text = text := by
  rw [mgPrintf, if_neg (Nat.not_le.mpr whole.1), if_neg whole.2]

/-! ## Records and errors as elements -/

theorem LocationDetail.plain_attributes (loc : LocationDetail) :
    ∀ pair ∈ loc.attributes, Plain pair.2 := by
  simp [LocationDetail.attributes, unsignedText, floatText, plain_write,
    plain_writeFixed]

theorem LocationDetail.toXml_eq (loc : LocationDetail) :
    loc.toXml =
      '<' :: ("location".toList ++
        (renderAttributes loc.attributes ++ "/>".toList)) := by
  simp [LocationDetail.toXml, LocationDetail.attributes, boostFormat,
    renderAttributes]

theorem LocationDetail.length_toXml (loc : LocationDetail) :
    loc.toXml.length = loc.digits + 88 := by
  rw [loc.toXml_eq]
  simp [LocationDetail.attributes, LocationDetail.digits, renderAttributes]
  omega

/-- A record is read as its element, whatever follows. -/
theorem LocationDetail.element_toXml (loc : LocationDetail) (after : Text)
    (fuel : Nat) :
    Xml.element (fuel + 1)
        ("location".toList ++
          (renderAttributes loc.attributes ++ '/' :: '>' :: after)) =
      some (loc.element, after) := by
  have valid : ∀ pair ∈ loc.attributes, isName pair.1 = true := by
    simp only [LocationDetail.attributes, List.forall_mem_cons]
    decide
  have distinct : (loc.attributes.map Prod.fst).Nodup := by
    simp only [LocationDetail.attributes, List.map_cons, List.map_nil]
    decide
  exact
    element_render_empty (by decide) valid distinct loc.plain_attributes
      after fuel

/-! ## Lists of records -/

/-- The nodes of a list: a line end follows every record. -/
def locationNodes (list : List LocationDetail) : List Node :=
  list.flatMap fun loc => [loc.element.node, .text "\n".toList]

theorem head_locations (list : List LocationDetail) :
    ∀ c ∈ (list.flatMap fun loc => loc.toXml ++ "\n".toList).head?,
      c = '<' := by
  cases list with
  | nil => simp
  | cons loc list =>
      rw [List.flatMap_cons, loc.toXml_eq]
      intro c isHead
      exact (Option.some.inj isHead).symm

theorem content_locations (list : List LocationDetail) {fuel : Nat}
    (enough : 2 * list.length < fuel) :
    content fuel (list.flatMap fun loc => loc.toXml ++ "\n".toList) =
      some (locationNodes list, []) := by
  induction list generalizing fuel with
  | nil =>
      obtain ⟨fuel, rfl⟩ : ∃ other, fuel = other + 1 :=
        ⟨fuel - 1, by omega⟩
      rfl
  | cons loc list inductionHypothesis =>
      obtain ⟨fuel, rfl⟩ : ∃ other, fuel = other + 2 :=
        ⟨fuel - 2, by rw [List.length_cons] at enough; omega⟩
      have others := @inductionHypothesis fuel
        (by rw [List.length_cons] at enough; omega)
      have begins := head_locations list
      rw [List.flatMap_cons]
      generalize
        (list.flatMap fun loc => loc.toXml ++ "\n".toList) = after
        at others begins ⊢
      have isText :
          loc.toXml ++ "\n".toList ++ after =
            '<' :: ("location".toList ++
              (renderAttributes loc.attributes ++
                '/' :: '>' :: ("\n".toList ++ after))) := by
        simp [loc.toXml_eq]
      have lineEnd : charData "\n".toList = some "\n".toList := rfl
      rw [isText,
        content_element (by decide) (loc.element_toXml _ fuel),
        content_charData (by decide) (by decide) lineEnd begins, others]
      rfl

theorem wholeContent_locations (list : List LocationDetail) :
    wholeContent (list.flatMap fun loc => loc.toXml ++ "\n".toList) =
      some (locationNodes list) := by
  have bound :
      2 * list.length ≤
        (list.flatMap fun loc => loc.toXml ++ "\n".toList).length := by
    induction list with
    | nil => exact Nat.le_refl 0
    | cons loc list inductionHypothesis =>
        rw [List.flatMap_cons, List.length_append, List.length_append,
          loc.length_toXml, List.length_cons]
        omega
  rw [wholeContent, content_locations list (by omega)]
  rfl

theorem wholeContent_toXml (list : List LocationDetail) :
    wholeContent (toXml list) =
      some [.element "locations".toList [] (locationNodes list)] := by
  have inside := wholeContent_locations list
  have isText (body : Text) :
      "<locations>".toList ++ (body ++ "</locations>".toList) =
        '<' :: ("locations".toList ++ (renderAttributes [] ++
          '>' :: (body ++
            '<' :: '/' :: ("locations".toList ++ ['>'])))) :=
    rfl
  unfold toXml
  rw [List.append_assoc, isText]
  generalize
    (list.flatMap fun loc => loc.toXml ++ "\n".toList) = body at inside ⊢
  apply
    @wholeContent_of_element "locations".toList _
      ⟨"locations".toList, [], locationNodes list⟩ (by decide)
  have enough :
      body.length <
        ("locations".toList ++ (renderAttributes [] ++
          '>' :: (body ++
            '<' :: '/' :: ("locations".toList ++ ['>'])))).length := by
    simp only [List.length_append, List.length_cons]
    omega
  exact
    element_render (by decide) (by simp) (by simp) (by simp) inside []
      enough

theorem allNamed_locationNodes (list : List LocationDetail) :
    Node.allNamed "location".toList (locationNodes list) =
        list.map LocationDetail.element ∧
      Node.allNamed "error".toList (locationNodes list) = [] := by
  induction list with
  | nil => exact ⟨rfl, rfl⟩
  | cons loc list inductionHypothesis =>
      have unfolded :
          locationNodes (loc :: list) =
            loc.element.node :: .text "\n".toList :: locationNodes list :=
        rfl
      rw [unfolded]
      refine ⟨?_, ?_⟩
      · rw [@allNamed_cons_of_name loc.element "location".toList rfl,
          List.map_cons, ← inductionHypothesis.1]
        rfl
      · exact inductionHypothesis.2

/-! ## The result element -/

/-- Both spellings of the code are read the same. -/
def Opens (spelled code : Text) : Prop :=
  ∀ rest,
    startTag ("result".toList ++ (spelled ++ rest)) =
      some (⟨"result".toList, [("code".toList, code)], false⟩, rest)

def resultText (spelled inside ending : Text) : Text :=
  '<' :: ("result".toList ++ (spelled ++ (inside ++ ending)))

instance (length : Nat) : Decidable (PrintsWhole length) :=
  inferInstanceAs (Decidable (_ ∧ _))

section Result

variable {spelled code inside : Text} {nodes : List Node}

theorem element_result (opens : Opens spelled code)
    (whole : wholeContent inside = some nodes) (ending : Text) {fuel : Nat}
    (enough : inside.length < fuel) :
    element (fuel + 1)
        ("result".toList ++
          (spelled ++ (inside ++ '<' :: '/' :: ending))) =
      (endTag "result".toList ('<' :: '/' :: ending)).map fun rest =>
        (⟨"result".toList, [("code".toList, code)], nodes⟩, rest) := by
  rw [element, opens, Option.bind_some]
  dsimp only
  rw [if_neg Bool.false_ne_true, content_of_wholeContent whole _ enough,
    Option.bind_some]

theorem wholeContent_result (opens : Opens spelled code)
    (whole : wholeContent inside = some nodes) :
    wholeContent (resultText spelled inside "</result>".toList) =
      some [.element "result".toList [("code".toList, code)] nodes] := by
  apply
    @wholeContent_of_element "result".toList _
      ⟨"result".toList, [("code".toList, code)], nodes⟩ (by decide)
  have enough :
      inside.length <
        ("result".toList ++
          (spelled ++ (inside ++ "</result>".toList))).length := by
    simp
    omega
  exact element_result opens whole "result>".toList enough

/-- A result that has lost the end of its end tag is no element. -/
theorem not_wholeContent_cut (opens : Opens spelled code)
    (whole : wholeContent inside = some nodes) (root : Element) :
    wholeContent (resultText spelled inside "</result\x00".toList) ≠
      some [root.node] := by
  intro read
  obtain ⟨rest, kind, isElement⟩ := element_of_wholeContent read
  have isRest := (List.cons.inj (eq_cons_of_markup kind)).2
  have enough :
      inside.length <
        ("result".toList ++
          (spelled ++ (inside ++ "</result\x00".toList))).length := by
    simp
    omega
  have stuck := element_result opens whole "result\x00".toList enough
  have ends :
      endTag "result".toList ('<' :: '/' :: "result\x00".toList) = none :=
    rfl
  rw [ends] at stuck
  rw [← isRest] at isElement
  cases isElement.symm.trans stuck

theorem length_resultText (ending : Text) :
    (resultText spelled inside ending).length =
      inside.length + spelled.length + ending.length + 7 := by
  simp [resultText]
  omega

/-- A result as long as the buffer loses its last character. -/
theorem mgPrintf_of_full
    (full :
      (resultText spelled inside "</result>".toList).length = mgBufLen) :
    mgPrintf (resultText spelled inside "</result>".toList) =
      resultText spelled inside "</result\x00".toList := by
  have isText :
      resultText spelled inside "</result>".toList =
        resultText spelled inside "</result".toList ++ ['>'] := by
    simp [resultText]
  have kept :
      (resultText spelled inside "</result".toList).length =
        mgBufLen - 1 := by
    rw [← full, isText, List.length_append]
    rfl
  have small : ¬intMax ≤ mgBufLen := by decide
  rw [mgPrintf, full, if_neg small, if_pos rfl, isText, ← kept,
    List.take_left]
  simp [resultText]

theorem prepareHttpXml_eq : prepareHttpXml = httpResponse :=
  mgPrintf_of_printsWhole (by decide)

/-- A reply that begins with the header is as it is to be exactly when its
result is written whole. -/
theorem isReply_iff
    {answer : Except HttpQueryError (List LocationDetail)}
    (opens : Opens spelled code)
    (whole : wholeContent inside = some nodes)
    (isResult :
      IsResult answer ⟨"result".toList, [("code".toList, code)], nodes⟩) :
    IsReply answer
        (prepareHttpXml ++
          mgPrintf (resultText spelled inside "</result>".toList)) ↔
      PrintsWhole (inside.length + spelled.length + 16) := by
  have length :
      (resultText spelled inside "</result>".toList).length =
        inside.length + spelled.length + 16 :=
    length_resultText _
  rw [prepareHttpXml_eq, ← length]
  refine ⟨?_, ?_⟩
  · rintro ⟨body, root, same, isBody, -⟩
    rw [← List.append_cancel_left same] at isBody
    refine ⟨?_, ?_⟩
    · by_contra tooLong
      rw [mgPrintf, if_pos (Nat.not_lt.mp tooLong)] at isBody
      cases isBody
    · intro full
      rw [mgPrintf_of_full full] at isBody
      exact not_wholeContent_cut opens whole root isBody
  · intro printed
    rw [mgPrintf_of_printsWhole printed]
    exact
      ⟨_, ⟨"result".toList, [("code".toList, code)], nodes⟩, rfl,
        wholeContent_result opens whole, isResult⟩

end Result

/-! ## The replies of the two requests -/

/-- An error is one empty element. -/
def HttpQueryError.toXml (reason : HttpQueryError) : Text :=
  '<' :: ("error".toList ++
    (renderAttributes [("code".toList, Decimal.write reason.value)] ++
      "/>".toList))

theorem HttpQueryError.wholeContent_toXml (reason : HttpQueryError) :
    wholeContent reason.toXml = some [reason.element.node] := by
  apply @wholeContent_of_element "error".toList _ reason.element (by decide)
  exact
    element_render_empty (by decide) (by simp; decide) (by simp)
      (by simp [plain_write]) [] _

theorem isResult_error (reason : HttpQueryError) :
    IsResult (.error reason)
      ⟨"result".toList, [("code".toList, "1".toList)],
        [reason.element.node]⟩ := by
  exact ⟨rfl, rfl, rfl, rfl⟩

theorem isReply_errorReturn (reason : HttpQueryError) :
    IsReply (.error reason) (errorReturn reason) := by
  have isText :
      boostFormat
          "<result code =\"%d\"><error code=\"%d\"/></result>".toList
          [Decimal.write HttpErrors.error.value,
            Decimal.write reason.value] =
        resultText " code =\"1\">".toList reason.toXml
          "</result>".toList := by
    cases reason <;> rfl
  have opens : Opens " code =\"1\">".toList "1".toList := fun _ => rfl
  rw [errorReturn, isText,
    isReply_iff opens reason.wholeContent_toXml (isResult_error reason)]
  cases reason <;> decide

theorem isResult_location (loc : LocationDetail) :
    IsResult (.ok [loc])
      ⟨"result".toList, [("code".toList, "0".toList)],
        [loc.element.node]⟩ :=
  ⟨rfl, rfl, rfl, rfl⟩

theorem LocationDetail.wholeContent_toXml (loc : LocationDetail) :
    wholeContent loc.toXml = some [loc.element.node] := by
  rw [loc.toXml_eq]
  exact
    @wholeContent_of_element "location".toList _ loc.element (by decide)
      (loc.element_toXml [] _)

theorem isResult_locations (list : List LocationDetail) :
    IsResult (.ok list)
      ⟨"result".toList, [("code".toList, "0".toList)],
        [.element "locations".toList [] (locationNodes list)]⟩ := by
  obtain ⟨locations, errors⟩ := allNamed_locationNodes list
  refine ⟨rfl, rfl, ?_, ?_⟩
  · exact (List.append_nil _).trans errors
  · exact (List.append_nil _).trans locations

theorem length_toXml (list : List LocationDetail) :
    (toXml list).length =
      (list.map fun loc => loc.digits + 89).sum + 23 := by
  have inside :
      (list.flatMap fun loc => loc.toXml ++ "\n".toList).length =
        (list.map fun loc => loc.digits + 89).sum := by
    rw [List.length_flatMap]
    apply congrArg List.sum
    apply List.map_congr_left
    intro loc _
    rw [List.length_append, loc.length_toXml]
    rfl
  have opening : "<locations>".toList.length = 11 := rfl
  have closing : "</locations>".toList.length = 12 := rfl
  unfold toXml
  rw [List.length_append, List.length_append, inside, opening, closing]
  omega

/-- The texts of `/location_get` are results. -/
theorem locationGetXml_succ (xml : Text) :
    locationGetXml .succ .unknown xml =
      resultText " code=\"0\">".toList xml "</result>".toList := by
  unfold locationGetXml
  rw [if_neg (by decide), List.append_nil, List.append_assoc]
  rfl

theorem locationGetXml_error (reason : HttpQueryError) :
    locationGetXml .error reason [] =
      resultText " code=\"1\">".toList reason.toXml
        "</result>".toList := by
  cases reason <;> rfl

theorem isReply_locationGet_succ (loc : LocationDetail) :
    IsReply (.ok [loc])
        (prepareHttpXml ++
          mgPrintf (locationGetXml .succ .unknown loc.toXml)) ↔
      PrintsWhole (loc.digits + 114) := by
  have opens : Opens " code=\"0\">".toList "0".toList := fun _ => rfl
  rw [locationGetXml_succ,
    isReply_iff opens loc.wholeContent_toXml (isResult_location loc),
    loc.length_toXml]
  rfl

theorem isReply_locationGet_error (reason : HttpQueryError) :
    IsReply (.error reason)
      (prepareHttpXml ++ mgPrintf (locationGetXml .error reason [])) := by
  have opens : Opens " code=\"1\">".toList "1".toList := fun _ => rfl
  rw [locationGetXml_error,
    isReply_iff opens reason.wholeContent_toXml (isResult_error reason)]
  cases reason <;> decide

/-- Without the header there is no reply. -/
theorem not_isReply_of_result (reason : HttpQueryError)
    (answer : Except HttpQueryError (List LocationDetail)) :
    ¬IsReply answer (mgPrintf (locationGetXml .error reason [])) := by
  have small :
      PrintsWhole (locationGetXml .error reason []).length := by
    cases reason <;> decide
  rw [mgPrintf_of_printsWhole small]
  rintro ⟨body, root, same, -⟩
  have heads : some '<' = some 'H' := congrArg List.head? same
  exact absurd heads (by decide)

theorem isReply_spatialQueryReturn (list : List LocationDetail) :
    IsReply (.ok list) (spatialQueryReturn (toXml list)) ↔
      PrintsWhole ((list.map fun loc => loc.digits + 89).sum + 50) := by
  have opens : Opens " code =\"0\">".toList "0".toList := fun _ => rfl
  have isText (xml : Text) :
      boostFormat "<result code =\"%d\">%s</result>".toList
          [Decimal.write HttpErrors.succ.value, xml] =
        resultText " code =\"0\">".toList xml "</result>".toList :=
    rfl
  rw [spatialQueryReturn, isText,
    isReply_iff opens (wholeContent_toXml list) (isResult_locations list),
    length_toXml]
  rfl

/-- The reply to a request is as it is to be. -/
def Replies (cast : LexicalCast) (server : LocServer) (now : Int64)
    (vars : String → String) (uri : String)
    (answer : Except HttpQueryError (List LocationDetail)) : Prop :=
  ∃ reply, HttpService.handle cast server now uri vars = some reply ∧
    IsReply answer reply

theorem replies_iff_of_handle {cast : LexicalCast} {server : LocServer}
    {now : Int64} {vars : String → String} {uri : String}
    {answer : Except HttpQueryError (List LocationDetail)} {reply : Text}
    (handled : HttpService.handle cast server now uri vars = some reply) :
    Replies cast server now vars uri answer ↔ IsReply answer reply := by
  unfold Replies
  rw [handled]
  simp

theorem locationGet_replies_iff (cast : LexicalCast) (server : LocServer)
    (now : Int64) (vars : String → String) :
    Replies cast server now vars "/location_get"
        (locationGetAnswer cast server.pool vars) ↔
      ∃ id, cast.uint64 (getQsvar vars "dev_id" "") = some id ∧
        ∀ loc, server.pool.whereis id = some loc →
          PrintsWhole (loc.digits + 114) := by
  have handled :
      HttpService.handle cast server now "/location_get" vars =
        some (handleLocationGet cast server.pool vars) :=
    if_pos rfl
  rw [replies_iff_of_handle handled]
  unfold handleLocationGet locationGetAnswer
  cases cast.uint64 (getQsvar vars "dev_id" "") with
  | none =>
      refine iff_of_false (not_isReply_of_result .paramDirty _) ?_
      rintro ⟨id, missing, -⟩
      cases missing
  | some id =>
      dsimp only
      cases found : server.pool.whereis id with
      | none =>
          refine iff_of_true (isReply_locationGet_error .devNotExist) ?_
          refine ⟨id, rfl, ?_⟩
          intro loc missing
          rw [found] at missing
          cases missing
      | some loc =>
          dsimp only
          rw [isReply_locationGet_succ]
          refine ⟨?_, ?_⟩
          · intro whole
            refine ⟨id, rfl, ?_⟩
            intro other isLoc
            rw [found] at isLoc
            obtain rfl := Option.some.inj isLoc
            exact whole
          · rintro ⟨other, same, whole⟩
            obtain rfl := Option.some.inj same
            exact whole loc found

theorem spatialQuery_replies_iff (cast : LexicalCast) (server : LocServer)
    (now : Int64) (vars : String → String) :
    Replies cast server now vars "/spatial_query"
        (handleSpatialQuery cast
          server.props.spatialqueryRestrictMaxregion server.map now
          vars) ↔
      ∀ qc,
        admitSpatialQuery cast
            server.props.spatialqueryRestrictMaxregion vars = .ok qc →
          PrintsWhole
            (((server.map.spatialQuery now [] qc).map fun loc =>
              loc.digits + 89).sum + 50) := by
  have handled :
      HttpService.handle cast server now "/spatial_query" vars =
        some
          (spatialQueryReply
            (handleSpatialQuery cast
              server.props.spatialqueryRestrictMaxregion server.map now
              vars)) :=
    (if_neg (by decide)).trans (if_pos rfl)
  rw [replies_iff_of_handle handled]
  unfold handleSpatialQuery
  cases admitSpatialQuery cast server.props.spatialqueryRestrictMaxregion
    vars with
  | error reason =>
      refine iff_of_true (isReply_errorReturn reason) ?_
      intro qc missing
      cases missing
  | ok qc =>
      refine (isReply_spatialQueryReturn _).trans ⟨?_, ?_⟩
      · intro whole other same
        obtain rfl := Except.ok.inj same
        exact whole
      · intro whole
        exact whole qc rfl

/-- The two requests are replied to as they are to be exactly when `dev_id`
converts, for the first, and when the records that are found do not print to a
result as long as the buffer of the web server, or beyond an `int`. -/
theorem handle_replies_iff (cast : LexicalCast) (server : LocServer)
    (now : Int64) (vars : String → String) :
    (Replies cast server now vars "/location_get"
        (locationGetAnswer cast server.pool vars) ↔
      ∃ id, cast.uint64 (getQsvar vars "dev_id" "") = some id ∧
        ∀ loc, server.pool.whereis id = some loc →
          PrintsWhole (loc.digits + 114)) ∧
      (Replies cast server now vars "/spatial_query"
          (handleSpatialQuery cast
            server.props.spatialqueryRestrictMaxregion server.map now
            vars) ↔
        ∀ qc,
          admitSpatialQuery cast
              server.props.spatialqueryRestrictMaxregion vars = .ok qc →
            PrintsWhole
              (((server.map.spatialQuery now [] qc).map fun loc =>
                loc.digits + 89).sum + 50)) :=
  ⟨locationGet_replies_iff cast server now vars,
    spatialQuery_replies_iff cast server now vars⟩

/-- A request without `dev_id` gets the error element and no header. -/
theorem missing_devId_gets_no_header :
    ∃ vars : String → String, (∀ name, vars name = "") ∧
      HttpService.handle decimalCast {} 0 "/location_get" vars =
        some
          "<result code=\"1\"><error code=\"1\"/></result>".toList ∧
      ¬Replies decimalCast {} 0 vars "/location_get"
        (locationGetAnswer decimalCast AOPool.empty vars) := by
  refine ⟨fun _ => "", fun _ => rfl, by decide +kernel, ?_⟩
  rintro ⟨reply, handled, body, root, isReply, -⟩
  obtain rfl := Option.some.inj handled
  have heads : some '<' = some 'H' := congrArg List.head? isReply
  exact absurd heads (by decide)

end LocationServer
