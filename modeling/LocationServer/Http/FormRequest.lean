import LocationServer.Http.QueryString
import LocationServer.Http.Response

/-!
# Requests by their target (`mongoose.c`, `http.cpp`)

`handle_request` cuts the target of a request at its first `?`, decodes the
address and drops repeated separators from it, and leaves the query string as
it is for `mg_get_var`.  A request that spells its parameters as a form is
served as its parameters say, however they are spelled.
-/

namespace LocationServer

open FormEncoding

/-! ## `mongoose.c` -/

def isSlash (c : Char) : Bool :=
  c = '/' || c = '\\'

/-- The inner loop of `remove_double_dots_and_double_slashes`. -/
def skipSlashesAndDots : List Char → List Char
  | '.' :: '.' :: s => skipSlashesAndDots s
  | c :: s => if isSlash c then skipSlashesAndDots s else c :: s
  | [] => []

theorem length_skipSlashesAndDots_le (s : List Char) :
    (skipSlashesAndDots s).length ≤ s.length := by
  fun_induction skipSlashesAndDots s with
  | case1 s inductionHypothesis =>
      simp only [List.length_cons]
      omega
  | case2 c s notDots slash inductionHypothesis =>
      rw [List.length_cons]
      omega
  | case3 c s notDots other => exact Nat.le_refl _
  | case4 => exact Nat.le_refl _

def removeDoubleDotsAndDoubleSlashes : List Char → List Char
  | [] => []
  | c :: s =>
      if isSlash c then
        c :: removeDoubleDotsAndDoubleSlashes (skipSlashesAndDots s)
      else c :: removeDoubleDotsAndDoubleSlashes s
termination_by s => s.length
decreasing_by
  · have := length_skipSlashesAndDots_le s
    simp only [List.length_cons]
    omega
  · simp

/-- The fields of `mg_request_info` that the handlers read. -/
structure RequestInfo where
  uri : List Char
  queryString : Option (List Char)

/-- The beginning of `handle_request`. -/
def requestInfo (target : List Char) : RequestInfo :=
  let uri := target.takeWhile (· ≠ '?')
  let decoded := urlDecode uri uri.length (uri.length + 1) false
  { uri := removeDoubleDotsAndDoubleSlashes (decoded.takeWhile (· ≠ '\x00'))
    queryString :=
      match target.dropWhile (· ≠ '?') with
      | [] => none
      | _ :: queryString => some queryString }

/-- The reply to a request for a target. -/
def HttpService.serve (cast : LexicalCast) (server : LocServer)
    (now : Int64) (target : List Char) : Option Xml.Text :=
  let info := requestInfo target
  HttpService.handle cast server now (String.ofList info.uri)
    (queryVar info.queryString)

/-! ## The address -/

/-- A text that goes on behind a separator without another separator and
without two dots. -/
def StaysBelow (after : List Char) : Prop :=
  (∀ c rest, after = c :: rest → isSlash c = false) ∧
    ∀ rest, after ≠ '.' :: '.' :: rest

theorem staysBelow_skipSlashesAndDots (s : List Char) :
    StaysBelow (skipSlashesAndDots s) := by
  fun_induction skipSlashesAndDots s with
  | case1 s inductionHypothesis => exact inductionHypothesis
  | case2 c s notDots slash inductionHypothesis => exact inductionHypothesis
  | case3 c s notDots other =>
      constructor
      · intro head rest same
        obtain ⟨rfl, -⟩ := List.cons.inj same
        exact Bool.eq_false_iff.mpr other
      · intro rest same
        obtain ⟨rfl, rfl⟩ := List.cons.inj same
        exact notDots rest rfl rfl
  | case4 => simp [StaysBelow]

theorem removeDoubleDots_eq_cons {s rest : List Char} {c : Char}
    (removed : removeDoubleDotsAndDoubleSlashes s = c :: rest) :
    ∃ s', s = c :: s' ∧
      (isSlash c = false → rest = removeDoubleDotsAndDoubleSlashes s') := by
  cases s with
  | nil =>
      rw [removeDoubleDotsAndDoubleSlashes] at removed
      cases removed
  | cons head s' =>
      rw [removeDoubleDotsAndDoubleSlashes] at removed
      split at removed
      · rename_i slash
        obtain ⟨rfl, rfl⟩ := List.cons.inj removed
        exact ⟨s', rfl, fun other => absurd slash (by simp [other])⟩
      · obtain ⟨rfl, rfl⟩ := List.cons.inj removed
        exact ⟨s', rfl, fun _ => rfl⟩

theorem StaysBelow.removed {s : List Char} (below : StaysBelow s) :
    StaysBelow (removeDoubleDotsAndDoubleSlashes s) := by
  constructor
  · intro c rest removed
    obtain ⟨s', rfl, -⟩ := removeDoubleDots_eq_cons removed
    exact below.1 c s' rfl
  · intro rest removed
    obtain ⟨s', rfl, next⟩ := removeDoubleDots_eq_cons removed
    obtain ⟨s'', rfl, -⟩ := removeDoubleDots_eq_cons (next rfl).symm
    exact below.2 s'' rfl

theorem staysBelow_of_removed (s : List Char) :
    ∀ before c after,
      removeDoubleDotsAndDoubleSlashes s = before ++ c :: after →
        isSlash c = true → StaysBelow after := by
  fun_induction removeDoubleDotsAndDoubleSlashes s with
  | case1 =>
      intro before c after split
      simp at split
  | case2 head s slash inductionHypothesis =>
      intro before c after split isSlash
      cases before with
      | nil =>
          obtain ⟨-, rfl⟩ := List.cons.inj split
          exact (staysBelow_skipSlashesAndDots s).removed
      | cons first before =>
          obtain ⟨-, split⟩ := List.cons.inj split
          exact inductionHypothesis before c after split isSlash
  | case3 head s other inductionHypothesis =>
      intro before c after split isSlash
      cases before with
      | nil =>
          obtain ⟨rfl, -⟩ := List.cons.inj split
          exact absurd isSlash other
      | cons first before =>
          obtain ⟨-, split⟩ := List.cons.inj split
          exact inductionHypothesis before c after split isSlash

/-- Whatever the target, the address that the handlers and the file server see
has no two separators in a row, and no two dots behind one. -/
theorem address_stays_below (target : List Char) :
    ∀ before c after,
      (requestInfo target).uri = before ++ c :: after →
        isSlash c = true → StaysBelow after :=
  staysBelow_of_removed _

theorem address_stays_below_escaped :
    StaysBelow "map".toList ∧
      (requestInfo "/%2f../map".toList).uri = '/' :: "map".toList :=
  ⟨address_stays_below "/%2f../map".toList [] '/' "map".toList
    (by decide +kernel) rfl, by decide +kernel⟩

theorem plain_of_any {s : List Char} (none : s.any isSlash = false) :
    ∀ c ∈ s, isSlash c = false :=
  fun c member => Bool.eq_false_iff.mpr (List.any_eq_false.mp none c member)

theorem removeDoubleDots_of_plain {s : List Char}
    (plain : ∀ c ∈ s, isSlash c = false) :
    removeDoubleDotsAndDoubleSlashes s = s := by
  induction s with
  | nil => rw [removeDoubleDotsAndDoubleSlashes]
  | cons c s inductionHypothesis =>
      rw [List.forall_mem_cons] at plain
      rw [removeDoubleDotsAndDoubleSlashes, plain.1,
        inductionHypothesis plain.2]
      rfl

theorem urlDecodeLoop_of_unescaped {raw : List Char} (free : '%' ∉ raw) :
    urlDecodeLoop false raw raw.length raw.length = raw := by
  induction raw with
  | nil => rfl
  | cons c raw inductionHypothesis =>
      rw [List.mem_cons, not_or] at free
      rw [List.length_cons, urlDecodeLoop, if_neg (Ne.symm free.1)]
      simp [inductionHypothesis free.2]

/-- A target without escapes in an address of one part. -/
theorem requestInfo_of_plain {address : List Char}
    (plain : ∀ c ∈ address, isSlash c = false)
    (settled : skipSlashesAndDots address = address)
    (free : '%' ∉ address ∧ '?' ∉ address ∧ '\x00' ∉ address)
    (queryString : List Char) :
    requestInfo ('/' :: address ++ '?' :: queryString) =
      { uri := '/' :: address
        queryString := some queryString } := by
  obtain ⟨noEscape, noMark, noEnd⟩ := free
  have before : ∀ c ∈ '/' :: address, decide (c ≠ '?') = true := by
    intro c member
    apply decide_eq_true
    rintro rfl
    simp [noMark] at member
  have whole : ∀ c ∈ '/' :: address, decide (c ≠ '\x00') = true := by
    intro c member
    apply decide_eq_true
    rintro rfl
    simp [noEnd] at member
  have unescaped : '%' ∉ '/' :: address := by simp [noEscape]
  have kept :
      removeDoubleDotsAndDoubleSlashes ('/' :: address) =
        '/' :: address := by
    rw [removeDoubleDotsAndDoubleSlashes, if_pos (by decide), settled,
      removeDoubleDots_of_plain plain]
  have uri :
      ('/' :: address ++ '?' :: queryString).takeWhile (· ≠ '?') =
        '/' :: address := by
    rw [List.takeWhile_append_of_pos before, List.takeWhile_cons]
    exact List.append_nil _
  have query :
      ('/' :: address ++ '?' :: queryString).dropWhile (· ≠ '?') =
        '?' :: queryString := by
    rw [List.dropWhile_append_of_pos before, List.dropWhile_cons]
    rfl
  rw [requestInfo, uri, query]
  dsimp only
  rw [urlDecode, Nat.add_sub_cancel, urlDecodeLoop_of_unescaped unescaped,
    List.takeWhile_eq_self_iff.mpr whole, kept]

/-! ## Forms -/

/-- A parameter of a request and one of its spellings, which fits the buffer
of `get_qsvar`. -/
structure FormField where
  name : List Char
  raw : List Char
  value : List Char
  isName : '&' ∉ name ∧ '=' ∉ name
  spells : Spells raw value
  fits : raw.length < 127
  isText : '\x00' ∉ value

def FormField.text (field : FormField) : List Char :=
  field.name ++ '=' :: field.raw

def formText (fields : List FormField) : List Char :=
  ['&'].intercalate (fields.map FormField.text)

/-- The first parameter of a name, in any case. -/
def formValue (fields : List FormField) (name : String) : String :=
  match fields.find? fun field => sameIgnoringCase name.toList field.name with
  | some field => String.ofList field.value
  | none => ""

theorem FormField.free (field : FormField) : '&' ∉ field.text := by
  have freeRaw := field.spells.free
  simp [FormField.text, field.isName.1, freeRaw]

theorem sameIgnoringCase_length {left right : List Char}
    (same : sameIgnoringCase left right = true) :
    left.length = right.length := by
  have lengths := congrArg List.length (beq_iff_eq.mp same)
  simpa using lengths

theorem FormField.namesVar_text (field : FormField) {name : List Char}
    (noEquals : '=' ∉ name) :
    namesVar name field.text = sameIgnoringCase name field.name := by
  rw [namesVar, FormField.text]
  obtain shorter | even | longer :=
    Nat.lt_trichotomy name.length field.name.length
  · have differs : sameIgnoringCase name field.name = false := by
      rw [Bool.eq_false_iff]
      intro same
      exact absurd (sameIgnoringCase_length same) (Nat.ne_of_lt shorter)
    have inName :
        (field.name ++ '=' :: field.raw)[name.length]? ≠ some '=' := by
      rw [List.getElem?_append_left shorter]
      intro equals
      exact field.isName.2 (List.mem_of_getElem? equals)
    rw [differs, Bool.and_eq_false_iff]
    exact Or.inl (beq_eq_false_iff_ne.mpr inName)
  · rw [even, List.getElem?_append_right (Nat.le_refl _), Nat.sub_self,
      List.getElem?_cons_zero, List.take_left]
    rfl
  · have differs : sameIgnoringCase name field.name = false := by
      rw [Bool.eq_false_iff]
      intro same
      exact absurd (sameIgnoringCase_length same) (Nat.ne_of_gt longer)
    have marked :
        ((field.name ++ '=' :: field.raw).take
          name.length)[field.name.length]? = some '=' := by
      rw [List.getElem?_take_of_lt longer,
        List.getElem?_append_right (Nat.le_refl _), Nat.sub_self]
      rfl
    rw [differs, Bool.and_eq_false_iff]
    right
    rw [Bool.eq_false_iff]
    intro same
    exact sameIgnoringCase_free same (by decide) noEquals
      (List.mem_of_getElem? marked)

theorem FormField.fieldValue_text (field : FormField) {name : List Char}
    (same : sameIgnoringCase name field.name = true) :
    fieldValue name 127 field.text = some field.value := by
  have raw : field.text.drop (name.length + 1) = field.raw := by
    rw [FormField.text, sameIgnoringCase_length same, List.drop_append]
    simp
  rw [fieldValue, raw, if_pos field.fits, decode_of_spells field.spells]

theorem find?_text (fields : List FormField) {name : List Char}
    (noEquals : '=' ∉ name) :
    (fields.map FormField.text).find? (namesVar name) =
      (fields.find? fun field => sameIgnoringCase name field.name).map
        FormField.text := by
  rw [List.find?_map]
  congr 2
  funext field
  exact field.namesVar_text noEquals

/-- A form gives each parameter the value that it was spelled from. -/
theorem queryVar_formText (fields : List FormField) {name : String}
    (isName : '&' ∉ name.toList ∧ '=' ∉ name.toList) :
    queryVar (some (formText fields)) name = formValue fields name := by
  have split :
      ((formText fields).splitOn '&').find? (namesVar name.toList) =
        (fields.find? fun field =>
          sameIgnoringCase name.toList field.name).map FormField.text := by
    cases fields with
    | nil => simp [formText, namesVar]
    | cons first fields =>
        have free : ∀ text ∈ (first :: fields).map FormField.text,
            '&' ∉ text := by
          intro text member
          obtain ⟨field, -, rfl⟩ := List.mem_map.mp member
          exact field.free
        rw [formText, List.splitOn_intercalate _ free (by simp),
          find?_text _ isName.2]
  rw [queryVar, mgGetVar_eq_field isName.1, split, formValue]
  cases found : fields.find? fun field =>
      sameIgnoringCase name.toList field.name with
  | none => rfl
  | some field =>
      have same := List.find?_some found
      have ends : field.value.takeWhile (· ≠ '\x00') = field.value := by
        apply List.takeWhile_eq_self_iff.mpr
        intro letter member
        exact decide_eq_true (ne_of_mem_of_not_mem member field.isText)
      rw [Option.map_some, Option.bind_some, field.fieldValue_text same]
      dsimp only [Option.getD_some]
      rw [cString, String.toList_ofList, ends]

/-! ## Requests -/

/-- The parameters that the handlers read. -/
def parameterNames : List String :=
  ["dev_id", "elapsed", "rect", "limit", "order", "group_id", "circle"]

theorem parseSpatialQuery_congr {cast : LexicalCast}
    {vars others : String → String}
    (agree : ∀ name ∈ parameterNames, vars name = others name) :
    parseSpatialQuery cast vars = parseSpatialQuery cast others := by
  have same : ∀ name ∈ parameterNames, ∀ default,
      getQsvar vars name default = getQsvar others name default := by
    intro name member default
    rw [getQsvar, getQsvar, agree name member]
  simp only [parameterNames, List.forall_mem_cons] at same
  obtain ⟨-, elapsed, rect, limit, order, groupId, circle, -⟩ := same
  unfold parseSpatialQuery
  rw [elapsed, rect, limit, order, groupId, circle]

theorem handleLocationGet_congr {cast : LexicalCast}
    {vars others : String → String}
    (agree : ∀ name ∈ parameterNames, vars name = others name)
    (pool : AOPool) :
    handleLocationGet cast pool vars = handleLocationGet cast pool others := by
  have devId : getQsvar vars "dev_id" "" = getQsvar others "dev_id" "" := by
    rw [getQsvar, getQsvar, agree "dev_id" (List.mem_cons_self)]
  unfold handleLocationGet
  rw [devId]

theorem handleSpatialQuery_congr {cast : LexicalCast}
    {vars others : String → String}
    (agree : ∀ name ∈ parameterNames, vars name = others name)
    (maxregion : GeoSize) (map : GlobalMap) (now : Int64) :
    handleSpatialQuery cast maxregion map now vars =
      handleSpatialQuery cast maxregion map now others := by
  unfold handleSpatialQuery admitSpatialQuery
  rw [parseSpatialQuery_congr agree]

theorem handle_congr {cast : LexicalCast} {vars others : String → String}
    (agree : ∀ name ∈ parameterNames, vars name = others name)
    (server : LocServer) (now : Int64) (uri : String) :
    HttpService.handle cast server now uri vars =
      HttpService.handle cast server now uri others := by
  unfold HttpService.handle
  rw [handleLocationGet_congr agree, handleSpatialQuery_congr agree]

theorem parameterNames_free :
    ∀ name ∈ parameterNames, '&' ∉ name.toList ∧ '=' ∉ name.toList := by
  decide

theorem serve_form (cast : LexicalCast) (server : LocServer) (now : Int64)
    (fields : List FormField) {address : List Char}
    (plain : ∀ c ∈ address, isSlash c = false)
    (settled : skipSlashesAndDots address = address)
    (free : '%' ∉ address ∧ '?' ∉ address ∧ '\x00' ∉ address) :
    HttpService.serve cast server now
        ('/' :: address ++ '?' :: formText fields) =
      HttpService.handle cast server now (String.ofList ('/' :: address))
        (formValue fields) := by
  rw [HttpService.serve, requestInfo_of_plain plain settled free]
  apply handle_congr
  intro name member
  exact queryVar_formText fields (parameterNames_free name member)

/-- A request whose query string is a form is served as its parameters say,
whichever spelling the client has chosen for them. -/
theorem form_is_served (cast : LexicalCast) (server : LocServer)
    (now : Int64) (fields : List FormField) :
    HttpService.serve cast server now
        ("/location_get?".toList ++ formText fields) =
      some (handleLocationGet cast server.pool (formValue fields)) ∧
    HttpService.serve cast server now
        ("/spatial_query?".toList ++ formText fields) =
      some
        (spatialQueryReply
          (handleSpatialQuery cast
            server.props.spatialqueryRestrictMaxregion server.map now
            (formValue fields))) := by
  have location :=
    @serve_form cast server now fields "location_get".toList
      (plain_of_any (by decide +kernel)) rfl (by decide +kernel)
  have spatial :=
    @serve_form cast server now fields "spatial_query".toList
      (plain_of_any (by decide +kernel)) rfl (by decide +kernel)
  exact ⟨location, spatial⟩

end LocationServer
