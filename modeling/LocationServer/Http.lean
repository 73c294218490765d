import LocationServer.Map

/-!
# The spatial query handler (`http.h`, `http.cpp`)

`mg_get_var` copies the decoded value of a query variable into a buffer and
leaves the buffer empty when the variable is absent; the model takes the
buffer contents as `vars`.
-/

namespace LocationServer

/-- `HTTP_QUERY_ERROR`. -/
inductive HttpQueryError where
  | unknown
  | paramDirty
  | serverBusy
  | devNotExist
  | regionTooWide
  deriving DecidableEq, Repr

/-- `get_qsvar`. -/
def getQsvar (vars : String → String) (name default : String) : String :=
  if vars name = "" then default else vars name

variable {K : Type} [∀ n, OfNat K n]

/-- `handle_spatialQuery` up to the region check.  The rectangle is only read
when the circle is malformed; a malformed circle may have stored its center,
never its radius. -/
def parseSpatialQuery (cast : LexicalCast K) (vars : String → String) :
    Except HttpQueryError (QueryCase K) :=
  let elapsed := getQsvar vars "elapsed" "0"
  let rect := getQsvar vars "rect" ""
  let limit := getQsvar vars "limit" "1"
  let order := getQsvar vars "order" "1"
  let groupId := getQsvar vars "group_id" ""
  let circle := getQsvar vars "circle" ""
  let parsedCircle := GeoCircle.fromText cast circle {}
  let parsedRect := GeoRect.fromText cast rect {}
  let shape :=
    if parsedCircle.1 then
      some (SpatialQueryType.byDistance, ({} : GeoRect K))
    else if parsedRect.1 then
      some (SpatialQueryType.byRectangle, parsedRect.2)
    else none
  match shape with
  | none => .error .paramDirty
  | some (sqt, rect) =>
      match cast.uint32 elapsed, cast.uint32 limit, cast.int order with
      | some elapsed, some maxnum, some order =>
          .ok
            { circle := parsedCircle.2
              rect
              sqt
              qot := .ofInt order
              elapsed
              groupId
              maxnum }
      | _, _, _ => .error .paramDirty

section Region

variable [Mul K] [Min K] [Max K] [LT K] [DecidableLT K]

/-- The region check of `handle_spatialQuery`. -/
def regionTooWide (maxregion : GeoSize K) (qc : QueryCase K) : Bool :=
  qc.circle.radius * 2 > maxregion.min ||
    qc.rect.size.max > maxregion.min

/-- The query that `handle_spatialQuery` hands to `spatialQuery`. -/
def admitSpatialQuery (cast : LexicalCast K) (maxregion : GeoSize K)
    (vars : String → String) : Except HttpQueryError (QueryCase K) :=
  match parseSpatialQuery cast vars with
  | .error reason => .error reason
  | .ok qc =>
      if regionTooWide maxregion qc then .error .regionTooWide else .ok qc

end Region

/-- `handle_spatialQuery`, with the list of records for the body it prints. -/
def handleSpatialQuery (cast : LexicalCast) (maxregion : GeoSize)
    (map : GlobalMap) (now : Int64) (vars : String → String) :
    Except HttpQueryError (List LocationDetail) :=
  match admitSpatialQuery cast maxregion vars with
  | .error reason => .error reason
  | .ok qc => .ok (map.spatialQuery now [] qc)

/-- Everything a parsed query says about its request: the circle decides the
shape, and the three numbers convert. -/
theorem parseSpatialQuery_eq_ok
    {cast : LexicalCast K} {vars : String → String} {qc : QueryCase K}
    (parsed : parseSpatialQuery cast vars = .ok qc) :
    cast.uint32 (getQsvar vars "elapsed" "0") = some qc.elapsed ∧
      cast.uint32 (getQsvar vars "limit" "1") = some qc.maxnum ∧
      (∃ order, cast.int (getQsvar vars "order" "1") = some order ∧
        qc.qot = .ofInt order) ∧
      qc.groupId = getQsvar vars "group_id" "" ∧
      qc.circle =
        (GeoCircle.fromText cast (getQsvar vars "circle" "") {}).2 ∧
      match qc.sqt with
      | .byDistance =>
          (GeoCircle.fromText cast (getQsvar vars "circle" "") {}).1 =
              true ∧
            qc.rect = {}
      | .byRectangle =>
          (GeoCircle.fromText cast (getQsvar vars "circle" "") {}).1 =
              false ∧
            GeoRect.fromText cast (getQsvar vars "rect" "") {} =
              (true, qc.rect) := by
  unfold parseSpatialQuery at parsed
  dsimp only at parsed
  generalize GeoCircle.fromText cast (getQsvar vars "circle" "") {} =
    parsedCircle at parsed ⊢
  generalize GeoRect.fromText cast (getQsvar vars "rect" "") {} =
    parsedRect at parsed ⊢
  split at parsed
  · cases parsed
  · rename_i sqt rect shape
    split at parsed
    · rename_i elapsed maxnum order readElapsed readLimit readOrder
      obtain rfl := Except.ok.inj parsed
      refine ⟨readElapsed, readLimit, ⟨order, readOrder, rfl⟩, rfl, rfl, ?_⟩
      split at shape
      · rename_i isCircle
        cases shape
        exact ⟨isCircle, rfl⟩
      · rename_i noCircle
        split at shape
        · rename_i isRect
          cases shape
          exact ⟨Bool.eq_false_iff.mpr noCircle, Prod.ext isRect rfl⟩
        · cases shape
    · cases parsed

/-- An admitted query is the parsed one. -/
theorem parsed_of_admitted [Mul K] [Min K] [Max K] [LT K] [DecidableLT K]
    {cast : LexicalCast K} {maxregion : GeoSize K} {vars : String → String}
    {qc : QueryCase K}
    (admitted : admitSpatialQuery cast maxregion vars = .ok qc) :
    parseSpatialQuery cast vars = .ok qc := by
  unfold admitSpatialQuery at admitted
  split at admitted
  · cases admitted
  · rename_i other parsed
    split at admitted
    · cases admitted
    · cases admitted
      exact parsed

/-- An admitted query has passed the region check. -/
theorem not_regionTooWide_of_admitted
    {cast : LexicalCast} {maxregion : GeoSize} {vars : String → String}
    {qc : QueryCase}
    (admitted : admitSpatialQuery cast maxregion vars = .ok qc) :
    qc.circle.radius * 2 ≤ maxregion.min ∧
      qc.rect.width ≤ maxregion.min ∧ qc.rect.height ≤ maxregion.min := by
  unfold admitSpatialQuery at admitted
  split at admitted
  · cases admitted
  · split at admitted
    · cases admitted
    · rename_i parsed narrow
      cases admitted
      simpa [regionTooWide, GeoRect.size, GeoSize.max] using narrow

end LocationServer
