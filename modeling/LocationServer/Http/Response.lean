import LocationServer.Foundation.XmlAttributes
import LocationServer.Http
import LocationServer.Server

/-!
# The replies of the HTTP service (`http.cpp`, `query.cpp`)

What `HttpService::handle` writes to the connection for the two requests that
it serves.  Everything goes through `mg_printf` of the embedded web server,
which formats into a buffer of its own first.
-/

namespace LocationServer

open Xml

/-- `boost::format`: the arguments, printed, take the places of the
directives. -/
def boostFormat : Text → List Text → Text
  | '%' :: _ :: pattern, argument :: arguments =>
      argument ++ boostFormat pattern arguments
  | c :: pattern, arguments => c :: boostFormat pattern arguments
  | [], _ => []

/-! ## Codes -/

/-- `HTTP_ERRORS`. -/
inductive HttpErrors where
  | succ
  | error
  deriving DecidableEq, Repr

def HttpErrors.value : HttpErrors → Int
  | .succ => 0
  | .error => 1

def HttpQueryError.value : HttpQueryError → Int
  | .unknown => 0
  | .paramDirty => 1
  | .serverBusy => 2
  | .devNotExist => 3
  | .regionTooWide => 4

/-! ## Records -/

/-- `%d` of an unsigned number. -/
def unsignedText (number : Nat) : Text := Decimal.write number

/-- `%f`. -/
def floatText (number : ℚ) : Text := Decimal.writeFixed 6 number

def LocationDetail.toXml (loc : LocationDetail) : Text :=
  boostFormat
    ("<location user_id=\"%d\" dev_id=\"%d\" lon=\"%f\" ".toList ++
      "lat=\"%f\" time=\"%d\" ".toList ++
      "speed=\"%f\" direction=\"%f\" ".toList ++
      "roadlink=\"%d\"/>".toList)
    [unsignedText loc.userId.toNat, unsignedText loc.devId.toNat,
      floatText loc.gps.pt.lon, floatText loc.gps.pt.lat,
      unsignedText loc.gps.time.toNat, floatText loc.gps.speed,
      floatText loc.gps.direction, unsignedText loc.linkId.toNat]

/-- `to_xml` of a list of records. -/
def toXml (list : List LocationDetail) : Text :=
  "<locations>".toList ++
    list.flatMap (fun loc => loc.toXml ++ "\n".toList) ++
      "</locations>".toList

/-! ## Writing -/

/-- `MG_BUF_LEN` -/
def mgBufLen : Nat := 8192

/-- The largest `int`. -/
def intMax : Nat := 2147483647

/-- `mg_printf(conn, "%s", text)`, with what it sends.  A text as long as the
buffer counts as one that fits, though its end is not in the buffer any more;
one whose length and terminator exceed an `int` is given up. -/
def mgPrintf (text : Text) : Text :=
  if intMax ≤ text.length then []
  else if text.length = mgBufLen then
    text.take (mgBufLen - 1) ++ ['\x00']
  else text

def httpResponse : Text :=
  "HTTP/1.1 200 OK\r\n".toList ++
    "Cache: no-cache\r\n".toList ++
    "Content-Type: application/xml\r\n".toList ++
    "\r\n".toList

def prepareHttpXml : Text := mgPrintf httpResponse

/-- `error_return`. -/
def errorReturn (reason : HttpQueryError) : Text :=
  prepareHttpXml ++
    mgPrintf
      (boostFormat
        "<result code =\"%d\"><error code=\"%d\"/></result>".toList
        [Decimal.write HttpErrors.error.value, Decimal.write reason.value])

/-- `spatialQuery_return`. -/
def spatialQueryReturn (xml : Text) : Text :=
  prepareHttpXml ++
    mgPrintf
      (boostFormat "<result code =\"%d\">%s</result>".toList
        [Decimal.write HttpErrors.succ.value, xml])

/-- The text that the branch of `/location_get` puts together. -/
def locationGetXml (code : HttpErrors) (reason : HttpQueryError)
    (xml : Text) : Text :=
  boostFormat "<result code=\"%d\">".toList [Decimal.write code.value] ++
    xml ++
    (if code ≠ .succ then
      boostFormat "<error code=\"%d\"/>".toList [Decimal.write reason.value]
    else []) ++
    "</result>".toList

/-- The branch of `/location_get`.  The exception of a malformed `dev_id`
leaves the `try` block before the header is written. -/
def handleLocationGet (cast : LexicalCast) (pool : AOPool)
    (vars : String → String) : Text :=
  match cast.uint64 (getQsvar vars "dev_id" "") with
  | none => mgPrintf (locationGetXml .error .paramDirty [])
  | some id =>
      prepareHttpXml ++
        mgPrintf
          (match pool.whereis id with
          | some loc => locationGetXml .succ .unknown loc.toXml
          | none => locationGetXml .error .devNotExist [])

/-- How `handle_spatialQuery` ends. -/
def spatialQueryReply :
    Except HttpQueryError (List LocationDetail) → Text
  | .error reason => errorReturn reason
  | .ok result => spatialQueryReturn (toXml result)

/-- `HttpService::handle` of a new request; `none` is the error page that other
addresses get. -/
def HttpService.handle (cast : LexicalCast) (server : LocServer)
    (now : Int64) (uri : String) (vars : String → String) : Option Text :=
  if uri = "/location_get" then
    some (handleLocationGet cast server.pool vars)
  else if uri = "/spatial_query" then
    some <|
      spatialQueryReply <|
        handleSpatialQuery cast server.props.spatialqueryRestrictMaxregion
          server.map now vars
  else none

end LocationServer
