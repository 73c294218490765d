import Mathlib.Data.Rat.Defs

/-!
# Basic types and text helpers

Identifiers keep the fixed widths of `base.h`.  A coordinate, which the source
stores in a `float`, is a number of a type `K`: what holds of the `float`s
whatever their arithmetic does is proved for every `K`, and the rest for exact
rationals, which `K` is where nothing else is said.

`boost::lexical_cast` is library code: the model takes its conversions as a
parameter, `LexicalCast`, with `none` for `bad_lexical_cast`.
-/

namespace LocationServer

abbrev UniqueId := UInt64
abbrev DeviceId := UInt64
abbrev GroupId := String

/-- `UNLIMITED`, the value that switches a query limit off. -/
def unlimited : UInt32 := 0

/-- The conversions from text that the server asks of `boost::lexical_cast`. -/
structure LexicalCast (K : Type := ℚ) where
  float : String → Option K
  int : String → Option Int32
  uint32 : String → Option UInt32
  uint64 : String → Option UInt64

/-- The number written by a non-empty list of decimal digits. -/
def parseDigits (digits : List Char) : Option Nat :=
  if digits ≠ [] && digits.all Char.isDigit then
    some <| digits.foldl (fun number digit =>
      10 * number + (digit.toNat - '0'.toNat)) 0
  else none

/-- An optional minus sign, then digits, then optionally a point and digits. -/
def parseDecimal (text : String) : Option ℚ :=
  let negative := text.toList.head? = some '-'
  let body := if negative then text.toList.tail else text.toList
  let whole := body.takeWhile (· ≠ '.')
  let fraction := (body.dropWhile (· ≠ '.')).tail
  (parseDigits (whole ++ fraction)).map fun number =>
    (if negative then -1 else 1) * (number : ℚ) / 10 ^ fraction.length

/-- Conversions that agree with `boost::lexical_cast` on plain decimal
notation, for concrete runs of the model. -/
def decimalCast : LexicalCast where
  float := parseDecimal
  int := fun text => (parseDecimal text).map fun value =>
    Int32.ofInt value.num
  uint32 := fun text => (parseDigits text.toList).map UInt32.ofNat
  uint64 := fun text => (parseDigits text.toList).map UInt64.ofNat

/-- `std::isspace` in the classic locale. -/
def isSpace (character : Char) : Bool :=
  character = ' ' || character = '\t' || character = '\n' ||
    character = '\x0b' || character = '\x0c' || character = '\r'

/-- `boost::trim`. -/
def trim (text : String) : String :=
  String.ofList <|
    ((text.toList.dropWhile isSpace).reverse.dropWhile isSpace).reverse

/-- The loop of `boost::split` with `token_compress_on`: `token` is the piece
being read, in reverse, and `inSeparator` tells that the last character read
was a separator, so that a run of separators cuts only once. -/
def splitLoop (isSeparator : Char → Bool)
    (token : List Char) (inSeparator : Bool) : List Char → List String
  | [] => [String.ofList token.reverse]
  | character :: rest =>
      if isSeparator character then
        if inSeparator then splitLoop isSeparator [] true rest
        else
          String.ofList token.reverse :: splitLoop isSeparator [] true rest
      else splitLoop isSeparator (character :: token) false rest

/-- `boost::split(values, text, is_any_of(separator), token_compress_on)`. -/
def split (separator : Char) (text : String) : List String :=
  splitLoop (fun character => character = separator) [] false text.toList

example : split ',' ",1,,2" = ["", "1", "2"] := by decide

end LocationServer
