import Mathlib.Algebra.Ring.Nat
import Mathlib.Data.List.Infix

/-!
# Reading characters (`tinyxmlparser.cpp`, `tinyxml.h`)

The functions of `TiXmlBase` that read names, texts and references.  A text is
a list of bytes without a NUL, a pointer into it is what follows, and `none` is
the null pointer.  The rows and columns of `TiXmlParsingData`, which no result
depends on, are kept apart from them (`TiXmlParsingData.stampTo`).
-/

namespace LocationServer

inductive TiXmlEncoding where
  | unknown
  | utf8
  | legacy
  deriving DecidableEq, Repr

/-- How parsing ends without a pointer and a tree: with an error of the
document, at an assertion, or with a pointer behind the NUL. -/
inductive TiXmlStop where
  | error
  | assertion
  | overrun
  | fuel
  deriving DecidableEq, Repr

/-! ## Kinds of bytes -/

def isWhiteSpace (c : Char) : Bool :=
  c = ' ' || c = '\t' || c = '\n' || c = '\x0b' || c = '\x0c' || c = '\r'

def isAlpha (anyByte : Char) : Bool :=
  if anyByte.toNat < 127 then anyByte.isAlpha else true

def isAlphaNum (anyByte : Char) : Bool :=
  if anyByte.toNat < 127 then anyByte.isAlphanum else true

/-- `utf8ByteTable`. -/
def utf8ByteTable (lead : Char) : Nat :=
  if lead.toNat < 0xc2 then 1
  else if lead.toNat < 0xe0 then 2
  else if lead.toNat < 0xf0 then 3
  else if lead.toNat < 0xf5 then 4
  else 1

/-! ## White space, names and tags -/

/-- The three bytes that count as white space in UTF-8. -/
def isByteOrderMark (first second third : Char) : Bool :=
  first = '\xef' &&
    (second = '\xbb' && third = '\xbf' ||
      second = '\xbf' && (third = '\xbe' || third = '\xbf'))

/-- The loop of `SkipWhiteSpace`. -/
def skipLoop (encoding : TiXmlEncoding) : List Char → List Char
  | a :: b :: c :: p =>
      if encoding = .utf8 && isByteOrderMark a b c then skipLoop encoding p
      else if isWhiteSpace a then skipLoop encoding (b :: c :: p)
      else a :: b :: c :: p
  | a :: p => if isWhiteSpace a then skipLoop encoding p else a :: p
  | [] => []

theorem skipLoop_eq_dropWhile {encoding : TiXmlEncoding}
    (notUtf8 : encoding ≠ .utf8) (p : List Char) :
    skipLoop encoding p = p.dropWhile isWhiteSpace := by
  fun_induction skipLoop encoding p with
  | case1 a b c p mark inductionHypothesis =>
      exact absurd mark (by simp [notUtf8])
  | case2 a b c p notMark white inductionHypothesis =>
      rw [List.dropWhile_cons_of_pos white, inductionHypothesis]
  | case3 a b c p notMark notWhite =>
      rw [List.dropWhile_cons_of_neg notWhite]
  | case4 a p short white inductionHypothesis =>
      rw [List.dropWhile_cons_of_pos white, inductionHypothesis]
  | case5 a p short notWhite => rw [List.dropWhile_cons_of_neg notWhite]
  | case6 => rfl

def skipWhiteSpace (encoding : TiXmlEncoding) (p : List Char) :
    Option (List Char) :=
  if p = [] then none else some (skipLoop encoding p)

def isNameByte (c : Char) : Bool :=
  isAlphaNum c || c = '_' || c = '-' || c = '.' || c = ':'

def readName : List Char → Option (List Char × List Char)
  | [] => none
  | c :: p =>
      if isAlpha c || c = '_' then
        some ((c :: p).takeWhile isNameByte, (c :: p).dropWhile isNameByte)
      else none

/-- The loops of `StringEqual`. -/
def beginsWith (p tag : List Char) (ignoreCase : Bool) : Bool :=
  if ignoreCase then (tag.map Char.toLower).isPrefixOf (p.map Char.toLower)
  else tag.isPrefixOf p

theorem beginsWith_iff_starts {p tag : List Char} :
    beginsWith p tag false = true ↔ tag <+: p := by
  rw [beginsWith, if_neg Bool.false_ne_true, List.isPrefixOf_iff_prefix]

def stringEqual (p tag : List Char) (ignoreCase : Bool) :
    Except TiXmlStop Bool :=
  if p = [] then .error .assertion else .ok (beginsWith p tag ignoreCase)

/-! ## References -/

/-- `ConvertUTF32ToUTF8`. -/
def convertUTF32ToUTF8 (input : Nat) : List Char :=
  let following := fun shift : Nat =>
    Char.ofNat ((input >>> shift ||| 0x80) &&& 0xbf)
  if input < 0x80 then [Char.ofNat input]
  else if input < 0x800 then
    [Char.ofNat (input >>> 6 ||| 0xc0), following 0]
  else if input < 0x10000 then
    [Char.ofNat (input >>> 12 ||| 0xe0), following 6, following 0]
  else if input < 0x200000 then
    [Char.ofNat (input >>> 18 ||| 0xf0), following 12, following 6,
      following 0]
  else []

def decimalDigit (q : Char) : Option Nat :=
  if '0' ≤ q && q ≤ '9' then some (q.toNat - '0'.toNat) else none

def hexadecimalDigit (q : Char) : Option Nat :=
  if '0' ≤ q && q ≤ '9' then some (q.toNat - '0'.toNat)
  else if 'a' ≤ q && q ≤ 'f' then some (q.toNat - 'a'.toNat + 10)
  else if 'A' ≤ q && q ≤ 'F' then some (q.toNat - 'A'.toNat + 10)
  else none

/-- The loop over the digits from the last one back; `mult` is an `unsigned`
and so is each product. -/
def entityNumber (base : Nat) (digit : Char → Option Nat) :
    List Char → Nat → Option Nat
  | [], _ => some 0
  | q :: before, mult =>
      match digit q, entityNumber base digit before (mult * base % 2 ^ 32) with
      | some value, some ucs => some (mult * value % 2 ^ 32 + ucs)
      | _, _ => none

/-- The branches of `GetEntity` for numbers, from behind the mark on.  The
digits go back from the semicolon to the last mark. -/
def numericEntity (encoding : TiXmlEncoding) (base : Nat)
    (digit : Char → Option Nat) (mark : Char) (q : List Char) :
    Option (List Char × List Char) :=
  match q.dropWhile (· ≠ ';') with
  | [] => none
  | _ :: p =>
      match entityNumber base digit
          ((q.takeWhile (· ≠ ';')).reverse.takeWhile (· ≠ mark)) 1 with
      | none => none
      | some ucs =>
          let ucs := ucs % 2 ^ 64
          some
            (if encoding = .utf8 then convertUTF32ToUTF8 ucs
              else [Char.ofNat (ucs % 256)],
              p)

/-- The names behind the `&` in the table `entity`. -/
def entityTable : List (List Char × Char) :=
  [("amp;".toList, '&'), ("lt;".toList, '<'), ("gt;".toList, '>'),
    ("quot;".toList, '"'), ("apos;".toList, '\'')]

/-- `GetEntity` of what follows a `&`: the bytes that it gives and where it
goes on.  An `&` that begins no entity gives nothing. -/
def getEntity (encoding : TiXmlEncoding) :
    List Char → Option (List Char × List Char)
  | '#' :: 'x' :: q => numericEntity encoding 16 hexadecimalDigit 'x' q
  | '#' :: c :: q => numericEntity encoding 10 decimalDigit '#' (c :: q)
  | p =>
      match entityTable.find? fun entity => entity.1.isPrefixOf p with
      | some entity => some ([entity.2], p.drop entity.1.length)
      | none => some ([], p)

/-- `GetChar` at a byte and what follows it. -/
def getChar (encoding : TiXmlEncoding) (c : Char) (p : List Char) :
    Except TiXmlStop (List Char × Option (List Char)) :=
  let length := if encoding = .utf8 then utf8ByteTable c else 1
  if length = 1 then
    if c = '&' then
      match getEntity encoding p with
      | some (value, p) => .ok (value, some p)
      | none => .ok ([], none)
    else .ok ([c], some p)
  else if p.length < length - 1 then .error .overrun
  else .ok (c :: p.take (length - 1), some (p.drop (length - 1)))

/-! ## Texts -/

/-- The loop of `ReadText` that keeps all white space. -/
def readKept (encoding : TiXmlEncoding) (endTag : List Char) :
    Nat → List Char →
      Except TiXmlStop (List Char × Option (List Char))
  | _, [] => .ok ([], some [])
  | 0, _ :: _ => .error .fuel
  | fuel + 1, c :: p =>
      if beginsWith (c :: p) endTag false then .ok ([], some (c :: p))
      else do
        let (value, next) ← getChar encoding c p
        match next with
        | none => .ok (value, none)
        | some p =>
            let (text, p) ← readKept encoding endTag fuel p
            .ok (value ++ text, p)

/-- The loop of `ReadText` that condenses white space. -/
def readCondensed (encoding : TiXmlEncoding) (endTag : List Char) :
    Nat → Bool → List Char →
      Except TiXmlStop (List Char × Option (List Char))
  | _, _, [] => .ok ([], some [])
  | 0, _, _ :: _ => .error .fuel
  | fuel + 1, whitespace, c :: p =>
      if beginsWith (c :: p) endTag false then .ok ([], some (c :: p))
      else if isWhiteSpace c then readCondensed encoding endTag fuel true p
      else do
        let (value, next) ← getChar encoding c p
        let value := if whitespace then ' ' :: value else value
        match next with
        | none => .ok (value, none)
        | some p =>
            let (text, p) ← readCondensed encoding endTag fuel false p
            .ok (value ++ text, p)

/-- How `ReadText` goes on behind the tag that ends the text: with a null
pointer when the document ends there. -/
def behindTag (endTag : List Char) : Option (List Char) → Option (List Char)
  | none => none
  | some p =>
      match p.drop endTag.length with
      | [] => none
      | c :: p => some (c :: p)

/-- The choice of the loop; white space in front of a text that is condensed
goes first. -/
def readUpTo (encoding : TiXmlEncoding) (trimWhiteSpace : Bool)
    (endTag p : List Char) :
    Except TiXmlStop (List Char × Option (List Char)) :=
  if trimWhiteSpace then
    match skipWhiteSpace encoding p with
    | none => .ok ([], none)
    | some p => readCondensed encoding endTag p.length false p
  else readKept encoding endTag p.length p

def readText (encoding : TiXmlEncoding) (trimWhiteSpace : Bool)
    (endTag p : List Char) :
    Except TiXmlStop (List Char × Option (List Char)) := do
  let (text, p) ← readUpTo encoding trimWhiteSpace endTag p
  .ok (text, behindTag endTag p)

end LocationServer
