import LocationServer.Foundation.FormEncoding
import LocationServer.Http
import LocationServer.Message
import LocationServer.Text
import Mathlib.Data.List.TakeWhile

/-!
# The query string of a request (`mongoose.c`, `http.cpp`)

`mg_get_var` looks for a name at the beginning of the text and behind each `&`,
in any case, and decodes what stands between the `=` and the next `&` into the
buffer of the caller.  A character of the model is a byte, and the end of a
list is the NUL at which the text ends.
-/

namespace LocationServer

open FormEncoding

/-! ## `mongoose.c` -/

/-- The macro `HEXTOI`. -/
def hextoi (x : Char) : Nat :=
  if x.isDigit then x.toNat - '0'.toNat else x.toNat - 'W'.toNat

def isxdigit (x : Char) : Bool :=
  (hexValue? x).isSome

/-- The escaped byte that a text behind a `%` begins with, and what follows
it.  It is looked for in the whole text, not in the value alone. -/
def escape? : List Char → Option (Char × List Char)
  | a :: b :: after =>
      if isxdigit a && isxdigit b then
        some (Char.ofNat (hextoi a.toLower <<< 4 ||| hextoi b.toLower), after)
      else none
  | _ => none

/-- The loop of `url_decode`, with the bytes of `src` that are left to read and
the bytes of `dst` that are left to write. -/
def urlDecodeLoop (isFormUrlEncoded : Bool) :
    List Char → Nat → Nat → List Char
  | src :: rest, srcLen + 1, dstLen + 1 =>
      match (if src = '%' then escape? rest else none) with
      | some (letter, after) =>
          letter :: urlDecodeLoop isFormUrlEncoded after (srcLen - 2) dstLen
      | none =>
          (if isFormUrlEncoded && src = '+' then ' ' else src) ::
            urlDecodeLoop isFormUrlEncoded rest srcLen dstLen
  | _, _, _ => []
termination_by structural _ _ dstLen => dstLen

def urlDecode (src : List Char) (srcLen dstLen : Nat)
    (isFormUrlEncoded : Bool) : List Char :=
  urlDecodeLoop isFormUrlEncoded src srcLen (dstLen - 1)

/-- `mg_strncasecmp` finds no difference. -/
def sameIgnoringCase (left right : List Char) : Bool :=
  left.map Char.toLower == right.map Char.toLower

/-- The test of the loop of `mg_get_var`: the name and a `=`. -/
def namesVar (name p : List Char) : Bool :=
  p[name.length]? == some '=' && sameIgnoringCase name (p.take name.length)

/-- The loop of `mg_get_var`, up to the value of the variable; `starts` tells
that `p` is at the beginning or behind a `&`. -/
def findVar (name : List Char) : Bool → List Char → Option (List Char)
  | _, [] => none
  | starts, first :: rest =>
      if name.length < (first :: rest).length then
        if starts && namesVar name (first :: rest) then
          some ((first :: rest).drop (name.length + 1))
        else findVar name (first = '&') rest
      else none

/-- `mg_get_var`: what is in `dst` when it returns a length. -/
def mgGetVar (buf name : List Char) (dstLen : Nat) : Option (List Char) :=
  (findVar name true buf).bind fun p =>
    let len := (p.takeWhile (· ≠ '&')).length
    if len < dstLen then some (urlDecode p len dstLen true) else none

/-! ## `http.cpp` -/

/-- The contents of `buf` in `get_qsvar`. -/
def queryVar (queryString : Option (List Char)) (name : String) : String :=
  match queryString with
  | none => ""
  | some qs =>
      cString (String.ofList ((mgGetVar qs name.toList 127).getD []))

/-! ## Decoding stays inside the value -/

theorem hextoi_toLower {digit : Char} {value : Nat}
    (isDigit : hexValue? digit = some value) :
    hextoi digit.toLower = value := by
  have all : ∀ entry ∈ hexTable, hextoi entry.1.toLower = entry.2 := by
    decide
  exact all _ (mem_hexTable isDigit)

/-- A text that ends, or goes on with the mark between two fields. -/
def Stops (tail : List Char) : Prop :=
  tail = [] ∨ ∃ rest, tail = '&' :: rest

theorem escape?_of_stops {tail : List Char} (stops : Stops tail) :
    escape? tail = none := by
  obtain rfl | ⟨rest, rfl⟩ := stops
  · rfl
  · cases rest <;> rfl

theorem escape?_cons_of_stops (first : Char) {tail : List Char}
    (stops : Stops tail) : escape? (first :: tail) = none := by
  obtain rfl | ⟨rest, rfl⟩ := stops
  · rfl
  · have notDigit : isxdigit '&' = false := rfl
    rw [escape?, notDigit, Bool.and_false]
    rfl

theorem escape?_of_digits {high low : Char} {left right : Nat}
    (isHigh : hexValue? high = some left)
    (isLow : hexValue? low = some right) (rest : List Char) :
    escape? (high :: low :: rest) =
      some (Char.ofNat (16 * left + right), rest) := by
  have joined : left <<< 4 ||| right = 16 * left + right := by
    rw [← Nat.shiftLeft_add_eq_or_of_lt (hexValue?_lt isLow),
      Nat.shiftLeft_eq, Nat.mul_comm]
  have bothDigits : (isxdigit high && isxdigit low) = true := by
    simp [isxdigit, isHigh, isLow]
  rw [escape?, if_pos bothDigits, hextoi_toLower isHigh,
    hextoi_toLower isLow, joined]

theorem escape?_of_other {high low : Char} (rest : List Char)
    (other : ∀ left right, hexValue? high = some left →
      hexValue? low = some right → False) :
    escape? (high :: low :: rest) = none := by
  have notBoth : ¬(isxdigit high && isxdigit low) = true := by
    rw [Bool.and_eq_true]
    intro both
    obtain ⟨left, isHigh⟩ := Option.isSome_iff_exists.mp both.1
    obtain ⟨right, isLow⟩ := Option.isSome_iff_exists.mp both.2
    exact other left right isHigh isLow
  rw [escape?, if_neg notBoth]

theorem urlDecodeLoop_of_escape {rest after : List Char} {letter : Char}
    (escape : escape? rest = some (letter, after)) (srcLen dstLen : Nat) :
    urlDecodeLoop true ('%' :: rest) (srcLen + 1) (dstLen + 1) =
      letter :: urlDecodeLoop true after (srcLen - 2) dstLen := by
  rw [urlDecodeLoop, if_pos rfl, escape]

theorem urlDecodeLoop_of_none {src : Char} {rest : List Char}
    (alone : (if src = '%' then escape? rest else none) = none)
    (srcLen dstLen : Nat) :
    urlDecodeLoop true (src :: rest) (srcLen + 1) (dstLen + 1) =
      (if src = '+' then ' ' else src) ::
        urlDecodeLoop true rest srcLen dstLen := by
  rw [urlDecodeLoop, alone]
  simp

/-- The loop sees the digits of an escape only in the value: what stands
behind the value is no digit. -/
theorem urlDecodeLoop_append {tail : List Char} (stops : Stops tail)
    (raw : List Char) :
    ∀ room, raw.length ≤ room →
      urlDecodeLoop true (raw ++ tail) raw.length room = decode raw := by
  fun_induction decode raw with
  | case1 =>
      intro room enough
      cases tail <;> rw [List.nil_append, List.length_nil, urlDecodeLoop] <;>
        simp
  | case2 high low rest left right isLow isHigh inductionHypothesis =>
      intro room enough
      cases room with
      | zero => simp at enough
      | succ room =>
          simp only [List.length_cons] at enough
          have escape := escape?_of_digits isHigh isLow (rest ++ tail)
          simp only [List.cons_append, List.length_cons]
          rw [urlDecodeLoop_of_escape escape, Nat.add_sub_cancel,
            inductionHypothesis room (by omega)]
  | case3 high low rest other inductionHypothesis =>
      intro room enough
      cases room with
      | zero => simp at enough
      | succ room =>
          have alone := escape?_of_other (rest ++ tail) other
          have room := inductionHypothesis room (by simpa using enough)
          simp only [List.cons_append, List.length_cons] at room ⊢
          rw [urlDecodeLoop_of_none (by rw [if_pos rfl, alone]), room,
            if_neg (by decide)]
  | case4 rest inductionHypothesis =>
      intro room enough
      cases room with
      | zero => simp at enough
      | succ room =>
          rw [List.cons_append, List.length_cons,
            urlDecodeLoop_of_none (if_neg (by decide)), if_pos rfl,
            inductionHypothesis room (by simpa using enough)]
  | case5 letter rest notEscape notBlank inductionHypothesis =>
      intro room enough
      cases room with
      | zero => simp at enough
      | succ room =>
          have alone :
              (if letter = '%' then escape? (rest ++ tail) else none) =
                none := by
            by_cases mark : letter = '%'
            · rw [if_pos mark]
              match rest, notEscape with
              | [], _ => exact escape?_of_stops stops
              | [first], _ => exact escape?_cons_of_stops first stops
              | high :: low :: rest, notEscape =>
                  exact absurd rfl (notEscape high low rest mark)
            · exact if_neg mark
          rw [List.cons_append, List.length_cons,
            urlDecodeLoop_of_none alone, if_neg notBlank,
            inductionHypothesis room (by simpa using enough)]

/-! ## The scan finds the fields of the text -/

theorem sameIgnoringCase_free {name text : List Char} {mark : Char}
    (same : sameIgnoringCase name text = true) (small : mark.toNat < 65)
    (free : mark ∉ name) : mark ∉ text := by
  intro member
  have lowered : mark ∈ name.map Char.toLower := by
    rw [beq_iff_eq.mp same]
    exact List.mem_map.mpr ⟨mark, member, toLower_of_mark small⟩
  obtain ⟨letter, member, lower⟩ := List.mem_map.mp lowered
  exact free (eq_mark_of_toLower small lower ▸ member)

theorem namesVar_lt {name p : List Char} (named : namesVar name p = true) :
    name.length < p.length := by
  have equals := ((Bool.and_eq_true _ _).mp named).1
  obtain ⟨inside, -⟩ := List.getElem?_eq_some_iff.mp (beq_iff_eq.mp equals)
  exact inside

/-- What stands behind a field does not change which variable it names. -/
theorem namesVar_append {name : List Char} (free : '&' ∉ name)
    (field : List Char) {tail : List Char} (stops : Stops tail) :
    namesVar name (field ++ tail) = namesVar name field := by
  by_cases inside : name.length < field.length
  · rw [namesVar, namesVar, List.getElem?_append_left inside,
      List.take_append_of_le_length (Nat.le_of_lt inside)]
  · rw [Bool.eq_iff_iff]
    constructor
    · intro named
      exfalso
      obtain ⟨equals, same⟩ := (Bool.and_eq_true _ _).mp named
      have notMark := sameIgnoringCase_free same (by decide) free
      rw [Nat.not_lt] at inside
      obtain rfl | ⟨rest, rfl⟩ := stops
      · rw [List.append_nil] at named
        exact absurd (namesVar_lt named) (Nat.not_lt.mpr inside)
      · obtain shorter | even := Nat.lt_or_eq_of_le inside
        · have marked :
              ((field ++ '&' :: rest).take name.length)[field.length]? =
                some '&' := by
            rw [List.getElem?_take_of_lt shorter,
              List.getElem?_append_right (Nat.le_refl _), Nat.sub_self]
            rfl
          exact notMark (List.mem_of_getElem? marked)
        · rw [← even, List.getElem?_append_right (Nat.le_refl _),
            Nat.sub_self, List.getElem?_cons_zero] at equals
          exact absurd equals (by decide)
    · intro named
      exact absurd (namesVar_lt named) inside

theorem findVar_named {name p : List Char}
    (named : namesVar name p = true) :
    findVar name true p = some (p.drop (name.length + 1)) := by
  have inside := namesVar_lt named
  cases p with
  | nil => exact absurd inside (Nat.not_lt_zero _)
  | cons first rest =>
      rw [findVar, if_pos inside, named]
      rfl

theorem findVar_short {name p : List Char} (starts : Bool)
    (short : p.length ≤ name.length) : findVar name starts p = none := by
  cases p with
  | nil => rfl
  | cons first rest => rw [findVar, if_neg (Nat.not_lt.mpr short)]

/-- A step of the scan; behind the last place for the name it finds nothing
either. -/
theorem findVar_next {name rest : List Char} {first : Char} {starts : Bool}
    (passes : (starts && namesVar name (first :: rest)) = false) :
    findVar name starts (first :: rest) =
      findVar name (first = '&') rest := by
  rw [findVar, passes]
  split
  · rfl
  · rename_i short
    rw [findVar_short]
    rw [List.length_cons] at short
    omega

theorem findVar_within {name field : List Char} (free : '&' ∉ field)
    (tail : List Char) :
    findVar name false (field ++ tail) = findVar name false tail := by
  induction field with
  | nil => rfl
  | cons first rest inductionHypothesis =>
      rw [List.mem_cons, not_or] at free
      have notMark : decide (first = '&') = false :=
        decide_eq_false (Ne.symm free.1)
      rw [List.cons_append, findVar_next rfl, notMark,
        inductionHypothesis free.2]

/-- At the beginning of a field the scan takes the field or passes it. -/
theorem findVar_field {name field tail : List Char}
    (free : '&' ∉ name) (freeField : '&' ∉ field) (stops : Stops tail) :
    findVar name true (field ++ tail) =
      if namesVar name field then
        some (field.drop (name.length + 1) ++ tail)
      else findVar name false tail := by
  have whole := namesVar_append free field stops
  by_cases named : namesVar name field = true
  · rw [if_pos named, findVar_named (whole.trans named),
      List.drop_append_of_le_length (namesVar_lt named)]
  · rw [if_neg named]
    rw [Bool.not_eq_true] at named
    cases field with
    | nil =>
        obtain rfl | ⟨rest, rfl⟩ := stops
        · rfl
        · rw [List.nil_append] at whole ⊢
          rw [findVar_next (by rw [whole, named]; rfl), findVar_next rfl]
    | cons first rest =>
        rw [List.mem_cons, not_or] at freeField
        have notMark : decide (first = '&') = false :=
          decide_eq_false (Ne.symm freeField.1)
        rw [List.cons_append] at whole ⊢
        rw [findVar_next (by rw [whole, named]; rfl), notMark,
          findVar_within freeField.2]

theorem takeWhile_field {raw tail : List Char} (free : '&' ∉ raw)
    (stops : Stops tail) :
    (raw ++ tail).takeWhile (· ≠ '&') = raw := by
  have passes : ∀ letter ∈ raw, decide (letter ≠ '&') = true := by
    intro letter member
    exact decide_eq_true (ne_of_mem_of_not_mem member free)
  rw [List.takeWhile_append_of_pos passes]
  obtain rfl | ⟨rest, rfl⟩ := stops <;> simp

/-- What `mg_get_var` makes of the field that it finds. -/
def fieldValue (name : List Char) (dstLen : Nat) (field : List Char) :
    Option (List Char) :=
  let raw := field.drop (name.length + 1)
  if raw.length < dstLen then some (decode raw) else none

theorem mgGetVar_field {name field tail : List Char} (free : '&' ∉ name)
    (freeField : '&' ∉ field) (stops : Stops tail) (dstLen : Nat) :
    mgGetVar (field ++ tail) name dstLen =
      if namesVar name field then fieldValue name dstLen field
      else (findVar name false tail).bind fun p =>
        let len := (p.takeWhile (· ≠ '&')).length
        if len < dstLen then some (urlDecode p len dstLen true)
        else none := by
  rw [mgGetVar, findVar_field free freeField stops]
  by_cases named : namesVar name field = true
  · have freeRaw : '&' ∉ field.drop (name.length + 1) :=
      fun mark => freeField (List.mem_of_mem_drop mark)
    rw [if_pos named, if_pos named, Option.bind_some, fieldValue]
    dsimp only
    rw [takeWhile_field freeRaw stops]
    split
    · rename_i enough
      rw [urlDecode, urlDecodeLoop_append stops _ _ (by omega)]
    · rfl
  · rw [if_neg named, if_neg named]

/-- The one scan of `mg_get_var` over the whole text agrees with splitting the
text into its fields, taking the first one with the name, and decoding what
stands behind the `=`. -/
theorem mgGetVar_eq_field {name : List Char} (free : '&' ∉ name)
    (buf : List Char) (dstLen : Nat) :
    mgGetVar buf name dstLen =
      ((buf.splitOn '&').find? (namesVar name)).bind
        (fieldValue name dstLen) := by
  by_cases mark : '&' ∈ buf
  · obtain ⟨field, rest, split, freeField⟩ := List.eq_append_cons_of_mem mark
    have shorter : rest.length < buf.length := by
      rw [split, List.length_append, List.length_cons]
      omega
    have inductionHypothesis := mgGetVar_eq_field free rest dstLen
    rw [split, List.splitOn_append_cons_self_of_not_mem freeField,
      mgGetVar_field free freeField (Or.inr ⟨rest, rfl⟩), List.find?_cons]
    by_cases named : namesVar name field = true
    · rw [if_pos named, named]
      rfl
    · rw [if_neg named, findVar_next rfl]
      rw [Bool.not_eq_true] at named
      rw [named]
      exact inductionHypothesis
  · have whole := mgGetVar_field free mark (Or.inl rfl) dstLen
    rw [List.append_nil] at whole
    rw [whole, List.splitOn_eq_singleton mark, List.find?_singleton]
    by_cases named : namesVar name buf = true
    · rw [if_pos named, if_pos named]
      rfl
    · rw [if_neg named, if_neg named]
      rfl
termination_by buf.length

theorem mgGetVar_eq_field_second :
    '&' ∉ "circle".toList ∧
      mgGetVar "xcircle=1&Circle=%31+%3".toList "circle".toList 127 =
        some "1 %3".toList :=
  ⟨by decide, (mgGetVar_eq_field (by decide) _ _).trans (by decide)⟩

end LocationServer
