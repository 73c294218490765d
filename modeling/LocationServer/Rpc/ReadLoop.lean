import LocationServer.Foundation.Delimited
import LocationServer.Foundation.Utf16
import LocationServer.Foundation.Utf8

/-!
# The read loop of a connection (`RpcConnection_SocketXML.java`)

Each read is decoded on its own and appended to `strbuf`, and then at most one
message is cut off the buffer and given to `decodeMsg`.  A buffer without the
whole of an opening marker is emptied.

So what the loop hands over depends on where the reads end.  It is the
messages of the stream exactly when no read ends inside a character, none
leaves only a part of an opening marker in the buffer, and there are enough
reads after the end of each message for those that wait.
-/

namespace LocationServer

open Framing

/-! ## Strings of Java -/

namespace Java

/-- `new String(bytes, "UTF-8")` -/
def newString (bytes : List UInt8) : List UInt16 :=
  Utf16.encode (Utf8.decode bytes)

/-- `text.indexOf(word)` -/
def indexOf (word : List Char) (text : List UInt16) : Option Nat :=
  Framing.indexOf (Utf16.encode word) text

/-- `text.substring(beginIndex, endIndex)`; `none` is the exception. -/
def substring (text : List UInt16) (beginIndex endIndex : Nat) :
    Option (List UInt16) :=
  if beginIndex ≤ endIndex ∧ endIndex ≤ text.length then
    some ((text.take endIndex).drop beginIndex)
  else none

end Java

/-! ## The loop -/

def envelopBegin : List Char := "<NaviMSG".toList

def envelopClose : List Char := "</NaviMSG>".toList

/-- `MAXPACKET_SIZE` -/
def maxPacketSize : Nat := 1024 * 10

/-- The length of the array that `read` fills. -/
def readSize : Nat := 1024 * 5

/-- How the loop goes on after a read. -/
inductive ReadStatus where
  | reading
  /-- The socket is closed, so the next read throws. -/
  | closed
  /-- A `substring` threw. -/
  | outOfBounds
  /-- `decodeMsg` threw. -/
  | thrown
  deriving DecidableEq

structure SocketReader where
  strbuf : List UInt16 := []
  /-- The arguments of the calls of `decodeMsg` so far. -/
  decoded : List (List UInt16) := []
  status : ReadStatus := .reading

section Loop

variable (dispatches : List UInt16 → Bool)

/-- `decodeMsg` returns true, unless dispatching the message throws. -/
def decodeMsg (xml : List UInt16) : Option Bool :=
  if dispatches xml then some true else none

namespace SocketReader

/-- `last` is where the closing marker was found. -/
def takeMessage (reader : SocketReader) (last : Nat) : SocketReader :=
  let tail := last + envelopClose.length
  match Java.substring reader.strbuf 0 tail,
      Java.substring reader.strbuf tail reader.strbuf.length with
  | some xml, some strbuf =>
      { strbuf, decoded := reader.decoded ++ [xml]
        status :=
          match decodeMsg dispatches xml with
          | some true => .reading
          | some false => .closed
          | none => .thrown }
  | _, _ => { reader with status := .outOfBounds }

/-- The rest of an iteration, when the bytes are in the buffer. -/
def parse (reader : SocketReader) : SocketReader :=
  let strbuf := reader.strbuf
  match Java.indexOf envelopBegin strbuf, Java.indexOf envelopClose strbuf with
  | none, none => { reader with strbuf := [] }
  | none, some last =>
      let tail := last + envelopClose.length
      match Java.substring strbuf tail strbuf.length with
      | some strbuf => { reader with strbuf }
      | none => { reader with status := .outOfBounds }
  | some first, last =>
      match Java.substring strbuf first strbuf.length with
      | none => { reader with status := .outOfBounds }
      | some strbuf =>
          match last with
          | none =>
              if maxPacketSize < strbuf.length then
                { reader with strbuf := [], status := .closed }
              else { reader with strbuf }
          | some last => takeMessage dispatches { reader with strbuf } last

/-- One iteration, with the bytes that `read` puts into `d`. -/
def receive (reader : SocketReader) (d : List UInt8) : SocketReader :=
  if reader.status = .reading then
    parse dispatches
      { reader with strbuf := reader.strbuf ++ Java.newString d }
  else reader

def run (reads : List (List UInt8)) : SocketReader :=
  reads.foldl (receive dispatches) {}

end SocketReader

end Loop

/-! ## What an iteration does -/

namespace Java

theorem substring_whole (text : List UInt16) :
    substring text 0 text.length = some text := by
  rw [substring, if_pos ⟨Nat.zero_le _, Nat.le_refl _⟩, List.take_length,
    List.drop_zero]

theorem substring_front (front back : List UInt16) :
    substring (front ++ back) 0 front.length = some front := by
  rw [substring, if_pos ⟨Nat.zero_le _, by simp⟩, List.take_left,
    List.drop_zero]

theorem substring_back (front back : List UInt16) :
    substring (front ++ back) front.length (front ++ back).length =
      some back := by
  rw [substring, if_pos ⟨by simp, Nat.le_refl _⟩, List.take_length,
    List.drop_left]

theorem sublist_of_substring {text part : List UInt16}
    {beginIndex endIndex : Nat}
    (cut : substring text beginIndex endIndex = some part) :
    List.Sublist part text := by
  rw [substring, Option.ite_none_right_eq_some] at cut
  rw [← Option.some.inj cut.2]
  exact (List.drop_sublist _ _).trans (List.take_sublist _ _)

theorem append_of_substring {text part rest : List UInt16} {cut : Nat}
    (front : substring text 0 cut = some part)
    (back : substring text cut text.length = some rest) :
    part ++ rest = text := by
  rw [substring, Option.ite_none_right_eq_some] at front back
  rw [← Option.some.inj front.2, ← Option.some.inj back.2,
    List.take_length, List.drop_zero]
  exact List.take_append_drop cut text

section Search

variable {word text : List Char}

theorem indexOf_of_isPrefix (starts : word <+: text) :
    indexOf word (Utf16.encode text) = some 0 := by
  obtain ⟨rest, rfl⟩ := starts
  apply Framing.indexOf_of_isPrefix
  rw [Utf16.encode_append]
  exact List.prefix_append _ _

theorem indexOf_eq_none (nonempty : word ≠ [])
    (singles : ∀ d ∈ word, Utf16.Single d)
    (missing : Missing word text) :
    indexOf word (Utf16.encode text) = none := by
  apply Framing.indexOf_eq_none_iff.mpr
  intro before after units
  obtain ⟨front, back, split, _⟩ :=
    Utf16.exists_of_encode nonempty singles units
  exact missing front back split

/-- The last word of a text, when it is the only one. -/
theorem indexOf_append (nonempty : word ≠ [])
    (singles : ∀ d ∈ word, Utf16.Single d) {before : List Char}
    (once : ∀ earlier later,
      before ++ word = earlier ++ word ++ later → later = [])
    (after : List Char) :
    indexOf word (Utf16.encode (before ++ word ++ after)) =
      some (Utf16.encode before).length := by
  rw [Utf16.encode_append, Utf16.encode_append]
  apply Framing.indexOf_append
  intro earlier later units
  rw [← Utf16.encode_append] at units
  obtain ⟨front, back, split, _, rfl⟩ :=
    Utf16.exists_of_encode nonempty singles units
  rw [once front back split]
  rfl

end Search

end Java

theorem ascii_of_all {word : List Char}
    (all : word.all (fun d => d.toNat < 128) = true) :
    ∀ d ∈ word, d.toNat < 128 :=
  fun d member => of_decide_eq_true (List.all_eq_true.mp all d member)

theorem ascii_envelopBegin : ∀ d ∈ envelopBegin, d.toNat < 128 :=
  ascii_of_all (by decide)

theorem ascii_envelopClose : ∀ d ∈ envelopClose, d.toNat < 128 :=
  ascii_of_all (by decide)

theorem single_of_ascii {word : List Char}
    (ascii : ∀ d ∈ word, d.toNat < 128) : ∀ d ∈ word, Utf16.Single d :=
  fun d member => Nat.lt_trans (ascii d member) (by decide)

theorem encode_envelopClose_length :
    (Utf16.encode envelopClose).length = envelopClose.length := by
  decide

namespace SocketReader

variable (dispatches : List UInt16 → Bool)

section Parse

variable {text : List Char}

theorem indexOf_envelopClose
    (noClose : Missing envelopClose text) :
    Java.indexOf envelopClose (Utf16.encode text) = none :=
  Java.indexOf_eq_none (by decide) (single_of_ascii ascii_envelopClose)
    noClose

/-- A buffer without a marker is emptied. -/
theorem parse_of_neither (decoded : List (List UInt16)) (status : ReadStatus)
    (noBegin : Missing envelopBegin text)
    (noClose : Missing envelopClose text) :
    parse dispatches ⟨Utf16.encode text, decoded, status⟩ =
      ⟨[], decoded, status⟩ := by
  have first : Java.indexOf envelopBegin (Utf16.encode text) = none :=
    Java.indexOf_eq_none (by decide) (single_of_ascii ascii_envelopBegin)
      noBegin
  rw [parse, first, indexOf_envelopClose noClose]

/-- A message that has not ended stays in the buffer, unless it is too
long. -/
theorem parse_of_begun (decoded : List (List UInt16)) (status : ReadStatus)
    (starts : envelopBegin <+: text)
    (noClose : Missing envelopClose text) :
    parse dispatches ⟨Utf16.encode text, decoded, status⟩ =
      if maxPacketSize < (Utf16.encode text).length then
        ⟨[], decoded, .closed⟩
      else ⟨Utf16.encode text, decoded, status⟩ := by
  rw [parse, Java.indexOf_of_isPrefix starts, indexOf_envelopClose noClose]
  simp only [Java.substring_whole]

/-- A message at the start of the buffer is given to `decodeMsg`. -/
theorem parse_of_message {message : List Char}
    (delimited : Delimited envelopBegin envelopClose message)
    (decoded : List (List UInt16)) (status : ReadStatus) :
    parse dispatches ⟨Utf16.encode (message ++ text), decoded, status⟩ =
      ⟨Utf16.encode text, decoded ++ [Utf16.encode message],
        if dispatches (Utf16.encode message) then .reading else .thrown⟩ := by
  obtain ⟨front, rfl⟩ := delimited.closes
  have starts : envelopBegin <+: front ++ envelopClose ++ text :=
    delimited.opens.trans (List.prefix_append _ _)
  have last := Java.indexOf_append (by decide)
    (single_of_ascii ascii_envelopClose) delimited.closesOnce text
  have tail : (Utf16.encode front).length + envelopClose.length =
      (Utf16.encode (front ++ envelopClose)).length := by
    rw [Utf16.encode_append, List.length_append, encode_envelopClose_length]
  rw [parse, Java.indexOf_of_isPrefix starts, last]
  simp only [Java.substring_whole, takeMessage, tail]
  rw [Utf16.encode_append _ text, Java.substring_front, Java.substring_back]
  simp only [decodeMsg]
  cases dispatches (Utf16.encode (front ++ envelopClose)) <;> rfl

end Parse

/-- What a step hands over and leaves in the buffer was in the buffer, in that
order. -/
def Keeps (before after : SocketReader) : Prop :=
  ∃ calls, after.decoded = before.decoded ++ calls ∧
    List.Sublist (calls.flatten ++ after.strbuf) before.strbuf

theorem keeps_of_sublist {before after : SocketReader}
    (decoded : after.decoded = before.decoded)
    (strbuf : List.Sublist after.strbuf before.strbuf) :
    Keeps before after :=
  ⟨[], by rw [decoded, List.append_nil], strbuf⟩

theorem takeMessage_keeps (reader : SocketReader) (last : Nat) :
    Keeps reader (takeMessage dispatches reader last) := by
  rw [takeMessage]
  split
  case h_1 xml strbuf front back =>
      refine ⟨[xml], rfl, ?_⟩
      rw [List.flatten_singleton, Java.append_of_substring front back]
  case h_2 => exact keeps_of_sublist rfl (List.Sublist.refl _)

theorem parse_keeps (reader : SocketReader) :
    Keeps reader (parse dispatches reader) := by
  rw [parse]
  split
  case h_1 => exact keeps_of_sublist rfl (List.nil_sublist _)
  case h_2 =>
      dsimp only
      split
      case h_1 strbuf cut =>
          exact keeps_of_sublist rfl (Java.sublist_of_substring cut)
      case h_2 => exact keeps_of_sublist rfl (List.Sublist.refl _)
  case h_3 =>
      split
      case h_1 => exact keeps_of_sublist rfl (List.Sublist.refl _)
      case h_2 strbuf cut =>
          have shorter := Java.sublist_of_substring cut
          split
          case h_1 =>
              split
              case isTrue => exact keeps_of_sublist rfl (List.nil_sublist _)
              case isFalse => exact keeps_of_sublist rfl shorter
          case h_2 last _ =>
              obtain ⟨calls, decoded, sublist⟩ :=
                takeMessage_keeps dispatches { reader with strbuf } last
              exact ⟨calls, decoded, sublist.trans shorter⟩

theorem receive_of_not_reading {reader : SocketReader}
    (stopped : reader.status ≠ .reading) (d : List UInt8) :
    receive dispatches reader d = reader :=
  if_neg stopped

theorem run_concat (reads : List (List UInt8)) (d : List UInt8) :
    run dispatches (reads ++ [d]) =
      receive dispatches (run dispatches reads) d := by
  rw [run, List.foldl_append]
  rfl

end SocketReader

/-! ## Runs over a stream of messages -/

/-- A frame as the loop looks for it. -/
abbrev Frame : List Char → Prop :=
  Delimited envelopBegin envelopClose

namespace SocketReader

variable {dispatches : List UInt16 → Bool}

/-- The pieces that were read are the frames that were handed over and the
backlog in the buffer, and no frame waits that could have been handed over. -/
structure Framed (dispatches : List UInt16 → Bool)
    (frames pieces served : List (List Char)) (backlog : List Char)
    (reader : SocketReader) : Prop where
  within : served <+: frames
  decoded : reader.decoded = served.map Utf16.encode
  strbuf : reader.strbuf = Utf16.encode backlog
  received : pieces.flatten = served.flatten ++ backlog
  paced : ∀ sent, sent <+: frames → (KeepsUp sent pieces ↔ sent <+: served)
  accepted : ∀ frame ∈ served.dropLast, dispatches (Utf16.encode frame)
  status :
    (reader.status = .reading ∧
      ∀ frame ∈ served, dispatches (Utf16.encode frame)) ∨
    (reader.status = .thrown ∧ served = frames)

/-- Both markers begin with this character, and no other character has its
code unit. -/
def openAngle : Char := '<'

/-- Too little of the frames is left for all of them to be handed over. -/
def Lost (frames pieces : List (List Char)) (reader : SocketReader) : Prop :=
  if reader.status = .reading then
    (reader.decoded.flatten ++ reader.strbuf).count (Utf16.unit openAngle) <
      pieces.flatten.count openAngle
  else
    reader.decoded.flatten.count (Utf16.unit openAngle) <
      frames.flatten.count openAngle

theorem count_encode_openAngle (text : List Char) :
    (Utf16.encode text).count (Utf16.unit openAngle) =
      text.count openAngle :=
  Utf16.count_encode (by decide) text

theorem framed_nil (dispatches : List UInt16 → Bool)
    (frames : List (List Char)) :
    Framed dispatches frames [] [] [] {} where
  within := List.nil_prefix
  decoded := rfl
  strbuf := rfl
  received := rfl
  paced := by
    intro sent _
    rcases List.eq_nil_or_concat' sent with rfl | ⟨earlier, frame, rfl⟩
    · exact iff_of_true (keepsUp_nil _) List.nil_prefix
    · refine iff_of_false (not_keepsUp_nil earlier frame) ?_
      intro within
      exact absurd (List.prefix_nil.mp within) (by simp)
  accepted := by simp
  status := Or.inl ⟨rfl, by simp⟩

section Lost

variable {frames pieces : List (List Char)} {reader : SocketReader}

theorem Lost.receive (lost : Lost frames pieces reader) (d : List UInt8)
    (within : (pieces ++ [Utf8.decode d]).flatten <+: frames.flatten) :
    Lost frames (pieces ++ [Utf8.decode d])
      (SocketReader.receive dispatches reader d) := by
  by_cases reading : reader.status = .reading
  · rw [Lost, if_pos reading] at lost
    rw [SocketReader.receive, if_pos reading]
    obtain ⟨calls, decoded, sublist⟩ := parse_keeps dispatches
      { reader with strbuf := reader.strbuf ++ Java.newString d }
    have fewer := sublist.count_le (Utf16.unit openAngle)
    have total := within.sublist.count_le openAngle
    have arrived :
        (Java.newString d).count (Utf16.unit openAngle) =
          (Utf8.decode d).count openAngle :=
      count_encode_openAngle _
    simp only [List.flatten_append, List.flatten_singleton,
      List.count_append] at fewer lost total
    rw [Lost, decoded]
    split
    · simp only [List.flatten_append, List.flatten_singleton,
        List.count_append]
      omega
    · simp only [List.flatten_append, List.count_append]
      omega
  · rw [Lost, if_neg reading] at lost
    rw [receive_of_not_reading dispatches reading, Lost, if_neg reading]
    exact lost

end Lost

theorem missing_of_length_lt {word text : List Char}
    (short : text.length < word.length) : Missing word text := by
  rintro before after rfl
  simp only [List.length_append] at short
  omega

/-- A frame that has begun and not ended has no closing marker. -/
theorem noClose_of_begun {frame begun : List Char} (isFrame : Frame frame)
    (within : begun <+: frame) (short : begun.length < frame.length) :
    Missing envelopClose begun := by
  rintro before after rfl
  obtain ⟨more, rfl⟩ := within
  have nothing := isFrame.closesOnce before (after ++ more)
    (List.append_assoc _ _ _)
  rw [(List.append_eq_nil_iff.mp nothing).2, List.append_nil] at short
  exact Nat.lt_irrefl _ short

theorem count_openAngle_pos {part : List Char} (nonempty : part ≠ [])
    (within : part <+: envelopBegin) : 0 < part.count openAngle := by
  obtain ⟨c, part, rfl⟩ := List.exists_cons_of_ne_nil nonempty
  obtain ⟨rest, whole⟩ := within
  have first : c = openAngle := (List.cons.inj whole).1
  rw [first, List.count_cons_self]
  exact Nat.succ_pos _

theorem count_openAngle_frame {frame : List Char} (isFrame : Frame frame) :
    0 < frame.count openAngle :=
  Nat.lt_of_lt_of_le
    (count_openAngle_pos (by decide) (List.prefix_refl envelopBegin))
    (isFrame.opens.sublist.count_le openAngle)

/-- Why a step may lose frames: the opening marker is cut, a frame is too
long, or dispatching a frame throws before the last one. -/
def Disturbed (dispatches : List UInt16 → Bool)
    (frames pieces : List (List Char)) (piece : List Char) : Prop :=
  CutsOpening envelopBegin frames pieces piece ∨
    (∃ frame ∈ frames, maxPacketSize < (Utf16.encode frame).length) ∨
    ∃ frame ∈ frames.dropLast, ¬dispatches (Utf16.encode frame)

namespace Framed

variable {frames pieces served : List (List Char)} {backlog : List Char}
variable {reader : SocketReader} {d : List UInt8}

theorem decoded_flatten
    (framed : Framed dispatches frames pieces served backlog reader) :
    reader.decoded.flatten = Utf16.encode served.flatten := by
  rw [framed.decoded, Utf16.encode_flatten]

theorem received_concat
    (framed : Framed dispatches frames pieces served backlog reader)
    (piece : List Char) :
    (pieces ++ [piece]).flatten = served.flatten ++ (backlog ++ piece) := by
  rw [List.flatten_append, List.flatten_singleton, framed.received,
    List.append_assoc]

theorem receive_eq
    (framed : Framed dispatches frames pieces served backlog reader)
    (reading : reader.status = .reading) (d : List UInt8) :
    SocketReader.receive dispatches reader d =
      parse dispatches ⟨Utf16.encode (backlog ++ Utf8.decode d),
        reader.decoded, .reading⟩ := by
  rw [SocketReader.receive, if_pos reading, framed.strbuf, Java.newString,
    ← Utf16.encode_append, reading]

/-- What arrives belongs to the next frame, which the loop is waiting for. -/
theorem waiting
    (framed : Framed dispatches frames pieces served backlog reader)
    (nonempty : d ≠ [])
    (within : (pieces ++ [Utf8.decode d]).flatten <+: frames.flatten) :
    ∃ message rest, frames = served ++ message :: rest ∧
      backlog ++ Utf8.decode d <+: message ++ rest.flatten ∧
      reader.status = .reading ∧
      ∀ frame ∈ served, dispatches (Utf16.encode frame) := by
  have arrives : backlog ++ Utf8.decode d ≠ [] :=
    fun empty => Utf8.decode_ne_nil nonempty
      (List.append_eq_nil_iff.mp empty).2
  obtain ⟨later, split⟩ := framed.within
  rw [framed.received_concat, ← split, List.flatten_append,
    List.prefix_append_right_inj] at within
  cases later with
  | nil => exact absurd (List.prefix_nil.mp within) arrives
  | cons message rest =>
      refine ⟨message, rest, split.symm, within, ?_⟩
      rcases framed.status with reading | ⟨_, all⟩
      · exact reading
      · rw [all] at split
        exact absurd (List.self_eq_append_right.mp split.symm)
          (List.cons_ne_nil _ _)

theorem next_isPrefix {message : List Char} {later : List (List Char)}
    (split : frames = served ++ message :: later) :
    served ++ [message] <+: frames := by
  rw [split]
  exact ⟨later, List.append_assoc _ _ _⟩

theorem lost_of_cutsOpening (isFrame : ∀ frame ∈ frames, Frame frame)
    (framed : Framed dispatches frames pieces served backlog reader)
    (nonempty : d ≠ [])
    (within : (pieces ++ [Utf8.decode d]).flatten <+: frames.flatten)
    (cuts : CutsOpening envelopBegin frames pieces (Utf8.decode d)) :
    Lost frames (pieces ++ [Utf8.decode d])
      (SocketReader.receive dispatches reader d) := by
  obtain ⟨_, _, _, _, reading, _⟩ := framed.waiting nonempty within
  obtain ⟨taken, part, isTaken, keeps, isPart, started, incomplete, split⟩ :=
    cuts
  have short : part.length < envelopBegin.length := by
    refine Nat.lt_of_le_of_ne isPart.length_le ?_
    exact fun same => incomplete (isPart.eq_of_length same)
  obtain ⟨extra, grown⟩ := (framed.paced taken isTaken).mp keeps
  have buffer : extra.flatten ++ (backlog ++ Utf8.decode d) = part := by
    rw [framed.received_concat, ← grown, List.flatten_append,
      List.append_assoc] at split
    exact List.append_cancel_left split
  obtain rfl : extra = [] := by
    cases extra with
    | nil => rfl
    | cons frame extra =>
        have member : frame ∈ frames :=
          framed.within.subset (grown ▸ List.mem_append_right taken
            List.mem_cons_self)
        have long := (isFrame frame member).opens.length_le
        rw [← buffer, List.flatten_cons] at short
        simp only [List.length_append] at short
        omega
  rw [List.flatten_nil, List.nil_append] at buffer
  rw [framed.receive_eq reading, buffer,
    parse_of_neither dispatches _ _ (missing_of_length_lt short)
      (missing_of_length_lt (Nat.lt_trans short (by decide))),
    Lost, if_pos rfl, framed.received_concat, buffer, framed.decoded_flatten,
    List.append_nil, List.count_append, count_encode_openAngle]
  exact Nat.lt_add_of_pos_right (count_openAngle_pos started isPart)

/-- A message that has ended is handed over. -/
theorem receive_message (isFrame : ∀ frame ∈ frames, Frame frame)
    (framed : Framed dispatches frames pieces served backlog reader)
    {message rest : List Char} {later : List (List Char)}
    (split : frames = served ++ message :: later)
    (reading : reader.status = .reading)
    (accepted : ∀ frame ∈ served, dispatches (Utf16.encode frame))
    (buffer : backlog ++ Utf8.decode d = message ++ rest) :
    Framed dispatches frames (pieces ++ [Utf8.decode d])
        (served ++ [message]) rest
        (SocketReader.receive dispatches reader d) ∨
      (Lost frames (pieces ++ [Utf8.decode d])
          (SocketReader.receive dispatches reader d) ∧
        Disturbed dispatches frames pieces (Utf8.decode d)) := by
  have member : message ∈ frames :=
    split ▸ List.mem_append_right served List.mem_cons_self
  have next := next_isPrefix split
  have received : (pieces ++ [Utf8.decode d]).flatten =
      (served ++ [message]).flatten ++ rest := by
    rw [framed.received_concat, buffer, List.flatten_append,
      List.flatten_singleton, List.append_assoc]
  have after := framed.receive_eq reading d
  rw [buffer, parse_of_message dispatches (isFrame message member)] at after
  have framedOf :
      ((SocketReader.receive dispatches reader d).status = .reading ∧
        ∀ frame ∈ served ++ [message], dispatches (Utf16.encode frame)) ∨
      ((SocketReader.receive dispatches reader d).status = .thrown ∧
        served ++ [message] = frames) →
      Framed dispatches frames (pieces ++ [Utf8.decode d])
        (served ++ [message]) rest
        (SocketReader.receive dispatches reader d) := by
    intro status
    refine ⟨next, ?_, ?_, received, ?_, ?_, status⟩
    · rw [after, framed.decoded, List.map_append]
      rfl
    · rw [after]
    · apply keepsUp_concat_iff_prefix framed.paced next
        (List.prefix_append _ _) (by simp)
      · rw [received]
        exact List.prefix_append _ _
      · intro sent isSent length _
        apply List.prefix_of_prefix_length_le isSent next
        rw [length, List.length_append, List.length_singleton]
    · rw [List.dropLast_concat]
      exact accepted
  by_cases dispatched : dispatches (Utf16.encode message) = true
  · refine Or.inl (framedOf (Or.inl ⟨?_, ?_⟩))
    · rw [after]
      exact if_pos dispatched
    · rw [List.forall_mem_append]
      exact ⟨accepted, by simpa using dispatched⟩
  · have thrown :
        (SocketReader.receive dispatches reader d).status = .thrown := by
      rw [after]
      exact if_neg dispatched
    cases later with
    | nil => exact Or.inl (framedOf (Or.inr ⟨thrown, split.symm⟩))
    | cons frame later =>
        have waits : frame ∈ frames := by
          rw [split]
          simp
        refine Or.inr ⟨?_, Or.inr (Or.inr ⟨message, ?_, dispatched⟩)⟩
        · have more := count_openAngle_frame (isFrame frame waits)
          rw [Lost, thrown, if_neg (by decide), after, split,
            framed.decoded]
          simp only [List.flatten_append, List.flatten_cons,
            List.flatten_nil, List.count_append, List.append_nil,
            count_encode_openAngle, ← Utf16.encode_flatten]
          omega
        · rw [split, List.dropLast_append_of_ne_nil (List.cons_ne_nil _ _)]
          exact List.mem_append_right served List.mem_cons_self

/-- A message that has not ended stays in the buffer. -/
theorem receive_begun (isFrame : ∀ frame ∈ frames, Frame frame)
    (framed : Framed dispatches frames pieces served backlog reader)
    {message : List Char} {later : List (List Char)}
    (split : frames = served ++ message :: later)
    (reading : reader.status = .reading)
    (accepted : ∀ frame ∈ served, dispatches (Utf16.encode frame))
    (begun : backlog ++ Utf8.decode d <+: message)
    (short : (backlog ++ Utf8.decode d).length < message.length)
    (marked : envelopBegin <+: backlog ++ Utf8.decode d) :
    Framed dispatches frames (pieces ++ [Utf8.decode d]) served
        (backlog ++ Utf8.decode d)
        (SocketReader.receive dispatches reader d) ∨
      (Lost frames (pieces ++ [Utf8.decode d])
          (SocketReader.receive dispatches reader d) ∧
        Disturbed dispatches frames pieces (Utf8.decode d)) := by
  have member : message ∈ frames :=
    split ▸ List.mem_append_right served List.mem_cons_self
  have received := framed.received_concat (Utf8.decode d)
  have after := framed.receive_eq reading d
  rw [parse_of_begun dispatches _ _ marked
    (noClose_of_begun (isFrame message member) begun short)] at after
  by_cases long :
      maxPacketSize < (Utf16.encode (backlog ++ Utf8.decode d)).length
  · rw [if_pos long] at after
    refine Or.inr ⟨?_, Or.inr (Or.inl ⟨message, member, ?_⟩)⟩
    · have closed :
          (SocketReader.receive dispatches reader d).status = .closed := by
        rw [after]
      have more := count_openAngle_frame (isFrame message member)
      rw [Lost, closed, if_neg (by decide), after, split, framed.decoded]
      simp only [List.flatten_append, List.flatten_cons, List.count_append,
        count_encode_openAngle, ← Utf16.encode_flatten]
      omega
    · obtain ⟨rest, rfl⟩ := begun
      rw [Utf16.encode_append, List.length_append]
      exact Nat.lt_add_right _ long
  · rw [if_neg long] at after
    refine Or.inl ⟨framed.within, ?_, ?_, received, ?_, framed.accepted, ?_⟩
    · rw [after, framed.decoded]
    · rw [after]
    · apply keepsUp_concat_iff_prefix framed.paced framed.within
        (List.prefix_refl _) (Nat.le_succ _)
      · rw [received]
        exact List.prefix_append _ _
      · intro sent isSent length arrived
        have next := next_isPrefix split
        have same : sent = served ++ [message] := by
          have sized : (served ++ [message]).length = served.length + 1 :=
            List.length_append
          rw [← sized] at length
          exact (List.prefix_of_prefix_length_le isSent next
            (Nat.le_of_eq length)).eq_of_length length
        rw [same, received, List.flatten_append, List.flatten_singleton]
          at arrived
        have bound := arrived.length_le
        simp only [List.length_append] at bound short
        omega
    · rw [after]
      exact Or.inl ⟨rfl, accepted⟩

/-- One read. -/
theorem receive (isFrame : ∀ frame ∈ frames, Frame frame)
    (framed : Framed dispatches frames pieces served backlog reader)
    (nonempty : d ≠ [])
    (within : (pieces ++ [Utf8.decode d]).flatten <+: frames.flatten) :
    (∃ served backlog,
        Framed dispatches frames (pieces ++ [Utf8.decode d]) served backlog
          (SocketReader.receive dispatches reader d)) ∨
      (Lost frames (pieces ++ [Utf8.decode d])
          (SocketReader.receive dispatches reader d) ∧
        Disturbed dispatches frames pieces (Utf8.decode d)) := by
  obtain ⟨message, later, split, arrives, reading, accepted⟩ :=
    framed.waiting nonempty within
  have member : message ∈ frames :=
    split ▸ List.mem_append_right served List.mem_cons_self
  rcases Nat.lt_or_ge (backlog ++ Utf8.decode d).length message.length
    with short | ended
  · have begun : backlog ++ Utf8.decode d <+: message :=
      List.prefix_of_prefix_length_le arrives (List.prefix_append _ _)
        (Nat.le_of_lt short)
    rcases Nat.lt_or_ge (backlog ++ Utf8.decode d).length
      envelopBegin.length with cut | marked
    · have cuts :
          CutsOpening envelopBegin frames pieces (Utf8.decode d) := by
        refine ⟨served, backlog ++ Utf8.decode d, framed.within,
          (framed.paced served framed.within).mpr (List.prefix_refl _),
          ?_, ?_, ?_, framed.received_concat _⟩
        · exact List.prefix_of_prefix_length_le begun
            (isFrame message member).opens (Nat.le_of_lt cut)
        · exact fun empty => Utf8.decode_ne_nil nonempty
            (List.append_eq_nil_iff.mp empty).2
        · intro whole
          rw [whole] at cut
          exact Nat.lt_irrefl _ cut
      exact Or.inr
        ⟨framed.lost_of_cutsOpening isFrame nonempty within cuts,
          Or.inl cuts⟩
    · have opened : envelopBegin <+: backlog ++ Utf8.decode d :=
        List.prefix_of_prefix_length_le (isFrame message member).opens begun
          marked
      exact (framed.receive_begun isFrame split reading accepted begun short
        opened).imp (fun kept => ⟨served, _, kept⟩) id
  · obtain ⟨rest, buffer⟩ : message <+: backlog ++ Utf8.decode d :=
      List.prefix_of_prefix_length_le (List.prefix_append _ _) arrives ended
    exact (framed.receive_message isFrame split reading accepted
      buffer.symm).imp (fun kept => ⟨_, rest, kept⟩) id

end Framed

section Run

variable {frames : List (List Char)} {reads : List (List UInt8)}

/-- After any reads the frames are in order, or one of the reads lost some of
them. -/
theorem run_framed_or_lost (isFrame : ∀ frame ∈ frames, Frame frame)
    (nonempty : ∀ read ∈ reads, read ≠ [])
    (within : (reads.map Utf8.decode).flatten <+: frames.flatten) :
    (∃ served backlog,
        Framed dispatches frames (reads.map Utf8.decode) served backlog
          (run dispatches reads)) ∨
      (Lost frames (reads.map Utf8.decode) (run dispatches reads) ∧
        ∃ before read after, reads = before ++ read :: after ∧
          Disturbed dispatches frames (before.map Utf8.decode)
            (Utf8.decode read)) := by
  induction reads using List.reverseRecOn with
  | nil => exact Or.inl ⟨[], [], framed_nil dispatches frames⟩
  | append_singleton reads read inductionHypothesis =>
      rw [List.forall_mem_append, List.forall_mem_singleton] at nonempty
      rw [List.map_append, List.map_singleton] at within ⊢
      have earlier : (reads.map Utf8.decode).flatten <+: frames.flatten := by
        rw [List.flatten_append] at within
        exact (List.prefix_append _ _).trans within
      rw [run_concat]
      rcases inductionHypothesis nonempty.1 earlier with
        ⟨served, backlog, framed⟩ |
          ⟨lost, before, cause, after, rfl, disturbed⟩
      · rcases framed.receive isFrame nonempty.2 within with
          kept | ⟨lost, disturbed⟩
        · exact Or.inl kept
        · exact Or.inr ⟨lost, reads, read, [], rfl, disturbed⟩
      · exact Or.inr ⟨lost.receive read within, before, cause,
          after ++ [read], by rw [List.append_assoc, List.cons_append],
          disturbed⟩

/-- What is lost stays lost. -/
theorem run_lost_append {before : List (List UInt8)}
    (lost : Lost frames (before.map Utf8.decode) (run dispatches before))
    {after : List (List UInt8)}
    (within :
      ((before ++ after).map Utf8.decode).flatten <+: frames.flatten) :
    Lost frames ((before ++ after).map Utf8.decode)
      (run dispatches (before ++ after)) := by
  induction after using List.reverseRecOn with
  | nil =>
      rw [List.append_nil]
      exact lost
  | append_singleton after read inductionHypothesis =>
      rw [← List.append_assoc, List.map_append, List.map_singleton]
        at within ⊢
      rw [run_concat]
      refine Lost.receive (inductionHypothesis ?_) read within
      rw [List.flatten_append] at within
      exact (List.prefix_append _ _).trans within

theorem run_lost_of_cutsOpening (isFrame : ∀ frame ∈ frames, Frame frame)
    (nonempty : ∀ read ∈ reads, read ≠ [])
    (within : (reads.map Utf8.decode).flatten <+: frames.flatten)
    {before after : List (List UInt8)} {read : List UInt8}
    (split : reads = before ++ read :: after)
    (cuts : CutsOpening envelopBegin frames (before.map Utf8.decode)
      (Utf8.decode read)) :
    Lost frames (reads.map Utf8.decode) (run dispatches reads) := by
  obtain rfl : reads = before ++ [read] ++ after := by
    rw [split, List.append_assoc, List.singleton_append]
  apply run_lost_append ?_ within
  rw [List.append_assoc, List.forall_mem_append, List.singleton_append,
    List.forall_mem_cons] at nonempty
  rw [List.map_append, List.flatten_append] at within
  have here := (List.prefix_append _ _).trans within
  rw [List.map_append, List.map_singleton] at here ⊢
  rw [run_concat]
  have earlier := here
  rw [List.flatten_append] at earlier
  rcases run_framed_or_lost isFrame nonempty.1
    ((List.prefix_append _ _).trans earlier) with
    ⟨served, backlog, framed⟩ | ⟨lost, _⟩
  · exact framed.lost_of_cutsOpening isFrame nonempty.2.1 here cuts
  · exact lost.receive read here

/-- In a run over all the frames, losing some is visible in what is handed
over. -/
theorem Lost.count_lt {pieces : List (List Char)} {reader : SocketReader}
    (lost : Lost frames pieces reader)
    (all : pieces.flatten = frames.flatten) :
    reader.decoded.flatten.count (Utf16.unit openAngle) <
      frames.flatten.count openAngle := by
  rw [Lost] at lost
  split at lost
  · rw [List.count_append, all] at lost
    omega
  · exact lost

theorem Lost.decoded_ne {pieces messages : List (List Char)}
    {reader : SocketReader} (lost : Lost frames pieces reader)
    (all : pieces.flatten = frames.flatten)
    (same : frames.flatten.count openAngle =
      messages.flatten.count openAngle) :
    reader.decoded ≠ messages.map Utf16.encode := by
  intro decoded
  have fewer := lost.count_lt all
  rw [decoded, ← Utf16.encode_flatten, count_encode_openAngle, same] at fewer
  exact Nat.lt_irrefl _ fewer

/-- All frames are handed over when as many are. -/
theorem Framed.served_eq {pieces served messages : List (List Char)}
    {backlog : List Char} {reader : SocketReader}
    (framed : Framed dispatches frames pieces served backlog reader)
    (decoded : reader.decoded = messages.map Utf16.encode)
    (length : messages.length = frames.length) : served = frames := by
  have number := congrArg List.length (framed.decoded.symm.trans decoded)
  rw [List.length_map, List.length_map, length] at number
  exact framed.within.eq_of_length number

/-- Where the frames arrive unharmed, it depends on the ends of the reads
alone whether all of them are handed over. -/
theorem run_decoded_iff (isFrame : ∀ frame ∈ frames, Frame frame)
    (small : ∀ frame ∈ frames, (Utf16.encode frame).length ≤ maxPacketSize)
    (nonempty : ∀ read ∈ reads, read ≠ [])
    (all : (reads.map Utf8.decode).flatten = frames.flatten) :
    (run dispatches reads).decoded = frames.map Utf16.encode ↔
      KeepsUp frames (reads.map Utf8.decode) ∧
      (∀ before read after, reads = before ++ read :: after →
        ¬CutsOpening envelopBegin frames (before.map Utf8.decode)
          (Utf8.decode read)) ∧
      ∀ frame ∈ frames.dropLast, dispatches (Utf16.encode frame) := by
  have within : (reads.map Utf8.decode).flatten <+: frames.flatten :=
    all ▸ List.prefix_refl _
  have outcome := @run_framed_or_lost dispatches _ _ isFrame nonempty within
  constructor
  · intro decoded
    have notLost :
        ¬Lost frames (reads.map Utf8.decode) (run dispatches reads) :=
      fun lost => lost.decoded_ne all rfl decoded
    obtain ⟨served, backlog, framed⟩ :=
      outcome.resolve_right (fun lost => notLost lost.1)
    obtain rfl := framed.served_eq decoded rfl
    refine ⟨?_, ?_, framed.accepted⟩
    · exact (framed.paced _ framed.within).mpr (List.prefix_refl _)
    · intro before read after split cuts
      exact notLost
        (run_lost_of_cutsOpening isFrame nonempty within split cuts)
  · rintro ⟨keepsUp, noCut, accepted⟩
    rcases outcome with ⟨served, backlog, framed⟩ |
      ⟨_, before, read, after, split, disturbed⟩
    · have everything :=
        (framed.paced _ (List.prefix_refl frames)).mp keepsUp
      rw [framed.decoded,
        framed.within.eq_of_length_le everything.length_le]
    · rcases disturbed with cuts | ⟨frame, member, long⟩ |
        ⟨frame, member, refused⟩
      · exact absurd cuts (noCut before read after split)
      · exact absurd (small frame member) (Nat.not_le.mpr long)
      · exact absurd (accepted frame member) refused

end Run

end SocketReader

/-! ## Reads that cut characters -/

/-- The markers are ASCII, so no cut harms them. -/
theorem frame_of_damaged {message spelt : List Char}
    (isFrame : Frame message) (damaged : Utf8.Damaged message spelt) :
    Frame spelt where
  opens := by
    obtain ⟨rest, rfl⟩ := isFrame.opens
    obtain ⟨front, back, rfl, begun, _⟩ := damaged.split
    rw [begun.eq_of_ascii ascii_envelopBegin]
    exact List.prefix_append _ _
  closes := by
    obtain ⟨rest, rfl⟩ := isFrame.closes
    obtain ⟨front, back, rfl, _, ended⟩ := damaged.split
    rw [ended.eq_of_ascii ascii_envelopClose]
    exact List.suffix_append _ _
  opensOnce := by
    intro before after split
    obtain ⟨front, back, whole, begun, _⟩ :=
      damaged.of_occurrence ascii_envelopBegin (by decide) split
    obtain rfl := isFrame.opensOnce front back whole
    cases begun
    rfl
  closesOnce := by
    intro before after split
    obtain ⟨front, back, whole, _, ended⟩ :=
      damaged.of_occurrence ascii_envelopClose (by decide) split
    obtain rfl := isFrame.closesOnce front back whole
    cases ended
    rfl

theorem frames_of_damaged {messages spellings : List (List Char)}
    (each : List.Forall₂ Utf8.Damaged messages spellings)
    (isFrame : ∀ message ∈ messages, Frame message) :
    ∀ spelt ∈ spellings, Frame spelt := by
  induction each with
  | nil => exact isFrame
  | cons damaged _ inductionHypothesis =>
      rw [List.forall_mem_cons] at isFrame ⊢
      exact ⟨frame_of_damaged isFrame.1 damaged,
        inductionHypothesis isFrame.2⟩

namespace SocketReader

variable {dispatches : List UInt16 → Bool}
variable {messages : List (List Char)} {reads : List (List UInt8)}

/-- When the messages are handed over as they are, no read cut a
character. -/
theorem whole_of_decoded (isFrame : ∀ message ∈ messages, Frame message)
    (nonempty : ∀ read ∈ reads, read ≠ [])
    (sent : reads.flatten = Utf8.encode messages.flatten)
    (decoded :
      (run dispatches reads).decoded = messages.map Utf16.encode) :
    Utf8.Whole reads := by
  obtain ⟨before, spelt, spelling, damaged, isStart, outcome⟩ :=
    @Utf8.decode_pieces reads [] messages.flatten
      (fun _ member => nomatch member) sent
  obtain rfl := isStart.mpr rfl
  obtain ⟨frames, rfl, each⟩ := damaged.flatten
  have all : (reads.map Utf8.decode).flatten = frames.flatten := spelling
  rcases @run_framed_or_lost dispatches _ _ (frames_of_damaged each isFrame)
    nonempty (all ▸ List.prefix_refl _) with
    ⟨served, backlog, framed⟩ | ⟨lost, _⟩
  · obtain rfl := framed.served_eq decoded each.length_eq
    have units := framed.decoded.symm.trans decoded
    apply (outcome rfl).resolve_right
    intro more
    have same := congrArg
      (fun lists => lists.flatten.count (Utf16.unit Utf8.replacement)) units
    simp only [← Utf16.encode_flatten] at same
    rw [Utf16.count_encode (by decide), Utf16.count_encode (by decide)]
      at same
    exact Nat.ne_of_lt more same.symm
  · exact absurd decoded
      (lost.decoded_ne all (damaged.count_ascii (by decide)))

end SocketReader

/-! ## The messages of a stream -/

/-- A message is a frame that is not too long for the buffer. -/
structure IsMessage (message : List Char) : Prop where
  frame : Frame message
  small : (Utf16.encode message).length < maxPacketSize

theorem isMessage_iff (message : List Char) :
    IsMessage message ↔
      (envelopBegin <+: message ∧ envelopClose <:+ message ∧
        indexOf envelopBegin message.tail = none ∧
          indexOf envelopClose message.dropLast = none) ∧
        (Utf16.encode message).length < maxPacketSize := by
  rw [← Delimited.iff_indexOf (by decide) (by decide)]
  exact
    ⟨fun isMessage => ⟨isMessage.frame, isMessage.small⟩,
      fun both => ⟨both.1, both.2⟩⟩

instance : DecidablePred IsMessage := fun message =>
  decidable_of_iff _ (isMessage_iff message).symm

/-- The bytes of the text as they are read. -/
structure Packets (reads : List (List UInt8)) (text : List Char) : Prop where
  sizes : ∀ read ∈ reads, 0 < read.length ∧ read.length ≤ readSize
  bytes : reads.flatten = Utf8.encode text

/-- The loop hands over exactly the messages, in order, if and only if every
read is a text of its own, the reads keep up with the messages, no read ends
inside the opening marker of a message when those before it have been handed
over, and dispatching throws on the last message at most. -/
theorem SocketReader.decoded_iff (dispatches : List UInt16 → Bool)
    {messages : List (List Char)} {reads : List (List UInt8)}
    (isMessage : ∀ message ∈ messages, IsMessage message)
    (packets : Packets reads messages.flatten) :
    (run dispatches reads).decoded = messages.map Utf16.encode ↔
      ∃ texts : List (List Char), reads = texts.map Utf8.encode ∧
        KeepsUp messages texts ∧
        (∀ before text after, texts = before ++ text :: after →
          ¬CutsOpening envelopBegin messages before text) ∧
        ∀ message ∈ messages.dropLast,
          dispatches (Utf16.encode message) := by
  have isFrame : ∀ message ∈ messages, Frame message :=
    fun message member => (isMessage message member).frame
  have nonempty : ∀ read ∈ reads, read ≠ [] :=
    fun read member => List.ne_nil_of_length_pos (packets.sizes read member).1
  have ofTexts : ∀ texts : List (List Char), reads = texts.map Utf8.encode →
      ((run dispatches reads).decoded = messages.map Utf16.encode ↔
        KeepsUp messages texts ∧
        (∀ before text after, texts = before ++ text :: after →
          ¬CutsOpening envelopBegin messages before text) ∧
        ∀ message ∈ messages.dropLast,
          dispatches (Utf16.encode message)) := by
    rintro texts rfl
    have all : texts.flatten = messages.flatten := by
      rw [← Utf8.decode_encode texts.flatten, Utf8.encode_flatten,
        packets.bytes, Utf8.decode_encode]
    rw [run_decoded_iff isFrame
      (fun message member => Nat.le_of_lt (isMessage message member).small)
      nonempty (by rw [Utf8.map_decode_encode, all]), Utf8.map_decode_encode]
    refine and_congr_right (fun _ => and_congr_left (fun _ => ?_))
    constructor
    · intro noCut before text after split
      have here := noCut (before.map Utf8.encode) (Utf8.encode text)
        (after.map Utf8.encode) (by rw [split, List.map_append, List.map_cons])
      rwa [Utf8.map_decode_encode, Utf8.decode_encode] at here
    · intro noCut before read after split
      obtain ⟨front, rest, rfl, rfl, later⟩ := List.map_eq_append_iff.mp split
      obtain ⟨text, back, rfl, rfl, rfl⟩ := List.map_eq_cons_iff.mp later
      rw [Utf8.map_decode_encode, Utf8.decode_encode]
      exact noCut front text back rfl
  constructor
  · intro decoded
    obtain ⟨texts, split⟩ :=
      whole_of_decoded isFrame nonempty packets.bytes decoded
    exact ⟨texts, split, (ofTexts texts split).mp decoded⟩
  · rintro ⟨texts, split, condition⟩
    exact (ofTexts texts split).mpr condition

/-! ## Two messages -/

def shortMessage : List Char := "<NaviMSG>é</NaviMSG>".toList

/-- The second read holds the end of a message and the marker of the next. -/
def threeReads : List (List UInt8) :=
  ["<NaviMSG>".toList, "é</NaviMSG><NaviMSG".toList,
    ">é</NaviMSG>".toList].map Utf8.encode

theorem isMessage_shortMessage :
    ∀ message ∈ [shortMessage, shortMessage], IsMessage message := by
  have frame : Frame shortMessage :=
    .of_indexOf (by decide +kernel) (by decide +kernel) (by decide +kernel)
      (by decide +kernel)
  have isMessage : IsMessage shortMessage := ⟨frame, by decide +kernel⟩
  simpa using isMessage

theorem SocketReader.decoded_threeReads :
    (run (fun _ => true) threeReads).decoded =
        [shortMessage, shortMessage].map Utf16.encode ∧
      ∃ texts : List (List Char), threeReads = texts.map Utf8.encode ∧
        KeepsUp [shortMessage, shortMessage] texts := by
  have packets : Packets threeReads [shortMessage, shortMessage].flatten :=
    ⟨by decide +kernel, by decide +kernel⟩
  have decoded :
      (run (fun _ => true) threeReads).decoded =
        [shortMessage, shortMessage].map Utf16.encode := by
    decide +kernel
  obtain ⟨texts, split, keepsUp, _⟩ :=
    (decoded_iff (fun _ => true) isMessage_shortMessage packets).mp decoded
  exact ⟨decoded, texts, split, keepsUp⟩

/-- Of two messages in one read only the first is handed over. -/
theorem SocketReader.not_decoded_one_read :
    ¬∀ (messages : List (List Char)) (reads : List (List UInt8)),
      (∀ message ∈ messages, IsMessage message) →
      Packets reads messages.flatten →
      (run (fun _ => true) reads).decoded = messages.map Utf16.encode := by
  intro claimed
  have both := claimed [shortMessage, shortMessage]
    [Utf8.encode (shortMessage ++ shortMessage)] isMessage_shortMessage
    ⟨by decide +kernel, by decide +kernel⟩
  exact absurd both (by decide +kernel)

end LocationServer
