import LocationServer.Rpc.Iterations

/-!
# Stray text around the messages

The loop means to skip what stands in front of a message.  It does so only
when the message is at the start of the buffer anyway: otherwise the end of the
message is taken too far, by as much as has been skipped.
-/

namespace LocationServer

open Framing

namespace SocketReader

variable {dispatches : List UInt16 → Bool}

/-! ## No index outside the buffer -/

/-- With both markers in the buffer, the end of the message is in it too when
the closing marker is counted from the opening one. -/
def CutFits (buffer : List UInt16) : Prop :=
  ∀ first last, Java.indexOf envelopBegin buffer = some first →
    Java.indexOf envelopClose buffer = some last →
      first + (last + envelopClose.length) ≤ buffer.length

theorem reading_inBounds : ReadStatus.reading ≠ .outOfBounds := by
  decide

theorem parse_inBounds_iff (buffer : List UInt16)
    (decoded : List (List UInt16)) :
    (parse dispatches ⟨buffer, decoded, .reading⟩).status ≠ .outOfBounds ↔
      CutFits buffer := by
  cases begins : Java.indexOf envelopBegin buffer with
  | none =>
      have fits : CutFits buffer := by
        intro first last isFirst
        rw [begins] at isFirst
        cases isFirst
      cases closes : Java.indexOf envelopClose buffer with
      | none =>
          rw [parse_neither begins closes]
          exact iff_of_true reading_inBounds fits
      | some last =>
          rw [parse_close begins closes]
          exact iff_of_true reading_inBounds fits
  | some first =>
      cases closes : Java.indexOf envelopClose buffer with
      | none =>
          have fits : CutFits buffer := by
            intro _ last _ isLast
            rw [closes] at isLast
            cases isLast
          rw [parse_begin begins closes]
          refine iff_of_true ?_ fits
          split <;> simp
      | some last =>
          have within := envelopBegin_within begins
          have fits :
              CutFits buffer ↔
                last + envelopClose.length ≤ (buffer.drop first).length := by
            rw [List.length_drop]
            constructor
            · intro fits
              have bound := fits first last begins closes
              omega
            · intro bound other later isFirst isLast
              obtain rfl := Option.some.inj (begins.symm.trans isFirst)
              obtain rfl := Option.some.inj (closes.symm.trans isLast)
              omega
          rw [fits, parse_both begins closes]
          split
          · rename_i bound
            refine iff_of_true ?_ bound
            dsimp only
            split <;> decide
          · rename_i beyond
            exact iff_of_false (by simp) beyond

theorem receive_inBounds_iff {reader : SocketReader}
    (reading : reader.status = .reading) (d : List UInt8) :
    (receive dispatches reader d).status ≠ .outOfBounds ↔
      CutFits (reader.strbuf ++ Java.newString d) := by
  rw [receive, if_pos reading, reading]
  exact parse_inBounds_iff _ _

/-- No `substring` of a run throws exactly when the cut fits in each
iteration. -/
theorem run_inBounds_iff (reads : List (List UInt8)) :
    (run dispatches reads).status ≠ .outOfBounds ↔
      EachIteration dispatches reads CutFits := by
  refine
    @iff_eachIteration dispatches
      (fun reads => (run dispatches reads).status ≠ .outOfBounds) _
      reading_inBounds ?_ ?_ reads
  · intro reads d reading
    rw [run_concat, receive_inBounds_iff reading, and_iff_right]
    exact reading ▸ reading_inBounds
  · intro reads d stopped
    rw [run_concat, receive_of_not_reading dispatches stopped]

end SocketReader

/-! ## Text without markers -/

/-- The text has neither marker. -/
def Unmarked (text : List Char) : Prop :=
  Missing envelopBegin text ∧ Missing envelopClose text

theorem Unmarked.of_isInfix {text part : List Char} (unmarked : Unmarked text)
    (within : part <:+: text) : Unmarked part :=
  ⟨unmarked.1.of_isInfix within, unmarked.2.of_isInfix within⟩

section Search

variable {stray envelope : List Char}

/-- Behind stray text the opening marker is found at the start of the
envelope. -/
theorem indexOf_begin_of_unmarked (unmarked : Unmarked stray)
    (isFrame : Frame envelope) (after : List Char) :
    Java.indexOf envelopBegin (Utf16.encode (stray ++ envelope ++ after)) =
      some (Utf16.encode stray).length := by
  obtain ⟨rest, rfl⟩ := isFrame.opens
  rw [← List.append_assoc, List.append_assoc]
  apply
    Java.indexOf_append (by decide) (single_of_ascii ascii_envelopBegin)
  intro earlier later split
  obtain ⟨between, -, here⟩ :=
    unmarked.1.behind (by decide : '<' ∉ "NaviMSG".toList) split
  have here : envelopBegin = between ++ envelopBegin ++ later := here
  have lengths := congrArg List.length here
  rw [List.length_append, List.length_append] at lengths
  apply List.eq_nil_of_length_eq_zero
  omega

/-- The closing marker is found at the end of the envelope. -/
theorem indexOf_close_of_unmarked (unmarked : Unmarked stray)
    {front : List Char} (isFrame : Frame (front ++ envelopClose))
    (after : List Char) :
    Java.indexOf envelopClose
        (Utf16.encode (stray ++ (front ++ envelopClose) ++ after)) =
      some (Utf16.encode (stray ++ front)).length := by
  rw [← List.append_assoc stray]
  apply
    Java.indexOf_append (by decide) (single_of_ascii ascii_envelopClose)
  intro earlier later split
  obtain ⟨rest, begins⟩ := isFrame.opens
  rw [List.append_assoc, ← begins] at split
  obtain ⟨between, -, here⟩ :=
    unmarked.2.behind (by decide : '<' ∉ "/NaviMSG>".toList) split
  exact isFrame.closesOnce between later (begins.symm.trans here)

end Search

/-! ## Reads with at most one envelope -/

/-- What a read decodes to: stray text, or an envelope with stray text around
it. -/
inductive Arrival where
  | stray (text : List Char)
  | envelope (before message after : List Char)

namespace Arrival

def text : Arrival → List Char
  | .stray text => text
  | .envelope before message after => before ++ message ++ after

def envelope? : Arrival → Option (List Char)
  | .stray _ => none
  | .envelope _ message _ => some message

end Arrival

def envelopes (arrivals : List Arrival) : List (List Char) :=
  arrivals.filterMap Arrival.envelope?

/-- The envelopes are frames, and the text between them, which can come in
several reads, has no marker.  `stray` is the text since the last envelope. -/
def StrayApart : List Char → List Arrival → Prop
  | stray, [] => Unmarked stray
  | stray, .stray text :: arrivals => StrayApart (stray ++ text) arrivals
  | stray, .envelope before message after :: arrivals =>
      Unmarked (stray ++ before) ∧ Frame message ∧
        StrayApart after arrivals

/-- Each envelope is at the start of its read, and the read directly before it
leaves nothing in the buffer.  `left` is what the last read has left. -/
def Aligned : List Char → List Arrival → Prop
  | _, [] => True
  | _, .stray _ :: arrivals => Aligned [] arrivals
  | left, .envelope before _ after :: arrivals =>
      left = [] ∧ before = [] ∧ Aligned after arrivals

theorem StrayApart.unmarked {arrivals : List Arrival} {stray : List Char}
    (apart : StrayApart stray arrivals) : Unmarked stray := by
  induction arrivals generalizing stray with
  | nil => exact apart
  | cons arrival arrivals inductionHypothesis =>
      cases arrival with
      | stray text =>
          exact
            (inductionHypothesis apart).of_isInfix
              (List.prefix_append stray text).isInfix
      | envelope before message after =>
          exact apart.1.of_isInfix (List.prefix_append stray before).isInfix

theorem StrayApart.suffix {arrivals : List Arrival}
    {front back : List Char} (apart : StrayApart (front ++ back) arrivals) :
    StrayApart back arrivals := by
  induction arrivals generalizing back with
  | nil => exact Unmarked.of_isInfix apart (List.suffix_append _ _).isInfix
  | cons arrival arrivals inductionHypothesis =>
      cases arrival with
      | stray text =>
          rw [StrayApart, List.append_assoc] at apart
          exact inductionHypothesis apart
      | envelope before message after =>
          obtain ⟨unmarked, others⟩ := apart
          rw [List.append_assoc] at unmarked
          exact
            ⟨unmarked.of_isInfix (List.suffix_append _ _).isInfix, others⟩

theorem aligned_of_no_envelope {arrivals : List Arrival}
    (noEnvelope : envelopes arrivals = []) (left : List Char) :
    Aligned left arrivals := by
  induction arrivals generalizing left with
  | nil => trivial
  | cons arrival arrivals inductionHypothesis =>
      cases arrival with
      | stray text => exact inductionHypothesis noEnvelope []
      | envelope before message after => cases noEnvelope

namespace SocketReader

variable {dispatches : List UInt16 → Bool}

/-- Behind stray text an envelope is not handed over as it is: its end lies
outside the buffer, or too much is handed over. -/
theorem parse_of_stray {stray message : List Char} (started : stray ≠ [])
    (unmarked : Unmarked stray) (isFrame : Frame message)
    (after : List Char) (decoded : List (List UInt16)) :
    ∃ reader,
      parse dispatches
          ⟨Utf16.encode (stray ++ message ++ after), decoded, .reading⟩ =
        reader ∧
        ((reader.status ≠ .reading ∧ reader.decoded = decoded) ∨
          ∃ xml, reader.decoded = decoded ++ [xml] ∧
            xml ≠ Utf16.encode message) := by
  obtain ⟨front, rfl⟩ := isFrame.closes
  refine
    ⟨_, parse_both (indexOf_begin_of_unmarked unmarked isFrame after)
      (indexOf_close_of_unmarked unmarked isFrame after), ?_⟩
  split
  · rename_i within
    refine Or.inr ⟨_, rfl, ?_⟩
    intro same
    have lengths := congrArg List.length same
    have long : 0 < (Utf16.encode stray).length := by
      obtain ⟨c, rest, rfl⟩ := List.exists_cons_of_ne_nil started
      rw [Utf16.encode_cons, List.length_append]
      exact
        Nat.add_pos_left
          (List.length_pos_of_ne_nil (Utf16.codeUnits_ne_nil c)) _
    rw [List.length_take, Nat.min_eq_left within, Utf16.encode_append,
      Utf16.encode_append, List.length_append, List.length_append,
      encode_envelopClose_length] at lengths
    omega
  · exact Or.inl ⟨by simp, rfl⟩

theorem decoded_of_stray_ne {stray message : List Char}
    (started : stray ≠ []) (unmarked : Unmarked stray)
    (isFrame : Frame message) (after : List Char)
    (decoded later : List (List UInt16)) (reads : List (List UInt8)) :
    (reads.foldl (receive dispatches)
        (parse dispatches
          ⟨Utf16.encode (stray ++ message ++ after), decoded,
            .reading⟩)).decoded ≠
      decoded ++ Utf16.encode message :: later := by
  obtain ⟨reader, parsed, lost | ⟨xml, taken, tooLong⟩⟩ :=
    parse_of_stray started unmarked isFrame after decoded
  · rw [parsed, foldl_receive_of_stopped lost.1, lost.2]
    intro same
    exact absurd (List.self_eq_append_right.mp same) (List.cons_ne_nil _ _)
  · rw [parsed]
    intro same
    obtain ⟨more, grown⟩ := decoded_isPrefix dispatches reads reader
    rw [same, taken, List.append_assoc] at grown
    exact tooLong (List.cons.inj (List.append_cancel_left grown)).1

theorem forall_dropLast_cons {α : Type} (holds : α → Prop) {first : α}
    (isFirst : holds first) (others : List α) :
    (∀ x ∈ (first :: others).dropLast, holds x) ↔
      ∀ x ∈ others.dropLast, holds x := by
  cases others with
  | nil => simp
  | cons second others =>
      rw [List.dropLast_cons_cons, List.forall_mem_cons,
        and_iff_right isFirst]

theorem forall_dropLast_cons_of_not {α : Type} (holds : α → Prop)
    {first : α} (isNot : ¬holds first) (others : List α) :
    (∀ x ∈ (first :: others).dropLast, holds x) ↔ others = [] := by
  cases others with
  | nil => simp
  | cons second others =>
      rw [List.dropLast_cons_cons, List.forall_mem_cons]
      exact iff_of_false (fun both => isNot both.1) (List.cons_ne_nil _ _)

/-- From any state in which the loop waits. -/
theorem foldl_decoded_iff {arrivals : List Arrival} :
    ∀ {reads : List (List UInt8)} {left : List Char}
      (decoded : List (List UInt16)),
      reads.map Utf8.decode = arrivals.map Arrival.text →
        StrayApart left arrivals →
          ((reads.foldl (receive dispatches)
                ⟨Utf16.encode left, decoded, .reading⟩).decoded =
              decoded ++ (envelopes arrivals).map Utf16.encode ↔
            Aligned left arrivals ∧
              ∀ message ∈ (envelopes arrivals).dropLast,
                dispatches (Utf16.encode message) = true) := by
  induction arrivals with
  | nil =>
      intro reads left decoded arrive _
      rw [List.map_nil, List.map_eq_nil_iff] at arrive
      subst arrive
      exact
        iff_of_true (List.append_nil decoded).symm
          ⟨trivial, by simp [envelopes]⟩
  | cons arrival arrivals inductionHypothesis =>
      intro reads left decoded arrive apart
      rw [List.map_cons] at arrive
      obtain ⟨d, later, rfl, isText, laterArrive⟩ :=
        List.map_eq_cons_iff.mp arrive
      rw [List.foldl_cons, receive_encode, isText]
      cases arrival with
      | stray text =>
          have apart : StrayApart (left ++ text) arrivals := apart
          have unmarked := apart.unmarked
          rw [← List.append_nil (left ++ text)] at apart
          rw [Arrival.text,
            parse_of_neither dispatches decoded .reading unmarked.1
              unmarked.2]
          exact inductionHypothesis decoded laterArrive apart.suffix
      | envelope before message after =>
          obtain ⟨unmarked, isFrame, apart⟩ := apart
          have isNext :
              envelopes (.envelope before message after :: arrivals) =
                message :: envelopes arrivals :=
            rfl
          rw [isNext, Arrival.text, ← List.append_assoc,
            ← List.append_assoc, List.map_cons]
          by_cases started : left ++ before = []
          · obtain ⟨rfl, rfl⟩ := List.append_eq_nil_iff.mp started
            rw [List.append_nil, List.nil_append,
              parse_of_message dispatches isFrame]
            have aligned :
                Aligned [] (.envelope [] message after :: arrivals) ↔
                  Aligned after arrivals := by
              simp [Aligned]
            rw [aligned]
            by_cases dispatched :
                dispatches (Utf16.encode message) = true
            · have others :=
                inductionHypothesis (decoded ++ [Utf16.encode message])
                  laterArrive apart
              rw [List.append_assoc] at others
              rw [if_pos dispatched,
                forall_dropLast_cons
                  (fun text => dispatches (Utf16.encode text) = true)
                  dispatched]
              exact others
            · rw [if_neg dispatched, foldl_receive_of_stopped (by simp),
                List.append_cancel_left_eq, List.cons.injEq,
                and_iff_right rfl, eq_comm, List.map_eq_nil_iff,
                forall_dropLast_cons_of_not
                  (fun text => dispatches (Utf16.encode text) = true)
                  dispatched]
              constructor
              · intro isLast
                exact ⟨aligned_of_no_envelope isLast after, isLast⟩
              · exact And.right
          · refine
              iff_of_false
                (decoded_of_stray_ne started unmarked isFrame after decoded
                  _ later) ?_
            intro both
            obtain ⟨⟨rfl, rfl, -⟩, -⟩ := both
            exact started rfl

/-- Where the end of each message stays in the buffer, no exception comes from
an index; and the envelopes come out without the stray text exactly when there
is none to skip. -/
theorem stray_text_iff (dispatches : List UInt16 → Bool) :
    (∀ reads : List (List UInt8),
      (run dispatches reads).status ≠ .outOfBounds ↔
        EachIteration dispatches reads CutFits) ∧
    ∀ (reads : List (List UInt8)) (arrivals : List Arrival),
      reads.map Utf8.decode = arrivals.map Arrival.text →
        StrayApart [] arrivals →
          ((run dispatches reads).decoded =
              (envelopes arrivals).map Utf16.encode ↔
            Aligned [] arrivals ∧
              ∀ message ∈ (envelopes arrivals).dropLast,
                dispatches (Utf16.encode message) = true) := by
  refine ⟨run_inBounds_iff, ?_⟩
  intro reads arrivals arrive apart
  exact foldl_decoded_iff [] arrive apart

/-! ## Line breaks around a message -/

theorem unmarked_of_indexOf {text : List Char}
    (noBegin : Framing.indexOf envelopBegin text = none)
    (noClose : Framing.indexOf envelopClose text = none) : Unmarked text :=
  ⟨Framing.indexOf_eq_none_iff.mp noBegin,
    Framing.indexOf_eq_none_iff.mp noClose⟩

theorem frame_shortMessage : Frame shortMessage :=
  (isMessage_shortMessage shortMessage List.mem_cons_self).frame

theorem unmarked_lines : Unmarked "\n\n".toList :=
  unmarked_of_indexOf (by decide) (by decide)

/-- The line break behind the first message is cleared by the next read. -/
def brokenLines : List Arrival :=
  [.stray "\n".toList, .envelope [] shortMessage "\n".toList,
    .stray "\n".toList, .envelope [] shortMessage []]

/-- A message between two line breaks. -/
def indented : Arrival :=
  .envelope "\n".toList shortMessage "\n".toList

theorem stray_text_brokenLines :
    (run (fun _ => true)
        (brokenLines.map fun arrival => Utf8.encode arrival.text)).decoded =
      [shortMessage, shortMessage].map Utf16.encode := by
  have line : Unmarked "\n".toList :=
    unmarked_lines.of_isInfix (List.prefix_append _ _).isInfix
  have decodes :
      (brokenLines.map fun arrival => Utf8.encode arrival.text).map
          Utf8.decode =
        brokenLines.map Arrival.text := by
    simp only [List.map_map, Function.comp_def, Utf8.decode_encode]
  have apart : StrayApart [] brokenLines :=
    ⟨line, frame_shortMessage, unmarked_lines, frame_shortMessage,
      line.of_isInfix List.nil_infix⟩
  exact
    ((stray_text_iff fun _ => true).2 _ brokenLines decodes apart).mpr
      ⟨⟨rfl, rfl, rfl, rfl, trivial⟩, fun _ _ => rfl⟩

/-- With a line break in front of it a message is not found in the buffer, and
with a line break behind it too the second is handed over with it. -/
theorem stray_text_taken :
    (¬∀ reads : List (List UInt8),
      (run (fun _ => true) reads).status ≠ .outOfBounds) ∧
    ¬∀ (reads : List (List UInt8)) (arrivals : List Arrival),
      reads.map Utf8.decode = arrivals.map Arrival.text →
        StrayApart [] arrivals →
          (run (fun _ => true) reads).decoded =
            (envelopes arrivals).map Utf16.encode := by
  constructor
  · intro inBounds
    have outside :
        (run (fun _ => true)
            [Utf8.encode ("\n".toList ++ shortMessage)]).status =
          .outOfBounds := by
      decide +kernel
    exact inBounds _ outside
  · intro claimed
    have line : Unmarked "\n".toList :=
      unmarked_lines.of_isInfix (List.prefix_append _ _).isInfix
    have handed :=
      claimed [Utf8.encode indented.text] [indented]
        (by rw [List.map_singleton, Utf8.decode_encode]; rfl)
        ⟨line, frame_shortMessage, line⟩
    exact absurd handed (by decide +kernel)

end SocketReader

end LocationServer
