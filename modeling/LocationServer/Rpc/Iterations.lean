import LocationServer.Rpc.ReadLoop

/-!
# The iterations of the read loop

What an iteration does with the buffer, by where the first of each marker
stands in it.  The place of the closing marker is found before the buffer is
cut in front of the opening one, and is used after that.
-/

namespace LocationServer

open Framing

namespace Java

theorem substring_drop {text : List UInt16} {cut : Nat}
    (within : cut ≤ text.length) :
    substring text cut text.length = some (text.drop cut) := by
  rw [substring, if_pos ⟨within, Nat.le_refl _⟩, List.take_length]

theorem substring_take (text : List UInt16) (cut : Nat) :
    substring text 0 cut =
      if cut ≤ text.length then some (text.take cut) else none := by
  rw [substring, List.drop_zero]
  exact if_congr (and_iff_right (Nat.zero_le _)) rfl rfl

end Java

theorem envelopClose_within {buffer : List UInt16} {last : Nat}
    (found : Java.indexOf envelopClose buffer = some last) :
    last + envelopClose.length ≤ buffer.length := by
  rw [← encode_envelopClose_length]
  exact indexOf_add_length_le found

theorem envelopBegin_within {buffer : List UInt16} {first : Nat}
    (found : Java.indexOf envelopBegin buffer = some first) :
    first ≤ buffer.length :=
  Nat.le_of_add_right_le (indexOf_add_length_le found)

namespace SocketReader

variable {dispatches : List UInt16 → Bool}

section Parse

variable {buffer : List UInt16} {decoded : List (List UInt16)}
  {status : ReadStatus} {first last : Nat}

theorem parse_neither (noBegin : Java.indexOf envelopBegin buffer = none)
    (noClose : Java.indexOf envelopClose buffer = none) :
    parse dispatches ⟨buffer, decoded, status⟩ = ⟨[], decoded, status⟩ := by
  rw [parse, noBegin, noClose]

theorem parse_close (noBegin : Java.indexOf envelopBegin buffer = none)
    (closes : Java.indexOf envelopClose buffer = some last) :
    parse dispatches ⟨buffer, decoded, status⟩ =
      ⟨buffer.drop (last + envelopClose.length), decoded, status⟩ := by
  rw [parse, noBegin, closes]
  dsimp only
  rw [Java.substring_drop (envelopClose_within closes)]

theorem parse_begin (begins : Java.indexOf envelopBegin buffer = some first)
    (noClose : Java.indexOf envelopClose buffer = none) :
    parse dispatches ⟨buffer, decoded, status⟩ =
      if maxPacketSize < (buffer.drop first).length then
        ⟨[], decoded, .closed⟩
      else ⟨buffer.drop first, decoded, status⟩ := by
  rw [parse, begins, noClose]
  dsimp only
  rw [Java.substring_drop (envelopBegin_within begins)]

/-- With both markers the message reaches from the opening marker as far as
the closing one stood from the start of the buffer. -/
theorem parse_both (begins : Java.indexOf envelopBegin buffer = some first)
    (closes : Java.indexOf envelopClose buffer = some last) :
    parse dispatches ⟨buffer, decoded, status⟩ =
      if last + envelopClose.length ≤ (buffer.drop first).length then
        ⟨(buffer.drop first).drop (last + envelopClose.length),
          decoded ++ [(buffer.drop first).take (last + envelopClose.length)],
          if dispatches
              ((buffer.drop first).take (last + envelopClose.length)) then
            .reading
          else .thrown⟩
      else ⟨buffer.drop first, decoded, .outOfBounds⟩ := by
  rw [parse, begins, closes]
  dsimp only
  rw [Java.substring_drop (envelopBegin_within begins)]
  dsimp only
  rw [takeMessage, Java.substring_take]
  by_cases within :
      last + envelopClose.length ≤ (buffer.drop first).length
  · rw [if_pos within, if_pos within, Java.substring_drop within]
    dsimp only
    rw [decodeMsg]
    cases dispatches
      ((buffer.drop first).take (last + envelopClose.length)) <;> rfl
  · rw [if_neg within, if_neg within]

end Parse

/-! ## Runs -/

theorem receive_encode (left : List Char) (decoded : List (List UInt16))
    (d : List UInt8) :
    receive dispatches ⟨Utf16.encode left, decoded, .reading⟩ d =
      parse dispatches
        ⟨Utf16.encode (left ++ Utf8.decode d), decoded, .reading⟩ := by
  rw [receive, if_pos rfl, Utf16.encode_append]
  rfl

theorem foldl_receive_of_stopped {reader : SocketReader}
    (stopped : reader.status ≠ .reading) (reads : List (List UInt8)) :
    reads.foldl (receive dispatches) reader = reader := by
  induction reads with
  | nil => rfl
  | cons d reads inductionHypothesis =>
      rw [List.foldl_cons, receive_of_not_reading dispatches stopped]
      exact inductionHypothesis

theorem decoded_isPrefix (dispatches : List UInt16 → Bool)
    (reads : List (List UInt8)) (reader : SocketReader) :
    reader.decoded <+:
      (reads.foldl (receive dispatches) reader).decoded := by
  induction reads generalizing reader with
  | nil => exact List.prefix_refl _
  | cons d reads inductionHypothesis =>
      rw [List.foldl_cons]
      refine List.IsPrefix.trans ?_ (inductionHypothesis _)
      by_cases reading : reader.status = .reading
      · rw [receive, if_pos reading]
        obtain ⟨calls, decoded, -⟩ :=
          parse_keeps dispatches
            { reader with strbuf := reader.strbuf ++ Java.newString d }
        rw [decoded]
        exact List.prefix_append _ _
      · have same := receive_of_not_reading dispatches reading d
        exact same.symm ▸ List.prefix_refl reader.decoded

/-- Something holds of the state before each iteration of a run. -/
def EachIteration (dispatches : List UInt16 → Bool)
    (reads : List (List UInt8)) (holds : List UInt16 → Prop) : Prop :=
  ∀ before d after, reads = before ++ d :: after →
    (run dispatches before).status = .reading →
      holds ((run dispatches before).strbuf ++ Java.newString d)

theorem eachIteration_nil (holds : List UInt16 → Prop) :
    EachIteration dispatches [] holds := by
  intro before d after split
  exact absurd split (by simp)

theorem eachIteration_concat (reads : List (List UInt8)) (d : List UInt8)
    (holds : List UInt16 → Prop) :
    EachIteration dispatches (reads ++ [d]) holds ↔
      EachIteration dispatches reads holds ∧
        ((run dispatches reads).status = .reading →
          holds ((run dispatches reads).strbuf ++ Java.newString d)) := by
  constructor
  · intro each
    refine ⟨?_, each reads d [] rfl⟩
    intro before read after split
    exact each before read (after ++ [d]) (by rw [split]; simp)
  · intro each before read after split
    rcases List.eq_nil_or_concat' after with rfl | ⟨later, last, rfl⟩
    · obtain ⟨rfl, same⟩ := List.append_inj' split rfl
      obtain rfl := List.head_eq_of_cons_eq same
      exact each.2
    · have shorter : reads = before ++ read :: later := by
        rw [← List.cons_append, ← List.append_assoc] at split
        exact (List.append_inj' split rfl).1
      exact each.1 before read later shorter

/-- A property of runs that each iteration keeps just when something holds of
the state before it. -/
theorem iff_eachIteration {property : List (List UInt8) → Prop}
    {holds : List UInt16 → Prop} (start : property [])
    (goesOn : ∀ reads d, (run dispatches reads).status = .reading →
      (property (reads ++ [d]) ↔
        property reads ∧
          holds ((run dispatches reads).strbuf ++ Java.newString d)))
    (stopped : ∀ reads d, (run dispatches reads).status ≠ .reading →
      (property (reads ++ [d]) ↔ property reads))
    (reads : List (List UInt8)) :
    property reads ↔ EachIteration dispatches reads holds := by
  induction reads using List.reverseRecOn with
  | nil => exact iff_of_true start (eachIteration_nil holds)
  | append_singleton reads d inductionHypothesis =>
      rw [eachIteration_concat, ← inductionHypothesis]
      by_cases reading : (run dispatches reads).status = .reading
      · rw [goesOn reads d reading, forall_prop_of_true reading]
      · rw [stopped reads d reading, and_iff_left]
        exact fun reads => absurd reads reading

end SocketReader

end LocationServer
