import LocationServer.Rpc.Iterations

/-!
# The size of the buffer

The size is checked only while a message has begun and not ended.  An
iteration takes one message out, so where several arrive with each read the
others stay, and nothing bounds them.
-/

namespace LocationServer

open Framing

/-- No read gives more code units than it has bytes. -/
theorem Java.newString_length_le (d : List UInt8) :
    (newString d).length ≤ d.length := by
  induction size : d.length using Nat.strongRecOn generalizing d with
  | ind size inductionHypothesis =>
      subst size
      cases d with
      | nil => exact Nat.le_refl _
      | cons byte d =>
          cases starts : Utf8.leading (byte :: d) with
          | none =>
              have shorter :
                  (d.drop (Utf8.malformedLength (byte :: d) - 1)).length ≤
                    d.length :=
                (List.drop_sublist _ _).length_le
              have rest :=
                inductionHypothesis _ (Nat.lt_succ_of_le shorter) _ rfl
              rw [newString, Utf8.decode_of_malformed starts,
                Utf16.encode_cons, List.length_append, List.length_cons,
                Nat.add_comm]
              exact Nat.add_le_add (rest.trans shorter) (by decide)
          | some c =>
              obtain ⟨rest, split⟩ := Utf8.eq_append_of_leading starts
              have sizes : (byte :: d).length = c.utf8Size + rest.length := by
                rw [split, List.length_append, String.length_utf8EncodeChar]
              have later :=
                inductionHypothesis rest.length
                  (by have := c.utf8Size_pos; omega) rest rfl
              rw [sizes, split, newString,
                Utf8.decode_utf8EncodeChar_append, Utf16.encode_cons,
                List.length_append]
              exact Nat.add_le_add (Utf16.codeUnits_length_le c) later

/-- `MAXPACKET_SIZE` and one read. -/
def bufferBound : Nat := maxPacketSize + readSize

namespace SocketReader

variable {dispatches : List UInt16 → Bool}

/-- After each iteration of the run that goes on, the buffer is within the
bound. -/
def BufferBounded (dispatches : List UInt16 → Bool)
    (reads : List (List UInt8)) : Prop :=
  ∀ before, before <+: reads →
    (run dispatches before).status = .reading →
      (run dispatches before).strbuf.length ≤ bufferBound

theorem bufferBounded_concat (reads : List (List UInt8)) (d : List UInt8) :
    BufferBounded dispatches (reads ++ [d]) ↔
      BufferBounded dispatches reads ∧
        ((run dispatches (reads ++ [d])).status = .reading →
          (run dispatches (reads ++ [d])).strbuf.length ≤ bufferBound) := by
  constructor
  · intro bounded
    refine ⟨?_, bounded _ (List.prefix_refl _)⟩
    intro before within
    exact bounded before (within.trans (List.prefix_append reads [d]))
  · intro both before within
    rcases List.prefix_concat_iff.mp within with rfl | earlier
    · exact both.2
    · exact both.1 before earlier

/-! ## What is left behind a message -/

/-- Not too much stands behind the text that the iteration takes out of the
buffer. -/
structure RestFits (dispatches : List UInt16 → Bool)
    (buffer : List UInt16) : Prop where
  skipped : ∀ last, Java.indexOf envelopBegin buffer = none →
    Java.indexOf envelopClose buffer = some last →
      buffer.length ≤ last + envelopClose.length + bufferBound
  taken : ∀ first last, Java.indexOf envelopBegin buffer = some first →
    Java.indexOf envelopClose buffer = some last →
      dispatches ((buffer.drop first).take (last + envelopClose.length)) =
          true →
        buffer.length ≤ first + (last + envelopClose.length) + bufferBound

theorem restFits_of_no_close {buffer : List UInt16}
    (noClose : Java.indexOf envelopClose buffer = none) :
    RestFits dispatches buffer where
  skipped := by
    intro last _ found
    rw [noClose] at found
    cases found
  taken := by
    intro first last _ found
    rw [noClose] at found
    cases found

theorem parse_bounded_iff (buffer : List UInt16)
    (decoded : List (List UInt16)) :
    ((parse dispatches ⟨buffer, decoded, .reading⟩).status = .reading →
        (parse dispatches ⟨buffer, decoded, .reading⟩).strbuf.length ≤
          bufferBound) ↔
      RestFits dispatches buffer := by
  cases begins : Java.indexOf envelopBegin buffer with
  | none =>
      cases closes : Java.indexOf envelopClose buffer with
      | none =>
          rw [parse_neither begins closes]
          exact
            iff_of_true (fun _ => Nat.zero_le _)
              (restFits_of_no_close closes)
      | some last =>
          rw [parse_close begins closes, List.length_drop]
          constructor
          · intro bounded
            refine ⟨?_, ?_⟩
            · intro other _ found
              obtain rfl := Option.some.inj (closes.symm.trans found)
              exact Nat.sub_le_iff_le_add'.mp (bounded rfl)
            · intro first _ found
              rw [begins] at found
              cases found
          · intro fits _
            exact Nat.sub_le_iff_le_add'.mpr (fits.skipped last begins closes)
  | some first =>
      cases closes : Java.indexOf envelopClose buffer with
      | none =>
          rw [parse_begin begins closes]
          refine iff_of_true ?_ (restFits_of_no_close closes)
          split
          · intro reading
            cases reading
          · rename_i small
            intro _
            exact Nat.le_add_right_of_le (Nat.le_of_not_lt small)
      | some last =>
          have fits :
              RestFits dispatches buffer ↔
                (dispatches
                    ((buffer.drop first).take (last + envelopClose.length)) =
                  true →
                  buffer.length ≤
                    first + (last + envelopClose.length) + bufferBound) := by
            constructor
            · intro fits
              exact fits.taken first last begins closes
            · intro bounded
              refine ⟨?_, ?_⟩
              · intro _ found
                rw [begins] at found
                cases found
              · intro other later isFirst isLast
                obtain rfl := Option.some.inj (begins.symm.trans isFirst)
                obtain rfl := Option.some.inj (closes.symm.trans isLast)
                exact bounded
          rw [fits, parse_both begins closes]
          split
          · dsimp only
            rw [List.drop_drop, List.length_drop, Nat.sub_le_iff_le_add']
            refine imp_congr_left ?_
            split
            · rename_i dispatched
              exact iff_of_true rfl dispatched
            · rename_i thrown
              exact iff_of_false (by decide) thrown
          · rename_i beyond
            refine iff_of_true (by simp) ?_
            intro _
            rw [List.length_drop] at beyond
            omega

theorem run_bounded_iff (reads : List (List UInt8)) :
    BufferBounded dispatches reads ↔
      EachIteration dispatches reads (RestFits dispatches) := by
  refine iff_eachIteration ?_ ?_ ?_ reads
  · intro before within _
    rw [List.prefix_nil.mp within]
    exact Nat.zero_le _
  · intro reads d reading
    rw [bufferBounded_concat, run_concat, receive, if_pos reading, reading,
      parse_bounded_iff]
  · intro reads d stopped
    rw [bufferBounded_concat, run_concat,
      receive_of_not_reading dispatches stopped, and_iff_left]
    exact fun reading => absurd reading stopped

/-! ## One message at a time -/

/-- Behind the first closing marker there is no other. -/
def ClosesOnce (buffer : List UInt16) : Prop :=
  ∀ last, Java.indexOf envelopClose buffer = some last →
    Java.indexOf envelopClose
      (buffer.drop (last + envelopClose.length)) = none

instance (buffer : List UInt16) : Decidable (ClosesOnce buffer) :=
  inferInstanceAs
    (Decidable
      (∀ last ∈ Java.indexOf envelopClose buffer,
        Java.indexOf envelopClose
          (buffer.drop (last + envelopClose.length)) = none))

/-- No message that has ended is in the buffer, and it is not too long. -/
structure Waits (buffer : List UInt16) : Prop where
  noClose : Java.indexOf envelopClose buffer = none
  small : buffer.length ≤ maxPacketSize

theorem missing_of_indexOf {word : List Char} {buffer : List UInt16}
    (notFound : Java.indexOf word buffer = none) :
    Missing (Utf16.encode word) buffer :=
  Framing.indexOf_eq_none_iff.mp notFound

theorem indexOf_drop_eq_none {word : List Char} {buffer : List UInt16}
    (notFound : Java.indexOf word buffer = none) (cut : Nat) :
    Java.indexOf word (buffer.drop cut) = none :=
  Framing.indexOf_eq_none_iff.mpr
    ((missing_of_indexOf notFound).of_isInfix (List.drop_suffix _ _).isInfix)

/-- Behind the message there is only what the last read has brought. -/
theorem drop_waits {strbuf received : List UInt16} {last : Nat}
    (waits : Waits strbuf) (size : received.length ≤ readSize)
    (once : ClosesOnce (strbuf ++ received))
    (closes : Java.indexOf envelopClose (strbuf ++ received) = some last)
    (first : Nat) :
    Waits
      (((strbuf ++ received).drop (last + envelopClose.length)).drop
        first) where
  noClose := indexOf_drop_eq_none (once last closes) first
  small := by
    have beyond := (missing_of_indexOf waits.noClose).length_lt closes
    rw [encode_envelopClose_length] at beyond
    have fits : readSize ≤ maxPacketSize := by decide
    rw [List.length_drop, List.length_drop, List.length_append]
    omega

theorem parse_waits {strbuf received : List UInt16}
    {decoded : List (List UInt16)} (waits : Waits strbuf)
    (size : received.length ≤ readSize)
    (once : ClosesOnce (strbuf ++ received))
    (goesOn :
      (parse dispatches ⟨strbuf ++ received, decoded, .reading⟩).status =
        .reading) :
    Waits
      (parse dispatches
        ⟨strbuf ++ received, decoded, .reading⟩).strbuf := by
  cases begins : Java.indexOf envelopBegin (strbuf ++ received) with
  | none =>
      cases closes : Java.indexOf envelopClose (strbuf ++ received) with
      | none =>
          rw [parse_neither begins closes]
          exact ⟨rfl, Nat.zero_le _⟩
      | some last =>
          rw [parse_close begins closes]
          exact drop_waits waits size once closes 0
  | some first =>
      cases closes : Java.indexOf envelopClose (strbuf ++ received) with
      | none =>
          rw [parse_begin begins closes] at goesOn ⊢
          split at goesOn
          · cases goesOn
          · rename_i small
            rw [if_neg small]
            exact
              ⟨indexOf_drop_eq_none closes first, Nat.le_of_not_lt small⟩
      | some last =>
          rw [parse_both begins closes] at goesOn ⊢
          split at goesOn
          · rename_i within
            rw [if_pos within]
            dsimp only
            rw [List.drop_drop, Nat.add_comm, ← List.drop_drop]
            exact drop_waits waits size once closes first
          · cases goesOn

theorem run_waits {reads : List (List UInt8)}
    (sizes : ∀ d ∈ reads, d.length ≤ readSize)
    (once : EachIteration dispatches reads ClosesOnce)
    (reading : (run dispatches reads).status = .reading) :
    Waits (run dispatches reads).strbuf := by
  induction reads using List.reverseRecOn with
  | nil => exact ⟨rfl, Nat.zero_le _⟩
  | append_singleton reads d inductionHypothesis =>
      obtain ⟨earlier, last⟩ := (eachIteration_concat _ _ _).mp once
      rw [List.forall_mem_append] at sizes
      have size : d.length ≤ readSize := sizes.2 d List.mem_cons_self
      rw [run_concat] at reading ⊢
      by_cases before : (run dispatches reads).status = .reading
      · rw [receive, if_pos before, before] at reading ⊢
        exact
          parse_waits (inductionHypothesis sizes.1 earlier before)
            ((Java.newString_length_le d).trans size) (last before) reading
      · rw [receive_of_not_reading dispatches before] at reading
        exact absurd reading before

/-- The buffer stays within the bound exactly when not too much stands behind
each message that is taken out.  When no iteration finds a second closing
marker, the buffer never grows beyond one message. -/
theorem buffer_bounded_iff (dispatches : List UInt16 → Bool) :
    (∀ reads : List (List UInt8), BufferBounded dispatches reads ↔
      EachIteration dispatches reads (RestFits dispatches)) ∧
    ∀ reads : List (List UInt8), (∀ d ∈ reads, d.length ≤ readSize) →
      EachIteration dispatches reads ClosesOnce →
        (run dispatches reads).status = .reading →
          (run dispatches reads).strbuf.length ≤ maxPacketSize := by
  refine ⟨run_bounded_iff, ?_⟩
  intro reads sizes once reading
  exact (run_waits sizes once reading).small

theorem buffer_bounded_threeReads :
    (run (fun _ => true) threeReads).strbuf.length ≤ maxPacketSize := by
  have once : EachIteration (fun _ => true) threeReads ClosesOnce := by
    have parts :
        threeReads =
          [] ++ [Utf8.encode "<NaviMSG>".toList] ++
              [Utf8.encode "é</NaviMSG><NaviMSG".toList] ++
            [Utf8.encode ">é</NaviMSG>".toList] :=
      rfl
    rw [parts, eachIteration_concat, eachIteration_concat,
      eachIteration_concat]
    refine ⟨⟨⟨eachIteration_nil _, ?_⟩, ?_⟩, ?_⟩ <;>
      · intro _
        decide +kernel
  exact
    (buffer_bounded_iff fun _ => true).2 threeReads (by decide +kernel) once
      (by decide +kernel)

/-! ## Many small messages -/

theorem encode_copies_length (copies : Nat) (message : List Char) :
    (Utf16.encode (List.replicate copies message).flatten).length =
      copies * (Utf16.encode message).length := by
  rw [Utf16.encode_flatten, List.map_replicate, List.length_flatten,
    List.map_replicate, List.sum_replicate_nat]

/-- Of the messages of each read one is handed over. -/
theorem run_copies {message : List Char}
    (isFrame : Frame message)
    (dispatched : dispatches (Utf16.encode message) = true)
    (reads copies : Nat) :
    run dispatches
        (List.replicate reads
          (Utf8.encode (List.replicate (copies + 1) message).flatten)) =
      ⟨Utf16.encode (List.replicate (reads * copies) message).flatten,
        List.replicate reads (Utf16.encode message), .reading⟩ := by
  induction reads with
  | zero =>
      rw [Nat.zero_mul]
      rfl
  | succ reads inductionHypothesis =>
      have buffer :
          (List.replicate (reads * copies) message).flatten ++
              (List.replicate (copies + 1) message).flatten =
            message ++
              (List.replicate ((reads + 1) * copies) message).flatten := by
        rw [← List.flatten_append, List.replicate_append_replicate,
          ← Nat.add_assoc, ← Nat.succ_mul, List.replicate_succ,
          List.flatten_cons]
      rw [List.replicate_succ', run_concat, inductionHypothesis,
        receive_encode, Utf8.decode_encode, buffer,
        parse_of_message dispatches isFrame, if_pos dispatched,
        List.replicate_succ']

/-- Four reads full of messages of twenty characters are too much. -/
theorem buffer_exceeds_bound :
    ¬∀ reads : List (List UInt8), (∀ d ∈ reads, d.length ≤ readSize) →
      BufferBounded (fun _ => true) reads := by
  intro claimed
  have isFrame : Frame shortMessage :=
    (isMessage_shortMessage shortMessage List.mem_cons_self).frame
  have four :=
    @run_copies (fun _ => true) shortMessage isFrame rfl 4 242
  have size :
      (Utf8.encode
          (List.replicate (242 + 1) shortMessage).flatten).length ≤
        readSize := by
    rw [Utf8.encode_flatten, List.map_replicate, List.length_flatten,
      List.map_replicate, List.sum_replicate_nat]
    decide +kernel
  have bounded :=
    claimed _ (fun d member => List.eq_of_mem_replicate member ▸ size) _
      (List.prefix_refl _) (congrArg status four)
  rw [four, encode_copies_length] at bounded
  exact absurd bounded (by decide +kernel)

end SocketReader

end LocationServer
