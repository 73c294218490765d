import LocationServer.Concurrency.StoreCalls

/-!
# Agreement of the three stores

When calls for one device do not overlap, the calls of a device pass every
store in the order in which they were made.  Each store then holds the last
record of those that have passed it, and once all calls have returned the three
stores hold the same one.
-/

namespace LocationServer

open StepSystem

namespace StorePc

def passedMap : StorePc → Bool
  | .map => false
  | _ => true

def passedPool : StorePc → Bool
  | .map => false
  | .pool => false
  | _ => true

def passedSyncer : StorePc → Bool
  | .returned => true
  | _ => false

end StorePc

namespace StoreState

/-! ## The calls that have passed a store -/

/-- The records of the calls that have passed a store, in the order of the
calls. -/
def passedBy (passes : StorePc → Bool) (calls : List StoreCall) :
    List LocationDetail :=
  (calls.filter fun call => passes call.pc).map StoreCall.loc

/-- Of two calls for one device the earlier has returned. -/
def InOrder (calls : List StoreCall) : Prop :=
  calls.Pairwise fun earlier later =>
    earlier.loc.devId = later.loc.devId → earlier.pc = .returned

section Passed

variable {passes : StorePc → Bool} {calls : List StoreCall}
variable {index : Nat} {loc : LocationDetail} {before after : StorePc}

theorem passedBy_concat (notAtStart : passes .map = false) :
    passedBy passes (calls ++ [⟨loc, .map⟩]) = passedBy passes calls := by
  simp [passedBy, List.filter_append, notAtStart]

theorem passedBy_set_of_same
    (passes : StorePc → Bool) (after : StorePc)
    (present : calls[index]? = some { loc, pc := before })
    (same : passes before = passes after) :
    passedBy passes (calls.set index { loc, pc := after }) =
      passedBy passes calls := by
  obtain ⟨older, younger, split, moved⟩ := Threads.exists_split present
  rw [moved, split]
  cases passed : passes after <;>
    simp [passedBy, List.filter_append, same, passed]

/-- A call that passes a store is the last one for its device there. -/
theorem last_passedBy_set
    {Key : Type} [DecidableEq Key]
    {entryOf : LocationDetail → Key × LocationDetail}
    (oneDevice :
      ∀ left right,
        (entryOf left).1 = (entryOf right).1 → left.devId = right.devId)
    (inOrder : InOrder calls)
    (present : calls[index]? = some { loc, pc := before })
    (notReturned : before ≠ .returned)
    (notYet : passes before = false) (now : passes after = true)
    (key : Key) :
    Journal.last key
        ((passedBy passes
          (calls.set index { loc, pc := after })).map entryOf) =
      if (entryOf loc).1 = key then some (entryOf loc).2
      else Journal.last key ((passedBy passes calls).map entryOf) := by
  obtain ⟨older, younger, split, moved⟩ := Threads.exists_split present
  have alone : ∀ later ∈ younger, later.loc.devId ≠ loc.devId := by
    intro later member sameDevice
    rw [InOrder, split, List.pairwise_append, List.pairwise_cons] at inOrder
    exact notReturned (inOrder.2.1.1 later member sameDevice.symm)
  have unmoved :
      (passedBy passes calls).map entryOf =
        (passedBy passes older).map entryOf ++
          (passedBy passes younger).map entryOf := by
    rw [split]
    simp [passedBy, List.filter_append, notYet]
  have grown :
      (passedBy passes (calls.set index { loc, pc := after })).map
          entryOf =
        (passedBy passes older).map entryOf ++
          entryOf loc :: (passedBy passes younger).map entryOf := by
    rw [moved]
    simp [passedBy, List.filter_append, now]
  rw [unmoved, grown]
  apply Journal.last_middle
  intro entry member sameKey
  obtain ⟨record, passed, rfl⟩ := List.mem_map.mp member
  obtain ⟨later, laterMember, rfl⟩ := List.mem_map.mp passed
  exact
    alone later (List.mem_filter.mp laterMember).1
      (oneDevice later.loc loc sameKey)

theorem inOrder_concat (inOrder : InOrder calls)
    (separate :
      ∀ call ∈ calls,
        call.loc.devId = loc.devId → call.pc = .returned) :
    InOrder (calls ++ [⟨loc, .map⟩]) := by
  apply List.pairwise_append.mpr
  refine ⟨inOrder, List.pairwise_singleton _ _, ?_⟩
  intro earlier member later isLatest sameDevice
  rw [List.mem_singleton.mp isLatest] at sameDevice
  exact separate earlier member sameDevice

theorem inOrder_set (inOrder : InOrder calls)
    (present : calls[index]? = some { loc, pc := before })
    (notReturned : before ≠ .returned) :
    InOrder (calls.set index { loc, pc := after }) := by
  obtain ⟨older, younger, split, moved⟩ := Threads.exists_split present
  rw [moved]
  rw [InOrder, split, List.pairwise_append, List.pairwise_cons] at inOrder
  obtain ⟨olderOrder, ⟨laterReturned, youngerOrder⟩, across⟩ := inOrder
  apply List.pairwise_append.mpr
  refine ⟨olderOrder, List.pairwise_cons.mpr ⟨?_, youngerOrder⟩, ?_⟩
  · intro later member sameDevice
    exact absurd (laterReturned later member sameDevice) notReturned
  · intro earlier member later laterMember
    rcases List.mem_cons.mp laterMember with here | further
    · rw [here]
      have fromBefore :=
        across earlier member ⟨loc, before⟩ List.mem_cons_self
      exact fromBefore
    · exact
        across earlier member later (List.mem_cons_of_mem _ further)

end Passed

/-! ## Runs without overlapping calls for one device -/

/-- Each store holds what the calls that have passed it left there, on top of
what it held at the start. -/
structure Explained (start state : StoreState) : Prop where
  inOrder : InOrder state.calls
  dbsync : state.server.props.dbsync = start.server.props.dbsync
  grid : state.server.map.props = start.server.map.props
  map :
    ∀ id devId,
      state.server.map.recordAt id devId =
        (Journal.last (id, devId)
          ((passedBy StorePc.passedMap state.calls).map
            start.server.map.props.placement)).or
          (start.server.map.recordAt id devId)
  pool :
    ∀ devId,
      state.server.pool.whereis devId =
        (lastFor devId (passedBy StorePc.passedPool state.calls)).or
          (start.server.pool.whereis devId)
  queue :
    ∀ devId,
      lastFor devId state.enqueued =
        (lastFor devId (passedBy StorePc.passedSyncer state.calls)).or
          (lastFor devId start.enqueued)

theorem explained_of_moved {start state next : StoreState}
    {label : StoreLabel}
    (enabled : start.server.props.dbsync ≠ 0)
    (explained : Explained start state)
    (separate : state.Separate label)
    (moved : Moved state label next) : Explained start next := by
  obtain ⟨inOrder, dbsync, grid, map, pool, queue⟩ := explained
  cases moved with
  | call loc =>
      refine
        ⟨inOrder_concat inOrder separate, dbsync, grid, ?_, ?_, ?_⟩
      · rw [passedBy_concat rfl]
        exact map
      · rw [passedBy_concat rfl]
        exact pool
      · rw [passedBy_concat rfl]
        exact queue
  | map index loc present =>
      refine ⟨inOrder_set inOrder present (by simp), dbsync, grid, ?_, ?_, ?_⟩
      · intro id devId
        rw [GlobalMap.recordAt_update, map, grid,
          last_passedBy_set (fun left right sameSlot =>
            congrArg Prod.snd sameSlot) inOrder present (by simp) rfl rfl]
        by_cases sameSlot :
            (start.server.map.props.placement loc).1 = (id, devId)
        · rw [if_pos sameSlot, if_pos sameSlot]
          rfl
        · rw [if_neg sameSlot, if_neg sameSlot]
      · rw [passedBy_set_of_same _ .pool present rfl]
        exact pool
      · rw [passedBy_set_of_same _ .pool present rfl]
        exact queue
  | pool index loc present =>
      refine ⟨inOrder_set inOrder present (by simp), dbsync, grid, ?_, ?_, ?_⟩
      · rw [passedBy_set_of_same _ .syncer present rfl]
        exact map
      · intro devId
        rw [AOPool.whereis_update, pool, lastFor, lastFor,
          last_passedBy_set (fun left right sameDevice => sameDevice)
            inOrder present (by simp) rfl rfl]
        by_cases sameDevice : loc.devId = devId <;> simp [sameDevice]
      · rw [passedBy_set_of_same _ .syncer present rfl]
        exact queue
  | syncer index loc present =>
      refine ⟨inOrder_set inOrder present (by simp), dbsync, grid, ?_, ?_, ?_⟩
      · rw [passedBy_set_of_same _ .returned present rfl]
        exact map
      · rw [passedBy_set_of_same _ .returned present rfl]
        exact pool
      · intro devId
        rw [← dbsync] at enabled
        have grown :
            lastFor devId
                (state.taken ++ (state.server.syncer.update loc).locs) =
              if loc.devId = devId then some loc
              else lastFor devId state.enqueued := by
          rw [DBSyncer.update, lastFor, ← List.append_assoc,
            List.map_append, List.map_singleton, Journal.last_concat]
          rfl
        rw [enqueued, if_pos enabled, grown, queue,
          lastFor, lastFor, lastFor,
          last_passedBy_set (fun left right sameDevice => sameDevice)
            inOrder present (by simp) rfl rfl]
        by_cases sameDevice : loc.devId = devId <;> simp [sameDevice]
  | flush force =>
      refine ⟨inOrder, dbsync, grid, map, pool, ?_⟩
      intro devId
      rw [enqueued, List.append_assoc, takeBatch_append]
      exact queue devId

/-- The stores agree on a device: one record is the pool's, the last one
enqueued, and, when all calls for the device name one cell, the one stored
there. -/
def Agree (state : StoreState) (devId : DeviceId) : Prop :=
  ∃ loc,
    state.server.pool.whereis devId = some loc ∧
      lastFor devId state.enqueued = some loc ∧
      ∀ id,
        (∀ call ∈ state.calls, call.loc.devId = devId →
          state.server.map.makeCellId call.loc.gps.pt = id) →
        state.server.map.recordAt id devId = some loc

theorem passedBy_of_returned
    {passes : StorePc → Bool} {calls : List StoreCall}
    (atEnd : passes .returned = true)
    (returned : ∀ call ∈ calls, call.pc = .returned) :
    passedBy passes calls = calls.map StoreCall.loc := by
  rw [passedBy, List.filter_eq_self.mpr]
  intro call member
  rw [returned call member]
  exact atEnd

/-- When calls for one device do not overlap, the stores agree on every device
of the run whenever no call is in progress. -/
theorem stores_agree
    {start final : StoreState} {labels : List StoreLabel}
    (noCalls : start.calls = [])
    (enabled : start.server.props.dbsync ≠ 0)
    (execution : run step start labels = some final)
    (separate : Along step Separate start labels)
    (returned : ∀ call ∈ final.calls, call.pc = .returned)
    {devId : DeviceId}
    (updated : ∃ call ∈ final.calls, call.loc.devId = devId) :
    final.Agree devId := by
  have initially : Explained start start := by
    constructor <;> simp [noCalls, InOrder, passedBy, lastFor]
  have explained : Explained start final :=
    invariant_of_along
      (fun state label next holds condition stepped =>
        explained_of_moved enabled holds condition (moved_of_step stepped))
      initially separate execution
  let records := final.calls.map StoreCall.loc
  obtain ⟨call, member, device⟩ := updated
  obtain ⟨loc, isLast⟩ : ∃ loc, lastFor devId records = some loc := by
    apply Option.isSome_iff_exists.mp
    rw [lastFor, Journal.last_isSome_iff, List.map_map]
    exact
      List.mem_map.mpr ⟨call.loc, List.mem_map_of_mem member, device⟩
  refine ⟨loc, ?_, ?_, ?_⟩
  · rw [explained.pool, passedBy_of_returned rfl returned]
    exact congrArg (Option.or · _) isLast
  · rw [explained.queue, passedBy_of_returned rfl returned]
    exact congrArg (Option.or · _) isLast
  · intro id oneCell
    have sameAnswer :
        Journal.last (id, devId)
            (records.map start.server.map.props.placement) =
          lastFor devId records := by
      rw [lastFor, ← Journal.last_map_key Prod.snd (id, devId), List.map_map]
      · rfl
      · intro entry entryMember sameDevice
        obtain ⟨record, recordMember, rfl⟩ := List.mem_map.mp entryMember
        obtain ⟨other, otherMember, rfl⟩ := List.mem_map.mp recordMember
        have otherCell := oneCell other otherMember sameDevice
        rw [GlobalMap.makeCellId, explained.grid] at otherCell
        exact Prod.ext otherCell sameDevice
    rw [explained.map, passedBy_of_returned rfl returned]
    exact congrArg (Option.or · _) (sameAnswer.trans isLast)

/-- A device that reports twice, while a second device is served and the
queue is flushed in between. -/
theorem stores_agree_on_second_report :
    (outcome step { server := defaultServer }
      [.call (sampleLocation 2000 10 70), .step 0,
        .call (sampleLocation 2001 10 70), .step 1, .step 0, .step 0,
        .flush true, .call (sampleLocation 2000 (101 / 10) 70), .step 2,
        .step 1, .step 2, .step 2, .step 1]
      (by decide +kernel)).Agree 2000 := by
  apply stores_agree rfl _ (run_eq_outcome _ _ _)
  · decide +kernel
  · decide +kernel
  · exact
      ⟨⟨sampleLocation 2000 10 70, .returned⟩, by decide +kernel, rfl⟩
  · decide +kernel

/-- Two overlapping calls for one device that pass the pool in one order and
the synchroniser in the other: the pool keeps the second record, the snapshot
will get the first. -/
theorem overlapping_calls_disagree :
    ∃ (start final : StoreState) (labels : List StoreLabel)
        (devId : DeviceId),
      start.calls = [] ∧ start.server.props.dbsync ≠ 0 ∧
        run step start labels = some final ∧
        (∀ call ∈ final.calls, call.pc = .returned) ∧
        (∃ call ∈ final.calls, call.loc.devId = devId) ∧
        final.server.pool.whereis devId ≠
          lastFor devId final.enqueued := by
  refine
    ⟨{ server := defaultServer },
      outcome step { server := defaultServer }
        [.call (sampleLocation 2000 10 70),
          .call (sampleLocation 2000 (101 / 10) 70), .step 0, .step 1,
          .step 0, .step 1, .step 1, .step 0] (by decide +kernel),
      _, 2000, rfl, by decide +kernel, run_eq_outcome _ _ _, ?_, ?_, ?_⟩
  · decide +kernel
  · exact
      ⟨⟨sampleLocation 2000 10 70, .returned⟩, by decide +kernel, rfl⟩
  · decide +kernel

end StoreState

end LocationServer
