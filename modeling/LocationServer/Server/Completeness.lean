import LocationServer.Server.Startup

/-!
# Starts on a part of the snapshot

`DBSyncer::open` drops the result of `prepare`.  A snapshot whose loading ends
early, at a document that does not decode or at a cursor that raises, leaves
the records before that point in the stores, and the start goes on.
-/

namespace LocationServer

/-! ## What the loop passes on -/

/-- `DBSyncer::open` with its calls of `LocServer::update` written down: its
result, and the records passed on in order. -/
def DBSyncer.recordedOpen (db : Mongo) (surroundings : Surroundings) :
    Bool × List LocationDetail :=
  DBSyncer.openDb (fun calls loc => calls ++ [loc]) [] db
    surroundings.connected surroundings.cursorFault

theorem DBSyncer.openDb_snd {Server : Type}
    (update : Server → LocationDetail → Server) (server : Server)
    (db : Mongo) (connected : Bool) (fault : CursorFault) :
    (DBSyncer.openDb update server db connected fault).2 =
      (if connected then loadedRecords fault db.table1 else []).foldl
        update server := by
  cases connected with
  | false => rfl
  | true => exact loadLoop_snd update server fault db.table1

theorem DBSyncer.recordedOpen_eq (db : Mongo)
    (surroundings : Surroundings) :
    DBSyncer.recordedOpen db surroundings =
      (surroundings.connected,
        if surroundings.connected then
          loadedRecords surroundings.cursorFault db.table1
        else []) := by
  apply Prod.ext
  · rw [recordedOpen, openDb]
    cases surroundings.connected <;> rfl
  · rw [recordedOpen, openDb_snd, List.foldl_append_eq_append,
      ← List.flatMap_def, List.flatMap_singleton', List.nil_append]

/-- Whatever the server, `open` makes the calls that were written down. -/
theorem DBSyncer.openDb_eq_recorded {Server : Type}
    (update : Server → LocationDetail → Server) (server : Server)
    (db : Mongo) (surroundings : Surroundings) :
    DBSyncer.openDb update server db surroundings.connected
        surroundings.cursorFault =
      ((DBSyncer.recordedOpen db surroundings).1,
        (DBSyncer.recordedOpen db surroundings).2.foldl update server) := by
  rw [recordedOpen_eq]
  apply Prod.ext
  · rw [openDb]
    cases surroundings.connected <;> rfl
  · exact openDb_snd update server db _ _

/-! ## Snapshots that load completely -/

/-- Every document decodes, and the cursor delivers them all. -/
def Loadable (fault : CursorFault) (docs : List BSONObj) : Prop :=
  (∀ obj ∈ docs, (decodeLocation obj).isSome = true) ∧
    ∀ count, fault = some count → docs.length ≤ count

theorem loadable_cons_iff (fault : CursorFault) (obj : BSONObj)
    (rest : List BSONObj) :
    Loadable fault (obj :: rest) ↔
      fault ≠ some 0 ∧ (decodeLocation obj).isSome = true ∧
        Loadable (fault.map (· - 1)) rest := by
  rw [Loadable, Loadable, List.forall_mem_cons]
  cases fault with
  | none => simp
  | some count =>
      cases count with
      | zero => simp
      | succ count => simp [and_assoc]

theorem loadedRecords_cons {fault : CursorFault} (alive : fault ≠ some 0)
    (obj : BSONObj) (rest : List BSONObj) :
    loadedRecords fault (obj :: rest) =
      match decodeLocation obj with
      | none => []
      | some loc => loc :: loadedRecords (fault.map (· - 1)) rest := by
  cases fault with
  | none =>
      cases decoded : decodeLocation obj <;> simp [loadedRecords, decoded]
  | some count =>
      cases count with
      | zero => exact absurd rfl alive
      | succ count =>
          cases decoded : decodeLocation obj <;>
            simp [loadedRecords, decoded]

/-- The records of all documents are passed on exactly when they can all be
loaded. -/
theorem loadedRecords_complete_iff (fault : CursorFault)
    (docs : List BSONObj) :
    docs.map decodeLocation = (loadedRecords fault docs).map some ↔
      Loadable fault docs := by
  induction docs generalizing fault with
  | nil =>
      have nothing : loadedRecords fault ([] : List BSONObj) = [] := by
        cases fault with
        | none => rfl
        | some count => cases count <;> rfl
      simp [nothing, Loadable]
  | cons obj rest inductionHypothesis =>
      rw [loadable_cons_iff, ← inductionHypothesis]
      by_cases dead : fault = some 0
      · simp [dead, loadedRecords]
      · rw [loadedRecords_cons dead]
        cases decoded : decodeLocation obj with
        | none => simp [decoded]
        | some loc => simp [decoded, dead]

/-! ## Complete starts -/

/-- The start is complete or refused: an `open` that returns `true` has passed
on the record of every document, and when it returns `false`, `init` refuses
the start. -/
structure CompleteOrRefused (cast : LexicalCast) (conf : PlainConfig)
    (db : Mongo) (surroundings : Surroundings) : Prop where
  complete :
    (DBSyncer.recordedOpen db surroundings).1 = true →
      db.table1.map decodeLocation =
        (DBSyncer.recordedOpen db surroundings).2.map some
  refused :
    (DBSyncer.recordedOpen db surroundings).1 = false →
      LocServer.init cast conf db surroundings = none

/-- Without a connection there is no start. -/
theorem init_of_not_connected {cast : LexicalCast} {conf : PlainConfig}
    {db : Mongo} {surroundings : Surroundings}
    (offline : surroundings.connected = false) :
    LocServer.init cast conf db surroundings = none := by
  rw [LocServer.init]
  cases LocServer.configure cast conf with
  | none => rfl
  | some configured => simp [accepted, DBSyncer.openDb, offline]

/-- A start is complete or refused exactly when there is no connection, or
every document decodes and the cursor raises at none of them. -/
theorem completeOrRefused_iff (cast : LexicalCast) (conf : PlainConfig)
    (db : Mongo) (surroundings : Surroundings) :
    (∀ {Server : Type} (update : Server → LocationDetail → Server)
        (server : Server),
      DBSyncer.openDb update server db surroundings.connected
          surroundings.cursorFault =
        ((DBSyncer.recordedOpen db surroundings).1,
          (DBSyncer.recordedOpen db surroundings).2.foldl update server)) ∧
      (CompleteOrRefused cast conf db surroundings ↔
        surroundings.connected = false ∨
          ((∀ obj ∈ db.table1, (decodeLocation obj).isSome = true) ∧
            ∀ count, surroundings.cursorFault = some count →
              db.table1.length ≤ count)) := by
  refine ⟨fun update server =>
    DBSyncer.openDb_eq_recorded update server db surroundings, ?_⟩
  have loadable :=
    loadedRecords_complete_iff surroundings.cursorFault db.table1
  have recorded := DBSyncer.recordedOpen_eq db surroundings
  cases online : surroundings.connected with
  | false =>
      have refusal := @init_of_not_connected cast conf db surroundings online
      rw [online] at recorded
      simp only [true_or, iff_true]
      refine ⟨?_, ?_⟩
      · intro opened
        rw [recorded] at opened
        cases opened
      · intro _
        exact refusal
  | true =>
      rw [online, if_pos rfl] at recorded
      simp only [Bool.true_eq_false, false_or]
      constructor
      · intro start
        have all := start.complete (by rw [recorded])
        rw [recorded] at all
        exact loadable.mp all
      · intro loads
        have all := loadable.mpr loads
        refine ⟨?_, ?_⟩
        · intro _
          rw [recorded]
          exact all
        · intro closed
          rw [recorded] at closed
          cases closed

/-- A snapshot of a document without fields and one of a device: the server
starts and knows no device. -/
theorem starts_on_part_of_the_snapshot :
    let db : Mongo :=
      { table1 :=
          [{ fields := [] }, encodeLocation (sampleLocation 2000 10 70)] }
    (DBSyncer.recordedOpen db {}).1 = true ∧
      (DBSyncer.recordedOpen db {}).2 = [] ∧
      (∃ server, LocServer.init decimalCast {} db {} = some server ∧
        server.pool.whereis 2000 = none) ∧
      ¬CompleteOrRefused decimalCast {} db {} := by
  intro db
  have opened : DBSyncer.recordedOpen db {} = (true, []) := by
    decide +kernel
  refine ⟨by rw [opened], by rw [opened], ?_, ?_⟩
  · cases started : LocServer.init decimalCast {} db {} with
    | none =>
        have starts :
            (LocServer.init decimalCast {} db {}).isSome = true := by
          decide +kernel
        rw [started] at starts
        cases starts
    | some server =>
        refine ⟨server, rfl, ?_⟩
        obtain ⟨props, -, -, pool⟩ := LocServer.init_eq_some started
        rw [pool]
        decide +kernel
  · intro start
    have all := start.complete (by rw [opened])
    rw [opened] at all
    cases all

end LocationServer
