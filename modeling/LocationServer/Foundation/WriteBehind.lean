import LocationServer.Foundation.Journal
import Mathlib.Logic.Function.Basic

/-!
# A store that saves behind its writes

Reads are answered from memory.  A durable write waits in a queue until it is
saved; an end loses the memory and what is still waiting, and a restart reads
back what was saved, changed as saving and reading back change it.
-/

namespace WriteBehind

universe u v

variable {Key : Type u} {Value : Type v}

structure Store (Key : Type u) (Value : Type v) where
  live : Key → Option Value := fun _ => none
  saved : Key → Option Value := fun _ => none
  waiting : List (Key × Value) := []

inductive Operation (Key : Type u) (Value : Type v) where
  | put (key : Key) (value : Value) (durable : Bool)
  /-- The oldest waiting write is saved. -/
  | save
  /-- The oldest waiting writes are given up. -/
  | skip (count : Nat)
  | stop
  | restart

/-- The write of an operation. -/
def Operation.put? : Operation Key Value → Option (Key × Value)
  | .put key value _ => some (key, value)
  | _ => none

/-- The writes of a list of operations, oldest first. -/
def puts (operations : List (Operation Key Value)) : List (Key × Value) :=
  operations.filterMap Operation.put?

theorem puts_append (older younger : List (Operation Key Value)) :
    puts (older ++ younger) = puts older ++ puts younger :=
  List.filterMap_append

theorem puts_cons (operation : Operation Key Value)
    (rest : List (Operation Key Value)) :
    puts (operation :: rest) = operation.put?.toList ++ puts rest := by
  rw [puts, List.filterMap_cons]
  cases operation.put? <;> rfl

/-- The operation ends the memory. -/
def Operation.Ends : Operation Key Value → Prop
  | .stop => True
  | .restart => True
  | _ => False

variable [DecidableEq Key] (reload : Value → Value)

def Store.apply (store : Store Key Value) :
    Operation Key Value → Store Key Value
  | .put key value durable =>
      { store with
        live := Function.update store.live key (some value)
        waiting :=
          if durable then store.waiting ++ [(key, value)]
          else store.waiting }
  | .save =>
      match store.waiting with
      | [] => store
      | (key, value) :: rest =>
          { store with
            saved := Function.update store.saved key (some value)
            waiting := rest }
  | .skip count => { store with waiting := store.waiting.drop count }
  | .stop => { store with live := fun _ => none, waiting := [] }
  | .restart =>
      { store with
        live := fun key => (store.saved key).map reload
        waiting := [] }

def Store.applyAll (store : Store Key Value)
    (operations : List (Operation Key Value)) : Store Key Value :=
  operations.foldl (Store.apply reload) store

/-- Nothing is lost: every write is durable, nothing is given up, and no end
comes while a write is waiting. -/
def Store.Keeps (store : Store Key Value) : Operation Key Value → Prop
  | .put _ _ durable => durable = true
  | .save => True
  | .skip count => count = 0
  | .stop => store.waiting = []
  | .restart => store.waiting = []

/-- Each of the operations keeps the writes, one after the other. -/
def Store.KeepsAll (store : Store Key Value) :
    List (Operation Key Value) → Prop
  | [] => True
  | operation :: rest =>
      store.Keeps operation ∧ (store.apply reload operation).KeepsAll rest

variable {reload} {store : Store Key Value}

theorem applyAll_append (older younger : List (Operation Key Value)) :
    store.applyAll reload (older ++ younger) =
      (store.applyAll reload older).applyAll reload younger :=
  List.foldl_append

theorem keepsAll_append {older younger : List (Operation Key Value)} :
    store.KeepsAll reload (older ++ younger) ↔
      store.KeepsAll reload older ∧
        (store.applyAll reload older).KeepsAll reload younger := by
  induction older generalizing store with
  | nil => simp [Store.KeepsAll, Store.applyAll]
  | cons operation rest inductionHypothesis =>
      rw [List.cons_append, Store.KeepsAll, Store.KeepsAll,
        inductionHypothesis, and_assoc]
      rfl

theorem update_eq_or (read : Key → Option Value) (written key : Key)
    (value : Value) :
    Function.update read written (some value) key =
      (Journal.last key [(written, value)]).or (read key) := by
  by_cases here : key = written
  · rw [here, Function.update_self]
    simp [Journal.last]
  · rw [Function.update_of_ne here]
    simp [Journal.last, Ne.symm here]

/-- What was saved, overwritten by what is waiting. -/
def Store.kept (store : Store Key Value) (key : Key) : Option Value :=
  (Journal.last key store.waiting).or (store.saved key)

theorem live_apply {operation : Operation Key Value}
    (noEnd : ¬operation.Ends) (key : Key) :
    (store.apply reload operation).live key =
      (Journal.last key operation.put?.toList).or (store.live key) := by
  cases operation with
  | put written value durable => exact update_eq_or store.live written key value
  | save =>
      rw [Store.apply]
      split <;> rfl
  | skip count => rfl
  | stop => exact absurd trivial noEnd
  | restart => exact absurd trivial noEnd

/-- An operation that loses nothing keeps the writes, in their order. -/
theorem kept_apply {operation : Operation Key Value}
    (keeps : store.Keeps operation) (key : Key) :
    (store.apply reload operation).kept key =
      (Journal.last key operation.put?.toList).or (store.kept key) := by
  cases operation with
  | put written value durable =>
      rw [Store.Keeps] at keeps
      rw [Store.kept, Store.kept, ← Option.or_assoc]
      simp only [Store.apply, keeps, if_true, Journal.last_append]
      rfl
  | save =>
      rw [Store.kept, Store.kept, Store.apply]
      cases waiting : store.waiting with
      | nil =>
          rw [waiting]
          rfl
      | cons entry rest =>
          obtain ⟨written, value⟩ := entry
          change (Journal.last key rest).or
              (Function.update store.saved written (some value) key) =
            (Journal.last key ([(written, value)] ++ rest)).or _
          rw [update_eq_or, Journal.last_append, Option.or_assoc]
  | skip count =>
      rw [Store.Keeps] at keeps
      rw [keeps]
      rfl
  | stop =>
      rw [Store.Keeps] at keeps
      rw [Store.kept, Store.kept, keeps]
      rfl
  | restart =>
      rw [Store.Keeps] at keeps
      rw [Store.kept, Store.kept, keeps]
      rfl

/-- Between two ends the memory answers with the last write. -/
theorem live_applyAll {operations : List (Operation Key Value)}
    (noEnd : ∀ operation ∈ operations, ¬operation.Ends) (key : Key) :
    (store.applyAll reload operations).live key =
      (Journal.last key (puts operations)).or (store.live key) := by
  induction operations generalizing store with
  | nil => rfl
  | cons operation rest inductionHypothesis =>
      rw [List.forall_mem_cons] at noEnd
      rw [Store.applyAll, List.foldl_cons, ← Store.applyAll,
        inductionHypothesis noEnd.2, live_apply noEnd.1, puts_cons,
        Journal.last_append, Option.or_assoc]

theorem kept_applyAll {operations : List (Operation Key Value)}
    (keeps : store.KeepsAll reload operations) (key : Key) :
    (store.applyAll reload operations).kept key =
      (Journal.last key (puts operations)).or (store.kept key) := by
  induction operations generalizing store with
  | nil => rfl
  | cons operation rest inductionHypothesis =>
      rw [Store.applyAll, List.foldl_cons, ← Store.applyAll,
        inductionHypothesis keeps.2, kept_apply keeps.1, puts_cons,
        Journal.last_append, Option.or_assoc]

/-- When nothing is lost, a restart reads back the last write of every key, and
later writes come before it. -/
theorem live_of_restarted
    {older younger : List (Operation Key Value)}
    (keeps :
      Store.KeepsAll reload {} (older ++ .restart :: younger))
    (noEnd : ∀ operation ∈ younger, ¬operation.Ends) (key : Key) :
    (Store.applyAll reload {} (older ++ .restart :: younger)).live key =
      (Journal.last key (puts younger)).or
        ((Journal.last key (puts older)).map reload) := by
  obtain ⟨keepsOlder, nothingWaits, -⟩ := keepsAll_append.mp keeps
  have saved := kept_applyAll keepsOlder key
  rw [Store.kept, nothingWaits] at saved
  rw [applyAll_append]
  change (Store.applyAll reload (Store.apply reload _ .restart)
    younger).live key = _
  rw [live_applyAll noEnd]
  change (Journal.last key (puts younger)).or
      (((Store.applyAll reload {} older).saved key).map reload) = _
  congr 2
  simpa [Store.kept] using saved

end WriteBehind
