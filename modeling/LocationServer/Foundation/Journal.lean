import Mathlib.Data.List.Induction
import Mathlib.Data.List.Nodup

/-!
# Journals of keyed writes

A journal is the list of writes a keyed store has received, oldest first.
`last key` is the value of the youngest write filed under `key`; a store that
answers reads by overwriting returns exactly that (`read_foldl`).  `upsert` is
the list form of such a store: replace the first item with the same key, or
append.
-/

namespace Journal

universe u v w

variable {Key : Type u} {Value : Type v} [DecidableEq Key]

/-- The value of the last entry filed under `key`. -/
def last (key : Key) : List (Key × Value) → Option Value
  | [] => none
  | entry :: rest =>
      (last key rest).or (if entry.1 = key then some entry.2 else none)

@[simp]
theorem last_nil (key : Key) :
    last key ([] : List (Key × Value)) = none :=
  rfl

theorem last_append (key : Key) (older younger : List (Key × Value)) :
    last key (older ++ younger) =
      (last key younger).or (last key older) := by
  induction older with
  | nil =>
      simp
  | cons entry rest inductionHypothesis =>
      simp only [List.cons_append, last, inductionHypothesis,
        Option.or_assoc]

@[simp]
theorem last_concat (key : Key) (entries : List (Key × Value))
    (entry : Key × Value) :
    last key (entries ++ [entry]) =
      if entry.1 = key then some entry.2 else last key entries := by
  rw [last_append]
  by_cases sameKey : entry.1 = key <;> simp [last, sameKey]

theorem last_eq_none_iff {key : Key} {entries : List (Key × Value)} :
    last key entries = none ↔ ∀ entry ∈ entries, entry.1 ≠ key := by
  induction entries with
  | nil =>
      simp
  | cons entry rest inductionHypothesis =>
      simp only [last, Option.or_eq_none_iff, inductionHypothesis,
        List.forall_mem_cons, ite_eq_right_iff, reduceCtorEq, imp_false]
      exact and_comm

/-- `last` names an entry together with the fact that nothing was filed under
its key afterwards. -/
theorem last_eq_some_iff
    {key : Key} {value : Value} {entries : List (Key × Value)} :
    last key entries = some value ↔
      ∃ older younger,
        entries = older ++ (key, value) :: younger ∧
          ∀ entry ∈ younger, entry.1 ≠ key := by
  constructor
  · intro found
    induction entries with
    | nil =>
        cases found
    | cons entry rest inductionHypothesis =>
        cases later : last key rest with
        | some other =>
            have sameValue : other = value := by
              simpa [last, later] using found
            subst sameValue
            obtain ⟨older, younger, split, fresh⟩ :=
              inductionHypothesis later
            exact ⟨entry :: older, younger, by simp [split], fresh⟩
        | none =>
            have here :
                entry.1 = key ∧ entry.2 = value := by
              simpa [last, later] using found
            refine ⟨[], rest, ?_, last_eq_none_iff.mp later⟩
            rw [← here.1, ← here.2]
            rfl
  · intro split
    obtain ⟨older, younger, rfl, fresh⟩ := split
    rw [List.append_cons, last_append, last_eq_none_iff.mpr fresh,
      last_concat]
    simp

/-- An entry after which its key does not occur answers for the key, wherever
it stands. -/
theorem last_middle (key : Key) (older younger : List (Key × Value))
    (entry : Key × Value)
    (fresh : ∀ later ∈ younger, later.1 ≠ entry.1) :
    last key (older ++ entry :: younger) =
      if entry.1 = key then some entry.2
      else last key (older ++ younger) := by
  rw [List.append_cons, last_append, last_concat, last_append]
  by_cases sameKey : entry.1 = key
  · rw [if_pos sameKey, if_pos sameKey, ← sameKey,
      last_eq_none_iff.mpr fresh, Option.none_or]
  · rw [if_neg sameKey, if_neg sameKey]

theorem mem_of_last_eq_some
    {key : Key} {value : Value} {entries : List (Key × Value)}
    (found : last key entries = some value) :
    (key, value) ∈ entries := by
  obtain ⟨older, younger, split, _⟩ := last_eq_some_iff.mp found
  rw [split]
  exact List.mem_append_right older List.mem_cons_self

theorem last_isSome_iff {key : Key} {entries : List (Key × Value)} :
    (last key entries).isSome ↔ key ∈ entries.map Prod.fst := by
  rw [Option.isSome_iff_ne_none, ne_eq, last_eq_none_iff]
  push Not
  simp only [List.mem_map]

/-- Filing the same entries under coarser keys changes no answer for a key
that is the only one among them with its coarse key. -/
theorem last_map_key
    {Coarse : Type w} [DecidableEq Coarse]
    (coarsen : Key → Coarse) (key : Key) (entries : List (Key × Value))
    (alone :
      ∀ entry ∈ entries, coarsen entry.1 = coarsen key → entry.1 = key) :
    last (coarsen key)
        (entries.map fun entry => (coarsen entry.1, entry.2)) =
      last key entries := by
  induction entries with
  | nil =>
      rfl
  | cons entry rest inductionHypothesis =>
      rw [List.forall_mem_cons] at alone
      have sameTest :
          coarsen entry.1 = coarsen key ↔ entry.1 = key :=
        ⟨alone.1, fun sameKey => by rw [sameKey]⟩
      rw [List.map_cons, last, last, inductionHypothesis alone.2]
      simp only [sameTest]

/-- Changing the filed values changes the answers alike. -/
theorem last_map_value
    {Other : Type*} (change : Value → Other) (key : Key)
    (entries : List (Key × Value)) :
    last key (entries.map fun entry => (entry.1, change entry.2)) =
      (last key entries).map change := by
  induction entries with
  | nil =>
      rfl
  | cons entry rest inductionHypothesis =>
      rw [List.map_cons, last, last, inductionHypothesis]
      by_cases sameKey : entry.1 = key <;>
        cases last key rest <;> simp [sameKey]

/-! ## Stores that overwrite -/

section Stores

variable {Store : Type w} {Write : Type*}

/-- A store whose reads see exactly the last write filed under the key they
ask for returns, after any list of writes, what the journal of these writes
says. -/
theorem read_foldl
    {read : Store → Key → Option Value} {write : Store → Write → Store}
    {entryOf : Write → Key × Value} {good : Store → Prop}
    (writeKeeps : ∀ store item, good store → good (write store item))
    (readWrite :
      ∀ store item key,
        good store →
          read (write store item) key =
            if (entryOf item).1 = key then some (entryOf item).2
            else read store key)
    {store : Store} (initially : good store)
    (items : List Write) (key : Key) :
    read (items.foldl write store) key =
      (last key (items.map entryOf)).or (read store key) := by
  induction items generalizing store with
  | nil =>
      simp
  | cons item rest inductionHypothesis =>
      rw [List.foldl_cons, List.map_cons,
        inductionHypothesis (writeKeeps store item initially),
        readWrite store item key initially]
      by_cases sameKey : (entryOf item).1 = key <;>
        simp [last, sameKey]

end Stores

/-! ## Keyed lists -/

section Upsert

variable (keyOf : Value → Key)

/-- Replace the first item with the key of `item`, or append `item`. -/
def upsert (item : Value) : List Value → List Value
  | [] => [item]
  | head :: rest =>
      if keyOf head = keyOf item then item :: rest
      else head :: upsert item rest

/-- The keyed list left by a sequence of upserts into the empty list. -/
def upsertAll (items : List Value) : List Value :=
  items.foldl (fun table item => upsert keyOf item table) []

@[simp]
theorem upsertAll_concat (items : List Value) (item : Value) :
    upsertAll keyOf (items ++ [item]) =
      upsert keyOf item (upsertAll keyOf items) := by
  simp [upsertAll]

variable {keyOf}

theorem map_key_upsert (item : Value) (table : List Value) :
    (upsert keyOf item table).map keyOf =
      if keyOf item ∈ table.map keyOf then table.map keyOf
      else table.map keyOf ++ [keyOf item] := by
  induction table with
  | nil =>
      simp [upsert]
  | cons head rest inductionHypothesis =>
      by_cases sameKey : keyOf head = keyOf item
      · simp [upsert, sameKey]
      · by_cases later : keyOf item ∈ rest.map keyOf
        · simp [upsert, sameKey, inductionHypothesis, later]
        · simp [upsert, sameKey, Ne.symm sameKey, inductionHypothesis,
            later]

theorem find?_upsert (item : Value) (table : List Value) (key : Key) :
    (upsert keyOf item table).find? (fun row => keyOf row = key) =
      if keyOf item = key then some item
      else table.find? fun row => keyOf row = key := by
  induction table with
  | nil =>
      by_cases sameKey : keyOf item = key <;> simp [upsert, sameKey]
  | cons head rest inductionHypothesis =>
      by_cases replaced : keyOf head = keyOf item
      · by_cases sameKey : keyOf item = key
        · simp [upsert, replaced, sameKey]
        · simp [upsert, replaced, sameKey]
      · rw [upsert, if_neg replaced]
        by_cases headKey : keyOf head = key
        · have itemKey : keyOf item ≠ key := fun equal =>
            replaced (headKey.trans equal.symm)
          simp [headKey, itemKey]
        · simp [headKey, inductionHypothesis]

theorem upsert_keys_nodup (item : Value) {table : List Value}
    (nodup : (table.map keyOf).Nodup) :
    ((upsert keyOf item table).map keyOf).Nodup := by
  rw [map_key_upsert]
  split
  · exact nodup
  · rename_i absent
    exact
      List.nodup_append.mpr
        ⟨nodup, List.nodup_singleton _, by
          intro key member other otherMember
          rw [List.mem_singleton.mp otherMember]
          exact fun equal => absent (equal ▸ member)⟩

theorem upsertAll_keys_nodup (items : List Value) :
    ((upsertAll keyOf items).map keyOf).Nodup := by
  induction items using List.reverseRecOn with
  | nil =>
      simp [upsertAll]
  | append_singleton earlier item inductionHypothesis =>
      rw [upsertAll_concat]
      exact upsert_keys_nodup item inductionHypothesis

/-- An upsert table answers a key with the last item that carries it. -/
theorem find?_upsertAll (items : List Value) (key : Key) :
    (upsertAll keyOf items).find? (fun row => keyOf row = key) =
      last key (items.map fun item => (keyOf item, item)) := by
  let read (table : List Value) (key : Key) : Option Value :=
    table.find? fun row => keyOf row = key
  have reads :=
    @read_foldl Key Value _ (List Value) Value read
      (fun table item => upsert keyOf item table)
      (fun item => (keyOf item, item)) (fun _ => True)
      (fun _ _ _ => trivial)
      (fun table item key _ => find?_upsert item table key)
      [] trivial items key
  simpa [read, upsertAll] using reads

theorem find?_eq_some_of_mem
    {table : List Value} (distinct : (table.map keyOf).Nodup)
    {row : Value} (member : row ∈ table) :
    (table.find? fun other => keyOf other = keyOf row) = some row := by
  induction table with
  | nil =>
      cases member
  | cons head rest inductionHypothesis =>
      rw [List.map_cons, List.nodup_cons] at distinct
      rcases List.mem_cons.mp member with rfl | later
      · simp
      · have headOther : keyOf head ≠ keyOf row := fun equal =>
          distinct.1 (equal ▸ List.mem_map_of_mem later)
        simp [headOther, inductionHypothesis distinct.2 later]

theorem mem_upsert_iff (item : Value) {table : List Value}
    (distinct : (table.map keyOf).Nodup) {row : Value} :
    row ∈ upsert keyOf item table ↔
      row = item ∨ (row ∈ table ∧ keyOf row ≠ keyOf item) := by
  have memIff :
      ∀ {rows : List Value}, (rows.map keyOf).Nodup →
        (row ∈ rows ↔
          rows.find? (fun other => keyOf other = keyOf row) = some row) :=
    fun nodup =>
      ⟨find?_eq_some_of_mem nodup, List.mem_of_find?_eq_some⟩
  rw [memIff (upsert_keys_nodup item distinct), find?_upsert,
    memIff distinct]
  by_cases sameKey : keyOf item = keyOf row
  · simp [sameKey, eq_comm]
  · have other : row ≠ item := fun equal => sameKey (by rw [equal])
    simp [sameKey, Ne.symm sameKey, other]

/-- Each row of an upsert table is the last item with its key. -/
theorem last_of_mem_upsertAll
    {items : List Value} {row : Value}
    (member : row ∈ upsertAll keyOf items) :
    last (keyOf row) (items.map fun item => (keyOf item, item)) =
      some row := by
  rw [← find?_upsertAll]
  exact find?_eq_some_of_mem (upsertAll_keys_nodup items) member

/-- In a table without duplicate keys the last row of a key is the first. -/
theorem last_eq_find?_of_nodup
    {table : List Value} (distinct : (table.map keyOf).Nodup) (key : Key) :
    last key (table.map fun row => (keyOf row, row)) =
      table.find? fun row => keyOf row = key := by
  induction table with
  | nil =>
      rfl
  | cons head rest inductionHypothesis =>
      rw [List.map_cons, List.nodup_cons] at distinct
      rw [List.map_cons, last, inductionHypothesis distinct.2]
      by_cases headKey : keyOf head = key
      · have absent : rest.find? (fun row => keyOf row = key) = none := by
          rw [List.find?_eq_none]
          intro row member sameKey
          rw [decide_eq_true_iff, ← headKey] at sameKey
          exact distinct.1 (sameKey ▸ List.mem_map_of_mem member)
        simp [headKey, absent]
      · simp [headKey]

/-- An upsert table files the same answers as the items it was made from. -/
theorem last_upsertAll (items : List Value) (key : Key) :
    last key ((upsertAll keyOf items).map fun row => (keyOf row, row)) =
      last key (items.map fun item => (keyOf item, item)) := by
  rw [last_eq_find?_of_nodup (upsertAll_keys_nodup items),
    find?_upsertAll]

end Upsert

end Journal
