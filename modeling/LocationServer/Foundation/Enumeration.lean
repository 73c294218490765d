import Mathlib.Data.List.Nodup
import Mathlib.Data.List.Perm.Basic

/-!
# Enumerations that agree where it matters

Two duplicate-free enumerations produce the same multiset of results as soon
as they visit the same contributing items: items that contribute nothing may
be skipped or added.  A list enumerates the entries of a partial map when it
has the value of each of them once; values may be equal, so the keys tell them
apart.
-/

namespace Enumeration

universe u v w

variable {Item : Type u} {Result : Type v}

theorem flatMap_filter_contributing
    (contribution : Item → List Result) (items : List Item) :
    (items.filter fun item => !(contribution item).isEmpty).flatMap
        contribution =
      items.flatMap contribution := by
  induction items with
  | nil =>
      rfl
  | cons head rest inductionHypothesis =>
      rw [List.filter_cons]
      by_cases empty : (contribution head).isEmpty
      · have nothing : contribution head = [] :=
          List.isEmpty_iff.mp empty
        simp [nothing, inductionHypothesis]
      · simp [empty, inductionHypothesis]

/-- Duplicate-free enumerations with the same contributing items yield
permuted results. -/
theorem flatMap_perm_of_support
    {contribution : Item → List Result} {left right : List Item}
    (leftNodup : left.Nodup) (rightNodup : right.Nodup)
    (support :
      ∀ item, contribution item ≠ [] → (item ∈ left ↔ item ∈ right)) :
    (left.flatMap contribution).Perm (right.flatMap contribution) := by
  rw [← flatMap_filter_contributing contribution left,
    ← flatMap_filter_contributing contribution right]
  apply List.Perm.flatMap_right
  rw [List.perm_ext_iff_of_nodup
    (leftNodup.filter _) (rightNodup.filter _)]
  intro item
  simp only [List.mem_filter, Bool.not_eq_true', List.isEmpty_eq_false_iff]
  constructor
  · intro inLeft
    obtain ⟨member, contributes⟩ := inLeft
    exact ⟨(support item contributes).mp member, contributes⟩
  · intro inRight
    obtain ⟨member, contributes⟩ := inRight
    exact ⟨(support item contributes).mpr member, contributes⟩

/-! ## Entries of a partial map -/

/-- The list has the value of each wanted key that has one, each key once, and
nothing else. -/
def Enumerates {Key : Type w} {Value : Type v}
    (read : Key → Option Value) (wanted : Key → Prop)
    (values : List Value) : Prop :=
  ∃ keys : List Key, keys.Nodup ∧
    (∀ key, key ∈ keys ↔ wanted key ∧ (read key).isSome = true) ∧
      values.map some = keys.map read

namespace Enumerates

variable {Key : Type w} {Value : Type v} {read : Key → Option Value}
  {wanted : Key → Prop} {values : List Value}

theorem congr {others : Key → Prop}
    (enumerates : Enumerates read wanted values)
    (same : ∀ key, wanted key ↔ others key) :
    Enumerates read others values := by
  obtain ⟨keys, nodup, members, reads⟩ := enumerates
  refine ⟨keys, nodup, ?_, reads⟩
  intro key
  rw [members, same]

theorem eq_nil (enumerates : Enumerates read wanted values)
    (nothing : ∀ key, ¬wanted key) : values = [] := by
  obtain ⟨keys, -, members, reads⟩ := enumerates
  have noKeys : keys = [] := by
    apply List.eq_nil_iff_forall_not_mem.mpr
    intro key member
    exact nothing key ((members key).mp member).1
  rw [noKeys] at reads
  exact List.map_eq_nil_iff.mp reads

/-- A duplicate-free list of keys, looked up one by one. -/
theorem filterMap {keys : List Key} (nodup : keys.Nodup) :
    Enumerates read (fun key => key ∈ keys) (keys.filterMap read) := by
  refine ⟨keys.filter fun key => (read key).isSome, nodup.filter _, ?_, ?_⟩
  · intro key
    exact List.mem_filter
  · clear nodup
    induction keys with
    | nil => rfl
    | cons key keys inductionHypothesis =>
        cases found : read key with
        | none => simpa [found] using inductionHypothesis
        | some value => simpa [found] using inductionHypothesis

/-- The values tell their keys, which are different. -/
theorem of_key {key : Value → Key} (nodup : (values.map key).Nodup)
    (reads :
      ∀ name value, read name = some value ↔
        value ∈ values ∧ key value = name) :
    Enumerates read (fun _ => True) values := by
  refine ⟨values.map key, nodup, ?_, ?_⟩
  · intro name
    rw [true_and, Option.isSome_iff_exists, List.mem_map]
    exact exists_congr fun value => (reads name value).symm
  · rw [List.map_map]
    apply List.map_congr_left
    intro value member
    exact ((reads (key value) value).mpr ⟨member, rfl⟩).symm

/-- The lists of different items, one after the other. -/
theorem flatMap {read : Item → Key → Option Value}
    {wanted : Item → Key → Prop} {contribution : Item → List Value}
    {items : List Item} (nodup : items.Nodup)
    (each :
      ∀ item ∈ items,
        Enumerates (read item) (wanted item) (contribution item)) :
    Enumerates (fun pair : Item × Key => read pair.1 pair.2)
      (fun pair => pair.1 ∈ items ∧ wanted pair.1 pair.2)
      (items.flatMap contribution) := by
  induction items with
  | nil =>
      refine ⟨[], List.nodup_nil, ?_, rfl⟩
      simp
  | cons item items inductionHypothesis =>
      obtain ⟨notMember, restNodup⟩ := List.nodup_cons.mp nodup
      obtain ⟨first, others⟩ := List.forall_mem_cons.mp each
      obtain ⟨keys, keysNodup, keysMembers, keysRead⟩ := first
      obtain ⟨pairs, pairsNodup, pairsMembers, pairsRead⟩ :=
        inductionHypothesis restNodup others
      have firstNodup : (keys.map (Prod.mk item)).Nodup :=
        keysNodup.map fun _ _ same => (Prod.mk.inj same).2
      refine ⟨keys.map (Prod.mk item) ++ pairs, ?_, ?_, ?_⟩
      · refine firstNodup.append pairsNodup ?_
        -- The pairs of the rest begin with items of the rest.
        intro pair inFirst inRest
        obtain ⟨key, -, rfl⟩ := List.mem_map.mp inFirst
        exact notMember ((pairsMembers _).mp inRest).1.1
      · rintro ⟨other, key⟩
        rw [List.mem_append, pairsMembers]
        dsimp only
        rw [List.mem_cons]
        by_cases same : other = item
        · subst same
          simp [notMember, keysMembers]
        · simp [same, Ne.symm same]
      · rw [List.flatMap_cons, List.map_append, List.map_append, keysRead,
          pairsRead, List.map_map]
        rfl

end Enumerates

end Enumeration
