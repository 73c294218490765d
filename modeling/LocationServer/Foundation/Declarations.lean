import Mathlib.Data.List.Nodup
import Mathlib.Logic.Relation

/-!
# Declarations that refer to earlier ones

A list of declarations, the latest first, over a base that is given.  Each
declaration has a name that nothing before it has and refers to what is
declared before it only.  Names are then unique and no chain of references
leads back to where it began.
-/

namespace Declarations

universe u v

variable {Decl : Type u} {Name : Type v}
variable (name : Decl → Name) (references : Decl → List Decl)

/-- The declarations come in order over a base, the latest first. -/
def InOrder (base : List Decl) : List Decl → Prop
  | [] => True
  | decl :: earlier =>
      (name decl ∉ (earlier ++ base).map name ∧
          ∀ reference ∈ references decl, reference ∈ earlier ++ base) ∧
        InOrder base earlier

/-- A name refers to another one when a declaration of the first does. -/
def Refers (decls : List Decl) (source target : Name) : Prop :=
  ∃ decl ∈ decls,
    name decl = source ∧ ∃ reference ∈ references decl, name reference = target

section Rules

variable {name references} {base : List Decl}

/-- Declarations over a base that is itself in order. -/
theorem InOrder.append {later earlier : List Decl}
    (laterInOrder : InOrder name references (earlier ++ base) later)
    (earlierInOrder : InOrder name references base earlier) :
    InOrder name references base (later ++ earlier) := by
  induction later with
  | nil =>
      exact earlierInOrder
  | cons decl later inductionHypothesis =>
      obtain ⟨⟨fresh, declared⟩, rest⟩ := laterInOrder
      rw [← List.append_assoc] at fresh declared
      exact ⟨⟨fresh, declared⟩, inductionHypothesis rest⟩

theorem InOrder.suffix {later earlier : List Decl}
    (inOrder : InOrder name references base (later ++ earlier)) :
    InOrder name references base earlier := by
  induction later with
  | nil =>
      exact inOrder
  | cons decl later inductionHypothesis =>
      exact inductionHypothesis inOrder.2

/-- What a declaration refers to stands before it. -/
theorem InOrder.declared {later earlier : List Decl} {decl : Decl}
    (inOrder : InOrder name references base (later ++ decl :: earlier)) :
    ∀ reference ∈ references decl, reference ∈ earlier ++ base :=
  inOrder.suffix.1.2

theorem InOrder.nodup {decls : List Decl}
    (inOrder : InOrder name references base decls) :
    (decls.map name).Nodup := by
  induction decls with
  | nil =>
      exact List.nodup_nil
  | cons decl earlier inductionHypothesis =>
      obtain ⟨⟨fresh, -⟩, rest⟩ := inOrder
      rw [List.map_cons, List.nodup_cons]
      refine ⟨?_, inductionHypothesis rest⟩
      intro repeated
      apply fresh
      rw [List.map_append]
      exact List.mem_append_left _ repeated

/-- No declaration takes a name of the base. -/
theorem InOrder.not_mem_base {decls : List Decl}
    (inOrder : InOrder name references base decls) {decl : Decl}
    (member : decl ∈ decls) : name decl ∉ base.map name := by
  induction decls with
  | nil =>
      cases member
  | cons other earlier inductionHypothesis =>
      obtain ⟨⟨fresh, -⟩, rest⟩ := inOrder
      cases member with
      | head =>
          intro inBase
          apply fresh
          rw [List.map_append]
          exact List.mem_append_right _ inBase
      | tail _ isEarlier => exact inductionHypothesis rest isEarlier

/-- No reference leads to the name that was declared last. -/
theorem InOrder.target_ne {decl : Decl} {earlier : List Decl}
    (inOrder : InOrder name references base (decl :: earlier))
    {source target : Name}
    (refers : Refers name references (decl :: earlier) source target) :
    target ≠ name decl := by
  obtain ⟨⟨fresh, declared⟩, rest⟩ := inOrder
  obtain ⟨other, member, -, reference, isReference, rfl⟩ := refers
  intro isLast
  apply fresh
  rw [← isLast]
  apply List.mem_map_of_mem
  cases member with
  | head => exact declared reference isReference
  | tail _ isEarlier =>
      obtain ⟨before, after, split⟩ := List.append_of_mem isEarlier
      rw [split] at rest ⊢
      have standsBefore := rest.declared reference isReference
      rw [List.append_assoc]
      apply List.mem_append_right
      exact List.mem_cons_of_mem other standsBefore

theorem Refers.earlier {decl : Decl} {earlier : List Decl}
    {source target : Name}
    (refers : Refers name references (decl :: earlier) source target)
    (notLast : source ≠ name decl) :
    Refers name references earlier source target := by
  obtain ⟨other, member, isSource, isTarget⟩ := refers
  cases member with
  | head => exact absurd isSource.symm notLast
  | tail _ isEarlier => exact ⟨other, isEarlier, isSource, isTarget⟩

/-- References form no cycle. -/
theorem InOrder.acyclic {decls : List Decl}
    (inOrder : InOrder name references base decls) (start : Name) :
    ¬ Relation.TransGen (Refers name references decls) start start := by
  induction decls with
  | nil =>
      intro cycle
      obtain ⟨_, ⟨decl, member, -⟩, -⟩ :=
        Relation.TransGen.head'_iff.mp cycle
      cases member
  | cons decl earlier inductionHypothesis =>
      have notLast :
          ∀ {source target},
            Relation.TransGen
                (Refers name references (decl :: earlier)) source target →
              target ≠ name decl := by
        intro source target chain
        obtain ⟨_, -, refers⟩ := Relation.TransGen.tail'_iff.mp chain
        exact inOrder.target_ne refers
      -- A chain that does not start at the last declaration never meets it.
      have chainsEarlier :
          ∀ {target},
            Relation.TransGen
                (Refers name references (decl :: earlier)) start target →
              start ≠ name decl →
                Relation.TransGen
                  (Refers name references earlier) start target := by
        intro target chain started
        induction chain with
        | single refers =>
            exact .single (refers.earlier started)
        | tail chain refers chainHypothesis =>
            exact
              .tail chainHypothesis (refers.earlier (notLast chain))
      intro cycle
      exact
        inductionHypothesis inOrder.2 (chainsEarlier cycle (notLast cycle))

end Rules

end Declarations
