import LocationServer.Foundation.ShiftReduce
import Mathlib.Algebra.Ring.Nat

/-!
# Validated tables

Finite conditions on the tables of a shift-reduce parser, which an evaluation
checks, and what they say about every run.  A stack is a path along the edges
of the automaton, so a reduction that fits every path into its state never
finds another stack (`broken` is no end).  A potential that every entry of the
tables lets fall bounds the rounds of the loop.  And what the actions make of
what they are given holds of what is accepted.
-/

namespace ShiftReduce

/-- A transition of the automaton. -/
structure Edge (Terminal Nonterminal : Type) where
  source : Nat
  symbol : GrammarSymbol Terminal Nonterminal
  target : Nat

/-- Weights of the states on the stack, with an extra one for the state on top,
and of the tokens to come. -/
structure Potential where
  perToken : Nat
  weight : Nat → Nat
  bonus : Nat → Nat

/-- What a reduction of some entries can spend at least. -/
def Potential.credit (potential : Potential) (state count : Nat) : Nat :=
  potential.bonus state +
    if count = 0 then 0 else potential.weight state + (count - 1)

/-! ## Weights -/

def stackWeight {Terminal Nonterminal Value : Type} (potential : Potential)
    (stack : List (Entry Terminal Nonterminal Value)) : Nat :=
  (stack.map fun entry => potential.weight entry.state).sum

def Config.potential {Terminal Nonterminal Token Value Env : Type}
    (potential : Potential)
    (config : Config Terminal Nonterminal Token Value Env) : Nat :=
  potential.perToken * config.input.length +
    (stackWeight potential config.stack +
      potential.bonus (topState config.stack))

section Weights

variable {Terminal Nonterminal Value : Type} {potential : Potential}

theorem stackWeight_cons (entry : Entry Terminal Nonterminal Value)
    (below : List (Entry Terminal Nonterminal Value)) :
    stackWeight potential (entry :: below) =
      potential.weight entry.state + stackWeight potential below := by
  rw [stackWeight, List.map_cons, List.sum_cons]
  rfl

theorem stackWeight_append
    (popped rest : List (Entry Terminal Nonterminal Value)) :
    stackWeight potential (popped ++ rest) =
      stackWeight potential popped + stackWeight potential rest := by
  rw [stackWeight, List.map_append, List.sum_append]
  rfl

theorem length_le_stackWeight
    {stack : List (Entry Terminal Nonterminal Value)}
    (weighed : ∀ entry ∈ stack, 0 < potential.weight entry.state) :
    stack.length ≤ stackWeight potential stack := by
  induction stack with
  | nil => exact Nat.le_refl _
  | cons entry below inductionHypothesis =>
      rw [List.forall_mem_cons] at weighed
      have rest := inductionHypothesis weighed.2
      rw [stackWeight_cons, List.length_cons]
      omega

theorem credit_le_stackWeight
    {popped rest : List (Entry Terminal Nonterminal Value)}
    (weighed : ∀ entry ∈ popped, 0 < potential.weight entry.state) :
    potential.credit (topState (popped ++ rest)) popped.length ≤
      potential.bonus (topState (popped ++ rest)) +
        stackWeight potential popped := by
  rw [Potential.credit]
  cases popped with
  | nil => exact Nat.le_refl _
  | cons entry below =>
      rw [List.forall_mem_cons] at weighed
      have each := length_le_stackWeight weighed.2
      rw [stackWeight_cons, List.length_cons, if_neg (Nat.succ_ne_zero _),
        List.cons_append, topState]
      omega

end Weights

/-! ## Meanings -/

section Meaning

variable {Terminal Nonterminal Token Value : Type}
variable (Means : GrammarSymbol Terminal Nonterminal → Value →
  List Token → Prop)

/-- Values and the tokens that they stand for, symbol by symbol. -/
inductive MeansAll :
    List (GrammarSymbol Terminal Nonterminal) → List Value → List Token →
      Prop where
  | nil : MeansAll [] [] []
  | cons {symbol : GrammarSymbol Terminal Nonterminal} {value : Value}
      {part rest : List Token}
      {symbols : List (GrammarSymbol Terminal Nonterminal)}
      {values : List Value} (first : Means symbol value part)
      (others : MeansAll symbols values rest) :
      MeansAll (symbol :: symbols) (value :: values) (part ++ rest)

@[simp]
theorem meansAll_nil_iff {values : List Value} {part : List Token} :
    MeansAll Means [] values part ↔ values = [] ∧ part = [] := by
  constructor
  · intro means
    cases means
    exact ⟨rfl, rfl⟩
  · rintro ⟨rfl, rfl⟩
    exact MeansAll.nil

@[simp]
theorem meansAll_cons_iff {symbol : GrammarSymbol Terminal Nonterminal}
    {symbols : List (GrammarSymbol Terminal Nonterminal)}
    {values : List Value} {part : List Token} :
    MeansAll Means (symbol :: symbols) values part ↔
      ∃ value others first rest,
        values = value :: others ∧ part = first ++ rest ∧
          Means symbol value first ∧ MeansAll Means symbols others rest := by
  constructor
  · intro means
    cases means with
    | cons first others => exact ⟨_, _, _, _, rfl, rfl, first, others⟩
  · rintro ⟨value, others, first, rest, rfl, rfl, means, meansAll⟩
    exact MeansAll.cons means meansAll

theorem MeansAll.concat {symbol : GrammarSymbol Terminal Nonterminal}
    {value : Value} {part rest : List Token}
    {symbols : List (GrammarSymbol Terminal Nonterminal)}
    {values : List Value} (others : MeansAll Means symbols values rest)
    (last : Means symbol value part) :
    MeansAll Means (symbols ++ [symbol]) (values ++ [value])
      (rest ++ part) := by
  induction others with
  | nil =>
      have only := MeansAll.cons last MeansAll.nil
      rw [List.append_nil] at only
      exact only
  | cons first _ inductionHypothesis =>
      rw [List.append_assoc]
      exact MeansAll.cons first inductionHypothesis

end Meaning

namespace Parser

variable {Terminal Nonterminal Token Value Env Fault : Type}
variable [DecidableEq Terminal] [DecidableEq Nonterminal]
variable (parser : Parser Terminal Nonterminal Token Value Env Fault)

/-! ## The conditions -/

/-- The state that an entry shifts its token to. -/
def shiftEdge (source : Nat) (entry : Option Terminal × Action) :
    Option (Edge Terminal Nonterminal) :=
  match entry with
  | (some terminal, .shift target) =>
      some { source, symbol := .terminal terminal, target }
  | _ => none

def edges : List (Edge Terminal Nonterminal) :=
  parser.rows.zipIdx.flatMap fun place =>
    place.1.actions.filterMap (shiftEdge place.2) ++
      place.1.gotos.map fun entry =>
        { source := place.2
          symbol := .nonterminal entry.1
          target := entry.2 }

/-- Every path into the state ends with the symbols, the last one first, and
comes from a good state. -/
def popsTo (good : Nat → Bool) :
    List (GrammarSymbol Terminal Nonterminal) → Nat → Bool
  | [], state => good state
  | symbol :: below, state =>
      state != 0 &&
        parser.edges.all fun edge =>
          edge.target != state ||
            (decide (edge.symbol = symbol) && popsTo good below edge.source)

/-- A reduction goes to a state that the potential affords. -/
def affords (potential : Potential) (credit : Nat) (left : Nonterminal)
    (state : Nat) : Bool :=
  (parser.goto state left).any fun target =>
    potential.weight target + potential.bonus target < credit

def validEntry (potential : Potential) (start : Nonterminal) (state : Nat)
    (entry : Option Terminal × Action) : Bool :=
  match entry with
  | (some _, .shift target) =>
      potential.weight target + potential.bonus target <
        potential.perToken + potential.bonus state
  | (none, .shift _) => false
  | (_, .reduce rule) =>
      parser.productions[rule]?.any fun production =>
        parser.popsTo
          (parser.affords potential
            (potential.credit state production.right.length)
            production.left)
          production.right.reverse state
  | (some _, .accept) => false
  | (none, .accept) => parser.popsTo (· == 0) [.nonterminal start] state

structure Valid (potential : Potential) (start : Nonterminal) : Prop where
  fresh : ∀ edge ∈ parser.edges, edge.target ≠ 0
  weighed : ∀ edge ∈ parser.edges, 0 < potential.weight edge.target
  entries :
    ∀ place ∈ parser.rows.zipIdx, ∀ entry ∈ place.1.actions,
      parser.validEntry potential start place.2 entry = true

variable {parser}

omit [DecidableEq Terminal] in
theorem mem_edges_of_goto {state target : Nat} {left : Nonterminal}
    (goes : parser.goto state left = some target) :
    ⟨state, .nonterminal left, target⟩ ∈ parser.edges := by
  obtain ⟨row, isRow, found⟩ := Option.bind_eq_some_iff.mp goes
  obtain ⟨older, younger, split, -⟩ := List.lookup_eq_some_iff.mp found
  refine List.mem_flatMap.mpr
    ⟨(row, state), List.mem_zipIdx_iff_getElem?.mpr isRow,
      List.mem_append_right _ ?_⟩
  refine List.mem_map.mpr ⟨(left, target), ?_, rfl⟩
  rw [split]
  exact List.mem_append_right _ List.mem_cons_self

omit [DecidableEq Nonterminal] in
theorem exists_entry_of_action {state : Nat} {ahead : Option Terminal}
    {action : Action} (acts : parser.action state ahead = some action) :
    ∃ place ∈ parser.rows.zipIdx,
      place.2 = state ∧ (ahead, action) ∈ place.1.actions := by
  obtain ⟨row, isRow, found⟩ := Option.bind_eq_some_iff.mp acts
  obtain ⟨older, younger, split, -⟩ := List.lookup_eq_some_iff.mp found
  refine
    ⟨(row, state), List.mem_zipIdx_iff_getElem?.mpr isRow, rfl, ?_⟩
  rw [split]
  exact List.mem_append_right _ List.mem_cons_self

omit [DecidableEq Nonterminal] in
theorem mem_edges_of_shift {state target : Nat} {terminal : Terminal}
    (shifts : parser.action state (some terminal) = some (.shift target)) :
    ⟨state, .terminal terminal, target⟩ ∈ parser.edges := by
  obtain ⟨place, isPlace, rfl, isEntry⟩ := exists_entry_of_action shifts
  refine List.mem_flatMap.mpr ⟨place, isPlace, List.mem_append_left _ ?_⟩
  exact List.mem_filterMap.mpr ⟨_, isEntry, rfl⟩

theorem Valid.entry {potential : Potential} {start : Nonterminal}
    (valid : parser.Valid potential start) {state : Nat}
    {ahead : Option Terminal} {action : Action}
    (acts : parser.action state ahead = some action) :
    parser.validEntry potential start state (ahead, action) = true := by
  obtain ⟨place, isPlace, rfl, isEntry⟩ := exists_entry_of_action acts
  exact valid.entries place isPlace _ isEntry

/-! ## Stacks -/

section Stacks

variable (Means : GrammarSymbol Terminal Nonterminal → Value →
  List Token → Prop)

variable (parser) in
/-- A stack along the edges of the automaton, with the tokens that its values
stand for. -/
inductive Path :
    List (Entry Terminal Nonterminal Value) → List Token → Prop where
  | nil : Path [] []
  | cons {stack : List (Entry Terminal Nonterminal Value)}
      {entry : Entry Terminal Nonterminal Value} {read part : List Token}
      (path : Path stack read)
      (edge : ⟨topState stack, entry.symbol, entry.state⟩ ∈ parser.edges)
      (means : Means entry.symbol entry.value part) :
      Path (entry :: stack) (read ++ part)

variable {Means}


/-- What lies on top of a stack that the tables allow to be popped. -/
theorem Path.pop {stack : List (Entry Terminal Nonterminal Value)}
    {read : List Token} {good : Nat → Bool}
    {symbols : List (GrammarSymbol Terminal Nonterminal)}
    (path : parser.Path Means stack read)
    (pops : parser.popsTo good symbols (topState stack) = true) :
    ∃ popped rest older part,
      stack = popped ++ rest ∧ popped.length = symbols.length ∧
        read = older ++ part ∧ parser.Path Means rest older ∧
          MeansAll Means symbols.reverse (popped.reverse.map Entry.value)
              part ∧
            good (topState rest) = true ∧
              ∀ entry ∈ popped, ∃ edge ∈ parser.edges,
                edge.target = entry.state := by
  induction symbols generalizing stack read with
  | nil =>
      exact
        ⟨[], stack, read, [], rfl, rfl, (List.append_nil _).symm, path,
          MeansAll.nil, pops, by simp⟩
  | cons symbol below inductionHypothesis =>
      rw [popsTo, Bool.and_eq_true, bne_iff_ne, List.all_eq_true] at pops
      obtain ⟨notStart, each⟩ := pops
      cases path with
      | nil => exact absurd rfl notStart
      | @cons stack entry older part path edge means =>
          have fits := each _ edge
          rw [topState, bne_self_eq_false, Bool.false_or, Bool.and_eq_true,
            decide_eq_true_eq] at fits
          obtain ⟨isSymbol, popsBelow⟩ := fits
          obtain
            ⟨popped, rest, oldest, middle, rfl, length, rfl, pathRest,
              meansBelow, isGood, weighed⟩ :=
            inductionHypothesis path popsBelow
          refine
            ⟨entry :: popped, rest, oldest, middle ++ part, rfl, ?_, ?_,
              pathRest, ?_, isGood, ?_⟩
          · rw [List.length_cons, length, List.length_cons]
          · rw [List.append_assoc]
          · rw [List.reverse_cons, List.reverse_cons, List.map_append,
              ← isSymbol]
            exact meansBelow.concat Means means
          · rw [List.forall_mem_cons]
            exact ⟨⟨_, edge, rfl⟩, weighed⟩

theorem Path.eq_nil {potential : Potential} {start : Nonterminal}
    (valid : parser.Valid potential start)
    {stack : List (Entry Terminal Nonterminal Value)} {read : List Token}
    (path : parser.Path Means stack read) (isStart : topState stack = 0) :
    stack = [] ∧ read = [] := by
  cases path with
  | nil => exact ⟨rfl, rfl⟩
  | cons path edge means => exact absurd isStart (valid.fresh _ edge)

/-! ## Runs -/

variable (parser Means) in
/-- The actions of the rules that the tables reduce by know what they are
given, and keep the meaning. -/
def Keeps : Prop :=
  ∀ state ahead rule, parser.action state ahead = some (.reduce rule) →
    ∀ production, parser.productions[rule]? = some production →
      ∀ env values part, MeansAll Means production.right values part →
        ∃ computation, parser.act rule env values = some computation ∧
          ∀ result, computation = .ok result →
            Means (.nonterminal production.left) result.1 part

variable (parser Means) in
/-- The stack stands for the tokens that have been read. -/
structure Reads (tokens : List Token)
    (config : Config Terminal Nonterminal Token Value Env) : Prop where
  stack : ∃ read, parser.Path Means config.stack read ∧
    read ++ config.input = tokens
  input :
    ∀ token ∈ config.input,
      Means (.terminal (parser.kind token)) (parser.tokenValue token) [token]

section Step

variable {potential : Potential} {start : Nonterminal}
variable {tokens : List Token}
variable {config next : Config Terminal Nonterminal Token Value Env}

theorem exists_of_reduce (valid : parser.Valid potential start)
    (keeps : parser.Keeps Means) (reads : parser.Reads Means tokens config)
    {rule : Nat}
    (reduces :
      parser.action (topState config.stack) (parser.ahead config.input) =
        some (.reduce rule)) :
    (∃ fault, parser.reduce config rule = .error (.fault fault)) ∨
      ∃ next, parser.reduce config rule = .ok next ∧
        parser.Reads Means tokens next ∧
          Config.potential potential next <
            Config.potential potential config := by
  obtain ⟨stack, input, env⟩ := config
  obtain ⟨⟨read, path, whole⟩, lexed⟩ := reads
  have checked := valid.entry reduces
  rw [validEntry, Option.any_eq_true] at checked
  obtain ⟨production, isRule, pops⟩ := checked
  obtain
    ⟨popped, rest, older, part, isStack, length, isRead, pathRest, means,
      affordable, weighed⟩ := path.pop pops
  dsimp only at isStack whole lexed
  subst isStack isRead
  rw [List.length_reverse] at length
  rw [List.reverse_reverse] at means
  obtain ⟨computation, acts, kept⟩ :=
    keeps _ _ rule reduces production isRule env _ _ means
  rw [affords, Option.any_eq_true] at affordable
  obtain ⟨target, goes, cheaper⟩ := affordable
  have taken :
      (popped ++ rest).take production.right.length = popped := by
    rw [← length, List.take_left]
  have dropped :
      (popped ++ rest).drop production.right.length = rest := by
    rw [← length, List.drop_left]
  cases computation with
  | error fault =>
      refine Or.inl ⟨fault, ?_⟩
      simp only [reduce, isRule, taken, acts]
  | ok result =>
      refine Or.inr
        ⟨⟨⟨target, .nonterminal production.left, result.1⟩ :: rest, input,
            result.2⟩, ?_, ⟨⟨older ++ part, ?_, whole⟩, lexed⟩, ?_⟩
      · simp only [reduce, isRule, taken, dropped, acts, goes]
      · exact Path.cons pathRest (mem_edges_of_goto goes) (kept result rfl)
      · have positive :
            ∀ entry ∈ popped, 0 < potential.weight entry.state := by
          intro entry member
          obtain ⟨edge, isEdge, isTarget⟩ := weighed entry member
          rw [← isTarget]
          exact valid.weighed edge isEdge
        have enough :
            potential.credit (topState (popped ++ rest)) popped.length ≤
              potential.bonus (topState (popped ++ rest)) +
                stackWeight potential popped :=
          credit_le_stackWeight positive
        have cheap :
            potential.weight target + potential.bonus target <
              potential.credit (topState (popped ++ rest))
                production.right.length := of_decide_eq_true cheaper
        have isTop :
            ∀ entry : Entry Terminal Nonterminal Value,
              topState (entry :: rest) = entry.state := fun _ => rfl
        rw [length] at enough
        rw [Config.potential, Config.potential, stackWeight_append,
          stackWeight_cons, isTop]
        dsimp only
        omega

/-- A round of the loop reads on, for less than before. -/
theorem reads_of_step (valid : parser.Valid potential start)
    (keeps : parser.Keeps Means) (reads : parser.Reads Means tokens config)
    (stepped : parser.step config = .ok next) :
    parser.Reads Means tokens next ∧
      Config.potential potential next <
        Config.potential potential config := by
  rw [step] at stepped
  cases acts :
      parser.action (topState config.stack) (parser.ahead config.input) with
  | none =>
      rw [acts] at stepped
      cases stepped
  | some action =>
      rw [acts] at stepped
      cases action with
      | shift target =>
          obtain ⟨stack, input, env⟩ := config
          cases input with
          | nil => cases stepped
          | cons token input =>
              obtain rfl := Except.ok.inj stepped
              obtain ⟨⟨read, path, whole⟩, lexed⟩ := reads
              have cheaper := of_decide_eq_true (valid.entry acts)
              rw [List.forall_mem_cons] at lexed
              refine ⟨⟨⟨read ++ [token], ?_, ?_⟩, lexed.2⟩, ?_⟩
              · exact Path.cons path (mem_edges_of_shift acts) lexed.1
              · rw [← whole, List.append_assoc]
                rfl
              · rw [Config.potential, Config.potential, stackWeight_cons,
                  List.length_cons, Nat.mul_add, Nat.mul_one]
                dsimp only [topState] at cheaper ⊢
                omega
      | reduce rule =>
          rcases exists_of_reduce valid keeps reads acts with
            ⟨fault, faulted⟩ | ⟨other, reduced, readsOn, cheaper⟩
          · dsimp only at stepped
            rw [faulted] at stepped
            cases stepped
          · dsimp only at stepped
            rw [reduced] at stepped
            obtain rfl := Except.ok.inj stepped
            exact ⟨readsOn, cheaper⟩
      | accept =>
          dsimp only at stepped
          split at stepped <;> cases stepped

/-- The loop never breaks, and what it accepts means the whole input. -/
theorem end_of_step (valid : parser.Valid potential start)
    (keeps : parser.Keeps Means) (reads : parser.Reads Means tokens config)
    {parseEnd : ParseEnd Value Fault}
    (stepped : parser.step config = .error parseEnd) :
    parseEnd ≠ .broken ∧
      ∀ value, parseEnd = .accepted value →
        Means (.nonterminal start) value tokens := by
  rw [step] at stepped
  cases acts :
      parser.action (topState config.stack) (parser.ahead config.input) with
  | none =>
      rw [acts] at stepped
      obtain rfl := Except.error.inj stepped
      exact ⟨by simp, fun _ impossible => by cases impossible⟩
  | some action =>
      rw [acts] at stepped
      cases action with
      | shift target =>
          obtain ⟨stack, input, env⟩ := config
          cases input with
          | nil => cases valid.entry acts
          | cons token input => cases stepped
      | reduce rule =>
          rcases exists_of_reduce valid keeps reads acts with
            ⟨fault, faulted⟩ | ⟨other, reduced, -, -⟩
          · dsimp only at stepped
            rw [faulted] at stepped
            obtain rfl := Except.error.inj stepped
            exact ⟨by simp, fun _ impossible => by cases impossible⟩
          · dsimp only at stepped
            rw [reduced] at stepped
            cases stepped
      | accept =>
          obtain ⟨stack, input, env⟩ := config
          obtain ⟨⟨read, path, whole⟩, -⟩ := reads
          have checked := valid.entry acts
          cases input with
          | cons token input => cases checked
          | nil =>
              obtain
                ⟨popped, rest, older, part, rfl, length, rfl, pathRest,
                  means, isStart, -⟩ := path.pop checked
              obtain ⟨rfl, rfl⟩ :=
                pathRest.eq_nil valid (beq_iff_eq.mp isStart)
              obtain ⟨entry, rfl⟩ := List.length_eq_one_iff.mp length
              obtain rfl := Except.error.inj stepped
              refine ⟨by simp, ?_⟩
              intro value same
              obtain rfl := ParseEnd.accepted.inj same
              cases means with
              | cons first others =>
                  cases others
                  rw [← whole]
                  simpa using first

end Step

/-- With valid tables the loop ends, is never broken, and what it accepts has
the meaning that the actions keep. -/
theorem loop_of_reads {potential : Potential} {start : Nonterminal}
    (valid : parser.Valid potential start) (keeps : parser.Keeps Means)
    {tokens : List Token} {fuel : Nat}
    {config : Config Terminal Nonterminal Token Value Env}
    (reads : parser.Reads Means tokens config)
    (enough : Config.potential potential config < fuel) :
    ∃ parseEnd, parser.loop fuel config = some parseEnd ∧
      parseEnd ≠ .broken ∧
        ∀ value, parseEnd = .accepted value →
          Means (.nonterminal start) value tokens := by
  induction fuel generalizing config with
  | zero => cases enough
  | succ fuel inductionHypothesis =>
      cases stepped : parser.step config with
      | error parseEnd =>
          exact
            ⟨parseEnd, by rw [loop, stepped],
              end_of_step valid keeps reads stepped⟩
      | ok next =>
          obtain ⟨readsOn, cheaper⟩ :=
            reads_of_step valid keeps reads stepped
          obtain ⟨parseEnd, found, holds⟩ :=
            inductionHypothesis readsOn (by omega)
          exact ⟨parseEnd, by rw [loop, stepped]; exact found, holds⟩

end Stacks

end Parser

end ShiftReduce
