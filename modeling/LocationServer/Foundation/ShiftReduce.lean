import Mathlib.Logic.Relation

/-!
# Shift-reduce parsers

The loop that an LR parser generator runs over its tables: it shifts tokens on
a stack of states, symbols and values, or replaces the right side of a
production on top of it by the left side, with the value that the action of the
production computes.  Actions read and change an environment and can end the
parse with a fault.

`Computes` says that the machine, from a configuration on, amounts to a
computation that can fail.  Its rules put such statements together along the
steps of the machine, so that what a parser does on a tree is proved as the
tree is built.
-/

namespace ShiftReduce

open Relation

inductive GrammarSymbol (Terminal Nonterminal : Type) where
  | terminal (terminal : Terminal)
  | nonterminal (nonterminal : Nonterminal)
  deriving DecidableEq

structure Production (Terminal Nonterminal : Type) where
  left : Nonterminal
  right : List (GrammarSymbol Terminal Nonterminal)

/-- An entry of the tables; a production is named by its number. -/
inductive Action where
  | shift (state : Nat)
  | reduce (rule : Nat)
  | accept
  deriving DecidableEq

/-- The actions of a state by the token ahead, `none` being the end of the
input, and the states behind a reduction. -/
structure Row (Terminal Nonterminal : Type) where
  actions : List (Option Terminal × Action)
  gotos : List (Nonterminal × Nat)

structure Parser (Terminal Nonterminal Token Value Env Fault : Type) where
  rows : List (Row Terminal Nonterminal)
  productions : List (Production Terminal Nonterminal)
  kind : Token → Terminal
  tokenValue : Token → Value
  /-- The action of a production; `none` for values that it does not know. -/
  act : Nat → Env → List Value → Option (Except Fault (Value × Env))

structure Entry (Terminal Nonterminal Value : Type) where
  state : Nat
  symbol : GrammarSymbol Terminal Nonterminal
  value : Value

/-- The state on top of the stack; the parser starts in state 0. -/
def topState {Terminal Nonterminal Value : Type} :
    List (Entry Terminal Nonterminal Value) → Nat
  | [] => 0
  | entry :: _ => entry.state

structure Config (Terminal Nonterminal Token Value Env : Type) where
  stack : List (Entry Terminal Nonterminal Value)
  input : List Token
  env : Env

/-- How a parse ends; `broken` is a production that does not fit the stack. -/
inductive ParseEnd (Value Fault : Type) where
  | accepted (value : Value)
  | fault (fault : Fault)
  | syntaxError
  | broken
  deriving DecidableEq

namespace Parser

variable {Terminal Nonterminal Token Value Env Fault : Type}
variable [DecidableEq Terminal] [DecidableEq Nonterminal]
variable (parser : Parser Terminal Nonterminal Token Value Env Fault)

def action (state : Nat) (ahead : Option Terminal) : Option Action :=
  parser.rows[state]?.bind fun row => row.actions.lookup ahead

def goto (state : Nat) (left : Nonterminal) : Option Nat :=
  parser.rows[state]?.bind fun row => row.gotos.lookup left

/-- The terminal ahead of the parser. -/
def ahead (input : List Token) : Option Terminal :=
  input.head?.map parser.kind

def reduce (config : Config Terminal Nonterminal Token Value Env)
    (rule : Nat) :
    Except (ParseEnd Value Fault)
      (Config Terminal Nonterminal Token Value Env) :=
  match parser.productions[rule]? with
  | none => .error .broken
  | some production =>
      let popped := config.stack.take production.right.length
      let rest := config.stack.drop production.right.length
      match parser.act rule config.env (popped.reverse.map Entry.value) with
      | none => .error .broken
      | some (.error fault) => .error (.fault fault)
      | some (.ok (value, env)) =>
          match parser.goto (topState rest) production.left with
          | none => .error .broken
          | some state =>
              .ok
                { stack :=
                    { state, symbol := .nonterminal production.left, value } ::
                      rest
                  input := config.input
                  env }

/-- One round of the loop. -/
def step (config : Config Terminal Nonterminal Token Value Env) :
    Except (ParseEnd Value Fault)
      (Config Terminal Nonterminal Token Value Env) :=
  match parser.action (topState config.stack) (parser.ahead config.input) with
  | none => .error .syntaxError
  | some (.shift state) =>
      match config.input with
      | [] => .error .broken
      | token :: input =>
          .ok
            { stack :=
                { state
                  symbol := .terminal (parser.kind token)
                  value := parser.tokenValue token } :: config.stack
              input
              env := config.env }
  | some (.reduce rule) => parser.reduce config rule
  | some .accept =>
      match config.stack with
      | [] => .error .broken
      | entry :: _ => .error (.accepted entry.value)

/-- The loop, for as many rounds as there is fuel. -/
def loop :
    Nat → Config Terminal Nonterminal Token Value Env →
      Option (ParseEnd Value Fault)
  | 0, _ => none
  | fuel + 1, config =>
      match parser.step config with
      | .ok next => loop fuel next
      | .error parseEnd => some parseEnd

/-! ## Runs -/

/-- The machine comes from one configuration to another. -/
def Leads (config next : Config Terminal Nonterminal Token Value Env) :
    Prop :=
  ReflTransGen (fun config next => parser.step config = .ok next) config next

/-- The machine ends, from a configuration on. -/
def Ends (config : Config Terminal Nonterminal Token Value Env)
    (parseEnd : ParseEnd Value Fault) : Prop :=
  ∃ last, parser.Leads config last ∧ parser.step last = .error parseEnd

/-- From a configuration on, the machine amounts to a computation, behind which
it goes on as `next` says. -/
def Computes {Result : Type}
    (config : Config Terminal Nonterminal Token Value Env)
    (computation : Except Fault Result)
    (next : Result → Config Terminal Nonterminal Token Value Env) : Prop :=
  match computation with
  | .ok result => parser.Leads config (next result)
  | .error fault => parser.Ends config (.fault fault)

variable {parser}
variable {config middle last : Config Terminal Nonterminal Token Value Env}

theorem Leads.of_step (stepped : parser.step config = .ok middle) :
    parser.Leads config middle :=
  ReflTransGen.single stepped

theorem Leads.ends {parseEnd : ParseEnd Value Fault}
    (leads : parser.Leads config middle) (ends : parser.Ends middle parseEnd) :
    parser.Ends config parseEnd := by
  obtain ⟨last, later, ended⟩ := ends
  exact ⟨last, leads.trans later, ended⟩

/-- With enough fuel the loop gives the end of the run. -/
theorem Ends.exists_loop {parseEnd : ParseEnd Value Fault}
    (ends : parser.Ends config parseEnd) :
    ∃ fuel, parser.loop fuel config = some parseEnd := by
  obtain ⟨last, leads, ended⟩ := ends
  induction leads using ReflTransGen.head_induction_on with
  | refl => exact ⟨1, by rw [loop, ended]⟩
  | head stepped _ inductionHypothesis =>
      obtain ⟨fuel, found⟩ := inductionHypothesis
      exact ⟨fuel + 1, by rw [loop, stepped]; exact found⟩

/-- Fuel decides only whether there is a result. -/
theorem loop_unique {first second : Nat}
    {left right : ParseEnd Value Fault}
    (foundLeft : parser.loop first config = some left)
    (foundRight : parser.loop second config = some right) : left = right := by
  induction first generalizing config second with
  | zero => cases foundLeft
  | succ first inductionHypothesis =>
      cases second with
      | zero => cases foundRight
      | succ second =>
          rw [loop] at foundLeft foundRight
          cases stepped : parser.step config with
          | ok next =>
              rw [stepped] at foundLeft foundRight
              exact inductionHypothesis foundLeft foundRight
          | error parseEnd =>
              rw [stepped] at foundLeft foundRight
              exact Option.some.inj (foundLeft.symm.trans foundRight)

/-! ## Rules for computations -/

section Computes

variable {First Second : Type}
variable {first : Except Fault First}

/-- A computation that is done. -/
theorem Computes.of_ok {result : First}
    {next : First → Config Terminal Nonterminal Token Value Env}
    (leads : parser.Leads config (next result)) :
    parser.Computes config (.ok result) next :=
  leads

theorem Computes.of_leads
    {next : First → Config Terminal Nonterminal Token Value Env}
    (leads : parser.Leads config middle)
    (computes : parser.Computes middle first next) :
    parser.Computes config first next := by
  cases first with
  | ok result => exact leads.trans computes
  | error fault => exact leads.ends computes

theorem Computes.bind
    {between : First → Config Terminal Nonterminal Token Value Env}
    {second : First → Except Fault Second}
    {next : Second → Config Terminal Nonterminal Token Value Env}
    (computes : parser.Computes config first between)
    (continues :
      ∀ result, first = .ok result →
        parser.Computes (between result) (second result) next) :
    parser.Computes config (first >>= second) next := by
  cases first with
  | ok result => exact (continues result rfl).of_leads computes
  | error fault => exact computes

/-- The machine goes on behind a computation. -/
theorem Computes.leads
    {between next : First → Config Terminal Nonterminal Token Value Env}
    (computes : parser.Computes config first between)
    (continues : ∀ result, parser.Leads (between result) (next result)) :
    parser.Computes config first next := by
  cases first with
  | ok result => exact ReflTransGen.trans computes (continues result)
  | error fault => exact computes

theorem computes_map {change : First → Second}
    {next : Second → Config Terminal Nonterminal Token Value Env} :
    parser.Computes config (first.map change) next ↔
      parser.Computes config first (next ∘ change) := by
  cases first <;> exact Iff.rfl

end Computes

/-! ## Rules for steps -/

variable {stack : List (Entry Terminal Nonterminal Value)}
variable {input : List Token} {env : Env}

theorem leads_shift {state : Nat} {token : Token}
    (shifts :
      parser.action (topState stack) (some (parser.kind token)) =
        some (.shift state)) :
    parser.Leads ⟨stack, token :: input, env⟩
      ⟨⟨state, .terminal (parser.kind token), parser.tokenValue token⟩ ::
        stack, input, env⟩ := by
  apply Leads.of_step
  have here :
      parser.action (topState stack) (parser.ahead (token :: input)) =
        some (.shift state) := shifts
  simp only [step, here]

/-- A reduction amounts to the action of its production. -/
theorem computes_reduce {rule state : Nat}
    {production : Production Terminal Nonterminal}
    {popped : List (Entry Terminal Nonterminal Value)}
    {computation : Except Fault (Value × Env)}
    (reduces :
      parser.action (topState (popped ++ stack)) (parser.ahead input) =
        some (.reduce rule))
    (isRule : parser.productions[rule]? = some production)
    (whole : production.right.length = popped.length)
    (acts :
      parser.act rule env (popped.reverse.map Entry.value) =
        some computation)
    (goes : parser.goto (topState stack) production.left = some state) :
    parser.Computes ⟨popped ++ stack, input, env⟩ computation fun result =>
      ⟨⟨state, .nonterminal production.left, result.1⟩ :: stack, input,
        result.2⟩ := by
  have taken : (popped ++ stack).take popped.length = popped :=
    List.take_left
  have dropped : (popped ++ stack).drop popped.length = stack :=
    List.drop_left
  have stepped :
      parser.step ⟨popped ++ stack, input, env⟩ =
        match computation with
        | .ok result =>
            .ok
              ⟨⟨state, .nonterminal production.left, result.1⟩ :: stack,
                input, result.2⟩
        | .error fault => .error (.fault fault) := by
    simp only [step, reduces, reduce, isRule, whole, taken, dropped, acts,
      goes]
    cases computation <;> rfl
  cases computation with
  | ok result => exact Leads.of_step stepped
  | error fault => exact ⟨_, ReflTransGen.refl, stepped⟩

theorem ends_accept
    {entry : Entry Terminal Nonterminal Value}
    (accepts :
      parser.action entry.state (parser.ahead input) = some .accept) :
    parser.Ends ⟨entry :: stack, input, env⟩ (.accepted entry.value) := by
  refine ⟨_, ReflTransGen.refl, ?_⟩
  have here :
      parser.action (topState (entry :: stack)) (parser.ahead input) =
        some .accept := accepts
  simp only [step, here]

end Parser

end ShiftReduce
