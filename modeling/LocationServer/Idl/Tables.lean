import LocationServer.Foundation.ValidTables
import LocationServer.Idl.Lexer

/-!
# The automaton of the grammar (`mylex.py`, `parser.out`)

The productions of `mylex.py` and the tables that PLY has made of them by the
method SLR, with the numbers of the productions and of the states as they stand
in `parser.out`.  The grammar is ambiguous, since a definition can be empty;
PLY shifts a keyword rather than put an empty definition before it, and takes
rule 2 at the end rather than add one more.
-/

namespace LocationServer

open ShiftReduce

inductive Nonterminal where
  | accepting
  | start
  | definations
  | defination
  | structDef
  | interfaceDef
  | sequenceDef
  | dictionaryDef
  | datamembers
  | datamember
  | operatemembers
  | operatemember
  | operateparams
  | callreturn
  | typeId
  | type
  deriving DecidableEq

def slrProductions : List (Production TokenType Nonterminal) :=
  [
    -- 0
    { left := .accepting
      right := [.nonterminal .start] },
    -- 1
    { left := .start
      right := [.nonterminal .definations] },
    -- 2
    { left := .definations
      right := [.nonterminal .defination] },
    -- 3
    { left := .definations
      right := [.nonterminal .defination, .nonterminal .definations] },
    -- 4
    { left := .defination
      right := [.nonterminal .structDef, .terminal (.literal ';')] },
    -- 5
    { left := .defination
      right := [.nonterminal .interfaceDef, .terminal (.literal ';')] },
    -- 6
    { left := .defination
      right := [.nonterminal .sequenceDef, .terminal (.literal ';')] },
    -- 7
    { left := .defination
      right := [.nonterminal .dictionaryDef, .terminal (.literal ';')] },
    -- 8
    { left := .defination, right := [] },
    -- 9
    { left := .sequenceDef
      right := [.terminal .sequence, .terminal (.literal '<'),
          .nonterminal .type, .terminal (.literal '>'),
          .terminal .identifier] },
    -- 10
    { left := .dictionaryDef
      right := [.terminal .dictionary, .terminal (.literal '<'),
          .nonterminal .type, .terminal (.literal ','), .nonterminal .type,
          .terminal (.literal '>'), .terminal .identifier] },
    -- 11
    { left := .interfaceDef
      right := [.terminal .interface, .terminal .identifier,
          .terminal (.literal '{'), .nonterminal .operatemembers,
          .terminal (.literal '}')] },
    -- 12
    { left := .operatemembers
      right := [.nonterminal .operatemember] },
    -- 13
    { left := .operatemembers
      right := [.nonterminal .operatemember, .nonterminal .operatemembers] },
    -- 14
    { left := .operatemember
      right := [.nonterminal .callreturn, .terminal .identifier,
          .terminal (.literal '('), .nonterminal .operateparams,
          .terminal (.literal ')'), .terminal (.literal ';')] },
    -- 15
    { left := .operateparams
      right := [.nonterminal .typeId] },
    -- 16
    { left := .operateparams, right := [] },
    -- 17
    { left := .operateparams
      right := [.nonterminal .typeId, .terminal (.literal ','),
          .nonterminal .operateparams] },
    -- 18
    { left := .callreturn
      right := [.nonterminal .type] },
    -- 19
    { left := .structDef
      right := [.terminal .struct, .terminal .identifier,
          .terminal (.literal '{'), .nonterminal .datamembers,
          .terminal (.literal '}')] },
    -- 20
    { left := .datamembers
      right := [.nonterminal .datamember] },
    -- 21
    { left := .datamembers
      right := [.nonterminal .datamember, .nonterminal .datamembers] },
    -- 22
    { left := .datamember
      right := [.nonterminal .typeId, .terminal (.literal ';')] },
    -- 23
    { left := .typeId
      right := [.nonterminal .type, .terminal .identifier] },
    -- 24
    { left := .type
      right := [.terminal .identifier] }]

def slrRows : List (Row TokenType Nonterminal) :=
  [
    -- state 0
    { actions := [(none, .reduce 8), (some .struct, .shift 2),
          (some .interface, .shift 10), (some .sequence, .shift 11),
          (some .dictionary, .shift 6)]
      gotos := [(.interfaceDef, 1), (.dictionaryDef, 3), (.definations, 4),
          (.defination, 5), (.start, 7), (.sequenceDef, 8), (.structDef, 9)] },
    -- state 1
    { actions := [(some (.literal ';'), .shift 12)]
      gotos := [] },
    -- state 2
    { actions := [(some .identifier, .shift 13)]
      gotos := [] },
    -- state 3
    { actions := [(some (.literal ';'), .shift 14)]
      gotos := [] },
    -- state 4
    { actions := [(none, .reduce 1)]
      gotos := [] },
    -- state 5
    { actions := [(none, .reduce 2), (some .struct, .shift 2),
          (some .interface, .shift 10), (some .sequence, .shift 11),
          (some .dictionary, .shift 6)]
      gotos := [(.interfaceDef, 1), (.dictionaryDef, 3), (.defination, 5),
          (.definations, 15), (.sequenceDef, 8), (.structDef, 9)] },
    -- state 6
    { actions := [(some (.literal '<'), .shift 16)]
      gotos := [] },
    -- state 7
    { actions := [(none, .accept)]
      gotos := [] },
    -- state 8
    { actions := [(some (.literal ';'), .shift 17)]
      gotos := [] },
    -- state 9
    { actions := [(some (.literal ';'), .shift 18)]
      gotos := [] },
    -- state 10
    { actions := [(some .identifier, .shift 19)]
      gotos := [] },
    -- state 11
    { actions := [(some (.literal '<'), .shift 20)]
      gotos := [] },
    -- state 12
    { actions := [(none, .reduce 5), (some .interface, .reduce 5),
          (some .dictionary, .reduce 5), (some .struct, .reduce 5),
          (some .sequence, .reduce 5)]
      gotos := [] },
    -- state 13
    { actions := [(some (.literal '{'), .shift 21)]
      gotos := [] },
    -- state 14
    { actions := [(none, .reduce 7), (some .interface, .reduce 7),
          (some .dictionary, .reduce 7), (some .struct, .reduce 7),
          (some .sequence, .reduce 7)]
      gotos := [] },
    -- state 15
    { actions := [(none, .reduce 3)]
      gotos := [] },
    -- state 16
    { actions := [(some .identifier, .shift 22)]
      gotos := [(.type, 23)] },
    -- state 17
    { actions := [(none, .reduce 6), (some .interface, .reduce 6),
          (some .dictionary, .reduce 6), (some .struct, .reduce 6),
          (some .sequence, .reduce 6)]
      gotos := [] },
    -- state 18
    { actions := [(none, .reduce 4), (some .interface, .reduce 4),
          (some .dictionary, .reduce 4), (some .struct, .reduce 4),
          (some .sequence, .reduce 4)]
      gotos := [] },
    -- state 19
    { actions := [(some (.literal '{'), .shift 24)]
      gotos := [] },
    -- state 20
    { actions := [(some .identifier, .shift 22)]
      gotos := [(.type, 25)] },
    -- state 21
    { actions := [(some .identifier, .shift 22)]
      gotos := [(.type, 28), (.datamembers, 29), (.datamember, 26),
          (.typeId, 27)] },
    -- state 22
    { actions := [(some (.literal '>'), .reduce 24),
          (some (.literal ','), .reduce 24), (some .identifier, .reduce 24)]
      gotos := [] },
    -- state 23
    { actions := [(some (.literal ','), .shift 30)]
      gotos := [] },
    -- state 24
    { actions := [(some .identifier, .shift 22)]
      gotos := [(.callreturn, 32), (.type, 33), (.operatemembers, 31),
          (.operatemember, 34)] },
    -- state 25
    { actions := [(some (.literal '>'), .shift 35)]
      gotos := [] },
    -- state 26
    { actions := [(some (.literal '}'), .reduce 20),
          (some .identifier, .shift 22)]
      gotos := [(.type, 28), (.datamembers, 36), (.datamember, 26),
          (.typeId, 27)] },
    -- state 27
    { actions := [(some (.literal ';'), .shift 37)]
      gotos := [] },
    -- state 28
    { actions := [(some .identifier, .shift 38)]
      gotos := [] },
    -- state 29
    { actions := [(some (.literal '}'), .shift 39)]
      gotos := [] },
    -- state 30
    { actions := [(some .identifier, .shift 22)]
      gotos := [(.type, 40)] },
    -- state 31
    { actions := [(some (.literal '}'), .shift 41)]
      gotos := [] },
    -- state 32
    { actions := [(some .identifier, .shift 42)]
      gotos := [] },
    -- state 33
    { actions := [(some .identifier, .reduce 18)]
      gotos := [] },
    -- state 34
    { actions := [(some (.literal '}'), .reduce 12),
          (some .identifier, .shift 22)]
      gotos := [(.callreturn, 32), (.type, 33), (.operatemembers, 43),
          (.operatemember, 34)] },
    -- state 35
    { actions := [(some .identifier, .shift 44)]
      gotos := [] },
    -- state 36
    { actions := [(some (.literal '}'), .reduce 21)]
      gotos := [] },
    -- state 37
    { actions := [(some (.literal '}'), .reduce 22),
          (some .identifier, .reduce 22)]
      gotos := [] },
    -- state 38
    { actions := [(some (.literal ')'), .reduce 23),
          (some (.literal ','), .reduce 23),
          (some (.literal ';'), .reduce 23)]
      gotos := [] },
    -- state 39
    { actions := [(some (.literal ';'), .reduce 19)]
      gotos := [] },
    -- state 40
    { actions := [(some (.literal '>'), .shift 45)]
      gotos := [] },
    -- state 41
    { actions := [(some (.literal ';'), .reduce 11)]
      gotos := [] },
    -- state 42
    { actions := [(some (.literal '('), .shift 46)]
      gotos := [] },
    -- state 43
    { actions := [(some (.literal '}'), .reduce 13)]
      gotos := [] },
    -- state 44
    { actions := [(some (.literal ';'), .reduce 9)]
      gotos := [] },
    -- state 45
    { actions := [(some .identifier, .shift 47)]
      gotos := [] },
    -- state 46
    { actions := [(some (.literal ')'), .reduce 16),
          (some .identifier, .shift 22)]
      gotos := [(.operateparams, 48), (.type, 28), (.typeId, 49)] },
    -- state 47
    { actions := [(some (.literal ';'), .reduce 10)]
      gotos := [] },
    -- state 48
    { actions := [(some (.literal ')'), .shift 50)]
      gotos := [] },
    -- state 49
    { actions := [(some (.literal ')'), .reduce 15),
          (some (.literal ','), .shift 51)]
      gotos := [] },
    -- state 50
    { actions := [(some (.literal ';'), .shift 52)]
      gotos := [] },
    -- state 51
    { actions := [(some (.literal ')'), .reduce 16),
          (some .identifier, .shift 22)]
      gotos := [(.operateparams, 53), (.type, 28), (.typeId, 49)] },
    -- state 52
    { actions := [(some (.literal '}'), .reduce 14),
          (some .identifier, .reduce 14)]
      gotos := [] },
    -- state 53
    { actions := [(some (.literal ')'), .reduce 17)]
      gotos := [] }]

end LocationServer
