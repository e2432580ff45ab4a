import Scriptlet.Proofs.GrammarContinuation
import Scriptlet.Proofs.ParseAdvance
import Scriptlet.Proofs.TargetReading

namespace Scriptlet.Grammar

open Parse

def InnerAdvances (k : Nat) (inner inner' : Inner) : Prop :=
  ∀ (g : Nonterminal) (ts : List Lexeme), ts.length < k → Advance 1 (inner g) (inner' g) ts

/-- What the rules give, given the parsers for what stands inside. A rule goes down to the tighter levels
by itself, and all the way back up only through these. -/
def rules (inner : Inner) : Inner
  | .expression => assignment inner
  | .unary => unary inner
  | .exponent => exponent inner
  | .statement => statement inner
  | .declaration => declaration inner

section

variable {k : Nat} {inner inner' : Inner} {ts : List Lexeme}

theorem namesRound_contracts (k : Nat) : Contracts 1 (alone namesRound) (alone namesRound) k := by
  intro again again' s ts hts ha
  refine Advance.identifier.bind fun name rest h => ?_
  refine .any (Advance.separator.bind fun more rest h' => ?_)
  split
  · exact (ha () rest (by omega)).any.map
  · exact .pure

theorem parameters_advances : Advance 1 parameters parameters ts := by
  refine .accept_bind (Nat.le_refl 1) ?_ fun _ _ => .pure
  have hloop := (namesRound_contracts (ts.length + 1)).repeated (fun n _ => namesFrom n)
    (fun n _ => namesFrom n) (fun _ => rfl) (fun _ => rfl) fun _ _ => .throw
  exact .bounded (hloop _ () ts (Nat.lt_succ_self _))

variable (hi : InnerAdvances k inner inner')

include hi

theorem slotsRound_contracts (closing : Symbol) :
    Contracts 1 (alone (slotsRound inner closing)) (alone (slotsRound inner' closing)) k := by
  intro again again' s ts hts ha
  refine .accept_bind (Nat.le_refl 1) ?_ fun _ _ => .pure
  refine .accept_bind (Nat.le_refl 1) ?_ fun rest h => (ha () rest h).any.map
  refine (hi .expression ts hts).bind fun item rest h => ?_
  refine .any (.bind .separator fun more rest h' => ?_)
  split
  · exact (ha () rest (by omega)).any.map
  · exact .pure

theorem slots_advances (closing : Symbol) (hts : ts.length < k) :
    Advance 1 (slots inner closing) (slots inner' closing) ts := by
  have hloop := (slotsRound_contracts hi closing).repeated (fun n _ => slotsFrom inner closing n)
    (fun n _ => slotsFrom inner' closing n) (fun _ => rfl) (fun _ => rfl) fun _ _ => .throw
  exact .bounded (hloop _ () ts hts)

theorem entriesRound_contracts : Contracts 1 (alone (entriesRound inner)) (alone (entriesRound inner')) k := by
  intro again again' s ts hts ha
  refine .accept_bind (Nat.le_refl 1) ?_ fun _ _ => .pure
  refine Advance.require.bind fun key rest h => ?_
  refine .any (Advance.expect.bind fun _ rest h₁ => ?_)
  refine .any ((hi .expression rest (by omega)).bind fun value rest h₂ => ?_)
  refine .accept_bind (Nat.zero_le 1) ?_ fun rest h₃ => (ha () rest (by omega)).any.map
  exact .any (Advance.expect.bind fun _ _ _ => .pure)

theorem entries_advances (hts : ts.length < k) : Advance 1 (entries inner) (entries inner') ts := by
  have hloop := (entriesRound_contracts hi).repeated (fun n _ => entriesFrom inner n)
    (fun n _ => entriesFrom inner' n) (fun _ => rfl) (fun _ => rfl) fun _ _ => .throw
  exact .bounded (hloop _ () ts hts)

theorem statementsRound_contracts :
    Contracts 1 (alone (statementsRound inner)) (alone (statementsRound inner')) k := by
  intro again again' s ts hts ha
  refine Advance.skipSemicolons.bind_then fun _ rest h => ?_
  refine .accept_bind (Nat.le_refl 1) ?_ fun _ _ => .pure
  exact (hi .declaration rest (by omega)).bind fun first rest h₁ => (ha () rest (by omega)).any.map

theorem block_advances (hts : ts.length < k) : Advance 1 (block inner) (block inner') ts := by
  have hloop := (statementsRound_contracts hi).repeated (fun n _ => statementsFrom inner n)
    (fun n _ => statementsFrom inner' n) (fun _ => rfl) (fun _ => rfl) fun _ _ => .throw
  exact .bounded (hloop _ () ts hts)

theorem functionRest_advances (name : Option String) (line : Nat) (hts : ts.length ≤ k) :
    Advance 1 (functionRest inner name line) (functionRest inner' name line) ts := by
  refine Advance.expect.bind fun _ rest h => ?_
  refine .any (parameters_advances.bind fun params rest h₁ => ?_)
  refine Advance.limit.bind fun _ rest h₂ => ?_
  refine .any (Advance.expect.bind fun _ rest h₃ => ?_)
  exact (block_advances hi (by omega)).any.map

theorem initial_advances (hts : ts.length ≤ k) :
    Advance 0 (after (.symbol .assign) (inner .expression))
      (after (.symbol .assign) (inner' .expression)) ts :=
  .after fun rest h => (hi .expression rest (by omega)).any

theorem member_advances (hts : ts.length ≤ k) : Advance 1 (member inner) (member inner') ts := by
  refine Advance.accept.bind_then fun isStatic rest h => ?_
  refine Advance.require.bind fun name rest h₁ => ?_
  refine Advance.sees.bind fun method rest h₂ => ?_
  split
  · exact (functionRest_advances hi _ _ (by omega)).any.map
  · refine (initial_advances hi (by omega)).bind fun _ rest h₃ => ?_
    exact Advance.accept.bind fun _ _ _ => .pure

theorem membersRound_contracts : Contracts 1 (alone (membersRound inner)) (alone (membersRound inner')) k := by
  intro again again' s ts hts ha
  refine Advance.skipSemicolons.bind_then fun _ rest h => ?_
  refine .accept_bind (Nat.le_refl 1) ?_ fun _ _ => .pure
  exact (member_advances hi (by omega)).bind fun first rest h₁ => (ha () rest (by omega)).any.map

theorem classRest_advances (name : Option String) (line : Nat) (hts : ts.length ≤ k) :
    Advance 1 (classRest inner name line) (classRest inner' name line) ts := by
  have hloop := (membersRound_contracts hi).repeated (fun n _ => membersFrom inner n)
    (fun n _ => membersFrom inner' n) (fun _ => rfl) (fun _ => rfl) fun _ _ => .throw
  refine Advance.expect.bind fun _ rest h => ?_
  have hmembers : Advance 1 (bounded fun n => membersFrom inner (n + 1))
      (bounded fun n => membersFrom inner' (n + 1)) rest := .bounded (hloop _ () rest (by omega))
  exact hmembers.any.map

theorem primary_advances (hts : ts.length ≤ k) : Advance 1 (primary inner) (primary inner') ts := by
  refine Advance.next.bind ?_
  rintro ⟨t, line⟩ rest h
  have hrest : rest.length < k := by omega
  cases t with
  | integer | real | text | boolean | name => exact .pure
  | keyword l =>
    cases l with
    | null | this => exact .pure
    | function =>
      refine .take?_bind (Nat.zero_le 1) ?_ fun name line rest h => ?_
      · exact (functionRest_advances hi _ _ (by omega)).any.map
      · exact (functionRest_advances hi _ _ (by omega)).any.map
    | «class» =>
      refine .take?_bind (Nat.zero_le 1) ?_ fun name line rest h => ?_
      · exact (classRest_advances hi _ _ (by omega)).any.map
      · exact (classRest_advances hi _ _ (by omega)).any.map
    | _ => exact .fail
  | symbol s =>
    cases s with
    | leftParen =>
      refine .any ((hi .expression rest hrest).bind fun e rest h => ?_)
      exact .any (Advance.expect.bind fun _ _ _ => .pure)
    | leftBracket => exact (slots_advances hi _ hrest).any.map
    | leftBrace => exact (entries_advances hi hrest).any.map
    | _ => exact .fail

theorem accessOf_advances (e : Expr) (access : Access) (line : Nat) (hts : ts.length < k) :
    Advance 0 (accessOf inner e access line) (accessOf inner' e access line) ts := by
  cases access with
  | arguments =>
    refine .any ((slots_advances hi _ hts).bind fun _ _ _ => ?_)
    exact Advance.limit.bind fun _ _ _ => .pure
  | name => exact .any Advance.identifier.map
  | key =>
    refine .any ((hi .expression ts hts).bind fun key rest h => ?_)
    exact .any (Advance.expect.bind fun _ _ _ => .pure)

theorem accessRound_contracts : Contracts 0 (accessRound inner) (accessRound inner') k := by
  intro again again' e ts hts ha
  refine .take?_bind (Nat.zero_le 1) .pure fun access line rest h => ?_
  exact (accessOf_advances hi e access line (by omega)).bind fun e rest h₁ => ha e rest (by omega)

theorem call_advances (hts : ts.length ≤ k) : Advance 1 (call inner) (call inner') ts := by
  have hloop := (accessRound_contracts hi).repeated (accessFrom inner) (accessFrom inner')
    (fun _ => accessFrom_succ) (fun _ => accessFrom_succ) fun _ _ => .pure
  refine (primary_advances hi hts).bind fun e rest h => .bounded ?_
  exact hloop _ e rest (by omega)

theorem creation_advances (hts : ts.length ≤ k) : Advance 1 (creation inner) (creation inner') ts :=
  .take?_bind (Nat.le_refl 1) (call_advances hi hts) fun _ _ rest h =>
    (call_advances hi (by omega)).any.map

theorem trailing_advances (hts : ts.length ≤ k) : Advance 1 (trailing inner) (trailing inner') ts :=
  (creation_advances hi hts).bind fun _ _ _ =>
    .take?_bind (Nat.zero_le 1) .pure fun _ _ _ _ => .pure

theorem unary_advances (hts : ts.length ≤ k) : Advance 1 (unary inner) (unary inner') ts :=
  .take?_bind (Nat.le_refl 1) (trailing_advances hi hts) fun _ _ rest h =>
    (hi .unary rest (by omega)).any.map

theorem exponent_advances (hts : ts.length ≤ k) : Advance 1 (exponent inner) (exponent inner') ts :=
  (unary_advances hi hts).bind fun e rest h =>
    .take?_bind (Nat.zero_le 1) .pure fun _ _ rest h₁ => (hi .exponent rest (by omega)).any.map

end

section chains

variable {k : Nat} {op : Type} {operand operand' : Parse Expr} {select : Symbol → Option op}
  {join : op → Expr → Expr → Nat → Expr} {ts : List Lexeme}
  (ho : ∀ ts, ts.length ≤ k → Advance 1 operand operand' ts)

include ho

theorem chainRound_contracts :
    Contracts 0 (chainRound operand select join) (chainRound operand' select join) k := by
  intro again again' left ts hts ha
  refine .take?_bind (Nat.zero_le 1) .pure fun o line rest h => ?_
  exact .any ((ho rest (by omega)).bind fun right rest h₁ => ha _ rest (by omega))

theorem chain_advances (hts : ts.length ≤ k) :
    Advance 1 (chain operand select join) (chain operand' select join) ts := by
  have hround : Contracts 0 (chainRound operand select join) (chainRound operand' select join) k :=
    chainRound_contracts ho
  have hloop := hround.repeated (chainFrom operand select join) (chainFrom operand' select join)
    (fun _ => rfl) (fun _ => rfl) fun _ _ => .pure
  refine (ho ts hts).bind fun left rest h => .bounded ?_
  exact hloop _ left rest (by omega)

end chains

section

variable {k : Nat} {inner inner' : Inner} {ts : List Lexeme} (hi : InnerAdvances k inner inner')

include hi

theorem levelParser_advances (level : Level) (hts : ts.length ≤ k) :
    Advance 1 (levelParser inner level) (levelParser inner' level) ts := by
  have multiplicative (ts : List Lexeme) (h : ts.length ≤ k) :
      Advance 1 (multiplicative inner) (multiplicative inner') ts :=
    chain_advances (fun _ => exponent_advances hi) h
  have additive (ts : List Lexeme) (h : ts.length ≤ k) :
      Advance 1 (additive inner) (additive inner') ts := chain_advances multiplicative h
  have shift (ts : List Lexeme) (h : ts.length ≤ k) :
      Advance 1 (shift inner) (shift inner') ts := chain_advances additive h
  have relational (ts : List Lexeme) (h : ts.length ≤ k) :
      Advance 1 (relational inner) (relational inner') ts := chain_advances shift h
  have equality (ts : List Lexeme) (h : ts.length ≤ k) :
      Advance 1 (equality inner) (equality inner') ts := chain_advances relational h
  have bitAnd (ts : List Lexeme) (h : ts.length ≤ k) :
      Advance 1 (bitAnd inner) (bitAnd inner') ts := chain_advances equality h
  have bitXor (ts : List Lexeme) (h : ts.length ≤ k) :
      Advance 1 (bitXor inner) (bitXor inner') ts := chain_advances bitAnd h
  have bitOr (ts : List Lexeme) (h : ts.length ≤ k) :
      Advance 1 (bitOr inner) (bitOr inner') ts := chain_advances bitXor h
  have logicalAnd (ts : List Lexeme) (h : ts.length ≤ k) :
      Advance 1 (logicalAnd inner) (logicalAnd inner') ts := chain_advances bitOr h
  have logicalOr (ts : List Lexeme) (h : ts.length ≤ k) :
      Advance 1 (logicalOr inner) (logicalOr inner') ts := chain_advances logicalAnd h
  cases level with
  | assignment =>
    refine (logicalOr ts hts).bind fun target rest h => ?_
    refine .take?_bind (Nat.zero_le 1) .pure fun op line rest h₁ => ?_
    dsimp only
    split
    · exact .fail
    · exact (hi .expression rest (by omega)).any.map
  | logicalOr => exact logicalOr ts hts
  | logicalAnd => exact logicalAnd ts hts
  | bitOr => exact bitOr ts hts
  | bitXor => exact bitXor ts hts
  | bitAnd => exact bitAnd ts hts
  | equality => exact equality ts hts
  | relational => exact relational ts hts
  | shift => exact shift ts hts
  | additive => exact additive ts hts
  | multiplicative => exact multiplicative ts hts
  | exponent => exact exponent_advances hi hts
  | unary => exact unary_advances hi hts
  | trailing => exact trailing_advances hi hts
  | creation => exact creation_advances hi hts
  | call => exact call_advances hi hts
  | primary => exact primary_advances hi hts

theorem variableDecl_advances (hts : ts.length ≤ k) :
    Advance 1 (variableDecl inner) (variableDecl inner') ts := by
  refine Advance.expect.bind fun _ rest h => .any (Advance.identifier.bind fun name rest h₁ => ?_)
  exact (initial_advances hi (by omega)).map

theorem condition_advances (opening : Expected) (hts : ts.length ≤ k) :
    Advance 1 (condition inner opening) (condition inner' opening) ts := by
  refine Advance.expect.bind fun _ rest h => ?_
  refine .any ((hi .expression rest (by omega)).bind fun e rest h₁ => ?_)
  exact .any Advance.expect.map

theorem clause_advances (closing : Symbol) (hts : ts.length < k) :
    Advance 0 (clause inner closing) (clause inner' closing) ts := by
  refine Advance.sees.bind fun ends rest h => ?_
  split
  · exact .pure
  · exact (hi .expression rest (by omega)).any.fmap

theorem forInitial_advances (hts : ts.length < k) :
    Advance 0 (forInitial inner) (forInitial inner') ts := by
  refine Advance.sees.bind fun declares rest h => ?_
  split
  · exact (variableDecl_advances hi (by omega)).any.fmap
  · exact (clause_advances hi _ (by omega)).map

theorem forRest_advances (line : Nat) (hts : ts.length ≤ k) :
    Advance 1 (forRest inner line) (forRest inner' line) ts := by
  refine Advance.expect.bind fun _ rest h => ?_
  refine (forInitial_advances hi (by omega)).bind fun _ rest h₁ => ?_
  refine .any (Advance.expect.bind fun _ rest h₂ => ?_)
  refine (clause_advances hi _ (by omega)).bind fun _ rest h₃ => ?_
  refine .any (Advance.expect.bind fun _ rest h₄ => ?_)
  refine (clause_advances hi _ (by omega)).bind fun _ rest h₅ => ?_
  refine .any (Advance.expect.bind fun _ rest h₆ => ?_)
  exact (hi .statement rest (by omega)).any.map

theorem ifRest_advances (line : Nat) (hts : ts.length ≤ k) :
    Advance 1 (ifRest inner line) (ifRest inner' line) ts := by
  refine (condition_advances hi _ hts).bind fun c rest h => ?_
  refine .any ((hi .statement rest (by omega)).bind fun yes rest h₁ => ?_)
  refine Advance.map (.after fun rest h₂ => ?_)
  exact (hi .statement rest (by omega)).any

theorem whileRest_advances (line : Nat) (hts : ts.length ≤ k) :
    Advance 1 (whileRest inner line) (whileRest inner' line) ts :=
  (condition_advances hi _ hts).bind fun _ rest h => (hi .statement rest (by omega)).any.map

theorem doRest_advances (line : Nat) (hts : ts.length < k) :
    Advance 1 (doRest inner line) (doRest inner' line) ts := by
  refine (hi .statement ts hts).bind fun body rest h => ?_
  refine .any (Advance.expect.bind fun _ rest h₁ => ?_)
  refine .any ((condition_advances hi _ (by omega)).bind fun c rest h₂ => ?_)
  exact Advance.accept.bind fun _ _ _ => .pure

theorem returnRest_advances (line : Nat) (hts : ts.length < k) :
    Advance 0 (returnRest inner line) (returnRest inner' line) ts := by
  refine Advance.atEnd.bind fun _ rest h => Advance.sees.bind fun _ rest h₁ => ?_
  refine Advance.sees.bind fun _ rest h₂ => ?_
  split
  · exact Advance.accept.bind fun _ _ _ => .pure
  · refine .any ((hi .expression rest (by omega)).bind fun value rest h₃ => ?_)
    exact Advance.accept.bind fun _ _ _ => .pure

theorem expressionStatement_advances (hts : ts.length ≤ k) :
    Advance 1 (expressionStatement inner) (expressionStatement inner') ts := by
  refine Advance.get.bind_then fun ts' rest h => ?_
  refine (levelParser_advances hi .assignment (by omega)).bind fun e rest h₁ => ?_
  exact Advance.accept.bind fun _ _ _ => .pure

theorem statement_advances (hts : ts.length ≤ k) :
    Advance 1 (statement inner) (statement inner') ts := by
  rw [statement_eq, statement_eq]
  refine .take?_bind (Nat.le_refl 1) (expressionStatement_advances hi hts) ?_
  intro opening line rest h
  cases opening with
  | block => exact (block_advances hi (by omega)).any.map
  | branch => exact (ifRest_advances hi line (by omega)).any
  | loop => exact (whileRest_advances hi line (by omega)).any
  | forLoop => exact (forRest_advances hi line (by omega)).any
  | doLoop => exact (doRest_advances hi line (by omega)).any
  | «return» => exact returnRest_advances hi line (by omega)

theorem declaration_advances (hts : ts.length ≤ k) :
    Advance 1 (declaration inner) (declaration inner') ts := by
  refine .of_runs (declaration_run ts) (declaration_run ts) (List.suffix_refl ts) (Nat.le_refl _) ?_
  split
  · exact (variableDecl_advances hi hts).bind fun _ _ _ => Advance.accept.bind fun _ _ _ => .pure
  · next line name line' rest =>
    rw [List.length_cons, List.length_cons] at hts
    have hrest : Advance 1 (functionRest inner (some name) line) (functionRest inner' (some name) line)
        rest := functionRest_advances hi _ _ (by omega)
    exact .of_runs (by rfl) (by rfl) ⟨[_, _], rfl⟩ (Nat.le_succ _) hrest.any.map
  · next line name line' rest =>
    rw [List.length_cons, List.length_cons] at hts
    have hrest : Advance 1 (classRest inner (some name) line) (classRest inner' (some name) line)
        rest := classRest_advances hi _ _ (by omega)
    exact .of_runs (by rfl) (by rfl) ⟨[_, _], rfl⟩ (Nat.le_succ _) hrest.any.map
  · exact statement_advances hi hts

theorem rules_advance (g : Nonterminal) (hts : ts.length ≤ k) :
    Advance 1 (rules inner g) (rules inner' g) ts := by
  cases g with
  | expression => exact levelParser_advances hi .assignment hts
  | unary => exact unary_advances hi hts
  | exponent => exact exponent_advances hi hts
  | statement => exact statement_advances hi hts
  | declaration => exact declaration_advances hi hts

end

theorem nested_succ (n : Nat) : nested (n + 1) = rules (nested n) := by
  funext g
  cases g <;> rfl

theorem rules_contracts (k : Nat) : Contracts 1 rules rules k := by
  intro inner inner' g ts _ hi
  exact rules_advance hi g (Nat.le_refl _)

theorem rules_terminate : Terminates rules phrase := by
  refine Contracts.terminates (fun n => nested (n + 1)) rules_contracts (fun n => ?_) fun g => ?_
  · exact nested_succ (n + 1)
  · have hstarved : nested (1 + 1) g [] = .error endOfInput := nested_starved _ g
    rw [nested_succ 1] at hstarved
    rw [hstarved]
    exact nested_starved 1 g

theorem phrase_advances (k : Nat) : InnerAdvances k phrase phrase := by
  intro g ts _
  have hiterate : Advance 1 ((rules^[ts.length + 1] phrase) g) ((rules^[ts.length + 1] phrase) g) ts :=
    Contracts.iterate rules_contracts (Nat.lt_succ_self _) (Nat.lt_succ_self _)
  rwa [Function.iterate_fixed rules_terminate.solves] at hiterate

theorem phrase_starved (g : Nonterminal) : phrase g [] = .error endOfInput := nested_starved 1 g

inductive Rule
  | level (level : Level)
  | slots (closing : Symbol)
  | entries | parameters | block
  | functionRest (name : Option String) (line : Nat)
  | classRest (name : Option String) (line : Nat)
  | member | variableDecl
  | condition (opening : Expected)
  | ifRest (line : Nat)
  | whileRest (line : Nat)
  | forRest (line : Nat)
  | doRest (line : Nat)
  | statement | declaration

abbrev Rule.Tree : Rule → Type
  | level _ | condition _ => Expr
  | slots _ => List (Option Expr)
  | entries => List (String × Expr)
  | parameters => List String
  | block => List Stmt
  | functionRest _ _ => FunctionDecl
  | classRest _ _ => ClassDecl
  | member => ClassMember
  | variableDecl | ifRest _ | whileRest _ | forRest _ | doRest _ | statement | declaration => Stmt

def Rule.parse : (r : Rule) → Parse r.Tree
  | level l => levelParser phrase l
  | slots closing => Grammar.slots phrase closing
  | entries => Grammar.entries phrase
  | parameters => Grammar.parameters
  | block => Grammar.block phrase
  | functionRest name line => Grammar.functionRest phrase name line
  | classRest name line => Grammar.classRest phrase name line
  | member => Grammar.member phrase
  | variableDecl => Grammar.variableDecl phrase
  | condition opening => Grammar.condition phrase opening
  | ifRest line => Grammar.ifRest phrase line
  | whileRest line => Grammar.whileRest phrase line
  | forRest line => Grammar.forRest phrase line
  | doRest line => Grammar.doRest phrase line
  | statement => Grammar.statement phrase
  | declaration => Grammar.declaration phrase

theorem Rule.advances (r : Rule) (ts : List Lexeme) : Advance 1 r.parse r.parse ts := by
  have hi := phrase_advances (ts.length + 1)
  have hlt := Nat.lt_succ_self ts.length
  have hle := Nat.le_of_lt hlt
  cases r with
  | level l => exact levelParser_advances hi l hle
  | slots closing => exact slots_advances hi closing hlt
  | entries => exact entries_advances hi hlt
  | parameters => exact parameters_advances
  | block => exact block_advances hi hlt
  | functionRest name line => exact functionRest_advances hi name line hle
  | classRest name line => exact classRest_advances hi name line hle
  | member => exact member_advances hi hle
  | variableDecl => exact variableDecl_advances hi hle
  | condition opening => exact condition_advances hi opening hle
  | ifRest line => exact ifRest_advances hi line hle
  | whileRest line => exact whileRest_advances hi line hle
  | forRest line => exact forRest_advances hi line hle
  | doRest line => exact doRest_advances hi line hlt
  | statement => exact statement_advances hi hle
  | declaration => exact declaration_advances hi hle

theorem programRound_contracts (k : Nat) : Contracts 0 (alone programRound) (alone programRound) k := by
  intro again again' s ts hts ha
  refine Advance.skipSemicolons.bind_then fun _ rest h => Advance.atEnd.bind fun ended rest h₁ => ?_
  split
  · exact .pure
  · refine .any ((phrase_advances (rest.length + 1) .declaration rest (Nat.lt_succ_self _)).bind ?_)
    exact fun first rest h₂ => (ha () rest (by omega)).map

section loops

theorem slotsFrom_starved {inner : Inner} (hi : inner .expression [] = .error endOfInput)
    (closing : Symbol) (n : Nat) : slotsFrom inner closing n [] = .error endOfInput := by
  cases n with
  | zero => rfl
  | succ n =>
    rw [slotsFrom, slotsRound, bind_run accept_nil]
    exact (bind_run accept_nil).trans (bind_error hi)

theorem slots_terminate (closing : Symbol) :
    Terminates (alone (slotsRound phrase closing)) fun _ => slots phrase closing := by
  refine Contracts.terminates (fun n _ => slotsFrom phrase closing n)
    (fun k => slotsRound_contracts (phrase_advances k) closing) (fun _ => rfl) fun _ => ?_
  have hstarved := slotsFrom_starved (phrase_starved .expression) closing
  exact (hstarved 0).trans (hstarved 1).symm

theorem entries_terminate : Terminates (alone (entriesRound phrase)) fun _ => entries phrase :=
  Contracts.terminates (fun n _ => entriesFrom phrase n)
    (fun k => entriesRound_contracts (phrase_advances k)) (fun _ => rfl) fun _ => rfl

theorem names_terminate : Terminates (alone namesRound) fun _ => bounded namesFrom :=
  Contracts.terminates (fun n _ => namesFrom n) namesRound_contracts (fun _ => rfl) fun _ => rfl

theorem block_terminates : Terminates (alone (statementsRound phrase)) fun _ => block phrase := by
  refine Contracts.terminates (fun n _ => statementsFrom phrase (n + 1))
    (fun k => statementsRound_contracts (phrase_advances k)) (fun _ => rfl) fun _ => ?_
  have hstarved := statementsFrom_starved (phrase_starved .declaration)
  exact (hstarved 1).trans (hstarved 2).symm

theorem members_terminate :
    Terminates (alone (membersRound phrase)) fun _ => bounded fun n => membersFrom phrase (n + 1) := by
  refine Contracts.terminates (fun n _ => membersFrom phrase (n + 1))
    (fun k => membersRound_contracts (phrase_advances k)) (fun _ => rfl) fun _ => ?_
  exact (membersFrom_starved 1).trans (membersFrom_starved 2).symm

theorem access_terminates :
    Terminates (accessRound phrase) fun e => bounded fun n => accessFrom phrase n e :=
  Contracts.terminates (accessFrom phrase) (fun k => accessRound_contracts (phrase_advances k))
    (fun _ => accessFrom_succ) fun _ => rfl

theorem chain_terminates {op : Type} (level : Level) (select : Symbol → Option op)
    (join : op → Expr → Expr → Nat → Expr) :
    Terminates (chainRound (levelParser phrase level) select join) fun left =>
      bounded fun n => chainFrom (levelParser phrase level) select join n left :=
  Contracts.terminates (chainFrom (levelParser phrase level) select join)
    (fun k => chainRound_contracts fun _ h => levelParser_advances (phrase_advances k) level h)
    (fun _ => rfl) fun _ => rfl

theorem program_terminates : Terminates (alone programRound) fun _ => bounded programFrom :=
  Contracts.terminates (fun n _ => programFrom n) programRound_contracts (fun _ => rfl) fun _ => rfl

end loops

/-- Each function of the parser leaves a later part of its lexemes, and fewer of them, if it succeeds. The
recursion between them ends on all lexemes, and so does each loop; so the rules determine the parser. -/
theorem parser_progress :
    (∀ (r : Rule) (ts : List Lexeme) (a : r.Tree) (rest : List Lexeme),
      r.parse ts = .ok (a, rest) → rest <:+ ts ∧ rest.length < ts.length) ∧
    Terminates rules phrase ∧ (∀ inner, rules inner = inner → inner = phrase) ∧
    (∀ closing, Terminates (alone (slotsRound phrase closing)) fun _ => slots phrase closing) ∧
    Terminates (alone (entriesRound phrase)) (fun _ => entries phrase) ∧
    Terminates (alone namesRound) (fun _ => bounded namesFrom) ∧
    Terminates (alone (statementsRound phrase)) (fun _ => block phrase) ∧
    Terminates (alone (membersRound phrase)) (fun _ => bounded fun n => membersFrom phrase (n + 1)) ∧
    Terminates (accessRound phrase) (fun e => bounded fun n => accessFrom phrase n e) ∧
    (∀ (op : Type) (level : Level) (select : Symbol → Option op) (join : op → Expr → Expr → Nat → Expr),
      Terminates (chainRound (levelParser phrase level) select join) fun left =>
        bounded fun n => chainFrom (levelParser phrase level) select join n left) ∧
    Terminates (alone programRound) fun _ => bounded programFrom :=
  ⟨fun r ts a rest h => (r.advances ts).takes a rest h, rules_terminate,
    fun _ h => rules_terminate.unique h, slots_terminate, entries_terminate, names_terminate,
    block_terminates, members_terminate, access_terminates, fun _ => chain_terminates,
    program_terminates⟩

theorem parser_progress_call :
    let ts : List Lexeme := [⟨.name "f", 1⟩, ⟨.symbol .leftParen, 1⟩, ⟨.symbol .rightParen, 1⟩,
      ⟨.symbol .semicolon, 2⟩]
    (Rule.level .call).parse ts = .ok (.call (.name "f" 1) [] 1, [⟨.symbol .semicolon, 2⟩]) ∧
      [⟨.symbol .semicolon, 2⟩] <:+ ts ∧ 1 < ts.length := by
  intro ts
  have hcall : (Rule.level .call).parse ts =
      .ok (.call (.name "f" 1) [] 1, [⟨.symbol .semicolon, 2⟩]) := rfl
  exact ⟨hcall, parser_progress.1 _ ts _ _ hcall⟩

end Scriptlet.Grammar
