import Scriptlet.Grammar.Expression
import Scriptlet.Syntax.Sugar

namespace Scriptlet.Grammar

open Parse

def variableDecl (inner : Inner) : Parse Stmt := do
  let line ← expect (.keyword .var) .declaration
  let name ← identifier
  let initial ← after (.symbol .assign) (inner .expression)
  return .declare name initial line

def condition (inner : Inner) (opening : Expected) : Parse Expr := do
  let _ ← expect (.symbol .leftParen) opening
  let e ← inner .expression
  let _ ← expect (.symbol .rightParen) .endOfCondition
  return e

def clause (inner : Inner) (closing : Symbol) : Parse (Option Expr) := do
  if ← sees (.symbol closing) then return none
  some <$> inner .expression

def forInitial (inner : Inner) : Parse (Option Stmt) := do
  if ← sees (.keyword .var) then some <$> variableDecl inner
  else return (← clause inner .semicolon).map fun e => .expr e e.line

def forRest (inner : Inner) (line : Nat) : Parse Stmt := do
  let _ ← expect (.symbol .leftParen) .parenAfterFor
  let initial ← forInitial inner
  let _ ← expect (.symbol .semicolon) .endOfInitializer
  let condition ← clause inner .semicolon
  let _ ← expect (.symbol .semicolon) .endOfLoopCondition
  let advance ← clause inner .rightParen
  let _ ← expect (.symbol .rightParen) .endOfForClauses
  let body ← inner .statement
  return .forLoop initial condition advance body line

def ifRest (inner : Inner) (line : Nat) : Parse Stmt := do
  let condition ← condition inner .parenAfterIf
  let yes ← inner .statement
  let no ← after (.keyword .«else») (inner .statement)
  return .branch condition yes no line

def whileRest (inner : Inner) (line : Nat) : Parse Stmt := do
  let condition ← condition inner .parenAfterWhile
  let body ← inner .statement
  return .loop condition body line

def doRest (inner : Inner) (line : Nat) : Parse Stmt := do
  let body ← inner .statement
  let _ ← expect (.keyword .«while») .whileAfterBody
  let condition ← condition inner .parenAfterWhile
  let _ ← accept (.symbol .semicolon)
  return .doWhile body condition line

def returnRest (inner : Inner) (line : Nat) : Parse Stmt := do
  if (← atEnd) || (← sees (.symbol .semicolon)) || (← sees (.symbol .rightBrace)) then
    let _ ← accept (.symbol .semicolon)
    return .«return» none line
  let value ← inner .expression
  let _ ← accept (.symbol .semicolon)
  return .«return» (some value) line

inductive Opening
  | block | branch | loop | forLoop | doLoop | «return»

def opening? : Token → Option Opening
  | .symbol .leftBrace => some .block
  | .keyword .«if» => some .branch
  | .keyword .«while» => some .loop
  | .keyword .«for» => some .forLoop
  | .keyword .«do» => some .doLoop
  | .keyword .«return» => some .«return»
  | _ => none

def expressionStatement (inner : Inner) : Parse Stmt := do
  let line := (← get).head?.elim 0 (·.line)
  let e ← assignment inner
  let _ ← accept (.symbol .semicolon)
  return .expr e line

def statement (inner : Inner) : Parse Stmt := do
  match ← take? opening? with
  | some (.block, line) => return .block (← block inner) line
  | some (.branch, line) => ifRest inner line
  | some (.loop, line) => whileRest inner line
  | some (.forLoop, line) => forRest inner line
  | some (.doLoop, line) => doRest inner line
  | some (.«return», line) => returnRest inner line
  | none => expressionStatement inner

def declaration (inner : Inner) : Parse Stmt := do
  match ← get with
  | ⟨.keyword .var, _⟩ :: _ =>
    let declared ← variableDecl inner
    let _ ← accept (.symbol .semicolon)
    return declared
  | ⟨.keyword .function, line⟩ :: ⟨.name name, _⟩ :: rest =>
    set rest
    return .function (← functionRest inner (some name) line)
  | ⟨.keyword .«class», line⟩ :: ⟨.name name, _⟩ :: rest =>
    set rest
    return .classDecl (← classRest inner (some name) line)
  | _ => statement inner

/-- The grammar, tied to itself for input of fewer than `n` lexemes. -/
def nested : Nat → Inner
  | 0, _ => throw endOfInput
  | n + 1, .expression => assignment (nested n)
  | n + 1, .unary => unary (nested n)
  | n + 1, .exponent => exponent (nested n)
  | n + 1, .statement => statement (nested n)
  | n + 1, .declaration => declaration (nested n)

def phrase (g : Nonterminal) : Parse g.Tree :=
  bounded fun n => nested (n + 1) g

def programRound (again : Parse (List Stmt)) : Parse (List Stmt) := do
  skipSemicolons
  if ← atEnd then return []
  let first ← phrase .declaration
  return first :: (← again)

def programFrom : Nat → Parse (List Stmt)
  | 0 => return []
  | n + 1 => programRound (programFrom n)

/-- A whole program. What ends too early is reported on the line of the last lexeme. -/
def program (lexemes : List Lexeme) : Except SyntaxError (List Stmt) :=
  match (bounded programFrom).run lexemes with
  | .ok (statements, _) => .ok statements
  | .error e => .error (e.located (lexemes.getLast?.elim 1 (·.line)))

end Scriptlet.Grammar
