import Scriptlet.Grammar.Operator
import Scriptlet.Grammar.Parse
import Scriptlet.Syntax.Printer

namespace Scriptlet

inductive Nonterminal
  | expression | unary | exponent | statement | declaration
  deriving DecidableEq, Repr

abbrev Nonterminal.Tree : Nonterminal → Type
  | expression | unary | exponent => Expr
  | statement | declaration => Stmt

abbrev Inner := (g : Nonterminal) → Parse g.Tree

namespace Grammar

open Parse

/-- One round of the loop over the items of an argument list or an array, where `again` is the loop
itself; a comma with no expression before it leaves an empty slot, and a comma before the closing symbol
none. -/
def slotsRound (inner : Inner) (closing : Symbol) (again : Parse (List (Option Expr))) :
    Parse (List (Option Expr)) := do
  if ← accept (.symbol closing) then return []
  if ← accept (.symbol .comma) then return none :: (← again)
  let item ← inner .expression
  if ← separator closing then return some item :: (← again)
  else return [some item]

def slotsFrom (inner : Inner) (closing : Symbol) : Nat → Parse (List (Option Expr))
  | 0 => throw endOfInput
  | n + 1 => slotsRound inner closing (slotsFrom inner closing n)

def slots (inner : Inner) (closing : Symbol) : Parse (List (Option Expr)) :=
  bounded (slotsFrom inner closing)

def propertyName? : Token → Option String
  | .name s => some s
  | .text s => some s
  | _ => none

def entriesRound (inner : Inner) (again : Parse (List (String × Expr))) :
    Parse (List (String × Expr)) := do
  if ← accept (.symbol .rightBrace) then return []
  let (key, _) ← require propertyName? .propertyName
  let _ ← expect (.symbol .colon) .colon
  let value ← inner .expression
  if ← accept (.symbol .comma) then return (key, value) :: (← again)
  let _ ← expect (.symbol .rightBrace) .endOfObject
  return [(key, value)]

def entriesFrom (inner : Inner) : Nat → Parse (List (String × Expr))
  | 0 => throw endOfInput
  | n + 1 => entriesRound inner (entriesFrom inner n)

def entries (inner : Inner) : Parse (List (String × Expr)) :=
  bounded (entriesFrom inner)

def namesRound (again : Parse (List String)) : Parse (List String) := do
  let name ← identifier
  if ← separator .rightParen then return name :: (← again)
  else return [name]

def namesFrom : Nat → Parse (List String)
  | 0 => throw endOfInput
  | n + 1 => namesRound (namesFrom n)

def parameters : Parse (List String) := do
  if ← accept (.symbol .rightParen) then return []
  bounded namesFrom

def statementsRound (inner : Inner) (again : Parse (List Stmt)) : Parse (List Stmt) := do
  skipSemicolons
  if ← accept (.symbol .rightBrace) then return []
  let first ← inner .declaration
  return first :: (← again)

def statementsFrom (inner : Inner) : Nat → Parse (List Stmt)
  | 0 => throw endOfInput
  | n + 1 => statementsRound inner (statementsFrom inner n)

def block (inner : Inner) : Parse (List Stmt) :=
  bounded fun n => statementsFrom inner (n + 1)

def functionRest (inner : Inner) (name : Option String) (line : Nat) : Parse FunctionDecl := do
  let _ ← expect (.symbol .leftParen) .parenBeforeParameters
  let params ← parameters
  limit params.length .tooManyParameters line
  let _ ← expect (.symbol .leftBrace) .braceBeforeFunction
  let body ← block inner
  return { name, params, body, line }

def member (inner : Inner) : Parse ClassMember := do
  let isStatic ← accept (.keyword .static)
  let (name, line) ← require nameOf .identifier
  if ← sees (.symbol .leftParen) then
    return .method isStatic (← functionRest inner (some name) line)
  let initial ← after (.symbol .assign) (inner .expression)
  let _ ← accept (.symbol .semicolon)
  return .field isStatic name initial line

def membersRound (inner : Inner) (again : Parse (List ClassMember)) : Parse (List ClassMember) := do
  skipSemicolons
  if ← accept (.symbol .rightBrace) then return []
  let first ← member inner
  return first :: (← again)

def membersFrom (inner : Inner) : Nat → Parse (List ClassMember)
  | 0 => throw endOfInput
  | n + 1 => membersRound inner (membersFrom inner n)

def classRest (inner : Inner) (name : Option String) (line : Nat) : Parse ClassDecl := do
  let _ ← expect (.symbol .leftBrace) .braceBeforeClass
  let members ← bounded fun n => membersFrom inner (n + 1)
  return { name, members, line }

def primary (inner : Inner) : Parse Expr := do
  let ⟨token, line⟩ ← next
  match token with
  | .integer n => return .literal (.integer n) line
  | .real x => return .literal (.real x) line
  | .text s => return .literal (.text s) line
  | .boolean b => return .literal (.boolean b) line
  | .keyword .null => return .literal .null line
  | .name name => return .name name line
  | .keyword .this => return .name "this" line
  | .symbol .leftParen =>
    let e ← inner .expression
    let _ ← expect (.symbol .rightParen) .endOfGroup
    return .group e line
  | .symbol .leftBracket => return .array (← slots inner .rightBracket) line
  | .symbol .leftBrace => return .object (← entries inner) line
  | .keyword .function =>
    let name ← take? nameOf
    return .function (← functionRest inner (name.map (·.1)) line)
  | .keyword .«class» =>
    let name ← take? nameOf
    return .classExpr (← classRest inner (name.map (·.1)) line)
  | token => fail (.unexpected token) line

inductive Access
  | arguments | name | key

def access? : Token → Option Access
  | .symbol .leftParen => some .arguments
  | .symbol .dot => some .name
  | .symbol .leftBracket => some .key
  | _ => none

def accessFrom (inner : Inner) : Nat → Expr → Parse Expr
  | 0, e => return e
  | n + 1, e => do
    match ← take? access? with
    | none => return e
    | some (.arguments, line) =>
      let arguments ← slots inner .rightParen
      limit arguments.length .tooManyArguments line
      accessFrom inner n (.call e arguments line)
    | some (.name, line) => accessFrom inner n (.read e (.named (← identifier)) line)
    | some (.key, line) =>
      let key ← inner .expression
      let _ ← expect (.symbol .rightBracket) .endOfIndex
      accessFrom inner n (.read e (.computed key) line)

def call (inner : Inner) : Parse Expr := do
  let e ← primary inner
  bounded fun n => accessFrom inner n e

def creation (inner : Inner) : Parse Expr := do
  match ← take? (only (.keyword .new)) with
  | some (_, line) => return .new (← call inner) line
  | none => call inner

def trailing (inner : Inner) : Parse Expr := do
  let operand ← creation inner
  match ← take? (ofSymbol Symbol.trailing?) with
  | some (op, line) => return .trailing op operand line
  | none => return operand

def unary (inner : Inner) : Parse Expr := do
  match ← take? (ofSymbol Symbol.unary?) with
  | some (op, line) => return .unary op (← inner .unary) line
  | none => trailing inner

def exponent (inner : Inner) : Parse Expr := do
  let base ← unary inner
  match ← take? (ofSymbol Symbol.power?) with
  | some (op, line) => return .binary op base (← inner .exponent) line
  | none => return base

section chains

variable {op : Type} (operand : Parse Expr) (select : Symbol → Option op)
  (join : op → Expr → Expr → Nat → Expr)

def chainRound (again : Expr → Parse Expr) (left : Expr) : Parse Expr := do
  match ← take? (ofSymbol select) with
  | none => return left
  | some (o, line) => again (join o left (← operand) line)

def chainFrom : Nat → Expr → Parse Expr
  | 0, left => return left
  | n + 1, left => chainRound operand select join (chainFrom n) left

def chain : Parse Expr := do
  let left ← operand
  bounded fun n => chainFrom operand select join n left

end chains

def multiplicative (inner : Inner) : Parse Expr :=
  chain (exponent inner) Symbol.multiplicative? .binary

def additive (inner : Inner) : Parse Expr :=
  chain (multiplicative inner) Symbol.additive? .binary

def shift (inner : Inner) : Parse Expr :=
  chain (additive inner) Symbol.shift? .binary

def relational (inner : Inner) : Parse Expr :=
  chain (shift inner) Symbol.relational? .binary

def equality (inner : Inner) : Parse Expr :=
  chain (relational inner) Symbol.equality? .binary

def bitAnd (inner : Inner) : Parse Expr :=
  chain (equality inner) Symbol.bitAnd? .binary

def bitXor (inner : Inner) : Parse Expr :=
  chain (bitAnd inner) Symbol.bitXor? .binary

def bitOr (inner : Inner) : Parse Expr :=
  chain (bitXor inner) Symbol.bitOr? .binary

def logicalAnd (inner : Inner) : Parse Expr :=
  chain (bitOr inner) Symbol.logicalAnd? .logical

def logicalOr (inner : Inner) : Parse Expr :=
  chain (logicalAnd inner) Symbol.logicalOr? .logical

def assignment (inner : Inner) : Parse Expr := do
  let target ← logicalOr inner
  match ← take? (ofSymbol Symbol.assignment?) with
  | none => return target
  | some (op, line) =>
    match target.place? with
    | none => fail (.assignmentTarget target.render) line
    | some place =>
      let right ← inner .expression
      return place.store (op.value target right line) line

end Grammar
end Scriptlet
