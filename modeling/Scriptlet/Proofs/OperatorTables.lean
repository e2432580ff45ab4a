import Scriptlet.Grammar.Operator
import Scriptlet.Proofs.ExpressionGrammar

namespace Scriptlet

theorem Symbol.longest_spelling (s : Symbol) : Symbol.longest? s.spelling.toList = some s := by
  cases s <;> rfl

theorem Symbol.spelling_inj {s t : Symbol} (h : s.spelling = t.spelling) : s = t := by
  have hs := s.longest_spelling
  rw [h, t.longest_spelling] at hs
  exact (Option.some.inj hs).symm

def Operator.symbol : Operator → Symbol
  | binary (.arithmetic .add) => .plus
  | binary (.arithmetic .sub) => .minus
  | binary (.arithmetic .mul) => .star
  | binary (.arithmetic .div) => .slash
  | binary (.arithmetic .mod) => .percent
  | binary (.arithmetic .pow) => .starStar
  | binary (.bitwise .and) => .and
  | binary (.bitwise .or) => .or
  | binary (.bitwise .xor) => .caret
  | binary (.bitwise .shiftLeft) => .shiftLeft
  | binary (.bitwise .shiftRight) => .shiftRight
  | binary (.bitwise .shiftRightZero) => .shiftRightZero
  | binary (.equality .equal) => .equal
  | binary (.equality .notEqual) => .notEqual
  | binary (.equality .strictEqual) => .strictEqual
  | binary (.equality .strictNotEqual) => .strictNotEqual
  | binary (.order .less) => .less
  | binary (.order .lessEqual) => .lessEqual
  | binary (.order .greater) => .greater
  | binary (.order .greaterEqual) => .greaterEqual
  | logical .and => .andAnd
  | logical .or => .orOr

theorem Operator.spelling_symbol (op : Operator) : op.symbol.spelling = op.spelling := by
  rcases op with (op | op | op | op) | op <;> cases op <;> rfl

theorem Operator.eq_symbol {op : Operator} {s : Symbol} : s.spelling = op.spelling ↔ s = op.symbol := by
  rw [← op.spelling_symbol]
  exact ⟨Symbol.spelling_inj, congrArg _⟩

namespace Level

def read? : Level → Symbol → Option Operator
  | logicalOr, s => s.logicalOr?.map .logical
  | logicalAnd, s => s.logicalAnd?.map .logical
  | bitOr, s => s.bitOr?.map .binary
  | bitXor, s => s.bitXor?.map .binary
  | bitAnd, s => s.bitAnd?.map .binary
  | equality, s => s.equality?.map .binary
  | relational, s => s.relational?.map .binary
  | shift, s => s.shift?.map .binary
  | additive, s => s.additive?.map .binary
  | multiplicative, s => s.multiplicative?.map .binary
  | exponent, s => s.power?.map .binary
  | _, _ => none

theorem read?_eq_some {level : Level} {s : Symbol} {op : Operator} :
    level.read? s = some op ↔ op.level = level ∧ s.spelling = op.spelling := by
  rw [Operator.eq_symbol]
  constructor
  · intro h
    cases level <;> cases s <;> cases h <;> exact ⟨rfl, rfl⟩
  · rintro ⟨rfl, rfl⟩
    rcases op with (op | op | op | op) | op <;> cases op <;> rfl

end Level

def Operator.assignment : Operator → AssignOp
  | binary op => .binary op
  | logical op => .logical op

theorem Operator.assignment?_of_compounds {op : Operator} (h : op.compounds) :
    ∃ s : Symbol, s.spelling = op.spelling ++ "=" ∧ s.assignment? = some op.assignment := by
  refine ⟨(Symbol.longest? (op.spelling ++ "=").toList).getD .assign, ?_⟩
  rcases op with (op | op | op | op) | op <;> cases op <;>
    first | exact ⟨rfl, rfl⟩ | exact absurd h (by decide)

theorem Operator.compounds_of_assignment? {op : Operator} {s : Symbol}
    (h : s.assignment? = some op.assignment) : op.compounds ∧ s.spelling = op.spelling ++ "=" := by
  cases op <;> cases s <;> cases h <;> exact ⟨rfl, rfl⟩

theorem assigned_iff {target right value : Expr} {line : Nat} {s : Symbol} :
    Assigned target right line s value ↔
      ∃ op : AssignOp, s.assignment? = some op ∧ op.value target right line = value := by
  constructor
  · intro h
    cases h with
    | plain => exact ⟨.plain, rfl, rfl⟩
    | @compound op s hc hs =>
      obtain ⟨t, ht, ho⟩ := op.assignment?_of_compounds hc
      obtain rfl := Symbol.spelling_inj (hs.trans ht.symm)
      exact ⟨op.assignment, ho, by cases op <;> rfl⟩
  · rintro ⟨op, ho, rfl⟩
    cases op with
    | plain =>
      obtain rfl : s = .assign := by cases s <;> cases ho; rfl
      exact .plain
    | binary op =>
      have h : s.assignment? = some (Operator.binary op).assignment := ho
      obtain ⟨hc, hs⟩ := Operator.compounds_of_assignment? h
      exact .compound hc hs
    | logical op =>
      have h : s.assignment? = some (Operator.logical op).assignment := ho
      obtain ⟨hc, hs⟩ := Operator.compounds_of_assignment? h
      exact .compound hc hs

theorem Symbol.unary?_eq_some {s : Symbol} {op : UnaryOp} :
    s.unary? = some op ↔ s.spelling = op.spelling := by
  constructor
  · intro h
    cases s <;> cases h <;> rfl
  · intro h
    obtain ⟨t, ht, ho⟩ : ∃ t : Symbol, t.spelling = op.spelling ∧ t.unary? = some op := by
      refine ⟨(Symbol.longest? op.spelling.toList).getD .plus, ?_⟩
      rcases op with _ | _ | _ | _ | op
      all_goals first | exact ⟨rfl, rfl⟩ | (cases op <;> exact ⟨rfl, rfl⟩)
    rw [Symbol.spelling_inj (h.trans ht.symm), ho]

theorem Symbol.trailing?_eq_some {s : Symbol} {op : UnaryOp} :
    s.trailing? = some op ↔ ∃ step : Step, op = .step step ∧ s.spelling = step.spelling := by
  constructor
  · intro h
    cases s <;> cases h <;> exact ⟨_, rfl, rfl⟩
  · rintro ⟨step, rfl, h⟩
    have hu : s.unary? = some (.step step) := unary?_eq_some.mpr h
    cases s <;> cases hu <;> rfl

end Scriptlet
