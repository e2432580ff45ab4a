import Mathlib
import Scriptlet.Proofs.PropertyAssignment
import Scriptlet.Proofs.TreeEquality

namespace Scriptlet

variable {limits : Limits}

theorem reads_self {holder : Expr} {member : Member} {l : Nat} (hh : holder.every shaped)
    (hm : member.every shaped) : (Expr.read holder member l).reads holder member := by
  simp [Expr.reads, holder.alike_self hh, member.alike_self hm]

theorem assignment_compound {inner : Inner} {ts us rest : List Lexeme} {holder : Expr}
    {member : Member} {l line : Nat} {s : Symbol} {op : Operator} {right : Expr}
    (htarget : Grammar.logicalOr inner ts = .ok (.read holder member l, ⟨.symbol s, line⟩ :: us))
    (hs : s.assignment? = some op.assignment) (hright : inner .expression us = .ok (right, rest)) :
    Grammar.assignment inner ts =
      .ok (.write holder member (op.join (.read holder member l) right line) line, rest) := by
  have htake : Parse.take? (Parse.ofSymbol Symbol.assignment?) (⟨.symbol s, line⟩ :: us) =
      .ok (some (op.assignment, line), us) := by
    simp only [Parse.take?_cons, Parse.ofSymbol, hs]
  have hvalue {target : Expr} : op.assignment.value target right line = op.join target right line := by
    cases op <;> rfl
  unfold Grammar.assignment
  rw [Parse.bind_run htarget, Parse.bind_run htake]
  dsimp only [Expr.place?]
  rw [Parse.bind_run hright, hvalue]
  rfl

/-- Wherever a source text has a property access, a compound operator and a right side, the three are
read as one tree. Evaluating it computes the holder, the key and the combined value, each once, and then
stores the value; if computing them fails, nothing is stored. -/
theorem compound_assignment_once {source : String} {before ts us rest : List Lexeme} {n l line : Nat}
    {holder : Expr} {member : Member} {s : Symbol} {op : Operator} {right : Expr}
    (hscan : Scan.tokens source = .ok (before ++ ts))
    (htarget : Grammar.logicalOr (Grammar.nested n) ts =
      .ok (.read holder member l, ⟨.symbol s, line⟩ :: us))
    (hcompounds : op.compounds) (hs : s.spelling = op.spelling ++ "=")
    (hright : Grammar.nested n .expression us = .ok (right, rest)) :
    ∃ e, Grammar.nested (n + 1) .expression ts = .ok (e, rest) ∧ ∀ limits : Limits,
      eval limits e = combineAndStore limits holder member op right line ∧
      ∀ m halt m', combineTarget limits holder member op right line m = .error halt m' →
        eval limits e m = .error halt m' := by
  obtain ⟨t, ht, hop⟩ := op.assignment?_of_compounds hcompounds
  obtain rfl := Symbol.spelling_inj (hs.trans ht.symm)
  refine ⟨_, assignment_compound htarget hop hright, fun limits => ?_⟩
  have hscanned : ∀ lexeme ∈ ts, lexeme.Scanned := fun lexeme hl =>
    Scan.tokens_scanned hscan lexeme (List.mem_append_right before hl)
  obtain ⟨-, -, -, hholder, hmember⟩ :=
    Grammar.logicalOr_yields (Grammar.nested_yields n) hscanned htarget
  have heval : eval limits (.write holder member (op.join (.read holder member l) right line) line) =
      combineAndStore limits holder member op right line :=
    eval_write_reads (reads_self hholder hmember)
  refine ⟨heval, fun m halt m' herror => ?_⟩
  rw [heval]
  exact combineAndStore_error herror

def callTarget (s : Symbol) : List Lexeme :=
  [.name "g", .symbol .leftParen, .symbol .rightParen, .symbol .dot, .name "k", .symbol s, .name "y",
    .symbol .semicolon].map (⟨·, 1⟩)

theorem compound_assignment_once_call :
    (∃ e, Grammar.nested 2 .expression (callTarget .minusAssign) = .ok (e, [⟨.symbol .semicolon, 1⟩]) ∧
      ∀ limits : Limits,
        eval limits e = combineAndStore limits (.call (.name "g" 1) [] 1) (.named "k")
          (.binary (.arithmetic .sub)) (.name "y" 1) 1 ∧
        ∀ m halt m', combineTarget limits (.call (.name "g" 1) [] 1) (.named "k")
            (.binary (.arithmetic .sub)) (.name "y" 1) 1 m = .error halt m' →
          eval limits e m = .error halt m') ∧
    ∃ e, Grammar.nested 2 .expression (callTarget .andAndAssign) =
        .ok (e, [⟨.symbol .semicolon, 1⟩]) ∧
      ∀ limits : Limits, eval limits e =
        combineAndStore limits (.call (.name "g" 1) [] 1) (.named "k") (.logical .and) (.name "y" 1) 1 := by
  have hright (s : Symbol) : Grammar.nested 1 .expression ((callTarget s).drop 6) =
      .ok (.name "y" 1, [⟨.symbol .semicolon, 1⟩]) := rfl
  constructor
  · have hscan : Scan.tokens "x; g().k -= y;" =
        .ok ([⟨.name "x", 1⟩, ⟨.symbol .semicolon, 1⟩] ++ callTarget .minusAssign) := by cbv
    have htarget : Grammar.logicalOr (Grammar.nested 1) (callTarget .minusAssign) =
        .ok (.read (.call (.name "g" 1) [] 1) (.named "k") 1, (callTarget .minusAssign).drop 5) := rfl
    exact compound_assignment_once hscan htarget rfl rfl (hright .minusAssign)
  · have hscan : Scan.tokens "x; g().k &&= y;" =
        .ok ([⟨.name "x", 1⟩, ⟨.symbol .semicolon, 1⟩] ++ callTarget .andAndAssign) := by cbv
    have htarget : Grammar.logicalOr (Grammar.nested 1) (callTarget .andAndAssign) =
        .ok (.read (.call (.name "g" 1) [] 1) (.named "k") 1, (callTarget .andAndAssign).drop 5) := rfl
    have hspelled : Symbol.andAndAssign.spelling = (Operator.logical .and).spelling ++ "=" := rfl
    obtain ⟨e, hread, heval⟩ :=
      compound_assignment_once hscan htarget rfl hspelled (hright .andAndAssign)
    exact ⟨e, hread, fun limits => (heval limits).1⟩

end Scriptlet
