import Scriptlet.Evaluation.Program
import Scriptlet.Proofs.BuiltTrees
import Scriptlet.Proofs.ScannedLiterals

namespace Scriptlet

def Expr.isOperand : Expr → Bool
  | assign .. | binary .. | logical .. | unary .. | trailing .. | write .. | new .. => false
  | _ => true

theorem Operator.level_rank (op : Operator) : op.level.rank < Level.call.rank := by
  rcases op with (op | op | op | op) | op <;> cases op <;> decide

theorem Expr.isOperand_of_fits {e : Expr} (h : e.Fits .call) : e.isOperand := by
  cases e with
  | binary op => exact absurd h (Nat.not_le.mpr (Operator.binary op).level_rank)
  | logical op => exact absurd h (Nat.not_le.mpr (Operator.logical op).level_rank)
  | assign | write | unary | trailing | new => simp [Fits, level, Level.rank] at h
  | literal | name | group | call | read | array | object | function | classExpr => rfl

def Expr.Shaped : Expr → Prop
  | literal value _ => value.Scanned
  | call _ arguments _ => arguments.length ≤ maxArguments
  | trailing op _ _ => ∃ s, op = .step s
  | new e _ => e.isOperand
  | _ => True

def ClassMember.Shaped : ClassMember → Prop
  | field .. => True
  | method _ decl => decl.name.isSome

namespace Stmt

def Shaped (s : Stmt) : Prop := s.declared?.isSome ∨ s.plain

theorem Shaped.of_plain {s : Stmt} (h : s.plain) : s.Shaped := .inr h

end Stmt

def shaped : Check where
  expr := Expr.Shaped
  function decl := decl.params.length ≤ maxArguments
  member := ClassMember.Shaped
  stmt := Stmt.Shaped

theorem Literal.scanned_of_token {value : Literal} (h : value.token.Scanned) : value.Scanned := by
  cases value <;> exact h

theorem Stmt.Shaped.of_built {T : Lexeme → Prop} {s : Stmt} (h : s.Built T) : s.Shaped := by
  cases s with
  | declare => exact .inl rfl
  | function => exact .inl h
  | classDecl d =>
    obtain ⟨name, hname, -⟩ := h
    exact .inl (by rw [declared?, hname]; rfl)
  | branch c yes no l =>
    cases no with
    | none => exact .of_plain h.1
    | some no => exact .of_plain (Bool.and_eq_true_iff.mpr ⟨h.1, (h.2 no rfl).1⟩)
  | loop => exact .of_plain h
  | block | «return» | expr => exact .of_plain rfl

theorem built_shaped : (built Lexeme.Scanned).Implies shaped where
  expr e h := by
    cases e with
    | literal value l =>
      obtain ⟨line, ht⟩ | rfl := h
      · exact Literal.scanned_of_token ht
      · trivial
    | call => exact h.2
    | trailing => exact h.1
    | new e l => exact Expr.isOperand_of_fits h
    | _ => trivial
  function _ h := h.1
  member m h := by
    cases m with
    | field => trivial
    | method => exact h
  stmt _ h := .of_built h

namespace Grammar

abbrev Yields {α : Type} (p : Parse α) (Q : α → Prop) : Prop := Builds Lexeme.Scanned p Q

theorem nested_yields (n : Nat) : InnerBuilds Lexeme.Scanned (nested n) := nested_builds _ n

theorem logicalOr_yields {inner : Inner} (hi : InnerBuilds Lexeme.Scanned inner) :
    Yields (logicalOr inner) (Expr.every shaped) :=
  (logicalOr_builds hi).mono fun _ e he => e.every_mono built_shaped he.every

end Grammar

theorem parse_builds {source : String} {T : Lexeme → Prop} {lexemes : List Lexeme}
    {program : List Stmt} (hscan : Scan.tokens source = .ok lexemes) (ht : ∀ l ∈ lexemes, T l)
    (h : parse source = .ok program) : everyStmt (built T) program := by
  unfold parse at h
  rw [hscan] at h
  exact Grammar.program_builds ht h

theorem parse_scans {source : String} {program : List Stmt} (h : parse source = .ok program) :
    ∃ ts, Scan.tokens source = .ok ts := by
  cases hscan : Scan.tokens source with
  | error e =>
    unfold parse at h
    rw [hscan] at h
    cases h
  | ok ts => exact ⟨ts, rfl⟩

theorem parse_every {source : String} {program : List Stmt} (h : parse source = .ok program) :
    everyStmt shaped program := by
  obtain ⟨ts, hscan⟩ := parse_scans h
  exact everyStmt_mono built_shaped _ (parse_builds hscan (Scan.tokens_scanned hscan) h)

end Scriptlet
