import Scriptlet.Proofs.ParsedTrees
import Scriptlet.Syntax.Alike

namespace Scriptlet

theorem Literal.alike_self {v : Literal} (h : v.Scanned) : v.alike v := by
  cases v with
  | real x => exact FloatLiterals.beq_self h
  | null | boolean | integer | text => simp [alike]

mutual

theorem Expr.alike_self : (e : Expr) → e.every shaped → e.alike e
  | .literal v l, h => by simp [Expr.alike, Literal.alike_self h]
  | .name n l, _ => by simp [Expr.alike]
  | .assign n e l, h => by simp [Expr.alike, e.alike_self h.2]
  | .binary op a b l, h => by simp [Expr.alike, a.alike_self h.2.1, b.alike_self h.2.2]
  | .logical op a b l, h => by simp [Expr.alike, a.alike_self h.2.1, b.alike_self h.2.2]
  | .unary op e l, h => by simp [Expr.alike, e.alike_self h.2]
  | .trailing op e l, h => by simp [Expr.alike, e.alike_self h.2]
  | .group e l, h => by simp [Expr.alike, e.alike_self h.2]
  | .call f as l, h => by simp [Expr.alike, f.alike_self h.2.1, alikeSlots_self as h.2.2]
  | .read e m l, h => by simp [Expr.alike, e.alike_self h.2.1, m.alike_self h.2.2]
  | .write e m v l, h => by
    simp [Expr.alike, e.alike_self h.2.1, m.alike_self h.2.2.1, v.alike_self h.2.2.2]
  | .array as l, h => by simp [Expr.alike, alikeSlots_self as h.2]
  | .object es l, h => by simp [Expr.alike, alikeEntries_self es h.2]
  | .function d, h => by simp [Expr.alike, d.alike_self h.2]
  | .classExpr d, h => by simp [Expr.alike, d.alike_self h.2]
  | .new e l, h => by simp [Expr.alike, e.alike_self h.2]

theorem Member.alike_self : (m : Member) → m.every shaped → m.alike m
  | .named n, _ => by simp [Member.alike]
  | .computed e, h => by simp [Member.alike, e.alike_self h]

theorem alikeSlots_self : (as : List (Option Expr)) → everySlot shaped as → alikeSlots as as
  | [], _ => rfl
  | none :: as, h => alikeSlots_self as h
  | some e :: as, h => by simp [alikeSlots, e.alike_self h.1, alikeSlots_self as h.2]

theorem alikeEntries_self : (es : List (String × Expr)) → everyEntry shaped es → alikeEntries es es
  | [], _ => rfl
  | (n, e) :: es, h => by simp [alikeEntries, e.alike_self h.1, alikeEntries_self es h.2]

theorem FunctionDecl.alike_self : (d : FunctionDecl) → d.every shaped → d.alike d
  | ⟨n, ps, b, l⟩, h => by simp [FunctionDecl.alike, alikeBody_self b h.2]

theorem ClassDecl.alike_self : (d : ClassDecl) → d.every shaped → d.alike d
  | ⟨n, ms, l⟩, h => by simp [ClassDecl.alike, alikeMembers_self ms h]

theorem alikeMembers_self : (ms : List ClassMember) → everyMember shaped ms → alikeMembers ms ms
  | [], _ => rfl
  | m :: ms, h => by simp [alikeMembers, m.alike_self h.1, alikeMembers_self ms h.2]

theorem ClassMember.alike_self : (m : ClassMember) → m.every shaped → m.alike m
  | .field s n e l, h => by simp [ClassMember.alike, alikeInitial_self e h.2]
  | .method s d, h => by simp [ClassMember.alike, d.alike_self h.2]

theorem alikeInitial_self : (e : Option Expr) → everyInitial shaped e → alikeInitial e e
  | none, _ => rfl
  | some e, h => e.alike_self h

theorem Stmt.alike_self : (s : Stmt) → s.every shaped → s.alike s
  | .block b l, h => by simp [Stmt.alike, alikeBody_self b h.2]
  | .declare n e l, h => by simp [Stmt.alike, alikeInitial_self e h.2]
  | .function d, h => by simp [Stmt.alike, d.alike_self h.2]
  | .classDecl d, h => by simp [Stmt.alike, d.alike_self h.2]
  | .branch c y n l, h => by
    simp [Stmt.alike, c.alike_self h.2.1, y.alike_self h.2.2.1, alikeElse_self n h.2.2.2]
  | .loop c b l, h => by simp [Stmt.alike, c.alike_self h.2.1, b.alike_self h.2.2]
  | .«return» e l, h => by simp [Stmt.alike, alikeInitial_self e h.2]
  | .expr e l, h => by simp [Stmt.alike, e.alike_self h.2]

theorem alikeElse_self : (s : Option Stmt) → everyElse shaped s → alikeElse s s
  | none, _ => rfl
  | some s, h => s.alike_self h

theorem alikeBody_self : (ss : List Stmt) → everyStmt shaped ss → alikeBody ss ss
  | [], _ => rfl
  | s :: ss, h => by simp [alikeBody, s.alike_self h.1, alikeBody_self ss h.2]

end

end Scriptlet
