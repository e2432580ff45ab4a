import Scriptlet.Syntax.Tree

/-!
Equality of syntax trees, lines included. Float literals are compared as numbers, so a tree that
holds a NaN is not like itself.
-/

namespace Scriptlet

def Literal.alike : Literal → Literal → Bool
  | real x, real y => x == y
  | a, b => a = b

mutual

def Expr.alike : Expr → Expr → Bool
  | .literal v l, .literal v' l' => v.alike v' && l = l'
  | .name n l, .name n' l' => n = n' && l = l'
  | .assign n e l, .assign n' e' l' => n = n' && e.alike e' && l = l'
  | .binary op a b l, .binary op' a' b' l' => op = op' && a.alike a' && b.alike b' && l = l'
  | .logical op a b l, .logical op' a' b' l' => op = op' && a.alike a' && b.alike b' && l = l'
  | .unary op e l, .unary op' e' l' => op = op' && e.alike e' && l = l'
  | .trailing op e l, .trailing op' e' l' => op = op' && e.alike e' && l = l'
  | .group e l, .group e' l' => e.alike e' && l = l'
  | .call f as l, .call f' as' l' => f.alike f' && alikeSlots as as' && l = l'
  | .read h m l, .read h' m' l' => h.alike h' && m.alike m' && l = l'
  | .write h m e l, .write h' m' e' l' => h.alike h' && m.alike m' && e.alike e' && l = l'
  | .array as l, .array as' l' => alikeSlots as as' && l = l'
  | .object es l, .object es' l' => alikeEntries es es' && l = l'
  | .function d, .function d' => d.alike d'
  | .classExpr d, .classExpr d' => d.alike d'
  | .new e l, .new e' l' => e.alike e' && l = l'
  | _, _ => false
termination_by structural a => a

def Member.alike : Member → Member → Bool
  | .named n, .named n' => n = n'
  | .computed e, .computed e' => e.alike e'
  | _, _ => false
termination_by structural a => a

def alikeSlots : List (Option Expr) → List (Option Expr) → Bool
  | [], [] => true
  | none :: as, none :: as' => alikeSlots as as'
  | some e :: as, some e' :: as' => e.alike e' && alikeSlots as as'
  | _, _ => false
termination_by structural a => a

def alikeEntries : List (String × Expr) → List (String × Expr) → Bool
  | [], [] => true
  | (n, e) :: es, (n', e') :: es' => n = n' && e.alike e' && alikeEntries es es'
  | _, _ => false
termination_by structural a => a

def FunctionDecl.alike : FunctionDecl → FunctionDecl → Bool
  | ⟨n, ps, b, l⟩, ⟨n', ps', b', l'⟩ => n = n' && ps = ps' && alikeBody b b' && l = l'
termination_by structural a => a

def ClassDecl.alike : ClassDecl → ClassDecl → Bool
  | ⟨n, ms, l⟩, ⟨n', ms', l'⟩ => n = n' && alikeMembers ms ms' && l = l'
termination_by structural a => a

def alikeMembers : List ClassMember → List ClassMember → Bool
  | [], [] => true
  | m :: ms, m' :: ms' => m.alike m' && alikeMembers ms ms'
  | _, _ => false
termination_by structural a => a

def ClassMember.alike : ClassMember → ClassMember → Bool
  | .field s n e l, .field s' n' e' l' => s = s' && n = n' && alikeInitial e e' && l = l'
  | .method s d, .method s' d' => s = s' && d.alike d'
  | _, _ => false
termination_by structural a => a

def alikeInitial : Option Expr → Option Expr → Bool
  | none, none => true
  | some e, some e' => e.alike e'
  | _, _ => false
termination_by structural a => a

def Stmt.alike : Stmt → Stmt → Bool
  | .block b l, .block b' l' => alikeBody b b' && l = l'
  | .declare n e l, .declare n' e' l' => n = n' && alikeInitial e e' && l = l'
  | .function d, .function d' => d.alike d'
  | .classDecl d, .classDecl d' => d.alike d'
  | .branch c y n l, .branch c' y' n' l' => c.alike c' && y.alike y' && alikeElse n n' && l = l'
  | .loop c b l, .loop c' b' l' => c.alike c' && b.alike b' && l = l'
  | .«return» e l, .«return» e' l' => alikeInitial e e' && l = l'
  | .expr e l, .expr e' l' => e.alike e' && l = l'
  | _, _ => false
termination_by structural a => a

def alikeElse : Option Stmt → Option Stmt → Bool
  | none, none => true
  | some s, some s' => s.alike s'
  | _, _ => false
termination_by structural a => a

def alikeBody : List Stmt → List Stmt → Bool
  | [], [] => true
  | s :: ss, s' :: ss' => s.alike s' && alikeBody ss ss'
  | _, _ => false
termination_by structural a => a

end

end Scriptlet
