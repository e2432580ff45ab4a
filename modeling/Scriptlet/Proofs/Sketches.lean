import Scriptlet.Evaluation.Evaluate

/-!
Syntax trees without their lines, and trees in which the lines say no more than evaluation asks for.
-/

namespace Scriptlet

mutual

/-- The tree with all its lines replaced: those of assignments to properties by what `mark` says of
their holder, member and value, all others by zero. -/
def Expr.relined (mark : Expr → Member → Expr → Nat) : Expr → Expr
  | .literal v _ => .literal v 0
  | .name n _ => .name n 0
  | .assign n e _ => .assign n (e.relined mark) 0
  | .binary op a b _ => .binary op (a.relined mark) (b.relined mark) 0
  | .logical op a b _ => .logical op (a.relined mark) (b.relined mark) 0
  | .unary op e _ => .unary op (e.relined mark) 0
  | .trailing op e _ => .trailing op (e.relined mark) 0
  | .group e _ => .group (e.relined mark) 0
  | .call f as _ => .call (f.relined mark) (relinedSlots mark as) 0
  | .read h m _ => .read (h.relined mark) (m.relined mark) 0
  | .write h m e _ => .write (h.relined mark) (m.relined mark) (e.relined mark) (mark h m e)
  | .array as _ => .array (relinedSlots mark as) 0
  | .object es _ => .object (relinedEntries mark es) 0
  | .function d => .function (d.relined mark)
  | .classExpr d => .classExpr (d.relined mark)
  | .new e _ => .new (e.relined mark) 0
termination_by structural e => e

def Member.relined (mark : Expr → Member → Expr → Nat) : Member → Member
  | .named n => .named n
  | .computed e => .computed (e.relined mark)
termination_by structural m => m

def relinedSlots (mark : Expr → Member → Expr → Nat) : List (Option Expr) → List (Option Expr)
  | [] => []
  | none :: as => none :: relinedSlots mark as
  | some e :: as => some (e.relined mark) :: relinedSlots mark as
termination_by structural as => as

def relinedEntries (mark : Expr → Member → Expr → Nat) : List (String × Expr) → List (String × Expr)
  | [] => []
  | (n, e) :: es => (n, e.relined mark) :: relinedEntries mark es
termination_by structural es => es

def FunctionDecl.relined (mark : Expr → Member → Expr → Nat) : FunctionDecl → FunctionDecl
  | ⟨n, ps, b, _⟩ => ⟨n, ps, relinedBody mark b, 0⟩
termination_by structural d => d

def ClassDecl.relined (mark : Expr → Member → Expr → Nat) : ClassDecl → ClassDecl
  | ⟨n, ms, _⟩ => ⟨n, relinedMembers mark ms, 0⟩
termination_by structural d => d

def relinedMembers (mark : Expr → Member → Expr → Nat) : List ClassMember → List ClassMember
  | [] => []
  | m :: ms => m.relined mark :: relinedMembers mark ms
termination_by structural ms => ms

def ClassMember.relined (mark : Expr → Member → Expr → Nat) : ClassMember → ClassMember
  | .field s n e _ => .field s n (relinedInitial mark e) 0
  | .method s d => .method s (d.relined mark)
termination_by structural m => m

def relinedInitial (mark : Expr → Member → Expr → Nat) : Option Expr → Option Expr
  | none => none
  | some e => some (e.relined mark)
termination_by structural e => e

def Stmt.relined (mark : Expr → Member → Expr → Nat) : Stmt → Stmt
  | .block b _ => .block (relinedBody mark b) 0
  | .declare n e _ => .declare n (relinedInitial mark e) 0
  | .function d => .function (d.relined mark)
  | .classDecl d => .classDecl (d.relined mark)
  | .branch c y n _ => .branch (c.relined mark) (y.relined mark) (relinedElse mark n) 0
  | .loop c b _ => .loop (c.relined mark) (b.relined mark) 0
  | .«return» e _ => .«return» (relinedInitial mark e) 0
  | .expr e _ => .expr (e.relined mark) 0
termination_by structural s => s

def relinedElse (mark : Expr → Member → Expr → Nat) : Option Stmt → Option Stmt
  | none => none
  | some s => some (s.relined mark)
termination_by structural s => s

def relinedBody (mark : Expr → Member → Expr → Nat) : List Stmt → List Stmt
  | [] => []
  | s :: ss => s.relined mark :: relinedBody mark ss
termination_by structural ss => ss

end

theorem Stmt.render_branch_else {c : Expr} {y s : Stmt} {line : Nat}
    (hs : ∀ b l, s ≠ .block b l) :
    (Stmt.branch c y (some s) line).render =
      "if(" ++ c.render ++ ")" ++ y.render ++ ("else " ++ s.render) := by
  rw [Stmt.render]
  exact hs

section

variable (mark : Expr → Member → Expr → Nat)

mutual

theorem Expr.render_relined : (e : Expr) → (e.relined mark).render = e.render
  | .literal _ _ | .name _ _ => rfl
  | .assign _ e _ => by simp only [Expr.relined, Expr.render, e.render_relined]
  | .binary _ a b _ => by simp only [Expr.relined, Expr.render, a.render_relined, b.render_relined]
  | .logical _ a b _ => by simp only [Expr.relined, Expr.render, a.render_relined, b.render_relined]
  | .unary _ e _ => by simp only [Expr.relined, Expr.render, e.render_relined]
  | .trailing _ e _ => by simp only [Expr.relined, Expr.render, e.render_relined]
  | .group e _ => by simp only [Expr.relined, Expr.render, e.render_relined]
  | .call f as _ => by simp only [Expr.relined, Expr.render, f.render_relined, renderSlots_relined as]
  | .read h m _ => by simp only [Expr.relined, Expr.render, h.render_relined, m.render_relined]
  | .write h m e _ => by
    simp only [Expr.relined, Expr.render, h.render_relined, m.render_relined, e.render_relined]
  | .array as _ => by simp only [Expr.relined, Expr.render, renderSlots_relined as]
  | .object es _ => by simp only [Expr.relined, Expr.render, renderEntries_relined es]
  | .function d => by simp only [Expr.relined, Expr.render, d.render_relined]
  | .classExpr d => by simp only [Expr.relined, Expr.render, d.render_relined]
  | .new e _ => by simp only [Expr.relined, Expr.render, e.render_relined]

theorem Member.render_relined : (m : Member) → (m.relined mark).render = m.render
  | .named _ => rfl
  | .computed e => by simp only [Member.relined, Member.render, e.render_relined]

theorem renderSlots_relined : (as : List (Option Expr)) →
    renderSlots (relinedSlots mark as) = renderSlots as
  | [] | [none] => rfl
  | [some e] => by simp only [relinedSlots, renderSlots, e.render_relined]
  | none :: a :: as => by
    have ih := renderSlots_relined (a :: as)
    cases a <;> simp only [relinedSlots, renderSlots] at ih ⊢ <;> rw [ih]
  | some e :: a :: as => by
    have ih := renderSlots_relined (a :: as)
    cases a <;> simp only [relinedSlots, renderSlots, e.render_relined] at ih ⊢ <;> rw [ih]

theorem renderEntries_relined : (es : List (String × Expr)) →
    renderEntries (relinedEntries mark es) = renderEntries es
  | [] => rfl
  | [(_, e)] => by simp only [relinedEntries, renderEntries, e.render_relined]
  | (_, e) :: x :: es => by
    have ih := renderEntries_relined (x :: es)
    simp only [relinedEntries, renderEntries, e.render_relined] at ih ⊢
    rw [ih]

theorem FunctionDecl.signature_relined : (d : FunctionDecl) → (d.relined mark).signature = d.signature
  | ⟨_, _, b, _⟩ => by simp only [FunctionDecl.relined, FunctionDecl.signature, renderBody_relined b]

theorem FunctionDecl.render_relined : (d : FunctionDecl) → (d.relined mark).render = d.render
  | ⟨_, _, b, _⟩ => by simp only [FunctionDecl.relined, FunctionDecl.render, renderBody_relined b]

theorem ClassDecl.render_relined : (d : ClassDecl) → (d.relined mark).render = d.render
  | ⟨_, ms, _⟩ => by simp only [ClassDecl.relined, ClassDecl.render, renderMembers_relined ms]

theorem renderMembers_relined : (ms : List ClassMember) →
    renderMembers (relinedMembers mark ms) = renderMembers ms
  | [] => rfl
  | m :: ms => by
    simp only [relinedMembers, renderMembers, m.render_relined, renderMembers_relined ms]

theorem ClassMember.render_relined : (m : ClassMember) → (m.relined mark).render = m.render
  | .field _ _ none _ => rfl
  | .field _ _ (some e) _ => by
    simp only [ClassMember.relined, relinedInitial, ClassMember.render, e.render_relined]
  | .method _ d => by simp only [ClassMember.relined, ClassMember.render, d.signature_relined]

theorem Stmt.render_relined : (s : Stmt) → (s.relined mark).render = s.render
  | .block b _ => by simp only [Stmt.relined, Stmt.render, renderBody_relined b]
  | .declare _ none _ => rfl
  | .declare _ (some e) _ => by
    simp only [Stmt.relined, relinedInitial, Stmt.render, e.render_relined]
  | .function d => by simp only [Stmt.relined, Stmt.render, d.render_relined]
  | .classDecl d => by simp only [Stmt.relined, Stmt.render, d.render_relined]
  | .branch c y none _ => by
    simp only [Stmt.relined, relinedElse, Stmt.render, c.render_relined, y.render_relined]
  | .branch c y (some s) _ => by
    have ih := s.render_relined
    by_cases hs : ∃ b l, s = .block b l
    · obtain ⟨b, l, rfl⟩ := hs
      have hb : renderBody (relinedBody mark b) = renderBody b := by
        simpa [Stmt.relined, Stmt.render] using ih
      simp only [Stmt.relined, relinedElse, Stmt.render, c.render_relined, y.render_relined, hb]
    · have hblock : ∀ b l, s ≠ .block b l := fun b l h => hs ⟨b, l, h⟩
      have hrelined : ∀ b l, s.relined mark ≠ .block b l := by
        intro b l h
        cases s <;> first | exact hblock _ _ rfl | cases h
      rw [Stmt.relined, relinedElse, Stmt.render_branch_else hrelined, Stmt.render_branch_else hblock, ih,
        c.render_relined, y.render_relined]
  | .loop c b _ => by simp only [Stmt.relined, Stmt.render, c.render_relined, b.render_relined]
  | .«return» none _ => rfl
  | .«return» (some e) _ => by
    simp only [Stmt.relined, relinedInitial, Stmt.render, e.render_relined]
  | .expr e _ => by simp only [Stmt.relined, Stmt.render, e.render_relined]

theorem renderBody_relined : (ss : List Stmt) → renderBody (relinedBody mark ss) = renderBody ss
  | [] => rfl
  | s :: ss => by simp only [relinedBody, renderBody, s.render_relined, renderBody_relined ss]

end

end

def erased (body : List Stmt) : List Stmt := relinedBody (fun _ _ _ => 0) body

def UnaryOp.updates : UnaryOp → Bool
  | step _ => true
  | _ => false

def Expr.echoes : Expr → Expr → Bool
  | .literal v _, .literal v' _ => v = v'
  | .name n _, .name n' _ => n = n'
  | .group e _, .group e' _ => e.echoes e'
  | .unary op e _, .unary op' e' _ =>
    op = op' && !op.updates && e.echoes e'
  | .binary op a b _, .binary op' a' b' _ => op = op' && a.echoes a' && b.echoes b'
  | .logical op a b _, .logical op' a' b' _ => op = op' && a.echoes a' && b.echoes b'
  | .read h (.named n) _, .read h' (.named n') _ => h.echoes h' && n = n'
  | .read h (.computed k) _, .read h' (.computed k') _ => h.echoes h' && k.echoes k'
  | _, _ => false

/-- The left operand reads what is assigned to, and evaluation takes it from there: because the trees
are equal with their lines, or because reading once more makes no difference. -/
def Expr.resumes (left holder : Expr) (member : Member) : Bool :=
  left.reads holder member || left.echoes (.read holder member 0)

def Expr.mark (holder : Expr) (member : Member) (value : Expr) : Nat :=
  match value with
  | .binary _ left _ _ | .logical _ left _ _ => if left.resumes holder member then 1 else 0
  | _ => 0

def sketched (body : List Stmt) : List Stmt := relinedBody Expr.mark body

end Scriptlet
