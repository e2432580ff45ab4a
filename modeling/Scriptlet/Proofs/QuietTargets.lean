import Mathlib
import Scriptlet.Evaluation.Program
import Scriptlet.Proofs.ResumedTargets

namespace Scriptlet

mutual

def Expr.quiet : Expr → Bool
  | .literal _ _ | .name _ _ => true
  | .group e _ => e.quiet
  | .unary op e _ => !op.updates && e.quiet
  | .binary _ a b _ => a.quiet && b.quiet
  | .logical _ a b _ => a.quiet && b.quiet
  | .read holder member _ => holder.quiet && member.quiet
  | _ => false
termination_by structural e => e

def Member.quiet : Member → Bool
  | .named _ => true
  | .computed key => key.quiet
termination_by structural m => m

end

def Expr.erased (e : Expr) : Expr := e.relined fun _ _ _ => 0

theorem Expr.echoes_of_quiet {mark : Expr → Member → Expr → Nat} (e e' : Expr)
    (hquiet : e'.quiet) (h : e.relined mark = e'.relined mark) :
    e.echoes e' := by
  fun_induction Expr.echoes e e' with
  | case1 u l u' l' => cases h; simp
  | case2 x l x' l' => cases h; simp
  | case3 e l e' l' ih =>
    simp only [Expr.relined, Expr.group.injEq, and_true] at h
    exact ih hquiet h
  | case4 op e l op' e' l' ih =>
    simp only [Expr.relined, Expr.unary.injEq, and_true] at h
    simp only [Expr.quiet, Bool.and_eq_true] at hquiet
    simp [h.1, hquiet.1, ih hquiet.2 h.2]
  | case5 op a b l op' a' b' l' iha ihb =>
    simp only [Expr.relined, Expr.binary.injEq, and_true] at h
    simp only [Expr.quiet, Bool.and_eq_true] at hquiet
    simp [h.1, iha hquiet.1 h.2.1, ihb hquiet.2 h.2.2]
  | case6 op a b l op' a' b' l' iha ihb =>
    simp only [Expr.relined, Expr.logical.injEq, and_true] at h
    simp only [Expr.quiet, Bool.and_eq_true] at hquiet
    simp [h.1, iha hquiet.1 h.2.1, ihb hquiet.2 h.2.2]
  | case7 holder x l holder' x' l' ih =>
    simp only [Expr.relined, Member.relined, Expr.read.injEq, Member.named.injEq, and_true] at h
    simp only [Expr.quiet, Bool.and_eq_true] at hquiet
    simp [h.2, ih hquiet.1 h.1]
  | case8 holder key l holder' key' l' ihh ihk =>
    simp only [Expr.relined, Member.relined, Expr.read.injEq, Member.computed.injEq, and_true] at h
    simp only [Expr.quiet, Member.quiet, Bool.and_eq_true] at hquiet
    simp [ihh hquiet.1 h.1, ihk hquiet.2 h.2]
  | case9 e e' hliteral hname hgroup hunary hbinary hlogical hnamed hcomputed =>
    -- A quiet tree is of one of the kinds above, and a tree equal to it is of the same kind.
    cases e' <;> try cases hquiet
    all_goals cases e <;> try cases h
    · exact (hliteral _ _ _ _ rfl rfl).elim
    · exact (hname _ _ _ _ rfl rfl).elim
    · exact (hbinary _ _ _ _ _ _ _ _ rfl rfl).elim
    · exact (hlogical _ _ _ _ _ _ _ _ rfl rfl).elim
    · exact (hunary _ _ _ _ _ _ rfl rfl).elim
    · exact (hgroup _ _ _ _ rfl rfl).elim
    · rename_i holder' member' _ holder member _
      cases member <;> cases member' <;>
        simp only [Expr.relined, Member.relined, Expr.read.injEq, reduceCtorEq, and_false,
          false_and] at h
      · exact (hnamed _ _ _ _ _ _ rfl rfl).elim
      · exact (hcomputed _ _ _ _ _ _ rfl rfl).elim

/-- An assignment whose right side joins its own target, a tree without effects, with something else
evaluates as it reads: the holder, the key, the whole right side with the target once more, and then the
value is stored. Lines do not count. -/
theorem reused_target_agrees {limits : Limits} {holder left right : Expr} {member : Member}
    {l line : Nat} (op : Operator) (hholder : holder.quiet) (hmember : member.quiet)
    (hleft : left.erased = (Expr.read holder member l).erased) (m : Machine) :
    eval limits (.write holder member (op.join left right line) l) m =
      evalAndStore limits holder member (op.join left right line) m := by
  have hquiet : (Expr.read holder member 0).quiet := by simp [Expr.quiet, hholder, hmember]
  have hecho : left.echoes (.read holder member 0) := Expr.echoes_of_quiet _ _ hquiet hleft
  have hresumes : left.resumes holder member := by simp [Expr.resumes, hecho]
  rw [eval_write_resumes hresumes, evalAndStore_echoes hecho]

def nestedHolder : Expr := .read (.name "o" 1) (.named "a") 1

theorem reused_target_agrees_nested :
    parse "o.a[k] = o.a[k] + f();" = .ok [.expr (.write nestedHolder (.computed (.name "k" 1))
      (.binary (.arithmetic .add) (.read nestedHolder (.computed (.name "k" 1)) 1)
        (.call (.name "f" 1) [] 1) 1) 1) 1] ∧
    ∀ (limits : Limits) (m : Machine),
      eval limits (.write nestedHolder (.computed (.name "k" 1))
        (.binary (.arithmetic .add) (.read nestedHolder (.computed (.name "k" 1)) 1)
          (.call (.name "f" 1) [] 1) 1) 1) m =
      evalAndStore limits nestedHolder (.computed (.name "k" 1))
        (.binary (.arithmetic .add) (.read nestedHolder (.computed (.name "k" 1)) 1)
          (.call (.name "f" 1) [] 1) 1) m := by
  refine ⟨?_, fun limits m => ?_⟩
  · have hscan : Scan.tokens "o.a[k] = o.a[k] + f();" =
        .ok ([.name "o", .symbol .dot, .name "a", .symbol .leftBracket, .name "k",
          .symbol .rightBracket, .symbol .assign, .name "o", .symbol .dot, .name "a",
          .symbol .leftBracket, .name "k", .symbol .rightBracket, .symbol .plus, .name "f",
          .symbol .leftParen, .symbol .rightParen, .symbol .semicolon].map (⟨·, 1⟩)) := by cbv
    rw [parse, hscan]
    rfl
  · exact reused_target_agrees (.binary (.arithmetic .add)) rfl rfl rfl m

end Scriptlet
