import Scriptlet.Proofs.FaultLines
import Scriptlet.Proofs.PropertyAssignment
import Scriptlet.Proofs.Sketches

namespace Scriptlet

variable {limits : Limits}

theorem lookup_eq_ok {name : String} {line : Nat} {m n : Machine} {v : Value} :
    Eval.lookup name line m = .ok v n ↔ m.heap.lookup m.scope name = some v ∧ n = m := by
  rw [Eval.lookup_run]
  cases m.heap.lookup m.scope name with
  | none =>
    constructor
    · intro h
      cases h
    · intro h
      cases h.1
  | some w =>
    constructor
    · intro h
      cases h
      exact ⟨rfl, rfl⟩
    · rintro ⟨h, rfl⟩
      cases h
      rfl

theorem binary_eq_ok {op : BinaryOp} {a b : Value} {line : Nat} {m n : Machine} {v : Value} :
    binary op a b line m = .ok v n ↔ m.heap.binary op a b line = .ok v ∧ n = m :=
  Eval.ofExcept_eq_ok

theorem eval_unary {op : UnaryOp} {e : Expr} {line : Nat}
    (h : op.updates = false) :
    eval limits (.unary op e line) =
      eval limits e >>= fun v => Eval.ofExcept (op.apply v line) := by
  cases op with
  | step s => cases h
  | negate | identity | not | bitNot => simp only [eval]

theorem eval_echo (e e' : Expr) {m n : Machine} {v : Value} (h : e.echoes e')
    (he : eval limits e' m = .ok v n) : n = m ∧ eval limits e m = .ok v m := by
  -- By induction on the pair of trees, for every machine: each part starts from where the one before it
  -- ended, which is where that one started.
  fun_induction Expr.echoes e e' generalizing m n v with
  | case1 u l u' l' =>
    obtain rfl := of_decide_eq_true h
    rw [eval] at he ⊢
    cases he
    exact ⟨rfl, rfl⟩
  | case2 x l x' l' =>
    obtain rfl := of_decide_eq_true h
    rw [eval] at he ⊢
    obtain ⟨hv, rfl⟩ := lookup_eq_ok.mp he
    exact ⟨rfl, lookup_eq_ok.mpr ⟨hv, rfl⟩⟩
  | case3 e l e' l' ih =>
    rw [eval] at he ⊢
    exact ih h he
  | case4 op e l op' e' l' ih =>
    simp only [Bool.and_eq_true, decide_eq_true_eq, Bool.not_eq_true'] at h
    obtain ⟨⟨rfl, hop⟩, hecho⟩ := h
    rw [eval_unary hop] at he ⊢
    obtain ⟨w, m₁, hw, hrest⟩ := Eval.bind_eq_ok.mp he
    obtain ⟨hv, rfl⟩ := Eval.ofExcept_eq_ok.mp hrest
    obtain ⟨rfl, hw⟩ := ih hecho hw
    have hline := unary_line op w l' l
    rw [hv] at hline
    exact ⟨rfl, Eval.bind_eq_ok.mpr ⟨w, _, hw, Eval.ofExcept_eq_ok.mpr
      ⟨SameButLine.ok_iff.mp hline, rfl⟩⟩⟩
  | case5 op a b l op' a' b' l' iha ihb =>
    simp only [Bool.and_eq_true, decide_eq_true_eq] at h
    obtain ⟨⟨rfl, ha⟩, hb⟩ := h
    rw [eval] at he ⊢
    obtain ⟨x, m₁, hx, hrest⟩ := Eval.bind_eq_ok.mp he
    obtain ⟨y, m₂, hy, hend⟩ := Eval.bind_eq_ok.mp hrest
    obtain ⟨hv, rfl⟩ := binary_eq_ok.mp hend
    obtain ⟨rfl, hx⟩ := iha ha hx
    obtain ⟨rfl, hy⟩ := ihb hb hy
    have hline := binary_line n.heap op x y l' l
    rw [hv] at hline
    exact ⟨rfl, Eval.bind_eq_ok.mpr ⟨x, _, hx, Eval.bind_eq_ok.mpr
      ⟨y, _, hy, binary_eq_ok.mpr ⟨SameButLine.ok_iff.mp hline, rfl⟩⟩⟩⟩
  | case6 op a b l op' a' b' l' iha ihb =>
    simp only [Bool.and_eq_true, decide_eq_true_eq] at h
    obtain ⟨⟨rfl, ha⟩, hb⟩ := h
    rw [eval] at he ⊢
    obtain ⟨x, m₁, hx, hrest⟩ := Eval.bind_eq_ok.mp he
    obtain ⟨rfl, hx⟩ := iha ha hx
    rw [Eval.bind_ok hx]
    by_cases hd : op.decides x
    · rw [if_pos hd] at hrest ⊢
      cases hrest
      exact ⟨rfl, rfl⟩
    · rw [if_neg hd] at hrest ⊢
      exact ihb hb hrest
  | case7 holder x l holder' x' l' ih =>
    simp only [Bool.and_eq_true, decide_eq_true_eq] at h
    obtain ⟨hholder, rfl⟩ := h
    rw [eval] at he ⊢
    obtain ⟨w, m₁, hw, hrest⟩ := Eval.bind_eq_ok.mp he
    obtain ⟨rfl, hw⟩ := ih hholder hw
    rw [Eval.bind_ok hw]
    cases hrest
    exact ⟨rfl, rfl⟩
  | case8 holder key l holder' key' l' ihh ihk =>
    simp only [Bool.and_eq_true] at h
    rw [eval, memberKey] at he ⊢
    obtain ⟨w, m₁, hw, hrest⟩ := Eval.bind_eq_ok.mp he
    obtain ⟨k, m₂, hk, hend⟩ := Eval.bind_eq_ok.mp hrest
    obtain ⟨rfl, hw⟩ := ihh h.1 hw
    obtain ⟨rfl, hk⟩ := ihk h.2 hk
    rw [Eval.bind_ok hw, Eval.bind_ok hk]
    cases hend
    exact ⟨rfl, rfl⟩
  | case9 => cases h

theorem evalAndStore_echoes {holder left right : Expr} {member : Member} {op : Operator} {line : Nat}
    (hecho : left.echoes (.read holder member 0)) :
    evalAndStore limits holder member (op.join left right line) =
      combineAndStore limits holder member op right line := by
  unfold evalAndStore combineAndStore combineTarget
  funext m
  simp only [bind_assoc]
  cases hh : eval limits holder m with
  | error e m₁ => rw [Eval.bind_error hh, Eval.bind_error hh]
  | ok h m₁ =>
    rw [Eval.bind_ok hh, Eval.bind_ok hh]
    cases hk : memberKey limits member m₁ with
    | error e m₂ => rw [Eval.bind_error hk, Eval.bind_error hk]
    | ok key m₂ =>
      rw [Eval.bind_ok hk, Eval.bind_ok hk]
      have hread : eval limits (.read holder member 0) m = .ok (m₂.heap.getProperty h key) m₂ := by
        rw [eval, Eval.bind_ok hh, Eval.bind_ok hk]
        rfl
      obtain ⟨rfl, hleft⟩ := eval_echo _ _ hecho hread
      have hproperty : property h key m₂ = .ok (m₂.heap.getProperty h key) m₂ := rfl
      rw [eval_join, bind_assoc, Eval.bind_ok hleft, Eval.bind_ok hproperty]
      simp only [pure_bind]

theorem eval_write_resumes {holder left right : Expr} {member : Member} {op : Operator}
    {l line : Nat} (h : left.resumes holder member) :
    eval limits (.write holder member (op.join left right line) l) =
      combineAndStore limits holder member op right line := by
  cases hreads : left.reads holder member with
  | true => exact eval_write_reads hreads
  | false =>
    have hecho : left.echoes (.read holder member 0) := by
      simpa only [Expr.resumes, hreads, Bool.false_or] using h
    have hother : ∀ (op' : Operator) left' right' line',
        op.join left right line = op'.join left' right' line' →
          left'.reads holder member = false := by
      intro op' left' right' line' hj
      cases op <;> cases op' <;> cases hj <;> exact hreads
    rw [eval_write_other hother, evalAndStore_echoes hecho]

theorem Expr.mark_join {holder left right : Expr} {member : Member} {op : Operator} {line : Nat} :
    Expr.mark holder member (op.join left right line) =
      if left.resumes holder member then 1 else 0 := by
  cases op <;> rfl

theorem eval_write_unmarked {holder value : Expr} {member : Member} {l : Nat}
    (h : Expr.mark holder member value = 0) :
    eval limits (.write holder member value l) = evalAndStore limits holder member value := by
  refine eval_write_other fun op left right line hvalue => ?_
  have hresumes : left.resumes holder member = false := by simpa [hvalue, Expr.mark_join] using h
  exact (Bool.or_eq_false_iff.mp hresumes).1

end Scriptlet
