import Scriptlet.Proofs.EvaluationLaws
import Scriptlet.Proofs.TreeChecks

namespace Scriptlet

section

open Eval

variable {law : Law} {T : Ref → Heap → Heap → Prop} {limits : Limits}

mutual

theorem eval_obeys (hl : limits.Obey law) : (e : Expr) → (m : Machine) →
    (eval limits e).Obeys law.expression m
  | .literal value _, m => by
    rw [eval]
    exact .still law.covers_expression rfl
  | .name name line, m => by
    rw [eval]
    exact lookup_obeys law.covers_expression name line
  | .assign name value line, m => by
    have hT := law.covers_expression
    rw [eval]
    exact .bind hT (eval_obeys hl value m) fun _ _ _ _ _ =>
      .bind hT (assign_obeys hT name _ _) fun _ _ _ _ _ => .still hT rfl
  | .binary op left right line, m => by
    have hT := law.covers_expression
    rw [eval]
    exact .bind hT (eval_obeys hl left m) fun _ m₁ _ _ _ =>
      .bind hT (eval_obeys hl right m₁) fun _ _ _ _ _ => binary_obeys hT _ _ _ _
  | .logical op left right _, m => by
    have hT := law.covers_expression
    rw [eval]
    refine .bind hT (eval_obeys hl left m) fun a m₁ _ _ _ => ?_
    split
    · exact .still hT rfl
    · exact eval_obeys hl right m₁
  | .unary op operand line, m => by
    have hT := law.covers_expression
    cases op with
    | step s => rw [eval]; exact update_obeys hl s operand line m
    | negate | identity | not | bitNot =>
      rw [eval]
      · exact .bind hT (eval_obeys hl operand m) fun _ _ _ _ _ => ofExcept_obeys hT _
      · exact nofun
  | .trailing op operand line, m => by
    have hT := law.covers_expression
    cases op with
    | step s => rw [eval]; exact update_obeys hl s operand line m
    | negate | identity | not | bitNot =>
      rw [eval]
      · exact .bind hT (eval_obeys hl operand m) fun _ _ _ _ _ => ofExcept_obeys hT _
      · exact nofun
  | .group inner _, m => by
    rw [eval]
    exact eval_obeys hl inner m
  | .call callee arguments line, m => by
    have hT := law.covers_expression
    rw [eval]
    exact .bind hT (eval_obeys hl callee m) fun _ m₁ _ _ _ =>
      .bind hT (evalSlots_obeys hl arguments m₁) fun _ _ _ _ _ => callValue_obeys hl _ _ _
  | .read holder member _, m => by
    have hT := law.covers_expression
    rw [eval]
    exact .bind hT (eval_obeys hl holder m) fun _ m₁ _ _ _ =>
      .bind hT (memberKey_obeys hl member m₁) fun _ _ _ _ _ => .still hT rfl
  | .write holder member value _, m => by
    have hT := law.covers_expression
    rw [eval.eq_def]
    refine .bind hT (eval_obeys hl holder m) fun h m₁ _ _ _ => ?_
    refine .bind hT (memberKey_obeys hl member m₁) fun key m₂ _ _ _ => ?_
    have hleft (left : Expr) (ih : ∀ m, (eval limits left).Obeys law.expression m) (m : Machine) :
        (if left.reads holder member then property h key else eval limits left).Obeys law.expression m := by
      split
      · exact .still hT rfl
      · exact ih m
    refine .bind hT ?_ fun v m₃ _ _ _ =>
      .bind hT (.change law.setProperty) fun _ _ _ _ _ => .still hT rfl
    cases value with
    | binary op left right line =>
      exact .bind hT (hleft left (eval_obeys hl left) m₂) fun _ m₃ _ _ _ =>
        .bind hT (eval_obeys hl right m₃) fun _ _ _ _ _ => binary_obeys hT _ _ _ _
    | logical op left right line =>
      refine .bind hT (hleft left (eval_obeys hl left) m₂) fun a m₃ _ _ _ => ?_
      split
      · exact .still hT rfl
      · exact eval_obeys hl right m₃
    | _ => exact eval_obeys hl _ m₂
  | .array slots _, m => by
    have hT := law.covers_expression
    rw [eval]
    exact .bind hT (evalSlots_obeys hl slots m) fun _ _ _ _ _ =>
      .bind hT (.alloc law.addArray) fun _ _ _ _ _ => .still hT rfl
  | .object entries _, m => by
    have hT := law.covers_expression
    rw [eval]
    exact .bind hT (evalEntries_obeys hl entries m) fun _ _ _ _ _ =>
      .bind hT (.alloc law.addObject) fun _ _ _ _ _ => .still hT rfl
  | .function decl, m => by
    rw [eval]
    exact makeFunction_obeys law.covers_expression decl
  | .classExpr decl, m => by
    rw [eval]
    exact makeClass_obeys hl decl m
  | .new call line, m => by
    have hT := law.covers_expression
    cases call with
    | call callee arguments line =>
      rw [eval]
      exact .bind hT (eval_obeys hl callee m) fun _ m₁ _ _ _ =>
        .bind hT (evalSlots_obeys hl arguments m₁) fun _ _ _ _ _ =>
        callValue_obeys hl _ _ _
    | _ =>
      rw [eval.eq_def]
      exact .still hT rfl

theorem update_obeys (hl : limits.Obey law) (s : Step) : (e : Expr) → (line : Nat) → (m : Machine) →
    (update limits s e line).Obeys law.expression m
  | .name name _, line, m => by
    have hT := law.covers_expression
    rw [update]
    exact .bind hT (lookup_obeys hT _ _) fun _ _ _ _ _ =>
      .bind hT (ofExcept_obeys hT _) fun _ _ _ _ _ =>
      .bind hT (assign_obeys hT name _ _) fun _ _ _ _ _ => .still hT rfl
  | .read holder member _, line, m => by
    have hT := law.covers_expression
    rw [update]
    exact .bind hT (eval_obeys hl holder m) fun _ m₁ _ _ _ =>
      .bind hT (memberKey_obeys hl member m₁) fun _ _ _ _ _ =>
      .bind hT (.still hT rfl) fun _ _ _ _ _ =>
      .bind hT (ofExcept_obeys hT _) fun _ _ _ _ _ =>
      .bind hT (.change law.setProperty) fun _ _ _ _ _ => .still hT rfl
  | .group inner _, line, m => by
    rw [update]
    exact update_obeys hl s inner line m
  | .literal .., line, m | .assign .., line, m | .binary .., line, m | .logical .., line, m
  | .unary .., line, m | .trailing .., line, m | .call .., line, m | .write .., line, m
  | .array .., line, m | .object .., line, m | .function _, line, m | .classExpr _, line, m
  | .new .., line, m => by
    rw [update.eq_def]
    exact .still law.covers_expression rfl

theorem memberKey_obeys (hl : limits.Obey law) : (member : Member) → (m : Machine) →
    (memberKey limits member).Obeys law.expression m
  | .named _, m => by
    rw [memberKey]
    exact .still law.covers_expression rfl
  | .computed key, m => by
    rw [memberKey]
    exact eval_obeys hl key m

theorem evalSlots_obeys (hl : limits.Obey law) : (slots : List (Option Expr)) → (m : Machine) →
    (evalSlots limits slots).Obeys law.expression m
  | [], m => by
    rw [evalSlots]
    exact .still law.covers_expression rfl
  | none :: rest, m => by
    have hT := law.covers_expression
    rw [evalSlots]
    exact .bind hT (evalSlots_obeys hl rest m) fun _ _ _ _ _ => .still hT rfl
  | some e :: rest, m => by
    have hT := law.covers_expression
    rw [evalSlots]
    exact .bind hT (eval_obeys hl e m) fun _ m₁ _ _ _ =>
      .bind hT (evalSlots_obeys hl rest m₁) fun _ _ _ _ _ => .still hT rfl

theorem evalEntries_obeys (hl : limits.Obey law) : (entries : List (String × Expr)) → (m : Machine) →
    (evalEntries limits entries).Obeys law.expression m
  | [], m => by
    rw [evalEntries]
    exact .still law.covers_expression rfl
  | (_, e) :: rest, m => by
    have hT := law.covers_expression
    rw [evalEntries]
    exact .bind hT (eval_obeys hl e m) fun _ m₁ _ _ _ =>
      .bind hT (evalEntries_obeys hl rest m₁) fun _ _ _ _ _ => .still hT rfl

theorem evalInitial_obeys (hl : limits.Obey law) : (initial : Option Expr) → (m : Machine) →
    (evalInitial limits initial).Obeys law.expression m
  | none, m => by
    rw [evalInitial]
    exact .still law.covers_expression rfl
  | some e, m => by
    rw [evalInitial]
    exact eval_obeys hl e m

theorem classFields_obeys (hl : limits.Obey law) : (members : List ClassMember) → (m : Machine) →
    (classFields limits members).Obeys law.expression m
  | [], m => by
    rw [classFields]
    exact .still law.covers_expression rfl
  | .field false name initial _ :: rest, m => by
    have hT := law.covers_expression
    rw [classFields]
    exact .bind hT (evalInitial_obeys hl initial m) fun _ m₁ _ _ _ =>
      .bind hT (classFields_obeys hl rest m₁) fun _ _ _ _ _ => .still hT rfl
  | .field true _ _ _ :: rest, m | .method _ _ :: rest, m => by
    rw [classFields] <;> first | exact classFields_obeys hl rest m | exact nofun

theorem classStatics_obeys (hl : limits.Obey law) (ref scope : Ref) : (members : List ClassMember) →
    (m : Machine) → scope < m.heap.scopes.size →
    (classStatics limits ref scope members).Obeys law.expression m
  | [], m, _ => by
    rw [classStatics]
    exact .still law.covers_expression rfl
  | .field true name initial _ :: rest, m, hs => by
    have hT := law.covers_expression
    have hset {v : Value} {h : Heap} : law.expression m.scope h
        (h.setProperty (.classRef ref) (.text name) v) := law.setProperty
    rw [classStatics]
    refine .bind hT (evalInitial_obeys hl initial m) fun v m₁ _ hs₁ h₁ => ?_
    refine .bind hT (.change (by rw [hs₁]; exact hset)) fun _ m₂ _ _ h₂ => ?_
    have hle := Nat.le_trans (law.grows h₁) (law.grows h₂)
    exact classStatics_obeys hl ref scope rest m₂ (Nat.lt_of_lt_of_le hs hle)
  | .method true decl :: rest, m, hs => by
    have hT := law.covers_expression
    rw [classStatics]
    refine .bind hT (.alloc (law.addFunction (.existing hs))) fun method m₁ _ hs₁ h₁ => ?_
    have hset {h : Heap} : law.expression m₁.scope h
        (h.setProperty (.classRef ref) (.text (decl.name.getD "")) (.function method)) :=
      law.setProperty
    refine .bind hT (.change hset) fun _ m₂ _ _ h₂ => ?_
    have hle := Nat.le_trans (law.grows h₁) (law.grows h₂)
    exact classStatics_obeys hl ref scope rest m₂ (Nat.lt_of_lt_of_le hs hle)
  | .field false _ _ _ :: rest, m, hs | .method false _ :: rest, m, hs => by
    rw [classStatics] <;> first | exact classStatics_obeys hl ref scope rest m hs | exact nofun

theorem makeClass_obeys (hl : limits.Obey law) : (decl : ClassDecl) → (m : Machine) →
    (makeClass limits decl).Obeys law.expression m
  | ⟨name, members, line⟩, m => by
    have hT := law.covers_expression
    obtain ⟨hs, hh⟩ := classFields_obeys hl members m
    cases h : classFields limits members m with
    | error e m' =>
      rw [makeClass, Obeys, after_bind_error h, ← after_error h]
      exact ⟨hs, hh⟩
    | ok fields m' =>
      rw [after_ok h] at hs hh
      let cell : ClassCell := ⟨⟨name, members, line⟩, m.scope, .empty, fields⟩
      let made : Machine := { m' with heap := m'.heap.addClassScope cell, scope := m.scope }
      have hrun : makeClass limits ⟨name, members, line⟩ m =
          (do classStatics limits m'.heap.classes.size m'.heap.scopes.size members
              return .classRef m'.heap.classes.size : Eval Value) made := by
        rw [makeClass_run h, hs]
      have hmade : law.expression m.scope m.heap made.heap :=
        law.trans hh (law.addClassScope (classFields_names h))
      have hsize : m'.heap.scopes.size < made.heap.scopes.size := by
        rw [Heap.size_addClassScope]
        exact Nat.lt_succ_self _
      have hstatics := classStatics_obeys hl m'.heap.classes.size m'.heap.scopes.size members
      refine Obeys.step hT hrun rfl hmade ?_
      exact .bind hT (hstatics made hsize) fun _ _ _ _ _ => .still hT rfl

end

theorem repeatWhile_obeys {condition : Eval Value} {body : Eval Flow} (hT : law.Covers T)
    (hc : ∀ m, condition.Obeys T m) (hb : ∀ m, body.Obeys T m) (n : Nat)
    (m : Machine) : (repeatWhile condition body n).Obeys T m := by
  induction n generalizing m with
  | zero => exact .still hT rfl
  | succ n ih =>
    refine .bind hT (hc m) fun v m₁ _ _ _ => ?_
    split
    · refine .bind hT (hb m₁) fun flow m₂ _ _ _ => ?_
      cases flow with
      | normal => exact ih m₂
      | «return» => exact .still hT rfl
    · exact .still hT rfl

theorem opened_obeys {α : Type} {c body : Eval α} {m : Machine} {h : Heap} {parent : Ref}
    (hrun : c m = within m.heap.scopes.size body { m with heap := h })
    (hp : m.heap.Offers m.scope parent)
    (hh : law.statement m.heap.scopes.size (m.heap.addScope (some parent)).1 h)
    (hb : body.Obeys law.statement { m with heap := h, scope := m.heap.scopes.size }) :
    c.Obeys law.expression m := by
  have hafter : c.after m = (within m.heap.scopes.size body).after { m with heap := h } := by
    rw [after, after, hrun]
  rw [Obeys, hafter, after_within]
  exact ⟨rfl, law.opened hp (law.then_trans hh hb.2)⟩

theorem bindParams_obeys (scope : Ref) (params : List String) (args : List Value) (h : Heap) :
    law.statement scope h (h.bindParams scope params args) := by
  induction params generalizing args h with
  | nil => exact law.lift law.refl
  | cons p params ih => exact law.then_trans law.define (ih args.tail _)

theorem define_obeys (name : String) (v : Value) (m : Machine) :
    (define name v).Obeys law.statement m := ⟨rfl, law.define⟩

mutual

theorem execute_obeys (hl : limits.Obey law) : (s : Stmt) →
    {T : Ref → Heap → Heap → Prop} → law.Covers T → s.plain ∨ T = law.statement → (m : Machine) →
    (execute limits s).Obeys T m
  | .block body line, T, hT, _, m => by
    -- Whatever the body declares, seen from outside the block it is what an expression may do.
    exact (opened_obeys execute_block .current (law.lift law.refl)
      (executeAll_obeys hl body .null _)).lift hT
  | .declare name initial _, T, hT, hplain, m => by
    obtain rfl := hplain.resolve_left nofun
    rw [execute]
    exact .bind hT ((evalInitial_obeys hl initial m).lift hT) fun v m₁ _ _ _ =>
      .bind hT (define_obeys name v m₁) fun _ _ _ _ _ => .still hT rfl
  | .function decl, T, hT, hplain, m => by
    obtain rfl := hplain.resolve_left nofun
    rw [execute]
    exact .bind hT (makeFunction_obeys hT decl) fun v m₁ _ _ _ =>
      .bind hT (define_obeys decl.label v m₁) fun _ _ _ _ _ => .still hT rfl
  | .classDecl decl, T, hT, hplain, m => by
    obtain rfl := hplain.resolve_left nofun
    rw [execute]
    refine .bind hT ((makeClass_obeys hl decl m).lift hT) fun v m₁ _ _ _ =>
      .bind hT ?_ fun _ _ _ _ _ => .still hT rfl
    unfold bindClass
    split
    · next name hname => exact define_obeys name v m₁
    · exact .still hT rfl
  | .branch condition yes no _, T, hT, hplain, m => by
    rw [execute.eq_def]
    refine .bind hT ((eval_obeys hl condition m).lift hT) fun v m₁ _ _ _ => ?_
    cases no with
    | none =>
      split
      · exact execute_obeys hl yes hT hplain m₁
      · exact .still hT rfl
    | some no =>
      have harms : (yes.plain ∧ no.plain) ∨ T = law.statement := by
        simpa only [Stmt.plain, Bool.and_eq_true] using hplain
      split
      · exact execute_obeys hl yes hT (harms.imp And.left id) m₁
      · exact execute_obeys hl no hT (harms.imp And.right id) m₁
  | .loop condition body _, T, hT, hplain, m => by
    rw [execute]
    exact repeatWhile_obeys hT (fun m => (eval_obeys hl condition m).lift hT)
      (execute_obeys hl body hT hplain) _ m
  | .«return» value _, T, hT, _, m => by
    rw [execute]
    exact .bind hT ((evalInitial_obeys hl value m).lift hT) fun _ _ _ _ _ => .still hT rfl
  | .expr e _, T, hT, _, m => by
    rw [execute]
    exact .bind hT ((eval_obeys hl e m).lift hT) fun _ _ _ _ _ => .still hT rfl

theorem executeAll_obeys (hl : limits.Obey law) : (body : List Stmt) → (last : Value) → (m : Machine) →
    (executeAll limits body last).Obeys law.statement m
  | [], last, m => by
    rw [executeAll]
    exact .still law.covers_statement rfl
  | s :: rest, last, m => by
    have hT := law.covers_statement
    rw [executeAll]
    refine .bind hT (execute_obeys hl s hT (.inr rfl) m) fun flow m₁ _ _ _ => ?_
    cases flow with
    | normal value => exact executeAll_obeys hl rest value m₁
    | «return» => exact .still hT rfl

end

def enter (limits : Limits) (closure : Closure) (args : List Value) : Eval Flow := fun m =>
  let h := (m.heap.addScope (some closure.scope)).1
  within m.heap.scopes.size (executeAll limits closure.decl.body .null)
    { m with heap := h.bindParams m.heap.scopes.size closure.decl.params args }

theorem enter_run {closure : Closure} {args : List Value} {m : Machine} :
    enter limits closure args m =
      within m.heap.scopes.size (executeAll limits closure.decl.body .null)
        { m with heap := (m.heap.addScope (some closure.scope)).1.bindParams m.heap.scopes.size
                   closure.decl.params args } := rfl

theorem runClosure_run {closure : Closure} {args : List Value} {m : Machine} :
    runClosure limits closure args m = (enter limits closure args >>= fun flow =>
      match flow with
      | .«return» value => return value
      | .normal _ => return .null : Eval Value) m := rfl

theorem runClosure_obeys (hl : limits.Obey law) (closure : Closure) (args : List Value)
    (m : Machine) (hp : m.heap.Offers m.scope closure.scope) :
    (runClosure limits closure args).Obeys law.expression m := by
  have hT := law.covers_expression
  have hentered : (enter limits closure args).Obeys law.expression m :=
    opened_obeys rfl hp (bindParams_obeys _ _ _ _)
      (executeAll_obeys hl closure.decl.body .null _)
  refine .step hT runClosure_run rfl law.refl (.bind hT hentered fun flow _ _ _ _ => ?_)
  cases flow <;> exact .still hT rfl

theorem upTo_obey (law : Law) (n : Nat) : (Limits.upTo n).Obey law := by
  induction n with
  | zero => exact fun _ _ _ _ => .still law.covers_expression rfl
  | succ n ih => exact fun closure args m hp => runClosure_obeys ih closure args m hp

end

theorem runProgram_obeys (law : Law) (n : Nat) (program : List Stmt) (m : Machine) :
    (runProgram n program).Obeys law.statement m :=
  .bind law.covers_statement (executeAll_obeys (upTo_obey law n) program .null m)
    fun _ _ _ _ _ => .still law.covers_statement rfl

theorem Machine.run_machine (m : Machine) (n : Nat) (program : List Stmt) :
    (m.run n program).2 = (runProgram n program).after m := by
  unfold Machine.run Eval.after
  cases runProgram n program m <;> rfl

theorem Machine.interpret_machine (m : Machine) (n : Nat) (source : String) :
    (m.interpret n source).2 = m ∨
      ∃ program, (m.interpret n source).2 = (runProgram n program).after m := by
  unfold Machine.interpret
  cases parse source with
  | error e => exact .inl rfl
  | ok program => exact .inr ⟨program, m.run_machine n program⟩

end Scriptlet
