import Mathlib
import Scriptlet.Proofs.AgreeingEvaluation

/-!
Programs with the same sketch run in the same way.
-/

namespace Scriptlet

section

open Eval

variable {limits : Limits}

theorem repeatWhile_agree {c c' : Eval Value} {b b' : Eval Flow} (hc : c.Agree c') (hb : b.Agree b')
    (n : Nat) : (repeatWhile c b n).Agree (repeatWhile c' b' n) := by
  induction n with
  | zero => exact .throw rfl
  | succ n ih =>
    unfold repeatWhile
    refine .bind hc fun v => ?_
    split
    · refine .bind hb fun flow => ?_
      cases flow with
      | normal _ => exact ih
      | «return» v => exact .pure _
    · exact .pure _

mutual

theorem execute_agree (hl : limits.Agree) : (s s' : Stmt) →
    s.relined Expr.mark = s'.relined Expr.mark → (execute limits s).Agree (execute limits s')
  | .block b _, s', h => by
    cases s' with
    | block b' _ =>
      rw [execute, execute]
      exact .bind childScope_agree fun scope =>
        .within (executeAll_agree hl b b' .null (Stmt.block.inj h).1)
    | _ => cases h
  | .declare x e _, s', h => by
    cases s' with
    | declare x' e' _ =>
      obtain ⟨rfl, he, -⟩ := Stmt.declare.inj h
      rw [execute, execute]
      exact .bind (evalInitial_agree hl e e' he) fun v =>
        .bind (define_agree x v) fun _ => .pure _
    | _ => cases h
  | .function d, s', h => by
    cases s' with
    | function d' =>
      have hd := Stmt.function.inj h
      have hlabel := congrArg FunctionDecl.label hd
      rw [FunctionDecl.label_relined, FunctionDecl.label_relined] at hlabel
      rw [execute, execute, hlabel]
      exact .bind (makeFunction_agree hd) fun f => .bind (define_agree _ f) fun _ => .pure _
    | _ => cases h
  | .classDecl d, s', h => by
    cases s' with
    | classDecl d' =>
      have hd := Stmt.classDecl.inj h
      have hname := congrArg ClassDecl.name hd
      rw [ClassDecl.name_relined, ClassDecl.name_relined] at hname
      rw [execute, execute]
      refine .bind (makeClass_agree hl d d' hd) fun c => .bind ?_ fun _ => .pure _
      unfold bindClass
      rw [hname]
      cases d'.name with
      | none => exact .pure _
      | some x => exact define_agree x c
    | _ => cases h
  | .branch c yes no _, s', h => by
    cases s' with
    | branch c' yes' no' _ =>
      obtain ⟨hc, hyes, hno, -⟩ := Stmt.branch.inj h
      rw [execute.eq_def, execute.eq_def]
      refine .bind (eval_agree hl c c' hc) fun v => ?_
      split
      · exact execute_agree hl yes yes' hyes
      · cases no with
        | none =>
          cases no' with
          | none => exact .pure _
          | some s' => cases hno
        | some s =>
          cases no' with
          | none => cases hno
          | some s' => exact execute_agree hl s s' (Option.some.inj hno)
    | _ => cases h
  | .loop c b _, s', h => by
    cases s' with
    | loop c' b' _ =>
      obtain ⟨hc, hb, -⟩ := Stmt.loop.inj h
      rw [execute, execute]
      exact repeatWhile_agree (eval_agree hl c c' hc) (execute_agree hl b b' hb) limits.rounds
    | _ => cases h
  | .«return» e _, s', h => by
    cases s' with
    | «return» e' _ =>
      rw [execute, execute]
      exact .bind (evalInitial_agree hl e e' (Stmt.return.inj h).1) fun _ => .pure _
    | _ => cases h
  | .expr e _, s', h => by
    cases s' with
    | expr e' _ =>
      rw [execute, execute]
      exact .bind (eval_agree hl e e' (Stmt.expr.inj h).1) fun _ => .pure _
    | _ => cases h
termination_by structural s => s

theorem executeAll_agree (hl : limits.Agree) : (ss ss' : List Stmt) → (last : Value) →
    sketched ss = sketched ss' → (executeAll limits ss last).Agree (executeAll limits ss' last)
  | [], ss', last, h => by
    cases ss' with
    | nil => exact .pure _
    | cons _ _ => cases h
  | s :: ss, ss', last, h => by
    cases ss' with
    | nil => cases h
    | cons s' ss' =>
      obtain ⟨hs, hss⟩ := List.cons.inj h
      rw [executeAll, executeAll]
      refine .bind (execute_agree hl s s' hs) fun flow => ?_
      cases flow with
      | normal v => exact executeAll_agree hl ss ss' v hss
      | «return» v => exact .pure _
termination_by structural ss => ss

end

theorem runClosure_agree (hl : limits.Agree) {c c' : Closure} (args : List Value)
    (h : c.sketch = c'.sketch) : (runClosure limits c args).Agree (runClosure limits c' args) := by
  obtain ⟨hdecl, hscope⟩ := (Closure.mk.injEq ..).mp h
  have hparams := congrArg FunctionDecl.params hdecl
  have hbody := congrArg FunctionDecl.body hdecl
  rw [FunctionDecl.params_relined, FunctionDecl.params_relined] at hparams
  rw [FunctionDecl.body_relined, FunctionDecl.body_relined] at hbody
  unfold runClosure
  rw [hscope, hparams]
  refine .bind (.alloc fun _ => rfl) fun scope =>
    .bind (.change fun h => h.sketch_bindParams scope _ args) fun _ =>
    .bind (.within (executeAll_agree hl _ _ .null hbody)) fun flow => ?_
  cases flow with
  | normal _ => exact .pure _
  | «return» v => exact .pure _

theorem upTo_agree (n : Nat) : (Limits.upTo n).Agree := by
  -- A body that may call `n + 1` deep runs calls that may call `n` deep.
  induction n with
  | zero => exact fun _ _ _ _ => .throw rfl
  | succ n ih => exact fun _ _ args h => runClosure_agree ih args h

end

theorem runProgram_agree (n : Nat) {p q : List Stmt} (h : sketched p = sketched q) :
    (runProgram n p).Agree (runProgram n q) :=
  .bind (executeAll_agree (upTo_agree n) p q .null h) fun _ => .pure _

def Failure.erased : Failure → Failure
  | fault e => fault e.erased
  | other => other

theorem Halt.failure_erased (e : Halt) : e.failure.erased = e.erased.failure := by
  cases e <;> rfl

/-- Programs that differ in nothing but lines, and assign to properties that they read in the same places,
have the same value or fail for the same reason, print the same, and leave the same scopes, objects,
arrays and static members behind. -/
theorem run_line_independent (m : Machine) (n : Nat) {p q : List Stmt} (h : sketched p = sketched q) :
    (m.run n p).1.mapError Failure.erased = (m.run n q).1.mapError Failure.erased ∧
      (m.run n p).2.sketch = (m.run n q).2.sketch := by
  have hend := runProgram_agree n h m m rfl
  unfold Machine.run
  cases hp : runProgram n p m <;> cases hq : runProgram n q m <;>
    simp only [Eval.ending, hp, hq, Prod.mk.injEq] at hend
  · rw [Except.ok.inj hend.1]
    exact ⟨rfl, hend.2⟩
  · cases hend.1
  · cases hend.1
  · refine ⟨congrArg Except.error ?_, hend.2⟩
    rw [Halt.failure_erased, Halt.failure_erased, Except.error.inj hend.1]

def keyedSum (l : Nat) : List Stmt :=
  [.expr (.write (.name "o" 1) (.computed (.name "k" 1))
    (.binary (.arithmetic .add) (.read (.name "o" l) (.computed (.name "k" l)) l) (.name "c" l) l) 1) 1]

theorem run_line_independent_keyedSum :
    sketched (keyedSum 1) = sketched (keyedSum 2) ∧ ∀ (m : Machine) (n : Nat),
      (m.run n (keyedSum 1)).1.mapError Failure.erased =
          (m.run n (keyedSum 2)).1.mapError Failure.erased ∧
        (m.run n (keyedSum 1)).2.sketch = (m.run n (keyedSum 2)).2.sketch :=
  ⟨rfl, fun m n => run_line_independent m n rfl⟩

def toggleTwice (l : Nat) : List Lexeme :=
  ([.keyword .var, .name "b", .symbol .assign, .boolean false, .symbol .semicolon,
    .symbol .leftParen, .name "b", .symbol .assign, .symbol .bang, .name "b", .symbol .rightParen,
    .symbol .dot, .name "x", .symbol .assign] : List Token).map (⟨·, 1⟩) ++
  ([.symbol .leftParen, .name "b", .symbol .assign, .symbol .bang, .name "b", .symbol .rightParen,
    .symbol .dot, .name "x", .symbol .orOr, .boolean true, .symbol .semicolon, .name "b",
    .symbol .semicolon] : List Token).map (⟨·, l⟩)

def toggledTwice (l : Nat) : List Stmt :=
  let toggle (l : Nat) : Expr := .group (.assign "b" (.unary .not (.name "b" l) l) l) l
  [.declare "b" (some (.literal (.boolean false) 1)) 1,
    .expr (.write (toggle 1) (.named "x")
      (.logical .or (.read (toggle l) (.named "x") l) (.literal (.boolean true) l) l) 1) 1,
    .expr (.name "b" l) l]

/-- With a line break between the two holders both of them are evaluated, without it the second one is
not. -/
theorem line_break_changes_value :
    parse "var b = false; (b = !b).x = (b = !b).x || true; b;" = .ok (toggledTwice 1) ∧
      parse "var b = false; (b = !b).x =\n(b = !b).x || true; b;" = .ok (toggledTwice 2) ∧
      erased (toggledTwice 1) = erased (toggledTwice 2) ∧
      ((Machine.start 0).withGlobals.run 1 (toggledTwice 1)).1 = .ok (.boolean true) ∧
      ((Machine.start 0).withGlobals.run 1 (toggledTwice 2)).1 = .ok (.boolean false) := by
  have hline : Scan.tokens "var b = false; (b = !b).x = (b = !b).x || true; b;" =
      .ok (toggleTwice 1) := by cbv
  have hbreak : Scan.tokens "var b = false; (b = !b).x =\n(b = !b).x || true; b;" =
      .ok (toggleTwice 2) := by cbv
  refine ⟨?_, ?_, rfl, ?_, ?_⟩
  · rw [parse, hline]
    rfl
  · rw [parse, hbreak]
    rfl
  · cbv
  · cbv

end Scriptlet
