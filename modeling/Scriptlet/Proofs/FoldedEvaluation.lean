import Scriptlet.Proofs.FoldedRuns
import Scriptlet.Proofs.LawfulEvaluation
import Scriptlet.Proofs.ScopeRestoration

namespace Scriptlet

section

open Eval

variable {limits : Limits}

theorem step_mirrored (s : Step) (v : Value) (line : Nat) : (Eval.ofExcept (s.apply v line)).Mirrored :=
  .ofExcept _

mutual

theorem eval_mirrored (hl : limits.Mirror) : (e : Expr) → (eval limits e).Mirrored
  | .literal value _ => by
    rw [eval]
    exact .pure _
  | .name name line => by
    rw [eval]
    exact lookup_mirrored name line
  | .assign name value line => by
    rw [eval]
    exact (eval_mirrored hl value).bind fun v => (assign_mirrored name v line).bind fun _ => .pure v
  | .binary op left right line => by
    rw [eval]
    exact (eval_mirrored hl left).bind fun a => (eval_mirrored hl right).bind fun b =>
      binary_mirrored op a b line
  | .logical op left right _ => by
    rw [eval]
    refine (eval_mirrored hl left).bind fun a => ?_
    split
    · exact .pure a
    · exact eval_mirrored hl right
  | .unary op operand line => by
    cases op with
    | step s =>
      rw [eval]
      exact update_mirrored hl s operand line
    | negate | identity | not | bitNot =>
      rw [eval]
      · exact (eval_mirrored hl operand).bind fun v => .ofExcept _
      · exact nofun
  | .trailing op operand line => by
    cases op with
    | step s =>
      rw [eval]
      exact update_mirrored hl s operand line
    | negate | identity | not | bitNot =>
      rw [eval]
      · exact (eval_mirrored hl operand).bind fun v => .ofExcept _
      · exact nofun
  | .group inner _ => by
    rw [eval]
    exact eval_mirrored hl inner
  | .call callee arguments line => by
    rw [eval]
    exact (eval_mirrored hl callee).bind fun f => (evalSlots_mirrored hl arguments).bind fun args =>
      callValue_mirrored hl f args line
  | .read holder member _ => by
    rw [eval]
    exact (eval_mirrored hl holder).bind fun h => (memberKey_mirrored hl member).bind fun key =>
      property_mirrored h key
  | .write holder member value _ => by
    rw [eval.eq_def]
    refine (eval_mirrored hl holder).bind fun h => ?_
    refine (memberKey_mirrored hl member).bind fun key => ?_
    have hleft (left : Expr) (ih : (eval limits left).Mirrored) :
        (if left.reads holder member then property h key else eval limits left).Mirrored := by
      split
      · exact property_mirrored h key
      · exact ih
    refine Mirrored.bind ?_ fun v => (Mirrored.setProperty h key v).bind fun _ => .pure v
    cases value with
    | binary op left right line =>
      exact (hleft left (eval_mirrored hl left)).bind fun a => (eval_mirrored hl right).bind fun b =>
        binary_mirrored op a b line
    | logical op left right line =>
      refine (hleft left (eval_mirrored hl left)).bind fun a => ?_
      split
      · exact .pure a
      · exact eval_mirrored hl right
    | _ => exact eval_mirrored hl _
  | .array slots _ => by
    rw [eval]
    exact (evalSlots_mirrored hl slots).bind fun _ => (Mirrored.addArray _).bind fun _ => .pure _
  | .object entries _ => by
    rw [eval]
    exact (evalEntries_mirrored hl entries).bind fun _ => (Mirrored.addObject _).bind fun _ => .pure _
  | .function decl => by
    rw [eval]
    exact makeFunction_mirrored decl
  | .classExpr decl => by
    rw [eval]
    exact makeClass_mirrored hl decl
  | .new call line => by
    cases call with
    | call callee arguments line =>
      rw [eval]
      exact (eval_mirrored hl callee).bind fun f => (evalSlots_mirrored hl arguments).bind fun args =>
        callValue_mirrored hl f args line
    | _ =>
      rw [eval.eq_def]
      exact .raise _ _

theorem update_mirrored (hl : limits.Mirror) (s : Step) : (e : Expr) → (line : Nat) →
    (update limits s e line).Mirrored
  | .name name _, line => by
    rw [update]
    exact (lookup_mirrored name line).bind fun v => (step_mirrored s v line).bind fun next =>
      (assign_mirrored name next line).bind fun _ => .pure next
  | .read holder member _, line => by
    rw [update]
    exact (eval_mirrored hl holder).bind fun h => (memberKey_mirrored hl member).bind fun key =>
      (property_mirrored h key).bind fun v => (step_mirrored s v line).bind fun next =>
      (Mirrored.setProperty h key next).bind fun _ => .pure next
  | .group inner _, line => by
    rw [update]
    exact update_mirrored hl s inner line
  | .literal .., line | .assign .., line | .binary .., line | .logical .., line | .unary .., line
  | .trailing .., line | .call .., line | .write .., line | .array .., line | .object .., line
  | .function _, line | .classExpr _, line | .new .., line => by
    rw [update.eq_def]
    exact .raise _ _

theorem memberKey_mirrored (hl : limits.Mirror) : (member : Member) →
    (memberKey limits member).Mirrored
  | .named _ => by
    rw [memberKey]
    exact .pure _
  | .computed key => by
    rw [memberKey]
    exact eval_mirrored hl key

theorem evalSlots_mirrored (hl : limits.Mirror) : (slots : List (Option Expr)) →
    (evalSlots limits slots).Mirrored
  | [] => by
    rw [evalSlots]
    exact .pure _
  | none :: rest => by
    rw [evalSlots]
    exact (evalSlots_mirrored hl rest).bind fun _ => .pure _
  | some e :: rest => by
    rw [evalSlots]
    exact (eval_mirrored hl e).bind fun _ => (evalSlots_mirrored hl rest).bind fun _ => .pure _

theorem evalEntries_mirrored (hl : limits.Mirror) : (entries : List (String × Expr)) →
    (evalEntries limits entries).Mirrored
  | [] => by
    rw [evalEntries]
    exact .pure _
  | (_, e) :: rest => by
    rw [evalEntries]
    exact (eval_mirrored hl e).bind fun _ => (evalEntries_mirrored hl rest).bind fun _ => .pure _

theorem evalInitial_mirrored (hl : limits.Mirror) : (initial : Option Expr) →
    (evalInitial limits initial).Mirrored
  | none => by
    rw [evalInitial]
    exact .pure _
  | some e => by
    rw [evalInitial]
    exact eval_mirrored hl e

theorem classFields_mirrored (hl : limits.Mirror) : (members : List ClassMember) →
    (classFields limits members).Mirrored
  | [] => by
    rw [classFields]
    exact .pure _
  | .field false name initial _ :: rest => by
    rw [classFields]
    exact (evalInitial_mirrored hl initial).bind fun _ => (classFields_mirrored hl rest).bind fun _ =>
      .pure _
  | .field true _ _ _ :: rest | .method _ _ :: rest => by
    rw [classFields] <;> first | exact classFields_mirrored hl rest | exact nofun

theorem classStatics_mirrors (hl : limits.Mirror) (ref scope : Ref) : (members : List ClassMember) →
    (place : Ref → Ref) → (m m' : Machine) → scope < m.heap.scopes.size →
    (classStatics limits ref scope members).Mirrors (classStatics limits ref (place scope) members)
      place m m'
  | [], place, m, m', _ => by
    rw [classStatics, classStatics]
    exact Mirrored.pure _ place m m'
  | .field true name initial _ :: rest, place, m, m', hs => by
    rw [classStatics, classStatics]
    refine (evalInitial_mirrored hl initial place m m').bind fun v n n' place₁ _ hset => ?_
    have hstore := Mirrored.setProperty (.classRef ref) (.text name) v
    refine Mirrors.bind (hstore place₁ n n') fun _ k k' place₂ _ hset' => ?_
    have hsettled := hset.trans hset'
    rw [← hsettled.places scope hs]
    exact classStatics_mirrors hl ref scope rest place₂ k k' (Nat.lt_of_lt_of_le hs hsettled.size)
  | .method true decl :: rest, place, m, m', hs => by
    rw [classStatics, classStatics]
    refine (Mirrors.addFunction decl hs).bind fun f n n' place₁ _ hset => ?_
    have hstore := Mirrored.setProperty (.classRef ref) (.text (decl.name.getD "")) (.function f)
    refine Mirrors.bind (hstore place₁ n n') fun _ k k' place₂ _ hset' => ?_
    have hsettled := hset.trans hset'
    rw [← hsettled.places scope hs]
    exact classStatics_mirrors hl ref scope rest place₂ k k' (Nat.lt_of_lt_of_le hs hsettled.size)
  | .field false _ _ _ :: rest, place, m, m', hs | .method false _ :: rest, place, m, m', hs => by
    rw [classStatics, classStatics] <;>
      first | exact classStatics_mirrors hl ref scope rest place m m' hs | exact nofun

theorem makeClass_mirrored (hl : limits.Mirror) : (decl : ClassDecl) →
    (makeClass limits decl).Mirrored
  | ⟨name, members, line⟩ => by
    intro place m m'
    rw [makeClass]
    refine (classFields_mirrored hl members place m m').bind fun fields n n' place' _ _ => ?_
    refine .given fun hm => ?_
    let cell : ClassCell := ⟨⟨name, members, line⟩, n.scope, .empty, fields⟩
    have hset := Machine.settles_placing place' n'.heap (n.heap.size_addClassScope cell)
    have hsize : n'.heap.classes.size = n.heap.classes.size := by rw [hm.heap.classes, Array.size_map]
    have hscope : (⟨⟨name, members, line⟩, n'.scope, .empty, fields⟩ : ClassCell) = cell.moved place' := by
      rw [hm.scope]
      rfl
    refine .step finishClass_run finishClass_run hset (fun hm => ?_) ?_
    · rw [hscope]
      exact hm.with_heap hset (hm.heap.addClassScope hm.inside)
    · rw [hsize, ← Heap.placing_self n.heap n'.heap place']
      refine Mirrors.bind (classStatics_mirrors hl _ _ members _ _ _ ?_) fun _ k k' place'' _ _ =>
        Mirrored.pure _ place'' k k'
      rw [Heap.size_addClassScope]
      exact Nat.lt_succ_self _

end

theorem repeatWhile_mirrors {condition : Eval Value} {body : Eval Flow} {p : Prop}
    (hc : condition.Mirrored)
    (hb : ∀ place m m', p ∨ Leads place m.scope → body.Mirrors body place m m') (n : Nat)
    {place : Ref → Ref} {m m' : Machine} (hp : p ∨ Leads place m.scope) :
    (repeatWhile condition body n).Mirrors (repeatWhile condition body n) place m m' := by
  induction n generalizing place m m' with
  | zero => exact Mirrored.throw _ place m m'
  | succ n ih =>
    refine .given fun hm => (hc place m m').bind fun v k k' place₁ _ hset => ?_
    have hp₁ := hp.imp_right (hset.leads_scope hm.inside)
    split
    · refine .given fun hk => (hb place₁ k k' hp₁).bind fun flow j j' place₂ _ hset' => ?_
      cases flow with
      | normal => exact ih (hp₁.imp_right (hset'.leads_scope hk.inside))
      | «return» => exact Mirrored.pure _ place₂ j j'
    · exact Mirrored.pure _ place₁ k k'

mutual

theorem execute_mirrors (hl : limits.Mirror) : (s : Stmt) → (place : Ref → Ref) → (m m' : Machine) →
    s.plain ∨ Leads place m.scope → (execute limits s).Mirrors (execute limits s) place m m'
  | .block body _, place, m, m', _ => by
    rw [execute]
    exact scoped_mirrors (fun place m m' hlead => executeAll_mirrors hl body .null place m m' (.inr hlead))
      place m m'
  | .declare name initial _, place, m, m', hp => by
    have hlead := hp.resolve_left nofun
    rw [execute]
    refine .given fun hm => (evalInitial_mirrored hl initial place m m').bind fun v n n' place' _ hset => ?_
    exact (define_mirrors (hset.leads_scope hm.inside hlead) name v).bind fun _ k k' place'' _ _ =>
      Mirrored.pure _ place'' k k'
  | .function decl, place, m, m', hp => by
    have hlead := hp.resolve_left nofun
    rw [execute]
    refine .given fun hm => (makeFunction_mirrored decl place m m').bind fun v n n' place' _ hset => ?_
    exact (define_mirrors (hset.leads_scope hm.inside hlead) _ v).bind fun _ k k' place'' _ _ =>
      Mirrored.pure _ place'' k k'
  | .classDecl decl, place, m, m', hp => by
    have hlead := hp.resolve_left nofun
    rw [execute]
    refine .given fun hm => (makeClass_mirrored hl decl place m m').bind fun v n n' place' _ hset => ?_
    refine Mirrors.bind ?_ fun _ k k' place'' _ _ => Mirrored.pure _ place'' k k'
    unfold bindClass
    split
    · exact define_mirrors (hset.leads_scope hm.inside hlead) _ v
    · exact Mirrored.pure _ place' n n'
  | .branch condition yes no _, place, m, m', hp => by
    rw [execute.eq_def]
    refine .given fun hm => (eval_mirrored hl condition place m m').bind fun v n n' place' _ hset => ?_
    have hp' := hp.imp_right (hset.leads_scope hm.inside)
    cases no with
    | none =>
      dsimp only
      split
      · exact execute_mirrors hl yes place' n n' hp'
      · exact Mirrored.pure _ place' n n'
    | some no =>
      have harms : (yes.plain ∧ no.plain) ∨ Leads place' n.scope := by
        simpa only [Stmt.plain, Bool.and_eq_true] using hp'
      dsimp only
      split
      · exact execute_mirrors hl yes place' n n' (harms.imp_left And.left)
      · exact execute_mirrors hl no place' n n' (harms.imp_left And.right)
  | .loop condition body _, place, m, m', hp => by
    rw [execute]
    exact repeatWhile_mirrors (eval_mirrored hl condition) (execute_mirrors hl body) _ hp
  | .«return» value _, place, m, m', _ => by
    rw [execute]
    exact (evalInitial_mirrored hl value).bind (fun _ => .pure _) place m m'
  | .expr e _, place, m, m', _ => by
    rw [execute]
    exact (eval_mirrored hl e).bind (fun _ => .pure _) place m m'

theorem executeAll_mirrors (hl : limits.Mirror) : (body : List Stmt) → (last : Value) →
    (place : Ref → Ref) → (m m' : Machine) → (∀ s ∈ body, s.plain) ∨ Leads place m.scope →
    (executeAll limits body last).Mirrors (executeAll limits body last) place m m'
  | [], last, place, m, m', _ => by
    rw [executeAll]
    exact Mirrored.pure _ place m m'
  | s :: rest, last, place, m, m', hp => by
    have hs := hp.imp_left fun h => h s (.head _)
    rw [executeAll]
    refine .given fun hm => (execute_mirrors hl s place m m' hs).bind fun flow n n' place' _ hset => ?_
    have hrest := hp.imp (fun h s hs => h s (.tail _ hs)) (hset.leads_scope hm.inside)
    cases flow with
    | normal value => exact executeAll_mirrors hl rest value place' n n' hrest
    | «return» value => exact Mirrored.pure _ place' n n'

end

theorem block_mirrors (hl : limits.Mirror) {body : List Stmt} (hbody : ∀ s ∈ body, s.plain) (line : Nat)
    (place : Ref → Ref) (m m' : Machine) :
    (execute limits (.block body line)).Mirrors (executeAll limits body .null) place m m' := by
  refine .given fun hm => ?_
  have hset := Machine.settles_update place (place m.scope) (m.heap.size_addScope (some m.scope))
  refine .step execute_block rfl hset (fun hm => hm.with_heap hset (hm.heap.addFolded hm.inside)) ?_
  refine .within_folded (m.heap.lt_size_addScope _) ?_ (executeAll_mirrors hl body .null _ _ _ (.inl hbody))
  rw [Function.update_self]
  exact (hset.places _ hm.inside).symm

theorem runClosure_mirrors (hl : limits.Mirror) (closure : Closure) (args : List Value)
    (place : Ref → Ref) (m m' : Machine) (hc : closure.scope < m.heap.scopes.size) :
    (runClosure limits closure args).Mirrors (runClosure limits (closure.moved place) args)
      place m m' := by
  refine .given fun hm => ?_
  have hbound := (hm.heap.addScope hc).bindParams (m.heap.lt_size_addScope _) hm.heap.leads_placing
    closure.decl.params args
  rw [Heap.placing_self] at hbound
  have hsize : ((m.heap.addScope (some closure.scope)).1.bindParams m.heap.scopes.size closure.decl.params
      args).scopes.size = m.heap.scopes.size + 1 := by
    rw [Heap.size_bindParams, Heap.size_addScope]
  have hset := Machine.settles_placing place m'.heap hsize
  have henter : (enter limits closure args).Mirrors (enter limits (closure.moved place) args)
      place m m' := by
    refine .step enter_run enter_run hset (fun hm => hm.with_heap hset hbound) ?_
    rw [← Heap.placing_self m.heap m'.heap place]
    refine .within ?_ (executeAll_mirrors hl closure.decl.body .null _ _ _ (.inr hm.heap.leads_placing))
    rw [hsize]
    exact Nat.lt_succ_self _
  refine .step runClosure_run runClosure_run (.refl place m) id
    (henter.bind fun flow n n' place' _ _ => ?_)
  cases flow <;> exact Mirrored.pure _ place' n n'

theorem upTo_mirror (n : Nat) : (Limits.upTo n).Mirror := by
  induction n with
  | zero => exact fun _ _ place m m' _ => Mirrored.throw _ place m m'
  | succ n ih => exact runClosure_mirrors ih

theorem runProgram_mirrors (n : Nat) (program : List Stmt) {place : Ref → Ref} {m m' : Machine}
    (hlead : Leads place m.scope) :
    (runProgram n program).Mirrors (runProgram n program) place m m' :=
  (executeAll_mirrors (upTo_mirror n) program .null place m m' (.inr hlead)).bind
    fun _ k k' place' _ _ => Mirrored.pure _ place' k k'

end

namespace Machine

variable {place : Ref → Ref} {m m' : Machine}

def shown (result : Except Failure Value × Machine) : Except Failure (Value × String) × String :=
  (result.1.map fun v => (v, result.2.heap.render v), result.2.output)

def transcript (m : Machine) (n : Nat) (sources : List String) :
    List (Except Failure (Value × String) × String) :=
  (m.shared n sources).map shown

theorem run_outcome (m : Machine) (n : Nat) (program : List Stmt) :
    (m.run n program).1 = ((runProgram n program).outcome m).mapError Halt.failure := by
  unfold Machine.run Eval.outcome
  cases runProgram n program m <;> rfl

theorem Folds.interpret (hm : m.Folds place m') (hlead : Leads place m.scope) (n : Nat)
    (source : String) : (m'.interpret n source).1 = (m.interpret n source).1 ∧
      ∃ place', m.Settles place place' (m.interpret n source).2 ∧
        (m.interpret n source).2.Folds place' (m'.interpret n source).2 := by
  unfold Machine.interpret
  cases parse source with
  | error e => exact ⟨rfl, place, .refl place m, hm⟩
  | ok program =>
    obtain ⟨hout, hafter⟩ := runProgram_mirrors n program hlead hm
    dsimp only
    rw [run_outcome, run_outcome, run_machine, run_machine, hout]
    exact ⟨rfl, hafter⟩

theorem Folds.transcript (hm : m.Folds place m') (hlead : Leads place m.scope) (n : Nat)
    (sources : List String) : m'.transcript n sources = m.transcript n sources := by
  induction sources generalizing m m' place with
  | nil => rfl
  | cons source sources ih =>
    obtain ⟨hout, place', hset, hnext⟩ := hm.interpret hlead n source
    have hrest := ih hnext (hset.leads_scope hm.inside hlead)
    have hrender (v : Value) : (m'.interpret n source).2.heap.render v =
        (m.interpret n source).2.heap.render v := by
      rw [hnext.heap.recast, Heap.render_recast]
    have hshown : shown (m'.interpret n source) = shown (m.interpret n source) := by
      simp only [shown, hout, hnext.output, hrender]
    unfold Machine.transcript at hrest ⊢
    rw [shared, shared, List.map_cons, List.map_cons, hshown, hrest]

end Machine
end Scriptlet
