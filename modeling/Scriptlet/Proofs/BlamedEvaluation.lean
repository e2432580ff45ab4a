import Scriptlet.Proofs.FaultPlaces

namespace Scriptlet

section

open Eval

variable {L : Nat → Prop} {limits : Limits}

mutual

theorem eval_blames (hl : limits.Blame L) : (e : Expr) → e.every (lined L) →
    (eval limits e).Blames L
  | .literal value _, _ => by
    rw [eval]
    exact .pure _
  | .name name line, hline => by
    rw [eval]
    exact lookup_blames name hline
  | .assign name value line, ⟨hline, hvalue⟩ => by
    rw [eval]
    exact (eval_blames hl value hvalue).bind fun v => (assign_blames name v hline).bind fun _ => .pure v
  | .binary op left right line, ⟨hline, hleft, hright⟩ => by
    rw [eval]
    exact (eval_blames hl left hleft).bind fun a => (eval_blames hl right hright).bind fun b =>
      binary_blames op a b hline
  | .logical op left right _, ⟨_, hleft, hright⟩ => by
    rw [eval]
    refine (eval_blames hl left hleft).bind fun a => ?_
    split
    · exact .pure a
    · exact eval_blames hl right hright
  | .unary op operand line, ⟨hline, hoperand⟩ => by
    cases op with
    | step s =>
      rw [eval]
      exact update_blames hl s operand hoperand line hline
    | negate | identity | not | bitNot =>
      rw [eval]
      · exact (eval_blames hl operand hoperand).bind fun v => unary_blames _ v hline
      · exact nofun
  | .trailing op operand line, ⟨hline, hoperand⟩ => by
    cases op with
    | step s =>
      rw [eval]
      exact update_blames hl s operand hoperand line hline
    | negate | identity | not | bitNot =>
      rw [eval]
      · exact (eval_blames hl operand hoperand).bind fun v => unary_blames _ v hline
      · exact nofun
  | .group inner _, ⟨_, hinner⟩ => by
    rw [eval]
    exact eval_blames hl inner hinner
  | .call callee arguments line, ⟨hline, hcallee, harguments⟩ => by
    rw [eval]
    exact (eval_blames hl callee hcallee).bind fun f =>
      (evalSlots_blames hl arguments harguments).bind fun args => callValue_blames hl f args hline
  | .read holder member _, ⟨_, hholder, hmember⟩ => by
    rw [eval]
    exact (eval_blames hl holder hholder).bind fun _ => (memberKey_blames hl member hmember).bind fun _ =>
      .ask _
  | .write holder member value _, ⟨_, hholder, hmember, hvalue⟩ => by
    rw [eval.eq_def]
    refine (eval_blames hl holder hholder).bind fun h => ?_
    refine (memberKey_blames hl member hmember).bind fun key => ?_
    have hleft (left : Expr) (ih : (eval limits left).Blames L) :
        (if left.reads holder member then property h key else eval limits left).Blames L := by
      split
      · exact .ask _
      · exact ih
    refine Blames.bind ?_ fun v => (Blames.change .setProperty).bind fun _ => .pure v
    cases value with
    | binary op left right line =>
      exact (hleft left (eval_blames hl left hvalue.2.1)).bind fun a =>
        (eval_blames hl right hvalue.2.2).bind fun b => binary_blames op a b hvalue.1
    | logical op left right line =>
      refine (hleft left (eval_blames hl left hvalue.2.1)).bind fun a => ?_
      split
      · exact .pure a
      · exact eval_blames hl right hvalue.2.2
    | _ => exact eval_blames hl _ hvalue
  | .array slots _, ⟨_, hslots⟩ => by
    rw [eval]
    exact (evalSlots_blames hl slots hslots).bind fun _ => (Blames.alloc .addArray).bind fun _ => .pure _
  | .object entries _, ⟨_, hentries⟩ => by
    rw [eval]
    exact (evalEntries_blames hl entries hentries).bind fun _ => (Blames.alloc .addObject).bind fun _ =>
      .pure _
  | .function decl, ⟨_, hdecl⟩ => by
    rw [eval]
    exact makeFunction_blames hdecl
  | .classExpr decl, ⟨_, hdecl⟩ => by
    rw [eval]
    exact makeClass_blames hl decl hdecl
  | .new call line, ⟨hline, hcall⟩ => by
    cases call with
    | call callee arguments line =>
      rw [eval]
      exact (eval_blames hl callee hcall.2.1).bind fun f =>
        (evalSlots_blames hl arguments hcall.2.2).bind fun args => callValue_blames hl f args hcall.1
    | _ =>
      rw [eval.eq_def]
      exact .raise hline

theorem update_blames (hl : limits.Blame L) (s : Step) : (e : Expr) → e.every (lined L) →
    (line : Nat) → L line → (update limits s e line).Blames L
  | .name name _, _, line, hline => by
    rw [update]
    exact (lookup_blames name hline).bind fun v => (step_blames s v hline).bind fun next =>
      (assign_blames name next hline).bind fun _ => .pure next
  | .read holder member _, ⟨_, hholder, hmember⟩, line, hline => by
    rw [update]
    exact (eval_blames hl holder hholder).bind fun h => (memberKey_blames hl member hmember).bind fun key =>
      (Blames.ask _).bind fun v => (step_blames s v hline).bind fun next =>
      (Blames.change .setProperty).bind fun _ => .pure next
  | .group inner _, ⟨_, hinner⟩, line, hline => by
    rw [update]
    exact update_blames hl s inner hinner line hline
  | .literal .., _, line, hline | .assign .., _, line, hline | .binary .., _, line, hline
  | .logical .., _, line, hline | .unary .., _, line, hline | .trailing .., _, line, hline
  | .call .., _, line, hline | .write .., _, line, hline | .array .., _, line, hline
  | .object .., _, line, hline | .function _, _, line, hline | .classExpr _, _, line, hline
  | .new .., _, line, hline => by
    rw [update.eq_def]
    exact .raise hline

theorem memberKey_blames (hl : limits.Blame L) : (member : Member) → member.every (lined L) →
    (memberKey limits member).Blames L
  | .named _, _ => by
    rw [memberKey]
    exact .pure _
  | .computed key, hkey => by
    rw [memberKey]
    exact eval_blames hl key hkey

theorem evalSlots_blames (hl : limits.Blame L) : (slots : List (Option Expr)) →
    everySlot (lined L) slots → (evalSlots limits slots).Blames L
  | [], _ => by
    rw [evalSlots]
    exact .pure _
  | none :: rest, hrest => by
    rw [evalSlots]
    exact (evalSlots_blames hl rest hrest).bind fun _ => .pure _
  | some e :: rest, ⟨he, hrest⟩ => by
    rw [evalSlots]
    exact (eval_blames hl e he).bind fun _ => (evalSlots_blames hl rest hrest).bind fun _ => .pure _

theorem evalEntries_blames (hl : limits.Blame L) : (entries : List (String × Expr)) →
    everyEntry (lined L) entries → (evalEntries limits entries).Blames L
  | [], _ => by
    rw [evalEntries]
    exact .pure _
  | (_, e) :: rest, ⟨he, hrest⟩ => by
    rw [evalEntries]
    exact (eval_blames hl e he).bind fun _ => (evalEntries_blames hl rest hrest).bind fun _ => .pure _

theorem evalInitial_blames (hl : limits.Blame L) : (initial : Option Expr) →
    everyInitial (lined L) initial → (evalInitial limits initial).Blames L
  | none, _ => by
    rw [evalInitial]
    exact .pure _
  | some e, he => by
    rw [evalInitial]
    exact eval_blames hl e he

theorem classFields_blames (hl : limits.Blame L) : (members : List ClassMember) →
    everyMember (lined L) members → (classFields limits members).Blames L
  | [], _ => by
    rw [classFields]
    exact .pure _
  | .field false name initial _ :: rest, ⟨hfield, hrest⟩ => by
    rw [classFields]
    exact (evalInitial_blames hl initial hfield.2).bind fun _ =>
      (classFields_blames hl rest hrest).bind fun _ => .pure _
  | .field true _ _ _ :: rest, ⟨_, hrest⟩ | .method _ _ :: rest, ⟨_, hrest⟩ => by
    rw [classFields] <;> first | exact classFields_blames hl rest hrest | exact nofun

theorem classStatics_blames (hl : limits.Blame L) (ref scope : Ref) : (members : List ClassMember) →
    everyMember (lined L) members → (classStatics limits ref scope members).Blames L
  | [], _ => by
    rw [classStatics]
    exact .pure _
  | .field true name initial _ :: rest, ⟨hfield, hrest⟩ => by
    rw [classStatics]
    exact (evalInitial_blames hl initial hfield.2).bind fun _ =>
      (Blames.change .modifyStatics).bind fun _ => classStatics_blames hl ref scope rest hrest
  | .method true decl :: rest, ⟨hmethod, hrest⟩ => by
    rw [classStatics]
    exact (Blames.alloc (.addFunction hmethod.2)).bind fun _ =>
      (Blames.change .modifyStatics).bind fun _ => classStatics_blames hl ref scope rest hrest
  | .field false _ _ _ :: rest, ⟨_, hrest⟩ | .method false _ :: rest, ⟨_, hrest⟩ => by
    rw [classStatics] <;> first | exact classStatics_blames hl ref scope rest hrest | exact nofun

theorem makeClass_blames (hl : limits.Blame L) : (decl : ClassDecl) → decl.every (lined L) →
    (makeClass limits decl).Blames L
  | ⟨name, members, line⟩, hmembers => by
    rw [makeClass]
    refine (classFields_blames hl members hmembers).bind fun fields => ?_
    refine Blames.currentScope.bind fun current => (Blames.alloc (.addClass hmembers)).bind fun ref => ?_
    refine childScope_blames.bind fun scope => (Blames.change .define).bind fun _ => ?_
    exact (classStatics_blames hl ref scope members hmembers).bind fun _ => .pure _

end

theorem repeatWhile_blames {condition : Eval Value} {body : Eval Flow} (hc : condition.Blames L)
    (hb : body.Blames L) (n : Nat) : (repeatWhile condition body n).Blames L := by
  induction n with
  | zero => exact .exhausted
  | succ n ih =>
    refine hc.bind fun v => ?_
    split
    · refine hb.bind fun flow => ?_
      cases flow with
      | normal => exact ih
      | «return» value => exact .pure _
    · exact .pure _

mutual

theorem execute_blames (hl : limits.Blame L) : (s : Stmt) → s.every (lined L) →
    (execute limits s).Blames L
  | .block body line, ⟨_, hbody⟩ => by
    rw [execute]
    exact childScope_blames.bind fun scope => (executeAll_blames hl body hbody .null).within scope
  | .declare name initial _, ⟨_, hinitial⟩ => by
    rw [execute]
    exact (evalInitial_blames hl initial hinitial).bind fun v => (define_blames name v).bind fun _ => .pure _
  | .function decl, ⟨_, hdecl⟩ => by
    rw [execute]
    exact (makeFunction_blames hdecl).bind fun f => (define_blames _ f).bind fun _ => .pure _
  | .classDecl decl, ⟨_, hdecl⟩ => by
    rw [execute]
    refine (makeClass_blames hl decl hdecl).bind fun c => Blames.bind ?_ fun _ => .pure _
    unfold bindClass
    split
    · exact define_blames _ c
    · exact .pure _
  | .branch condition yes no _, ⟨_, hcondition, hyes, hno⟩ => by
    rw [execute.eq_def]
    refine (eval_blames hl condition hcondition).bind fun v => ?_
    split
    · exact execute_blames hl yes hyes
    · cases no with
      | none => exact .pure _
      | some no => exact execute_blames hl no hno
  | .loop condition body _, ⟨_, hcondition, hbody⟩ => by
    rw [execute]
    exact repeatWhile_blames (eval_blames hl condition hcondition) (execute_blames hl body hbody) _
  | .«return» value _, ⟨_, hvalue⟩ => by
    rw [execute]
    exact (evalInitial_blames hl value hvalue).bind fun _ => .pure _
  | .expr e _, ⟨_, he⟩ => by
    rw [execute]
    exact (eval_blames hl e he).bind fun _ => .pure _

theorem executeAll_blames (hl : limits.Blame L) : (body : List Stmt) → everyStmt (lined L) body →
    (last : Value) → (executeAll limits body last).Blames L
  | [], _, last => by
    rw [executeAll]
    exact .pure _
  | s :: rest, ⟨hs, hrest⟩, last => by
    rw [executeAll]
    refine (execute_blames hl s hs).bind fun flow => ?_
    cases flow with
    | normal value => exact executeAll_blames hl rest hrest value
    | «return» value => exact .pure _

end

theorem runClosure_blames (hl : limits.Blame L) (closure : Closure) (args : List Value)
    (hdecl : closure.decl.every (lined L)) : (runClosure limits closure args).Blames L := by
  have hbody := (FunctionDecl.every_iff.mp hdecl).2
  refine (Blames.alloc .addScope).bind fun scope => (Blames.change .bindParams).bind fun _ => ?_
  refine ((executeAll_blames hl closure.decl.body hbody .null).within scope).bind fun flow => ?_
  cases flow <;> exact .pure _

theorem upTo_blame (L : Nat → Prop) (n : Nat) : (Limits.upTo n).Blame L := by
  -- A deeper call runs under a smaller bound; where the bound is spent nothing on a line fails.
  induction n with
  | zero => exact fun _ _ _ => .exhausted
  | succ n ih => exact runClosure_blames ih

theorem runProgram_blames (n : Nat) {program : List Stmt} (hp : everyStmt (lined L) program) :
    (runProgram n program).Blames L :=
  (executeAll_blames (upTo_blame L n) program hp .null).bind fun _ => .pure _

end
end Scriptlet
