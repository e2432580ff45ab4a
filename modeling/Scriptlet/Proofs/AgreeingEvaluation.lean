import Scriptlet.Proofs.AgreeingRuns
import Scriptlet.Proofs.ResumedTargets

namespace Scriptlet

section

open Eval

variable {limits : Limits}

theorem render_eq_of_relined {mark : Expr → Member → Expr → Nat} {e e' : Expr}
    (h : e.relined mark = e'.relined mark) : e.render = e'.render := by
  rw [← e.render_relined mark, h, e'.render_relined]

theorem combine_agree {op : Operator} (current : Value) {right right' : Expr} (l l' : Nat)
    (h : (eval limits right).Agree (eval limits right')) :
    (combine limits op current right l).Agree (combine limits op current right' l') := by
  cases op with
  | binary op => exact .bind h fun _ => binary_agree op _ _ l l'
  | logical op =>
    rw [combine_logical, combine_logical]
    split
    · exact .pure _
    · exact h

theorem combineAndStore_agree {holder holder' right right' : Expr} {member member' : Member}
    {op : Operator} (l l' : Nat) (hh : (eval limits holder).Agree (eval limits holder'))
    (hm : (memberKey limits member).Agree (memberKey limits member'))
    (hr : (eval limits right).Agree (eval limits right')) :
    (combineAndStore limits holder member op right l).Agree
      (combineAndStore limits holder' member' op right' l') :=
  have htarget : (combineTarget limits holder member op right l).Agree
      (combineTarget limits holder' member' op right' l') :=
    .bind hh fun _ => .bind hm fun _ => .bind (property_agree _ _) fun current =>
      .bind (combine_agree current l l' hr) fun _ => .pure _
  .bind htarget fun _ => .bind (.change fun h => h.sketch_setProperty _ _ _) fun _ => .pure _

theorem evalAndStore_agree {holder holder' value value' : Expr} {member member' : Member}
    (hh : (eval limits holder).Agree (eval limits holder'))
    (hm : (memberKey limits member).Agree (memberKey limits member'))
    (hv : (eval limits value).Agree (eval limits value')) :
    (evalAndStore limits holder member value).Agree (evalAndStore limits holder' member' value') :=
  .bind hh fun _ => .bind hm fun _ => .bind hv fun _ =>
    .bind (.change fun h => h.sketch_setProperty _ _ _) fun _ => .pure _

theorem write_join_agree {holder holder' left left' right right' : Expr} {member member' : Member}
    (op : Operator) {l l' line line' : Nat}
    (hmark : Expr.mark holder member (op.join left right line) =
      Expr.mark holder' member' (op.join left' right' line'))
    (hset : Expr.mark holder member (op.join left right line) ≠ 0)
    (hh : (eval limits holder).Agree (eval limits holder'))
    (hm : (memberKey limits member).Agree (memberKey limits member'))
    (hr : (eval limits right).Agree (eval limits right')) :
    (eval limits (.write holder member (op.join left right line) l)).Agree
      (eval limits (.write holder' member' (op.join left' right' line') l')) := by
  have hset' := hmark ▸ hset
  have hresumes : left.resumes holder member := by simpa [Expr.mark_join] using hset
  have hresumes' : left'.resumes holder' member' := by simpa [Expr.mark_join] using hset'
  rw [eval_write_resumes hresumes, eval_write_resumes hresumes']
  exact combineAndStore_agree line line' hh hm hr

mutual

theorem eval_agree (hl : limits.Agree) : (e e' : Expr) → e.relined Expr.mark = e'.relined Expr.mark →
    (eval limits e).Agree (eval limits e')
  | .literal v _, e', h => by
    cases e' with
    | literal v' _ =>
      obtain ⟨rfl, -⟩ := Expr.literal.inj h
      rw [eval, eval]
      exact .pure _
    | _ => cases h
  | .name x l, e', h => by
    cases e' with
    | name x' l' =>
      obtain ⟨rfl, -⟩ := Expr.name.inj h
      rw [eval, eval]
      exact lookup_agree x l l'
    | _ => cases h
  | .assign x value l, e', h => by
    cases e' with
    | assign x' value' l' =>
      obtain ⟨rfl, hv, -⟩ := Expr.assign.inj h
      rw [eval, eval]
      exact .bind (eval_agree hl value value' hv) fun v =>
        .bind (assign_agree x v l l') fun _ => .pure _
    | _ => cases h
  | .binary op a b l, e', h => by
    cases e' with
    | binary op' a' b' l' =>
      obtain ⟨rfl, ha, hb, -⟩ := Expr.binary.inj h
      rw [eval, eval]
      exact .bind (eval_agree hl a a' ha) fun _ => .bind (eval_agree hl b b' hb) fun _ =>
        binary_agree op _ _ l l'
    | _ => cases h
  | .logical op a b _, e', h => by
    cases e' with
    | logical op' a' b' _ =>
      obtain ⟨rfl, ha, hb, -⟩ := Expr.logical.inj h
      rw [eval, eval]
      refine .bind (eval_agree hl a a' ha) fun _ => ?_
      split
      · exact .pure _
      · exact eval_agree hl b b' hb
    | _ => cases h
  | .unary op e l, e', h => by
    cases e' with
    | unary op' e' l' =>
      obtain ⟨rfl, he, -⟩ := Expr.unary.inj h
      cases op with
      | step s =>
        rw [eval, eval]
        exact update_agree hl s e e' l l' he
      | negate | identity | not | bitNot =>
        simp only [eval]
        exact .bind (eval_agree hl e e' he) fun v => .ofExcept (unary_line _ v l l')
    | _ => cases h
  | .trailing op e l, e', h => by
    cases e' with
    | trailing op' e' l' =>
      obtain ⟨rfl, he, -⟩ := Expr.trailing.inj h
      cases op with
      | step s =>
        rw [eval, eval]
        exact update_agree hl s e e' l l' he
      | negate | identity | not | bitNot =>
        simp only [eval]
        exact .bind (eval_agree hl e e' he) fun v => .ofExcept (unary_line _ v l l')
    | _ => cases h
  | .group e _, e', h => by
    cases e' with
    | group e' _ =>
      rw [eval, eval]
      exact eval_agree hl e e' (Expr.group.inj h).1
    | _ => cases h
  | .call f as l, e', h => by
    cases e' with
    | call f' as' l' =>
      obtain ⟨hf, has, -⟩ := Expr.call.inj h
      rw [eval, eval]
      exact .bind (eval_agree hl f f' hf) fun _ => .bind (evalSlots_agree hl as as' has) fun _ =>
        callValue_agree hl _ _ l l'
    | _ => cases h
  | .read holder member _, e', h => by
    cases e' with
    | read holder' member' _ =>
      obtain ⟨hh, hm, -⟩ := Expr.read.inj h
      rw [eval, eval]
      exact .bind (eval_agree hl holder holder' hh) fun _ =>
        .bind (memberKey_agree hl member member' hm) fun _ => property_agree _ _
    | _ => cases h
  | .write holder member value _, e', h => by
    cases e' with
    | write holder' member' value' _ =>
      obtain ⟨hh, hm, hv, hmark⟩ := Expr.write.inj h
      have hholder := eval_agree hl holder holder' hh
      have hmember := memberKey_agree hl member member' hm
      -- The marks are equal, so either both trees combine what the target holds or neither does.
      by_cases hset : Expr.mark holder member value = 0
      · rw [eval_write_unmarked hset, eval_write_unmarked (hmark ▸ hset)]
        exact evalAndStore_agree hholder hmember (eval_agree hl value value' hv)
      · cases value with
        | binary op left right line =>
          cases value' with
          | binary op' left' right' line' =>
            obtain ⟨rfl, -, hr, -⟩ := Expr.binary.inj hv
            exact write_join_agree (.binary op) hmark hset hholder hmember
              (eval_agree hl right right' hr)
          | _ => cases hv
        | logical op left right line =>
          cases value' with
          | logical op' left' right' line' =>
            obtain ⟨rfl, -, hr, -⟩ := Expr.logical.inj hv
            exact write_join_agree (.logical op) hmark hset hholder hmember
              (eval_agree hl right right' hr)
          | _ => cases hv
        | _ => exact absurd rfl hset
    | _ => cases h
  | .array as _, e', h => by
    cases e' with
    | array as' _ =>
      rw [eval, eval]
      exact .bind (evalSlots_agree hl as as' (Expr.array.inj h).1) fun _ =>
        .bind (.alloc fun _ => rfl) fun _ => .pure _
    | _ => cases h
  | .object es _, e', h => by
    cases e' with
    | object es' _ =>
      rw [eval, eval]
      exact .bind (evalEntries_agree hl es es' (Expr.object.inj h).1) fun _ =>
        .bind (.alloc fun _ => rfl) fun _ => .pure _
    | _ => cases h
  | .function d, e', h => by
    cases e' with
    | function d' =>
      rw [eval, eval]
      exact makeFunction_agree (Expr.function.inj h)
    | _ => cases h
  | .classExpr d, e', h => by
    cases e' with
    | classExpr d' =>
      rw [eval, eval]
      exact makeClass_agree hl d d' (Expr.classExpr.inj h)
    | _ => cases h
  | .new call l, e', h => by
    cases e' with
    | new call' l' =>
      obtain ⟨hc, -⟩ := Expr.new.inj h
      cases call with
      | call f as l =>
        cases call' with
        | call f' as' l' =>
          obtain ⟨hf, has, -⟩ := Expr.call.inj hc
          rw [eval, eval]
          exact .bind (eval_agree hl f f' hf) fun _ => .bind (evalSlots_agree hl as as' has) fun _ =>
            callValue_agree hl _ _ l l'
        | _ => cases hc
      | _ =>
        have hrender := render_eq_of_relined hc
        cases call' <;> first
          | cases hc; done
          | rw [eval.eq_def, eval.eq_def]
            dsimp only
            rw [hrender]
            exact .raise _ l l'
    | _ => cases h
termination_by structural e => e

theorem update_agree (hl : limits.Agree) (s : Step) : (e e' : Expr) → (l l' : Nat) →
    e.relined Expr.mark = e'.relined Expr.mark → (update limits s e l).Agree (update limits s e' l')
  | .name x _, e', l, l', h => by
    cases e' with
    | name x' _ =>
      obtain ⟨rfl, -⟩ := Expr.name.inj h
      rw [update, update]
      exact .bind (lookup_agree x l l') fun v => .bind (.ofExcept (step_line s v l l')) fun next =>
        .bind (assign_agree x next l l') fun _ => .pure _
    | _ => cases h
  | .read holder member _, e', l, l', h => by
    cases e' with
    | read holder' member' _ =>
      obtain ⟨hh, hm, -⟩ := Expr.read.inj h
      rw [update, update]
      exact .bind (eval_agree hl holder holder' hh) fun _ =>
        .bind (memberKey_agree hl member member' hm) fun _ => .bind (property_agree _ _) fun v =>
        .bind (.ofExcept (step_line s v l l')) fun _ =>
        .bind (.change fun h => h.sketch_setProperty _ _ _) fun _ => .pure _
    | _ => cases h
  | .group e _, e', l, l', h => by
    cases e' with
    | group e' _ =>
      rw [update, update]
      exact update_agree hl s e e' l l' (Expr.group.inj h).1
    | _ => cases h
  | .literal .., e', l, l', h | .assign .., e', l, l', h | .binary .., e', l, l', h
  | .logical .., e', l, l', h | .unary .., e', l, l', h | .trailing .., e', l, l', h
  | .call .., e', l, l', h | .write .., e', l, l', h | .array .., e', l, l', h
  | .object .., e', l, l', h | .function _, e', l, l', h | .classExpr _, e', l, l', h
  | .new .., e', l, l', h => by
    have hrender := render_eq_of_relined h
    cases e' <;> first
      | cases h; done
      | rw [update.eq_def, update.eq_def]
        dsimp only
        rw [hrender]
        exact .raise _ l l'
termination_by structural e => e

theorem memberKey_agree (hl : limits.Agree) : (m m' : Member) →
    m.relined Expr.mark = m'.relined Expr.mark → (memberKey limits m).Agree (memberKey limits m')
  | .named x, m', h => by
    cases m' with
    | named x' =>
      obtain rfl := Member.named.inj h
      rw [memberKey]
      exact .pure _
    | computed key' => cases h
  | .computed key, m', h => by
    cases m' with
    | named x' => cases h
    | computed key' =>
      rw [memberKey, memberKey]
      exact eval_agree hl key key' (Member.computed.inj h)
termination_by structural m => m

theorem evalSlots_agree (hl : limits.Agree) : (as as' : List (Option Expr)) →
    relinedSlots Expr.mark as = relinedSlots Expr.mark as' →
    (evalSlots limits as).Agree (evalSlots limits as')
  | [], as', h => by
    cases as' with
    | nil => exact .pure _
    | cons a _ => cases a <;> cases h
  | none :: as, as', h => by
    cases as' with
    | nil => cases h
    | cons a as' =>
      cases a with
      | none =>
        rw [evalSlots, evalSlots]
        exact .bind (evalSlots_agree hl as as' (List.cons.inj h).2) fun _ => .pure _
      | some e => cases h
  | some e :: as, as', h => by
    cases as' with
    | nil => cases h
    | cons a as' =>
      cases a with
      | none => cases h
      | some e' =>
        obtain ⟨he, has⟩ := List.cons.inj h
        rw [evalSlots, evalSlots]
        exact .bind (eval_agree hl e e' (Option.some.inj he)) fun _ =>
          .bind (evalSlots_agree hl as as' has) fun _ => .pure _
termination_by structural as => as

theorem evalEntries_agree (hl : limits.Agree) : (es es' : List (String × Expr)) →
    relinedEntries Expr.mark es = relinedEntries Expr.mark es' →
    (evalEntries limits es).Agree (evalEntries limits es')
  | [], es', h => by
    cases es' with
    | nil => exact .pure _
    | cons _ _ => cases h
  | (x, e) :: es, es', h => by
    cases es' with
    | nil => cases h
    | cons entry es' =>
      obtain ⟨x', e'⟩ := entry
      obtain ⟨hentry, hes⟩ := List.cons.inj h
      obtain ⟨rfl, he⟩ := Prod.mk.inj hentry
      rw [evalEntries, evalEntries]
      exact .bind (eval_agree hl e e' he) fun _ =>
        .bind (evalEntries_agree hl es es' hes) fun _ => .pure _
termination_by structural es => es

theorem evalInitial_agree (hl : limits.Agree) : (e e' : Option Expr) →
    relinedInitial Expr.mark e = relinedInitial Expr.mark e' →
    (evalInitial limits e).Agree (evalInitial limits e')
  | none, e', h => by
    cases e' with
    | none => exact .pure _
    | some e' => cases h
  | some e, e', h => by
    cases e' with
    | none => cases h
    | some e' =>
      rw [evalInitial, evalInitial]
      exact eval_agree hl e e' (Option.some.inj h)
termination_by structural e => e

theorem classFields_agree (hl : limits.Agree) : (ms ms' : List ClassMember) →
    relinedMembers Expr.mark ms = relinedMembers Expr.mark ms' →
    (classFields limits ms).Agree (classFields limits ms')
  | [], ms', h => by
    cases ms' with
    | nil => exact .pure _
    | cons _ _ => cases h
  | .field isStatic x e _ :: ms, ms', h => by
    cases ms' with
    | nil => cases h
    | cons m ms' =>
      obtain ⟨hm, hms⟩ := List.cons.inj h
      cases m with
      | field isStatic' x' e' _ =>
        obtain ⟨rfl, rfl, he, -⟩ := ClassMember.field.inj hm
        cases isStatic with
        | false =>
          rw [classFields, classFields]
          exact .bind (evalInitial_agree hl e e' he) fun _ =>
            .bind (classFields_agree hl ms ms' hms) fun _ => .pure _
        | true =>
          simp only [classFields]
          exact classFields_agree hl ms ms' hms
      | method _ _ => cases hm
  | .method _ _ :: ms, ms', h => by
    cases ms' with
    | nil => cases h
    | cons m ms' =>
      obtain ⟨hm, hms⟩ := List.cons.inj h
      cases m with
      | field _ _ _ _ => cases hm
      | method _ _ =>
        simp only [classFields]
        exact classFields_agree hl ms ms' hms
termination_by structural ms => ms

theorem classStatics_agree (hl : limits.Agree) (ref scope : Ref) : (ms ms' : List ClassMember) →
    relinedMembers Expr.mark ms = relinedMembers Expr.mark ms' →
    (classStatics limits ref scope ms).Agree (classStatics limits ref scope ms')
  | [], ms', h => by
    cases ms' with
    | nil => exact .pure _
    | cons _ _ => cases h
  | .field isStatic x e _ :: ms, ms', h => by
    cases ms' with
    | nil => cases h
    | cons m ms' =>
      obtain ⟨hm, hms⟩ := List.cons.inj h
      cases m with
      | field isStatic' x' e' _ =>
        obtain ⟨rfl, rfl, he, -⟩ := ClassMember.field.inj hm
        cases isStatic with
        | false =>
          simp only [classStatics]
          exact classStatics_agree hl ref scope ms ms' hms
        | true =>
          rw [classStatics, classStatics]
          exact .bind (evalInitial_agree hl e e' he) fun _ =>
            .bind (.change fun h => h.sketch_modifyStatics _ _) fun _ =>
            classStatics_agree hl ref scope ms ms' hms
      | method _ _ => cases hm
  | .method isStatic d :: ms, ms', h => by
    cases ms' with
    | nil => cases h
    | cons m ms' =>
      obtain ⟨hm, hms⟩ := List.cons.inj h
      cases m with
      | field _ _ _ _ => cases hm
      | method isStatic' d' =>
        obtain ⟨rfl, hd⟩ := ClassMember.method.inj hm
        cases isStatic with
        | false =>
          simp only [classStatics]
          exact classStatics_agree hl ref scope ms ms' hms
        | true =>
          have hname := congrArg FunctionDecl.name hd
          rw [FunctionDecl.name_relined, FunctionDecl.name_relined] at hname
          rw [classStatics, classStatics, hname]
          exact .bind (addFunction_agree scope hd) fun _ =>
            .bind (.change fun h => h.sketch_modifyStatics _ _) fun _ =>
            classStatics_agree hl ref scope ms ms' hms
termination_by structural ms => ms

theorem makeClass_agree (hl : limits.Agree) : (d d' : ClassDecl) →
    d.relined Expr.mark = d'.relined Expr.mark → (makeClass limits d).Agree (makeClass limits d')
  | ⟨x, ms, l⟩, ⟨x', ms', l'⟩, h => by
    obtain ⟨rfl, hms, -⟩ := (ClassDecl.mk.injEq ..).mp h
    have hcell (scope : Ref) (fields : List (String × Value)) :
        (alloc (·.addClass ⟨⟨x, ms, l⟩, scope, .empty, fields⟩)).Agree
          (alloc (·.addClass ⟨⟨x, ms', l'⟩, scope, .empty, fields⟩)) := by
      have hsketch : ClassCell.sketch ⟨⟨x, ms, l⟩, scope, .empty, fields⟩ =
          ClassCell.sketch ⟨⟨x, ms', l'⟩, scope, .empty, fields⟩ :=
        congrArg (ClassCell.mk · scope .empty fields) h
      refine .alloc_as (·.addClass (ClassCell.sketch ⟨⟨x, ms, l⟩, scope, .empty, fields⟩))
        (fun h => h.sketch_addClass _) ?_
      rw [hsketch]
      exact fun h => h.sketch_addClass _
    rw [makeClass, makeClass]
    exact .bind (classFields_agree hl ms ms' hms) fun fields => .bind .currentScope fun scope =>
      .bind (hcell scope fields) fun ref => .bind childScope_agree fun scope =>
      .bind (.change fun _ => rfl) fun _ =>
      .bind (classStatics_agree hl ref scope ms ms' hms) fun _ => .pure _
termination_by structural d => d

end

end
end Scriptlet
