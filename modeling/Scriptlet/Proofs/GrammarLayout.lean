import Scriptlet.Proofs.MappedLines
import Scriptlet.Proofs.MovedLexemes

namespace Scriptlet

section

variable (f : Nat → Nat)

def Place.mapLines : Place → Place
  | .name n => .name n
  | .property holder member => .property (holder.mapLines f) (member.mapLines f)

theorem Expr.place?_mapLines (e : Expr) : (e.mapLines f).place? = e.place?.map (Place.mapLines f) := by
  cases e <;> rfl

theorem Place.store_mapLines (place : Place) (value : Expr) (line : Nat) :
    (place.mapLines f).store (value.mapLines f) (f line) = (place.store value line).mapLines f := by
  cases place <;> rfl

theorem AssignOp.value_mapLines (op : AssignOp) (target right : Expr) (line : Nat) :
    op.value (target.mapLines f) (right.mapLines f) (f line) =
      (op.value target right line).mapLines f := by
  cases op <;> rfl

theorem mapBody_append (a b : List Stmt) : mapBody f (a ++ b) = mapBody f a ++ mapBody f b := by
  induction a with
  | nil => rfl
  | cons s a ih => rw [List.cons_append, mapBody, ih, mapBody, List.cons_append]

theorem mapBody_toList (s : Option Stmt) : mapBody f s.toList = (mapElse f s).toList := by
  cases s <;> rfl

theorem Stmt.advanced_mapLines (body : Stmt) (advance : Option Expr) (line : Nat) :
    (body.mapLines f).advanced (mapInitial f advance) (f line) =
      (body.advanced advance line).mapLines f := by
  cases advance with
  | none => rfl
  | some e =>
    change Stmt.block [_, .expr _ (e.mapLines f).line] _ = _
    rw [e.line_mapLines]
    rfl

theorem Stmt.forLoop_mapLines (initial : Option Stmt) (condition advance : Option Expr) (body : Stmt)
    (line : Nat) :
    Stmt.forLoop (mapElse f initial) (mapInitial f condition) (mapInitial f advance) (body.mapLines f)
      (f line) = (Stmt.forLoop initial condition advance body line).mapLines f := by
  rw [forLoop, forLoop, advanced_mapLines, Stmt.mapLines, mapBody_append, mapBody_toList]
  cases condition <;> rfl

theorem mapElse_eq (s : Option Stmt) : mapElse f s = s.map (Stmt.mapLines f) := by
  cases s <;> rfl

theorem mapInitial_eq (e : Option Expr) : mapInitial f e = e.map (Expr.mapLines f) := by
  cases e <;> rfl

end

namespace Grammar

open Parse

variable {f : Nat → Nat} {inner : Inner}

structure InnerCarries (f : Nat → Nat) (inner : Inner) : Prop where
  expression : Carries f (Expr.mapLines f) (inner .expression) (inner .expression)
  unary : Carries f (Expr.mapLines f) (inner .unary) (inner .unary)
  exponent : Carries f (Expr.mapLines f) (inner .exponent) (inner .exponent)
  statement : Carries f (Stmt.mapLines f) (inner .statement) (inner .statement)
  declaration : Carries f (Stmt.mapLines f) (inner .declaration) (inner .declaration)

theorem slotsFrom_carries (hi : InnerCarries f inner) (closing : Symbol) (n : Nat) :
    Carries f (mapSlots f) (slotsFrom inner closing n) (slotsFrom inner closing n) := by
  induction n with
  | zero => exact .starved
  | succ n ih =>
    refine Carries.accept.bind fun closed => ?_
    cases closed with
    | true => exact .pure rfl
    | false =>
      refine Carries.accept.bind fun empty => ?_
      cases empty with
      | true => exact ih.map fun _ => rfl
      | false =>
        refine hi.expression.bind fun e => Carries.separator.bind fun more => ?_
        cases more with
        | true => exact ih.map fun _ => rfl
        | false => exact .pure rfl

theorem slots_carries (hi : InnerCarries f inner) (closing : Symbol) :
    Carries f (mapSlots f) (slots inner closing) (slots inner closing) :=
  .bounded (slotsFrom_carries hi closing)

theorem entriesFrom_carries (hi : InnerCarries f inner) (n : Nat) :
    Carries f (mapEntries f) (entriesFrom inner n) (entriesFrom inner n) := by
  induction n with
  | zero => exact .starved
  | succ n ih =>
    refine Carries.accept.bind fun closed => ?_
    cases closed with
    | true => exact .pure rfl
    | false =>
      refine Carries.require.bind fun key => Carries.expect.bind fun _ => ?_
      refine hi.expression.bind fun e => Carries.accept.bind fun more => ?_
      cases more with
      | true => exact ih.map fun _ => rfl
      | false => exact Carries.expect.map fun _ => rfl

theorem entries_carries (hi : InnerCarries f inner) :
    Carries f (mapEntries f) (entries inner) (entries inner) :=
  .bounded (entriesFrom_carries hi)

theorem namesFrom_carries (n : Nat) : Carries f id (namesFrom n) (namesFrom n) := by
  induction n with
  | zero => exact .starved
  | succ n ih =>
    refine Carries.identifier.bind fun name => Carries.separator.bind fun more => ?_
    cases more with
    | true => exact ih.map fun _ => rfl
    | false => exact .pure rfl

theorem parameters_carries : Carries f id parameters parameters := by
  refine Carries.accept.bind fun closed => ?_
  cases closed with
  | true => exact .pure rfl
  | false => exact .bounded namesFrom_carries

theorem statementsFrom_carries (hi : InnerCarries f inner) (n : Nat) :
    Carries f (mapBody f) (statementsFrom inner n) (statementsFrom inner n) := by
  induction n with
  | zero => exact .starved
  | succ n ih =>
    refine Carries.skipSemicolons.bind fun _ => Carries.accept.bind fun closed => ?_
    cases closed with
    | true => exact .pure rfl
    | false => exact hi.declaration.bind fun first => ih.map fun _ => rfl

theorem block_carries (hi : InnerCarries f inner) :
    Carries f (mapBody f) (block inner) (block inner) :=
  .bounded fun n => statementsFrom_carries hi (n + 1)

theorem functionRest_carries (hi : InnerCarries f inner) (name : Option String) (line : Nat) :
    Carries f (FunctionDecl.mapLines f) (functionRest inner name line)
      (functionRest inner name (f line)) := by
  refine Carries.expect.bind fun _ => parameters_carries.bind fun params => ?_
  refine (Carries.limit (by simp)).bind fun _ => Carries.expect.bind fun _ => ?_
  exact (block_carries hi).map fun _ => rfl

theorem initial_carries (hi : InnerCarries f inner) :
    Carries f (mapInitial f) (after (.symbol .assign) (inner .expression))
      (after (.symbol .assign) (inner .expression)) := by
  rw [funext (mapInitial_eq f)]
  exact .after hi.expression

theorem member_carries (hi : InnerCarries f inner) :
    Carries f (ClassMember.mapLines f) (member inner) (member inner) := by
  refine Carries.accept.bind fun isStatic => Carries.require.bind fun name => ?_
  refine Carries.sees.bind fun method => ?_
  cases method with
  | true => exact (functionRest_carries hi _ _).map fun _ => rfl
  | false => exact (initial_carries hi).bind fun initial => .optionalSemicolon rfl

theorem membersFrom_carries (hi : InnerCarries f inner) (n : Nat) :
    Carries f (mapMembers f) (membersFrom inner n) (membersFrom inner n) := by
  induction n with
  | zero => exact .starved
  | succ n ih =>
    refine Carries.skipSemicolons.bind fun _ => Carries.accept.bind fun closed => ?_
    cases closed with
    | true => exact .pure rfl
    | false => exact (member_carries hi).bind fun first => ih.map fun _ => rfl

theorem classRest_carries (hi : InnerCarries f inner) (name : Option String) (line : Nat) :
    Carries f (ClassDecl.mapLines f) (classRest inner name line) (classRest inner name (f line)) := by
  refine Carries.expect.bind fun _ => Carries.map ?_ fun _ => rfl
  exact .bounded fun n => membersFrom_carries hi (n + 1)

theorem primary_carries (hi : InnerCarries f inner) :
    Carries f (Expr.mapLines f) (primary inner) (primary inner) := by
  refine Carries.next.bind ?_
  rintro ⟨t, line⟩
  cases t with
  | integer | real | text | boolean | name => exact .pure rfl
  | keyword k =>
    cases k with
    | null | this => exact .pure rfl
    | function =>
      refine (Carries.take? _).bind fun name => ?_
      cases name with
      | none => exact (functionRest_carries hi _ _).map fun _ => rfl
      | some name => exact (functionRest_carries hi _ _).map fun _ => rfl
    | «class» =>
      refine (Carries.take? _).bind fun name => ?_
      cases name with
      | none => exact (classRest_carries hi _ _).map fun _ => rfl
      | some name => exact (classRest_carries hi _ _).map fun _ => rfl
    | _ => exact .fail (by simp)
  | symbol s =>
    cases s with
    | leftParen => exact hi.expression.bind fun e => Carries.expect.map fun _ => rfl
    | leftBracket => exact (slots_carries hi _).map fun _ => rfl
    | leftBrace => exact (entries_carries hi).map fun _ => rfl
    | _ => exact .fail (by simp)

theorem accessFrom_carries (hi : InnerCarries f inner) (n : Nat) (e : Expr) :
    Carries f (Expr.mapLines f) (accessFrom inner n e) (accessFrom inner n (e.mapLines f)) := by
  induction n generalizing e with
  | zero => exact .pure rfl
  | succ n ih =>
    refine Carries.take?_bind (.pure rfl) fun access line => ?_
    cases access with
    | arguments =>
      refine (slots_carries hi _).bind fun arguments => ?_
      rw [length_mapSlots]
      exact (Carries.limit (by simp)).bind fun _ => ih (.call e arguments line)
    | name => exact Carries.identifier.bind fun name => ih (.read e (.named name) line)
    | key =>
      refine hi.expression.bind fun key => Carries.expect.bind fun _ => ?_
      exact ih (.read e (.computed key) line)

theorem call_carries (hi : InnerCarries f inner) :
    Carries f (Expr.mapLines f) (call inner) (call inner) :=
  (primary_carries hi).bind fun e => .bounded fun n => accessFrom_carries hi n e

theorem creation_carries (hi : InnerCarries f inner) :
    Carries f (Expr.mapLines f) (creation inner) (creation inner) :=
  .take?_bind (call_carries hi) fun _ _ => (call_carries hi).map fun _ => rfl

theorem trailing_carries (hi : InnerCarries f inner) :
    Carries f (Expr.mapLines f) (trailing inner) (trailing inner) :=
  (creation_carries hi).bind fun _ => .take?_bind (.pure rfl) fun _ _ => .pure rfl

theorem unary_carries (hi : InnerCarries f inner) :
    Carries f (Expr.mapLines f) (unary inner) (unary inner) :=
  .take?_bind (trailing_carries hi) fun _ _ => hi.unary.map fun _ => rfl

theorem exponent_carries (hi : InnerCarries f inner) :
    Carries f (Expr.mapLines f) (exponent inner) (exponent inner) :=
  (unary_carries hi).bind fun _ => .take?_bind (.pure rfl) fun _ _ => hi.exponent.map fun _ => rfl

section chains

variable {op : Type} {operand : Parse Expr} {select : Symbol → Option op}
  {join : op → Expr → Expr → Nat → Expr}

theorem chainFrom_carries (ho : Carries f (Expr.mapLines f) operand operand)
    (hjoin : ∀ o a b l, join o (a.mapLines f) (b.mapLines f) (f l) = (join o a b l).mapLines f)
    (n : Nat) (left : Expr) :
    Carries f (Expr.mapLines f) (chainFrom operand select join n left)
      (chainFrom operand select join n (left.mapLines f)) := by
  induction n generalizing left with
  | zero => exact .pure rfl
  | succ n ih =>
    refine Carries.take?_bind (.pure rfl) fun o line => ho.bind fun right => ?_
    rw [hjoin]
    exact ih _

theorem chain_carries (ho : Carries f (Expr.mapLines f) operand operand)
    (hjoin : ∀ o a b l, join o (a.mapLines f) (b.mapLines f) (f l) = (join o a b l).mapLines f) :
    Carries f (Expr.mapLines f) (chain operand select join) (chain operand select join) :=
  ho.bind fun left => .bounded fun n => chainFrom_carries ho hjoin n left

end chains

theorem logicalOr_carries (hi : InnerCarries f inner) :
    Carries f (Expr.mapLines f) (logicalOr inner) (logicalOr inner) := by
  have binary {operand : Parse Expr} {select : Symbol → Option BinaryOp}
      (ho : Carries f (Expr.mapLines f) operand operand) :
      Carries f (Expr.mapLines f) (chain operand select .binary) (chain operand select .binary) :=
    chain_carries ho fun _ _ _ _ => rfl
  have logical {operand : Parse Expr} {select : Symbol → Option LogicalOp}
      (ho : Carries f (Expr.mapLines f) operand operand) :
      Carries f (Expr.mapLines f) (chain operand select .logical) (chain operand select .logical) :=
    chain_carries ho fun _ _ _ _ => rfl
  have multiplicative : Carries f (Expr.mapLines f) (multiplicative inner) (multiplicative inner) :=
    binary (exponent_carries hi)
  have shift : Carries f (Expr.mapLines f) (shift inner) (shift inner) :=
    binary (binary multiplicative)
  have equality : Carries f (Expr.mapLines f) (equality inner) (equality inner) :=
    binary (binary shift)
  have bitOr : Carries f (Expr.mapLines f) (bitOr inner) (bitOr inner) :=
    binary (binary (binary equality))
  exact logical (logical bitOr)

theorem assignment_carries (hi : InnerCarries f inner) :
    Carries f (Expr.mapLines f) (assignment inner) (assignment inner) := by
  refine (logicalOr_carries hi).bind fun target => ?_
  refine Carries.take?_bind (.pure rfl) fun op line => ?_
  dsimp only
  -- The error for a target that cannot be assigned to shows the target, which has no lines in it.
  rw [target.place?_mapLines f, target.render_mapLines]
  cases target.place? with
  | none => exact .fail (by simp)
  | some place =>
    refine hi.expression.map fun right => ?_
    rw [AssignOp.value_mapLines, Place.store_mapLines]

theorem variableDecl_carries (hi : InnerCarries f inner) :
    Carries f (Stmt.mapLines f) (variableDecl inner) (variableDecl inner) :=
  Carries.expect.bind fun _ => Carries.identifier.bind fun _ => (initial_carries hi).map fun _ => rfl

theorem condition_carries (hi : InnerCarries f inner) (opening : Expected) :
    Carries f (Expr.mapLines f) (condition inner opening) (condition inner opening) :=
  Carries.expect.bind fun _ => hi.expression.bind fun _ => Carries.expect.map fun _ => rfl

theorem clause_carries (hi : InnerCarries f inner) (closing : Symbol) :
    Carries f (mapInitial f) (clause inner closing) (clause inner closing) := by
  refine Carries.sees.bind fun missing => ?_
  cases missing with
  | true => exact .pure rfl
  | false => exact hi.expression.fmap fun _ => rfl

theorem forInitial_carries (hi : InnerCarries f inner) :
    Carries f (mapElse f) (forInitial inner) (forInitial inner) := by
  refine Carries.sees.bind fun isVar => ?_
  cases isVar with
  | true => exact (variableDecl_carries hi).fmap fun _ => rfl
  | false =>
    refine (clause_carries hi _).map fun e => ?_
    cases e with
    | none => rfl
    | some e => exact congrArg (fun l => some (Stmt.expr (e.mapLines f) l)) (e.line_mapLines f).symm

theorem forRest_carries (hi : InnerCarries f inner) (line : Nat) :
    Carries f (Stmt.mapLines f) (forRest inner line) (forRest inner (f line)) := by
  refine Carries.expect.bind fun _ => (forInitial_carries hi).bind fun initial => ?_
  refine Carries.expect.bind fun _ => (clause_carries hi _).bind fun condition => ?_
  refine Carries.expect.bind fun _ => (clause_carries hi _).bind fun advance => ?_
  refine Carries.expect.bind fun _ => hi.statement.map fun body => ?_
  exact (Stmt.forLoop_mapLines ..).symm

theorem ifRest_carries (hi : InnerCarries f inner) (line : Nat) :
    Carries f (Stmt.mapLines f) (ifRest inner line) (ifRest inner (f line)) := by
  refine (condition_carries hi _).bind fun c => hi.statement.bind fun yes => ?_
  refine (Carries.after hi.statement).map fun no => ?_
  rw [← mapElse_eq]
  rfl

theorem whileRest_carries (hi : InnerCarries f inner) (line : Nat) :
    Carries f (Stmt.mapLines f) (whileRest inner line) (whileRest inner (f line)) :=
  (condition_carries hi _).bind fun _ => hi.statement.map fun _ => rfl

theorem doRest_carries (hi : InnerCarries f inner) (line : Nat) :
    Carries f (Stmt.mapLines f) (doRest inner line) (doRest inner (f line)) :=
  hi.statement.bind fun _ => Carries.expect.bind fun _ => (condition_carries hi _).bind fun _ =>
    .optionalSemicolon rfl

theorem returnRest_carries (hi : InnerCarries f inner) (line : Nat) :
    Carries f (Stmt.mapLines f) (returnRest inner line) (returnRest inner (f line)) := by
  refine Carries.atEnd.bind fun ended => Carries.sees.bind fun semicolon => ?_
  refine Carries.sees.bind fun brace => ?_
  dsimp only [id_eq]
  by_cases bare : (ended || semicolon || brace) = true
  · rw [if_pos bare, if_pos bare]
    exact .optionalSemicolon rfl
  · rw [if_neg bare, if_neg bare]
    exact hi.expression.bind fun _ => .optionalSemicolon rfl

theorem expressionStatement_carries (hi : InnerCarries f inner) :
    Carries f (Stmt.mapLines f) (expressionStatement inner) (expressionStatement inner) := by
  intro ts
  have h (line : Nat) : Carries f (Stmt.mapLines f)
      (assignment inner >>= fun e => accept (.symbol .semicolon) >>= fun _ => pure (.expr e line))
      (assignment inner >>= fun e => accept (.symbol .semicolon) >>= fun _ => pure (.expr e (f line))) :=
    (assignment_carries hi).bind fun e => .optionalSemicolon rfl
  cases ts with
  | nil => rfl
  | cons l ts => exact h l.line (l :: ts)

theorem statement_carries (hi : InnerCarries f inner) :
    Carries f (Stmt.mapLines f) (statement inner) (statement inner) := by
  rw [statement_eq]
  refine Carries.take?_bind (expressionStatement_carries hi) fun opening line => ?_
  cases opening with
  | block => exact (block_carries hi).map fun _ => rfl
  | branch => exact ifRest_carries hi line
  | loop => exact whileRest_carries hi line
  | forLoop => exact forRest_carries hi line
  | doLoop => exact doRest_carries hi line
  | «return» => exact returnRest_carries hi line

theorem declaration_carries (hi : InnerCarries f inner) :
    Carries f (Stmt.mapLines f) (declaration inner) (declaration inner) := by
  intro ts
  have hstatement := statement_carries hi ts
  obtain _ | ⟨⟨t, line⟩, ts⟩ := ts
  · rfl
  cases t with
  | keyword k =>
    cases k with
    | var =>
      have h : Carries f (Stmt.mapLines f)
          (variableDecl inner >>= fun s => accept (.symbol .semicolon) >>= fun _ => pure s)
          (variableDecl inner >>= fun s => accept (.symbol .semicolon) >>= fun _ => pure s) :=
        (variableDecl_carries hi).bind fun s => .optionalSemicolon rfl
      exact h (⟨.keyword .var, line⟩ :: ts)
    | function =>
      obtain _ | ⟨⟨t, line'⟩, rest⟩ := ts
      · exact hstatement
      cases t with
      | name name =>
        have h : Carries f (Stmt.mapLines f)
            (functionRest inner (some name) line >>= fun d => pure (.function d))
            (functionRest inner (some name) (f line) >>= fun d => pure (.function d)) :=
          (functionRest_carries hi _ _).map fun _ => rfl
        exact h rest
      | _ => exact hstatement
    | «class» =>
      obtain _ | ⟨⟨t, line'⟩, rest⟩ := ts
      · exact hstatement
      cases t with
      | name name =>
        have h : Carries f (Stmt.mapLines f)
            (classRest inner (some name) line >>= fun d => pure (.classDecl d))
            (classRest inner (some name) (f line) >>= fun d => pure (.classDecl d)) :=
          (classRest_carries hi _ _).map fun _ => rfl
        exact h rest
      | _ => exact hstatement
    | _ => exact hstatement
  | _ => exact hstatement

theorem nested_carries (n : Nat) : InnerCarries f (nested n) := by
  induction n with
  | zero => exact ⟨.starved, .starved, .starved, .starved, .starved⟩
  | succ n ih =>
    constructor
    · exact assignment_carries ih
    · exact unary_carries ih
    · exact exponent_carries ih
    · exact statement_carries ih
    · exact declaration_carries ih

theorem programFrom_carries (n : Nat) : Carries f (mapBody f) (programFrom n) (programFrom n) := by
  have hfirst : Carries f (Stmt.mapLines f) (phrase .declaration) (phrase .declaration) :=
    .bounded fun n => declaration_carries (nested_carries n)
  induction n with
  | zero => exact .pure rfl
  | succ n ih =>
    refine Carries.skipSemicolons.bind fun _ => Carries.atEnd.bind fun ended => ?_
    cases ended with
    | true => exact .pure rfl
    | false => exact hfirst.bind fun first => ih.map fun _ => rfl

end Grammar
end Scriptlet
