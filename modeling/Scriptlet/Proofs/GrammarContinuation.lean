import Scriptlet.Proofs.ParseContinuation

namespace Scriptlet.Grammar

open Parse

variable {q : List Lexeme} {inner inner' : Inner}

structure InnerContinues (q : List Lexeme) (inner inner' : Inner) : Prop where
  expression : ∀ ts, Continues q .next 0 (inner .expression) (inner' .expression) ts
  unary : ∀ ts, Continues q .next 0 (inner .unary) (inner' .unary) ts
  exponent : ∀ ts, Continues q .next 0 (inner .exponent) (inner' .exponent) ts
  statement : ∀ ts, Continues q .separator 0 (inner .statement) (inner' .statement) ts
  declaration : ∀ ts, Continues q .separator 0 (inner .declaration) (inner' .declaration) ts
  starved : ∀ g, inner g [] = .error endOfInput

theorem slotsFrom_continues (hi : InnerContinues q inner inner') (closing : Symbol) (n m : Nat)
    (hm : n ≤ m) (ts : List Lexeme) :
    Continues q .taken 0 (slotsFrom inner closing n) (slotsFrom inner' closing m) ts := by
  have hitem : inner .expression [] = .error endOfInput := hi.starved .expression
  induction n generalizing m ts with
  | zero => exact .starved rfl
  | succ n ih =>
    obtain ⟨m, rfl⟩ := Nat.exists_eq_add_of_le' hm
    have ih (ts : List Lexeme) := ih (m + n) (Nat.le_add_left n m) ts
    refine Continues.accept_bind ?_ fun closed rest _ => ?_
    · exact (bind_run accept_nil).trans (bind_error hitem)
    split
    · exact .pure _
    refine Continues.accept_bind (bind_error hitem) fun empty rest _ => ?_
    split
    · exact (ih rest).map
    refine (hi.expression rest).bind_starved (fun _ => rfl) fun e rest _ => ?_
    refine Continues.separator.bind fun more rest _ => ?_
    split
    · exact (ih rest).map
    · exact .pure _

theorem slots_continues (hi : InnerContinues q inner inner') (closing : Symbol) (ts : List Lexeme) :
    Continues q .taken 0 (slots inner closing) (slots inner' closing) ts :=
  .bounded (slotsFrom_continues hi closing _ _ (Nat.le_add_right ..) ts)

theorem entriesFrom_continues (hi : InnerContinues q inner inner') (n m : Nat) (hm : n ≤ m)
    (ts : List Lexeme) :
    Continues q .taken 0 (entriesFrom inner n) (entriesFrom inner' m) ts := by
  induction n generalizing m ts with
  | zero => exact .starved rfl
  | succ n ih =>
    obtain ⟨m, rfl⟩ := Nat.exists_eq_add_of_le' hm
    have ih (ts : List Lexeme) := ih (m + n) (Nat.le_add_left n m) ts
    refine Continues.accept_bind rfl fun closed rest _ => ?_
    split
    · exact .pure _
    refine Continues.require.any.bind fun key rest _ => Continues.expect.bind fun _ rest _ => ?_
    refine (hi.expression rest).bind_starved (fun _ => rfl) fun e rest _ => ?_
    refine Continues.accept_bind rfl fun more rest _ => ?_
    split
    · exact (ih rest).map
    · exact Continues.expect.bind fun _ _ _ => .pure _

theorem entries_continues (hi : InnerContinues q inner inner') (ts : List Lexeme) :
    Continues q .taken 0 (entries inner) (entries inner') ts :=
  .bounded (entriesFrom_continues hi _ _ (Nat.le_add_right ..) ts)

theorem namesFrom_continues (n m : Nat) (hm : n ≤ m) (ts : List Lexeme) :
    Continues q .taken 0 (namesFrom n) (namesFrom m) ts := by
  induction n generalizing m ts with
  | zero => exact .starved rfl
  | succ n ih =>
    obtain ⟨m, rfl⟩ := Nat.exists_eq_add_of_le' hm
    refine Continues.identifier.bind fun name rest _ => ?_
    refine Continues.separator.bind fun more rest _ => ?_
    split
    · exact (ih (m + n) (Nat.le_add_left n m) rest).map
    · exact .pure _

theorem parameters_continues (ts : List Lexeme) :
    Continues q .taken 0 parameters parameters ts := by
  refine Continues.accept_bind rfl fun closed rest _ => ?_
  split
  · exact .pure _
  · exact .bounded (namesFrom_continues _ _ (Nat.le_add_right ..) rest)

theorem statementsFrom_starved (hi : inner .declaration [] = .error endOfInput) (n : Nat) :
    statementsFrom inner n [] = .error endOfInput := by
  cases n with
  | zero => rfl
  | succ n =>
    rw [statementsFrom, statementsRound, bind_run skipSemicolons_nil, bind_run accept_nil]
    exact bind_error hi

theorem statementsFrom_continues (hi : InnerContinues q inner inner') (n m : Nat) (hm : n ≤ m)
    (ts : List Lexeme) :
    Continues q .taken 0 (statementsFrom inner n) (statementsFrom inner' m) ts := by
  have hitem : inner .declaration [] = .error endOfInput := hi.starved .declaration
  induction n generalizing m ts with
  | zero => exact .starved rfl
  | succ n ih =>
    obtain ⟨m, rfl⟩ := Nat.exists_eq_add_of_le' hm
    have ih (ts : List Lexeme) := ih (m + n) (Nat.le_add_left n m) ts
    refine Continues.skipSemicolons_bind (statementsFrom_starved hitem (n + 1)) fun rest _ => ?_
    refine Continues.accept_bind (bind_error hitem) fun closed rest _ => ?_
    split
    · exact .pure _
    refine (hi.declaration rest).bind_starved (fun s => ?_) fun s rest _ => (ih rest).map
    exact bind_error (statementsFrom_starved hitem n)

theorem block_continues (hi : InnerContinues q inner inner') (ts : List Lexeme) :
    Continues q .taken 0 (block inner) (block inner') ts :=
  .bounded (statementsFrom_continues hi _ _ (Nat.succ_le_succ (Nat.le_add_right ..)) ts)

theorem functionRest_continues (hi : InnerContinues q inner inner') (name : Option String) (line : Nat)
    (ts : List Lexeme) :
    Continues q .taken 0 (functionRest inner name line) (functionRest inner' name line) ts := by
  refine Continues.expect.bind fun _ rest _ => ?_
  refine (parameters_continues rest).bind fun params rest _ => Continues.limit.bind fun _ rest _ => ?_
  exact Continues.expect.bind fun _ rest _ => (block_continues hi rest).map

theorem initial_continues (hi : InnerContinues q inner inner') (ts : List Lexeme) :
    Continues q .next 0 (after (.symbol .assign) (inner .expression))
      (after (.symbol .assign) (inner' .expression)) ts :=
  .after nofun nofun hi.expression

theorem member_continues (hi : InnerContinues q inner inner') (ts : List Lexeme) :
    Continues q .separator 0 (member inner) (member inner') ts := by
  refine Continues.accept_bind rfl fun isStatic rest _ => ?_
  refine Continues.require.any.bind fun name rest _ => ?_
  -- A field may end where the lexemes end, a method may not.
  refine Continues.sees_next nofun nofun ⟨_, rfl⟩ fun method => ?_
  split
  · exact (functionRest_continues hi _ _ rest).ofTaken.map
  · exact (initial_continues hi rest).optionalSemicolon

theorem membersFrom_starved (n : Nat) : membersFrom inner n [] = .error endOfInput := by
  cases n <;> rfl

theorem membersFrom_continues (hi : InnerContinues q inner inner') (n m : Nat) (hm : n ≤ m)
    (ts : List Lexeme) :
    Continues q .taken 0 (membersFrom inner n) (membersFrom inner' m) ts := by
  induction n generalizing m ts with
  | zero => exact .starved rfl
  | succ n ih =>
    obtain ⟨m, rfl⟩ := Nat.exists_eq_add_of_le' hm
    have ih (ts : List Lexeme) := ih (m + n) (Nat.le_add_left n m) ts
    refine Continues.skipSemicolons_bind rfl fun rest _ => ?_
    refine Continues.accept_bind rfl fun closed rest _ => ?_
    split
    · exact .pure _
    refine (member_continues hi rest).bind_starved (fun m => ?_) fun m rest _ => (ih rest).map
    exact bind_error (membersFrom_starved n)

theorem classRest_continues (hi : InnerContinues q inner inner') (name : Option String) (line : Nat)
    (ts : List Lexeme) :
    Continues q .taken 0 (classRest inner name line) (classRest inner' name line) ts := by
  refine Continues.expect.bind fun _ rest _ => Continues.map ?_
  exact .bounded (membersFrom_continues hi _ _ (Nat.succ_le_succ (Nat.le_add_right ..)) rest)

theorem primary_continues (hi : InnerContinues q inner inner') (ts : List Lexeme) :
    Continues q .taken 1 (primary inner) (primary inner') ts := by
  refine Continues.next.bind ?_
  rintro ⟨t, line⟩ rest -
  cases t with
  | integer | real | text | boolean | name => exact .pure _
  | keyword k =>
    cases k with
    | null | this => exact .pure _
    | function =>
      refine Continues.take?_bind (Nat.zero_le 1) rfl ?_ fun name line rest _ => ?_
      · exact (functionRest_continues hi _ _ rest).map
      · exact (functionRest_continues hi _ _ rest).map
    | «class» =>
      refine Continues.take?_bind (Nat.zero_le 1) rfl ?_ fun name line rest _ => ?_
      · exact (classRest_continues hi _ _ rest).map
      · exact (classRest_continues hi _ _ rest).map
    | _ => exact .fail
  | symbol s =>
    cases s with
    | leftParen =>
      exact (hi.expression rest).bind_starved (fun _ => rfl) fun e rest _ =>
        Continues.expect.bind fun _ _ _ => .pure _
    | leftBracket => exact (slots_continues hi _ rest).map
    | leftBrace => exact (entries_continues hi rest).map
    | _ => exact .fail

theorem accessFrom_continues (hi : InnerContinues q inner inner') (n m : Nat) (hm : n ≤ m) (e : Expr)
    (ts : List Lexeme) (hn : ts.length ≤ n) :
    Continues q .next 0 (accessFrom inner n e) (accessFrom inner' m e) ts := by
  -- There is a round for each lexeme, so none is left where the rounds end.
  induction n generalizing m e ts with
  | zero =>
    obtain rfl := List.length_eq_zero_iff.mp (Nat.le_zero.mp hn)
    refine .ended rfl (fun hq => ?_) (Nat.le_refl 0)
    cases m with
    | zero => rfl
    | succ m => exact bind_run (hq.take?_run rfl)
  | succ n ih =>
    obtain ⟨m, rfl⟩ := Nat.exists_eq_add_of_le' hm
    have ih (e : Expr) (rest : List Lexeme) (h : rest.length < ts.length) :=
      ih (m + n) (Nat.le_add_left n m) e rest (by omega)
    refine Continues.take?_next (Nat.zero_le 1) rfl ⟨_, rfl⟩ (.pure e) ?_
    intro access line rest hrest
    cases access with
    | arguments =>
      refine (slots_continues hi _ rest).bind fun args rest h => ?_
      refine Continues.limit.bind fun _ rest h' => ?_
      exact ih _ rest (by omega)
    | name => exact Continues.identifier.bind fun name rest h => ih _ rest (by omega)
    | key =>
      refine (hi.expression rest).bind_starved (fun _ => rfl) fun key rest h => ?_
      exact Continues.expect.bind fun _ rest h' => ih _ rest (by omega)

theorem call_continues (hi : InnerContinues q inner inner') (ts : List Lexeme) :
    Continues q .next 1 (call inner) (call inner') ts :=
  (primary_continues hi ts).bind fun e rest _ =>
    .bounded (accessFrom_continues hi _ _ (Nat.le_add_right ..) e rest (Nat.le_refl _))

theorem creation_continues (hi : InnerContinues q inner inner') (ts : List Lexeme) :
    Continues q .next 1 (creation inner) (creation inner') ts :=
  .take?_bind (Nat.le_refl 1) rfl (call_continues hi ts) fun _ _ rest _ =>
    (call_continues hi rest).any.map

theorem trailing_continues (hi : InnerContinues q inner inner') (ts : List Lexeme) :
    Continues q .next 1 (trailing inner) (trailing inner') ts :=
  (creation_continues hi ts).bind_next (fun _ => ⟨_, rfl⟩) fun e _ _ =>
    .take?_next (Nat.zero_le 1) rfl ⟨_, rfl⟩ (.pure e) fun _ _ _ _ => .pure _

theorem unary_continues (hi : InnerContinues q inner inner') (ts : List Lexeme) :
    Continues q .next 1 (unary inner) (unary inner') ts :=
  .take?_bind (Nat.le_refl 1) rfl (trailing_continues hi ts) fun _ _ rest _ => (hi.unary rest).map

theorem exponent_continues (hi : InnerContinues q inner inner') (ts : List Lexeme) :
    Continues q .next 1 (exponent inner) (exponent inner') ts :=
  (unary_continues hi ts).bind_next (fun _ => ⟨_, rfl⟩) fun e _ _ =>
    .take?_next (Nat.zero_le 1) rfl ⟨_, rfl⟩ (.pure e) fun _ _ rest _ => (hi.exponent rest).map

section chains

variable {op : Type} {operand operand' : Parse Expr} {select : Symbol → Option op}
  {join : op → Expr → Expr → Nat → Expr}

theorem chainFrom_nil (n : Nat) (left : Expr) :
    chainFrom operand select join n left [] = .ok (left, []) := by
  cases n <;> rfl

theorem chainFrom_continues (ho : ∀ ts, Continues q .next 1 operand operand' ts)
    (hs : select .semicolon = none) (n m : Nat) (hm : n ≤ m) (left : Expr) (ts : List Lexeme)
    (hn : ts.length ≤ n) :
    Continues q .next 0 (chainFrom operand select join n left)
      (chainFrom operand' select join m left) ts := by
  induction n generalizing m left ts with
  | zero =>
    obtain rfl := List.length_eq_zero_iff.mp (Nat.le_zero.mp hn)
    refine .ended rfl (fun hq => ?_) (Nat.le_refl 0)
    cases m with
    | zero => rfl
    | succ m => exact bind_run (hq.take?_run hs)
  | succ n ih =>
    obtain ⟨m, rfl⟩ := Nat.exists_eq_add_of_le' hm
    refine Continues.take?_next (Nat.zero_le 1) hs ⟨_, rfl⟩ (.pure left) fun o line rest hrest => ?_
    refine (ho rest).any.bind_next (fun right => ?_) fun right rest h => ?_
    · exact ⟨_, chainFrom_nil n _⟩
    · exact ih (m + n) (Nat.le_add_left n m) _ rest (by omega)

theorem chain_continues (ho : ∀ ts, Continues q .next 1 operand operand' ts)
    (hs : select .semicolon = none) (ts : List Lexeme) :
    Continues q .next 1 (chain operand select join) (chain operand' select join) ts :=
  (ho ts).bind_next (fun e => ⟨e, rfl⟩) fun e rest _ =>
    .bounded (chainFrom_continues ho hs _ _ (Nat.le_add_right ..) e rest (Nat.le_refl _))

end chains

theorem logicalOr_continues (hi : InnerContinues q inner inner') (ts : List Lexeme) :
    Continues q .next 1 (logicalOr inner) (logicalOr inner') ts := by
  have multiplicative (ts : List Lexeme) :
      Continues q .next 1 (multiplicative inner) (multiplicative inner') ts :=
    chain_continues (exponent_continues hi) rfl ts
  have additive (ts : List Lexeme) : Continues q .next 1 (additive inner) (additive inner') ts :=
    chain_continues multiplicative rfl ts
  have shift (ts : List Lexeme) : Continues q .next 1 (shift inner) (shift inner') ts :=
    chain_continues additive rfl ts
  have relational (ts : List Lexeme) : Continues q .next 1 (relational inner) (relational inner') ts :=
    chain_continues shift rfl ts
  have equality (ts : List Lexeme) : Continues q .next 1 (equality inner) (equality inner') ts :=
    chain_continues relational rfl ts
  have bitAnd (ts : List Lexeme) : Continues q .next 1 (bitAnd inner) (bitAnd inner') ts :=
    chain_continues equality rfl ts
  have bitXor (ts : List Lexeme) : Continues q .next 1 (bitXor inner) (bitXor inner') ts :=
    chain_continues bitAnd rfl ts
  have bitOr (ts : List Lexeme) : Continues q .next 1 (bitOr inner) (bitOr inner') ts :=
    chain_continues bitXor rfl ts
  have logicalAnd (ts : List Lexeme) : Continues q .next 1 (logicalAnd inner) (logicalAnd inner') ts :=
    chain_continues bitOr rfl ts
  exact chain_continues logicalAnd rfl ts

theorem assignment_continues (hi : InnerContinues q inner inner') (ts : List Lexeme) :
    Continues q .next 1 (assignment inner) (assignment inner') ts := by
  refine (logicalOr_continues hi ts).bind_next (fun _ => ⟨_, rfl⟩) fun target rest _ => ?_
  refine .take?_next (Nat.zero_le 1) rfl ⟨_, rfl⟩ (.pure target) fun op line rest _ => ?_
  -- A target that cannot be assigned to is refused before the right side is looked at.
  cases target.place? with
  | none => exact .fail
  | some place => exact (hi.expression rest).map

theorem variableDecl_continues (hi : InnerContinues q inner inner') (ts : List Lexeme) :
    Continues q .next 1 (variableDecl inner) (variableDecl inner') ts :=
  Continues.require.map.bind fun _ _ _ => Continues.identifier.bind fun _ rest _ =>
    (initial_continues hi rest).map

theorem condition_continues (hi : InnerContinues q inner inner') (opening : Expected)
    (ts : List Lexeme) :
    Continues q .taken 0 (condition inner opening) (condition inner' opening) ts :=
  Continues.expect.bind fun _ rest _ => (hi.expression rest).bind_starved (fun _ => rfl)
    fun _ _ _ => Continues.expect.bind fun _ _ _ => .pure _

theorem clause_starved (hi : inner .expression [] = .error endOfInput) (closing : Symbol) :
    clause inner closing [] = .error endOfInput := by
  rw [clause, bind_run sees_nil]
  exact map_error hi

theorem clause_continues (hi : InnerContinues q inner inner') (closing : Symbol) (ts : List Lexeme) :
    Continues q .next 0 (clause inner closing) (clause inner' closing) ts := by
  refine Continues.sees_bind (map_error (hi.starved .expression)) fun missing => ?_
  split
  · exact .pure _
  · exact (hi.expression ts).fmap

theorem forInitial_continues (hi : InnerContinues q inner inner') (ts : List Lexeme) :
    Continues q .next 0 (forInitial inner) (forInitial inner') ts := by
  have hclause := clause_starved (hi.starved .expression) .semicolon
  refine Continues.sees_bind (bind_error hclause) fun isVar => ?_
  split
  · exact (variableDecl_continues hi ts).any.fmap
  · exact (clause_continues hi _ ts).map

theorem forRest_continues (hi : InnerContinues q inner inner') (line : Nat) (ts : List Lexeme) :
    Continues q .separator 0 (forRest inner line) (forRest inner' line) ts := by
  refine Continues.expect.bind fun _ rest _ => ?_
  refine (forInitial_continues hi rest).bind_starved (fun _ => rfl) fun initial rest _ => ?_
  refine Continues.expect.bind fun _ rest _ => ?_
  refine (clause_continues hi _ rest).bind_starved (fun _ => rfl) fun condition rest _ => ?_
  refine Continues.expect.bind fun _ rest _ => ?_
  refine (clause_continues hi _ rest).bind_starved (fun _ => rfl) fun advance rest _ => ?_
  exact Continues.expect.bind fun _ rest _ => (hi.statement rest).map

theorem whileRest_continues (hi : InnerContinues q inner inner') (line : Nat) (ts : List Lexeme) :
    Continues q .separator 0 (whileRest inner line) (whileRest inner' line) ts :=
  (condition_continues hi _ ts).bind fun _ rest _ => (hi.statement rest).map

theorem doRest_continues (hi : InnerContinues q inner inner') (line : Nat) (ts : List Lexeme) :
    Continues q .separator 0 (doRest inner line) (doRest inner' line) ts :=
  (hi.statement ts).bind_starved (fun _ => rfl) fun _ _ _ => Continues.expect.bind fun _ rest _ =>
    (condition_continues hi _ rest).ofTaken.optionalSemicolon

theorem ifRest_continues (hi : InnerContinues q inner inner') (line : Nat) (ts : List Lexeme) :
    Continues q .separator 0 (ifRest inner line) (ifRest inner' line) ts := by
  have hno (rest : List Lexeme) : Continues q .separator 0 (after (.keyword .«else») (inner .statement))
      (after (.keyword .«else») (inner' .statement)) rest := .after nofun nofun hi.statement
  refine (condition_continues hi _ ts).bind fun c rest _ => ?_
  refine (hi.statement rest).bind_of (fun yes rest _ => (hno rest).map) fun yes hyes hq => ?_
  -- Where the lexemes end after the first arm, no `else` follows, also not after a `;`.
  have hr := (hi.statement rest).resumes
  rw [hyes] at hr
  obtain hr | hr := hr hq
  · exact .inl ((bind_run hr).trans (bind_run (hq.noElse.after_run _)))
  · exact .inr ((bind_run hr).trans (bind_run (hq.noElse_tail.after_run _)))

def returnWith (inner : Inner) (line : Nat) (bare : Bool) : Parse Stmt := do
  if bare then
    let _ ← accept (.symbol .semicolon)
    return .«return» none line
  let value ← inner .expression
  let _ ← accept (.symbol .semicolon)
  return .«return» (some value) line

theorem returnWith_continues (hi : InnerContinues q inner inner') (line : Nat) (bare : Bool)
    (ts : List Lexeme) :
    Continues q .separator 0 (returnWith inner line bare) (returnWith inner' line bare) ts := by
  cases bare with
  | true => exact .semicolon
  | false => exact (hi.expression ts).optionalSemicolon

theorem returnRest_continues (hi : InnerContinues q inner inner') (line : Nat) (ts : List Lexeme) :
    Continues q .separator 0 (returnRest inner line) (returnRest inner' line) ts := by
  cases ts with
  | nil =>
    -- At the end there is no value, as before a `;`.
    have h := returnWith_continues hi line true []
    refine ⟨h.takes, fun hq => ?_⟩
    have hr := h.resumes hq
    cases hq with
    | nil => exact hr
    | cons line h => exact hr
  | cons l rest =>
    have h := returnWith_continues hi line
      (decide (l.token = .symbol .semicolon) || decide (l.token = .symbol .rightBrace)) (l :: rest)
    exact ⟨h.takes, h.resumes⟩

theorem expressionStatement_continues (hi : InnerContinues q inner inner') (ts : List Lexeme) :
    Continues q .separator 1 (expressionStatement inner) (expressionStatement inner') ts := by
  cases ts with
  | nil => exact .starved rfl
  | cons l rest =>
    have h := (assignment_continues hi (l :: rest)).optionalSemicolon (f := fun e => Stmt.expr e l.line)
    exact ⟨h.takes, h.resumes⟩

theorem statement_continues (hi : InnerContinues q inner inner') (ts : List Lexeme) :
    Continues q .separator 1 (statement inner) (statement inner') ts := by
  rw [statement_eq, statement_eq]
  refine .take?_bind (Nat.le_refl 1) rfl (expressionStatement_continues hi ts) ?_
  intro opening line rest _
  cases opening with
  | block => exact (block_continues hi rest).ofTaken.map
  | branch => exact ifRest_continues hi line rest
  | loop => exact whileRest_continues hi line rest
  | forLoop => exact forRest_continues hi line rest
  | doLoop => exact doRest_continues hi line rest
  | «return» => exact returnRest_continues hi line rest

theorem declaration_continues (hi : InnerContinues q inner inner') (ts : List Lexeme) :
    Continues q .separator 1 (declaration inner) (declaration inner') ts := by
  have hstatement := statement_continues hi ts
  obtain _ | ⟨⟨t, line⟩, ts⟩ := ts
  · exact .starved rfl
  cases t with
  | keyword k =>
    cases k with
    | var =>
      have h := (variableDecl_continues hi (⟨.keyword .var, line⟩ :: ts)).optionalSemicolon (f := id)
      exact ⟨h.takes, h.resumes⟩
    -- After `function` or `class` alone the parser asks for more, whatever would follow.
    | function =>
      obtain _ | ⟨⟨t, line'⟩, rest⟩ := ts
      · exact .starved rfl
      cases t with
      | name name =>
        have h := (functionRest_continues hi (some name) line rest).map (f := Stmt.function)
        refine Continues.ofTaken ⟨fun s rest' hr => ?_, h.resumes⟩
        exact Nat.succ_le_succ (Nat.le_succ_of_le (h.takes s rest' hr))
      | _ => exact ⟨hstatement.takes, hstatement.resumes⟩
    | «class» =>
      obtain _ | ⟨⟨t, line'⟩, rest⟩ := ts
      · exact .starved rfl
      cases t with
      | name name =>
        have h := (classRest_continues hi (some name) line rest).map (f := Stmt.classDecl)
        refine Continues.ofTaken ⟨fun s rest' hr => ?_, h.resumes⟩
        exact Nat.succ_le_succ (Nat.le_succ_of_le (h.takes s rest' hr))
      | _ => exact ⟨hstatement.takes, hstatement.resumes⟩
    | _ => exact ⟨hstatement.takes, hstatement.resumes⟩
  | _ => exact ⟨hstatement.takes, hstatement.resumes⟩

theorem nested_starved (n : Nat) (g : Nonterminal) : nested n g [] = .error endOfInput := by
  cases n <;> cases g <;> rfl

theorem nested_continues (q : List Lexeme) (n m : Nat) (hm : n ≤ m) :
    InnerContinues q (nested n) (nested m) := by
  induction n generalizing m with
  | zero =>
    have h {g : Nonterminal} {sight : Sight} (ts : List Lexeme) :
        Continues q sight 0 (nested 0 g) (nested m g) ts := .starved rfl
    exact ⟨h, h, h, h, h, nested_starved 0⟩
  | succ n ih =>
    obtain ⟨m, rfl⟩ := Nat.exists_eq_add_of_le' hm
    have ih := ih (m + n) (Nat.le_add_left n m)
    constructor
    · exact fun ts => (assignment_continues ih ts).any
    · exact fun ts => (unary_continues ih ts).any
    · exact fun ts => (exponent_continues ih ts).any
    · exact fun ts => (statement_continues ih ts).any
    · exact fun ts => (declaration_continues ih ts).any
    · exact nested_starved (n + 1)

theorem phrase_declaration_continues (q ts : List Lexeme) :
    Continues q .separator 1 (phrase .declaration) (phrase .declaration) ts :=
  .bounded (declaration_continues (nested_continues q _ _ (Nat.le_add_right ..)) ts)

end Scriptlet.Grammar
