import Scriptlet.Proofs.GrammarSoundness
import Scriptlet.Proofs.Lookahead
import Scriptlet.Proofs.TreeChecks

namespace Scriptlet

def Expr.level : Expr → Level
  | assign .. | write .. => .assignment
  | binary op .. => (Operator.binary op).level
  | logical op .. => (Operator.logical op).level
  | unary .. => .unary
  | trailing .. => .trailing
  | new .. => .creation
  | call .. | read .. => .call
  | literal .. | name .. | group .. | array .. | object .. | function .. | classExpr .. => .primary

def Expr.Fits (level : Level) (e : Expr) : Prop := level.rank ≤ e.level.rank

theorem Expr.Fits.loosen {tight loose : Level} {e : Expr} (h : e.Fits tight)
    (hl : loose.rank ≤ tight.rank) : e.Fits loose := Nat.le_trans hl h

namespace Operator

def leftLevel (op : Operator) : Level := if op.level.repeats then op.level else op.level.tighter

def rightLevel (op : Operator) : Level := if op.level.repeats then op.level.tighter else op.level

theorem rank_leftLevel (op : Operator) : op.level.rank ≤ op.leftLevel.rank := by
  unfold leftLevel
  split
  · exact Nat.le_refl _
  · exact op.level.rank_tighter

def Joins (op : Operator) (left right : Expr) : Prop :=
  left.Fits op.leftLevel ∧ right.Fits op.rightLevel

theorem join_level (op : Operator) (left right : Expr) (line : Nat) :
    (op.join left right line).level = op.level := by
  cases op <;> rfl

end Operator

namespace Stmt

/-- An `else` right after the statement would belong to it. -/
def takesElse : Stmt → Bool
  | branch _ _ none _ => true
  | branch _ _ (some no) _ => no.takesElse
  | loop _ body _ => body.takesElse
  | block _ _ | declare _ _ _ | function _ | classDecl _ | «return» _ _ | expr _ _ => false
termination_by structural s => s

end Stmt

def NoElse (rest : List Lexeme) : Prop := ∀ l ∈ rest.head?, l.token ≠ .keyword .«else»

section

variable (T : Lexeme → Prop)

def Named (name : String) : Prop := ∃ line, T ⟨.name name, line⟩

def Member.Built : Member → Prop
  | named name => Named T name
  | computed _ => True

/-- Only an assignment such as `a *= b + c` leaves an operand that would need parentheses. -/
def Operator.Built (op : Operator) (left right : Expr) : Prop :=
  op.Joins left right ∨ ∃ s line, T ⟨.symbol s, line⟩ ∧ s.assignment? = some op.assignment

def Expr.Built : Expr → Prop
  | literal value _ => (∃ line, T ⟨value.token, line⟩) ∨ value = .boolean true
  | name n _ | assign n _ _ => n = "this" ∨ Named T n
  | binary op left right _ => (Operator.binary op).Built T left right
  | logical op left right _ => (Operator.logical op).Built T left right
  | unary _ operand _ => operand.Fits .unary
  | trailing op operand _ => (∃ s, op = .step s) ∧ operand.Fits .creation
  | call f arguments _ => f.Fits .call ∧ arguments.length ≤ maxArguments
  | read holder member _ | write holder member _ _ => holder.Fits .call ∧ member.Built T
  | object entries _ => ∀ entry ∈ entries, Named T entry.1 ∨ ∃ line, T ⟨.text entry.1, line⟩
  | classExpr decl => ∀ name ∈ decl.name, Named T name
  | new e _ => e.Fits .call
  | group _ _ | array _ _ | function _ => True

def FunctionDecl.Built (decl : FunctionDecl) : Prop :=
  decl.params.length ≤ maxArguments ∧ (∀ name ∈ decl.name, Named T name) ∧
    ∀ param ∈ decl.params, Named T param

def ClassMember.Built : ClassMember → Prop
  | field _ name _ _ => Named T name
  | method _ decl => decl.name.isSome

namespace Stmt

def Built : Stmt → Prop
  | declare name _ _ => Named T name
  | function decl => decl.name.isSome
  | classDecl decl => ∃ name, decl.name = some name ∧ Named T name
  | branch _ yes no _ => yes.plain ∧ ∀ s ∈ no, s.plain ∧ yes.takesElse = false
  | loop _ body _ => body.plain
  | block _ _ | «return» _ _ | expr _ _ => True

end Stmt

def built : Check where
  expr := Expr.Built T
  function := FunctionDecl.Built T
  member := ClassMember.Built T
  stmt := Stmt.Built T

structure Expr.BuiltAt (level : Level) (e : Expr) : Prop where
  every : e.every (built T)
  fits : e.Fits level

theorem Expr.BuiltAt.loosen {T : Lexeme → Prop} {tight loose : Level} {e : Expr}
    (h : e.BuiltAt T tight) (hl : loose.rank ≤ tight.rank) : e.BuiltAt T loose :=
  ⟨h.every, h.fits.loosen hl⟩

end

namespace Grammar

open Parse

variable {T : Lexeme → Prop} {inner : Inner}

def Builds {α : Type} (T : Lexeme → Prop) (p : Parse α) (Q : α → Prop) : Prop :=
  p.Takes T fun _ a => Q a

structure InnerBuilds (T : Lexeme → Prop) (inner : Inner) : Prop where
  expression : Builds T (inner .expression) (Expr.every (built T))
  unary : Builds T (inner .unary) (Expr.BuiltAt T .unary)
  exponent : Builds T (inner .exponent) (Expr.BuiltAt T .exponent)
  statement : Builds T (inner .statement) fun s => s.every (built T) ∧ s.plain
  declaration : Builds T (inner .declaration) (Stmt.every (built T))
  noElse : ∀ ts s rest, (∀ l ∈ ts, T l) → inner .statement ts = .ok (s, rest) → s.takesElse →
    NoElse rest

theorem slots_builds (hi : InnerBuilds T inner) (closing : Symbol) :
    Builds T (slots inner closing) (everySlot (built T)) := by
  refine Takes.bounded fun n => ?_
  induction n with
  | zero => exact .throw
  | succ n ih =>
    refine Takes.accept.bind fun _ closed _ => ?_
    split
    · exact .pure trivial
    refine Takes.accept.bind fun _ empty _ => ?_
    split
    · exact ih.map fun _ _ hs => hs
    refine hi.expression.bind fun _ e he => Takes.separator.bind fun _ more _ => ?_
    split
    · exact ih.map fun _ _ hs => ⟨he, hs⟩
    · exact .pure ⟨he, trivial⟩

theorem entries_builds (hi : InnerBuilds T inner) :
    Builds T (entries inner) fun es => everyEntry (built T) es ∧
      ∀ entry ∈ es, Named T entry.1 ∨ ∃ line, T ⟨.text entry.1, line⟩ := by
  refine Takes.bounded fun n => ?_
  induction n with
  | zero => exact .throw
  | succ n ih =>
    refine Takes.accept.bind fun _ closed _ => ?_
    split
    · exact .pure ⟨trivial, List.forall_mem_nil _⟩
    refine Takes.require.bind ?_
    rintro _ ⟨key, line⟩ ⟨t, hk, -, ht⟩
    have hkey : Named T key ∨ ∃ line, T ⟨.text key, line⟩ := by
      obtain rfl | rfl := propertyName?_eq_some hk
      · exact .inl ⟨line, ht⟩
      · exact .inr ⟨line, ht⟩
    refine Takes.expect.bind fun _ _ _ => ?_
    refine hi.expression.bind fun _ e he => Takes.accept.bind fun _ more _ => ?_
    split
    · exact ih.map fun _ _ hs => ⟨⟨he, hs.1⟩, List.forall_mem_cons.mpr ⟨hkey, hs.2⟩⟩
    · exact Takes.expect.bind fun _ _ _ =>
        .pure ⟨⟨he, trivial⟩, List.forall_mem_singleton.mpr hkey⟩

theorem block_builds (hi : InnerBuilds T inner) :
    Builds T (block inner) (everyStmt (built T)) := by
  refine Takes.bounded fun n => ?_
  generalize n + 1 = k
  induction k with
  | zero => exact .throw
  | succ n ih =>
    refine Takes.skipSemicolons.bind fun _ _ _ => Takes.accept.bind fun _ closed _ => ?_
    split
    · exact .pure trivial
    exact hi.declaration.bind fun _ s hs => ih.map fun _ _ hr => ⟨hs, hr⟩

theorem identifier_builds : Builds T identifier (Named T) := by
  refine Takes.require.bind ?_
  rintro _ ⟨name, line⟩ ⟨t, hn, -, ht⟩
  obtain rfl := nameOf_eq_some.mp hn
  exact .pure ⟨line, ht⟩

theorem nameOf_builds :
    Builds T (take? nameOf) fun name => ∀ n ∈ name.map (·.1), Named T n := by
  refine Takes.take?.mono ?_
  rintro _ _ (⟨rfl, -⟩ | ⟨name, t, line, rfl, hn, -, ht⟩) n hmem
  · cases hmem
  · obtain rfl := nameOf_eq_some.mp hn
    obtain rfl := Option.some.inj hmem
    exact ⟨line, ht⟩

theorem parameters_builds : Builds T parameters fun params => ∀ p ∈ params, Named T p := by
  refine Takes.accept.bind fun _ closed _ => ?_
  split
  · exact .pure (List.forall_mem_nil _)
  refine Takes.bounded fun n => ?_
  induction n with
  | zero => exact .throw
  | succ n ih =>
    refine identifier_builds.bind fun _ name hn => Takes.separator.bind fun _ more _ => ?_
    split
    · exact ih.map fun _ _ hs => List.forall_mem_cons.mpr ⟨hn, hs⟩
    · exact .pure (List.forall_mem_singleton.mpr hn)

theorem functionRest_builds (hi : InnerBuilds T inner) {name : Option String} (line : Nat)
    (hname : ∀ n ∈ name, Named T n) :
    Builds T (functionRest inner name line) fun d => d.every (built T) ∧ d.name = name := by
  refine Takes.expect.bind fun _ _ _ => ?_
  refine parameters_builds.bind fun _ params hp => Takes.limit.bind fun _ _ hn => ?_
  refine Takes.expect.bind fun _ _ _ => (block_builds hi).map fun _ body hb => ?_
  exact ⟨⟨⟨hn.2, hname, hp⟩, hb⟩, rfl⟩

theorem initial_builds (hi : InnerBuilds T inner) :
    Builds T (after (.symbol .assign) (inner .expression)) (everyInitial (built T)) := by
  refine (Takes.after hi.expression).mono fun _ initial h => ?_
  obtain ⟨rfl, -⟩ | ⟨e, _, _, rfl, -, he⟩ := h
  · trivial
  · exact he

theorem member_builds (hi : InnerBuilds T inner) :
    Builds T (member inner) (ClassMember.every (built T)) := by
  refine Takes.accept.bind fun _ isStatic _ => Takes.require.bind ?_
  rintro _ ⟨name, line⟩ ⟨t, hn, -, ht⟩
  obtain rfl := nameOf_eq_some.mp hn
  refine Takes.sees.bind fun _ method _ => ?_
  split
  · have hname : ∀ n ∈ some name, Named T n := by
      intro n hmem
      obtain rfl := Option.some.inj hmem
      exact ⟨line, ht⟩
    refine (functionRest_builds hi line hname).map fun _ d hd => ⟨?_, hd.1⟩
    change d.name.isSome
    rw [hd.2]
    rfl
  · exact (initial_builds hi).bind fun _ initial he => Takes.accept.bind fun _ _ _ =>
      .pure ⟨⟨line, ht⟩, he⟩

theorem classRest_builds (hi : InnerBuilds T inner) (name : Option String) (line : Nat) :
    Builds T (classRest inner name line) fun d => d.every (built T) ∧ d.name = name := by
  refine Takes.expect.bind fun _ _ _ => ?_
  have hmembers : Builds T (bounded fun n => membersFrom inner (n + 1)) (everyMember (built T)) := by
    refine Takes.bounded fun n => ?_
    generalize n + 1 = k
    induction k with
    | zero => exact .throw
    | succ n ih =>
      refine Takes.skipSemicolons.bind fun _ _ _ => Takes.accept.bind fun _ closed _ => ?_
      split
      · exact .pure trivial
      exact (member_builds hi).bind fun _ m hm => ih.map fun _ _ hr => ⟨hm, hr⟩
  exact hmembers.map fun _ members hm => ⟨hm, rfl⟩

theorem primary_builds (hi : InnerBuilds T inner) :
    Builds T (primary inner) (Expr.BuiltAt T .primary) := by
  have leaf {value : Literal} {line : Nat} (ht : T ⟨value.token, line⟩) :
      (Expr.literal value line).BuiltAt T .primary := ⟨.inl ⟨line, ht⟩, Nat.le_refl _⟩
  refine Takes.next.bind ?_
  rintro _ ⟨t, line⟩ ⟨rfl, ht⟩
  cases t with
  | integer n => exact .pure (leaf ht)
  | real x => exact .pure (leaf ht)
  | text s => exact .pure (leaf ht)
  | boolean b => exact .pure (leaf ht)
  | name => exact .pure ⟨.inr ⟨line, ht⟩, Nat.le_refl _⟩
  | keyword k =>
    cases k with
    | null => exact .pure (leaf ht)
    | this => exact .pure ⟨.inl rfl, Nat.le_refl _⟩
    | function =>
      exact nameOf_builds.bind fun _ name hn =>
        (functionRest_builds hi line hn).map fun _ _ hd => ⟨⟨trivial, hd.1⟩, Nat.le_refl _⟩
    | «class» =>
      refine nameOf_builds.bind fun _ name hn => (classRest_builds hi _ line).map fun _ d hd => ?_
      have hname : ∀ n ∈ d.name, Named T n := by rw [hd.2]; exact hn
      exact ⟨⟨hname, hd.1⟩, Nat.le_refl _⟩
    | _ => exact .fail
  | symbol s =>
    cases s with
    | leftParen =>
      exact hi.expression.bind fun _ e he => Takes.expect.bind fun _ _ _ =>
        .pure ⟨⟨trivial, he⟩, Nat.le_refl _⟩
    | leftBracket => exact (slots_builds hi _).map fun _ _ hs => ⟨⟨trivial, hs⟩, Nat.le_refl _⟩
    | leftBrace => exact (entries_builds hi).map fun _ _ hs => ⟨⟨hs.2, hs.1⟩, Nat.le_refl _⟩
    | _ => exact .fail

theorem call_builds (hi : InnerBuilds T inner) :
    Builds T (call inner) (Expr.BuiltAt T .call) := by
  refine (primary_builds hi).bind fun _ first hfirst => Takes.bounded fun n => ?_
  have hleft : first.BuiltAt T .call := hfirst.loosen (by decide)
  generalize first = left at hleft
  induction n generalizing left with
  | zero => exact .pure hleft
  | succ n ih =>
    refine Takes.take?.bind ?_
    rintro _ _ (⟨rfl, rfl⟩ | ⟨access, t, line, rfl, -, rfl, -⟩)
    · exact .pure hleft
    cases access with
    | arguments =>
      refine (slots_builds hi _).bind fun _ args ha => Takes.limit.bind fun _ _ hn => ?_
      exact ih _ ⟨⟨⟨hleft.2, hn.2⟩, hleft.1, ha⟩, Nat.le_refl _⟩
    | name =>
      exact identifier_builds.bind fun _ name hn =>
        ih _ ⟨⟨⟨hleft.2, hn⟩, hleft.1, trivial⟩, Nat.le_refl _⟩
    | key =>
      refine hi.expression.bind fun _ key hk => Takes.expect.bind fun _ _ _ => ?_
      exact ih _ ⟨⟨⟨hleft.2, trivial⟩, hleft.1, hk⟩, Nat.le_refl _⟩

theorem creation_builds (hi : InnerBuilds T inner) :
    Builds T (creation inner) (Expr.BuiltAt T .creation) := by
  refine Takes.take?.bind ?_
  rintro _ _ (⟨rfl, rfl⟩ | ⟨_, t, line, rfl, -, rfl, -⟩)
  · exact (call_builds hi).mono fun _ _ he => he.loosen (by decide)
  · exact (call_builds hi).map fun _ _ he => ⟨⟨he.2, he.1⟩, Nat.le_refl _⟩

theorem trailing_builds (hi : InnerBuilds T inner) :
    Builds T (trailing inner) (Expr.BuiltAt T .trailing) := by
  refine (creation_builds hi).bind fun _ e he => Takes.take?.bind ?_
  rintro _ _ (⟨rfl, rfl⟩ | ⟨op, t, line, rfl, ht, rfl, -⟩)
  · exact .pure (he.loosen (by decide))
  · obtain ⟨s, rfl, hs⟩ := ofSymbol_eq_some.mp ht
    obtain ⟨step, rfl, -⟩ := Symbol.trailing?_eq_some.mp hs
    exact .pure ⟨⟨⟨⟨step, rfl⟩, he.2⟩, he.1⟩, Nat.le_refl _⟩

theorem unary_builds (hi : InnerBuilds T inner) :
    Builds T (unary inner) (Expr.BuiltAt T .unary) := by
  refine Takes.take?.bind ?_
  rintro _ _ (⟨rfl, rfl⟩ | ⟨op, t, line, rfl, -, rfl, -⟩)
  · exact (trailing_builds hi).mono fun _ _ he => he.loosen (by decide)
  · exact hi.unary.map fun _ _ he => ⟨⟨he.2, he.1⟩, Nat.le_refl _⟩

theorem exponent_builds (hi : InnerBuilds T inner) :
    Builds T (exponent inner) (Expr.BuiltAt T .exponent) := by
  refine (unary_builds hi).bind fun _ base hb => Takes.take?.bind ?_
  rintro _ _ (⟨rfl, rfl⟩ | ⟨op, t, line, rfl, ht, rfl, -⟩)
  · exact .pure (hb.loosen (by decide))
  · obtain ⟨s, rfl, hs⟩ := ofSymbol_eq_some.mp ht
    obtain rfl : op = .arithmetic .pow := by cases s <;> cases hs; rfl
    exact hi.exponent.map fun _ _ he => ⟨⟨.inl ⟨hb.2, he.2⟩, hb.1, he.1⟩, Nat.le_refl _⟩

theorem join_every {op : Operator} {left right : Expr} {line : Nat} (h : op.Built T left right)
    (hl : left.every (built T)) (hr : right.every (built T)) :
    (op.join left right line).every (built T) := by
  cases op <;> exact ⟨h, hl, hr⟩

theorem chain_builds {op : Type} {operand : Parse Expr} {select : Symbol → Option op}
    {join : op → Expr → Expr → Nat → Expr} {level : Level} (operator : op → Operator)
    (ho : Builds T operand (Expr.BuiltAt T level.tighter))
    (hs : ∀ s, (select s).map operator = level.read? s) (hj : ∀ o, join o = (operator o).join)
    (hl : level.repeats) :
    Builds T (chain operand select join) (Expr.BuiltAt T level) := by
  refine ho.bind fun _ first hfirst => Takes.bounded fun n => ?_
  have hleft : first.BuiltAt T level := hfirst.loosen level.rank_tighter
  generalize first = left at hleft
  induction n generalizing left with
  | zero => exact .pure hleft
  | succ n ih =>
    refine Takes.take?.bind ?_
    rintro _ _ (⟨rfl, rfl⟩ | ⟨o, t, line, rfl, ht, rfl, -⟩)
    · exact .pure hleft
    obtain ⟨s, -, hso⟩ := ofSymbol_eq_some.mp ht
    have hread := hs s
    rw [hso] at hread
    obtain ⟨rfl, -⟩ := Level.read?_eq_some.mp hread.symm
    refine ho.bind fun _ right hright => ih _ ?_
    have hjoins : (operator o).Joins left right := by
      rw [Operator.Joins, Operator.leftLevel, Operator.rightLevel, if_pos hl, if_pos hl]
      exact ⟨hleft.2, hright.2⟩
    rw [hj]
    exact ⟨join_every (.inl hjoins) hleft.1 hright.1,
      Nat.le_of_eq (congrArg Level.rank (Operator.join_level ..).symm)⟩

theorem logicalOr_builds (hi : InnerBuilds T inner) :
    Builds T (logicalOr inner) (Expr.BuiltAt T .logicalOr) := by
  have binary {level : Level} {operand : Parse Expr} {select : Symbol → Option BinaryOp}
      (ho : Builds T operand (Expr.BuiltAt T level.tighter))
      (hs : ∀ s, (select s).map .binary = level.read? s) (hl : level.repeats) :
      Builds T (chain operand select .binary) (Expr.BuiltAt T level) :=
    chain_builds .binary ho hs (fun _ => rfl) hl
  have logical {level : Level} {operand : Parse Expr} {select : Symbol → Option LogicalOp}
      (ho : Builds T operand (Expr.BuiltAt T level.tighter))
      (hs : ∀ s, (select s).map .logical = level.read? s) (hl : level.repeats) :
      Builds T (chain operand select .logical) (Expr.BuiltAt T level) :=
    chain_builds .logical ho hs (fun _ => rfl) hl
  have multiplicative : Builds T (multiplicative inner) (Expr.BuiltAt T .multiplicative) :=
    binary (exponent_builds hi) (fun _ => rfl) rfl
  have additive : Builds T (additive inner) (Expr.BuiltAt T .additive) := binary multiplicative (fun _ => rfl) rfl
  have shift : Builds T (shift inner) (Expr.BuiltAt T .shift) := binary additive (fun _ => rfl) rfl
  have relational : Builds T (relational inner) (Expr.BuiltAt T .relational) := binary shift (fun _ => rfl) rfl
  have equality : Builds T (equality inner) (Expr.BuiltAt T .equality) := binary relational (fun _ => rfl) rfl
  have bitAnd : Builds T (bitAnd inner) (Expr.BuiltAt T .bitAnd) := binary equality (fun _ => rfl) rfl
  have bitXor : Builds T (bitXor inner) (Expr.BuiltAt T .bitXor) := binary bitAnd (fun _ => rfl) rfl
  have bitOr : Builds T (bitOr inner) (Expr.BuiltAt T .bitOr) := binary bitXor (fun _ => rfl) rfl
  have logicalAnd : Builds T (logicalAnd inner) (Expr.BuiltAt T .logicalAnd) := logical bitOr (fun _ => rfl) rfl
  exact logical logicalAnd (fun _ => rfl) rfl

theorem value_every {op : AssignOp} {s : Symbol} {target right : Expr} {line : Nat}
    (hs : s.assignment? = some op) (hline : T ⟨.symbol s, line⟩) (ht : target.every (built T))
    (hr : right.every (built T)) : (op.value target right line).every (built T) := by
  cases op with
  | plain => exact hr
  | binary op => exact ⟨.inr ⟨s, line, hline, hs⟩, ht, hr⟩
  | logical op => exact ⟨.inr ⟨s, line, hline, hs⟩, ht, hr⟩

theorem assignment_builds (hi : InnerBuilds T inner) :
    Builds T (assignment inner) (Expr.every (built T)) := by
  refine (logicalOr_builds hi).bind fun _ target ht => Takes.take?.bind ?_
  rintro _ _ (⟨rfl, rfl⟩ | ⟨op, t, line, rfl, hs, rfl, hline⟩)
  · exact .pure ht.1
  obtain ⟨s, rfl, hso⟩ := ofSymbol_eq_some.mp hs
  dsimp only
  split
  · exact .fail
  next place hp =>
  refine hi.expression.map fun _ right hr => ?_
  have hv : (op.value target right line).every (built T) := value_every hso hline ht.1 hr
  obtain ⟨name, l, rfl, rfl⟩ | ⟨holder, member, l, rfl, rfl⟩ := place?_eq_some hp
  · exact ⟨ht.1, hv⟩
  · exact ⟨ht.1.1, ht.1.2.1, ht.1.2.2, hv⟩

theorem variableDecl_builds (hi : InnerBuilds T inner) :
    Builds T (variableDecl inner) (Stmt.every (built T)) :=
  Takes.expect.bind fun _ _ _ => identifier_builds.bind fun _ _ hn =>
    (initial_builds hi).map fun _ _ he => ⟨hn, he⟩

theorem condition_builds (hi : InnerBuilds T inner) (opening : Expected) :
    Builds T (condition inner opening) (Expr.every (built T)) :=
  Takes.expect.bind fun _ _ _ => hi.expression.bind fun _ _ he =>
    Takes.expect.bind fun _ _ _ => .pure he

theorem clause_builds (hi : InnerBuilds T inner) (closing : Symbol) :
    Builds T (clause inner closing) (everyInitial (built T)) := by
  refine Takes.sees.bind fun _ missing _ => ?_
  split
  · exact .pure trivial
  · exact hi.expression.fmap fun _ _ he => he

theorem forInitial_builds (hi : InnerBuilds T inner) :
    Builds T (forInitial inner) (everyElse (built T)) := by
  refine Takes.sees.bind fun _ isVar _ => ?_
  split
  · exact (variableDecl_builds hi).fmap fun _ _ hs => hs
  · refine (clause_builds hi _).map fun _ e he => ?_
    cases e with
    | none => trivial
    | some e => exact ⟨trivial, he⟩

theorem advanced_every {body : Stmt} {advance : Option Expr} {line : Nat}
    (hb : body.every (built T)) (ha : everyInitial (built T) advance) :
    (body.advanced advance line).every (built T) := by
  cases advance with
  | none => exact hb
  | some e => exact ⟨trivial, hb, ⟨trivial, ha⟩, trivial⟩

theorem advanced_plain {body : Stmt} {advance : Option Expr} {line : Nat} (hb : body.plain) :
    (body.advanced advance line).plain := by
  cases advance with
  | none => exact hb
  | some e => rfl

def Closed (T : Lexeme → Prop) (s : Stmt) : Prop :=
  s.every (built T) ∧ s.plain ∧ s.takesElse = false

theorem forRest_builds (hi : InnerBuilds T inner) (line : Nat) :
    Builds T (forRest inner line) (Closed T) := by
  refine Takes.expect.bind fun _ _ _ => (forInitial_builds hi).bind fun _ initial hinit => ?_
  refine Takes.expect.bind fun _ _ _ => (clause_builds hi _).bind fun _ condition hcond => ?_
  refine Takes.expect.bind fun _ _ _ => (clause_builds hi _).bind fun _ advance hadv => ?_
  refine Takes.expect.bind fun _ _ _ => hi.statement.map fun _ body hbody => ⟨?_, rfl, rfl⟩
  have hcond : (condition.getD (.literal (.boolean true) line)).every (built T) := by
    cases condition with
    | none => exact .inr rfl
    | some e => exact hcond
  have hloop : (Stmt.loop (condition.getD (.literal (.boolean true) line))
      (body.advanced advance line) line).every (built T) :=
    ⟨advanced_plain hbody.2, hcond, advanced_every hbody.1 hadv⟩
  cases initial with
  | none => exact ⟨trivial, hloop, trivial⟩
  | some s => exact ⟨trivial, hinit, hloop, trivial⟩

theorem after_run {α : Type} {p : Parse α} {token : Token} {ts rest : List Lexeme} {r : Option α}
    (h : after token p ts = .ok (r, rest)) :
    (r = none ∧ rest = ts ∧ ∀ l ∈ ts.head?, l.token ≠ token) ∨
      ∃ a l us, r = some a ∧ ts = l :: us ∧ l.token = token ∧ p us = .ok (a, rest) := by
  cases ts with
  | nil =>
    obtain ⟨rfl, rfl⟩ := Prod.ext_iff.mp (Except.ok.inj h)
    exact .inl ⟨rfl, rfl, nofun⟩
  | cons l ts =>
    by_cases hl : l.token = token
    · obtain ⟨t, line⟩ := l
      obtain rfl : t = token := hl
      rw [after, bind_run accept_cons] at h
      change (p >>= fun a => pure (some a)) ts = _ at h
      obtain ⟨a, mid, ha, hr⟩ := bind_ok.mp h
      obtain ⟨rfl, rfl⟩ := Prod.ext_iff.mp (Except.ok.inj hr)
      exact .inr ⟨a, _, ts, rfl, rfl, rfl, ha⟩
    · rw [after, bind_run (accept_cons_ne hl)] at h
      obtain ⟨rfl, rfl⟩ := Prod.ext_iff.mp (Except.ok.inj h)
      refine .inl ⟨rfl, rfl, ?_⟩
      rintro _ ⟨⟩
      exact hl

theorem ifRest_builds (hi : InnerBuilds T inner) (line : Nat) :
    Builds T (ifRest inner line) fun s => s.every (built T) ∧ s.plain := by
  refine (condition_builds hi _).bind fun _ e he ts s rest ht hr => ?_
  obtain ⟨yes, mid, hrun, hr⟩ := bind_ok.mp hr
  obtain ⟨no, mid', hrun', hr⟩ := bind_ok.mp hr
  obtain ⟨rfl, rfl⟩ := Prod.ext_iff.mp (Except.ok.inj hr)
  -- An arm that could take an `else` is not followed by one, since it would have taken it.
  have hnearest (htakes : yes.takesElse) : no = none := by
    obtain ⟨hnone, -, -⟩ | ⟨_, l, _, -, rfl, hl, -⟩ := after_run hrun'
    · exact hnone
    · exact absurd hl (hi.noElse _ _ _ ht hrun htakes l rfl)
  obtain ⟨us, rfl, hyes, hplain⟩ := hi.statement ht hrun
  have ht' : ∀ l ∈ mid, T l := fun l hl => ht l (List.mem_append_right us hl)
  obtain ⟨vs, rfl, hno⟩ := Takes.after hi.statement ht' hrun'
  refine ⟨us ++ vs, (List.append_assoc ..).symm, ?_⟩
  obtain ⟨rfl, -⟩ | ⟨no, _, _, rfl, -, hno⟩ := hno
  · exact ⟨⟨⟨hplain, nofun⟩, he, hyes, trivial⟩, hplain⟩
  · have htakes : yes.takesElse = false := Bool.eq_false_iff.mpr fun h => nomatch hnearest h
    refine ⟨⟨⟨hplain, ?_⟩, he, hyes, hno.1⟩, Bool.and_eq_true_iff.mpr ⟨hplain, hno.2⟩⟩
    rintro _ ⟨⟩
    exact ⟨hno.2, htakes⟩

theorem whileRest_builds (hi : InnerBuilds T inner) (line : Nat) :
    Builds T (whileRest inner line) fun s => s.every (built T) ∧ s.plain :=
  (condition_builds hi _).bind fun _ _ he => hi.statement.map fun _ _ hbody =>
    ⟨⟨hbody.2, he, hbody.1⟩, hbody.2⟩

theorem doRest_builds (hi : InnerBuilds T inner) (line : Nat) :
    Builds T (doRest inner line) (Closed T) := by
  refine hi.statement.bind fun _ body hbody => Takes.expect.bind fun _ _ _ => ?_
  refine (condition_builds hi _).bind fun _ _ he => Takes.accept.bind fun _ _ _ => .pure ?_
  exact ⟨⟨trivial, hbody.1, ⟨hbody.2, he, hbody.1⟩, trivial⟩, rfl, rfl⟩

theorem returnRest_builds (hi : InnerBuilds T inner) (line : Nat) :
    Builds T (returnRest inner line) (Closed T) := by
  refine Takes.atEnd.bind fun _ _ _ => Takes.sees.bind fun _ _ _ => Takes.sees.bind fun _ _ _ => ?_
  split
  · exact Takes.accept.bind fun _ _ _ => .pure ⟨⟨trivial, trivial⟩, rfl, rfl⟩
  · exact hi.expression.bind fun _ e he => Takes.accept.bind fun _ _ _ =>
      .pure ⟨⟨trivial, he⟩, rfl, rfl⟩

theorem expressionStatement_builds (hi : InnerBuilds T inner) :
    Builds T (expressionStatement inner) (Closed T) :=
  Takes.get.bind fun _ _ _ => (assignment_builds hi).bind fun _ _ he =>
    Takes.accept.bind fun _ _ _ => .pure ⟨⟨trivial, he⟩, rfl, rfl⟩

def statementRest (inner : Inner) : Option (Opening × Nat) → Parse Stmt
  | some (.block, line) => block inner >>= fun body => pure (.block body line)
  | some (.branch, line) => ifRest inner line
  | some (.loop, line) => whileRest inner line
  | some (.forLoop, line) => forRest inner line
  | some (.doLoop, line) => doRest inner line
  | some (.«return», line) => returnRest inner line
  | none => expressionStatement inner

theorem statement_eq : statement inner = take? opening? >>= statementRest inner := rfl

theorem statement_builds (hi : InnerBuilds T inner) :
    Builds T (statement inner) fun s => s.every (built T) ∧ s.plain := by
  have closed {p : Parse Stmt} (hp : Builds T p (Closed T)) :
      Builds T p fun s => s.every (built T) ∧ s.plain := hp.mono fun _ _ hs => ⟨hs.1, hs.2.1⟩
  rw [statement_eq]
  refine Takes.take?.bind ?_
  rintro _ opening -
  obtain _ | ⟨opening, line⟩ := opening
  · exact closed (expressionStatement_builds hi)
  cases opening with
  | block => exact (block_builds hi).map fun _ _ hb => ⟨⟨trivial, hb⟩, rfl⟩
  | branch => exact ifRest_builds hi _
  | loop => exact whileRest_builds hi _
  | forLoop => exact closed (forRest_builds hi _)
  | doLoop => exact closed (doRest_builds hi _)
  | «return» => exact closed (returnRest_builds hi _)

theorem ifRest_noElse (hi : InnerBuilds T inner) {line : Nat} {ts rest : List Lexeme} {s : Stmt}
    (ht : ∀ l ∈ ts, T l) (hr : ifRest inner line ts = .ok (s, rest)) (hs : s.takesElse) :
    NoElse rest := by
  obtain ⟨e, mid, he, harms⟩ := bind_ok.mp hr
  obtain ⟨yes, mid', hyes, hrest⟩ := bind_ok.mp harms
  obtain ⟨no, _, hno, hlast⟩ := bind_ok.mp hrest
  obtain ⟨rfl, rfl⟩ := Prod.ext_iff.mp (Except.ok.inj hlast)
  obtain ⟨rfl, rfl, hnone⟩ | ⟨no, l, us, rfl, rfl, -, hno⟩ := after_run hno
  · exact hnone
  · obtain ⟨vs, rfl, -⟩ := condition_builds hi _ ht he
    have hmid : ∀ l ∈ mid, T l := fun l hl => ht l (List.mem_append_right vs hl)
    obtain ⟨ws, rfl, -⟩ := hi.statement hmid hyes
    have hus : ∀ l ∈ us, T l := fun _ hl => hmid _ (List.mem_append_right ws (.tail _ hl))
    exact hi.noElse _ _ _ hus hno hs

theorem whileRest_noElse (hi : InnerBuilds T inner) {line : Nat} {ts rest : List Lexeme} {s : Stmt}
    (ht : ∀ l ∈ ts, T l) (hr : whileRest inner line ts = .ok (s, rest)) (hs : s.takesElse) :
    NoElse rest := by
  obtain ⟨e, mid, he, hloop⟩ := bind_ok.mp hr
  obtain ⟨us, rfl, -⟩ := condition_builds hi _ ht he
  obtain ⟨body, mid', hbody, hlast⟩ := bind_ok.mp hloop
  obtain ⟨rfl, rfl⟩ := Prod.ext_iff.mp (Except.ok.inj hlast)
  exact hi.noElse _ _ _ (fun l hl => ht l (List.mem_append_right us hl)) hbody hs

theorem statement_noElse (hi : InnerBuilds T inner) {ts rest : List Lexeme} {s : Stmt}
    (ht : ∀ l ∈ ts, T l) (hr : statement inner ts = .ok (s, rest)) (hs : s.takesElse) :
    NoElse rest := by
  have closed {p : Parse Stmt} {us : List Lexeme} (hp : Builds T p (Closed T)) (hu : ∀ l ∈ us, T l)
      (hr : p us = .ok (s, rest)) : NoElse rest := by
    obtain ⟨-, -, -, -, hclosed⟩ := hp hu hr
    rw [hs] at hclosed
    cases hclosed
  rw [statement_eq] at hr
  obtain ⟨opening, mid, htake, hr⟩ := bind_ok.mp hr
  obtain ⟨us, rfl, -⟩ := Takes.take? ht htake
  have ht : ∀ l ∈ mid, T l := fun l hl => ht l (List.mem_append_right us hl)
  obtain _ | ⟨opening, line⟩ := opening
  · exact closed (expressionStatement_builds hi) ht hr
  cases opening with
  | block =>
    have hblock : Builds T (block inner >>= fun body => pure (.block body line)) (Closed T) :=
      (block_builds hi).map fun _ _ hb => ⟨⟨trivial, hb⟩, rfl, rfl⟩
    exact closed hblock ht hr
  | branch => exact ifRest_noElse hi ht hr hs
  | loop => exact whileRest_noElse hi ht hr hs
  | forLoop => exact closed (forRest_builds hi _) ht hr
  | doLoop => exact closed (doRest_builds hi _) ht hr
  | «return» => exact closed (returnRest_builds hi _) ht hr

theorem declaration_run (ts : List Lexeme) : declaration inner ts = (match ts with
    | ⟨.keyword .var, _⟩ :: _ => do
      let declared ← variableDecl inner
      let _ ← accept (.symbol .semicolon)
      return declared
    | ⟨.keyword .function, line⟩ :: ⟨.name name, _⟩ :: rest => do
      set rest
      return .function (← functionRest inner (some name) line)
    | ⟨.keyword .«class», line⟩ :: ⟨.name name, _⟩ :: rest => do
      set rest
      return .classDecl (← classRest inner (some name) line)
    | _ => statement inner : Parse Stmt) ts := rfl

theorem declaration_builds (hi : InnerBuilds T inner) :
    Builds T (declaration inner) (Stmt.every (built T)) := by
  have single {name : String} {line : Nat} (h : T ⟨.name name, line⟩) :
      ∀ n ∈ some name, Named T n := by
    rintro _ ⟨⟩
    exact ⟨line, h⟩
  intro ts s rest ht hr
  rw [declaration_run] at hr
  split at hr
  · exact ((variableDecl_builds hi).bind fun _ s hs => Takes.accept.bind fun _ _ _ => .pure hs) ht hr
  · next line name line' tail =>
    have hname := single (ht _ (.tail _ (.head _)))
    have hdecl : Builds T (functionRest inner (some name) line >>= fun d => pure (.function d))
        (Stmt.every (built T)) :=
      (functionRest_builds hi line hname).map fun _ d hd =>
        ⟨by change d.name.isSome; rw [hd.2]; rfl, hd.1⟩
    obtain ⟨us, hu, hs⟩ := hdecl (fun l hl => ht l (.tail _ (.tail _ hl))) hr
    exact ⟨_ :: _ :: us, by rw [hu]; rfl, hs⟩
  · next line name line' tail =>
    have hname : Named T name := ⟨line', ht _ (.tail _ (.head _))⟩
    have hdecl : Builds T (classRest inner (some name) line >>= fun d => pure (.classDecl d))
        (Stmt.every (built T)) :=
      (classRest_builds hi (some name) line).map fun _ d hd => ⟨⟨name, hd.2, hname⟩, hd.1⟩
    obtain ⟨us, hu, hs⟩ := hdecl (fun l hl => ht l (.tail _ (.tail _ hl))) hr
    exact ⟨_ :: _ :: us, by rw [hu]; rfl, hs⟩
  · exact ((statement_builds hi).mono fun _ _ hs => hs.1) ht hr

theorem nested_builds (T : Lexeme → Prop) (n : Nat) : InnerBuilds T (nested n) := by
  induction n with
  | zero => exact ⟨.throw, .throw, .throw, .throw, .throw, fun _ _ _ _ hr => nomatch hr⟩
  | succ n ih =>
    exact ⟨assignment_builds ih, unary_builds ih, exponent_builds ih, statement_builds ih,
      declaration_builds ih, fun _ _ _ => statement_noElse ih⟩

theorem programFrom_builds (T : Lexeme → Prop) (n : Nat) :
    Builds T (programFrom n) (everyStmt (built T)) := by
  induction n with
  | zero => exact .pure trivial
  | succ n ih =>
    refine Takes.skipSemicolons.bind fun _ _ _ => Takes.atEnd.bind fun _ ended _ => ?_
    split
    · exact .pure trivial
    · have hfirst : Builds T (phrase .declaration) (Stmt.every (built T)) :=
        Takes.bounded fun n => (nested_builds T (n + 1)).declaration
      exact hfirst.bind fun _ s hs => ih.map fun _ _ hr => ⟨hs, hr⟩

theorem program_builds {T : Lexeme → Prop} {lexemes : List Lexeme} {body : List Stmt}
    (ht : ∀ l ∈ lexemes, T l) (h : program lexemes = .ok body) : everyStmt (built T) body := by
  unfold program at h
  split at h
  · next statements rest hr =>
    obtain rfl := Except.ok.inj h
    obtain ⟨-, -, hs⟩ := Takes.bounded (fun n => programFrom_builds T n) ht hr
    exact hs
  · cases h

end Grammar
end Scriptlet
