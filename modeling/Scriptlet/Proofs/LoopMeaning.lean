import Scriptlet.Proofs.BuiltTrees
import Scriptlet.Proofs.FoldedEvaluation

/-!
What loops mean. The grammar writes `for` and `do` loops in terms of blocks and the one loop of the syntax
tree. From every state the tree does what the loop says; blocks that it adds leave scopes behind that bind
nothing, and nothing that is run later can tell.
-/

namespace Scriptlet

structure ForLoop where
  initial : Option Stmt
  condition : Option Expr
  advance : Option Expr
  body : Stmt

structure DoLoop where
  body : Stmt
  condition : Expr

namespace ForLoop

variable (limits : Limits) (loop : ForLoop)

def start : Eval Flow :=
  match loop.initial with
  | some s => execute limits s
  | none => return .normal .null

def test : Eval Value :=
  match loop.condition with
  | some e => eval limits e
  | none => return .boolean true

def rounds : Nat → Eval Flow
  | 0 => throw .exhausted
  | n + 1 => do
    if (← loop.test limits).truthy then
      match ← execute limits loop.body with
      | .«return» value => return .«return» value
      | .normal _ =>
        let _ ← evalInitial limits loop.advance
        rounds n
    else return .normal .null

def run : Eval Flow := do
  let scope ← Eval.childScope
  Eval.within scope do
    let _ ← loop.start limits
    loop.rounds limits limits.rounds

def tree (line : Nat) : Stmt := .forLoop loop.initial loop.condition loop.advance loop.body line

def steps : List Stmt := loop.body :: (loop.advance.map fun e => .expr e e.line).toList

end ForLoop

namespace DoLoop

variable (limits : Limits) (loop : DoLoop)

def rounds (n : Nat) : Eval Flow := do
  match ← execute limits loop.body with
  | .«return» value => return .«return» value
  | .normal _ =>
    match n with
    | 0 => throw .exhausted
    | n + 1 =>
      if (← eval limits loop.condition).truthy then rounds n else return .normal .null

def run : Eval Flow := loop.rounds limits limits.rounds

def tree (line : Nat) : Stmt := .doWhile loop.body loop.condition line

end DoLoop

namespace Grammar

open Parse

/-- A declaration of a variable, an expression, or nothing where a semicolon comes next. -/
inductive ReadsStart (inner : Inner) : List Lexeme → Option Stmt → List Lexeme → Prop
  | missing {a : Nat} {ts} :
    ReadsStart inner (⟨.symbol .semicolon, a⟩ :: ts) none (⟨.symbol .semicolon, a⟩ :: ts)
  | declared {ts s rest} : variableDecl inner ts = .ok (s, rest) → ReadsStart inner ts (some s) rest
  | evaluated {ts e rest} : inner .expression ts = .ok (e, rest) →
    ReadsStart inner ts (some (.expr e e.line)) rest

inductive ReadsClause (inner : Inner) (closing : Symbol) : List Lexeme → Option Expr → List Lexeme → Prop
  | missing {a : Nat} {ts} :
    ReadsClause inner closing (⟨.symbol closing, a⟩ :: ts) none (⟨.symbol closing, a⟩ :: ts)
  | given {ts e rest} : inner .expression ts = .ok (e, rest) → ReadsClause inner closing ts (some e) rest

inductive ReadsFor (inner : Inner) : List Lexeme → ForLoop → List Lexeme → Prop
  | parts {initial condition advance body} {a b c d : Nat} {ts₁ ts₂ ts₃ ts₄ rest} :
    ReadsStart inner ts₁ initial (⟨.symbol .semicolon, b⟩ :: ts₂) →
    ReadsClause inner .semicolon ts₂ condition (⟨.symbol .semicolon, c⟩ :: ts₃) →
    ReadsClause inner .rightParen ts₃ advance (⟨.symbol .rightParen, d⟩ :: ts₄) →
    inner .statement ts₄ = .ok (body, rest) →
    ReadsFor inner (⟨.symbol .leftParen, a⟩ :: ts₁) ⟨initial, condition, advance, body⟩ rest

inductive ReadsDo (inner : Inner) : List Lexeme → DoLoop → List Lexeme → Prop
  | parts {body condition} {a b c : Nat} {closed : Bool} {ts ts₁ ts₂ rest} :
    inner .statement ts = .ok (body, ⟨.keyword .«while», a⟩ :: ⟨.symbol .leftParen, b⟩ :: ts₁) →
    inner .expression ts₁ = .ok (condition, ⟨.symbol .rightParen, c⟩ :: ts₂) →
    accept (.symbol .semicolon) ts₂ = .ok (closed, rest) →
    ReadsDo inner ts ⟨body, condition⟩ rest

variable {inner : Inner} {ts rest : List Lexeme} {s : Stmt} {line : Nat}

theorem expect_eq_ok {token : Token} {what : Expected} (h : expect token what ts = .ok (line, rest)) :
    ts = ⟨token, line⟩ :: rest := by
  obtain ⟨_, rfl, rfl⟩ := Takes.expect (T := fun _ => True) (fun _ _ => trivial) h
  rfl

theorem sees_eq_ok {token : Token} {b : Bool} (h : sees token ts = .ok (b, rest)) :
    rest = ts ∧ b = ts.head?.any (·.token = token) := by
  obtain ⟨rfl, rfl⟩ := Prod.ext_iff.mp (Except.ok.inj h)
  exact ⟨rfl, rfl⟩

theorem readsClause_of_clause {closing : Symbol} {clause : Option Expr}
    (h : Grammar.clause inner closing ts = .ok (clause, rest)) : ReadsClause inner closing ts clause rest := by
  obtain ⟨missing, mid, hsees, h₁⟩ := bind_ok.mp h
  obtain ⟨rfl, hmissing⟩ := sees_eq_ok hsees
  cases missing with
  | true =>
    obtain ⟨rfl, rfl⟩ := Prod.ext_iff.mp (Except.ok.inj h₁)
    obtain _ | ⟨⟨token, a⟩, ts⟩ := mid
    · cases hmissing
    · obtain rfl : token = .symbol closing := by simpa using hmissing.symm
      exact .missing
  | false =>
    change (inner .expression >>= fun e => pure (some e)) mid = _ at h₁
    obtain ⟨e, after, he, h₂⟩ := bind_ok.mp h₁
    obtain ⟨rfl, rfl⟩ := Prod.ext_iff.mp (Except.ok.inj h₂)
    exact .given he

theorem readsStart_of_forInitial {initial : Option Stmt}
    (h : forInitial inner ts = .ok (initial, rest)) : ReadsStart inner ts initial rest := by
  obtain ⟨declares, mid, hsees, h₁⟩ := bind_ok.mp h
  obtain ⟨rfl, -⟩ := sees_eq_ok hsees
  cases declares with
  | true =>
    change (variableDecl inner >>= fun s => pure (some s)) mid = _ at h₁
    obtain ⟨s, after, hs, h₂⟩ := bind_ok.mp h₁
    obtain ⟨rfl, rfl⟩ := Prod.ext_iff.mp (Except.ok.inj h₂)
    exact .declared hs
  | false =>
    change (clause inner .semicolon >>= fun e => pure (e.map fun e => Stmt.expr e e.line)) mid = _ at h₁
    obtain ⟨e, after, he, h₂⟩ := bind_ok.mp h₁
    obtain ⟨rfl, rfl⟩ := Prod.ext_iff.mp (Except.ok.inj h₂)
    cases readsClause_of_clause he with
    | missing => exact .missing
    | given he => exact .evaluated he

theorem readsFor_of_statement (h : statement inner (⟨.keyword .«for», line⟩ :: ts) = .ok (s, rest)) :
    ∃ loop, ReadsFor inner ts loop rest ∧ s = loop.tree line := by
  change forRest inner line ts = _ at h
  obtain ⟨_, _, hopen, h₁⟩ := bind_ok.mp h
  obtain ⟨initial, _, hinitial, h₂⟩ := bind_ok.mp h₁
  obtain ⟨_, _, hsemi, h₃⟩ := bind_ok.mp h₂
  obtain ⟨condition, _, hcondition, h₄⟩ := bind_ok.mp h₃
  obtain ⟨_, _, hsemi', h₅⟩ := bind_ok.mp h₄
  obtain ⟨advance, _, hadvance, h₆⟩ := bind_ok.mp h₅
  obtain ⟨_, _, hclose, h₇⟩ := bind_ok.mp h₆
  obtain ⟨body, _, hbody, h₈⟩ := bind_ok.mp h₇
  obtain rfl := expect_eq_ok hopen
  obtain rfl := expect_eq_ok hsemi
  obtain rfl := expect_eq_ok hsemi'
  obtain rfl := expect_eq_ok hclose
  obtain ⟨rfl, rfl⟩ := Prod.ext_iff.mp (Except.ok.inj h₈)
  exact ⟨_, .parts (readsStart_of_forInitial hinitial) (readsClause_of_clause hcondition)
    (readsClause_of_clause hadvance) hbody, rfl⟩

theorem readsDo_of_statement (h : statement inner (⟨.keyword .«do», line⟩ :: ts) = .ok (s, rest)) :
    ∃ loop, ReadsDo inner ts loop rest ∧ s = loop.tree line := by
  change doRest inner line ts = _ at h
  obtain ⟨body, _, hbody, h₁⟩ := bind_ok.mp h
  obtain ⟨_, _, hwhile, h₂⟩ := bind_ok.mp h₁
  obtain ⟨e, _, hcondition, h₃⟩ := bind_ok.mp h₂
  obtain ⟨closed, _, hclosed, h₄⟩ := bind_ok.mp h₃
  obtain ⟨_, _, hopen, hcondition₁⟩ := bind_ok.mp hcondition
  obtain ⟨_, _, he, hcondition₂⟩ := bind_ok.mp hcondition₁
  obtain ⟨_, _, hclose, hcondition₃⟩ := bind_ok.mp hcondition₂
  obtain ⟨rfl, rfl⟩ := Prod.ext_iff.mp (Except.ok.inj hcondition₃)
  obtain rfl := expect_eq_ok hopen
  obtain rfl := expect_eq_ok hclose
  obtain rfl := expect_eq_ok hwhile
  obtain ⟨rfl, rfl⟩ := Prod.ext_iff.mp (Except.ok.inj h₄)
  exact ⟨_, .parts hbody he hclosed, rfl⟩

theorem ReadsStart.cases_some (h : ReadsStart inner ts (some s) rest) :
    (∃ name initial line, s = .declare name initial line) ∨ ∃ e line, s = .expr e line := by
  cases h with
  | declared h =>
    obtain ⟨_, _, -, h₁⟩ := bind_ok.mp h
    obtain ⟨_, _, -, h₂⟩ := bind_ok.mp h₁
    obtain ⟨_, _, -, h₃⟩ := bind_ok.mp h₂
    obtain ⟨rfl, rfl⟩ := Prod.ext_iff.mp (Except.ok.inj h₃)
    exact .inl ⟨_, _, _, rfl⟩
  | evaluated => exact .inr ⟨_, _, rfl⟩

theorem plain_of_nested {k : Nat} (h : nested k .statement ts = .ok (s, rest)) : s.plain := by
  obtain ⟨_, -, -, hs⟩ := (nested_builds (fun _ => True) k).statement (fun _ _ => trivial) h
  exact hs

end Grammar

def Eval.andThen (c : Eval Flow) (k : Value → Eval Flow) : Eval Flow := do
  match ← c with
  | .«return» value => return .«return» value
  | .normal value => k value

section

open Eval

variable {limits : Limits} {body : List Stmt} {s : Stmt} {c c' : Eval Flow} {k k' : Value → Eval Flow}

theorem andThen_normal : c.andThen (fun value => pure (.normal value)) = c := by
  conv_rhs => rw [← bind_pure c]
  rw [andThen]
  congr 1
  funext flow
  cases flow <;> rfl

theorem andThen_assoc : (c.andThen k).andThen k' = c.andThen fun value => (k value).andThen k' := by
  rw [andThen, andThen, bind_assoc, andThen]
  congr 1
  funext flow
  cases flow with
  | normal value => rfl
  | «return» value => exact pure_bind _ _

theorem andThen_value {e : Eval Value} :
    (e >>= fun v => pure (.normal v)).andThen k = e >>= k := by
  rw [andThen, bind_assoc]
  rfl

theorem andThen_mirrors {place : Ref → Ref} {m m' : Machine} (hc : c.Mirrors c' place m m')
    (hk : ∀ value place m m', (k value).Mirrors (k' value) place m m') :
    (c.andThen k).Mirrors (c'.andThen k') place m m' := by
  refine hc.bind fun flow n n' place' _ _ => ?_
  cases flow with
  | normal value => exact hk value place' n n'
  | «return» value => exact Mirrored.pure _ place' n n'

theorem executeAll_cons (last : Value) :
    executeAll limits (s :: body) last = (execute limits s).andThen (executeAll limits body) := by
  rw [executeAll, andThen]
  congr 1
  funext flow
  cases flow <;> rfl

theorem execute_bind
    (hs : (∃ name initial line, s = .declare name initial line) ∨ ∃ e line, s = .expr e line)
    (c : Eval Flow) : (execute limits s >>= fun _ => c) = (execute limits s).andThen fun _ => c := by
  obtain ⟨name, initial, line, rfl⟩ | ⟨e, line, rfl⟩ := hs
  · rw [execute, andThen, bind_assoc, bind_assoc]
    rfl
  · rw [execute, andThen, bind_assoc, bind_assoc]
    rfl

theorem executeAll_nil : executeAll limits [] = fun last => pure (.normal last) := by
  funext last
  rw [executeAll]

theorem executeAll_singleton (last : Value) : executeAll limits [s] last = execute limits s := by
  rw [executeAll_cons, executeAll_nil, andThen_normal]

theorem repeatWhile_succ {condition : Eval Value} {n : Nat} :
    repeatWhile condition c (n + 1) = condition >>= fun v =>
      if v.truthy then c.andThen fun _ => repeatWhile condition c n else pure (.normal .null) := by
  rw [repeatWhile]
  rfl

namespace ForLoop

variable (loop : ForLoop)

theorem eval_condition (line : Nat) :
    eval limits (loop.condition.getD (.literal (.boolean true) line)) = loop.test limits := by
  unfold test
  cases loop.condition with
  | none =>
    rw [Option.getD_none, eval]
    rfl
  | some e => rfl

theorem rounds_succ (n : Nat) :
    loop.rounds limits (n + 1) = loop.test limits >>= fun v =>
      if v.truthy then (executeAll limits loop.steps .null).andThen fun _ => loop.rounds limits n
      else pure (.normal .null) := by
  have hround : (execute limits loop.body).andThen (fun _ =>
      evalInitial limits loop.advance >>= fun _ => loop.rounds limits n) =
      (executeAll limits loop.steps .null).andThen fun _ => loop.rounds limits n := by
    rw [steps, executeAll_cons, andThen_assoc]
    congr 1
    funext value
    cases loop.advance with
    | none =>
      rw [Option.map_none, Option.toList_none, executeAll_nil, evalInitial]
      rfl
    | some e =>
      rw [Option.map_some, Option.toList_some, executeAll_singleton, execute, evalInitial, andThen_value]
  rw [← hround, rounds]
  rfl

variable {loop} in
theorem advanced_mirrors (hl : limits.Mirror) (hbody : loop.body.plain) (line : Nat)
    (place : Ref → Ref) (m m' : Machine) :
    (execute limits (loop.body.advanced loop.advance line)).Mirrors
      (executeAll limits loop.steps .null) place m m' := by
  unfold steps
  cases loop.advance with
  | none =>
    rw [Option.map_none, Option.toList_none, executeAll_singleton]
    exact execute_mirrors hl loop.body place m m' (.inl hbody)
  | some e =>
    refine block_mirrors hl ?_ line place m m'
    rintro s (_ | ⟨_, _ | ⟨_, ⟨⟩⟩⟩)
    · exact hbody
    · rfl

variable {loop} in
theorem rounds_mirrors (hl : limits.Mirror) (hbody : loop.body.plain) (line n : Nat)
    (place : Ref → Ref) (m m' : Machine) :
    (repeatWhile (eval limits (loop.condition.getD (.literal (.boolean true) line)))
      (execute limits (loop.body.advanced loop.advance line)) n).Mirrors (loop.rounds limits n)
      place m m' := by
  induction n generalizing place m m' with
  | zero => exact Mirrored.throw _ place m m'
  | succ n ih =>
    rw [repeatWhile_succ, rounds_succ, ← eval_condition loop line]
    refine Mirrors.bind (eval_mirrored hl _ place m m') fun v k k' place' _ _ => ?_
    split
    · exact andThen_mirrors (advanced_mirrors hl hbody line place' k k') fun _ => ih
    · exact Mirrored.pure _ place' k k'

variable {loop} in
theorem run_mirrors (hl : limits.Mirror) (hbody : loop.body.plain)
    (hinitial : ∀ s ∈ loop.initial, (∃ name initial line, s = .declare name initial line) ∨
      ∃ e line, s = .expr e line) (line : Nat) (place : Ref → Ref) (m m' : Machine) :
    (execute limits (loop.tree line)).Mirrors (loop.run limits) place m m' := by
  have hrounds (last : Value) (place : Ref → Ref) (m m' : Machine) :
      (executeAll limits [.loop (loop.condition.getD (.literal (.boolean true) line))
        (loop.body.advanced loop.advance line) line] last).Mirrors (loop.rounds limits limits.rounds)
        place m m' := by
    rw [executeAll_singleton, execute]
    exact rounds_mirrors hl hbody line limits.rounds place m m'
  rw [tree, Stmt.forLoop, execute]
  refine scoped_mirrors (fun place m m' hlead => ?_) place m m'
  unfold start
  cases hs : loop.initial with
  | none => exact hrounds .null place m m'
  | some s =>
    dsimp only
    rw [execute_bind (hinitial s hs), Option.toList_some, List.singleton_append, executeAll_cons]
    exact andThen_mirrors (execute_mirrors hl s place m m' (.inr hlead)) hrounds

end ForLoop

namespace DoLoop

variable (loop : DoLoop)

theorem rounds_eq (n : Nat) :
    loop.rounds limits n = (execute limits loop.body).andThen fun _ =>
      repeatWhile (eval limits loop.condition) (execute limits loop.body) n := by
  induction n with
  | zero =>
    rw [rounds]
    rfl
  | succ n ih =>
    rw [repeatWhile_succ, ← ih, rounds]
    rfl

variable {loop} in
theorem run_mirrors (hl : limits.Mirror) (hbody : loop.body.plain) (line : Nat) (place : Ref → Ref)
    (m m' : Machine) :
    (execute limits (loop.tree line)).Mirrors (loop.run limits) place m m' := by
  have hrun : executeAll limits [loop.body, .loop loop.condition loop.body line] .null =
      loop.run limits := by
    rw [run, rounds_eq, executeAll_cons]
    congr 1
    funext value
    rw [executeAll_singleton, execute]
  rw [← hrun]
  refine block_mirrors hl ?_ line place m m'
  rintro s (_ | ⟨_, _ | ⟨_, ⟨⟩⟩⟩)
  · exact hbody
  · exact hbody

end DoLoop

/-- From `m` the computations end alike, in states that differ in folded scopes at most, and nothing that
is run later tells these apart. -/
structure Eval.SameFrom {α : Type} (c c' : Eval α) (m : Machine) : Prop where
  outcome : c.outcome m = c'.outcome m
  folds : ∃ place, m.Settles id place (c.after m) ∧ (c.after m).Folds place (c'.after m)
  later : ∀ (n : Nat) (sources : List String),
    (c.after m).transcript n sources = (c'.after m).transcript n sources

theorem Eval.Mirrors.sameFrom {α : Type} {c c' : Eval α} {m : Machine} (h : c.Mirrors c' id m m)
    (ho : m.heap.Ordered) (hs : m.scope < m.heap.scopes.size) : c.SameFrom c' m := by
  obtain ⟨hout, place, hset, hf⟩ := h (.refl ho hs)
  refine ⟨hout.symm, ⟨place, hset, hf⟩, fun n sources => ?_⟩
  have hlead : Leads id m.scope := fun r hr => Nat.ne_of_lt hr
  exact (hf.transcript (hset.leads_scope hs hlead) n sources).symm

end

/-- Run from any state in which scopes come after their parents, as in all reachable ones, the tree of a
`for` loop and that of a `do` loop do what the loop says. -/
theorem loops_keep_meaning :
    (∀ (k line : Nat) (ts : List Lexeme) (s : Stmt) (rest : List Lexeme),
      Grammar.statement (Grammar.nested k) (⟨.keyword .«for», line⟩ :: ts) = .ok (s, rest) →
      ∃ loop, Grammar.ReadsFor (Grammar.nested k) ts loop rest ∧ ∀ (n : Nat) (m : Machine),
        m.heap.Ordered → m.scope < m.heap.scopes.size →
        (execute (.upTo n) s).SameFrom (loop.run (.upTo n)) m) ∧
    ∀ (k line : Nat) (ts : List Lexeme) (s : Stmt) (rest : List Lexeme),
      Grammar.statement (Grammar.nested k) (⟨.keyword .«do», line⟩ :: ts) = .ok (s, rest) →
      ∃ loop, Grammar.ReadsDo (Grammar.nested k) ts loop rest ∧ ∀ (n : Nat) (m : Machine),
        m.heap.Ordered → m.scope < m.heap.scopes.size →
        (execute (.upTo n) s).SameFrom (loop.run (.upTo n)) m := by
  constructor
  · intro k line ts s rest h
    obtain ⟨loop, hreads, rfl⟩ := Grammar.readsFor_of_statement h
    refine ⟨loop, hreads, fun n m ho hs => ?_⟩
    cases hreads with
    | parts hinitial _ _ hbody =>
      have hplain := Grammar.plain_of_nested hbody
      refine Eval.Mirrors.sameFrom (ForLoop.run_mirrors (upTo_mirror n) hplain ?_ line id m m) ho hs
      rintro s ⟨⟩
      exact hinitial.cases_some
  · intro k line ts s rest h
    obtain ⟨loop, hreads, rfl⟩ := Grammar.readsDo_of_statement h
    refine ⟨loop, hreads, fun n m ho hs => ?_⟩
    cases hreads with
    | parts hbody _ _ =>
      have hplain := Grammar.plain_of_nested hbody
      exact Eval.Mirrors.sameFrom (DoLoop.run_mirrors (upTo_mirror n) hplain line id m m) ho hs

def countLoop : List Lexeme :=
  [.symbol .leftParen, .keyword .var, .name "i", .symbol .assign, .integer 0, .symbol .semicolon,
    .name "i", .symbol .less, .integer 2, .symbol .semicolon, .name "i", .symbol .plusPlus,
    .symbol .rightParen, .name "seen", .symbol .assign, .name "i", .symbol .semicolon].map (⟨·, 1⟩)

def waitLoop : List Lexeme :=
  [.name "seen", .symbol .assign, .name "go", .symbol .semicolon, .keyword .«while», .symbol .leftParen,
    .symbol .bang, .name "seen", .symbol .rightParen, .symbol .semicolon].map (⟨·, 1⟩)

def seeing (name : String) : Stmt := .expr (.assign "seen" (.name name 1) 1) 1

def flagged : Machine :=
  (execute (.upTo 2) (.declare "seen" none 1)).after
    ((execute (.upTo 2) (.declare "go" (some (.literal (.boolean true) 1)) 1)).after
      (Machine.start 0).withGlobals)

theorem loops_keep_meaning_counter :
    let count : Stmt := .block [.declare "i" (some (.literal (.integer 0) 1)) 1,
      .loop (.binary (.order .less) (.name "i" 1) (.literal (.integer 2) 1) 1)
        (.block [seeing "i", .expr (.trailing (.step .increment) (.name "i" 1) 1) 1] 1) 1] 1
    let wait : Stmt := .block [seeing "go", .loop (.unary .not (.name "seen" 1) 1) (seeing "go") 1] 1
    Grammar.statement (Grammar.nested 4) (⟨.keyword .«for», 1⟩ :: countLoop) = .ok (count, []) ∧
    Grammar.statement (Grammar.nested 4) (⟨.keyword .«do», 1⟩ :: waitLoop) = .ok (wait, []) ∧
    flagged.heap.Ordered ∧ flagged.scope < flagged.heap.scopes.size ∧
    (∃ loop, Grammar.ReadsFor (Grammar.nested 4) countLoop loop [] ∧
      loop.initial = some (.declare "i" (some (.literal (.integer 0) 1)) 1) ∧
      (execute (.upTo 3) count).SameFrom (loop.run (.upTo 3)) flagged ∧
      (loop.run (.upTo 3)).outcome flagged = .ok (.normal .null)) ∧
    ∃ loop, Grammar.ReadsDo (Grammar.nested 4) waitLoop loop [] ∧
      (execute (.upTo 3) wait).SameFrom (loop.run (.upTo 3)) flagged ∧
      (loop.run (.upTo 3)).outcome flagged = .ok (.normal .null) := by
  intro count wait
  have hfor : Grammar.statement (Grammar.nested 4) (⟨.keyword .«for», 1⟩ :: countLoop) =
      .ok (count, []) := rfl
  have hdo : Grammar.statement (Grammar.nested 4) (⟨.keyword .«do», 1⟩ :: waitLoop) = .ok (wait, []) := rfl
  have hm : flagged.Reachable := ((Machine.Reachable.start 0).execute 2 _).execute 2 _
  obtain ⟨ho, hs⟩ := hm.ordered
  have hcount : (execute (.upTo 3) count).outcome flagged = .ok (.normal .null) := by decide +kernel
  have hwait : (execute (.upTo 3) wait).outcome flagged = .ok (.normal .null) := by decide +kernel
  obtain ⟨forLoop, hreads, hsame⟩ := loops_keep_meaning.1 4 1 countLoop count [] hfor
  obtain ⟨doLoop, hreads', hsame'⟩ := loops_keep_meaning.2 4 1 waitLoop wait [] hdo
  have hfirst := hsame 3 flagged ho hs
  have hsecond := hsame' 3 flagged ho hs
  have hinitial : forLoop.initial = some (.declare "i" (some (.literal (.integer 0) 1)) 1) := by
    cases hreads with
    | parts hinitial =>
      cases hinitial with
      | declared h => exact congrArg some (Prod.ext_iff.mp (Except.ok.inj h)).1.symm
      | evaluated h => cases h
  refine ⟨hfor, hdo, ho, hs, ⟨forLoop, hreads, hinitial, hfirst, ?_⟩, doLoop, hreads', hsecond, ?_⟩
  · rw [← hfirst.outcome, hcount]
  · rw [← hsecond.outcome, hwait]

end Scriptlet
