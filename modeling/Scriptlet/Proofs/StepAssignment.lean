import Mathlib
import Scriptlet.Proofs.AgreeingRuns
import Scriptlet.Proofs.CompoundAssignment
import Scriptlet.Proofs.TargetReading
import Scriptlet.Proofs.TreeTokens

namespace Scriptlet

namespace Eval

variable {α β γ : Type} {m : Machine}

/-- From `m` both end in one state, with one value or with faults for one cause. -/
structure Matches (c c' : Eval α) (m : Machine) : Prop where
  outcome : (c.outcome m).mapError Halt.erased = (c'.outcome m).mapError Halt.erased
  after : c.after m = c'.after m

def FailsLike (c : Eval α) (d : Eval β) (m : Machine) : Prop :=
  ∀ halt, c.outcome m = .error halt → c.after m = d.after m

theorem Matches.of_runs {c c' d d' : Eval α} (h : c m = d m) (h' : c' m = d' m)
    (hd : d.Matches d' m) : c.Matches c' m := by
  obtain ⟨houtcome, hafter⟩ := hd
  constructor
  · rwa [Eval.outcome, h, Eval.outcome, h']
  · rwa [Eval.after, h, Eval.after, h']

theorem Matches.bind {c : Eval α} {f f' : α → Eval β}
    (h : ∀ a n, c m = .ok a n → (f a).Matches (f' a) n) : (c >>= f).Matches (c >>= f') m := by
  cases hc : c m with
  | ok a n =>
    obtain ⟨houtcome, hafter⟩ := h a n hc
    constructor
    · rwa [Eval.outcome, bind_ok hc, Eval.outcome, bind_ok hc]
    · rwa [after_bind_ok hc, after_bind_ok hc]
  | error e n =>
    constructor
    · rw [outcome_error (bind_error hc), outcome_error (bind_error hc)]
    · rw [after_bind_error hc, after_bind_error hc]

theorem Matches.ofExcept {r r' : Except Fault α} {l l' : Nat} (h : OnLines l l' r r')
    (f : α → Eval β) : (Eval.ofExcept r >>= f).Matches (Eval.ofExcept r' >>= f) m := by
  cases h with
  | ok a => exact ⟨rfl, rfl⟩
  | error cause => exact ⟨rfl, rfl⟩

theorem Matches.failsLike {c c' : Eval α} {d : Eval β} (h : c.Matches c' m) (hc : c.FailsLike d m) :
    c'.FailsLike d m := by
  intro halt hhalt
  cases hout : c.outcome m with
  | ok a =>
    have houtcome := h.outcome
    rw [hhalt, hout] at houtcome
    cases houtcome
  | error e => rw [← h.after, hc e hout]

theorem FailsLike.of_runs {c c' : Eval α} {d d' : Eval β} (h : c m = c' m) (h' : d m = d' m)
    (hc : c'.FailsLike d' m) : c.FailsLike d m := by
  intro halt hhalt
  rw [Eval.outcome, h] at hhalt
  rw [Eval.after, h, Eval.after, h']
  exact hc halt hhalt

theorem FailsLike.bind {c : Eval α} {f : α → Eval β} {g : α → Eval γ}
    (h : ∀ a n, c m = .ok a n → (f a).FailsLike (g a) n) : (c >>= f).FailsLike (c >>= g) m := by
  intro halt hhalt
  cases hc : c m with
  | ok a n =>
    rw [after_bind_ok hc, after_bind_ok hc]
    refine h a n hc halt ?_
    rwa [Eval.outcome, bind_ok hc] at hhalt
  | error e n => rw [after_bind_error hc, after_bind_error hc]

end Eval

namespace Step

def symbol (s : Step) : Symbol := (UnaryOp.step s).symbol

def assignSymbol : Step → Symbol
  | increment => .plusAssign
  | decrement => .minusAssign

def arithmetic : Step → ArithmeticOp
  | increment => .add
  | decrement => .sub

theorem apply_onLines (s : Step) (h : Heap) {v : Value} (hv : v = .nan ∨ ∃ k, v = .integer k)
    (l l' : Nat) : OnLines l l' (s.apply v l) (h.arithmetic s.arithmetic v (.integer 1) l') := by
  obtain rfl | ⟨k, rfl⟩ := hv
  · exact .ok _
  · have hone : Int64.toInt 1 = 1 := rfl
    have hsum : integerArithmetic s.arithmetic k 1 =
        (Number.word? (k.toInt + s.amount)).map .integer := by
      cases s with
      | increment => rw [arithmetic, integerArithmetic, hone, amount]
      | decrement => rw [arithmetic, integerArithmetic, hone, amount, Int.sub_eq_add_neg]
    unfold apply Heap.arithmetic
    dsimp only
    rw [if_neg (by simp), hsum]
    cases Number.word? (k.toInt + s.amount) with
    | some w => exact .ok _
    | none => exact .error _

end Step

section

variable {limits : Limits} {m : Machine} {s : Step} {l line line' : Nat}

def storing (store : Value → Heap → Heap) (r : Except Fault Value) : Eval Value := do
  let next ← Eval.ofExcept r
  Eval.change (store next)
  return next

theorem storing_failsLike {α : Type} {store : Value → Heap → Heap} {r : Except Fault Value}
    {d : Eval α} (hd : d.after m = m) : (storing store r).FailsLike d m := by
  intro halt hhalt
  cases r with
  | ok v => cases hhalt
  | error e => exact hd.symm

theorem eval_step (target : Expr) :
    eval limits (.trailing (.step s) target line) = update limits s target line ∧
      eval limits (.unary (.step s) target line) = update limits s target line := by
  constructor <;> rw [eval]

theorem binder?_of_lookup {h : Heap} {ref : Ref} {name : String} {v : Value}
    (hv : h.lookup ref name = some v) : ∃ binder, h.binder? ref name = some binder := by
  rw [Heap.lookup_eq_binder] at hv
  obtain ⟨binder, hbinder, -⟩ := Option.bind_eq_some_iff.mp hv
  exact ⟨binder, hbinder⟩

theorem storing_name {name : String} {v : Value} (hv : m.heap.lookup m.scope name = some v) :
    ∃ store, ∀ (r : Except Fault Value) (line : Nat),
      (do
        let next ← Eval.ofExcept r
        Eval.assign name next line
        return next : Eval Value) m = storing store r m := by
  obtain ⟨binder, hbinder⟩ := binder?_of_lookup hv
  refine ⟨fun next h => h.define binder name next, fun r line => ?_⟩
  cases r with
  | ok next =>
    change (Eval.assign name next line >>= fun _ => pure next) m = _
    have hassign : Eval.assign name next line m =
        .ok () { m with heap := m.heap.define binder name next } := by
      rw [Eval.assign_run, hbinder]
      rfl
    rw [Eval.bind_ok hassign]
    rfl
  | error e => rfl

theorem update_name {name : String} :
    update limits s (.name name l) line = (do
      let current ← Eval.lookup name line
      let next ← Eval.ofExcept (s.apply current line)
      Eval.assign name next line
      return next) := by
  rw [update]

theorem update_read {holder : Expr} {member : Member} :
    update limits s (.read holder member l) line = (do
      let h ← eval limits holder
      let key ← memberKey limits member
      let current ← property h key
      storing (fun next heap => heap.setProperty h key next) (s.apply current line)) := by
  rw [update]
  rfl

def joinOne (a : ArithmeticOp) (current : Value) (line : Nat) : Eval Value := do
  Eval.ofExcept (← Eval.ask (·.arithmetic a current (.integer 1) line))

theorem eval_assign_one {name : String} {a : ArithmeticOp} {l₁ : Nat} :
    eval limits (.assign name
      (.binary (.arithmetic a) (.name name l) (.literal (.integer 1) l₁) line) line) = (do
        let current ← Eval.lookup name l
        let next ← joinOne a current line
        Eval.assign name next line
        return next) := by
  simp only [eval, Literal.value, binary, Heap.binary, joinOne, bind_assoc, pure_bind]

theorem eval_write_one {holder left : Expr} {member : Member} {a : ArithmeticOp} {l₁ : Nat}
    (hr : left.reads holder member) :
    eval limits (.write holder member
      (.binary (.arithmetic a) left (.literal (.integer 1) l₁) line) line) = (do
        let h ← eval limits holder
        let key ← memberKey limits member
        let current ← property h key
        let next ← joinOne a current line
        Eval.change (·.setProperty h key next)
        return next) := by
  let op : Operator := .binary (.arithmetic a)
  have heval : eval limits (.write holder member
      (op.join left (.literal (.integer 1) l₁) line) line) =
      combineAndStore limits holder member op (.literal (.integer 1) l₁) line := eval_write_reads hr
  refine heval.trans ?_
  simp only [op, combineAndStore, combineTarget, combine, eval, Literal.value, binary, Heap.binary,
    joinOne, bind_assoc, pure_bind]

theorem name_matches {name : String} {l₁ : Nat}
    (hv : ∀ v n, eval limits (.name name l) m = .ok v n → v = .nan ∨ ∃ k, v = .integer k) :
    (update limits s (.name name l) line).Matches (eval limits (.assign name
      (.binary (.arithmetic s.arithmetic) (.name name l) (.literal (.integer 1) l₁) line') line')) m ∧
    (update limits s (.name name l) line).FailsLike (eval limits (.name name l)) m := by
  have heval : eval limits (.name name l) = Eval.lookup name l := by rw [eval]
  rw [heval] at hv ⊢
  cases hlookup : m.heap.lookup m.scope name with
  | none =>
    have hfails (l : Nat) : Eval.lookup name l m = .error (.fault ⟨.undefined name, l⟩) m := by
      rw [Eval.lookup_run, hlookup]
      rfl
    rw [update_name, eval_assign_one]
    refine ⟨⟨?_, ?_⟩, ?_⟩
    · rw [Eval.outcome_error (Eval.bind_error (hfails line)),
        Eval.outcome_error (Eval.bind_error (hfails l))]
      rfl
    · rw [Eval.after_bind_error (hfails line), Eval.after_bind_error (hfails l)]
    · intro halt _
      rw [Eval.after_bind_error (hfails line), Eval.after_error (hfails l)]
  | some v =>
    have hreads (l : Nat) : Eval.lookup name l m = .ok v m := by
      rw [Eval.lookup_run, hlookup]
      rfl
    obtain ⟨store, hstore⟩ := storing_name hlookup
    have hstep : update limits s (.name name l) line m = storing store (s.apply v line) m := by
      rw [update_name, Eval.bind_ok (hreads line)]
      exact hstore _ line
    have hassign : eval limits (.assign name
        (.binary (.arithmetic s.arithmetic) (.name name l) (.literal (.integer 1) l₁) line') line') m =
        storing store (m.heap.arithmetic s.arithmetic v (.integer 1) line') m := by
      rw [eval_assign_one, Eval.bind_ok (hreads l)]
      exact hstore _ line'
    have hon := s.apply_onLines m.heap (hv v m (hreads l)) line line'
    exact ⟨.of_runs hstep hassign (.ofExcept hon _),
      .of_runs hstep rfl (storing_failsLike (Eval.after_ok (hreads l)))⟩

theorem read_matches {holder : Expr} {member : Member} {l₁ : Nat}
    (hr : (Expr.read holder member l).reads holder member)
    (hv : ∀ v n, eval limits (.read holder member l) m = .ok v n → v = .nan ∨ ∃ k, v = .integer k) :
    (update limits s (.read holder member l) line).Matches (eval limits (.write holder member
      (.binary (.arithmetic s.arithmetic) (.read holder member l) (.literal (.integer 1) l₁) line')
      line')) m ∧
    (update limits s (.read holder member l) line).FailsLike (eval limits (.read holder member l)) m := by
  have heval : eval limits (.read holder member l) =
      eval limits holder >>= fun h => memberKey limits member >>= fun key => property h key := by
    rw [eval]
  rw [heval] at hv ⊢
  rw [update_read, eval_write_one hr]
  constructor
  · refine .bind fun h n hh => .bind fun key n' hkey => ?_
    have hcurrent := hv (n'.heap.getProperty h key) n' (by rw [Eval.bind_ok hh, Eval.bind_ok hkey]; rfl)
    have hon := s.apply_onLines n'.heap hcurrent line line'
    have hsame : (storing (fun next heap => heap.setProperty h key next) _).Matches
        (storing (fun next heap => heap.setProperty h key next) _) n' := .ofExcept hon _
    exact .of_runs (by rfl) (by rfl) hsame
  · refine .bind fun h n _ => .bind fun key n' _ => ?_
    have hfails : (storing (fun next heap => heap.setProperty h key next)
        (s.apply (n'.heap.getProperty h key) line)).FailsLike (property h key) n' :=
      storing_failsLike rfl
    exact .of_runs (by rfl) (by rfl) hfails

end

def Step.assignment (s : Step) (place : Place) (target : Expr) (line l : Nat) : Expr :=
  place.store (.binary (.arithmetic s.arithmetic) target (.literal (.integer 1) l) line) line

section

variable {used rest : List Lexeme} {target : Expr} {place : Place} (s : Step)

theorem phrase_of_reads {ts : List Lexeme} {e : Expr} {level : Level} (ho : Opens level ts)
    (h : Grammar.Reads ts (.expr level e)) (hc : Closes .assignment rest) :
    Grammar.phrase .expression (ts ++ rest) = .ok (e, rest) := by
  have hassignment : Grammar.Reads ts (.expr .assignment e) := h.loosen ho (Nat.zero_le _)
  refine hassignment.enclosed _ rest ?_ hc
  rw [List.length_append]
  exact Nat.lt_succ_self _

theorem steps_read (htarget : Grammar.phrase .expression used = .ok (target, []))
    (hp : target.place? = some place) (line line' l : Nat)
    (hc : Closes .assignment rest) :
    Grammar.phrase .expression (used ++ ⟨.symbol s.symbol, line⟩ :: rest) =
        .ok (.trailing (.step s) target line, rest) ∧
      Grammar.phrase .expression (⟨.symbol s.symbol, line⟩ :: used ++ rest) =
        .ok (.unary (.step s) target line, rest) ∧
      Grammar.phrase .expression
          (used ++ ⟨.symbol s.assignSymbol, line'⟩ :: ⟨.integer 1, l⟩ :: rest) =
        .ok (s.assignment place target line' l, rest) := by
  obtain ⟨ho, hr⟩ := Grammar.target_reads (by rw [hp]; rfl) htarget
  have hspelling : s.symbol.spelling = s.spelling := (UnaryOp.step s).spelling_symbol
  refine ⟨?_, ?_, ?_⟩
  · have hoperand : Grammar.Reads used (.expr .creation target) := hr.loosen ho (by decide)
    have hopens : Opens .trailing used := ho.loosen (by decide)
    have hread : Grammar.Reads (used ++ [⟨.symbol s.symbol, line⟩])
        (.expr .trailing (.trailing (.step s) target line)) := hoperand.trailing hspelling
    have hphrase := phrase_of_reads (hopens.append _) hread hc
    rwa [List.append_assoc] at hphrase
  · have hoperand : Grammar.Reads used (.expr .unary target) := hr.loosen ho (by decide)
    have hopens : Opens .unary (⟨.symbol s.symbol, line⟩ :: used) :=
      ⟨_, used, .unary, rfl, by cases s <;> rfl, Nat.le_refl _⟩
    exact phrase_of_reads hopens (hoperand.unary hspelling) hc
  · have hleft : Grammar.Reads used (.expr .logicalOr target) := hr.loosen ho (by decide)
    have hone : Grammar.Reads [⟨.integer 1, l⟩] (.expr .primary (.literal (.integer 1) l)) :=
      .literal rfl
    have hright : Grammar.Reads [⟨.integer 1, l⟩] (.expr .assignment (.literal (.integer 1) l)) :=
      hone.loosen ⟨_, [], .primary, rfl, rfl, Nat.le_refl _⟩ (by decide)
    have hassigned : Assigned target (.literal (.integer 1) l) line' s.assignSymbol
        (.binary (.arithmetic s.arithmetic) target (.literal (.integer 1) l) line') := by
      have hjoin := @Assigned.compound target (.literal (.integer 1) l) line'
        (.binary (.arithmetic s.arithmetic)) s.assignSymbol
      cases s <;> exact hjoin rfl rfl
    have hopens : Opens .assignment used := ho.loosen (by decide)
    have hphrase := phrase_of_reads (hopens.append _) (hleft.assign place hp hassigned hright) hc
    rwa [List.append_assoc] at hphrase

/-- Before what does not continue an expression, a step on a target is read as a step and the assignment
of one as an assignment. If reading the target gives an integer or `nan`, or fails, all end in one state,
with one value or with faults for one cause; where they fail, nothing is written. -/
theorem step_assignment {source : String} {before after : List Lexeme} (line line' l : Nat)
    (hscan : Scan.tokens source = .ok (before ++ used ++ after))
    (htarget : Grammar.phrase .expression used = .ok (target, [])) (hp : target.place?.isSome) :
    ∃ assigned, (∀ rest : List Lexeme, Closes .assignment rest →
        Grammar.phrase .expression (used ++ ⟨.symbol s.symbol, line⟩ :: rest) =
            .ok (.trailing (.step s) target line, rest) ∧
          Grammar.phrase .expression (⟨.symbol s.symbol, line⟩ :: used ++ rest) =
            .ok (.unary (.step s) target line, rest) ∧
          Grammar.phrase .expression
              (used ++ ⟨.symbol s.assignSymbol, line'⟩ :: ⟨.integer 1, l⟩ :: rest) =
            .ok (assigned, rest)) ∧
      ∀ (limits : Limits) (m : Machine),
        (∀ v m', eval limits target m = .ok v m' → v = .nan ∨ ∃ k, v = .integer k) →
          (eval limits assigned).FailsLike (eval limits target) m ∧
          ∀ stepped ∈ [Expr.trailing (.step s) target line, .unary (.step s) target line],
            (eval limits stepped).Matches (eval limits assigned) m ∧
              (eval limits stepped).FailsLike (eval limits target) m := by
  obtain ⟨place, hplace⟩ := Option.isSome_iff_exists.mp hp
  have hscanned : ∀ lexeme ∈ used, lexeme.Scanned := fun lexeme h =>
    Scan.tokens_scanned hscan lexeme (List.mem_append_left after (List.mem_append_right before h))
  refine ⟨s.assignment place target line' l, fun rest => steps_read s htarget hplace line line' l, ?_⟩
  intro limits m hv
  have hupdate : (update limits s target line).Matches
        (eval limits (s.assignment place target line' l)) m ∧
      (update limits s target line).FailsLike (eval limits target) m := by
    cases target with
    | name x l₀ =>
      cases hplace
      exact name_matches hv
    | read holder member l₀ =>
      cases hplace
      have hyields := (Grammar.nested_yields (used.length + 1)).expression
      obtain ⟨-, -, hbuilt⟩ := hyields hscanned htarget
      obtain ⟨-, hholder, hmember⟩ := Expr.every_mono built_shaped _ hbuilt
      exact read_matches (reads_self hholder hmember) hv
    | _ => cases hp
  obtain ⟨htrailing, hunary⟩ := @eval_step limits s line target
  refine ⟨hupdate.1.failsLike hupdate.2, fun stepped hstepped => ?_⟩
  obtain rfl | rfl : stepped = .trailing (.step s) target line ∨
      stepped = .unary (.step s) target line := by simpa using hstepped
  · rw [htrailing]
    exact hupdate
  · rw [hunary]
    exact hupdate

end

def namedTarget : List Lexeme := [.name "o", .symbol .dot, .name "k"].map (⟨·, 1⟩)

theorem step_assignment_largest :
    let semicolon : List Lexeme := [⟨.symbol .semicolon, 1⟩]
    let m := ((Machine.start 0).withGlobals.run 1
      [.declare "o" (some (.object [("k", .literal (.integer Int64.maxValue) 1)] 1)) 1]).2
    ∃ up down,
      Grammar.phrase .expression (namedTarget ++ ⟨.symbol .plusAssign, 1⟩ :: ⟨.integer 1, 1⟩ :: semicolon) =
        .ok (up, semicolon) ∧
      Grammar.phrase .expression (namedTarget ++ ⟨.symbol .minusAssign, 1⟩ :: ⟨.integer 1, 1⟩ :: semicolon) =
        .ok (down, semicolon) ∧
      ((eval (.upTo 1) up).outcome m).mapError Halt.erased = .error (.fault ⟨.overflow, 0⟩) ∧
      (eval (.upTo 1) up).after m = m ∧
      ((eval (.upTo 1) down).outcome m).mapError Halt.erased = .ok (.integer (Int64.maxValue - 1)) := by
  intro semicolon m
  let target : Expr := .read (.name "o" 1) (.named "k") 1
  have hscan : Scan.tokens "o.k++;" =
      .ok ([] ++ namedTarget ++ [⟨.symbol .plusPlus, 1⟩, ⟨.symbol .semicolon, 1⟩]) := by cbv
  have htarget : Grammar.phrase .expression namedTarget = .ok (target, []) := rfl
  have hrest : Closes .assignment semicolon := Closes.cons_detached rfl
  have heval : eval (.upTo 1) target m = .ok (.integer Int64.maxValue) m := rfl
  have hv : ∀ v m', eval (.upTo 1) target m = .ok v m' → v = .nan ∨ ∃ k, v = .integer k := by
    intro v m' h
    rw [heval] at h
    cases h
    exact .inr ⟨_, rfl⟩
  obtain ⟨up, hup, hruns⟩ := step_assignment .increment 1 1 1 hscan htarget rfl
  obtain ⟨down, hdown, hruns'⟩ := step_assignment .decrement 1 1 1 hscan htarget rfl
  obtain ⟨hincrement, hfails⟩ := (hruns (.upTo 1) m hv).2 _ (.head _)
  obtain ⟨hdecrement, -⟩ := (hruns' (.upTo 1) m hv).2 _ (.head _)
  have hoverflow : (eval (.upTo 1) (.trailing (.step .increment) target 1)).outcome m =
      .error (.fault ⟨.overflow, 1⟩) := by decide +kernel
  have hless : (eval (.upTo 1) (.trailing (.step .decrement) target 1)).outcome m =
      .ok (.integer (Int64.maxValue - 1)) := by decide +kernel
  refine ⟨up, down, (hup semicolon hrest).2.2, (hdown semicolon hrest).2.2, ?_, ?_, ?_⟩
  · rw [← hincrement.outcome, hoverflow]
    rfl
  · rw [← hincrement.after, hfails _ hoverflow, Eval.after_ok heval]
  · rw [← hdecrement.outcome, hless]
    rfl

end Scriptlet
