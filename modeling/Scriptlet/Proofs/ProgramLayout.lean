import Scriptlet.Proofs.GrammarLayout

namespace Scriptlet

inductive SameButLines : Except SyntaxError (List Stmt) → Except SyntaxError (List Stmt) → Prop
  | statements {p q : List Stmt} (h : erased p = erased q) : SameButLines (.ok p) (.ok q)
  | failure {d e : SyntaxError} (h : d.cause = e.cause) : SameButLines (.error d) (.error e)

namespace Grammar

open Parse

theorem program_ok {ts rest : List Lexeme} {body : List Stmt}
    (h : bounded programFrom ts = .ok (body, rest)) : program ts = .ok body := by
  rw [program, StateT.run, h]

theorem program_error {ts : List Lexeme} {e : SyntaxError} (h : bounded programFrom ts = .error e) :
    program ts = .error (e.located (ts.getLast?.elim 1 (·.line))) := by
  rw [program, StateT.run, h]

variable {f : Nat → Nat}

theorem located_moved (e : SyntaxError) (line : Nat) :
    (if e.cause = .endOfInput then e else e.moved f).located (f line) = (e.located line).moved f := by
  by_cases h : e.cause = .endOfInput
  · rw [if_pos h, SyntaxError.located, SyntaxError.located, if_pos h, if_pos h]
    rfl
  · have hmoved : (e.moved f).cause ≠ .endOfInput := h
    rw [if_neg h, SyntaxError.located, SyntaxError.located, if_neg h, if_neg hmoved]

theorem program_moved (f : Nat → Nat) (ts : List Lexeme) :
    program (ts.map (Lexeme.moved f)) =
      ((program ts).map (mapBody f)).mapError (SyntaxError.moved f) := by
  cases ts with
  | nil => rfl
  | cons t ts =>
    have hrun := Carries.bounded (programFrom_carries (f := f)) (t :: ts)
    have hlast : ((t :: ts).map (Lexeme.moved f)).getLast?.elim 1 (·.line) =
        f ((t :: ts).getLast?.elim 1 (·.line)) := by
      rw [List.getLast?_map, List.getLast?_cons]
      rfl
    cases h : bounded programFrom (t :: ts) with
    | ok r =>
      rw [h] at hrun
      rw [program_ok h, program_ok hrun]
      rfl
    | error e =>
      rw [h] at hrun
      rw [program_error h, program_error hrun, hlast, located_moved]
      rfl

theorem program_layout {ts us : List Lexeme} (h : ts.map (·.token) = us.map (·.token)) :
    SameButLines (program ts) (program us) := by
  have unmoved (ts : List Lexeme) : ts.map (Lexeme.moved fun _ => 0) =
      (ts.map (·.token)).map fun t => ⟨t, 0⟩ := by
    rw [List.map_map]
    rfl
  have heq : program (ts.map (Lexeme.moved fun _ => 0)) = program (us.map (Lexeme.moved fun _ => 0)) := by
    rw [unmoved, unmoved, h]
  rw [program_moved, program_moved] at heq
  cases hp : program ts with
  | ok p =>
    cases hq : program us with
    | ok q =>
      rw [hp, hq] at heq
      refine .statements ?_
      rw [← erased_mapBody (fun _ => 0) p, Except.ok.inj heq, erased_mapBody]
    | error e =>
      rw [hp, hq] at heq
      cases heq
  | error d =>
    cases hq : program us with
    | ok q =>
      rw [hp, hq] at heq
      cases heq
    | error e =>
      rw [hp, hq] at heq
      exact .failure (SyntaxError.mk.inj (Except.error.inj heq)).1

theorem program_layout_return :
    let ts : List Lexeme := [⟨.keyword .return, 1⟩, ⟨.name "a", 1⟩, ⟨.symbol .plusPlus, 1⟩]
    let us : List Lexeme := [⟨.keyword .return, 1⟩, ⟨.name "a", 2⟩, ⟨.symbol .plusPlus, 3⟩]
    ts.map (·.token) = us.map (·.token) ∧
      program ts = .ok [.return (some (.trailing (.step .increment) (.name "a" 1) 1)) 1] ∧
      program us = .ok [.return (some (.trailing (.step .increment) (.name "a" 2) 3)) 1] ∧
      SameButLines (program ts) (program us) := by
  intro ts us
  have h : ts.map (·.token) = us.map (·.token) := rfl
  exact ⟨h, rfl, rfl, program_layout h⟩

theorem program_lined {L : Nat → Prop} {ts : List Lexeme} (h : ∀ l ∈ ts, L l.line) :
    (∀ body, program ts = .ok body → everyStmt (lined L) body) ∧
      ∀ e, program ts = .error e → L e.line := by
  classical
  -- A move that fixes the lines of `L` and no others leaves the lexemes where they are.
  let f (l : Nat) : Nat := if L l then l else l + 1
  have fixed (l : Nat) (hl : f l = l) : L l := by
    by_cases hn : L l
    · exact hn
    · have hl : l + 1 = l := (if_neg hn).symm.trans hl
      omega
  have hmap : ts.map (Lexeme.moved f) = ts := by
    refine (List.map_congr_left fun l hl => ?_).trans (List.map_id ts)
    exact congrArg (Lexeme.mk l.token) (if_pos (h l hl))
  have hmoved := program_moved f ts
  rw [hmap] at hmoved
  constructor
  · intro body hbody
    rw [hbody] at hmoved
    exact everyStmt_lined fixed body (Except.ok.inj hmoved).symm
  · intro e he
    rw [he] at hmoved
    exact fixed _ (SyntaxError.mk.inj (Except.error.inj hmoved)).2.symm

end Grammar
end Scriptlet
