import Scriptlet.Proofs.GrammarContinuation
import Scriptlet.Proofs.StateGrowth

namespace Scriptlet

namespace Grammar

open Parse

def dropSemicolons (ts : List Lexeme) : List Lexeme :=
  ts.dropWhile (·.token = .symbol .semicolon)

inductive Parses : List Lexeme → List Stmt → Prop
  | done {ts : List Lexeme} (h : dropSemicolons ts = []) : Parses ts []
  | more {ts rest : List Lexeme} {s : Stmt} {body : List Stmt}
    (h : phrase .declaration (dropSemicolons ts) = .ok (s, rest)) (hrest : Parses rest body) :
    Parses ts (s :: body)

variable {ts us q : List Lexeme}

theorem dropSemicolons_append (h : dropSemicolons ts ≠ []) :
    dropSemicolons (ts ++ q) = dropSemicolons ts ++ q := by
  unfold dropSemicolons at h ⊢
  rw [List.dropWhile_append, if_neg (by simpa using h)]

theorem dropSemicolons_append_nil (h : dropSemicolons ts = []) :
    dropSemicolons (ts ++ q) = dropSemicolons q := by
  unfold dropSemicolons at h ⊢
  rw [List.dropWhile_append, h]
  rfl

theorem length_dropSemicolons (ts : List Lexeme) : (dropSemicolons ts).length ≤ ts.length :=
  (List.dropWhile_sublist _).length_le

theorem programFrom_ended (n : Nat) (h : dropSemicolons ts = []) :
    programFrom (n + 1) ts = .ok ([], []) := by
  have hskip : skipSemicolons ts = .ok ((), []) := by
    change Except.ok ((), dropSemicolons ts) = _
    rw [h]
  rw [programFrom, programRound, bind_run hskip]
  rfl

theorem programFrom_more (n : Nat) (h : dropSemicolons ts ≠ []) :
    programFrom (n + 1) ts = (phrase .declaration >>= fun s =>
      programFrom n >>= fun body => pure (s :: body)) (dropSemicolons ts) := by
  have hskip : skipSemicolons ts = .ok ((), dropSemicolons ts) := rfl
  rw [programFrom, programRound, bind_run hskip]
  cases hts : dropSemicolons ts with
  | nil => exact absurd hts h
  | cons l rest => rfl

theorem phrase_declaration_nil : phrase .declaration [] = .error endOfInput := rfl

theorem Parses.of_programFrom {n : Nat} {body : List Stmt} {rest : List Lexeme}
    (hn : ts.length ≤ n) (h : programFrom n ts = .ok (body, rest)) : Parses ts body := by
  induction n generalizing ts body with
  | zero =>
    obtain rfl := List.length_eq_zero_iff.mp (Nat.le_zero.mp hn)
    cases h
    exact .done rfl
  | succ n ih =>
    by_cases hts : dropSemicolons ts = []
    · rw [programFrom_ended n hts] at h
      cases h
      exact .done hts
    · rw [programFrom_more n hts] at h
      obtain ⟨s, mid, hs, h⟩ := bind_ok.mp h
      obtain ⟨tail, _, htail, h⟩ := bind_ok.mp h
      cases h
      have hmid := (phrase_declaration_continues [] _).takes s mid hs
      have hdrop := length_dropSemicolons ts
      exact .more hs (ih (by omega) htail)

theorem Parses.programFrom_run {body : List Stmt} (h : Parses ts body) (n : Nat)
    (hn : ts.length ≤ n) : ∃ rest, programFrom n ts = .ok (body, rest) := by
  induction h generalizing n with
  | @done ts h =>
    cases n with
    | zero => exact ⟨ts, rfl⟩
    | succ n => exact ⟨[], programFrom_ended n h⟩
  | @more ts rest s body h hrest ih =>
    have hts : dropSemicolons ts ≠ [] := by
      intro hts
      rw [hts, phrase_declaration_nil] at h
      cases h
    have hmid := (phrase_declaration_continues [] _).takes s rest h
    have hdrop := length_dropSemicolons ts
    obtain ⟨n, rfl⟩ := Nat.exists_eq_add_of_le' (show 1 ≤ n by omega)
    obtain ⟨rest', hr⟩ := ih n (by omega)
    rw [programFrom_more n hts, bind_run h]
    exact ⟨rest', bind_run hr⟩

theorem parses_iff {body : List Stmt} : Parses ts body ↔ program ts = .ok body := by
  constructor
  · intro h
    obtain ⟨rest, hr⟩ := h.programFrom_run ts.length (Nat.le_refl _)
    have hr : (bounded programFrom).run ts = .ok (body, rest) := hr
    rw [program, hr]
  · intro h
    unfold program at h
    split at h
    · next body' rest hr =>
      cases h
      exact .of_programFrom (Nat.le_refl _) hr
    · cases h

theorem Parses.congr {body : List Stmt} (h : Parses us body)
    (hts : dropSemicolons ts = dropSemicolons us) : Parses ts body := by
  cases h with
  | done h => exact .done (hts.trans h)
  | more h hrest => exact .more (hts ▸ h) hrest

theorem phrase_else (line : Nat) (ts : List Lexeme) :
    phrase .declaration (⟨.keyword .«else», line⟩ :: ts) =
      .error ⟨.unexpected (.keyword .«else»), line⟩ := rfl

theorem Parses.noElse {body : List Stmt} (h : Parses ts body) : NoElse ts := by
  obtain _ | ⟨⟨t, line⟩, rest⟩ := ts
  · exact nofun
  rintro _ ⟨⟩ (rfl : t = .keyword .«else»)
  cases h with
  | done h => cases h
  | more h _ =>
    have h : phrase .declaration (⟨.keyword .«else», line⟩ :: rest) = _ := h
    rw [phrase_else] at h
    cases h

theorem Parses.append {ps qs : List Stmt} (hp : Parses ts ps) (hq : Parses q qs) (line : Nat) :
    Parses (ts ++ ⟨.symbol .semicolon, line⟩ :: q) (ps ++ qs) := by
  have hsep : Separates (⟨.symbol .semicolon, line⟩ :: q) := .cons line hq.noElse
  -- A declaration that ends where the first program ends may take the `;` as well.
  induction hp with
  | done h => exact hq.congr (dropSemicolons_append_nil h)
  | @more ts rest s body h hrest ih =>
    have hts : dropSemicolons ts ≠ [] := by
      intro hts
      rw [hts, phrase_declaration_nil] at h
      cases h
    have hcontinues := phrase_declaration_continues (⟨.symbol .semicolon, line⟩ :: q)
    have hr := (hcontinues (dropSemicolons ts)).resumes
    rw [h, ← dropSemicolons_append hts] at hr
    cases rest with
    | cons l rest => exact .more hr ih
    | nil =>
      obtain hr | hr := hr hsep
      · exact .more hr ih
      · exact .more hr (ih.congr rfl)

theorem programFrom_failed {e : SyntaxError} (he : e.cause ≠ .endOfInput) (n m : Nat) (hm : n ≤ m)
    (h : programFrom n ts = .error e) : programFrom m (ts ++ q) = .error e := by
  induction n generalizing m ts with
  | zero => cases h
  | succ n ih =>
    obtain ⟨m, rfl⟩ := Nat.exists_eq_add_of_le' hm
    by_cases hts : dropSemicolons ts = []
    · rw [programFrom_ended n hts] at h
      cases h
    have hts' : dropSemicolons (ts ++ q) ≠ [] := by
      rw [dropSemicolons_append hts]
      exact List.append_ne_nil_of_left_ne_nil hts q
    have hr := (phrase_declaration_continues q (dropSemicolons ts)).resumes
    rw [programFrom_more n hts] at h
    rw [← Nat.add_assoc, programFrom_more _ hts', dropSemicolons_append hts]
    cases hs : phrase .declaration (dropSemicolons ts) with
    | error e' =>
      rw [hs] at hr
      rw [bind_error hs] at h
      cases h
      exact bind_error (hr he)
    | ok r =>
      obtain ⟨s, mid⟩ := r
      rw [bind_run hs] at h
      cases hmid : programFrom n mid with
      | ok r =>
        rw [bind_run hmid] at h
        cases h
      | error e' =>
        rw [bind_error hmid] at h
        cases h
        cases mid with
        | nil =>
          -- Nothing can be wrong with no lexemes.
          cases n <;> cases hmid
        | cons l rest =>
          rw [hs] at hr
          rw [bind_run hr]
          exact bind_error (ih (m + n) (Nat.le_add_left n m) hmid)

theorem program_error_final {e : SyntaxError} (h : program ts = .error e)
    (he : e.cause ≠ .endOfInput) (q : List Lexeme) : program (ts ++ q) = .error e := by
  unfold program at h
  split at h
  · cases h
  · next e' hr =>
    have hlocated : e'.located (ts.getLast?.elim 1 (·.line)) = e := Except.error.inj h
    have he' : e'.cause ≠ .endOfInput := by
      intro hc
      rw [SyntaxError.located, if_pos hc] at hlocated
      rw [← hlocated] at he
      exact he hc
    rw [SyntaxError.located, if_neg he'] at hlocated
    subst hlocated
    have hr : programFrom ts.length ts = .error e' := hr
    have hlength : ts.length ≤ (ts ++ q).length := by
      rw [List.length_append]
      exact Nat.le_add_right ..
    have hq : (bounded programFrom).run (ts ++ q) = .error e' :=
      programFrom_failed he' ts.length _ hlength hr
    rw [program, hq]
    exact congrArg Except.error (if_neg he')

theorem program_error_final_literalTarget :
    let ts : List Lexeme := [⟨.integer 1, 1⟩, ⟨.symbol .assign, 1⟩]
    let e : SyntaxError := ⟨.assignmentTarget "1", 1⟩
    program ts = .error e ∧ e.cause ≠ .endOfInput ∧
      program (ts ++ [⟨.integer 2, 1⟩, ⟨.symbol .rightParen, 2⟩]) = .error e := by
  intro ts e
  have he : e.cause ≠ .endOfInput := by decide
  exact ⟨rfl, he, program_error_final rfl he _⟩

end Grammar

open Grammar

theorem executeAll_append {limits : Limits} {ps : List Stmt} {last v : Value} {m m₁ : Machine}
    (h : executeAll limits ps last m = .ok (.normal v) m₁) (qs : List Stmt) :
    executeAll limits (ps ++ qs) last m = executeAll limits qs v m₁ := by
  induction ps generalizing last m with
  | nil =>
    rw [executeAll] at h
    cases h
    rfl
  | cons s ps ih =>
    rw [executeAll] at h
    obtain ⟨flow, m', hs, h⟩ := Eval.bind_eq_ok.mp h
    rw [List.cons_append, executeAll, Eval.bind_ok hs]
    cases flow with
    | normal value => exact ih h
    | «return» value => cases h

theorem executeAll_last {limits : Limits} {qs : List Stmt} (hq : qs ≠ []) (last last' : Value) :
    executeAll limits qs last = executeAll limits qs last' := by
  cases qs with
  | nil => exact absurd rfl hq
  | cons s qs => rw [executeAll, executeAll]

/-- Two programs with a `;` between them are read as one that does what they do one after the other,
in one scope and with the value of the last statement. -/
theorem program_in_pieces {p q : List Lexeme} {ps qs : List Stmt} (hp : program p = .ok ps)
    (hq : program q = .ok qs) (line : Nat) :
    program (p ++ ⟨.symbol .semicolon, line⟩ :: q) = .ok (ps ++ qs) ∧
      ∀ (n : Nat) (m m₁ : Machine) (v : Value),
        executeAll (.upTo n) ps .null m = .ok (.normal v) m₁ →
          m.run n ps = (.ok v, m₁) ∧ m₁.scope = m.scope ∧
            m.run n (ps ++ qs) = if qs.isEmpty then (.ok v, m₁) else m₁.run n qs := by
  refine ⟨parses_iff.mp ((parses_iff.mpr hp).append (parses_iff.mpr hq) line), ?_⟩
  intro n m m₁ v h
  have hrun (ps : List Stmt) (h : executeAll (.upTo n) ps .null m = .ok (.normal v) m₁) :
      m.run n ps = (.ok v, m₁) := by
    rw [Machine.run, runProgram, Eval.bind_ok h]
    rfl
  have hscope : m₁.scope = m.scope := by
    have hs := (executeAll_obeys (upTo_obey growth n) ps .null m).1
    rwa [Eval.after_ok h] at hs
  have happend := executeAll_append h qs
  refine ⟨hrun ps h, hscope, ?_⟩
  cases qs with
  | nil =>
    rw [List.append_nil]
    exact hrun ps h
  | cons s qs =>
    rw [executeAll_last (List.cons_ne_nil s qs) v .null] at happend
    have hprogram : runProgram n (ps ++ s :: qs) m = runProgram n (s :: qs) m₁ :=
      Eval.bind_congr happend
    simp only [Machine.run, hprogram, List.isEmpty_cons, Bool.false_eq_true, if_false]

theorem program_in_pieces_product :
    let p : List Lexeme :=
      [⟨.keyword .var, 1⟩, ⟨.name "a", 1⟩, ⟨.symbol .assign, 1⟩, ⟨.integer 2, 1⟩]
    let q : List Lexeme := [⟨.name "a", 1⟩, ⟨.symbol .star, 1⟩, ⟨.integer 3, 1⟩]
    let product : Expr := .binary (.arithmetic .mul) (.name "a" 1) (.literal (.integer 3) 1) 1
    let ps : List Stmt := [.declare "a" (some (.literal (.integer 2) 1)) 1]
    let qs : List Stmt := [.expr product 1]
    let m := (Machine.start 0).withGlobals
    let m₁ := (m.run 1 ps).2
    program p = .ok ps ∧ program q = .ok qs ∧
      program (p ++ ⟨.symbol .semicolon, 1⟩ :: q) = .ok (ps ++ qs) ∧
      executeAll (.upTo 1) ps .null m = .ok (.normal .null) m₁ ∧
      m.run 1 (ps ++ qs) = m₁.run 1 qs := by
  intro p q product ps qs m m₁
  have hp : program p = .ok ps := rfl
  have hq : program q = .ok qs := rfl
  have hfirst : executeAll (.upTo 1) ps .null m = .ok (.normal .null) m₁ := rfl
  obtain ⟨hboth, hruns⟩ := program_in_pieces hp hq 1
  exact ⟨hp, hq, hboth, hfirst, (hruns 1 m m₁ .null hfirst).2.2⟩

end Scriptlet
