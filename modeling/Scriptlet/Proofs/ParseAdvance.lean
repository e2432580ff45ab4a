import Scriptlet.Proofs.ParseRules
import Mathlib.Logic.Function.Iterate

/-!
Parsers that take lexemes from the front, and recursions over them. A recursion that goes on only with
fewer lexemes comes to an end: whatever it would go on with after that many calls within calls makes no
difference.
-/

namespace Scriptlet.Parse

structure Advance {α : Type} (d : Nat) (p p' : Parse α) (ts : List Lexeme) : Prop where
  same : p ts = p' ts
  takes : ∀ a rest, p ts = .ok (a, rest) → rest <:+ ts ∧ rest.length + d ≤ ts.length

namespace Advance

variable {α β : Type} {ts : List Lexeme} {d e : Nat} {p p' : Parse α} {f f' : α → Parse β}

theorem mono (h : Advance d p p' ts) (he : e ≤ d) : Advance e p p' ts := by
  refine ⟨h.same, fun a rest hr => ?_⟩
  obtain ⟨hsuffix, hlength⟩ := h.takes a rest hr
  exact ⟨hsuffix, by omega⟩

theorem any (h : Advance d p p' ts) : Advance 0 p p' ts := h.mono (Nat.zero_le d)

theorem stays {a : α} (h : p ts = .ok (a, ts)) (h' : p' ts = .ok (a, ts)) : Advance 0 p p' ts := by
  refine ⟨h.trans h'.symm, fun b rest hr => ?_⟩
  rw [h] at hr
  cases hr
  exact ⟨List.suffix_refl ts, Nat.le_refl _⟩

theorem fails {err : SyntaxError} (h : p ts = .error err) (h' : p' ts = .error err) :
    Advance d p p' ts := by
  refine ⟨h.trans h'.symm, fun b rest hr => ?_⟩
  rw [h] at hr
  cases hr

theorem of_runs {us : List Lexeme} {q q' : Parse α} (h : p ts = q us) (h' : p' ts = q' us)
    (hs : us <:+ ts) (hl : us.length + d ≤ ts.length + e) (hq : Advance e q q' us) :
    Advance d p p' ts := by
  refine ⟨by rw [h, h', hq.same], fun a rest hr => ?_⟩
  rw [h] at hr
  obtain ⟨hsuffix, hlength⟩ := hq.takes a rest hr
  exact ⟨hsuffix.trans hs, by omega⟩

theorem pure {a : α} : Advance 0 (pure a : Parse α) (Pure.pure a) ts := stays rfl rfl

theorem fail {cause : SyntaxError.Cause} {line : Nat} :
    Advance d (fail cause line : Parse α) (Parse.fail cause line) ts := fails rfl rfl

theorem throw {err : SyntaxError} : Advance d (throw err : Parse α) (throw err) ts := fails rfl rfl

theorem bind_of {k : Nat} (hp : Advance d p p' ts) (hk : k ≤ d + e)
    (hf : ∀ a rest, rest.length + d ≤ ts.length → Advance e (f a) (f' a) rest) :
    Advance k (p >>= f) (p' >>= f') ts := by
  have hsame := hp.same
  cases h : p ts with
  | error err =>
    rw [h] at hsame
    exact fails (bind_error h) (bind_error hsame.symm)
  | ok r =>
    obtain ⟨a, rest⟩ := r
    rw [h] at hsame
    obtain ⟨hsuffix, hlength⟩ := hp.takes a rest h
    have hrest := hf a rest hlength
    refine ⟨?_, fun b last hr => ?_⟩
    · rw [bind_run h, bind_run hsame.symm, hrest.same]
    · rw [bind_run h] at hr
      obtain ⟨hsuffix', hlength'⟩ := hrest.takes b last hr
      exact ⟨hsuffix'.trans hsuffix, by omega⟩

theorem bind (hp : Advance d p p' ts)
    (hf : ∀ a rest, rest.length + d ≤ ts.length → Advance 0 (f a) (f' a) rest) :
    Advance d (p >>= f) (p' >>= f') ts := hp.bind_of (Nat.le_refl d) hf

theorem bind_then (hp : Advance 0 p p' ts)
    (hf : ∀ a rest, rest.length ≤ ts.length → Advance d (f a) (f' a) rest) :
    Advance d (p >>= f) (p' >>= f') ts := hp.bind_of (Nat.le_of_eq (Nat.zero_add d).symm) hf

theorem map {g : α → β} (hp : Advance d p p' ts) :
    Advance d (p >>= fun a => Pure.pure (g a)) (p' >>= fun a => Pure.pure (g a)) ts :=
  hp.bind fun _ _ _ => pure

theorem fmap {g : α → β} (hp : Advance d p p' ts) : Advance d (g <$> p) (g <$> p') ts := hp.map

theorem bounded {loop loop' : Nat → Parse α}
    (h : Advance d (loop ts.length) (loop' ts.length) ts) :
    Advance d (bounded loop) (Parse.bounded loop') ts := ⟨h.same, h.takes⟩

theorem next : Advance 1 next next ts := by
  cases ts with
  | nil => exact fails rfl rfl
  | cons l ts =>
    refine ⟨rfl, fun a rest hr => ?_⟩
    cases hr
    exact ⟨List.suffix_cons l ts, Nat.le_refl _⟩

section select

variable {select : Token → Option α} {f f' : Option (α × Nat) → Parse β}

theorem require {what : Expected} :
    Advance 1 (require select what) (Parse.require select what) ts := by
  refine next.bind fun l rest _ => ?_
  split
  · exact pure
  · exact fail

theorem take?_bind (hd : d ≤ 1) (hnone : Advance d (f none) (f' none) ts)
    (hsome : ∀ a line rest, rest.length < ts.length →
      Advance 0 (f (some (a, line))) (f' (some (a, line))) rest) :
    Advance d (take? select >>= f) (take? select >>= f') ts := by
  cases ts with
  | nil => exact ⟨hnone.same, hnone.takes⟩
  | cons l ts =>
    cases hl : select l.token with
    | none =>
      have run : take? select (l :: ts) = .ok (none, l :: ts) := by rw [take?_cons, hl]
      exact of_runs (bind_run run) (bind_run run) (List.suffix_refl _) (Nat.le_refl _) hnone
    | some a =>
      have run : take? select (l :: ts) = .ok (some (a, l.line), ts) := by rw [take?_cons, hl]
      have h := hsome a l.line ts (Nat.lt_succ_self _)
      refine of_runs (bind_run run) (bind_run run) (List.suffix_cons l ts) ?_ h
      rw [List.length_cons]
      omega

end select

section token

variable {token : Token} {f f' : Bool → Parse β}

theorem accept_bind (hd : d ≤ 1) (hno : Advance d (f false) (f' false) ts)
    (hyes : ∀ rest, rest.length < ts.length → Advance 0 (f true) (f' true) rest) :
    Advance d (accept token >>= f) (accept token >>= f') ts := by
  have heq (f : Bool → Parse β) : (accept token >>= f) = take? (only token) >>= fun r => f r.isSome := by
    rw [accept, bind_assoc]
    simp only [pure_bind]
  rw [heq, heq]
  exact take?_bind hd hno fun _ _ rest h => hyes rest h

theorem accept : Advance 0 (accept token) (Parse.accept token) ts := by
  have h : Advance 0 (Parse.accept token >>= Pure.pure) (Parse.accept token >>= Pure.pure) ts :=
    accept_bind (Nat.zero_le 1) pure fun _ _ => pure
  rwa [bind_pure] at h

theorem expect {what : Expected} :
    Advance 1 (expect token what) (Parse.expect token what) ts := require.map

end token

theorem identifier : Advance 1 identifier Parse.identifier ts := require.map

theorem separator {closing : Symbol} : Advance 1 (separator closing) (Parse.separator closing) ts := by
  refine next.bind fun l rest _ => ?_
  split
  · exact pure
  · split
    · exact pure
    · exact fail

theorem limit {count line : Nat} {cause : SyntaxError.Cause} :
    Advance 0 (limit count cause line) (Parse.limit count cause line) ts := by
  unfold Parse.limit
  split
  · exact fail
  · exact pure

theorem get : Advance 0 (get : Parse (List Lexeme)) (MonadState.get) ts := stays rfl rfl

theorem sees {token : Token} : Advance 0 (sees token) (Parse.sees token) ts := stays rfl rfl

theorem atEnd : Advance 0 atEnd Parse.atEnd ts := stays rfl rfl

theorem skipSemicolons : Advance 0 skipSemicolons Parse.skipSemicolons ts := by
  refine ⟨rfl, fun a rest hr => ?_⟩
  cases hr
  exact ⟨List.dropWhile_suffix _, (List.dropWhile_suffix _).length_le⟩

theorem after {token : Token} (hp : ∀ rest, rest.length < ts.length → Advance 0 p p' rest) :
    Advance 0 (after token p) (Parse.after token p') ts :=
  accept_bind (Nat.zero_le 1) pure fun rest h => (hp rest h).fmap

end Advance

section recursion

variable {σ : Type} {α : σ → Type} {d : Nat}

abbrev Family (α : σ → Type) := (s : σ) → Parse (α s)

abbrev alone {β : Type} (round : Parse β → Parse β) (again : Family fun _ : Unit => β) :
    Family fun _ : Unit => β := fun _ => round (again ())

/-- One call of `round` goes on only with fewer lexemes than it gets. -/
def Contracts (d : Nat) (round round' : Family α → Family α) (k : Nat) : Prop :=
  ∀ (again again' : Family α) (s : σ) (ts : List Lexeme), ts.length < k →
    (∀ (s : σ) (rest : List Lexeme), rest.length < ts.length → Advance d (again s) (again' s) rest) →
      Advance d (round again s) (round' again' s) ts

/-- The recursion has `result` as its solution. Cut off after `n` calls within calls, with anything in
place of the last one, it gives the same on fewer than `n` lexemes. Errors are not caught, so that last
one is never called. -/
structure Terminates (round : Family α → Family α) (result : Family α) : Prop where
  solves : round result = result
  cut : ∀ (last : Family α) (n : Nat) (s : σ) (ts : List Lexeme), ts.length < n →
    (round^[n] last) s ts = result s ts

theorem Terminates.unique {round : Family α → Family α} {result again : Family α}
    (h : Terminates round result) (hagain : round again = again) : again = result := by
  funext s ts
  have hn := h.cut again (ts.length + 1) s ts (Nat.lt_succ_self _)
  rwa [Function.iterate_fixed hagain] at hn

variable {round round' : Family α → Family α} (loop loop' : Nat → Family α)

theorem Contracts.repeated {k : Nat} (h : Contracts d round round' k)
    (hsucc : ∀ n, loop (n + 1) = round (loop n)) (hsucc' : ∀ n, loop' (n + 1) = round' (loop' n))
    (hzero : ∀ s ts, Advance d (loop 0 s) (loop' 0 s) ts) (n : Nat) (s : σ) (ts : List Lexeme)
    (hts : ts.length < k) : Advance d (loop n s) (loop' n s) ts := by
  induction n generalizing s ts with
  | zero => exact hzero s ts
  | succ n ih =>
    rw [hsucc, hsucc']
    exact h _ _ s ts hts fun s rest hrest => ih s rest (by omega)

theorem Contracts.iterate (h : ∀ k, Contracts d round round k) {last last' : Family α} {n m : Nat}
    {s : σ} {ts : List Lexeme} (hn : ts.length < n) (hm : ts.length < m) :
    Advance d ((round^[n] last) s) ((round^[m] last') s) ts := by
  induction n generalizing m s ts with
  | zero => omega
  | succ n ih =>
    obtain ⟨m, rfl⟩ : ∃ j, m = j + 1 := ⟨m - 1, by omega⟩
    rw [Function.iterate_succ_apply', Function.iterate_succ_apply']
    exact h _ _ _ s ts (Nat.lt_succ_self _) fun s rest hrest => ih (by omega) (by omega)

theorem Contracts.terminates (h : ∀ k, Contracts d round round k)
    (hsucc : ∀ n, loop (n + 1) = round (loop n))
    (hend : ∀ s, loop 0 s [] = round (loop 0) s []) :
    Terminates round fun s => bounded fun n => loop n s := by
  have hloop (n : Nat) : loop n = round^[n] (loop 0) := by
    induction n with
    | zero => rfl
    | succ n ih => rw [hsucc, ih, Function.iterate_succ_apply']
  -- Once more than the loop itself: by then nothing is left.
  have hmore (n : Nat) (s : σ) (ts : List Lexeme) (hn : ts.length ≤ n) :
      Advance d (loop n s) (loop (n + 1) s) ts := by
    induction n generalizing s ts with
    | zero =>
      obtain rfl := List.length_eq_zero_iff.mp (Nat.le_zero.mp hn)
      have hround := h 1 (loop 0) (loop 0) s [] Nat.zero_lt_one fun _ _ hlt => nomatch hlt
      refine ⟨?_, ?_⟩
      · rw [hsucc, hend]
      · rw [hend]
        exact hround.takes
    | succ n ih =>
      rw [hsucc n, hsucc (n + 1)]
      exact h _ _ _ s ts (Nat.lt_succ_self _) fun s rest hrest => ih s rest (by omega)
  have hcut (last : Family α) (n : Nat) (s : σ) (ts : List Lexeme) (hn : ts.length < n) :
      Advance d ((round^[n] last) s) (bounded fun n => loop n s) ts := by
    have hiterate : Advance d ((round^[n] last) s) ((round^[ts.length + 1] (loop 0)) s) ts :=
      Contracts.iterate h hn (Nat.lt_succ_self _)
    refine ⟨?_, hiterate.takes⟩
    rw [hiterate.same, ← hloop, ← (hmore ts.length s ts (Nat.le_refl _)).same]
    rfl
  refine ⟨?_, fun last n s ts hn => (hcut last n s ts hn).same⟩
  funext s ts
  have hround := h _ (round^[ts.length] (loop 0)) _ s ts (Nat.lt_succ_self _)
    fun s rest hrest => hcut (loop 0) ts.length s rest hrest
  rw [← hround.same, ← Function.iterate_succ_apply' round]
  exact (hcut (loop 0) _ s ts (Nat.lt_succ_self _)).same

end recursion

end Scriptlet.Parse
