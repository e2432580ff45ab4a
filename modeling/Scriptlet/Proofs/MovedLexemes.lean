import Scriptlet.Proofs.ParseContinuation

namespace Scriptlet

def Lexeme.moved (f : Nat → Nat) (l : Lexeme) : Lexeme := ⟨l.token, f l.line⟩

def SyntaxError.moved (f : Nat → Nat) (e : SyntaxError) : SyntaxError := ⟨e.cause, f e.line⟩

namespace Parse

def Outcome.moved {α β : Type} (f : Nat → Nat) (g : α → β) : Outcome α → Outcome β
  | .ok (a, rest) => .ok (g a, rest.map (Lexeme.moved f))
  | .error e => .error (if e.cause = .endOfInput then e else e.moved f)

/-- On moved lexemes `q` gives what `p` gives, moved by `f` and `g`. -/
def Carries {α β : Type} (f : Nat → Nat) (g : α → β) (p : Parse α) (q : Parse β) : Prop :=
  ∀ ts, q (ts.map (Lexeme.moved f)) = Outcome.moved f g (p ts)

namespace Carries

variable {α β γ δ : Type} {f : Nat → Nat} {g : α → β} {g' : γ → δ} {p : Parse α} {q : Parse β}

theorem pure {a : α} {b : β} (h : g a = b) : Carries f g (pure a) (pure b) := by
  subst h
  exact fun _ => rfl

theorem starved : Carries f g (throw endOfInput : Parse α) (throw endOfInput : Parse β) :=
  fun _ => rfl

theorem fail {cause : SyntaxError.Cause} {line : Nat} (h : cause ≠ .endOfInput) :
    Carries f g (fail cause line : Parse α) (Parse.fail cause (f line) : Parse β) := by
  intro ts
  rw [fail_run, fail_run, Outcome.moved, if_neg h]
  rfl

theorem bind {k : α → Parse γ} {k' : β → Parse δ} (hp : Carries f g p q)
    (hk : ∀ a, Carries f g' (k a) (k' (g a))) : Carries f g' (p >>= k) (q >>= k') := by
  intro ts
  have hts := hp ts
  cases h : p ts with
  | error e =>
    rw [h] at hts
    rw [bind_error h, bind_error hts]
    rfl
  | ok r =>
    rw [h] at hts
    rw [bind_run h, bind_run hts]
    exact hk r.1 r.2

theorem map {k : α → γ} {k' : β → δ} (hp : Carries f g p q) (h : ∀ a, g' (k a) = k' (g a)) :
    Carries f g' (p >>= fun a => Pure.pure (k a)) (q >>= fun b => Pure.pure (k' b)) :=
  hp.bind fun a => pure (h a)

theorem fmap {k : α → γ} {k' : β → δ} (hp : Carries f g p q) (h : ∀ a, g' (k a) = k' (g a)) :
    Carries f g' (k <$> p) (k' <$> q) := hp.map h

theorem bounded {loop : Nat → Parse α} {loop' : Nat → Parse β}
    (h : ∀ n, Carries f g (loop n) (loop' n)) : Carries f g (bounded loop) (bounded loop') := by
  intro ts
  rw [bounded_run, bounded_run, List.length_map]
  exact h _ ts

theorem next : Carries f (Lexeme.moved f) next next := by
  intro ts
  cases ts with
  | nil => rfl
  | cons l ts => rfl

theorem take? (select : Token → Option α) :
    Carries f (Option.map (Prod.map id f)) (take? select) (Parse.take? select) := by
  intro ts
  cases ts with
  | nil => rfl
  | cons l ts =>
    rw [List.map_cons, take?_cons, take?_cons, Lexeme.moved]
    cases select l.token <;> rfl

theorem take?_bind {select : Token → Option α} {k : Option (α × Nat) → Parse γ}
    {k' : Option (α × Nat) → Parse δ} (hnone : Carries f g' (k none) (k' none))
    (hsome : ∀ a line, Carries f g' (k (some (a, line))) (k' (some (a, f line)))) :
    Carries f g' (Parse.take? select >>= k) (Parse.take? select >>= k') := by
  refine (take? select).bind fun r => ?_
  obtain _ | ⟨a, line⟩ := r
  · exact hnone
  · exact hsome a line

theorem require {select : Token → Option α} {what : Expected} :
    Carries f (Prod.map id f) (require select what) (Parse.require select what) := by
  refine next.bind fun l => ?_
  rw [Lexeme.moved]
  cases select l.token with
  | none => exact fail (by simp)
  | some a => exact pure rfl

theorem accept {token : Token} : Carries f id (accept token) (Parse.accept token) :=
  (take? _).map fun _ => (Option.isSome_map ..).symm

theorem expect {token : Token} {what : Expected} :
    Carries f f (expect token what) (Parse.expect token what) := require.map fun _ => rfl

theorem identifier : Carries f id identifier Parse.identifier := require.map fun _ => rfl

theorem separator {closing : Symbol} :
    Carries f id (separator closing) (Parse.separator closing) := by
  refine next.bind fun l => ?_
  rw [Lexeme.moved]
  by_cases hcomma : l.token = .symbol .comma
  · rw [if_pos hcomma, if_pos hcomma]
    exact pure rfl
  rw [if_neg hcomma, if_neg hcomma]
  by_cases hclosing : l.token = .symbol closing
  · rw [if_pos hclosing, if_pos hclosing]
    exact pure rfl
  · rw [if_neg hclosing, if_neg hclosing]
    exact fail (by simp)

theorem sees {token : Token} : Carries f id (sees token) (Parse.sees token) := by
  intro ts
  cases ts with
  | nil => rfl
  | cons l ts => rfl

theorem atEnd : Carries f id atEnd Parse.atEnd := by
  intro ts
  cases ts with
  | nil => rfl
  | cons l ts => rfl

theorem skipSemicolons : Carries f id skipSemicolons Parse.skipSemicolons := by
  intro ts
  change Except.ok ((), (ts.map (Lexeme.moved f)).dropWhile _) = Except.ok ((), _)
  rw [List.dropWhile_map]
  rfl

theorem limit {count line : Nat} {cause : SyntaxError.Cause} (h : cause ≠ .endOfInput) :
    Carries f id (limit count cause line) (Parse.limit count cause (f line)) := by
  by_cases hcount : maxArguments < count
  · rw [Parse.limit, Parse.limit, if_pos hcount, if_pos hcount]
    exact fail h
  · rw [Parse.limit, Parse.limit, if_neg hcount, if_neg hcount]
    exact pure rfl

theorem after {token : Token} (hp : Carries f g p q) :
    Carries f (Option.map g) (after token p) (Parse.after token q) := by
  refine accept.bind fun found => ?_
  cases found with
  | false => exact pure rfl
  | true => exact hp.fmap fun _ => rfl

theorem optionalSemicolon {a : α} {b : β} (h : g a = b) :
    Carries f g (Parse.accept (.symbol .semicolon) >>= fun _ => Pure.pure a)
      (Parse.accept (.symbol .semicolon) >>= fun _ => Pure.pure b) :=
  accept.map fun _ => h

end Carries
end Parse
end Scriptlet
