import Scriptlet.Grammar.Parse

namespace Scriptlet.Parse

variable {α β : Type} {ts rest : List Lexeme}

theorem bind_ok {p : Parse α} {f : α → Parse β} {b : β} :
    (p >>= f) ts = .ok (b, rest) ↔ ∃ a mid, p ts = .ok (a, mid) ∧ f a mid = .ok (b, rest) := by
  change (p ts >>= fun r => f r.1 r.2) = .ok (b, rest) ↔ _
  cases h : p ts with
  | error e => simp [bind, Except.bind]
  | ok r =>
    constructor
    · intro hf
      exact ⟨r.1, r.2, rfl, hf⟩
    · rintro ⟨a, mid, he, hf⟩
      obtain rfl := Except.ok.inj he
      exact hf

theorem bind_run {p : Parse α} {f : α → Parse β} {a : α} (h : p ts = .ok (a, rest)) :
    (p >>= f) ts = f a rest := by
  change (p ts >>= fun r => f r.1 r.2) = _
  rw [h]
  rfl

theorem bind_error {p : Parse α} {f : α → Parse β} {e : SyntaxError} (h : p ts = .error e) :
    (p >>= f) ts = .error e := by
  change (p ts >>= fun r => f r.1 r.2) = _
  rw [h]
  rfl

@[simp] theorem pure_run (a : α) : (pure a : Parse α) ts = .ok (a, ts) := rfl

@[simp] theorem fail_run (cause : SyntaxError.Cause) (line : Nat) :
    (fail cause line : Parse α) ts = .error ⟨cause, line⟩ := rfl

@[simp] theorem throw_run (e : SyntaxError) : (throw e : Parse α) ts = .error e := rfl

@[simp] theorem bounded_run (loop : Nat → Parse α) : bounded loop ts = loop ts.length ts := rfl

theorem take?_cons {select : Token → Option α} (l : Lexeme) :
    take? select (l :: ts) = match select l.token with
      | some a => .ok (some (a, l.line), ts)
      | none => .ok (none, l :: ts) := rfl

theorem take?_none {select : Token → Option α} (h : take? select ts = .ok (none, rest)) :
    ts = rest := by
  cases ts with
  | nil => exact (Prod.ext_iff.mp (Except.ok.inj h)).2
  | cons l ts =>
    rw [take?_cons] at h
    split at h
    · cases h
    · exact (Prod.ext_iff.mp (Except.ok.inj h)).2

theorem take?_some {select : Token → Option α} {a : α} {line : Nat}
    (h : take? select ts = .ok (some (a, line), rest)) :
    ∃ t, select t = some a ∧ ts = ⟨t, line⟩ :: rest := by
  cases ts with
  | nil => cases h
  | cons l ts =>
    rw [take?_cons] at h
    split at h
    · next hs =>
      cases h
      exact ⟨l.token, hs, rfl⟩
    · cases h

theorem require_cons {select : Token → Option α} {what : Expected} (l : Lexeme) :
    require select what (l :: ts) = match select l.token with
      | some a => .ok ((a, l.line), ts)
      | none => .error ⟨.expected what l.token, l.line⟩ := by
  change (match select l.token with
    | some a => pure (a, l.line)
    | none => fail (.expected what l.token) l.line : Parse (α × Nat)) ts = _
  cases select l.token <;> rfl

theorem separator_cons {closing : Symbol} (l : Lexeme) :
    separator closing (l :: ts) =
      if l.token = .symbol .comma then .ok (true, ts)
      else if l.token = .symbol closing then .ok (false, ts)
      else .error ⟨.noSeparator closing l.token, l.line⟩ := by
  change (if l.token = .symbol .comma then pure true
    else if l.token = .symbol closing then pure false
    else fail (.noSeparator closing l.token) l.line : Parse Bool) ts = _
  split
  · rfl
  · split <;> rfl

theorem only_eq_some {token t : Token} {u : Unit} : only token t = some u ↔ t = token := by
  simp [only]

theorem nameOf_eq_some {t : Token} {s : String} : nameOf t = some s ↔ t = .name s := by
  cases t <;> simp [nameOf]

theorem ofSymbol_eq_some {select : Symbol → Option α} {t : Token} {a : α} :
    ofSymbol select t = some a ↔ ∃ s, t = .symbol s ∧ select s = some a := by
  cases t <;> simp [ofSymbol]

theorem accept_cons {token : Token} {line : Nat} :
    accept token (⟨token, line⟩ :: ts) = .ok (true, ts) := by
  have h : take? (only token) (⟨token, line⟩ :: ts) = .ok (some ((), line), ts) := by
    simp [take?_cons, only]
  exact bind_run h

theorem accept_cons_ne {token : Token} {l : Lexeme} (hl : l.token ≠ token) :
    accept token (l :: ts) = .ok (false, l :: ts) := by
  have h : take? (only token) (l :: ts) = .ok (none, l :: ts) := by
    simp [take?_cons, only, hl]
  exact bind_run h

theorem expect_cons {token : Token} {what : Expected} {line : Nat} :
    expect token what (⟨token, line⟩ :: ts) = .ok (line, ts) := by
  have h : require (only token) what (⟨token, line⟩ :: ts) = .ok (((), line), ts) := by
    simp [require_cons, only]
  exact bind_run h

theorem separator_comma {closing : Symbol} {line : Nat} :
    separator closing (⟨.symbol .comma, line⟩ :: ts) = .ok (true, ts) := rfl

theorem separator_closing {closing : Symbol} {line : Nat} (h : closing ≠ .comma) :
    separator closing (⟨.symbol closing, line⟩ :: ts) = .ok (false, ts) := by
  simp [separator_cons, h]

theorem limit_run {count line : Nat} {cause : SyntaxError.Cause} (h : count ≤ maxArguments) :
    limit count cause line ts = .ok ((), ts) := by
  rw [limit, if_neg (Nat.not_lt.mpr h)]
  rfl

def Takes (T : Lexeme → Prop) (p : Parse α) (Q : List Lexeme → α → Prop) : Prop :=
  ∀ ⦃ts a rest⦄, (∀ l ∈ ts, T l) → p ts = .ok (a, rest) → ∃ used, ts = used ++ rest ∧ Q used a

namespace Takes

variable {T : Lexeme → Prop} {p : Parse α} {Q : List Lexeme → α → Prop}

theorem mono {R : List Lexeme → α → Prop} (hp : p.Takes T Q) (h : ∀ us a, Q us a → R us a) :
    p.Takes T R := by
  intro ts a rest ht hr
  obtain ⟨us, rfl, hq⟩ := hp ht hr
  exact ⟨us, rfl, h us a hq⟩

theorem pure {a : α} (h : Q [] a) : (pure a : Parse α).Takes T Q := by
  intro ts b rest _ hr
  obtain ⟨rfl, rfl⟩ := Prod.ext_iff.mp (Except.ok.inj hr)
  exact ⟨[], rfl, h⟩

theorem fail {cause : SyntaxError.Cause} {line : Nat} : (fail cause line : Parse α).Takes T Q :=
  fun _ _ _ _ hr => nomatch hr

theorem throw {e : SyntaxError} : (throw e : Parse α).Takes T Q := fun _ _ _ _ hr => nomatch hr

theorem bind {f : α → Parse β} {R : List Lexeme → β → Prop} (hp : p.Takes T Q)
    (hf : ∀ us a, Q us a → (f a).Takes T fun vs b => R (us ++ vs) b) : (p >>= f).Takes T R := by
  intro ts b rest ht hr
  obtain ⟨a, mid, ha, hb⟩ := bind_ok.mp hr
  obtain ⟨us, rfl, hq⟩ := hp ht ha
  obtain ⟨vs, rfl, hv⟩ := hf us a hq (fun l hl => ht l (List.mem_append_right us hl)) hb
  exact ⟨us ++ vs, (List.append_assoc ..).symm, hv⟩

theorem map {f : α → β} {R : List Lexeme → β → Prop} (hp : p.Takes T Q)
    (h : ∀ us a, Q us a → R us (f a)) : (p >>= fun a => Pure.pure (f a)).Takes T R := by
  refine hp.bind fun us a hq => pure ?_
  rw [List.append_nil]
  exact h us a hq

theorem bounded {loop : Nat → Parse α} (h : ∀ n, (loop n).Takes T Q) :
    (bounded loop).Takes T Q := fun _ _ _ ht hr => h _ ht hr

theorem next : next.Takes T fun us l => us = [l] ∧ T l := by
  intro ts l rest ht hr
  cases ts with
  | nil => cases hr
  | cons t ts =>
    obtain ⟨rfl, rfl⟩ := Prod.ext_iff.mp (Except.ok.inj hr)
    exact ⟨[t], rfl, rfl, ht t List.mem_cons_self⟩

theorem take? {select : Token → Option α} :
    (take? select).Takes T fun us r => (r = none ∧ us = []) ∨
      ∃ a t line, r = some (a, line) ∧ select t = some a ∧ us = [⟨t, line⟩] ∧ T ⟨t, line⟩ := by
  intro ts r rest ht hr
  obtain _ | ⟨a, line⟩ := r
  · obtain rfl := take?_none hr
    exact ⟨[], rfl, .inl ⟨rfl, rfl⟩⟩
  · obtain ⟨t, hs, rfl⟩ := take?_some hr
    exact ⟨[⟨t, line⟩], rfl, .inr ⟨a, t, line, rfl, hs, rfl, ht _ List.mem_cons_self⟩⟩

theorem accept {token : Token} :
    (accept token).Takes T fun us b =>
      (b = false ∧ us = []) ∨ ∃ line, b = true ∧ us = [⟨token, line⟩] := by
  refine take?.bind ?_
  rintro us r (⟨rfl, rfl⟩ | ⟨_, t, line, rfl, ht, rfl, -⟩)
  · exact pure (.inl ⟨rfl, rfl⟩)
  · obtain rfl := only_eq_some.mp ht
    exact pure (.inr ⟨line, rfl, rfl⟩)

theorem require {select : Token → Option α} {what : Expected} :
    (require select what).Takes T fun us r =>
      ∃ t, select t = some r.1 ∧ us = [⟨t, r.2⟩] ∧ T ⟨t, r.2⟩ := by
  intro ts r rest ht hr
  cases ts with
  | nil => cases hr
  | cons l ts =>
    rw [require_cons] at hr
    split at hr
    · next a ha =>
      obtain ⟨rfl, rfl⟩ := Prod.ext_iff.mp (Except.ok.inj hr)
      exact ⟨[l], rfl, l.token, ha, rfl, ht l List.mem_cons_self⟩
    · cases hr

theorem expect {token : Token} {what : Expected} :
    (expect token what).Takes T fun us line => us = [⟨token, line⟩] := by
  refine require.bind ?_
  rintro us r ⟨t, ht, rfl, -⟩
  obtain rfl := only_eq_some.mp ht
  exact pure rfl

theorem identifier : identifier.Takes T fun us s => ∃ line, us = [⟨.name s, line⟩] := by
  refine require.bind ?_
  rintro us r ⟨t, ht, rfl, -⟩
  obtain rfl := nameOf_eq_some.mp ht
  exact pure ⟨r.2, rfl⟩

theorem separator {closing : Symbol} :
    (separator closing).Takes T fun us b => ∃ line, (b = true ∧ us = [⟨.symbol .comma, line⟩]) ∨
      (b = false ∧ us = [⟨.symbol closing, line⟩]) := by
  refine next.bind ?_
  rintro us ⟨t, line⟩ ⟨rfl, -⟩
  dsimp only
  split
  · next hc => exact pure ⟨line, .inl ⟨rfl, by rw [hc]; rfl⟩⟩
  · split
    · next hc => exact pure ⟨line, .inr ⟨rfl, by rw [hc]; rfl⟩⟩
    · exact fail

theorem get : (get : Parse (List Lexeme)).Takes T fun us _ => us = [] := by
  intro ts a rest _ hr
  obtain ⟨-, rfl⟩ := Prod.ext_iff.mp (Except.ok.inj hr)
  exact ⟨[], rfl, rfl⟩

theorem sees {token : Token} : (sees token).Takes T fun us _ => us = [] := by
  intro ts b rest _ hr
  obtain ⟨-, rfl⟩ := Prod.ext_iff.mp (Except.ok.inj hr)
  exact ⟨[], rfl, rfl⟩

theorem atEnd : atEnd.Takes T fun us _ => us = [] := by
  intro ts b rest _ hr
  obtain ⟨-, rfl⟩ := Prod.ext_iff.mp (Except.ok.inj hr)
  exact ⟨[], rfl, rfl⟩

theorem skipSemicolons :
    skipSemicolons.Takes T fun us _ => ∀ l ∈ us, l.token = .symbol .semicolon := by
  intro ts u rest _ hr
  obtain ⟨-, rfl⟩ := Prod.ext_iff.mp (Except.ok.inj hr)
  refine ⟨ts.takeWhile (·.token = .symbol .semicolon), List.takeWhile_append_dropWhile.symm, ?_⟩
  intro l hl
  exact of_decide_eq_true (List.all_eq_true.mp List.all_takeWhile l hl)

theorem fmap {f : α → β} {R : List Lexeme → β → Prop} (hp : p.Takes T Q)
    (h : ∀ us a, Q us a → R us (f a)) : (f <$> p).Takes T R := hp.map h

theorem after {token : Token} (hp : p.Takes T Q) :
    (after token p).Takes T fun us r => (r = none ∧ us = []) ∨
      ∃ a line vs, r = some a ∧ us = ⟨token, line⟩ :: vs ∧ Q vs a := by
  refine accept.bind ?_
  rintro us b (⟨rfl, rfl⟩ | ⟨line, rfl, rfl⟩)
  · exact pure (.inl ⟨rfl, rfl⟩)
  · exact hp.fmap fun vs a hq => .inr ⟨a, line, vs, rfl, rfl, hq⟩

theorem limit {count line : Nat} {cause : SyntaxError.Cause} :
    (limit count cause line).Takes T fun us _ => us = [] ∧ count ≤ maxArguments := by
  unfold Parse.limit
  split
  · exact fail
  · next hc => exact pure ⟨rfl, Nat.le_of_not_lt hc⟩

end Takes
end Scriptlet.Parse
