import Scriptlet.Proofs.ExpressionReading
import Scriptlet.Proofs.GrammarContinuation

namespace Scriptlet

namespace Grammar

open Parse

variable {inner inner' : Inner} {e left : Expr} {ts rest : List Lexeme} {n : Nat}

theorem primary_opens (h : primary inner ts = .ok (e, rest)) : Opens .primary ts := by
  obtain _ | ⟨⟨t, line⟩, us⟩ := ts
  · cases h
  by_cases ht : t.opens? = some .primary
  · exact ⟨_, us, .primary, rfl, ht, Nat.le_refl _⟩
  · exfalso
    cases t with
    | integer | real | text | boolean | name => exact ht rfl
    | keyword k => cases k <;> first | exact ht rfl | cases h
    | symbol s => cases s <;> first | exact ht rfl | cases h

def accessOf (inner : Inner) (e : Expr) : Access → Nat → Parse Expr
  | .arguments, line => do
    let arguments ← slots inner .rightParen
    limit arguments.length .tooManyArguments line
    return .call e arguments line
  | .name, line => return .read e (.named (← identifier)) line
  | .key, line => do
    let key ← inner .expression
    let _ ← expect (.symbol .rightBracket) .endOfIndex
    return .read e (.computed key) line

def accessRound (inner : Inner) (again : Expr → Parse Expr) (e : Expr) : Parse Expr := do
  match ← take? access? with
  | none => return e
  | some (access, line) => again (← accessOf inner e access line)

theorem accessFrom_succ : accessFrom inner (n + 1) = accessRound inner (accessFrom inner n) := by
  funext e
  rw [accessFrom, accessRound]
  congr 1
  funext access
  obtain _ | ⟨_ | _ | _, line⟩ := access <;> simp [accessOf, bind_assoc]

theorem accessOf_continues {q : List Lexeme} (hi : InnerContinues q inner inner') (access : Access)
    (line : Nat) (ts : List Lexeme) :
    Continues q .taken 0 (accessOf inner e access line) (accessOf inner' e access line) ts := by
  cases access with
  | arguments =>
    exact (slots_continues hi _ ts).bind fun _ _ _ => Continues.limit.bind fun _ _ _ => .pure _
  | name => exact Continues.identifier.map
  | key =>
    exact (hi.expression ts).bind_starved (fun _ => rfl) fun _ _ _ =>
      Continues.expect.bind fun _ _ _ => .pure _

theorem accessFrom_stops {q : List Lexeme} {m : Nat} (hi : InnerContinues q inner inner')
    (hq : Closes .call q) (hm : n ≤ m) (h : accessFrom inner n left ts = .ok (e, [])) :
    accessFrom inner' m left (ts ++ q) = .ok (e, q) := by
  have hstop (k : Nat) (left : Expr) : accessFrom inner' k left q = .ok (left, q) := restParser_stop hq
  induction n generalizing m left ts with
  | zero =>
    cases h
    exact hstop m e
  | succ n ih =>
    obtain ⟨m, rfl⟩ := Nat.exists_eq_add_of_le' hm
    rw [accessFrom_succ] at h
    obtain ⟨_ | ⟨access, line⟩, mid, htake, hrest⟩ := bind_ok.mp h
    · obtain rfl := take?_none htake
      cases hrest
      exact hstop _ e
    · obtain ⟨t, ht, rfl⟩ := take?_some htake
      obtain ⟨next, after, hnext, hafter⟩ := bind_ok.mp hrest
      have htake' : take? access? (⟨t, line⟩ :: mid ++ q) = .ok (some (access, line), mid ++ q) := by
        rw [List.cons_append, take?_cons, ht]
      have hnext' := (accessOf_continues hi access line mid).taken_run hnext
      rw [Nat.add_succ, accessFrom_succ, accessRound, bind_run htake']
      exact (bind_run hnext').trans (ih (Nat.le_add_left n m) hafter)

theorem call_reads (h : call (nested n) ts = .ok (e, [])) (hn : n ≤ ts.length) :
    Opens .call ts ∧ Reads ts (.expr .call e) := by
  obtain ⟨left, mid, hleft, hrest⟩ := bind_ok.mp h
  refine ⟨(primary_opens hleft).loosen (by decide), fun m q hq hm => ?_⟩
  have hi := nested_continues q n m (by omega)
  have hprimary := (primary_continues hi ts).taken_run hleft
  change (primary (nested m) >>= _) _ = _
  rw [bind_run hprimary]
  exact accessFrom_stops hi hq (by rw [List.length_append]; omega) hrest

section chains

variable {op : Type} {operand : Parse Expr} {select : Symbol → Option op}
  {join : op → Expr → Expr → Nat → Expr}

theorem chainFrom_place (hj : ∀ o a b line, (join o a b line).place? = none) (hp : e.place?.isSome)
    (h : chainFrom operand select join n left ts = .ok (e, rest)) : left = e ∧ ts = rest := by
  induction n generalizing left ts with
  | zero => exact Prod.ext_iff.mp (Except.ok.inj h)
  | succ n ih =>
    obtain ⟨_ | ⟨o, line⟩, mid, htake, hrest⟩ := bind_ok.mp h
    · obtain rfl := take?_none htake
      exact Prod.ext_iff.mp (Except.ok.inj hrest)
    · obtain ⟨right, after, -, hafter⟩ := bind_ok.mp hrest
      obtain ⟨rfl, -⟩ := ih hafter
      rw [hj] at hp
      cases hp

end chains

theorem restParser_place {level : Level} (hl : level ≠ .call) (hp : e.place?.isSome)
    (h : restParser inner level n left ts = .ok (e, rest)) : left = e ∧ ts = rest := by
  cases level with
  | logicalOr | logicalAnd | bitOr | bitXor | bitAnd | equality | relational | shift | additive
  | multiplicative => exact chainFrom_place (fun _ _ _ _ => rfl) hp h
  | call => exact absurd rfl hl
  | assignment | exponent | unary | trailing | creation | primary =>
    exact Prod.ext_iff.mp (Except.ok.inj h)

section operators

variable {α : Type} {select : Token → Option α}

theorem opening_place {f : Option (α × Nat) → Parse Expr} (hp : e.place?.isSome)
    (hsome : ∀ a mid, f (some a) mid = .ok (e, rest) → e.place? = none)
    (h : (take? select >>= f) ts = .ok (e, rest)) : f none ts = .ok (e, rest) := by
  obtain ⟨_ | a, mid, htake, hrest⟩ := bind_ok.mp h
  · obtain rfl := take?_none htake
    exact hrest
  · rw [hsome a mid hrest] at hp
    cases hp

theorem following_place {operand : Parse Expr} {f : Expr → Option (α × Nat) → Parse Expr}
    (hp : e.place?.isSome) (hnone : ∀ left, f left none = pure left)
    (hsome : ∀ left a mid, f left (some a) mid = .ok (e, rest) → e.place? = none)
    (h : (operand >>= fun left => take? select >>= f left) ts = .ok (e, rest)) :
    operand ts = .ok (e, rest) := by
  obtain ⟨left, mid, hleft, hrest⟩ := bind_ok.mp h
  have hstop := opening_place hp (hsome left) hrest
  rw [hnone] at hstop
  cases hstop
  exact hleft

end operators

theorem levelParser_place {level : Level} (hl : level.rank < Level.call.rank) (hp : e.place?.isSome)
    (h : levelParser inner level ts = .ok (e, rest)) :
    levelParser inner level.tighter ts = .ok (e, rest) := by
  have made {α : Type} {p : Parse α} {f : α → Expr} {mid : List Lexeme}
      (hf : ∀ a, (f a).place? = none) (hmade : (p >>= fun a => pure (f a)) mid = .ok (e, rest)) :
      e.place? = none := by
    obtain ⟨a, after, -, hlast⟩ := bind_ok.mp hmade
    cases hlast
    exact hf a
  cases hr : level.repeats with
  | true =>
    rw [levelParser_repeats hr] at h
    obtain ⟨left, mid, hleft, hrest⟩ := bind_ok.mp h
    obtain ⟨rfl, rfl⟩ := restParser_place (by rintro rfl; exact absurd hl (by decide)) hp hrest
    exact hleft
  | false =>
    cases level with
    | assignment =>
      refine following_place hp (fun _ => rfl) (fun left a mid hsome => ?_) h
      dsimp only at hsome
      cases hplace : left.place? with
      | none =>
        rw [hplace] at hsome
        cases hsome
      | some place =>
        rw [hplace] at hsome
        exact made (fun _ => by cases place <;> rfl) hsome
    | exponent => exact following_place hp (fun _ => rfl) (fun _ _ _ => made fun _ => rfl) h
    | unary => exact opening_place hp (fun _ _ => made fun _ => rfl) h
    | trailing =>
      refine following_place hp (fun _ => rfl) (fun left a mid hsome => ?_) h
      cases hsome
      rfl
    | creation => exact opening_place hp (fun _ _ => made fun _ => rfl) h
    | call | primary => exact absurd hl (by decide)
    | _ => cases hr

theorem levelParser_target {level : Level} (hl : level.rank ≤ Level.call.rank) (hp : e.place?.isSome)
    (h : levelParser inner level ts = .ok (e, rest)) : call inner ts = .ok (e, rest) := by
  generalize hd : Level.call.rank - level.rank = d
  induction d generalizing level with
  | zero =>
    obtain rfl : level = .call := Level.rank_inj (by omega)
    exact h
  | succ d ih =>
    have hlt : level.rank < Level.call.rank := by omega
    have hnext := Level.rank_tighter_of_lt hlt
    exact ih (by omega) (levelParser_place hlt hp h) (by omega)

theorem target_reads {used : List Lexeme} {target : Expr} (hp : target.place?.isSome)
    (h : phrase .expression used = .ok (target, [])) :
    Opens .call used ∧ Reads used (.expr .call target) := by
  have hassignment : levelParser (nested used.length) .assignment used = .ok (target, []) := h
  exact call_reads (levelParser_target (Nat.zero_le _) hp hassignment) (Nat.le_refl _)

end Grammar
end Scriptlet
