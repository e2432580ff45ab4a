import Scriptlet.Proofs.BuiltTrees

/-!
What becomes of a parser's run when more lexemes follow. As long as the lexemes do not end, nothing
changes; a parser that reaches their end either asks for more or makes do with the end, and then it
makes do with a `;` as well.
-/

namespace Scriptlet

/-- The lexemes are none, or a `;` before what does not go on with an `if`. -/
inductive Separates : List Lexeme → Prop
  | nil : Separates []
  | cons (line : Nat) {rest : List Lexeme} (h : NoElse rest) :
    Separates (⟨.symbol .semicolon, line⟩ :: rest)

namespace Separates

variable {q : List Lexeme}

theorem take?_run {α : Type} {select : Token → Option α} (h : Separates q)
    (hs : select (.symbol .semicolon) = none) : Parse.take? select q = .ok (none, q) := by
  cases h with
  | nil => rfl
  | cons line h => rw [Parse.take?_cons, hs]

theorem accept_run {token : Token} (h : Separates q) (ht : token ≠ .symbol .semicolon) :
    Parse.accept token q = .ok (false, q) :=
  Parse.bind_run (h.take?_run (if_neg ht.symm))

theorem sees_run {token : Token} (h : Separates q) (ht : token ≠ .symbol .semicolon) :
    Parse.sees token q = .ok (false, q) := by
  cases h with
  | nil => rfl
  | @cons line rest h =>
    change Except.ok (decide (Token.symbol .semicolon = token), _) = _
    rw [decide_eq_false ht.symm]

theorem noElse (h : Separates q) : NoElse q := by
  cases h with
  | nil => exact nofun
  | cons line h =>
    rintro _ ⟨⟩
    exact nofun

theorem noElse_tail (h : Separates q) : NoElse q.tail := by
  cases h with
  | nil => exact nofun
  | cons line h => exact h

end Separates

theorem NoElse.after_run {α : Type} {rest : List Lexeme} (h : NoElse rest) (p : Parse α) :
    Parse.after (.keyword .«else») p rest = .ok (none, rest) := by
  cases rest with
  | nil => rfl
  | cons l rest => exact Parse.bind_run (Parse.accept_cons_ne (h l rfl))

namespace Parse

/-- What a parser does where the lexemes end: it looks no further, it looks at the next lexeme, or it
takes that one if it is a `;`. -/
inductive Sight
  | taken | next | separator

abbrev Outcome (α : Type) := Except SyntaxError (α × List Lexeme)

def Sight.Ended {α : Type} (q : List Lexeme) (a : α) (r : Outcome α) : Sight → Prop
  | taken => r = .ok (a, q)
  | next => Separates q → r = .ok (a, q)
  | separator => Separates q → r = .ok (a, q) ∨ r = .ok (a, q.tail)

def Resumes {α : Type} (sight : Sight) (q : List Lexeme) : Outcome α → Outcome α → Prop
  | .error e, r => e.cause ≠ .endOfInput → r = .error e
  | .ok (a, []), r => sight.Ended q a r
  | .ok (a, l :: rest), r => r = .ok (a, l :: (rest ++ q))

/-- The parser `p` takes at least `d` of the lexemes `ts`, and `p'` does the same on `ts` before `q`. -/
structure Continues {α : Type} (q : List Lexeme) (sight : Sight) (d : Nat) (p p' : Parse α)
    (ts : List Lexeme) : Prop where
  takes : ∀ a rest, p ts = .ok (a, rest) → rest.length + d ≤ ts.length
  resumes : Resumes sight q (p ts) (p' (ts ++ q))

section

variable {α β : Type} {q ts : List Lexeme} {sight : Sight} {p p' : Parse α} {f f' : α → Parse β}

theorem map_error {f : α → β} {e : SyntaxError} (h : p ts = .error e) :
    (f <$> p) ts = .error e := by
  change (p >>= fun a => pure (f a)) ts = _
  exact bind_error h

theorem accept_nil {token : Token} : accept token [] = .ok (false, []) := rfl

theorem sees_nil {token : Token} : sees token [] = .ok (false, []) := rfl

theorem skipSemicolons_nil : skipSemicolons [] = .ok ((), []) := rfl

theorem Sight.Ended.ofSeparates {a : α} {r : Outcome α} (hs : sight ≠ .taken)
    (h : Separates q → r = .ok (a, q)) : sight.Ended q a r := by
  cases sight with
  | taken => exact absurd rfl hs
  | next => exact h
  | separator => exact fun hq => .inl (h hq)

theorem Resumes.error {e : SyntaxError} {r : Outcome α} (h : r = .error e) :
    Resumes sight q (.error e) r := fun _ => h

theorem Resumes.starved {r : Outcome α} : Resumes sight q (.error endOfInput) r :=
  fun h => absurd rfl h

theorem Resumes.ofSeparates {a : α} {r r' : Outcome α} (hs : sight ≠ .taken)
    (h : Resumes sight q (.ok (a, [])) r) (hr : Separates q → r' = r) :
    Resumes sight q (.ok (a, [])) r' := by
  cases sight with
  | taken => exact absurd rfl hs
  | next => exact fun hq => (hr hq).trans (h hq)
  | separator => exact fun hq => (hr hq).symm ▸ h hq

end

namespace Continues

variable {α β : Type} {q ts : List Lexeme} {sight sight' : Sight} {d : Nat} {p p' : Parse α}
  {f f' : α → Parse β}

theorem failed {e : SyntaxError} (h : p ts = .error e) (h' : p' (ts ++ q) = .error e) :
    Continues q sight d p p' ts := by
  constructor
  · intro a rest hr
    rw [h] at hr
    cases hr
  · rw [h]
    exact .error h'

theorem starved (h : p ts = .error endOfInput) : Continues q sight d p p' ts := by
  constructor
  · intro a rest hr
    rw [h] at hr
    cases hr
  · rw [h]
    exact .starved

theorem stopped {a : α} {l : Lexeme} {rest : List Lexeme} (h : p ts = .ok (a, l :: rest))
    (h' : p' (ts ++ q) = .ok (a, l :: (rest ++ q))) (hd : rest.length + 1 + d ≤ ts.length) :
    Continues q sight d p p' ts := by
  constructor
  · intro b mid hr
    rw [h] at hr
    cases hr
    exact hd
  · rw [h]
    exact h'

theorem ended {a : α} (h : p ts = .ok (a, [])) (h' : sight.Ended q a (p' (ts ++ q)))
    (hd : d ≤ ts.length) : Continues q sight d p p' ts := by
  constructor
  · intro b mid hr
    rw [h] at hr
    cases hr
    rwa [List.length_nil, Nat.zero_add]
  · rw [h]
    exact h'

theorem any (h : Continues q sight d p p' ts) : Continues q sight 0 p p' ts :=
  ⟨fun a rest hr => Nat.le_trans (Nat.le_add_right ..) (h.takes a rest hr), h.resumes⟩

theorem ofTaken (h : Continues q .taken d p p' ts) : Continues q sight d p p' ts := by
  refine ⟨h.takes, ?_⟩
  have hr := h.resumes
  revert hr
  cases p ts with
  | error e => exact id
  | ok r =>
    obtain ⟨a, _ | ⟨l, rest⟩⟩ := r
    · intro hr
      cases sight with
      | taken => exact hr
      | next => exact fun _ => hr
      | separator => exact fun _ => .inl hr
    · exact id

theorem taken_run {a : α} {rest : List Lexeme} (h : Continues q .taken d p p' ts)
    (hp : p ts = .ok (a, rest)) : p' (ts ++ q) = .ok (a, rest ++ q) := by
  have hr := h.resumes
  rw [hp] at hr
  cases rest <;> exact hr

theorem pure (a : α) : Continues q sight 0 (pure a) (pure a) ts := by
  cases ts with
  | nil =>
    have h : Continues q .taken 0 (Pure.pure a : Parse α) (Pure.pure a) [] :=
      ended rfl rfl (Nat.le_refl 0)
    exact h.ofTaken
  | cons l ts => exact stopped rfl rfl (Nat.le_refl _)

theorem fail {cause : SyntaxError.Cause} {line : Nat} :
    Continues q sight d (fail cause line : Parse α) (Parse.fail cause line) ts :=
  failed rfl rfl

theorem bind_of (hp : Continues q sight d p p' ts)
    (hf : ∀ a rest, rest.length + d ≤ ts.length → Continues q sight' 0 (f a) (f' a) rest)
    (hend : ∀ a, p ts = .ok (a, []) → Resumes sight' q (f a []) ((p' >>= f') (ts ++ q))) :
    Continues q sight' d (p >>= f) (p' >>= f') ts := by
  have hr := hp.resumes
  constructor
  · intro b rest h
    obtain ⟨a, mid, ha, hb⟩ := bind_ok.mp h
    have hmid := hp.takes a mid ha
    have hrest := (hf a mid hmid).takes b rest hb
    omega
  · cases h : p ts with
    | error e =>
      rw [h] at hr
      rw [bind_error h]
      exact fun he => bind_error (hr he)
    | ok r =>
      obtain ⟨a, _ | ⟨l, rest⟩⟩ := r
      · rw [bind_run h]
        exact hend a h
      · rw [h] at hr
        rw [bind_run h, bind_run hr]
        exact (hf a (l :: rest) (hp.takes _ _ h)).resumes

theorem bind (hp : Continues q .taken d p p' ts)
    (hf : ∀ a rest, rest.length + d ≤ ts.length → Continues q sight 0 (f a) (f' a) rest) :
    Continues q sight d (p >>= f) (p' >>= f') ts := by
  refine hp.bind_of hf fun a ha => ?_
  have hr := hp.resumes
  rw [ha] at hr
  have hr : p' (ts ++ q) = .ok (a, q) := hr
  rw [bind_run hr]
  exact (hf a [] (hp.takes _ _ ha)).resumes

theorem bind_starved (hp : Continues q sight d p p' ts) (hend : ∀ a, f a [] = .error endOfInput)
    (hf : ∀ a rest, rest.length + d ≤ ts.length → Continues q sight' 0 (f a) (f' a) rest) :
    Continues q sight' d (p >>= f) (p' >>= f') ts := by
  refine hp.bind_of hf fun a _ => ?_
  rw [hend a]
  exact .starved

theorem bind_next (hp : Continues q .next d p p' ts) (hend : ∀ a, ∃ b, f a [] = .ok (b, []))
    (hf : ∀ a rest, rest.length + d ≤ ts.length → Continues q .next 0 (f a) (f' a) rest) :
    Continues q .next d (p >>= f) (p' >>= f') ts := by
  refine hp.bind_of hf fun a ha => ?_
  have hr := hp.resumes
  have hfa := (hf a [] (hp.takes _ _ ha)).resumes
  rw [ha] at hr
  obtain ⟨b, hb⟩ := hend a
  rw [hb] at hfa ⊢
  exact fun hq => (bind_run (hr hq)).trans (hfa hq)

theorem map {f : α → β} (hp : Continues q sight d p p' ts) :
    Continues q sight d (p >>= fun a => Pure.pure (f a)) (p' >>= fun a => Pure.pure (f a)) ts := by
  refine hp.bind_of (fun a rest _ => pure (f a)) fun a ha => ?_
  have hr := hp.resumes
  rw [ha] at hr
  cases sight with
  | taken => exact bind_run hr
  | next => exact fun hq => bind_run (hr hq)
  | separator =>
    intro hq
    obtain hr | hr := hr hq
    · exact .inl (bind_run hr)
    · exact .inr (bind_run hr)

theorem fmap {f : α → β} (hp : Continues q sight d p p' ts) :
    Continues q sight d (f <$> p) (f <$> p') ts := hp.map

theorem bounded {loop loop' : Nat → Parse α}
    (h : Continues q sight d (loop ts.length) (loop' (ts.length + q.length)) ts) :
    Continues q sight d (bounded loop) (bounded loop') ts := by
  constructor
  · exact h.takes
  · have hr := h.resumes
    rw [← List.length_append] at hr
    exact hr

theorem next : Continues q .taken 1 next next ts := by
  cases ts with
  | nil => exact starved rfl
  | cons l ts =>
    cases ts with
    | nil => exact ended rfl rfl (Nat.le_refl 1)
    | cons l' ts => exact stopped rfl rfl (Nat.le_refl _)

section select

variable {select : Token → Option α} {f f' : Option (α × Nat) → Parse β}

theorem take?_of (hd : d ≤ 1)
    (hend : ts = [] → Resumes sight q (f none []) ((take? select >>= f') q))
    (hnone : Continues q sight d (f none) (f' none) ts)
    (hsome : ∀ a line rest, rest.length < ts.length →
      Continues q sight 0 (f (some (a, line))) (f' (some (a, line))) rest) :
    Continues q sight d (take? select >>= f) (take? select >>= f') ts := by
  cases ts with
  | nil => exact ⟨hnone.takes, hend rfl⟩
  | cons l ts =>
    cases hl : select l.token with
    | none =>
      have run (us : List Lexeme) : take? select (l :: us) = .ok (none, l :: us) := by
        rw [take?_cons, hl]
      constructor
      · rw [bind_run (run ts)]
        exact hnone.takes
      · rw [bind_run (run ts), List.cons_append, bind_run (run (ts ++ q))]
        exact hnone.resumes
    | some a =>
      have run (us : List Lexeme) : take? select (l :: us) = .ok (some (a, l.line), us) := by
        rw [take?_cons, hl]
      have h := hsome a l.line ts (Nat.lt_succ_self _)
      constructor
      · rw [bind_run (run ts)]
        intro b rest hr
        have hlength := h.takes b rest hr
        rw [List.length_cons]
        omega
      · rw [bind_run (run ts), List.cons_append, bind_run (run (ts ++ q))]
        exact h.resumes

theorem take?_bind (hd : d ≤ 1) (hend : f none [] = .error endOfInput)
    (hnone : Continues q sight d (f none) (f' none) ts)
    (hsome : ∀ a line rest, rest.length < ts.length →
      Continues q sight 0 (f (some (a, line))) (f' (some (a, line))) rest) :
    Continues q sight d (take? select >>= f) (take? select >>= f') ts := by
  refine take?_of hd (fun _ => ?_) hnone hsome
  rw [hend]
  exact .starved

theorem take?_next (hd : d ≤ 1) (hs : select (.symbol .semicolon) = none)
    (hend : ∃ b, f none [] = .ok (b, [])) (hnone : Continues q .next d (f none) (f' none) ts)
    (hsome : ∀ a line rest, rest.length < ts.length →
      Continues q .next 0 (f (some (a, line))) (f' (some (a, line))) rest) :
    Continues q .next d (take? select >>= f) (take? select >>= f') ts := by
  refine take?_of hd (fun ht => ?_) hnone hsome
  subst ht
  obtain ⟨b, hb⟩ := hend
  have hr := hnone.resumes
  rw [hb] at hr ⊢
  exact fun hq => (bind_run (hq.take?_run hs)).trans (hr hq)

theorem require {what : Expected} :
    Continues q .taken 1 (require select what) (Parse.require select what) ts := by
  refine next.bind fun l rest _ => ?_
  split
  · exact pure _
  · exact fail

end select

theorem expect {token : Token} {what : Expected} :
    Continues q .taken 0 (expect token what) (Parse.expect token what) ts := require.any.map

theorem identifier : Continues q .taken 0 identifier Parse.identifier ts := require.any.map

theorem separator {closing : Symbol} :
    Continues q .taken 0 (separator closing) (Parse.separator closing) ts := by
  refine next.any.bind fun l rest _ => ?_
  split
  · exact pure _
  · split
    · exact pure _
    · exact fail

theorem limit {count line : Nat} {cause : SyntaxError.Cause} :
    Continues q .taken 0 (limit count cause line) (Parse.limit count cause line) ts := by
  unfold Parse.limit
  split
  · exact fail
  · exact pure _

section token

variable {token : Token} {f f' : Bool → Parse β}

theorem accept_of (hend : ts = [] → Resumes sight q (f false []) ((accept token >>= f') q))
    (hf : ∀ b rest, rest.length ≤ ts.length → Continues q sight 0 (f b) (f' b) rest) :
    Continues q sight 0 (accept token >>= f) (accept token >>= f') ts := by
  cases ts with
  | nil => exact ⟨(hf false [] (Nat.le_refl 0)).takes, hend rfl⟩
  | cons l ts =>
    by_cases hl : l.token = token
    · obtain ⟨t, line⟩ := l
      obtain rfl : t = token := hl
      have h := hf true ts (Nat.le_succ _)
      constructor
      · rw [bind_run accept_cons]
        exact fun b rest hr => Nat.le_succ_of_le (h.takes b rest hr)
      · rw [bind_run accept_cons, List.cons_append, bind_run accept_cons]
        exact h.resumes
    · have h := hf false (l :: ts) (Nat.le_refl _)
      constructor
      · rw [bind_run (accept_cons_ne hl)]
        exact h.takes
      · rw [bind_run (accept_cons_ne hl), List.cons_append, bind_run (accept_cons_ne hl)]
        exact h.resumes

theorem accept_bind (hend : f false [] = .error endOfInput)
    (hf : ∀ b rest, rest.length ≤ ts.length → Continues q sight 0 (f b) (f' b) rest) :
    Continues q sight 0 (accept token >>= f) (accept token >>= f') ts := by
  refine accept_of (fun _ => ?_) hf
  rw [hend]
  exact .starved

theorem semicolon_run {b : β} (hq : Separates q) :
    (accept (.symbol .semicolon) >>= fun _ => Pure.pure b) q = .ok (b, q) ∨
      (accept (.symbol .semicolon) >>= fun _ => Pure.pure b) q = .ok (b, q.tail) := by
  cases hq with
  | nil => exact .inl rfl
  | cons line h => exact .inr (bind_run accept_cons)

theorem semicolon {b : β} :
    Continues q .separator 0 (accept (.symbol .semicolon) >>= fun _ => Pure.pure b)
      (accept (.symbol .semicolon) >>= fun _ => Pure.pure b) ts :=
  accept_of (fun _ => semicolon_run) fun _ _ _ => pure b

theorem optionalSemicolon {f : α → β} (hp : Continues q .next d p p' ts) :
    Continues q .separator d (p >>= fun a => accept (.symbol .semicolon) >>= fun _ => Pure.pure (f a))
      (p' >>= fun a => accept (.symbol .semicolon) >>= fun _ => Pure.pure (f a)) ts := by
  refine hp.bind_of (fun a rest _ => semicolon) fun a ha hq => ?_
  have hr := hp.resumes
  rw [ha] at hr
  rw [bind_run (hr hq)]
  exact semicolon_run hq

theorem sees_of (hend : ts = [] → Resumes sight q (f false []) ((sees token >>= f') q))
    (hf : ∀ b, Continues q sight d (f b) (f' b) ts) :
    Continues q sight d (sees token >>= f) (sees token >>= f') ts := by
  cases ts with
  | nil => exact ⟨(hf false).takes, hend rfl⟩
  | cons l ts => exact ⟨(hf _).takes, (hf _).resumes⟩

theorem sees_bind (hend : f false [] = .error endOfInput)
    (hf : ∀ b, Continues q sight d (f b) (f' b) ts) :
    Continues q sight d (sees token >>= f) (sees token >>= f') ts := by
  refine sees_of (fun _ => ?_) hf
  rw [hend]
  exact .starved

theorem sees_next (hs : sight ≠ .taken) (ht : token ≠ .symbol .semicolon)
    (hend : ∃ b, f false [] = .ok (b, [])) (hf : ∀ b, Continues q sight d (f b) (f' b) ts) :
    Continues q sight d (sees token >>= f) (sees token >>= f') ts := by
  refine sees_of (fun hnil => ?_) hf
  subst hnil
  have hr := (hf false).resumes
  obtain ⟨b, hb⟩ := hend
  rw [hb] at hr ⊢
  exact .ofSeparates hs hr fun hq => bind_run (hq.sees_run ht)

theorem after (hs : sight ≠ .taken) (ht : token ≠ .symbol .semicolon)
    (hp : ∀ rest, Continues q sight 0 p p' rest) :
    Continues q sight 0 (after token p) (Parse.after token p') ts := by
  refine accept_of (fun _ => ?_) fun found rest _ => ?_
  · exact .ofSeparates hs (Sight.Ended.ofSeparates hs fun _ => rfl) fun hq =>
      bind_run (hq.accept_run ht)
  · cases found with
    | false => exact pure _
    | true => exact (hp rest).fmap

end token

theorem skipSemicolons_bind {f f' : Unit → Parse β} (hend : f () [] = .error endOfInput)
    (hf : ∀ rest, rest.length ≤ ts.length → Continues q sight d (f ()) (f' ()) rest) :
    Continues q sight d (skipSemicolons >>= f) (skipSemicolons >>= f') ts := by
  cases hts : ts.dropWhile (·.token = .symbol .semicolon) with
  | nil =>
    apply starved
    change f () (ts.dropWhile _) = _
    rw [hts, hend]
  | cons l rest =>
    have hsub := (List.dropWhile_sublist (l := ts) (·.token = .symbol .semicolon)).length_le
    rw [hts] at hsub
    have h := hf (l :: rest) hsub
    constructor
    · change ∀ a rest', f () (ts.dropWhile _) = .ok (a, rest') → _
      rw [hts]
      intro a rest' hr
      exact Nat.le_trans (h.takes a rest' hr) hsub
    · change Resumes sight q (f () (ts.dropWhile _)) (f' () ((ts ++ q).dropWhile _))
      rw [List.dropWhile_append, hts]
      exact h.resumes

end Continues
end Parse
end Scriptlet
