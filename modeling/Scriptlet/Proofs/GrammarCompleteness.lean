import Scriptlet.Proofs.GrammarSoundness
import Scriptlet.Proofs.Lookahead

namespace Scriptlet
namespace Grammar

open Parse

variable {inner : Inner}

def levelParser (inner : Inner) : Level → Parse Expr
  | .assignment => assignment inner
  | .logicalOr => logicalOr inner
  | .logicalAnd => logicalAnd inner
  | .bitOr => bitOr inner
  | .bitXor => bitXor inner
  | .bitAnd => bitAnd inner
  | .equality => equality inner
  | .relational => relational inner
  | .shift => shift inner
  | .additive => additive inner
  | .multiplicative => multiplicative inner
  | .exponent => exponent inner
  | .unary => unary inner
  | .trailing => trailing inner
  | .creation => creation inner
  | .call => call inner
  | .primary => primary inner

def restParser (inner : Inner) : Level → Nat → Expr → Parse Expr
  | .logicalOr => chainFrom (logicalAnd inner) Symbol.logicalOr? .logical
  | .logicalAnd => chainFrom (bitOr inner) Symbol.logicalAnd? .logical
  | .bitOr => chainFrom (bitXor inner) Symbol.bitOr? .binary
  | .bitXor => chainFrom (bitAnd inner) Symbol.bitXor? .binary
  | .bitAnd => chainFrom (equality inner) Symbol.bitAnd? .binary
  | .equality => chainFrom (relational inner) Symbol.equality? .binary
  | .relational => chainFrom (shift inner) Symbol.relational? .binary
  | .shift => chainFrom (additive inner) Symbol.shift? .binary
  | .additive => chainFrom (multiplicative inner) Symbol.additive? .binary
  | .multiplicative => chainFrom (exponent inner) Symbol.multiplicative? .binary
  | .call => accessFrom inner
  | _ => fun _ e => return e

theorem levelParser_repeats {level : Level} (h : level.repeats) :
    levelParser inner level = levelParser inner level.tighter >>= fun left =>
      bounded fun n => restParser inner level n left := by
  cases level <;> first | rfl | cases h

section chains

variable {op : Type} {operand : Parse Expr} {select : Symbol → Option op}
  {join : op → Expr → Expr → Nat → Expr}

theorem chainFrom_join {k line : Nat} {left right : Expr} {s : Symbol} {o : op}
    {ts mid : List Lexeme} (hs : select s = some o) (ho : operand ts = .ok (right, mid)) :
    chainFrom operand select join (k + 1) left (⟨.symbol s, line⟩ :: ts) =
      chainFrom operand select join k (join o left right line) mid := by
  have ht : take? (ofSymbol select) (⟨.symbol s, line⟩ :: ts) = .ok (some (o, line), ts) := by
    rw [take?_cons]
    simp only [ofSymbol, hs]
  rw [chainFrom, chainRound, bind_run ht]
  exact bind_run ho

theorem chainFrom_stop {level : Level} {k : Nat} {left : Expr} {rest : List Lexeme}
    (hs : ∀ s o, select s = some o → s.attachment? = some level) (hc : Closes level rest) :
    chainFrom operand select join k left rest = .ok (left, rest) := by
  cases k with
  | zero => rfl
  | succ k =>
    rw [chainFrom, chainRound, bind_run (hc.ofSymbol_run select fun s o h => ⟨level, hs s o h, Nat.le_refl _⟩)]
    rfl

end chains

theorem restParser_join {k line : Nat} {left right : Expr} {s : Symbol} {op : Operator}
    {ts mid : List Lexeme} (hl : op.level.repeats) (hs : s.spelling = op.spelling)
    (ho : levelParser inner op.level.tighter ts = .ok (right, mid)) :
    restParser inner op.level (k + 1) left (⟨.symbol s, line⟩ :: ts) =
      restParser inner op.level k (op.join left right line) mid := by
  obtain rfl := Operator.eq_symbol.mp hs
  rcases op with (op | op | op | op) | op <;> cases op <;>
    first | exact chainFrom_join rfl ho | cases hl

theorem attachment?_of_access? {t : Token} {access : Access} (h : access? t = some access) :
    ∃ s, t = .symbol s ∧ s.attachment? = some .call := by
  obtain rfl := access?_eq_some.mp h
  cases access <;> exact ⟨_, rfl, rfl⟩

theorem restParser_stop {level : Level} {k : Nat} {left : Expr} {rest : List Lexeme}
    (hc : Closes level rest) : restParser inner level k left rest = .ok (left, rest) := by
  have binary {select : Symbol → Option BinaryOp} {operand : Parse Expr}
      (hs : ∀ s, level.read? s = (select s).map .binary) :
      chainFrom operand select .binary k left rest = .ok (left, rest) :=
    chainFrom_stop (fun s o h => Level.attachment?_of_read? ((hs s).trans (by rw [h]; rfl))) hc
  have logical {select : Symbol → Option LogicalOp} {operand : Parse Expr}
      (hs : ∀ s, level.read? s = (select s).map .logical) :
      chainFrom operand select .logical k left rest = .ok (left, rest) :=
    chainFrom_stop (fun s o h => Level.attachment?_of_read? ((hs s).trans (by rw [h]; rfl))) hc
  cases level with
  | logicalOr | logicalAnd => exact logical fun _ => rfl
  | bitOr | bitXor | bitAnd | equality | relational | shift | additive | multiplicative =>
    exact binary fun _ => rfl
  | call =>
    cases k with
    | zero => rfl
    | succ k =>
      have ht : take? access? rest = .ok (none, rest) := by
        refine hc.take?_run fun t a ha => ?_
        obtain ⟨s, rfl, hs⟩ := attachment?_of_access? ha
        exact ⟨s, .call, rfl, hs, Nat.le_refl _⟩
      exact bind_run ht
  | assignment | exponent | unary | trailing | creation | primary => rfl

theorem accessFrom_arguments {k line : Nat} {callee : Expr} {ts : List Lexeme} :
    accessFrom inner (k + 1) callee (⟨.symbol .leftParen, line⟩ :: ts) =
      (slots inner .rightParen >>= fun args => limit args.length .tooManyArguments line >>= fun _ =>
        accessFrom inner k (.call callee args line)) ts := rfl

theorem accessFrom_key {k line : Nat} {holder : Expr} {ts : List Lexeme} :
    accessFrom inner (k + 1) holder (⟨.symbol .leftBracket, line⟩ :: ts) =
      (inner .expression >>= fun key => expect (.symbol .rightBracket) .endOfIndex >>= fun _ =>
        accessFrom inner k (.read holder (.computed key) line)) ts := rfl

theorem primary_group {line : Nat} {ts : List Lexeme} :
    primary inner (⟨.symbol .leftParen, line⟩ :: ts) =
      (inner .expression >>= fun e => expect (.symbol .rightParen) .endOfGroup >>= fun _ =>
        pure (.group e line)) ts := rfl

theorem primary_array {line : Nat} {ts : List Lexeme} :
    primary inner (⟨.symbol .leftBracket, line⟩ :: ts) =
      (slots inner .rightBracket >>= fun slots => pure (.array slots line)) ts := rfl

theorem primary_object {line : Nat} {ts : List Lexeme} :
    primary inner (⟨.symbol .leftBrace, line⟩ :: ts) =
      (entries inner >>= fun entries => pure (.object entries line)) ts := rfl

def Reads (ts : List Lexeme) : Phrase → Prop
  | .expr level e => ∀ n rest, Closes level rest → ts.length + rest.length ≤ n →
      levelParser (nested n) level (ts ++ rest) = .ok (e, rest)
  | .rest level left e => level.repeats → ∀ n k rest, Closes level rest →
      ts.length + rest.length ≤ n → ts.length ≤ k →
      restParser (nested n) level k left (ts ++ rest) = .ok (e, rest)
  | .slots closing slots => closing = .rightParen ∨ closing = .rightBracket →
      ∀ n k rest, ts.length + rest.length < n → ts.length ≤ k →
      slotsFrom (nested n) closing k (ts ++ rest) = .ok (slots, rest)
  | .entries entries => ∀ n k rest, ts.length + rest.length < n → ts.length ≤ k →
      entriesFrom (nested n) k (ts ++ rest) = .ok (entries, rest)

namespace Reads

variable {level : Level} {ts us : List Lexeme} {e : Expr} {line line' : Nat}

theorem enclosed (h : Reads ts (.expr .assignment e)) (n : Nat) (rest : List Lexeme)
    (hn : ts.length + rest.length < n) (hc : Closes .assignment rest) :
    nested n .expression (ts ++ rest) = .ok (e, rest) := by
  obtain ⟨m, rfl⟩ : ∃ m, n = m + 1 := ⟨n - 1, by omega⟩
  exact h m rest hc (by omega)

theorem chain {left : Expr} (hl : level.repeats) (ha : Attaches level us)
    (hf : Reads ts (.expr level.tighter left)) (hr : Reads us (.rest level left e)) :
    Reads (ts ++ us) (.expr level e) := by
  intro n rest hc hn
  simp only [List.append_assoc, List.length_append] at hn ⊢
  have hleft := hf n (us ++ rest) (ha rest hc) (by rw [List.length_append]; omega)
  rw [levelParser_repeats hl, bind_run hleft]
  exact hr hl n _ rest hc (by omega) (by rw [List.length_append]; omega)

theorem join {op : Operator} {s : Symbol} {left right : Expr} (hs : s.spelling = op.spelling)
    (ha : Attaches op.level us) (ho : Reads ts (.expr op.level.tighter right))
    (hr : Reads us (.rest op.level (op.join left right line) e)) :
    Reads (⟨.symbol s, line⟩ :: ts ++ us) (.rest op.level left e) := by
  intro hl n k rest hc hn hk
  simp only [List.cons_append, List.append_assoc, List.length_cons, List.length_append] at hn hk ⊢
  obtain ⟨k, rfl⟩ : ∃ j, k = j + 1 := ⟨k - 1, by omega⟩
  have hright := ho n (us ++ rest) (ha rest hc) (by rw [List.length_append]; omega)
  rw [restParser_join hl hs hright]
  exact hr hl n k rest hc (by omega) (by omega)

theorem arguments {callee : Expr} {args : List (Option Expr)} (hn : args.length ≤ maxArguments)
    (ha : Reads ts (.slots .rightParen args))
    (hr : Reads us (.rest .call (.call callee args line) e)) :
    Reads (⟨.symbol .leftParen, line⟩ :: ts ++ us) (.rest .call callee e) := by
  intro hl n k rest hc hlen hk
  simp only [List.cons_append, List.append_assoc, List.length_cons, List.length_append] at hlen hk ⊢
  obtain ⟨k, rfl⟩ : ∃ j, k = j + 1 := ⟨k - 1, by omega⟩
  have hargs : slots (nested n) .rightParen (ts ++ (us ++ rest)) = .ok (args, us ++ rest) :=
    ha (.inl rfl) n _ _ (by rw [List.length_append]; omega) (by rw [List.length_append]; omega)
  change accessFrom _ _ _ _ = _
  rw [accessFrom_arguments, bind_run hargs, bind_run (limit_run hn)]
  exact hr hl n k rest hc (by omega) (by omega)

theorem named {holder : Expr} {name : String}
    (hr : Reads us (.rest .call (.read holder (.named name) line) e)) :
    Reads (⟨.symbol .dot, line⟩ :: ⟨.name name, line'⟩ :: us) (.rest .call holder e) := by
  intro hl n k rest hc hlen hk
  simp only [List.cons_append, List.length_cons] at hlen hk ⊢
  obtain ⟨k, rfl⟩ : ∃ j, k = j + 1 := ⟨k - 1, by omega⟩
  exact hr hl n k rest hc (by omega) (by omega)

theorem computed {holder key : Expr} (hk : Reads ts (.expr .assignment key))
    (hr : Reads us (.rest .call (.read holder (.computed key) line) e)) :
    Reads (⟨.symbol .leftBracket, line⟩ :: ts ++ ⟨.symbol .rightBracket, line'⟩ :: us)
      (.rest .call holder e) := by
  intro hl n k rest hc hlen hle
  simp only [List.cons_append, List.append_assoc, List.length_cons, List.length_append] at hlen hle ⊢
  obtain ⟨k, rfl⟩ : ∃ j, k = j + 1 := ⟨k - 1, by omega⟩
  have hkey := hk.enclosed n (⟨.symbol .rightBracket, line'⟩ :: (us ++ rest))
    (by rw [List.length_cons, List.length_append]; omega) (Closes.cons_detached rfl)
  change accessFrom _ _ _ _ = _
  rw [accessFrom_key, bind_run hkey, bind_run expect_cons]
  exact hr hl n k rest hc (by omega) (by omega)

theorem slot {closing : Symbol} {slots : List (Option Expr)} (hd : Opens .assignment ts)
    (he : Reads ts (.expr .assignment e)) (hr : Reads us (.slots closing slots)) :
    Reads (ts ++ ⟨.symbol .comma, line⟩ :: us) (.slots closing (some e :: slots)) := by
  intro hcl n k rest hn hk
  simp only [List.append_assoc, List.cons_append, List.length_cons, List.length_append] at hn hk ⊢
  obtain ⟨k, rfl⟩ : ∃ j, k = j + 1 := ⟨k - 1, by omega⟩
  have hitem := he.enclosed n (⟨.symbol .comma, line⟩ :: (us ++ rest))
    (by rw [List.length_cons, List.length_append]; omega) (Closes.cons_detached rfl)
  rw [slotsFrom, slotsRound, bind_run ((hd.append _).accept_run (by rcases hcl with rfl | rfl <;> rfl))]
  change (accept _ >>= _) _ = _
  rw [bind_run ((hd.append _).accept_run rfl)]
  change (nested n .expression >>= _) _ = _
  rw [bind_run hitem, bind_run separator_comma]
  exact bind_run (hr hcl n k rest (by omega) (by omega))

theorem lastSlot {closing : Symbol} (hd : Opens .assignment ts)
    (he : Reads ts (.expr .assignment e)) :
    Reads (ts ++ [⟨.symbol closing, line⟩]) (.slots closing [some e]) := by
  intro hcl n k rest hn hk
  simp only [List.append_assoc, List.cons_append, List.length_cons, List.length_append,
    List.nil_append, List.length_nil] at hn hk ⊢
  obtain ⟨k, rfl⟩ : ∃ j, k = j + 1 := ⟨k - 1, by omega⟩
  have hitem := he.enclosed n (⟨.symbol closing, line⟩ :: rest)
    (by rw [List.length_cons]; omega)
    (Closes.cons_detached (by rcases hcl with rfl | rfl <;> rfl))
  rw [slotsFrom, slotsRound, bind_run ((hd.append _).accept_run (by rcases hcl with rfl | rfl <;> rfl))]
  change (accept _ >>= _) _ = _
  rw [bind_run ((hd.append _).accept_run rfl)]
  change (nested n .expression >>= _) _ = _
  rw [bind_run hitem,
    bind_run (separator_closing (by rcases hcl with rfl | rfl <;> decide))]
  rfl

theorem emptySlot {closing : Symbol} {slots : List (Option Expr)}
    (hr : Reads ts (.slots closing slots)) :
    Reads (⟨.symbol .comma, line⟩ :: ts) (.slots closing (none :: slots)) := by
  intro hcl n k rest hn hk
  simp only [List.cons_append, List.length_cons] at hn hk ⊢
  obtain ⟨k, rfl⟩ : ∃ j, k = j + 1 := ⟨k - 1, by omega⟩
  have hne : (Token.symbol .comma) ≠ .symbol closing := by rcases hcl with rfl | rfl <;> decide
  rw [slotsFrom, slotsRound, bind_run (accept_cons_ne hne)]
  change (accept _ >>= _) _ = _
  rw [bind_run accept_cons]
  exact bind_run (hr hcl n k rest (by omega) (by omega))

theorem noSlots {closing : Symbol} : Reads [⟨.symbol closing, line⟩] (.slots closing []) := by
  intro _ n k rest _ hk
  obtain ⟨k, rfl⟩ : ∃ j, k = j + 1 := ⟨k - 1, by simp only [List.length_singleton] at hk; omega⟩
  rw [slotsFrom, slotsRound, List.singleton_append, bind_run accept_cons]
  rfl

theorem entriesFrom_item {token : Token} {key : String} {n k : Nat} {rest : List Lexeme}
    (hk : token = .name key ∨ token = .text key)
    (he : nested n .expression ts = .ok (e, rest)) :
    entriesFrom (nested n) (k + 1) (⟨token, line⟩ :: ⟨.symbol .colon, line'⟩ :: ts) =
      (accept (.symbol .comma) >>= fun more =>
        if more then entriesFrom (nested n) k >>= fun entries => pure ((key, e) :: entries)
        else expect (.symbol .rightBrace) .endOfObject >>= fun _ => pure [(key, e)]) rest := by
  have hbrace : token ≠ .symbol .rightBrace := by rcases hk with rfl | rfl <;> exact nofun
  have hname : require propertyName? .propertyName (⟨token, line⟩ :: ⟨.symbol .colon, line'⟩ :: ts) =
      .ok ((key, line), ⟨.symbol .colon, line'⟩ :: ts) := by
    rw [require_cons]
    rcases hk with rfl | rfl <;> rfl
  rw [entriesFrom, entriesRound, bind_run (accept_cons_ne hbrace)]
  change (require _ _ >>= _) _ = _
  rw [bind_run hname]
  change (expect _ _ >>= _) _ = _
  rw [bind_run expect_cons, bind_run he]

theorem entry {token : Token} {key : String} {line'' : Nat} {entries : List (String × Expr)}
    (hk : token = .name key ∨ token = .text key) (he : Reads ts (.expr .assignment e))
    (hr : Reads us (.entries entries)) :
    Reads (⟨token, line⟩ :: ⟨.symbol .colon, line'⟩ :: ts ++ ⟨.symbol .comma, line''⟩ :: us)
      (.entries ((key, e) :: entries)) := by
  intro n k rest hn hle
  simp only [List.append_assoc, List.cons_append, List.length_cons, List.length_append] at hn hle ⊢
  obtain ⟨k, rfl⟩ : ∃ j, k = j + 1 := ⟨k - 1, by omega⟩
  have hvalue := he.enclosed n (⟨.symbol .comma, line''⟩ :: (us ++ rest))
    (by rw [List.length_cons, List.length_append]; omega) (Closes.cons_detached rfl)
  rw [entriesFrom_item hk hvalue, bind_run accept_cons]
  exact bind_run (hr n k rest (by omega) (by omega))

theorem lastEntry {token : Token} {key : String} {line'' : Nat}
    (hk : token = .name key ∨ token = .text key) (he : Reads ts (.expr .assignment e)) :
    Reads (⟨token, line⟩ :: ⟨.symbol .colon, line'⟩ :: ts ++ [⟨.symbol .rightBrace, line''⟩])
      (.entries [(key, e)]) := by
  intro n k rest hn hle
  simp only [List.append_assoc, List.cons_append, List.length_cons, List.length_append,
    List.nil_append, List.length_nil] at hn hle ⊢
  obtain ⟨k, rfl⟩ : ∃ j, k = j + 1 := ⟨k - 1, by omega⟩
  have hvalue := he.enclosed n (⟨.symbol .rightBrace, line''⟩ :: rest)
    (by rw [List.length_cons]; omega) (Closes.cons_detached rfl)
  have hcomma : (Token.symbol .rightBrace) ≠ .symbol .comma := nofun
  rw [entriesFrom_item hk hvalue, bind_run (accept_cons_ne hcomma)]
  exact bind_run expect_cons

theorem noEntries : Reads [⟨.symbol .rightBrace, line⟩] (.entries []) := by
  intro n k rest _ hk
  obtain ⟨k, rfl⟩ : ∃ j, k = j + 1 := ⟨k - 1, by simp only [List.length_singleton] at hk; omega⟩
  rw [entriesFrom, entriesRound, List.singleton_append, bind_run accept_cons]
  rfl

theorem assign {s : Symbol} {target right value : Expr} (place : Place)
    (hp : target.place? = some place) (hv : Assigned target right line s value)
    (ht : Reads ts (.expr .logicalOr target)) (hr : Reads us (.expr .assignment right)) :
    Reads (ts ++ ⟨.symbol s, line⟩ :: us) (.expr .assignment (place.store value line)) := by
  intro n rest hc hn
  simp only [List.append_assoc, List.cons_append, List.length_cons, List.length_append] at hn ⊢
  obtain ⟨op, ho, rfl⟩ := assigned_iff.mp hv
  have hclose : Closes .logicalOr (⟨.symbol s, line⟩ :: (us ++ rest)) := by
    refine Closes.cons fun l' ha => ?_
    rw [Symbol.attachment?_of_assignment? ho] at ha
    cases ha
    decide
  have htarget : logicalOr (nested n) _ = _ :=
    ht n _ hclose (by rw [List.length_cons, List.length_append]; omega)
  have htake : take? (ofSymbol Symbol.assignment?) (⟨.symbol s, line⟩ :: (us ++ rest)) =
      .ok (some (op, line), us ++ rest) := by
    simp only [take?_cons, ofSymbol, ho]
  change (logicalOr (nested n) >>= _) _ = _
  rw [bind_run htarget, bind_run htake]
  simp only [hp]
  rw [bind_run (hr.enclosed n rest (by omega) hc)]
  rfl

theorem power {base : Expr} (hb : Reads ts (.expr .unary base)) (he : Reads us (.expr .exponent e)) :
    Reads (ts ++ ⟨.symbol .starStar, line⟩ :: us)
      (.expr .exponent (.binary (.arithmetic .pow) base e line)) := by
  intro n rest hc hn
  simp only [List.append_assoc, List.cons_append, List.length_cons, List.length_append] at hn ⊢
  obtain ⟨m, rfl⟩ : ∃ m, n = m + 1 := ⟨n - 1, by omega⟩
  have hclose : Closes .unary (⟨.symbol .starStar, line⟩ :: (us ++ rest)) :=
    Closes.cons fun l' ha => by cases ha; decide
  have hbase : Grammar.unary (nested (m + 1)) _ = _ :=
    hb (m + 1) _ hclose (by rw [List.length_cons, List.length_append]; omega)
  have hexp := he m rest hc (by omega)
  change (Grammar.unary (nested (m + 1)) >>= _) _ = _
  have htake : take? (ofSymbol Symbol.power?) (⟨.symbol .starStar, line⟩ :: (us ++ rest)) =
      .ok (some (.arithmetic .pow, line), us ++ rest) := rfl
  rw [bind_run hbase, bind_run htake]
  exact bind_run hexp

theorem unary {op : UnaryOp} {s : Symbol} (hs : s.spelling = op.spelling)
    (h : Reads ts (.expr .unary e)) :
    Reads (⟨.symbol s, line⟩ :: ts) (.expr .unary (.unary op e line)) := by
  intro n rest hc hn
  simp only [List.cons_append, List.length_cons] at hn ⊢
  obtain ⟨m, rfl⟩ : ∃ m, n = m + 1 := ⟨n - 1, by omega⟩
  have htake : take? (ofSymbol Symbol.unary?) (⟨.symbol s, line⟩ :: (ts ++ rest)) =
      .ok (some (op, line), ts ++ rest) := by
    simp only [take?_cons, ofSymbol, Symbol.unary?_eq_some.mpr hs]
  change (take? (ofSymbol Symbol.unary?) >>= _) _ = _
  rw [bind_run htake]
  exact bind_run (h m rest hc (by omega))

theorem trailing {step : Step} {s : Symbol} (hs : s.spelling = step.spelling)
    (h : Reads ts (.expr .creation e)) :
    Reads (ts ++ [⟨.symbol s, line⟩]) (.expr .trailing (.trailing (.step step) e line)) := by
  intro n rest hc hn
  simp only [List.append_assoc, List.singleton_append, List.length_append, List.length_singleton] at hn ⊢
  have hop : s.trailing? = some (.step step) := Symbol.trailing?_eq_some.mpr ⟨step, rfl, hs⟩
  have hclose : Closes .creation (⟨.symbol s, line⟩ :: rest) := by
    refine Closes.cons fun l' ha => ?_
    rw [Symbol.attachment?_of_trailing? hop] at ha
    cases ha
    decide
  have htake : take? (ofSymbol Symbol.trailing?) (⟨.symbol s, line⟩ :: rest) =
      .ok (some (.step step, line), rest) := by
    simp only [take?_cons, ofSymbol, hop]
  have hoperand : Grammar.creation (nested n) _ = _ := h n _ hclose (by rw [List.length_cons]; omega)
  change (Grammar.creation (nested n) >>= _) _ = _
  rw [bind_run hoperand, bind_run htake]
  rfl

theorem creation (h : Reads ts (.expr .call e)) :
    Reads (⟨.keyword .new, line⟩ :: ts) (.expr .creation (.new e line)) := by
  intro n rest hc hn
  rw [List.length_cons] at hn
  have hcall : call (nested n) (ts ++ rest) = .ok (e, rest) :=
    h n rest (hc.mono (by decide)) (by omega)
  have htake : take? (only (.keyword .new)) (⟨.keyword .new, line⟩ :: (ts ++ rest)) =
      .ok (some ((), line), ts ++ rest) := rfl
  change (take? (only (.keyword .new)) >>= _) _ = _
  rw [List.cons_append, bind_run htake]
  exact bind_run hcall

theorem group (h : Reads ts (.expr .assignment e)) :
    Reads (⟨.symbol .leftParen, line⟩ :: ts ++ [⟨.symbol .rightParen, line'⟩])
      (.expr .primary (.group e line)) := by
  intro n rest hc hn
  simp only [List.cons_append, List.append_assoc, List.nil_append, List.length_cons,
    List.length_append, List.length_nil] at hn ⊢
  have hinner := h.enclosed n (⟨.symbol .rightParen, line'⟩ :: rest)
    (by rw [List.length_cons]; omega) (Closes.cons_detached rfl)
  change primary _ _ = _
  rw [primary_group, bind_run hinner, bind_run expect_cons]
  rfl

theorem array {slots : List (Option Expr)} (h : Reads ts (.slots .rightBracket slots)) :
    Reads (⟨.symbol .leftBracket, line⟩ :: ts) (.expr .primary (.array slots line)) := by
  intro n rest hc hn
  rw [List.length_cons] at hn
  have hslots : Grammar.slots (nested n) .rightBracket (ts ++ rest) = .ok (slots, rest) :=
    h (.inr rfl) n _ rest (by omega) (by rw [List.length_append]; omega)
  change primary _ _ = _
  rw [List.cons_append, primary_array]
  exact bind_run hslots

theorem object {entries : List (String × Expr)} (h : Reads ts (.entries entries)) :
    Reads (⟨.symbol .leftBrace, line⟩ :: ts) (.expr .primary (.object entries line)) := by
  intro n rest hc hn
  rw [List.length_cons] at hn
  have hentries : Grammar.entries (nested n) (ts ++ rest) = .ok (entries, rest) :=
    h n _ rest (by omega) (by rw [List.length_append]; omega)
  change primary _ _ = _
  rw [List.cons_append, primary_object]
  exact bind_run hentries

theorem literal {token : Token} {value : Literal} (ht : token = value.token) :
    Reads [⟨token, line⟩] (.expr .primary (.literal value line)) := by
  subst ht
  intro n rest _ _
  cases value <;> rfl

theorem descend (hl : level.repeats = false) (hd : Opens level.tighter ts)
    (h : Reads ts (.expr level.tighter e)) : Reads ts (.expr level e) := by
  intro n rest hc hn
  have htighter := h n rest (hc.mono level.rank_tighter) hn
  cases level with
  | assignment =>
    change logicalOr (nested n) (ts ++ rest) = .ok (e, rest) at htighter
    have htake := hc.ofSymbol_run Symbol.assignment? fun s o hs =>
      ⟨_, Symbol.attachment?_of_assignment? hs, Nat.le_refl _⟩
    change (logicalOr (nested n) >>= _) _ = _
    rw [bind_run htighter, bind_run htake]
    rfl
  | exponent =>
    change Grammar.unary (nested n) (ts ++ rest) = .ok (e, rest) at htighter
    have htake := hc.ofSymbol_run Symbol.power? fun s o hs =>
      ⟨.exponent, by cases s <;> cases hs; rfl, Nat.le_refl _⟩
    change (Grammar.unary (nested n) >>= _) _ = _
    rw [bind_run htighter, bind_run htake]
    rfl
  | unary =>
    have htake : take? (ofSymbol Symbol.unary?) (ts ++ rest) = .ok (none, ts ++ rest) := by
      refine (hd.append rest).take?_run fun t op ht l' ho => ?_
      obtain ⟨s, rfl, hs⟩ := ofSymbol_eq_some.mp ht
      rw [Symbol.opens?_of_unary? hs] at ho
      cases ho
      decide
    change (take? (ofSymbol Symbol.unary?) >>= _) _ = _
    rw [bind_run htake]
    exact htighter
  | trailing =>
    change Grammar.creation (nested n) (ts ++ rest) = .ok (e, rest) at htighter
    have htake := hc.ofSymbol_run Symbol.trailing? fun s o hs =>
      ⟨_, Symbol.attachment?_of_trailing? hs, Nat.le_refl _⟩
    change (Grammar.creation (nested n) >>= _) _ = _
    rw [bind_run htighter, bind_run htake]
    rfl
  | creation =>
    have htake : take? (only (.keyword .new)) (ts ++ rest) = .ok (none, ts ++ rest) := by
      refine (hd.append rest).take?_run fun t op ht l' ho => ?_
      obtain rfl := only_eq_some.mp ht
      cases ho
      decide
    change (take? (only (.keyword .new)) >>= _) _ = _
    rw [bind_run htake]
    exact htighter
  | primary => exact htighter
  | logicalOr | logicalAnd | bitOr | bitXor | bitAnd | equality | relational | shift | additive
  | multiplicative | call => cases hl

end Reads

end Grammar

theorem Derives.reads {ts : List Lexeme} {phrase : Phrase} (h : Derives ts phrase) :
    Grammar.Reads ts phrase := by
  -- The bound on the lexemes is the same for all parts: it only has to cover those not read yet.
  induction h with
  | descend hl h ih => exact ih.descend hl h.opens
  | chain hl hf hr ihf ihr => exact ihf.chain hl (hr.attaches hl) ihr
  | done => exact fun _ n k rest hc _ _ => Grammar.restParser_stop hc
  | join hs ho hr iho ihr => exact fun hl => iho.join hs (hr.attaches hl) ihr hl
  | arguments ha hn hr iha ihr => exact iha.arguments hn ihr
  | named hr ih => exact ih.named
  | computed hk hr ihk ihr => exact ihk.computed ihr
  | assignName ht hr hv iht ihr => exact iht.assign (.name _) rfl hv ihr
  | assignProperty ht hr hv iht ihr => exact iht.assign (.property _ _) rfl hv ihr
  | power hb he ihb ihe => exact ihb.power ihe
  | unary hs h ih => exact ih.unary hs
  | trailing hs h ih => exact ih.trailing hs
  | creation h ih => exact ih.creation
  | literal ht => exact .literal ht
  | name | this => exact fun _ _ _ _ => rfl
  | group h ih => exact ih.group
  | array h ih => exact ih.array
  | object h ih => exact ih.object
  | noSlots => exact .noSlots
  | emptySlot h ih => exact ih.emptySlot
  | slot he h ihe ih => exact ihe.slot he.opens ih
  | lastSlot he ih => exact ih.lastSlot he.opens
  | noEntries => exact .noEntries
  | entry hk he h ihe ih => exact ihe.entry hk ih
  | lastEntry hk he ih => exact ih.lastEntry hk

end Scriptlet
