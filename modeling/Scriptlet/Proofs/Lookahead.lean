import Scriptlet.Proofs.OperatorTables
import Scriptlet.Proofs.ParseRules

namespace Scriptlet

def Symbol.attachment? : Symbol → Option Level
  | assign | plusAssign | minusAssign | starAssign | starStarAssign | slashAssign | percentAssign
  | andAssign | orAssign | caretAssign | shiftLeftAssign | shiftRightAssign | shiftRightZeroAssign
  | andAndAssign | orOrAssign => some .assignment
  | orOr => some .logicalOr
  | andAnd => some .logicalAnd
  | or => some .bitOr
  | caret => some .bitXor
  | and => some .bitAnd
  | equal | notEqual | strictEqual | strictNotEqual => some .equality
  | less | lessEqual | greater | greaterEqual => some .relational
  | shiftLeft | shiftRight | shiftRightZero => some .shift
  | plus | minus => some .additive
  | star | slash | percent => some .multiplicative
  | starStar => some .exponent
  | plusPlus | minusMinus => some .trailing
  | leftParen | leftBracket | dot => some .call
  | _ => none

theorem Level.attachment?_of_read? {level : Level} {s : Symbol} {op : Operator}
    (h : level.read? s = some op) : s.attachment? = some level := by
  obtain ⟨rfl, hs⟩ := read?_eq_some.mp h
  obtain rfl := Operator.eq_symbol.mp hs
  rcases op with (op | op | op | op) | op <;> cases op <;> rfl

theorem Symbol.attachment?_of_assignment? {s : Symbol} {op : AssignOp}
    (h : s.assignment? = some op) : s.attachment? = some .assignment := by
  cases s <;> cases h <;> rfl

theorem Symbol.attachment?_of_trailing? {s : Symbol} {op : UnaryOp}
    (h : s.trailing? = some op) : s.attachment? = some .trailing := by
  cases s <;> cases h <;> rfl

def Level.rank : Level → Nat
  | assignment => 0
  | logicalOr => 1
  | logicalAnd => 2
  | bitOr => 3
  | bitXor => 4
  | bitAnd => 5
  | equality => 6
  | relational => 7
  | shift => 8
  | additive => 9
  | multiplicative => 10
  | exponent => 11
  | unary => 12
  | trailing => 13
  | creation => 14
  | call => 15
  | primary => 16

theorem Level.rank_tighter (level : Level) : level.rank ≤ level.tighter.rank := by
  cases level <;> decide

theorem Level.rank_lt_tighter {level : Level} (h : level.repeats) :
    level.rank < level.tighter.rank := by
  cases level <;> first | decide | cases h

/-- The lexemes cannot continue an expression of the level. -/
def Closes (level : Level) (rest : List Lexeme) : Prop :=
  ∀ l ∈ rest.head?, ∀ s, l.token = .symbol s → ∀ l', s.attachment? = some l' → l'.rank < level.rank

namespace Closes

variable {level : Level} {rest : List Lexeme}

theorem mono {tighter : Level} (h : Closes level rest) (hl : level.rank ≤ tighter.rank) :
    Closes tighter rest :=
  fun l hr s hs l' ha => Nat.lt_of_lt_of_le (h l hr s hs l' ha) hl

theorem cons {s : Symbol} {line : Nat} {ts : List Lexeme}
    (h : ∀ l', s.attachment? = some l' → l'.rank < level.rank) :
    Closes level (⟨.symbol s, line⟩ :: ts) := by
  rintro l hl t ht
  obtain rfl := Option.some.inj hl
  obtain rfl := Token.symbol.inj ht
  exact h

theorem cons_detached {s : Symbol} {line : Nat} {ts : List Lexeme} (h : s.attachment? = none) :
    Closes level (⟨.symbol s, line⟩ :: ts) :=
  cons fun l' ha => by rw [h] at ha; cases ha

theorem take?_run {α : Type} {select : Token → Option α} (h : Closes level rest)
    (hs : ∀ t a, select t = some a →
      ∃ s l', t = .symbol s ∧ s.attachment? = some l' ∧ level.rank ≤ l'.rank) :
    Parse.take? select rest = .ok (none, rest) := by
  cases rest with
  | nil => rfl
  | cons l ts =>
    rw [Parse.take?_cons]
    split
    · next a ha =>
      obtain ⟨s, l', hl, hs, hle⟩ := hs _ _ ha
      exact absurd (h l rfl s hl l' hs) (Nat.not_lt.mpr hle)
    · rfl

theorem ofSymbol_run {α : Type} (h : Closes level rest) (select : Symbol → Option α)
    (hs : ∀ s a, select s = some a → ∃ l', s.attachment? = some l' ∧ level.rank ≤ l'.rank) :
    Parse.take? (Parse.ofSymbol select) rest = .ok (none, rest) := by
  refine h.take?_run fun t a ht => ?_
  obtain ⟨s, rfl, ha⟩ := Parse.ofSymbol_eq_some.mp ht
  obtain ⟨l', hl, hle⟩ := hs s a ha
  exact ⟨s, l', rfl, hl, hle⟩

end Closes

def Token.opens? : Token → Option Level
  | integer _ | real _ | text _ | boolean _ | keyword .null | keyword .this | keyword .function
  | keyword .«class» | name _ | symbol .leftParen | symbol .leftBracket | symbol .leftBrace =>
    some .primary
  | keyword .new => some .creation
  | symbol .minus | symbol .plus | symbol .bang | symbol .tilde | symbol .plusPlus
  | symbol .minusMinus => some .unary
  | _ => none

theorem Symbol.opens?_of_unary? {s : Symbol} {op : UnaryOp} (h : s.unary? = some op) :
    (Token.symbol s).opens? = some .unary := by
  cases s <;> cases h <;> rfl

def Opens (level : Level) (ts : List Lexeme) : Prop :=
  ∃ l us l', ts = l :: us ∧ l.token.opens? = some l' ∧ level.rank ≤ l'.rank

namespace Opens

variable {level : Level} {ts : List Lexeme}

theorem loosen {looser : Level} (h : Opens level ts) (hl : looser.rank ≤ level.rank) :
    Opens looser ts := by
  obtain ⟨l, us, l', rfl, ho, hle⟩ := h
  exact ⟨l, us, l', rfl, ho, Nat.le_trans hl hle⟩

theorem append (h : Opens level ts) (us : List Lexeme) : Opens level (ts ++ us) := by
  obtain ⟨l, vs, l', rfl, ho, hle⟩ := h
  exact ⟨l, vs ++ us, l', rfl, ho, hle⟩

theorem take?_run {α : Type} {select : Token → Option α} (h : Opens level ts)
    (hs : ∀ t a, select t = some a → ∀ l', t.opens? = some l' → l'.rank < level.rank) :
    Parse.take? select ts = .ok (none, ts) := by
  obtain ⟨l, us, l', rfl, ho, hle⟩ := h
  rw [Parse.take?_cons]
  split
  · next a ha => exact absurd (hs _ a ha l' ho) (Nat.not_lt.mpr hle)
  · rfl

theorem accept_run {token : Token} (h : Opens level ts) (ht : token.opens? = none) :
    Parse.accept token ts = .ok (false, ts) := by
  refine Parse.bind_run (h.take?_run ?_)
  rintro t ⟨⟩ hs l' ho
  obtain rfl := Parse.only_eq_some.mp hs
  rw [ht] at ho
  cases ho

end Opens

theorem Derives.opens {ts : List Lexeme} {level : Level} {e : Expr}
    (h : Derives ts (.expr level e)) : Opens level ts := by
  generalize hp : Phrase.expr level e = phrase at h
  induction h generalizing level e with
  | descend hl h ih =>
    cases hp
    exact (ih rfl).loosen (Level.rank_tighter _)
  | chain hl hf hr ihf ihr =>
    cases hp
    exact ((ihf rfl).loosen (Level.rank_tighter _)).append _
  | assignName ht hr hv iht ihr =>
    cases hp
    exact ((iht rfl).loosen (Nat.zero_le _)).append _
  | assignProperty ht hr hv iht ihr =>
    cases hp
    exact ((iht rfl).loosen (Nat.zero_le _)).append _
  | power hb he ihb ihe =>
    cases hp
    exact ((ihb rfl).loosen (by decide)).append _
  | unary hs h ih =>
    cases hp
    exact ⟨_, _, _, rfl, Symbol.opens?_of_unary? (Symbol.unary?_eq_some.mpr hs), Nat.le_refl _⟩
  | trailing hs h ih =>
    cases hp
    exact ((ih rfl).loosen (by decide)).append _
  | creation h ih =>
    cases hp
    exact ⟨_, _, _, rfl, rfl, Nat.le_refl _⟩
  | @literal token line value ht =>
    cases hp
    subst ht
    exact ⟨_, _, .primary, rfl, by cases value <;> rfl, Nat.le_refl _⟩
  | name | this | group | array | object =>
    cases hp
    exact ⟨_, _, .primary, rfl, rfl, Nat.le_refl _⟩
  | done | join | arguments | named | computed | noSlots | emptySlot | slot | lastSlot | noEntries
  | entry | lastEntry => cases hp

def Attaches (level : Level) (ts : List Lexeme) : Prop :=
  ∀ rest, Closes level rest → Closes level.tighter (ts ++ rest)

namespace Attaches

variable {level : Level}

theorem nil (hl : level.repeats) : Attaches level [] :=
  fun _ hc => hc.mono (Nat.le_of_lt (Level.rank_lt_tighter hl))

theorem cons {s : Symbol} {line : Nat} {ts : List Lexeme} (hl : level.repeats)
    (h : s.attachment? = some level) : Attaches level (⟨.symbol s, line⟩ :: ts) := by
  intro rest _
  refine Closes.cons fun l' ha => ?_
  rw [h] at ha
  cases ha
  exact Level.rank_lt_tighter hl

theorem operator {op : Operator} {s : Symbol} {line : Nat} {ts : List Lexeme}
    (hl : op.level.repeats) (hs : s.spelling = op.spelling) :
    Attaches op.level (⟨.symbol s, line⟩ :: ts) :=
  cons hl (Level.attachment?_of_read? (Level.read?_eq_some.mpr ⟨rfl, hs⟩))

end Attaches

theorem Derives.attaches {level : Level} {ts : List Lexeme} {left e : Expr}
    (h : Derives ts (.rest level left e)) (hl : level.repeats) : Attaches level ts := by
  cases h with
  | done => exact .nil hl
  | join hs ho hr => exact .operator hl hs
  | arguments | named | computed => exact .cons hl rfl

end Scriptlet
