import Scriptlet.Proofs.GrammarCompleteness

namespace Scriptlet

def Token.Continues (t : Token) : Prop :=
  ∃ s, t = .symbol s ∧
    ((∃ op : Operator, s.spelling = op.spelling ∨ op.compounds ∧ s.spelling = op.spelling ++ "=") ∨
      s.spelling ∈ ["=", "++", "--", "(", "[", "."])

theorem Symbol.reads_of_attachment? {s : Symbol} {level : Level} (h : s.attachment? = some level) :
    (∃ op, level.read? s = some op) ∨ (∃ op, s.assignment? = some op) ∨
      s.spelling ∈ ["++", "--", "(", "[", "."] := by
  cases s <;> cases h <;>
    first | exact .inl ⟨_, rfl⟩ | exact .inr (.inl ⟨_, rfl⟩) | exact .inr (.inr (by decide))

theorem Token.continues_of_attachment? {s : Symbol} {level : Level}
    (h : s.attachment? = some level) : (Token.symbol s).Continues := by
  refine ⟨s, rfl, ?_⟩
  obtain ⟨op, ho⟩ | ⟨op, ho⟩ | hs := Symbol.reads_of_attachment? h
  · exact .inl ⟨op, .inl (Level.read?_eq_some.mp ho).2⟩
  · cases op with
    | plain => exact .inr (by cases s <;> cases ho; decide)
    | binary op =>
      have ho : s.assignment? = some (Operator.binary op).assignment := ho
      exact .inl ⟨.binary op, .inr (Operator.compounds_of_assignment? ho)⟩
    | logical op =>
      have ho : s.assignment? = some (Operator.logical op).assignment := ho
      exact .inl ⟨.logical op, .inr (Operator.compounds_of_assignment? ho)⟩
  · exact .inr (List.mem_cons_of_mem _ hs)

theorem Closes.of_not_continues {level : Level} {rest : List Lexeme}
    (h : ∀ l ∈ rest.head?, ¬ l.token.Continues) : Closes level rest := by
  intro l hl s hs l' ha
  refine absurd ?_ (h l hl)
  rw [hs]
  exact Token.continues_of_attachment? ha

namespace Grammar

theorem expression_correct :
    (∀ ts e rest, (∀ l ∈ ts, l.NoDecl) → phrase .expression ts = .ok (e, rest) →
      ∃ used, ts = used ++ rest ∧ Derives used (.expr .assignment e)) ∧
    (∀ used e rest, Derives used (.expr .assignment e) → (∀ l ∈ rest.head?, ¬ l.token.Continues) →
      phrase .expression (used ++ rest) = .ok (e, rest)) := by
  constructor
  · intro ts e rest ht hr
    exact (nested_spells (ts.length + 1)).expression ht hr
  · intro used e rest hd hc
    exact hd.reads _ rest (Closes.of_not_continues hc) (Nat.le_of_eq List.length_append.symm)

def mixedLexemes : List Lexeme :=
  [.name "a", .symbol .dot, .name "b", .symbol .leftBracket, .integer 0, .symbol .rightBracket,
    .symbol .starStarAssign, .symbol .minus, .name "c", .symbol .andAnd, .name "f",
    .symbol .leftParen, .symbol .comma, .integer 1, .symbol .rightParen].map (⟨·, 1⟩)

def mixedTree : Expr :=
  let holder : Expr := .read (.name "a" 1) (.named "b") 1
  let key : Member := .computed (.literal (.integer 0) 1)
  let right : Expr := .logical .and (.unary .negate (.name "c" 1) 1)
    (.call (.name "f" 1) [none, some (.literal (.integer 1) 1)] 1) 1
  .write holder key (.binary (.arithmetic .pow) (.read holder key 1) right 1) 1

theorem expression_correct_mixed :
    (∃ used, mixedLexemes ++ [⟨.symbol .semicolon, 2⟩] = used ++ [⟨.symbol .semicolon, 2⟩] ∧
      Derives used (.expr .assignment mixedTree)) ∧
    phrase .expression (mixedLexemes ++ [⟨.symbol .semicolon, 3⟩]) =
      .ok (mixedTree, [⟨.symbol .semicolon, 3⟩]) := by
  have hsound := expression_correct.1 (mixedLexemes ++ [⟨.symbol .semicolon, 2⟩]) mixedTree
    [⟨.symbol .semicolon, 2⟩] (by decide) rfl
  refine ⟨hsound, ?_⟩
  obtain ⟨used, hu, hd⟩ := hsound
  obtain rfl := List.append_cancel_right hu
  refine expression_correct.2 mixedLexemes mixedTree _ hd ?_
  rintro l hl ⟨s, hs, hc⟩
  obtain rfl := Option.some.inj hl
  obtain rfl := Token.symbol.inj hs
  obtain ⟨op, ho⟩ | hc := hc
  · rcases op with (op | op | op | op) | op <;> revert ho <;> cases op <;> decide
  · exact absurd hc (by decide)

end Grammar
end Scriptlet
