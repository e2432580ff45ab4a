import Scriptlet.Proofs.ParsedTrees

namespace Scriptlet

def Stmt.declares : Stmt → Bool
  | declare .. | function .. | classDecl .. => true
  | block .. | branch .. | loop .. | «return» .. | expr .. => false

def Expr.WellFormed : Expr → Prop
  | literal (.integer n) _ => 0 ≤ n.toInt
  | literal (.real x) _ => x.isNaN = false
  | call _ arguments _ => arguments.length ≤ maxArguments
  | trailing op _ _ => op = .step .increment ∨ op = .step .decrement
  | new e _ => e.isOperand
  | _ => True

def ClassMember.WellFormed : ClassMember → Prop
  | field .. => True
  | method _ decl => decl.name.isSome

def Stmt.WellFormed : Stmt → Prop
  | function decl => decl.name.isSome
  | classDecl decl => decl.name.isSome
  | branch _ yes no _ => yes.declares = false ∧ ∀ s ∈ no, s.declares = false
  | loop _ body _ => body.declares = false
  | block .. | declare .. | «return» .. | expr .. => True

def wellFormed : Check where
  expr := Expr.WellFormed
  function decl := decl.params.length ≤ maxArguments
  member := ClassMember.WellFormed
  stmt := Stmt.WellFormed

theorem Expr.Shaped.wellFormed {e : Expr} (h : e.Shaped) : e.WellFormed := by
  cases e with
  | literal value line =>
    cases value with
    | integer n => exact h
    | real x => exact h
    | null | boolean | text => trivial
  | trailing op operand line =>
    obtain ⟨s, rfl⟩ := h
    cases s with
    | increment => exact .inl rfl
    | decrement => exact .inr rfl
  | call => exact h
  | new => exact h
  | _ => trivial

theorem Stmt.declares_of_plain {s : Stmt} (h : s.plain) : s.declares = false := by
  cases s <;> simp_all [plain, declares]

theorem Stmt.Shaped.wellFormed {s : Stmt} (h : s.Shaped) : s.WellFormed := by
  -- What declares nothing is plain, and so are its arms and its body.
  cases s with
  | function decl => simpa [Shaped, declared?, plain, WellFormed] using h
  | classDecl decl => simpa [Shaped, declared?, plain, WellFormed] using h
  | branch condition yes no line =>
    have hplain : (branch condition yes no line).plain := by simpa [Shaped, declared?] using h
    cases no with
    | none =>
      rw [plain] at hplain
      exact ⟨declares_of_plain hplain, by simp⟩
    | some other =>
      rw [plain, Bool.and_eq_true] at hplain
      refine ⟨declares_of_plain hplain.1, ?_⟩
      rintro _ ⟨⟩
      exact declares_of_plain hplain.2
  | loop condition body line =>
    have hplain : (loop condition body line).plain := by simpa [Shaped, declared?] using h
    rw [plain] at hplain
    exact declares_of_plain hplain
  | block | declare | «return» | expr => trivial

theorem shaped_wellFormed : shaped.Implies wellFormed where
  expr _ h := h.wellFormed
  function _ h := h
  member m h := by
    cases m with
    | field => trivial
    | method => exact h
  stmt _ h := h.wellFormed

theorem parse_wellFormed {source : String} {program : List Stmt} (h : parse source = .ok program) :
    everyStmt wellFormed program :=
  everyStmt_mono shaped_wellFormed program (parse_every h)

def countedDown : List Stmt :=
  let created : Expr :=
    .new (.read (.call (.name "C" 1) [some (.literal (.integer 1) 1)] 1) (.named "m") 1) 1
  let target : Expr := .read (.name "n" 1) (.named "x") 1
  let body : Stmt := .expr (.write (.name "n" 1) (.named "x")
    (.binary (.arithmetic .add) target (.unary .negate created 1) 1) 1) 1
  [.doWhile body (.trailing (.step .decrement) (.name "n" 1) 1) 1]

def countedDownTokens : List Token :=
  [.keyword .«do», .name "n", .symbol .dot, .name "x", .symbol .plusAssign, .symbol .minus,
    .keyword .new, .name "C", .symbol .leftParen, .integer 1, .symbol .rightParen, .symbol .dot,
    .name "m", .symbol .semicolon, .keyword .«while», .symbol .leftParen, .name "n",
    .symbol .minusMinus, .symbol .rightParen, .symbol .semicolon]

set_option maxRecDepth 1000 in
theorem parse_countedDown : parse "do n.x += -new C(1).m; while (n--);" = .ok countedDown := by
  have hscan : Scan.tokens "do n.x += -new C(1).m; while (n--);" =
      .ok (countedDownTokens.map (⟨·, 1⟩)) := ok_of_toOption (by decide +kernel)
  rw [parse, hscan]
  rfl

theorem parse_wellFormed_countedDown :
    parse "do n.x += -new C(1).m; while (n--);" = .ok countedDown ∧ everyStmt wellFormed countedDown :=
  ⟨parse_countedDown, parse_wellFormed parse_countedDown⟩

end Scriptlet
