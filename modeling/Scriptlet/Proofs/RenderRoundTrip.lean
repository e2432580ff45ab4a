import Mathlib
import Scriptlet.Proofs.ParsedTrees
import Scriptlet.Proofs.RereadTrees

/-!
Parsing the text of a program gives the program back, so the text says which program it is.
-/

namespace Scriptlet

/-- The source has no text literals, and its float literals are read back from how they are written. -/
def PlainSource (source : String) : Prop :=
  ∀ ts, Scan.tokens source = .ok ts → ∀ l ∈ ts, (∀ s, l.token ≠ .text s) ∧
    ∀ x, l.token = .real x → Scan.tokens (Number.Style.literal.write x) = .ok [⟨.real x, 1⟩]

def Token.compounds : Token → Bool
  | symbol s => s.assignment?.any (· ≠ .plain)
  | _ => false

def NoCompounds (source : String) : Prop :=
  ∀ ts, Scan.tokens source = .ok ts → ∀ l ∈ ts, l.token.compounds = false

theorem PlainSource.of_tokens {source : String} {ts : List Lexeme} (hscan : Scan.tokens source = .ok ts)
    (h : ∀ l ∈ ts, (∀ s, l.token ≠ .text s) ∧
      ∀ x, l.token = .real x → Scan.tokens (Number.Style.literal.write x) = .ok [⟨.real x, 1⟩]) :
    PlainSource source := by
  intro ts' hts
  obtain rfl := Except.ok.inj (hscan.symm.trans hts)
  exact h

theorem tokens_renderBody {body : List Stmt} (h : everyStmt faithful body) :
    Scan.tokens (renderBody body) = .ok (lexed (bodyTokens body)) := by
  have hscans : Scans (renderBody body) (bodyTokens body) [] := body_scans body h
  unfold Scans at hscans
  rw [List.append_nil] at hscans
  have hend : Scan.lexemes 1 [] = .ok [] := by rw [Scan.lexemes]
  rw [Scan.tokens, hscans, hend]
  change Except.ok (lexed (bodyTokens body) ++ []) = _
  rw [List.append_nil]

theorem parse_renderBody {body : List Stmt} (h : everyStmt faithful body) :
    ∃ body', parse (renderBody body) = .ok body' ∧ erased body' = erased body := by
  obtain ⟨body', heq, hreads, -⟩ := program_reread body h
  refine ⟨body', ?_, heq⟩
  rw [parse, tokens_renderBody h]
  exact hreads.program

theorem Token.compounds_of_assignment {s : Symbol} {op : Operator}
    (h : s.assignment? = some op.assignment) : (symbol s).compounds := by
  rw [compounds, h]
  cases op <;> rfl

theorem fitted_of_built : (built fun l => l.token.compounds = false).Implies fitted where
  expr e h := by
    have joins {op : Operator} {left right : Expr}
        (h : op.Built (fun l => l.token.compounds = false) left right) : op.Joins left right := by
      obtain h | ⟨s, line, hs, hop⟩ := h
      · exact h
      · exact absurd (Token.compounds_of_assignment hop) (by rw [hs]; exact Bool.false_ne_true)
    cases e with
    | binary | logical => exact joins h
    | _ => trivial
  function _ _ := trivial
  member _ _ := trivial
  stmt _ _ := trivial

theorem parse_fitted {source : String} {program : List Stmt} (h : parse source = .ok program)
    (hcompound : NoCompounds source) : everyStmt fitted program := by
  obtain ⟨ts, hscan⟩ := parse_scans h
  exact everyStmt_mono fitted_of_built _ (parse_builds hscan (hcompound ts hscan) h)

theorem parse_faithful {source : String} {program : List Stmt} (h : parse source = .ok program)
    (hplain : PlainSource source) (hclear : everyStmt unambiguous program)
    (hfits : everyStmt fitted program) : everyStmt faithful program := by
  obtain ⟨ts, hscan⟩ := parse_scans h
  have hts : ∀ l ∈ ts, l.Plain := fun l hl =>
    ⟨Scan.tokens_legible hscan (fun l hl => (hplain ts hscan l hl).2)
      (fun l hl => (hplain ts hscan l hl).1) l hl, (hplain ts hscan l hl).1⟩
  have hboth : everyStmt (unambiguous.and fitted) program :=
    everyStmt_zip .refl program hclear hfits
  exact everyStmt_zip .refl program (parse_builds hscan hts h) hboth

theorem parse_render {source : String} {program : List Stmt} (hparse : parse source = .ok program)
    (hplain : PlainSource source) (hcompound : NoCompounds source)
    (hclear : everyStmt unambiguous program) :
    ∃ program', parse (renderBody program) = .ok program' ∧ erased program' = erased program :=
  parse_renderBody (parse_faithful hparse hplain hclear (parse_fitted hparse hcompound))

def scalingTokens : List Token :=
  [.keyword .«while», .symbol .leftParen, .name "x", .symbol .rightParen, .name "x", .symbol .assign,
    .real (.ofScientific 15 true 1), .symbol .star, .symbol .minus, .name "f", .symbol .leftParen,
    .symbol .leftBracket, .integer 1, .symbol .comma, .symbol .comma, .name "x",
    .symbol .rightBracket, .symbol .rightParen, .symbol .semicolon]

def scaledCall : Expr :=
  .call (.name "f" 1) [some (.array [some (.literal (.integer 1) 1), none, some (.name "x" 1)] 1)] 1

def scaled : Expr :=
  .binary (.arithmetic .mul) (.literal (.real (.ofScientific 15 true 1)) 1)
    (.unary .negate scaledCall 1) 1

def scaling : List Stmt := [.loop (.name "x" 1) (.expr (.assign "x" scaled 1) 1) 1]

set_option maxRecDepth 1000 in
theorem parse_render_scaling :
    parse "while(x)x=1.5*-f([1,,x]);" = .ok scaling ∧
      ∃ program', parse (renderBody scaling) = .ok program' ∧ erased program' = erased scaling := by
  have hscan : Scan.tokens "while(x)x=1.5*-f([1,,x]);" = .ok (lexed scalingTokens) :=
    ok_of_toOption (by decide +kernel)
  have hreal : Scan.tokens (Number.Style.literal.write (.ofScientific 15 true 1)) =
      .ok [⟨.real (.ofScientific 15 true 1), 1⟩] := ok_of_toOption (by decide +kernel)
  have hparse : parse "while(x)x=1.5*-f([1,,x]);" = .ok scaling := by
    rw [parse, hscan]
    rfl
  have hplain := PlainSource.of_tokens hscan (by simp [scalingTokens, hreal])
  refine ⟨hparse, parse_render hparse hplain ?_ ?_⟩
  · intro ts hts
    obtain rfl := Except.ok.inj (hscan.symm.trans hts)
    decide
  · have hlead : ∀ lead ∈ ["\x7b", "function ", "class "],
        ¬ lead.toList <+: (Expr.assign "x" scaled 1).render.toList := by decide +kernel
    have htimes : ¬ SignsMeet "*" (.unary .negate scaledCall 1) := by decide
    have hsign : ¬ SignsMeet "-" scaledCall := by decide
    exact ⟨⟨trivial, trivial, hlead, trivial, htimes, trivial, hsign, ⟨nofun, trivial,
      ⟨⟨nofun, trivial, trivial, trivial⟩, trivial⟩⟩⟩, trivial⟩

theorem erased_eq_of_render_eq {source source' : String} {program program' : List Stmt}
    (hparse : parse source = .ok program) (hparse' : parse source' = .ok program')
    (hplain : PlainSource source) (hplain' : PlainSource source')
    (hclear : everyStmt unambiguous program) (hclear' : everyStmt unambiguous program')
    (hfits : everyStmt fitted program) (hfits' : everyStmt fitted program')
    (hrender : renderBody program = renderBody program') : erased program = erased program' := by
  obtain ⟨reread, hrun, heq⟩ := parse_renderBody (parse_faithful hparse hplain hclear hfits)
  obtain ⟨reread', hrun', heq'⟩ := parse_renderBody (parse_faithful hparse' hplain' hclear' hfits')
  rw [hrender, hrun'] at hrun
  rw [← heq, ← Except.ok.inj hrun, heq']

def product (l : Nat) : List Stmt :=
  [.expr (.assign "a" (.binary (.arithmetic .mul) (.name "a" l) (.name "b" l) l) 1) 1]

theorem erased_eq_of_render_eq_product :
    parse "a *= b;" = .ok (product 1) ∧ parse "a =\na * b;" = .ok (product 2) ∧
      erased (product 1) = erased (product 2) := by
  have hscan : Scan.tokens "a *= b;" =
      .ok (lexed [.name "a", .symbol .starAssign, .name "b", .symbol .semicolon]) := by cbv
  have hscan' : Scan.tokens "a =\na * b;" = .ok [⟨.name "a", 1⟩, ⟨.symbol .assign, 1⟩, ⟨.name "a", 2⟩,
      ⟨.symbol .star, 2⟩, ⟨.name "b", 2⟩, ⟨.symbol .semicolon, 2⟩] := by cbv
  have hparse : parse "a *= b;" = .ok (product 1) := by
    rw [parse, hscan]
    rfl
  have hparse' : parse "a =\na * b;" = .ok (product 2) := by
    rw [parse, hscan']
    rfl
  have hplain := PlainSource.of_tokens hscan (by simp)
  have hplain' := PlainSource.of_tokens hscan' (by simp)
  have hlead : ∀ l ∈ [1, 2], ∀ lead ∈ ["\x7b", "function ", "class "], ¬ lead.toList <+:
      (Expr.assign "a" (.binary (.arithmetic .mul) (.name "a" l) (.name "b" l) l) 1).render.toList := by
    decide
  have hsign : ∀ l ∈ [1, 2], ¬ SignsMeet "*" (.name "b" l) := by decide
  have hclear (l : Nat) (hl : l ∈ [1, 2]) : everyStmt unambiguous (product l) :=
    ⟨⟨hlead l hl, trivial, hsign l hl, trivial, trivial⟩, trivial⟩
  have hfits (l : Nat) : everyStmt fitted (product l) :=
    ⟨⟨trivial, trivial, ⟨Nat.le_of_ble_eq_true rfl, Nat.le_of_ble_eq_true rfl⟩, trivial, trivial⟩, trivial⟩
  exact ⟨hparse, hparse', erased_eq_of_render_eq hparse hparse' hplain hplain' (hclear 1 (by decide))
    (hclear 2 (by decide)) (hfits 1) (hfits 2) rfl⟩

/-- The sum that an assignment such as `*=` multiplies by loses its bounds in the text. -/
theorem compound_renderings_collide :
    ∃ program program', parse "a *= b + c;" = .ok program ∧ parse "a = a * b + c;" = .ok program' ∧
      PlainSource "a *= b + c;" ∧ PlainSource "a = a * b + c;" ∧
      renderBody program = renderBody program' ∧ erased program ≠ erased program' := by
  have hscan : Scan.tokens "a *= b + c;" = .ok (lexed [.name "a", .symbol .starAssign, .name "b",
      .symbol .plus, .name "c", .symbol .semicolon]) := by cbv
  have hscan' : Scan.tokens "a = a * b + c;" = .ok (lexed [.name "a", .symbol .assign, .name "a",
      .symbol .star, .name "b", .symbol .plus, .name "c", .symbol .semicolon]) := by cbv
  refine ⟨[.expr (.assign "a" (.binary (.arithmetic .mul) (.name "a" 1)
      (.binary (.arithmetic .add) (.name "b" 1) (.name "c" 1) 1) 1) 1) 1],
    [.expr (.assign "a" (.binary (.arithmetic .add)
      (.binary (.arithmetic .mul) (.name "a" 1) (.name "b" 1) 1) (.name "c" 1) 1) 1) 1],
    ?_, ?_, .of_tokens hscan (by simp), .of_tokens hscan' (by simp), rfl, ?_⟩
  · rw [parse, hscan]
    rfl
  · rw [parse, hscan']
    rfl
  · intro h
    cases h

end Scriptlet
