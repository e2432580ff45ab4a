import Scriptlet.Proofs.FloatLiterals
import Scriptlet.Syntax.Tree

namespace Scriptlet

def Literal.Scanned : Literal → Prop
  | integer n => 0 ≤ n.toInt
  | real x => x.isNaN = false
  | _ => True

def Token.Scanned : Token → Prop
  | integer n => Literal.Scanned (.integer n)
  | real x => Literal.Scanned (.real x)
  | _ => True

def Lexeme.Scanned (l : Lexeme) : Prop := l.token.Scanned

theorem ok_of_toOption {ε α : Type} {r : Except ε α} {a : α} (h : r.toOption = some a) : r = .ok a := by
  cases r with
  | error e => cases h
  | ok b => exact congrArg Except.ok (Option.some.inj h)

namespace Scan

theorem integerPiece_eq (whole : List Char) :
    integerPiece whole = (Number.word? (digitsValue whole)).elim (.fault .integerTooLarge)
      fun n => .token (.integer n) := by
  -- The definition is opened as a function: applied to its argument it would be compared by computing
  -- with the bounds of a word.
  obtain ⟨f, hf⟩ : ∃ f, f = integerPiece := ⟨_, rfl⟩
  rw [← hf]
  delta integerPiece at hf
  rw [hf]
  dsimp only
  generalize Number.word? (digitsValue whole) = word
  cases word <;> rfl

theorem integerPiece_scanned {whole : List Char} {t : Token} (h : integerPiece whole = .token t) :
    t.Scanned := by
  rw [integerPiece_eq] at h
  cases hn : Number.word? (digitsValue whole) with
  | none =>
    rw [hn] at h
    cases h
  | some n =>
    rw [hn] at h
    cases h
    have hvalue := Number.toInt_of_word? hn
    change 0 ≤ n.toInt
    omega

theorem realPiece_scanned {whole fraction : List Char} {t : Token}
    (h : realPiece whole fraction = .token t) : t.Scanned := by
  obtain rfl := Piece.token.inj h
  exact FloatLiterals.isNaN_ofScientific

theorem ofWord_scanned (word : String) : (Token.ofWord word).Scanned := by
  unfold Token.ofWord
  split
  · trivial
  split
  · trivial
  split <;> trivial

theorem step_scanned {c : Char} {text : List Char} {t : Token} (h : (step c text).piece = .token t) :
    t.Scanned := by
  unfold step at h
  split at h
  · cases h
  split at h
  · unfold number at h
    dsimp only at h
    split at h
    · split at h
      · simp only at h
        exact integerPiece_scanned h
      · exact realPiece_scanned h
    · simp only at h
      exact integerPiece_scanned h
  split at h
  · obtain rfl := Piece.token.inj h
    exact ofWord_scanned _
  split at h
  · unfold quoted at h
    dsimp only at h
    split at h
    · cases h
    · obtain rfl := Piece.token.inj h
      trivial
  split at h
  · cases h
  · cases h
  · unfold symbol at h
    split at h
    · obtain rfl := Piece.token.inj h
      trivial
    · cases h

theorem lexemes_forall {P : Token → Prop}
    (hstep : ∀ c text t, (step c text).piece = .token t → P t) (line : Nat) (text : List Char) :
    ∀ ts, lexemes line text = .ok ts → ∀ l ∈ ts, P l.token := by
  induction line, text using lexemes.induct with
  | case1 line =>
    rintro ts h l hl
    rw [lexemes] at h
    obtain rfl := Except.ok.inj h
    cases hl
  | case2 line c tail s next token hs ih =>
    intro ts h
    rw [lexemes, hs] at h
    dsimp only at h
    cases hr : lexemes next s.rest with
    | error e =>
      rw [hr] at h
      cases h
    | ok rest =>
      rw [hr] at h
      obtain rfl := Except.ok.inj h
      intro l hl
      obtain rfl | hl := List.mem_cons.mp hl
      · exact hstep _ _ _ hs
      · exact ih rest hr l hl
  | case3 line c tail s next hs ih =>
    intro ts h
    rw [lexemes, hs] at h
    exact ih ts h
  | case4 line c tail s cause hs =>
    intro ts h
    rw [lexemes, hs] at h
    cases h

theorem tokens_scanned {source : String} {ts : List Lexeme} (h : tokens source = .ok ts) :
    ∀ l ∈ ts, l.Scanned :=
  lexemes_forall (fun _ _ _ => step_scanned) _ _ _ h

end Scan
end Scriptlet
