import Mathlib
import Scriptlet.Proofs.TokenScanning

namespace Scriptlet

namespace Token

def reserved : List String := ["true", "false"] ++ Keyword.all.map Keyword.spelling

def IsName (s : String) : Prop :=
  ∃ c cs, s.toList = c :: cs ∧ Scan.startsWord c ∧ ∀ d ∈ cs, Scan.continuesWord d

def IsDecimal (text : List Char) (x : Float) : Prop :=
  ∃ whole fraction, text = whole ++ '.' :: fraction ∧
    whole ≠ [] ∧ (∀ d ∈ whole, d.isDigit) ∧ fraction ≠ [] ∧ (∀ d ∈ fraction, d.isDigit) ∧
    Float.ofScientific (Scan.digitsValue (whole ++ fraction)) true fraction.length = x

def Spellable : Token → Prop
  | integer n => 0 ≤ n.toInt
  | real x => IsDecimal (Number.Style.literal.write x).toList x
  | text s => '\'' ∉ s.toList
  | name s => IsName s ∧ s ∉ reserved
  | boolean _ | keyword _ | symbol _ => True

theorem ofWord_of_not_reserved {s : String} (h : s ∉ reserved) : ofWord s = name s := by
  simp only [reserved, List.mem_append, List.mem_cons, List.not_mem_nil, or_false, List.mem_map,
    not_or, not_exists, not_and] at h
  obtain ⟨⟨htrue, hfalse⟩, hkeyword⟩ := h
  have hnone : (Keyword.all.find? fun k => k.pattern = s) = none := by
    rw [List.find?_eq_none]
    intro k hk
    rw [decide_eq_true_eq, k.pattern_eq]
    exact hkeyword k hk
  rw [ofWord, if_neg htrue, if_neg hfalse, hnone]

theorem IsDecimal.breaks {text : List Char} {x : Float} (h : IsDecimal text x) :
    Scan.breaks text = 0 := by
  obtain ⟨whole, fraction, rfl, -, hw, -, hf, -⟩ := h
  refine List.count_eq_zero.mpr fun hmem => ?_
  rcases List.mem_append.mp hmem with hmem | hmem
  · exact absurd (hw _ hmem) (by decide)
  · rcases List.mem_cons.mp hmem with h | hmem
    · exact absurd h (by decide)
    · exact absurd (hf _ hmem) (by decide)

theorem IsDecimal.scans {text : List Char} {x : Float} (h : IsDecimal text x) :
    Scan.lexemes 1 text = .ok [⟨.real x, 1⟩] := by
  have hbreaks := h.breaks
  obtain ⟨whole, fraction, rfl, hwhole, hw, hfraction, hf, hx⟩ := h
  obtain ⟨c, cs, rfl⟩ := List.exists_cons_of_ne_nil hwhole
  have hend : ∀ d ∈ ([] : List Char).head?, d.isDigit = false := by simp
  have hstep := Scan.step_real hw hf hfraction hend
  rw [List.append_nil, Scan.realPiece, hx] at hstep
  rw [List.cons_append, Scan.lexemes_cons, hstep]
  dsimp only
  rw [hbreaks, Scan.lexemes]
  rfl

theorem Spellable.legible {t : Token} (h : t.Spellable) : t.Legible := by
  cases t with
  | integer n => exact h
  | text s => exact h
  | name s =>
    obtain ⟨⟨c, cs, hs, hc, hcs⟩, hreserved⟩ := h
    exact ⟨c, cs, hs, hc, hcs, ofWord_of_not_reserved hreserved⟩
  | real x => exact IsDecimal.scans h
  | boolean | keyword | symbol => trivial

theorem ends_space (t : Token) (rest : List Char) : t.Ends (' ' :: rest) := by
  cases t with
  | symbol s =>
    rintro _ ⟨⟩
    cases s <;> decide
  | text => trivial
  | integer =>
    rintro _ ⟨⟩
    exact ⟨by decide, fun h => absurd h (by decide)⟩
  | real | boolean | keyword | name =>
    rintro _ ⟨⟩
    decide

theorem ends_nil (t : Token) : t.Ends [] := by
  cases t <;> first | trivial | simp [Ends]

def spaced (ts : List Token) : String := " ".intercalate (ts.map spelling)

theorem toList_spaced_cons (t t' : Token) (ts : List Token) :
    (spaced (t :: t' :: ts)).toList = t.spelling.toList ++ ' ' :: (spaced (t' :: ts)).toList := by
  simp [spaced, String.intercalate_cons_cons]

end Token

namespace Scan

theorem lexemes_spaced {ts : List Token} (h : ∀ t ∈ ts, t.Spellable) (line : Nat) :
    ∃ found, lexemes line (Token.spaced ts).toList = .ok found ∧ found.map Lexeme.token = ts := by
  -- By induction on the tokens, for every line: a text with line breaks moves on the lines of what follows.
  induction ts generalizing line with
  | nil =>
    refine ⟨[], ?_, rfl⟩
    rw [Token.spaced, List.map_nil, String.intercalate_nil]
    exact lexemes.eq_def line []
  | cons t ts ih =>
    have ht := (h t List.mem_cons_self).legible
    cases ts with
    | nil =>
      have hone : (Token.spaced [t]).toList = t.spelling.toList ++ [] := by
        simp [Token.spaced]
      refine ⟨[⟨t, line + breaks t.spelling.toList⟩], ?_, rfl⟩
      rw [hone, lexemes_token ht t.ends_nil, lexemes]
      rfl
    | cons t' ts =>
      have hrest : ∀ t ∈ t' :: ts, t.Spellable := fun t hmem => h t (List.mem_cons_of_mem _ hmem)
      obtain ⟨found, hfound, htokens⟩ := ih hrest (line + breaks t.spelling.toList)
      refine ⟨⟨t, line + breaks t.spelling.toList⟩ :: found, ?_, congrArg (t :: ·) htokens⟩
      rw [Token.toList_spaced_cons, lexemes_token ht (t.ends_space _), lexemes_space, hfound]
      rfl

/-- The texts of spellable tokens, joined by single spaces, are scanned as exactly those tokens. -/
theorem tokens_spaced {ts : List Token} (h : ∀ t ∈ ts, t.Spellable) :
    ∃ found, tokens (Token.spaced ts) = .ok found ∧ found.map Lexeme.token = ts :=
  lexemes_spaced h 1

def mixedTokens : List Token :=
  [.keyword .var, .name "$变量", .symbol .assign, .symbol .slash, .symbol .star, .text "/* \"\n",
    .integer 42, .symbol .dot, .real (.ofScientific 15 true 1), .boolean true]

theorem tokens_spaced_mixed :
    ∃ found, tokens (Token.spaced mixedTokens) = .ok found ∧ found.map Lexeme.token = mixedTokens := by
  have hname : (Token.name "$变量").Spellable :=
    ⟨⟨'$', ['变', '量'], rfl, by decide, List.all_eq_true.mp (by decide +kernel)⟩, by decide⟩
  have htext : '\'' ∉ "/* \"\n".toList := by decide
  have hinteger : (0 : Int) ≤ (42 : Int64).toInt := by decide
  have hreal : (Token.real (.ofScientific 15 true 1)).Spellable :=
    ⟨['1'], ['5'], by decide +kernel, by decide, List.all_eq_true.mp rfl, by decide,
      List.all_eq_true.mp rfl, rfl⟩
  refine tokens_spaced ?_
  simp only [mixedTokens, List.forall_mem_cons, List.not_mem_nil, false_implies, implies_true, and_true]
  exact ⟨trivial, hname, trivial, trivial, trivial, htext, hinteger, trivial, hreal, trivial⟩

end Scan

end Scriptlet
