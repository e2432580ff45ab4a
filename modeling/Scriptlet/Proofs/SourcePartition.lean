import Scriptlet.Proofs.TokenPatterns

namespace Scriptlet.Scan

inductive Gap (rest : List Char) : List Char → Prop
  | nil : Gap rest []
  | cons {a b : List Char} (ha : Skips (b ++ rest) a) (hb : Gap rest b) : Gap rest (a ++ b)

structure Part where
  gap : List Char
  text : List Char
  lexeme : Lexeme

def Part.source (p : Part) : List Char := p.gap ++ p.text

def written (parts : List Part) : List Char := parts.flatMap Part.source

inductive Fits (after : List Char) : List Char → List Part → Prop
  | nil {before : List Char} : Fits after before []
  | cons {before : List Char} {p : Part} {ps : List Part}
    (hgap : Gap (p.text ++ (written ps ++ after)) p.gap)
    (hreads : Reads (written ps ++ after) p.text p.lexeme.token)
    (hline : p.lexeme.line = 1 + breaks (before ++ p.source)) (hps : Fits after (before ++ p.source) ps) :
    Fits after before (p :: ps)

/-- The text after `before` is cut into parts and a last gap, in front of `rest`. -/
structure Divides (before text : List Char) (parts : List Part) (gap rest : List Char) : Prop where
  text_eq : written parts ++ (gap ++ rest) = text
  parts : Fits (gap ++ rest) before parts
  gap : Gap rest gap

/-- What scanning a text after `before` gives: the tokens of all its parts, or an error on the line
where the offence begins. -/
inductive Partitioned (before text : List Char) : Except SyntaxError (List Lexeme) → Prop
  | tokens {parts : List Part} {gap : List Char} {ts : List Lexeme}
    (h : Divides before text parts gap []) (hts : parts.map Part.lexeme = ts) :
    Partitioned before text (.ok ts)
  | error {parts : List Part} {gap offence rest : List Char} {cause : SyntaxError.Cause} {line : Nat}
    (h : Divides before text parts gap (offence ++ rest)) (ho : Offends rest offence cause)
    (hline : line = 1 + breaks (before ++ (written parts ++ gap))) :
    Partitioned before text (.error ⟨cause, line⟩)

theorem breaks_append (a b : List Char) : breaks (a ++ b) = breaks a + breaks b := List.count_append

theorem written_cons (p : Part) (ps : List Part) : written (p :: ps) = p.source ++ written ps := rfl

section

variable {before a rest gap tail : List Char} {parts : List Part}

theorem Divides.token {t : Token} {line : Nat} (ha : Reads rest a t) (hline : line = 1 + breaks (before ++ a))
    (h : Divides (before ++ a) rest parts gap tail) :
    Divides before (a ++ rest) (⟨[], a, ⟨t, line⟩⟩ :: parts) gap tail := by
  obtain ⟨rfl, hparts, hgap⟩ := h
  constructor
  · rw [written_cons, List.append_assoc]
    rfl
  · exact .cons .nil ha hline hparts
  · exact hgap

theorem Divides.skip (ha : Skips rest a) (h : Divides (before ++ a) rest parts gap tail) :
    ∃ parts' gap', Divides before (a ++ rest) parts' gap' tail ∧
      parts'.map Part.lexeme = parts.map Part.lexeme ∧
      written parts' ++ gap' = a ++ (written parts ++ gap) := by
  obtain ⟨rfl, hparts, hgap⟩ := h
  cases hparts with
  | nil =>
    refine ⟨[], a ++ gap, ⟨?_, .nil, .cons ha hgap⟩, rfl, rfl⟩
    exact List.append_assoc a gap tail
  | @cons _ p ps hgap' hreads hline hps =>
    have hsource : before ++ Part.source ⟨a ++ p.gap, p.text, p.lexeme⟩ = before ++ a ++ p.source := by
      simp only [Part.source, List.append_assoc]
    refine ⟨⟨a ++ p.gap, p.text, p.lexeme⟩ :: ps, gap, ⟨?_, .cons ?_ hreads ?_ ?_, hgap⟩, rfl, ?_⟩
    · simp only [written_cons, Part.source, List.append_assoc]
    · refine .cons ?_ hgap'
      simpa only [written_cons, Part.source, List.append_assoc] using ha
    · rw [hsource]
      exact hline
    · rw [hsource]
      exact hps
    · simp only [written_cons, Part.source, List.append_assoc]

variable {r : Except SyntaxError (List Lexeme)}

theorem Partitioned.token {t : Token} {line : Nat} (ha : Reads rest a t)
    (hline : line = 1 + breaks (before ++ a)) (h : Partitioned (before ++ a) rest r) :
    Partitioned before (a ++ rest) ((⟨t, line⟩ :: ·) <$> r) := by
  cases h with
  | tokens h hts => exact .tokens (h.token ha hline) (congrArg _ hts)
  | error h ho herror =>
    refine .error (h.token ha hline) ho ?_
    rw [herror, List.append_assoc before, ← List.append_assoc a]
    rfl

theorem Partitioned.skip (ha : Skips rest a) (h : Partitioned (before ++ a) rest r) :
    Partitioned before (a ++ rest) r := by
  cases h with
  | tokens h hts =>
    obtain ⟨parts, gap, h, hlexemes, -⟩ := h.skip ha
    exact .tokens h (hlexemes.trans hts)
  | error h ho herror =>
    obtain ⟨parts, gap, h, -, hwritten⟩ := h.skip ha
    refine .error h ho ?_
    rw [herror, hwritten, List.append_assoc]

theorem Partitioned.fault {cause : SyntaxError.Cause} {line : Nat} (ha : Offends rest a cause)
    (hline : line = 1 + breaks before) : Partitioned before (a ++ rest) (.error ⟨cause, line⟩) := by
  refine .error ⟨rfl, .nil, .nil⟩ ha ?_
  rw [hline]
  simp [written]

end

theorem lexemes_partitioned (line : Nat) (text : List Char) :
    ∀ before, line = 1 + breaks before → Partitioned before text (lexemes line text) := by
  -- On the steps of the scan; the line is the one `before` ends on, whatever stands there.
  induction line, text using lexemes.induct with
  | case1 line =>
    intro before hline
    rw [lexemes]
    exact .tokens ⟨rfl, .nil, .nil⟩ rfl
  | case2 line c tail s next t hs ih =>
    intro before hline
    have hnext : next = 1 + breaks (before ++ s.covered) := by
      rw [breaks_append, ← Nat.add_assoc, ← hline]
    have hstands : s.piece.Stands s.rest s.covered := step_stands c tail
    rw [lexemes, hs, ← (step_cuts c tail).1]
    rw [hs] at hstands
    cases hstands with
    | token hreads => exact (ih _ hnext).token hreads hnext
  | case3 line c tail s next hs ih =>
    intro before hline
    have hnext : next = 1 + breaks (before ++ s.covered) := by
      rw [breaks_append, ← Nat.add_assoc, ← hline]
    have hstands : s.piece.Stands s.rest s.covered := step_stands c tail
    rw [lexemes, hs, ← (step_cuts c tail).1]
    rw [hs] at hstands
    cases hstands with
    | gap hskips => exact (ih _ hnext).skip hskips
  | case4 line c tail s cause hs =>
    intro before hline
    have hstands : s.piece.Stands s.rest s.covered := step_stands c tail
    rw [lexemes, hs, ← (step_cuts c tail).1]
    rw [hs] at hstands
    cases hstands with
    | fault hoffends => exact .fault hoffends hline

def IsLine (text : List Char) (line : Nat) : Prop := 1 ≤ line ∧ line ≤ 1 + breaks text

theorem isLine_of_append (a b : List Char) : IsLine (a ++ b) (1 + breaks a) := by
  refine ⟨Nat.le_add_right .., ?_⟩
  rw [breaks_append]
  omega

theorem Fits.isLine {before after : List Char} {parts : List Part} (h : Fits after before parts) :
    ∀ p ∈ parts, IsLine (before ++ written parts) p.lexeme.line := by
  induction h with
  | nil =>
    intro p hp
    cases hp
  | @cons before p ps _ _ hline _ ih =>
    rw [written_cons, ← List.append_assoc]
    intro q hq
    obtain rfl | hq := List.mem_cons.mp hq
    · rw [hline]
      exact isLine_of_append ..
    · exact ih q hq

theorem Divides.isLine {text gap rest : List Char} {parts : List Part}
    (h : Divides [] text parts gap rest) :
    (∀ p ∈ parts, IsLine text p.lexeme.line) ∧ IsLine text (1 + breaks (written parts ++ gap)) := by
  obtain ⟨rfl, hparts, -⟩ := h
  constructor
  · intro p hp
    obtain ⟨hpos, hle⟩ := hparts.isLine p hp
    rw [List.nil_append] at hle
    refine ⟨hpos, hle.trans ?_⟩
    rw [breaks_append]
    omega
  · rw [← List.append_assoc]
    exact isLine_of_append ..

theorem Partitioned.isLine {text : List Char} {r : Except SyntaxError (List Lexeme)}
    (h : Partitioned [] text r) :
    (∀ ts, r = .ok ts → ∀ l ∈ ts, IsLine text l.line) ∧ ∀ e, r = .error e → IsLine text e.line := by
  cases h with
  | tokens h hts =>
    constructor
    · rintro ts ⟨⟩ l hl
      rw [← hts] at hl
      obtain ⟨p, hp, rfl⟩ := List.mem_map.mp hl
      exact h.isLine.1 p hp
    · intro e he
      cases he
  | error h ho hline =>
    constructor
    · intro ts hts
      cases hts
    · rintro e ⟨⟩
      rw [hline]
      exact h.isLine.2

end Scriptlet.Scan
