import Scriptlet.SyntaxError
import Scriptlet.Text.Letter

/-!
Scanning. The text is cut into pieces, each either a token or a gap between tokens; a token
carries the line on which it ends.
-/

namespace Scriptlet.Scan

open Text (isLetter)

inductive Piece
  | token (t : Token)
  | gap
  | fault (cause : SyntaxError.Cause)
  deriving DecidableEq, Repr

structure Step where
  piece : Piece
  covered : List Char
  rest : List Char
  deriving DecidableEq, Repr

def isSpace (c : Char) : Bool := c = ' ' || c = '\t' || c = '\r' || c = '\n' || c = '\x0c'

def startsWord (c : Char) : Bool := isLetter c || c = '_' || c = '$' || c = '#'

def continuesWord (c : Char) : Bool := startsWord c || c.isDigit

def digitsValue (digits : List Char) : Nat :=
  digits.foldl (fun n c => 10 * n + (c.toNat - 48)) 0

def integerPiece (whole : List Char) : Piece :=
  match Number.word? (digitsValue whole) with
  | some n => .token (.integer n)
  | none => .fault .integerTooLarge

def realPiece (whole fraction : List Char) : Piece :=
  .token (.real (.ofScientific (digitsValue (whole ++ fraction)) true fraction.length))

def number (text : List Char) : Step :=
  let whole := text.takeWhile Char.isDigit
  match text.dropWhile Char.isDigit with
  | '.' :: tail =>
    let fraction := tail.takeWhile Char.isDigit
    if fraction.isEmpty then ⟨integerPiece whole, whole, '.' :: tail⟩
    else ⟨realPiece whole fraction, whole ++ '.' :: fraction, tail.dropWhile Char.isDigit⟩
  | rest => ⟨integerPiece whole, whole, rest⟩

def word (text : List Char) : Step :=
  let covered := text.takeWhile continuesWord
  { piece := .token (.ofWord (.ofList covered)), covered, rest := text.dropWhile continuesWord }

def quoted (quote : Char) (text : List Char) : Step :=
  let contents := text.takeWhile (· ≠ quote)
  match text.dropWhile (· ≠ quote) with
  | [] => { piece := .fault .unterminatedText, covered := quote :: contents, rest := [] }
  | closing :: rest =>
    { piece := .token (.text (.ofList contents))
      covered := quote :: contents ++ [closing]
      rest }

def blockComment : List Char → List Char × List Char
  | '*' :: '/' :: rest => (['*', '/'], rest)
  | c :: rest => (c :: (blockComment rest).1, (blockComment rest).2)
  | [] => ([], [])

def gap (covered rest : List Char) : Step := { piece := .gap, covered, rest }

/-- A character that begins no token is skipped on its own. -/
def symbol (c : Char) (text : List Char) : Step :=
  match Symbol.longest? (c :: text) with
  | some s =>
    { piece := .token (.symbol s)
      covered := (c :: text).take s.pattern.length
      rest := (c :: text).drop s.pattern.length }
  | none => gap [c] text

def step (c : Char) (text : List Char) : Step :=
  if isSpace c then gap [c] text
  else if c.isDigit then number (c :: text)
  else if startsWord c then word (c :: text)
  else if c = '"' ∨ c = '\'' then quoted c text
  else
    match c, text with
    | '/', '/' :: tail =>
      gap ('/' :: '/' :: tail.takeWhile (· ≠ '\n')) (tail.dropWhile (· ≠ '\n'))
    | '/', '*' :: tail =>
      gap ('/' :: '*' :: (blockComment tail).1) (blockComment tail).2
    | c, text => symbol c text

def Step.Cuts (s : Step) (text : List Char) : Prop :=
  s.covered ++ s.rest = text ∧ s.covered ≠ []

theorem number_cuts {c : Char} {text : List Char} (h : c.isDigit) :
    (number (c :: text)).Cuts (c :: text) := by
  have hw : (c :: text).takeWhile Char.isDigit ≠ [] := by simp [h]
  have hd := List.takeWhile_append_dropWhile (p := Char.isDigit) (l := c :: text)
  simp only [number]
  split
  · next tail ht =>
    rw [ht] at hd
    split
    · exact ⟨hd, hw⟩
    · exact ⟨by simp only [List.append_assoc, List.cons_append,
        List.takeWhile_append_dropWhile, hd], by simp⟩
  · exact ⟨hd, hw⟩

theorem word_cuts {c : Char} {text : List Char} (h : startsWord c) :
    (word (c :: text)).Cuts (c :: text) :=
  ⟨List.takeWhile_append_dropWhile, by simp [word, continuesWord, h]⟩

theorem quoted_cuts (q : Char) (text : List Char) : (quoted q text).Cuts (q :: text) := by
  have hd := List.takeWhile_append_dropWhile (p := (· ≠ q)) (l := text)
  simp only [quoted]
  split
  · next h =>
    rw [h] at hd
    exact ⟨congrArg (q :: ·) hd, by simp⟩
  · next closing rest h =>
    rw [h] at hd
    exact ⟨by simpa using hd, by simp⟩

theorem blockComment_append (text : List Char) :
    (blockComment text).1 ++ (blockComment text).2 = text := by
  fun_induction blockComment text <;> simp_all

theorem symbol_cuts (c : Char) (text : List Char) : (symbol c text).Cuts (c :: text) := by
  unfold symbol
  split
  · next s _ => exact ⟨List.take_append_drop .., by cases s <;> simp [Symbol.pattern]⟩
  · exact ⟨rfl, by simp [gap]⟩

theorem step_cuts (c : Char) (text : List Char) : (step c text).Cuts (c :: text) := by
  unfold step
  split
  · exact ⟨rfl, by simp [gap]⟩
  split
  · next h => exact number_cuts h
  split
  · next h => exact word_cuts h
  split
  · exact quoted_cuts c text
  split
  · exact ⟨by simp [gap, List.takeWhile_append_dropWhile], by simp [gap]⟩
  · exact ⟨by simp [gap, blockComment_append], by simp [gap]⟩
  · exact symbol_cuts ..

theorem length_rest_lt (c : Char) (text : List Char) :
    (step c text).rest.length < (c :: text).length := by
  obtain ⟨h, hne⟩ := step_cuts c text
  have := List.length_pos_iff.mpr hne
  rw [← h, List.length_append]
  omega

def breaks (text : List Char) : Nat := text.count '\n'

/-- A fault is reported on the line where its piece starts. -/
def lexemes (line : Nat) (text : List Char) : Except SyntaxError (List Lexeme) :=
  match text with
  | [] => .ok []
  | c :: tail =>
    let s := step c tail
    let next := line + breaks s.covered
    match s.piece with
    | .token token => (⟨token, next⟩ :: ·) <$> lexemes next s.rest
    | .gap => lexemes next s.rest
    | .fault cause => .error ⟨cause, line⟩
termination_by text.length
decreasing_by all_goals exact length_rest_lt c tail

def tokens (source : String) : Except SyntaxError (List Lexeme) :=
  lexemes 1 source.toList

end Scriptlet.Scan
