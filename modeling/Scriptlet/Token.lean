import Scriptlet.Number.Text

namespace Scriptlet

inductive Keyword
  | null | «class» | «else» | «for» | function | «if» | «return» | super | this | var | «while»
  | «do» | new | static
  deriving DecidableEq, Repr

/-- The word that the scanner reads as the keyword. -/
def Keyword.pattern : Keyword → String
  | null => "null"
  | «class» => "class"
  | «else» => "else"
  | «for» => "for"
  | function => "function"
  | «if» => "if"
  | «return» => "return"
  | super => "super"
  | this => "this"
  | var => "var"
  | «while» => "while"
  | «do» => "do"
  | new => "new"
  | static => "static"

/-- The word that messages show for the keyword. -/
def Keyword.spelling : Keyword → String
  | null => "null"
  | «class» => "class"
  | «else» => "else"
  | «for» => "for"
  | function => "function"
  | «if» => "if"
  | «return» => "return"
  | super => "super"
  | this => "this"
  | var => "var"
  | «while» => "while"
  | «do» => "do"
  | new => "new"
  | static => "static"

@[simp] theorem Keyword.pattern_eq (k : Keyword) : k.pattern = k.spelling := by cases k <;> rfl

def Keyword.all : List Keyword :=
  [null, «class», «else», «for», function, «if», «return», super, this, var, «while», «do», new,
    static]

inductive Symbol
  | leftParen | rightParen | leftBrace | rightBrace | leftBracket | rightBracket
  | comma | dot | semicolon | colon | question
  | plus | plusPlus | plusAssign | minus | minusMinus | minusAssign
  | star | starAssign | starStar | starStarAssign | slash | slashAssign | percent | percentAssign
  | assign | equal | strictEqual | bang | notEqual | strictNotEqual
  | less | lessEqual | shiftLeft | shiftLeftAssign
  | greater | greaterEqual | shiftRight | shiftRightAssign
  | shiftRightZero | shiftRightZeroAssign
  | and | andAnd | andAssign | andAndAssign | or | orOr | orAssign | orOrAssign
  | caret | caretAssign | tilde
  deriving DecidableEq, Repr

namespace Symbol

def pattern : Symbol → String
  | leftParen => "("
  | rightParen => ")"
  | leftBrace => "\x7b"
  | rightBrace => "\x7d"
  | leftBracket => "["
  | rightBracket => "]"
  | comma => ","
  | dot => "."
  | semicolon => ";"
  | colon => ":"
  | question => "?"
  | plus => "+"
  | plusPlus => "++"
  | plusAssign => "+="
  | minus => "-"
  | minusMinus => "--"
  | minusAssign => "-="
  | star => "*"
  | starAssign => "*="
  | starStar => "**"
  | starStarAssign => "**="
  | slash => "/"
  | slashAssign => "/="
  | percent => "%"
  | percentAssign => "%="
  | assign => "="
  | equal => "=="
  | strictEqual => "==="
  | bang => "!"
  | notEqual => "!="
  | strictNotEqual => "!=="
  | less => "<"
  | lessEqual => "<="
  | shiftLeft => "<<"
  | shiftLeftAssign => "<<="
  | greater => ">"
  | greaterEqual => ">="
  | shiftRight => ">>"
  | shiftRightAssign => ">>="
  | shiftRightZero => ">>>"
  | shiftRightZeroAssign => ">>>="
  | and => "&"
  | andAnd => "&&"
  | andAssign => "&="
  | andAndAssign => "&&="
  | or => "|"
  | orOr => "||"
  | orAssign => "|="
  | orOrAssign => "||="
  | caret => "^"
  | caretAssign => "^="
  | tilde => "~"

def spelling : Symbol → String
  | leftParen => "("
  | rightParen => ")"
  | leftBrace => "\x7b"
  | rightBrace => "\x7d"
  | leftBracket => "["
  | rightBracket => "]"
  | comma => ","
  | dot => "."
  | semicolon => ";"
  | colon => ":"
  | question => "?"
  | plus => "+"
  | plusPlus => "++"
  | plusAssign => "+="
  | minus => "-"
  | minusMinus => "--"
  | minusAssign => "-="
  | star => "*"
  | starAssign => "*="
  | starStar => "**"
  | starStarAssign => "**="
  | slash => "/"
  | slashAssign => "/="
  | percent => "%"
  | percentAssign => "%="
  | assign => "="
  | equal => "=="
  | strictEqual => "==="
  | bang => "!"
  | notEqual => "!="
  | strictNotEqual => "!=="
  | less => "<"
  | lessEqual => "<="
  | shiftLeft => "<<"
  | shiftLeftAssign => "<<="
  | greater => ">"
  | greaterEqual => ">="
  | shiftRight => ">>"
  | shiftRightAssign => ">>="
  | shiftRightZero => ">>>"
  | shiftRightZeroAssign => ">>>="
  | and => "&"
  | andAnd => "&&"
  | andAssign => "&="
  | andAndAssign => "&&="
  | or => "|"
  | orOr => "||"
  | orAssign => "|="
  | orOrAssign => "||="
  | caret => "^"
  | caretAssign => "^="
  | tilde => "~"

@[simp] theorem pattern_eq (s : Symbol) : s.pattern = s.spelling := by cases s <;> rfl

def byLength : List Symbol :=
  [shiftRightZeroAssign,
    starStarAssign, strictEqual, strictNotEqual, shiftLeftAssign, shiftRightAssign, shiftRightZero,
    andAndAssign, orOrAssign,
    plusPlus, plusAssign, minusMinus, minusAssign, starAssign, starStar, slashAssign,
    percentAssign, equal, notEqual, lessEqual, shiftLeft, greaterEqual, shiftRight, andAnd,
    andAssign, orOr, orAssign, caretAssign,
    leftParen, rightParen, leftBrace, rightBrace, leftBracket, rightBracket, comma, dot, semicolon,
    colon, question, plus, minus, star, slash, percent, assign, bang, less, greater, and, or,
    caret, tilde]

theorem mem_byLength (s : Symbol) : s ∈ byLength := by cases s <;> decide

theorem byLength_sorted :
    byLength.Pairwise fun s t => t.spelling.length ≤ s.spelling.length := by decide

def patterns : List (List Char × Symbol) :=
  byLength.map fun s => (s.pattern.toList, s)

theorem patterns_eq : patterns = byLength.map fun s => (s.spelling.toList, s) := by simp [patterns]

def longest? (text : List Char) : Option Symbol :=
  (patterns.find? fun entry => entry.1.isPrefixOf text).map (·.2)

end Symbol

inductive Token
  | real (x : Float)
  | integer (n : Int64)
  | text (s : String)
  | boolean (b : Bool)
  | keyword (k : Keyword)
  | name (s : String)
  | symbol (s : Symbol)
  deriving DecidableEq, Repr

namespace Token

def ofWord (word : String) : Token :=
  if word = "true" then boolean true
  else if word = "false" then boolean false
  else
    match Keyword.all.find? fun k => k.pattern = word with
    | some k => keyword k
    | none => name word

def spelling : Token → String
  | real x => Number.Style.literal.write x
  | integer n => n.toInt.repr
  | text s => "'" ++ s ++ "'"
  | boolean b => if b then "true" else "false"
  | keyword k => k.spelling
  | name s => s
  | symbol s => s.spelling

end Token

structure Lexeme where
  token : Token
  line : Nat
  deriving DecidableEq, Repr

end Scriptlet
