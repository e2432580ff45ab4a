import Scriptlet.Token

namespace Scriptlet

inductive Expected
  | identifier | declaration
  | parenAfterIf | parenAfterWhile | parenAfterFor | parenBeforeParameters
  | whileAfterBody | endOfCondition | endOfInitializer | endOfLoopCondition | endOfForClauses
  | braceBeforeFunction | braceBeforeClass
  | endOfIndex | endOfGroup | propertyName | colon | endOfObject
  deriving DecidableEq, Repr

def Expected.describe : Expected → String
  | identifier => "identifier"
  | declaration => "'var'"
  | parenAfterIf => "'(' after 'if'"
  | parenAfterWhile => "'(' after 'while'"
  | parenAfterFor => "'(' after 'for'"
  | parenBeforeParameters => "'(' before parameters"
  | whileAfterBody => "'while' after do body"
  | endOfCondition => "')' after condition"
  | endOfInitializer => "';' after loop initializer"
  | endOfLoopCondition => "';' after loop condition"
  | endOfForClauses => "')' after for clauses"
  | braceBeforeFunction => "'\x7b' before function body"
  | braceBeforeClass => "'\x7b' before class body"
  | endOfIndex => "']' after index"
  | endOfGroup => "')' after expression"
  | propertyName => "property name"
  | colon => "':' after property name"
  | endOfObject => "'\x7d' after object literal"

def maxArguments : Nat := 255

namespace SyntaxError

inductive Cause
  | unexpected (found : Token)
  | noSeparator (closing : Symbol) (found : Token)
  | endOfInput
  | expected (what : Expected) (found : Token)
  | assignmentTarget (target : String)
  | tooManyArguments
  | tooManyParameters
  | unterminatedText
  | integerTooLarge
  deriving DecidableEq, Repr

def Cause.describe : Cause → String
  | unexpected found => s!"unexpected token {found.spelling}."
  | noSeparator closing found =>
    s!"unexpected token expected ',' or '{closing.spelling}', found '{found.spelling}'."
  | endOfInput => "input ended early."
  | expected what found => s!"Expected {what.describe}, found {found.spelling}."
  | assignmentTarget target => s!"Invalid assignment target '{target}'."
  | tooManyArguments => s!"Can't have more than {maxArguments.repr} arguments."
  | tooManyParameters => s!"Can't have more than {maxArguments.repr} parameters."
  | unterminatedText => "Unterminated string."
  | integerTooLarge => "integer literal out of range."

end SyntaxError

structure SyntaxError where
  cause : SyntaxError.Cause
  line : Nat
  deriving DecidableEq, Repr

def reportAt (line : Nat) (text : String) : String :=
  s!"Error on line {line.repr}: " ++ text

def SyntaxError.message (e : SyntaxError) : String :=
  reportAt e.line e.cause.describe

/-- Running out of tokens is noticed where no line is at hand; it is reported on `line`. -/
def SyntaxError.located (e : SyntaxError) (line : Nat) : SyntaxError :=
  if e.cause = .endOfInput then { e with line } else e

end Scriptlet
