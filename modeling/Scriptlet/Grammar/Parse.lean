import Scriptlet.SyntaxError

namespace Scriptlet

abbrev Parse := StateT (List Lexeme) (Except SyntaxError)

namespace Parse

/-- The line is set where a program is parsed, see `SyntaxError.located`. -/
def endOfInput : SyntaxError := ⟨.endOfInput, 0⟩

def fail {α : Type} (cause : SyntaxError.Cause) (line : Nat) : Parse α :=
  throw ⟨cause, line⟩

def next : Parse Lexeme
  | [] => .error endOfInput
  | lexeme :: rest => .ok (lexeme, rest)

def take? {α : Type} (select : Token → Option α) : Parse (Option (α × Nat))
  | [] => .ok (none, [])
  | lexeme :: rest =>
    match select lexeme.token with
    | some a => .ok (some (a, lexeme.line), rest)
    | none => .ok (none, lexeme :: rest)

def require {α : Type} (select : Token → Option α) (what : Expected) : Parse (α × Nat) := do
  let lexeme ← next
  match select lexeme.token with
  | some a => return (a, lexeme.line)
  | none => fail (.expected what lexeme.token) lexeme.line

def only (token : Token) (t : Token) : Option Unit := if t = token then some () else none

def ofSymbol {α : Type} (select : Symbol → Option α) : Token → Option α
  | .symbol s => select s
  | _ => none

def nameOf : Token → Option String
  | .name s => some s
  | _ => none

def accept (token : Token) : Parse Bool := return (← take? (only token)).isSome

def expect (token : Token) (what : Expected) : Parse Nat := return (← require (only token) what).2

def identifier : Parse String := return (← require nameOf .identifier).1

def sees (token : Token) : Parse Bool := return (← get).head?.any (·.token = token)

def atEnd : Parse Bool := return (← get).isEmpty

def skipSemicolons : Parse Unit :=
  modify (·.dropWhile (·.token = .symbol .semicolon))

def separator (closing : Symbol) : Parse Bool := do
  let lexeme ← next
  if lexeme.token = .symbol .comma then return true
  else if lexeme.token = .symbol closing then return false
  else fail (.noSeparator closing lexeme.token) lexeme.line

def limit (count : Nat) (cause : SyntaxError.Cause) (line : Nat) : Parse Unit :=
  if maxArguments < count then fail cause line else return

def after {α : Type} (token : Token) (p : Parse α) : Parse (Option α) := do
  if ← accept token then some <$> p else return none

/-- Runs a loop that takes a token in every round, for at most as many rounds as there are tokens. -/
def bounded {α : Type} (loop : Nat → Parse α) : Parse α := do
  loop (← get).length

end Parse
end Scriptlet
