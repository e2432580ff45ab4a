namespace Scriptlet

inductive ArithmeticOp
  | add | sub | mul | div | mod | pow
  deriving DecidableEq, Repr

inductive BitwiseOp
  | and | or | xor | shiftLeft | shiftRight | shiftRightZero
  deriving DecidableEq, Repr

inductive EqualityOp
  | equal | notEqual | strictEqual | strictNotEqual
  deriving DecidableEq, Repr

inductive OrderOp
  | less | lessEqual | greater | greaterEqual
  deriving DecidableEq, Repr

inductive BinaryOp
  | arithmetic (op : ArithmeticOp)
  | bitwise (op : BitwiseOp)
  | equality (op : EqualityOp)
  | order (op : OrderOp)
  deriving DecidableEq, Repr

inductive LogicalOp
  | and | or
  deriving DecidableEq, Repr

inductive Step
  | increment | decrement
  deriving DecidableEq, Repr

inductive UnaryOp
  | negate | identity | not | bitNot
  | step (s : Step)
  deriving DecidableEq, Repr

def ArithmeticOp.spelling : ArithmeticOp → String
  | add => "+"
  | sub => "-"
  | mul => "*"
  | div => "/"
  | mod => "%"
  | pow => "**"

def BitwiseOp.spelling : BitwiseOp → String
  | and => "&"
  | or => "|"
  | xor => "^"
  | shiftLeft => "<<"
  | shiftRight => ">>"
  | shiftRightZero => ">>>"

def EqualityOp.spelling : EqualityOp → String
  | equal => "=="
  | notEqual => "!="
  | strictEqual => "==="
  | strictNotEqual => "!=="

def OrderOp.spelling : OrderOp → String
  | less => "<"
  | lessEqual => "<="
  | greater => ">"
  | greaterEqual => ">="

def BinaryOp.spelling : BinaryOp → String
  | arithmetic op => op.spelling
  | bitwise op => op.spelling
  | equality op => op.spelling
  | order op => op.spelling

def LogicalOp.spelling : LogicalOp → String
  | and => "&&"
  | or => "||"

def Step.spelling : Step → String
  | increment => "++"
  | decrement => "--"

def UnaryOp.spelling : UnaryOp → String
  | negate => "-"
  | identity => "+"
  | not => "!"
  | bitNot => "~"
  | step s => s.spelling

end Scriptlet
