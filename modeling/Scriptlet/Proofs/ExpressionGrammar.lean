import Scriptlet.SyntaxError
import Scriptlet.Syntax.Tree

/-!
The grammar of expressions without function and class literals: which lexemes spell which tree.
Operators are told apart by their spelling alone.
-/

namespace Scriptlet

inductive Level
  | assignment | logicalOr | logicalAnd | bitOr | bitXor | bitAnd | equality | relational | shift
  | additive | multiplicative | exponent | unary | trailing | creation | call | primary
  deriving DecidableEq, Repr

namespace Level

def tighter : Level → Level
  | assignment => logicalOr
  | logicalOr => logicalAnd
  | logicalAnd => bitOr
  | bitOr => bitXor
  | bitXor => bitAnd
  | bitAnd => equality
  | equality => relational
  | relational => shift
  | shift => additive
  | additive => multiplicative
  | multiplicative => exponent
  | exponent => unary
  | unary => trailing
  | trailing => creation
  | creation => call
  | call => primary
  | primary => primary

def repeats : Level → Bool
  | logicalOr | logicalAnd | bitOr | bitXor | bitAnd | equality | relational | shift | additive
  | multiplicative | call => true
  | assignment | exponent | unary | trailing | creation | primary => false

end Level

inductive Operator
  | binary (op : BinaryOp)
  | logical (op : LogicalOp)
  deriving DecidableEq, Repr

namespace Operator

def spelling : Operator → String
  | binary op => op.spelling
  | logical op => op.spelling

def level : Operator → Level
  | logical .or => .logicalOr
  | logical .and => .logicalAnd
  | binary (.bitwise .or) => .bitOr
  | binary (.bitwise .xor) => .bitXor
  | binary (.bitwise .and) => .bitAnd
  | binary (.equality _) => .equality
  | binary (.order _) => .relational
  | binary (.bitwise _) => .shift
  | binary (.arithmetic .add) | binary (.arithmetic .sub) => .additive
  | binary (.arithmetic .pow) => .exponent
  | binary (.arithmetic _) => .multiplicative

def compounds : Operator → Bool
  | binary (.equality _) | binary (.order _) => false
  | _ => true

def join : Operator → Expr → Expr → Nat → Expr
  | binary op => .binary op
  | logical op => .logical op

end Operator

def Literal.token : Literal → Token
  | null => .keyword .null
  | boolean b => .boolean b
  | integer n => .integer n
  | real x => .real x
  | text s => .text s

/-- What an assignment with the symbol stores: the right side, or for a symbol like `+=` the target
joined with it. -/
inductive Assigned (target right : Expr) (line : Nat) : Symbol → Expr → Prop
  | plain : Assigned target right line .assign right
  | compound {op : Operator} {s : Symbol} (hc : op.compounds) (hs : s.spelling = op.spelling ++ "=") :
      Assigned target right line s (op.join target right line)

inductive Phrase
  | expr (level : Level) (e : Expr)
  | rest (level : Level) (left e : Expr)
  | slots (closing : Symbol) (slots : List (Option Expr))
  | entries (entries : List (String × Expr))

inductive Derives : List Lexeme → Phrase → Prop
  | descend {level ts e} (hl : level.repeats = false) (h : Derives ts (.expr level.tighter e)) :
      Derives ts (.expr level e)
  | chain {level ts us left e} (hl : level.repeats) (hf : Derives ts (.expr level.tighter left))
      (hr : Derives us (.rest level left e)) : Derives (ts ++ us) (.expr level e)
  | done {level e} : Derives [] (.rest level e e)
  | join {op : Operator} {s : Symbol} {line ts us left right e} (hs : s.spelling = op.spelling)
      (ho : Derives ts (.expr op.level.tighter right))
      (hr : Derives us (.rest op.level (op.join left right line) e)) :
      Derives (⟨.symbol s, line⟩ :: ts ++ us) (.rest op.level left e)
  | arguments {line ts us callee args e} (ha : Derives ts (.slots .rightParen args))
      (hn : args.length ≤ maxArguments) (hr : Derives us (.rest .call (.call callee args line) e)) :
      Derives (⟨.symbol .leftParen, line⟩ :: ts ++ us) (.rest .call callee e)
  | named {line line' us holder name e}
      (hr : Derives us (.rest .call (.read holder (.named name) line) e)) :
      Derives (⟨.symbol .dot, line⟩ :: ⟨.name name, line'⟩ :: us) (.rest .call holder e)
  | computed {line line' ts us holder key e} (hk : Derives ts (.expr .assignment key))
      (hr : Derives us (.rest .call (.read holder (.computed key) line) e)) :
      Derives (⟨.symbol .leftBracket, line⟩ :: ts ++ ⟨.symbol .rightBracket, line'⟩ :: us)
        (.rest .call holder e)
  | assignName {s line ts us name l right value} (ht : Derives ts (.expr .logicalOr (.name name l)))
      (hr : Derives us (.expr .assignment right)) (hv : Assigned (.name name l) right line s value) :
      Derives (ts ++ ⟨.symbol s, line⟩ :: us) (.expr .assignment (.assign name value line))
  | assignProperty {s line ts us holder member l right value}
      (ht : Derives ts (.expr .logicalOr (.read holder member l)))
      (hr : Derives us (.expr .assignment right))
      (hv : Assigned (.read holder member l) right line s value) :
      Derives (ts ++ ⟨.symbol s, line⟩ :: us) (.expr .assignment (.write holder member value line))
  | power {line ts us base e} (hb : Derives ts (.expr .unary base))
      (he : Derives us (.expr .exponent e)) :
      Derives (ts ++ ⟨.symbol .starStar, line⟩ :: us)
        (.expr .exponent (.binary (.arithmetic .pow) base e line))
  | unary {op : UnaryOp} {s : Symbol} {line ts e} (hs : s.spelling = op.spelling)
      (h : Derives ts (.expr .unary e)) :
      Derives (⟨.symbol s, line⟩ :: ts) (.expr .unary (.unary op e line))
  | trailing {step : Step} {s : Symbol} {line ts e} (hs : s.spelling = step.spelling)
      (h : Derives ts (.expr .creation e)) :
      Derives (ts ++ [⟨.symbol s, line⟩]) (.expr .trailing (.trailing (.step step) e line))
  | creation {line ts e} (h : Derives ts (.expr .call e)) :
      Derives (⟨.keyword .new, line⟩ :: ts) (.expr .creation (.new e line))
  | literal {token line} {value : Literal} (ht : token = value.token) :
      Derives [⟨token, line⟩] (.expr .primary (.literal value line))
  | name {name line} : Derives [⟨.name name, line⟩] (.expr .primary (.name name line))
  | this {line} : Derives [⟨.keyword .this, line⟩] (.expr .primary (.name "this" line))
  | group {line line' ts e} (h : Derives ts (.expr .assignment e)) :
      Derives (⟨.symbol .leftParen, line⟩ :: ts ++ [⟨.symbol .rightParen, line'⟩])
        (.expr .primary (.group e line))
  | array {line ts slots} (h : Derives ts (.slots .rightBracket slots)) :
      Derives (⟨.symbol .leftBracket, line⟩ :: ts) (.expr .primary (.array slots line))
  | object {line ts entries} (h : Derives ts (.entries entries)) :
      Derives (⟨.symbol .leftBrace, line⟩ :: ts) (.expr .primary (.object entries line))
  | noSlots {closing line} : Derives [⟨.symbol closing, line⟩] (.slots closing [])
  | emptySlot {closing line ts slots} (h : Derives ts (.slots closing slots)) :
      Derives (⟨.symbol .comma, line⟩ :: ts) (.slots closing (none :: slots))
  | slot {closing line ts us e slots} (he : Derives ts (.expr .assignment e))
      (h : Derives us (.slots closing slots)) :
      Derives (ts ++ ⟨.symbol .comma, line⟩ :: us) (.slots closing (some e :: slots))
  | lastSlot {closing line ts e} (he : Derives ts (.expr .assignment e)) :
      Derives (ts ++ [⟨.symbol closing, line⟩]) (.slots closing [some e])
  | noEntries {line} : Derives [⟨.symbol .rightBrace, line⟩] (.entries [])
  | entry {token key line line' line'' ts us e entries} (hk : token = .name key ∨ token = .text key)
      (he : Derives ts (.expr .assignment e)) (h : Derives us (.entries entries)) :
      Derives (⟨token, line⟩ :: ⟨.symbol .colon, line'⟩ :: ts ++ ⟨.symbol .comma, line''⟩ :: us)
        (.entries ((key, e) :: entries))
  | lastEntry {token key line line' line'' ts e} (hk : token = .name key ∨ token = .text key)
      (he : Derives ts (.expr .assignment e)) :
      Derives (⟨token, line⟩ :: ⟨.symbol .colon, line'⟩ :: ts ++ [⟨.symbol .rightBrace, line''⟩])
        (.entries [(key, e)])

end Scriptlet
