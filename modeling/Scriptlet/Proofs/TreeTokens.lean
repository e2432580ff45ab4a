import Scriptlet.Proofs.BuiltTrees
import Scriptlet.Proofs.TokenScanning
import Scriptlet.Syntax.Printer

namespace Scriptlet

def UnaryOp.symbol : UnaryOp → Symbol
  | negate => .minus
  | identity => .plus
  | not => .bang
  | bitNot => .tilde
  | step .increment => .plusPlus
  | step .decrement => .minusMinus

theorem UnaryOp.spelling_symbol (op : UnaryOp) : op.symbol.spelling = op.spelling := by
  rcases op with _ | _ | _ | _ | op <;> first | rfl | (cases op <;> rfl)

def staticTokens (isStatic : Bool) : List Token := if isStatic then [.keyword .static] else []

def nameTokens (name : Option String) : List Token := (name.map .name).toList

def paramTokens : List String → List Token
  | [] => []
  | [param] => [.name param]
  | param :: rest => .name param :: .symbol .comma :: paramTokens rest

def signatureTokens (params : List String) (body : List Token) : List Token :=
  .symbol .leftParen :: paramTokens params ++
    .symbol .rightParen :: .symbol .leftBrace :: body ++ [.symbol .rightBrace]

def initialTokens : Option (List Token) → List Token
  | some value => .symbol .assign :: value
  | none => []

mutual

def Expr.tokens : Expr → List Token
  | .literal value _ => [value.token]
  | .name n _ => [.ofWord n]
  | .assign n e _ => .ofWord n :: .symbol .assign :: e.tokens
  | .binary op a b _ => a.tokens ++ .symbol (Operator.binary op).symbol :: b.tokens
  | .logical op a b _ => a.tokens ++ .symbol (Operator.logical op).symbol :: b.tokens
  | .unary op e _ => .symbol op.symbol :: e.tokens
  | .trailing op e _ => e.tokens ++ [.symbol op.symbol]
  | .group e _ => .symbol .leftParen :: e.tokens ++ [.symbol .rightParen]
  | .call f as _ => f.tokens ++ .symbol .leftParen :: slotTokens as ++ [.symbol .rightParen]
  | .read h m _ => h.tokens ++ m.tokens
  | .write h m e _ => h.tokens ++ m.tokens ++ .symbol .assign :: e.tokens
  | .array as _ => .symbol .leftBracket :: slotTokens as ++ [.symbol .rightBracket]
  | .object es _ => .symbol .leftBrace :: entryTokens es ++ [.symbol .rightBrace]
  | .function d => d.tokens
  | .classExpr d => d.tokens
  | .new e _ => .keyword .new :: e.tokens
termination_by structural e => e

def Member.tokens : Member → List Token
  | .named n => [.symbol .dot, .name n]
  | .computed e => .symbol .leftBracket :: e.tokens ++ [.symbol .rightBracket]
termination_by structural m => m

def slotTokens : List (Option Expr) → List Token
  | [] => []
  | [none] => []
  | [some e] => e.tokens
  | none :: as => .symbol .comma :: slotTokens as
  | some e :: as => e.tokens ++ .symbol .comma :: slotTokens as
termination_by structural as => as

def entryTokens : List (String × Expr) → List Token
  | [] => []
  | [(key, e)] => .name key :: .symbol .colon :: e.tokens
  | (key, e) :: es => .name key :: .symbol .colon :: e.tokens ++ .symbol .comma :: entryTokens es
termination_by structural es => es

def FunctionDecl.tokens : FunctionDecl → List Token
  | ⟨n, ps, b, _⟩ => .keyword .function :: nameTokens n ++ signatureTokens ps (bodyTokens b)
termination_by structural d => d

def ClassDecl.tokens : ClassDecl → List Token
  | ⟨n, ms, _⟩ =>
    .keyword .«class» :: nameTokens n ++ .symbol .leftBrace :: memberTokens ms ++ [.symbol .rightBrace]
termination_by structural d => d

def memberTokens : List ClassMember → List Token
  | [] => []
  | m :: ms => m.tokens ++ memberTokens ms
termination_by structural ms => ms

def ClassMember.tokens : ClassMember → List Token
  | .field isStatic n e _ =>
    staticTokens isStatic ++ .name n ::
      initialTokens (match e with | some e => some e.tokens | none => none) ++ [.symbol .semicolon]
  | .method isStatic ⟨n, ps, b, _⟩ =>
    staticTokens isStatic ++ nameTokens n ++ signatureTokens ps (bodyTokens b)
termination_by structural m => m

def Stmt.tokens : Stmt → List Token
  | .block b _ => .symbol .leftBrace :: bodyTokens b ++ [.symbol .rightBrace]
  | .declare n e _ =>
    .keyword .var :: .name n ::
      initialTokens (match e with | some e => some e.tokens | none => none) ++ [.symbol .semicolon]
  | .function d => d.tokens
  | .classDecl d => d.tokens
  | .branch c yes no _ =>
    .keyword .«if» :: .symbol .leftParen :: c.tokens ++ .symbol .rightParen :: yes.tokens ++
      (match no with | some s => .keyword .«else» :: s.tokens | none => [])
  | .loop c body _ =>
    .keyword .«while» :: .symbol .leftParen :: c.tokens ++ .symbol .rightParen :: body.tokens
  | .«return» (some e) _ => .keyword .«return» :: e.tokens ++ [.symbol .semicolon]
  | .«return» none _ => [.keyword .«return», .symbol .semicolon]
  | .expr e _ => e.tokens ++ [.symbol .semicolon]
termination_by structural s => s

def bodyTokens : List Stmt → List Token
  | [] => []
  | s :: ss => s.tokens ++ bodyTokens ss
termination_by structural ss => ss

end

def lexed (ts : List Token) : List Lexeme := ts.map (⟨·, 1⟩)

@[simp] theorem lexed_nil : lexed [] = [] := rfl

@[simp] theorem lexed_cons (t : Token) (ts : List Token) : lexed (t :: ts) = ⟨t, 1⟩ :: lexed ts := rfl

@[simp] theorem lexed_append (ts us : List Token) : lexed (ts ++ us) = lexed ts ++ lexed us :=
  List.map_append

def SignsMeet (op : String) (operand : Expr) : Prop :=
  (op.toList.head? = some '+' ∨ op.toList.head? = some '-') ∧
    operand.render.toList.head? = op.toList.head?

instance (op : String) (operand : Expr) : Decidable (SignsMeet op operand) :=
  inferInstanceAs (Decidable (_ ∧ _))

/-- The text of the node does not say something else. -/
def unambiguous : Check where
  expr
    | .unary op e _ => ¬ SignsMeet op.spelling e
    | .binary op _ right _ => ¬ SignsMeet op.spelling right
    | .call _ slots _ | .array slots _ => slots.getLast? ≠ some none
    | _ => True
  stmt
    | .expr e _ => ∀ lead ∈ ["\x7b", "function ", "class "], ¬ lead.toList <+: e.render.toList
    | _ => True

def fitted : Check where
  expr
    | .binary op left right _ => (Operator.binary op).Joins left right
    | .logical op left right _ => (Operator.logical op).Joins left right
    | _ => True

def Token.Plain (t : Token) : Prop := t.Legible ∧ ∀ s, t ≠ .text s

abbrev Lexeme.Plain (l : Lexeme) : Prop := l.token.Plain

def faithful : Check := (built Lexeme.Plain).and (unambiguous.and fitted)

end Scriptlet
