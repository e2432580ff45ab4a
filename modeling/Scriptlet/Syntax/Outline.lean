import Scriptlet.Number.Text
import Scriptlet.Syntax.Tree
import Scriptlet.Text.Quoted

namespace Scriptlet

def form (items : List String) : String := "(" ++ " ".intercalate items ++ ")"

def located (kind : String) (line : Nat) : String := kind ++ "@" ++ line.repr

def quoted (s : String) : String := Text.Escapes.outline.quote s

def Literal.outline : Literal → List String
  | null => ["null"]
  | boolean b => ["bool", if b then "true" else "false"]
  | integer n => ["int", n.toInt.repr]
  | real x => ["real", Number.Style.literal.write x]
  | text s => ["str", quoted s]

def staticText (isStatic : Bool) : String := if isStatic then "static" else "instance"

mutual

def Expr.outline : Expr → String
  | .literal v l => form (located "lit" l :: v.outline)
  | .name n l => form [located "name" l, n]
  | .assign n e l => form [located "assign" l, n, e.outline]
  | .binary op a b l => form [located "bin" l, op.spelling, a.outline, b.outline]
  | .logical op a b l => form [located "logic" l, op.spelling, a.outline, b.outline]
  | .unary op e l => form [located "unary" l, op.spelling, e.outline]
  | .trailing op e l => form [located "postfix" l, op.spelling, e.outline]
  | .group e l => form [located "group" l, e.outline]
  | .call f as l => form (located "call" l :: f.outline :: outlineSlots as)
  | .read h m l => form [located "get" l, h.outline, m.outline]
  | .write h m e l => form [located "set" l, h.outline, m.outline, e.outline]
  | .array as l => form (located "array" l :: outlineSlots as)
  | .object es l => form (located "object" l :: outlineEntries es)
  | .function d => form [located "function" d.line, d.outline]
  | .classExpr d => form [located "class" d.line, d.outline]
  | .new e l => form [located "new" l, e.outline]

def Member.outline : Member → String
  | .named n => "." ++ n
  | .computed e => "[" ++ e.outline ++ "]"

def outlineSlots : List (Option Expr) → List String
  | [] => []
  | none :: as => "_" :: outlineSlots as
  | some e :: as => e.outline :: outlineSlots as

def outlineEntries : List (String × Expr) → List String
  | [] => []
  | (n, e) :: es => (quoted n ++ ":" ++ e.outline) :: outlineEntries es

def FunctionDecl.outline : FunctionDecl → String
  | ⟨n, ps, b, l⟩ => form (located "fn" l :: n.getD "-" :: form ps :: outlineBody b)

def ClassDecl.outline : ClassDecl → String
  | ⟨n, ms, l⟩ => form (located "cls" l :: n.getD "-" :: outlineMembers ms)

def outlineMembers : List ClassMember → List String
  | [] => []
  | m :: ms => m.outline :: outlineMembers ms

def ClassMember.outline : ClassMember → String
  | .field s n e l => form [located "field" l, staticText s, n, outlineOptional e]
  | .method s d => form ["method", staticText s, d.name.getD "", d.outline]

def outlineOptional : Option Expr → String
  | none => "-"
  | some e => e.outline

def Stmt.outline : Stmt → String
  | .block b l => form (located "block" l :: outlineBody b)
  | .declare n e l => form [located "var" l, n, outlineOptional e]
  | .function d => form ["fundecl", d.outline]
  | .classDecl d => form ["classdecl", d.outline]
  | .branch c y n l => form [located "if" l, c.outline, y.outline, outlineElse n]
  | .loop c b l => form [located "while" l, c.outline, b.outline]
  | .«return» e l => form [located "return" l, outlineOptional e]
  | .expr e l => form [located "expr" l, e.outline]

def outlineElse : Option Stmt → String
  | none => "-"
  | some s => s.outline

def outlineBody : List Stmt → List String
  | [] => []
  | s :: ss => s.outline :: outlineBody ss

end

end Scriptlet
