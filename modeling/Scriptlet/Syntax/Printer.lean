import Scriptlet.Number.Text
import Scriptlet.Syntax.Tree

namespace Scriptlet

def Literal.render : Literal → String
  | null => "null"
  | boolean b => if b then "true" else "false"
  | integer n => n.toInt.repr
  | real x => Number.Style.literal.write x
  | text s => s

def signature (name : Option String) (params : List String) (body : String) : String :=
  name.getD "" ++ "(" ++ ",".intercalate params ++ ")\x7b" ++ body ++ "\x7d"

def initialText : Option String → String
  | some value => "=" ++ value
  | none => ""

mutual

def Expr.render : Expr → String
  | .literal value _ => value.render
  | .name name _ => name
  | .assign name value _ => name ++ "=" ++ value.render
  | .binary op left right _ => left.render ++ op.spelling ++ right.render
  | .logical op left right _ => left.render ++ op.spelling ++ right.render
  | .unary op operand _ => op.spelling ++ operand.render
  | .trailing op operand _ => operand.render ++ op.spelling
  | .group inner _ => "(" ++ inner.render ++ ")"
  | .call callee arguments _ => callee.render ++ "(" ++ renderSlots arguments ++ ")"
  | .read holder member _ => holder.render ++ member.render
  | .write holder member value _ => holder.render ++ member.render ++ "=" ++ value.render
  | .array slots _ => "[" ++ renderSlots slots ++ "]"
  | .object entries _ => "\x7b" ++ renderEntries entries ++ "\x7d"
  | .function decl => decl.render
  | .classExpr decl => decl.render
  | .new call _ => "new " ++ call.render

def Member.render : Member → String
  | .named name => "." ++ name
  | .computed key => "[" ++ key.render ++ "]"

def renderSlots : List (Option Expr) → String
  | [] => ""
  | [none] => ""
  | [some e] => e.render
  | none :: rest => "," ++ renderSlots rest
  | some e :: rest => e.render ++ "," ++ renderSlots rest

def renderEntries : List (String × Expr) → String
  | [] => ""
  | [(key, value)] => key ++ ":" ++ value.render
  | (key, value) :: rest => key ++ ":" ++ value.render ++ "," ++ renderEntries rest

def FunctionDecl.signature : FunctionDecl → String
  | ⟨name, params, body, _⟩ => Scriptlet.signature name params (renderBody body)

def FunctionDecl.render : FunctionDecl → String
  | ⟨name, params, body, _⟩ =>
    (if name.isSome then "function " else "function") ++
      Scriptlet.signature name params (renderBody body)

def ClassDecl.render : ClassDecl → String
  | ⟨name, members, _⟩ =>
    (match name with | some name => "class " ++ name | none => "class") ++
      "\x7b" ++ renderMembers members ++ "\x7d"

def renderMembers : List ClassMember → String
  | [] => ""
  | member :: rest => member.render ++ renderMembers rest

def ClassMember.render : ClassMember → String
  | .field isStatic name initial _ =>
    (if isStatic then "static " else "") ++ name ++
      initialText (match initial with | some e => some e.render | none => none) ++ ";"
  | .method isStatic decl => (if isStatic then "static " else "") ++ decl.signature

def Stmt.render : Stmt → String
  | .block body _ => "\x7b" ++ renderBody body ++ "\x7d"
  | .declare name initial _ =>
    "var " ++ name ++
      initialText (match initial with | some e => some e.render | none => none) ++ ";"
  | .function decl => decl.render
  | .classDecl decl => decl.render
  | .branch condition yes no _ =>
    "if(" ++ condition.render ++ ")" ++ yes.render ++
      (match no with
        | some (.block body _) => "else\x7b" ++ renderBody body ++ "\x7d"
        | some other => "else " ++ other.render
        | none => "")
  | .loop condition body _ => "while(" ++ condition.render ++ ")" ++ body.render
  | .«return» (some value) _ => "return " ++ value.render ++ ";"
  | .«return» none _ => "return;"
  | .expr e _ => e.render ++ ";"

def renderBody : List Stmt → String
  | [] => ""
  | s :: rest => s.render ++ renderBody rest

end

end Scriptlet
