import Scriptlet.Text.Hidden

namespace Scriptlet.Text

structure Escapes where
  short : Char → Option Char
  byCode : Char → Bool
  code : Nat → String

def hexDigits (n : Nat) : List Char := Nat.toDigits 16 n

def Escapes.inspected : Escapes where
  short
    | '\x00' => some '0'
    | '\t' => some 't'
    | '\r' => some 'r'
    | '\n' => some 'n'
    | '\\' => some '\\'
    | '"' => some '"'
    | _ => none
  byCode := isHidden
  code n := "\\u\x7b" ++ .ofList (hexDigits n) ++ "\x7d"

def Escapes.outline : Escapes where
  short
    | '\x08' => some 'b'
    | '\x0c' => some 'f'
    | '\t' => some 't'
    | '\r' => some 'r'
    | '\n' => some 'n'
    | '\\' => some '\\'
    | '"' => some '"'
    | _ => none
  byCode c := c.toNat < 32
  code n := "\\u" ++ .ofList (List.replicate (4 - (hexDigits n).length) '0' ++ hexDigits n)

def Escapes.char (escapes : Escapes) (c : Char) : String :=
  match escapes.short c with
  | some letter => .ofList ['\\', letter]
  | none => if escapes.byCode c then escapes.code c.toNat else .singleton c

def Escapes.quote (escapes : Escapes) (text : String) : String :=
  "\"" ++ String.join (text.toList.map escapes.char) ++ "\""

end Scriptlet.Text
