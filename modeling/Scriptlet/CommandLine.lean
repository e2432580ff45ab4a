import Scriptlet.Session

namespace Scriptlet.CommandLine

structure Report where
  code : Nat
  stdout : String
  stderr : String
  deriving DecidableEq, Repr

def machine (clock : Float) : Machine := (Machine.start clock).withGlobals

def script (clock : Float) (source : String) : Report :=
  let (reply, _) := (machine clock).answer source
  ⟨if reply.outcome.isOk then 0 else 1, reply.stdout, reply.stderr⟩

def unreadable (path : String) : Report :=
  ⟨1, "", "Failed to read the input file '" ++ path ++ "'. Perhaps this file does not exist?\n"⟩

def prompt : String := "> "

def session (clock : Float) (input : String) : Report :=
  let replies := (machine clock).replies (lines input)
  ⟨0, prompt ++ .join (replies.map fun r => r.elim "" (·.stdout) ++ prompt),
    .join (replies.map (·.elim "" (·.stderr)))⟩

inductive Request
  | script (source : String)
  | file (path : String)
  | session
  deriving DecidableEq, Repr

def Request.ofArgs? (file : Bool) (contents : Option String) : List String → Option Request
  | [] =>
    match contents with
    | none => some .session
    | some text => some (if file then .file text else .script text)
  | "--" :: rest =>
    match contents, rest with
    | _, [] => ofArgs? file contents []
    | none, [text] => ofArgs? file (some text) []
    | _, _ => none
  | arg :: rest =>
    if arg = "--file" ∨ arg = "-f" then
      if file then none else ofArgs? true contents rest
    else if arg.startsWith "-" ∧ arg ≠ "-" ∨ contents.isSome then none
    else ofArgs? file (some arg) rest

def usage : Report := ⟨2, "", "Usage: scriptlet [--file] [CONTENTS]\n"⟩

end Scriptlet.CommandLine
