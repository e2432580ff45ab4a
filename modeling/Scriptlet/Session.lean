import Scriptlet.Evaluation.Program
import Scriptlet.Text.Blank

namespace Scriptlet

structure Reply where
  console : String
  outcome : Except String String

def Reply.stdout (r : Reply) : String :=
  match r.outcome with
  | .ok value => r.console ++ value ++ "\n"
  | .error _ => r.console

def Reply.stderr (r : Reply) : String :=
  match r.outcome with
  | .ok _ => ""
  | .error message => message ++ "\n"

/-- Bounds calls and loop rounds; no run lasts long enough to reach it. -/
def patience : Nat := 1000000000000000000

namespace Machine

def answer (m : Machine) (source : String) : Reply × Machine :=
  let (result, m) := m.interpret patience source
  let outcome := match result with
    | .ok v => .ok (m.heap.render v)
    | .error e => .error e.message
  (⟨m.output, outcome⟩, { m with output := "" })

def answerLine (m : Machine) (line : String) : Option Reply × Machine :=
  if Text.isEmptyLine line then (none, m)
  else
    let (reply, m) := m.answer line
    (some reply, m)

def replies (m : Machine) : List String → List (Option Reply)
  | [] => []
  | line :: rest =>
    let (reply, m) := m.answerLine line
    reply :: m.replies rest

end Machine

def linesFrom : List Char → List Char → List String
  | [], [] => []
  | line, [] => [.ofList line.reverse]
  | '\r' :: line, '\n' :: rest => .ofList line.reverse :: linesFrom [] rest
  | line, '\n' :: rest => .ofList line.reverse :: linesFrom [] rest
  | line, c :: rest => linesFrom (c :: line) rest

def lines (text : String) : List String := linesFrom [] text.toList

end Scriptlet
