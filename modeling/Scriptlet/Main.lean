import Scriptlet.CommandLine
import Std.Time.DateTime.Timestamp

namespace Scriptlet.CommandLine

def clock : IO Float := do
  let now ← Std.Time.Timestamp.now
  return .ofInt now.toNanosecondsSinceUnixEpoch.val / 1e9

def emit (r : Report) : IO UInt32 := do
  IO.print r.stdout
  IO.eprint r.stderr
  return r.code.toUInt32

partial def interact (stdin : IO.FS.Stream) (m : Machine) : IO Unit := do
  IO.print prompt
  (← IO.getStdout).flush
  let text ← stdin.getLine
  match lines text with
  | [] => return
  | line :: _ =>
    let (reply, m) := { m with clock := ← clock }.answerLine line
    match reply with
    | none => pure ()
    | some r => do
      IO.print r.stdout
      IO.eprint r.stderr
    interact stdin m

def handle : Request → IO UInt32
  | .script source => do emit (script (← clock) source)
  | .file path => do
    match ← (IO.FS.readFile path).toBaseIO with
    | .ok source => emit (script (← clock) source)
    | .error _ => emit (unreadable path)
  | .session => do
    interact (← IO.getStdin) (machine (← clock))
    return 0

end Scriptlet.CommandLine

def main (args : List String) : IO UInt32 :=
  match Scriptlet.CommandLine.Request.ofArgs? false none args with
  | some request => Scriptlet.CommandLine.handle request
  | none => Scriptlet.CommandLine.emit Scriptlet.CommandLine.usage
