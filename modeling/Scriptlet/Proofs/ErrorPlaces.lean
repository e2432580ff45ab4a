import Scriptlet.Proofs.BlamedEvaluation
import Scriptlet.Proofs.ProgramLayout
import Scriptlet.Proofs.SourcePartition

namespace Scriptlet

open Scan (IsLine)

def Failure.line? : Failure → Option Nat
  | malformed e => some e.line
  | fault e => some e.line
  | exhausted => none

theorem tokens_isLine (source : String) :
    (∀ ts, Scan.tokens source = .ok ts → ∀ l ∈ ts, IsLine source.toList l.line) ∧
      ∀ e, Scan.tokens source = .error e → IsLine source.toList e.line :=
  (Scan.lexemes_partitioned 1 source.toList [] rfl).isLine

theorem parse_isLine (source : String) :
    (∀ program, parse source = .ok program → everyStmt (lined (IsLine source.toList)) program) ∧
      ∀ e, parse source = .error e → IsLine source.toList e.line := by
  obtain ⟨hlexemes, herror⟩ := tokens_isLine source
  unfold parse
  cases hscan : Scan.tokens source with
  | error e =>
    constructor
    · intro program h
      cases h
    · rintro _ ⟨⟩
      exact herror e hscan
  | ok ts => exact Grammar.program_lined (hlexemes ts hscan)

theorem passes_start (c : Check) (clock : Float) : (Machine.start clock).withGlobals.heap.Passes c :=
  Heap.Passes.addGlobals (.empty c)

/-- Every error of a program that runs in a new session is on a line of its source. -/
theorem error_isLine (source : String) (clock : Float) (n : Nat) {f : Failure} {line : Nat}
    (h : ((Machine.start clock).withGlobals.interpret n source).1 = .error f)
    (hline : f.line? = some line) : 1 ≤ line ∧ line ≤ 1 + Scan.breaks source.toList := by
  obtain ⟨htree, herror⟩ := parse_isLine source
  unfold Machine.interpret at h
  cases hparse : parse source with
  | error e =>
    rw [hparse] at h
    obtain rfl := Except.error.inj h
    obtain rfl := Option.some.inj hline
    exact herror e hparse
  | ok program =>
    rw [hparse] at h
    have hblames := runProgram_blames n (htree program hparse) _ (passes_start _ clock)
    change ((Machine.start clock).withGlobals.run n program).1 = .error f at h
    unfold Machine.run at h
    cases hrun : runProgram n program (Machine.start clock).withGlobals with
    | ok v m =>
      rw [hrun] at h
      cases h
    | error e m =>
      rw [hrun] at h
      obtain rfl := Except.error.inj h
      cases e with
      | exhausted => cases hline
      | fault e =>
        obtain rfl := Option.some.inj hline
        exact hblames.2 e m hrun

theorem parse_unboundResult : parse "var a;\nfunction f() { return g; }\nf();" =
    .ok [.declare "a" none 1, .function ⟨some "f", [], [.return (some (.name "g" 2)) 2], 2⟩,
      .expr (.call (.name "f" 3) [] 3) 3] := by
  have hscan : Scan.tokens "var a;\nfunction f() { return g; }\nf();" =
      .ok [⟨.keyword .var, 1⟩, ⟨.name "a", 1⟩, ⟨.symbol .semicolon, 1⟩,
        ⟨.keyword .function, 2⟩, ⟨.name "f", 2⟩, ⟨.symbol .leftParen, 2⟩, ⟨.symbol .rightParen, 2⟩,
        ⟨.symbol .leftBrace, 2⟩, ⟨.keyword .return, 2⟩, ⟨.name "g", 2⟩, ⟨.symbol .semicolon, 2⟩,
        ⟨.symbol .rightBrace, 2⟩, ⟨.name "f", 3⟩, ⟨.symbol .leftParen, 3⟩, ⟨.symbol .rightParen, 3⟩,
        ⟨.symbol .semicolon, 3⟩] := by cbv
  rw [parse, hscan]
  rfl

theorem error_isLine_unboundResult :
    let source := "var a;\nfunction f() { return g; }\nf();"
    let f : Failure := .fault ⟨.undefined "g", 2⟩
    ((Machine.start 0).withGlobals.interpret 1 source).1 = .error f ∧ f.line? = some 2 ∧
      1 ≤ 2 ∧ 2 ≤ 1 + Scan.breaks source.toList := by
  intro source f
  have h : ((Machine.start 0).withGlobals.interpret 1 source).1 = .error f := by
    rw [Machine.interpret, parse_unboundResult]
    rfl
  exact ⟨h, rfl, error_isLine source 0 1 h rfl⟩

end Scriptlet
