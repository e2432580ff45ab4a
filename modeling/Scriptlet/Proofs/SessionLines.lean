import Mathlib
import Scriptlet.CommandLine
import Scriptlet.Proofs.ProgramPieces
import Scriptlet.Proofs.ScopeRestoration

namespace Scriptlet

def Idle (line : String) : Prop :=
  Text.isEmptyLine line ∨ ∃ e, parse line = .error e

theorem executeAll_failed {limits : Limits} {body : List Stmt} {last : Value} {m n : Machine} {e : Halt}
    (h : executeAll limits body last m = .error e n) :
    ∃ done s rest v k, body = done ++ s :: rest ∧ executeAll limits done last m = .ok (.normal v) k ∧
      execute limits s k = .error e n := by
  induction body generalizing last m with
  | nil =>
    rw [executeAll] at h
    cases h
  | cons s body ih =>
    rw [executeAll] at h
    cases hs : execute limits s m with
    | error e' m' =>
      rw [Eval.bind_error hs] at h
      cases h
      exact ⟨[], s, body, last, m, rfl, by rw [executeAll]; rfl, hs⟩
    | ok flow m' =>
      rw [Eval.bind_ok hs] at h
      cases flow with
      | «return» value => cases h
      | normal value =>
        obtain ⟨done, s', rest, v, k, rfl, hdone, hs'⟩ := ih h
        refine ⟨s :: done, s', rest, v, k, rfl, ?_, hs'⟩
        rw [executeAll, Eval.bind_ok hs]
        exact hdone

theorem executeAll_of_runProgram_error {n : Nat} {program : List Stmt} {m k : Machine} {e : Halt}
    (h : runProgram n program m = .error e k) : executeAll (.upTo n) program .null m = .error e k := by
  cases hall : executeAll (.upTo n) program .null m with
  | ok flow m' =>
    rw [runProgram, Eval.bind_ok hall] at h
    cases h
  | error e' m' =>
    rw [runProgram, Eval.bind_error hall] at h
    cases h
    rfl

namespace Machine

section

variable {ι : Type} (read : Machine → ι → Option Reply × Machine)

def answers (m : Machine) : List ι → List (Option Reply)
  | [] => []
  | input :: rest => (read m input).1 :: (read m input).2.answers rest

def afterInputs (m : Machine) : List ι → Machine
  | [] => m
  | input :: rest => (read m input).2.afterInputs rest

theorem answers_append (m : Machine) (before after : List ι) :
    m.answers read (before ++ after) =
      m.answers read before ++ (m.afterInputs read before).answers read after := by
  induction before generalizing m with
  | nil => rfl
  | cons input before ih => exact congrArg (_ :: ·) (ih _)

theorem length_answers (m : Machine) (inputs : List ι) :
    (m.answers read inputs).length = inputs.length := by
  induction inputs generalizing m with
  | nil => rfl
  | cons input rest ih => exact congrArg (· + 1) (ih _)

theorem answers_eraseIdx {m : Machine} {before : List ι} {input : ι}
    (h : ∀ next, read (read (m.afterInputs read before) input).2 next =
      read (m.afterInputs read before) next) (after : List ι) :
    m.answers read (before ++ after) =
      (m.answers read (before ++ input :: after)).eraseIdx before.length := by
  have hafter : (read (m.afterInputs read before) input).2.answers read after =
      (m.afterInputs read before).answers read after := by
    cases after with
    | nil => rfl
    | cons next rest => rw [answers, answers, h]
  rw [answers_append, answers_append, answers, hafter, List.eraseIdx_append_of_length_le]
  · rw [length_answers, Nat.sub_self, List.eraseIdx_cons_zero]
  · exact Nat.le_of_eq (length_answers read m before)

end

def answerAt (m : Machine) (input : Float × String) : Option Reply × Machine :=
  { m with clock := input.1 }.answerLine input.2

theorem replies_eq_answers (m : Machine) (lines : List String) :
    m.replies lines = m.answers answerLine lines := by
  induction lines generalizing m with
  | nil => rfl
  | cons line rest ih => exact congrArg (_ :: ·) (ih _)

theorem answerLine_empty {m : Machine} {line : String} (h : Text.isEmptyLine line) :
    m.answerLine line = (none, m) := by
  rw [answerLine, if_pos h]

theorem answerLine_answer {m : Machine} {line : String} (h : ¬ Text.isEmptyLine line) :
    m.answerLine line = (some (m.answer line).1, (m.answer line).2) := by
  rw [answerLine, if_neg h]

theorem answer_malformed {m : Machine} {line : String} {e : SyntaxError} (h : parse line = .error e) :
    m.answer line = (⟨m.output, .error e.message⟩, { m with output := "" }) := by
  rw [answer, interpret, h]
  rfl

theorem answer_ok {m n : Machine} {line : String} {program : List Stmt} {v : Value}
    (hparse : parse line = .ok program) (hrun : runProgram patience program m = .ok v n) :
    m.answer line = (⟨n.output, .ok (n.heap.render v)⟩, { n with output := "" }) := by
  rw [answer, interpret, hparse]
  dsimp only
  rw [run, hrun]

theorem answer_failed {m n : Machine} {line : String} {program : List Stmt} {e : Halt}
    (hparse : parse line = .ok program) (hrun : runProgram patience program m = .error e n) :
    m.answer line = (⟨n.output, .error e.failure.message⟩, { n with output := "" }) := by
  rw [answer, interpret, hparse]
  dsimp only
  rw [run, hrun]

theorem answerLine_idle {m : Machine} {line : String} (hm : m.output = "") (h : Idle line) :
    (m.answerLine line).2 = m := by
  by_cases hempty : Text.isEmptyLine line
  · rw [answerLine_empty hempty]
  · obtain ⟨e, he⟩ := h.resolve_left hempty
    rw [answerLine_answer hempty, answer_malformed he]
    cases m
    cases hm
    rfl

structure Continues (m n : Machine) : Prop where
  silent : n.output = ""
  scope : n.scope = m.scope
  grows : m.heap.Grows n.heap

theorem Continues.trans {m n k : Machine} (h : m.Continues n) (h' : n.Continues k) : m.Continues k :=
  ⟨h'.silent, h'.scope.trans h.scope, h.grows.trans h'.grows⟩

theorem interpret_continues {m : Machine} (source : String) :
    m.Continues { (m.interpret patience source).2 with output := "" } := by
  obtain h | ⟨program, h⟩ := m.interpret_machine patience source
  · rw [h]
    exact ⟨rfl, rfl, .refl _⟩
  · rw [h]
    obtain ⟨hscope, hgrows⟩ := runProgram_obeys growth patience program m
    exact ⟨rfl, hscope, hgrows⟩

theorem answerLine_continues {m : Machine} (hm : m.output = "") (line : String) :
    m.Continues (m.answerLine line).2 := by
  by_cases hempty : Text.isEmptyLine line
  · rw [answerLine_empty hempty]
    exact ⟨hm, rfl, .refl _⟩
  · rw [answerLine_answer hempty]
    exact interpret_continues line

theorem afterInputs_continues {ι : Type} {read : Machine → ι → Option Reply × Machine} {m : Machine}
    (hm : m.output = "") (h : ∀ (m : Machine) input, m.output = "" → m.Continues (read m input).2)
    (inputs : List ι) : m.Continues (m.afterInputs read inputs) := by
  induction inputs generalizing m with
  | nil => exact ⟨hm, rfl, .refl _⟩
  | cons input rest ih =>
    have hstep := h m input hm
    exact hstep.trans (ih hstep.silent)

theorem answerAt_continues (m : Machine) (input : Float × String) (hm : m.output = "") :
    m.Continues (m.answerAt input).2 := by
  obtain ⟨hsilent, hscope, hgrows⟩ := answerLine_continues (m := { m with clock := input.1 }) hm input.2
  exact ⟨hsilent, hscope, hgrows⟩

end Machine

open Machine

/-- In a session of any machine that has nothing left to print, an empty line and one that cannot be read
may be left out, whether the clock stands still or is looked at anew for each line: the replies to the
others are the same. Whatever the lines before it did, a line runs in the same scope, on a heap that still
has what was there; and one that fails leaves all that its statements did up to the failure. -/
theorem bad_lines_isolated {m : Machine} (hm : m.output = "") :
    (∀ before line after, Idle line →
      m.replies (before ++ after) = (m.replies (before ++ line :: after)).eraseIdx before.length) ∧
    (∀ before clock line after, Idle line →
      m.answers answerAt (before ++ after) =
        (m.answers answerAt (before ++ (clock, line) :: after)).eraseIdx before.length) ∧
    (∀ before after,
      m.answers answerAt (before ++ after) =
        m.answers answerAt before ++ (m.afterInputs answerAt before).answers answerAt after ∧
      m.Continues (m.afterInputs answerAt before)) ∧
    (∀ line, Idle line → (m.answerLine line).2 = m) ∧
    ∀ line program, ¬ Text.isEmptyLine line → parse line = .ok program →
      (∀ v n, runProgram patience program m = .ok v n →
        m.answerLine line = (some ⟨n.output, .ok (n.heap.render v)⟩, { n with output := "" })) ∧
      ∀ e n, runProgram patience program m = .error e n →
        m.answerLine line = (some ⟨n.output, .error e.failure.message⟩, { n with output := "" }) ∧
        ∃ done s rest v k, program = done ++ s :: rest ∧
          executeAll (.upTo patience) done .null m = .ok (.normal v) k ∧
          execute (.upTo patience) s k = .error e n := by
  refine ⟨fun before line after h => ?_, fun before clock line after h => ?_, fun before after => ?_,
    fun line => answerLine_idle hm, fun line program hne hparse => ⟨fun v n hrun => ?_, fun e n hrun => ?_⟩⟩
  · have hsilent := (afterInputs_continues hm (fun _ line h => answerLine_continues h line) before).silent
    rw [replies_eq_answers, replies_eq_answers]
    refine answers_eraseIdx answerLine (fun next => ?_) after
    rw [answerLine_idle hsilent h]
  · have hsilent := (afterInputs_continues hm answerAt_continues before).silent
    refine answers_eraseIdx answerAt (fun next => ?_) after
    -- The line leaves its time behind, which the next one replaces by its own.
    have hidle : ((m.afterInputs answerAt before).answerAt (clock, line)).2 =
        { m.afterInputs answerAt before with clock } := answerLine_idle hsilent h
    rw [hidle]
    rfl
  · exact ⟨answers_append answerAt m before after, afterInputs_continues hm answerAt_continues before⟩
  · rw [answerLine_answer hne, answer_ok hparse hrun]
  · rw [answerLine_answer hne, answer_failed hparse hrun]
    exact ⟨rfl, executeAll_failed (executeAll_of_runProgram_error hrun)⟩

theorem bad_lines_isolated_unbound :
    let m := CommandLine.machine 0
    let declared : Machine := { m with heap := m.heap.define m.scope "a" (.boolean true) }
    m.output = "" ∧ Idle "a = ;" ∧
      m.replies ["var a = true; b;", "a;"] =
        (m.replies ["var a = true; b;", "a = ;", "a;"]).eraseIdx 1 ∧
      m.answerLine "var a = true; b;" =
        (some ⟨"", .error (Fault.mk (.undefined "b") 1).message⟩, declared) := by
  intro m declared
  have hbad : Idle "a = ;" := by
    have hscan : Scan.tokens "a = ;" =
        .ok [⟨.name "a", 1⟩, ⟨.symbol .assign, 1⟩, ⟨.symbol .semicolon, 1⟩] := by cbv
    exact .inr ⟨_, by rw [parse, hscan]; rfl⟩
  have hscan : Scan.tokens "var a = true; b;" =
      .ok ([.keyword .var, .name "a", .symbol .assign, .boolean true, .symbol .semicolon, .name "b",
        .symbol .semicolon].map (⟨·, 1⟩)) := by cbv
  have hparse : parse "var a = true; b;" =
      .ok [.declare "a" (some (.literal (.boolean true) 1)) 1, .expr (.name "b" 1) 1] := by
    rw [parse, hscan]
    rfl
  have hrun (n : Nat) : runProgram n
      [.declare "a" (some (.literal (.boolean true) 1)) 1, .expr (.name "b" 1) 1] m =
      .error (.fault ⟨.undefined "b", 1⟩) declared := rfl
  obtain ⟨hleft, -, -, -, hline⟩ := bad_lines_isolated (m := m) rfl
  exact ⟨rfl, hbad, hleft ["var a = true; b;"] "a = ;" ["a;"] hbad,
    ((hline _ _ (by decide) hparse).2 _ _ (hrun patience)).1⟩

end Scriptlet
