import Scriptlet.Grammar.Statement
import Scriptlet.Proofs.OperatorTables
import Scriptlet.Proofs.ParseRules

namespace Scriptlet

def Lexeme.NoDecl (l : Lexeme) : Prop :=
  l.token ≠ .keyword .function ∧ l.token ≠ .keyword .«class»

instance (l : Lexeme) : Decidable l.NoDecl := inferInstanceAs (Decidable (_ ∧ _))

namespace Grammar

open Parse

def Spells {α : Type} (p : Parse α) (phrase : α → Phrase) : Prop :=
  p.Takes Lexeme.NoDecl fun us a => Derives us (phrase a)

structure InnerSpells (inner : Inner) : Prop where
  expression : Spells (inner .expression) (.expr .assignment)
  unary : Spells (inner .unary) (.expr .unary)
  exponent : Spells (inner .exponent) (.expr .exponent)

variable {inner : Inner}

theorem slotsFrom_spells (hi : InnerSpells inner) (closing : Symbol) (n : Nat) :
    Spells (slotsFrom inner closing n) (.slots closing) := by
  induction n with
  | zero => exact .throw
  | succ n ih =>
    refine Takes.accept.bind ?_
    rintro _ _ (⟨rfl, rfl⟩ | ⟨line, rfl, rfl⟩)
    · refine Takes.accept.bind ?_
      rintro _ _ (⟨rfl, rfl⟩ | ⟨line, rfl, rfl⟩)
      · refine hi.expression.bind fun us e he => Takes.separator.bind ?_
        rintro _ _ ⟨line, ⟨rfl, rfl⟩ | ⟨rfl, rfl⟩⟩
        · exact ih.map fun vs slots hs => .slot he hs
        · exact .pure (.lastSlot he)
      · exact ih.map fun us slots hs => .emptySlot hs
    · exact .pure .noSlots

theorem propertyName?_eq_some {t : Token} {key : String} (h : propertyName? t = some key) :
    t = .name key ∨ t = .text key := by
  cases t <;> simp_all [propertyName?]

theorem entriesFrom_spells (hi : InnerSpells inner) (n : Nat) :
    Spells (entriesFrom inner n) .entries := by
  induction n with
  | zero => exact .throw
  | succ n ih =>
    refine Takes.accept.bind ?_
    rintro _ _ (⟨rfl, rfl⟩ | ⟨line, rfl, rfl⟩)
    · refine Takes.require.bind ?_
      rintro _ ⟨key, line⟩ ⟨t, ht, rfl, -⟩
      refine Takes.expect.bind ?_
      rintro _ colonLine rfl
      refine hi.expression.bind fun us e he => Takes.accept.bind ?_
      have hk := propertyName?_eq_some ht
      rintro _ _ (⟨rfl, rfl⟩ | ⟨line, rfl, rfl⟩)
      · refine Takes.expect.bind ?_
        rintro _ line rfl
        exact .pure (.lastEntry hk he)
      · exact ih.map fun vs entries hs => .entry hk he hs
    · exact .pure .noEntries

theorem primary_spells (hi : InnerSpells inner) : Spells (primary inner) (.expr .primary) := by
  refine Takes.next.bind ?_
  rintro _ ⟨t, line⟩ ⟨rfl, hd⟩
  cases t with
  | integer | real | text | boolean => exact .pure (.literal rfl)
  | name => exact .pure .name
  | keyword k =>
    cases k with
    | null => exact .pure (.literal rfl)
    | this => exact .pure .this
    | function => exact absurd rfl hd.1
    | «class» => exact absurd rfl hd.2
    | _ => exact .fail
  | symbol s =>
    cases s with
    | leftParen =>
      refine hi.expression.bind fun us e he => Takes.expect.bind ?_
      rintro _ line' rfl
      exact .pure (.group he)
    | leftBracket => exact (Takes.bounded (slotsFrom_spells hi _)).map fun us slots hs => .array hs
    | leftBrace => exact (Takes.bounded (entriesFrom_spells hi)).map fun us entries hs => .object hs
    | _ => exact .fail

theorem access?_eq_some {t : Token} {access : Access} :
    access? t = some access ↔ t = .symbol (match access with
      | .arguments => .leftParen
      | .name => .dot
      | .key => .leftBracket) := by
  constructor
  · intro h
    rcases t with _ | _ | _ | _ | _ | _ | s
    all_goals first | (cases s <;> cases h <;> rfl) | cases h
  · rintro rfl
    cases access <;> rfl

theorem accessFrom_spells (hi : InnerSpells inner) (n : Nat) (left : Expr) :
    Spells (accessFrom inner n left) (.rest .call left) := by
  induction n generalizing left with
  | zero => exact .pure .done
  | succ n ih =>
    refine Takes.take?.bind ?_
    rintro _ _ (⟨rfl, rfl⟩ | ⟨access, t, line, rfl, ht, rfl, -⟩)
    · exact .pure .done
    obtain rfl := access?_eq_some.mp ht
    cases access with
    | arguments =>
      refine (Takes.bounded (slotsFrom_spells hi _)).bind fun us args ha => Takes.limit.bind ?_
      rintro _ _ ⟨rfl, hn⟩
      exact (ih _).mono fun vs e hr => by simpa using Derives.arguments ha hn hr
    | name =>
      refine Takes.identifier.bind ?_
      rintro _ name ⟨line', rfl⟩
      exact (ih _).mono fun vs e hr => .named hr
    | key =>
      refine hi.expression.bind fun us key hk => Takes.expect.bind ?_
      rintro _ line' rfl
      exact (ih _).mono fun vs e hr => .computed hk hr

theorem call_spells (hi : InnerSpells inner) : Spells (call inner) (.expr .call) :=
  (primary_spells hi).bind fun _ left hl =>
    (Takes.bounded fun n => accessFrom_spells hi n left).mono fun _ _ hr => .chain rfl hl hr

theorem creation_spells (hi : InnerSpells inner) : Spells (creation inner) (.expr .creation) := by
  refine Takes.take?.bind ?_
  rintro _ _ (⟨rfl, rfl⟩ | ⟨_, t, line, rfl, ht, rfl, -⟩)
  · exact (call_spells hi).mono fun us e he => .descend rfl he
  · obtain rfl := only_eq_some.mp ht
    exact (call_spells hi).map fun us e he => .creation he

theorem trailing_spells (hi : InnerSpells inner) : Spells (trailing inner) (.expr .trailing) := by
  refine (creation_spells hi).bind fun us e he => Takes.take?.bind ?_
  rintro _ _ (⟨rfl, rfl⟩ | ⟨op, t, line, rfl, ht, rfl, -⟩)
  · rw [← List.append_nil us] at he
    exact .pure (.descend rfl he)
  · obtain ⟨s, rfl, hs⟩ := ofSymbol_eq_some.mp ht
    obtain ⟨step, rfl, hstep⟩ := Symbol.trailing?_eq_some.mp hs
    exact .pure (.trailing hstep he)

theorem unary_spells (hi : InnerSpells inner) : Spells (unary inner) (.expr .unary) := by
  refine Takes.take?.bind ?_
  rintro _ _ (⟨rfl, rfl⟩ | ⟨op, t, line, rfl, ht, rfl, -⟩)
  · exact (trailing_spells hi).mono fun us e he => .descend rfl he
  · obtain ⟨s, rfl, hs⟩ := ofSymbol_eq_some.mp ht
    exact hi.unary.map fun us e he => .unary (Symbol.unary?_eq_some.mp hs) he

theorem exponent_spells (hi : InnerSpells inner) : Spells (exponent inner) (.expr .exponent) := by
  refine (unary_spells hi).bind fun us base hb => Takes.take?.bind ?_
  rintro _ _ (⟨rfl, rfl⟩ | ⟨op, t, line, rfl, ht, rfl, -⟩)
  · rw [← List.append_nil us] at hb
    exact .pure (.descend rfl hb)
  · obtain ⟨s, rfl, hs⟩ := ofSymbol_eq_some.mp ht
    obtain ⟨rfl, rfl⟩ : s = .starStar ∧ op = .arithmetic .pow := by
      cases s <;> cases hs; exact ⟨rfl, rfl⟩
    exact hi.exponent.map fun vs e he => .power hb he

section chains

variable {op : Type} {operand : Parse Expr} {select : Symbol → Option op}
  {join : op → Expr → Expr → Nat → Expr} {level : Level} (operator : op → Operator)

theorem chainFrom_spells (ho : Spells operand (.expr level.tighter))
    (hs : ∀ s, (select s).map operator = level.read? s) (hj : ∀ o, join o = (operator o).join)
    (n : Nat) (left : Expr) : Spells (chainFrom operand select join n left) (.rest level left) := by
  induction n generalizing left with
  | zero => exact .pure .done
  | succ n ih =>
    refine Takes.take?.bind ?_
    rintro _ _ (⟨rfl, rfl⟩ | ⟨o, t, line, rfl, ht, rfl, -⟩)
    · exact .pure .done
    obtain ⟨s, rfl, hso⟩ := ofSymbol_eq_some.mp ht
    have hread := hs s
    rw [hso] at hread
    obtain ⟨rfl, hspell⟩ := Level.read?_eq_some.mp hread.symm
    refine ho.bind fun us right hr => (ih _).mono fun vs e he => ?_
    rw [hj] at he
    simpa using Derives.join hspell hr he

theorem chain_spells (ho : Spells operand (.expr level.tighter))
    (hs : ∀ s, (select s).map operator = level.read? s) (hj : ∀ o, join o = (operator o).join)
    (hl : level.repeats) : Spells (chain operand select join) (.expr level) :=
  ho.bind fun _ left hleft =>
    (Takes.bounded fun n => chainFrom_spells operator ho hs hj n left).mono
      fun _ _ hr => .chain hl hleft hr

end chains

theorem logicalOr_spells (hi : InnerSpells inner) : Spells (logicalOr inner) (.expr .logicalOr) := by
  have binary {level : Level} {operand : Parse Expr} {select : Symbol → Option BinaryOp}
      (ho : Spells operand (.expr level.tighter))
      (hs : ∀ s, (select s).map .binary = level.read? s) (hl : level.repeats) :
      Spells (chain operand select .binary) (.expr level) :=
    chain_spells .binary ho hs (fun _ => rfl) hl
  have logical {level : Level} {operand : Parse Expr} {select : Symbol → Option LogicalOp}
      (ho : Spells operand (.expr level.tighter))
      (hs : ∀ s, (select s).map .logical = level.read? s) (hl : level.repeats) :
      Spells (chain operand select .logical) (.expr level) :=
    chain_spells .logical ho hs (fun _ => rfl) hl
  have multiplicative : Spells (multiplicative inner) (.expr .multiplicative) :=
    binary (exponent_spells hi) (fun _ => rfl) rfl
  have additive : Spells (additive inner) (.expr .additive) := binary multiplicative (fun _ => rfl) rfl
  have shift : Spells (shift inner) (.expr .shift) := binary additive (fun _ => rfl) rfl
  have relational : Spells (relational inner) (.expr .relational) := binary shift (fun _ => rfl) rfl
  have equality : Spells (equality inner) (.expr .equality) := binary relational (fun _ => rfl) rfl
  have bitAnd : Spells (bitAnd inner) (.expr .bitAnd) := binary equality (fun _ => rfl) rfl
  have bitXor : Spells (bitXor inner) (.expr .bitXor) := binary bitAnd (fun _ => rfl) rfl
  have bitOr : Spells (bitOr inner) (.expr .bitOr) := binary bitXor (fun _ => rfl) rfl
  have logicalAnd : Spells (logicalAnd inner) (.expr .logicalAnd) := logical bitOr (fun _ => rfl) rfl
  exact logical logicalAnd (fun _ => rfl) rfl

theorem place?_eq_some {e : Expr} {place : Place} (h : e.place? = some place) :
    (∃ name l, e = .name name l ∧ place = .name name) ∨
      ∃ holder member l, e = .read holder member l ∧ place = .property holder member := by
  cases e with
  | name name l => exact .inl ⟨name, l, rfl, (Option.some.inj h).symm⟩
  | read holder member l => exact .inr ⟨holder, member, l, rfl, (Option.some.inj h).symm⟩
  | _ => cases h

theorem assignment_spells (hi : InnerSpells inner) :
    Spells (assignment inner) (.expr .assignment) := by
  refine (logicalOr_spells hi).bind fun us target ht => Takes.take?.bind ?_
  rintro _ _ (⟨rfl, rfl⟩ | ⟨op, t, line, rfl, hs, rfl, -⟩)
  · rw [← List.append_nil us] at ht
    exact .pure (.descend rfl ht)
  obtain ⟨s, rfl, hso⟩ := ofSymbol_eq_some.mp hs
  dsimp only
  split
  · exact .fail
  next place hp =>
  refine hi.expression.map fun vs right hr => ?_
  have hv : Assigned target right line s (op.value target right line) :=
    assigned_iff.mpr ⟨op, hso, rfl⟩
  obtain ⟨name, l, rfl, rfl⟩ | ⟨holder, member, l, rfl, rfl⟩ := place?_eq_some hp
  · exact .assignName ht hr hv
  · exact .assignProperty ht hr hv

theorem nested_spells (n : Nat) : InnerSpells (nested n) := by
  induction n with
  | zero => exact ⟨.throw, .throw, .throw⟩
  | succ n ih => exact ⟨assignment_spells ih, unary_spells ih, exponent_spells ih⟩

end Grammar
end Scriptlet
