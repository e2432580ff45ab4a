import Scriptlet.Proofs.DeclarationReading

namespace Scriptlet

namespace Level

theorem rank_inj {l m : Level} (h : l.rank = m.rank) : l = m := by
  cases l <;> cases m <;> first | rfl | cases h

theorem rank_tighter_of_lt {l m : Level} (h : l.rank < m.rank) : l.tighter.rank = l.rank + 1 := by
  have hm : m.rank ≤ 16 := by cases m <;> decide
  cases l <;> first | rfl | exact absurd (Nat.lt_of_lt_of_le h hm) (by decide)

end Level

namespace Grammar

open Parse

theorem Reads.done {level : Level} {e : Expr} : Reads [] (.rest level e e) :=
  fun _ _ _ _ hc _ _ => restParser_stop hc

theorem Reads.loosen_one {level : Level} {ts : List Lexeme} {e : Expr}
    (ho : Opens level.tighter ts) (h : Reads ts (.expr level.tighter e)) :
    Reads ts (.expr level e) := by
  cases hl : level.repeats with
  | false => exact h.descend hl ho
  | true =>
    have hchain := Reads.chain hl (.nil hl) h .done
    rwa [List.append_nil] at hchain

theorem Reads.loosen {tight loose : Level} {ts : List Lexeme} {e : Expr} (ho : Opens tight ts)
    (h : Reads ts (.expr tight e)) (hl : loose.rank ≤ tight.rank) : Reads ts (.expr loose e) := by
  -- One level at a time: the induction is on how many levels lie between the two.
  generalize hd : tight.rank - loose.rank = d
  induction d generalizing loose with
  | zero =>
    obtain rfl : loose = tight := Level.rank_inj (by omega)
    exact h
  | succ d ih =>
    have hlt : loose.rank < tight.rank := by omega
    have hnext := Level.rank_tighter_of_lt hlt
    have hle : loose.tighter.rank ≤ tight.rank := by omega
    exact .loosen_one (ho.loosen hle) (ih hle (by omega))

structure ReadsBack (ts : List Lexeme) (e : Expr) : Prop where
  opens : Opens e.level ts
  alone : Reads ts (.expr e.level e)
  followed : e.level.repeats → ∀ us whole, Attaches e.level us → Reads us (.rest e.level e whole) →
    Reads (ts ++ us) (.expr e.level whole)

namespace ReadsBack

variable {ts us : List Lexeme} {e : Expr} {level : Level}

theorem «at» (h : ReadsBack ts e) (hf : e.Fits level) : Reads ts (.expr level e) :=
  h.alone.loosen h.opens hf

theorem expression (h : ReadsBack ts e) : Reads ts (.expr .assignment e) := h.at (Nat.zero_le _)

theorem opens_expression (h : ReadsBack ts e) : Opens .assignment ts := h.opens.loosen (Nat.zero_le _)

theorem fixed (hl : e.level.repeats = false) (ho : Opens e.level ts)
    (h : Reads ts (.expr e.level e)) : ReadsBack ts e :=
  ⟨ho, h, fun hr => by rw [hl] at hr; cases hr⟩

theorem repeated (hl : e.level.repeats) (ho : Opens e.level ts)
    (h : ∀ us whole, Attaches e.level us → Reads us (.rest e.level e whole) →
      Reads (ts ++ us) (.expr e.level whole)) : ReadsBack ts e := by
  have halone := h [] e (.nil hl) .done
  rw [List.append_nil] at halone
  exact ⟨ho, halone, fun _ => h⟩

theorem extend {whole : Expr} (h : ReadsBack ts e) (hl : level.repeats) (hf : e.Fits level)
    (ha : Attaches level us) (hr : Reads us (.rest level e whole)) :
    Reads (ts ++ us) (.expr level whole) := by
  -- An expression of the level itself goes on with the parts, a tighter one is the first operand.
  obtain heq | hlt := Nat.eq_or_lt_of_le hf
  · obtain rfl := Level.rank_inj heq
    exact h.followed hl us whole ha hr
  · have hle : e.Fits level.tighter := by
      unfold Expr.Fits
      rw [Level.rank_tighter_of_lt hlt]
      exact hlt
    exact (h.at hle).chain hl ha hr

theorem join (op : Operator) {left right : Expr} (hl : ReadsBack ts left) (hr : ReadsBack us right)
    (hj : op.Joins left right) :
    ReadsBack (ts ++ ⟨.symbol op.symbol, 1⟩ :: us) (op.join left right 1) := by
  obtain ⟨hleft, hright⟩ := hj
  have ho : Opens op.level (ts ++ ⟨.symbol op.symbol, 1⟩ :: us) :=
    (hl.opens.loosen (Nat.le_trans op.rank_leftLevel hleft)).append _
  have hlevel := op.join_level left right 1
  unfold Operator.leftLevel at hleft
  unfold Operator.rightLevel at hright
  cases hrep : op.level.repeats with
  | true =>
    rw [if_pos hrep] at hleft hright
    refine .repeated (by rw [hlevel, hrep]) (by rwa [hlevel]) ?_
    rw [hlevel]
    intro vs whole ha hrest
    have hjoin := Reads.join op.spelling_symbol ha (hr.at hright) hrest
    rw [List.append_assoc]
    exact hl.extend hrep hleft (.operator hrep op.spelling_symbol) hjoin
  | false =>
    rw [if_neg (by rw [hrep]; exact Bool.false_ne_true)] at hleft hright
    refine .fixed (by rw [hlevel, hrep]) (by rwa [hlevel]) ?_
    -- Only powers associate to the right.
    obtain rfl : op = .binary (.arithmetic .pow) := by
      rcases op with (op | op | op | op) | op <;> cases op <;> first | rfl | cases hrep
    exact (hl.at hleft).power (hr.at hright)

theorem call {f : Expr} {args : List (Option Expr)} (h : ReadsBack ts f) (hf : f.Fits .call)
    (hn : args.length ≤ maxArguments) (ha : Reads us (.slots .rightParen args)) :
    ReadsBack (ts ++ ⟨.symbol .leftParen, 1⟩ :: us) (.call f args 1) := by
  refine .repeated rfl ((h.opens.loosen hf).append _) fun vs whole hv hrest => ?_
  rw [List.append_assoc]
  exact h.extend rfl hf (.cons rfl rfl) (ha.arguments hn hrest)

theorem named {holder : Expr} (h : ReadsBack ts holder) (hf : holder.Fits .call) (name : String) :
    ReadsBack (ts ++ [⟨.symbol .dot, 1⟩, ⟨.name name, 1⟩]) (.read holder (.named name) 1) := by
  refine .repeated rfl ((h.opens.loosen hf).append _) fun vs whole hv hrest => ?_
  rw [List.append_assoc]
  exact h.extend rfl hf (.cons rfl rfl) (.named hrest)

theorem computed {holder key : Expr} (h : ReadsBack ts holder) (hf : holder.Fits .call)
    (hk : ReadsBack us key) :
    ReadsBack (ts ++ ⟨.symbol .leftBracket, 1⟩ :: (us ++ [⟨.symbol .rightBracket, 1⟩]))
      (.read holder (.computed key) 1) := by
  refine .repeated rfl ((h.opens.loosen hf).append _) fun vs whole hv hrest => ?_
  rw [List.append_assoc, List.cons_append, List.append_assoc]
  exact h.extend rfl hf (.cons rfl rfl) (hk.expression.computed hrest)

theorem assign {target right : Expr} (place : Place) (h : ReadsBack ts target)
    (hp : target.place? = some place) (hr : ReadsBack us right) :
    ReadsBack (ts ++ ⟨.symbol .assign, 1⟩ :: us) (place.store right 1) := by
  have hlevel : (place.store right 1).level = .assignment := by cases place <;> rfl
  have hfits : target.Fits .logicalOr := by
    unfold Expr.place? at hp
    split at hp
    · exact Nat.le_of_ble_eq_true rfl
    · exact Nat.le_of_ble_eq_true rfl
    · cases hp
  refine .fixed (by rw [hlevel]; rfl) ?_ ?_
  · rw [hlevel]
    exact (h.opens.loosen (Nat.zero_le _)).append _
  · rw [hlevel]
    exact (h.at hfits).assign place hp .plain hr.expression

theorem unary (op : UnaryOp) (h : ReadsBack ts e) (hf : e.Fits .unary) :
    ReadsBack (⟨.symbol op.symbol, 1⟩ :: ts) (.unary op e 1) := by
  have hop := Symbol.opens?_of_unary? (Symbol.unary?_eq_some.mpr op.spelling_symbol)
  exact .fixed rfl ⟨_, ts, .unary, rfl, hop, Nat.le_refl _⟩ ((h.at hf).unary op.spelling_symbol)

theorem trailing (step : Step) (h : ReadsBack ts e) (hf : e.Fits .creation) :
    ReadsBack (ts ++ [⟨.symbol (UnaryOp.step step).symbol, 1⟩]) (.trailing (.step step) e 1) := by
  have ho : Opens .trailing ts := h.opens.loosen (Nat.le_trans (by decide) hf)
  exact .fixed rfl (ho.append _) ((h.at hf).trailing (UnaryOp.step step).spelling_symbol)

theorem creation (h : ReadsBack ts e) (hf : e.Fits .call) :
    ReadsBack (⟨.keyword .new, 1⟩ :: ts) (.new e 1) :=
  .fixed rfl ⟨_, ts, .creation, rfl, rfl, Nat.le_refl _⟩ (h.at hf).creation

theorem primary {t : Token} (hl : e.level = .primary) (ht : t.opens? = some .primary)
    (h : Reads (⟨t, 1⟩ :: ts) (.expr .primary e)) : ReadsBack (⟨t, 1⟩ :: ts) e := by
  refine .fixed (by rw [hl]; rfl) ?_ (by rwa [hl])
  exact ⟨_, ts, .primary, rfl, ht, Nat.le_of_eq (by rw [hl])⟩

end ReadsBack

end Grammar
end Scriptlet
