import Scriptlet.Proofs.TreeTokens

namespace Scriptlet

open Scan

theorem Literal.spelling_token {value : Literal} (h : value.token.Plain) :
    value.token.spelling = value.render := by
  cases value with
  | text s => exact absurd rfl (h.2 s)
  | null | boolean | integer | real => rfl

def startsOperand (c : Char) : Bool :=
  startsWord c || c.isDigit || ['(', '[', '\x7b', '+', '-', '!', '~'].contains c

theorem Token.Plain.starts {t : Token} {l : Level} (h : t.Plain) (ho : t.opens? = some l) :
    ∃ c cs, t.spelling.toList = c :: cs ∧ startsOperand c := by
  have word (hw : t.IsWord) : ∃ c cs, t.spelling.toList = c :: cs ∧ startsOperand c := by
    obtain ⟨c, cs, hs, hc, -⟩ := hw
    exact ⟨c, cs, hs, by simp [startsOperand, hc]⟩
  have digit {c : Char} (hc : c.isDigit) : startsOperand c := by simp [startsOperand, hc]
  cases t with
  | name s => exact word h.1
  | keyword k => exact word (isWord_keyword k)
  | boolean b => exact word (isWord_boolean b)
  | integer n =>
    obtain ⟨hdigits, hne, -⟩ := integerPiece_repr h.1
    obtain ⟨c, cs, hs⟩ := List.exists_cons_of_ne_nil hne
    exact ⟨c, cs, hs, digit (hdigits c (by rw [hs]; exact List.mem_cons_self))⟩
  | real x =>
    obtain ⟨c, cs, fraction, hs, hc, -⟩ := legible_real h.1
    exact ⟨c, _, hs, digit (hc c List.mem_cons_self)⟩
  | text s => exact absurd rfl (h.2 s)
  | symbol s => cases s <;> cases ho <;> exact ⟨_, _, rfl, by decide⟩

def Expr.Starts (e : Expr) : Prop :=
  ∃ t ts text l, e.tokens = t :: ts ∧ e.render.toList = t.spelling.toList ++ text ∧ t.Plain ∧
    t.opens? = some l ∧ e.level.rank ≤ l.rank

theorem Expr.Starts.of_token {e : Expr} {t : Token} {ts : List Token} {l : Level} (text : String)
    (htokens : e.tokens = t :: ts) (hrender : e.render = t.spelling ++ text) (ht : t.Plain)
    (ho : t.opens? = some l) (hlevel : e.level.rank ≤ l.rank) : e.Starts :=
  ⟨t, ts, text.toList, l, htokens, by rw [hrender, String.toList_append], ht, ho, hlevel⟩

theorem Expr.Starts.extend {e part : Expr} {text : String} {ts : List Token} (h : part.Starts)
    (htokens : e.tokens = part.tokens ++ ts) (hrender : e.render = part.render ++ text)
    (hlevel : e.level.rank ≤ part.level.rank) : e.Starts := by
  obtain ⟨t, us, text', l, ht, hr, hplain, ho, hl⟩ := h
  refine ⟨t, us ++ ts, text' ++ text.toList, l, ?_, ?_, hplain, ho, Nat.le_trans hlevel hl⟩
  · rw [htokens, ht, List.cons_append]
  · rw [hrender, String.toList_append, hr, List.append_assoc]

theorem Token.plain_symbol (s : Symbol) : (symbol s).Plain := ⟨trivial, nofun⟩

theorem Token.plain_keyword (k : Keyword) : (keyword k).Plain := ⟨trivial, nofun⟩

theorem Token.plain_reference {n : String} (h : n = "this" ∨ Named Lexeme.Plain n) :
    (ofWord n).Plain ∧ (ofWord n).spelling = n ∧ (ofWord n).opens? = some .primary := by
  obtain rfl | ⟨line, hn⟩ := h
  · exact ⟨plain_keyword .this, rfl, rfl⟩
  · obtain ⟨_, _, _, _, _, hw⟩ := id hn.1
    rw [show ofWord n = .name n from hw]
    exact ⟨hn, rfl, rfl⟩

def spacedName (name : Option String) : String := (name.map (" " ++ ·)).getD ""

theorem FunctionDecl.render_eq (d : FunctionDecl) :
    d.render = "function" ++ (spacedName d.name ++ Scriptlet.signature none d.params (renderBody d.body)) := by
  obtain ⟨_ | n, ps, b, l⟩ := d
  · rfl
  · simp only [FunctionDecl.render, Scriptlet.signature, spacedName, Option.isSome, if_true,
      Option.map_some, Option.getD_some, Option.getD_none, String.append_empty, ← String.append_assoc]
    rfl

theorem FunctionDecl.tokens_eq (d : FunctionDecl) : d.tokens =
    .keyword .function :: (nameTokens d.name ++ signatureTokens d.params (bodyTokens d.body)) := by
  obtain ⟨n, ps, b, l⟩ := d
  rfl

theorem ClassDecl.render_eq (d : ClassDecl) : d.render =
    "class" ++ (spacedName d.name ++ ("\x7b" ++ (renderMembers d.members ++ "\x7d"))) := by
  obtain ⟨_ | n, ms, l⟩ := d
  · simp only [ClassDecl.render, String.append_assoc]
    rfl
  · simp only [ClassDecl.render, spacedName, Option.map_some, Option.getD_some, ← String.append_assoc]
    rfl

theorem ClassDecl.tokens_eq (d : ClassDecl) : d.tokens =
    .keyword .«class» :: (nameTokens d.name ++
      .symbol .leftBrace :: (memberTokens d.members ++ [.symbol .rightBrace])) := by
  obtain ⟨n, ms, l⟩ := d
  simp only [ClassDecl.tokens, List.cons_append, List.append_assoc]

theorem Expr.starts : (e : Expr) → e.every faithful → e.Starts
  | .literal value _, h => by
    have hplain : value.token.Plain := by
      obtain ⟨line, ht⟩ | rfl := h.1
      · exact ht
      · exact ⟨trivial, nofun⟩
    have hrender : value.render = value.token.spelling ++ "" := by
      rw [String.append_empty, Literal.spelling_token hplain]
    exact .of_token (l := .primary) "" rfl hrender hplain (by cases value <;> rfl) (Nat.le_refl _)
  | .name n _, h => by
    obtain ⟨hplain, hs, ho⟩ := Token.plain_reference h.1
    exact .of_token "" rfl (by rw [hs, String.append_empty]; rfl) hplain ho (Nat.le_refl _)
  | .assign n e _, h => by
    obtain ⟨hplain, hs, ho⟩ := Token.plain_reference h.1.1
    exact .of_token ("=" ++ e.render) rfl (by rw [hs, Expr.render, String.append_assoc]) hplain ho
      (Nat.zero_le _)
  | .binary op a b _, ⟨h, ha, _⟩ =>
    (a.starts ha).extend rfl (by rw [Expr.render, String.append_assoc])
      (Nat.le_trans (Operator.rank_leftLevel _) h.2.2.1)
  | .logical op a b _, ⟨h, ha, _⟩ =>
    (a.starts ha).extend rfl (by rw [Expr.render, String.append_assoc])
      (Nat.le_trans (Operator.rank_leftLevel _) h.2.2.1)
  | .unary op e _, _ => by
    have hop := Symbol.opens?_of_unary? (Symbol.unary?_eq_some.mpr op.spelling_symbol)
    refine .of_token e.render rfl ?_ (Token.plain_symbol _) hop (Nat.le_refl _)
    rw [Token.spelling, op.spelling_symbol]
    rfl
  | .trailing op e _, ⟨h, he⟩ =>
    have hlevel : Level.trailing.rank ≤ Level.creation.rank := by decide
    (e.starts he).extend rfl (by rw [Expr.render]) (Nat.le_trans hlevel h.1.2)
  | .group e _, _ =>
    .of_token (l := .primary) (e.render ++ ")") rfl (by rw [Expr.render, String.append_assoc]; rfl)
      (Token.plain_symbol _) rfl (Nat.le_refl _)
  | .call f as _, ⟨h, hf, _⟩ =>
    (f.starts hf).extend (by rw [Expr.tokens, List.append_assoc])
      (by rw [Expr.render, String.append_assoc, String.append_assoc]) h.1.1
  | .read e m _, ⟨h, he, _⟩ => (e.starts he).extend rfl (by rw [Expr.render]) h.1.1
  | .write e m v _, ⟨h, he, _⟩ =>
    (e.starts he).extend (by rw [Expr.tokens, List.append_assoc])
      (by rw [Expr.render, String.append_assoc, String.append_assoc]) (Nat.zero_le _)
  | .array as _, _ =>
    .of_token (l := .primary) (renderSlots as ++ "]") rfl
      (by rw [Expr.render, String.append_assoc]; rfl) (Token.plain_symbol _) rfl (Nat.le_refl _)
  | .object es _, _ =>
    .of_token (l := .primary) (renderEntries es ++ "\x7d") rfl
      (by rw [Expr.render, String.append_assoc]; rfl) (Token.plain_symbol _) rfl (Nat.le_refl _)
  | .function d, _ =>
    .of_token (l := .primary) _ d.tokens_eq d.render_eq (Token.plain_keyword .function) rfl
      (Nat.le_refl _)
  | .classExpr d, _ =>
    .of_token (l := .primary) _ d.tokens_eq d.render_eq (Token.plain_keyword .«class») rfl
      (Nat.le_refl _)
  | .new e _, _ =>
    .of_token (l := .creation) (" " ++ e.render) rfl
      (by rw [Expr.render, ← String.append_assoc]; rfl) (Token.plain_keyword .new) rfl (Nat.le_refl _)

theorem Symbol.runsOn_operand (s : Symbol) {c : Char} (hc : c ∈ s.runsOn) (hstart : startsOperand c) :
    s.spelling.toList.head? = some c ∧ (c = '+' ∨ c = '-') := by
  have hall : s.runsOn.all fun c => !startsOperand c ||
      decide (s.spelling.toList.head? = some c ∧ (c = '+' ∨ c = '-')) := by
    cases s <;> decide
  have hchar := List.all_eq_true.mp hall c hc
  rw [hstart] at hchar
  exact of_decide_eq_true hchar

theorem Expr.Starts.ends {e : Expr} (h : e.Starts) {s : Symbol} (hs : ¬ SignsMeet s.spelling e)
    (rest : List Char) : (Token.symbol s).Ends (e.render.toList ++ rest) := by
  obtain ⟨t, ts, text, l, -, hrender, hplain, ho, -⟩ := h
  obtain ⟨d, ds, hspell, hd⟩ := hplain.starts ho
  have hhead : e.render.toList = d :: (ds ++ text) := by rw [hrender, hspell, List.cons_append]
  rw [hhead, List.cons_append]
  rintro _ ⟨⟩ hrun
  obtain ⟨hop, hsign⟩ := s.runsOn_operand hrun hd
  refine hs ⟨?_, ?_⟩
  · rw [hop]
    exact hsign.imp (congrArg some) (congrArg some)
  · rw [hhead, hop]
    rfl

theorem not_signsMeet {op : String} {e : Expr}
    (h : ¬ (op.toList.head? = some '+' ∨ op.toList.head? = some '-')) : ¬ SignsMeet op e :=
  fun hs => h hs.1

def Expr.Announces (e : Expr) : Prop :=
  ∀ us k name vs, k = .function ∨ k = .«class» → e.tokens ++ us = .keyword k :: .name name :: vs →
    (k.spelling ++ " ").toList <+: e.render.toList

theorem Expr.Announces.extend {e part : Expr} {text : String} {ts : List Token}
    (h : part.Announces) (htokens : e.tokens = part.tokens ++ ts)
    (hrender : e.render = part.render ++ text) : e.Announces := by
  intro us k name vs hk he
  rw [htokens, List.append_assoc] at he
  rw [hrender, part.render.toList_append]
  exact (h _ k name vs hk he).trans (List.prefix_append ..)

theorem Expr.Announces.of_token {e : Expr} {t : Token} {ts : List Token} (htokens : e.tokens = t :: ts)
    (ht : ∀ k, k = .function ∨ k = .«class» → t ≠ .keyword k) : e.Announces := by
  intro us k name vs hk he
  rw [htokens] at he
  exact absurd (List.head_eq_of_cons_eq he) (ht k hk)

theorem Expr.Announces.of_name {e : Expr} {k : Keyword} {name : Option String} {text : String}
    {s : Symbol} {ts : List Token} (htokens : e.tokens = .keyword k :: (nameTokens name ++ .symbol s :: ts))
    (hrender : e.render = k.spelling ++ (spacedName name ++ text)) : e.Announces := by
  intro us k' n vs _ he
  rw [htokens] at he
  obtain rfl := Token.keyword.inj (List.head_eq_of_cons_eq he)
  cases name with
  | none => cases he
  | some name =>
    rw [hrender, spacedName, Option.map_some, Option.getD_some, String.append_assoc,
      ← String.append_assoc, (k.spelling ++ " ").toList_append]
    exact List.prefix_append ..

theorem Token.reference_ne {n : String} (h : n = "this" ∨ Named Lexeme.Plain n) (k : Keyword)
    (hk : k = .function ∨ k = .«class») : ofWord n ≠ .keyword k := by
  obtain rfl | ⟨line, hn⟩ := h
  · obtain rfl | rfl := hk <;> decide
  · obtain ⟨_, _, _, _, _, hw⟩ := hn.1
    rw [show ofWord n = .name n from hw]
    exact nofun

theorem Expr.announces : (e : Expr) → e.every faithful → e.Announces
  | .literal value _, _ => by
    refine .of_token (t := value.token) rfl ?_
    rintro k (rfl | rfl) <;> cases value <;> exact nofun
  | .name n _, h => .of_token rfl (Token.reference_ne h.1)
  | .assign n e _, h => .of_token rfl (Token.reference_ne h.1.1)
  | .binary op a b _, h => (a.announces h.2.1).extend rfl (by rw [Expr.render, String.append_assoc])
  | .logical op a b _, h => (a.announces h.2.1).extend rfl (by rw [Expr.render, String.append_assoc])
  | .unary op e _, _ => .of_token rfl fun _ _ => nofun
  | .trailing op e _, h => (e.announces h.2).extend rfl (by rw [Expr.render])
  | .group e _, _ => .of_token rfl fun _ _ => nofun
  | .call f as _, h => (f.announces h.2.1).extend (by rw [Expr.tokens, List.append_assoc])
      (by rw [Expr.render, String.append_assoc, String.append_assoc])
  | .read e m _, h => (e.announces h.2.1).extend rfl (by rw [Expr.render])
  | .write e m v _, h => (e.announces h.2.1).extend (by rw [Expr.tokens, List.append_assoc])
      (by rw [Expr.render, String.append_assoc, String.append_assoc])
  | .array as _, _ => .of_token rfl fun _ _ => nofun
  | .object es _, _ => .of_token rfl fun _ _ => nofun
  | .function d, _ => .of_name d.tokens_eq d.render_eq
  | .classExpr d, _ => .of_name d.tokens_eq d.render_eq
  | .new e _, _ => .of_token rfl (by rintro k (rfl | rfl) <;> exact nofun)

end Scriptlet
