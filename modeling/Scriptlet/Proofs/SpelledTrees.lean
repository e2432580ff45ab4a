import Scriptlet.Proofs.Sketches
import Scriptlet.Proofs.TreeStarts

namespace Scriptlet

open Scan

namespace Token

theorem Plain.no_break {t : Token} (h : t.Plain) : breaks t.spelling.toList = 0 := by
  refine List.count_eq_zero.mpr fun hbreak => ?_
  have word (hw : t.IsWord) : False := by
    obtain ⟨c, cs, hs, hc, hcs, -⟩ := hw
    rw [hs] at hbreak
    obtain rfl | hmem := List.mem_cons.mp hbreak
    · exact absurd hc (by decide)
    · exact absurd (hcs _ hmem) (by decide)
  cases t with
  | name s => exact word h.1
  | keyword k => exact word (isWord_keyword k)
  | boolean b => exact word (isWord_boolean b)
  | integer n => exact absurd ((integerPiece_repr h.1).1 _ hbreak) (by decide)
  | real x => exact absurd (writesFloat_write x _ hbreak) (by decide)
  | text s => exact h.2 s rfl
  | symbol s => revert hbreak; cases s <;> decide

end Token

/-- Before `rest` the text is scanned as the tokens, all on one line. -/
def Scans (text : String) (ts : List Token) (rest : List Char) : Prop :=
  lexemes 1 (text.toList ++ rest) = (ts.map (Lexeme.mk · 1) ++ ·) <$> lexemes 1 rest

def Stops (rest : List Char) : Prop :=
  ∀ c ∈ rest.head?, continuesWord c = false ∧ (c = '.' → ∀ d ∈ rest.tail.head?, d.isDigit = false)

namespace Scans

variable {a b : String} {as bs : List Token} {rest : List Char}

theorem nil : Scans "" [] rest := by
  change lexemes 1 rest = (([] ++ ·) <$> lexemes 1 rest : Except SyntaxError _)
  cases lexemes 1 rest <;> rfl

theorem append (ha : Scans a as (b.toList ++ rest)) (hb : Scans b bs rest) :
    Scans (a ++ b) (as ++ bs) rest := by
  unfold Scans at *
  rw [String.toList_append, List.append_assoc, ha, hb]
  cases lexemes 1 rest with
  | error e => rfl
  | ok ts => simp [Functor.map, Except.map]

theorem join {op : String} {t : Token} (ha : Scans a as (op.toList ++ (b.toList ++ rest)))
    (hop : Scans op [t] (b.toList ++ rest)) (hb : Scans b bs rest) :
    Scans (a ++ op ++ b) (as ++ t :: bs) rest := by
  have h := (ha.append hop).append hb
  rwa [List.append_assoc, List.singleton_append] at h

theorem token {t : Token} (ht : t.Plain) (hr : t.Ends rest) : Scans t.spelling [t] rest := by
  have h := lexemes_token ht.1 hr 1
  rw [ht.no_break] at h
  exact h

theorem space : Scans " " [] rest := (lexemes_space 1 rest).trans nil

theorem keyword (k : Keyword) (hr : ∀ c ∈ rest.head?, continuesWord c = false) :
    Scans k.spelling [.keyword k] rest :=
  token (t := .keyword k) ⟨trivial, nofun⟩ hr

theorem spaced (k : Keyword) : Scans (k.spelling ++ " ") [.keyword k] rest := by
  have hkeyword : Scans k.spelling [.keyword k] (" ".toList ++ rest) := by
    refine keyword k ?_
    rintro _ ⟨⟩
    decide
  exact hkeyword.append space

theorem symbol (s : Symbol) (hr : (Token.symbol s).Ends rest) : Scans s.spelling [.symbol s] rest :=
  token (t := .symbol s) (Token.plain_symbol s) hr

theorem mark (s : Symbol) (hs : s.runsOn = []) : Scans s.spelling [.symbol s] rest := by
  refine symbol s fun c _ => ?_
  rw [hs]
  exact List.not_mem_nil

theorem enclosed {l r : Symbol} (hl : l.runsOn = []) (hr : r.runsOn = [])
    (h : Scans a as (r.spelling.toList ++ rest)) :
    Scans (l.spelling ++ a ++ r.spelling) (.symbol l :: as ++ [.symbol r]) rest :=
  ((mark l hl).append h).append (mark r hr)

theorem operand {t : Token} (ht : t.Plain) (hs : ∀ s, t ≠ .symbol s) (hr : Stops rest) :
    Scans t.spelling [t] rest := by
  have hdigit : ∀ c ∈ rest.head?, c.isDigit = false := fun c hc =>
    (Bool.or_eq_false_iff.mp (hr c hc).1).2
  refine token ht ?_
  cases t with
  | integer n => exact fun c hc => ⟨hdigit c hc, (hr c hc).2⟩
  | real x => exact hdigit
  | text s => trivial
  | boolean | keyword | name => exact fun c hc => (hr c hc).1
  | symbol s => exact absurd rfl (hs s)

theorem literal {value : Literal} (h : value.token.Plain) (hr : Stops rest) :
    Scans value.render [value.token] rest := by
  rw [← Literal.spelling_token h]
  exact operand h (fun s => by cases value <;> exact nofun) hr

theorem name {n : String} (h : Named Lexeme.Plain n) (hr : Stops rest) :
    Scans n [.name n] rest := by
  obtain ⟨line, hn⟩ := h
  exact operand hn nofun hr

theorem reference {n : String} (h : n = "this" ∨ Named Lexeme.Plain n)
    (hr : Stops rest) : Scans n [.ofWord n] rest := by
  obtain rfl | h := h
  · exact keyword .this fun c hc => (hr c hc).1
  · obtain ⟨line, hn⟩ := id h
    obtain ⟨_, _, _, _, _, hw⟩ := hn.1
    rw [show Token.ofWord n = .name n from hw]
    exact name h hr

end Scans

theorem stops_mark {s : Symbol} {rest : List Char} (hs : s ≠ .dot) :
    Stops (s.spelling.toList ++ rest) := by
  have hhead : ∀ c ∈ (s.spelling.toList ++ rest).head?, continuesWord c = false ∧ c ≠ '.' := by
    cases s <;> first | exact absurd rfl hs | (rintro _ ⟨⟩; decide)
  exact fun c hc => ⟨(hhead c hc).1, fun h => absurd h (hhead c hc).2⟩

theorem Operator.stops (op : Operator) (rest : List Char) : Stops (op.spelling.toList ++ rest) := by
  rw [← op.spelling_symbol]
  refine stops_mark ?_
  rcases op with (op | op | op | op) | op <;> cases op <;> decide

namespace Scans

variable {rest : List Char}

theorem operator (op : Operator) {e : Expr} (h : e.Starts) (hs : ¬ SignsMeet op.spelling e) :
    Scans op.spelling [.symbol op.symbol] (e.render.toList ++ rest) := by
  rw [← op.spelling_symbol] at hs ⊢
  exact symbol _ (h.ends hs rest)

theorem sign {op : UnaryOp} {e : Expr} (h : e.Starts) (hs : ¬ SignsMeet op.spelling e) :
    Scans op.spelling [.symbol op.symbol] (e.render.toList ++ rest) := by
  rw [← op.spelling_symbol] at hs ⊢
  exact symbol _ (h.ends hs rest)

theorem assign {e : Expr} (h : e.Starts) : Scans "=" [.symbol .assign] (e.render.toList ++ rest) :=
  symbol .assign (h.ends (not_signsMeet (by decide)) rest)

end Scans

theorem Named.starts {n : String} (h : Named Lexeme.Plain n) :
    ∃ c cs, n.toList = c :: cs ∧ c.isDigit = false := by
  obtain ⟨line, hn⟩ := h
  obtain ⟨c, cs, hs, hc, -⟩ := hn.1
  exact ⟨c, cs, hs, isDigit_of_startsWord hc⟩

theorem stops_dot {n : String} (h : Named Lexeme.Plain n) (rest : List Char) :
    Stops (("." ++ n).toList ++ rest) := by
  obtain ⟨c, cs, hs, hc⟩ := h.starts
  rw [String.toList_append, hs]
  rintro _ ⟨⟩
  refine ⟨by decide, fun _ => ?_⟩
  rintro _ ⟨⟩
  exact hc

theorem stops_member {m : Member} (h : m.Built Lexeme.Plain) (rest : List Char) :
    Stops (m.render.toList ++ rest) := by
  cases m with
  | named n => exact stops_dot h rest
  | computed e =>
    rw [Member.render, String.toList_append, String.toList_append, List.append_assoc, List.append_assoc]
    exact stops_mark (s := .leftBracket) (by decide)

namespace Scans

variable {rest : List Char}

theorem spacedName (k : Keyword) {name : Option String}
    (hn : ∀ n ∈ name, Named Lexeme.Plain n) (hr : Stops rest) :
    Scans (k.spelling ++ spacedName name) (.keyword k :: nameTokens name) rest := by
  cases name with
  | none => exact (keyword k fun c hc => (hr c hc).1).append nil
  | some n =>
    have h := (spaced k).append (name (hn n rfl) hr)
    rwa [String.append_assoc] at h

theorem params : (ps : List String) → (∀ p ∈ ps, Named Lexeme.Plain p) → Stops rest →
    Scans (",".intercalate ps) (paramTokens ps) rest
  | [], _, _ => nil
  | [p], h, hr => by
    rw [String.intercalate_singleton]
    exact name (h p List.mem_cons_self) hr
  | p :: q :: ps, h, hr => by
    rw [String.intercalate_cons_cons]
    exact (name (h p List.mem_cons_self) (stops_mark (s := .comma) (by decide))).join
      (mark .comma rfl) (params (q :: ps) (fun p hp => h p (.tail _ hp)) hr)

theorem signature {n : Option String} {ps : List String} {body : String} {bs : List Token}
    (hn : ∀ name ∈ n, Named Lexeme.Plain name)
    (hp : ∀ p ∈ ps, Named Lexeme.Plain p) (hb : ∀ rest, Scans body bs rest) :
    Scans (signature n ps body) (nameTokens n ++ signatureTokens ps bs) rest := by
  have hname {rest : List Char} (hr : Stops rest) : Scans (n.getD "") (nameTokens n) rest := by
    cases n with
    | none => exact nil
    | some n => exact name (hn n rfl) hr
  have hopen {rest : List Char} : Scans ")\x7b" [.symbol .rightParen, .symbol .leftBrace] rest :=
    (mark .rightParen rfl).append (mark .leftBrace rfl)
  have hstop (rest : List Char) : Stops (")\x7b".toList ++ rest) := by
    rintro _ ⟨⟩
    exact ⟨by decide, fun h => absurd h (by decide)⟩
  have htokens : nameTokens n ++ signatureTokens ps bs =
      nameTokens n ++ .symbol .leftParen :: paramTokens ps ++
        [.symbol .rightParen, .symbol .leftBrace] ++ bs ++ [.symbol .rightBrace] := by
    simp [signatureTokens]
  rw [htokens, Scriptlet.signature]
  have hhead {rest : List Char} := (hname (stops_mark (s := .leftParen) (by decide))).join
    (mark .leftParen rfl) (params ps hp (hstop rest))
  exact ((hhead.append hopen).append (hb _)).append (mark .rightBrace rfl)

theorem static (isStatic : Bool) :
    Scans (if isStatic then "static " else "") (staticTokens isStatic) rest := by
  cases isStatic with
  | true => exact spaced .static
  | false => exact nil

theorem initial {e : Expr} (h : e.Starts) (he : Scans e.render e.tokens rest) :
    Scans (initialText (some e.render)) (initialTokens (some e.tokens)) rest :=
  (assign h).append he

theorem condition (k : Keyword) :
    Scans (k.spelling ++ "(") [.keyword k, .symbol .leftParen] rest :=
  (keyword k fun c hc => (stops_mark (s := .leftParen) (by decide) c hc).1).append
    (mark .leftParen rfl)

theorem otherwise {s : Stmt} (c : Expr) (yes : Stmt) (line : Nat) (h : Scans s.render s.tokens rest) :
    ∃ text, (Stmt.branch c yes (some s) line).render =
        "if(" ++ c.render ++ ")" ++ yes.render ++ text ∧
      Scans text (.keyword .«else» :: s.tokens) rest := by
  by_cases hblock : ∃ b l, s = .block b l
  · obtain ⟨b, l, rfl⟩ := hblock
    have hstop : ∀ c ∈ ((Stmt.block b l).render.toList ++ rest).head?, continuesWord c = false := by
      rw [Stmt.render, String.append_assoc, String.toList_append, List.append_assoc]
      exact fun c hc => (stops_mark (s := .leftBrace) (by decide) c hc).1
    refine ⟨"else" ++ (Stmt.block b l).render, ?_, (keyword .«else» hstop).append h⟩
    have hbrace : "else\x7b" = "else" ++ "\x7b" := rfl
    simp only [Stmt.render, hbrace, String.append_assoc]
  · exact ⟨_, Stmt.render_branch_else fun b l hs => hblock ⟨b, l, hs⟩, (spaced .«else»).append h⟩

end Scans

theorem stops_signature (ps : List String) (body : String) (rest : List Char) :
    Stops ((signature none ps body).toList ++ rest) := by
  have htext : signature none ps body =
      "(" ++ (",".intercalate ps ++ (")\x7b" ++ (body ++ "\x7d"))) := by
    simp only [signature, Option.getD_none, String.empty_append, String.append_assoc]
  rw [htext, String.toList_append, List.append_assoc]
  exact stops_mark (s := .leftParen) (by decide)

theorem stops_initial (value : Option String) (rest : List Char) :
    Stops ((initialText value).toList ++ (";".toList ++ rest)) := by
  cases value with
  | none => exact stops_mark (s := .semicolon) (by decide)
  | some value =>
    rw [initialText, String.toList_append, List.append_assoc]
    exact stops_mark (s := .assign) (by decide)

theorem named_keys {es : List (String × Expr)}
    (h : ∀ entry ∈ es, Named Lexeme.Plain entry.1 ∨ ∃ line, Lexeme.Plain ⟨.text entry.1, line⟩) :
    ∀ entry ∈ es, Named Lexeme.Plain entry.1 := by
  intro entry hmem
  obtain h | ⟨line, ht⟩ := h entry hmem
  · exact h
  · exact absurd rfl (ht.2 entry.1)

mutual

theorem Expr.scans {rest : List Char} : (e : Expr) → e.every faithful → Stops rest →
    Scans e.render e.tokens rest
  | .literal value _, h, hr => by
    obtain ⟨line, ht⟩ | rfl := h.1
    · exact .literal ht hr
    · exact .literal ⟨trivial, nofun⟩ hr
  | .name n _, h, hr => .reference h.1 hr
  | .assign n e _, ⟨h, he⟩, hr =>
    ((Scans.reference h.1 (stops_mark (s := .assign) (by decide))).append
      (.assign (e.starts he))).append (e.scans he hr)
  | .binary op a b _, ⟨⟨_, hsign, _⟩, ha, hb⟩, hr => by
    have hop : Scans op.spelling _ (b.render.toList ++ rest) :=
      .operator (.binary op) (b.starts hb) hsign
    exact (a.scans ha (Operator.stops (.binary op) _)).join hop (b.scans hb hr)
  | .logical op a b _, ⟨_, ha, hb⟩, hr => by
    have hop : Scans op.spelling _ (b.render.toList ++ rest) :=
      .operator (.logical op) (b.starts hb) (not_signsMeet (by cases op <;> decide))
    exact (a.scans ha (Operator.stops (.logical op) _)).join hop (b.scans hb hr)
  | .unary op e _, ⟨⟨_, hsign, _⟩, he⟩, hr => (Scans.sign (e.starts he) hsign).append (e.scans he hr)
  | .trailing op e _, ⟨⟨⟨hop, _⟩, _⟩, he⟩, hr => by
    obtain ⟨step, rfl⟩ := hop
    cases step with
    | increment =>
      exact (e.scans he (stops_mark (s := .plusPlus) (by decide))).append
        (.mark .plusPlus rfl)
    | decrement =>
      exact (e.scans he (stops_mark (s := .minusMinus) (by decide))).append
        (.mark .minusMinus rfl)
  | .group e _, ⟨_, he⟩, hr =>
    .enclosed (l := .leftParen) (r := .rightParen) rfl rfl
      (e.scans he (stops_mark (by decide)))
  | .call f as _, ⟨⟨_, hlast, _⟩, hf, ha⟩, hr =>
    ((f.scans hf (stops_mark (s := .leftParen) (by decide))).join (.mark .leftParen rfl)
      (slots_scan as ha hlast (stops_mark (s := .rightParen) (by decide)))).append
        (.mark .rightParen rfl)
  | .read e m _, ⟨⟨h, _⟩, he, hm⟩, hr =>
    (e.scans he (stops_member h.2 _)).append (m.scans h.2 hm hr)
  | .write e m v _, ⟨⟨h, _⟩, he, hm, hv⟩, hr =>
    ((e.scans he (stops_member h.2 _)).append
      (m.scans h.2 hm (stops_mark (s := .assign) (by decide)))).join (.assign (v.starts hv))
        (v.scans hv hr)
  | .array as _, ⟨⟨_, hlast, _⟩, ha⟩, hr =>
    .enclosed (l := .leftBracket) (r := .rightBracket) rfl rfl
      (slots_scan as ha hlast (stops_mark (by decide)))
  | .object es _, ⟨⟨h, _⟩, he⟩, hr =>
    .enclosed (l := .leftBrace) (r := .rightBrace) rfl rfl
      (entries_scan es (named_keys h) he (stops_mark (by decide)))
  | .function d, ⟨_, hd⟩, _ => d.scans hd
  | .classExpr d, ⟨h, hd⟩, _ => d.scans h.1 hd
  | .new e _, ⟨_, he⟩, hr => (Scans.spaced .new).append (e.scans he hr)

theorem Member.scans {rest : List Char} : (m : Member) → m.Built Lexeme.Plain →
    m.every faithful → Stops rest → Scans m.render m.tokens rest
  | .named n, h, _, hr => (Scans.mark .dot rfl).append (.name h hr)
  | .computed e, _, he, _ =>
    .enclosed (l := .leftBracket) (r := .rightBracket) rfl rfl
      (e.scans he (stops_mark (by decide)))

theorem slots_scan {rest : List Char} : (as : List (Option Expr)) → everySlot faithful as →
    as.getLast? ≠ some none → Stops rest → Scans (renderSlots as) (slotTokens as) rest
  | [], _, _, _ => .nil
  | [none], _, h, _ => absurd rfl h
  | [some e], he, _, hr => e.scans he.1 hr
  | none :: a :: as, ha, h, hr =>
    (Scans.mark .comma rfl).append
      (slots_scan (a :: as) ha (by rwa [List.getLast?_cons_cons] at h) hr)
  | some e :: a :: as, ⟨he, ha⟩, h, hr =>
    (e.scans he (stops_mark (s := .comma) (by decide))).join (.mark .comma rfl)
      (slots_scan (a :: as) ha (by rwa [List.getLast?_cons_cons] at h) hr)

theorem entries_scan {rest : List Char} : (es : List (String × Expr)) →
    (∀ entry ∈ es, Named Lexeme.Plain entry.1) → everyEntry faithful es → Stops rest →
    Scans (renderEntries es) (entryTokens es) rest
  | [], _, _, _ => .nil
  | [(key, e)], h, he, hr =>
    (Scans.name (h _ List.mem_cons_self) (stops_mark (s := .colon) (by decide))).join
      (.mark .colon rfl) (e.scans he.1 hr)
  | (key, e) :: x :: es, h, ⟨he, hes⟩, hr =>
    ((Scans.name (h _ List.mem_cons_self) (stops_mark (s := .colon) (by decide))).join
      (.mark .colon rfl) (e.scans he (stops_mark (s := .comma) (by decide)))).join
        (.mark .comma rfl)
        (entries_scan (x :: es) (fun entry hmem => h entry (.tail _ hmem)) hes hr)

theorem FunctionDecl.scans {rest : List Char} : (d : FunctionDecl) → d.every faithful →
    Scans d.render d.tokens rest
  | ⟨n, ps, b, l⟩, ⟨⟨⟨_, hn, hp⟩, _⟩, hb⟩ => by
    rw [FunctionDecl.render_eq, ← String.append_assoc]
    exact (Scans.spacedName .function hn (stops_signature ps _ rest)).append
      (.signature (n := none) nofun hp fun rest => body_scans b hb)

theorem ClassDecl.scans {rest : List Char} : (d : ClassDecl) →
    (∀ n ∈ d.name, Named Lexeme.Plain n) → d.every faithful → Scans d.render d.tokens rest
  | ⟨n, ms, l⟩, hn, hm => by
    rw [ClassDecl.render_eq, ClassDecl.tokens_eq, ← String.append_assoc, ← String.append_assoc]
    have hstop : Stops ("\x7b".toList ++ ((renderMembers ms ++ "\x7d").toList ++ rest)) :=
      stops_mark (s := .leftBrace) (by decide)
    have hname := Scans.spacedName .«class» hn hstop
    exact hname.join (.mark .leftBrace rfl)
      ((members_scan ms hm).append (.mark .rightBrace rfl))

theorem members_scan {rest : List Char} : (ms : List ClassMember) → everyMember faithful ms →
    Scans (renderMembers ms) (memberTokens ms) rest
  | [], _ => .nil
  | m :: ms, hm => (m.scans hm.1).append (members_scan ms hm.2)

theorem ClassMember.scans {rest : List Char} : (m : ClassMember) → m.every faithful →
    Scans m.render m.tokens rest
  | .field isStatic n none _, ⟨h, _⟩ =>
    ((Scans.static isStatic).join (.name h.1 (stops_initial none rest)) .nil).append
      (.mark .semicolon rfl)
  | .field isStatic n (some e) _, ⟨h, he⟩ =>
    ((Scans.static isStatic).join (.name h.1 (stops_initial (some e.render) rest))
      (.initial (e.starts he) (e.scans he (stops_mark (s := .semicolon) (by decide))))).append
        (.mark .semicolon rfl)
  | .method isStatic ⟨n, ps, b, l⟩, ⟨_, ⟨⟨_, hn, hp⟩, _⟩, hb⟩ => by
    rw [ClassMember.tokens, List.append_assoc]
    exact (Scans.static isStatic).append (.signature hn hp fun rest => body_scans b hb)

theorem Stmt.scans {rest : List Char} : (s : Stmt) → s.every faithful → Scans s.render s.tokens rest
  | .block b _, ⟨_, hb⟩ =>
    .enclosed (l := .leftBrace) (r := .rightBrace) rfl rfl (body_scans b hb)
  | .declare n none _, ⟨h, _⟩ =>
    ((Scans.spaced .var).join (.name h.1 (stops_initial none rest)) .nil).append
      (.mark .semicolon rfl)
  | .declare n (some e) _, ⟨h, he⟩ =>
    ((Scans.spaced .var).join (.name h.1 (stops_initial (some e.render) rest))
      (.initial (e.starts he) (e.scans he (stops_mark (s := .semicolon) (by decide))))).append
        (.mark .semicolon rfl)
  | .function d, ⟨_, hd⟩ => d.scans hd
  | .classDecl d, ⟨h, hd⟩ => by
    obtain ⟨⟨name, hname, hn⟩, -⟩ := h
    refine d.scans ?_ hd
    rw [hname]
    rintro _ ⟨⟩
    exact hn
  | .branch c yes none _, ⟨_, hc, hy, _⟩ =>
    (((Scans.condition .«if»).append (c.scans hc (stops_mark (s := .rightParen) (by decide)))).join
      (.mark .rightParen rfl) (yes.scans hy)).append .nil
  | .branch c yes (some s) l, ⟨_, hc, hy, hs⟩ => by
    have hs : Scans s.render s.tokens rest := s.scans hs
    obtain ⟨text, hrender, helse⟩ := Scans.otherwise c yes l hs
    rw [hrender]
    exact (((Scans.condition .«if»).append (c.scans hc (stops_mark (s := .rightParen) (by decide)))).join
      (.mark .rightParen rfl) (yes.scans hy)).append helse
  | .loop c body _, ⟨_, hc, hb⟩ =>
    (Scans.condition .«while»).append (c.scans hc (stops_mark (s := .rightParen) (by decide)))
      |>.join (.mark .rightParen rfl) (body.scans hb)
  | .«return» (some e) _, ⟨_, he⟩ =>
    ((Scans.spaced .«return»).append (e.scans he (stops_mark (s := .semicolon) (by decide)))).append
      (.mark .semicolon rfl)
  | .«return» none _, _ =>
    (Scans.keyword .«return» fun c hc => (stops_mark (s := .semicolon) (by decide) c hc).1).append
      (.mark .semicolon rfl)
  | .expr e _, ⟨_, he⟩ =>
    (e.scans he (stops_mark (s := .semicolon) (by decide))).append
      (.mark .semicolon rfl)

theorem body_scans {rest : List Char} : (ss : List Stmt) → everyStmt faithful ss →
    Scans (renderBody ss) (bodyTokens ss) rest
  | [], _ => .nil
  | s :: ss, hs => (s.scans hs.1).append (body_scans ss hs.2)

end

end Scriptlet
