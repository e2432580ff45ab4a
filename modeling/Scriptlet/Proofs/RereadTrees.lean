import Scriptlet.Proofs.ExpressionReading
import Scriptlet.Proofs.SpelledTrees

namespace Scriptlet

open Grammar

abbrev noLines : Expr → Member → Expr → Nat := fun _ _ _ => 0

section

variable (mark : Expr → Member → Expr → Nat)

theorem Expr.level_relined (e : Expr) : (e.relined mark).level = e.level := by
  cases e <;> rfl

variable {mark} in
theorem Expr.Fits.of_relined {e e' : Expr} {level : Level} (h : e'.relined mark = e.relined mark)
    (hf : e.Fits level) : e'.Fits level := by
  unfold Expr.Fits at *
  rwa [← e'.level_relined mark, h, e.level_relined]

theorem Stmt.takesElse_relined : (s : Stmt) → (s.relined mark).takesElse = s.takesElse
  | .branch _ _ none _ => rfl
  | .branch _ _ (some no) _ => no.takesElse_relined
  | .loop _ body _ => body.takesElse_relined
  | .block _ _ | .declare _ _ _ | .function _ | .classDecl _ | .«return» _ _ | .expr _ _ => rfl

theorem Stmt.plain_relined : (s : Stmt) → (s.relined mark).plain = s.plain
  | .branch _ yes none _ => yes.plain_relined
  | .branch _ yes (some no) _ => by
    change ((yes.relined mark).plain && (no.relined mark).plain) = (yes.plain && no.plain)
    rw [yes.plain_relined, no.plain_relined]
  | .loop _ body _ => body.plain_relined
  | .block _ _ | .declare _ _ _ | .function _ | .classDecl _ | .«return» _ _ | .expr _ _ => rfl

theorem length_relinedSlots (as : List (Option Expr)) :
    (relinedSlots mark as).length = as.length := by
  induction as with
  | nil => rfl
  | cons a as ih =>
    cases a with
    | none => exact congrArg Nat.succ ih
    | some e => exact congrArg Nat.succ ih

end

namespace Grammar

theorem Leads.of_opens {level : Level} {ts : List Lexeme} (h : Opens level ts) : Leads ts := by
  obtain ⟨l, us, l', rfl, ho, -⟩ := h
  refine ⟨l, us, rfl, ?_, ?_, ?_⟩ <;> (intro ht; rw [ht] at ho; cases ho)

theorem Leads.noElse {ts : List Lexeme} (h : Leads ts) (us : List Lexeme) : NoElse (ts ++ us) := by
  obtain ⟨l, vs, rfl, -, -, helse⟩ := h
  rintro _ ⟨⟩
  exact helse

structure ReadsItem (ts : List Lexeme) (s : Stmt) : Prop where
  leads : Leads ts
  declaration : ReadsDeclaration ts s
  statement : s.plain → ReadsStatement ts s

namespace ReadsItem

variable {ts : List Lexeme} {s : Stmt}

theorem of_statement (h : ReadsStatement ts s) (hl : Leads ts) (hu : ∀ rest, Undeclared (ts ++ rest)) :
    ReadsItem ts s :=
  ⟨hl, .of_statement h hu, fun _ => h⟩

theorem of_opening {t : Token} {opening : Opening} (ht : opening? t = some opening)
    (h : ReadsStatement (⟨t, 1⟩ :: ts) s) : ReadsItem (⟨t, 1⟩ :: ts) s := by
  have hne (t' : Token) (ht' : opening? t' = none) : t ≠ t' := by
    rintro rfl
    rw [ht'] at ht
    cases ht
  refine .of_statement h ⟨_, ts, rfl, hne _ rfl, hne _ rfl, hne _ rfl⟩ fun rest => ⟨?_, ?_⟩
  · rintro _ ⟨⟩
    exact hne _ rfl
  · intro l n us hl hk
    obtain rfl := (List.cons.inj hl).1
    obtain hk | hk := hk
    · exact absurd hk (hne _ rfl)
    · exact absurd hk (hne _ rfl)

theorem of_declaration {k : Keyword} (h : ReadsDeclaration (⟨.keyword k, 1⟩ :: ts) s)
    (hk : k ≠ .«else») (hs : s.plain = false) : ReadsItem (⟨.keyword k, 1⟩ :: ts) s :=
  ⟨⟨_, ts, rfl, nofun, nofun, fun he => hk (Token.keyword.inj he)⟩, h,
    fun hp => absurd hp (by rw [hs]; exact Bool.false_ne_true)⟩

end ReadsItem

theorem reference_reads {n : String} (h : n = "this" ∨ Named Lexeme.Plain n) :
    ReadsBack [⟨.ofWord n, 1⟩] (.name n 1) := by
  refine .primary rfl (Token.plain_reference h).2.2 ?_
  obtain rfl | ⟨line, hn⟩ := h
  · exact fun _ _ _ _ => rfl
  · obtain ⟨_, _, _, _, _, hw⟩ := hn.1
    rw [show Token.ofWord n = .name n from hw]
    exact fun _ _ _ _ => rfl

theorem lexed_signature (ps : List String) (b : List Token) :
    lexed (signatureTokens ps b) =
      signatureLexemes ps (lexed b ++ [⟨.symbol .rightBrace, 1⟩]) := by
  simp [signatureTokens, signatureLexemes]

theorem lexed_field (isStatic : Bool) (n : String) (value : Option (List Token)) :
    lexed (staticTokens isStatic ++ .name n :: initialTokens value ++ [.symbol .semicolon]) =
      lexed (staticTokens isStatic) ++
        ⟨.name n, 1⟩ :: (lexed (initialTokens value) ++ [⟨.symbol .semicolon, 1⟩]) := by
  simp

theorem leads_member (isStatic : Bool) (n : String) (ts : List Lexeme) :
    Leads (lexed (staticTokens isStatic) ++ ⟨.name n, 1⟩ :: ts) := by
  cases isStatic <;> exact ⟨_, _, rfl, nofun, nofun, nofun⟩

theorem opening?_of_opens? {t : Token} {level : Level} (h : t.opens? = some level)
    (hb : t ≠ .symbol .leftBrace) : opening? t = none := by
  cases t with
  | keyword k => cases k <;> first | rfl | cases h
  | symbol s => cases s <;> first | rfl | exact absurd rfl hb
  | _ => rfl

theorem map_token_lexed (ts : List Token) : (lexed ts).map Lexeme.token = ts := by
  rw [lexed, List.map_map]
  exact List.map_id ts

theorem statement_reads {e e' : Expr} (he : e.every faithful) (hr : ReadsBack (lexed e.tokens) e')
    (hlead : ∀ lead ∈ ["\x7b", "function ", "class "], ¬ lead.toList <+: e.render.toList) :
    ReadsItem (lexed (e.tokens ++ [.symbol .semicolon])) (.expr e' 1) := by
  -- The text shows what the first two tokens can be.
  have hundeclared (k : Keyword) (hk : k = .function ∨ k = .«class») (us : List Token) (name : String)
      (vs : List Token) : e.tokens ++ us ≠ .keyword k :: .name name :: vs := by
    intro heq
    refine hlead (k.spelling ++ " ") ?_ (e.announces he us k name vs hk heq)
    obtain rfl | rfl := hk <;> decide
  obtain ⟨t, ts, text, level, htokens, hrender, -, ho, -⟩ := e.starts he
  have hbrace : t ≠ .symbol .leftBrace := by
    rintro rfl
    exact hlead _ List.mem_cons_self (by rw [hrender]; exact List.prefix_append ..)
  have hleads : Leads (lexed (e.tokens ++ [.symbol .semicolon])) := by
    rw [lexed_append]
    exact .of_opens (hr.opens.append _)
  have hstatement : ReadsStatement (lexed (e.tokens ++ [.symbol .semicolon])) (.expr e' 1) := by
    have hexpr := hr.expression
    rw [htokens, lexed_cons] at hexpr
    rw [htokens, lexed_append, lexed_cons]
    exact .expr (opening?_of_opens? ho hbrace) hexpr
  refine .of_statement hstatement hleads fun rest => ⟨?_, ?_⟩
  · rw [htokens, List.cons_append, lexed_cons]
    rintro _ ⟨⟩ ht
    rw [show t = .keyword .var from ht] at ho
    cases ho
  · intro l n us heq hl name hn
    have hmap := congrArg (List.map Lexeme.token) heq
    rw [List.map_append, map_token_lexed, List.append_assoc, List.map_cons, List.map_cons, hn] at hmap
    obtain hl | hl := hl
    · rw [hl] at hmap
      exact hundeclared .function (.inl rfl) _ _ _ hmap
    · rw [hl] at hmap
      exact hundeclared .«class» (.inr rfl) _ _ _ hmap

end Grammar

def Expr.Reread (e : Expr) : Prop :=
  ∃ e', e'.relined noLines = e.relined noLines ∧ ReadsBack (lexed e.tokens) e'

def Member.Reread (m : Member) : Prop :=
  ∃ m', m'.relined noLines = m.relined noLines ∧ ∀ holder ts, ReadsBack ts holder →
    holder.Fits .call → ReadsBack (ts ++ lexed m.tokens) (.read holder m' 1)

def ClassMember.Reread (m : ClassMember) : Prop :=
  ∃ m', m'.relined noLines = m.relined noLines ∧ Leads (lexed m.tokens) ∧
    ReadsMember (lexed m.tokens) m'

def Stmt.Reread (s : Stmt) : Prop :=
  ∃ s', s'.relined noLines = s.relined noLines ∧ ReadsItem (lexed s.tokens) s'

mutual

theorem Expr.reread : (e : Expr) → e.every faithful → e.Reread
  | .literal value l, h =>
    ⟨.literal value 1, rfl, .primary (t := value.token) rfl (by cases value <;> rfl) (.literal rfl)⟩
  | .name n l, h => ⟨.name n 1, rfl, reference_reads h.1⟩
  | .assign n e l, h => by
    obtain ⟨e', he, hr⟩ := e.reread h.2
    have hassign := (reference_reads h.1.1).assign (.name n) rfl hr
    exact ⟨.assign n e' 1, by simp only [Expr.relined, he], hassign⟩
  | .binary op a b l, h => by
    obtain ⟨a', ha, hra⟩ := a.reread h.2.1
    obtain ⟨b', hb, hrb⟩ := b.reread h.2.2
    obtain ⟨hja, hjb⟩ := h.1.2.2
    refine ⟨.binary op a' b' 1, by simp only [Expr.relined, ha, hb], ?_⟩
    rw [Expr.tokens, lexed_append, lexed_cons]
    exact hra.join (.binary op) hrb ⟨hja.of_relined ha, hjb.of_relined hb⟩
  | .logical op a b l, h => by
    obtain ⟨a', ha, hra⟩ := a.reread h.2.1
    obtain ⟨b', hb, hrb⟩ := b.reread h.2.2
    obtain ⟨hja, hjb⟩ := h.1.2.2
    refine ⟨.logical op a' b' 1, by simp only [Expr.relined, ha, hb], ?_⟩
    rw [Expr.tokens, lexed_append, lexed_cons]
    exact hra.join (.logical op) hrb ⟨hja.of_relined ha, hjb.of_relined hb⟩
  | .unary op e l, h => by
    obtain ⟨e', he, hr⟩ := e.reread h.2
    exact ⟨.unary op e' 1, by simp only [Expr.relined, he], hr.unary op (h.1.1.of_relined he)⟩
  | .trailing op e l, h => by
    obtain ⟨e', he, hr⟩ := e.reread h.2
    obtain ⟨⟨step, rfl⟩, hf⟩ := h.1.1
    refine ⟨.trailing (.step step) e' 1, by simp only [Expr.relined, he], ?_⟩
    rw [Expr.tokens, lexed_append]
    exact hr.trailing step (hf.of_relined he)
  | .group e l, h => by
    obtain ⟨e', he, hr⟩ := e.reread h.2
    refine ⟨.group e' 1, by simp only [Expr.relined, he], ?_⟩
    rw [Expr.tokens, lexed_append, lexed_cons]
    exact .primary rfl rfl hr.expression.group
  | .call f as l, h => by
    obtain ⟨f', hf, hrf⟩ := f.reread h.2.1
    obtain ⟨as', ha, hra⟩ := slots_reread as h.2.2 h.1.2.1 .rightParen
    have hn : as'.length ≤ maxArguments := by
      rw [← length_relinedSlots noLines, ha, length_relinedSlots]
      exact h.1.1.2
    refine ⟨.call f' as' 1, by simp only [Expr.relined, hf, ha], ?_⟩
    rw [Expr.tokens, List.append_assoc, lexed_append, List.cons_append, lexed_cons, lexed_append]
    exact hrf.call (h.1.1.1.of_relined hf) hn hra
  | .read e m l, h => by
    obtain ⟨e', he, hr⟩ := e.reread h.2.1
    obtain ⟨m', hm, hrm⟩ := m.reread h.2.2
    refine ⟨.read e' m' 1, by simp only [Expr.relined, he, hm], ?_⟩
    rw [Expr.tokens, lexed_append]
    exact hrm e' _ hr (h.1.1.1.of_relined he)
  | .write e m v l, h => by
    obtain ⟨e', he, hr⟩ := e.reread h.2.1
    obtain ⟨m', hm, hrm⟩ := m.reread h.2.2.1
    obtain ⟨v', hv, hrv⟩ := v.reread h.2.2.2
    refine ⟨.write e' m' v' 1, by simp only [Expr.relined, he, hm, hv], ?_⟩
    rw [Expr.tokens, lexed_append, lexed_append, lexed_cons]
    exact (hrm e' _ hr (h.1.1.1.of_relined he)).assign (.property e' m') rfl hrv
  | .array as l, h => by
    obtain ⟨as', ha, hra⟩ := slots_reread as h.2 h.1.2.1 .rightBracket
    refine ⟨.array as' 1, by simp only [Expr.relined, ha], ?_⟩
    rw [Expr.tokens, List.cons_append, lexed_cons, lexed_append]
    exact .primary rfl rfl hra.array
  | .object es l, h => by
    obtain ⟨es', he, hre⟩ := entries_reread es h.2
    refine ⟨.object es' 1, by simp only [Expr.relined, he], ?_⟩
    rw [Expr.tokens, List.cons_append, lexed_cons, lexed_append]
    exact .primary rfl rfl hre.object
  | .function ⟨n, ps, b, l⟩, ⟨_, ⟨⟨hp, _⟩, _⟩, hb⟩ => by
    obtain ⟨b', hb', hr⟩ := body_reread b hb
    refine ⟨.function ⟨n, ps, b', 1⟩, by simp only [Expr.relined, FunctionDecl.relined, hb'], ?_⟩
    rw [Expr.tokens, FunctionDecl.tokens_eq, lexed_cons, lexed_append, lexed_signature]
    exact .primary rfl rfl (.function hp hr.2)
  | .classExpr ⟨n, ms, l⟩, h => by
    obtain ⟨ms', hm, hr⟩ := members_reread ms h.2
    refine ⟨.classExpr ⟨n, ms', 1⟩, by simp only [Expr.relined, ClassDecl.relined, hm], ?_⟩
    rw [Expr.tokens, ClassDecl.tokens_eq, lexed_cons, lexed_append, lexed_cons, lexed_append]
    exact .primary rfl rfl (.classExpr hr)
  | .new e l, h => by
    obtain ⟨e', he, hr⟩ := e.reread h.2
    exact ⟨.new e' 1, by simp only [Expr.relined, he], hr.creation (h.1.1.of_relined he)⟩

theorem Member.reread : (m : Member) → m.every faithful → m.Reread
  | .named n, _ => ⟨.named n, rfl, fun _ _ h hf => h.named hf n⟩
  | .computed e, h => by
    obtain ⟨e', he, hr⟩ := e.reread h
    refine ⟨.computed e', by simp only [Member.relined, he], fun holder ts hh hf => ?_⟩
    rw [Member.tokens, List.cons_append, lexed_cons, lexed_append]
    exact hh.computed hf hr

theorem slots_reread : (as : List (Option Expr)) → everySlot faithful as → as.getLast? ≠ some none →
    ∀ closing : Symbol, ∃ as', relinedSlots noLines as' = relinedSlots noLines as ∧
      Reads (lexed (slotTokens as) ++ [⟨.symbol closing, 1⟩]) (.slots closing as')
  | [], _, _, _ => ⟨[], rfl, .noSlots⟩
  | [none], _, h, _ => absurd rfl h
  | [some e], he, _, _ => by
    obtain ⟨e', hre, hr⟩ := e.reread he.1
    exact ⟨[some e'], by simp only [relinedSlots, hre], hr.expression.lastSlot hr.opens_expression⟩
  | none :: a :: as, ha, h, closing => by
    obtain ⟨as', hra, hr⟩ := slots_reread (a :: as) ha (by rwa [List.getLast?_cons_cons] at h) closing
    refine ⟨none :: as', by rw [relinedSlots, relinedSlots, hra], ?_⟩
    exact hr.emptySlot
  | some e :: a :: as, ⟨he, ha⟩, h, closing => by
    obtain ⟨e', hre, hrx⟩ := e.reread he
    obtain ⟨as', hra, hr⟩ := slots_reread (a :: as) ha (by rwa [List.getLast?_cons_cons] at h) closing
    refine ⟨some e' :: as', by rw [relinedSlots, relinedSlots, hra, hre], ?_⟩
    have htokens : slotTokens (some e :: a :: as) = e.tokens ++ .symbol .comma :: slotTokens (a :: as) := rfl
    rw [htokens, lexed_append, List.append_assoc]
    exact hrx.expression.slot hrx.opens_expression hr

theorem entries_reread : (es : List (String × Expr)) → everyEntry faithful es →
    ∃ es', relinedEntries noLines es' = relinedEntries noLines es ∧
      Reads (lexed (entryTokens es) ++ [⟨.symbol .rightBrace, 1⟩]) (.entries es')
  | [], _ => ⟨[], rfl, .noEntries⟩
  | [(key, e)], he => by
    obtain ⟨e', hre, hr⟩ := e.reread he.1
    exact ⟨[(key, e')], by simp only [relinedEntries, hre], hr.expression.lastEntry (.inl rfl)⟩
  | (key, e) :: x :: es, ⟨he, hes⟩ => by
    obtain ⟨e', hre, hrx⟩ := e.reread he
    obtain ⟨es', hra, hr⟩ := entries_reread (x :: es) hes
    refine ⟨(key, e') :: es', by rw [relinedEntries, relinedEntries, hra, hre], ?_⟩
    have htokens : entryTokens ((key, e) :: x :: es) =
        .name key :: .symbol .colon :: e.tokens ++ .symbol .comma :: entryTokens (x :: es) := rfl
    rw [htokens, lexed_append, List.append_assoc]
    exact hrx.expression.entry (.inl rfl) hr

theorem members_reread : (ms : List ClassMember) → everyMember faithful ms →
    ∃ ms', relinedMembers noLines ms' = relinedMembers noLines ms ∧
      ReadsMembers (lexed (memberTokens ms) ++ [⟨.symbol .rightBrace, 1⟩]) ms'
  | [], _ => ⟨[], rfl, .nil⟩
  | m :: ms, ⟨hm, hms⟩ => by
    obtain ⟨m', hrm, hl, hr⟩ := m.reread hm
    obtain ⟨ms', hrms, hrs⟩ := members_reread ms hms
    refine ⟨m' :: ms', by rw [relinedMembers, relinedMembers, hrm, hrms], ?_⟩
    rw [memberTokens, lexed_append, List.append_assoc]
    exact .cons hr hl hrs

theorem ClassMember.reread : (m : ClassMember) → m.every faithful → m.Reread
  | .field isStatic n none l, _ => by
    have hr : ReadsMember _ (.field isStatic n none 1) := .field .none
    rw [ClassMember.Reread, ClassMember.tokens, lexed_field]
    exact ⟨.field isStatic n none 1, rfl, leads_member .., hr⟩
  | .field isStatic n (some e) l, h => by
    obtain ⟨e', he, hre⟩ := e.reread h.2
    have hr : ReadsMember _ (.field isStatic n (some e') 1) := .field (.some hre.expression)
    rw [ClassMember.Reread, ClassMember.tokens, lexed_field]
    exact ⟨.field isStatic n (some e') 1,
      by simp only [ClassMember.relined, relinedInitial, he], leads_member .., hr⟩
  | .method isStatic ⟨n, ps, b, l⟩, ⟨hs, ⟨⟨hp, _⟩, _⟩, hb⟩ => by
    obtain ⟨b', hb', hr⟩ := body_reread b hb
    obtain ⟨name, rfl⟩ := Option.isSome_iff_exists.mp hs.1
    rw [ClassMember.Reread, ClassMember.tokens, List.append_assoc, lexed_append, lexed_append,
      lexed_signature]
    exact ⟨.method isStatic ⟨some name, ps, b', 1⟩,
      by simp only [ClassMember.relined, FunctionDecl.relined, hb'], leads_member .., .method hp hr.2⟩

theorem Stmt.reread : (s : Stmt) → s.every faithful → s.Reread
  | .block b l, h => by
    obtain ⟨b', hb, hr⟩ := body_reread b h.2
    refine ⟨.block b' 1, by simp only [Stmt.relined, hb], ?_⟩
    rw [Stmt.tokens, List.cons_append, lexed_cons, lexed_append]
    exact .of_opening rfl (.block hr.2)
  | .declare n none l, _ =>
    ⟨.declare n none 1, rfl, .of_declaration (.var .none) nofun rfl⟩
  | .declare n (some e) l, h => by
    obtain ⟨e', he, hr⟩ := e.reread h.2
    refine ⟨.declare n (some e') 1, by simp only [Stmt.relined, relinedInitial, he], ?_⟩
    rw [Stmt.tokens, List.cons_append, List.cons_append, lexed_cons, lexed_cons, lexed_append]
    exact .of_declaration (.var (.some hr.expression)) nofun rfl
  | .function ⟨n, ps, b, l⟩, ⟨hs, ⟨⟨hp, _⟩, _⟩, hb⟩ => by
    obtain ⟨b', hb', hr⟩ := body_reread b hb
    obtain ⟨name, rfl⟩ := Option.isSome_iff_exists.mp hs.1
    refine ⟨.function ⟨some name, ps, b', 1⟩,
      by simp only [Stmt.relined, FunctionDecl.relined, hb'], ?_⟩
    rw [Stmt.tokens, FunctionDecl.tokens_eq, lexed_cons, lexed_append, lexed_signature]
    exact .of_declaration (.function hp hr.2) nofun rfl
  | .classDecl ⟨n, ms, l⟩, ⟨hs, hms⟩ => by
    obtain ⟨ms', hm, hr⟩ := members_reread ms hms
    obtain ⟨name, rfl : n = some name, -⟩ := hs.1
    refine ⟨.classDecl ⟨some name, ms', 1⟩, by simp only [Stmt.relined, ClassDecl.relined, hm], ?_⟩
    rw [Stmt.tokens, ClassDecl.tokens_eq, lexed_cons, lexed_append, lexed_cons, lexed_append]
    exact .of_declaration (.classDecl hr) nofun rfl
  | .branch c yes none l, ⟨hs, hc, hy, _⟩ => by
    obtain ⟨c', hc', hrc⟩ := c.reread hc
    obtain ⟨y', hy', hry⟩ := yes.reread hy
    have hplain : y'.plain := by rw [← y'.plain_relined noLines, hy', yes.plain_relined]; exact hs.1.1
    refine ⟨.branch c' y' none 1, by simp only [Stmt.relined, relinedElse, hc', hy'], ?_⟩
    have hr := ReadsStatement.branch hrc.expression (hry.statement hplain)
    simp only [Stmt.tokens, lexed_append, lexed_cons, List.cons_append, List.append_nil]
    exact .of_opening rfl hr
  | .branch c yes (some no) l, ⟨hs, hc, hy, hn⟩ => by
    obtain ⟨c', hc', hrc⟩ := c.reread hc
    obtain ⟨y', hy', hry⟩ := yes.reread hy
    obtain ⟨n', hn', hrn⟩ := no.reread hn
    obtain ⟨hp, hno⟩ := hs.1
    obtain ⟨hpn, htakes⟩ := hno no rfl
    have hyplain : y'.plain := by rw [← y'.plain_relined noLines, hy', yes.plain_relined]; exact hp
    have hnplain : n'.plain := by rw [← n'.plain_relined noLines, hn', no.plain_relined]; exact hpn
    have hclosed : y'.takesElse = false := by
      rw [← y'.takesElse_relined noLines, hy', yes.takesElse_relined]; exact htakes
    refine ⟨.branch c' y' (some n') 1, by simp only [Stmt.relined, relinedElse, hc', hy', hn'], ?_⟩
    -- The first arm takes no `else`, so the one after it belongs to this statement.
    have hr := ReadsStatement.branchElse hrc.expression (hry.statement hyplain)
      (hrn.statement hnplain) hclosed
    simp only [Stmt.tokens, lexed_append, lexed_cons, List.cons_append, List.append_assoc]
    exact .of_opening rfl hr
  | .loop c body l, ⟨hs, hc, hb⟩ => by
    obtain ⟨c', hc', hrc⟩ := c.reread hc
    obtain ⟨b', hb', hrb⟩ := body.reread hb
    have hplain : b'.plain := by rw [← b'.plain_relined noLines, hb', body.plain_relined]; exact hs.1
    refine ⟨.loop c' b' 1, by simp only [Stmt.relined, hc', hb'], ?_⟩
    have hr := ReadsStatement.loop hrc.expression (hrb.statement hplain)
    simp only [Stmt.tokens, lexed_append, lexed_cons, List.cons_append]
    exact .of_opening rfl hr
  | .«return» none l, _ => ⟨.«return» none 1, rfl, .of_opening rfl .returnNone⟩
  | .«return» (some e) l, h => by
    obtain ⟨e', he, hr⟩ := e.reread h.2
    refine ⟨.«return» (some e') 1, by simp only [Stmt.relined, relinedInitial, he], ?_⟩
    rw [Stmt.tokens, List.cons_append, lexed_cons, lexed_append]
    exact .of_opening rfl (.returnSome hr.opens_expression hr.expression)
  | .expr e l, h => by
    obtain ⟨e', he, hr⟩ := e.reread h.2
    exact ⟨.expr e' 1, by simp only [Stmt.relined, he], statement_reads h.2 hr h.1.2.1⟩

theorem body_reread : (ss : List Stmt) → everyStmt faithful ss →
    ∃ ss', relinedBody noLines ss' = relinedBody noLines ss ∧
      (∀ rest, NoElse (lexed (bodyTokens ss) ++ ⟨.symbol .rightBrace, 1⟩ :: rest)) ∧
      ReadsBody (lexed (bodyTokens ss) ++ [⟨.symbol .rightBrace, 1⟩]) ss'
  | [], _ => ⟨[], rfl, fun _ => by rintro _ ⟨⟩; exact nofun, .nil⟩
  | s :: ss, ⟨hs, hss⟩ => by
    obtain ⟨s', hrs, hr⟩ := s.reread hs
    obtain ⟨ss', hrss, helse, hrest⟩ := body_reread ss hss
    refine ⟨s' :: ss', by rw [relinedBody, relinedBody, hrs, hrss], fun rest => ?_, ?_⟩
    · rw [bodyTokens, lexed_append, List.append_assoc]
      exact hr.leads.noElse _
    · rw [bodyTokens, lexed_append, List.append_assoc]
      refine .cons hr.declaration hr.leads (fun rest => ?_) hrest
      rw [List.append_assoc]
      exact helse rest

end

theorem program_reread (ss : List Stmt) (hs : everyStmt faithful ss) :
    ∃ ss', erased ss' = erased ss ∧ ReadsProgram (lexed (bodyTokens ss)) ss' ∧
      NoElse (lexed (bodyTokens ss)) := by
  induction ss with
  | nil => exact ⟨[], rfl, .nil, nofun⟩
  | cons s ss ih =>
    obtain ⟨s', hrs, hr⟩ := s.reread hs.1
    obtain ⟨ss', hrss, hrest, helse⟩ := ih hs.2
    have heq : erased (s' :: ss') = erased (s :: ss) := by
      change s'.relined noLines :: erased ss' = s.relined noLines :: erased ss
      rw [hrs, hrss]
    rw [bodyTokens, lexed_append]
    exact ⟨s' :: ss', heq, .cons hr.declaration hr.leads helse hrest, hr.leads.noElse _⟩

end Scriptlet
