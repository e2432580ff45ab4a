import Scriptlet.Proofs.GrammarCompleteness
import Scriptlet.Proofs.TreeTokens

namespace Scriptlet.Grammar

open Parse

def ReadsBody (ts : List Lexeme) (body : List Stmt) : Prop :=
  ∀ n k rest, ts.length + rest.length < n → ts.length ≤ k →
    statementsFrom (nested n) k (ts ++ rest) = .ok (body, rest)

def ReadsMembers (ts : List Lexeme) (members : List ClassMember) : Prop :=
  ∀ n k rest, ts.length + rest.length < n → ts.length ≤ k →
    membersFrom (nested n) k (ts ++ rest) = .ok (members, rest)

def ReadsMember (ts : List Lexeme) (m : ClassMember) : Prop :=
  ∀ n rest, ts.length + rest.length < n → member (nested n) (ts ++ rest) = .ok (m, rest)

def ReadsStatement (ts : List Lexeme) (s : Stmt) : Prop :=
  ∀ n rest, (s.takesElse → NoElse rest) → ts.length + rest.length ≤ n →
    statement (nested n) (ts ++ rest) = .ok (s, rest)

def ReadsDeclaration (ts : List Lexeme) (s : Stmt) : Prop :=
  ∀ n rest, (s.takesElse → NoElse rest) → ts.length + rest.length ≤ n →
    declaration (nested n) (ts ++ rest) = .ok (s, rest)

theorem namesFrom_reads (params : List String) (rest : List Lexeme) :
    ∀ k, params ≠ [] → params.length ≤ k →
      namesFrom k (lexed (paramTokens params) ++ ⟨.symbol .rightParen, 1⟩ :: rest) =
        .ok (params, rest) := by
  induction params with
  | nil => exact fun _ h => absurd rfl h
  | cons p ps ih =>
    intro k _ hk
    obtain ⟨k, rfl⟩ : ∃ j, k = j + 1 := ⟨k - 1, by simp only [List.length_cons] at hk; omega⟩
    cases ps with
    | nil => rfl
    | cons q ps =>
      have hrest := ih k (List.cons_ne_nil q ps) (by simp only [List.length_cons] at hk ⊢; omega)
      have hname : identifier (lexed (paramTokens (p :: q :: ps)) ++ ⟨.symbol .rightParen, 1⟩ :: rest) =
          .ok (p, ⟨.symbol .comma, 1⟩ ::
            (lexed (paramTokens (q :: ps)) ++ ⟨.symbol .rightParen, 1⟩ :: rest)) := rfl
      rw [namesFrom, namesRound, bind_run hname, bind_run separator_comma]
      exact bind_run hrest

theorem length_paramTokens : (params : List String) → params.length ≤ (paramTokens params).length
  | [] => Nat.le_refl _
  | [_] => Nat.le_refl _
  | _ :: q :: ps => Nat.succ_le_succ (Nat.le_succ_of_le (length_paramTokens (q :: ps)))

theorem parameters_reads (params : List String) (rest : List Lexeme) :
    parameters (lexed (paramTokens params) ++ ⟨.symbol .rightParen, 1⟩ :: rest) =
      .ok (params, rest) := by
  cases params with
  | nil =>
    rw [parameters]
    exact bind_run accept_cons
  | cons p ps =>
    have hlength := length_paramTokens (p :: ps)
    have hnames := namesFrom_reads (p :: ps) rest
      (lexed (paramTokens (p :: ps)) ++ ⟨.symbol .rightParen, 1⟩ :: rest).length
      (List.cons_ne_nil p ps) (by simp only [lexed, List.length_append, List.length_map]; omega)
    have haccept : accept (.symbol .rightParen)
        (lexed (paramTokens (p :: ps)) ++ ⟨.symbol .rightParen, 1⟩ :: rest) =
          .ok (false, lexed (paramTokens (p :: ps)) ++ ⟨.symbol .rightParen, 1⟩ :: rest) := by
      cases ps <;> exact accept_cons_ne nofun
    rw [parameters, bind_run haccept]
    exact hnames

theorem block_reads {ts : List Lexeme} {body : List Stmt} (h : ReadsBody ts body) {n : Nat}
    {rest : List Lexeme} (hn : ts.length + rest.length < n) :
    block (nested n) (ts ++ rest) = .ok (body, rest) :=
  h n _ rest hn (by rw [List.length_append]; omega)

def signatureLexemes (params : List String) (ts : List Lexeme) : List Lexeme :=
  ⟨.symbol .leftParen, 1⟩ :: (lexed (paramTokens params) ++
    ⟨.symbol .rightParen, 1⟩ :: ⟨.symbol .leftBrace, 1⟩ :: ts)

theorem functionRest_reads {params : List String} {ts : List Lexeme} {body : List Stmt}
    (hp : params.length ≤ maxArguments) (hb : ReadsBody ts body) (name : Option String) (line : Nat)
    {n : Nat} {rest : List Lexeme} (hn : (signatureLexemes params ts).length + rest.length ≤ n) :
    functionRest (nested n) name line (signatureLexemes params ts ++ rest) =
        .ok (⟨name, params, body, line⟩, rest) := by
  simp only [signatureLexemes, List.length_cons, List.length_append] at hn
  simp only [signatureLexemes, List.cons_append, List.append_assoc]
  rw [functionRest, bind_run expect_cons, bind_run (parameters_reads params _),
    bind_run (limit_run hp), bind_run expect_cons]
  exact bind_run (block_reads hb (by omega))

theorem classRest_reads {ts : List Lexeme} {members : List ClassMember} (h : ReadsMembers ts members)
    (name : Option String) (line : Nat) {n : Nat} {rest : List Lexeme}
    (hn : ts.length + rest.length < n) :
    classRest (nested n) name line (⟨.symbol .leftBrace, 1⟩ :: (ts ++ rest)) =
      .ok (⟨name, members, line⟩, rest) := by
  have hmembers : bounded (fun k => membersFrom (nested n) (k + 1)) (ts ++ rest) =
      .ok (members, rest) := h n _ rest hn (by rw [List.length_append]; omega)
  rw [classRest, bind_run expect_cons]
  exact bind_run hmembers

theorem take?_nameOf (name : Option String) {s : Symbol} {rest : List Lexeme} :
    take? nameOf (lexed (nameTokens name) ++ ⟨.symbol s, 1⟩ :: rest) =
      .ok (name.map (·, 1), ⟨.symbol s, 1⟩ :: rest) := by
  cases name <;> rfl

theorem primary_function {ts : List Lexeme} {inner : Inner} :
    primary inner (⟨.keyword .function, 1⟩ :: ts) = (take? nameOf >>= fun name =>
      functionRest inner (name.map (·.1)) 1 >>= fun decl => pure (.function decl)) ts := rfl

theorem primary_class {ts : List Lexeme} {inner : Inner} :
    primary inner (⟨.keyword .«class», 1⟩ :: ts) = (take? nameOf >>= fun name =>
      classRest inner (name.map (·.1)) 1 >>= fun decl => pure (.classExpr decl)) ts := rfl

theorem map_fst_line (name : Option String) : (name.map (·, 1)).map (·.1) = name := by
  cases name <;> rfl

theorem Reads.function {name : Option String} {params : List String} {ts : List Lexeme}
    {body : List Stmt} (hp : params.length ≤ maxArguments) (hb : ReadsBody ts body) :
    Reads (⟨.keyword .function, 1⟩ :: (lexed (nameTokens name) ++ signatureLexemes params ts))
      (.expr .primary (.function ⟨name, params, body, 1⟩)) := by
  intro n rest _ hn
  simp only [List.length_cons, List.length_append] at hn
  simp only [List.cons_append, List.append_assoc]
  change primary _ _ = _
  have hname : take? nameOf (lexed (nameTokens name) ++ (signatureLexemes params ts ++ rest)) =
      .ok (name.map (·, 1), signatureLexemes params ts ++ rest) := take?_nameOf name
  rw [primary_function, bind_run hname, map_fst_line]
  exact bind_run (functionRest_reads hp hb name 1 (by omega))

theorem Reads.classExpr {name : Option String} {ts : List Lexeme} {members : List ClassMember}
    (h : ReadsMembers ts members) :
    Reads (⟨.keyword .«class», 1⟩ :: (lexed (nameTokens name) ++ ⟨.symbol .leftBrace, 1⟩ :: ts))
      (.expr .primary (.classExpr ⟨name, members, 1⟩)) := by
  intro n rest _ hn
  simp only [List.length_cons, List.length_append] at hn
  simp only [List.cons_append, List.append_assoc]
  change primary _ _ = _
  rw [primary_class, bind_run (take?_nameOf name), map_fst_line]
  exact bind_run (classRest_reads h name 1 (by omega))

theorem after_cons {α : Type} {p : Parse α} {token : Token} {line : Nat} {ts rest : List Lexeme}
    {a : α} (h : p ts = .ok (a, rest)) :
    after token p (⟨token, line⟩ :: ts) = .ok (some a, rest) := by
  rw [after, bind_run accept_cons]
  change (p >>= fun a => pure (some a)) ts = _
  exact bind_run h

theorem after_none {α : Type} {p : Parse α} {token : Token} {ts : List Lexeme}
    (h : ∀ l ∈ ts.head?, l.token ≠ token) : after token p ts = .ok (none, ts) := by
  cases ts with
  | nil => rfl
  | cons l ts =>
    rw [after, bind_run (accept_cons_ne (h l rfl))]
    rfl

inductive ReadsInitial : List Lexeme → Option Expr → Prop
  | none : ReadsInitial [] none
  | some {ts : List Lexeme} {e : Expr} (h : Reads ts (.expr .assignment e)) :
    ReadsInitial (⟨.symbol .assign, 1⟩ :: ts) (some e)

namespace ReadsInitial

variable {ts : List Lexeme} {initial : Option Expr}

theorem after_run (h : ReadsInitial ts initial) {n : Nat} {rest : List Lexeme}
    (hn : ts.length + rest.length < n) :
    after (.symbol .assign) (nested n .expression) (ts ++ ⟨.symbol .semicolon, 1⟩ :: rest) =
      .ok (initial, ⟨.symbol .semicolon, 1⟩ :: rest) := by
  cases h with
  | none =>
    refine after_none ?_
    rintro _ ⟨⟩
    exact nofun
  | @some ts e h =>
    rw [List.length_cons] at hn
    have hvalue := h.enclosed n (⟨.symbol .semicolon, 1⟩ :: rest)
      (by rw [List.length_cons]; omega) (Closes.cons_detached rfl)
    exact after_cons hvalue

theorem sees_run (h : ReadsInitial ts initial) (rest : List Lexeme) :
    sees (.symbol .leftParen) (ts ++ ⟨.symbol .semicolon, 1⟩ :: rest) =
      .ok (false, ts ++ ⟨.symbol .semicolon, 1⟩ :: rest) := by
  cases h <;> rfl

end ReadsInitial

def Leads (ts : List Lexeme) : Prop :=
  ∃ l us, ts = l :: us ∧ l.token ≠ .symbol .semicolon ∧ l.token ≠ .symbol .rightBrace ∧
    l.token ≠ .keyword .«else»

theorem skipSemicolons_run {ts : List Lexeme} (h : ∀ l ∈ ts.head?, l.token ≠ .symbol .semicolon) :
    skipSemicolons ts = .ok ((), ts) := by
  cases ts with
  | nil => rfl
  | cons l ts =>
    change Except.ok ((), (l :: ts).dropWhile _) = _
    rw [List.dropWhile_cons_of_neg (by simpa using h l rfl)]

theorem skipSemicolons_leads {ts : List Lexeme} (h : Leads ts) (rest : List Lexeme) :
    skipSemicolons (ts ++ rest) = .ok ((), ts ++ rest) := by
  obtain ⟨l, us, rfl, hsemi, -⟩ := h
  refine skipSemicolons_run ?_
  rintro _ ⟨⟩
  exact hsemi

theorem accept_leads {ts : List Lexeme} (h : Leads ts) (rest : List Lexeme) :
    accept (.symbol .rightBrace) (ts ++ rest) = .ok (false, ts ++ rest) := by
  obtain ⟨l, us, rfl, -, hbrace, -⟩ := h
  exact accept_cons_ne hbrace

namespace ReadsBody

theorem nil : ReadsBody [⟨.symbol .rightBrace, 1⟩] [] := by
  intro n k rest _ hk
  obtain ⟨k, rfl⟩ : ∃ j, k = j + 1 := ⟨k - 1, by simp only [List.length_singleton] at hk; omega⟩
  rw [statementsFrom, statementsRound, List.singleton_append, bind_run (skipSemicolons_run (by rintro _ ⟨⟩; exact nofun)),
    bind_run accept_cons]
  rfl

theorem cons {ts us : List Lexeme} {s : Stmt} {body : List Stmt} (hs : ReadsDeclaration ts s)
    (hl : Leads ts) (hn : ∀ rest, NoElse (us ++ rest)) (hb : ReadsBody us body) :
    ReadsBody (ts ++ us) (s :: body) := by
  intro n k rest hlen hk
  simp only [List.append_assoc, List.length_append] at hlen hk ⊢
  have hpos : 0 < ts.length := by
    obtain ⟨l, vs, rfl, -⟩ := hl
    exact Nat.succ_pos _
  obtain ⟨k, rfl⟩ : ∃ j, k = j + 1 := ⟨k - 1, by omega⟩
  obtain ⟨m, rfl⟩ : ∃ m, n = m + 1 := ⟨n - 1, by omega⟩
  have hfirst : nested (m + 1) .declaration (ts ++ (us ++ rest)) = .ok (s, us ++ rest) :=
    hs m (us ++ rest) (fun _ => hn rest) (by rw [List.length_append]; omega)
  rw [statementsFrom, statementsRound, bind_run (skipSemicolons_leads hl _), bind_run (accept_leads hl _)]
  change (nested (m + 1) .declaration >>= _) _ = _
  rw [bind_run hfirst]
  exact bind_run (hb (m + 1) k rest (by omega) (by omega))

end ReadsBody

namespace ReadsMembers

theorem nil : ReadsMembers [⟨.symbol .rightBrace, 1⟩] [] := by
  intro n k rest _ hk
  obtain ⟨k, rfl⟩ : ∃ j, k = j + 1 := ⟨k - 1, by simp only [List.length_singleton] at hk; omega⟩
  rw [membersFrom, membersRound, List.singleton_append, bind_run (skipSemicolons_run (by rintro _ ⟨⟩; exact nofun)),
    bind_run accept_cons]
  rfl

theorem cons {ts us : List Lexeme} {m : ClassMember} {members : List ClassMember}
    (hm : ReadsMember ts m) (hl : Leads ts) (hr : ReadsMembers us members) :
    ReadsMembers (ts ++ us) (m :: members) := by
  intro n k rest hlen hk
  simp only [List.append_assoc, List.length_append] at hlen hk ⊢
  have hpos : 0 < ts.length := by
    obtain ⟨l, vs, rfl, -⟩ := hl
    exact Nat.succ_pos _
  obtain ⟨k, rfl⟩ : ∃ j, k = j + 1 := ⟨k - 1, by omega⟩
  have hfirst := hm n (us ++ rest) (by rw [List.length_append]; omega)
  rw [membersFrom, membersRound, bind_run (skipSemicolons_leads hl _), bind_run (accept_leads hl _)]
  change (member (nested n) >>= _) _ = _
  rw [bind_run hfirst]
  exact bind_run (hr n k rest (by omega) (by omega))

end ReadsMembers

namespace ReadsMember

theorem static_run (isStatic : Bool) (name : String) (rest : List Lexeme) :
    accept (.keyword .static) (lexed (staticTokens isStatic) ++ ⟨.name name, 1⟩ :: rest) =
      .ok (isStatic, ⟨.name name, 1⟩ :: rest) := by
  cases isStatic with
  | true => exact accept_cons
  | false => exact accept_cons_ne nofun

theorem name_run (name : String) (rest : List Lexeme) :
    require nameOf .identifier (⟨.name name, 1⟩ :: rest) = .ok ((name, 1), rest) := by
  rw [require_cons]
  rfl

theorem member_run (isStatic : Bool) (name : String) (n : Nat) (rest : List Lexeme) :
    member (nested n) (lexed (staticTokens isStatic) ++ ⟨.name name, 1⟩ :: rest) =
      (sees (.symbol .leftParen) >>= fun isMethod =>
        if isMethod then
          functionRest (nested n) (some name) 1 >>= fun decl => pure (.method isStatic decl)
        else after (.symbol .assign) (nested n .expression) >>= fun initial =>
          accept (.symbol .semicolon) >>= fun _ => pure (.field isStatic name initial 1)) rest := by
  rw [member, bind_run (static_run ..), bind_run (name_run ..)]

theorem method {isStatic : Bool} {name : String} {params : List String} {ts : List Lexeme}
    {body : List Stmt} (hp : params.length ≤ maxArguments) (hb : ReadsBody ts body) :
    ReadsMember (lexed (staticTokens isStatic) ++ ⟨.name name, 1⟩ :: signatureLexemes params ts)
      (.method isStatic ⟨some name, params, body, 1⟩) := by
  intro n rest hn
  simp only [List.length_append, List.length_cons] at hn
  have hsees : sees (.symbol .leftParen) (signatureLexemes params ts ++ rest) =
      .ok (true, signatureLexemes params ts ++ rest) := rfl
  rw [List.append_assoc, List.cons_append, member_run, bind_run hsees]
  exact bind_run (functionRest_reads hp hb (some name) 1 (by omega))

theorem field {isStatic : Bool} {name : String} {ts : List Lexeme} {initial : Option Expr}
    (hi : ReadsInitial ts initial) :
    ReadsMember
      (lexed (staticTokens isStatic) ++ ⟨.name name, 1⟩ :: (ts ++ [⟨.symbol .semicolon, 1⟩]))
      (.field isStatic name initial 1) := by
  intro n rest hn
  simp only [List.length_append, List.length_cons, List.length_nil] at hn
  simp only [List.append_assoc, List.cons_append, List.nil_append]
  rw [member_run, bind_run (hi.sees_run rest)]
  change (after _ _ >>= _) _ = _
  rw [bind_run (hi.after_run (by omega)), bind_run accept_cons]
  rfl

end ReadsMember

theorem condition_reads {ts : List Lexeme} {e : Expr} (h : Reads ts (.expr .assignment e)) {n : Nat}
    {rest : List Lexeme} (hn : ts.length + rest.length + 1 < n) (what : Expected) :
    condition (nested n) what
        (⟨.symbol .leftParen, 1⟩ :: (ts ++ ⟨.symbol .rightParen, 1⟩ :: rest)) = .ok (e, rest) := by
  have hinner := h.enclosed n (⟨.symbol .rightParen, 1⟩ :: rest)
    (by rw [List.length_cons]; omega) (Closes.cons_detached rfl)
  rw [condition, bind_run expect_cons, bind_run hinner]
  exact bind_run expect_cons

namespace ReadsStatement

variable {ts us cs : List Lexeme} {c e : Expr} {s yes no body : Stmt}

theorem enclosed (h : ReadsStatement ts s) (n : Nat) (rest : List Lexeme)
    (hrest : s.takesElse → NoElse rest) (hn : ts.length + rest.length < n) :
    nested n .statement (ts ++ rest) = .ok (s, rest) := by
  obtain ⟨m, rfl⟩ : ∃ m, n = m + 1 := ⟨n - 1, by omega⟩
  exact h m rest hrest (by omega)

theorem statement_run {t : Token} {opening : Opening} (h : opening? t = some opening) (n : Nat) :
    statement (nested n) (⟨t, 1⟩ :: ts) = statementRest (nested n) (some (opening, 1)) ts := by
  have htake : take? opening? (⟨t, 1⟩ :: ts) = .ok (some (opening, 1), ts) := by
    simp only [take?_cons, h]
  rw [statement_eq, bind_run htake]

theorem block {body : List Stmt} (h : ReadsBody ts body) :
    ReadsStatement (⟨.symbol .leftBrace, 1⟩ :: ts) (.block body 1) := by
  intro n rest _ hn
  rw [List.length_cons] at hn
  rw [List.cons_append, statement_run rfl]
  exact bind_run (block_reads h (by omega))

theorem branch (hc : Reads cs (.expr .assignment c)) (hy : ReadsStatement ts yes) :
    ReadsStatement (⟨.keyword .«if», 1⟩ :: ⟨.symbol .leftParen, 1⟩ ::
      (cs ++ ⟨.symbol .rightParen, 1⟩ :: ts)) (.branch c yes none 1) := by
  intro n rest hrest hn
  have hrest := hrest rfl
  simp only [List.length_cons, List.length_append] at hn
  simp only [List.cons_append, List.append_assoc]
  have hyes := hy.enclosed n rest (fun _ => hrest) (by omega)
  rw [statement_run rfl, statementRest, ifRest,
    bind_run (condition_reads hc (by rw [List.length_append]; omega) _), bind_run hyes,
    bind_run (after_none hrest)]
  rfl

theorem branchElse (hc : Reads cs (.expr .assignment c)) (hy : ReadsStatement ts yes)
    (hn : ReadsStatement us no) (hclosed : yes.takesElse = false) :
    ReadsStatement (⟨.keyword .«if», 1⟩ :: ⟨.symbol .leftParen, 1⟩ ::
        (cs ++ ⟨.symbol .rightParen, 1⟩ :: (ts ++ ⟨.keyword .«else», 1⟩ :: us)))
      (.branch c yes (some no) 1) := by
  intro n rest hrest hlen
  simp only [List.length_cons, List.length_append] at hlen
  simp only [List.cons_append, List.append_assoc]
  have hyes := hy.enclosed n (⟨.keyword .«else», 1⟩ :: (us ++ rest))
    (fun h => absurd h (by rw [hclosed]; exact Bool.false_ne_true))
    (by simp only [List.length_cons, List.length_append]; omega)
  have hno := hn.enclosed n rest hrest (by omega)
  rw [statement_run rfl, statementRest, ifRest,
    bind_run (condition_reads hc (by simp only [List.length_cons, List.length_append]; omega) _),
    bind_run hyes, bind_run (after_cons hno)]
  rfl

theorem loop (hc : Reads cs (.expr .assignment c)) (hb : ReadsStatement ts body) :
    ReadsStatement (⟨.keyword .«while», 1⟩ :: ⟨.symbol .leftParen, 1⟩ ::
      (cs ++ ⟨.symbol .rightParen, 1⟩ :: ts)) (.loop c body 1) := by
  intro n rest hrest hn
  simp only [List.length_cons, List.length_append] at hn
  simp only [List.cons_append, List.append_assoc]
  have hbody := hb.enclosed n rest hrest (by omega)
  rw [statement_run rfl, statementRest, whileRest,
    bind_run (condition_reads hc (by rw [List.length_append]; omega) _), bind_run hbody]
  rfl

theorem returnNone :
    ReadsStatement [⟨.keyword .«return», 1⟩, ⟨.symbol .semicolon, 1⟩] (.«return» none 1) := by
  intro n rest _ _
  rfl

theorem returnSome (ho : Opens .assignment ts) (h : Reads ts (.expr .assignment e)) :
    ReadsStatement (⟨.keyword .«return», 1⟩ :: (ts ++ [⟨.symbol .semicolon, 1⟩]))
      (.«return» (some e) 1) := by
  intro n rest _ hn
  simp only [List.length_cons, List.length_append, List.length_nil] at hn
  simp only [List.cons_append, List.append_assoc, List.nil_append]
  have hvalue := h.enclosed n (⟨.symbol .semicolon, 1⟩ :: rest)
    (by rw [List.length_cons]; omega) (Closes.cons_detached rfl)
  obtain ⟨⟨t, line⟩, us, l, rfl, ht, -⟩ := ho
  have hs (s : Symbol) (hs : (Token.symbol s).opens? = none) :
      sees (.symbol s) (⟨t, line⟩ :: us ++ ⟨.symbol .semicolon, 1⟩ :: rest) =
        .ok (false, ⟨t, line⟩ :: us ++ ⟨.symbol .semicolon, 1⟩ :: rest) := by
    have hne : t ≠ .symbol s := by
      rintro rfl
      rw [hs] at ht
      cases ht
    change Except.ok (decide (t = .symbol s), _) = _
    rw [decide_eq_false hne]
  have hend : atEnd (⟨t, line⟩ :: us ++ ⟨.symbol .semicolon, 1⟩ :: rest) =
      .ok (false, ⟨t, line⟩ :: us ++ ⟨.symbol .semicolon, 1⟩ :: rest) := rfl
  rw [statement_run rfl, statementRest, returnRest, bind_run hend, bind_run (hs _ rfl),
    bind_run (hs _ rfl)]
  change (nested n .expression >>= _) _ = _
  rw [bind_run hvalue, bind_run accept_cons]
  rfl

theorem expr {t : Token} (ht : opening? t = none) (h : Reads (⟨t, 1⟩ :: ts) (.expr .assignment e)) :
    ReadsStatement (⟨t, 1⟩ :: ts ++ [⟨.symbol .semicolon, 1⟩]) (.expr e 1) := by
  intro n rest _ hn
  simp only [List.length_append, List.length_cons, List.length_nil] at hn
  simp only [List.append_assoc, List.cons_append, List.nil_append]
  have htake : take? opening? (⟨t, 1⟩ :: (ts ++ ⟨.symbol .semicolon, 1⟩ :: rest)) =
      .ok (none, ⟨t, 1⟩ :: (ts ++ ⟨.symbol .semicolon, 1⟩ :: rest)) := by
    simp only [take?_cons, ht]
  have hexpr : assignment (nested n) (⟨t, 1⟩ :: (ts ++ ⟨.symbol .semicolon, 1⟩ :: rest)) =
      .ok (e, ⟨.symbol .semicolon, 1⟩ :: rest) :=
    h n _ (Closes.cons_detached rfl) (by simp only [List.length_cons]; omega)
  rw [statement_eq, bind_run htake]
  change (assignment (nested n) >>= fun e => accept (.symbol .semicolon) >>= fun _ =>
    pure (Stmt.expr e 1)) _ = _
  rw [bind_run hexpr, bind_run accept_cons]
  rfl

end ReadsStatement

def Undeclared (ts : List Lexeme) : Prop :=
  (∀ l ∈ ts.head?, l.token ≠ .keyword .var) ∧
    ∀ l n us, ts = l :: n :: us → l.token = .keyword .function ∨ l.token = .keyword .«class» →
      ∀ name, n.token ≠ .name name

namespace ReadsDeclaration

variable {ts : List Lexeme} {s : Stmt} {name : String}

theorem of_statement (h : ReadsStatement ts s) (hs : ∀ rest, Undeclared (ts ++ rest)) :
    ReadsDeclaration ts s := by
  intro n rest hrest hn
  have hrun := h n rest hrest hn
  have hs := hs rest
  generalize ts ++ rest = us at hrun hs
  rw [declaration_run]
  split
  · exact absurd rfl (hs.1 _ rfl)
  · exact absurd rfl (hs.2 _ _ _ rfl (.inl rfl) _)
  · exact absurd rfl (hs.2 _ _ _ rfl (.inr rfl) _)
  · exact hrun

theorem var {initial : Option Expr} (h : ReadsInitial ts initial) :
    ReadsDeclaration
      (⟨.keyword .var, 1⟩ :: ⟨.name name, 1⟩ :: (ts ++ [⟨.symbol .semicolon, 1⟩]))
      (.declare name initial 1) := by
  intro n rest _ hn
  simp only [List.length_cons, List.length_append, List.length_nil] at hn
  simp only [List.cons_append, List.append_assoc, List.nil_append]
  have hname (us : List Lexeme) : identifier (⟨.name name, 1⟩ :: us) = .ok (name, us) := rfl
  have hdecl : variableDecl (nested n) (⟨.keyword .var, 1⟩ :: ⟨.name name, 1⟩ ::
      (ts ++ ⟨.symbol .semicolon, 1⟩ :: rest)) =
        .ok (.declare name initial 1, ⟨.symbol .semicolon, 1⟩ :: rest) := by
    rw [variableDecl, bind_run expect_cons, bind_run (hname _), bind_run (h.after_run (by omega))]
    rfl
  rw [declaration_run]
  change (variableDecl (nested n) >>= _) _ = _
  rw [bind_run hdecl, bind_run accept_cons]
  rfl

theorem function {params : List String} {body : List Stmt} (hp : params.length ≤ maxArguments)
    (hb : ReadsBody ts body) :
    ReadsDeclaration (⟨.keyword .function, 1⟩ :: ⟨.name name, 1⟩ :: signatureLexemes params ts)
      (.function ⟨some name, params, body, 1⟩) := by
  intro n rest _ hn
  simp only [List.length_cons] at hn
  change (functionRest (nested n) (some name) 1 >>= fun decl => pure (Stmt.function decl))
    (signatureLexemes params ts ++ rest) = _
  exact bind_run (functionRest_reads hp hb (some name) 1 (by omega))

theorem classDecl {members : List ClassMember} (h : ReadsMembers ts members) :
    ReadsDeclaration (⟨.keyword .«class», 1⟩ :: ⟨.name name, 1⟩ :: ⟨.symbol .leftBrace, 1⟩ :: ts)
      (.classDecl ⟨some name, members, 1⟩) := by
  intro n rest _ hn
  simp only [List.length_cons] at hn
  change (classRest (nested n) (some name) 1 >>= fun decl => pure (Stmt.classDecl decl))
    (⟨.symbol .leftBrace, 1⟩ :: (ts ++ rest)) = _
  exact bind_run (classRest_reads h (some name) 1 (by omega))

end ReadsDeclaration

def ReadsProgram (ts : List Lexeme) (body : List Stmt) : Prop :=
  ∀ k, ts.length ≤ k → programFrom k ts = .ok (body, [])

namespace ReadsProgram

theorem nil : ReadsProgram [] [] := by
  intro k _
  cases k <;> rfl

theorem cons {ts us : List Lexeme} {s : Stmt} {body : List Stmt} (hs : ReadsDeclaration ts s)
    (hl : Leads ts) (hn : NoElse us) (hb : ReadsProgram us body) :
    ReadsProgram (ts ++ us) (s :: body) := by
  intro k hk
  rw [List.length_append] at hk
  have hpos : 0 < ts.length := by
    obtain ⟨l, vs, rfl, -⟩ := hl
    exact Nat.succ_pos _
  obtain ⟨k, rfl⟩ : ∃ j, k = j + 1 := ⟨k - 1, by omega⟩
  have hend : atEnd (ts ++ us) = .ok (false, ts ++ us) := by
    obtain ⟨l, vs, rfl, -⟩ := hl
    rfl
  have hfirst : phrase .declaration (ts ++ us) = .ok (s, us) := by
    rw [phrase, bounded_run]
    exact hs _ us (fun _ => hn) (Nat.le_of_eq List.length_append.symm)
  rw [programFrom, programRound, bind_run (skipSemicolons_leads hl _), bind_run hend]
  change (phrase .declaration >>= _) _ = _
  rw [bind_run hfirst]
  exact bind_run (hb k (by omega))

theorem program {ts : List Lexeme} {body : List Stmt} (h : ReadsProgram ts body) :
    program ts = .ok body := by
  have hrun : bounded programFrom ts = .ok (body, []) := h _ (Nat.le_refl _)
  unfold Grammar.program
  rw [StateT.run, hrun]

end ReadsProgram

end Scriptlet.Grammar
