import Scriptlet.Syntax.Tree

namespace Scriptlet

namespace Stmt

def declared? : Stmt → Option String
  | declare name _ _ => some name
  | function decl => decl.name
  | classDecl decl => decl.name
  | _ => none

/-- Not a declaration, and without one as an arm or a body of its own. -/
def plain : Stmt → Bool
  | block _ _ | «return» _ _ | expr _ _ => true
  | branch _ yes none _ => yes.plain
  | branch _ yes (some no) _ => yes.plain && no.plain
  | loop _ body _ => body.plain
  | declare _ _ _ | function _ | classDecl _ => false
termination_by structural s => s

end Stmt

/-- What every node of a kind has to satisfy. -/
structure Check where
  expr : Expr → Prop := fun _ => True
  function : FunctionDecl → Prop := fun _ => True
  member : ClassMember → Prop := fun _ => True
  stmt : Stmt → Prop := fun _ => True

mutual

def Expr.every (c : Check) : Expr → Prop
  | .literal v l => c.expr (.literal v l)
  | .name n l => c.expr (.name n l)
  | .assign n e l => c.expr (.assign n e l) ∧ e.every c
  | .binary op a b l => c.expr (.binary op a b l) ∧ a.every c ∧ b.every c
  | .logical op a b l => c.expr (.logical op a b l) ∧ a.every c ∧ b.every c
  | .unary op e l => c.expr (.unary op e l) ∧ e.every c
  | .trailing op e l => c.expr (.trailing op e l) ∧ e.every c
  | .group e l => c.expr (.group e l) ∧ e.every c
  | .call f as l => c.expr (.call f as l) ∧ f.every c ∧ everySlot c as
  | .read h m l => c.expr (.read h m l) ∧ h.every c ∧ m.every c
  | .write h m e l => c.expr (.write h m e l) ∧ h.every c ∧ m.every c ∧ e.every c
  | .array as l => c.expr (.array as l) ∧ everySlot c as
  | .object es l => c.expr (.object es l) ∧ everyEntry c es
  | .function d => c.expr (.function d) ∧ d.every c
  | .classExpr d => c.expr (.classExpr d) ∧ d.every c
  | .new e l => c.expr (.new e l) ∧ e.every c
termination_by structural e => e

def Member.every (c : Check) : Member → Prop
  | .named _ => True
  | .computed e => e.every c
termination_by structural m => m

def everySlot (c : Check) : List (Option Expr) → Prop
  | [] => True
  | none :: as => everySlot c as
  | some e :: as => e.every c ∧ everySlot c as
termination_by structural as => as

def everyEntry (c : Check) : List (String × Expr) → Prop
  | [] => True
  | (_, e) :: es => e.every c ∧ everyEntry c es
termination_by structural es => es

def FunctionDecl.every (c : Check) : FunctionDecl → Prop
  | ⟨n, ps, b, l⟩ => c.function ⟨n, ps, b, l⟩ ∧ everyStmt c b
termination_by structural d => d

def ClassDecl.every (c : Check) : ClassDecl → Prop
  | ⟨_, ms, _⟩ => everyMember c ms
termination_by structural d => d

def everyMember (c : Check) : List ClassMember → Prop
  | [] => True
  | m :: ms => m.every c ∧ everyMember c ms
termination_by structural ms => ms

def ClassMember.every (c : Check) : ClassMember → Prop
  | .field s n e l => c.member (.field s n e l) ∧ everyInitial c e
  | .method s d => c.member (.method s d) ∧ d.every c
termination_by structural m => m

def everyInitial (c : Check) : Option Expr → Prop
  | none => True
  | some e => e.every c
termination_by structural e => e

def Stmt.every (c : Check) : Stmt → Prop
  | .block b l => c.stmt (.block b l) ∧ everyStmt c b
  | .declare n e l => c.stmt (.declare n e l) ∧ everyInitial c e
  | .function d => c.stmt (.function d) ∧ d.every c
  | .classDecl d => c.stmt (.classDecl d) ∧ d.every c
  | .branch e y n l => c.stmt (.branch e y n l) ∧ e.every c ∧ y.every c ∧ everyElse c n
  | .loop e b l => c.stmt (.loop e b l) ∧ e.every c ∧ b.every c
  | .«return» e l => c.stmt (.«return» e l) ∧ everyInitial c e
  | .expr e l => c.stmt (.expr e l) ∧ e.every c
termination_by structural s => s

def everyElse (c : Check) : Option Stmt → Prop
  | none => True
  | some s => s.every c
termination_by structural s => s

def everyStmt (c : Check) : List Stmt → Prop
  | [] => True
  | s :: ss => s.every c ∧ everyStmt c ss
termination_by structural ss => ss

end

structure Check.Implies (c d : Check) : Prop where
  expr : ∀ e, c.expr e → d.expr e
  function : ∀ f, c.function f → d.function f
  member : ∀ m, c.member m → d.member m
  stmt : ∀ s, c.stmt s → d.stmt s

def Check.and (c d : Check) : Check where
  expr e := c.expr e ∧ d.expr e
  function f := c.function f ∧ d.function f
  member m := c.member m ∧ d.member m
  stmt s := c.stmt s ∧ d.stmt s

section

variable {c d k : Check}

mutual

theorem Expr.every_zip (h : (c.and d).Implies k) : (e : Expr) → e.every c → e.every d → e.every k
  | .literal _ _, hc, hd => h.expr _ ⟨hc, hd⟩
  | .name _ _, hc, hd => h.expr _ ⟨hc, hd⟩
  | .assign _ e _, ⟨hc, he⟩, ⟨hd, he'⟩ => ⟨h.expr _ ⟨hc, hd⟩, e.every_zip h he he'⟩
  | .binary _ a b _, ⟨hc, ha, hb⟩, ⟨hd, ha', hb'⟩ =>
    ⟨h.expr _ ⟨hc, hd⟩, a.every_zip h ha ha', b.every_zip h hb hb'⟩
  | .logical _ a b _, ⟨hc, ha, hb⟩, ⟨hd, ha', hb'⟩ =>
    ⟨h.expr _ ⟨hc, hd⟩, a.every_zip h ha ha', b.every_zip h hb hb'⟩
  | .unary _ e _, ⟨hc, he⟩, ⟨hd, he'⟩ => ⟨h.expr _ ⟨hc, hd⟩, e.every_zip h he he'⟩
  | .trailing _ e _, ⟨hc, he⟩, ⟨hd, he'⟩ => ⟨h.expr _ ⟨hc, hd⟩, e.every_zip h he he'⟩
  | .group e _, ⟨hc, he⟩, ⟨hd, he'⟩ => ⟨h.expr _ ⟨hc, hd⟩, e.every_zip h he he'⟩
  | .call f as _, ⟨hc, hf, ha⟩, ⟨hd, hf', ha'⟩ =>
    ⟨h.expr _ ⟨hc, hd⟩, f.every_zip h hf hf', everySlot_zip h as ha ha'⟩
  | .read e m _, ⟨hc, he, hm⟩, ⟨hd, he', hm'⟩ =>
    ⟨h.expr _ ⟨hc, hd⟩, e.every_zip h he he', m.every_zip h hm hm'⟩
  | .write e m v _, ⟨hc, he, hm, hv⟩, ⟨hd, he', hm', hv'⟩ =>
    ⟨h.expr _ ⟨hc, hd⟩, e.every_zip h he he', m.every_zip h hm hm', v.every_zip h hv hv'⟩
  | .array as _, ⟨hc, ha⟩, ⟨hd, ha'⟩ => ⟨h.expr _ ⟨hc, hd⟩, everySlot_zip h as ha ha'⟩
  | .object es _, ⟨hc, he⟩, ⟨hd, he'⟩ => ⟨h.expr _ ⟨hc, hd⟩, everyEntry_zip h es he he'⟩
  | .function f, ⟨hc, hf⟩, ⟨hd, hf'⟩ => ⟨h.expr _ ⟨hc, hd⟩, f.every_zip h hf hf'⟩
  | .classExpr k, ⟨hc, hk⟩, ⟨hd, hk'⟩ => ⟨h.expr _ ⟨hc, hd⟩, k.every_zip h hk hk'⟩
  | .new e _, ⟨hc, he⟩, ⟨hd, he'⟩ => ⟨h.expr _ ⟨hc, hd⟩, e.every_zip h he he'⟩

theorem Member.every_zip (h : (c.and d).Implies k) :
    (m : Member) → m.every c → m.every d → m.every k
  | .named _, _, _ => trivial
  | .computed e, hc, hd => e.every_zip h hc hd

theorem everySlot_zip (h : (c.and d).Implies k) :
    (as : List (Option Expr)) → everySlot c as → everySlot d as → everySlot k as
  | [], _, _ => trivial
  | none :: as, hc, hd => everySlot_zip h as hc hd
  | some e :: as, hc, hd => ⟨e.every_zip h hc.1 hd.1, everySlot_zip h as hc.2 hd.2⟩

theorem everyEntry_zip (h : (c.and d).Implies k) :
    (es : List (String × Expr)) → everyEntry c es → everyEntry d es → everyEntry k es
  | [], _, _ => trivial
  | (_, e) :: es, hc, hd => ⟨e.every_zip h hc.1 hd.1, everyEntry_zip h es hc.2 hd.2⟩

theorem FunctionDecl.every_zip (h : (c.and d).Implies k) :
    (f : FunctionDecl) → f.every c → f.every d → f.every k
  | ⟨_, _, b, _⟩, hc, hd => ⟨h.function _ ⟨hc.1, hd.1⟩, everyStmt_zip h b hc.2 hd.2⟩

theorem ClassDecl.every_zip (h : (c.and d).Implies k) :
    (f : ClassDecl) → f.every c → f.every d → f.every k
  | ⟨_, ms, _⟩, hc, hd => everyMember_zip h ms hc hd

theorem everyMember_zip (h : (c.and d).Implies k) :
    (ms : List ClassMember) → everyMember c ms → everyMember d ms → everyMember k ms
  | [], _, _ => trivial
  | m :: ms, hc, hd => ⟨m.every_zip h hc.1 hd.1, everyMember_zip h ms hc.2 hd.2⟩

theorem ClassMember.every_zip (h : (c.and d).Implies k) :
    (m : ClassMember) → m.every c → m.every d → m.every k
  | .field _ _ e _, hc, hd => ⟨h.member _ ⟨hc.1, hd.1⟩, everyInitial_zip h e hc.2 hd.2⟩
  | .method _ f, hc, hd => ⟨h.member _ ⟨hc.1, hd.1⟩, f.every_zip h hc.2 hd.2⟩

theorem everyInitial_zip (h : (c.and d).Implies k) :
    (e : Option Expr) → everyInitial c e → everyInitial d e → everyInitial k e
  | none, _, _ => trivial
  | some e, hc, hd => e.every_zip h hc hd

theorem Stmt.every_zip (h : (c.and d).Implies k) : (s : Stmt) → s.every c → s.every d → s.every k
  | .block b _, hc, hd => ⟨h.stmt _ ⟨hc.1, hd.1⟩, everyStmt_zip h b hc.2 hd.2⟩
  | .declare _ e _, hc, hd => ⟨h.stmt _ ⟨hc.1, hd.1⟩, everyInitial_zip h e hc.2 hd.2⟩
  | .function f, hc, hd => ⟨h.stmt _ ⟨hc.1, hd.1⟩, f.every_zip h hc.2 hd.2⟩
  | .classDecl k, hc, hd => ⟨h.stmt _ ⟨hc.1, hd.1⟩, k.every_zip h hc.2 hd.2⟩
  | .branch e y n _, ⟨hc, he, hy, hn⟩, ⟨hd, he', hy', hn'⟩ =>
    ⟨h.stmt _ ⟨hc, hd⟩, e.every_zip h he he', y.every_zip h hy hy', everyElse_zip h n hn hn'⟩
  | .loop e b _, ⟨hc, he, hb⟩, ⟨hd, he', hb'⟩ =>
    ⟨h.stmt _ ⟨hc, hd⟩, e.every_zip h he he', b.every_zip h hb hb'⟩
  | .«return» e _, hc, hd => ⟨h.stmt _ ⟨hc.1, hd.1⟩, everyInitial_zip h e hc.2 hd.2⟩
  | .expr e _, hc, hd => ⟨h.stmt _ ⟨hc.1, hd.1⟩, e.every_zip h hc.2 hd.2⟩

theorem everyElse_zip (h : (c.and d).Implies k) :
    (s : Option Stmt) → everyElse c s → everyElse d s → everyElse k s
  | none, _, _ => trivial
  | some s, hc, hd => s.every_zip h hc hd

theorem everyStmt_zip (h : (c.and d).Implies k) :
    (ss : List Stmt) → everyStmt c ss → everyStmt d ss → everyStmt k ss
  | [], _, _ => trivial
  | s :: ss, hc, hd => ⟨s.every_zip h hc.1 hd.1, everyStmt_zip h ss hc.2 hd.2⟩

end

theorem Check.Implies.refl : k.Implies k :=
  ⟨fun _ he => he, fun _ hf => hf, fun _ hm => hm, fun _ hs => hs⟩

theorem Check.Implies.and_left (h : c.Implies k) : (c.and c).Implies k :=
  ⟨fun e he => h.expr e he.1, fun f hf => h.function f hf.1, fun m hm => h.member m hm.1,
    fun s hs => h.stmt s hs.1⟩

theorem Expr.every_mono (h : c.Implies k) (e : Expr) (he : e.every c) : e.every k :=
  e.every_zip h.and_left he he

theorem FunctionDecl.every_mono (h : c.Implies k) (f : FunctionDecl) (hf : f.every c) : f.every k :=
  f.every_zip h.and_left hf hf

theorem everyStmt_mono (h : c.Implies k) (ss : List Stmt) (hs : everyStmt c ss) : everyStmt k ss :=
  everyStmt_zip h.and_left ss hs hs

structure Check.Total (c : Check) : Prop where
  expr : ∀ e, c.expr e
  function : ∀ f, c.function f
  member : ∀ m, c.member m
  stmt : ∀ s, c.stmt s

mutual

theorem Expr.every_of_total (h : c.Total) : (e : Expr) → e.every c
  | .literal _ _ | .name _ _ => h.expr _
  | .assign _ e _ | .unary _ e _ | .trailing _ e _ | .group e _ | .new e _ =>
    ⟨h.expr _, e.every_of_total h⟩
  | .binary _ a b _ | .logical _ a b _ => ⟨h.expr _, a.every_of_total h, b.every_of_total h⟩
  | .call f as _ => ⟨h.expr _, f.every_of_total h, everySlot_of_total h as⟩
  | .read e m _ => ⟨h.expr _, e.every_of_total h, m.every_of_total h⟩
  | .write e m v _ => ⟨h.expr _, e.every_of_total h, m.every_of_total h, v.every_of_total h⟩
  | .array as _ => ⟨h.expr _, everySlot_of_total h as⟩
  | .object es _ => ⟨h.expr _, everyEntry_of_total h es⟩
  | .function f => ⟨h.expr _, f.every_of_total h⟩
  | .classExpr k => ⟨h.expr _, k.every_of_total h⟩

theorem Member.every_of_total (h : c.Total) : (m : Member) → m.every c
  | .named _ => trivial
  | .computed e => e.every_of_total h

theorem everySlot_of_total (h : c.Total) : (as : List (Option Expr)) → everySlot c as
  | [] => trivial
  | none :: as => everySlot_of_total h as
  | some e :: as => ⟨e.every_of_total h, everySlot_of_total h as⟩

theorem everyEntry_of_total (h : c.Total) : (es : List (String × Expr)) → everyEntry c es
  | [] => trivial
  | (_, e) :: es => ⟨e.every_of_total h, everyEntry_of_total h es⟩

theorem FunctionDecl.every_of_total (h : c.Total) : (f : FunctionDecl) → f.every c
  | ⟨_, _, b, _⟩ => ⟨h.function _, everyStmt_of_total h b⟩

theorem ClassDecl.every_of_total (h : c.Total) : (k : ClassDecl) → k.every c
  | ⟨_, ms, _⟩ => everyMember_of_total h ms

theorem everyMember_of_total (h : c.Total) : (ms : List ClassMember) → everyMember c ms
  | [] => trivial
  | m :: ms => ⟨m.every_of_total h, everyMember_of_total h ms⟩

theorem ClassMember.every_of_total (h : c.Total) : (m : ClassMember) → m.every c
  | .field _ _ e _ => ⟨h.member _, everyInitial_of_total h e⟩
  | .method _ f => ⟨h.member _, f.every_of_total h⟩

theorem everyInitial_of_total (h : c.Total) : (e : Option Expr) → everyInitial c e
  | none => trivial
  | some e => e.every_of_total h

theorem Stmt.every_of_total (h : c.Total) : (s : Stmt) → s.every c
  | .block b _ => ⟨h.stmt _, everyStmt_of_total h b⟩
  | .declare _ e _ | .«return» e _ => ⟨h.stmt _, everyInitial_of_total h e⟩
  | .function f => ⟨h.stmt _, f.every_of_total h⟩
  | .classDecl k => ⟨h.stmt _, k.every_of_total h⟩
  | .branch e y n _ => ⟨h.stmt _, e.every_of_total h, y.every_of_total h, everyElse_of_total h n⟩
  | .loop e b _ => ⟨h.stmt _, e.every_of_total h, b.every_of_total h⟩
  | .expr e _ => ⟨h.stmt _, e.every_of_total h⟩

theorem everyElse_of_total (h : c.Total) : (s : Option Stmt) → everyElse c s
  | none => trivial
  | some s => s.every_of_total h

theorem everyStmt_of_total (h : c.Total) : (ss : List Stmt) → everyStmt c ss
  | [] => trivial
  | s :: ss => ⟨s.every_of_total h, everyStmt_of_total h ss⟩

end

end
end Scriptlet
