import Scriptlet.Proofs.Sketches
import Scriptlet.Proofs.TreeChecks

namespace Scriptlet

section

variable (f : Nat → Nat)

mutual

def Expr.mapLines : Expr → Expr
  | .literal v l => .literal v (f l)
  | .name n l => .name n (f l)
  | .assign n e l => .assign n e.mapLines (f l)
  | .binary op a b l => .binary op a.mapLines b.mapLines (f l)
  | .logical op a b l => .logical op a.mapLines b.mapLines (f l)
  | .unary op e l => .unary op e.mapLines (f l)
  | .trailing op e l => .trailing op e.mapLines (f l)
  | .group e l => .group e.mapLines (f l)
  | .call g as l => .call g.mapLines (mapSlots as) (f l)
  | .read h m l => .read h.mapLines m.mapLines (f l)
  | .write h m e l => .write h.mapLines m.mapLines e.mapLines (f l)
  | .array as l => .array (mapSlots as) (f l)
  | .object es l => .object (mapEntries es) (f l)
  | .function d => .function d.mapLines
  | .classExpr d => .classExpr d.mapLines
  | .new e l => .new e.mapLines (f l)
termination_by structural e => e

def Member.mapLines : Member → Member
  | .named n => .named n
  | .computed e => .computed e.mapLines
termination_by structural m => m

def mapSlots : List (Option Expr) → List (Option Expr)
  | [] => []
  | none :: as => none :: mapSlots as
  | some e :: as => some e.mapLines :: mapSlots as
termination_by structural as => as

def mapEntries : List (String × Expr) → List (String × Expr)
  | [] => []
  | (n, e) :: es => (n, e.mapLines) :: mapEntries es
termination_by structural es => es

def FunctionDecl.mapLines : FunctionDecl → FunctionDecl
  | ⟨n, ps, b, l⟩ => ⟨n, ps, mapBody b, f l⟩
termination_by structural d => d

def ClassDecl.mapLines : ClassDecl → ClassDecl
  | ⟨n, ms, l⟩ => ⟨n, mapMembers ms, f l⟩
termination_by structural d => d

def mapMembers : List ClassMember → List ClassMember
  | [] => []
  | m :: ms => m.mapLines :: mapMembers ms
termination_by structural ms => ms

def ClassMember.mapLines : ClassMember → ClassMember
  | .field s n e l => .field s n (mapInitial e) (f l)
  | .method s d => .method s d.mapLines
termination_by structural m => m

def mapInitial : Option Expr → Option Expr
  | none => none
  | some e => some e.mapLines
termination_by structural e => e

def Stmt.mapLines : Stmt → Stmt
  | .block b l => .block (mapBody b) (f l)
  | .declare n e l => .declare n (mapInitial e) (f l)
  | .function d => .function d.mapLines
  | .classDecl d => .classDecl d.mapLines
  | .branch c y n l => .branch c.mapLines y.mapLines (mapElse n) (f l)
  | .loop c b l => .loop c.mapLines b.mapLines (f l)
  | .«return» e l => .«return» (mapInitial e) (f l)
  | .expr e l => .expr e.mapLines (f l)
termination_by structural s => s

def mapElse : Option Stmt → Option Stmt
  | none => none
  | some s => some s.mapLines
termination_by structural s => s

def mapBody : List Stmt → List Stmt
  | [] => []
  | s :: ss => s.mapLines :: mapBody ss
termination_by structural ss => ss

end

end

def unmarked : Expr → Member → Expr → Nat := fun _ _ _ => 0

section

variable (f : Nat → Nat)

mutual

theorem Expr.relined_mapLines : (e : Expr) → (e.mapLines f).relined unmarked = e.relined unmarked
  | .literal _ _ | .name _ _ => rfl
  | .assign _ e _ => by simp only [Expr.mapLines, Expr.relined, e.relined_mapLines]
  | .binary _ a b _ => by simp only [Expr.mapLines, Expr.relined, a.relined_mapLines, b.relined_mapLines]
  | .logical _ a b _ => by simp only [Expr.mapLines, Expr.relined, a.relined_mapLines, b.relined_mapLines]
  | .unary _ e _ => by simp only [Expr.mapLines, Expr.relined, e.relined_mapLines]
  | .trailing _ e _ => by simp only [Expr.mapLines, Expr.relined, e.relined_mapLines]
  | .group e _ => by simp only [Expr.mapLines, Expr.relined, e.relined_mapLines]
  | .call g as _ => by simp only [Expr.mapLines, Expr.relined, g.relined_mapLines, relinedSlots_map as]
  | .read h m _ => by simp only [Expr.mapLines, Expr.relined, h.relined_mapLines, m.relined_mapLines]
  | .write h m e _ => by
    simp only [Expr.mapLines, Expr.relined, h.relined_mapLines, m.relined_mapLines, e.relined_mapLines, unmarked]
  | .array as _ => by simp only [Expr.mapLines, Expr.relined, relinedSlots_map as]
  | .object es _ => by simp only [Expr.mapLines, Expr.relined, relinedEntries_map es]
  | .function d => by simp only [Expr.mapLines, Expr.relined, d.relined_mapLines]
  | .classExpr d => by simp only [Expr.mapLines, Expr.relined, d.relined_mapLines]
  | .new e _ => by simp only [Expr.mapLines, Expr.relined, e.relined_mapLines]

theorem Member.relined_mapLines : (m : Member) → (m.mapLines f).relined unmarked = m.relined unmarked
  | .named _ => rfl
  | .computed e => by simp only [Member.mapLines, Member.relined, e.relined_mapLines]

theorem relinedSlots_map : (as : List (Option Expr)) →
    relinedSlots unmarked (mapSlots f as) = relinedSlots unmarked as
  | [] => rfl
  | none :: as => by simp only [mapSlots, relinedSlots, relinedSlots_map as]
  | some e :: as => by simp only [mapSlots, relinedSlots, e.relined_mapLines, relinedSlots_map as]

theorem relinedEntries_map : (es : List (String × Expr)) →
    relinedEntries unmarked (mapEntries f es) = relinedEntries unmarked es
  | [] => rfl
  | (_, e) :: es => by simp only [mapEntries, relinedEntries, e.relined_mapLines, relinedEntries_map es]

theorem FunctionDecl.relined_mapLines : (d : FunctionDecl) →
    (d.mapLines f).relined unmarked = d.relined unmarked
  | ⟨_, _, b, _⟩ => by simp only [FunctionDecl.mapLines, FunctionDecl.relined, relinedBody_map b]

theorem ClassDecl.relined_mapLines : (d : ClassDecl) →
    (d.mapLines f).relined unmarked = d.relined unmarked
  | ⟨_, ms, _⟩ => by simp only [ClassDecl.mapLines, ClassDecl.relined, relinedMembers_map ms]

theorem relinedMembers_map : (ms : List ClassMember) →
    relinedMembers unmarked (mapMembers f ms) = relinedMembers unmarked ms
  | [] => rfl
  | m :: ms => by simp only [mapMembers, relinedMembers, m.relined_mapLines, relinedMembers_map ms]

theorem ClassMember.relined_mapLines : (m : ClassMember) →
    (m.mapLines f).relined unmarked = m.relined unmarked
  | .field _ _ e _ => by simp only [ClassMember.mapLines, ClassMember.relined, relinedInitial_map e]
  | .method _ d => by simp only [ClassMember.mapLines, ClassMember.relined, d.relined_mapLines]

theorem relinedInitial_map : (e : Option Expr) →
    relinedInitial unmarked (mapInitial f e) = relinedInitial unmarked e
  | none => rfl
  | some e => by simp only [mapInitial, relinedInitial, e.relined_mapLines]

theorem Stmt.relined_mapLines : (s : Stmt) → (s.mapLines f).relined unmarked = s.relined unmarked
  | .block b _ => by simp only [Stmt.mapLines, Stmt.relined, relinedBody_map b]
  | .declare _ e _ => by simp only [Stmt.mapLines, Stmt.relined, relinedInitial_map e]
  | .function d => by simp only [Stmt.mapLines, Stmt.relined, d.relined_mapLines]
  | .classDecl d => by simp only [Stmt.mapLines, Stmt.relined, d.relined_mapLines]
  | .branch c y n _ => by
    simp only [Stmt.mapLines, Stmt.relined, c.relined_mapLines, y.relined_mapLines, relinedElse_map n]
  | .loop c b _ => by simp only [Stmt.mapLines, Stmt.relined, c.relined_mapLines, b.relined_mapLines]
  | .«return» e _ => by simp only [Stmt.mapLines, Stmt.relined, relinedInitial_map e]
  | .expr e _ => by simp only [Stmt.mapLines, Stmt.relined, e.relined_mapLines]

theorem relinedElse_map : (s : Option Stmt) →
    relinedElse unmarked (mapElse f s) = relinedElse unmarked s
  | none => rfl
  | some s => by simp only [mapElse, relinedElse, s.relined_mapLines]

theorem relinedBody_map : (ss : List Stmt) →
    relinedBody unmarked (mapBody f ss) = relinedBody unmarked ss
  | [] => rfl
  | s :: ss => by simp only [mapBody, relinedBody, s.relined_mapLines, relinedBody_map ss]

end

theorem erased_mapBody (body : List Stmt) : erased (mapBody f body) = erased body :=
  relinedBody_map f body

theorem Expr.render_mapLines (e : Expr) : (e.mapLines f).render = e.render := by
  rw [← e.render_relined unmarked, ← e.relined_mapLines f, Expr.render_relined]

theorem Expr.line_mapLines (e : Expr) : (e.mapLines f).line = f e.line := by
  cases e with
  | function d => cases d; rfl
  | classExpr d => cases d; rfl
  | _ => rfl

theorem length_mapSlots (as : List (Option Expr)) : (mapSlots f as).length = as.length := by
  induction as with
  | nil => rfl
  | cons a as ih => cases a <;> simp [mapSlots, ih]

end

def lined (L : Nat → Prop) : Check where
  expr e := L e.line

section

variable {f : Nat → Nat} {L : Nat → Prop}

theorem FunctionDecl.line_of_mapLines {d : FunctionDecl} (h : d.mapLines f = d) : f d.line = d.line := by
  cases d
  exact (FunctionDecl.mk.inj h).2.2.2

theorem ClassDecl.line_of_mapLines {d : ClassDecl} (h : d.mapLines f = d) : f d.line = d.line := by
  cases d
  exact (ClassDecl.mk.inj h).2.2

mutual

theorem Expr.every_lined (hf : ∀ l, f l = l → L l) : (e : Expr) → e.mapLines f = e →
    e.every (lined L)
  | .literal v l, h => hf l (Expr.literal.inj h).2
  | .name n l, h => hf l (Expr.name.inj h).2
  | .assign n e l, h => by
    obtain ⟨-, he, hl⟩ := Expr.assign.inj h
    exact ⟨hf l hl, e.every_lined hf he⟩
  | .binary op a b l, h => by
    obtain ⟨-, ha, hb, hl⟩ := Expr.binary.inj h
    exact ⟨hf l hl, a.every_lined hf ha, b.every_lined hf hb⟩
  | .logical op a b l, h => by
    obtain ⟨-, ha, hb, hl⟩ := Expr.logical.inj h
    exact ⟨hf l hl, a.every_lined hf ha, b.every_lined hf hb⟩
  | .unary op e l, h => by
    obtain ⟨-, he, hl⟩ := Expr.unary.inj h
    exact ⟨hf l hl, e.every_lined hf he⟩
  | .trailing op e l, h => by
    obtain ⟨-, he, hl⟩ := Expr.trailing.inj h
    exact ⟨hf l hl, e.every_lined hf he⟩
  | .group e l, h => by
    obtain ⟨he, hl⟩ := Expr.group.inj h
    exact ⟨hf l hl, e.every_lined hf he⟩
  | .call g as l, h => by
    obtain ⟨hg, has, hl⟩ := Expr.call.inj h
    exact ⟨hf l hl, g.every_lined hf hg, everySlot_lined hf as has⟩
  | .read e m l, h => by
    obtain ⟨he, hm, hl⟩ := Expr.read.inj h
    exact ⟨hf l hl, e.every_lined hf he, m.every_lined hf hm⟩
  | .write e m v l, h => by
    obtain ⟨he, hm, hv, hl⟩ := Expr.write.inj h
    exact ⟨hf l hl, e.every_lined hf he, m.every_lined hf hm, v.every_lined hf hv⟩
  | .array as l, h => by
    obtain ⟨has, hl⟩ := Expr.array.inj h
    exact ⟨hf l hl, everySlot_lined hf as has⟩
  | .object es l, h => by
    obtain ⟨hes, hl⟩ := Expr.object.inj h
    exact ⟨hf l hl, everyEntry_lined hf es hes⟩
  | .function d, h => by
    have hd := Expr.function.inj h
    exact ⟨hf _ (FunctionDecl.line_of_mapLines hd), d.every_lined hf hd⟩
  | .classExpr d, h => by
    have hd := Expr.classExpr.inj h
    exact ⟨hf _ (ClassDecl.line_of_mapLines hd), d.every_lined hf hd⟩
  | .new e l, h => by
    obtain ⟨he, hl⟩ := Expr.new.inj h
    exact ⟨hf l hl, e.every_lined hf he⟩

theorem Member.every_lined (hf : ∀ l, f l = l → L l) : (m : Member) → m.mapLines f = m →
    m.every (lined L)
  | .named _, _ => trivial
  | .computed e, h => e.every_lined hf (Member.computed.inj h)

theorem everySlot_lined (hf : ∀ l, f l = l → L l) : (as : List (Option Expr)) →
    mapSlots f as = as → everySlot (lined L) as
  | [], _ => trivial
  | none :: as, h => everySlot_lined hf as (List.cons.inj h).2
  | some e :: as, h => by
    obtain ⟨he, has⟩ := List.cons.inj h
    exact ⟨e.every_lined hf (Option.some.inj he), everySlot_lined hf as has⟩

theorem everyEntry_lined (hf : ∀ l, f l = l → L l) : (es : List (String × Expr)) →
    mapEntries f es = es → everyEntry (lined L) es
  | [], _ => trivial
  | (n, e) :: es, h => by
    obtain ⟨he, hes⟩ := List.cons.inj h
    exact ⟨e.every_lined hf (Prod.ext_iff.mp he).2, everyEntry_lined hf es hes⟩

theorem FunctionDecl.every_lined (hf : ∀ l, f l = l → L l) : (d : FunctionDecl) →
    d.mapLines f = d → d.every (lined L)
  | ⟨n, ps, b, l⟩, h => by
    obtain ⟨-, -, hb, -⟩ := FunctionDecl.mk.inj h
    exact ⟨trivial, everyStmt_lined hf b hb⟩

theorem ClassDecl.every_lined (hf : ∀ l, f l = l → L l) : (d : ClassDecl) →
    d.mapLines f = d → d.every (lined L)
  | ⟨_, ms, _⟩, h => everyMember_lined hf ms (ClassDecl.mk.inj h).2.1

theorem everyMember_lined (hf : ∀ l, f l = l → L l) : (ms : List ClassMember) →
    mapMembers f ms = ms → everyMember (lined L) ms
  | [], _ => trivial
  | m :: ms, h => by
    obtain ⟨hm, hms⟩ := List.cons.inj h
    exact ⟨m.every_lined hf hm, everyMember_lined hf ms hms⟩

theorem ClassMember.every_lined (hf : ∀ l, f l = l → L l) : (m : ClassMember) →
    m.mapLines f = m → m.every (lined L)
  | .field _ _ e _, h => ⟨trivial, everyInitial_lined hf e (ClassMember.field.inj h).2.2.1⟩
  | .method _ d, h => ⟨trivial, d.every_lined hf (ClassMember.method.inj h).2⟩

theorem everyInitial_lined (hf : ∀ l, f l = l → L l) : (e : Option Expr) →
    mapInitial f e = e → everyInitial (lined L) e
  | none, _ => trivial
  | some e, h => e.every_lined hf (Option.some.inj h)

theorem Stmt.every_lined (hf : ∀ l, f l = l → L l) : (s : Stmt) → s.mapLines f = s →
    s.every (lined L)
  | .block b l, h => ⟨trivial, everyStmt_lined hf b (Stmt.block.inj h).1⟩
  | .declare n e l, h => ⟨trivial, everyInitial_lined hf e (Stmt.declare.inj h).2.1⟩
  | .function d, h => ⟨trivial, d.every_lined hf (Stmt.function.inj h)⟩
  | .classDecl d, h => ⟨trivial, d.every_lined hf (Stmt.classDecl.inj h)⟩
  | .branch c y n l, h => by
    obtain ⟨hc, hy, hn, -⟩ := Stmt.branch.inj h
    exact ⟨trivial, c.every_lined hf hc, y.every_lined hf hy, everyElse_lined hf n hn⟩
  | .loop c b l, h => by
    obtain ⟨hc, hb, -⟩ := Stmt.loop.inj h
    exact ⟨trivial, c.every_lined hf hc, b.every_lined hf hb⟩
  | .«return» e l, h => ⟨trivial, everyInitial_lined hf e (Stmt.return.inj h).1⟩
  | .expr e l, h => ⟨trivial, e.every_lined hf (Stmt.expr.inj h).1⟩

theorem everyElse_lined (hf : ∀ l, f l = l → L l) : (s : Option Stmt) →
    mapElse f s = s → everyElse (lined L) s
  | none, _ => trivial
  | some s, h => s.every_lined hf (Option.some.inj h)

theorem everyStmt_lined (hf : ∀ l, f l = l → L l) : (ss : List Stmt) →
    mapBody f ss = ss → everyStmt (lined L) ss
  | [], _ => trivial
  | s :: ss, h => by
    obtain ⟨hs, hss⟩ := List.cons.inj h
    exact ⟨s.every_lined hf hs, everyStmt_lined hf ss hss⟩

end

end

end Scriptlet
