import Scriptlet.Proofs.GuardedScopes
import Scriptlet.Proofs.LawfulEvaluation

namespace Scriptlet

open Eval

namespace Guard

variable {g : Guard} {W : String → Prop} {m m' m'' : Machine}

structure Comes (g : Guard) (m m' : Machine) : Prop where
  scope : m'.scope = m.scope
  leads : g.Leads m.scope m.heap m'.heap

structure Ready (g : Guard) (W : String → Prop) (m : Machine) : Prop where
  holds : g.Holds m.heap m.scope
  permits : g.Permits m.heap m.scope (∀ name, W name → name ≠ "this")

/-- The computation goes back to the scope of `m`, and a result is as `Q` says in the heap it leaves. -/
structure Keeps {α : Type} (g : Guard) (Q : Heap → α → Prop) (c : Eval α) (m : Machine) : Prop where
  comes : g.Comes m (c.after m)
  result : ∀ a m', c m = .ok a m' → Q m'.heap a

def ShowsAll (g : Guard) (h : Heap) (vs : List Value) : Prop := ∀ v ∈ vs, g.Shows h v

def ShowsNamed (g : Guard) (h : Heap) (entries : List (String × Value)) : Prop :=
  ∀ entry ∈ entries, g.Shows h entry.2

def ShowsFlow (g : Guard) (h : Heap) (flow : Flow) : Prop := g.Shows h flow.value

def Any {α : Type} (_ : Heap) (_ : α) : Prop := True

theorem Comes.shows (hm : g.Holds m.heap m.scope) (h : g.Comes m m') {v : Value}
    (hv : g.Shows m.heap v) : g.Shows m'.heap v := hm.shows_of_grows h.leads.grows v hv

theorem Comes.holds (h : g.Comes m m') : g.Holds m'.heap m'.scope := by
  rw [h.scope]
  exact h.leads.holds

theorem Comes.trans (h : g.Comes m m') (h' : g.Comes m' m'') : g.Comes m m'' := by
  obtain ⟨hs, hl⟩ := h'
  rw [h.scope] at hs hl
  exact ⟨hs, h.leads.trans hl⟩

theorem Ready.come (hm : g.Ready W m) (h : g.Comes m m') : g.Ready W m' := by
  refine ⟨h.holds, ?_⟩
  rw [h.scope]
  exact hm.holds.permits_of_grows h.leads.grows hm.holds.reachable.ordered.2 hm.permits

namespace Keeps

variable {α β : Type} {Q R : Heap → α → Prop} {S : Heap → β → Prop} {c : Eval α} {a : α}

theorem still (hm : g.Holds m.heap m.scope) (hs : (c.after m).scope = m.scope)
    (hh : (c.after m).heap = m.heap) (hQ : ∀ a m', c m = .ok a m' → Q m'.heap a) : g.Keeps Q c m := by
  refine ⟨⟨hs, ?_⟩, hQ⟩
  rw [hh]
  exact hm.leads_self

theorem pure (hm : g.Holds m.heap m.scope) (ha : Q m.heap a) : g.Keeps Q (pure a) m := by
  refine .still hm rfl rfl ?_
  rintro _ _ ⟨⟩
  exact ha

theorem throw (hm : g.Holds m.heap m.scope) {e : Halt} : g.Keeps Q (throw e) m := .still hm rfl rfl nofun

theorem ask {f : Heap → α} (hm : g.Holds m.heap m.scope) (hQ : Q m.heap (f m.heap)) :
    g.Keeps Q (ask f) m := by
  refine .still hm rfl rfl ?_
  rintro _ _ ⟨⟩
  exact hQ

theorem ofExcept {r : Except Fault α} (hm : g.Holds m.heap m.scope)
    (hQ : ∀ a, r = .ok a → Q m.heap a) : g.Keeps Q (Eval.ofExcept r) m := by
  cases r with
  | ok a => exact .pure hm (hQ a rfl)
  | error e => exact .throw hm

theorem change {f : Heap → Heap} (hl : g.Leads m.scope m.heap (f m.heap)) :
    g.Keeps Any (change f) m := ⟨⟨rfl, hl⟩, fun _ _ _ => trivial⟩

theorem alloc {f : Heap → Heap × Ref} {Q : Heap → Ref → Prop}
    (hl : g.Leads m.scope m.heap (f m.heap).1) (hQ : Q (f m.heap).1 (f m.heap).2) :
    g.Keeps Q (alloc f) m := by
  refine ⟨⟨rfl, hl⟩, ?_⟩
  rintro _ _ ⟨⟩
  exact hQ

theorem bind {f : α → Eval β} (hc : g.Keeps Q c m)
    (hf : ∀ a m', g.Comes m m' → Q m'.heap a → g.Keeps S (f a) m') : g.Keeps S (c >>= f) m := by
  obtain ⟨hcomes, hresult⟩ := hc
  cases hrun : c m with
  | ok a m' =>
    rw [after_ok hrun] at hcomes
    have hrest := hf a m' hcomes (hresult a m' hrun)
    refine ⟨?_, fun b m'' h => hrest.result b m'' ?_⟩
    · rw [after_bind_ok hrun]
      exact hcomes.trans hrest.comes
    · rwa [bind_ok hrun] at h
  | error e m' =>
    rw [after_error hrun] at hcomes
    refine ⟨?_, fun b m'' h => ?_⟩
    · rw [after_bind_error hrun]
      exact hcomes
    · rw [bind_error hrun] at h
      cases h

theorem made {f : Heap → Heap × Ref} {mk : Ref → Value} (hl : g.Leads m.scope m.heap (f m.heap).1)
    (hv : g.Shows (f m.heap).1 (mk (f m.heap).2)) :
    g.Keeps g.Shows (do return mk (← Eval.alloc f)) m :=
  .bind (Q := fun h ref => g.Shows h (mk ref)) (.alloc hl hv) fun _ _ h hshown => .pure h.holds hshown

theorem step {c' : Eval α} (hrun : c m = c' m') (h : g.Comes m m') (hc : g.Keeps Q c' m') :
    g.Keeps Q c m := by
  have hafter : c.after m = c'.after m' := by rw [after, after, hrun]
  refine ⟨?_, fun a m'' ha => hc.result a m'' (hrun ▸ ha)⟩
  rw [hafter]
  exact h.trans hc.comes

theorem run_eq {c' : Eval α} (hm : g.Holds m.heap m.scope) (hrun : c m = c' m)
    (hc : g.Keeps Q c' m) : g.Keeps Q c m := hc.step hrun ⟨rfl, hm.leads_self⟩

end Keeps

def Bounds (g : Guard) (limits : Limits) : Prop :=
  ∀ (closure : Closure) (args : List Value) (m : Machine), g.Holds m.heap m.scope →
    closure.scope < m.heap.scopes.size →
    g.Permits m.heap closure.scope (closure.decl.every sparing) → g.ShowsAll m.heap args →
    g.Keeps g.Shows (limits.run closure args) m

end Guard

section

open Guard

variable {g : Guard} {W : String → Prop} {limits : Limits} {m : Machine}

theorem lookup_guarded (hm : g.Ready W m) (name : String) (line : Nat) :
    g.Keeps g.Shows (lookup name line) m := by
  refine .run_eq hm.holds lookup_run ?_
  split
  · next v hv => exact .pure hm.holds (hm.holds.shows_lookup hm.permits hv)
  · exact .throw hm.holds

theorem assign_guarded (hm : g.Ready W m) {name : String} (hn : W name) {v : Value}
    (hv : g.Shows m.heap v) (line : Nat) : g.Keeps Any (assign name v line) m := by
  refine .run_eq hm.holds assign_run ?_
  cases hb : m.heap.binder? m.scope name with
  | none => exact .throw hm.holds
  | some binder =>
    rw [Option.elim_some]
    have hnearest := (Heap.binder?_eq_some_iff hm.holds.reachable.ordered.1.forest).mp hb
    refine .change (hm.holds.define (Heap.mem_names_of_binder? hb).1 (fun hname hguarded => ?_) hv)
    subst hname
    exact (hm.permits ⟨binder, hguarded, hnearest⟩).2 _ hn rfl

theorem define_guarded (hm : g.Ready W m) {name : String} (hn : W name) {v : Value}
    (hv : g.Shows m.heap v) : g.Keeps Any (define name v) m := by
  refine .run_eq hm.holds define_run (.change ?_)
  refine hm.holds.define hm.holds.reachable.ordered.2 (fun hname hguarded => ?_) hv
  have hgoverns := governs_of_scopes (hm.holds.bound _ hguarded) hguarded
  exact (hm.permits hgoverns).2 _ hn hname

theorem ofPlain_guarded (hm : g.Holds m.heap m.scope) {r : Except Fault Value}
    (hr : ∀ v, r = .ok v → v.Plain) : g.Keeps g.Shows (Eval.ofExcept r) m :=
  .ofExcept hm fun v hv => shows_plain (hr v hv)

theorem apply_guarded (hm : g.Holds m.heap m.scope) {op : UnaryOp} {v : Value}
    (hv : g.Shows m.heap v) {line : Nat} : g.Keeps g.Shows (Eval.ofExcept (op.apply v line)) m := by
  refine .ofExcept hm fun w hw => ?_
  obtain rfl | hplain := UnaryOp.apply_plain hw
  · exact hv
  · exact shows_plain hplain

theorem binary_guarded (hm : g.Ready W m) (op : BinaryOp) (a b : Value) (line : Nat) :
    g.Keeps g.Shows (binary op a b line) m := by
  have hrun : binary op a b line m = Eval.ofExcept (m.heap.binary op a b line) m := rfl
  exact .run_eq hm.holds hrun (ofPlain_guarded hm.holds fun _ => Heap.binary_plain)

theorem property_guarded (hm : g.Ready W m) {holder : Value} (hh : g.Shows m.heap holder) (key : Value) :
    g.Keeps g.Shows (property holder key) m := .ask hm.holds (hm.holds.shows_property hh key)

theorem setProperty_guarded (hm : g.Ready W m) (holder key : Value) {v : Value}
    (hv : g.Shows m.heap v) : g.Keeps Any (Eval.change (·.setProperty holder key v)) m :=
  .change (hm.holds.setProperty holder key hv)

theorem makeFunction_guarded (hm : g.Ready W m) {decl : FunctionDecl} (hd : decl.every (writing W)) :
    g.Keeps g.Shows (makeFunction decl) m := by
  have hlt := hm.holds.reachable.ordered.2
  have hadded : g.Leads m.scope m.heap (m.heap.addFunction ⟨decl, m.scope⟩).1 := hm.holds.addFunction hlt
  have hpermits : g.Permits (m.heap.addFunction ⟨decl, m.scope⟩).1 m.scope (decl.every sparing) :=
    hm.holds.permits_of_grows hadded.grows hlt fun hgoverns =>
      (hm.permits hgoverns).imp_right fun hW => decl.every_mono (writing_mono hW) hd
  exact .run_eq hm.holds makeFunction_run (.made hadded ⟨_, Array.getElem?_push_size, hpermits⟩)

theorem native_guarded (hm : g.Holds m.heap m.scope) (native : Native) (args : List Value) :
    g.Keeps g.Shows (native.run args) m := by
  have log : g.Keeps g.Shows (logLine args) m := by
    refine .still hm rfl rfl ?_
    rintro _ _ ⟨⟩
    trivial
  cases native with
  | log => exact log
  | warn => exact log
  | clock =>
    refine .still hm rfl rfl ?_
    rintro _ _ ⟨⟩
    trivial

theorem notCallable_guarded (hm : g.Holds m.heap m.scope) (callee : Value) (line : Nat) :
    g.Keeps g.Shows (notCallable callee line) m := .still hm rfl rfl nofun

theorem construct_guarded (hl : g.Bounds limits) (hm : g.Holds m.heap m.scope) {scope : Ref}
    (members : List ClassMember) {args : List Value} (hs : scope < m.heap.scopes.size)
    (hp : ∀ decl, findConstructor? members = some decl →
      g.Permits m.heap scope (decl.every sparing))
    (ha : g.ShowsAll m.heap args) : g.Keeps Any (construct limits scope members args) m := by
  unfold construct
  split
  · next decl hctor =>
    exact (hl ⟨decl, scope⟩ args m hm hs (hp decl hctor) ha).bind fun _ _ h _ => .pure h.holds trivial
  · exact .pure hm trivial

theorem instantiate_guarded (hl : g.Bounds limits) (hm : g.Holds m.heap m.scope) {ref : Ref}
    {cell : ClassCell} {args : List Value} (hc : m.heap.classes[ref]? = some cell)
    (ha : g.ShowsAll m.heap args) : g.Keeps g.Shows (instantiate limits cell args) m := by
  let made : Machine := { m with heap := m.heap.addInstance cell }
  have hmade : g.Comes m made := ⟨rfl, hm.addInstance hc⟩
  have hown : made.heap.own? "this" m.heap.scopes.size = some (.object m.heap.objects.size) :=
    m.heap.own?_addInstance_self cell
  have hbinds : made.heap.Binds "this" m.heap.scopes.size := ⟨_, hown⟩
  have hfree : ¬ g.Governs made.heap m.heap.scopes.size := not_governs_of_binds hbinds hm.not_scopes_new
  refine .step instantiate_run hmade (.bind (Q := Any) ?_ fun _ m' h _ => .pure h.holds ?_)
  · exact construct_guarded hl hmade.holds _ (Heap.lt_size_of_binds hbinds)
      (fun _ _ hgoverns => absurd hgoverns hfree) fun v hv => hmade.shows hm (ha v hv)
  · exact h.shows hmade.holds (hmade.holds.shows_own hown hfree)

theorem callValue_guarded (hl : g.Bounds limits) (hm : g.Holds m.heap m.scope) {callee : Value}
    (hc : g.Shows m.heap callee) {args : List Value} (ha : g.ShowsAll m.heap args) (line : Nat) :
    g.Keeps g.Shows (callValue limits callee args line) m := by
  cases callee with
  | function ref =>
    obtain ⟨closure, hf, hp⟩ := hc
    refine .run_eq hm callValue_function ?_
    rw [hf]
    exact hl closure args m hm (hm.reachable.ordered.1.function ref closure hf) hp ha
  | native ref =>
    refine .run_eq hm callValue_native ?_
    split
    · exact native_guarded hm _ args
    · exact notCallable_guarded hm _ line
  | classRef ref =>
    refine .run_eq hm callValue_class ?_
    split
    · next cell hcell => exact instantiate_guarded hl hm hcell ha
    · exact notCallable_guarded hm _ line
  | _ => exact notCallable_guarded hm _ line

end

section

open Guard

variable {g : Guard} {W : String → Prop} {limits : Limits}

mutual

theorem eval_guarded (hl : g.Bounds limits) : (e : Expr) → e.every (writing W) → (m : Machine) →
    g.Ready W m → g.Keeps g.Shows (eval limits e) m
  | .literal value _, _, m, hm => by
    rw [eval]
    exact .pure hm.holds (by cases value <;> trivial)
  | .name name line, _, m, hm => by
    rw [eval]
    exact lookup_guarded hm name line
  | .assign name value line, ⟨he, hvalue⟩, m, hm => by
    rw [eval]
    exact (eval_guarded hl value hvalue m hm).bind fun v m₁ h₁ hv =>
      (assign_guarded (hm.come h₁) (he name rfl) hv line).bind fun _ m₂ h₂ _ =>
        .pure h₂.holds (h₂.shows h₁.holds hv)
  | .binary op left right line, ⟨_, hleft, hright⟩, m, hm => by
    rw [eval]
    exact (eval_guarded hl left hleft m hm).bind fun _ m₁ h₁ _ =>
      (eval_guarded hl right hright m₁ (hm.come h₁)).bind fun _ m₂ h₂ _ =>
        binary_guarded ((hm.come h₁).come h₂) _ _ _ _
  | .logical op left right _, ⟨_, hleft, hright⟩, m, hm => by
    rw [eval]
    refine (eval_guarded hl left hleft m hm).bind fun a m₁ h₁ ha => ?_
    split
    · exact .pure h₁.holds ha
    · exact eval_guarded hl right hright m₁ (hm.come h₁)
  | .unary op operand line, ⟨he, hoperand⟩, m, hm => by
    cases op with
    | step s => rw [eval]; exact update_guarded hl s operand hoperand he line m hm
    | negate | identity | not | bitNot =>
      rw [eval]
      · exact (eval_guarded hl operand hoperand m hm).bind fun v m₁ h₁ hv => apply_guarded h₁.holds hv
      · exact nofun
  | .trailing op operand line, ⟨he, hoperand⟩, m, hm => by
    cases op with
    | step s => rw [eval]; exact update_guarded hl s operand hoperand he line m hm
    | negate | identity | not | bitNot =>
      rw [eval]
      · exact (eval_guarded hl operand hoperand m hm).bind fun v m₁ h₁ hv => apply_guarded h₁.holds hv
      · exact nofun
  | .group inner _, ⟨_, hinner⟩, m, hm => by
    rw [eval]
    exact eval_guarded hl inner hinner m hm
  | .call callee arguments line, ⟨_, hcallee, harguments⟩, m, hm => by
    rw [eval]
    exact (eval_guarded hl callee hcallee m hm).bind fun f m₁ h₁ hf =>
      (evalSlots_guarded hl arguments harguments m₁ (hm.come h₁)).bind fun args m₂ h₂ ha =>
        callValue_guarded hl h₂.holds (h₂.shows h₁.holds hf) ha line
  | .read holder member _, ⟨_, hholder, hmember⟩, m, hm => by
    rw [eval]
    exact (eval_guarded hl holder hholder m hm).bind fun h m₁ h₁ hh =>
      (memberKey_guarded hl member hmember m₁ (hm.come h₁)).bind fun key m₂ h₂ _ =>
        property_guarded ((hm.come h₁).come h₂) (h₂.shows h₁.holds hh) key
  | .write holder member value _, ⟨_, hholder, hmember, hvalue⟩, m, hm => by
    rw [eval.eq_def]
    refine (eval_guarded hl holder hholder m hm).bind fun h m₁ h₁ hh => ?_
    refine (memberKey_guarded hl member hmember m₁ (hm.come h₁)).bind fun key m₂ h₂ _ => ?_
    have hm₂ := (hm.come h₁).come h₂
    have hleft (left : Expr) (ih : g.Keeps g.Shows (eval limits left) m₂) :
        g.Keeps g.Shows (if left.reads holder member then property h key else eval limits left) m₂ := by
      split
      · exact property_guarded hm₂ (h₂.shows h₁.holds hh) key
      · exact ih
    refine .bind (Q := g.Shows) ?_ fun v m₃ h₃ hv =>
      (setProperty_guarded (hm₂.come h₃) h key hv).bind fun _ m₄ h₄ _ =>
        .pure h₄.holds (h₄.shows h₃.holds hv)
    cases value with
    | binary op left right line =>
      exact (hleft left (eval_guarded hl left hvalue.2.1 m₂ hm₂)).bind fun _ m₃ h₃ _ =>
        (eval_guarded hl right hvalue.2.2 m₃ (hm₂.come h₃)).bind fun _ m₄ h₄ _ =>
          binary_guarded ((hm₂.come h₃).come h₄) _ _ _ _
    | logical op left right line =>
      refine (hleft left (eval_guarded hl left hvalue.2.1 m₂ hm₂)).bind fun a m₃ h₃ ha => ?_
      split
      · exact .pure h₃.holds ha
      · exact eval_guarded hl right hvalue.2.2 m₃ (hm₂.come h₃)
    | _ => exact eval_guarded hl _ hvalue m₂ hm₂
  | .array slots _, ⟨_, hslots⟩, m, hm => by
    rw [eval]
    refine (evalSlots_guarded hl slots hslots m hm).bind fun vs m₁ h₁ hvs => ?_
    have hadded : g.Leads m₁.scope m₁.heap (m₁.heap.addArray vs.toArray).1 :=
      h₁.holds.addArray fun v hv => hvs v (List.mem_toArray.mp hv)
    exact .made hadded (lt_size_push _ _)
  | .object entries _, ⟨_, hentries⟩, m, hm => by
    rw [eval]
    refine (evalEntries_guarded hl entries hentries m hm).bind fun named m₁ h₁ hnamed => ?_
    have hadded : g.Leads m₁.scope m₁.heap (m₁.heap.addObject (.ofNamed named)).1 :=
      h₁.holds.addObject (Table.forall_ofNamed hnamed)
    exact .made hadded (lt_size_push _ _)
  | .function decl, ⟨_, hdecl⟩, m, hm => by
    rw [eval]
    exact makeFunction_guarded hm hdecl
  | .classExpr decl, ⟨_, hdecl⟩, m, hm => by
    rw [eval]
    exact makeClass_guarded hl decl hdecl m hm
  | .new call line, ⟨_, hcall⟩, m, hm => by
    cases call with
    | call callee arguments line =>
      rw [eval]
      exact (eval_guarded hl callee hcall.2.1 m hm).bind fun f m₁ h₁ hf =>
        (evalSlots_guarded hl arguments hcall.2.2 m₁ (hm.come h₁)).bind fun args m₂ h₂ ha =>
          callValue_guarded hl h₂.holds (h₂.shows h₁.holds hf) ha line
    | _ =>
      rw [eval.eq_def]
      exact .throw hm.holds

theorem update_guarded (hl : g.Bounds limits) (s : Step) : (e : Expr) → e.every (writing W) →
    (∀ n ∈ e.updated?, W n) → (line : Nat) → (m : Machine) → g.Ready W m →
    g.Keeps g.Shows (update limits s e line) m
  | .name name _, _, hname, line, m, hm => by
    rw [update]
    exact (lookup_guarded hm name line).bind fun current m₁ h₁ _ =>
      (ofPlain_guarded h₁.holds fun _ => Step.apply_plain).bind fun next m₂ h₂ hnext =>
      (assign_guarded ((hm.come h₁).come h₂) (hname name rfl) hnext line).bind fun _ m₃ h₃ _ =>
        .pure h₃.holds (h₃.shows h₂.holds hnext)
  | .read holder member _, ⟨_, hholder, hmember⟩, _, line, m, hm => by
    rw [update]
    exact (eval_guarded hl holder hholder m hm).bind fun h m₁ h₁ hh =>
      (memberKey_guarded hl member hmember m₁ (hm.come h₁)).bind fun key m₂ h₂ _ =>
      (property_guarded ((hm.come h₁).come h₂) (h₂.shows h₁.holds hh) key).bind fun current m₃ h₃ _ =>
      (ofPlain_guarded h₃.holds fun _ => Step.apply_plain).bind fun next m₄ h₄ hnext =>
      (setProperty_guarded ((((hm.come h₁).come h₂).come h₃).come h₄) h key hnext).bind fun _ m₅ h₅ _ =>
        .pure h₅.holds (h₅.shows h₄.holds hnext)
  | .group inner _, ⟨_, hinner⟩, hname, line, m, hm => by
    rw [update]
    exact update_guarded hl s inner hinner hname line m hm
  | .literal .., _, _, line, m, hm | .assign .., _, _, line, m, hm | .binary .., _, _, line, m, hm
  | .logical .., _, _, line, m, hm | .unary .., _, _, line, m, hm | .trailing .., _, _, line, m, hm
  | .call .., _, _, line, m, hm | .write .., _, _, line, m, hm | .array .., _, _, line, m, hm
  | .object .., _, _, line, m, hm | .function _, _, _, line, m, hm | .classExpr _, _, _, line, m, hm
  | .new .., _, _, line, m, hm => by
    rw [update.eq_def]
    exact .throw hm.holds

theorem memberKey_guarded (hl : g.Bounds limits) : (member : Member) → member.every (writing W) →
    (m : Machine) → g.Ready W m → g.Keeps g.Shows (memberKey limits member) m
  | .named _, _, m, hm => by
    rw [memberKey]
    exact .pure hm.holds trivial
  | .computed key, hkey, m, hm => by
    rw [memberKey]
    exact eval_guarded hl key hkey m hm

theorem evalSlots_guarded (hl : g.Bounds limits) : (slots : List (Option Expr)) →
    everySlot (writing W) slots → (m : Machine) → g.Ready W m →
    g.Keeps g.ShowsAll (evalSlots limits slots) m
  | [], _, m, hm => by
    rw [evalSlots]
    exact .pure hm.holds nofun
  | none :: rest, hrest, m, hm => by
    rw [evalSlots]
    exact (evalSlots_guarded hl rest hrest m hm).bind fun vs m₁ h₁ hvs =>
      .pure h₁.holds (List.forall_mem_cons.mpr ⟨trivial, hvs⟩)
  | some e :: rest, ⟨he, hrest⟩, m, hm => by
    rw [evalSlots]
    exact (eval_guarded hl e he m hm).bind fun v m₁ h₁ hv =>
      (evalSlots_guarded hl rest hrest m₁ (hm.come h₁)).bind fun vs m₂ h₂ hvs =>
        .pure h₂.holds (List.forall_mem_cons.mpr ⟨h₂.shows h₁.holds hv, hvs⟩)

theorem evalEntries_guarded (hl : g.Bounds limits) : (entries : List (String × Expr)) →
    everyEntry (writing W) entries → (m : Machine) → g.Ready W m →
    g.Keeps g.ShowsNamed (evalEntries limits entries) m
  | [], _, m, hm => by
    rw [evalEntries]
    exact .pure hm.holds nofun
  | (name, e) :: rest, ⟨he, hrest⟩, m, hm => by
    rw [evalEntries]
    exact (eval_guarded hl e he m hm).bind fun v m₁ h₁ hv =>
      (evalEntries_guarded hl rest hrest m₁ (hm.come h₁)).bind fun vs m₂ h₂ hvs =>
        .pure h₂.holds (List.forall_mem_cons.mpr ⟨h₂.shows h₁.holds hv, hvs⟩)

theorem evalInitial_guarded (hl : g.Bounds limits) : (initial : Option Expr) →
    everyInitial (writing W) initial → (m : Machine) → g.Ready W m →
    g.Keeps g.Shows (evalInitial limits initial) m
  | none, _, m, hm => by
    rw [evalInitial]
    exact .pure hm.holds trivial
  | some e, he, m, hm => by
    rw [evalInitial]
    exact eval_guarded hl e he m hm

theorem classFields_guarded (hl : g.Bounds limits) : (members : List ClassMember) →
    everyMember (writing W) members → (m : Machine) → g.Ready W m →
    g.Keeps g.ShowsNamed (classFields limits members) m
  | [], _, m, hm => by
    rw [classFields]
    exact .pure hm.holds nofun
  | .field false name initial _ :: rest, ⟨hfield, hrest⟩, m, hm => by
    rw [classFields]
    exact (evalInitial_guarded hl initial hfield.2 m hm).bind fun v m₁ h₁ hv =>
      (classFields_guarded hl rest hrest m₁ (hm.come h₁)).bind fun fields m₂ h₂ hfields =>
        .pure h₂.holds (List.forall_mem_cons.mpr ⟨h₂.shows h₁.holds hv, hfields⟩)
  | .field true _ _ _ :: rest, ⟨_, hrest⟩, m, hm | .method _ _ :: rest, ⟨_, hrest⟩, m, hm => by
    rw [classFields] <;> first | exact classFields_guarded hl rest hrest m hm | exact nofun

theorem classStatics_guarded (hl : g.Bounds limits) (ref scope : Ref) : (members : List ClassMember) →
    everyMember (writing W) members → (m : Machine) → g.Ready W m → scope < m.heap.scopes.size →
    (∀ decl, .method true decl ∈ members → g.secret = some ref ∨
      g.Permits m.heap scope (decl.every sparing)) →
    g.Keeps Any (classStatics limits ref scope members) m
  | [], _, m, hm, _, _ => by
    rw [classStatics]
    exact .pure hm.holds trivial
  | .field true name initial _ :: rest, ⟨hfield, hrest⟩, m, hm, hs, hp => by
    rw [classStatics]
    refine (evalInitial_guarded hl initial hfield.2 m hm).bind fun v m₁ h₁ hv => ?_
    refine (Keeps.change (h₁.holds.insertStatic name (.inl hv))).bind fun _ m₂ h₂ _ => ?_
    have h := h₁.trans h₂
    have hlt := Nat.lt_of_lt_of_le hs h.leads.grows.scopes.size_le
    refine classStatics_guarded hl ref scope rest hrest m₂ (hm.come h) hlt fun decl hd => ?_
    exact (hp decl (.tail _ hd)).imp_right (hm.holds.permits_of_grows h.leads.grows hs)
  | .method true decl :: rest, ⟨_, hrest⟩, m, hm, hs, hp => by
    rw [classStatics]
    have hadded : g.Leads m.scope m.heap (m.heap.addFunction ⟨decl, scope⟩).1 := hm.holds.addFunction hs
    refine Keeps.bind (Q := fun h f => g.Shows h (.function f) ∨ g.secret = some ref)
      (.alloc hadded ?_) fun f m₁ h₁ hf => ?_
    · obtain hsecret | hpermits := hp decl (.head _)
      · exact .inr hsecret
      · exact .inl ⟨_, Array.getElem?_push_size, hm.holds.permits_of_grows hadded.grows hs hpermits⟩
    refine (Keeps.change (h₁.holds.insertStatic (decl.name.getD "") hf)).bind fun _ m₂ h₂ _ => ?_
    have h := h₁.trans h₂
    have hlt := Nat.lt_of_lt_of_le hs h.leads.grows.scopes.size_le
    refine classStatics_guarded hl ref scope rest hrest m₂ (hm.come h) hlt fun decl hd => ?_
    exact (hp decl (.tail _ hd)).imp_right (hm.holds.permits_of_grows h.leads.grows hs)
  | .field false _ _ _ :: rest, ⟨_, hrest⟩, m, hm, hs, hp
  | .method false _ :: rest, ⟨_, hrest⟩, m, hm, hs, hp => by
    have hp' (decl : FunctionDecl) (hd : .method true decl ∈ rest) := hp decl (.tail _ hd)
    rw [classStatics] <;>
      first | exact classStatics_guarded hl ref scope rest hrest m hm hs hp' | exact nofun

theorem makeClass_guarded (hl : g.Bounds limits) : (decl : ClassDecl) → decl.every (writing W) →
    (m : Machine) → g.Ready W m → g.Keeps g.Shows (makeClass limits decl) m
  | ⟨name, members, line⟩, hmembers, m, hm => by
    rw [makeClass]
    refine (classFields_guarded hl members hmembers m hm).bind fun fields m₁ h₁ hfields => ?_
    let cell : ClassCell := ⟨⟨name, members, line⟩, m₁.scope, .empty, fields⟩
    let made : Machine := { m₁ with heap := m₁.heap.addClassScope cell }
    have hmade : g.Comes m₁ made := ⟨rfl, h₁.holds.addClassScope ⟨name, members, line⟩ hfields⟩
    have hown : made.heap.own? "this" m₁.heap.scopes.size = some (.classRef m₁.heap.classes.size) :=
      Heap.own?_addReceiver_self _ _ _
    have hfree : ¬ g.Governs made.heap m₁.heap.scopes.size :=
      not_governs_of_binds ⟨_, hown⟩ h₁.holds.not_scopes_new
    refine .step finishClass_run hmade ?_
    have hstatics := classStatics_guarded hl m₁.heap.classes.size m₁.heap.scopes.size members hmembers made
      ((hm.come h₁).come hmade) (Heap.lt_size_of_binds ⟨_, hown⟩)
      fun _ _ => .inr fun hgoverns => absurd hgoverns hfree
    have hshown : g.Shows made.heap (.classRef m₁.heap.classes.size) := hmade.holds.shows_own hown hfree
    exact hstatics.bind fun _ m₂ h₂ _ => .pure h₂.holds (h₂.shows hmade.holds hshown)

end

theorem repeatWhile_guarded {condition : Eval Value} {body : Eval Flow}
    (hc : ∀ m, g.Ready W m → g.Keeps g.Shows condition m)
    (hb : ∀ m, g.Ready W m → g.Keeps g.ShowsFlow body m) (n : Nat) (m : Machine) (hm : g.Ready W m) :
    g.Keeps g.ShowsFlow (repeatWhile condition body n) m := by
  induction n generalizing m with
  | zero => exact .throw hm.holds
  | succ n ih =>
    refine (hc m hm).bind fun v m₁ h₁ _ => ?_
    split
    · refine (hb m₁ (hm.come h₁)).bind fun flow m₂ h₂ hflow => ?_
      cases flow with
      | normal => exact ih m₂ ((hm.come h₁).come h₂)
      | «return» => exact .pure h₂.holds hflow
    · exact .pure h₁.holds trivial

theorem opened_guarded {α : Type} {Q : Heap → α → Prop} {c body : Eval α} {m : Machine} {h : Heap}
    {parent : Ref} (hm : g.Holds m.heap m.scope) (hp : parent < m.heap.scopes.size)
    (hh : g.Leads m.heap.scopes.size (m.heap.addScope (some parent)).1 h)
    (hrun : c m = within m.heap.scopes.size body { m with heap := h })
    (hb : g.Keeps Q body { m with heap := h, scope := m.heap.scopes.size }) : g.Keeps Q c m := by
  have hafter : c.after m = (within m.heap.scopes.size body).after { m with heap := h } := by
    rw [after, after, hrun]
  have hlater : m.heap.Later g.scopes m.scope (m.heap.addScope (some parent)).1 m.heap.scopes.size :=
    .child hm.reachable (.existing hp)
  have hdone := hlater.trans (hh.trans hb.comes.leads).later
  have hlt := Nat.lt_of_lt_of_le hm.reachable.ordered.2 hdone.keeps.grows.scopes.size_le
  refine ⟨?_, fun a m' ha => ?_⟩
  · rw [hafter, after_within]
    exact ⟨rfl, hdone.enter hlt, hb.comes.leads.holds.enter hlt⟩
  · rw [hrun] at ha
    unfold within at ha
    cases hbody : body { m with heap := h, scope := m.heap.scopes.size } with
    | ok b n =>
      rw [hbody] at ha
      cases ha
      exact hb.result a n hbody
    | error e n =>
      rw [hbody] at ha
      cases ha

mutual

theorem execute_guarded (hl : g.Bounds limits) : (s : Stmt) → s.every (writing W) → (m : Machine) →
    g.Ready W m → g.Keeps g.ShowsFlow (execute limits s) m
  | .block body line, ⟨_, hbody⟩, m, hm => by
    have hlt := hm.holds.reachable.ordered.2
    have hchild := hm.holds.child hlt
    refine opened_guarded hm.holds hlt hchild.leads_self execute_block ?_
    exact executeAll_guarded hl body hbody .null _ trivial ⟨hchild, hm.holds.permits_child hlt hm.permits⟩
  | .declare name initial _, ⟨hs, hinitial⟩, m, hm => by
    rw [execute]
    exact (evalInitial_guarded hl initial hinitial m hm).bind fun v m₁ h₁ hv =>
      (define_guarded (hm.come h₁) (hs name rfl) hv).bind fun _ m₂ h₂ _ => .pure h₂.holds trivial
  | .function decl, ⟨_, hdecl⟩, m, hm => by
    have hlabel := (FunctionDecl.every_iff.mp hdecl).1
    rw [execute]
    exact (makeFunction_guarded hm hdecl).bind fun v m₁ h₁ hv =>
      (define_guarded (hm.come h₁) hlabel hv).bind fun _ m₂ h₂ _ => .pure h₂.holds trivial
  | .classDecl decl, ⟨hs, hdecl⟩, m, hm => by
    rw [execute]
    refine (makeClass_guarded hl decl hdecl m hm).bind fun v m₁ h₁ hv =>
      .bind (Q := Any) ?_ fun _ m₂ h₂ _ => .pure h₂.holds trivial
    unfold bindClass
    split
    · next name hname => exact define_guarded (hm.come h₁) (hs name hname) hv
    · exact .pure h₁.holds trivial
  | .branch condition yes no _, ⟨_, hcondition, hyes, hno⟩, m, hm => by
    rw [execute.eq_def]
    refine (eval_guarded hl condition hcondition m hm).bind fun v m₁ h₁ _ => ?_
    have hm₁ := hm.come h₁
    cases no with
    | none =>
      split
      · exact execute_guarded hl yes hyes m₁ hm₁
      · exact .pure h₁.holds trivial
    | some no =>
      split
      · exact execute_guarded hl yes hyes m₁ hm₁
      · exact execute_guarded hl no hno m₁ hm₁
  | .loop condition body _, ⟨_, hcondition, hbody⟩, m, hm => by
    rw [execute]
    exact repeatWhile_guarded (eval_guarded hl condition hcondition) (execute_guarded hl body hbody) _ m hm
  | .«return» value _, ⟨_, hvalue⟩, m, hm => by
    rw [execute]
    exact (evalInitial_guarded hl value hvalue m hm).bind fun v m₁ h₁ hv => .pure h₁.holds hv
  | .expr e _, ⟨_, he⟩, m, hm => by
    rw [execute]
    exact (eval_guarded hl e he m hm).bind fun v m₁ h₁ hv => .pure h₁.holds hv

theorem executeAll_guarded (hl : g.Bounds limits) : (body : List Stmt) → everyStmt (writing W) body →
    (last : Value) → (m : Machine) → g.Shows m.heap last → g.Ready W m →
    g.Keeps g.ShowsFlow (executeAll limits body last) m
  | [], _, last, m, hlast, hm => by
    rw [executeAll]
    exact .pure hm.holds hlast
  | s :: rest, ⟨hs, hrest⟩, last, m, _, hm => by
    rw [executeAll]
    refine (execute_guarded hl s hs m hm).bind fun flow m₁ h₁ hflow => ?_
    cases flow with
    | normal value => exact executeAll_guarded hl rest hrest value m₁ hflow (hm.come h₁)
    | «return» => exact .pure h₁.holds hflow

end

end

end Scriptlet
