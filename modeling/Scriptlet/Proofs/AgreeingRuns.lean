import Scriptlet.Proofs.EvaluationRuns
import Scriptlet.Proofs.FaultLines
import Scriptlet.Proofs.HeapSketches

namespace Scriptlet

def Halt.erased : Halt → Halt
  | fault e => .fault e.erased
  | exhausted => .exhausted

theorem Heap.eq_of_sketch {α : Type} {f : Heap → α} {h h' : Heap} (hf : ∀ h, f h.sketch = f h)
    (hh : h.sketch = h'.sketch) : f h = f h' := by
  rw [← hf h, hh, hf h']

theorem Machine.sketch_eq_iff {m m' : Machine} :
    m.sketch = m'.sketch ↔ m.heap.sketch = m'.heap.sketch ∧ m.scope = m'.scope ∧
      m.output = m'.output ∧ m.clock = m'.clock := by
  unfold sketch
  rw [Machine.mk.injEq]

namespace Eval

variable {α β : Type}

def ending (c : Eval α) (m : Machine) : Except Halt α × Machine :=
  match c m with
  | .ok a m' => (.ok a, m'.sketch)
  | .error e m' => (.error e.erased, m'.sketch)

theorem ending_ok {c : Eval α} {m m' : Machine} {a : α} (h : c m = .ok a m') :
    c.ending m = (.ok a, m'.sketch) := by
  rw [ending, h]

theorem ending_error {c : Eval α} {m m' : Machine} {e : Halt} (h : c m = .error e m') :
    c.ending m = (.error e.erased, m'.sketch) := by
  rw [ending, h]

theorem ending_eq_of_ok {c c' : Eval α} {m m' n n' : Machine} {a : α} (h : c m = .ok a n)
    (h' : c' m' = .ok a n') (hn : n.sketch = n'.sketch) : c.ending m = c'.ending m' := by
  rw [ending_ok h, ending_ok h', hn]

def Agree (c c' : Eval α) : Prop :=
  ∀ m m' : Machine, m.sketch = m'.sketch → c.ending m = c'.ending m'

namespace Agree

variable {c c' : Eval α}

theorem pure (a : α) : Agree (pure a) (pure a) := fun _ _ hm => ending_eq_of_ok rfl rfl hm

theorem throw {e e' : Halt} (h : e.erased = e'.erased) :
    Agree (throw e : Eval α) (throw e') := by
  intro m m' hm
  have hthrow (e : Halt) (m : Machine) : (MonadExcept.throw e : Eval α) m = .error e m := rfl
  rw [ending_error (hthrow e m), ending_error (hthrow e' m'), h, hm]

theorem raise (cause : Fault.Cause) (l l' : Nat) :
    Agree (raise cause l : Eval α) (Eval.raise cause l') :=
  throw rfl

theorem ofExcept {r r' : Except Fault α} (h : SameButLine r r') :
    Agree (ofExcept r) (Eval.ofExcept r') := by
  cases r with
  | ok a =>
    obtain rfl := SameButLine.ok_iff.mp h
    exact pure a
  | error e =>
    cases r' with
    | ok a => cases h
    | error e' => exact throw (congrArg Halt.fault (Except.error.inj h))

theorem bind {k k' : α → Eval β} (hc : c.Agree c') (hk : ∀ a, (k a).Agree (k' a)) :
    (c >>= k).Agree (c' >>= k') := by
  intro m m' hm
  have h := hc m m' hm
  cases hr : c m with
  | ok a n =>
    cases hr' : c' m' with
    | ok a' n' =>
      rw [ending_ok hr, ending_ok hr'] at h
      obtain ⟨ha, hn⟩ := Prod.mk.inj h
      obtain rfl := Except.ok.inj ha
      have hnext := hk a n n' hn
      unfold ending at hnext ⊢
      rwa [bind_ok hr, bind_ok hr']
    | error e' n' =>
      rw [ending_ok hr, ending_error hr'] at h
      cases h
  | error e n =>
    cases hr' : c' m' with
    | ok a' n' =>
      rw [ending_error hr, ending_ok hr'] at h
      cases h
    | error e' n' =>
      rw [ending_error hr, ending_error hr'] at h
      obtain ⟨he, hn⟩ := Prod.mk.inj h
      rw [ending_error (bind_error hr), ending_error (bind_error hr'), Except.error.inj he, hn]

theorem ask_bind {f f' : Heap → α} {k k' : α → Eval β}
    (h : ∀ h h' : Heap, h.sketch = h'.sketch → (k (f h)).Agree (k' (f' h'))) :
    (ask f >>= k).Agree (ask f' >>= k') :=
  fun m m' hm => h m.heap m'.heap (congrArg Machine.heap hm) m m' hm

theorem ask {f : Heap → α} (hf : ∀ h, f h.sketch = f h) : Agree (ask f) (Eval.ask f) :=
  ask_bind fun _ _ hh => Heap.eq_of_sketch hf hh ▸ pure _

theorem currentScope : Agree currentScope Eval.currentScope := by
  intro m m' hm
  obtain ⟨-, hscope, -⟩ := Machine.sketch_eq_iff.mp hm
  have hrun : Eval.currentScope m' = .ok m.scope m' := congrArg (EStateM.Result.ok · m') hscope.symm
  exact ending_eq_of_ok rfl hrun hm

theorem clock : Agree (do return .real (← get).clock : Eval Value) (do return .real (← get).clock) := by
  intro m m' hm
  obtain ⟨-, -, -, hclock⟩ := Machine.sketch_eq_iff.mp hm
  have hrun : (do return .real (← get).clock : Eval Value) m' = .ok (.real m.clock) m' := by
    rw [hclock]
    rfl
  exact ending_eq_of_ok rfl hrun hm

theorem change {f : Heap → Heap} (hf : ∀ h, (f h).sketch = f h.sketch) :
    Agree (change f) (Eval.change f) := by
  intro m m' hm
  obtain ⟨hheap, hrest⟩ := Machine.sketch_eq_iff.mp hm
  have hnew : (f m.heap).sketch = (f m'.heap).sketch := by rw [hf, hf, hheap]
  exact ending_eq_of_ok rfl rfl (Machine.sketch_eq_iff.mpr ⟨hnew, hrest⟩)

theorem alloc_as {f f' : Heap → Heap × Ref} (g : Heap → Heap × Ref)
    (hf : ∀ h, (f h).map Heap.sketch id = g h.sketch)
    (hf' : ∀ h, (f' h).map Heap.sketch id = g h.sketch) : Agree (alloc f) (Eval.alloc f') := by
  intro m m' hm
  obtain ⟨hheap, hrest⟩ := Machine.sketch_eq_iff.mp hm
  have hpair : (f m.heap).map Heap.sketch id = (f' m'.heap).map Heap.sketch id := by
    rw [hf, hf', hheap]
  obtain ⟨hnew, hid⟩ := Prod.mk.inj hpair
  have href : (f m.heap).2 = (f' m'.heap).2 := hid
  have hrun : Eval.alloc f' m' = .ok (f m.heap).2 { m' with heap := (f' m'.heap).1 } := by
    rw [href]
    rfl
  exact ending_eq_of_ok rfl hrun (Machine.sketch_eq_iff.mpr ⟨hnew, hrest⟩)

theorem alloc {f : Heap → Heap × Ref} (hf : ∀ h, (f h).map Heap.sketch id = f h.sketch) :
    Agree (alloc f) (Eval.alloc f) :=
  alloc_as f hf hf

theorem print (text : String) : Agree (print text) (Eval.print text) := by
  intro m m' hm
  obtain ⟨hheap, hscope, hout, hclock⟩ := Machine.sketch_eq_iff.mp hm
  exact ending_eq_of_ok rfl rfl
    (Machine.sketch_eq_iff.mpr ⟨hheap, hscope, congrArg (· ++ text) hout, hclock⟩)

theorem within {scope : Ref} (hc : c.Agree c') : (within scope c).Agree (Eval.within scope c') := by
  intro m m' hm
  obtain ⟨hheap, hscope, hrest⟩ := Machine.sketch_eq_iff.mp hm
  have h := hc { m with scope } { m' with scope } (Machine.sketch_eq_iff.mpr ⟨hheap, rfl, hrest⟩)
  have hback {n n' : Machine} (hn : n.sketch = n'.sketch) :
      { n with scope := m.scope }.sketch = { n' with scope := m'.scope }.sketch := by
    obtain ⟨hheap', -, hrest'⟩ := Machine.sketch_eq_iff.mp hn
    exact Machine.sketch_eq_iff.mpr ⟨hheap', hscope, hrest'⟩
  unfold ending at h ⊢
  unfold Eval.within
  dsimp only
  cases hr : c { m with scope } <;> cases hr' : c' { m' with scope } <;> rw [hr, hr'] at h
  · obtain ⟨ha, hn⟩ := Prod.mk.inj h
    exact Prod.ext ha (hback hn)
  · cases h
  · cases h
  · obtain ⟨he, hn⟩ := Prod.mk.inj h
    exact Prod.ext he (hback hn)

end Agree
end Eval

def Limits.Agree (limits : Limits) : Prop :=
  ∀ (c c' : Closure) (args : List Value), c.sketch = c'.sketch →
    (limits.run c args).Agree (limits.run c' args)

section

open Eval

variable {limits : Limits}

theorem lookup_agree (name : String) (l l' : Nat) : (lookup name l).Agree (lookup name l') := by
  refine .bind .currentScope fun scope => .bind (.ask fun h => h.lookup_sketch scope name) fun v => ?_
  cases v with
  | none => exact .raise _ l l'
  | some v => exact .pure v

theorem assign_agree (name : String) (v : Value) (l l' : Nat) :
    (assign name v l).Agree (assign name v l') := by
  rw [assign_eq, assign_eq]
  refine .bind .currentScope fun scope => .bind (.ask fun h => h.binder?_sketch scope name) fun b => ?_
  cases b with
  | none => exact .raise _ l l'
  | some binder =>
    simp only [Option.elim_some]
    exact .change fun _ => rfl

theorem define_agree (name : String) (v : Value) : (define name v).Agree (define name v) :=
  .bind .currentScope fun _ => .change fun _ => rfl

theorem childScope_agree : childScope.Agree childScope :=
  .bind .currentScope fun _ => .alloc fun _ => rfl

theorem property_agree (holder key : Value) : (property holder key).Agree (property holder key) :=
  .ask fun h => h.getProperty_sketch holder key

theorem binary_agree (op : BinaryOp) (a b : Value) (l l' : Nat) :
    (binary op a b l).Agree (binary op a b l') := by
  refine .ask_bind fun h h' hh => .ofExcept ?_
  rw [← h.binary_sketch op a b l, hh, h'.binary_sketch]
  exact binary_line h' op a b l l'

theorem addFunction_agree {decl decl' : FunctionDecl} (scope : Ref)
    (h : decl.relined Expr.mark = decl'.relined Expr.mark) :
    (alloc (·.addFunction ⟨decl, scope⟩)).Agree (alloc (·.addFunction ⟨decl', scope⟩)) := by
  have hsketch : Closure.sketch ⟨decl, scope⟩ = Closure.sketch ⟨decl', scope⟩ :=
    congrArg (Closure.mk · scope) h
  refine .alloc_as (·.addFunction (Closure.sketch ⟨decl, scope⟩)) (fun h => h.sketch_addFunction _) ?_
  rw [hsketch]
  exact fun h => h.sketch_addFunction _

theorem makeFunction_agree {decl decl' : FunctionDecl}
    (h : decl.relined Expr.mark = decl'.relined Expr.mark) :
    (makeFunction decl).Agree (makeFunction decl') :=
  .bind .currentScope fun scope => .bind (addFunction_agree scope h) fun _ => .pure _

theorem notCallable_agree (callee : Value) (l l' : Nat) :
    (notCallable callee l).Agree (notCallable callee l') :=
  .bind (.ask fun h => h.render_sketch callee) fun _ => .raise _ l l'

theorem native_agree (native : Native) (args : List Value) :
    (native.run args).Agree (native.run args) := by
  have log : (logLine args).Agree (logLine args) := by
    refine .bind (.ask fun h => ?_) fun texts => .bind (.print _) fun _ => .pure _
    exact List.map_congr_left fun v _ => h.render_sketch v
  cases native with
  | log => exact log
  | warn => exact log
  | clock => exact .clock

def sketchedMethods (methods : List (String × FunctionDecl)) : List (String × FunctionDecl) :=
  methods.map fun method => (method.1, method.2.relined Expr.mark)

theorem bindMethods_agree (ref scope : Ref) (methods methods' : List (String × FunctionDecl))
    (h : sketchedMethods methods = sketchedMethods methods') :
    (bindMethods ref scope methods).Agree (bindMethods ref scope methods') := by
  induction methods generalizing methods' with
  | nil =>
    obtain rfl := List.map_eq_nil_iff.mp h.symm
    exact .pure ()
  | cons method methods ih =>
    obtain ⟨method', rest, rfl, hmethod, hrest⟩ := List.map_eq_cons_iff.mp h.symm
    obtain ⟨hname, hdecl⟩ := Prod.mk.inj hmethod
    unfold bindMethods bindMethod
    refine .bind ?_ fun _ => ih rest hrest.symm
    rw [hname]
    split
    · exact .pure ()
    · exact .bind (addFunction_agree scope hdecl.symm) fun method =>
        .change fun h => h.sketch_insertNamed _ _ _

theorem construct_agree (hl : limits.Agree) (scope : Ref) {ms ms' : List ClassMember}
    (args : List Value) (h : relinedMembers Expr.mark ms = relinedMembers Expr.mark ms') :
    (construct limits scope ms args).Agree (construct limits scope ms' args) := by
  have hfind := congrArg findConstructor? h
  rw [findConstructor?_relined, findConstructor?_relined] at hfind
  unfold construct
  cases hd : findConstructor? ms with
  | none =>
    rw [hd] at hfind
    rw [Option.map_eq_none_iff.mp hfind.symm]
    exact .pure ()
  | some decl =>
    rw [hd] at hfind
    obtain ⟨decl', hd', hdecl⟩ := Option.map_eq_some_iff.mp hfind.symm
    rw [hd']
    exact .bind (hl _ _ args (congrArg (Closure.mk · scope) hdecl.symm)) fun _ => .pure ()

theorem instantiate_agree (hl : limits.Agree) {cell cell' : ClassCell} (args : List Value)
    (h : cell.sketch = cell'.sketch) :
    (instantiate limits cell args).Agree (instantiate limits cell' args) := by
  obtain ⟨hdecl, hscope, -, hfields⟩ := (ClassCell.mk.injEq ..).mp h
  have hmembers := congrArg ClassDecl.members hdecl
  rw [ClassDecl.members_relined, ClassDecl.members_relined] at hmembers
  have hmethods := congrArg instanceMethods hmembers
  rw [instanceMethods_relined, instanceMethods_relined] at hmethods
  unfold instantiate
  rw [hfields, hscope]
  exact .bind (.alloc fun _ => rfl) fun ref =>
    .bind (.alloc fun _ => rfl) fun scope =>
    .bind (.change fun _ => rfl) fun _ =>
    .bind (bindMethods_agree ref scope _ _ hmethods) fun _ =>
    .bind (construct_agree hl scope args hmembers) fun _ => .pure _

theorem callValue_agree (hl : limits.Agree) (callee : Value) (args : List Value) (l l' : Nat) :
    (callValue limits callee args l).Agree (callValue limits callee args l') := by
  cases callee with
  | function ref =>
    refine .ask_bind fun h h' hh => ?_
    have hmap : h.functions[ref]?.map Closure.sketch = h'.functions[ref]?.map Closure.sketch := by
      rw [← h.functions_sketch, hh, h'.functions_sketch]
    cases hc : h.functions[ref]? with
    | none =>
      rw [hc] at hmap
      rw [Option.map_eq_none_iff.mp hmap.symm]
      exact notCallable_agree _ l l'
    | some c =>
      rw [hc] at hmap
      obtain ⟨c', hc', hsketch⟩ := Option.map_eq_some_iff.mp hmap.symm
      rw [hc']
      exact hl c c' args hsketch.symm
  | native ref =>
    refine .bind (.ask fun _ => rfl) fun native => ?_
    cases native with
    | none => exact notCallable_agree _ l l'
    | some native => exact native_agree native args
  | classRef ref =>
    refine .ask_bind fun h h' hh => ?_
    have hmap : h.classes[ref]?.map ClassCell.sketch = h'.classes[ref]?.map ClassCell.sketch := by
      rw [← h.classes_sketch, hh, h'.classes_sketch]
    cases hc : h.classes[ref]? with
    | none =>
      rw [hc] at hmap
      rw [Option.map_eq_none_iff.mp hmap.symm]
      exact notCallable_agree _ l l'
    | some cell =>
      rw [hc] at hmap
      obtain ⟨cell', hc', hsketch⟩ := Option.map_eq_some_iff.mp hmap.symm
      rw [hc']
      exact instantiate_agree hl args hsketch.symm
  | _ => exact notCallable_agree _ l l'

end
end Scriptlet
