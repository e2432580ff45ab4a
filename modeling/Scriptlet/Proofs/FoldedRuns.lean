import Scriptlet.Proofs.FoldedScopes

namespace Scriptlet

namespace Machine

structure Folds (place : Ref → Ref) (m m' : Machine) : Prop where
  heap : m.heap.Folds place m'.heap
  inside : m.scope < m.heap.scopes.size
  scope : m'.scope = place m.scope
  output : m'.output = m.output
  clock : m'.clock = m.clock

structure Settles (place place' : Ref → Ref) (m n : Machine) : Prop where
  scope : n.scope = m.scope
  size : m.heap.scopes.size ≤ n.heap.scopes.size
  places : ∀ r < m.heap.scopes.size, place' r = place r

variable {place place' place'' : Ref → Ref} {m n k : Machine}

theorem Folds.refl (ho : m.heap.Ordered) (hs : m.scope < m.heap.scopes.size) : m.Folds id m :=
  ⟨.refl ho, hs, rfl, rfl, rfl⟩

theorem Settles.refl (place : Ref → Ref) (m : Machine) : m.Settles place place m :=
  ⟨rfl, Nat.le_refl _, fun _ _ => rfl⟩

theorem Settles.trans (h : m.Settles place place' n) (h' : n.Settles place' place'' k) :
    m.Settles place place'' k where
  scope := h'.scope.trans h.scope
  size := Nat.le_trans h.size h'.size
  places r hr := (h'.places r (Nat.lt_of_lt_of_le hr h.size)).trans (h.places r hr)

theorem Settles.leads (h : m.Settles place place' n) {ref : Ref} (hr : ref < m.heap.scopes.size)
    (hlead : Leads place ref) : Leads place' ref :=
  hlead.agree fun r hle => h.places r (Nat.lt_of_le_of_lt hle hr)

theorem Settles.leads_scope (h : m.Settles place place' n) (hm : m.scope < m.heap.scopes.size)
    (hlead : Leads place m.scope) : Leads place' n.scope := by
  rw [h.scope]
  exact h.leads hm hlead

theorem Folds.with_heap {m' : Machine} {heap heap' : Heap} (hm : m.Folds place m')
    (hs : m.Settles place place' { m with heap }) (hheap : heap.Folds place' heap') :
    Folds place' { m with heap } { m' with heap := heap' } where
  heap := hheap
  inside := Nat.lt_of_lt_of_le hm.inside hs.size
  scope := hm.scope.trans (hs.places _ hm.inside).symm
  output := hm.output
  clock := hm.clock

theorem settles_update {heap : Heap} (place : Ref → Ref) (r : Ref)
    (hsize : heap.scopes.size = m.heap.scopes.size + 1) :
    m.Settles place (Function.update place m.heap.scopes.size r) { m with heap } :=
  ⟨rfl, by rw [hsize]; exact Nat.le_succ _, fun _ hr => Function.update_of_ne (Nat.ne_of_lt hr) _ _⟩

theorem settles_placing {heap : Heap} (place : Ref → Ref) (h' : Heap)
    (hsize : heap.scopes.size = m.heap.scopes.size + 1) :
    m.Settles place (m.heap.placing h' place) { m with heap } :=
  settles_update place h'.scopes.size hsize

end Machine

namespace Eval

variable {α β : Type}

theorem outcome_within {c : Eval α} {m : Machine} {scope : Ref} :
    (within scope c).outcome m = c.outcome { m with scope } := by
  unfold within outcome
  dsimp only
  cases c { m with scope } <;> rfl

/-- `c` from `m` and `c'` from `m'`, in which scopes are folded, end alike. -/
def Mirrors (c c' : Eval α) (place : Ref → Ref) (m m' : Machine) : Prop :=
  m.Folds place m' → c'.outcome m' = c.outcome m ∧
    ∃ place', m.Settles place place' (c.after m) ∧ (c.after m).Folds place' (c'.after m')

def Mirrored (c : Eval α) : Prop := ∀ place m m', c.Mirrors c place m m'

namespace Mirrors

variable {c c' : Eval α} {place place' : Ref → Ref} {m m' n n' : Machine}

theorem given (h : m.Folds place m' → c.Mirrors c' place m m') : c.Mirrors c' place m m' :=
  fun hm => h hm hm

theorem still (h : c'.outcome m' = c.outcome m) (hm : c.after m = m) (hm' : c'.after m' = m') :
    c.Mirrors c' place m m' := by
  intro hf
  rw [hm, hm']
  exact ⟨h, place, .refl place m, hf⟩

theorem step {d d' : Eval α} (hrun : c m = d n) (hrun' : c' m' = d' n')
    (hs : m.Settles place place' n) (hf : m.Folds place m' → n.Folds place' n')
    (hd : d.Mirrors d' place' n n') : c.Mirrors c' place m m' := by
  intro hm
  obtain ⟨hout, place'', hs', hf'⟩ := hd (hf hm)
  unfold outcome after at *
  rw [hrun, hrun']
  exact ⟨hout, place'', hs.trans hs', hf'⟩

theorem bind {k k' : α → Eval β} (hc : c.Mirrors c' place m m')
    (hk : ∀ a n n' place', c m = .ok a n → m.Settles place place' n →
      (k a).Mirrors (k' a) place' n n') :
    (c >>= k).Mirrors (c' >>= k') place m m' := by
  intro hm
  obtain ⟨hout, place', hs, hf⟩ := hc hm
  cases hr : c m with
  | ok a n =>
    cases hr' : c' m' with
    | ok a' n' =>
      rw [outcome_ok hr, outcome_ok hr'] at hout
      obtain rfl := Except.ok.inj hout
      rw [after_ok hr] at hs hf
      rw [after_ok hr'] at hf
      exact (hk a' n n' place' hr hs).step (bind_ok hr) (bind_ok hr') hs (fun _ => hf) hm
    | error e' n' =>
      rw [outcome_ok hr, outcome_error hr'] at hout
      cases hout
  | error e n =>
    cases hr' : c' m' with
    | ok a' n' =>
      rw [outcome_error hr, outcome_ok hr'] at hout
      cases hout
    | error e' n' =>
      rw [outcome_error hr, outcome_error hr'] at hout
      rw [after_error hr] at hs hf
      rw [after_error hr'] at hf
      rw [outcome_error (bind_error hr), outcome_error (bind_error hr'), after_bind_error hr,
        after_bind_error hr', Except.error.inj hout]
      exact ⟨rfl, place', hs, hf⟩

theorem change {f f' : Heap → Heap} (hsize : (f m.heap).scopes.size = m.heap.scopes.size)
    (hf : m.heap.Folds place m'.heap → (f m.heap).Folds place (f' m'.heap)) :
    (change f).Mirrors (Eval.change f') place m m' := fun hm =>
  have hs : m.Settles place place { m with heap := f m.heap } :=
    ⟨rfl, Nat.le_of_eq hsize.symm, fun _ _ => rfl⟩
  ⟨rfl, place, hs, hm.with_heap hs (hf hm.heap)⟩

theorem alloc {f f' : Heap → Heap × Ref} (hsize : (f m.heap).1.scopes.size = m.heap.scopes.size)
    (hf : m.heap.Folds place m'.heap →
      (f m.heap).1.Folds place (f' m'.heap).1 ∧ (f' m'.heap).2 = (f m.heap).2) :
    (alloc f).Mirrors (Eval.alloc f') place m m' := fun hm =>
  have hs : m.Settles place place { m with heap := (f m.heap).1 } :=
    ⟨rfl, Nat.le_of_eq hsize.symm, fun _ _ => rfl⟩
  have ⟨hheap, href⟩ := hf hm.heap
  ⟨congrArg Except.ok href, place, hs, hm.with_heap hs hheap⟩

theorem addFunction (decl : FunctionDecl) {scope : Ref} (hs : scope < m.heap.scopes.size) :
    (Eval.alloc (·.addFunction ⟨decl, scope⟩)).Mirrors
      (Eval.alloc (·.addFunction ⟨decl, place scope⟩)) place m m' := by
  refine .alloc rfl fun hf => ⟨hf.addFunction hs, ?_⟩
  change m'.heap.functions.size = m.heap.functions.size
  rw [hf.functions, Array.size_map]

theorem within {scope : Ref} (hs : scope < m.heap.scopes.size)
    (hc : c.Mirrors c' place { m with scope } { m' with scope := place scope }) :
    (within scope c).Mirrors (within (place scope) c') place m m' := by
  intro hm
  obtain ⟨hout, place', hset, hf⟩ := hc ⟨hm.heap, hs, rfl, hm.output, hm.clock⟩
  rw [after_within, after_within, outcome_within, outcome_within]
  refine ⟨hout, place', ⟨rfl, hset.size, hset.places⟩, hf.heap, ?_, ?_, hf.output, hf.clock⟩
  · exact Nat.lt_of_lt_of_le hm.inside hset.size
  · exact hm.scope.trans (hset.places _ hm.inside).symm

theorem within_folded {scope : Ref} (hs : scope < m.heap.scopes.size) (hplace : place scope = place m.scope)
    (hc : c.Mirrors c' place { m with scope } m') : (Eval.within scope c).Mirrors c' place m m' := by
  intro hm
  have hscope : m'.scope = place scope := hm.scope.trans hplace.symm
  obtain ⟨hout, place', hset, hf⟩ := hc ⟨hm.heap, hs, hscope, hm.output, hm.clock⟩
  rw [after_within, outcome_within]
  refine ⟨hout, place', ⟨rfl, hset.size, hset.places⟩, hf.heap, ?_, ?_, hf.output, hf.clock⟩
  · exact Nat.lt_of_lt_of_le hm.inside hset.size
  · rw [hf.scope, hset.scope, hset.places _ hs, hplace, ← hset.places _ hm.inside]

end Mirrors

namespace Mirrored

variable {c : Eval α}

theorem pure (a : α) : (pure a : Eval α).Mirrored := fun _ _ _ => .still rfl rfl rfl

theorem throw (e : Halt) : (throw e : Eval α).Mirrored := fun _ _ _ => .still rfl rfl rfl

theorem raise (cause : Fault.Cause) (line : Nat) : (raise cause line : Eval α).Mirrored := throw _

theorem ofExcept (r : Except Fault α) : (ofExcept r).Mirrored := by
  cases r with
  | ok a => exact pure a
  | error e => exact throw _

theorem bind {k : α → Eval β} (hc : c.Mirrored) (hk : ∀ a, (k a).Mirrored) : (c >>= k).Mirrored :=
  fun place m m' => (hc place m m').bind fun a n n' place' _ _ => hk a place' n n'

theorem ask {f : Heap → α} (hf : ∀ h r scopes, f (h.recast r scopes) = f h) : (ask f).Mirrored := by
  intro place m m'
  refine .given fun hm => .still ?_ rfl rfl
  change Except.ok (f m'.heap) = .ok (f m.heap)
  rw [hm.heap.recast, hf]

theorem print (text : String) : (print text).Mirrored := fun place _ _ hm =>
  ⟨rfl, place, ⟨rfl, Nat.le_refl _, fun _ _ => rfl⟩, hm.heap, hm.inside, hm.scope,
    congrArg (· ++ text) hm.output, hm.clock⟩

theorem addObject (table : Table) : (alloc (·.addObject table)).Mirrored := fun _ _ _ =>
  .alloc rfl fun hf => ⟨hf.addObject table, congrArg Array.size hf.objects⟩

theorem addArray (elements : Array Value) : (alloc (·.addArray elements)).Mirrored := fun _ _ _ =>
  .alloc rfl fun hf => ⟨hf.addArray elements, congrArg Array.size hf.arrays⟩

theorem setProperty (holder key v : Value) :
    (change (·.setProperty holder key v)).Mirrored := fun _ m _ =>
  .change (by rw [m.heap.scopes_setProperty holder key v]) fun hf =>
    hf.setProperty holder key v

end Mirrored
end Eval

section

open Eval

theorem scoped_mirrors {α : Type} {body body' : Eval α}
    (hb : ∀ place m m', Leads place m.scope → body.Mirrors body' place m m') (place : Ref → Ref)
    (m m' : Machine) :
    (childScope >>= fun scope => within scope body).Mirrors
      (childScope >>= fun scope => within scope body') place m m' := by
  refine .given fun hm => ?_
  have hset := Machine.settles_placing place m'.heap (m.heap.size_addScope (some m.scope))
  refine .step scoped_run scoped_run hset (fun hm => ?_) ?_
  · have hadd := hm.heap.addScope hm.inside
    rw [← hm.scope] at hadd
    exact hm.with_heap hset hadd
  · rw [← Heap.placing_self m.heap m'.heap place]
    exact .within (m.heap.lt_size_addScope _) (hb _ _ _ hm.heap.leads_placing)

theorem lookup_mirrored (name : String) (line : Nat) : (lookup name line).Mirrored := by
  intro place m m'
  refine .given fun hm => ?_
  have hlookup : m'.heap.lookup m'.scope name = m.heap.lookup m.scope name := by
    rw [hm.scope]
    exact hm.heap.lookup hm.inside name
  refine .step lookup_run lookup_run (.refl place m) id ?_
  rw [hlookup]
  split
  · exact Mirrored.pure _ place m m'
  · exact Mirrored.raise _ _ place m m'

theorem assign_mirrored (name : String) (v : Value) (line : Nat) : (assign name v line).Mirrored := by
  intro place m m'
  refine .given fun hm => ?_
  obtain ⟨hbinder, hleads⟩ := hm.heap.binder? hm.inside name
  rw [← hm.scope] at hbinder
  refine .step assign_run assign_run (.refl place m) id ?_
  rw [hbinder]
  cases hb : m.heap.binder? m.scope name with
  | none => exact Mirrored.raise _ _ place m m'
  | some binder =>
    obtain ⟨hlt, -⟩ := Heap.mem_names_of_binder? hb
    simp only [Option.map_some, Option.elim_some]
    exact .change Heap.size_define fun hf => hf.define hlt (hleads binder hb) name v

theorem define_mirrors {place : Ref → Ref} {m m' : Machine} (hlead : Leads place m.scope) (name : String)
    (v : Value) : (define name v).Mirrors (define name v) place m m' := by
  refine .given fun hm => .step define_run define_run (.refl place m) id ?_
  refine .change Heap.size_define fun hf => ?_
  rw [hm.scope]
  exact hf.define hm.inside hlead name v

theorem property_mirrored (holder key : Value) : (property holder key).Mirrored :=
  .ask fun h r scopes => h.getProperty_recast r scopes holder key

theorem binary_mirrored (op : BinaryOp) (a b : Value) (line : Nat) : (binary op a b line).Mirrored :=
  Mirrored.bind (.ask fun h r scopes => h.binary_recast r scopes op a b line) fun _ => .ofExcept _

theorem notCallable_mirrored (callee : Value) (line : Nat) : (notCallable callee line).Mirrored :=
  Mirrored.bind (.ask fun h r scopes => h.render_recast r scopes callee) fun _ => .raise _ _

theorem native_mirrored (native : Native) (args : List Value) : (native.run args).Mirrored := by
  have log : (logLine args).Mirrored := by
    refine Mirrored.bind (.ask fun h r scopes => ?_) fun _ => (Mirrored.print _).bind fun _ => .pure _
    exact List.map_congr_left fun v _ => h.render_recast r scopes v
  cases native with
  | log => exact log
  | warn => exact log
  | clock =>
    intro place m m'
    refine .given fun hm => .still ?_ rfl rfl
    change Except.ok (Value.real m'.clock) = .ok (.real m.clock)
    rw [hm.clock]

theorem makeFunction_mirrored (decl : FunctionDecl) : (makeFunction decl).Mirrored := by
  intro place m m'
  refine .given fun hm => .step makeFunction_run makeFunction_run (.refl place m) id ?_
  rw [hm.scope]
  exact (Mirrors.addFunction decl hm.inside).bind fun f n n' place' _ _ => Mirrored.pure _ place' n n'

end

def Limits.Mirror (limits : Limits) : Prop :=
  ∀ (closure : Closure) (args : List Value) (place : Ref → Ref) (m m' : Machine),
    closure.scope < m.heap.scopes.size →
    (limits.run closure args).Mirrors (limits.run (closure.moved place) args) place m m'

section

open Eval

variable {limits : Limits}

theorem construct_mirrors (hl : limits.Mirror) {scope : Ref} (members : List ClassMember)
    (args : List Value) {place : Ref → Ref} {m m' : Machine} (hs : scope < m.heap.scopes.size) :
    (construct limits scope members args).Mirrors (construct limits (place scope) members args)
      place m m' := by
  unfold construct
  split
  · next decl _ =>
    exact (hl ⟨decl, scope⟩ args place m m' hs).bind fun _ n n' place' _ _ =>
      Mirrored.pure () place' n n'
  · exact Mirrored.pure () place m m'

theorem instantiate_mirrors (hl : limits.Mirror) {cell : ClassCell} (args : List Value)
    {place : Ref → Ref} {m m' : Machine} (hc : cell.scope < m.heap.scopes.size) :
    (instantiate limits cell args).Mirrors (instantiate limits (cell.moved place) args) place m m' := by
  refine .given fun hm => ?_
  have hsize : m'.heap.objects.size = m.heap.objects.size := by rw [hm.heap.objects]
  have hset := Machine.settles_placing place m'.heap (m.heap.size_addInstance cell)
  refine .step instantiate_run instantiate_run hset (fun hm => ?_) ?_
  · exact hm.with_heap hset (hm.heap.addInstance hc)
  · rw [hsize, ← Heap.placing_self m.heap m'.heap place]
    refine Mirrors.bind (construct_mirrors hl cell.decl.members args ?_) fun _ n n' place' _ _ =>
      Mirrored.pure _ place' n n'
    rw [Heap.size_addInstance]
    exact Nat.lt_succ_self _

theorem callValue_mirrored (hl : limits.Mirror) (callee : Value) (args : List Value) (line : Nat) :
    (callValue limits callee args line).Mirrored := by
  have hnone : (notCallable callee line).Mirrored := notCallable_mirrored callee line
  cases callee with
  | function ref =>
    intro place m m'
    refine .given fun hm => .step callValue_function callValue_function (.refl place m) id ?_
    rw [hm.heap.functions, Array.getElem?_map]
    cases hf : m.heap.functions[ref]? with
    | none => exact hnone place m m'
    | some closure => exact hl closure args place m m' (hm.heap.ordered.function ref closure hf)
  | native ref =>
    intro place m m'
    refine .given fun hm => .step callValue_native callValue_native (.refl place m) id ?_
    rw [hm.heap.natives]
    cases m.heap.natives[ref]? with
    | none => exact hnone place m m'
    | some native => exact native_mirrored native args place m m'
  | classRef ref =>
    intro place m m'
    refine .given fun hm => .step callValue_class callValue_class (.refl place m) id ?_
    rw [hm.heap.classes, Array.getElem?_map]
    cases hc : m.heap.classes[ref]? with
    | none => exact hnone place m m'
    | some cell => exact instantiate_mirrors hl args (hm.heap.ordered.ofClass ref cell hc)
  | _ => exact hnone

end
end Scriptlet
