import Scriptlet.Evaluation.Program
import Scriptlet.Proofs.ScopeWalks

namespace Scriptlet

namespace Eval

variable {α β : Type} {c : Eval α} {f : α → Eval β} {m m' : Machine}

theorem bind_ok {a : α} (h : c m = .ok a m') : (c >>= f) m = f a m' := by
  change EStateM.bind c f m = _
  rw [EStateM.bind, h]

theorem bind_error {e : Halt} (h : c m = .error e m') : (c >>= f) m = .error e m' := by
  change EStateM.bind c f m = _
  rw [EStateM.bind, h]

theorem bind_congr {c' : Eval α} (h : c m = c' m') : (c >>= f) m = (c' >>= f) m' := by
  change EStateM.bind c f m = EStateM.bind c' f m'
  rw [EStateM.bind, EStateM.bind, h]

theorem bind_eq_ok {n : Machine} {b : β} :
    (c >>= f) m = .ok b n ↔ ∃ a m', c m = .ok a m' ∧ f a m' = .ok b n := by
  constructor
  · intro h
    cases hc : c m with
    | ok a m' =>
      rw [bind_ok hc] at h
      exact ⟨a, m', rfl, h⟩
    | error e m' =>
      rw [bind_error hc] at h
      cases h
  · rintro ⟨a, m', hc, hf⟩
    rw [bind_ok hc, hf]

theorem ofExcept_eq_ok {r : Except Fault α} {n : Machine} {a : α} :
    Eval.ofExcept r m = .ok a n ↔ r = .ok a ∧ n = m := by
  cases r with
  | ok b =>
    constructor
    · intro h
      cases h
      exact ⟨rfl, rfl⟩
    · rintro ⟨h, rfl⟩
      cases h
      rfl
  | error e =>
    constructor
    · intro h
      cases h
    · intro h
      cases h.1

def after (c : Eval α) (m : Machine) : Machine :=
  match c m with
  | .ok _ m' => m'
  | .error _ m' => m'

theorem after_ok {a : α} (h : c m = .ok a m') : c.after m = m' := by
  rw [after, h]

theorem after_error {e : Halt} (h : c m = .error e m') : c.after m = m' := by
  rw [after, h]

theorem after_bind_ok {a : α} (h : c m = .ok a m') : (c >>= f).after m = (f a).after m' := by
  rw [after, bind_ok h, after]

theorem after_bind_error {e : Halt} (h : c m = .error e m') : (c >>= f).after m = m' :=
  after_error (bind_error h)

def outcome (c : Eval α) (m : Machine) : Except Halt α :=
  match c m with
  | .ok a _ => .ok a
  | .error e _ => .error e

theorem outcome_ok {a : α} (h : c m = .ok a m') : c.outcome m = .ok a := by
  rw [outcome, h]

theorem outcome_error {e : Halt} (h : c m = .error e m') : c.outcome m = .error e := by
  rw [outcome, h]

theorem after_within {scope : Ref} {body : Eval α} :
    (within scope body).after m = { body.after { m with scope } with scope := m.scope } := by
  unfold within after
  dsimp only
  cases body { m with scope } <;> rfl

theorem define_run {name : String} {v : Value} :
    define name v m = change (·.define m.scope name v) m := rfl

theorem scoped_run {body : Eval α} :
    (childScope >>= fun scope => within scope body) m =
      within m.heap.scopes.size body { m with heap := (m.heap.addScope (some m.scope)).1 } := rfl

theorem lookup_run {name : String} {line : Nat} :
    lookup name line m = (match m.heap.lookup m.scope name with
      | some v => pure v
      | none => raise (.undefined name) line : Eval Value) m := rfl

theorem assign_run {name : String} {v : Value} {line : Nat} :
    assign name v line m =
      (m.heap.binder? m.scope name).elim (raise (.undefined name) line)
        (fun binder => change (·.define binder name v)) m := by
  have hscope : currentScope m = .ok m.scope m := rfl
  have hassign : ask (·.assign? m.scope name v) m = .ok (m.heap.assign? m.scope name v) m := rfl
  rw [assign, bind_ok hscope, bind_ok hassign, Heap.assign?_eq_binder]
  cases m.heap.binder? m.scope name <;> rfl

theorem assign_eq (name : String) (v : Value) (line : Nat) : assign name v line = (do
    let scope ← currentScope
    let binder? ← ask (·.binder? scope name)
    binder?.elim (raise (.undefined name) line) fun binder => change (·.define binder name v)) := by
  funext m
  exact assign_run

end Eval

namespace Heap

def addReceiver (h : Heap) (parent : Ref) (v : Value) : Heap :=
  (h.addScope (some parent)).1.define h.scopes.size "this" v

def bindMethod (h : Heap) (ref scope : Ref) (name : String) (decl : FunctionDecl) : Heap :=
  if name = constructorName then h
  else (h.addFunction ⟨decl, scope⟩).1.insertNamed (.object ref) name (.function h.functions.size)

def bindMethods (h : Heap) (ref scope : Ref) (methods : List (String × FunctionDecl)) : Heap :=
  methods.foldl (fun h (name, decl) => h.bindMethod ref scope name decl) h

theorem bindMethods_induct {P : Heap → Prop} {ref scope : Ref} {methods : List (String × FunctionDecl)}
    {h : Heap} (h₀ : P h)
    (hstep : ∀ (h : Heap) (name : String) (decl : FunctionDecl), (name, decl) ∈ methods → P h →
      P ((h.addFunction ⟨decl, scope⟩).1.setProperty (.object ref) (.text name)
        (.function h.functions.size))) :
    P (h.bindMethods ref scope methods) := by
  induction methods generalizing h with
  | nil => exact h₀
  | cons method methods ih =>
    have hrest := ih (h := h.bindMethod ref scope method.1 method.2)
    refine hrest ?_ fun h name decl hmem => hstep h name decl (.tail _ hmem)
    unfold bindMethod
    split
    · exact h₀
    · exact hstep h _ _ (.head _) h₀

theorem scopes_setProperty (h : Heap) (holder key v : Value) :
    (h.setProperty holder key v).scopes = h.scopes := by
  unfold setProperty
  cases holder <;> try rfl
  dsimp only
  split <;> rfl

theorem scopes_bindMethods (h : Heap) (ref scope : Ref) (methods : List (String × FunctionDecl)) :
    (h.bindMethods ref scope methods).scopes = h.scopes :=
  bindMethods_induct (P := (·.scopes = h.scopes)) rfl fun _ _ _ _ hs => hs

theorem size_bindParams (h : Heap) (scope : Ref) (params : List String) (args : List Value) :
    (h.bindParams scope params args).scopes.size = h.scopes.size := by
  induction params generalizing h args with
  | nil => rfl
  | cons name params ih =>
    rw [bindParams, ih]
    exact Array.size_modify

theorem size_addReceiver (h : Heap) (parent : Ref) (v : Value) :
    (h.addReceiver parent v).scopes.size = h.scopes.size + 1 := by
  simp [addReceiver, define, modifyScope, addScope]

def addInstance (h : Heap) (cell : ClassCell) : Heap :=
  let h₁ := (h.addObject (.ofNamed cell.fields)).1
  (h₁.addReceiver cell.scope (.object h.objects.size)).bindMethods h.objects.size h.scopes.size
    (instanceMethods cell.decl.members)

theorem size_addInstance (h : Heap) (cell : ClassCell) :
    (h.addInstance cell).scopes.size = h.scopes.size + 1 := by
  rw [addInstance, scopes_bindMethods]
  exact size_addReceiver _ _ _

def addClassScope (h : Heap) (cell : ClassCell) : Heap :=
  (h.addClass cell).1.addReceiver cell.scope (.classRef h.classes.size)

theorem size_addClassScope (h : Heap) (cell : ClassCell) :
    (h.addClassScope cell).scopes.size = h.scopes.size + 1 := size_addReceiver _ _ _

end Heap

theorem bindMethod_run {ref scope : Ref} {name : String} {decl : FunctionDecl} {m : Machine} :
    bindMethod ref scope name decl m =
      .ok () { m with heap := m.heap.bindMethod ref scope name decl } := by
  unfold bindMethod Heap.bindMethod
  split <;> rfl

theorem bindMethods_run {ref scope : Ref} (methods : List (String × FunctionDecl)) (m : Machine) :
    bindMethods ref scope methods m =
      .ok () { m with heap := m.heap.bindMethods ref scope methods } := by
  induction methods generalizing m with
  | nil => rfl
  | cons method methods ih =>
    rw [bindMethods, Eval.bind_ok bindMethod_run, ih]
    rfl

variable {limits : Limits} {ref : Ref} {args : List Value} {line : Nat} {m : Machine}

theorem instantiate_run {cell : ClassCell} :
    instantiate limits cell args m = (do
      construct limits m.heap.scopes.size cell.decl.members args
      return .object m.heap.objects.size : Eval Value)
        { m with heap := m.heap.addInstance cell } :=
  Eval.bind_ok (bindMethods_run _ _)

theorem makeFunction_run {decl : FunctionDecl} :
    makeFunction decl m =
      (do return .function (← Eval.alloc (·.addFunction ⟨decl, m.scope⟩)) : Eval Value) m := rfl

theorem callValue_function :
    callValue limits (.function ref) args line m = (match m.heap.functions[ref]? with
      | some closure => limits.run closure args
      | none => notCallable (.function ref) line : Eval Value) m := rfl

theorem callValue_native :
    callValue limits (.native ref) args line m = (match m.heap.natives[ref]? with
      | some native => native.run args
      | none => notCallable (.native ref) line : Eval Value) m := rfl

theorem callValue_class :
    callValue limits (.classRef ref) args line m = (match m.heap.classes[ref]? with
      | some cell => instantiate limits cell args
      | none => notCallable (.classRef ref) line : Eval Value) m := rfl

theorem finishClass_run {decl : ClassDecl} {members : List ClassMember} {fields : List (String × Value)} :
    (do
      let current ← Eval.currentScope
      let ref ← Eval.alloc (·.addClass ⟨decl, current, .empty, fields⟩)
      let scope ← Eval.childScope
      Eval.change (·.define scope "this" (.classRef ref))
      classStatics limits ref scope members
      return .classRef ref : Eval Value) m =
    (do
      classStatics limits m.heap.classes.size m.heap.scopes.size members
      return .classRef m.heap.classes.size : Eval Value)
        { m with heap := m.heap.addClassScope ⟨decl, m.scope, .empty, fields⟩ } := rfl

def instanceFields (members : List ClassMember) : List String :=
  members.filterMap fun member =>
    match member with
    | .field false name _ _ => some name
    | _ => none

theorem mem_instanceMethods {members : List ClassMember} {name : String} {decl : FunctionDecl} :
    (name, decl) ∈ instanceMethods members ↔
      .method false decl ∈ members ∧ decl.name.getD "" = name := by
  rw [instanceMethods, List.mem_filterMap]
  constructor
  · rintro ⟨member, hm, h⟩
    split at h
    · cases h
      exact ⟨hm, rfl⟩
    · cases h
  · rintro ⟨hm, rfl⟩
    exact ⟨_, hm, rfl⟩

theorem classFields_names {members : List ClassMember} {fields : List (String × Value)} {m' : Machine}
    (h : classFields limits members m = .ok fields m') :
    fields.map (·.1) = instanceFields members := by
  induction members generalizing m fields with
  | nil =>
    rw [classFields] at h
    cases h
    rfl
  | cons member rest ih =>
    cases member with
    | field isStatic name initial line =>
      cases isStatic with
      | true =>
        rw [classFields] at h
        · exact ih h
        · exact nofun
      | false =>
        rw [classFields] at h
        obtain ⟨v, m₁, -, hrest⟩ := Eval.bind_eq_ok.mp h
        obtain ⟨others, m₂, hothers, hend⟩ := Eval.bind_eq_ok.mp hrest
        cases hend
        exact congrArg (name :: ·) (ih hothers)
    | method isStatic decl =>
      rw [classFields] at h
      · exact ih h
      · exact nofun

theorem makeClass_run {name : Option String} {members : List ClassMember}
    {fields : List (String × Value)} {m' : Machine} (h : classFields limits members m = .ok fields m') :
    makeClass limits ⟨name, members, line⟩ m = (do
      classStatics limits m'.heap.classes.size m'.heap.scopes.size members
      return .classRef m'.heap.classes.size : Eval Value)
        { m' with heap := m'.heap.addClassScope ⟨⟨name, members, line⟩, m'.scope, .empty, fields⟩ } := by
  rw [makeClass, Eval.bind_ok h, finishClass_run]

theorem execute_block {body : List Stmt} :
    execute limits (.block body line) m = Eval.within m.heap.scopes.size (executeAll limits body .null)
      { m with heap := (m.heap.addScope (some m.scope)).1 } := by
  rw [execute]
  exact Eval.scoped_run

end Scriptlet
