import Mathlib
import Scriptlet.Proofs.DeclaredFields
import Scriptlet.Proofs.PropertyTables

/-!
What a new instance contains. The defaults of the fields come first and the methods after them, so a
method takes the place of a field of its name, and of several declarations with one name the last one
counts.
-/

namespace Scriptlet

def LastEntry {α : Type} (name : String) (a : α) (entries : List (String × α)) : Prop :=
  ∃ before after, entries = before ++ (name, a) :: after ∧ name ∉ after.map (·.1)

def NoMethod (name : String) (members : List ClassMember) : Prop :=
  ∀ decl, .method false decl ∈ members → decl.name.getD "" ≠ name

/-- The last declaration of an instance method of the name. -/
def LastMethod (name : String) (decl : FunctionDecl) (members : List ClassMember) : Prop :=
  ∃ before after, members = before ++ .method false decl :: after ∧ decl.name.getD "" = name ∧
    NoMethod name after

section

variable {name : String} {decl : FunctionDecl} {members : List ClassMember}

theorem NoMethod.instanceMethods (h : NoMethod name members) :
    name ∉ (instanceMethods members).map (·.1) := by
  rintro hname
  obtain ⟨⟨_, decl⟩, hm, rfl⟩ := List.mem_map.mp hname
  obtain ⟨hm, hname⟩ := mem_instanceMethods.mp hm
  exact h decl hm hname

theorem LastMethod.instanceMethods (h : LastMethod name decl members) :
    LastEntry name decl (instanceMethods members) := by
  obtain ⟨before, after, rfl, rfl, hafter⟩ := h
  exact ⟨_, _, List.filterMap_append, hafter.instanceMethods⟩

theorem NoMethod.findConstructor? (h : NoMethod constructorName members) :
    findConstructor? members = none := by
  rw [Scriptlet.findConstructor?, Option.map_eq_none_iff, List.find?_eq_none]
  intro method hm hname
  refine h.instanceMethods (List.mem_map.mpr ⟨method, List.mem_reverse.mp hm, ?_⟩)
  exact of_decide_eq_true hname

theorem LastMethod.findConstructor? (h : LastMethod constructorName decl members) :
    findConstructor? members = some decl := by
  obtain ⟨before, after, heq, hafter⟩ := h.instanceMethods
  have hnone : after.reverse.find? (·.1 = constructorName) = none := by
    rw [List.find?_eq_none]
    intro method hm hname
    exact hafter (List.mem_map.mpr ⟨method, List.mem_reverse.mp hm, of_decide_eq_true hname⟩)
  rw [Scriptlet.findConstructor?, heq, List.reverse_append, List.reverse_cons, List.append_assoc,
    List.find?_append, hnone]
  rfl

theorem LastEntry.filter_ne {α : Type} {a : α} {entries : List (String × α)} {other : String}
    (h : LastEntry name a entries) (hne : name ≠ other) :
    LastEntry name a (entries.filter (·.1 ≠ other)) := by
  obtain ⟨before, after, rfl, hafter⟩ := h
  refine ⟨before.filter (·.1 ≠ other), after.filter (·.1 ≠ other), by simp [hne], fun hmem => hafter ?_⟩
  exact List.map_subset _ (List.filter_subset_self _) hmem

end

namespace Table

def insertNamed (table : Table) (entries : List (String × Value)) : Table :=
  entries.foldl (fun table (name, value) => table.insert (.text name) value) table

theorem get?_insertNamed_of_not_mem {entries : List (String × Value)} {name : String}
    (h : name ∉ entries.map (·.1)) (table : Table) :
    (table.insertNamed entries).get? (.text name) = table.get? (.text name) := by
  induction entries generalizing table with
  | nil => rfl
  | cons entry rest ih =>
    obtain ⟨hne, hrest⟩ := List.ne_and_not_mem_of_not_mem_cons h
    exact (ih hrest _).trans (get?_insert_ne _ hne _)

theorem get?_insertNamed_of_last {entries : List (String × Value)} {name : String} {v : Value}
    (h : LastEntry name v entries) (table : Table) :
    (table.insertNamed entries).get? (.text name) = some v := by
  obtain ⟨before, after, rfl, hafter⟩ := h
  have happend : table.insertNamed (before ++ (name, v) :: after) =
      ((table.insertNamed before).insert (.text name) v).insertNamed after := List.foldl_append
  rw [happend, get?_insertNamed_of_not_mem hafter]
  exact get?_insert_self _ _ _

theorem mem_keys_insert {key : PropertyKey} {table : Table} {name : String} {v : Value} :
    key ∈ (table.insert (.text name) v).keys ↔ key = .text name ∨ key ∈ table.keys := by
  unfold keys insert
  dsimp only
  induction table.entries with
  | nil => simp [insertIn]
  | cons entry rest ih =>
    obtain ⟨k, w⟩ := entry
    unfold insertIn
    split
    · simp
    · next heq =>
      obtain rfl := PropertyKey.compare_text.mp heq
      simp
    · simp only [List.map_cons, List.mem_cons, ih]
      tauto

theorem mem_keys_insertNamed {key : PropertyKey} {table : Table} {entries : List (String × Value)} :
    key ∈ (table.insertNamed entries).keys ↔
      (∃ name ∈ entries.map (·.1), key = .text name) ∨ key ∈ table.keys := by
  induction entries generalizing table with
  | nil => simp [insertNamed]
  | cons entry rest ih =>
    change key ∈ ((table.insert (.text entry.1) entry.2).insertNamed rest).keys ↔ _
    rw [ih, mem_keys_insert]
    simp only [List.map_cons, List.mem_cons, exists_eq_or_imp]
    exact or_left_comm.trans or_assoc.symm

end Table

def storedMethods (members : List ClassMember) : List (String × FunctionDecl) :=
  (instanceMethods members).filter (·.1 ≠ constructorName)

def methodValues (first : Ref) : List (String × FunctionDecl) → List (String × Value)
  | [] => []
  | (name, _) :: rest => (name, .function first) :: methodValues (first + 1) rest

theorem map_methodValues (first : Ref) (methods : List (String × FunctionDecl)) :
    (methodValues first methods).map (·.1) = methods.map (·.1) := by
  induction methods generalizing first with
  | nil => rfl
  | cons method rest ih => simp [methodValues, ih]

theorem methodValues_append (first : Ref) (before after : List (String × FunctionDecl)) :
    methodValues first (before ++ after) =
      methodValues first before ++ methodValues (first + before.length) after := by
  induction before generalizing first with
  | nil => rfl
  | cons method rest ih =>
    simp [methodValues, ih, Nat.add_right_comm, Nat.add_assoc]

theorem LastEntry.methodValues {methods : List (String × FunctionDecl)} {name : String}
    {decl : FunctionDecl} (first : Ref) (h : LastEntry name decl methods) :
    ∃ i, LastEntry name (.function (first + i)) (methodValues first methods) ∧
      methods[i]? = some (name, decl) := by
  obtain ⟨before, after, rfl, hafter⟩ := h
  refine ⟨before.length, ⟨_, _, methodValues_append first before _, ?_⟩, by simp⟩
  rwa [map_methodValues]

theorem mem_instanceFields {members : List ClassMember} {name : String} :
    name ∈ instanceFields members ↔ ∃ initial line, .field false name initial line ∈ members := by
  rw [instanceFields, List.mem_filterMap]
  constructor
  · rintro ⟨member, hm, h⟩
    split at h
    · cases h
      exact ⟨_, _, hm⟩
    · cases h
  · rintro ⟨initial, line, hm⟩
    exact ⟨_, hm, rfl⟩

namespace ClassCell

def instanceTable (cell : ClassCell) (first : Ref) : Table :=
  .insertNamed (.ofNamed cell.fields) (methodValues first (storedMethods cell.decl.members))

def Holds (cell : ClassCell) (name : String) : Prop :=
  (∃ initial line, .field false name initial line ∈ cell.decl.members) ∨
    name ≠ constructorName ∧ ∃ decl, .method false decl ∈ cell.decl.members ∧ decl.name.getD "" = name

variable {cell : ClassCell} {name : String} (first : Ref)

theorem mem_storedMethods :
    name ∈ (storedMethods cell.decl.members).map (·.1) ↔
      name ≠ constructorName ∧ ∃ decl, .method false decl ∈ cell.decl.members ∧ decl.name.getD "" = name := by
  simp [storedMethods, mem_instanceMethods, and_comm]

theorem mem_keys_instanceTable (hf : cell.fields.map (·.1) = instanceFields cell.decl.members)
    (key : PropertyKey) :
    key ∈ (cell.instanceTable first).keys ↔ ∃ name, key = .text name ∧ cell.Holds name := by
  have hempty : key ∉ Table.empty.keys := by simp [Table.keys, Table.empty]
  change key ∈ ((Table.empty.insertNamed cell.fields).insertNamed _).keys ↔ _
  rw [Table.mem_keys_insertNamed, Table.mem_keys_insertNamed, map_methodValues, hf]
  simp only [mem_storedMethods, mem_instanceFields, hempty, or_false]
  constructor
  · rintro (⟨name, hname, hkey⟩ | ⟨name, hname, hkey⟩)
    · exact ⟨name, hkey, .inr hname⟩
    · exact ⟨name, hkey, .inl hname⟩
  · rintro ⟨name, hkey, hname | hname⟩
    · exact .inr ⟨name, hname, hkey⟩
    · exact .inl ⟨name, hname, hkey⟩

theorem get?_instanceTable_method {decl : FunctionDecl} (hname : name ≠ constructorName)
    (h : LastMethod name decl cell.decl.members) :
    ∃ i, (cell.instanceTable first).get? (.text name) = some (.function (first + i)) ∧
      (storedMethods cell.decl.members)[i]? = some (name, decl) := by
  obtain ⟨i, hi, hget⟩ := (h.instanceMethods.filter_ne hname).methodValues first
  exact ⟨i, Table.get?_insertNamed_of_last hi _, hget⟩

theorem get?_instanceTable_field (h : name = constructorName ∨ NoMethod name cell.decl.members)
    {v : Value} (hv : LastEntry name v cell.fields) :
    (cell.instanceTable first).get? (.text name) = some v := by
  have hstored : name ∉ (methodValues first (storedMethods cell.decl.members)).map (·.1) := by
    rw [map_methodValues, mem_storedMethods]
    rintro ⟨hname, decl, hm, hdecl⟩
    exact h.resolve_left hname decl hm hdecl
  rw [instanceTable, Table.get?_insertNamed_of_not_mem hstored]
  exact Table.get?_insertNamed_of_last hv _

end ClassCell

namespace Heap

theorem modify_push {α : Type} (xs : Array α) (x : α) (f : α → α) :
    (xs.push x).modify xs.size f = xs.push (f x) := by
  apply Array.ext
  · simp
  · intro i hi hi'
    simp [Array.getElem_modify, Array.getElem_push]
    grind

theorem addReceiver_eq (h : Heap) (parent : Ref) (v : Value) :
    h.addReceiver parent v = { h with scopes := h.scopes.push ⟨some parent, [("this", v)]⟩ } := by
  have hscopes := modify_push h.scopes ⟨some parent, []⟩ (·.bind "this" v)
  exact congrArg (fun scopes => { h with scopes }) hscopes

theorem bindMethods_eq {h : Heap} {objects : Array Table} {table : Table} {scope : Ref}
    (hobjects : h.objects = objects.push table) (methods : List (String × FunctionDecl)) :
    h.bindMethods objects.size scope methods =
      let stored := methods.filter (·.1 ≠ constructorName)
      { h with
        functions := h.functions ++ (stored.map fun method => ⟨method.2, scope⟩).toArray
        objects := objects.push (table.insertNamed (methodValues h.functions.size stored)) } := by
  induction methods generalizing h table with
  | nil => simp [bindMethods, methodValues, Table.insertNamed, ← hobjects]
  | cons method rest ih =>
    obtain ⟨name, decl⟩ := method
    change (h.bindMethod objects.size scope name decl).bindMethods objects.size scope rest = _
    unfold bindMethod
    by_cases hname : name = constructorName
    · simp [hname, ih hobjects]
    · let made : Heap :=
        (h.addFunction ⟨decl, scope⟩).1.insertNamed (.object objects.size) name
          (.function h.functions.size)
      have hmade : made.objects = objects.push (table.insert (.text name) (.function h.functions.size)) := by
        simp [made, insertNamed, addFunction, modifyObject, hobjects, modify_push]
      have hsize : made.functions.size = h.functions.size + 1 := Array.size_push _
      rw [if_neg hname]
      change made.bindMethods objects.size scope rest = _
      rw [ih hmade, hsize]
      simp [hname, methodValues, Table.insertNamed, made, addFunction, insertNamed, modifyObject]

theorem addInstance_eq (h : Heap) (cell : ClassCell) :
    h.addInstance cell =
      { h with
        scopes := h.scopes.push ⟨some cell.scope, [("this", .object h.objects.size)]⟩
        functions := h.functions ++ ((storedMethods cell.decl.members).map fun method =>
          (⟨method.2, h.scopes.size⟩ : Closure)).toArray
        objects := h.objects.push (cell.instanceTable h.functions.size) } := by
  change ((h.addObject (.ofNamed cell.fields)).1.addReceiver cell.scope _).bindMethods h.objects.size
    h.scopes.size _ = _
  rw [addReceiver_eq]
  exact bindMethods_eq rfl _

theorem object_addInstance (h : Heap) (cell : ClassCell) :
    (h.addInstance cell).object h.objects.size = cell.instanceTable h.functions.size := by
  simp [addInstance_eq, object]

/-- `h'` is `h` with one more object and one more scope. The object has a property for each field and each
stored method of the class; the methods run in the scope, which binds only `this`. -/
structure AddsInstance (h h' : Heap) (cell : ClassCell) : Prop where
  natives : h'.natives = h.natives
  classes : h'.classes = h.classes
  arrays : h'.arrays = h.arrays
  scopes : h'.scopes = h.scopes.push ⟨some cell.scope, [("this", .object h.objects.size)]⟩
  objects : h'.objects = h.objects.push (h'.object h.objects.size)
  functions : ∃ closures : List Closure, h'.functions = h.functions ++ closures.toArray ∧
    ∀ closure ∈ closures, closure.scope = h.scopes.size
  keys : ∀ key, key ∈ (h'.object h.objects.size).keys ↔ ∃ name, key = .text name ∧ cell.Holds name
  method : ∀ name decl, name ≠ constructorName → LastMethod name decl cell.decl.members →
    ∃ f, h.functions.size ≤ f ∧ h'.functions[f]? = some ⟨decl, h.scopes.size⟩ ∧
      (h'.object h.objects.size).get? (.text name) = some (.function f)
  field : ∀ name v, name = constructorName ∨ NoMethod name cell.decl.members →
    LastEntry name v cell.fields → (h'.object h.objects.size).get? (.text name) = some v
  noStatics : ∀ member ∈ cell.decl.members, member.isStatic →
    (∀ other ∈ cell.decl.members, other.isStatic = false → other.name ≠ member.name) →
      .text member.name ∉ (h'.object h.objects.size).keys

theorem addsInstance {h : Heap} {cell : ClassCell}
    (hf : cell.fields.map (·.1) = instanceFields cell.decl.members) :
    h.AddsInstance (h.addInstance cell) cell := by
  have heq := h.addInstance_eq cell
  have hobject := h.object_addInstance cell
  have hkeys : ∀ key, key ∈ ((h.addInstance cell).object h.objects.size).keys ↔
      ∃ name, key = .text name ∧ cell.Holds name := by
    rw [hobject]
    exact ClassCell.mem_keys_instanceTable _ hf
  refine ⟨by rw [heq], by rw [heq], by rw [heq], by rw [heq], ?_, ?_, hkeys, ?_, ?_, ?_⟩
  · rw [hobject, heq]
  · refine ⟨_, by rw [heq], fun closure hc => ?_⟩
    obtain ⟨method, -, rfl⟩ := List.mem_map.mp hc
    rfl
  · intro name decl hname hlast
    obtain ⟨i, hget, hi⟩ := ClassCell.get?_instanceTable_method h.functions.size hname hlast
    refine ⟨h.functions.size + i, Nat.le_add_right _ _, ?_, by rw [hobject, hget]⟩
    rw [heq]
    simp [Array.getElem?_append, hi]
  · intro name v hname hv
    rw [hobject]
    exact ClassCell.get?_instanceTable_field _ hname hv
  · intro member hm hstatic hnone hkey
    obtain ⟨name, hname, hdeclared⟩ := (hkeys _).mp hkey
    obtain rfl := PropertyKey.text.inj hname
    obtain ⟨initial, line, hfield⟩ | ⟨-, decl, hmethod, hdecl⟩ := hdeclared
    · exact hnone _ hfield rfl rfl
    · exact hnone _ hmethod rfl hdecl

end Heap

section

variable {limits : Limits} {m : Machine} {cell : ClassCell} {args : List Value}

theorem instantiate_none (hc : findConstructor? cell.decl.members = none) :
    instantiate limits cell args m =
      .ok (.object m.heap.objects.size) { m with heap := m.heap.addInstance cell } := by
  rw [instantiate_run, construct, hc]
  rfl

theorem instantiate_some {decl : FunctionDecl} (hc : findConstructor? cell.decl.members = some decl) :
    let made := { m with heap := m.heap.addInstance cell }
    let run := limits.run ⟨decl, m.heap.scopes.size⟩ args
    (instantiate limits cell args).outcome m =
        (run.outcome made).map (fun _ => .object m.heap.objects.size) ∧
      (instantiate limits cell args).after m = run.after made := by
  intro made run
  have heq : instantiate limits cell args m =
      ((do let _ ← run) >>= fun _ => return .object m.heap.objects.size : Eval Value) made := by
    rw [instantiate_run, construct, hc]
  cases hrun : run made with
  | ok v m' =>
    have h := heq.trans (Eval.bind_ok (Eval.bind_ok hrun))
    rw [Eval.outcome_ok h, Eval.after_ok h, Eval.outcome_ok hrun, Eval.after_ok hrun]
    exact ⟨rfl, rfl⟩
  | error e m' =>
    have h := heq.trans (Eval.bind_error (Eval.bind_error hrun))
    rw [Eval.outcome_error h, Eval.after_error h, Eval.outcome_error hrun, Eval.after_error hrun]
    exact ⟨rfl, rfl⟩

end

/-- A call of a class makes an object of its fields and methods, then runs the constructor declared last
on it, and returns the object. The defaults of the fields stay what their initial values evaluated to when
the class was made. -/
theorem instance_contents :
    (∀ (limits : Limits) (m : Machine) (ref : Ref) (cell : ClassCell) (args : List Value) (line : Nat),
      m.ListsFields → m.heap.classes[ref]? = some cell →
        ∃ made : Machine, made = { m with heap := made.heap } ∧ m.heap.AddsInstance made.heap cell ∧
          let call := callValue limits (.classRef ref) args line
          (NoMethod constructorName cell.decl.members →
            call m = .ok (.object m.heap.objects.size) made) ∧
          ∀ decl, LastMethod constructorName decl cell.decl.members →
            let run := limits.run ⟨decl, m.heap.scopes.size⟩ args
            call.outcome m = (run.outcome made).map (fun _ => .object m.heap.objects.size) ∧
              call.after m = run.after made) ∧
    (∀ clock, (Machine.start clock).withGlobals.ListsFields) ∧
    (∀ m : Machine, m.ListsFields →
      (∀ n e, m.KeepsFields ((eval (.upTo n) e).after m)) ∧
      (∀ n s, m.KeepsFields ((execute (.upTo n) s).after m)) ∧
      (∀ n callee args line, m.KeepsFields ((callValue (.upTo n) callee args line).after m)) ∧
      ∀ n source, m.KeepsFields (m.interpret n source).2) ∧
    ∀ (n : Nat) (decl : ClassDecl) (v : Value) (m m' : Machine),
      makeClass (.upTo n) decl m = .ok v m' →
        ∃ fields m₁ ref cell, classFields (.upTo n) decl.members m = .ok fields m₁ ∧
          v = .classRef ref ∧ m'.heap.classes[ref]? = some cell ∧ cell.decl = decl ∧
          cell.scope = m.scope ∧ cell.fields = fields := by
  refine ⟨?_, .start, fun m hm => ⟨hm.eval, hm.execute, hm.call, hm.interpret⟩,
    fun _ _ _ _ _ h => makeClass_cell h⟩
  intro limits m ref cell args line hm hc
  have hcall : callValue limits (.classRef ref) args line m = instantiate limits cell args m := by
    rw [callValue_class, hc]
  refine ⟨{ m with heap := m.heap.addInstance cell }, rfl, Heap.addsInstance (hm ref cell hc), ?_, ?_⟩
  · intro hnone
    rw [hcall, instantiate_none hnone.findConstructor?]
  · intro decl hlast
    rw [Eval.outcome, Eval.after, hcall]
    exact instantiate_some hlast.findConstructor?

/-- What `class P { x = 1; x = 2; f() { } f(a) { } constructor() { } constructor(v) { this.x = -v; } }`
declares. -/
def repeatedNames : ClassDecl :=
  let body : List Stmt :=
    [.expr (.write (.name "this" 1) (.named "x") (.unary .negate (.name "v" 1) 1) 1) 1]
  ⟨some "P", [.field false "x" (some (.literal (.integer 1) 1)) 1,
    .field false "x" (some (.literal (.integer 2) 1)) 1,
    .method false ⟨some "f", [], [], 1⟩, .method false ⟨some "f", ["a"], [], 1⟩,
    .method false ⟨some "constructor", [], [], 1⟩,
    .method false ⟨some "constructor", ["v"], body, 1⟩], 1⟩

def memberless : ClassDecl := ⟨some "Q", [], 1⟩

theorem instance_contents_repeatedNames :
    let start := (Machine.start 0).withGlobals
    let m := (execute (.upTo 1) (.classDecl memberless)).after
      ((execute (.upTo 1) (.classDecl repeatedNames)).after start)
    let call := callValue (.upTo 1) (.classRef 0) [.integer 7] 1
    (∃ (cell : ClassCell) (made : Machine) (f : Ref), m.heap.classes[0]? = some cell ∧
      m.heap.AddsInstance made.heap cell ∧
      (made.heap.object 1).get? (.text "f") = some (.function f) ∧
      (made.heap.functions[f]?).map (·.decl.params) = some ["a"] ∧
      (made.heap.object 1).get? (.text "x") = some (.integer 2) ∧
      ∃ decl : FunctionDecl, decl.params = ["v"] ∧
        call.after m = (runUpTo 1 ⟨decl, m.heap.scopes.size⟩ [.integer 7]).after made) ∧
    call.outcome m = .ok (.object 1) ∧
    ((call.after m).heap.object 1).get? (.text "x") = some (.integer (-7)) ∧
    (callValue (.upTo 1) (.classRef 0) [.integer Int64.minValue] 1).outcome m =
      .error (.fault ⟨.overflow, 1⟩) ∧
    (∃ m', callValue (.upTo 1) (.classRef 1) [] 1 m = .ok (.object 1) m') ∧
    ∃ ref m' cell, makeClass (.upTo 1) repeatedNames start = .ok (.classRef ref) m' ∧
      m'.heap.classes[ref]? = some cell ∧ cell.decl = repeatedNames ∧
      cell.fields = [("x", .integer 1), ("x", .integer 2)] := by
  intro start m call
  obtain ⟨hcall, hstart, hkeep, hmake⟩ := instance_contents
  have hm : m.ListsFields :=
    ((hkeep _ ((hkeep start (hstart 0)).2.1 1 (.classDecl repeatedNames)).lists).2.1 1 _).lists
  have hsize : m.heap.objects.size = 1 := rfl
  refine ⟨?_, by decide +kernel, by decide +kernel, by decide +kernel, ?_, ?_⟩
  · let cell : ClassCell := ⟨repeatedNames, 0, .empty, [("x", .integer 1), ("x", .integer 2)]⟩
    obtain ⟨made, -, hadds, -, hrun⟩ := hcall (.upTo 1) m 0 cell [.integer 7] 1 hm rfl
    have hlast : LastMethod "f" ⟨some "f", ["a"], [], 1⟩ repeatedNames.members :=
      ⟨repeatedNames.members.take 3, repeatedNames.members.drop 4, rfl, rfl,
        by simp [NoMethod, repeatedNames]⟩
    have hnone : NoMethod "x" repeatedNames.members := by simp [NoMethod, repeatedNames]
    have hconstructor : LastMethod constructorName _ repeatedNames.members :=
      ⟨repeatedNames.members.take 5, [], rfl, rfl, nofun⟩
    obtain ⟨f, -, hf, hget⟩ := hadds.method "f" _ (by decide) hlast
    have hx := hadds.field "x" (.integer 2) (.inr hnone) ⟨[("x", .integer 1)], [], rfl, nofun⟩
    rw [hsize] at hget hx
    refine ⟨cell, made, f, rfl, hadds, hget, by rw [hf]; rfl, hx, _, rfl, (hrun _ hconstructor).2⟩
  · obtain ⟨made, -, -, hnone, -⟩ := hcall (.upTo 1) m 1 ⟨memberless, 0, .empty, []⟩ [] 1 hm rfl
    exact ⟨made, hnone nofun⟩
  · obtain ⟨v, m', h⟩ : ∃ v m', makeClass (.upTo 1) repeatedNames start = .ok v m' := ⟨_, _, rfl⟩
    obtain ⟨fields, m₁, ref, cell, hfields, rfl, hcell, hdecl, -, rfl⟩ := hmake 1 _ v start m' h
    refine ⟨ref, m', cell, h, hcell, hdecl, ?_⟩
    have heq : classFields (.upTo 1) repeatedNames.members start =
        .ok [("x", .integer 1), ("x", .integer 2)] start := rfl
    exact (EStateM.Result.ok.inj (hfields.symm.trans heq)).1

end Scriptlet
