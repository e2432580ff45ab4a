import Scriptlet.Proofs.EvaluationRuns
import Scriptlet.Proofs.RecastHeaps
import Scriptlet.Proofs.Sketches

namespace Scriptlet

def Closure.sketch (c : Closure) : Closure := { c with decl := c.decl.relined Expr.mark }

def ClassCell.sketch (c : ClassCell) : ClassCell := { c with decl := c.decl.relined Expr.mark }

def Heap.sketch (h : Heap) : Heap :=
  { h with functions := h.functions.map Closure.sketch, classes := h.classes.map ClassCell.sketch }

def Machine.sketch (m : Machine) : Machine := { m with heap := m.heap.sketch }

section

variable (mark : Expr → Member → Expr → Nat)

@[simp]
theorem FunctionDecl.name_relined (d : FunctionDecl) : (d.relined mark).name = d.name := by
  cases d
  rfl

@[simp]
theorem FunctionDecl.params_relined (d : FunctionDecl) : (d.relined mark).params = d.params := by
  cases d
  rfl

@[simp]
theorem FunctionDecl.body_relined (d : FunctionDecl) :
    (d.relined mark).body = relinedBody mark d.body := by
  cases d
  rfl

@[simp]
theorem FunctionDecl.label_relined (d : FunctionDecl) : (d.relined mark).label = d.label := by
  simp only [label, name_relined]

@[simp]
theorem ClassDecl.label_relined (d : ClassDecl) : (d.relined mark).label = d.label := by
  cases d
  rfl

@[simp]
theorem ClassDecl.name_relined (d : ClassDecl) : (d.relined mark).name = d.name := by
  cases d
  rfl

@[simp]
theorem ClassDecl.members_relined (d : ClassDecl) :
    (d.relined mark).members = relinedMembers mark d.members := by
  cases d
  rfl

@[simp]
theorem ClassMember.name_relined (m : ClassMember) : (m.relined mark).name = m.name := by
  cases m <;> simp [relined, name]

theorem instanceMethods_relined (ms : List ClassMember) :
    instanceMethods (relinedMembers mark ms) =
      (instanceMethods ms).map fun method => (method.1, method.2.relined mark) := by
  induction ms with
  | nil => rfl
  | cons m ms ih =>
    unfold instanceMethods at ih ⊢
    rw [relinedMembers, List.filterMap_cons, List.filterMap_cons, ih]
    cases m with
    | field => rfl
    | method isStatic d => cases isStatic <;> simp [ClassMember.relined, ClassMember.name]

theorem findConstructor?_relined (ms : List ClassMember) :
    findConstructor? (relinedMembers mark ms) =
      (findConstructor? ms).map (·.relined mark) := by
  unfold findConstructor?
  rw [instanceMethods_relined, ← List.map_reverse, List.find?_map, Option.map_map, Option.map_map]
  rfl

end

def Recast.sketching : Recast where
  closure := Closure.sketch
  cell := ClassCell.sketch
  closure_label c := c.decl.label_relined Expr.mark
  cell_label c := c.decl.label_relined Expr.mark
  cell_store _ _ := rfl

namespace Heap

variable (h : Heap)

theorem functions_sketch (ref : Ref) :
    h.sketch.functions[ref]? = h.functions[ref]?.map Closure.sketch :=
  h.functions_recast .sketching h.scopes ref

theorem classes_sketch (ref : Ref) :
    h.sketch.classes[ref]? = h.classes[ref]?.map ClassCell.sketch :=
  h.classes_recast .sketching h.scopes ref

@[simp]
theorem render_sketch (v : Value) : h.sketch.render v = h.render v :=
  h.render_recast .sketching h.scopes v

theorem getProperty_sketch (holder key : Value) :
    h.sketch.getProperty holder key = h.getProperty holder key :=
  h.getProperty_recast .sketching h.scopes holder key

theorem binary_sketch (op : BinaryOp) (a b : Value) (line : Nat) :
    h.sketch.binary op a b line = h.binary op a b line :=
  h.binary_recast .sketching h.scopes op a b line

theorem chainUpTo_sketch (n : Nat) (ref : Ref) : h.sketch.chainUpTo n ref = h.chainUpTo n ref := by
  induction n generalizing ref with
  | zero => rfl
  | succ n ih =>
    have hparent : h.sketch.chainUpTo n = h.chainUpTo n := funext ih
    simp only [chainUpTo, hparent]
    rfl

theorem binder?_sketch (ref : Ref) (name : String) :
    h.sketch.binder? ref name = h.binder? ref name := by
  unfold binder? chain
  rw [chainUpTo_sketch]
  rfl

theorem lookup_sketch (ref : Ref) (name : String) :
    h.sketch.lookup ref name = h.lookup ref name := by
  rw [lookup_eq_binder, lookup_eq_binder, binder?_sketch]
  rfl

theorem sketch_modifyStatics (ref : Ref) (f : Table → Table) :
    (h.modifyStatics ref f).sketch = h.sketch.modifyStatics ref f :=
  h.recast_modifyStatics .sketching h.scopes ref f

theorem sketch_setProperty (holder key v : Value) :
    (h.setProperty holder key v).sketch = h.sketch.setProperty holder key v := by
  change (h.setProperty holder key v).recast .sketching (h.setProperty holder key v).scopes = _
  rw [scopes_setProperty, recast_setProperty]
  rfl

theorem sketch_insertNamed (holder : Value) (name : String) (v : Value) :
    (h.insertNamed holder name v).sketch = h.sketch.insertNamed holder name v := by
  cases holder <;> rfl

theorem sketch_bindParams (scope : Ref) (params : List String) (args : List Value) :
    (h.bindParams scope params args).sketch = h.sketch.bindParams scope params args := by
  induction params generalizing h args with
  | nil => rfl
  | cons p ps ih => exact ih (h.define scope p (args.head?.getD .null)) args.tail

theorem sketch_addFunction (c : Closure) :
    (h.addFunction c).map Heap.sketch id = h.sketch.addFunction c.sketch := by
  simp only [addFunction, sketch, Prod.map, Array.map_push, Array.size_map, id]

theorem sketch_addClass (c : ClassCell) :
    (h.addClass c).map Heap.sketch id = h.sketch.addClass c.sketch := by
  simp only [addClass, sketch, Prod.map, Array.map_push, Array.size_map, id]

end Heap
end Scriptlet
