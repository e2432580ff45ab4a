import Scriptlet.Evaluation.Program

namespace Scriptlet

structure Recast where
  closure : Closure → Closure
  cell : ClassCell → ClassCell
  closure_label : ∀ c, (closure c).decl.label = c.decl.label
  cell_label : ∀ c, (cell c).decl.label = c.decl.label
  cell_store : ∀ c statics, cell { c with statics } = { cell c with statics }

def Heap.recast (h : Heap) (r : Recast) (scopes : Array Scope) : Heap :=
  { h with scopes, functions := h.functions.map r.closure, classes := h.classes.map r.cell }

theorem Recast.cell_statics (r : Recast) (c : ClassCell) : (r.cell c).statics = c.statics := by
  have h : (r.cell { c with statics := c.statics }).statics = c.statics := by rw [r.cell_store]
  exact h

theorem map_modify {α β : Type} {g : α → β} {f : α → α} {f' : β → β} (hf : ∀ x, g (f x) = f' (g x))
    (xs : Array α) (i : Nat) : (xs.modify i f).map g = (xs.map g).modify i f' := by
  apply Array.ext_getElem?
  intro j
  simp only [Array.getElem?_map, Array.getElem?_modify]
  split
  · rw [Option.map_map, Option.map_map]
    congr 1
    funext x
    exact hf x
  · rfl

namespace Heap

variable (h : Heap) (r : Recast) (scopes : Array Scope)

theorem functions_recast (ref : Ref) :
    (h.recast r scopes).functions[ref]? = h.functions[ref]?.map r.closure :=
  Array.getElem?_map

theorem classes_recast (ref : Ref) :
    (h.recast r scopes).classes[ref]? = h.classes[ref]?.map r.cell :=
  Array.getElem?_map

theorem functionName_recast (ref : Ref) : (h.recast r scopes).functionName ref = h.functionName ref := by
  unfold functionName
  rw [functions_recast, Option.map_map]
  congr 2
  funext c
  exact r.closure_label c

theorem className_recast (ref : Ref) : (h.recast r scopes).className ref = h.className ref := by
  unfold className
  rw [classes_recast, Option.map_map]
  congr 2
  funext c
  exact r.cell_label c

theorem statics_recast (ref : Ref) : (h.recast r scopes).statics ref = h.statics ref := by
  unfold statics
  rw [classes_recast, Option.map_map]
  congr 2
  funext c
  exact r.cell_statics c

theorem renderUpTo_recast (n : Nat) (opened : List Container) (v : Value) :
    (h.recast r scopes).renderUpTo n opened v = h.renderUpTo n opened v := by
  induction n generalizing opened v with
  | zero =>
    cases v with
    | function | classRef => simp only [renderUpTo, functionName_recast, className_recast]
    | _ => rfl
  | succ n ih =>
    cases v with
    | object ref =>
      simp only [renderUpTo, ih]
      rfl
    | array ref =>
      have hrender : (h.recast r scopes).renderUpTo n (.array ref :: opened) =
          h.renderUpTo n (.array ref :: opened) := funext (ih _)
      simp only [renderUpTo, hrender]
      rfl
    | function | classRef => simp only [renderUpTo, functionName_recast, className_recast]
    | _ => rfl

theorem renderWithin_recast (opened : List Container) (v : Value) :
    (h.recast r scopes).renderWithin opened v = h.renderWithin opened v :=
  h.renderUpTo_recast r scopes h.levels opened v

theorem render_recast (v : Value) : (h.recast r scopes).render v = h.render v :=
  h.renderWithin_recast r scopes [] v

theorem key_recast (opened : List Container) (v : Value) :
    (h.recast r scopes).key opened v = h.key opened v := by
  cases v <;> simp only [key, renderWithin_recast]

theorem getProperty_recast (holder key : Value) :
    (h.recast r scopes).getProperty holder key = h.getProperty holder key := by
  unfold getProperty findProperty
  cases holder <;> simp only [key_recast, statics_recast] <;> rfl

theorem binary_recast (op : BinaryOp) (a b : Value) (line : Nat) :
    (h.recast r scopes).binary op a b line = h.binary op a b line := by
  cases op with
  | arithmetic op =>
    simp only [Heap.binary, Heap.arithmetic, Heap.mixedArithmetic, render_recast]
  | equality op => simp only [Heap.binary, Heap.equality, Heap.looseEquals, render_recast]
  | bitwise | order => rfl

theorem recast_modifyStatics (ref : Ref) (f : Table → Table) :
    (h.modifyStatics ref f).recast r scopes = (h.recast r scopes).modifyStatics ref f := by
  have hcell (c : ClassCell) : r.cell { c with statics := f c.statics } =
      { r.cell c with statics := f (r.cell c).statics } := by
    rw [r.cell_store, r.cell_statics]
  have hclasses : (h.classes.modify ref fun c => { c with statics := f c.statics }).map r.cell =
      (h.classes.map r.cell).modify ref fun c => { c with statics := f c.statics } :=
    map_modify hcell h.classes ref
  unfold modifyStatics recast
  rw [hclasses]

theorem recast_setProperty (holder key v : Value) :
    (h.setProperty holder key v).recast r scopes = (h.recast r scopes).setProperty holder key v := by
  unfold setProperty
  cases holder with
  | object ref =>
    simp only [key_recast]
    rfl
  | array ref => cases key.index? <;> rfl
  | classRef ref =>
    simp only [key_recast]
    exact h.recast_modifyStatics r scopes _ _
  | _ => rfl

theorem recast_addFunction (c : Closure) :
    ((h.addFunction c).1.recast r scopes) = ((h.recast r scopes).addFunction (r.closure c)).1 := by
  simp only [addFunction, recast, Array.map_push]

theorem recast_addClass (c : ClassCell) :
    ((h.addClass c).1.recast r scopes) = ((h.recast r scopes).addClass (r.cell c)).1 := by
  simp only [addClass, recast, Array.map_push]

end Heap
end Scriptlet
