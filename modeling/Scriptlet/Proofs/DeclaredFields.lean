import Scriptlet.Proofs.StateGrowth

namespace Scriptlet

/-- Every class has a default for each declared field of its instances, in the order of declaration. -/
def Heap.ListsFields (h : Heap) : Prop :=
  ∀ (ref : Ref) (cell : ClassCell), h.classes[ref]? = some cell →
    cell.fields.map (·.1) = instanceFields cell.decl.members

namespace Heap.ListsFields

variable {h : Heap}

theorem addClass {cell : ClassCell} (hf : cell.fields.map (·.1) = instanceFields cell.decl.members)
    (hh : h.ListsFields) : (h.addClass cell).1.ListsFields := by
  intro ref c hc
  change (h.classes.push cell)[ref]? = some c at hc
  rw [Array.getElem?_push] at hc
  split at hc
  · cases hc
    exact hf
  · exact hh ref c hc

theorem modifyStatics {ref : Ref} {f : Table → Table} (hh : h.ListsFields) :
    (h.modifyStatics ref f).ListsFields := by
  intro k c hk
  change (h.classes.modify ref fun c => { c with statics := f c.statics })[k]? = some c at hk
  rw [Array.getElem?_modify] at hk
  split at hk
  · obtain ⟨cell, hcell, rfl⟩ := Option.map_eq_some_iff.mp hk
    exact hh k cell hcell
  · exact hh k c hk

theorem setProperty {holder key v : Value} (hh : h.ListsFields) :
    (h.setProperty holder key v).ListsFields := by
  unfold Heap.setProperty
  cases holder with
  | array =>
    dsimp only
    split <;> exact hh
  | classRef => exact hh.modifyStatics
  | _ => exact hh

end Heap.ListsFields

def listing : Law where
  expression _ h h' := h.scopes.size ≤ h'.scopes.size ∧ (h.ListsFields → h'.ListsFields)
  statement _ h h' := h.scopes.size ≤ h'.scopes.size ∧ (h.ListsFields → h'.ListsFields)
  refl := ⟨Nat.le_refl _, id⟩
  trans h₁ h₂ := ⟨Nat.le_trans h₁.1 h₂.1, h₂.2 ∘ h₁.2⟩
  lift := id
  then_trans h₁ h₂ := ⟨Nat.le_trans h₁.1 h₂.1, h₂.2 ∘ h₁.2⟩
  grows h := h.1
  define := ⟨Nat.le_of_eq Heap.size_define.symm, id⟩
  assign _ := ⟨Nat.le_of_eq Heap.size_define.symm, id⟩
  opened _ hs := ⟨Nat.le_trans (Nat.le_of_lt (Heap.lt_size_addScope _ _)) hs.1, hs.2⟩
  addFunction _ := ⟨Nat.le_refl _, id⟩
  addClass hf := ⟨Nat.le_refl _, .addClass hf⟩
  addObject := ⟨Nat.le_refl _, id⟩
  addArray := ⟨Nat.le_refl _, id⟩
  setProperty := ⟨Nat.le_of_eq (by rw [Heap.scopes_setProperty]), .setProperty⟩

def Machine.ListsFields (m : Machine) : Prop := m.heap.ListsFields

structure Machine.KeepsFields (m m' : Machine) : Prop where
  lists : m'.ListsFields
  kept : ∀ (ref : Ref) (cell : ClassCell), m.heap.classes[ref]? = some cell →
    ∃ cell', m'.heap.classes[ref]? = some cell' ∧ cell'.decl = cell.decl ∧ cell'.scope = cell.scope ∧
      cell'.fields = cell.fields

namespace Machine.ListsFields

variable {m : Machine}

theorem start (clock : Float) : (Machine.start clock).withGlobals.ListsFields := by
  intro ref cell hc
  change (#[] : Array ClassCell)[ref]? = some cell at hc
  simp at hc

theorem keeps {m' : Machine} (hm : m.ListsFields)
    (hlists : listing.statement m.scope m.heap m'.heap) (hgrows : m.heap.Grows m'.heap) :
    m.KeepsFields m' := by
  refine ⟨hlists.2 hm, fun ref cell hc => ?_⟩
  obtain ⟨cell', hc', hdecl, hscope, hfields, -⟩ := hgrows.classes ref cell hc
  exact ⟨cell', hc', hdecl, hscope, hfields⟩

theorem eval (hm : m.ListsFields) (n : Nat) (e : Expr) : m.KeepsFields ((eval (.upTo n) e).after m) :=
  hm.keeps (eval_obeys (upTo_obey listing n) e m).2 (eval_obeys (upTo_obey growth n) e m).2

theorem execute (hm : m.ListsFields) (n : Nat) (s : Stmt) :
    m.KeepsFields ((execute (.upTo n) s).after m) :=
  hm.keeps (execute_obeys (upTo_obey listing n) s listing.covers_statement (.inr rfl) m).2
    (execute_obeys (upTo_obey growth n) s growth.covers_statement (.inr rfl) m).2

theorem call (hm : m.ListsFields) (n : Nat) (callee : Value) (args : List Value) (line : Nat) :
    m.KeepsFields ((callValue (.upTo n) callee args line).after m) :=
  hm.keeps (callValue_obeys (upTo_obey listing n) callee args line).2
    (callValue_obeys (upTo_obey growth n) callee args line).2

theorem interpret (hm : m.ListsFields) (n : Nat) (source : String) :
    m.KeepsFields (m.interpret n source).2 := by
  obtain h | ⟨program, h⟩ := m.interpret_machine n source
  · rw [h]
    exact hm.keeps ⟨Nat.le_refl _, id⟩ (.refl m.heap)
  · rw [h]
    exact hm.keeps (runProgram_obeys listing n program m).2 (runProgram_obeys growth n program m).2

end Machine.ListsFields

theorem makeClass_cell {n : Nat} {decl : ClassDecl} {v : Value} {m m' : Machine}
    (h : makeClass (.upTo n) decl m = .ok v m') :
    ∃ fields m₁ ref cell, classFields (.upTo n) decl.members m = .ok fields m₁ ∧ v = .classRef ref ∧
      m'.heap.classes[ref]? = some cell ∧ cell.decl = decl ∧ cell.scope = m.scope ∧
      cell.fields = fields := by
  obtain ⟨name, members, line⟩ := decl
  cases hfields : classFields (.upTo n) members m with
  | error e m₁ =>
    rw [makeClass, Eval.bind_error hfields] at h
    cases h
  | ok fields m₁ =>
    let cell : ClassCell := ⟨⟨name, members, line⟩, m₁.scope, .empty, fields⟩
    let made : Machine := { m₁ with heap := m₁.heap.addClassScope cell }
    have hl := upTo_obey growth n
    have hscope : m₁.scope = m.scope := by
      rw [← Eval.after_ok hfields]
      exact (classFields_obeys hl members m).1
    have hs : m₁.heap.scopes.size < made.heap.scopes.size := by
      rw [Heap.size_addClassScope]
      exact Nat.lt_succ_self _
    have hcell : made.heap.classes[m₁.heap.classes.size]? = some cell := Array.getElem?_push_size
    rw [makeClass_run hfields] at h
    obtain ⟨⟨⟩, m₂, hstatics, hresult⟩ := Eval.bind_eq_ok.mp h
    cases hresult
    -- The static members come after the cell, and only its table of statics changes with them.
    have hgrows : growth.expression made.scope made.heap m'.heap := by
      rw [← Eval.after_ok hstatics]
      exact (classStatics_obeys hl _ _ members made hs).2
    obtain ⟨cell', hcell', hdecl, hscope', hfields', -⟩ := hgrows.classes _ cell hcell
    exact ⟨fields, m₁, _, cell', rfl, rfl, hcell', hdecl, hscope'.trans hscope, hfields'⟩

end Scriptlet
