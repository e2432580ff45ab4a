import Mathlib
import Scriptlet.Proofs.ScopeHygiene

/-!
What evaluation never takes away: cells, the names and keys in them, and the order of scopes in which
a parent comes before its children.
-/

namespace Scriptlet

def Extends {α : Type} (R : α → α → Prop) (xs ys : Array α) : Prop :=
  ∀ (i : Nat) (x : α), xs[i]? = some x → ∃ y, ys[i]? = some y ∧ R x y

namespace Extends

variable {α : Type} {R : α → α → Prop} {xs ys zs : Array α}

theorem refl (hR : ∀ x, R x x) : Extends R xs xs := fun _ x hx => ⟨x, hx, hR x⟩

theorem trans (hR : ∀ {x y z}, R x y → R y z → R x z) (h₁ : Extends R xs ys)
    (h₂ : Extends R ys zs) : Extends R xs zs := by
  intro i x hx
  obtain ⟨y, hy, hxy⟩ := h₁ i x hx
  obtain ⟨z, hz, hyz⟩ := h₂ i y hy
  exact ⟨z, hz, hR hxy hyz⟩

theorem size_le (h : Extends R xs ys) : xs.size ≤ ys.size := by
  by_contra hlt
  have hi : ys.size < xs.size := by omega
  obtain ⟨y, hy, -⟩ := h ys.size xs[ys.size] (Array.getElem?_eq_getElem hi)
  simp at hy

theorem push (hR : ∀ x, R x x) (x : α) : Extends R xs (xs.push x) := by
  intro i y hy
  obtain ⟨hi, -⟩ := Array.getElem?_eq_some_iff.mp hy
  refine ⟨y, ?_, hR y⟩
  rw [Array.getElem?_push, if_neg (Nat.ne_of_lt hi), hy]

theorem modify {f : α → α} (hR : ∀ x, R x x) (hf : ∀ x, R x (f x)) (j : Nat) :
    Extends R xs (xs.modify j f) := by
  intro i x hx
  rw [Array.getElem?_modify, hx]
  by_cases hj : j = i
  · exact ⟨f x, by simp [hj], hf x⟩
  · exact ⟨x, by simp [hj], hR x⟩

end Extends

def Scope.Grows (s t : Scope) : Prop :=
  t.parent = s.parent ∧ s.bindings.map (·.1) ⊆ t.bindings.map (·.1)

def Table.Grows (s t : Table) : Prop := s.keys ⊆ t.keys

def ClassCell.Grows (c d : ClassCell) : Prop :=
  d.decl = c.decl ∧ d.scope = c.scope ∧ d.fields = c.fields ∧ c.statics.Grows d.statics

def NotShorter (xs ys : Array Value) : Prop := xs.size ≤ ys.size

structure Heap.Grows (h h' : Heap) : Prop where
  scopes : Extends Scope.Grows h.scopes h'.scopes
  functions : Extends Eq h.functions h'.functions
  natives : Extends Eq h.natives h'.natives
  classes : Extends ClassCell.Grows h.classes h'.classes
  objects : Extends Table.Grows h.objects h'.objects
  arrays : Extends NotShorter h.arrays h'.arrays

theorem Scope.Grows.refl (s : Scope) : s.Grows s := ⟨rfl, List.Subset.refl _⟩

theorem Scope.Grows.trans {s t u : Scope} (h₁ : s.Grows t) (h₂ : t.Grows u) : s.Grows u :=
  ⟨h₂.1.trans h₁.1, List.Subset.trans h₁.2 h₂.2⟩

theorem Scope.grows_bind (s : Scope) (name : String) (v : Value) : s.Grows (s.bind name v) := by
  refine ⟨rfl, ?_⟩
  change _ ⊆ (bindIn name v s.bindings).map (·.1)
  rw [Heap.map_bindIn]
  split
  · exact List.Subset.refl _
  · exact List.subset_append_left _ _

theorem Table.Grows.refl (t : Table) : t.Grows t := List.Subset.refl _

theorem Table.grows_insert (t : Table) (key : PropertyKey) (v : Value) : t.Grows (t.insert key v) := by
  unfold Grows keys insert
  induction t.entries with
  | nil => exact List.nil_subset _
  | cons entry rest ih =>
    obtain ⟨k, w⟩ := entry
    unfold insertIn
    split
    · exact List.subset_cons_self _ _
    · exact List.Subset.refl _
    · exact List.cons_subset_cons _ ih

theorem ClassCell.Grows.refl (c : ClassCell) : c.Grows c := ⟨rfl, rfl, rfl, .refl _⟩

theorem ClassCell.Grows.trans {c d e : ClassCell} (h₁ : c.Grows d) (h₂ : d.Grows e) : c.Grows e := by
  obtain ⟨hd, hs, hf, ht⟩ := h₁
  obtain ⟨hd', hs', hf', ht'⟩ := h₂
  exact ⟨hd'.trans hd, hs'.trans hs, hf'.trans hf, List.Subset.trans ht ht'⟩

theorem ClassCell.grows_insert (c : ClassCell) (key : PropertyKey) (v : Value) :
    c.Grows { c with statics := c.statics.insert key v } :=
  ⟨rfl, rfl, rfl, c.statics.grows_insert key v⟩

theorem NotShorter.refl (xs : Array Value) : NotShorter xs xs := Nat.le_refl _

theorem notShorter_writeElement (xs : Array Value) (i : Nat) (v : Value) :
    NotShorter xs (writeElement xs i v) := by
  unfold NotShorter writeElement
  split
  · simp
  · simp only [Array.size_push, Array.size_append, Array.size_replicate]
    omega

namespace Heap

variable {h h' : Heap}

theorem Grows.refl (h : Heap) : h.Grows h :=
  ⟨.refl Scope.Grows.refl, .refl fun _ => rfl, .refl fun _ => rfl, .refl ClassCell.Grows.refl,
    .refl Table.Grows.refl, .refl NotShorter.refl⟩

theorem Grows.trans {h₁ h₂ h₃ : Heap} (a : h₁.Grows h₂) (b : h₂.Grows h₃) : h₁.Grows h₃ where
  scopes := a.scopes.trans Scope.Grows.trans b.scopes
  functions := a.functions.trans Eq.trans b.functions
  natives := a.natives.trans Eq.trans b.natives
  classes := a.classes.trans ClassCell.Grows.trans b.classes
  objects := a.objects.trans List.Subset.trans b.objects
  arrays := a.arrays.trans Nat.le_trans b.arrays

theorem grows_define {s : Ref} {name : String} {v : Value} : h.Grows (h.define s name v) :=
  { Grows.refl h with scopes := .modify Scope.Grows.refl (fun s => s.grows_bind name v) s }

theorem grows_addScope {parent : Option Ref} : h.Grows (h.addScope parent).1 :=
  { Grows.refl h with scopes := .push Scope.Grows.refl _ }

theorem grows_addClass {cell : ClassCell} : h.Grows (h.addClass cell).1 :=
  { Grows.refl h with classes := .push ClassCell.Grows.refl _ }

theorem grows_setProperty {holder key v : Value} : h.Grows (h.setProperty holder key v) := by
  unfold setProperty
  split
  · exact { Grows.refl h with objects := .modify Table.Grows.refl (fun t => t.grows_insert _ v) _ }
  · split
    · next i _ =>
      exact { Grows.refl h with
        arrays := .modify NotShorter.refl (fun xs => notShorter_writeElement xs i v) _ }
    · exact .refl h
  · exact { Grows.refl h with
      classes := .modify ClassCell.Grows.refl (fun c => c.grows_insert _ v) _ }
  · exact .refl h

end Heap

def growth : Law where
  expression _ h h' := h.Grows h'
  statement _ h h' := h.Grows h'
  refl := .refl _
  trans := Heap.Grows.trans
  lift := id
  then_trans := Heap.Grows.trans
  grows h := h.scopes.size_le
  define := Heap.grows_define
  assign _ := Heap.grows_define
  opened _ hs := Heap.grows_addScope.trans hs
  addFunction _ := { Heap.Grows.refl _ with functions := .push (fun _ => rfl) _ }
  addClass _ := Heap.grows_addClass
  addObject := { Heap.Grows.refl _ with objects := .push Table.Grows.refl _ }
  addArray := { Heap.Grows.refl _ with arrays := .push NotShorter.refl _ }
  setProperty := Heap.grows_setProperty

namespace Heap

/-- The heaps that elementary steps of evaluation lead to from that of a new session, each with a
scope that may be current. -/
inductive Reachable : Heap → Ref → Prop
  | start : Reachable Heap.empty.addGlobals.1 Heap.empty.addGlobals.2
  | root {h s} : Reachable h s → Reachable (h.addScope none).1 h.scopes.size
  | enter {h s ref} : Reachable h s → ref < h.scopes.size → Reachable h ref
  | addScope {h s} : Reachable h s → Reachable (h.addScope (some s)).1 s
  | define {h s} (name : String) (v : Value) : Reachable h s → Reachable (h.define s name v) s
  | addFunction {h s} (decl : FunctionDecl) : Reachable h s → Reachable (h.addFunction ⟨decl, s⟩).1 s
  | addClass {h s} (decl : ClassDecl) (fields : List (String × Value)) :
      Reachable h s → Reachable (h.addClass ⟨decl, s, .empty, fields⟩).1 s
  | addObject {h s} (table : Table) : Reachable h s → Reachable (h.addObject table).1 s
  | addArray {h s} (elements : Array Value) : Reachable h s → Reachable (h.addArray elements).1 s
  | setProperty {h s} (holder key v : Value) : Reachable h s → Reachable (h.setProperty holder key v) s

structure Ordered (h : Heap) : Prop where
  parent : ∀ (ref : Ref) (s : Scope) (p : Ref), h.scopes[ref]? = some s → s.parent = some p → p < ref
  function : ∀ (ref : Ref) (c : Closure), h.functions[ref]? = some c → c.scope < h.scopes.size
  ofClass : ∀ (ref : Ref) (c : ClassCell), h.classes[ref]? = some c → c.scope < h.scopes.size

theorem Ordered.offers_lt {h : Heap} {s ref : Ref} (ho : h.Ordered) (hs : s < h.scopes.size)
    (hp : h.Offers s ref) : ref < h.scopes.size := by
  cases hp with
  | current => exact hs
  | existing hlt => exact hlt
  | function hf => exact ho.function _ _ hf
  | ofClass hc => exact ho.ofClass _ _ hc

theorem Ordered.addScope {h : Heap} {parent : Option Ref} (ho : h.Ordered)
    (hp : ∀ p ∈ parent, p < h.scopes.size) : (h.addScope parent).1.Ordered := by
  have hsize := h.size_addScope parent
  refine ⟨fun ref s p hr hs => ?_, fun ref c hr => ?_, fun ref c hr => ?_⟩
  · change (h.scopes.push ⟨parent, []⟩)[ref]? = some s at hr
    rw [Array.getElem?_push] at hr
    split at hr
    · next hnew =>
      cases hr
      rw [hnew]
      exact hp p hs
    · exact ho.parent ref s p hr hs
  · rw [hsize]
    exact Nat.lt_succ_of_lt (ho.function ref c hr)
  · rw [hsize]
    exact Nat.lt_succ_of_lt (ho.ofClass ref c hr)

theorem Ordered.of_grows {h h' : Heap} (ho : h.Ordered) (hg : h.Grows h')
    (hscopes : h'.scopes.size = h.scopes.size) (hfunctions : h'.functions = h.functions)
    (hclasses : h'.classes.size = h.classes.size) : h'.Ordered := by
  refine ⟨fun ref s p hr hp => ?_, fun ref c hr => ?_, fun ref c hr => ?_⟩
  · obtain ⟨hlt, -⟩ := Array.getElem?_eq_some_iff.mp hr
    have hold := Array.getElem?_eq_getElem (hscopes ▸ hlt)
    obtain ⟨t, ht, hparent, -⟩ := hg.scopes ref _ hold
    rw [hr] at ht
    cases ht
    exact ho.parent ref _ p hold (hparent ▸ hp)
  · rw [hscopes]
    exact ho.function ref c (hfunctions ▸ hr)
  · obtain ⟨hlt, -⟩ := Array.getElem?_eq_some_iff.mp hr
    have hold := Array.getElem?_eq_getElem (hclasses ▸ hlt)
    obtain ⟨d, hd, -, hscope, -⟩ := hg.classes ref _ hold
    rw [hr] at hd
    cases hd
    rw [hscopes, hscope]
    exact ho.ofClass ref _ hold

theorem Ordered.addFunction {h : Heap} {closure : Closure} (ho : h.Ordered)
    (hc : closure.scope < h.scopes.size) : (h.addFunction closure).1.Ordered := by
  refine ⟨ho.parent, fun ref c hr => ?_, ho.ofClass⟩
  change (h.functions.push closure)[ref]? = some c at hr
  rw [Array.getElem?_push] at hr
  split at hr
  · cases hr
    exact hc
  · exact ho.function ref c hr

theorem Ordered.addClass {h : Heap} {cell : ClassCell} (ho : h.Ordered)
    (hc : cell.scope < h.scopes.size) : (h.addClass cell).1.Ordered := by
  refine ⟨ho.parent, ho.function, fun ref c hr => ?_⟩
  change (h.classes.push cell)[ref]? = some c at hr
  rw [Array.getElem?_push] at hr
  split at hr
  · cases hr
    exact hc
  · exact ho.ofClass ref c hr

theorem Ordered.define {h : Heap} {s : Ref} {name : String} {v : Value} (ho : h.Ordered) :
    (h.define s name v).Ordered :=
  ho.of_grows grows_define size_define rfl rfl

theorem Ordered.addGlobals {h : Heap} (ho : h.Ordered) : h.addGlobals.1.Ordered := by
  let log := h.addNative .log
  let warn := log.1.addNative .warn
  let console := warn.1.addObject (.ofNamed [("log", .native log.2), ("warn", .native warn.2)])
  have hhost : (console.1.addNative .clock).1.Ordered := ⟨ho.parent, ho.function, ho.ofClass⟩
  have hroot : ((console.1.addNative .clock).1.addScope none).1.Ordered := hhost.addScope nofun
  exact hroot.define.define

theorem Ordered.empty : Heap.empty.Ordered :=
  ⟨fun _ _ _ hr => by simp [Heap.empty] at hr, fun _ _ hr => by simp [Heap.empty] at hr,
    fun _ _ hr => by simp [Heap.empty] at hr⟩

theorem functions_setProperty (h : Heap) (holder key v : Value) :
    (h.setProperty holder key v).functions = h.functions := by
  unfold setProperty
  cases holder <;> try rfl
  dsimp only
  split <;> rfl

theorem size_classes_setProperty (h : Heap) (holder key v : Value) :
    (h.setProperty holder key v).classes.size = h.classes.size := by
  unfold setProperty
  cases holder <;> try rfl
  · exact Array.size_modify
  · dsimp only
    split <;> rfl

theorem Ordered.setProperty {h : Heap} {holder key v : Value} (ho : h.Ordered) :
    (h.setProperty holder key v).Ordered := by
  have hscopes := h.scopes_setProperty holder key v
  refine ho.of_grows grows_setProperty (by rw [hscopes]) ?_ ?_
  · exact h.functions_setProperty holder key v
  · exact h.size_classes_setProperty holder key v

theorem Ordered.addObject {h : Heap} {table : Table} (ho : h.Ordered) : (h.addObject table).1.Ordered :=
  ⟨ho.parent, ho.function, ho.ofClass⟩

theorem Ordered.addArray {h : Heap} {elements : Array Value} (ho : h.Ordered) :
    (h.addArray elements).1.Ordered :=
  ⟨ho.parent, ho.function, ho.ofClass⟩

theorem Reachable.ordered {h : Heap} {s : Ref} (hr : h.Reachable s) :
    h.Ordered ∧ s < h.scopes.size := by
  induction hr with
  | start => exact ⟨Ordered.empty.addGlobals, by decide⟩
  | @root h s _ ih =>
    have hsize := h.size_addScope none
    refine ⟨ih.1.addScope nofun, ?_⟩
    rw [hsize]
    exact Nat.lt_succ_self _
  | enter _ hlt ih => exact ⟨ih.1, hlt⟩
  | @addScope h s _ ih =>
    have hsize := h.size_addScope (some s)
    refine ⟨ih.1.addScope ?_, ?_⟩
    · rintro p ⟨⟩
      exact ih.2
    · rw [hsize]
      exact Nat.lt_succ_of_lt ih.2
  | define name v _ ih =>
    refine ⟨ih.1.define, ?_⟩
    rw [size_define]
    exact ih.2
  | addFunction decl _ ih => exact ⟨ih.1.addFunction ih.2, ih.2⟩
  | addClass decl fields _ ih => exact ⟨ih.1.addClass ih.2, ih.2⟩
  | addObject table _ ih => exact ⟨ih.1.addObject, ih.2⟩
  | addArray elements _ ih => exact ⟨ih.1.addArray, ih.2⟩
  | @setProperty h s holder key v _ ih =>
    refine ⟨ih.1.setProperty, ?_⟩
    rw [h.scopes_setProperty holder key v]
    exact ih.2

inductive Outward (h : Heap) : Ref → List Ref → Prop
  | outermost {ref : Ref} {s : Scope} : h.scope? ref = some s → s.parent = none → h.Outward ref [ref]
  | inner {ref p : Ref} {s : Scope} {refs : List Ref} : h.scope? ref = some s → s.parent = some p →
      h.Outward p refs → h.Outward ref (ref :: refs)

theorem Ordered.outward_chainUpTo {h : Heap} (ho : h.Ordered) (n : Nat) (ref : Ref) (hn : ref < n)
    (hr : ref < h.scopes.size) : h.Outward ref (h.chainUpTo n ref) := by
  induction n generalizing ref with
  | zero => exact absurd hn (Nat.not_lt_zero ref)
  | succ n ih =>
    have hs : h.scope? ref = some h.scopes[ref] := Array.getElem?_eq_getElem hr
    have hchain : h.chainUpTo (n + 1) ref = ref :: h.scopes[ref].parent.elim [] (h.chainUpTo n) := by
      rw [chainUpTo, hs]
    rw [hchain]
    cases hp : h.scopes[ref].parent with
    | none => exact .outermost hs hp
    | some p =>
      have hlt := ho.parent ref _ p hs hp
      exact .inner hs hp (ih p (Nat.lt_of_lt_of_le hlt (Nat.le_of_lt_succ hn)) (Nat.lt_trans hlt hr))

theorem Ordered.outward_chain {h : Heap} (ho : h.Ordered) {ref : Ref} (hr : ref < h.scopes.size) :
    h.Outward ref (h.chain ref) :=
  ho.outward_chainUpTo (ref + 1) ref (Nat.lt_succ_self ref) hr

theorem Outward.decreasing {h : Heap} (ho : h.Ordered) {ref : Ref} {refs : List Ref}
    (hw : h.Outward ref refs) : refs.Pairwise (· > ·) ∧ ∀ r ∈ refs, r ≤ ref := by
  induction hw with
  | outermost => simp
  | @inner ref p s refs hs hp _ ih =>
    have hlt := ho.parent ref s p hs hp
    have hle : ∀ r ∈ refs, r < ref := fun r hr => Nat.lt_of_le_of_lt (ih.2 r hr) hlt
    refine ⟨List.pairwise_cons.mpr ⟨hle, ih.1⟩, fun r hr => ?_⟩
    obtain rfl | hr := List.mem_cons.mp hr
    · exact Nat.le_refl _
    · exact Nat.le_of_lt (hle r hr)

theorem Outward.nodup {h : Heap} (ho : h.Ordered) {ref : Ref} {refs : List Ref}
    (hw : h.Outward ref refs) : refs.Nodup :=
  (hw.decreasing ho).1.imp Nat.ne_of_gt

end Heap

def reach : Law where
  expression s h h' := h.scopes.size ≤ h'.scopes.size ∧ (h.Reachable s → h'.Reachable s)
  statement s h h' := h.scopes.size ≤ h'.scopes.size ∧ (h.Reachable s → h'.Reachable s)
  refl := ⟨Nat.le_refl _, id⟩
  trans h₁ h₂ := ⟨Nat.le_trans h₁.1 h₂.1, h₂.2 ∘ h₁.2⟩
  lift := id
  then_trans h₁ h₂ := ⟨Nat.le_trans h₁.1 h₂.1, h₂.2 ∘ h₁.2⟩
  grows h := h.1
  define := ⟨Nat.le_of_eq Heap.size_define.symm, .define _ _⟩
  assign {s h name v binder} hb := by
    refine ⟨Nat.le_of_eq Heap.size_define.symm, fun hr => ?_⟩
    have hlt := (Heap.mem_names_of_binder? hb).1
    refine .enter (.define name v (hr.enter hlt)) ?_
    rw [Heap.size_define]
    exact hr.ordered.2
  opened {s h h' parent} hp hs := by
    have hsize := h.size_addScope (some parent)
    have hle : h.scopes.size < h'.scopes.size := by
      have := hs.1
      omega
    refine ⟨Nat.le_of_lt hle, fun hr => ?_⟩
    obtain ⟨ho, hlt⟩ := hr.ordered
    have hnew := (hr.enter (ho.offers_lt hlt hp)).addScope.enter (show h.scopes.size < _ by omega)
    exact (hs.2 hnew).enter (Nat.lt_trans hlt hle)
  addFunction {s h closure} hp := by
    refine ⟨Nat.le_refl _, fun hr => ?_⟩
    obtain ⟨ho, hlt⟩ := hr.ordered
    exact .enter (.addFunction closure.decl (hr.enter (ho.offers_lt hlt hp))) hlt
  addClass _ := ⟨Nat.le_refl _, .addClass _ _⟩
  addObject := ⟨Nat.le_refl _, .addObject _⟩
  addArray := ⟨Nat.le_refl _, .addArray _⟩
  setProperty {s h holder key v} :=
    ⟨Nat.le_of_eq (by rw [Heap.scopes_setProperty]), .setProperty holder key v⟩

def Machine.Reachable (m : Machine) : Prop := m.heap.Reachable m.scope

theorem Eval.Obeys.reachable {α : Type} {c : Eval α} {m : Machine} (h : c.Obeys reach.statement m)
    (hm : m.Reachable) : (c.after m).Reachable := by
  obtain ⟨hs, -, hh⟩ := h
  rw [Machine.Reachable, hs]
  exact hh hm

theorem Machine.Reachable.start (clock : Float) : (Machine.start clock).withGlobals.Reachable :=
  Heap.Reachable.start

theorem Machine.Reachable.eval {m : Machine} (hm : m.Reachable) (n : Nat) (e : Expr) :
    ((eval (.upTo n) e).after m).Reachable :=
  ((eval_obeys (upTo_obey reach n) e m).lift reach.covers_statement).reachable hm

theorem Machine.Reachable.execute {m : Machine} (hm : m.Reachable) (n : Nat) (s : Stmt) :
    ((execute (.upTo n) s).after m).Reachable :=
  (execute_obeys (upTo_obey reach n) s reach.covers_statement (.inr rfl) m).reachable hm

theorem Machine.Reachable.interpret {m : Machine} (hm : m.Reachable) (n : Nat) (source : String) :
    (m.interpret n source).2.Reachable := by
  obtain h | ⟨program, h⟩ := m.interpret_machine n source
  · rw [h]
    exact hm
  · rw [h]
    exact (runProgram_obeys reach n program m).reachable hm

/-- Scopes keep their parents and names, objects and classes their keys, arrays their length, and
functions and classes what they were made of; and on the way outward through the scopes of a reachable
state no scope is met twice. -/
theorem state_only_grows :
    (∀ (n : Nat) (e : Expr) (m : Machine), m.heap.Grows ((eval (.upTo n) e).after m).heap) ∧
    (∀ (n : Nat) (s : Stmt) (m : Machine), m.heap.Grows ((execute (.upTo n) s).after m).heap) ∧
    (∀ clock : Float, (Machine.start clock).withGlobals.Reachable) ∧
    (∀ m : Machine, m.Reachable →
      (∀ (n : Nat) (e : Expr), ((eval (.upTo n) e).after m).Reachable) ∧
      (∀ (n : Nat) (s : Stmt), ((execute (.upTo n) s).after m).Reachable) ∧
      (∀ (n : Nat) (source : String), (m.interpret n source).2.Reachable) ∧
      ∀ ref < m.heap.scopes.size,
        (∀ s ∈ m.heap.scope? ref, ∀ parent ∈ s.parent, parent < ref) ∧
        m.heap.Outward ref (m.heap.chain ref) ∧ (m.heap.chain ref).Nodup) := by
  refine ⟨fun n e m => (eval_obeys (upTo_obey growth n) e m).2, fun n s m => ?_, .start, fun m hm => ?_⟩
  · exact (execute_obeys (upTo_obey growth n) s growth.covers_statement (.inr rfl) m).2
  · refine ⟨hm.eval, hm.execute, hm.interpret, fun ref hr => ?_⟩
    have ho := (Heap.Reachable.ordered hm).1
    have hw := ho.outward_chain hr
    exact ⟨fun s hs p hp => ho.parent ref s p hs hp, hw, hw.nodup ho⟩

def nestedCall : Stmt :=
  let body : List Stmt := [.expr (.assign "x" (.literal (.integer 2) 1) 1) 1]
  .block [.declare "x" (some (.literal (.integer 1) 1)) 1,
    .block [.function ⟨some "f", [], body, 1⟩, .expr (.call (.name "f" 1) [] 1) 1] 1] 1

theorem state_only_grows_nestedCall :
    let m := (execute (.upTo 1) nestedCall).after (Machine.start 0).withGlobals
    m.Reachable ∧ 3 < m.heap.scopes.size ∧ m.heap.Outward 3 [3, 2, 1, 0] ∧
      [3, 2, 1, 0].Nodup := by
  obtain ⟨-, -, hstart, hreach⟩ := state_only_grows
  have hm := (hreach _ (hstart 0)).2.1 1 nestedCall
  have hsize : 3 < ((execute (.upTo 1) nestedCall).after (Machine.start 0).withGlobals).heap.scopes.size := by
    decide +kernel
  have hchain : ((execute (.upTo 1) nestedCall).after (Machine.start 0).withGlobals).heap.chain 3 =
      [3, 2, 1, 0] := by
    decide +kernel
  have hwalk := (hreach _ hm).2.2.2 3 hsize
  rw [hchain] at hwalk
  exact ⟨hm, hsize, hwalk.2⟩

end Scriptlet
