import Mathlib
import Scriptlet.Proofs.LawfulEvaluation
import Scriptlet.Proofs.ParsedTrees

/-!
Which names a scope binds. Only a declaration adds one, its own, to the scope it runs in.
-/

namespace Scriptlet

namespace Heap

def names (h : Heap) (ref : Ref) : List String :=
  (h.scope? ref).elim [] fun s => s.bindings.map (·.1)

def KeepsNames (h h' : Heap) : Prop := ∀ r < h.scopes.size, h'.names r = h.names r

def AddsOnly (scope : Ref) (name : String) (h h' : Heap) : Prop :=
  ∀ r < h.scopes.size, h'.names r = h.names r ∨ r = scope ∧ h'.names r = h.names r ++ [name]

theorem map_bindIn (name : String) (v : Value) (bindings : List (String × Value)) :
    (bindIn name v bindings).map (·.1) =
      if name ∈ bindings.map (·.1) then bindings.map (·.1) else bindings.map (·.1) ++ [name] := by
  induction bindings with
  | nil => rfl
  | cons binding rest ih =>
    obtain ⟨n, w⟩ := binding
    unfold bindIn
    by_cases hn : n = name
    · subst hn
      simp
    · have hne : ¬name = n := fun h => hn h.symm
      simp only [hn, if_false, List.map_cons, ih, List.mem_cons, hne, false_or]
      split <;> rfl

theorem scope?_define_ne {h : Heap} {s r : Ref} {name : String} {v : Value} (hr : r ≠ s) :
    (h.define s name v).scope? r = h.scope? r := by
  simp [define, modifyScope, scope?, Array.getElem?_modify, Ne.symm hr]

theorem scope?_define_self {h : Heap} {s : Ref} {name : String} {v : Value} :
    (h.define s name v).scope? s = (h.scope? s).map (·.bind name v) := by
  simp [define, modifyScope, scope?, Array.getElem?_modify]

theorem scope?_addScope {h : Heap} {parent : Option Ref} {r : Ref} (hr : r < h.scopes.size) :
    (h.addScope parent).1.scope? r = h.scope? r := by
  have hne : r ≠ h.scopes.size := Nat.ne_of_lt hr
  simp [scope?, addScope, Array.getElem?_push, hne]

theorem scope?_addScope_self {h : Heap} {parent : Option Ref} :
    (h.addScope parent).1.scope? h.scopes.size = some ⟨parent, []⟩ := Array.getElem?_push_size

theorem size_addScope (h : Heap) (parent : Option Ref) :
    (h.addScope parent).1.scopes.size = h.scopes.size + 1 := Array.size_push _

theorem lt_size_addScope (h : Heap) (parent : Option Ref) :
    h.scopes.size < (h.addScope parent).1.scopes.size := by
  rw [size_addScope]
  exact Nat.lt_succ_self _

theorem names_define_ne {h : Heap} {s r : Ref} {name : String} {v : Value} (hr : r ≠ s) :
    (h.define s name v).names r = h.names r := by
  rw [names, scope?_define_ne hr, names]

theorem names_define_self {h : Heap} {s : Ref} {name : String} {v : Value} (hs : s < h.scopes.size) :
    (h.define s name v).names s = if name ∈ h.names s then h.names s else h.names s ++ [name] := by
  have hscope : h.scope? s = some h.scopes[s] := Array.getElem?_eq_getElem hs
  rw [names, scope?_define_self, names, hscope]
  exact map_bindIn name v _

theorem names_addScope {h : Heap} {parent : Option Ref} {r : Ref} (hr : r < h.scopes.size) :
    (h.addScope parent).1.names r = h.names r := by
  have hne : r ≠ h.scopes.size := Nat.ne_of_lt hr
  simp [names, scope?, addScope, Array.getElem?_push, hne]

theorem size_define {h : Heap} {s : Ref} {name : String} {v : Value} :
    (h.define s name v).scopes.size = h.scopes.size := by
  simp [define, modifyScope]

theorem mem_names_of_binder? {h : Heap} {s binder : Ref} {name : String}
    (hb : h.binder? s name = some binder) : binder < h.scopes.size ∧ name ∈ h.names binder := by
  have hbinds : h.bindsAt name binder := List.find?_some hb
  unfold bindsAt at hbinds
  cases hs : h.scope? binder with
  | none =>
    rw [hs] at hbinds
    cases hbinds
  | some scope =>
    rw [hs] at hbinds
    obtain ⟨hlt, -⟩ := Array.getElem?_eq_some_iff.mp hs
    obtain ⟨v, hv⟩ := Option.isSome_iff_exists.mp hbinds
    obtain ⟨before, after, hlist, -⟩ := List.lookup_eq_some_iff.mp hv
    refine ⟨hlt, ?_⟩
    rw [names, hs]
    change name ∈ scope.bindings.map (·.1)
    rw [hlist]
    simp

theorem names_congr {h h' : Heap} (hs : h'.scopes = h.scopes) (r : Ref) : h'.names r = h.names r := by
  rw [names, scope?, hs, names, scope?]

end Heap

/-- Expressions add no name to a scope that is there, statements only to the one they run in. -/
def hygiene : Law where
  expression _ h h' := h.scopes.size ≤ h'.scopes.size ∧ h.KeepsNames h'
  statement s h h' := h.scopes.size ≤ h'.scopes.size ∧ ∀ r < h.scopes.size, r ≠ s →
    h'.names r = h.names r
  refl := ⟨Nat.le_refl _, fun _ _ => rfl⟩
  trans h₁ h₂ := ⟨Nat.le_trans h₁.1 h₂.1, fun r hr =>
    (h₂.2 r (Nat.lt_of_lt_of_le hr h₁.1)).trans (h₁.2 r hr)⟩
  lift h := ⟨h.1, fun r hr _ => h.2 r hr⟩
  then_trans h₁ h₂ := ⟨Nat.le_trans h₁.1 h₂.1, fun r hr hs =>
    (h₂.2 r (Nat.lt_of_lt_of_le hr h₁.1) hs).trans (h₁.2 r hr hs)⟩
  grows h := h.1
  define := ⟨Nat.le_of_eq Heap.size_define.symm, fun _ _ hs => Heap.names_define_ne hs⟩
  assign {s h name v binder} hb := by
    obtain ⟨hlt, hmem⟩ := Heap.mem_names_of_binder? hb
    refine ⟨Nat.le_of_eq Heap.size_define.symm, fun r _ => ?_⟩
    by_cases hr : r = binder
    · rw [hr, Heap.names_define_self hlt, if_pos hmem]
    · exact Heap.names_define_ne hr
  opened {s h h' parent} _ hs := by
    have hsize : h.scopes.size < (h.addScope (some parent)).1.scopes.size := by
      simp [Heap.addScope]
    refine ⟨Nat.le_of_lt (Nat.lt_of_lt_of_le hsize hs.1), fun r hr => ?_⟩
    rw [hs.2 r (Nat.lt_trans hr hsize) (Nat.ne_of_lt hr), Heap.names_addScope hr]
  addFunction _ := ⟨Nat.le_refl _, fun _ _ => rfl⟩
  addClass _ := ⟨Nat.le_refl _, fun _ _ => rfl⟩
  addObject := ⟨Nat.le_refl _, fun _ _ => rfl⟩
  addArray := ⟨Nat.le_refl _, fun _ _ => rfl⟩
  setProperty {s h holder key v} := by
    have hscopes := h.scopes_setProperty holder key v
    exact ⟨Nat.le_of_eq (by rw [hscopes]), fun r _ => Heap.names_congr hscopes r⟩

def Stmt.Hygienic (s : Stmt) : Prop :=
  ∀ (n : Nat) (m : Machine),
    match execute (.upTo n) s m, s.declared? with
    | .ok _ m', some name => m.heap.AddsOnly m.scope name m'.heap
    | .ok _ m', none => m.heap.KeepsNames m'.heap
    | .error _ m', _ => m.heap.KeepsNames m'.heap

theorem Heap.addsOnly_define {h : Heap} {s : Ref} {name : String} {v : Value} :
    h.AddsOnly s name (h.define s name v) := by
  intro r hr
  by_cases hs : r = s
  · subst hs
    rw [names_define_self hr]
    split
    · exact .inl rfl
    · exact .inr ⟨rfl, rfl⟩
  · exact .inl (names_define_ne hs)

theorem Heap.KeepsNames.then_define {h h' : Heap} {s : Ref} {name : String} {v : Value}
    (hsize : h.scopes.size ≤ h'.scopes.size) (hk : h.KeepsNames h') :
    h.AddsOnly s name (h'.define s name v) := by
  intro r hr
  have hd : h'.AddsOnly s name (h'.define s name v) := addsOnly_define
  have hnames := hd r (Nat.lt_of_lt_of_le hr hsize)
  rwa [hk r hr] at hnames

theorem Stmt.hygienic_of_run {s : Stmt} {name : String} {value : Nat → Eval Value}
    (hname : s.declared? = some name)
    (hrun : ∀ n, execute (.upTo n) s = do
      let v ← value n
      Eval.define name v
      return .normal .null)
    (hv : ∀ n m, (value n).Obeys hygiene.expression m) : s.Hygienic := by
  intro n m
  rw [hname, hrun]
  obtain ⟨hscope, hsize, hkeep⟩ := hv n m
  cases hvalue : value n m with
  | ok v m' =>
    rw [Eval.after_ok hvalue] at hscope hsize hkeep
    rw [Eval.bind_ok hvalue]
    change m.heap.AddsOnly m.scope name (m'.heap.define m'.scope name v)
    rw [hscope]
    exact hkeep.then_define hsize
  | error e m' =>
    rw [Eval.after_error hvalue] at hkeep
    rw [Eval.bind_error hvalue]
    exact hkeep

theorem Stmt.hygienic_of_plain {s : Stmt} (hs : s.plain) : s.Hygienic := by
  intro n m
  have hname : s.declared? = none := by
    cases s <;> first | rfl | cases hs
  have hkeep := (execute_obeys (upTo_obey hygiene n) s hygiene.covers_expression (.inl hs) m).2.2
  rw [hname]
  cases hrun : execute (.upTo n) s m with
  | ok flow m' =>
    rw [Eval.after_ok hrun] at hkeep
    exact hkeep
  | error e m' =>
    rw [Eval.after_error hrun] at hkeep
    exact hkeep

theorem Stmt.Shaped.hygienic {s : Stmt} (hs : s.Shaped) : s.Hygienic := by
  obtain hname | hplain := hs
  · obtain ⟨name, hname⟩ := Option.isSome_iff_exists.mp hname
    have hl := upTo_obey hygiene
    cases s with
    | declare x initial line =>
      exact hygienic_of_run hname (fun n => by cases hname; rw [execute])
        fun n m => evalInitial_obeys (hl n) initial m
    | function decl =>
      have hlabel : decl.label = name := by rw [FunctionDecl.label, show decl.name = _ from hname]; rfl
      refine hygienic_of_run hname (fun n => ?_) fun n m => makeFunction_obeys hygiene.covers_expression decl
      rw [execute, hlabel]
    | classDecl decl =>
      refine hygienic_of_run hname (fun n => ?_) fun n m => makeClass_obeys (hl n) decl m
      rw [execute]
      unfold bindClass
      rw [show decl.name = _ from hname]
    | block | branch | loop | «return» | expr => cases hname
  · exact hygienic_of_plain hplain

theorem scopes_hygienic :
    (∀ (n : Nat) (e : Expr) (m : Machine), m.heap.KeepsNames ((eval (.upTo n) e).after m).heap) ∧
    ∀ (source : String) (program : List Stmt), parse source = .ok program →
      everyStmt { stmt := Stmt.Hygienic } program := by
  constructor
  · intro n e m
    exact (eval_obeys (upTo_obey hygiene n) e m).2.2
  · intro source program h
    refine everyStmt_mono ⟨?_, ?_, ?_, ?_⟩ program (parse_every h)
    · exact fun _ _ => trivial
    · exact fun _ _ => trivial
    · exact fun _ _ => trivial
    · exact fun s hs => Stmt.Shaped.hygienic hs

def blockWithCall : List Stmt :=
  let body : List Stmt := [.expr (.assign "x" (.name "y" 1) 1) 1]
  [.block [.function ⟨some "f", [], body, 1⟩, .expr (.call (.name "f" 1) [] 1) 1] 1]

theorem scopes_hygienic_block :
    (∀ m : Machine, m.heap.KeepsNames ((eval (.upTo 2) (.call (.name "f" 1) [] 1)).after m).heap) ∧
    everyStmt { stmt := Stmt.Hygienic } blockWithCall := by
  have hscan : Scan.tokens "{ function f() { x = y; } f(); }" =
      .ok (([.symbol .leftBrace, .keyword .function, .name "f", .symbol .leftParen,
        .symbol .rightParen, .symbol .leftBrace, .name "x", .symbol .assign, .name "y",
        .symbol .semicolon, .symbol .rightBrace, .name "f", .symbol .leftParen,
        .symbol .rightParen, .symbol .semicolon, .symbol .rightBrace] : List Token).map (⟨·, 1⟩)) := by
    cbv
  have hparse : parse "{ function f() { x = y; } f(); }" = .ok blockWithCall := by
    rw [parse, hscan]
    rfl
  exact ⟨scopes_hygienic.1 2 _, scopes_hygienic.2 _ _ hparse⟩

end Scriptlet
