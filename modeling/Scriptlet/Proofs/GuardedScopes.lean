import Scriptlet.Proofs.LaterStates
import Scriptlet.Proofs.OperatorResults
import Scriptlet.Proofs.PropertyTables
import Scriptlet.Proofs.TreeChecks

/-!
States in which no value dangles, and in which some scopes are guarded: no function that a program can get
at writes `this` there. A class can be kept secret. Then no value that a program can get at is the class, or
a function that runs inside a guarded scope.
-/

namespace Scriptlet

def Expr.updated? : Expr → Option String
  | name n _ => some n
  | group e _ => e.updated?
  | _ => none

def Expr.assigned? : Expr → Option String
  | assign n _ _ => some n
  | unary (.step _) e _ | trailing (.step _) e _ => e.updated?
  | _ => none

def Stmt.bound? : Stmt → Option String
  | declare name _ _ => some name
  | classDecl decl => decl.name
  | _ => none

/-- The code declares and assigns no other names than `W` allows, apart from parameters. -/
def writing (W : String → Prop) : Check where
  expr e := ∀ n ∈ e.assigned?, W n
  function decl := W decl.label
  stmt s := ∀ n ∈ s.bound?, W n

def sparing : Check := writing (· ≠ "this")

theorem writing_mono {V W : String → Prop} (h : ∀ name, W name → V name) :
    (writing W).Implies (writing V) where
  expr _ he n hn := h n (he n hn)
  function _ hf := h _ hf
  member _ _ := trivial
  stmt _ hs n hn := h n (hs n hn)

structure Guard where
  scopes : Ref → Prop
  secret : Option Ref

namespace Guard

variable (g : Guard)

def Governs (h : Heap) (scope : Ref) : Prop := ∃ guarded, g.scopes guarded ∧ h.NearestBinder "this" scope guarded

/-- Code may run in the scope, if it `spares` what is guarded there. -/
def Permits (h : Heap) (scope : Ref) (spares : Prop) : Prop :=
  g.Governs h scope → g.secret = none ∧ spares

/-- The value does not dangle, and a program may have it. -/
def Shows (h : Heap) : Value → Prop
  | .function ref => ∃ closure, h.functions[ref]? = some closure ∧
      g.Permits h closure.scope (closure.decl.every sparing)
  | .native ref => ref < h.natives.size
  | .classRef ref => ref < h.classes.size ∧ g.secret ≠ some ref
  | .object ref => ref < h.objects.size
  | .array ref => ref < h.arrays.size
  | _ => True

def Hides (scope : Ref) (name : String) : Prop := g.secret.isSome ∧ g.scopes scope ∧ name = "this"

/-- All values of the heap are `P`, but for those that are out of reach because of the secret. -/
structure Stores (P : Value → Prop) (h : Heap) : Prop where
  scope : ∀ (ref : Ref) (s : Scope), h.scopes[ref]? = some s →
    ∀ binding ∈ s.bindings, P binding.2 ∨ g.Hides ref binding.1
  object : ∀ (ref : Ref) (table : Table), h.objects[ref]? = some table → ∀ entry ∈ table.entries, P entry.2
  array : ∀ (ref : Ref) (elements : Array Value), h.arrays[ref]? = some elements → ∀ v ∈ elements, P v
  statics : ∀ (ref : Ref) (cell : ClassCell), h.classes[ref]? = some cell → g.secret ≠ some ref →
    ∀ entry ∈ cell.statics.entries, P entry.2
  fields : ∀ (ref : Ref) (cell : ClassCell), h.classes[ref]? = some cell → ∀ field ∈ cell.fields, P field.2

structure Holds (h : Heap) (scope : Ref) : Prop where
  reachable : h.Reachable scope
  bound : ∀ guarded, g.scopes guarded → h.Binds "this" guarded
  secret : ∀ ref ∈ g.secret, ref < h.classes.size
  stores : g.Stores (g.Shows h) h

end Guard

section arrays

variable {α : Type} {xs : Array α} {P : Nat → α → Prop}

theorem lt_size_push (xs : Array α) (x : α) : xs.size < (xs.push x).size := by
  rw [Array.size_push]
  exact Nat.lt_succ_self _

theorem forall_push {x : α} (hxs : ∀ i y, xs[i]? = some y → P i y) (hx : P xs.size x) (i : Nat) (y : α)
    (hy : (xs.push x)[i]? = some y) : P i y := by
  rw [Array.getElem?_push] at hy
  split at hy
  · next hi =>
    cases hy
    exact hi ▸ hx
  · exact hxs i y hy

theorem forall_modify {f : α → α} {j : Nat} (hxs : ∀ i y, xs[i]? = some y → P i y)
    (hf : ∀ y, P j y → P j (f y)) (i : Nat) (y : α) (hy : (xs.modify j f)[i]? = some y) : P i y := by
  rw [Array.getElem?_modify] at hy
  split at hy
  · next hj =>
    obtain ⟨x, hx, rfl⟩ := Option.map_eq_some_iff.mp hy
    exact hj ▸ hf x (hj ▸ hxs i x hx)
  · exact hxs i y hy

end arrays

section

variable {P : Value → Prop} {v : Value}

theorem forall_insertIn {entries : List (PropertyKey × Value)} (he : ∀ entry ∈ entries, P entry.2)
    (key : PropertyKey) (hv : P v) : ∀ entry ∈ Table.insertIn key v entries, P entry.2 := by
  induction entries with
  | nil => simpa [Table.insertIn] using hv
  | cons entry rest ih =>
    rw [List.forall_mem_cons] at he
    unfold Table.insertIn
    split
    · exact List.forall_mem_cons.mpr ⟨hv, List.forall_mem_cons.mpr he⟩
    · exact List.forall_mem_cons.mpr ⟨hv, he.2⟩
    · exact List.forall_mem_cons.mpr ⟨he.1, ih he.2⟩

theorem Table.forall_ofNamed {entries : List (String × Value)} (he : ∀ entry ∈ entries, P entry.2) :
    ∀ entry ∈ (Table.ofNamed entries).entries, P entry.2 := by
  have hfold (table : Table) (ht : ∀ entry ∈ table.entries, P entry.2) :
      ∀ entry ∈ (entries.foldl (fun table entry => table.insert (.text entry.1) entry.2) table).entries,
        P entry.2 := by
    induction entries generalizing table with
    | nil => exact ht
    | cons entry rest ih =>
      rw [List.forall_mem_cons] at he
      exact ih he.2 _ (forall_insertIn ht _ he.1)
  exact hfold .empty nofun

theorem forall_bindIn {Q : String × Value → Prop} {name : String} {bindings : List (String × Value)}
    (hb : ∀ binding ∈ bindings, Q binding) (hv : Q (name, v)) :
    ∀ binding ∈ bindIn name v bindings, Q binding := by
  induction bindings with
  | nil => simpa [bindIn] using hv
  | cons binding rest ih =>
    rw [List.forall_mem_cons] at hb
    unfold bindIn
    split
    · next hn => exact List.forall_mem_cons.mpr ⟨hn ▸ hv, hb.2⟩
    · exact List.forall_mem_cons.mpr ⟨hb.1, ih hb.2⟩

theorem forall_writeElement {elements : Array Value} (he : ∀ w ∈ elements, P w) (i : Nat) (hv : P v)
    (hnull : P .null) : ∀ w ∈ writeElement elements i v, P w := by
  intro w hw
  unfold writeElement at hw
  split at hw
  · obtain hw | rfl := Array.mem_or_eq_of_mem_setIfInBounds hw
    · exact he w hw
    · exact hv
  · simp only [Array.mem_push, Array.mem_append, Array.mem_replicate] at hw
    obtain (hw | ⟨-, rfl⟩) | rfl := hw
    · exact he w hw
    · exact hnull
    · exact hv

end

namespace Guard

variable {g : Guard} {P Q : Value → Prop} {h h' : Heap} {s s' r : Ref} {v : Value} {name : String}

namespace Stores

theorem mono (hh : g.Stores P h) (hP : ∀ v, P v → Q v) : g.Stores Q h where
  scope r s hs binding hb := (hh.scope r s hs binding hb).imp_left (hP _)
  object r t ht entry he := hP _ (hh.object r t ht entry he)
  array r xs hx w hw := hP _ (hh.array r xs hx w hw)
  statics r c hc hr entry he := hP _ (hh.statics r c hc hr entry he)
  fields r c hc field hf := hP _ (hh.fields r c hc field hf)

theorem of_object (hh : g.Stores P h) (ref : Ref) : ∀ entry ∈ (h.object ref).entries, P entry.2 := by
  unfold Heap.object
  cases ht : h.objects[ref]? with
  | none => exact nofun
  | some table => exact hh.object ref table ht

theorem of_array (hh : g.Stores P h) (ref : Ref) : ∀ v ∈ h.array ref, P v := by
  unfold Heap.array
  cases ht : h.arrays[ref]? with
  | none => exact fun v hv => absurd hv (Array.not_mem_empty v)
  | some elements => exact hh.array ref elements ht

theorem of_statics (hh : g.Stores P h) (ref : Ref) (hr : g.secret ≠ some ref) :
    ∀ entry ∈ (h.statics ref).entries, P entry.2 := by
  unfold Heap.statics
  cases ht : h.classes[ref]? with
  | none => exact nofun
  | some cell => exact hh.statics ref cell ht hr

theorem addScope (hh : g.Stores P h) (parent : Option Ref) : g.Stores P (h.addScope parent).1 :=
  { hh with scope := forall_push hh.scope nofun }

theorem define (hh : g.Stores P h) (hv : P v ∨ g.Hides r name) : g.Stores P (h.define r name v) :=
  { hh with scope := forall_modify hh.scope fun _ hb => forall_bindIn hb hv }

theorem addFunction (hh : g.Stores P h) (closure : Closure) : g.Stores P (h.addFunction closure).1 :=
  { hh with }

theorem addNative (hh : g.Stores P h) (native : Native) : g.Stores P (h.addNative native).1 :=
  { hh with }

theorem addClass (hh : g.Stores P h) {cell : ClassCell} (hs : cell.statics = .empty)
    (hf : ∀ field ∈ cell.fields, P field.2) : g.Stores P (h.addClass cell).1 :=
  { hh with
    statics := forall_push hh.statics fun _ => by
      rw [hs]
      exact nofun
    fields := forall_push hh.fields hf }

theorem insertStatic (hh : g.Stores P h) (key : PropertyKey) (hv : P v ∨ g.secret = some r) :
    g.Stores P (h.modifyStatics r (·.insert key v)) :=
  { hh with
    statics := forall_modify hh.statics fun _ he hr =>
      forall_insertIn (he hr) key (hv.resolve_right hr)
    fields := forall_modify hh.fields fun _ hf => hf }

theorem addObject (hh : g.Stores P h) {table : Table} (ht : ∀ entry ∈ table.entries, P entry.2) :
    g.Stores P (h.addObject table).1 := { hh with object := forall_push hh.object ht }

theorem addArray (hh : g.Stores P h) {elements : Array Value} (he : ∀ w ∈ elements, P w) :
    g.Stores P (h.addArray elements).1 := { hh with array := forall_push hh.array he }

theorem setProperty (hh : g.Stores P h) (holder key : Value) (hv : P v) (hnull : P .null) :
    g.Stores P (h.setProperty holder key v) := by
  unfold Heap.setProperty
  split
  · exact { hh with object := forall_modify hh.object fun _ he => forall_insertIn he _ hv }
  · split
    · exact { hh with array := forall_modify hh.array fun _ he => forall_writeElement he _ hv hnull }
    · exact hh
  · exact hh.insertStatic _ (.inl hv)
  · exact hh

end Stores

theorem not_governs_of_binds (hb : h.Binds "this" r) (hr : ¬ g.scopes r) : ¬ g.Governs h r := by
  rintro ⟨guarded, hg, hn⟩
  cases hn with
  | here => exact hr hg
  | outer hn => exact hn hb

theorem governs_of_scopes (hr : h.Binds "this" r) (hg : g.scopes r) : g.Governs h r := ⟨r, hg, .here hr⟩

end Guard

theorem Heap.Grows.binds {h h' : Heap} {r : Ref} {name : String} (hg : h.Grows h')
    (hb : h.Binds name r) : h'.Binds name r := by
  obtain ⟨v, hv⟩ := hb
  obtain ⟨s, hs, hget⟩ := Option.bind_eq_some_iff.mp hv
  obtain ⟨t, ht, -, hnames⟩ := hg.scopes r s hs
  have hmem : name ∈ t.bindings.map (·.1) := by
    apply hnames
    obtain ⟨before, after, hlist, -⟩ := List.lookup_eq_some_iff.mp hget
    simp [hlist]
  obtain ⟨w, hw⟩ : ∃ w, t.bindings.lookup name = some w := by
    rw [← Option.ne_none_iff_exists']
    intro hnone
    obtain ⟨binding, hbinding, rfl⟩ := List.mem_map.mp hmem
    simpa using List.lookup_eq_none_iff.mp hnone binding hbinding
  refine ⟨w, ?_⟩
  rw [own?, scope?, ht]
  exact hw

theorem Heap.Grows.parent? {h h' : Heap} {r : Ref} (hg : h.Grows h') (hr : r < h.scopes.size) :
    h'.parent? r = h.parent? r := by
  have hs : h.scope? r = some h.scopes[r] := Array.getElem?_eq_getElem hr
  obtain ⟨t, ht, hparent, -⟩ := hg.scopes r _ hs
  rw [parent?_of_scope hs, parent?_of_scope ht, hparent]

namespace Guard

variable {g : Guard} {h h' : Heap} {s s' r : Ref} {v : Value} {name : String} {p : Prop}

namespace Holds

theorem governs_of_grows (hh : g.Holds h s) (hg : h.Grows h') (hr : r < h.scopes.size)
    (hgov : g.Governs h' r) : g.Governs h r := by
  obtain ⟨guarded, hguarded, hn⟩ := hgov
  refine ⟨guarded, hguarded, ?_⟩
  induction hn with
  | here => exact .here (hh.bound _ hguarded)
  | @outer r p b hb hp _ ih =>
    rw [hg.parent? hr] at hp
    have hlt := hh.reachable.ordered.1.forest r p hp
    exact .outer (fun hb' => hb (hg.binds hb')) hp (ih (Nat.lt_trans hlt hr) hguarded)

theorem permits_of_grows (hh : g.Holds h s) (hg : h.Grows h') (hr : r < h.scopes.size)
    (hp : g.Permits h r p) : g.Permits h' r p := fun hgov => hp (hh.governs_of_grows hg hr hgov)

theorem shows_of_grows (hh : g.Holds h s) (hg : h.Grows h') (v : Value) (hv : g.Shows h v) :
    g.Shows h' v := by
  cases v with
  | function ref =>
    obtain ⟨closure, hc, hp⟩ := hv
    obtain ⟨_, hc', rfl⟩ := hg.functions ref closure hc
    exact ⟨closure, hc', hh.permits_of_grows hg (hh.reachable.ordered.1.function ref closure hc) hp⟩
  | native ref => exact Nat.lt_of_lt_of_le hv hg.natives.size_le
  | classRef ref => exact ⟨Nat.lt_of_lt_of_le hv.1 hg.classes.size_le, hv.2⟩
  | object ref => exact Nat.lt_of_lt_of_le hv hg.objects.size_le
  | array ref => exact Nat.lt_of_lt_of_le hv hg.arrays.size_le
  | _ => trivial

theorem of_later (hh : g.Holds h s) (hl : h.Later g.scopes s h' s')
    (hs : g.Stores (g.Shows h') h → g.Stores (g.Shows h') h') : g.Holds h' s' where
  reachable := hl.reachable hh.reachable
  bound guarded hguarded := hl.keeps.grows.binds (hh.bound guarded hguarded)
  secret ref hr := Nat.lt_of_lt_of_le (hh.secret ref hr) hl.keeps.grows.classes.size_le
  stores := hs (hh.stores.mono (hh.shows_of_grows hl.keeps.grows))

theorem enter (hh : g.Holds h s) (hs : s' < h.scopes.size) : g.Holds h s' :=
  { hh with reachable := hh.reachable.enter hs }

theorem lt_of_scopes (hh : g.Holds h s) (hg : g.scopes r) : r < h.scopes.size :=
  Heap.lt_size_of_binds (hh.bound r hg)

theorem not_scopes_new (hh : g.Holds h s) : ¬ g.scopes h.scopes.size := fun hg =>
  Nat.lt_irrefl _ (hh.lt_of_scopes hg)

end Holds

structure Leads (g : Guard) (scope : Ref) (h h' : Heap) : Prop where
  later : h.Later g.scopes scope h' scope
  holds : g.Holds h' scope

theorem Leads.trans {h₁ h₂ h₃ : Heap} (h12 : g.Leads s h₁ h₂) (h23 : g.Leads s h₂ h₃) :
    g.Leads s h₁ h₃ := ⟨h12.later.trans h23.later, h23.holds⟩

theorem Leads.grows (hl : g.Leads s h h') : h.Grows h' := hl.later.keeps.grows

namespace Holds

theorem leads (hh : g.Holds h s) (hl : h.Later g.scopes s h' s)
    (hs : g.Stores (g.Shows h') h → g.Stores (g.Shows h') h') : g.Leads s h h' := ⟨hl, hh.of_later hl hs⟩

theorem leads_self (hh : g.Holds h s) : g.Leads s h h := ⟨.refl, hh⟩

theorem define (hh : g.Holds h s) (hr : r < h.scopes.size) (hn : name = "this" → ¬ g.scopes r)
    (hv : g.Shows h v) : g.Leads s h (h.define r name v) := by
  refine hh.leads (.assign hh.reachable hn hr) fun hs => hs.define (.inl ?_)
  exact hh.shows_of_grows Heap.grows_define v hv

theorem addFunction (hh : g.Holds h s) {closure : Closure} (hs : closure.scope < h.scopes.size) :
    g.Leads s h (h.addFunction closure).1 :=
  hh.leads (.closure hh.reachable (.existing hs)) fun hs => hs.addFunction closure

theorem addObject (hh : g.Holds h s) {table : Table} (ht : ∀ entry ∈ table.entries, g.Shows h entry.2) :
    g.Leads s h (h.addObject table).1 := by
  have hl : h.Later g.scopes s (h.addObject table).1 s := .addObject table .refl
  exact hh.leads hl fun hs => hs.addObject fun e he => hh.shows_of_grows hl.keeps.grows _ (ht e he)

theorem addArray (hh : g.Holds h s) {elements : Array Value} (he : ∀ v ∈ elements, g.Shows h v) :
    g.Leads s h (h.addArray elements).1 := by
  have hl : h.Later g.scopes s (h.addArray elements).1 s := .addArray elements .refl
  exact hh.leads hl fun hs => hs.addArray fun v hv => hh.shows_of_grows hl.keeps.grows _ (he v hv)

theorem setProperty (hh : g.Holds h s) (holder key : Value) (hv : g.Shows h v) :
    g.Leads s h (h.setProperty holder key v) := by
  refine hh.leads (.setProperty _ _ _ .refl) fun hs => hs.setProperty holder key ?_ trivial
  exact hh.shows_of_grows Heap.grows_setProperty v hv

theorem insertStatic (hh : g.Holds h s) (name : String) (hv : g.Shows h v ∨ g.secret = some r) :
    g.Leads s h (h.modifyStatics r (·.insert (.text name) v)) := by
  have hl : h.Later g.scopes s (h.setProperty (.classRef r) (.text name) v) s :=
    .setProperty _ _ _ .refl
  exact hh.leads hl fun hs =>
    hs.insertStatic _ (hv.imp_left (hh.shows_of_grows hl.keeps.grows v))

theorem addReceiver (hh : g.Holds h s) {parent : Ref} (hp : parent < h.scopes.size)
    (hv : g.Shows h v) : g.Leads s h (h.addReceiver parent v) := by
  have hl : h.Later g.scopes s (h.addReceiver parent v) s := .receiver hh.reachable (.existing hp)
  refine hh.leads hl fun hs => (hs.addScope (some parent)).define (.inl ?_)
  exact hh.shows_of_grows hl.keeps.grows v hv

theorem addClass (hh : g.Holds h s) (decl : ClassDecl) {fields : List (String × Value)}
    (hf : ∀ field ∈ fields, g.Shows h field.2) : g.Leads s h (h.addClass ⟨decl, s, .empty, fields⟩).1 := by
  have hl : h.Later g.scopes s (h.addClass ⟨decl, s, .empty, fields⟩).1 s := .addClass _ _ .refl
  exact hh.leads hl fun hs => hs.addClass rfl fun e he => hh.shows_of_grows hl.keeps.grows _ (hf e he)

theorem addClassScope (hh : g.Holds h s) (decl : ClassDecl) {fields : List (String × Value)}
    (hf : ∀ field ∈ fields, g.Shows h field.2) :
    g.Leads s h (h.addClassScope ⟨decl, s, .empty, fields⟩) := by
  have hclass := hh.addClass decl hf
  refine hclass.trans (hclass.holds.addReceiver hclass.holds.reachable.ordered.2 ⟨?_, ?_⟩)
  · exact lt_size_push _ _
  · exact fun hr => Nat.lt_irrefl _ (hh.secret _ hr)

theorem addInstance (hh : g.Holds h s) {cell : ClassCell} (hc : h.classes[r]? = some cell) :
    g.Leads s h (h.addInstance cell) := by
  let h₁ := (h.addObject (.ofNamed cell.fields)).1
  let h₂ := h₁.addReceiver cell.scope (.object h.objects.size)
  have h01 : g.Leads s h h₁ := hh.addObject (Table.forall_ofNamed (hh.stores.fields r cell hc))
  have hobject : g.Shows h₁ (.object h.objects.size) := lt_size_push _ _
  have h12 : g.Leads s h₁ h₂ :=
    h01.holds.addReceiver (h01.holds.reachable.ordered.1.ofClass r cell hc) hobject
  have hbinds : h₂.Binds "this" h.scopes.size := ⟨_, h₁.own?_addReceiver_self cell.scope _⟩
  have hfree : ¬ g.Governs h₂ h.scopes.size := not_governs_of_binds hbinds hh.not_scopes_new
  refine h01.trans (h12.trans (Heap.bindMethods_induct h12.holds.leads_self ?_))
  intro h' name decl _ hl
  have hlt := Nat.lt_of_lt_of_le (Heap.lt_size_of_binds hbinds) hl.grows.scopes.size_le
  have hfunction : g.Leads s h' (h'.addFunction ⟨decl, h.scopes.size⟩).1 := hl.holds.addFunction hlt
  have hgrows := hl.grows.trans hfunction.grows
  refine hl.trans (hfunction.trans (hfunction.holds.setProperty _ _ ⟨_, Array.getElem?_push_size, ?_⟩))
  exact fun hgov =>
    absurd (h12.holds.governs_of_grows hgrows (Heap.lt_size_of_binds hbinds) hgov) hfree

end Holds

theorem shows_plain (hv : v.Plain) : g.Shows h v := by
  cases v <;> trivial

namespace Holds

theorem shows_lookup (hh : g.Holds h s) (hp : g.Permits h r p) (hv : h.lookup r name = some v) :
    g.Shows h v := by
  rw [Heap.lookup_eq_binder] at hv
  obtain ⟨binder, hb, hown⟩ := Option.bind_eq_some_iff.mp hv
  obtain ⟨scope, hs, hget⟩ := Option.bind_eq_some_iff.mp hown
  obtain ⟨before, after, hlist, -⟩ := List.lookup_eq_some_iff.mp hget
  have hmem : (name, v) ∈ scope.bindings := by simp [hlist]
  obtain hv | ⟨hsecret, hguarded, hname⟩ := hh.stores.scope binder scope hs _ hmem
  · exact hv
  · -- The scope would be inside a guarded one, where nothing runs as long as there is a secret.
    have hn := (Heap.binder?_eq_some_iff hh.reachable.ordered.1.forest).mp hb
    have hname : name = "this" := hname
    subst hname
    rw [(hp ⟨binder, hguarded, hn⟩).1] at hsecret
    cases hsecret

theorem shows_own (hh : g.Holds h s) (hown : h.own? name r = some v) (hfree : ¬ g.Governs h r) :
    g.Shows h v := by
  have hp : g.Permits h r True := fun hgov => absurd hgov hfree
  exact hh.shows_lookup hp (Heap.lookup_of_own hown)

theorem shows_property (hh : g.Holds h s) {holder : Value} (hh' : g.Shows h holder) (key : Value) :
    g.Shows h (h.getProperty holder key) := by
  unfold Heap.getProperty
  cases hfound : h.findProperty holder key with
  | none => trivial
  | some v =>
    cases holder with
    | object ref =>
      obtain ⟨entry, he, -, rfl⟩ := Table.exists_entry_of_getIn hfound
      exact hh.stores.of_object ref entry he
    | array ref =>
      obtain ⟨i, -, hi⟩ := Option.bind_eq_some_iff.mp hfound
      exact hh.stores.of_array ref v (Array.mem_of_getElem? hi)
    | classRef ref =>
      obtain ⟨entry, he, -, rfl⟩ := Table.exists_entry_of_getIn hfound
      exact hh.stores.of_statics ref hh'.2 entry he
    | _ => cases hfound

theorem child (hh : g.Holds h s) {parent : Ref} (hp : parent < h.scopes.size) :
    g.Holds (h.addScope (some parent)).1 h.scopes.size :=
  hh.of_later (.child hh.reachable (.existing hp)) fun hs => hs.addScope (some parent)

theorem permits_child (hh : g.Holds h s) {parent : Ref} (hlt : parent < h.scopes.size)
    (hp : g.Permits h parent p) : g.Permits (h.addScope (some parent)).1 h.scopes.size p := by
  have hnew : (h.addScope (some parent)).1.parent? h.scopes.size = some parent :=
    Heap.parent?_of_scope Heap.scope?_addScope_self
  rintro ⟨guarded, hguarded, hn⟩
  cases hn with
  | here => exact absurd hguarded hh.not_scopes_new
  | outer _ hparent hn =>
    rw [hnew] at hparent
    cases hparent
    exact hp (hh.governs_of_grows Heap.grows_addScope hlt ⟨guarded, hguarded, hn⟩)

theorem bindParams (hh : g.Holds h s) (hs : ¬ g.scopes s) (params : List String) {args : List Value}
    (ha : ∀ v ∈ args, g.Shows h v) : g.Leads s h (h.bindParams s params args) := by
  induction params generalizing h args with
  | nil => exact hh.leads_self
  | cons name params ih =>
    have hhead : g.Shows h (args.head?.getD .null) := by
      cases args with
      | nil => trivial
      | cons v args => exact ha v (.head _)
    have hfirst : g.Leads s h (h.define s name (args.head?.getD .null)) :=
      hh.define hh.reachable.ordered.2 (fun _ => hs) hhead
    refine hfirst.trans (ih hfirst.holds fun v hv => ?_)
    exact hh.shows_of_grows hfirst.grows v (ha v (List.mem_of_mem_tail hv))

end Holds

def free : Guard := ⟨fun _ => False, none⟩

def around (scope : Ref) : Guard := ⟨(· = scope), none⟩

theorem Stores.of_free {P : Value → Prop} (hh : free.Stores P h) : g.Stores P h :=
  { hh with
    scope := fun r s hs b hb => .inl ((hh.scope r s hs b hb).resolve_right fun hides => hides.2.1)
    statics := fun r c hc _ => hh.statics r c hc nofun }

def Spared (h : Heap) (scope : Ref) : Prop :=
  ∀ (ref : Ref) (c : Closure), h.functions[ref]? = some c → (around scope).Governs h c.scope →
    c.decl.every sparing

theorem Spared.shows (hc : Spared h r) (hv : free.Shows h v) : (around r).Shows h v := by
  cases v with
  | function ref =>
    obtain ⟨c, hf, -⟩ := hv
    exact ⟨c, hf, fun hgov => ⟨rfl, hc ref c hf hgov⟩⟩
  | classRef ref => exact ⟨hv.1, nofun⟩
  | _ => exact hv

theorem Holds.around (hh : free.Holds h s) (hb : h.Binds "this" r) (hc : Spared h r) :
    (around r).Holds h s where
  reachable := hh.reachable
  bound := by
    rintro _ rfl
    exact hb
  secret := nofun
  stores := hh.stores.of_free.mono fun _ => hc.shows

end Guard

end Scriptlet
