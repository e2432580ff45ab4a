import Mathlib
import Scriptlet.Proofs.PropertyTables

namespace Scriptlet

namespace FloatOrder

open Float.Model (UnpackedFloat)

def classOf : UnpackedFloat → Int
  | .infinity .negative => -2
  | .finite .negative .. => -1
  | .zero _ => 0
  | .finite .positive .. => 1
  | .infinity .positive => 2
  | .notANumber => 3

def exponentOf : UnpackedFloat → Int
  | .finite .positive _ e _ => e
  | .finite .negative _ e _ => -e
  | _ => 0

def digitsOf : UnpackedFloat → Int
  | .finite .positive m _ _ => m
  | .finite .negative m _ _ => -m
  | _ => 0

def total : UnpackedFloat → UnpackedFloat → Ordering :=
  compareLex (compareOn classOf) (compareLex (compareOn exponentOf) (compareOn digitsOf))

instance : Std.TransCmp total :=
  inferInstanceAs (Std.TransCmp (compareLex _ _))

variable {u v : UnpackedFloat} {x y : Float}

theorem compare_neg_neg (m n : Int) : compare (-m) (-n) = (compare m n).swap := by
  rw [← Std.OrientedOrd.eq_swap]
  rcases lt_trichotomy m n with h | h | h
  · rw [compare_gt_iff_gt.mpr h, compare_gt_iff_gt.mpr (neg_lt_neg h)]
  · rw [h, compare_eq_iff_eq.mpr rfl, compare_eq_iff_eq.mpr rfl]
  · rw [compare_lt_iff_lt.mpr h, compare_lt_iff_lt.mpr (neg_lt_neg h)]

theorem compare_natCast (m n : Nat) : compare (m : Int) (n : Int) = compare m n := by
  rcases lt_trichotomy m n with h | h | h
  · rw [compare_lt_iff_lt.mpr h, compare_lt_iff_lt.mpr (Int.ofNat_lt.mpr h)]
  · rw [h, compare_eq_iff_eq.mpr rfl, compare_eq_iff_eq.mpr rfl]
  · rw [compare_gt_iff_gt.mpr h, compare_gt_iff_gt.mpr (Int.ofNat_lt.mpr h)]

theorem compare_finite (s t : Float.Model.UnpackedFloat.Sign) {m n : Nat} {e f : Int} (hm : 0 < m)
    (hn : 0 < n) : (UnpackedFloat.finite s m e hm).compare (.finite t n f hn) =
      some (total (.finite s m e hm) (.finite t n f hn)) := by
  cases s with
  | positive =>
    cases t with
    | negative => rfl
    | positive =>
      have hdigits : compare (m : Int) n = compare m n := compare_natCast m n
      change some ((compare e f).then (compare m n)) =
        some ((compare e f).then (compare (m : Int) n))
      rw [hdigits]
  | negative =>
    cases t with
    | positive => rfl
    | negative =>
      have hdigits : compare (-(m : Int)) (-n) = (compare m n).swap := by
        rw [compare_neg_neg, compare_natCast]
      change some ((compare e f).then (compare m n)).swap =
        some ((compare (-e) (-f)).then (compare (-(m : Int)) (-n)))
      rw [hdigits, compare_neg_neg, Ordering.swap_then]

theorem compare_eq_total (hu : u.isNaN = false) (hv : v.isNaN = false) :
    u.compare v = some (total u v) := by
  cases u with
  | notANumber => cases hu
  | infinity s =>
    cases v with
    | notANumber => cases hv
    | infinity t => cases s <;> cases t <;> rfl
    | zero t => cases s <;> rfl
    | finite t n f hn => cases s <;> cases t <;> rfl
  | zero s =>
    cases v with
    | notANumber => cases hv
    | infinity t => cases t <;> rfl
    | zero t => rfl
    | finite t n f hn => cases t <;> rfl
  | finite s m e hm =>
    cases v with
    | notANumber => cases hv
    | infinity t => cases s <;> cases t <;> rfl
    | zero t => cases s <;> rfl
    | finite t n f hn => exact compare_finite s t hm hn

theorem compare_nan (h : u.isNaN = true ∨ v.isNaN = true) : u.compare v = none := by
  rcases h with h | h
  · cases u <;> cases h
    rfl
  · cases v <;> cases h
    cases u with
    | notANumber | zero => rfl
    | infinity s | finite s => cases s <;> rfl

theorem total_nan (h : u.isNaN = true ∨ v.isNaN = true) : total u v = compare u.isNaN v.isNaN := by
  cases u with
  | notANumber =>
    cases v with
    | notANumber | zero => rfl
    | infinity s | finite s => cases s <;> rfl
  | zero =>
    cases v with
    | notANumber => rfl
    | zero | infinity | finite => simp [UnpackedFloat.isNaN] at h
  | infinity s | finite s =>
    cases v with
    | notANumber => cases s <;> rfl
    | zero | infinity | finite => simp [UnpackedFloat.isNaN] at h

theorem lt_iff : x < y ↔ x.toModel.unpack.compare y.toModel.unpack = some .lt := by
  constructor
  · intro h
    have hlt : (x.toModel.unpack.compare y.toModel.unpack == some .lt) = true := of_decide_eq_true h
    exact eq_of_beq hlt
  · intro h
    have hlt : (x.toModel.unpack.compare y.toModel.unpack == some .lt) = true := beq_iff_eq.mpr h
    exact decide_eq_true hlt

theorem beq_iff : (x == y) = true ↔ x.toModel.unpack.compare y.toModel.unpack = some .eq := by
  change (x.toModel.unpack.compare y.toModel.unpack == some .eq) = true ↔ _
  exact beq_iff_eq

theorem compareFloat_eq_total (x y : Float) :
    PropertyKey.compareFloat x y = total x.toModel.unpack y.toModel.unpack := by
  unfold PropertyKey.compareFloat
  simp only [lt_iff, beq_iff]
  by_cases hn : x.isNaN = true ∨ y.isNaN = true
  · have hback : y.isNaN = true ∨ x.isNaN = true := hn.symm
    rw [compare_nan hn, compare_nan hback, total_nan hn]
    change _ = compare x.isNaN y.isNaN
    cases x.isNaN <;> cases y.isNaN <;> rfl
  · obtain ⟨hx, hy⟩ := not_or.mp hn
    have hx : x.toModel.unpack.isNaN = false := eq_false_of_ne_true hx
    have hy : y.toModel.unpack.isNaN = false := eq_false_of_ne_true hy
    have hswap : total y.toModel.unpack x.toModel.unpack =
        (total x.toModel.unpack y.toModel.unpack).swap := Std.OrientedCmp.eq_swap
    rw [compare_eq_total hx hy, compare_eq_total hy hx, hswap]
    cases total x.toModel.unpack y.toModel.unpack <;> rfl

instance : Std.TransCmp PropertyKey.compareFloat where
  eq_swap {x y} := by
    rw [compareFloat_eq_total, compareFloat_eq_total]
    exact Std.OrientedCmp.eq_swap
  isLE_trans {x y z} hxy hyz := by
    rw [compareFloat_eq_total] at *
    exact Std.TransCmp.isLE_trans hxy hyz

theorem compareFloat_eq_iff : PropertyKey.compareFloat x y = .eq ↔
    (x == y) = true ∨ x.isNaN = true ∧ y.isNaN = true := by
  rw [compareFloat_eq_total, beq_iff]
  change _ ↔ _ ∨ x.toModel.unpack.isNaN = true ∧ y.toModel.unpack.isNaN = true
  by_cases hn : x.toModel.unpack.isNaN = true ∨ y.toModel.unpack.isNaN = true
  · rw [compare_nan hn, total_nan hn]
    revert hn
    cases x.toModel.unpack.isNaN <;> cases y.toModel.unpack.isNaN <;> decide
  · obtain ⟨hx, hy⟩ := not_or.mp hn
    rw [compare_eq_total (eq_false_of_ne_true hx) (eq_false_of_ne_true hy)]
    simp [hx]

end FloatOrder

namespace PropertyKey

def flag : PropertyKey → Bool
  | boolean b => b
  | _ => false

def word : PropertyKey → Int
  | integer n => n.toInt
  | _ => 0

def number : PropertyKey → Float
  | real x => x
  | _ => 0

def string : PropertyKey → String
  | text s => s
  | _ => ""

def byNumber (a b : PropertyKey) : Ordering := compareFloat a.number b.number

instance : Std.TransCmp byNumber where
  eq_swap {a b} := by
    have hswap : compareFloat a.number b.number = (compareFloat b.number a.number).swap :=
      Std.OrientedCmp.eq_swap
    exact hswap
  isLE_trans {a b c} hab hbc := by
    have hle : (compareFloat a.number c.number).isLE = true := Std.TransCmp.isLE_trans hab hbc
    exact hle

def byParts : PropertyKey → PropertyKey → Ordering :=
  compareLex (compareOn rank) (compareLex (compareOn flag) (compareLex (compareOn word)
    (compareLex byNumber (compareOn string))))

instance : Std.TransCmp byParts := inferInstanceAs (Std.TransCmp (compareLex _ _))

theorem compare_of_rank_ne {a b : PropertyKey} (hr : a.rank ≠ b.rank) :
    a.compare b = Ord.compare a.rank b.rank := by
  cases a <;> cases b <;> first | rfl | exact absurd rfl hr

theorem compare_eq_byParts (a b : PropertyKey) : a.compare b = byParts a b := by
  by_cases hr : a.rank = b.rank
  · have hzero : compareFloat 0 0 = .eq := compareFloat_self 0
    cases a <;> cases b <;>
      simp [rank, compare, byParts, compareLex, compareOn, flag, word, byNumber, number, string,
        hzero] at hr ⊢
  · rw [compare_of_rank_ne hr]
    change _ = (Ord.compare a.rank b.rank).then _
    cases ho : Ord.compare a.rank b.rank with
    | eq => exact absurd (Nat.compare_eq_eq.mp ho) hr
    | lt | gt => rfl

instance : Std.TransCmp PropertyKey.compare where
  eq_swap {a b} := by
    rw [compare_eq_byParts, compare_eq_byParts]
    exact Std.OrientedCmp.eq_swap
  isLE_trans {a b c} hab hbc := by
    rw [compare_eq_byParts] at *
    exact Std.TransCmp.isLE_trans hab hbc

theorem compare_eq_iff {a b : PropertyKey} : a.compare b = .eq ↔
    a = b ∨ ∃ x y, a = .real x ∧ b = .real y ∧
      ((x == y) = true ∨ x.isNaN = true ∧ y.isNaN = true) := by
  constructor
  · intro h
    cases a with
    | null =>
      cases b with
      | null => exact .inl rfl
      | _ => cases h
    | boolean p =>
      cases b with
      | boolean q =>
        have hpq : Ord.compare p q = .eq := h
        exact .inl (congrArg boolean (Std.LawfulEqCmp.eq_of_compare hpq))
      | _ => cases h
    | integer m =>
      cases b with
      | integer n =>
        have hmn : Ord.compare m.toInt n.toInt = .eq := h
        exact .inl (congrArg integer (Int64.toInt_inj.mp (Std.LawfulEqCmp.eq_of_compare hmn)))
      | _ => cases h
    | real x =>
      cases b with
      | real y => exact .inr ⟨x, y, rfl, rfl, FloatOrder.compareFloat_eq_iff.mp h⟩
      | _ => cases h
    | text s =>
      cases b with
      | text t =>
        have hst : Ord.compare s t = .eq := h
        exact .inl (congrArg text (Std.LawfulEqCmp.eq_of_compare hst))
      | _ => cases h
  · rintro (rfl | ⟨x, y, rfl, rfl, h⟩)
    · exact compare_self a
    · exact FloatOrder.compareFloat_eq_iff.mpr h

theorem compare_of_rank_lt {a b : PropertyKey} (hr : a.rank < b.rank) : a.compare b = .lt := by
  rw [compare_of_rank_ne (Nat.ne_of_lt hr)]
  exact Nat.compare_eq_lt.mpr hr

end PropertyKey
end Scriptlet
