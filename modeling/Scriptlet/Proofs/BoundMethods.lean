import Scriptlet.Proofs.EvaluationRuns
import Scriptlet.Proofs.PropertyTables

namespace Scriptlet

namespace Heap

def HasMethod (h : Heap) (ref scope : Ref) (methods : List (String × FunctionDecl)) (name : String) :
    Prop :=
  ∃ f decl, (name, decl) ∈ methods ∧ h.functions[f]? = some ⟨decl, scope⟩ ∧
    (h.object ref).get? (.text name) = some (.function f)

variable {h : Heap} {ref scope : Ref} {methods : List (String × FunctionDecl)} {name : String}

theorem HasMethod.bindMethod (hr : ref < h.objects.size) {other : String} (hne : name ≠ other)
    {decl : FunctionDecl} (hm : h.HasMethod ref scope methods name) :
    (h.bindMethod ref scope other decl).HasMethod ref scope methods name := by
  obtain ⟨f, d, hd, hf, hp⟩ := hm
  have hr' : ref < (h.addFunction ⟨decl, scope⟩).1.objects.size := hr
  unfold Heap.bindMethod
  split
  · exact ⟨f, d, hd, hf, hp⟩
  · refine ⟨f, d, hd, ?_, ?_⟩
    · have hlt := (Array.getElem?_eq_some_iff.mp hf).1
      change (h.functions.push _)[f]? = _
      rw [Array.getElem?_push, if_neg (Nat.ne_of_lt hlt), hf]
    · change ((Heap.modifyObject _ ref _).object ref).get? _ = _
      rw [object_modifyObject hr', Table.get?_insert_ne _ hne]
      exact hp

end Heap
end Scriptlet
