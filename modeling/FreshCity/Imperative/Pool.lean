import FreshCity.Imperative.Map

/-!
# Pools of live ids

A pool gives out ids and takes them back. The ids that are live are accounted for if each
is held once: by an object of a map, or in hand on the way between two of them.
-/
namespace Imperative

variable {I V K : Type}

/-- The live ids are those that are held, each once. -/
structure Held (live held : List I) : Prop where
  nodup : live.Nodup
  perm : live.Perm held

namespace Held
variable {live held held' : List I} {i : I}

/-- It does not matter who holds an id. -/
theorem pass (h : Held live held) (hperm : held.Perm held') : Held live held' :=
  ⟨h.nodup, h.perm.trans hperm⟩

theorem create (h : Held live held) (hi : i ∉ live) : Held (i :: live) (i :: held) :=
  ⟨List.nodup_cons.mpr ⟨hi, h.nodup⟩, h.perm.cons i⟩

/-- An id that is held is live, and nobody holds it once it is given back. -/
theorem destroy [DecidableEq I] (h : Held live (i :: held)) : Held (live.erase i) held := by
  refine ⟨h.nodup.erase i, ?_⟩
  have hperm := h.perm.erase i
  rwa [List.erase_cons_head] at hperm

end Held

/-! ## Ids held by the objects of a map -/

namespace Map
variable [DecidableEq K] {m : Map K V} {k : K} {v : V} {idOf : V → Option I} {f : V → V}

/-- The ids the objects of a map hold. -/
def gather (idOf : V → Option I) (m : Map K V) : List I := m.values.filterMap idOf

omit [DecidableEq K] in
@[simp] theorem gather_empty : gather idOf (∅ : Map K V) = [] := rfl

omit [DecidableEq K] in
theorem gather_some (g : V → I) : gather (fun v => some (g v)) m = m.values.map g :=
  congrFun List.filterMap_eq_map' m.values

theorem filterMap_cons_eq (v : V) (vs : List V) :
    (v :: vs).filterMap idOf = (idOf v).toList ++ vs.filterMap idOf := by
  cases h : idOf v <;> simp [h]

/-- A new object brings what it holds. -/
theorem gather_insert (h : k ∉ m) :
    gather idOf (AList.insert k v m) = (idOf v).toList ++ gather idOf m := by
  rw [gather, values_insert v h, filterMap_cons_eq]
  rfl

/-- An object that goes leaves what it held. -/
theorem gather_erase (h : m.lookup k = some v) :
    (gather idOf m).Perm ((idOf v).toList ++ gather idOf (AList.erase k m)) := by
  have hperm := (values_perm_erase h).filterMap idOf
  rwa [filterMap_cons_eq] at hperm

/-- An object that changes holds something else afterwards. -/
theorem gather_adjust (h : m.lookup k = some v) :
    (gather idOf (m.adjust k f)).Perm ((idOf (f v)).toList ++ gather idOf (AList.erase k m)) := by
  have hperm := (values_adjust_perm f h).filterMap idOf
  rwa [filterMap_cons_eq] at hperm

/-- A change that leaves alone what the objects hold. -/
theorem gather_adjust_same (hf : ∀ v, idOf (f v) = idOf v) :
    gather idOf (m.adjust k f) = gather idOf m := by
  have hmap := congrArg (List.filterMap id) (map_values_adjust (g := idOf) hf m k)
  rwa [List.filterMap_map, List.filterMap_map, Function.id_comp] at hmap

end Map
end Imperative
