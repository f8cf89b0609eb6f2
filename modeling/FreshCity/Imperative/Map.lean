import Mathlib.Data.List.AList
import Mathlib.Tactic

/-!
# Finite maps with an iteration order

A map is a duplicate-free association list. Its order is the order an iteration
visits the keys in, and writing to a key that is present does not change it.
-/
namespace Imperative

/-- Finite maps from `K` to `V`. -/
abbrev Map (K V : Type) : Type := AList fun _ : K => V

namespace Map
variable {K V : Type} [DecidableEq K]

/-- Rewrite the value of one key, in a list that may hold the key or not. -/
def adjustEntries (k : K) (f : V → V) (l : List (Sigma fun _ : K => V)) :
    List (Sigma fun _ : K => V) :=
  l.map fun e => ⟨e.1, if e.1 = k then f e.2 else e.2⟩

theorem keys_adjustEntries (k : K) (f : V → V) (l : List (Sigma fun _ : K => V)) :
    (adjustEntries k f l).keys = l.keys := by
  simp only [adjustEntries, List.keys, List.map_map]
  rfl

theorem dlookup_adjustEntries (k j : K) (f : V → V) (l : List (Sigma fun _ : K => V)) :
    (adjustEntries k f l).dlookup j = if j = k then (l.dlookup k).map f else l.dlookup j := by
  induction l with
  | nil => simp [adjustEntries]
  | cons c l ih =>
    obtain ⟨c, w⟩ := c
    have hcons : adjustEntries k f (⟨c, w⟩ :: l) =
        ⟨c, if c = k then f w else w⟩ :: adjustEntries k f l := rfl
    rw [hcons]
    by_cases hj : j = c
    · subst hj
      by_cases hk : j = k
      · subst hk; simp
      · simp [hk]
    · have hjc : ∀ (v : V) l', List.dlookup j (⟨c, v⟩ :: l' : List (Sigma fun _ : K => V)) =
          List.dlookup j l' := fun v l' => List.dlookup_cons_ne l' ⟨c, v⟩ hj
      rw [hjc, hjc, ih]
      by_cases hk : j = k
      · subst hk
        rw [if_pos rfl, if_pos rfl, hjc]
      · rw [if_neg hk, if_neg hk]

/-- Rewrite the value of a key, if the map has it. -/
def adjust (m : Map K V) (k : K) (f : V → V) : Map K V :=
  ⟨adjustEntries k f m.entries, by
    have h := m.nodupKeys
    rwa [List.NodupKeys, ← keys_adjustEntries k f] at h⟩

def values (m : Map K V) : List V := m.entries.map Sigma.snd

@[simp] theorem lookup_adjust (m : Map K V) (k j : K) (f : V → V) :
    (m.adjust k f).lookup j = if j = k then (m.lookup k).map f else m.lookup j :=
  dlookup_adjustEntries k j f m.entries

theorem lookup_adjust_self {m : Map K V} {k : K} {v : V} (h : m.lookup k = some v) (f : V → V) :
    (m.adjust k f).lookup k = some (f v) := by
  rw [lookup_adjust, if_pos rfl, h]
  rfl

/-- Nothing comes to be where a key is erased. -/
theorem lookup_of_lookup_erase {m : Map K V} {j k : K} {v : V}
    (h : (m.erase k).lookup j = some v) : m.lookup j = some v := by
  by_cases hj : j = k
  · subst hj
    simp at h
  · rwa [AList.lookup_erase_ne hj] at h

/-- A write that keeps a part of every value keeps it under every key. -/
theorem map_lookup_adjust {f : V → V} {g : V → α} (hg : ∀ v, g (f v) = g v) (m : Map K V)
    (k j : K) : ((m.adjust k f).lookup j).map g = (m.lookup j).map g := by
  rw [lookup_adjust]
  split
  case isTrue hj =>
    subst hj
    rw [Option.map_map]
    exact Option.map_congr fun v _ => hg v
  case isFalse => rfl

@[simp] theorem keys_adjust (m : Map K V) (k : K) (f : V → V) : (m.adjust k f).keys = m.keys :=
  keys_adjustEntries k f m.entries

@[simp] theorem mem_adjust (m : Map K V) (k j : K) (f : V → V) : j ∈ m.adjust k f ↔ j ∈ m := by
  rw [AList.mem_keys, AList.mem_keys, keys_adjust]

/-- Two writes to one key are one. -/
@[simp] theorem adjust_adjust (m : Map K V) (k : K) (f g : V → V) :
    adjust (m.adjust k f) k g = m.adjust k fun v => g (f v) := by
  refine AList.ext ?_
  simp only [adjust, adjustEntries, List.map_map]
  refine List.map_congr_left fun e _ => ?_
  by_cases h : e.1 = k <;> simp [h]

theorem adjustEntries_of_notMem {k : K} (f : V → V) {l : List (Sigma fun _ : K => V)}
    (h : k ∉ l.keys) : adjustEntries k f l = l := by
  have hne : ∀ e ∈ l, e.1 ≠ k := fun e he heq => h (heq ▸ List.mem_keys_of_mem he)
  refine (List.map_congr_left fun e he => ?_).trans (List.map_id l)
  simp [hne e he]

/-- Only what is written over the value that is there matters. -/
theorem adjust_congr {m : Map K V} {k : K} {f g : V → V}
    (h : ∀ v, m.lookup k = some v → f v = g v) : m.adjust k f = m.adjust k g := by
  refine AList.ext (List.map_congr_left fun e he => ?_)
  have hlookup : m.lookup e.1 = some e.2 := AList.mem_lookup_iff.mpr he
  by_cases hk : e.1 = k
  · simp [hk, h e.2 (hk ▸ hlookup)]
  · simp [hk]

/-- A write that changes nothing. -/
theorem adjust_eq_self {m : Map K V} {k : K} {f : V → V}
    (h : ∀ v, m.lookup k = some v → f v = v) : m.adjust k f = m := by
  rw [adjust_congr (g := id) h]
  refine AList.ext ((List.map_congr_left fun e _ => ?_).trans (List.map_id _))
  simp

theorem lookup_insert_ite (m : Map K V) (k j : K) (v : V) :
    (m.insert k v).lookup j = if j = k then some v else m.lookup j := by
  by_cases h : j = k
  · subst h; simp
  · simp [AList.lookup_insert_ne h, h]

/-- A map with one entry. -/
theorem lookup_insert_empty {k j : K} {v w : V} :
    ((∅ : Map K V).insert k v).lookup j = some w ↔ j = k ∧ v = w := by
  rw [lookup_insert_ite]
  split
  case isTrue h => simp [h]
  case isFalse h => simp [h]

theorem lookup_erase_ite (m : Map K V) (k j : K) :
    (m.erase k).lookup j = if j = k then none else m.lookup j := by
  by_cases h : j = k
  · subst h; simp
  · simp [AList.lookup_erase_ne h, h]

theorem mem_iff_lookup {m : Map K V} {k : K} : k ∈ m ↔ ∃ v, m.lookup k = some v := by
  rw [← AList.lookup_isSome, Option.isSome_iff_exists]

theorem erase_of_notMem {m : Map K V} {k : K} (h : k ∉ m) : m.erase k = m :=
  AList.ext (List.kerase_of_notMem_keys fun hk => h (AList.mem_keys.mpr hk))

theorem erase_insert_of_notMem {m : Map K V} {k : K} {v : V} (h : k ∉ m) :
    (AList.insert k v m).erase k = m := by
  refine AList.ext ?_
  have hentries : ((AList.insert k v m).erase k).entries =
      List.kerase k (AList.insert k v m).entries := rfl
  rw [hentries, AList.entries_insert_of_notMem h]
  exact List.kerase_cons_eq rfl

theorem mem_values_of_lookup {m : Map K V} {k : K} {v : V} (h : m.lookup k = some v) :
    v ∈ m.values :=
  List.mem_map.mpr ⟨⟨k, v⟩, AList.mem_lookup_iff.mp h, rfl⟩

/-! ## Values -/

variable {α : Type}

theorem values_insert {m : Map K V} {k : K} (v : V) (h : k ∉ m) :
    values (m.insert k v) = v :: m.values := by
  simp only [values, AList.entries_insert_of_notMem h, List.map_cons]

/-- A map without a key has the values of the map, less the one under the key. -/
theorem values_perm_erase {m : Map K V} {k : K} {v : V} (h : m.lookup k = some v) :
    m.values.Perm (v :: values (m.erase k)) := by
  have hmem : ⟨k, v⟩ ∈ m.entries := AList.mem_lookup_iff.mp h
  obtain ⟨w, l, l', -, hl, herase⟩ := List.exists_of_kerase (List.mem_keys_of_mem hmem)
  have hw : v = w := by
    have hw : m.lookup k = some w := AList.mem_lookup_iff.mpr (by simp [hl])
    exact Option.some.inj (h.symm.trans hw)
  have herase' : (m.erase k).entries = l ++ l' := herase
  simp only [values, hl, herase', List.map_append, List.map_cons, hw]
  exact List.perm_middle

theorem kerase_adjustEntries {k : K} (f : V → V) {l : List (Sigma fun _ : K => V)}
    (hl : l.NodupKeys) : List.kerase k (adjustEntries k f l) = List.kerase k l := by
  induction l with
  | nil => rfl
  | cons e l ih =>
    obtain ⟨c, w⟩ := e
    rw [List.nodupKeys_cons] at hl
    have hcons : adjustEntries k f (⟨c, w⟩ :: l) =
        ⟨c, if c = k then f w else w⟩ :: adjustEntries k f l := rfl
    rw [hcons]
    by_cases hk : k = c
    · have heq : ∀ (v : V) l', List.kerase k (⟨c, v⟩ :: l' : List (Sigma fun _ : K => V)) = l' :=
        fun v l' => @List.kerase_cons_eq K (fun _ => V) _ k ⟨c, v⟩ l' hk
      rw [heq, heq, adjustEntries_of_notMem f (hk ▸ hl.1)]
    · have hne : ∀ (v : V) l', List.kerase k (⟨c, v⟩ :: l' : List (Sigma fun _ : K => V)) =
          ⟨c, v⟩ :: List.kerase k l' := fun v l' => @List.kerase_cons_ne K (fun _ => V) _ k ⟨c, v⟩ l' hk
      rw [hne, hne, ih hl.2, if_neg (Ne.symm hk)]

/-- A write to a key is lost with the key. -/
theorem erase_adjust_self (m : Map K V) (k : K) (f : V → V) : (m.adjust k f).erase k = m.erase k :=
  AList.ext (kerase_adjustEntries f m.nodupKeys)

/-- What a write to one key makes of the values. -/
theorem values_adjust_perm {m : Map K V} {k : K} {v : V} (f : V → V) (h : m.lookup k = some v) :
    (m.adjust k f).values.Perm (f v :: values (m.erase k)) := by
  have hperm := values_perm_erase (lookup_adjust_self h f)
  rwa [erase_adjust_self] at hperm

/-- A write that keeps a part of every value keeps the keys with this part. -/
theorem map_entries_adjust {f : V → V} {g : V → α} (hg : ∀ v, g (f v) = g v) (m : Map K V) (k : K) :
    (m.adjust k f).entries.map (fun e => (e.1, g e.2)) = m.entries.map fun e => (e.1, g e.2) := by
  simp only [adjust, adjustEntries, List.map_map]
  refine List.map_congr_left fun e _ => ?_
  change (e.1, g (if e.1 = k then f e.2 else e.2)) = (e.1, g e.2)
  split
  · rw [hg]
  · rfl

/-- What a write keeps of every value is the same for all values. -/
theorem map_values_adjust {f : V → V} {g : V → α} (hg : ∀ v, g (f v) = g v) (m : Map K V) (k : K) :
    (m.adjust k f).values.map g = m.values.map g := by
  have hpairs := congrArg (List.map Prod.snd) (map_entries_adjust hg m k)
  simpa only [values, List.map_map, Function.comp_def] using hpairs

theorem sum_adjustEntries [AddCommGroup α] (g : V → α) {k : K} {v : V} (f : V → V)
    {l : List (Sigma fun _ : K => V)} (hl : l.NodupKeys) (h : l.dlookup k = some v) :
    ((adjustEntries k f l).map fun e => g e.2).sum =
      (l.map fun e => g e.2).sum + (g (f v) - g v) := by
  induction l with
  | nil => cases h
  | cons e l ih =>
    obtain ⟨c, w⟩ := e
    rw [List.nodupKeys_cons] at hl
    have hcons : adjustEntries k f (⟨c, w⟩ :: l) =
        ⟨c, if c = k then f w else w⟩ :: adjustEntries k f l := rfl
    rw [hcons, List.map_cons, List.map_cons, List.sum_cons, List.sum_cons]
    by_cases hk : c = k
    · subst hk
      rw [List.dlookup_cons_eq, Option.some.injEq] at h
      subst h
      rw [adjustEntries_of_notMem f hl.1, if_pos rfl]
      abel
    · rw [List.dlookup_cons_ne l ⟨c, w⟩ (Ne.symm hk)] at h
      rw [ih hl.2 h, if_neg hk]
      abel

/-- What a write to one key does to a sum over all values. -/
theorem sum_values_adjust [AddCommGroup α] (g : V → α) {m : Map K V} {k : K} {v : V} (f : V → V)
    (h : m.lookup k = some v) :
    ((m.adjust k f).values.map g).sum = (m.values.map g).sum + (g (f v) - g v) := by
  simp only [values, adjust, List.map_map]
  exact sum_adjustEntries g f m.nodupKeys h

end Map
end Imperative
