/-
  NotifyHub.Lib.OMap — maps that keep insertion order, as a JavaScript `Map` does.

  A map is its list of entries, oldest first, with no key twice. `set` of a present
  key keeps the key's place; `delete` followed by `set` moves it to the end. Deleting
  during a `for ... of` over the map is `filter`; the eviction loop "while the size is
  above n, delete the first key" is `evict n`.
-/

import Mathlib.Data.List.Basic
import Mathlib.Data.List.Find
import Mathlib.Data.List.Nodup

namespace NotifyHub

structure OMap (κ α : Type) where
  entries : List (κ × α)
  nodup : (entries.map (·.1)).Nodup

namespace OMap

variable {κ α : Type}

@[ext] theorem ext {m n : OMap κ α} (h : m.entries = n.entries) : m = n := by
  cases m; cases n; cases h; rfl

def empty : OMap κ α := ⟨[], List.nodup_nil⟩

def keys (m : OMap κ α) : List κ := m.entries.map (·.1)

def values (m : OMap κ α) : List α := m.entries.map (·.2)

def size (m : OMap κ α) : Nat := m.entries.length

theorem nodup_filter {l : List (κ × α)} (h : (l.map (·.1)).Nodup) (p : κ × α → Bool) :
    ((l.filter p).map (·.1)).Nodup := h.sublist ((List.filter_sublist).map _)

/-- Drop every entry `p` rejects. -/
def filter (m : OMap κ α) (p : κ → α → Bool) : OMap κ α :=
  ⟨m.entries.filter fun e => p e.1 e.2, nodup_filter m.nodup _⟩

/-- Drop the oldest entries until at most `n` are left. -/
def evict (m : OMap κ α) (n : Nat) : OMap κ α :=
  ⟨m.entries.drop (m.size - n), m.nodup.sublist ((List.drop_sublist _ _).map _)⟩

@[simp] theorem entries_empty : (empty : OMap κ α).entries = [] := rfl
@[simp] theorem values_empty : (empty : OMap κ α).values = [] := rfl
@[simp] theorem keys_empty : (empty : OMap κ α).keys = [] := rfl

@[simp] theorem entries_filter (m : OMap κ α) (p : κ → α → Bool) :
    (m.filter p).entries = m.entries.filter fun e => p e.1 e.2 := rfl

theorem values_filter_subset {m : OMap κ α} {p : κ → α → Bool} : (m.filter p).values ⊆ m.values :=
  List.map_subset _ (List.filter_subset_self _)

theorem size_evict (m : OMap κ α) (n : Nat) : (m.evict n).size = min m.size n := by
  rw [size, evict, List.length_drop, ← size]; omega

theorem evict_eq_self {m : OMap κ α} {n : Nat} (h : m.size ≤ n) : m.evict n = m := by
  apply ext
  show m.entries.drop (m.size - n) = m.entries
  rw [Nat.sub_eq_zero_of_le h, List.drop_zero]

variable [DecidableEq κ]

def get (m : OMap κ α) (k : κ) : Option α := (m.entries.find? (·.1 = k)).map (·.2)

def has (m : OMap κ α) (k : κ) : Bool := (m.get k).isSome

def delete (m : OMap κ α) (k : κ) : OMap κ α := m.filter fun k' _ => k' ≠ k

theorem mem_of_get {m : OMap κ α} {k : κ} {v : α} (h : m.get k = some v) : (k, v) ∈ m.entries := by
  obtain ⟨e, he, rfl⟩ := Option.map_eq_some_iff.mp h
  have hk : e.1 = k := by simpa using List.find?_some he
  exact hk ▸ List.mem_of_find?_eq_some he

theorem find_of_mem {l : List (κ × α)} {k : κ} {v : α} (hn : (l.map (·.1)).Nodup) (h : (k, v) ∈ l) :
    l.find? (·.1 = k) = some (k, v) := by
  induction l with
  | nil => cases h
  | cons e l ih =>
    rw [List.map_cons, List.nodup_cons] at hn
    rcases List.mem_cons.mp h with rfl | h
    · simp
    · have hne : e.1 ≠ k := fun he => hn.1 (he ▸ List.mem_map_of_mem (f := (·.1)) h)
      rw [List.find?_cons_of_neg (by simpa using hne)]
      exact ih hn.2 h

theorem get_eq_some {m : OMap κ α} {k : κ} {v : α} : m.get k = some v ↔ (k, v) ∈ m.entries :=
  ⟨mem_of_get, fun h => by simp [get, find_of_mem m.nodup h]⟩

theorem get_eq_none {m : OMap κ α} {k : κ} : m.get k = none ↔ k ∉ m.keys := by
  constructor
  · intro h hk
    obtain ⟨e, he, rfl⟩ := List.mem_map.mp hk
    rw [get_eq_some.mpr (show (e.1, e.2) ∈ m.entries from he)] at h
    cases h
  · intro h
    cases hg : m.get k with
    | none => rfl
    | some v => exact absurd (List.mem_map_of_mem (f := (·.1)) (mem_of_get hg)) h

theorem mem_keys {m : OMap κ α} {k : κ} : k ∈ m.keys ↔ ∃ v, m.get k = some v := by
  rw [← not_iff_not, ← get_eq_none, Option.eq_none_iff_forall_ne_some, not_exists]

theorem mem_values {m : OMap κ α} {v : α} : v ∈ m.values ↔ ∃ k, m.get k = some v := by
  constructor
  · intro h
    obtain ⟨e, he, rfl⟩ := List.mem_map.mp h
    exact ⟨e.1, get_eq_some.mpr he⟩
  · rintro ⟨k, h⟩
    exact List.mem_map_of_mem (f := (·.2)) (mem_of_get h)

theorem has_eq_true {m : OMap κ α} {k : κ} : m.has k = true ↔ k ∈ m.keys := by
  rw [mem_keys, has, Option.isSome_iff_exists]

@[simp] theorem get_empty (k : κ) : (empty : OMap κ α).get k = none := rfl

/-! ## Replacing and adding -/

theorem keys_replace (l : List (κ × α)) (k : κ) (v : α) :
    (l.map fun e => if e.1 = k then (k, v) else e).map (·.1) = l.map (·.1) := by
  rw [List.map_map]
  refine List.map_congr_left fun e _ => ?_
  by_cases h : e.1 = k <;> simp [h]

def set (m : OMap κ α) (k : κ) (v : α) : OMap κ α :=
  if h : k ∈ m.keys then
    ⟨m.entries.map fun e => if e.1 = k then (k, v) else e, by rw [keys_replace]; exact m.nodup⟩
  else
    ⟨m.entries ++ [(k, v)], by
      rw [List.map_append]
      exact m.nodup.append (List.nodup_singleton _) (List.disjoint_singleton.mpr h)⟩

theorem entries_set_of_mem {m : OMap κ α} {k : κ} (v : α) (h : k ∈ m.keys) :
    (m.set k v).entries = m.entries.map fun e => if e.1 = k then (k, v) else e := by
  simp [set, h]

theorem entries_set_of_not_mem {m : OMap κ α} {k : κ} (v : α) (h : k ∉ m.keys) :
    (m.set k v).entries = m.entries ++ [(k, v)] := by
  simp [set, h]

theorem mem_set {m : OMap κ α} {k : κ} {v : α} {e : κ × α} :
    e ∈ (m.set k v).entries ↔ e = (k, v) ∨ (e ∈ m.entries ∧ e.1 ≠ k) := by
  by_cases h : k ∈ m.keys
  · rw [entries_set_of_mem v h, List.mem_map]
    constructor
    · rintro ⟨e', he', rfl⟩
      by_cases hk : e'.1 = k
      · simp [hk]
      · rw [if_neg hk]; exact Or.inr ⟨he', hk⟩
    · rintro (rfl | ⟨he, hk⟩)
      · obtain ⟨v', hv⟩ := mem_keys.mp h
        exact ⟨(k, v'), mem_of_get hv, by simp⟩
      · exact ⟨e, he, by rw [if_neg hk]⟩
  · rw [entries_set_of_not_mem v h, List.mem_append, List.mem_singleton]
    constructor
    · rintro (he | rfl)
      · exact Or.inr ⟨he, fun hk => h (hk ▸ List.mem_map_of_mem (f := (·.1)) he)⟩
      · exact Or.inl rfl
    · rintro (rfl | ⟨he, -⟩)
      · exact Or.inr rfl
      · exact Or.inl he

@[simp] theorem get_set_self (m : OMap κ α) (k : κ) (v : α) : (m.set k v).get k = some v :=
  get_eq_some.mpr (mem_set.mpr (Or.inl rfl))

theorem get_set_ne (m : OMap κ α) {k k' : κ} (v : α) (h : k' ≠ k) : (m.set k v).get k' = m.get k' := by
  refine Option.ext fun v' => ?_
  rw [get_eq_some, get_eq_some, mem_set]
  simp [h]

theorem get_set (m : OMap κ α) (k k' : κ) (v : α) :
    (m.set k v).get k' = if k' = k then some v else m.get k' := by
  by_cases h : k' = k
  · subst h; simp
  · rw [if_neg h, get_set_ne m v h]

theorem keys_set_of_mem {m : OMap κ α} {k : κ} (v : α) (h : k ∈ m.keys) : (m.set k v).keys = m.keys := by
  rw [keys, entries_set_of_mem v h, keys_replace]; rfl

theorem keys_set_of_not_mem {m : OMap κ α} {k : κ} (v : α) (h : k ∉ m.keys) :
    (m.set k v).keys = m.keys ++ [k] := by
  simp [keys, entries_set_of_not_mem v h]

theorem values_set_of_not_mem {m : OMap κ α} {k : κ} (v : α) (h : k ∉ m.keys) :
    (m.set k v).values = m.values ++ [v] := by
  simp [values, entries_set_of_not_mem v h]

theorem mem_keys_set {m : OMap κ α} {k k' : κ} {v : α} : k' ∈ (m.set k v).keys ↔ k' = k ∨ k' ∈ m.keys := by
  by_cases h : k ∈ m.keys
  · rw [keys_set_of_mem v h]
    exact ⟨Or.inr, fun h' => h'.elim (· ▸ h) id⟩
  · rw [keys_set_of_not_mem v h, List.mem_append, List.mem_singleton, or_comm]

theorem size_set_le (m : OMap κ α) (k : κ) (v : α) : (m.set k v).size ≤ m.size + 1 := by
  have hsize : ∀ m : OMap κ α, m.size = m.keys.length := fun m => (List.length_map _).symm
  by_cases h : k ∈ m.keys
  · rw [hsize, keys_set_of_mem v h, ← hsize]
    exact Nat.le_succ _
  · rw [hsize, keys_set_of_not_mem v h, List.length_append, ← hsize]
    exact Nat.le_refl _

/-! ## Building -/

/-- `m.set(key(v), v)` for every `v` of a list. -/
def addAll (key : α → κ) (l : List α) (m : OMap κ α) : OMap κ α := l.foldl (fun m v => m.set (key v) v) m

theorem get_addAll {key : α → κ} {l : List α} {m : OMap κ α} {k : κ} {v : α} (h : (m.addAll key l).get k = some v) :
    m.get k = some v ∨ v ∈ l ∧ key v = k := by
  induction l generalizing m with
  | nil => exact Or.inl h
  | cons w l ih =>
    rcases ih h with h | ⟨hv, hk⟩
    · rw [get_set] at h
      split at h
      · rename_i hk
        cases h
        exact Or.inr ⟨List.mem_cons_self, hk.symm⟩
      · exact Or.inl h
    · exact Or.inr ⟨List.mem_cons_of_mem _ hv, hk⟩

theorem mem_keys_addAll {key : α → κ} {l : List α} {m : OMap κ α} {k : κ} :
    k ∈ (m.addAll key l).keys ↔ k ∈ m.keys ∨ ∃ v ∈ l, key v = k := by
  induction l generalizing m with
  | nil => simp [addAll]
  | cons w l ih =>
    have hstep : m.addAll key (w :: l) = (m.set (key w) w).addAll key l := rfl
    rw [hstep, ih, mem_keys_set, List.exists_mem_cons_iff, or_assoc, or_left_comm, eq_comm (a := k)]

/-- The last value of a key wins, so the only one does. -/
theorem get_addAll_of_mem {key : α → κ} {l : List α} (hl : (l.map key).Nodup) {v : α} (hv : v ∈ l) (m : OMap κ α) :
    (m.addAll key l).get (key v) = some v := by
  induction l generalizing m with
  | nil => cases hv
  | cons w l ih =>
    obtain ⟨hw, hl⟩ := List.nodup_cons.mp hl
    have hstep : m.addAll key (w :: l) = (m.set (key w) w).addAll key l := rfl
    rw [hstep]
    rcases List.mem_cons.mp hv with rfl | hv
    · have hmem : key v ∈ ((m.set (key v) v).addAll key l).keys :=
        mem_keys_addAll.mpr (Or.inl (mem_keys_set.mpr (Or.inl rfl)))
      obtain ⟨w, hget⟩ := mem_keys.mp hmem
      rcases get_addAll hget with hget' | ⟨hwl, hkey⟩
      · rw [get_set_self] at hget'
        cases hget'
        exact hget
      · exact absurd (List.mem_map.mpr ⟨w, hwl, hkey⟩) hw
    · exact ih hl hv _

/-- What is put in goes before what was there. -/
theorem get_addAll_or (key : α → κ) (l : List α) (m : OMap κ α) (k : κ) :
    (m.addAll key l).get k = ((addAll key l empty).get k).or (m.get k) := by
  induction l generalizing m with
  | nil => rfl
  | cons w l ih =>
    have hstep : ∀ m : OMap κ α, m.addAll key (w :: l) = (m.set (key w) w).addAll key l := fun _ => rfl
    rw [hstep, hstep, ih, ih (empty.set (key w) w), get_set, get_set, get_empty, Option.or_assoc]
    congr 1
    split
    · rfl
    · exact (Option.none_or ..).symm

theorem size_addAll_le (key : α → κ) (l : List α) (m : OMap κ α) : (m.addAll key l).size ≤ m.size + l.length := by
  induction l generalizing m with
  | nil => exact Nat.le_refl _
  | cons w l ih =>
    have hstep := ih (m.set (key w) w)
    have hset := size_set_le m (key w) w
    rw [List.length_cons]
    exact Nat.le_trans hstep (by omega)

/-- `{...m, ...n}` -/
def merge (m n : OMap κ α) : OMap κ α := n.entries.foldl (fun m e => m.set e.1 e.2) m

theorem get_foldl_set (l : List (κ × α)) (hl : (l.map (·.1)).Nodup) (m : OMap κ α) (k : κ) :
    (l.foldl (fun m e => m.set e.1 e.2) m).get k = ((l.find? (·.1 = k)).map (·.2)).or (m.get k) := by
  induction l generalizing m with
  | nil => rfl
  | cons e l ih =>
    obtain ⟨he, hl⟩ := List.nodup_cons.mp hl
    rw [List.foldl_cons, ih hl, List.find?_cons, get_set]
    by_cases hk : e.1 = k
    · have hnone : l.find? (fun e => decide (e.1 = k)) = none := by
        refine List.find?_eq_none.mpr fun e' he' hk' => he ?_
        exact List.mem_map.mpr ⟨e', he', (of_decide_eq_true hk').trans hk.symm⟩
      simp [hk, hnone]
    · simp [hk, Ne.symm hk]

theorem get_merge (m n : OMap κ α) (k : κ) : (m.merge n).get k = (n.get k).or (m.get k) :=
  get_foldl_set n.entries n.nodup m k

/-! ## Deleting -/

theorem get_filter (m : OMap κ α) (p : κ → α → Bool) (k : κ) :
    (m.filter p).get k = (m.get k).filter (p k) := by
  refine Option.ext fun v => ?_
  rw [get_eq_some, entries_filter, List.mem_filter, Option.filter_eq_some_iff, get_eq_some]

/-- What is left after an eviction was there before. -/
theorem get_of_evict {m : OMap κ α} {n : Nat} {k : κ} {v : α} (h : (m.evict n).get k = some v) : m.get k = some v :=
  get_eq_some.mpr (List.mem_of_mem_drop (get_eq_some.mp h))

/-- Eviction takes out the oldest keys above the bound. -/
theorem get_evict (m : OMap κ α) (n : Nat) (k : κ) :
    (m.evict n).get k = if k ∈ m.keys.take (m.size - n) then none else m.get k := by
  have hsplit : m.entries.take (m.size - n) ++ (m.evict n).entries = m.entries := List.take_append_drop ..
  have hkeys : m.keys.take (m.size - n) = (m.entries.take (m.size - n)).map (·.1) := List.map_take.symm
  have hnodup := m.nodup
  rw [← hsplit, List.map_append, List.nodup_append] at hnodup
  split
  · rename_i hk
    rw [get_eq_none]
    intro hmem
    exact hnodup.2.2 k (hkeys ▸ hk) k hmem rfl
  · rename_i hk
    refine Option.ext fun v => ?_
    rw [get_eq_some, get_eq_some]
    refine ⟨List.mem_of_mem_drop, fun hmem => ?_⟩
    rw [← hsplit] at hmem
    refine (List.mem_append.mp hmem).resolve_left fun htake => hk ?_
    rw [hkeys]
    exact List.mem_map_of_mem (f := (·.1)) htake

/-- The entry just added is not evicted. -/
theorem get_set_evict_self {m : OMap κ α} {n : Nat} {k : κ} {v : α} (hk : k ∉ m.keys) (hn : 0 < n) :
    ((m.set k v).evict n).get k = some v := by
  have hlen : (m.set k v).size = m.keys.length + 1 := by
    rw [size, entries_set_of_not_mem v hk, List.length_append, List.length_singleton, keys, List.length_map]
  rw [get_evict, hlen, keys_set_of_not_mem v hk, List.take_append_of_le_length (by omega),
    if_neg fun h => hk (List.mem_of_mem_take h),
    get_set_self]

@[simp] theorem get_delete_self (m : OMap κ α) (k : κ) : (m.delete k).get k = none := by
  rw [delete, get_filter]; cases m.get k <;> simp

theorem size_le_set (m : OMap κ α) (k : κ) (v : α) : m.size ≤ (m.set k v).size := by
  have hsize : ∀ m : OMap κ α, m.size = m.keys.length := fun m => (List.length_map _).symm
  rw [hsize, hsize]
  by_cases hk : k ∈ m.keys
  · rw [keys_set_of_mem v hk]
  · rw [keys_set_of_not_mem v hk, List.length_append]; omega

theorem get_delete_ne (m : OMap κ α) {k k' : κ} (h : k' ≠ k) : (m.delete k).get k' = m.get k' := by
  rw [delete, get_filter]
  cases m.get k' <;> simp [h]

theorem get_delete (m : OMap κ α) (k k' : κ) :
    (m.delete k).get k' = if k' = k then none else m.get k' := by
  by_cases h : k' = k
  · subst h; simp
  · rw [if_neg h, get_delete_ne m h]

/-- Replacing a value by one with the same image leaves the images as they are. -/
theorem map_values_set {β : Type} {m : OMap κ α} {k : κ} {v v' : α} (f : α → β) (h : m.get k = some v)
    (hf : f v' = f v) :
    (m.set k v').values.map f = m.values.map f := by
  rw [values, values, entries_set_of_mem v' (mem_keys.mpr ⟨v, h⟩), List.map_map, List.map_map, List.map_map]
  refine List.map_congr_left fun e he => ?_
  by_cases hek : e.1 = k
  · have hev : e.2 = v := Option.some.inj ((get_eq_some.mpr (hek ▸ he : (k, e.2) ∈ m.entries)).symm.trans h)
    simp [hek, hev, hf]
  · simp [hek]

/-! ## Part of a map

  What `set` and `delete` do to the entries `p` keeps. -/

theorem filter_set_of_pos {m : OMap κ α} {p : κ → α → Bool} {k : κ} {v : α} (hv : p k v = true)
    (hold : ∀ v', m.get k = some v' → p k v' = true) : (m.set k v).filter p = (m.filter p).set k v := by
  have hkeys : k ∈ (m.filter p).keys ↔ k ∈ m.keys := by
    rw [mem_keys, mem_keys]
    constructor
    · rintro ⟨v', h⟩
      rw [get_filter] at h
      exact ⟨v', (Option.filter_eq_some_iff.mp h).1⟩
    · rintro ⟨v', h⟩
      exact ⟨v', by rw [get_filter, h, Option.filter_some, if_pos (hold v' h)]⟩
  by_cases hk : k ∈ m.keys
  · refine ext ?_
    rw [entries_filter, entries_set_of_mem v hk, entries_set_of_mem v (hkeys.mpr hk), entries_filter, List.filter_map]
    congr 1
    refine List.filter_congr fun e he => ?_
    by_cases hek : e.1 = k
    · have := hold e.2 (hek ▸ get_eq_some.mpr he)
      simp [hek, hv, this]
    · simp [hek]
  · refine ext ?_
    rw [entries_filter, entries_set_of_not_mem v hk, entries_set_of_not_mem v fun h => hk (hkeys.mp h),
      List.filter_append, entries_filter]
    simp [hv]

theorem filter_set_of_neg {m : OMap κ α} {p : κ → α → Bool} {k : κ} {v : α} (hv : p k v = false)
    (hold : ∀ v', m.get k = some v' → p k v' = false) : (m.set k v).filter p = m.filter p := by
  refine ext ?_
  by_cases hk : k ∈ m.keys
  · rw [entries_filter, entries_filter, entries_set_of_mem v hk, List.filter_map]
    have hcongr : m.entries.filter ((fun e => p e.1 e.2) ∘ fun e => if e.1 = k then (k, v) else e) =
        m.entries.filter fun e => p e.1 e.2 := by
      refine List.filter_congr fun e he => ?_
      by_cases hek : e.1 = k
      · have := hold e.2 (hek ▸ get_eq_some.mpr he)
        simp [hek, hv, this]
      · simp [hek]
    rw [hcongr]
    refine List.map_congr_left (fun e he => ?_) |>.trans (List.map_id _)
    obtain ⟨he, hp⟩ := List.mem_filter.mp he
    rw [if_neg]
    · rfl
    · rintro rfl
      rw [hold e.2 (get_eq_some.mpr he)] at hp; cases hp
  · rw [entries_filter, entries_filter, entries_set_of_not_mem v hk, List.filter_append]
    simp [hv]

omit [DecidableEq κ] in
theorem filter_filter (m : OMap κ α) (p q : κ → α → Bool) : (m.filter p).filter q = (m.filter q).filter p :=
  ext (List.filter_comm ..)

theorem filter_eq_self {m : OMap κ α} {p : κ → α → Bool} (h : ∀ k v, m.get k = some v → p k v = true) :
    m.filter p = m :=
  ext (List.filter_eq_self.mpr fun e he => h e.1 e.2 (get_eq_some.mpr he))

/-! ## Changing the values -/

/-- The same keys, each with the image of its value. -/
def map {β : Type} (f : α → β) (m : OMap κ α) : OMap κ β :=
  ⟨m.entries.map fun e => (e.1, f e.2), by rw [List.map_map]; exact m.nodup⟩

section
variable {β : Type}

theorem get_map (f : α → β) (m : OMap κ α) (k : κ) : (m.map f).get k = (m.get k).map f := by
  refine Option.ext fun v => ?_
  rw [get_eq_some, Option.map_eq_some_iff]
  constructor
  · intro h
    obtain ⟨e, he, hv⟩ := List.mem_map.mp h
    cases hv
    exact ⟨e.2, get_eq_some.mpr he, rfl⟩
  · rintro ⟨x, hx, rfl⟩
    exact List.mem_map_of_mem (f := fun e : κ × α => (e.1, f e.2)) (get_eq_some.mp hx)

omit [DecidableEq κ] in
theorem keys_map (f : α → β) (m : OMap κ α) : (m.map f).keys = m.keys := by
  rw [keys, keys, map, List.map_map]; rfl

omit [DecidableEq κ] in
theorem values_map (f : α → β) (m : OMap κ α) : (m.map f).values = m.values.map f := by
  rw [values, values, map, List.map_map, List.map_map]; rfl

theorem map_set (f : α → β) (m : OMap κ α) (k : κ) (v : α) : (m.set k v).map f = (m.map f).set k (f v) := by
  refine ext ?_
  by_cases hk : k ∈ m.keys
  · rw [entries_set_of_mem _ (by rw [keys_map]; exact hk)]
    simp only [map, entries_set_of_mem v hk, List.map_map]
    refine List.map_congr_left fun e _ => ?_
    by_cases hek : e.1 = k <;> simp [hek]
  · rw [entries_set_of_not_mem _ (by rw [keys_map]; exact hk)]
    simp only [map, entries_set_of_not_mem v hk, List.map_append, List.map_cons, List.map_nil]

omit [DecidableEq κ] in
theorem map_filter (f : α → β) (m : OMap κ α) (p : κ → β → Bool) :
    (m.map f).filter p = (m.filter fun k v => p k (f v)).map f := by
  refine ext ?_
  simp only [map, entries_filter, List.filter_map]; rfl

end

/-! ## Values with an identity of their own

  Where a key is found exactly on the value that `same` picks out, the map is the list
  of its values. -/

/-- Replace what `same` picks out, or add to the end. -/
def upsert (same : α → Bool) (v : α) (l : List α) : List α :=
  if l.any same then l.map fun x => if same x then v else x else l ++ [v]

/-- The entry of this key is the one `same` picks out. -/
def Names (m : OMap κ α) (k : κ) (same : α → Bool) : Prop := ∀ k' v, m.get k' = some v → (k' = k ↔ same v = true)

theorem Names.mem {m : OMap κ α} {k : κ} {same : α → Bool} (h : m.Names k same) {e : κ × α} (he : e ∈ m.entries) :
    e.1 = k ↔ same e.2 = true := h e.1 e.2 (get_eq_some.mpr he)

theorem Names.get {m : OMap κ α} {k : κ} {same : α → Bool} (h : m.Names k same) : m.get k = m.values.find? same := by
  rw [OMap.get, values, List.find?_map]
  refine congrArg _ (List.find?_congr fun e he => ?_)
  rw [Bool.eq_iff_iff, decide_eq_true_iff]
  exact h.mem he

theorem Names.delete {m : OMap κ α} {k : κ} {same : α → Bool} (h : m.Names k same) :
    (m.delete k).values = m.values.filter fun v => !same v := by
  rw [OMap.delete, values, values, entries_filter, List.filter_map]
  congr 1
  refine List.filter_congr fun e he => ?_
  rw [Bool.eq_iff_iff]
  simp [h.mem he]

theorem Names.set {m : OMap κ α} {k : κ} {same : α → Bool} (h : m.Names k same) (v : α) :
    (m.set k v).values = upsert same v m.values := by
  have hany : m.values.any same = true ↔ k ∈ m.keys := by
    rw [List.any_eq_true, keys, values, List.mem_map]
    constructor
    · rintro ⟨x, hx, hs⟩
      obtain ⟨e, he, rfl⟩ := List.mem_map.mp hx
      exact ⟨e, he, (h.mem he).mpr hs⟩
    · rintro ⟨e, he, hk⟩
      exact ⟨e.2, List.mem_map_of_mem he, (h.mem he).mp hk⟩
  unfold upsert
  by_cases hk : k ∈ m.keys
  · rw [if_pos (hany.mpr hk), values, values, entries_set_of_mem v hk, List.map_map, List.map_map]
    refine List.map_congr_left fun e he => ?_
    by_cases hek : e.1 = k
    · simp [hek, (h.mem he).mp hek]
    · have : same e.2 ≠ true := fun hs => hek ((h.mem he).mpr hs)
      simp [hek, this]
  · rw [if_neg fun ha => hk (hany.mp ha)]
    exact values_set_of_not_mem v hk

theorem filter_upsert_of_pos {same q : α → Bool} {v : α} {l : List α} (hv : q v = true)
    (hq : ∀ x, same x = true → q x = true) : (upsert same v l).filter q = upsert same v (l.filter q) := by
  have hany : (l.filter q).any same = l.any same := by
    rw [List.any_filter]
    congr 1
    funext x
    by_cases hs : same x = true
    · simp [hs, hq x hs]
    · simp [hs]
  unfold upsert
  rw [hany]
  split
  · rw [List.filter_map]
    congr 1
    refine List.filter_congr fun x _ => ?_
    by_cases hs : same x = true
    · simp [hs, hv, hq x hs]
    · simp [hs]
  · rw [List.filter_append]
    simp [hv]

theorem filter_upsert_of_neg {same q : α → Bool} {v : α} {l : List α} (hv : q v = false)
    (hq : ∀ x, same x = true → q x = false) : (upsert same v l).filter q = l.filter q := by
  unfold upsert
  split
  · rw [List.filter_map]
    have hcongr : l.filter (q ∘ fun x => if same x = true then v else x) = l.filter q := by
      refine List.filter_congr fun x _ => ?_
      by_cases hs : same x = true
      · simp [hs, hv, hq x hs]
      · simp [hs]
    rw [hcongr]
    refine List.map_congr_left (fun x hx => ?_) |>.trans (List.map_id _)
    rw [if_neg]
    · rfl
    · intro hs
      have := (List.mem_filter.mp hx).2
      rw [hq x hs] at this; cases this
  · rw [List.filter_append]
    simp [hv]

end OMap

end NotifyHub
