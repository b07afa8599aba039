import Mathlib

/-!
# OrdMap — finite maps held in key order

A finite map as its association list in strictly increasing key order,
the order being a field of the structure. The list is then canonical:
two maps that answer every lookup alike are equal (`OrdMap.ext_get?`),
so a round trip may be stated as an equality and proved one key at a
time. All recursion is structural, so maps over concrete keys evaluate.
-/

namespace OrdMap.Entries

variable {α : Type*} {β : Type*} [LinearOrder α]

/-- The value at `k`: the first entry under that key. -/
def find (k : α) : List (α × β) → Option β
  | [] => none
  | (k', v) :: rest => if k' = k then some v else find k rest

/-- `v` at `k`, replacing an entry under that key or entering it before
the first greater key. -/
def insert (k : α) (v : β) : List (α × β) → List (α × β)
  | [] => [(k, v)]
  | (k', v') :: rest =>
      if k < k' then (k, v) :: (k', v') :: rest
      else if k' = k then (k, v) :: rest
      else (k', v') :: insert k v rest

/-- Every key of the list is above `k`. -/
def Above (k : α) (l : List (α × β)) : Prop := ∀ p ∈ l, k < p.1

/-- Keys strictly increase along the list. -/
def Sorted (l : List (α × β)) : Prop := l.Pairwise (fun p q => p.1 < q.1)

instance (l : List (α × β)) : Decidable (Sorted l) :=
  inferInstanceAs (Decidable (l.Pairwise (fun p q => p.1 < q.1)))

theorem sorted_cons {p : α × β} {l : List (α × β)} :
    Sorted (p :: l) ↔ Above p.1 l ∧ Sorted l := List.pairwise_cons

theorem find_of_above {k : α} {l : List (α × β)} (h : Above k l) : find k l = none := by
  induction l with
  | nil => rfl
  | cons p rest ih =>
    obtain ⟨k', v⟩ := p
    have hk : k < k' := h (k', v) (by simp)
    simp only [find, if_neg (ne_of_gt hk)]
    exact ih (fun q hq => h q (by simp [hq]))

theorem find_insert (k k' : α) (v : β) (l : List (α × β)) :
    find k' (insert k v l) = if k = k' then some v else find k' l := by
  induction l with
  | nil => simp [insert, find]
  | cons p rest ih =>
    obtain ⟨k₀, v₀⟩ := p
    simp only [insert]
    split
    · simp [find]
    · split
      · rename_i heq
        subst heq
        by_cases hk : k₀ = k' <;> simp [find, hk]
      · rename_i hne
        simp only [find, ih]
        by_cases hk : k₀ = k'
        · subst hk
          simp [Ne.symm hne]
        · simp [hk]

theorem mem_insert {k : α} {v : β} {p : α × β} {l : List (α × β)}
    (h : p ∈ insert k v l) : p = (k, v) ∨ p ∈ l := by
  induction l with
  | nil => exact .inl (by simpa [insert] using h)
  | cons q rest ih =>
    obtain ⟨k₀, v₀⟩ := q
    simp only [insert] at h
    split at h
    · rcases List.mem_cons.mp h with h | h
      · exact .inl h
      · exact .inr h
    · split at h
      · rcases List.mem_cons.mp h with h | h
        · exact .inl h
        · exact .inr (by simp [h])
      · rcases List.mem_cons.mp h with h | h
        · exact .inr (by simp [h])
        · exact (ih h).imp id (fun h => by simp [h])

theorem sorted_insert (k : α) (v : β) {l : List (α × β)} (h : Sorted l) :
    Sorted (insert k v l) := by
  induction l with
  | nil => simp [insert, Sorted]
  | cons p rest ih =>
    obtain ⟨k', v'⟩ := p
    obtain ⟨habove, hrest⟩ := sorted_cons.mp h
    simp only [insert]
    split
    · rename_i hlt
      refine sorted_cons.mpr ⟨fun q hq => ?_, h⟩
      rcases List.mem_cons.mp hq with rfl | hq
      · exact hlt
      · exact lt_trans hlt (habove q hq)
    · rename_i hnlt
      split
      · rename_i heq
        subst heq
        exact sorted_cons.mpr ⟨habove, hrest⟩
      · rename_i hne
        refine sorted_cons.mpr ⟨fun q hq => ?_, ih hrest⟩
        rcases mem_insert hq with rfl | hq
        · exact lt_of_le_of_ne (not_lt.mp hnlt) hne
        · exact habove q hq

theorem mem_iff_find {l : List (α × β)} (h : Sorted l) {k : α} {v : β} :
    (k, v) ∈ l ↔ find k l = some v := by
  induction l with
  | nil => simp [find]
  | cons p rest ih =>
    obtain ⟨k', v'⟩ := p
    obtain ⟨habove, hrest⟩ := sorted_cons.mp h
    have habove : Above k' rest := habove
    by_cases hk : k' = k
    · subst hk
      have hnot : (k', v) ∉ rest := fun hm => lt_irrefl k' (habove (k', v) hm)
      simp [find, hnot, eq_comm]
    · simp [find, hk, Ne.symm hk, ih hrest]

theorem find_eq_some_iff_of_nodup {l : List (α × β)} (h : (l.map Prod.fst).Nodup) {k : α}
    {v : β} : find k l = some v ↔ (k, v) ∈ l := by
  induction l with
  | nil => simp [find]
  | cons p rest ih =>
    obtain ⟨k', v'⟩ := p
    rw [List.map_cons, List.nodup_cons] at h
    by_cases hk : k' = k
    · subst hk
      have hnot (v : β) : (k', v) ∉ rest := fun hmem =>
        h.1 (List.mem_map.mpr ⟨(k', v), hmem, rfl⟩)
      simp only [find, if_true, List.mem_cons, hnot, or_false, Prod.mk.injEq, true_and,
        Option.some_inj]
      exact eq_comm
    · simp only [find, if_neg hk, List.mem_cons, Prod.mk.injEq]
      rw [ih h.2]
      exact (or_iff_right (fun heq => hk heq.1.symm)).symm

/-- The canonical form: sorted lists with the same lookups are equal. -/
theorem ext_find {l m : List (α × β)} (hl : Sorted l) (hm : Sorted m)
    (h : ∀ k, find k l = find k m) : l = m := by
  induction l generalizing m with
  | nil =>
    cases m with
    | nil => rfl
    | cons p rest =>
      have := h p.1
      simp [find] at this
  | cons p l ih =>
    obtain ⟨habove, hl'⟩ := sorted_cons.mp hl
    cases m with
    | nil =>
      have := h p.1
      simp [find] at this
    | cons q m =>
      obtain ⟨habove', hm'⟩ := sorted_cons.mp hm
      have hkey : p.1 = q.1 := by
        by_contra hne
        rcases lt_or_gt_of_ne hne with hlt | hgt
        · have hfind := h p.1
          rw [show find p.1 (q :: m) = none from find_of_above (fun r hr => by
            rcases List.mem_cons.mp hr with rfl | hr
            · exact hlt
            · exact lt_trans hlt (habove' r hr))] at hfind
          simp [find] at hfind
        · have hfind := h q.1
          rw [show find q.1 (p :: l) = none from find_of_above (fun r hr => by
            rcases List.mem_cons.mp hr with rfl | hr
            · exact hgt
            · exact lt_trans hgt (habove r hr))] at hfind
          simp [find] at hfind
      have hval : p.2 = q.2 := by
        have := h p.1
        simpa [find, hkey] using this
      have htail : l = m := by
        refine ih hl' hm' (fun k => ?_)
        have hk := h k
        simp only [find, ← hkey, ← hval] at hk
        by_cases hpk : p.1 = k
        · subst hpk
          rw [find_of_above habove, find_of_above (hkey ▸ habove')]
        · simpa [hpk] using hk
      rw [show p = q from Prod.ext hkey hval, htail]

end OrdMap.Entries

/-- A finite map: its entries, in key order. -/
structure OrdMap (α : Type*) (β : Type*) [LinearOrder α] where
  entries : List (α × β)
  sorted : OrdMap.Entries.Sorted entries

namespace OrdMap

variable {α : Type*} {β : Type*} {γ : Type*} [LinearOrder α]

instance [DecidableEq β] : DecidableEq (OrdMap α β) := fun m n =>
  decidable_of_iff (m.entries = n.entries) ⟨fun h => by cases m; cases n; cases h; rfl,
    fun h => h ▸ rfl⟩

/-- The map with no entry. -/
def empty : OrdMap α β := ⟨[], List.Pairwise.nil⟩

instance : Inhabited (OrdMap α β) := ⟨empty⟩

/-- The value under `k`, if there is one. -/
def get? (m : OrdMap α β) (k : α) : Option β := Entries.find k m.entries

/-- Adds or replaces the value under `k`. -/
def insert (m : OrdMap α β) (k : α) (v : β) : OrdMap α β :=
  ⟨Entries.insert k v m.entries, Entries.sorted_insert k v m.sorted⟩

/-- Drops the entry under `k`, if there is one. -/
def remove (m : OrdMap α β) (k : α) : OrdMap α β :=
  ⟨m.entries.filter (fun p => decide (p.1 ≠ k)), m.sorted.filter _⟩

/-- Every entry of `l`, inserted in turn. -/
def insertAll (m : OrdMap α β) (l : List (α × β)) : OrdMap α β :=
  l.foldl (fun m p => m.insert p.1 p.2) m

/-- The map with the entries of `l`; a later entry replaces an earlier. -/
def ofList (l : List (α × β)) : OrdMap α β := empty.insertAll l

theorem ext_get? {m n : OrdMap α β} (h : ∀ k, m.get? k = n.get? k) : m = n := by
  obtain ⟨l, hl⟩ := m
  obtain ⟨l', hl'⟩ := n
  cases Entries.ext_find hl hl' h
  rfl

theorem mem_entries_iff {m : OrdMap α β} {k : α} {v : β} :
    (k, v) ∈ m.entries ↔ m.get? k = some v := Entries.mem_iff_find m.sorted

@[simp] theorem get?_empty (k : α) : (empty : OrdMap α β).get? k = none := rfl

theorem get?_insert (m : OrdMap α β) (k k' : α) (v : β) :
    (m.insert k v).get? k' = if k = k' then some v else m.get? k' :=
  Entries.find_insert k k' v m.entries

@[simp] theorem get?_insert_self (m : OrdMap α β) (k : α) (v : β) :
    (m.insert k v).get? k = some v := by simp [get?_insert]

theorem get?_remove (m : OrdMap α β) (k k' : α) :
    (m.remove k).get? k' = if k = k' then none else m.get? k' := by
  ext v
  rw [← mem_entries_iff]
  by_cases hk : k = k'
  · simp [remove, hk]
  · simp [remove, hk, Ne.symm hk, mem_entries_iff]

theorem get?_insertAll (m : OrdMap α β) {l : List (α × β)} (hl : Entries.Sorted l) (k : α) :
    (m.insertAll l).get? k = (Entries.find k l).or (m.get? k) := by
  induction l generalizing m with
  | nil => simp [insertAll, Entries.find]
  | cons p rest ih =>
    obtain ⟨k', v⟩ := p
    obtain ⟨habove, hrest⟩ := Entries.sorted_cons.mp hl
    have hstep : (m.insertAll ((k', v) :: rest)).get? k
        = (Entries.find k rest).or ((m.insert k' v).get? k) := ih (m.insert k' v) hrest
    rw [hstep, get?_insert]
    by_cases hk : k' = k
    · subst hk
      simp [Entries.find, Entries.find_of_above habove]
    · simp [Entries.find, hk]

/-- Values replaced by a function of their entry, keys kept. -/
def mapVal (f : α → β → γ) (m : OrdMap α β) : OrdMap α γ where
  entries := m.entries.map (fun p => (p.1, f p.1 p.2))
  sorted := by simpa [Entries.Sorted, List.pairwise_map] using m.sorted

theorem find_map (f : α → β → γ) (k : α) (l : List (α × β)) :
    Entries.find k (l.map (fun p => (p.1, f p.1 p.2))) = (Entries.find k l).map (f k) := by
  induction l with
  | nil => rfl
  | cons p rest ih =>
    obtain ⟨k', v⟩ := p
    by_cases hk : k' = k
    · subst hk
      simp [Entries.find]
    · simpa [Entries.find, hk] using ih

@[simp] theorem get?_mapVal (f : α → β → γ) (m : OrdMap α β) (k : α) :
    (m.mapVal f).get? k = (m.get? k).map (f k) := find_map f k m.entries

/-- What is under a key is the list's last entry there. -/
theorem get?_insertAll_last (m : OrdMap α β) (l : List (α × β)) (k : α) :
    (m.insertAll l).get? k = (Entries.find k l.reverse).or (m.get? k) := by
  induction l using List.reverseRecOn with
  | nil => rfl
  | append_singleton l p ih =>
    have hlast : m.insertAll (l ++ [p]) = (m.insertAll l).insert p.1 p.2 := List.foldl_append
    rw [hlast, get?_insert, ih, List.reverse_append, List.reverse_singleton, List.singleton_append]
    simp only [Entries.find]
    split <;> rfl

/-- Of distinct keys each keeps its value. -/
theorem get?_ofList_of_nodup {l : List (α × β)} (h : (l.map Prod.fst).Nodup) {k : α} {v : β} :
    (ofList l).get? k = some v ↔ (k, v) ∈ l := by
  have hnodup : (l.reverse.map Prod.fst).Nodup := by
    rw [List.map_reverse]
    exact List.nodup_reverse.mpr h
  rw [ofList, get?_insertAll_last, get?_empty, Option.or_none, ← List.mem_reverse]
  exact Entries.find_eq_some_iff_of_nodup hnodup

/-- Inserting a map's own entries into the empty map rebuilds it. -/
theorem ofList_entries (m : OrdMap α β) : ofList m.entries = m := by
  refine ext_get? (fun k => ?_)
  rw [ofList, get?_insertAll empty m.sorted, get?_empty, Option.or_none]
  rfl

end OrdMap
