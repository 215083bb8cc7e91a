import Mathlib

/-!
# Finite maps iterated in key order

A storage map is a finite map whose entries are kept in strictly increasing key order. The
order stands for the order in which a key-value store iterates its keys: a fixed total order
that depends on the keys alone, whichever one the store uses. Keeping the entries sorted makes
iteration a walk over `entries`, and keys are distinct by construction.

## Main definitions

* `StorageMap κ ν`: entries with strictly increasing keys
* `get?`, `insert`, `remove`, `alter`: lookup and the writes
* `keySet m`, `sumBy f m`: the keys, and the sum of `f` over the values

## Main results

* `get?_insert`, `get?_remove`, `get?_alter`: what a lookup sees after a write
* `get?_foldl_alter_map`: what it sees after a value is rewritten once per mention of its key
* `mem_entries`: an entry is exactly a binding
* `sumBy_insert`, `sumBy_remove`, `sumBy_update`: how a write moves a sum
* `sumBy_le_sumBy`: a map dominated binding by binding by another sums to less
-/

universe u v

/-- A finite map whose entries are kept in strictly increasing key order. -/
structure StorageMap (κ : Type u) (ν : Type v) [LinearOrder κ] where
  entries : List (κ × ν)
  sorted : entries.Pairwise (fun a b => a.1 < b.1)

namespace StorageMap

variable {κ : Type u} {ν : Type v} [LinearOrder κ]

/-! ## Lookup -/

/-- The value bound to `k` in a list of entries: the first entry with key `k`. -/
def find? (k : κ) : List (κ × ν) → Option ν
  | [] => none
  | e :: l => if e.1 = k then some e.2 else find? k l

/-- The value bound to `k`, if any. -/
def get? (m : StorageMap κ ν) (k : κ) : Option ν :=
  find? k m.entries

/-- The value bound to `k`, or `d` when `k` is unbound: a map read with a default value. -/
def getD (m : StorageMap κ ν) (k : κ) (d : ν) : ν :=
  (m.get? k).getD d

/-- Whether `k` is bound. -/
def contains (m : StorageMap κ ν) (k : κ) : Bool :=
  (m.get? k).isSome

/-- The map with no bindings. -/
def empty : StorageMap κ ν :=
  ⟨[], List.Pairwise.nil⟩

instance : EmptyCollection (StorageMap κ ν) := ⟨empty⟩

theorem find?_mem {k : κ} {v : ν} : ∀ {l : List (κ × ν)}, find? k l = some v → (k, v) ∈ l
  | [], h => by simp [find?] at h
  | e :: l, h => by
    unfold find? at h
    split_ifs at h with he
    · cases h
      exact List.mem_cons.mpr (Or.inl (by rw [← he]))
    · exact List.mem_cons_of_mem e (find?_mem h)

theorem find?_of_mem {k : κ} {v : ν} : ∀ {l : List (κ × ν)},
    l.Pairwise (fun a b => a.1 < b.1) → (k, v) ∈ l → find? k l = some v
  | [], _, h => by simp at h
  | e :: l, hs, h => by
    rw [List.pairwise_cons] at hs
    unfold find?
    rcases List.mem_cons.mp h with rfl | h
    · simp
    · have hlt : e.1 < k := hs.1 _ h
      rw [if_neg hlt.ne]
      exact find?_of_mem hs.2 h

theorem find?_eq_none {k : κ} : ∀ {l : List (κ × ν)}, (∀ e ∈ l, e.1 ≠ k) → find? k l = none
  | [], _ => rfl
  | e :: l, h => by
    unfold find?
    rw [if_neg (h e List.mem_cons_self)]
    exact find?_eq_none fun e' he' => h e' (List.mem_cons_of_mem e he')

/-- An entry is exactly a binding. -/
theorem mem_entries {m : StorageMap κ ν} {k : κ} {v : ν} :
    (k, v) ∈ m.entries ↔ m.get? k = some v :=
  ⟨find?_of_mem m.sorted, find?_mem⟩

/-- Two maps with the same bindings are equal: both list the bindings in key order. -/
theorem ext_get? {m m' : StorageMap κ ν} (h : ∀ k, m.get? k = m'.get? k) : m = m' := by
  have hnodup : ∀ n : StorageMap κ ν, n.entries.Nodup := fun n =>
    n.sorted.imp fun hlt => ne_of_apply_ne Prod.fst (ne_of_lt hlt)
  have hperm : m.entries.Perm m'.entries := by
    refine (List.perm_ext_iff_of_nodup (hnodup m) (hnodup m')).mpr ?_
    rintro ⟨k, v⟩
    rw [mem_entries, mem_entries, h]
  -- a strict order leaves one sorted arrangement of the bindings
  have hentries : m.entries = m'.entries :=
    hperm.eq_of_pairwise (fun _ _ _ _ hab hba => absurd (hab.trans hba) (lt_irrefl _))
      m.sorted m'.sorted
  cases m
  cases m'
  subst hentries
  rfl

theorem get?_eq_none_iff {m : StorageMap κ ν} {k : κ} :
    m.get? k = none ↔ ∀ e ∈ m.entries, e.1 ≠ k := by
  constructor
  · intro h e he hk
    obtain ⟨k', v'⟩ := e
    simp only at hk
    subst hk
    rw [mem_entries.mp he] at h
    cases h
  · exact find?_eq_none

@[simp] theorem emptyc_eq : (∅ : StorageMap κ ν) = empty := rfl

@[simp] theorem get?_empty (k : κ) : (empty : StorageMap κ ν).get? k = none := rfl

/-! ## Writes -/

/-- Bind `k` to `v` in a sorted list of entries, in place. -/
def insertAux (k : κ) (v : ν) : List (κ × ν) → List (κ × ν)
  | [] => [(k, v)]
  | e :: l =>
    if k < e.1 then (k, v) :: e :: l
    else if k = e.1 then (k, v) :: l
    else e :: insertAux k v l

theorem mem_insertAux {k : κ} {v : ν} : ∀ {l : List (κ × ν)} {e : κ × ν},
    e ∈ insertAux k v l → e = (k, v) ∨ e ∈ l
  | [], e, h => by simpa [insertAux] using h
  | e' :: l, e, h => by
    unfold insertAux at h
    split_ifs at h
    · exact List.mem_cons.mp h
    · rcases List.mem_cons.mp h with h | h
      · exact Or.inl h
      · exact Or.inr (List.mem_cons_of_mem e' h)
    · rcases List.mem_cons.mp h with h | h
      · exact Or.inr (h ▸ List.mem_cons_self)
      · rcases mem_insertAux h with h | h
        · exact Or.inl h
        · exact Or.inr (List.mem_cons_of_mem e' h)

theorem sorted_insertAux (k : κ) (v : ν) : ∀ {l : List (κ × ν)},
    l.Pairwise (fun a b => a.1 < b.1) → (insertAux k v l).Pairwise (fun a b => a.1 < b.1)
  | [], _ => by simp [insertAux]
  | e :: l, hs => by
    have hs' := List.pairwise_cons.mp hs
    unfold insertAux
    split_ifs with hlt heq
    · refine List.Pairwise.cons ?_ hs
      intro a ha
      rcases List.mem_cons.mp ha with rfl | ha
      · exact hlt
      · exact hlt.trans (hs'.1 a ha)
    · refine List.Pairwise.cons ?_ hs'.2
      intro a ha
      exact heq ▸ hs'.1 a ha
    · refine List.Pairwise.cons ?_ (sorted_insertAux k v hs'.2)
      intro a ha
      rcases mem_insertAux ha with rfl | ha
      · exact lt_of_le_of_ne (not_lt.mp hlt) (Ne.symm heq)
      · exact hs'.1 a ha

/-- Bind `k` to `v`, replacing any earlier binding of `k`. -/
def insert (m : StorageMap κ ν) (k : κ) (v : ν) : StorageMap κ ν :=
  ⟨insertAux k v m.entries, sorted_insertAux k v m.sorted⟩

/-- Unbind `k`. -/
def remove (m : StorageMap κ ν) (k : κ) : StorageMap κ ν :=
  ⟨m.entries.filter (fun e => e.1 ≠ k), m.sorted.filter _⟩

/-- Rewrite the binding of `k` by `f`: `none` in or out stands for no binding. -/
def alter (m : StorageMap κ ν) (k : κ) (f : Option ν → Option ν) : StorageMap κ ν :=
  match f (m.get? k) with
  | some v => m.insert k v
  | none => m.remove k

theorem find?_insertAux (k : κ) (v : ν) (k' : κ) : ∀ l : List (κ × ν),
    find? k' (insertAux k v l) = if k' = k then some v else find? k' l
  | [] => by
    rcases eq_or_ne k' k with rfl | h
    · simp [insertAux, find?]
    · simp [insertAux, find?, h, Ne.symm h]
  | e :: l => by
    by_cases hlt : k < e.1
    · rw [insertAux, if_pos hlt]
      rcases eq_or_ne k' k with rfl | h
      · simp [find?]
      · simp [find?, h, Ne.symm h]
    by_cases heq : k = e.1
    · rw [insertAux, if_neg hlt, if_pos heq]
      rcases eq_or_ne k' k with rfl | h
      · simp [find?]
      · have he : e.1 ≠ k' := heq ▸ Ne.symm h
        simp [find?, h, Ne.symm h, he]
    · have hek : e.1 < k := lt_of_le_of_ne (not_lt.mp hlt) (Ne.symm heq)
      rw [insertAux, if_neg hlt, if_neg heq, find?, find?_insertAux k v k' l]
      rcases eq_or_ne k' k with rfl | h
      · simp [hek.ne]
      · simp [find?, h]

theorem find?_filter_ne (k k' : κ) : ∀ l : List (κ × ν),
    find? k' (l.filter (fun e => e.1 ≠ k)) = if k' = k then none else find? k' l
  | [] => by simp [find?]
  | e :: l => by
    by_cases he : e.1 = k
    · have hf : (e :: l).filter (fun e => e.1 ≠ k) = l.filter (fun e => e.1 ≠ k) := by
        simp [he]
      rw [hf, find?_filter_ne k k' l]
      rcases eq_or_ne k' k with rfl | h
      · simp
      · simp [find?, h, he, Ne.symm h]
    · have hf : (e :: l).filter (fun e => e.1 ≠ k) = e :: l.filter (fun e => e.1 ≠ k) := by
        simp [he]
      rw [hf, find?, find?_filter_ne k k' l]
      rcases eq_or_ne k' k with rfl | h
      · simp [he]
      · simp [find?, h]

@[simp] theorem get?_insert (m : StorageMap κ ν) (k : κ) (v : ν) (k' : κ) :
    (m.insert k v).get? k' = if k' = k then some v else m.get? k' :=
  find?_insertAux k v k' m.entries

@[simp] theorem getD_insert (m : StorageMap κ ν) (k : κ) (v : ν) (k' : κ) (d : ν) :
    (m.insert k v).getD k' d = if k' = k then v else m.getD k' d := by
  rw [getD, get?_insert]
  split_ifs <;> rfl

@[simp] theorem getD_empty (k : κ) (d : ν) : (empty : StorageMap κ ν).getD k d = d := rfl

@[simp] theorem get?_remove (m : StorageMap κ ν) (k k' : κ) :
    (m.remove k).get? k' = if k' = k then none else m.get? k' :=
  find?_filter_ne k k' m.entries

theorem get?_alter (m : StorageMap κ ν) (k : κ) (f : Option ν → Option ν) (k' : κ) :
    (m.alter k f).get? k' = if k' = k then f (m.get? k) else m.get? k' := by
  unfold alter
  split <;> rename_i h <;> simp [h]

/-- Rewriting the bindings of the keys of `l` in turn by `Option.map g` applies `g` to the value
of `k` once for every time `l` names `k`. -/
theorem get?_foldl_alter_map (g : ν → ν) (k : κ) : ∀ (l : List κ) (m : StorageMap κ ν),
    (l.foldl (fun m c => m.alter c (Option.map g)) m).get? k = (m.get? k).map (g^[l.count k])
  | [], m => by simp
  | c :: l, m => by
    rw [List.foldl_cons, get?_foldl_alter_map g k l, get?_alter, List.count_cons]
    by_cases hck : k = c
    · -- `c` is `k`: one more application of `g`
      subst hck
      rw [if_pos rfl, Option.map_map, beq_self_eq_true, if_pos rfl, ← Function.iterate_succ]
    · rw [if_neg hck, beq_false_of_ne (Ne.symm hck)]
      rfl

/-! ## Keys and sums -/

/-- The keys, in iteration order. -/
def keys (m : StorageMap κ ν) : List κ :=
  m.entries.map Prod.fst

/-- The keys, as a set. -/
def keySet (m : StorageMap κ ν) : Finset κ :=
  m.keys.toFinset

/-- The sum of `f` over the bindings. -/
def sumBy {M : Type*} [AddCommMonoid M] (f : κ → ν → M) (m : StorageMap κ ν) : M :=
  (m.entries.map fun e => f e.1 e.2).sum

theorem keys_nodup (m : StorageMap κ ν) : m.keys.Nodup :=
  (List.pairwise_map.mpr m.sorted).imp fun h => h.ne

theorem mem_keySet {m : StorageMap κ ν} {k : κ} : k ∈ m.keySet ↔ ∃ v, m.get? k = some v := by
  simp only [keySet, keys, List.mem_toFinset, List.mem_map]
  constructor
  · rintro ⟨⟨k', v⟩, he, rfl⟩
    exact ⟨v, mem_entries.mp he⟩
  · rintro ⟨v, hv⟩
    exact ⟨(k, v), mem_entries.mpr hv, rfl⟩

theorem not_mem_keySet {m : StorageMap κ ν} {k : κ} : k ∉ m.keySet ↔ m.get? k = none := by
  rw [mem_keySet, Option.eq_none_iff_forall_ne_some]
  simp

@[simp] theorem keySet_insert [DecidableEq κ] (m : StorageMap κ ν) (k : κ) (v : ν) :
    (m.insert k v).keySet = Insert.insert k m.keySet := by
  ext k'
  rw [mem_keySet, Finset.mem_insert, mem_keySet, get?_insert]
  rcases eq_or_ne k' k with rfl | h
  · simp
  · simp [h]

@[simp] theorem keySet_remove (m : StorageMap κ ν) (k : κ) :
    (m.remove k).keySet = m.keySet.erase k := by
  ext k'
  rw [mem_keySet, Finset.mem_erase, mem_keySet, get?_remove]
  rcases eq_or_ne k' k with rfl | h
  · simp
  · simp [h]

@[simp] theorem sumBy_empty {M : Type*} [AddCommMonoid M] (f : κ → ν → M) :
    (empty : StorageMap κ ν).sumBy f = 0 := rfl

/-- A sum over the bindings is a sum over the key set of what each key is bound to. -/
theorem sumBy_eq_sum_keySet {M : Type*} [AddCommMonoid M] (f : κ → ν → M)
    (m : StorageMap κ ν) :
    m.sumBy f = ∑ k ∈ m.keySet, ((m.get? k).map (f k)).getD 0 := by
  rw [keySet, List.sum_toFinset _ m.keys_nodup, keys, List.map_map, sumBy]
  refine congrArg List.sum (List.map_congr_left fun e he => ?_)
  have hv : m.get? e.1 = some e.2 := mem_entries.mp he
  simp [hv]

variable {M : Type*} [AddCommMonoid M]

theorem sum_insertAux (f : κ → ν → M) (k : κ) (v : ν) : ∀ {l : List (κ × ν)},
    l.Pairwise (fun a b => a.1 < b.1) →
      ((insertAux k v l).map fun e => f e.1 e.2).sum + ((find? k l).map (f k)).getD 0 =
        (l.map fun e => f e.1 e.2).sum + f k v
  | [], _ => by simp [insertAux, find?]
  | e :: l, hs => by
    have hs' := List.pairwise_cons.mp hs
    by_cases hlt : k < e.1
    · have hnone : find? k (e :: l) = none := find?_eq_none fun e' he' => by
        rcases List.mem_cons.mp he' with rfl | he'
        · exact hlt.ne'
        · exact (hlt.trans (hs'.1 e' he')).ne'
      rw [insertAux, if_pos hlt, hnone]
      simp [add_comm]
    by_cases heq : k = e.1
    · rw [insertAux, if_neg hlt, if_pos heq, find?, if_pos heq.symm]
      simp only [List.map_cons, List.sum_cons, Option.map_some, Option.getD_some]
      rw [heq]
      abel
    · have hek : e.1 ≠ k := Ne.symm heq
      rw [insertAux, if_neg hlt, if_neg heq, find?, if_neg hek]
      simp only [List.map_cons, List.sum_cons]
      rw [add_assoc, sum_insertAux f k v hs'.2, add_assoc]

/-- Writing `v` at `k` moves a sum by `f v`, less what `k` was bound to. -/
theorem sumBy_insert (f : κ → ν → M) (m : StorageMap κ ν) (k : κ) (v : ν) :
    (m.insert k v).sumBy f + ((m.get? k).map (f k)).getD 0 = m.sumBy f + f k v :=
  sum_insertAux f k v m.sorted

/-- Binding a new key adds its term to a sum. -/
theorem sumBy_insert_of_none {f : κ → ν → M} {m : StorageMap κ ν} {k : κ} (hk : m.get? k = none)
    (v : ν) : (m.insert k v).sumBy f = m.sumBy f + f k v := by
  have h := sumBy_insert f m k v
  rwa [hk, Option.map_none, Option.getD_none, add_zero] at h

theorem sum_filter_ne (f : κ → ν → M) (k : κ) : ∀ {l : List (κ × ν)},
    l.Pairwise (fun a b => a.1 < b.1) →
      ((l.filter fun e => e.1 ≠ k).map fun e => f e.1 e.2).sum + ((find? k l).map (f k)).getD 0 =
        (l.map fun e => f e.1 e.2).sum
  | [], _ => by simp [find?]
  | e :: l, hs => by
    have hs' := List.pairwise_cons.mp hs
    by_cases he : e.1 = k
    · have hrest : ∀ e' ∈ l, e'.1 ≠ k := fun e' he' => he ▸ (hs'.1 e' he').ne'
      have hl : l.filter (fun e => e.1 ≠ k) = l :=
        List.filter_eq_self.mpr fun e' he' => by simpa using hrest e' he'
      have hf : (e :: l).filter (fun e => e.1 ≠ k) = l := by
        simpa [he] using hl
      rw [hf, find?, if_pos he]
      simp [add_comm, he]
    · have hf : (e :: l).filter (fun e => e.1 ≠ k) = e :: l.filter (fun e => e.1 ≠ k) := by
        simp [he]
      rw [hf, find?, if_neg he]
      simp only [List.map_cons, List.sum_cons]
      rw [add_assoc, sum_filter_ne f k hs'.2]

/-- Unbinding `k` moves a sum by what `k` was bound to. -/
theorem sumBy_remove (f : κ → ν → M) (m : StorageMap κ ν) (k : κ) :
    (m.remove k).sumBy f + ((m.get? k).map (f k)).getD 0 = m.sumBy f :=
  sum_filter_ne f k m.sorted

/-- Two weightings that differ at the key `k` only give sums that differ by their values at
`k`. -/
theorem sumBy_update {m : StorageMap κ ν} {f g : κ → ν → M} {k : κ} {v : ν}
    (hv : m.get? k = some v) (h : ∀ k', k' ≠ k → f k' = g k') :
    m.sumBy f + g k v = m.sumBy g + f k v := by
  have hk : k ∈ m.keySet := mem_keySet.mpr ⟨v, hv⟩
  -- away from `k` the two sums agree term by term
  have hrest : ∑ x ∈ m.keySet.erase k, ((m.get? x).map (f x)).getD 0 =
      ∑ x ∈ m.keySet.erase k, ((m.get? x).map (g x)).getD 0 :=
    Finset.sum_congr rfl fun x hx => by rw [h x (Finset.ne_of_mem_erase hx)]
  rw [sumBy_eq_sum_keySet, sumBy_eq_sum_keySet, ← Finset.sum_erase_add _ _ hk,
    ← Finset.sum_erase_add _ _ hk, hrest, hv]
  simp only [Option.map_some, Option.getD_some]
  abel

/-- A sum whose terms vanish away from `k` is its term at `k`. -/
theorem sumBy_eq_single {m : StorageMap κ ν} {f : κ → ν → M} (k : κ)
    (h : ∀ k' v, m.get? k' = some v → k' ≠ k → f k' v = 0) :
    m.sumBy f = ((m.get? k).map (f k)).getD 0 := by
  rw [sumBy_eq_sum_keySet]
  refine Finset.sum_eq_single k (fun k' hk' hne => ?_) (fun hk => ?_)
  · obtain ⟨v, hv⟩ := mem_keySet.mp hk'
    rw [hv, Option.map_some, Option.getD_some, h k' v hv hne]
  · rw [not_mem_keySet.mp hk]
    rfl

/-- Sums of weightings that agree on every binding are equal. -/
theorem sumBy_congr {m : StorageMap κ ν} {f g : κ → ν → M}
    (h : ∀ k v, m.get? k = some v → f k v = g k v) : m.sumBy f = m.sumBy g := by
  rw [sumBy_eq_sum_keySet, sumBy_eq_sum_keySet]
  refine Finset.sum_congr rfl fun k hk => ?_
  obtain ⟨v, hv⟩ := mem_keySet.mp hk
  rw [hv, Option.map_some, Option.map_some, Option.getD_some, Option.getD_some, h k v hv]

/-- The sum of two weightings is the sum of their sums. -/
theorem sumBy_add (f g : κ → ν → M) (m : StorageMap κ ν) :
    m.sumBy (fun k v => f k v + g k v) = m.sumBy f + m.sumBy g :=
  List.sum_map_add

/-- A sum of terms that all vanish is zero. -/
theorem sumBy_eq_zero {m : StorageMap κ ν} {f : κ → ν → M}
    (h : ∀ k v, m.get? k = some v → f k v = 0) : m.sumBy f = 0 := by
  rw [sumBy_eq_sum_keySet]
  refine Finset.sum_eq_zero fun k hk => ?_
  obtain ⟨v, hv⟩ := mem_keySet.mp hk
  rw [hv, Option.map_some, Option.getD_some, h k v hv]

/-- A sum of terms each at most `b` is at most `b` per key. -/
theorem sumBy_le_length_mul {m : StorageMap κ ν} {f : κ → ν → ℕ} {b : ℕ}
    (h : ∀ k v, m.get? k = some v → f k v ≤ b) : m.sumBy f ≤ m.keys.length * b := by
  have hterm : ∀ x ∈ m.entries.map (fun e => f e.1 e.2), x ≤ b := by
    intro x hx
    obtain ⟨e, he, rfl⟩ := List.mem_map.mp hx
    exact h e.1 e.2 (mem_entries.mp he)
  have hsum := List.sum_le_card_nsmul _ b hterm
  rw [List.length_map, smul_eq_mul] at hsum
  rw [sumBy, keys, List.length_map]
  exact hsum

/-- Writing a key never shrinks the map. -/
theorem length_keys_le_insert (m : StorageMap κ ν) (k : κ) (v : ν) :
    m.keys.length ≤ (m.insert k v).keys.length := by
  have hcard : ∀ m' : StorageMap κ ν, m'.keys.length = m'.keySet.card := fun m' =>
    (List.toFinset_card_of_nodup (keys_nodup m')).symm
  rw [hcard, hcard, keySet_insert]
  exact Finset.card_le_card (Finset.subset_insert _ _)

theorem sumBy_mul_left {R : Type*} [NonUnitalNonAssocSemiring R] (c : R) (f : κ → ν → R)
    (m : StorageMap κ ν) : m.sumBy (fun k v => c * f k v) = c * m.sumBy f :=
  List.sum_map_mul_left _ _ c

section Order

variable {ν' : Type*} {N : Type*} [AddCommMonoid N] [PartialOrder N] [CanonicallyOrderedAdd N]
  [IsOrderedAddMonoid N]

/-- **Domination**: a map whose every binding is matched in another map by a binding of no
smaller weight sums to no more than that map. -/
theorem sumBy_le_sumBy {m : StorageMap κ ν} {m' : StorageMap κ ν'} {f : κ → ν → N}
    {g : κ → ν' → N} (h : ∀ k v, m.get? k = some v → ∃ v', m'.get? k = some v' ∧ f k v ≤ g k v') :
    m.sumBy f ≤ m'.sumBy g := by
  have hsub : m.keySet ⊆ m'.keySet := fun k hk => by
    obtain ⟨v, hv⟩ := mem_keySet.mp hk
    obtain ⟨v', hv', -⟩ := h k v hv
    exact mem_keySet.mpr ⟨v', hv'⟩
  rw [sumBy_eq_sum_keySet, sumBy_eq_sum_keySet]
  calc ∑ k ∈ m.keySet, ((m.get? k).map (f k)).getD 0
      ≤ ∑ k ∈ m.keySet, ((m'.get? k).map (g k)).getD 0 := by
        refine Finset.sum_le_sum fun k hk => ?_
        obtain ⟨v, hv⟩ := mem_keySet.mp hk
        obtain ⟨v', hv', hle⟩ := h k v hv
        simpa [hv, hv'] using hle
    _ ≤ ∑ k ∈ m'.keySet, ((m'.get? k).map (g k)).getD 0 := Finset.sum_le_sum_of_subset hsub

end Order

end StorageMap
