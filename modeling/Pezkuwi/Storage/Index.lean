import Mathlib

/-!
# Reverse indices

A store often keeps, beside a map from owners to records, the reverse map from the parts of the
records back to their owners, so that it can refuse a record with a part that another owner
holds. A record of type `κ` has one part of type `ρ` for each kind `ι` of a fixed list `kinds`,
read by `get : κ → ι → ρ`, and the reverse map sends a kind and a part to the owner. The two maps
agree (`IsInverse`) when every part of every record points back to its owner and every entry of
the reverse map comes from a record; then a part of one kind belongs to one owner only
(`IsInverse.unique`).

The reverse map is written kind by kind in a loop, and each turn of the loop reads and writes only
the entries of its own kind (`Local`). Over a list of distinct kinds the loop's result at an entry
is then what the one turn for the entry's kind makes of it (`foldl_apply_of_local`), which is how
the loops of a model are matched with the pointwise writes `putOwners` and `eraseOwners` below.

## Main definitions

* `ReverseIndex.IsInverse kinds get records owners`: the reverse map agrees with the records
* `ReverseIndex.Local f`: a family of writes, each confined to the entries of one kind
* `ReverseIndex.putOwners`, `ReverseIndex.eraseOwners`: the reverse map after a record is
  written or removed

## Main results

* `foldl_apply_of_local`: a loop of local writes over distinct kinds, entry by entry
* `IsInverse.unique`: one part of one kind has one owner
* `IsInverse.eq`: the records determine the reverse map
* `IsInverse.put`: a record whose parts no other owner holds may be written
* `IsInverse.erase`: a record may be removed
-/

namespace ReverseIndex

variable {α κ ι ρ : Type*}

/-! ## Loops of local writes -/

section Local

variable {β : Type*}

/-- A family of writes of a map keyed by a kind and a part, where the write for kind `i` leaves
every entry of another kind as it is and reads only entries of kind `i`. -/
structure Local (f : ι → (ι × ρ → β) → ι × ρ → β) : Prop where
  apply_of_ne : ∀ i m j r, j ≠ i → f i m (j, r) = m (j, r)
  congr : ∀ i m m' r, (∀ r', m (i, r') = m' (i, r')) → f i m (i, r) = f i m' (i, r)

variable [DecidableEq ι] {f : ι → (ι × ρ → β) → ι × ρ → β}

/-- Over distinct kinds, a loop of local writes gives each entry what the write for its own kind
gives it, and leaves the entries of the other kinds alone. The induction is on the kinds, with
the map generalised: the later writes do not see the entries the first one touched. -/
theorem foldl_apply_of_local (hf : Local f) {kinds : List ι} (hkinds : kinds.Nodup)
    (m : ι × ρ → β) (j : ι) (r : ρ) :
    kinds.foldl (fun m i => f i m) m (j, r) = if j ∈ kinds then f j m (j, r) else m (j, r) := by
  induction kinds generalizing m with
  | nil => simp
  | cons i kinds ih =>
    obtain ⟨hi, hkinds⟩ := List.nodup_cons.mp hkinds
    rw [List.foldl_cons, ih hkinds]
    by_cases hj : j ∈ kinds
    · -- a later kind: the first write did not touch its entries
      have hji : j ≠ i := fun h => hi (h ▸ hj)
      rw [if_pos hj, if_pos (List.mem_cons_of_mem i hj)]
      exact hf.congr j _ m r fun r' => hf.apply_of_ne i m j r' hji
    · rw [if_neg hj]
      by_cases hji : j = i
      · subst hji
        rw [if_pos List.mem_cons_self]
      · rw [if_neg (by simp [hji, hj]), hf.apply_of_ne i m j r hji]

end Local

/-! ## Agreement of the records and the reverse map -/

/-- The reverse map `owners` agrees with the records: each part of each record is owned by the
record's owner, and each owned entry is a part, of a kind in `kinds`, of its owner's record. -/
structure IsInverse (kinds : List ι) (get : κ → ι → ρ) (records : α → Option κ)
    (owners : ι × ρ → Option α) : Prop where
  owner_of_record : ∀ {a k}, records a = some k → ∀ i ∈ kinds, owners (i, get k i) = some a
  record_of_owner : ∀ {i r a}, owners (i, r) = some a →
    i ∈ kinds ∧ ∃ k, records a = some k ∧ get k i = r

variable {kinds : List ι} {get : κ → ι → ρ} {records : α → Option κ}
  {owners : ι × ρ → Option α}

/-- With no records and no owned entries, the two maps agree. -/
theorem isInverse_empty : IsInverse kinds get (fun _ : α => none) (fun _ => none) where
  owner_of_record h := nomatch h
  record_of_owner h := nomatch h

/-- Two owners whose records share a part of one kind are one owner. -/
theorem IsInverse.unique (h : IsInverse kinds get records owners) {a b : α} {k k' : κ}
    (ha : records a = some k) (hb : records b = some k') {i : ι} (hi : i ∈ kinds)
    (hpart : get k i = get k' i) : a = b :=
  Option.some.inj ((h.owner_of_record ha i hi).symm.trans
    (hpart ▸ h.owner_of_record hb i hi))

/-- The records determine the reverse map: two reverse maps that agree with the same records are
equal. -/
theorem IsInverse.eq {owners' : ι × ρ → Option α} (h : IsInverse kinds get records owners)
    (h' : IsInverse kinds get records owners') : owners = owners' := by
  funext ⟨i, r⟩
  cases ho : owners (i, r) with
  | none =>
    -- an owner in the other map would be an owner in this one
    cases ho' : owners' (i, r) with
    | none => rfl
    | some a =>
      obtain ⟨hi, k, hk, rfl⟩ := h'.record_of_owner ho'
      rw [h.owner_of_record hk i hi] at ho
      exact absurd ho (Option.some_ne_none a)
  | some a =>
    obtain ⟨hi, k, hk, rfl⟩ := h.record_of_owner ho
    exact (h'.owner_of_record hk i hi).symm

variable [DecidableEq ι] [DecidableEq ρ]

/-- The reverse map after `a`'s record, formerly `old`, becomes `k`: each part of `k` is owned by
`a`, each part of `old` not in `k` is freed, and the other entries stay. -/
def putOwners (kinds : List ι) (get : κ → ι → ρ) (old : Option κ) (a : α) (k : κ)
    (owners : ι × ρ → Option α) : ι × ρ → Option α
  | (i, r) =>
    if i ∈ kinds ∧ r = get k i then some a
    else if i ∈ kinds ∧ old.map (get · i) = some r then none
    else owners (i, r)

/-- The reverse map after the record `old` is removed: its parts are freed. -/
def eraseOwners (kinds : List ι) (get : κ → ι → ρ) (old : κ) (owners : ι × ρ → Option α) :
    ι × ρ → Option α
  | (i, r) => if i ∈ kinds ∧ get old i = r then none else owners (i, r)

variable [DecidableEq α]

/-- A record whose parts are free or already `a`'s may be written as `a`'s record: with the reverse
map written by `putOwners`, the two maps still agree. -/
theorem IsInverse.put (h : IsInverse kinds get records owners) {a : α} {k : κ}
    (hfree : ∀ i ∈ kinds, ∀ b, owners (i, get k i) = some b → b = a) :
    IsInverse kinds get (Function.update records a (some k))
      (putOwners kinds get (records a) a k owners) where
  owner_of_record := by
    intro b kb hb i hi
    by_cases hba : b = a
    · subst hba
      obtain rfl : kb = k := by simpa using hb.symm
      simp [putOwners, hi]
    · rw [Function.update_of_ne hba] at hb
      have hown := h.owner_of_record hb i hi
      -- the part is neither one of `k`'s nor one of `a`'s old record, since `b` owns it
      have hnew : get kb i ≠ get k i := fun he => hba (hfree i hi b (he ▸ hown))
      have hold : (records a).map (get · i) ≠ some (get kb i) := by
        intro he
        obtain ⟨o, ho, hoi⟩ := Option.map_eq_some_iff.mp he
        exact hba (h.unique hb ho hi hoi.symm)
      simp [putOwners, hnew, hold, hown]
  record_of_owner := by
    intro i r b hown
    simp only [putOwners] at hown
    split_ifs at hown with hnew hold
    · obtain rfl : a = b := Option.some.inj hown
      exact ⟨hnew.1, k, by simp, hnew.2.symm⟩
    · obtain ⟨hi, kb, hb, hkb⟩ := h.record_of_owner hown
      refine ⟨hi, kb, ?_, hkb⟩
      -- an untouched entry of `a` would be a part of `a`'s old record, which was freed
      have hba : b ≠ a := by
        rintro rfl
        exact hold ⟨hi, by simp [hb, hkb]⟩
      rw [Function.update_of_ne hba, hb]

/-- A record may be removed: with its parts freed by `eraseOwners`, the two maps still agree. -/
theorem IsInverse.erase (h : IsInverse kinds get records owners) {a : α} {old : κ}
    (hold : records a = some old) :
    IsInverse kinds get (Function.update records a none) (eraseOwners kinds get old owners) where
  owner_of_record := by
    intro b kb hb i hi
    have hba : b ≠ a := by
      rintro rfl
      simp at hb
    rw [Function.update_of_ne hba] at hb
    have hpart : get old i ≠ get kb i := fun he => hba (h.unique hb hold hi he.symm)
    simp [eraseOwners, hpart, h.owner_of_record hb i hi]
  record_of_owner := by
    intro i r b hown
    simp only [eraseOwners] at hown
    split_ifs at hown with hfreed
    obtain ⟨hi, kb, hb, hkb⟩ := h.record_of_owner hown
    refine ⟨hi, kb, ?_, hkb⟩
    have hba : b ≠ a := by
      rintro rfl
      obtain rfl : kb = old := Option.some.inj (hb.symm.trans hold)
      exact hfreed ⟨hi, hkb⟩
    rw [Function.update_of_ne hba, hb]

end ReverseIndex
