import Mathlib

/-!
# Bounded vectors as lists

A `BoundedVec` is a vector with a length bound fixed by its type. Pallets add to one with
`try_push`, which refuses to go past the bound, and remove from one with `Vec::swap_remove`, which
moves the last element into the hole. Modelled as lists, `swap_remove` is a permutation of
`List.eraseIdx`, so on a list without duplicates it removes exactly the element at the index;
`Vec::swap` of two indices is a permutation of the list.

## Main definitions

* `BoundedVec.tryPush`: append unless full
* `BoundedVec.swapRemove`: remove by moving the last element into the hole
* `BoundedVec.swap`: exchange the elements at two indices
* `BoundedVec.swapRemoveValue`, `BoundedVec.pushIfAbsent`: remove an element found by
  `iter().position`, and push an element the vector does not contain

## Main results

* `swapRemove_perm`: `swap_remove` is `eraseIdx` up to order
* `mem_swapRemove`, `nodup_swapRemove`: on a list without duplicates it removes exactly the
  element at the index, and keeps the list without duplicates
* `getElem_of_position_eq_some`: the index `iter().position` finds holds the element sought
* `swap_perm`: `swap` is a permutation
* `mem_foldl_swapRemoveValue`, `mem_foldl_pushIfAbsent`: removing a list of elements one by one
  from a list without duplicates leaves what is in neither, and pushing a list of elements
  where absent adds what is in either; both keep the list without duplicates
-/

namespace BoundedVec

variable {β : Type*}

/-- `BoundedVec::try_push`: the element is appended, unless the vector already holds `bound`
elements. -/
def tryPush (bound : Nat) (l : List β) (x : β) : Option (List β) :=
  if l.length < bound then some (l ++ [x]) else none

theorem tryPush_eq_some {bound : Nat} {l l' : List β} {x : β} :
    tryPush bound l x = some l' ↔ l.length < bound ∧ l' = l ++ [x] := by
  unfold tryPush
  split_ifs with h
  · exact ⟨fun h' => ⟨h, (Option.some.inj h').symm⟩, fun h' => h'.2 ▸ rfl⟩
  · exact ⟨fun h' => absurd h' (by simp), fun h' => absurd h'.1 h⟩

/-- `Vec::swap_remove` at an index of an element: the last element takes its place, and the
vector shrinks by one. -/
def swapRemove (l : List β) (i : Nat) : List β :=
  match l.getLast? with
  | some last => (l.set i last).dropLast
  | none => l

/-- `swap_remove` removes the element at the index, up to the order of the rest. -/
theorem swapRemove_perm {l : List β} {i : Nat} (hi : i < l.length) :
    (swapRemove l i).Perm (l.eraseIdx i) := by
  have hne : l ≠ [] := List.ne_nil_of_length_pos (by omega)
  have hlast : l.getLast? = some (l.getLast hne) := List.getLast?_eq_some_getLast hne
  unfold swapRemove
  rw [hlast]
  -- the list after the write still ends with the last element
  have hne' : l.set i (l.getLast hne) ≠ [] := by
    simpa using hne
  have hend : (l.set i (l.getLast hne)).getLast hne' = l.getLast hne := by
    rw [List.getLast_eq_getElem, List.getElem_set]
    split_ifs
    · rfl
    · simp [List.getLast_eq_getElem]
  have hsplit := List.dropLast_append_getLast hne'
  rw [hend] at hsplit
  -- so cancelling that last element on both sides of `set_perm_cons_eraseIdx` gives the claim
  have hperm : ((l.set i (l.getLast hne)).dropLast ++ [l.getLast hne]).Perm
      (l.eraseIdx i ++ [l.getLast hne]) := by
    rw [hsplit]
    exact (List.set_perm_cons_eraseIdx hi _).trans (List.perm_append_singleton _ _).symm
  exact List.perm_append_right_iff _ |>.mp hperm

/-- On a list without duplicates `swap_remove` removes exactly the element at the index. -/
theorem mem_swapRemove {l : List β} (hl : l.Nodup) {i : Nat} (hi : i < l.length) {x : β} :
    x ∈ swapRemove l i ↔ x ∈ l ∧ x ≠ l[i] := by
  rw [(swapRemove_perm hi).mem_iff, List.mem_eraseIdx_iff_getElem]
  constructor
  · rintro ⟨j, hj, hji, rfl⟩
    exact ⟨List.getElem_mem _, fun h => hji ((List.Nodup.getElem_inj_iff hl).mp h)⟩
  · rintro ⟨hx, hxi⟩
    obtain ⟨j, hj, rfl⟩ := List.getElem_of_mem hx
    exact ⟨j, hj, fun h => hxi (by subst h; rfl), rfl⟩

theorem nodup_swapRemove {l : List β} (hl : l.Nodup) {i : Nat} (hi : i < l.length) :
    (swapRemove l i).Nodup :=
  (swapRemove_perm hi).nodup_iff.mpr (hl.sublist (List.eraseIdx_sublist _ _))

/-- `iter().position(|r| r == x)`, modelled by `List.findIdx?`, finds an index that holds `x`. -/
theorem getElem_of_position_eq_some [DecidableEq β] {l : List β} {x : β} {pos : Nat}
    (h : l.findIdx? (· == x) = some pos) : ∃ hpos : pos < l.length, l[pos] = x := by
  obtain ⟨hpos, hx, -⟩ := List.findIdx?_eq_some_iff_getElem.mp h
  exact ⟨hpos, by simpa using hx⟩

/-- `Vec::swap`: the elements at `i` and `j` change places. Out of bounds, where `Vec::swap`
panics, the list is left as it is. -/
def swap (l : List β) (i j : Nat) : List β :=
  match l[i]?, l[j]? with
  | some a, some b => (l.set i b).set j a
  | _, _ => l

/-- `swap` only reorders the list. -/
theorem swap_perm (l : List β) (i j : Nat) : (swap l i j).Perm l := by
  unfold swap
  split
  · rename_i a b ha hb
    obtain ⟨hi, rfl⟩ := List.getElem?_eq_some_iff.mp ha
    obtain ⟨hj, rfl⟩ := List.getElem?_eq_some_iff.mp hb
    -- the swapped list reads `l` through the transposition of `i` and `j`
    have hread : (l.set i l[j]).set j l[i] = List.ofFn fun k : Fin l.length =>
        l[(Equiv.swap (⟨i, hi⟩ : Fin l.length) ⟨j, hj⟩ k).val] := by
      refine List.ext_getElem (by simp) fun k hk₁ hk₂ => ?_
      simp only [List.getElem_set, List.getElem_ofFn, Equiv.swap_apply_def, Fin.ext_iff]
      -- the three positions: `j`, `i` other than `j`, and the rest
      by_cases hjk : j = k
      · subst hjk
        by_cases hij : j = i
        · subst hij
          simp
        · simp [hij]
      · by_cases hik : i = k
        · subst hik
          simp [hjk]
        · simp [hjk, hik, Ne.symm hjk, Ne.symm hik]
    rw [hread]
    exact (Equiv.Perm.ofFn_comp_perm _ fun k : Fin l.length => l[k.val]).trans
      (by rw [List.ofFn_getElem])
  · exact List.Perm.refl _

/-! ## Removal and insertion by value -/

section ByValue

variable [DecidableEq β]

/-- Removal by value, as pallets write it over a `Vec`:
`if let Some(pos) = v.iter().position(|r| r == x) { v.swap_remove(pos); }`. -/
def swapRemoveValue (l : List β) (x : β) : List β :=
  match l.findIdx? (· == x) with
  | some pos => swapRemove l pos
  | none => l

/-- Insertion unless present: `if !v.contains(&x) { v.push(x); }`. -/
def pushIfAbsent (l : List β) (x : β) : List β :=
  if !l.contains x then l ++ [x] else l

/-- On a list without duplicates, removal by value takes out exactly that value: either
`position` finds it and `swap_remove` drops it, or it is absent and nothing changes. -/
theorem mem_swapRemoveValue {l : List β} (hl : l.Nodup) {x y : β} :
    y ∈ swapRemoveValue l x ↔ y ∈ l ∧ y ≠ x := by
  unfold swapRemoveValue
  split
  · rename_i pos hpos
    obtain ⟨hlt, rfl⟩ := getElem_of_position_eq_some hpos
    exact mem_swapRemove hl hlt
  · rename_i hnone
    have habsent : x ∉ l := fun hx => by
      simpa using List.findIdx?_eq_none_iff.mp hnone x hx
    exact ⟨fun hy => ⟨hy, fun hyx => habsent (hyx ▸ hy)⟩, And.left⟩

theorem nodup_swapRemoveValue {l : List β} (hl : l.Nodup) (x : β) :
    (swapRemoveValue l x).Nodup := by
  unfold swapRemoveValue
  split
  · rename_i pos hpos
    exact nodup_swapRemove hl (getElem_of_position_eq_some hpos).1
  · exact hl

theorem pushIfAbsent_eq (l : List β) (x : β) :
    pushIfAbsent l x = if x ∈ l then l else l ++ [x] := by
  simp [pushIfAbsent]

theorem mem_pushIfAbsent {l : List β} {x y : β} : y ∈ pushIfAbsent l x ↔ y ∈ l ∨ y = x := by
  rw [pushIfAbsent_eq]
  split_ifs with hx
  · exact ⟨Or.inl, fun h => h.elim id fun hyx => hyx ▸ hx⟩
  · simp

theorem nodup_pushIfAbsent {l : List β} (hl : l.Nodup) (x : β) : (pushIfAbsent l x).Nodup := by
  rw [pushIfAbsent_eq]
  split_ifs with hx
  · exact hl
  · rw [← List.concat_eq_append]
    exact hl.concat hx

/-- Removing the values `xs` one by one from a list without duplicates keeps what is not among
them; the induction on `xs` carries the list's lack of duplicates. -/
theorem mem_foldl_swapRemoveValue {xs : List β} :
    ∀ {l : List β}, l.Nodup → ∀ {y : β}, y ∈ xs.foldl swapRemoveValue l ↔ y ∈ l ∧ y ∉ xs := by
  induction xs with
  | nil => intro l _ y; simp
  | cons x xs ih =>
    intro l hl y
    rw [List.foldl_cons, ih (nodup_swapRemoveValue hl x), mem_swapRemoveValue hl,
      List.mem_cons, not_or, and_assoc]

theorem nodup_foldl_swapRemoveValue (xs : List β) :
    ∀ {l : List β}, l.Nodup → (xs.foldl swapRemoveValue l).Nodup := by
  induction xs with
  | nil => intro l hl; exact hl
  | cons x xs ih => intro l hl; exact ih (nodup_swapRemoveValue hl x)

/-- Pushing the values `xs` where absent adds every one of them, duplicates among them
included. -/
theorem mem_foldl_pushIfAbsent {xs : List β} :
    ∀ {l : List β} {y : β}, y ∈ xs.foldl pushIfAbsent l ↔ y ∈ l ∨ y ∈ xs := by
  induction xs with
  | nil => intro l y; simp
  | cons x xs ih =>
    intro l y
    rw [List.foldl_cons, ih, mem_pushIfAbsent, List.mem_cons, or_assoc]

theorem nodup_foldl_pushIfAbsent (xs : List β) :
    ∀ {l : List β}, l.Nodup → (xs.foldl pushIfAbsent l).Nodup := by
  induction xs with
  | nil => intro l hl; exact hl
  | cons x xs ih => intro l hl; exact ih (nodup_pushIfAbsent hl x)

end ByValue

end BoundedVec
