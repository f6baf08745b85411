import Mathlib.Data.List.Basic
import Mathlib.Order.Lattice

/-!
# Selection sort in place, largest key first

The loop goes through the positions of a table; at each of them it looks for the largest key in the
rest, the first one among equals, and if it is larger than the key at the position the two entries
change places.  The entry that gives way lands where the other one came from, so entries with
equal keys may change their order.

The table is a list and a position is the suffix that starts there: `splitMax` is the search and
`sortN` the loop, with the number of positions left.  Besides the usual results (`sort_perm`,
`sort_sorted`, `sort_of_sorted`) two more say what happens to a table that was in order before
one key was changed: an entry whose key was lowered sinks past the larger ones and their order stays
(`sort_lowered`); an entry whose key was raised changes places with the first smaller one
(`sort_raised`).  `sort_append` leaves out what stands in front of the change.
-/

namespace SelectionSort

variable {α κ : Type*} [LinearOrder κ] (key : α → κ)

/-- The first of the largest keys above a bound, with what stands before and after it. -/
def splitMax (bound : κ) : List α → Option (List α × α × List α)
  | [] => none
  | y :: ys =>
      if bound < key y then
        match splitMax (key y) ys with
        | none => some ([], y, ys)
        | some (before, m, after) => some (y :: before, m, after)
      else
        match splitMax bound ys with
        | none => none
        | some (before, m, after) => some (y :: before, m, after)

/-- The loop, with the number of positions it still has to fill. -/
def sortN : ℕ → List α → List α
  | 0, l => l
  | _ + 1, [] => []
  | n + 1, x :: xs =>
      match splitMax key (key x) xs with
      | none => x :: sortN n xs
      | some (before, m, after) => m :: sortN n (before ++ x :: after)

/-- The whole loop. -/
def sort (l : List α) : List α := sortN key l.length l

/-- Largest key first. -/
def Sorted (l : List α) : Prop := l.Pairwise fun a b => key b ≤ key a

instance (l : List α) : Decidable (Sorted key l) := inferInstanceAs (Decidable (List.Pairwise _ _))

variable {key}

/-! ## The search -/

/-- Nothing is found exactly if no key is above the bound. -/
lemma splitMax_eq_none_iff {bound : κ} {l : List α} :
    splitMax key bound l = none ↔ ∀ y ∈ l, key y ≤ bound := by
  induction l generalizing bound with
  | nil => simp [splitMax]
  | cons y ys ih =>
      by_cases hy : bound < key y
      · have hy' : ¬ key y ≤ bound := not_le.mpr hy
        rw [List.forall_mem_cons]
        cases hs : splitMax key (key y) ys <;> simp [splitMax, hy, hs, hy']
      · have hy' : key y ≤ bound := not_lt.mp hy
        rw [List.forall_mem_cons, ← ih]
        cases hs : splitMax key bound ys <;> simp [splitMax, hy, hs, hy']

/-- What was found is above the bound, larger than everything before it and not smaller than
anything after it ... -/
lemma splitMax_spec {bound : κ} {l before after : List α} {m : α}
    (h : splitMax key bound l = some (before, m, after)) :
    l = before ++ m :: after ∧ bound < key m ∧ (∀ y ∈ before, key y < key m) ∧
      ∀ y ∈ after, key y ≤ key m := by
  induction l generalizing bound before with
  | nil => simp [splitMax] at h
  | cons y ys ih =>
      by_cases hy : bound < key y
      · cases hs : splitMax key (key y) ys with
        | none =>
            simp only [splitMax, hy, if_true, hs, Option.some.injEq, Prod.mk.injEq] at h
            obtain ⟨rfl, rfl, rfl⟩ := h
            exact ⟨rfl, hy, by simp, splitMax_eq_none_iff.mp hs⟩
        | some found =>
            obtain ⟨before', m', after'⟩ := found
            simp only [splitMax, hy, if_true, hs, Option.some.injEq, Prod.mk.injEq] at h
            obtain ⟨rfl, rfl, rfl⟩ := h
            obtain ⟨rfl, hm, hbefore, hafter⟩ := ih hs
            exact ⟨rfl, hy.trans hm, by simpa [hm] using hbefore, hafter⟩
      · cases hs : splitMax key bound ys with
        | none => simp [splitMax, hy, hs] at h
        | some found =>
            obtain ⟨before', m', after'⟩ := found
            simp only [splitMax, hy, if_false, hs, Option.some.injEq, Prod.mk.injEq] at h
            obtain ⟨rfl, rfl, rfl⟩ := h
            obtain ⟨rfl, hm, hbefore, hafter⟩ := ih hs
            exact ⟨rfl, hm, by simpa [(not_lt.mp hy).trans_lt hm] using hbefore, hafter⟩

/-- ... and only one entry of the table is all this. -/
lemma splitMax_append {bound : κ} {before after : List α} {m : α} (hm : bound < key m)
    (hbefore : ∀ y ∈ before, key y < key m) (hafter : ∀ y ∈ after, key y ≤ key m) :
    splitMax key bound (before ++ m :: after) = some (before, m, after) := by
  induction before generalizing bound with
  | nil =>
      have hnone : splitMax key (key m) after = none := splitMax_eq_none_iff.mpr hafter
      simp [splitMax, hm, hnone]
  | cons y ys ih =>
      rw [List.forall_mem_cons] at hbefore
      by_cases hy : bound < key y
      · simp [splitMax, hy, ih hbefore.1 hbefore.2]
      · simp [splitMax, hy, ih hm hbefore.2]

/-! ## One position after the other -/

@[simp] lemma sort_nil : sort key [] = [] := rfl

/-- The entry at the position stays if nothing behind it has a larger key. -/
lemma sort_cons_of_le {x : α} {xs : List α} (h : ∀ y ∈ xs, key y ≤ key x) :
    sort key (x :: xs) = x :: sort key xs := by
  simp [sort, sortN, splitMax_eq_none_iff.mpr h]

/-- Otherwise it changes places with the first of the largest. -/
lemma sort_cons_of_split {x m : α} {before after : List α} (hm : key x < key m)
    (hbefore : ∀ y ∈ before, key y < key m) (hafter : ∀ y ∈ after, key y ≤ key m) :
    sort key (x :: (before ++ m :: after)) = m :: sort key (before ++ x :: after) := by
  simp [sort, sortN, splitMax_append hm hbefore hafter]

/-- Induction along the loop. -/
lemma sort_induction {P : List α → List α → Prop} (hnil : P [] [])
    (hstay : ∀ x xs, (∀ y ∈ xs, key y ≤ key x) → P xs (sort key xs) →
      P (x :: xs) (x :: sort key xs))
    (hswap : ∀ x m before after, key x < key m → (∀ y ∈ before, key y < key m) →
      (∀ y ∈ after, key y ≤ key m) → P (before ++ x :: after) (sort key (before ++ x :: after)) →
      P (x :: (before ++ m :: after)) (m :: sort key (before ++ x :: after)))
    (l : List α) : P l (sort key l) := by
  induction hn : l.length generalizing l with
  | zero =>
      rw [List.length_eq_zero_iff.mp hn]
      exact hnil
  | succ n ih =>
      cases l with
      | nil => simp at hn
      | cons x xs =>
          cases hs : splitMax key (key x) xs with
          | none =>
              have hle := splitMax_eq_none_iff.mp hs
              rw [sort_cons_of_le hle]
              exact hstay x xs hle (ih xs (by simpa using hn))
          | some found =>
              obtain ⟨before, m, after⟩ := found
              obtain ⟨rfl, hm, hbefore, hafter⟩ := splitMax_spec hs
              rw [sort_cons_of_split hm hbefore hafter]
              exact hswap x m before after hm hbefore hafter (ih _ (by simpa using hn))

lemma sort_perm (l : List α) : (sort key l).Perm l := by
  refine sort_induction (P := fun l s => s.Perm l) .nil ?_ ?_ l
  · intro x xs _ ih
    exact ih.cons x
  · intro x m before after _ _ _ ih
    have hswap : (m :: x :: (before ++ after)).Perm (x :: m :: (before ++ after)) := .swap x m _
    exact (ih.cons m).trans <| (List.perm_middle.cons m).trans <| hswap.trans <|
      List.perm_middle.symm.cons x

@[simp] lemma mem_sort {x : α} {l : List α} : x ∈ sort key l ↔ x ∈ l := (sort_perm l).mem_iff

@[simp] lemma length_sort (l : List α) : (sort key l).length = l.length := (sort_perm l).length_eq

lemma sort_sorted (l : List α) : Sorted key (sort key l) := by
  refine sort_induction (P := fun _ s => Sorted key s) .nil ?_ ?_ l
  · intro x xs hle ih
    exact List.pairwise_cons.mpr ⟨fun y hy => hle y (mem_sort.mp hy), ih⟩
  · intro x m before after hm hbefore hafter ih
    refine List.pairwise_cons.mpr ⟨fun y hy => ?_, ih⟩
    rw [mem_sort, List.mem_append, List.mem_cons] at hy
    rcases hy with hy | rfl | hy
    · exact (hbefore y hy).le
    · exact hm.le
    · exact hafter y hy

/-! ## Tables that are nearly in order -/

/-- What is larger than all the rest and in order stays in front. -/
lemma sort_append {front l : List α} (hfront : Sorted key front)
    (hle : ∀ x ∈ front, ∀ y ∈ l, key y ≤ key x) : sort key (front ++ l) = front ++ sort key l := by
  induction front with
  | nil => rfl
  | cons x xs ih =>
      obtain ⟨hx, hxs⟩ := List.pairwise_cons.mp hfront
      rw [List.forall_mem_cons] at hle
      have hmax : ∀ y ∈ xs ++ l, key y ≤ key x := by
        intro y hy
        exact (List.mem_append.mp hy).elim (hx y) (hle.1 y)
      rw [List.cons_append, sort_cons_of_le hmax, ih hxs hle.2, List.cons_append]

lemma sort_of_sorted {l : List α} (h : Sorted key l) : sort key l = l := by
  simpa using sort_append (l := []) h (by simp)

/-- An entry whose key was lowered sinks past the entries that are larger now. -/
lemma sort_lowered {x : α} {larger rest : List α} (hlarger : Sorted key larger)
    (hrest : Sorted key rest) (hx : ∀ y ∈ larger, key x < key y) (hle : ∀ y ∈ rest, key y ≤ key x) :
    sort key (x :: (larger ++ rest)) = larger ++ x :: rest := by
  induction larger with
  | nil => exact sort_of_sorted (List.pairwise_cons.mpr ⟨hle, hrest⟩)
  | cons y ys ih =>
      obtain ⟨hy, hys⟩ := List.pairwise_cons.mp hlarger
      rw [List.forall_mem_cons] at hx
      have hafter : ∀ z ∈ ys ++ rest, key z ≤ key y := by
        intro z hz
        exact (List.mem_append.mp hz).elim (hy z) fun h => (hle z h).trans hx.1.le
      calc sort key (x :: (y :: ys ++ rest))
          = y :: sort key (x :: (ys ++ rest)) :=
            @sort_cons_of_split _ _ _ key x y [] (ys ++ rest) hx.1 (by simp) hafter
        _ = y :: ys ++ x :: rest := by rw [ih hys hx.2, List.cons_append]

/-- An entry whose key was raised changes places with the first one that is smaller now, if
everything between them is equal to that one. -/
lemma sort_raised {x y : α} {between rest : List α} (hx : key y < key x)
    (hbetween : ∀ z ∈ between, key z = key y) (hrest : Sorted key rest)
    (hle : ∀ z ∈ rest, key z ≤ key y) :
    sort key (y :: (between ++ x :: rest)) = x :: (between ++ y :: rest) := by
  have hsorted : Sorted key (between ++ y :: rest) := by
    refine List.pairwise_append.mpr ⟨?_, List.pairwise_cons.mpr ⟨hle, hrest⟩, ?_⟩
    · exact List.pairwise_of_forall_mem_list fun a ha b hb =>
        ((hbetween b hb).trans (hbetween a ha).symm).le
    · intro a ha b hb
      rw [hbetween a ha]
      exact (List.mem_cons.mp hb).elim (fun h => h ▸ le_rfl) (hle b)
  rw [sort_cons_of_split hx (fun z hz => hbetween z hz ▸ hx) fun z hz => (hle z hz).trans hx.le,
    sort_of_sorted hsorted]

end SelectionSort
