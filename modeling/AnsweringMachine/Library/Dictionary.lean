import Mathlib.Data.List.Basic
import Mathlib.Data.List.Nodup
import Mathlib.Data.List.Perm.Basic

/-!
# A dictionary that enumerates its slots

The hash table of a managed runtime keeps its pairs in an array of slots and a stack of vacated
slots.  `add?` takes the slot vacated last, or a new one at the end; `remove` vacates a slot; an
enumeration walks the slots from the front.  So the order in which pairs are enumerated is neither
the order of insertion nor the order of the keys, and code that takes "the first pair with ..."
depends on it.

The two facts that make the structure a dictionary are fields of it: the keys are pairwise
distinct, and the stack of vacated slots names vacant slots only.  Outside this module only three
readings are used:

* `get?`, with one equation for each operation (`get?_empty`, `get?_of_add?`, `get?_remove`);
* `entries`, through `mem_entries`;
* `count`, through `eq_of_count_eq_one`.
-/

variable {κ ν : Type*}

/-- The key a slot holds, if it holds a pair. -/
def slotKey (o : Option (κ × ν)) : Option κ := o.map Prod.fst

/-- Filling a vacant slot puts the new pair somewhere into the enumeration. -/
lemma perm_filterMap_set : ∀ (l : List (Option (κ × ν))) (i : ℕ) (p : κ × ν), l[i]? = some none →
    ((l.set i (some p)).filterMap id).Perm (p :: l.filterMap id)
  | [], i, p, h => by simp at h
  | o :: l, 0, p, h => by
      simp only [List.getElem?_cons_zero, Option.some.injEq] at h
      subst h
      simp
  | o :: l, i + 1, p, h => by
      have ih := perm_filterMap_set l i p (by simpa using h)
      rcases o with _ | q
      · simpa using ih
      · simp only [List.set_cons_succ, List.filterMap_cons, id]
        exact (ih.cons q).trans (List.Perm.swap p q _)

variable [DecidableEq κ]

/-- Pairs in slots, together with the stack of vacated slots. -/
structure Dictionary (κ ν : Type*) [DecidableEq κ] where
  slots : List (Option (κ × ν))
  vacated : List ℕ
  keys_nodup : ((slots.filterMap id).map Prod.fst).Nodup
  vacated_nodup : vacated.Nodup
  vacated_vacant : ∀ i ∈ vacated, slots[i]? = some none

namespace Dictionary

/-- What an enumeration yields, in slot order. -/
def entries (d : Dictionary κ ν) : List (κ × ν) := d.slots.filterMap id

/-- The value stored under a key. -/
def get? (d : Dictionary κ ν) (k : κ) : Option ν :=
  (d.entries.find? fun e => e.1 = k).map Prod.snd

/-- How many pairs are stored. -/
def count (d : Dictionary κ ν) : ℕ := d.entries.length

/-- The dictionary without pairs. -/
def empty : Dictionary κ ν := ⟨[], [], by simp, by simp, by simp⟩

/-! ## Reading -/

lemma entries_keys_nodup (d : Dictionary κ ν) : (d.entries.map Prod.fst).Nodup := d.keys_nodup

/-- **An enumeration yields exactly the stored pairs.** -/
theorem mem_entries {d : Dictionary κ ν} {k : κ} {v : ν} :
    (k, v) ∈ d.entries ↔ d.get? k = some v := by
  constructor
  · intro h
    rcases hf : d.entries.find? (fun e => e.1 = k) with _ | e
    · rw [List.find?_eq_none] at hf
      exact absurd (decide_eq_true rfl) (hf _ h)
    · have hk : e.1 = k := by simpa using List.find?_some hf
      have he : e = (k, v) :=
        List.inj_on_of_nodup_map d.entries_keys_nodup (List.mem_of_find?_eq_some hf) h hk
      simp [get?, hf, he]
  · intro h
    simp only [get?, Option.map_eq_some_iff] at h
    obtain ⟨e, he, rfl⟩ := h
    have hk : e.1 = k := by simpa using List.find?_some he
    subst hk
    exact List.mem_of_find?_eq_some he

lemma get?_eq_none_iff {d : Dictionary κ ν} {k : κ} :
    d.get? k = none ↔ k ∉ d.entries.map Prod.fst := by
  constructor
  · intro h hk
    obtain ⟨⟨j, v⟩, he, rfl⟩ := List.mem_map.mp hk
    rw [mem_entries.mp he] at h
    simp at h
  · intro h
    rcases hg : d.get? k with _ | v
    · rfl
    · exact absurd (List.mem_map.mpr ⟨(k, v), mem_entries.mpr hg, rfl⟩) h

/-- Two dictionaries that enumerate the same pairs, in whatever order, answer the same. -/
lemma get?_of_mem_iff {d d' : Dictionary κ ν} {k : κ}
    (h : ∀ v, (k, v) ∈ d'.entries ↔ (k, v) ∈ d.entries) : d'.get? k = d.get? k := by
  refine Option.ext fun v => ?_
  have := h v
  simp only [mem_entries] at this
  exact this

@[simp] lemma get?_empty (k : κ) : (empty : Dictionary κ ν).get? k = none := rfl

@[simp] lemma entries_empty : (empty : Dictionary κ ν).entries = [] := rfl

/-- With one pair stored, a pair that is present is the only one. -/
lemma eq_of_count_eq_one {d : Dictionary κ ν} (h : d.count = 1) {j k : κ} {v w : ν}
    (hj : d.get? j = some v) (hk : d.get? k = some w) : j = k ∧ v = w := by
  rw [← mem_entries] at hj hk
  obtain ⟨e, he⟩ := List.length_eq_one_iff.mp h
  rw [he, List.mem_singleton] at hj hk
  exact Prod.mk.injEq .. ▸ hj.trans hk.symm

/-! ## Adding -/

/-- The slots and the vacated stack after a pair went into the slot vacated last, or to the end. -/
def place (d : Dictionary κ ν) (p : κ × ν) : List (Option (κ × ν)) × List ℕ :=
  match d.vacated with
  | [] => (d.slots ++ [some p], [])
  | i :: rest => (d.slots.set i (some p), rest)

lemma place_perm (d : Dictionary κ ν) (p : κ × ν) :
    ((d.place p).1.filterMap id).Perm (p :: d.entries) := by
  simp only [place]
  split
  · simp only [List.filterMap_append, entries]
    exact List.perm_append_singleton p _
  · rename_i i rest h
    exact perm_filterMap_set _ _ _ (d.vacated_vacant i (by rw [h]; simp))

lemma place_vacated_nodup (d : Dictionary κ ν) (p : κ × ν) : (d.place p).2.Nodup := by
  have := d.vacated_nodup
  simp only [place]
  split
  · simp
  · rename_i i rest h
    rw [h] at this
    exact (List.nodup_cons.mp this).2

lemma place_vacated_vacant (d : Dictionary κ ν) (p : κ × ν) :
    ∀ j ∈ (d.place p).2, (d.place p).1[j]? = some none := by
  have hnd := d.vacated_nodup
  have hv := d.vacated_vacant
  simp only [place]
  split
  · simp
  · rename_i i rest h
    rw [h] at hnd hv
    intro j hj
    have hij : i ≠ j := fun e => (List.nodup_cons.mp hnd).1 (e ▸ hj)
    rw [List.getElem?_set_ne hij]
    exact hv j (List.mem_cons_of_mem _ hj)

/-- Add a pair; `none` stands for the exception a present key raises. -/
def add? (d : Dictionary κ ν) (k : κ) (v : ν) : Option (Dictionary κ ν) :=
  if h : d.get? k = none then
    some
      { slots := (d.place (k, v)).1
        vacated := (d.place (k, v)).2
        keys_nodup := by
          have hp := (d.place_perm (k, v)).map Prod.fst
          rw [hp.nodup_iff, List.map_cons, List.nodup_cons]
          exact ⟨get?_eq_none_iff.mp h, d.entries_keys_nodup⟩
        vacated_nodup := d.place_vacated_nodup _
        vacated_vacant := d.place_vacated_vacant _ }
  else none

lemma add?_eq_none_iff {d : Dictionary κ ν} {k : κ} {v : ν} :
    d.add? k v = none ↔ d.get? k ≠ none := by
  unfold add?
  split <;> simp_all

lemma entries_of_add? {d d' : Dictionary κ ν} {k : κ} {v : ν} (h : d.add? k v = some d') :
    d.get? k = none ∧ d'.entries.Perm ((k, v) :: d.entries) := by
  unfold add? at h
  split at h
  · rename_i hk
    simp only [Option.some.injEq] at h
    subst h
    exact ⟨hk, d.place_perm (k, v)⟩
  · simp at h

/-- As long as nothing was removed, a new pair is the last one. -/
lemma entries_of_add?_of_vacated_nil {d d' : Dictionary κ ν} {k : κ} {v : ν} (hv : d.vacated = [])
    (h : d.add? k v = some d') : d'.entries = d.entries ++ [(k, v)] ∧ d'.vacated = [] := by
  have hfree := (entries_of_add? h).1
  rw [add?, dif_pos hfree, Option.some.injEq] at h
  rw [← h]
  simp [entries, place, hv]

/-- **Reading after an addition.** -/
theorem get?_of_add? {d d' : Dictionary κ ν} {k : κ} {v : ν} (h : d.add? k v = some d') (j : κ) :
    d'.get? j = if j = k then some v else d.get? j := by
  obtain ⟨-, hp⟩ := entries_of_add? h
  split_ifs with hj
  · subst hj
    exact mem_entries.mp (hp.mem_iff.mpr (by simp))
  · refine get?_of_mem_iff fun w => ?_
    rw [hp.mem_iff]
    simp [hj]

/-! ## Removing -/

/-- Empty the slot that holds the key. -/
def vacate (k : κ) (o : Option (κ × ν)) : Option (κ × ν) := if slotKey o = some k then none else o

lemma filterMap_vacate (k : κ) : ∀ l : List (Option (κ × ν)),
    (l.map (vacate k)).filterMap id = (l.filterMap id).filter fun e => e.1 ≠ k
  | [] => rfl
  | o :: l => by
      have ih := filterMap_vacate k l
      rcases o with _ | ⟨j, v⟩
      · simpa [vacate, slotKey] using ih
      · by_cases hj : j = k
        · simpa [vacate, slotKey, hj] using ih
        · simpa [vacate, slotKey, hj] using ih

/-- The vacated stack after the key was removed: its slot goes on top if there is one. -/
def vacatedBy (d : Dictionary κ ν) (k : κ) : List ℕ :=
  match d.slots.findIdx? (fun o => slotKey o = some k) with
  | none => d.vacated
  | some i => i :: d.vacated

/-- Remove a key; removing an absent one changes nothing. -/
def remove (d : Dictionary κ ν) (k : κ) : Dictionary κ ν where
  slots := d.slots.map (vacate k)
  vacated := d.vacatedBy k
  keys_nodup := by
    rw [filterMap_vacate]
    exact d.keys_nodup.sublist (List.Sublist.map _ List.filter_sublist)
  vacated_nodup := by
    simp only [vacatedBy]
    split
    · exact d.vacated_nodup
    · rename_i i hi
      refine List.nodup_cons.mpr ⟨fun hmem => ?_, d.vacated_nodup⟩
      -- the slot just found holds a pair, a vacated one does not
      have hvac := d.vacated_vacant i hmem
      obtain ⟨hlt, hkey, -⟩ := List.findIdx?_eq_some_iff_getElem.mp hi
      rw [List.getElem?_eq_getElem hlt, Option.some.injEq] at hvac
      simp [hvac, slotKey] at hkey
  vacated_vacant := by
    have hold : ∀ j : ℕ, d.slots[j]? = some none → (d.slots.map (vacate k))[j]? = some none := by
      intro j hj
      simp [List.getElem?_map, hj, vacate, slotKey]
    simp only [vacatedBy]
    split
    · exact fun j hj => hold j (d.vacated_vacant j hj)
    · rename_i i hi
      intro j hj
      rcases List.mem_cons.mp hj with rfl | hj
      · obtain ⟨hlt, hkey, -⟩ := List.findIdx?_eq_some_iff_getElem.mp hi
        have hkey' : slotKey d.slots[j] = some k := by simpa using hkey
        simp [List.getElem?_map, List.getElem?_eq_getElem hlt, vacate, hkey']
      · exact hold j (d.vacated_vacant j hj)

lemma entries_remove (d : Dictionary κ ν) (k : κ) :
    (d.remove k).entries = d.entries.filter fun e => e.1 ≠ k := filterMap_vacate k d.slots

/-- Filling a vacant slot shows in the pairs under that key only. -/
lemma filter_filterMap_set : ∀ (l : List (Option (κ × ν))) (i : ℕ) (p : κ × ν), l[i]? = some none →
    ((l.set i (some p)).filterMap id).filter (fun e => e.1 ≠ p.1) =
      (l.filterMap id).filter fun e => e.1 ≠ p.1
  | [], _, _, h => by simp at h
  | o :: l, 0, p, h => by
      obtain rfl : o = none := by simpa using h
      simp
  | o :: l, i + 1, p, h => by
      have ih := filter_filterMap_set l i p (by simpa using h)
      rcases o with _ | e
      · simpa using ih
      · have hcons : ∀ l' : List (Option (κ × ν)),
            (some e :: l').filterMap id = e :: l'.filterMap id := fun _ => rfl
        rw [List.set_cons_succ, hcons, hcons, List.filter_cons, List.filter_cons, ih]

/-- **What is removed right after it was added leaves the pairs as they were**, in their order. -/
theorem entries_remove_of_add? {d d' : Dictionary κ ν} {k : κ} {v : ν}
    (h : d.add? k v = some d') : (d'.remove k).entries = d.entries := by
  have hfree := (entries_of_add? h).1
  have hkeep : (d.entries.filter fun e => e.1 ≠ k) = d.entries := by
    refine List.filter_eq_self.mpr fun e he => ?_
    have hkey := get?_eq_none_iff.mp hfree
    simpa using fun hek => hkey (List.mem_map.mpr ⟨e, he, hek⟩)
  have hslots : d'.entries = (d.place (k, v)).1.filterMap id := by
    rw [add?, dif_pos hfree, Option.some.injEq] at h
    rw [← h]
    rfl
  rw [entries_remove, hslots, ← hkeep]
  simp only [place]
  split
  · simp [entries]
  · rename_i i rest hv
    exact filter_filterMap_set _ _ (k, v) (d.vacated_vacant i (by rw [hv]; simp))

/-- **Reading after a removal.** -/
@[simp] theorem get?_remove (d : Dictionary κ ν) (k j : κ) :
    (d.remove k).get? j = if j = k then none else d.get? j := by
  split_ifs with hj
  · rw [get?_eq_none_iff, entries_remove]
    simp [hj]
  · refine get?_of_mem_iff fun w => ?_
    rw [entries_remove]
    simp [hj]

end Dictionary
