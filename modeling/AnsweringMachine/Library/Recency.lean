import Mathlib.Data.List.Basic
import Mathlib.Data.List.Nodup

/-!
# Most recent first, one entry for each key

A recency list is the digest of a history of changes: values are added under keys, a key is
dropped, everything is cleared.  It holds one entry for each key that was added since it was last
dropped, the key added last in front.  `entry k a n` is what the list holds for a key `k` whose
latest value is `a` and that had been added `n` times before, since it was last dropped.

A history is written latest change first.  `Reflects past l` says that `l` is the digest of `past`,
in terms of the history alone, and there is one rule for each change: an addition puts the entry
in front of the list without the old entry of its key (`Reflects.add`), a drop takes the entry out
(`Reflects.drop`), a clearance leaves the empty list (`reflects_clear`).  `Reflects.restrict` is
about a reader who does not see every key, and only a part of each value: it is the same to forget
the rest of the history and to forget the rest of its digest.
-/

namespace Recency

/-- A change of the digest. -/
inductive Change (κ α : Type*)
  | add (k : κ) (a : α)
  | drop (k : κ)
  | clear

variable {κ α β : Type*} [DecidableEq κ]

/-- Does the change add under this key? -/
def Change.adds (k : κ) : Change κ α → Bool
  | .add j _ => j = k
  | .drop _ | .clear => false

/-- The values added under a key since it was last dropped, latest first. -/
def since (k : κ) : List (Change κ α) → List α
  | [] => []
  | .add j a :: past => if j = k then a :: since k past else since k past
  | .drop j :: past => if j = k then [] else since k past
  | .clear :: _ => []

/-- How many changes were made after the last addition under a key. -/
def age (k : κ) (past : List (Change κ α)) : ℕ := past.findIdx (Change.adds k)

/-- The list is the digest of the history. -/
structure Reflects (key : β → κ) (entry : κ → α → ℕ → β) (past : List (Change κ α))
    (l : List β) : Prop where
  /-- The entries are those of the keys added since they were last dropped, with the latest value
  and the number of earlier additions. -/
  mem_iff : ∀ b, b ∈ l ↔ ∃ a earlier, since (key b) past = a :: earlier ∧
    b = entry (key b) a earlier.length
  /-- The key added last stands in front. -/
  latest_first : l.Pairwise fun b c => age (key b) past < age (key c) past

variable {key : β → κ} {entry : κ → α → ℕ → β} {past : List (Change κ α)} {l : List β}

/-! ## Reading a digest -/

/-- No two entries have the same key. -/
lemma Reflects.nodup (h : Reflects key entry past l) : (l.map key).Nodup := by
  refine List.Pairwise.map key (fun b c hlt => ?_) h.latest_first
  intro heq
  rw [heq] at hlt
  exact Nat.lt_irrefl _ hlt

/-- A key that was not added has no entry. -/
lemma Reflects.key_ne (h : Reflects key entry past l) {k : κ} (hk : since k past = []) :
    ∀ b ∈ l, key b ≠ k := by
  rintro b hb rfl
  obtain ⟨a, earlier, hs, -⟩ := (h.mem_iff b).mp hb
  simp [hk] at hs

lemma Reflects.filter_eq_self (h : Reflects key entry past l) {k : κ} (hk : since k past = []) :
    l.filter (fun b => key b ≠ k) = l :=
  List.filter_eq_self.mpr fun b hb => by simpa using h.key_ne hk b hb

/-- A search by key finds nothing under a key that was not added ... -/
lemma Reflects.find?_eq_none (h : Reflects key entry past l) {k : κ} (hk : since k past = []) :
    l.find? (fun b => key b = k) = none :=
  List.find?_eq_none.mpr fun b hb => by simpa using h.key_ne hk b hb

/-- ... and the entry of a key that was. -/
lemma Reflects.find?_eq_some (h : Reflects key entry past l)
    (hentry : ∀ k a n, key (entry k a n) = k)
    {k : κ} {a : α} {earlier : List α} (hk : since k past = a :: earlier) :
    l.find? (fun b => key b = k) = some (entry k a earlier.length) := by
  have hmem : entry k a earlier.length ∈ l :=
    (h.mem_iff _).mpr ⟨a, earlier, by rw [hentry]; exact hk, by rw [hentry]⟩
  rcases hf : l.find? (fun b => key b = k) with _ | b
  · rw [List.find?_eq_none] at hf
    exact absurd (decide_eq_true (hentry k a earlier.length)) (hf _ hmem)
  · have hb : key b = k := by simpa using List.find?_some hf
    have heq : key b = key (entry k a earlier.length) := hb.trans (hentry k a _).symm
    rw [List.inj_on_of_nodup_map h.nodup (List.mem_of_find?_eq_some hf) hmem heq]

/-! ## How a history grows -/

@[simp] lemma since_add_self (k : κ) (a : α) (past : List (Change κ α)) :
    since k (.add k a :: past) = a :: since k past := if_pos rfl

lemma since_add_of_ne {j k : κ} (h : j ≠ k) (a : α) (past : List (Change κ α)) :
    since k (.add j a :: past) = since k past := if_neg h

@[simp] lemma since_drop_self (k : κ) (past : List (Change κ α)) :
    since k (.drop k :: past) = [] := if_pos rfl

lemma since_drop_of_ne {j k : κ} (h : j ≠ k) (past : List (Change κ α)) :
    since k (.drop j :: past) = since k past := if_neg h

@[simp] lemma since_clear (k : κ) (past : List (Change κ α)) : since k (.clear :: past) = [] := rfl

@[simp] lemma age_add_self (k : κ) (a : α) (past : List (Change κ α)) :
    age k (.add k a :: past) = 0 := by
  simp [age, List.findIdx_cons, Change.adds]

/-- Any change that is not an addition under the key leaves its last addition one further back. -/
lemma age_cons {k : κ} {c : Change κ α} (h : c.adds k = false) (past : List (Change κ α)) :
    age k (c :: past) = age k past + 1 := by
  simp [age, List.findIdx_cons, h]

lemma adds_of_ne {j k : κ} (h : j ≠ k) (a : α) : (Change.add j a).adds k = false := by
  simpa [Change.adds] using h

/-- The order of entries under other keys is not touched by a change. -/
lemma Reflects.pairwise_cons (h : Reflects key entry past l) {p : β → Bool} {c : Change κ α}
    (hc : ∀ b ∈ l, p b = true → c.adds (key b) = false) :
    (l.filter p).Pairwise fun b d => age (key b) (c :: past) < age (key d) (c :: past) := by
  refine (h.latest_first.filter p).imp_of_mem fun {b d} hb hd hlt => ?_
  rw [List.mem_filter] at hb hd
  rw [age_cons (hc b hb.1 hb.2), age_cons (hc d hd.1 hd.2)]
  exact Nat.succ_lt_succ hlt

/-! ## One rule for each change -/

lemma reflects_nil : Reflects key entry ([] : List (Change κ α)) [] :=
  ⟨by simp [since], List.Pairwise.nil⟩

lemma reflects_clear : Reflects key entry (.clear :: past) [] :=
  ⟨by simp, List.Pairwise.nil⟩

/-- Dropping a key takes its entry out. -/
theorem Reflects.drop (h : Reflects key entry past l) (k : κ) :
    Reflects key entry (.drop k :: past) (l.filter fun b => key b ≠ k) := by
  refine ⟨fun b => ?_, h.pairwise_cons fun _ _ _ => rfl⟩
  rw [List.mem_filter, h.mem_iff]
  by_cases hb : key b = k
  · simp [hb]
  · rw [since_drop_of_ne (Ne.symm hb)]
    simp [hb]

/-- Adding under a key puts its entry in front, in place of the old one. -/
theorem Reflects.add (h : Reflects key entry past l) (hentry : ∀ k a n, key (entry k a n) = k)
    (k : κ) (a : α) :
    Reflects key entry (.add k a :: past)
      (entry k a (since k past).length :: l.filter fun b => key b ≠ k) := by
  refine ⟨fun b => ?_, List.pairwise_cons.mpr ⟨fun b hb => ?_, ?_⟩⟩
  · rw [List.mem_cons, List.mem_filter, h.mem_iff]
    by_cases hb : key b = k
    · subst hb
      simp
    · have hne : b ≠ entry k a (since k past).length := fun heq => hb (by rw [heq, hentry])
      rw [since_add_of_ne (Ne.symm hb)]
      simp [hb, hne]
  · -- the entry in front was added by this very change
    have hb : key b ≠ k := by simpa using (List.mem_filter.mp hb).2
    rw [hentry, age_add_self, age_cons (adds_of_ne (Ne.symm hb) a)]
    exact Nat.succ_pos _
  · exact h.pairwise_cons fun b _ hb => adds_of_ne (by simpa using Ne.symm (of_decide_eq_true hb)) a

/-! ## Forgetting keys -/

section Restrict

variable (keep : κ → Bool) (g : α → α)

/-- A change as a reader sees it who knows some keys only and a part of each value. -/
def Change.restrict : Change κ α → Option (Change κ α)
  | .add k a => if keep k then some (.add k (g a)) else none
  | .drop k => some (.drop k)
  | .clear => some .clear

lemma since_restrict (k : κ) (past : List (Change κ α)) :
    since k (past.filterMap (Change.restrict keep g)) =
      if keep k then (since k past).map g else [] := by
  induction past with
  | nil => simp [since]
  | cons c past ih =>
      cases c with
      | add j a =>
          by_cases hj : keep j
          · by_cases hjk : j = k
            · subst hjk
              simp [Change.restrict, hj, ih]
            · simp [Change.restrict, hj, since_add_of_ne hjk, ih]
          · have hne : keep k = true → j ≠ k := fun hk hjk => hj (hjk ▸ hk)
            by_cases hk : keep k
            · simp [Change.restrict, hj, hk, since_add_of_ne (hne hk), ih]
            · simp [Change.restrict, hj, hk, ih]
      | drop j =>
          by_cases hjk : j = k
          · simp [Change.restrict, hjk]
          · simp [Change.restrict, since_drop_of_ne hjk, ih]
      | clear => simp [Change.restrict]

/-- Of two keys that are seen, the one added last is seen to be so. -/
lemma age_lt_restrict {j k : κ} (hj : keep j = true) (past : List (Change κ α))
    (h : age j past < age k past) :
    age j (past.filterMap (Change.restrict keep g)) <
      age k (past.filterMap (Change.restrict keep g)) := by
  induction past with
  | nil => exact absurd h (Nat.lt_irrefl _)
  | cons c past ih =>
      -- a change that adds under neither key leaves the order to the rest of the history
      have hneither : c.adds j = false → c.adds k = false → age j past < age k past := by
        intro hcj hck
        rw [age_cons hcj, age_cons hck] at h
        exact Nat.lt_of_succ_lt_succ h
      cases c with
      | add i a =>
          by_cases hik : i = k
          · rw [hik, age_add_self] at h
            exact absurd h (Nat.not_lt_zero _)
          · by_cases hij : i = j
            · subst hij
              simp [Change.restrict, hj, age_cons (adds_of_ne hik (g a))]
            · have hrest := ih (hneither (adds_of_ne hij a) (adds_of_ne hik a))
              by_cases hi : keep i
              · simpa [Change.restrict, hi, age_cons (adds_of_ne hij (g a)),
                  age_cons (adds_of_ne hik (g a))] using hrest
              · simpa [Change.restrict, hi] using hrest
      | drop i =>
          have hrest := ih (hneither rfl rfl)
          have hcons (k : κ) (past : List (Change κ α)) :
              age k (.drop i :: past) = age k past + 1 :=
            age_cons rfl past
          simpa [Change.restrict, hcons] using hrest
      | clear =>
          have hrest := ih (hneither rfl rfl)
          have hcons (k : κ) (past : List (Change κ α)) : age k (.clear :: past) = age k past + 1 :=
            age_cons rfl past
          simpa [Change.restrict, hcons] using hrest

/-- **The digest of what is seen of a history is what is seen of its digest.** -/
theorem Reflects.restrict (h : Reflects key entry past l)
    (hentry : ∀ k a n, key (entry k a n) = k) {see : β → Option β}
    (hsee : ∀ k a n, see (entry k a n) = if keep k then some (entry k (g a) n) else none) :
    Reflects key entry (past.filterMap (Change.restrict keep g)) (l.filterMap see) := by
  -- an entry that is seen keeps its key, and its key is one of those known
  have hkey : ∀ b ∈ l, ∀ b', see b = some b' → key b' = key b ∧ keep (key b) = true := by
    intro b hb b' hb'
    obtain ⟨a, earlier, -, heq⟩ := (h.mem_iff b).mp hb
    rw [heq, hsee] at hb'
    by_cases hk : keep (key b)
    · rw [if_pos hk, Option.some.injEq] at hb'
      exact ⟨by rw [← hb', hentry], hk⟩
    · simp [hk] at hb'
  refine ⟨fun b' => ?_, ?_⟩
  · rw [List.mem_filterMap, since_restrict]
    constructor
    · rintro ⟨b, hb, hb'⟩
      obtain ⟨hk, hkeep⟩ := hkey b hb b' hb'
      obtain ⟨a, earlier, hs, heq⟩ := (h.mem_iff b).mp hb
      rw [heq, hsee, if_pos hkeep, Option.some.injEq] at hb'
      refine ⟨g a, earlier.map g, ?_, ?_⟩
      · rw [hk, if_pos hkeep, hs, List.map_cons]
      · rw [hk, List.length_map, hb']
    · rintro ⟨a', earlier', hs, heq⟩
      by_cases hkeep : keep (key b')
      · rw [if_pos hkeep, List.map_eq_cons_iff] at hs
        obtain ⟨a, earlier, hs, rfl, rfl⟩ := hs
        refine ⟨entry (key b') a earlier.length, (h.mem_iff _).mpr ?_, ?_⟩
        · exact ⟨a, earlier, by rw [hentry]; exact hs, by rw [hentry]⟩
        · rw [hsee, if_pos hkeep, heq, hentry, List.length_map]
      · simp [hkeep] at hs
  · rw [List.pairwise_filterMap]
    refine h.latest_first.imp_of_mem fun {b c} hb hc hlt b' hb' c' hc' => ?_
    rw [(hkey b hb b' hb').1, (hkey c hc c' hc').1]
    exact age_lt_restrict keep g (hkey b hb b' hb').2 past hlt

end Restrict

end Recency
