import Mathlib.Data.List.Forall2

/-!
# Computations that succeed

What it takes for a computation with exceptions to succeed: a sequence of two if both do
(`bind_eq_ok_iff`), a pass over a list if each of its elements does (`mapM_eq_ok_iff`,
`exists_mapM_eq_ok_iff`).  Two computations are `Alike` if they succeed with the same values; how
they fail is not compared.
-/

namespace Except

variable {ε α β γ : Type}

lemma bind_eq_ok_iff {x : Except ε α} {f : α → Except ε β} {b : β} :
    (x >>= f) = .ok b ↔ ∃ a, x = .ok a ∧ f a = .ok b := by
  cases x with
  | error e => simp [bind, Except.bind]
  | ok a => simp [bind, Except.bind]

/-- A pass over a list succeeds with what its elements succeed with. -/
theorem mapM_eq_ok_iff {f : α → Except ε β} {l : List α} {r : List β} :
    l.mapM f = .ok r ↔ List.Forall₂ (fun a b => f a = .ok b) l r := by
  induction l generalizing r with
  | nil =>
      rw [List.mapM_nil, List.forall₂_nil_left_iff]
      exact ⟨fun h => (Except.ok.inj h).symm, fun h => congrArg Except.ok h.symm⟩
  | cons a l ih =>
      rw [List.mapM_cons, bind_eq_ok_iff, List.forall₂_cons_left_iff]
      constructor
      · rintro ⟨b, hb, hrest⟩
        obtain ⟨bs, hbs, hr⟩ := bind_eq_ok_iff.mp hrest
        exact ⟨b, bs, hb, ih.mp hbs, (Except.ok.inj hr).symm⟩
      · rintro ⟨b, bs, hb, hbs, rfl⟩
        exact ⟨b, hb, bind_eq_ok_iff.mpr ⟨bs, ih.mpr hbs, rfl⟩⟩

/-- A pass over a list succeeds if it does so at every element. -/
lemma exists_mapM_eq_ok_iff {f : α → Except ε β} {l : List α} :
    (∃ r, l.mapM f = .ok r) ↔ ∀ a ∈ l, ∃ b, f a = .ok b := by
  simp only [mapM_eq_ok_iff]
  induction l with
  | nil => simp
  | cons a l ih =>
      simp only [List.forall₂_cons_left_iff, List.forall_mem_cons, ← ih]
      constructor
      · rintro ⟨r, b, bs, hb, hbs, -⟩
        exact ⟨⟨b, hb⟩, bs, hbs⟩
      · rintro ⟨⟨b, hb⟩, bs, hbs⟩
        exact ⟨b :: bs, b, bs, hb, hbs, rfl⟩

/-! ## Computations that succeed alike -/

/-- Both computations succeed with the same value, or both fail. -/
def Alike (x y : Except ε α) : Prop := ∀ a, x = .ok a ↔ y = .ok a

lemma Alike.of_eq {x y : Except ε α} (h : x = y) : Alike x y := fun _ => by rw [h]

lemma Alike.bind {x y : Except ε α} {f g : α → Except ε β} (h : Alike x y)
    (hfg : ∀ a, Alike (f a) (g a)) : Alike (x >>= f) (y >>= g) := by
  intro b
  simp only [bind_eq_ok_iff]
  exact exists_congr fun a => and_congr (h a) (hfg a b)

/-- A value that is wrapped up can be told by its wrapping. -/
lemma alike_map_iff {x y : Except ε α} {f : α → β} (hf : Function.Injective f) :
    Alike (x >>= fun a => pure (f a)) (y >>= fun a => pure (f a)) ↔ Alike x y := by
  constructor
  · intro h a
    have hfa := h (f a)
    simp only [bind_eq_ok_iff, pure, Except.pure, Except.ok.injEq, hf.eq_iff] at hfa
    simpa using hfa
  · exact fun h => h.bind fun _ => .of_eq rfl

/-- Lists that stand beside the same list stand beside each other. -/
lemma forall₂_exists {R : α → β → Prop} {S : γ → β → Prop} {l : List α} {l' : List γ} {r : List β}
    (h : List.Forall₂ R l r) (h' : List.Forall₂ S l' r) :
    List.Forall₂ (fun a c => ∃ b, R a b ∧ S c b) l l' := by
  induction h generalizing l' with
  | nil =>
      rw [List.forall₂_nil_right_iff] at h'
      rw [h']
      exact .nil
  | cons ha _ ih =>
      obtain ⟨c, l'', hc, hrest, rfl⟩ := List.forall₂_cons_right_iff.mp h'
      exact .cons ⟨_, ha, hc⟩ (ih hrest)

/-- A pass over two lists succeeds alike if it does so element by element. -/
lemma alike_mapM {f : α → Except ε β} {g : γ → Except ε β} {l : List α} {l' : List γ}
    (h : List.Forall₂ (fun a c => Alike (f a) (g c)) l l') : Alike (l.mapM f) (l'.mapM g) := by
  intro r
  simp only [mapM_eq_ok_iff]
  induction h generalizing r with
  | nil => simp
  | cons ha _ ih => simp only [List.forall₂_cons_left_iff, ha _, ih]

end Except
