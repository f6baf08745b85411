import Mathlib.Data.List.Basic

/-!
# Runs of a deterministic step function

A run is a start state and a list of labels; whatever the environment chooses is in the labels, so
"for every interleaving" is "for every list".  Two ways of speaking about a run are used:

* `Throughout step P s es`: `P` holds of every state met, the first and the last included;
* `Along step ok s es`: `ok` holds of every pair of a state met and the label taken there.

`throughout_of_along` is the invariant rule, relative to a condition on the steps taken, and
`along_of_along` its form for properties of steps.  `throughout_iff_along` is the exact form: when
every step that breaks the condition also breaks the property, the runs that keep the property are
precisely the runs whose steps all meet the condition.  `along_congr` compares two conditions on
steps.
-/

namespace Runs

variable {σ ε : Type*} (step : σ → ε → σ)

/-- The state a run ends in. -/
def run (s : σ) : List ε → σ
  | [] => s
  | e :: es => run (step s e) es

/-- `P` holds of every state the run meets. -/
def Throughout (P : σ → Prop) : σ → List ε → Prop
  | s, [] => P s
  | s, e :: es => P s ∧ Throughout P (step s e) es

/-- `ok` holds of every step the run takes, judged in the state before it. -/
def Along (ok : σ → ε → Prop) : σ → List ε → Prop
  | _, [] => True
  | s, e :: es => ok s e ∧ Along ok (step s e) es

instance decidableAlong (ok : σ → ε → Prop) [∀ s e, Decidable (ok s e)] :
    ∀ (s : σ) (es : List ε), Decidable (Along step ok s es)
  | _, [] => .isTrue trivial
  | s, e :: es =>
      have := decidableAlong ok (step s e) es
      inferInstanceAs (Decidable (_ ∧ _))

variable {step}

lemma throughout_head {P : σ → Prop} {s : σ} : ∀ {es : List ε}, Throughout step P s es → P s
  | [], h => h
  | _ :: _, h => h.1

/-! ## Cutting a run in two -/

@[simp] lemma run_append (s : σ) (es es' : List ε) :
    run step s (es ++ es') = run step (run step s es) es' := by
  induction es generalizing s with
  | nil => rfl
  | cons e es ih => exact ih (step s e)

lemma along_append {ok : σ → ε → Prop} {s : σ} {es es' : List ε} (h : Along step ok s es)
    (h' : Along step ok (run step s es) es') : Along step ok s (es ++ es') := by
  induction es generalizing s with
  | nil => exact h'
  | cons e es ih => exact ⟨h.1, ih h.2 h'⟩

lemma along_split {ok : σ → ε → Prop} {s : σ} {es es' : List ε}
    (h : Along step ok s (es ++ es')) : Along step ok s es ∧ Along step ok (run step s es) es' := by
  induction es generalizing s with
  | nil => exact ⟨trivial, h⟩
  | cons e es ih => exact ⟨⟨h.1, (ih h.2).1⟩, (ih h.2).2⟩

/-! ## Conditions on steps -/

/-- A condition on labels alone. -/
lemma along_of_forall {allowed : ε → Prop} {es : List ε} (hes : ∀ e ∈ es, allowed e) (s : σ) :
    Along step (fun _ => allowed) s es := by
  induction es generalizing s with
  | nil => trivial
  | cons e es ih => exact ⟨hes e (by simp), ih (fun f hf => hes f (by simp [hf])) (step s e)⟩

/-- No condition. -/
lemma along_true (s : σ) (es : List ε) : Along step (fun _ _ => True) s es :=
  along_of_forall (fun _ _ => trivial) s

lemma along_and {ok ok' : σ → ε → Prop} {s : σ} {es : List ε} (h : Along step ok s es)
    (h' : Along step ok' s es) : Along step (fun s e => ok s e ∧ ok' s e) s es := by
  induction es generalizing s with
  | nil => trivial
  | cons e es ih => exact ⟨⟨h.1, h'.1⟩, ih h.2 h'.2⟩

section Rules

variable {J P : σ → Prop} {ok ok' permits : σ → ε → Prop} {s : σ} {es : List ε}

/-- What every step of a run keeps holds at its end. -/
lemma run_of_along (hstep : ∀ s e, J s → ok s e → J (step s e)) (hs : J s)
    (h : Along step ok s es) : J (run step s es) := by
  induction es generalizing s with
  | nil => exact hs
  | cons e es ih => exact ih (hstep s e hs h.1) h.2

lemma run_of_step (hstep : ∀ s e, J s → J (step s e)) (hs : J s) (es : List ε) :
    J (run step s es) :=
  run_of_along (fun s e hJ _ => hstep s e hJ) hs (along_true s es)

/-- **The invariant rule.**  What follows from an invariant that steps keep whenever they meet the
condition holds throughout every run whose steps all meet it. -/
theorem throughout_of_along (hstep : ∀ s e, J s → ok s e → J (step s e)) (hP : ∀ s, J s → P s)
    (hs : J s) (h : Along step ok s es) : Throughout step P s es := by
  induction es generalizing s with
  | nil => exact hP s hs
  | cons e es ih => exact ⟨hP s hs, ih (hstep s e hs h.1) h.2⟩

/-- The invariant rule for properties of steps. -/
theorem along_of_along {Q : σ → ε → Prop} (hstep : ∀ s e, J s → ok s e → J (step s e))
    (hQ : ∀ s e, J s → ok s e → Q s e) (hs : J s) (h : Along step ok s es) :
    Along step Q s es := by
  induction es generalizing s with
  | nil => trivial
  | cons e es ih => exact ⟨hQ s e hs h.1, ih (hstep s e hs h.1) h.2⟩

/-- **The exact rule.**  If moreover a step that breaks the condition breaks the property, then a
run of permitted steps keeps the property throughout if and only if its steps all meet the
condition. -/
theorem throughout_iff_along (hstep : ∀ s e, permits s e → J s → ok s e → J (step s e))
    (hP : ∀ s, J s → P s) (hbreak : ∀ s e, permits s e → J s → ¬ ok s e → ¬ P (step s e))
    (hs : J s) (hes : Along step permits s es) :
    Throughout step P s es ↔ Along step ok s es := by
  induction es generalizing s with
  | nil => simp [Throughout, Along, hP s hs]
  | cons e es ih =>
      obtain ⟨he, hrest⟩ := hes
      by_cases hok : ok s e
      · simp only [Throughout, Along, hP s hs, hok, true_and]
        exact ih (hstep s e he hs hok) hrest
      · simp only [Throughout, Along, hok, false_and, iff_false, not_and]
        exact fun _ h => hbreak s e he hs hok (throughout_head h)

/-- Two conditions that agree wherever an invariant holds agree along every run, if steps that meet
them keep the invariant. -/
theorem along_congr (hstep : ∀ s e, permits s e → J s → ok' s e → J (step s e))
    (hiff : ∀ s e, permits s e → J s → (ok s e ↔ ok' s e)) (hs : J s)
    (hes : Along step permits s es) : Along step ok s es ↔ Along step ok' s es := by
  induction es generalizing s with
  | nil => exact Iff.rfl
  | cons e es ih =>
      obtain ⟨he, hrest⟩ := hes
      simp only [Along]
      rw [hiff s e he hs]
      exact and_congr_right fun hok => ih (hstep s e he hs hok) hrest

end Rules

end Runs
