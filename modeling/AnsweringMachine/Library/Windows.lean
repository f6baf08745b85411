import Mathlib.Data.List.Forall2
import Mathlib.Order.WithBot

/-!
# Windows of time

A window opens at an instant and closes at a later one, or never.  Finitely many windows have an
instant in common if and only if none of them closes before another one opens (`exists_common_iff`):
the instant at which the last of them opens will do.

Something that holds in one window or another, such as a condition that comes true again and again,
is a predicate on windows.  `exists_together_iff` is the same for several of these: one window can
be chosen for each.
-/

/-- The instants from one on, up to another, if it has an end. -/
structure Window (α : Type*) where
  opens : α
  closes : WithTop α

namespace Window

variable {α τ : Type*} [LinearOrder α]

/-- The instant is in the window. -/
def Contains (w : Window α) (t : α) : Prop := w.opens ≤ t ∧ (t : WithTop α) ≤ w.closes

/-- None of the windows closes before another one, or itself, opens. -/
def Overlap (windows : List (Window α)) : Prop :=
  ∀ w ∈ windows, ∀ w' ∈ windows, (w.opens : WithTop α) ≤ w'.closes

/-- One of finitely many windows opens last. -/
lemma exists_last {windows : List (Window α)} (hne : windows ≠ []) :
    ∃ last ∈ windows, ∀ w ∈ windows, w.opens ≤ last.opens := by
  induction windows with
  | nil => exact absurd rfl hne
  | cons w windows ih =>
      by_cases hnil : windows = []
      · exact ⟨w, by simp, by simp [hnil]⟩
      · obtain ⟨last, hmem, hlast⟩ := ih hnil
        rcases le_total w.opens last.opens with h | h
        · exact ⟨last, by simp [hmem], by simpa using ⟨h, hlast⟩⟩
        · exact ⟨w, by simp, by simpa using fun w' hw' => (hlast w' hw').trans h⟩

/-- **Windows that overlap two by two have an instant in common.** -/
theorem exists_common_iff {windows : List (Window α)} (hne : windows ≠ []) :
    (∃ t, ∀ w ∈ windows, w.Contains t) ↔ Overlap windows := by
  constructor
  · rintro ⟨t, ht⟩ w hw w' hw'
    exact (WithTop.coe_le_coe.mpr (ht w hw).1).trans (ht w' hw').2
  · intro h
    obtain ⟨last, hmem, hlast⟩ := exists_last hne
    exact ⟨last.opens, fun w hw => ⟨hlast w hw, h last hmem w hw⟩⟩

/-- One window for each of several conditions. -/
lemma forall₂_exists_iff {holdsIn : τ → Window α → Prop} {conditions : List τ} {t : α} :
    (∀ c ∈ conditions, ∃ w, holdsIn c w ∧ w.Contains t) ↔
      ∃ windows, List.Forall₂ holdsIn conditions windows ∧ ∀ w ∈ windows, w.Contains t := by
  induction conditions with
  | nil => simp
  | cons c conditions ih =>
      simp only [List.forall_mem_cons, ih, List.forall₂_cons_left_iff]
      constructor
      · rintro ⟨⟨w, hw, ht⟩, windows, hall, hts⟩
        exact ⟨w :: windows, ⟨w, windows, hw, hall, rfl⟩, by simpa using ⟨ht, hts⟩⟩
      · rintro ⟨_, ⟨w, windows, hw, hall, rfl⟩, hts⟩
        rw [List.forall_mem_cons] at hts
        exact ⟨⟨w, hw, hts.1⟩, windows, hall, hts.2⟩

/-- **Conditions that hold in windows hold together** within a given window if and only if windows
of theirs can be chosen that overlap with each other and with that one. -/
theorem exists_together_iff {holdsIn : τ → Window α → Prop} {conditions : List τ}
    (span : Window α) :
    (∃ t, span.Contains t ∧ ∀ c ∈ conditions, ∃ w, holdsIn c w ∧ w.Contains t) ↔
      ∃ windows, List.Forall₂ holdsIn conditions windows ∧ Overlap (span :: windows) := by
  simp only [forall₂_exists_iff, ← exists_common_iff (List.cons_ne_nil span _),
    List.forall_mem_cons]
  constructor
  · rintro ⟨t, hspan, windows, hall, ht⟩
    exact ⟨windows, hall, t, hspan, ht⟩
  · rintro ⟨windows, hall, t, hspan, ht⟩
    exact ⟨t, hspan, windows, hall, ht⟩

end Window
