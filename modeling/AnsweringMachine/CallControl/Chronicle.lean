import AnsweringMachine.CallControl.Courses
import AnsweringMachine.Library.Runs

/-!
# The chronicle of a manager

A `Chronicle` runs a manager and keeps books of it: for every machine the moves it made, each with
the surroundings of the moment (its *life*), and for every log entry the machine it is about.

**They are true.**  The record of a machine is what its life makes of an empty one, and the entries
in the books, in order, are the calls that were written to the log (`Faithful.perform`).

**They are easy to reason about.**  What each move keeps of a manager and its books, a course keeps
(`Course.books`).
-/

namespace TAM

open Runs

/-- The moves of a machine, each with the surroundings it was made in. -/
abbrev Life := List (Surroundings × Move)

namespace Life

/-- What a life makes of an empty record. -/
def record (ℓ : Life) : CStateMachine := run (fun c p => p.2.after p.1 c) {} ℓ

/-- How often the machine was destroyed. -/
def timesDestroyed (ℓ : Life) : ℕ := ℓ.countP fun p => p.2.destroys p.1.factory

@[simp] lemma record_nil : record [] = {} := rfl

@[simp] lemma record_append (ℓ : Life) (x : Surroundings) (v : Move) :
    record (ℓ ++ [(x, v)]) = v.after x (record ℓ) := by
  simp [record, run]

@[simp] lemma timesDestroyed_nil : timesDestroyed [] = 0 := rfl

lemma timesDestroyed_append (ℓ : Life) (x : Surroundings) (v : Move) :
    timesDestroyed (ℓ ++ [(x, v)]) = timesDestroyed ℓ + if v.destroys x.factory then 1 else 0 := by
  simp [timesDestroyed, List.countP_append, List.countP_singleton]

end Life

/-- The books: the life of every machine, and the log entries with the machine they are about. -/
structure Books where
  lives : MachineRef → Life
  journal : List (MachineRef × LogEntry)

namespace Books

/-- Enter a move. -/
def post (x : Surroundings) (b : Books) (p : MachineRef × Move) : Books where
  lives := Function.update b.lives p.1 (b.lives p.1 ++ [(x, p.2)])
  journal := b.journal ++ (p.2.entries x (b.lives p.1).record).map (Prod.mk p.1)

/-- The log entries about a machine. -/
def entriesOf (b : Books) (r : MachineRef) : List LogEntry :=
  (b.journal.filter fun p => p.1 = r).map Prod.snd

variable {x : Surroundings} {b : Books} {r s : MachineRef} {v : Move}

@[simp] lemma post_lives_self : (b.post x (r, v)).lives r = b.lives r ++ [(x, v)] := by
  simp [post]

lemma post_lives_of_ne (h : s ≠ r) : (b.post x (r, v)).lives s = b.lives s := by
  simp [post, h]

@[simp] lemma post_entriesOf_self : (b.post x (r, v)).entriesOf r =
    b.entriesOf r ++ v.entries x (b.lives r).record := by
  simp [entriesOf, post, List.filter_map, Function.comp_def]

lemma post_entriesOf_of_ne (h : s ≠ r) : (b.post x (r, v)).entriesOf s = b.entriesOf s := by
  simp [entriesOf, post, List.filter_map, Function.comp_def, Ne.symm h]

end Books

/-- A manager, its books, and everything it has written to the log. -/
structure Chronicle where
  manager : CCallManager
  books : Books
  written : List LogEntry

namespace Chronicle

/-- One event, with its moves entered in the books. -/
def perform (w : Chronicle) (e : CCallManager.Event) : Chronicle where
  manager := w.manager.step e
  books := run (Books.post w.manager.around) w.books
    (CCallManager.movesOf { w.manager with out := [] } e)
  written := w.written ++ addedCalls (w.manager.step e).out

/-- A manager without calls, and empty books. -/
def initial (around : Surroundings) : Chronicle :=
  ⟨CCallManager.initial around, ⟨fun _ => [], []⟩, []⟩

end Chronicle

namespace CCallManager

variable {m m' : CCallManager} {r s : MachineRef} {v : Move} {l : List (MachineRef × Move)}
    {b : Books}

/-! ## A rule for the books -/

/-- **What every move keeps of a manager and its books, a course keeps.** -/
theorem Course.books {K : CCallManager → Books → Prop} (allowed : MachineRef → Move → Prop)
    (halike : ∀ {m m' b}, Alike m m' → K m b → K m' b)
    (hmake : ∀ {m m' b r v}, allowed r v → Makes m m' r v → K m b →
      K m' (b.post m.around (r, v)))
    (h : Course m l m') (hl : ∀ p ∈ l, allowed p.1 p.2) (hK : K m b) :
    K m' (run (Books.post m.around) b l) := by
  induction h generalizing b with
  | done h => exact halike h hK
  | make h₁ _ ih =>
      have hnext := ih (fun p hp => hl p (by simp [hp])) (hmake (hl _ List.mem_cons_self) h₁ hK)
      rwa [h₁.around] at hnext

/-! ## The books are true -/

/-- Each record is what its life made of it, and the entries in the books are those written, after
the ones written before. -/
structure Faithful (before : List LogEntry) (m : CCallManager) (b : Books) : Prop where
  record : ∀ r, m.machines r = (b.lives r).record
  journal : b.journal.map Prod.snd = before ++ addedCalls m.out

namespace Faithful

variable {before : List LogEntry}

lemma alike (h : Alike m m') (hm : Faithful before m b) : Faithful before m' b :=
  ⟨by rw [h.machines]; exact hm.record, by rw [h.added]; exact hm.journal⟩

lemma make (h : Makes m m' r v) (hm : Faithful before m b) :
    Faithful before m' (b.post m.around (r, v)) := by
  constructor
  · intro s
    rw [h.machines]
    by_cases hs : s = r
    · rw [hs, Function.update_self, Books.post_lives_self, Life.record_append, hm.record r]
    · rw [Function.update_of_ne hs, Books.post_lives_of_ne hs, hm.record s]
  · rw [h.added, hm.record r, ← List.append_assoc, ← hm.journal]
    simp [Books.post, Function.comp_def]

lemma course (h : Course m l m') (hm : Faithful before m b) :
    Faithful before m' (run (Books.post m.around) b l) :=
  h.books (fun _ _ => True) alike (fun _ => make) (fun _ _ => trivial) hm

end Faithful

end CCallManager

namespace Chronicle

/-- The books of a chronicle are true. -/
structure Faithful (w : Chronicle) : Prop where
  record : ∀ r, w.manager.machines r = (w.books.lives r).record
  journal : w.books.journal.map Prod.snd = w.written

/-- **Every event keeps the books true.** -/
theorem Faithful.perform {w : Chronicle} (h : w.Faithful) (hw : w.manager.WellFormed)
    (e : CCallManager.Event) : (w.perform e).Faithful := by
  have hcleared : CCallManager.Faithful w.written { w.manager with out := [] } w.books :=
    ⟨h.record, by simpa using h.journal⟩
  by_cases hord : e.ordinary
  · have hl := hcleared.course (CCallManager.step_course hw.cleared hord)
    exact ⟨hl.record, hl.journal⟩
  cases e with
  | Initialize status =>
      simp only [Chronicle.perform, CCallManager.step, CCallManager.stepWith, CCallManager.handle,
        CCallManager.Initialize]
      split_ifs
      · exact ⟨h.record, hcleared.journal⟩
      · exact ⟨h.record, hcleared.journal⟩
      · exact ⟨h.record, hcleared.journal⟩
  | Shutdown =>
      obtain ⟨m', hl, -, heq⟩ := CCallManager.shutdown_course hw.cleared
      have hbooks := hcleared.course hl
      have heq' : w.manager.step .Shutdown =
          { m' with calls := Dictionary.empty, initialized := false } := heq
      constructor
      · simp only [Chronicle.perform, heq']
        exact hbooks.record
      · simp only [Chronicle.perform, heq']
        exact hbooks.journal
  | surroundings x => exact ⟨h.record, hcleared.journal⟩
  | _ => simp [CCallManager.Event.ordinary] at hord

lemma initial_faithful (around : Surroundings) : (initial around).Faithful := ⟨fun _ => rfl, rfl⟩

end Chronicle

end TAM
