import AnsweringMachine.Application.Playback

/-!
# How a thread leaves its call

`CallActionsThread` hangs up when there are no packs, or when the packs are used up and the call has
not ended.  `Hangup` requests a release only if the call is connected, so what becomes of the call
depends on whether it was accepted by then.

`calls_released`: in every run in which the last hangup of a thread does not meet a ringing call,
each thread that returns leaves behind a call that has ended or whose release it has requested.
`abandoned_while_ringing` is a run in which a call rings on: its account has no packs.
-/

namespace TAM

open Runs

namespace World

variable {τ : Type*} {w : World τ} {c : CallRef} {script : CallRef → Option (List (ActionPack τ))}

/-- The last hangup of a thread does not meet a ringing call, unless its release has been requested
before. -/
def hangsUpAnswered (w : World τ) : Label τ → Bool
  | .thread c _ _ _ =>
      match w.pc c with
      | .closing => w.callState c ≠ .Ringing ∨ w.released c
      | _ => true
  | _ => true

/-- When the thread returns, its call has ended, or its release has been requested. -/
def LeavesProperly (script : CallRef → Option (List (ActionPack τ))) (w : World τ) :
    Label τ → Prop
  | .thread c ask throws media => w.pc c ≠ .returned →
      (World.step script w (.thread c ask throws media)).pc c = .returned →
      ((World.step script w (.thread c ask throws media)).callState c).ended ∨
        (World.step script w (.thread c ask throws media)).released c
  | _ => True

/-- A thread at the end of its last hangup has done what it should. -/
structure Accounted (w : World τ) : Prop where
  sound : w.Sound
  done : ∀ c, w.pc c = .signalling .exit → (w.callState c).ended ∨ w.released c

lemma Accounted.initial (config : IConfigurator) : (initial config : World τ).Accounted :=
  ⟨.initial config, fun _ h => by simp [World.pc, World.initial] at h⟩

/-- Where a thread is after its own step. -/
lemma advance_pc (w : World τ) (c : CallRef) (o : Moment τ) :
    (advance script w c o).pc c = (Thread.step (script c) (w.threads c) o).pc := by
  simp [World.pc, advance]

/-- The last hangup of a thread that met an answered call, or one that has ended. -/
lemma ThreadMove.signalling_exit {o : Moment τ} {w' : World τ} (h : ThreadMove script w c o w')
    (hseen : o.seen = w.callState c) (hpc : w'.pc c = .signalling .exit)
    (hcond : w.pc c = .closing → w.callState c ≠ .Ringing ∨ w.released c) :
    w' = w ∨ (w'.callState c).ended ∨ w'.released c := by
  cases h with
  | blocked => exact Or.inl rfl
  | plain hno =>
      rw [advance_pc] at hpc
      rcases Thread.step_signalling_exit hpc with ⟨hclosing, hother⟩ | hrel
      · rcases hcond hclosing with hring | hdone
        · rw [hseen] at hother
          refine Or.inr (Or.inl ?_)
          change (w.callState c).ended = true
          cases hst : w.callState c <;> simp_all [CallState.ended]
        · exact Or.inr (Or.inr hdone)
      · exact absurd hrel (hno none [] [] .exit).2.1
  | releases => exact Or.inr (Or.inr (by simp [advance]))
  | plays file todo rest hold | wakes y todo rest hold | signals next hold
  | accepts k todo rest hold =>
      rw [advance_pc] at hpc
      rcases Thread.step_signalling_exit hpc with ⟨hclosing, -⟩ | hrel
      · exact absurd (hold.symm.trans hclosing) (by simp)
      · exact absurd (hold.symm.trans hrel) (by simp)

lemma Accounted.step (h : w.Accounted) {l : Label τ} (hl : w.hangsUpAnswered l) :
    (World.step script w l).Accounted := by
  refine ⟨h.sound.step l, fun c hpc => ?_⟩
  have hfor := h.sound.stepFor script l c
  generalize World.step script w l = w' at hfor hpc
  cases hfor with
  | untouched _ _ hu =>
      simp only [callState, hu.object, hu.released]
      exact h.done c (hu.pc.symm.trans hpc)
  | created _ _ hnew => rw [hnew] at hpc; simp at hpc
  | noticed n rest hin hn hsame =>
      refine (h.done c (hsame.symm.trans hpc)).imp_left fun hended => ?_
      rcases hn.ended hended with hs | hs | hs
      · exact (congrArg CallState.ended hs).trans hended
      · exact congrArg CallState.ended hs
      · exact congrArg CallState.ended hs
  | moves ask throws media _ hmove =>
      have hcond : w.pc c = .closing → w.callState c ≠ .Ringing ∨ w.released c := by
        intro hclosing
        simpa [hangsUpAnswered, hclosing] using hl
      rcases hmove.signalling_exit rfl hpc hcond with rfl | hdone
      · exact h.done c hpc
      · exact hdone
  | ended x k hx hc =>
      refine (h.done c hpc).imp_left fun hended => ?_
      simpa [callState] using hended

lemma Accounted.leavesProperly (h : w.Accounted) (l : Label τ) : LeavesProperly script w l := by
  cases l with
  | thread c ask throws media =>
      intro hnot hret
      have hmove := threadStep_cases script w c
        { ask := ask, seen := w.callState c, throws := throws } media
      simp only [World.step] at hret ⊢
      generalize w.threadStep script c _ media = w' at hmove hret
      cases hmove with
      | blocked => exact absurd hret hnot
      | plain hno =>
          rw [advance_pc] at hret
          rcases Thread.step_returned hret with hold | ⟨-, hended⟩ | hold
          · exact absurd hold hnot
          · exact Or.inl hended
          · exact absurd hold (hno none [] [] .exit).2.2
      | signals next hold =>
          rw [advance_pc] at hret
          rcases Thread.step_returned hret with hold' | ⟨hold', -⟩ | hold'
          · exact absurd hold' hnot
          · exact absurd (hold.symm.trans hold') (by simp)
          · refine (h.done c hold').imp_left fun hended => ?_
            simpa [callState, advance] using hended
      | plays file todo rest hold | wakes y todo rest hold | releases next hold
      | accepts k todo rest hold =>
          rw [advance_pc] at hret
          rcases Thread.step_returned hret with hold' | ⟨hold', -⟩ | hold'
          · exact absurd hold' hnot
          · exact absurd (hold.symm.trans hold') (by simp)
          · exact absurd (hold.symm.trans hold') (by simp)
  | _ => trivial

/-- **No thread abandons a live call**, in every run in which the last hangup of a thread does not
meet a ringing call. -/
theorem calls_released (script : CallRef → Option (List (ActionPack τ))) (config : IConfigurator)
    (run : List (Label τ))
    (hrun : Along (World.step script) (fun w l => w.hangsUpAnswered l) (initial config) run) :
    Along (World.step script) (LeavesProperly script) (initial config) run :=
  along_of_along (J := Accounted) (fun _ _ h hl => h.step hl) (fun _ l h _ => h.leavesProperly l)
    (Accounted.initial config) hrun

/-- The greeting is played, the packs are used up, and the thread hangs up and returns. -/
def farewellRun : List (Label Unit) :=
  greetingRun ++ [firstThread true, firstThread true, firstThread true, firstThread true,
    firstThread true, .deliver, firstThread true]

/-- A call that was accepted is released in the end. -/
theorem calls_released_greeting :
    (run (World.step greeting) (initial {}) farewellRun).pc 0 = .returned ∧
      Along (World.step greeting) (LeavesProperly greeting) (initial {}) farewellRun :=
  ⟨by decide +kernel, calls_released greeting {} farewellRun (by decide +kernel)⟩

/-- No account has packs. -/
def noPacks : CallRef → Option (List (ActionPack Unit)) := fun _ => none

/-- The thread is about to return from its hangup. -/
def silentRun : List (Label Unit) := firstCall ++ [firstThread true, firstThread true]

/-- **The call rings on**: the thread returns, the call is still ringing, and no release was
requested. -/
theorem abandoned_while_ringing :
    (World.step noPacks (run (World.step noPacks) (initial {}) silentRun) (firstThread true)).pc 0 =
        .returned ∧
      (World.step noPacks (run (World.step noPacks) (initial {}) silentRun)
        (firstThread true)).callState 0 = .Ringing ∧
      ¬ LeavesProperly noPacks (run (World.step noPacks) (initial {}) silentRun)
        (firstThread true) := by
  have hret : (World.step noPacks (run (World.step noPacks) (initial {}) silentRun)
      (firstThread true)).pc 0 = .returned := by decide +kernel
  have hring : (World.step noPacks (run (World.step noPacks) (initial {}) silentRun)
      (firstThread true)).callState 0 = .Ringing := by decide +kernel
  have hreq : (World.step noPacks (run (World.step noPacks) (initial {}) silentRun)
      (firstThread true)).released 0 = false := by decide +kernel
  refine ⟨hret, hring, fun h => ?_⟩
  have hleft := h (by decide +kernel) hret
  rw [← firstThread, hring, hreq] at hleft
  exact absurd hleft (by decide)

end World

end TAM
