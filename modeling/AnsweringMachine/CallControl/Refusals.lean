import AnsweringMachine.CallControl.Conversation
import AnsweringMachine.Library.Runs

/-!
# What a refused operation leaves as it was

Two operations of the manager are asked for things they cannot do, and are expected to leave
everything alone then.  Both do part of their work before they find out.

* `OnCallReplaced` takes the call out of the table and gives it the new id before it learns that the
  new id is taken.  `replaced_allOrNothing_iff`: it is all or nothing unless it renames a call to
  the id of another one.
* `onUserAnswer` puts the active call on hold before it looks at the call to be answered.
  `answer_leavesAlone_iff`: an answer that nobody waits for leaves the calls alone if and only if no
  call is active.
-/

namespace TAM

namespace CCallManager

open Runs

variable {m : CCallManager} {s : CallId}

/-! ## Replacing an id -/

/-- The machine of `old` has moved to `new`, and nothing else has changed. -/
structure MovedTo (m m' : CCallManager) (old new : CallId) (call : MachineRef) : Prop where
  found : m.calls.get? old = some call
  calls : ∀ j, m'.calls.get? j =
    if j = new then some call else if j = old then none else m.calls.get? j
  renamed : m'.machines call = { m.machines call with session := some new }
  others : ∀ r, r ≠ call → m'.machines r = m.machines r

/-- The replacement completes, or it throws for one of its two reasons and neither the table nor a
session has changed. -/
def AllOrNothing (m : CCallManager) (old new : CallId) : Prop :=
  (∃ m' call, m.onCallReplaced old new = (m', none) ∧ MovedTo m m' old new call) ∨
  ∃ m' e, m.onCallReplaced old new = (m', some e) ∧
    (m.calls.get? old = none ∨ m.calls.get? new ≠ none) ∧ m'.calls = m.calls ∧
    ∀ r, (m'.machines r).session = (m.machines r).session

/-- **A replacement is all or nothing** unless the new id is that of another call. -/
theorem replaced_allOrNothing_iff (m : CCallManager) (old new : CallId) :
    AllOrNothing m old new ↔
      m.calls.get? old = none ∨ new = old ∨ m.calls.get? new = none := by
  cases hold : m.calls.get? old with
  | none =>
      simp only [true_or, iff_true]
      exact Or.inr ⟨m, _, replaced_absent hold new, Or.inl hold, rfl, fun _ => rfl⟩
  | some call =>
      simp only [reduceCtorEq, false_or]
      constructor
      · intro h
        by_contra hfree
        rw [not_or] at hfree
        have hthrows := replaced_taken hold hfree.1 hfree.2
        obtain ⟨m', -, hok, -⟩ | ⟨m', e, herr, -, hcalls, -⟩ := h
        · exact absurd (hthrows.symm.trans hok) (by simp)
        · -- the call is not in the table any more
          have hgone : (m.calls.remove old).get? old = m'.calls.get? old :=
            congrArg (fun x => x.1.calls.get? old) (hthrows.symm.trans herr)
          rw [hcalls, hold] at hgone
          exact absurd hgone (by simp)
      · intro hfree
        obtain ⟨d, he, hd⟩ := replaced_free hold hfree
        exact Or.inl ⟨_, call, he, hold, hd, by simp, fun r hr => by simp [hr]⟩

/-- Two calls have been announced. -/
def twoAnnounced : CCallManager :=
  run step (initial {}) [.callStateChanged 1 .SESSION_STATE_INCOMING,
    .callStateChanged 2 .SESSION_STATE_INCOMING]

/-- **The stack announces the replacing call before it replaces**: the exception finds the first
call renamed and out of the table, while the stack goes on with it. -/
theorem replaced_by_announced :
    (twoAnnounced.onCallReplaced 1 2).2 = some .ArgumentException ∧
      (twoAnnounced.calls.get? 1 = some 0 ∧
        (twoAnnounced.onCallReplaced 1 2).1.calls.get? 1 = none) ∧
      ((twoAnnounced.machines 0).session = some 1 ∧
        ((twoAnnounced.onCallReplaced 1 2).1.machines 0).session = some 2) ∧
      ¬ AllOrNothing twoAnnounced 1 2 := by
  refine ⟨rfl, ⟨rfl, rfl⟩, ⟨rfl, rfl⟩, fun h => ?_⟩
  obtain ⟨m', -, hok, -⟩ | ⟨m', e, herr, -, hcalls, -⟩ := h
  · have hnone : some TableException.ArgumentException = none := congrArg Prod.snd hok
    exact absurd hnone (by simp)
  · have hgone : none = m'.calls.get? 1 := congrArg (fun x => x.1.calls.get? 1) herr
    rw [hcalls] at hgone
    exact absurd hgone (by decide)

/-! ## Answering what does not ring -/

/-- The session is the key of a machine that rings. -/
def Rings (m : CCallManager) (s : CallId) : Prop :=
  ∃ r, m.calls.get? s = some r ∧ (m.machines r).state = .Incoming

/-- A manager, and all it has done to the outside since an answer. -/
abbrev Aftermath := CCallManager × List Output

/-- The answer itself. -/
def Aftermath.answer (arrivals : List Arrival) (m : CCallManager) (s : CallId) : Aftermath :=
  (m.stepWith arrivals (.onUserAnswer s), (m.stepWith arrivals (.onUserAnswer s)).out)

/-- The confirmation of a hold. -/
def Aftermath.confirm (w : Aftermath) (c : CallId × List Arrival) : Aftermath :=
  (w.1.stepWith c.2 (.holdConfirm c.1), w.2 ++ (w.1.stepWith c.2 (.holdConfirm c.1)).out)

/-- The hold of the call has been requested since the answer. -/
def Aftermath.Follows (w : Aftermath) (c : CallId × List Arrival) : Prop :=
  Output.request (some c.1) .holdCall ∈ w.2

/-- States, requested holds and the pending action are as before, and nothing was asked of the
stack. -/
structure LeftAlone (m : CCallManager) (w : Aftermath) : Prop where
  states : ∀ r, (w.1.machines r).state = (m.machines r).state
  holds : ∀ r, (w.1.machines r).holdRequested = (m.machines r).holdRequested
  pending : w.1.pendingAction = m.pendingAction
  requests : ∀ k q, Output.request k q ∉ w.2

/-- Nobody is disturbed by the answer and by the confirmations that follow from it, whenever they
come. -/
def LeavesAlone (m : CCallManager) (s : CallId) : Prop :=
  ∀ arrivals confirmations,
    Along Aftermath.confirm Aftermath.Follows (Aftermath.answer arrivals m s) confirmations →
    LeftAlone m (run Aftermath.confirm (Aftermath.answer arrivals m s) confirmations)

/-- Without an active call, an answer reaches the call it names, which does not ring. -/
lemma answer_of_no_active (hs : ¬ Rings m s) (hidle : m.enumCallsInState .ACTIVE = [])
    (w : HoldWindow) : m.onUserAnswer w s = m := by
  simp only [onUserAnswer, hidle]
  split
  · rfl
  · rename_i r hr
    unfold acceptCall
    split
    · rename_i hst
      exact absurd ⟨r, hr, hst⟩ hs
    · rfl

/-- With an active call, the first thing is to request its hold. -/
lemma answer_of_active {r : MachineRef} {rest : List MachineRef}
    (hactive : m.enumCallsInState .ACTIVE = r :: rest) :
    (m.onUserAnswer .sequential s).out = m.out ++ [.request (m.machines r).session .holdCall] := by
  have hst := active_of_enum hactive
  simp [onUserAnswer, hactive, HoldWindow.pass, HoldWindow.sequential, holdCall, hst, request]

/-- **An answer to what does not ring disturbs nobody** if and only if no call is active. -/
theorem answer_leavesAlone_iff (hs : ¬ Rings m s) :
    LeavesAlone m s ↔ ∀ r, ¬ m.Conversing r := by
  rw [← enum_active_eq_nil]
  constructor
  · intro h
    cases hactive : m.enumCallsInState .ACTIVE with
    | nil => rfl
    | cons r rest =>
        have hout : (Aftermath.answer [] m s).2 = [.request (m.machines r).session .holdCall] :=
          answer_of_active (m := { m with out := [] }) hactive
        have hno := (h [] [] trivial).requests (m.machines r).session .holdCall
        exact absurd (by rw [run, hout]; simp) hno
  · intro hidle arrivals confirmations halong
    have hsame : Aftermath.answer arrivals m s = ({ m with out := [] }, []) := by
      have hstep : m.stepWith arrivals (.onUserAnswer s) = { m with out := [] } :=
        answer_of_no_active (m := { m with out := [] }) hs hidle _
      simp [Aftermath.answer, hstep]
    rw [hsame] at halong ⊢
    cases confirmations with
    | nil => exact ⟨fun _ => rfl, fun _ => rfl, rfl, by simp [run]⟩
    | cons c confirmations => exact absurd halong.1 (by simp [Aftermath.Follows])

/-- A call has been answered and put on hold, and another one rings. -/
def heldBesideRinging : CCallManager :=
  run step (initial {}) [.callStateChanged 1 .SESSION_STATE_INCOMING, .callIncoming 1 "first" "",
    .onUserAnswer 1, .onUserHoldRetrieve 1, .holdConfirm 1,
    .callStateChanged 2 .SESSION_STATE_INCOMING, .callIncoming 2 "second" ""]

/-- Whoever answers the held call disturbs neither of the two. -/
theorem answer_leavesAlone_held :
    (heldBesideRinging.machines 0).state = .Holding ∧ Rings heldBesideRinging 2 ∧
      LeavesAlone heldBesideRinging 1 := by
  refine ⟨by decide +kernel, ⟨1, by decide +kernel, by decide +kernel⟩,
    (answer_leavesAlone_iff ?_).mpr ?_⟩
  · rintro ⟨r, hr, hst⟩
    have h0 : heldBesideRinging.calls.get? 1 = some 0 := by decide +kernel
    obtain rfl := Option.some.inj (h0.symm.trans hr)
    exact absurd hst (by decide +kernel)
  · exact enum_active_eq_nil.mp (by decide +kernel)

/-- A call has been answered. -/
def answeredCall : CCallManager :=
  run step (initial {}) [.callStateChanged 1 .SESSION_STATE_INCOMING, .callIncoming 1 "caller" "",
    .onUserAnswer 1]

/-- **Whoever answers a call twice puts it on hold.** -/
theorem answered_twice :
    ¬ Rings answeredCall 1 ∧ (answeredCall.machines 0).state = .Active ∧
      (answeredCall.step (.onUserAnswer 1)).out = [.request (some 1) .holdCall] ∧
      (((answeredCall.step (.onUserAnswer 1)).step (.holdConfirm 1)).machines 0).state =
        .Holding ∧
      ¬ LeavesAlone answeredCall 1 := by
  refine ⟨?_, by decide, by decide, by decide, fun h => ?_⟩
  · rintro ⟨r, hr, hst⟩
    have h0 : (0 : MachineRef) = r := Option.some.inj hr
    subst h0
    exact absurd hst (by decide)
  · exact (h [] [] trivial).requests (some 1) .holdCall (by decide)

end CCallManager

end TAM
