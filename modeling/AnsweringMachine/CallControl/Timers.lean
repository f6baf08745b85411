import AnsweringMachine.CallControl.Conversation
import AnsweringMachine.CallControl.Courses

/-!
# Every call has a way out

A ringing call waits for its no-response timer, and a call that has ended for its release timer;
what keeps calls from staying in the table for ever is that these timers run.

**Armed records.**  `Armed` says that they do.  It is an invariant of single records, so it needs
one look at each move (`armed_after`) and holds of every machine ever created.

**The way out.**  `wayOut_throughout` adds what the expiry does: the release timer takes the call
out of the table, the no-response timer ends it, with the release timer running.

**The far end hangs up.**  `disconnected_settles_iff` is the same question for the stack's own end
of a call.  The idle state does not react to it, and a call is idle in the table from the moment it
is announced until its caller is delivered: `disconnected_before_delivery`.
-/

namespace TAM

namespace CCallManager

open Runs

variable {m m' : CCallManager} {r : MachineRef} {k : CallId}

/-! ## Armed records -/

/-- The timer that takes a call out of its state is running. -/
structure Armed (c : CStateMachine) : Prop where
  ended : c.state = .Released ∨ c.state = .Terminated → c.releasedTimer
  ringing : c.state = .Incoming → c.noresponseTimer

/-- In every state but three there is nothing to wait for. -/
lemma armed_of_state {c : CStateMachine} {st : IAbstractState} (h : c.state = st)
    (hst : st ≠ .Released ∧ st ≠ .Terminated ∧ st ≠ .Incoming) : Armed c := by
  subst h
  exact ⟨fun h => h.elim (absurd · hst.1) (absurd · hst.2.1), fun h => absurd h hst.2.2⟩

lemma armed_congr {c c' : CStateMachine} (h : Armed c) (hst : c'.state = c.state)
    (hrel : c'.releasedTimer = c.releasedTimer) (hno : c'.noresponseTimer = c.noresponseTimer) :
    Armed c' := by
  constructor
  · rw [hst, hrel]
    exact h.ended
  · rw [hst, hno]
    exact h.ringing

/-- The release timer starts on the way into the two ending states. -/
lemma armed_endedIn {x : Surroundings} (hx : x.factory.timersRun) (c : CStateMachine)
    {st : IAbstractState} (hst : st ≠ .Incoming) : Armed (Move.endedIn x st c) := by
  rw [Move.endedIn, if_pos hx]
  refine ⟨fun _ => ?_, fun h => absurd h hst⟩
  simp [CStateMachine.ending, CStateMachine.startTimer, hx]

/-- **Every move keeps the record armed**, where timers start. -/
lemma armed_after {x : Surroundings} (hx : x.factory.timersRun) (v : Move) (c : CStateMachine)
    (hen : v.Enabled c) (h : Armed c) : Armed (v.after x c) := by
  cases v with
  | entered k => exact h
  | renamed k | holdRequested | settled => exact armed_congr h rfl rfl rfl
  | terminated => exact armed_endedIn hx _ (by simp)
  | released => exact armed_endedIn hx _ (by simp)
  | delivered number name =>
      refine ⟨fun hst => ?_, fun _ => ?_⟩
      · simp only [Move.after, CStateMachine.rung, CStateMachine.startTimer] at hst
        split_ifs at hst <;> simp at hst
      · simp only [Move.after, CStateMachine.rung, CStateMachine.startTimer]
        split_ifs <;> simp [hx]
  | expired t =>
      -- a timer whose state reacts is not merely stopped
      cases t with
      | ENOREPLY => exact armed_congr h rfl rfl rfl
      | ERELEASED => exact ⟨fun hst => hst.elim (absurd · hen.2.1) (absurd · hen.2.2), h.ringing⟩
      | ENORESPONSE => exact ⟨h.ended, fun hst => absurd hst hen.2⟩
  | announced k => exact armed_of_state (show _ = IAbstractState.Idle from rfl) (by decide)
  | dialled number | turnedAway | destroyed | accepted | alerted | connected | held | retrieved =>
      exact armed_of_state (CStateMachine.enter_state _ _) (by decide)

lemma handle_factory (a : List Arrival) (hw : m.WellFormed) (e : Event) :
    (m.handle a e).around.factory = m.around.factory := by
  cases e with
  | surroundings x => rfl
  | _ => rw [handle_around a hw (by simp)]

lemma handle_armed (a : List Arrival) (hw : m.WellFormed) (hx : m.around.factory.timersRun)
    (h : ∀ r, Armed (m.machines r)) (e : Event) : ∀ r, Armed ((m.handle a e).machines r) := by
  by_cases he : e.ordinary
  · obtain ⟨l, hl⟩ := handle_course a hw he
    exact hl.records (armed_after hx) h
  cases e with
  | Initialize status =>
      simp only [handle, CCallManager.Initialize]
      split_ifs <;> exact h
  | Shutdown =>
      obtain ⟨m', hl, -, heq⟩ := shutdown_course hw
      simp only [handle, heq]
      exact hl.records (armed_after hx) h
  | surroundings x => exact h
  | _ => simp [Event.ordinary] at he

/-! ## The way out -/

/-- The release timer takes a call that has ended out of the table. -/
lemma releasedTimer_leaves (hw : m.WellFormed) (hk : m.calls.get? k = some r)
    (hst : (m.machines r).state = .Released ∨ (m.machines r).state = .Terminated)
    (hrun : (m.machines r).releasedTimer) (a : List Arrival) :
    (m.stepWith a (.timerElapsed r .ERELEASED)).calls.get? k = none := by
  have h := timerElapsed_effect { m with out := [] } r .ERELEASED
  have hgone : reactTimer m.around.factory .ERELEASED (m.machines r).state = .gone := by
    rcases hst with h | h <;> rw [h] <;> rfl
  rw [show (m.machines r).running .ERELEASED = true from hrun, if_pos rfl, hgone] at h
  have hcalls := h.calls
  rw [hw.session k r hk] at hcalls
  simp only [stepWith, handle, hcalls]
  simp

/-- The no-response timer ends a ringing call, and the release timer takes over. -/
lemma noresponseTimer_ends (hw : m.WellFormed) (hx : m.around.factory.timersRun)
    (harmed : ∀ r, Armed (m.machines r)) (hk : m.calls.get? k = some r)
    (hst : (m.machines r).state = .Incoming) (a : List Arrival) :
    (m.stepWith a (.timerElapsed r .ENORESPONSE)).calls.get? k = some r ∧
    ((m.stepWith a (.timerElapsed r .ENORESPONSE)).machines r).state = .Terminated ∧
    ((m.stepWith a (.timerElapsed r .ENORESPONSE)).machines r).releasedTimer := by
  have h := timerElapsed_effect { m with out := [] } r .ENORESPONSE
  have hgoto :
      reactTimer m.around.factory .ENORESPONSE (m.machines r).state = .goto .Terminated := by
    rw [hst]
    simp [reactTimer, react, ending, hx]
  rw [show (m.machines r).running .ENORESPONSE = true from (harmed r).ringing hst, if_pos rfl,
    hgoto] at h
  refine ⟨?_, h.state, ?_⟩
  · simp only [stepWith, handle, h.calls, Outcome.goto_table]
    exact hk
  · exact (handle_armed a hw.cleared hx harmed _ r).ended (.inr h.state)

/-- Every call in the table that has ended or rings has its timer running, and the expiry of that
timer takes it on: out of the table, or to its end. -/
def WayOut (m : CCallManager) : Prop :=
  ∀ k r, m.calls.get? k = some r →
    ((m.machines r).state = .Released ∨ (m.machines r).state = .Terminated →
      (m.machines r).releasedTimer ∧
      ∀ a, (m.stepWith a (.timerElapsed r .ERELEASED)).calls.get? k = none) ∧
    ((m.machines r).state = .Incoming →
      (m.machines r).noresponseTimer ∧
      ∀ a, (m.stepWith a (.timerElapsed r .ENORESPONSE)).calls.get? k = some r ∧
        ((m.stepWith a (.timerElapsed r .ENORESPONSE)).machines r).state = .Terminated ∧
        ((m.stepWith a (.timerElapsed r .ENORESPONSE)).machines r).releasedTimer)

/-- **No call lingers.**  Over every run of a manager whose timers start, with holds confirmed
inside operations or later, every call has its way out. -/
theorem wayOut_throughout (around : Surroundings) (run : List (List Arrival × Event)) :
    Throughout perform WayOut (initial { around with factory := .SipekResources }) run := by
  refine throughout_of_along (J := fun m => m.WellFormed ∧ m.around.factory.timersRun ∧
    ∀ r, Armed (m.machines r)) ?_ ?_ ?_ (along_true _ _)
  · rintro m ⟨a, e⟩ ⟨hw, hx, harmed⟩ -
    refine ⟨stepWith_wellFormed a hw e, ?_, handle_armed a hw.cleared hx harmed e⟩
    simp only [perform, stepWith, handle_factory a hw.cleared e]
    exact hx
  · rintro m ⟨hw, hx, harmed⟩ k r hk
    refine ⟨fun hst => ⟨(harmed r).ended hst, ?_⟩, fun hst => ⟨(harmed r).ringing hst, ?_⟩⟩
    · exact releasedTimer_leaves hw hk hst ((harmed r).ended hst)
    · exact noresponseTimer_ends hw hx harmed hk hst
  · refine ⟨WellFormed.initial _, rfl, fun r => ?_⟩
    exact armed_of_state (show _ = IAbstractState.Idle from rfl) (by decide)

/-! ## The far end hangs up -/

/-- The id is free, or its call is released and waits for its release timer. -/
def Settled (m : CCallManager) (k : CallId) : Prop :=
  m.calls.get? k = none ∨
    ∃ r, m.calls.get? k = some r ∧ (m.machines r).state = .Released ∧ (m.machines r).releasedTimer

lemma disconnected_eq (a : List Arrival) (hk : m.calls.get? k = some r) :
    m.stepWith a (.callStateChanged k .SESSION_STATE_DISCONNECTED) =
      onReleased { m with out := [] } r := by
  simp [stepWith, handle, onCallStateChanged, hk]

/-- The far end hangs up on a call in one of its states. -/
lemma released_settled (hw : m.WellFormed) (hk : m.calls.get? k = some r) :
    (m.changeStateEnding r .Released).Settled k := by
  have h := changeStateEnding_effect m r .Released
  by_cases hx : m.around.factory.timersRun = true
  · rw [ending, if_pos hx] at h
    refine Or.inr ⟨r, by rw [h.calls, Outcome.goto_table, hk], h.state, ?_⟩
    rw [changeStateEnding_self]
    refine (armed_endedIn hx _ (by simp)).ended (.inl ?_)
    rw [← changeStateEnding_self]
    exact h.state
  · rw [ending, if_neg hx] at h
    left
    rw [h.calls, hw.session k r hk]
    simp

lemma onReleased_settled_iff (hw : m.WellFormed) (hk : m.calls.get? k = some r) :
    (m.onReleased r).Settled k ↔ (m.machines r).state ≠ .Idle := by
  have hdestroy : (m.destroy r).Settled k := by
    left
    rw [(destroy_effect m r).calls, hw.session k r hk]
    simp
  simp only [onReleased]
  cases hs : (m.machines r).state with
  | Idle => simp [Settled, hk, hs]
  | Released | Terminated => simpa using hdestroy
  | _ => simpa [changeState] using released_settled hw hk

lemma run_wellFormed (around : Surroundings) (run : List (List Arrival × Event)) :
    (Runs.run perform (initial around) run).WellFormed :=
  run_of_step (J := WellFormed) (fun _ l hw => stepWith_wellFormed l.1 hw l.2)
    (WellFormed.initial around) run

/-- **The far end hangs up.**  In every state a manager can reach, with any flags and either kind of
timer, the event settles a call of the table if and only if its machine is not idle. -/
theorem disconnected_settles_iff (around : Surroundings) (run : List (List Arrival × Event))
    (a : List Arrival) {k : CallId} {r : MachineRef}
    (hk : (Runs.run perform (initial around) run).calls.get? k = some r) :
    ((Runs.run perform (initial around) run).stepWith a
      (.callStateChanged k .SESSION_STATE_DISCONNECTED)).Settled k ↔
    ((Runs.run perform (initial around) run).machines r).state ≠ .Idle := by
  rw [disconnected_eq a hk]
  exact onReleased_settled_iff (run_wellFormed around run).cleared hk

/-- A call that rings is settled when the caller hangs up. -/
theorem disconnected_while_ringing : Settled
    ((Runs.run perform (initial {}) [([], .callStateChanged 1 .SESSION_STATE_INCOMING),
      ([], .callIncoming 1 "100" "Ann")]).stepWith []
      (.callStateChanged 1 .SESSION_STATE_DISCONNECTED)) 1 :=
  (disconnected_settles_iff {} [([], .callStateChanged 1 .SESSION_STATE_INCOMING),
    ([], .callIncoming 1 "100" "Ann")] [] (show _ = some 0 by decide +kernel)).mpr
    (by decide +kernel)

/-- **The call is given up before its caller is delivered**: its machine is idle in the table, does
not hear that the far end hung up, and stays. -/
theorem disconnected_before_delivery : ¬ Settled
    ((Runs.run perform (initial {}) [([], .callStateChanged 1 .SESSION_STATE_INCOMING)]).stepWith []
      (.callStateChanged 1 .SESSION_STATE_DISCONNECTED)) 1 := by
  rintro (h | ⟨r, h, hst, -⟩)
  · revert h
    decide +kernel
  · have hr : r = 0 := Option.some.inj (h.symm.trans (show _ = some 0 by decide +kernel))
    subst hr
    revert hst
    decide +kernel

end CCallManager

end TAM
