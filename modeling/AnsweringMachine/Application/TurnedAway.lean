import AnsweringMachine.Application.Refinement

/-!
# Calls that a service turns away

Unconditional forwarding and "do not disturb" turn a call away when its caller is delivered.  By
then the call has a machine and is in the table, and it leaves through `destroy` like any other: to
idle, past the call log and out of the table.  Each of these steps would be noticed if it were not
held back: the report by the flag that silences the machine, the entry of the log by the empty
number of a call that has not rung.

`turned_away_invisible` puts this together, for every state of the manager and the provider that
listens to it: all there is to see of the two events are two requests to the stack.
-/

namespace TAM

namespace CCallManager

variable {m : CCallManager} {k : CallId}

/-- A call that was just announced has nothing to be logged. -/
lemma logged_announced (m : CCallManager) (k : CallId) :
    logged ((m.announced k).machines m.created) = false := by
  rw [announced_new]
  rfl

/-- What the stack is asked for. -/
lemma serviceRequest_turningService (config : IConfigurator) :
    Request.serviceRequest (turningService config).1 (turningService config).2 =
      if config.CFUFlag ∧ 0 < config.CFUNumber.length then
        .serviceRequest .SC_CFU config.CFUNumber
      else .serviceRequest .SC_DND "" := by
  rw [turningService]
  split_ifs <;> rfl

section

variable {d : Dictionary CallId MachineRef} (hd : m.calls.add? k m.created = some d)
include hd

/-- It is in the table under its id, and idle. -/
lemma listed_announced : Listed { m.announced k with calls := d } k m.created :=
  ⟨by simp [Dictionary.get?_of_add? hd], by simp, by simp [CStateMachine.create]⟩

/-- It is turned away with two requests, and not to be reported afterwards. -/
lemma turnAway_announced (code : EServiceCodes) (dest : String) :
    ({ m.announced k with calls := d }.turnAway m.created code dest).out =
        m.out ++ [.request (some k) (.serviceRequest code dest), .request (some k) .endCall] ∧
      (({ m.announced k with calls := d }.turnAway m.created code dest).machines
        m.created).disableStateNotifications = true := by
  obtain ⟨hout, hsil⟩ := (listed_announced hd).turnAway_out (by simp [CStateMachine.create]) code
    dest
  refine ⟨?_, hsil⟩
  rw [hout, closing_out]
  · simp [request, announced, createStateMachine]
  · simpa [request, logged] using logged_announced m k

/-- With a service on, this is all its delivery does. -/
lemma onIncomingCall_announced (hon : ¬ ServicesOff m.around.config) (number info : String) :
    onIncomingCall { m.announced k with calls := d } k number info =
      { m.announced k with calls := d }.turnAway m.created (turningService m.around.config).1
        (turningService m.around.config).2 := by
  have heq : incomingCall { m.announced k with calls := d } m.created number info =
      { m.announced k with calls := d }.turnAway m.created (turningService m.around.config).1
        (turningService m.around.config).2 :=
    incomingCall_eq_turnAway (m := { m.announced k with calls := d })
      (by simp [CStateMachine.create]) hon number info
  simp only [onIncomingCall, (listed_announced hd).key, heq, (turnAway_announced hd _ _).2, if_true]

/-- The table enumerates what it did before the call was announced. -/
lemma turnAway_announced_entries (code : EServiceCodes) (dest : String) :
    ({ m.announced k with calls := d }.turnAway m.created code dest).calls.entries =
      m.calls.entries := by
  have hcalls := (turnAway_effect { m.announced k with calls := d } m.created
    (by simp [CStateMachine.create]) code dest).calls
  rw [hcalls, (listed_announced hd).session, Outcome.gone_table]
  exact Dictionary.entries_remove_of_add? hd

end

end CCallManager

namespace Exchange

open CCallManager

variable {w : Exchange} {k : CallId}

/-- Between `w` and `w₂`, by way of `w₁`, the only thing that shows is that the stack was asked for
a service and for the end of the call: no event was raised and no call logged, the table enumerates
what it did, and nobody else's call, the pending action and the provider are as they were. -/
structure Invisible (k : CallId) (service : Request) (w w₁ w₂ : Exchange) : Prop where
  outputs : w₁.manager.out ++ w₂.manager.out =
    [.request (some k) service, .request (some k) .endCall]
  calls : w₂.manager.calls.entries = w.manager.calls.entries
  others : ∀ r < w.manager.created, w₂.manager.machines r = w.manager.machines r
  pending : w₂.manager.pendingAction = w.manager.pendingAction
  provider : w₂.provider = w.provider

/-- The manager after the two events. -/
lemma tell_turned_away {d : Dictionary CallId MachineRef}
    (hk : w.manager.calls.get? k = none) (hd : w.manager.calls.add? k w.manager.created = some d)
    (hon : ¬ ServicesOff w.manager.around.config) (number info : String) :
    (w.tell (.callStateChanged k .SESSION_STATE_INCOMING)).manager =
        { { w.manager with out := [] }.announced k with calls := d } ∧
      ((w.tell (.callStateChanged k .SESSION_STATE_INCOMING)).tell
        (.callIncoming k number info)).manager =
        { { w.manager with out := [] }.announced k with calls := d }.turnAway w.manager.created
          (turningService w.manager.around.config).1
          (turningService w.manager.around.config).2 := by
  have hfirst : (w.tell (.callStateChanged k .SESSION_STATE_INCOMING)).manager =
      { { w.manager with out := [] }.announced k with calls := d } :=
    incoming_eq_listed (m := { w.manager with out := [] }) hk hd
  refine ⟨hfirst, ?_⟩
  change onIncomingCall { (w.tell _).manager with out := [] } k number info = _
  rw [hfirst]
  exact onIncomingCall_announced (m := { w.manager with out := [] }) hd hon number info

/-- **Calls that are turned away are invisible.** -/
theorem turned_away_invisible (w : Exchange) (k : CallId) (number info : String)
    (hk : w.manager.calls.get? k = none)
    (hon : (w.manager.around.config.CFUFlag = true ∧
      0 < w.manager.around.config.CFUNumber.length) ∨ w.manager.around.config.DNDFlag = true) :
    Invisible k
      (if w.manager.around.config.CFUFlag ∧ 0 < w.manager.around.config.CFUNumber.length then
        .serviceRequest .SC_CFU w.manager.around.config.CFUNumber
      else .serviceRequest .SC_DND "")
      w (w.tell (.callStateChanged k .SESSION_STATE_INCOMING))
      ((w.tell (.callStateChanged k .SESSION_STATE_INCOMING)).tell
        (.callIncoming k number info)) := by
  set m : CCallManager := { w.manager with out := [] }
  obtain ⟨d, hd⟩ := exists_add? (m := m) (r := m.created) hk
  have hoff : ¬ ServicesOff m.around.config := by
    rintro ⟨hcfu, hdnd⟩
    rcases hon with h | h
    · exact hcfu h
    · exact absurd (hdnd.symm.trans h) (by simp)
  obtain ⟨hfirst, hsecond⟩ := tell_turned_away hk hd hoff number info
  rw [← serviceRequest_turningService]
  have heffect := turnAway_effect { m.announced k with calls := d } m.created
    (by simp [CStateMachine.create]) (turningService m.around.config).1
    (turningService m.around.config).2
  have hout := (turnAway_announced hd (turningService m.around.config).1
    (turningService m.around.config).2).1
  constructor
  · rw [hfirst, hsecond, hout]
    rfl
  · rw [hsecond]
    exact turnAway_announced_entries hd _ _
  · intro r hr
    have hne : r ≠ m.created := Nat.ne_of_lt hr
    rw [hsecond, heffect.others r hne]
    exact announced_of_ne k hne
  · rw [hsecond, heffect.pending]
    rfl
  · change (notifications ((w.tell _).tell _).manager.out).foldl SIPCallProvider.notify
      ((notifications (w.tell _).manager.out).foldl SIPCallProvider.notify w.provider) = _
    rw [hsecond, hfirst, hout]
    rfl

/-- Nobody is to be disturbed. -/
def undisturbed : Surroundings := { config := { DNDFlag := true } }

/-- A first call that is turned away. -/
theorem turned_away_invisible_first :
    Invisible 1 (.serviceRequest .SC_DND "") (initial undisturbed)
      ((initial undisturbed).tell (.callStateChanged 1 .SESSION_STATE_INCOMING))
      (((initial undisturbed).tell (.callStateChanged 1 .SESSION_STATE_INCOMING)).tell
        (.callIncoming 1 "caller" "")) :=
  turned_away_invisible (initial undisturbed) 1 "caller" "" rfl (Or.inr rfl)

end Exchange

end TAM
