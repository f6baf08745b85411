import AnsweringMachine.CallControl.Conversation
import AnsweringMachine.CallControl.Handlers

/-!
# Forwarding a call that nobody answers

A call that rings for too long is forwarded by a service request `SC_CFNR`, sent when the no-reply
timer expires.  The timers of `SipekResources` run from the moment a machine is created, so the
timer expires whether or not the service was switched on when the call began to ring, and the
destination it passes is the one of unconditional forwarding.

No other handler sends this request (`handle_quiet`), so the two facts above decide everything:
`forwardsRightly_iff` says that a run forwards only calls that entered `INCOMING` with the service
on, and to the configured number, if and only if no no-reply timer expires on a ringing call under
other circumstances.  `forwarded_while_off` is a run that does.
-/

namespace TAM

/-- Does the request ask for a forwarding on no reply? -/
def Request.forwards : Request → Bool
  | .serviceRequest .SC_CFNR _ => true
  | _ => false

/-- Does the output send such a request? -/
def Output.forwards : Output → Bool
  | .request _ q => q.forwards
  | _ => false

namespace CCallManager

open Runs

variable {m : CCallManager} {r : MachineRef}

/-- Nothing has been forwarded in the running operation. -/
def Quiet (m : CCallManager) : Prop := ∀ x ∈ m.out, x.forwards = false

namespace Quiet

/-! ## The handlers are quiet -/

lemma modify (h : m.Quiet) (r : MachineRef) (f : CStateMachine → CStateMachine) :
    (m.modify r f).Quiet := h

lemma emit (h : m.Quiet) {x : Output} (hx : x.forwards = false) : (m.emit x).Quiet := by
  intro y hy
  rcases List.mem_append.mp hy with hy | hy
  · exact h y hy
  · rw [List.mem_singleton.mp hy]
    exact hx

lemma request (h : m.Quiet) (r : MachineRef) {q : Request} (hq : q.forwards = false) :
    (m.request r q).Quiet := h.emit hq

/-- Nothing a handler gives out is a forwarding. -/
lemma keptByHandlers (r : MachineRef) : KeptByHandlers r Quiet where
  assign h _ := h.modify r _
  utter h hx := by
    cases hx with
    | @request q hq =>
        refine h.emit ?_
        show q.forwards = false
        rw [Request.forwards]
        exact hq
    | report _ _ => exact h.emit rfl
    | log => exact h.emit rfl
  leave h _ := h

/-! ## The operations are quiet -/

lemma insertCall {m' : CCallManager} {k : CallId} (h : m.Quiet) (hm' : m.insertCall k r = .ok m') :
    m'.Quiet := by
  simp only [CCallManager.insertCall] at hm'
  split at hm'
  · cases hm'
    exact h
  · cases hm'

/-- Dialling and listing a new machine. -/
lemma dial (h : m.Quiet) (number : String) (accountId : ℕ) :
    ((m.createStateMachine.makeCall m.created number accountId).enterOutboundCall
      m.created).Quiet := by
  have hnew : m.createStateMachine.Quiet := h
  have hmake : (m.createStateMachine.makeCall m.created number accountId).Quiet :=
    (((keptByHandlers m.created).changeStatePlain (hnew.modify m.created _) .Connecting).request
      m.created rfl).modify m.created _
  generalize m.createStateMachine.makeCall m.created number accountId = m₁ at hmake
  simp only [enterOutboundCall]
  split
  · exact hmake
  split
  · exact hmake.insertCall ‹_›
  split
  · exact hmake
  split
  · exact ((keptByHandlers _).destroy hmake).insertCall ‹_›
  · exact (keptByHandlers _).destroy hmake

lemma onUserConference (h : m.Quiet) : m.onUserConference.Quiet := by
  simp only [CCallManager.onUserConference, conferenceCall]
  split_ifs
  · split
    · exact h
    · split
      · exact ((keptByHandlers _).retrieveCall h).request _ rfl
      · exact (keptByHandlers _).retrieveCall h
  · exact h

/-- A session of the stack changes its state. -/
lemma onCallStateChanged (h : m.Quiet) (k : CallId) (st : ESessionState) :
    (m.onCallStateChanged k st).Quiet := by
  simp only [CCallManager.onCallStateChanged]
  split
  · -- a new call, whose id is taken or free
    split
    · exact (keptByHandlers _).endCall (m := m.announced k) h
    · split
      · exact insertCall (m := m.announced k) h ‹_›
      · exact h
  · split
    · exact h
    · split
      · exact (keptByHandlers _).onAlerting h
      · exact (keptByHandlers _).onConnect h
      · exact (keptByHandlers _).onReleased h
      · exact h

lemma onIncomingCall (h : m.Quiet) (k : CallId) (number info : String) :
    (m.onIncomingCall k number info).Quiet := by
  simp only [CCallManager.onIncomingCall]
  split
  · exact h
  · split_ifs
    · exact (keptByHandlers _).incomingCall h number info
    · exact ((keptByHandlers _).incomingCall h number info).emit rfl

lemma onCallReplaced (h : m.Quiet) (old new : CallId) : (m.onCallReplaced old new).1.Quiet := by
  rcases m.replaced_cases old new with ⟨-, he⟩ | ⟨call, d, -, he, -⟩
  · rw [he]; exact h
  · rw [he]; exact h

lemma shutdown (h : m.Quiet) : m.Shutdown.Quiet :=
  List.foldlRecOn (motive := Quiet) _ CCallManager.destroy h fun _ hm r _ =>
    (keptByHandlers r).destroy hm

lemma keptByOperations : KeptByOperations Quiet where
  pend h _ := h
  hold {m r} h hr := by
    rw [holdCall_of_active hr]
    exact (h.modify r _).emit rfl
  confirmed h _ := (keptByHandlers _).changeStatePlain h .Holding
  settled h := h
  accept h _ := (keptByHandlers _).acceptCall h
  retrieve h _ := (keptByHandlers _).retrieveCall h
  dial h _ number accountId := h.dial number accountId

end Quiet

/-- **Only the no-reply timer forwards.** -/
lemma handle_quiet (h : m.Quiet) (a : List Arrival) {e : Event}
    (he : ∀ r, e ≠ .timerElapsed r .ENOREPLY) : (m.handle a e).Quiet := by
  have hops := Quiet.keptByOperations.checked
  cases e with
  | createOutboundCall number accountId =>
      exact hops.createOutboundCall (hops.windowOf a) h number accountId
  | onUserAnswer s => exact hops.onUserAnswer (hops.windowOf a) h s
  | onUserHoldRetrieve s => exact hops.onUserHoldRetrieve (hops.windowOf a) h s
  | holdConfirm k => exact hops.onCallNotification a h k
  | onUserRelease s =>
      simp only [handle, onUserRelease]
      split
      · exact h
      · exact (Quiet.keptByHandlers _).endCall h
  | onUserConference _ => exact h.onUserConference
  | onUserTransfer s number =>
      simp only [handle, onUserTransfer]
      split
      · exact h
      · exact (Quiet.keptByHandlers _).xferCall h number
  | onUserDialDigit s digits =>
      simp only [handle, onUserDialDigit]
      split
      · exact h
      · exact h.request _ rfl
  | callStateChanged k st => exact h.onCallStateChanged k st
  | callIncoming k number info => exact h.onIncomingCall k number info
  | callReplaced old new => exact h.onCallReplaced old new
  | timerElapsed r t =>
      exact (Quiet.keptByHandlers r).timerElapsed h fun ht => absurd (by rw [ht]) (he r)
  | Initialize status =>
      simp only [handle, CCallManager.Initialize]
      split_ifs <;> exact h
  | Shutdown => exact h.shutdown
  | surroundings around => exact h

/-- What the expiry of a no-reply timer sends. -/
lemma noReply_out (m : CCallManager) (a : List Arrival) (r : MachineRef) :
    (m.stepWith a (.timerElapsed r .ENOREPLY)).out =
      if (m.machines r).noreplyTimer ∧ (m.machines r).state = .Incoming then
        [.request (m.machines r).session (.serviceRequest .SC_CFNR m.around.config.CFUNumber)]
      else [] := by
  simp only [stepWith, handle, CCallManager.timerElapsed, CStateMachine.running]
  by_cases hrun : (m.machines r).noreplyTimer = true
  · simp only [hrun, if_true, true_and, noReplyTimerExpired]
    cases hst : (m.machines r).state <;> simp [CStateMachine.stopTimer, hst, CCallManager.request]
  · simp [hrun]

/-! ## The runs -/

/-- A manager, and for each machine whether the service was on when it last entered `INCOMING`. -/
structure Watched where
  manager : CCallManager
  flagAtEntry : MachineRef → Bool

/-- One event of the manager; the machines that enter `INCOMING` find the flag as it is. -/
def Watched.perform (w : Watched) (l : List Arrival × Event) : Watched where
  manager := w.manager.perform l
  flagAtEntry r :=
    if ((w.manager.perform l).machines r).state = .Incoming ∧
        (w.manager.machines r).state ≠ .Incoming then
      w.manager.around.config.CFNRFlag
    else w.flagAtEntry r

/-- Nothing has been watched yet. -/
def Watched.initial (around : Surroundings) : Watched :=
  ⟨CCallManager.initial around, fun _ => false⟩

/-- Each forwarding on no reply that the step sends is for a machine that is ringing, that began to
ring with the service on, and goes to the configured number. -/
def ForwardsRightly (w : Watched) (l : List Arrival × Event) : Prop :=
  ∀ session dest, .request session (.serviceRequest .SC_CFNR dest) ∈ (w.manager.perform l).out →
    ∃ r, l.2 = .timerElapsed r .ENOREPLY ∧ (w.manager.machines r).session = session ∧
      (w.manager.machines r).state = .Incoming ∧ w.flagAtEntry r = true ∧
      dest = w.manager.around.config.CFNRNumber

/-- If the step is the expiry of a no-reply timer of a ringing call, then the service was on when
the call began to ring, and both forwarding services have the same number. -/
def ExpiresRightly (w : Watched) (l : List Arrival × Event) : Prop :=
  ∀ r, l.2 = .timerElapsed r .ENOREPLY → (w.manager.machines r).noreplyTimer = true →
    (w.manager.machines r).state = .Incoming → w.flagAtEntry r = true ∧
      w.manager.around.config.CFUNumber = w.manager.around.config.CFNRNumber

lemma forwardsRightly_step_iff (w : Watched) (l : List Arrival × Event) :
    ForwardsRightly w l ↔ ExpiresRightly w l := by
  obtain ⟨a, e⟩ := l
  by_cases he : ∃ r, e = .timerElapsed r .ENOREPLY
  · obtain ⟨r, rfl⟩ := he
    have hout : (w.manager.perform (a, .timerElapsed r .ENOREPLY)).out = _ :=
      noReply_out w.manager a r
    simp only [ForwardsRightly, ExpiresRightly, hout]
    constructor
    · intro h r' hr hrun hst
      simp only [Event.timerElapsed.injEq, and_true] at hr
      subst hr
      obtain ⟨r', hr, -, -, hflag, hdest⟩ := h (w.manager.machines r).session
        w.manager.around.config.CFUNumber (by simp [hrun, hst])
      simp only [Event.timerElapsed.injEq, and_true] at hr
      subst hr
      exact ⟨hflag, hdest⟩
    · intro h session dest hmem
      split_ifs at hmem with hcond
      · simp only [List.mem_singleton, Output.request.injEq, Request.serviceRequest.injEq,
          true_and] at hmem
        obtain ⟨rfl, rfl⟩ := hmem
        obtain ⟨hflag, hnumber⟩ := h r rfl hcond.1 hcond.2
        exact ⟨r, rfl, rfl, hcond.2, hflag, hnumber⟩
      · simp at hmem
  · rw [not_exists] at he
    constructor
    · exact fun _ r hr => absurd hr (he r)
    · intro _ session dest hmem
      have hquiet : (w.manager.perform (a, e)).Quiet :=
        handle_quiet (m := { w.manager with out := [] }) (by simp [Quiet]) a he
      exact absurd (hquiet _ hmem) (by simp [Output.forwards, Request.forwards])

/-- **A run forwards rightly** if and only if every no-reply timer that expires on a ringing call
does so with the service on since the call began to ring, and with one number for both forwarding
services. -/
theorem forwardsRightly_iff (around : Surroundings) (run : List (List Arrival × Event)) :
    Along Watched.perform ForwardsRightly (Watched.initial around) run ↔
      Along Watched.perform ExpiresRightly (Watched.initial around) run :=
  along_congr (J := fun _ => True) (fun _ _ _ _ _ => trivial)
    (fun w l _ _ => forwardsRightly_step_iff w l) trivial (along_true _ run)

/-- Forwarding on no reply is off; its number differs from that of unconditional forwarding. -/
def noForwarding : Surroundings := { config := { CFUNumber := "100", CFNRNumber := "200" } }

/-- A call rings until its no-reply timer expires. -/
def ringingRun : List (List Arrival × Event) :=
  [([], .callStateChanged 1 .SESSION_STATE_INCOMING), ([], .callIncoming 1 "caller" ""),
   ([], .timerElapsed 0 .ENOREPLY)]

/-- **The call is forwarded although the service is off, and to the wrong number.** -/
theorem forwarded_while_off :
    (run Watched.perform (.initial noForwarding) ringingRun).manager.out =
      [.request (some 1) (.serviceRequest .SC_CFNR "100")] ∧
    (run Watched.perform (.initial noForwarding) ringingRun).flagAtEntry 0 = false ∧
    ¬ Along Watched.perform ForwardsRightly (.initial noForwarding) ringingRun := by
  have hout : (run Watched.perform (.initial noForwarding) ringingRun).manager.out =
      [.request (some 1) (.serviceRequest .SC_CFNR "100")] := by decide
  refine ⟨hout, by decide, ?_⟩
  rintro ⟨-, -, h, -⟩
  obtain ⟨r, -, -, -, -, hdest⟩ := h (some 1) "100" (by
    change _ ∈ (run Watched.perform (.initial noForwarding) ringingRun).manager.out
    rw [hout]
    exact List.mem_singleton_self _)
  exact absurd hdest (by decide)

end CCallManager

end TAM
