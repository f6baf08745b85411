import AnsweringMachine.CallControl.Automaton

/-!
# What the handlers of a machine keep

Whatever a handler of a machine does, it does in three ways: it assigns to fields of its machine,
but not to the session; it gives something out (`Utters`), under the session of the machine; and it
takes the session of its machine out of the table.  A property that these three keep is kept by
every handler (`KeptByHandlers`).  This is said once here; what a handler may send, report or append
to the output are three uses of it.

The forwarding of a call that nobody answers is set apart: only the no-reply timer asks for it.
-/

namespace TAM

@[simp] lemma CStateMachine.onExit_session (c : CStateMachine) : c.onExit.session = c.session := by
  unfold onExit
  split <;> rfl

namespace CCallManager

/-- What a handler of a machine gives out, the forwarding on no reply apart. -/
inductive Utters (m : CCallManager) (r : MachineRef) : Output → Prop
  | request {q : Request} (hq : ∀ dest, q ≠ .serviceRequest .SC_CFNR dest) :
      Utters m r (.request (m.machines r).session q)
  | report {k : CallId} (hk : (m.machines r).session = some k) (st : EStateId) :
      Utters m r (.raise (.CallStateRefresh k st))
  | log (type : ECallType) (number name : String) (time : DateTime) (duration : TimeSpan) :
      Utters m r (.addCall type number name time duration)

/-- A property that the three ways of acting on a machine keep. -/
structure KeptByHandlers (r : MachineRef) (K : CCallManager → Prop) : Prop where
  assign : ∀ {m f}, K m → (∀ c, (f c).session = c.session) → K (m.modify r f)
  utter : ∀ {m x}, K m → m.Utters r x → K (m.emit x)
  leave : ∀ {m k}, K m → (m.machines r).session = some k → K { m with calls := m.calls.remove k }

namespace KeptByHandlers

variable {m : CCallManager} {r : MachineRef} {K : CCallManager → Prop} (hK : KeptByHandlers r K)

include hK

/-! ## Changing the state -/

lemma request (h : K m) {q : Request} (hq : ∀ dest, q ≠ .serviceRequest .SC_CFNR dest) :
    K (m.request r q) := hK.utter h (.request hq)

lemma startTimer (h : K m) (t : ETimerType) : K (m.startTimer r t) :=
  hK.assign h fun _ => by cases t <;> rfl

lemma informManager (h : K m) : K (m.informManager r) := by
  simp only [CCallManager.informManager]
  split
  · exact h
  · rename_i k hk
    split_ifs
    · exact h
    · exact hK.utter h (.report hk _)

/-- A change of the state, if its entry does no more. -/
lemma transition (h : K m) (st : IAbstractState) {entry : CCallManager → CCallManager}
    (hentry : ∀ {m}, K m → K (entry m)) : K (m.transition r st entry) := by
  have hexit : K (m.modify r CStateMachine.onExit) := hK.assign h CStateMachine.onExit_session
  exact hK.informManager (hentry (hK.assign hexit fun _ => by rfl))

lemma changeStatePlain (h : K m) (st : IAbstractState) : K (m.changeStatePlain r st) :=
  hK.transition h st fun h => hK.assign h fun _ => by cases st <;> rfl

lemma destroySession (h : K m) : K (m.destroySession (m.machines r).session) := by
  cases hk : (m.machines r).session with
  | none => exact h
  | some k =>
      have hleft : K { m with calls := m.calls.remove k } := hK.leave h hk
      simp only [CCallManager.destroySession]
      split_ifs
      · exact hleft
      · exact hK.utter hleft (.report (m := { m with calls := m.calls.remove k }) hk _)

lemma closing (h : K m) : K (m.closing r) := by
  have htimers : K (m.modify r CStateMachine.stopAllTimers) := hK.assign h fun _ => by rfl
  have htiming : K ((m.modify r CStateMachine.stopAllTimers).calculateTiming r) :=
    hK.assign htimers fun c => by split_ifs <;> rfl
  have hlogged :
      K (((m.modify r CStateMachine.stopAllTimers).calculateTiming r).updateCallLog r) := by
    simp only [updateCallLog]
    split_ifs
    · exact hK.utter htiming (.log ..)
    · exact htiming
  exact hK.assign (f := fun c => { c with callingNumber := "", incoming := false }) hlogged
    fun _ => rfl

lemma destroy (h : K m) : K (m.destroy r) :=
  hK.destroySession (hK.changeStatePlain (hK.closing h) .Idle)

lemma changeStateEnding (h : K m) (st : IAbstractState) : K (m.changeStateEnding r st) := by
  refine hK.transition h st fun h => ?_
  have htimer := hK.startTimer h .ERELEASED
  dsimp only
  split_ifs
  · exact htimer
  · exact hK.destroy htimer

lemma acceptCall (h : K m) : K (m.acceptCall r) := by
  simp only [CCallManager.acceptCall]
  split
  · exact hK.changeStatePlain (hK.request (hK.assign h fun _ => by rfl) (by simp)) .Active
  · exact h

lemma ring (h : K m) : K (m.ring r) := by
  have htimer := hK.startTimer (hK.assign h (f := fun c => { c with incoming := true })
    fun _ => by rfl) .ENORESPONSE
  have hmissed := hK.assign (hK.request htimer (q := .alerted) (by simp))
    (f := fun c => { c with type := .EMissed }) fun _ => by rfl
  simp only [CCallManager.ring]
  split_ifs
  · exact hK.startTimer hmissed .ENOREPLY
  · exact hmissed

lemma changeStateIncoming (h : K m) : K (m.changeStateIncoming r) := by
  refine hK.transition h .Incoming fun h => ?_
  dsimp only
  split_ifs
  · exact hK.acceptCall (hK.ring h)
  · exact hK.ring h

lemma changeState (h : K m) (st : IAbstractState) : K (m.changeState r st) := by
  cases st with
  | Released | Terminated => exact hK.changeStateEnding h _
  | Incoming => exact hK.changeStateIncoming h
  | _ => exact hK.changeStatePlain h _

/-! ## The handlers -/

lemma endCall (h : K m) : K (m.endCall r) := by
  have hends : ∀ {m}, K m → K (m.request r .endCall) := fun h => hK.request h (by simp)
  simp only [CCallManager.endCall]
  split
  · exact hends (hK.destroy h)
  · exact hends (hK.changeState h _)
  · exact hends (hK.changeState h _)
  · exact hends (hK.changeState h _)
  · exact hends (hK.changeState (hK.assign h fun _ => by rfl) _)
  · exact hK.destroy (hends h)
  · exact hends h
  · exact hK.changeState (hends h) _

lemma turnAway (h : K m) {code : EServiceCodes} (hcode : code ≠ .SC_CFNR) (dest : String) :
    K (m.turnAway r code dest) :=
  hK.endCall (hK.request (hK.assign h fun _ => by rfl) (by simp [hcode]))

lemma incomingCall (h : K m) (number info : String) : K (m.incomingCall r number info) := by
  simp only [CCallManager.incomingCall]
  split
  · split_ifs
    · exact hK.turnAway h (by simp) _
    · exact hK.turnAway h (by simp) _
    · exact hK.changeState (hK.assign h fun _ => by rfl) _
  · exact h

lemma onAlerting (h : K m) : K (m.onAlerting r) := by
  simp only [CCallManager.onAlerting]
  split
  · exact hK.changeState h _
  · exact hK.request h (by simp)
  · exact h

lemma onConnect (h : K m) : K (m.onConnect r) := by
  simp only [CCallManager.onConnect]
  split
  · exact hK.changeState h _
  · exact hK.changeState (hK.assign h fun _ => by rfl) _
  · exact hK.request h (by simp)
  · exact h

lemma onReleased (h : K m) : K (m.onReleased r) := by
  simp only [CCallManager.onReleased]
  split
  all_goals first | exact hK.changeState h _ | exact hK.destroy h | exact h

lemma retrieveCall (h : K m) : K (m.retrieveCall r) := by
  simp only [CCallManager.retrieveCall]
  split
  · exact hK.changeState (hK.request (hK.assign h fun _ => by rfl) (by simp)) _
  · exact h

lemma xferCall (h : K m) (number : String) : K (m.xferCall r number) := by
  simp only [CCallManager.xferCall]
  split
  · exact hK.request h (by simp)
  · exact hK.request h (by simp)
  · exact h

/-- A timer, if the property is also kept by a forwarding whenever the no-reply timer is meant. -/
lemma timerElapsed (h : K m) {t : ETimerType}
    (hforward : t = .ENOREPLY →
      ∀ {m}, K m → ∀ dest, K (m.request r (.serviceRequest .SC_CFNR dest))) :
    K (m.timerElapsed r t) := by
  have hstop : K (m.modify r fun c => c.stopTimer t) := hK.assign h fun _ => by cases t <;> rfl
  simp only [CCallManager.timerElapsed]
  split_ifs
  · cases t with
    | ENOREPLY =>
        simp only [noReplyTimerExpired]
        split
        · exact hforward rfl hstop _
        · exact hstop
    | ERELEASED =>
        simp only [releasedTimerExpired]
        split
        all_goals first | exact hK.destroy hstop | exact hstop
    | ENORESPONSE =>
        simp only [noResponseTimerExpired]
        split
        · exact hK.request (hK.changeState hstop _) (by simp)
        · exact hstop
  · exact h

end KeptByHandlers

end CCallManager

end TAM
