import AnsweringMachine.CallControl.WellFormed
import Mathlib.Logic.Function.Iterate

/-!
# Requests under way

`Manager` takes a request to the stack as something that is sent.  In the program it is a call: the
stack may report on the session before the call returns, on the same thread, and the manager then
handles the report in the middle of the operation that made the request.  `pjsua_call_answer` does
so when the media of the call cannot be started, and a response that cannot be sent does.

**Operations in pieces.**  A report inside a request that is the last act of an operation is a
report after the operation.  Elsewhere the operation stops at the request (`begin`), and what is
left of it is a `Frame`, the code behind the request.  Frames lie on a stack, the innermost on top;
when the request on top returns, its frame is run (`resume`), whatever has happened to the machine
meanwhile.  A state change that has more to do behind it, and the end of `OnIncomingCall`, are
frames as well.

**Undisturbed operations.**  `returns_handle`: requests inside which nothing is reported return to
the operation of `Manager`.

The pieces are those of an answering machine.  Dialling, retrieving and conferences are taken as a
whole.
-/

namespace TAM

namespace CCallManager

/-- What an operation has still to do. -/
inductive Frame
  /-- The entry of the incoming state behind `CallProxy.alerted`. -/
  | alerted (r : MachineRef)
  /-- `acceptCall` behind `CallProxy.acceptCall`. -/
  | accepted (r : MachineRef)
  /-- `changeState` behind the entry of the new state. -/
  | informed (r : MachineRef)
  /-- `OnIncomingCall` behind `incomingCall`. -/
  | delivered (r : MachineRef) (sessionId : CallId) (number info : String)
  /-- `endCall` of the holding state behind `CallProxy.endCall`. -/
  | endedHeld (r : MachineRef)
  /-- `endCall` of the released state behind `CallProxy.endCall`. -/
  | endedReleased (r : MachineRef)
  /-- `onUserAnswer` behind `holdCall`. -/
  | queued (r : MachineRef) (action : PendingAction)
  /-- `onHoldConfirm` behind the action that waited. -/
  | activated (r : MachineRef)
  deriving DecidableEq, Repr

/-- The machine whose request is under way, if the frame waits for one. -/
def Frame.waitsFor : Frame → Option MachineRef
  | .alerted r | .accepted r | .endedHeld r | .endedReleased r | .queued r _ => some r
  | .informed _ | .delivered _ _ _ _ | .activated _ => none

/-- What the stack reports on a session inside a request for it: its states and the confirmation of
a hold.  New sessions are not reported there. -/
def Event.reportsOn (k : CallId) : Event → Bool
  | .callStateChanged j st => j = k ∧ st ≠ .SESSION_STATE_INCOMING
  | .holdConfirm j => j = k
  | _ => false

/-! ## Up to the first request -/

/-- `acceptCall` of the incoming state.  The automatic answer calls it on that state object, so the
state the machine is in by then does not matter. -/
def sendAccept (m : CCallManager) (r : MachineRef) : CCallManager × List Frame :=
  let m := m.modify r fun c => { c with type := .EReceived, time := m.around.now }
  (m.request r .acceptCall, [.accepted r])

/-- `acceptCall`, which only the incoming state overrides. -/
def beginAcceptCall (m : CCallManager) (r : MachineRef) : CCallManager × List Frame :=
  match (m.machines r).state with
  | .Incoming => m.sendAccept r
  | _ => (m, [])

/-- `endCall`: two states send the request before they change. -/
def beginEndCall (m : CCallManager) (r : MachineRef) : CCallManager × List Frame :=
  match (m.machines r).state with
  | .Holding => (m.request r .endCall, [.endedHeld r])
  | .Released => (m.request r .endCall, [.endedReleased r])
  | _ => (m.endCall r, [])

/-- `changeState` to `INCOMING`. -/
def beginRinging (m : CCallManager) (r : MachineRef) : CCallManager × List Frame :=
  let m := m.modify r CStateMachine.onExit
  let m := m.modify r fun c => { c with state := .Incoming }
  let m := m.modify r fun c => { c with incoming := true }
  let m := m.startTimer r .ENORESPONSE
  (m.request r .alerted, [.alerted r, .informed r])

/-- `incomingCall`, which only the idle state overrides.  A call that is turned away is idle while
its requests are under way, and an idle machine ignores every report. -/
def beginIncomingCall (m : CCallManager) (r : MachineRef) (callingNo display : String) :
    CCallManager × List Frame :=
  match (m.machines r).state with
  | .Idle =>
      let cfg := m.around.config
      if cfg.CFUFlag ∧ 0 < cfg.CFUNumber.length then (m.turnAway r .SC_CFU cfg.CFUNumber, [])
      else if cfg.DNDFlag then (m.turnAway r .SC_DND "", [])
      else
        let m := m.modify r fun c => { c with callingNumber := callingNo, callingName := display }
        m.beginRinging r
  | _ => (m, [])

/-- The stack delivers the caller of a new call. -/
def beginOnIncomingCall (m : CCallManager) (sessionId : CallId) (number info : String) :
    CCallManager × List Frame :=
  match m.calls.get? sessionId with
  | none => (m, [])
  | some call =>
      let (m, fs) := m.beginIncomingCall call number info
      (m, fs ++ [.delivered call sessionId number info])

/-- A new call of the stack; one whose id is in the table makes the old call end. -/
def beginOnIncomingState (m : CCallManager) (callId : CallId) : CCallManager × List Frame :=
  match m.calls.get? callId with
  | some old => (m.announced callId).beginEndCall old
  | none => (m.onCallStateChanged callId .SESSION_STATE_INCOMING, [])

/-- Answer a call, or put the active call on hold and queue the answer. -/
def beginOnUserAnswer (m : CCallManager) (session : CallId) : CCallManager × List Frame :=
  match m.enumCallsInState .ACTIVE with
  | sm :: _ => (m.holdCall sm, [.queued sm (.EUserAnswer session)])
  | [] =>
      match m.calls.get? session with
      | none => (m, [])
      | some r => m.beginAcceptCall r

/-- Release a call. -/
def beginOnUserRelease (m : CCallManager) (session : CallId) : CCallManager × List Frame :=
  match m.calls.get? session with
  | none => (m, [])
  | some r => m.beginEndCall r

/-- `PendingAction.Activate`. -/
def beginActivate (m : CCallManager) : PendingAction → CCallManager × List Frame
  | .EUserAnswer s => m.beginOnUserAnswer s
  | p => (m.activate .sequential p, [])

/-- The confirmation of a hold. -/
def beginHoldConfirm (m : CCallManager) (callId : CallId) : CCallManager × List Frame :=
  match m.calls.get? callId with
  | none => (m, [])
  | some r =>
      match (m.machines r).state with
      | .Active =>
          if (m.machines r).holdRequested then
            let m := m.changeState r .Holding
            let (m, fs) := match m.pendingAction with
              | none => (m, [])
              | some p => m.beginActivate p
            (m, fs ++ [.activated r])
          else (m.modify r fun c => { c with holdRequested := false }, [])
      | _ => (m, [])

/-- **Begin an operation**: up to its first request that is not its last act. -/
def begin (m : CCallManager) : Event → CCallManager × List Frame
  | .onUserRelease s => m.beginOnUserRelease s
  | .onUserAnswer s => m.beginOnUserAnswer s
  | .callStateChanged k .SESSION_STATE_INCOMING => m.beginOnIncomingState k
  | .callIncoming k number info => m.beginOnIncomingCall k number info
  | .holdConfirm k => m.beginHoldConfirm k
  | e => (m.handle [] e, [])

/-! ## Behind the requests -/

/-- Is a call that rings answered at once? -/
def answersAutomatically (m : CCallManager) : Bool :=
  m.around.config.AAFlag ∧ m.calls.count = 1

/-- The entry of the incoming state behind the request, up to the automatic answer. -/
def ringOn (m : CCallManager) (r : MachineRef) : CCallManager :=
  let m := m.modify r fun c => { c with type := .EMissed }
  if m.around.config.CFNRFlag then m.startTimer r .ENOREPLY else m

/-- **Run a frame**, in whatever state its machine is by now. -/
def resume (m : CCallManager) : Frame → CCallManager × List Frame
  | .alerted r =>
      let m := m.ringOn r
      if m.answersAutomatically then m.sendAccept r else (m, [])
  | .accepted r => (m.changeState r .Active, [])
  | .informed r => (m.informManager r, [])
  | .delivered r sessionId number info =>
      (if (m.machines r).disableStateNotifications then m
        else m.emit (.raise (.IncomingCallNotification sessionId number info)), [])
  | .endedHeld r => (m.changeState r .Terminated, [])
  | .endedReleased r => (m.destroy r, [])
  | .queued _ action => ({ m with pendingAction := some action }, [])
  | .activated r =>
      ({ m with pendingAction := none }.modify r fun c => { c with holdRequested := false }, [])

/-- The frame on top is run, and makes room for those it leaves. -/
def returns : CCallManager × List Frame → CCallManager × List Frame
  | (m, []) => (m, [])
  | (m, f :: fs) => ((m.resume f).1, (m.resume f).2 ++ fs)

/-! ### What the pieces do to the machine -/

lemma sendAccept_effect (m : CCallManager) (r : MachineRef) :
    Effect m (m.sendAccept r).1 r .stay :=
  (request_effect _ r .acceptCall).after
    (modify_effect m r (fun _ => rfl) (fun _ => rfl) (fun _ => rfl) fun _ => rfl)

lemma beginRinging_effect (m : CCallManager) (r : MachineRef) :
    Effect m (m.beginRinging r).1 r (.goto .Incoming) := by
  refine Effect.before ?_ (request_effect _ r .alerted)
  refine Effect.before ?_ (startTimer_effect _ r .ENORESPONSE)
  exact (moved_effect m r .Incoming).modify
    (fun _ => rfl) (fun _ => rfl) (fun _ => rfl) fun _ => rfl

/-- The caller is noted, and the machine rings. -/
lemma callerRinging_effect (m : CCallManager) (r : MachineRef) (number info : String) :
    Effect m ((m.modify r fun c =>
      { c with callingNumber := number, callingName := info }).beginRinging r).1 r
      (.goto .Incoming) :=
  (beginRinging_effect _ r).after
    (modify_effect m r (fun _ => rfl) (fun _ => rfl) (fun _ => rfl) fun _ => rfl)

lemma ringOn_effect (m : CCallManager) (r : MachineRef) : Effect m (m.ringOn r) r .stay := by
  have htype : Effect m (m.modify r fun c => { c with type := .EMissed }) r .stay :=
    modify_effect m r (fun _ => rfl) (fun _ => rfl) (fun _ => rfl) fun _ => rfl
  simp only [ringOn]
  split_ifs
  · exact htype.before (startTimer_effect _ r .ENOREPLY)
  · exact htype

/-! ## Undisturbed operations -/

/-- Run a frame and what it leaves, nothing being reported in between. -/
def complete (m : CCallManager) (f : Frame) : CCallManager :=
  (m.resume f).2.foldl (fun m g => (m.resume g).1) (m.resume f).1

/-- Run every frame, nothing being reported in between. -/
def finish (s : CCallManager × List Frame) : CCallManager := s.2.foldl complete s.1

variable {m : CCallManager} {r : MachineRef}

@[simp] lemma finish_nil (m : CCallManager) : finish (m, []) = m := rfl

@[simp] lemma finish_append (m : CCallManager) (fs gs : List Frame) :
    finish (m, fs ++ gs) = finish (finish (m, fs), gs) := List.foldl_append

/-- Only the frame of the ringing leaves another one, which leaves none. -/
lemma resume_resume (m m' : CCallManager) {f g : Frame} (hg : g ∈ (m.resume f).2) :
    (m'.resume g).2 = [] := by
  cases f with
  | alerted r =>
      simp only [resume] at hg
      split_ifs at hg
      · simp only [sendAccept, List.mem_singleton] at hg
        rw [hg, resume]
      · simp at hg
  | _ => simp [resume] at hg

/-- Frames that leave none return one after the other. -/
lemma returns_leaves (gs fs : List Frame) (hgs : ∀ g ∈ gs, ∀ m : CCallManager, (m.resume g).2 = [])
    (m : CCallManager) :
    returns^[gs.length] (m, gs ++ fs) = (gs.foldl (fun m g => (m.resume g).1) m, fs) := by
  induction gs generalizing m with
  | nil => rfl
  | cons g gs ih =>
      rw [List.forall_mem_cons] at hgs
      rw [List.length_cons, Function.iterate_succ_apply, List.cons_append, returns, hgs.1 m]
      exact ih hgs.2 _

/-- **Returning requests lead there**, one after the other. -/
lemma returns_finish (m : CCallManager) (fs : List Frame) :
    ∃ n, returns^[n] (m, fs) = (finish (m, fs), []) := by
  induction fs generalizing m with
  | nil => exact ⟨0, rfl⟩
  | cons f fs ih =>
      obtain ⟨n, hn⟩ := ih (m.complete f)
      refine ⟨n + ((m.resume f).2.length + 1), ?_⟩
      rw [Function.iterate_add_apply, Function.iterate_succ_apply, returns,
        returns_leaves _ fs fun g hg m' => resume_resume m m' hg]
      exact hn

/-! ### The operations of the manager -/

lemma finish_beginEndCall (m : CCallManager) (r : MachineRef) :
    finish (m.beginEndCall r) = m.endCall r := by
  cases hst : (m.machines r).state <;> simp only [beginEndCall, endCall, hst] <;> rfl

lemma finish_beginAcceptCall (m : CCallManager) (r : MachineRef) :
    finish (m.beginAcceptCall r) = m.acceptCall r := by
  cases hst : (m.machines r).state <;> simp only [beginAcceptCall, acceptCall, hst] <;> rfl

lemma finish_beginOnUserAnswer (m : CCallManager) (s : CallId) :
    finish (m.beginOnUserAnswer s) = m.onUserAnswer .sequential s := by
  simp only [beginOnUserAnswer, onUserAnswer]
  cases m.enumCallsInState .ACTIVE with
  | cons sm rest => rfl
  | nil =>
      cases hk : m.calls.get? s with
      | none => rfl
      | some r => exact finish_beginAcceptCall m r

/-- The ringing is the state change of the manager. -/
lemma finish_beginRinging (m : CCallManager) (r : MachineRef) :
    finish (m.beginRinging r) = m.changeState r .Incoming := by
  set m₁ := (m.beginRinging r).1
  have hst : ((m₁.ringOn r).machines r).state = .Incoming := by
    rw [(ringOn_effect m₁ r).state, (beginRinging_effect m r).state]
    rfl
  have hbase : m.changeState r .Incoming = (if (m₁.ringOn r).answersAutomatically then
      (m₁.ringOn r).acceptCall r else m₁.ringOn r).informManager r := by
    simp only [changeState, changeStateIncoming, transition, answersAutomatically,
      decide_eq_true_eq]
    rfl
  have hfin : finish (m.beginRinging r) = (m₁.complete (.alerted r)).informManager r := rfl
  rw [hfin, hbase]
  congr 1
  simp only [complete, resume]
  split_ifs with haa
  · simp only [acceptCall, hst]
    rfl
  · rfl

lemma finish_beginOnIncomingCall (m : CCallManager) (k : CallId) (number info : String) :
    finish (m.beginOnIncomingCall k number info) = m.onIncomingCall k number info := by
  simp only [beginOnIncomingCall, onIncomingCall]
  cases hk : m.calls.get? k with
  | none => rfl
  | some call =>
      have hcall : finish (m.beginIncomingCall call number info) =
          m.incomingCall call number info := by
        simp only [beginIncomingCall, incomingCall]
        cases hst : (m.machines call).state with
        | Idle =>
            dsimp only
            split_ifs
            · rfl
            · rfl
            · exact finish_beginRinging _ call
        | _ => rfl
      dsimp only
      rw [finish_append, hcall]
      rfl

lemma finish_beginHoldConfirm (m : CCallManager) (k : CallId) :
    finish (m.beginHoldConfirm k) = m.onCallNotification [] k := by
  simp only [beginHoldConfirm, onCallNotification]
  cases hk : m.calls.get? k with
  | none => rfl
  | some r =>
      simp only [onHoldConfirm, holdConfirmed]
      cases hst : (m.machines r).state with
      | Active =>
          dsimp only
          split_ifs
          · have hact : ∀ m' : CCallManager, finish (match m'.pendingAction with
                | none => (m', [])
                | some p => m'.beginActivate p) = match m'.pendingAction with
                | none => m'
                | some p => m'.activate .sequential p := by
              intro m'
              cases m'.pendingAction with
              | none => rfl
              | some p =>
                  cases p with
                  | EUserAnswer s => exact finish_beginOnUserAnswer m' s
                  | _ => rfl
            rw [finish_append, hact]
            rfl
          · rfl
      | _ => rfl

lemma finish_beginOnIncomingState (m : CCallManager) (k : CallId) :
    finish (m.beginOnIncomingState k) = m.onCallStateChanged k .SESSION_STATE_INCOMING := by
  simp only [beginOnIncomingState]
  split
  · rename_i old hk
    rw [incoming_eq_endCall hk]
    exact finish_beginEndCall _ old
  · rfl

lemma finish_begin (m : CCallManager) (e : Event) : finish (m.begin e) = m.handle [] e := by
  cases e with
  | onUserRelease s =>
      simp only [begin, beginOnUserRelease, handle, onUserRelease]
      cases m.calls.get? s with
      | none => rfl
      | some r => exact finish_beginEndCall m r
  | onUserAnswer s => exact finish_beginOnUserAnswer m s
  | callStateChanged k st =>
      cases st with
      | SESSION_STATE_INCOMING => exact finish_beginOnIncomingState m k
      | _ => rfl
  | callIncoming k number info => exact finish_beginOnIncomingCall m k number info
  | holdConfirm k => exact finish_beginHoldConfirm m k
  | _ => rfl

/-- **Requests inside which nothing is reported** return to the operation of the manager. -/
theorem returns_handle (m : CCallManager) (e : Event) :
    ∃ n, returns^[n] (m.begin e) = (m.handle [] e, []) := by
  rw [← finish_begin]
  exact returns_finish _ _

/-! ## Reports that change nothing -/

/-- The session a request is under way for. -/
def underWay (s : CCallManager × List Frame) : Option CallId :=
  s.2.head?.bind fun f => f.waitsFor.bind fun r => (s.1.machines r).session

/-- One event, the stack reporting these states of the session inside its first request that is not
its last act. -/
def handleWithin (m : CCallManager) (e : Event) (inside : List ESessionState) : CCallManager :=
  let s := m.begin e
  match underWay s with
  | none => finish s
  | some k => finish (inside.foldl (fun m st => m.onCallStateChanged k st) s.1, s.2)

/-- The session is neither new nor at its end. -/
def Passing (st : ESessionState) : Prop :=
  st ≠ .SESSION_STATE_INCOMING ∧ st ≠ .SESSION_STATE_DISCONNECTED

instance (st : ESessionState) : Decidable (Passing st) := inferInstanceAs (Decidable (_ ∧ _))

/-- The states in which a machine takes no notice of it. -/
def Unmoved (st : IAbstractState) : Prop := st ≠ .Connecting ∧ st ≠ .Alerting ∧ st ≠ .Terminated

lemma onCallStateChanged_unmoved {k : CallId} (hk : m.calls.get? k = some r)
    (hr : Unmoved (m.machines r).state) {st : ESessionState} (hst : Passing st) :
    m.onCallStateChanged k st = m := by
  obtain ⟨hconn, halert, hterm⟩ := hr
  cases st <;> simp_all [Passing, onCallStateChanged, onAlerting, onConnect]

/-- The request under way is for the call that is in the table under this id, and the machine is in
such a state. -/
def Frame.Waits (m : CCallManager) (f : Frame) : Prop :=
  ∀ r, f.waitsFor = some r →
    (∃ k, m.calls.get? k = some r ∧ (m.machines r).session = some k) ∧ Unmoved (m.machines r).state

lemma Frame.Waits.none {f : Frame} (hf : f.waitsFor = none) (m : CCallManager) : f.Waits m :=
  fun r hr => by simp [hf] at hr

/-- Every operation stops at such a request. -/
def Stops (s : CCallManager × List Frame) : Prop := ∀ f ∈ s.2.head?, f.Waits s.1

lemma Stops.nil (m : CCallManager) : Stops (m, []) := by simp [Stops]

/-- What comes behind does not matter, if it waits for nothing. -/
lemma Stops.append {s : CCallManager × List Frame} (h : Stops s) {f : Frame}
    (hf : f.waitsFor = none) : Stops (s.1, s.2 ++ [f]) := by
  obtain ⟨m, fs⟩ := s
  cases fs with
  | nil => simpa [Stops] using Frame.Waits.none hf m
  | cons g fs => exact h

/-- The frame of a listed machine. -/
lemma WellFormed.stops (hw : m.WellFormed) {k : CallId} (hk : m.calls.get? k = some r) {f : Frame}
    {fs : List Frame} (hf : f.waitsFor = some r) (hr : Unmoved (m.machines r).state) :
    Stops (m, f :: fs) := by
  simp only [Stops, List.head?_cons, Option.mem_def, Option.some.injEq, forall_eq']
  intro x hx
  obtain rfl := Option.some.inj (hf.symm.trans hx)
  exact ⟨⟨k, hk, hw.session k r hk⟩, hr⟩

lemma WellFormed.stops_acceptCall (hw : m.WellFormed) {k : CallId} (hk : m.calls.get? k = some r) :
    Stops (m.beginAcceptCall r) := by
  simp only [beginAcceptCall]
  split
  · rename_i hst
    have he := sendAccept_effect m r
    exact (hw.effect he).stops (k := k) (by rw [he.calls]; simpa using hk) rfl
      (by rw [he.state, Outcome.stay_state, hst]; simp [Unmoved])
  · exact .nil m

lemma WellFormed.stops_endCall (hw : m.WellFormed) {k : CallId} (hk : m.calls.get? k = some r) :
    Stops (m.beginEndCall r) := by
  have he := request_effect m r .endCall
  have hreq {f : Frame} (hf : f.waitsFor = some r) (hr : Unmoved (m.machines r).state) :
      Stops (m.request r .endCall, [f]) := (hw.effect he).stops (k := k) hk hf hr
  simp only [beginEndCall]
  split
  · rename_i hst
    exact hreq rfl (by simp [hst, Unmoved])
  · rename_i hst
    exact hreq rfl (by simp [hst, Unmoved])
  · exact .nil _

lemma WellFormed.stops_onUserAnswer (hw : m.WellFormed) (j : CallId) :
    Stops (m.beginOnUserAnswer j) := by
  simp only [beginOnUserAnswer]
  split
  · rename_i sm rest hact
    have hmap : sm ∈ (m.calls.entries.filter fun e =>
        (m.machines e.2).state.id = EStateId.ACTIVE).map Prod.snd := by
      rw [enumCallsInState] at hact
      rw [hact]
      simp
    obtain ⟨⟨k, x⟩, hmem, rfl⟩ := List.mem_map.mp hmap
    obtain ⟨hentry, hid⟩ := List.mem_filter.mp hmem
    have hst : (m.machines x).state = .Active :=
      IAbstractState.id_injective (of_decide_eq_true hid)
    exact (hw.holdCall x).stops (k := k) (by simpa using Dictionary.mem_entries.mp hentry) rfl
      (by simp [hst, Unmoved])
  · split
    · exact .nil m
    · rename_i r hk
      exact hw.stops_acceptCall hk

lemma WellFormed.stops_incomingCall (hw : m.WellFormed) {k : CallId}
    (hk : m.calls.get? k = some r) (number info : String) :
    Stops (m.beginIncomingCall r number info) := by
  simp only [beginIncomingCall]
  split
  · split_ifs
    · exact .nil _
    · exact .nil _
    · have he := callerRinging_effect m r number info
      exact (hw.effect he).stops (k := k) (by rw [he.calls]; simpa using hk) rfl
        (by rw [he.state]; simp [Unmoved, Outcome.state])
  · exact .nil m

lemma WellFormed.stops_holdConfirm (hw : m.WellFormed) (k : CallId) :
    Stops (m.beginHoldConfirm k) := by
  simp only [beginHoldConfirm]
  split
  · exact .nil m
  rename_i r hk
  split
  · split_ifs
    · have hheld : (m.changeState r .Holding).WellFormed :=
        hw.effect (changeStatePlain_effect m r .Holding)
      split
      · exact (Stops.nil _).append rfl
      · rename_i p hp
        refine Stops.append (s := (m.changeState r .Holding).beginActivate p) ?_ rfl
        cases p with
        | EUserAnswer j => exact hheld.stops_onUserAnswer j
        | _ => exact .nil _
    · exact .nil _
  · exact .nil m

/-- **Every operation stops at a request for a listed call.** -/
lemma WellFormed.stops_begin (hw : m.WellFormed) (e : Event) : Stops (m.begin e) := by
  cases e with
  | onUserRelease s =>
      simp only [begin, beginOnUserRelease]
      split
      · exact .nil m
      · rename_i r hk
        exact hw.stops_endCall hk
  | onUserAnswer s => exact hw.stops_onUserAnswer s
  | callStateChanged k st =>
      cases st with
      | SESSION_STATE_INCOMING =>
          simp only [begin, beginOnIncomingState]
          split
          · rename_i old hk
            exact (hw.announced k).stops_endCall hk
          · exact .nil _
      | _ => exact .nil _
  | callIncoming k number info =>
      simp only [begin, beginOnIncomingCall]
      split
      · exact .nil m
      · rename_i r hk
        exact (hw.stops_incomingCall hk number info).append rfl
  | holdConfirm k => exact hw.stops_holdConfirm k
  | _ => exact .nil _

/-- **Reports inside a request that the session passes a state change nothing**: the operation is
the one of the manager. -/
theorem WellFormed.handleWithin (hw : m.WellFormed) (e : Event) {inside : List ESessionState}
    (hinside : ∀ st ∈ inside, Passing st) : m.handleWithin e inside = m.handle [] e := by
  have hstops := hw.stops_begin e
  rw [← finish_begin]
  simp only [CCallManager.handleWithin]
  split
  · rfl
  rename_i k hk
  simp only [underWay, Option.bind_eq_some_iff] at hk
  obtain ⟨f, hf, r, hr, hse⟩ := hk
  obtain ⟨⟨j, hj, hse'⟩, hst⟩ := hstops f hf r hr
  obtain rfl := Option.some.inj (hse.symm.trans hse')
  have hsame :
      inside.foldl (fun m st => m.onCallStateChanged k st) (m.begin e).1 = (m.begin e).1 := by
    induction inside with
    | nil => rfl
    | cons st inside ih =>
        rw [List.foldl_cons, onCallStateChanged_unmoved hj hst (hinside st (by simp))]
        exact ih fun st' hst' => hinside st' (by simp [hst'])
  rw [hsame]

end CCallManager

end TAM
