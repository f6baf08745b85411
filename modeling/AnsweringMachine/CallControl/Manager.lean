import AnsweringMachine.CallControl.Machine

/-!
# Call control: the code

`CCallManager` with its call table, and the handlers of the eight call states.  The text follows
`callStates.cs`, `callStateMachine.cs` and `callManager.cs`; a method that several state classes
override is one function that matches on the state of the machine, and a class that does not
override it falls into the last branch.

Machines live on a heap (`machines`), because the code keeps using machines that are in the table
no longer: a destroyed one finishes the handler it is in, and one that was turned away or replaced
keeps its timers.  The table maps a session id to a heap position.

State changes nest: `onEntry` of the two ending states destroys the machine when its timer does not
start, and `onEntry` of the incoming state may answer the call.  Neither nests further, so the
functions are layered instead of recursive: `changeStatePlain`, then `destroy`, then
`changeStateEnding`, `acceptCall` and `changeStateIncoming`, then `changeState` for all targets.

A request to the stack is an output: here the stack reports nothing before the request returns, and
its result is ignored, as the handlers ignore it.  `UnderWay` takes the operations apart at their
requests and lets the stack report inside them.

The one genuine recursion is the confirmation of a hold that arrives while the operation that asked
for the hold is still running (`onHoldConfirm`).  `Arrival` says when it arrives; a list of arrivals
answers the hold requests of one operation one after the other, and `[]` is the sequential world in
which every confirmation comes after the operation.
-/

namespace TAM

/-- An action that waits for a hold to be confirmed. -/
inductive PendingAction
  | EUserAnswer (sessionId : CallId)
  | ECreateSession (number : String) (accountId : ℕ)
  | EUserHold (sessionId : CallId)
  deriving DecidableEq, Repr

/-- The exceptions a dictionary raises. -/
inductive TableException
  | KeyNotFoundException
  | ArgumentException
  deriving DecidableEq, Repr

/-- What the manager reads from around it: configuration, timer factory, clock, and the id the
stack gives to the next outgoing call. -/
structure Surroundings where
  config : IConfigurator := {}
  factory : AbstractFactory := .SipekResources
  now : DateTime := 0
  makeCallAnswer : Option CallId := none
  deriving DecidableEq, Repr

/-- The call manager.  `out` collects what the running operation does to the outside. -/
structure CCallManager where
  machines : MachineRef → CStateMachine
  created : ℕ
  calls : Dictionary CallId MachineRef
  pendingAction : Option PendingAction
  initialized : Bool
  around : Surroundings
  out : List Output

namespace CCallManager

/-- An initialized manager without calls. -/
def initial (around : Surroundings) : CCallManager where
  machines := fun _ => {}
  created := 0
  calls := Dictionary.empty
  pendingAction := none
  initialized := true
  around := around
  out := []

/-! ## Primitive updates -/

/-- Assign to fields of a machine. -/
def modify (m : CCallManager) (r : MachineRef) (f : CStateMachine → CStateMachine) : CCallManager :=
  { m with machines := Function.update m.machines r (f (m.machines r)) }

/-- Do something to the outside. -/
def emit (m : CCallManager) (o : Output) : CCallManager := { m with out := m.out ++ [o] }

/-- Send a request through the call proxy of a machine; the proxy knows the machine's session. -/
def request (m : CCallManager) (r : MachineRef) (q : Request) : CCallManager :=
  m.emit (.request (m.machines r).session q)

/-- Start a timer of a machine. -/
def startTimer (m : CCallManager) (r : MachineRef) (t : ETimerType) : CCallManager :=
  m.modify r fun c => c.startTimer m.around.factory t

/-- The state id read through `getCall(session).StateId`: the null machine stands in for an
absent one. -/
def stateIdOf (m : CCallManager) (session : CallId) : EStateId :=
  match m.calls.get? session with
  | none => .NULL
  | some r => (m.machines r).state.id

/-- Tell the subscribers that a call changed. -/
def updateGui (m : CCallManager) (session : CallId) : CCallManager :=
  m.emit (.raise (.CallStateRefresh session (m.stateIdOf session)))

/-- The end of `changeState`: inform the manager, unless the machine has no session or asked not
to be reported. -/
def informManager (m : CCallManager) (r : MachineRef) : CCallManager :=
  match (m.machines r).session with
  | none => m
  | some k => if (m.machines r).disableStateNotifications then m else m.updateGui k

/-! ## Changing the state of a machine -/

/-- `changeState`: exit the old state, enter the new one, inform the manager.  What the entry does
beyond assignments is the argument. -/
def transition (m : CCallManager) (r : MachineRef) (st : IAbstractState)
    (entry : CCallManager → CCallManager) : CCallManager :=
  let m := m.modify r CStateMachine.onExit
  let m := m.modify r fun c => { c with state := st }
  let m := entry m
  m.informManager r

/-- `changeState` to a state whose entry makes assignments only. -/
def changeStatePlain (m : CCallManager) (r : MachineRef) (st : IAbstractState) : CCallManager :=
  m.transition r st fun m => m.modify r fun c => c.onEntry st

/-- `destroySession`: take the session out of the table and report it, unless the machine found
there (the null machine included) is not to be reported. -/
def destroySession (m : CCallManager) (session : Option CallId) : CCallManager :=
  match session with
  | none => m
  | some k =>
      let silent := match m.calls.get? k with
        | none => true
        | some r => (m.machines r).disableStateNotifications
      let m := { m with calls := m.calls.remove k }
      if silent then m else m.updateGui k

/-- Does `destroy` write this call to the log? -/
def logged (c : CStateMachine) : Bool :=
  (c.type ≠ .EDialed ∨ 0 < c.callingNumber.length) ∧ c.type ≠ .EUndefined

/-- "Calculate timing": the duration of a call that is being counted runs up to now. -/
def calculateTiming (m : CCallManager) (r : MachineRef) : CCallManager :=
  m.modify r fun c => if c.counting then { c with duration := m.around.now - c.time } else c

/-- "Update call log". -/
def updateCallLog (m : CCallManager) (r : MachineRef) : CCallManager :=
  let c := m.machines r
  if logged c then m.emit (.addCall c.type c.callingNumber c.callingName c.time c.duration) else m

/-- What `destroy` does before the machine goes to idle: stop the timers, compute the duration,
write the call log, reset the data. -/
def closing (m : CCallManager) (r : MachineRef) : CCallManager :=
  let m := m.modify r CStateMachine.stopAllTimers
  let m := m.calculateTiming r
  let m := m.updateCallLog r
  m.modify r fun c => { c with callingNumber := "", incoming := false }

/-- `destroy`: close the call, go to idle and leave the call table. -/
def destroy (m : CCallManager) (r : MachineRef) : CCallManager :=
  let m := m.closing r
  let m := m.changeStatePlain r .Idle
  m.destroySession (m.machines r).session

/-- `changeState` to `RELEASED` or `TERMINATED`: the entry starts the release timer and destroys
the machine if that fails. -/
def changeStateEnding (m : CCallManager) (r : MachineRef) (st : IAbstractState) : CCallManager :=
  m.transition r st fun m =>
    let success := m.around.factory.timersRun
    let m := m.startTimer r .ERELEASED
    if success then m else m.destroy r

/-- `acceptCall`, which only the incoming state overrides.  The state changes behind the request,
whatever the stack makes of it. -/
def acceptCall (m : CCallManager) (r : MachineRef) : CCallManager :=
  match (m.machines r).state with
  | .Incoming =>
      let m := m.modify r fun c => { c with type := .EReceived, time := m.around.now }
      let m := m.request r .acceptCall
      m.changeStatePlain r .Active
  | _ => m

/-- The entry of the incoming state up to the automatic answer: start the no-response timer, tell
the stack that the phone rings, and start the no-reply timer if that service is on. -/
def ring (m : CCallManager) (r : MachineRef) : CCallManager :=
  let m := m.modify r fun c => { c with incoming := true }
  let m := m.startTimer r .ENORESPONSE
  let m := m.request r .alerted
  let m := m.modify r fun c => { c with type := .EMissed }
  if m.around.config.CFNRFlag then m.startTimer r .ENOREPLY else m

/-- `changeState` to `INCOMING`: the entry rings and, with automatic answering and no other call in
the table, answers. -/
def changeStateIncoming (m : CCallManager) (r : MachineRef) : CCallManager :=
  m.transition r .Incoming fun m =>
    let m := m.ring r
    if m.around.config.AAFlag ∧ m.calls.count = 1 then m.acceptCall r else m

/-- `changeState`, for every target state. -/
def changeState (m : CCallManager) (r : MachineRef) (st : IAbstractState) : CCallManager :=
  match st with
  | .Released => m.changeStateEnding r .Released
  | .Terminated => m.changeStateEnding r .Terminated
  | .Incoming => m.changeStateIncoming r
  | st => m.changeStatePlain r st

/-! ## The handlers of the call states -/

/-- `endCall` of every state.  Two of them send the request first and act behind it. -/
def endCall (m : CCallManager) (r : MachineRef) : CCallManager :=
  match (m.machines r).state with
  | .Idle =>
      let m := m.destroy r
      m.request r .endCall
  | .Connecting | .Alerting | .Incoming =>
      let m := m.changeState r .Terminated
      m.request r .endCall
  | .Active =>
      let m := m.modify r fun c => { c with duration := m.around.now - c.time }
      let m := m.changeState r .Terminated
      m.request r .endCall
  | .Released =>
      let m := m.request r .endCall
      m.destroy r
  | .Terminated => m.request r .endCall
  | .Holding =>
      let m := m.request r .endCall
      m.changeState r .Terminated

/-- `makeCall` of the idle state; the session is the one the stack answers with. -/
def makeCall (m : CCallManager) (r : MachineRef) (dialedNo : String) (accountId : ℕ) :
    CCallManager :=
  let m := m.modify r fun c => { c with callingNumber := dialedNo }
  let m := m.changeState r .Connecting
  let m := m.request r (.makeCall dialedNo accountId)
  m.modify r fun c => { c with session := m.around.makeCallAnswer }

/-- The exit of `incomingCall` for a call that a service turns away. -/
def turnAway (m : CCallManager) (r : MachineRef) (code : EServiceCodes) (dest : String) :
    CCallManager :=
  let m := m.modify r fun c => { c with disableStateNotifications := true }
  let m := m.request r (.serviceRequest code dest)
  m.endCall r

/-- `incomingCall`, which only the idle state overrides. -/
def incomingCall (m : CCallManager) (r : MachineRef) (callingNo display : String) : CCallManager :=
  match (m.machines r).state with
  | .Idle =>
      let cfg := m.around.config
      if cfg.CFUFlag ∧ 0 < cfg.CFUNumber.length then m.turnAway r .SC_CFU cfg.CFUNumber
      else if cfg.DNDFlag then m.turnAway r .SC_DND ""
      else
        let m := m.modify r fun c => { c with callingNumber := callingNo, callingName := display }
        m.changeState r .Incoming
  | _ => m

/-- `onAlerting` of every state. -/
def onAlerting (m : CCallManager) (r : MachineRef) : CCallManager :=
  match (m.machines r).state with
  | .Connecting => m.changeState r .Alerting
  | .Terminated => m.request r .endCall
  | _ => m

/-- `onConnect` of every state. -/
def onConnect (m : CCallManager) (r : MachineRef) : CCallManager :=
  match (m.machines r).state with
  | .Connecting => m.changeState r .Active
  | .Alerting =>
      let m := m.modify r fun c => { c with time := m.around.now }
      m.changeState r .Active
  | .Terminated => m.request r .endCall
  | _ => m

/-- `onReleased` of every state; the idle state does not override it. -/
def onReleased (m : CCallManager) (r : MachineRef) : CCallManager :=
  match (m.machines r).state with
  | .Connecting | .Alerting | .Active | .Incoming | .Holding => m.changeState r .Released
  | .Released | .Terminated => m.destroy r
  | .Idle => m

/-- `holdCall`, which only the active state overrides. -/
def holdCall (m : CCallManager) (r : MachineRef) : CCallManager :=
  match (m.machines r).state with
  | .Active =>
      let m := m.modify r fun c => { c with holdRequested := true }
      m.request r .holdCall
  | _ => m

/-- `retrieveCall`, which only the holding state overrides. -/
def retrieveCall (m : CCallManager) (r : MachineRef) : CCallManager :=
  match (m.machines r).state with
  | .Holding =>
      let m := m.modify r fun c => { c with retrieveRequested := true }
      let m := m.request r .retrieveCall
      m.changeState r .Active
  | _ => m

/-- `conferenceCall`, which only the active state overrides. -/
def conferenceCall (m : CCallManager) (r : MachineRef) : CCallManager :=
  match (m.machines r).state with
  | .Active => m.request r .conferenceCall
  | _ => m

/-- `xferCall`: a transfer of an active call, a deflection of a ringing one. -/
def xferCall (m : CCallManager) (r : MachineRef) (number : String) : CCallManager :=
  match (m.machines r).state with
  | .Active => m.request r (.xferCall number)
  | .Incoming => m.request r (.serviceRequest .SC_CD number)
  | _ => m

/-- `noReplyTimerExpired`, which only the incoming state overrides. -/
def noReplyTimerExpired (m : CCallManager) (r : MachineRef) : CCallManager :=
  match (m.machines r).state with
  | .Incoming => m.request r (.serviceRequest .SC_CFNR m.around.config.CFUNumber)
  | _ => m

/-- `releasedTimerExpired`, which the two ending states override. -/
def releasedTimerExpired (m : CCallManager) (r : MachineRef) : CCallManager :=
  match (m.machines r).state with
  | .Released | .Terminated => m.destroy r
  | _ => m

/-- `noResponseTimerExpired`, which only the incoming state overrides. -/
def noResponseTimerExpired (m : CCallManager) (r : MachineRef) : CCallManager :=
  match (m.machines r).state with
  | .Incoming =>
      let m := m.changeState r .Terminated
      m.request r .endCall
  | _ => m

/-- A timer of a machine fires: it is stopped, then its callback runs.  A timer that does not run
does not fire. -/
def timerElapsed (m : CCallManager) (r : MachineRef) (t : ETimerType) : CCallManager :=
  if (m.machines r).running t then
    let m := m.modify r fun c => c.stopTimer t
    match t with
    | .ENOREPLY => m.noReplyTimerExpired r
    | .ERELEASED => m.releasedTimerExpired r
    | .ENORESPONSE => m.noResponseTimerExpired r
  else m

/-! ## Looking through the call table -/

/-- The machines in a given state, in enumeration order. -/
def enumCallsInState (m : CCallManager) (stateId : EStateId) : List MachineRef :=
  (m.calls.entries.filter fun e => (m.machines e.2).state.id = stateId).map Prod.snd

/-- The first machine in a given state. -/
def getCallInState (m : CCallManager) (stateId : EStateId) : Option MachineRef :=
  (m.calls.entries.find? fun e => (m.machines e.2).state.id = stateId).map Prod.snd

/-- The number of machines in a given state. -/
def getNoCallsInState (m : CCallManager) (stateId : EStateId) : ℕ :=
  m.calls.entries.countP fun e => stateId = (m.machines e.2).state.id

/-- The number of machines whose state is among those of a bit mask. -/
def getNoCallsInStates (m : CCallManager) (states : ℕ) : ℕ :=
  m.calls.entries.countP fun e =>
    states &&& (m.machines e.2).state.id.code = (m.machines e.2).state.id.code

/-! ## User operations

Each takes the window in which the stack may confirm the hold the operation asks for. -/

/-- When the stack confirms a hold: inside the hold request, after the requesting operation has
queued its action but before it returns, or later. -/
inductive Arrival
  | atOnce | afterQueued | later
  deriving DecidableEq, Repr

/-- The window of one hold request: when the confirmation arrives, and what its arrival does. -/
structure HoldWindow where
  arrival : Arrival
  confirm : CCallManager → CallId → CCallManager

/-- The confirmation comes after the operation. -/
def HoldWindow.sequential : HoldWindow := ⟨.later, fun m _ => m⟩

/-- Let the confirmation of a machine's hold arrive if it is due now. -/
def HoldWindow.pass (w : HoldWindow) (due : Arrival) (m : CCallManager) (r : MachineRef) :
    CCallManager :=
  if w.arrival = due then
    match (m.machines r).session with
    | none => m
    | some k => w.confirm m k
  else m

/-- Create a machine; its position on the heap is `m.created`. -/
def createStateMachine (m : CCallManager) : CCallManager :=
  { m with
    machines := Function.update m.machines m.created
      (CStateMachine.create m.around.factory m.around.now)
    created := m.created + 1 }

/-- Put a machine into the call table, or fail as the dictionary does. -/
def insertCall (m : CCallManager) (k : CallId) (r : MachineRef) :
    Except TableException CCallManager :=
  match m.calls.add? k r with
  | some d => .ok { m with calls := d }
  | none => .error .ArgumentException

/-- The end of `createOutboundCall`: enter the new machine under the session the stack chose, and
destroy an old machine found there first. -/
def enterOutboundCall (m : CCallManager) (r : MachineRef) : CCallManager :=
  match (m.machines r).session with
  | none => m
  | some newsession =>
      match m.insertCall newsession r with
      | .ok m' => m'
      | .error _ =>
          match m.calls.get? newsession with
          | none => m
          | some old =>
              let m := m.destroy old
              match m.insertCall newsession r with
              | .ok m' => m'
              | .error _ => m

/-- Create an outgoing call, or put the active call on hold and queue the creation. -/
def createOutboundCall (w : HoldWindow) (m : CCallManager) (number : String) (accountId : ℕ) :
    CCallManager :=
  if ¬ m.initialized then m
  else if 0 < m.getNoCallsInStates (EStateId.CONNECTING.code ||| EStateId.ALERTING.code) then m
  else if m.getNoCallsInState .ACTIVE = 0 then
    let r := m.created
    let m := m.createStateMachine
    let m := m.makeCall r number accountId
    m.enterOutboundCall r
  else
    let m := { m with pendingAction := some (.ECreateSession number accountId) }
    match m.getCallInState .ACTIVE with
    | none => m
    | some r =>
        let m := m.holdCall r
        let m := w.pass .atOnce m r
        w.pass .afterQueued m r

/-- Release a call. -/
def onUserRelease (m : CCallManager) (session : CallId) : CCallManager :=
  match m.calls.get? session with
  | none => m
  | some r => m.endCall r

/-- Answer a call, or put the active call on hold and queue the answer. -/
def onUserAnswer (w : HoldWindow) (m : CCallManager) (session : CallId) : CCallManager :=
  match m.enumCallsInState .ACTIVE with
  | sm :: _ =>
      let m := m.holdCall sm
      let m := w.pass .atOnce m sm
      let m := { m with pendingAction := some (.EUserAnswer session) }
      w.pass .afterQueued m sm
  | [] =>
      match m.calls.get? session with
      | none => m
      | some r => m.acceptCall r

/-- Hold an active call; retrieve a held one, or put the active call on hold and queue that. -/
def onUserHoldRetrieve (w : HoldWindow) (m : CCallManager) (session : CallId) : CCallManager :=
  match m.calls.get? session with
  | none => m
  | some r =>
      match (m.machines r).state with
      | .Active =>
          let m := m.holdCall r
          let m := w.pass .atOnce m r
          w.pass .afterQueued m r
      | .Holding =>
          match m.enumCallsInState .ACTIVE with
          | sm :: _ =>
              let m := m.holdCall sm
              let m := w.pass .atOnce m sm
              let m := { m with pendingAction := some (.EUserHold session) }
              w.pass .afterQueued m sm
          | [] => m.retrieveCall r
      | _ => m

/-- Join a held call to the active one. -/
def onUserConference (m : CCallManager) : CCallManager :=
  if m.getNoCallsInState .ACTIVE = 1 ∧ 1 ≤ m.getNoCallsInState .HOLDING then
    match m.getCallInState .HOLDING with
    | none => m
    | some call =>
        let m := m.retrieveCall call
        m.conferenceCall call
  else m

/-- Transfer or deflect a call. -/
def onUserTransfer (m : CCallManager) (session : CallId) (number : String) : CCallManager :=
  match m.calls.get? session with
  | none => m
  | some r => m.xferCall r number

/-- Send digits; no state overrides `dialDtmf`. -/
def onUserDialDigit (m : CCallManager) (session : CallId) (digits : String) : CCallManager :=
  match m.calls.get? session with
  | none => m
  | some r => m.request r (.dialDtmf digits)

/-- `PendingAction.Activate`. -/
def activate (w : HoldWindow) (m : CCallManager) : PendingAction → CCallManager
  | .EUserAnswer s => m.onUserAnswer w s
  | .ECreateSession number accountId => m.createOutboundCall w number accountId
  | .EUserHold s => m.onUserHoldRetrieve w s

/-- Run the queued action, then empty the slot, whatever the action put there. -/
def activatePendingAction (w : HoldWindow) (m : CCallManager) : CCallManager :=
  let m := match m.pendingAction with
    | none => m
    | some p => m.activate w p
  { m with pendingAction := none }

/-- The body of `onHoldConfirm`, which only the active state overrides, for a given window of the
hold requests it makes in turn. -/
def holdConfirmed (w : HoldWindow) (m : CCallManager) (r : MachineRef) : CCallManager :=
  match (m.machines r).state with
  | .Active =>
      let m := if (m.machines r).holdRequested then
          (m.changeState r .Holding).activatePendingAction w
        else m
      m.modify r fun c => { c with holdRequested := false }
  | _ => m

/-- `onHoldConfirm`, the arrivals answering the hold requests it makes. -/
def onHoldConfirm : List Arrival → CCallManager → MachineRef → CCallManager
  | [], m, r => m.holdConfirmed .sequential r
  | a :: rest, m, r =>
      m.holdConfirmed ⟨a, fun m k =>
        match m.calls.get? k with
        | none => m
        | some r => onHoldConfirm rest m r⟩ r

/-! ## Events from the stack -/

/-- A call notification; the only one there is confirms a hold. -/
def onCallNotification (arrivals : List Arrival) (m : CCallManager) (callId : CallId) :
    CCallManager :=
  match m.calls.get? callId with
  | none => m
  | some r => m.onHoldConfirm arrivals r

/-- The window that a list of arrivals leaves to the first hold request of an operation. -/
def windowOf : List Arrival → HoldWindow
  | [] => .sequential
  | a :: rest => ⟨a, onCallNotification rest⟩

/-- A session of the stack changed its state.  A new call whose id is still in the table makes the
old call end, and is itself given up. -/
def onCallStateChanged (m : CCallManager) (callId : CallId) (callState : ESessionState) :
    CCallManager :=
  match callState with
  | .SESSION_STATE_INCOMING =>
      let incall := m.created
      let m := m.createStateMachine
      let m := m.modify incall fun c => { c with session := some callId }
      match m.calls.get? callId with
      | some old => m.endCall old
      | none =>
          match m.insertCall callId incall with
          | .ok m' => m'
          | .error _ => m
  | _ =>
      match m.calls.get? callId with
      | none => m
      | some call =>
          match callState with
          | .SESSION_STATE_EARLY => m.onAlerting call
          | .SESSION_STATE_CONNECTING => m.onConnect call
          | .SESSION_STATE_DISCONNECTED => m.onReleased call
          | _ => m

/-- The stack delivers the caller of a new call. -/
def onIncomingCall (m : CCallManager) (sessionId : CallId) (number info : String) : CCallManager :=
  match m.calls.get? sessionId with
  | none => m
  | some call =>
      let m := m.incomingCall call number info
      if (m.machines call).disableStateNotifications then m
      else m.emit (.raise (.IncomingCallNotification sessionId number info))

/-- The stack gave a call another id.  An exception leaves the manager as it is at that point. -/
def onCallReplaced (m : CCallManager) (oldid newid : CallId) :
    CCallManager × Option TableException :=
  match m.calls.get? oldid with
  | none => (m, some .KeyNotFoundException)
  | some call =>
      let m := { m with calls := m.calls.remove oldid }
      let m := m.modify call fun c => { c with session := some newid }
      match m.insertCall newid call with
      | .ok m' => (m', none)
      | .error e => (m, some e)

/-! ## Starting and stopping -/

/-- `Initialize`, with the status the stack returns. -/
def Initialize (m : CCallManager) (status : ℕ) : CCallManager :=
  if m.initialized then m
  else
    let m := { m with calls := Dictionary.empty }
    if status = 0 then { m with initialized := true } else m

/-- `Shutdown`: destroy every machine in the table, then clear it. -/
def Shutdown (m : CCallManager) : CCallManager :=
  let m := (m.calls.entries.map Prod.snd).foldl destroy m
  { m with calls := Dictionary.empty, initialized := false }

/-! ## Events -/

/-- Everything that can happen to the manager: calls of its public methods, events of the stack,
expiries of timers, and changes of its surroundings. -/
inductive Event
  | createOutboundCall (number : String) (accountId : ℕ)
  | onUserRelease (session : CallId)
  | onUserAnswer (session : CallId)
  | onUserHoldRetrieve (session : CallId)
  | onUserConference (session : CallId)
  | onUserTransfer (session : CallId) (number : String)
  | onUserDialDigit (session : CallId) (digits : String)
  | callStateChanged (callId : CallId) (callState : ESessionState)
  | callIncoming (callId : CallId) (number info : String)
  | holdConfirm (callId : CallId)
  | callReplaced (oldid newid : CallId)
  | timerElapsed (machine : MachineRef) (timer : ETimerType)
  | Initialize (status : ℕ)
  | Shutdown
  | surroundings (around : Surroundings)
  deriving DecidableEq, Repr

/-- The effect of one event, the arrivals saying when holds it requests are confirmed. -/
def handle (arrivals : List Arrival) (m : CCallManager) : Event → CCallManager
  | .createOutboundCall number accountId =>
      m.createOutboundCall (windowOf arrivals) number accountId
  | .onUserRelease s => m.onUserRelease s
  | .onUserAnswer s => m.onUserAnswer (windowOf arrivals) s
  | .onUserHoldRetrieve s => m.onUserHoldRetrieve (windowOf arrivals) s
  | .onUserConference _ => m.onUserConference
  | .onUserTransfer s number => m.onUserTransfer s number
  | .onUserDialDigit s digits => m.onUserDialDigit s digits
  | .callStateChanged k st => m.onCallStateChanged k st
  | .callIncoming k number info => m.onIncomingCall k number info
  | .holdConfirm k => m.onCallNotification arrivals k
  | .callReplaced old new => (m.onCallReplaced old new).1
  | .timerElapsed r t => m.timerElapsed r t
  | .Initialize status => m.Initialize status
  | .Shutdown => m.Shutdown
  -- a machine's timers come from one factory, so the factory does not change
  | .surroundings a => { m with around := { a with factory := m.around.factory } }

/-- One event, in a world in which holds are confirmed as the arrivals say. -/
def stepWith (arrivals : List Arrival) (m : CCallManager) (e : Event) : CCallManager :=
  handle arrivals { m with out := [] } e

/-- One event, holds being confirmed by events of their own. -/
def step (m : CCallManager) (e : Event) : CCallManager := m.stepWith [] e

end CCallManager

end TAM
