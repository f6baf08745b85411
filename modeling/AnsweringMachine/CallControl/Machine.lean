import Mathlib.Data.Int.Basic
import Mathlib.Logic.Function.Basic
import AnsweringMachine.Library.Dictionary

/-!
# Call control: the data

The vocabulary of the call control engine (`SpiekSdk/Common`): state and session enumerations, the
configuration flags it reads, the requests it sends to the SIP stack, and the record of one call,
`CStateMachine`.

Three choices are made here once.

* A call id of the stack is a natural number; the engine's `-1` ("no session yet", "the call could
  not be made") is `none` of `Option CallId`.
* A machine's `_state` is one of eight state objects, so it is an `IAbstractState` with eight
  constructors.  `EStateId.NULL` belongs to the null machine only and is not among them.
* A timer is the flag "running".  The timer of `SipekResources` is enabled by its own constructor
  (`Enabled = true`) and its `Start` returns `true`; the null timer never runs and refuses to start.

Tones are left out: no handler reads them back.
-/

namespace TAM

/-- A call id handed out by the SIP stack. -/
abbrev CallId := ℕ

/-- The identity of a `CStateMachine` object: the position at which it was created. -/
abbrev MachineRef := ℕ

/-- Clock readings and their differences, in ticks. -/
abbrev DateTime := ℤ

/-- Differences of clock readings. -/
abbrev TimeSpan := ℤ

/-- Ticks of a second. -/
def ticksPerSecond : ℤ := 10000000

/-! ## Enumerations -/

/-- Call state ids; the source numbers them as a bit mask. -/
inductive EStateId
  | NULL | IDLE | CONNECTING | ALERTING | ACTIVE | RELEASED | INCOMING | HOLDING | TERMINATED
  deriving DecidableEq, Repr

/-- The bit a state id stands for. -/
def EStateId.code : EStateId → ℕ
  | NULL => 0x0
  | IDLE => 0x1
  | CONNECTING => 0x2
  | ALERTING => 0x4
  | ACTIVE => 0x8
  | RELEASED => 0x10
  | INCOMING => 0x20
  | HOLDING => 0x40
  | TERMINATED => 0x80

/-- Session states reported by the stack. -/
inductive ESessionState
  | SESSION_STATE_NULL | SESSION_STATE_CALLING | SESSION_STATE_INCOMING | SESSION_STATE_EARLY
  | SESSION_STATE_CONNECTING | SESSION_STATE_CONFIRMED | SESSION_STATE_DISCONNECTED
  deriving DecidableEq, Repr

/-- Service codes of a service request. -/
inductive EServiceCodes
  | SC_CD | SC_CFU | SC_CFNR | SC_DND | SC_3PTY | SC_CFB
  deriving DecidableEq, Repr

/-- Call modes of the call log. -/
inductive ECallType
  | EDialed | EReceived | EMissed | EAll | EUndefined
  deriving DecidableEq, Repr

/-- The three timers of a machine. -/
inductive ETimerType
  | ENOREPLY | ERELEASED | ENORESPONSE
  deriving DecidableEq, Repr

/-- The eight state objects of a machine (`CIdleState`, `CConnectingState`, ...). -/
inductive IAbstractState
  | Idle | Connecting | Alerting | Active | Released | Incoming | Holding | Terminated
  deriving DecidableEq, Repr

/-- The `Id` of a state object. -/
def IAbstractState.id : IAbstractState → EStateId
  | Idle => .IDLE
  | Connecting => .CONNECTING
  | Alerting => .ALERTING
  | Active => .ACTIVE
  | Released => .RELEASED
  | Incoming => .INCOMING
  | Holding => .HOLDING
  | Terminated => .TERMINATED

lemma IAbstractState.id_injective : Function.Injective IAbstractState.id := by
  intro a b h
  cases a <;> cases b <;> first | rfl | cases h

@[simp] lemma IAbstractState.id_inj {a b : IAbstractState} : a.id = b.id ↔ a = b :=
  IAbstractState.id_injective.eq_iff

/-! ## Configuration, requests and notifications -/

/-- The part of `IConfiguratorInterface` that call control reads. -/
structure IConfigurator where
  CFUFlag : Bool := false
  CFUNumber : String := ""
  CFNRFlag : Bool := false
  CFNRNumber : String := ""
  DNDFlag : Bool := false
  AAFlag : Bool := false
  deriving DecidableEq, Repr

/-- Which factory creates the timers: the one of the answering machine, or the null factory that
the unit tests mirror. -/
inductive AbstractFactory
  | SipekResources | NullFactory
  deriving DecidableEq, Repr

/-- Does `Start` of a created timer succeed?  The same factories that start timers also create
them running. -/
def AbstractFactory.timersRun : AbstractFactory → Bool
  | SipekResources => true
  | NullFactory => false

/-- What a machine asks of the stack through its call proxy. -/
inductive Request
  | makeCall (dialedNo : String) (accountId : ℕ)
  | endCall
  | alerted
  | acceptCall
  | holdCall
  | retrieveCall
  | conferenceCall
  | xferCall (number : String)
  | dialDtmf (digits : String)
  | serviceRequest (code : EServiceCodes) (dest : String)
  deriving DecidableEq, Repr

/-- The events the manager raises.  A subscriber of `CallStateRefresh` gets the session id and
reads the state back from the manager while the event is raised, so the state id travels along. -/
inductive Notification
  | CallStateRefresh (sessionId : CallId) (stateId : EStateId)
  | IncomingCallNotification (sessionId : CallId) (number info : String)
  deriving DecidableEq, Repr

/-- Everything an operation does to the outside, in the order in which it happens. -/
inductive Output
  | request (session : Option CallId) (what : Request)
  | raise (what : Notification)
  | addCall (type : ECallType) (number name : String) (time : DateTime) (duration : TimeSpan)
  deriving DecidableEq, Repr

/-- The notifications among some outputs. -/
def notifications (out : List Output) : List Notification :=
  out.filterMap fun
    | .raise n => some n
    | _ => none

@[simp] lemma notifications_nil : notifications [] = [] := rfl

@[simp] lemma notifications_append (l l' : List Output) :
    notifications (l ++ l') = notifications l ++ notifications l' := List.filterMap_append

@[simp] lemma notifications_request (s : Option CallId) (q : Request) :
    notifications [.request s q] = [] := rfl

@[simp] lemma notifications_raise (n : Notification) : notifications [.raise n] = [n] := rfl

@[simp] lemma notifications_addCall (t : ECallType) (n i : String) (d : DateTime) (l : TimeSpan) :
    notifications [.addCall t n i d l] = [] := rfl

/-! ## One call -/

/-- The record of one call.  `_callType` is not assigned by the constructor, so it starts as the
first constant of its enumeration, `EDialed`. -/
structure CStateMachine where
  state : IAbstractState := .Idle
  session : Option CallId := none
  callingNumber : String := ""
  callingName : String := ""
  type : ECallType := .EDialed
  time : DateTime := 0
  duration : TimeSpan := 0
  incoming : Bool := false
  counting : Bool := false
  holdRequested : Bool := false
  retrieveRequested : Bool := false
  disableStateNotifications : Bool := false
  noreplyTimer : Bool := false
  releasedTimer : Bool := false
  noresponseTimer : Bool := false
  deriving DecidableEq, Repr

namespace CStateMachine

/-- The constructor: idle, without a session, its three timers as the factory creates them. -/
def create (f : AbstractFactory) (now : DateTime) : CStateMachine :=
  { time := now
    noreplyTimer := f.timersRun
    releasedTimer := f.timersRun
    noresponseTimer := f.timersRun }

/-- Is the timer running? -/
def running (c : CStateMachine) : ETimerType → Bool
  | .ENOREPLY => c.noreplyTimer
  | .ERELEASED => c.releasedTimer
  | .ENORESPONSE => c.noresponseTimer

/-- Start a timer; a timer of the null factory stays as it is. -/
def startTimer (f : AbstractFactory) (c : CStateMachine) : ETimerType → CStateMachine
  | .ENOREPLY => { c with noreplyTimer := c.noreplyTimer || f.timersRun }
  | .ERELEASED => { c with releasedTimer := c.releasedTimer || f.timersRun }
  | .ENORESPONSE => { c with noresponseTimer := c.noresponseTimer || f.timersRun }

/-- Stop a timer. -/
def stopTimer (c : CStateMachine) : ETimerType → CStateMachine
  | .ENOREPLY => { c with noreplyTimer := false }
  | .ERELEASED => { c with releasedTimer := false }
  | .ENORESPONSE => { c with noresponseTimer := false }

/-- Stop all three timers. -/
def stopAllTimers (c : CStateMachine) : CStateMachine :=
  { c with noreplyTimer := false, releasedTimer := false, noresponseTimer := false }

/-- `onExit` of the state the machine is in: the ringing and the two ending states stop the
timers, the others do nothing. -/
def onExit (c : CStateMachine) : CStateMachine :=
  match c.state with
  | .Released | .Terminated | .Incoming => c.stopAllTimers
  | _ => c

/-- The assignments `onEntry` of a state makes before it does anything to the outside. -/
def onEntry (c : CStateMachine) : IAbstractState → CStateMachine
  | .Connecting => { c with type := .EDialed }
  | .Active => { c with counting := true }
  | _ => c

end CStateMachine

end TAM
