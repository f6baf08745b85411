import AnsweringMachine.CallControl.Handlers
import AnsweringMachine.CallControl.WellFormed

/-!
# The moves of a call

Seen from one machine, whatever the manager does is one of a few moves: the call is announced,
delivered, answered, held, ended, destroyed.  This module says what each move makes of the record of
the call (`Move.after`), which record it may be made on (`Move.Enabled`) and what it writes to the
call log (`Move.entries`).

**The code makes moves.**  `Makes m m' r v` says that the manager goes from `m` to `m'` by the move
`v` of the machine `r`; nothing else happens to any record, to the table or to the log.  A `Course`
is a list of them.

**Each handler has its moves.**  `signalMoves` and its companions name the moves of a handler from
the state of the machine, and a lemma per handler says that these are the moves it makes.
-/

namespace TAM

/-! ## What is written to the log -/

/-- The arguments of one `addCall` of the call log. -/
structure LogEntry where
  type : ECallType
  number : String
  name : String
  time : DateTime
  duration : TimeSpan
  deriving DecidableEq, Repr

/-- The calls written to the log among some outputs. -/
def addedCalls (out : List Output) : List LogEntry :=
  out.filterMap fun
    | .addCall type number name time duration => some ⟨type, number, name, time, duration⟩
    | _ => none

@[simp] lemma addedCalls_nil : addedCalls [] = [] := rfl

@[simp] lemma addedCalls_append (l l' : List Output) :
    addedCalls (l ++ l') = addedCalls l ++ addedCalls l' := List.filterMap_append

@[simp] lemma addedCalls_request (s : Option CallId) (q : Request) :
    addedCalls [.request s q] = [] := rfl

@[simp] lemma addedCalls_raise (n : Notification) : addedCalls [.raise n] = [] := rfl

@[simp] lemma addedCalls_addCall (t : ECallType) (n i : String) (d : DateTime) (l : TimeSpan) :
    addedCalls [.addCall t n i d l] = [⟨t, n, i, d, l⟩] := rfl

/-! ## The record of a call -/

namespace CStateMachine

/-- `changeState` to a state whose entry makes assignments only. -/
def enter (c : CStateMachine) (st : IAbstractState) : CStateMachine :=
  { c.onExit with state := st }.onEntry st

@[simp] lemma enter_state (c : CStateMachine) (st : IAbstractState) : (c.enter st).state = st := by
  cases st <;> rfl

@[simp] lemma enter_session (c : CStateMachine) (st : IAbstractState) :
    (c.enter st).session = c.session := by
  cases st <;> simp [enter, onEntry]

/-- Leaving a state touches nothing but timers. -/
lemma onExit_fields (c : CStateMachine) : c.onExit.type = c.type ∧
    c.onExit.callingNumber = c.callingNumber ∧ c.onExit.callingName = c.callingName ∧
    c.onExit.time = c.time ∧ c.onExit.duration = c.duration ∧ c.onExit.counting = c.counting := by
  unfold onExit
  split <;> exact ⟨rfl, rfl, rfl, rfl, rfl, rfl⟩

lemma enter_type {st : IAbstractState} (hst : st ≠ .Connecting) (c : CStateMachine) :
    (c.enter st).type = c.type := by
  cases st <;> first | exact c.onExit_fields.1 | exact absurd rfl hst

@[simp] lemma enter_callingNumber (c : CStateMachine) (st : IAbstractState) :
    (c.enter st).callingNumber = c.callingNumber := by
  cases st <;> exact c.onExit_fields.2.1

@[simp] lemma enter_callingName (c : CStateMachine) (st : IAbstractState) :
    (c.enter st).callingName = c.callingName := by
  cases st <;> exact c.onExit_fields.2.2.1

lemma onExit_running {c : CStateMachine} {t : ETimerType} (h : c.running t = false) :
    c.onExit.running t = false := by
  unfold onExit
  split
  · cases t <;> rfl
  · cases t <;> rfl
  · cases t <;> rfl
  · exact h

lemma enter_running (c : CStateMachine) (st : IAbstractState) (t : ETimerType) :
    (c.enter st).running t = c.onExit.running t := by
  cases st <;> cases t <;> rfl

/-- The record as `destroy` writes it to the log: timers stopped, duration computed. -/
def timed (now : DateTime) (c : CStateMachine) : CStateMachine :=
  let c := c.stopAllTimers
  if c.counting then { c with duration := now - c.time } else c

/-- `destroy`. -/
def destroyed (now : DateTime) (c : CStateMachine) : CStateMachine :=
  { c.timed now with callingNumber := "", incoming := false }.enter .Idle

/-- What `destroy` writes to the log. -/
def logEntries (now : DateTime) (c : CStateMachine) : List LogEntry :=
  let c := c.timed now
  if CCallManager.logged c then
    [⟨c.type, c.callingNumber, c.callingName, c.time, c.duration⟩]
  else []

/-- The log entry, from the record as it is: stopping the timers does not touch it. -/
lemma logEntries_eq (now : DateTime) (c : CStateMachine) : c.logEntries now =
    if CCallManager.logged c then [⟨c.type, c.callingNumber, c.callingName, c.time,
      if c.counting then now - c.time else c.duration⟩] else [] := by
  by_cases h : c.counting = true <;>
    simp [logEntries, timed, stopAllTimers, CCallManager.logged, h]

/-- In an ending state, its release timer started, or not. -/
def ending (x : Surroundings) (st : IAbstractState) (c : CStateMachine) : CStateMachine :=
  { c.onExit with state := st }.startTimer x.factory .ERELEASED

/-- Ringing. -/
def rung (x : Surroundings) (c : CStateMachine) : CStateMachine :=
  let c := { c.onExit with state := .Incoming, incoming := true }
  let c := { c.startTimer x.factory .ENORESPONSE with type := .EMissed }
  if x.config.CFNRFlag then c.startTimer x.factory .ENOREPLY else c

/-- `endCall` of the active state notes the duration of the call before it ends. -/
def hungUp (now : DateTime) (c : CStateMachine) : CStateMachine :=
  if c.state = .Active then { c with duration := now - c.time } else c

end CStateMachine

/-- The moves of a call. -/
inductive Move
  /-- a machine is created for a call the stack announces, and put into the call table unless the id
  of the call is taken -/
  | announced (k : CallId)
  /-- a machine is created for an outgoing call -/
  | dialled (number : String)
  /-- the machine of an outgoing call is put into the call table -/
  | entered (k : CallId)
  /-- the stack gave the call another id -/
  | renamed (k : CallId)
  /-- the caller is known and the phone rings -/
  | delivered (number name : String)
  /-- a service turned the call away -/
  | turnedAway
  | accepted | alerted | connected | holdRequested | held | settled | retrieved
  | terminated | released | destroyed
  /-- a timer fired that the state of the call does not react to -/
  | expired (t : ETimerType)
  deriving DecidableEq, Repr

/-- The states between the beginning of a call and its end. -/
def InCall (st : IAbstractState) : Prop :=
  st = .Connecting ∨ st = .Alerting ∨ st = .Active ∨ st = .Incoming ∨ st = .Holding

/-- The code has got hold of the machine: it is in the table, or one of its timers fired in a state
that reacts. -/
def CCallManager.InHand (m : CCallManager) (r : MachineRef) : Prop :=
  (∃ k, m.calls.get? k = some r) ∨
    ((m.machines r).state ≠ .Idle ∧ (m.machines r).state ≠ .Connecting)

namespace Move

/-- In an ending state, or destroyed at once where the release timer does not start. -/
def endedIn (x : Surroundings) (st : IAbstractState) (c : CStateMachine) : CStateMachine :=
  if x.factory.timersRun then c.ending x st else (c.ending x st).destroyed x.now

/-- The record after a move. -/
def after (x : Surroundings) : Move → CStateMachine → CStateMachine
  | announced k, _ => { CStateMachine.create x.factory x.now with session := some k }
  | dialled number, _ =>
      { { CStateMachine.create x.factory x.now with callingNumber := number }.enter .Connecting with
        session := x.makeCallAnswer }
  | entered _, c => c
  | renamed k, c => { c with session := some k }
  | delivered number name, c => { c with callingNumber := number, callingName := name }.rung x
  | turnedAway, c => { c with disableStateNotifications := true }.destroyed x.now
  | accepted, c => { c with type := .EReceived, time := x.now }.enter .Active
  | alerted, c => c.enter .Alerting
  -- only the alerting state notes when the call was connected
  | connected, c => (if c.state = .Alerting then { c with time := x.now } else c).enter .Active
  | holdRequested, c => { c with holdRequested := true }
  | held, c => c.enter .Holding
  | settled, c => { c with holdRequested := false }
  | retrieved, c => { c with retrieveRequested := true }.enter .Active
  | terminated, c => endedIn x .Terminated (c.hungUp x.now)
  | released, c => endedIn x .Released c
  | destroyed, c => c.destroyed x.now
  | expired t, c => c.stopTimer t

/-- Does the move destroy the machine? -/
def destroys (f : AbstractFactory) : Move → Bool
  | destroyed | turnedAway => true
  | terminated | released => !f.timersRun
  | _ => false

/-- What the move writes to the log. -/
def entries (x : Surroundings) : Move → CStateMachine → List LogEntry
  | destroyed, c | turnedAway, c => c.logEntries x.now
  | terminated, c =>
      if x.factory.timersRun then [] else ((c.hungUp x.now).ending x .Terminated).logEntries x.now
  | released, c => if x.factory.timersRun then [] else (c.ending x .Released).logEntries x.now
  | _, _ => []

/-- Does the move create the machine? -/
def creates : Move → Bool
  | announced _ | dialled _ => true
  | _ => false

/-- Is the move one of a call that is there already, and neither of its table nor of its id? -/
def onCall : Move → Bool
  | announced _ | dialled _ | entered _ | renamed _ => false
  | _ => true

/-- The records a move may be made on. -/
def Enabled (c : CStateMachine) : Move → Prop
  | delivered _ _ | turnedAway => c.state = .Idle
  | accepted => c.state = .Incoming
  | alerted => c.state = .Connecting
  | connected => c.state = .Connecting ∨ c.state = .Alerting
  | holdRequested | held => c.state = .Active
  | retrieved => c.state = .Holding
  | terminated | released => InCall c.state
  | entered k => c.session = some k ∧ c.state = .Connecting
  | expired .ENOREPLY => c.noreplyTimer
  | expired .ERELEASED => c.releasedTimer ∧ c.state ≠ .Released ∧ c.state ≠ .Terminated
  | expired .ENORESPONSE => c.noresponseTimer ∧ c.state ≠ .Incoming
  | announced _ | dialled _ | renamed _ | settled | destroyed => True

/-- How the code comes to make the move. -/
def Reached (m : CCallManager) (r : MachineRef) : Move → Prop
  | announced _ | dialled _ => r = m.created
  | entered k => m.calls.get? k = none ∧ r < m.created
  | renamed _ => ∃ k, m.calls.get? k = some r
  | settled | expired _ => True
  | _ => m.InHand r

/-- A table without a session. -/
def dropped (d : CallId → Option MachineRef) : Option CallId → CallId → Option MachineRef
  | none => d
  | some k => Function.update d k none

/-- The table after the move of a machine. -/
def table (f : AbstractFactory) (r : MachineRef) (c : CStateMachine)
    (d : CallId → Option MachineRef) : Move → CallId → Option MachineRef
  | announced k => if d k = none then Function.update d k (some r) else d
  | entered k => Function.update d k (some r)
  | v => if v.destroys f then dropped d c.session else d

end Move

/-! ## The moves of the handlers -/

/-- The moves of a machine in answer to a signal. -/
def signalMoves : Signal → IAbstractState → List Move
  | .endCall, .Idle | .endCall, .Released => [.destroyed]
  | .endCall, .Terminated => []
  | .endCall, _ => [.terminated]
  | .acceptCall, .Incoming => [.accepted]
  | .retrieveCall, .Holding => [.retrieved]
  | .onAlerting, .Connecting => [.alerted]
  | .onConnect, .Connecting | .onConnect, .Alerting => [.connected]
  | .onReleased, .Idle => []
  | .onReleased, .Released | .onReleased, .Terminated => [.destroyed]
  | .onReleased, _ => [.released]
  | .releasedTimerExpired, .Released | .releasedTimerExpired, .Terminated => [.destroyed]
  | .noResponseTimerExpired, .Incoming => [.terminated]
  | _, _ => []

/-- The moves of a machine whose caller is delivered. -/
def incomingMoves (cfg : IConfigurator) (count : ℕ) (number name : String) :
    IAbstractState → List Move
  | .Idle =>
      if (cfg.CFUFlag ∧ 0 < cfg.CFUNumber.length) ∨ cfg.DNDFlag then [.turnedAway]
      else if cfg.AAFlag ∧ count = 1 then [.delivered number name, .accepted]
      else [.delivered number name]
  | _ => []

/-- The moves of a machine whose timer fires. -/
def timerMoves (c : CStateMachine) (t : ETimerType) : List Move :=
  if c.running t then
    match t, c.state with
    | .ERELEASED, .Released | .ERELEASED, .Terminated => [.destroyed]
    | .ENORESPONSE, .Incoming => [.terminated]
    | t, _ => [.expired t]
  else []

namespace CCallManager

variable {m m' m₁ m₂ : CCallManager} {r : MachineRef} {v : Move} {l l' : List (MachineRef × Move)}

/-! ## Making moves -/

/-- The manager goes from `m` to `m'` by a move of the machine `r`. -/
structure Makes (m m' : CCallManager) (r : MachineRef) (v : Move) : Prop where
  machines : m'.machines = Function.update m.machines r (v.after m.around (m.machines r))
  added : addedCalls m'.out = addedCalls m.out ++ v.entries m.around (m.machines r)
  around : m'.around = m.around
  initialized : m'.initialized = m.initialized
  created : m'.created = if v.creates then m.created + 1 else m.created
  calls : (∀ k, v ≠ .renamed k) →
    m'.calls.get? = v.table m.around.factory r (m.machines r) m.calls.get?
  /-- a renamed machine is in the table under its new id or not at all; nobody else gets there -/
  renamed : ∀ k, v = .renamed k → ∀ j s, m'.calls.get? j = some s →
    (s = r ∧ j = k) ∨ (s ≠ r ∧ m.calls.get? j = some s)
  enabled : v.Enabled (m.machines r)
  reached : v.Reached m r

/-- The two managers differ in what no move looks at. -/
structure Alike (m m' : CCallManager) : Prop where
  machines : m'.machines = m.machines
  added : addedCalls m'.out = addedCalls m.out
  around : m'.around = m.around
  initialized : m'.initialized = m.initialized
  created : m'.created = m.created
  calls : m'.calls.get? = m.calls.get?

/-- One move after the other. -/
inductive Course : CCallManager → List (MachineRef × Move) → CCallManager → Prop
  | done {m m' : CCallManager} (h : Alike m m') : Course m [] m'
  | make {m m₁ m' : CCallManager} {r : MachineRef} {v : Move} {l : List (MachineRef × Move)}
      (h : Makes m m₁ r v) (h' : Course m₁ l m') : Course m ((r, v) :: l) m'

namespace Alike

lemma refl (m : CCallManager) : Alike m m := ⟨rfl, rfl, rfl, rfl, rfl, rfl⟩

lemma trans (h : Alike m m₁) (h' : Alike m₁ m') : Alike m m' :=
  ⟨h'.machines.trans h.machines, h'.added.trans h.added, h'.around.trans h.around,
    h'.initialized.trans h.initialized, h'.created.trans h.created, h'.calls.trans h.calls⟩

/-- What is alike makes the same moves. -/
lemma makes (h : Alike m m₁) (h' : Makes m₁ m' r v) : Makes m m' r v where
  machines := by rw [h'.machines, h.machines, h.around]
  added := by rw [h'.added, h.added, h.machines, h.around]
  around := h'.around.trans h.around
  initialized := h'.initialized.trans h.initialized
  created := by rw [h'.created, h.created]
  calls hv := by rw [h'.calls hv, h.machines, h.around, h.calls]
  renamed k hv j s hj := by rw [← h.calls]; exact h'.renamed k hv j s hj
  enabled := by rw [← h.machines]; exact h'.enabled
  reached := by
    have hr := h'.reached
    cases v <;> simp only [Move.Reached, InHand, h.calls, h.machines, h.created] at hr ⊢ <;>
      exact hr

lemma emit {x : Output} (h : Alike m m') (hx : addedCalls [x] = []) : Alike m (m'.emit x) :=
  h.trans ⟨rfl, by simp [hx], rfl, rfl, rfl, rfl⟩

lemma request (h : Alike m m') (r : MachineRef) (q : Request) : Alike m (m'.request r q) :=
  h.emit rfl

lemma pend (h : Alike m m') (p : Option PendingAction) : Alike m { m' with pendingAction := p } :=
  h.trans ⟨rfl, rfl, rfl, rfl, rfl, rfl⟩

end Alike

lemma Makes.alike (h : Makes m m₁ r v) (h' : Alike m₁ m') : Makes m m' r v where
  machines := h'.machines.trans h.machines
  added := h'.added.trans h.added
  around := h'.around.trans h.around
  initialized := h'.initialized.trans h.initialized
  created := h'.created.trans h.created
  calls hv := h'.calls.trans (h.calls hv)
  renamed k hv j s hj := h.renamed k hv j s (by rw [← h'.calls]; exact hj)
  enabled := h.enabled
  reached := h.reached

namespace Course

lemma refl (m : CCallManager) : Course m [] m := .done (Alike.refl m)

lemma one (h : Makes m m' r v) : Course m [(r, v)] m' := .make h (refl m')

lemma after (h : Alike m m₁) (h' : Course m₁ l m') : Course m l m' := by
  cases h' with
  | done h' => exact .done (h.trans h')
  | make h₁ h' => exact .make (h.makes h₁) h'

lemma before (h : Course m l m₁) (h' : Alike m₁ m') : Course m l m' := by
  induction h with
  | done h => exact .done (h.trans h')
  | make h₁ _ ih => exact .make h₁ (ih h')

/-- One course after the other. -/
lemma trans (h : Course m l m₁) (h' : Course m₁ l' m') : Course m (l ++ l') m' := by
  induction h with
  | done h => exact h'.after h
  | make h₁ _ ih => exact .make h₁ (ih h')

end Course

/-! ## What the code does to the records and to the log -/

@[simp] lemma informManager_machines (m : CCallManager) (r : MachineRef) :
    (m.informManager r).machines = m.machines := by
  simp only [informManager]
  split
  · rfl
  · split_ifs <;> rfl

@[simp] lemma informManager_added (m : CCallManager) (r : MachineRef) :
    addedCalls (m.informManager r).out = addedCalls m.out := by
  simp only [informManager]
  split
  · rfl
  · split_ifs <;> simp [updateGui]

@[simp] lemma changeStatePlain_self (m : CCallManager) (r : MachineRef) (st : IAbstractState) :
    (m.changeStatePlain r st).machines r = (m.machines r).enter st := by
  simp [changeStatePlain, transition, CStateMachine.enter]

@[simp] lemma changeStatePlain_added (m : CCallManager) (r : MachineRef) (st : IAbstractState) :
    addedCalls (m.changeStatePlain r st).out = addedCalls m.out := by
  simp [changeStatePlain, transition]

@[simp] lemma changeStatePlain_around (m : CCallManager) (r : MachineRef) (st : IAbstractState) :
    (m.changeStatePlain r st).around = m.around := (changeStatePlain_effect m r st).around

@[simp] lemma destroySession_added (m : CCallManager) (k : Option CallId) :
    addedCalls (m.destroySession k).out = addedCalls m.out := by
  unfold destroySession
  split
  · rfl
  · dsimp only
    split_ifs <;> simp [updateGui]

/-- The log entry sees the record with its timers stopped and its duration computed. -/
lemma closing_added (m : CCallManager) (r : MachineRef) :
    addedCalls (m.closing r).out = addedCalls m.out ++ (m.machines r).logEntries m.around.now := by
  simp only [closing, calculateTiming, updateCallLog, modify_self, modify_around, modify_out,
    CStateMachine.logEntries, CStateMachine.timed]
  split_ifs <;> simp

@[simp] lemma updateCallLog_machines (m : CCallManager) (r : MachineRef) :
    (m.updateCallLog r).machines = m.machines := by
  simp only [updateCallLog]
  split_ifs <;> rfl

lemma closing_self (m : CCallManager) (r : MachineRef) :
    (m.closing r).machines r =
      { (m.machines r).timed m.around.now with callingNumber := "", incoming := false } := by
  simp [closing, calculateTiming, CStateMachine.timed]

/-- **`destroy`, on the record.** -/
lemma destroy_self (m : CCallManager) (r : MachineRef) :
    (m.destroy r).machines r = (m.machines r).destroyed m.around.now := by
  simp [destroy, closing_self, CStateMachine.destroyed]

lemma destroy_added (m : CCallManager) (r : MachineRef) :
    addedCalls (m.destroy r).out = addedCalls m.out ++ (m.machines r).logEntries m.around.now := by
  simp [destroy, closing_added]

/-- The two ending states, on the record. -/
lemma changeStateEnding_self (m : CCallManager) (r : MachineRef) (st : IAbstractState) :
    (m.changeStateEnding r st).machines r = Move.endedIn m.around st (m.machines r) := by
  by_cases h : m.around.factory.timersRun = true
  · simp [changeStateEnding, transition, Move.endedIn, CStateMachine.ending, startTimer, h]
  · simp [changeStateEnding, transition, Move.endedIn, CStateMachine.ending, startTimer, h,
      destroy_self]

lemma changeStateEnding_added (m : CCallManager) (r : MachineRef) (st : IAbstractState) :
    addedCalls (m.changeStateEnding r st).out = addedCalls m.out ++
      if m.around.factory.timersRun then []
      else ((m.machines r).ending m.around st).logEntries m.around.now := by
  by_cases h : m.around.factory.timersRun = true
  · simp [changeStateEnding, transition, startTimer, h]
  · simp [changeStateEnding, transition, CStateMachine.ending, startTimer, h, destroy_added]

/-! ## The moves the handlers make -/

lemma table_of_onCall (hv : v.onCall) (f : AbstractFactory) (c : CStateMachine)
    (d : CallId → Option MachineRef) :
    v.table f r c d = if v.destroys f then Move.dropped d c.session else d := by
  cases v <;> first | rfl | simp [Move.onCall] at hv

lemma outcome_table {f : AbstractFactory} {c : CStateMachine} {o : Outcome}
    (hv : v.onCall) (hgone : v.destroys f = decide (o = .gone)) (d : Dictionary CallId MachineRef) :
    (o.table c.session d).get? = v.table f r c d.get? := by
  rw [table_of_onCall hv, hgone]
  cases o with
  | stay => simp
  | goto st => simp
  | gone =>
      cases c.session with
      | none => rfl
      | some k =>
          funext j
          simp [Move.dropped, Function.update_apply]

/-- A move that is an effect on its machine. -/
lemma Effect.makes {o : Outcome} (h : Effect m m' r o) (hv : v.onCall)
    (hgone : v.destroys m.around.factory = decide (o = .gone))
    (hself : m'.machines r = v.after m.around (m.machines r))
    (hadded : addedCalls m'.out = addedCalls m.out ++ v.entries m.around (m.machines r))
    (hen : v.Enabled (m.machines r)) (hr : v.Reached m r) : Makes m m' r v where
  machines := by
    funext s
    by_cases hs : s = r
    · rw [hs, hself, Function.update_self]
    · rw [h.others s hs, Function.update_of_ne hs]
  added := hadded
  around := h.around
  initialized := h.initialized
  created := by
    rw [h.created]
    cases v <;> first | rfl | simp [Move.onCall] at hv
  calls _ := by rw [h.calls, outcome_table hv hgone]
  renamed k hk := by
    subst hk
    simp [Move.onCall] at hv
  enabled := hen
  reached := hr

lemma modify_congr {f g : CStateMachine → CStateMachine}
    (h : f (m.machines r) = g (m.machines r)) : m.modify r f = m.modify r g := by
  simp [modify, h]

lemma modify_eq_self {f : CStateMachine → CStateMachine} (h : f (m.machines r) = m.machines r) :
    m.modify r f = m := by
  simp [modify, h]

lemma destroy_makes (hr : m.InHand r) : Makes m (m.destroy r) r .destroyed :=
  (destroy_effect m r).makes rfl rfl (destroy_self m r) (destroy_added m r) trivial hr

lemma ending_eq_gone (f : AbstractFactory) (st : IAbstractState) :
    (!f.timersRun) = decide (ending f st = .gone) := by
  unfold ending
  split_ifs with h <;> simp [h]

lemma released_makes (hst : InCall (m.machines r).state) (hr : m.InHand r) :
    Makes m (m.changeStateEnding r .Released) r .released := by
  refine (changeStateEnding_effect m r .Released).makes rfl (ending_eq_gone _ _)
    (changeStateEnding_self m r _) ?_ hst hr
  rw [changeStateEnding_added]
  rfl

/-- The duration `endCall` notes in the active state, then the ending state. -/
lemma terminated_makes (hst : InCall (m.machines r).state) (hr : m.InHand r) :
    Makes m ((m.modify r (CStateMachine.hungUp m.around.now)).changeStateEnding r .Terminated) r
      .terminated := by
  have hnote : Effect m (m.modify r (CStateMachine.hungUp m.around.now)) r .stay := by
    refine modify_effect m r ?_ ?_ ?_ ?_ <;>
      · intro c
        simp only [CStateMachine.hungUp]
        split_ifs <;> rfl
  refine ((changeStateEnding_effect _ r .Terminated).after hnote).makes rfl (ending_eq_gone _ _)
    ?_ ?_ hst hr
  · rw [changeStateEnding_self, modify_self]
    rfl
  · rw [changeStateEnding_added, modify_self]
    rfl

/-- Outside the active state there is no duration to note. -/
lemma terminated_makes_of_ne (hst : InCall (m.machines r).state)
    (hne : (m.machines r).state ≠ .Active) (hr : m.InHand r) :
    Makes m (m.changeStateEnding r .Terminated) r .terminated := by
  have h := terminated_makes hst hr
  rwa [modify_eq_self (by simp [CStateMachine.hungUp, hne])] at h

/-- A move into a state whose entry makes assignments only, some assignments before it. -/
lemma plain_makes {st : IAbstractState} (h : Effect m m₁ r .stay)
    (hv : v.onCall) (hkeeps : v.destroys m.around.factory = false)
    (hself : (m₁.machines r).enter st = v.after m.around (m.machines r))
    (hadded : addedCalls m₁.out = addedCalls m.out) (hnone : ∀ x c, v.entries x c = [])
    (hen : v.Enabled (m.machines r)) (hr : v.Reached m r) :
    Makes m (m₁.changeStatePlain r st) r v := by
  refine ((changeStatePlain_effect m₁ r st).after h).makes hv (by simp [hkeeps]) ?_ ?_ hen hr
  · rw [changeStatePlain_self, hself]
  · rw [changeStatePlain_added, hadded, hnone, List.append_nil]

/-- The moves of a handler, as moves of its machine. -/
abbrev own (r : MachineRef) (l : List Move) : List (MachineRef × Move) := l.map (Prod.mk r)

lemma inHand_of_state (hi : (m.machines r).state ≠ .Idle)
    (hc : (m.machines r).state ≠ .Connecting) :
    m.InHand r := .inr ⟨hi, hc⟩

lemma endCall_course (hr : m.InHand r) :
    Course m (own r (signalMoves .endCall (m.machines r).state)) (m.endCall r) := by
  have hasked := (Alike.refl m).request r .endCall
  simp only [endCall]
  cases hs : (m.machines r).state with
  | Idle => exact .one ((destroy_makes hr).alike ((Alike.refl _).request r .endCall))
  | Released => exact (Course.one (destroy_makes (m := m.request r .endCall) hr)).after hasked
  | Terminated => exact .done hasked
  | Active =>
      have hnote : (m.modify r fun c => { c with duration := m.around.now - c.time }) =
          m.modify r (CStateMachine.hungUp m.around.now) :=
        modify_congr (by simp [CStateMachine.hungUp, hs])
      rw [hnote]
      exact .one ((terminated_makes (by simp [InCall, hs]) hr).alike
        ((Alike.refl _).request r .endCall))
  | Holding =>
      have h := terminated_makes_of_ne (m := m.request r .endCall) (r := r)
        (by simp [InCall, request, hs]) (by simp [request, hs]) hr
      exact (Course.one h).after hasked
  | Connecting | Alerting | Incoming =>
      exact .one ((terminated_makes_of_ne (by simp [InCall, hs]) (by simp [hs]) hr).alike
        ((Alike.refl _).request r .endCall))

lemma acceptCall_course (m : CCallManager) (r : MachineRef) :
    Course m (own r (signalMoves .acceptCall (m.machines r).state)) (m.acceptCall r) := by
  simp only [acceptCall]
  cases hs : (m.machines r).state with
  | Incoming =>
      have h : Effect m
        ((m.modify r fun c => { c with type := .EReceived, time := m.around.now }).request
          r .acceptCall) r .stay :=
        (request_effect _ r _).after
          (modify_effect m r (fun _ => rfl) (fun _ => rfl) (fun _ => rfl) (fun _ => rfl))
      refine .one (plain_makes h rfl rfl ?_ ?_ (fun _ _ => rfl) hs
        (inHand_of_state (by simp [hs]) (by simp [hs])))
      · simp [request, Move.after]
      · simp [request]
  | _ => exact .refl m

lemma retrieveCall_course (m : CCallManager) (r : MachineRef) :
    Course m (own r (signalMoves .retrieveCall (m.machines r).state)) (m.retrieveCall r) := by
  simp only [retrieveCall]
  cases hs : (m.machines r).state with
  | Holding =>
      have h : Effect m ((m.modify r fun c => { c with retrieveRequested := true }).request
          r .retrieveCall) r .stay :=
        (request_effect _ r _).after
          (modify_effect m r (fun _ => rfl) (fun _ => rfl) (fun _ => rfl) (fun _ => rfl))
      refine .one (plain_makes h rfl rfl ?_ ?_ (fun _ _ => rfl) hs
        (inHand_of_state (by simp [hs]) (by simp [hs])))
      · simp [request, Move.after]
      · simp [request]
  | _ => exact .refl m

lemma onAlerting_course (hr : m.InHand r) :
    Course m (own r (signalMoves .onAlerting (m.machines r).state)) (m.onAlerting r) := by
  simp only [onAlerting]
  cases hs : (m.machines r).state with
  | Connecting =>
      exact .one (plain_makes (Effect.refl m r) rfl rfl rfl rfl (fun _ _ => rfl) hs hr)
  | Terminated => exact .done ((Alike.refl m).request r .endCall)
  | _ => exact .refl m

lemma onConnect_course (hr : m.InHand r) :
    Course m (own r (signalMoves .onConnect (m.machines r).state)) (m.onConnect r) := by
  simp only [onConnect]
  cases hs : (m.machines r).state with
  | Connecting =>
      exact .one (plain_makes (Effect.refl m r) rfl rfl (by simp [Move.after, hs]) rfl
        (fun _ _ => rfl) (.inl hs) hr)
  | Alerting =>
      have h : Effect m (m.modify r fun c => { c with time := m.around.now }) r .stay :=
        modify_effect m r (fun _ => rfl) (fun _ => rfl) (fun _ => rfl) (fun _ => rfl)
      exact .one (plain_makes h rfl rfl (by simp [Move.after, hs]) rfl (fun _ _ => rfl)
        (.inr hs) hr)
  | Terminated => exact .done ((Alike.refl m).request r .endCall)
  | _ => exact .refl m

lemma onReleased_course (hr : m.InHand r) :
    Course m (own r (signalMoves .onReleased (m.machines r).state)) (m.onReleased r) := by
  simp only [onReleased]
  cases hs : (m.machines r).state with
  | Idle => exact .refl m
  | Released | Terminated => exact .one (destroy_makes hr)
  | _ => exact .one (released_makes (by simp [InCall, hs]) hr)

/-! ### Timers

A call that is destroyed, or leaves the ringing state, stops its timers anyway, so that one of them
has just fired makes no difference. -/

lemma stopTimer_timed (c : CStateMachine) (t : ETimerType) (now : DateTime) :
    (c.stopTimer t).timed now = c.timed now := by
  cases t <;> rfl

lemma stopTimer_destroyed (c : CStateMachine) (t : ETimerType) (now : DateTime) :
    (c.stopTimer t).destroyed now = c.destroyed now := by
  simp only [CStateMachine.destroyed, stopTimer_timed]

lemma stopTimer_logEntries (c : CStateMachine) (t : ETimerType) (now : DateTime) :
    (c.stopTimer t).logEntries now = c.logEntries now := by
  simp only [CStateMachine.logEntries, stopTimer_timed]

lemma stopTimer_ending {c : CStateMachine} (hs : c.state = .Incoming) (t : ETimerType)
    (x : Surroundings) (st : IAbstractState) : (c.stopTimer t).ending x st = c.ending x st := by
  cases t <;> simp [CStateMachine.ending, CStateMachine.onExit, CStateMachine.stopTimer, hs,
    CStateMachine.stopAllTimers]

lemma hungUp_of_ne {c : CStateMachine} (h : c.state ≠ .Active) (now : DateTime) :
    c.hungUp now = c := by
  simp [CStateMachine.hungUp, h]

lemma expired_makes {t : ETimerType} (hen : (Move.expired t).Enabled (m.machines r)) :
    Makes m (m.modify r fun c => c.stopTimer t) r (.expired t) :=
  (stopTimer_effect m r t).makes rfl rfl (modify_self m r _) (by simp [Move.entries]) hen trivial

lemma fired_destroyed_makes (hr : m.InHand r) (t : ETimerType) :
    Makes m ((m.modify r fun c => c.stopTimer t).destroy r) r .destroyed := by
  refine ((destroy_effect _ r).after (stopTimer_effect m r t)).makes rfl rfl ?_ ?_ trivial hr
  · rw [destroy_self, modify_self, stopTimer_destroyed]
    rfl
  · rw [destroy_added, modify_self, stopTimer_logEntries]
    rfl

lemma fired_terminated_makes (hs : (m.machines r).state = .Incoming) (t : ETimerType) :
    Makes m ((m.modify r fun c => c.stopTimer t).changeStateEnding r .Terminated) r
      .terminated := by
  have hne : (m.machines r).state ≠ .Active := by simp [hs]
  refine ((changeStateEnding_effect _ r _).after (stopTimer_effect m r t)).makes rfl
    (ending_eq_gone _ _) ?_ ?_ (by simp [Move.Enabled, InCall, hs])
    (inHand_of_state (by simp [hs]) (by simp [hs]))
  · rw [changeStateEnding_self, modify_self]
    simp only [Move.after, Move.endedIn, hungUp_of_ne hne, stopTimer_ending hs, modify_around]
  · rw [changeStateEnding_added, modify_self]
    simp only [Move.entries, hungUp_of_ne hne, stopTimer_ending hs, modify_around, modify_out]

lemma timerElapsed_course (m : CCallManager) (r : MachineRef) (t : ETimerType) :
    Course m (own r (timerMoves (m.machines r) t)) (m.timerElapsed r t) := by
  by_cases hrun : (m.machines r).running t = true
  · have hst : ((m.modify r fun c => c.stopTimer t).machines r).state = (m.machines r).state :=
      (stopTimer_effect m r t).state
    simp only [timerElapsed, timerMoves, hrun, if_true]
    cases t with
    | ENOREPLY =>
        refine (Course.one (expired_makes (t := .ENOREPLY) hrun)).before ?_
        simp only [noReplyTimerExpired]
        split
        · exact (Alike.refl _).request r _
        · exact Alike.refl _
    | ERELEASED =>
        simp only [releasedTimerExpired, hst]
        cases hs : (m.machines r).state with
        | Released | Terminated =>
            exact .one (fired_destroyed_makes (inHand_of_state (by simp [hs]) (by simp [hs])) _)
        | _ => exact .one (expired_makes ⟨hrun, by simp [hs], by simp [hs]⟩)
    | ENORESPONSE =>
        simp only [noResponseTimerExpired, hst]
        cases hs : (m.machines r).state with
        | Incoming =>
            exact .one ((fired_terminated_makes hs _).alike ((Alike.refl _).request r .endCall))
        | _ => exact .one (expired_makes ⟨hrun, by simp [hs]⟩)
  · simp only [timerElapsed, timerMoves, hrun]
    exact .refl m

/-! ### A new call -/

lemma ring_self (m : CCallManager) (r : MachineRef) : (m.ring r).machines r =
    if m.around.config.CFNRFlag then
      { { m.machines r with incoming := true }.startTimer m.around.factory .ENORESPONSE with
        type := .EMissed }.startTimer m.around.factory .ENOREPLY
    else { { m.machines r with incoming := true }.startTimer m.around.factory .ENORESPONSE with
      type := .EMissed } := by
  by_cases h : m.around.config.CFNRFlag = true <;> simp [ring, startTimer, request, h]

lemma ring_added (m : CCallManager) (r : MachineRef) :
    addedCalls (m.ring r).out = addedCalls m.out := by
  by_cases h : m.around.config.CFNRFlag = true <;> simp [ring, startTimer, request, h]

/-- The new call up to the automatic answer. -/
def ringing (m : CCallManager) (r : MachineRef) (number name : String) : CCallManager :=
  (((m.modify r fun c => { c with callingNumber := number, callingName := name }).modify r
    CStateMachine.onExit).modify r fun c => { c with state := .Incoming }).ring r

lemma ringing_effect (m : CCallManager) (r : MachineRef) (number name : String) :
    Effect m (m.ringing r number name) r (.goto .Incoming) := by
  refine ((moved_effect _ r .Incoming).before (ring_effect _ r)).after ?_
  exact modify_effect m r (fun _ => rfl) (fun _ => rfl) (fun _ => rfl) (fun _ => rfl)

lemma delivered_makes (hs : (m.machines r).state = .Idle) (hr : m.InHand r) (number name : String) :
    Makes m (m.ringing r number name) r (.delivered number name) := by
  refine (ringing_effect m r number name).makes rfl (by simp [Move.destroys]) ?_ ?_ hs hr
  · rw [ringing, ring_self]
    simp only [modify_self, modify_around]
    rfl
  · simp [ringing, ring_added, Move.entries]

lemma silenced_logEntries (c : CStateMachine) (now : DateTime) :
    { c with disableStateNotifications := true }.logEntries now = c.logEntries now := by
  simp [CStateMachine.logEntries_eq, logged]

lemma turnedAway_makes (hs : (m.machines r).state = .Idle) (hr : m.InHand r) (code : EServiceCodes)
    (dest : String) : Makes m (m.turnAway r code dest) r .turnedAway := by
  have heq : m.turnAway r code dest = (((m.modify r fun c =>
      { c with disableStateNotifications := true }).request r (.serviceRequest code dest)).destroy
        r).request r .endCall := by
    simp [turnAway, endCall, request, hs]
  refine (turnAway_effect m r hs code dest).makes rfl rfl ?_ ?_ hs hr
  · rw [heq]
    simp [request, destroy_self, Move.after]
  · rw [heq]
    simp [request, destroy_added, Move.entries, silenced_logEntries]

lemma changeStateIncoming_eq (m : CCallManager) (r : MachineRef) (number name : String) :
    (m.modify r fun c =>
      { c with callingNumber := number, callingName := name }).changeStateIncoming
      r = if m.around.config.AAFlag ∧ m.calls.count = 1 then
        ((m.ringing r number name).acceptCall r).informManager r
      else (m.ringing r number name).informManager r := by
  have ha : (m.ringing r number name).around = m.around := (ringing_effect m r number name).around
  have hc : (m.ringing r number name).calls = m.calls := by
    rw [(ringing_effect m r number name).calls, Outcome.goto_table]
  have heq : (m.modify r fun c =>
      { c with callingNumber := number, callingName := name }).changeStateIncoming r =
      (if (m.ringing r number name).around.config.AAFlag ∧ (m.ringing r number name).calls.count = 1
        then (m.ringing r number name).acceptCall r else m.ringing r number name).informManager r :=
    rfl
  rw [heq, ha, hc]
  split_ifs <;> rfl

lemma Alike.informManager (h : Alike m m') (r : MachineRef) : Alike m (m'.informManager r) := by
  have he := informManager_effect m' r
  refine h.trans ⟨by simp, by simp, he.around, he.initialized, he.created, ?_⟩
  rw [he.calls, Outcome.stay_table]

lemma incomingCall_course (hr : m.InHand r) (number name : String) : Course m
    (own r (incomingMoves m.around.config m.calls.count number name (m.machines r).state))
    (m.incomingCall r number name) := by
  simp only [incomingCall]
  cases hs : (m.machines r).state with
  | Idle =>
      have hrings := delivered_makes hs hr number name
      by_cases hcfu : m.around.config.CFUFlag ∧ 0 < m.around.config.CFUNumber.length
      · simp only [incomingMoves, if_pos hcfu, if_pos (Or.inl hcfu)]
        exact .one (turnedAway_makes hs hr _ _)
      · by_cases hdnd : m.around.config.DNDFlag = true
        · simp only [incomingMoves, if_neg hcfu, if_pos hdnd, if_pos (Or.inr hdnd)]
          exact .one (turnedAway_makes hs hr _ _)
        · have hoff : ¬ ((m.around.config.CFUFlag ∧ 0 < m.around.config.CFUNumber.length) ∨
              m.around.config.DNDFlag) := not_or.mpr ⟨hcfu, hdnd⟩
          simp only [incomingMoves, if_neg hcfu, if_neg hdnd, if_neg hoff, changeState,
            changeStateIncoming_eq]
          split_ifs
          · have hstate := (ringing_effect m r number name).state
            have hanswer := acceptCall_course (m.ringing r number name) r
            rw [hstate] at hanswer
            exact .make hrings (hanswer.before ((Alike.refl _).informManager r))
          · exact .one (hrings.alike ((Alike.refl _).informManager r))
  | _ => exact .refl m

/-! ### Holds -/

lemma holdRequested_makes (hs : (m.machines r).state = .Active) :
    Makes m (m.holdCall r) r .holdRequested := by
  rw [holdCall_of_active hs]
  exact ⟨rfl, by simp [Move.entries], rfl, rfl, rfl, fun _ => rfl, by simp, hs,
    inHand_of_state (by simp [hs]) (by simp [hs])⟩

lemma held_makes (hs : (m.machines r).state = .Active) :
    Makes m (m.changeStatePlain r .Holding) r .held :=
  plain_makes (Effect.refl m r) rfl rfl rfl rfl (fun _ _ => rfl) hs
    (inHand_of_state (by simp [hs]) (by simp [hs]))

lemma settled_makes (m : CCallManager) (r : MachineRef) :
    Makes m (m.modify r fun c => { c with holdRequested := false }) r .settled :=
  ⟨rfl, by simp [Move.entries], rfl, rfl, rfl, fun _ => rfl, by simp, trivial, trivial⟩

/-! ### New machines -/

lemma free_of_add? {k : CallId} {d : Dictionary CallId MachineRef}
    (hd : m.calls.add? k r = some d) : m.calls.get? k = none := by
  by_contra h
  simp [Dictionary.add?_eq_none_iff.mpr h] at hd

lemma get?_update_of_add? {k : CallId} {d : Dictionary CallId MachineRef}
    (hd : m.calls.add? k r = some d) : d.get? = Function.update m.calls.get? k (some r) := by
  funext j
  rw [Dictionary.get?_of_add? hd, Function.update_apply]

/-- The id of the new call is free. -/
lemma listed_makes {k : CallId} {d : Dictionary CallId MachineRef}
    (hd : m.calls.add? k m.created = some d) :
    Makes m { m.announced k with calls := d } m.created (.announced k) := by
  refine ⟨?_, by simp [announced, createStateMachine, Move.entries], rfl, rfl, rfl, fun _ => ?_,
    by simp, trivial, rfl⟩
  · simp [announced, createStateMachine, modify, Move.after]
  · rw [Move.table, if_pos (free_of_add? hd), ← get?_update_of_add? hd]

/-- The id of the new call is taken. -/
lemma announced_makes {k : CallId} {old : MachineRef} (hk : m.calls.get? k = some old) :
    Makes m (m.announced k) m.created (.announced k) := by
  refine ⟨?_, by simp [announced, createStateMachine, Move.entries], rfl, rfl, rfl, fun _ => ?_,
    by simp, trivial, rfl⟩
  · simp [announced, createStateMachine, modify, Move.after]
  · rw [Move.table, if_neg (by simp [hk]), announced_calls]

lemma entered_makes {k : CallId} {d : Dictionary CallId MachineRef}
    (hd : m.calls.add? k r = some d) (hse : (m.machines r).session = some k)
    (hst : (m.machines r).state = .Connecting) (hlt : r < m.created) :
    Makes m { m with calls := d } r (.entered k) := by
  refine ⟨by simp [Move.after], by simp [Move.entries], rfl, rfl, rfl, fun _ => ?_, by simp,
    ⟨hse, hst⟩, ⟨free_of_add? hd, hlt⟩⟩
  rw [Move.table, ← get?_update_of_add? hd]

/-- The moves of an outgoing call: the new machine takes the place of an old one with its id. -/
def dialMoves (m : CCallManager) (number : String) : List (MachineRef × Move) :=
  (m.created, .dialled number) ::
    match m.around.makeCallAnswer with
    | none => []
    | some k =>
        match m.calls.get? k with
        | none => [(m.created, .entered k)]
        | some old => [(old, .destroyed), (m.created, .entered k)]

lemma dialled_makes (m : CCallManager) (number : String) (accountId : ℕ) :
    Makes m (m.createStateMachine.makeCall m.created number accountId) m.created
      (.dialled number) := by
  have hd := dialled m number accountId
  refine ⟨?_, ?_, hd.around, hd.initialized, hd.created, fun _ => ?_, by simp, trivial, rfl⟩
  · funext s
    by_cases hs : s = m.created
    · rw [hs, Function.update_self]
      simp [makeCall, changeState, request, createStateMachine, Move.after]
    · rw [hd.others s hs, Function.update_of_ne hs]
  · simp [makeCall, changeState, request, createStateMachine, Move.entries]
  · rw [hd.calls]
    rfl

lemma dial_course (hw : m.WellFormed) (number : String) (accountId : ℕ) :
    Course m (m.dialMoves number)
      ((m.createStateMachine.makeCall m.created number accountId).enterOutboundCall m.created) := by
  have hd := dialled m number accountId
  refine .make (dialled_makes m number accountId) ?_
  generalize m.createStateMachine.makeCall m.created number accountId = m' at hd ⊢
  have hlt : m.created < m'.created := by
    rw [hd.created]
    exact Nat.lt_succ_self _
  obtain ⟨ha, heq⟩ | ⟨k, d, ha, hk, hadd, heq⟩ | ⟨k, old, d, ha, hk, hne, -, hadd, heq⟩ :=
    hd.enter_cases hw
  · rw [heq, ha]
    exact .refl m'
  · simp only [heq, ha, hk]
    exact .one (entered_makes hadd (hd.session.trans ha) hd.state hlt)
  · have hgone := destroy_effect m' old
    have hnew := hgone.others m.created (Ne.symm hne)
    have hold : m'.calls.get? k = some old := by rw [hd.calls, hk]
    simp only [heq, ha, hk]
    refine .make (destroy_makes (.inl ⟨k, hold⟩)) (.one (entered_makes hadd ?_ ?_ ?_))
    · rw [hnew, hd.session, ha]
    · rw [hnew, hd.state]
    · rw [hgone.created]
      exact hlt

/-- The moves of a call the stack announces: an old one with its id ends, and the new machine is
given up. -/
def announceMoves (m : CCallManager) (k : CallId) : List (MachineRef × Move) :=
  (m.created, .announced k) ::
    match m.calls.get? k with
    | some old => own old (signalMoves .endCall ((m.announced k).machines old).state)
    | none => []

lemma announce_course (m : CCallManager) (k : CallId) :
    Course m (m.announceMoves k) (m.onCallStateChanged k .SESSION_STATE_INCOMING) := by
  unfold announceMoves
  cases hk : m.calls.get? k with
  | some old =>
      rw [incoming_eq_endCall hk]
      exact .make (announced_makes hk) (endCall_course (.inl ⟨k, hk⟩))
  | none =>
      obtain ⟨d, hd⟩ := exists_add? (r := m.created) hk
      rw [incoming_eq_listed hk hd]
      exact .one (listed_makes hd)

/-- The stack gave a call another id: it leaves its old key, and takes the new one if that is
free. -/
lemma renamed_makes (hw : m.WellFormed) {old new : CallId} {call : MachineRef}
    {d : Dictionary CallId MachineRef} (hold : m.calls.get? old = some call)
    (hd : ∀ j, d.get? j = if j = new ∧ (new = old ∨ m.calls.get? new = none) then some call
      else if j = old then none else m.calls.get? j) :
    Makes m { m.modify call fun c => { c with session := some new } with calls := d } call
      (.renamed new) := by
  refine ⟨rfl, by simp [Move.entries], rfl, rfl, rfl, fun h => absurd rfl (h new), ?_, trivial,
    ⟨old, hold⟩⟩
  rintro k hk j s (hj : d.get? j = some s)
  obtain rfl : new = k := by simpa using hk
  rw [hd j] at hj
  split_ifs at hj with hnew hjo
  · exact .inl ⟨(Option.some.inj hj).symm, hnew.1⟩
  · refine .inr ⟨fun hs => hjo ?_, hj⟩
    exact hw.key_unique (hs ▸ hj) hold

end CCallManager

end TAM
