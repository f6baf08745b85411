import AnsweringMachine.CallControl.Manager

/-!
# The call automaton behind the handlers

What a handler does to the call it is about is one of three things: nothing (`stay`), a move to
another state (`goto`), or the end of the call, idle and out of the table (`gone`).  `react` is
that automaton: eight states, one column for each signal, no machine, no table, no outputs.

`Effect m m' r o` says that `m'` differs from `m` in the machine `r` only, and there as the outcome
`o` says: the session stays, the state moves, the table loses the session if the call is gone, and
the pending action is not touched.  There is one lemma for each handler (`endCall_effect`,
`onReleased_effect`, ...), and no proof outside this module unfolds a handler to learn what it does
to states and table.

`Effect` leaves the outputs out.  What a handler with outcome `o` notifies is `o.report`, if the
call is listed and its timers start; the lemmas are in `Reports`.
-/

namespace TAM

/-! ## The automaton -/

/-- What becomes of the call a handler is about. -/
inductive Outcome
  | stay
  | goto (st : IAbstractState)
  | gone
  deriving DecidableEq, Repr

namespace Outcome

/-- The state after the outcome. -/
def state : Outcome → IAbstractState → IAbstractState
  | stay, st => st
  | goto st, _ => st
  | gone, _ => .Idle

/-- One outcome after another, where nothing but `stay` comes after the end of a call. -/
def andThen : Outcome → Outcome → Outcome
  | stay, o => o
  | goto st, stay => goto st
  | goto _, o => o
  | gone, _ => gone

/-- The table after the outcome. -/
def table : Outcome → Option CallId → Dictionary CallId MachineRef →
    Dictionary CallId MachineRef
  | gone, some k, d => d.remove k
  | _, _, d => d

/-- What a listed call reports under its session. -/
def report : Outcome → CallId → List Notification
  | stay, _ => []
  | goto st, k => [.CallStateRefresh k st.id]
  | gone, k => [.CallStateRefresh k .IDLE, .CallStateRefresh k .NULL]

@[simp] lemma stay_state (st : IAbstractState) : stay.state st = st := rfl
@[simp] lemma goto_state (st st' : IAbstractState) : (goto st).state st' = st := rfl
@[simp] lemma gone_state (st : IAbstractState) : gone.state st = .Idle := rfl
@[simp] lemma stay_andThen (o : Outcome) : stay.andThen o = o := rfl
@[simp] lemma gone_andThen (o : Outcome) : gone.andThen o = gone := rfl

@[simp] lemma andThen_stay (o : Outcome) : o.andThen stay = o := by cases o <;> rfl

@[simp] lemma stay_table (k : Option CallId) (d : Dictionary CallId MachineRef) :
    stay.table k d = d := by cases k <;> rfl

@[simp] lemma goto_table (st : IAbstractState) (k : Option CallId)
    (d : Dictionary CallId MachineRef) : (goto st).table k d = d := by cases k <;> rfl

@[simp] lemma gone_table (k : CallId) (d : Dictionary CallId MachineRef) :
    gone.table (some k) d = d.remove k := rfl

lemma andThen_state (o o' : Outcome) (h : o = gone → o' = stay) (st : IAbstractState) :
    (o.andThen o').state st = o'.state (o.state st) := by
  cases o with
  | stay => rfl
  | goto a => cases o' <;> rfl
  | gone => rw [h rfl]; rfl

lemma andThen_table (o o' : Outcome) (h : o = gone → o' = stay) (k : Option CallId)
    (d : Dictionary CallId MachineRef) :
    (o.andThen o').table k d = o'.table k (o.table k d) := by
  cases o with
  | stay => simp
  | goto a => cases o' <;> simp [andThen]
  | gone => rw [h rfl]; simp

lemma andThen_eq_gone {o o' : Outcome} : o.andThen o' = gone ↔ o = gone ∨ o' = gone := by
  cases o <;> cases o' <;> simp [andThen]

end Outcome

/-- The signals that reach a call in a state of its own. -/
inductive Signal
  | endCall | acceptCall | retrieveCall | onAlerting | onConnect | onReleased
  | releasedTimerExpired | noResponseTimerExpired
  deriving DecidableEq, Repr

/-- Entering an ending state, which without a timer is the end at once. -/
def ending (f : AbstractFactory) (st : IAbstractState) : Outcome :=
  if f.timersRun then .goto st else .gone

/-- **The call automaton.** -/
def react (f : AbstractFactory) : Signal → IAbstractState → Outcome
  | .endCall, .Idle | .endCall, .Released => .gone
  | .endCall, .Terminated => .stay
  | .endCall, _ => ending f .Terminated
  | .acceptCall, .Incoming => .goto .Active
  | .retrieveCall, .Holding => .goto .Active
  | .onAlerting, .Connecting => .goto .Alerting
  | .onConnect, .Connecting | .onConnect, .Alerting => .goto .Active
  | .onReleased, .Idle => .stay
  | .onReleased, .Released | .onReleased, .Terminated => .gone
  | .onReleased, _ => ending f .Released
  | .releasedTimerExpired, .Released | .releasedTimerExpired, .Terminated => .gone
  | .noResponseTimerExpired, .Incoming => ending f .Terminated
  | _, _ => .stay

-- The effects below are all read off this table.
attribute [local simp] react

/-- A new call is turned away by a service, or rings, or is answered at once. -/
def reactIncoming (cfg : IConfigurator) (count : ℕ) : IAbstractState → Outcome
  | .Idle =>
      if (cfg.CFUFlag ∧ 0 < cfg.CFUNumber.length) ∨ cfg.DNDFlag then .gone
      else if cfg.AAFlag ∧ count = 1 then .goto .Active
      else .goto .Incoming
  | _ => .stay

namespace CCallManager

variable {m m' m'' : CCallManager} {r : MachineRef} {o o' : Outcome}

/-! ## Primitive updates, field by field -/

@[simp] lemma modify_self (m : CCallManager) (r : MachineRef) (f : CStateMachine → CStateMachine) :
    (m.modify r f).machines r = f (m.machines r) := by simp [modify]

@[simp] lemma modify_of_ne (m : CCallManager) {r r' : MachineRef} (h : r' ≠ r)
    (f : CStateMachine → CStateMachine) : (m.modify r f).machines r' = m.machines r' := by
  simp [modify, h]

@[simp] lemma modify_created (m : CCallManager) (r : MachineRef)
    (f : CStateMachine → CStateMachine) : (m.modify r f).created = m.created := rfl
@[simp] lemma modify_calls (m : CCallManager) (r : MachineRef)
    (f : CStateMachine → CStateMachine) : (m.modify r f).calls = m.calls := rfl
@[simp] lemma modify_pending (m : CCallManager) (r : MachineRef)
    (f : CStateMachine → CStateMachine) : (m.modify r f).pendingAction = m.pendingAction := rfl
@[simp] lemma modify_initialized (m : CCallManager) (r : MachineRef)
    (f : CStateMachine → CStateMachine) : (m.modify r f).initialized = m.initialized := rfl
@[simp] lemma modify_around (m : CCallManager) (r : MachineRef)
    (f : CStateMachine → CStateMachine) : (m.modify r f).around = m.around := rfl
@[simp] lemma modify_out (m : CCallManager) (r : MachineRef)
    (f : CStateMachine → CStateMachine) : (m.modify r f).out = m.out := rfl

@[simp] lemma emit_machines (m : CCallManager) (x : Output) :
    (m.emit x).machines = m.machines := rfl
@[simp] lemma emit_created (m : CCallManager) (x : Output) : (m.emit x).created = m.created := rfl
@[simp] lemma emit_calls (m : CCallManager) (x : Output) : (m.emit x).calls = m.calls := rfl
@[simp] lemma emit_pending (m : CCallManager) (x : Output) :
    (m.emit x).pendingAction = m.pendingAction := rfl
@[simp] lemma emit_initialized (m : CCallManager) (x : Output) :
    (m.emit x).initialized = m.initialized := rfl
@[simp] lemma emit_around (m : CCallManager) (x : Output) : (m.emit x).around = m.around := rfl
@[simp] lemma emit_out (m : CCallManager) (x : Output) : (m.emit x).out = m.out ++ [x] := rfl

/-! ## Effects -/

/-- `m'` is `m` after the machine `r` went through the outcome `o`. -/
structure Effect (m m' : CCallManager) (r : MachineRef) (o : Outcome) : Prop where
  others : ∀ r', r' ≠ r → m'.machines r' = m.machines r'
  created : m'.created = m.created
  pending : m'.pendingAction = m.pendingAction
  initialized : m'.initialized = m.initialized
  around : m'.around = m.around
  session : (m'.machines r).session = (m.machines r).session
  held : (m'.machines r).holdRequested = (m.machines r).holdRequested
  silent : o ≠ .gone →
    (m'.machines r).disableStateNotifications = (m.machines r).disableStateNotifications
  state : (m'.machines r).state = o.state (m.machines r).state
  calls : m'.calls = o.table (m.machines r).session m.calls

lemma Effect.refl (m : CCallManager) (r : MachineRef) : Effect m m r .stay := by
  constructor <;> simp

/-- Effects on one machine compose. -/
lemma Effect.trans (h : Effect m m' r o) (h' : Effect m' m'' r o')
    (hgone : o = .gone → o' = .stay) :
    Effect m m'' r (o.andThen o') where
  others r' hr := (h'.others r' hr).trans (h.others r' hr)
  created := h'.created.trans h.created
  pending := h'.pending.trans h.pending
  initialized := h'.initialized.trans h.initialized
  around := h'.around.trans h.around
  session := h'.session.trans h.session
  held := h'.held.trans h.held
  silent hne := by
    rw [Ne, Outcome.andThen_eq_gone, not_or] at hne
    exact (h'.silent hne.2).trans (h.silent hne.1)
  state := by rw [h'.state, h.state, Outcome.andThen_state _ _ hgone]
  calls := by rw [h'.calls, h.calls, h.session, Outcome.andThen_table _ _ hgone]

/-- What comes before may be nothing. -/
lemma Effect.after (h' : Effect m' m'' r o) (h : Effect m m' r .stay) : Effect m m'' r o :=
  h.trans h' (by simp)

/-- What comes after may be nothing. -/
lemma Effect.before (h : Effect m m' r o) (h' : Effect m' m'' r .stay) : Effect m m'' r o := by
  simpa using h.trans h' fun _ => rfl

/-- Assigning to fields the automaton does not look at. -/
lemma modify_effect (m : CCallManager) (r : MachineRef) {f : CStateMachine → CStateMachine}
    (hst : ∀ c, (f c).state = c.state) (hse : ∀ c, (f c).session = c.session)
    (hh : ∀ c, (f c).holdRequested = c.holdRequested)
    (hs : ∀ c, (f c).disableStateNotifications = c.disableStateNotifications) :
    Effect m (m.modify r f) r .stay := by
  constructor <;> simp_all

/-- The same, at the end of an effect. -/
lemma Effect.modify (h : Effect m m' r o) {f : CStateMachine → CStateMachine}
    (hst : ∀ c, (f c).state = c.state) (hse : ∀ c, (f c).session = c.session)
    (hh : ∀ c, (f c).holdRequested = c.holdRequested)
    (hs : ∀ c, (f c).disableStateNotifications = c.disableStateNotifications) :
    Effect m (m'.modify r f) r o := h.before (modify_effect m' r hst hse hh hs)

lemma emit_effect (m : CCallManager) (r : MachineRef) (x : Output) :
    Effect m (m.emit x) r .stay := by
  constructor <;> simp

lemma request_effect (m : CCallManager) (r : MachineRef) (q : Request) :
    Effect m (m.request r q) r .stay := emit_effect m r _

lemma startTimer_effect (m : CCallManager) (r : MachineRef) (t : ETimerType) :
    Effect m (m.startTimer r t) r .stay := by
  cases t <;> exact modify_effect m r (fun _ => rfl) (fun _ => rfl) (fun _ => rfl) (fun _ => rfl)

lemma stopTimer_effect (m : CCallManager) (r : MachineRef) (t : ETimerType) :
    Effect m (m.modify r fun c => c.stopTimer t) r .stay := by
  cases t <;> exact modify_effect m r (fun _ => rfl) (fun _ => rfl) (fun _ => rfl) (fun _ => rfl)

lemma informManager_effect (m : CCallManager) (r : MachineRef) :
    Effect m (m.informManager r) r .stay := by
  simp only [informManager]
  split
  · exact Effect.refl m r
  · split_ifs
    · exact Effect.refl m r
    · exact emit_effect m r _

/-- Leaving the old state and taking the new one, before its entry. -/
lemma moved_effect (m : CCallManager) (r : MachineRef) (st : IAbstractState) :
    Effect m ((m.modify r CStateMachine.onExit).modify r fun c => { c with state := st }) r
      (.goto st) := by
  have hexit : Effect m (m.modify r CStateMachine.onExit) r .stay := by
    refine modify_effect m r ?_ ?_ ?_ ?_ <;>
      · intro c
        simp only [CStateMachine.onExit]
        split <;> rfl
  refine Effect.after ?_ hexit
  constructor <;> simp_all

/-- `transition`, given the effect of the entry on the state it starts from. -/
lemma transition_effect (m : CCallManager) (r : MachineRef) (st : IAbstractState)
    {entry : CCallManager → CCallManager} (hentry : ∀ m₁, Effect m m₁ r (.goto st) →
      Effect m₁ (entry m₁) r o) :
    Effect m (m.transition r st entry) r ((Outcome.goto st).andThen o) := by
  have h1 := moved_effect m r st
  have h2 := h1.trans (hentry _ h1) (by simp)
  exact h2.before (informManager_effect _ r)

lemma changeStatePlain_effect (m : CCallManager) (r : MachineRef) (st : IAbstractState) :
    Effect m (m.changeStatePlain r st) r (.goto st) := by
  refine transition_effect (o := .stay) m r st fun m₁ _ => ?_
  refine modify_effect m₁ r ?_ ?_ ?_ ?_ <;> intro c <;> cases st <;> rfl

/-- Leaving the table changes no machine. -/
@[simp] lemma destroySession_machines (m : CCallManager) (s : Option CallId) :
    (m.destroySession s).machines = m.machines := by
  unfold destroySession
  split
  · rfl
  · dsimp only
    split_ifs <;> rfl

/-- Taking a session out of the table, for the machine that has it. -/
lemma destroySession_effect (m : CCallManager) (r : MachineRef)
    (hidle : (m.machines r).state = .Idle) :
    Effect m (m.destroySession (m.machines r).session) r .gone := by
  unfold destroySession
  split
  · rename_i h
    constructor <;> simp [hidle, h, Outcome.table]
  · rename_i k h
    dsimp only
    split_ifs <;> constructor <;> simp [hidle, h, updateGui]

lemma calculateTiming_effect (m : CCallManager) (r : MachineRef) :
    Effect m (m.calculateTiming r) r .stay := by
  refine modify_effect m r ?_ ?_ ?_ ?_ <;> intro c <;> split_ifs <;> rfl

lemma updateCallLog_effect (m : CCallManager) (r : MachineRef) :
    Effect m (m.updateCallLog r) r .stay := by
  unfold updateCallLog
  dsimp only
  split_ifs
  · exact emit_effect m r _
  · exact Effect.refl m r

lemma closing_effect (m : CCallManager) (r : MachineRef) : Effect m (m.closing r) r .stay := by
  simp only [closing]
  refine Effect.modify ?_ (fun _ => rfl) (fun _ => rfl) (fun _ => rfl) (fun _ => rfl)
  refine (updateCallLog_effect _ r).after ?_
  refine (calculateTiming_effect _ r).after ?_
  exact modify_effect m r (fun _ => rfl) (fun _ => rfl) (fun _ => rfl) (fun _ => rfl)

/-- Everything `destroy` does before it leaves the table. -/
lemma toIdle_effect (m : CCallManager) (r : MachineRef) :
    Effect m ((m.closing r).changeStatePlain r .Idle) r (.goto .Idle) :=
  (changeStatePlain_effect _ r .Idle).after (closing_effect m r)

/-- **`destroy` ends a call.** -/
lemma destroy_effect (m : CCallManager) (r : MachineRef) : Effect m (m.destroy r) r .gone := by
  have h := toIdle_effect m r
  have h' := destroySession_effect _ r (show _ = IAbstractState.Idle by rw [h.state]; rfl)
  exact h.trans h' (by simp)

lemma changeStateEnding_effect (m : CCallManager) (r : MachineRef) (st : IAbstractState) :
    Effect m (m.changeStateEnding r st) r (ending m.around.factory st) := by
  have hentry : ∀ m₁, Effect m m₁ r (.goto st) → Effect m₁
      (if m₁.around.factory.timersRun then m₁.startTimer r .ERELEASED
        else (m₁.startTimer r .ERELEASED).destroy r) r
      (if m.around.factory.timersRun then .stay else .gone) := by
    intro m₁ h
    rw [h.around]
    split_ifs
    · exact startTimer_effect m₁ r _
    · exact (destroy_effect _ r).after (startTimer_effect m₁ r _)
  have h := transition_effect m r st hentry
  unfold changeStateEnding ending
  split_ifs at h ⊢ <;> exact h

/-! ## The effect of each handler -/

lemma acceptCall_effect (m : CCallManager) (r : MachineRef) :
    Effect m (m.acceptCall r) r (react m.around.factory .acceptCall (m.machines r).state) := by
  simp only [acceptCall]
  cases hs : (m.machines r).state <;> simp only [react]
  case Incoming =>
    refine (changeStatePlain_effect _ r .Active).after ?_
    refine (request_effect _ r _).after ?_
    exact modify_effect m r (fun _ => rfl) (fun _ => rfl) (fun _ => rfl) (fun _ => rfl)
  all_goals exact Effect.refl m r

lemma ring_effect (m : CCallManager) (r : MachineRef) : Effect m (m.ring r) r .stay := by
  have h : Effect m ((((m.modify r fun c => { c with incoming := true }).startTimer r
      .ENORESPONSE).request r .alerted).modify r fun c => { c with type := .EMissed }) r .stay := by
    refine Effect.modify ?_ (fun _ => rfl) (fun _ => rfl) (fun _ => rfl) (fun _ => rfl)
    refine (request_effect _ r _).after ?_
    refine (startTimer_effect _ r _).after ?_
    exact modify_effect m r (fun _ => rfl) (fun _ => rfl) (fun _ => rfl) (fun _ => rfl)
  unfold ring
  dsimp only
  split_ifs
  · exact h.before (startTimer_effect _ r _)
  · exact h

lemma changeStateIncoming_effect (m : CCallManager) (r : MachineRef) :
    Effect m (m.changeStateIncoming r) r
      (if m.around.config.AAFlag ∧ m.calls.count = 1 then .goto .Active else .goto .Incoming) := by
  have hentry : ∀ m₁, Effect m m₁ r (.goto .Incoming) → Effect m₁
      (if (m₁.ring r).around.config.AAFlag ∧ (m₁.ring r).calls.count = 1 then
        (m₁.ring r).acceptCall r else m₁.ring r) r
      (if m.around.config.AAFlag ∧ m.calls.count = 1 then .goto .Active else .stay) := by
    intro m₁ h₁
    have hr := ring_effect m₁ r
    -- the automatic answer looks at the flag and the table, which ringing leaves alone
    have ha : (m₁.ring r).around = m.around := hr.around.trans h₁.around
    have hc : (m₁.ring r).calls = m.calls := by rw [hr.calls, h₁.calls]; simp
    rw [ha, hc]
    split_ifs
    · have hacc := acceptCall_effect (m₁.ring r) r
      rw [hr.state, h₁.state] at hacc
      exact hacc.after hr
    · exact hr
  have h := transition_effect m r .Incoming hentry
  simp only [changeStateIncoming]
  split_ifs at h ⊢ <;> exact h

lemma endCall_effect (m : CCallManager) (r : MachineRef) :
    Effect m (m.endCall r) r (react m.around.factory .endCall (m.machines r).state) := by
  have hterm : ∀ m₁ : CCallManager, Effect m₁ ((m₁.changeState r .Terminated).request r .endCall) r
      (ending m₁.around.factory .Terminated) :=
    fun m₁ => (changeStateEnding_effect m₁ r .Terminated).before (request_effect _ r _)
  simp only [endCall]
  cases hs : (m.machines r).state <;> simp only [react]
  case Idle => exact (destroy_effect m r).before (request_effect _ r _)
  case Released => exact (destroy_effect _ r).after (request_effect m r _)
  case Terminated => exact request_effect m r _
  case Active =>
    exact (hterm _).after
      (modify_effect m r (fun _ => rfl) (fun _ => rfl) (fun _ => rfl) (fun _ => rfl))
  case Holding => exact (changeStateEnding_effect _ r .Terminated).after (request_effect m r _)
  all_goals exact hterm m

lemma onAlerting_effect (m : CCallManager) (r : MachineRef) :
    Effect m (m.onAlerting r) r (react m.around.factory .onAlerting (m.machines r).state) := by
  simp only [onAlerting]
  cases hs : (m.machines r).state <;> simp only [react]
  case Connecting => exact changeStatePlain_effect m r .Alerting
  case Terminated => exact request_effect m r _
  all_goals exact Effect.refl m r

lemma onConnect_effect (m : CCallManager) (r : MachineRef) :
    Effect m (m.onConnect r) r (react m.around.factory .onConnect (m.machines r).state) := by
  simp only [onConnect]
  cases hs : (m.machines r).state <;> simp only [react]
  case Connecting => exact changeStatePlain_effect m r .Active
  case Alerting =>
    exact (changeStatePlain_effect _ r .Active).after
      (modify_effect m r (fun _ => rfl) (fun _ => rfl) (fun _ => rfl) (fun _ => rfl))
  case Terminated => exact request_effect m r _
  all_goals exact Effect.refl m r

lemma onReleased_effect (m : CCallManager) (r : MachineRef) :
    Effect m (m.onReleased r) r (react m.around.factory .onReleased (m.machines r).state) := by
  simp only [onReleased]
  cases hs : (m.machines r).state <;> simp only [react]
  case Idle => exact Effect.refl m r
  case Released => exact destroy_effect m r
  case Terminated => exact destroy_effect m r
  all_goals exact changeStateEnding_effect m r .Released

lemma retrieveCall_effect (m : CCallManager) (r : MachineRef) :
    Effect m (m.retrieveCall r) r (react m.around.factory .retrieveCall (m.machines r).state) := by
  simp only [retrieveCall]
  cases hs : (m.machines r).state <;> simp only [react]
  case Holding =>
    refine (changeStatePlain_effect _ r .Active).after ?_
    refine (request_effect _ r _).after ?_
    exact modify_effect m r (fun _ => rfl) (fun _ => rfl) (fun _ => rfl) (fun _ => rfl)
  all_goals exact Effect.refl m r

lemma conferenceCall_effect (m : CCallManager) (r : MachineRef) :
    Effect m (m.conferenceCall r) r .stay := by
  simp only [conferenceCall]
  split
  · exact request_effect m r _
  · exact Effect.refl m r

lemma xferCall_effect (m : CCallManager) (r : MachineRef) (number : String) :
    Effect m (m.xferCall r number) r .stay := by
  simp only [xferCall]
  split
  · exact request_effect m r _
  · exact request_effect m r _
  · exact Effect.refl m r

lemma noReplyTimerExpired_effect (m : CCallManager) (r : MachineRef) :
    Effect m (m.noReplyTimerExpired r) r .stay := by
  simp only [noReplyTimerExpired]
  split
  · exact request_effect m r _
  · exact Effect.refl m r

lemma releasedTimerExpired_effect (m : CCallManager) (r : MachineRef) :
    Effect m (m.releasedTimerExpired r) r
      (react m.around.factory .releasedTimerExpired (m.machines r).state) := by
  simp only [releasedTimerExpired]
  cases hs : (m.machines r).state <;> simp only [react]
  case Released => exact destroy_effect m r
  case Terminated => exact destroy_effect m r
  all_goals exact Effect.refl m r

lemma noResponseTimerExpired_effect (m : CCallManager) (r : MachineRef) :
    Effect m (m.noResponseTimerExpired r) r
      (react m.around.factory .noResponseTimerExpired (m.machines r).state) := by
  simp only [noResponseTimerExpired]
  cases hs : (m.machines r).state <;> simp only [react]
  case Incoming =>
    exact (changeStateEnding_effect m r .Terminated).before (request_effect _ r _)
  all_goals exact Effect.refl m r

/-- What the expiry of a timer does: the no-reply timer only sends a request. -/
def reactTimer (f : AbstractFactory) : ETimerType → IAbstractState → Outcome
  | .ENOREPLY, _ => .stay
  | .ERELEASED, st => react f .releasedTimerExpired st
  | .ENORESPONSE, st => react f .noResponseTimerExpired st

lemma timerElapsed_effect (m : CCallManager) (r : MachineRef) (t : ETimerType) :
    Effect m (m.timerElapsed r t) r
      (if (m.machines r).running t then reactTimer m.around.factory t (m.machines r).state
        else .stay) := by
  simp only [timerElapsed]
  split_ifs
  · have hstop := stopTimer_effect m r t
    have hst := hstop.state
    cases t with
    | ENOREPLY => exact (noReplyTimerExpired_effect _ r).after hstop
    | ERELEASED =>
        have h := releasedTimerExpired_effect (m.modify r fun c => c.stopTimer .ERELEASED) r
        rw [hst, hstop.around] at h
        exact h.after hstop
    | ENORESPONSE =>
        have h := noResponseTimerExpired_effect (m.modify r fun c => c.stopTimer .ENORESPONSE) r
        rw [hst, hstop.around] at h
        exact h.after hstop
  · exact Effect.refl m r

/-- Turning a call away ends it; the flag that silences it is the one assignment on the way. -/
lemma turnAway_effect (m : CCallManager) (r : MachineRef) (hidle : (m.machines r).state = .Idle)
    (code : EServiceCodes) (dest : String) : Effect m (m.turnAway r code dest) r .gone := by
  simp only [turnAway]
  have h1 : (m.modify r fun c => { c with disableStateNotifications := true }).around = m.around :=
    rfl
  have h := endCall_effect ((m.modify r fun c =>
    { c with disableStateNotifications := true }).request r (.serviceRequest code dest)) r
  have hq := request_effect (m.modify r fun c => { c with disableStateNotifications := true }) r
    (.serviceRequest code dest)
  rw [hq.state, show ((m.modify r fun c => { c with disableStateNotifications := true }).machines
    r).state = .Idle by simpa using hidle] at h
  have h' := h.after hq
  constructor
  · intro r' hr
    rw [h'.others r' hr, modify_of_ne _ hr]
  · exact h'.created
  · exact h'.pending
  · exact h'.initialized
  · exact h'.around
  · rw [h'.session]; simp
  · rw [h'.held]; simp
  · exact fun hne => absurd rfl hne
  · rw [h'.state]; rfl
  · rw [h'.calls]; simp [react]

lemma incomingCall_effect (m : CCallManager) (r : MachineRef) (number info : String) :
    Effect m (m.incomingCall r number info) r
      (reactIncoming m.around.config m.calls.count (m.machines r).state) := by
  simp only [incomingCall]
  cases hs : (m.machines r).state <;> simp only [reactIncoming]
  case Idle =>
    by_cases hcfu : m.around.config.CFUFlag ∧ 0 < m.around.config.CFUNumber.length
    · rw [if_pos hcfu, if_pos (Or.inl hcfu)]
      exact turnAway_effect m r hs _ _
    · rw [if_neg hcfu]
      by_cases hdnd : m.around.config.DNDFlag = true
      · rw [if_pos hdnd, if_pos (Or.inr hdnd)]
        exact turnAway_effect m r hs _ _
      · rw [if_neg hdnd, if_neg (by simp [hcfu, hdnd])]
        exact (changeStateIncoming_effect _ r).after
          (modify_effect m r (fun _ => rfl) (fun _ => rfl) (fun _ => rfl) (fun _ => rfl))
  all_goals exact Effect.refl m r

/-! ## Asking for a hold

`holdCall` is the one handler that touches a hold flag, so it is not an `Effect`: it raises the flag
of an active machine and changes nothing else. -/

lemma holdCall_of_active (h : (m.machines r).state = .Active) : m.holdCall r =
    (m.modify r fun c => { c with holdRequested := true }).emit
      (.request (m.machines r).session .holdCall) := by
  simp [holdCall, h, request]

lemma holdCall_of_ne_active (h : (m.machines r).state ≠ .Active) : m.holdCall r = m := by
  unfold holdCall
  split
  · contradiction
  · rfl

lemma holdCall_machines (m : CCallManager) (r s : MachineRef) : (m.holdCall r).machines s =
    if s = r ∧ (m.machines r).state = .Active then { m.machines s with holdRequested := true }
    else m.machines s := by
  by_cases h : (m.machines r).state = .Active
  · rw [holdCall_of_active h]
    by_cases hs : s = r
    · subst hs; simp [h]
    · simp [hs]
  · simp [holdCall_of_ne_active h, h]

@[simp] lemma holdCall_state (m : CCallManager) (r s : MachineRef) :
    ((m.holdCall r).machines s).state = (m.machines s).state := by
  rw [holdCall_machines]; split_ifs <;> rfl

@[simp] lemma holdCall_session (m : CCallManager) (r s : MachineRef) :
    ((m.holdCall r).machines s).session = (m.machines s).session := by
  rw [holdCall_machines]; split_ifs <;> rfl

@[simp] lemma holdCall_silent (m : CCallManager) (r s : MachineRef) :
    ((m.holdCall r).machines s).disableStateNotifications =
      (m.machines s).disableStateNotifications := by
  rw [holdCall_machines]; split_ifs <;> rfl

@[simp] lemma holdCall_calls (m : CCallManager) (r : MachineRef) :
    (m.holdCall r).calls = m.calls := by unfold holdCall; split <;> rfl
@[simp] lemma holdCall_created (m : CCallManager) (r : MachineRef) :
    (m.holdCall r).created = m.created := by unfold holdCall; split <;> rfl
@[simp] lemma holdCall_pending (m : CCallManager) (r : MachineRef) :
    (m.holdCall r).pendingAction = m.pendingAction := by unfold holdCall; split <;> rfl
@[simp] lemma holdCall_around (m : CCallManager) (r : MachineRef) :
    (m.holdCall r).around = m.around := by unfold holdCall; split <;> rfl

end CCallManager

end TAM
