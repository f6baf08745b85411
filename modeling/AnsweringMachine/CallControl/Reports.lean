import AnsweringMachine.CallControl.WellFormed

/-!
# What a call reports

The companion of `Effect` for the outputs.  A listed call that is not silenced reports every state
it enters, and its end by two notifications, `IDLE` and `NULL`; so with timers that start, a handler
with outcome `o` raises exactly `o.report` (`endCall_reports`, `onReleased_reports`, ...).

Two handlers differ.  A call that is answered automatically reports `ACTIVE` twice, because the
state change to `INCOMING` informs the manager after the answer inside it has done so already
(`incomingCall_out`).  A call that a service turns away reports nothing (`turnAway_reports`).
-/

namespace TAM

namespace CCallManager

open Dictionary

variable {m m' m'' : CCallManager} {r : MachineRef} {k : CallId} {o : Outcome}
  {l l' : List Notification}

/-- No service turns calls away. -/
def ServicesOff (cfg : IConfigurator) : Prop :=
  ¬ (cfg.CFUFlag = true ∧ 0 < cfg.CFUNumber.length) ∧ cfg.DNDFlag = false

instance (cfg : IConfigurator) : Decidable (ServicesOff cfg) := inferInstanceAs (Decidable (_ ∧ _))

/-- A call is not ended when its caller is delivered. -/
lemma ServicesOff.ne_gone {cfg : IConfigurator} (hoff : ServicesOff cfg) (count : ℕ)
    (st : IAbstractState) : reactIncoming cfg count st ≠ .gone := by
  simp only [reactIncoming]
  split
  · rw [if_neg (by simp [hoff.1, hoff.2])]
    split_ifs <;> simp
  · simp

/-- The caller of a call that was delivered before. -/
lemma incomingCall_of_delivered (hst : (m.machines r).state ≠ .Idle) (number info : String) :
    m.incomingCall r number info = m := by
  cases hs : (m.machines r).state with
  | Idle => exact absurd hs hst
  | _ => simp only [CCallManager.incomingCall, hs]

/-- The machine `r` is in the table under `k` and reports under that id. -/
structure Listed (m : CCallManager) (k : CallId) (r : MachineRef) : Prop where
  key : m.calls.get? k = some r
  session : (m.machines r).session = some k
  audible : (m.machines r).disableStateNotifications = false

lemma WellFormed.listed (hw : m.WellFormed) (hk : m.calls.get? k = some r) : Listed m k r :=
  ⟨hk, hw.session k r hk, hw.audible k r hk⟩

lemma Listed.stateIdOf (h : Listed m k r) : m.stateIdOf k = (m.machines r).state.id := by
  simp [CCallManager.stateIdOf, h.key]

/-- A listed machine stays so until its call is gone. -/
lemma Listed.effect (h : Listed m k r) (he : Effect m m' r o) (ho : o ≠ .gone) : Listed m' k r where
  key := by
    rw [he.calls]
    cases o with
    | stay => simpa using h.key
    | goto st => simpa using h.key
    | gone => exact absurd rfl ho
  session := he.session.trans h.session
  audible := (he.silent ho).trans h.audible

/-- The same for assignments to other fields. -/
lemma Listed.modify (h : Listed m k r) (f : CStateMachine → CStateMachine)
    (hse : ∀ c, (f c).session = c.session)
    (hs : ∀ c, (f c).disableStateNotifications = c.disableStateNotifications) :
    Listed (m.modify r f) k r :=
  ⟨h.key, by simp [hse, h.session], by simp [hs, h.audible]⟩

/-- `m'` has raised the notifications `l` since `m`. -/
def Reports (m m' : CCallManager) (l : List Notification) : Prop :=
  notifications m'.out = notifications m.out ++ l

lemma Reports.refl (m : CCallManager) : Reports m m [] := by simp [Reports]

lemma Reports.trans (h : Reports m m' l) (h' : Reports m' m'' l') : Reports m m'' (l ++ l') := by
  rw [Reports, h', h, List.append_assoc]

/-- Silent steps before and after. -/
lemma Reports.after (h' : Reports m' m'' l) (h : Reports m m' []) : Reports m m'' l := h.trans h'

lemma Reports.before (h : Reports m m' l) (h' : Reports m' m'' []) : Reports m m'' l := by
  simpa using h.trans h'

lemma modify_reports (m : CCallManager) (r : MachineRef) (f : CStateMachine → CStateMachine) :
    Reports m (m.modify r f) [] := Reports.refl m

lemma request_reports (m : CCallManager) (r : MachineRef) (q : Request) :
    Reports m (m.request r q) [] := by simp [Reports, request]

/-! ## State changes -/

lemma Listed.informManager_out (h : Listed m k r) : (m.informManager r).out =
    m.out ++ [.raise (.CallStateRefresh k (m.machines r).state.id)] := by
  simp [informManager, h.session, h.audible, updateGui, h.stateIdOf]

/-- A state change reports the state the machine is in when the entry is done. -/
lemma Listed.transition_out (h : Listed m k r) (st : IAbstractState)
    (entry : CCallManager → CCallManager) (hentry : ∀ m₁, Effect m m₁ r (.goto st) →
      Effect m₁ (entry m₁) r o) (ho : o ≠ .gone) :
    ∃ m₁, Effect m m₁ r (.goto st) ∧ m₁.out = m.out ∧
      (m.transition r st entry).out = (entry m₁).out ++
        [.raise (.CallStateRefresh k (o.state st).id)] := by
  have h₁ := moved_effect m r st
  have h₂ := hentry _ h₁
  refine ⟨_, h₁, rfl, ?_⟩
  have hst := h₂.state
  rw [h₁.state] at hst
  have hl := (h.effect h₁ (by simp)).effect h₂ ho
  change (informManager _ r).out = _
  rw [hl.informManager_out, hst]
  rfl

lemma Listed.changeStatePlain_out (h : Listed m k r) (st : IAbstractState) :
    (m.changeStatePlain r st).out = m.out ++ [.raise (.CallStateRefresh k st.id)] := by
  obtain ⟨m₁, -, hout, heq⟩ := h.transition_out (o := .stay) st
    (fun m => m.modify r fun c => c.onEntry st)
    (fun m₁ _ => by refine modify_effect m₁ r ?_ ?_ ?_ ?_ <;> intro c <;> cases st <;> rfl)
    (by simp)
  rw [changeStatePlain, heq, modify_out, hout]
  rfl

lemma Listed.changeStatePlain_reports (h : Listed m k r) (st : IAbstractState) :
    Reports m (m.changeStatePlain r st) [.CallStateRefresh k st.id] := by
  simp [Reports, h.changeStatePlain_out]

/-- With a timer that starts, entering an ending state is a plain change. -/
lemma Listed.changeStateEnding_reports (h : Listed m k r) (ht : m.around.factory.timersRun = true)
    (st : IAbstractState) :
    Reports m (m.changeStateEnding r st) [.CallStateRefresh k st.id] := by
  have hentry : ∀ m₁, Effect m m₁ r (.goto st) → Effect m₁
      (if m₁.around.factory.timersRun then m₁.startTimer r .ERELEASED
        else (m₁.startTimer r .ERELEASED).destroy r) r .stay := by
    intro m₁ h₁
    rw [h₁.around, if_pos ht]
    exact startTimer_effect m₁ r _
  obtain ⟨m₁, h₁, hout, heq⟩ := h.transition_out st _ hentry (by simp)
  rw [h₁.around, if_pos ht] at heq
  have hout' : (m.changeStateEnding r st).out = m.out ++ [.raise (.CallStateRefresh k st.id)] := by
    rw [← hout]
    exact heq
  simp [Reports, hout']

/-- A machine that leaves the table is found there for the last time, and its absence is
reported. -/
lemma Listed.destroySession_reports (h : Listed m k r) :
    Reports m (m.destroySession (m.machines r).session) [.CallStateRefresh k .NULL] := by
  rw [h.session]
  simp [destroySession, Reports, h.key, h.audible, updateGui, CCallManager.stateIdOf]

/-- Closing a call writes the log and notifies nobody. -/
lemma closing_reports (m : CCallManager) (r : MachineRef) : Reports m (m.closing r) [] := by
  refine Reports.before ?_ (modify_reports _ r _)
  unfold updateCallLog
  dsimp only
  split_ifs
  · simp [Reports, calculateTiming]
  · exact Reports.refl m

/-- **A call that ends reports `IDLE`, then `NULL`.** -/
lemma Listed.destroy_reports (h : Listed m k r) :
    Reports m (m.destroy r) [.CallStateRefresh k .IDLE, .CallStateRefresh k .NULL] := by
  have hidle : Reports m ((m.closing r).changeStatePlain r .Idle) [.CallStateRefresh k .IDLE] :=
    ((h.effect (closing_effect m r) (by simp)).changeStatePlain_reports .Idle).after
      (closing_reports m r)
  exact hidle.trans (h.effect (toIdle_effect m r) (by simp)).destroySession_reports

/-! ## Handlers -/

section Handlers

variable (h : Listed m k r)

include h

lemma Listed.acceptCall_out (hst : (m.machines r).state = .Incoming) :
    (m.acceptCall r).out = m.out ++
    [.request (some k) .acceptCall, .raise (.CallStateRefresh k .ACTIVE)] := by
  have hl := h.modify (fun c => { c with type := .EReceived, time := m.around.now })
    (fun _ => rfl) fun _ => rfl
  have hout := (hl.effect (request_effect _ r .acceptCall) (by simp)).changeStatePlain_out .Active
  simp only [CCallManager.acceptCall, hst]
  rw [hout]
  simp [request, h.session, IAbstractState.id]

lemma Listed.ring_out : (m.ring r).out = m.out ++ [.request (some k) .alerted] := by
  have hses : (((m.modify r fun c => { c with incoming := true }).startTimer r
      .ENORESPONSE).machines r).session = some k := by
    simp [startTimer, CStateMachine.startTimer, h.session]
  simp only [ring]
  simp only [request, hses]
  split_ifs <;> rfl

lemma Listed.releasedTimerExpired_reports : Reports m (m.releasedTimerExpired r)
    ((react m.around.factory .releasedTimerExpired (m.machines r).state).report k) := by
  simp only [releasedTimerExpired]
  cases hst : (m.machines r).state <;> simp only [react, Outcome.report]
  case Released => exact h.destroy_reports
  case Terminated => exact h.destroy_reports
  all_goals exact Reports.refl m

section Automaton

variable (ht : m.around.factory.timersRun = true)

include ht

lemma Listed.endCall_reports : Reports m (m.endCall r)
    ((react m.around.factory .endCall (m.machines r).state).report k) := by
  have hterm : ∀ m₁ : CCallManager, Listed m₁ k r → m₁.around.factory.timersRun = true →
      Reports m₁ ((m₁.changeState r .Terminated).request r .endCall)
        [.CallStateRefresh k .TERMINATED] :=
    fun m₁ h₁ ht₁ => (h₁.changeStateEnding_reports ht₁ .Terminated).before (request_reports _ r _)
  have hreq := request_effect m r .endCall
  simp only [endCall]
  cases hst : (m.machines r).state <;> simp only [react, ending, ht, if_true, Outcome.report]
  case Idle => exact h.destroy_reports.before (request_reports _ r _)
  case Released =>
    exact (h.effect hreq (by simp)).destroy_reports.after (request_reports m r _)
  case Terminated => exact request_reports m r _
  case Active =>
    have hl := h.modify (fun c => { c with duration := m.around.now - c.time }) (fun _ => rfl)
      fun _ => rfl
    exact (hterm _ hl ht).after (modify_reports m r _)
  case Holding =>
    exact ((h.effect hreq (by simp)).changeStateEnding_reports ht .Terminated).after
      (request_reports m r _)
  all_goals exact hterm m h ht

lemma Listed.onReleased_reports : Reports m (m.onReleased r)
    ((react m.around.factory .onReleased (m.machines r).state).report k) := by
  simp only [onReleased]
  cases hst : (m.machines r).state <;> simp only [react, ending, ht, if_true, Outcome.report]
  case Idle => exact Reports.refl m
  case Released => exact h.destroy_reports
  case Terminated => exact h.destroy_reports
  all_goals exact h.changeStateEnding_reports ht .Released

lemma Listed.noResponseTimerExpired_reports : Reports m (m.noResponseTimerExpired r)
    ((react m.around.factory .noResponseTimerExpired (m.machines r).state).report k) := by
  simp only [noResponseTimerExpired]
  cases hst : (m.machines r).state <;> simp only [react, ending, ht, if_true, Outcome.report]
  case Incoming =>
    exact (h.changeStateEnding_reports ht .Terminated).before (request_reports _ r _)
  all_goals exact Reports.refl m

/-- A timer reports what its callback does. -/
lemma Listed.timerElapsed_reports (t : ETimerType) : Reports m (m.timerElapsed r t)
    ((if (m.machines r).running t then reactTimer m.around.factory t (m.machines r).state
      else .stay).report k) := by
  have hstop := stopTimer_effect m r t
  have hl := h.effect hstop (by simp)
  simp only [timerElapsed]
  split_ifs
  · have hst : ((m.modify r fun c => c.stopTimer t).machines r).state = (m.machines r).state :=
      hstop.state
    cases t with
    | ENOREPLY =>
        simp only [noReplyTimerExpired, reactTimer]
        split
        · exact request_reports _ r _
        · exact Reports.refl m
    | ERELEASED =>
        have hr := hl.releasedTimerExpired_reports
        rw [hst] at hr
        exact hr
    | ENORESPONSE =>
        have hr := hl.noResponseTimerExpired_reports ht
        rw [hst] at hr
        exact hr
  · exact Reports.refl m

end Automaton

lemma Listed.acceptCall_reports : Reports m (m.acceptCall r)
    ((react m.around.factory .acceptCall (m.machines r).state).report k) := by
  cases hst : (m.machines r).state
  case Incoming => simp [Reports, h.acceptCall_out hst, notifications, react, Outcome.report,
    IAbstractState.id]
  all_goals simp [acceptCall, hst, react, Outcome.report, Reports.refl]

lemma Listed.onAlerting_reports : Reports m (m.onAlerting r)
    ((react m.around.factory .onAlerting (m.machines r).state).report k) := by
  simp only [onAlerting]
  cases hst : (m.machines r).state <;> simp only [react, Outcome.report]
  case Connecting => exact h.changeStatePlain_reports .Alerting
  case Terminated => exact request_reports m r _
  all_goals exact Reports.refl m

lemma Listed.onConnect_reports : Reports m (m.onConnect r)
    ((react m.around.factory .onConnect (m.machines r).state).report k) := by
  simp only [onConnect]
  cases hst : (m.machines r).state <;> simp only [react, Outcome.report]
  case Connecting => exact h.changeStatePlain_reports .Active
  case Alerting =>
    have hl := h.modify (fun c => { c with time := m.around.now }) (fun _ => rfl) fun _ => rfl
    exact (hl.changeStatePlain_reports .Active).after (modify_reports m r _)
  case Terminated => exact request_reports m r _
  all_goals exact Reports.refl m

/-- **Everything a new call causes that no service turns away.** -/
lemma Listed.incomingCall_out (hst : (m.machines r).state = .Idle) (number info : String)
    (hoff : ServicesOff m.around.config) : (m.incomingCall r number info).out = m.out ++
      [.request (some k) .alerted] ++
      (if m.around.config.AAFlag ∧ m.calls.count = 1 then
        [.request (some k) .acceptCall, .raise (.CallStateRefresh k .ACTIVE),
          .raise (.CallStateRefresh k .ACTIVE)]
      else [.raise (.CallStateRefresh k .INCOMING)]) := by
  set m₀ := m.modify r fun c => { c with callingNumber := number, callingName := info } with hm₀
  have h₀ : Listed m₀ k r := h.modify _ (fun _ => rfl) fun _ => rfl
  have hcall : m.incomingCall r number info = m₀.changeStateIncoming r := by
    simp only [incomingCall, hst, hoff.1, hoff.2, if_false]
    rfl
  rw [hcall, changeStateIncoming]
  by_cases haa : m.around.config.AAFlag ∧ m.calls.count = 1
  · have hentry : ∀ m₁, Effect m₀ m₁ r (.goto .Incoming) → Effect m₁
        (if (m₁.ring r).around.config.AAFlag ∧ (m₁.ring r).calls.count = 1 then
          (m₁.ring r).acceptCall r else m₁.ring r) r (.goto .Active) := by
      intro m₁ h₁
      have hr := ring_effect m₁ r
      rw [hr.around, h₁.around, hr.calls, h₁.calls, Outcome.stay_table, Outcome.goto_table,
        if_pos (by exact haa)]
      have hacc := acceptCall_effect (m₁.ring r) r
      rw [hr.state, h₁.state] at hacc
      exact hacc.after hr
    obtain ⟨m₁, h₁, hout, heq⟩ := h₀.transition_out .Incoming _ hentry (by simp)
    have hr := ring_effect m₁ r
    have hl₁ := h₀.effect h₁ (by simp)
    have hstr : ((m₁.ring r).machines r).state = .Incoming := hr.state.trans h₁.state
    rw [heq, hr.around, h₁.around, hr.calls, h₁.calls, Outcome.stay_table, Outcome.goto_table,
      if_pos (by exact haa), (hl₁.effect hr (by simp)).acceptCall_out hstr, hl₁.ring_out, hout,
      if_pos haa]
    simp [hm₀, IAbstractState.id]
  · have hentry : ∀ m₁, Effect m₀ m₁ r (.goto .Incoming) → Effect m₁
        (if (m₁.ring r).around.config.AAFlag ∧ (m₁.ring r).calls.count = 1 then
          (m₁.ring r).acceptCall r else m₁.ring r) r .stay := by
      intro m₁ h₁
      have hr := ring_effect m₁ r
      rw [hr.around, h₁.around, hr.calls, h₁.calls, Outcome.stay_table, Outcome.goto_table,
        if_neg (by exact haa)]
      exact hr
    obtain ⟨m₁, h₁, hout, heq⟩ := h₀.transition_out .Incoming _ hentry (by simp)
    have hr := ring_effect m₁ r
    rw [heq, hr.around, h₁.around, hr.calls, h₁.calls, Outcome.stay_table, Outcome.goto_table,
      if_neg (by exact haa), (h₀.effect h₁ (by simp)).ring_out, hout, if_neg haa]
    simp [hm₀, IAbstractState.id]

end Handlers

/-! ## Calls that are turned away -/

/-- A silenced machine goes to idle without a word. -/
lemma changeStatePlain_silently (hs : (m.machines r).disableStateNotifications = true) :
    (m.changeStatePlain r .Idle).out = m.out := by
  have hmoved := (moved_effect m r .Idle).silent (by simp)
  rw [hs] at hmoved
  unfold changeStatePlain transition informManager
  simp only [CStateMachine.onEntry, modify_self] at hmoved ⊢
  rw [hmoved]
  split <;> rfl

/-- It leaves the table without a word. -/
lemma destroySession_silently (hk : m.calls.get? k = some r)
    (hs : (m.machines r).disableStateNotifications = true) :
    (m.destroySession (some k)).out = m.out := by
  simp only [destroySession, hk, hs, if_true]

/-- All that a silenced machine found in the table says at its end is what it writes to the log. -/
lemma destroy_silently (hk : m.calls.get? k = some r) (hses : (m.machines r).session = some k)
    (hs : (m.machines r).disableStateNotifications = true) :
    (m.destroy r).out = (m.closing r).out ∧
      ((m.destroy r).machines r).disableStateNotifications = true := by
  have hidle := toIdle_effect m r
  have hsil := (hidle.silent (by simp)).trans hs
  have hout : ((m.closing r).changeStatePlain r .Idle).out = (m.closing r).out :=
    changeStatePlain_silently (((closing_effect m r).silent (by simp)).trans hs)
  have hkey : ((m.closing r).changeStatePlain r .Idle).calls.get? k = some r := by
    rw [hidle.calls]
    simpa using hk
  have heq : m.destroy r = ((m.closing r).changeStatePlain r .Idle).destroySession (some k) := by
    rw [← hses, ← hidle.session]
    rfl
  rw [heq, destroySession_machines, destroySession_silently hkey hsil]
  exact ⟨hout, hsil⟩

/-- A call that is not to be logged is closed without an entry. -/
lemma closing_out (hlog : logged (m.machines r) = false) : (m.closing r).out = m.out := by
  have hsame : logged (((m.modify r CStateMachine.stopAllTimers).calculateTiming r).machines r) =
      logged (m.machines r) := by
    simp only [calculateTiming, modify_self]
    split_ifs <;> rfl
  simp only [closing, modify_out, updateCallLog, hsame, hlog]
  rfl

/-- The call is silenced, the service is requested, and it ends. -/
lemma Listed.turnAway_out (h : Listed m k r) (hst : (m.machines r).state = .Idle)
    (code : EServiceCodes) (dest : String) :
    (m.turnAway r code dest).out =
      (((m.modify r fun c => { c with disableStateNotifications := true }).request r
        (.serviceRequest code dest)).closing r).out ++ [.request (some k) .endCall] ∧
      ((m.turnAway r code dest).machines r).disableStateNotifications = true := by
  set m₁ := (m.modify r fun c => { c with disableStateNotifications := true }).request r
    (.serviceRequest code dest) with hm₁
  have hidle : (m₁.machines r).state = .Idle := by simpa [hm₁, request] using hst
  have hses : (m₁.machines r).session = some k := by simpa [hm₁, request] using h.session
  obtain ⟨hout, hsil⟩ := destroy_silently (m := m₁) (k := k) (r := r) h.key hses
    (by simp [hm₁, request])
  have heq : m.turnAway r code dest = (m₁.destroy r).request r .endCall := by
    change m₁.endCall r = _
    simp only [endCall, hidle]
  rw [heq, request, emit_out, hout, (destroy_effect m₁ r).session, hses]
  exact ⟨rfl, hsil⟩

/-- The service that turns a call away: forwarding goes before not being disturbed. -/
def turningService (cfg : IConfigurator) : EServiceCodes × String :=
  if cfg.CFUFlag ∧ 0 < cfg.CFUNumber.length then (.SC_CFU, cfg.CFUNumber) else (.SC_DND, "")

/-- One of the two services turns the call away. -/
lemma incomingCall_eq_turnAway (hidle : (m.machines r).state = .Idle)
    (hon : ¬ ServicesOff m.around.config) (number info : String) :
    m.incomingCall r number info =
      m.turnAway r (turningService m.around.config).1 (turningService m.around.config).2 := by
  simp only [incomingCall, hidle, turningService]
  by_cases hcfu : m.around.config.CFUFlag = true ∧ 0 < m.around.config.CFUNumber.length
  · rw [if_pos hcfu, if_pos hcfu]
  · have hdnd : m.around.config.DNDFlag = true := by
      by_contra hd
      exact hon ⟨hcfu, by simpa using hd⟩
    rw [if_neg hcfu, if_neg hcfu, if_pos hdnd]

/-- **A call that is turned away reports nothing**, and is not to be reported afterwards. -/
lemma Listed.turnAway_reports (h : Listed m k r) (hst : (m.machines r).state = .Idle)
    (code : EServiceCodes) (dest : String) : Reports m (m.turnAway r code dest) [] ∧
      ((m.turnAway r code dest).machines r).disableStateNotifications = true := by
  obtain ⟨hout, hsil⟩ := h.turnAway_out hst code dest
  have hrep := (closing_reports ((m.modify r fun c =>
    { c with disableStateNotifications := true }).request r (.serviceRequest code dest)) r).after
      (request_reports _ r _)
  refine ⟨?_, hsil⟩
  rw [Reports, hout, notifications_append, hrep]
  simp

end CCallManager

end TAM
