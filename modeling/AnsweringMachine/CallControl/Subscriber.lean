import AnsweringMachine.CallControl.Conversation
import AnsweringMachine.CallControl.Reports

/-!
# What a subscriber of the manager can rely on

Abstractly the call table is a `View`: for each id the state of its call, or nothing.  A subscriber
keeps a state of its own, updates it at each notification, and wants it to agree with the view.  It
never looks at machines, sessions or timers, so what has to be known about the manager is how the
view and the notifications change together.

`Answerer` is the invariant of a manager that only takes calls, as the one of an answering machine
does.  For such a manager each event is one of these:

* signals to calls, one after the other, each of which `Moves` the view and is reported as
  `Outcome.report` says;
* a new call that enters the view as idle, or leaves it as idle, without a notification;
* the delivery of a caller, which makes a call ring and is told in full by `incomingCall_cases`.

`Answerer.handle` says what follows for a subscriber that keeps up with reports
(`Subscriber.Lawful`), and is the step lemma of everything said about the application later on.
-/

namespace TAM

/-! ## The abstract table -/

/-- For each id the state of its call. -/
abbrev View := CallId → Option IAbstractState

/-- What is left in the view of a call after an outcome. -/
def Outcome.result : Outcome → IAbstractState → Option IAbstractState
  | .gone, _ => none
  | o, st => some (o.state st)

/-- The moves of a call that was taken. -/
def Moves : IAbstractState → Outcome → Prop
  | _, .stay => True
  | .Incoming, .goto .Active | .Holding, .goto .Active | .Active, .goto .Holding => True
  | .Incoming, .goto .Released | .Active, .goto .Released | .Holding, .goto .Released => True
  | .Incoming, .goto .Terminated | .Active, .goto .Terminated | .Holding, .goto .Terminated => True
  | .Idle, .gone | .Released, .gone | .Terminated, .gone => True
  | _, _ => False

/-- **Every signal makes one of these moves**, if timers start. -/
lemma moves_react {f : AbstractFactory} (hf : f.timersRun = true) {st : IAbstractState}
    (hst : st ≠ .Connecting ∧ st ≠ .Alerting) (sig : Signal) : Moves st (react f sig st) := by
  cases sig <;> cases st <;> simp_all [react, ending, Moves]

lemma Moves.target {st st' : IAbstractState} (h : Moves st (.goto st')) :
    st' ≠ .Connecting ∧ st' ≠ .Alerting := by
  constructor <;> rintro rfl <;> cases st <;> exact h

/-- A subscriber: how it takes notifications, and when it agrees with the table. -/
structure Subscriber (σ : Type*) where
  notify : σ → Notification → σ
  agrees : View → σ → Prop

/-- The subscriber keeps up with what calls report, and does not miss an idle call. -/
structure Subscriber.Lawful {σ : Type*} (s : Subscriber σ) : Prop where
  report : ∀ {v : View} {k : CallId} {st : IAbstractState} {o : Outcome} {p : σ}, v k = some st →
    Moves st o → s.agrees v p →
    s.agrees (Function.update v k (o.result st)) ((o.report k).foldl s.notify p)
  disappears : ∀ {v : View} {k : CallId} {p : σ}, v k = some .Idle → s.agrees v p →
    s.agrees (Function.update v k none) p

namespace CCallManager

open Dictionary

variable {σ : Type*} {s : Subscriber σ} {m m' m'' : CCallManager} {r : MachineRef} {k : CallId}
  {o : Outcome} {l : List Notification}

/-- The view of the call table. -/
def view (m : CCallManager) : View := fun k => (m.calls.get? k).map fun r => (m.machines r).state

lemma view_of_listed (h : m.calls.get? k = some r) : m.view k = some (m.machines r).state := by
  simp [view, h]

lemma view_of_absent (h : m.calls.get? k = none) : m.view k = none := by simp [view, h]

lemma view_eq_some {st : IAbstractState} (h : m.view k = some st) :
    ∃ r, m.calls.get? k = some r ∧ (m.machines r).state = st := by
  simpa [view, Option.map_eq_some_iff] using h

/-- Changes of other fields are not seen. -/
lemma view_congr (hc : ∀ k, m'.calls.get? k = m.calls.get? k)
    (hst : ∀ r, (m'.machines r).state = (m.machines r).state) : m'.view = m.view := by
  funext k
  simp only [view, hc, hst]

/-- **The effect of a handler of a listed machine, in the view.** -/
lemma WellFormed.view_effect (hw : m.WellFormed) (hk : m.calls.get? k = some r)
    (he : Effect m m' r o) :
    m'.view = Function.update m.view k (o.result (m.machines r).state) := by
  have hses := hw.session k r hk
  funext j
  by_cases hj : j = k
  · subst hj
    rw [Function.update_self]
    cases o with
    | stay => simp [view, he.calls, hk, he.state, Outcome.result]
    | goto st => simp [view, he.calls, hk, he.state, Outcome.result]
    | gone => simp [view, he.calls, hses, Outcome.result]
  · rw [Function.update_of_ne hj]
    have hget : m'.calls.get? j = m.calls.get? j := by
      rw [he.calls, hses]
      cases o <;> simp [hj]
    simp only [view, hget]
    refine Option.map_congr fun x hx => ?_
    have hxr : x ≠ r := by
      rintro rfl
      exact hj (hw.key_unique hx hk)
    rw [he.others x hxr]

/-! ## Keeping up -/

/-- A subscriber that agreed with `m` and took the notifications since agrees with `m'`. -/
def Carries (s : Subscriber σ) (m m' : CCallManager) : Prop :=
  ∃ l, Reports m m' l ∧ ∀ p, s.agrees m.view p → s.agrees m'.view (l.foldl s.notify p)

lemma Carries.trans (h : Carries s m m') (h' : Carries s m' m'') : Carries s m m'' := by
  obtain ⟨l, hl, hp⟩ := h
  obtain ⟨l', hl', hp'⟩ := h'
  refine ⟨l ++ l', hl.trans hl', fun p hm => ?_⟩
  rw [List.foldl_append]
  exact hp' _ (hp p hm)

/-- Nothing is notified, and nothing is seen. -/
lemma Carries.silent (hout : Reports m m' []) (hview : m'.view = m.view) : Carries s m m' :=
  ⟨[], hout, fun p hp => by rw [hview]; exact hp⟩

lemma Carries.refl (m : CCallManager) : Carries s m m := .silent (Reports.refl m) rfl

/-- A handler that reports its outcome. -/
lemma Carries.effect (hs : s.Lawful) (hw : m.WellFormed) (hk : m.calls.get? k = some r)
    (he : Effect m m' r o) (hrep : Reports m m' (o.report k))
    (hmove : Moves (m.machines r).state o) : Carries s m m' := by
  refine ⟨o.report k, hrep, fun p hp => ?_⟩
  rw [hw.view_effect hk he]
  exact hs.report (view_of_listed hk) hmove hp

/-! ## A manager that only takes calls -/

/-- The events of an answering machine: those of the stack and of timers, a new configuration, and
the two requests the machine makes. -/
def Event.answering : Event → Bool
  | .onUserRelease _ | .onUserAnswer _ | .callStateChanged _ _ | .callIncoming _ _ _
  | .holdConfirm _ | .timerElapsed _ _ | .surroundings _ => true
  | _ => false

/-- A manager that only takes calls: no machine dials, only listed machines are busy, timers start,
and what waits for a hold is an answer. -/
structure Answerer (m : CCallManager) : Prop where
  wellFormed : m.WellFormed
  timers : m.around.factory.timersRun = true
  taking : ∀ r, (m.machines r).state ≠ .Connecting ∧ (m.machines r).state ≠ .Alerting
  busy : ∀ r, (m.machines r).state ≠ .Idle → ∃ k, m.calls.get? k = some r
  pending : ∀ p, m.pendingAction = some p → ∃ s, p = .EUserAnswer s

/-! ## Where machines do not go -/

/-- The states in which a call waits to be destroyed. -/
def Ending (st : IAbstractState) : Prop := st = .Released ∨ st = .Terminated

/-- The machine is idle, and out of the table. -/
def Gone (m : CCallManager) (r : MachineRef) : Prop :=
  (m.machines r).state = .Idle ∧ ∀ k, m.calls.get? k ≠ some r

/-- The machines of `m` keep their sessions on the way to `m'`; one that waits to be destroyed goes
on waiting or becomes idle, one that becomes idle leaves the table, and none that has left comes
back. -/
structure Onward (m m' : CCallManager) : Prop where
  created : m.created ≤ m'.created
  session : ∀ r < m.created, (m'.machines r).session = (m.machines r).session
  idle : ∀ r < m.created, (m.machines r).state ≠ .Idle → (m'.machines r).state = .Idle → m'.Gone r
  ending : ∀ r < m.created, Ending (m.machines r).state →
    (m'.machines r).state = (m.machines r).state ∨ (m'.machines r).state = .Idle
  gone : ∀ r < m.created, m.Gone r → m'.Gone r

lemma Ending.ne_idle {st : IAbstractState} (h : Ending st) : st ≠ .Idle := by
  rcases h with rfl | rfl <;> simp

/-- States, sessions and table are as they were. -/
lemma Onward.of_same (hcr : m'.created = m.created)
    (hc : ∀ k, m'.calls.get? k = m.calls.get? k)
    (hse : ∀ r, (m'.machines r).session = (m.machines r).session)
    (hst : ∀ r, (m'.machines r).state = (m.machines r).state) : Onward m m' where
  created := hcr.ge
  session r _ := hse r
  idle r _ hne hidle := absurd ((hst r).symm.trans hidle) hne
  ending r _ _ := .inl (hst r)
  gone r _ hgone := ⟨(hst r).trans hgone.1, fun k => by rw [hc]; exact hgone.2 k⟩

lemma Onward.refl (m : CCallManager) : Onward m m :=
  .of_same rfl (fun _ => rfl) (fun _ => rfl) fun _ => rfl

lemma Onward.trans (h : Onward m m') (h' : Onward m' m'') : Onward m m'' where
  created := h.created.trans h'.created
  session r hr := (h'.session r (hr.trans_le h.created)).trans (h.session r hr)
  idle r hr hne hidle := by
    have hr' := hr.trans_le h.created
    by_cases hmid : (m'.machines r).state = .Idle
    · exact h'.gone r hr' (h.idle r hr hne hmid)
    · exact h'.idle r hr' hmid hidle
  ending r hr hend := by
    have hr' := hr.trans_le h.created
    rcases h.ending r hr hend with hsame | hidle
    · rw [← hsame] at hend ⊢
      exact h'.ending r hr' hend
    · exact .inr (h'.gone r hr' (h.idle r hr hend.ne_idle hidle)).1
  gone r hr hgone := h'.gone r (hr.trans_le h.created) (h.gone r hr hgone)

/-- The handlers of a machine add nothing to the table. -/
lemma Effect.listed_before (he : Effect m m' r o) {j : CallId} {x : MachineRef}
    (hj : m'.calls.get? j = some x) : m.calls.get? j = some x := by
  rw [he.calls] at hj
  cases o with
  | gone =>
      cases hse : (m.machines r).session with
      | none => simpa [Outcome.table, hse] using hj
      | some k =>
          simp only [hse, Outcome.gone_table, get?_remove] at hj
          split_ifs at hj
          exact hj
  | _ => simpa using hj

/-- **A handler of a listed machine** that moves no call which waits to be destroyed, and makes none
idle that it leaves in the table. -/
lemma Onward.effect (hw : m.WellFormed) (hk : m.calls.get? k = some r) (he : Effect m m' r o)
    (hend : Ending (m.machines r).state → o = .stay ∨ o = .gone) (ho : o ≠ .goto .Idle) :
    Onward m m' := by
  have hgone : o = .gone → m'.Gone r := by
    rintro rfl
    refine ⟨he.state, fun j hj => ?_⟩
    obtain rfl := hw.key_unique (he.listed_before hj) hk
    simp [he.calls, hw.session j r hk] at hj
  refine ⟨he.created.ge, fun x _ => ?_, fun x _ hne hidle => ?_, fun x _ hx => ?_,
    fun x _ hx => ?_⟩
  · by_cases hxr : x = r
    · rw [hxr]; exact he.session
    · rw [he.others x hxr]
  · by_cases hxr : x = r
    · subst hxr
      rw [he.state] at hidle
      cases o with
      | stay => exact absurd hidle hne
      | goto st => exact absurd (congrArg _ hidle) ho
      | gone => exact hgone rfl
    · rw [he.others x hxr] at hidle
      exact absurd hidle hne
  · by_cases hxr : x = r
    · subst hxr
      rw [he.state]
      rcases hend hx with rfl | rfl
      · exact .inl rfl
      · exact .inr rfl
    · exact .inl (by rw [he.others x hxr])
  · have hxr : x ≠ r := by
      rintro rfl
      exact hx.2 k hk
    exact ⟨by rw [he.others x hxr]; exact hx.1, fun j hj => hx.2 j (he.listed_before hj)⟩

/-- What `Moves` allows. -/
lemma onward_of_moves {st : IAbstractState} (h : Moves st o) :
    (Ending st → o = .stay ∨ o = .gone) ∧ o ≠ .goto .Idle := by
  refine ⟨fun hend => ?_, ?_⟩
  · rcases hend with rfl | rfl <;> cases o with
    | goto st' => cases st' <;> exact absurd h (by simp [Moves])
    | _ => simp
  · rintro rfl
    cases st <;> exact h

/-- The step to `m'` keeps the manager an answerer, the subscriber up to date, and its machines on
their way. -/
structure Step (s : Subscriber σ) (m m' : CCallManager) : Prop where
  answerer : m'.Answerer
  carries : Carries s m m'
  onward : Onward m m'

lemma Answerer.stays (h : m.Answerer) : Step s m m := ⟨h, .refl m, .refl m⟩

lemma Step.trans (h : Step s m m') (h' : Step s m' m'') : Step s m m'' :=
  ⟨h'.answerer, h.carries.trans h'.carries, h.onward.trans h'.onward⟩

namespace Answerer

lemma initial {around : Surroundings} (h : around.factory.timersRun = true) :
    (CCallManager.initial around).Answerer where
  wellFormed := .initial around
  timers := h
  taking _ := by simp [CCallManager.initial]
  busy _ h := absurd rfl h
  pending _ h := by simp [CCallManager.initial] at h

/-- Changes that leave states, table and surroundings alone. -/
lemma congr (h : m.Answerer) (hw : m'.WellFormed) (ha : m'.around = m.around)
    (hst : ∀ r, (m'.machines r).state = (m.machines r).state)
    (hc : ∀ k, m'.calls.get? k = m.calls.get? k)
    (hp : ∀ p, m'.pendingAction = some p → ∃ s, p = .EUserAnswer s) : m'.Answerer where
  wellFormed := hw
  timers := by rw [ha]; exact h.timers
  taking r := by rw [hst]; exact h.taking r
  busy r hr := by
    simp only [hc]
    exact h.busy r (by rw [← hst]; exact hr)
  pending := hp

/-- The outputs do not matter. -/
lemma cleared (h : m.Answerer) : Answerer { m with out := [] } :=
  h.congr h.wellFormed.cleared rfl (fun _ => rfl) (fun _ => rfl) h.pending

/-- The handlers of listed machines. -/
lemma effect (h : m.Answerer) (hk : m.calls.get? k = some r) (he : Effect m m' r o)
    (ho : ∀ st, o = .goto st → st ≠ .Connecting ∧ st ≠ .Alerting) : m'.Answerer where
  wellFormed := h.wellFormed.effect he
  timers := by rw [he.around]; exact h.timers
  taking x := by
    by_cases hx : x = r
    · subst hx
      rw [he.state]
      cases o with
      | stay => exact h.taking x
      | goto st => exact ho st rfl
      | gone => simp
    · rw [he.others x hx]
      exact h.taking x
  busy x hst := by
    by_cases hx : x = r
    · subst hx
      rw [he.state] at hst
      cases o with
      | stay => exact ⟨k, by rw [he.calls]; simpa using hk⟩
      | goto st => exact ⟨k, by rw [he.calls]; simpa using hk⟩
      | gone => simp at hst
    · rw [he.others x hx] at hst
      obtain ⟨j, hj⟩ := h.busy x hst
      have hjk : j ≠ k := by
        rintro rfl
        rw [hj, Option.some.injEq] at hk
        exact hx hk
      refine ⟨j, ?_⟩
      rw [he.calls, h.wellFormed.session k r hk]
      cases o <;> simpa [hjk] using hj
  pending p hp := h.pending p (by rw [← he.pending]; exact hp)

/-- A change that nobody notices. -/
lemma unnoticed (h : m.Answerer) (hw : m'.WellFormed) (ha : m'.around = m.around)
    (hcr : m'.created = m.created) (hc : ∀ k, m'.calls.get? k = m.calls.get? k)
    (hse : ∀ r, (m'.machines r).session = (m.machines r).session)
    (hst : ∀ r, (m'.machines r).state = (m.machines r).state)
    (hp : ∀ p, m'.pendingAction = some p → ∃ s, p = .EUserAnswer s) (hout : Reports m m' []) :
    Step s m m' :=
  ⟨h.congr hw ha hst hc hp, .silent hout (view_congr hc hst), .of_same hcr hc hse hst⟩

/-- An effect after which the machine is where it was, and nobody was told otherwise. -/
lemma remains (h : m.Answerer) (he : Effect m m' r o)
    (hst : o.state (m.machines r).state = (m.machines r).state)
    (hc : ∀ k, m'.calls.get? k = m.calls.get? k) (hout : Reports m m' []) : Step s m m' := by
  refine h.unnoticed (h.wellFormed.effect he) he.around he.created hc (fun x => ?_) (fun x => ?_)
    (fun p hp => h.pending p (by rw [← he.pending]; exact hp)) hout
  · by_cases hx : x = r
    · rw [hx]; exact he.session
    · rw [he.others x hx]
  · by_cases hx : x = r
    · rw [hx, he.state, hst]
    · rw [he.others x hx]

/-- **A listed machine moves, and reports it.** -/
lemma moved (hs : s.Lawful) (h : m.Answerer) (hk : m.calls.get? k = some r) (he : Effect m m' r o)
    (hrep : Reports m m' (o.report k)) (hmove : Moves (m.machines r).state o) : Step s m m' :=
  ⟨h.effect hk he fun _ ho => Moves.target (ho ▸ hmove),
    Carries.effect hs h.wellFormed hk he hrep hmove,
    .effect h.wellFormed hk he (onward_of_moves hmove).1 (onward_of_moves hmove).2⟩

/-! ## Signals -/

/-- **One signal to a listed machine.** -/
lemma signal (hs : s.Lawful) (h : m.Answerer) (hk : m.calls.get? k = some r) {sig : Signal}
    (he : Effect m m' r (react m.around.factory sig (m.machines r).state))
    (hrep : Reports m m' ((react m.around.factory sig (m.machines r).state).report k)) :
    Step s m m' :=
  h.moved hs hk he hrep (moves_react h.timers (h.taking r) sig)

/-- A timer of a machine outside the table: the machine is idle, and nothing happens. -/
lemma timerElapsed_idle (h : m.Answerer) (hst : (m.machines r).state = .Idle) (t : ETimerType) :
    Step s m (m.timerElapsed r t) := by
  have he := timerElapsed_effect m r t
  have hstay : (if (m.machines r).running t then reactTimer m.around.factory t (m.machines r).state
      else .stay) = .stay := by
    rw [hst]
    cases t <;> simp [reactTimer, react]
  rw [hstay] at he
  have hcalls : (m.timerElapsed r t).calls = m.calls := by rw [he.calls]; simp
  have hout : (m.timerElapsed r t).out = m.out := by
    simp only [CCallManager.timerElapsed]
    split_ifs
    · cases t <;> simp [noReplyTimerExpired, releasedTimerExpired, noResponseTimerExpired,
        CStateMachine.stopTimer, hst]
    · rfl
  exact h.remains he rfl (fun _ => by rw [hcalls]) (by simp [Reports, hout])

lemma timerElapsed (hs : s.Lawful) (h : m.Answerer) (r : MachineRef) (t : ETimerType) :
    Step s m (m.timerElapsed r t) := by
  by_cases hst : (m.machines r).state = .Idle
  · exact h.timerElapsed_idle hst t
  obtain ⟨k, hk⟩ := h.busy r hst
  have hmove : Moves (m.machines r).state (if (m.machines r).running t then
      reactTimer m.around.factory t (m.machines r).state else .stay) := by
    split_ifs
    · cases t with
      | ENOREPLY => cases (m.machines r).state <;> trivial
      | ERELEASED => exact moves_react h.timers (h.taking r) .releasedTimerExpired
      | ENORESPONSE => exact moves_react h.timers (h.taking r) .noResponseTimerExpired
    · cases (m.machines r).state <;> trivial
  exact h.moved hs hk (timerElapsed_effect m r t)
    ((h.wellFormed.listed hk).timerElapsed_reports h.timers t) hmove

/-- Asking for a hold and queueing an answer is not noticed. -/
lemma queueAnswer (h : m.Answerer) (r : MachineRef) (j : CallId) :
    Step s m { m.holdCall r with pendingAction := some (.EUserAnswer j) } := by
  refine h.unnoticed ((h.wellFormed.holdCall r).pend _) (by simp) (by simp) (by simp) (by simp)
    (by simp) ?_ ?_
  · rintro p hp
    exact ⟨j, (Option.some.inj hp).symm⟩
  · by_cases hact : (m.machines r).state = .Active
    · simp [Reports, holdCall_of_active hact]
    · simp [Reports, holdCall_of_ne_active hact]

lemma onUserAnswer (hs : s.Lawful) (h : m.Answerer) (j : CallId) :
    Step s m (m.onUserAnswer .sequential j) := by
  simp only [CCallManager.onUserAnswer]
  split
  · simp only [ne_eq, reduceCtorEq, not_false_eq_true, sequential_pass]
    exact h.queueAnswer _ j
  · split
    · exact h.stays
    · rename_i r hk
      exact h.signal hs hk (acceptCall_effect m r) (h.wellFormed.listed hk).acceptCall_reports

/-- A field that an assignment leaves alone. -/
lemma modify_field {α : Type*} (g : CStateMachine → α) {f : CStateMachine → CStateMachine}
    (hf : ∀ c, g (f c) = g c) (m : CCallManager) (r x : MachineRef) :
    g ((m.modify r f).machines x) = g (m.machines x) := by
  by_cases hx : x = r
  · subst hx; simp [hf]
  · simp [hx]

/-- The slot is emptied, or a hold flag lowered. -/
lemma settle (h : m.Answerer) (r : MachineRef) (p : Option PendingAction)
    (hp : p = none ∨ p = m.pendingAction) : Step s m
      ({ m with pendingAction := p }.modify r fun c => { c with holdRequested := false }) := by
  refine h.unnoticed ((h.wellFormed.pend p).modify (fun _ => rfl) fun _ => rfl) rfl rfl
    (fun _ => rfl) (fun x => modify_field CStateMachine.session ?_ _ r x)
    (fun x => modify_field CStateMachine.state ?_ _ r x) ?_ (Reports.refl m)
  · exact fun _ => rfl
  · exact fun _ => rfl
  rintro q hq
  rcases hp with rfl | rfl
  · simp at hq
  · exact h.pending q hq

/-- **The confirmation of a hold**: the call goes on hold, and the answer that waited is run. -/
lemma holdConfirm (hs : s.Lawful) (h : m.Answerer) (k : CallId) :
    Step s m (m.onCallNotification [] k) := by
  simp only [onCallNotification]
  split
  · exact h.stays
  rename_i r hk
  unfold onHoldConfirm holdConfirmed
  split
  · rename_i hst
    split_ifs
    · have h₁ : Step s m (m.changeStatePlain r .Holding) :=
        h.moved hs hk (changeStatePlain_effect m r .Holding)
          ((h.wellFormed.listed hk).changeStatePlain_reports .Holding) (by rw [hst]; trivial)
      -- what waits is an answer
      have hrun : ∃ m', Step s (m.changeStatePlain r .Holding) m' ∧
          (m.changeState r .Holding).activatePendingAction .sequential =
            { m' with pendingAction := none } := by
        cases hp : (m.changeStatePlain r .Holding).pendingAction with
        | none => exact ⟨_, h₁.answerer.stays, by
            simp [activatePendingAction, changeState, hp]⟩
        | some p =>
            obtain ⟨j, rfl⟩ := h₁.answerer.pending p hp
            exact ⟨_, h₁.answerer.onUserAnswer hs j, by
              simp [activatePendingAction, changeState, hp, activate]⟩
      obtain ⟨m', h₂, heq⟩ := hrun
      rw [heq]
      exact (h₁.trans h₂).trans (h₂.answerer.settle r none (Or.inl rfl))
    · exact h.settle r m.pendingAction (Or.inr rfl)
  · exact h.stays

/-! ## New calls -/

/-- A new machine is not seen before it is listed. -/
lemma view_announced (h : m.Answerer) (k : CallId) : (m.announced k).view = m.view := by
  funext j
  simp only [view, announced_calls]
  exact Option.map_congr fun x hx => by
    rw [announced_of_ne k (ne_of_lt (h.wellFormed.created j x hx))]

/-- The machines there were stay what they were, whatever is done with the new one. -/
lemma onward_announced (k : CallId) {d : Dictionary CallId MachineRef}
    (hd : ∀ j, ∀ x < m.created, d.get? j = some x → m.calls.get? j = some x) :
    Onward m { m.announced k with calls := d } := by
  have hsame : ∀ x < m.created, (m.announced k).machines x = m.machines x :=
    fun x hx => announced_of_ne k (Nat.ne_of_lt hx)
  refine ⟨Nat.le_succ _, fun x hx => ?_, fun x hx hne hidle => ?_, fun x hx _ => ?_,
    fun x hx hgone => ?_⟩
  · exact congrArg _ (hsame x hx)
  · exact absurd ((congrArg _ (hsame x hx)).symm.trans hidle) hne
  · exact .inl (congrArg _ (hsame x hx))
  · exact ⟨(congrArg _ (hsame x hx)).trans hgone.1, fun j hj => hgone.2 j (hd j x hx hj)⟩

lemma announced (h : m.Answerer) (k : CallId) : Step s m (m.announced k) := by
  refine ⟨⟨h.wellFormed.announced k, h.timers, fun x => ?_, fun x hx => ?_, h.pending⟩,
    .silent (Reports.refl m) (h.view_announced k), onward_announced k (fun _ _ _ hj => hj)⟩
  · by_cases hx : x = m.created
    · subst hx
      simp [CStateMachine.create]
    · rw [announced_of_ne k hx]
      exact h.taking x
  · by_cases hxc : x = m.created
    · subst hxc
      simp [CStateMachine.create] at hx
    · rw [announced_of_ne k hxc] at hx
      exact h.busy x hx

/-- A new call, for a subscriber that does not mind it. -/
lemma incoming (hs : s.Lawful) (h : m.Answerer) (k : CallId)
    (happ : ∀ p, m.view k = none → s.agrees m.view p →
      s.agrees (Function.update m.view k (some .Idle)) p) :
    Step s m (m.onCallStateChanged k .SESSION_STATE_INCOMING) := by
  have h₁ : Step s m (m.announced k) := h.announced k
  have hann := h.view_announced k
  rcases m.incoming_cases k with ⟨old, hk, he⟩ | ⟨hk, d, hd, he⟩
  · refine h₁.trans (h₁.answerer.signal hs (k := k) (r := old) hk he ?_)
    rw [incoming_eq_endCall hk]
    exact (h₁.answerer.wellFormed.listed hk).endCall_reports h.timers
  · have hw := h.wellFormed.incoming k
    rw [he] at hw ⊢
    have hget := get?_of_add? hd
    refine ⟨⟨hw, h.timers, h₁.answerer.taking, fun x hx => ?_, h.pending⟩,
      ⟨[], Reports.refl m, fun p hp => ?_⟩, onward_announced k fun j x hx hj => ?_⟩
    · obtain ⟨j, hj⟩ := h₁.answerer.busy x hx
      have hjk : j ≠ k := by
        rintro rfl
        rw [announced_calls, hk] at hj
        simp at hj
      exact ⟨j, by simpa [hget, hjk] using hj⟩
    · have hview : CCallManager.view { m.announced k with calls := d } =
          Function.update (m.announced k).view k (some .Idle) := by
        funext j
        by_cases hj : j = k
        · subst hj
          simp [view, hget, CStateMachine.create]
        · simp [view, hget, hj]
      rw [hview, hann]
      exact happ p (view_of_absent hk) hp
    · rw [hget] at hj
      split_ifs at hj
      · exact absurd (Option.some.inj hj).symm (Nat.ne_of_lt hx)
      · exact hj

end Answerer

/-- **What the delivery of a caller can do**: nothing, if the call is not there; turn it away; make
it ring; answer it at once; or only repeat the notification, if the caller was delivered before. -/
inductive Delivery (m m' : CCallManager) (k : CallId) (number info : String) : Prop
  | absent (hv : m.view k = none) (hm : m' = m)
  | turnedAway (hv : m.view k = some .Idle) (hon : ¬ ServicesOff m.around.config)
      (hview : m'.view = Function.update m.view k none) (hrep : Reports m m' [])
  | rings (hv : m.view k = some .Idle) (hoff : ServicesOff m.around.config)
      (hauto : ¬ (m.around.config.AAFlag = true ∧ m.calls.count = 1))
      (hview : m'.view = Function.update m.view k (some .Incoming))
      (hrep : Reports m m'
        [.CallStateRefresh k .INCOMING, .IncomingCallNotification k number info])
  | answered (hv : m.view k = some .Idle) (hoff : ServicesOff m.around.config)
      (hauto : m.around.config.AAFlag = true ∧ m.calls.count = 1)
      (hview : m'.view = Function.update m.view k (some .Active))
      (hrep : Reports m m' [.CallStateRefresh k .ACTIVE, .CallStateRefresh k .ACTIVE,
        .IncomingCallNotification k number info])
  | again (st : IAbstractState) (hv : m.view k = some st) (hst : st ≠ .Idle)
      (hview : m'.view = m.view) (hrep : Reports m m' [.IncomingCallNotification k number info])

namespace Answerer

/-- A notification changes nothing here. -/
lemma raise (h : m.Answerer) (n : Notification) : (m.emit (.raise n)).Answerer :=
  h.congr (h.wellFormed.congr rfl le_rfl fun _ _ _ => ⟨rfl, rfl⟩) rfl (fun _ => rfl) (fun _ => rfl)
    h.pending

/-- An incoming call does not become an outgoing one. -/
lemma incomingCall (h : m.Answerer) (hk : m.calls.get? k = some r) (number info : String) :
    (m.incomingCall r number info).Answerer := by
  refine h.effect hk (incomingCall_effect m r number info) fun st hst => ?_
  simp only [reactIncoming] at hst
  split at hst
  · split_ifs at hst <;> cases hst <;> simp
  · simp at hst

/-- With the services off the call rings or is answered, and the application is notified. -/
lemma delivery_of_off (h : m.Answerer) (hk : m.calls.get? k = some r)
    (hidle : (m.machines r).state = .Idle) (hoff : ServicesOff m.around.config)
    (number info : String) :
    Delivery m ((m.incomingCall r number info).emit
      (.raise (.IncomingCallNotification k number info))) k number info := by
  have hl := h.wellFormed.listed hk
  have hout := hl.incomingCall_out hidle number info hoff
  have hv : m.view k = some .Idle := by rw [view_of_listed hk, hidle]
  have he := incomingCall_effect m r number info
  have hnot : ¬ ((m.around.config.CFUFlag = true ∧ 0 < m.around.config.CFUNumber.length) ∨
      m.around.config.DNDFlag = true) := by simp [hoff.1, hoff.2]
  simp only [hidle, reactIncoming, if_neg hnot] at he
  have hview := h.wellFormed.view_effect hk he
  by_cases hauto : m.around.config.AAFlag = true ∧ m.calls.count = 1
  · rw [if_pos hauto] at hview hout
    exact .answered hv hoff hauto hview (by simp [Reports, hout, notifications])
  · rw [if_neg hauto] at hview hout
    exact .rings hv hoff hauto hview (by simp [Reports, hout, notifications])

/-- With the services off the call goes on to be reported. -/
lemma audible_of_off (h : m.Answerer) (hk : m.calls.get? k = some r)
    (hoff : ServicesOff m.around.config) (number info : String) :
    ((m.incomingCall r number info).machines r).disableStateNotifications = false := by
  have hne := hoff.ne_gone m.calls.count (m.machines r).state
  exact ((incomingCall_effect m r number info).silent hne).trans (h.wellFormed.audible k r hk)

/-- **The delivery of a caller**, case by case. -/
lemma incomingCall_cases (h : m.Answerer) (k : CallId) (number info : String) :
    (m.onIncomingCall k number info).Answerer ∧
      Delivery m (m.onIncomingCall k number info) k number info := by
  cases hk : m.calls.get? k with
  | none =>
      simp only [onIncomingCall, hk]
      exact ⟨h, .absent (view_of_absent hk) rfl⟩
  | some r =>
      have hl := h.wellFormed.listed hk
      have hans := h.incomingCall hk number info
      simp only [onIncomingCall, hk]
      by_cases hidle : (m.machines r).state = .Idle
      · by_cases hoff : ServicesOff m.around.config
        · simp only [h.audible_of_off hk hoff number info, Bool.false_eq_true, if_false]
          exact ⟨hans.raise _, h.delivery_of_off hk hidle hoff number info⟩
        · obtain ⟨hrep, hsil⟩ := hl.turnAway_reports hidle (turningService m.around.config).1
            (turningService m.around.config).2
          rw [incomingCall_eq_turnAway hidle hoff] at hans ⊢
          simp only [hsil, if_true]
          refine ⟨hans, .turnedAway (by rw [view_of_listed hk, hidle]) hoff ?_ hrep⟩
          rw [h.wellFormed.view_effect hk (turnAway_effect m r hidle _ _)]
          rfl
      · rw [incomingCall_of_delivered hidle]
        simp only [hl.audible, Bool.false_eq_true, if_false]
        exact ⟨h.raise _, .again _ (view_of_listed hk) hidle rfl (by simp [Reports])⟩

/-- The delivery moves an idle call only. -/
lemma onward_incomingCall (h : m.Answerer) (k : CallId) (number info : String) :
    Onward m (m.onIncomingCall k number info) := by
  cases hk : m.calls.get? k with
  | none =>
      simp only [onIncomingCall, hk]
      exact .refl m
  | some r =>
      have hmoved : Onward m (m.incomingCall r number info) := by
        refine .effect h.wellFormed hk (incomingCall_effect m r number info) (fun hend => ?_) ?_
        · rcases hend with hst | hst <;> simp [hst, reactIncoming]
        · simp only [reactIncoming]
          split
          · split_ifs <;> simp
          · simp
      simp only [onIncomingCall, hk]
      split_ifs
      · exact hmoved
      · exact hmoved.trans (.of_same rfl (fun _ => rfl) (fun _ => rfl) fun _ => rfl)

/-- **The events of an answering machine**, for a subscriber that does not mind new calls and keeps
up with the delivery of callers. -/
theorem handle (hs : s.Lawful) (h : m.Answerer) {e : Event} (he : e.answering)
    (happ : ∀ k p, e = .callStateChanged k .SESSION_STATE_INCOMING → m.view k = none →
      s.agrees m.view p → s.agrees (Function.update m.view k (some .Idle)) p)
    (hcall : ∀ k number info, e = .callIncoming k number info →
      Carries s m (m.onIncomingCall k number info)) : Step s m (m.handle [] e) := by
  have hw := h.wellFormed
  cases e with
  | onUserRelease j =>
      simp only [CCallManager.handle, onUserRelease]
      split
      · exact h.stays
      · rename_i r hk
        exact h.signal hs hk (endCall_effect m r) ((hw.listed hk).endCall_reports h.timers)
  | onUserAnswer j => exact h.onUserAnswer hs j
  | callStateChanged j st =>
      cases st with
      | SESSION_STATE_INCOMING => exact h.incoming hs j fun p => happ j p rfl
      | SESSION_STATE_EARLY =>
          simp only [CCallManager.handle, onCallStateChanged]
          split
          · exact h.stays
          · rename_i r hk
            exact h.signal hs hk (onAlerting_effect m r) (hw.listed hk).onAlerting_reports
      | SESSION_STATE_CONNECTING =>
          simp only [CCallManager.handle, onCallStateChanged]
          split
          · exact h.stays
          · rename_i r hk
            exact h.signal hs hk (onConnect_effect m r) (hw.listed hk).onConnect_reports
      | SESSION_STATE_DISCONNECTED =>
          simp only [CCallManager.handle, onCallStateChanged]
          split
          · exact h.stays
          · rename_i r hk
            exact h.signal hs hk (onReleased_effect m r)
              ((hw.listed hk).onReleased_reports h.timers)
      | _ =>
          simp only [CCallManager.handle, onCallStateChanged]
          split <;> exact h.stays
  | callIncoming j number info =>
      exact ⟨(h.incomingCall_cases j number info).1, hcall j number info rfl,
        h.onward_incomingCall j number info⟩
  | holdConfirm j => exact h.holdConfirm hs j
  | timerElapsed r t => exact h.timerElapsed hs r t
  | surroundings a =>
      exact ⟨⟨hw.congr rfl le_rfl fun _ _ _ => ⟨rfl, rfl⟩, h.timers, h.taking, h.busy, h.pending⟩,
        .silent (Reports.refl m) rfl, .of_same rfl (fun _ => rfl) (fun _ => rfl) fun _ => rfl⟩
  | _ => simp [Event.answering] at he

/-- The delivery of a caller, for a subscriber that keeps up with ringing, automatic answers and
repetitions. -/
lemma delivery_carries (hs : s.Lawful) {number info : String}
    (hd : Delivery m m' k number info)
    (hrings : ∀ p, m.view k = some .Idle → ServicesOff m.around.config →
      ¬ (m.around.config.AAFlag = true ∧ m.calls.count = 1) → s.agrees m.view p →
      s.agrees (Function.update m.view k (some .Incoming))
        (s.notify (s.notify p (.CallStateRefresh k .INCOMING))
          (.IncomingCallNotification k number info)))
    (hanswered : ∀ p, m.view k = some .Idle → ServicesOff m.around.config →
      m.around.config.AAFlag = true ∧ m.calls.count = 1 → s.agrees m.view p →
      s.agrees (Function.update m.view k (some .Active))
        (s.notify (s.notify (s.notify p (.CallStateRefresh k .ACTIVE))
        (.CallStateRefresh k .ACTIVE))
          (.IncomingCallNotification k number info)))
    (hagain : ∀ p st, m.view k = some st → st ≠ .Idle → s.agrees m.view p →
      s.agrees m.view (s.notify p (.IncomingCallNotification k number info))) :
    Carries s m m' := by
  cases hd with
  | absent hv hm => rw [hm]; exact .refl m
  | turnedAway hv hon hview hrep =>
      exact ⟨[], hrep, fun p hp => by rw [hview]; exact hs.disappears hv hp⟩
  | rings hv hoff hauto hview hrep =>
      exact ⟨_, hrep, fun p hp => by rw [hview]; exact hrings p hv hoff hauto hp⟩
  | answered hv hoff hauto hview hrep =>
      exact ⟨_, hrep, fun p hp => by rw [hview]; exact hanswered p hv hoff hauto hp⟩
  | again st hv hst hview hrep =>
      exact ⟨_, hrep, fun p hp => by rw [hview]; exact hagain p st hv hst hp⟩

/-- **The step lemma**: one event, for a subscriber that takes its notifications. -/
theorem step (hs : s.Lawful) (h : m.Answerer) {e : Event} (he : e.answering)
    (happ : ∀ k p, e = .callStateChanged k .SESSION_STATE_INCOMING → m.view k = none →
      s.agrees m.view p → s.agrees (Function.update m.view k (some .Idle)) p)
    (hcall : ∀ k number info m', e = .callIncoming k number info →
      Delivery { m with out := [] } m' k number info → Carries s { m with out := [] } m') :
    (m.step e).Answerer ∧ ∀ p, s.agrees m.view p →
      s.agrees (m.step e).view ((notifications (m.step e).out).foldl s.notify p) := by
  obtain ⟨hans, ⟨l, hl, hp⟩, -⟩ := h.cleared.handle hs he happ fun k number info hk =>
    hcall k number info _ hk (h.cleared.incomingCall_cases k number info).2
  have hl' : notifications (m.step e).out = l := by
    simpa [Reports, CCallManager.step, stepWith] using hl
  exact ⟨hans, fun p hagree => by rw [hl']; exact hp p hagree⟩

end Answerer

end CCallManager

end TAM
