import AnsweringMachine.CallControl.Automaton

/-!
# What an event can do

The events fall into two groups.

Most go to a single machine: `outcomeOf` names the machine and what becomes of its call, and
`plain_effect` says that the event does that and no more.

The others are the operations that may have to put a call on hold first, and the confirmation of a
hold, which runs the operation that was queued, which may ask for a hold again.  `KeptByRequests`
lists the six things these do to the manager besides dialling, `KeptByChecked` adds dialling, and so
does `KeptByOperations` where it does not matter whether a call is being set up already.  A property
that each of them keeps is kept by all the operations, however deep the confirmations nest
(`KeptByChecked.onHoldConfirm`).

`KeptByChecked.handle` puts the two groups together: it leaves to be shown of an event only what
its own kind requires (`KeptByOthers`).
-/

namespace TAM

namespace CCallManager

open Dictionary

variable {m m' : CCallManager} {r : MachineRef} {k : CallId} {o : Outcome}

/-! ## Events that go to one machine -/

/-- The machine an event goes to, and what becomes of its call.  `none` if there is no such machine,
and for the events that involve the table or other machines. -/
def outcomeOf (m : CCallManager) : Event → Option (MachineRef × Outcome)
  | .onUserRelease s =>
      (m.calls.get? s).map fun r => (r, react m.around.factory .endCall (m.machines r).state)
  | .onUserTransfer s _ | .onUserDialDigit s _ => (m.calls.get? s).map fun r => (r, .stay)
  | .callStateChanged _ .SESSION_STATE_INCOMING => none
  | .callStateChanged k .SESSION_STATE_EARLY =>
      (m.calls.get? k).map fun r => (r, react m.around.factory .onAlerting (m.machines r).state)
  | .callStateChanged k .SESSION_STATE_CONNECTING =>
      (m.calls.get? k).map fun r => (r, react m.around.factory .onConnect (m.machines r).state)
  | .callStateChanged k .SESSION_STATE_DISCONNECTED =>
      (m.calls.get? k).map fun r => (r, react m.around.factory .onReleased (m.machines r).state)
  | .callStateChanged k _ => (m.calls.get? k).map fun r => (r, .stay)
  | .callIncoming k _ _ => (m.calls.get? k).map fun r =>
      (r, reactIncoming m.around.config m.calls.count (m.machines r).state)
  | .timerElapsed r t => some (r, if (m.machines r).running t then
      reactTimer m.around.factory t (m.machines r).state else .stay)
  | _ => none

/-- The events that go to one machine. -/
def Event.plain : Event → Bool
  | .onUserRelease _ | .onUserTransfer _ _ | .onUserDialDigit _ _ | .callIncoming _ _ _
  | .timerElapsed _ _ => true
  | .callStateChanged _ st => st ≠ .SESSION_STATE_INCOMING
  | _ => false

/-- **An event for one machine does what the automaton says, and nothing else.** -/
theorem plain_effect (a : List Arrival) (m : CCallManager) {e : Event} (he : e.plain) :
    match m.outcomeOf e with
    | none => m.handle a e = m
    | some (r, o) => Effect m (m.handle a e) r o := by
  cases e with
  | onUserRelease s =>
      simp only [outcomeOf, handle, onUserRelease]
      cases m.calls.get? s with
      | none => rfl
      | some r => exact endCall_effect m r
  | onUserTransfer s number =>
      simp only [outcomeOf, handle, onUserTransfer]
      cases m.calls.get? s with
      | none => rfl
      | some r => exact xferCall_effect m r number
  | onUserDialDigit s digits =>
      simp only [outcomeOf, handle, onUserDialDigit]
      cases m.calls.get? s with
      | none => rfl
      | some r => exact request_effect m r _
  | callIncoming k number info =>
      simp only [outcomeOf, handle, onIncomingCall]
      cases m.calls.get? k with
      | none => rfl
      | some r =>
          have h := incomingCall_effect m r number info
          simp only [Option.map_some]
          split_ifs
          · exact h
          · exact h.before (emit_effect _ r _)
  | timerElapsed r t =>
      simp only [outcomeOf, handle]
      exact timerElapsed_effect m r t
  | callStateChanged k st =>
      cases st with
      | SESSION_STATE_INCOMING => simp [Event.plain] at he
      | SESSION_STATE_EARLY =>
          simp only [outcomeOf, handle, onCallStateChanged]
          cases m.calls.get? k with
          | none => rfl
          | some r => exact onAlerting_effect m r
      | SESSION_STATE_CONNECTING =>
          simp only [outcomeOf, handle, onCallStateChanged]
          cases m.calls.get? k with
          | none => rfl
          | some r => exact onConnect_effect m r
      | SESSION_STATE_DISCONNECTED =>
          simp only [outcomeOf, handle, onCallStateChanged]
          cases m.calls.get? k with
          | none => rfl
          | some r => exact onReleased_effect m r
      | _ =>
          simp only [outcomeOf, handle, onCallStateChanged]
          cases m.calls.get? k with
          | none => rfl
          | some r => exact Effect.refl m r
  | _ => simp [Event.plain] at he

/-- The signal an event is for the call it names. -/
def Event.signal : Event → Option (CallId × Signal)
  | .onUserRelease s => some (s, .endCall)
  | .callStateChanged k .SESSION_STATE_EARLY => some (k, .onAlerting)
  | .callStateChanged k .SESSION_STATE_CONNECTING => some (k, .onConnect)
  | .callStateChanged k .SESSION_STATE_DISCONNECTED => some (k, .onReleased)
  | _ => none

/-- **Where an outcome comes from**: a signal for a listed call, the delivery of one, a timer, or an
event that leaves its call where it is. -/
lemma outcomeOf_cases {e : Event} (h : m.outcomeOf e = some (r, o)) :
    (∃ k i, e.signal = some (k, i) ∧ m.calls.get? k = some r ∧
      o = react m.around.factory i (m.machines r).state) ∨
    (∃ k number info, e = .callIncoming k number info ∧ m.calls.get? k = some r ∧
      o = reactIncoming m.around.config m.calls.count (m.machines r).state) ∨
    (∃ t, e = .timerElapsed r t ∧ (m.machines r).running t = true ∧
      o = reactTimer m.around.factory t (m.machines r).state) ∨
    o = .stay := by
  cases e with
  | onUserRelease k =>
      simp only [outcomeOf, Option.map_eq_some_iff, Prod.mk.injEq] at h
      obtain ⟨r', hk, rfl, rfl⟩ := h
      exact Or.inl ⟨k, _, rfl, hk, rfl⟩
  | callStateChanged k st =>
      cases st <;> simp only [outcomeOf, Option.map_eq_some_iff, Prod.mk.injEq, reduceCtorEq] at h
      all_goals obtain ⟨r', hk, rfl, rfl⟩ := h
      case SESSION_STATE_EARLY | SESSION_STATE_CONNECTING | SESSION_STATE_DISCONNECTED =>
        exact Or.inl ⟨k, _, rfl, hk, rfl⟩
      all_goals exact Or.inr (Or.inr (Or.inr rfl))
  | callIncoming k number info =>
      simp only [outcomeOf, Option.map_eq_some_iff, Prod.mk.injEq] at h
      obtain ⟨r', hk, rfl, rfl⟩ := h
      exact Or.inr (Or.inl ⟨k, number, info, rfl, hk, rfl⟩)
  | timerElapsed r' t =>
      simp only [outcomeOf, Option.some.injEq, Prod.mk.injEq] at h
      obtain ⟨rfl, rfl⟩ := h
      split_ifs with hrun
      · exact Or.inr (Or.inr (Or.inl ⟨t, rfl, hrun, rfl⟩))
      · exact Or.inr (Or.inr (Or.inr rfl))
  | onUserTransfer k _ | onUserDialDigit k _ =>
      simp only [outcomeOf, Option.map_eq_some_iff, Prod.mk.injEq] at h
      obtain ⟨r', -, rfl, rfl⟩ := h
      exact Or.inr (Or.inr (Or.inr rfl))
  | _ => simp [outcomeOf] at h

/-! ## Small facts about the operations -/

@[simp] lemma sequential_pass (due : Arrival) (hdue : due ≠ .later) (m : CCallManager)
    (r : MachineRef) : HoldWindow.sequential.pass due m r = m := by
  cases due <;> first | rfl | exact absurd rfl hdue

/-- A machine enumerated in a state is in the table, in that state. -/
lemma mem_enumCallsInState {st : EStateId} :
    r ∈ m.enumCallsInState st ↔ (∃ k, m.calls.get? k = some r) ∧ (m.machines r).state.id = st := by
  simp only [enumCallsInState, List.mem_map, List.mem_filter, decide_eq_true_eq]
  constructor
  · rintro ⟨⟨k, r'⟩, ⟨he, hst⟩, rfl⟩
    exact ⟨⟨k, mem_entries.mp he⟩, hst⟩
  · rintro ⟨⟨k, hk⟩, hst⟩
    exact ⟨(k, r), ⟨mem_entries.mpr hk, hst⟩, rfl⟩

/-- The first of the active machines is active. -/
lemma active_of_enum {rest : List MachineRef} (h : m.enumCallsInState .ACTIVE = r :: rest) :
    (m.machines r).state = .Active :=
  IAbstractState.id_inj.mp (mem_enumCallsInState.mp (h ▸ List.mem_cons_self)).2

lemma getCallInState_eq_head? (st : EStateId) :
    m.getCallInState st = (m.enumCallsInState st).head? := by
  simp [getCallInState, enumCallsInState, List.head?_map, List.head?_filter]

lemma getNoCallsInState_eq_length (st : EStateId) :
    m.getNoCallsInState st = (m.enumCallsInState st).length := by
  simp only [getNoCallsInState, enumCallsInState, List.length_map, List.countP_eq_length_filter]
  congr 2
  funext e
  simp [eq_comm]

/-- A machine found in a state is in the table, in that state. -/
lemma getCallInState_mem {st : EStateId} (h : m.getCallInState st = some r) :
    (∃ k, m.calls.get? k = some r) ∧ (m.machines r).state.id = st := by
  rw [getCallInState_eq_head?] at h
  exact mem_enumCallsInState.mp (List.mem_of_mem_head? h)

lemma getNoCallsInState_eq_zero {st : EStateId} :
    m.getNoCallsInState st = 0 ↔ m.enumCallsInState st = [] := by
  rw [getNoCallsInState_eq_length, List.length_eq_zero_iff]

/-! ## A rule for the operations that wait for holds -/

/-- The window of an operation keeps a property if the confirmation of a hold does. -/
def HoldWindow.Keeps (w : HoldWindow) (J : CCallManager → Prop) : Prop :=
  ∀ m k, J m → J (w.confirm m k)

lemma HoldWindow.Keeps.pass {w : HoldWindow} {J : CCallManager → Prop} (hJ : w.Keeps J)
    (due : Arrival) (hm : J m) (r : MachineRef) : J (w.pass due m r) := by
  simp only [HoldWindow.pass]
  split_ifs
  · split
    · exact hm
    · exact hJ _ _ hm
  · exact hm

lemma HoldWindow.sequential_keeps (J : CCallManager → Prop) : HoldWindow.sequential.Keeps J :=
  fun _ _ h => h

/-- What the operations do to the manager before and after a call is dialled, each under what the
code has checked. -/
structure KeptByRequests (J : CCallManager → Prop) : Prop where
  pend : ∀ {m}, J m → ∀ p, J { m with pendingAction := p }
  hold : ∀ {m r}, J m → (m.machines r).state = .Active → J (m.holdCall r)
  confirmed : ∀ {m r}, J m → (m.machines r).state = .Active → J (m.changeStatePlain r .Holding)
  settled : ∀ {m r}, J m → J (m.modify r fun c => { c with holdRequested := false })
  accept : ∀ {m r}, J m → m.enumCallsInState .ACTIVE = [] → J (m.acceptCall r)
  retrieve : ∀ {m r}, J m → m.enumCallsInState .ACTIVE = [] → J (m.retrieveCall r)

/-- Dialling, which is done when no call is active. -/
structure KeptByOperations (J : CCallManager → Prop) : Prop extends KeptByRequests J where
  dial : ∀ {m}, J m → m.enumCallsInState .ACTIVE = [] → ∀ number accountId,
    J ((m.createStateMachine.makeCall m.created number accountId).enterOutboundCall m.created)

/-- The same for a property that needs all that was checked before a call is dialled: no call is
active, and none is being set up. -/
structure KeptByChecked (J : CCallManager → Prop) : Prop extends KeptByRequests J where
  dial : ∀ {m}, J m → m.enumCallsInState .ACTIVE = [] →
    m.getNoCallsInStates (EStateId.CONNECTING.code ||| EStateId.ALERTING.code) = 0 →
    ∀ number accountId,
    J ((m.createStateMachine.makeCall m.created number accountId).enterOutboundCall m.created)

lemma KeptByOperations.checked {J : CCallManager → Prop} (hJ : KeptByOperations J) :
    KeptByChecked J where
  toKeptByRequests := hJ.toKeptByRequests
  dial hm hnone _ := hJ.dial hm hnone

namespace KeptByChecked

variable {J : CCallManager → Prop} (hJ : KeptByChecked J)

include hJ

/-- A hold request and its window. -/
lemma passes {w : HoldWindow} (hw : w.Keeps J) (hm : J m) (hr : (m.machines r).state = .Active) :
    J (w.pass .atOnce (m.holdCall r) r) := hw.pass _ (hJ.hold hm hr) r

lemma createOutboundCall {w : HoldWindow} (hw : w.Keeps J) (hm : J m) (number : String)
    (accountId : ℕ) : J (m.createOutboundCall w number accountId) := by
  unfold CCallManager.createOutboundCall
  split
  · exact hm
  split
  · exact hm
  split
  · rename_i hfree hnone
    exact hJ.dial hm (getNoCallsInState_eq_zero.mp hnone) (Nat.eq_zero_of_not_pos hfree) number
      accountId
  · have hp := hJ.pend hm (some (.ECreateSession number accountId))
    dsimp only
    split
    · exact hp
    · rename_i r hr
      exact hw.pass _ (hJ.passes hw hp (IAbstractState.id_inj.mp (getCallInState_mem hr).2)) r

lemma onUserAnswer {w : HoldWindow} (hw : w.Keeps J) (hm : J m) (s : CallId) :
    J (m.onUserAnswer w s) := by
  simp only [CCallManager.onUserAnswer]
  split
  · rename_i sm rest henum
    have hsm := active_of_enum henum
    exact hw.pass _ (hJ.pend (hJ.passes hw hm hsm) _) sm
  · rename_i hnone
    split
    · exact hm
    · exact hJ.accept hm hnone

lemma onUserHoldRetrieve {w : HoldWindow} (hw : w.Keeps J) (hm : J m) (s : CallId) :
    J (m.onUserHoldRetrieve w s) := by
  simp only [CCallManager.onUserHoldRetrieve]
  split
  · exact hm
  split
  · rename_i hr
    exact hw.pass _ (hJ.passes hw hm hr) _
  · split
    · rename_i sm rest henum
      have hsm := active_of_enum henum
      exact hw.pass _ (hJ.pend (hJ.passes hw hm hsm) _) sm
    · rename_i hnone
      exact hJ.retrieve hm hnone
  · exact hm

lemma activatePendingAction {w : HoldWindow} (hw : w.Keeps J) (hm : J m) :
    J (m.activatePendingAction w) := by
  simp only [CCallManager.activatePendingAction]
  refine hJ.pend ?_ none
  split
  · exact hm
  · rename_i p _
    cases p with
    | EUserAnswer s => exact hJ.onUserAnswer hw hm s
    | ECreateSession number accountId => exact hJ.createOutboundCall hw hm number accountId
    | EUserHold s => exact hJ.onUserHoldRetrieve hw hm s

lemma holdConfirmed {w : HoldWindow} (hw : w.Keeps J) (hm : J m) (r : MachineRef) :
    J (m.holdConfirmed w r) := by
  simp only [CCallManager.holdConfirmed]
  split
  · rename_i hr
    refine hJ.settled ?_
    split_ifs
    · exact hJ.activatePendingAction hw (hJ.confirmed hm hr)
    · exact hm
  · exact hm

/-- **However deep the confirmations nest**, by induction on the arrivals. -/
lemma onHoldConfirm (a : List Arrival) (hm : J m) (r : MachineRef) : J (m.onHoldConfirm a r) := by
  induction a generalizing m r with
  | nil => exact hJ.holdConfirmed (HoldWindow.sequential_keeps _) hm r
  | cons b rest ih =>
      refine hJ.holdConfirmed (fun m k hm => ?_) hm r
      dsimp only
      split
      · exact hm
      · exact ih hm _

lemma onCallNotification (a : List Arrival) (hm : J m) (k : CallId) :
    J (m.onCallNotification a k) := by
  simp only [CCallManager.onCallNotification]
  split
  · exact hm
  · exact hJ.onHoldConfirm a hm _

/-- The window that some arrivals leave keeps the property too. -/
lemma windowOf : ∀ a : List Arrival, (windowOf a).Keeps J
  | [] => HoldWindow.sequential_keeps _
  | _ :: rest => fun _ k hm => hJ.onCallNotification rest hm k

end KeptByChecked

/-! ## A rule for all events -/

/-- What is to be shown of an event that is not one of the operations that wait for holds. -/
structure KeptByOthers (J : CCallManager → Prop) (m : CCallManager) (e : Event) : Prop where
  effect : ∀ {m' r o}, m.outcomeOf e = some (r, o) → Effect m m' r o → J m'
  conference : ∀ s, e = .onUserConference s → J m.onUserConference
  incoming : ∀ k, e = .callStateChanged k .SESSION_STATE_INCOMING →
    J (m.onCallStateChanged k .SESSION_STATE_INCOMING)
  replaced : ∀ old new, e = .callReplaced old new → J (m.onCallReplaced old new).1
  start : ∀ status, e = .Initialize status → J (m.Initialize status)
  stop : e = .Shutdown → J m.Shutdown
  surroundings : ∀ x, e = .surroundings x →
    J { m with around := { x with factory := m.around.factory } }

/-- **A property kept by the operations and by the other events is kept by every event.** -/
theorem KeptByChecked.handle {J : CCallManager → Prop} (hJ : KeptByChecked J)
    (a : List Arrival) (hm : J m) {e : Event} (he : KeptByOthers J m e) : J (m.handle a e) := by
  by_cases hplain : e.plain
  · have heff := plain_effect a m hplain
    split at heff
    · rw [heff]
      exact hm
    · exact he.effect ‹_› heff
  cases e with
  | createOutboundCall number accountId =>
      exact hJ.createOutboundCall (hJ.windowOf a) hm number accountId
  | onUserAnswer s => exact hJ.onUserAnswer (hJ.windowOf a) hm s
  | onUserHoldRetrieve s => exact hJ.onUserHoldRetrieve (hJ.windowOf a) hm s
  | holdConfirm k => exact hJ.onCallNotification a hm k
  | onUserConference s => exact he.conference s rfl
  | callStateChanged k st =>
      have hst : st = .SESSION_STATE_INCOMING := by simpa [Event.plain] using hplain
      subst hst
      exact he.incoming k rfl
  | callReplaced old new => exact he.replaced old new rfl
  | Initialize status => exact he.start status rfl
  | Shutdown => exact he.stop rfl
  | surroundings x => exact he.surroundings x rfl
  | onUserRelease _ | onUserTransfer _ _ | onUserDialDigit _ _ | callIncoming _ _ _
  | timerElapsed _ _ => simp [Event.plain] at hplain

end CCallManager

end TAM
