import AnsweringMachine.CallControl.Pending

/-!
# The answer that waits

To answer a ringing call while another one is active is a two-stage request: the active call is put
on hold, the answer waits in the slot of the pending action, and the confirmation of the hold runs
it.  The slot is shared by all two-stage requests and is emptied after every activation, so an
answer can get lost.

`answersKept_of_undisturbed` says when it does not.  It covers confirmations that arrive at any time
after the hold was requested, also while the requesting operation is still running, and asks of each
step (`Undisturbed`) that

* no other two-stage request takes the slot while an answer is waiting,
* at most one call is active when a confirmation may arrive, since the activation would have to ask
  for another hold and queue itself again, and the slot is emptied after that,
* and the ringing call keeps its entry in the table.

`overwritten_by_second_answer` is a run in which the first of two answers is lost.
-/

namespace TAM

namespace CCallManager

open Dictionary Runs

variable {m m' m₀ : CCallManager} {r s x : MachineRef} {k t : CallId} {o : Outcome}

/-! ## Ringing calls and the operations -/

/-- Since `m₀` no call began to ring, and one that still rings is listed where it was. -/
structure RingingKept (m₀ m : CCallManager) : Prop where
  wellFormed : m.WellFormed
  rings : ∀ r, (m.machines r).state = .Incoming → (m₀.machines r).state = .Incoming
  entry : ∀ k r, m₀.calls.get? k = some r → (m.machines r).state = .Incoming →
    m.calls.get? k = some r

namespace RingingKept

lemma refl (hw : m.WellFormed) : RingingKept m m := ⟨hw, fun _ h => h, fun _ _ h _ => h⟩

/-- Changes that leave the states and the table alone. -/
lemma congr (h : RingingKept m₀ m) (hw : m'.WellFormed)
    (hst : ∀ r, (m'.machines r).state = (m.machines r).state) (hc : m'.calls = m.calls) :
    RingingKept m₀ m' where
  wellFormed := hw
  rings r hr := h.rings r ((hst r).symm.trans hr)
  entry k r hk hr := by
    rw [hc]
    exact h.entry k r hk ((hst r).symm.trans hr)

/-- Handlers that neither make a call ring nor end one. -/
lemma effect (h : RingingKept m₀ m) (he : Effect m m' r o) (hin : o ≠ .goto .Incoming)
    (hgone : o ≠ .gone) : RingingKept m₀ m' := by
  have hst : ∀ s, (m'.machines s).state = .Incoming → (m.machines s).state = .Incoming := by
    intro s hs
    by_cases hsr : s = r
    · subst hsr
      rw [he.state] at hs
      cases o with
      | stay => exact hs
      | goto st => exact absurd (congrArg Outcome.goto hs) hin
      | gone => exact absurd rfl hgone
    · rw [he.others s hsr] at hs
      exact hs
  refine ⟨h.wellFormed.effect he, fun s hs => h.rings s (hst s hs), fun k s hk hs => ?_⟩
  rw [he.calls]
  cases o with
  | stay => simpa using h.entry k s hk (hst s hs)
  | goto st => simpa using h.entry k s hk (hst s hs)
  | gone => exact absurd rfl hgone

/-- An outgoing call may end a ringing one, but does not move it. -/
lemma outbound (h : RingingKept m₀ m) (ho : Outbound m m') : RingingKept m₀ m' := by
  have hw := h.wellFormed
  have hother : ∀ s, (m'.machines s).state = .Incoming →
      (∀ k, m.around.makeCallAnswer = some k → m.calls.get? k ≠ some s) ∧
      (m.machines s).state = .Incoming := by
    intro s hs
    have hne : s ≠ m.created := by
      rintro rfl
      rw [ho.state] at hs
      simp at hs
    have hnot : ∀ k, m.around.makeCallAnswer = some k → m.calls.get? k ≠ some s := by
      intro k hk hks
      rw [ho.evicted k s hk hks] at hs
      simp at hs
    rw [ho.others s hne hnot] at hs
    exact ⟨hnot, hs⟩
  refine ⟨ho.wellFormed hw, fun s hs => h.rings s (hother s hs).2, fun k s hk hs => ?_⟩
  have hks := h.entry k s hk (hother s hs).2
  rw [ho.table, if_neg fun ha => (hother s hs).1 k ha hks]
  exact hks

lemma keptByOperations (m₀ : CCallManager) : KeptByOperations (RingingKept m₀) where
  pend h p := h.congr (h.wellFormed.pend p) (fun _ => rfl) rfl
  hold h _ := h.congr (h.wellFormed.holdCall _) (fun s => holdCall_state _ _ s) (by simp)
  confirmed h _ := h.effect (changeStatePlain_effect _ _ .Holding) (by simp) (by simp)
  settled {m r} h := by
    refine h.congr (h.wellFormed.modify (fun _ => rfl) fun _ => rfl) (fun s => ?_) rfl
    by_cases hs : s = r
    · subst hs; simp
    · simp [hs]
  accept {m r} h _ := by
    have he := acceptCall_effect m r
    cases hst : (m.machines r).state <;> rw [hst] at he <;>
      exact h.effect he (by simp [react]) (by simp [react])
  retrieve {m r} h _ := by
    have he := retrieveCall_effect m r
    cases hst : (m.machines r).state <;> rw [hst] at he <;>
      exact h.effect he (by simp [react]) (by simp [react])
  dial {m} h _ number accountId :=
    h.outbound (CCallManager.outbound h.wellFormed (dialled m number accountId))

end RingingKept

/-! ## The confirmation runs the answer -/

/-- **The hold is confirmed, and the waiting answer is carried out**, because the call that goes on
hold was the only active one. -/
lemma holdConfirmed_answers (hw : m.WellFormed) (w : HoldWindow) (hx : m.Holder x)
    (hone : ∀ y, m.Conversing y → y = x) (hp : m.pendingAction = some (.EUserAnswer k))
    (hk : m.calls.get? k = some r) (hr : (m.machines r).state = .Incoming) :
    ((m.holdConfirmed w x).machines r).state = .Active := by
  obtain ⟨⟨-, hst⟩, hreq⟩ := hx
  have hne : r ≠ x := by
    rintro rfl
    rw [hst] at hr
    simp at hr
  have he := changeStatePlain_effect m x .Holding
  have hnone : (m.changeStatePlain x .Holding).enumCallsInState .ACTIVE = [] := by
    refine enum_active_eq_nil.mpr fun y hy => ?_
    rcases hw.conversing_of_effect he hy with hm | ⟨-, hgo⟩
    · rw [hone y hm] at hy
      have := hy.2
      rw [he.state] at this
      simp at this
    · simp at hgo
  have hk' : (m.changeStatePlain x .Holding).calls.get? k = some r := by
    rw [he.calls]
    simpa using hk
  have hacc := (acceptCall_effect (m.changeStatePlain x .Holding) r).state
  rw [he.others r hne, hr] at hacc
  have hrun : (m.changeState x .Holding).activatePendingAction w =
      { (m.changeStatePlain x .Holding).acceptCall r with pendingAction := none } := by
    change (m.changeStatePlain x .Holding).activatePendingAction w = _
    simp only [activatePendingAction, he.pending, hp, activate, onUserAnswer, hnone, hk']
  simp only [holdConfirmed, hst, hreq, if_true, hrun]
  rw [modify_of_ne _ hne]
  exact hacc

/-- The same for a confirmation that arrives in the window of the hold request. -/
lemma pass_answers (hw : m.WellFormed) {a : List Arrival} {due : Arrival}
    (ha : a.head? = some due) (hx : m.Holder x) (hone : ∀ y, m.Conversing y → y = x)
    (hp : m.pendingAction = some (.EUserAnswer k)) (hk : m.calls.get? k = some r)
    (hr : (m.machines r).state = .Incoming) :
    (((windowOf a).pass due m x).machines r).state = .Active := by
  obtain ⟨w, heq⟩ := hx.pass_eq hw ha
  rw [heq]
  exact holdConfirmed_answers hw w hx hone hp hk hr

@[simp] lemma conversing_holdCall : (m.holdCall x).Conversing r ↔ m.Conversing r := by
  simp [Conversing]

/-! ## Answers that have been asked for -/

/-- A manager, and for each machine that was asked to answer and rings ever since, the id it was
asked for by. -/
structure Answering where
  manager : CCallManager
  asked : MachineRef → Option CallId

namespace Answering

/-- The answers asked for when an event begins: `onUserAnswer` of a ringing call is a new one. -/
def noted (w : Answering) (e : Event) (r : MachineRef) : Option CallId :=
  match e with
  | .onUserAnswer t =>
      if w.manager.calls.get? t = some r ∧ (w.manager.machines r).state = .Incoming then some t
      else w.asked r
  | _ => w.asked r

/-- One event of the manager.  An answer is settled when its call has left `INCOMING`. -/
def perform (w : Answering) (l : List Arrival × Event) : Answering where
  manager := w.manager.perform l
  asked r := if ((w.manager.perform l).machines r).state = .Incoming then w.noted l.2 r else none

def initial (around : Surroundings) : Answering := ⟨CCallManager.initial around, fun _ => none⟩

/-- Each answer that was asked for and is not settled is the pending action. -/
def AnswersKept (w : Answering) : Prop :=
  ∀ r k, w.asked r = some k → w.manager.pendingAction = some (.EUserAnswer k)

end Answering

/-- A confirmation arrives before the operation returns. -/
def Prompt (a : List Arrival) : Prop := a.head? = some .atOnce ∨ a.head? = some .afterQueued

/-- What a step must not do while an answer is waiting. -/
def Undisturbed (w : Answering) (l : List Arrival × Event) : Prop :=
  match l.2 with
  -- a second answer takes the slot, unless the confirmation empties it before
  | .onUserAnswer t => (Prompt l.1 → w.manager.getNoCallsInState .ACTIVE ≤ 1) ∧
      ∀ r k, w.asked r = some k → t = k ∨ w.manager.getNoCallsInState .ACTIVE = 0 ∨
        l.1.head? = some .atOnce
  -- so does the retrieval of a held call
  | .onUserHoldRetrieve t => ∀ r k, w.asked r = some k →
      (Prompt l.1 → w.manager.getNoCallsInState .ACTIVE ≤ 1) ∧
      ∀ x, w.manager.calls.get? t = some x → (w.manager.machines x).state = .Holding →
        w.manager.getNoCallsInState .ACTIVE = 0 ∨ l.1.head? = some .atOnce
  -- and an outgoing call, which queues itself before it asks for the hold
  | .createOutboundCall _ _ => ∀ r k, w.asked r = some k → w.manager.initialized = false ∨
      0 < w.manager.getNoCallsInStates (EStateId.CONNECTING.code ||| EStateId.ALERTING.code) ∨
      w.manager.getNoCallsInState .ACTIVE = 0
  | .holdConfirm _ => ∀ r k, w.asked r = some k → w.manager.getNoCallsInState .ACTIVE ≤ 1
  -- the ringing call keeps its id, and no machine outside the table takes the id along
  | .callReplaced old _ => ∀ r k, w.asked r = some k → old ≠ k
  | .timerElapsed x t => ∀ r k, w.asked r = some k → (w.manager.machines x).running t = true →
      RunsOut w.manager.around.factory t (w.manager.machines x).state →
      (w.manager.machines x).session = some k → x = r
  | _ => True

/-- The operations the manager offers to its user, stack events and timers: no conference, and no
restart of the manager. -/
def Event.interleaved : Event → Bool
  | .onUserConference _ | .Initialize _ | .Shutdown => false
  | _ => true

/-- Each answer that is waiting is the pending action, and its call rings in the table. -/
structure Waiting (asked : MachineRef → Option CallId) (m : CCallManager) : Prop where
  wellFormed : m.WellFormed
  pending : ∀ r k, asked r = some k → m.pendingAction = some (.EUserAnswer k)
  entry : ∀ r k, asked r = some k → m.calls.get? k = some r
  rings : ∀ r k, asked r = some k → (m.machines r).state = .Incoming

/-- Each answer asked for is settled, or it is the pending action and its call is in the table. -/
def Served (asked : MachineRef → Option CallId) (m : CCallManager) : Prop :=
  ∀ r k, asked r = some k → (m.machines r).state = .Incoming →
    m.pendingAction = some (.EUserAnswer k) ∧ m.calls.get? k = some r

section Steps

variable {asked : MachineRef → Option CallId}

/-- An operation keeps the entries of ringing calls, so only the slot matters. -/
lemma RingingKept.served (hk : RingingKept m m')
    (hentry : ∀ r k, asked r = some k → m.calls.get? k = some r)
    (hslot : ∀ r k, asked r = some k → (m'.machines r).state = .Incoming →
      m'.pendingAction = some (.EUserAnswer k)) : Served asked m' :=
  fun r k hr hin => ⟨hslot r k hr hin, hk.entry k r (hentry r k hr) hin⟩

lemma WellFormed.eq_of_count (hw : m.WellFormed) (hcount : m.getNoCallsInState .ACTIVE ≤ 1)
    (hx : m.Conversing x) : ∀ y, m.Conversing y → y = x :=
  fun y hy => hw.oneActive_iff_count.mpr hcount y x hy hx

lemma count_ne_zero {rest : List MachineRef} (h : m.enumCallsInState .ACTIVE = x :: rest) :
    m.getNoCallsInState .ACTIVE ≠ 0 := by
  rw [Ne, getNoCallsInState_eq_zero, h]
  simp

/-- **A prompt confirmation carries out the answer that waits.** -/
lemma Waiting.prompt (h : Waiting asked m) {a : List Arrival} {due : Arrival}
    (ha : a.head? = some due) (hdue : due ≠ .later) (hx : m.Conversing x)
    (hcount : Prompt a → m.getNoCallsInState .ACTIVE ≤ 1) (hr : asked r = some k) :
    (((windowOf a).pass due (m.holdCall x) x).machines r).state = .Active := by
  have hprompt : Prompt a := by
    cases due with
    | atOnce => exact Or.inl ha
    | afterQueued => exact Or.inr ha
    | later => exact absurd rfl hdue
  have hone := h.wellFormed.eq_of_count (hcount hprompt) hx
  exact pass_answers (h.wellFormed.holdCall x) ha hx.holder_holdCall
    (fun y hy => hone y (by simpa using hy)) (by simpa using h.pending r k hr)
    (by simpa using h.entry r k hr) (by simpa using h.rings r k hr)

/-- Then the call that waited does not ring any more. -/
lemma Waiting.not_ringing (h : Waiting asked m) {a : List Arrival} {due : Arrival}
    (ha : a.head? = some due) (hdue : due ≠ .later) (hx : m.Conversing x)
    (hcount : Prompt a → m.getNoCallsInState .ACTIVE ≤ 1) (hr : asked r = some k) :
    (((windowOf a).pass due (m.holdCall x) x).machines r).state ≠ .Incoming := by
  rw [h.prompt ha hdue hx hcount hr]
  simp

/-- What is asked for once `onUserAnswer t` has begun: the old answers and that of `t`. -/
structure Noted (asked asked' : MachineRef → Option CallId) (m : CCallManager) (t : CallId) :
    Prop where
  entry : ∀ r k, asked' r = some k → m.calls.get? k = some r
  rings : ∀ r k, asked' r = some k → (m.machines r).state = .Incoming
  new : ∀ r k, asked' r = some k → asked r = some k ∨ k = t

/-- Where an answer that is asked for comes from. -/
lemma Answering.noted_cases {w : Answering} {e : Event} (h : w.noted e r = some k) :
    w.asked r = some k ∨ (e = .onUserAnswer k ∧ w.manager.calls.get? k = some r ∧
      (w.manager.machines r).state = .Incoming) := by
  cases e with
  | onUserAnswer t =>
      simp only [Answering.noted] at h
      split_ifs at h with hnew
      · cases h
        exact Or.inr ⟨rfl, hnew⟩
      · exact Or.inl h
  | _ => exact Or.inl h

lemma Answering.noted_onUserAnswer {w : Answering} (h : Waiting w.asked w.manager) (t : CallId) :
    Noted w.asked (w.noted (.onUserAnswer t)) w.manager t := by
  constructor
  all_goals
    intro r k hr
    rcases Answering.noted_cases hr with hold | ⟨he, hk, hst⟩
  · exact h.entry r k hold
  · exact hk
  · exact h.rings r k hold
  · exact hst
  · exact Or.inl hold
  · exact Or.inr (Event.onUserAnswer.inj he).symm

/-- `onUserAnswer` without an active call: what is still ringing afterwards was asked for before. -/
lemma Waiting.onUserAnswer_idle (h : Waiting asked m) {asked' : MachineRef → Option CallId}
    (hn : Noted asked asked' m t) (henum : m.enumCallsInState .ACTIVE = []) (w : HoldWindow)
    (hr : asked' r = some k) (hin : ((m.onUserAnswer w t).machines r).state = .Incoming) :
    (m.onUserAnswer w t).pendingAction = some (.EUserAnswer k) := by
  simp only [CCallManager.onUserAnswer, henum] at hin ⊢
  cases ht : m.calls.get? t with
  | none =>
      rcases hn.new r k hr with hr' | rfl
      · exact h.pending r k hr'
      · rw [hn.entry r k hr] at ht
        simp at ht
  | some x =>
      simp only [ht] at hin ⊢
      rcases hn.new r k hr with hr' | rfl
      · rw [(acceptCall_effect m x).pending]
        exact h.pending r k hr'
      · rw [hn.entry r k hr, Option.some.injEq] at ht
        subst ht
        rw [(acceptCall_effect m r).state, hn.rings r k hr] at hin
        simp [react] at hin

/-- `onUserAnswer` under the conditions of `Undisturbed`. -/
lemma Waiting.onUserAnswer (h : Waiting asked m) {asked' : MachineRef → Option CallId}
    (hn : Noted asked asked' m t) (a : List Arrival)
    (hcount : Prompt a → m.getNoCallsInState .ACTIVE ≤ 1)
    (hslot : ∀ r k, asked r = some k → t = k ∨ m.getNoCallsInState .ACTIVE = 0 ∨
      a.head? = some .atOnce) : Served asked' (m.onUserAnswer (windowOf a) t) := by
  have hops := (RingingKept.keptByOperations m).checked
  have hkept := hops.onUserAnswer (hops.windowOf a) (.refl h.wellFormed) t
  refine hkept.served hn.entry fun r k hr hin => ?_
  rcases henum : m.enumCallsInState .ACTIVE with _ | ⟨sm, rest⟩
  · exact h.onUserAnswer_idle hn henum _ hr hin
  · have hsm := conversing_of_enum henum
    simp only [CCallManager.onUserAnswer, henum] at hin ⊢
    by_cases hq : a.head? = some .afterQueued
    · -- the answer of `t` is in the slot when the confirmation arrives
      have hkt : k = t := by
        rcases hn.new r k hr with hr' | hkt
        · rcases hslot r k hr' with htk | hzero | honce
          · exact htk.symm
          · exact absurd hzero (count_ne_zero henum)
          · rw [hq] at honce
            simp at honce
        · exact hkt
      subst hkt
      rw [pass_of_head_ne .atOnce (by rw [hq]; simp) (by simp)] at hin
      have hone := h.wellFormed.eq_of_count (hcount (Or.inr hq)) hsm
      rw [pass_answers (m := { m.holdCall sm with pendingAction := some (.EUserAnswer k) })
        ((h.wellFormed.holdCall sm).pend _) hq hsm.holder_holdCall
        (fun y hy => hone y (conversing_holdCall.mp hy)) rfl
        (by simpa using hn.entry r k hr) (by simpa using hn.rings r k hr)] at hin
      simp at hin
    · -- the slot is taken last, by the answer of `t`
      rw [pass_of_head_ne _ hq (by simp)] at hin ⊢
      rcases hn.new r k hr with hr' | rfl
      · rcases hslot r k hr' with rfl | hzero | honce
        · rfl
        · exact absurd hzero (count_ne_zero henum)
        · exact absurd hin (h.not_ringing honce (by simp) hsm hcount hr')
      · rfl

/-- `onUserHoldRetrieve` under the conditions of `Undisturbed`. -/
lemma Waiting.onUserHoldRetrieve (h : Waiting asked m) (a : List Arrival)
    (hok : ∀ r k, asked r = some k → (Prompt a → m.getNoCallsInState .ACTIVE ≤ 1) ∧
      ∀ x, m.calls.get? t = some x → (m.machines x).state = .Holding →
        m.getNoCallsInState .ACTIVE = 0 ∨ a.head? = some .atOnce) :
    Served asked (m.onUserHoldRetrieve (windowOf a) t) := by
  have hops := (RingingKept.keptByOperations m).checked
  have hkept := hops.onUserHoldRetrieve (hops.windowOf a) (.refl h.wellFormed) t
  refine hkept.served h.entry fun r k hr hin => ?_
  obtain ⟨hcount, hfree⟩ := hok r k hr
  have hp := h.pending r k hr
  unfold CCallManager.onUserHoldRetrieve at hin ⊢
  split at hin
  · exact hp
  rename_i x ht
  dsimp only at hin ⊢
  split at hin
  · -- the active call itself: a prompt confirmation answers, a late one leaves the slot
    rename_i hst
    have hx : m.Conversing x := ⟨⟨t, ht⟩, hst⟩
    by_cases honce : a.head? = some .atOnce
    · rw [pass_of_head_ne .afterQueued (by rw [honce]; simp) (by simp)] at hin
      exact absurd hin (h.not_ringing honce (by simp) hx hcount hr)
    · rw [pass_of_head_ne _ honce (by simp)] at hin ⊢
      by_cases hq : a.head? = some .afterQueued
      · exact absurd hin (h.not_ringing hq (by simp) hx hcount hr)
      · rw [pass_of_head_ne _ hq (by simp), holdCall_pending]
        exact hp
  · rename_i hst
    rcases henum : m.enumCallsInState .ACTIVE with _ | ⟨sm, rest⟩
    · dsimp only
      rw [(retrieveCall_effect m x).pending]
      exact hp
    · -- another call is active: the retrieval takes the slot, after the answer was carried out
      have hsm := conversing_of_enum henum
      rcases hfree x ht hst with hzero | honce
      · exact absurd hzero (count_ne_zero henum)
      · simp only [henum] at hin
        rw [pass_of_head_ne .afterQueued (by rw [honce]; simp) (by simp)] at hin
        exact absurd hin (h.not_ringing honce (by simp) hsm hcount hr)
  · exact hp

/-- `createOutboundCall` under the conditions of `Undisturbed`. -/
lemma Waiting.createOutboundCall (h : Waiting asked m) (a : List Arrival) (number : String)
    (accountId : ℕ) (hok : ∀ r k, asked r = some k → m.initialized = false ∨
      0 < m.getNoCallsInStates (EStateId.CONNECTING.code ||| EStateId.ALERTING.code) ∨
      m.getNoCallsInState .ACTIVE = 0) :
    Served asked (m.createOutboundCall (windowOf a) number accountId) := by
  have hops := (RingingKept.keptByOperations m).checked
  have hkept := hops.createOutboundCall (hops.windowOf a) (.refl h.wellFormed) number accountId
  refine hkept.served h.entry fun r k hr _ => ?_
  have hp := h.pending r k hr
  simp only [CCallManager.createOutboundCall]
  split
  · exact hp
  split
  · exact hp
  split
  · rw [(outbound h.wellFormed (dialled m number accountId)).pending]
    exact hp
  · rename_i hinit hbusy hcount
    rcases hok r k hr with hi | hb | hc
    · exact absurd (by simp [hi]) hinit
    · exact absurd hb hbusy
    · exact absurd hc hcount

/-- The confirmation of a hold under the conditions of `Undisturbed`. -/
lemma Waiting.holdConfirm (h : Waiting asked m) (a : List Arrival)
    (hok : ∀ r k, asked r = some k → m.getNoCallsInState .ACTIVE ≤ 1) :
    Served asked (m.onCallNotification a k) := by
  have hkept := (RingingKept.keptByOperations m).checked.onCallNotification a (.refl h.wellFormed) k
  refine hkept.served h.entry fun r j hr hin => ?_
  have hp := h.pending r j hr
  unfold onCallNotification at hin ⊢
  split at hin
  · exact hp
  rename_i x hk
  obtain ⟨w, hconf⟩ := onHoldConfirm_eq a m x
  rw [hconf] at hin ⊢
  by_cases hst : (m.machines x).state = .Active
  · have hx : m.Conversing x := ⟨⟨k, hk⟩, hst⟩
    by_cases hreq : (m.machines x).holdRequested = true
    · rw [holdConfirmed_answers h.wellFormed w ⟨hx, hreq⟩ (h.wellFormed.eq_of_count (hok r j hr) hx)
        hp (h.entry r j hr) (h.rings r j hr)] at hin
      simp at hin
    · simpa [holdConfirmed, hst, hreq] using hp
  · unfold holdConfirmed
    split
    · contradiction
    · exact hp

/-- A plain event that ends a call ends a listed one, unless it is a timer of another machine. -/
lemma outcomeOf_gone {e : Event} (h : m.outcomeOf e = some (x, .gone)) :
    (∃ j, m.calls.get? j = some x) ∨ ∃ t, e = .timerElapsed x t ∧
      (m.machines x).running t = true ∧ RunsOut m.around.factory t (m.machines x).state := by
  rcases outcomeOf_cases h with ⟨k, _, -, hk, -⟩ | ⟨k, _, _, -, hk, -⟩ | ⟨t, he, hrun, ho⟩ | ho
  · exact Or.inl ⟨k, hk⟩
  · exact Or.inl ⟨k, hk⟩
  · exact Or.inr ⟨t, he, hrun, reactTimer_eq_gone.mp ho.symm⟩
  · cases ho

/-- A plain event leaves the slot alone, and the entry of a ringing call too. -/
lemma Waiting.plain (h : Waiting asked m) (a : List Arrival) {e : Event} (he : e.plain)
    (hok : ∀ x t, e = .timerElapsed x t → ∀ r k, asked r = some k →
      (m.machines x).running t = true → RunsOut m.around.factory t (m.machines x).state →
      (m.machines x).session = some k → x = r) : Served asked (m.handle a e) := by
  have heff := plain_effect a m he
  split at heff
  · rw [heff]
    exact fun r k hr _ => ⟨h.pending r k hr, h.entry r k hr⟩
  rename_i x o hout
  intro r k hr hin
  refine ⟨by rw [heff.pending]; exact h.pending r k hr, ?_⟩
  have hk := h.entry r k hr
  rw [heff.calls]
  cases o with
  | stay => simpa using hk
  | goto st => simpa using hk
  | gone =>
      have hne : x ≠ r := by
        rintro rfl
        rw [heff.state] at hin
        simp at hin
      have hses : (m.machines x).session ≠ some k := by
        intro hses
        rcases outcomeOf_gone hout with ⟨j, hj⟩ | ⟨t, rfl, hrun, hout'⟩
        · rw [h.wellFormed.session j x hj, Option.some.injEq] at hses
          rw [hses, hk, Option.some.injEq] at hj
          exact hne hj.symm
        · exact hne (hok x t rfl r k hr hrun hout' hses)
      cases hx : (m.machines x).session with
      | none => exact hk
      | some j =>
          have hkj : k ≠ j := by
            rintro rfl
            exact hses hx
          simpa [hkj] using hk

/-- A new call leaves the entries of other ringing calls alone. -/
lemma Waiting.incoming (h : Waiting asked m) (k : CallId) :
    Served asked (m.onCallStateChanged k .SESSION_STATE_INCOMING) := by
  intro r j hr hin
  have hj := h.entry r j hr
  rcases m.incoming_cases k with ⟨old, hold, he⟩ | ⟨hnone, d, hd, he⟩
  · refine ⟨by rw [he.pending]; exact h.pending r j hr, ?_⟩
    have hne : r ≠ old := by
      rintro rfl
      rw [he.state, announced_of_ne k (ne_of_lt (h.wellFormed.created j r hj)),
        h.rings r j hr] at hin
      revert hin
      simp only [react, ending]
      split_ifs <;> simp
    have hjk : j ≠ k := by
      rintro rfl
      rw [hj, Option.some.injEq] at hold
      exact hne hold
    have hses := (h.wellFormed.announced k).session k old hold
    rw [he.calls, hses]
    cases react m.around.factory .endCall ((m.announced k).machines old).state with
    | stay => simpa using hj
    | goto st => simpa using hj
    | gone => simpa [hjk] using hj
  · rw [he]
    have hjk : j ≠ k := by
      rintro rfl
      rw [hj] at hnone
      simp at hnone
    exact ⟨h.pending r j hr, by simpa [get?_of_add? hd, hjk] using hj⟩

/-- A renamed call leaves the entries of the others alone. -/
lemma Waiting.replaced (h : Waiting asked m) (old new : CallId)
    (hok : ∀ r k, asked r = some k → old ≠ k) : Served asked (m.onCallReplaced old new).1 := by
  intro r k hr _
  have hk := h.entry r k hr
  have hp := h.pending r k hr
  rcases m.replaced_cases old new with ⟨-, he⟩ | ⟨call, d, -, he, hd⟩
  · rw [he]
    exact ⟨hp, hk⟩
  · rw [he]
    refine ⟨hp, ?_⟩
    have hne := hok r k hr
    have hfree : ¬ (k = new ∧ (new = old ∨ m.calls.get? new = none)) := by
      rintro ⟨rfl, rfl | hnone⟩
      · exact hne rfl
      · rw [hk] at hnone
        simp at hnone
    simp [hd, hfree, Ne.symm hne, hk]

end Steps

/-! ## The runs -/

/-- What is asked for is waiting. -/
def Answering.AllWaiting (w : Answering) : Prop := Waiting w.asked w.manager

/-- An undisturbed step keeps every answer. -/
lemma Answering.perform_allWaiting {w : Answering} (h : w.AllWaiting) (l : List Arrival × Event)
    (hl : l.2.interleaved) (hok : Undisturbed w l) : (w.perform l).AllWaiting := by
  obtain ⟨a, e⟩ := l
  have h₀ : Waiting w.asked { w.manager with out := [] } :=
    ⟨h.wellFormed.cleared, h.pending, h.entry, h.rings⟩
  -- it is enough that each answer asked for is served
  suffices hserved : Served (w.noted e) (w.manager.perform (a, e)) by
    have hnoted : ∀ r k, (w.perform (a, e)).asked r = some k →
        ((w.manager.perform (a, e)).machines r).state = .Incoming ∧ w.noted e r = some k := by
      intro r k hr
      simp only [Answering.perform] at hr
      split_ifs at hr with hin
      exact ⟨hin, hr⟩
    refine ⟨stepWith_wellFormed a h.wellFormed e, fun r k hr => ?_, fun r k hr => ?_,
      fun r k hr => (hnoted r k hr).1⟩
    · exact (hserved r k (hnoted r k hr).2 (hnoted r k hr).1).1
    · exact (hserved r k (hnoted r k hr).2 (hnoted r k hr).1).2
  by_cases hplain : e.plain
  · have hsame : w.noted e = w.asked := by
      cases e <;> first | rfl | simp [Event.plain] at hplain
    rw [hsame]
    refine h₀.plain a hplain fun x t he => ?_
    subst he
    exact hok
  cases e with
  | createOutboundCall number accountId => exact h₀.createOutboundCall a number accountId hok
  | onUserAnswer t =>
      have hn := Answering.noted_onUserAnswer h t
      have hn₀ : Noted w.asked (w.noted (.onUserAnswer t)) { w.manager with out := [] } t :=
        ⟨hn.entry, hn.rings, hn.new⟩
      exact h₀.onUserAnswer hn₀ a hok.1 hok.2
  | onUserHoldRetrieve t => exact h₀.onUserHoldRetrieve a hok
  | callStateChanged k st =>
      have hst : st = .SESSION_STATE_INCOMING := by simpa [Event.plain] using hplain
      subst hst
      exact h₀.incoming k
  | holdConfirm k => exact h₀.holdConfirm a hok
  | callReplaced old new => exact h₀.replaced old new hok
  | surroundings around => exact fun r k hr _ => ⟨h.pending r k hr, h.entry r k hr⟩
  | onUserConference _ => simp [Event.interleaved] at hl
  | Initialize _ => simp [Event.interleaved] at hl
  | Shutdown => simp [Event.interleaved] at hl
  | onUserRelease _ | onUserTransfer _ _ | onUserDialDigit _ _ | callIncoming _ _ _
  | timerElapsed _ _ => simp [Event.plain] at hplain

/-- **No answer is lost** in a run that does not disturb the answers that wait. -/
theorem answersKept_of_undisturbed (around : Surroundings) (run : List (List Arrival × Event))
    (hrun : ∀ l ∈ run, l.2.interleaved)
    (hok : Along Answering.perform Undisturbed (Answering.initial around) run) :
    Throughout Answering.perform Answering.AnswersKept (Answering.initial around) run := by
  have hinit : (Answering.initial around).AllWaiting :=
    ⟨.initial around, fun _ _ h => by simp [Answering.initial] at h,
      fun _ _ h => by simp [Answering.initial] at h, fun _ _ h => by simp [Answering.initial] at h⟩
  exact throughout_of_along (J := Answering.AllWaiting)
    (fun w l h hl => Answering.perform_allWaiting h l hl.1 hl.2) (fun w h => h.pending) hinit
    (along_and (along_of_forall hrun _) hok)

/-- A call is active, and a second one rings. -/
def secondCall : List (List Arrival × Event) :=
  [([], .callStateChanged 1 .SESSION_STATE_INCOMING), ([], .callIncoming 1 "first" ""),
   ([], .onUserAnswer 1), ([], .callStateChanged 2 .SESSION_STATE_INCOMING),
   ([], .callIncoming 2 "second" "")]

/-- The second call is answered, and the hold of the first one is confirmed. -/
theorem answersKept_of_undisturbed_second_call :
    Throughout Answering.perform Answering.AnswersKept (Answering.initial {})
      (secondCall ++ [([], .onUserAnswer 2), ([], .holdConfirm 1)]) := by
  refine answersKept_of_undisturbed {} _ (by decide) ?_
  have hprompt : Prompt [] → False := by rintro (h | h) <;> simp at h
  refine ⟨trivial, trivial, ⟨fun h => (hprompt h).elim, ?_⟩, trivial, trivial,
    ⟨fun h => (hprompt h).elim, ?_⟩, ?_, trivial⟩
  · exact fun _ _ _ => Or.inr (Or.inl (by decide))
  · -- nothing is waiting yet: the first answer was carried out at once
    have hasked : ∀ (w : Answering) (l : List Arrival × Event) (r k : ℕ),
        (w.perform l).asked r = some k → (∀ t, l.2 ≠ .onUserAnswer t) → w.asked r = some k := by
      intro w l r k hr he
      simp only [Answering.perform] at hr
      split_ifs at hr
      rcases Answering.noted_cases hr with h | ⟨h, -⟩
      · exact h
      · exact absurd h (he k)
    intro r k hr
    have hr := hasked _ _ r k (hasked _ _ r k hr (by simp)) (by simp)
    simp only [Answering.perform] at hr
    split_ifs at hr with hin
    rcases Answering.noted_cases hr with h | ⟨he, hk, -⟩
    · have h := hasked _ _ r k (hasked _ _ r k h (by simp)) (by simp)
      simp [Answering.initial] at h
    · cases he
      cases hk
      exact absurd hin (by decide)
  · exact fun _ _ _ => by decide

/-- While the answer of the second call waits, a third call is answered. -/
def thirdCall : List (List Arrival × Event) :=
  secondCall ++ [([], .callStateChanged 3 .SESSION_STATE_INCOMING),
    ([], .callIncoming 3 "third" ""),
    ([], .onUserAnswer 2), ([], .onUserAnswer 3)]

/-- **The first answer is lost**: its call still rings, and the slot holds the other one. -/
theorem overwritten_by_second_answer : (∀ l ∈ thirdCall, l.2.interleaved) ∧
    (run Answering.perform (.initial {}) thirdCall).asked 1 = some 2 ∧
    ((run Answering.perform (.initial {}) thirdCall).manager.machines 1).state = .Incoming ∧
    (run Answering.perform (.initial {}) thirdCall).manager.pendingAction = some (.EUserAnswer 3) ∧
    ¬ (run Answering.perform (.initial {}) thirdCall).AnswersKept := by
  have hasked : (run Answering.perform (.initial {}) thirdCall).asked 1 = some 2 := by
    decide +kernel
  have hslot : (run Answering.perform (.initial {}) thirdCall).manager.pendingAction =
      some (.EUserAnswer 3) := by decide +kernel
  refine ⟨by decide, hasked, by decide +kernel, hslot, fun h => ?_⟩
  have := h 1 2 hasked
  rw [hslot] at this
  simp at this

end CCallManager

end TAM
