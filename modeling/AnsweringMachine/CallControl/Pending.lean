import AnsweringMachine.CallControl.Conversation

/-!
# The pending action and the hold it waits for

An operation that must put the active call on hold first leaves itself behind as the pending action;
the confirmation of the hold runs it.  What it waits for is a `Holder`: a listed call that is active
and has its hold requested.

`pendingHeld_iff` is about runs in which a hold may be confirmed at any time after the action was
queued, also while the operation that queued it is still running: a pending action always has a
holder if and only if no step takes the last holder away while an action is pending.  The ways to
take a holder away are listed in `TakesAway`; none of them is concerned with the slot.
`released_while_pending` is the shortest run that leaves an action behind.

An answer and a retrieval ask for the hold before they fill the slot.  A confirmation that arrives
in between finds nothing to run, and runs of that kind are left out (`QueuesFirst`).
-/

namespace TAM

namespace CCallManager

open Dictionary Runs

variable {m m' : CCallManager} {r s : MachineRef} {k : CallId} {o : Outcome}

/-- A call in conversation whose hold has been requested. -/
def Holder (m : CCallManager) (r : MachineRef) : Prop :=
  m.Conversing r ∧ (m.machines r).holdRequested = true

/-- A pending action has a hold to wait for. -/
def PendingHeld (m : CCallManager) : Prop := m.pendingAction ≠ none → ∃ r, m.Holder r

/-! ## Who stays a holder -/

lemma Conversing.holder_holdCall (h : m.Conversing r) : (m.holdCall r).Holder r := by
  obtain ⟨⟨k, hk⟩, hst⟩ := h
  exact ⟨⟨⟨k, by simpa using hk⟩, by simpa using hst⟩, by simp [holdCall_machines, hst]⟩

lemma Holder.holdCall (h : m.Holder s) (r : MachineRef) : (m.holdCall r).Holder s := by
  obtain ⟨⟨⟨k, hk⟩, hst⟩, hh⟩ := h
  refine ⟨⟨⟨k, by simpa using hk⟩, by simpa using hst⟩, ?_⟩
  rw [holdCall_machines]
  split_ifs
  · rfl
  · exact hh

/-- A holder survives what happens to another machine, unless that machine goes and takes the
holder's id along. -/
lemma Holder.effect (h : m.Holder s) (hw : m.WellFormed) (he : Effect m m' r o)
    (hkeep : s ≠ r ∨ o = .stay)
    (hid : o = .gone → (m.machines r).session ≠ (m.machines s).session) : m'.Holder s := by
  obtain ⟨⟨⟨k, hk⟩, hst⟩, hh⟩ := h
  have hmach : (m'.machines s).state = .Active ∧ (m'.machines s).holdRequested = true := by
    by_cases hs : s = r
    · subst hs
      rcases hkeep with hne | rfl
      · exact absurd rfl hne
      · exact ⟨he.state.trans hst, he.held.trans hh⟩
    · rw [he.others s hs]
      exact ⟨hst, hh⟩
  refine ⟨⟨⟨k, ?_⟩, hmach.1⟩, hmach.2⟩
  rw [he.calls]
  cases o with
  | stay => simpa using hk
  | goto st => simpa using hk
  | gone =>
      have hne := hid rfl
      rw [hw.session k s hk] at hne
      cases hr : (m.machines r).session with
      | none => exact hk
      | some j =>
          have hkj : k ≠ j := by
            rintro rfl
            exact hne hr
          simpa [hkj] using hk

/-- Whoever is a holder after a handler was one before, or its call was just connected. -/
lemma WellFormed.holder_of_effect (hw : m.WellFormed) (he : Effect m m' r o) (h : m'.Holder s) :
    (m.Holder s ∧ (s = r → o = .stay)) ∨ (s = r ∧ o = .goto .Active) := by
  obtain ⟨hc, hh⟩ := h
  have hst := hc.2
  rcases hw.conversing_of_effect he hc with hm | hr
  · by_cases hs : s = r
    · subst hs
      rw [he.held] at hh
      rw [he.state] at hst
      cases o with
      | stay => exact Or.inl ⟨⟨hm, hh⟩, fun _ => rfl⟩
      | goto st => exact Or.inr ⟨rfl, congrArg _ hst⟩
      | gone => simp at hst
    · rw [he.others s hs] at hh
      exact Or.inl ⟨⟨hm, hh⟩, fun e => absurd e hs⟩
  · exact Or.inr hr

/-- Two listed machines with one session are the same. -/
lemma WellFormed.eq_of_session (hw : m.WellFormed) {j k : CallId} (hj : m.calls.get? j = some r)
    (hk : m.calls.get? k = some s) (h : (m.machines r).session = (m.machines s).session) :
    r = s := by
  rw [hw.session j r hj, hw.session k s hk, Option.some.injEq] at h
  rw [h, hk] at hj
  exact (Option.some.inj hj).symm

/-! ## How a holder is taken away -/

/-- The expiry of this timer ends a call in this state at once: the release timer does, and the
no-response timer of a ringing call does if there is no release timer to wait for. -/
def RunsOut (f : AbstractFactory) : ETimerType → IAbstractState → Prop
  | .ENOREPLY, _ => False
  | .ERELEASED, st => st = .Released ∨ st = .Terminated
  | .ENORESPONSE, st => st = .Incoming ∧ f.timersRun = false

lemma reactTimer_eq_gone {f : AbstractFactory} {t : ETimerType} {st : IAbstractState} :
    reactTimer f t st = .gone ↔ RunsOut f t st := by
  cases t <;> cases st <;> simp [reactTimer, react, RunsOut, ending]

/-- The event takes the holder `r` away: its call is released by the user or by the far end, its id
comes up for a new call, it is renamed to an id that is taken, a machine outside the table that
still has its id runs out of time, or the table is emptied. -/
def TakesAway (m : CCallManager) (r : MachineRef) : Event → Prop
  | .onUserRelease s => m.calls.get? s = some r
  | .callStateChanged k .SESSION_STATE_INCOMING => m.calls.get? k = some r
  | .callStateChanged k .SESSION_STATE_DISCONNECTED => m.calls.get? k = some r
  | .callReplaced old new => m.calls.get? old = some r ∧ new ≠ old ∧ m.calls.get? new ≠ none
  | .timerElapsed s t => (m.machines s).running t = true ∧
      RunsOut m.around.factory t (m.machines s).state ∧
      (m.machines s).session = (m.machines r).session
  | .Initialize _ => m.initialized = false
  | .Shutdown => True
  | _ => False

/-- While an action is pending, the step leaves a holder in place. -/
def LeavesHolder (m : CCallManager) (e : Event) : Prop :=
  m.pendingAction ≠ none → ∃ r, m.Holder r ∧ ¬ m.TakesAway r e

/-- An event for a listed machine takes no other id away than its own. -/
lemma WellFormed.holder_of_listed (hw : m.WellFormed) (hs : m.Holder s)
    (hk : m.calls.get? k = some r)
    (hstay : s = r → o = .stay) :
    (s ≠ r ∨ o = .stay) ∧ (o = .gone → (m.machines r).session ≠ (m.machines s).session) := by
  obtain ⟨⟨⟨j, hj⟩, -⟩, -⟩ := hs
  have hor : s ≠ r ∨ o = .stay := by
    by_cases hsr : s = r
    · exact Or.inr (hstay hsr)
    · exact Or.inl hsr
  refine ⟨hor, fun hgone hses => ?_⟩
  rw [hw.eq_of_session hk hj hses, hgone] at hstay
  exact absurd (hstay rfl) (by simp)

/-- What a plain event does to a holder: nothing, unless it takes it away. -/
lemma outcomeOf_holder (hw : m.WellFormed) {e : Event} (hout : m.outcomeOf e = some (r, o))
    (hs : m.Holder s) (hnot : ¬ m.TakesAway s e) :
    (s ≠ r ∨ o = .stay) ∧ (o = .gone → (m.machines r).session ≠ (m.machines s).session) := by
  have hst : (m.machines s).state = .Active := hs.1.2
  rcases outcomeOf_cases hout with ⟨k, i, hi, hk, rfl⟩ | ⟨k, _, _, -, hk, rfl⟩ |
    ⟨t, rfl, hrun, rfl⟩ | rfl
  · refine hw.holder_of_listed hs hk fun hsr => ?_
    subst hsr
    rw [hst]
    simp only [Event.signal] at hi
    split at hi <;> simp only [Option.some.injEq, Prod.mk.injEq, reduceCtorEq] at hi <;>
      obtain ⟨rfl, rfl⟩ := hi
    · exact absurd hk hnot
    · rfl
    · rfl
    · exact absurd hk hnot
  · refine hw.holder_of_listed hs hk fun hsr => ?_
    subst hsr
    rw [hst]
    rfl
  · constructor
    · by_cases hsr : s = r
      · subst hsr
        rw [hst]
        cases t <;> exact Or.inr rfl
      · exact Or.inl hsr
    -- the machine may be outside the table, but then it is the one that runs out of time
    · intro hgone hses
      exact hnot ⟨hrun, reactTimer_eq_gone.mp hgone, hses⟩
  · exact ⟨Or.inr rfl, by simp⟩

/-- **A handler that takes every holder away**: its own machine, or those with its id. -/
lemma WellFormed.no_holder_of_effect (hw : m.WellFormed) (he : Effect m m' r o)
    (ho : o ≠ .goto .Active) (htake : ∀ s, m.Holder s → (s = r ∧ o ≠ .stay) ∨
      (o = .gone ∧ (m.machines r).session = (m.machines s).session)) : ∀ s, ¬ m'.Holder s := by
  intro s hs
  rcases hw.holder_of_effect he hs with ⟨hold, hstay⟩ | ⟨-, hgo⟩
  · rcases htake s hold with ⟨hsr, hne⟩ | ⟨rfl, hses⟩
    · exact hne (hstay hsr)
    · obtain ⟨⟨⟨k, hk⟩, -⟩, -⟩ := hs
      rw [hw.session k s (hw.listed_of_effect he hk).1] at hses
      rw [he.calls, hses] at hk
      simp at hk
  · exact ho hgo

/-- A call that ends does not stay, and does not become active. -/
lemma ending_ne {st : IAbstractState} (f : AbstractFactory) (hst : st ≠ .Active) :
    ending f st ≠ .stay ∧ ending f st ≠ .goto .Active := by
  simp only [ending]
  split_ifs <;> simp [hst]

/-- **The end of the only holder**: its call is the one that all holders would have to be. -/
lemma WellFormed.no_holder_of_ending {f : AbstractFactory} {st : IAbstractState}
    (hw : m.WellFormed) (hst : st ≠ .Active) (he : Effect m m' r (ending f st))
    (hk : m.calls.get? k = some r) (honly : ∀ s, m.Holder s → m.calls.get? k = some s) :
    ∀ s, ¬ m'.Holder s := by
  obtain ⟨hstay, hactive⟩ := ending_ne f hst
  refine hw.no_holder_of_effect he hactive fun s hs => Or.inl ⟨?_, hstay⟩
  have hks := honly s hs
  rw [hk, Option.some.injEq] at hks
  exact hks.symm

/-! ## New and renamed calls, and the end of the table -/

/-- A new machine is not a holder, and the others are as they were. -/
lemma WellFormed.holder_announced (hw : m.WellFormed) : (m.announced k).Holder s ↔ m.Holder s := by
  have hne : ∀ j, m.calls.get? j = some s → (m.announced k).machines s = m.machines s :=
    fun j hj => announced_of_ne k (ne_of_lt (hw.created j s hj))
  constructor
  · rintro ⟨⟨⟨j, hj⟩, hst⟩, hh⟩
    rw [hne j hj] at hst hh
    exact ⟨⟨⟨j, hj⟩, hst⟩, hh⟩
  · rintro ⟨⟨⟨j, hj⟩, hst⟩, hh⟩
    rw [← hne j hj] at hst hh
    exact ⟨⟨⟨j, hj⟩, hst⟩, hh⟩

lemma incoming_pending (m : CCallManager) (k : CallId) :
    (m.onCallStateChanged k .SESSION_STATE_INCOMING).pendingAction = m.pendingAction := by
  rcases m.incoming_cases k with ⟨old, -, he⟩ | ⟨-, d, -, he⟩
  · exact he.pending
  · rw [he]; rfl

lemma Holder.incoming (hs : m.Holder s) (hw : m.WellFormed) (hnot : m.calls.get? k ≠ some s) :
    (m.onCallStateChanged k .SESSION_STATE_INCOMING).Holder s := by
  have hann := (hw.holder_announced (k := k)).mpr hs
  have hw := hw.announced k
  rcases m.incoming_cases k with ⟨old, hk, he⟩ | ⟨hk, d, hd, he⟩
  · have hne : s ≠ old := by
      rintro rfl
      exact hnot hk
    refine hann.effect hw he (Or.inl hne) fun _ hses => hne ?_
    obtain ⟨j, hj⟩ := hs.1.1
    exact hw.eq_of_session hj hk hses.symm
  · rw [he]
    obtain ⟨⟨⟨j, hj⟩, hst⟩, hh⟩ := hann
    refine ⟨⟨⟨j, ?_⟩, hst⟩, hh⟩
    have hjk : j ≠ k := by
      rintro rfl
      rw [announced_calls, hk] at hj
      simp at hj
    simpa [get?_of_add? hd, hjk] using hj

lemma Holder.replaced {old new : CallId} (hs : m.Holder s)
    (hnot : ¬ m.TakesAway s (.callReplaced old new)) : (m.onCallReplaced old new).1.Holder s := by
  rcases m.replaced_cases old new with ⟨-, he⟩ | ⟨call, d, hold, he, hd⟩
  · rw [he]; exact hs
  obtain ⟨⟨⟨j, hj⟩, hst⟩, hh⟩ := hs
  rw [he]
  by_cases hsc : s = call
  · subst hsc
    have hfree : new = old ∨ m.calls.get? new = none := by
      by_contra hne
      rw [not_or] at hne
      exact hnot ⟨hold, hne⟩
    exact ⟨⟨⟨new, by simp [hd, hfree]⟩, by simpa using hst⟩, by simpa using hh⟩
  · have hjo : j ≠ old := by
      rintro rfl
      rw [hj] at hold
      exact hsc (Option.some.inj hold)
    have hjn : ¬ (j = new ∧ (new = old ∨ m.calls.get? new = none)) := by
      rintro ⟨rfl, hno | hno⟩
      · exact hjo hno
      · rw [hj] at hno
        simp at hno
    exact ⟨⟨⟨j, by simp [hd, hjn, hjo, hj]⟩, by simpa [hsc] using hst⟩, by simpa [hsc] using hh⟩

/-- A new call under the id of the only holder ends it. -/
lemma WellFormed.no_holder_incoming (hw : m.WellFormed) (hr : m.Holder r)
    (hk : m.calls.get? k = some r) (honly : ∀ s, m.Holder s → m.calls.get? k = some s) :
    ∀ s, ¬ (m.onCallStateChanged k .SESSION_STATE_INCOMING).Holder s := by
  have he := endCall_effect (m.announced k) r
  rw [← incoming_eq_endCall hk, ((hw.holder_announced (k := k)).mpr hr).1.2] at he
  exact (hw.announced k).no_holder_of_ending (by simp) he hk fun s hs =>
    honly s (hw.holder_announced.mp hs)

/-- The only holder is renamed to an id that is taken, and is listed no longer. -/
lemma WellFormed.no_holder_replaced {old new : CallId} (hw : m.WellFormed) (hne : new ≠ old)
    (htaken : m.calls.get? new ≠ none) (hold : m.calls.get? old = some r)
    (honly : ∀ s, m.Holder s → m.calls.get? old = some s) :
    ∀ s, ¬ (m.onCallReplaced old new).1.Holder s := by
  rcases m.replaced_cases old new with ⟨hnone, -⟩ | ⟨call, d, hcall, he, hd⟩
  · rw [hold] at hnone
    simp at hnone
  rw [he]
  rintro s ⟨⟨⟨j, hj⟩, hst⟩, hh⟩
  simp only [hd, hne, htaken, or_self, and_false, if_false] at hj
  split_ifs at hj with hjo
  have hsc : s ≠ call := by
    rintro rfl
    exact hjo (hw.key_unique hj hcall)
  have hs : m.Holder s := ⟨⟨⟨j, hj⟩, by simpa [hsc] using hst⟩, by simpa [hsc] using hh⟩
  exact hjo (hw.key_unique hj (honly s hs))

lemma replaced_pending (m : CCallManager) (old new : CallId) :
    (m.onCallReplaced old new).1.pendingAction = m.pendingAction := by
  rcases m.replaced_cases old new with ⟨-, he⟩ | ⟨call, d, -, he, -⟩
  · rw [he]
  · rw [he]; rfl

lemma shutdown_pending (m : CCallManager) : m.Shutdown.pendingAction = m.pendingAction :=
  List.foldlRecOn (motive := fun m' : CCallManager => m'.pendingAction = m.pendingAction) _ destroy
    rfl fun m' h r _ => (destroy_effect m' r).pending.trans h

/-! ## Confirmations -/

/-- Whatever arrives in turn, a confirmation is one call of `holdConfirmed`. -/
lemma onHoldConfirm_eq (a : List Arrival) (m : CCallManager) (r : MachineRef) :
    ∃ w, m.onHoldConfirm a r = m.holdConfirmed w r := by
  cases a with
  | nil => exact ⟨_, rfl⟩
  | cons b rest => exact ⟨_, rfl⟩

/-- Nothing arrives in a window that is not the one of the first arrival. -/
lemma pass_of_head_ne {a : List Arrival} (due : Arrival) (ha : a.head? ≠ some due)
    (hdue : due ≠ .later) (m : CCallManager) (r : MachineRef) : (windowOf a).pass due m r = m := by
  cases a with
  | nil => exact sequential_pass due hdue m r
  | cons b rest =>
      have hb : b ≠ due := fun e => ha (by rw [e]; rfl)
      simp [HoldWindow.pass, windowOf, hb]

/-- A confirmation that arrives in the window of the hold request. -/
lemma Holder.pass_eq (hx : m.Holder r) (hw : m.WellFormed) {a : List Arrival} {due : Arrival}
    (ha : a.head? = some due) : ∃ w, (windowOf a).pass due m r = m.holdConfirmed w r := by
  obtain ⟨rest, rfl⟩ : ∃ rest, a = due :: rest := by
    cases a with
    | nil => simp at ha
    | cons b rest => exact ⟨rest, by rw [Option.some.inj ha]⟩
  obtain ⟨j, hj⟩ := hx.1.1
  simp only [HoldWindow.pass, windowOf, if_true, hw.session j r hj, onCallNotification, hj]
  exact onHoldConfirm_eq rest m r

/-- **The confirmation of a hold empties the slot**, whatever it has run. -/
lemma Holder.holdConfirmed_pending (hx : m.Holder r) (w : HoldWindow) :
    (m.holdConfirmed w r).pendingAction = none := by
  simp only [holdConfirmed, hx.1.2, hx.2, if_true]
  rfl

/-- An action that is queued has a hold to wait for, or has been run. -/
lemma Holder.pass_pendingHeld (hx : m.Holder r) (hw : m.WellFormed)
    (a : List Arrival) {due : Arrival}
    (hdue : due ≠ .later) : ((windowOf a).pass due m r).PendingHeld := by
  by_cases ha : a.head? = some due
  · obtain ⟨w, heq⟩ := hx.pass_eq hw ha
    rw [heq]
    exact fun hp => absurd (hx.holdConfirmed_pending w) hp
  · rw [pass_of_head_ne due ha hdue]
    exact fun _ => ⟨r, hx⟩

/-- Both windows of a hold request: one confirmation arrives in one of them at most. -/
lemma Holder.passes_pendingHeld (hx : m.Holder r) (hw : m.WellFormed) (a : List Arrival) :
    ((windowOf a).pass .afterQueued ((windowOf a).pass .atOnce m r) r).PendingHeld := by
  by_cases ha : a.head? = some .atOnce
  · rw [pass_of_head_ne .afterQueued (by simp [ha]) (by simp)]
    exact hx.pass_pendingHeld hw a (by simp)
  · rw [pass_of_head_ne .atOnce ha (by simp)]
    exact hx.pass_pendingHeld hw a (by simp)

/-! ## The steps that keep a holder -/

/-- A well-formed table, and a hold for every pending action. -/
structure HoldAwaited (m : CCallManager) : Prop where
  wellFormed : m.WellFormed
  held : m.PendingHeld

namespace HoldAwaited

/-- With no call active, nothing is pending. -/
lemma pending_eq_none (h : m.HoldAwaited) (hnone : m.enumCallsInState .ACTIVE = []) :
    m.pendingAction = none := by
  by_contra hp
  obtain ⟨r, hr, -⟩ := h.held hp
  exact enum_active_eq_nil.mp hnone r hr

/-- Asking for a hold, and queueing an action before it is confirmed. -/
lemma held_of_queued (h : m.HoldAwaited) (hr : m.Conversing r) (a : List Arrival)
    (p : PendingAction) :
    ((windowOf a).pass .afterQueued { m.holdCall r with pendingAction := some p } r).PendingHeld :=
  Holder.pass_pendingHeld (m := { m.holdCall r with pendingAction := some p }) hr.holder_holdCall
    ((h.wellFormed.holdCall r).pend _) a (by simp)

lemma createOutboundCall (h : m.HoldAwaited) (a : List Arrival) (number : String) (accountId : ℕ) :
    (m.createOutboundCall (windowOf a) number accountId).PendingHeld := by
  simp only [CCallManager.createOutboundCall]
  split
  · exact h.held
  split
  · exact h.held
  split
  · rename_i hcount
    have hpending := (outbound h.wellFormed (dialled m number accountId)).pending
    rw [h.pending_eq_none (getNoCallsInState_eq_zero.mp hcount)] at hpending
    exact fun hp => absurd hpending hp
  · rename_i hcount
    simp only [getCallInState_eq_head?]
    -- the count was positive, so there is an active call to be found
    rcases henum : m.enumCallsInState .ACTIVE with _ | ⟨r, rest⟩
    · exact absurd (getNoCallsInState_eq_zero.mpr henum) hcount
    · have hr := conversing_of_enum henum
      let m₁ := { m with pendingAction := some (.ECreateSession number accountId) }
      have henum' : m₁.enumCallsInState .ACTIVE = r :: rest := henum
      rw [henum']
      exact Holder.passes_pendingHeld (Conversing.holder_holdCall (m := m₁) hr)
        ((h.wellFormed.pend _).holdCall r) a

lemma onUserAnswer (h : m.HoldAwaited) {a : List Arrival} (ha : a.head? ≠ some .atOnce)
    (s : CallId) : (m.onUserAnswer (windowOf a) s).PendingHeld := by
  simp only [CCallManager.onUserAnswer]
  split
  · rename_i sm rest henum
    rw [pass_of_head_ne .atOnce ha (by simp)]
    exact h.held_of_queued (conversing_of_enum henum) a _
  · rename_i hnone
    split
    · exact h.held
    · exact fun hp => absurd ((acceptCall_effect m _).pending.trans (h.pending_eq_none hnone)) hp

lemma onUserHoldRetrieve (h : m.HoldAwaited) {a : List Arrival} (ha : a.head? ≠ some .atOnce)
    (s : CallId) : (m.onUserHoldRetrieve (windowOf a) s).PendingHeld := by
  simp only [CCallManager.onUserHoldRetrieve]
  split
  · exact h.held
  rename_i r hr
  split
  · rename_i hst
    exact Holder.passes_pendingHeld (Conversing.holder_holdCall ⟨⟨s, hr⟩, hst⟩)
      (h.wellFormed.holdCall r) a
  · split
    · rename_i sm rest henum
      rw [pass_of_head_ne .atOnce ha (by simp)]
      exact h.held_of_queued (conversing_of_enum henum) a _
    · rename_i hnone
      exact fun hp => absurd ((retrieveCall_effect m _).pending.trans (h.pending_eq_none hnone)) hp
  · exact h.held

lemma onUserConference (h : m.HoldAwaited) : m.onUserConference.PendingHeld := by
  simp only [CCallManager.onUserConference]
  split_ifs
  · split
    · exact h.held
    · rename_i call hcall
      have hst : (m.machines call).state = .Holding :=
        IAbstractState.id_inj.mp (getCallInState_mem hcall).2
      have he := retrieveCall_effect m call
      rw [hst] at he
      have hc := conferenceCall_effect (m.retrieveCall call) call
      intro hp
      rw [hc.pending, he.pending] at hp
      obtain ⟨r, hr⟩ := h.held hp
      have hne : r ≠ call := by
        rintro rfl
        rw [hr.1.2] at hst
        simp at hst
      exact ⟨r, (hr.effect h.wellFormed he (Or.inl hne) (by simp [react])).effect
        (h.wellFormed.effect he) hc (Or.inr rfl) (by simp)⟩
  · exact h.held

/-- The confirmation of a hold empties the slot. -/
lemma holdConfirm (h : m.HoldAwaited) (a : List Arrival) (k : CallId) :
    (m.onCallNotification a k).PendingHeld := by
  simp only [onCallNotification]
  split
  · exact h.held
  · rename_i r _
    obtain ⟨w, hconf⟩ := onHoldConfirm_eq a m r
    rw [hconf]
    unfold holdConfirmed
    split
    · split_ifs with hh
      · exact fun hp => absurd rfl hp
      · intro hp
        obtain ⟨s, hs, hh'⟩ := h.held hp
        have hne : s ≠ r := by
          rintro rfl
          exact hh hh'
        exact ⟨s, ⟨hs.1, by simpa [hne] using hs.2⟩, by simpa [hne] using hh'⟩
    · exact h.held

end HoldAwaited

/-! ## The runs -/

/-- An answer or a retrieval queues its action before the hold it asks for is confirmed. -/
def QueuesFirst : List Arrival × Event → Prop
  | (a, .onUserAnswer _) | (a, .onUserHoldRetrieve _) => a.head? ≠ some .atOnce
  | _ => True

/-- A step that leaves a holder in place keeps the invariant. -/
lemma stepWith_holdAwaited (h : m.HoldAwaited) (a : List Arrival) (e : Event)
    (hqueues : QueuesFirst (a, e)) (hok : m.LeavesHolder e) : (m.stepWith a e).HoldAwaited := by
  refine ⟨stepWith_wellFormed a h.wellFormed e, ?_⟩
  have h₀ : { m with out := [] }.HoldAwaited := ⟨h.wellFormed.cleared, h.held⟩
  change (handle a { m with out := [] } e).PendingHeld
  have hok₀ : { m with out := [] }.LeavesHolder e := hok
  generalize { m with out := [] } = m₀ at h₀ hok₀
  by_cases hplain : e.plain
  · have heff := plain_effect a m₀ hplain
    split at heff
    · rw [heff]; exact h₀.held
    · rename_i r o hout
      intro hp
      rw [heff.pending] at hp
      obtain ⟨s, hs, hnot⟩ := hok₀ hp
      obtain ⟨hkeep, hid⟩ := outcomeOf_holder h₀.wellFormed hout hs hnot
      exact ⟨s, hs.effect h₀.wellFormed heff hkeep hid⟩
  cases e with
  | createOutboundCall number accountId => exact h₀.createOutboundCall a number accountId
  | onUserAnswer s => exact h₀.onUserAnswer hqueues s
  | onUserHoldRetrieve s => exact h₀.onUserHoldRetrieve hqueues s
  | onUserConference _ => exact h₀.onUserConference
  | callStateChanged k st =>
      have hst : st = .SESSION_STATE_INCOMING := by simpa [Event.plain] using hplain
      subst hst
      intro hp
      obtain ⟨s, hs, hnot⟩ := hok₀ (by rwa [← incoming_pending m₀ k])
      exact ⟨s, hs.incoming h₀.wellFormed hnot⟩
  | holdConfirm k => exact h₀.holdConfirm a k
  | callReplaced old new =>
      intro hp
      obtain ⟨s, hs, hnot⟩ := hok₀ (by rwa [← replaced_pending m₀ old new])
      exact ⟨s, hs.replaced hnot⟩
  | Initialize status =>
      simp only [handle, CCallManager.Initialize]
      split
      · exact h₀.held
      · rename_i hinit
        intro hp
        have hp' : m₀.pendingAction ≠ none := by
          split at hp <;> exact hp
        obtain ⟨s, -, hnot⟩ := hok₀ hp'
        exact absurd (by simpa using hinit : m₀.initialized = false) hnot
  | Shutdown =>
      intro hp
      obtain ⟨s, -, hnot⟩ := hok₀ (by rwa [← shutdown_pending m₀])
      exact absurd trivial hnot
  | surroundings around => exact h₀.held
  | onUserRelease _ | onUserTransfer _ _ | onUserDialDigit _ _ | callIncoming _ _ _
  | timerElapsed _ _ => simp [Event.plain] at hplain

/-- A step that takes the last holder away leaves the action behind. -/
lemma stepWith_not_pendingHeld (h : m.HoldAwaited) (a : List Arrival) (e : Event)
    (hok : ¬ m.LeavesHolder e) : ¬ (m.stepWith a e).PendingHeld := by
  have hw₀ : { m with out := [] }.WellFormed := h.wellFormed.cleared
  change ¬ (handle a { m with out := [] } e).PendingHeld
  have hok₀ : ¬ { m with out := [] }.LeavesHolder e := hok
  have hheld₀ : { m with out := [] }.PendingHeld := h.held
  generalize { m with out := [] } = m₀ at hw₀ hok₀ hheld₀
  simp only [LeavesHolder, Classical.not_imp, not_exists, not_and, not_not] at hok₀
  obtain ⟨hp, htake⟩ := hok₀
  obtain ⟨r, hr⟩ := hheld₀ hp
  have hr' := htake r hr
  -- in each case the slot is as before and nobody is a holder any more
  suffices hgoal : (handle a m₀ e).pendingAction = m₀.pendingAction ∧
      ∀ s, ¬ (handle a m₀ e).Holder s by
    intro hheld
    obtain ⟨s, hs⟩ := hheld (by rw [hgoal.1]; exact hp)
    exact hgoal.2 s hs
  cases e with
  | onUserRelease k =>
      have he := plain_effect a m₀ (e := .onUserRelease k) rfl
      have hk : m₀.calls.get? k = some r := hr'
      simp only [outcomeOf, hk, Option.map_some, hr.1.2, react] at he
      exact ⟨he.pending, hw₀.no_holder_of_ending (by simp) he hk htake⟩
  | callStateChanged k st =>
      cases st with
      | SESSION_STATE_DISCONNECTED =>
          have he := plain_effect a m₀ (e := .callStateChanged k .SESSION_STATE_DISCONNECTED) rfl
          have hk : m₀.calls.get? k = some r := hr'
          simp only [outcomeOf, hk, Option.map_some, hr.1.2, react] at he
          exact ⟨he.pending, hw₀.no_holder_of_ending (by simp) he hk htake⟩
      | SESSION_STATE_INCOMING =>
          exact ⟨incoming_pending m₀ k, hw₀.no_holder_incoming hr hr' htake⟩
      | _ => exact absurd hr' id
  | callReplaced old new =>
      obtain ⟨hold, hne, htaken⟩ := hr'
      exact ⟨replaced_pending m₀ old new,
        hw₀.no_holder_replaced hne htaken hold fun s hs => (htake s hs).1⟩
  | timerElapsed x t =>
      have he := plain_effect a m₀ (e := .timerElapsed x t) rfl
      obtain ⟨hrun, hout, -⟩ := hr'
      simp only [outcomeOf, hrun, if_true, reactTimer_eq_gone.mpr hout] at he
      exact ⟨he.pending, hw₀.no_holder_of_effect he (by simp) fun s hs =>
        Or.inr ⟨rfl, (htake s hs).2.2⟩⟩
  | Initialize status =>
      have hinit : m₀.initialized = false := hr'
      simp only [handle, CCallManager.Initialize, hinit, Bool.false_eq_true, if_false]
      split_ifs <;> exact ⟨rfl, fun s hs => by simpa using hs.1.1⟩
  | Shutdown =>
      refine ⟨shutdown_pending m₀, fun s hs => ?_⟩
      simpa [handle, CCallManager.Shutdown] using hs.1.1
  | _ => exact absurd hr' id

/-- **A pending action has a hold to wait for** throughout a run if and only if no step takes the
last holder away while an action is pending.  Holds are confirmed at any time after the action that
waits for them has been queued. -/
theorem pendingHeld_iff (around : Surroundings) (run : List (List Arrival × Event))
    (hqueues : ∀ l ∈ run, QueuesFirst l) :
    Throughout perform PendingHeld (initial around) run ↔
      Along perform (fun m l => m.LeavesHolder l.2) (initial around) run := by
  have hinit : (initial around).HoldAwaited := ⟨.initial around, fun hp => absurd rfl hp⟩
  exact throughout_iff_along (J := HoldAwaited)
    (fun m l hl h hok => stepWith_holdAwaited h l.1 l.2 hl hok) (fun m h => h.held)
    (fun m l _ h hok => stepWith_not_pendingHeld h l.1 l.2 hok) hinit
    (along_of_forall hqueues _)

/-- A call is active, another one rings and is answered, and the hold is confirmed before the answer
has returned. -/
theorem pendingHeld_iff_second :
    Throughout perform PendingHeld (initial {}) [([], .callStateChanged 1 .SESSION_STATE_INCOMING),
      ([], .callIncoming 1 "first" ""), ([], .onUserAnswer 1),
      ([], .callStateChanged 2 .SESSION_STATE_INCOMING), ([], .callIncoming 2 "second" ""),
      ([.afterQueued], .onUserAnswer 2)] := by
  refine (pendingHeld_iff {} _ (by simp [QueuesFirst])).mpr ?_
  -- nothing is pending before any of the steps
  exact ⟨fun hp => absurd rfl hp, fun hp => absurd rfl hp, fun hp => absurd rfl hp,
    fun hp => absurd rfl hp, fun hp => absurd rfl hp, fun hp => absurd rfl hp, trivial⟩

/-- A call is active, another one rings and is answered, and the active call is released before its
hold is confirmed. -/
def releaseRun : List Event :=
  [.callStateChanged 1 .SESSION_STATE_INCOMING, .callIncoming 1 "first" "", .onUserAnswer 1,
   .callStateChanged 2 .SESSION_STATE_INCOMING, .callIncoming 2 "second" "", .onUserAnswer 2,
   .onUserRelease 1]

/-- **The answer stays pending with nothing to wait for.** -/
theorem released_while_pending :
    (run step (initial {}) releaseRun).pendingAction = some (.EUserAnswer 2) ∧
    ¬ (run step (initial {}) releaseRun).PendingHeld := by
  have hp : (run step (initial {}) releaseRun).pendingAction = some (.EUserAnswer 2) := by decide
  have hnone : (run step (initial {}) releaseRun).enumCallsInState .ACTIVE = [] := by decide
  refine ⟨hp, fun hheld => ?_⟩
  obtain ⟨r, hr, -⟩ := hheld (by rw [hp]; simp)
  exact enum_active_eq_nil.mp hnone r hr

end CCallManager

end TAM
