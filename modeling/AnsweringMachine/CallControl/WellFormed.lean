import AnsweringMachine.CallControl.Operations

/-!
# The call table is well formed

`WellFormed` is what holds of the table whatever happens: a machine in the table was created, its
session is its key, and it reports its state changes.  Hence no machine is listed twice.  Every
event keeps it, the replacement of a call id and a confirmation that arrives in the middle of an
operation included (`stepWith_wellFormed`).

`Outbound` describes an outgoing call that was made: it is the one operation that creates a machine,
lists it, and may have to end another one for that.
-/

namespace TAM

namespace CCallManager

open Dictionary

variable {m m' : CCallManager} {r : MachineRef} {k : CallId} {o : Outcome}

/-! ## The invariant -/

/-- What holds of the call table at all times. -/
structure WellFormed (m : CCallManager) : Prop where
  session : ∀ k r, m.calls.get? k = some r → (m.machines r).session = some k
  created : ∀ k r, m.calls.get? k = some r → r < m.created
  audible : ∀ k r, m.calls.get? k = some r → (m.machines r).disableStateNotifications = false

namespace WellFormed

/-- No machine is listed under two ids. -/
lemma key_unique (hw : m.WellFormed) {j k : CallId} (hj : m.calls.get? j = some r)
    (hk : m.calls.get? k = some r) : j = k := by
  have := (hw.session j r hj).symm.trans (hw.session k r hk)
  exact Option.some.inj this

lemma initial (a : Surroundings) : (CCallManager.initial a).WellFormed := by
  constructor <;> intro k r h <;> simp [CCallManager.initial] at h

/-- The invariant looks at sessions, silence, table and the number of machines only. -/
lemma congr (hw : m.WellFormed) (hc : m'.calls = m.calls) (hn : m.created ≤ m'.created)
    (hm : ∀ k r, m.calls.get? k = some r → (m'.machines r).session = (m.machines r).session ∧
      (m'.machines r).disableStateNotifications = (m.machines r).disableStateNotifications) :
    m'.WellFormed where
  session k r h := by
    rw [hc] at h
    rw [(hm k r h).1, hw.session k r h]
  created k r h := by
    rw [hc] at h
    exact lt_of_lt_of_le (hw.created k r h) hn
  audible k r h := by
    rw [hc] at h
    rw [(hm k r h).2, hw.audible k r h]

/-- Whoever is listed after an effect was listed before, and is not a machine that has just gone: a
call that goes takes its own key along. -/
lemma listed_of_effect (hw : m.WellFormed) (h : Effect m m' r o) {s : MachineRef}
    (hs : m'.calls.get? k = some s) : m.calls.get? k = some s ∧ (o = .gone → s ≠ r) := by
  rw [h.calls] at hs
  cases o with
  | stay => exact ⟨by simpa using hs, by simp⟩
  | goto st => exact ⟨by simpa using hs, by simp⟩
  | gone =>
      cases hr : (m.machines r).session with
      | none =>
          rw [hr] at hs
          have hs : m.calls.get? k = some s := hs
          refine ⟨hs, fun _ he => ?_⟩
          rw [he] at hs
          rw [hw.session k r hs] at hr
          simp at hr
      | some j =>
          rw [hr, Outcome.gone_table, get?_remove] at hs
          split_ifs at hs with hkj
          refine ⟨hs, fun _ he => hkj ?_⟩
          rw [he] at hs
          rw [hw.session k r hs] at hr
          exact Option.some.inj hr

/-- **Handlers keep the invariant**, also those of machines outside the table. -/
lemma effect (hw : m.WellFormed) (h : Effect m m' r o) : m'.WellFormed := by
  constructor
  · intro k s hs
    obtain ⟨hs, -⟩ := hw.listed_of_effect h hs
    by_cases hr : s = r
    · rw [hr, h.session, ← hr, hw.session k s hs]
    · rw [h.others s hr, hw.session k s hs]
  · intro k s hs
    rw [h.created]
    exact hw.created k s (hw.listed_of_effect h hs).1
  · intro k s hs
    obtain ⟨hs, hgone⟩ := hw.listed_of_effect h hs
    by_cases hr : s = r
    · rw [hr, h.silent fun ho => hgone ho hr, ← hr, hw.audible k s hs]
    · rw [h.others s hr, hw.audible k s hs]

lemma pend (hw : m.WellFormed) (p : Option PendingAction) :
    { m with pendingAction := p }.WellFormed :=
  hw.congr rfl le_rfl fun _ _ _ => ⟨rfl, rfl⟩

/-- The outputs do not matter. -/
lemma cleared (hw : m.WellFormed) : { m with out := [] }.WellFormed :=
  hw.congr rfl le_rfl fun _ _ _ => ⟨rfl, rfl⟩

/-- Assignments to other fields keep the invariant. -/
lemma modify (hw : m.WellFormed) {f : CStateMachine → CStateMachine}
    (hse : ∀ c, (f c).session = c.session)
    (hs : ∀ c, (f c).disableStateNotifications = c.disableStateNotifications) :
    (m.modify r f).WellFormed := by
  refine hw.congr rfl le_rfl fun k s _ => ?_
  by_cases h : s = r
  · subst h; simp [hse, hs]
  · simp [h]

lemma holdCall (hw : m.WellFormed) (r : MachineRef) : (m.holdCall r).WellFormed :=
  hw.congr (by simp) (by simp) fun _ _ _ => ⟨by simp, by simp⟩

/-- A machine under construction is not in the table. -/
lemma create (hw : m.WellFormed) : m.createStateMachine.WellFormed := by
  refine hw.congr rfl (Nat.le_succ _) fun k s hs => ?_
  have hne : s ≠ m.created := ne_of_lt (hw.created k s hs)
  simp [createStateMachine, hne]

/-- A machine outside the table may change its session. -/
lemma modify_unlisted (hw : m.WellFormed) (hr : ∀ k, m.calls.get? k ≠ some r)
    (f : CStateMachine → CStateMachine) : (m.modify r f).WellFormed := by
  refine hw.congr rfl le_rfl fun k s hs => ?_
  have hne : s ≠ r := fun e => hr k (e ▸ hs)
  simp [hne]

/-- Listing an unlisted machine under its session. -/
lemma insert (hw : m.WellFormed) (hse : (m.machines r).session = some k) (hlt : r < m.created)
    (haud : (m.machines r).disableStateNotifications = false)
    (h : m.insertCall k r = .ok m') : m'.WellFormed := by
  simp only [insertCall] at h
  split at h
  · rename_i d hd
    simp only [Except.ok.injEq] at h
    subst h
    have hget := get?_of_add? hd
    constructor
    all_goals
      intro j s hs
      rw [hget] at hs
      split_ifs at hs with hj
    · subst hj; cases hs; exact hse
    · exact hw.session j s hs
    · cases hs; exact hlt
    · exact hw.created j s hs
    · cases hs; exact haud
    · exact hw.audible j s hs
  · simp at h

lemma clear (m : CCallManager) : { m with calls := Dictionary.empty }.WellFormed := by
  constructor <;> intro k r h <;> simp at h

end WellFormed

/-! ## Making an outgoing call -/

/-- `makeCall` moves the machine to connecting and then gives it the session of the stack. -/
lemma makeCall_effect (m : CCallManager) (r : MachineRef) (number : String) (accountId : ℕ) :
    ∃ m₁, Effect m m₁ r (.goto .Connecting) ∧ m.makeCall r number accountId =
      m₁.modify r fun c => { c with session := m₁.around.makeCallAnswer } := by
  refine ⟨_, ?_, rfl⟩
  refine Effect.before ?_ (request_effect _ r _)
  exact (changeStatePlain_effect _ r .Connecting).after
    (modify_effect m r (fun _ => rfl) (fun _ => rfl) (fun _ => rfl) (fun _ => rfl))

/-- The manager with a new machine that has dialled and is not in the table yet. -/
structure Dialled (m m' : CCallManager) : Prop where
  others : ∀ s, s ≠ m.created → m'.machines s = m.machines s
  created : m'.created = m.created + 1
  calls : m'.calls = m.calls
  pending : m'.pendingAction = m.pendingAction
  initialized : m'.initialized = m.initialized
  around : m'.around = m.around
  session : (m'.machines m.created).session = m.around.makeCallAnswer
  state : (m'.machines m.created).state = .Connecting
  held : (m'.machines m.created).holdRequested = false
  silent : (m'.machines m.created).disableStateNotifications = false

lemma dialled (m : CCallManager) (number : String) (accountId : ℕ) :
    Dialled m (m.createStateMachine.makeCall m.created number accountId) := by
  obtain ⟨m₁, h, heq⟩ := makeCall_effect m.createStateMachine m.created number accountId
  rw [heq]
  have hfresh : m.createStateMachine.machines m.created =
      CStateMachine.create m.around.factory m.around.now := by simp [createStateMachine]
  have hold : ∀ s, s ≠ m.created → m.createStateMachine.machines s = m.machines s :=
    fun s hs => by simp [createStateMachine, hs]
  constructor
  · exact fun s hs => by rw [modify_of_ne _ hs, h.others s hs, hold s hs]
  · exact h.created
  · exact h.calls.trans (by simp [createStateMachine])
  · exact h.pending
  · exact h.initialized
  · exact h.around
  · rw [modify_self, h.around]; rfl
  · rw [modify_self]; exact h.state
  · rw [modify_self]; exact h.held.trans (by rw [hfresh]; rfl)
  · rw [modify_self]; exact (h.silent (by simp)).trans (by rw [hfresh]; rfl)

/-- The manager after an outgoing call was made with no call active: the stack's answer decides
under which id the new machine is listed, and whoever was listed there is gone. -/
structure Outbound (m m' : CCallManager) : Prop where
  table : ∀ j, m'.calls.get? j =
    if m.around.makeCallAnswer = some j then some m.created else m.calls.get? j
  others : ∀ s, s ≠ m.created → (∀ k, m.around.makeCallAnswer = some k → m.calls.get? k ≠ some s) →
    m'.machines s = m.machines s
  evicted : ∀ k s, m.around.makeCallAnswer = some k → m.calls.get? k = some s →
    (m'.machines s).state = .Idle
  created : m'.created = m.created + 1
  pending : m'.pendingAction = m.pendingAction
  initialized : m'.initialized = m.initialized
  around : m'.around = m.around
  session : (m'.machines m.created).session = m.around.makeCallAnswer
  state : (m'.machines m.created).state = .Connecting
  held : (m'.machines m.created).holdRequested = false
  silent : (m'.machines m.created).disableStateNotifications = false

lemma insertCall_ok {d : Dictionary CallId MachineRef} (h : m.calls.add? k r = some d) :
    m.insertCall k r = .ok { m with calls := d } := by simp [insertCall, h]

lemma insertCall_error (h : m.calls.get? k ≠ none) :
    m.insertCall k r = .error .ArgumentException := by
  simp [insertCall, add?_eq_none_iff.mpr h]

lemma exists_add? (h : m.calls.get? k = none) : ∃ d, m.calls.add? k r = some d := by
  rcases hd : m.calls.add? k r with _ | d
  · exact absurd h (add?_eq_none_iff.mp hd)
  · exact ⟨d, rfl⟩

/-- The rest of the manager, and the new machine, are as they were when it had dialled. -/
lemma Dialled.outbound {m'' : CCallManager} (hd : Dialled m m')
    (htable : ∀ j, m''.calls.get? j =
      if m.around.makeCallAnswer = some j then some m.created else m.calls.get? j)
    (hothers : ∀ s, s ≠ m.created →
      (∀ k, m.around.makeCallAnswer = some k → m.calls.get? k ≠ some s) →
      m''.machines s = m'.machines s)
    (hevicted : ∀ k s, m.around.makeCallAnswer = some k → m.calls.get? k = some s →
      (m''.machines s).state = .Idle)
    (hnew : m''.machines m.created = m'.machines m.created) (hcreated : m''.created = m'.created)
    (hpending : m''.pendingAction = m'.pendingAction)
    (hinitialized : m''.initialized = m'.initialized) (haround : m''.around = m'.around) :
    Outbound m m'' where
  table := htable
  others s hs hks := (hothers s hs hks).trans (hd.others s hs)
  evicted := hevicted
  created := hcreated.trans hd.created
  pending := hpending.trans hd.pending
  initialized := hinitialized.trans hd.initialized
  around := haround.trans hd.around
  session := by rw [hnew]; exact hd.session
  state := by rw [hnew]; exact hd.state
  held := by rw [hnew]; exact hd.held
  silent := by rw [hnew]; exact hd.silent

/-- How a machine that has dialled enters the table: not at all without a session, under a free id,
or in place of the machine that has its id. -/
lemma Dialled.enter_cases (hw : m.WellFormed) (hd : Dialled m m') :
    (m.around.makeCallAnswer = none ∧ m'.enterOutboundCall m.created = m') ∨
    (∃ k d, m.around.makeCallAnswer = some k ∧ m.calls.get? k = none ∧
      m'.calls.add? k m.created = some d ∧
      m'.enterOutboundCall m.created = { m' with calls := d }) ∨
    ∃ k old d, m.around.makeCallAnswer = some k ∧ m.calls.get? k = some old ∧ old ≠ m.created ∧
      (m'.destroy old).calls = m.calls.remove k ∧
      (m'.destroy old).calls.add? k m.created = some d ∧
      m'.enterOutboundCall m.created = { m'.destroy old with calls := d } := by
  simp only [enterOutboundCall, hd.session]
  cases ha : m.around.makeCallAnswer with
  | none => exact .inl ⟨rfl, rfl⟩
  | some k =>
      refine .inr ?_
      cases hk : m.calls.get? k with
      | none =>
          obtain ⟨d, hadd⟩ := exists_add? (m := m') (r := m.created) (by rw [hd.calls, hk])
          exact .inl ⟨k, d, rfl, hk, hadd, by simp only [insertCall_ok hadd]⟩
      | some old =>
          have hold : m'.calls.get? k = some old := by rw [hd.calls, hk]
          have hne : old ≠ m.created := ne_of_lt (hw.created k old hk)
          -- the old machine has the session it is listed under, so it leaves that key
          have hse : (m'.machines old).session = some k := by
            rw [hd.others old hne, hw.session k old hk]
          have hcalls : (m'.destroy old).calls = m.calls.remove k := by
            rw [(destroy_effect m' old).calls, hse, hd.calls]
            rfl
          obtain ⟨d, hadd⟩ := exists_add? (m := m'.destroy old) (k := k) (r := m.created)
            (by rw [hcalls]; simp)
          have htaken : m'.calls.get? k ≠ none := by
            rw [hold]
            simp
          exact .inr ⟨k, old, d, rfl, hk, hne, hcalls, hadd, by
            simp only [insertCall_error htaken, hold, insertCall_ok hadd]⟩

/-- **The new machine enters the table**, in place of an old one with the same id. -/
lemma outbound (hw : m.WellFormed) (hd : Dialled m m') :
    Outbound m (m'.enterOutboundCall m.created) := by
  obtain ⟨ha, heq⟩ | ⟨k, d, ha, hk, hadd, heq⟩ | ⟨k, old, d, ha, hk, hne, hcalls, hadd, heq⟩ :=
    hd.enter_cases hw
  · rw [heq]
    refine hd.outbound ?_ (fun s _ _ => rfl) ?_ rfl rfl rfl rfl rfl
    · intro j
      simp [ha, hd.calls]
    · simp [ha]
  · rw [heq]
    refine hd.outbound ?_ (fun s _ _ => rfl) ?_ rfl rfl rfl rfl rfl
    · intro j
      simp only [get?_of_add? hadd, hd.calls, ha, Option.some.injEq, eq_comm]
    · intro j s hj hs
      rw [ha, Option.some.injEq] at hj
      rw [← hj, hk] at hs
      simp at hs
  · have hgone := destroy_effect m' old
    rw [heq]
    refine hd.outbound ?_ ?_ ?_ (hgone.others m.created (Ne.symm hne)) hgone.created
      hgone.pending hgone.initialized hgone.around
    · intro j
      rw [get?_of_add? hadd, hcalls, get?_remove, ha]
      by_cases hj : j = k
      · simp [hj]
      · simp [hj, Ne.symm hj]
    · intro s _ hks
      refine hgone.others s fun hso => hks k ha ?_
      rw [hk, hso]
    · intro j s hj hs
      rw [ha, Option.some.injEq] at hj
      rw [← hj, hk, Option.some.injEq] at hs
      rw [← hs]
      exact hgone.state

lemma Outbound.wellFormed (hw : m.WellFormed) (h : Outbound m m') : m'.WellFormed := by
  have hlisted : ∀ j s, m'.calls.get? j = some s →
      (m.around.makeCallAnswer = some j ∧ s = m.created)
      ∨ (m.calls.get? j = some s ∧ m'.machines s = m.machines s ∧ s ≠ m.created) := by
    intro j s hs
    rw [h.table] at hs
    split_ifs at hs with hj
    · exact Or.inl ⟨hj, (Option.some.inj hs).symm⟩
    · have hne : s ≠ m.created := ne_of_lt (hw.created j s hs)
      refine Or.inr ⟨hs, h.others s hne fun k hk hks => hj ?_, hne⟩
      rw [hk, hw.key_unique hs hks]
  constructor
  · intro j s hs
    rcases hlisted j s hs with ⟨hj, rfl⟩ | ⟨hs, he, -⟩
    · rw [h.session, hj]
    · rw [he, hw.session j s hs]
  · intro j s hs
    rw [h.created]
    rcases hlisted j s hs with ⟨-, rfl⟩ | ⟨hs, -, -⟩
    · exact Nat.lt_succ_self _
    · exact Nat.lt_succ_of_lt (hw.created j s hs)
  · intro j s hs
    rcases hlisted j s hs with ⟨-, rfl⟩ | ⟨hs, he, -⟩
    · exact h.silent
    · rw [he, hw.audible j s hs]

/-! ## New and renamed calls -/

/-- A machine for a new call has been created and not been listed yet. -/
def announced (m : CCallManager) (k : CallId) : CCallManager :=
  m.createStateMachine.modify m.created fun c => { c with session := some k }

@[simp] lemma announced_new (m : CCallManager) (k : CallId) : (m.announced k).machines m.created =
    { CStateMachine.create m.around.factory m.around.now with session := some k } := by
  simp [announced, createStateMachine]

lemma announced_of_ne (k : CallId) (h : r ≠ m.created) :
    (m.announced k).machines r = m.machines r := by
  simp [announced, createStateMachine, h]

@[simp] lemma announced_calls (m : CCallManager) (k : CallId) : (m.announced k).calls = m.calls :=
  rfl
@[simp] lemma announced_created (m : CCallManager) (k : CallId) :
    (m.announced k).created = m.created + 1 := rfl
@[simp] lemma announced_pending (m : CCallManager) (k : CallId) :
    (m.announced k).pendingAction = m.pendingAction := rfl
@[simp] lemma announced_around (m : CCallManager) (k : CallId) :
    (m.announced k).around = m.around := rfl

/-- A new call whose id is taken makes the old call end. -/
lemma incoming_eq_endCall {k : CallId} {old : MachineRef} (hk : m.calls.get? k = some old) :
    m.onCallStateChanged k .SESSION_STATE_INCOMING = (m.announced k).endCall old := by
  have hk' : (m.announced k).calls.get? k = some old := hk
  rw [announced] at hk'
  simp only [onCallStateChanged, hk', announced]

/-- A new call whose id is free is listed. -/
lemma incoming_eq_listed {k : CallId} {d : Dictionary CallId MachineRef}
    (hk : m.calls.get? k = none) (hd : m.calls.add? k m.created = some d) :
    m.onCallStateChanged k .SESSION_STATE_INCOMING = { m.announced k with calls := d } := by
  have hk' : (m.announced k).calls.get? k = none := hk
  have hins := insertCall_ok (m := m.announced k) hd
  rw [announced] at hk' hins
  simp only [onCallStateChanged, hk', hins, announced]

/-- **A new call**: either its id is taken, and then the old call ends and the new one is not
listed, or the new machine is listed. -/
lemma incoming_cases (m : CCallManager) (k : CallId) :
    (∃ old, m.calls.get? k = some old ∧
      Effect (m.announced k) (m.onCallStateChanged k .SESSION_STATE_INCOMING) old
        (react m.around.factory .endCall ((m.announced k).machines old).state)) ∨
    (m.calls.get? k = none ∧ ∃ d, m.calls.add? k m.created = some d ∧
      m.onCallStateChanged k .SESSION_STATE_INCOMING = { m.announced k with calls := d }) := by
  cases hk : m.calls.get? k with
  | some old =>
      rw [incoming_eq_endCall hk]
      exact Or.inl ⟨old, rfl, endCall_effect (m.announced k) old⟩
  | none =>
      obtain ⟨d, hd⟩ := exists_add? (r := m.created) hk
      exact Or.inr ⟨rfl, d, hd, incoming_eq_listed hk hd⟩

/-- A renamed call that is not in the table. -/
lemma replaced_absent {old : CallId} (hold : m.calls.get? old = none) (new : CallId) :
    m.onCallReplaced old new = (m, some .KeyNotFoundException) := by
  simp only [onCallReplaced, hold]

/-- A call that can be listed under its new id. -/
lemma replaced_free {old new : CallId} {call : MachineRef} (hold : m.calls.get? old = some call)
    (hfree : new = old ∨ m.calls.get? new = none) : ∃ d,
      m.onCallReplaced old new =
        ({ m.modify call fun c => { c with session := some new } with calls := d }, none) ∧
      ∀ j, d.get? j = if j = new then some call else if j = old then none else m.calls.get? j := by
  have hnone : (m.calls.remove old).get? new = none := by
    rcases hfree with rfl | h <;> simp_all
  obtain ⟨d, hd⟩ := Option.ne_none_iff_exists'.mp
    (fun e => add?_eq_none_iff.mp e hnone : (m.calls.remove old).add? new call ≠ none)
  refine ⟨d, ?_, fun j => ?_⟩
  · simp only [onCallReplaced, hold]
    rw [insertCall_ok (m := CCallManager.modify { m with calls := m.calls.remove old } call _) hd]
    rfl
  · rw [get?_of_add? hd, get?_remove]

/-- A call whose new id another call has: it is renamed, and listed no longer. -/
lemma replaced_taken {old new : CallId} {call : MachineRef} (hold : m.calls.get? old = some call)
    (hne : new ≠ old) (hnew : m.calls.get? new ≠ none) :
    m.onCallReplaced old new =
      ({ m.modify call fun c => { c with session := some new } with calls := m.calls.remove old },
        some .ArgumentException) := by
  simp only [onCallReplaced, hold]
  rw [insertCall_error (m := CCallManager.modify { m with calls := m.calls.remove old } call _)
    (by simpa [hne] using hnew)]
  rfl

/-- **A renamed call**: nothing changes if there is no such call; otherwise its machine takes the
new id, and is listed under it unless another call is. -/
lemma replaced_cases (m : CCallManager) (old new : CallId) :
    (m.calls.get? old = none ∧ (m.onCallReplaced old new).1 = m) ∨
    ∃ call d, m.calls.get? old = some call ∧
      (m.onCallReplaced old new).1 =
        { m.modify call fun c => { c with session := some new } with calls := d } ∧
      ∀ j, d.get? j = if j = new ∧ (new = old ∨ m.calls.get? new = none) then some call
        else if j = old then none else m.calls.get? j := by
  cases hold : m.calls.get? old with
  | none => exact Or.inl ⟨rfl, by rw [replaced_absent hold]⟩
  | some call =>
      refine Or.inr ⟨call, ?_⟩
      by_cases hfree : new = old ∨ m.calls.get? new = none
      · obtain ⟨d, he, hd⟩ := replaced_free hold hfree
        exact ⟨d, rfl, by rw [he], fun j => by rw [hd]; simp [hfree]⟩
      · rw [not_or] at hfree
        refine ⟨m.calls.remove old, rfl, by rw [replaced_taken hold hfree.1 hfree.2], fun j => ?_⟩
        simp [hfree.1, hfree.2]

/-! ## The events -/

namespace WellFormed

/-- The operations that wait for holds keep the table well formed. -/
lemma keptByOperations : KeptByOperations WellFormed where
  pend hw p := hw.pend p
  hold hw _ := hw.holdCall _
  confirmed hw _ := hw.effect (changeStatePlain_effect _ _ .Holding)
  settled hw := hw.modify (fun _ => rfl) fun _ => rfl
  accept hw _ := hw.effect (acceptCall_effect _ _)
  retrieve hw _ := hw.effect (retrieveCall_effect _ _)
  dial hw _ number accountId := (outbound hw (dialled _ number accountId)).wellFormed hw

lemma announced (hw : m.WellFormed) (k : CallId) : (m.announced k).WellFormed :=
  hw.create.modify_unlisted (fun j hj => Nat.lt_irrefl _ (hw.created j _ hj)) _

lemma incoming (hw : m.WellFormed) (k : CallId) :
    (m.onCallStateChanged k .SESSION_STATE_INCOMING).WellFormed := by
  rcases m.incoming_cases k with ⟨old, -, h⟩ | ⟨-, d, hd, h⟩
  · exact (hw.announced k).effect h
  · rw [h]
    exact (hw.announced k).insert (by simp) (Nat.lt_succ_self _)
      (by simp [CStateMachine.create]) (insertCall_ok hd)

lemma replaced (hw : m.WellFormed) (old new : CallId) :
    (m.onCallReplaced old new).1.WellFormed := by
  rcases m.replaced_cases old new with ⟨-, h⟩ | ⟨call, d, hold, h, hd⟩
  · rw [h]; exact hw
  rw [h]
  -- a machine listed afterwards is the renamed one under its new id, or another one as before
  have hlisted : ∀ j s, d.get? j = some s → (j = new ∧ s = call) ∨
      (s ≠ call ∧ m.calls.get? j = some s) := by
    intro j s hs
    rw [hd] at hs
    split_ifs at hs with hj ho
    · exact Or.inl ⟨hj.1, (Option.some.inj hs).symm⟩
    · refine Or.inr ⟨?_, hs⟩
      rintro rfl
      exact ho (hw.key_unique hs hold)
  constructor
  all_goals
    intro j s hs
    rcases hlisted j s hs with ⟨rfl, rfl⟩ | ⟨hne, hs⟩
  · simp
  · simpa [hne] using hw.session j s hs
  · exact hw.created old _ hold
  · exact hw.created j s hs
  · simpa using hw.audible old _ hold
  · simpa [hne] using hw.audible j s hs

end WellFormed

lemma WellFormed.conference (hw : m.WellFormed) : m.onUserConference.WellFormed := by
  simp only [onUserConference]
  split_ifs
  · split
    · exact hw
    · exact (hw.effect (retrieveCall_effect m _)).effect (conferenceCall_effect _ _)
  · exact hw

lemma WellFormed.start (hw : m.WellFormed) (status : ℕ) : (m.Initialize status).WellFormed := by
  simp only [Initialize]
  split_ifs
  · exact hw
  · exact WellFormed.clear { m with initialized := true }
  · exact WellFormed.clear m

/-- **Every event keeps the table well formed**, whenever the holds it asks for are confirmed. -/
theorem handle_wellFormed (a : List Arrival) (hw : m.WellFormed) (e : Event) :
    (m.handle a e).WellFormed :=
  WellFormed.keptByOperations.checked.handle a hw
    { effect := fun _ he => hw.effect he
      conference := fun _ _ => hw.conference
      incoming := fun k _ => hw.incoming k
      replaced := fun old new _ => hw.replaced old new
      start := fun status _ => hw.start status
      stop := fun _ => .clear { ((m.calls.entries.map Prod.snd).foldl destroy m) with
        initialized := false }
      surroundings := fun _ _ => hw.congr rfl le_rfl fun _ _ _ => ⟨rfl, rfl⟩ }

theorem stepWith_wellFormed (a : List Arrival) (hw : m.WellFormed) (e : Event) :
    (m.stepWith a e).WellFormed := by
  have hw' : { m with out := [] }.WellFormed := hw.cleared
  exact handle_wellFormed a hw' e

/-! ## The surroundings -/

/-- The operations leave the surroundings alone. -/
lemma keptByOperations_around (x : Surroundings) :
    KeptByOperations fun m => m.WellFormed ∧ m.around = x where
  pend h p := ⟨h.1.pend p, h.2⟩
  hold h _ := ⟨h.1.holdCall _, (holdCall_around _ _).trans h.2⟩
  confirmed h _ :=
    have he := changeStatePlain_effect _ _ .Holding
    ⟨h.1.effect he, he.around.trans h.2⟩
  settled h := ⟨h.1.modify (fun _ => rfl) fun _ => rfl, h.2⟩
  accept h _ := ⟨h.1.effect (acceptCall_effect _ _), (acceptCall_effect _ _).around.trans h.2⟩
  retrieve h _ := ⟨h.1.effect (retrieveCall_effect _ _), (retrieveCall_effect _ _).around.trans h.2⟩
  dial h _ number accountId :=
    have ho := outbound h.1 (dialled _ number accountId)
    ⟨ho.wellFormed h.1, ho.around.trans h.2⟩

lemma conference_around (m : CCallManager) : m.onUserConference.around = m.around := by
  simp only [onUserConference]
  split_ifs
  · split
    · rfl
    · exact (conferenceCall_effect _ _).around.trans (retrieveCall_effect m _).around
  · rfl

lemma incoming_around (m : CCallManager) (k : CallId) :
    (m.onCallStateChanged k .SESSION_STATE_INCOMING).around = m.around := by
  rcases m.incoming_cases k with ⟨old, -, he⟩ | ⟨-, d, -, he⟩
  · exact he.around
  · rw [he]; rfl

lemma replaced_around (m : CCallManager) (old new : CallId) :
    (m.onCallReplaced old new).1.around = m.around := by
  rcases m.replaced_cases old new with ⟨-, he⟩ | ⟨call, d, -, he, -⟩
  · rw [he]
  · rw [he]; rfl

lemma start_around (m : CCallManager) (status : ℕ) : (m.Initialize status).around = m.around := by
  simp only [Initialize]
  split_ifs <;> rfl

lemma shutdown_around (m : CCallManager) : m.Shutdown.around = m.around :=
  List.foldlRecOn (motive := fun m' : CCallManager => m'.around = m.around) _ destroy rfl
    fun m' h r _ => (destroy_effect m' r).around.trans h

/-- **Only one event changes the surroundings.** -/
theorem handle_around (a : List Arrival) (hw : m.WellFormed) {e : Event}
    (he : ∀ x, e ≠ .surroundings x) : (m.handle a e).around = m.around := by
  have hkept : (m.handle a e).WellFormed ∧ (m.handle a e).around = m.around :=
    (keptByOperations_around m.around).checked.handle a ⟨hw, rfl⟩
      { effect := fun _ heff => ⟨hw.effect heff, heff.around⟩
        conference := fun _ _ => ⟨hw.conference, m.conference_around⟩
        incoming := fun k _ => ⟨hw.incoming k, m.incoming_around k⟩
        replaced := fun old new _ => ⟨hw.replaced old new, m.replaced_around old new⟩
        start := fun status _ => ⟨hw.start status, m.start_around status⟩
        stop := fun _ => ⟨.clear { ((m.calls.entries.map Prod.snd).foldl destroy m) with
          initialized := false }, m.shutdown_around⟩
        surroundings := fun x hx => absurd hx (he x) }
  exact hkept.2

end CCallManager

end TAM
