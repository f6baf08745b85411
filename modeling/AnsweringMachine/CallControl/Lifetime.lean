import AnsweringMachine.CallControl.Chronicle

/-!
# How long a machine lasts

A machine that was destroyed is not in the call table, and no timer of it runs; so nothing happens
to it any more.  `Registered` says this of one machine, and `registered_make` that every move keeps
it.

Where calls keep their ids, more holds (`LastingAt`): until it is destroyed a machine is in the call
table, or has never got there because its id was taken or the stack did not accept the call.  Such a
machine stays idle, or connecting, and nothing but its own timers reaches it, which it does not
react to.  This needs two things of the events (`Orderly`): no call is replaced, and a manager that
was shut down is told of no new call.

`perform_rule` carries an invariant of the records, the table and the books through an event, and
`perform_kept` is its form for orderly events.
-/

namespace TAM

open Runs

namespace CCallManager

variable {m m' : CCallManager} {r s : MachineRef} {v : Move} {l : List (MachineRef × Move)}
    {b : Books}

/-- The machine is in the call table. -/
def InTable (m : CCallManager) (r : MachineRef) : Prop := ∃ k, m.calls.get? k = some r

/-! ## Records of destroyed machines -/

@[simp] lemma timed_session (c : CStateMachine) (now : DateTime) :
    (c.timed now).session = c.session := by
  simp only [CStateMachine.timed]
  split_ifs <;> rfl

lemma destroyed_session (c : CStateMachine) (now : DateTime) :
    (c.destroyed now).session = c.session := by
  simp [CStateMachine.destroyed]

/-- A destroyed machine has no timer running. -/
lemma destroyed_running (c : CStateMachine) (now : DateTime) (t : ETimerType) :
    (c.destroyed now).running t = false := by
  rw [CStateMachine.destroyed, CStateMachine.enter_running]
  refine CStateMachine.onExit_running ?_
  simp only [CStateMachine.timed]
  split_ifs <;> cases t <;> rfl

/-- Moves that destroy leave an idle record without timers. -/
lemma destroys_after {x : Surroundings} (hv : v.destroys x.factory) (c : CStateMachine) :
    (v.after x c).state = .Idle ∧ ∀ t, (v.after x c).running t = false := by
  have hd : ∀ c : CStateMachine, (c.destroyed x.now).state = .Idle ∧
      ∀ t, (c.destroyed x.now).running t = false :=
    fun c => ⟨by simp [CStateMachine.destroyed], destroyed_running c x.now⟩
  cases v with
  | destroyed | turnedAway => exact hd _
  | terminated | released =>
      have hx : ¬ x.factory.timersRun = true := by simpa [Move.destroys] using hv
      simp only [Move.after, Move.endedIn, if_neg hx]
      exact hd _
  | _ => simp [Move.destroys] at hv

/-- Nothing but destruction is logged. -/
lemma entries_of_keeps {x : Surroundings} (hv : ¬ v.destroys x.factory) (c : CStateMachine) :
    v.entries x c = [] := by
  cases v with
  | destroyed | turnedAway => simp [Move.destroys] at hv
  | terminated | released => exact if_pos (by simpa [Move.destroys] using hv)
  | _ => rfl

/-- What is done to a call leaves it its session. -/
lemma onCall_session (hv : v.onCall) (x : Surroundings) (c : CStateMachine) :
    (v.after x c).session = c.session := by
  have hended : ∀ st c, (Move.endedIn x st c).session = c.session := by
    intro st c
    unfold Move.endedIn
    split_ifs <;> simp [CStateMachine.ending, CStateMachine.startTimer, destroyed_session]
  cases v with
  | announced | dialled | entered | renamed => simp [Move.onCall] at hv
  | delivered number name =>
      simp only [Move.after, CStateMachine.rung, CStateMachine.startTimer]
      split_ifs <;> simp
  | turnedAway | destroyed => exact destroyed_session _ _
  | terminated =>
      simp only [Move.after, hended, CStateMachine.hungUp]
      split_ifs <;> rfl
  | released => exact hended _ _
  | connected =>
      simp only [Move.after, CStateMachine.enter_session]
      split_ifs <;> rfl
  | expired t => cases t <;> rfl
  | accepted | alerted | held | retrieved => exact CStateMachine.enter_session _ _
  | holdRequested | settled => rfl

/-! ## What holds of every machine -/

/-- What the books and the table say about one machine, with or without renaming. -/
structure Registered (m : CCallManager) (b : Books) (r : MachineRef) : Prop where
  record : m.machines r = (b.lives r).record
  fresh : m.created ≤ r → b.lives r = []
  session : ∀ k, m.calls.get? k = some r → (m.machines r).session = some k
  below : m.InTable r → r < m.created
  dead : (b.lives r).timesDestroyed ≠ 0 → ¬ m.InTable r ∧ (m.machines r).state = .Idle ∧
    ∀ t, (m.machines r).running t = false

/-- The moves an event may make: a hold is settled for a machine that was there when the event
came. -/
def Timely (n : ℕ) (r : MachineRef) (v : Move) : Prop := v = .settled → r < n

lemma running_of_expired {c : CStateMachine} {t : ETimerType} (h : (Move.expired t).Enabled c) :
    c.running t = true := by
  cases t with
  | ENOREPLY => exact h
  | ERELEASED => exact h.1
  | ENORESPONSE => exact h.1

lemma Makes.self (h : Makes m m' r v) : m'.machines r = v.after m.around (m.machines r) := by
  rw [h.machines, Function.update_self]

lemma Makes.others (h : Makes m m' r v) (hs : s ≠ r) : m'.machines s = m.machines s := by
  rw [h.machines, Function.update_of_ne hs]

lemma Makes.created_le (h : Makes m m' r v) : m.created ≤ m'.created := by
  rw [h.created]
  split_ifs <;> omega

lemma Makes.eq_created (h : Makes m m' r v) (hcr : v.creates) : r = m.created := by
  have hr := h.reached
  cases v <;> first | exact hr | simp [Move.creates] at hcr

lemma dropped_eq_some {d : CallId → Option MachineRef} {o : Option CallId} {k : CallId}
    (h : Move.dropped d o k = some s) : d k = some s := by
  cases o with
  | none => exact h
  | some j =>
      by_cases hk : k = j
      · simp [Move.dropped, hk] at h
      · rwa [Move.dropped, Function.update_of_ne hk] at h

/-- The table after a move on a call. -/
lemma Makes.get?_of_onCall (h : Makes m m' r v) (hon : v.onCall) : m'.calls.get? =
    if v.destroys m.around.factory then Move.dropped m.calls.get? (m.machines r).session
    else m.calls.get? := by
  rw [h.calls (by rintro k rfl; simp [Move.onCall] at hon), table_of_onCall hon]

lemma onCall_of_destroys {f : AbstractFactory} (hv : v.destroys f) : v.onCall := by
  cases v <;> first | rfl | simp [Move.destroys] at hv

/-- **Nobody but the machine that moves gets into the table.** -/
lemma Makes.get?_of_ne (h : Makes m m' r v) (hs : s ≠ r) {j : CallId}
    (hj : m'.calls.get? j = some s) : m.calls.get? j = some s := by
  have hupdate : ∀ k, Function.update m.calls.get? k (some r) j = some s →
      m.calls.get? j = some s := by
    intro k hk
    by_cases hjk : j = k
    · simp [hjk, Ne.symm hs] at hk
    · rwa [Function.update_of_ne hjk] at hk
  have hcall : v.onCall → m.calls.get? j = some s := by
    intro hon
    rw [h.get?_of_onCall hon] at hj
    split_ifs at hj
    · exact dropped_eq_some hj
    · exact hj
  cases v with
  | announced k =>
      rw [h.calls (by simp), Move.table] at hj
      split_ifs at hj
      · exact hupdate k hj
      · exact hj
  | dialled number =>
      rw [h.calls (by simp)] at hj
      exact hj
  | entered k =>
      rw [h.calls (by simp)] at hj
      exact hupdate k hj
  | renamed k => exact ((h.renamed k rfl j s hj).resolve_left fun h => hs h.1).2
  | _ => exact hcall rfl

namespace Registered

variable (hR : Registered m b r)

include hR

/-- A machine in the table is alive. -/
lemma alive (hr : m.InTable r) : (b.lives r).timesDestroyed = 0 := by
  by_contra hd
  exact (hR.dead hd).1 hr

/-- A machine that is not there is idle and has no timer running. -/
lemma blank (hge : m.created ≤ r) : m.machines r = {} := by
  rw [hR.record, hR.fresh hge]
  rfl

lemma lt_of_inHand (hr : m.InHand r) : r < m.created := by
  rcases hr with hr | ⟨hidle, -⟩
  · exact hR.below hr
  · by_contra hge
    rw [hR.blank (Nat.not_lt.mp hge)] at hidle
    exact hidle rfl

/-- A machine moves only if it is there. -/
lemma lt_created (h : Makes m m' r v) (ht : Timely m.created r v) (hcr : ¬ v.creates) :
    r < m.created := by
  have hr := h.reached
  cases v with
  | announced k => exact absurd rfl hcr
  | dialled number => exact absurd rfl hcr
  | entered k => exact hr.2
  | renamed k => exact hR.below hr
  | settled => exact ht rfl
  | expired t =>
      by_contra hge
      have hrun := running_of_expired h.enabled
      rw [hR.blank (Nat.not_lt.mp hge)] at hrun
      cases t <;> simp [CStateMachine.running] at hrun
  | _ => exact hR.lt_of_inHand hr

/-- After its end a machine makes no moves but the end of a hold it had asked for. -/
lemma settled_of_dead (h : Makes m m' r v) (hdead : (b.lives r).timesDestroyed ≠ 0) :
    v = .settled := by
  obtain ⟨hout, hidle, htimers⟩ := hR.dead hdead
  have hlt : r < m.created := by
    by_contra hge
    rw [hR.fresh (Nat.not_lt.mp hge)] at hdead
    exact hdead rfl
  have hr := h.reached
  cases v with
  | settled => rfl
  | announced k => exact absurd hr (Nat.ne_of_lt hlt)
  | dialled number => exact absurd hr (Nat.ne_of_lt hlt)
  | entered k =>
      have hst := h.enabled.2
      simp [hidle] at hst
  | renamed k => exact absurd hr hout
  | expired t =>
      have hrun := running_of_expired h.enabled
      simp [htimers t] at hrun
  | _ => exact absurd hr (by rintro (hin | ⟨hne, -⟩); exacts [hout hin, hne hidle])

end Registered

lemma Registered.of_ne (hS : Registered m b s) (h : Makes m m' r v) (hs : s ≠ r) :
    Registered m' (b.post m.around (r, v)) s := by
  have hin : m'.InTable s → m.InTable s := fun ⟨k, hk⟩ => ⟨k, h.get?_of_ne hs hk⟩
  constructor
  · rw [h.others hs, Books.post_lives_of_ne hs, hS.record]
  · rw [Books.post_lives_of_ne hs]
    exact fun hge => hS.fresh (Nat.le_trans h.created_le hge)
  · intro k hk
    rw [h.others hs, hS.session k (h.get?_of_ne hs hk)]
  · exact fun hr => Nat.lt_of_lt_of_le (hS.below (hin hr)) h.created_le
  · rw [h.others hs, Books.post_lives_of_ne hs]
    exact fun hd => ⟨fun hr => (hS.dead hd).1 (hin hr), (hS.dead hd).2⟩

/-- A machine is in the table under its session. -/
lemma Registered.session_moves (hR : Registered m b r) (h : Makes m m' r v) {k : CallId}
    (hk : m'.calls.get? k = some r) : (v.after m.around (m.machines r)).session = some k := by
  have hcall : v.onCall → (v.after m.around (m.machines r)).session = some k := by
    intro hon
    rw [h.get?_of_onCall hon] at hk
    rw [onCall_session hon]
    split_ifs at hk
    · exact hR.session k (dropped_eq_some hk)
    · exact hR.session k hk
  have hnew : r = m.created → m.calls.get? k ≠ some r := by
    intro hr hin
    have hlt := hR.below ⟨k, hin⟩
    exact absurd hr (Nat.ne_of_lt hlt)
  cases v with
  | announced j =>
      rw [h.calls (by simp), Move.table] at hk
      split_ifs at hk
      · by_cases hkj : k = j
        · rw [hkj]
          rfl
        · rw [Function.update_of_ne hkj] at hk
          exact absurd hk (hnew h.reached)
      · exact absurd hk (hnew h.reached)
  | dialled number =>
      rw [h.calls (by simp)] at hk
      exact absurd hk (hnew h.reached)
  | entered j =>
      rw [h.calls (by simp)] at hk
      by_cases hkj : k = j
      · rw [hkj]
        exact h.enabled.1
      · exact hR.session k (by rwa [Move.table, Function.update_of_ne hkj] at hk)
  | renamed j =>
      rcases h.renamed j rfl k r hk with ⟨-, hkj⟩ | ⟨hne, -⟩
      · rw [hkj]
        rfl
      · exact absurd rfl hne
  | _ => exact hcall rfl

/-- A destroyed machine is out of the table for good. -/
lemma Registered.dead_moves (hR : Registered m b r) (h : Makes m m' r v)
    (hdead : ((b.post m.around (r, v)).lives r).timesDestroyed ≠ 0) : ¬ m'.InTable r ∧
      (v.after m.around (m.machines r)).state = .Idle ∧
      ∀ t, (v.after m.around (m.machines r)).running t = false := by
  by_cases hv : v.destroys m.around.factory = true
  · refine ⟨?_, destroys_after hv _⟩
    rintro ⟨j, hj⟩
    rw [h.get?_of_onCall (onCall_of_destroys hv), if_pos hv] at hj
    -- the key it leaves is the one it is in the table under
    rw [hR.session j (dropped_eq_some hj)] at hj
    simp [Move.dropped] at hj
  · rw [Books.post_lives_self, Life.timesDestroyed_append, if_neg hv, Nat.add_zero] at hdead
    obtain rfl := hR.settled_of_dead h hdead
    obtain ⟨hout, hidle, htimers⟩ := hR.dead hdead
    refine ⟨?_, hidle, fun t => ?_⟩
    · rwa [InTable, h.get?_of_onCall rfl, if_neg hv]
    · rw [← htimers t]
      cases t <;> rfl

/-- **Every move keeps the register.** -/
lemma registered_make (ht : Timely m.created r v) (h : Makes m m' r v)
    (hR : ∀ s, Registered m b s) : ∀ s, Registered m' (b.post m.around (r, v)) s := by
  intro s
  by_cases hs : s = r
  · subst hs
    have hlt : s < m'.created := by
      by_cases hcr : v.creates = true
      · rw [h.created, if_pos hcr, h.eq_created hcr]
        exact Nat.lt_succ_self _
      · exact Nat.lt_of_lt_of_le ((hR s).lt_created h ht hcr) h.created_le
    constructor
    · rw [h.self, Books.post_lives_self, Life.record_append, (hR s).record]
    · exact fun hge => absurd hlt (Nat.not_lt.mpr hge)
    · intro k hk
      rw [h.self]
      exact (hR s).session_moves h hk
    · exact fun _ => hlt
    · rw [h.self]
      exact (hR s).dead_moves h
  · exact (hR s).of_ne h hs

lemma Registered.initial (around : Surroundings) (r : MachineRef) :
    Registered (CCallManager.initial around) ⟨fun _ => [], []⟩ r := by
  have hout : ¬ (CCallManager.initial around).InTable r := by
    rintro ⟨k, hk⟩
    simp [CCallManager.initial] at hk
  exact ⟨rfl, fun _ => rfl, fun k hk => absurd ⟨k, hk⟩ hout, fun hin => absurd hin hout,
    fun hne => absurd rfl hne⟩

/-! ## Where calls keep their ids -/

/-- What holds of a machine where calls keep their ids. -/
structure LastingAt (m : CCallManager) (b : Books) (r : MachineRef) : Prop where
  registered : Registered m b r
  unlisted : ¬ m.InTable r → (m.machines r).state = .Idle ∨ (m.machines r).state = .Connecting
  once : (b.lives r).timesDestroyed ≤ 1

/-- A hold is settled for a machine that was there when the event came, and no id changes. -/
def Tame (n : ℕ) (r : MachineRef) (v : Move) : Prop := (∀ k, v ≠ .renamed k) ∧ Timely n r v

/-- Nothing but the table and its timers reaches a machine. -/
lemma LastingAt.inTable (hL : LastingAt m b r) (hr : m.InHand r) : m.InTable r := by
  rcases hr with hr | ⟨hi, hc⟩
  · exact hr
  · by_contra hn
    exact (hL.unlisted hn).elim hi hc

/-- Moves that destroy are made on machines in hand. -/
lemma Makes.inHand_of_destroys (h : Makes m m' r v) (hv : v.destroys m.around.factory) :
    m.InHand r := by
  have hr := h.reached
  cases v <;> first | exact hr | simp [Move.destroys] at hv

/-- **No move touches the entry of another machine.** -/
lemma Makes.get?_iff_of_ne (hL : LastingAt m b r) (h : Makes m m' r v) (htame : ∀ k, v ≠ .renamed k)
    (hs : s ≠ r) (j : CallId) : m'.calls.get? j = some s ↔ m.calls.get? j = some s := by
  refine ⟨h.get?_of_ne hs, fun hj => ?_⟩
  have hfree : ∀ k, m.calls.get? k = none →
      Function.update m.calls.get? k (some r) j = some s := by
    intro k hk
    rw [Function.update_of_ne (by rintro rfl; simp [hk] at hj), hj]
  have hcall : v.onCall → m'.calls.get? j = some s := by
    intro hon
    rw [h.get?_of_onCall hon]
    split_ifs with hv
    · -- the entry it drops is its own
      obtain ⟨k, hk⟩ := hL.inTable (h.inHand_of_destroys hv)
      rw [hL.registered.session k hk, Move.dropped, Function.update_of_ne, hj]
      rintro rfl
      exact hs (Option.some.inj (hj.symm.trans hk))
    · exact hj
  cases v with
  | announced k =>
      rw [h.calls htame, Move.table]
      split_ifs with hk
      · exact hfree k hk
      · exact hj
  | dialled number =>
      rw [h.calls htame]
      exact hj
  | entered k =>
      rw [h.calls htame]
      exact hfree k h.reached.1
  | renamed k => exact absurd rfl (htame k)
  | _ => exact hcall rfl

/-- A machine that is not in the table after its own move is idle, or connecting. -/
lemma LastingAt.unlisted_moves (hL : LastingAt m b r) (h : Makes m m' r v)
    (htame : ∀ k, v ≠ .renamed k) (hout : ¬ m'.InTable r) :
    (v.after m.around (m.machines r)).state = .Idle ∨
      (v.after m.around (m.machines r)).state = .Connecting := by
  by_cases hv : v.destroys m.around.factory = true
  · exact .inl (destroys_after hv _).1
  have hsame : v.onCall → ¬ m.InTable r := by
    intro hon
    rwa [InTable, h.get?_of_onCall hon, if_neg hv] at hout
  cases v with
  | announced k => exact .inl rfl
  | dialled number => exact .inr (CStateMachine.enter_state _ _)
  | entered k => exact .inr h.enabled.2
  | renamed k => exact absurd rfl (htame k)
  | settled => exact hL.unlisted (hsame rfl)
  | expired t => cases t <;> exact hL.unlisted (hsame rfl)
  | _ => exact absurd (hL.inTable h.reached) (hsame rfl)

/-- **Every move keeps what holds of the machines.** -/
lemma lasting_make (ht : Tame m.created r v) (h : Makes m m' r v) (hL : ∀ s, LastingAt m b s) :
    ∀ s, LastingAt m' (b.post m.around (r, v)) s := by
  have hR := registered_make ht.2 h fun s => (hL s).registered
  intro s
  by_cases hs : s = r
  · subst hs
    refine ⟨hR s, ?_, ?_⟩
    · rw [h.self]
      exact (hL s).unlisted_moves h ht.1
    · rw [Books.post_lives_self, Life.timesDestroyed_append]
      split_ifs with hv
      · rw [(hL s).registered.alive ((hL s).inTable (h.inHand_of_destroys hv))]
      · exact (hL s).once
  · refine ⟨hR s, ?_, ?_⟩
    · have hin : m'.InTable s ↔ m.InTable s :=
        exists_congr (h.get?_iff_of_ne (hL r) ht.1 hs)
      rw [h.others hs, hin]
      exact (hL s).unlisted
    · rw [Books.post_lives_of_ne hs]
      exact (hL s).once

lemma Registered.congr (hR : Registered m b r) (hm : m'.machines = m.machines)
    (hn : m'.created = m.created)
    (hc : ∀ k, m'.calls.get? k = some r → m.calls.get? k = some r) : Registered m' b r := by
  have hin : m'.InTable r → m.InTable r := fun ⟨k, hk⟩ => ⟨k, hc k hk⟩
  constructor
  · rw [hm, hR.record]
  · rw [hn]
    exact hR.fresh
  · rw [hm]
    exact fun k hk => hR.session k (hc k hk)
  · rw [hn]
    exact fun hr => hR.below (hin hr)
  · rw [hm]
    exact fun hd => ⟨fun hr => (hR.dead hd).1 (hin hr), (hR.dead hd).2⟩

lemma LastingAt.congr (hL : LastingAt m b r) (hm : m'.machines = m.machines)
    (hn : m'.created = m.created) (hc : m'.calls.get? = m.calls.get?) : LastingAt m' b r := by
  refine ⟨hL.registered.congr hm hn fun k hk => by rwa [hc] at hk, ?_, hL.once⟩
  rw [InTable, hc, hm]
  exact hL.unlisted

/-! ## The moves of the events are tame -/

/-- Neither a new id nor the end of a hold. -/
def mild : Move → Bool
  | .renamed _ | .settled => false
  | _ => true

lemma tame_of_mild {n : ℕ} (h : mild v) : Tame n r v :=
  ⟨by rintro k rfl; simp [mild] at h, by rintro rfl; simp [mild] at h⟩

lemma signalMoves_mild (sig : Signal) (st : IAbstractState) : ∀ v ∈ signalMoves sig st, mild v := by
  cases sig <;> cases st <;> simp [signalMoves, mild]

lemma incomingMoves_mild (cfg : IConfigurator) (count : ℕ) (number name : String)
    (st : IAbstractState) : ∀ v ∈ incomingMoves cfg count number name st, mild v := by
  cases st with
  | Idle =>
      simp only [incomingMoves]
      split_ifs <;> simp [mild]
  | _ => simp [incomingMoves]

lemma timerMoves_mild (c : CStateMachine) (t : ETimerType) : ∀ v ∈ timerMoves c t, mild v := by
  unfold timerMoves
  split_ifs
  · split <;> simp [mild]
  · simp

lemma own_mild {l : List Move} (h : ∀ v ∈ l, mild v) : ∀ p ∈ own r l, mild p.2 := by
  intro p hp
  obtain ⟨v, hv, rfl⟩ := List.mem_map.mp hp
  exact h v hv

lemma listedMoves_mild (m : CCallManager) (k : CallId) {f : MachineRef → List Move}
    (h : ∀ r, ∀ v ∈ f r, mild v) : ∀ p ∈ m.listedMoves k f, mild p.2 := by
  unfold listedMoves
  split
  · simp
  · exact own_mild (h _)

lemma createMoves_mild (m : CCallManager) (number : String) :
    ∀ p ∈ m.createMoves number, mild p.2 := by
  unfold createMoves dialMoves
  split_ifs
  · simp
  · split
    · simp [mild]
    · split <;> simp [mild]
  · simp [mild]
  · simp

lemma answerMoves_mild (m : CCallManager) (k : CallId) : ∀ p ∈ m.answerMoves k, mild p.2 := by
  unfold answerMoves
  split
  · simp [mild]
  · split
    · simp
    · exact own_mild (signalMoves_mild _ _)

lemma holdRetrieveMoves_mild (m : CCallManager) (k : CallId) :
    ∀ p ∈ m.holdRetrieveMoves k, mild p.2 := by
  unfold holdRetrieveMoves
  split
  · simp
  · split
    · simp [mild]
    · split
      · simp [mild]
      · exact own_mild (signalMoves_mild _ _)
    · simp

lemma pendingMoves_mild (m : CCallManager) : ∀ p ∈ m.pendingMoves, mild p.2 := by
  unfold pendingMoves
  split
  · simp
  · exact answerMoves_mild m _
  · exact createMoves_mild m _
  · exact holdRetrieveMoves_mild m _

lemma confirmMoves_tame (hr : r < m.created) : ∀ p ∈ m.confirmMoves r, Tame m.created p.1 p.2 := by
  have hsettled : Tame m.created r .settled := ⟨by simp, fun _ => hr⟩
  unfold confirmMoves
  split
  · split_ifs
    · intro p hp
      simp only [List.mem_cons, List.mem_append, List.not_mem_nil, or_false] at hp
      rcases hp with rfl | hp | rfl
      · exact tame_of_mild rfl
      · exact tame_of_mild (pendingMoves_mild _ p hp)
      · exact hsettled
    · simpa using hsettled
  · simp

/-- **Only a replaced call gets a new id**, and only a confirmed hold is settled. -/
lemma movesOf_tame (hw : m.WellFormed) {e : Event} (he : ∀ old new, e ≠ .callReplaced old new) :
    ∀ p ∈ m.movesOf e, Tame m.created p.1 p.2 := by
  cases e with
  | callReplaced old new => exact absurd rfl (he old new)
  | createOutboundCall number accountId =>
      exact fun p hp => tame_of_mild (createMoves_mild m number p hp)
  | onUserRelease s =>
      exact fun p hp => tame_of_mild (listedMoves_mild m s (fun _ => signalMoves_mild _ _) p hp)
  | onUserAnswer s => exact fun p hp => tame_of_mild (answerMoves_mild m s p hp)
  | onUserHoldRetrieve s => exact fun p hp => tame_of_mild (holdRetrieveMoves_mild m s p hp)
  | onUserConference s =>
      intro p hp
      refine tame_of_mild ?_
      revert p
      simp only [movesOf, conferenceMoves]
      split_ifs
      · split
        · simp
        · exact own_mild (signalMoves_mild _ _)
      · simp
  | callStateChanged k st =>
      intro p hp
      refine tame_of_mild ?_
      revert p
      cases st with
      | SESSION_STATE_INCOMING =>
          simp only [movesOf, announceMoves, List.forall_mem_cons]
          refine ⟨rfl, ?_⟩
          split
          · exact own_mild (signalMoves_mild _ _)
          · simp
      | SESSION_STATE_EARLY | SESSION_STATE_CONNECTING | SESSION_STATE_DISCONNECTED =>
          exact listedMoves_mild m k fun _ => signalMoves_mild _ _
      | SESSION_STATE_NULL | SESSION_STATE_CALLING | SESSION_STATE_CONFIRMED => simp [movesOf]
  | callIncoming k number info =>
      exact fun p hp =>
        tame_of_mild (listedMoves_mild m k (fun _ => incomingMoves_mild _ _ _ _ _) p hp)
  | holdConfirm k =>
      simp only [movesOf]
      split
      · simp
      · exact confirmMoves_tame (hw.created k _ ‹_›)
  | timerElapsed r t => exact fun p hp => tame_of_mild (own_mild (timerMoves_mild _ _) p hp)
  | Shutdown =>
      intro p hp
      obtain ⟨e, -, rfl⟩ := List.mem_map.mp hp
      exact tame_of_mild rfl
  | onUserTransfer _ _ | onUserDialDigit _ _ | Initialize _ | surroundings _ => simp [movesOf]

/-- **Only a confirmed hold is settled**, also when calls get new ids. -/
lemma movesOf_timely (hw : m.WellFormed) (e : Event) :
    ∀ p ∈ m.movesOf e, Timely m.created p.1 p.2 := by
  cases e with
  | callReplaced old new =>
      simp only [movesOf, listedMoves]
      split
      · simp
      · simp [own, Timely]
  | _ => exact fun p hp => (movesOf_tame hw (by simp) p hp).2

lemma Timely.later {n n' : ℕ} (hle : n ≤ n') (h : Timely n r v) : Timely n' r v :=
  fun hs => Nat.lt_of_lt_of_le (h hs) hle

lemma Tame.later {n n' : ℕ} (hle : n ≤ n') (h : Tame n r v) : Tame n' r v :=
  ⟨h.1, h.2.later hle⟩

section Rules

variable {K : CCallManager → Books → Prop} (allowed : ℕ → MachineRef → Move → Prop)

/-- **The rule for courses.**  What every allowed move keeps, the course of an event keeps. -/
theorem Course.kept (hlater : ∀ {n n' r v}, n ≤ n' → allowed n r v → allowed n' r v)
    (halike : ∀ {m m' b}, Alike m m' → K m b → K m' b)
    (hmake : ∀ {m m' b r v}, allowed m.created r v → Makes m m' r v → K m b →
      K m' (b.post m.around (r, v)))
    (h : Course m l m') (hl : ∀ p ∈ l, allowed m.created p.1 p.2) (hK : K m b) :
    K m' (run (Books.post m.around) b l) := by
  -- machines are only ever added, so a machine that was there when the event came still is
  refine (h.books (K := fun m' b' => K m' b' ∧ m.created ≤ m'.created) (allowed m.created) ?_ ?_ hl
    ⟨hK, Nat.le_refl _⟩).1
  · rintro m₁ m₂ b ha ⟨hK, hle⟩
    exact ⟨halike ha hK, ha.created ▸ hle⟩
  · rintro m₁ m₂ b r v ht hv ⟨hK, hle⟩
    exact ⟨hmake (hlater hle ht) hv hK, Nat.le_trans hle hv.created_le⟩

/-- **The rule for events.**  What every allowed move keeps, an event keeps that makes only such
moves, if it depends only on the records, the table and the surroundings.  Starting a manager throws
its table away. -/
theorem perform_rule (hlater : ∀ {n n' r v}, n ≤ n' → allowed n r v → allowed n' r v)
    (hcongr : ∀ {m m' b}, m'.machines = m.machines → m'.created = m.created →
      m'.calls.get? = m.calls.get? → m'.around = m.around → K m b → K m' b)
    (hmake : ∀ {m m' b r v}, allowed m.created r v → Makes m m' r v → K m b →
      K m' (b.post m.around (r, v)))
    (w : Chronicle) (hw : w.manager.WellFormed) {e : Event}
    (hl : ∀ p ∈ movesOf { w.manager with out := [] } e, allowed w.manager.created p.1 p.2)
    (hforget : w.manager.initialized = false →
      K { w.manager with calls := Dictionary.empty } w.books)
    (hsurr : ∀ x, e = .surroundings x →
      K { w.manager with around := { x with factory := w.manager.around.factory } } w.books)
    (hK : K w.manager w.books) : K (w.perform e).manager (w.perform e).books := by
  have hcleared : K { w.manager with out := [] } w.books :=
    hcongr (m := w.manager) rfl rfl rfl rfl hK
  have hrun : ∀ m', Course { w.manager with out := [] }
      (movesOf { w.manager with out := [] } e) m' → K m' (w.perform e).books := by
    intro m' hcourse
    have h := hcourse.kept (K := K) allowed hlater
      (fun h => hcongr h.machines h.created h.calls h.around)
      hmake hl hcleared
    exact h
  by_cases hord : e.ordinary
  · exact hrun _ (step_course hw.cleared hord)
  cases e with
  | Initialize status =>
      simp only [Chronicle.perform, step, stepWith, handle, CCallManager.Initialize]
      split_ifs with hinit
      · exact hcleared
      · exact hcongr (m := { w.manager with calls := Dictionary.empty }) rfl rfl rfl rfl
          (hforget (by simpa using hinit))
      · exact hcongr (m := { w.manager with calls := Dictionary.empty }) rfl rfl rfl rfl
          (hforget (by simpa using hinit))
  | Shutdown =>
      obtain ⟨m', hcourse, hempty, heq⟩ := shutdown_course hw.cleared
      have heq' : (w.perform .Shutdown).manager =
          { m' with calls := Dictionary.empty, initialized := false } := heq
      rw [heq']
      refine hcongr (m := m') rfl rfl ?_ rfl (hrun m' hcourse)
      funext k
      rw [hempty k]
      rfl
  | surroundings x =>
      exact hcongr
        (m := { w.manager with around := { x with factory := w.manager.around.factory } })
        rfl rfl rfl rfl (hsurr x rfl)
  | _ => simp [Event.ordinary] at hord

end Rules

/-! ## A stopped manager -/

/-- A manager that is not running has no calls. -/
def Stopped (m : CCallManager) : Prop := m.initialized = false → ∀ k, m.calls.get? k = none

/-- Calls keep their ids, and a manager that is not running is told of no new call: shutting down
takes the handlers of the stack's events away. -/
def Orderly (m : CCallManager) (e : Event) : Prop :=
  (∀ old new, e ≠ .callReplaced old new) ∧
    (m.initialized = false → ∀ k, e ≠ .callStateChanged k .SESSION_STATE_INCOMING)

lemma Course.initialized (h : Course m l m') : m'.initialized = m.initialized := by
  induction h with
  | done h => exact h.initialized
  | make h₁ _ ih => exact ih.trans h₁.initialized

lemma dropped_eq_none {d : CallId → Option MachineRef} {k : CallId} (h : d k = none)
    (o : Option CallId) : Move.dropped d o k = none := by
  cases o with
  | none => exact h
  | some j => simp [Move.dropped, Function.update_apply, h]

/-- Moves on calls only take entries out of the table. -/
lemma Course.table_empty (h : Course m l m') (hl : ∀ p ∈ l, p.2.onCall)
    (hm : ∀ k, m.calls.get? k = none) : ∀ k, m'.calls.get? k = none := by
  induction h with
  | done h =>
      rw [h.calls]
      exact hm
  | make h₁ _ ih =>
      refine ih (fun p hp => hl p (List.mem_cons_of_mem _ hp)) fun k => ?_
      have hon := hl _ List.mem_cons_self
      rw [h₁.calls (by rintro k rfl; simp [Move.onCall] at hon), table_of_onCall hon]
      split_ifs
      · exact dropped_eq_none (hm k) _
      · exact hm k

lemma timerMoves_onCall (c : CStateMachine) (t : ETimerType) : ∀ v ∈ timerMoves c t, v.onCall := by
  unfold timerMoves
  split_ifs
  · split <;> simp [Move.onCall]
  · simp

/-- Without calls, a manager that is not running makes no moves but those of timers. -/
lemma movesOf_of_stopped (hm : ∀ k, m.calls.get? k = none) (hstop : m.initialized = false)
    {e : Event} (he : Orderly m e) : ∀ p ∈ m.movesOf e, p.2.onCall := by
  have henum : ∀ st, m.enumCallsInState st = [] := by
    intro st
    refine List.eq_nil_iff_forall_not_mem.mpr fun r hr => ?_
    obtain ⟨⟨k, hk⟩, -⟩ := mem_enumCallsInState.mp hr
    simp [hm k] at hk
  have hlisted : ∀ k f, m.listedMoves k f = [] := by
    intro k f
    simp only [listedMoves, hm k]
  cases e with
  | createOutboundCall number accountId => simp [movesOf, createMoves, hstop]
  | onUserAnswer s => simp [movesOf, answerMoves, henum, hm]
  | onUserHoldRetrieve s => simp [movesOf, holdRetrieveMoves, hm]
  | onUserConference s => simp [movesOf, conferenceMoves, getNoCallsInState_eq_length, henum]
  | callStateChanged k st =>
      cases st with
      | SESSION_STATE_INCOMING => exact absurd rfl (he.2 hstop k)
      | _ => simp [movesOf, hlisted]
  | holdConfirm k => simp [movesOf, hm]
  | timerElapsed r t =>
      intro p hp
      obtain ⟨v, hv, rfl⟩ := List.mem_map.mp hp
      exact timerMoves_onCall _ _ v hv
  | Shutdown =>
      intro p hp
      obtain ⟨e, -, rfl⟩ := List.mem_map.mp hp
      rfl
  | _ => simp [movesOf, hlisted]

lemma stopped_handle (hw : m.WellFormed) (hstop : m.Stopped) {e : Event} (he : Orderly m e) :
    (m.handle [] e).Stopped := by
  by_cases hord : e.ordinary
  · have hl := step_course hw hord
    intro hinit
    rw [hl.initialized] at hinit
    exact hl.table_empty (movesOf_of_stopped (hstop hinit) hinit he) (hstop hinit)
  cases e with
  | Initialize status =>
      simp only [handle, CCallManager.Initialize]
      split_ifs
      · exact hstop
      · exact fun _ k => rfl
      · exact fun _ k => rfl
  | Shutdown => exact fun _ k => rfl
  | surroundings x => exact hstop
  | _ => simp [Event.ordinary] at hord

/-! ## Orderly events -/

/-- **What every tame move keeps, every orderly event keeps**: a manager that is not running has an
empty table to throw away. -/
theorem perform_kept {K : CCallManager → Books → Prop}
    (hcongr : ∀ {m m' b}, m'.machines = m.machines → m'.created = m.created →
      m'.calls.get? = m.calls.get? → m'.around = m.around → K m b → K m' b)
    (hmake : ∀ {m m' b r v}, Tame m.created r v → Makes m m' r v → K m b →
      K m' (b.post m.around (r, v)))
    (w : Chronicle) (hw : w.manager.WellFormed) (hstop : w.manager.Stopped) {e : Event}
    (he : Orderly w.manager e)
    (hsurr : ∀ x, e = .surroundings x →
      K { w.manager with around := { x with factory := w.manager.around.factory } } w.books)
    (hK : K w.manager w.books) : K (w.perform e).manager (w.perform e).books := by
  refine perform_rule (K := K) Tame Tame.later hcongr hmake w hw (movesOf_tame hw.cleared he.1) ?_
    hsurr hK
  intro hinit
  refine hcongr (m := w.manager) rfl rfl ?_ rfl hK
  funext k
  rw [hstop hinit k]
  rfl

end CCallManager

end TAM
