import AnsweringMachine.CallControl.Lifetime

/-!
# What is logged as the duration of a call

The *talk time* of a call runs from the moment its machine first is active to the moment it leaves
the conversation, that is, the active and the holding state.  `Life.talk` reads the four facts this
takes off the life of a machine.

**The log has something else.**  `destroy` computes the duration when it destroys a machine, not
when the conversation ends: with a release timer that is seconds later.  And it counts from `Time`,
which the machine notes when a call is answered or connected while alerting, but not when a call is
connected straight out of the connecting state: then `Time` still is the moment of its creation.

`logged_duration_iff` says when the two agree: if the call never was active, or was destroyed at the
clock reading at which it left the conversation and, where it was connected straight away, was
active at the clock reading at which it was created.
-/

namespace TAM

open Runs

/-! ## Talk time -/

/-- The states of a conversation. -/
def IAbstractState.talking : IAbstractState → Bool
  | Active | Holding => true
  | _ => false

/-- Moments in the life of a machine, by the clock. -/
structure Talk where
  /-- it was created -/
  born : Option DateTime := none
  /-- it was active for the first time -/
  since : Option DateTime := none
  /-- it was connecting right before that -/
  straight : Bool := false
  /-- it was out of the conversation for the first time after that -/
  left : Option DateTime := none
  deriving DecidableEq, Repr

namespace Talk

/-- Note that the machine goes from one state to another. -/
def note (k : Talk) (now : DateTime) (old new : IAbstractState) : Talk where
  born := k.born.or (some now)
  since := if new = .Active then k.since.or (some now) else k.since
  straight := if new = .Active ∧ k.since = none then decide (old = .Connecting) else k.straight
  left := if k.since.isSome ∧ ¬ new.talking then k.left.or (some now) else k.left

/-- The length of the conversation. -/
def time (k : Talk) : TimeSpan :=
  match k.since, k.left with
  | some s, some l => l - s
  | _, _ => 0

end Talk

namespace Life

/-- The moments in a life. -/
def talk (ℓ : Life) : Talk :=
  (run (fun (c, k) p => (p.2.after p.1 c, k.note p.1.now c.state (p.2.after p.1 c).state))
    (({}, {}) : CStateMachine × Talk) ℓ).2

/-- When the machine was destroyed. -/
def destroyedAt (ℓ : Life) : Option DateTime :=
  (ℓ.find? fun p => p.2.destroys p.1.factory).map fun p => p.1.now

/-- The call never was active; or it was destroyed when it left the conversation and, if it was
connected straight away, active when it was created. -/
def Prompt (ℓ : Life) : Prop :=
  ℓ.talk.since = none ∨
    ℓ.talk.left = ℓ.destroyedAt ∧ (ℓ.talk.straight → ℓ.talk.born = ℓ.talk.since)

instance (ℓ : Life) : Decidable ℓ.Prompt := inferInstanceAs (Decidable (_ ∨ _))

variable {ℓ : Life} {x : Surroundings} {v : Move}

@[simp] lemma talk_nil : talk [] = {} := rfl

lemma talk_append : (ℓ ++ [(x, v)]).talk =
    ℓ.talk.note x.now ℓ.record.state (v.after x ℓ.record).state := by
  have hfst : ∀ (ℓ : Life) (c : CStateMachine) (k : Talk),
      (run (fun (c, k) p => (p.2.after p.1 c, k.note p.1.now c.state (p.2.after p.1 c).state))
        (c, k) ℓ).1 = run (fun c p => p.2.after p.1 c) c ℓ := by
    intro ℓ
    induction ℓ with
    | nil => exact fun _ _ => rfl
    | cons p ℓ ih => exact fun _ _ => ih _ _
  rw [talk, run_append]
  simp only [run, hfst, record]
  rfl

lemma destroyedAt_append : (ℓ ++ [(x, v)]).destroyedAt =
    ℓ.destroyedAt.or (if v.destroys x.factory then some x.now else none) := by
  unfold destroyedAt
  rw [List.find?_append]
  cases ℓ.find? fun p => p.2.destroys p.1.factory with
  | some p => rfl
  | none =>
      by_cases hv : v.destroys x.factory = true
      · simp [hv]
      · simp [hv]

/-- A life without destruction has no moment of it. -/
lemma destroyedAt_of_timesDestroyed (h : ℓ.timesDestroyed = 0) : ℓ.destroyedAt = none := by
  have hfind : (ℓ.find? fun p => p.2.destroys p.1.factory) = none := by
    rw [List.find?_eq_none]
    exact List.countP_eq_zero.mp h
  rw [destroyedAt, hfind, Option.map_none]

end Life

/-! ## What the record knows of it -/

namespace CStateMachine

@[simp] lemma enter_time (c : CStateMachine) (st : IAbstractState) :
    (c.enter st).time = c.time := by
  cases st <;> exact c.onExit_fields.2.2.2.1

@[simp] lemma enter_duration (c : CStateMachine) (st : IAbstractState) :
    (c.enter st).duration = c.duration := by
  cases st <;> exact c.onExit_fields.2.2.2.2.1

lemma enter_counting {st : IAbstractState} (hst : st ≠ .Active) (c : CStateMachine) :
    (c.enter st).counting = c.counting := by
  cases st <;> first | exact c.onExit_fields.2.2.2.2.2 | exact absurd rfl hst

@[simp] lemma enter_active_counting (c : CStateMachine) : (c.enter .Active).counting = true := rfl

/-- Going over to an ending state leaves the times alone. -/
lemma ending_times (x : Surroundings) (st : IAbstractState) (c : CStateMachine) :
    (c.ending x st).state = st ∧ (c.ending x st).time = c.time ∧
    (c.ending x st).duration = c.duration ∧ (c.ending x st).counting = c.counting := by
  obtain ⟨-, -, -, h1, h2, h3⟩ := c.onExit_fields
  exact ⟨rfl, h1, h2, h3⟩

lemma hungUp_times (now : DateTime) (c : CStateMachine) :
    (c.hungUp now).time = c.time ∧ (c.hungUp now).counting = c.counting ∧
    (c.state ≠ .Active → (c.hungUp now).duration = c.duration) := by
  unfold hungUp
  split_ifs with h
  · exact ⟨rfl, rfl, fun hne => absurd h hne⟩
  · exact ⟨rfl, rfl, fun _ => rfl⟩

lemma rung_times (x : Surroundings) (c : CStateMachine) :
    (c.rung x).state = .Incoming ∧ (c.rung x).time = c.time ∧
    (c.rung x).duration = c.duration ∧ (c.rung x).counting = c.counting := by
  obtain ⟨-, -, -, h1, h2, h3⟩ := c.onExit_fields
  unfold rung
  split_ifs <;> exact ⟨rfl, h1, h2, h3⟩

/-- What `destroy` would log now as the duration. -/
def loggedDuration (now : DateTime) (c : CStateMachine) : TimeSpan :=
  if c.counting then now - c.time else c.duration

end CStateMachine

/-- The phases of a call that is not destroyed, and what its record knows of its moments. -/
inductive Phase (now : DateTime) (c : CStateMachine) : Talk → Prop
  /-- not active so far -/
  | before (b : DateTime) (hb : b ≤ now) (hst : ¬ c.state.talking) (hcount : c.counting = false)
      (htime : c.time = b) (hdur : c.duration = 0) : Phase now c ⟨some b, none, false, none⟩
  /-- in conversation -/
  | talking (b s : DateTime) (straight : Bool) (hb : b ≤ s) (hs : s ≤ now) (hst : c.state.talking)
      (hcount : c.counting) (htime : c.time = if straight then b else s) :
      Phase now c ⟨some b, some s, straight, none⟩
  /-- out of the conversation, and about to be destroyed -/
  | after (b s l : DateTime) (straight : Bool) (hb : b ≤ s) (hs : s ≤ l) (hl : l ≤ now)
      (hst : c.state = .Released ∨ c.state = .Terminated) (hcount : c.counting)
      (htime : c.time = if straight then b else s) : Phase now c ⟨some b, some s, straight, some l⟩

namespace Phase

variable {now : DateTime} {c c' : CStateMachine} {k : Talk} {x : Surroundings} {v : Move}

/-- The clock goes on. -/
lemma later {now' : DateTime} (h : Phase now c k) (hle : now ≤ now') : Phase now' c k := by
  cases h with
  | before b hb hst hcount htime hdur => exact .before b (Int.le_trans hb hle) hst hcount htime hdur
  | talking b s straight hb hs hst hcount htime =>
      exact .talking b s straight hb (Int.le_trans hs hle) hst hcount htime
  | after b s l straight hb hs hl hst hcount htime =>
      exact .after b s l straight hb hs (Int.le_trans hl hle) hst hcount htime

/-- A move that leaves the state and the times as they are. -/
lemma same (h : Phase now c k) (hst : c'.state = c.state) (hcount : c'.counting = c.counting)
    (htime : c'.time = c.time) (hdur : c'.duration = c.duration) :
    Phase now c' (k.note now c.state c'.state) := by
  cases h with
  | before b hb hst' hcount' htime' hdur' =>
      have hne : c.state ≠ .Active := by
        intro ha
        simp [ha, IAbstractState.talking] at hst'
      rw [hst, show Talk.note ⟨some b, none, false, none⟩ now c.state c.state =
        ⟨some b, none, false, none⟩ by simp [Talk.note, hne]]
      exact .before b hb (hst ▸ hst') (hcount.trans hcount') (htime.trans htime')
        (hdur.trans hdur')
  | talking b s straight hb hs hst' hcount' htime' =>
      rw [hst, show Talk.note ⟨some b, some s, straight, none⟩ now c.state c.state =
        ⟨some b, some s, straight, none⟩ by simp [Talk.note, hst']]
      exact .talking b s straight hb hs (hst ▸ hst') (hcount ▸ hcount') (htime.trans htime')
  | after b s l straight hb hs hl hst' hcount' htime' =>
      rw [hst, show Talk.note ⟨some b, some s, straight, some l⟩ now c.state c.state =
        ⟨some b, some s, straight, some l⟩ by simp [Talk.note]]
      exact .after b s l straight hb hs hl (hst ▸ hst') (hcount ▸ hcount') (htime.trans htime')

/-- Before the conversation, from one state to another. -/
lemma waits (h : Phase now c k) (hst : ¬ c.state.talking) (hend : c.state ≠ .Released)
    (hend' : c.state ≠ .Terminated) (hst' : ¬ c'.state.talking) (hcount : c'.counting = c.counting)
    (htime : c'.time = c.time) (hdur : c'.duration = c.duration) :
    Phase now c' (k.note now c.state c'.state) := by
  cases h with
  | before b hb _ hcount' htime' hdur' =>
      have hne : c'.state ≠ .Active := by
        intro ha
        simp [ha, IAbstractState.talking] at hst'
      rw [show Talk.note ⟨some b, none, false, none⟩ now c.state c'.state =
        ⟨some b, none, false, none⟩ by simp [Talk.note, hne]]
      exact .before b hb hst' (hcount.trans hcount') (htime.trans htime') (hdur.trans hdur')
  | talking b s straight hb hs htalk => exact absurd htalk hst
  | after b s l straight hb hs hl hst' => exact absurd hst' (by simp [hend, hend'])

/-- The conversation begins. -/
lemma connects (h : Phase now c k) (hst : ¬ c.state.talking) (hend : c.state ≠ .Released)
    (hend' : c.state ≠ .Terminated) (hst' : c'.state = .Active) (hcount : c'.counting)
    (htime : c'.time = if c.state = .Connecting then c.time else now) :
    Phase now c' (k.note now c.state c'.state) := by
  cases h with
  | before b hb _ hcount' htime' hdur' =>
      rw [hst', show Talk.note ⟨some b, none, false, none⟩ now c.state .Active =
        ⟨some b, some now, decide (c.state = .Connecting), none⟩ by simp [Talk.note]]
      refine .talking b now _ hb (Int.le_refl now)
        (by simp [hst', IAbstractState.talking]) hcount ?_
      rw [htime, htime']
      simp
  | talking b s straight hb hs htalk => exact absurd htalk hst
  | after b s l straight hb hs hl hst' => exact absurd hst' (by simp [hend, hend'])

/-- The conversation goes on. -/
lemma talks (h : Phase now c k) (hst : c.state.talking) (hst' : c'.state.talking)
    (hcount : c'.counting) (htime : c'.time = c.time) :
    Phase now c' (k.note now c.state c'.state) := by
  cases h with
  | before b hb hno => exact absurd hst hno
  | talking b s straight hb hs _ _ htime' =>
      rw [show Talk.note ⟨some b, some s, straight, none⟩ now c.state c'.state =
        ⟨some b, some s, straight, none⟩ by simp [Talk.note, hst']]
      exact .talking b s straight hb hs hst' hcount (htime.trans htime')
  | after b s l straight hb hs hl hno =>
      rcases hno with hno | hno <;> simp [hno, IAbstractState.talking] at hst

/-- The conversation ends. -/
lemma leaves (h : Phase now c k) (hst : c.state.talking)
    (hst' : c'.state = .Released ∨ c'.state = .Terminated) (hcount : c'.counting = c.counting)
    (htime : c'.time = c.time) : Phase now c' (k.note now c.state c'.state) := by
  cases h with
  | before b hb hno => exact absurd hst hno
  | talking b s straight hb hs _ hcount' htime' =>
      have hno : c'.state ≠ .Active ∧ ¬ c'.state.talking := by
        rcases hst' with h | h <;> simp [h, IAbstractState.talking]
      rw [show Talk.note ⟨some b, some s, straight, none⟩ now c.state c'.state =
        ⟨some b, some s, straight, some now⟩ by simp [Talk.note, hno]]
      exact .after b s now straight hb hs (Int.le_refl now) hst' (hcount ▸ hcount')
        (htime.trans htime')
  | after b s l straight hb hs hl hno =>
      rcases hno with hno | hno <;> simp [hno, IAbstractState.talking] at hst

/-- In the active state the call is being counted. -/
lemma counting (h : Phase now c k) (hact : c.state = .Active) : c.counting := by
  have htalk : c.state.talking := by simp [hact, IAbstractState.talking]
  cases h with
  | before b hb hno => exact absurd htalk hno
  | talking b s straight hb hs hst hcount => exact hcount
  | after b s l straight hb hs hl hst hcount => exact hcount

/-- A call ends, in the conversation or before it. -/
lemma ends (h : Phase now c k) (hin : InCall c.state)
    (hst' : c'.state = .Released ∨ c'.state = .Terminated) (hcount : c'.counting = c.counting)
    (htime : c'.time = c.time) (hdur : ¬ c.state.talking → c'.duration = c.duration) :
    Phase now c' (k.note now c.state c'.state) := by
  by_cases htalk : c.state.talking = true
  · exact h.leaves htalk hst' hcount htime
  · have hno : ¬ c'.state.talking := by
      rcases hst' with h | h <;> simp [h, IAbstractState.talking]
    refine h.waits htalk ?_ ?_ hno hcount htime (hdur htalk)
    · rintro hr
      simp [InCall, hr] at hin
    · rintro ht
      simp [InCall, ht] at hin

/-- **Every move keeps the phases**, short of creation and destruction. -/
lemma moves (h : Phase x.now c k) (hen : v.Enabled c) (hcr : ¬ v.creates)
    (hd : ¬ v.destroys x.factory) :
    Phase x.now (v.after x c) (k.note x.now c.state (v.after x c).state) := by
  cases v with
  | announced | dialled => exact absurd rfl hcr
  | turnedAway | destroyed => exact absurd rfl hd
  | entered | renamed | holdRequested | settled => exact h.same rfl rfl rfl rfl
  | expired t => cases t <;> exact h.same rfl rfl rfl rfl
  | delivered number name =>
      obtain ⟨hst, htime, hdur, hcount⟩ :=
        ({ c with callingNumber := number, callingName := name } : CStateMachine).rung_times x
      have hidle : c.state = .Idle := hen
      refine h.waits (by simp [hidle, IAbstractState.talking]) (by simp [hidle]) (by simp [hidle])
        ?_ hcount htime hdur
      simp [Move.after, hst, IAbstractState.talking]
  | alerted =>
      have hcon : c.state = .Connecting := hen
      refine h.waits (by simp [hcon, IAbstractState.talking]) (by simp [hcon]) (by simp [hcon]) ?_
        (c.enter_counting (by simp)) (c.enter_time _) (c.enter_duration _)
      simp [Move.after, IAbstractState.talking]
  | accepted =>
      have hin : c.state = .Incoming := hen
      refine h.connects (by simp [hin, IAbstractState.talking]) (by simp [hin]) (by simp [hin])
        rfl rfl ?_
      simp [Move.after, hin]
  | connected =>
      rcases hen with hst | hst
      · refine h.connects (by simp [hst, IAbstractState.talking]) (by simp [hst]) (by simp [hst])
          (CStateMachine.enter_state _ _) rfl ?_
        simp [Move.after, hst]
      · refine h.connects (by simp [hst, IAbstractState.talking]) (by simp [hst]) (by simp [hst])
          (CStateMachine.enter_state _ _) rfl ?_
        simp [Move.after, hst]
  | held =>
      have hact : c.state = .Active := hen
      refine h.talks (by simp [hact, IAbstractState.talking]) rfl ?_ (c.enter_time _)
      rw [Move.after, c.enter_counting (by simp)]
      exact h.counting hact
  | retrieved =>
      have hhold : c.state = .Holding := hen
      exact h.talks (by simp [hhold, IAbstractState.talking]) rfl rfl (by simp [Move.after])
  | terminated =>
      have hx : x.factory.timersRun = true := by simpa [Move.destroys] using hd
      obtain ⟨hst, htime, hdur, hcount⟩ := (c.hungUp x.now).ending_times x .Terminated
      obtain ⟨htime', hcount', hdur'⟩ := c.hungUp_times x.now
      simp only [Move.after, Move.endedIn, if_pos hx]
      refine h.ends hen (.inr hst) (hcount.trans hcount') (htime.trans htime') fun hno =>
        hdur.trans (hdur' ?_)
      rintro hact
      simp [hact, IAbstractState.talking] at hno
  | released =>
      have hx : x.factory.timersRun = true := by simpa [Move.destroys] using hd
      obtain ⟨hst, htime, hdur, hcount⟩ := c.ending_times x .Released
      simp only [Move.after, Move.endedIn, if_pos hx]
      exact h.ends hen (.inl hst) hcount htime fun _ => hdur

/-- Two spans, the first of which begins earlier and ends later. -/
lemma sub_eq_sub_iff_of_le {b s l e : ℤ} (hb : b ≤ s) (hl : l ≤ e) :
    e - b = l - s ↔ l = e ∧ b = s := by
  omega

/-- **At the end** the logged duration is the talk time only if no time has gone by since the
conversation, and none before it that the record takes for a part of it. -/
lemma loggedDuration_iff (h : Phase now c k) :
    c.loggedDuration now = (k.note now c.state .Idle).time ↔
      (k.note now c.state .Idle).since = none ∨
        (k.note now c.state .Idle).left = some now ∧
          ((k.note now c.state .Idle).straight →
            (k.note now c.state .Idle).born = (k.note now c.state .Idle).since) := by
  cases h with
  | before b hb hst hcount htime hdur =>
      simp [CStateMachine.loggedDuration, hcount, hdur, Talk.note, Talk.time]
  | talking b s straight hb hs hst hcount htime =>
      simp only [CStateMachine.loggedDuration, hcount, Talk.note, Talk.time, htime]
      cases straight with
      | false => simp [IAbstractState.talking]
      | true => simp [IAbstractState.talking]
  | after b s l straight hb hs hl hst hcount htime =>
      simp only [CStateMachine.loggedDuration, hcount, Talk.note, Talk.time, htime]
      cases straight with
      | false => simpa [IAbstractState.talking] using sub_eq_sub_iff_of_le (Int.le_refl s) hl
      | true => simpa [IAbstractState.talking] using sub_eq_sub_iff_of_le hb hl

end Phase

/-! ## What is written -/

namespace CStateMachine

lemma logEntries_duration {now : DateTime} {c : CStateMachine} {en : LogEntry}
    (h : en ∈ c.logEntries now) : en.duration = c.loggedDuration now := by
  rw [logEntries_eq] at h
  by_cases hlog : CCallManager.logged c = true
  · rw [if_pos hlog, List.mem_singleton] at h
    rw [h, loggedDuration]
  · rw [if_neg hlog] at h
    simp at h

end CStateMachine

/-- Whatever destroys the machine, this is the duration it writes. -/
lemma Move.entries_duration {x : Surroundings} {v : Move} {c : CStateMachine} {en : LogEntry}
    (hact : c.state = .Active → c.counting) (h : en ∈ v.entries x c) :
    en.duration = c.loggedDuration x.now := by
  cases v with
  | destroyed | turnedAway => exact CStateMachine.logEntries_duration h
  | terminated =>
      simp only [Move.entries] at h
      split_ifs at h
      · simp at h
      · obtain ⟨-, htime, hdur, hcount⟩ := (c.hungUp x.now).ending_times x .Terminated
        obtain ⟨htime', hcount', hdur'⟩ := c.hungUp_times x.now
        rw [CStateMachine.logEntries_duration h]
        simp only [CStateMachine.loggedDuration, htime, hdur, hcount, htime', hcount']
        by_cases hc : c.counting = true
        · simp [hc]
        · simp [hc, hdur' fun ha => hc (hact ha)]
  | released =>
      simp only [Move.entries] at h
      split_ifs at h
      · simp at h
      · obtain ⟨-, htime, hdur, hcount⟩ := c.ending_times x .Released
        rw [CStateMachine.logEntries_duration h]
        simp only [CStateMachine.loggedDuration, htime, hdur, hcount]
  | _ => simp [Move.entries] at h

namespace CCallManager

variable {m m' : CCallManager} {r s : MachineRef} {v : Move} {b : Books}

/-- What holds of the times of one machine. -/
structure TimedAt (m : CCallManager) (b : Books) (r : MachineRef) : Prop where
  alive : r < m.created → (b.lives r).timesDestroyed = 0 →
    Phase m.around.now (m.machines r) (b.lives r).talk
  silent : (b.lives r).timesDestroyed = 0 → b.entriesOf r = []
  closed : (b.lives r).timesDestroyed ≠ 0 → (b.lives r).talk.born.isSome ∧
    ((b.lives r).talk.since.isSome → (b.lives r).talk.left.isSome) ∧ (b.lives r).destroyedAt.isSome
  logged : ∀ en ∈ b.entriesOf r, (en.duration = (b.lives r).talk.time ↔ (b.lives r).Prompt)

/-- After the end, settling a hold changes nothing. -/
lemma note_idle {k : Talk} (now : DateTime) (hb : k.born.isSome)
    (hl : k.since.isSome → k.left.isSome) : k.note now .Idle .Idle = k := by
  obtain ⟨born, since, straight, left⟩ := k
  obtain ⟨b, rfl⟩ := Option.isSome_iff_exists.mp hb
  cases since with
  | none => rfl
  | some t =>
      obtain ⟨l, rfl⟩ := Option.isSome_iff_exists.mp (hl rfl)
      rfl

/-- A machine is created. -/
lemma TimedAt.creates (hR : Registered m b r) (hT : TimedAt m b r) (h : Makes m m' r v)
    (hcr : v.creates) : TimedAt m' (b.post m.around (r, v)) r := by
  have hnew : b.lives r = [] := hR.fresh (Nat.le_of_eq (h.eq_created hcr).symm)
  have hkeeps : ¬ v.destroys m.around.factory := by
    cases v <;> simp [Move.creates, Move.destroys] at hcr ⊢
  have hzero : ((b.post m.around (r, v)).lives r).timesDestroyed = 0 := by
    rw [Books.post_lives_self, hnew, Life.timesDestroyed_append]
    simp [hkeeps]
  have hsilent : (b.post m.around (r, v)).entriesOf r = [] := by
    rw [Books.post_entriesOf_self, hT.silent (by rw [hnew]; rfl), entries_of_keeps hkeeps]
    rfl
  constructor
  · intro _ _
    rw [h.self, h.around, Books.post_lives_self, hnew, Life.talk_append]
    cases v with
    | announced k =>
        exact .before m.around.now (Int.le_refl _) (by simp [Move.after, CStateMachine.create,
          IAbstractState.talking]) rfl rfl rfl
    | dialled number =>
        exact .before m.around.now (Int.le_refl _) (by simp [Move.after, IAbstractState.talking])
          rfl rfl rfl
    | _ => simp [Move.creates] at hcr
  · exact fun _ => hsilent
  · exact fun hne => absurd hzero hne
  · simp [hsilent]

/-- A machine that was destroyed is left alone. -/
lemma TimedAt.dead (hR : Registered m b r) (hT : TimedAt m b r) (h : Makes m m' r v)
    (hdead : (b.lives r).timesDestroyed ≠ 0) : TimedAt m' (b.post m.around (r, v)) r := by
  obtain rfl := hR.settled_of_dead h hdead
  obtain ⟨hb, hl, hd⟩ := hT.closed hdead
  have hidle : (b.lives r).record.state = .Idle := hR.record ▸ (hR.dead hdead).2.1
  have htalk : (b.lives r ++ [(m.around, Move.settled)]).talk = (b.lives r).talk := by
    rw [Life.talk_append]
    simp only [Move.after, hidle]
    exact note_idle _ hb hl
  have hat : (b.lives r ++ [(m.around, Move.settled)]).destroyedAt = (b.lives r).destroyedAt := by
    rw [Life.destroyedAt_append]
    simp [Move.destroys]
  have htimes : (b.lives r ++ [(m.around, Move.settled)]).timesDestroyed =
      (b.lives r).timesDestroyed := by
    rw [Life.timesDestroyed_append]
    simp [Move.destroys]
  constructor
  · rw [Books.post_lives_self, htimes]
    exact fun _ hzero => absurd hzero hdead
  · rw [Books.post_lives_self, htimes]
    exact fun hzero => absurd hzero hdead
  · rw [Books.post_lives_self, htalk, hat]
    exact fun _ => ⟨hb, hl, hd⟩
  · rw [Books.post_entriesOf_self, Books.post_lives_self, Life.Prompt, htalk, hat]
    simpa [Move.entries, Life.Prompt] using hT.logged

/-- A machine is destroyed. -/
lemma TimedAt.destroys (hR : Registered m b r) (hT : TimedAt m b r)
    (hlt : r < m.created) (hzero : (b.lives r).timesDestroyed = 0)
    (hv : v.destroys m.around.factory) : TimedAt m' (b.post m.around (r, v)) r := by
  have hphase := hT.alive hlt hzero
  have htalk : (b.lives r ++ [(m.around, v)]).talk =
      (b.lives r).talk.note m.around.now (m.machines r).state .Idle := by
    rw [Life.talk_append, (destroys_after hv _).1, hR.record]
  have hat : (b.lives r ++ [(m.around, v)]).destroyedAt = some m.around.now := by
    rw [Life.destroyedAt_append, Life.destroyedAt_of_timesDestroyed hzero]
    simp [hv]
  have htimes : (b.lives r ++ [(m.around, v)]).timesDestroyed ≠ 0 := by
    rw [Life.timesDestroyed_append]
    simp [hv]
  constructor
  · rw [Books.post_lives_self]
    exact fun _ hz => absurd hz htimes
  · rw [Books.post_lives_self]
    exact fun hz => absurd hz htimes
  · rw [Books.post_lives_self, htalk, hat]
    intro _
    generalize (b.lives r).talk = k at hphase
    cases hphase <;> simp [Talk.note, IAbstractState.talking]
  · rw [Books.post_entriesOf_self, Books.post_lives_self, hT.silent hzero, List.nil_append,
      Life.Prompt, htalk, hat, ← hR.record]
    intro en hen
    rw [Move.entries_duration hphase.counting hen]
    exact hphase.loggedDuration_iff

/-- **Every move keeps what holds of the times.** -/
lemma TimedAt.moves (hR : Registered m b r) (hT : TimedAt m b r) (ht : Timely m.created r v)
    (h : Makes m m' r v) : TimedAt m' (b.post m.around (r, v)) r := by
  by_cases hcr : v.creates = true
  · exact hT.creates hR h hcr
  by_cases hzero : (b.lives r).timesDestroyed = 0
  · have hlt := hR.lt_created h ht hcr
    by_cases hv : v.destroys m.around.factory = true
    · exact hT.destroys hR hlt hzero hv
    have hsilent : (b.post m.around (r, v)).entriesOf r = [] := by
      rw [Books.post_entriesOf_self, hT.silent hzero, entries_of_keeps hv]
      rfl
    constructor
    · intro _ _
      rw [h.self, h.around, Books.post_lives_self, Life.talk_append, ← hR.record]
      exact (hT.alive hlt hzero).moves h.enabled hcr hv
    · exact fun _ => hsilent
    · rw [Books.post_lives_self, Life.timesDestroyed_append]
      simp [hzero, hv]
    · simp [hsilent]
  · exact hT.dead hR h hzero

lemma TimedAt.of_ne (hT : TimedAt m b s) (h : Makes m m' r v) (hs : s ≠ r) :
    TimedAt m' (b.post m.around (r, v)) s := by
  have hlt : s < m'.created → s < m.created := by
    rw [h.created]
    split_ifs with hcr
    · exact fun hlt => Nat.lt_of_le_of_ne (Nat.le_of_lt_succ hlt) (h.eq_created hcr ▸ hs)
    · exact id
  constructor
  · rw [Books.post_lives_of_ne hs, h.others hs, h.around]
    exact fun hlt' => hT.alive (hlt hlt')
  · rw [Books.post_lives_of_ne hs, Books.post_entriesOf_of_ne hs]
    exact hT.silent
  · rw [Books.post_lives_of_ne hs]
    exact hT.closed
  · rw [Books.post_lives_of_ne hs, Books.post_entriesOf_of_ne hs]
    exact hT.logged

/-- What a run keeps of the manager and its books. -/
structure Clocked (m : CCallManager) (b : Books) : Prop where
  registered : ∀ r, Registered m b r
  timed : ∀ r, TimedAt m b r

lemma Clocked.make (ht : Timely m.created r v) (h : Makes m m' r v) (hC : Clocked m b) :
    Clocked m' (b.post m.around (r, v)) := by
  refine ⟨registered_make ht h hC.registered, fun s => ?_⟩
  by_cases hs : s = r
  · subst hs
    exact (hC.timed s).moves (hC.registered s) ht h
  · exact (hC.timed s).of_ne h hs

lemma Clocked.congr (hm : m'.machines = m.machines) (hn : m'.created = m.created)
    (hc : ∀ k r, m'.calls.get? k = some r → m.calls.get? k = some r)
    (hnow : m.around.now ≤ m'.around.now) (hC : Clocked m b) : Clocked m' b := by
  refine ⟨fun r => (hC.registered r).congr hm hn fun k => hc k r, fun r => ?_⟩
  have hT := hC.timed r
  refine ⟨?_, hT.silent, hT.closed, hT.logged⟩
  rw [hm, hn]
  exact fun hlt hzero => (hT.alive hlt hzero).later hnow

end CCallManager

namespace Chronicle

open CCallManager

/-- The clock does not go back. -/
def Forward (w : Chronicle) (e : Event) : Prop :=
  ∀ x, e = .surroundings x → w.manager.around.now ≤ x.now

/-- What holds between events while the clock does not go back. -/
structure OnTime (w : Chronicle) : Prop where
  wellFormed : w.manager.WellFormed
  faithful : w.Faithful
  clocked : Clocked w.manager w.books

lemma OnTime.perform {w : Chronicle} (h : w.OnTime) {e : Event} (he : w.Forward e) :
    (w.perform e).OnTime where
  wellFormed := stepWith_wellFormed [] h.wellFormed e
  faithful := h.faithful.perform h.wellFormed e
  clocked := by
    refine perform_rule (K := Clocked) Timely Timely.later ?_ Clocked.make w h.wellFormed
      (movesOf_timely h.wellFormed.cleared e) (fun _ => ?_) (fun x hx => ?_) h.clocked
    · intro m m' b hm hn hc hx hC
      exact hC.congr hm hn (fun k r hk => by rwa [hc] at hk) (Int.le_of_eq (by rw [hx]))
    · refine Clocked.congr (m := w.manager) rfl rfl (fun k r hk => ?_) (Int.le_refl _) h.clocked
      simp at hk
    · exact Clocked.congr (m := w.manager) rfl rfl (fun _ _ hk => hk) (he x hx) h.clocked

lemma initial_onTime (around : Surroundings) : (initial around).OnTime where
  wellFormed := WellFormed.initial around
  faithful := initial_faithful around
  clocked := by
    refine ⟨Registered.initial around, fun r => ⟨fun hlt => ?_, fun _ => rfl,
      fun hne => absurd rfl hne, fun en hen => absurd hen List.not_mem_nil⟩⟩
    exact absurd hlt (Nat.not_lt_zero r)

/-- **When the logged duration is the talk time.**  In every run in which the clock does not go
back, calls being replaced or not, and for every call that is written to the log. -/
theorem logged_duration_iff (around : Surroundings) (events : List Event)
    (h : Along perform Forward (initial around) events) :
    let w := run perform (initial around) events
    w.books.journal.map Prod.snd = w.written ∧
      ∀ r, ∀ en ∈ w.books.entriesOf r,
        (en.duration = (w.books.lives r).talk.time ↔ (w.books.lives r).Prompt) := by
  have hend : (run perform (initial around) events).OnTime :=
    run_of_along (fun _ _ hw he => hw.perform he) (initial_onTime around) h
  exact ⟨hend.faithful.journal, fun r => (hend.clocked.timed r).logged⟩

/-- A call that rings and is answered at the clock reading 10. -/
def answeredAtTen : List Event :=
  [.callStateChanged 1 .SESSION_STATE_INCOMING, .callIncoming 1 "100" "Ann",
    .surroundings { now := 10 }, .onUserAnswer 1]

/-- Shutting down in the middle of the conversation, the duration is right. -/
theorem logged_duration_of_shutdown :
    let w := run perform (initial {}) (answeredAtTen ++ [.surroundings { now := 25 }, .Shutdown])
    (∀ en ∈ w.books.entriesOf 0, en.duration = (w.books.lives 0).talk.time) ∧
      (w.books.entriesOf 0).map LogEntry.duration = [15] := by
  have hforward : Along perform Forward (initial {})
      (answeredAtTen ++ [.surroundings { now := 25 }, .Shutdown]) := by
    refine ⟨by simp [Forward], by simp [Forward], ?_, by simp [Forward], ?_, by simp [Forward],
      trivial⟩
    · rintro x ⟨⟩
      decide +kernel
    · rintro x ⟨⟩
      decide +kernel
  exact ⟨fun en hen => ((logged_duration_iff {} _ hforward).2 0 en hen).mpr (by decide +kernel),
    by decide +kernel⟩

/-- **The far end hangs up**: ten ticks of talk, and fifteen in the log, since the release timer ran
for five. -/
theorem logged_duration_after_release :
    let w := run perform (initial {}) (answeredAtTen ++ [.surroundings { now := 20 },
      .callStateChanged 1 .SESSION_STATE_DISCONNECTED, .surroundings { now := 25 },
      .timerElapsed 0 .ERELEASED])
    (w.books.lives 0).talk.time = 10 ∧ w.written.map LogEntry.duration = [15] := by
  decide +kernel

end Chronicle

end TAM
