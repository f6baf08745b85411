import AnsweringMachine.CallControl.Courses
import AnsweringMachine.CallControl.Subscriber
import AnsweringMachine.CallControl.UnderWay

/-!
# What happens to a call after its end

**To its machine.**  A machine that is released or terminated reacts to nothing but what destroys
it, and a destroyed machine is out of the table and out of reach (`Onward`, which every step keeps).

**Under its id.**  After the report of an end, the next reports under the same id are of ends too,
until the removal of the call is reported (`endings_lawful`).

**Behind requests.**  What is left of an operation when its request returns was decided before the
request.  `accepted` goes to `ACTIVE` and `endedHeld` to `TERMINATED` in whatever state the machine
is by then, so both are steps of this kind only if the call has not ended inside the request
(`Frame.Undisturbed`, `Frame.resume`).  Every other frame is, whatever has been reported inside.

None of this needs the stack to use ids in any particular order.
-/

namespace TAM

/-! ## The order of reports -/

/-- The ids under which the last report that counts was of an end. -/
abbrev Closing := CallId → Bool

/-- Take a notification; that a call rings or is connected must not be reported under such an id. -/
def Closing.hear : Option Closing → Notification → Option Closing
  | none, _ => none
  | some q, .IncomingCallNotification _ _ _ => some q
  | some q, .CallStateRefresh k st =>
      match st with
      | .RELEASED | .TERMINATED | .IDLE => some (Function.update q k true)
      | .NULL => some (Function.update q k false)
      | .ACTIVE | .INCOMING => if q k then none else some q
      | .CONNECTING | .ALERTING | .HOLDING => some q

/-- A subscriber that attends to the order of reports: under such an id the table has a call that
waits to be destroyed. -/
def endings : Subscriber (Option Closing) where
  notify := Closing.hear
  agrees v x := ∃ q : Closing, x = some q ∧
    ∀ k, q k = true → ∃ st, v k = some st ∧ CCallManager.Ending st

section Endings

variable {view : View} {q : Closing} {k : CallId} {st : IAbstractState}

/-- A call that does not wait to be destroyed. -/
lemma not_closing (hq : ∀ k, q k = true → ∃ st, view k = some st ∧ CCallManager.Ending st)
    (hk : ∀ st, view k = some st → ¬ CCallManager.Ending st) : q k = false := by
  by_contra hne
  obtain ⟨st, hst, hend⟩ := hq k (by simpa using hne)
  exact hk st hst hend

lemma not_closing_of_idle
    (hq : ∀ k, q k = true → ∃ st, view k = some st ∧ CCallManager.Ending st)
    (hk : view k = some .Idle) : q k = false :=
  not_closing hq fun st hst => by
    rw [hk, Option.some.injEq] at hst
    simp [← hst, CCallManager.Ending]

/-- A change of one call. -/
lemma closing_update (hq : ∀ k, q k = true → ∃ st, view k = some st ∧ CCallManager.Ending st)
    {x : Option IAbstractState} {b : Bool} (hx : b = true → ∃ st, x = some st ∧
      CCallManager.Ending st) (j : CallId) (hj : Function.update q k b j = true) :
    ∃ st, Function.update view k x j = some st ∧ CCallManager.Ending st := by
  by_cases hjk : j = k
  · subst hjk
    rw [Function.update_self] at hj ⊢
    exact hx hj
  · rw [Function.update_of_ne hjk] at hj ⊢
    exact hq j hj

/-- A change of a call that does not wait to be destroyed, without a report that counts. -/
lemma closing_unseen (hq : ∀ k, q k = true → ∃ st, view k = some st ∧ CCallManager.Ending st)
    (hk : q k = false) (x : Option IAbstractState) (j : CallId) (hj : q j = true) :
    ∃ st, Function.update view k x j = some st ∧ CCallManager.Ending st := by
  refine closing_update (k := k) (b := false) hq (by simp) j ?_
  rwa [← hk, Function.update_eq_self]

/-- What is heard to the end is heard at once. -/
lemma heard {x : Option Closing} {l : List Notification}
    (h : endings.agrees view (l.foldl Closing.hear x)) : ∃ q, x = some q := by
  cases x with
  | some q => exact ⟨q, rfl⟩
  | none =>
      have hnone : l.foldl Closing.hear none = none := by
        induction l with
        | nil => rfl
        | cons n l ih => exact ih (by simpa [Closing.hear] using h)
      rw [hnone] at h
      obtain ⟨q, hq, -⟩ := h
      exact absurd hq (by simp)

/-- **After the end of a call, nothing but its end is reported under its id**, until it is
removed. -/
lemma endings_lawful : endings.Lawful where
  report := by
    rintro view k st o _ hk hmove ⟨q, rfl, hq⟩
    have hopen : ¬ CCallManager.Ending st → q k = false := fun hn =>
      not_closing hq fun st' hst' => by
        rw [hk, Option.some.injEq] at hst'
        rwa [← hst']
    cases o with
    | stay =>
        have hsame : Function.update view k (some st) = view := by
          rw [← hk, Function.update_eq_self]
        exact ⟨q, rfl, by simpa [Outcome.result, Outcome.state, hsame] using hq⟩
    | gone =>
        refine ⟨Function.update q k false, ?_, closing_update hq (by simp)⟩
        simp [Outcome.report, endings, Closing.hear]
    | goto st' =>
        -- only a call that does not wait to be destroyed goes anywhere
        have hne : ¬ CCallManager.Ending st := by
          rintro (rfl | rfl) <;> cases st' <;> exact hmove
        have hclosed := hopen hne
        by_cases hend : CCallManager.Ending st'
        · refine ⟨Function.update q k true, ?_, closing_update hq fun _ => ⟨st', rfl, hend⟩⟩
          rcases hend with rfl | rfl <;> rfl
        · have hidle : st' ≠ .Idle := by
            rintro rfl
            cases st <;> exact hmove
          refine ⟨Function.update q k false, ?_, closing_update hq (by simp)⟩
          have hsame : Function.update q k false = q := by rw [← hclosed, Function.update_eq_self]
          cases st' <;> simp_all [Outcome.report, endings, Closing.hear, IAbstractState.id,
            CCallManager.Ending]
  disappears := by
    rintro view k _ hk ⟨q, rfl, hq⟩
    exact ⟨q, rfl, closing_unseen hq (not_closing_of_idle hq hk) none⟩

end Endings

namespace CCallManager

variable {m : CCallManager} {r : MachineRef} {k : CallId}

/-- A listed machine is destroyed, in whatever state it is. -/
lemma Answerer.destroy (h : m.Answerer) (hk : m.calls.get? k = some r) :
    Step endings m (m.destroy r) := by
  have he := destroy_effect m r
  refine ⟨h.effect hk he (by simp), ⟨_, (h.wellFormed.listed hk).destroy_reports, ?_⟩,
    .effect h.wellFormed hk he (fun _ => .inr rfl) (by simp)⟩
  rintro _ ⟨q, rfl, hq⟩
  rw [h.wellFormed.view_effect hk he]
  exact ⟨Function.update q k false, by simp [endings, Closing.hear], closing_update hq (by simp)⟩

lemma Answerer.destroyAll (h : m.Answerer) (rs : List (CallId × MachineRef))
    (hrs : ∀ e ∈ rs, m.calls.get? e.1 = some e.2) (hnodup : (rs.map Prod.fst).Nodup) :
    Step endings m ((rs.map Prod.snd).foldl CCallManager.destroy m) := by
  induction rs generalizing m with
  | nil => exact h.stays
  | cons e rs ih =>
      obtain ⟨k, r⟩ := e
      have hk : m.calls.get? k = some r := hrs (k, r) (by simp)
      simp only [List.map_cons, List.nodup_cons] at hnodup
      have hstep := h.destroy hk
      refine hstep.trans (ih hstep.answerer ?_ hnodup.2)
      intro e he
      have hne : e.1 ≠ k := fun h => hnodup.1 (h ▸ List.mem_map_of_mem he)
      rw [(destroy_effect m r).calls, h.wellFormed.session k r hk, Outcome.gone_table,
        Dictionary.get?_remove, if_neg hne]
      exact hrs e (by simp [he])

/-- **Shutting down reports the end of every call.** -/
lemma Answerer.shutdown (h : m.Answerer) : Step endings m m.Shutdown := by
  have hall := h.destroyAll _ (fun _ he => Dictionary.mem_entries.mp he) m.calls.entries_keys_nodup
  have hempty := destroyAll_empty h.wellFormed
  refine hall.trans ⟨⟨?_, hall.answerer.timers, hall.answerer.taking, fun x hx => ?_,
    hall.answerer.pending⟩, .silent (Reports.refl _) ?_,
    .of_same rfl (fun j => (hempty j).symm) (fun _ => rfl) fun _ => rfl⟩
  · constructor <;> intro j x hj <;> simp [CCallManager.Shutdown] at hj
  · obtain ⟨j, hj⟩ := hall.answerer.busy x hx
    rw [hempty j] at hj
    simp at hj
  · funext j
    rw [view_of_absent (hempty j)]
    rfl

/-! ## Behind requests -/

variable {m' m'' : CCallManager} {o : Outcome} {f : Frame} {fs : List Frame}

/-- A step inside a request: the table does not get calls. -/
structure Within (m m' : CCallManager) : Prop extends Step endings m m' where
  listed : ∀ {k r}, m'.calls.get? k = some r → m.calls.get? k = some r

lemma Within.trans (h : Within m m') (h' : Within m' m'') : Within m m'' :=
  ⟨h.toStep.trans h'.toStep, fun hk => h.listed (h'.listed hk)⟩

lemma Answerer.within (h : m.Answerer) : Within m m := ⟨h.stays, id⟩

/-- A listed machine moves, and reports it. -/
lemma Within.moved (h : m.Answerer) (hk : m.calls.get? k = some r) (he : Effect m m' r o)
    (hrep : Reports m m' (o.report k)) (hmove : Moves (m.machines r).state o) : Within m m' :=
  ⟨h.moved endings_lawful hk he hrep hmove, he.listed_before⟩

/-- The machine stays where it is. -/
lemma Within.stayed (h : m.Answerer) (he : Effect m m' r .stay) (hrep : Reports m m' []) :
    Within m m' :=
  ⟨h.remains he rfl (fun _ => by rw [he.calls]; simp) hrep, he.listed_before⟩

/-- What the frames on the stack rely on.  A state change that reports its end reports no idle call;
a call that is to be destroyed waits for it, or was destroyed inside the request. -/
def Frame.Sound (m : CCallManager) : Frame → Prop
  | .informed r => r < m.created ∧
      ∀ k, (m.machines r).session = some k → m.view k ≠ some .Idle
  | .endedReleased r => r < m.created ∧ ((m.machines r).state = .Released ∨
      (m.machines r).state = .Idle ∧ ∀ k, (m.machines r).session = some k → m.calls.get? k = none)
  | .queued _ p => ∃ s, p = .EUserAnswer s
  | _ => True

/-- What has been put out does not matter to a frame. -/
lemma Frame.Sound.cleared (h : f.Sound m) : f.Sound { m with out := [] } := by
  cases f <;> exact h

/-- **Steps inside requests keep what the frames below rely on.** -/
lemma Frame.Sound.within (h : f.Sound m) (hm : m.Answerer) (hw : Within m m') : f.Sound m' := by
  cases f with
  | informed r =>
      obtain ⟨hr, hview⟩ := h
      refine ⟨hr.trans_le hw.onward.created, fun k hk hidle => ?_⟩
      rw [hw.onward.session r hr] at hk
      obtain ⟨x, hx, hst⟩ := view_eq_some hidle
      have hx' := hw.listed hx
      refine hview k hk ?_
      by_contra hne
      rw [view_of_listed hx', Option.some.injEq] at hne
      exact (hw.onward.idle x (hm.wellFormed.created k x hx') hne hst).2 k hx
  | endedReleased r =>
      obtain ⟨hr, hst⟩ := h
      refine ⟨hr.trans_le hw.onward.created, ?_⟩
      rw [hw.onward.session r hr]
      rcases hst with hst | ⟨hidle, habsent⟩
      · rcases hw.onward.ending r hr (.inl hst) with hsame | hidle
        · exact .inl (hsame.trans hst)
        · have hgone := hw.onward.idle r hr (by simp [hst]) hidle
          obtain ⟨j, hj⟩ := hm.busy r (by simp [hst])
          refine .inr ⟨hidle, fun k hk => ?_⟩
          rw [hm.wellFormed.session j r hj, Option.some.injEq] at hk
          subst hk
          rw [Option.eq_none_iff_forall_not_mem]
          intro x hx
          have hxr := (hw.listed hx).symm.trans hj
          rw [Option.some.injEq] at hxr
          exact hgone.2 j (hxr ▸ hx)
      · have hgone : m.Gone r := ⟨hidle, fun k hk => by
          rw [habsent k (hm.wellFormed.session k r hk)] at hk
          simp at hk⟩
        refine .inr ⟨(hw.onward.gone r hr hgone).1, fun k hk => ?_⟩
        rw [Option.eq_none_iff_forall_not_mem]
        intro x hx
        have hx' := hw.listed hx
        rw [habsent k hk] at hx'
        simp at hx'
  | queued r p => exact h
  | _ => trivial

/-- The state of a call is reported that is not idle. -/
lemma Answerer.updateGui (h : m.Answerer) (hk : m.view k ≠ some .Idle) :
    Within m (m.updateGui k) := by
  refine ⟨⟨h.raise _, ⟨[.CallStateRefresh k (m.stateIdOf k)],
    by simp [Reports, CCallManager.updateGui],
    ?_⟩, .of_same rfl (fun _ => rfl) (fun _ => rfl) fun _ => rfl⟩, id⟩
  rintro _ ⟨q, rfl, hq⟩
  cases hc : m.calls.get? k with
  | none =>
      have hout : m.view k = none := view_of_absent hc
      refine ⟨Function.update q k false, by simp [endings, Closing.hear, stateIdOf, hc], ?_⟩
      intro j hj
      by_cases hjk : j = k
      · subst hjk; simp at hj
      · rw [Function.update_of_ne hjk] at hj
        exact hq j hj
  | some r =>
      have hv := view_of_listed hc
      by_cases hend : Ending (m.machines r).state
      · refine ⟨Function.update q k true, ?_, ?_⟩
        · rcases hend with hst | hst <;>
            simp [endings, Closing.hear, stateIdOf, hc, hst, IAbstractState.id]
        · intro j hj
          by_cases hjk : j = k
          · subst hjk
            exact ⟨_, hv, hend⟩
          · rw [Function.update_of_ne hjk] at hj
            exact hq j hj
      · have hopen : q k = false := not_closing hq fun st hst => by
          rw [hv, Option.some.injEq] at hst
          rwa [← hst]
        refine ⟨q, ?_, hq⟩
        cases hst : (m.machines r).state <;>
          simp_all [endings, Closing.hear, stateIdOf, IAbstractState.id, Ending]

/-- A state change reports its end, for a call that is not idle. -/
lemma Answerer.informManager (h : m.Answerer)
    (hr : ∀ k, (m.machines r).session = some k → m.view k ≠ some .Idle) :
    Within m (m.informManager r) := by
  simp only [CCallManager.informManager]
  split
  · exact h.within
  · rename_i k hk
    split_ifs
    · exact h.within
    · exact h.updateGui (hr k hk)

/-- A session that is not in the table is destroyed: its removal is reported, and nothing
changes. -/
lemma Answerer.destroySession_absent (h : m.Answerer) (hidle : (m.machines r).state = .Idle)
    (habsent : ∀ k, (m.machines r).session = some k → m.calls.get? k = none) :
    Within m (m.destroySession (m.machines r).session) := by
  have he := destroySession_effect m r hidle
  refine ⟨h.remains he hidle.symm (fun j => ?_) ?_, he.listed_before⟩
  · rw [he.calls]
    cases hk : (m.machines r).session with
    | none => rfl
    | some k =>
        rw [Outcome.gone_table, Dictionary.get?_remove]
        split_ifs with hjk
        · rw [hjk, habsent k hk]
        · rfl
  · cases hk : (m.machines r).session with
    | none => exact Reports.refl _
    | some k => simp [destroySession, habsent k hk, Reports]

/-- A call that was destroyed inside the request is destroyed again. -/
lemma Answerer.destroy_again (h : m.Answerer) (hidle : (m.machines r).state = .Idle)
    (habsent : ∀ k, (m.machines r).session = some k → m.calls.get? k = none) :
    Within m (m.destroy r) := by
  -- up to the report of the state change
  set m₁ := ((m.closing r).modify r CStateMachine.onExit).modify r
    (fun c => { c with state := .Idle })
  have he : Effect m m₁ r (.goto .Idle) := (moved_effect _ r .Idle).after (closing_effect m r)
  have hcalls : ∀ k, m₁.calls.get? k = m.calls.get? k := fun k => by rw [he.calls]; simp
  have h₁ : Within m m₁ :=
    ⟨h.remains he hidle.symm hcalls (closing_reports m r), he.listed_before⟩
  have habsent₁ : ∀ k, (m₁.machines r).session = some k → m₁.calls.get? k = none := fun k hk => by
    rw [hcalls]
    exact habsent k (by rw [← he.session]; exact hk)
  have hentry : m₁.modify r (fun c => c.onEntry .Idle) = m₁ := modify_eq_self rfl
  have hmid : (m.closing r).changeStatePlain r .Idle = m₁.informManager r := by
    rw [← hentry]
    rfl
  -- its report, and the table
  have h₂ := h₁.answerer.informManager (r := r) fun k hk => by simp [view_of_absent (habsent₁ k hk)]
  have he₂ := informManager_effect m₁ r
  have hidle₂ : ((m₁.informManager r).machines r).state = .Idle := by
    rw [he₂.state, Outcome.stay_state, he.state]
    rfl
  have hdestroy : m.destroy r =
      (m₁.informManager r).destroySession ((m₁.informManager r).machines r).session := by
    rw [← hmid]
    rfl
  rw [hdestroy]
  refine (h₁.trans h₂).trans (h₂.answerer.destroySession_absent hidle₂ fun k hk => ?_)
  rw [he₂.calls, Outcome.stay_table]
  exact habsent₁ k (by rw [← he₂.session]; exact hk)

/-- A piece of an operation: a step inside a request that leaves sound frames. -/
structure Begins (m : CCallManager) (s : CCallManager × List Frame) : Prop where
  within : Within m s.1
  sound : ∀ f ∈ s.2, f.Sound s.1

lemma Answerer.begins (h : m.Answerer) : Begins m (m, []) := ⟨h.within, by simp⟩

lemma Begins.after {s : CCallManager × List Frame} (h' : Begins m' s) (h : Within m m') :
    Begins m s :=
  ⟨h.trans h'.within, h'.sound⟩

/-- The code behind what was begun lies below its frames. -/
lemma Begins.append {s : CCallManager × List Frame} (h : Begins m s) (hf : f.Sound s.1) :
    Begins m (s.1, s.2 ++ [f]) := by
  refine ⟨h.within, fun g hg => ?_⟩
  rcases List.mem_append.mp hg with hg | hg
  · exact h.sound g hg
  · rw [List.mem_singleton.mp hg]
    exact hf

/-- The requests behind which an operation changes the state of its machine whatever it has become:
the machine is still in the state in which the request was made. -/
def Frame.Undisturbed (m : CCallManager) : Frame → Prop
  | .accepted r => (m.machines r).state = .Incoming
  | .endedHeld r => (m.machines r).state = .Holding
  | _ => True

instance (m : CCallManager) (f : Frame) : Decidable (f.Undisturbed m) := by
  cases f <;> simp only [Frame.Undisturbed] <;> infer_instance

/-- **A request returns.** -/
lemma Answerer.resume (h : m.Answerer) (hs : f.Sound m) (hu : f.Undisturbed m) :
    Begins m (m.resume f) := by
  cases f with
  | alerted r =>
      have hring : Within m (m.ringOn r) := by
        refine .stayed h (ringOn_effect m r) ?_
        simp only [ringOn]
        split_ifs <;> exact Reports.refl m
      simp only [CCallManager.resume]
      split_ifs
      · refine ⟨hring.trans (.stayed hring.answerer (sendAccept_effect _ r)
          (request_reports _ r _)), ?_⟩
        simp [sendAccept, Frame.Sound]
      · exact ⟨hring, by simp⟩
  | accepted r =>
      have hst : (m.machines r).state = .Incoming := hu
      obtain ⟨k, hk⟩ := h.busy r (by simp [hst])
      exact ⟨.moved h hk (changeStatePlain_effect m r .Active)
        ((h.wellFormed.listed hk).changeStatePlain_reports .Active) (by rw [hst]; trivial),
        by simp [CCallManager.resume]⟩
  | informed r => exact ⟨h.informManager hs.2, by simp [CCallManager.resume]⟩
  | delivered r k number info =>
      refine ⟨?_, by simp [CCallManager.resume]⟩
      simp only [CCallManager.resume]
      split_ifs
      · exact h.within
      · refine ⟨⟨h.raise _, ⟨[.IncomingCallNotification k number info], by simp [Reports], ?_⟩,
          .of_same rfl (fun _ => rfl) (fun _ => rfl) fun _ => rfl⟩, id⟩
        rintro _ ⟨q, rfl, hq⟩
        exact ⟨q, rfl, hq⟩
  | endedHeld r =>
      have hst : (m.machines r).state = .Holding := hu
      obtain ⟨k, hk⟩ := h.busy r (by simp [hst])
      have he := changeStateEnding_effect m r .Terminated
      rw [ending, if_pos h.timers] at he
      exact ⟨.moved h hk he
        ((h.wellFormed.listed hk).changeStateEnding_reports h.timers .Terminated)
        (by rw [hst]; trivial), by simp [CCallManager.resume]⟩
  | endedReleased r =>
      refine ⟨?_, by simp [CCallManager.resume]⟩
      rcases hs.2 with hst | ⟨hidle, habsent⟩
      · obtain ⟨k, hk⟩ := h.busy r (by simp [hst])
        exact .moved h hk (destroy_effect m r) (h.wellFormed.listed hk).destroy_reports
          (by rw [hst]; trivial)
      · exact h.destroy_again hidle habsent
  | queued r p =>
      refine ⟨⟨h.unnoticed (h.wellFormed.pend _) rfl rfl (fun _ => rfl) (fun _ => rfl)
        (fun _ => rfl) (fun q hq => ?_) (Reports.refl m), id⟩, by simp [CCallManager.resume]⟩
      obtain ⟨s, rfl⟩ := hs
      exact ⟨s, (Option.some.inj hq).symm⟩
  | activated r => exact ⟨⟨h.settle r none (.inl rfl), id⟩, by simp [CCallManager.resume]⟩

/-! ### Up to the first request -/

/-- An idle call leaves that state, and nobody is told. -/
lemma Within.of_idle (h : m.Answerer) (hk : m.calls.get? k = some r)
    (hidle : (m.machines r).state = .Idle) (he : Effect m m' r o)
    (ho : ∀ st, o = .goto st → st ≠ .Connecting ∧ st ≠ .Alerting ∧ st ≠ .Idle)
    (hrep : Reports m m' []) : Within m m' := by
  refine ⟨⟨h.effect hk he fun st hst => ⟨(ho st hst).1, (ho st hst).2.1⟩, ⟨[], hrep, ?_⟩,
    .effect h.wellFormed hk he (fun hend => absurd hidle hend.ne_idle)
      fun hgoto => (ho _ hgoto).2.2 rfl⟩, he.listed_before⟩
  rintro _ ⟨q, rfl, hq⟩
  rw [h.wellFormed.view_effect hk he]
  have hv : m.view k = some .Idle := by rw [view_of_listed hk, hidle]
  exact ⟨q, rfl, closing_unseen hq (not_closing_of_idle hq hv) _⟩

lemma Answerer.beginAcceptCall (h : m.Answerer) (r : MachineRef) :
    Begins m (m.beginAcceptCall r) := by
  simp only [CCallManager.beginAcceptCall]
  split
  · exact ⟨.stayed h (sendAccept_effect m r) (request_reports _ r _), by
      simp [sendAccept, Frame.Sound]⟩
  · exact h.begins

lemma Answerer.beginEndCall (h : m.Answerer) (hk : m.calls.get? k = some r) :
    Begins m (m.beginEndCall r) := by
  have hreq : Within m (m.request r .endCall) :=
    .stayed h (request_effect m r _) (request_reports m r _)
  simp only [CCallManager.beginEndCall]
  split
  · exact ⟨hreq, by simp [Frame.Sound]⟩
  · rename_i hst
    refine ⟨hreq, ?_⟩
    simp only [List.mem_singleton, forall_eq]
    exact ⟨h.wellFormed.created k r hk, .inl hst⟩
  · exact ⟨.moved h hk (endCall_effect m r) ((h.wellFormed.listed hk).endCall_reports h.timers)
      (moves_react h.timers (h.taking r) .endCall), by simp⟩

lemma Answerer.beginOnUserAnswer (h : m.Answerer) (j : CallId) :
    Begins m (m.beginOnUserAnswer j) := by
  simp only [CCallManager.beginOnUserAnswer]
  split
  · rename_i sm _ _
    refine ⟨⟨h.unnoticed (h.wellFormed.holdCall sm)
      (by simp) (by simp) (by simp) (by simp) (by simp)
      (by simpa using h.pending) ?_, by simp⟩, by simp [Frame.Sound]⟩
    by_cases hact : (m.machines sm).state = .Active
    · simp [Reports, holdCall_of_active hact]
    · simp [Reports, holdCall_of_ne_active hact]
  · split
    · exact h.begins
    · exact h.beginAcceptCall _

/-- **A report on a session**, other than that it is new. -/
lemma Answerer.report (h : m.Answerer) (k : CallId) {st : ESessionState}
    (hst : st ≠ .SESSION_STATE_INCOMING) : Within m (m.onCallStateChanged k st) := by
  have hw := h.wellFormed
  cases hk : m.calls.get? k with
  | none =>
      have hsame : m.onCallStateChanged k st = m := by
        cases st <;> simp_all [onCallStateChanged]
      rw [hsame]
      exact h.within
  | some r =>
      cases st with
      | SESSION_STATE_INCOMING => exact absurd rfl hst
      | SESSION_STATE_EARLY =>
          simp only [onCallStateChanged, hk]
          exact .moved h hk (onAlerting_effect m r) (hw.listed hk).onAlerting_reports
            (moves_react h.timers (h.taking r) .onAlerting)
      | SESSION_STATE_CONNECTING =>
          simp only [onCallStateChanged, hk]
          exact .moved h hk (onConnect_effect m r) (hw.listed hk).onConnect_reports
            (moves_react h.timers (h.taking r) .onConnect)
      | SESSION_STATE_DISCONNECTED =>
          simp only [onCallStateChanged, hk]
          exact .moved h hk (onReleased_effect m r) ((hw.listed hk).onReleased_reports h.timers)
            (moves_react h.timers (h.taking r) .onReleased)
      | _ =>
          simp only [onCallStateChanged, hk]
          exact h.within

/-- **The confirmation of a hold.** -/
lemma Answerer.beginHoldConfirm (h : m.Answerer) (k : CallId) :
    Begins m (m.beginHoldConfirm k) := by
  simp only [CCallManager.beginHoldConfirm]
  split
  · exact h.begins
  rename_i r hk
  split
  · rename_i hst
    split_ifs
    · have hheld : Within m (m.changeStatePlain r .Holding) :=
        .moved h hk (changeStatePlain_effect m r .Holding)
          ((h.wellFormed.listed hk).changeStatePlain_reports .Holding) (by rw [hst]; trivial)
      -- what waits is an answer
      split
      · exact (hheld.answerer.begins.after hheld).append trivial
      · rename_i p hp
        obtain ⟨j, rfl⟩ := hheld.answerer.pending p hp
        exact ((hheld.answerer.beginOnUserAnswer j).after hheld).append trivial
    · exact ⟨⟨h.settle r m.pendingAction (.inr rfl), id⟩, by simp⟩
  · exact h.begins

/-- **The delivery of a caller.** -/
lemma Answerer.beginOnIncomingCall (h : m.Answerer) (k : CallId) (number info : String) :
    Begins m (m.beginOnIncomingCall k number info) := by
  simp only [CCallManager.beginOnIncomingCall]
  split
  · exact h.begins
  rename_i r hk
  have hl := h.wellFormed.listed hk
  suffices hcall : Begins m (m.beginIncomingCall r number info) from hcall.append trivial
  simp only [CCallManager.beginIncomingCall]
  split
  · rename_i hidle
    have haway : ∀ code dest, Begins m (m.turnAway r code dest, []) := fun code dest =>
      ⟨.of_idle h hk hidle (turnAway_effect m r hidle code dest) (by simp)
        (hl.turnAway_reports hidle code dest).1, by simp⟩
    split_ifs
    · exact haway _ _
    · exact haway _ _
    · have he := callerRinging_effect m r number info
      refine ⟨.of_idle h hk hidle he (by simp +contextual) (request_reports _ r _), ?_⟩
      simp only [beginRinging, List.mem_cons, List.not_mem_nil, or_false]
      rintro f (rfl | rfl)
      · trivial
      · refine ⟨h.wellFormed.created k r hk, fun j hj => ?_⟩
        have hjk : j = k := Option.some.inj (hj.symm.trans (he.session.trans hl.session))
        have hview := congrFun (h.wellFormed.view_effect hk he) j
        rw [hjk, Function.update_self] at hview
        rw [hjk]
        exact fun hidle' => absurd (hview.symm.trans hidle')
          (by simp [Outcome.result, Outcome.state])
  · exact h.begins

/-- A new call. -/
lemma Answerer.beginOnIncomingState (h : m.Answerer) (k : CallId) :
    Step endings m (m.beginOnIncomingState k).1 ∧
      ∀ f ∈ (m.beginOnIncomingState k).2, f.Sound (m.beginOnIncomingState k).1 := by
  simp only [CCallManager.beginOnIncomingState]
  split
  · rename_i old hk
    have hann : Step endings m (m.announced k) := h.announced k
    have hend := hann.answerer.beginEndCall (k := k) (r := old) hk
    exact ⟨hann.trans hend.within.toStep, hend.sound⟩
  · refine ⟨h.incoming endings_lawful k ?_, by simp⟩
    rintro _ hnone ⟨q, rfl, hq⟩
    exact ⟨q, rfl, closing_unseen hq (not_closing hq (by simp [hnone])) _⟩

/-- **A report inside a request.** -/
lemma Answerer.beginReport (h : m.Answerer) {e : Event} (he : e.reportsOn k) :
    Begins m (m.begin e) := by
  cases e with
  | callStateChanged j st =>
      have hst : st ≠ .SESSION_STATE_INCOMING := by
        simp only [Event.reportsOn, decide_eq_true_eq] at he
        exact he.2
      have hbegin : m.begin (.callStateChanged j st) = (m.onCallStateChanged j st, []) := by
        cases st <;> first | rfl | exact absurd rfl hst
      rw [hbegin]
      exact ⟨h.report j hst, by simp⟩
  | holdConfirm j => exact h.beginHoldConfirm j
  | _ => simp [Event.reportsOn] at he

/-- **Every operation of an answering machine begins so.** -/
lemma Answerer.begin (h : m.Answerer) {e : Event} (he : e.answering ∨ e = .Shutdown) :
    Step endings m (m.begin e).1 ∧ ∀ f ∈ (m.begin e).2, f.Sound (m.begin e).1 := by
  have hinside {s : CCallManager × List Frame} (hs : Begins m s) :
      Step endings m s.1 ∧ ∀ f ∈ s.2, f.Sound s.1 := ⟨hs.within.toStep, hs.sound⟩
  have hwhole (e : Event) (he : e.answering)
      (hk : ∀ k, e ≠ .callStateChanged k .SESSION_STATE_INCOMING)
      (hc : ∀ k number info, e ≠ .callIncoming k number info) : Step endings m (m.handle [] e) :=
    h.handle endings_lawful he (fun k _ heq => absurd heq (hk k))
      fun k number info heq => absurd heq (hc k number info)
  rcases he with he | rfl
  · cases e with
    | onUserRelease j =>
        simp only [CCallManager.begin, beginOnUserRelease]
        split
        · exact ⟨h.stays, by simp⟩
        · rename_i r hk
          exact hinside (h.beginEndCall hk)
    | onUserAnswer j => exact hinside (h.beginOnUserAnswer j)
    | callStateChanged k st =>
        by_cases hst : st = .SESSION_STATE_INCOMING
        · rw [hst]
          exact h.beginOnIncomingState k
        · exact hinside (h.beginReport (k := k) (by simp [Event.reportsOn, hst]))
    | callIncoming k number info => exact hinside (h.beginOnIncomingCall k number info)
    | holdConfirm k => exact hinside (h.beginHoldConfirm k)
    | timerElapsed r t =>
        exact ⟨hwhole (.timerElapsed r t) rfl (by simp) (by simp), by simp [CCallManager.begin]⟩
    | surroundings a =>
        exact ⟨hwhole (.surroundings a) rfl (by simp) (by simp), by simp [CCallManager.begin]⟩
    | _ => simp [Event.answering] at he
  · exact ⟨h.shutdown, by simp [CCallManager.begin]⟩

end CCallManager

end TAM
