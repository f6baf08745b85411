import AnsweringMachine.Application.Provider
import AnsweringMachine.CallControl.Subscriber

/-!
# What the application knows of the calls

The provider is a subscriber of the manager, and nothing else keeps its calls in step with the call
table.  `CallState.fits` says under which state a call should be known.  A call that was answered
automatically is the exception: its reports come before the application knows it, so it is entered
as ringing; whether that is counted as fitting is the parameter `auto`.

The notifications of one operation are handled one after the other, and the rest of the application
runs in between, so it matters that each of them comes at a moment when it makes sense.  A
`Listening` application notices when one does not (`hear`): a new call under a known id, an answer
of a call that has ended, an end that is not completed by the removal of the call.

`Tracked.step` is the result: for a stack that uses ids as it should (`Stage`), every event of the
manager is heard without objection, and what is known fits the table afterwards.
-/

namespace TAM

/-! ## What should be known -/

/-- Is this the state under which a call should be known? -/
def CallState.fits (auto : Bool) : Option IAbstractState → Option CallState → Bool
  | none, none | some .Idle, none => true
  | some .Incoming, some .Ringing => true
  | some .Active, some .Connected | some .Holding, some .Connected => true
  | some .Active, some .Ringing | some .Holding, some .Ringing => auto
  | some .Released, some .HangUp | some .Terminated, some .Disconnected => true
  | _, _ => false

/-- An application that listens: what it knows, and the id of the call whose end was reported and
whose removal has to be the next notification. -/
structure Listening where
  known : Knowledge
  ending : Option CallId

namespace Listening

/-- Does the notification make sense now? -/
def accepts (a : Listening) : Notification → Bool
  | .CallStateRefresh k .NULL => a.ending = some k
  | .CallStateRefresh k .ACTIVE | .CallStateRefresh k .INCOMING =>
      a.ending = none ∧ ∀ x ∈ a.known k, x.ended = false
  | .CallStateRefresh _ _ => a.ending = none
  | .IncomingCallNotification k _ _ => a.ending = none ∧ a.known k = none

/-- The id whose removal has to follow. -/
def endingAfter : Notification → Option CallId
  | .CallStateRefresh k .IDLE => some k
  | _ => none

lemma eq_of_endingAfter {n : Notification} {k : CallId} (h : endingAfter n = some k) :
    n = .CallStateRefresh k .IDLE := by
  simp only [endingAfter] at h
  split at h
  · rw [Option.some.inj h]
  · simp at h

/-- Take a notification, if it makes sense. -/
def hear (x : Option Listening) (n : Notification) : Option Listening :=
  match x with
  | none => none
  | some a => if a.accepts n then some ⟨a.known.notify n, endingAfter n⟩ else none

lemma hear_of_accepts {a : Listening} {n : Notification} (h : a.accepts n) :
    hear (some a) n = some ⟨a.known.notify n, endingAfter n⟩ := by simp [hear, h]

lemma foldl_hear_none (l : List Notification) : l.foldl hear none = none := by
  induction l with
  | nil => rfl
  | cons n l ih => simpa [hear] using ih

/-- What is heard to the end is accepted at once. -/
lemma accepts_of_foldl {a : Listening} {n : Notification} {l : List Notification}
    (h : (n :: l).foldl hear (some a) ≠ none) : a.accepts n := by
  by_contra hn
  exact h (by simp [hear, hn, foldl_hear_none])

/-- The call that the next notification removes. -/
def removal : List Notification → Option CallId
  | .CallStateRefresh k .NULL :: _ => some k
  | _ => none

/-- The id whose removal has to follow is the one that is removed next. -/
lemma ending_eq_removal {a : Listening} {κ : Knowledge} {l : List Notification}
    (h : l.foldl hear (some a) = some ⟨κ, none⟩) : a.ending = removal l := by
  cases l with
  | nil =>
      simp only [List.foldl, Option.some.injEq] at h
      rw [h]
      rfl
  | cons n l =>
      have hacc : a.accepts n := accepts_of_foldl (by rw [h]; simp)
      simp only [accepts] at hacc
      split at hacc
      · simpa [removal] using hacc
      all_goals simp_all [removal]

/-- The two reports of a call that is gone. -/
lemma hear_gone (κ : Knowledge) (k : CallId) :
    (Outcome.gone.report k).foldl hear (some ⟨κ, none⟩) =
      some ⟨Function.update κ k none, none⟩ := by
  simp only [Outcome.report, List.foldl]
  rw [hear_of_accepts rfl, hear_of_accepts (by simp [accepts, endingAfter])]
  refine congrArg some ?_
  cases hk : κ k with
  | none =>
      have hsame : Function.update κ k none = κ := by rw [← hk, Function.update_eq_self]
      simp [Knowledge.notify, hk, hsame, endingAfter]
  | some x => simp [Knowledge.notify, hk, CallState.after, endingAfter]

end Listening

/-- What the list knows after some notifications, if it is heard to the end. -/
lemma SIPCallProvider.Tidy.foldl_notify {p : SIPCallProvider} (h : p.Tidy) {l : List Notification}
    {d d' : Option CallId} {κ : Knowledge}
    (hl : l.foldl Listening.hear (some ⟨p.callStateOf, d⟩) = some ⟨κ, d'⟩) :
    (l.foldl SIPCallProvider.notify p).Tidy ∧
      (l.foldl SIPCallProvider.notify p).callStateOf = κ := by
  induction l generalizing p d with
  | nil =>
      simp only [List.foldl, Option.some.injEq, Listening.mk.injEq] at hl
      exact ⟨h, hl.1⟩
  | cons n l ih =>
      have hacc := Listening.accepts_of_foldl (by rw [hl]; simp)
      obtain ⟨htidy, hstate⟩ := h.notify (n := n) fun k number info hn => by
        subst hn
        exact (of_decide_eq_true hacc).2
      refine ih htidy (d := Listening.endingAfter n) ?_
      rw [hstate, ← hl, List.foldl_cons, Listening.hear_of_accepts hacc]

/-! ## How the stack uses an id -/

/-- How far the stack is with an id: not in use, announced by a session state, delivered with its
caller.  The id is free again when its call is disconnected. -/
inductive Stage
  | free | announced | live
  deriving DecidableEq, Repr

namespace Stage

/-- What the table can hold under an id at this stage. -/
def Allows : Stage → Option IAbstractState → Prop
  | free, x => x = none ∨ x = some .Released
  | announced, x => x = none ∨ x = some .Idle
  | live, x => x ≠ some .Idle

lemma Allows.none (g : Stage) : g.Allows none := by cases g <;> simp [Allows]

/-- No move of a call leads out of what its stage allows. -/
lemma Allows.result {g : Stage} {st : IAbstractState} {o : Outcome} (h : g.Allows (some st))
    (hmove : Moves st o) : g.Allows (o.result st) := by
  cases o with
  | stay => exact h
  | gone => exact Allows.none g
  | goto st' =>
      cases g <;> cases st <;> cases st' <;> simp_all [Allows, Moves, Outcome.result]

/-- What can come next: each id goes through its stages; timers, the configuration and the requests
of the application are free. -/
def permits (g : CallId → Stage) : CCallManager.Event → Bool
  | .callStateChanged k .SESSION_STATE_INCOMING => g k = .free
  | .callIncoming k _ _ => g k = .announced
  | .callStateChanged k _ | .holdConfirm k => g k = .live
  | .timerElapsed _ _ | .surroundings _ | .onUserAnswer _ | .onUserRelease _ => true
  | _ => false

/-- The stages after an event. -/
def after (g : CallId → Stage) : CCallManager.Event → CallId → Stage
  | .callStateChanged k .SESSION_STATE_INCOMING => Function.update g k .announced
  | .callIncoming k _ _ => Function.update g k .live
  | .callStateChanged k .SESSION_STATE_DISCONNECTED => Function.update g k .free
  | _ => g

end Stage

namespace CCallManager

variable {m m' : CCallManager} {k : CallId} {number info : String}

/-- A new call is listed as idle, or given up together with the released call it found. -/
lemma Answerer.view_incoming (h : m.Answerer) (hk : Stage.free.Allows (m.view k)) :
    Stage.announced.Allows ((m.onCallStateChanged k .SESSION_STATE_INCOMING).view k) := by
  rcases m.incoming_cases k with ⟨old, hold, he⟩ | ⟨hnone, d, hd, he⟩
  · have hann := h.view_announced k
    have hold' : (m.announced k).calls.get? k = some old := hold
    have hst : ((m.announced k).machines old).state = .Released := by
      rw [← hann, view_of_listed hold'] at hk
      simpa [Stage.Allows] using hk
    rw [(h.wellFormed.announced k).view_effect hold' he, hst, Function.update_self]
    exact Or.inl rfl
  · rw [he]
    exact Or.inr (by simp [view, Dictionary.get?_of_add? hd, CStateMachine.create])

/-- A call that rings or talks is released by the end of its session, any other is gone. -/
lemma Answerer.view_disconnected (h : m.Answerer) (hk : Stage.live.Allows (m.view k)) :
    Stage.free.Allows ((m.onCallStateChanged k .SESSION_STATE_DISCONNECTED).view k) := by
  simp only [onCallStateChanged]
  split
  · rename_i hnone
    exact Or.inl (view_of_absent hnone)
  · rename_i r hr
    rw [h.wellFormed.view_effect hr (onReleased_effect m r), Function.update_self]
    rw [view_of_listed hr] at hk
    obtain ⟨hcon, hal⟩ := h.taking r
    cases hst : (m.machines r).state <;>
      simp_all [Stage.Allows, react, ending, h.timers, Outcome.result]

/-- After the delivery of its caller a call is not idle. -/
lemma Delivery.live (h : Delivery m m' k number info) : Stage.live.Allows (m'.view k) := by
  cases h with
  | absent hv hm => rw [hm, hv]; simp [Stage.Allows]
  | turnedAway hv hon hview hrep => rw [hview]; simp [Stage.Allows]
  | rings hv hoff hauto hview hrep => rw [hview]; simp [Stage.Allows]
  | answered hv hoff hauto hview hrep => rw [hview]; simp [Stage.Allows]
  | again st hv hst hview hrep => rw [hview, hv]; simpa [Stage.Allows] using hst

/-- The delivery of its caller would answer the call: the services let it pass, automatic answering
is on, and it is the only call. -/
def AnswersAtOnce (m : CCallManager) (k : CallId) : Prop :=
  m.view k = some .Idle ∧ ServicesOff m.around.config ∧
    m.around.config.AAFlag = true ∧ m.calls.count = 1

end CCallManager

/-! ## Listening to an answerer -/

variable {auto : Bool} {v : View} {κ : Knowledge} {k : CallId} {st st' : IAbstractState}

/-- A change of one call. -/
lemma fits_update {y : Option IAbstractState} {z : Option CallState}
    (h : ∀ j, CallState.fits auto (v j) (κ j)) (hyz : CallState.fits auto y z) (j : CallId) :
    CallState.fits auto (Function.update v k y j) (Function.update κ k z j) := by
  by_cases hj : j = k
  · subst hj
    simpa using hyz
  · simpa [hj] using h j

/-- A change of a call that is not seen. -/
lemma fits_unseen {y : Option IAbstractState} (h : ∀ j, CallState.fits auto (v j) (κ j))
    (hy : CallState.fits auto y (κ k)) (j : CallId) :
    CallState.fits auto (Function.update v k y j) (κ j) := by
  simpa using fits_update (k := k) h hy j

/-- An idle call, or none, is not known. -/
lemma unknown_of_fits {y : Option IAbstractState} {z : Option CallState}
    (h : CallState.fits auto y z) (hy : y = none ∨ y = some .Idle) : z = none := by
  cases z with
  | none => rfl
  | some x => rcases hy with rfl | rfl <;> simp [CallState.fits] at h

/-- A call that moves to another state is known, as ringing or connected. -/
lemma known_of_moves (hk : CallState.fits auto (some st) (κ k)) (hmove : Moves st (.goto st')) :
    κ k = some .Ringing ∨ κ k = some .Connected := by
  have hst : st = .Incoming ∨ st = .Active ∨ st = .Holding := by
    cases st <;> cases st' <;> simp_all [Moves]
  cases hκ : κ k with
  | none => rcases hst with rfl | rfl | rfl <;> simp [hκ, CallState.fits] at hk
  | some x => rcases hst with rfl | rfl | rfl <;> cases x <;> simp_all [CallState.fits]

/-- The report of a new state is accepted, and the new state is known. -/
lemma hear_goto (hk : CallState.fits auto (some st) (κ k)) (hmove : Moves st (.goto st')) :
    ∃ z, (Outcome.report (.goto st') k).foldl Listening.hear (some ⟨κ, none⟩) =
      some ⟨Function.update κ k z, none⟩ ∧ CallState.fits auto (some st') z := by
  obtain ⟨x, hx, hlive⟩ : ∃ x, κ k = some x ∧ x.ended = false := by
    rcases known_of_moves hk hmove with hx | hx
    · exact ⟨_, hx, rfl⟩
    · exact ⟨_, hx, rfl⟩
  rw [hx] at hk
  have hacc : Listening.accepts ⟨κ, none⟩ (.CallStateRefresh k st'.id) := by
    cases st' <;> simp [Listening.accepts, IAbstractState.id, hx, hlive]
  have hend : Listening.endingAfter (.CallStateRefresh k st'.id) = none := by
    cases st' with
    | Idle => cases st <;> exact absurd hmove id
    | _ => rfl
  refine ⟨x.after st'.id, ?_, ?_⟩
  · simp only [Outcome.report, List.foldl]
    rw [Listening.hear_of_accepts hacc, hend]
    simp [Knowledge.notify, hx]
  · -- the report of a hold is ignored, the others are copied
    by_cases hhold : st' = .Holding
    · subst hhold
      cases st with
      | Active => cases x <;> exact hk
      | _ => exact absurd hmove id
    · cases st <;> cases st' <;> first | exact absurd hmove id | rfl | exact absurd rfl hhold

/-- The listening application as a subscriber, with what some ids are known to be restricted to. -/
def listener (auto : Bool) (g : CallId → Option Stage) : Subscriber (Option Listening) where
  notify := Listening.hear
  agrees v x := ∃ κ, x = some ⟨κ, none⟩ ∧ (∀ k, CallState.fits auto (v k) (κ k)) ∧
    ∀ k st, g k = some st → st.Allows (v k)

/-- **Whatever a call reports is heard without objection.** -/
lemma listener_lawful (auto : Bool) (g : CallId → Option Stage) : (listener auto g).Lawful where
  report := by
    rintro v k st o _ hk hmove ⟨κ, rfl, hfits, hg⟩
    have hallow : ∀ j st', g j = some st' → st'.Allows (Function.update v k (o.result st) j) := by
      intro j st' hj
      have hall := hg j st' hj
      by_cases hjk : j = k
      · subst hjk
        rw [hk] at hall
        simpa using hall.result hmove
      · simpa [hjk] using hall
    have hfk := hfits k
    rw [hk] at hfk
    cases o with
    | stay => exact ⟨κ, rfl, fits_unseen hfits hfk, hallow⟩
    | gone => exact ⟨_, Listening.hear_gone κ k, fits_update hfits rfl, hallow⟩
    | goto st' =>
        obtain ⟨z, hz, hfz⟩ := hear_goto hfk hmove
        exact ⟨_, hz, fits_update hfits hfz, hallow⟩
  disappears := by
    rintro v k _ hk ⟨κ, rfl, hfits, hg⟩
    have hnone := unknown_of_fits (hfits k) (Or.inr hk)
    refine ⟨κ, rfl, fits_unseen hfits (by rw [hnone]; rfl), fun j st hj => ?_⟩
    by_cases hjk : j = k
    · subst hjk
      simpa using Stage.Allows.none st
    · simpa [hjk] using hg j st hj

/-- A manager that only takes calls, ids at their stages, and an application that knows what it
should. -/
structure Tracked (auto : Bool) (m : CCallManager) (g : CallId → Stage) (x : Option Listening) :
    Prop where
  answerer : m.Answerer
  agrees : (listener auto fun k => some (g k)).agrees m.view x

namespace Tracked

variable {m : CCallManager} {g : CallId → Stage} {x : Option Listening} {e : CCallManager.Event}

lemma stages (h : Tracked auto m g x) (k : CallId) : (g k).Allows (m.view k) := by
  obtain ⟨κ, -, -, hg⟩ := h.agrees
  exact hg k _ rfl

/-- Events that leave the stages alone. -/
lemma step_plain (h : Tracked auto m g x) (he : e.answering)
    (hnew : ∀ k, e ≠ .callStateChanged k .SESSION_STATE_INCOMING)
    (hcall : ∀ k number info, e ≠ .callIncoming k number info) :
    Tracked auto (m.step e) g ((notifications (m.step e).out).foldl Listening.hear x) := by
  obtain ⟨hans, hagree⟩ := h.answerer.step (listener_lawful auto fun k => some (g k)) he
    (fun k _ hk => absurd hk (hnew k)) (fun k number info _ hk => absurd hk (hcall k number info))
  exact ⟨hans, hagree x h.agrees⟩

/-- Every id but one keeps its stage. -/
def loosen (g : CallId → Stage) (k : CallId) : CallId → Option Stage :=
  Function.update (fun j => some (g j)) k none

lemma loosen_eq_some {j k : CallId} {st : Stage} (h : loosen g k j = some st) :
    j ≠ k ∧ g j = st := by
  by_cases hj : j = k
  · simp [loosen, hj] at h
  · exact ⟨hj, by simpa [loosen, hj] using h⟩

/-- Events that move the stage of one id, given what the table holds under it afterwards. -/
lemma step_stage (h : Tracked auto m g x) (he : e.answering) {st : Stage}
    (hnew : ∀ j, e = .callStateChanged j .SESSION_STATE_INCOMING → j = k)
    (hcall : ∀ j number info m', e = .callIncoming j number info →
      CCallManager.Delivery { m with out := [] } m' j number info →
      CCallManager.Carries (listener auto (loosen g k)) { m with out := [] } m')
    (hst : st.Allows ((m.step e).view k)) :
    Tracked auto (m.step e) (Function.update g k st)
      ((notifications (m.step e).out).foldl Listening.hear x) := by
  -- an idle call is not seen, and its id is the one without a stage
  have happ : ∀ j y, e = .callStateChanged j .SESSION_STATE_INCOMING → m.view j = none →
      (listener auto (loosen g k)).agrees m.view y →
      (listener auto (loosen g k)).agrees (Function.update m.view j (some .Idle)) y := by
    rintro j _ hj hnone ⟨κ, rfl, hfits, hg⟩
    have hκ := unknown_of_fits (hfits j) (Or.inl hnone)
    refine ⟨κ, rfl, fits_unseen hfits (by rw [hκ]; rfl), fun i st hi => ?_⟩
    have hij : i ≠ j := by
      rw [hnew j hj]
      exact (loosen_eq_some hi).1
    simpa [hij] using hg i st hi
  obtain ⟨hans, hagree⟩ := h.answerer.step (listener_lawful auto (loosen g k)) he happ hcall
  obtain ⟨κ, hκ, hfits, -⟩ := h.agrees
  obtain ⟨κ', hκ', hfits', hg'⟩ := hagree x ⟨κ, hκ, hfits, fun j st hj => by
    rw [← (loosen_eq_some hj).2]; exact h.stages j⟩
  refine ⟨hans, κ', hκ', hfits', fun j st' hj => ?_⟩
  obtain rfl := Option.some.inj hj
  by_cases hjk : j = k
  · subst hjk
    simpa using hst
  · simpa [hjk] using hg' j (g j) (by simp [loosen, hjk])

/-- The delivery of a caller, if an automatic answer is expected or does not happen. -/
lemma step_callIncoming (h : Tracked auto m g x) {number info : String} (hk : g k = .announced)
    (hok : auto = true ∨ ¬ m.AnswersAtOnce k) :
    Tracked auto (m.step (.callIncoming k number info)) (Function.update g k .live)
      ((notifications (m.step (.callIncoming k number info)).out).foldl Listening.hear x) := by
  have hallow := h.stages k
  rw [hk] at hallow
  refine h.step_stage rfl (by simp) ?_ (h.answerer.cleared.incomingCall_cases k number info).2.live
  rintro j number info m' he hd
  obtain ⟨rfl, rfl, rfl⟩ := CCallManager.Event.callIncoming.inj he
  -- an idle call is not known, so reports of its state are ignored, and then it is entered
  have hignored : ∀ κ : Knowledge, κ k = none → ∀ st : EStateId, st = .INCOMING ∨ st = .ACTIVE →
      Listening.hear (some ⟨κ, none⟩) (.CallStateRefresh k st) = some ⟨κ, none⟩ := by
    rintro κ hκ st (rfl | rfl) <;>
      simp [Listening.hear, Listening.accepts, Knowledge.notify, Listening.endingAfter, hκ]
  have hentered : ∀ κ : Knowledge, κ k = none →
      Listening.hear (some ⟨κ, none⟩) (.IncomingCallNotification k number info) =
        some ⟨Function.update κ k (some .Ringing), none⟩ := by
    intro κ hκ
    simp [Listening.hear, Listening.accepts, Knowledge.notify, Listening.endingAfter, hκ]
  have hloose : ∀ (y : Option IAbstractState) (i : CallId) (st : Stage), loosen g k i = some st →
      st.Allows (m.view i) → st.Allows (Function.update m.view k y i) := by
    intro y i st hi hst
    simpa [(loosen_eq_some hi).1] using hst
  refine CCallManager.Answerer.delivery_carries (listener_lawful auto (loosen g k)) hd ?_ ?_ ?_
  · rintro _ hidle - - ⟨κ, rfl, hfits, hg⟩
    have hκ := unknown_of_fits (hfits k) (Or.inr hidle)
    refine ⟨Function.update κ k (some .Ringing), ?_, fits_update hfits rfl,
      fun i st hi => hloose _ i st hi (hg i st hi)⟩
    simp only [listener, hignored κ hκ .INCOMING (Or.inl rfl), hentered κ hκ]
  · rintro _ hidle hoff hauto ⟨κ, rfl, hfits, hg⟩
    have hκ := unknown_of_fits (hfits k) (Or.inr hidle)
    have hexpected : auto = true := by
      rcases hok with hok | hok
      · exact hok
      · exact absurd ⟨hidle, hoff, hauto⟩ hok
    refine ⟨Function.update κ k (some .Ringing), ?_, fits_update hfits hexpected,
      fun i st hi => hloose _ i st hi (hg i st hi)⟩
    simp only [listener, hignored κ hκ .ACTIVE (Or.inr rfl), hentered κ hκ]
  · -- the caller is delivered once
    rintro _ st hv hst -
    rcases hallow with hnone | hidle
    · exact absurd (hnone.symm.trans hv) (by simp)
    · exact absurd (Option.some.inj (hidle.symm.trans hv)).symm hst

/-- **The step lemma**: every event the stack permits is heard without objection, and what is known
fits the table afterwards. -/
theorem step (h : Tracked auto m g x) (hper : Stage.permits g e)
    (hok : auto = true ∨ ∀ k number info, e = .callIncoming k number info → ¬ m.AnswersAtOnce k) :
    Tracked auto (m.step e) (Stage.after g e)
      ((notifications (m.step e).out).foldl Listening.hear x) := by
  cases e with
  | callStateChanged k st =>
      have hstage := h.stages k
      cases st with
      | SESSION_STATE_INCOMING =>
          rw [of_decide_eq_true hper] at hstage
          exact h.step_stage rfl (fun j hj => by simpa using hj.symm) (by simp)
            (h.answerer.cleared.view_incoming hstage)
      | SESSION_STATE_DISCONNECTED =>
          rw [of_decide_eq_true hper] at hstage
          exact h.step_stage rfl (by simp) (by simp) (h.answerer.cleared.view_disconnected hstage)
      | _ => exact h.step_plain rfl (by simp) (by simp)
  | callIncoming k number info =>
      exact h.step_callIncoming (of_decide_eq_true hper)
        (hok.imp_right fun hno => hno k number info rfl)
  | holdConfirm k => exact h.step_plain rfl (by simp) (by simp)
  | timerElapsed r t => exact h.step_plain rfl (by simp) (by simp)
  | surroundings a => exact h.step_plain rfl (by simp) (by simp)
  | onUserAnswer j => exact h.step_plain rfl (by simp) (by simp)
  | onUserRelease j => exact h.step_plain rfl (by simp) (by simp)
  | _ => exact absurd hper (by simp [Stage.permits])

lemma initial {around : Surroundings} (ht : around.factory.timersRun = true) :
    Tracked auto (CCallManager.initial around) (fun _ => .free)
      (some ⟨SIPCallProvider.initial.callStateOf, none⟩) where
  answerer := .initial ht
  agrees := ⟨_, rfl, fun _ => rfl, fun _ _ hst => by
    rw [← Option.some.inj hst]
    exact Or.inl rfl⟩

end Tracked

end TAM
