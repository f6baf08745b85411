import AnsweringMachine.Application.Refinement
import AnsweringMachine.CallControl.UnderWay
import AnsweringMachine.Sip.CallTable

/-!
# The calls of the application and the sessions of the stack

Three layers have a table of calls each: the stack has sessions in slots, the manager has machines,
the provider has the calls it shows.  `Refinement` is about the upper two and takes for granted how
the stack uses its ids.  Here the stack itself is below them, so that nothing is taken for granted:
the callbacks of a run are those of the call table, in their order, and whatever the application and
its timers do comes in between (`no_ghost_calls`).

A callback may come inside the request of an operation (`performWithin`), as that of the state
`CONNECTING` does when a call is answered.  That a session ends there is left out: the call is then
connected again when the request returns (`Desk.failed_answer_connects`).
-/

namespace TAM

namespace Exchange

open Runs CallTable CCallManager

/-- The callbacks inside the request of an operation, if it makes one that is not its last act. -/
def callbacksInside (w : Exchange) (e : Event) (inside : List ESessionState) : List Event :=
  match underWay (CCallManager.begin { w.manager with out := [] } e) with
  | none => []
  | some k => inside.map (.callStateChanged k)

/-- One event of the manager, the stack reporting these states inside its request. -/
def tellWithin (w : Exchange) (e : Event) (inside : List ESessionState) : Exchange :=
  let m := CCallManager.handleWithin { w.manager with out := [] } e inside
  { manager := m
    provider := (notifications m.out).foldl SIPCallProvider.notify w.provider
    stage := stages (Stage.after w.stage e) (w.callbacksInside e inside) }

/-- The operation of the manager an event stands for, if the application gets as far as that. -/
def operation (w : Exchange) : TamEvent → Option Event
  | .event e => some e
  | .AcceptCall c => (w.provider.acceptCall c).map .onUserAnswer
  | .Hangup c => (w.provider.hangup c).map .onUserRelease

/-- One event, with what the stack reports inside its request. -/
def performWithin (w : Exchange) (x : TamEvent × List ESessionState) : Exchange :=
  let w' := match w.operation x.1 with
    | none => w
    | some e => w.tellWithin e x.2
  match x.1 with
  | .Hangup c => { w' with provider := w'.provider.set c }
  | _ => w'

/-- The callbacks of one event: the event itself, if the stack calls back with it, and those
inside. -/
def callbacks (w : Exchange) (x : TamEvent × List ESessionState) : List Event :=
  match w.operation x.1 with
  | none => []
  | some e => (if ofStack e then [e] else []) ++ w.callbacksInside e x.2

/-- The callbacks of a run. -/
def stackEvents (w : Exchange) : List (TamEvent × List ESessionState) → List Event
  | [] => []
  | x :: xs => w.callbacks x ++ stackEvents (w.performWithin x) xs

/-- What an answering machine takes part in: callbacks, timers, its configuration, its requests. -/
def Answering : TamEvent → Prop
  | .event e => ofStack e ∨ ofMachine e
  | .AcceptCall _ | .Hangup _ => True

variable {w : Exchange} {e : Event} {inside : List ESessionState}

/-- Passing states leave the stages alone. -/
lemma stages_passing (hinside : ∀ st ∈ inside, Passing st) (g : CallId → Stage) (k : CallId) :
    stages g (inside.map (.callStateChanged k)) = g := by
  induction inside with
  | nil => rfl
  | cons st inside ih =>
      have hst : Stage.after g (.callStateChanged k st) = g := by
        have := hinside st (by simp)
        cases st <;> simp_all [Passing, Stage.after]
      rw [List.map_cons, stages, run, hst]
      exact ih fun st' hst' => hinside st' (by simp [hst'])

lemma stages_callbacksInside (hinside : ∀ st ∈ inside, Passing st) (g : CallId → Stage) :
    stages g (w.callbacksInside e inside) = g := by
  simp only [callbacksInside]
  split
  · rfl
  · exact stages_passing hinside g _

/-- **Passing states inside a request change nothing.** -/
lemma tellWithin_eq (hw : w.manager.WellFormed) (hinside : ∀ st ∈ inside, Passing st) :
    w.tellWithin e inside = w.tell e := by
  have hm : CCallManager.handleWithin { w.manager with out := [] } e inside = w.manager.step e :=
    hw.cleared.handleWithin e hinside
  simp only [tellWithin, hm, stages_callbacksInside hinside]
  rfl

lemma performWithin_eq (hw : w.manager.WellFormed) {e : TamEvent}
    (hinside : ∀ st ∈ inside, Passing st) : w.performWithin (e, inside) = w.perform e := by
  cases e with
  | event e => exact tellWithin_eq hw hinside
  | AcceptCall c =>
      simp only [performWithin, operation, perform]
      cases w.provider.acceptCall c with
      | none => rfl
      | some k => exact tellWithin_eq hw hinside
  | Hangup c =>
      simp only [performWithin, operation, perform]
      cases w.provider.hangup c with
      | none => rfl
      | some k => simp only [Option.map_some, tellWithin_eq hw hinside]

/-- The callbacks of one event are permitted only if the event is, and lead to its stages. -/
lemma permits_of_callbacks {e : TamEvent} (he : Answering e) (hinside : ∀ st ∈ inside, Passing st)
    (hper : Permitted w.stage (w.callbacks (e, inside))) :
    w.permits e ∧ (w.perform e).stage = stages w.stage (w.callbacks (e, inside)) := by
  -- an operation that is not a callback leaves the stages alone
  have hown (e' : Event) (hstack : ¬ ofStack e') (hsame : Stage.after w.stage e' = w.stage) :
      Stage.after w.stage e' = stages w.stage ((if ofStack e' then [e'] else []) ++
        w.callbacksInside e' inside) := by
    rw [if_neg hstack, List.nil_append, stages_callbacksInside hinside, hsame]
  cases e with
  | event e =>
      simp only [callbacks, operation] at hper ⊢
      by_cases hstack : ofStack e
      · rw [if_pos hstack] at hper ⊢
        refine ⟨hper.1, ?_⟩
        exact (stages_callbacksInside hinside _).symm
      · have hmachine := he.resolve_left hstack
        obtain ⟨hok, hsame⟩ := ofMachine_permits hmachine w.stage
        exact ⟨hok, hown e hstack hsame⟩
  | AcceptCall c =>
      refine ⟨rfl, ?_⟩
      simp only [callbacks, operation, perform]
      cases w.provider.acceptCall c with
      | none => rfl
      | some k => exact hown (.onUserAnswer k) (by simp [ofStack]) rfl
  | Hangup c =>
      refine ⟨rfl, ?_⟩
      simp only [callbacks, operation, perform]
      cases w.provider.hangup c with
      | none => rfl
      | some k => exact hown (.onUserRelease k) (by simp [ofStack]) rfl

/-- **The run lemma**: if the callbacks are permitted, the list is kept and only they move the
stages. -/
lemma Kept.run {events : List (TamEvent × List ESessionState)} (h : w.Kept)
    (hothers : ∀ x ∈ events, Answering x.1) (hinside : ∀ x ∈ events, ∀ st ∈ x.2, Passing st)
    (hper : Permitted w.stage (stackEvents w events))
    (hrings : Along performWithin (fun w x => w.RingsFirst x.1) w events) :
    (run performWithin w events).Kept ∧
      (run performWithin w events).stage = stages w.stage (stackEvents w events) := by
  induction events generalizing w with
  | nil => exact ⟨h, rfl⟩
  | cons x events ih =>
      obtain ⟨e, inside⟩ := x
      have hpass : ∀ st ∈ inside, Passing st := hinside (e, inside) (by simp)
      have hsame := performWithin_eq (e := e) h.tracked.answerer.wellFormed hpass
      obtain ⟨hfirst, hrest⟩ := along_split hper
      obtain ⟨hok, hstage⟩ := permits_of_callbacks (hothers (e, inside) (by simp)) hpass hfirst
      have hkept : (w.performWithin (e, inside)).Kept := by
        rw [hsame]
        exact h.perform hok hrings.1
      rw [← hsame] at hstage
      obtain ⟨hfinal, hlast⟩ := ih hkept (fun y hy => hothers y (by simp [hy]))
        (fun y hy => hinside y (by simp [hy])) (by rw [hstage]; exact hrest) hrings.2
      refine ⟨hfinal, hlast.trans ?_⟩
      rw [hstage]
      exact (run_append w.stage (w.callbacks (e, inside)) _).symm

/-- The id of a call that is shown as ringing or connected is not free. -/
lemma Kept.stage_ne_free (h : w.Kept) {c : CallRef} (hc : c ∈ w.provider.calls)
    (hshown : (w.provider.objects c).callState = .Ringing ∨
      (w.provider.objects c).callState = .Connected) :
    w.stage (w.provider.objects c).sipekCallId ≠ .free := by
  intro hfree
  have hallows := h.tracked.stages (w.provider.objects c).sipekCallId
  rw [hfree] at hallows
  have hfits := h.fits (w.provider.objects c).sipekCallId
  rw [SIPCallProvider.callStateOf, SIPCallProvider.findCallById_of_mem h.tidy.distinct hc] at hfits
  rcases hallows with hnone | hreleased
  · rw [hnone] at hfits
    simp [CallState.fits] at hfits
  · rw [hreleased] at hfits
    rcases hshown with hshown | hshown <;> simp [CallState.fits, hshown] at hfits

/-- **No ghost calls.**  Callers come and go, the application accepts and hangs up, timers expire,
in any order, sessions pass states inside requests, no call ends inside a request, and none is
answered automatically.  Then, whenever all callbacks of the stack have been handled, a call that
the application shows as ringing or connected has a session in the stack that has not ended, or its
id is lost. -/
theorem no_ghost_calls (maxCalls : ℕ) (happenings : List Happening)
    (hplain : ∀ a ∈ happenings, a.Plain) (around : Surroundings)
    (htimers : around.factory.timersRun = true) (events : List (TamEvent × List ESessionState))
    (hothers : ∀ x ∈ events, Answering x.1) (hinside : ∀ x ∈ events, ∀ st ∈ x.2, Passing st)
    (hstack : stackEvents (initial around) events =
      (run hear (CallTable.initial maxCalls, []) happenings).2)
    (hrings : Along performWithin (fun w x => w.RingsFirst x.1) (initial around) events) :
    let w := run performWithin (initial around) events
    let t := (run hear (CallTable.initial maxCalls, []) happenings).1
    ∀ c ∈ w.provider.calls, (w.provider.objects c).callState = .Ringing ∨
      (w.provider.objects c).callState = .Connected →
      (∃ h, t.Lives h (w.provider.objects c).sipekCallId) ∨
        t.Lost (w.provider.objects c).sipekCallId := by
  intro w t c hc hshown
  obtain ⟨hper, hstaged⟩ := follows_run maxCalls hplain
  rw [← hstack] at hper hstaged
  obtain ⟨hkept, hstage⟩ := (Kept.initial htimers).run hothers hinside hper hrings
  have hne : t.calls (w.provider.objects c).sipekCallId ≠ none := by
    intro hnone
    refine hkept.stage_ne_free hc hshown ?_
    rw [hstage]
    exact hstaged.free _ hnone
  obtain ⟨h, hheld⟩ := Option.ne_none_iff_exists'.mp hne
  obtain ⟨-, d, hd, hcall⟩ := hstaged.toOwned.held _ h hheld
  by_cases hend : d.inv.state = .SESSION_STATE_DISCONNECTED
  · exact .inr ⟨h, d, hheld, hd, hend⟩
  · exact .inl ⟨h, d, hd, hcall, hend⟩

/-- A caller who is answered. -/
def oneCaller : List Happening :=
  [.invite "1" "" (.answered (some (trying {})) none),
    .input 0 (.tsxState ⟨{}, true, .INVITE, .UAS, .COMPLETED, 200, false, true⟩),
    .input 0 (.rxAck false (some 200) {})]

/-- The application accepts the call; that it is connecting is reported inside the request. -/
def oneAnswer : List (TamEvent × List ESessionState) :=
  [(.event (.callStateChanged 0 .SESSION_STATE_INCOMING), []),
    (.event (.callIncoming 0 "1" ""), []),
    (.AcceptCall 0, [.SESSION_STATE_CONNECTING]),
    (.event (.callStateChanged 0 .SESSION_STATE_CONFIRMED), [])]

/-- The call is connected, and so is its session. -/
theorem no_ghost_calls_one :
    let w := run performWithin (initial {}) oneAnswer
    let t := (run hear (CallTable.initial 4, []) oneCaller).1
    0 ∈ w.provider.calls ∧ (w.provider.objects 0).callState = .Connected ∧
      ((∃ h, t.Lives h (w.provider.objects 0).sipekCallId) ∨
        t.Lost (w.provider.objects 0).sipekCallId) := by
  intro w t
  have hmem : 0 ∈ w.provider.calls := by decide +kernel
  have hshown : (w.provider.objects 0).callState = .Connected := by decide +kernel
  refine ⟨hmem, hshown,
    no_ghost_calls 4 oneCaller ?_ {} rfl oneAnswer ?_ ?_ ?_ ?_ 0 hmem (.inr hshown)⟩
  · simp [oneCaller, Happening.Plain, InvSession.Input.Trying]
  · simp [oneAnswer, Answering, ofStack]
  · simp [oneAnswer, Passing]
  · decide +kernel
  · refine ⟨trivial, ?_, trivial, trivial, trivial⟩
    rintro ⟨-, -, hauto, -⟩
    exact absurd hauto (by decide)

end Exchange

end TAM
