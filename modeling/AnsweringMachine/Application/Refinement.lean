import AnsweringMachine.Application.Listener

/-!
# The provider's calls and the manager's table

`refines_iff` is about every run of stack events, timers and operations of the application in which
the stack uses each id as it should (`Stage`).  The provider's list refines the call table after
every event if and only if no call is answered automatically: such a call reports `ACTIVE` before
the application knows it, and is then entered as ringing (`answered_but_ringing`).
-/

namespace TAM

open Runs

/-- Events of the manager, and the operations of the application on one of its calls. -/
inductive TamEvent
  | event (e : CCallManager.Event)
  | AcceptCall (call : CallRef)
  | Hangup (call : CallRef)

/-- The manager, the provider that listens to it, and the stage of each id. -/
structure Exchange where
  manager : CCallManager
  provider : SIPCallProvider
  stage : CallId → Stage

namespace Exchange

/-- One event of the manager, its notifications being handled while they are raised. -/
def tell (w : Exchange) (e : CCallManager.Event) : Exchange where
  manager := w.manager.step e
  provider := (notifications (w.manager.step e).out).foldl SIPCallProvider.notify w.provider
  stage := Stage.after w.stage e

/-- One event. -/
def perform (w : Exchange) : TamEvent → Exchange
  | .event e => w.tell e
  | .AcceptCall c =>
      match w.provider.acceptCall c with
      | none => w
      | some k => w.tell (.onUserAnswer k)
  | .Hangup c =>
      let w := match w.provider.hangup c with
        | none => w
        | some k => w.tell (.onUserRelease k)
      { w with provider := w.provider.set c }

/-- No calls. -/
def initial (around : Surroundings) : Exchange where
  manager := CCallManager.initial around
  provider := SIPCallProvider.initial
  stage _ := .free

/-- What can come next: what the stack permits, and the operations of the application. -/
def permits (w : Exchange) : TamEvent → Bool
  | .event e => Stage.permits w.stage e
  | .AcceptCall _ | .Hangup _ => true

/-- **The list refines the table**: its ids are distinct, they are the ids of the calls that are not
idle, and the state of each call is the one that belongs to its machine. -/
structure Refines (w : Exchange) : Prop where
  distinct : w.provider.ids.Nodup
  listed : ∀ k, k ∈ w.provider.ids ↔
    ∃ r, w.manager.calls.get? k = some r ∧ (w.manager.machines r).state ≠ .Idle
  states : ∀ c ∈ w.provider.calls, ∀ r,
    w.manager.calls.get? (w.provider.objects c).sipekCallId = some r →
    ((w.provider.objects c).callState = .Ringing ↔ (w.manager.machines r).state = .Incoming) ∧
    ((w.provider.objects c).callState = .Connected ↔
      (w.manager.machines r).state = .Active ∨ (w.manager.machines r).state = .Holding) ∧
    ((w.provider.objects c).callState = .HangUp ↔ (w.manager.machines r).state = .Released) ∧
    ((w.provider.objects c).callState = .Disconnected ↔
      (w.manager.machines r).state = .Terminated)

/-- No caller is delivered to a call that would be answered automatically. -/
def RingsFirst (w : Exchange) : TamEvent → Prop
  | .event (.callIncoming k _ _) => ¬ w.manager.AnswersAtOnce k
  | _ => True

/-! ## The invariant -/

/-- The list is tidy, and what it knows fits the table. -/
structure Kept (w : Exchange) : Prop where
  tidy : w.provider.Tidy
  tracked : Tracked false w.manager w.stage (some ⟨w.provider.callStateOf, none⟩)

variable {w : Exchange} {k : CallId}

lemma Kept.initial {around : Surroundings} (h : around.factory.timersRun = true) :
    (Exchange.initial around).Kept := ⟨.initial, .initial h⟩

lemma Kept.fits (h : w.Kept) (k : CallId) :
    CallState.fits false (w.manager.view k) (w.provider.callStateOf k) := by
  obtain ⟨κ, hκ, hfits, -⟩ := h.tracked.agrees
  simp only [Option.some.injEq, Listening.mk.injEq, and_true] at hκ
  rw [hκ]
  exact hfits k

/-- An event of the manager that does not answer a call automatically. -/
lemma Kept.tell (h : w.Kept) {e : CCallManager.Event} (hper : Stage.permits w.stage e)
    (hok : ∀ k number info, e = .callIncoming k number info → ¬ w.manager.AnswersAtOnce k) :
    (w.tell e).Kept := by
  have htracked := h.tracked.step hper (Or.inr hok)
  obtain ⟨κ, hκ, -⟩ := htracked.agrees
  obtain ⟨htidy, hstate⟩ := h.tidy.foldl_notify hκ
  rw [hκ, ← hstate] at htracked
  exact ⟨htidy, htracked⟩

/-- **The step lemma.** -/
lemma Kept.perform (h : w.Kept) {e : TamEvent} (hper : w.permits e) (hok : w.RingsFirst e) :
    (w.perform e).Kept := by
  cases e with
  | event e =>
      refine h.tell hper ?_
      rintro k number info rfl
      exact hok
  | AcceptCall c =>
      simp only [Exchange.perform]
      split
      · exact h
      · exact h.tell rfl (by simp)
  | Hangup c =>
      have hset : ∀ w' : Exchange, w'.Kept → Kept { w' with provider := w'.provider.set c } :=
        fun w' h' => ⟨h'.tidy.signal c true, by simpa using h'.tracked⟩
      refine hset _ ?_
      split
      · exact h
      · exact h.tell rfl (by simp)

/-- **What fits is refinement.** -/
lemma Kept.refines (h : w.Kept) : w.Refines where
  distinct := h.tidy.distinct
  listed k := by
    have hiff : k ∈ w.provider.ids ↔ w.provider.callStateOf k ≠ none := by
      rw [SIPCallProvider.callStateOf, ne_eq, Option.map_eq_none_iff,
        SIPCallProvider.findCallById_eq_none, not_not]
    have hfits := h.fits k
    rw [hiff]
    cases hk : w.manager.calls.get? k with
    | none =>
        rw [CCallManager.view_of_absent hk] at hfits
        simp [unknown_of_fits hfits (Or.inl rfl)]
    | some r =>
        rw [CCallManager.view_of_listed hk] at hfits
        cases hst : (w.manager.machines r).state <;> cases hκ : w.provider.callStateOf k <;>
          simp_all [CallState.fits]
  states c hc r hr := by
    have hfits := h.fits (w.provider.objects c).sipekCallId
    rw [CCallManager.view_of_listed hr, SIPCallProvider.callStateOf,
      SIPCallProvider.findCallById_of_mem h.tidy.distinct hc] at hfits
    cases hst : (w.manager.machines r).state <;> cases hcs : (w.provider.objects c).callState <;>
      simp_all [CallState.fits]

/-- A call that is answered automatically is entered as ringing. -/
lemma Kept.not_refines (h : w.Kept) {e : TamEvent} (hok : ¬ w.RingsFirst e) :
    ¬ (w.perform e).Refines := by
  obtain ⟨k, number, info, rfl, hidle, hoff, hauto⟩ : ∃ k number info,
      e = .event (.callIncoming k number info) ∧ w.manager.AnswersAtOnce k := by
    simp only [RingsFirst] at hok
    split at hok
    · exact ⟨_, _, _, rfl, not_not.mp hok⟩
    · exact absurd trivial hok
  intro href
  have hd := (h.tracked.answerer.cleared.incomingCall_cases k number info).2
  -- only one of the cases of the delivery applies
  cases hd with
  | absent hv => exact absurd (hidle.symm.trans hv) (by simp)
  | turnedAway _ hon => exact hon hoff
  | rings _ _ hring => exact hring hauto
  | again st hv hst => exact hst (Option.some.inj (hidle.symm.trans hv)).symm
  | answered _ _ _ hview hrep =>
      have hnone : w.provider.findCallById k = none := by
        simpa [SIPCallProvider.callStateOf] using unknown_of_fits (h.fits k) (Or.inr hidle)
      have hout : notifications (CCallManager.onIncomingCall { w.manager with out := [] } k
          number info).out = [.CallStateRefresh k .ACTIVE, .CallStateRefresh k .ACTIVE,
            .IncomingCallNotification k number info] := by
        simpa [CCallManager.Reports] using hrep
      have hprov : (w.perform (.event (.callIncoming k number info))).provider =
          w.provider.resources_CallManager_IncomingCallNotification k := by
        simp [Exchange.perform, Exchange.tell, CCallManager.step, CCallManager.stepWith,
          CCallManager.handle, hout, SIPCallProvider.notify,
          SIPCallProvider.onCallStateChanged, hnone]
      have hact : (w.perform (.event (.callIncoming k number info))).manager.view k =
          some .Active := by
        change (CCallManager.onIncomingCall { w.manager with out := [] } k number info).view k = _
        rw [hview, Function.update_self]
      obtain ⟨r, hr, hst⟩ := CCallManager.view_eq_some hact
      have hstates := (href.states w.provider.created
        (by rw [hprov]; simp [SIPCallProvider.resources_CallManager_IncomingCallNotification]) r
        (by rw [hprov]; simpa using hr)).1
      rw [hprov, SIPCallProvider.incoming_object, hst] at hstates
      simp at hstates

/-- **The provider's list refines the manager's table after every event of a run** if and only if no
call of the run is answered automatically. -/
theorem refines_iff (around : Surroundings) (htimers : around.factory.timersRun = true)
    (run : List TamEvent) (hrun : Along perform (fun w e => w.permits e) (initial around) run) :
    Throughout perform Refines (initial around) run ↔
      Along perform RingsFirst (initial around) run :=
  throughout_iff_along (J := Kept) (fun _ _ hper h hok => h.perform hper hok)
    (fun _ h => h.refines) (fun _ _ _ h hok => h.not_refines hok) (Kept.initial htimers) hrun

/-- A call that the application accepts and the caller ends. -/
def acceptedRun : List TamEvent :=
  [.event (.callStateChanged 1 .SESSION_STATE_INCOMING), .event (.callIncoming 1 "caller" ""),
   .AcceptCall 0, .event (.callStateChanged 1 .SESSION_STATE_DISCONNECTED),
   .event (.timerElapsed 0 .ERELEASED)]

/-- Without automatic answering the list refines the table throughout. -/
theorem refines_iff_accepted : Throughout perform Refines (initial {}) acceptedRun := by
  refine (refines_iff {} rfl acceptedRun ⟨rfl, rfl, rfl, rfl, rfl, trivial⟩).mpr ?_
  refine ⟨trivial, ?_, trivial, trivial, trivial, trivial⟩
  rintro ⟨-, -, hauto, -⟩
  exact absurd hauto (by decide)

/-- Automatic answering is on. -/
def autoAnswer : Surroundings := { config := { AAFlag := true } }

/-- A single call. -/
def singleCall : List TamEvent :=
  [.event (.callStateChanged 1 .SESSION_STATE_INCOMING), .event (.callIncoming 1 "caller" "")]

/-- **The machine talks, and the application believes that it rings**: the report of the answer came
before the application knew the call. -/
theorem answered_but_ringing :
    Along perform (fun w e => w.permits e) (initial autoAnswer) singleCall ∧
      (((run perform (initial autoAnswer) singleCall).manager.machines 0).state = .Active ∧
        ((run perform (initial autoAnswer) singleCall).provider.objects 0).callState = .Ringing) ∧
      ¬ Refines (run perform (initial autoAnswer) singleCall) := by
  refine ⟨⟨rfl, rfl, trivial⟩, by decide, fun h => ?_⟩
  have hring := (h.states 0 (by decide) 0 (by decide)).1
  exact absurd hring (by decide)

end Exchange

end TAM
