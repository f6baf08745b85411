import AnsweringMachine.Application.Isolation
import AnsweringMachine.Application.Refinement

/-!
# A call that gets another id

When the stack replaces a session, the manager renames the machine and its entry in the table, but
nobody tells the application: its call keeps the old id.  From then on it hears of whatever the old
id is used for, and its operations go to the old id.

`KeepsHandle` says what one would want of the call and its machine afterwards.  `keepsHandle_iff`
says that no call of the application has it: a new call under the old id is enough to spoil it,
whatever state the renamed call is in.
-/

namespace TAM

open Runs

namespace CCallManager

/-- With all services off, an idle call rings when its caller is delivered. -/
lemma onIncomingCall_rings {m : CCallManager} {k : CallId} {n : MachineRef} (hw : m.WellFormed)
    (hk : m.calls.get? k = some n) (hidle : (m.machines n).state = .Idle)
    (hconf : m.around.config = {}) :
    (m.onIncomingCall k "" "").calls.get? k = some n ∧
      ((m.onIncomingCall k "" "").machines n).state = .Incoming ∧
      Reports m (m.onIncomingCall k "" "")
        [.CallStateRefresh k .INCOMING, .IncomingCallNotification k "" ""] := by
  have hl := hw.listed hk
  have hoff : ServicesOff m.around.config := by
    rw [hconf]
    decide
  have he := incomingCall_effect m n "" ""
  rw [hconf, hidle, show reactIncoming {} m.calls.count .Idle = .goto .Incoming by
    simp [reactIncoming]] at he
  have hout := hl.incomingCall_out hidle "" "" hoff
  rw [if_neg (by simp [hconf])] at hout
  have hl' := hl.effect he (by simp)
  have heq : m.onIncomingCall k "" "" =
      (m.incomingCall n "" "").emit (.raise (.IncomingCallNotification k "" "")) := by
    simp [onIncomingCall, hk, hl'.audible]
  rw [heq, emit_calls, emit_machines]
  refine ⟨hl'.key, he.state, ?_⟩
  simp [Reports, hout, notifications]

end CCallManager

namespace Exchange

variable {w w' : Exchange} {r : MachineRef} {c : CallRef} {old new : CallId}

/-- The state of a call that a state of its machine is copied to. -/
def copied : IAbstractState → Option CallState
  | .Incoming => some .Ringing
  | .Active => some .Connected
  | .Released => some .HangUp
  | .Terminated | .Idle => some .Disconnected
  | .Connecting | .Alerting | .Holding => none

/-- In a step, the call of the application follows the machine: a change of the state of the machine
is copied, and nothing is written while the machine is left alone. -/
structure Follows (r : MachineRef) (c : CallRef) (w w' : Exchange) : Prop where
  reflected : (w'.manager.machines r).state ≠ (w.manager.machines r).state →
    ∀ x, copied (w'.manager.machines r).state = some x → (w'.provider.objects c).callState = x
  own : w'.manager.machines r = w.manager.machines r →
    (w'.provider.objects c).callState = (w.provider.objects c).callState

/-- `Hangup` ends the conversation of the machine. -/
def HangsUp (r : MachineRef) (c : CallRef) (w : Exchange) : Prop :=
  (w.manager.machines r).state = .Active ∨ (w.manager.machines r).state = .Holding →
    ((w.perform (.Hangup c)).manager.machines r).state = .Terminated

/-- The call of the application is the handle of the machine, whatever comes. -/
def KeepsHandle (r : MachineRef) (c : CallRef) (w : Exchange) : Prop :=
  ∀ later : List TamEvent,
    Along perform (fun w e => Follows r c w (w.perform e)) w later ∧
      Throughout perform (HangsUp r c) w later

/-! ## What holds of every state -/

/-- The table is well formed, timers start, and the calls in the list have been created. -/
structure Fit (w : Exchange) : Prop where
  wellFormed : w.manager.WellFormed
  timers : w.manager.around.factory.timersRun = true
  created : ∀ c ∈ w.provider.calls, c < w.provider.created

lemma Fit.tell (h : w.Fit) (e : CCallManager.Event) : (w.tell e).Fit where
  wellFormed := CCallManager.stepWith_wellFormed [] h.wellFormed e
  timers := by
    rw [← h.timers]
    exact congrArg _ (CCallManager.handle_factory [] h.wellFormed.cleared e)
  created := SIPCallProvider.created_foldl _ h.created

lemma Fit.perform (h : w.Fit) (e : TamEvent) : (w.perform e).Fit := by
  cases e with
  | event e => exact h.tell e
  | AcceptCall c =>
      simp only [Exchange.perform]
      split
      · exact h
      · exact h.tell _
  | Hangup c =>
      simp only [Exchange.perform]
      split
      · exact ⟨h.wellFormed, h.timers, h.created⟩
      · have ht := h.tell (.onUserRelease ‹_›)
        exact ⟨ht.wellFormed, ht.timers, ht.created⟩

lemma run_fit (config : IConfigurator) (events : List TamEvent) :
    (run perform (initial { config := config }) events).Fit :=
  run_of_step (fun _ e h => h.perform e)
    ⟨CCallManager.WellFormed.initial _, rfl, by simp [initial, SIPCallProvider.initial]⟩ events

/-! ## A new call under the old id -/

/-- A call is announced under an id, delivered while all services are off, and given up. -/
def intruder (x : Surroundings) (k : CallId) : List TamEvent :=
  [.event (.surroundings { x with config := {} }),
    .event (.callStateChanged k .SESSION_STATE_INCOMING), .event (.callIncoming k "" ""),
    .event (.callStateChanged k .SESSION_STATE_DISCONNECTED)]

/-- A call that is announced under a free id is in the table, idle, and nobody is told. -/
lemma tell_announced {k : CallId} (hk : w.manager.calls.get? k = none) :
    ∃ n, (w.tell (.callStateChanged k .SESSION_STATE_INCOMING)).manager.calls.get? k = some n ∧
      ((w.tell (.callStateChanged k .SESSION_STATE_INCOMING)).manager.machines n).state = .Idle ∧
      (w.tell (.callStateChanged k .SESSION_STATE_INCOMING)).manager.around = w.manager.around ∧
      (w.tell (.callStateChanged k .SESSION_STATE_INCOMING)).provider = w.provider := by
  obtain ⟨old, hold, -⟩ | ⟨-, d, hd, he⟩ :=
    CCallManager.incoming_cases { w.manager with out := [] } k
  · exact absurd (hold.symm.trans hk) (by simp)
  have hm : (w.tell (.callStateChanged k .SESSION_STATE_INCOMING)).manager =
      { CCallManager.announced { w.manager with out := [] } k with calls := d } := he
  have hp : (w.tell (.callStateChanged k .SESSION_STATE_INCOMING)).provider =
      (notifications (w.tell (.callStateChanged k .SESSION_STATE_INCOMING)).manager.out).foldl
        SIPCallProvider.notify w.provider := rfl
  rw [hp, hm]
  exact ⟨w.manager.created, by simp [Dictionary.get?_of_add? hd],
    by simp [CCallManager.announced, CCallManager.createStateMachine, CStateMachine.create],
    rfl, rfl⟩

/-- Its delivery is written to whatever call has the id first. -/
lemma tell_delivered {k : CallId} {n : MachineRef} (h : w.Fit)
    (hk : w.manager.calls.get? k = some n) (hidle : (w.manager.machines n).state = .Idle)
    (hconf : w.manager.around.config = {}) (hc : w.provider.findCallById k = some c) :
    (w.tell (.callIncoming k "" "")).manager.calls.get? k = some n ∧
      ((w.tell (.callIncoming k "" "")).manager.machines n).state = .Incoming ∧
      (w.tell (.callIncoming k "" "")).provider.findCallById k = some c ∧
      ((w.tell (.callIncoming k "" "")).provider.objects c).callState = .Ringing := by
  obtain ⟨hkey, hst, hout⟩ := CCallManager.onIncomingCall_rings h.wellFormed.cleared hk hidle hconf
  have hp : (w.tell (.callIncoming k "" "")).provider =
      (w.provider.setCallState c .Ringing).resources_CallManager_IncomingCallNotification k := by
    have hout' : notifications (w.manager.step (.callIncoming k "" "")).out =
        [.CallStateRefresh k .INCOMING, .IncomingCallNotification k "" ""] := by
      simpa [CCallManager.Reports, CCallManager.step, CCallManager.stepWith,
        CCallManager.handle] using hout
    simp [tell, hout', SIPCallProvider.notify, SIPCallProvider.onCallStateChanged, hc]
  have hcreated : ∀ d ∈ (w.provider.setCallState c .Ringing).calls,
      d < (w.provider.setCallState c .Ringing).created := h.created
  have hm : (w.tell (.callIncoming k "" "")).manager =
      CCallManager.onIncomingCall { w.manager with out := [] } k "" "" := rfl
  rw [hp, hm]
  refine ⟨hkey, hst, ?_, ?_⟩
  · rw [SIPCallProvider.findCallById_incoming hcreated, SIPCallProvider.findCallById_setCallState,
      hc, Option.some_or]
  · rw [SIPCallProvider.incoming_objects k (hcreated c (SIPCallProvider.findCallById_eq_some hc).1)]
    simp [SIPCallProvider.setCallState]

/-- Its end too. -/
lemma tell_disconnected {k : CallId} {n : MachineRef} (h : w.Fit)
    (hk : w.manager.calls.get? k = some n) (hin : (w.manager.machines n).state = .Incoming)
    (hc : w.provider.findCallById k = some c) :
    ((w.tell (.callStateChanged k .SESSION_STATE_DISCONNECTED)).provider.objects c).callState =
      .HangUp := by
  have hl := h.wellFormed.cleared.listed (k := k) (r := n) hk
  have hrep := hl.onReleased_reports h.timers
  rw [show (CCallManager.machines { w.manager with out := [] } n).state = .Incoming from hin,
    show react w.manager.around.factory .onReleased .Incoming = .goto .Released by
      simp [react, ending, h.timers]] at hrep
  have hout : notifications (w.manager.step (.callStateChanged k .SESSION_STATE_DISCONNECTED)).out =
      [.CallStateRefresh k .RELEASED] := by
    simpa [CCallManager.step, CCallManager.stepWith, CCallManager.handle,
      CCallManager.onCallStateChanged, hk, CCallManager.Reports, Outcome.report,
      IAbstractState.id] using hrep
  simp [tell, hout, SIPCallProvider.notify, SIPCallProvider.onCallStateChanged, hc,
    SIPCallProvider.setCallState]

lemma along_event {ok : Exchange → Exchange → Prop} {e : CCallManager.Event}
    {es : List TamEvent} : Along perform (fun w e => ok w (w.perform e)) w (.event e :: es) ↔
      ok w (w.tell e) ∧ Along perform (fun w e => ok w (w.perform e)) (w.tell e) es := Iff.rfl

/-- **A new call under the id of a call of the application is written to that call**, while the
machine it was made for is left alone. -/
lemma intruder_intrudes (h : w.Fit) (hfree : w.manager.calls.get? old = none)
    (hr : w.manager.calls.get? new = some r) (hc : w.provider.findCallById old = some c) :
    ¬ Along perform (fun w e => Follows r c w (w.perform e)) w
      (intruder w.manager.around old) := by
  have hne : new ≠ old := by
    rintro rfl
    exact absurd (hfree.symm.trans hr) (by simp)
  rw [intruder, along_event, along_event, along_event, along_event]
  rintro ⟨-, -, -, hlast, -⟩
  -- three events later the new call rings, and the old entries of the table are still there
  have h₁ := h.tell (.surroundings { w.manager.around with config := {} })
  set w₁ := w.tell (.surroundings { w.manager.around with config := {} })
  have hfree₁ : w₁.manager.calls.get? old = none := hfree
  obtain ⟨n, hn, hidle, haround, hp⟩ := tell_announced hfree₁
  have h₂ := h₁.tell (.callStateChanged old .SESSION_STATE_INCOMING)
  have happ₂ := CCallManager.handle_apart h₁.wellFormed.cleared []
    (e := .callStateChanged old .SESSION_STATE_INCOMING) (k := old) rfl
  set w₂ := w₁.tell (.callStateChanged old .SESSION_STATE_INCOMING)
  have hc₂ : w₂.provider.findCallById old = some c := by
    rw [hp]
    exact hc
  obtain ⟨hn₃, hin, hc₃, hring⟩ := tell_delivered h₂ hn hidle (by rw [haround]; rfl) hc₂
  have h₃ := h₂.tell (.callIncoming old "" "")
  have happ₃ := CCallManager.handle_apart h₂.wellFormed.cleared []
    (e := .callIncoming old "" "") (k := old) rfl
  set w₃ := w₂.tell (.callIncoming old "" "")
  have hr₃ : w₃.manager.calls.get? new = some r :=
    (happ₃.entries new hne).trans ((happ₂.entries new hne).trans hr)
  -- it is given up: this is written to the old call, and the machine does not move
  have happ₄ := CCallManager.handle_apart h₃.wellFormed.cleared []
    (e := .callStateChanged old .SESSION_STATE_DISCONNECTED) (k := old) rfl
  have hover := tell_disconnected h₃ hn₃ hin hc₃
  have hsame : ((w₃.tell (.callStateChanged old .SESSION_STATE_DISCONNECTED)).provider.objects
      c).callState = (w₃.provider.objects c).callState :=
    hlast.own (happ₄.records new hne r hr₃)
  exact absurd (hover.symm.trans (hsame.trans hring)) (by decide)

/-- **A call that gets another id loses its handle.**  In every state the program can reach, if the
stack replaces the id of a call by one that is free: the application keeps a handle of the call only
if it has none. -/
theorem keepsHandle_iff (config : IConfigurator) (events : List TamEvent)
    (hold : (run perform (initial { config := config }) events).manager.calls.get? old = some r)
    (hnew : (run perform (initial { config := config }) events).manager.calls.get? new = none) :
    let w := run perform (initial { config := config }) events
    (∀ c, w.provider.findCallById old = some c →
      KeepsHandle r c (w.perform (.event (.callReplaced old new)))) ↔
    w.provider.findCallById old = none := by
  intro w
  have hne : new ≠ old := by
    rintro rfl
    exact absurd (hnew.symm.trans hold) (by simp)
  constructor
  · intro hkeeps
    by_contra hfound
    obtain ⟨c, hc⟩ := Option.ne_none_iff_exists'.mp hfound
    have hfit : w.Fit := run_fit config events
    have hfit' := hfit.perform (.event (.callReplaced old new))
    obtain ⟨hnone, -⟩ | ⟨call, d, hcall, heq, hd⟩ :=
      CCallManager.replaced_cases { w.manager with out := [] } old new
    · exact absurd (hnone.symm.trans hold) (by simp)
    obtain rfl : call = r := Option.some.inj (hcall.symm.trans hold)
    have hm : (w.perform (.event (.callReplaced old new))).manager =
        { CCallManager.modify { w.manager with out := [] } call
            (fun c => { c with session := some new }) with calls := d } := heq
    have hp : (w.perform (.event (.callReplaced old new))).provider = w.provider := by
      change (notifications (w.perform (.event (.callReplaced old new))).manager.out).foldl _ _ = _
      rw [hm]
      rfl
    have hfree : (w.perform (.event (.callReplaced old new))).manager.calls.get? old = none := by
      rw [hm]
      exact (hd old).trans (by rw [if_neg (fun h => hne h.1.symm), if_pos rfl])
    have hmoved : (w.perform (.event (.callReplaced old new))).manager.calls.get? new =
        some call := by
      rw [hm]
      exact (hd new).trans (if_pos ⟨rfl, .inr hnew⟩)
    have hkept :
        (w.perform (.event (.callReplaced old new))).provider.findCallById old = some c := by
      rw [hp]
      exact hc
    exact intruder_intrudes hfit' hfree hmoved hkept (hkeeps c hc _).1
  · intro hnone c hc
    exact absurd (hnone.symm.trans hc) (by simp)

/-- A call that the application has accepted. -/
def talkingRun : List TamEvent :=
  [.event (.callStateChanged 1 .SESSION_STATE_INCOMING), .event (.callIncoming 1 "100" "Ann"),
    .AcceptCall 0]

/-- The accepted call loses its handle. -/
theorem keepsHandle_iff_talking :
    ¬ ∀ c, (run perform (initial {}) talkingRun).provider.findCallById 1 = some c →
      KeepsHandle 0 c ((run perform (initial {}) talkingRun).perform
        (.event (.callReplaced 1 7))) :=
  (keepsHandle_iff {} talkingRun (show _ = some 0 by decide +kernel)
    (show _ = none by decide +kernel)).not.mpr (by decide +kernel)

/-- **The caller talks on after `Hangup`**: the release goes to the old id, which nobody has.  And
when the caller hangs up, the application believes that the call is connected. -/
theorem talking_after_hangup :
    let w := (run perform (initial {}) talkingRun).perform (.event (.callReplaced 1 7))
    let w' := w.perform (.event (.callStateChanged 7 .SESSION_STATE_DISCONNECTED))
    (((w.perform (.Hangup 0)).manager.machines 0).state = .Active ∧
      (w'.manager.machines 0).state = .Released ∧
      (w'.provider.objects 0).callState = .Connected) ∧
    ¬ KeepsHandle 0 0 w := by
  refine ⟨by decide +kernel, fun hkeeps => ?_⟩
  have hhangs : HangsUp 0 0
      ((run perform (initial {}) talkingRun).perform (.event (.callReplaced 1 7))) := (hkeeps []).2
  exact absurd (hhangs (.inl (by decide +kernel))) (by decide +kernel)

end Exchange

end TAM
