import AnsweringMachine.Application.Provider
import AnsweringMachine.CallControl.Manager
import AnsweringMachine.Library.Runs

/-!
# Subscriptions of the provider

`Initialize` of the provider subscribes to events of the manager, the registrar and the call
wrapper, all of which are singletons or static, and has the manager subscribe to the events of the
stack; `Dispose` has the manager shut down.  An event is the list of its handlers: `+=` appends one,
`-=` takes the last occurrence of one away.

Of the eight events, `Shutdown` of the manager clears six (`Wired.disposed`).  The other two are
subscribed to by every initialization that gets that far, and nobody unsubscribes: `Wired` counts
their handlers, and `wired_once_iff` says for which sequences of operations nobody notices.
-/

namespace TAM

open Runs

/-- The events the provider listens to, by itself or through the manager. -/
inductive Wire
  | CallStateChanged | CallIncoming | CallNotification | CallReplaced
  | CallStateRefresh | IncomingCallNotification | AccountStateChanged | OnWavPlayerCompleted
  deriving DecidableEq, Repr

/-- The methods that are subscribed: of the manager, and of the provider. -/
inductive Handler
  | OnCallStateChanged | OnIncomingCall | OnCallNotification | OnCallReplaced
  | onCallStateChanged | resources_CallManager_IncomingCallNotification
  | resources_Registrar_AccountStateChanged | wavPlayerCompleted
  deriving DecidableEq, Repr

/-- What the provider throws. -/
structure CallProviderException where
  message : String
  deriving DecidableEq, Repr

/-- The handlers of each event, in the order of their subscription, and the state of the two classes
that subscribe: whether the provider has resources, and the manager. -/
structure Wiring where
  handlers : Wire → List Handler
  resources : Bool
  manager : CCallManager

namespace Wiring

/-- Before the first initialization. -/
def initial (around : Surroundings) : Wiring where
  handlers _ := []
  resources := false
  manager := { CCallManager.initial around with initialized := false }

/-! ## The code -/

/-- `+=`. -/
def subscribe (w : Wiring) (e : Wire) (h : Handler) : Wiring :=
  { w with handlers := Function.update w.handlers e (w.handlers e ++ [h]) }

/-- `-=`. -/
def unsubscribe (w : Wiring) (e : Wire) (h : Handler) : Wiring :=
  { w with handlers := Function.update w.handlers e ((w.handlers e).reverse.erase h).reverse }

/-- The assignment of `null`. -/
def clear (w : Wiring) (e : Wire) : Wiring :=
  { w with handlers := Function.update w.handlers e [] }

/-- `Initialize` of the manager, for the status the stack returns.  `CallReplaced` is subscribed to
whatever the status is. -/
def initializeManager (w : Wiring) (status : ℕ) : Wiring :=
  if w.manager.initialized then w
  else
    let w := w.subscribe .CallStateChanged .OnCallStateChanged
    let w := w.subscribe .CallIncoming .OnIncomingCall
    let w := w.subscribe .CallNotification .OnCallNotification
    let w := { w with manager := w.manager.Initialize status }
    w.subscribe .CallReplaced .OnCallReplaced

/-- `Shutdown` of the manager. -/
def shutdownManager (w : Wiring) : Wiring :=
  let w := { w with manager := w.manager.Shutdown }
  let w := w.clear .CallStateRefresh
  let w := w.clear .IncomingCallNotification
  let w := w.unsubscribe .CallStateChanged .OnCallStateChanged
  let w := w.unsubscribe .CallIncoming .OnIncomingCall
  let w := w.unsubscribe .CallNotification .OnCallNotification
  w.unsubscribe .CallReplaced .OnCallReplaced

/-- `Dispose` of the provider. -/
def Dispose (w : Wiring) : Wiring :=
  if w.resources then { w.shutdownManager with resources := false } else w

/-- `Initialize` of the provider, for the status the stack returns, and its exception: the state is
the one that it leaves behind. -/
def Initialize (w : Wiring) (status : ℕ) : Wiring × Option CallProviderException :=
  let w := if w.resources then w.Dispose else w
  let w := { w with resources := true }
  let w := w.subscribe .CallStateRefresh .onCallStateChanged
  let w := w.subscribe .IncomingCallNotification .resources_CallManager_IncomingCallNotification
  let w := w.subscribe .AccountStateChanged .resources_Registrar_AccountStateChanged
  let result := if w.manager.initialized then 0 else status
  let w := w.initializeManager status
  if result ≠ 0 then
    (w, some ⟨"Init SIP stack problem! \r\nPlease, check configuration and start again! " ++
      "\r\nStatus code " ++ toString result⟩)
  else (w.subscribe .OnWavPlayerCompleted .wavPlayerCompleted, none)

/-- What is done to the provider. -/
inductive Operation
  | Initialize (status : ℕ)
  | Dispose
  deriving DecidableEq, Repr

def perform (w : Wiring) : Operation → Wiring
  | .Initialize status => (w.Initialize status).1
  | .Dispose => w.Dispose

/-- The provider is initialized. -/
def ready (w : Wiring) : Bool := w.resources && w.manager.initialized

/-- The calls whose event is set when the end of a wav file is reported for an id: each handler
looks for the call by itself. -/
def signals (w : Wiring) (provider : SIPCallProvider) (callId : CallId) : List CallRef :=
  (w.handlers .OnWavPlayerCompleted).filterMap fun _ => provider.findCallById callId

/-- **Every event is handled once**: while the provider is initialized each event has one handler,
as long as it has no resources none has any, and no call is signalled twice. -/
structure WiredOnce (w : Wiring) : Prop where
  once : w.ready = true → ∀ e, (w.handlers e).length = 1
  unwired : w.resources = false → ∀ e, w.handlers e = []
  signalled : ∀ provider callId, (w.signals provider callId).length ≤ 1

/-! ## Counting -/

variable {w : Wiring} {n k : ℕ}

/-- The handler of each event. -/
def handlerOf : Wire → Handler
  | .CallStateChanged => .OnCallStateChanged
  | .CallIncoming => .OnIncomingCall
  | .CallNotification => .OnCallNotification
  | .CallReplaced => .OnCallReplaced
  | .CallStateRefresh => .onCallStateChanged
  | .IncomingCallNotification => .resources_CallManager_IncomingCallNotification
  | .AccountStateChanged => .resources_Registrar_AccountStateChanged
  | .OnWavPlayerCompleted => .wavPlayerCompleted

/-- How many subscriptions are live after `n` initializations, `k` of which were successful. -/
def live (resources : Bool) (n k : ℕ) : Wire → ℕ
  | .AccountStateChanged => n
  | .OnWavPlayerCompleted => k
  | _ => resources.toNat

/-- The state after `n` initializations, `k` of which were successful. -/
structure Wired (w : Wiring) (n k : ℕ) : Prop where
  handlers : ∀ e, w.handlers e = List.replicate (live w.resources n k e) (handlerOf e)
  idle : w.resources = false → w.manager.initialized = false
  le : k ≤ n

lemma wired_initial (around : Surroundings) : (initial around).Wired 0 0 where
  handlers e := by cases e <;> rfl
  idle _ := rfl
  le := le_rfl

/-- `Dispose` releases the events that the manager clears, and no others. -/
lemma Wired.disposed (h : w.Wired n k) : w.Dispose.Wired n k ∧ w.Dispose.resources = false := by
  cases hres : w.resources with
  | false =>
      rw [Dispose, hres]
      exact ⟨h, hres⟩
  | true =>
      simp only [Dispose, hres, if_true]
      refine ⟨⟨fun e => ?_, fun _ => rfl, h.le⟩, trivial⟩
      have hlist := h.handlers e
      rw [hres] at hlist
      cases e <;>
        simp [shutdownManager, clear, unsubscribe, Function.update, hlist, live, handlerOf]

/-- `Initialize` releases them first, and then subscribes to every event, to the last one only if
the stack could be started. -/
lemma Wired.initialized (h : w.Wired n k) (status : ℕ) :
    (w.Initialize status).1.Wired (n + 1) (if status = 0 then k + 1 else k) ∧
      (w.Initialize status).1.resources = true ∧
      ((w.Initialize status).1.ready = true ↔ status = 0) := by
  have hreleased : (if w.resources then w.Dispose else w).Wired n k ∧
      (if w.resources then w.Dispose else w).resources = false := by
    cases hres : w.resources with
    | false => exact ⟨h, hres⟩
    | true => exact h.disposed
  simp only [Initialize]
  generalize (if w.resources then w.Dispose else w) = v at hreleased
  obtain ⟨hv, hres⟩ := hreleased
  have hidle := hv.idle hres
  have hle := hv.le
  refine ⟨⟨fun e => ?_, ?_, ?_⟩, ?_, ?_⟩
  · have hlist := hv.handlers e
    rw [hres] at hlist
    by_cases hstatus : status = 0 <;> cases e <;>
      simp [initializeManager, subscribe, hidle, hstatus, Function.update, hlist, live, handlerOf,
        List.replicate_succ']
  · by_cases hstatus : status = 0 <;> simp [initializeManager, subscribe, hidle, hstatus]
  · split <;> omega
  · by_cases hstatus : status = 0 <;> simp [initializeManager, subscribe, hidle, hstatus]
  · by_cases hstatus : status = 0 <;>
      simp [initializeManager, subscribe, hidle, hstatus, ready, CCallManager.Initialize]

/-! ## Sequences of operations -/

/-- The operation is an initialization. -/
def Operation.initializes : Operation → Bool
  | .Initialize _ => true
  | .Dispose => false

/-- The operation is an initialization that fails. -/
def Operation.fails : Operation → Bool
  | .Initialize status => status ≠ 0
  | .Dispose => false

lemma Wired.perform (h : w.Wired n k) (op : Operation) : ∃ n k, (w.perform op).Wired n k := by
  cases op with
  | Initialize status => exact ⟨_, _, (h.initialized status).1⟩
  | Dispose => exact ⟨_, _, h.disposed.1⟩

/-- Only one initialization has been noticed so far, if any. -/
def Fresh (w : Wiring) : Prop :=
  ∃ n k, w.Wired n k ∧ k ≤ 1 ∧ (w.resources = true ↔ 0 < n) ∧ (w.ready = true → n = 1 ∧ k = 1)

lemma fresh_initial (around : Surroundings) : (initial around).Fresh :=
  ⟨0, 0, wired_initial around, by simp, by simp [initial], by simp [initial, ready]⟩

lemma Fresh.wiredOnce (h : w.Fresh) : w.WiredOnce := by
  obtain ⟨n, k, hw, hk, hn, hready⟩ := h
  refine ⟨fun hr e => ?_, fun hres e => ?_, fun provider callId => ?_⟩
  · obtain ⟨rfl, rfl⟩ := hready hr
    have hres : w.resources = true := hn.mpr Nat.one_pos
    rw [hw.handlers, List.length_replicate, hres]
    cases e <;> rfl
  · have hzero : n = 0 ∧ k = 0 := by
      have hle := hw.le
      simp only [hres, Bool.false_eq_true, false_iff] at hn
      omega
    obtain ⟨rfl, rfl⟩ := hzero
    rw [hw.handlers, hres]
    cases e <;> rfl
  · calc (w.signals provider callId).length
      _ ≤ (w.handlers .OnWavPlayerCompleted).length := List.length_filterMap_le _ _
      _ = k := by rw [hw.handlers, List.length_replicate, live]
      _ ≤ 1 := hk

lemma Fresh.perform {op : Operation} (h : w.Fresh) (hop : w.resources = true → op.fails = true) :
    (w.perform op).Fresh := by
  cases op with
  | Dispose =>
      have hres : w.resources = false := by simpa [Operation.fails] using hop
      rwa [Wiring.perform, Dispose, hres]
  | Initialize status =>
      obtain ⟨n, k, hw, hk, hn, -⟩ := h
      obtain ⟨hw', hres', hready'⟩ := hw.initialized status
      -- a successful one is the first of all
      have hfirst : status = 0 → n = 0 ∧ k = 0 := by
        intro hstatus
        have hres : w.resources = false := by simpa [Operation.fails, hstatus] using hop
        have hle := hw.le
        simp only [hres, Bool.false_eq_true, false_iff] at hn
        omega
      refine ⟨_, _, hw', ?_, by simp [Wiring.perform, hres'], fun hr => ?_⟩
      · split <;> omega
      · have hstatus : status = 0 := hready'.mp hr
        simp [hstatus, hfirst hstatus]

/-- The steps that are not covered by `Fresh.perform` are noticed. -/
lemma Fresh.not_wiredOnce_perform {op : Operation} (h : w.Fresh)
    (hop : ¬ (w.resources = true → op.fails = true)) : ¬ (w.perform op).WiredOnce := by
  obtain ⟨n, k, hw, -, hn, -⟩ := h
  obtain ⟨hres, hfails⟩ := Classical.not_imp.mp hop
  have hpos : 0 < n := hn.mp hres
  intro honce
  cases op with
  | Dispose =>
      obtain ⟨hw', hres'⟩ := hw.disposed
      have hnone := honce.unwired hres' .AccountStateChanged
      rw [Wiring.perform, hw'.handlers, live, List.replicate_eq_nil_iff] at hnone
      omega
  | Initialize status =>
      obtain ⟨hw', -, hready'⟩ := hw.initialized status
      have hstatus : status = 0 := by simpa [Operation.fails] using hfails
      have hone := honce.once (hready'.mpr hstatus) .AccountStateChanged
      rw [Wiring.perform, hw'.handlers, live, List.length_replicate] at hone
      omega

/-- Once there are resources, only failures may follow: each leaves resources behind. -/
lemma along_iff_of_resources {ops : List Operation} (hw : w.Wired n k) (hres : w.resources = true) :
    Along perform (fun w op => w.resources = true → op.fails = true) w ops ↔
      ∀ op ∈ ops, op.fails = true := by
  induction ops generalizing w n k with
  | nil => simp [Along]
  | cons op ops ih =>
      simp only [Along, hres, forall_true_left, List.forall_mem_cons, and_congr_right_iff]
      intro hop
      cases op with
      | Dispose => cases hop
      | Initialize status =>
          obtain ⟨hw', hres', -⟩ := hw.initialized status
          exact ih hw' hres'

lemma along_iff_pairwise {ops : List Operation} (hw : w.Wired n k) (hres : w.resources = false) :
    Along perform (fun w op => w.resources = true → op.fails = true) w ops ↔
      ops.Pairwise fun a b => a.initializes = true → b.fails = true := by
  induction ops with
  | nil => simp [Along]
  | cons op ops ih =>
      simp only [Along, hres, Bool.false_eq_true, false_imp_iff, true_and, List.pairwise_cons]
      cases op with
      | Dispose =>
          have hsame : w.perform .Dispose = w := by rw [Wiring.perform, Dispose, hres]; rfl
          simpa [hsame, Operation.initializes] using ih
      | Initialize status =>
          obtain ⟨hw', hres', -⟩ := hw.initialized status
          rw [Wiring.perform, along_iff_of_resources hw' hres']
          simp only [Operation.initializes, forall_true_left, iff_self_and]
          exact fun hops => List.pairwise_of_forall_mem_list fun _ _ b hb _ => hops b hb

/-- The events that the manager clears are handled once, after every sequence of operations.  All
eight are, throughout the sequence, exactly if every initialization but the first fails and nothing
is disposed of after the first: the handlers of the account states and of the ends of wav files stay
subscribed. -/
theorem wired_once_iff (around : Surroundings) (ops : List Operation) :
    Throughout perform (fun w => ∀ e, e ≠ .AccountStateChanged → e ≠ .OnWavPlayerCompleted →
        w.handlers e = if w.resources then [handlerOf e] else []) (initial around) ops ∧
      (Throughout perform WiredOnce (initial around) ops ↔
        ops.Pairwise fun a b => a.initializes = true → b.fails = true) := by
  constructor
  · refine throughout_of_along (J := fun w => ∃ n k, w.Wired n k)
      (fun w op ⟨n, k, hw⟩ _ => hw.perform op) ?_ ⟨0, 0, wired_initial around⟩ (along_true _ ops)
    rintro w ⟨n, k, hw⟩ e haccount hwav
    rw [hw.handlers]
    cases w.resources <;> cases e <;> first | rfl | contradiction
  · rw [throughout_iff_along (J := Fresh) (fun _ _ _ h hop => h.perform hop)
      (fun _ h => h.wiredOnce) (fun _ _ _ h hop => h.not_wiredOnce_perform hop)
      (fresh_initial around) (along_true _ ops)]
    exact along_iff_pairwise (wired_initial around) rfl

/-- A provider that is initialized twice sets the event of a call twice for one file, and one that
has been disposed of still listens. -/
theorem wired_twice :
    (run perform (initial {}) [.Initialize 0, .Initialize 0]).signals
        (SIPCallProvider.initial.resources_CallManager_IncomingCallNotification 5) 5 = [0, 0] ∧
      (run perform (initial {}) [.Initialize 0, .Dispose]).handlers .AccountStateChanged =
        [.resources_Registrar_AccountStateChanged] ∧
      ¬ (run perform (initial {}) [.Initialize 0, .Initialize 0]).WiredOnce ∧
      ¬ (run perform (initial {}) [.Initialize 0, .Dispose]).WiredOnce := by
  refine ⟨by decide, by decide, fun h => ?_, fun h => ?_⟩
  · exact absurd (h.once (by decide) .OnWavPlayerCompleted) (by decide)
  · exact absurd (h.unwired (by decide) .AccountStateChanged) (by decide)

end Wiring

end TAM
