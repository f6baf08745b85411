import AnsweringMachine.CallControl.Conversation
import AnsweringMachine.CallControl.Handlers
import AnsweringMachine.CallControl.Reports

/-!
# Taking in a new call

The stack announces a new call by two events: its session is `INCOMING`, and then its caller is
delivered.  The first creates a machine and lists it; the second makes it ring and notifies the
application.  A call that the far end ended stays in the table until its release timer expires,
while its id is free again for the stack.  A new call with that id makes the manager end the old one
and drop the new one.

`takenIn_iff` says that this is all that can go wrong, as long as no service turns calls away: a run
takes in every announced call, with one notification and without an `endCall`, if and only if each
one finds its id free in the table and its machine still there when the caller is delivered.
`swallowed_after_release` is a run of two calls in a row of which the second is lost.
-/

namespace TAM

namespace CCallManager

open Dictionary Runs

variable {m m' m'' : CCallManager} {r : MachineRef} {k : CallId}

/-! ## Ending the old call -/

/-- Outputs are never taken back. -/
def Grows (m m' : CCallManager) : Prop := m.out <+: m'.out

lemma Grows.refl (m : CCallManager) : Grows m m := List.prefix_refl _

lemma Grows.trans (h : Grows m m') (h' : Grows m' m'') : Grows m m'' := List.IsPrefix.trans h h'

lemma emit_grows (m : CCallManager) (x : Output) : Grows m (m.emit x) := List.prefix_append _ _

/-- A handler only appends to the output. -/
lemma Grows.keptByHandlers (r : MachineRef) (m : CCallManager) : KeptByHandlers r (Grows m) where
  assign h _ := h
  utter h _ := h.trans (emit_grows _ _)
  leave h _ := h

/-- **`endCall` always asks the stack to end the call.** -/
lemma endCall_sends (m : CCallManager) (r : MachineRef) :
    .request (m.machines r).session .endCall ∈ (m.endCall r).out := by
  -- the request comes last, under the session the machine still has
  have hlast : ∀ m' : CCallManager, (m'.machines r).session = (m.machines r).session →
      .request (m.machines r).session .endCall ∈ (m'.request r .endCall).out := by
    intro m' h
    simp [request, h]
  -- or it comes first
  have hfirst : ∀ m' : CCallManager, Grows (m.request r .endCall) m' →
      .request (m.machines r).session .endCall ∈ m'.out :=
    fun m' h => h.subset (by simp [request])
  have hterm : ∀ m' : CCallManager, (m'.machines r).session = (m.machines r).session →
      .request (m.machines r).session .endCall ∈
        ((m'.changeState r .Terminated).request r .endCall).out :=
    fun m' h => hlast _ ((changeStateEnding_effect m' r .Terminated).session.trans h)
  simp only [endCall]
  cases (m.machines r).state
  case Idle => exact hlast _ (destroy_effect m r).session
  case Released => exact hfirst _ ((Grows.keptByHandlers r _).destroy (.refl _))
  case Terminated => exact hlast m rfl
  case Holding =>
    exact hfirst _ ((Grows.keptByHandlers r _).changeStateEnding (.refl _) .Terminated)
  case Active => exact hterm _ (by simp)
  all_goals exact hterm m rfl

/-! ## The two events of a new call -/

/-- A new call whose id is free is listed, and nothing is sent. -/
lemma incoming_of_free (a : List Arrival) (h : m.calls.get? k = none) :
    (m.stepWith a (.callStateChanged k .SESSION_STATE_INCOMING)).out = [] := by
  rcases incoming_cases { m with out := [] } k with ⟨old, hk, -⟩ | ⟨-, d, -, he⟩
  · have hk : m.calls.get? k = some old := hk
    rw [h] at hk
    simp at hk
  · change (onCallStateChanged { m with out := [] } k .SESSION_STATE_INCOMING).out = []
    rw [he]
    rfl

/-- A new call whose id is taken makes the stack end it. -/
lemma incoming_of_taken (hw : m.WellFormed) (a : List Arrival) (h : m.calls.get? k ≠ none) :
    .request (some k) .endCall ∈
      (m.stepWith a (.callStateChanged k .SESSION_STATE_INCOMING)).out := by
  obtain ⟨old, hold⟩ := Option.ne_none_iff_exists'.mp h
  have hses : ((announced { m with out := [] } k).machines old).session = some k := by
    rw [announced_of_ne (m := { m with out := [] }) k (ne_of_lt (hw.created k old hold))]
    exact hw.session k old hold
  have hsend := endCall_sends (announced { m with out := [] } k) old
  rw [hses] at hsend
  rw [stepWith, handle, incoming_eq_endCall (m := { m with out := [] }) hold]
  exact hsend

/-- Is it the notification of a new call under this id? -/
def Notification.announces (k : CallId) : Notification → Bool
  | .IncomingCallNotification j _ _ => j = k
  | _ => false

/-- **The caller of a listed call is delivered**: the table stays, the application gets one
notification, and the stack no `endCall`. -/
lemma callIncoming_of_listed (hw : m.WellFormed) (hoff : ServicesOff m.around.config)
    (a : List Arrival) (number info : String) (hk : m.calls.get? k = some r) :
    (notifications (m.stepWith a (.callIncoming k number info)).out).countP
        (Notification.announces k) = 1 ∧
      (m.stepWith a (.callIncoming k number info)).calls = m.calls ∧
      .request (some k) .endCall ∉ (m.stepWith a (.callIncoming k number info)).out := by
  set m₀ : CCallManager := { m with out := [] } with hm₀
  have hl : Listed m₀ k r := ⟨hk, hw.session k r hk, hw.audible k r hk⟩
  have he := incomingCall_effect m₀ r number info
  have hgone := ServicesOff.ne_gone hoff m₀.calls.count
    (m₀.machines r).state
  have hl' := hl.effect he hgone
  have hstep : m.stepWith a (.callIncoming k number info) =
      (m₀.incomingCall r number info).emit (.raise (.IncomingCallNotification k number info)) := by
    simp only [stepWith, handle, onIncomingCall, hk]
    simp [← hm₀, hl'.audible]
  have hcalls : (m₀.incomingCall r number info).calls = m.calls := by
    rw [he.calls]
    cases ho : reactIncoming m₀.around.config m₀.calls.count (m₀.machines r).state with
    | stay => exact Outcome.stay_table _ _
    | goto st => exact Outcome.goto_table _ _ _
    | gone => exact absurd ho hgone
  have hout : (notifications (m₀.incomingCall r number info).out).countP
      (Notification.announces k) = 0 ∧
      .request (some k) .endCall ∉ (m₀.incomingCall r number info).out := by
    by_cases hst : (m₀.machines r).state = .Idle
    · rw [hl.incomingCall_out hst number info hoff]
      split_ifs <;> simp [hm₀, notifications, Notification.announces]
    · rw [incomingCall_of_delivered hst]
      simp [hm₀]
  rw [hstep]
  refine ⟨?_, hcalls, ?_⟩
  · simp [hout.1, Notification.announces]
  · simpa using hout.2

/-! ## The runs -/

/-- A manager, and for each id the machine that was created when the id was last announced, until
the caller is delivered. -/
structure Announcing where
  manager : CCallManager
  announced : CallId → Option MachineRef

/-- One event of the manager, with the announcements noted. -/
def Announcing.perform (w : Announcing) (l : List Arrival × Event) : Announcing where
  manager := w.manager.perform l
  announced := match l.2 with
    | .callStateChanged k .SESSION_STATE_INCOMING =>
        Function.update w.announced k (some w.manager.created)
    | .callIncoming k _ _ => Function.update w.announced k none
    | _ => w.announced

def Announcing.initial (around : Surroundings) : Announcing :=
  ⟨CCallManager.initial around, fun _ => none⟩

/-- What the two events of a new call have to do: the first sends no `endCall` and notifies nobody;
the second notifies once, leaves the new machine in the table, and sends no `endCall`. -/
def TakenIn (w : Announcing) (l : List Arrival × Event) : Prop :=
  match l.2 with
  | .callStateChanged k .SESSION_STATE_INCOMING =>
      .request (some k) .endCall ∉ (w.manager.perform l).out ∧
      (notifications (w.manager.perform l).out).countP (Notification.announces k) = 0
  | .callIncoming k _ _ => ∀ r, w.announced k = some r →
      (notifications (w.manager.perform l).out).countP (Notification.announces k) = 1 ∧
      (w.manager.perform l).calls.get? k = some r ∧
      .request (some k) .endCall ∉ (w.manager.perform l).out
  | _ => True

/-- The id of a new call is not in the table, and when its caller is delivered, its machine is. -/
def FindsRoom (w : Announcing) (l : List Arrival × Event) : Prop :=
  match l.2 with
  | .callStateChanged k .SESSION_STATE_INCOMING => w.manager.calls.get? k = none
  | .callIncoming k _ _ => ∀ r, w.announced k = some r → w.manager.calls.get? k = some r
  | _ => True

/-- The configuration that the event brings, if any, has the services off. -/
def Event.keepsServicesOff : Event → Bool
  | .surroundings a => decide (ServicesOff a.config)
  | _ => true

/-- A well-formed table, and no service to turn calls away. -/
structure TakingIn (w : Announcing) : Prop where
  wellFormed : w.manager.WellFormed
  servicesOff : ServicesOff w.manager.around.config

lemma takenIn_step_iff {w : Announcing} (h : TakingIn w) (l : List Arrival × Event) :
    TakenIn w l ↔ FindsRoom w l := by
  obtain ⟨a, e⟩ := l
  simp only [TakenIn, FindsRoom, perform]
  split
  · rename_i k
    constructor
    · intro htaken
      by_contra hk
      exact htaken.1 (incoming_of_taken h.wellFormed a hk)
    · intro hk
      rw [incoming_of_free a hk]
      simp
  · rename_i k number info
    constructor
    · intro htaken r hr
      obtain ⟨-, hcalls, -⟩ := htaken r hr
      -- the table is as before, so the machine was there
      cases hk : w.manager.calls.get? k with
      | none =>
          have hstep : w.manager.stepWith a (.callIncoming k number info) =
              { w.manager with out := [] } := by
            simp only [stepWith, handle, onIncomingCall, hk]
          rw [hstep] at hcalls
          exact hk ▸ hcalls
      | some r' =>
          obtain ⟨-, hsame, -⟩ := callIncoming_of_listed h.wellFormed h.servicesOff a number info hk
          rw [hsame, hk] at hcalls
          exact hcalls
    · intro hroom r hr
      have hk := hroom r hr
      obtain ⟨hone, hsame, hsend⟩ :=
        callIncoming_of_listed h.wellFormed h.servicesOff a number info hk
      exact ⟨hone, by rw [hsame, hk], hsend⟩
  · exact Iff.rfl

lemma Announcing.perform_takingIn {w : Announcing} (h : TakingIn w) (l : List Arrival × Event)
    (hl : l.2.keepsServicesOff) : TakingIn (w.perform l) := by
  obtain ⟨a, e⟩ := l
  refine ⟨stepWith_wellFormed a h.wellFormed e, ?_⟩
  change ServicesOff (handle a { w.manager with out := [] } e).around.config
  by_cases he : ∃ x, e = .surroundings x
  · obtain ⟨x, rfl⟩ := he
    exact of_decide_eq_true hl
  · rw [handle_around a h.wellFormed.cleared (not_exists.mp he)]
    exact h.servicesOff

/-- **A run takes in every announced call** if and only if each finds its id free in the table, and
its machine still there when the caller is delivered.  The services that turn calls away are off. -/
theorem takenIn_iff (around : Surroundings) (hoff : ServicesOff around.config)
    (run : List (List Arrival × Event)) (hrun : ∀ l ∈ run, l.2.keepsServicesOff) :
    Along Announcing.perform TakenIn (Announcing.initial around) run ↔
      Along Announcing.perform FindsRoom (Announcing.initial around) run :=
  along_congr (J := TakingIn) (fun _ l hl h _ => Announcing.perform_takingIn h l hl)
    (fun _ l _ h => takenIn_step_iff h l) ⟨.initial around, hoff⟩ (along_of_forall hrun _)

/-- A call that is announced to an empty table is taken in. -/
theorem takenIn_iff_first_call : Along Announcing.perform TakenIn (Announcing.initial {})
    [([], .callStateChanged 1 .SESSION_STATE_INCOMING), ([], .callIncoming 1 "caller" "")] := by
  refine (takenIn_iff {} (by decide) _ (by decide)).mpr ⟨rfl, ?_, trivial⟩
  intro r hr
  have hr0 : r = 0 := (Option.some.inj hr).symm
  subst hr0
  decide

/-- The stack announces an id only if it is not in use, and an id is in use from its announcement
until the end of its call is reported. -/
def ReusesAfterDisconnect : (CallId → Bool) → List (List Arrival × Event) → Prop
  | _, [] => True
  | inUse, (_, .callStateChanged k .SESSION_STATE_INCOMING) :: run =>
      inUse k = false ∧ ReusesAfterDisconnect (Function.update inUse k true) run
  | inUse, (_, .callStateChanged k .SESSION_STATE_DISCONNECTED) :: run =>
      ReusesAfterDisconnect (Function.update inUse k false) run
  | inUse, _ :: run => ReusesAfterDisconnect inUse run

/-- A caller rings and gives up; the stack uses the id for the next caller at once. -/
def redialRun : List (List Arrival × Event) :=
  [([], .callStateChanged 1 .SESSION_STATE_INCOMING), ([], .callIncoming 1 "caller" ""),
   ([], .callStateChanged 1 .SESSION_STATE_DISCONNECTED),
   ([], .callStateChanged 1 .SESSION_STATE_INCOMING), ([], .callIncoming 1 "caller" "")]

/-- **The second call is swallowed**: it is not in the table, nobody is notified of it, and the
stack was told to end it. -/
theorem swallowed_after_release : ReusesAfterDisconnect (fun _ => false) redialRun ∧
    ServicesOff ({} : IConfigurator) ∧
    (run Announcing.perform (.initial {}) redialRun).manager.calls.get? 1 = none ∧
    (run Announcing.perform (.initial {}) redialRun).manager.out = [] ∧
    .request (some 1) .endCall ∈
      (run Announcing.perform (.initial {}) (redialRun.take 4)).manager.out ∧
    ¬ Along Announcing.perform TakenIn (.initial {}) redialRun := by
  have hsent : .request (some 1) .endCall ∈
      (run Announcing.perform (.initial {}) (redialRun.take 4)).manager.out := by decide
  refine ⟨⟨rfl, rfl, trivial⟩, by decide, by decide, by decide, hsent, ?_⟩
  rintro ⟨-, -, -, h, -⟩
  exact h.1 hsent

end CCallManager

end TAM
