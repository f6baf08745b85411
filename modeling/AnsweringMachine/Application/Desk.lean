import AnsweringMachine.Application.Refinement
import AnsweringMachine.CallControl.Endings

/-!
# Ended calls stay ended

The state of a call of the application is copied from reports that carry an id only and go to the
first call in the list with that id.  What protects an ended call from the calls that use its id
after it is the order of the reports (`endings`): as long as it is in the list it is the first with
its id, and hears of nothing but its end (`Holds`).

Nothing protects a call that ends inside the request of its own answer: behind the request its
machine becomes active, and the application takes it for connected (`failed_answer_connects`).
`ended_stay_ended` says of every run without such an end, of the manager together with its
application, that ended calls stay ended, and so do the machines behind them.
-/

namespace TAM

open Runs

/-! ## The calls of the application -/

namespace SIPCallProvider

variable {p : SIPCallProvider} {q q' : Closing} {c d : CallRef} {k : CallId} {n : Notification}

/-- The list, and the ids with an end as the last report: an ended call in the list is the first
with its id, and its id is one of these. -/
structure Holds (p : SIPCallProvider) (q : Closing) : Prop where
  created : ∀ c ∈ p.calls, c < p.created
  nodup : p.calls.Nodup
  ended : ∀ c ∈ p.calls, (p.objects c).callState.over →
    p.findCallById (p.objects c).sipekCallId = some c ∧ q (p.objects c).sipekCallId = true

lemma Holds.initial : SIPCallProvider.initial.Holds fun _ => false :=
  ⟨by simp [SIPCallProvider.initial], by simp [SIPCallProvider.initial],
    by simp [SIPCallProvider.initial]⟩

/-- The event of a call does not matter. -/
lemma Holds.signal (h : p.Holds q) (c : CallRef) (b : Bool) : (p.signal c b).Holds q := by
  have hid : ∀ d, ((p.signal c b).objects d).sipekCallId = (p.objects d).sipekCallId :=
    modify_id (f := fun x => { x with audioPlaybackCompleted := b }) (fun _ => rfl) p c
  refine ⟨h.created, h.nodup, fun d hd hover => ?_⟩
  rw [signal_callState] at hover
  rw [hid, findCallById_signal]
  exact h.ended d hd hover

/-- A report under another id, or for another call, leaves an ended call where it is. -/
lemma Holds.ne_of_found (h : p.Holds q) (hd : d ∈ p.calls) (hover : (p.objects d).callState.over)
    (hc : p.findCallById k = some c) (hne : d ≠ c) : (p.objects d).sipekCallId ≠ k := by
  rintro rfl
  have hfirst := (h.ended d hd hover).1
  rw [hc, Option.some.injEq] at hfirst
  exact hne hfirst.symm

/-- The call found under an id is assigned a state. -/
lemma Holds.setCallState (h : p.Holds q) (hc : p.findCallById k = some c) {x : CallState} {b : Bool}
    (hx : x.over → b = true) : (p.setCallState c x).Holds (Function.update q k b) := by
  have hid : ∀ d, ((p.setCallState c x).objects d).sipekCallId = (p.objects d).sipekCallId :=
    modify_id (f := fun y => { y with callState := x }) (fun _ => rfl) p c
  have hck := (findCallById_eq_some hc).2
  refine ⟨h.created, h.nodup, fun d hd hover => ?_⟩
  rw [hid, findCallById_setCallState]
  by_cases hdc : d = c
  · subst hdc
    rw [hck]
    refine ⟨hc, ?_⟩
    rw [Function.update_self]
    exact hx (by simpa [SIPCallProvider.setCallState] using hover)
  · have hover' : (p.objects d).callState.over := by
      simpa [SIPCallProvider.setCallState, hdc] using hover
    rw [Function.update_of_ne (h.ne_of_found hd hover' hc hdc)]
    exact h.ended d hd hover'

/-- The call found under an id is removed. -/
lemma Holds.erase (h : p.Holds q) (hc : p.findCallById k = some c) (b : Bool) :
    Holds { p with calls := p.calls.erase c } (Function.update q k b) := by
  have hck := (findCallById_eq_some hc).2
  refine ⟨fun d hd => h.created d (List.mem_of_mem_erase hd), h.nodup.erase c, fun d hd hover => ?_⟩
  have hdc : d ≠ c := by
    rintro rfl
    exact h.nodup.not_mem_erase hd
  have hne := h.ne_of_found (List.mem_of_mem_erase hd) hover hc hdc
  rw [findCallById_erase p c (by rw [hck]; exact Ne.symm hne), Function.update_of_ne hne]
  exact h.ended d (List.mem_of_mem_erase hd) hover

/-- No call is found under the id. -/
lemma Holds.absent (h : p.Holds q) (hk : p.findCallById k = none) (b : Bool) :
    p.Holds (Function.update q k b) := by
  refine ⟨h.created, h.nodup, fun d hd hover => ?_⟩
  obtain ⟨hfirst, hq⟩ := h.ended d hd hover
  refine ⟨hfirst, ?_⟩
  rw [Function.update_of_ne, hq]
  rintro rfl
  simp [hk] at hfirst

lemma Holds.incoming (h : p.Holds q) (k : CallId) :
    (p.resources_CallManager_IncomingCallNotification k).Holds q := by
  refine ⟨fun d hd => ?_, ?_, fun d hd hover => ?_⟩
  · rcases List.mem_append.mp hd with hd | hd
    · exact Nat.lt_succ_of_lt (h.created d hd)
    · rw [List.mem_singleton.mp hd]
      exact Nat.lt_succ_self _
  · rw [resources_CallManager_IncomingCallNotification, List.nodup_append]
    refine ⟨h.nodup, by simp, ?_⟩
    rintro a ha b hb rfl
    rw [List.mem_singleton.mp hb] at ha
    exact absurd (h.created _ ha) (Nat.lt_irrefl _)
  · rcases List.mem_append.mp hd with hd | hd
    · rw [incoming_objects k (h.created d hd)] at hover ⊢
      obtain ⟨hfirst, hq⟩ := h.ended d hd hover
      exact ⟨by rw [findCallById_incoming h.created, hfirst, Option.some_or], hq⟩
    · rw [List.mem_singleton.mp hd, incoming_object] at hover
      simp [CallState.over] at hover

/-- Every notification in its order keeps this. -/
lemma Holds.notify (h : p.Holds q) (hn : Closing.hear (some q) n = some q') :
    (p.notify n).Holds q' := by
  cases n with
  | IncomingCallNotification k number info =>
      rw [Closing.hear, Option.some.injEq] at hn
      rw [← hn]
      exact h.incoming k
  | CallStateRefresh k st =>
      simp only [SIPCallProvider.notify, onCallStateChanged]
      cases hc : p.findCallById k with
      | none =>
          cases st <;> simp only [Closing.hear] at hn
          case ACTIVE | INCOMING =>
            split_ifs at hn
            rw [← Option.some.inj hn]
            exact h
          case CONNECTING | ALERTING | HOLDING =>
            rw [← Option.some.inj hn]
            exact h
          all_goals
            rw [← Option.some.inj hn]
            exact h.absent hc _
      | some c =>
          have hid : ∀ b, q k = b → Function.update q k b = q := by
            rintro b rfl
            exact Function.update_eq_self k q
          cases st <;> simp only [Closing.hear] at hn
          case ACTIVE | INCOMING =>
            split_ifs at hn with hq
            rw [← Option.some.inj hn, ← hid false (by simpa using hq)]
            exact h.setCallState hc (by simp [CallState.over])
          case CONNECTING | ALERTING | HOLDING =>
            rw [← Option.some.inj hn]
            exact h
          case RELEASED =>
            rw [← Option.some.inj hn]
            exact h.setCallState hc fun _ => rfl
          case IDLE | TERMINATED =>
            rw [← Option.some.inj hn]
            exact (h.setCallState hc fun _ => rfl).signal c true
          case NULL =>
            rw [← Option.some.inj hn]
            have hdisc := h.setCallState hc (x := .Disconnected) (b := true) fun _ => rfl
            have hgone := hdisc.erase (k := k) (c := c) (by simpa using hc) false
            rwa [Function.update_idem] at hgone

/-- **An ended call does not hear of anything but its end.** -/
lemma Holds.over (h : p.Holds q) (hn : Closing.hear (some q) n = some q') (hc : c < p.created)
    (hover : (p.objects c).callState.over) : ((p.notify n).objects c).callState.over := by
  cases n with
  | IncomingCallNotification k number info =>
      simp only [SIPCallProvider.notify]
      rwa [incoming_objects k hc]
  | CallStateRefresh k st =>
      by_cases hk : p.findCallById k = some c
      · obtain ⟨hmem, hid⟩ := findCallById_eq_some hk
        have hq := (h.ended c hmem hover).2
        rw [hid] at hq
        cases st <;> simp_all [SIPCallProvider.notify, onCallStateChanged, Closing.hear,
          SIPCallProvider.setCallState, CallState.over]
      · have hobj := (onCallStateChanged_of_ne hk st).1
        simp only [SIPCallProvider.notify]
        rwa [hobj]

end SIPCallProvider

/-! ## The manager and its application -/

open CCallManager (Frame)

/-- The manager, what its operations under way have still to do, the provider, and the notifications
that are still to be handled. -/
structure Desk where
  manager : CCallManager
  frames : List Frame
  inbox : List Notification
  provider : SIPCallProvider

/-- What can happen: an event or an operation of the application, a report inside the request that
is under way, the return of that request, or the provider handles the next notification. -/
inductive DeskEvent
  | tam (e : TamEvent)
  | inside (e : CCallManager.Event)
  | returns
  | deliver

/-- May the stack report this inside the request the frame waits for?  It reports on the session the
request is for. -/
def CCallManager.Frame.hears (m : CCallManager) (f : Frame) (e : CCallManager.Event) : Bool :=
  match f.waitsFor with
  | none => false
  | some r =>
      match (m.machines r).session with
      | none => false
      | some k => e.reportsOn k

namespace Desk

/-- No calls, and timers that start. -/
def initial (config : IConfigurator) : Desk where
  manager := CCallManager.initial { config := config }
  frames := []
  inbox := []
  provider := SIPCallProvider.initial

/-- The manager runs a piece of an operation, its notifications being raised. -/
def enter (w : Desk) (s : CCallManager × List Frame) (below : List Frame) : Desk :=
  { w with manager := s.1, frames := s.2 ++ below, inbox := notifications s.1.out }

/-- An operation of the manager begins. -/
def tell (w : Desk) (e : CCallManager.Event) : Desk :=
  w.enter (CCallManager.begin { w.manager with out := [] } e) w.frames

/-- An operation of the manager or of the application.  Each waits until the one before has ended
and its notifications are handled.  The manager of an answering machine takes the events of the
stack in any order, timers, changes of the configuration, answers, releases and `Shutdown`. -/
def perform (w : Desk) : TamEvent → Desk
  | .event e =>
      if w.inbox = [] ∧ w.frames = [] ∧ (e.answering ∨ e = .Shutdown) then w.tell e else w
  | .AcceptCall c =>
      match w.provider.acceptCall c with
      | none => w
      | some k => if w.inbox = [] ∧ w.frames = [] then w.tell (.onUserAnswer k) else w
  | .Hangup c =>
      match w.provider.hangup c with
      | none => { w with provider := w.provider.set c }
      | some k =>
          if w.inbox = [] ∧ w.frames = [] then
            { w.tell (.onUserRelease k) with provider := w.provider.set c }
          else w

/-- **One step.** -/
def step (w : Desk) : DeskEvent → Desk
  | .tam e => w.perform e
  | .inside e =>
      match w.frames with
      | [] => w
      | f :: _ => if w.inbox = [] ∧ f.hears w.manager e then w.tell e else w
  | .returns =>
      match w.frames with
      | [] => w
      | f :: fs =>
          if w.inbox = [] then w.enter (CCallManager.resume { w.manager with out := [] } f) fs
          else w
  | .deliver =>
      match w.inbox with
      | [] => w
      | n :: rest => { w with inbox := rest, provider := w.provider.notify n }

/-- A request for `acceptCall`, or for `endCall` of a call on hold, returns to a machine that is
still ringing, or on hold: the stack has not reported the end of the call inside it. -/
def Undisturbed (w : Desk) : DeskEvent → Prop
  | .returns => w.inbox = [] → ∀ f ∈ w.frames.head?, f.Undisturbed w.manager
  | _ => True

instance (w : Desk) (l : DeskEvent) : Decidable (w.Undisturbed l) := by
  cases l <;> simp only [Undisturbed] <;> infer_instance

variable {w : Desk} {c : CallRef} {r : MachineRef}

/-- What holds of every state. -/
structure Quiet (w : Desk) : Prop where
  answerer : w.manager.Answerer
  sound : ∀ f ∈ w.frames, f.Sound w.manager
  listening : ∃ q, w.provider.Holds q ∧
    endings.agrees w.manager.view (w.inbox.foldl Closing.hear (some q))

lemma Quiet.initial (config : IConfigurator) : (initial config).Quiet where
  answerer := .initial rfl
  sound := by simp [Desk.initial]
  listening := ⟨_, .initial, _, rfl, by simp⟩

/-- The step keeps what holds of every state, and leaves ended machines alone. -/
structure Keeps (w w' : Desk) : Prop where
  quiet : w'.Quiet
  onward : CCallManager.Onward w.manager w'.manager

lemma Quiet.keeps (h : w.Quiet) : w.Keeps w := ⟨h, .refl _⟩

/-- **A piece of an operation** is heard in its order. -/
lemma Quiet.enter (h : w.Quiet) (hin : w.inbox = []) {s : CCallManager × List Frame}
    {below : List Frame} (hs : CCallManager.Step endings { w.manager with out := [] } s.1)
    (hsound : ∀ f ∈ s.2 ++ below, f.Sound s.1) : w.Keeps (w.enter s below) := by
  obtain ⟨q, hq, hagree⟩ := h.listening
  rw [hin] at hagree
  obtain ⟨l, hl, hp⟩ := hs.carries
  have hclear : CCallManager.Onward w.manager { w.manager with out := [] } :=
    .of_same rfl (fun _ => rfl) (fun _ => rfl) fun _ => rfl
  refine ⟨⟨hs.answerer, hsound, q, hq, ?_⟩, hclear.trans hs.onward⟩
  have hl' : notifications s.1.out = l := by simpa [CCallManager.Reports] using hl
  rw [Desk.enter, hl']
  exact hp _ hagree

/-- The event of a call does not matter. -/
lemma Keeps.set {w' : Desk} (h : w.Keeps w') (c : CallRef) :
    w.Keeps { w' with provider := w'.provider.set c } := by
  obtain ⟨q, hq, hagree⟩ := h.quiet.listening
  exact ⟨⟨h.quiet.answerer, h.quiet.sound, q, hq.signal c true, hagree⟩, h.onward⟩

/-- An operation begins when none is under way. -/
lemma Quiet.tell (h : w.Quiet) (hin : w.inbox = []) (hf : w.frames = []) {e : CCallManager.Event}
    (he : e.answering ∨ e = .Shutdown) : w.Keeps (w.tell e) := by
  obtain ⟨hstep, hsound⟩ := h.answerer.cleared.begin he
  refine h.enter hin hstep ?_
  simpa [hf] using hsound

/-- A report inside a request. -/
lemma Quiet.inside (h : w.Quiet) (hin : w.inbox = []) {f : Frame} {e : CCallManager.Event}
    (he : f.hears w.manager e) : w.Keeps (w.tell e) := by
  obtain ⟨k, hk⟩ : ∃ k, e.reportsOn k := by
    simp only [CCallManager.Frame.hears] at he
    split at he
    · simp at he
    · split at he
      · simp at he
      · exact ⟨_, he⟩
  have hbegin := h.answerer.cleared.beginReport hk
  refine h.enter hin hbegin.within.toStep fun g hg => ?_
  rcases List.mem_append.mp hg with hg | hg
  · exact hbegin.sound g hg
  · exact (h.sound g hg).cleared.within h.answerer.cleared hbegin.within

/-- A request returns. -/
lemma Quiet.returns (h : w.Quiet) (hin : w.inbox = []) {f : Frame} {fs : List Frame}
    (hf : w.frames = f :: fs) (hu : f.Undisturbed w.manager) :
    w.Keeps (w.enter (CCallManager.resume { w.manager with out := [] } f) fs) := by
  have hclear : ∀ g ∈ w.frames, g.Sound { w.manager with out := [] } :=
    fun g hg => (h.sound g hg).cleared
  have hu' : f.Undisturbed { w.manager with out := [] } := by cases f <;> exact hu
  obtain ⟨hwithin, hsound⟩ := h.answerer.cleared.resume (hclear f (by simp [hf])) hu'
  refine h.enter hin hwithin.toStep fun g hg => ?_
  rcases List.mem_append.mp hg with hg | hg
  · exact hsound g hg
  · exact (hclear g (by simp [hf, hg])).within h.answerer.cleared hwithin

/-- **The step lemma.** -/
lemma Quiet.step (h : w.Quiet) (l : DeskEvent) (hu : w.Undisturbed l) : w.Keeps (w.step l) := by
  cases l with
  | deliver =>
      simp only [Desk.step]
      split
      · exact h.keeps
      · rename_i n rest hin
        obtain ⟨q, hq, hagree⟩ := h.listening
        rw [hin, List.foldl_cons] at hagree
        obtain ⟨q', hq'⟩ := heard hagree
        rw [hq'] at hagree
        exact ⟨⟨h.answerer, h.sound, q', hq.notify hq', hagree⟩, .refl _⟩
  | inside e =>
      simp only [Desk.step]
      split
      · exact h.keeps
      · split_ifs with hen
        · exact h.inside hen.1 hen.2
        · exact h.keeps
  | returns =>
      simp only [Desk.step]
      split
      · exact h.keeps
      · rename_i f fs hf
        split_ifs with hin
        · exact h.returns hin hf (hu hin f (by simp [hf]))
        · exact h.keeps
  | tam e =>
      simp only [Desk.step, Desk.perform]
      cases e with
      | event e =>
          dsimp only
          split_ifs with hen
          · exact h.tell hen.1 hen.2.1 hen.2.2
          · exact h.keeps
      | AcceptCall c =>
          dsimp only
          split
          · exact h.keeps
          · split_ifs with hen
            · exact h.tell hen.1 hen.2 (.inl rfl)
            · exact h.keeps
      | Hangup c =>
          dsimp only
          split
          · exact h.keeps.set c
          · split_ifs with hen
            · exact (h.tell hen.1 hen.2 (.inl rfl)).set c
            · exact h.keeps

/-- **An ended call stays ended**, whoever is called under its id. -/
lemma Quiet.over_step (h : w.Quiet) (l : DeskEvent) (hc : c < w.provider.created)
    (hover : (w.provider.objects c).callState.over) :
    c < (w.step l).provider.created ∧ ((w.step l).provider.objects c).callState.over := by
  have hset : ∀ d, c < (w.provider.set d).created ∧
      ((w.provider.set d).objects c).callState.over := by
    intro d
    rw [SIPCallProvider.signal_callState]
    exact ⟨hc, hover⟩
  cases l with
  | deliver =>
      simp only [Desk.step]
      split
      · exact ⟨hc, hover⟩
      · rename_i n rest hin
        obtain ⟨q, hq, hagree⟩ := h.listening
        rw [hin, List.foldl_cons] at hagree
        obtain ⟨q', hq'⟩ := heard hagree
        exact ⟨Nat.lt_of_lt_of_le hc (SIPCallProvider.created_notify _ n), hq.over hq' hc hover⟩
  | inside e =>
      simp only [Desk.step]
      split
      · exact ⟨hc, hover⟩
      · split_ifs <;> exact ⟨hc, hover⟩
  | returns =>
      simp only [Desk.step]
      split
      · exact ⟨hc, hover⟩
      · split_ifs <;> exact ⟨hc, hover⟩
  | tam e =>
      simp only [Desk.step, Desk.perform]
      cases e with
      | event e =>
          dsimp only
          split_ifs <;> exact ⟨hc, hover⟩
      | AcceptCall d =>
          dsimp only
          split
          · exact ⟨hc, hover⟩
          · split_ifs <;> exact ⟨hc, hover⟩
      | Hangup d =>
          dsimp only
          split
          · exact hset d
          · split_ifs
            · exact hset d
            · exact ⟨hc, hover⟩

/-- A machine that waits to be destroyed has been created. -/
lemma Quiet.created_of_ending (h : w.Quiet)
    (hst : CCallManager.Ending (w.manager.machines r).state) :
    r < w.manager.created := by
  obtain ⟨k, hk⟩ := h.answerer.busy r hst.ne_idle
  exact h.answerer.wellFormed.created k r hk

/-- **Ended calls stay ended**, unless a call ends inside a request behind which its machine goes to
another state.  For every run of which every such request is undisturbed, and everything that comes
after: a machine that is released or terminated stays so, or is idle and out of the table, from then
on; and a call of the application that has hung up or was disconnected never rings or talks
again. -/
theorem ended_stay_ended (config : IConfigurator) (es es' : List DeskEvent)
    (hrun : Along step Undisturbed (initial config) (es ++ es')) :
    let w := run step (initial config) es
    (∀ r, CCallManager.Ending (w.manager.machines r).state →
      Throughout step (fun w' => (w'.manager.machines r).state = (w.manager.machines r).state ∨
        w'.manager.Gone r) w es' ∧
      Along step (fun w' l => w'.manager.Gone r → (w'.step l).manager.Gone r) w es') ∧
    ∀ c < w.provider.created, (w.provider.objects c).callState.over →
      Throughout step (fun w' => (w'.provider.objects c).callState.over) w es' := by
  intro w
  obtain ⟨hbefore, hafter⟩ := along_split hrun
  have hquiet : w.Quiet := run_of_along (fun _ l h hu => (h.step l hu).quiet)
    (Quiet.initial config) hbefore
  refine ⟨fun r hst => ?_, fun c hc hover => ?_⟩
  · -- from here on the machine is `Onward` from where it was
    have hr := hquiet.created_of_ending hst
    have hstep : ∀ (w' : Desk) l, w'.Quiet ∧ CCallManager.Onward w.manager w'.manager →
        w'.Undisturbed l → (w'.step l).Quiet ∧ CCallManager.Onward w.manager (w'.step l).manager :=
      fun w' l h hu => ⟨(h.1.step l hu).quiet, h.2.trans (h.1.step l hu).onward⟩
    refine ⟨throughout_of_along hstep (fun w' h => ?_) ⟨hquiet, .refl _⟩ hafter,
      along_of_along hstep (fun w' l h hu hgone => ?_) ⟨hquiet, .refl _⟩ hafter⟩
    · exact (h.2.ending r hr hst).imp_right (h.2.idle r hr hst.ne_idle)
    · exact (h.1.step l hu).onward.gone r (hr.trans_le h.2.created) hgone
  · exact throughout_of_along (J := fun w' : Desk => w'.Quiet ∧ c < w'.provider.created ∧
      (w'.provider.objects c).callState.over)
      (fun w' l h hu => ⟨(h.1.step l hu).quiet, h.1.over_step l h.2.1 h.2.2⟩) (fun _ h => h.2.2)
      ⟨hquiet, hc, hover⟩ hafter

/-- A call rings, and its caller hangs up. -/
def missedCall : List DeskEvent :=
  [.tam (.event (.callStateChanged 1 .SESSION_STATE_INCOMING)),
    .tam (.event (.callIncoming 1 "100" "Ann")), .inside (.callStateChanged 1 .SESSION_STATE_EARLY),
    .returns, .returns, .deliver, .returns, .deliver,
    .tam (.event (.callStateChanged 1 .SESSION_STATE_DISCONNECTED)), .deliver]

/-- Its machine is destroyed, and the next call has the same id. -/
def nextCall : List DeskEvent :=
  [.tam (.event (.timerElapsed 0 .ERELEASED)), .deliver, .deliver,
    .tam (.event (.callStateChanged 1 .SESSION_STATE_INCOMING)),
    .tam (.event (.callIncoming 1 "200" "Bob")), .returns, .returns, .deliver, .returns, .deliver,
    .tam (.AcceptCall 1), .inside (.callStateChanged 1 .SESSION_STATE_CONNECTING), .returns,
      .deliver]

/-- The missed call stays ended while the next one is answered under its id. -/
theorem ended_stay_ended_next_call :
    Throughout step (fun w' => (w'.provider.objects 0).callState.over)
      (run step (initial {}) missedCall) nextCall ∧
    ((run step (initial {}) (missedCall ++ nextCall)).provider.objects 1).callState = .Connected :=
  ⟨(ended_stay_ended {} missedCall nextCall (by decide +kernel)).2 0 (by decide +kernel)
    (by decide +kernel), by decide +kernel⟩

/-- A call rings. -/
def ringing : List DeskEvent :=
  [.tam (.event (.callStateChanged 1 .SESSION_STATE_INCOMING)),
    .tam (.event (.callIncoming 1 "100" "Ann")), .returns, .returns, .deliver, .returns, .deliver]

/-- The application answers it, and it is disconnected inside the request: its media could not be
started, say. -/
def failedAnswer : List DeskEvent :=
  [.tam (.AcceptCall 0), .inside (.callStateChanged 1 .SESSION_STATE_DISCONNECTED), .deliver]

/-- It is answered, and put on hold for a second call. -/
def putOnHold : List DeskEvent :=
  [.tam (.AcceptCall 0), .returns, .deliver,
    .tam (.event (.callStateChanged 2 .SESSION_STATE_INCOMING)),
    .tam (.event (.callIncoming 2 "200" "Bob")), .returns, .returns, .deliver, .returns, .deliver,
    .tam (.AcceptCall 1), .returns, .tam (.event (.holdConfirm 1)), .deliver]

/-- The application hangs up, and the call on hold is disconnected inside the request. -/
def failedRelease : List DeskEvent :=
  [.returns, .deliver, .returns, .tam (.Hangup 0),
    .inside (.callStateChanged 1 .SESSION_STATE_DISCONNECTED), .deliver]

/-- **A call that ends inside the request of its answer is connected again**: the machine is
released and the call has hung up when the request returns, and then the one is active and the other
connected.  A call on hold that ends inside the request of its release is terminated after it was
released. -/
theorem failed_answer_connects :
    let w := run step (initial {}) (ringing ++ failedAnswer)
    let held := run step (initial {}) (ringing ++ putOnHold ++ failedRelease);
    ((w.manager.machines 0).state = .Released ∧ (w.provider.objects 0).callState = .HangUp ∧
      ((run step w [.returns, .deliver]).manager.machines 0).state = .Active ∧
      ((run step w [.returns, .deliver]).provider.objects 0).callState = .Connected) ∧
    (held.manager.machines 0).state = .Released ∧
      ((run step held [.returns]).manager.machines 0).state = .Terminated := by
  decide +kernel

end Desk

end TAM
