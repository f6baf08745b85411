import AnsweringMachine.Application.Listener
import AnsweringMachine.Application.Script

/-!
# The answering machine at work

Everything that runs at the same time: the call manager with the stack and the timers behind it, the
handlers of the provider, an action thread for each call, and the wav players of the stack.

Operations of the manager exclude each other, and the notifications of one are handled before the
next starts; but threads and players go on in between, so the notifications that are still to be
handled are a part of the state (`inbox`).  Which of the processes moves, and what it meets, is in
the label, so a run is a list of labels and every list is a run: a label that is not enabled does
nothing.

`Sound` is the invariant that the listening application of `Listener` gives: what the provider
knows, together with the notifications to come, fits the call table.  That threads run their scripts
in order carries over from `Script`, since nothing but its own steps changes a thread
(`threads_in_order`).
-/

namespace TAM

open Runs

variable {τ : Type*}

/-- The state of everything.  `released` notes the calls whose release a thread has requested,
`players` the players that run and the call id each was started with, and `reported` those that have
reported their end. -/
structure World (τ : Type*) where
  manager : CCallManager
  stage : CallId → Stage
  inbox : List Notification
  provider : SIPCallProvider
  threads : CallRef → Thread τ
  released : CallRef → Bool
  players : List (PlayerId × CallId)
  nextPlayer : PlayerId
  reported : List PlayerId

/-- Who moves: the manager handles an event, the provider handles the next notification, a thread
makes a step, or a player reports its end.  A thread's label says how triggers answer, whether an
action throws, and whether the stack has media to play to. -/
inductive Label (τ : Type*)
  | event (e : CCallManager.Event)
  | deliver
  | thread (call : CallRef) (ask : ℕ → τ → Bool) (throws media : Bool)
  | playerEnded (player : PlayerId)

namespace World

/-- No calls, and timers that start. -/
def initial (config : IConfigurator) : World τ where
  manager := CCallManager.initial { config := config }
  stage _ := .free
  inbox := []
  provider := SIPCallProvider.initial
  threads _ := { pc := .returned }
  released _ := false
  players := []
  nextPlayer := 0
  reported := []

/-- The state of a call. -/
def callState (w : World τ) (c : CallRef) : CallState := (w.provider.objects c).callState

/-- The event of a call. -/
def signalled (w : World τ) (c : CallRef) : Bool := (w.provider.objects c).audioPlaybackCompleted

/-- The id of a call. -/
def callId (w : World τ) (c : CallRef) : CallId := (w.provider.objects c).sipekCallId

/-- Where the thread of a call is. -/
def pc (w : World τ) (c : CallRef) : Pc τ := (w.threads c).pc

/-! ## The processes -/

/-- An operation of the manager, its notifications being raised. -/
def tell (w : World τ) (e : CCallManager.Event) : World τ :=
  { w with
    manager := w.manager.step e
    stage := Stage.after w.stage e
    inbox := notifications (w.manager.step e).out }

/-- A notification is handled.  A new call has its thread queued. -/
def handle (w : World τ) (n : Notification) : World τ :=
  { w with
    provider := w.provider.notify n
    threads := match n with
      | .IncomingCallNotification _ _ _ => Function.update w.threads w.provider.created .initial
      | .CallStateRefresh _ _ => w.threads }

/-- The thread of a call moves on. -/
def advance (script : CallRef → Option (List (ActionPack τ))) (w : World τ) (c : CallRef)
    (o : Moment τ) : World τ :=
  { w with threads := Function.update w.threads c (Thread.step (script c) (w.threads c) o) }

/-- The stack starts a player. -/
def startPlayer (w : World τ) (k : CallId) : World τ :=
  { w with players := (w.nextPlayer, k) :: w.players, nextPlayer := w.nextPlayer + 1 }

/-- A thread makes a step.  It is blocked while it waits for its event, and while it has a request
for the manager and another operation is not finished. -/
def threadStep (script : CallRef → Option (List (ActionPack τ))) (w : World τ) (c : CallRef)
    (o : Moment τ) (media : Bool) : World τ :=
  match w.pc c with
  | .waiting _ _ _ =>
      if w.signalled c then advance script { w with provider := w.provider.reset c } c o else w
  | .releasing _ =>
      if w.inbox = [] then
        advance script { w.tell (.onUserRelease (w.callId c)) with
          released := Function.update w.released c true } c o
      else w
  | .signalling _ => advance script { w with provider := w.provider.set c } c o
  | .acting (.playwav _ :: _) _ =>
      if media ∧ ¬ o.throws then
        advance script (w.startPlayer (w.callId c)) c { o with player := some w.nextPlayer }
      else advance script w c o
  | .acting (.accept :: _) _ =>
      if o.throws then advance script w c o
      else match w.provider.acceptCall c with
        | none => advance script w c o
        | some k => if w.inbox = [] then advance script (w.tell (.onUserAnswer k)) c o else w
  | _ => advance script w c o

/-- A player reports its end; the provider is told the call id only. -/
def playerEnded (w : World τ) (x : PlayerId) : World τ :=
  match w.players.lookup x with
  | none => w
  | some k =>
      { w with
        provider := w.provider.onWavPlayerCompleted k
        players := w.players.filter fun e => e.1 ≠ x
        reported := x :: w.reported }

/-- **One step.** -/
def step (script : CallRef → Option (List (ActionPack τ))) (w : World τ) : Label τ → World τ
  | .event e => if w.inbox = [] ∧ Stage.permits w.stage e then w.tell e else w
  | .deliver =>
      match w.inbox with
      | [] => w
      | n :: rest => handle { w with inbox := rest } n
  | .thread c ask throws media =>
      w.threadStep script c { ask := ask, seen := w.callState c, throws := throws } media
  | .playerEnded x => w.playerEnded x

/-! ## The invariant -/

/-- The list is tidy, and what it knows fits the table when the notifications to come have been
handled. -/
structure Sound (w : World τ) : Prop where
  tidy : w.provider.Tidy
  tracked : Tracked true w.manager w.stage
    (w.inbox.foldl Listening.hear (some ⟨w.provider.callStateOf, Listening.removal w.inbox⟩))

variable {w : World τ} {c d : CallRef} {n : Notification} {rest : List Notification}
  {script : CallRef → Option (List (ActionPack τ))}

namespace Sound

lemma initial (config : IConfigurator) : (initial config : World τ).Sound :=
  ⟨.initial, .initial rfl⟩

/-- Threads, players and events do not matter. -/
lemma congr {w' : World τ} (h : w.Sound) (hm : w'.manager = w.manager) (hg : w'.stage = w.stage)
    (hi : w'.inbox = w.inbox) (ht : w'.provider.Tidy)
    (hs : w'.provider.callStateOf = w.provider.callStateOf) : w'.Sound where
  tidy := ht
  tracked := by
    rw [hm, hg, hi, hs]
    exact h.tracked

lemma tell (h : w.Sound) (hin : w.inbox = []) {e : CCallManager.Event}
    (hper : Stage.permits w.stage e) : (w.tell e).Sound := by
  have htracked := h.tracked
  rw [hin] at htracked
  have hstep := htracked.step hper (Or.inl rfl)
  obtain ⟨κ, hκ, -⟩ := hstep.agrees
  refine ⟨h.tidy, ?_⟩
  have hrem : none = Listening.removal (notifications (w.manager.step e).out) :=
    Listening.ending_eq_removal hκ
  simp only [World.tell]
  rw [← hrem]
  exact hstep

/-- The next notification makes sense. -/
lemma accepts (h : w.Sound) (hin : w.inbox = n :: rest) :
    Listening.accepts ⟨w.provider.callStateOf, Listening.removal w.inbox⟩ n := by
  obtain ⟨κ, hκ, -⟩ := h.tracked.agrees
  refine Listening.accepts_of_foldl (l := rest) ?_
  rw [← hin, hκ]
  simp

/-- The removal of a call follows the report of its end, and nothing else. -/
lemma endingAfter_eq (h : w.Sound) (hin : w.inbox = n :: rest) :
    Listening.endingAfter n = Listening.removal rest := by
  have hacc := h.accepts hin
  obtain ⟨κ, hκ, -⟩ := h.tracked.agrees
  rw [hin] at hacc hκ
  rw [List.foldl_cons, Listening.hear_of_accepts hacc] at hκ
  exact Listening.ending_eq_removal hκ

lemma deliver (h : w.Sound) (hin : w.inbox = n :: rest) :
    (handle { w with inbox := rest } n).Sound := by
  have hrem := h.endingAfter_eq hin
  have hacc := h.accepts hin
  have htracked := h.tracked
  rw [hin] at hacc htracked
  rw [List.foldl_cons, Listening.hear_of_accepts hacc] at htracked
  obtain ⟨htidy, hstate⟩ := h.tidy.notify (n := n) fun k number info hn => by
    subst hn
    exact (of_decide_eq_true hacc).2
  refine ⟨htidy, ?_⟩
  simp only [World.handle]
  rw [hstate, ← hrem]
  exact htracked

end Sound

/-! ## What a notification does to a call -/

/-- What the handling of a notification means for a call: it keeps its id; its event is only set,
and only when it becomes disconnected; it does not come back once it has ended; it leaves the list
only when its removal is reported; and the report before that sets its event. -/
structure Noticed (p : SIPCallProvider) (n : Notification) (c : CallRef) : Prop where
  id : ((p.notify n).objects c).sipekCallId = (p.objects c).sipekCallId
  event : ((p.notify n).objects c).audioPlaybackCompleted = (p.objects c).audioPlaybackCompleted ∨
    ((p.notify n).objects c).callState = .Disconnected
  ended : (p.objects c).callState.ended →
    ((p.notify n).objects c).callState = (p.objects c).callState ∨
      ((p.notify n).objects c).callState = .HangUp ∨
      ((p.notify n).objects c).callState = .Disconnected
  listed : c ∈ p.calls → n ≠ .CallStateRefresh (p.objects c).sipekCallId .NULL →
    c ∈ (p.notify n).calls
  idle : c ∈ p.calls → n = .CallStateRefresh (p.objects c).sipekCallId .IDLE →
    ((p.notify n).objects c).audioPlaybackCompleted = true
  sets : (p.objects c).audioPlaybackCompleted = true →
    ((p.notify n).objects c).audioPlaybackCompleted = true

/-- A call that the notification is not about. -/
lemma Noticed.of_eq {p : SIPCallProvider} (hobj : (p.notify n).objects c = p.objects c)
    (hlist : c ∈ p.calls → c ∈ (p.notify n).calls)
    (hidle : c ∈ p.calls → n ≠ .CallStateRefresh (p.objects c).sipekCallId .IDLE) :
    Noticed p n c where
  id := by rw [hobj]
  event := Or.inl (by rw [hobj])
  ended _ := Or.inl (by rw [hobj])
  listed h _ := hlist h
  idle h hn := absurd hn (hidle h)
  sets h := by rw [hobj]; exact h

lemma noticed {p : SIPCallProvider} (hp : p.Tidy) {x : Option CallId}
    (hacc : Listening.accepts ⟨p.callStateOf, x⟩ n)
    (hc : ∀ k number info, n = .IncomingCallNotification k number info → c ≠ p.created) :
    Noticed p n c := by
  cases n with
  | IncomingCallNotification k number info =>
      exact .of_eq (Function.update_of_ne (hc k number info rfl) _ _)
        (fun h => List.mem_append_left _ h) (by simp)
  | CallStateRefresh k st =>
      -- a call in the list is the one found under its id
      have hfound : c ∈ p.calls → k = (p.objects c).sipekCallId → p.findCallById k = some c := by
        rintro hmem rfl
        exact SIPCallProvider.findCallById_of_mem hp.distinct hmem
      by_cases hk : p.findCallById k = some c
      · -- the notification is about this call; one that has ended is not answered
        have hstate : p.callStateOf k = some (p.objects c).callState := by
          simp [SIPCallProvider.callStateOf, hk]
        have hid := (SIPCallProvider.findCallById_eq_some hk).2
        cases st <;> constructor <;>
          simp_all [SIPCallProvider.notify, SIPCallProvider.onCallStateChanged,
            SIPCallProvider.setCallState, SIPCallProvider.signal, Listening.accepts]
      · obtain ⟨hobj, hlist⟩ := SIPCallProvider.onCallStateChanged_of_ne hk st
        refine .of_eq hobj hlist fun hmem hn => hk (hfound hmem ?_)
        simp only [Notification.CallStateRefresh.injEq] at hn
        exact hn.1

/-! ## What a thread can do -/

/-- The steps of the thread of a call: it is blocked; it moves on without touching anything; it
starts a player; it wakes up; it requests a release; it sets its event; or it requests an answer. -/
inductive ThreadMove (script : CallRef → Option (List (ActionPack τ))) (w : World τ) (c : CallRef)
    (o : Moment τ) : World τ → Prop
  | blocked : ThreadMove script w c o w
  | plain (hpc : ∀ y todo rest next,
      w.pc c ≠ .waiting y todo rest ∧ w.pc c ≠ .releasing next ∧ w.pc c ≠ .signalling next) :
      ThreadMove script w c o (advance script w c o)
  | plays (file : String) (todo : List IAction) (rest : List (ActionPack τ))
      (hpc : w.pc c = .acting (.playwav file :: todo) rest) :
      ThreadMove script w c o (advance script (w.startPlayer (w.callId c)) c
        { o with player := some w.nextPlayer })
  | wakes (y : Option PlayerId) (todo : List IAction) (rest : List (ActionPack τ))
      (hpc : w.pc c = .waiting y todo rest) (hsig : w.signalled c) :
      ThreadMove script w c o (advance script { w with provider := w.provider.reset c } c o)
  | releases (next : Continuation τ) (hpc : w.pc c = .releasing next) (hin : w.inbox = []) :
      ThreadMove script w c o (advance script { w.tell (.onUserRelease (w.callId c)) with
        released := Function.update w.released c true } c o)
  | signals (next : Continuation τ) (hpc : w.pc c = .signalling next) :
      ThreadMove script w c o (advance script { w with provider := w.provider.set c } c o)
  | accepts (k : CallId) (todo : List IAction) (rest : List (ActionPack τ))
      (hpc : w.pc c = .acting (.accept :: todo) rest) (hin : w.inbox = []) :
      ThreadMove script w c o (advance script (w.tell (.onUserAnswer k)) c o)

lemma threadStep_cases (script : CallRef → Option (List (ActionPack τ))) (w : World τ)
    (c : CallRef) (o : Moment τ) (media : Bool) :
    ThreadMove script w c o (w.threadStep script c o media) := by
  simp only [threadStep]
  split
  · rename_i y todo rest hpc
    split_ifs with hsig
    · exact .wakes y todo rest hpc hsig
    · exact .blocked
  · rename_i next hpc
    split_ifs with hin
    · exact .releases next hpc hin
    · exact .blocked
  · rename_i next hpc
    exact .signals next hpc
  · rename_i file todo rest hpc
    split_ifs
    · exact .plays file todo rest hpc
    · exact .plain fun _ _ _ _ => by simp [hpc]
  · rename_i todo rest hpc
    have hplain : ThreadMove script w c o (advance script w c o) :=
      .plain fun _ _ _ _ => by simp [hpc]
    split
    · exact hplain
    · split
      · exact hplain
      · split_ifs with hin
        · exact .accepts _ todo rest hpc hin
        · exact .blocked
  · rename_i hwait hrel hsig hplay hacc
    exact .plain fun y todo rest next => ⟨hwait y todo rest, hrel next, hsig next⟩

/-- **The step lemma.** -/
lemma Sound.step (h : w.Sound) (l : Label τ) : (World.step script w l).Sound := by
  have hevent : ∀ (d : CallRef) (b : Bool) {w' : World τ}, w'.manager = w.manager →
      w'.stage = w.stage → w'.inbox = w.inbox → w'.provider = w.provider.signal d b → w'.Sound :=
    fun d b w' hm hg hi hp => h.congr hm hg hi (by rw [hp]; exact h.tidy.signal d b)
      (by rw [hp]; exact SIPCallProvider.callStateOf_signal _ d b)
  cases l with
  | event e =>
      simp only [World.step]
      split_ifs with hen
      · exact h.tell hen.1 hen.2
      · exact h
  | deliver =>
      simp only [World.step]
      split
      · exact h
      · rename_i n rest hin
        exact h.deliver hin
  | thread c ask throws media =>
      simp only [World.step]
      generalize hw : w.threadStep script c _ media = w'
      have hmove := threadStep_cases script w c
        { ask := ask, seen := w.callState c, throws := throws } media
      rw [hw] at hmove
      cases hmove with
      | blocked => exact h
      | plain => exact h.congr rfl rfl rfl h.tidy rfl
      | plays => exact h.congr rfl rfl rfl h.tidy rfl
      | wakes => exact hevent c false rfl rfl rfl rfl
      | releases next hpc hin => exact (h.tell hin rfl).congr rfl rfl rfl h.tidy rfl
      | signals => exact hevent c true rfl rfl rfl rfl
      | accepts k todo rest hpc hin => exact (h.tell hin rfl).congr rfl rfl rfl h.tidy rfl
  | playerEnded x =>
      simp only [World.step, World.playerEnded]
      split
      · exact h
      · simp only [SIPCallProvider.onWavPlayerCompleted]
        split
        · exact h.congr rfl rfl rfl h.tidy rfl
        · rename_i call hcall
          exact hevent call true rfl rfl rfl rfl

/-! ## Threads only take their own steps -/

/-- **A thread is changed only by its own steps**, and by its creation. -/
lemma step_threads (script : CallRef → Option (List (ActionPack τ))) (w : World τ) (l : Label τ)
    (c : CallRef) :
    (World.step script w l).threads c = w.threads c ∨
      (World.step script w l).threads c = .initial ∨
      ∃ o, (World.step script w l).threads c = Thread.step (script c) (w.threads c) o := by
  have hadvance : ∀ (v : World τ) (d : CallRef) (o : Moment τ), v.threads = w.threads →
      (advance script v d o).threads c = w.threads c ∨
        (advance script v d o).threads c = .initial ∨
        ∃ o', (advance script v d o).threads c = Thread.step (script c) (w.threads c) o' := by
    intro v d o hv
    by_cases hcd : c = d
    · subst hcd
      exact Or.inr (Or.inr ⟨o, by simp [advance, hv]⟩)
    · exact Or.inl (by simp [advance, hv, hcd])
  cases l with
  | event e =>
      left
      simp only [World.step]
      split_ifs <;> rfl
  | deliver =>
      simp only [World.step]
      split
      · exact Or.inl rfl
      · rename_i n rest hin
        cases n with
        | CallStateRefresh k st => exact Or.inl rfl
        | IncomingCallNotification k number info =>
            by_cases hc : c = w.provider.created
            · exact Or.inr (Or.inl (by simp [handle, hc]))
            · exact Or.inl (by simp [handle, hc])
  | thread d ask throws media =>
      simp only [World.step]
      generalize hw : w.threadStep script d _ media = w'
      have hmove := threadStep_cases script w d
        { ask := ask, seen := w.callState d, throws := throws } media
      rw [hw] at hmove
      cases hmove with
      | blocked => exact Or.inl rfl
      | plain => exact hadvance w d _ rfl
      | plays => exact hadvance _ d _ rfl
      | wakes => exact hadvance _ d _ rfl
      | releases => exact hadvance _ d _ rfl
      | signals => exact hadvance _ d _ rfl
      | accepts => exact hadvance _ d _ rfl
  | playerEnded x =>
      left
      simp only [World.step, World.playerEnded]
      split <;> rfl

/-- **All scripts run in order**, whatever else happens in between. -/
theorem threads_in_order (config : IConfigurator) (script : CallRef → Option (List (ActionPack τ)))
    (run : List (Label τ)) :
    Throughout (World.step script)
      (fun w => ∀ c, Thread.InOrder ((script c).getD []) (w.threads c)) (initial config) run := by
  refine throughout_of_along (J := fun w : World τ =>
    ∀ c, Thread.InOrder ((script c).getD []) (w.threads c)) (fun w l h _ c => ?_) (fun _ h => h)
    (fun c => ⟨List.nil_prefix, rfl⟩) (along_true _ run)
  rcases step_threads script w l c with hsame | hnew | ⟨o, hstep⟩
  · rw [hsame]
    exact h c
  · rw [hnew]
    exact .initial _
  · rw [hstep]
    exact (h c).step o

/-! ## A step, seen from one call -/

/-- A step that has nothing to do with a call.  An operation of the manager raises notifications,
but never starts with the removal of a call. -/
structure Untouched (w w' : World τ) (c : CallRef) : Prop where
  object : w'.provider.objects c = w.provider.objects c
  calls : w'.provider.calls = w.provider.calls
  pc : w'.pc c = w.pc c
  released : w'.released c = w.released c
  reported : ∀ x ∈ w.reported, x ∈ w'.reported
  removal : Listening.removal w'.inbox = Listening.removal w.inbox ∨
    Listening.removal w'.inbox = none

/-- **What a step means for a call**: nothing; it is created; a notification is handled; its thread
moves; or a player reports its end under the call's id. -/
inductive StepFor (script : CallRef → Option (List (ActionPack τ))) (w : World τ) (c : CallRef) :
    Label τ → World τ → Prop
  | untouched (l : Label τ) (w' : World τ) (h : Untouched w w' c) : StepFor script w c l w'
  | created (l : Label τ) (w' : World τ) (hpc : w'.pc c = .queued) : StepFor script w c l w'
  | noticed (n : Notification) (rest : List Notification) (hin : w.inbox = n :: rest)
      (hn : Noticed w.provider n c)
      (hpc : (handle { w with inbox := rest } n).pc c = w.pc c) :
      StepFor script w c .deliver (handle { w with inbox := rest } n)
  | moves (ask : ℕ → τ → Bool) (throws media : Bool) (w' : World τ)
      (hmove : ThreadMove script w c { ask := ask, seen := w.callState c, throws := throws } w') :
      StepFor script w c (.thread c ask throws media) w'
  | ended (x : PlayerId) (k : CallId) (hx : w.players.lookup x = some k)
      (hc : w.provider.findCallById k = some c) :
      StepFor script w c (.playerEnded x)
        { w with
          provider := w.provider.set c
          players := w.players.filter fun e => e.1 ≠ x
          reported := x :: w.reported }

lemma untouched_refl (w : World τ) (c : CallRef) : Untouched w w c :=
  ⟨rfl, rfl, rfl, rfl, fun _ => id, Or.inl rfl⟩

lemma Sound.untouched_tell (h : w.Sound) (hin : w.inbox = []) {e : CCallManager.Event}
    (hper : Stage.permits w.stage e) (c : CallRef) : Untouched w (w.tell e) c := by
  refine ⟨rfl, rfl, rfl, rfl, fun _ => id, Or.inr ?_⟩
  have htracked := h.tracked
  rw [hin] at htracked
  obtain ⟨κ, hκ, -⟩ := (htracked.step hper (Or.inl rfl)).agrees
  exact (Listening.ending_eq_removal hκ).symm

/-- The thread of another call. -/
lemma Sound.untouched_threadMove (h : w.Sound) {o : Moment τ} {w' : World τ}
    (hmove : ThreadMove script w d o w') (hcd : c ≠ d) : Untouched w w' c := by
  have hpc : ∀ (v : World τ) (o : Moment τ), (advance script v d o).pc c = v.pc c :=
    fun v o => by simp [World.pc, advance, hcd]
  have hobj := SIPCallProvider.signal_of_ne w.provider hcd
  cases hmove with
  | blocked => exact untouched_refl w c
  | plain => exact ⟨rfl, rfl, hpc w o, rfl, fun _ => id, Or.inl rfl⟩
  | plays => exact ⟨rfl, rfl, hpc _ _, rfl, fun _ => id, Or.inl rfl⟩
  | wakes => exact ⟨hobj false, rfl, hpc _ o, rfl, fun _ => id, Or.inl rfl⟩
  | signals => exact ⟨hobj true, rfl, hpc _ o, rfl, fun _ => id, Or.inl rfl⟩
  | releases next hpcd hin =>
      have ht := h.untouched_tell hin (e := .onUserRelease (w.callId d)) rfl c
      exact ⟨rfl, rfl, hpc _ o, Function.update_of_ne hcd _ _, fun _ => id, ht.removal⟩
  | accepts k todo rest hpcd hin =>
      have ht := h.untouched_tell hin (e := .onUserAnswer k) rfl c
      exact ⟨rfl, rfl, hpc _ o, rfl, fun _ => id, ht.removal⟩

lemma Sound.stepFor (h : w.Sound) (script : CallRef → Option (List (ActionPack τ)))
    (l : Label τ) (c : CallRef) :
    StepFor script w c l (World.step script w l) := by
  cases l with
  | event e =>
      simp only [World.step]
      split_ifs with hen
      · exact .untouched _ _ (h.untouched_tell hen.1 hen.2 c)
      · exact .untouched _ _ (untouched_refl w c)
  | deliver =>
      simp only [World.step]
      split
      · exact .untouched _ _ (untouched_refl w c)
      · rename_i n rest hin
        by_cases hnew : ∃ k number info, n = .IncomingCallNotification k number info ∧
            c = w.provider.created
        · obtain ⟨k, number, info, rfl, rfl⟩ := hnew
          exact .created _ _ (by simp [World.pc, World.handle, Thread.initial])
        · have hne : ∀ k number info, n = .IncomingCallNotification k number info →
              c ≠ w.provider.created := fun k number info hn hc => hnew ⟨k, number, info, hn, hc⟩
          refine .noticed n rest hin (World.noticed h.tidy (h.accepts hin) hne) ?_
          cases n with
          | CallStateRefresh k st => rfl
          | IncomingCallNotification k number info =>
              simp [World.pc, World.handle, hne k number info rfl]
  | thread d ask throws media =>
      have hmove := threadStep_cases script w d
        { ask := ask, seen := w.callState d, throws := throws } media
      by_cases hcd : c = d
      · subst hcd
        exact .moves ask throws media _ hmove
      · exact .untouched _ _ (h.untouched_threadMove hmove hcd)
  | playerEnded x =>
      simp only [World.step, World.playerEnded]
      split
      · exact .untouched _ _ (untouched_refl w c)
      · rename_i k hx
        simp only [SIPCallProvider.onWavPlayerCompleted]
        split
        · exact .untouched _ _ ⟨rfl, rfl, rfl, rfl, fun _ => List.mem_cons_of_mem x, Or.inl rfl⟩
        · rename_i call hcall
          by_cases hc : c = call
          · subst hc
            exact .ended x k hx hcall
          · exact .untouched _ _ ⟨SIPCallProvider.signal_of_ne _ hc true, rfl, rfl, rfl,
              fun _ => List.mem_cons_of_mem x, Or.inl rfl⟩

/-- A thread that waits after its own step: it was blocked, or has started a playback. -/
lemma ThreadMove.waiting {o : Moment τ} {w' : World τ} (h : ThreadMove script w c o w')
    {y : Option PlayerId} {todo : List IAction} {packs : List (ActionPack τ)}
    (hpc : w'.pc c = .waiting y todo packs) :
    w' = w ∨ (∃ file, w.pc c = .acting (.playwav file :: todo) packs) ∧ o.throws = false ∧
      w'.provider = w.provider ∧ w'.inbox = w.inbox := by
  have hstep : ∀ (v : World τ) (o : Moment τ), v.threads = w.threads →
      (advance script v c o).pc c = .waiting y todo packs →
      (∃ file, w.pc c = .acting (.playwav file :: todo) packs) ∧ o.throws = false := by
    intro v o hv hwait
    simp only [World.pc, advance, Function.update_self, hv] at hwait
    obtain ⟨file, hold, hthrows, -⟩ := Thread.step_waiting hwait
    exact ⟨⟨file, hold⟩, hthrows⟩
  -- the other moves start elsewhere
  have helse : ∀ v : World τ, v.threads = w.threads → (advance script v c o).pc c =
      .waiting y todo packs → (∀ file, w.pc c ≠ .acting (.playwav file :: todo) packs) → False := by
    intro v hv hwait hne
    obtain ⟨⟨file, hold⟩, -⟩ := hstep v o hv hwait
    exact hne file hold
  cases h with
  | blocked => exact Or.inl rfl
  | plain =>
      obtain ⟨hold, hthrows⟩ := hstep w o rfl hpc
      exact Or.inr ⟨hold, hthrows, rfl, rfl⟩
  | plays file todo' rest' hold =>
      obtain ⟨hold, hthrows⟩ := hstep (w.startPlayer (w.callId c)) _ rfl hpc
      exact Or.inr ⟨hold, hthrows, rfl, rfl⟩
  | wakes y' todo' rest' hold => exact (helse _ rfl hpc (by simp [hold])).elim
  | releases next hold => exact (helse _ rfl hpc (by simp [hold])).elim
  | signals next hold => exact (helse _ rfl hpc (by simp [hold])).elim
  | accepts k todo' rest' hold => exact (helse _ rfl hpc (by simp [hold])).elim

end World

end TAM
