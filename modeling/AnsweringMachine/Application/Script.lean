import AnsweringMachine.Application.Provider
import AnsweringMachine.Library.Runs

/-!
# The action thread of a call

`CallActionsThread` works through the action packs of an account: it polls the triggers of the first
pack until all of them are true, executes its actions, drops it and goes on with the next, and hangs
up in the end.  It is modelled as a thread with a program counter (`Pc`), one step at a time, since
everything else in the program can happen between two of its steps.  What a step reads from outside
is a `Moment`; a step never depends on anything else, so a run of the thread is a list of moments.

The methods of a call are entered where they can be interrupted: `Hangup` is three steps (look at
the state, request the release, set the event) and `PlayAudioFile` two (start the player, wait).

`scripts_in_order` says that packs are executed in order, whole and at most once, whatever the
triggers, the states of the call and the exceptions of actions.
-/

namespace TAM

open Runs

/-- The identity of a wav player of the stack. -/
abbrev PlayerId := ℕ

/-- The actions of a script. -/
inductive IAction
  | playwav (file : String)
  | delay (milliseconds : ℤ)
  | hangup
  | accept
  deriving DecidableEq, Repr

/-- Actions, and the triggers that all have to be true before they are executed.  Triggers are of
any type: a thread only learns whether they are triggered. -/
structure ActionPack (τ : Type*) where
  name : String
  triggers : List τ
  actions : List IAction
  deriving DecidableEq, Repr

/-- What one step of a thread reads: the answer of each trigger, by its position in the pack, the
state of the call, whether the action throws, and the player that the stack starts, if it does. -/
structure Moment (τ : Type*) where
  ask : ℕ → τ → Bool := fun _ _ => true
  seen : CallState := .Connected
  throws : Bool := false
  player : Option PlayerId := none

variable {τ : Type*}

/-- Where a thread goes on after a hangup: with the actions of a pack and the packs behind it, or
nowhere. -/
inductive Continuation (τ : Type*)
  | pack (todo : List IAction) (rest : List (ActionPack τ))
  | exit
  deriving DecidableEq, Repr

/-- The program counter of a thread. -/
inductive Pc (τ : Type*)
  /-- `CallActionsThread` has been queued. -/
  | queued
  /-- At the condition of the loop, with the packs that are left. -/
  | poll (rest : List (ActionPack τ))
  /-- In `TriggeredExecution`, with the actions left in the pack. -/
  | acting (todo : List IAction) (rest : List (ActionPack τ))
  /-- In `PlayAudioFile`, waiting for the event. -/
  | waiting (player : Option PlayerId) (todo : List IAction) (rest : List (ActionPack τ))
  /-- In `Hangup`, about to request the release of a connected call. -/
  | releasing (next : Continuation τ)
  /-- In `Hangup`, about to set the event. -/
  | signalling (next : Continuation τ)
  /-- Behind the loop, about to look at the state once more. -/
  | leaving
  /-- At the last `Hangup`. -/
  | closing
  | returned
  deriving DecidableEq, Repr

/-- A thread, with the packs it has started and the actions whose `Execute` it has invoked. -/
structure Thread (τ : Type*) where
  pc : Pc τ
  started : List (ActionPack τ) := []
  executed : List IAction := []
  deriving DecidableEq, Repr

/-- The loop over the triggers: the first that is not triggered ends it. -/
def triggeredFrom (ask : ℕ → τ → Bool) : ℕ → List τ → Bool
  | _, [] => true
  | i, trigger :: rest => if !ask i trigger then false else triggeredFrom ask (i + 1) rest

/-- `Hangup` starts with a look at the state. -/
def Pc.hangup (seen : CallState) (next : Continuation τ) : Pc τ :=
  if seen = .Connected then .releasing next else .signalling next

/-- What follows a hangup. -/
def Continuation.pc : Continuation τ → Pc τ
  | .pack todo rest => .acting todo rest
  | .exit => .returned

namespace Thread

/-- A thread that has been queued. -/
def initial : Thread τ := { pc := .queued }

/-- `action.Execute`, inside the `try` of `TriggeredExecution`: an exception ends the action, and
the next one follows. -/
def execute (o : Moment τ) (todo : List IAction) (rest : List (ActionPack τ)) (a : IAction) :
    Pc τ :=
  if o.throws then .acting todo rest
  else match a with
    | .playwav _ => .waiting o.player todo rest
    | .hangup => .hangup o.seen (.pack todo rest)
    | .delay _ | .accept => .acting todo rest

/-- One step of `CallActionsThread` on the packs of its account, which can be missing.  The
condition of the loop compares the state with three constants; one reading stands for all three. -/
def step (script : Option (List (ActionPack τ))) (t : Thread τ) (o : Moment τ) : Thread τ :=
  match t.pc with
  | .queued =>
      match script with
      | none | some [] => { t with pc := .closing }
      | some packs => { t with pc := .poll packs }
  | .poll [] => { t with pc := .leaving }
  | .poll (current :: rest) =>
      if o.seen.ended then { t with pc := .leaving }
      else if triggeredFrom o.ask 0 current.triggers then
        { t with pc := .acting current.actions rest, started := t.started ++ [current] }
      else t
  | .acting [] rest => { t with pc := .poll rest }
  | .acting (a :: todo) rest =>
      { t with pc := execute o todo rest a, executed := t.executed ++ [a] }
  | .waiting _ todo rest => { t with pc := .acting todo rest }
  | .releasing next => { t with pc := .signalling next }
  | .signalling next => { t with pc := next.pc }
  | .leaving => { t with pc := if o.seen.ended then .returned else .closing }
  | .closing => { t with pc := .hangup o.seen .exit }
  | .returned => t

end Thread

/-- All triggers of a pack are true. -/
lemma triggeredFrom_iff (ask : ℕ → τ → Bool) (triggers : List τ) (i : ℕ) :
    triggeredFrom ask i triggers ↔
      ∀ (j : ℕ) (h : j < triggers.length), ask (i + j) (triggers.get ⟨j, h⟩) := by
  induction triggers generalizing i with
  | nil => simp [triggeredFrom]
  | cons t rest ih =>
      have hsplit : triggeredFrom ask i (t :: rest) ↔ ask i t ∧ triggeredFrom ask (i + 1) rest := by
        cases h : ask i t <;> simp [triggeredFrom, h]
      have hindex : ∀ j, i + 1 + j = i + (j + 1) := fun j => by omega
      rw [hsplit, ih]
      constructor
      · rintro ⟨h0, hrest⟩ j hj
        rcases j with _ | j
        · exact h0
        · rw [← hindex]
          exact hrest j (Nat.lt_of_succ_lt_succ hj)
      · intro h
        refine ⟨h 0 (Nat.succ_pos _), fun j hj => ?_⟩
        rw [hindex]
        exact h (j + 1) (Nat.succ_lt_succ hj)

/-! ## Which step leads where -/

namespace Thread

variable {script : Option (List (ActionPack τ))} {t : Thread τ} {o : Moment τ}

/-- The edges of the control flow, with what the step reads on each. -/
inductive Edge (o : Moment τ) : Pc τ → Pc τ → Prop
  | begin (packs : List (ActionPack τ)) : Edge o .queued (.poll packs)
  | skip : Edge o .queued .closing
  | leave (rest : List (ActionPack τ)) (h : rest = [] ∨ o.seen.ended) : Edge o (.poll rest) .leaving
  | start (current : ActionPack τ) (rest : List (ActionPack τ)) :
      Edge o (.poll (current :: rest)) (.acting current.actions rest)
  | again (rest : List (ActionPack τ)) : Edge o (.poll rest) (.poll rest)
  | next (rest : List (ActionPack τ)) : Edge o (.acting [] rest) (.poll rest)
  | done (a : IAction) (todo : List IAction) (rest : List (ActionPack τ)) :
      Edge o (.acting (a :: todo) rest) (.acting todo rest)
  | play (file : String) (todo : List IAction) (rest : List (ActionPack τ)) (h : o.throws = false) :
      Edge o (.acting (.playwav file :: todo) rest) (.waiting o.player todo rest)
  | hangupConnected (todo : List IAction) (rest : List (ActionPack τ)) :
      Edge o (.acting (.hangup :: todo) rest) (.releasing (.pack todo rest))
  | hangupOther (todo : List IAction) (rest : List (ActionPack τ)) :
      Edge o (.acting (.hangup :: todo) rest) (.signalling (.pack todo rest))
  | wake (y : Option PlayerId) (todo : List IAction) (rest : List (ActionPack τ)) :
      Edge o (.waiting y todo rest) (.acting todo rest)
  | released (next : Continuation τ) : Edge o (.releasing next) (.signalling next)
  | signalled (todo : List IAction) (rest : List (ActionPack τ)) :
      Edge o (.signalling (.pack todo rest)) (.acting todo rest)
  | ended (h : o.seen.ended) : Edge o .leaving .returned
  | live : Edge o .leaving .closing
  | closeConnected : Edge o .closing (.releasing .exit)
  | closeOther (h : o.seen ≠ .Connected) : Edge o .closing (.signalling .exit)
  | exit : Edge o (.signalling .exit) .returned
  | stop : Edge o .returned .returned

/-- **Every step follows an edge.** -/
lemma step_edge (script : Option (List (ActionPack τ))) (t : Thread τ) (o : Moment τ) :
    Edge o t.pc (Thread.step script t o).pc := by
  cases hpc : t.pc with
  | queued =>
      rcases script with _ | _ | ⟨current, packs⟩
      · simpa [Thread.step, hpc] using Edge.skip
      · simpa [Thread.step, hpc] using Edge.skip
      · simpa [Thread.step, hpc] using Edge.begin (current :: packs)
  | poll packs =>
      rcases packs with _ | ⟨current, rest⟩
      · simpa [Thread.step, hpc] using Edge.leave [] (Or.inl rfl)
      · simp only [Thread.step, hpc]
        split_ifs with hended
        · exact .leave _ (Or.inr hended)
        · exact .start current rest
        · rw [hpc]
          exact .again _
  | acting todo rest =>
      rcases todo with _ | ⟨a, todo⟩
      · simpa [Thread.step, hpc] using Edge.next rest
      · simp only [Thread.step, hpc, execute]
        split_ifs with hthrows
        · exact .done a todo rest
        · cases a with
          | playwav file => exact .play file todo rest (by simpa using hthrows)
          | hangup =>
              simp only [Pc.hangup]
              split_ifs
              · exact .hangupConnected todo rest
              · exact .hangupOther todo rest
          | delay _ => exact .done _ todo rest
          | accept => exact .done _ todo rest
  | waiting y todo rest => simpa [Thread.step, hpc] using Edge.wake y todo rest
  | releasing next => simpa [Thread.step, hpc] using Edge.released next
  | signalling next =>
      cases next with
      | pack todo rest => simpa [Thread.step, hpc, Continuation.pc] using Edge.signalled todo rest
      | exit => simpa [Thread.step, hpc, Continuation.pc] using Edge.exit
  | leaving =>
      simp only [Thread.step, hpc]
      split_ifs with hended
      · exact .ended hended
      · exact .live
  | closing =>
      simp only [Thread.step, hpc, Pc.hangup]
      split_ifs with hseen
      · exact .closeConnected
      · exact .closeOther hseen
  | returned => simpa [Thread.step, hpc] using Edge.stop

/-- A thread waits after the start of a playback. -/
lemma step_waiting {y : Option PlayerId} {todo : List IAction} {rest : List (ActionPack τ)}
    (h : (Thread.step script t o).pc = .waiting y todo rest) :
    ∃ file, t.pc = .acting (.playwav file :: todo) rest ∧ o.throws = false ∧ o.player = y := by
  have hedge := step_edge script t o
  rw [h] at hedge
  generalize t.pc = pc at hedge ⊢
  cases hedge with
  | play file todo rest hthrows => exact ⟨file, rfl, hthrows, rfl⟩

/-- The last `Hangup` comes to its end: it found the call unconnected, or has requested its
release. -/
lemma step_signalling_exit (h : (Thread.step script t o).pc = .signalling .exit) :
    (t.pc = .closing ∧ o.seen ≠ .Connected) ∨ t.pc = .releasing .exit := by
  have hedge := step_edge script t o
  rw [h] at hedge
  generalize t.pc = pc at hedge ⊢
  cases hedge with
  | closeOther hseen => exact Or.inl ⟨rfl, hseen⟩
  | released => exact Or.inr rfl

/-- A thread returns because it saw that the call has ended, or from the last `Hangup`. -/
lemma step_returned (h : (Thread.step script t o).pc = .returned) :
    t.pc = .returned ∨ (t.pc = .leaving ∧ o.seen.ended) ∨ t.pc = .signalling .exit := by
  have hedge := step_edge script t o
  rw [h] at hedge
  generalize t.pc = pc at hedge ⊢
  cases hedge with
  | ended hended => exact Or.inr (Or.inl ⟨rfl, hended⟩)
  | exit => exact Or.inr (Or.inr rfl)
  | stop => exact Or.inl rfl

/-- The only step that leaves the loop. -/
lemma step_leaving : (Thread.step script t o).pc = .leaving ↔
    ∃ rest, t.pc = .poll rest ∧ (rest = [] ∨ o.seen.ended) := by
  constructor
  · intro h
    have hedge := step_edge script t o
    rw [h] at hedge
    generalize t.pc = pc at hedge ⊢
    cases hedge with
    | leave rest hrest => exact ⟨rest, rfl, hrest⟩
  · rintro ⟨rest, hpc, hleave⟩
    rcases rest with _ | ⟨current, rest⟩
    · simp [Thread.step, hpc]
    · have hended : o.seen.ended := hleave.resolve_left (by simp)
      simp [Thread.step, hpc, hended]

end Thread

/-! ## Scripts run in order -/

namespace Thread

variable {script : Option (List (ActionPack τ))} {packs : List (ActionPack τ)} {t : Thread τ}

/-- The actions of some packs, one pack after the other. -/
def actionsOf (packs : List (ActionPack τ)) : List IAction := packs.flatMap ActionPack.actions

/-- What a thread still has to do with its packs: the actions left in the pack it is in, and the
packs behind it.  A thread behind the loop has given up the rest. -/
def remaining (packs : List (ActionPack τ)) : Pc τ → Option (List IAction × List (ActionPack τ))
  | .queued => some ([], packs)
  | .poll rest => some ([], rest)
  | .acting todo rest | .waiting _ todo rest => some (todo, rest)
  | .releasing (.pack todo rest) | .signalling (.pack todo rest) => some (todo, rest)
  | _ => none

/-- The packs started and the rest are the script, and the actions invoked and those left to do are
the actions of the packs started. -/
def InOrder (packs : List (ActionPack τ)) (t : Thread τ) : Prop :=
  match remaining packs t.pc with
  | some (todo, rest) => t.started ++ rest = packs ∧ t.executed ++ todo = actionsOf t.started
  | none => t.started <+: packs ∧ t.executed = actionsOf t.started

lemma InOrder.initial (packs : List (ActionPack τ)) : InOrder packs initial := ⟨rfl, rfl⟩

/-- Behind the loop the rest is given up. -/
lemma InOrder.give_up {rest : List (ActionPack τ)} (h : InOrder packs t)
    (hpc : remaining packs t.pc = some ([], rest)) {pc : Pc τ} (hpc' : remaining packs pc = none) :
    InOrder packs { t with pc := pc } := by
  simp only [InOrder, hpc, hpc', List.append_nil] at h ⊢
  exact ⟨⟨rest, h.1⟩, h.2⟩

/-- Moving on without touching packs and actions. -/
lemma InOrder.move (h : InOrder packs t) {pc : Pc τ}
    (hpc : remaining packs pc = remaining packs t.pc) : InOrder packs { t with pc := pc } := by
  simpa only [InOrder, hpc] using h

/-- Whatever an action does, the others of its pack are left. -/
lemma remaining_execute (packs : List (ActionPack τ)) (o : Moment τ) (todo : List IAction)
    (rest : List (ActionPack τ)) (a : IAction) :
    remaining packs (execute o todo rest a) = some (todo, rest) := by
  simp only [execute]
  split_ifs
  · rfl
  · cases a with
    | hangup => simp only [Pc.hangup]; split_ifs <;> rfl
    | playwav _ => rfl
    | delay _ => rfl
    | accept => rfl

/-- **One step of the thread keeps the order.** -/
lemma InOrder.step (h : InOrder (script.getD []) t) (o : Moment τ) :
    InOrder (script.getD []) (Thread.step script t o) := by
  cases hpc : t.pc with
  | queued =>
      rcases script with _ | _ | ⟨current, rest⟩
      all_goals simp only [Thread.step, hpc]
      · exact h.give_up (by rw [hpc]; rfl) rfl
      · exact h.give_up (by rw [hpc]; rfl) rfl
      · exact h.move (by rw [hpc]; rfl)
  | poll packs =>
      rcases packs with _ | ⟨current, rest⟩
      all_goals simp only [Thread.step, hpc]
      · exact h.give_up (by rw [hpc]; rfl) rfl
      · split_ifs
        · exact h.give_up (by rw [hpc]; rfl) rfl
        · -- the pack starts: its actions are what is left to do
          simp only [InOrder, hpc, remaining, List.append_nil] at h ⊢
          refine ⟨by simpa using h.1, ?_⟩
          rw [h.2]
          simp [actionsOf]
        · exact h
  | acting todo rest =>
      rcases todo with _ | ⟨a, todo⟩
      all_goals simp only [Thread.step, hpc]
      · exact h.move (by rw [hpc]; rfl)
      · -- the action has been invoked, and the others are left
        simp only [InOrder, hpc, remaining] at h
        simp only [InOrder, remaining_execute]
        exact ⟨h.1, by simpa using h.2⟩
  | waiting player todo rest =>
      simp only [Thread.step, hpc]
      exact h.move (by rw [hpc]; rfl)
  | releasing next =>
      simp only [Thread.step, hpc]
      exact h.move (by rw [hpc]; cases next <;> rfl)
  | signalling next =>
      simp only [Thread.step, hpc]
      exact h.move (by rw [hpc]; cases next <;> rfl)
  | leaving =>
      simp only [Thread.step, hpc]
      refine h.move ?_
      rw [hpc]
      split_ifs <;> rfl
  | closing =>
      simp only [Thread.step, hpc, Pc.hangup]
      refine h.move ?_
      rw [hpc]
      split_ifs <;> rfl
  | returned =>
      simp only [Thread.step, hpc]
      exact h

/-- At a poll the packs before those left have been executed as a whole, and nothing else has. -/
def WholePacks (packs : List (ActionPack τ)) (t : Thread τ) : Prop :=
  ∀ rest, t.pc = .poll rest → ∃ n, rest = packs.drop n ∧ t.started = packs.take n ∧
    t.executed = actionsOf (packs.take n)

/-- What one step does about packs and the loop: a pack starts only at a poll where all its triggers
are true and the call has not ended; and the loop is left exactly at a poll where all packs have
been started or the call has ended. -/
structure PollsRightly (script : Option (List (ActionPack τ))) (t : Thread τ) (o : Moment τ) :
    Prop where
  starts : (Thread.step script t o).started = t.started ∨ ∃ current rest,
    t.pc = .poll (current :: rest) ∧ (Thread.step script t o).started = t.started ++ [current] ∧
    o.seen.ended = false ∧
    ∀ (j : ℕ) (h : j < current.triggers.length), o.ask j (current.triggers.get ⟨j, h⟩)
  exits : (Thread.step script t o).pc = .leaving ↔
    ∃ rest, t.pc = .poll rest ∧ (t.started = script.getD [] ∨ o.seen.ended)

lemma InOrder.wholePacks (h : InOrder packs t) : WholePacks packs t := by
  intro rest hpc
  simp only [InOrder, hpc, remaining, List.append_nil] at h
  obtain ⟨hpacks, hexec⟩ := h
  refine ⟨t.started.length, ?_, ?_, ?_⟩
  · rw [← hpacks, List.drop_left]
  · rw [← hpacks, List.take_left]
  · rw [← hpacks, List.take_left, hexec]

/-- The only step that starts a pack. -/
lemma step_started (script : Option (List (ActionPack τ))) (t : Thread τ) (o : Moment τ) :
    (Thread.step script t o).started = t.started ∨ ∃ current rest,
      t.pc = .poll (current :: rest) ∧ (Thread.step script t o).started = t.started ++ [current] ∧
      o.seen.ended = false ∧ triggeredFrom o.ask 0 current.triggers := by
  cases hpc : t.pc with
  | queued =>
      left
      rcases script with _ | _ | ⟨current, rest⟩ <;> simp only [Thread.step, hpc]
  | poll packs =>
      rcases packs with _ | ⟨current, rest⟩
      · left
        simp only [Thread.step, hpc]
      · simp only [Thread.step, hpc]
        split_ifs with hended htriggered
        · exact Or.inl rfl
        · exact Or.inr ⟨current, rest, rfl, rfl, by simpa using hended, htriggered⟩
        · exact Or.inl rfl
  | acting todo rest =>
      left
      rcases todo with _ | ⟨a, todo⟩ <;> simp only [Thread.step, hpc]
  | _ =>
      left
      simp only [Thread.step, hpc]

lemma InOrder.pollsRightly (h : InOrder (script.getD []) t) (o : Moment τ) :
    PollsRightly script t o where
  starts := by
    refine (step_started script t o).imp_right ?_
    rintro ⟨current, rest, hpc, hstart, hended, htriggered⟩
    refine ⟨current, rest, hpc, hstart, hended, fun j hj => ?_⟩
    simpa using (triggeredFrom_iff o.ask current.triggers 0).mp htriggered j hj
  exits := by
    rw [step_leaving]
    refine exists_congr fun rest => and_congr_right fun hpc => or_congr_left ?_
    -- nothing is left exactly when all packs have been started
    simp only [InOrder, hpc, remaining, List.append_nil] at h
    rw [← h.1]
    simp

/-- **Scripts run in order, whole and at most once**: for every script and every course of triggers,
call states and exceptions, the actions invoked when the thread is at a poll are those of the packs
before the ones left, packs start only when they may, and the loop ends exactly when it has to. -/
theorem scripts_in_order (script : Option (List (ActionPack τ))) (run : List (Moment τ)) :
    Throughout (Thread.step script) (WholePacks (script.getD [])) initial run ∧
      Along (Thread.step script) (PollsRightly script) initial run :=
  ⟨throughout_of_along (J := InOrder (script.getD [])) (fun _ o h _ => h.step o)
      (fun _ h => h.wholePacks) (InOrder.initial _) (along_true _ run),
    along_of_along (J := InOrder (script.getD [])) (fun _ o h _ => h.step o)
      (fun _ o h _ => h.pollsRightly o) (InOrder.initial _) (along_true _ run)⟩

end Thread

end TAM
