import AnsweringMachine.Application.World

/-!
# Playbacks

`PlayAudioFile` starts a player and waits for the event of its call.  The event is one auto-reset
flag: it is set by the end of any player that was started under the call's id, by `Hangup` in any
state of the call, and by the provider when the call is over; and it is consumed by whoever waits
first.

* `no_thread_orphaned`: no thread is left waiting for the event of a call that has been removed, in
  every run in which playbacks are only started on calls that are in the list and not about to leave
  it, or whose event is set.  `orphaned_by_second_playback` is a run that leaves one behind: the end
  of the call wakes the first playback of a pack, and nothing wakes the second.
* `playbacks_complete`: no playback is cut short by a signal that is not its own, in every run in
  which playbacks find the event unset and are not overlapped by others under the same id.
  `cut_short_by_hangup` is a run in which a hangup that came too early does it.
-/

namespace TAM

open Runs

namespace World

variable {τ : Type*} {w : World τ} {c : CallRef} {script : CallRef → Option (List (ActionPack τ))}

/-! ## Threads that nobody will wake -/

/-- No thread waits for an event that is unset and whose call is out of the list. -/
def NoThreadOrphaned (w : World τ) : Prop :=
  ∀ c y todo packs, w.pc c = .waiting y todo packs → w.signalled c = false → c ∈ w.provider.calls

/-- If a playback starts, its call is in the list and its removal is not what the provider handles
next, or its event is set. -/
def playsToListed (w : World τ) : Label τ → Bool
  | .thread c _ throws _ =>
      match w.pc c with
      | .acting (.playwav _ :: _) _ => throws ∨ w.signalled c ∨
          c ∈ w.provider.calls ∧ Listening.removal w.inbox ≠ some (w.callId c)
      | _ => true
  | _ => true

/-- The calls that are waited for are in the list and stay there. -/
structure Attended (w : World τ) : Prop where
  sound : w.Sound
  listed : ∀ c y todo packs, w.pc c = .waiting y todo packs → w.signalled c = false →
    c ∈ w.provider.calls ∧ Listening.removal w.inbox ≠ some (w.callId c)

lemma Attended.initial (config : IConfigurator) : (initial config : World τ).Attended :=
  ⟨.initial config, fun _ _ _ _ h => by simp [World.pc, World.initial] at h⟩

lemma Attended.step (h : w.Attended) {l : Label τ} (hl : w.playsToListed l) :
    (World.step script w l).Attended := by
  refine ⟨h.sound.step l, fun c y todo packs hpc hset => ?_⟩
  have hfor := h.sound.stepFor script l c
  generalize World.step script w l = w' at hfor hpc hset
  cases hfor with
  | untouched _ _ hu =>
      rw [hu.pc] at hpc
      simp only [signalled, callId, hu.object] at hset ⊢
      obtain ⟨hmem, hrem⟩ := h.listed c y todo packs hpc hset
      refine ⟨by rw [hu.calls]; exact hmem, ?_⟩
      rcases hu.removal with he | he
      · rw [he]; exact hrem
      · rw [he]; simp
  | created _ _ hnew => rw [hnew] at hpc; simp at hpc
  | noticed n rest hin hn hsame =>
      rw [hsame] at hpc
      have hunset : ((w.provider.notify n).objects c).audioPlaybackCompleted = false := hset
      have hset₀ : w.signalled c = false := by
        cases hs : w.signalled c with
        | false => rfl
        | true => exact (hn.sets hs).symm.trans hunset
      obtain ⟨hmem, hrem⟩ := h.listed c y todo packs hpc hset₀
      have hnull : n ≠ .CallStateRefresh (w.callId c) .NULL := by
        rintro rfl
        exact hrem (by rw [hin]; rfl)
      refine ⟨hn.listed hmem hnull, fun hnext => ?_⟩
      -- its removal comes next, so its end has been reported, and its event is set
      have hidle : n = .CallStateRefresh (w.callId c) .IDLE := by
        have hend := h.sound.endingAfter_eq hin
        have hnext' : Listening.removal rest = some (w.callId c) := by
          simpa [World.handle, callId, hn.id] using hnext
        exact Listening.eq_of_endingAfter (hend.trans hnext')
      simp [hn.idle hmem hidle] at hunset
  | moves ask throws media _ hmove =>
      rcases hmove.waiting hpc with rfl | ⟨⟨file, hold⟩, hthrows, hprov, hinbox⟩
      · exact h.listed c y todo packs hpc hset
      · simp only [signalled, callId, hprov, hinbox] at hset ⊢
        have hcond : throws ∨ w.signalled c ∨
            c ∈ w.provider.calls ∧ Listening.removal w.inbox ≠ some (w.callId c) := by
          simpa [playsToListed, hold] using hl
        rcases hcond with ht | hs | hok
        · exact absurd (hthrows.symm.trans ht) (by simp)
        · exact absurd hs (by simpa [signalled] using hset)
        · exact hok
  | ended x k hx hc => simp [signalled] at hset

/-- **No thread is left waiting for a call that has been removed**, in every run whose playbacks
start on calls that are in the list and stay there, or whose event is set. -/
theorem no_thread_orphaned (script : CallRef → Option (List (ActionPack τ)))
    (config : IConfigurator)
    (run : List (Label τ))
    (hrun : Along (World.step script) (fun w l => w.playsToListed l) (initial config) run) :
    Throughout (World.step script) NoThreadOrphaned (initial config) run :=
  throughout_of_along (J := Attended) (fun _ _ h hl => h.step hl)
    (fun _ h c y todo packs hpc hset => (h.listed c y todo packs hpc hset).1)
    (Attended.initial config) hrun

/-- A step of the thread of the first call; its triggers are true, and nothing is thrown. -/
def firstThread (media : Bool) : Label Unit := .thread 0 (fun _ _ => true) false media

/-- The first call arrives under the id 1, and its thread is queued. -/
def firstCall : List (Label Unit) :=
  [.event (.callStateChanged 1 .SESSION_STATE_INCOMING), .event (.callIncoming 1 "caller" ""),
   .deliver, .deliver]

/-- Every account accepts its calls and plays one file. -/
def greeting : CallRef → Option (List (ActionPack Unit)) :=
  fun _ => some [⟨"greeting", [], [.accept, .playwav "greeting.wav"]⟩]

/-- The greeting is played to its end. -/
def greetingRun : List (Label Unit) :=
  firstCall ++ [firstThread true, firstThread true, firstThread true, .deliver, firstThread true,
    .playerEnded 0, firstThread true]

/-- A greeting that is played to its end orphans nobody. -/
theorem no_thread_orphaned_greeting :
    Throughout (World.step greeting) NoThreadOrphaned (initial {}) greetingRun :=
  no_thread_orphaned greeting {} greetingRun (by decide +kernel)

/-- Every account accepts its calls and plays two files. -/
def twoPlaybacks : CallRef → Option (List (ActionPack Unit)) :=
  fun _ => some [⟨"greeting", [], [.accept, .playwav "greeting.wav", .playwav "notice.wav"]⟩]

/-- The caller hangs up during the first playback. -/
def hangupRun : List (Label Unit) :=
  firstCall ++ [firstThread true, firstThread true, firstThread true, .deliver, firstThread true,
    .event (.callStateChanged 1 .SESSION_STATE_DISCONNECTED), .deliver,
    .event (.timerElapsed 0 .ERELEASED), .deliver, .deliver, firstThread false, firstThread false]

/-- **A thread waits for ever**: the end of the call set the event once, the first playback consumed
it, and the second was started on a call that had been removed. -/
theorem orphaned_by_second_playback :
    (run (World.step twoPlaybacks) (initial {}) hangupRun).pc 0 = .waiting none [] [] ∧
      (run (World.step twoPlaybacks) (initial {}) hangupRun).signalled 0 = false ∧
      (run (World.step twoPlaybacks) (initial {}) hangupRun).provider.calls = [] ∧
      ¬ NoThreadOrphaned (run (World.step twoPlaybacks) (initial {}) hangupRun) := by
  have hpc : (run (World.step twoPlaybacks) (initial {}) hangupRun).pc 0 = .waiting none [] [] := by
    decide +kernel
  have hunset : (run (World.step twoPlaybacks) (initial {}) hangupRun).signalled 0 = false := by
    decide +kernel
  have hcalls : (run (World.step twoPlaybacks) (initial {}) hangupRun).provider.calls = [] := by
    decide +kernel
  refine ⟨hpc, hunset, hcalls, fun h => ?_⟩
  have hmem := h 0 none [] [] hpc hunset
  rw [hcalls] at hmem
  simp at hmem

/-! ## Playbacks that are cut short -/

/-- If a playback starts, its event is unset; and if a player ends, no other playback of the same id
is waiting.  Calls that are over do not matter. -/
def playsAlone (w : World τ) : Label τ → Bool
  | .thread c _ throws _ =>
      match w.pc c with
      | .acting (.playwav _ :: _) _ => throws ∨ w.signalled c = false ∨ (w.callState c).over
      | _ => true
  | .playerEnded x =>
      match w.players.lookup x with
      | none => true
      | some k =>
          match w.provider.findCallById k with
          | none => true
          | some c =>
              match w.pc c with
              | .waiting y _ _ => y = some x ∨ (w.callState c).over
              | _ => true
  | _ => true

/-- A playback returns only when its own player has reported its end, or the call is over. -/
def ReturnsRightly (script : CallRef → Option (List (ActionPack τ))) (w : World τ) :
    Label τ → Prop
  | .thread c ask throws media => ∀ y todo packs, w.pc c = .waiting y todo packs →
      (World.step script w (.thread c ask throws media)).pc c ≠ w.pc c →
      (∃ x, y = some x ∧ x ∈ w.reported) ∨ w.callState c = .HangUp ∨ w.callState c = .Disconnected
  | _ => True

/-- An event that is set while a thread waits for it was set rightly. -/
structure Unspoilt (w : World τ) : Prop where
  sound : w.Sound
  rightly : ∀ c y todo packs, w.pc c = .waiting y todo packs → w.signalled c = true →
    (∃ x, y = some x ∧ x ∈ w.reported) ∨ (w.callState c).over

lemma Unspoilt.initial (config : IConfigurator) : (initial config : World τ).Unspoilt :=
  ⟨.initial config, fun _ _ _ _ h => by simp [World.pc, World.initial] at h⟩

lemma Unspoilt.step (h : w.Unspoilt) {l : Label τ} (hl : w.playsAlone l) :
    (World.step script w l).Unspoilt := by
  refine ⟨h.sound.step l, fun c y todo packs hpc hset => ?_⟩
  have hfor := h.sound.stepFor script l c
  generalize World.step script w l = w' at hfor hpc hset
  cases hfor with
  | untouched _ _ hu =>
      rw [hu.pc] at hpc
      simp only [signalled, callState, hu.object] at hset ⊢
      exact (h.rightly c y todo packs hpc hset).imp_left fun ⟨x, hx, hrep⟩ =>
        ⟨x, hx, hu.reported x hrep⟩
  | created _ _ hnew => rw [hnew] at hpc; simp at hpc
  | noticed n rest hin hn hsame =>
      rw [hsame] at hpc
      rcases hn.event with he | he
      · refine (h.rightly c y todo packs hpc (he.symm.trans hset)).imp_right fun hover => ?_
        rcases hn.ended (CallState.ended_of_over hover) with hs | hs | hs
        · exact (congrArg CallState.over hs).trans hover
        · exact congrArg CallState.over hs
        · exact congrArg CallState.over hs
      · exact Or.inr (congrArg CallState.over he)
  | moves ask throws media _ hmove =>
      rcases hmove.waiting hpc with rfl | ⟨⟨file, hold⟩, hthrows, hprov, -⟩
      · exact h.rightly c y todo packs hpc hset
      · simp only [signalled, callState, hprov] at hset ⊢
        have hcond : throws ∨ w.signalled c = false ∨ (w.callState c).over := by
          simpa [playsAlone, hold] using hl
        rcases hcond with ht | hs | hover
        · exact absurd (hthrows.symm.trans ht) (by simp)
        · exact absurd (hs.symm.trans hset) (by simp)
        · exact Or.inr hover
  | ended x k hx hc =>
      have hpc' : w.pc c = .waiting y todo packs := hpc
      have hcond : y = some x ∨ (w.callState c).over := by
        simpa [playsAlone, hx, hc, hpc'] using hl
      rcases hcond with rfl | hover
      · exact Or.inl ⟨x, rfl, List.mem_cons_self⟩
      · exact Or.inr (by simpa [callState] using hover)

/-- Only a set event lets a thread return. -/
lemma Unspoilt.returnsRightly (h : w.Unspoilt) (l : Label τ) : ReturnsRightly script w l := by
  cases l with
  | thread c ask throws media =>
      intro y todo packs hpc hleft
      have hset : w.signalled c = true := by
        by_contra hset
        exact hleft (by simp [World.step, threadStep, hpc, hset])
      refine (h.rightly c y todo packs hpc hset).imp_right fun hover => ?_
      cases hst : w.callState c <;> simp_all [CallState.over]
  | _ => trivial

/-- **Every playback is heard to its end**, unless the call is over, in every run whose playbacks
start with the event unset and do not overlap with others under the same id. -/
theorem playbacks_complete (script : CallRef → Option (List (ActionPack τ)))
    (config : IConfigurator)
    (run : List (Label τ))
    (hrun : Along (World.step script) (fun w l => w.playsAlone l) (initial config) run) :
    Along (World.step script) (ReturnsRightly script) (initial config) run :=
  along_of_along (J := Unspoilt) (fun _ _ h hl => h.step hl) (fun _ l h _ => h.returnsRightly l)
    (Unspoilt.initial config) hrun

/-- A greeting that is played to its end is not cut short. -/
theorem playbacks_complete_greeting :
    Along (World.step greeting) (ReturnsRightly greeting) (initial {}) greetingRun :=
  playbacks_complete greeting {} greetingRun (by decide +kernel)

/-- Every account hangs up before it accepts. -/
def hastyHangup : CallRef → Option (List (ActionPack Unit)) :=
  fun _ => some [⟨"greeting", [], [.hangup, .accept, .playwav "greeting.wav"]⟩]

/-- The call is accepted, and the playback is started. -/
def hastyRun : List (Label Unit) :=
  firstCall ++ [firstThread true, firstThread true, firstThread true, firstThread true,
    firstThread true, .deliver, firstThread true]

/-- **The playback returns at once**: the hangup found the call ringing and did nothing but set the
event.  The player runs, and the call is connected. -/
theorem cut_short_by_hangup :
    (run (World.step hastyHangup) (initial {}) hastyRun).pc 0 = .waiting (some 0) [] [] ∧
      (run (World.step hastyHangup) (initial {}) hastyRun).players = [(0, 1)] ∧
      (run (World.step hastyHangup) (initial {}) hastyRun).callState 0 = .Connected ∧
      ¬ ReturnsRightly hastyHangup (run (World.step hastyHangup) (initial {}) hastyRun)
        (firstThread true) := by
  have hpc : (run (World.step hastyHangup) (initial {}) hastyRun).pc 0 =
      .waiting (some 0) [] [] := by decide +kernel
  have hstate : (run (World.step hastyHangup) (initial {}) hastyRun).callState 0 = .Connected := by
    decide +kernel
  have hreported : (run (World.step hastyHangup) (initial {}) hastyRun).reported = [] := by
    decide +kernel
  refine ⟨hpc, by decide +kernel, hstate, fun h => ?_⟩
  have hwoken := h (some 0) [] [] hpc (by rw [hpc]; decide +kernel)
  rw [hstate, hreported] at hwoken
  simp at hwoken

end World

end TAM
