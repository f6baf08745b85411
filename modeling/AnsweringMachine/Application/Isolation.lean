import AnsweringMachine.Application.Provider
import AnsweringMachine.CallControl.Handlers
import AnsweringMachine.CallControl.Reports
import AnsweringMachine.CallControl.Timers

/-!
# The events of one call do not touch another

Two things could carry an event of one call over to another: a call leaves the table by the number
of its session and not by what it is, and the application is told of changes by that number.  A
machine that was given up, or lost its place in the table, still has its session, and timers that
run.

Whatever a handler does to a machine, it takes out of the table, and reports, nothing but the
session of that machine (`Speaks`).  Since every other machine of the table is entered under its own
session, it is left alone, whichever machine the event reached (`others_untouched`).
-/

namespace TAM

open Runs

/-- The id a notification carries. -/
def Notification.sessionId : Notification → CallId
  | .CallStateRefresh k _ => k
  | .IncomingCallNotification k _ _ => k

namespace CCallManager

variable {m m' m'' : CCallManager} {r s : MachineRef} {k : CallId} {o : Outcome}

/-! ## What a handler reports -/

/-- The machine `r` has the session `k` afterwards, and nothing was notified but under that id. -/
structure Speaks (k : CallId) (r : MachineRef) (m m' : CCallManager) : Prop where
  session : (m'.machines r).session = some k
  told : ∃ l, Reports m m' l ∧ ∀ n ∈ l, n.sessionId = k

namespace Speaks

lemma silent (hrep : Reports m m' []) (h : (m'.machines r).session = some k) : Speaks k r m m' :=
  ⟨h, [], hrep, by simp⟩

lemma refl (h : (m.machines r).session = some k) : Speaks k r m m := silent (Reports.refl m) h

lemma trans (h : Speaks k r m m') (h' : Speaks k r m' m'') : Speaks k r m m'' := by
  obtain ⟨l, hl, hk⟩ := h.told
  obtain ⟨l', hl', hk'⟩ := h'.told
  refine ⟨h'.session, l ++ l', hl.trans hl', fun n hn => ?_⟩
  rcases List.mem_append.mp hn with hn | hn
  · exact hk n hn
  · exact hk' n hn

lemma raise (h : Speaks k r m m') {n : Notification} (hn : n.sessionId = k) :
    Speaks k r m (m'.emit (.raise n)) :=
  h.trans ⟨h.session, [n], by simp [Reports], by simpa using hn⟩

/-- A handler asks the stack, writes the log and assigns in silence; what it reports, and takes out
of the table, is the session its machine has. -/
lemma keptByHandlers (k : CallId) (r : MachineRef) (m : CCallManager) :
    KeptByHandlers r (Speaks k r m) where
  assign h hf := h.trans (silent (modify_reports _ r _) (by simp [hf, h.session]))
  utter h hx := by
    cases hx with
    | request _ => exact h.trans (silent (request_reports _ r _) h.session)
    | report hk st =>
        rw [h.session, Option.some.injEq] at hk
        exact h.raise hk.symm
    | log => exact h.trans (silent (by simp [Reports]) h.session)
  leave h _ := h.trans (silent (Reports.refl _) h.session)

end Speaks

/-! ## What an event does to the other calls -/

/-- Between `m` and `m'` nothing happened to the calls under other ids. -/
structure Apart (k : CallId) (m m' : CCallManager) : Prop where
  entries : ∀ j, j ≠ k → m'.calls.get? j = m.calls.get? j
  records : ∀ j, j ≠ k → ∀ s, m.calls.get? j = some s → m'.machines s = m.machines s
  pending : m'.pendingAction = m.pendingAction
  told : ∃ l, Reports m m' l ∧ ∀ n ∈ l, n.sessionId = k

namespace Apart

lemma refl (k : CallId) (m : CCallManager) : Apart k m m :=
  ⟨fun _ _ => rfl, fun _ _ _ _ => rfl, rfl, [], Reports.refl m, by simp⟩

lemma trans (h : Apart k m m') (h' : Apart k m' m'') : Apart k m m'' := by
  obtain ⟨l, hl, hk⟩ := h.told
  obtain ⟨l', hl', hk'⟩ := h'.told
  refine ⟨fun j hj => (h'.entries j hj).trans (h.entries j hj), fun j hj s hs => ?_,
    h'.pending.trans h.pending, l ++ l', hl.trans hl', fun n hn => ?_⟩
  · rw [h'.records j hj s (by rw [h.entries j hj, hs]), h.records j hj s hs]
  · rcases List.mem_append.mp hn with hn | hn
    · exact hk n hn
    · exact hk' n hn

/-- **A handler of a machine with the session `k`**, which need not be in the table. -/
lemma effect (hw : m.WellFormed) (hk : (m.machines r).session = some k) (he : Effect m m' r o)
    (hs : Speaks k r m m') : Apart k m m' where
  entries j hj := by
    rw [he.calls, hk]
    cases o <;> simp [hj]
  records j hj s hjs := by
    refine he.others s ?_
    rintro rfl
    rw [hw.session j s hjs, Option.some.injEq] at hk
    exact hj hk
  pending := he.pending
  told := hs.told

/-- A handler of the machine that is found under the id. -/
lemma listed (hw : m.WellFormed) (hk : m.calls.get? k = some r) (he : Effect m m' r o)
    (hs : KeptByHandlers r (Speaks k r m) → Speaks k r m m → Speaks k r m m') : Apart k m m' :=
  effect hw (hw.session k r hk) he (hs (Speaks.keptByHandlers k r m) (.refl (hw.session k r hk)))

/-- A new machine is created. -/
lemma announced (hw : m.WellFormed) (k : CallId) : Apart k m (m.announced k) where
  entries _ _ := rfl
  records j _ s hs := announced_of_ne k (Nat.ne_of_lt (hw.created j s hs))
  pending := rfl
  told := ⟨[], Reports.refl m, by simp⟩

lemma incoming (hw : m.WellFormed) (k : CallId) :
    Apart k m (m.onCallStateChanged k .SESSION_STATE_INCOMING) := by
  refine (announced hw k).trans ?_
  rcases m.incoming_cases k with ⟨old, hk, he⟩ | ⟨-, d, hd, he⟩
  · have hw' := hw.announced k
    have hses := hw'.session k old hk
    refine effect hw' hses he ?_
    rw [incoming_eq_endCall hk]
    exact (Speaks.keptByHandlers k old _).endCall (.refl hses)
  · rw [he]
    refine ⟨fun j hj => ?_, fun _ _ _ _ => rfl, rfl, [], Reports.refl _, by simp⟩
    simp [Dictionary.get?_of_add? hd, hj]

end Apart

/-- The event concerns the id: a state of its session, its caller, its release, or a timer of a
machine with that session. -/
def Concerns (m : CCallManager) (k : CallId) : Event → Prop
  | .callStateChanged j _ | .callIncoming j _ _ | .onUserRelease j => j = k
  | .timerElapsed r _ => (m.machines r).session = some k
  | _ => False

/-- **The step lemma.** -/
lemma handle_apart (hw : m.WellFormed) (a : List Arrival) {e : Event} (he : m.Concerns k e) :
    Apart k m (m.handle a e) := by
  cases e with
  | onUserRelease j =>
      obtain rfl : j = k := he
      simp only [handle, onUserRelease]
      split
      · exact .refl j m
      · exact .listed hw ‹_› (endCall_effect m _) KeptByHandlers.endCall
  | timerElapsed r t =>
      refine .effect hw he (timerElapsed_effect m r t) ?_
      refine (Speaks.keptByHandlers k r m).timerElapsed (.refl he) fun _ _ h dest => ?_
      exact h.trans (.silent (request_reports _ r _) h.session)
  | callIncoming j number info =>
      obtain rfl : j = k := he
      simp only [handle, onIncomingCall]
      split
      · exact .refl j m
      · rename_i r hk
        have heff := incomingCall_effect m r number info
        split_ifs
        · exact .listed hw hk heff fun hK h => hK.incomingCall h number info
        · exact .listed hw hk (heff.before (emit_effect _ r _)) fun hK h =>
            (hK.incomingCall h number info).raise rfl
  | callStateChanged j st =>
      obtain rfl : j = k := he
      cases st with
      | SESSION_STATE_INCOMING => exact .incoming hw j
      | SESSION_STATE_EARLY =>
          simp only [handle, onCallStateChanged]
          split
          · exact .refl j m
          · exact .listed hw ‹_› (onAlerting_effect m _) KeptByHandlers.onAlerting
      | SESSION_STATE_CONNECTING =>
          simp only [handle, onCallStateChanged]
          split
          · exact .refl j m
          · exact .listed hw ‹_› (onConnect_effect m _) KeptByHandlers.onConnect
      | SESSION_STATE_DISCONNECTED =>
          simp only [handle, onCallStateChanged]
          split
          · exact .refl j m
          · exact .listed hw ‹_› (onReleased_effect m _) KeptByHandlers.onReleased
      | _ =>
          simp only [handle, onCallStateChanged]
          split <;> exact .refl j m
  | _ => exact he.elim

end CCallManager

/-! ## What the application makes of it -/

namespace SIPCallProvider

variable {p : SIPCallProvider} {c : CallRef} {k : CallId}

/-- A notification does not reach a call with another id. -/
lemma notify_of_ne {n : Notification} (hn : n.sessionId = k) (hc : c < p.created)
    (hid : (p.objects c).sipekCallId ≠ k) : (p.notify n).objects c = p.objects c := by
  subst hn
  cases n with
  | IncomingCallNotification k number info => exact incoming_objects k hc
  | CallStateRefresh k st =>
      refine (onCallStateChanged_of_ne (fun hfound => ?_) st).1
      exact hid (findCallById_eq_some hfound).2

lemma foldl_notify_of_ne {l : List Notification} (hl : ∀ n ∈ l, n.sessionId = k)
    (hc : c < p.created) (hid : (p.objects c).sipekCallId ≠ k) :
    (l.foldl SIPCallProvider.notify p).objects c = p.objects c := by
  induction l generalizing p with
  | nil => rfl
  | cons n l ih =>
      have hn := notify_of_ne (hl n (by simp)) hc hid
      rw [List.foldl_cons, ih (fun x hx => hl x (by simp [hx]))
        (Nat.lt_of_lt_of_le hc (created_notify p n)) (by rwa [hn]), hn]

end SIPCallProvider

namespace CCallManager

/-- **The events of one call do not touch another.**  In every state a manager can reach, with any
flags and timers, and whatever calls the application has: an event that concerns the id `k` leaves
every entry of the table under another id as it is, with everything its machine holds, and the
pending action, and every call of the application with another id. -/
theorem others_untouched (around : Surroundings) (events : List (List Arrival × Event)) (k : CallId)
    (a : List Arrival) (e : Event) (he : (run perform (initial around) events).Concerns k e)
    (p : SIPCallProvider) :
    let m := run perform (initial around) events
    let m' := m.stepWith a e
    (∀ j ≠ k, m'.calls.get? j = m.calls.get? j ∧
      ∀ r, m.calls.get? j = some r → m'.machines r = m.machines r) ∧
    m'.pendingAction = m.pendingAction ∧
    ∀ c < p.created, (p.objects c).sipekCallId ≠ k →
      ((notifications m'.out).foldl SIPCallProvider.notify p).objects c = p.objects c := by
  intro m m'
  have hapart : Apart k { m with out := [] } m' :=
    handle_apart (run_wellFormed around events).cleared a he
  obtain ⟨l, hl, hk⟩ := hapart.told
  have hl' : notifications m'.out = l := by simpa [Reports] using hl
  refine ⟨fun j hj => ⟨hapart.entries j hj, hapart.records j hj⟩, hapart.pending, ?_⟩
  intro c hc hid
  rw [hl']
  exact SIPCallProvider.foldl_notify_of_ne hk hc hid

/-- Two calls ring; then the id of the first is announced again, which ends that call and leaves a
machine outside the table. -/
def announcedTwice : List (List Arrival × Event) :=
  [([], .callStateChanged 1 .SESSION_STATE_INCOMING), ([], .callIncoming 1 "100" "Ann"),
    ([], .callStateChanged 2 .SESSION_STATE_INCOMING), ([], .callIncoming 2 "200" "Bob"),
    ([], .callStateChanged 1 .SESSION_STATE_INCOMING)]

/-- A timer of the machine outside the table does nothing to the second call. -/
theorem others_untouched_announced_twice :
    let m := run perform (initial {}) announcedTwice
    let m' := m.stepWith [] (.timerElapsed 2 .ENORESPONSE)
    m'.calls.get? 2 = some 1 ∧ m'.machines 1 = m.machines 1 := by
  have h := (others_untouched {} announcedTwice 1 [] (.timerElapsed 2 .ENORESPONSE)
    (show _ = some 1 by decide +kernel) SIPCallProvider.initial).1 2 (by decide)
  have hentry : (run perform (initial {}) announcedTwice).calls.get? 2 = some 1 := by decide +kernel
  exact ⟨h.1.trans hentry, h.2 1 hentry⟩

end CCallManager

end TAM
