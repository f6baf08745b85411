import AnsweringMachine.Application.Listener
import AnsweringMachine.Sip.InviteSession

/-!
# The table of calls

`pjsua_call.c` gives every incoming call an id, which is a slot of a table, and reports what becomes
of the invite session under that id.  The slot is free again when the end of the session is
reported; the id then goes to another call.  Sessions are never used again, slots are.

The call manager above the stack relies on how an id is used: announced, delivered with its caller,
reported while the call lives, and free after its end (`Stage.permits`).  This file says why it may.

* `Owned`: whatever happens, a session that has not ended holds its slot alone: `slots_owned`.
* `Staged`: whenever calls arrive as they usually do, what is reported goes through the stages of
  its id: `callbacks_permitted`.
-/

namespace TAM

/-- A dialog with its invite session, and the call it is attached to. -/
structure Dialog where
  inv : InvSession
  call : CallId
  deriving DecidableEq, Repr

/-- The part of `pjsua_var` that is about calls: which session each call has, by its place in the
list of all dialogs there have been. -/
structure CallTable where
  maxCalls : ℕ
  nextCallId : ℕ := 0
  calls : CallId → Option ℕ := fun _ => none
  dialogs : List Dialog := []

namespace CallTable

open InvSession CCallManager

/-- A table after something happened, and the callbacks that were called. -/
abbrev Reaction := CallTable × List Event

/-- One thing after the other. -/
def andThen (x : Reaction) (f : CallTable → Reaction) : Reaction := ((f x.1).1, x.2 ++ (f x.1).2)

/-- The ids in the order in which they are tried, from `next` on and round. -/
def tried (t : CallTable) (next : ℕ) : List CallId :=
  List.range' next (t.maxCalls - next) ++ List.range next

/-- `alloc_call_id`. -/
def allocCallId (t : CallTable) : Option CallId × CallTable :=
  let next := if t.maxCalls ≤ t.nextCallId then 0 else t.nextCallId
  match (t.tried next).find? fun cid => (t.calls cid).isNone with
  | some cid => (some cid, { t with nextCallId := next + 1 })
  | none => (none, { t with nextCallId := next })

/-- The state in `pjsua_call_get_info`, while session `h` is in state `st`; it is zero for a call
without a session. -/
def infoState (t : CallTable) (k : CallId) (h : ℕ) (st : ESessionState) : ESessionState :=
  match t.calls k with
  | none => .SESSION_STATE_NULL
  | some h' => if h' = h then st else (t.dialogs[h']?.elim .SESSION_STATE_NULL fun d => d.inv.state)

/-- `pjsua_call_on_state_changed` with `on_call_state`, and `reset_call` at the end. -/
def onStateChanged (t : CallTable) (k : CallId) (h : ℕ) (st : ESessionState) : Reaction :=
  ({ t with calls := if st = .SESSION_STATE_DISCONNECTED then Function.update t.calls k none
                     else t.calls },
    [.callStateChanged k (t.infoState k h st)])

/-- All that a session reports, one after the other. -/
def onStatesChanged (t : CallTable) (k : CallId) (h : ℕ) : List ESessionState → Reaction
  | [] => (t, [])
  | st :: l => andThen (t.onStateChanged k h st) fun t => t.onStatesChanged k h l

/-- The session of a dialog after an input. -/
def store (t : CallTable) (h : ℕ) (d : Dialog) (inv : InvSession) : CallTable :=
  { t with dialogs := t.dialogs.set h { d with inv := inv } }

/-- An input for the session of a dialog. -/
def deliver (t : CallTable) (h : ℕ) (i : Input) : Reaction :=
  match t.dialogs[h]? with
  | none => (t, [])
  | some d => (t.store h d (d.inv.onInput i).1).onStatesChanged d.call h (d.inv.onInput i).2

/-- A number of inputs. -/
def deliverAll (t : CallTable) (h : ℕ) : List Input → Reaction
  | [] => (t, [])
  | i :: l => andThen (t.deliver h i) fun t => t.deliverAll h l

/-- What becomes of an INVITE for which there is a call: it is refused before it has a session; or
no answer can be made, `500` is tried, with what the session hears of it, and the session is
terminated without a notification; or it is answered with `100`, with what the session hears of
that, and may replace the call of another dialog. -/
inductive Fate
  | refused
  | unanswered (heard : Option TsxEvent) (pending : Bool) (w : Attempts)
  | answered (heard : Option TsxEvent) (replaced : Option ℕ)
  deriving DecidableEq, Repr

/-- The session of an INVITE is created and attached to its call. -/
def attach (t : CallTable) (k : CallId) : CallTable :=
  { t with calls := Function.update t.calls k (some t.dialogs.length),
           dialogs := t.dialogs ++ [⟨create .UAS, k⟩] }

/-- The application is told of the call. -/
def announce (t : CallTable) (k : CallId) (number info : String) : Option ℕ → List Event
  | none => [.callIncoming k number info]
  | some h => t.dialogs[h]?.elim [] fun d => [.callReplaced d.call k]

/-- `pjsua_call_on_incoming` for a call. -/
def receive (t : CallTable) (k : CallId) (number info : String) : Fate → Reaction
  | .refused => (t, [])
  | .unanswered heard pending w =>
      -- the session is left in the call
      (t.attach k).deliverAll t.dialogs.length
        (heard.toList.map Input.tsxState ++ [.terminate false pending 500 w])
  | .answered heard replaced =>
      andThen ((t.attach k).deliverAll t.dialogs.length (heard.toList.map Input.tsxState))
        fun t => (t, t.announce k number info replaced)

/-- `pjsua_call_on_incoming`: with all calls taken, the caller is told that the line is busy. -/
def onIncoming (t : CallTable) (number info : String) (fate : Fate) : Reaction :=
  match t.allocCallId with
  | (none, t) => (t, [])
  | (some k, t) => t.receive k number info fate

/-- What happens to the stack. -/
inductive Happening
  | invite (number info : String) (fate : Fate)
  | input (h : ℕ) (i : Input)
  | localHold (h : ℕ)
  deriving DecidableEq, Repr

/-- One step.  Media is negotiated, and a hold confirmed, for sessions that have not ended. -/
def step (t : CallTable) : Happening → Reaction
  | .invite number info fate => t.onIncoming number info fate
  | .input h i => t.deliver h i
  | .localHold h =>
      (t, t.dialogs[h]?.elim [] fun d =>
        if d.inv.notify ∧ d.inv.state ≠ .SESSION_STATE_DISCONNECTED then [.holdConfirm d.call]
        else [])

/-- The table, what it has called so far, and one more step. -/
def hear (x : Reaction) (a : Happening) : Reaction := andThen x fun t => t.step a

/-- The stack as it is started. -/
def initial (maxCalls : ℕ) : CallTable := { maxCalls := maxCalls }

variable {t : CallTable} {k : CallId} {h : ℕ} {d : Dialog} {i : Input} {l : List ESessionState}

/-! ## Finding a slot -/

lemma mem_tried {next c : ℕ} (hnext : next = 0 ∨ next < t.maxCalls) :
    c ∈ t.tried next ↔ c < t.maxCalls := by
  have hmem : c ∈ t.tried next ↔ (next ≤ c ∧ c < next + (t.maxCalls - next)) ∨ c < next := by
    rw [tried, List.mem_append, List.mem_range'_1, List.mem_range]
  rw [hmem]
  omega

lemma tried_start (t : CallTable) :
    (if t.maxCalls ≤ t.nextCallId then 0 else t.nextCallId) = 0 ∨
      (if t.maxCalls ≤ t.nextCallId then 0 else t.nextCallId) < t.maxCalls := by
  split_ifs <;> omega

lemma allocCallId_some {t' : CallTable} (halloc : t.allocCallId = (some k, t')) :
    k < t.maxCalls ∧ t.calls k = none ∧ ∃ next, t' = { t with nextCallId := next } := by
  unfold allocCallId at halloc
  dsimp only at halloc
  split at halloc
  · rename_i cid hfind
    obtain ⟨hk, rfl⟩ := Prod.mk.inj halloc
    obtain rfl := Option.some.inj hk
    refine ⟨(mem_tried t.tried_start).mp (List.mem_of_find?_eq_some hfind), ?_, _, rfl⟩
    have hnone := List.find?_some (p := fun cid => (t.calls cid).isNone) hfind
    exact Option.isNone_iff_eq_none.mp hnone
  · cases (Prod.mk.inj halloc).1

lemma allocCallId_none {t' : CallTable} (halloc : t.allocCallId = (none, t')) :
    (∀ k < t.maxCalls, t.calls k ≠ none) ∧ ∃ next, t' = { t with nextCallId := next } := by
  unfold allocCallId at halloc
  dsimp only at halloc
  split at halloc
  · cases (Prod.mk.inj halloc).1
  · rename_i hfind
    obtain ⟨-, rfl⟩ := Prod.mk.inj halloc
    refine ⟨fun k hk hnone => ?_, _, rfl⟩
    have hmem := (mem_tried t.tried_start).mpr hk
    exact absurd hnone (by simpa using List.find?_eq_none.mp hfind k hmem)

/-! ## What reports do to the table -/

/-- Only a report of the end changes the table. -/
lemma onStatesChanged_fst (t : CallTable) (k : CallId) (h : ℕ) (l : List ESessionState) :
    (t.onStatesChanged k h l).1 =
      { t with calls := if ESessionState.SESSION_STATE_DISCONNECTED ∈ l
                        then Function.update t.calls k none else t.calls } := by
  induction l generalizing t with
  | nil => simp [onStatesChanged]
  | cons st l ih =>
      simp only [onStatesChanged, andThen, ih, onStateChanged, List.mem_cons]
      by_cases hst : st = .SESSION_STATE_DISCONNECTED
      · simp [hst]
      · simp [hst, Ne.symm hst]

/-- The call is told what its own session reports. -/
lemma onStatesChanged_snd (hk : t.calls k = some h)
    (hend : ESessionState.SESSION_STATE_DISCONNECTED ∉ l.dropLast) :
    (t.onStatesChanged k h l).2 = l.map (Event.callStateChanged k) := by
  induction l with
  | nil => rfl
  | cons st l ih =>
      have hshown : t.infoState k h st = st := by simp [infoState, hk]
      cases l with
      | nil => simp [onStatesChanged, andThen, onStateChanged, hshown]
      | cons st' l =>
          rw [List.dropLast_cons_cons, List.mem_cons, not_or] at hend
          have hsame : (t.onStateChanged k h st).1 = t := by
            simp [onStateChanged, Ne.symm hend.1]
          rw [onStatesChanged, andThen, hsame, ih hend.2]
          simp [onStateChanged, hshown]

lemma store_dialogs (hd : t.dialogs[h]? = some d) (inv : InvSession) (h' : ℕ) :
    (t.store h d inv).dialogs[h']? =
      if h' = h then some { d with inv := inv } else t.dialogs[h']? := by
  have hlt : h < t.dialogs.length := (List.getElem?_eq_some_iff.mp hd).1
  simp only [store, List.getElem?_set, hlt, if_true]
  by_cases hh : h' = h
  · simp [hh]
  · simp [hh, Ne.symm hh]

lemma deliver_of_dialog (hd : t.dialogs[h]? = some d) (i : Input) :
    t.deliver h i = (t.store h d (d.inv.onInput i).1).onStatesChanged d.call h
      (d.inv.onInput i).2 := by
  simp only [deliver, hd]

lemma deliver_calls (hd : t.dialogs[h]? = some d) (i : Input) :
    (t.deliver h i).1.calls =
      if ESessionState.SESSION_STATE_DISCONNECTED ∈ (d.inv.onInput i).2
      then Function.update t.calls d.call none else t.calls := by
  rw [deliver_of_dialog hd, onStatesChanged_fst]
  rfl

lemma deliver_dialogs (hd : t.dialogs[h]? = some d) (i : Input) (h' : ℕ) :
    (t.deliver h i).1.dialogs[h']? =
      if h' = h then some { d with inv := (d.inv.onInput i).1 } else t.dialogs[h']? := by
  rw [deliver_of_dialog hd, onStatesChanged_fst]
  exact store_dialogs hd _ h'

lemma deliver_maxCalls (t : CallTable) (h : ℕ) (i : Input) :
    (t.deliver h i).1.maxCalls = t.maxCalls := by
  unfold deliver
  split
  · rfl
  · rw [onStatesChanged_fst]
    rfl

/-! ## Who holds a slot -/

/-- A session that has not ended holds the slot of its call; a slot that is taken has a session;
and all sessions are those of callees. -/
structure Owned (t : CallTable) : Prop where
  held : ∀ (k : CallId) (h : ℕ), t.calls k = some h →
    k < t.maxCalls ∧ ∃ d, t.dialogs[h]? = some d ∧ d.call = k
  owns : ∀ (h : ℕ) (d : Dialog), t.dialogs[h]? = some d →
    d.inv.state ≠ .SESSION_STATE_DISCONNECTED → t.calls d.call = some h
  callee : ∀ (h : ℕ) (d : Dialog), t.dialogs[h]? = some d →
    d.inv.role = .UAS ∧ d.inv.state ≠ .SESSION_STATE_CALLING

/-- An input takes the session of a dialog along a path. -/
lemma Owned.goes {again : Prop} (ho : t.Owned) (hd : t.dialogs[h]? = some d)
    (hagain : i.Trying → again) : Goes again d.inv (d.inv.onInput i) :=
  goes_onInput (fun hs => absurd hs (ho.callee h d hd).2) fun htrying _ => hagain htrying

/-- Only the holder of a slot gives it back. -/
lemma Owned.of_reported (ho : t.Owned) (hd : t.dialogs[h]? = some d)
    (hmem : ESessionState.SESSION_STATE_DISCONNECTED ∈ (d.inv.onInput i).2) :
    t.calls d.call = some h := by
  refine ho.owns h d hd fun hs => ?_
  have hgoes : Goes True d.inv (d.inv.onInput i) := ho.goes hd fun _ => trivial
  rw [(hgoes.ended hs).1] at hmem
  cases hmem

/-- A slot that is taken after an input was taken before. -/
lemma calls_of_deliver (hd : t.dialogs[h]? = some d) {h' : ℕ}
    (hk : (t.deliver h i).1.calls k = some h') : t.calls k = some h' := by
  rw [deliver_calls hd] at hk
  split_ifs at hk
  · by_cases hkd : k = d.call
    · simp [hkd] at hk
    · rwa [Function.update_of_ne hkd] at hk
  · exact hk

/-- A slot that another session holds stays with it. -/
lemma Owned.deliver_calls_of_ne (ho : t.Owned) (hd : t.dialogs[h]? = some d) {h' : ℕ}
    (hh : h' ≠ h) (hk : t.calls k = some h') : (t.deliver h i).1.calls k = some h' := by
  rw [deliver_calls hd]
  split_ifs with hmem
  · have hkd : k ≠ d.call := by
      rintro rfl
      rw [ho.of_reported hd hmem] at hk
      exact hh (Option.some.inj hk).symm
    rwa [Function.update_of_ne hkd]
  · exact hk

lemma Owned.deliver (ho : t.Owned) (h : ℕ) (i : Input) : (t.deliver h i).1.Owned := by
  cases hd : t.dialogs[h]? with
  | none => simpa only [CallTable.deliver, hd] using ho
  | some d =>
      have hgoes : Goes True d.inv (d.inv.onInput i) := ho.goes hd fun _ => trivial
      refine ⟨fun k h' hk => ?_, fun h' d' hd' hend => ?_, fun h' d' hd' => ?_⟩
      · obtain ⟨hlt, d', hd', hcall⟩ := ho.held k h' (calls_of_deliver hd hk)
        rw [deliver_maxCalls, deliver_dialogs hd]
        refine ⟨hlt, ?_⟩
        by_cases hh : h' = h
        · obtain rfl : d = d' := Option.some.inj (hd.symm.trans (hh ▸ hd'))
          exact ⟨_, if_pos hh, hcall⟩
        · exact ⟨d', (if_neg hh).trans hd', hcall⟩
      · rw [deliver_dialogs hd] at hd'
        split_ifs at hd' with hh
        · -- the session itself has not ended, so that it has not reported its end
          obtain rfl := Option.some.inj hd'
          rw [deliver_calls hd, if_neg fun hmem => hend (hgoes.disconnected_of_mem hmem), hh]
          exact ho.owns h d hd fun hs => hend (hgoes.ended hs).2
        · exact ho.deliver_calls_of_ne hd hh (ho.owns h' d' hd' hend)
      · rw [deliver_dialogs hd] at hd'
        split_ifs at hd' with hh
        · obtain rfl := Option.some.inj hd'
          obtain ⟨hrole, hstate⟩ := ho.callee h d hd
          exact ⟨hgoes.role_eq.trans hrole, hgoes.not_calling hrole hstate⟩
        · exact ho.callee h' d' hd'

lemma Owned.deliverAll (ho : t.Owned) (h : ℕ) (l : List Input) : (t.deliverAll h l).1.Owned := by
  induction l generalizing t with
  | nil => exact ho
  | cons i l ih => exact ih (ho.deliver h i)

/-- The dialogs with one more. -/
lemma attach_dialogs (t : CallTable) (k : CallId) (h : ℕ) :
    (t.attach k).dialogs[h]? =
      if h = t.dialogs.length then some ⟨create .UAS, k⟩ else t.dialogs[h]? := by
  simp only [attach]
  rcases Nat.lt_trichotomy h t.dialogs.length with hlt | heq | hgt
  · rw [List.getElem?_append_left hlt, if_neg (Nat.ne_of_lt hlt)]
  · simp [heq]
  · rw [if_neg (Nat.ne_of_gt hgt), List.getElem?_eq_none (by simpa using Nat.succ_le_of_lt hgt),
      List.getElem?_eq_none (Nat.le_of_lt hgt)]

lemma Owned.attach (ho : t.Owned) (hlt : k < t.maxCalls) (hk : t.calls k = none) :
    (t.attach k).Owned := by
  refine ⟨fun k' h hk' => ?_, fun h d hd hend => ?_, fun h d hd => ?_⟩
  · rw [attach_dialogs]
    by_cases hkk : k' = k
    · obtain rfl : t.dialogs.length = h := by simpa [CallTable.attach, hkk] using hk'
      exact ⟨hkk ▸ hlt, _, if_pos rfl, hkk.symm⟩
    · have hk' : t.calls k' = some h := by simpa [CallTable.attach, hkk] using hk'
      obtain ⟨hlt', d, hd, hcall⟩ := ho.held k' h hk'
      have hh := (List.getElem?_eq_some_iff.mp hd).1
      exact ⟨hlt', d, (if_neg (Nat.ne_of_lt hh)).trans hd, hcall⟩
  · rw [attach_dialogs] at hd
    split_ifs at hd with hh
    · obtain rfl := Option.some.inj hd
      simp [CallTable.attach, hh]
    · have hcalls := ho.owns h d hd hend
      have hne : d.call ≠ k := fun heq => by simp [heq, hk] at hcalls
      simpa [CallTable.attach, hne] using hcalls
  · rw [attach_dialogs] at hd
    split_ifs at hd with hh
    · obtain rfl := Option.some.inj hd
      exact ⟨rfl, by simp [create]⟩
    · exact ho.callee h d hd

/-- The next id to try has nothing to do with who holds what. -/
lemma Owned.nextCallId (ho : t.Owned) (next : ℕ) : { t with nextCallId := next }.Owned :=
  ⟨ho.held, ho.owns, ho.callee⟩

lemma Owned.receive (ho : t.Owned) (hlt : k < t.maxCalls) (hk : t.calls k = none)
    (number info : String) (fate : Fate) : (t.receive k number info fate).1.Owned := by
  have hattach := ho.attach hlt hk
  cases fate with
  | refused => exact ho
  | unanswered heard pending w => exact hattach.deliverAll _ _
  | answered heard replaced => exact hattach.deliverAll _ _

lemma Owned.onIncoming (ho : t.Owned) (number info : String) (fate : Fate) :
    (t.onIncoming number info fate).1.Owned := by
  unfold CallTable.onIncoming
  split
  · rename_i t' halloc
    obtain ⟨-, next, rfl⟩ := allocCallId_none halloc
    exact ho.nextCallId next
  · rename_i k t' halloc
    obtain ⟨hlt, hk, next, rfl⟩ := allocCallId_some halloc
    exact (ho.nextCallId next).receive hlt hk number info fate

/-- **The step.** -/
lemma Owned.step (ho : t.Owned) (a : Happening) : (t.step a).1.Owned := by
  cases a with
  | invite number info fate => exact ho.onIncoming number info fate
  | input h i => exact ho.deliver h i
  | localHold h => exact ho

lemma Owned.run (ho : t.Owned) (es : List Event) (happenings : List Happening) :
    (Runs.run hear (t, es) happenings).1.Owned := by
  have hstep (x : Reaction) (a : Happening) (hx : x.1.Owned) : (hear x a).1.Owned := hx.step a
  exact Runs.run_of_step (J := fun x : Reaction => x.1.Owned) hstep ho happenings

lemma initial_owned (maxCalls : ℕ) : (initial maxCalls).Owned :=
  ⟨by simp [initial], by simp [initial], by simp [initial]⟩

/-! ## Slots that are lost -/

/-- The session in the slot has ended, and its end was not reported. -/
def Lost (t : CallTable) (k : CallId) : Prop :=
  ∃ h d, t.calls k = some h ∧ t.dialogs[h]? = some d ∧
    d.inv.state = .SESSION_STATE_DISCONNECTED

/-- What no step changes: how many slots there are, and which of them are lost. -/
structure Keeps (t t' : CallTable) : Prop where
  maxCalls_eq : t'.maxCalls = t.maxCalls
  lost : ∀ k, t.Lost k → t'.Lost k

lemma Keeps.refl (t : CallTable) : t.Keeps t := ⟨rfl, fun _ h => h⟩

lemma Keeps.trans {t' t'' : CallTable} (h : t.Keeps t') (h' : t'.Keeps t'') : t.Keeps t'' :=
  ⟨h'.maxCalls_eq.trans h.maxCalls_eq, fun k hk => h'.lost k (h.lost k hk)⟩

/-- A session that has not ended has the id. -/
def Lives (t : CallTable) (h : ℕ) (k : CallId) : Prop :=
  ∃ d, t.dialogs[h]? = some d ∧ d.call = k ∧ d.inv.state ≠ .SESSION_STATE_DISCONNECTED

/-- What the session of an INVITE hears when `100` is sent: its transaction is proceeding. -/
def trying (w : Attempts) : TsxEvent :=
  { w with invite := true, method := .INVITE, role := .UAS, state := .PROCEEDING,
           statusCode := 100 }

/-- An INVITE whose `100` is sent and that replaces no other call, or that gets no further; and
transactions that do not go back to trying. -/
def Happening.Plain : Happening → Prop
  | .invite _ _ .refused => True
  | .invite _ _ (.unanswered heard _ _) => heard = none
  | .invite _ _ (.answered heard replaced) => (∃ w, heard = some (trying w)) ∧ replaced = none
  | .input _ i => ¬ i.Trying
  | .localHold _ => True

/-- The callbacks that were called go through the stages of their ids. -/
def Permitted (g : CallId → Stage) (es : List Event) : Prop :=
  Runs.Along Stage.after (fun g e => Stage.permits g e) g es

/-- The stages after some callbacks. -/
abbrev stages (g : CallId → Stage) (es : List Event) : CallId → Stage := Runs.run Stage.after g es

/-- An id without a session is free; the id of a session that has not ended is live. -/
structure Staged (t : CallTable) (g : CallId → Stage) : Prop extends t.Owned where
  free : ∀ k, t.calls k = none → g k = .free
  live : ∀ (h : ℕ) (d : Dialog), t.dialogs[h]? = some d →
    d.inv.state ≠ .SESSION_STATE_DISCONNECTED → g d.call = .live ∧ 1 ≤ d.inv.state.rank

variable {g : CallId → Stage}

/-- A call that is live hears of its session until the end. -/
lemma permitted_reports (hk : g k = .live) (hincoming : ESessionState.SESSION_STATE_INCOMING ∉ l)
    (hend : ESessionState.SESSION_STATE_DISCONNECTED ∉ l.dropLast) :
    Permitted g (l.map (Event.callStateChanged k)) ∧
      stages g (l.map (Event.callStateChanged k)) =
        if ESessionState.SESSION_STATE_DISCONNECTED ∈ l then Function.update g k .free else g := by
  induction l with
  | nil => exact ⟨trivial, by simp [stages, Runs.run]⟩
  | cons st l ih =>
      rw [List.mem_cons, not_or] at hincoming
      have hper : Stage.permits g (.callStateChanged k st) := by
        cases st <;> simp_all [Stage.permits]
      by_cases hst : st = .SESSION_STATE_DISCONNECTED
      · -- the end is the last report
        obtain rfl : l = [] := by
          cases l with
          | nil => rfl
          | cons st' l => simp [List.dropLast_cons_cons, hst] at hend
        subst hst
        exact ⟨⟨hper, trivial⟩, by simp [stages, Runs.run, Stage.after]⟩
      · have hsame : Stage.after g (.callStateChanged k st) = g := by
          cases st <;> simp_all [Stage.after]
        have hend' : ESessionState.SESSION_STATE_DISCONNECTED ∉ l.dropLast := by
          cases l with
          | nil => simp
          | cons st' l =>
              rw [List.dropLast_cons_cons, List.mem_cons, not_or] at hend
              exact hend.2
        obtain ⟨hrest, hstages⟩ := ih hincoming.2 hend'
        refine ⟨⟨hper, by rw [hsame]; exact hrest⟩, ?_⟩
        simp only [stages, List.map_cons, Runs.run, hsame] at hstages ⊢
        rw [hstages]
        simp [Ne.symm hst]

/-- What a step has to do: its callbacks are permitted, and the stages are right again. -/
def Follows (g : CallId → Stage) (x : Reaction) : Prop :=
  Permitted g x.2 ∧ x.1.Staged (stages g x.2)

lemma Staged.follows_deliver (hs : t.Staged g) (h : ℕ) {i : Input} (hi : ¬ i.Trying) :
    Follows g (t.deliver h i) := by
  cases hd : t.dialogs[h]? with
  | none =>
      have hsame : t.deliver h i = (t, []) := by simp only [CallTable.deliver, hd]
      rw [hsame]
      exact ⟨trivial, hs⟩
  | some d =>
      have hgoes : Goes False d.inv (d.inv.onInput i) := hs.toOwned.goes hd hi
      have howned := hs.toOwned.deliver h i
      by_cases hend : d.inv.state = .SESSION_STATE_DISCONNECTED
      · -- a session that has ended says nothing
        obtain ⟨hnone, hend'⟩ := hgoes.ended hend
        have hcalls := deliver_calls hd i
        rw [hnone, if_neg (List.not_mem_nil)] at hcalls
        have hevents : (t.deliver h i).2 = [] := by
          rw [deliver_of_dialog hd, hnone]
          rfl
        rw [Follows, hevents]
        refine ⟨trivial, howned, fun k hk => hs.free k (hcalls ▸ hk), fun h' d' hd' hne => ?_⟩
        rw [deliver_dialogs hd] at hd'
        split_ifs at hd' with hh
        · obtain rfl := Option.some.inj hd'
          exact absurd hend' hne
        · exact hs.live h' d' hd' hne
      · have hheld := hs.toOwned.owns h d hd hend
        obtain ⟨hlive, hrank⟩ := hs.live h d hd hend
        have hevents : (t.deliver h i).2 =
            (d.inv.onInput i).2.map (Event.callStateChanged d.call) := by
          rw [deliver_of_dialog hd]
          exact onStatesChanged_snd hheld hgoes.not_mem_dropLast
        obtain ⟨hper, hstages⟩ := permitted_reports hlive (hgoes.incoming_not_mem hrank)
          hgoes.not_mem_dropLast
        rw [Follows, hevents, hstages]
        refine ⟨hper, howned, fun k hk => ?_, fun h' d' hd' hne => ?_⟩
        · rw [deliver_calls hd] at hk
          split_ifs at hk ⊢ with hmem
          · by_cases hkd : k = d.call
            · simp [hkd]
            · rw [Function.update_of_ne hkd] at hk ⊢
              exact hs.free k hk
          · exact hs.free k hk
        · have hcall := howned.owns h' d' hd' hne
          rw [deliver_calls hd] at hcall
          rw [deliver_dialogs hd] at hd'
          have hlive' : g d'.call = .live ∧ 1 ≤ d'.inv.state.rank := by
            split_ifs at hd' with hh
            · obtain rfl := Option.some.inj hd'
              exact ⟨hlive, Nat.le_trans hrank hgoes.rank_le⟩
            · exact hs.live h' d' hd' hne
          split_ifs at hcall ⊢ with hmem
          · have hkd : d'.call ≠ d.call := fun heq => by simp [heq] at hcall
            rwa [Function.update_of_ne hkd]
          · exact hlive'

/-- A slot that was free has got a session, which has ended or whose id is live. -/
lemma Staged.of_attached {t' : CallTable} {g' : CallId → Stage} {inv : InvSession}
    (hs : t.Staged g) (hk : t.calls k = none) (ho : t'.Owned)
    (hcalls : t'.calls = Function.update t.calls k (some t.dialogs.length))
    (hdialogs : ∀ h, t'.dialogs[h]? =
      if h = t.dialogs.length then some ⟨inv, k⟩ else t.dialogs[h]?)
    (hg : ∀ k' ≠ k, g' k' = g k')
    (hinv : inv.state ≠ .SESSION_STATE_DISCONNECTED → g' k = .live ∧ 1 ≤ inv.state.rank) :
    t'.Staged g' := by
  refine ⟨ho, fun k' hk' => ?_, fun h d hd hend => ?_⟩
  · have hne : k' ≠ k := fun heq => by simp [hcalls, heq] at hk'
    rw [hg k' hne]
    refine hs.free k' ?_
    rwa [hcalls, Function.update_of_ne hne] at hk'
  · rw [hdialogs] at hd
    split_ifs at hd with hh
    · obtain rfl := Option.some.inj hd
      exact hinv hend
    · have hne : d.call ≠ k := fun heq => by
        have hheld := hs.toOwned.owns h d hd hend
        simp [heq, hk] at hheld
      rw [hg d.call hne]
      exact hs.live h d hd hend

lemma attach_dialog (t : CallTable) (k : CallId) :
    (t.attach k).dialogs[t.dialogs.length]? = some ⟨create .UAS, k⟩ :=
  (attach_dialogs t k _).trans (if_pos rfl)

/-- The first input of a new session, as far as the table goes. -/
lemma attach_deliver_dialogs (t : CallTable) (k : CallId) (i : Input) (h : ℕ) :
    ((t.attach k).deliver t.dialogs.length i).1.dialogs[h]? =
      if h = t.dialogs.length then some ⟨((create .UAS).onInput i).1, k⟩ else t.dialogs[h]? := by
  rw [deliver_dialogs (attach_dialog t k), attach_dialogs]
  split_ifs <;> rfl

/-- A session whose `100` is sent is incoming. -/
lemma onInput_trying (w : Attempts) :
    (create .UAS).onInput (.tsxState (trying w)) =
      ({ create .UAS with state := .SESSION_STATE_INCOMING }, [.SESSION_STATE_INCOMING]) := by
  simp [onInput, onTsxState, onStateNull, trying, create, setState, InvSession.andThen, still]

/-- A session that is terminated before it was answered ends without a report. -/
lemma onInput_terminate (pending : Bool) (w : Attempts) :
    (create .UAS).onInput (.terminate false pending 500 w) =
      ({ create .UAS with state := .SESSION_STATE_DISCONNECTED, notify := false }, []) := by
  cases pending <;>
    simp [onInput, terminate, onTsxState, onStateNull, onStateIncoming, inviteTerminated, create,
      setState, InvSession.andThen, still]

lemma Staged.follows_answered (hs : t.Staged g) (hlt : k < t.maxCalls) (hk : t.calls k = none)
    (number info : String) (w : Attempts) :
    Follows g (t.receive k number info (.answered (some (trying w)) none)) := by
  have howned := (hs.toOwned.attach hlt hk).deliver t.dialogs.length (.tsxState (trying w))
  have hfree := hs.free k hk
  have hevents : ((t.attach k).deliver t.dialogs.length (.tsxState (trying w))).2 =
      [.callStateChanged k .SESSION_STATE_INCOMING] := by
    rw [deliver_of_dialog (attach_dialog t k), onInput_trying]
    simp [onStatesChanged, CallTable.andThen, onStateChanged, infoState, store, CallTable.attach]
  have hcalls : ((t.attach k).deliver t.dialogs.length (.tsxState (trying w))).1.calls =
      (t.attach k).calls := by
    rw [deliver_calls (attach_dialog t k), onInput_trying, if_neg (by simp)]
  have hreceive : t.receive k number info (.answered (some (trying w)) none) =
      (((t.attach k).deliver t.dialogs.length (.tsxState (trying w))).1,
        [.callStateChanged k .SESSION_STATE_INCOMING, .callIncoming k number info]) := by
    simp [CallTable.receive, deliverAll, CallTable.andThen, hevents, announce]
  have hstages : stages g [.callStateChanged k .SESSION_STATE_INCOMING,
      .callIncoming k number info] = Function.update g k .live := by
    simp [stages, Runs.run, Stage.after]
  rw [hreceive, Follows, hstages]
  refine ⟨⟨by simp [Stage.permits, hfree], by simp [Stage.permits, Stage.after], trivial⟩, ?_⟩
  refine hs.of_attached hk howned hcalls (attach_deliver_dialogs t k _) ?_ ?_
  · exact fun k' hne => Function.update_of_ne hne _ _
  · rw [onInput_trying]
    exact fun _ => ⟨Function.update_self _ _ _, by decide⟩

lemma Staged.follows_unanswered (hs : t.Staged g) (hlt : k < t.maxCalls) (hk : t.calls k = none)
    (number info : String) (pending : Bool) (w : Attempts) :
    Follows g (t.receive k number info (.unanswered none pending w)) := by
  have howned := (hs.toOwned.attach hlt hk).deliver t.dialogs.length
    (.terminate false pending 500 w)
  have hevents :
      ((t.attach k).deliver t.dialogs.length (.terminate false pending 500 w)).2 = [] := by
    rw [deliver_of_dialog (attach_dialog t k), onInput_terminate]
    rfl
  have hcalls : ((t.attach k).deliver t.dialogs.length (.terminate false pending 500 w)).1.calls =
      (t.attach k).calls := by
    rw [deliver_calls (attach_dialog t k), onInput_terminate, if_neg (by simp)]
  have hreceive : t.receive k number info (.unanswered none pending w) =
      (((t.attach k).deliver t.dialogs.length (.terminate false pending 500 w)).1, []) := by
    simp [CallTable.receive, deliverAll, CallTable.andThen, hevents]
  rw [hreceive]
  refine ⟨trivial, hs.of_attached hk howned hcalls (attach_deliver_dialogs t k _) ?_ ?_⟩
  · exact fun _ _ => rfl
  · rw [onInput_terminate]
    exact fun hend => absurd rfl hend

lemma Staged.nextCallId (hs : t.Staged g) (next : ℕ) : { t with nextCallId := next }.Staged g :=
  ⟨hs.toOwned.nextCallId next, hs.free, hs.live⟩

lemma Staged.follows_invite (hs : t.Staged g) {number info : String} {fate : Fate}
    (hplain : (Happening.invite number info fate).Plain) :
    Follows g (t.onIncoming number info fate) := by
  unfold CallTable.onIncoming
  split
  · rename_i t' halloc
    obtain ⟨-, next, rfl⟩ := allocCallId_none halloc
    exact ⟨trivial, hs.nextCallId next⟩
  · rename_i k t' halloc
    obtain ⟨hlt, hk, next, rfl⟩ := allocCallId_some halloc
    have hnext := hs.nextCallId next
    cases fate with
    | refused => exact ⟨trivial, hnext⟩
    | unanswered heard pending w =>
        obtain rfl : heard = none := hplain
        exact hnext.follows_unanswered hlt hk number info pending w
    | answered heard replaced =>
        obtain ⟨⟨w, rfl⟩, rfl⟩ := hplain
        exact hnext.follows_answered hlt hk number info w

lemma Staged.follows_localHold (hs : t.Staged g) (h : ℕ) : Follows g (t.step (.localHold h)) := by
  cases hd : t.dialogs[h]? with
  | none =>
      have hsame : t.step (.localHold h) = (t, []) := by simp [CallTable.step, hd]
      rw [hsame]
      exact ⟨trivial, hs⟩
  | some d =>
      by_cases hheld : d.inv.notify ∧ d.inv.state ≠ .SESSION_STATE_DISCONNECTED
      · have hsame : t.step (.localHold h) = (t, [.holdConfirm d.call]) := by
          simp [CallTable.step, hd, hheld.1, hheld.2]
        rw [hsame]
        exact ⟨⟨by simp [Stage.permits, (hs.live h d hd hheld.2).1], trivial⟩, hs⟩
      · have hsame : t.step (.localHold h) = (t, []) := by
          simp only [CallTable.step, hd, Option.elim_some, if_neg hheld]
        rw [hsame]
        exact ⟨trivial, hs⟩

/-- **The step.** -/
lemma Staged.follows_step (hs : t.Staged g) {a : Happening} (hplain : a.Plain) :
    Follows g (t.step a) := by
  cases a with
  | invite number info fate => exact hs.follows_invite hplain
  | input h i => exact hs.follows_deliver h hplain
  | localHold h => exact hs.follows_localHold h

/-- The run: callbacks and stages go on where they were. -/
lemma Follows.hear {x : Reaction} {a : Happening} (hx : Follows g x) (hplain : a.Plain) :
    Follows g (hear x a) := by
  obtain ⟨hper, hstaged⟩ := hx.2.follows_step hplain
  refine ⟨Runs.along_append hx.1 hper, ?_⟩
  simpa only [CallTable.hear, CallTable.andThen, stages, Runs.run_append] using hstaged

lemma initial_follows (maxCalls : ℕ) : Follows (fun _ => .free) (initial maxCalls, []) :=
  ⟨trivial, initial_owned maxCalls, fun _ _ => rfl, by simp [initial]⟩

/-- The run of a stack that has just been started. -/
lemma follows_run (maxCalls : ℕ) {happenings : List Happening}
    (hplain : ∀ a ∈ happenings, a.Plain) :
    Follows (fun _ => .free) (Runs.run hear (initial maxCalls, []) happenings) :=
  Runs.run_of_along (fun _ _ hx ha => hx.hear ha) (initial_follows maxCalls)
    (Runs.along_of_forall hplain _)

/-- The events of the call manager that the stack calls back with. -/
def ofStack : Event → Bool
  | .callStateChanged _ _ | .callIncoming _ _ _ | .holdConfirm _ | .callReplaced _ _ => true
  | _ => false

/-- Those that come from timers, from the configuration and from the answering machine. -/
def ofMachine : Event → Bool
  | .timerElapsed _ _ | .surroundings _ | .onUserAnswer _ | .onUserRelease _ => true
  | _ => false

/-- The machine is free to act at any time, and does not touch the stages. -/
lemma ofMachine_permits {e : Event} (he : ofMachine e) (g : CallId → Stage) :
    Stage.permits g e ∧ Stage.after g e = g := by
  cases e <;> simp_all [ofMachine, Stage.permits, Stage.after]

end CallTable

end TAM
