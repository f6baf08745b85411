import AnsweringMachine.CallControl.Machine

/-!
# The calls of the application

`SIPCallProvider` keeps a list of `SIPCall` objects in step with the call manager by listening to
its notifications.  Objects are kept on a heap, since an action thread goes on using its call after
the provider has removed it from the list.

Of a `SIPCall` the id, the state and the event `_audioPlaybackCompleted` are modelled; the event is
an auto-reset flag.  `hangup` and `acceptCall` return the request they make of the call manager, if
any, and leave it to the caller to pass it on.

To the outside the list is a `Knowledge`: for each id the state under which the call is known.  As
long as no call is entered under an id that is known already, notifications change the list as
they change the knowledge (`Tidy.notify`).
-/

namespace TAM

/-- The state of a call as the application sees it. -/
inductive CallState
  | Ringing | Error | Connected | HangUp | Disconnected
  deriving DecidableEq, Repr

/-- The states in which the action thread gives up. -/
def CallState.ended : CallState → Bool
  | Error | Disconnected | HangUp => true
  | _ => false

/-- The states of a call that is over. -/
def CallState.over : CallState → Bool
  | HangUp | Disconnected => true
  | _ => false

lemma CallState.ended_of_over {x : CallState} (h : x.over) : x.ended := by
  cases x <;> simp_all [CallState.over, CallState.ended]

/-- A call of the application. -/
structure SIPCall where
  sipekCallId : CallId
  callState : CallState
  audioPlaybackCompleted : Bool := false
  deriving DecidableEq, Repr

/-- The identity of a `SIPCall` object: the position at which it was created. -/
abbrev CallRef := ℕ

/-- The provider: the objects created so far, and the list `_calls`. -/
structure SIPCallProvider where
  objects : CallRef → SIPCall
  created : ℕ
  calls : List CallRef

namespace SIPCallProvider

variable {p : SIPCallProvider} {c : CallRef} {j k : CallId}

/-- A provider without calls. -/
def initial : SIPCallProvider where
  objects _ := { sipekCallId := 0, callState := .Disconnected }
  created := 0
  calls := []

/-- Assign to fields of a call. -/
def modify (p : SIPCallProvider) (c : CallRef) (f : SIPCall → SIPCall) : SIPCallProvider :=
  { p with objects := Function.update p.objects c (f (p.objects c)) }

/-- The first call in the list with the given id. -/
def findCallById (p : SIPCallProvider) (k : CallId) : Option CallRef :=
  p.calls.find? fun c => (p.objects c).sipekCallId = k

/-- Assign the state of a call. -/
def setCallState (p : SIPCallProvider) (c : CallRef) (st : CallState) : SIPCallProvider :=
  p.modify c fun x => { x with callState := st }

/-- Set or reset the event of a call. -/
def signal (p : SIPCallProvider) (c : CallRef) (b : Bool) : SIPCallProvider :=
  p.modify c fun x => { x with audioPlaybackCompleted := b }

/-- `Set` on the event of a call. -/
abbrev set (p : SIPCallProvider) (c : CallRef) : SIPCallProvider := p.signal c true

/-- The end of `WaitOne` on the event of a call: it is reset. -/
abbrev reset (p : SIPCallProvider) (c : CallRef) : SIPCallProvider := p.signal c false

/-- `Hangup`: the id whose release is requested, if the call is connected.  The event is set in any
case, after the request. -/
def hangup (p : SIPCallProvider) (c : CallRef) : Option CallId :=
  if (p.objects c).callState = .Connected then some (p.objects c).sipekCallId else none

/-- `AcceptCall`: the id whose answer is requested, if the call is ringing. -/
def acceptCall (p : SIPCallProvider) (c : CallRef) : Option CallId :=
  if (p.objects c).callState = .Ringing then some (p.objects c).sipekCallId else none

/-- `onCallStateChanged`.  The hangup of a call that has just been marked as disconnected requests
nothing (`hangup_setCallState`), so it only sets the event. -/
def onCallStateChanged (p : SIPCallProvider) (callId : CallId) (stateId : EStateId) :
    SIPCallProvider :=
  match p.findCallById callId with
  | none => p
  | some call =>
      match stateId with
      | .ACTIVE => p.setCallState call .Connected
      | .INCOMING => p.setCallState call .Ringing
      | .TERMINATED | .IDLE => (p.setCallState call .Disconnected).set call
      | .RELEASED => p.setCallState call .HangUp
      | .NULL =>
          let p := p.setCallState call .Disconnected
          { p with calls := p.calls.erase call }
      | _ => p

/-- A hangup in the handler makes no request of the manager, which is in the middle of an
operation. -/
lemma hangup_setCallState (p : SIPCallProvider) (c : CallRef) :
    (p.setCallState c .Disconnected).hangup c = none := by
  simp [hangup, setCallState, modify]

/-- `resources_CallManager_IncomingCallNotification`: a new call, ringing, at the end of the
list. -/
def resources_CallManager_IncomingCallNotification (p : SIPCallProvider) (callId : CallId) :
    SIPCallProvider where
  objects := Function.update p.objects p.created { sipekCallId := callId, callState := .Ringing }
  created := p.created + 1
  calls := p.calls ++ [p.created]

/-- The handler of `OnWavPlayerCompleted`: it knows the call id only. -/
def onWavPlayerCompleted (p : SIPCallProvider) (callId : CallId) : SIPCallProvider :=
  match p.findCallById callId with
  | none => p
  | some call => p.set call

/-- The handlers of the two events of the manager. -/
def notify (p : SIPCallProvider) : Notification → SIPCallProvider
  | .CallStateRefresh k st => p.onCallStateChanged k st
  | .IncomingCallNotification k _ _ => p.resources_CallManager_IncomingCallNotification k

/-! ## Reading the list -/

/-- The ids of the list. -/
def ids (p : SIPCallProvider) : List CallId := p.calls.map fun c => (p.objects c).sipekCallId

/-- The state under which the list knows an id. -/
def callStateOf (p : SIPCallProvider) (k : CallId) : Option CallState :=
  (p.findCallById k).map fun c => (p.objects c).callState

@[simp] lemma modify_self (p : SIPCallProvider) (c : CallRef) (f : SIPCall → SIPCall) :
    (p.modify c f).objects c = f (p.objects c) := by simp [modify]

@[simp] lemma modify_of_ne (p : SIPCallProvider) {c d : CallRef} (h : d ≠ c)
    (f : SIPCall → SIPCall) : (p.modify c f).objects d = p.objects d := by simp [modify, h]

@[simp] lemma modify_calls (p : SIPCallProvider) (c : CallRef) (f : SIPCall → SIPCall) :
    (p.modify c f).calls = p.calls := rfl

@[simp] lemma modify_created (p : SIPCallProvider) (c : CallRef) (f : SIPCall → SIPCall) :
    (p.modify c f).created = p.created := rfl

/-- Ids are never assigned. -/
lemma modify_id {f : SIPCall → SIPCall} (hf : ∀ x, (f x).sipekCallId = x.sipekCallId)
    (p : SIPCallProvider) (c d : CallRef) :
    ((p.modify c f).objects d).sipekCallId = (p.objects d).sipekCallId := by
  by_cases h : d = c
  · subst h; simp [hf]
  · simp [h]

lemma findCallById_modify {f : SIPCall → SIPCall} (hf : ∀ x, (f x).sipekCallId = x.sipekCallId)
    (p : SIPCallProvider) (c : CallRef) (k : CallId) :
    (p.modify c f).findCallById k = p.findCallById k := by
  simp only [findCallById, modify_calls, modify_id hf]

lemma ids_modify {f : SIPCall → SIPCall} (hf : ∀ x, (f x).sipekCallId = x.sipekCallId)
    (p : SIPCallProvider) (c : CallRef) : (p.modify c f).ids = p.ids := by
  simp only [ids, modify_calls, modify_id hf]

/-- A call that is found is in the list and has the id. -/
lemma findCallById_eq_some (h : p.findCallById k = some c) :
    c ∈ p.calls ∧ (p.objects c).sipekCallId = k :=
  ⟨List.mem_of_find?_eq_some h, by simpa using List.find?_some h⟩

lemma findCallById_eq_none : p.findCallById k = none ↔ k ∉ p.ids := by
  simp [findCallById, ids, List.find?_eq_none]

/-- With pairwise distinct ids, a call in the list is the one found under its id. -/
lemma findCallById_of_mem (hnd : p.ids.Nodup) (hc : c ∈ p.calls) :
    p.findCallById (p.objects c).sipekCallId = some c := by
  obtain ⟨d, hd⟩ : ∃ d, p.findCallById (p.objects c).sipekCallId = some d := by
    cases h : p.findCallById (p.objects c).sipekCallId with
    | none => exact absurd (List.mem_map_of_mem hc) (findCallById_eq_none.mp h)
    | some d => exact ⟨d, rfl⟩
  obtain ⟨hmem, hid⟩ := findCallById_eq_some hd
  rw [hd, List.inj_on_of_nodup_map hnd hmem hc hid]

@[simp] lemma findCallById_setCallState (p : SIPCallProvider) (c : CallRef) (st : CallState)
    (k : CallId) : (p.setCallState c st).findCallById k = p.findCallById k :=
  findCallById_modify (f := fun x => { x with callState := st }) (fun _ => rfl) p c k

@[simp] lemma findCallById_signal (p : SIPCallProvider) (c : CallRef) (b : Bool) (k : CallId) :
    (p.signal c b).findCallById k = p.findCallById k :=
  findCallById_modify (f := fun x => { x with audioPlaybackCompleted := b }) (fun _ => rfl) p c k

@[simp] lemma ids_setCallState (p : SIPCallProvider) (c : CallRef) (st : CallState) :
    (p.setCallState c st).ids = p.ids :=
  ids_modify (f := fun x => { x with callState := st }) (fun _ => rfl) p c

@[simp] lemma ids_signal (p : SIPCallProvider) (c : CallRef) (b : Bool) :
    (p.signal c b).ids = p.ids :=
  ids_modify (f := fun x => { x with audioPlaybackCompleted := b }) (fun _ => rfl) p c

@[simp] lemma signal_self (p : SIPCallProvider) (c : CallRef) (b : Bool) :
    (p.signal c b).objects c = { p.objects c with audioPlaybackCompleted := b } := by simp [signal]

lemma signal_of_ne (p : SIPCallProvider) {d : CallRef} (h : d ≠ c) (b : Bool) :
    (p.signal c b).objects d = p.objects d := by simp [signal, h]

/-- The event is not a part of the state. -/
@[simp] lemma signal_callState (p : SIPCallProvider) (c d : CallRef) (b : Bool) :
    ((p.signal c b).objects d).callState = (p.objects d).callState := by
  by_cases h : d = c
  · subst h; simp
  · rw [signal_of_ne p h]

@[simp] lemma callStateOf_signal (p : SIPCallProvider) (c : CallRef) (b : Bool) :
    (p.signal c b).callStateOf = p.callStateOf := by
  funext k
  simp only [callStateOf, findCallById_signal, signal_callState]

/-- Assigning the state of the call found under an id changes what is known of that id only. -/
lemma callStateOf_setCallState (hc : p.findCallById k = some c) (st : CallState) :
    (p.setCallState c st).callStateOf = Function.update p.callStateOf k (some st) := by
  funext j
  simp only [callStateOf, findCallById_setCallState]
  by_cases hj : j = k
  · subst hj
    simp [hc, setCallState]
  · rw [Function.update_of_ne hj]
    refine Option.map_congr fun d hd => ?_
    have hdc : d ≠ c := by
      rintro rfl
      exact hj ((findCallById_eq_some hd).2.symm.trans (findCallById_eq_some hc).2)
    simp [setCallState, hdc]

/-- Removing a call from the list leaves the other ids alone. -/
lemma findCallById_erase (p : SIPCallProvider) (c : CallRef) (hj : (p.objects c).sipekCallId ≠ j) :
    findCallById { p with calls := p.calls.erase c } j = p.findCallById j := by
  unfold findCallById
  induction p.calls with
  | nil => rfl
  | cons d l ih =>
      by_cases hd : d = c
      · subst hd
        simp [hj]
      · rw [List.erase_cons_tail (by simpa using hd)]
        simp only [List.find?_cons, ih]

/-- With pairwise distinct ids, the id of a removed call is not known any more. -/
lemma findCallById_erase_self (hnd : p.ids.Nodup) (hc : p.findCallById k = some c) :
    findCallById { p with calls := p.calls.erase c } k = none := by
  rw [findCallById_eq_none]
  obtain ⟨hmem, hid⟩ := findCallById_eq_some hc
  rintro hk
  obtain ⟨d, hd, hdk⟩ := List.mem_map.mp hk
  have hnd' : p.calls.Nodup := List.Nodup.of_map _ hnd
  have hd' : d ∈ p.calls ∧ d ≠ c := ⟨List.mem_of_mem_erase hd, fun e => by
    subst e
    exact absurd hd (List.Nodup.not_mem_erase hnd')⟩
  exact hd'.2 (List.inj_on_of_nodup_map hnd hd'.1 hmem (hdk.trans hid.symm))

lemma ids_erase_nodup (hnd : p.ids.Nodup) (c : CallRef) :
    (ids { p with calls := p.calls.erase c }).Nodup :=
  hnd.sublist (List.Sublist.map _ List.erase_sublist)

/-- A state change of another call. -/
lemma onCallStateChanged_of_ne (hk : p.findCallById k ≠ some c) (st : EStateId) :
    (p.onCallStateChanged k st).objects c = p.objects c ∧
      (c ∈ p.calls → c ∈ (p.onCallStateChanged k st).calls) := by
  simp only [onCallStateChanged]
  split
  · exact ⟨rfl, id⟩
  · rename_i d hd
    have hcd : c ≠ d := by
      rintro rfl
      exact hk hd
    cases st <;> simp [setCallState, signal, hcd, List.mem_erase_of_ne hcd]

lemma created_notify (p : SIPCallProvider) (n : Notification) :
    p.created ≤ (p.notify n).created := by
  cases n with
  | IncomingCallNotification k number info => exact Nat.le_succ _
  | CallStateRefresh k st =>
      simp only [SIPCallProvider.notify, onCallStateChanged]
      split
      · exact Nat.le_refl _
      · split <;> exact Nat.le_refl _

/-! ## A new call -/

/-- The objects created before stay as they are. -/
lemma incoming_objects (k : CallId) (hc : c < p.created) :
    (p.resources_CallManager_IncomingCallNotification k).objects c = p.objects c :=
  Function.update_of_ne (ne_of_lt hc) _ _

@[simp] lemma incoming_object (p : SIPCallProvider) (k : CallId) :
    (p.resources_CallManager_IncomingCallNotification k).objects p.created =
      { sipekCallId := k, callState := .Ringing } := Function.update_self _ _ _

lemma ids_incoming (h : ∀ c ∈ p.calls, c < p.created) (k : CallId) :
    (p.resources_CallManager_IncomingCallNotification k).ids = p.ids ++ [k] := by
  have hold : p.calls.map (fun c =>
      ((p.resources_CallManager_IncomingCallNotification k).objects c).sipekCallId) = p.ids :=
    List.map_congr_left fun c hc => by rw [incoming_objects k (h c hc)]
  rw [← hold]
  simp [ids, resources_CallManager_IncomingCallNotification]

/-- The new call is found if there is no other call with its id. -/
lemma findCallById_incoming (h : ∀ c ∈ p.calls, c < p.created) (k j : CallId) :
    (p.resources_CallManager_IncomingCallNotification k).findCallById j =
      (p.findCallById j).or (if j = k then some p.created else none) := by
  have hold : p.calls.find? (fun c =>
      ((p.resources_CallManager_IncomingCallNotification k).objects c).sipekCallId = j) =
      p.findCallById j := by
    simp only [findCallById]
    rw [← List.head?_filter, ← List.head?_filter]
    congr 1
    exact List.filter_congr fun c hc => by rw [incoming_objects k (h c hc)]
  rw [← hold]
  simp only [findCallById, resources_CallManager_IncomingCallNotification, List.find?_append]
  congr 1
  by_cases hj : j = k <;> simp [hj, eq_comm]

/-- The calls in the list have been created. -/
lemma created_foldl (l : List Notification) (h : ∀ c ∈ p.calls, c < p.created) :
    ∀ c ∈ (l.foldl notify p).calls, c < (l.foldl notify p).created := by
  induction l generalizing p with
  | nil => exact h
  | cons n l ih =>
      refine ih fun c hc => ?_
      cases n with
      | IncomingCallNotification k number info =>
          rcases List.mem_append.mp hc with hc | hc
          · exact Nat.lt_succ_of_lt (h c hc)
          · rw [List.mem_singleton.mp hc]
            exact Nat.lt_succ_self _
      | CallStateRefresh k st =>
          refine Nat.lt_of_lt_of_le (h c ?_) (created_notify p (.CallStateRefresh k st))
          simp only [notify, onCallStateChanged] at hc
          split at hc
          · exact hc
          · split at hc <;> first | exact hc | exact List.mem_of_mem_erase hc

/-! ## What is known -/

end SIPCallProvider

/-- For each id the state under which its call is known. -/
abbrev Knowledge := CallId → Option CallState

/-- What a report of a state makes of a known call; it is forgotten when its machine is gone. -/
def CallState.after : EStateId → CallState → Option CallState
  | .ACTIVE, _ => some .Connected
  | .INCOMING, _ => some .Ringing
  | .TERMINATED, _ | .IDLE, _ => some .Disconnected
  | .RELEASED, _ => some .HangUp
  | .NULL, _ => none
  | _, x => some x

/-- The notifications, as far as knowledge goes. -/
def Knowledge.notify (κ : Knowledge) : Notification → Knowledge
  | .CallStateRefresh k st =>
      match κ k with
      | none => κ
      | some x => Function.update κ k (x.after st)
  | .IncomingCallNotification k _ _ => Function.update κ k (some .Ringing)

namespace SIPCallProvider

variable {p : SIPCallProvider} {c : CallRef} {k : CallId}

/-- The calls of the list have been created, and their ids are distinct. -/
structure Tidy (p : SIPCallProvider) : Prop where
  created : ∀ c ∈ p.calls, c < p.created
  distinct : p.ids.Nodup

namespace Tidy

lemma initial : SIPCallProvider.initial.Tidy where
  created := by simp [SIPCallProvider.initial]
  distinct := by simp [SIPCallProvider.initial, ids]

lemma setCallState (h : p.Tidy) (c : CallRef) (st : CallState) : (p.setCallState c st).Tidy :=
  ⟨h.created, by simpa using h.distinct⟩

lemma signal (h : p.Tidy) (c : CallRef) (b : Bool) : (p.signal c b).Tidy :=
  ⟨h.created, by simpa using h.distinct⟩

/-- The call with a given id is removed. -/
lemma erase (h : p.Tidy) (hc : p.findCallById k = some c) :
    Tidy { p with calls := p.calls.erase c } ∧
      callStateOf { p with calls := p.calls.erase c } = Function.update p.callStateOf k none := by
  refine ⟨⟨fun d hd => h.created d (List.mem_of_mem_erase hd), ids_erase_nodup h.distinct c⟩, ?_⟩
  funext j
  by_cases hj : j = k
  · subst hj
    rw [Function.update_self, callStateOf, findCallById_erase_self h.distinct hc]
    rfl
  · have hid := (findCallById_eq_some hc).2
    rw [Function.update_of_ne hj, callStateOf,
      findCallById_erase p c (by rw [hid]; exact Ne.symm hj)]
    rfl

/-- A call is entered under a new id. -/
lemma incoming (h : p.Tidy) (hk : p.callStateOf k = none) :
    (p.resources_CallManager_IncomingCallNotification k).Tidy ∧
      (p.resources_CallManager_IncomingCallNotification k).callStateOf =
        Function.update p.callStateOf k (some .Ringing) := by
  have hfind : p.findCallById k = none := by simpa [callStateOf] using hk
  refine ⟨⟨fun c hc => ?_, ?_⟩, funext fun j => ?_⟩
  · rcases List.mem_append.mp hc with hc | hc
    · exact Nat.lt_succ_of_lt (h.created c hc)
    · rw [List.mem_singleton.mp hc]
      exact Nat.lt_succ_self _
  · rw [ids_incoming h.created, List.nodup_append]
    refine ⟨h.distinct, by simp, ?_⟩
    rintro a ha b hb rfl
    rw [List.mem_singleton.mp hb] at ha
    exact findCallById_eq_none.mp hfind ha
  · simp only [callStateOf, findCallById_incoming h.created]
    by_cases hj : j = k
    · subst hj
      simp [hfind]
    · rw [Function.update_of_ne hj, if_neg hj, Option.or_none]
      exact Option.map_congr fun c hc => by
        rw [incoming_objects k (h.created c (findCallById_eq_some hc).1)]

/-- The handler of state changes. -/
lemma onCallStateChanged (h : p.Tidy) (k : CallId) (st : EStateId) :
    (p.onCallStateChanged k st).Tidy ∧
      (p.onCallStateChanged k st).callStateOf =
        Knowledge.notify p.callStateOf (.CallStateRefresh k st) := by
  simp only [SIPCallProvider.onCallStateChanged]
  cases hc : p.findCallById k with
  | none =>
      have hk : p.callStateOf k = none := by simp [callStateOf, hc]
      simp only [Knowledge.notify, hk, and_true]
      exact h
  | some c =>
      have hk : p.callStateOf k = some (p.objects c).callState := by simp [callStateOf, hc]
      have hsame :
          Function.update p.callStateOf k (some (p.objects c).callState) = p.callStateOf := by
        rw [← hk, Function.update_eq_self]
      simp only [Knowledge.notify, hk]
      cases st with
      | NULL =>
          have hc' : (p.setCallState c .Disconnected).findCallById k = some c := by simpa using hc
          obtain ⟨htidy, hstate⟩ := (h.setCallState c .Disconnected).erase hc'
          refine ⟨htidy, hstate.trans ?_⟩
          rw [callStateOf_setCallState hc, Function.update_idem]
          rfl
      | IDLE | TERMINATED =>
          exact ⟨(h.setCallState c .Disconnected).signal c true,
            (callStateOf_signal _ c true).trans (callStateOf_setCallState hc _)⟩
      | ACTIVE | RELEASED | INCOMING =>
          exact ⟨h.setCallState c _, callStateOf_setCallState hc _⟩
      | CONNECTING | ALERTING | HOLDING => exact ⟨h, hsame.symm⟩

/-- **A notification changes what is known**, and nothing else about the list. -/
lemma notify (h : p.Tidy) {n : Notification}
    (hn : ∀ k number info, n = .IncomingCallNotification k number info → p.callStateOf k = none) :
    (p.notify n).Tidy ∧ (p.notify n).callStateOf = Knowledge.notify p.callStateOf n := by
  cases n with
  | CallStateRefresh k st => exact h.onCallStateChanged k st
  | IncomingCallNotification k number info => exact h.incoming (hn k number info rfl)

end Tidy

end SIPCallProvider

end TAM
