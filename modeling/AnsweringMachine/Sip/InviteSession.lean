import AnsweringMachine.CallControl.Machine
import AnsweringMachine.Library.Runs

/-!
# The invite session

`sip_inv.c` keeps the state of a session and reports every state it sets.  The state follows what
happens to the transactions of the dialog: one handler for each state decides what a transaction
event means, and sets at most two states.

What a handler can do is said once, by `Path`: it raises the state of a session that is not
disconnected, or it does something nobody is told of.  There is one lemma for each handler, and what
holds for every session is read off `Path` alone: `reports_ordered`.
-/

namespace TAM

/-- `pjsip_role_e`. -/
inductive PjsipRole
  | UAC
  | UAS
  deriving DecidableEq, Repr

/-- The methods that the handlers tell apart. -/
inductive SipMethod
  | INVITE
  | BYE
  | CANCEL
  | UPDATE
  | PRACK
  | other
  deriving DecidableEq, Repr

/-- `pjsip_tsx_state_e`. -/
inductive TsxState
  | NULL
  | CALLING
  | TRYING
  | PROCEEDING
  | COMPLETED
  | CONFIRMED
  | TERMINATED
  | DESTROYED
  deriving DecidableEq, Repr

/-- What a handler meets when it tries something: a request can be sent again with credentials, a
response, an ACK or a CANCEL can be sent, a message that ends the session can be created, and offer
and answer are complete. -/
structure Attempts where
  reinit : Bool := true
  responded : Bool := true
  ackSent : Bool := true
  cancelSent : Bool := true
  created : Bool := true
  sdpDone : Bool := true
  deriving DecidableEq, Repr

/-- A transaction of the dialog has changed its state: whether it is the INVITE transaction that the
session keeps, its method, role, state and status code, whether a message that was received is the
reason, and whether the dialog has a remote tag. -/
structure TsxEvent extends Attempts where
  invite : Bool
  method : SipMethod
  role : PjsipRole
  state : TsxState
  statusCode : ℕ
  rxMsg : Bool := false
  remoteTag : Bool := true
  deriving DecidableEq, Repr

/-- `pjsip_inv_session`. -/
structure InvSession where
  role : PjsipRole
  state : ESessionState := .SESSION_STATE_NULL
  cancelling : Bool := false
  pendingCancel : Bool := false
  notify : Bool := true
  deriving DecidableEq, Repr

/-- The order of `pjsip_inv_state`.  A session that is restarted goes back from calling to its
beginning, so that the two count as one. -/
def ESessionState.rank : ESessionState → ℕ
  | .SESSION_STATE_NULL | .SESSION_STATE_CALLING => 0
  | .SESSION_STATE_INCOMING => 1
  | .SESSION_STATE_EARLY => 2
  | .SESSION_STATE_CONNECTING => 3
  | .SESSION_STATE_CONFIRMED => 4
  | .SESSION_STATE_DISCONNECTED => 5

namespace InvSession

/-- A session after a handler, and the states it has reported. -/
abbrev Reaction := InvSession × List ESessionState

/-- Nothing more happens. -/
def still (s : InvSession) : Reaction := (s, [])

/-- One thing after the other. -/
def andThen (x : Reaction) (f : InvSession → Reaction) : Reaction := ((f x.1).1, x.2 ++ (f x.1).2)

/-- `pjsip_inv_end_session`.  A caller that has not heard anything yet puts its CANCEL off. -/
def endSession (s : InvSession) (provisional created : Bool) : InvSession :=
  match s.state with
  | .SESSION_STATE_CALLING | .SESSION_STATE_EARLY | .SESSION_STATE_INCOMING =>
      if s.role = .UAC ∧ ¬ provisional then { s with cancelling := true, pendingCancel := true }
      else if created then { s with cancelling := true }
      else s
  | .SESSION_STATE_CONNECTING | .SESSION_STATE_CONFIRMED =>
      if created then { s with cancelling := true } else s
  | .SESSION_STATE_DISCONNECTED | .SESSION_STATE_NULL => s

/-- `inv_set_state`.  A session is not confirmed before offer and answer are complete: it is ended
instead, which begins with a BYE. -/
def setState (s : InvSession) (w : Attempts) (st : ESessionState) : Reaction :=
  if st = .SESSION_STATE_CONFIRMED ∧ ¬ w.sdpDone then (s.endSession true w.created).still
  else ({ s with state := st }, if s.notify then [st] else [])

/-- `inv_send_ack`: the session is confirmed, unless it is already or has ended. -/
def sendAck (s : InvSession) (w : Attempts) : Reaction :=
  if w.ackSent ∧ s.state.rank < ESessionState.SESSION_STATE_CONFIRMED.rank then
    s.setState w .SESSION_STATE_CONFIRMED
  else s.still

/-- The CANCEL that was put off until there is a response.  One that cannot be sent is a transaction
that ends with a transport error, and the session hears of it before the sending returns. -/
def sendPendingCancel (s : InvSession) (w : Attempts) : Reaction :=
  if s.pendingCancel then
    let s' := { s with pendingCancel := false }.endSession true w.created
    if s.state = .SESSION_STATE_CALLING ∧ w.created ∧ ¬ w.cancelSent then
      s'.setState w .SESSION_STATE_DISCONNECTED
    else s'.still
  else s.still

/-- Responses that end a session: 481, except to a CANCEL, 408, which also stands for a timeout, and
503, which also stands for a transport error. -/
def endsSession (e : TsxEvent) : Bool :=
  (e.statusCode = 481 && e.method ≠ .CANCEL) || e.statusCode = 408 || e.statusCode = 503

/-- `handle_uac_tsx_response`. -/
def handleUacTsxResponse (s : InvSession) (e : TsxEvent) : Reaction :=
  if s.state ≠ .SESSION_STATE_DISCONNECTED ∧ endsSession e then
    s.setState e.toAttempts .SESSION_STATE_DISCONNECTED
  else s.still

/-- `inv_respond_incoming_bye`. -/
def respondIncomingBye (s : InvSession) (e : TsxEvent) : Reaction :=
  if e.responded ∧ s.state ≠ .SESSION_STATE_DISCONNECTED then
    s.setState e.toAttempts .SESSION_STATE_DISCONNECTED
  else s.still

/-- `inv_handle_bye_response`: only a challenge that can be answered keeps the session. -/
def handleByeResponse (s : InvSession) (e : TsxEvent) : Reaction :=
  if e.rxMsg ∧ (e.statusCode = 401 ∨ e.statusCode = 407) ∧ e.reinit then s.still
  else s.setState e.toAttempts .SESSION_STATE_DISCONNECTED

/-- `inv_on_state_calling`. -/
def onStateCalling (s : InvSession) (e : TsxEvent) : Reaction :=
  if e.invite then
    match e.state with
    | .CALLING => s.setState e.toAttempts .SESSION_STATE_CALLING
    | .PROCEEDING =>
        andThen (s.sendPendingCancel e.toAttempts) fun s =>
          if e.remoteTag then s.setState e.toAttempts .SESSION_STATE_EARLY else s.still
    | .COMPLETED =>
        if e.statusCode / 100 = 2 then s.setState e.toAttempts .SESSION_STATE_CONNECTING
        else if (e.statusCode = 401 ∨ e.statusCode = 407) ∧ ¬ s.cancelling ∧ e.reinit then
          -- the request is sent again with credentials, and the session starts anew
          ({ s with state := .SESSION_STATE_NULL }, [])
        else s.setState e.toAttempts .SESSION_STATE_DISCONNECTED
    | .TERMINATED =>
        if e.statusCode / 100 = 2 then
          andThen (s.setState e.toAttempts .SESSION_STATE_CONNECTING) fun s =>
            s.sendAck e.toAttempts
        else s.setState e.toAttempts .SESSION_STATE_DISCONNECTED
    | _ => s.still
  else if e.role = .UAC ∧ endsSession e then s.setState e.toAttempts .SESSION_STATE_DISCONNECTED
  else s.still

/-- `inv_on_state_incoming`. -/
def onStateIncoming (s : InvSession) (e : TsxEvent) : Reaction :=
  if e.invite then
    match e.state with
    | .TRYING => s.setState e.toAttempts .SESSION_STATE_INCOMING
    | .PROCEEDING =>
        if 100 < e.statusCode then s.setState e.toAttempts .SESSION_STATE_EARLY else s.still
    | .COMPLETED =>
        if e.statusCode / 100 = 2 then s.setState e.toAttempts .SESSION_STATE_CONNECTING
        else s.setState e.toAttempts .SESSION_STATE_DISCONNECTED
    | .TERMINATED => s.setState e.toAttempts .SESSION_STATE_DISCONNECTED
    | _ => s.still
  else s.still

/-- `inv_on_state_null`. -/
def onStateNull (s : InvSession) (e : TsxEvent) : Reaction :=
  if e.method = .INVITE then
    match s.role, e.state with
    | .UAC, .CALLING => s.setState e.toAttempts .SESSION_STATE_CALLING
    | .UAC, _ => s.onStateCalling e
    | .UAS, .TRYING => s.setState e.toAttempts .SESSION_STATE_INCOMING
    | .UAS, .PROCEEDING =>
        andThen (s.setState e.toAttempts .SESSION_STATE_INCOMING) fun s =>
          if 100 < e.statusCode then s.setState e.toAttempts .SESSION_STATE_EARLY else s.still
    | .UAS, _ => s.onStateIncoming e
  else s.still

/-- `inv_on_state_early`. -/
def onStateEarly (s : InvSession) (e : TsxEvent) : Reaction :=
  if e.invite then
    match e.state with
    | .PROCEEDING => s.setState e.toAttempts .SESSION_STATE_EARLY
    | .COMPLETED =>
        if e.statusCode / 100 = 2 then s.setState e.toAttempts .SESSION_STATE_CONNECTING
        else s.setState e.toAttempts .SESSION_STATE_DISCONNECTED
    | .CONFIRMED | .TERMINATED =>
        if e.statusCode / 100 = 2 then
          andThen (s.setState e.toAttempts .SESSION_STATE_CONNECTING) fun s =>
            if e.role = .UAC then s.sendAck e.toAttempts else s.still
        else s.setState e.toAttempts .SESSION_STATE_DISCONNECTED
    | _ => s.still
  else if e.role = .UAC ∧
      ¬ (e.method = .UPDATE ∧ (e.state = .COMPLETED ∨ e.state = .TERMINATED)) then
    s.handleUacTsxResponse e
  else s.still

/-- An incoming BYE that has not been answered. -/
def incomingBye (e : TsxEvent) : Bool :=
  e.method = .BYE && e.role = .UAS && e.statusCode < 200 && e.rxMsg

/-- The answer to an outgoing BYE. -/
def answeredBye (e : TsxEvent) : Bool :=
  e.method = .BYE && e.role = .UAC && (e.state = .COMPLETED || e.state = .TERMINATED)

/-- `inv_on_state_connecting`. -/
def onStateConnecting (s : InvSession) (e : TsxEvent) : Reaction :=
  if e.invite then
    match e.state with
    | .CONFIRMED =>
        if e.statusCode / 100 = 2 then s.setState e.toAttempts .SESSION_STATE_CONFIRMED
        else s.still
    | .TERMINATED =>
        if e.statusCode / 100 = 2 then s.still
        else s.setState e.toAttempts .SESSION_STATE_DISCONNECTED
    | _ => s.still
  else if incomingBye e then s.respondIncomingBye e
  else if answeredBye e then s.handleByeResponse e
  else if e.role = .UAC then s.handleUacTsxResponse e
  else s.still

/-- `inv_on_state_confirmed`.  Further INVITEs of the dialog do not change its state. -/
def onStateConfirmed (s : InvSession) (e : TsxEvent) : Reaction :=
  if answeredBye e then s.handleByeResponse e
  else if incomingBye e then s.respondIncomingBye e
  else if e.role = .UAC then
    if e.method = .INVITE ∧ e.state = .CALLING then s.still
    else if e.method = .INVITE ∧ e.state = .TERMINATED ∧ e.statusCode / 100 = 2 then
      s.sendAck e.toAttempts
    else s.handleUacTsxResponse e
  else s.still

/-- `inv_on_state_disconnected`. -/
def onStateDisconnected (s : InvSession) (e : TsxEvent) : Reaction :=
  if e.role = .UAS ∧ e.statusCode < 200 ∧ e.rxMsg then
    if e.method = .BYE then s.respondIncomingBye e else s.still
  else if e.role = .UAC then s.handleUacTsxResponse e
  else s.still

/-- `mod_inv_on_tsx_state`, which asks the handler of the state the session is in. -/
def onTsxState (s : InvSession) (e : TsxEvent) : Reaction :=
  match s.state with
  | .SESSION_STATE_NULL => s.onStateNull e
  | .SESSION_STATE_CALLING => s.onStateCalling e
  | .SESSION_STATE_INCOMING => s.onStateIncoming e
  | .SESSION_STATE_EARLY => s.onStateEarly e
  | .SESSION_STATE_CONNECTING => s.onStateConnecting e
  | .SESSION_STATE_CONFIRMED => s.onStateConfirmed e
  | .SESSION_STATE_DISCONNECTED => s.onStateDisconnected e

/-- The INVITE transaction is terminated with a status code. -/
def inviteTerminated (s : InvSession) (w : Attempts) (code : ℕ) : TsxEvent :=
  { w with invite := true, method := .INVITE, role := s.role, state := .TERMINATED,
           statusCode := code }

/-- What reaches a session. -/
inductive Input
  | tsxState (e : TsxEvent)
  | rxAck (unfinished : Bool) (code : Option ℕ) (w : Attempts)
  | rxRetransmitted (w : Attempts)
  | endSession (provisional created : Bool)
  | terminate (notify : Bool) (pending : Bool) (code : ℕ) (w : Attempts)
  deriving DecidableEq, Repr

/-- What is met on the way. -/
def Input.attempts : Input → Attempts
  | .tsxState e => e.toAttempts
  | .rxAck _ _ w | .rxRetransmitted w | .terminate _ _ _ w => w
  | .endSession _ created => { created := created }

/-- `mod_inv_on_rx_request` for an ACK.  The INVITE transaction, if there still is one, has its
final status code and is terminated first. -/
def onRxAck (s : InvSession) (unfinished : Bool) (code : Option ℕ) (w : Attempts) : Reaction :=
  if unfinished then s.still
  else
    andThen (code.elim s.still fun c => s.onTsxState (s.inviteTerminated w c)) fun s =>
      if s.state = .SESSION_STATE_CONNECTING then s.setState w .SESSION_STATE_CONFIRMED
      else s.still

/-- `pjsip_inv_terminate`. -/
def terminate (s : InvSession) (notify pending : Bool) (code : ℕ) (w : Attempts) : Reaction :=
  let s := { s with notify := notify }
  andThen (if pending then s.onTsxState (s.inviteTerminated w code) else s.still) fun s =>
    if s.state ≠ .SESSION_STATE_DISCONNECTED then s.setState w .SESSION_STATE_DISCONNECTED
    else s.still

/-- A session and one input. -/
def onInput (s : InvSession) : Input → Reaction
  | .tsxState e => s.onTsxState e
  | .rxAck unfinished code w => s.onRxAck unfinished code w
  | .rxRetransmitted w => s.sendAck w
  | .endSession provisional created => (s.endSession provisional created).still
  | .terminate notify pending code w => s.terminate notify pending code w

/-! ## What a session can do -/

/-- The session goes from `s` to another state and reports a list of states on the way: it raises
its state as long as it is not disconnected, it starts anew, or it changes what no report shows.
Only a caller's session comes to be calling.  With `again` the session may report an incoming call
that it has reported before. -/
inductive Path (again : Prop) (s : InvSession) : List ESessionState → InvSession → Prop
  | refl : Path again s [] s
  | raise {l : List ESessionState} {s' : InvSession} (h : Path again s l s') (st : ESessionState)
      (hend : s'.state ≠ .SESSION_STATE_DISCONNECTED) (hle : s'.state.rank ≤ st.rank)
      (hnull : st ≠ .SESSION_STATE_NULL)
      (hcaller : st = .SESSION_STATE_CALLING → s'.role = .UAC ∨ s'.state = .SESSION_STATE_CALLING)
      (hagain : st = .SESSION_STATE_INCOMING → s'.state.rank = 0 ∨ again) :
      Path again s (l ++ if s'.notify then [st] else []) { s' with state := st }
  | restart {l : List ESessionState} {s' : InvSession} (h : Path again s l s')
      (hrank : s'.state.rank = 0) : Path again s l { s' with state := .SESSION_STATE_NULL }
  | quiet {l : List ESessionState} {s' s'' : InvSession} (h : Path again s l s')
      (hrole : s''.role = s'.role) (hstate : s''.state = s'.state) : Path again s l s''

/-- A reaction that is such a path. -/
abbrev Goes (again : Prop) (s : InvSession) (x : Reaction) : Prop := Path again s x.2 x.1

variable {again : Prop} {s s' : InvSession} {l l' : List ESessionState} {x : Reaction}
  {st : ESessionState} {w : Attempts} {e : TsxEvent}

lemma Path.trans {s'' : InvSession} (h : Path again s l s') (h' : Path again s' l' s'') :
    Path again s (l ++ l') s'' := by
  induction h' with
  | refl => simpa using h
  | raise _ st hend hle hnull hcaller hagain ih =>
      rw [← List.append_assoc]
      exact ih.raise st hend hle hnull hcaller hagain
  | restart _ hrank ih => exact ih.restart hrank
  | quiet _ hrole hstate ih => exact ih.quiet hrole hstate

lemma Goes.andThen {f : InvSession → Reaction} (h : Goes again s x)
    (hf : Goes again x.1 (f x.1)) : Goes again s (andThen x f) :=
  Path.trans h hf

lemma goes_still (s : InvSession) : Goes again s s.still := .refl

@[simp] lemma endSession_state (s : InvSession) (provisional created : Bool) :
    (s.endSession provisional created).state = s.state := by
  obtain ⟨role, state, cancelling, pendingCancel, notify⟩ := s
  cases state <;> simp only [endSession] <;> split_ifs <;> rfl

@[simp] lemma endSession_role (s : InvSession) (provisional created : Bool) :
    (s.endSession provisional created).role = s.role := by
  obtain ⟨role, state, cancelling, pendingCancel, notify⟩ := s
  cases state <;> simp only [endSession] <;> split_ifs <;> rfl

/-- Every state that is set is one the session may rise to. -/
lemma goes_setState (w : Attempts) (hend : s.state ≠ .SESSION_STATE_DISCONNECTED)
    (hle : s.state.rank ≤ st.rank) (hnull : st ≠ .SESSION_STATE_NULL)
    (hcaller : st = .SESSION_STATE_CALLING → s.role = .UAC ∨ s.state = .SESSION_STATE_CALLING)
    (hagain : st = .SESSION_STATE_INCOMING → s.state.rank = 0 ∨ again) :
    Goes again s (s.setState w st) := by
  by_cases h : st = .SESSION_STATE_CONFIRMED ∧ ¬ w.sdpDone
  · rw [setState, if_pos h]
    exact Path.refl.quiet (endSession_role s _ _) (endSession_state s _ _)
  · rw [setState, if_neg h]
    simpa using Path.refl.raise st hend hle hnull hcaller hagain

/-- A session in one state may rise to another. -/
def Rises (st₀ st : ESessionState) : Prop :=
  st₀ ≠ .SESSION_STATE_DISCONNECTED ∧ st₀.rank ≤ st.rank ∧ st ≠ .SESSION_STATE_NULL ∧
    st ≠ .SESSION_STATE_CALLING ∧ (st = .SESSION_STATE_INCOMING → st₀.rank = 0)

instance (st₀ st : ESessionState) : Decidable (Rises st₀ st) :=
  inferInstanceAs (Decidable (_ ∧ _))

lemma Rises.goes {st₀ : ESessionState} (h : Rises st₀ st) (hs : s.state = st₀) (w : Attempts) :
    Goes again s (s.setState w st) := by
  obtain ⟨hend, hle, hnull, hcalling, hincoming⟩ := h
  subst hs
  exact goes_setState w hend hle hnull (fun hst => absurd hst hcalling)
    fun hst => Or.inl (hincoming hst)

/-- A session that has not ended can be disconnected. -/
lemma goes_disconnect (hend : s.state ≠ .SESSION_STATE_DISCONNECTED) (w : Attempts) :
    Goes again s (s.setState w .SESSION_STATE_DISCONNECTED) :=
  goes_setState w hend (by cases s.state <;> decide) (by decide) (by simp) (by simp)

lemma setState_state (hst : st ≠ .SESSION_STATE_CONFIRMED) : (s.setState w st).1.state = st := by
  simp [setState, hst]

/-! ## One lemma for each function -/

lemma goes_sendAck (s : InvSession) (w : Attempts) : Goes again s (s.sendAck w) := by
  unfold sendAck
  split_ifs with h
  · refine goes_setState w ?_ (Nat.le_of_lt h.2) (by decide) (by simp) (by simp)
    intro hs
    rw [hs] at h
    exact absurd h.2 (by decide)
  · exact goes_still s

lemma goes_handleUacTsxResponse (s : InvSession) (e : TsxEvent) :
    Goes again s (s.handleUacTsxResponse e) := by
  unfold handleUacTsxResponse
  split_ifs with h
  · exact goes_disconnect h.1 _
  · exact goes_still s

lemma goes_respondIncomingBye (s : InvSession) (e : TsxEvent) :
    Goes again s (s.respondIncomingBye e) := by
  unfold respondIncomingBye
  split_ifs with h
  · exact goes_disconnect h.2 _
  · exact goes_still s

lemma goes_handleByeResponse (hend : s.state ≠ .SESSION_STATE_DISCONNECTED) (e : TsxEvent) :
    Goes again s (s.handleByeResponse e) := by
  unfold handleByeResponse
  split_ifs
  · exact goes_still s
  · exact goes_disconnect hend _

/-- A CANCEL that was put off and can be sent changes no state. -/
lemma sendPendingCancel_quiet
    (hcancel : s.state = .SESSION_STATE_CALLING → s.pendingCancel → w.cancelSent) :
    (s.sendPendingCancel w).1.role = s.role ∧ (s.sendPendingCancel w).1.state = s.state ∧
      (s.sendPendingCancel w).2 = [] := by
  unfold sendPendingCancel
  split_ifs with hpending hlost
  · exact absurd (hcancel hlost.1 hpending) hlost.2.2
  · exact ⟨by simp [still], by simp [still], rfl⟩
  · exact ⟨rfl, rfl, rfl⟩

lemma goes_sendPendingCancel
    (hcancel : s.state = .SESSION_STATE_CALLING → s.pendingCancel → w.cancelSent) :
    Goes again s (s.sendPendingCancel w) := by
  obtain ⟨hrole, hstate, hnone⟩ := sendPendingCancel_quiet hcancel
  rw [Goes, hnone]
  exact Path.refl.quiet hrole hstate

/-- A caller's first states. -/
lemma goes_onStateCalling (hrank : s.state.rank = 0)
    (hcaller : s.role = .UAC ∨ s.state = .SESSION_STATE_CALLING)
    (hcancel : s.state = .SESSION_STATE_CALLING → s.pendingCancel → e.cancelSent) :
    Goes again s (s.onStateCalling e) := by
  have hend : s.state ≠ .SESSION_STATE_DISCONNECTED := by
    intro hs
    rw [hs] at hrank
    exact absurd hrank (by decide)
  have hto {st : ESessionState} (hnull : st ≠ .SESSION_STATE_NULL) :
      Goes again s (s.setState e.toAttempts st) :=
    goes_setState _ hend (hrank.symm ▸ Nat.zero_le _) hnull (fun _ => hcaller) fun _ => Or.inl hrank
  unfold onStateCalling
  by_cases hinvite : e.invite
  · rw [if_pos hinvite]
    cases e.state with
    | CALLING => exact hto (by decide)
    | PROCEEDING =>
        refine (goes_sendPendingCancel hcancel).andThen ?_
        split_ifs
        · have hstate := (sendPendingCancel_quiet hcancel).2.1
          refine goes_setState _ (hstate ▸ hend) ?_ (by decide) (by simp) (by simp)
          rw [hstate, hrank]
          exact Nat.zero_le _
        · exact goes_still _
    | COMPLETED =>
        dsimp only
        split_ifs with hok hauth
        · exact hto (by decide)
        · exact Path.refl.restart hrank
        · exact hto (by decide)
    | TERMINATED =>
        dsimp only
        split_ifs with hok
        · exact (hto (by decide)).andThen (goes_sendAck _ _)
        · exact hto (by decide)
    | NULL | TRYING | CONFIRMED | DESTROYED => exact goes_still s
  · rw [if_neg hinvite]
    split_ifs
    · exact hto (by decide)
    · exact goes_still s

/-- A callee's first states.  A transaction that is trying once more is reported once more. -/
lemma goes_onStateIncoming (hrank : s.state.rank ≤ 1)
    (hagain : e.invite → e.state = .TRYING → s.state.rank = 0 ∨ again) :
    Goes again s (s.onStateIncoming e) := by
  have hend : s.state ≠ .SESSION_STATE_DISCONNECTED := by
    intro hs
    rw [hs] at hrank
    exact absurd hrank (by decide)
  have hto {st : ESessionState} (hst : 1 < st.rank) :
      Goes again s (s.setState e.toAttempts st) := by
    refine goes_setState _ hend (by omega) ?_ ?_ ?_ <;> rintro rfl <;>
      exact absurd hst (by decide)
  unfold onStateIncoming
  by_cases hinvite : e.invite
  · rw [if_pos hinvite]
    cases hstate : e.state with
    | TRYING =>
        exact goes_setState _ hend hrank (by decide) (by simp) fun _ => hagain hinvite hstate
    | PROCEEDING =>
        dsimp only
        split_ifs
        · exact hto (by decide)
        · exact goes_still s
    | COMPLETED =>
        dsimp only
        split_ifs
        · exact hto (by decide)
        · exact hto (by decide)
    | TERMINATED => exact hto (by decide)
    | NULL | CALLING | CONFIRMED | DESTROYED => exact goes_still s
  · rw [if_neg hinvite]
    exact goes_still s

lemma goes_onStateNull (hs : s.state = .SESSION_STATE_NULL) (e : TsxEvent) :
    Goes again s (s.onStateNull e) := by
  have hrank : s.state.rank = 0 := by rw [hs]; rfl
  have hcalling (hrole : s.role = .UAC) : Goes again s (s.onStateCalling e) :=
    goes_onStateCalling hrank (Or.inl hrole) fun h => by rw [hs] at h; cases h
  have hincoming : Goes again s (s.onStateIncoming e) :=
    goes_onStateIncoming (by omega) fun _ _ => Or.inl hrank
  unfold onStateNull
  by_cases hmethod : e.method = .INVITE
  · rw [if_pos hmethod]
    cases hrole : s.role with
    | UAC =>
        cases e.state with
        | CALLING =>
            exact goes_setState _ (by rw [hs]; decide) (Nat.le_of_eq hrank) (by decide)
              (fun _ => Or.inl hrole) (by simp)
        | _ => exact hcalling hrole
    | UAS =>
        cases e.state with
        | TRYING => exact Rises.goes (by decide) hs _
        | PROCEEDING =>
            refine Goes.andThen (Rises.goes (by decide) hs _) ?_
            split_ifs
            · exact Rises.goes (by decide) (setState_state (by decide)) _
            · exact goes_still _
        | _ => exact hincoming
  · rw [if_neg hmethod]
    exact goes_still s

lemma goes_onStateEarly (hs : s.state = .SESSION_STATE_EARLY) (e : TsxEvent) :
    Goes again s (s.onStateEarly e) := by
  have hto {st : ESessionState} (h : Rises .SESSION_STATE_EARLY st) :
      Goes again s (s.setState e.toAttempts st) := h.goes hs _
  unfold onStateEarly
  by_cases hinvite : e.invite
  · rw [if_pos hinvite]
    cases e.state with
    | PROCEEDING => exact hto (by decide)
    | COMPLETED =>
        dsimp only
        split_ifs
        · exact hto (by decide)
        · exact hto (by decide)
    | CONFIRMED | TERMINATED =>
        dsimp only
        split_ifs
        · refine (hto (by decide)).andThen ?_
          exact goes_sendAck _ _
        · refine (hto (by decide)).andThen ?_
          exact goes_still _
        · exact hto (by decide)
    | NULL | CALLING | TRYING | DESTROYED => exact goes_still s
  · rw [if_neg hinvite]
    split_ifs
    · exact goes_handleUacTsxResponse s e
    · exact goes_still s

lemma goes_onStateConnecting (hs : s.state = .SESSION_STATE_CONNECTING) (e : TsxEvent) :
    Goes again s (s.onStateConnecting e) := by
  have hto {st : ESessionState} (h : Rises .SESSION_STATE_CONNECTING st) :
      Goes again s (s.setState e.toAttempts st) := h.goes hs _
  unfold onStateConnecting
  by_cases hinvite : e.invite
  · rw [if_pos hinvite]
    cases e.state with
    | CONFIRMED =>
        dsimp only
        split_ifs
        · exact hto (by decide)
        · exact goes_still s
    | TERMINATED =>
        dsimp only
        split_ifs
        · exact goes_still s
        · exact hto (by decide)
    | NULL | CALLING | TRYING | PROCEEDING | COMPLETED | DESTROYED => exact goes_still s
  · rw [if_neg hinvite]
    split_ifs
    · exact goes_respondIncomingBye s e
    · exact goes_handleByeResponse (by rw [hs]; decide) e
    · exact goes_handleUacTsxResponse s e
    · exact goes_still s

lemma goes_onStateConfirmed (hs : s.state = .SESSION_STATE_CONFIRMED) (e : TsxEvent) :
    Goes again s (s.onStateConfirmed e) := by
  unfold onStateConfirmed
  split_ifs
  · exact goes_handleByeResponse (by rw [hs]; decide) e
  · exact goes_respondIncomingBye s e
  · exact goes_still s
  · exact goes_sendAck s _
  · exact goes_handleUacTsxResponse s e
  · exact goes_still s

lemma goes_onStateDisconnected (s : InvSession) (e : TsxEvent) :
    Goes again s (s.onStateDisconnected e) := by
  unfold onStateDisconnected
  split_ifs
  · exact goes_respondIncomingBye s e
  · exact goes_still s
  · exact goes_handleUacTsxResponse s e
  · exact goes_still s

lemma goes_onTsxState
    (hcancel : s.state = .SESSION_STATE_CALLING → s.pendingCancel → e.cancelSent)
    (hagain : e.invite → e.state = .TRYING → s.state = .SESSION_STATE_INCOMING → again) :
    Goes again s (s.onTsxState e) := by
  unfold onTsxState
  cases hs : s.state with
  | SESSION_STATE_NULL => exact goes_onStateNull hs e
  | SESSION_STATE_CALLING => exact goes_onStateCalling (by rw [hs]; rfl) (Or.inr hs) hcancel
  | SESSION_STATE_INCOMING =>
      exact goes_onStateIncoming (by rw [hs]; rfl) fun hi ht => Or.inr (hagain hi ht hs)
  | SESSION_STATE_EARLY => exact goes_onStateEarly hs e
  | SESSION_STATE_CONNECTING => exact goes_onStateConnecting hs e
  | SESSION_STATE_CONFIRMED => exact goes_onStateConfirmed hs e
  | SESSION_STATE_DISCONNECTED => exact goes_onStateDisconnected s e

/-- A transaction that ends is not trying. -/
lemma goes_inviteTerminated (code : ℕ)
    (hcancel : s.state = .SESSION_STATE_CALLING → s.pendingCancel → w.cancelSent) :
    Goes again s (s.onTsxState (s.inviteTerminated w code)) :=
  goes_onTsxState hcancel fun _ h => by cases h

lemma goes_onRxAck (unfinished : Bool) (code : Option ℕ)
    (hcancel : s.state = .SESSION_STATE_CALLING → s.pendingCancel → w.cancelSent) :
    Goes again s (s.onRxAck unfinished code w) := by
  unfold onRxAck
  split_ifs
  · exact goes_still s
  · refine Goes.andThen ?_ ?_
    · cases code with
      | none => exact goes_still s
      | some c => exact goes_inviteTerminated c hcancel
    · split_ifs with hs
      · exact Rises.goes (by decide) hs w
      · exact goes_still _

lemma goes_terminate (notify pending : Bool) (code : ℕ)
    (hcancel : s.state = .SESSION_STATE_CALLING → s.pendingCancel → w.cancelSent) :
    Goes again s (s.terminate notify pending code w) := by
  have hquiet : Path again s [] { s with notify := notify } := Path.refl.quiet rfl rfl
  have hends (s' : InvSession) : Goes again s'
      (if s'.state ≠ .SESSION_STATE_DISCONNECTED then s'.setState w .SESSION_STATE_DISCONNECTED
      else s'.still) := by
    split_ifs with hs
    · exact goes_disconnect hs w
    · exact goes_still s'
  have hrest (s' : InvSession)
      (hcancel' : s'.state = .SESSION_STATE_CALLING → s'.pendingCancel → w.cancelSent) :
      Goes again s' (if pending then s'.onTsxState (s'.inviteTerminated w code) else s'.still) := by
    split_ifs
    · exact goes_inviteTerminated code hcancel'
    · exact goes_still s'
  have hall := Goes.andThen (f := fun s' =>
    if s'.state ≠ .SESSION_STATE_DISCONNECTED then s'.setState w .SESSION_STATE_DISCONNECTED
    else s'.still) (hrest { s with notify := notify } hcancel) (hends _)
  exact (hquiet.trans hall :)

/-- The INVITE transaction of the session is trying. -/
def Input.Trying : Input → Prop
  | .tsxState e => e.invite ∧ e.state = .TRYING
  | _ => False

/-- A CANCEL that was put off can be sent when its time comes. -/
def CancelSent (s : InvSession) (i : Input) : Prop :=
  s.state = .SESSION_STATE_CALLING → s.pendingCancel → i.attempts.cancelSent

instance (s : InvSession) (i : Input) : Decidable (s.CancelSent i) :=
  inferInstanceAs (Decidable (_ → _))

/-- **The step.**  Every input takes a session along a path. -/
lemma goes_onInput {i : Input} (hcancel : s.CancelSent i)
    (hagain : i.Trying → s.state = .SESSION_STATE_INCOMING → again) :
    Goes again s (s.onInput i) := by
  cases i with
  | tsxState e => exact goes_onTsxState hcancel fun hi ht => hagain ⟨hi, ht⟩
  | rxAck unfinished code w => exact goes_onRxAck unfinished code hcancel
  | rxRetransmitted w => exact goes_sendAck s w
  | endSession provisional created =>
      exact Path.refl.quiet (endSession_role s _ _) (endSession_state s _ _)
  | terminate notify pending code w => exact goes_terminate notify pending code hcancel

/-! ## What holds for every path -/

lemma rank_le_five (st : ESessionState) : st.rank ≤ 5 := by cases st <;> decide

lemma rank_eq_five : st.rank = 5 ↔ st = .SESSION_STATE_DISCONNECTED := by cases st <;> decide

lemma rank_lt_five (h : st ≠ .SESSION_STATE_DISCONNECTED) : st.rank < 5 :=
  lt_of_le_of_ne (rank_le_five st) (mt rank_eq_five.mp h)

/-- Only a session that still notifies adds to the reports. -/
lemma mem_append_report {b : Bool} {st' : ESessionState} :
    st' ∈ l ++ (if b then [st] else []) ↔ st' ∈ l ∨ (b ∧ st' = st) := by
  cases b <;> simp

lemma Path.rank_le (h : Path again s l s') : s.state.rank ≤ s'.state.rank := by
  induction h with
  | refl => exact le_rfl
  | raise _ st _ hle _ _ _ ih => exact Nat.le_trans ih hle
  | restart h hrank ih =>
      rw [hrank] at ih
      exact Nat.le_trans ih (Nat.zero_le _)
  | quiet _ _ hstate ih => exact hstate ▸ ih

/-- Every report lies between the state at the beginning and the state at the end. -/
lemma Path.rank_mem (h : Path again s l s') :
    ∀ st ∈ l, s.state.rank ≤ st.rank ∧ st.rank ≤ s'.state.rank := by
  induction h with
  | refl => simp
  | raise h st _ hle _ _ _ ih =>
      intro st' hst'
      rcases mem_append_report.mp hst' with hl | ⟨-, rfl⟩
      · exact ⟨(ih st' hl).1, Nat.le_trans (ih st' hl).2 hle⟩
      · exact ⟨Nat.le_trans h.rank_le hle, le_rfl⟩
  | restart h hrank ih =>
      intro st hst
      obtain ⟨hlow, hhigh⟩ := ih st hst
      rw [hrank] at hhigh
      exact ⟨hlow, Nat.le_trans hhigh (Nat.zero_le _)⟩
  | quiet _ _ hstate ih =>
      intro st hst
      rw [hstate]
      exact ih st hst

/-- Nothing is reported after the end. -/
lemma Path.not_mem_dropLast (h : Path again s l s') :
    ESessionState.SESSION_STATE_DISCONNECTED ∉ l.dropLast := by
  induction h with
  | refl => simp
  | raise h st hend _ _ _ _ ih =>
      split_ifs
      · rw [List.dropLast_concat]
        intro hmem
        exact absurd (h.rank_mem _ hmem).2 (Nat.not_le.mpr (rank_lt_five hend))
      · simpa using ih
  | restart _ _ ih => exact ih
  | quiet _ _ _ ih => exact ih

lemma Path.role_eq (h : Path again s l s') : s'.role = s.role := by
  induction h with
  | refl => rfl
  | raise _ _ _ _ _ _ _ ih => exact ih
  | restart _ _ ih => exact ih
  | quiet _ hrole _ ih => exact hrole.trans ih

/-- A callee's session is never calling. -/
lemma Path.not_calling (h : Path again s l s') (hrole : s.role = .UAS)
    (hs : s.state ≠ .SESSION_STATE_CALLING) : s'.state ≠ .SESSION_STATE_CALLING := by
  induction h with
  | refl => exact hs
  | raise h st _ _ _ hcaller _ ih =>
      intro hst
      rcases hcaller hst with hcaller | hcaller
      · rw [h.role_eq, hrole] at hcaller
        cases hcaller
      · exact ih hcaller
  | restart _ _ _ => simp
  | quiet _ _ hstate ih => exact hstate ▸ ih

/-- A session that has ended says nothing more. -/
lemma Path.ended (h : Path again s l s') (hs : s.state = .SESSION_STATE_DISCONNECTED) :
    l = [] ∧ s'.state = .SESSION_STATE_DISCONNECTED := by
  induction h with
  | refl => exact ⟨rfl, hs⟩
  | raise _ _ hend _ _ _ _ ih => exact absurd ih.2 hend
  | restart _ hrank ih =>
      rw [ih.2] at hrank
      exact absurd hrank (by decide)
  | quiet _ _ hstate ih => exact ⟨ih.1, hstate.trans ih.2⟩

/-- An incoming call is reported once, at the beginning. -/
lemma Path.incoming_not_mem (h : Path False s l s') (hs : 1 ≤ s.state.rank) :
    ESessionState.SESSION_STATE_INCOMING ∉ l := by
  induction h with
  | refl => simp
  | raise h st _ _ _ _ hagain ih =>
      rw [mem_append_report]
      rintro (hl | ⟨-, hst⟩)
      · exact ih hl
      · have hle := h.rank_le
        have hzero := (hagain hst.symm).resolve_right id
        omega
  | restart _ _ ih => exact ih
  | quiet _ _ _ ih => exact ih

/-- A report of the end is the truth. -/
lemma Path.disconnected_of_mem (h : Path again s l s')
    (hmem : ESessionState.SESSION_STATE_DISCONNECTED ∈ l) :
    s'.state = .SESSION_STATE_DISCONNECTED :=
  rank_eq_five.mp (Nat.le_antisymm (rank_le_five _) (h.rank_mem _ hmem).2)

/-! ## Whole runs -/

/-- `pjsip_inv_create_uac`, `pjsip_inv_create_uas`. -/
def create (role : PjsipRole) : InvSession := { role := role }

/-- A session, what it has reported so far, and one more input. -/
def hear (x : Reaction) (i : Input) : Reaction := andThen x fun s => s.onInput i

-- without the condition a caller can hear of a provisional response after the end
example : (Runs.run hear (create .UAC).still
    [.tsxState ⟨{}, true, .INVITE, .UAC, .CALLING, 0, false, false⟩, .endSession false true,
      .tsxState ⟨{ cancelSent := false }, true, .INVITE, .UAC, .PROCEEDING, 180, true, true⟩]).2 =
    [.SESSION_STATE_CALLING, .SESSION_STATE_DISCONNECTED, .SESSION_STATE_EARLY] := by decide

end InvSession

end TAM
