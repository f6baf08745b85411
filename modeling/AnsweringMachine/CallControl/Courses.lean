import AnsweringMachine.CallControl.Moves

/-!
# The course of an event

`movesOf m e` lists the moves an event makes, machine by machine, in the order in which the code
makes them, and `step_course` says that it is right: after the event every record, the table and the
log are what these moves make of them.  Starting and stopping the manager are treated apart, since
they also change what the moves do not look at.

With confirmations of holds arriving in the middle of an operation there still is a course
(`handle_course`).  An invariant of single records therefore needs a proof per move and no more:
`Course.records`.
-/

namespace TAM

namespace CCallManager

variable {m m' : CCallManager} {r : MachineRef} {l : List (MachineRef × Move)}

/-! ## The moves of the events -/

/-- The moves of `createOutboundCall`. -/
def createMoves (m : CCallManager) (number : String) : List (MachineRef × Move) :=
  if ¬ m.initialized then []
  else if 0 < m.getNoCallsInStates (EStateId.CONNECTING.code ||| EStateId.ALERTING.code) then []
  else if m.getNoCallsInState .ACTIVE = 0 then m.dialMoves number
  else (m.getCallInState .ACTIVE).toList.map fun r => (r, .holdRequested)

/-- The moves of `onUserAnswer`. -/
def answerMoves (m : CCallManager) (session : CallId) : List (MachineRef × Move) :=
  match m.enumCallsInState .ACTIVE with
  | sm :: _ => [(sm, .holdRequested)]
  | [] =>
      match m.calls.get? session with
      | none => []
      | some r => own r (signalMoves .acceptCall (m.machines r).state)

/-- The moves of `onUserHoldRetrieve`. -/
def holdRetrieveMoves (m : CCallManager) (session : CallId) : List (MachineRef × Move) :=
  match m.calls.get? session with
  | none => []
  | some r =>
      match (m.machines r).state with
      | .Active => [(r, .holdRequested)]
      | .Holding =>
          match m.enumCallsInState .ACTIVE with
          | sm :: _ => [(sm, .holdRequested)]
          | [] => own r (signalMoves .retrieveCall (m.machines r).state)
      | _ => []

/-- The moves of `onUserConference`. -/
def conferenceMoves (m : CCallManager) : List (MachineRef × Move) :=
  if m.getNoCallsInState .ACTIVE = 1 ∧ 1 ≤ m.getNoCallsInState .HOLDING then
    match m.getCallInState .HOLDING with
    | none => []
    | some r => own r (signalMoves .retrieveCall (m.machines r).state)
  else []

/-- The moves of the action that waits for a hold. -/
def pendingMoves (m : CCallManager) : List (MachineRef × Move) :=
  match m.pendingAction with
  | none => []
  | some (.EUserAnswer s) => m.answerMoves s
  | some (.ECreateSession number _) => m.createMoves number
  | some (.EUserHold s) => m.holdRetrieveMoves s

/-- The moves of `onHoldConfirm`. -/
def confirmMoves (m : CCallManager) (r : MachineRef) : List (MachineRef × Move) :=
  match (m.machines r).state with
  | .Active =>
      if (m.machines r).holdRequested then
        (r, .held) :: ((m.changeStatePlain r .Holding).pendingMoves ++ [(r, .settled)])
      else [(r, .settled)]
  | _ => []

/-- The moves of the machine in the table under an id, if there is one. -/
def listedMoves (m : CCallManager) (k : CallId) (f : MachineRef → List Move) :
    List (MachineRef × Move) :=
  match m.calls.get? k with
  | none => []
  | some r => own r (f r)

/-- The moves of an event. -/
def movesOf (m : CCallManager) : Event → List (MachineRef × Move)
  | .createOutboundCall number _ => m.createMoves number
  | .onUserRelease s => m.listedMoves s fun r => signalMoves .endCall (m.machines r).state
  | .onUserAnswer s => m.answerMoves s
  | .onUserHoldRetrieve s => m.holdRetrieveMoves s
  | .onUserConference _ => m.conferenceMoves
  | .callStateChanged k .SESSION_STATE_INCOMING => m.announceMoves k
  | .callStateChanged k .SESSION_STATE_EARLY =>
      m.listedMoves k fun r => signalMoves .onAlerting (m.machines r).state
  | .callStateChanged k .SESSION_STATE_CONNECTING =>
      m.listedMoves k fun r => signalMoves .onConnect (m.machines r).state
  | .callStateChanged k .SESSION_STATE_DISCONNECTED =>
      m.listedMoves k fun r => signalMoves .onReleased (m.machines r).state
  | .callIncoming k number info => m.listedMoves k fun r =>
      incomingMoves m.around.config m.calls.count number info (m.machines r).state
  | .holdConfirm k =>
      match m.calls.get? k with
      | none => []
      | some r => m.confirmMoves r
  | .callReplaced old new => m.listedMoves old fun _ => [.renamed new]
  | .timerElapsed r t => own r (timerMoves (m.machines r) t)
  | .Shutdown => m.calls.entries.map fun e => (e.2, .destroyed)
  | .onUserTransfer _ _ | .onUserDialDigit _ _ | .callStateChanged _ _ | .Initialize _
  | .surroundings _ => []

/-- The events whose effect is the effect of their moves. -/
def Event.ordinary : Event → Bool
  | .Initialize _ | .Shutdown | .surroundings _ => false
  | _ => true

/-! ## The operations, holds being confirmed by events of their own -/

lemma create_course (hw : m.WellFormed) (number : String) (accountId : ℕ) :
    Course m (m.createMoves number) (m.createOutboundCall .sequential number accountId) := by
  unfold createMoves createOutboundCall
  split_ifs
  · exact .refl m
  · exact dial_course hw number accountId
  · have hpend := (Alike.refl m).pend (some (.ECreateSession number accountId))
    have hsame : getCallInState { m with pendingAction := some (.ECreateSession number accountId) }
        .ACTIVE = m.getCallInState .ACTIVE := rfl
    dsimp only
    rw [hsame]
    cases hr : m.getCallInState .ACTIVE with
    | none => exact .done hpend
    | some r =>
        have hs : (m.machines r).state = .Active :=
          IAbstractState.id_inj.mp (getCallInState_mem hr).2
        exact (Course.one (holdRequested_makes (m :=
          { m with pendingAction := some (.ECreateSession number accountId) }) hs)).after hpend
  · exact .refl m

lemma answer_course (m : CCallManager) (s : CallId) :
    Course m (m.answerMoves s) (m.onUserAnswer .sequential s) := by
  simp only [answerMoves, onUserAnswer]
  cases henum : m.enumCallsInState .ACTIVE with
  | cons sm rest =>
      exact .one ((holdRequested_makes (active_of_enum henum)).alike ((Alike.refl _).pend _))
  | nil =>
      dsimp only
      cases m.calls.get? s with
      | none => exact .refl m
      | some r => exact acceptCall_course m r

lemma holdRetrieve_course (m : CCallManager) (s : CallId) :
    Course m (m.holdRetrieveMoves s) (m.onUserHoldRetrieve .sequential s) := by
  simp only [holdRetrieveMoves, onUserHoldRetrieve]
  cases m.calls.get? s with
  | none => exact .refl m
  | some r =>
      dsimp only
      cases hs : (m.machines r).state with
      | Active => exact .one (holdRequested_makes hs)
      | Holding =>
          dsimp only
          cases henum : m.enumCallsInState .ACTIVE with
          | cons sm rest =>
              exact .one ((holdRequested_makes (active_of_enum henum)).alike
                ((Alike.refl _).pend _))
          | nil =>
              have h := retrieveCall_course m r
              rw [hs] at h
              exact h
      | _ => exact .refl m

lemma conference_course (m : CCallManager) : Course m m.conferenceMoves m.onUserConference := by
  unfold conferenceMoves onUserConference
  split_ifs
  · cases m.getCallInState .HOLDING with
    | none => exact .refl m
    | some r =>
        refine (retrieveCall_course m r).before ?_
        simp only [conferenceCall]
        split
        · exact (Alike.refl _).request r _
        · exact Alike.refl _
  · exact .refl m

lemma pending_course (hw : m.WellFormed) :
    Course m m.pendingMoves (m.activatePendingAction .sequential) := by
  refine Course.before ?_ ((Alike.refl _).pend none)
  unfold pendingMoves
  cases m.pendingAction with
  | none => exact .refl m
  | some p =>
      cases p with
      | EUserAnswer s => exact answer_course m s
      | ECreateSession number accountId => exact create_course hw number accountId
      | EUserHold s => exact holdRetrieve_course m s

lemma confirm_course (hw : m.WellFormed) (r : MachineRef) :
    Course m (m.confirmMoves r) (m.onHoldConfirm [] r) := by
  simp only [confirmMoves, onHoldConfirm, holdConfirmed]
  cases hs : (m.machines r).state with
  | Active =>
      dsimp only
      split_ifs
      · have hheld : (m.changeStatePlain r .Holding).WellFormed :=
          hw.effect (changeStatePlain_effect m r .Holding)
        exact .make (held_makes hs) ((pending_course hheld).trans (.one (settled_makes _ r)))
      · exact .one (settled_makes m r)
  | _ => exact .refl m

/-- **The moves of an event are those it makes.** -/
theorem step_course (hw : m.WellFormed) {e : Event} (he : e.ordinary) :
    Course m (m.movesOf e) (m.handle [] e) := by
  cases e with
  | createOutboundCall number accountId => exact create_course hw number accountId
  | onUserAnswer s => exact answer_course m s
  | onUserHoldRetrieve s => exact holdRetrieve_course m s
  | onUserConference s => exact conference_course m
  | timerElapsed r t => exact timerElapsed_course m r t
  | onUserRelease s =>
      simp only [movesOf, handle, onUserRelease, listedMoves]
      cases hk : m.calls.get? s with
      | none => exact .refl m
      | some r => exact endCall_course (.inl ⟨s, hk⟩)
  | onUserTransfer s number =>
      simp only [movesOf, handle, onUserTransfer]
      cases m.calls.get? s with
      | none => exact .refl m
      | some r =>
          simp only [xferCall]
          split
          · exact .done ((Alike.refl m).request r _)
          · exact .done ((Alike.refl m).request r _)
          · exact .refl m
  | onUserDialDigit s digits =>
      simp only [movesOf, handle, onUserDialDigit]
      cases m.calls.get? s with
      | none => exact .refl m
      | some r => exact .done ((Alike.refl m).request r _)
  | callIncoming k number info =>
      simp only [movesOf, handle, onIncomingCall, listedMoves]
      cases hk : m.calls.get? k with
      | none => exact .refl m
      | some r =>
          have h := incomingCall_course (.inl ⟨k, hk⟩) number info
          dsimp only
          split_ifs
          · exact h
          · exact h.before ((Alike.refl _).emit rfl)
  | holdConfirm k =>
      simp only [movesOf, handle, onCallNotification]
      cases m.calls.get? k with
      | none => exact .refl m
      | some r => exact confirm_course hw r
  | callReplaced old new =>
      simp only [movesOf, handle, listedMoves]
      rcases m.replaced_cases old new with ⟨hk, h⟩ | ⟨call, d, hk, h, hd⟩
      · rw [hk, h]
        exact .refl m
      · rw [hk, h]
        exact .one (renamed_makes hw hk hd)
  | callStateChanged k st =>
      cases st with
      | SESSION_STATE_INCOMING => exact announce_course m k
      | SESSION_STATE_EARLY =>
          simp only [movesOf, handle, onCallStateChanged, listedMoves]
          cases hk : m.calls.get? k with
          | none => exact .refl m
          | some r => exact onAlerting_course (.inl ⟨k, hk⟩)
      | SESSION_STATE_CONNECTING =>
          simp only [movesOf, handle, onCallStateChanged, listedMoves]
          cases hk : m.calls.get? k with
          | none => exact .refl m
          | some r => exact onConnect_course (.inl ⟨k, hk⟩)
      | SESSION_STATE_DISCONNECTED =>
          simp only [movesOf, handle, onCallStateChanged, listedMoves]
          cases hk : m.calls.get? k with
          | none => exact .refl m
          | some r => exact onReleased_course (.inl ⟨k, hk⟩)
      | _ =>
          simp only [movesOf, handle, onCallStateChanged]
          cases m.calls.get? k with
          | none => exact .refl m
          | some r => exact .refl m
  | Initialize status | Shutdown | surroundings x => simp [Event.ordinary] at he

/-! ## Shutting down -/

/-- Destroying some machines of the table, one after the other. -/
lemma destroyAll_course (hw : m.WellFormed) (rs : List (CallId × MachineRef))
    (hrs : ∀ e ∈ rs, m.calls.get? e.1 = some e.2) (hnodup : (rs.map Prod.fst).Nodup) :
    Course m (rs.map fun e => (e.2, .destroyed)) ((rs.map Prod.snd).foldl destroy m) := by
  induction rs generalizing m with
  | nil => exact .refl m
  | cons e rs ih =>
      obtain ⟨k, r⟩ := e
      have hk : m.calls.get? k = some r := hrs (k, r) (by simp)
      have heff := destroy_effect m r
      simp only [List.map_cons, List.nodup_cons] at hnodup
      refine .make (destroy_makes (.inl ⟨k, hk⟩)) (ih (hw.effect heff) ?_ hnodup.2)
      -- the destroyed machine leaves its own key, which none of the others has
      intro e he
      have hne : e.1 ≠ k := fun h => hnodup.1 (h ▸ List.mem_map_of_mem he)
      rw [heff.calls, hw.session k r hk, Outcome.gone_table, Dictionary.get?_remove, if_neg hne]
      exact hrs e (by simp [he])

/-- What is left of the table. -/
lemma destroyAll_get? (hw : m.WellFormed) (rs : List (CallId × MachineRef))
    (hrs : ∀ e ∈ rs, m.calls.get? e.1 = some e.2) (hnodup : (rs.map Prod.fst).Nodup) (j : CallId) :
    ((rs.map Prod.snd).foldl destroy m).calls.get? j =
      if j ∈ rs.map Prod.fst then none else m.calls.get? j := by
  induction rs generalizing m with
  | nil => simp
  | cons e rs ih =>
      obtain ⟨k, r⟩ := e
      have hk : m.calls.get? k = some r := hrs (k, r) (by simp)
      have heff := destroy_effect m r
      have hcalls : (m.destroy r).calls = m.calls.remove k := by
        rw [heff.calls, hw.session k r hk, Outcome.gone_table]
      simp only [List.map_cons, List.nodup_cons] at hnodup
      have hrest : ∀ e ∈ rs, (m.destroy r).calls.get? e.1 = some e.2 := by
        intro e he
        have hne : e.1 ≠ k := fun h => hnodup.1 (h ▸ List.mem_map_of_mem he)
        rw [hcalls, Dictionary.get?_remove, if_neg hne]
        exact hrs e (by simp [he])
      rw [List.map_cons, List.foldl_cons, ih (hw.effect heff) hrest hnodup.2, hcalls,
        Dictionary.get?_remove]
      have hiff : j ∈ ((k, r) :: rs).map Prod.fst ↔ j = k ∨ j ∈ rs.map Prod.fst := by simp
      by_cases hmem : j ∈ rs.map Prod.fst
      · rw [if_pos hmem, if_pos (hiff.mpr (.inr hmem))]
      · by_cases hj : j = k
        · rw [if_neg hmem, if_pos hj, if_pos (hiff.mpr (.inl hj))]
        · rw [if_neg hmem, if_neg hj, if_neg (fun h => (hiff.mp h).elim hj hmem)]

/-- Once all machines of the table are destroyed, it is empty. -/
lemma destroyAll_empty (hw : m.WellFormed) (k : CallId) :
    ((m.calls.entries.map Prod.snd).foldl destroy m).calls.get? k = none := by
  rw [destroyAll_get? hw _ (fun _ he => Dictionary.mem_entries.mp he) m.calls.entries_keys_nodup]
  split_ifs with hk
  · rfl
  · by_contra hne
    obtain ⟨r, hr⟩ := Option.ne_none_iff_exists'.mp hne
    exact hk (List.mem_map.mpr ⟨(k, r), Dictionary.mem_entries.mpr hr, rfl⟩)

/-- **`Shutdown` destroys the machines of the table**, and the rest of it is to forget them. -/
theorem shutdown_course (hw : m.WellFormed) : ∃ m', Course m (m.movesOf .Shutdown) m' ∧
    (∀ k, m'.calls.get? k = none) ∧
    m.Shutdown = { m' with calls := Dictionary.empty, initialized := false } :=
  ⟨_, destroyAll_course hw _ (fun _ he => Dictionary.mem_entries.mp he) m.calls.entries_keys_nodup,
    destroyAll_empty hw, rfl⟩

/-! ## With confirmations arriving in the middle -/

/-- A course, and a table that is well formed at its end. -/
def Reaches (m m' : CCallManager) : Prop := m'.WellFormed ∧ ∃ l, Course m l m'

lemma Reaches.makes {m₁ : CCallManager} {v : Move} (h : Reaches m m₁) (hw : m'.WellFormed)
    (h' : Makes m₁ m' r v) : Reaches m m' := by
  obtain ⟨-, l, hl⟩ := h
  exact ⟨hw, _, hl.trans (.one h')⟩

lemma Reaches.course {m₁ : CCallManager} (h : Reaches m m₁) (hw : m'.WellFormed)
    (h' : Course m₁ l m') : Reaches m m' := by
  obtain ⟨-, l', hl⟩ := h
  exact ⟨hw, _, hl.trans h'⟩

lemma keptByOperations_reaches (m : CCallManager) : KeptByOperations (Reaches m) where
  pend h p := h.course (h.1.pend p) (.done ((Alike.refl _).pend p))
  hold h hs := h.makes (h.1.holdCall _) (holdRequested_makes hs)
  confirmed h hs := h.makes (h.1.effect (changeStatePlain_effect _ _ .Holding)) (held_makes hs)
  settled h := h.makes (h.1.modify (fun _ => rfl) fun _ => rfl) (settled_makes _ _)
  accept h _ := h.course (h.1.effect (acceptCall_effect _ _)) (acceptCall_course _ _)
  retrieve h _ := h.course (h.1.effect (retrieveCall_effect _ _)) (retrieveCall_course _ _)
  dial h _ number accountId := h.course ((outbound h.1 (dialled _ number accountId)).wellFormed h.1)
    (dial_course h.1 number accountId)

/-- **However the confirmations of holds arrive, an event takes some course.** -/
theorem handle_course (a : List Arrival) (hw : m.WellFormed) {e : Event} (he : e.ordinary) :
    ∃ l, Course m l (m.handle a e) := by
  have hops := (keptByOperations_reaches m).checked
  have hself : Reaches m m := ⟨hw, [], .refl m⟩
  cases e with
  | createOutboundCall number accountId =>
      exact (hops.createOutboundCall (hops.windowOf a) hself number accountId).2
  | onUserAnswer s => exact (hops.onUserAnswer (hops.windowOf a) hself s).2
  | onUserHoldRetrieve s => exact (hops.onUserHoldRetrieve (hops.windowOf a) hself s).2
  | holdConfirm k => exact (hops.onCallNotification a hself k).2
  | _ => exact ⟨_, step_course hw he⟩

/-! ## Invariants of records -/

/-- What every move keeps of the record it is made on, a course keeps of every record. -/
theorem Course.records {I : CStateMachine → Prop} (h : Course m l m')
    (hI : ∀ (v : Move) c, v.Enabled c → I c → I (v.after m.around c))
    (hm : ∀ r, I (m.machines r)) : ∀ r, I (m'.machines r) := by
  induction h with
  | done h =>
      rw [h.machines]
      exact hm
  | make h₁ _ ih =>
      refine ih (fun v c => h₁.around ▸ hI v c) fun s => ?_
      rw [h₁.machines, Function.update_apply]
      split_ifs with hs
      · exact hI _ _ h₁.enabled (hm _)
      · exact hm s

end CCallManager

end TAM
