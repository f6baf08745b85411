import AnsweringMachine.CallControl.Conversation

/-!
# One outgoing call being set up

Before the manager dials it counts the calls in the states connecting and alerting, by a bit mask
over the state ids, and refuses if there is one.  `getNoCallsInStates_settingUp` says that the mask
picks out just these two states.

The count is taken on the delayed path too, when a call that was put on hold lets the queued call
out, and that is the only way into the two states: an automaton reaches alerting from connecting
alone (`react_settingUp`).  A call whose id the stack gives to the new one is destroyed and leaves
the table.  So at most one outgoing call is being set up, in every run (`settingUp_le_one`).
-/

namespace TAM

/-- The states of an outgoing call that was not answered yet. -/
def IAbstractState.SettingUp (st : IAbstractState) : Prop := st = .Connecting ∨ st = .Alerting

instance : DecidablePred IAbstractState.SettingUp :=
  fun st => inferInstanceAs (Decidable (st = .Connecting ∨ st = .Alerting))

/-- The bit mask stands for the two states.  The id `NULL`, which every mask contains, belongs to no
state object. -/
lemma IAbstractState.settingUp_iff_mask (st : IAbstractState) :
    (EStateId.CONNECTING.code ||| EStateId.ALERTING.code) &&& st.id.code = st.id.code ↔
      st.SettingUp := by
  cases st <;> decide

/-- No signal brings a call to the two states from elsewhere. -/
lemma react_settingUp {f : AbstractFactory} {i : Signal} {st st' : IAbstractState}
    (h : react f i st = .goto st') (hst' : st'.SettingUp) : st.SettingUp := by
  rcases hst' with rfl | rfl
  all_goals
    revert h
    cases i <;> cases st <;> simp [react, ending, IAbstractState.SettingUp] <;> split_ifs <;> simp

namespace CCallManager

open Dictionary Runs

variable {m m' : CCallManager} {r : MachineRef} {o : Outcome}

/-- The number of machines in the call table that are connecting or alerting. -/
def settingUp (m : CCallManager) : ℕ :=
  m.calls.entries.countP fun e => (m.machines e.2).state.SettingUp

/-- What the manager counts before it dials. -/
lemma getNoCallsInStates_settingUp (m : CCallManager) :
    m.getNoCallsInStates (EStateId.CONNECTING.code ||| EStateId.ALERTING.code) = m.settingUp := by
  refine List.countP_congr fun e _ => ?_
  simp only [decide_eq_true_eq]
  exact (m.machines e.2).state.settingUp_iff_mask

/-- A count of zero says that nobody is. -/
lemma settingUp_eq_zero : m.settingUp = 0 ↔ ∀ r, ¬ m.Among IAbstractState.SettingUp r := by
  simp only [settingUp, List.countP_eq_zero, decide_eq_true_eq, Prod.forall, mem_entries]
  constructor
  · rintro h r ⟨⟨k, hk⟩, hst⟩
    exact h k r hk hst
  · intro h k r hk hst
    exact h r ⟨⟨k, hk⟩, hst⟩

/-! ## The invariant -/

/-- A well-formed table with at most one outgoing call being set up. -/
structure SingleSetup (m : CCallManager) : Prop where
  wellFormed : m.WellFormed
  unique : ∀ r s, m.Among IAbstractState.SettingUp r → m.Among IAbstractState.SettingUp s → r = s

namespace SingleSetup

/-- Most changes bring nobody new to the two states. -/
lemma mono (h : m.SingleSetup) (hw : m'.WellFormed)
    (hsub : ∀ r, m'.Among IAbstractState.SettingUp r → m.Among IAbstractState.SettingUp r) :
    m'.SingleSetup :=
  ⟨hw, fun r s hr hs => h.unique r s (hsub r hr) (hsub s hs)⟩

/-- A handler may move a call from one of the two states to the other. -/
lemma effect (h : m.SingleSetup) (he : Effect m m' r o)
    (ho : ∀ st, o = .goto st → st.SettingUp → (m.machines r).state.SettingUp) :
    m'.SingleSetup := by
  refine h.mono (h.wellFormed.effect he) fun s hs => ?_
  rcases h.wellFormed.among_of_effect he hs with hs | ⟨rfl, hlisted, st, hgo, hst⟩
  · exact hs
  · exact ⟨hlisted, ho st hgo hst⟩

/-- An outgoing call that is dialled when there was none is the only one. -/
lemma outbound (h : m.SingleSetup) (hnone : ∀ r, ¬ m.Among IAbstractState.SettingUp r)
    (ho : Outbound m m') :
    m'.SingleSetup := by
  have hnew : ∀ r, m'.Among IAbstractState.SettingUp r → r = m.created := by
    intro r hr
    rcases ho.among h.wellFormed hr with hr | ⟨hr, -⟩
    · exact absurd hr (hnone r)
    · exact hr
  exact ⟨ho.wellFormed h.wellFormed, fun r s hr hs => (hnew r hr).trans (hnew s hs).symm⟩

/-- **The operations that wait for holds** dial only when no call is being set up, whether at once
or after a hold was confirmed. -/
lemma keptByChecked : KeptByChecked SingleSetup where
  pend h p := ⟨h.wellFormed.pend p, h.unique⟩
  hold {m r} h _ := h.mono (h.wellFormed.holdCall r) fun _ => among_holdCall.mp
  confirmed h _ := h.effect (changeStatePlain_effect _ _ .Holding) (by
    rintro st hst (rfl | rfl) <;> cases hst)
  settled {m r} h :=
    h.mono (h.wellFormed.modify (fun _ => rfl) fun _ => rfl) fun _ => among_settled.mp
  accept h _ := h.effect (acceptCall_effect _ _) fun _ => react_settingUp
  retrieve h _ := h.effect (retrieveCall_effect _ _) fun _ => react_settingUp
  dial {m} h _ hfree number accountId := by
    rw [getNoCallsInStates_settingUp, settingUp_eq_zero] at hfree
    exact h.outbound hfree (CCallManager.outbound h.wellFormed (dialled m number accountId))

/-- An empty table has no call at all. -/
lemma of_empty (h : m.calls = Dictionary.empty) : m.SingleSetup := by
  refine ⟨(SingleConversation.of_empty h).wellFormed, ?_⟩
  rintro r s ⟨⟨k, hk⟩, -⟩
  rw [h] at hk
  cases hk

lemma start (h : m.SingleSetup) (status : ℕ) : (m.Initialize status).SingleSetup := by
  simp only [CCallManager.Initialize]
  split_ifs
  · exact h
  · exact .of_empty rfl
  · exact .of_empty rfl

end SingleSetup

/-! ## The events -/

/-- **An event for one machine** brings it to the two states only from one of them. -/
lemma outcomeOf_settingUp {e : Event} {st : IAbstractState}
    (h : m.outcomeOf e = some (r, .goto st)) (hst : st.SettingUp) :
    (m.machines r).state.SettingUp := by
  rcases outcomeOf_cases h with ⟨_, i, -, -, ho⟩ | ⟨_, _, _, -, -, ho⟩ | ⟨t, -, -, ho⟩ | ho
  · exact react_settingUp ho.symm hst
  · -- a new call rings, is answered or turned away
    simp only [reactIncoming] at ho
    split at ho
    · split_ifs at ho
      all_goals
        cases ho
        rcases hst with hst | hst <;> cases hst
    · cases ho
  · cases t with
    | ENOREPLY => cases ho
    | ERELEASED => exact react_settingUp ho.symm hst
    | ENORESPONSE => exact react_settingUp ho.symm hst
  · cases ho

/-- **One step**, whatever holds are confirmed on the way. -/
lemma perform_singleSetup (h : m.SingleSetup) (l : List Arrival × Event) :
    (m.perform l).SingleSetup := by
  obtain ⟨a, e⟩ := l
  have h₀ : { m with out := [] }.SingleSetup := ⟨h.wellFormed.cleared, h.unique⟩
  have hw := h₀.wellFormed
  exact SingleSetup.keptByChecked.handle a h₀
    { effect := fun hout heff => h₀.effect heff fun st hgo => outcomeOf_settingUp (hgo ▸ hout)
      conference := fun s _ => h₀.mono hw.conference fun _ => hw.among_conference (by decide)
      incoming := fun k _ =>
        h₀.mono (hw.incoming k) fun _ => hw.among_incoming (by decide) (by decide)
      replaced := fun old new _ => h₀.mono (hw.replaced old new) fun _ => among_replaced
      start := fun status _ => h₀.start status
      stop := fun _ => .of_empty rfl
      surroundings := fun _ _ => ⟨hw.congr rfl le_rfl fun _ _ _ => ⟨rfl, rfl⟩, h₀.unique⟩ }

/-- **At most one outgoing call is being set up**, in every run from an empty table, and the guard
of `createOutboundCall` sees it. -/
theorem settingUp_le_one (hempty : m.calls = Dictionary.empty) (run : List (List Arrival × Event)) :
    Throughout perform (fun m => m.settingUp ≤ 1 ∧
      m.getNoCallsInStates (EStateId.CONNECTING.code ||| EStateId.ALERTING.code) = m.settingUp)
      m run :=
  throughout_of_along (J := SingleSetup) (fun _ l h _ => perform_singleSetup h l)
    (fun m h => ⟨h.wellFormed.among_unique_iff.mp h.unique, m.getNoCallsInStates_settingUp⟩)
    (.of_empty hempty) (along_true m run)

/-- Two calls are dialled under one id: the second while the first is alerting, and once more when
the first is on hold, which the confirmation of the hold lets out. -/
def redialled : List (List Arrival × Event) :=
  [([], .createOutboundCall "1" 0),
   ([], .callStateChanged 1 .SESSION_STATE_EARLY),
   ([], .createOutboundCall "2" 0),
   ([], .callStateChanged 1 .SESSION_STATE_CONNECTING),
   ([.atOnce], .createOutboundCall "2" 0)]

/-- The run dials, and ends with the second call alone in the table, being set up. -/
theorem settingUp_le_one_redialled :
    Throughout perform (fun m => m.settingUp ≤ 1 ∧
        m.getNoCallsInStates (EStateId.CONNECTING.code ||| EStateId.ALERTING.code) = m.settingUp)
      (initial { makeCallAnswer := some 1 }) redialled ∧
    (run perform (initial { makeCallAnswer := some 1 }) redialled).settingUp = 1 ∧
    (run perform (initial { makeCallAnswer := some 1 }) redialled).calls.count = 1 :=
  ⟨settingUp_le_one rfl redialled, by decide, by decide⟩

end CCallManager

end TAM
