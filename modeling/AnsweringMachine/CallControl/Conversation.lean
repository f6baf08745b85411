import AnsweringMachine.CallControl.WellFormed
import AnsweringMachine.Library.Runs
import Mathlib.Data.Finset.Card

/-!
# One call in conversation

The multicall logic of the manager is there to keep a second call from becoming active: answering,
retrieving and calling out all put the active call on hold first.  An outgoing call that the far
end picks up becomes active without a look at the others, and that is the only way past the rule.

`oneActive_iff` says so exactly: along a run without conferences there is never more than one
active call if and only if no outgoing call is connected while another call is active.  It covers
the runs in which holds are confirmed in the middle of an operation.  `answered_while_dialling` is
the shortest run that ends with two active calls.
-/

namespace TAM

namespace CCallManager

open Dictionary Runs

variable {m m' : CCallManager} {r : MachineRef} {k : CallId} {o : Outcome}

/-- One event together with the arrivals of the confirmations it causes. -/
def perform (m : CCallManager) (l : List Arrival × Event) : CCallManager := m.stepWith l.1 l.2

/-! ## Calls in some state -/

section Among

variable {P : IAbstractState → Prop} {s : MachineRef}

/-- The machine is listed, and in one of some states. -/
def Among (P : IAbstractState → Prop) (m : CCallManager) (r : MachineRef) : Prop :=
  (∃ k, m.calls.get? k = some r) ∧ P (m.machines r).state

/-- A count over the table: nobody is listed twice. -/
lemma WellFormed.among_unique_iff [DecidablePred P] (hw : m.WellFormed) :
    (∀ r s, m.Among P r → m.Among P s → r = s) ↔
      m.calls.entries.countP (fun e => P (m.machines e.2).state) ≤ 1 := by
  have hnodup : (m.calls.entries.filter fun e => P (m.machines e.2).state).Nodup :=
    (List.Nodup.of_map _ m.calls.entries_keys_nodup).filter _
  rw [List.countP_eq_length_filter, ← List.toFinset_card_of_nodup hnodup, Finset.card_le_one]
  simp only [List.mem_toFinset, List.mem_filter, decide_eq_true_eq, mem_entries, Prod.forall]
  constructor
  · rintro h j r ⟨hj, hr⟩ k s ⟨hk, hs⟩
    obtain rfl := h r s ⟨⟨j, hj⟩, hr⟩ ⟨⟨k, hk⟩, hs⟩
    rw [hw.key_unique hj hk]
  · rintro h r s ⟨⟨j, hj⟩, hr⟩ ⟨⟨k, hk⟩, hs⟩
    exact congrArg Prod.snd (h j r ⟨hj, hr⟩ k s ⟨hk, hs⟩)

/-- A handler puts nobody but its own machine among the states. -/
lemma WellFormed.among_of_effect (hw : m.WellFormed) (h : Effect m m' r o) (hs : m'.Among P s) :
    m.Among P s ∨ (s = r ∧ (∃ k, m.calls.get? k = some r) ∧ ∃ st, o = .goto st ∧ P st) := by
  obtain ⟨⟨k, hk⟩, hst⟩ := hs
  obtain ⟨hk', hgone⟩ := hw.listed_of_effect h hk
  by_cases hr : s = r
  · subst hr
    rw [h.state] at hst
    cases o with
    | stay => exact Or.inl ⟨⟨k, hk'⟩, hst⟩
    | goto st => exact Or.inr ⟨rfl, ⟨k, hk'⟩, st, rfl, hst⟩
    | gone => exact absurd rfl (hgone rfl)
  · rw [h.others s hr] at hst
    exact Or.inl ⟨⟨k, hk'⟩, hst⟩

/-- A hold that is requested, or settled, changes no state. -/
lemma among_holdCall : (m.holdCall r).Among P s ↔ m.Among P s := by simp [Among]

lemma among_settled :
    (m.modify r fun c => { c with holdRequested := false }).Among P s ↔ m.Among P s := by
  refine and_congr_right fun _ => ?_
  by_cases hs : s = r
  · subst hs
    simp
  · simp [hs]

/-- An outgoing call is the new one, or was there before; the one it replaces is over. -/
lemma Outbound.among (ho : Outbound m m') (hw : m.WellFormed) (hs : m'.Among P s) :
    m.Among P s ∨ (s = m.created ∧ P .Connecting) := by
  obtain ⟨⟨k, hk⟩, hst⟩ := hs
  rw [ho.table] at hk
  split_ifs at hk with ha
  · cases hk
    rw [ho.state] at hst
    exact Or.inr ⟨rfl, hst⟩
  · have hne : s ≠ m.created := ne_of_lt (hw.created k s hk)
    rw [ho.others s hne fun j hj hjs => ha (by rw [hj, hw.key_unique hk hjs])] at hst
    exact Or.inl ⟨⟨k, hk⟩, hst⟩

/-- A call that is announced is idle, and one whose id it takes is terminated at most. -/
lemma WellFormed.among_incoming (hw : m.WellFormed) (hidle : ¬ P .Idle) (hterm : ¬ P .Terminated)
    (hs : (m.onCallStateChanged k .SESSION_STATE_INCOMING).Among P s) : m.Among P s := by
  have hann : (m.announced k).Among P s → m.Among P s := by
    rintro ⟨⟨j, hj⟩, hst⟩
    rw [announced_of_ne k (ne_of_lt (hw.created j s hj))] at hst
    exact ⟨⟨j, hj⟩, hst⟩
  rcases m.incoming_cases k with ⟨old, -, he⟩ | ⟨-, d, hd, he⟩
  · rcases (hw.announced k).among_of_effect he hs with hs | ⟨-, -, st, ho, hst⟩
    · exact hann hs
    · have hend : st = .Terminated := by
        revert ho
        cases ((m.announced k).machines old).state <;> simp [react, ending] <;> split_ifs <;>
          simp +contextual [eq_comm]
      exact absurd (hend ▸ hst) hterm
  · rw [he] at hs
    obtain ⟨⟨j, hj⟩, hst⟩ := hs
    simp only [get?_of_add? hd] at hj
    split_ifs at hj
    · cases hj
      exact absurd (by simpa [CStateMachine.create] using hst) hidle
    · have hne := ne_of_lt (hw.created j s hj)
      exact ⟨⟨j, hj⟩, by simpa only [announced_of_ne k hne] using hst⟩

/-- A new id changes no state. -/
lemma among_replaced {old new : CallId} (hs : (m.onCallReplaced old new).1.Among P s) :
    m.Among P s := by
  rcases m.replaced_cases old new with ⟨-, he⟩ | ⟨call, d, hold, he, hd⟩
  · rwa [he] at hs
  rw [he] at hs
  obtain ⟨⟨j, hj⟩, hst⟩ := hs
  have hst' : P (m.machines s).state := by
    by_cases hs : s = call
    · subst hs
      simpa using hst
    · simpa [hs] using hst
  simp only [hd] at hj
  split_ifs at hj
  · cases hj
    exact ⟨⟨old, hold⟩, hst'⟩
  · exact ⟨⟨j, hj⟩, hst'⟩

/-- A conference retrieves a call, if it does anything. -/
lemma WellFormed.among_conference (hw : m.WellFormed) (hactive : ¬ P .Active)
    (hs : m.onUserConference.Among P s) : m.Among P s := by
  simp only [onUserConference] at hs
  split_ifs at hs
  · split at hs
    · exact hs
    · rename_i call _
      have hretrieve := retrieveCall_effect m call
      rcases (hw.effect hretrieve).among_of_effect (conferenceCall_effect _ call) hs with
        hs | ⟨-, -, st, ho, -⟩
      · rcases hw.among_of_effect hretrieve hs with hs | ⟨-, -, st, ho, hst⟩
        · exact hs
        · have hst' : st = .Active := by
            cases hc : (m.machines call).state <;> simp_all [react]
          exact absurd (hst' ▸ hst) hactive
      · simp at ho
  · exact hs

end Among

/-! ## Calls in conversation -/

/-- The machine is listed and in conversation. -/
def Conversing (m : CCallManager) (r : MachineRef) : Prop :=
  (∃ k, m.calls.get? k = some r) ∧ (m.machines r).state = .Active

lemma mem_enum_active : r ∈ m.enumCallsInState .ACTIVE ↔ m.Conversing r := by
  rw [mem_enumCallsInState]
  exact and_congr_right fun _ => IAbstractState.id_inj (b := .Active)

lemma enum_active_eq_nil : m.enumCallsInState .ACTIVE = [] ↔ ∀ r, ¬ m.Conversing r := by
  simp only [List.eq_nil_iff_forall_not_mem, mem_enum_active]

/-- The machine that is asked to hold is in conversation. -/
lemma conversing_of_enum {rest : List MachineRef} (h : m.enumCallsInState .ACTIVE = r :: rest) :
    m.Conversing r := mem_enum_active.mp (h ▸ List.mem_cons_self)

/-- No two machines are in conversation. -/
def OneActive (m : CCallManager) : Prop := ∀ r s, m.Conversing r → m.Conversing s → r = s

/-- The count the manager makes of its active calls. -/
lemma WellFormed.oneActive_iff_count (hw : m.WellFormed) :
    m.OneActive ↔ m.getNoCallsInState .ACTIVE ≤ 1 := by
  have hcount : m.getNoCallsInState .ACTIVE =
      m.calls.entries.countP fun e => (m.machines e.2).state = .Active := by
    refine List.countP_congr fun e _ => ?_
    simp only [decide_eq_true_eq]
    exact eq_comm.trans (IAbstractState.id_inj (b := .Active))
  rw [hcount]
  exact hw.among_unique_iff (P := (· = .Active))

/-! ## What a step does to the calls in conversation -/

/-- Most changes put nobody new into conversation. -/
lemma OneActive.mono (h : m.OneActive)
    (hsub : ∀ r, m'.Among (· = .Active) r → m.Among (· = .Active) r) : m'.OneActive :=
  fun r s hr hs => h r s (hsub r hr) (hsub s hs)

/-- A handler puts nobody but its own machine into conversation. -/
lemma WellFormed.conversing_of_effect (hw : m.WellFormed) (h : Effect m m' r o) {s : MachineRef}
    (hs : m'.Conversing s) : m.Conversing s ∨ (s = r ∧ o = .goto .Active) := by
  rcases hw.among_of_effect (P := (· = .Active)) h hs with hs | ⟨hr, -, st, ho, hst⟩
  · exact Or.inl hs
  · exact Or.inr ⟨hr, by rw [ho, hst]⟩

/-- A handler may connect its call when no other one is in conversation. -/
lemma OneActive.effect (h1 : m.OneActive) (hw : m.WellFormed) (h : Effect m m' r o)
    (hgo : o = .goto .Active → ∀ s, m.Conversing s → s = r) : m'.OneActive := by
  intro s t hs ht
  rcases hw.conversing_of_effect h hs with hs | ⟨rfl, ho⟩ <;>
    rcases hw.conversing_of_effect h ht with ht | ⟨rfl, ho'⟩
  · exact h1 s t hs ht
  · exact hgo ho' s hs
  · exact (hgo ho t ht).symm
  · rfl

/-- The signals that connect a call. -/
lemma react_active {f : AbstractFactory} {i : Signal} {st : IAbstractState}
    (h : react f i st = .goto .Active) : i = .acceptCall ∨ i = .retrieveCall ∨
      (i = .onConnect ∧ (st = .Connecting ∨ st = .Alerting)) := by
  revert h
  cases i <;> cases st <;> simp [react, ending] <;> split_ifs <;> simp

/-- **The plain events that connect a call**: the far end picks up, or the call is answered
automatically, and then it is the only one. -/
lemma outcomeOf_active {e : Event} (h : m.outcomeOf e = some (r, .goto .Active)) :
    (∃ k, e = .callStateChanged k .SESSION_STATE_CONNECTING ∧ m.calls.get? k = some r ∧
      ((m.machines r).state = .Connecting ∨ (m.machines r).state = .Alerting)) ∨
    ((∃ k, m.calls.get? k = some r) ∧ m.calls.count = 1) := by
  rcases outcomeOf_cases h with ⟨k, i, hi, hk, ho⟩ | ⟨k, _, _, -, hk, ho⟩ | ⟨t, -, -, ho⟩ | ho
  · -- of the signals an event can be, only the far end's answer connects
    have hact := react_active ho.symm
    simp only [Event.signal] at hi
    split at hi <;> simp only [Option.some.injEq, Prod.mk.injEq, reduceCtorEq] at hi <;>
      obtain ⟨rfl, rfl⟩ := hi <;> simp only [reduceCtorEq, false_and, or_false, false_or] at hact
    exact Or.inl ⟨_, rfl, hk, hact.2⟩
  · refine Or.inr ⟨⟨k, hk⟩, ?_⟩
    simp only [reactIncoming] at ho
    split at ho
    · split_ifs at ho with _ haa
      · exact haa.2
      · simp at ho
    · simp at ho
  · cases t with
    | ENOREPLY => simp [reactTimer] at ho
    | ERELEASED => simpa using react_active ho.symm
    | ENORESPONSE => simpa using react_active ho.symm
  · simp at ho

/-! ## The invariant -/

/-- A well-formed table with at most one call in conversation. -/
structure SingleConversation (m : CCallManager) : Prop where
  wellFormed : m.WellFormed
  oneActive : m.OneActive

namespace SingleConversation

lemma effect (h : m.SingleConversation) (he : Effect m m' r o)
    (hgo : o = .goto .Active → ∀ s, m.Conversing s → s = r) : m'.SingleConversation :=
  ⟨h.wellFormed.effect he, h.oneActive.effect h.wellFormed he hgo⟩

/-- A handler that does not look at the other calls, when there is none in conversation. -/
lemma effect_of_none (h : m.SingleConversation) (he : Effect m m' r o)
    (hnone : m.enumCallsInState .ACTIVE = []) : m'.SingleConversation :=
  h.effect he fun _ s hs => absurd hs (enum_active_eq_nil.mp hnone s)

/-- An outgoing call starts outside of conversation, and the one it replaces is over. -/
lemma outbound (h : m.SingleConversation) (ho : Outbound m m') : m'.SingleConversation := by
  refine ⟨ho.wellFormed h.wellFormed, h.oneActive.mono fun s hs => ?_⟩
  rcases ho.among h.wellFormed hs with hs | ⟨-, hst⟩
  · exact hs
  · simp at hst

/-- **The operations that wait for holds** connect a call only when no other one is. -/
lemma keptByOperations : KeptByOperations SingleConversation where
  pend h p := ⟨h.wellFormed.pend p, h.oneActive⟩
  hold {m r} h _ := ⟨h.wellFormed.holdCall r, h.oneActive.mono fun _ => among_holdCall.mp⟩
  confirmed h _ := h.effect (changeStatePlain_effect _ _ .Holding) (by simp)
  settled {m r} h :=
    ⟨h.wellFormed.modify (fun _ => rfl) fun _ => rfl, h.oneActive.mono fun _ => among_settled.mp⟩
  accept h hnone := h.effect_of_none (acceptCall_effect _ _) hnone
  retrieve h hnone := h.effect_of_none (retrieveCall_effect _ _) hnone
  dial {m} h _ number accountId :=
    h.outbound (CCallManager.outbound h.wellFormed (dialled m number accountId))

lemma incoming (h : m.SingleConversation) (k : CallId) :
    (m.onCallStateChanged k .SESSION_STATE_INCOMING).SingleConversation :=
  ⟨h.wellFormed.incoming k,
    h.oneActive.mono fun _ => h.wellFormed.among_incoming (by simp) (by simp)⟩

lemma replaced (h : m.SingleConversation) (old new : CallId) :
    (m.onCallReplaced old new).1.SingleConversation :=
  ⟨h.wellFormed.replaced old new, h.oneActive.mono fun _ => among_replaced⟩

/-- An empty table has no call in conversation. -/
lemma of_empty (h : m.calls = Dictionary.empty) : m.SingleConversation := by
  have hget : ∀ k, m.calls.get? k = none := fun k => by rw [h]; rfl
  constructor
  · constructor <;> intro k r hk <;> simp [hget] at hk
  · rintro r s ⟨⟨k, hk⟩, -⟩
    simp [hget] at hk

end SingleConversation

/-! ## The runs -/

/-- The events other than a conference, whose purpose is a second active call. -/
def Event.noConference : Event → Bool
  | .onUserConference _ => false
  | _ => true

/-- If the event reports that the far end picked up an outgoing call, then no call is active. -/
def ConnectsAlone (m : CCallManager) : Event → Prop
  | .callStateChanged k .SESSION_STATE_CONNECTING => ∀ r, m.calls.get? k = some r →
      (m.machines r).state = .Connecting ∨ (m.machines r).state = .Alerting →
      m.getNoCallsInState .ACTIVE = 0
  | _ => True

lemma SingleConversation.start (h : m.SingleConversation) (status : ℕ) :
    (m.Initialize status).SingleConversation := by
  simp only [CCallManager.Initialize]
  split_ifs
  · exact h
  · exact .of_empty rfl
  · exact .of_empty rfl

/-- A step that connects its call alone keeps the invariant. -/
lemma perform_singleConversation (h : m.SingleConversation) (l : List Arrival × Event)
    (hl : l.2.noConference) (hok : m.ConnectsAlone l.2) : (m.perform l).SingleConversation := by
  obtain ⟨a, e⟩ := l
  have h₀ : { m with out := [] }.SingleConversation := ⟨h.wellFormed.cleared, h.oneActive⟩
  refine SingleConversation.keptByOperations.checked.handle a h₀
    { effect := fun hout heff => h₀.effect heff ?_
      conference := fun s hs => ?_
      incoming := fun k _ => h₀.incoming k
      replaced := fun old new _ => h₀.replaced old new
      start := fun status _ => h₀.start status
      stop := fun _ => .of_empty rfl
      surroundings := fun _ _ =>
        ⟨h₀.wellFormed.congr rfl le_rfl fun _ _ _ => ⟨rfl, rfl⟩, h₀.oneActive⟩ }
  · rintro rfl s hs
    rcases outcomeOf_active hout with ⟨k, rfl, hk, hst⟩ | ⟨⟨k, hk⟩, hcount⟩
    · have hnone := getNoCallsInState_eq_zero.mp (hok _ hk hst)
      exact absurd hs (enum_active_eq_nil.mp hnone s)
    · obtain ⟨⟨j, hj⟩, -⟩ := hs
      exact (eq_of_count_eq_one hcount hj hk).2
  · have hs : e = .onUserConference s := hs
    subst hs
    simp [Event.noConference] at hl

/-- A step that connects its call beside another one ends with two. -/
lemma perform_not_oneActive (l : List Arrival × Event) (hok : ¬ m.ConnectsAlone l.2) :
    ¬ (m.perform l).OneActive := by
  obtain ⟨a, e⟩ := l
  simp only [ConnectsAlone] at hok
  split at hok
  · rename_i k
    simp only [not_forall] at hok
    obtain ⟨r, hk, hst, hcount⟩ := hok
    rw [getNoCallsInState_eq_zero] at hcount
    obtain ⟨s, hs⟩ := List.exists_mem_of_ne_nil _ hcount
    obtain ⟨⟨j, hj⟩, hs⟩ := mem_enum_active.mp hs
    have heff := plain_effect a { m with out := [] } (e := .callStateChanged k
      .SESSION_STATE_CONNECTING) (by simp [Event.plain])
    have hout : react m.around.factory .onConnect (m.machines r).state = .goto .Active := by
      rcases hst with hst | hst <;> rw [hst] <;> rfl
    simp only [outcomeOf, hk, Option.map_some, hout] at heff
    have hcalls : (m.perform (a, .callStateChanged k .SESSION_STATE_CONNECTING)).calls = m.calls :=
      heff.calls.trans (Outcome.goto_table _ _ _)
    have hne : s ≠ r := by
      rintro rfl
      rw [hs] at hst
      simp at hst
    intro hone
    refine hne (hone s r ⟨⟨j, by rw [hcalls, hj]⟩, ?_⟩ ⟨⟨k, by rw [hcalls, hk]⟩, heff.state⟩)
    exact (congrArg CStateMachine.state (heff.others s hne)).trans hs
  · exact absurd trivial hok

/-- **At most one call is in conversation** throughout a run without conferences if and only if no
outgoing call is connected while another call is active. -/
theorem oneActive_iff (hempty : m.calls = Dictionary.empty) (run : List (List Arrival × Event))
    (hrun : ∀ l ∈ run, l.2.noConference) :
    Throughout perform (fun m => m.getNoCallsInState .ACTIVE ≤ 1) m run ↔
      Along perform (fun m l => m.ConnectsAlone l.2) m run := by
  have hcount : ∀ m : CCallManager, m.WellFormed → m.getNoCallsInState .ACTIVE ≤ 1 → m.OneActive :=
    fun m hw => hw.oneActive_iff_count.mpr
  refine throughout_iff_along (J := SingleConversation)
    (fun m l hl h hok => perform_singleConversation h l hl hok)
    (fun m h => h.wellFormed.oneActive_iff_count.mp h.oneActive) ?_ (.of_empty hempty)
    (along_of_forall hrun m)
  intro m l _ h hok hle
  exact perform_not_oneActive l hok (hcount _ (stepWith_wellFormed l.1 h.wellFormed l.2) hle)

/-- A call is dialled and connected with nothing else going on. -/
theorem oneActive_iff_dialled :
    Throughout perform (fun m => m.getNoCallsInState .ACTIVE ≤ 1)
      (initial { makeCallAnswer := some 1 })
      [([], .createOutboundCall "1" 0), ([], .callStateChanged 1 .SESSION_STATE_CONNECTING)] := by
  refine (oneActive_iff rfl _ (by decide)).mpr ⟨trivial, ?_, trivial⟩
  intro r _ _
  decide

/-- A call is dialled; while it is being connected an incoming call is announced and answered; then
the far end picks up. -/
def diallingRun : List (List Arrival × Event) :=
  [([], .createOutboundCall "1" 0),
   ([], .callStateChanged 2 .SESSION_STATE_INCOMING),
   ([], .callIncoming 2 "caller" ""),
   ([], .onUserAnswer 2),
   ([], .callStateChanged 1 .SESSION_STATE_CONNECTING)]

/-- **Two calls in conversation**: the answered one and the one that was being dialled. -/
theorem answered_while_dialling : (∀ l ∈ diallingRun, l.2.noConference) ∧
    (initial { makeCallAnswer := some 1 }).calls = Dictionary.empty ∧
    (run perform (initial { makeCallAnswer := some 1 })
      diallingRun).getNoCallsInState .ACTIVE = 2 := by
  refine ⟨by decide, rfl, by decide⟩

end CCallManager

end TAM
