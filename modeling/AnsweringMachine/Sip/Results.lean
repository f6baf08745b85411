import AnsweringMachine.Library.Runs
import AnsweringMachine.Sip.Registrar

/-!
# Results of registrations

A callback looks for the first account with the id it got.  For an id of the current round that is
the account that got the id, once the id is stored (`Inv.scan_of_lt`, `Inv.scan_of_stored`), and a
callback that is left alone then comes to it and sets its `RegState` (`Inv.run_scan`).

An id that was given out and not stored yet is found nowhere, or at an account behind that still has
it from an earlier round.  `delivers_iff` says that this is the only way for a result to miss its
account: every callback for an id of the current round sets the `RegState` of the account that got
the id, and of no other, if and only if none looks at that account between the moment the stack
gives out the id and the store.
-/

namespace TAM

namespace Registrar

open Runs

variable {s s' : Registrar} {parse : String → Option ETransportMode}

/-! ## The callbacks of the current round -/

/-- The callbacks for ids of the current round know the account they are meant for. -/
def MeantInv (s : Registrar) : Prop :=
  ∀ c ∈ s.callbacks, ∀ i, c.meant = some i → s.assigned c.accId = some i

/-- A callback that moves keeps its id and what it was meant for. -/
lemma MeantInv.set (h : s.MeantInv) {t : ℕ} {c : Callback} (hc : s.callbacks[t]? = some c)
    (place : Place) (hs' : s'.callbacks = s.callbacks.set t { c with place })
    (ha : s'.assigned = s.assigned) : s'.MeantInv := by
  intro c' hc' i hi
  rw [hs'] at hc'
  rw [ha]
  rcases List.mem_or_eq_of_mem_set hc' with hc' | rfl
  · exact h c' hc' i hi
  · exact h c (List.mem_of_getElem? hc) i hi

/-- What a turn of a callback's loop can be. -/
lemma scan_cases (s : Registrar) (t : ℕ) : s.scan t = s ∨ ∃ c i, s.callbacks[t]? = some c ∧
    c.place = .looking i ∧
    ((s.index i = c.accId ∧ s.scan t = s.setRegState t c i) ∨
      (s.index i ≠ c.accId ∧ s.scan t = s.goOn t c (i + 1)) ∨
      (s.accounts.length ≤ i ∧
        s.scan t = { s with callbacks := s.callbacks.set t { c with place := .lost } })) := by
  simp only [scan]
  split
  · exact Or.inl rfl
  · rename_i c hc
    split
    · rename_i i hi
      refine Or.inr ⟨c, i, hc, hi, ?_⟩
      split_ifs with hlt hidx
      · exact Or.inl ⟨hidx, rfl⟩
      · exact Or.inr (Or.inl ⟨hidx, rfl⟩)
      · exact Or.inr (Or.inr ⟨Nat.le_of_not_lt hlt, rfl⟩)
    · exact Or.inl rfl
    · exact Or.inl rfl

/-- The ids of the round, and the callbacks for them. -/
structure Inv (s : Registrar) : Prop where
  round : s.RoundInv
  meant : s.MeantInv

lemma Inv.scan (h : s.Inv) (t : ℕ) : (s.scan t).Inv := by
  rcases s.scan_cases t with hs | ⟨c, i, hc, -, ⟨-, hs⟩ | ⟨-, hs⟩ | ⟨-, hs⟩⟩ <;> rw [hs]
  · exact h
  · exact ⟨h.round.congr rfl rfl rfl rfl rfl, h.meant.set hc _ rfl rfl⟩
  · exact ⟨h.round.congr rfl rfl rfl rfl rfl, h.meant.set hc _ rfl rfl⟩
  · exact ⟨h.round.congr rfl rfl rfl rfl rfl, h.meant.set hc _ rfl rfl⟩

/-- An id that is given out was not in use, so no callback of the round is for it. -/
lemma MeantInv.accAdd (h : s.Inv) (answer : Option ℕ) : (s.accAdd answer).MeantInv := by
  simp only [Registrar.accAdd]
  split
  · rename_i k registration hp
    split
    · exact h.meant
    · rename_i accId
      split_ifs with hlive
      · exact h.meant
      · intro c hc i hi
        have hid := h.meant c hc i hi
        have hne : c.accId ≠ accId := by
          rintro rfl
          exact hlive (h.round.passed (k := k) (by simp [hp, front]) hid).1
        simpa [hne] using hid
  · exact h.meant

lemma MeantInv.proceed (h : s.MeantInv) : (s.proceed parse).MeantInv := by
  simp only [Registrar.proceed]
  split
  · exact h
  · exact h
  · split_ifs <;> exact h
  · split <;> exact h
  · exact h

/-- **Every step keeps the ids of the round consistent.** -/
lemma Inv.step (h : s.Inv) (e : Event) : (s.step parse e).Inv := by
  cases e with
  | registerAccounts =>
      simp only [Registrar.step]
      split_ifs
      · constructor
        · exact Settled.roundInv (k := 0) ⟨by simp, by simp, by simp, by simp⟩ rfl
            (by simp [cleared])
            (by simp)
        · intro c hc i hi
          obtain ⟨c', -, rfl⟩ := List.mem_map.mp hc
          simp at hi
      · exact h
  | proceed => exact ⟨h.round.proceed, h.meant.proceed⟩
  | accAdd answer => exact ⟨h.round.accAdd answer, .accAdd h answer⟩
  | onRegState accId status expires =>
      refine ⟨h.round.congr rfl rfl rfl rfl rfl, fun c hc i hi => ?_⟩
      rcases List.mem_append.mp hc with hc | hc
      · exact h.meant c hc i hi
      · rw [List.mem_singleton.mp hc] at hi ⊢
        exact hi
  | scan t => exact h.scan t
  | unregisterAccounts =>
      simp only [Registrar.step]
      split_ifs with hp
      · exact ⟨h.round.toIdle rfl rfl rfl (by simp [hp]) hp, h.meant⟩
      · exact h
  | restart isInitialized live =>
      simp only [Registrar.step]
      split_ifs with hp
      · exact ⟨h.round.toIdle rfl rfl rfl (by simp [hp]) hp, h.meant⟩
      · exact h

lemma Inv.initial (accounts : List XmlAccount) : (initial accounts).Inv := by
  constructor
  · constructor <;> simp [Registrar.initial, front, cleared]
  · simp [MeantInv, Registrar.initial]

/-! ## Results and accounts -/

/-- The callbacks for ids of the current round have set the state of the account that got the id, or
have not come past it. -/
def OnTarget (s : Registrar) : Prop :=
  ∀ c ∈ s.callbacks, ∀ i, c.meant = some i → (∃ j ≤ i, c.place = .looking j) ∨ c.place = .found i

/-- A turn of a callback for an id of the current round changes nothing but its place in front of
the account that got the id, and there it sets the `RegState` of that account. -/
def Delivers (parse : String → Option ETransportMode) (s : Registrar) (e : Event) : Prop :=
  ∀ t c i j, e = .scan t → s.callbacks[t]? = some c → c.meant = some i → c.place = .looking j →
    (j < i ∧ s.step parse e = s.goOn t c (j + 1)) ∨
      (j = i ∧ s.step parse e = s.setRegState t c i)

/-- The callback does not look at the account that got its id while the id is not stored. -/
def InTime (s : Registrar) (e : Event) : Prop :=
  ∀ t c i, e = .scan t → s.callbacks[t]? = some c → c.meant = some i → c.place = .looking i →
    ∀ accId, s.progress ≠ .returning i accId

/-- In front of its account a callback goes on. -/
lemma Inv.scan_of_lt (h : s.Inv) {t i j : ℕ} {c : Callback} (hc : s.callbacks[t]? = some c)
    (hi : c.meant = some i) (hj : c.place = .looking j) (hlt : j < i) :
    s.scan t = s.goOn t c (j + 1) := by
  have hid := h.meant c (List.mem_of_getElem? hc) i hi
  simp [Registrar.scan, hc, hj, hlt.trans (h.round.within hid), h.round.first hid hlt]

/-- At its account it sets the state if the id is stored. -/
lemma Inv.scan_of_stored (h : s.Inv) {t i : ℕ} {c : Callback} (hc : s.callbacks[t]? = some c)
    (hi : c.meant = some i) (hj : c.place = .looking i)
    (hp : ∀ accId, s.progress ≠ .returning i accId) :
    s.scan t = s.setRegState t c i := by
  have hid := h.meant c (List.mem_of_getElem? hc) i hi
  have hidx := (h.round.stored hid).resolve_right (hp _)
  simp [Registrar.scan, hc, hj, h.round.within hid, hidx]

/-- And comes past it if the id is not. -/
lemma Inv.scan_of_returning (h : s.Inv) {t i : ℕ} {c : Callback} {accId : ℤ}
    (hc : s.callbacks[t]? = some c) (hj : c.place = .looking i)
    (hp : s.progress = .returning i accId) : s.scan t = s.goOn t c (i + 1) := by
  obtain ⟨hlt, hidx⟩ := h.round.reset (k := i) (by simp [hp, cleared])
  simp [Registrar.scan, hc, hj, hlt, hidx]

/-- **A callback reaches its account**: left alone, it sets the state of the account that got its
id, and changes nothing else, in as many turns as there are accounts up to that one. -/
theorem Inv.run_scan (h : s.Inv) {t i j : ℕ} {c : Callback} (hc : s.callbacks[t]? = some c)
    (hi : c.meant = some i) (hj : c.place = .looking j) (hle : j ≤ i)
    (hp : ∀ accId, s.progress ≠ .returning i accId) :
    run (Registrar.step parse) s (List.replicate (i + 1 - j) (.scan t)) = s.setRegState t c i := by
  -- by induction on the number of accounts still in front
  induction hn : i - j generalizing s c j with
  | zero =>
      obtain rfl : j = i := by omega
      rw [show j + 1 - j = 1 by omega]
      exact h.scan_of_stored hc hi hj hp
  | succ n ih =>
      have hlt : j < i := by omega
      have hlen := (List.getElem?_eq_some_iff.mp hc).1
      have hstep : s.step parse (.scan t) = s.goOn t c (j + 1) := h.scan_of_lt hc hi hj hlt
      have hinv : (s.goOn t c (j + 1)).Inv := hstep ▸ h.step (.scan t)
      rw [show i + 1 - j = (i + 1 - (j + 1)) + 1 by omega, List.replicate_succ, run, hstep,
        ih hinv (c := { c with place := .looking (j + 1) }) (by simp [goOn, hlen]) hi rfl hlt hp
          (by omega)]
      simp [setRegState, goOn]

/-- **Where callbacks are on target**, a turn delivers if and only if it is in time. -/
lemma delivers_iff_inTime (h : s.Inv) (ht : s.OnTarget) (e : Event) :
    s.Delivers parse e ↔ s.InTime e := by
  constructor
  · rintro hd t c i rfl hc hi hj accId hp
    rcases hd t c i i rfl hc hi hj with ⟨hlt, -⟩ | ⟨-, hs⟩
    · exact absurd hlt (lt_irrefl i)
    · -- the turn went on, and did not set anything
      have hcs := congrArg (fun s => s.callbacks[t]?)
        (hs.symm.trans (h.scan_of_returning hc hj hp))
      have hlen := (List.getElem?_eq_some_iff.mp hc).1
      simp [setRegState, goOn, hlen] at hcs
  · rintro hin t c i j rfl hc hi hj
    rcases ht c (List.mem_of_getElem? hc) i hi with ⟨j', hle, hj'⟩ | hfound
    · obtain rfl : j = j' := by simpa [hj] using hj'
      rcases Nat.lt_or_eq_of_le hle with hlt | rfl
      · exact Or.inl ⟨hlt, h.scan_of_lt hc hi hj hlt⟩
      · exact Or.inr ⟨rfl, h.scan_of_stored hc hi hj (hin t c j rfl hc hi hj)⟩
    · simp [hj] at hfound

/-- A callback that moves to a place that is on target. -/
lemma OnTarget.set (h : s.OnTarget) {t : ℕ} {c : Callback} (place : Place)
    (hs' : s'.callbacks = s.callbacks.set t { c with place })
    (hplace : ∀ i, c.meant = some i → (∃ j ≤ i, place = .looking j) ∨ place = .found i) :
    s'.OnTarget := by
  intro c' hc' i hi
  rw [hs'] at hc'
  rcases List.mem_or_eq_of_mem_set hc' with hc' | rfl
  · exact h c' hc' i hi
  · exact hplace i hi

/-- The other steps move no callback. -/
lemma proceed_callbacks (s : Registrar) : (s.proceed parse).callbacks = s.callbacks := by
  simp only [Registrar.proceed]
  split
  · rfl
  · rfl
  · split_ifs <;> rfl
  · split <;> rfl
  · rfl

lemma accAdd_callbacks (s : Registrar) (answer : Option ℕ) :
    (s.accAdd answer).callbacks = s.callbacks := by
  simp only [Registrar.accAdd]
  split
  · split
    · rfl
    · split_ifs <;> rfl
  · rfl

/-- A turn in time: in front of its account a callback goes on, at its account it sets the state. -/
lemma OnTarget.scan (h : s.Inv) (ht : s.OnTarget) {t : ℕ} (hin : s.InTime (.scan t)) :
    (s.scan t).OnTarget := by
  rcases s.scan_cases t with hs | ⟨c, j, hc, hj, hs⟩
  · rw [hs]
    exact ht
  have hid : ∀ i, c.meant = some i → s.assigned c.accId = some i :=
    h.meant c (List.mem_of_getElem? hc)
  have hle : ∀ i, c.meant = some i → j ≤ i := by
    intro i hi
    rcases ht c (List.mem_of_getElem? hc) i hi with ⟨j', hle, hj'⟩ | hfound
    · obtain rfl : j = j' := by simpa [hj] using hj'
      exact hle
    · simp [hj] at hfound
  rcases hs with ⟨hidx, hs⟩ | ⟨hidx, hs⟩ | ⟨hlen, hs⟩ <;> rw [hs]
  · refine ht.set _ rfl fun i hi => Or.inr ?_
    rcases Nat.lt_or_eq_of_le (hle i hi) with hlt | rfl
    · exact absurd hidx (h.round.first (hid i hi) hlt)
    · rfl
  · refine ht.set _ rfl fun i hi => Or.inl ⟨j + 1, ?_, rfl⟩
    rcases Nat.lt_or_eq_of_le (hle i hi) with hlt | rfl
    · exact hlt
    · exact absurd ((h.round.stored (hid j hi)).resolve_right (hin t c j rfl hc hi hj _)) hidx
  · refine ht.set _ rfl fun i hi => ?_
    exact absurd (h.round.within (hid i hi)) (by have := hle i hi; omega)

/-- **A step that is in time** keeps the callbacks on target. -/
lemma OnTarget.step (h : s.Inv) (ht : s.OnTarget) {e : Event} (hin : s.InTime e) :
    (s.step parse e).OnTarget := by
  cases e with
  | registerAccounts =>
      simp only [Registrar.step]
      split_ifs
      · intro c hc i hi
        obtain ⟨c', -, rfl⟩ := List.mem_map.mp hc
        simp at hi
      · exact ht
  | proceed =>
      intro c hc
      rw [Registrar.step, proceed_callbacks] at hc
      exact ht c hc
  | accAdd answer =>
      intro c hc
      rw [Registrar.step, accAdd_callbacks] at hc
      exact ht c hc
  | onRegState accId status expires =>
      intro c hc i hi
      rcases List.mem_append.mp hc with hc | hc
      · exact ht c hc i hi
      · rw [List.mem_singleton.mp hc]
        exact Or.inl ⟨0, Nat.zero_le i, rfl⟩
  | scan t => exact .scan h ht hin
  | unregisterAccounts | restart isInitialized live =>
      simp only [Registrar.step]
      split_ifs <;> exact ht

/-- **Every result reaches the account it is for, and no other, if and only if** no callback looks
at the account between the moment the stack gives out the id and the moment it is stored. -/
theorem delivers_iff (parse : String → Option ETransportMode) (accounts : List XmlAccount)
    (es : List Event) :
    Along (step parse) (Delivers parse) (initial accounts) es ↔
      Along (step parse) InTime (initial accounts) es :=
  along_congr (J := fun s => s.Inv ∧ s.OnTarget)
    (fun _ e _ h hin => ⟨h.1.step e, .step h.1 h.2 hin⟩)
    (fun _ e _ h => delivers_iff_inTime h.1 h.2 e)
    ⟨.initial accounts, by simp [OnTarget, initial]⟩ (along_true _ es)

/-- An account with a name and a host. -/
def line (userName : String) (index : ℕ) : XmlAccount where
  accountRoot := .createElement "sipekAccount"
    [.withText "username" userName, .withText "registrar" "example"]
  index

/-- The stack fails to add the first account, and gives its first id to the second.  In the next
round the first account gets the id, and the result comes before the id is stored. -/
def twoRounds : List Event :=
  [.restart true [],
   .registerAccounts, .proceed, .proceed, .accAdd none, .proceed, .proceed, .proceed,
   .accAdd (some 0), .proceed, .proceed,
   .registerAccounts, .proceed, .proceed, .accAdd (some 0),
   .onRegState 0 200 3600, .scan 0, .scan 0, .proceed]

/-- The same with one account, in its first round. -/
def oneRound : List Event :=
  [.restart true [], .registerAccounts, .proceed, .proceed, .accAdd (some 0),
   .onRegState 0 200 3600, .scan 0, .scan 0, .proceed]

/-- **The result is set at the wrong account**: the id is that of the first account, and the state
of the second becomes 200.  **Or it is lost**: the account has the id, and never gets its state. -/
theorem result_astray :
    (run (step fun _ => none) (initial [line "office" 0, line "home" 1]) twoRounds).callbacks =
      [{ accId := 0, regState := 200, place := .found 1, meant := some 0 }] ∧
    (run (step fun _ => none) (initial [line "office" 0, line "home" 1]) twoRounds).index 0 = 0 ∧
    (run (step fun _ => none) (initial [line "office" 0, line "home" 1]) twoRounds).regState 0 = 0 ∧
    (run (step fun _ => none) (initial [line "office" 0, line "home" 1]) twoRounds).regState 1 =
      200 ∧
    (run (step fun _ => none) (initial [line "office" 0]) oneRound).callbacks =
      [{ accId := 0, regState := 200, place := .lost, meant := some 0 }] ∧
    (run (step fun _ => none) (initial [line "office" 0]) oneRound).index 0 = 0 ∧
    (run (step fun _ => none) (initial [line "office" 0]) oneRound).regState 0 = 0 := by
  decide

end Registrar

end TAM
