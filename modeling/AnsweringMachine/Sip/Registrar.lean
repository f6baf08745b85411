import AnsweringMachine.Configuration.Accounts
import Mathlib.Data.List.Sort
import Mathlib.Logic.Function.Basic

/-!
# Registration of the accounts

`registerAccounts` goes through the accounts.  It resets the `Index` of an account, asks the stack
to register it, and stores the id the stack returns in `Index`.  The stack reports the result of a
registration under its id, on a thread of its own: `onRegStateChanged` looks for the first account
with that `Index` and sets its `RegState`.

The model takes the two apart into the steps between which they can meet: the reset, the call of the
stack, the moment the stack gives out an id, the store, and each turn of the loop of a callback.
Any number of callbacks can be under way.

`RoundInv` says where the ids of a round are to be found: an id that was given out is the `Index` of
its account, or about to be, and of no account in front of it.  What accounts behind the loop have
is left from earlier rounds.
-/

namespace TAM

/-- A member of `null` was asked for. -/
structure NullReferenceException
  deriving DecidableEq, Repr

/-- The object a reference stands for. -/
def dereference {α : Type} : Option α → Except NullReferenceException α
  | none => .error {}
  | some a => .ok a

/-! ## What the stack is told -/

/-- The arguments of `dll_registerAccount`. -/
structure Registration where
  uri : String
  reguri : String
  domain : Option String
  username : String
  password : Option String
  proxy : String
  isdefault : Bool
  deriving DecidableEq, Repr

/-- `SetTransport`. -/
def setTransport (mode : ETransportMode) (sipuri : String) : String :=
  match mode with
  | .TM_TCP => sipuri ++ ";transport=tcp"
  | .TM_TLS => sipuri ++ ";transport=tls"
  | .TM_UDP | .unnamed _ => sipuri

/-- `Config.DefaultAccountIndex`. -/
def defaultAccountIndex : ℕ := 0

/-- The body of the loop of `registerAccounts` up to the call of the stack.  An account without a
name or a host is skipped. -/
def prepare (parse : String → Option ETransportMode) (acc : XmlAccount) (i : ℕ) :
    Except NullReferenceException (Option Registration) := do
  let id ← dereference acc.id
  if 0 < id.length then
    let hostName ← dereference acc.hostName
    if 0 < hostName.length then
      let userName ← dereference acc.userName
      let uri := "sip:" ++ userName
      let uri := if '@' ∈ userName.toList then uri else uri ++ "@" ++ hostName
      let reguri := setTransport (acc.transportMode parse) ("sip:" ++ hostName)
      let proxy := if 0 < acc.proxyAddress.length then "sip:" ++ acc.proxyAddress else ""
      return some
        { uri, reguri, domain := acc.domainName, username := userName, password := acc.password,
          proxy, isdefault := i = defaultAccountIndex }
    else return none
  else return none

/-! ## The state -/

/-- How far `registerAccounts` has come. -/
inductive Progress
  | idle
  /-- At the head of the loop. -/
  | account (i : ℕ)
  /-- `Index` of the account is reset. -/
  | reset (i : ℕ)
  /-- In `dll_registerAccount`, before the stack has added the account. -/
  | registering (i : ℕ) (registration : Registration)
  /-- The stack has added the account, or failed, and `Index` is not stored yet. -/
  | returning (i : ℕ) (accId : ℤ)
  deriving DecidableEq, Repr

/-- How far a callback has come: to an account in its loop, to the `RegState` it has set, or to the
end of the list. -/
inductive Place
  | looking (i : ℕ)
  | found (i : ℕ)
  | lost
  deriving DecidableEq, Repr

/-- A call of `onRegStateChanged`, with the account its id belonged to when it arrived, as far as
the id is one of the current round. -/
structure Callback where
  accId : ℕ
  regState : ℤ
  place : Place := .looking 0
  meant : Option ℕ
  deriving DecidableEq, Repr

/-- The registrar, the accounts and the stack. -/
structure Registrar where
  accounts : List XmlAccount
  /-- `Index` and `RegState` of the accounts. -/
  index : ℕ → ℤ
  regState : ℕ → ℤ := fun _ => 0
  progress : Progress := .idle
  isInitialized : Bool := false
  /-- The ids of the stack's accounts, in ascending order. -/
  live : List ℕ := []
  /-- The account each id was given to in the current round. -/
  assigned : ℕ → Option ℕ := fun _ => none
  callbacks : List Callback := []
  /-- The events `AccountStateChanged` that were raised. -/
  raised : List (ℕ × ℤ) := []

namespace Registrar

/-- The accounts as they were read, before the first round: `Index` is the position in the file. -/
def initial (accounts : List XmlAccount) : Registrar where
  accounts
  index i := (accounts[i]?.map fun account => (account.index : ℤ)).getD (-1)

/-- `dll_removeAccounts`, which deletes five accounts at most. -/
def removeAccounts (live : List ℕ) : List ℕ := live.drop 5

/-- What can happen next. -/
inductive Event
  | registerAccounts
  /-- The thread in `registerAccounts` makes a step of its own. -/
  | proceed
  /-- The stack adds the account it was asked for, under an id that is free, or fails. -/
  | accAdd (answer : Option ℕ)
  /-- The state of a registration has changed. -/
  | onRegState (accId : ℕ) (status expires : ℤ)
  /-- A callback looks at one account. -/
  | scan (t : ℕ)
  | unregisterAccounts
  /-- The stack is started or stopped; it starts with accounts of its own. -/
  | restart (isInitialized : Bool) (live : List ℕ)

/-! ## The steps -/

variable (parse : String → Option ETransportMode)

/-- Where the loop goes from a reset account. -/
def afterReset (i : ℕ) : Except NullReferenceException (Option Registration) → Progress
  | .error _ => .idle
  | .ok none => .account (i + 1)
  | .ok (some registration) => .registering i registration

/-- A step of `registerAccounts`; while the stack is adding an account it waits. -/
def proceed (s : Registrar) : Registrar :=
  match s.progress with
  | .idle | .registering _ _ => s
  | .account i =>
      if i < s.accounts.length then
        { s with index := Function.update s.index i (-1), progress := .reset i }
      else { s with progress := .idle }
  | .reset i =>
      match s.accounts[i]? with
      | none => s
      | some acc =>
          { s with
            raised := s.raised ++ [(i, 0)]
            progress := afterReset i (prepare parse acc i) }
  | .returning i accId =>
      { s with index := Function.update s.index i accId, progress := .account (i + 1) }

/-- The answer of the stack to `dll_registerAccount`. -/
def accAdd (s : Registrar) (answer : Option ℕ) : Registrar :=
  match s.progress with
  | .registering i _ =>
      match answer with
      | none => { s with progress := .returning i (-1) }
      | some accId =>
          if accId ∈ s.live then s
          else
            { s with
              progress := .returning i accId
              live := s.live.orderedInsert (· ≤ ·) accId
              assigned := Function.update s.assigned accId (some i) }
  | _ => s

/-- The callback goes on to an account. -/
def goOn (s : Registrar) (t : ℕ) (c : Callback) (i : ℕ) : Registrar :=
  { s with callbacks := s.callbacks.set t { c with place := .looking i } }

/-- The callback sets the state of an account and returns. -/
def setRegState (s : Registrar) (t : ℕ) (c : Callback) (i : ℕ) : Registrar :=
  { s with
    regState := Function.update s.regState i c.regState
    raised := s.raised ++ [(i, c.regState)]
    callbacks := s.callbacks.set t { c with place := .found i } }

/-- One turn of the loop of `onRegStateChanged`. -/
def scan (s : Registrar) (t : ℕ) : Registrar :=
  match s.callbacks[t]? with
  | none => s
  | some c =>
      match c.place with
      | .looking i =>
          if i < s.accounts.length then
            if s.index i = c.accId then s.setRegState t c i else s.goOn t c (i + 1)
          else { s with callbacks := s.callbacks.set t { c with place := .lost } }
      | .found _ | .lost => s

/-- What happens.  The stack is stopped and started, and accounts are registered and unregistered,
only while nothing else is done with the registrar; callbacks arrive at any time. -/
def step (s : Registrar) : Event → Registrar
  | .registerAccounts =>
      if s.progress = .idle ∧ s.isInitialized ∧ 0 < s.accounts.length then
        { s with
          live := removeAccounts s.live
          progress := .account 0
          assigned := fun _ => none
          callbacks := s.callbacks.map fun c => { c with meant := none } }
      else s
  | .proceed => s.proceed parse
  | .accAdd answer => s.accAdd answer
  | .onRegState accId status expires =>
      -- a registration that has expired is reported as such
      let regState := if status = 200 ∧ expires = -1 then -1 else status
      { s with callbacks := s.callbacks ++ [{ accId, regState, meant := s.assigned accId }] }
  | .scan t => s.scan t
  | .unregisterAccounts =>
      if s.progress = .idle then { s with live := removeAccounts s.live } else s
  | .restart isInitialized live =>
      if s.progress = .idle then { s with isInitialized, live } else s

/-! ## The ids of a round -/

/-- The account the loop is at. -/
def front : Progress → Option ℕ
  | .idle => none
  | .account i | .reset i | .registering i _ | .returning i _ => some i

/-- The account whose `Index` is reset and not stored yet. -/
def cleared : Progress → Option ℕ
  | .reset i | .registering i _ | .returning i _ => some i
  | .idle | .account _ => none

/-- What holds of the ids of the current round at every step. -/
structure RoundInv (s : Registrar) : Prop where
  /-- An id that was given out is stored, or about to be. -/
  stored : ∀ {id i : ℕ}, s.assigned id = some i → s.index i = id ∨ s.progress = .returning i id
  /-- No account in front of it has the same. -/
  first : ∀ {id i j : ℕ}, s.assigned id = some i → j < i → s.index j ≠ id
  within : ∀ {id i : ℕ}, s.assigned id = some i → i < s.accounts.length
  reset : ∀ {k : ℕ}, cleared s.progress = some k → k < s.accounts.length ∧ s.index k = -1
  answer : ∀ {k : ℕ} {a : ℤ}, s.progress = .returning k a → a = -1 ∨ ∃ id ∈ s.live, a = (id : ℕ)
  /-- During a round the ids given out are the stack's, and their accounts are behind the loop. -/
  passed : ∀ {k id i : ℕ}, front s.progress = some k → s.assigned id = some i →
    id ∈ s.live ∧ (i < k ∨ s.progress = .returning i id)
  known : ∀ {k j : ℕ}, front s.progress = some k → j < k →
    s.index j = -1 ∨ ∃ id ∈ s.live, s.index j = (id : ℕ)

section Round

variable {s s' : Registrar} {parse : String → Option ETransportMode}

/-- Outside of a round nothing is given out, and no account is reset. -/
lemma RoundInv.toIdle (h : s.RoundInv) (hacc : s'.accounts = s.accounts)
    (hi : s'.index = s.index) (ha : s'.assigned = s.assigned)
    (hp : ∀ k a, s.progress ≠ .returning k a) (hidle : s'.progress = .idle) : s'.RoundInv where
  stored := by
    intro id i hid
    rw [ha] at hid
    rw [hi]
    exact Or.inl ((h.stored hid).resolve_right (hp i id))
  first := by
    intro id i j hid
    rw [ha] at hid
    rw [hi]
    exact h.first hid
  within := by
    rw [ha, hacc]
    exact h.within
  reset := by simp [hidle, cleared]
  answer := by simp [hidle]
  passed := by simp [hidle, front]
  known := by simp [hidle, front]

/-- All accounts in front of an account are done with, and no id was given out to others. -/
structure Settled (s : Registrar) (k : ℕ) : Prop where
  stored : ∀ {id i : ℕ}, s.assigned id = some i → id ∈ s.live ∧ i < k ∧ s.index i = id
  first : ∀ {id i j : ℕ}, s.assigned id = some i → j < i → s.index j ≠ id
  within : ∀ {id i : ℕ}, s.assigned id = some i → i < s.accounts.length
  known : ∀ {j : ℕ}, j < k → s.index j = -1 ∨ ∃ id ∈ s.live, s.index j = (id : ℕ)

variable {k : ℕ}

/-- Except when an id was given out and not stored. -/
lemma RoundInv.settled (h : s.RoundInv) (hf : front s.progress = some k)
    (hp : ∀ i a, s.progress ≠ .returning i a) : s.Settled k where
  stored := by
    intro id i hid
    obtain ⟨hlive, hik⟩ := h.passed hf hid
    exact ⟨hlive, hik.resolve_right (hp i id), (h.stored hid).resolve_right (hp i id)⟩
  first := h.first
  within := h.within
  known := h.known hf

/-- How far the loop has come does not matter. -/
lemma Settled.congr (h : s.Settled k) (hacc : s'.accounts = s.accounts) (hi : s'.index = s.index)
    (ha : s'.assigned = s.assigned) (hl : s'.live = s.live) : s'.Settled k := by
  constructor
  · rw [ha, hl, hi]; exact h.stored
  · rw [ha, hi]; exact h.first
  · rw [ha, hacc]; exact h.within
  · rw [hi, hl]; exact h.known

lemma Settled.roundInv (h : s.Settled k) (hf : front s.progress = some k)
    (hreset : ∀ i, cleared s.progress = some i → i < s.accounts.length ∧ s.index i = -1)
    (hanswer : ∀ i a, s.progress = .returning i a → a = -1) : s.RoundInv where
  stored hid := Or.inl (h.stored hid).2.2
  first := h.first
  within := h.within
  reset hi := hreset _ hi
  answer ha := Or.inl (hanswer _ _ ha)
  passed := by
    intro k' id i hk' hid
    obtain rfl : k = k' := by simpa [hf] using hk'
    exact ⟨(h.stored hid).1, Or.inl (h.stored hid).2.1⟩
  known := by
    intro k' j hk'
    obtain rfl : k = k' := by simpa [hf] using hk'
    exact h.known

/-- The `Index` of the next account can be anything. -/
lemma Settled.update (h : s.Settled k) (a : ℤ) :
    { s with index := Function.update s.index k a }.Settled k where
  stored := by
    intro id i hid
    have hi := h.stored hid
    simpa [hi.2.1.ne] using hi
  first := by
    intro id i j hid hj
    have hne : j ≠ k := (hj.trans (h.stored hid).2.1).ne
    simpa [hne] using h.first hid hj
  within := h.within
  known := by
    intro j hj
    simpa [hj.ne] using h.known hj

/-- The next account has no id. -/
lemma Settled.skip (h : s.Settled k) (hk : s.index k = -1) : s.Settled (k + 1) where
  stored hid :=
    ⟨(h.stored hid).1, Nat.lt_succ_of_lt (h.stored hid).2.1, (h.stored hid).2.2⟩
  first := h.first
  within := h.within
  known := by
    intro j hj
    rcases Nat.lt_succ_iff_lt_or_eq.mp hj with hj | rfl
    · exact h.known hj
    · exact Or.inl hk

/-- The id that was returned is stored. -/
lemma RoundInv.store (h : s.RoundInv) {a : ℤ} (hp : s.progress = .returning k a) :
    { s with index := Function.update s.index k a }.Settled (k + 1) := by
  have hpassed : ∀ {id i : ℕ}, s.assigned id = some i → id ∈ s.live ∧ (i < k ∨ k = i ∧ a = id) :=
    fun hid => by simpa [hp] using h.passed (k := k) (by simp [hp, front]) hid
  constructor
  case stored =>
    intro id i hid
    obtain ⟨hlive, hik | ⟨rfl, rfl⟩⟩ := hpassed hid
    · refine ⟨hlive, Nat.lt_succ_of_lt hik, ?_⟩
      simpa [hik.ne, hik.ne', hp] using h.stored hid
    · exact ⟨hlive, Nat.lt_succ_self k, by simp⟩
  case first =>
    intro id i j hid hj
    have hjk : j ≠ k := by
      have := (hpassed hid).2
      omega
    simpa [hjk] using h.first hid hj
  case within => exact h.within
  case known =>
    intro j hj
    rcases Nat.lt_succ_iff_lt_or_eq.mp hj with hj | rfl
    · simpa [hj.ne] using h.known (by simp [hp, front]) hj
    · simpa using h.answer hp

/-- An id is given out that no account in front of the loop has, because it was free. -/
lemma Settled.added (h : s.Settled k) (hk : k < s.accounts.length ∧ s.index k = -1) {accId : ℕ}
    (hfree : accId ∉ s.live) :
    { s with
      progress := .returning k accId
      live := s.live.orderedInsert (· ≤ ·) accId
      assigned := Function.update s.assigned accId (some k) }.RoundInv := by
  have hcases : ∀ {id i : ℕ}, Function.update s.assigned accId (some k) id = some i →
      (id = accId ∧ i = k) ∨ (id ≠ accId ∧ s.assigned id = some i) := by
    intro id i hid
    by_cases hne : id = accId
    · subst hne
      exact Or.inl ⟨rfl, by simpa [eq_comm] using hid⟩
    · exact Or.inr ⟨hne, by simpa [hne] using hid⟩
  constructor
  case stored =>
    intro id i hid
    rcases hcases hid with ⟨rfl, rfl⟩ | ⟨-, hid⟩
    · exact Or.inr rfl
    · exact Or.inl (h.stored hid).2.2
  case first =>
    intro id i j hid hj
    rcases hcases hid with ⟨rfl, rfl⟩ | ⟨-, hid⟩
    · rcases h.known hj with hj | ⟨id', hlive, hj⟩
      · simp [hj]
      · intro heq
        obtain rfl : id' = id := by exact_mod_cast hj.symm.trans heq
        exact hfree hlive
    · exact h.first hid hj
  case within =>
    intro id i hid
    rcases hcases hid with ⟨rfl, rfl⟩ | ⟨-, hid⟩
    · exact hk.1
    · exact h.within hid
  case reset =>
    intro k' hk'
    obtain rfl : k = k' := by simpa [cleared] using hk'
    exact hk
  case answer =>
    intro k' a ha
    obtain ⟨-, rfl⟩ : k = k' ∧ (accId : ℤ) = a := by simpa using ha
    exact Or.inr ⟨accId, by simp, rfl⟩
  case passed =>
    intro k' id i hk' hid
    obtain rfl : k = k' := by simpa [front] using hk'
    rcases hcases hid with ⟨rfl, rfl⟩ | ⟨-, hid⟩
    · exact ⟨by simp, Or.inr rfl⟩
    · exact ⟨by simp [(h.stored hid).1], Or.inl (h.stored hid).2.1⟩
  case known =>
    intro k' j hk' hj
    obtain rfl : k = k' := by simpa [front] using hk'
    rcases h.known hj with hj | ⟨id, hlive, hj⟩
    · exact Or.inl hj
    · exact Or.inr ⟨id, by simp [hlive], hj⟩

/-- **A step of `registerAccounts`** keeps the invariant. -/
lemma RoundInv.proceed (h : s.RoundInv) : (s.proceed parse).RoundInv := by
  simp only [Registrar.proceed]
  split
  · exact h
  · exact h
  · rename_i k hp
    split_ifs with hlt
    · have hk := (h.settled (k := k) (by simp [hp, front]) (by simp [hp])).update (-1)
      exact Settled.roundInv (hk.congr rfl rfl rfl rfl) rfl
        (by simpa [cleared] using hlt)
        (by simp)
    · exact h.toIdle rfl rfl rfl (by simp [hp]) rfl
  · rename_i k hp
    split
    · exact h
    · rename_i acc _
      have hs := h.settled (k := k) (by simp [hp, front]) (by simp [hp])
      have hk := h.reset (k := k) (by simp [hp, cleared])
      rcases hout : prepare parse acc k with _ | _ | registration
      · exact h.toIdle rfl rfl rfl (by simp [hp]) rfl
      · have hs := hs.skip hk.2
        exact Settled.roundInv (hs.congr rfl rfl rfl rfl) rfl
          (by simp [afterReset, cleared]) (by simp [afterReset])
      · exact Settled.roundInv (hs.congr rfl rfl rfl rfl) rfl
          (by simpa [afterReset, cleared] using hk) (by simp [afterReset])
  · rename_i k a hp
    have hs := h.store hp
    exact Settled.roundInv (hs.congr rfl rfl rfl rfl) rfl (by simp [cleared])
      (by simp)

/-- **The answer of the stack** keeps the invariant: an id that was free is not one that an account
in front of the loop has. -/
lemma RoundInv.accAdd (h : s.RoundInv) (answer : Option ℕ) : (s.accAdd answer).RoundInv := by
  simp only [Registrar.accAdd]
  split
  · rename_i k registration hp
    have hs := h.settled (k := k) (by simp [hp, front]) (by simp [hp])
    have hk := h.reset (k := k) (by simp [hp, cleared])
    split
    · exact Settled.roundInv (hs.congr rfl rfl rfl rfl) rfl
        (by simpa [cleared] using hk) (by simp)
    · split_ifs with hlive
      · exact h
      · exact hs.added hk hlive
  · exact h

/-- The callbacks do not take part in the round. -/
lemma RoundInv.congr (h : s.RoundInv) (hacc : s'.accounts = s.accounts)
    (hi : s'.index = s.index) (ha : s'.assigned = s.assigned) (hp : s'.progress = s.progress)
    (hl : s'.live = s.live) : s'.RoundInv := by
  constructor
  · rw [hi, ha, hp]; exact h.stored
  · rw [hi, ha]; exact h.first
  · rw [ha, hacc]; exact h.within
  · rw [hacc, hi, hp]; exact h.reset
  · rw [hp, hl]; exact h.answer
  · rw [ha, hp, hl]; exact h.passed
  · rw [hi, hp, hl]; exact h.known

end Round

end Registrar

end TAM
