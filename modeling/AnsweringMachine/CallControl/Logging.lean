import AnsweringMachine.CallControl.Lifetime

/-!
# Every call is logged once, as what it was

`due` reads off the life of a machine what the log should say about it: an incoming call that rang
is received or missed, under the number and name it was delivered with; an outgoing call is dialled,
under the number it was made with, unless that is empty; of anything else (a call that was turned
away or given up before its caller was known) the log says nothing.

**While the call lasts**, its record holds what is due (`Told`).

**When it is destroyed**, `destroy` writes it, once: `logged_once` puts this together for every run
of the manager, with timers that start or do not.
-/

namespace TAM

open Runs

/-- The number and name a move delivers. -/
def Move.caller : Move → Option (String × String)
  | .delivered number name => some (number, name)
  | _ => none

/-- The number a move dials. -/
def Move.callee : Move → Option String
  | .dialled number => some number
  | _ => none

namespace Life

/-- The number and name the call was delivered with, if it rang. -/
def delivered? (ℓ : Life) : Option (String × String) := ℓ.findSome? fun p => p.2.caller

/-- The number that was dialled, if the call is an outgoing one. -/
def dialled? (ℓ : Life) : Option String := ℓ.findSome? fun p => p.2.callee

/-- Was the call answered while it rang? -/
def answered (ℓ : Life) : Bool := ℓ.any fun p => p.2 = .accepted

/-- What the log has to say about the call: type, number and name. -/
def due (ℓ : Life) : List (ECallType × String × String) :=
  match ℓ.delivered?, ℓ.dialled? with
  | some (number, name), _ => [(if ℓ.answered then .EReceived else .EMissed, number, name)]
  | none, some number => if number = "" then [] else [(.EDialed, number, "")]
  | none, none => []

variable {ℓ : Life} {x : Surroundings} {v : Move}

lemma delivered?_append : (ℓ ++ [(x, v)]).delivered? = ℓ.delivered?.or v.caller := by
  simp [delivered?, List.findSome?_append]

lemma dialled?_append : (ℓ ++ [(x, v)]).dialled? = ℓ.dialled?.or v.callee := by
  simp [dialled?, List.findSome?_append]

lemma answered_append : (ℓ ++ [(x, v)]).answered = (ℓ.answered || decide (v = .accepted)) := by
  simp [answered]

/-- A move that neither delivers, nor dials, nor answers the call decides nothing. -/
lemma append_plain (hcaller : v.caller = none) (hcallee : v.callee = none) (hacc : v ≠ .accepted) :
    (ℓ ++ [(x, v)]).delivered? = ℓ.delivered? ∧ (ℓ ++ [(x, v)]).dialled? = ℓ.dialled? ∧
    (ℓ ++ [(x, v)]).answered = ℓ.answered := by
  rw [delivered?_append, dialled?_append, answered_append, hcaller, hcallee, Option.or_none,
    Option.or_none, decide_eq_false hacc, Bool.or_false]
  exact ⟨rfl, rfl, rfl⟩

lemma due_append (hcaller : v.caller = none) (hcallee : v.callee = none) (hacc : v ≠ .accepted) :
    (ℓ ++ [(x, v)]).due = ℓ.due := by
  obtain ⟨h1, h2, h3⟩ := append_plain (ℓ := ℓ) (x := x) hcaller hcallee hacc
  simp only [due, h1, h2, h3]

end Life

namespace CCallManager

variable {m m' : CCallManager} {r s : MachineRef} {v : Move} {b : Books} {ℓ : Life}
  {c : CStateMachine} {x : Surroundings}

/-! ## While the call lasts -/

/-- The record holds what is due. -/
structure Told (c : CStateMachine) (ℓ : Life) : Prop where
  type : c.type = if ℓ.delivered?.isSome then (if ℓ.answered then .EReceived else .EMissed)
    else .EDialed
  number : c.callingNumber = (ℓ.delivered?.map Prod.fst).getD (ℓ.dialled?.getD "")
  name : c.callingName = (ℓ.delivered?.map Prod.snd).getD ""
  /-- an idle call has not rung yet, and is no outgoing one -/
  idle : c.state = .Idle → ℓ.delivered? = none ∧ ℓ.dialled? = none
  /-- only a call that rang is answered -/
  ringing : c.state = .Incoming → ℓ.delivered?.isSome
  answered : ℓ.answered → ℓ.delivered?.isSome

/-- The fields that go into the log entry, but for the times. -/
def logKey (e : LogEntry) : ECallType × String × String := (e.type, e.number, e.name)

/-- **What `destroy` writes is what is due**, whatever else was done to the record on the way. -/
lemma Told.logEntries {c' : CStateMachine} (h : Told c ℓ) (now : DateTime)
    (htype : c'.type = c.type)
    (hnumber : c'.callingNumber = c.callingNumber) (hname : c'.callingName = c.callingName) :
    (c'.logEntries now).map logKey = ℓ.due := by
  have hlen : ∀ s : String, 0 < s.length ↔ s ≠ "" := by
    intro s
    rw [Nat.pos_iff_ne_zero, Ne, String.length_eq_zero_iff]
  rw [CStateMachine.logEntries_eq]
  unfold logged Life.due
  rw [htype, hnumber, hname, h.type, h.number, h.name]
  cases hd : ℓ.delivered? with
  | some p =>
      obtain ⟨number, name⟩ := p
      by_cases ha : ℓ.answered = true <;> simp [ha, logKey]
  | none =>
      cases hn : ℓ.dialled? with
      | none => simp
      | some number =>
          by_cases he : number = ""
          · simp [he]
          · simp [he, hlen, logKey]

/-- A move that does not decide what is due, and changes none of what is held. -/
lemma Told.same {c' : CStateMachine} (h : Told c ℓ) (hcaller : v.caller = none)
    (hcallee : v.callee = none) (hacc : v ≠ .accepted) (htype : c'.type = c.type)
    (hnumber : c'.callingNumber = c.callingNumber) (hname : c'.callingName = c.callingName)
    (hidle : c'.state = .Idle → c.state = .Idle)
    (hring : c'.state = .Incoming → c.state = .Incoming) : Told c' (ℓ ++ [(x, v)]) := by
  obtain ⟨h1, h2, h3⟩ := Life.append_plain (ℓ := ℓ) (x := x) hcaller hcallee hacc
  constructor
  · rw [h1, h3, htype, h.type]
  · rw [h1, h2, hnumber, h.number]
  · rw [h1, hname, h.name]
  · rw [h1, h2]
    exact fun hst => h.idle (hidle hst)
  · rw [h1]
    exact fun hst => h.ringing (hring hst)
  · rw [h1, h3]
    exact h.answered

/-- The same for a move into one of the other states. -/
lemma Told.moved {c' : CStateMachine} {st : IAbstractState} (h : Told c ℓ)
    (hcaller : v.caller = none)
    (hcallee : v.callee = none) (hacc : v ≠ .accepted) (hst : c'.state = st)
    (hne : st ≠ .Idle ∧ st ≠ .Incoming) (htype : c'.type = c.type)
    (hnumber : c'.callingNumber = c.callingNumber) (hname : c'.callingName = c.callingName) :
    Told c' (ℓ ++ [(x, v)]) := by
  refine h.same hcaller hcallee hacc htype hnumber hname ?_ ?_
  · rw [hst]
    exact fun h => absurd h hne.1
  · rw [hst]
    exact fun h => absurd h hne.2

lemma Told.delivered (h : Told c ℓ) (hst : c.state = .Idle) (number name : String) :
    Told ((Move.delivered number name).after x c) (ℓ ++ [(x, .delivered number name)]) := by
  obtain ⟨hnone, -⟩ := h.idle hst
  have h1 : (ℓ ++ [(x, Move.delivered number name)]).delivered? = some (number, name) := by
    rw [Life.delivered?_append, hnone]
    rfl
  have hrecord : ((Move.delivered number name).after x c).type = .EMissed ∧
      ((Move.delivered number name).after x c).callingNumber = number ∧
      ((Move.delivered number name).after x c).callingName = name ∧
      ((Move.delivered number name).after x c).state = .Incoming := by
    have hexit :=
      CStateMachine.onExit_fields { c with callingNumber := number, callingName := name }
    simp only [Move.after, CStateMachine.rung, CStateMachine.startTimer]
    split_ifs <;> exact ⟨rfl, hexit.2.1, hexit.2.2.1, rfl⟩
  have hnot : (ℓ ++ [(x, Move.delivered number name)]).answered = false := by
    rw [Life.answered_append, Bool.or_eq_false_iff]
    refine ⟨?_, by simp⟩
    by_contra ha
    simpa [hnone] using h.answered (by simpa using ha)
  constructor
  · rw [hrecord.1, h1, hnot]
    rfl
  · rw [hrecord.2.1, h1]
    rfl
  · rw [hrecord.2.2.1, h1]
    rfl
  · rw [hrecord.2.2.2]
    simp
  · exact fun _ => by rw [h1]; rfl
  · exact fun _ => by rw [h1]; rfl

lemma Told.accepted (h : Told c ℓ) (hst : c.state = .Incoming) :
    Told (Move.accepted.after x c) (ℓ ++ [(x, .accepted)]) := by
  have h1 : (ℓ ++ [(x, Move.accepted)]).delivered? = ℓ.delivered? := by
    rw [Life.delivered?_append]
    exact Option.or_none
  have h2 : (ℓ ++ [(x, Move.accepted)]).dialled? = ℓ.dialled? := by
    rw [Life.dialled?_append]
    exact Option.or_none
  have h3 : (ℓ ++ [(x, Move.accepted)]).answered = true := by
    rw [Life.answered_append]
    simp
  have hrang := h.ringing hst
  constructor
  · rw [h1, h3, hrang, Move.after, CStateMachine.enter_type (by simp)]
    rfl
  · rw [h1, h2, ← h.number, Move.after, CStateMachine.enter_callingNumber]
  · rw [h1, ← h.name, Move.after, CStateMachine.enter_callingName]
  · simp [Move.after]
  · simp [Move.after]
  · exact fun _ => by rw [h1]; exact hrang

/-- Noting the duration and entering an ending state touch nothing that is due. -/
lemma ending_fields (x : Surroundings) (st : IAbstractState) (c : CStateMachine) :
    (c.ending x st).type = c.type ∧ (c.ending x st).callingNumber = c.callingNumber ∧
    (c.ending x st).callingName = c.callingName := by
  have h := c.onExit_fields
  exact ⟨h.1, h.2.1, h.2.2.1⟩

lemma hungUp_fields (now : DateTime) (c : CStateMachine) : (c.hungUp now).type = c.type ∧
    (c.hungUp now).callingNumber = c.callingNumber ∧
    (c.hungUp now).callingName = c.callingName := by
  unfold CStateMachine.hungUp
  split_ifs <;> exact ⟨rfl, rfl, rfl⟩

/-- **A move that neither creates nor destroys the machine keeps what is due in the record.** -/
lemma Told.after (h : Told c ℓ) (hen : v.Enabled c) (hcr : ¬ v.creates)
    (hv : ¬ v.destroys x.factory) : Told (v.after x c) (ℓ ++ [(x, v)]) := by
  have hx : ∀ {st c}, x.factory.timersRun = true →
      Move.endedIn x st c = c.ending x st := fun h => if_pos h
  cases v with
  | announced k | dialled number => simp [Move.creates] at hcr
  | turnedAway | destroyed => simp [Move.destroys] at hv
  | delivered number name => exact h.delivered hen number name
  | accepted => exact h.accepted hen
  | entered k | renamed k | holdRequested | settled =>
      exact h.same rfl rfl (by simp) rfl rfl rfl id id
  | expired t => cases t <;> exact h.same rfl rfl (by simp) rfl rfl rfl id id
  | alerted | held =>
      exact h.moved rfl rfl (by simp) (CStateMachine.enter_state _ _) (by simp)
        (CStateMachine.enter_type (by simp) _) (CStateMachine.enter_callingNumber _ _)
        (CStateMachine.enter_callingName _ _)
  | retrieved =>
      exact h.moved rfl rfl (by simp) (CStateMachine.enter_state _ _) (by simp)
        (CStateMachine.enter_type (by simp) _) (CStateMachine.enter_callingNumber _ _)
        (CStateMachine.enter_callingName _ _)
  | connected =>
      refine h.moved rfl rfl (by simp) (CStateMachine.enter_state _ _) (by simp) ?_ ?_ ?_
      · rw [Move.after, CStateMachine.enter_type (by simp)]
        split_ifs <;> rfl
      · rw [Move.after, CStateMachine.enter_callingNumber]
        split_ifs <;> rfl
      · rw [Move.after, CStateMachine.enter_callingName]
        split_ifs <;> rfl
  | terminated =>
      have hnote := hungUp_fields x.now c
      have hend := ending_fields x .Terminated (c.hungUp x.now)
      rw [Move.after, hx (by simpa [Move.destroys] using hv)]
      exact h.moved rfl rfl (by simp) (show _ = IAbstractState.Terminated from rfl) (by simp)
        (hend.1.trans hnote.1) (hend.2.1.trans hnote.2.1) (hend.2.2.trans hnote.2.2)
  | released =>
      have hend := ending_fields x .Released c
      rw [Move.after, hx (by simpa [Move.destroys] using hv)]
      exact h.moved rfl rfl (by simp) (show _ = IAbstractState.Released from rfl) (by simp)
        hend.1 hend.2.1 hend.2.2

/-- A new machine. -/
lemma told_created (hcr : v.creates) (x : Surroundings) (c : CStateMachine) :
    Told (v.after x c) [(x, v)] := by
  cases v with
  | announced k => exact ⟨rfl, rfl, rfl, fun _ => ⟨rfl, rfl⟩, by simp [Move.after,
      CStateMachine.create], by simp [Life.answered]⟩
  | dialled number => exact ⟨rfl, rfl, rfl, by simp [Move.after], by simp [Move.after],
      by simp [Life.answered]⟩
  | _ => simp [Move.creates] at hcr

/-- A move that destroys the machine writes what is due. -/
lemma Told.destroys (h : Told c ℓ) (hv : v.destroys x.factory) :
    (v.entries x c).map logKey = ℓ.due := by
  have hx : ¬ x.factory.timersRun = true → ∀ l l' : List LogEntry,
      (if x.factory.timersRun then l else l') = l' := fun h _ _ => if_neg h
  cases v with
  | destroyed | turnedAway => exact h.logEntries x.now rfl rfl rfl
  | terminated =>
      have hnote := hungUp_fields x.now c
      have hend := ending_fields x .Terminated (c.hungUp x.now)
      rw [Move.entries, hx (by simpa [Move.destroys] using hv)]
      exact h.logEntries x.now (hend.1.trans hnote.1) (hend.2.1.trans hnote.2.1)
        (hend.2.2.trans hnote.2.2)
  | released =>
      have hend := ending_fields x .Released c
      rw [Move.entries, hx (by simpa [Move.destroys] using hv)]
      exact h.logEntries x.now hend.1 hend.2.1 hend.2.2
  | _ => simp [Move.destroys] at hv

/-! ## When it is destroyed -/

/-- The record of a machine holds what is due until it is destroyed, and then the log does. -/
structure AccountedAt (m : CCallManager) (b : Books) (r : MachineRef) : Prop where
  told : (b.lives r).timesDestroyed = 0 → Told (m.machines r) (b.lives r)
  log : (b.entriesOf r).map logKey =
    if (b.lives r).timesDestroyed = 0 then [] else (b.lives r).due

lemma caller_of_destroys {f : AbstractFactory} (hv : v.destroys f) :
    v.caller = none ∧ v.callee = none ∧ v ≠ .accepted := by
  cases v with
  | destroyed | turnedAway | terminated | released => exact ⟨rfl, rfl, by simp⟩
  | _ => simp [Move.destroys] at hv

/-- **Every move keeps the account of its machine.** -/
lemma AccountedAt.moves (hA : AccountedAt m b r) (hL : LastingAt m b r)
    (htame : ∀ k, v ≠ .renamed k) (h : Makes m m' r v) :
    AccountedAt m' (b.post m.around (r, v)) r := by
  have htimes := Life.timesDestroyed_append (b.lives r) m.around v
  constructor
  · intro hzero
    rw [Books.post_lives_self] at hzero ⊢
    rw [h.self]
    rw [htimes] at hzero
    by_cases hcr : v.creates = true
    · rw [hL.registered.fresh (Nat.le_of_eq (h.eq_created hcr).symm)]
      exact told_created hcr m.around _
    · have hv : ¬ v.destroys m.around.factory = true := by
        intro hv
        simp [hv] at hzero
      exact (hA.told (by omega)).after h.enabled hcr hv
  · rw [Books.post_entriesOf_self, List.map_append, hA.log, Books.post_lives_self, htimes,
      ← hL.registered.record]
    by_cases hv : v.destroys m.around.factory = true
    · -- the machine was there until now, and its log is empty
      have halive := hL.registered.alive (hL.inTable (h.inHand_of_destroys hv))
      obtain ⟨h1, h2, h3⟩ := caller_of_destroys hv
      rw [(hA.told halive).destroys hv, Life.due_append h1 h2 h3]
      simp [halive, hv]
    · rw [entries_of_keeps hv]
      by_cases hzero : (b.lives r).timesDestroyed = 0
      · simp [hzero, hv]
      · have hs := hL.registered.settled_of_dead h hzero
        subst hs
        rw [Life.due_append rfl rfl (by simp)]
        simp [hzero]

lemma AccountedAt.of_ne (hA : AccountedAt m b s) (h : Makes m m' r v) (hs : s ≠ r) :
    AccountedAt m' (b.post m.around (r, v)) s := by
  constructor
  · rw [h.others hs, Books.post_lives_of_ne hs]
    exact hA.told
  · rw [Books.post_entriesOf_of_ne hs, Books.post_lives_of_ne hs]
    exact hA.log

/-- A machine leaves the table by being destroyed. -/
lemma Makes.leaves (hL : ∀ s, LastingAt m b s) (htame : ∀ k, v ≠ .renamed k) (h : Makes m m' r v)
    (hs : m.InTable s) :
    m'.InTable s ∨ ((b.post m.around (r, v)).lives s).timesDestroyed ≠ 0 := by
  by_cases hne : s = r
  · subst hne
    by_cases hv : v.destroys m.around.factory = true
    · right
      rw [Books.post_lives_self, Life.timesDestroyed_append]
      simp [hv]
    · left
      obtain ⟨k, hk⟩ := hs
      have hlt := (hL s).registered.below ⟨k, hk⟩
      cases v with
      | announced j => exact absurd h.reached (Nat.ne_of_lt hlt)
      | dialled number => exact absurd h.reached (Nat.ne_of_lt hlt)
      | renamed j => exact absurd rfl (htame j)
      | entered j => exact ⟨j, by rw [h.calls htame]; simp [Move.table]⟩
      | _ => exact ⟨k, by rw [h.get?_of_onCall rfl, if_neg hv, hk]⟩
  · left
    obtain ⟨k, hk⟩ := hs
    exact ⟨k, (h.get?_iff_of_ne (hL r) htame hne k).mpr hk⟩

/-- What a run keeps of the manager and its books; `P` are the machines that were in the table at
some earlier moment. -/
structure Account (P : MachineRef → Prop) (m : CCallManager) (b : Books) : Prop where
  lasting : ∀ r, LastingAt m b r
  accounted : ∀ r, AccountedAt m b r
  left : ∀ r, P r → m.InTable r ∨ (b.lives r).timesDestroyed ≠ 0

lemma Account.make {P : MachineRef → Prop} (ht : Tame m.created r v) (h : Makes m m' r v)
    (hA : Account P m b) : Account P m' (b.post m.around (r, v)) := by
  refine ⟨lasting_make ht h hA.lasting, fun s => ?_, fun s hs => ?_⟩
  · by_cases hne : s = r
    · subst hne
      exact (hA.accounted s).moves (hA.lasting s) ht.1 h
    · exact (hA.accounted s).of_ne h hne
  · rcases hA.left s hs with hin | hdead
    · exact h.leaves hA.lasting ht.1 hin
    · right
      by_cases hne : s = r
      · subst hne
        rw [Books.post_lives_self, Life.timesDestroyed_append]
        omega
      · rwa [Books.post_lives_of_ne hne]

lemma Account.congr {P : MachineRef → Prop} (hm : m'.machines = m.machines)
    (hn : m'.created = m.created) (hc : m'.calls.get? = m.calls.get?) (hA : Account P m b) :
    Account P m' b := by
  refine ⟨fun r => (hA.lasting r).congr hm hn hc, fun r => ?_, fun r hr => ?_⟩
  · exact ⟨by rw [hm]; exact (hA.accounted r).told, (hA.accounted r).log⟩
  · rw [InTable, hc]
    exact hA.left r hr

end CCallManager

namespace Chronicle

open CCallManager

/-- What the log says, machine by machine: each is destroyed at most once, none that is in the
table, and then the log says of it what was due; of the others it says nothing. -/
structure Accounted (w : Chronicle) : Prop where
  written : w.books.journal.map Prod.snd = w.written
  once : ∀ r, (w.books.lives r).timesDestroyed ≤ 1
  listed : ∀ r, w.manager.InTable r → (w.books.lives r).timesDestroyed = 0
  log : ∀ r, (w.books.entriesOf r).map logKey =
    if (w.books.lives r).timesDestroyed = 0 then [] else (w.books.lives r).due

/-- Whoever leaves the table in the step has been destroyed by then. -/
def Leaves (w : Chronicle) (e : Event) : Prop :=
  ∀ r, w.manager.InTable r → ¬ (w.perform e).manager.InTable r →
    ((w.perform e).books.lives r).timesDestroyed = 1

/-- What holds of a chronicle between events. -/
structure Kept (w : Chronicle) : Prop where
  wellFormed : w.manager.WellFormed
  stopped : w.manager.Stopped
  faithful : w.Faithful
  account : Account (fun _ => False) w.manager w.books

lemma Kept.accounted {w : Chronicle} (h : w.Kept) : w.Accounted :=
  ⟨h.faithful.journal, fun r => (h.account.lasting r).once,
    fun r => (h.account.lasting r).registered.alive, fun r => (h.account.accounted r).log⟩

lemma Kept.account_perform {w : Chronicle} (h : w.Kept) {e : Event} (he : Orderly w.manager e)
    {P : MachineRef → Prop} (hP : Account P w.manager w.books) :
    Account P (w.perform e).manager (w.perform e).books :=
  perform_kept (K := Account P) (fun hm hn hc _ => Account.congr hm hn hc) Account.make w
    h.wellFormed h.stopped he (fun _ _ => Account.congr (m := w.manager) rfl rfl rfl hP) hP

lemma Kept.perform {w : Chronicle} (h : w.Kept) {e : Event} (he : Orderly w.manager e) :
    (w.perform e).Kept where
  wellFormed := stepWith_wellFormed [] h.wellFormed e
  stopped := stopped_handle h.wellFormed.cleared h.stopped he
  faithful := h.faithful.perform h.wellFormed e
  account := h.account_perform he h.account

lemma Kept.leaves {w : Chronicle} (h : w.Kept) {e : Event} (he : Orderly w.manager e) :
    w.Leaves e := by
  intro r hin hout
  have hA := h.account_perform he (P := w.manager.InTable)
    ⟨h.account.lasting, h.account.accounted, fun _ hr => .inl hr⟩
  have hone := (hA.lasting r).once
  have hdead := (hA.left r hin).resolve_left hout
  omega

lemma initial_kept (around : Surroundings) : (initial around).Kept where
  wellFormed := WellFormed.initial around
  stopped := by
    intro h
    simp [initial, CCallManager.initial] at h
  faithful := initial_faithful around
  account := by
    refine ⟨fun r => ?_, fun r => ?_, fun r hr => hr.elim⟩
    · exact ⟨Registered.initial around r, fun _ => .inl rfl, by simp [initial]⟩
    · exact ⟨fun _ => ⟨rfl, rfl, rfl, fun _ => ⟨rfl, rfl⟩, by simp [initial, CCallManager.initial],
        by simp [initial, Life.answered]⟩, rfl⟩

/-- **Every call is logged once, as what it was.**  Over every run in which calls keep their ids,
with any flags and with timers that start or do not. -/
theorem logged_once (around : Surroundings) (events : List Event)
    (h : Along perform (fun w e => Orderly w.manager e) (initial around) events) :
    Throughout perform Accounted (initial around) events ∧
      Along perform Leaves (initial around) events :=
  ⟨throughout_of_along (fun _ _ hk he => hk.perform he) (fun _ hk => hk.accounted)
      (initial_kept around) h,
    along_of_along (fun _ _ hk he => hk.perform he) (fun _ _ hk he => hk.leaves he)
      (initial_kept around) h⟩

/-- A call that is answered, given up by the caller, and destroyed when its release timer
elapses. -/
def answeredRun : List Event :=
  [.callStateChanged 1 .SESSION_STATE_INCOMING, .callIncoming 1 "100" "Ann", .onUserAnswer 1,
    .callStateChanged 1 .SESSION_STATE_DISCONNECTED, .timerElapsed 0 .ERELEASED]

/-- The answered call is logged once, as received. -/
theorem answered_logged_once : (Throughout perform Accounted (initial {}) answeredRun ∧
    Along perform Leaves (initial {}) answeredRun) ∧
    (run perform (initial {}) answeredRun).written.map logKey = [(.EReceived, "100", "Ann")] := by
  have horderly : Along perform (fun w e => Orderly w.manager e) (initial {}) answeredRun :=
    ⟨⟨by simp, fun h => by simp [initial, CCallManager.initial] at h⟩,
      ⟨by simp, by simp⟩, ⟨by simp, by simp⟩,
      ⟨by simp, by simp⟩, ⟨by simp, by simp⟩, trivial⟩
  exact ⟨logged_once {} answeredRun horderly, by decide +kernel⟩

end Chronicle

end TAM
