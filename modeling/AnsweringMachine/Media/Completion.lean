import AnsweringMachine.Media.Playback
import AnsweringMachine.Media.WavPlayer

/-!
# When a message has been played

The program waits for `on_wavplayerEof_callback` after it has started a file.  The callback frees
the data it was registered with and tells the program, and the program destroys the player
(`onWavPlayerEnded`), while the player is being read.  So there is no second callback.  But the port
is gone when the callback returns, and what the callback returns decides whether `file_get_frame`
still looks at it.  That depends on a variable nobody has set.

A player is read at a tick of the clock if somebody listens to it.  At a tick at which another
player is destroyed it may be passed over, because the bridge counts ports (`Media.Clock`).

`told_iff` says what becomes of a message: nobody is told of one whose call is renewed or ends
before the reading that finds the end, and the program is told once otherwise.
-/

namespace TAM

/-- A player with its file, and what became of it: whether the data of its callback were freed, how
often the program was told, whether it was destroyed, and whether its port was looked at
afterwards. -/
structure Player (α : Type) where
  file : WavFile α
  port : FilePort α
  freed : Bool := false
  told : ℕ := 0
  destroyed : Bool := false
  dangling : Bool := false

namespace Player

variable {α : Type} [Zero α]

/-- `on_wavplayerEof_callback` of the player with the given number, up to its return.  The handler
of the program is `onWavPlayerEnded`, which destroys the player. -/
def onWavplayerEof (file : ℕ) (ua : UserAgent) (s : Player α) :
    Except Fault (UserAgent × Player α) :=
  if s.freed then .error .accessViolation
  else do
    let s := { s with freed := true, told := s.told + 1 }
    let (_, ua) ← ua.playerDestroy file
    return (ua, { s with destroyed := true })

/-- A frame is taken from the player, if there is one.  `status` says whether the variable that the
callback looks at, and does not set, holds `PJ_SUCCESS`; then the callback returns an error, and
`file_get_frame` returns without a look at its port. -/
def read (size file : ℕ) (status : Bool) (ua : UserAgent) (s : Player α) :
    Except Fault (Bool × UserAgent × Player α) :=
  let cbSuccess := !status
  let (called, frame, port) := s.file.getFrame cbSuccess size s.port
  if called then do
    let (ua, s) ← { s with port }.onWavplayerEof file ua
    return (frame.isSome, ua, { s with dangling := cbSuccess })
  else return (frame.isSome, ua, { s with port })

/-- `read_port`: frames are taken until there are enough, or one cannot be had. -/
def readPort (size file : ℕ) (status : Bool) :
    ℕ → UserAgent → Player α → Except Fault (Bool × UserAgent × Player α)
  | 0, ua, s => return (true, ua, s)
  | count + 1, ua, s => do
      let (ok, ua, s) ← s.read size file status ua
      if ok then readPort size file status count ua s else return (false, ua, s)

/-- A player may be destroyed from outside. -/
def passed (file : ℕ) (op : UserAgent.Op) (s : Player α) : Player α :=
  { s with destroyed := s.destroyed || op.releases file }

omit [Zero α] in
lemma passed_eq {file : ℕ} {op : UserAgent.Op} (hop : op.releases file = false) (s : Player α) :
    s.passed file op = s := by
  rw [passed, hop, Bool.or_false]

/-- A player that has handed out `k` frames, and has not found the end. -/
structure After (w : WavFile α) (size k : ℕ) (s : Player α) : Prop where
  file_eq : s.file = w
  reached : w.Reached (k * size) s.port
  le : k ≤ w.frames size
  freed_eq : s.freed = false
  told_eq : s.told = 0
  destroyed_eq : s.destroyed = false
  dangling_eq : s.dangling = false

/-- A player that has found the end. -/
structure Finished (status : Bool) (s : Player α) : Prop where
  told_eq : s.told = 1
  destroyed_eq : s.destroyed = true
  dangling_eq : s.dangling = !status

variable {w : WavFile α} {size k file : ℕ} {s : Player α} {R : Source → Source → Prop}
  {ua : UserAgent}

/-- **One reading**: a frame, or the end of the file. -/
lemma After.read (h : After w size k s) (hw : w.Fits size) (hgood : ua.Good R) (file : ℕ)
    (status : Bool) :
    (k < w.frames size → ∃ s', s.read size file status ua = .ok (true, ua, s') ∧
      After w size (k + 1) s') ∧
    (k = w.frames size → ∃ ua' s', s.read size file status ua = .ok (false, ua', s') ∧
      ua'.Good R ∧ Finished status s') := by
  obtain ⟨rfl, hreached, hle, hfreed, htold, hdestroyed, hdangling⟩ := h
  rw [Player.read]
  constructor
  · intro hk
    obtain ⟨port, hget, hreached'⟩ := hreached.getFrame_of_lt hw hk (!status)
    exact ⟨{ s with port }, by simp only [hget]; rfl,
      rfl, hreached', hk, hfreed, htold, hdestroyed, hdangling⟩
  · intro hk
    obtain ⟨hget, -⟩ := hreached.getFrame_of_le hw (Nat.le_of_eq hk.symm) (!status)
    obtain ⟨_, ua', hdestroy, hgood', -, -⟩ := hgood.playerDestroy file
    refine ⟨ua', { s with
      freed := true, told := s.told + 1, destroyed := true, dangling := !status }, ?_, hgood', ?_⟩
    · simp only [hget, if_true, onWavplayerEof, hfreed, Bool.false_eq_true, if_false, hdestroy,
        bind, Except.bind]
      rfl
    · exact ⟨by rw [htold], rfl, rfl⟩

/-- **A number of readings.** -/
lemma After.readPort (h : After w size k s) (hw : w.Fits size) (hgood : ua.Good R) (file : ℕ)
    (status : Bool) (count : ℕ) :
    (k + count ≤ w.frames size → ∃ s', s.readPort size file status count ua = .ok (true, ua, s') ∧
      After w size (k + count) s') ∧
    (w.frames size < k + count → ∃ ua' s',
      s.readPort size file status count ua = .ok (false, ua', s') ∧ ua'.Good R ∧
        Finished status s') := by
  induction count generalizing k s with
  | zero =>
      exact ⟨fun _ => ⟨s, rfl, h⟩, fun hlt => absurd h.le (not_le.mpr hlt)⟩
  | succ count ih =>
      obtain ⟨hframe, hend⟩ := h.read hw hgood file status
      simp only [Player.readPort]
      rcases h.le.lt_or_eq with hk | hk
      · obtain ⟨s₁, hok, h₁⟩ := hframe hk
        rw [hok, ← Nat.add_assoc, Nat.add_right_comm]
        exact ih h₁
      · obtain ⟨ua₁, s₁, hok, hgood₁, hfinished⟩ := hend hk
        refine ⟨fun hle => absurd hle (by omega), fun _ => ⟨ua₁, s₁, ?_, hgood₁, hfinished⟩⟩
        rw [hok]
        rfl

omit [Zero α] in
/-- It is not among the players that are destroyed when other ports are read. -/
lemma After.not_gone (h : After w size k s) {c n : ℕ} :
    ¬ ∃ f d m, Source.player file c n = .player f d m ∧ (f = file → s.destroyed) := by
  rintro ⟨f, d, m, heq, hdestroyed⟩
  obtain ⟨rfl, -⟩ := Source.player.inj heq
  simp [h.destroyed_eq] at hdestroyed

end Player

/-! ## The clock -/

namespace UserAgent

/-- A tick of the clock: what can be heard, how many frames are taken from the player so that the
bridge has enough for a frame of its own, which other players come to the end of their files when
they are read, and what is in the variable that the callback does not set. -/
structure Tick where
  audible : ℕ → Bool
  count : ℕ
  ended : ℕ → Bool
  status : Bool

/-- Something happens to calls, or the clock of the bridge ticks. -/
inductive Event
  | op (op : Op)
  | tick (t : Tick)

variable {α : Type} [Zero α]

/-- The port at a slot is read.  The player that is watched has the number `file`; when it has been
destroyed, the number may be that of another. -/
def readSlot (size file : ℕ) (t : Tick) (i : ℕ) (σ : UserAgent × Player α) :
    Except Fault (Bool × UserAgent × Player α) :=
  match σ.1.conf.source i with
  | some (.player f _ _) =>
      if f = file ∧ ¬ σ.2.destroyed then do
        let (ok, σ) ← σ.2.readPort size file t.status t.count σ.1
        return (ok && t.audible i, σ)
      else if t.ended f then do
        let (_, ua) ← σ.1.playerDestroy f
        return (false, ua, σ.2)
      else return (t.audible i, σ)
  | some .sound | some (.call _ _) | none => return (t.audible i, σ)

def tick (size file : ℕ) (t : Tick) (σ : UserAgent × Player α) :
    Except Fault (UserAgent × Player α) :=
  Conf.getFrame (fun σ => σ.1.conf) (readSlot size file t) σ

/-- A run, as far as it concerns one player. -/
def watch (size file : ℕ) :
    UserAgent × Player α → List Event → Except Fault (UserAgent × Player α)
  | σ, [] => .ok σ
  | (ua, s), .op op :: events => do
      let (_, ua) ← ua.step op
      watch size file (ua, s.passed file op) events
  | σ, .tick t :: events => do
      let σ ← tick size file t σ
      watch size file σ events

/-- The frames that are asked for before media of a call is negotiated anew, the call ends or the
player is destroyed from outside. -/
def asked (c file : ℕ) : List Event → ℕ
  | [] => 0
  | .op op :: events => if op.cuts c ∨ op.releases file then 0 else asked c file events
  | .tick t :: events => t.count + asked c file events

/-- No other player comes to the end of its file at a tick. -/
def Tick.Alone (file : ℕ) (t : Tick) : Prop := ∀ f, f ≠ file → t.ended f = false

variable {R : Source → Source → Prop} {ua : UserAgent} {s : Player α} {w : WavFile α}
  {size k file c n i : ℕ} {t : Tick} {σ : UserAgent × Player α} {events : List Event}

/-- **Another port is read**: it may be destroyed, and nothing else happens. -/
lemma Good.readSlot_other (h : σ.1.Good R) {j : ℕ}
    (hother : ∀ d m, σ.1.conf.source j = some (.player file d m) → σ.2.destroyed) (size : ℕ)
    (t : Tick) :
    ∃ audible ua', readSlot size file t j σ = .ok (audible, ua', σ.2) ∧ ua'.Good R ∧
      Later (fun a => ∃ f d m, a = .player f d m ∧ (f = file → σ.2.destroyed)) σ.1 ua' ∧
      (t.Alone file → σ.2.destroyed = false → ua' = σ.1) := by
  have hsame : ∃ audible ua', (Except.ok (t.audible j, σ) : Except Fault _) =
      .ok (audible, ua', σ.2) ∧ ua'.Good R ∧
      Later (fun a => ∃ f d m, a = .player f d m ∧ (f = file → σ.2.destroyed)) σ.1 ua' ∧
      (t.Alone file → σ.2.destroyed = false → ua' = σ.1) :=
    ⟨_, σ.1, rfl, h, .of_conf rfl rfl le_rfl, fun _ _ => rfl⟩
  rw [readSlot]
  rcases hs : σ.1.conf.source j with _ | _ | ⟨d, m⟩ | ⟨f, d, m⟩
  · exact hsame
  · exact hsame
  · exact hsame
  · have hf : f = file → σ.2.destroyed := fun hf => hother d m (hf ▸ hs)
    have hnot : ¬ (f = file ∧ ¬ σ.2.destroyed) := fun hand => hand.2 (hf hand.1)
    simp only [if_neg hnot]
    by_cases hended : t.ended f
    · obtain ⟨_, ua', hok, hgood, hlater, -⟩ := h.playerDestroy f
      refine ⟨false, ua', ?_, hgood, hlater.mono ?_, fun halone hdestroyed => ?_⟩
      · simp only [if_pos hended, hok, bind, Except.bind]
        rfl
      · rintro a ⟨d', m', rfl⟩
        exact ⟨f, d', m', rfl, hf⟩
      · have hne : f ≠ file := fun heq => by simp [hf heq] at hdestroyed
        simp [halone f hne] at hended
    · rw [if_neg hended]
      exact hsame

/-- There is always a port to follow at slot 0. -/
lemma Good.getFrame_ok (h : ua.Good R) : ua.conf.Consistent ∧ (ua.conf.ports 0).isSome := by
  refine ⟨h.inv.consistent, ?_⟩
  rw [← Conf.isSome_source, (h.inv.sound_iff 0).mpr rfl]
  rfl

/-! ### A player that is destroyed, or whose session is over -/

lemma Good.tick_destroyed (h : σ.1.Good R) (hs : σ.2.destroyed) (size file : ℕ) (t : Tick) :
    ∃ ua', tick size file t σ = .ok (ua', σ.2) ∧ ua'.Good R := by
  let J : List ℕ → UserAgent × Player α → Prop := fun _ σ' => σ'.1.Good R ∧ σ'.2 = σ.2
  have hread : ∀ j is σ', J (j :: is) σ' → σ'.1.conf.listeners j ≠ [] →
      ∃ audible σ'', readSlot size file t j σ' = .ok (audible, σ'') ∧ J is σ'' := by
    rintro j is σ' ⟨hgood, heq⟩ -
    obtain ⟨audible, ua', hok, hgood', -⟩ := hgood.readSlot_other (fun _ _ _ => heq ▸ hs) size t
    exact ⟨audible, _, hok, hgood', heq⟩
  obtain ⟨⟨ua', s'⟩, hok, hgood, rfl⟩ := Conf.getFrame_rule (J := J) (s := σ)
    (fun _ _ hσ => hσ.1.getFrame_ok) (fun _ _ _ => id) hread ⟨h, rfl⟩
  exact ⟨ua', hok, hgood⟩

/-- Nothing happens to a player that has been destroyed. -/
lemma Good.watch_destroyed (h : σ.1.Good (Talks fun _ _ => True)) (hs : σ.2.destroyed)
    (size file : ℕ) (events : List Event) :
    ∃ ua', watch size file σ events = .ok (ua', σ.2) := by
  induction events generalizing σ with
  | nil => exact ⟨σ.1, rfl⟩
  | cons event events ih =>
      cases event with
      | op op =>
          obtain ⟨_, ua₁, hok, hgood, -⟩ := h.step op fun _ _ _ _ _ => trivial
          have hsame : σ.2.passed file op = σ.2 := by rw [Player.passed, hs, Bool.true_or, ← hs]
          simp only [watch, hok, bind, Except.bind, hsame]
          exact ih (σ := (ua₁, σ.2)) hgood hs
      | tick t =>
          obtain ⟨ua₁, hok, hgood⟩ := h.tick_destroyed hs size file t
          simp only [watch, hok, bind, Except.bind]
          exact ih (σ := (ua₁, σ.2)) hgood hs

/-- A player whose session is over, and that has not found the end. -/
structure Unheard (file c n : ℕ) (w : WavFile α) (size k : ℕ) (σ : UserAgent × Player α) :
    Prop where
  cut : Over file c n σ.1
  after : σ.2.After w size k

/-- It is not read. -/
lemma Unheard.tick (h : Unheard file c n w size k σ) (t : Tick) :
    ∃ σ', tick size file t σ = .ok σ' ∧ Unheard file c n w size k σ' := by
  let J : List ℕ → UserAgent × Player α → Prop := fun _ => Unheard file c n w size k
  have hread : ∀ j is σ, J (j :: is) σ → σ.1.conf.listeners j ≠ [] →
      ∃ audible σ', readSlot size file t j σ = .ok (audible, σ') ∧ J is σ' := by
    intro j is σ hσ hlisteners
    have hinv := hσ.cut.good.inv
    obtain ⟨i, hi⟩ := hσ.cut.present
    have hother : ∀ d m, σ.1.conf.source j = some (.player file d m) → σ.2.destroyed := by
      intro d m hj
      obtain rfl : j = i := hinv.player_slot_eq hj hi
      exact absurd (hσ.cut.listeners_eq hi) hlisteners
    obtain ⟨audible, ua', hok, hgood, hlater, -⟩ := hσ.cut.good.readSlot_other hother size t
    exact ⟨audible, (ua', σ.2), hok, hσ.cut.later hlater hgood hσ.after.not_gone, hσ.after⟩
  exact Conf.getFrame_rule (J := J) (fun _ _ hσ => hσ.cut.good.getFrame_ok) (fun _ _ _ => id)
    hread h

/-- Nobody is told of it. -/
lemma Unheard.watch (h : Unheard file c n w size k σ) (events : List Event) :
    ∃ σ', watch size file σ events = .ok σ' ∧ σ'.2.told = 0 ∧ σ'.2.dangling = false := by
  induction events generalizing σ with
  | nil => exact ⟨σ, rfl, h.after.told_eq, h.after.dangling_eq⟩
  | cons event events ih =>
      cases event with
      | op op =>
          obtain ⟨_, ua₁, hok, hgood, hpassed⟩ := h.cut.good.step op fun _ _ _ _ _ => trivial
          simp only [UserAgent.watch, hok, bind, Except.bind]
          cases hrelease : op.releases file with
          | false =>
              rw [Player.passed_eq hrelease]
              exact ih ⟨h.cut.later hpassed.later hgood
                (not_ends_player (by simpa using hrelease)), h.after⟩
          | true =>
              obtain ⟨ua', hwatch⟩ := Good.watch_destroyed (σ := (ua₁, σ.2.passed file op)) hgood
                (by simp [Player.passed, hrelease]) size file events
              exact ⟨_, hwatch, h.after.told_eq, h.after.dangling_eq⟩
      | tick t =>
          obtain ⟨σ₁, hok, h₁⟩ := h.tick t
          simp only [UserAgent.watch, hok, bind, Except.bind]
          exact ih h₁

/-! ### A player that is heard -/

/-- A player at a slot is heard, and has handed out `k` frames. -/
structure Playing (file c n i : ℕ) (w : WavFile α) (size k : ℕ) (σ : UserAgent × Player α) :
    Prop where
  connected : Connected file c n σ.1
  slot : σ.1.conf.source i = some (.player file c n)
  after : σ.2.After w size k

/-- The program has been told, and the player is gone. -/
structure Told (status : Bool) (σ : UserAgent × Player α) : Prop where
  good : σ.1.Good (Talks fun _ _ => True)
  finished : σ.2.Finished status

/-- What a tick comes to at which the player is read. -/
def Read (file c n i : ℕ) (w : WavFile α) (size k : ℕ) (t : Tick) (σ : UserAgent × Player α) :
    Prop :=
  k + t.count ≤ w.frames size ∧ Playing file c n i w size (k + t.count) σ ∨
    w.frames size < k + t.count ∧ Told t.status σ

omit [Zero α] in
lemma Playing.eq_slot (h : Playing file c n i w size k σ) {j d m : ℕ}
    (hj : σ.1.conf.source j = some (.player file d m)) : j = i :=
  h.connected.good.inv.player_slot_eq hj h.slot

omit [Zero α] in
lemma Playing.listeners_ne (h : Playing file c n i w size k σ) : σ.1.conf.listeners i ≠ [] := by
  obtain ⟨i', j, hi, -, he⟩ := h.connected.heard
  obtain rfl := h.eq_slot hi
  exact List.ne_nil_of_mem (h.connected.good.inv.consistent.mem_edges.mp he)

/-- Another port is read. -/
lemma Playing.readSlot_other (h : Playing file c n i w size k σ) {j : ℕ} (hj : j ≠ i) (t : Tick) :
    ∃ audible σ', readSlot size file t j σ = .ok (audible, σ') ∧
      Playing file c n i w size k σ' ∧ (t.Alone file → σ' = σ) := by
  obtain ⟨audible, ua', hok, hgood, hlater, halone⟩ := h.connected.good.readSlot_other
    (fun d m hs => absurd (h.eq_slot hs) hj) size t
  have hplayer : ¬ ∃ f d m, Source.player file c n = .player f d m ∧
      (f = file → σ.2.destroyed) := h.after.not_gone
  refine ⟨audible, (ua', σ.2), hok, ⟨h.connected.later hlater hgood hplayer ?_,
    hlater.kept i _ h.slot hplayer, h.after⟩, fun ht => ?_⟩
  · rintro ⟨f, d, m, heq, -⟩
    exact Source.noConfusion heq
  · rw [halone ht h.after.destroyed_eq]

/-- The player itself is read. -/
lemma Playing.readSlot_self (h : Playing file c n i w size k σ) (hw : w.Fits size) (t : Tick) :
    ∃ audible σ', readSlot size file t i σ = .ok (audible, σ') ∧
      Read file c n i w size k t σ' := by
  have hown : readSlot size file t i σ = (do
      let (ok, σ) ← σ.2.readPort size file t.status t.count σ.1
      return (ok && t.audible i, σ)) := by
    rw [readSlot, h.slot]
    exact if_pos ⟨rfl, by simp [h.after.destroyed_eq]⟩
  obtain ⟨hframes, hend⟩ := h.after.readPort hw h.connected.good file t.status t.count
  rw [hown]
  rcases le_or_gt (k + t.count) (w.frames size) with hle | hlt
  · obtain ⟨s', hok, hafter⟩ := hframes hle
    exact ⟨t.audible i, (σ.1, s'), by rw [hok]; rfl, .inl ⟨hle, h.connected, h.slot, hafter⟩⟩
  · obtain ⟨ua', s', hok, hgood, hfinished⟩ := hend hlt
    exact ⟨false, (ua', s'), by rw [hok]; rfl, .inr ⟨hlt, hgood, hfinished⟩⟩

/-- When it has been read, other ports are. -/
lemma Read.readSlot_other (h : Read file c n i w size k t σ) {j : ℕ} (hj : j ≠ i) :
    ∃ audible σ', readSlot size file t j σ = .ok (audible, σ') ∧
      Read file c n i w size k t σ' := by
  rcases h with ⟨hle, hplaying⟩ | ⟨hlt, htold⟩
  · obtain ⟨audible, σ', hok, h', -⟩ := hplaying.readSlot_other hj t
    exact ⟨audible, σ', hok, .inl ⟨hle, h'⟩⟩
  · obtain ⟨audible, ua', hok, hgood, -⟩ :=
      htold.good.readSlot_other (fun _ _ _ => htold.finished.destroyed_eq) size t
    exact ⟨audible, (ua', σ.2), hok, .inr ⟨hlt, hgood, htold.finished⟩⟩

omit [Zero α] in
lemma Read.good (h : Read file c n i w size k t σ) : σ.1.Good (Talks fun _ _ => True) := by
  rcases h with ⟨-, h⟩ | ⟨-, h⟩
  · exact h.connected.good
  · exact h.good

/-- A tick at which no other player is destroyed: the player is read. -/
lemma Playing.tick_of_alone (h : Playing file c n i w size k σ) (hw : w.Fits size)
    (halone : t.Alone file) :
    ∃ σ', tick size file t σ = .ok σ' ∧ Read file c n i w size k t σ' := by
  let J : List ℕ → UserAgent × Player α → Prop := fun is σ =>
    i ∉ is ∧ Read file c n i w size k t σ
  have hread : ∀ j is σ, J (j :: is) σ → σ.1.conf.listeners j ≠ [] →
      ∃ audible σ', readSlot size file t j σ = .ok (audible, σ') ∧ J is σ' := by
    rintro j is σ ⟨hnot, hσ⟩ -
    rw [List.mem_cons, not_or] at hnot
    obtain ⟨audible, σ', hok, h'⟩ := hσ.readSlot_other (Ne.symm hnot.1)
    exact ⟨audible, σ', hok, hnot.2, h'⟩
  have hidle : ∀ j ≠ i, ∃ audible, readSlot size file t j σ = .ok (audible, σ) := by
    intro j hj
    obtain ⟨audible, σ', hok, -, heq⟩ := h.readSlot_other hj t
    exact ⟨audible, heq halone ▸ hok⟩
  have hfirst : ∀ is, i ∉ is →
      ∃ audible σ', readSlot size file t i σ = .ok (audible, σ') ∧ J is σ' := by
    intro is his
    obtain ⟨audible, σ', hok, h'⟩ := h.readSlot_self hw t
    exact ⟨audible, σ', hok, his, h'⟩
  obtain ⟨σ', hok, -, h'⟩ := Conf.getFrame_rule_of_idle (J := J)
    (fun _ _ hσ => hσ.2.good.getFrame_ok)
    (fun j is _ hσ => ⟨fun hmem => hσ.1 (List.mem_cons_of_mem j hmem), hσ.2⟩) hread
    h.connected.good.inv.consistent hidle h.listeners_ne hfirst
  exact ⟨σ', hok, h'⟩

/-- **A tick**: the player is read, or passed over because another was destroyed. -/
lemma Playing.tick (h : Playing file c n i w size k σ) (hw : w.Fits size) (t : Tick) :
    ∃ σ', tick size file t σ = .ok σ' ∧
      (Read file c n i w size k t σ' ∨ ¬ t.Alone file ∧ Playing file c n i w size k σ') := by
  by_cases halone : t.Alone file
  · obtain ⟨σ', hok, h'⟩ := h.tick_of_alone hw halone
    exact ⟨σ', hok, .inl h'⟩
  -- slots are all different, so that the player is read once at most
  let J : List ℕ → UserAgent × Player α → Prop := fun is σ => is.Nodup ∧
    (Playing file c n i w size k σ ∨ i ∉ is ∧ Read file c n i w size k t σ)
  have hskip : ∀ j is σ, J (j :: is) σ → J is σ := by
    rintro j is σ ⟨hnodup, hσ⟩
    exact ⟨hnodup.of_cons, hσ.imp_right (And.imp_left fun hnot hmem =>
      hnot (List.mem_cons_of_mem j hmem))⟩
  have hread : ∀ j is σ, J (j :: is) σ → σ.1.conf.listeners j ≠ [] →
      ∃ audible σ', readSlot size file t j σ = .ok (audible, σ') ∧ J is σ' := by
    rintro j is σ ⟨hnodup, hσ⟩ -
    rw [List.nodup_cons] at hnodup
    rcases hσ with hplaying | ⟨hnot, hσ⟩
    · by_cases hj : j = i
      · subst hj
        obtain ⟨audible, σ', hok, h'⟩ := hplaying.readSlot_self hw t
        exact ⟨audible, σ', hok, hnodup.2, .inr ⟨hnodup.1, h'⟩⟩
      · obtain ⟨audible, σ', hok, h', -⟩ := hplaying.readSlot_other hj t
        exact ⟨audible, σ', hok, hnodup.2, .inl h'⟩
    · rw [List.mem_cons, not_or] at hnot
      obtain ⟨audible, σ', hok, h'⟩ := hσ.readSlot_other (Ne.symm hnot.1)
      exact ⟨audible, σ', hok, hnodup.2, .inr ⟨hnot.2, h'⟩⟩
  obtain ⟨σ', hok, -, h'⟩ := Conf.getFrame_rule (J := J) (s := σ)
    (fun _ _ hσ => (hσ.2.elim (fun hp => hp.connected.good) fun hr => hr.2.good).getFrame_ok)
    hskip hread ⟨List.nodup_range, .inl h⟩
  exact ⟨σ', hok, h'.elim (fun hp => .inr ⟨halone, hp⟩) fun hr => .inl hr.2⟩

/-! ### Whole runs -/

/-- What became of a player of a file with the given number of frames, when so many were asked
for. -/
structure Outcome (file frames asked : ℕ) (events : List Event) (s : Player α) : Prop where
  told_le : s.told ≤ 1
  destroyed : s.told = 1 → s.destroyed
  /-- Nobody is told before the end is found. -/
  early : asked ≤ frames → s.told = 0
  /-- If no other player comes to its end at a tick, the end is found. -/
  found : (∀ t, .tick t ∈ events → t.Alone file) → s.told = if frames < asked then 1 else 0
  /-- The port is looked at after it was destroyed if the variable has the wrong value. -/
  dangling_iff : ∀ v, (∀ t, .tick t ∈ events → t.status = v) →
    (s.dangling ↔ s.told = 1 ∧ v = false)

section Outcomes

variable {frames total : ℕ} {event : Event}

omit [Zero α]

/-- Nobody was told. -/
lemma Outcome.of_quiet (htold : s.told = 0) (hdangling : s.dangling = false)
    (hle : total ≤ frames) : Outcome file frames total events s where
  told_le := by omega
  destroyed := fun h => absurd h (by omega)
  early := fun _ => htold
  found := fun _ => by rw [htold, if_neg (not_lt.mpr hle)]
  dangling_iff := fun _ _ => by simp [htold, hdangling]

lemma Outcome.cons (h : Outcome file frames total events s) (event : Event) :
    Outcome file frames total (event :: events) s :=
  { h with
    found := fun halone => h.found fun t ht => halone t (List.mem_cons_of_mem event ht)
    dangling_iff := fun v hv => h.dangling_iff v fun t ht => hv t (List.mem_cons_of_mem event ht) }

/-- The program was told at a tick. -/
lemma Outcome.of_finished {status : Bool} (h : s.Finished status) (ht : t.status = status)
    (hlt : frames < total) : Outcome file frames total (.tick t :: events) s where
  told_le := h.told_eq.le
  destroyed := fun _ => h.destroyed_eq
  early := fun hle => absurd hle (not_le.mpr hlt)
  found := fun _ => by rw [h.told_eq, if_pos hlt]
  dangling_iff := fun v hv => by
    rw [h.dangling_eq, ← ht, hv t List.mem_cons_self, h.told_eq]
    cases v <;> simp

/-- The player was passed over at a tick. -/
lemma Outcome.of_passed (h : Outcome file frames total events s) (ht : ¬ t.Alone file) {more : ℕ}
    (hle : total ≤ more) : Outcome file frames more (.tick t :: events) s :=
  { h.cons (.tick t) with
    early := fun hmore => h.early (hle.trans hmore)
    found := fun halone => absurd (halone t List.mem_cons_self) ht }

end Outcomes

lemma Playing.watch (h : Playing file c n i w size k σ) (hw : w.Fits size) (events : List Event) :
    ∃ σ', watch size file σ events = .ok σ' ∧
      Outcome file (w.frames size) (k + asked c file events) events σ'.2 := by
  induction events generalizing σ k with
  | nil => exact ⟨σ, rfl, .of_quiet h.after.told_eq h.after.dangling_eq h.after.le⟩
  | cons event events ih =>
      cases event with
      | op op =>
          obtain ⟨_, ua₁, hok, hgood, hpassed⟩ :=
            h.connected.good.step op fun _ _ _ _ _ => trivial
          simp only [UserAgent.watch, hok, bind, Except.bind, asked]
          cases hrelease : op.releases file with
          | true =>
              obtain ⟨ua', hwatch⟩ := Good.watch_destroyed (σ := (ua₁, σ.2.passed file op)) hgood
                (by simp [Player.passed, hrelease]) size file events
              refine ⟨_, hwatch, .of_quiet h.after.told_eq h.after.dangling_eq ?_⟩
              simpa using h.after.le
          | false =>
              have hkept : ∀ o ∈ [op], o.releases file = false := by simpa using hrelease
              obtain ⟨hstays, hover⟩ := h.connected.passed hpassed hgood hkept
              rw [Player.passed_eq hrelease]
              cases hcut : op.cuts c with
              | true =>
                  obtain ⟨σ', hwatch, htold, hdangling⟩ := Unheard.watch (σ := (ua₁, σ.2))
                    ⟨hover ⟨op, List.mem_singleton_self op, hcut⟩, h.after⟩ events
                  refine ⟨σ', hwatch, .of_quiet htold hdangling ?_⟩
                  simpa using h.after.le
              | false =>
                  have h₁ : Playing file c n i w size k (ua₁, σ.2) :=
                    ⟨hstays (by simpa using hcut),
                      hpassed.later.kept i _ h.slot (not_ends_player hkept), h.after⟩
                  obtain ⟨σ', hwatch, houtcome⟩ := ih h₁
                  exact ⟨σ', hwatch, by simpa using houtcome.cons (.op op)⟩
      | tick t =>
          obtain ⟨σ₁, hok, hread⟩ := h.tick hw t
          simp only [UserAgent.watch, hok, bind, Except.bind, asked]
          rcases hread with (⟨-, h₁⟩ | ⟨hlt, htold⟩) | ⟨halone, h₁⟩
          · obtain ⟨σ', hwatch, houtcome⟩ := ih h₁
            rw [Nat.add_assoc] at houtcome
            exact ⟨σ', hwatch, houtcome.cons (.tick t)⟩
          · obtain ⟨ua', hwatch⟩ :=
              htold.good.watch_destroyed htold.finished.destroyed_eq size file events
            exact ⟨_, hwatch, .of_finished htold.finished rfl (by omega)⟩
          · obtain ⟨σ', hwatch, houtcome⟩ := ih h₁
            exact ⟨σ', hwatch, houtcome.of_passed halone (by omega)⟩

/-- **What becomes of a message.**  A file whose frames are not empty is started for a call at any
time of any run, and then anything happens to the calls while the clock ticks.  Let `asked` be the
number of frames the bridge asks the player for before media of the call is negotiated anew, the
call ends or the player is destroyed from outside.  Nothing ever fails; the program is told at most
once that the file has been played, and its player is destroyed then; it is never told if `asked` is
at most the number of frames; and if no other player is destroyed at a tick, it is told if `asked`
is more.  The port is looked at after it was destroyed if, and only if, the variable that the
callback does not set does not hold `PJ_SUCCESS` then. -/
theorem told_iff {h : WavHeader} {data : List α} {ptime : UInt32} {p : FilePort α}
    {maxCalls maxPorts channelCount played : ℕ} {wav : Wav} {ops : List Op} {ua₁ : UserAgent}
    (hmax : 0 < maxPorts)
    (hrun : (create maxCalls maxPorts channelCount).run ops = .ok (ua, played))
    (hplay : ua.dllPlayWav c wav = .ok (some file, ua₁))
    (hopen : wavPlayerPortCreate h data ptime true = .ok (w, p))
    (hsize : size = (h.frameSize (normalizePtime ptime)).toNat) (hpos : 0 < size)
    (events : List Event) :
    ∃ ua₂ s, watch size file (ua₁, { file := w, port := p }) events = .ok (ua₂, s) ∧
      Outcome file (w.frames size) (asked c file events) events s := by
  obtain ⟨hw, hreached⟩ := reached_of_create hopen hsize hpos
  obtain ⟨n, hconnected⟩ := connected_of_playWav hmax hrun hplay
  obtain ⟨i, -, hi, -, -⟩ := hconnected.heard
  have hplaying : Playing file c n i w size 0 (ua₁, { file := w, port := p }) :=
    ⟨hconnected, hi, rfl, by rwa [Nat.zero_mul], Nat.zero_le _, rfl, rfl, rfl, rfl⟩
  obtain ⟨⟨ua₂, s⟩, hwatch, houtcome⟩ := hplaying.watch hw events
  rw [Nat.zero_add] at houtcome
  exact ⟨ua₂, s, hwatch, houtcome⟩

/-- A file of two frames, and three ticks. -/
theorem told_iff_third :
    ∃ ua played ua₁ w p, (create 1 4 1).run [.newCall 0,
        .mediaUpdate 0 (.active .ENCODING_DECODING 1 none)] = .ok (ua, played) ∧
      ua.dllPlayWav 0 (.ok (1, none)) = .ok (some 0, ua₁) ∧
      wavPlayerPortCreate ⟨.ULAW, 1, 1000, 8, 1, 25⟩ (List.range 25) 20 true = .ok (w, p) ∧
      ∃ ua₂ s, watch 20 0 (ua₁, { file := w, port := p })
          (List.replicate 3 (.tick ⟨fun _ => true, 1, fun _ => false, true⟩)) = .ok (ua₂, s) ∧
        s.told = 1 ∧ s.destroyed ∧ ¬ s.dangling := by
  obtain ⟨ua, played, ua₁, hrun, hplay⟩ := exists_playing
  have hopen : wavPlayerPortCreate ⟨.ULAW, 1, 1000, 8, 1, 25⟩ (List.range 25) 20 true =
      .ok (_, _) := rfl
  obtain ⟨ua₂, s, hwatch, houtcome⟩ := told_iff (by decide) hrun hplay hopen
    (by decide : 20 = _) (by decide)
    (List.replicate 3 (.tick ⟨fun _ => true, 1, fun _ => false, true⟩))
  have htold : s.told = 1 := houtcome.found (by simp [Tick.Alone])
  refine ⟨ua, played, ua₁, _, _, hrun, hplay, hopen, ua₂, s, hwatch, htold,
    houtcome.destroyed htold, ?_⟩
  rw [houtcome.dangling_iff true (by simp)]
  simp

end UserAgent

end TAM
