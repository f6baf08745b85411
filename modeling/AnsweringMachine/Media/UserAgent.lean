import AnsweringMachine.Media.Clock

/-!
# Calls, players and the bridge

The user agent of the stack puts the stream of a call on the conference bridge whenever media has
been negotiated, and takes it off again when it is negotiated anew or the call ends.  The wrapper
connects the call with the sound device, and a file that is to be played with the call it is played
to.  When a file has ended, the program destroys its player (`dll_releaseWav`).

The source of a port says whose it is.  A media session of a call has a number, and a player keeps
the number of the session it was started for, so that a slot that is used again is not mistaken for
the one it was before.

`UserAgent.Inv` ties slots to their owners, and `Isolated` says which connections there may be.
Here are the lemmas about calls; those about players, and whole runs, are in `Media.Playback`.
-/

namespace TAM

/-- What stands behind a port. -/
inductive Source
  | sound
  | call (callId session : ℕ)
  | player (file callId session : ℕ)
  deriving DecidableEq, Repr

/-- `pjsua_call_media_status`, without the error that is never set. -/
inductive MediaStatus
  | NONE
  | ACTIVE
  | LOCAL_HOLD
  | REMOTE_HOLD
  deriving DecidableEq, Repr

/-- `pjmedia_dir` of an active stream. -/
inductive MediaDir
  | ENCODING
  | DECODING
  | ENCODING_DECODING
  deriving DecidableEq, Repr

/-- A call of the user agent (`pjsua_call`): whether it is in use, whether it has a media session,
its slot on the bridge, the state of its media, and whether it was put on hold from here. -/
structure CallMedia where
  inv : Bool := false
  session : Bool := false
  confSlot : Option ℕ := none
  mediaSt : MediaStatus := .NONE
  localHold : Bool := false
  deriving DecidableEq, Repr

/-- The user agent.  `player` has the slots of the players there are. -/
structure UserAgent where
  maxCalls : ℕ
  conf : Conf Source
  calls : ℕ → CallMedia := fun _ => {}
  player : ℕ → Option ℕ := fun _ => none
  playerCnt : ℕ := 0
  /-- How many media sessions there have been. -/
  sessions : ℕ := 0

/-- `PJSUA_MAX_PLAYERS`. -/
def maxPlayers : ℕ := 32

namespace UserAgent

def setCall (ua : UserAgent) (c : ℕ) (call : CallMedia) : UserAgent :=
  { ua with calls := Function.update ua.calls c call }

/-- What `pjsua_call_get_info` tells about media. -/
structure CallInfo where
  mediaStatus : MediaStatus
  confSlot : Option ℕ
  deriving DecidableEq, Repr

/-- `pjsua_call_get_info`.  The description of a call that is not in use is all zeros. -/
def callGetInfo (ua : UserAgent) (c : ℕ) : CallInfo :=
  if (ua.calls c).inv then ⟨(ua.calls c).mediaSt, (ua.calls c).confSlot⟩ else ⟨.NONE, some 0⟩

/-- `pjsua_conf_connect`; an invalid slot is out of range. -/
def confConnect (ua : UserAgent) (source sink : Option ℕ) : Except Fault (PjStatus × UserAgent) :=
  match source, sink with
  | some source, some sink => do
      let (status, conf) ← ua.conf.connectPort source sink
      return (status, { ua with conf })
  | _, _ => return (.PJ_EINVAL, ua)

/-- `stop_media_session`. -/
def stopMediaSession (ua : UserAgent) (c : ℕ) : Except Fault UserAgent := do
  let call := { ua.calls c with confSlot := none, session := false, mediaSt := .NONE }
  match (ua.calls c).confSlot with
  | none => return ua.setCall c call
  | some slot =>
      let (_, conf) ← ua.conf.removePort slot
      return { ua with conf }.setCall c call

/-- What is made of the descriptions that were negotiated: no session can be made of them, media is
inactive, or a stream with a direction and a number of channels, which the bridge may fail to
take. -/
inductive Negotiated
  | failed (code : ℕ)
  | inactive
  | active (dir : MediaDir) (channelCount : ℕ) (failure : Option ℕ)
  deriving DecidableEq, Repr

/-- `pjsua_media_channel_update`. -/
def mediaChannelUpdate (ua : UserAgent) (c : ℕ) (n : Negotiated) :
    Except Fault (PjStatus × UserAgent) := do
  let ua ← ua.stopMediaSession c
  match n with
  | .failed code => return (.error code, ua)
  | .inactive => return (.PJ_SUCCESS, ua)
  | .active dir channelCount failure =>
      let call := { ua.calls c with session := true }
      let (status, slot, conf) ← ua.conf.addPort (.call c ua.sessions) channelCount failure
      let ua := { ua with conf, sessions := ua.sessions + 1 }
      match slot with
      | none => return (status, ua.setCall c call)
      | some slot =>
          let mediaSt :=
            if call.localHold then .LOCAL_HOLD
            else if dir = .DECODING then .REMOTE_HOLD
            else .ACTIVE
          return (.PJ_SUCCESS, ua.setCall c { call with confSlot := some slot, mediaSt })

/-- `on_call_media_state` of the wrapper, with the options it starts with: the call is connected
with the sound device. -/
def onCallMediaState (ua : UserAgent) (c : ℕ) : Except Fault UserAgent := do
  let info := ua.callGetInfo c
  if info.mediaStatus = .ACTIVE ∨ info.mediaStatus = .REMOTE_HOLD then
    let (_, ua) ← ua.confConnect info.confSlot (some 0)
    let (_, ua) ← ua.confConnect (some 0) info.confSlot
    return ua
  else return ua

/-- `pjsua_call_on_media_update`, for descriptions that were agreed on. -/
def onMediaUpdate (ua : UserAgent) (c : ℕ) (n : Negotiated) : Except Fault UserAgent := do
  let (status, ua) ← ua.mediaChannelUpdate c n
  if status = .PJ_SUCCESS then ua.onCallMediaState c else return ua

/-- `pjsua_call_on_state_changed` for `PJSIP_INV_STATE_DISCONNECTED`, with `reset_call`. -/
def onDisconnected (ua : UserAgent) (c : ℕ) : Except Fault UserAgent := do
  let ua ← ua.stopMediaSession c
  return ua.setCall c
    { ua.calls c with inv := false, session := false, confSlot := none, localHold := false }

/-- The start of a call in a free place, with `reset_call`. -/
def newCall (ua : UserAgent) (c : ℕ) : UserAgent :=
  ua.setCall c
    { ua.calls c with inv := true, session := false, confSlot := none, localHold := false }

/-- What comes of opening a file: an error, or its number of channels and what the bridge says. -/
abbrev Wav := Except ℕ (ℕ × Option ℕ)

/-- `pjsua_player_create`, with the call a player is for. -/
def playerCreate (ua : UserAgent) (c session : ℕ) (wav : Wav) :
    Except Fault (PjStatus × Option ℕ × UserAgent) := do
  if maxPlayers ≤ ua.playerCnt then return (.PJ_ETOOMANY, none, ua)
  else
    match (List.range maxPlayers).find? (fun file => (ua.player file).isNone), wav with
    | none, _ => return (.error 0, none, ua)
    | some _, .error code => return (.error code, none, ua)
    | some file, .ok (channelCount, failure) =>
        let (status, slot, conf) ←
          ua.conf.addPort (.player file c session) channelCount failure
        match slot with
        | none => return (status, none, { ua with conf })
        | some slot =>
            return (.PJ_SUCCESS, some file,
              { ua with
                conf
                player := Function.update ua.player file (some slot)
                playerCnt := ua.playerCnt + 1 })

/-- The number of the media session of a call. -/
def sessionOf (ua : UserAgent) (c : ℕ) : ℕ :=
  match (ua.calls c).confSlot.bind ua.conf.source with
  | some (.call _ session) => session
  | _ => 0

/-- `dll_playWav`.  It returns the number of the player, or that there is none. -/
def dllPlayWav (ua : UserAgent) (c : ℕ) (wav : Wav) : Except Fault (Option ℕ × UserAgent) := do
  let info := ua.callGetInfo c
  if info.mediaStatus ≠ .ACTIVE then return (none, ua)
  else
    let (_, file, ua) ← ua.playerCreate c (ua.sessionOf c) wav
    match file with
    | none => return (none, ua)
    | some file =>
        if info.confSlot ≠ some 0 then
          let (status, ua) ← ua.confConnect (ua.player file) info.confSlot
          return (if status = .PJ_SUCCESS then some file else none, ua)
        else return (some file, ua)

/-- `pjsua_enum_calls`. -/
def enumCalls (ua : UserAgent) : List ℕ := (List.range ua.maxCalls).filter fun c => (ua.calls c).inv

/-- `dll_makeConference`. -/
def dllMakeConference (ua : UserAgent) (callId : ℕ) : Except Fault UserAgent :=
  let info := ua.callGetInfo callId
  ua.enumCalls.foldlM (fun ua c =>
    if c = callId then return ua
    else if ¬ (ua.calls c).session then return ua
    else do
      let (_, ua) ← ua.confConnect info.confSlot (ua.calls c).confSlot
      let (_, ua) ← ua.confConnect (ua.calls c).confSlot info.confSlot
      return ua) ua

/-- `pjsua_player_destroy`. -/
def playerDestroy (ua : UserAgent) (file : ℕ) : Except Fault (PjStatus × UserAgent) :=
  match ua.player file with
  | none => return (.PJ_EINVAL, ua)
  | some slot => do
      let (_, conf) ← ua.conf.removePort slot
      return (.PJ_SUCCESS,
        { ua with
          conf
          player := Function.update ua.player file none
          playerCnt := ua.playerCnt - 1 })

/-- The user agent when it has come up. -/
def create (maxCalls maxPorts channelCount : ℕ) : UserAgent :=
  { maxCalls, conf := .create maxPorts channelCount .sound }

/-- What happens to media: a call begins, media is negotiated, a call is put on hold or retrieved, a
call ends, a file is played to a call, a call joins the others, a player is destroyed. -/
inductive Op
  | newCall (c : ℕ)
  | mediaUpdate (c : ℕ) (n : Negotiated)
  | setHold (c : ℕ) (hold : Bool)
  | disconnected (c : ℕ)
  | playWav (c : ℕ) (wav : Wav)
  | makeConference (c : ℕ)
  | releaseWav (file : ℕ)

/-- One of them, with the player that was started.  A call begins in a place that is free, and other
than by the program only calls that are in use are touched. -/
def step (ua : UserAgent) : Op → Except Fault (Option ℕ × UserAgent)
  | .newCall c =>
      return (none, if c < ua.maxCalls ∧ ¬ (ua.calls c).inv then ua.newCall c else ua)
  | .mediaUpdate c n => do
      let ua ← if (ua.calls c).inv then ua.onMediaUpdate c n else pure ua
      return (none, ua)
  | .setHold c hold =>
      return (none,
        if (ua.calls c).inv then ua.setCall c { ua.calls c with localHold := hold } else ua)
  | .disconnected c => do
      let ua ← if (ua.calls c).inv then ua.onDisconnected c else pure ua
      return (none, ua)
  | .playWav c wav => ua.dllPlayWav c wav
  | .makeConference c => do
      let ua ← ua.dllMakeConference c
      return (none, ua)
  | .releaseWav file => do
      let (_, ua) ← ua.playerDestroy file
      return (none, ua)

/-- One after the other, with the number of players that were started. -/
def run (ua : UserAgent) : List Op → Except Fault (UserAgent × ℕ)
  | [] => .ok (ua, 0)
  | op :: ops => do
      let (file, ua) ← ua.step op
      let (ua, played) ← ua.run ops
      return (ua, played + if file.isSome then 1 else 0)

/-! ## Who owns a slot -/

/-- Slots and their owners know each other, and the number of players is that of the players. -/
structure Inv (ua : UserAgent) : Prop where
  consistent : ua.conf.Consistent
  sound_iff : ∀ s, ua.conf.source s = some .sound ↔ s = 0
  call_owner : ∀ s c n, ua.conf.source s = some (.call c n) →
    (ua.calls c).confSlot = some s ∧ n < ua.sessions
  call_slot : ∀ c s, (ua.calls c).confSlot = some s → ∃ n, ua.conf.source s = some (.call c n)
  player_owner : ∀ s f c n, ua.conf.source s = some (.player f c n) →
    ua.player f = some s ∧ n < ua.sessions
  player_slot : ∀ f s, ua.player f = some s → ∃ c n, ua.conf.source s = some (.player f c n)
  player_lt : ∀ f, (ua.player f).isSome → f < maxPlayers
  playerCnt_eq : ua.playerCnt = {f ∈ Finset.range maxPlayers | (ua.player f).isSome}.card
  inv_lt : ∀ c, (ua.calls c).inv → c < ua.maxCalls
  idle : ∀ c, ¬ (ua.calls c).inv → (ua.calls c).confSlot = none
  media : ∀ c, (ua.calls c).mediaSt ≠ .NONE → (ua.calls c).confSlot.isSome

/-- Every connection is one that is allowed. -/
def Isolated (R : Source → Source → Prop) (ua : UserAgent) : Prop :=
  ∀ e ∈ ua.conf.edges, ∃ a b, ua.conf.source e.1 = some a ∧ ua.conf.source e.2 = some b ∧ R a b

structure Good (R : Source → Source → Prop) (ua : UserAgent) : Prop where
  inv : ua.Inv
  isolated : ua.Isolated R

section Keeping

variable {R : Source → Source → Prop} {ua ua' : UserAgent} {c : ℕ} {call : CallMedia}

/-- A player is at one slot. -/
lemma Inv.player_slot_eq (h : ua.Inv) {i j f d m n : ℕ}
    (hi : ua.conf.source i = some (.player f c n))
    (hj : ua.conf.source j = some (.player f d m)) : i = j :=
  Option.some.inj ((h.player_owner i f c n hi).1.symm.trans (h.player_owner j f d m hj).1)

lemma calls_setCall (ua : UserAgent) (c : ℕ) (call : CallMedia) (d : ℕ) :
    (ua.setCall c call).calls d = if d = c then call else ua.calls d := by
  by_cases hd : d = c <;> simp [UserAgent.setCall, hd]

/-- A change of a call that leaves its slot alone. -/
lemma Inv.setCall (h : ua.Inv) (hslot : call.confSlot = (ua.calls c).confSlot)
    (hlt : call.inv → c < ua.maxCalls) (hidle : ¬ call.inv → call.confSlot = none)
    (hmedia : call.mediaSt ≠ .NONE → call.confSlot.isSome) :
    (ua.setCall c call).Inv := by
  have hconf : ∀ d, ((ua.setCall c call).calls d).confSlot = (ua.calls d).confSlot := by
    intro d
    by_cases hd : d = c
    · simp [UserAgent.setCall, hd, hslot]
    · simp [UserAgent.setCall, hd]
  refine { h with call_owner := ?_, call_slot := ?_, inv_lt := ?_, idle := ?_, media := ?_ }
  · simp only [hconf]
    exact h.call_owner
  · simp only [hconf]
    exact h.call_slot
  · intro d hd
    rw [calls_setCall] at hd
    split_ifs at hd with hdc
    · exact hdc ▸ hlt hd
    · exact h.inv_lt d hd
  · intro d hd
    rw [calls_setCall] at hd ⊢
    split_ifs at hd ⊢
    · exact hidle hd
    · exact h.idle d hd
  · intro d hd
    rw [calls_setCall] at hd ⊢
    split_ifs at hd ⊢
    · exact hmedia hd
    · exact h.media d hd

lemma Good.setCall (h : ua.Good R) (hslot : call.confSlot = (ua.calls c).confSlot)
    (hlt : call.inv → c < ua.maxCalls) (hidle : ¬ call.inv → call.confSlot = none)
    (hmedia : call.mediaSt ≠ .NONE → call.confSlot.isSome) : (ua.setCall c call).Good R :=
  ⟨h.inv.setCall hslot hlt hidle hmedia, h.isolated⟩

/-- A change of connections alone. -/
lemma Inv.of_samePorts (h : ua.Inv) {conf : Conf Source} (hs : Conf.SamePorts ua.conf conf)
    (hcons : conf.Consistent) : { ua with conf }.Inv where
  consistent := hcons
  sound_iff := by simpa only [hs.source_eq] using h.sound_iff
  call_owner := by simpa only [hs.source_eq] using h.call_owner
  call_slot := by simpa only [hs.source_eq] using h.call_slot
  player_owner := by simpa only [hs.source_eq] using h.player_owner
  player_slot := by simpa only [hs.source_eq] using h.player_slot
  player_lt := h.player_lt
  playerCnt_eq := h.playerCnt_eq
  inv_lt := h.inv_lt
  idle := h.idle
  media := h.media

/-- Connecting two ports that may be connected. -/
lemma Good.confConnect (h : ua.Good R) (src sink : Option ℕ)
    (hR : ∀ a b, src.bind ua.conf.source = some a → sink.bind ua.conf.source = some b → R a b) :
    ∃ status conf, ua.confConnect src sink = .ok (status, { ua with conf }) ∧
      Conf.MoreEdges ua.conf conf ∧ { ua with conf }.Good R ∧
      (status = .PJ_SUCCESS ↔
        (src.bind ua.conf.source).isSome ∧ (sink.bind ua.conf.source).isSome) ∧
      ∀ i ∈ src, ∀ j ∈ sink, status = .PJ_SUCCESS → (i, j) ∈ conf.edges := by
  rcases src with _ | i
  · exact ⟨.PJ_EINVAL, ua.conf, rfl, .refl _, h, by simp, by simp⟩
  rcases sink with _ | j
  · exact ⟨.PJ_EINVAL, ua.conf, rfl, .refl _, h, by simp, by simp⟩
  obtain ⟨status, conf, hok, hcons, hsame, hstatus, hedges⟩ := h.inv.consistent.connectPort i j
  refine ⟨status, conf, by simp [UserAgent.confConnect, hok], ⟨hsame, ?_⟩,
    ⟨h.inv.of_samePorts hsame hcons, ?_⟩, ?_, ?_⟩
  · rw [hedges]
    split_ifs
    · exact Finset.subset_insert _ _
    · exact subset_rfl
  · intro e he
    simp only [hsame.source_eq]
    rw [hedges] at he
    split_ifs at he with hlive
    · rcases Finset.mem_insert.mp he with rfl | he
      · simp only [h.inv.consistent.mem_slots, ← Conf.isSome_source] at hlive
        obtain ⟨a, ha⟩ := Option.isSome_iff_exists.mp hlive.1
        obtain ⟨b, hb⟩ := Option.isSome_iff_exists.mp hlive.2
        exact ⟨a, b, ha, hb, hR a b ha hb⟩
      · exact h.isolated e he
    · exact h.isolated e he
  · rw [hstatus, h.inv.consistent.mem_slots, h.inv.consistent.mem_slots]
    simp
  · intro i' hi' j' hj' hsuccess
    obtain rfl := Option.some.inj hi'
    obtain rfl := Option.some.inj hj'
    rw [hedges, if_pos (hstatus.mp hsuccess)]
    exact Finset.mem_insert_self _ _

/-- The slot of a call is given up. -/
lemma Inv.removeCall (h : ua.Inv) {slot : ℕ} (hslot : (ua.calls c).confSlot = some slot)
    (hcall : call.confSlot = none) (hmedia : call.mediaSt = .NONE)
    (hlt : call.inv → c < ua.maxCalls) :
    ({ ua with conf := ua.conf.removed slot }.setCall c call).Inv := by
  obtain ⟨n, hsource⟩ := h.call_slot c slot hslot
  have hport : (ua.conf.ports slot).isSome := by simp [← Conf.isSome_source, hsource]
  have hremoved := Conf.source_removed ua.conf slot
  have hsound : slot ≠ 0 := fun h0 => by simp [(h.sound_iff slot).mpr h0] at hsource
  constructor
  · exact h.consistent.removed hport
  · intro s
    by_cases hs : s = slot
    · simp [UserAgent.setCall, hremoved, hs, hsound]
    · simp [UserAgent.setCall, hremoved, hs, h.sound_iff]
  · intro s d m hs
    simp only [UserAgent.setCall, hremoved] at hs
    split_ifs at hs with hne
    obtain ⟨hd, hm⟩ := h.call_owner s d m hs
    have hdc : d ≠ c := by
      rintro rfl
      exact hne (Option.some.inj (hd.symm.trans hslot))
    exact ⟨by rwa [calls_setCall, if_neg hdc], hm⟩
  · intro d s hd
    rw [calls_setCall] at hd
    split_ifs at hd with hdc
    · simp [hcall] at hd
    · obtain ⟨m, hm⟩ := h.call_slot d s hd
      have hne : s ≠ slot := by
        rintro rfl
        exact hdc (by simp [hm] at hsource; exact hsource.1)
      exact ⟨m, by simpa [UserAgent.setCall, hremoved, hne] using hm⟩
  · intro s f d m hs
    simp only [UserAgent.setCall, hremoved] at hs
    split_ifs at hs
    exact h.player_owner s f d m hs
  · intro f s hf
    obtain ⟨d, m, hs⟩ := h.player_slot f s hf
    have hne : s ≠ slot := by
      rintro rfl
      simp [hs] at hsource
    exact ⟨d, m, by simpa [UserAgent.setCall, hremoved, hne] using hs⟩
  · exact h.player_lt
  · exact h.playerCnt_eq
  · intro d hd
    rw [calls_setCall] at hd
    split_ifs at hd with hdc
    · exact hdc ▸ hlt hd
    · exact h.inv_lt d hd
  · intro d hd
    rw [calls_setCall] at hd ⊢
    split_ifs at hd ⊢
    · exact hcall
    · exact h.idle d hd
  · intro d hd
    rw [calls_setCall] at hd ⊢
    split_ifs at hd ⊢
    · exact absurd hmedia hd
    · exact h.media d hd

lemma Isolated.of_conf (h : ua.Isolated R) (hconf : ua'.conf = ua.conf) : ua'.Isolated R := by
  rw [UserAgent.Isolated, hconf]
  exact h

lemma Isolated.removed (h : ua.Isolated R) (hcons : ua.conf.Consistent) (slot : ℕ) :
    { ua with conf := ua.conf.removed slot }.Isolated R := by
  intro e he
  rw [hcons.edges_removed, Finset.mem_filter] at he
  obtain ⟨a, b, ha, hb, hab⟩ := h e he.1
  exact ⟨a, b, by simp [Conf.source_removed, he.2.1, ha], by simp [Conf.source_removed, he.2.2, hb],
    hab⟩

/-- What can be said of the user agent at a later time, when nothing but `gone` has left the bridge:
its size is the same, a media session that is over does not come back, and what is still there is
still connected. -/
structure Later (gone : Source → Prop) (ua ua' : UserAgent) : Prop where
  maxPorts_eq : ua'.conf.maxPorts = ua.conf.maxPorts
  channelCount_eq : ua'.conf.channelCount = ua.conf.channelCount
  maxCalls_eq : ua'.maxCalls = ua.maxCalls
  sessions_le : ua.sessions ≤ ua'.sessions
  call_eq : ∀ s d m, ua'.conf.source s = some (.call d m) → m < ua.sessions →
    ua.conf.source s = some (.call d m)
  kept : ∀ s a, ua.conf.source s = some a → ¬ gone a → ua'.conf.source s = some a
  edge_kept : ∀ i j a b, ua.conf.source i = some a → ua.conf.source j = some b → ¬ gone a →
    ¬ gone b →
    (i, j) ∈ ua.conf.edges → (i, j) ∈ ua'.conf.edges

variable {gone gone' : Source → Prop}

lemma Later.of_conf (hconf : ua'.conf = ua.conf) (hcalls : ua'.maxCalls = ua.maxCalls)
    (hsessions : ua.sessions ≤ ua'.sessions) : Later gone ua ua' := by
  constructor <;> simp +contextual [hconf, hcalls, hsessions]

lemma Later.mono (h : Later gone ua ua') (hle : ∀ a, gone a → gone' a) : Later gone' ua ua' :=
  { h with
    kept := fun s a hs ha => h.kept s a hs fun hg => ha (hle a hg)
    edge_kept := fun i j a b hi hj ha hb =>
      h.edge_kept i j a b hi hj (fun hg => ha (hle a hg)) fun hg => hb (hle b hg) }

lemma Later.trans {ua'' : UserAgent} (h : Later gone ua ua') (h' : Later gone ua' ua'') :
    Later gone ua ua'' where
  maxPorts_eq := h'.maxPorts_eq.trans h.maxPorts_eq
  channelCount_eq := h'.channelCount_eq.trans h.channelCount_eq
  maxCalls_eq := h'.maxCalls_eq.trans h.maxCalls_eq
  sessions_le := h.sessions_le.trans h'.sessions_le
  call_eq := fun s d m hs hm => h.call_eq s d m (h'.call_eq s d m hs (hm.trans_le h.sessions_le)) hm
  kept := fun s a hs ha => h'.kept s a (h.kept s a hs ha) ha
  edge_kept := fun i j a b hi hj ha hb he =>
    h'.edge_kept i j a b (h.kept i a hi ha) (h.kept j b hj hb) ha hb
      (h.edge_kept i j a b hi hj ha hb he)

/-- Connections are made. -/
lemma Later.of_moreEdges {conf : Conf Source} (hs : Conf.MoreEdges ua.conf conf) :
    Later gone ua { ua with conf } where
  maxPorts_eq := hs.maxPorts_eq
  channelCount_eq := hs.channelCount_eq
  maxCalls_eq := rfl
  sessions_le := le_rfl
  call_eq := fun s d m h _ => by rwa [← hs.source_eq]
  kept := fun s a h _ => by rwa [hs.source_eq]
  edge_kept := fun _ _ _ _ _ _ _ _ he => hs.edges_subset he

/-- A port is removed. -/
lemma Later.of_removed (h : ua.Inv) {slot : ℕ} (hgone : ∀ a, ua.conf.source slot = some a → gone a)
    (hconf : ua'.conf = ua.conf.removed slot) (hcalls : ua'.maxCalls = ua.maxCalls)
    (hsessions : ua'.sessions = ua.sessions) : Later gone ua ua' := by
  have hne : ∀ s a, ua.conf.source s = some a → ¬ gone a → s ≠ slot := by
    rintro s a hs ha rfl
    exact ha (hgone a hs)
  refine ⟨by rw [hconf]; rfl, by rw [hconf]; rfl, hcalls, hsessions.ge, fun s d m hs _ => ?_,
    fun s a hs ha => ?_, fun i j a b hi hj ha hb he => ?_⟩
  · rw [hconf, Conf.source_removed] at hs
    split_ifs at hs
    exact hs
  · rwa [hconf, Conf.source_removed, if_neg (hne s a hs ha)]
  · rw [hconf, h.consistent.edges_removed, Finset.mem_filter]
    exact ⟨he, hne i a hi ha, hne j b hj hb⟩

/-- No player is started. -/
structure SamePlayers (gone : Source → Prop) (ua ua' : UserAgent) : Prop
    extends Later gone ua ua' where
  playerCnt_eq : ua'.playerCnt = ua.playerCnt

lemma SamePlayers.trans {ua'' : UserAgent} (h : SamePlayers gone ua ua')
    (h' : SamePlayers gone ua' ua'') : SamePlayers gone ua ua'' :=
  ⟨h.toLater.trans h'.toLater, h'.playerCnt_eq.trans h.playerCnt_eq⟩

lemma SamePlayers.setCall (ua : UserAgent) (c : ℕ) (call : CallMedia) :
    SamePlayers gone ua (ua.setCall c call) :=
  ⟨.of_conf rfl rfl le_rfl, rfl⟩

/-- The source is the given call. -/
def Source.IsCall (c : ℕ) (a : Source) : Prop := ∃ n, a = .call c n

/-- The call without a media session. -/
def stopped (call : CallMedia) : CallMedia :=
  { call with confSlot := none, session := false, mediaSt := .NONE }

/-- **Taking a call off the bridge.** -/
lemma Good.stopMediaSession (h : ua.Good R) (c : ℕ) :
    ∃ ua', ua.stopMediaSession c = .ok ua' ∧ ua'.Good R ∧ SamePlayers (Source.IsCall c) ua ua' ∧
      ua'.calls c = stopped (ua.calls c) ∧ ∀ s m, ua'.conf.source s ≠ some (.call c m) := by
  cases hslot : (ua.calls c).confSlot with
  | none =>
      refine ⟨ua.setCall c (stopped (ua.calls c)), by rw [UserAgent.stopMediaSession, hslot]; rfl,
        h.setCall hslot.symm (h.inv.inv_lt c) (fun _ => rfl) (fun hm => absurd rfl hm),
        .setCall ua c _,
        by simp [calls_setCall], fun s m hs => ?_⟩
      simp [(h.inv.call_owner s c m hs).1] at hslot
  | some slot =>
      obtain ⟨n, hsource⟩ := h.inv.call_slot c slot hslot
      have hport : (ua.conf.ports slot).isSome := by simp [← Conf.isSome_source, hsource]
      have hgone : ∀ a, ua.conf.source slot = some a → Source.IsCall c a := fun a ha =>
        ⟨n, Option.some.inj (ha.symm.trans hsource)⟩
      refine ⟨{ ua with conf := ua.conf.removed slot }.setCall c (stopped (ua.calls c)), ?_,
        ⟨?_, (h.isolated.removed h.inv.consistent slot).of_conf rfl⟩,
        ⟨.of_removed h.inv hgone rfl rfl rfl, rfl⟩, by simp [calls_setCall], fun s m hs => ?_⟩
      · rw [UserAgent.stopMediaSession, hslot]
        simp only [h.inv.consistent.removePort_eq hport]
        rfl
      · exact h.inv.removeCall hslot rfl rfl (h.inv.inv_lt c)
      · simp only [UserAgent.setCall, Conf.source_removed] at hs
        split_ifs at hs with hne
        exact hne (Option.some.inj ((h.inv.call_owner s c m hs).1.symm.trans hslot))

/-- What was on the bridge stays at its slot when a port is added. -/
lemma source_added_of_some {index s : ℕ} {a b : Source} (hfree : ua.conf.ports index = none)
    (hs : ua.conf.source s = some b) : (ua.conf.added a index).source s = some b := by
  have hne : s ≠ index := by
    rintro rfl
    simp [Conf.source, hfree] at hs
  rwa [Conf.source_added, if_neg hne]

lemma Inv.sound_iff_added (h : ua.Inv) {index : ℕ} {a : Source} (hfree : ua.conf.ports index = none)
    (ha : a ≠ .sound) (s : ℕ) : (ua.conf.added a index).source s = some .sound ↔ s = 0 := by
  have hsound : (ua.conf.added a index).source 0 = some .sound :=
    source_added_of_some hfree ((h.sound_iff 0).mpr rfl)
  constructor
  · intro hs
    rw [Conf.source_added] at hs
    split_ifs at hs
    · exact absurd (Option.some.inj hs) ha
    · exact (h.sound_iff s).mp hs
  · rintro rfl
    exact hsound

/-- A call is put on the bridge. -/
lemma Inv.addCall (h : ua.Inv) (hnone : (ua.calls c).confSlot = none) {index : ℕ}
    (hlt : index < ua.conf.maxPorts) (hfree : ua.conf.ports index = none)
    (hcall : call.confSlot = some index) (hinv : call.inv) (hcmax : c < ua.maxCalls) :
    ({ ua with
      conf := ua.conf.added (.call c ua.sessions) index, sessions := ua.sessions + 1 }.setCall c
      call).Inv := by
  have hadded := Conf.source_added ua.conf (.call c ua.sessions) index
  constructor
  · exact h.consistent.added hlt hfree
  · exact h.sound_iff_added hfree (by simp)
  · intro s d m hs
    simp only [UserAgent.setCall, hadded] at hs
    rw [calls_setCall]
    split_ifs at hs with hs'
    · obtain ⟨rfl, rfl⟩ := Source.call.inj (Option.some.inj hs)
      exact ⟨by simp [hcall, hs'], Nat.lt_succ_self _⟩
    · obtain ⟨hd, hm⟩ := h.call_owner s d m hs
      have hdc : d ≠ c := by
        rintro rfl
        simp [hnone] at hd
      exact ⟨by rwa [if_neg hdc], Nat.lt_succ_of_lt hm⟩
  · intro d s hd
    rw [calls_setCall] at hd
    split_ifs at hd with hdc
    · obtain rfl := Option.some.inj (hcall.symm.trans hd)
      exact ⟨ua.sessions, by simp [UserAgent.setCall, hadded, hdc]⟩
    · obtain ⟨m, hm⟩ := h.call_slot d s hd
      exact ⟨m, source_added_of_some hfree hm⟩
  · intro s f d m hs
    simp only [UserAgent.setCall, hadded] at hs
    split_ifs at hs
    · simp at hs
    · obtain ⟨hf, hm⟩ := h.player_owner s f d m hs
      exact ⟨hf, Nat.lt_succ_of_lt hm⟩
  · intro f s hf
    obtain ⟨d, m, hs⟩ := h.player_slot f s hf
    exact ⟨d, m, source_added_of_some hfree hs⟩
  · exact h.player_lt
  · exact h.playerCnt_eq
  · intro d hd
    rw [calls_setCall] at hd
    split_ifs at hd with hdc
    · exact hdc ▸ hcmax
    · exact h.inv_lt d hd
  · intro d hd
    rw [calls_setCall] at hd ⊢
    split_ifs at hd ⊢
    · exact absurd hinv hd
    · exact h.idle d hd
  · intro d hd
    rw [calls_setCall] at hd ⊢
    split_ifs at hd ⊢
    · simp [hcall]
    · exact h.media d hd

/-- A player is put on the bridge. -/
lemma Inv.addPlayer (h : ua.Inv) {index file session : ℕ} (hlt : index < ua.conf.maxPorts)
    (hfree : ua.conf.ports index = none) (hfile : ua.player file = none) (hmax : file < maxPlayers)
    (hsession : session < ua.sessions) :
    { ua with
      conf := ua.conf.added (.player file c session) index
      player := Function.update ua.player file (some index)
      playerCnt := ua.playerCnt + 1 }.Inv := by
  have hadded := Conf.source_added ua.conf (.player file c session) index
  have hplayers : {f ∈ Finset.range maxPlayers |
      (Function.update ua.player file (some index) f).isSome} =
      insert file {f ∈ Finset.range maxPlayers | (ua.player f).isSome} := by
    ext f
    rw [Finset.mem_insert, Finset.mem_filter, Finset.mem_filter, Finset.mem_range]
    by_cases hf : f = file
    · simp [hf, hmax]
    · simp [hf]
  constructor
  · exact h.consistent.added hlt hfree
  · exact h.sound_iff_added hfree (by simp)
  · intro s d m hs
    simp only [hadded] at hs
    split_ifs at hs
    · simp at hs
    · exact h.call_owner s d m hs
  · intro d s hd
    obtain ⟨m, hm⟩ := h.call_slot d s hd
    exact ⟨m, source_added_of_some hfree hm⟩
  · intro s f d m hs
    simp only [hadded] at hs
    split_ifs at hs with hs'
    · obtain ⟨rfl, rfl, rfl⟩ := Source.player.inj (Option.some.inj hs)
      exact ⟨by simp [hs'], hsession⟩
    · obtain ⟨hf, hm⟩ := h.player_owner s f d m hs
      have hne : f ≠ file := by
        rintro rfl
        simp [hfile] at hf
      exact ⟨by simpa [hne] using hf, hm⟩
  · intro f s hf
    by_cases hff : f = file
    · subst hff
      simp only [Function.update_self, Option.some.injEq] at hf
      exact ⟨c, session, by rw [hadded, if_pos hf.symm]⟩
    · obtain ⟨d, m, hs⟩ := h.player_slot f s (by simpa [hff] using hf)
      exact ⟨d, m, source_added_of_some hfree hs⟩
  · intro f hf
    by_cases hff : f = file
    · exact hff ▸ hmax
    · exact h.player_lt f (by simpa [hff] using hf)
  · have hnew : file ∉ {f ∈ Finset.range maxPlayers | (ua.player f).isSome} := by simp [hfile]
    rw [hplayers, Finset.card_insert_of_notMem hnew, ← h.playerCnt_eq]
  · exact h.inv_lt
  · exact h.idle
  · exact h.media

lemma Isolated.added (h : ua.Isolated R) {index : ℕ} {a : Source}
    (hfree : ua.conf.ports index = none) :
    { ua with conf := ua.conf.added a index }.Isolated R := by
  intro e he
  rw [Conf.edges_added hfree] at he
  obtain ⟨x, y, hx, hy, hxy⟩ := h e he
  exact ⟨x, y, source_added_of_some hfree hx, source_added_of_some hfree hy, hxy⟩

/-- A port is added. -/
lemma Later.of_added {index : ℕ} {a : Source} (hfree : ua.conf.ports index = none)
    (hnew : ∀ d m, a = .call d m → ua.sessions ≤ m) (hconf : ua'.conf = ua.conf.added a index)
    (hcalls : ua'.maxCalls = ua.maxCalls) (hsessions : ua.sessions ≤ ua'.sessions) :
    Later gone ua ua' := by
  refine ⟨by rw [hconf]; rfl, by rw [hconf]; rfl, hcalls, hsessions, fun s d m hs hm => ?_,
    fun s b hs _ => ?_, fun i j _ _ _ _ _ _ he => ?_⟩
  · rw [hconf, Conf.source_added] at hs
    split_ifs at hs
    · exact absurd hm (not_lt.mpr (hnew d m (Option.some.inj hs)))
    · exact hs
  · rw [hconf]
    exact source_added_of_some hfree hs
  · rwa [hconf, Conf.edges_added hfree]

lemma Good.newSession (h : ua.Good R) : { ua with sessions := ua.sessions + 1 }.Good R :=
  ⟨{ h.inv with
      call_owner := fun s c n hs => (h.inv.call_owner s c n hs).imp_right Nat.lt_succ_of_lt
      player_owner := fun s f c n hs =>
        (h.inv.player_owner s f c n hs).imp_right Nat.lt_succ_of_lt },
    h.isolated⟩

/-- **Media is negotiated**: the call is taken off the bridge and put there anew, under the number
of a new session. -/
lemma Good.mediaChannelUpdate (h : ua.Good R) (hinv : (ua.calls c).inv) (n : Negotiated) :
    ∃ status ua', ua.mediaChannelUpdate c n = .ok (status, ua') ∧ ua'.Good R ∧
      SamePlayers (Source.IsCall c) ua ua' ∧
      ∀ s m, ua'.conf.source s = some (.call c m) → ua.sessions ≤ m := by
  obtain ⟨ua₁, hstop, hgood, hsame, hcall, hgone⟩ := h.stopMediaSession c
  rw [UserAgent.mediaChannelUpdate, hstop]
  cases n with
  | failed code => exact ⟨_, _, rfl, hgood, hsame, fun s m hs => absurd hs (hgone s m)⟩
  | inactive => exact ⟨_, _, rfl, hgood, hsame, fun s m hs => absurd hs (hgone s m)⟩
  | active dir channelCount failure =>
      rcases hgood.inv.consistent.addPort (.call c ua₁.sessions) channelCount failure with
        ⟨-, status, -, hok⟩ | ⟨-, index, hok, -, hlt, hfree⟩
      · refine ⟨status, { ua₁ with sessions := ua₁.sessions + 1 }.setCall c
          { ua₁.calls c with session := true }, by simp only [bind, Except.bind, hok]; rfl, ?_,
          hsame.trans ⟨.of_conf rfl rfl (Nat.le_succ _), rfl⟩,
          fun s m hs => absurd hs (hgone s m)⟩
        exact hgood.newSession.setCall rfl (hgood.inv.inv_lt c) (hgood.inv.idle c)
          (hgood.inv.media c)
      · let mediaSt : MediaStatus :=
          if (ua₁.calls c).localHold then .LOCAL_HOLD
          else if dir = .DECODING then .REMOTE_HOLD
          else .ACTIVE
        refine ⟨.PJ_SUCCESS,
          { ua₁ with
            conf := ua₁.conf.added (.call c ua₁.sessions) index
            sessions := ua₁.sessions + 1 }.setCall c
            { ua₁.calls c with session := true, confSlot := some index, mediaSt },
          by simp only [bind, Except.bind, hok]; rfl, ⟨?_,
            (hgood.isolated.added hfree).of_conf rfl⟩,
          hsame.trans ⟨.of_added hfree ?_ rfl rfl (Nat.le_succ _), rfl⟩, ?_⟩
        · refine hgood.inv.addCall (by rw [hcall]; rfl) hlt hfree rfl ?_ ?_
          · rw [hcall]
            exact hinv
          · rw [hsame.maxCalls_eq]
            exact h.inv.inv_lt c hinv
        · intro d m hm
          exact (Source.call.inj hm).2.le
        · intro s m hs
          simp only [UserAgent.setCall, Conf.source_added] at hs
          split_ifs at hs
          · exact hsame.sessions_le.trans (Source.call.inj (Option.some.inj hs)).2.le
          · exact absurd hs (hgone s m)

/-- Two ports are connected both ways. -/
lemma Good.connectBoth (h : ua.Good R) (i j : Option ℕ)
    (hR : ∀ a b, i.bind ua.conf.source = some a → j.bind ua.conf.source = some b → R a b ∧ R b a) :
    ∃ status conf status' conf', ua.confConnect i j = .ok (status, { ua with conf }) ∧
      { ua with conf }.confConnect j i = .ok (status', { ua with conf := conf' }) ∧
      Conf.MoreEdges ua.conf conf' ∧ { ua with conf := conf' }.Good R := by
  obtain ⟨status, conf, hok, hsame, hgood, -⟩ := h.confConnect i j fun a b ha hb => (hR a b ha hb).1
  have hsource : conf.source = ua.conf.source := funext hsame.source_eq
  obtain ⟨status', conf', hok', hsame', hgood', -⟩ := hgood.confConnect j i
    fun a b ha hb => (hR b a (by simpa [hsource] using hb) (by simpa [hsource] using ha)).2
  exact ⟨status, conf, status', conf', hok, hok', hsame.trans hsame', hgood'⟩

/-- What the description of a call says about its slot. -/
lemma Inv.source_of_active (h : ua.Inv) (hst : (ua.callGetInfo c).mediaStatus ≠ .NONE) :
    ∃ s n, (ua.callGetInfo c).confSlot = some s ∧ ua.conf.source s = some (.call c n) ∧
      ua.sessionOf c = n := by
  rw [UserAgent.callGetInfo] at hst ⊢
  split_ifs at hst ⊢ with hinv
  · obtain ⟨s, hs⟩ := Option.isSome_iff_exists.mp (h.media c hst)
    obtain ⟨n, hn⟩ := h.call_slot c s hs
    exact ⟨s, n, hs, hn, by simp [UserAgent.sessionOf, hs, hn]⟩
  · simp at hst

/-- Who may talk to whom, when `joined` are the calls that have been joined: a call and the sound
device to each other, a player to the call and the session it was started for, and a call to a call
it was joined with. -/
inductive Talks (joined : Source → Source → Prop) : Source → Source → Prop
  | toSound (c n : ℕ) : Talks joined (.call c n) .sound
  | fromSound (c n : ℕ) : Talks joined .sound (.call c n)
  | message (f c n : ℕ) : Talks joined (.player f c n) (.call c n)
  | conference {c n d m : ℕ} (h : joined (.call c n) (.call d m)) :
      Talks joined (.call c n) (.call d m)

variable {joined : Source → Source → Prop}

lemma Good.onCallMediaState (h : ua.Good (Talks joined)) (c : ℕ) :
    ∃ conf, ua.onCallMediaState c = .ok { ua with conf } ∧ Conf.MoreEdges ua.conf conf ∧
      { ua with conf }.Good (Talks joined) := by
  rw [UserAgent.onCallMediaState]
  split_ifs with hst
  · have hsome : (ua.callGetInfo c).mediaStatus ≠ .NONE := by
      rcases hst with hst | hst <;> simp [hst]
    obtain ⟨s, n, hslot, hs, -⟩ := h.inv.source_of_active hsome
    obtain ⟨_, _, _, conf, hok, hok', hports, hgood⟩ :=
      h.connectBoth (ua.callGetInfo c).confSlot (some 0) <| by
        intro a b ha hb
        obtain rfl : .call c n = a := by simpa [hslot, hs] using ha
        obtain rfl : .sound = b := by simpa [(h.inv.sound_iff 0).mpr rfl] using hb
        exact ⟨.toSound c n, .fromSound c n⟩
    refine ⟨conf, ?_, hports, hgood⟩
    simp only [bind, Except.bind, hok, hok']
    rfl
  · exact ⟨ua.conf, rfl, .refl _, h⟩

/-- After an update, a call is on the bridge at most as a new session. -/
lemma Good.onMediaUpdate (h : ua.Good (Talks joined)) (hinv : (ua.calls c).inv) (n : Negotiated) :
    ∃ ua', ua.onMediaUpdate c n = .ok ua' ∧ ua'.Good (Talks joined) ∧
      SamePlayers (Source.IsCall c) ua ua' ∧
      ∀ s m, ua'.conf.source s = some (.call c m) → ua.sessions ≤ m := by
  obtain ⟨status, ua₁, hok, hgood, hsame, hnew⟩ := h.mediaChannelUpdate hinv n
  by_cases hstatus : status = .PJ_SUCCESS
  · obtain ⟨conf, hok', hports, hgood'⟩ := hgood.onCallMediaState c
    refine ⟨_, ?_, hgood', hsame.trans ⟨.of_moreEdges hports, rfl⟩, ?_⟩
    · simp only [UserAgent.onMediaUpdate, bind, Except.bind, hok, if_pos hstatus, hok']
    · simpa only [hports.source_eq] using hnew
  · refine ⟨ua₁, ?_, hgood, hsame, hnew⟩
    simp only [UserAgent.onMediaUpdate, bind, Except.bind, hok, if_neg hstatus]
    rfl

lemma Good.onDisconnected (h : ua.Good R) (c : ℕ) :
    ∃ ua', ua.onDisconnected c = .ok ua' ∧ ua'.Good R ∧ SamePlayers (Source.IsCall c) ua ua' ∧
      ∀ s m, ua'.conf.source s ≠ some (.call c m) := by
  obtain ⟨ua₁, hstop, hgood, hsame, hcall, hgone⟩ := h.stopMediaSession c
  refine ⟨_, by simp only [UserAgent.onDisconnected, bind, Except.bind, hstop]; rfl,
    hgood.setCall ?_ (fun hinv => absurd hinv (by simp)) (fun _ => rfl) ?_,
    hsame.trans (.setCall ua₁ c _), hgone⟩
  · simp [hcall, stopped]
  · simp [hcall, stopped]

lemma Good.newCall (h : ua.Good R) (hlt : c < ua.maxCalls) (hinv : ¬ (ua.calls c).inv) :
    (ua.newCall c).Good R := by
  have hnone := h.inv.idle c hinv
  refine h.setCall hnone.symm (fun _ => hlt) (fun _ => rfl) fun hmedia => ?_
  simpa [hnone] using h.inv.media c hmedia

lemma Good.setHold (h : ua.Good R) (c : ℕ) (hold : Bool) :
    (ua.setCall c { ua.calls c with localHold := hold }).Good R :=
  h.setCall rfl (h.inv.inv_lt c) (h.inv.idle c) (h.inv.media c)

/-- The port a call has on the bridge. -/
def portOf (ua : UserAgent) (c : ℕ) : Option Source := (ua.calls c).confSlot.bind ua.conf.source

/-- What is joined with a call: the media sessions of the other calls. -/
def Joins (ua : UserAgent) (callId : ℕ) (a b : Source) : Prop :=
  ∃ c ∈ ua.enumCalls, c ≠ callId ∧ (ua.calls c).session ∧
    (ua.portOf callId = some a ∧ ua.portOf c = some b ∨
      ua.portOf c = some a ∧ ua.portOf callId = some b)

/-- What `dll_makeConference` joins: the call, or the sound device when there is no such call. -/
lemma Inv.source_of_info (h : ua.Inv) {a : Source}
    (ha : (ua.callGetInfo c).confSlot.bind ua.conf.source = some a) :
    a = .sound ∨ ua.portOf c = some a := by
  rw [UserAgent.callGetInfo] at ha
  split_ifs at ha with hinv
  · exact .inr ha
  · exact .inl (Option.some.inj (ha.symm.trans ((h.sound_iff 0).mpr rfl)))

lemma Inv.portOf_eq (h : ua.Inv) {a : Source} (ha : ua.portOf c = some a) :
    ∃ n, a = .call c n := by
  obtain ⟨s, hs, ha⟩ := Option.bind_eq_some_iff.mp ha
  obtain ⟨n, hn⟩ := h.call_slot c s hs
  exact ⟨n, Option.some.inj (ha.symm.trans hn)⟩

/-- The loop of `dll_makeConference` makes connections that are allowed. -/
lemma Good.makeConference (h : ua.Good R) (callId : ℕ)
    (hR : ∀ c ∈ ua.enumCalls, c ≠ callId → (ua.calls c).session → ∀ a b,
      (ua.callGetInfo callId).confSlot.bind ua.conf.source = some a → ua.portOf c = some b →
        R a b ∧ R b a) :
    ∃ conf, ua.dllMakeConference callId = .ok { ua with conf } ∧ Conf.MoreEdges ua.conf conf ∧
      { ua with conf }.Good R := by
  simp only [UserAgent.dllMakeConference]
  generalize (ua.callGetInfo callId).confSlot = slot at hR
  generalize ua.enumCalls = calls at hR
  -- the loop connects what stays where it is
  induction calls generalizing ua with
  | nil => exact ⟨ua.conf, rfl, .refl _, h⟩
  | cons c calls ih =>
      rw [List.forall_mem_cons] at hR
      rw [List.foldlM_cons]
      by_cases hc : c = callId
      · rw [if_pos hc]
        exact ih h hR.2
      by_cases hsession : (ua.calls c).session
      · obtain ⟨_, _, _, conf, hok, hok', hports, hgood⟩ :=
          h.connectBoth slot (ua.calls c).confSlot (hR.1 hc hsession)
        have hsource : conf.source = ua.conf.source := funext hports.source_eq
        obtain ⟨conf', hrest, hports', hgood'⟩ := ih hgood (by
          simp only [portOf, hsource]
          exact hR.2)
        refine ⟨conf', ?_, hports.trans hports', hgood'⟩
        simp only [if_neg hc, hsession, not_true_eq_false, if_false, bind, Except.bind, hok, hok']
        exact hrest
      · rw [if_neg hc, if_pos hsession]
        exact ih h hR.2

/-- **Joining a call with the others.** -/
lemma Good.makeConference_talks (h : ua.Good (Talks joined)) (callId : ℕ)
    (hjoined : ∀ a b, ua.Joins callId a b → joined a b) :
    ∃ conf, ua.dllMakeConference callId = .ok { ua with conf } ∧ Conf.MoreEdges ua.conf conf ∧
      { ua with conf }.Good (Talks joined) := by
  refine h.makeConference callId fun c hcalls hc hsession a b ha hb => ?_
  obtain ⟨m, rfl⟩ := h.inv.portOf_eq hb
  rcases h.inv.source_of_info ha with rfl | ha
  · exact ⟨.fromSound c m, .toSound c m⟩
  · obtain ⟨n, rfl⟩ := h.inv.portOf_eq ha
    exact ⟨.conference (hjoined _ _ ⟨c, hcalls, hc, hsession, .inl ⟨ha, hb⟩⟩),
      .conference (hjoined _ _ ⟨c, hcalls, hc, hsession, .inr ⟨hb, ha⟩⟩)⟩

end Keeping

end UserAgent

end TAM
