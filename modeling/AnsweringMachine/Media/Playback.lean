import AnsweringMachine.Media.UserAgent

/-!
# What is played to whom

Players on the bridge, and whole runs of the user agent: calls that begin and end, media that is
negotiated at any time, files that are played and calls that are joined.

**Isolation.**  `own_messages_only`: a file is heard on the call it was played to and nowhere else.

**Limits.**  A player is destroyed when its file has ended, and not before.  `playWav_iff` says when
a file is played as long as none has ended: the first `PJSUA_MAX_PLAYERS` times that the call has
media.

**Renewal.**  Media that is negotiated anew, for a call that is put on hold for example, takes the
call off the bridge and puts it there again, and nobody connects the player again.  `readsFrom_iff`
says how long a player is read from, and so can come to the end of its file.
-/

namespace TAM

namespace UserAgent

section Players

variable {R joined : Source → Source → Prop} {ua ua' : UserAgent} {c : ℕ} {wav : Wav}

/-- There is a place for a player as long as there are fewer than `PJSUA_MAX_PLAYERS`. -/
lemma Inv.exists_file (h : ua.Inv) (hlt : ua.playerCnt < maxPlayers) :
    ∃ file, (List.range maxPlayers).find? (fun file => (ua.player file).isNone) = some file ∧
      ua.player file = none ∧ file < maxPlayers := by
  cases hfind : (List.range maxPlayers).find? fun file => (ua.player file).isNone with
  | none =>
      have hall : ∀ f ∈ Finset.range maxPlayers, (ua.player f).isSome := by
        intro f hf
        have := List.find?_eq_none.mp hfind f (List.mem_range.mpr (Finset.mem_range.mp hf))
        exact Option.isSome_iff_ne_none.mpr (by simpa using this)
      rw [h.playerCnt_eq, Finset.filter_true_of_mem hall, Finset.card_range] at hlt
      exact absurd hlt (lt_irrefl _)
  | some file =>
      exact ⟨file, rfl, by simpa using List.find?_some hfind,
        List.mem_range.mp (List.mem_of_find?_eq_some hfind)⟩

/-- A player for the file can be created. -/
def Playable (ua : UserAgent) (wav : Wav) : Prop :=
  ua.playerCnt < maxPlayers ∧ ∃ channelCount, wav = .ok (channelCount, none) ∧
    ¬ ua.conf.Refused channelCount none

/-- The user agent with one more player. -/
def withPlayer (ua : UserAgent) (file c session index : ℕ) : UserAgent :=
  { ua with
    conf := ua.conf.added (.player file c session) index
    player := Function.update ua.player file (some index)
    playerCnt := ua.playerCnt + 1 }

lemma Good.playerCreate (h : ua.Good R) (c : ℕ) {session : ℕ} (hsession : session < ua.sessions)
    (wav : Wav) :
    (¬ ua.Playable wav ∧ ∃ status, ua.playerCreate c session wav = .ok (status, none, ua)) ∨
    ua.Playable wav ∧ ∃ file index, ua.playerCreate c session wav =
        .ok (.PJ_SUCCESS, some file, ua.withPlayer file c session index) ∧
      ua.conf.ports index = none ∧ (ua.withPlayer file c session index).Good R := by
  by_cases hcnt : maxPlayers ≤ ua.playerCnt
  · exact .inl ⟨fun hp => absurd hp.1 (not_lt.mpr hcnt), .PJ_ETOOMANY, by
      simp only [UserAgent.playerCreate, if_pos hcnt]; rfl⟩
  obtain ⟨file, hfind, hfree, hlt⟩ := h.inv.exists_file (not_le.mp hcnt)
  simp only [UserAgent.playerCreate, if_neg hcnt, hfind]
  rcases wav with code | ⟨channelCount, failure⟩
  · exact .inl ⟨fun hp => by simp [Playable] at hp, _, rfl⟩
  rcases h.inv.consistent.addPort (.player file c session) channelCount failure with
    ⟨hrefused, status, -, hok⟩ | ⟨hok', index, hok, -, hindex, hport⟩
  · refine .inl ⟨?_, status, by simp only [bind, Except.bind, hok]; rfl⟩
    rintro ⟨-, _, heq, hnot⟩
    obtain ⟨rfl, rfl⟩ := Prod.mk.inj (Except.ok.inj heq)
    exact hnot hrefused
  · have hnone : failure = none := by
      by_contra hne
      exact hok' (.inr (.inl (Option.isSome_iff_ne_none.mpr hne)))
    subst hnone
    refine .inr ⟨⟨not_le.mp hcnt, channelCount, rfl, hok'⟩, file, index,
      by simp only [bind, Except.bind, hok]; rfl, hport, ?_, ?_⟩
    · exact h.inv.addPlayer hindex hport hfree hlt hsession
    · exact (h.isolated.added hport).of_conf rfl

/-- **A file is played** exactly when the call has media and a player can be created, and then the
player is connected with the call. -/
lemma Good.playWav (h : ua.Good (Talks joined)) (c : ℕ) (wav : Wav) :
    (¬ ((ua.callGetInfo c).mediaStatus = .ACTIVE ∧ ua.Playable wav) ∧
      ua.dllPlayWav c wav = .ok (none, ua)) ∨
    ((ua.callGetInfo c).mediaStatus = .ACTIVE ∧ ua.Playable wav) ∧
      ∃ file ua', ua.dllPlayWav c wav = .ok (some file, ua') ∧ ua'.Good (Talks joined) ∧
        Later (fun _ => False) ua ua' ∧ ua'.playerCnt = ua.playerCnt + 1 ∧
        ∃ n i j, ua'.player file = some i ∧ ua'.conf.source i = some (.player file c n) ∧
          (ua'.calls c).confSlot = some j ∧ ua'.conf.source j = some (.call c n) ∧
          (i, j) ∈ ua'.conf.edges := by
  by_cases hst : (ua.callGetInfo c).mediaStatus = .ACTIVE
  · obtain ⟨s, n, hslot, hs, hn⟩ := h.inv.source_of_active (c := c) (by simp [hst])
    have hinfo : (ua.calls c).confSlot = some s := (h.inv.call_owner s c n hs).1
    have hne : (ua.callGetInfo c).confSlot ≠ some 0 := by
      intro h0
      obtain rfl : s = 0 := by simpa [hslot] using h0
      simp [(h.inv.sound_iff 0).mpr rfl] at hs
    rcases h.playerCreate c (hn ▸ (h.inv.call_owner s c n hs).2) wav with
      ⟨hnot, status, hok⟩ | ⟨hplay, file, index, hok, hfree, hgood⟩
    · refine .inl ⟨fun hp => hnot hp.2, ?_⟩
      simp only [UserAgent.dllPlayWav, hst, ne_eq, not_true_eq_false, if_false, bind, Except.bind,
        hok]
      rfl
    · set ua₁ := ua.withPlayer file c (ua.sessionOf c) index with hua₁
      have hconf : ua₁.conf = ua.conf.added (.player file c (ua.sessionOf c)) index := rfl
      have hplayer : ua₁.player file = some index := by simp [hua₁, withPlayer]
      have hsrc : ua₁.conf.source index = some (.player file c n) := by
        simp [hua₁, withPlayer, Conf.source_added, hn]
      have hsink : ua₁.conf.source s = some (.call c n) := source_added_of_some hfree hs
      obtain ⟨status, conf, hok', hports, hgood', hstatus, hedge⟩ :=
        hgood.confConnect (ua₁.player file) (ua.callGetInfo c).confSlot <| by
          intro a b ha hb
          obtain rfl : .player file c n = a := by simpa [hplayer, hsrc] using ha
          obtain rfl : .call c n = b := by simpa [hslot, hsink] using hb
          exact .message file c n
      have hsuccess : status = .PJ_SUCCESS := hstatus.mpr (by simp [hplayer, hslot, hsrc, hsink])
      refine .inr ⟨⟨hst, hplay⟩, file, { ua₁ with conf }, ?_, hgood',
        Later.trans (.of_added hfree (fun _ _ => by nofun) hconf rfl le_rfl) (.of_moreEdges hports),
        rfl, n, index, s, hplayer, (hports.source_eq index).trans hsrc, hinfo,
        (hports.source_eq s).trans hsink,
        hedge index hplayer s hslot hsuccess⟩
      simp only [UserAgent.dllPlayWav, hst, ne_eq, not_true_eq_false, if_false, bind, Except.bind,
        hok,
        if_pos hne, hok', hsuccess]
      rfl
  · refine .inl ⟨fun hp => hst hp.1, ?_⟩
    simp only [UserAgent.dllPlayWav, ne_eq, hst, not_false_eq_true, if_true]
    rfl

/-- A player is taken off the bridge. -/
lemma Inv.removePlayer (h : ua.Inv) {file slot : ℕ} (hfile : ua.player file = some slot) :
    { ua with
      conf := ua.conf.removed slot
      player := Function.update ua.player file none
      playerCnt := ua.playerCnt - 1 }.Inv := by
  obtain ⟨c, n, hsource⟩ := h.player_slot file slot hfile
  have hport : (ua.conf.ports slot).isSome := by simp [← Conf.isSome_source, hsource]
  have hremoved := Conf.source_removed ua.conf slot
  have hsound : slot ≠ 0 := fun h0 => by simp [(h.sound_iff slot).mpr h0] at hsource
  have hplayers : {f ∈ Finset.range maxPlayers | (Function.update ua.player file none f).isSome} =
      {f ∈ Finset.range maxPlayers | (ua.player f).isSome}.erase file := by
    ext f
    rw [Finset.mem_erase, Finset.mem_filter, Finset.mem_filter]
    by_cases hf : f = file
    · simp [hf]
    · simp [hf]
  constructor
  · exact h.consistent.removed hport
  · intro s
    by_cases hs : s = slot
    · simp [hremoved, hs, hsound]
    · simp [hremoved, hs, h.sound_iff]
  · intro s d m hs
    simp only [hremoved] at hs
    split_ifs at hs
    exact h.call_owner s d m hs
  · intro d s hd
    obtain ⟨m, hm⟩ := h.call_slot d s hd
    have hne : s ≠ slot := by
      rintro rfl
      simp [hm] at hsource
    exact ⟨m, by simpa [hremoved, hne] using hm⟩
  · intro s f d m hs
    simp only [hremoved] at hs
    split_ifs at hs with hne
    obtain ⟨hf, hm⟩ := h.player_owner s f d m hs
    have hff : f ≠ file := by
      rintro rfl
      exact hne (Option.some.inj (hf.symm.trans hfile))
    exact ⟨by simpa [hff] using hf, hm⟩
  · intro f s hf
    have hff : f ≠ file := by
      rintro rfl
      simp at hf
    obtain ⟨d, m, hs⟩ := h.player_slot f s (by simpa [hff] using hf)
    have hne : s ≠ slot := by
      rintro rfl
      exact hff (Source.player.inj (Option.some.inj (hs.symm.trans hsource))).1
    exact ⟨d, m, by simpa [hremoved, hne] using hs⟩
  · intro f hf
    have hff : f ≠ file := by
      rintro rfl
      simp at hf
    exact h.player_lt f (by simpa [hff] using hf)
  · have hmem : file ∈ {f ∈ Finset.range maxPlayers | (ua.player f).isSome} :=
      Finset.mem_filter.mpr ⟨Finset.mem_range.mpr (h.player_lt file (by simp [hfile])),
        by simp [hfile]⟩
    rw [hplayers, Finset.card_erase_of_mem hmem, ← h.playerCnt_eq]
  · exact h.inv_lt
  · exact h.idle
  · exact h.media

lemma Good.playerDestroy (h : ua.Good R) (file : ℕ) :
    ∃ status ua', ua.playerDestroy file = .ok (status, ua') ∧ ua'.Good R ∧
      Later (fun a => ∃ c n, a = .player file c n) ua ua' ∧ ua'.player file = none := by
  rw [UserAgent.playerDestroy]
  cases hfile : ua.player file with
  | none => exact ⟨_, _, rfl, h, .of_conf rfl rfl le_rfl, hfile⟩
  | some slot =>
      obtain ⟨c, n, hsource⟩ := h.inv.player_slot file slot hfile
      have hport : (ua.conf.ports slot).isSome := by simp [← Conf.isSome_source, hsource]
      refine ⟨.PJ_SUCCESS, _, ?_, ⟨h.inv.removePlayer hfile,
        (h.isolated.removed h.inv.consistent slot).of_conf rfl⟩, .of_removed h.inv ?_ rfl rfl rfl,
        Function.update_self ..⟩
      · simp only [bind, Except.bind, h.inv.consistent.removePort_eq hport]
        rfl
      · intro a ha
        exact ⟨c, n, Option.some.inj (ha.symm.trans hsource)⟩

/-- The slots in use are the sound device, and those of calls and players. -/
lemma Inv.card_slots_le (h : ua.Inv) : ua.conf.slots.card ≤ 1 + ua.maxCalls + ua.playerCnt := by
  let calls := (Finset.range ua.maxCalls).image fun c => ((ua.calls c).confSlot).getD 0
  let players :=
    {f ∈ Finset.range maxPlayers | (ua.player f).isSome}.image fun f => (ua.player f).getD 0
  have hcover : ua.conf.slots ⊆ {0} ∪ calls ∪ players := by
    intro s hs
    rw [h.consistent.mem_slots, ← Conf.isSome_source] at hs
    obtain ⟨a, ha⟩ := Option.isSome_iff_exists.mp hs
    rw [Finset.mem_union, Finset.mem_union, Finset.mem_singleton, Finset.mem_image,
      Finset.mem_image]
    rcases a with _ | ⟨c, n⟩ | ⟨f, c, n⟩
    · exact .inl (.inl ((h.sound_iff s).mp ha))
    · obtain ⟨hslot, -⟩ := h.call_owner s c n ha
      have hinv : (ua.calls c).inv := by
        by_contra hidle
        simp [h.idle c hidle] at hslot
      exact .inl (.inr ⟨c, Finset.mem_range.mpr (h.inv_lt c hinv), by simp [hslot]⟩)
    · obtain ⟨hslot, -⟩ := h.player_owner s f c n ha
      have hsome : (ua.player f).isSome := by simp [hslot]
      exact .inr ⟨f, Finset.mem_filter.mpr ⟨Finset.mem_range.mpr (h.player_lt f hsome), hsome⟩,
        by simp [hslot]⟩
  calc ua.conf.slots.card ≤ ({0} ∪ calls ∪ players).card := Finset.card_le_card hcover
    _ ≤ ({0} ∪ calls).card + players.card := Finset.card_union_le _ _
    _ ≤ 1 + calls.card + players.card := Nat.add_le_add_right (Finset.card_union_le _ _) _
    _ ≤ 1 + ua.maxCalls + ua.playerCnt := by
        rw [h.playerCnt_eq]
        exact Nat.add_le_add (Nat.add_le_add_left (Finset.card_image_le.trans (by simp)) 1)
          Finset.card_image_le

end Players

/-! ## Runs -/

/-- Two media sessions are joined in a run. -/
def Joined (ua : UserAgent) : List Op → Source → Source → Prop
  | [], _, _ => False
  | op :: ops, a, b => (∃ callId, op = .makeConference callId ∧ ua.Joins callId a b) ∨
      ∃ file ua', ua.step op = .ok (file, ua') ∧ ua'.Joined ops a b

/-- The media session of a call ends. -/
def Op.cuts : Op → ℕ → Bool
  | .mediaUpdate d _, c => d = c
  | .disconnected d, c => d = c
  | _, _ => false

/-- A player is destroyed. -/
def Op.releases : Op → ℕ → Bool
  | .releaseWav f, file => f = file
  | _, _ => false

/-- What may leave the bridge. -/
def Op.ends (op : Op) : Source → Prop
  | .sound => False
  | .call c _ => op.cuts c
  | .player file _ _ => op.releases file

section Steps

variable {ua ua' : UserAgent} {joined : Source → Source → Prop} {ops : List Op}

/-- What operations do to calls, sessions and players. -/
structure Passed (ops : List Op) (played : ℕ) (ua ua' : UserAgent) : Prop where
  later : Later (fun a => ∃ op ∈ ops, op.ends a) ua ua'
  playerCnt_eq : (∀ op ∈ ops, ∀ file, op.releases file = false) →
    ua'.playerCnt = ua.playerCnt + played
  cut : ∀ c, (∃ op ∈ ops, op.cuts c) → ∀ s m, ua'.conf.source s = some (.call c m) → ua.sessions ≤ m

lemma Passed.trans {ops' : List Op} {played played' : ℕ} {ua'' : UserAgent}
    (h : Passed ops played ua ua') (h' : Passed ops' played' ua' ua'') :
    Passed (ops ++ ops') (played + played') ua ua'' := by
  refine ⟨Later.trans (h.later.mono ?_) (h'.later.mono ?_), fun hr => ?_, fun c hc s m hs => ?_⟩
  · rintro a ⟨op, hop, ha⟩
    exact ⟨op, List.mem_append_left ops' hop, ha⟩
  · rintro a ⟨op, hop, ha⟩
    exact ⟨op, List.mem_append_right ops hop, ha⟩
  · rw [h'.playerCnt_eq fun op hop => hr op (List.mem_append_right ops hop),
      h.playerCnt_eq fun op hop => hr op (List.mem_append_left ops' hop), Nat.add_assoc]
  · obtain ⟨op, hop, hcut⟩ := hc
    rcases List.mem_append.mp hop with hop | hop
    · -- what comes later does not bring back a session that is over
      by_contra hlt
      have hm : m < ua'.sessions := (not_le.mp hlt).trans_le h.later.sessions_le
      exact hlt (h.cut c ⟨op, hop, hcut⟩ s m (h'.later.call_eq s c m hs hm))
    · exact h.later.sessions_le.trans (h'.cut c ⟨op, hop, hcut⟩ s m hs)

lemma SamePlayers.passed {gone : Source → Prop} (h : SamePlayers gone ua ua') {op : Op}
    (hgone : ∀ a, gone a → op.ends a)
    (hcut : ∀ c, op.cuts c → ∀ s m, ua'.conf.source s = some (.call c m) → ua.sessions ≤ m) :
    Passed [op] 0 ua ua' where
  later := h.toLater.mono fun a ha => ⟨op, List.mem_singleton_self op, hgone a ha⟩
  playerCnt_eq := fun _ => h.playerCnt_eq
  cut := by simpa using hcut

/-- Operations that leave everything on the bridge. -/
lemma SamePlayers.passed_of_false (h : SamePlayers (fun _ => False) ua ua') {op : Op}
    (hcut : ∀ c, op.cuts c = false) : Passed [op] 0 ua ua' :=
  h.passed (fun _ => False.elim) (by simp [hcut])

lemma SamePlayers.refl (ua : UserAgent) : SamePlayers (fun _ => False) ua ua :=
  ⟨.of_conf rfl rfl le_rfl, rfl⟩

/-- A call that is not in use is not on the bridge. -/
lemma Inv.not_source (h : ua.Inv) {c : ℕ} (hinv : ¬ (ua.calls c).inv) (s m : ℕ) :
    ua.conf.source s ≠ some (.call c m) := by
  intro hs
  have hnone := h.idle c hinv
  simp [(h.call_owner s c m hs).1] at hnone

/-- An operation for a call that is not in use does nothing. -/
lemma Inv.passed_of_unused (h : ua.Inv) {c : ℕ} (hinv : ¬ (ua.calls c).inv) {op : Op}
    (hop : ∀ d, op.cuts d → c = d) : Passed [op] 0 ua ua := by
  refine (SamePlayers.refl ua).passed (fun _ => False.elim) fun d hd s m hs => ?_
  obtain rfl := hop d hd
  exact absurd hs (h.not_source hinv s m)

/-- **One operation.** -/
lemma Good.step (h : ua.Good (Talks joined)) (op : Op)
    (hjoined : ∀ callId, op = .makeConference callId → ∀ a b, ua.Joins callId a b → joined a b) :
    ∃ file ua', ua.step op = .ok (file, ua') ∧ ua'.Good (Talks joined) ∧
      Passed [op] (if file.isSome then 1 else 0) ua ua' := by
  cases op with
  | newCall c =>
      by_cases hfree : c < ua.maxCalls ∧ ¬ (ua.calls c).inv
      · exact ⟨none, ua.newCall c, by simp only [UserAgent.step, if_pos hfree]; rfl,
          h.newCall hfree.1 hfree.2, (SamePlayers.setCall ua c _).passed_of_false fun _ => rfl⟩
      · exact ⟨none, ua, by simp only [UserAgent.step, if_neg hfree]; rfl, h,
          (SamePlayers.refl ua).passed_of_false fun _ => rfl⟩
  | mediaUpdate c n =>
      by_cases hinv : (ua.calls c).inv
      · obtain ⟨ua', hok, hgood, hsame, hnew⟩ := h.onMediaUpdate hinv n
        refine ⟨none, ua', ?_, hgood, hsame.passed ?_ fun d hd => ?_⟩
        · simp only [UserAgent.step, if_pos hinv, bind, Except.bind, hok]
          rfl
        · rintro _ ⟨m, rfl⟩
          exact decide_eq_true rfl
        · obtain rfl : c = d := of_decide_eq_true hd
          exact hnew
      · exact ⟨none, ua, by simp only [UserAgent.step, if_neg hinv]; rfl, h,
          h.inv.passed_of_unused hinv fun _ hd => of_decide_eq_true hd⟩
  | setHold c hold =>
      by_cases hinv : (ua.calls c).inv
      · exact ⟨none, _, by simp only [UserAgent.step, if_pos hinv]; rfl, h.setHold c hold,
          (SamePlayers.setCall ua c _).passed_of_false fun _ => rfl⟩
      · exact ⟨none, ua, by simp only [UserAgent.step, if_neg hinv]; rfl, h,
          (SamePlayers.refl ua).passed_of_false fun _ => rfl⟩
  | disconnected c =>
      by_cases hinv : (ua.calls c).inv
      · obtain ⟨ua', hok, hgood, hsame, hgone⟩ := h.onDisconnected c
        refine ⟨none, ua', ?_, hgood, hsame.passed ?_ fun d hd s m hs => ?_⟩
        · simp only [UserAgent.step, if_pos hinv, bind, Except.bind, hok]
          rfl
        · rintro _ ⟨m, rfl⟩
          exact decide_eq_true rfl
        · obtain rfl : c = d := of_decide_eq_true hd
          exact absurd hs (hgone s m)
      · exact ⟨none, ua, by simp only [UserAgent.step, if_neg hinv]; rfl, h,
          h.inv.passed_of_unused hinv fun _ hd => of_decide_eq_true hd⟩
  | playWav c wav =>
      rcases h.playWav c wav with ⟨-, hok⟩ | ⟨-, file, ua', hok, hgood, hlater, hcnt, -⟩
      · exact ⟨none, ua, hok, h, (SamePlayers.refl ua).passed_of_false fun _ => rfl⟩
      · exact ⟨some file, ua', hok, hgood, hlater.mono fun _ => False.elim, fun _ => hcnt,
          by simp [Op.cuts]⟩
  | makeConference c =>
      obtain ⟨conf, hok, hports, hgood⟩ := h.makeConference_talks c (hjoined c rfl)
      refine ⟨none, _, ?_, hgood,
        SamePlayers.passed_of_false ⟨.of_moreEdges hports, rfl⟩ fun _ => rfl⟩
      simp only [UserAgent.step, bind, Except.bind, hok]
      rfl
  | releaseWav file =>
      obtain ⟨status, ua', hok, hgood, hlater, -⟩ := h.playerDestroy file
      refine ⟨none, ua', ?_, hgood, hlater.mono ?_, fun hr => ?_, by simp [Op.cuts]⟩
      · simp only [UserAgent.step, bind, Except.bind, hok]
        rfl
      · rintro _ ⟨c, n, rfl⟩
        exact ⟨.releaseWav file, List.mem_singleton_self _, decide_eq_true rfl⟩
      · simpa [Op.releases] using hr _ (List.mem_singleton_self _) file

/-- A player that is destroyed is gone. -/
lemma Good.player_eq_none {R : Source → Source → Prop} (h : ua.Good R) {op : Op} {file : ℕ}
    (hop : op.releases file) {started : Option ℕ} (hok : ua.step op = .ok (started, ua')) :
    ua'.player file = none := by
  cases op with
  | releaseWav f =>
      obtain rfl : f = file := of_decide_eq_true hop
      obtain ⟨_, ua₁, hdestroy, -, -, hnone⟩ := h.playerDestroy f
      simp only [UserAgent.step, hdestroy, bind, Except.bind] at hok
      obtain ⟨-, rfl⟩ := Prod.mk.inj (Except.ok.inj hok)
      exact hnone
  | _ => simp [Op.releases] at hop

/-- **Whole runs.** -/
lemma Good.run (h : ua.Good (Talks joined)) (ops : List Op)
    (hjoined : ∀ a b, ua.Joined ops a b → joined a b) :
    ∃ ua' played, ua.run ops = .ok (ua', played) ∧ ua'.Good (Talks joined) ∧
      Passed ops played ua ua' := by
  induction ops generalizing ua with
  | nil => exact ⟨ua, 0, rfl, h, .of_conf rfl rfl le_rfl, fun _ => rfl, by simp⟩
  | cons op ops ih =>
      obtain ⟨file, ua₁, hok, hgood, hstep⟩ :=
        h.step op fun callId hop a b hjoins => hjoined a b (.inl ⟨callId, hop, hjoins⟩)
      obtain ⟨ua₂, played, hrun, hgood₂, hpassed⟩ :=
        ih hgood fun a b hrest => hjoined a b (.inr ⟨file, ua₁, hok, hrest⟩)
      refine ⟨ua₂, played + if file.isSome then 1 else 0, ?_, hgood₂, ?_⟩
      · simp only [UserAgent.run, bind, Except.bind, hok, hrun]
        rfl
      · rw [Nat.add_comm]
        exact hstep.trans hpassed

lemma create_good {maxPorts : ℕ} (hmax : 0 < maxPorts) (maxCalls channelCount : ℕ)
    (R : Source → Source → Prop) : (create maxCalls maxPorts channelCount).Good R := by
  have hsource : ∀ s a, (create maxCalls maxPorts channelCount).conf.source s = some a ↔
      s = 0 ∧ a = .sound := by
    intro s a
    by_cases hs : s = 0
    · simp [create, Conf.create, Conf.source, hs, eq_comm]
    · simp [create, Conf.create, Conf.source, hs]
  have hedges : (create maxCalls maxPorts channelCount).conf.edges = ∅ :=
    congrArg Conf.Graph.edges (Conf.create_graph hmax channelCount Source.sound)
  have hconsistent : (create maxCalls maxPorts channelCount).conf.Consistent :=
    Conf.create_consistent hmax channelCount Source.sound
  refine ⟨⟨hconsistent, by simp [hsource], by simp [hsource], by simp [create], by simp [hsource],
    by simp [create], by simp [create], by simp [create], by simp [create], by simp [create],
    by simp [create]⟩, fun e he => ?_⟩
  simp [hedges] at he

lemma Inv.playerCnt_le (h : ua.Inv) : ua.playerCnt ≤ maxPlayers := by
  rw [h.playerCnt_eq]
  exact (Finset.card_filter_le _ _).trans (Finset.card_range maxPlayers).le

/-- With room for every call and every player, the bridge refuses a file for its channels alone. -/
lemma Inv.refused_iff (h : ua.Inv) (hports : 1 + ua.maxCalls + maxPlayers ≤ ua.conf.maxPorts)
    (hcnt : ua.playerCnt < maxPlayers) (channels : ℕ) :
    ¬ ua.conf.Refused channels none ↔
      channels = ua.conf.channelCount ∨ channels = 1 ∨ ua.conf.channelCount = 1 := by
  have hcard := h.card_slots_le
  have hroom : ¬ ua.conf.maxPorts ≤ ua.conf.slots.card := by omega
  simp only [Conf.Refused, Option.isSome_none, Bool.false_eq_true, hroom, or_false]
  tauto

/-- **Everybody hears their own messages only.**  Whatever calls begin and end, whenever media is
negotiated, whatever is played: nothing goes wrong on the bridge, the sound device and the calls
hear each other, a player is heard by the call and the media session it was started for, and of two
calls one hears the other only if their media sessions were joined: one of them by
`dll_makeConference`, while the other had a media session too. -/
theorem own_messages_only {maxPorts : ℕ} (hmax : 0 < maxPorts) (maxCalls channelCount : ℕ)
    (ops : List Op) :
    ∃ ua played, (create maxCalls maxPorts channelCount).run ops = .ok (ua, played) ∧
      ∀ i j, j ∈ ua.conf.listeners i → ∃ a b, ua.conf.source i = some a ∧
        ua.conf.source j = some b ∧
          Talks ((create maxCalls maxPorts channelCount).Joined ops) a b := by
  obtain ⟨ua, played, hrun, hgood, -⟩ := (create_good hmax maxCalls channelCount _).run ops
    fun _ _ => id
  refine ⟨ua, played, hrun, fun i j hj => hgood.isolated (i, j) ?_⟩
  exact hgood.inv.consistent.mem_edges.mpr hj

/-- Two calls are joined, and a file is played to a third. -/
theorem own_messages_only_third :
    0 < 254 ∧ ∃ ua played, (create 4 254 1).run [.newCall 0,
        .mediaUpdate 0 (.active .ENCODING_DECODING 1 none), .newCall 1,
        .mediaUpdate 1 (.active .ENCODING_DECODING 1 none), .makeConference 1, .newCall 2,
        .mediaUpdate 2 (.active .ENCODING_DECODING 1 none), .playWav 2 (.ok (1, none))] =
          .ok (ua, played) ∧
      ∀ i j, j ∈ ua.conf.listeners i → ∃ a b, ua.conf.source i = some a ∧
        ua.conf.source j = some b ∧ Talks ((create 4 254 1).Joined [.newCall 0,
          .mediaUpdate 0 (.active .ENCODING_DECODING 1 none), .newCall 1,
          .mediaUpdate 1 (.active .ENCODING_DECODING 1 none), .makeConference 1, .newCall 2,
          .mediaUpdate 2 (.active .ENCODING_DECODING 1 none), .playWav 2 (.ok (1, none))]) a b :=
  ⟨by decide, own_messages_only (by decide) 4 1 _⟩

/-- **The first `PJSUA_MAX_PLAYERS` messages are played**, as long as none has come to its end.  In
every run in which no player is destroyed, and the program destroys a player when its file has
ended, a file is played to a call if and only if the call has active media, fewer than
`PJSUA_MAX_PLAYERS` files were played since the start, and the file can be opened and mixed; and
then the call hears it. -/
theorem playWav_iff {maxCalls maxPorts : ℕ} (hports : 1 + maxCalls + maxPlayers ≤ maxPorts)
    (channelCount : ℕ) (ops : List Op) (hkept : ∀ op ∈ ops, ∀ file, op ≠ .releaseWav file) :
    ∃ ua played, (create maxCalls maxPorts channelCount).run ops = .ok (ua, played) ∧
      played ≤ maxPlayers ∧ ∀ c wav, ∃ file ua', ua.dllPlayWav c wav = .ok (file, ua') ∧
        (file.isSome ↔ (ua.callGetInfo c).mediaStatus = .ACTIVE ∧ played < maxPlayers ∧
          ∃ channels, wav = .ok (channels, none) ∧
            (channels = channelCount ∨ channels = 1 ∨ channelCount = 1)) ∧
        ∀ f ∈ file, ∃ i ∈ ua'.player f, ∃ j ∈ (ua'.calls c).confSlot, j ∈ ua'.conf.listeners i := by
  obtain ⟨ua, played, hrun, hgood, hpassed⟩ := (create_good (show 0 < maxPorts by omega) maxCalls
    channelCount (Talks fun _ _ => True)).run ops fun _ _ _ => trivial
  have hcnt : ua.playerCnt = played := by
    have hreleases : ∀ op ∈ ops, ∀ file, op.releases file = false := by
      intro op hop file
      cases op <;> first | rfl | exact absurd rfl (hkept _ hop _)
    simpa [create] using hpassed.playerCnt_eq hreleases
  have hsize : 1 + ua.maxCalls + maxPlayers ≤ ua.conf.maxPorts := by
    rw [hpassed.later.maxCalls_eq, hpassed.later.maxPorts_eq]
    exact hports
  have hplayable : ∀ wav, ua.Playable wav ↔ played < maxPlayers ∧ ∃ channels,
      wav = .ok (channels, none) ∧ (channels = channelCount ∨ channels = 1 ∨ channelCount = 1) := by
    intro wav
    rw [Playable, hcnt]
    refine and_congr_right fun hlt => exists_congr fun channels => and_congr_right fun _ => ?_
    rw [hgood.inv.refused_iff hsize (by omega), hpassed.later.channelCount_eq]
    rfl
  refine ⟨ua, played, hrun, hcnt ▸ hgood.inv.playerCnt_le, fun c wav => ?_⟩
  rw [← hplayable]
  rcases hgood.playWav c wav with
    ⟨hnot, hok⟩ | ⟨hplay, file, ua', hok, hgood', -, -, n, i, j, hi, -, hj, -, he⟩
  · exact ⟨none, ua, hok, by simpa using hnot, by simp⟩
  · refine ⟨some file, ua', hok, by simpa using hplay, fun f hf => ?_⟩
    obtain rfl := Option.some.inj hf
    exact ⟨i, hi, j, hj, hgood'.inv.consistent.mem_edges.mp he⟩

/-- With the sizes the wrapper starts with, after a call has begun. -/
theorem playWav_iff_started : 1 + 4 + maxPlayers ≤ 254 ∧
    ∃ ua played, (create 4 254 1).run
      [.newCall 0, .mediaUpdate 0 (.active .ENCODING_DECODING 1 none)] =
        .ok (ua, played) ∧
      played ≤ maxPlayers ∧ ∀ c wav, ∃ file ua', ua.dllPlayWav c wav = .ok (file, ua') ∧
        (file.isSome ↔ (ua.callGetInfo c).mediaStatus = .ACTIVE ∧ played < maxPlayers ∧
          ∃ channels, wav = .ok (channels, none) ∧ (channels = 1 ∨ channels = 1 ∨ 1 = 1)) ∧
        ∀ f ∈ file, ∃ i ∈ ua'.player f, ∃ j ∈ (ua'.calls c).confSlot, j ∈ ua'.conf.listeners i :=
  ⟨by decide, playWav_iff (by decide) 1 _ (by simp)⟩

/-- The bridge reads from a player at the next tick of the clock, unless a port is removed
meanwhile. -/
def readsFrom (ua : UserAgent) (file : ℕ) : Bool := (ua.player file).any (· ∈ ua.conf.reads)

/-- A player exists throughout a run. -/
def Keeps (file : ℕ) (ua : UserAgent) : List Op → Prop
  | [] => (ua.player file).isSome
  | op :: ops => (ua.player file).isSome ∧
      ∃ started ua', ua.step op = .ok (started, ua') ∧ ua'.Keeps file ops

/-- A player is heard by the call and the session it was started for. -/
structure Connected (file c n : ℕ) (ua : UserAgent) : Prop where
  good : ua.Good (Talks fun _ _ => True)
  heard : ∃ i j, ua.conf.source i = some (.player file c n) ∧ ua.conf.source j = some (.call c n) ∧
    (i, j) ∈ ua.conf.edges

/-- The session a player was started for is over. -/
structure Over (file c n : ℕ) (ua : UserAgent) : Prop where
  good : ua.Good (Talks fun _ _ => True)
  present : ∃ i, ua.conf.source i = some (.player file c n)
  past : ∀ s, ua.conf.source s ≠ some (.call c n)

variable {file c n : ℕ} {gone : Source → Prop}

lemma Connected.readsFrom (h : Connected file c n ua) : ua.readsFrom file = true := by
  obtain ⟨i, j, hi, hj, he⟩ := h.heard
  rw [UserAgent.readsFrom, (h.good.inv.player_owner i file c n hi).1]
  simp only [Option.any_some, decide_eq_true_eq]
  rw [h.good.inv.consistent.mem_reads]
  exact List.ne_nil_of_mem (h.good.inv.consistent.mem_edges.mp he)

/-- Whom a player may talk to is not there any more. -/
lemma Over.listeners_eq (h : Over file c n ua) {i : ℕ}
    (hi : ua.conf.source i = some (.player file c n)) : ua.conf.listeners i = [] := by
  refine List.eq_nil_iff_forall_not_mem.mpr fun j hj => ?_
  obtain ⟨a, b, ha, hb, htalks⟩ := h.good.isolated (i, j) (h.good.inv.consistent.mem_edges.mpr hj)
  obtain rfl := Option.some.inj (ha.symm.trans hi)
  cases htalks
  exact h.past j hb

lemma Over.readsFrom (h : Over file c n ua) : ua.readsFrom file = false := by
  obtain ⟨i, hi⟩ := h.present
  rw [UserAgent.readsFrom, (h.good.inv.player_owner i file c n hi).1]
  simp only [Option.any_some, decide_eq_false_iff_not]
  rw [h.good.inv.consistent.mem_reads, not_not]
  exact h.listeners_eq hi

/-- A player that is connected stays connected while it and the session are on the bridge. -/
lemma Connected.later (h : Connected file c n ua) (hlater : Later gone ua ua')
    (hgood : ua'.Good (Talks fun _ _ => True)) (hplayer : ¬ gone (.player file c n))
    (hcall : ¬ gone (.call c n)) : Connected file c n ua' := by
  obtain ⟨i, j, hi, hj, he⟩ := h.heard
  exact ⟨hgood, i, j, hlater.kept i _ hi hplayer, hlater.kept j _ hj hcall,
    hlater.edge_kept i j _ _ hi hj hplayer hcall he⟩

lemma Over.later (h : Over file c n ua) (hlater : Later gone ua ua')
    (hgood : ua'.Good (Talks fun _ _ => True)) (hplayer : ¬ gone (.player file c n)) :
    Over file c n ua' := by
  obtain ⟨i, hi⟩ := h.present
  refine ⟨hgood, ⟨i, hlater.kept i _ hi hplayer⟩, fun s hs => h.past s ?_⟩
  exact hlater.call_eq s c n hs (h.good.inv.player_owner i file c n hi).2

lemma not_ends_player (hkept : ∀ op ∈ ops, op.releases file = false) :
    ¬ ∃ op ∈ ops, op.ends (.player file c n) := by
  rintro ⟨op, hop, hends⟩
  simp [Op.ends, hkept op hop] at hends

/-- A player that is connected stays connected until the session ends. -/
lemma Connected.passed (h : Connected file c n ua) {played : ℕ} (hpassed : Passed ops played ua ua')
    (hgood : ua'.Good (Talks fun _ _ => True)) (hkept : ∀ op ∈ ops, op.releases file = false) :
    ((∀ op ∈ ops, op.cuts c = false) → Connected file c n ua') ∧
      ((∃ op ∈ ops, op.cuts c) → Over file c n ua') := by
  have hplayer := not_ends_player (c := c) (n := n) hkept
  constructor
  · intro hcuts
    refine h.later hpassed.later hgood hplayer ?_
    rintro ⟨op, hop, hends⟩
    simp [Op.ends, hcuts op hop] at hends
  · intro hcut
    obtain ⟨i, j, hi, hj, -⟩ := h.heard
    refine ⟨hgood, ⟨i, hpassed.later.kept i _ hi hplayer⟩, fun s hs => ?_⟩
    exact absurd (h.good.inv.call_owner j c n hj).2 (not_lt.mpr (hpassed.cut c hcut s n hs))

/-- What was played at any time of any run is connected. -/
lemma connected_of_playWav {maxCalls maxPorts channelCount played : ℕ} {wav : Wav} {ua₁ : UserAgent}
    (hmax : 0 < maxPorts)
    (hrun : (create maxCalls maxPorts channelCount).run ops = .ok (ua, played))
    (hplay : ua.dllPlayWav c wav = .ok (some file, ua₁)) : ∃ n, Connected file c n ua₁ := by
  obtain ⟨ua', played', hrun', hgood, -⟩ := (create_good hmax maxCalls channelCount
    (Talks fun _ _ => True)).run ops fun _ _ _ => trivial
  obtain ⟨rfl, rfl⟩ := Prod.mk.inj (Except.ok.inj (hrun'.symm.trans hrun))
  rcases hgood.playWav c wav with
    ⟨-, hok⟩ | ⟨-, file', ua₁', hok, hgood₁, -, -, n, i, j, -, hi, -, hj, he⟩
  · simp [hplay] at hok
  obtain ⟨hfile, rfl⟩ := Prod.mk.inj (Except.ok.inj (hok.symm.trans hplay))
  obtain rfl := Option.some.inj hfile
  exact ⟨n, hgood₁, i, j, hi, hj, he⟩

/-- A player exists until it is destroyed. -/
lemma keeps_iff (h : ua.Good (Talks fun _ _ => True)) {i : ℕ}
    (hi : ua.conf.source i = some (.player file c n)) :
    ua.Keeps file ops ↔ ∀ op ∈ ops, op.releases file = false := by
  have hsome : (ua.player file).isSome := by simp [(h.inv.player_owner i file c n hi).1]
  induction ops generalizing ua with
  | nil => simpa [Keeps] using hsome
  | cons op ops ih =>
      obtain ⟨started, ua₁, hok, hgood, hpassed⟩ := h.step op fun _ _ _ _ _ => trivial
      have hkeeps : ua.Keeps file (op :: ops) ↔ ua₁.Keeps file ops := by
        simp [Keeps, hsome, hok]
      rw [hkeeps, List.forall_mem_cons]
      cases hop : op.releases file with
      | false =>
          have hi₁ := hpassed.later.kept i _ hi (not_ends_player (by simpa using hop))
          have hrest := ih hgood hi₁ (by simp [(hgood.inv.player_owner i file c n hi₁).1])
          exact hrest.trans (and_iff_right rfl).symm
      | true =>
          have hnone := h.player_eq_none hop hok
          have hnot : ¬ ua₁.Keeps file ops := by cases ops <;> simp [Keeps, hnone]
          simp [hnot]

/-- **How long a player is read.**  After a file was started for a call, at any time in any run, and
whatever happens then: its player still exists and the bridge reads from it if and only if media of
the call was not negotiated anew, the call has not ended, and the player has not been destroyed
since.  A player that is not read does not come to the end of its file, and nobody is told that it
has been played. -/
theorem readsFrom_iff {maxCalls maxPorts channelCount c played file : ℕ} {wav : Wav} {ops : List Op}
    {ua ua₁ : UserAgent} (hmax : 0 < maxPorts)
    (hrun : (create maxCalls maxPorts channelCount).run ops = .ok (ua, played))
    (hplay : ua.dllPlayWav c wav = .ok (some file, ua₁)) (later : List Op) :
    ∃ ua₂ played₂, ua₁.run later = .ok (ua₂, played₂) ∧
      (ua₁.Keeps file later ∧ ua₂.readsFrom file ↔
        ∀ op ∈ later, op.cuts c = false ∧ op.releases file = false) := by
  obtain ⟨n, hconnected⟩ := connected_of_playWav hmax hrun hplay
  obtain ⟨ua₂, played₂, hrun₂, hgood₂, hpassed⟩ :=
    hconnected.good.run later fun _ _ _ => trivial
  obtain ⟨i, -, hi, -, -⟩ := hconnected.heard
  refine ⟨ua₂, played₂, hrun₂, ?_⟩
  rw [keeps_iff hconnected.good hi]
  constructor
  · rintro ⟨hkept, hreads⟩ op hop
    refine ⟨?_, hkept op hop⟩
    by_contra hcut
    have hover := (hconnected.passed hpassed hgood₂ hkept).2 ⟨op, hop, by simpa using hcut⟩
    rw [hover.readsFrom] at hreads
    exact Bool.false_ne_true hreads
  · intro hall
    have hkept : ∀ op ∈ later, op.releases file = false := fun op hop => (hall op hop).2
    exact ⟨hkept,
      ((hconnected.passed hpassed hgood₂ hkept).1 fun op hop => (hall op hop).1).readsFrom⟩

lemma ok_of_toOption {α : Type} {x : Except Fault α} {a : α} (h : x.toOption = some a) :
    x = .ok a := by
  cases x with
  | error e => simp [Except.toOption] at h
  | ok b => simpa [Except.toOption] using h

/-- A call with media, to which a file is played. -/
lemma exists_playing : ∃ ua played ua₁, (create 1 4 1).run [.newCall 0,
      .mediaUpdate 0 (.active .ENCODING_DECODING 1 none)] = .ok (ua, played) ∧
    ua.dllPlayWav 0 (.ok (1, none)) = .ok (some 0, ua₁) := by
  have hplays : (((create 1 4 1).run [.newCall 0,
      .mediaUpdate 0 (.active .ENCODING_DECODING 1 none)]).toOption.bind fun r =>
        (r.1.dllPlayWav 0 (.ok (1, none))).toOption.bind (·.1)) = some 0 := by decide +kernel
  obtain ⟨⟨ua, played⟩, hrun, hbind⟩ := Option.bind_eq_some_iff.mp hplays
  obtain ⟨⟨file, ua₁⟩, hplay, hfile⟩ := Option.bind_eq_some_iff.mp hbind
  obtain rfl : file = some 0 := hfile
  exact ⟨ua, played, ua₁, ok_of_toOption hrun, ok_of_toOption hplay⟩

/-- A file is played.  When the call is put on hold it is not read any more, and as little when its
player has been destroyed. -/
theorem readsFrom_iff_hold :
    ∃ ua played ua₁, (create 1 4 1).run [.newCall 0,
        .mediaUpdate 0 (.active .ENCODING_DECODING 1 none)] = .ok (ua, played) ∧
      ua.dllPlayWav 0 (.ok (1, none)) = .ok (some 0, ua₁) ∧
      (∃ ua₂ played₂, ua₁.run [.setHold 0 true, .mediaUpdate 0 (.active .ENCODING 1 none)] =
          .ok (ua₂, played₂) ∧
        ¬ (ua₁.Keeps 0 [.setHold 0 true, .mediaUpdate 0 (.active .ENCODING 1 none)] ∧
          ua₂.readsFrom 0)) ∧
      ∃ ua₂ played₂, ua₁.run [.releaseWav 0] = .ok (ua₂, played₂) ∧
        ¬ (ua₁.Keeps 0 [.releaseWav 0] ∧ ua₂.readsFrom 0) := by
  obtain ⟨ua, played, ua₁, hrun, hplay⟩ := exists_playing
  obtain ⟨ua₂, played₂, hrun₂, hread⟩ := readsFrom_iff (by decide) hrun hplay
    [.setHold 0 true, .mediaUpdate 0 (.active .ENCODING 1 none)]
  obtain ⟨ua₃, played₃, hrun₃, hread₃⟩ := readsFrom_iff (by decide) hrun hplay [.releaseWav 0]
  exact ⟨ua, played, ua₁, hrun, hplay,
    ⟨ua₂, played₂, hrun₂, fun hreads => by simpa [Op.cuts] using hread.mp hreads⟩,
    ua₃, played₃, hrun₃, fun hreads => by simpa [Op.releases] using hread₃.mp hreads⟩

end Steps

end UserAgent

end TAM
