import AnsweringMachine.Media.CodecManager
import Mathlib.Algebra.BigOperators.Group.Finset.Basic
import Mathlib.Data.Finset.Prod
import Mathlib.Logic.Function.Basic

/-!
# The conference bridge

All sound passes through the conference bridge.  A port is what sound comes from or goes to: the
sound device at slot 0, the stream of a call, the player of a file.  Each port has the list of the
slots it transmits to, and two numbers are kept beside these lists: in each port how many ports
transmit to it, and in the bridge how many connections there are in all.

`Conf.slots` and `Conf.edges` are what the bridge is for: a set of ports in use and a directed graph
on them.  `Conf.Consistent` says that the lists and the numbers agree with the graph and that no
list leads to an empty slot; the operations here keep it.  It is the reason why these, which follow
the lists without looking, meet neither a null pointer nor the end of an array.  The clock of the
bridge, and whole runs, are in `Media.Clock`.

An operation is done by the code of a release build: `PJ_ASSERT_RETURN` returns, and `pj_assert`
does nothing.
-/

namespace TAM

/-- A null pointer is followed or the end of an array is passed. -/
inductive Fault
  | accessViolation
  deriving DecidableEq, Repr

/-- A port of the bridge (`conf_port`), with the media port behind it. -/
structure ConfPort (α : Type) where
  port : α
  /-- The first `listener_cnt` entries of the array `listener_slots`. -/
  listenerSlots : List ℕ := []
  transmitterCnt : ℤ := 0

/-- The bridge (`pjmedia_conf`). -/
@[ext]
structure Conf (α : Type) where
  maxPorts : ℕ
  channelCount : ℕ
  ports : ℕ → Option (ConfPort α)
  portCnt : ℤ
  connectCnt : ℤ

namespace Conf

variable {α : Type}

/-- `pjmedia_conf_create`: the sound device is port 0. -/
def create (maxPorts channelCount : ℕ) (sound : α) : Conf α :=
  { maxPorts
    channelCount
    ports := Function.update (fun _ => none) 0 (some { port := sound })
    portCnt := 1
    connectCnt := 0 }

/-- The search for an empty slot in `pjmedia_conf_add_port`. -/
def emptySlot (c : Conf α) : Option ℕ :=
  (List.range c.maxPorts).find? fun index => (c.ports index).isNone

/-- `pjmedia_conf_add_port`, with the error it meets when it creates the port's structure, and the
slot it writes. -/
def addPort (c : Conf α) (port : α) (channelCount : ℕ) (failure : Option ℕ) :
    Except Fault (PjStatus × Option ℕ × Conf α) :=
  if channelCount ≠ c.channelCount ∧ channelCount ≠ 1 ∧ c.channelCount ≠ 1 then
    .ok (.PJMEDIA_ENCCHANNEL, none, c)
  else if (c.maxPorts : ℤ) ≤ c.portCnt then .ok (.PJ_ETOOMANY, none, c)
  else
    match failure, c.emptySlot with
    | some code, _ => .ok (.error code, none, c)
    | none, none => .error .accessViolation
    | none, some index =>
        .ok (.PJ_SUCCESS, some index,
          { c with
            ports := Function.update c.ports index (some { port }), portCnt := c.portCnt + 1 })

/-- `pjmedia_conf_connect_port`. -/
def connectPort (c : Conf α) (src sink : ℕ) : Except Fault (PjStatus × Conf α) :=
  if src < c.maxPorts ∧ sink < c.maxPorts then
    match c.ports src, c.ports sink with
    | some srcPort, some _ =>
        if sink ∈ srcPort.listenerSlots then .ok (.PJ_SUCCESS, c)
        else if c.maxPorts ≤ srcPort.listenerSlots.length then .error .accessViolation
        else
          let ports := Function.update c.ports src
            (some { srcPort with listenerSlots := srcPort.listenerSlots ++ [sink] })
          let ports := Function.update ports sink
            ((ports sink).map fun p => { p with transmitterCnt := p.transmitterCnt + 1 })
          .ok (.PJ_SUCCESS, { c with ports, connectCnt := c.connectCnt + 1 })
    | _, _ => .ok (.PJ_EINVAL, c)
  else .ok (.PJ_EINVAL, c)

/-- `pjmedia_conf_disconnect_port`. -/
def disconnectPort (c : Conf α) (src sink : ℕ) : Except Fault (PjStatus × Conf α) :=
  if src < c.maxPorts ∧ sink < c.maxPorts then
    match c.ports src, c.ports sink with
    | some srcPort, some _ =>
        if sink ∈ srcPort.listenerSlots then
          let ports := Function.update c.ports src
            (some { srcPort with listenerSlots := srcPort.listenerSlots.erase sink })
          let ports := Function.update ports sink
            ((ports sink).map fun p => { p with transmitterCnt := p.transmitterCnt - 1 })
          .ok (.PJ_SUCCESS, { c with ports, connectCnt := c.connectCnt - 1 })
        else .ok (.PJ_SUCCESS, c)
    | _, _ => .ok (.PJ_EINVAL, c)
  else .ok (.PJ_EINVAL, c)

/-- The body of the first loop of `pjmedia_conf_remove_port`: the port is taken out of the list of
one other. -/
def detach (port : ℕ) (c : Conf α) (i : ℕ) : Conf α :=
  match c.ports i with
  | none => c
  | some srcPort =>
      if port ∈ srcPort.listenerSlots then
        { c with
          ports := Function.update c.ports i
            (some { srcPort with listenerSlots := srcPort.listenerSlots.erase port })
          connectCnt := c.connectCnt - 1 }
      else c

/-- The second loop of `pjmedia_conf_remove_port`: the ports the removed one transmitted to. -/
def release (c : Conf α) : List ℕ → Except Fault (Conf α)
  | [] => .ok c
  | dst :: rest =>
      match c.ports dst with
      | none => .error .accessViolation
      | some dstPort =>
          release
            { c with
              ports := Function.update c.ports dst
                (some { dstPort with transmitterCnt := dstPort.transmitterCnt - 1 })
              connectCnt := c.connectCnt - 1 }
            rest

/-- `pjmedia_conf_remove_port`. -/
def removePort (c : Conf α) (port : ℕ) : Except Fault (PjStatus × Conf α) :=
  if port < c.maxPorts ∧ (c.ports port).isSome then do
    let c := (List.range c.maxPorts).foldl (detach port) c
    let listeners := ((c.ports port).map ConfPort.listenerSlots).getD []
    -- the list is worked off from its end
    let c ← c.release listeners.reverse
    return (.PJ_SUCCESS,
      { c with ports := Function.update c.ports port none, portCnt := c.portCnt - 1 })
  else .ok (.PJ_EINVAL, c)

/-! ## Ports and connections -/

/-- The slots a slot transmits to. -/
def listeners (c : Conf α) (i : ℕ) : List ℕ := ((c.ports i).map ConfPort.listenerSlots).getD []

/-- What stands behind a slot. -/
def source (c : Conf α) (i : ℕ) : Option α := (c.ports i).map ConfPort.port

/-- The slots in use. -/
def slots (c : Conf α) : Finset ℕ := {i ∈ Finset.range c.maxPorts | (c.ports i).isSome}

/-- The connections. -/
def edges (c : Conf α) : Finset (ℕ × ℕ) :=
  {e ∈ Finset.range c.maxPorts ×ˢ Finset.range c.maxPorts | e.2 ∈ c.listeners e.1}

/-- The connections to a slot. -/
def edgesTo (c : Conf α) (j : ℕ) : Finset (ℕ × ℕ) := {e ∈ c.edges | e.2 = j}

/-- The lists and the numbers are those of a graph on the slots in use. -/
structure Consistent (c : Conf α) : Prop where
  slot_lt : ∀ i, (c.ports i).isSome → i < c.maxPorts
  listener_live : ∀ i, ∀ j ∈ c.listeners i, (c.ports j).isSome
  nodup : ∀ i, (c.listeners i).Nodup
  transmitterCnt_eq : ∀ j p, c.ports j = some p → p.transmitterCnt = (c.edgesTo j).card
  connectCnt_eq : c.connectCnt = c.edges.card
  portCnt_eq : c.portCnt = c.slots.card

section Basics

variable {c c' : Conf α} {i j : ℕ}

lemma isSome_of_mem_listeners (h : j ∈ c.listeners i) : (c.ports i).isSome := by
  cases hp : c.ports i <;> simp_all [listeners]

lemma Consistent.mem_edges (h : c.Consistent) {e : ℕ × ℕ} :
    e ∈ c.edges ↔ e.2 ∈ c.listeners e.1 := by
  simp only [edges, Finset.mem_filter, Finset.mem_product, Finset.mem_range, and_iff_right_iff_imp]
  exact fun he => ⟨h.slot_lt _ (isSome_of_mem_listeners he), h.slot_lt _ (h.listener_live _ _ he)⟩

lemma mem_slots_iff : i ∈ c.slots ↔ i < c.maxPorts ∧ (c.ports i).isSome := by simp [slots]

lemma Consistent.mem_slots (h : c.Consistent) : i ∈ c.slots ↔ (c.ports i).isSome :=
  mem_slots_iff.trans (and_iff_right_of_imp (h.slot_lt i))

/-- Nothing is changed but connections. -/
structure SamePorts (c c' : Conf α) : Prop where
  maxPorts_eq : c'.maxPorts = c.maxPorts
  channelCount_eq : c'.channelCount = c.channelCount
  source_eq : ∀ i, c'.source i = c.source i
  portCnt_eq : c'.portCnt = c.portCnt

lemma SamePorts.refl (c : Conf α) : SamePorts c c := ⟨rfl, rfl, fun _ => rfl, rfl⟩

lemma SamePorts.trans {c'' : Conf α} (h : SamePorts c c') (h' : SamePorts c' c'') :
    SamePorts c c'' where
  maxPorts_eq := h'.maxPorts_eq.trans h.maxPorts_eq
  channelCount_eq := h'.channelCount_eq.trans h.channelCount_eq
  source_eq := fun i => (h'.source_eq i).trans (h.source_eq i)
  portCnt_eq := h'.portCnt_eq.trans h.portCnt_eq

/-- Nothing is changed but that there are new connections. -/
structure MoreEdges (c c' : Conf α) : Prop extends SamePorts c c' where
  edges_subset : c.edges ⊆ c'.edges

lemma MoreEdges.refl (c : Conf α) : MoreEdges c c := ⟨.refl c, subset_rfl⟩

lemma MoreEdges.trans {c'' : Conf α} (h : MoreEdges c c') (h' : MoreEdges c' c'') :
    MoreEdges c c'' :=
  ⟨h.toSamePorts.trans h'.toSamePorts, h.edges_subset.trans h'.edges_subset⟩

@[simp] lemma isSome_source (c : Conf α) (i : ℕ) : (c.source i).isSome = (c.ports i).isSome := by
  simp [source]

lemma SamePorts.isSome_eq (h : SamePorts c c') (i : ℕ) :
    (c'.ports i).isSome = (c.ports i).isSome := by
  simpa using congrArg Option.isSome (h.source_eq i)

lemma SamePorts.slots_eq (h : SamePorts c c') : c'.slots = c.slots := by
  simp only [slots, h.maxPorts_eq, h.isSome_eq]

/-- The connections after a change, if the lists still lead to ports in use. -/
lemma SamePorts.mem_edges (h : SamePorts c c') (hc : c.Consistent)
    (hlive : ∀ i, ∀ j ∈ c'.listeners i, (c.ports j).isSome) {e : ℕ × ℕ} :
    e ∈ c'.edges ↔ e.2 ∈ c'.listeners e.1 := by
  simp only [edges, Finset.mem_filter, Finset.mem_product, Finset.mem_range, and_iff_right_iff_imp,
    h.maxPorts_eq]
  intro he
  have hsome := isSome_of_mem_listeners he
  rw [h.isSome_eq] at hsome
  exact ⟨hc.slot_lt _ hsome, hc.slot_lt _ (hlive _ _ he)⟩

lemma Consistent.of_samePorts (h : c.Consistent) (hs : SamePorts c c')
    (hlive : ∀ i, ∀ j ∈ c'.listeners i, (c.ports j).isSome) (hnodup : ∀ i, (c'.listeners i).Nodup)
    (htransmitter : ∀ j p, c'.ports j = some p → p.transmitterCnt = (c'.edgesTo j).card)
    (hconnect : c'.connectCnt = c'.edges.card) : c'.Consistent where
  slot_lt i hi := by
    rw [hs.isSome_eq] at hi
    exact hs.maxPorts_eq ▸ h.slot_lt i hi
  listener_live i j hj := by
    rw [hs.isSome_eq]
    exact hlive i j hj
  nodup := hnodup
  transmitterCnt_eq := htransmitter
  connectCnt_eq := hconnect
  portCnt_eq := by rw [hs.portCnt_eq, hs.slots_eq, h.portCnt_eq]

end Basics

/-! ## Connecting and disconnecting -/

/-- The list of one port and the number of another one are changed, and the number of
connections. -/
def rewire (c : Conf α) (src sink : ℕ) (f : List ℕ → List ℕ) (d : ℤ) : Conf α :=
  { c with
    ports := fun i => (c.ports i).map fun p =>
      { p with
        listenerSlots := if i = src then f p.listenerSlots else p.listenerSlots
        transmitterCnt := if i = sink then p.transmitterCnt + d else p.transmitterCnt }
    connectCnt := c.connectCnt + d }

section Rewire

variable {c : Conf α} {src sink : ℕ} {f : List ℕ → List ℕ} {d : ℤ}

/-- Writing the two ports one after the other, which may be the same. -/
lemma update_update_eq_rewire {srcPort : ConfPort α} (hsrc : c.ports src = some srcPort) :
    Function.update
      (Function.update c.ports src (some { srcPort with listenerSlots := f srcPort.listenerSlots }))
      sink
      ((Function.update c.ports src
        (some { srcPort with listenerSlots := f srcPort.listenerSlots }) sink).map
          fun p => { p with transmitterCnt := p.transmitterCnt + d }) =
      (c.rewire src sink f d).ports := by
  funext i
  by_cases hsink : i = sink
  · subst hsink
    by_cases hi : i = src
    · subst hi
      simp [rewire, hsrc]
    · simp [rewire, hi]
  · by_cases hi : i = src
    · subst hi
      simp [rewire, hsrc, hsink]
    · simp [rewire, hi, hsink]

lemma rewire_samePorts : SamePorts c (c.rewire src sink f d) :=
  ⟨rfl, rfl, fun i => by simp [source, rewire, Function.comp_def], rfl⟩

lemma listeners_rewire (hsrc : (c.ports src).isSome) (i : ℕ) :
    (c.rewire src sink f d).listeners i =
      if i = src then f (c.listeners src) else c.listeners i := by
  by_cases hi : i = src
  · subst hi
    obtain ⟨p, hp⟩ := Option.isSome_iff_exists.mp hsrc
    simp [rewire, listeners, hp]
  · simp [rewire, listeners, hi, Function.comp_def]

lemma transmitterCnt_rewire {j : ℕ} {p' : ConfPort α}
    (h : (c.rewire src sink f d).ports j = some p') :
    ∃ p, c.ports j = some p ∧ p'.transmitterCnt = p.transmitterCnt + if j = sink then d else 0 := by
  obtain ⟨p, hp, rfl⟩ := Option.map_eq_some_iff.mp h
  refine ⟨p, hp, ?_⟩
  by_cases hj : j = sink <;> simp [hj]

end Rewire

section Connect

variable {c : Conf α} {src sink : ℕ}

/-- A list that does not contain a slot has room for it. -/
lemma Consistent.length_lt (h : c.Consistent) (hsink : (c.ports sink).isSome)
    (hnew : sink ∉ c.listeners src) : (c.listeners src).length < c.maxPorts := by
  have hnodup : (sink :: c.listeners src).Nodup := List.nodup_cons.mpr ⟨hnew, h.nodup src⟩
  have hsubset : (sink :: c.listeners src).toFinset ⊆ Finset.range c.maxPorts := by
    intro j hj
    rw [Finset.mem_range]
    rcases List.mem_cons.mp (List.mem_toFinset.mp hj) with rfl | hj
    · exact h.slot_lt _ hsink
    · exact h.slot_lt j (h.listener_live src j hj)
  have := Finset.card_le_card hsubset
  rw [List.toFinset_card_of_nodup hnodup, Finset.card_range, List.length_cons] at this
  exact this

lemma edgesTo_insert (c' : Conf α) (hedges : c'.edges = insert (src, sink) c.edges)
    (hnew : (src, sink) ∉ c.edges) (j : ℕ) :
    ((c'.edgesTo j).card : ℤ) = (c.edgesTo j).card + if j = sink then 1 else 0 := by
  simp only [edgesTo, hedges, Finset.filter_insert]
  by_cases hj : sink = j
  · subst hj
    rw [if_pos rfl, if_pos rfl, Finset.card_insert_of_notMem (by simp [hnew])]
    push_cast
    rfl
  · rw [if_neg hj, if_neg (Ne.symm hj), add_zero]

/-- A new connection. -/
lemma Consistent.connect (h : c.Consistent) (hsrc : (c.ports src).isSome)
    (hsink : (c.ports sink).isSome) (hnew : sink ∉ c.listeners src) :
    (c.rewire src sink (· ++ [sink]) 1).Consistent ∧
      (c.rewire src sink (· ++ [sink]) 1).edges = insert (src, sink) c.edges := by
  set c' := c.rewire src sink (· ++ [sink]) 1
  have hs : SamePorts c c' := rewire_samePorts
  have hl : ∀ i, c'.listeners i = if i = src then c.listeners src ++ [sink] else c.listeners i :=
    listeners_rewire hsrc
  have hlive : ∀ i, ∀ j ∈ c'.listeners i, (c.ports j).isSome := by
    intro i j hj
    rw [hl] at hj
    split_ifs at hj
    · rcases List.mem_append.mp hj with hj | hj
      · exact h.listener_live src j hj
      · rwa [List.mem_singleton.mp hj]
    · exact h.listener_live i j hj
  have hnodup : ∀ i, (c'.listeners i).Nodup := by
    intro i
    rw [hl]
    split_ifs
    · exact List.nodup_append.mpr ⟨h.nodup src, List.nodup_singleton sink,
        by simpa using fun a ha (hs : a = sink) => hnew (hs ▸ ha)⟩
    · exact h.nodup i
  have hedges : c'.edges = insert (src, sink) c.edges := by
    ext ⟨i, j⟩
    rw [hs.mem_edges h hlive, hl, Finset.mem_insert, h.mem_edges]
    by_cases hi : i = src <;> simp [hi, or_comm]
  have hnew' : (src, sink) ∉ c.edges := by rwa [h.mem_edges]
  refine ⟨h.of_samePorts hs hlive hnodup ?_ ?_, hedges⟩
  · intro j p' hp'
    obtain ⟨p, hp, hcnt⟩ := transmitterCnt_rewire hp'
    rw [hcnt, h.transmitterCnt_eq j p hp, edgesTo_insert c' hedges hnew']
  · rw [hedges, Finset.card_insert_of_notMem hnew']
    push_cast
    rw [← h.connectCnt_eq]
    rfl

/-- A connection less. -/
lemma Consistent.disconnect (h : c.Consistent) (hsrc : (c.ports src).isSome)
    (hold : sink ∈ c.listeners src) :
    (c.rewire src sink (·.erase sink) (-1)).Consistent ∧
      (c.rewire src sink (·.erase sink) (-1)).edges = c.edges.erase (src, sink) := by
  set c' := c.rewire src sink (·.erase sink) (-1)
  have hs : SamePorts c c' := rewire_samePorts
  have hl : ∀ i, c'.listeners i = if i = src then (c.listeners src).erase sink else c.listeners i :=
    listeners_rewire hsrc
  have hsub : ∀ i, (c'.listeners i).Sublist (c.listeners i) := by
    intro i
    rw [hl]
    split_ifs with hi
    · exact hi ▸ List.erase_sublist
    · exact List.Sublist.refl _
  have hlive : ∀ i, ∀ j ∈ c'.listeners i, (c.ports j).isSome := fun i j hj =>
    h.listener_live i j ((hsub i).subset hj)
  have hedges : c'.edges = c.edges.erase (src, sink) := by
    ext ⟨i, j⟩
    rw [hs.mem_edges h hlive, hl, Finset.mem_erase, h.mem_edges]
    by_cases hi : i = src
    · simp [hi, (h.nodup src).mem_erase_iff]
    · simp [hi]
  -- read backwards it is a new connection
  have hinsert : c.edges = insert (src, sink) c'.edges := by
    rw [hedges, Finset.insert_erase (h.mem_edges.mpr hold)]
  have hnew : (src, sink) ∉ c'.edges := by rw [hedges]; exact Finset.notMem_erase _ _
  refine ⟨h.of_samePorts hs hlive (fun i => (h.nodup i).sublist (hsub i)) ?_ ?_, hedges⟩
  · intro j p' hp'
    obtain ⟨p, hp, hcnt⟩ := transmitterCnt_rewire hp'
    have := edgesTo_insert c hinsert hnew j
    rw [hcnt, h.transmitterCnt_eq j p hp, this]
    split_ifs <;> omega
  · have hcard : (c.edges.card : ℤ) = c'.edges.card + 1 := by
      rw [hinsert, Finset.card_insert_of_notMem hnew]
      push_cast
      rfl
    have hcnt : c'.connectCnt = c.connectCnt + -1 := rfl
    rw [hcnt, h.connectCnt_eq, hcard]
    omega

/-- What `pjmedia_conf_connect_port` does to a consistent bridge. -/
lemma Consistent.connectPort (h : c.Consistent) (src sink : ℕ) :
    ∃ status c', c.connectPort src sink = .ok (status, c') ∧ c'.Consistent ∧ SamePorts c c' ∧
      (status = .PJ_SUCCESS ↔ src ∈ c.slots ∧ sink ∈ c.slots) ∧
      c'.edges =
        if src ∈ c.slots ∧ sink ∈ c.slots then insert (src, sink) c.edges else c.edges := by
  simp only [h.mem_slots]
  by_cases hlive : (c.ports src).isSome ∧ (c.ports sink).isSome
  · obtain ⟨hsrc, hsink⟩ := hlive
    obtain ⟨srcPort, hsrcPort⟩ := Option.isSome_iff_exists.mp hsrc
    obtain ⟨sinkPort, hsinkPort⟩ := Option.isSome_iff_exists.mp hsink
    have hlisteners : c.listeners src = srcPort.listenerSlots := by simp [listeners, hsrcPort]
    simp only [Conf.connectPort, h.slot_lt src hsrc, h.slot_lt sink hsink, and_self, if_true,
      hsrcPort, hsinkPort, Option.isSome_some]
    split_ifs with hold hfull
    · refine ⟨.PJ_SUCCESS, c, rfl, h, .refl c, by simp, ?_⟩
      exact (Finset.insert_eq_self.mpr (h.mem_edges.mpr (hlisteners ▸ hold))).symm
    · exact absurd (h.length_lt hsink (hlisteners ▸ hold)) (by rw [hlisteners]; omega)
    · obtain ⟨hcons, hedges⟩ := h.connect hsrc hsink (hlisteners ▸ hold)
      refine ⟨.PJ_SUCCESS, c.rewire src sink (· ++ [sink]) 1, ?_, hcons, rewire_samePorts, by simp,
        hedges⟩
      rw [update_update_eq_rewire (f := (· ++ [sink])) hsrcPort]
      rfl
  · refine ⟨.PJ_EINVAL, c, ?_, h, .refl c, by simp [hlive], by simp [hlive]⟩
    simp only [Conf.connectPort]
    split_ifs
    · cases hsrc : c.ports src <;> cases hsink : c.ports sink <;> simp_all
    · rfl

/-- What `pjmedia_conf_disconnect_port` does to a consistent bridge. -/
lemma Consistent.disconnectPort (h : c.Consistent) (src sink : ℕ) :
    ∃ status c', c.disconnectPort src sink = .ok (status, c') ∧ c'.Consistent ∧ SamePorts c c' ∧
      c'.edges = c.edges.erase (src, sink) := by
  by_cases hold : sink ∈ c.listeners src
  · have hsrc := isSome_of_mem_listeners hold
    have hsink := h.listener_live src sink hold
    obtain ⟨srcPort, hsrcPort⟩ := Option.isSome_iff_exists.mp hsrc
    obtain ⟨sinkPort, hsinkPort⟩ := Option.isSome_iff_exists.mp hsink
    have hlisteners : c.listeners src = srcPort.listenerSlots := by simp [listeners, hsrcPort]
    obtain ⟨hcons, hedges⟩ := h.disconnect hsrc hold
    refine ⟨.PJ_SUCCESS, c.rewire src sink (·.erase sink) (-1), ?_, hcons, rewire_samePorts, hedges⟩
    rw [hlisteners] at hold
    simp only [Conf.disconnectPort, h.slot_lt src hsrc, h.slot_lt sink hsink, and_self, if_true,
      hsrcPort, hsinkPort, hold]
    simp only [sub_eq_add_neg]
    rw [update_update_eq_rewire (f := (·.erase sink)) hsrcPort]
    rfl
  · have hnone : c.edges = c.edges.erase (src, sink) :=
      (Finset.erase_eq_of_notMem (by rwa [h.mem_edges])).symm
    have hnot : ∀ srcPort, c.ports src = some srcPort → sink ∉ srcPort.listenerSlots := by
      intro srcPort hsrcPort
      simpa [listeners, hsrcPort] using hold
    simp only [Conf.disconnectPort]
    split_ifs
    · cases hsrc : c.ports src <;> cases hsink : c.ports sink
      case some.some srcPort sinkPort =>
        exact ⟨_, c, if_neg (hnot srcPort hsrc), h, .refl c, hnone⟩
      all_goals exact ⟨_, c, rfl, h, .refl c, hnone⟩
    · exact ⟨_, c, rfl, h, .refl c, hnone⟩

end Connect

/-! ## Removing a port -/

section Remove

variable {c : Conf α} {port : ℕ}

/-- The first loop, up to a slot. -/
lemma foldl_detach (c : Conf α) (port n : ℕ) :
    (List.range n).foldl (detach port) c =
      { c with
        ports := fun i => if i < n then
          (c.ports i).map fun p => { p with listenerSlots := p.listenerSlots.erase port }
        else c.ports i
        connectCnt := c.connectCnt - ({i ∈ Finset.range n | port ∈ c.listeners i}.card : ℕ) } := by
  induction n with
  | zero => simp
  | succ n ih =>
      have hcount : {i ∈ Finset.range (n + 1) | port ∈ c.listeners i}.card =
          {i ∈ Finset.range n | port ∈ c.listeners i}.card +
            if port ∈ c.listeners n then 1 else 0 := by
        rw [Finset.range_add_one, Finset.filter_insert]
        split_ifs <;> simp
      rw [List.range_succ, List.foldl_append, ih, List.foldl_cons, List.foldl_nil, hcount]
      have hslot : ∀ i, i ≠ n → (i < n + 1 ↔ i < n) := fun i hi => by omega
      cases hp : c.ports n with
      | none =>
          have hcold : port ∉ c.listeners n := by simp [listeners, hp]
          simp only [detach, lt_irrefl, if_false, hp, hcold, add_zero]
          refine Conf.ext rfl rfl (funext fun i => ?_) rfl rfl
          by_cases hi : i = n
          · simp [hi, hp]
          · simp [hslot i hi]
      | some p =>
          have hlisteners : c.listeners n = p.listenerSlots := by simp [listeners, hp]
          simp only [detach, lt_irrefl, if_false, hp, hlisteners]
          split_ifs with hmem
          · refine Conf.ext rfl rfl (funext fun i => ?_) rfl ?_
            · by_cases hi : i = n
              · simp [hi, hp]
              · simp [hi, hslot i hi]
            · push_cast
              omega
          · refine Conf.ext rfl rfl (funext fun i => ?_) rfl (by simp)
            by_cases hi : i = n
            · simp [hi, hp, List.erase_of_not_mem hmem]
            · simp [hslot i hi]

/-- The second loop, if it leads to different ports in use. -/
lemma release_eq {ds : List ℕ} (hnodup : ds.Nodup) (hlive : ∀ j ∈ ds, (c.ports j).isSome) :
    c.release ds = .ok
      { c with
        ports := fun i => (c.ports i).map fun p =>
          { p with transmitterCnt := p.transmitterCnt - if i ∈ ds then 1 else 0 }
        connectCnt := c.connectCnt - ds.length } := by
  induction ds generalizing c with
  | nil => simp [release]
  | cons dst rest ih =>
      obtain ⟨hnew, hrest⟩ := List.nodup_cons.mp hnodup
      obtain ⟨p, hp⟩ := Option.isSome_iff_exists.mp (hlive dst (by simp))
      have hlive' : ∀ j ∈ rest, (Function.update c.ports dst
          (some { p with transmitterCnt := p.transmitterCnt - 1 }) j).isSome := by
        intro j hj
        have hne : j ≠ dst := fun h => hnew (h ▸ hj)
        rw [Function.update_of_ne hne]
        exact hlive j (by simp [hj])
      simp only [release, hp]
      rw [ih hrest hlive']
      refine congrArg _ (Conf.ext rfl rfl (funext fun i => ?_) rfl ?_)
      · by_cases hi : i = dst
        · simp [hi, hp, hnew]
        · simp [hi]
      · simp only [List.length_cons]
        push_cast
        omega

/-- The bridge without a port. -/
def removed (c : Conf α) (port : ℕ) : Conf α :=
  { c with
    ports := fun i => if i = port then none else (c.ports i).map fun p =>
      { p with
        listenerSlots := p.listenerSlots.erase port
        transmitterCnt := p.transmitterCnt - if i ∈ c.listeners port then 1 else 0 }
    portCnt := c.portCnt - 1
    connectCnt := c.connectCnt - ({i ∈ Finset.range c.maxPorts | port ∈ c.listeners i}.card : ℕ) -
      ((c.listeners port).erase port).length }

lemma Consistent.removePort_eq (h : c.Consistent) (hport : (c.ports port).isSome) :
    c.removePort port = .ok (.PJ_SUCCESS, c.removed port) := by
  have hlt := h.slot_lt port hport
  obtain ⟨p, hp⟩ := Option.isSome_iff_exists.mp hport
  have hlisteners : c.listeners port = p.listenerSlots := by simp [listeners, hp]
  have hnodup : ((c.listeners port).erase port).reverse.Nodup :=
    List.nodup_reverse.mpr ((h.nodup port).erase port)
  -- every port is met by the first loop
  have hports : ∀ i, (if i < c.maxPorts then (c.ports i).map fun p =>
      { p with listenerSlots := p.listenerSlots.erase port } else c.ports i) =
      (c.ports i).map fun p => { p with listenerSlots := p.listenerSlots.erase port } := by
    intro i
    split_ifs with hi
    · rfl
    · have hnone : c.ports i = none := by
        simpa using mt (h.slot_lt i) hi
      simp [hnone]
  rw [removePort, if_pos ⟨hlt, hport⟩]
  simp only [foldl_detach, hports, hp, Option.map_some, Option.getD_some, ← hlisteners]
  rw [release_eq hnodup]
  · refine congrArg Except.ok (Prod.ext rfl (Conf.ext rfl rfl (funext fun i => ?_) rfl ?_))
    · by_cases hi : i = port
      · simp [hi, removed]
      · simp [hi, removed, Function.comp_def, List.mem_erase_of_ne hi]
    · simp [removed]
  · intro j hj
    have hj : j ∈ c.listeners port := List.mem_of_mem_erase (List.mem_reverse.mp hj)
    simpa using h.listener_live port j hj

lemma listeners_removed (c : Conf α) (port i : ℕ) :
    (c.removed port).listeners i = if i = port then [] else (c.listeners i).erase port := by
  by_cases hi : i = port
  · simp [listeners, removed, hi]
  · cases hp : c.ports i <;> simp [listeners, removed, hi, hp]

lemma isSome_removed (c : Conf α) (port i : ℕ) :
    ((c.removed port).ports i).isSome ↔ i ≠ port ∧ (c.ports i).isSome := by
  by_cases hi : i = port <;> simp [removed, hi]

lemma source_removed (c : Conf α) (port i : ℕ) :
    (c.removed port).source i = if i = port then none else c.source i := by
  by_cases hi : i = port <;> simp [source, removed, hi, Function.comp_def]

lemma slots_removed (c : Conf α) (port : ℕ) : (c.removed port).slots = c.slots.erase port := by
  ext i
  rw [Finset.mem_erase, mem_slots_iff, mem_slots_iff, isSome_removed]
  exact and_left_comm

lemma Consistent.mem_listeners_removed (h : c.Consistent) {i j : ℕ} :
    j ∈ (c.removed port).listeners i ↔ i ≠ port ∧ j ≠ port ∧ j ∈ c.listeners i := by
  rw [listeners_removed]
  by_cases hi : i = port
  · simp [hi]
  · simp [hi, (h.nodup i).mem_erase_iff]

lemma Consistent.edges_removed (h : c.Consistent) :
    (c.removed port).edges = {e ∈ c.edges | e.1 ≠ port ∧ e.2 ≠ port} := by
  ext e
  rw [Finset.mem_filter, h.mem_edges]
  simp only [edges, Finset.mem_filter, Finset.mem_product, Finset.mem_range,
    h.mem_listeners_removed]
  constructor
  · rintro ⟨-, hsrc, hsink, he⟩
    exact ⟨he, hsrc, hsink⟩
  · rintro ⟨he, hsrc, hsink⟩
    exact ⟨⟨h.slot_lt _ (isSome_of_mem_listeners he), h.slot_lt _ (h.listener_live _ _ he)⟩, hsrc,
      hsink, he⟩

/-- The connections to the port are as many as the ports that the first loop changes ... -/
lemma Consistent.card_edgesTo (h : c.Consistent) :
    (c.edgesTo port).card = {i ∈ Finset.range c.maxPorts | port ∈ c.listeners i}.card := by
  have himage : c.edgesTo port =
      {i ∈ Finset.range c.maxPorts | port ∈ c.listeners i}.image fun i => (i, port) := by
    ext ⟨i, j⟩
    simp only [edgesTo, Finset.mem_filter, h.mem_edges, Finset.mem_image, Finset.mem_range,
      Prod.mk.injEq]
    constructor
    · rintro ⟨hij, rfl⟩
      exact ⟨i, ⟨h.slot_lt i (isSome_of_mem_listeners hij), hij⟩, rfl, rfl⟩
    · rintro ⟨i, ⟨-, hij⟩, rfl, rfl⟩
      exact ⟨hij, rfl⟩
  rw [himage, Finset.card_image_of_injective _ fun i i' hi => congrArg Prod.fst hi]

/-- ... and those from it to others as many as the turns of the second. -/
lemma Consistent.card_edgesFrom (h : c.Consistent) :
    {e ∈ c.edges | e.1 = port ∧ e.2 ≠ port}.card = ((c.listeners port).erase port).length := by
  have himage : {e ∈ c.edges | e.1 = port ∧ e.2 ≠ port} =
      ((c.listeners port).erase port).toFinset.image fun j => (port, j) := by
    ext ⟨i, j⟩
    simp only [Finset.mem_filter, h.mem_edges, Finset.mem_image, List.mem_toFinset,
      (h.nodup port).mem_erase_iff, Prod.mk.injEq]
    constructor
    · rintro ⟨hij, rfl, hj⟩
      exact ⟨j, ⟨hj, hij⟩, rfl, rfl⟩
    · rintro ⟨j, ⟨hj, hij⟩, rfl, rfl⟩
      exact ⟨hij, rfl, hj⟩
  rw [himage, Finset.card_image_of_injective _ fun j j' hj => congrArg Prod.snd hj,
    List.toFinset_card_of_nodup ((h.nodup port).erase port)]

variable (port) in
/-- What is removed are the connections to the port and those from it to others. -/
lemma Consistent.card_edges_removed (h : c.Consistent) :
    c.edges.card = (c.removed port).edges.card + (c.edgesTo port).card +
      {e ∈ c.edges | e.1 = port ∧ e.2 ≠ port}.card := by
  have hto := Finset.card_filter_add_card_filter_not (s := c.edges) fun e => e.2 = port
  have hfrom := Finset.card_filter_add_card_filter_not (s := {e ∈ c.edges | ¬ e.2 = port})
    fun e => e.1 = port
  have hmine : {e ∈ {e ∈ c.edges | ¬ e.2 = port} | e.1 = port} =
      {e ∈ c.edges | e.1 = port ∧ e.2 ≠ port} := by
    ext e
    simp only [Finset.mem_filter]
    tauto
  have hrest : {e ∈ {e ∈ c.edges | ¬ e.2 = port} | ¬ e.1 = port} = (c.removed port).edges := by
    ext e
    simp only [h.edges_removed, Finset.mem_filter]
    tauto
  rw [hmine, hrest] at hfrom
  rw [edgesTo]
  omega

lemma Consistent.card_edgesTo_removed (h : c.Consistent) {j : ℕ} (hj : j ≠ port) :
    (c.edgesTo j).card = ((c.removed port).edgesTo j).card +
      if j ∈ c.listeners port then 1 else 0 := by
  have hsplit := Finset.card_filter_add_card_filter_not (s := c.edgesTo j) fun e => e.1 = port
  have hfrom :
      {e ∈ c.edgesTo j | e.1 = port} = if j ∈ c.listeners port then {(port, j)} else ∅ := by
    ext ⟨i, k⟩
    simp only [edgesTo, Finset.mem_filter, h.mem_edges]
    split_ifs <;> simp <;> grind
  have hrest : {e ∈ c.edgesTo j | ¬ e.1 = port} = (c.removed port).edgesTo j := by
    ext ⟨i, k⟩
    simp only [edgesTo, h.edges_removed, Finset.mem_filter]
    grind
  rw [hfrom, hrest] at hsplit
  rw [← hsplit]
  split_ifs <;> simp [add_comm]

/-- Without the port and its connections the bridge is consistent. -/
lemma Consistent.removed (h : c.Consistent) (hport : (c.ports port).isSome) :
    (c.removed port).Consistent where
  slot_lt i hi := h.slot_lt i ((isSome_removed c port i).mp hi).2
  listener_live i j hj := by
    obtain ⟨-, hne, hj⟩ := h.mem_listeners_removed.mp hj
    exact (isSome_removed c port j).mpr ⟨hne, h.listener_live i j hj⟩
  nodup i := by
    rw [listeners_removed]
    split_ifs
    · exact List.nodup_nil
    · exact (h.nodup i).erase port
  transmitterCnt_eq j p' hp' := by
    have hj : j ≠ port := ((isSome_removed c port j).mp (by simp [hp'])).1
    simp only [Conf.removed, hj, if_false] at hp'
    obtain ⟨p, hp, rfl⟩ := Option.map_eq_some_iff.mp hp'
    have := h.card_edgesTo_removed hj
    simp only [h.transmitterCnt_eq j p hp, this]
    split_ifs <;> push_cast <;> omega
  connectCnt_eq := by
    have hcnt : (c.removed port).connectCnt = c.connectCnt -
        ({i ∈ Finset.range c.maxPorts | port ∈ c.listeners i}.card : ℕ) -
        ((c.listeners port).erase port).length := rfl
    have := h.card_edges_removed port
    rw [hcnt, h.connectCnt_eq, ← h.card_edgesTo, ← h.card_edgesFrom]
    omega
  portCnt_eq := by
    have hmem : port ∈ c.slots := h.mem_slots.mpr hport
    have := Finset.card_erase_add_one hmem
    rw [slots_removed]
    simp only [Conf.removed, h.portCnt_eq]
    omega

end Remove

/-! ## Adding a port -/

section Add

variable {c : Conf α}

/-- There is an empty slot while not all are in use. -/
lemma Consistent.exists_emptySlot (h : c.Consistent) (hcnt : ¬ (c.maxPorts : ℤ) ≤ c.portCnt) :
    ∃ index, c.emptySlot = some index ∧ index < c.maxPorts ∧ c.ports index = none := by
  have hlt : c.slots.card < (Finset.range c.maxPorts).card := by
    rw [Finset.card_range]
    have := h.portCnt_eq
    omega
  obtain ⟨i, hi, hfree⟩ := Finset.exists_mem_notMem_of_card_lt_card hlt
  rw [h.mem_slots, Option.not_isSome_iff_eq_none] at hfree
  obtain ⟨index, hindex⟩ := Option.isSome_iff_exists.mp
    (List.find?_isSome (p := fun index => (c.ports index).isNone).mpr
      ⟨i, List.mem_range.mpr (Finset.mem_range.mp hi), by simp [hfree]⟩)
  refine ⟨index, hindex, List.mem_range.mp (List.mem_of_find?_eq_some hindex), ?_⟩
  simpa using List.find?_some hindex

/-- The bridge with a new port. -/
def added (c : Conf α) (port : α) (index : ℕ) : Conf α :=
  { c with ports := Function.update c.ports index (some { port }), portCnt := c.portCnt + 1 }

variable {port : α} {index : ℕ}

lemma listeners_added (hfree : c.ports index = none) :
    (c.added port index).listeners = c.listeners := by
  funext i
  by_cases hi : i = index
  · simp [added, listeners, hi, hfree]
  · simp [added, listeners, hi]

lemma source_added (c : Conf α) (port : α) (index i : ℕ) :
    (c.added port index).source i = if i = index then some port else c.source i := by
  by_cases hi : i = index <;> simp [source, added, hi]

lemma edges_added (hfree : c.ports index = none) : (c.added port index).edges = c.edges := by
  simp only [edges, listeners_added hfree]
  rfl

lemma slots_added (hlt : index < c.maxPorts) :
    (c.added port index).slots = insert index c.slots := by
  ext i
  rw [Finset.mem_insert, mem_slots_iff, mem_slots_iff]
  by_cases hi : i = index
  · simp [added, hi, hlt]
  · simp [added, hi]

lemma Consistent.added (h : c.Consistent) (hlt : index < c.maxPorts)
    (hfree : c.ports index = none) :
    (c.added port index).Consistent where
  slot_lt i hi := by
    by_cases hii : i = index
    · exact hii ▸ hlt
    · exact h.slot_lt i (by simpa [Conf.added, hii] using hi)
  listener_live i j hj := by
    rw [listeners_added hfree] at hj
    by_cases hji : j = index
    · simp [Conf.added, hji]
    · simpa [Conf.added, hji] using h.listener_live i j hj
  nodup i := by
    rw [listeners_added hfree]
    exact h.nodup i
  transmitterCnt_eq j p hp := by
    simp only [edgesTo, edges_added hfree]
    by_cases hji : j = index
    · -- nothing led to the slot while it was empty
      have hnone : {e ∈ c.edges | e.2 = j} = ∅ := Finset.filter_eq_empty_iff.mpr fun e he hej => by
        have := h.listener_live _ _ (h.mem_edges.mp he)
        simp [hej, hji, hfree] at this
      simp only [Conf.added, hji, Function.update_self, Option.some.injEq] at hp
      rw [hnone, ← hp]
      rfl
    · exact h.transmitterCnt_eq j p (by simpa [Conf.added, hji] using hp)
  connectCnt_eq := by
    rw [edges_added hfree]
    exact h.connectCnt_eq
  portCnt_eq := by
    have hnew : index ∉ c.slots := by simp [h.mem_slots, hfree]
    rw [slots_added hlt, Finset.card_insert_of_notMem hnew]
    simp [Conf.added, h.portCnt_eq]

/-- Why a port is not added. -/
def Refused (c : Conf α) (channelCount : ℕ) (failure : Option ℕ) : Prop :=
  (channelCount ≠ c.channelCount ∧ channelCount ≠ 1 ∧ c.channelCount ≠ 1) ∨ failure.isSome ∨
    c.maxPorts ≤ c.slots.card

/-- What `pjmedia_conf_add_port` does to a consistent bridge. -/
lemma Consistent.addPort (h : c.Consistent) (port : α) (channelCount : ℕ) (failure : Option ℕ) :
    (c.Refused channelCount failure ∧ ∃ status, status ≠ .PJ_SUCCESS ∧
      c.addPort port channelCount failure = .ok (status, none, c)) ∨
    ¬ c.Refused channelCount failure ∧ ∃ index, c.addPort port channelCount failure =
        .ok (.PJ_SUCCESS, some index, c.added port index) ∧
      c.emptySlot = some index ∧ index < c.maxPorts ∧ c.ports index = none := by
  have hcard : c.maxPorts ≤ c.slots.card ↔ (c.maxPorts : ℤ) ≤ c.portCnt := by
    rw [h.portCnt_eq]
    exact Nat.cast_le.symm
  simp only [Conf.addPort, Refused, hcard]
  split_ifs with hchannels hcnt
  · exact .inl ⟨.inl hchannels, _, by simp, rfl⟩
  · exact .inl ⟨.inr (.inr hcnt), _, by simp, rfl⟩
  · obtain ⟨index, hempty, hlt, hfree⟩ := h.exists_emptySlot hcnt
    cases failure with
    | some code => exact .inl ⟨.inr (.inl rfl), _, by simp, rfl⟩
    | none =>
        exact .inr ⟨by simp [hchannels, hcnt], index, by simp [hempty, Conf.added], hempty, hlt,
          hfree⟩

end Add

end Conf

end TAM
