import AnsweringMachine.Library.Runs
import AnsweringMachine.Media.Conference

/-!
# The clock of the bridge

At each tick of its clock the bridge reads a frame from every port that has listeners, adds it to
what they are to hear, and hands every port what was mixed for it (`get_frame`).  A port is read by
code of its own, on the same thread, which may take ports off the bridge: a player whose file has
ended is destroyed by the callback that its end is reported to.  The loop is prepared for that in
one way, it looks whether the port it has read is still there.  In another way it is not: it counts
the ports it has seen up to the number there are, and that number has become smaller.

`readLoop` is the loop, on anything that can be looked at like a bridge: on the bridge itself, on
the graph it stands for, and later on the user agent the bridge belongs to.

`get_frame`, the recording side `put_frame` and `pjmedia_conf_set_port0_name` follow the pointer in
slot 0 without a look at it, and slot 0 can be removed like any other.  `Conf.run_consistent` is
about all operations in any order: nothing else can go wrong, and apart from that the bridge is a
graph.
-/

namespace TAM

namespace Conf

/-! ## Reading the ports -/

/-- What `get_frame` looks at before it reads a port: how many ports there are, which slots are in
use, and which of them have listeners. -/
@[ext]
structure Look where
  portCnt : ℤ
  inUse : ℕ → Bool
  hasListeners : ℕ → Bool

/-- The loop of `get_frame` that reads the ports, over the slots that are left.  It ends when as
many ports were seen as there are, and passes over ports without listeners. -/
def readLoop {m : Type → Type} [Monad m] {σ : Type} (look : σ → Look) (read : ℕ → σ → m σ) :
    ℤ → List ℕ → σ → m σ
  | _, [], s => pure s
  | seen, i :: is, s =>
      if seen < (look s).portCnt then
        if (look s).inUse i then
          if (look s).hasListeners i then do
            let s ← read i s
            readLoop look read (seen + 1) is s
          else readLoop look read (seen + 1) is s
        else readLoop look read seen is s
      else pure s

variable {α : Type}

def look (c : Conf α) : Look where
  portCnt := c.portCnt
  inUse i := (c.ports i).isSome
  hasListeners i := c.listeners i ≠ []

/-- The inner loop of `get_frame`: a frame is added to those of the listeners. -/
def mixTo (c : Conf α) : List ℕ → Except Fault Unit
  | [] => .ok ()
  | j :: js => if (c.ports j).isSome then c.mixTo js else .error .accessViolation

/-- The frame of a port is mixed; a port that is gone has no listeners. -/
def mix (c : Conf α) (i : ℕ) : Except Fault Unit := c.mixTo (c.listeners i)

/-- Slot 0 is followed. -/
def followSound (c : Conf α) : Except Fault Unit :=
  if (c.ports 0).isSome then .ok () else .error .accessViolation

/-- The body of the loop, of something a bridge belongs to.  `read` is what the port at a slot does
when it is read, and whether it gives a frame that can be heard. -/
def readAndMix {σ : Type} (conf : σ → Conf α) (read : ℕ → σ → Except Fault (Bool × σ))
    (i : ℕ) (s : σ) :
    Except Fault σ := do
  let (audible, s) ← read i s
  if audible then (conf s).mix i
  return s

/-- `get_frame`. -/
def getFrame {σ : Type} (conf : σ → Conf α) (read : ℕ → σ → Except Fault (Bool × σ)) (s : σ) :
    Except Fault σ := do
  let s ← readLoop (fun s => (conf s).look) (readAndMix conf read) 0
    (List.range (conf s).maxPorts) s
  (conf s).followSound
  return s

/-- `put_frame` of the master port, for a frame of the right size. -/
def putFrame (c : Conf α) : Except Fault Unit := c.followSound

/-- `pjmedia_conf_set_port0_name`. -/
def setPort0Name (c : Conf α) : Except Fault Unit := c.followSound

/-- The slots that are read at a tick at which no port is removed. -/
def reads (c : Conf α) : List ℕ :=
  (readLoop (m := Id) (fun s : Conf α × List ℕ => s.1.look) (fun i s => (s.1, s.2 ++ [i])) 0
    (List.range c.maxPorts) (c, [])).2

section Loop

variable {σ τ : Type} {look : σ → Look} {seen : ℤ} {is : List ℕ} {s : σ}

/-- **The rule for the loop.**  An assertion about the slots that are left and the state holds in
the end, for no slots, if it survives slots that are passed over and readings. -/
lemma readLoop_rule {J : List ℕ → σ → Prop} {read : ℕ → σ → Except Fault σ}
    (hskip : ∀ i is s, J (i :: is) s → J is s)
    (hread : ∀ i is s, J (i :: is) s → (look s).hasListeners i →
      ∃ s', read i s = .ok s' ∧ J is s') (seen : ℤ) (hs : J is s) :
    ∃ s', readLoop look read seen is s = .ok s' ∧ J [] s' := by
  have hend : ∀ is s, J is s → J [] s := by
    intro is s
    induction is with
    | nil => exact id
    | cons i is ih => exact fun h => ih (hskip i is s h)
  induction is generalizing seen s with
  | nil => exact ⟨s, rfl, hs⟩
  | cons i is ih =>
      rw [readLoop]
      split_ifs with _ _ hlisteners
      · obtain ⟨s₁, hok, hs₁⟩ := hread i is s hs hlisteners
        rw [hok]
        exact ih (seen + 1) hs₁
      · exact ih (seen + 1) (hskip i is s hs)
      · exact ih seen (hskip i is s hs)
      · exact ⟨s, rfl, hend _ s hs⟩

/-- A port with listeners is read, if nothing changes before. -/
lemma readLoop_reaches (look : σ → Look) {read : ℕ → σ → Except Fault σ} {i : ℕ} {rest : List ℕ}
    (hidle : ∀ j ∈ is, read j s = .ok s) (hin : (look s).inUse i)
    (hlisteners : (look s).hasListeners i)
    (hseen : seen + (is ++ i :: rest).countP (look s).inUse = (look s).portCnt) :
    ∃ seen', readLoop look read seen (is ++ i :: rest) s =
      read i s >>= readLoop look read seen' rest := by
  induction is generalizing seen with
  | nil =>
      rw [List.nil_append, List.countP_cons_of_pos hin] at hseen
      refine ⟨seen + 1, ?_⟩
      rw [List.nil_append, readLoop, if_pos (by omega), if_pos hin, if_pos hlisteners]
  | cons j is ih =>
      rw [List.forall_mem_cons] at hidle
      have hleft : 0 < (is ++ i :: rest).countP (look s).inUse :=
        List.countP_pos_iff.mpr ⟨i, by simp, hin⟩
      rw [List.cons_append, List.countP_cons] at hseen
      rw [List.cons_append, readLoop, if_pos (by omega)]
      split_ifs at hseen ⊢
      · rw [hidle.1]
        exact ih hidle.2 (by omega)
      · exact ih hidle.2 (by omega)
      · exact ih hidle.2 (by omega)

/-- **Two loops side by side**, on states that look alike and are read alike. -/
lemma readLoop_sim {look' : τ → Look} {read : ℕ → σ → Except Fault σ} {read' : ℕ → τ → Id τ}
    {R : σ → τ → Prop} {t : τ} (hlook : ∀ s t, R s t → look s = look' t)
    (hread : ∀ i s t, R s t → ∃ s', read i s = .ok s' ∧ R s' (read' i t)) (h : R s t) :
    ∃ s', readLoop look read seen is s = .ok s' ∧
      R s' (readLoop (m := Id) look' read' seen is t) := by
  induction is generalizing seen s t with
  | nil => exact ⟨s, rfl, h⟩
  | cons i is ih =>
      rw [readLoop, readLoop, ← hlook s t h]
      split_ifs
      · obtain ⟨s₁, hok, h₁⟩ := hread i s t h
        rw [hok]
        exact ih h₁
      · exact ih h
      · exact ih h
      · exact ⟨s, rfl, h⟩

/-- As long as readings leave the bridge alone, all ports with listeners are read: the loop does not
stop before the last of them. -/
lemma readLoop_eq_foldl {read : ℕ → σ → Id σ} (hlook : ∀ i s, look (read i s) = look s)
    (huse : ∀ i, (look s).hasListeners i → (look s).inUse i)
    (hseen : seen + is.countP (look s).inUse = (look s).portCnt) :
    readLoop look read seen is s =
      (is.filter (look s).hasListeners).foldl (fun s i => read i s) s := by
  induction is generalizing seen s with
  | nil => rfl
  | cons i is ih =>
      rw [readLoop]
      by_cases hin : (look s).inUse i
      · rw [List.countP_cons_of_pos hin, Nat.cast_succ] at hseen
        rw [if_pos (by omega), if_pos hin]
        by_cases hlisteners : (look s).hasListeners i
        · rw [if_pos hlisteners, List.filter_cons_of_pos hlisteners, List.foldl_cons,
            ← hlook i s]
          refine ih (by rwa [hlook]) ?_
          rw [hlook]
          omega
        · rw [if_neg hlisteners, List.filter_cons_of_neg hlisteners]
          exact ih huse (by omega)
      · rw [List.countP_cons_of_neg hin] at hseen
        have hlisteners : ¬ (look s).hasListeners i := fun h => hin (huse i h)
        rw [if_neg hin, List.filter_cons_of_neg hlisteners]
        split_ifs with hlt
        · exact ih huse hseen
        · -- every port has been seen, so that nothing is left to read
          have hnone : is.filter (look s).hasListeners = [] := by
            refine List.filter_eq_nil_iff.mpr fun j hj hlisteners => ?_
            have : 0 < is.countP (look s).inUse :=
              List.countP_pos_iff.mpr ⟨j, hj, huse j hlisteners⟩
            omega
          rw [hnone]
          rfl

end Loop

section Reading

variable {c : Conf α}

lemma inUse_of_hasListeners (c : Conf α) (i : ℕ) (h : c.look.hasListeners i) : c.look.inUse i := by
  have hne : c.listeners i ≠ [] := of_decide_eq_true h
  obtain ⟨j, hj⟩ := List.exists_mem_of_ne_nil _ hne
  exact isSome_of_mem_listeners hj

lemma card_slots (c : Conf α) :
    c.slots.card = (List.range c.maxPorts).countP fun i => (c.ports i).isSome := by
  rw [List.countP_eq_length_filter, ← List.toFinset_card_of_nodup (List.nodup_range.filter _)]
  congr 1
  ext i
  simp [mem_slots_iff]

lemma Consistent.countP_inUse (h : c.Consistent) :
    0 + ((List.range c.maxPorts).countP c.look.inUse : ℤ) = c.look.portCnt := by
  have hcard := card_slots c
  simp only [look, h.portCnt_eq, hcard, zero_add]

/-- **Exactly the ports with listeners are read** at a tick at which no port is removed. -/
lemma Consistent.mem_reads (h : c.Consistent) (i : ℕ) : i ∈ c.reads ↔ c.listeners i ≠ [] := by
  have hfold : ∀ (is acc : List ℕ), is.foldl (fun (s : Conf α × List ℕ) i => (s.1, s.2 ++ [i]))
      (c, acc) = (c, acc ++ is) := by
    intro is
    induction is with
    | nil => simp
    | cons i is ih => simp [ih]
  have hreads : c.reads = (List.range c.maxPorts).filter c.look.hasListeners := by
    have hloop := @readLoop_eq_foldl (Conf α × List ℕ) (fun s => s.1.look) 0
      (List.range c.maxPorts) (c, []) (fun i s => (s.1, s.2 ++ [i])) (fun _ _ => rfl)
      (inUse_of_hasListeners c) h.countP_inUse
    exact congrArg Prod.snd (hloop.trans (hfold _ []))
  rw [hreads, List.mem_filter, List.mem_range, look]
  simp only [ne_eq, decide_not, Bool.not_eq_eq_eq_not, Bool.not_true, decide_eq_false_iff_not]
  refine and_iff_right_of_imp fun hne => h.slot_lt i ?_
  obtain ⟨j, hj⟩ := List.exists_mem_of_ne_nil _ hne
  exact isSome_of_mem_listeners hj

/-- Mixing follows listeners that are there. -/
lemma Consistent.mix (h : c.Consistent) (i : ℕ) : c.mix i = .ok () := by
  have hlive := h.listener_live i
  rw [Conf.mix]
  generalize c.listeners i = js at hlive
  induction js with
  | nil => rfl
  | cons j js ih =>
      rw [List.forall_mem_cons] at hlive
      rw [mixTo, if_pos hlive.1]
      exact ih hlive.2

end Reading

section Ticks

variable {σ : Type} {conf : σ → Conf α} {read : ℕ → σ → Except Fault (Bool × σ)}
  {J : List ℕ → σ → Prop} {s : σ}

lemma readAndMix_eq {i : ℕ} {audible : Bool} {s' : σ} (hread : read i s = .ok (audible, s'))
    (hcons : (conf s').Consistent) : readAndMix conf read i s = .ok s' := by
  simp only [readAndMix, hread, bind, Except.bind]
  split_ifs
  · rw [hcons.mix]
    rfl
  · rfl

/-- The part of `get_frame` after its loop. -/
lemma getFrame_eq {s' : σ} (hloop : readLoop (fun s => (conf s).look) (readAndMix conf read) 0
      (List.range (conf s).maxPorts) s = .ok s') (hsound : ((conf s').ports 0).isSome) :
    Conf.getFrame conf read s = .ok s' := by
  simp only [Conf.getFrame, hloop, bind, Except.bind, followSound, hsound, if_true]
  rfl

/-- Readings of a bridge that is consistent. -/
lemma readAndMix_rule (hJ : ∀ is s, J is s → (conf s).Consistent ∧ ((conf s).ports 0).isSome)
    (hread : ∀ i is s, J (i :: is) s → (conf s).listeners i ≠ [] →
      ∃ audible s', read i s = .ok (audible, s') ∧ J is s') (i : ℕ) (is : List ℕ) (s : σ)
    (h : J (i :: is) s) (hlisteners : (conf s).look.hasListeners i) :
    ∃ s', readAndMix conf read i s = .ok s' ∧ J is s' := by
  obtain ⟨audible, s', hok, hs'⟩ := hread i is s h (of_decide_eq_true hlisteners)
  exact ⟨s', readAndMix_eq hok (hJ _ _ hs').1, hs'⟩

/-- **The rule for a tick.** -/
lemma getFrame_rule (hJ : ∀ is s, J is s → (conf s).Consistent ∧ ((conf s).ports 0).isSome)
    (hskip : ∀ i is s, J (i :: is) s → J is s)
    (hread : ∀ i is s, J (i :: is) s → (conf s).listeners i ≠ [] →
      ∃ audible s', read i s = .ok (audible, s') ∧ J is s')
    (hs : J (List.range (conf s).maxPorts) s) :
    ∃ s', Conf.getFrame conf read s = .ok s' ∧ J [] s' := by
  obtain ⟨s', hloop, hs'⟩ := readLoop_rule hskip (readAndMix_rule hJ hread) 0 hs
  exact ⟨s', getFrame_eq hloop (hJ _ _ hs').2, hs'⟩

/-- **The rule for a tick at which one port is read that does anything**, and before it none. -/
lemma getFrame_rule_of_idle (hJ : ∀ is s, J is s → (conf s).Consistent ∧ ((conf s).ports 0).isSome)
    (hskip : ∀ i is s, J (i :: is) s → J is s)
    (hread : ∀ i is s, J (i :: is) s → (conf s).listeners i ≠ [] →
      ∃ audible s', read i s = .ok (audible, s') ∧ J is s') (hcons : (conf s).Consistent) {i : ℕ}
    (hidle : ∀ j ≠ i, ∃ audible, read j s = .ok (audible, s)) (hi : (conf s).listeners i ≠ [])
    (hfirst : ∀ is, i ∉ is → ∃ audible s', read i s = .ok (audible, s') ∧ J is s') :
    ∃ s', Conf.getFrame conf read s = .ok s' ∧ J [] s' := by
  have hlisteners : (conf s).look.hasListeners i := decide_eq_true hi
  have hin := inUse_of_hasListeners (conf s) i hlisteners
  obtain ⟨is, rest, hrange⟩ := List.append_of_mem (List.mem_range.mpr (hcons.slot_lt i hin))
  have hnodup := hrange ▸ List.nodup_range (n := (conf s).maxPorts)
  have hcount := hcons.countP_inUse
  rw [hrange] at hcount
  have hbefore : ∀ j ∈ is, readAndMix conf read j s = .ok s := by
    intro j hj
    have hne : j ≠ i := by
      rintro rfl
      exact List.disjoint_of_nodup_append hnodup hj List.mem_cons_self
    obtain ⟨audible, hok⟩ := hidle j hne
    exact readAndMix_eq hok hcons
  obtain ⟨seen, hreaches⟩ :=
    readLoop_reaches (fun s => (conf s).look) hbefore hin hlisteners hcount
  obtain ⟨audible, s₁, hok, hs₁⟩ :=
    hfirst rest (List.nodup_cons.mp hnodup.of_append_right).1
  obtain ⟨s', hloop, hs'⟩ := readLoop_rule hskip (readAndMix_rule hJ hread) seen hs₁
  refine ⟨s', getFrame_eq ?_ (hJ _ _ hs').2, hs'⟩
  rw [hrange, hreaches, readAndMix_eq hok (hJ _ _ hs₁).1]
  exact hloop

end Ticks

/-! ## Runs -/

/-- The operations of the bridge.  At a tick of the clock it is given which ports can be heard, and
which ports are removed while a port is read. -/
inductive Op (α : Type)
  | addPort (port : α) (channelCount : ℕ) (failure : Option ℕ)
  | removePort (port : ℕ)
  | connectPort (src sink : ℕ)
  | disconnectPort (src sink : ℕ)
  | getFrame (audible : ℕ → Bool) (removed : ℕ → List ℕ)
  | putFrame
  | setPort0Name

/-- Ports are removed one after the other. -/
def removePorts (c : Conf α) (ports : List ℕ) : Except Fault (Conf α) :=
  ports.foldlM (fun c port => (c.removePort port).map Prod.snd) c

def step (c : Conf α) : Op α → Except Fault (Conf α)
  | .addPort port channelCount failure =>
      (c.addPort port channelCount failure).map fun r => r.2.2
  | .removePort port => (c.removePort port).map Prod.snd
  | .connectPort src sink => (c.connectPort src sink).map Prod.snd
  | .disconnectPort src sink => (c.disconnectPort src sink).map Prod.snd
  | .getFrame audible removed =>
      Conf.getFrame id
        (fun i c => do
          let c ← c.removePorts (removed i)
          return (audible i, c)) c
  | .putFrame => do
      c.putFrame
      return c
  | .setPort0Name => do
      c.setPort0Name
      return c

/-- The operations one after the other, up to a fault. -/
def runOps (c : Conf α) (ops : List (Op α)) : Except Fault (Conf α) := ops.foldlM step c

/-- What the bridge is for: slots in use and connections between them. -/
@[ext]
structure Graph where
  slots : Finset ℕ
  edges : Finset (ℕ × ℕ)

def graph (c : Conf α) : Graph := ⟨c.slots, c.edges⟩

namespace Graph

def look (g : Graph) : Look where
  portCnt := g.slots.card
  inUse i := i ∈ g.slots
  hasListeners i := ∃ e ∈ g.edges, e.1 = i

def remove (g : Graph) (port : ℕ) : Graph :=
  { slots := g.slots.erase port, edges := {e ∈ g.edges | e.1 ≠ port ∧ e.2 ≠ port} }

/-- The operations, on the graph.  A new port gets the first slot that is not in use. -/
def step (maxPorts channels : ℕ) (g : Graph) : Op α → Graph
  | .addPort _ channelCount failure =>
      if (channelCount ≠ channels ∧ channelCount ≠ 1 ∧ channels ≠ 1) ∨ failure.isSome then g
      else
        match (List.range maxPorts).find? (· ∉ g.slots) with
        | none => g
        | some index => { g with slots := insert index g.slots }
  | .removePort port => g.remove port
  | .connectPort src sink =>
      if src ∈ g.slots ∧ sink ∈ g.slots then { g with edges := insert (src, sink) g.edges } else g
  | .disconnectPort src sink => { g with edges := g.edges.erase (src, sink) }
  | .getFrame _ removed =>
      readLoop (m := Id) look (fun i g => (removed i).foldl remove g) 0 (List.range maxPorts) g
  | .putFrame | .setPort0Name => g

/-- Slot 0 is in use when it is followed: at a tick, after the ports have been read. -/
def HasSound (maxPorts channels : ℕ) (g : Graph) (op : Op α) : Prop :=
  match op with
  | .getFrame _ _ | .putFrame | .setPort0Name => 0 ∈ (g.step maxPorts channels op).slots
  | .addPort _ _ _ | .removePort _ | .connectPort _ _ | .disconnectPort _ _ => True

instance (maxPorts channels : ℕ) (g : Graph) (op : Op α) :
    Decidable (g.HasSound maxPorts channels op) := by
  cases op <;> rw [HasSound] <;> infer_instance

end Graph

section Runs

variable {c c' : Conf α}

lemma Consistent.emptySlot_eq (h : c.Consistent) :
    c.emptySlot = (List.range c.maxPorts).find? (· ∉ c.slots) := by
  refine congrArg (fun p => (List.range c.maxPorts).find? p) (funext fun i => ?_)
  rw [← Option.not_isSome, Bool.eq_iff_iff]
  simp [h.mem_slots]

/-- No slot is found if all are in use. -/
lemma find?_eq_none_of_full {maxPorts : ℕ} {slots : Finset ℕ}
    (hslots : slots ⊆ Finset.range maxPorts) (hfull : maxPorts ≤ slots.card) :
    (List.range maxPorts).find? (· ∉ slots) = none := by
  have heq : slots = Finset.range maxPorts :=
    Finset.eq_of_subset_of_card_le hslots (by rwa [Finset.card_range])
  rw [List.find?_eq_none]
  simp [heq]

/-- A consistent bridge of the same size that stands for the given graph. -/
structure Becomes (c : Conf α) (g : Graph) (c' : Conf α) : Prop where
  consistent : c'.Consistent
  maxPorts_eq : c'.maxPorts = c.maxPorts
  channelCount_eq : c'.channelCount = c.channelCount
  graph_eq : c'.graph = g

lemma Consistent.becomes (h : c.Consistent) : c.Becomes c.graph c := ⟨h, rfl, rfl, rfl⟩

lemma Becomes.trans {c'' : Conf α} {g g' : Graph} (h' : c'.Becomes g' c'')
    (h : c.Becomes g c') : c.Becomes g' c'' :=
  ⟨h'.consistent, h'.maxPorts_eq.trans h.maxPorts_eq,
    h'.channelCount_eq.trans h.channelCount_eq, h'.graph_eq⟩

lemma Consistent.step_addPort (h : c.Consistent) (port : α) (channelCount : ℕ)
    (failure : Option ℕ) :
    ∃ c', c.step (.addPort port channelCount failure) = .ok c' ∧
      c.Becomes (c.graph.step c.maxPorts c.channelCount
        (.addPort port channelCount failure)) c' := by
  rcases h.addPort port channelCount failure with
    ⟨hrefused, status, -, hok⟩ | ⟨hfits, index, hok, hempty, hlt, hfree⟩
  · refine ⟨c, by simp [Conf.step, hok, Except.map], h, rfl, rfl, ?_⟩
    simp only [Graph.step]
    split_ifs with hargs
    · rfl
    · have hfull : c.maxPorts ≤ c.slots.card := by
        rcases hrefused with h | h | h
        · exact absurd (.inl h) hargs
        · exact absurd (.inr h) hargs
        · exact h
      have hnone : (List.range c.maxPorts).find? (· ∉ c.graph.slots) = none :=
        find?_eq_none_of_full (Finset.filter_subset _ _) hfull
      rw [hnone]
  · refine ⟨c.added port index, by simp [Conf.step, hok, Except.map], h.added hlt hfree, rfl, rfl,
      ?_⟩
    have hargs : ¬ ((channelCount ≠ c.channelCount ∧ channelCount ≠ 1 ∧ c.channelCount ≠ 1) ∨
        failure.isSome) := fun hargs => hfits (hargs.imp_right .inl)
    have hfind : (List.range c.maxPorts).find? (· ∉ c.graph.slots) = some index :=
      h.emptySlot_eq.symm.trans hempty
    simp only [Graph.step, if_neg hargs, hfind]
    exact Graph.ext (slots_added hlt) (edges_added hfree)

lemma Consistent.step_removePort (h : c.Consistent) (port : ℕ) :
    ∃ c', (c.removePort port).map Prod.snd = .ok c' ∧ c.Becomes (c.graph.remove port) c' := by
  by_cases hport : (c.ports port).isSome
  · refine ⟨c.removed port, ?_, h.removed hport, rfl, rfl, ?_⟩
    · simp [h.removePort_eq hport, Except.map]
    · exact Graph.ext (slots_removed c port) h.edges_removed
  · -- nothing leads to or from an empty slot
    refine ⟨c, ?_, h, rfl, rfl, Graph.ext ?_ ?_⟩
    · simp [removePort, hport, Except.map]
    · exact (Finset.erase_eq_of_notMem (mt h.mem_slots.mp hport)).symm
    · refine (Finset.filter_true_of_mem fun e he => ?_).symm
      have hlink := h.mem_edges.mp he
      exact ⟨fun hsrc => hport (hsrc ▸ isSome_of_mem_listeners hlink),
        fun hsink => hport (hsink ▸ h.listener_live _ _ hlink)⟩

lemma Consistent.step_connectPort (h : c.Consistent) (src sink : ℕ) :
    ∃ c', c.step (.connectPort src sink) = .ok c' ∧
      c.Becomes (c.graph.step c.maxPorts c.channelCount (.connectPort src sink : Op α)) c' := by
  obtain ⟨status, c', hok, hcons, hsame, -, hedges⟩ := h.connectPort src sink
  refine ⟨c', by simp [Conf.step, hok, Except.map], hcons, hsame.maxPorts_eq,
    hsame.channelCount_eq, ?_⟩
  by_cases hlive : src ∈ c.slots ∧ sink ∈ c.slots
  · have hstep : c.graph.step c.maxPorts c.channelCount (.connectPort src sink : Op α) =
        ⟨c.slots, insert (src, sink) c.edges⟩ := if_pos hlive
    rw [hstep]
    exact Graph.ext hsame.slots_eq (hedges.trans (if_pos hlive))
  · have hstep : c.graph.step c.maxPorts c.channelCount (.connectPort src sink : Op α) =
        c.graph := if_neg hlive
    rw [hstep]
    exact Graph.ext hsame.slots_eq (hedges.trans (if_neg hlive))

lemma Consistent.step_disconnectPort (h : c.Consistent) (src sink : ℕ) :
    ∃ c', c.step (.disconnectPort src sink) = .ok c' ∧
      c.Becomes (c.graph.step c.maxPorts c.channelCount (.disconnectPort src sink : Op α)) c' := by
  obtain ⟨status, c', hok, hcons, hsame, hedges⟩ := h.disconnectPort src sink
  exact ⟨c', by simp [Conf.step, hok, Except.map], hcons, hsame.maxPorts_eq,
    hsame.channelCount_eq, Graph.ext hsame.slots_eq hedges⟩

lemma Consistent.removePorts (h : c.Consistent) (ports : List ℕ) :
    ∃ c', c.removePorts ports = .ok c' ∧ c.Becomes (ports.foldl Graph.remove c.graph) c' := by
  induction ports generalizing c with
  | nil => exact ⟨c, rfl, h.becomes⟩
  | cons port ports ih =>
      obtain ⟨c₁, hok, h₁⟩ := h.step_removePort port
      obtain ⟨c₂, hrest, h₂⟩ := ih h₁.consistent
      refine ⟨c₂, ?_, ?_⟩
      · rw [Conf.removePorts, List.foldlM_cons, hok]
        exact hrest
      · rw [List.foldl_cons, ← h₁.graph_eq]
        exact h₂.trans h₁

/-- A bridge looks like the graph it stands for. -/
lemma Consistent.look_eq (h : c.Consistent) : c.look = c.graph.look := by
  refine Look.ext h.portCnt_eq (funext fun i => ?_) (funext fun i => ?_)
  · rw [Bool.eq_iff_iff]
    simp [look, Graph.look, graph, h.mem_slots]
  · refine decide_eq_decide.mpr ⟨fun hne => ?_, ?_⟩
    · obtain ⟨j, hj⟩ := List.exists_mem_of_ne_nil _ hne
      exact ⟨(i, j), h.mem_edges.mpr hj, rfl⟩
    · rintro ⟨⟨i, j⟩, he, rfl⟩
      exact List.ne_nil_of_mem (h.mem_edges.mp he)

lemma Consistent.followSound_eq (h : c.Consistent) :
    c.followSound = if 0 ∈ c.graph.slots then .ok () else .error .accessViolation := by
  simp only [Conf.followSound, graph, h.mem_slots]

/-- **A tick**: the ports that are removed meanwhile leave the graph, and slot 0 has to be there in
the end. -/
lemma Consistent.step_getFrame (h : c.Consistent) (audible : ℕ → Bool) (removed : ℕ → List ℕ) :
    ∃ c', c.step (.getFrame audible removed) =
        (if 0 ∈ c'.graph.slots then .ok c' else .error .accessViolation) ∧
      c.Becomes (c.graph.step c.maxPorts c.channelCount (.getFrame audible removed : Op α)) c' := by
  set read : ℕ → Conf α → Except Fault (Bool × Conf α) := fun i c => do
    let c ← c.removePorts (removed i)
    return (audible i, c) with hread
  have hstep : ∀ i c' g, c.Becomes g c' → ∃ c'', readAndMix id read i c' = .ok c'' ∧
      c.Becomes ((removed i).foldl Graph.remove g) c'' := by
    intro i c' g h'
    obtain ⟨c'', hok, h''⟩ := h'.consistent.removePorts (removed i)
    have hreads : read i c' = .ok (audible i, c'') := by
      simp only [hread, hok]
      rfl
    exact ⟨c'', readAndMix_eq hreads h''.consistent, h'.graph_eq ▸ h''.trans h'⟩
  obtain ⟨c', hloop, hbecomes⟩ := readLoop_sim
    (fun c' g (h' : c.Becomes g c') => h'.graph_eq ▸ h'.consistent.look_eq) hstep h.becomes
  refine ⟨c', ?_, hbecomes⟩
  simp only [Conf.step, Conf.getFrame, id]
  rw [hloop]
  simp only [bind, Except.bind, hbecomes.consistent.followSound_eq]
  split_ifs <;> rfl

/-- **An operation** does what it does to the graph, unless it follows slot 0 while that is
empty. -/
lemma Consistent.step (h : c.Consistent) (op : Op α) :
    (c.graph.HasSound c.maxPorts c.channelCount op →
      ∃ c', c.step op = .ok c' ∧
        c.Becomes (c.graph.step c.maxPorts c.channelCount op) c') ∧
    (¬ c.graph.HasSound c.maxPorts c.channelCount op →
      c.step op = .error .accessViolation) := by
  have hfollow : ∀ op : Op α, (c.step op = do c.followSound; return c) →
      c.graph.step c.maxPorts c.channelCount op = c.graph →
      (0 ∈ (c.graph.step c.maxPorts c.channelCount op).slots →
        ∃ c', c.step op = .ok c' ∧
          c.Becomes (c.graph.step c.maxPorts c.channelCount op) c') ∧
      (0 ∉ (c.graph.step c.maxPorts c.channelCount op).slots →
        c.step op = .error .accessViolation) := by
    intro op hstep hgraph
    rw [hgraph, hstep, h.followSound_eq]
    refine ⟨fun h0 => ⟨c, ?_, h.becomes⟩, fun h0 => ?_⟩
    · rw [if_pos h0]
      rfl
    · rw [if_neg h0]
      rfl
  cases op with
  | addPort port channelCount failure =>
      exact ⟨fun _ => h.step_addPort port channelCount failure, fun hne => absurd trivial hne⟩
  | removePort port => exact ⟨fun _ => h.step_removePort port, fun hne => absurd trivial hne⟩
  | connectPort src sink =>
      exact ⟨fun _ => h.step_connectPort src sink, fun hne => absurd trivial hne⟩
  | disconnectPort src sink =>
      exact ⟨fun _ => h.step_disconnectPort src sink, fun hne => absurd trivial hne⟩
  | getFrame audible removed =>
      obtain ⟨c', hok, hbecomes⟩ := h.step_getFrame audible removed
      rw [hbecomes.graph_eq] at hok
      exact ⟨fun h0 => ⟨c', hok.trans (if_pos h0), hbecomes⟩, fun h0 => hok.trans (if_neg h0)⟩
  | putFrame => exact hfollow .putFrame rfl rfl
  | setPort0Name => exact hfollow .setPort0Name rfl rfl

lemma create_graph {maxPorts : ℕ} (hmax : 0 < maxPorts) (channelCount : ℕ) (sound : α) :
    (create maxPorts channelCount sound).graph = ⟨{0}, ∅⟩ := by
  refine Graph.ext ?_ ?_
  · ext i
    rw [graph, mem_slots_iff, Finset.mem_singleton]
    by_cases hi : i = 0 <;> simp [create, hi, hmax]
  · rw [graph, edges, Finset.filter_eq_empty_iff]
    intro e _
    by_cases hi : e.1 = 0 <;> simp [create, listeners, hi]

lemma create_consistent {maxPorts : ℕ} (hmax : 0 < maxPorts) (channelCount : ℕ) (sound : α) :
    (create maxPorts channelCount sound).Consistent := by
  have hedges : (create maxPorts channelCount sound).edges = ∅ :=
    congrArg Graph.edges (create_graph hmax channelCount sound)
  have hslots : (create maxPorts channelCount sound).slots = {0} :=
    congrArg Graph.slots (create_graph hmax channelCount sound)
  have hlisteners : ∀ i, (create maxPorts channelCount sound).listeners i = [] := by
    intro i
    by_cases hi : i = 0 <;> simp [create, listeners, hi]
  refine ⟨fun i hi => ?_, by simp [hlisteners], by simp [hlisteners], fun j p hp => ?_, ?_, ?_⟩
  · by_cases hi0 : i = 0
    · exact hi0 ▸ hmax
    · simp [create, hi0] at hi
  · by_cases hj : j = 0
    · simp only [create, hj, Function.update_self, Option.some.injEq] at hp
      simp [edgesTo, hedges, ← hp]
    · simp [create, hj] at hp
  · rw [hedges]
    rfl
  · rw [hslots]
    rfl

lemma Consistent.runOps (h : c.Consistent) (ops : List (Op α)) :
    (Runs.Along (Graph.step c.maxPorts c.channelCount) (Graph.HasSound c.maxPorts c.channelCount)
        c.graph ops →
      ∃ c', c.runOps ops = .ok c' ∧
        c.Becomes (Runs.run (Graph.step c.maxPorts c.channelCount) c.graph ops) c') ∧
    (¬ Runs.Along (Graph.step c.maxPorts c.channelCount)
        (Graph.HasSound c.maxPorts c.channelCount) c.graph ops →
      c.runOps ops = .error .accessViolation) := by
  induction ops generalizing c with
  | nil => exact ⟨fun _ => ⟨c, rfl, h.becomes⟩, fun hne => absurd trivial hne⟩
  | cons op ops ih =>
      obtain ⟨hsound, hfault⟩ := h.step op
      rw [Conf.runOps, List.foldlM_cons, Runs.Along, Runs.run]
      by_cases h0 : c.graph.HasSound c.maxPorts c.channelCount op
      · obtain ⟨c₁, hok, h₁⟩ := hsound h0
        obtain ⟨hrest, hrest'⟩ := ih h₁.consistent
        rw [h₁.maxPorts_eq, h₁.channelCount_eq, h₁.graph_eq] at hrest hrest'
        rw [hok]
        refine ⟨fun halong => ?_, fun hne => hrest' fun halong => hne ⟨h0, halong⟩⟩
        obtain ⟨c₂, hrun, h₂⟩ := hrest halong.2
        exact ⟨c₂, hrun, h₂.trans h₁⟩
      · rw [hfault h0]
        exact ⟨fun halong => absurd halong.1 h0, fun _ => rfl⟩

/-- **The bridge is a directed graph.**  Ports are added, removed, connected, disconnected, read and
renamed in any order and with any arguments, and ports may be removed while a port is read.  Unless
slot 0 is empty when a tick ends, a frame is recorded or its name is set, no operation follows a
null pointer or writes behind a list of listeners, the numbers kept in the bridge and in its ports
are those of the connections there are, no connection leads to or from an empty slot, and slots and
connections are what the same operations make of a graph.  If slot 0 is empty then, a null pointer
is followed. -/
theorem run_consistent {maxPorts : ℕ} (hmax : 0 < maxPorts) (channelCount : ℕ) (sound : α)
    (ops : List (Op α)) :
    (Runs.Along (Graph.step maxPorts channelCount) (Graph.HasSound maxPorts channelCount)
        ⟨{0}, ∅⟩ ops →
      ∃ c, (create maxPorts channelCount sound).runOps ops = .ok c ∧ c.Consistent ∧
        c.graph = Runs.run (Graph.step maxPorts channelCount) ⟨{0}, ∅⟩ ops) ∧
    (¬ Runs.Along (Graph.step maxPorts channelCount) (Graph.HasSound maxPorts channelCount)
        ⟨{0}, ∅⟩ ops →
      (create maxPorts channelCount sound).runOps ops = .error .accessViolation) := by
  have hrun := (create_consistent hmax channelCount sound).runOps ops
  rw [create_graph hmax] at hrun
  refine ⟨fun halong => ?_, hrun.2⟩
  obtain ⟨c, hok, hbecomes⟩ := hrun.1 halong
  exact ⟨c, hok, hbecomes.consistent, hbecomes.graph_eq⟩

/-- A player at slot 1 is connected to a call at slot 2 and removed when it is read.  Once the sound
device has been removed too, the next tick follows a null pointer. -/
theorem run_consistent_player :
    (∃ c, (create 4 1 "sound").runOps [.addPort "player" 1 none, .addPort "call" 1 none,
        .connectPort 1 2, .connectPort 2 0, .getFrame (fun _ => true) fun i => [i].filter (· = 1)]
          = .ok c ∧ c.Consistent ∧ c.graph = ⟨{0, 2}, {(2, 0)}⟩) ∧
    (create 4 1 "sound").runOps [.removePort 0, .getFrame (fun _ => true) fun _ => []] =
      .error .accessViolation := by
  obtain ⟨hsound, -⟩ := run_consistent (show 0 < 4 by decide) 1 "sound"
    [.addPort "player" 1 none, .addPort "call" 1 none, .connectPort 1 2, .connectPort 2 0,
      .getFrame (fun _ => true) fun i => [i].filter (· = 1)]
  obtain ⟨-, hfault⟩ := run_consistent (show 0 < 4 by decide) 1 "sound"
    [.removePort 0, .getFrame (fun _ => true) fun _ => []]
  obtain ⟨c, hok, hcons, hgraph⟩ := hsound (by decide +kernel)
  exact ⟨⟨c, hok, hcons, hgraph.trans (Graph.ext (by decide +kernel) (by decide +kernel))⟩,
    hfault (by decide +kernel)⟩

end Runs

end Conf

end TAM
