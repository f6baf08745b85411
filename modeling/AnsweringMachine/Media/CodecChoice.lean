import AnsweringMachine.Media.CodecManager
import Mathlib.Data.List.TakeWhile

/-!
# The choice of codecs when the provider starts

`SIPCallProvider.Initialize` goes through the codecs of the stack by their number.  A codec that is
in the configured list gets the normal priority, any other one is disabled.  But the stack sorts its
table after every change, so the codec with number `i + 1` need not be the one that stood behind the
codec with number `i`: when that one is disabled or set back to the normal priority it sinks in the
table, the next codec moves up to its place, and the loop never asks for it.

`sweep` says which codecs are left enabled, in terms of the enabled codecs alone and without a sort.
`chooseCodecs_enabled` is the comparison with the loop, for tables in which no identifier is the
beginning of another one and every codec is disabled or has at least the normal priority.  The
results after it are read off `sweep`, for the table that the media subsystem comes up with:
configured codecs are enabled in any case, others are not all disabled (`only_configured_iff`), and
one of them never is (`speex_stays`).
-/

namespace TAM

open SelectionSort

/-! ## The functions of the stack and its wrapper -/

/-- `pjsua_enum_codecs`. -/
def CodecMgr.pjsuaEnumCodecs (m : CodecMgr) (count : ℕ) : List CodecDesc :=
  (m.enumCodecs 32).take count

/-- `pjsua_codec_set_priority`. -/
def CodecMgr.pjsuaCodecSetPriority (m : CodecMgr) (codecId : List Char) (priority : UInt8) :
    CodecMgr :=
  (m.setCodecPriority (if codecId = ['*'] then [] else codecId) priority).2

/-- `dll_getNumOfCodecs`. -/
def CodecMgr.dllGetNumOfCodecs (m : CodecMgr) : ℕ := (m.pjsuaEnumCodecs 32).length

/-- `dll_getCodec`; nothing is written if there is no codec with this number or its name is too
long. -/
def CodecMgr.dllGetCodec (m : CodecMgr) (index : ℕ) : Option (List Char) :=
  match (m.pjsuaEnumCodecs 32)[index]? with
  | none => none
  | some c => if 256 ≤ c.id.length then none else some c.id

/-- `dll_setCodecPriority`. -/
def CodecMgr.dllSetCodecPriority (m : CodecMgr) (name : List Char) (prio : ℤ) : CodecMgr :=
  if 0 < prio then m.pjsuaCodecSetPriority name (.ofInt prio)
  else m.pjsuaCodecSetPriority name (.ofNat prioDisabled)

/-- `pjsipStackProxy`, as far as codecs are concerned. -/
structure PjsipStackProxy where
  isInitialized : Bool
  codecs : CodecMgr
  deriving DecidableEq, Repr

namespace PjsipStackProxy

def getCodec (p : PjsipStackProxy) (index : ℕ) : List Char :=
  if p.isInitialized then (p.codecs.dllGetCodec index).getD [] else []

def getNoOfCodecs (p : PjsipStackProxy) : ℕ :=
  if p.isInitialized then p.codecs.dllGetNumOfCodecs else 0

def setCodecPriority (p : PjsipStackProxy) (codecname : List Char) (priority : ℤ) :
    PjsipStackProxy :=
  if p.isInitialized then { p with codecs := p.codecs.dllSetCodecPriority codecname priority }
  else p

/-- The body of the loop in `SIPCallProvider.Initialize`. -/
def chooseCodec (codecList : List (List Char)) (p : PjsipStackProxy) (i : ℕ) : PjsipStackProxy :=
  let codecname := p.getCodec i
  if codecList.contains codecname then p.setCodecPriority codecname 128
  else p.setCodecPriority codecname 0

/-- The loop.  The number of codecs is asked for once. -/
def chooseCodecs (codecList : List (List Char)) (p : PjsipStackProxy) : PjsipStackProxy :=
  (List.range p.getNoOfCodecs).foldl (chooseCodec codecList) p

end PjsipStackProxy

/-! ## What the loop leaves enabled -/

/-- A codec at the head of the table that is set to the normal priority sinks below those that are
above it. -/
def sinkToNormal (x : CodecDesc) (xs : List CodecDesc) : List CodecDesc :=
  xs.takeWhile (fun y => prioNormal < y.prio) ++
    { x with prio := prioNormal } :: xs.dropWhile fun y => prioNormal < y.prio

/-- The enabled codecs that stay enabled, with the number of turns left.  A turn deals with the
codec at its place; whatever stands there afterwards is not looked at again. -/
def sweepN (configured : CodecDesc → Bool) : ℕ → List CodecDesc → List CodecDesc
  | 0, _ => []
  | _ + 1, [] => []
  | n + 1, x :: xs =>
      match (if configured x then sinkToNormal x xs else xs) with
      | [] => []
      | y :: ys => y :: sweepN configured n ys

def sweep (configured : CodecDesc → Bool) (l : List CodecDesc) : List CodecDesc :=
  sweepN configured l.length l

/-- Is the codec in the list of the configuration? -/
def CodecDesc.configured (codecList : List (List Char)) (d : CodecDesc) : Bool :=
  codecList.contains d.id

/-- The codecs that are enabled, in their order. -/
def CodecMgr.enabled (m : CodecMgr) : List CodecDesc :=
  m.codecDesc.filter fun d => prioDisabled < d.prio

def CodecMgr.disabled (m : CodecMgr) : List CodecDesc :=
  m.codecDesc.filter fun d => d.prio = prioDisabled

/-- No identifier is the beginning of another one. -/
def PrefixFree (l : List CodecDesc) : Prop :=
  (l.map CodecDesc.id).Pairwise fun a b => ¬ beginsWith a b ∧ ¬ beginsWith b a

instance (l : List CodecDesc) : Decidable (PrefixFree l) :=
  inferInstanceAs (Decidable (List.Pairwise _ _))

/-! ### Names -/

lemma beginsWith_self (a : List Char) : beginsWith a a := by simp [beginsWith]

lemma CodecInfo.toId_ne_star (info : CodecInfo) : info.toId ≠ ['*'] := by
  intro h
  have hmem : '/' ∈ info.toId ∨ info.toId = [] := by
    simp only [CodecInfo.toId]
    split_ifs <;> simp
  rw [h] at hmem
  exact absurd hmem (by decide)

lemma CodecInfo.length_toId (info : CodecInfo) : info.toId.length < codecIdSize := by
  simp only [CodecInfo.toId]
  split_ifs with h
  · exact h
  · decide

lemma PrefixFree.of_perm {l l' : List CodecDesc} (h : PrefixFree l)
    (hperm : (l'.map CodecDesc.id).Perm (l.map CodecDesc.id)) : PrefixFree l' :=
  (hperm.pairwise_iff fun hab => ⟨hab.2, hab.1⟩).mpr h

/-- The name of a codec is the beginning of no other identifier. -/
lemma PrefixFree.not_beginsWith {front rest : List CodecDesc} {x : CodecDesc}
    (h : PrefixFree (front ++ x :: rest)) : ∀ d ∈ front ++ rest, ¬ beginsWith x.id d.id := by
  simp only [PrefixFree, List.map_append, List.map_cons, List.pairwise_append, List.pairwise_cons,
    List.mem_cons, List.mem_map] at h
  obtain ⟨-, ⟨hrest, -⟩, hfront⟩ := h
  intro d hd
  rcases List.mem_append.mp hd with hd | hd
  · exact (hfront d.id ⟨d, hd, rfl⟩ x.id (.inl rfl)).2
  · exact (hrest d.id ⟨d, hd, rfl⟩).1

/-! ## Tables with one changed priority -/

/-- The enabled codecs stand in front. -/
lemma CodecMgr.Inv.enabled_append_disabled {m : CodecMgr} (h : m.Inv) :
    m.codecDesc = m.enabled ++ m.disabled := by
  have hoff : ∀ d : CodecDesc, d.prio < 1 ↔ d.prio = prioDisabled := fun d => Nat.lt_one_iff
  refine (sorted_eq_append h.sorted 1).trans ?_
  simp only [CodecMgr.enabled, CodecMgr.disabled, hoff]
  rfl

lemma sortCodecs_of_lt {l : List CodecDesc} (h : ∀ d ∈ l, d.prio < prioHighest) :
    sortCodecs l = sort CodecDesc.prio l :=
  lowerHighest_of_lt fun d hd => h d (mem_sort.mp hd)

section Tables

variable {front xs off : List CodecDesc} {x x' : CodecDesc}

/-- Codecs in front of a changed one stay where they are, if it is not above them now. -/
lemma sort_front (hs : Sorted CodecDesc.prio (front ++ x :: xs))
    (hx : ∀ d ∈ front, x'.prio ≤ d.prio) :
    sort CodecDesc.prio (front ++ x' :: xs) = front ++ sort CodecDesc.prio (x' :: xs) := by
  obtain ⟨hfront, -, hle⟩ := List.pairwise_append.mp hs
  refine sort_append hfront fun d hd y hy => ?_
  rcases List.mem_cons.mp hy with rfl | hy
  · exact hx d hd
  · exact hle d hd y (List.mem_cons_of_mem x hy)

/-- In a table in order, nothing above the normal priority comes after the first codec that is not
above it. -/
lemma dropWhile_le (hs : Sorted CodecDesc.prio xs) :
    ∀ d ∈ xs.dropWhile (fun y => prioNormal < y.prio), d.prio ≤ prioNormal := by
  induction xs with
  | nil => simp
  | cons y ys ih =>
      obtain ⟨hy, hys⟩ := List.pairwise_cons.mp hs
      rw [List.dropWhile_cons]
      split_ifs with h
      · exact ih hys
      · have hle : y.prio ≤ prioNormal := by simpa using h
        exact List.forall_mem_cons.mpr ⟨hle, fun d hd => (hy d hd).trans hle⟩

/-- Setting an enabled codec to the normal priority. -/
lemma sort_normal (hs : Sorted CodecDesc.prio (front ++ x :: (xs ++ off)))
    (hon : ∀ d ∈ front, prioNormal ≤ d.prio) (hoff : ∀ d ∈ off, d.prio = prioDisabled) :
    sort CodecDesc.prio (front ++ { x with prio := prioNormal } :: (xs ++ off)) =
      front ++ (sinkToNormal x xs ++ off) := by
  obtain ⟨hxs, hsoff, hge⟩ := List.pairwise_append.mp
    (List.pairwise_cons.mp (List.pairwise_append.mp hs).2.1).2
  have hsplit := List.takeWhile_append_dropWhile (p := fun y => prioNormal < y.prio) (l := xs)
  set above := xs.takeWhile fun y => prioNormal < y.prio
  set below := xs.dropWhile fun y => prioNormal < y.prio with hbelow
  have habove : ∀ d ∈ above, prioNormal < d.prio := fun d hd => by
    simpa using List.mem_takeWhile_imp hd
  rw [← hsplit] at hxs hge
  obtain ⟨hsabove, hsbelow, -⟩ := List.pairwise_append.mp hxs
  have hrest : Sorted CodecDesc.prio (below ++ off) :=
    List.pairwise_append.mpr ⟨hsbelow, hsoff, fun a ha => hge a (by simp [ha])⟩
  have hle : ∀ d ∈ below ++ off, d.prio ≤ prioNormal := by
    intro d hd
    rcases List.mem_append.mp hd with hd | hd
    · exact dropWhile_le (hsplit ▸ hxs) d hd
    · simp [hoff d hd, prioDisabled]
  rw [sort_front hs hon]
  calc front ++ sort CodecDesc.prio ({ x with prio := prioNormal } :: (xs ++ off))
      = front ++
        sort CodecDesc.prio ({ x with prio := prioNormal } :: (above ++ (below ++ off))) := by
        rw [← List.append_assoc, hsplit]
    _ = front ++ (above ++ { x with prio := prioNormal } :: (below ++ off)) := by
        rw [sort_lowered hsabove hrest habove hle]
    _ = front ++ (sinkToNormal x xs ++ off) := by simp [sinkToNormal, above, below]

/-- Disabling an enabled codec. -/
lemma sort_disabled (hs : Sorted CodecDesc.prio (front ++ x :: (xs ++ off)))
    (hon : ∀ d ∈ xs, prioNormal ≤ d.prio) (hoff : ∀ d ∈ off, d.prio = prioDisabled) :
    sort CodecDesc.prio (front ++ { x with prio := prioDisabled } :: (xs ++ off)) =
      front ++ (xs ++ { x with prio := prioDisabled } :: off) := by
  obtain ⟨hxs, hsoff, -⟩ := List.pairwise_append.mp
    (List.pairwise_cons.mp (List.pairwise_append.mp hs).2.1).2
  have hlt : ∀ d ∈ xs, prioDisabled < d.prio := fun d hd => lt_of_lt_of_le (by decide) (hon d hd)
  rw [sort_front hs (by simp [prioDisabled]),
    sort_lowered hxs hsoff hlt fun d hd => (hoff d hd).le]

/-- Enabling a disabled codec: it changes places with the first disabled one. -/
lemma sort_enabled {read : List CodecDesc} (hs : Sorted CodecDesc.prio (front ++ read ++ x :: off))
    (hon : ∀ d ∈ front, prioNormal ≤ d.prio) (hread : ∀ d ∈ read, d.prio = prioDisabled)
    (hoff : ∀ d ∈ off, d.prio = prioDisabled) :
    ∃ read' : List CodecDesc, read'.length = read.length ∧ (∀ d ∈ read', d.prio = prioDisabled) ∧
      sort CodecDesc.prio (front ++ read ++ { x with prio := prioNormal } :: off) =
        front ++ { x with prio := prioNormal } :: (read' ++ off) := by
  obtain ⟨hfront, -, -⟩ := List.pairwise_append.mp (List.pairwise_append.mp hs).1
  have hsoff := (List.pairwise_cons.mp (List.pairwise_append.mp hs).2.1).2
  have hle : ∀ d ∈ front, ∀ y ∈ read ++ { x with prio := prioNormal } :: off, y.prio ≤ d.prio := by
    intro d hd y hy
    refine le_trans ?_ (hon d hd)
    simp only [List.mem_append, List.mem_cons] at hy
    rcases hy with hy | rfl | hy
    · simp [hread y hy, prioDisabled]
    · exact le_rfl
    · simp [hoff y hy, prioDisabled]
  rw [List.append_assoc, sort_append hfront hle]
  cases read with
  | nil =>
      refine ⟨[], rfl, by simp, ?_⟩
      have hsorted : Sorted CodecDesc.prio ({ x with prio := prioNormal } :: off) :=
        List.pairwise_cons.mpr ⟨fun d hd => by simp [hoff d hd, prioDisabled], hsoff⟩
      simp [sort_of_sorted hsorted]
  | cons z zs =>
      rw [List.forall_mem_cons] at hread
      have hraise : z.prio < ({ x with prio := prioNormal } : CodecDesc).prio :=
        hread.1 ▸ (by decide : prioDisabled < prioNormal)
      refine ⟨zs ++ [z], by simp, by simpa [or_imp, forall_and, hread.1] using hread.2, ?_⟩
      rw [List.cons_append, sort_raised hraise (fun d hd => (hread.2 d hd).trans hread.1.symm) hsoff
        fun d hd => ((hoff d hd).trans hread.1.symm).le]
      simp

lemma sinkToNormal_ne_nil (x : CodecDesc) (xs : List CodecDesc) : sinkToNormal x xs ≠ [] := by
  simp [sinkToNormal]

lemma length_sinkToNormal (x : CodecDesc) (xs : List CodecDesc) :
    (sinkToNormal x xs).length = xs.length + 1 := by
  have hsplit := congrArg List.length
    (List.takeWhile_append_dropWhile (p := fun y => prioNormal < y.prio) (l := xs))
  simp only [List.length_append] at hsplit
  simp only [sinkToNormal, List.length_append, List.length_cons]
  omega

lemma mem_sinkToNormal {d : CodecDesc} :
    d ∈ sinkToNormal x xs ↔ d = { x with prio := prioNormal } ∨ d ∈ xs := by
  conv_rhs => rw [← List.takeWhile_append_dropWhile (p := fun y => prioNormal < y.prio) (l := xs)]
  simp only [sinkToNormal, List.mem_append, List.mem_cons]
  tauto

lemma forall_mem_sinkToNormal (hxs : ∀ d ∈ xs, prioNormal ≤ d.prio) :
    ∀ d ∈ sinkToNormal x xs, prioNormal ≤ d.prio := by
  intro d hd
  rcases mem_sinkToNormal.mp hd with rfl | hd
  · exact le_rfl
  · exact hxs d hd

end Tables

/-! ## One turn of the loop -/

namespace PjsipStackProxy

variable {codecList : List (List Char)} {p : PjsipStackProxy} {front rest : List CodecDesc}
  {x : CodecDesc}

/-- The priority the loop gives to a codec. -/
def chosenPrio (codecList : List (List Char)) (x : CodecDesc) : ℕ :=
  if x.configured codecList then prioNormal else prioDisabled

/-- A codec is set by its own name, and no other codec is set with it. -/
lemma dllSetCodecPriority_name {m : CodecMgr} (hm : m.codecDesc = front ++ x :: rest)
    (hfree : PrefixFree m.codecDesc) (prio : UInt8) :
    (m.pjsuaCodecSetPriority x.id prio).codecDesc =
      sortCodecs (front ++ { x with prio := prio.toNat } :: rest) := by
  have hothers := (hm ▸ hfree).not_beginsWith
  have hframe : ∀ l : List CodecDesc, (∀ d ∈ l, ¬ beginsWith x.id d.id) →
      l.map (fun d => if beginsWith x.id d.id then { d with prio := prio.toNat } else d) = l :=
    fun l hl => (List.map_congr_left fun d hd => if_neg (hl d hd)).trans l.map_id'
  have hself : beginsWith x.id x.id := beginsWith_self x.id
  have hany : m.codecDesc.any fun d => beginsWith x.id d.id :=
    List.any_eq_true.mpr ⟨x, by simp [hm], hself⟩
  have hstar : x.id ≠ ['*'] := x.info.toId_ne_star
  rw [CodecMgr.pjsuaCodecSetPriority, if_neg hstar, CodecMgr.setCodecPriority, if_pos hany]
  simp only [hm, List.map_append, List.map_cons, hself, if_true,
    hframe front fun d hd => hothers d (by simp [hd]),
    hframe rest fun d hd => hothers d (by simp [hd])]

/-- **One turn**: the codec at the place of the turn gets its priority, and the table is sorted. -/
lemma chooseCodec_codecDesc (hp : p.isInitialized) (hinv : p.codecs.Inv)
    (hfree : PrefixFree p.codecs.codecDesc) (ht : p.codecs.codecDesc = front ++ x :: rest) :
    (p.chooseCodec codecList front.length).codecs.codecDesc =
      sortCodecs (front ++ { x with prio := chosenPrio codecList x } :: rest) := by
  have hlength : (front ++ x :: rest).length ≤ 32 := ht ▸ hinv.length_le
  have hget : p.getCodec front.length = x.id := by
    have hid : ¬ 256 ≤ x.id.length := by
      have := x.info.length_toId
      simp only [codecIdSize, CodecDesc.id] at this ⊢
      omega
    simp [getCodec, hp, CodecMgr.dllGetCodec, CodecMgr.pjsuaEnumCodecs, CodecMgr.enumCodecs, ht,
      List.take_of_length_le hlength, hid]
  by_cases hx : codecList.contains x.id
  · simp only [chooseCodec, hget, chosenPrio, CodecDesc.configured, setCodecPriority, hp, hx,
      if_true]
    exact dllSetCodecPriority_name ht hfree 128
  · simp only [chooseCodec, hget, chosenPrio, CodecDesc.configured, setCodecPriority, hp, hx,
      if_true]
    exact dllSetCodecPriority_name ht hfree 0

lemma chooseCodec_isInitialized (i : ℕ) :
    (p.chooseCodec codecList i).isInitialized = p.isInitialized := by
  simp only [chooseCodec, setCodecPriority]
  split_ifs <;> rfl

lemma chooseCodec_inv (hinv : p.codecs.Inv) (i : ℕ) : (p.chooseCodec codecList i).codecs.Inv := by
  simp only [chooseCodec, setCodecPriority, CodecMgr.dllSetCodecPriority,
    CodecMgr.pjsuaCodecSetPriority]
  split_ifs <;> first | exact hinv | exact hinv.setCodecPriority _ _

/-- What the loop needs to know about a stack. -/
structure Ready (p : PjsipStackProxy) : Prop where
  isInitialized : p.isInitialized
  inv : p.codecs.Inv
  prefixFree : PrefixFree p.codecs.codecDesc

variable (codecList) in
lemma Ready.chooseCodec (h : p.Ready) (ht : p.codecs.codecDesc = front ++ x :: rest) :
    (p.chooseCodec codecList front.length).Ready := by
  refine ⟨(chooseCodec_isInitialized _).trans h.isInitialized, chooseCodec_inv h.inv _, ?_⟩
  refine h.prefixFree.of_perm ?_
  rw [chooseCodec_codecDesc h.isInitialized h.inv h.prefixFree ht, ht]
  have hperm := (map_info_sortCodecs_perm
    (front ++ { x with prio := chosenPrio codecList x } :: rest)).map fun d => d.1.toId
  have hid : CodecDesc.id = (fun d : CodecDesc => d.info.toId) := rfl
  simpa [Function.comp_def, hid] using hperm

lemma chosenPrio_lt (x : CodecDesc) : chosenPrio codecList x < prioHighest := by
  simp only [chosenPrio]
  split_ifs <;> decide

variable (codecList) in
lemma Ready.chooseCodec_codecDesc (h : p.Ready) (ht : p.codecs.codecDesc = front ++ x :: rest) :
    (p.chooseCodec codecList front.length).codecs.codecDesc =
      sort CodecDesc.prio (front ++ { x with prio := chosenPrio codecList x } :: rest) := by
  rw [PjsipStackProxy.chooseCodec_codecDesc h.isInitialized h.inv h.prefixFree ht]
  refine sortCodecs_of_lt fun d hd => ?_
  have hlt := ht ▸ h.inv.prio_lt
  simp only [List.mem_append, List.mem_cons] at hd hlt
  rcases hd with hd | rfl | hd
  · exact hlt d (.inl hd)
  · exact chosenPrio_lt x
  · exact hlt d (.inr (.inr hd))

/-! ## The whole loop -/

/-- The turns from a given place on. -/
def chooseFrom (codecList : List (List Char)) (p : PjsipStackProxy) (i n : ℕ) : PjsipStackProxy :=
  (List.range' i n).foldl (PjsipStackProxy.chooseCodec codecList) p

lemma chooseFrom_succ (i n : ℕ) :
    chooseFrom codecList p i (n + 1) = chooseFrom codecList (p.chooseCodec codecList i) (i + 1) n :=
  rfl

/-- A codec at the normal priority. -/
def normal (d : CodecDesc) : CodecDesc := { d with prio := prioNormal }

variable (codecList) in
/-- The second part of the loop, among the disabled codecs: each of them comes to its turn. -/
lemma Ready.chooseFrom_disabled (on read unread : List CodecDesc) (h : p.Ready)
    (ht : p.codecs.codecDesc = on ++ read ++ unread) (hon : ∀ d ∈ on, prioNormal ≤ d.prio)
    (hoff : ∀ d ∈ read ++ unread, d.prio = prioDisabled) :
    (chooseFrom codecList p (on.length + read.length) unread.length).codecs.enabled =
      on ++ (unread.filter (CodecDesc.configured codecList)).map normal := by
  induction unread generalizing p on read with
  | nil =>
      have hall : on.filter (fun d => prioDisabled < d.prio) = on :=
        List.filter_eq_self.mpr fun d hd =>
          decide_eq_true (lt_of_lt_of_le (by decide) (hon d hd))
      have hnone : read.filter (fun d => prioDisabled < d.prio) = [] :=
        List.filter_eq_nil_iff.mpr fun d hd => by simp [hoff d (by simpa using hd)]
      simp [chooseFrom, CodecMgr.enabled, ht, hall, hnone]
  | cons x rest ih =>
      have hready := h.chooseCodec codecList ht
      have htable := h.chooseCodec_codecDesc codecList ht
      have hs : Sorted CodecDesc.prio (on ++ read ++ x :: rest) := ht ▸ h.inv.sorted
      rw [List.length_append] at hready htable
      rw [List.length_cons, chooseFrom_succ]
      have hx : x.prio = prioDisabled := hoff x (by simp)
      by_cases hc : x.configured codecList
      · simp only [chosenPrio, hc, if_true] at htable
        obtain ⟨read', hlength, hread', hsort⟩ := sort_enabled hs hon
          (fun d hd => hoff d (by simp [hd])) fun d hd => hoff d (by simp [hd])
        have hon' : ∀ d ∈ on ++ [normal x], prioNormal ≤ d.prio :=
          List.forall_mem_append.mpr ⟨hon, by simp [normal]⟩
        have hoff' : ∀ d ∈ read' ++ rest, d.prio = prioDisabled :=
          List.forall_mem_append.mpr ⟨hread', fun d hd => hoff d (by simp [hd])⟩
        have := ih (on ++ [normal x]) read' hready (by simpa [normal] using htable.trans hsort)
          hon' hoff'
        simpa [hc, hlength, Nat.add_right_comm] using this
      · -- a disabled codec that is not configured is disabled once more
        have hsame : { x with prio := chosenPrio codecList x } = x := by
          simp [chosenPrio, hc, ← hx]
        rw [hsame, sort_of_sorted hs] at htable
        have := ih on (read ++ [x]) hready (by simpa using htable) hon
          (by simpa using hoff)
        simpa [hc, Nat.add_assoc] using this

variable (codecList) in
lemma Ready.chooseFrom_off {on off : List CodecDesc} (h : p.Ready)
    (ht : p.codecs.codecDesc = on ++ off) (hon : ∀ d ∈ on, prioNormal ≤ d.prio)
    (hoff : ∀ d ∈ off, d.prio = prioDisabled) :
    (chooseFrom codecList p on.length off.length).codecs.enabled =
      on ++ (off.filter (CodecDesc.configured codecList)).map normal :=
  h.chooseFrom_disabled codecList on [] off (by simpa using ht) hon hoff

variable (codecList) in
/-- The first part of the loop, among the enabled codecs. -/
lemma Ready.chooseFrom_enabled (done todo off : List CodecDesc) {n : ℕ} (h : p.Ready)
    (ht : p.codecs.codecDesc = done ++ (todo ++ off))
    (hon : ∀ d ∈ done ++ todo, prioNormal ≤ d.prio) (hoff : ∀ d ∈ off, d.prio = prioDisabled)
    (hn : todo.length ≤ n) :
    (chooseFrom codecList p done.length (todo.length + off.length)).codecs.enabled =
      done ++ sweepN (CodecDesc.configured codecList) n todo ++
        (off.filter (CodecDesc.configured codecList)).map normal := by
  induction n generalizing p done todo off with
  | zero =>
      obtain rfl := List.length_eq_zero_iff.mp (Nat.le_zero.mp hn)
      simpa [sweepN] using h.chooseFrom_off codecList ht (by simpa using hon) hoff
  | succ n ih =>
      cases todo with
      | nil =>
          simpa [sweepN] using h.chooseFrom_off codecList ht (by simpa using hon) hoff
      | cons x xs =>
          rw [List.cons_append] at ht
          have hready := h.chooseCodec codecList ht
          have htable := h.chooseCodec_codecDesc codecList ht
          have hs : Sorted CodecDesc.prio (done ++ x :: (xs ++ off)) := ht ▸ h.inv.sorted
          have hdone : ∀ d ∈ done, prioNormal ≤ d.prio := fun d hd => hon d (by simp [hd])
          have hxs : ∀ d ∈ xs, prioNormal ≤ d.prio := fun d hd => hon d (by simp [hd])
          rw [List.length_cons, Nat.succ_add, chooseFrom_succ]
          rw [List.length_cons] at hn
          by_cases hc : x.configured codecList
          · -- the head of what is left takes its place, whether or not this is the codec itself
            simp only [chosenPrio, hc, if_true] at htable
            rw [sort_normal hs hdone hoff] at htable
            obtain ⟨y, ys, hys⟩ := List.exists_cons_of_ne_nil (sinkToNormal_ne_nil x xs)
            have hlength := length_sinkToNormal x xs
            have hsink := forall_mem_sinkToNormal (x := x) hxs
            rw [hys] at htable hlength hsink
            rw [List.length_cons, Nat.succ.injEq] at hlength
            have := ih (done ++ [y]) ys off hready (by simpa using htable)
              (by simpa using List.forall_mem_append.mpr ⟨hdone, hsink⟩) hoff (by omega)
            simpa [sweepN, hc, hys, hlength] using this
          · -- the next codec takes its place, and the codec is the first of the disabled ones
            simp only [chosenPrio, hc, Bool.false_eq_true, if_false] at htable
            rw [sort_disabled hs hxs hoff] at htable
            cases xs with
            | nil =>
                have := hready.chooseFrom_disabled codecList done
                  [{ x with prio := prioDisabled }] off
                  (by simpa using htable) hdone (by simpa using hoff)
                simpa [sweepN, hc] using this
            | cons y ys =>
                have hc' :
                    ¬ ({ x with prio := prioDisabled } : CodecDesc).configured codecList := hc
                have := ih (done ++ [y]) ys
                  ({ x with prio := prioDisabled } :: off) hready (by simpa using htable)
                  (by simpa using List.forall_mem_append.mpr ⟨hdone, hxs⟩) (by simpa using hoff)
                  (by rw [List.length_cons] at hn; omega)
                simpa [sweepN, hc, hc', Nat.add_assoc, Nat.add_comm 1] using this

/-- A table in which every codec is disabled or has at least the normal priority. -/
def NormalOrOff (l : List CodecDesc) : Prop :=
  ∀ d ∈ l, d.prio = prioDisabled ∨ prioNormal ≤ d.prio

instance (l : List CodecDesc) : Decidable (NormalOrOff l) :=
  inferInstanceAs (Decidable (∀ d ∈ l, _))

lemma Ready.chooseCodecs_enabled (h : p.Ready) (hprio : NormalOrOff p.codecs.codecDesc) :
    (p.chooseCodecs codecList).codecs.enabled =
      sweep (CodecDesc.configured codecList) p.codecs.enabled ++
        (p.codecs.disabled.filter (CodecDesc.configured codecList)).map normal := by
  have hlength : p.codecs.codecDesc.length ≤ 32 := h.inv.length_le
  have hnumber : p.getNoOfCodecs = p.codecs.codecDesc.length := by
    simp [getNoOfCodecs, h.isInitialized, CodecMgr.dllGetNumOfCodecs, CodecMgr.pjsuaEnumCodecs,
      CodecMgr.enumCodecs, hlength]
  have htable := h.inv.enabled_append_disabled
  have hon : ∀ d ∈ p.codecs.enabled, prioNormal ≤ d.prio := by
    intro d hd
    obtain ⟨hd, hpos⟩ := List.mem_filter.mp hd
    exact (hprio d hd).resolve_left (of_decide_eq_true hpos).ne'
  have hoff : ∀ d ∈ p.codecs.disabled, d.prio = prioDisabled := fun d hd =>
    of_decide_eq_true (List.mem_filter.mp hd).2
  have hloop := h.chooseFrom_enabled codecList [] _ _ htable hon hoff le_rfl
  rw [chooseCodecs, hnumber, List.range_eq_range', htable, List.length_append]
  exact hloop

end PjsipStackProxy

/-! ## What is left enabled -/

section Sweep

variable {configured : CodecDesc → Bool} {n : ℕ} {l : List CodecDesc}

/-- Codecs that are configured stay enabled; whether one is configured is a matter of its name. -/
lemma exists_mem_sweepN (hinfo : ∀ c d : CodecDesc, c.info = d.info → configured c = configured d)
    (hn : l.length ≤ n) {x : CodecDesc} (hx : x ∈ l) (hc : configured x) :
    ∃ y ∈ sweepN configured n l, y.info = x.info := by
  induction n generalizing l x with
  | zero =>
      rw [List.length_eq_zero_iff.mp (Nat.le_zero.mp hn)] at hx
      simp at hx
  | succ n ih =>
      cases l with
      | nil => simp at hx
      | cons w ws =>
          -- after the turn the codec is still there, at most with another priority
          have hafter :
              ∃ y ∈ (if configured w then sinkToNormal w ws else ws), y.info = x.info := by
            rcases List.mem_cons.mp hx with rfl | hx
            · exact ⟨{ x with prio := prioNormal }, by simp [hc, mem_sinkToNormal], rfl⟩
            · refine ⟨x, ?_, rfl⟩
              split_ifs
              · exact mem_sinkToNormal.mpr (.inr hx)
              · exact hx
          have hlength : (if configured w then sinkToNormal w ws else ws).length ≤ n + 1 := by
            rw [List.length_cons] at hn
            split_ifs
            · rwa [length_sinkToNormal]
            · omega
          simp only [sweepN]
          cases hys : (if configured w then sinkToNormal w ws else ws) with
          | nil => simp [hys] at hafter
          | cons y ys =>
              rw [hys] at hafter hlength
              obtain ⟨z, hz, hzx⟩ := hafter
              rcases List.mem_cons.mp hz with rfl | hz
              · exact ⟨z, by simp, hzx⟩
              · obtain ⟨u, hu, huz⟩ := ih (Nat.le_of_succ_le_succ hlength) hz
                  ((hinfo z x hzx).trans hc)
                exact ⟨u, List.mem_cons_of_mem y hu, huz.trans hzx⟩

/-- A codec above the normal priority that stands second is passed over: it moves up whether the
first one is configured or not. -/
lemma second_mem_sweep {x y : CodecDesc} {ys : List CodecDesc} (hy : prioNormal < y.prio) :
    y ∈ sweep configured (x :: y :: ys) := by
  by_cases hx : configured x <;> simp [sweep, sweepN, sinkToNormal, hx, hy]

/-- Nothing moves if no codec is above the normal priority. -/
lemma sinkToNormal_of_normal {x : CodecDesc} {xs : List CodecDesc}
    (h : ∀ d ∈ x :: xs, d.prio = prioNormal) : sinkToNormal x xs = x :: xs := by
  rw [List.forall_mem_cons] at h
  have hx : ({ x with prio := prioNormal } : CodecDesc) = x := by rw [← h.1]
  cases xs with
  | nil => simp [sinkToNormal, hx]
  | cons y ys => simp [sinkToNormal, hx, h.2 y (by simp)]

lemma isChain_cons_of_configured {x : CodecDesc} (hx : configured x) :
    ((x :: l).IsChain fun a b => configured a ∨ configured b) ↔
      l.IsChain fun a b => configured a ∨ configured b := by
  cases l <;> simp [hx]

/-- If no codec is above the normal priority, the codecs that are passed over are those behind a
codec that is disabled.  So all others are disabled exactly if no two neighbours are to be. -/
lemma sweepN_configured_iff (hnormal : ∀ d ∈ l, d.prio = prioNormal) (hn : l.length ≤ n) :
    (∀ d ∈ sweepN configured n l, configured d) ↔
      l.IsChain fun a b => configured a ∨ configured b := by
  induction n generalizing l with
  | zero =>
      rw [List.length_eq_zero_iff.mp (Nat.le_zero.mp hn)]
      simp [sweepN]
  | succ n ih =>
      cases l with
      | nil => simp [sweepN]
      | cons x xs =>
          have hxs : ∀ d ∈ xs, d.prio = prioNormal := fun d hd => hnormal d (by simp [hd])
          have hlength : xs.length ≤ n := by simpa using hn
          by_cases hx : configured x
          · simp only [sweepN, hx, if_true, sinkToNormal_of_normal hnormal, List.forall_mem_cons,
              true_and]
            rw [ih hxs hlength, isChain_cons_of_configured hx]
          · cases xs with
            | nil => simp [sweepN, hx]
            | cons y ys =>
                simp only [sweepN, hx, if_false, List.forall_mem_cons, List.isChain_cons_cons,
                  false_or, Bool.false_eq_true]
                refine and_congr_right fun hy => ?_
                rw [ih (fun d hd => hxs d (by simp [hd]))
                  (by rw [List.length_cons] at hlength; omega),
                  isChain_cons_of_configured hy]

end Sweep

namespace PjsipStackProxy

variable {codecList : List (List Char)}

/-- The stack proxy after the stack has come up with this table. -/
def ofHistory (ops : List CodecOp) : PjsipStackProxy :=
  { isInitialized := true, codecs := Runs.run CodecMgr.step {} ops }

lemma Ready.ofHistory {ops : List CodecOp} (hfree : PrefixFree (ofHistory ops).codecs.codecDesc) :
    (PjsipStackProxy.ofHistory ops).Ready :=
  ⟨rfl, CodecMgr.Inv.run ops, hfree⟩

lemma configured_congr (c d : CodecDesc) (h : c.info = d.info) :
    c.configured codecList = d.configured codecList := by
  simp only [CodecDesc.configured, CodecDesc.id, h]

/-- **What the loop leaves enabled**, whatever codecs were registered and ranked before: of the
codecs that were enabled those that `sweep` leaves, and of the others those that are configured. -/
theorem enabled_after_choice (codecList : List (List Char)) (ops : List CodecOp)
    (hfree : PrefixFree (ofHistory ops).codecs.codecDesc)
    (hprio : NormalOrOff (ofHistory ops).codecs.codecDesc) :
    ((ofHistory ops).chooseCodecs codecList).codecs.enabled =
      sweep (CodecDesc.configured codecList) (ofHistory ops).codecs.enabled ++
        ((ofHistory ops).codecs.disabled.filter (CodecDesc.configured codecList)).map normal :=
  (Ready.ofHistory hfree).chooseCodecs_enabled hprio

/-- Three codecs, of which the second one is ranked higher and the last one is configured. -/
def threeCodecs : List CodecOp :=
  [.registerFactory 0 (.ok [{ encodingName := "GSM".toList, clockRate := 8000, channelCnt := 1 },
      { encodingName := "speex".toList, clockRate := 8000, channelCnt := 1 },
      { encodingName := "PCMA".toList, clockRate := 8000, channelCnt := 1 }]),
    .setCodecPriority "SPEEX".toList 129]

theorem enabled_after_choice_three :
    PrefixFree (ofHistory threeCodecs).codecs.codecDesc ∧
    ((ofHistory threeCodecs).chooseCodecs ["PCMA/8000/1".toList]).codecs.enabled =
      sweep (CodecDesc.configured ["PCMA/8000/1".toList]) (ofHistory threeCodecs).codecs.enabled ++
        ((ofHistory threeCodecs).codecs.disabled.filter
          (CodecDesc.configured ["PCMA/8000/1".toList])).map normal :=
  ⟨by decide +kernel, enabled_after_choice _ _ (by decide +kernel) (by decide +kernel)⟩

/-- The codecs that are configured are enabled afterwards. -/
lemma Ready.configured_enabled {p : PjsipStackProxy} (h : p.Ready)
    (hprio : NormalOrOff p.codecs.codecDesc) {d : CodecDesc} (hd : d ∈ p.codecs.codecDesc)
    (hc : d.configured codecList) :
    ∃ e ∈ (p.chooseCodecs codecList).codecs.enabled, e.info = d.info := by
  rw [h.chooseCodecs_enabled hprio]
  rw [h.inv.enabled_append_disabled, List.mem_append] at hd
  rcases hd with hd | hd
  · obtain ⟨e, he, hinfo⟩ := exists_mem_sweepN configured_congr le_rfl hd hc
    exact ⟨e, List.mem_append_left _ he, hinfo⟩
  · refine ⟨normal d, List.mem_append_right _ (List.mem_map_of_mem ?_), rfl⟩
    exact List.mem_filter.mpr ⟨hd, hc⟩

end PjsipStackProxy

/-! ## The codecs of the media subsystem -/

/-- A codec of the Speex factory. -/
def speexInfo (clockRate : ℕ) : CodecInfo :=
  { encodingName := "speex".toList, clockRate, channelCnt := 1 }

/-- The factories of the Speex codecs and of the L16 codecs. -/
def speexFactory : ℕ := 0

def l16Factory : ℕ := 1

/-- What is done only if the call before has succeeded. -/
def ifSuccess (r : PjStatus × CodecMgr) (next : CodecMgr → PjStatus × CodecMgr) :
    PjStatus × CodecMgr :=
  if r.1 = .PJ_SUCCESS then next r.2 else r

/-- The calls of `pjmedia_codec_mgr_register_factory` one after the other. -/
def CodecMgr.registerAll (m : CodecMgr) :
    List (ℕ × Except ℕ (List CodecInfo)) → PjStatus × CodecMgr
  | [] => (.PJ_SUCCESS, m)
  | (factory, enumInfo) :: rest =>
      ifSuccess (m.registerFactory factory enumInfo) fun m => m.registerAll rest

/-- The part of `pjsua_media_subsys_init` that is about codecs.  The Speex codecs come first; which
of the other factories there are is decided when the stack is compiled. -/
def mediaSubsysInit (others : List (ℕ × Except ℕ (List CodecInfo)))
    (l16 : Option (Except ℕ (List CodecInfo))) : PjStatus × CodecMgr :=
  let speex := [speexInfo 32000, speexInfo 16000, speexInfo 8000]
  ifSuccess (({} : CodecMgr).registerFactory speexFactory (.ok speex)) fun m =>
    let m := (m.setCodecPriority "speex/16000".toList 130).2
    let m := (m.setCodecPriority "speex/8000".toList 129).2
    ifSuccess (m.registerAll others) fun m =>
      match l16 with
      | none => (.PJ_SUCCESS, m)
      | some enumInfo =>
          ifSuccess (m.registerFactory l16Factory enumInfo) fun m =>
            (.PJ_SUCCESS, (m.setCodecPriority "L16".toList 0).2)

/-- The stack proxy once the media subsystem has come up, if it has. -/
def PjsipStackProxy.ofMedia (others : List (ℕ × Except ℕ (List CodecInfo)))
    (l16 : Option (Except ℕ (List CodecInfo))) : PjsipStackProxy :=
  { isInitialized := (mediaSubsysInit others l16).1 = .PJ_SUCCESS
    codecs := (mediaSubsysInit others l16).2 }

section StartUp

variable {J : CodecMgr → Prop} {m : CodecMgr}

lemma ifSuccess_rule {r : PjStatus × CodecMgr} {next : CodecMgr → PjStatus × CodecMgr} (hr : J r.2)
    (hnext : J r.2 → J (next r.2).2) : J (ifSuccess r next).2 := by
  rw [ifSuccess]
  split_ifs
  · exact hnext hr
  · exact hr

lemma registerAll_rule (hregister : ∀ m factory enumInfo, J m →
      J (m.registerFactory factory enumInfo).2) (hm : J m)
    (fs : List (ℕ × Except ℕ (List CodecInfo))) : J (m.registerAll fs).2 := by
  induction fs generalizing m with
  | nil => exact hm
  | cons f fs ih => exact ifSuccess_rule (hregister m f.1 f.2 hm) fun h => ih h

/-- The table with the Speex codecs alone. -/
def speexTable : List CodecDesc :=
  [{ info := speexInfo 16000, prio := 130, factory := speexFactory },
    { info := speexInfo 8000, prio := 129, factory := speexFactory },
    { info := speexInfo 32000, prio := 128, factory := speexFactory }]

/-- What holds of the Speex codecs alone and is kept by what comes after holds at the end. -/
lemma mediaSubsysInit_rule (hspeex : J { factoryList := [speexFactory], codecDesc := speexTable })
    (hregister : ∀ m factory enumInfo, J m → J (m.registerFactory factory enumInfo).2)
    (hl16 : ∀ m, J m → J (m.setCodecPriority "L16".toList 0).2)
    (others : List (ℕ × Except ℕ (List CodecInfo))) (l16 : Option (Except ℕ (List CodecInfo))) :
    J (mediaSubsysInit others l16).2 := by
  have hspeexFactory : (({} : CodecMgr).registerFactory speexFactory
      (.ok [speexInfo 32000, speexInfo 16000, speexInfo 8000])).1 = .PJ_SUCCESS := by decide +kernel
  have hranked : (((({} : CodecMgr).registerFactory speexFactory
      (.ok [speexInfo 32000, speexInfo 16000, speexInfo 8000])).2.setCodecPriority
        "speex/16000".toList 130).2.setCodecPriority "speex/8000".toList 129).2 =
      { factoryList := [speexFactory], codecDesc := speexTable } := by decide +kernel
  rw [mediaSubsysInit, ifSuccess, if_pos hspeexFactory]
  simp only [hranked]
  refine ifSuccess_rule (registerAll_rule hregister hspeex others) fun h => ?_
  cases l16 with
  | none => exact h
  | some enumInfo => exact ifSuccess_rule (hregister _ l16Factory enumInfo h) fun h => hl16 _ h

end StartUp

/-- The Speex codecs with 16 and with 8 kHz come first, and only they are above the normal
priority. -/
def SpeexFirst (m : CodecMgr) : Prop :=
  ∃ rest, m.codecDesc = speexTable.take 2 ++ rest ∧
    ∀ d ∈ rest, d.prio = prioDisabled ∨ d.prio = prioNormal

lemma sortCodecs_speexFirst {rest : List CodecDesc}
    (hrest : ∀ d ∈ rest, d.prio = prioDisabled ∨ d.prio = prioNormal) :
    sortCodecs (speexTable.take 2 ++ rest) = speexTable.take 2 ++ sort CodecDesc.prio rest := by
  have hle : ∀ d ∈ rest, d.prio ≤ prioNormal := fun d hd => by
    rcases hrest d hd with h | h <;> simp [h, prioDisabled]
  have hspeex : ∀ d ∈ speexTable.take 2, prioNormal < d.prio ∧ d.prio < prioHighest := by decide
  rw [sortCodecs_of_lt, sort_append (by decide) fun d hd y hy =>
    (hle y hy).trans (hspeex d hd).1.le]
  intro d hd
  rcases List.mem_append.mp hd with hd | hd
  · exact (hspeex d hd).2
  · exact (hle d hd).trans_lt (by decide)

lemma SpeexFirst.registerFactory {m : CodecMgr} (h : SpeexFirst m) (factory : ℕ)
    (enumInfo : Except ℕ (List CodecInfo)) : SpeexFirst (m.registerFactory factory enumInfo).2 := by
  obtain ⟨rest, hm, hrest⟩ := h
  cases enumInfo with
  | error code => exact ⟨rest, hm, hrest⟩
  | ok info =>
      simp only [CodecMgr.registerFactory]
      split_ifs
      · exact ⟨rest, hm, hrest⟩
      · set added : List CodecDesc :=
          (info.take maxCodecs).map fun i => { info := i, prio := prioNormal, factory }
        have hadded : ∀ d ∈ rest ++ added, d.prio = prioDisabled ∨ d.prio = prioNormal := by
          refine List.forall_mem_append.mpr ⟨hrest, fun d hd => .inr ?_⟩
          obtain ⟨i, -, rfl⟩ := List.mem_map.mp hd
          rfl
        refine ⟨sort CodecDesc.prio (rest ++ added), ?_, fun d hd => hadded d (mem_sort.mp hd)⟩
        rw [hm, List.append_assoc, sortCodecs_speexFirst hadded]

lemma SpeexFirst.disableL16 {m : CodecMgr} (h : SpeexFirst m) :
    SpeexFirst (m.setCodecPriority "L16".toList 0).2 := by
  obtain ⟨rest, hm, hrest⟩ := h
  rw [CodecMgr.setCodecPriority]
  split_ifs
  · set f : CodecDesc → CodecDesc := fun d =>
      if beginsWith "L16".toList d.id then { d with prio := (0 : UInt8).toNat } else d
    have hspeex : (speexTable.take 2).map f = speexTable.take 2 := by decide +kernel
    have hranked : ∀ d ∈ rest.map f, d.prio = prioDisabled ∨ d.prio = prioNormal := by
      intro d hd
      obtain ⟨c, hc, rfl⟩ := List.mem_map.mp hd
      simp only [f]
      split_ifs
      · exact .inl rfl
      · exact hrest c hc
    refine ⟨sort CodecDesc.prio (rest.map f), ?_, fun d hd => hranked d (mem_sort.mp hd)⟩
    simp only [hm, List.map_append, hspeex, sortCodecs_speexFirst hranked]
  · exact ⟨rest, hm, hrest⟩

/-- Factories the stack is usually compiled with. -/
def usualFactories : List (ℕ × Except ℕ (List CodecInfo)) :=
  [(2, .ok [{ encodingName := "GSM".toList, clockRate := 8000, channelCnt := 1 }]),
    (3, .ok [{ encodingName := "PCMU".toList, clockRate := 8000, channelCnt := 1 },
      { encodingName := "PCMA".toList, clockRate := 8000, channelCnt := 1 }]),
    (4, .ok [{ encodingName := "G722".toList, clockRate := 16000, channelCnt := 1 }])]

def usualL16 : Except ℕ (List CodecInfo) :=
  .ok [{ encodingName := "L16".toList, clockRate := 44100, channelCnt := 1 },
    { encodingName := "L16".toList, clockRate := 44100, channelCnt := 2 }]

namespace PjsipStackProxy

section OfMedia

variable (others : List (ℕ × Except ℕ (List CodecInfo))) (l16 : Option (Except ℕ (List CodecInfo)))

lemma ofMedia_inv : (ofMedia others l16).codecs.Inv :=
  mediaSubsysInit_rule ⟨by decide, by decide, by decide, by decide⟩
    (fun _ f e h => h.registerFactory f e) (fun _ h => h.setCodecPriority _ _) others l16

lemma ofMedia_speexFirst : SpeexFirst (ofMedia others l16).codecs :=
  mediaSubsysInit_rule
    ⟨[{ info := speexInfo 32000, prio := 128, factory := speexFactory }], by decide, by decide⟩
    (fun _ f e h => h.registerFactory f e) (fun _ h => h.disableL16) others l16

/-- The codecs that are enabled: the two Speex codecs, and others at the normal priority. -/
lemma ofMedia_enabled : ∃ rest, (ofMedia others l16).codecs.enabled = speexTable.take 2 ++ rest ∧
    ∀ d ∈ rest, d.prio = prioNormal := by
  obtain ⟨rest, htable, hrest⟩ := ofMedia_speexFirst others l16
  refine ⟨rest.filter fun d => prioDisabled < d.prio, ?_, fun d hd => ?_⟩
  · rw [CodecMgr.enabled, htable, List.filter_append]
    rfl
  · obtain ⟨hd, hpos⟩ := List.mem_filter.mp hd
    exact (hrest d hd).resolve_left (of_decide_eq_true hpos).ne'

lemma ofMedia_normalOrOff : NormalOrOff (ofMedia others l16).codecs.codecDesc := by
  obtain ⟨rest, htable, hrest⟩ := ofMedia_speexFirst others l16
  rw [htable]
  exact List.forall_mem_append.mpr ⟨by decide, fun d hd => (hrest d hd).imp_right fun h => h.ge⟩

variable {others l16}

lemma Ready.ofMedia (hup : (mediaSubsysInit others l16).1 = .PJ_SUCCESS)
    (hfree : PrefixFree (ofMedia others l16).codecs.codecDesc) :
    (PjsipStackProxy.ofMedia others l16).Ready :=
  ⟨decide_eq_true hup, ofMedia_inv others l16, hfree⟩

end OfMedia

/-- The first turn moves the second Speex codec up to a place that is passed, whether or not the
first one is configured; if it is, it is now one of those at the normal priority. -/
lemma sweep_speexTable (configured : CodecDesc → Bool) {rest : List CodecDesc}
    (hrest : ∀ d ∈ rest, d.prio = prioNormal) :
    sweep configured (speexTable.take 2 ++ rest) =
      { info := speexInfo 8000, prio := 129, factory := speexFactory } ::
        sweepN configured (rest.length + 1)
          (if configured { info := speexInfo 16000, prio := 130, factory := speexFactory } then
            { info := speexInfo 16000, prio := prioNormal, factory := speexFactory } :: rest
          else rest) := by
  have hdrop : rest.dropWhile (fun y => prioNormal < y.prio) = rest ∧
      rest.takeWhile (fun y => prioNormal < y.prio) = [] := by
    cases rest with
    | nil => simp
    | cons d ds => simp [hrest d (by simp)]
  have habove : prioNormal < 129 := by decide
  simp only [sweep, speexTable, List.take, List.cons_append, List.nil_append, List.length_cons]
  rw [sweepN]
  split_ifs
  · simp [sinkToNormal, habove, hdrop.1, hdrop.2]
  · rfl

lemma sweep_speexTable_iff {codecList : List (List Char)} {rest : List CodecDesc}
    (hrest : ∀ d ∈ rest, d.prio = prioNormal) :
    (∀ d ∈ sweep (CodecDesc.configured codecList) (speexTable.take 2 ++ rest),
        d.configured codecList) ↔
      codecList.contains (speexInfo 8000).toId ∧
        rest.IsChain fun a b => a.configured codecList ∨ b.configured codecList := by
  rw [sweep_speexTable _ hrest, List.forall_mem_cons]
  refine and_congr Iff.rfl ?_
  split_ifs with hfirst
  · rw [sweepN_configured_iff (List.forall_mem_cons.mpr ⟨rfl, hrest⟩) (by simp)]
    exact isChain_cons_of_configured hfirst
  · exact sweepN_configured_iff hrest (by omega)

/-- **Which codecs are enabled after the loop**, once the media subsystem has come up.  All that are
configured are.  Only those are, if and only if Speex with 8 kHz is configured and, of the codecs
that stood enabled behind the two Speex codecs at the head of the table, no two neighbours are both
missing in the configuration. -/
theorem only_configured_iff (codecList : List (List Char))
    (others : List (ℕ × Except ℕ (List CodecInfo))) (l16 : Option (Except ℕ (List CodecInfo)))
    (hup : (mediaSubsysInit others l16).1 = .PJ_SUCCESS)
    (hfree : PrefixFree (ofMedia others l16).codecs.codecDesc) :
    (∀ d ∈ (ofMedia others l16).codecs.codecDesc, d.configured codecList →
      ∃ e ∈ ((ofMedia others l16).chooseCodecs codecList).codecs.enabled, e.info = d.info) ∧
    ((∀ e ∈ ((ofMedia others l16).chooseCodecs codecList).codecs.enabled,
        e.configured codecList) ↔
      codecList.contains (speexInfo 8000).toId ∧
        ((ofMedia others l16).codecs.enabled.drop 2).IsChain fun a b =>
          a.configured codecList ∨ b.configured codecList) := by
  have hready := Ready.ofMedia hup hfree
  have hprio := ofMedia_normalOrOff others l16
  refine ⟨fun d hd hc => hready.configured_enabled hprio hd hc, ?_⟩
  obtain ⟨rest, henabled, hrest⟩ := ofMedia_enabled others l16
  have hoff : ∀ e ∈ ((ofMedia others l16).codecs.disabled.filter
      (CodecDesc.configured codecList)).map normal, e.configured codecList := by
    simp only [List.mem_map, List.mem_filter]
    rintro e ⟨d, ⟨-, hd⟩, rfl⟩
    exact hd
  rw [hready.chooseCodecs_enabled hprio, List.forall_mem_append, and_iff_left hoff, henabled,
    sweep_speexTable_iff hrest]
  rfl

/-- With every codec configured but one, that one being Speex with 8 kHz. -/
theorem only_configured_but_speex :
    (mediaSubsysInit usualFactories (some usualL16)).1 = .PJ_SUCCESS ∧
    ¬ ∀ e ∈ ((ofMedia usualFactories (some usualL16)).chooseCodecs
      ["speex/16000/1".toList, "speex/32000/1".toList, "GSM/8000/1".toList, "PCMU/8000/1".toList,
        "PCMA/8000/1".toList, "G722/16000/1".toList]).codecs.enabled,
      e.configured ["speex/16000/1".toList, "speex/32000/1".toList, "GSM/8000/1".toList,
        "PCMU/8000/1".toList, "PCMA/8000/1".toList, "G722/16000/1".toList] := by
  refine ⟨by decide +kernel, ?_⟩
  rw [(only_configured_iff _ _ _ (by decide +kernel) (by decide +kernel)).2]
  decide +kernel

/-- **Speex with 8 kHz cannot be switched off.**  Whatever other codecs the stack is compiled with
and whatever codecs are configured, the loop leaves it enabled: it stands second, and the first turn
moves it up to a place the loop has passed. -/
theorem speex_stays (codecList : List (List Char))
    (others : List (ℕ × Except ℕ (List CodecInfo))) (l16 : Option (Except ℕ (List CodecInfo)))
    (hfree : PrefixFree (ofMedia others l16).codecs.codecDesc) :
    ∃ d ∈ ((ofMedia others l16).chooseCodecs codecList).codecs.enabled,
      d.info = speexInfo 8000 := by
  obtain ⟨rest, henabled, -⟩ := ofMedia_enabled others l16
  by_cases hup : (mediaSubsysInit others l16).1 = .PJ_SUCCESS
  · rw [(Ready.ofMedia hup hfree).chooseCodecs_enabled (ofMedia_normalOrOff others l16), henabled]
    exact ⟨_, List.mem_append_left _ (second_mem_sweep (by decide)), rfl⟩
  · have hsame : (ofMedia others l16).chooseCodecs codecList = ofMedia others l16 := by
      simp [chooseCodecs, getNoOfCodecs, ofMedia, hup]
    rw [hsame, henabled]
    exact ⟨_, List.mem_cons_of_mem _ (List.mem_cons_self ..), rfl⟩

/-- With the codecs the stack is usually compiled with and the two that the program is configured
with. -/
theorem speex_stays_usually :
    PrefixFree (ofMedia usualFactories (some usualL16)).codecs.codecDesc ∧
    ∃ d ∈ ((ofMedia usualFactories (some usualL16)).chooseCodecs
      ["PCMU/8000/1".toList, "PCMA/8000/1".toList]).codecs.enabled, d.info = speexInfo 8000 :=
  ⟨by decide +kernel, speex_stays _ _ _ (by decide +kernel)⟩

end PjsipStackProxy

end TAM
