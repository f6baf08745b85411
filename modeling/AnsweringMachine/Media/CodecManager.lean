import AnsweringMachine.Library.Runs
import AnsweringMachine.Library.SelectionSort
import Mathlib.Data.Nat.Digits.Defs

/-!
# The codec manager of the media stack

The manager keeps a table of codecs.  Codec factories add their codecs to it and take them away
again, and the priority of codecs can be changed, of all those at once whose identifier begins with
a given text.  The order of the table is the order in which codecs are offered, so it is sorted by
priority after each change; codecs with priority `PJMEDIA_CODEC_PRIO_HIGHEST` are then set back one
below it, which makes room for a codec that is to come before them.

`CodecMgr.Inv` is what all operations keep.  The sort is the one of `SelectionSort`, and it is not
stable: a codec whose priority is raised changes places with another one.
-/

namespace TAM

open SelectionSort

/-- What a factory says about a codec (`pjmedia_codec_info`). -/
structure CodecInfo where
  encodingName : List Char
  clockRate : ℕ
  channelCnt : ℕ
  deriving DecidableEq, Repr

/-- The size of `pjmedia_codec_id`, with the terminating zero. -/
def codecIdSize : ℕ := 32

/-- `pjmedia_codec_info_to_id`.  An identifier that does not fit is left empty. -/
def CodecInfo.toId (info : CodecInfo) : List Char :=
  let id := info.encodingName ++ '/' :: Nat.toDigits 10 info.clockRate ++
    '/' :: Nat.toDigits 10 info.channelCnt
  if id.length < codecIdSize then id else []

/-- An entry of the table (`pjmedia_codec_desc`).  Its `id` is that of its `info`. -/
structure CodecDesc where
  info : CodecInfo
  prio : ℕ
  factory : ℕ
  deriving DecidableEq, Repr

/-- The fully qualified name. -/
def CodecDesc.id (d : CodecDesc) : List Char := d.info.toId

/-- `PJMEDIA_CODEC_PRIO_HIGHEST`. -/
def prioHighest : ℕ := 255

/-- `PJMEDIA_CODEC_PRIO_NEXT_HIGHER`. -/
def prioNextHigher : ℕ := 254

/-- `PJMEDIA_CODEC_PRIO_NORMAL`. -/
def prioNormal : ℕ := 128

/-- `PJMEDIA_CODEC_PRIO_DISABLED`. -/
def prioDisabled : ℕ := 0

/-- `PJMEDIA_CODEC_MGR_MAX_CODECS`. -/
def maxCodecs : ℕ := 32

/-- What the operations of the media stack return. -/
inductive PjStatus
  | PJ_SUCCESS
  | PJ_EINVAL
  | PJ_ETOOMANY
  | PJ_ENOTFOUND
  | PJMEDIA_ENCCHANNEL
  /-- An error of the factory or of the system. -/
  | error (code : ℕ)
  deriving DecidableEq, Repr

/-- The codec manager. -/
structure CodecMgr where
  factoryList : List ℕ := []
  codecDesc : List CodecDesc := []
  deriving DecidableEq, Repr

/-- Is the text the beginning of the identifier, in any case?  (`pj_strnicmp2` with the length of
the text.) -/
def beginsWith (codecId id : List Char) : Bool :=
  (codecId.map Char.toLower).isPrefixOf (id.map Char.toLower)

/-- The second loop of `sort_codecs`. -/
def lowerHighest : List CodecDesc → List CodecDesc
  | [] => []
  | d :: ds =>
      if d.prio = prioHighest then { d with prio := prioNextHigher } :: lowerHighest ds
      else d :: ds

/-- `sort_codecs`. -/
def sortCodecs (l : List CodecDesc) : List CodecDesc := lowerHighest (sort CodecDesc.prio l)

namespace CodecMgr

/-- `pjmedia_codec_mgr_register_factory`, with what `enum_info` of the factory returns. -/
def registerFactory (m : CodecMgr) (factory : ℕ) (enumInfo : Except ℕ (List CodecInfo)) :
    PjStatus × CodecMgr :=
  match enumInfo with
  | .error code => (.error code, m)
  | .ok info =>
      let info := info.take maxCodecs
      if maxCodecs < info.length + m.codecDesc.length then (.PJ_ETOOMANY, m)
      else
        let added := info.map fun i => { info := i, prio := prioNormal, factory }
        (.PJ_SUCCESS,
          { factoryList := m.factoryList ++ [factory]
            codecDesc := sortCodecs (m.codecDesc ++ added) })

/-- `pjmedia_codec_mgr_unregister_factory`. -/
def unregisterFactory (m : CodecMgr) (factory : ℕ) : PjStatus × CodecMgr :=
  if factory ∈ m.factoryList then
    (.PJ_SUCCESS,
      { factoryList := m.factoryList.erase factory
        codecDesc := m.codecDesc.filter fun d => d.factory ≠ factory })
  else (.PJ_ENOTFOUND, m)

/-- `pjmedia_codec_mgr_enum_codecs`. -/
def enumCodecs (m : CodecMgr) (count : ℕ) : List CodecDesc := m.codecDesc.take count

/-- `pjmedia_codec_mgr_set_codec_priority`.  The empty text is the beginning of every identifier. -/
def setCodecPriority (m : CodecMgr) (codecId : List Char) (prio : UInt8) : PjStatus × CodecMgr :=
  if m.codecDesc.any fun d => beginsWith codecId d.id then
    (.PJ_SUCCESS,
      { m with
        codecDesc := sortCodecs <| m.codecDesc.map fun d =>
          if beginsWith codecId d.id then { d with prio := prio.toNat } else d })
  else (.PJ_ENOTFOUND, m)

end CodecMgr

/-! ## The order of the table -/

/-- The second loop changes priorities and nothing else. -/
lemma map_info_lowerHighest (l : List CodecDesc) :
    (lowerHighest l).map (fun d => (d.info, d.factory)) = l.map fun d => (d.info, d.factory) := by
  induction l with
  | nil => rfl
  | cons d ds ih =>
      simp only [lowerHighest]
      split_ifs <;> simp [ih]

lemma mem_lowerHighest {d : CodecDesc} {l : List CodecDesc} (h : d ∈ lowerHighest l) :
    d ∈ l ∨ d.prio = prioNextHigher ∧ { d with prio := prioHighest } ∈ l := by
  induction l with
  | nil => simp [lowerHighest] at h
  | cons c cs ih =>
      simp only [lowerHighest] at h
      split_ifs at h with hc
      · rcases List.mem_cons.mp h with rfl | h
        · refine .inr ⟨rfl, List.mem_cons.mpr (.inl ?_)⟩
          simp [← hc]
        · exact (ih h).imp (List.mem_cons_of_mem c) fun h => ⟨h.1, List.mem_cons_of_mem c h.2⟩
      · exact .inl h

/-- No codec is above `PJMEDIA_CODEC_PRIO_HIGHEST`, so those that have it stand in front, the loop
meets them all, and the table is still in order. -/
lemma lowerHighest_sorted {l : List CodecDesc} (hs : Sorted CodecDesc.prio l)
    (hl : ∀ d ∈ l, d.prio ≤ prioHighest) :
    Sorted CodecDesc.prio (lowerHighest l) ∧ ∀ d ∈ lowerHighest l, d.prio ≤ prioNextHigher := by
  induction l with
  | nil => exact ⟨.nil, by simp [lowerHighest]⟩
  | cons c cs ih =>
      obtain ⟨hc, hcs⟩ := List.pairwise_cons.mp hs
      rw [List.forall_mem_cons] at hl
      simp only [lowerHighest]
      split_ifs with htop
      · obtain ⟨hsorted, hle⟩ := ih hcs hl.2
        exact ⟨List.pairwise_cons.mpr ⟨hle, hsorted⟩, by simpa using hle⟩
      · have hlt : c.prio ≤ prioNextHigher := by
          have := hl.1
          simp only [prioHighest, prioNextHigher] at htop this ⊢
          omega
        exact ⟨hs, List.forall_mem_cons.mpr ⟨hlt, fun d hd => (hc d hd).trans hlt⟩⟩

lemma lowerHighest_of_lt {l : List CodecDesc} (h : ∀ d ∈ l, d.prio < prioHighest) :
    lowerHighest l = l := by
  cases l with
  | nil => rfl
  | cons d ds => exact if_neg (h d (by simp)).ne

@[simp] lemma length_sortCodecs (l : List CodecDesc) : (sortCodecs l).length = l.length := by
  have := congrArg List.length (map_info_lowerHighest (sort CodecDesc.prio l))
  simpa [sortCodecs] using this

/-- What the table says about a codec apart from its priority is kept. -/
lemma map_info_sortCodecs_perm (l : List CodecDesc) :
    ((sortCodecs l).map fun d => (d.info, d.factory)).Perm
      (l.map fun d => (d.info, d.factory)) := by
  rw [sortCodecs, map_info_lowerHighest]
  exact (sort_perm l).map _

/-! ## What every operation keeps -/

/-- A table that is in order, has no codec at `PJMEDIA_CODEC_PRIO_HIGHEST`, fits its array, and
holds codecs of registered factories only. -/
structure CodecMgr.Inv (m : CodecMgr) : Prop where
  sorted : Sorted CodecDesc.prio m.codecDesc
  prio_lt : ∀ d ∈ m.codecDesc, d.prio < prioHighest
  length_le : m.codecDesc.length ≤ maxCodecs
  factory_mem : ∀ d ∈ m.codecDesc, d.factory ∈ m.factoryList

/-- The operations. -/
inductive CodecOp
  | registerFactory (factory : ℕ) (enumInfo : Except ℕ (List CodecInfo))
  | unregisterFactory (factory : ℕ)
  | setCodecPriority (codecId : List Char) (prio : UInt8)

/-- One operation. -/
def CodecMgr.step (m : CodecMgr) : CodecOp → CodecMgr
  | .registerFactory factory enumInfo => (m.registerFactory factory enumInfo).2
  | .unregisterFactory factory => (m.unregisterFactory factory).2
  | .setCodecPriority codecId prio => (m.setCodecPriority codecId prio).2

namespace CodecMgr.Inv

variable {m : CodecMgr}

lemma init : Inv {} := ⟨.nil, by simp, by simp, by simp⟩

/-- A table that was just sorted. -/
lemma of_sortCodecs {factories : List ℕ} {l : List CodecDesc} (hl : ∀ d ∈ l, d.prio ≤ prioHighest)
    (hlength : l.length ≤ maxCodecs) (hfactory : ∀ d ∈ l, d.factory ∈ factories) :
    Inv { factoryList := factories, codecDesc := sortCodecs l } := by
  obtain ⟨hsorted, hle⟩ := lowerHighest_sorted (sort_sorted l) fun d hd => hl d (mem_sort.mp hd)
  refine ⟨hsorted, fun d hd => ?_, by simpa using hlength, fun d hd => ?_⟩
  · exact (hle d hd).trans_lt (by decide)
  · rcases mem_lowerHighest hd with hd | ⟨-, hd⟩
    · exact hfactory d (mem_sort.mp hd)
    · exact hfactory { d with prio := prioHighest } (mem_sort.mp hd)

lemma registerFactory (h : m.Inv) (factory : ℕ) (enumInfo : Except ℕ (List CodecInfo)) :
    (m.registerFactory factory enumInfo).2.Inv := by
  cases enumInfo with
  | error code => exact h
  | ok info =>
      simp only [CodecMgr.registerFactory]
      split_ifs with hmany
      · exact h
      · refine of_sortCodecs ?_ ?_ ?_
        · simp only [List.mem_append, List.mem_map]
          rintro d (hd | ⟨i, -, rfl⟩)
          · exact (h.prio_lt d hd).le
          · exact (by decide : prioNormal ≤ prioHighest)
        · rw [List.length_append, List.length_map]
          omega
        · simp only [List.mem_append, List.mem_map]
          rintro d (hd | ⟨i, -, rfl⟩)
          · exact .inl (h.factory_mem d hd)
          · exact .inr (by simp)

lemma unregisterFactory (h : m.Inv) (factory : ℕ) : (m.unregisterFactory factory).2.Inv := by
  simp only [CodecMgr.unregisterFactory]
  split_ifs with hmem
  · refine ⟨h.sorted.filter _, fun d hd => h.prio_lt d (List.mem_filter.mp hd).1,
      (List.length_filter_le _ _).trans h.length_le, fun d hd => ?_⟩
    obtain ⟨hd, hne⟩ := List.mem_filter.mp hd
    exact (List.mem_erase_of_ne (by simpa using hne)).mpr (h.factory_mem d hd)
  · exact h

lemma setCodecPriority (h : m.Inv) (codecId : List Char) (prio : UInt8) :
    (m.setCodecPriority codecId prio).2.Inv := by
  simp only [CodecMgr.setCodecPriority]
  split_ifs with hany
  · refine of_sortCodecs ?_ (by simpa using h.length_le) ?_
    · simp only [List.mem_map]
      rintro d ⟨c, hc, rfl⟩
      split_ifs
      · exact Nat.le_of_lt_succ prio.toNat_lt
      · exact (h.prio_lt c hc).le
    · simp only [List.mem_map]
      rintro d ⟨c, hc, rfl⟩
      split_ifs <;> exact h.factory_mem c hc
  · exact h

lemma step (h : m.Inv) (op : CodecOp) : (m.step op).Inv := by
  cases op with
  | registerFactory factory enumInfo => exact h.registerFactory factory enumInfo
  | unregisterFactory factory => exact h.unregisterFactory factory
  | setCodecPriority codecId prio => exact h.setCodecPriority codecId prio

lemma run (ops : List CodecOp) : (Runs.run CodecMgr.step {} ops).Inv :=
  Runs.run_of_step (J := CodecMgr.Inv) (fun _ op h => h.step op) init ops

end CodecMgr.Inv

/-! ## The codec that was asked for last -/

/-- The second loop stops at the first codec that is not at `PJMEDIA_CODEC_PRIO_HIGHEST`. -/
lemma lowerHighest_append {top rest : List CodecDesc} (htop : ∀ d ∈ top, d.prio = prioHighest)
    (hrest : ∀ d ∈ rest, d.prio < prioHighest) :
    lowerHighest (top ++ rest) = top.map (fun d => { d with prio := prioNextHigher }) ++ rest := by
  induction top with
  | nil => exact lowerHighest_of_lt hrest
  | cons d ds ih =>
      rw [List.forall_mem_cons] at htop
      simp [lowerHighest, htop.1, ih htop.2]

/-- A table in order is cut at any priority. -/
lemma sorted_eq_append {l : List CodecDesc} (hs : Sorted CodecDesc.prio l) (p : ℕ) :
    l = l.filter (fun d => p ≤ d.prio) ++ l.filter fun d => d.prio < p := by
  induction l with
  | nil => rfl
  | cons d ds ih =>
      obtain ⟨hd, hds⟩ := List.pairwise_cons.mp hs
      rcases le_or_gt p d.prio with hp | hp
      · simp only [List.filter_cons, hp, decide_true, if_true, not_lt.mpr hp, decide_false,
          Bool.false_eq_true, if_false, List.cons_append, ← ih hds]
      · -- everything behind it is below too
        have hnone : ds.filter (fun c => p ≤ c.prio) = [] :=
          List.filter_eq_nil_iff.mpr fun c hc => by simpa using (hd c hc).trans_lt hp
        have hall : ds.filter (fun c => c.prio < p) = ds :=
          List.filter_eq_self.mpr fun c hc => by simpa using (hd c hc).trans_lt hp
        simp [hp, not_le.mpr hp, hnone, hall]

/-- `sort_codecs` puts the codecs at `PJMEDIA_CODEC_PRIO_HIGHEST` in front of the others. -/
lemma sortCodecs_eq_append {l : List CodecDesc} (hl : ∀ d ∈ l, d.prio ≤ prioHighest) :
    sortCodecs l =
      ((sort CodecDesc.prio l).filter fun d => prioHighest ≤ d.prio).map
        (fun d => { d with prio := prioNextHigher }) ++
      (sort CodecDesc.prio l).filter fun d => d.prio < prioHighest := by
  refine (congrArg lowerHighest (sorted_eq_append (sort_sorted l) prioHighest)).trans
    (lowerHighest_append (fun d hd => ?_) fun d hd => ?_)
  · obtain ⟨hd, hle⟩ := List.mem_filter.mp hd
    exact le_antisymm (hl d (mem_sort.mp hd)) (by simpa using hle)
  · simpa using (List.mem_filter.mp hd).2

/-- **The codec that was put highest last comes first.**  Whatever was registered, taken away and
ranked before, a table in which codecs are put at `PJMEDIA_CODEC_PRIO_HIGHEST` begins with them, in
front of all that were put there earlier; and it is in order, fits its array and leaves no codec at
that priority. -/
theorem CodecMgr.last_highest_first (ops : List CodecOp) (codecId : List Char) :
    ∃ front rest, (Runs.run CodecMgr.step {} (ops ++ [.setCodecPriority codecId 255])).codecDesc =
        front ++ rest ∧ (∀ d ∈ front, beginsWith codecId d.id) ∧
      (∀ d ∈ rest, ¬ beginsWith codecId d.id) ∧ Sorted CodecDesc.prio (front ++ rest) ∧
      (front ++ rest).length ≤ maxCodecs ∧ ∀ d ∈ front ++ rest, d.prio < prioHighest := by
  have hinv := CodecMgr.Inv.run ops
  have hinv' := CodecMgr.Inv.run (ops ++ [.setCodecPriority codecId 255])
  set m := Runs.run CodecMgr.step {} ops with hm
  rw [Runs.run_append, ← hm] at hinv' ⊢
  simp only [Runs.run, CodecMgr.step, CodecMgr.setCodecPriority] at hinv' ⊢
  split_ifs at hinv' ⊢ with hany
  · set ranked := m.codecDesc.map fun d =>
      if beginsWith codecId d.id then { d with prio := (255 : UInt8).toNat } else d with hranked
    have htop : ∀ d ∈ ranked, d.prio ≤ prioHighest ∧
        (beginsWith codecId d.id ↔ prioHighest ≤ d.prio) := by
      simp only [hranked, List.mem_map]
      rintro d ⟨c, hc, rfl⟩
      have hlt := hinv.prio_lt c hc
      split_ifs with h
      · exact ⟨le_rfl, iff_of_true h le_rfl⟩
      · exact ⟨hlt.le, iff_of_false h (not_le.mpr hlt)⟩
    have happend := sortCodecs_eq_append fun d hd => (htop d hd).1
    refine ⟨_, _, happend, ?_, ?_, happend ▸ hinv'.sorted, happend ▸ hinv'.length_le,
      happend ▸ hinv'.prio_lt⟩
    · simp only [List.mem_map, List.mem_filter, mem_sort]
      rintro d ⟨c, ⟨hc, hle⟩, rfl⟩
      exact (htop c hc).2.mpr (by simpa using hle)
    · simp only [List.mem_filter, mem_sort]
      rintro d ⟨hd, hlt⟩ hbegins
      exact absurd ((htop d hd).2.mp hbegins) (by simpa using hlt)
  · refine ⟨[], m.codecDesc, rfl, by simp, ?_, hinv.sorted, hinv.length_le, hinv.prio_lt⟩
    simpa using hany

end TAM
