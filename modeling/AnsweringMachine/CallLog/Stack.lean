import Mathlib.Data.Int.Basic
import AnsweringMachine.CallControl.Machine
import AnsweringMachine.Library.Recency
import AnsweringMachine.Library.Runs

/-!
# The call log

`Calllog` keeps its records in a `Stack<CCallRecord>`, here a list with the top of the stack in
front, which is the order in which the stack is enumerated and copied to an array.  Deleting a
record copies the stack, reverses the copy and pushes what is to stay back; adding a call looks for
a record of the same number and type, deletes it, and pushes the new record with a count one higher.

`deleteRecord_eq` and `findRecord_eq` say what the passes over the stack come to, and
`perform_records` reads each operation as a change of a recency list, whose keys are the pairs of
number and type.  The count is a 32 bit integer that wraps around, so it is the number of earlier
calls as such an integer.

The listings of the log, `getList` and `getListOf`, push what they enumerate onto another stack, and
so turn it round (`getListOf_eq`); `keepsOrder_iff` says when that does not show.
-/

namespace TAM

/-- An entry of the call log, with the values of a new object as defaults. -/
@[ext] structure CCallRecord where
  type : ECallType := .EDialed
  name : String := ""
  number : String := ""
  time : DateTime := 0
  duration : TimeSpan := 0
  count : Int32 := 0
  deriving DecidableEq

namespace CCallRecord

/-- What tells two records of the log apart. -/
def key (r : CCallRecord) : String × ECallType := (r.number, r.type)

/-- What a record keeps of the call it was made for. -/
def call (r : CCallRecord) : String × DateTime × TimeSpan := (r.name, r.time, r.duration)

/-- The record of the latest call under a key, with the number of earlier ones. -/
def entry (k : String × ECallType) (c : String × DateTime × TimeSpan) (earlier : ℕ) :
    CCallRecord where
  type := k.2
  name := c.1
  number := k.1
  time := c.2.1
  duration := c.2.2
  count := Int32.ofNat earlier

@[simp] lemma key_entry (k : String × ECallType) (c : String × DateTime × TimeSpan) (n : ℕ) :
    (entry k c n).key = k := rfl

/-- The test by which the log looks for records. -/
lemma key_eq_iff {r : CCallRecord} {number : String} {type : ECallType} :
    r.key = (number, type) ↔ r.number = number ∧ r.type = type := by
  simp [key]

end CCallRecord

namespace Calllog

/-! ## The operations of the source -/

/-- `findRecord`: the first record of that number and type, from the top. -/
def findRecord (callList : List CCallRecord) (number : String) (type : ECallType) :
    Option CCallRecord :=
  callList.find? fun item => item.number = number ∧ item.type = type

/-- `deleteRecord`: the copied and reversed stack is pushed back, but for the matches. -/
def deleteRecord (callList : List CCallRecord) (number : String) (type : ECallType) :
    List CCallRecord :=
  callList.reverse.foldl
    (fun stack item => if item.number = number ∧ item.type = type then stack else item :: stack) []

/-- `addRecord`: push, or replace the record of the same number and type and count one more. -/
def addRecord (callList : List CCallRecord) (record : CCallRecord) : List CCallRecord :=
  match findRecord callList record.number record.type with
  | none => record :: callList
  | some calllogItem =>
      if record.type ≠ calllogItem.type then
        record :: callList
      else
        { record with count := calllogItem.count + 1 } ::
          deleteRecord callList record.number record.type

/-- `addCall`: a new record with the data of the call. -/
def addCall (callList : List CCallRecord) (type : ECallType) (number name : String)
    (time : DateTime) (duration : TimeSpan) : List CCallRecord :=
  addRecord callList { name, number, duration, type, time }

/-- `clearAll`; that it also saves the empty log does not show in the stack. -/
def clearAll (_ : List CCallRecord) : List CCallRecord := []

/-- `getList` without a type hands out the stack itself. -/
def getList (callList : List CCallRecord) : List CCallRecord := callList

/-- `getList` with a type: while the stack is enumerated, what is of the type is pushed on a new
one. -/
def getListOf (callList : List CCallRecord) (type : ECallType) : List CCallRecord :=
  callList.foldl
    (fun tempList item => if item.type = type ∨ type = .EAll then item :: tempList else tempList) []

/-- What is asked of the log. -/
inductive Operation
  | addCall (type : ECallType) (number name : String) (time : DateTime) (duration : TimeSpan)
  | deleteRecord (number : String) (type : ECallType)
  | clearAll

/-- One operation on the stack. -/
def perform (callList : List CCallRecord) : Operation → List CCallRecord
  | .addCall type number name time duration => addCall callList type number name time duration
  | .deleteRecord number type => deleteRecord callList number type
  | .clearAll => clearAll callList

/-! ## What the passes over the stack come to -/

/-- Pushing the reversed copy back keeps the order of what stays. -/
lemma deleteRecord_eq (callList : List CCallRecord) (number : String) (type : ECallType) :
    deleteRecord callList number type = callList.filter fun r => r.key ≠ (number, type) := by
  induction callList with
  | nil => rfl
  | cons r callList ih =>
      simp only [deleteRecord] at ih
      simp only [deleteRecord, List.reverse_cons, List.foldl_append, ih, List.foldl_cons,
        List.foldl_nil]
      by_cases h : r.number = number ∧ r.type = type
      · rw [if_pos h, List.filter_cons_of_neg (by simpa using CCallRecord.key_eq_iff.mpr h)]
      · have hkey : r.key ≠ (number, type) := fun hk => h (CCallRecord.key_eq_iff.mp hk)
        rw [if_neg h, List.filter_cons_of_pos (by simpa using hkey)]

lemma findRecord_eq (callList : List CCallRecord) (number : String) (type : ECallType) :
    findRecord callList number type = callList.find? fun r => r.key = (number, type) := by
  simp only [findRecord, CCallRecord.key_eq_iff]

/-- A record that is found has the type it was looked for by, so the second test never decides. -/
lemma type_of_findRecord {callList : List CCallRecord} {number : String} {type : ECallType}
    {r : CCallRecord} (h : findRecord callList number type = some r) : r.type = type := by
  have hr := List.find?_some h
  simp only [decide_eq_true_eq] at hr
  exact hr.2

/-! ## The log as a recency list -/

open Recency

/-- The calls and deletions of the past, latest first. -/
abbrev Past := List (Change (String × ECallType) (String × DateTime × TimeSpan))

/-- The log is the digest of the past. -/
abbrev Records (past : Past) (callList : List CCallRecord) : Prop :=
  Reflects CCallRecord.key CCallRecord.entry past callList

/-- The change an operation stands for. -/
def Operation.change :
    Operation → Change (String × ECallType) (String × DateTime × TimeSpan)
  | .addCall type number name time duration => .add (number, type) (name, time, duration)
  | .deleteRecord number type => .drop (number, type)
  | .clearAll => .clear

/-- One more earlier call, as the log counts. -/
lemma entry_succ (k : String × ECallType) (c c' : String × DateTime × TimeSpan) (n : ℕ) :
    { CCallRecord.entry k c 0 with count := (CCallRecord.entry k c' n).count + 1 } =
      CCallRecord.entry k c (n + 1) := by
  simp [CCallRecord.entry, Int32.ofNat_add]

/-- Adding a call is an addition under its number and type. -/
lemma addCall_records {past : Past} {callList : List CCallRecord} (h : Records past callList)
    (type : ECallType) (number name : String) (time : DateTime) (duration : TimeSpan) :
    Records (.add (number, type) (name, time, duration) :: past)
      (addCall callList type number name time duration) := by
  have hadd := h.add CCallRecord.key_entry (number, type) (name, time, duration)
  rcases hs : since (number, type) past with _ | ⟨c, earlier⟩
  · have hfind := h.find?_eq_none hs
    rw [← findRecord_eq] at hfind
    rw [hs, h.filter_eq_self hs] at hadd
    simp only [addCall, addRecord, hfind]
    exact hadd
  · have hfind := h.find?_eq_some CCallRecord.key_entry hs
    rw [← findRecord_eq] at hfind
    have htype := type_of_findRecord hfind
    rw [hs, List.length_cons, ← entry_succ _ _ c] at hadd
    simp only [addCall, addRecord, hfind, htype, ne_eq, not_true_eq_false, if_false,
      deleteRecord_eq]
    exact hadd

/-- Every operation is the change it stands for. -/
lemma perform_records {past : Past} {callList : List CCallRecord} (h : Records past callList)
    (op : Operation) : Records (op.change :: past) (perform callList op) := by
  cases op with
  | addCall type number name time duration =>
      exact addCall_records h type number name time duration
  | deleteRecord number type =>
      simp only [perform, deleteRecord_eq]
      exact h.drop (number, type)
  | clearAll => exact reflects_clear

/-- A whole run of operations, the latest of which comes first in the history. -/
theorem run_records {past : Past} {callList : List CCallRecord} (h : Records past callList)
    (ops : List Operation) :
    Records ((ops.map Operation.change).reverse ++ past) (Runs.run perform callList ops) := by
  induction ops generalizing past callList with
  | nil => exact h
  | cons op ops ih =>
      have hrest := ih (perform_records h op)
      rw [List.map_cons, List.reverse_cons, List.append_assoc]
      exact hrest

/-! ## Listing the log -/

/-- The records of a type, in the order of the log. -/
def ofType (type : ECallType) (callList : List CCallRecord) : List CCallRecord :=
  callList.filter fun r => r.type = type ∨ type = .EAll

/-- The pass that lists the log, on a stack that holds something already. -/
lemma foldl_push (type : ECallType) (callList tempList : List CCallRecord) :
    callList.foldl (fun tempList item =>
        if item.type = type ∨ type = .EAll then item :: tempList else tempList) tempList =
      (ofType type callList).reverse ++ tempList := by
  induction callList generalizing tempList with
  | nil => rfl
  | cons r callList ih =>
      rw [List.foldl_cons, ih]
      by_cases h : r.type = type ∨ type = .EAll
      · rw [if_pos h, ofType, ofType, List.filter_cons_of_pos (by simpa using h)]
        simp
      · rw [if_neg h, ofType, ofType, List.filter_cons_of_neg (by simpa using h)]

/-- **Pushing while enumerating turns the log upside down.** -/
lemma getListOf_eq (callList : List CCallRecord) (type : ECallType) :
    getListOf callList type = (ofType type callList).reverse := by
  rw [getListOf, foldl_push, List.append_nil]

/-- The list of a type has the records of that type, in the order of the log.  For all types this is
the log, with the latest call on top. -/
structure KeepsOrder (callList : List CCallRecord) (type : ECallType) : Prop where
  order : getListOf callList type = ofType type (getList callList)
  all : type = .EAll → getListOf callList type = getList callList ∧
    (getListOf callList type).head? = (getList callList).head?

/-- The order is kept if and only if the records of the type read the same from either end. -/
lemma keepsOrder_iff (callList : List CCallRecord) (type : ECallType) :
    KeepsOrder callList type ↔ (ofType type callList).reverse = ofType type callList := by
  constructor
  · intro h
    rw [← getListOf_eq]
    exact h.order
  · intro h
    have horder : getListOf callList type = ofType type callList := (getListOf_eq _ _).trans h
    refine ⟨horder, ?_⟩
    rintro rfl
    have hall : ofType .EAll callList = callList := List.filter_eq_self.mpr fun _ _ => by simp
    rw [horder, hall]
    exact ⟨rfl, rfl⟩

/-- A list in strict order reads the same from either end only if it is at most one element. -/
lemma reverse_eq_self_iff_of_pairwise {α : Type*} {R : α → α → Prop}
    (hR : ∀ a b, R a b → ¬ R b a) {l : List α} (h : l.Pairwise R) :
    l.reverse = l ↔ l.length ≤ 1 := by
  rcases l with _ | ⟨a, _ | ⟨b, l⟩⟩
  · simp
  · simp
  · refine iff_of_false (fun hrev => ?_) (by simp)
    have hback : (a :: b :: l).Pairwise fun x y => R y x := by
      rw [← List.pairwise_reverse, hrev]
      exact h
    simp only [List.pairwise_cons, List.mem_cons, forall_eq_or_imp] at h hback
    exact hR a b h.1.1 hback.1.1

/-- A log that is the digest of some past has the latest call first, so that the order is kept if
and only if at most one record is of the type. -/
lemma Records.keepsOrder_iff {past : Past} {callList : List CCallRecord} (h : Records past callList)
    (type : ECallType) : KeepsOrder callList type ↔ (ofType type callList).length ≤ 1 := by
  have hlatest := h.latest_first.sublist
    (List.filter_sublist (p := fun r => r.type = type ∨ type = .EAll))
  rw [Calllog.keepsOrder_iff]
  exact reverse_eq_self_iff_of_pairwise (fun _ _ h => Nat.lt_asymm h) hlatest

end Calllog

end TAM
