import AnsweringMachine.CallLog.Stack
import AnsweringMachine.Library.Xml

/-!
# Saving and loading the call log

`save` writes the stack, bottom first, as one `Record` element per record with six texts; `load`
selects the `Record` elements of a file and pushes what it reads from them.  The texts of clock
readings, time spans and integers are those of the runtime's culture, and what is assumed of them is
part of `Culture`: they are not blank, they parse again, and a clock reading keeps its whole
seconds.

The two passes treat a missing text differently from field to field.  Without a name the record is
read with the empty name; without a number it is passed over.  Since blank text is not found again
in the file, `load_saved` says what comes back: the records whose number is not blank, their names
empty if they were blank.  So the file gives the log back precisely if no number is blank and no
name is blank but not empty (`load_saved_iff`), which an anonymous caller breaks.

A log that is `Opened` is what a session starts with.  `stack_lists_distinct_callers` and
`getList_keepsOrder_iff` are about the logs of all sessions.
-/

namespace TAM

open XmlNode

/-! ## Texts of the runtime -/

/-- What the parsers of the runtime throw.  The last one stands for a number that names no value of
an enumeration: the source would keep the number, which `ECallType` has no value for. -/
inductive ParseException
  | FormatException
  | OverflowException
  | UnnamedValue
  deriving DecidableEq

/-- A clock reading to whole seconds. -/
def wholeSecond (t : DateTime) : DateTime := t - t % ticksPerSecond

lemma ediv_mul_ticksPerSecond (t : ℤ) : t / ticksPerSecond * ticksPerSecond = wholeSecond t := by
  show t / 10000000 * 10000000 = t - t % 10000000
  omega

/-- Texts of clock readings, time spans and integers under one culture. -/
structure Culture where
  timeText : DateTime → String
  parseTime : String → Except ParseException DateTime
  durationText : TimeSpan → String
  parseDuration : String → Except ParseException TimeSpan
  intText : Int32 → String
  parseInt : String → Except ParseException Int32
  parseTime_timeText : ∀ t, parseTime (timeText t) = .ok (wholeSecond t)
  parseDuration_durationText : ∀ d, parseDuration (durationText d) = .ok d
  parseInt_intText : ∀ n, parseInt (intText n) = .ok n
  timeText_not_blank : ∀ t, isBlank (timeText t) = false
  durationText_not_blank : ∀ d, isBlank (durationText d) = false
  intText_not_blank : ∀ n, isBlank (intText n) = false

lemma not_isBlank_of_mem {value : String} {c : Char} (hc : c ∈ value.toList)
    (h : isSpace c = false) : isBlank value = false := by
  rw [isBlank, List.all_eq_false]
  exact ⟨c, hc, by simp [h]⟩

/-- A number as a sign and strokes. -/
def tally (n : ℤ) : String :=
  String.ofList ((if n < 0 then '-' else '+') :: List.replicate n.natAbs '|')

/-- The number a sign and strokes stand for. -/
def readTally (value : String) : Except ParseException ℤ :=
  match value.toList with
  | [] => .error .FormatException
  | sign :: strokes => .ok (if sign = '-' then -strokes.length else strokes.length)

lemma readTally_tally (n : ℤ) : readTally (tally n) = .ok n := by
  simp only [readTally, tally, String.toList_ofList]
  by_cases h : n < 0
  · simp only [h, if_true, List.length_replicate, Except.ok.injEq]
    omega
  · have hplus : '+' ≠ '-' := by decide
    simp only [h, if_false, if_neg hplus, List.length_replicate, Except.ok.injEq]
    omega

lemma tally_not_blank (n : ℤ) : isBlank (tally n) = false := by
  by_cases h : n < 0
  · exact not_isBlank_of_mem (c := '-') (by simp [tally, h]) (by decide)
  · exact not_isBlank_of_mem (c := '+') (by simp [tally, h]) (by decide)

/-- Every number written in strokes, clock readings in seconds. -/
def tallyCulture : Culture where
  timeText t := tally (t / ticksPerSecond)
  parseTime value := (· * ticksPerSecond) <$> readTally value
  durationText := tally
  parseDuration := readTally
  intText n := tally n.toInt
  parseInt value := Int32.ofInt <$> readTally value
  parseTime_timeText t := by
    rw [readTally_tally]
    exact congrArg Except.ok (ediv_mul_ticksPerSecond t)
  parseDuration_durationText := readTally_tally
  parseInt_intText n := by
    rw [readTally_tally]
    exact congrArg Except.ok (Int32.ofInt_toInt n)
  timeText_not_blank t := tally_not_blank _
  durationText_not_blank := tally_not_blank
  intText_not_blank n := tally_not_blank _

/-- The number of a call type. -/
def ECallType.code : ECallType → Int32
  | EDialed => 0
  | EReceived => 1
  | EMissed => 2
  | EAll => 3
  | EUndefined => 4

/-- The cast of a number to a call type. -/
def ECallType.ofCode (n : Int32) : Except ParseException ECallType :=
  if n = 0 then .ok EDialed
  else if n = 1 then .ok EReceived
  else if n = 2 then .ok EMissed
  else if n = 3 then .ok EAll
  else if n = 4 then .ok EUndefined
  else .error .UnnamedValue

lemma ECallType.ofCode_code (t : ECallType) : ECallType.ofCode t.code = .ok t := by
  cases t <;> rfl

namespace Calllog

/-! ## The passes of the source -/

abbrev NAME := "Name"
abbrev NUMBER := "Number"
abbrev DATETIME := "Time"
abbrev TYPE := "Type"
abbrev DURATION := "Duration"
abbrev COUNT := "Count"

variable (culture : Culture)

/-- The `Record` element of a record. -/
def recordElement (item : CCallRecord) : XmlNode :=
  createElement "Record"
    [withText NAME item.name,
     withText NUMBER item.number,
     withText DURATION (culture.durationText item.duration),
     withText DATETIME (culture.timeText item.time),
     withText COUNT (culture.intText item.count),
     withText TYPE (culture.intText item.type.code)]

/-- `save`: the document that is written, the bottom of the stack first. -/
def save (callList : List CCallRecord) : XmlNode :=
  createElement "Calllog" (callList.reverse.map (recordElement culture))

/-- What `XmlDocument.Load` meets; of a malformed file the root may have been read. -/
inductive CalllogFile
  | notFound
  | malformed (read : Option XmlNode)
  | document (root : XmlNode)

/-- The file a document was saved to. -/
def CalllogFile.saved (document : XmlNode) : CalllogFile :=
  match document.reread with
  | some root => .document root
  | none => .malformed none

/-- The root `load` goes on with: an empty log if there is no file. -/
def CalllogFile.root : CalllogFile → Option XmlNode
  | .notFound => some (createElement "Calllog" [])
  | .malformed read => read
  | .document root => some root

/-- `SelectNodes("/Calllog/Record")`. -/
def selectRecords (root : Option XmlNode) : List XmlNode :=
  match root with
  | some node => if node.isNamed "Calllog" then node.selectNodes "Record" else []
  | none => []

/-- The value of the first child of a field's element, if all three are there. -/
def fieldValue (item : XmlNode) (field : String) : Option String := do
  let snode ← item.selectSingleNode field
  let child ← snode.firstChild
  child.value?

/-- A field that is parsed if its value is there, and left at its default otherwise. -/
def parseField {α : Type} (item : XmlNode) (field : String)
    (parse : String → Except ParseException α)
    (initial : α) : Except ParseException α :=
  match fieldValue item field with
  | some value => parse value
  | none => .ok initial

/-- One turn of the loop of `load`: the record to push, if any. -/
def readRecord (item : XmlNode) : Except ParseException (Option CCallRecord) :=
  let record : CCallRecord := {}
  let name := (fieldValue item NAME).getD record.name
  match fieldValue item NUMBER with
  | none => .ok none
  | some number => do
      let time ← parseField item DATETIME culture.parseTime record.time
      let duration ← parseField item DURATION culture.parseDuration record.duration
      let count ← parseField item COUNT culture.parseInt record.count
      let type ← parseField item TYPE (culture.parseInt · >>= ECallType.ofCode) record.type
      return some { record with name, number, time, duration, count, type }

/-- `load`. -/
def load (file : CalllogFile) : Except ParseException (List CCallRecord) :=
  (selectRecords file.root).foldlM
    (fun callList item => do
      match ← readRecord culture item with
      | none => return callList
      | some record => return record :: callList) []

/-! ## What comes back -/

/-- A record as it is read again, if its number is found. -/
def reloaded (r : CCallRecord) : Option CCallRecord :=
  if isBlank r.number then none
  else some { r with
    name := if isBlank r.name then "" else r.name
    time := wholeSecond r.time }

/-- The element of a field in the file. -/
def savedField (field value : String) : XmlNode :=
  createElement field (if isBlank value then [] else [.text value])

/-- The `Record` element in the file. -/
def savedElement (item : CCallRecord) : XmlNode :=
  createElement "Record"
    [savedField NAME item.name,
     savedField NUMBER item.number,
     savedField DURATION (culture.durationText item.duration),
     savedField DATETIME (culture.timeText item.time),
     savedField COUNT (culture.intText item.count),
     savedField TYPE (culture.intText item.type.code)]

lemma reread_recordElement (item : CCallRecord) :
    (recordElement culture item).reread = some (savedElement culture item) := by
  rw [recordElement, createElement, reread_element]
  simp only [List.filterMap_cons, reread_withText, List.filterMap_nil]
  rfl

/-- A field is found if it stands in front and has text ... -/
lemma fieldValue_cons_self (field value name : String) (rest : List XmlNode) :
    fieldValue (createElement name (savedField field value :: rest)) field =
      if isBlank value then none else some value := by
  by_cases h : isBlank value <;>
    simp [fieldValue, savedField, selectSingleNode, children, isNamed, firstChild, value?, h]

/-- ... and is looked for behind another one. -/
lemma fieldValue_cons_of_ne {field other : String} (h : other ≠ field) (value name : String)
    (rest : List XmlNode) :
    fieldValue (createElement name (savedField other value :: rest)) field =
      fieldValue (createElement name rest) field := by
  simp [fieldValue, savedField, selectSingleNode, children, isNamed, h]

/-- A record in the file is read as what is left of it. -/
lemma readRecord_savedElement (item : CCallRecord) :
    readRecord culture (savedElement culture item) = .ok (reloaded item) := by
  simp (disch := decide) only [readRecord, parseField, savedElement, fieldValue_cons_self,
    fieldValue_cons_of_ne, culture.timeText_not_blank, culture.durationText_not_blank,
    culture.intText_not_blank]
  by_cases hnumber : isBlank item.number
  · simp [hnumber, reloaded]
  · by_cases hname : isBlank item.name <;>
      simp [hnumber, hname, reloaded, culture.parseTime_timeText,
        culture.parseDuration_durationText, culture.parseInt_intText, ECallType.ofCode_code,
        pure, Except.pure, bind, Except.bind]

/-- The loop of `load` pushes what is left of the records, one after the other. -/
lemma foldlM_savedElement (items stack : List CCallRecord) :
    (items.map (savedElement culture)).foldlM
      (fun callList item => do
        match ← readRecord culture item with
        | none => return callList
        | some record => return record :: callList) stack =
      .ok ((items.filterMap reloaded).reverse ++ stack) := by
  induction items generalizing stack with
  | nil => rfl
  | cons item items ih =>
      simp only [List.map_cons, List.foldlM_cons, readRecord_savedElement]
      cases h : reloaded item with
      | none =>
          rw [List.filterMap_cons_none h]
          exact ih stack
      | some record =>
          rw [List.filterMap_cons_some h, List.reverse_cons, List.append_assoc]
          exact ih (record :: stack)

/-- **What a saved log comes back as.**  The records whose number is not blank, in their order. -/
theorem load_saved (callList : List CCallRecord) :
    load culture (.saved (save culture callList)) = .ok (callList.filterMap reloaded) := by
  have hroot : (CalllogFile.saved (save culture callList)).root =
      some (createElement "Calllog" (callList.reverse.map (savedElement culture))) := by
    rw [CalllogFile.saved, save, createElement, reread_element, List.filterMap_map]
    have hrecords : reread ∘ recordElement culture = some ∘ savedElement culture :=
      funext fun item => reread_recordElement culture item
    rw [hrecords, ← List.filterMap_map, List.filterMap_some]
    rfl
  have hselect : selectRecords (CalllogFile.saved (save culture callList)).root =
      callList.reverse.map (savedElement culture) := by
    rw [hroot, selectRecords, if_pos (by simp [isNamed]), selectNodes, children]
    refine List.filter_eq_self.mpr fun node hnode => ?_
    obtain ⟨item, -, rfl⟩ := List.mem_map.mp hnode
    simp [savedElement, isNamed]
  rw [load, hselect, foldlM_savedElement, List.filterMap_reverse, List.reverse_reverse,
    List.append_nil]

/-- A record with its time to whole seconds: as much of it as the file can give back. -/
def toSecond (r : CCallRecord) : CCallRecord := { r with time := wholeSecond r.time }

/-- A record is read as it was if its number is not blank, and its name empty or not blank. -/
lemma reloaded_eq_some_iff (r : CCallRecord) :
    reloaded r = some (toSecond r) ↔
      isBlank r.number = false ∧ (isBlank r.name = true → r.name = "") := by
  rw [reloaded]
  by_cases hnumber : isBlank r.number
  · simp [hnumber]
  · by_cases hname : isBlank r.name
    · have hiff : "" = r.name ↔ r.name = "" := eq_comm
      simp [hnumber, hname, toSecond, CCallRecord.ext_iff, hiff]
    · simp [hnumber, hname, toSecond]

/-- **Saving and loading gives every record back, in its place, if and only if no number is blank
and no name is blank without being empty.** -/
theorem load_saved_iff (callList : List CCallRecord) :
    load culture (.saved (save culture callList)) = .ok (callList.map toSecond) ↔
      ∀ r ∈ callList, isBlank r.number = false ∧ (isBlank r.name = true → r.name = "") := by
  rw [load_saved, Except.ok.injEq, List.filterMap_eq_map_iff_forall_eq_some]
  exact forall₂_congr fun r _ => reloaded_eq_some_iff r

/-- The missed call of a caller without a number is not in the file's log. -/
theorem anonymous_call_lost :
    Runs.run perform [] [.addCall .EMissed "" "Anonymous" 0 0] =
        [{ type := .EMissed, name := "Anonymous", number := "" }] ∧
      load tallyCulture (.saved (save tallyCulture
        (Runs.run perform [] [.addCall .EMissed "" "Anonymous" 0 0]))) = .ok [] := by
  refine ⟨by decide, ?_⟩
  rw [load_saved]
  rfl

/-! ## A log over several sessions -/

open Recency

/-- What the file keeps of a call. -/
def reloadedCall (c : String × DateTime × TimeSpan) : String × DateTime × TimeSpan :=
  (if isBlank c.1 then "" else c.1, wholeSecond c.2.1, c.2.2)

/-- What the file keeps of the past: the calls whose number is not blank. -/
def reloadedPast (past : Past) : Past :=
  past.filterMap (Change.restrict (fun k => !isBlank k.1) reloadedCall)

/-- The log a session starts with, and the past it stands for: nothing at all, or what the file
keeps of the session before. -/
inductive Opened : Past → List CCallRecord → Prop
  | empty : Opened [] []
  | loaded {past : Past} {start callList : List CCallRecord} (ops : List Operation) :
      Opened past start →
      load culture (.saved (save culture (Runs.run perform start ops))) = .ok callList →
      Opened (reloadedPast ((ops.map Operation.change).reverse ++ past)) callList

lemma reloaded_entry (k : String × ECallType) (c : String × DateTime × TimeSpan) (n : ℕ) :
    reloaded (CCallRecord.entry k c n) =
      if !isBlank k.1 then some (CCallRecord.entry k (reloadedCall c) n) else none := by
  by_cases h : isBlank k.1
  · simp [reloaded, CCallRecord.entry, h]
  · have hnumber : ¬ isBlank (CCallRecord.entry k c n).number = true := h
    have hkeep : (!isBlank k.1) = true := by simpa using h
    rw [reloaded, if_neg hnumber, if_pos hkeep]
    rfl

variable {culture}

/-- A log that is opened is the digest of the past it stands for. -/
lemma Opened.records {past : Past} {callList : List CCallRecord}
    (h : Opened culture past callList) : Records past callList := by
  induction h with
  | empty => exact reflects_nil
  | loaded ops _ hload ih =>
      rw [load_saved, Except.ok.injEq] at hload
      rw [← hload]
      exact (run_records ih ops).restrict _ _ CCallRecord.key_entry reloaded_entry

/-- **The log lists distinct callers, the latest on top, with their counts.**  Over every run of
operations on a log that was opened, the stack holds one record for each pair of number and type
that was added since it was last deleted; each has the data of the last call and the number of
calls before it; and from top to bottom the last calls lie further and further back. -/
theorem stack_lists_distinct_callers {past : Past} {start : List CCallRecord}
    (h : Opened culture past start) (ops : List Operation) :
    let callList := Runs.run perform start ops
    let history := (ops.map Operation.change).reverse ++ past
    (callList.map CCallRecord.key).Nodup ∧
      (∀ k, k ∈ callList.map CCallRecord.key ↔ since k history ≠ []) ∧
      (∀ r ∈ callList, (since r.key history).head? = some r.call ∧
        r.count = Int32.ofNat ((since r.key history).length - 1)) ∧
      callList.Pairwise fun r r' => age r.key history < age r'.key history := by
  intro callList history
  have hrec : Records history callList := run_records h.records ops
  refine ⟨hrec.nodup, fun k => ⟨?_, fun hk => ?_⟩, fun r hr => ?_, hrec.latest_first⟩
  · intro hmem hk
    obtain ⟨r, hr, hrk⟩ := List.mem_map.mp hmem
    exact hrec.key_ne hk r hr hrk
  · obtain ⟨c, earlier, hs⟩ := List.exists_cons_of_ne_nil hk
    exact List.mem_map.mpr ⟨CCallRecord.entry k c earlier.length,
      (hrec.mem_iff _).mpr ⟨c, earlier, hs, rfl⟩, rfl⟩
  · obtain ⟨c, earlier, hs, heq⟩ := (hrec.mem_iff r).mp hr
    rw [hs]
    exact ⟨congrArg some (congrArg CCallRecord.call heq).symm, congrArg CCallRecord.count heq⟩

/-- A session after one in which a call was missed. -/
lemma opened_next_session : Opened tallyCulture [.add ("42", .EMissed) ("Bob", 0, 0)]
    [{ type := .EMissed, name := "Bob", number := "42" }] :=
  Opened.loaded [.addCall .EMissed "42" "Bob" 0 0] Opened.empty (load_saved tallyCulture _)

/-- A caller from the session before who calls again: the call before the file was written
counts. -/
theorem stack_lists_distinct_callers_next_session :
    Opened tallyCulture [.add ("42", .EMissed) ("Bob", 0, 0)]
        [{ type := .EMissed, name := "Bob", number := "42" }] ∧
      Runs.run perform [{ type := .EMissed, name := "Bob", number := "42" }]
          [.addCall .EDialed "17" "Eve" 3 2, .addCall .EMissed "42" "Bob" 5 0] =
        [{ type := .EMissed, name := "Bob", number := "42", time := 5, count := 1 },
          { type := .EDialed, name := "Eve", number := "17", time := 3, duration := 2 }] ∧
      (1 : Int32) = Int32.ofNat ((since ("42", ECallType.EMissed)
        [.add ("42", .EMissed) ("Bob", 5, 0), .add ("17", .EDialed) ("Eve", 3, 2),
          .add ("42", .EMissed) ("Bob", 0, 0)]).length - 1) := by
  refine ⟨opened_next_session, by decide, ?_⟩
  have hcount := (stack_lists_distinct_callers opened_next_session
    [.addCall .EDialed "17" "Eve" 3 2, .addCall .EMissed "42" "Bob" 5 0]).2.2.1
  exact (hcount { type := .EMissed, name := "Bob", number := "42", time := 5, count := 1 }
    (by decide)).2

/-- **Listing by type keeps the order** of a log if and only if the records of the type read the
same from either end.  A log that was opened and used has the latest call first, so there it is kept
if and only if at most one record is of the type. -/
theorem getList_keepsOrder_iff (culture : Culture) (type : ECallType) :
    (∀ callList, KeepsOrder callList type ↔
      (ofType type callList).reverse = ofType type callList) ∧
    ∀ past start, Opened culture past start → ∀ ops,
      (KeepsOrder (Runs.run perform start ops) type ↔
        (ofType type (Runs.run perform start ops)).length ≤ 1) :=
  ⟨fun callList => keepsOrder_iff callList type,
    fun _ _ h ops => Records.keepsOrder_iff (run_records h.records ops) type⟩

/-- A caller from the session before, and another one. -/
theorem getList_keepsOrder_iff_next_session :
    KeepsOrder (Runs.run perform [{ type := .EMissed, name := "Bob", number := "42" }]
      [.addCall .EDialed "17" "Eve" 3 2]) .EMissed :=
  ((getList_keepsOrder_iff tallyCulture .EMissed).2 _ _ opened_next_session _).mpr (by decide)

/-- Two calls are missed. -/
def missedTwice : List CCallRecord :=
  Runs.run perform [] [.addCall .EMissed "1" "" 0 0, .addCall .EMissed "2" "" 1 0]

/-- The log has the latest call on top, the list of all calls has the earliest. -/
theorem getList_upside_down :
    (getList missedTwice).map CCallRecord.number = ["2", "1"] ∧
      (getListOf missedTwice .EAll).map CCallRecord.number = ["1", "2"] ∧
      ¬ KeepsOrder missedTwice .EAll := by
  refine ⟨by decide, by decide, fun h => ?_⟩
  exact absurd h.order (by decide)

end Calllog

end TAM
