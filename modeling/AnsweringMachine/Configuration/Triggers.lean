import Mathlib.Data.List.Basic
import AnsweringMachine.CallControl.Machine
import AnsweringMachine.Library.Dictionary
import AnsweringMachine.Library.Outcome
import AnsweringMachine.Library.Xml

/-!
# Triggers read from the configuration

`LoadTriggers` reads the `trigger` elements of `accounts.xml` into a dictionary of collectors.  Each
child of such an element is cast to an element, so a text or a comment between the children is an
error; `day` and `ringDelay` children become triggers, and others are passed over.

What the runtime and the audio library do with a text is a parameter (`Platform`): parsing an
integer, parsing the name of a day, converting an audio file, reading the clock.  Strings are split
as the runtime splits them, with empty tokens.

A loader that fills a dictionary under the `name` of each element is `loadNamed`, for triggers here
and for action packs later; `get?_loadNamed` says that what it returns is found under precisely the
names of its elements.
-/

namespace TAM

open XmlNode

/-- What reading the configuration throws. -/
inductive ConfigException
  | ArgumentException (message : String)
  | ArgumentNullException
  | KeyNotFoundException
  | InvalidCastException
  | FormatException
  | OverflowException
  /-- With the text of the source, or one of the runtime. -/
  | FileNotFoundException (message : Option String)
  | XmlException
  /-- Whatever the audio library throws at a file. -/
  | AudioException
  deriving DecidableEq, Repr

/-- What is left to the runtime, the audio library and the clock. -/
structure Platform where
  /-- `int.Parse`; `int.TryParse` succeeds where this does. -/
  parseInt : String → Except ConfigException Int32
  /-- `Enum.Parse` at `DayOfWeek`, without regard to case: the number of the day. -/
  parseDayOfWeek : String → Except ConfigException Int32
  /-- The conversion of an audio file that `PlaywavAction` makes on construction. -/
  convertAudio : String → Except ConfigException Unit
  /-- The clock while the configuration is read. -/
  now : DateTime

/-- `int.TryParse`. -/
def Platform.tryParse (platform : Platform) (s : String) : Option Int32 :=
  (platform.parseInt s).toOption

/-! ## Tokens -/

/-- `String.Split` at a character; between two separators there is an empty token. -/
def split (text : String) (delimiter : Char) : List String :=
  (text.toList.splitOn delimiter).map String.ofList

/-- A `Tokenizer`: the tokens of a text, and how many were taken. -/
structure Tokenizer where
  tokens : List String
  taken : ℕ := 0

namespace Tokenizer

def ofText (text : String) (delimiter : Char) : Tokenizer := { tokens := split text delimiter }

def tokenAvailable (tokenizer : Tokenizer) : Bool := tokenizer.taken < tokenizer.tokens.length

def nextToken (tokenizer : Tokenizer) : Except ConfigException (String × Tokenizer) :=
  match tokenizer.tokens[tokenizer.taken]? with
  | none => .error (.ArgumentException "No more tokens available")
  | some token => .ok (token, { tokenizer with taken := tokenizer.taken + 1 })

end Tokenizer

/-! ## Day triggers and ring delays -/

/-- Ticks of a day, an hour and a minute. -/
def ticksPerDay : ℤ := 864000000000
def ticksPerHour : ℤ := 36000000000
def ticksPerMinute : ℤ := 600000000

/-- Midnight of the day of a clock reading. -/
def midnight (t : DateTime) : DateTime := t - t % ticksPerDay

/-- A trigger on one day of the week, all day or within times. -/
structure DayTrigger where
  name : Option String
  day : Int32
  fromTime : Option DateTime := none
  toTime : Option DateTime := none
  deriving DecidableEq, Repr

namespace DayTrigger

/-- `ParseTime`: hours and minutes on the day the configuration is read. -/
def parseTime (platform : Platform) (token triggerText : String) :
    Except ConfigException DateTime :=
  match split token ':' with
  | [hours, minutes] =>
      let illegal := ConfigException.ArgumentException
        ("Illegal time specification '" ++ token ++ "' in line'" ++ triggerText ++ "'")
      match platform.tryParse hours, platform.tryParse minutes with
      | some hour, some minute =>
          if hour < 0 ∨ hour ≥ 24 ∨ minute < 0 ∨ minute ≥ 60 then .error illegal
          else .ok (midnight platform.now + hour.toInt * ticksPerHour +
            minute.toInt * ticksPerMinute)
      | _, _ => .error illegal
  | _ => .error (.ArgumentException
      ("Illegal time specification '" ++ token ++ "' in line '" ++ triggerText ++ "'"))

/-- A token that has to be a given word, and the time that follows it. -/
def parseClause (platform : Platform) (word triggerText : String) (tokenizer : Tokenizer) :
    Except ConfigException (DateTime × Tokenizer) := do
  let (token, tokenizer) ← tokenizer.nextToken
  if token = word then
    let (token, tokenizer) ← tokenizer.nextToken
    let time ← parseTime platform token triggerText
    return (time, tokenizer)
  else
    throw (.ArgumentException ("Token '" ++ token ++ "' in line '" ++ triggerText ++ "'"))

/-- The constructor, behind the day.  Tokens behind the second time are not looked at. -/
def parseClauses (platform : Platform) (triggerText : String) (name : Option String) (day : Int32)
    (tokenizer : Tokenizer) : Except ConfigException DayTrigger := do
  if !tokenizer.tokenAvailable then
    return { name, day }
  let (fromTime, tokenizer) ← parseClause platform "from" triggerText tokenizer
  if !tokenizer.tokenAvailable then
    return { name, day, fromTime }
  let (toTime, _) ← parseClause platform "to" triggerText tokenizer
  return { name, day, fromTime, toTime }

/-- The constructor. -/
def parse (platform : Platform) (triggerText : String) (name : Option String) :
    Except ConfigException DayTrigger := do
  let tokenizer := Tokenizer.ofText triggerText ' '
  let (token, tokenizer) ← tokenizer.nextToken
  let day ← platform.parseDayOfWeek token
  parseClauses platform triggerText name day tokenizer

end DayTrigger

/-- A trigger on the time a call has been ringing, in milliseconds. -/
structure RingDelay where
  name : Option String
  delay : Int32
  deriving DecidableEq, Repr

/-- The constructor. -/
def RingDelay.parse (platform : Platform) (triggerText : String) (name : Option String) :
    Except ConfigException RingDelay :=
  match platform.tryParse triggerText with
  | some delay => .ok { name, delay }
  | none => .error (.ArgumentException ("Cannot parse ring delay '" ++ triggerText ++ "'"))

/-- The triggers a collector is made of. -/
inductive ITrigger
  | day (trigger : DayTrigger)
  | ringDelay (trigger : RingDelay)
  deriving DecidableEq, Repr

/-- Triggers of which one has to be true. -/
structure TriggerCollector where
  name : Option String
  triggers : List ITrigger
  deriving DecidableEq, Repr

/-! ## Loading by name -/

/-- `XmlHelper.ReadString`: the text of the first child of that name; `null` without one. -/
def readString (rootElement : XmlNode) (name : String) : Option String :=
  (rootElement.selectSingleNode name).map innerText

section LoadNamed

variable {ν : Type}

/-- `Add` of a dictionary, under a name that can be `null`. -/
def addNamed (d : Dictionary String ν) (name : Option String) (v : ν) :
    Except ConfigException (Dictionary String ν) :=
  match name with
  | none => .error .ArgumentNullException
  | some name =>
      match d.add? name v with
      | none => .error (.ArgumentException "An item with the same key has already been added.")
      | some d => .ok d

/-- One value is read from each element and added under the name of the element. -/
def loadNamed (read : XmlNode → Except ConfigException ν) (elements : List XmlNode) :
    Except ConfigException (Dictionary String ν) :=
  elements.foldlM
    (fun d element => do
      let v ← read element
      addNamed d (readString element "name") v) .empty

lemma addNamed_eq_ok_iff {d d' : Dictionary String ν} {name : Option String} {v : ν} :
    addNamed d name v = .ok d' ↔ ∃ key, name = some key ∧ d.add? key v = some d' := by
  cases name with
  | none => simp [addNamed]
  | some key =>
      cases h : d.add? key v with
      | none => simp [addNamed, h]
      | some d'' => simp [addNamed, h]

/-- The fold of a loader, started on any dictionary: every element is read, and found under its
name. -/
lemma foldlM_addNamed {read : XmlNode → Except ConfigException ν} {elements : List XmlNode}
    {d₀ d : Dictionary String ν}
    (h : elements.foldlM (fun d element => do
      let v ← read element
      addNamed d (readString element "name") v) d₀ = .ok d) :
    (∀ element ∈ elements, ∃ v, read element = .ok v) ∧
      ∀ name v, d.get? name = some v ↔ d₀.get? name = some v ∨
        ∃ element ∈ elements, readString element "name" = some name ∧ read element = .ok v := by
  induction elements generalizing d₀ with
  | nil =>
      have hd : d₀ = d := Except.ok.inj h
      simp [hd]
  | cons element elements ih =>
      rw [List.foldlM_cons, Except.bind_eq_ok_iff] at h
      obtain ⟨d₁, hd₁, hrest⟩ := h
      obtain ⟨w, hw, hadd⟩ := Except.bind_eq_ok_iff.mp hd₁
      obtain ⟨key, hkey, hadd⟩ := addNamed_eq_ok_iff.mp hadd
      obtain ⟨hfree, -⟩ := Dictionary.entries_of_add? hadd
      obtain ⟨hread, hget⟩ := ih hrest
      refine ⟨by simpa using ⟨⟨w, hw⟩, hread⟩, fun name v => ?_⟩
      rw [hget, Dictionary.get?_of_add? hadd]
      by_cases hname : name = key
      · subst hname
        simp [hfree, hkey, hw]
      · simp [hname, hkey, Ne.symm hname]

/-- **What a loader returns is found under the names of its elements, and nothing else is.** -/
theorem get?_loadNamed {read : XmlNode → Except ConfigException ν} {elements : List XmlNode}
    {d : Dictionary String ν} (h : loadNamed read elements = .ok d) (name : String) (v : ν) :
    d.get? name = some v ↔
      ∃ element ∈ elements, readString element "name" = some name ∧ read element = .ok v := by
  rw [(foldlM_addNamed h).2]
  simp

/-- A name is known to a loader's dictionary if an element has it. -/
lemma exists_get?_loadNamed {read : XmlNode → Except ConfigException ν} {elements : List XmlNode}
    {d : Dictionary String ν} (h : loadNamed read elements = .ok d) (name : String) :
    (∃ v, d.get? name = some v) ↔
      ∃ element ∈ elements, readString element "name" = some name := by
  constructor
  · rintro ⟨v, hv⟩
    obtain ⟨element, hmem, hname, -⟩ := (get?_loadNamed h name v).mp hv
    exact ⟨element, hmem, hname⟩
  · rintro ⟨element, hmem, hname⟩
    obtain ⟨v, hv⟩ := (foldlM_addNamed h).1 element hmem
    exact ⟨v, (get?_loadNamed h name v).mpr ⟨element, hmem, hname, hv⟩⟩

/-- Every element has a name, and no two have the same. -/
def WellNamed (elements : List XmlNode) : Prop :=
  (∀ element ∈ elements, readString element "name" ≠ none) ∧
    (elements.map fun element => readString element "name").Nodup

/-- The fold of a loader, started on any dictionary, succeeds if every element is read and its name
is free. -/
lemma exists_foldlM_addNamed_iff {read : XmlNode → Except ConfigException ν}
    {elements : List XmlNode} {d₀ : Dictionary String ν} :
    (∃ d, elements.foldlM (fun d element => do
      let v ← read element
      addNamed d (readString element "name") v) d₀ = .ok d) ↔
      (∀ element ∈ elements, (∃ v, read element = .ok v) ∧
        ∃ name, readString element "name" = some name ∧ d₀.get? name = none) ∧
      (elements.map fun element => readString element "name").Nodup := by
  induction elements generalizing d₀ with
  | nil => simp [pure, Except.pure]
  | cons element elements ih =>
      simp only [List.foldlM_cons, Except.bind_eq_ok_iff, addNamed_eq_ok_iff, List.forall_mem_cons,
        List.map_cons, List.nodup_cons]
      constructor
      · rintro ⟨d, d₁, ⟨v, hv, name, hname, hadd⟩, hrest⟩
        obtain ⟨hall, hnodup⟩ := ih.mp ⟨d, hrest⟩
        refine ⟨⟨⟨⟨v, hv⟩, name, hname, (Dictionary.entries_of_add? hadd).1⟩, ?_⟩, ?_, hnodup⟩
        · intro e he
          obtain ⟨hread, name', hname', hfree⟩ := hall e he
          rw [Dictionary.get?_of_add? hadd] at hfree
          exact ⟨hread, name', hname', by split_ifs at hfree; exact hfree⟩
        · intro hmem
          obtain ⟨e, he, hename⟩ := List.mem_map.mp hmem
          obtain ⟨-, name', hname', hfree⟩ := hall e he
          obtain rfl : name' = name := Option.some.inj (hname'.symm.trans (hename.trans hname))
          rw [Dictionary.get?_of_add? hadd, if_pos rfl] at hfree
          simp at hfree
      · rintro ⟨⟨⟨⟨v, hv⟩, name, hname, hfree⟩, hall⟩, hnew, hnodup⟩
        obtain ⟨d₁, hadd⟩ : ∃ d₁, d₀.add? name v = some d₁ := by
          rw [← Option.isSome_iff_exists, Option.isSome_iff_ne_none, ne_eq,
            Dictionary.add?_eq_none_iff, not_not]
          exact hfree
        have hall₁ : ∀ e ∈ elements, (∃ v, read e = .ok v) ∧
            ∃ name, readString e "name" = some name ∧ d₁.get? name = none := by
          intro e he
          obtain ⟨hread, name', hname', hfree'⟩ := hall e he
          refine ⟨hread, name', hname', ?_⟩
          rw [Dictionary.get?_of_add? hadd, if_neg, hfree']
          rintro rfl
          exact hnew (List.mem_map.mpr ⟨e, he, hname'.trans hname.symm⟩)
        obtain ⟨d, hd⟩ := ih.mpr ⟨hall₁, hnodup⟩
        exact ⟨d, d₁, ⟨v, hv, name, hname, hadd⟩, hd⟩

/-- **A loader succeeds** if every element is read and the names are there and distinct. -/
theorem exists_loadNamed_iff {read : XmlNode → Except ConfigException ν} {elements : List XmlNode} :
    (∃ d, loadNamed read elements = .ok d) ↔
      WellNamed elements ∧ ∀ element ∈ elements, ∃ v, read element = .ok v := by
  rw [loadNamed, exists_foldlM_addNamed_iff]
  simp only [Dictionary.get?_empty, and_true, forall_and, WellNamed,
    Option.ne_none_iff_exists']
  tauto

/-- The pairs of a loaded dictionary stand in the order of the elements. -/
lemma entries_foldlM_addNamed {read : XmlNode → Except ConfigException ν} {elements : List XmlNode}
    {d₀ d : Dictionary String ν} (hv : d₀.vacated = [])
    (h : elements.foldlM (fun d element => do
      let v ← read element
      addNamed d (readString element "name") v) d₀ = .ok d) :
    ∃ pairs, d.entries = d₀.entries ++ pairs ∧
      List.Forall₂ (fun element pair => readString element "name" = some pair.1 ∧
        read element = .ok pair.2) elements pairs := by
  induction elements generalizing d₀ with
  | nil =>
      have hd : d₀ = d := Except.ok.inj h
      exact ⟨[], by simp [hd], .nil⟩
  | cons element elements ih =>
      rw [List.foldlM_cons, Except.bind_eq_ok_iff] at h
      obtain ⟨d₁, hd₁, hrest⟩ := h
      obtain ⟨v, hread, hadd⟩ := Except.bind_eq_ok_iff.mp hd₁
      obtain ⟨name, hname, hadd⟩ := addNamed_eq_ok_iff.mp hadd
      obtain ⟨hentries, hv₁⟩ := Dictionary.entries_of_add?_of_vacated_nil hv hadd
      obtain ⟨pairs, hpairs, hall⟩ := ih hv₁ hrest
      exact ⟨(name, v) :: pairs, by simp [hpairs, hentries], .cons ⟨hname, hread⟩ hall⟩

lemma entries_loadNamed {read : XmlNode → Except ConfigException ν} {elements : List XmlNode}
    {d : Dictionary String ν} (h : loadNamed read elements = .ok d) :
    List.Forall₂ (fun element pair => readString element "name" = some pair.1 ∧
      read element = .ok pair.2) elements d.entries := by
  obtain ⟨pairs, hpairs, hall⟩ := entries_foldlM_addNamed rfl h
  rw [Dictionary.entries_empty, List.nil_append] at hpairs
  rwa [hpairs]

end LoadNamed

/-- One child of a `trigger` element, in the loop of `LoadTriggers`. -/
def readRealTrigger (platform : Platform) (name : Option String) :
    XmlNode → Except ConfigException (List ITrigger)
  | .element uri tag children => do
      let text := innerText (.element uri tag children)
      if tag = "day" then return [.day (← DayTrigger.parse platform text name)]
      else if tag = "ringDelay" then return [.ringDelay (← RingDelay.parse platform text name)]
      else return []
  | .text _ | .comment _ => .error .InvalidCastException

/-- The collector of a `trigger` element. -/
def readTrigger (platform : Platform) (triggerElement : XmlNode) :
    Except ConfigException TriggerCollector := do
  let name := readString triggerElement "name"
  let triggers ← triggerElement.children.mapM (readRealTrigger platform name)
  return { name, triggers := triggers.flatten }

/-- `LoadTriggers`, on the root of the document. -/
def loadTriggers (platform : Platform) (root : XmlNode) :
    Except ConfigException (Dictionary String TriggerCollector) :=
  loadNamed (readTrigger platform) (root.selectNodes "trigger")

end TAM
