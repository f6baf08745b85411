import AnsweringMachine.Application.Script
import AnsweringMachine.Configuration.DayTexts
import AnsweringMachine.Library.Windows

/-!
# When triggers are triggered

`IsTriggered` of the triggers, and the loop of `TriggeredExecution` over them.

A day trigger keeps its times as points in time, on the day the configuration was read, and puts
their hours, minutes and seconds on the day in question before it compares.  `trigger_means` follows
a `trigger` element from its text to its answers and says that this works out: the collector is
triggered when one of its children holds, wherever and whenever it was read.

`TriggeredExecution` reads the clock anew for each trigger.  What is true of each trigger at its own
reading need not be true of all of them at once.  A trigger is triggered in windows of time, a day
trigger once a week and a ring delay from the delay on; `fires_together_iff` says in terms of these
windows and of the readings when a pack that fires has its triggers together.

The number of milliseconds that a call has been ringing is a floating point number in the source,
and the bound an integer of 32 bits; below that bound the products with `1.0 / 10000` are exact to
less than a tick, so ticks are compared here.
-/

namespace TAM

/-- Ticks of a millisecond. -/
def ticksPerMillisecond : ℤ := 10000

/-! ## The code -/

/-- `DateTime.DayOfWeek`; the first day of the calendar is a Monday. -/
def dayOfWeek (t : DateTime) : Int32 := Int32.ofInt ((t / ticksPerDay + 1) % 7)

/-- `DateTime.Hour`, `DateTime.Minute` and `DateTime.Second`. -/
def hourOf (t : DateTime) : ℤ := t / ticksPerHour % 24
def minuteOf (t : DateTime) : ℤ := t / ticksPerMinute % 60
def secondOf (t : DateTime) : ℤ := t / ticksPerSecond % 60

/-- `CombineDate`: a time of day on another day. -/
def combineDate (date time : DateTime) : DateTime :=
  midnight date + hourOf time * ticksPerHour + minuteOf time * ticksPerMinute +
    secondOf time * ticksPerSecond

/-- `IsTriggered` of a day trigger. -/
def DayTrigger.isTriggered (trigger : DayTrigger) (triggerDate : DateTime) : Bool :=
  if dayOfWeek triggerDate ≠ trigger.day then false
  else if trigger.fromTime.any fun time => triggerDate < combineDate triggerDate time then false
  else if trigger.toTime.any fun time => triggerDate > combineDate triggerDate time then false
  else true

/-- `IsTriggered` of a ring delay, for a call with a given date. -/
def RingDelay.isTriggered (trigger : RingDelay) (date triggerDate : DateTime) : Bool :=
  triggerDate - date ≥ trigger.delay.toInt * ticksPerMillisecond

/-- `IsTriggered` of the triggers of a collector. -/
def ITrigger.isTriggered (date triggerDate : DateTime) : ITrigger → Bool
  | .day trigger => trigger.isTriggered triggerDate
  | .ringDelay trigger => trigger.isTriggered date triggerDate

/-- `IsTriggered` of a collector: one of its triggers is enough. -/
def TriggerCollector.isTriggered (collector : TriggerCollector) (date triggerDate : DateTime) :
    Bool :=
  collector.triggers.any (ITrigger.isTriggered date triggerDate)

/-! ## What a configuration says -/

/-- The day of the week, Sunday being 0, and the exact time of the day. -/
def weekday (t : DateTime) : ℤ := (t / ticksPerDay + 1) % 7
def timeOfDay (t : DateTime) : ℤ := t % ticksPerDay

/-- The time of day of hours and minutes. -/
def clockTicks (clock : Int32 × Int32) : ℤ :=
  clock.1.toInt * ticksPerHour + clock.2.toInt * ticksPerMinute

/-- It is that day, and within the times that are given. -/
def Within (n : ℕ) (f t : Option (Int32 × Int32)) (now : DateTime) : Prop :=
  weekday now = n ∧ (∀ clock ∈ f, clockTicks clock ≤ timeOfDay now) ∧
    ∀ clock ∈ t, timeOfDay now ≤ clockTicks clock

/-- A child of a `trigger` element that is documented: the name, a day or a delay. -/
def Documented (platform : Platform) : XmlNode → Prop
  | .element uri tag children => tag = "name" ∨
      (tag = "day" ∧ ∃ n f t,
        DayText platform (XmlNode.innerText (.element uri tag children)) n f t) ∨
      tag = "ringDelay" ∧ ∃ delay,
        platform.tryParse (XmlNode.innerText (.element uri tag children)) = some delay
  | .text _ | .comment _ => False

/-- What the child says is true at an instant, of a call with a given date. -/
def Holds (platform : Platform) (date now : DateTime) : XmlNode → Prop
  | .element uri tag children =>
      (tag = "day" ∧ ∃ n f t,
        DayText platform (XmlNode.innerText (.element uri tag children)) n f t ∧ Within n f t now) ∨
      tag = "ringDelay" ∧ ∃ delay,
        platform.tryParse (XmlNode.innerText (.element uri tag children)) = some delay ∧
          delay.toInt * ticksPerMillisecond ≤ now - date
  | .text _ | .comment _ => False

/-! ## From text to answer -/

/-- Hours, minutes and seconds of a time on the `q`th day. -/
lemma parts_of_clock {q h m : ℤ} (h0 : 0 ≤ h) (h24 : h < 24) (m0 : 0 ≤ m) (m60 : m < 60) :
    hourOf (q * ticksPerDay + h * ticksPerHour + m * ticksPerMinute) = h ∧
      minuteOf (q * ticksPerDay + h * ticksPerHour + m * ticksPerMinute) = m ∧
      secondOf (q * ticksPerDay + h * ticksPerHour + m * ticksPerMinute) = 0 := by
  simp only [hourOf, minuteOf, secondOf, ticksPerDay, ticksPerHour, ticksPerMinute, ticksPerSecond]
  refine ⟨?_, ?_, ?_⟩ <;> omega

lemma midnight_eq (t : ℤ) : midnight t = t / ticksPerDay * ticksPerDay := by
  show t - t % 864000000000 = t / 864000000000 * 864000000000
  omega

/-- The hours and minutes of a time of the clock. -/
lemma Clock.range {platform : Platform} {token : String} {hour minute : Int32}
    (h : Clock platform token hour minute) :
    (0 ≤ hour.toInt ∧ hour.toInt < 24) ∧ 0 ≤ minute.toInt ∧ minute.toInt < 60 := by
  obtain ⟨-, -, -, -, -, -, -, h0, h24, m0, m60⟩ := h
  exact ⟨⟨Int32.le_iff_toInt_le.mp h0, Int32.lt_iff_toInt_lt.mp h24⟩,
    Int32.le_iff_toInt_le.mp m0, Int32.lt_iff_toInt_lt.mp m60⟩

/-- **A time of the clock is the same time on every day**, whatever day it was read on. -/
lemma combineDate_clockTime {platform : Platform} {token : String} {hour minute : Int32}
    (h : Clock platform token hour minute) (reading : Platform) (t : DateTime) :
    combineDate t (clockTime reading (hour, minute)) = midnight t + clockTicks (hour, minute) := by
  obtain ⟨⟨h0, h24⟩, m0, m60⟩ := h.range
  obtain ⟨hhour, hminute, hsecond⟩ :=
    parts_of_clock (q := reading.now / ticksPerDay) h0 h24 m0 m60
  rw [← midnight_eq] at hhour hminute hsecond
  simp only [combineDate, clockTime, hhour, hminute, hsecond, clockTicks]
  rw [Int.zero_mul, Int.add_zero, Int.add_assoc]

/-- Comparing with a time on the same day is comparing the times of day. -/
lemma lt_midnight_add_iff (t c : ℤ) : t < midnight t + c ↔ timeOfDay t < c := by
  show t < t - t % 864000000000 + c ↔ t % 864000000000 < c
  omega

lemma midnight_add_lt_iff (t c : ℤ) : midnight t + c < t ↔ c < timeOfDay t := by
  show t - t % 864000000000 + c < t ↔ c < t % 864000000000
  omega

/-- The day of the week is one of seven. -/
lemma dayOfWeek_eq_iff {n : ℕ} (hn : n < 7) (t : DateTime) :
    dayOfWeek t = Int32.ofNat n ↔ weekday t = n := by
  have hday : (dayOfWeek t).toInt = weekday t :=
    Int32.toInt_ofInt_of_le (by omega) (by omega)
  have hnum : (Int32.ofNat n).toInt = n := Int32.toInt_ofNat_of_lt (by omega)
  rw [← Int32.toInt_inj, hday, hnum]

/-- The day and the times that a documented text gives. -/
lemma DayText.parts {platform : Platform} {text : String} {n : ℕ} {f t : Option (Int32 × Int32)}
    (h : DayText platform text n f t) :
    n < 7 ∧ (∀ clock ∈ f, ∃ token, Clock platform token clock.1 clock.2) ∧
      ∀ clock ∈ t, ∃ token, Clock platform token clock.1 clock.2 := by
  have hlt : ∀ {d : String}, dayNumber d.toList = some n → n < 7 := fun hd =>
    (List.findIdx?_eq_some_iff_getElem.mp hd).1
  cases h with
  | day hd => exact ⟨hlt hd, by simp, by simp⟩
  | dayFrom hd ht _ => exact ⟨hlt hd, by simpa using ⟨_, ht⟩, by simp⟩
  | dayFromTo hd ht _ ht' _ => exact ⟨hlt hd, by simpa using ⟨_, ht⟩, by simpa using ⟨_, ht'⟩⟩

/-- **The trigger that is made of a documented text** is triggered when the text says so. -/
lemma isTriggered_dayText {platform : Platform} {text : String} {n : ℕ}
    {f t : Option (Int32 × Int32)} (h : DayText platform text n f t) (reading : Platform)
    (name : Option String) (now : DateTime) :
    DayTrigger.isTriggered ⟨name, Int32.ofNat n, f.map (clockTime reading),
      t.map (clockTime reading)⟩ now = true ↔ Within n f t now := by
  obtain ⟨hn, hf, ht⟩ := h.parts
  have hfrom : (f.map (clockTime reading)).any (fun time => now < combineDate now time) = false ↔
      ∀ clock ∈ f, clockTicks clock ≤ timeOfDay now := by
    cases f with
    | none => simp
    | some clock =>
        obtain ⟨token, hclock⟩ := hf clock rfl
        simp [combineDate_clockTime hclock, lt_midnight_add_iff]
  have hto : (t.map (clockTime reading)).any (fun time => now > combineDate now time) = false ↔
      ∀ clock ∈ t, timeOfDay now ≤ clockTicks clock := by
    cases t with
    | none => simp
    | some clock =>
        obtain ⟨token, hclock⟩ := ht clock rfl
        simp [combineDate_clockTime hclock, midnight_add_lt_iff]
  simp only [DayTrigger.isTriggered, Within, ← dayOfWeek_eq_iff hn now, ← hfrom, ← hto]
  split_ifs <;> simp_all

/-- A delay is over. -/
lemma isTriggered_ringDelay (trigger : RingDelay) (date now : DateTime) :
    trigger.isTriggered date now = true ↔
      trigger.delay.toInt * ticksPerMillisecond ≤ now - date := by
  simp [RingDelay.isTriggered]

section Collector

variable {platform : Platform}

/-- The language does not depend on the time of reading. -/
lemma DayText.reading {text : String} {n : ℕ} {f t : Option (Int32 × Int32)}
    (h : DayText platform text n f t) (now : DateTime) :
    DayText { platform with now := now } text n f t := by
  cases h with
  | day hd => exact .day hd
  | dayFrom hd ht hspace => exact .dayFrom hd ht hspace
  | dayFromTo hd ht hspace ht' hspace' => exact .dayFromTo hd ht hspace ht' hspace'

/-- A day, read at any time. -/
lemma readRealTrigger_day (hdoc : platform.parseDayOfWeek = enumParse platform.parseInt)
    (reading : DateTime) (name : Option String) {uri : String} {children : List XmlNode} {n : ℕ}
    {f t : Option (Int32 × Int32)}
    (h : DayText platform (XmlNode.innerText (.element uri "day" children)) n f t) :
    readRealTrigger { platform with now := reading } name (.element uri "day" children) =
      .ok [.day ⟨name, Int32.ofNat n, f.map (clockTime { platform with now := reading }),
        t.map (clockTime { platform with now := reading })⟩] := by
  have hparse := @DayTrigger.parse_of_dayText { platform with now := reading } _ hdoc _ _ _
    (h.reading reading) name
  rw [readRealTrigger, if_pos rfl, hparse]
  rfl

/-- A delay, read at any time. -/
lemma readRealTrigger_ringDelay (reading : DateTime) (name : Option String) {uri : String}
    {children : List XmlNode} {delay : Int32}
    (h : platform.tryParse (XmlNode.innerText (.element uri "ringDelay" children)) = some delay) :
    readRealTrigger { platform with now := reading } name (.element uri "ringDelay" children) =
      .ok [.ringDelay ⟨name, delay⟩] := by
  have hparse : RingDelay.parse { platform with now := reading }
      (XmlNode.innerText (.element uri "ringDelay" children)) name = .ok ⟨name, delay⟩ := by
    rw [Platform.tryParse] at h
    simp only [RingDelay.parse, Platform.tryParse, h]
  rw [readRealTrigger, if_neg (by decide), if_pos rfl, hparse]
  rfl

/-- **One child** is triggered when it holds. -/
lemma readRealTrigger_documented (hdoc : platform.parseDayOfWeek = enumParse platform.parseInt)
    (reading : DateTime) (name : Option String) {child : XmlNode} (h : Documented platform child) :
    ∃ triggers, readRealTrigger { platform with now := reading } name child = .ok triggers ∧
      ∀ date now, (∃ trigger ∈ triggers, trigger.isTriggered date now = true) ↔
        Holds platform date now child := by
  cases child with
  | text value => exact absurd h (by simp [Documented])
  | comment value => exact absurd h (by simp [Documented])
  | element uri tag children =>
      obtain rfl | ⟨rfl, n, f, t, hday⟩ | ⟨rfl, delay, hdelay⟩ := h
      · exact ⟨[], rfl, by simp [Holds]⟩
      · have hread := readRealTrigger_day hdoc reading name hday
        refine ⟨_, hread, fun date now => ?_⟩
        constructor
        · rintro ⟨trigger, hmem, htriggered⟩
          obtain rfl := List.mem_singleton.mp hmem
          exact Or.inl ⟨rfl, n, f, t, hday, (isTriggered_dayText hday _ name now).mp htriggered⟩
        · -- the text may be read in one way only
          rintro (⟨-, n', f', t', hday', hwithin⟩ | ⟨hne, -⟩)
          · have hsame := Except.ok.inj (hread.symm.trans
              (readRealTrigger_day hdoc reading name hday'))
            rw [hsame]
            exact ⟨_, List.mem_singleton_self _,
              (isTriggered_dayText hday' _ name now).mpr hwithin⟩
          · exact absurd hne (by decide)
      · refine ⟨_, readRealTrigger_ringDelay reading name hdelay, fun date now => ?_⟩
        simp [Holds, hdelay, ITrigger.isTriggered, isTriggered_ringDelay]

/-- All children of an element. -/
lemma mapM_readRealTrigger (hdoc : platform.parseDayOfWeek = enumParse platform.parseInt)
    (reading : DateTime) (name : Option String) {children : List XmlNode}
    (h : ∀ child ∈ children, Documented platform child) :
    ∃ triggers,
      children.mapM (readRealTrigger { platform with now := reading } name) = .ok triggers ∧
      ∀ date now, (∃ trigger ∈ triggers.flatten, trigger.isTriggered date now = true) ↔
        ∃ child ∈ children, Holds platform date now child := by
  induction children with
  | nil => exact ⟨[], rfl, by simp⟩
  | cons child children ih =>
      obtain ⟨first, hfirst, hiff⟩ :=
        readRealTrigger_documented hdoc reading name (h child (by simp))
      obtain ⟨rest, hrest, hiff'⟩ := ih fun c hc => h c (by simp [hc])
      refine ⟨first :: rest, ?_, fun date now => ?_⟩
      · rw [List.mapM_cons, Except.bind_eq_ok_iff]
        exact ⟨first, hfirst, Except.bind_eq_ok_iff.mpr ⟨rest, hrest, rfl⟩⟩
      · simp only [List.flatten_cons, List.mem_append, or_and_right, exists_or, hiff, hiff',
          List.exists_mem_cons_iff]

/-- **Trigger configurations mean what they say.**  A `trigger` element with documented children is
read, and the collector that is found under its name is triggered when one of the children holds.
None of this depends on when the configuration was read. -/
theorem trigger_means (hdoc : platform.parseDayOfWeek = enumParse platform.parseInt)
    {element : XmlNode} (hchildren : ∀ child ∈ element.children, Documented platform child)
    (reading : DateTime) :
    ∃ collector, readTrigger { platform with now := reading } element = .ok collector ∧
      (∀ date now, collector.isTriggered date now = true ↔
        ∃ child ∈ element.children, Holds platform date now child) ∧
      ∀ root triggers name, loadTriggers { platform with now := reading } root = .ok triggers →
        element ∈ root.selectNodes "trigger" → readString element "name" = some name →
        triggers.get? name = some collector := by
  obtain ⟨triggers, hread, hiff⟩ :=
    mapM_readRealTrigger hdoc reading (readString element "name") hchildren
  have hcollector : readTrigger { platform with now := reading } element =
      .ok ⟨readString element "name", triggers.flatten⟩ := by
    rw [readTrigger, hread]
    rfl
  refine ⟨_, hcollector, fun date now => ?_, fun root dictionary name hload hmem hname => ?_⟩
  · rw [← hiff]
    exact List.any_eq_true
  · exact (get?_loadNamed hload name _).mpr ⟨element, hmem, hname, hcollector⟩

end Collector

/-- Mornings, and whoever rings for five milliseconds. -/
def morningTrigger : XmlNode :=
  XmlNode.createElement "trigger" [XmlNode.withText "name" "morning",
    XmlNode.withText "day" "monday from 8:0 to 9:5", XmlNode.withText "ringDelay" "5"]

/-- The collector of the mornings, read on the first of all days. -/
theorem trigger_means_morning :
    ∃ collector, readTrigger { DayTrigger.digitPlatform with now := 0 } morningTrigger =
        .ok collector ∧
      ∀ date now, collector.isTriggered date now = true ↔
        ∃ child ∈ morningTrigger.children, Holds DayTrigger.digitPlatform date now child := by
  have hday : DayText DayTrigger.digitPlatform "monday from 8:0 to 9:5" 1 (some (8, 0))
      (some (9, 5)) :=
    .dayFromTo (d := "monday") (by decide)
      ⟨"8", "0", rfl, by decide, by decide, rfl, rfl, by decide, by decide, by decide, by decide⟩
      (by decide)
      ⟨"9", "5", rfl, by decide, by decide, rfl, rfl, by decide, by decide, by decide, by decide⟩
      (by decide)
  have hchildren :
      ∀ child ∈ morningTrigger.children, Documented DayTrigger.digitPlatform child := by
    intro child hchild
    simp only [morningTrigger, XmlNode.children, XmlNode.createElement, List.mem_cons,
      List.not_mem_nil, or_false] at hchild
    rcases hchild with rfl | rfl | rfl
    · exact Or.inl rfl
    · exact Or.inr (Or.inl ⟨rfl, _, _, _, hday⟩)
    · exact Or.inr (Or.inr ⟨rfl, 5, by decide⟩)
  obtain ⟨collector, hread, hiff, -⟩ := trigger_means rfl hchildren 0
  exact ⟨collector, hread, hiff⟩

/-! ## The windows of triggers -/

/-- The window of a day trigger on the `q`th day: between its times, or from midnight, or up to the
last tick of the day. -/
def DayTrigger.window (trigger : DayTrigger) (q : ℤ) : Window DateTime where
  opens := (trigger.fromTime.map (combineDate (q * ticksPerDay))).getD (q * ticksPerDay)
  closes := ((trigger.toTime.map (combineDate (q * ticksPerDay))).getD
    (q * ticksPerDay + ticksPerDay - 1) : ℤ)

/-- The windows of a trigger: one for each of its days, or from the delay on. -/
def ITrigger.HoldsIn (date : DateTime) (w : Window DateTime) : ITrigger → Prop
  | .day trigger => ∃ q : ℤ, dayOfWeek (q * ticksPerDay) = trigger.day ∧ w = trigger.window q
  | .ringDelay trigger => w = ⟨date + trigger.delay.toInt * ticksPerMillisecond, ⊤⟩

/-- The windows of a collector are those of its triggers. -/
def TriggerCollector.HoldsIn (date : DateTime) (collector : TriggerCollector)
    (w : Window DateTime) : Prop :=
  ∃ trigger ∈ collector.triggers, trigger.HoldsIn date w

/-- A time of day is put on the day in question. -/
lemma combineDate_day (t time : DateTime) :
    combineDate t time = combineDate (t / ticksPerDay * ticksPerDay) time := by
  have hday : midnight (t / ticksPerDay * ticksPerDay) = midnight t := by
    rw [midnight_eq, midnight_eq, Int.mul_ediv_cancel _ (by decide)]
  simp only [combineDate, hday]

/-- It does not leave that day. -/
lemma combineDate_range (q time : ℤ) :
    q * ticksPerDay ≤ combineDate (q * ticksPerDay) time ∧
      combineDate (q * ticksPerDay) time ≤ q * ticksPerDay + ticksPerDay - 1 := by
  have hday : midnight (q * ticksPerDay) = q * ticksPerDay := by
    rw [midnight_eq, Int.mul_ediv_cancel _ (by decide)]
  rw [combineDate, hday]
  have hclock : 0 ≤ time / 36000000000 % 24 * 36000000000 + time / 600000000 % 60 * 600000000 +
      time / 10000000 % 60 * 10000000 ∧ time / 36000000000 % 24 * 36000000000 +
      time / 600000000 % 60 * 600000000 + time / 10000000 % 60 * 10000000 ≤ 863999999999 := by omega
  rw [Int.add_assoc, Int.add_assoc, ← Int.add_assoc (hourOf time * ticksPerHour)]
  exact ⟨Int.le_add_of_nonneg_right hclock.1,
    Int.le_sub_one_of_lt (Int.add_lt_add_left (Int.lt_add_one_of_le hclock.2) _)⟩

/-- The window of a day does not leave it either. -/
lemma DayTrigger.day_of_contains {trigger : DayTrigger} {q t : ℤ}
    (h : (trigger.window q).Contains t) : t / ticksPerDay = q := by
  obtain ⟨hopens, hcloses⟩ := h
  have hlow : q * ticksPerDay ≤ t := by
    refine le_trans ?_ hopens
    cases hfrom : trigger.fromTime with
    | none => simp [window, hfrom]
    | some time => simpa [window, hfrom] using (combineDate_range q time).1
  have hhigh : t ≤ q * ticksPerDay + ticksPerDay - 1 := by
    refine le_trans (WithTop.coe_le_coe.mp hcloses) ?_
    cases hto : trigger.toTime with
    | none => simp
    | some time => simpa using (combineDate_range q time).2
  rw [ticksPerDay] at hlow hhigh ⊢
  omega

/-- **A day trigger is triggered in the windows of its days.** -/
lemma DayTrigger.isTriggered_iff (trigger : DayTrigger) (t : ℤ) :
    trigger.isTriggered t = true ↔
      ∃ q : ℤ, dayOfWeek (q * ticksPerDay) = trigger.day ∧ (trigger.window q).Contains t := by
  have hweek : dayOfWeek (t / ticksPerDay * ticksPerDay) = dayOfWeek t := by
    rw [dayOfWeek, Int.mul_ediv_cancel _ (by decide), dayOfWeek]
  have hwindow : (trigger.window (t / ticksPerDay)).Contains t ↔
      (trigger.fromTime.any fun time => t < combineDate t time) = false ∧
        (trigger.toTime.any fun time => t > combineDate t time) = false := by
    rw [Window.Contains, window]
    refine and_congr ?_ ?_
    · cases trigger.fromTime with
      | none =>
          simp only [Option.map_none, Option.getD_none, Option.any_none, iff_true]
          exact Int.ediv_mul_le t (by decide)
      | some time => simp [← combineDate_day]
    · cases trigger.toTime with
      | none =>
          simp only [Option.map_none, Option.getD_none, Option.any_none, iff_true,
            WithTop.coe_le_coe]
          show (t : ℤ) ≤ t / 864000000000 * 864000000000 + 864000000000 - 1
          omega
      | some time => simp [← combineDate_day]
  constructor
  · intro h
    refine ⟨t / ticksPerDay, ?_⟩
    rw [hweek, hwindow]
    simp only [isTriggered] at h
    split_ifs at h with hday hfrom hto
    exact ⟨not_not.mp hday, by simpa using hfrom, by simpa using hto⟩
  · rintro ⟨q, hday, hin⟩
    obtain rfl := day_of_contains hin
    rw [hweek] at hday
    obtain ⟨hfrom, hto⟩ := hwindow.mp hin
    simp [isTriggered, hday, hfrom, hto]

/-- **A collector is triggered in its windows.** -/
lemma TriggerCollector.isTriggered_iff (collector : TriggerCollector) (date t : DateTime) :
    collector.isTriggered date t = true ↔ ∃ w, collector.HoldsIn date w ∧ w.Contains t := by
  have hone (trigger : ITrigger) : trigger.isTriggered date t = true ↔
      ∃ w, trigger.HoldsIn date w ∧ w.Contains t := by
    cases trigger with
    | day trigger =>
        simp only [ITrigger.isTriggered, DayTrigger.isTriggered_iff, ITrigger.HoldsIn]
        constructor
        · rintro ⟨q, hq, hin⟩
          exact ⟨_, ⟨q, hq, rfl⟩, hin⟩
        · rintro ⟨_, ⟨q, hq, rfl⟩, hin⟩
          exact ⟨q, hq, hin⟩
    | ringDelay trigger =>
        simp only [ITrigger.isTriggered, isTriggered_ringDelay, ITrigger.HoldsIn, exists_eq_left,
          Window.Contains, le_top, and_true]
        exact ⟨Int.add_le_of_le_sub_left, Int.le_sub_left_of_add_le⟩
  simp only [isTriggered, List.any_eq_true, hone, HoldsIn]
  constructor
  · rintro ⟨trigger, hmem, w, hw, hin⟩
    exact ⟨w, ⟨trigger, hmem, hw⟩, hin⟩
  · rintro ⟨w, ⟨trigger, hmem, hw⟩, hin⟩
    exact ⟨trigger, hmem, w, hw, hin⟩

/-! ## Packs -/

section Packs

variable {τ : Type*}

/-- The number of triggers that the loop of `TriggeredExecution` asks. -/
def asked (ask : ℕ → τ → Bool) : ℕ → List τ → ℕ
  | _, [] => 0
  | i, trigger :: rest => if !ask i trigger then 1 else asked ask (i + 1) rest + 1

/-- The loop asks all triggers, or up to the first one that is not triggered. -/
lemma triggeredFrom_cases (ask : ℕ → τ → Bool) (i : ℕ) (triggers : List τ) :
    (triggeredFrom ask i triggers = true ∧ asked ask i triggers = triggers.length) ∨
    (triggeredFrom ask i triggers = false ∧ ∃ j trigger, triggers[j]? = some trigger ∧
      ask (i + j) trigger = false ∧ asked ask i triggers = j + 1) := by
  induction triggers generalizing i with
  | nil => exact Or.inl ⟨rfl, rfl⟩
  | cons trigger rest ih =>
      cases h : ask i trigger with
      | false => exact Or.inr ⟨by simp [triggeredFrom, h], 0, trigger, rfl, h, by simp [asked, h]⟩
      | true =>
          obtain ⟨hall, hasked⟩ | ⟨hsome, j, other, hj, hask, hasked⟩ := ih (i + 1)
          · exact Or.inl ⟨by simp [triggeredFrom, h, hall], by simp [asked, h, hasked]⟩
          · refine Or.inr ⟨by simp [triggeredFrom, h, hsome], j + 1, other, hj, ?_,
              by simp [asked, h, hasked]⟩
            rw [← hask, Nat.add_right_comm]
            rfl

end Packs

/-- The answer of the `i`th trigger of a pack, at the `i`th reading of the clock. -/
def askAt (date : DateTime) (reading : ℕ → DateTime) (i : ℕ) (trigger : TriggerCollector) : Bool :=
  trigger.isTriggered date (reading i)

section Together

variable (pack : ActionPack TriggerCollector) (date : DateTime) (reading : ℕ → DateTime)

/-- The actions of the pack are executed. -/
def Fires : Prop := triggeredFrom (askAt date reading) 0 pack.triggers = true

/-- The instant is between the first and the last reading that is made. -/
def Spans (t : DateTime) : Prop :=
  reading 0 ≤ t ∧ t ≤ reading (asked (askAt date reading) 0 pack.triggers - 1)

/-- All triggers of the pack are satisfied at one instant. -/
def AllAt (t : DateTime) : Prop := ∀ trigger ∈ pack.triggers, trigger.isTriggered date t = true

/-- A pack fires only if its triggers held together, and surely if they did so all the time. -/
structure FiresTogether : Prop where
  together : Fires pack date reading → ∃ t, Spans pack date reading t ∧ AllAt pack date t
  surely : (∀ t, Spans pack date reading t → AllAt pack date t) → Fires pack date reading

variable {pack date reading}

/-- **A pack fires with its triggers together** if and only if one of the readings is in no window
of its trigger, or one window can be chosen for each trigger so that none of them closes before
another one opens, none closes before the first reading, and none opens after the last. -/
theorem fires_together_iff (hmono : ∀ i j, i ≤ j → reading i ≤ reading j) :
    FiresTogether pack date reading ↔
      (∃ (i : ℕ) (trigger : TriggerCollector), pack.triggers[i]? = some trigger ∧
        ∀ w, trigger.HoldsIn date w → ¬ w.Contains (reading i)) ∨
      ∃ windows, List.Forall₂ (TriggerCollector.HoldsIn date) pack.triggers windows ∧
        Window.Overlap (⟨reading 0, reading (pack.triggers.length - 1)⟩ :: windows) := by
  -- the two conditions, in the terms of the code
  have hmissed (i : ℕ) (trigger : TriggerCollector) :
      (∀ w, trigger.HoldsIn date w → ¬ w.Contains (reading i)) ↔
        trigger.isTriggered date (reading i) = false := by
    rw [← Bool.not_eq_true, TriggerCollector.isTriggered_iff]
    simp
  have htogether : (∃ windows, List.Forall₂ (TriggerCollector.HoldsIn date) pack.triggers windows ∧
      Window.Overlap (⟨reading 0, reading (pack.triggers.length - 1)⟩ :: windows)) ↔
      ∃ t, (reading 0 ≤ t ∧ t ≤ reading (pack.triggers.length - 1)) ∧ AllAt pack date t := by
    rw [← Window.exists_together_iff]
    simp only [AllAt, TriggerCollector.isTriggered_iff, Window.Contains, WithTop.coe_le_coe]
  simp only [hmissed, htogether]
  obtain ⟨hfires, hasked⟩ | ⟨hstops, j, trigger, hj, hask, hasked⟩ :=
    triggeredFrom_cases (askAt date reading) 0 pack.triggers
  · have heach : ¬ ∃ (i : ℕ) (trigger : TriggerCollector), pack.triggers[i]? = some trigger ∧
        trigger.isTriggered date (reading i) = false := by
      rintro ⟨i, trigger, hi, hfalse⟩
      obtain ⟨hlt, rfl⟩ := List.getElem?_eq_some_iff.mp hi
      have htrue := (triggeredFrom_iff _ _ _).mp hfires i hlt
      rw [Nat.zero_add] at htrue
      exact absurd (htrue.symm.trans hfalse) (by simp)
    rw [or_iff_right heach, ← hasked]
    exact ⟨fun h => h.together hfires, fun h => ⟨fun _ => h, fun _ => hfires⟩⟩
  · rw [Nat.zero_add] at hask
    refine iff_of_true ⟨fun hfires => ?_, fun hall => ?_⟩ (Or.inl ⟨j, trigger, hj, hask⟩)
    · exact absurd (hstops.symm.trans hfires) (by simp)
    · -- the reading at which the loop stopped is one of the instants
      have hspans : Spans pack date reading (reading j) := by
        refine ⟨hmono 0 j (Nat.zero_le j), ?_⟩
        rw [hasked]
        exact Int.le_refl _
      have htrue := hall _ hspans trigger (List.mem_of_getElem? hj)
      exact absurd (htrue.symm.trans hask) (by simp)

end Together

/-- A pack that waits for each of some days. -/
def packOfDays (days : List Int32) : ActionPack TriggerCollector where
  name := "days"
  triggers := days.map fun day => ⟨none, [.day { name := none, day }]⟩
  actions := [.accept]

/-- A single day, at a clock that stands still. -/
theorem fires_together_iff_single : FiresTogether (packOfDays [1]) 0 fun _ => 0 := by
  refine (fires_together_iff fun _ _ _ => Int.le_refl _).mpr
    (.inr ⟨[DayTrigger.window { name := none, day := 1 } 0], ?_, ?_⟩)
  · exact .cons ⟨_, List.mem_singleton_self _, 0, by decide, rfl⟩ .nil
  · intro w hw w' hw'
    simp only [List.mem_cons, List.not_mem_nil, or_false] at hw hw'
    rcases hw with rfl | rfl <;> rcases hw' with rfl | rfl <;>
      exact WithTop.coe_le_coe.mpr (by decide)

/-- The last instant of a Monday, and the first of the Tuesday behind it. -/
def aroundMidnight (i : ℕ) : DateTime := if i = 0 then ticksPerDay - 1 else ticksPerDay

/-- **A pack for Mondays that are Tuesdays fires at midnight.** -/
theorem fires_between_days :
    (∀ i j, i ≤ j → aroundMidnight i ≤ aroundMidnight j) ∧
      Fires (packOfDays [1, 2]) 0 aroundMidnight ∧
      (∀ t, ¬ AllAt (packOfDays [1, 2]) 0 t) ∧
      ¬ FiresTogether (packOfDays [1, 2]) 0 aroundMidnight := by
  have hfires : Fires (packOfDays [1, 2]) 0 aroundMidnight := by
    rw [Fires]
    decide
  have hnever : ∀ t, ¬ AllAt (packOfDays [1, 2]) 0 t := by
    intro t h
    have hday : ∀ day ∈ [(1 : Int32), 2], dayOfWeek t = day := by
      intro day hmem
      have htriggered := h ⟨none, [.day { name := none, day }]⟩ (List.mem_map_of_mem hmem)
      simpa [TriggerCollector.isTriggered, ITrigger.isTriggered, DayTrigger.isTriggered]
        using htriggered
    exact absurd ((hday 1 (by simp)).symm.trans (hday 2 (by simp))) (by decide)
  refine ⟨?_, hfires, hnever, fun h => ?_⟩
  · intro i j hij
    rcases i with _ | i <;> rcases j with _ | j
    · exact Int.le_refl _
    · exact show ticksPerDay - 1 ≤ ticksPerDay by decide
    · exact absurd hij (Nat.not_succ_le_zero i)
    · exact Int.le_refl _
  · obtain ⟨t, -, hall⟩ := h.together hfires
    exact hnever t hall

end TAM
