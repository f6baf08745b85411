import AnsweringMachine.Configuration.Triggers
import AnsweringMachine.Library.Text

/-!
# The language of day triggers

A day trigger is documented as an English day name in any case, alone or followed by `from H:M`, or
by `from H:M to H:M`, with single spaces in between.  `DayText` is that language, together with what
each of its texts says.

The constructor goes through the tokens of a text, each of which it leaves to the runtime or to
`ParseTime`, and so it takes more than the language: a first token that `Enum.Parse` knows but that
is no day name, such as a number or a list of names, and any tokens behind the second time.  `Taken`
is the language it takes (`exists_parse_iff`), and `Overread` is what that has more
(`language_iff`).

`Enum.Parse` is here as it is documented (`enumParse`), together with the texts it takes
(`EnumText`); what the runtime does with integers stays a parameter.
-/

namespace TAM

open Text

/-! ## Names of days -/

/-- The days, in the order of `DayOfWeek`. -/
def dayNames : List String :=
  ["Sunday", "Monday", "Tuesday", "Wednesday", "Thursday", "Friday", "Saturday"]

/-- A text without regard to case. -/
def folded (name : List Char) : List Char := name.map Char.toLower

/-- The number of the day of a given name. -/
def dayNumber (name : List Char) : Option ℕ :=
  dayNames.findIdx? fun day => folded name = folded day.toList

/-- The names of a list, its values taken together. -/
def parseNames (value : List Char) : Except ConfigException Int32 :=
  (value.splitOn ',').foldlM
    (fun result part =>
      match dayNumber (trim isWhiteSpace part) with
      | some number => .ok (result ||| Int32.ofNat number)
      | none => .error (.ArgumentException
          ("Requested value '" ++ String.ofList value ++ "' was not found.")))
    0

/-- `Enum.Parse` at `DayOfWeek`, without regard to case: white space around the value does not
count; what looks like a number is one, if it can be parsed; everything else is a list of names,
separated by commas. -/
def enumParse (parseInt : String → Except ConfigException Int32) (text : String) :
    Except ConfigException Int32 :=
  match trim isWhiteSpace text.toList with
  | [] => .error (.ArgumentException "Must specify valid information for parsing in the string.")
  | first :: rest =>
      if first.isDigit ∨ first = '-' ∨ first = '+' then
        match parseInt (String.ofList (first :: rest)) with
        | .ok number => .ok number
        | .error .OverflowException => .error .OverflowException
        | .error _ => parseNames (first :: rest)
      else parseNames (first :: rest)

/-- A letter of the alphabet, in either case. -/
def IsLetter (c : Char) : Prop :=
  (65 ≤ c.toNat ∧ c.toNat ≤ 90) ∨ (97 ≤ c.toNat ∧ c.toNat ≤ 122)

lemma isLetter_of_toLower {c : Char} (h : 97 ≤ c.toLower.toNat ∧ c.toLower.toNat ≤ 122) :
    IsLetter c := by
  unfold Char.toLower at h
  split at h
  · rename_i hc
    have hlow : (65 : ℕ) ≤ c.toNat := UInt32.le_iff_toNat_le.mp hc.1
    have hhigh : c.toNat ≤ 90 := UInt32.le_iff_toNat_le.mp hc.2
    exact Or.inl ⟨hlow, hhigh⟩
  · exact Or.inr h

/-- The name of a day has letters only. -/
lemma isLetter_of_dayNumber {name : List Char} {n : ℕ} (h : dayNumber name = some n) :
    name ≠ [] ∧ ∀ c ∈ name, IsLetter c := by
  have hdays : ∀ day ∈ dayNames, folded day.toList ≠ [] ∧
      (folded day.toList).all (fun c => 97 ≤ c.toNat && c.toNat ≤ 122) = true := by decide
  obtain ⟨hn, hfold, -⟩ := List.findIdx?_eq_some_iff_getElem.mp h
  rw [decide_eq_true_eq] at hfold
  obtain ⟨hne, hletters⟩ := hdays _ (List.getElem_mem hn)
  rw [← hfold] at hne hletters
  refine ⟨fun hnil => hne (by rw [hnil]; rfl), fun c hc => isLetter_of_toLower ?_⟩
  have hletter := List.all_eq_true.mp hletters _ (List.mem_map_of_mem hc)
  rwa [Bool.and_eq_true, decide_eq_true_eq, decide_eq_true_eq] at hletter

lemma IsLetter.not_white {c : Char} (h : IsLetter c) : isWhiteSpace c = false := by
  unfold IsLetter at h
  rw [isWhiteSpace, decide_eq_false_iff_not]
  simp only [List.mem_cons, List.not_mem_nil, or_false]
  omega

lemma IsLetter.not_digit {c : Char} (h : IsLetter c) : c.isDigit = false := by
  have hle : ¬ c.toNat ≤ 57 := by
    unfold IsLetter at h
    omega
  have hval : ¬ c.val ≤ '9'.val := fun hc => hle (UInt32.le_iff_toNat_le.mp hc)
  rw [Char.isDigit, Bool.and_eq_false_iff]
  exact Or.inr (decide_eq_false hval)

/-- A character that is not a letter is another one. -/
lemma IsLetter.ne {c d : Char} (h : IsLetter c) (hd : ¬ (65 ≤ d.toNat)) : c ≠ d := by
  rintro rfl
  unfold IsLetter at h
  omega

/-- **`Enum.Parse` knows the names of the days.** -/
lemma enumParse_of_dayNumber {text : String} {n : ℕ} (h : dayNumber text.toList = some n)
    (parseInt : String → Except ConfigException Int32) :
    enumParse parseInt text = .ok (Int32.ofNat n) := by
  obtain ⟨hne, hletters⟩ := isLetter_of_dayNumber h
  have htrim : trim isWhiteSpace text.toList = text.toList :=
    trim_eq_self fun c hc => (hletters c hc).not_white
  have hnames : parseNames text.toList = .ok (Int32.ofNat n) := by
    have hsingle : text.toList.splitOn ',' = [text.toList] :=
      splitOn_eq_iff.mpr ⟨by simp, by simpa using fun hc => (hletters _ hc).ne (by decide) rfl,
        by simp [List.intercalate]⟩
    simp only [parseNames, hsingle, List.foldlM_cons, List.foldlM_nil, htrim, h, Int32.zero_or]
    rfl
  obtain ⟨first, rest, hfirst⟩ := List.exists_cons_of_ne_nil hne
  have hletter : IsLetter first := hletters first (by simp [hfirst])
  have hsign : ¬ (first.isDigit = true ∨ first = '-' ∨ first = '+') := by
    simp [hletter.not_digit, hletter.ne (d := '-') (by decide), hletter.ne (d := '+') (by decide)]
  rw [hfirst] at hnames htrim
  simp only [enumParse, hfirst, htrim, if_neg hsign, hnames]

/-- The texts `Enum.Parse` takes at `DayOfWeek`, white space around them not counting: a number, or
names of days separated by commas. -/
def EnumText (parseInt : String → Except ConfigException Int32) (text : String) : Prop :=
  (∃ first rest number, trim isWhiteSpace text.toList = first :: rest ∧
    (first.isDigit ∨ first = '-' ∨ first = '+') ∧
    parseInt (String.ofList (first :: rest)) = .ok number) ∨
  ∀ part ∈ (trim isWhiteSpace text.toList).splitOn ',', dayNumber (trim isWhiteSpace part) ≠ none

/-- A list of names is read if each of them is the name of a day. -/
lemma exists_parseNames_iff {value : List Char} :
    (∃ number, parseNames value = .ok number) ↔
      ∀ part ∈ value.splitOn ',', dayNumber (trim isWhiteSpace part) ≠ none := by
  rw [parseNames]
  generalize value.splitOn ',' = parts
  generalize (0 : Int32) = result
  induction parts generalizing result with
  | nil => simpa using ⟨result, rfl⟩
  | cons part parts ih =>
      simp only [List.foldlM_cons, Except.bind_eq_ok_iff, List.forall_mem_cons]
      cases hday : dayNumber (trim isWhiteSpace part) with
      | none => simp
      | some number =>
          rw [← ih (result ||| Int32.ofNat number)]
          simp

/-- A list of names has no digits and signs in it. -/
lemma not_signed_of_names {value : List Char} {c : Char}
    (h : ∀ part ∈ value.splitOn ',', dayNumber (trim isWhiteSpace part) ≠ none) (hc : c ∈ value) :
    ¬ (c.isDigit = true ∨ c = '-' ∨ c = '+') := by
  have hchar : c = ',' ∨ isWhiteSpace c = true ∨ IsLetter c := by
    rcases exists_mem_splitOn (c := ',') hc with hcomma | ⟨part, hpart, hmem⟩
    · exact .inl hcomma
    · obtain ⟨n, hn⟩ := Option.ne_none_iff_exists'.mp (h part hpart)
      rcases mem_trim_or isWhiteSpace hmem with hmem | hwhite
      · exact .inr (.inr ((isLetter_of_dayNumber hn).2 c hmem))
      · exact .inr (.inl hwhite)
  rcases hchar with rfl | hwhite | hletter
  · decide
  · rintro (hdigit | rfl | rfl)
    · rw [Char.isDigit, Bool.and_eq_true, decide_eq_true_eq, decide_eq_true_eq] at hdigit
      have hlow : (48 : ℕ) ≤ c.toNat := UInt32.le_iff_toNat_le.mp hdigit.1
      have hhigh : c.toNat ≤ 57 := UInt32.le_iff_toNat_le.mp hdigit.2
      rw [isWhiteSpace, decide_eq_true_eq] at hwhite
      simp only [List.mem_cons, List.not_mem_nil, or_false] at hwhite
      omega
    · exact absurd hwhite (by decide)
    · exact absurd hwhite (by decide)
  · simp [hletter.not_digit, hletter.ne (d := '-') (by decide), hletter.ne (d := '+') (by decide)]

/-- **The texts `Enum.Parse` takes.** -/
lemma exists_enumParse_iff {parseInt : String → Except ConfigException Int32} {text : String} :
    (∃ number, enumParse parseInt text = .ok number) ↔ EnumText parseInt text := by
  rw [enumParse, EnumText]
  generalize trim isWhiteSpace text.toList = value
  cases value with
  | nil =>
      have hnil : dayNumber (trim isWhiteSpace []) = none := by decide
      simp [hnil]
  | cons first rest =>
      dsimp only
      rw [← exists_parseNames_iff]
      by_cases hsign : first.isDigit = true ∨ first = '-' ∨ first = '+'
      · rw [if_pos hsign]
        -- such a text is no list of names
        have hnames : ¬ ∃ number, parseNames (first :: rest) = .ok number := fun h =>
          not_signed_of_names (exists_parseNames_iff.mp h) (by simp) hsign
        rw [or_iff_left hnames]
        constructor
        · rintro ⟨number, h⟩
          cases hparse : parseInt (String.ofList (first :: rest)) with
          | ok n => exact ⟨first, rest, n, rfl, hsign, hparse⟩
          | error e =>
              rw [hparse] at h
              cases e with
              | OverflowException => exact absurd h (by simp)
              | _ => exact absurd ⟨number, h⟩ hnames
        · rintro ⟨_, _, number, heq, -, hparse⟩
          obtain ⟨rfl, rfl⟩ := List.cons.inj heq
          exact ⟨number, by rw [hparse]⟩
      · rw [if_neg hsign]
        refine (or_iff_right ?_).symm
        rintro ⟨_, _, number, heq, hsign', -⟩
        obtain ⟨rfl, rfl⟩ := List.cons.inj heq
        exact hsign hsign'

/-! ## The language -/

/-- `H:M`, with integers that the runtime parses. -/
def Clock (platform : Platform) (token : String) (hour minute : Int32) : Prop :=
  ∃ h m, token = h ++ ":" ++ m ∧ ':' ∉ h.toList ∧ ':' ∉ m.toList ∧
    platform.tryParse h = some hour ∧ platform.tryParse m = some minute ∧
    0 ≤ hour ∧ hour < 24 ∧ 0 ≤ minute ∧ minute < 60

/-- The documented texts, and what each of them says: the number of the day, and the times, if they
are given. -/
inductive DayText (platform : Platform) :
    String → ℕ → Option (Int32 × Int32) → Option (Int32 × Int32) → Prop
  | day {d : String} {n : ℕ} (hd : dayNumber d.toList = some n) : DayText platform d n none none
  | dayFrom {d t : String} {n : ℕ} {h m : Int32} (hd : dayNumber d.toList = some n)
      (ht : Clock platform t h m) (hspace : ' ' ∉ t.toList) :
      DayText platform (d ++ " from " ++ t) n (some (h, m)) none
  | dayFromTo {d t t' : String} {n : ℕ} {h m h' m' : Int32} (hd : dayNumber d.toList = some n)
      (ht : Clock platform t h m) (hspace : ' ' ∉ t.toList)
      (ht' : Clock platform t' h' m') (hspace' : ' ' ∉ t'.toList) :
      DayText platform (d ++ " from " ++ t ++ " to " ++ t') n (some (h, m)) (some (h', m'))

/-- Splitting a string, as a text put together. -/
lemma split_eq_iff {text : String} {c : Char} {tokens : List String} :
    split text c = tokens ↔ tokens ≠ [] ∧ (∀ token ∈ tokens, c ∉ token.toList) ∧
      text.toList = [c].intercalate (tokens.map String.toList) := by
  have hmap : split text c = tokens ↔ text.toList.splitOn c = tokens.map String.toList := by
    rw [split]
    constructor
    · rintro rfl
      simp
    · intro h
      rw [h]
      simp
  rw [hmap, splitOn_eq_iff]
  simp

/-- The time of day on the day the configuration is read. -/
def clockTime (platform : Platform) (clock : Int32 × Int32) : DateTime :=
  midnight platform.now + clock.1.toInt * ticksPerHour + clock.2.toInt * ticksPerMinute

/-- Two tokens. -/
lemma split_colon_iff {token h m : String} :
    split token ':' = [h, m] ↔ token = h ++ ":" ++ m ∧ ':' ∉ h.toList ∧ ':' ∉ m.toList := by
  have htext : token = h ++ ":" ++ m ↔ token.toList = h.toList ++ ':' :: m.toList := by
    rw [← String.toList_inj]
    simp [String.toList_append]
  rw [split_eq_iff, htext]
  simp [List.intercalate, and_comm]

lemma Tokenizer.nextToken_eq_ok_iff {tokenizer tokenizer' : Tokenizer} {token : String} :
    tokenizer.nextToken = .ok (token, tokenizer') ↔
      tokenizer.tokens[tokenizer.taken]? = some token ∧
        tokenizer' = { tokenizer with taken := tokenizer.taken + 1 } := by
  cases h : tokenizer.tokens[tokenizer.taken]? with
  | none => simp [nextToken, h]
  | some first => simp [nextToken, h, eq_comm]

namespace DayTrigger

variable {platform : Platform} {triggerText : String}

/-- **`ParseTime` takes times of the clock.** -/
lemma parseTime_eq_ok_iff {token : String} {time : DateTime} :
    parseTime platform token triggerText = .ok time ↔
      ∃ hour minute, Clock platform token hour minute ∧
        time = clockTime platform (hour, minute) := by
  constructor
  · intro h
    unfold parseTime at h
    split at h
    · rename_i hours minutes hsplit
      obtain ⟨htoken, hcolon, hcolon'⟩ := split_colon_iff.mp hsplit
      dsimp only at h
      split at h
      · rename_i hour minute hhour hminute
        split_ifs at h with hrange
        simp only [not_or, Int32.not_lt, ge_iff_le, Int32.not_le] at hrange
        obtain ⟨h0, h24, m0, m60⟩ := hrange
        exact ⟨hour, minute, ⟨hours, minutes, htoken, hcolon, hcolon', hhour, hminute, h0, h24, m0,
          m60⟩, (Except.ok.inj h).symm⟩
      · exact absurd h (by simp)
    · exact absurd h (by simp)
  · rintro ⟨hour, minute, ⟨h, m, htoken, hcolon, hcolon', hhour, hminute, h0, h24, m0, m60⟩, rfl⟩
    have hrange : ¬ (hour < 0 ∨ hour ≥ 24 ∨ minute < 0 ∨ minute ≥ 60) := by
      simp only [not_or, Int32.not_lt, ge_iff_le, Int32.not_le]
      exact ⟨h0, h24, m0, m60⟩
    simp only [parseTime, split_colon_iff.mpr ⟨htoken, hcolon, hcolon'⟩, hhour, hminute,
      if_neg hrange]
    rfl

/-- A word and the time behind it. -/
lemma parseClause_eq_ok_iff {word : String} {tokens : List String} {i : ℕ} {time : DateTime}
    {tokenizer : Tokenizer} :
    parseClause platform word triggerText ⟨tokens, i⟩ = .ok (time, tokenizer) ↔
      ∃ token, tokens[i]? = some word ∧ tokens[i + 1]? = some token ∧
        parseTime platform token triggerText = .ok time ∧ tokenizer = ⟨tokens, i + 2⟩ := by
  rw [parseClause, Except.bind_eq_ok_iff]
  constructor
  · rintro ⟨⟨first, tokenizer₁⟩, hfirst, h⟩
    obtain ⟨hword, rfl⟩ := Tokenizer.nextToken_eq_ok_iff.mp hfirst
    dsimp only at h
    split_ifs at h with hw
    subst hw
    obtain ⟨⟨token, tokenizer₂⟩, hnext, h⟩ := Except.bind_eq_ok_iff.mp h
    obtain ⟨htoken, rfl⟩ := Tokenizer.nextToken_eq_ok_iff.mp hnext
    obtain ⟨time', htime, h⟩ := Except.bind_eq_ok_iff.mp h
    cases Except.ok.inj h
    exact ⟨token, hword, htoken, htime, rfl⟩
  · rintro ⟨token, hword, htoken, htime, rfl⟩
    refine ⟨(word, ⟨tokens, i + 1⟩), Tokenizer.nextToken_eq_ok_iff.mpr ⟨hword, rfl⟩, ?_⟩
    dsimp only
    rw [if_pos rfl, Except.bind_eq_ok_iff]
    refine ⟨(token, ⟨tokens, i + 2⟩), Tokenizer.nextToken_eq_ok_iff.mpr ⟨htoken, rfl⟩, ?_⟩
    exact Except.bind_eq_ok_iff.mpr ⟨time, htime, rfl⟩

/-- The shapes of the tokens behind the day, and the times they give. -/
inductive Clauses (platform : Platform) (triggerText : String) :
    List String → Option DateTime → Option DateTime → Prop
  | none : Clauses platform triggerText [] none none
  | one {t : String} {time : DateTime} (ht : parseTime platform t triggerText = .ok time) :
      Clauses platform triggerText ["from", t] (some time) none
  | two {t t' : String} {time time' : DateTime} (more : List String)
      (ht : parseTime platform t triggerText = .ok time)
      (ht' : parseTime platform t' triggerText = .ok time') :
      Clauses platform triggerText ("from" :: t :: "to" :: t' :: more) (some time) (some time')

lemma parseClauses_eq_ok_iff {name : Option String} {day : Int32} {d : String} {rest : List String}
    {trigger : DayTrigger} :
    parseClauses platform triggerText name day ⟨d :: rest, 1⟩ = .ok trigger ↔
      ∃ fromTime toTime, Clauses platform triggerText rest fromTime toTime ∧
        trigger = { name, day, fromTime, toTime } := by
  constructor
  · intro h
    rw [parseClauses] at h
    split_ifs at h with hnone
    · obtain rfl : rest = [] := by simpa [Tokenizer.tokenAvailable] using hnone
      exact ⟨none, none, .none, (Except.ok.inj h).symm⟩
    obtain ⟨⟨time, tokenizer⟩, hfrom, hone⟩ := Except.bind_eq_ok_iff.mp h
    obtain ⟨t, hword, ht, htime, rfl⟩ := parseClause_eq_ok_iff.mp hfrom
    obtain ⟨more, rfl⟩ : ∃ more, rest = "from" :: t :: more := by
      rcases rest with _ | ⟨a, _ | ⟨b, more⟩⟩ <;> simp_all
    dsimp only at hone
    split_ifs at hone with hlast
    · obtain rfl : more = [] := by simpa [Tokenizer.tokenAvailable] using hlast
      exact ⟨some time, none, .one htime, (Except.ok.inj hone).symm⟩
    obtain ⟨⟨time', tokenizer⟩, hto, htwo⟩ := Except.bind_eq_ok_iff.mp hone
    obtain ⟨t', hword', ht', htime', rfl⟩ := parseClause_eq_ok_iff.mp hto
    obtain ⟨more, rfl⟩ : ∃ more', more = "to" :: t' :: more' := by
      rcases more with _ | ⟨a, _ | ⟨b, more⟩⟩ <;> simp_all
    exact ⟨some time, some time', .two more htime htime', (Except.ok.inj htwo).symm⟩
  · rintro ⟨fromTime, toTime, hclauses, rfl⟩
    rw [parseClauses]
    cases hclauses with
    | none => rfl
    | @one t time ht =>
        rw [if_neg (by simp [Tokenizer.tokenAvailable])]
        refine Except.bind_eq_ok_iff.mpr ⟨(time, ⟨[d, "from", t], 3⟩), ?_, rfl⟩
        exact parseClause_eq_ok_iff.mpr ⟨t, rfl, rfl, ht, rfl⟩
    | @two t t' time time' more ht ht' =>
        rw [if_neg (by simp [Tokenizer.tokenAvailable])]
        refine Except.bind_eq_ok_iff.mpr
          ⟨(time, ⟨d :: "from" :: t :: "to" :: t' :: more, 3⟩), ?_, ?_⟩
        · exact parseClause_eq_ok_iff.mpr ⟨t, rfl, rfl, ht, rfl⟩
        · dsimp only
          rw [if_neg (by simp [Tokenizer.tokenAvailable])]
          refine Except.bind_eq_ok_iff.mpr
            ⟨(time', ⟨d :: "from" :: t :: "to" :: t' :: more, 5⟩), ?_, rfl⟩
          exact parseClause_eq_ok_iff.mpr ⟨t', rfl, rfl, ht', rfl⟩

/-- **The texts the constructor takes**, and the trigger it makes of them. -/
theorem parse_eq_ok_iff {name : Option String} {trigger : DayTrigger} :
    parse platform triggerText name = .ok trigger ↔
      ∃ d rest day fromTime toTime, split triggerText ' ' = d :: rest ∧
        platform.parseDayOfWeek d = .ok day ∧ Clauses platform triggerText rest fromTime toTime ∧
        trigger = { name, day, fromTime, toTime } := by
  obtain ⟨d, rest, hsplit⟩ : ∃ d rest, split triggerText ' ' = d :: rest :=
    List.exists_cons_of_ne_nil (split_eq_iff.mp rfl).1
  have hparse : parse platform triggerText name =
      platform.parseDayOfWeek d >>= fun day =>
        parseClauses platform triggerText name day ⟨d :: rest, 1⟩ := by
    simp only [parse, Tokenizer.ofText, Tokenizer.nextToken, hsplit]
    rfl
  rw [hparse, Except.bind_eq_ok_iff]
  simp only [parseClauses_eq_ok_iff, hsplit]
  constructor
  · rintro ⟨day, hday, fromTime, toTime, hclauses, rfl⟩
    exact ⟨d, rest, day, fromTime, toTime, rfl, hday, hclauses, rfl⟩
  · rintro ⟨d', rest', day, fromTime, toTime, heq, hday, hclauses, rfl⟩
    obtain ⟨rfl, rfl⟩ := List.cons.inj heq
    exact ⟨day, hday, fromTime, toTime, hclauses, rfl⟩

/-! ## What is taken and not in the language -/

/-- The tokens behind the day in a documented text. -/
inductive Phrases (platform : Platform) :
    List String → Option (Int32 × Int32) → Option (Int32 × Int32) → Prop
  | none : Phrases platform [] none none
  | one {t : String} {h m : Int32} (ht : Clock platform t h m) :
      Phrases platform ["from", t] (some (h, m)) none
  | two {t t' : String} {h m h' m' : Int32} (ht : Clock platform t h m)
      (ht' : Clock platform t' h' m') :
      Phrases platform ["from", t, "to", t'] (some (h, m)) (some (h', m'))

/-- A text is that of its tokens. -/
lemma eq_of_split {text : String} {tokens : List String} {s : String}
    (h : split text ' ' = tokens) (hs : s.toList = [' '].intercalate (tokens.map String.toList)) :
    text = s := by
  rw [← String.toList_inj, hs]
  exact (split_eq_iff.mp h).2.2

/-- **A documented text, token by token.** -/
lemma dayText_iff {text : String} {n : ℕ} {f t : Option (Int32 × Int32)} :
    DayText platform text n f t ↔
      ∃ d rest, split text ' ' = d :: rest ∧ dayNumber d.toList = some n ∧
        Phrases platform rest f t := by
  constructor
  · intro h
    have hspaced : ∀ {d : String}, dayNumber d.toList = some n → ' ' ∉ d.toList := fun hd hc =>
      ((isLetter_of_dayNumber hd).2 _ hc).ne (by decide) rfl
    cases h with
    | day hd =>
        refine ⟨_, _, split_eq_iff.mpr ⟨by simp, by simpa using hspaced hd, ?_⟩, hd, .none⟩
        simp [List.intercalate]
    | dayFrom hd ht hspace =>
        refine ⟨_, _, split_eq_iff.mpr ⟨by simp, ?_, ?_⟩, hd, .one ht⟩
        · simp [hspaced hd, hspace]
        · simp [List.intercalate, String.toList_append]
    | dayFromTo hd ht hspace ht' hspace' =>
        refine ⟨_, _, split_eq_iff.mpr ⟨by simp, ?_, ?_⟩, hd, .two ht ht'⟩
        · simp [hspaced hd, hspace, hspace']
        · simp [List.intercalate, String.toList_append]
  · rintro ⟨d, rest, hsplit, hd, hrest⟩
    have htokens := (split_eq_iff.mp hsplit).2.1
    cases hrest with
    | none =>
        rw [eq_of_split hsplit (s := d) (by simp [List.intercalate])]
        exact .day hd
    | @one t h m ht =>
        rw [eq_of_split hsplit (s := d ++ " from " ++ t)
          (by simp [List.intercalate, String.toList_append])]
        exact .dayFrom hd ht (htokens t (by simp))
    | @two t t' h m h' m' ht ht' =>
        rw [eq_of_split hsplit (s := d ++ " from " ++ t ++ " to " ++ t')
          (by simp [List.intercalate, String.toList_append])]
        exact .dayFromTo hd ht (htokens t (by simp)) ht' (htokens t' (by simp))

/-- A time of the clock. -/
def IsClock (platform : Platform) (token : String) : Prop :=
  ∃ hour minute, Clock platform token hour minute

/-- The tokens that are taken behind the day: none, `from` and a time, or `from` and a time, `to`
and a time, and anything behind them. -/
def TakenClauses (platform : Platform) (rest : List String) : Prop :=
  rest = [] ∨ (∃ t, rest = ["from", t] ∧ IsClock platform t) ∨
    ∃ t t' more, rest = "from" :: t :: "to" :: t' :: more ∧ IsClock platform t ∧ IsClock platform t'

/-- **The language the constructor takes**, token by token. -/
def Taken (platform : Platform) (text : String) : Prop :=
  ∃ d rest, split text ' ' = d :: rest ∧ EnumText platform.parseInt d ∧ TakenClauses platform rest

/-- What is taken and not in the language: the first token is taken but is no day name, or there are
tokens behind the second time. -/
def Overread (platform : Platform) (text : String) : Prop :=
  ∃ d rest, split text ' ' = d :: rest ∧ EnumText platform.parseInt d ∧ TakenClauses platform rest ∧
    (dayNumber d.toList = none ∨ 4 < rest.length)

/-- Such tokens give times, and no others do. -/
lemma takenClauses_iff (triggerText : String) {rest : List String} : TakenClauses platform rest ↔
    ∃ fromTime toTime, Clauses platform triggerText rest fromTime toTime := by
  have htime {t : String} : IsClock platform t ↔
      ∃ time, parseTime platform t triggerText = .ok time := by
    simp only [parseTime_eq_ok_iff]
    exact ⟨fun ⟨hour, minute, h⟩ => ⟨_, hour, minute, h, rfl⟩,
      fun ⟨_, hour, minute, h, _⟩ => ⟨hour, minute, h⟩⟩
  constructor
  · rintro (rfl | ⟨t, rfl, ht⟩ | ⟨t, t', more, rfl, ht, ht'⟩)
    · exact ⟨_, _, .none⟩
    · obtain ⟨time, h⟩ := htime.mp ht
      exact ⟨_, _, .one h⟩
    · obtain ⟨time, h⟩ := htime.mp ht
      obtain ⟨time', h'⟩ := htime.mp ht'
      exact ⟨_, _, .two more h h'⟩
  · rintro ⟨_, _, hclauses⟩
    cases hclauses with
    | none => exact .inl rfl
    | one h => exact .inr (.inl ⟨_, rfl, htime.mpr ⟨_, h⟩⟩)
    | two more h h' => exact .inr (.inr ⟨_, _, more, rfl, htime.mpr ⟨_, h⟩, htime.mpr ⟨_, h'⟩⟩)

/-- **The constructor takes its language.** -/
lemma exists_parse_iff (hdoc : platform.parseDayOfWeek = enumParse platform.parseInt)
    (name : Option String) :
    (∃ trigger, parse platform triggerText name = .ok trigger) ↔ Taken platform triggerText := by
  simp only [parse_eq_ok_iff, Taken, takenClauses_iff triggerText, hdoc,
    ← exists_enumParse_iff]
  constructor
  · rintro ⟨_, d, rest, day, fromTime, toTime, hsplit, hday, hclauses, -⟩
    exact ⟨d, rest, hsplit, ⟨day, hday⟩, fromTime, toTime, hclauses⟩
  · rintro ⟨d, rest, hsplit, ⟨day, hday⟩, fromTime, toTime, hclauses⟩
    exact ⟨_, d, rest, day, fromTime, toTime, hsplit, hday, hclauses, rfl⟩

/-- The documented tokens are taken. -/
lemma Phrases.clauses {rest : List String} {f t : Option (Int32 × Int32)}
    (h : Phrases platform rest f t) (triggerText : String) :
    Clauses platform triggerText rest (f.map (clockTime platform))
      (t.map (clockTime platform)) := by
  cases h with
  | none => exact .none
  | one ht => exact .one (parseTime_eq_ok_iff.mpr ⟨_, _, ht, rfl⟩)
  | two ht ht' =>
      exact .two [] (parseTime_eq_ok_iff.mpr ⟨_, _, ht, rfl⟩)
        (parseTime_eq_ok_iff.mpr ⟨_, _, ht', rfl⟩)

/-- What is taken is documented, but for tokens behind the second time. -/
lemma Clauses.phrases {rest : List String} {time time' : Option DateTime}
    (h : Clauses platform triggerText rest time time') (hlen : rest.length ≤ 4) :
    ∃ f t, Phrases platform rest f t := by
  cases h with
  | none => exact ⟨_, _, .none⟩
  | one ht =>
      obtain ⟨hour, minute, hclock, -⟩ := parseTime_eq_ok_iff.mp ht
      exact ⟨_, _, .one hclock⟩
  | two more ht ht' =>
      obtain ⟨hour, minute, hclock, -⟩ := parseTime_eq_ok_iff.mp ht
      obtain ⟨hour', minute', hclock', -⟩ := parseTime_eq_ok_iff.mp ht'
      obtain rfl : more = [] := by
        simp only [List.length_cons] at hlen
        exact List.length_eq_zero_iff.mp (by omega)
      exact ⟨_, _, .two hclock hclock'⟩

/-- **The trigger of a documented text.** -/
lemma parse_of_dayText (hdoc : platform.parseDayOfWeek = enumParse platform.parseInt) {n : ℕ}
    {f t : Option (Int32 × Int32)} (h : DayText platform triggerText n f t) (name : Option String) :
    parse platform triggerText name =
      .ok { name, day := Int32.ofNat n, fromTime := f.map (clockTime platform),
            toTime := t.map (clockTime platform) } := by
  obtain ⟨d, rest, hsplit, hd, hrest⟩ := dayText_iff.mp h
  refine parse_eq_ok_iff.mpr ⟨d, rest, _, _, _, hsplit, ?_, hrest.clauses triggerText, rfl⟩
  rw [hdoc]
  exact enumParse_of_dayNumber hd _

/-- **The documented language is what is taken and not overread.** -/
lemma language_iff (hdoc : platform.parseDayOfWeek = enumParse platform.parseInt) (text : String) :
    (∃ n f t, DayText platform text n f t) ↔ Taken platform text ∧ ¬ Overread platform text := by
  constructor
  · rintro ⟨n, f, t, h⟩
    refine ⟨(exists_parse_iff hdoc none).mp ⟨_, parse_of_dayText hdoc h none⟩, ?_⟩
    obtain ⟨d, rest, hsplit, hd, hrest⟩ := dayText_iff.mp h
    rintro ⟨d', rest', hsplit', -, -, hover⟩
    obtain ⟨rfl, rfl⟩ := List.cons.inj (hsplit.symm.trans hsplit')
    rcases hover with hno | hlong
    · exact absurd (hd.symm.trans hno) (by simp)
    · cases hrest <;> simp at hlong
  · rintro ⟨⟨d, rest, hsplit, henum, hrest⟩, hover⟩
    have hname : dayNumber d.toList ≠ none := fun hno =>
      hover ⟨d, rest, hsplit, henum, hrest, .inl hno⟩
    have hshort : rest.length ≤ 4 := Nat.not_lt.mp fun hlong =>
      hover ⟨d, rest, hsplit, henum, hrest, .inr hlong⟩
    obtain ⟨n, hn⟩ := Option.ne_none_iff_exists'.mp hname
    obtain ⟨_, _, hclauses⟩ := (takenClauses_iff text).mp hrest
    obtain ⟨f, t, hphrases⟩ := hclauses.phrases hshort
    exact ⟨n, f, t, dayText_iff.mpr ⟨d, rest, hsplit, hn, hphrases⟩⟩

/-- **Day triggers accept their language** on every text but those that begin with what `Enum.Parse`
takes and is no day name, or go on behind the second time, and are well formed otherwise. -/
theorem day_language_iff (hdoc : platform.parseDayOfWeek = enumParse platform.parseInt)
    (text : String) (name : Option String) :
    ((∃ trigger, parse platform text name = .ok trigger) ↔
        ∃ n f t, DayText platform text n f t) ↔
      ¬ Overread platform text := by
  have htaken : Overread platform text → Taken platform text :=
    fun ⟨d, rest, hsplit, henum, hrest, _⟩ => ⟨d, rest, hsplit, henum, hrest⟩
  rw [exists_parse_iff hdoc name, language_iff hdoc]
  tauto

/-- A reader of integers of one digit. -/
def parseDigit (s : String) : Except ConfigException Int32 :=
  match s.toList with
  | [c] => if c.isDigit then .ok (Int32.ofNat (c.toNat - 48)) else .error .FormatException
  | _ => .error .FormatException

/-- A runtime whose integers have one digit. -/
def digitPlatform : Platform where
  parseInt := parseDigit
  parseDayOfWeek := enumParse parseDigit
  convertAudio _ := .ok ()
  now := 0

/-- A text with two times. -/
theorem day_language_iff_monday :
    (∃ trigger, parse digitPlatform "monday from 8:0 to 9:5" none = .ok trigger) ↔
      ∃ n f t, DayText digitPlatform "monday from 8:0 to 9:5" n f t := by
  refine (day_language_iff rfl "monday from 8:0 to 9:5" none).mpr ?_
  rintro ⟨d, rest, hsplit, -, -, hover⟩
  have htokens : split "monday from 8:0 to 9:5" ' ' = ["monday", "from", "8:0", "to", "9:5"] := by
    decide
  obtain ⟨rfl, rfl⟩ := List.cons.inj (htokens.symm.trans hsplit)
  exact absurd hover (by decide)

/-- **Two days are a third one**, and what is said behind the second time is not heard. -/
theorem day_language_overread :
    (parse digitPlatform "Monday,Tuesday" none = .ok { name := none, day := 3 } ∧
      ¬ ∃ n f t, DayText digitPlatform "Monday,Tuesday" n f t) ∧
    (∃ trigger, parse digitPlatform "Monday from 8:0 to 9:5 not on holidays" none = .ok trigger) ∧
      ¬ ∃ n f t, DayText digitPlatform "Monday from 8:0 to 9:5 not on holidays" n f t := by
  refine ⟨⟨by decide, ?_⟩, ⟨_, rfl⟩, ?_⟩
  · rintro ⟨n, f, t, h⟩
    obtain ⟨d, rest, hsplit, hd, -⟩ := dayText_iff.mp h
    have htokens : split "Monday,Tuesday" ' ' = ["Monday,Tuesday"] := by decide
    obtain ⟨rfl, -⟩ := List.cons.inj (htokens.symm.trans hsplit)
    exact absurd hd (by rw [show dayNumber "Monday,Tuesday".toList = none by decide]; simp)
  · rintro ⟨n, f, t, h⟩
    obtain ⟨d, rest, hsplit, -, hrest⟩ := dayText_iff.mp h
    have hlength := congrArg List.length hsplit
    rw [show (split "Monday from 8:0 to 9:5 not on holidays" ' ').length = 8 by decide] at hlength
    cases hrest <;> simp at hlength

end DayTrigger

end TAM
