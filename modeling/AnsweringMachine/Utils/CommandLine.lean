import AnsweringMachine.Library.Dictionary
import AnsweringMachine.Library.Outcome
import AnsweringMachine.Library.Text

/-!
# The command line

`CommandLineHandler` turns each argument that begins with `--` or `-` into an option: up to the
first `=` it is the name, behind it the value; without an `=` it is a switch.  Strings are compared
character by character.

`parseOption_eq` says what is read from one argument, in terms of `written`, the option as it is
written.  It differs from what the parser returns in one respect: the constructor of `CommandOption`
assigns the property `OptionType` to the field behind that property, and its argument to nothing, so
every option is binary.  `parse_returns_written_iff` draws the conclusions.
-/

namespace TAM

open Text

/-- The kinds of options; a new object has the first. -/
inductive CommandOptionType
  | Binary | Value
  deriving DecidableEq, Repr

/-- An option. -/
structure CommandOption where
  optionType : CommandOptionType := .Binary
  name : String
  arguments : List String
  deriving DecidableEq, Repr

/-- The constructor.  The field of the type is assigned to itself. -/
def CommandOption.create (_optionType : CommandOptionType) (name : String)
    (arguments : List String) : CommandOption := { name, arguments }

/-- What the handler does to the outside: it raises `UnknownCommandOption`, or invokes a registered
callback. -/
inductive Reaction (β : Type)
  | UnknownCommandOption (option : String)
  | invoke (callback : β) (option : CommandOption)

/-- The result of parsing arguments, and what was done on the way. -/
structure Parsed (β : Type) where
  options : List CommandOption
  reactions : List (Reaction β)

/-- The registered callbacks, by the name of the option. -/
structure CommandLineHandler (β : Type) where
  optionCallbacks : Dictionary String β

namespace CommandLineHandler

variable {β : Type} (handler : CommandLineHandler β)

def nameValueSeperator : List Char := ['=']

def prefixes : List (List Char) := [['-', '-'], ['-']]

/-- `HasValidPrefix`: the length of the first one that the option starts with. -/
def hasValidPrefix (option : List Char) : Option ℕ :=
  (prefixes.find? fun p => p.isPrefixOf option).map List.length

/-- `ProcessCommandOption`. -/
def processCommandOption (commandOption : CommandOption) : Reaction β :=
  match handler.optionCallbacks.get? commandOption.name with
  | none => .UnknownCommandOption commandOption.name
  | some callback => .invoke callback commandOption

/-- One argument, in the loop of `Parse`. -/
def parseOption (option : String) : Except RangeException (Parsed β) :=
  let chars := option.toList
  match hasValidPrefix chars with
  | none => return ⟨[], [.UnknownCommandOption option]⟩
  | some prefixLength =>
      if prefixLength = chars.length then return ⟨[], [.UnknownCommandOption option]⟩
      else match indexFrom nameValueSeperator chars prefixLength with
        | none => do
            let name ← substringFrom chars prefixLength
            let newOption := CommandOption.create .Binary (String.ofList name) []
            return ⟨[newOption], [handler.processCommandOption newOption]⟩
        | some separator => do
            let name ← substring chars prefixLength (separator - prefixLength)
            let value ← substringFrom chars (separator + 1)
            let newOption := CommandOption.create .Value (String.ofList name) [String.ofList value]
            return ⟨[newOption], [handler.processCommandOption newOption]⟩

/-- `Parse`. -/
def parse (commandLineOptions : List String) : Except RangeException (Parsed β) := do
  let parsed ← commandLineOptions.mapM handler.parseOption
  return ⟨parsed.flatMap Parsed.options, parsed.flatMap Parsed.reactions⟩

/-! ## What is written -/

/-- What stands behind the dashes: two of them, or else one. -/
def remainder (argument : List Char) : List Char :=
  if ['-', '-'].isPrefixOf argument then argument.drop 2
  else if ['-'].isPrefixOf argument then argument.drop 1
  else []

/-- The option a remainder spells. -/
def spelled (r : List Char) : CommandOption :=
  if '=' ∈ r then
    { optionType := .Value
      name := String.ofList (r.takeWhile (· ≠ '='))
      arguments := [String.ofList (r.dropWhile (· ≠ '=')).tail] }
  else { optionType := .Binary, name := String.ofList r, arguments := [] }

/-- The option that is written as an argument, if it is one. -/
def written (argument : String) : Option CommandOption :=
  if remainder argument.toList = [] then none else some (spelled (remainder argument.toList))

/-- An option without its type. -/
def untyped (o : CommandOption) : CommandOption := { o with optionType := .Binary }

/-- What is done about an argument. -/
def reaction (argument : String) : Reaction β :=
  (written argument).elim (.UnknownCommandOption argument) fun o =>
    handler.processCommandOption (untyped o)

/-- An argument is its dashes and what is behind them, or it has none. -/
lemma hasValidPrefix_cases (option : List Char) :
    (hasValidPrefix option = none ∧ remainder option = []) ∨
    ∃ dashes, option = dashes ++ remainder option ∧ hasValidPrefix option = some dashes.length := by
  have hsplit : ∀ dashes : List Char, dashes.isPrefixOf option →
      option = dashes ++ option.drop dashes.length := by
    intro dashes h
    have hpre : dashes <+: option := List.isPrefixOf_iff_prefix.mp h
    exact (List.prefix_iff_eq_append.mp hpre).symm
  by_cases h2 : ['-', '-'].isPrefixOf option
  · refine Or.inr ⟨['-', '-'], ?_, by simp [hasValidPrefix, prefixes, h2]⟩
    rw [remainder, if_pos h2]
    exact hsplit _ h2
  by_cases h1 : ['-'].isPrefixOf option
  · refine Or.inr ⟨['-'], ?_, by simp [hasValidPrefix, prefixes, h2, h1]⟩
    rw [remainder, if_neg h2, if_pos h1]
    exact hsplit _ h1
  · exact Or.inl ⟨by simp [hasValidPrefix, prefixes, h2, h1],
      by rw [remainder, if_neg h2, if_neg h1]⟩

lemma spelled_binary {r : List Char} (hr : '=' ∉ r) :
    spelled r = { optionType := .Binary, name := String.ofList r, arguments := [] } := by
  rw [spelled, if_neg hr]

lemma spelled_value {n : List Char} (hn : '=' ∉ n) (v : List Char) :
    spelled (n ++ '=' :: v) =
      { optionType := .Value, name := String.ofList n, arguments := [String.ofList v] } := by
  rw [spelled, if_pos (by simp), takeWhile_ne hn, dropWhile_ne hn, List.tail_cons]

/-- The name and the value of an option, or the name alone. -/
lemma parseOption_of_separator {argument : String} {dashes r : List Char}
    (hsplit : argument.toList = dashes ++ r)
    (hdashes : hasValidPrefix argument.toList = some dashes.length) (hr : r ≠ []) :
    handler.parseOption argument =
      .ok ⟨[untyped (spelled r)], [handler.processCommandOption (untyped (spelled r))]⟩ := by
  have hlen : dashes.length ≠ argument.toList.length := by
    rw [hsplit, List.length_append]
    have := List.length_pos_iff.mpr hr
    omega
  have hdrop : argument.toList.drop dashes.length = r := by rw [hsplit, List.drop_left]
  simp only [parseOption, hdashes, if_neg hlen, indexFrom, hdrop, nameValueSeperator]
  by_cases heq : '=' ∈ r
  · obtain ⟨n, v, rfl, hn⟩ := List.eq_append_cons_of_mem heq
    have hname : substring argument.toList dashes.length
        (((dashes.length + n.length : ℕ) : ℤ) - dashes.length) = .ok n := by
      rw [hsplit, ← List.append_assoc]
      exact substring_middle dashes n ('=' :: v) rfl (by omega)
    have hvalue : substringFrom argument.toList (((dashes.length + n.length : ℕ) : ℤ) + 1) =
        .ok v := by
      rw [hsplit, show dashes ++ (n ++ '=' :: v) = (dashes ++ n ++ ['=']) ++ v by simp]
      exact substringFrom_append _ v (by simp only [List.length_append, List.length_singleton]; rfl)
    simp only [indexOf_singleton hn, Option.map_some, hname, hvalue, spelled_value hn]
    rfl
  · have hname : substringFrom argument.toList dashes.length = .ok r := by
      rw [hsplit]
      exact substringFrom_append dashes r rfl
    simp only [indexOf_singleton_eq_none.mpr heq, Option.map_none, hname, spelled_binary heq]
    rfl

/-- **What is read from an argument**: the option that is written, without its type. -/
lemma parseOption_eq (argument : String) :
    handler.parseOption argument =
      .ok ⟨((written argument).map untyped).toList, [handler.reaction argument]⟩ := by
  obtain ⟨hnone, hr⟩ | ⟨dashes, hsplit, hdashes⟩ := hasValidPrefix_cases argument.toList
  · simp only [parseOption, hnone, reaction, written, hr, if_true]
    rfl
  set r := remainder argument.toList with hr
  by_cases hempty : r = []
  · have hlen : dashes.length = argument.toList.length := by rw [hsplit, hempty, List.append_nil]
    simp only [parseOption, hdashes, hlen, if_true, reaction, written, ← hr, hempty]
    rfl
  rw [handler.parseOption_of_separator hsplit hdashes hempty]
  simp only [reaction, written, ← hr, if_neg hempty]
  rfl

/-- **What is read from a command line.** -/
lemma parse_eq (args : List String) :
    handler.parse args =
      .ok ⟨(args.filterMap written).map untyped, args.map handler.reaction⟩ := by
  have hall : args.mapM handler.parseOption = .ok (args.map fun argument =>
      ⟨((written argument).map untyped).toList, [handler.reaction argument]⟩) := by
    rw [funext handler.parseOption_eq]
    exact List.mapM_pure
  have hoptions : (args.map fun argument => (⟨((written argument).map untyped).toList,
      [handler.reaction argument]⟩ : Parsed β)).flatMap Parsed.options =
        (args.filterMap written).map untyped := by
    rw [List.flatMap_map, List.map_filterMap, List.filterMap_eq_flatMap_toList]
  have hreactions : (args.map fun argument => (⟨((written argument).map untyped).toList,
      [handler.reaction argument]⟩ : Parsed β)).flatMap Parsed.reactions =
        args.map handler.reaction := by
    rw [List.flatMap_map, List.map_eq_flatMap]
  simp only [parse, hall]
  exact congrArg Except.ok (by rw [hoptions, hreactions])

/-- The options are returned as they are written, in order, and what is none is reported. -/
def Returns (args : List String) : Prop :=
  ∃ parsed, handler.parse args = .ok parsed ∧ parsed.options = args.filterMap written ∧
    ∀ argument ∈ args, written argument = none →
      .UnknownCommandOption argument ∈ parsed.reactions

/-- How an option is written. -/
inductive Rendering : CommandOption → String → Prop
  | binary (name : String) : Rendering ⟨.Binary, name, []⟩ ("--" ++ name)
  | value (name value : String) : Rendering ⟨.Value, name, [value]⟩ ("--" ++ name ++ "=" ++ value)

/-- What is read from a rendered switch. -/
lemma written_switch (name : String) :
    written ("--" ++ name) = if name = "" then none else some (spelled name.toList) := by
  have htext : ("--" ++ name).toList = '-' :: '-' :: name.toList := by
    rw [String.toList_append]
    rfl
  have hrem : remainder ('-' :: '-' :: name.toList) = name.toList := by simp [remainder]
  have hempty : name.toList = [] ↔ name = "" := String.toList_eq_nil_iff
  simp only [written, htext, hrem, hempty]

lemma untyped_eq_self_iff {o : CommandOption} : untyped o = o ↔ o.optionType = .Binary := by
  constructor
  · intro h
    rw [← h]
    rfl
  · rintro h
    rw [untyped, ← h]

/-- Options are returned as they are written if and only if they are binary. -/
lemma options_parse_iff (args : List String) :
    (∃ parsed, handler.parse args = .ok parsed ∧ parsed.options = args.filterMap written) ↔
      ∀ o ∈ args.filterMap written, o.optionType = .Binary := by
  simp only [handler.parse_eq, Except.ok.injEq, exists_eq_left', ← untyped_eq_self_iff]
  have hmap := List.map_inj_left (l := args.filterMap written) (f := untyped) (g := id)
  simpa using hmap

/-- A rendered option is given back if and only if it is a switch whose name has no separator. -/
lemma option_parse_iff {o : CommandOption} {argument : String} (h : Rendering o argument) :
    (∃ parsed, handler.parse [argument] = .ok parsed ∧ parsed.options = [o]) ↔
      o.optionType = .Binary ∧ o.name ≠ "" ∧ '=' ∉ o.name.toList := by
  have hread : (∃ parsed, handler.parse [argument] = .ok parsed ∧ parsed.options = [o]) ↔
      (written argument).map untyped = some o := by
    simp only [handler.parse_eq, Except.ok.injEq, exists_eq_left']
    cases hw : written argument <;> simp [hw]
  rw [hread]
  cases h with
  | value name value =>
      refine iff_of_false (fun hback => ?_) (fun h => absurd h.1 (by simp))
      obtain ⟨o, -, ho⟩ := Option.map_eq_some_iff.mp hback
      exact absurd (congrArg CommandOption.optionType ho) (by simp [untyped])
  | binary name =>
      rw [written_switch]
      by_cases hname : name = ""
      · simp [hname]
      · by_cases hsep : '=' ∈ name.toList
        · simp [hname, hsep, spelled, untyped]
        · simp [hname, hsep, spelled, untyped]

/-- An option is binary if and only if it is written without a value. -/
lemma binary_iff (argument : String) :
    (∀ o, written argument = some o → o.optionType = .Binary) ↔
      '=' ∉ remainder argument.toList := by
  by_cases hr : remainder argument.toList = []
  · simp [written, hr]
  · simp only [written, if_neg hr, Option.some.injEq, forall_eq', spelled]
    split_ifs with heq <;> simp [heq]

/-- **The parser returns what was written** if and only if no argument is written with a value, and
gives an option back from its rendering if and only if the option is a switch that can be
written. -/
theorem parse_returns_written_iff :
    (∀ args, handler.Returns args ↔
      ∀ argument ∈ args, '=' ∉ remainder argument.toList) ∧
    ∀ o argument, Rendering o argument →
      ((∃ parsed, handler.parse [argument] = .ok parsed ∧ parsed.options = [o]) ↔
        o.optionType = .Binary ∧ o.name ≠ "" ∧ '=' ∉ o.name.toList) := by
  refine ⟨fun args => ?_, fun o argument h => handler.option_parse_iff h⟩
  have hunknown : ∀ argument ∈ args, written argument = none →
      Reaction.UnknownCommandOption argument ∈ args.map handler.reaction := by
    intro argument hmem hnone
    refine List.mem_map.mpr ⟨argument, hmem, ?_⟩
    rw [reaction, hnone]
    rfl
  have hreturns : handler.Returns args ↔
      ∃ parsed, handler.parse args = .ok parsed ∧ parsed.options = args.filterMap written := by
    constructor
    · rintro ⟨parsed, hparse, hoptions, -⟩
      exact ⟨parsed, hparse, hoptions⟩
    · rintro ⟨parsed, hparse, hoptions⟩
      refine ⟨parsed, hparse, hoptions, ?_⟩
      rw [handler.parse_eq, Except.ok.injEq] at hparse
      rw [← hparse]
      exact hunknown
  rw [hreturns, handler.options_parse_iff]
  simp only [List.mem_filterMap, ← binary_iff]
  constructor
  · intro h argument hmem o ho
    exact h o ⟨argument, hmem, ho⟩
  · rintro h o ⟨argument, hmem, ho⟩
    exact h argument hmem o ho

/-- A handler without callbacks. -/
def silentHandler : CommandLineHandler Unit := ⟨.empty⟩

/-- A switch comes back. -/
theorem switch_returned :
    ∃ parsed, silentHandler.parse ["--" ++ "verbose"] = .ok parsed ∧
      parsed.options = [⟨.Binary, "verbose", []⟩] :=
  (silentHandler.parse_returns_written_iff.2 _ _ (.binary "verbose")).mpr
    ⟨rfl, by decide, by decide⟩

/-- **An option with a value comes back as a switch.** -/
theorem value_returned_as_binary :
    Rendering ⟨.Value, "port", ["5060"]⟩ ("--" ++ "port" ++ "=" ++ "5060") ∧
      (∃ parsed, silentHandler.parse ["--" ++ "port" ++ "=" ++ "5060"] = .ok parsed ∧
        parsed.options = [⟨.Binary, "port", ["5060"]⟩]) ∧
      ¬ silentHandler.Returns ["--" ++ "port" ++ "=" ++ "5060"] := by
  refine ⟨.value "port" "5060", ⟨_, rfl, by decide⟩, ?_⟩
  rintro ⟨parsed, hparse, hoptions, -⟩
  rw [silentHandler.parse_eq, Except.ok.injEq] at hparse
  rw [← hparse] at hoptions
  exact absurd hoptions (by decide)

end CommandLineHandler

end TAM
