import AnsweringMachine.Application.Script
import AnsweringMachine.Configuration.Triggers

/-!
# Action packs and accounts

`accounts.xml` is read at two times.  When the program starts, `ActionManager` loads the action
packs, each `actions` element under the root, and with them the triggers they refer to; a pack that
names an unknown trigger stops the start.  The accounts, each `sipekAccount` element under the root,
keep their element: the `actions` texts in it are looked up among the packs when `CallActionsThread`
asks the account for its script, once for each time it asks.

So a name that no pack has goes unnoticed until a call comes in, and then ends the thread of the
call with an exception nothing catches.  `script_readable_iff` says that this is the only way in
which a configuration that loads can fail a call.
-/

namespace TAM

open XmlNode

/-- The file the configuration is read from. -/
inductive AccountsFile
  | missing
  | malformed
  | document (root : XmlNode)

/-- `XmlDocument.Load`, and the element of the document. -/
def AccountsFile.load : AccountsFile → Except ConfigException XmlNode
  | .missing => .error (.FileNotFoundException none)
  | .malformed => .error .XmlException
  | .document root => .ok root

/-- The indexer of a dictionary. -/
def lookup {ν : Type} (d : Dictionary String ν) (name : String) : Except ConfigException ν :=
  match d.get? name with
  | none => .error .KeyNotFoundException
  | some v => .ok v

lemma lookup_eq_ok_iff {ν : Type} {d : Dictionary String ν} {name : String} {v : ν} :
    lookup d name = .ok v ↔ d.get? name = some v := by
  cases h : d.get? name <;> simp [lookup, h]

/-! ## Packs -/

/-- `FindTrigger` of `TriggerManager.Instance`, which loads the triggers when it is first used. -/
def findTrigger (platform : Platform) (root : XmlNode) (name : String) :
    Except ConfigException TriggerCollector := do
  let triggers ← loadTriggers platform root
  lookup triggers name

/-- One child of an `actions` element, in the loop of `LoadActions`. -/
def readRealAction (platform : Platform) : XmlNode → Except ConfigException (List IAction)
  | .element uri tag children => do
      let text := innerText (.element uri tag children)
      if tag = "playwav" then
        platform.convertAudio text
        return [.playwav text]
      else if tag = "delay" then
        return [.delay (← platform.parseInt text).toInt]
      else if tag = "hangup" then return [.hangup]
      else if tag = "accept" then return [.accept]
      else return []
  | .text _ | .comment _ => .error .InvalidCastException

/-- The pack of an `actions` element.  A pack without a name is not added to the dictionary, so
that the empty name stands for none is not seen. -/
def readActionPack (platform : Platform) (root actionsElement : XmlNode) :
    Except ConfigException (ActionPack TriggerCollector) := do
  let name := readString actionsElement "name"
  let triggers ← (actionsElement.selectNodes "trigger").mapM
    fun triggerElement => findTrigger platform root triggerElement.innerText
  let actions ← actionsElement.children.mapM (readRealAction platform)
  return { name := name.getD "", triggers, actions := actions.flatten }

/-- `LoadActions`. -/
def loadActions (platform : Platform) (file : AccountsFile) :
    Except ConfigException (Dictionary String (ActionPack TriggerCollector)) := do
  let root ← file.load
  loadNamed (readActionPack platform root) (root.selectNodes "actions")

/-- `ActionManager.Load`; the dictionary is `_actions`. -/
def ActionManager.load := loadActions

/-- `FindActionPack`. -/
def ActionManager.findActionPack (actions : Dictionary String (ActionPack TriggerCollector))
    (name : String) : Except ConfigException (ActionPack TriggerCollector) :=
  lookup actions name

/-! ## Accounts -/

/-- Transport modes; what `Enum.Parse` makes of a number need not be one that has a name. -/
inductive ETransportMode
  | TM_UDP | TM_TCP | TM_TLS
  | unnamed (value : Int32)
  deriving DecidableEq, Repr

/-- `XmlHelper.ReadEnum`, with the `Enum.Parse` of the enumeration: the default stands in for an
element that is missing and for a text that cannot be parsed. -/
def readEnum {τ : Type} (parse : String → Option τ) (rootElement : XmlNode) (name : String)
    (defaultVal : τ) : τ :=
  match readString rootElement name with
  | none => defaultVal
  | some enumValue => (parse enumValue).getD defaultVal

/-- An account of the configuration. -/
structure XmlAccount where
  accountRoot : XmlNode
  index : ℕ

/-- `ReadAccountConfiguration`: the accounts, numbered in document order. -/
def readAccountConfiguration (file : AccountsFile) : Except ConfigException (List XmlAccount) :=
  match file with
  | .missing => .error (.FileNotFoundException (some "Cannot find accounts.xml"))
  | file => do
      let doc ← file.load
      return (doc.selectNodes "sipekAccount").mapIdx fun i element =>
        { accountRoot := element, index := i }

namespace XmlAccount

/-! What the stack is told of an account is read from its element, each time it is asked for. -/

def accountName (account : XmlAccount) : Option String :=
  readString account.accountRoot "displayName"

def displayName (account : XmlAccount) : Option String := account.accountName

def hostName (account : XmlAccount) : Option String := readString account.accountRoot "registrar"

def userName (account : XmlAccount) : Option String := readString account.accountRoot "username"

def id (account : XmlAccount) : Option String := account.userName

def password (account : XmlAccount) : Option String := readString account.accountRoot "password"

def domainName (account : XmlAccount) : Option String := readString account.accountRoot "realm"

def proxyAddress (_ : XmlAccount) : String := ""

def transportMode (parse : String → Option ETransportMode) (account : XmlAccount) :
    ETransportMode :=
  readEnum parse account.accountRoot "transport" .TM_UDP

/-- The elements of an account that name a pack. -/
def actionsElements (account : XmlAccount) : List XmlNode :=
  account.accountRoot.selectNodes "actions"

/-- `ActionPacks`. -/
def actionPacks (actions : Dictionary String (ActionPack TriggerCollector)) (account : XmlAccount) :
    Except ConfigException (List (ActionPack TriggerCollector)) :=
  account.actionsElements.mapM
    fun actionsElement => ActionManager.findActionPack actions actionsElement.innerText

/-- What `CallActionsThread` reads before its loop: `ActionPacks` is compared with `null`, then its
length with zero, then it is copied. -/
def script (actions : Dictionary String (ActionPack TriggerCollector)) (account : XmlAccount) :
    Except ConfigException (List (ActionPack TriggerCollector)) := do
  let _ ← account.actionPacks actions
  let packs ← account.actionPacks actions
  if packs.length = 0 then return []
  account.actionPacks actions

end XmlAccount

/-! ## Names and packs -/

/-- The pack a name stands for in a document. -/
def Names (platform : Platform) (root : XmlNode) (name : String)
    (pack : ActionPack TriggerCollector) : Prop :=
  ∃ element ∈ root.selectNodes "actions",
    readString element "name" = some name ∧ readActionPack platform root element = .ok pack

/-- No pack of the document has the name. -/
def Dangling (root : XmlNode) (name : String) : Prop :=
  ∀ element ∈ root.selectNodes "actions", readString element "name" ≠ some name

instance (root : XmlNode) (name : String) : Decidable (Dangling root name) :=
  inferInstanceAs (Decidable (∀ element ∈ root.selectNodes "actions", _))

section

variable {platform : Platform} {root : XmlNode}
  {actions : Dictionary String (ActionPack TriggerCollector)}

lemma findActionPack_eq_ok_iff (hload : ActionManager.load platform (.document root) = .ok actions)
    {name : String} {pack : ActionPack TriggerCollector} :
    ActionManager.findActionPack actions name = .ok pack ↔ Names platform root name pack := by
  rw [ActionManager.findActionPack, lookup_eq_ok_iff]
  exact get?_loadNamed hload name pack

lemma exists_findActionPack_iff (hload : ActionManager.load platform (.document root) = .ok actions)
    (name : String) :
    (∃ pack, ActionManager.findActionPack actions name = .ok pack) ↔ ¬ Dangling root name := by
  simp only [ActionManager.findActionPack, lookup_eq_ok_iff]
  rw [exists_get?_loadNamed hload]
  simp [Dangling]

/-- Packs are read in document order, each the one its element names. -/
lemma actionPacks_eq_ok_iff (hload : ActionManager.load platform (.document root) = .ok actions)
    {account : XmlAccount} {packs : List (ActionPack TriggerCollector)} :
    account.actionPacks actions = .ok packs ↔
      List.Forall₂ (fun element pack => Names platform root element.innerText pack)
        account.actionsElements packs := by
  rw [XmlAccount.actionPacks, Except.mapM_eq_ok_iff]
  simp only [findActionPack_eq_ok_iff hload]

lemma exists_actionPacks_iff (hload : ActionManager.load platform (.document root) = .ok actions)
    (account : XmlAccount) :
    (∃ packs, account.actionPacks actions = .ok packs) ↔
      ∀ element ∈ account.actionsElements, ¬ Dangling root element.innerText := by
  rw [XmlAccount.actionPacks, Except.exists_mapM_eq_ok_iff]
  simp only [exists_findActionPack_iff hload]

/-- The thread goes on with the packs, if they can be read. -/
lemma script_eq_actionPacks (actions : Dictionary String (ActionPack TriggerCollector))
    (account : XmlAccount) : account.script actions = account.actionPacks actions := by
  rcases h : account.actionPacks actions with e | packs
  · simp [XmlAccount.script, h, bind, Except.bind]
  · by_cases hlen : packs.length = 0
    · simp [XmlAccount.script, h, bind, Except.bind, List.length_eq_zero_iff.mp hlen, pure,
        Except.pure]
    · simp [XmlAccount.script, h, bind, Except.bind, List.length_eq_zero_iff.not.mp hlen]

/-- **A configuration that loads can be executed if and only if no account names an unknown pack.**
Then every account gives the packs its elements name, in document order, and the action thread of a
call gets as far as its loop. -/
theorem script_readable_iff {accounts : List XmlAccount}
    (hload : ActionManager.load platform (.document root) = .ok actions)
    (hread : readAccountConfiguration (.document root) = .ok accounts) :
    (∀ account ∈ accounts, ∃ packs, account.actionPacks actions = .ok packs ∧
        List.Forall₂ (fun element pack => Names platform root element.innerText pack)
          account.actionsElements packs ∧
        account.script actions = .ok packs) ↔
      ∀ accountRoot ∈ root.selectNodes "sipekAccount",
        ∀ element ∈ accountRoot.selectNodes "actions", ¬ Dangling root element.innerText := by
  have haccounts : accounts.map XmlAccount.accountRoot = root.selectNodes "sipekAccount" := by
    rw [← Except.ok.inj hread]
    refine List.ext_getElem? fun i => ?_
    simp [Function.comp_def]
  rw [← haccounts, List.forall_mem_map]
  refine forall₂_congr fun account _ => ?_
  rw [← XmlAccount.actionsElements, ← exists_actionPacks_iff hload account]
  refine exists_congr fun packs => ⟨And.left, fun h => ⟨h, ?_, ?_⟩⟩
  · exact (actionPacks_eq_ok_iff hload).mp h
  · rw [script_eq_actionPacks]
    exact h

end

/-- A runtime whose integers are none and whose days all are Sunday, without audio files. -/
def barePlatform : Platform where
  parseInt _ := .error .FormatException
  parseDayOfWeek _ := .ok 0
  convertAudio _ := .error .AudioException
  now := 0

/-- A document with one account and one pack, and the names by which they refer to each other. -/
def oneAccount (packName accountsName : String) : XmlNode :=
  createElement "accounts"
    [createElement "trigger" [withText "name" "always", withText "day" "sunday"],
     createElement "actions"
       [withText "name" packName, withText "trigger" "always", createElement "accept" []],
     createElement "sipekAccount" [withText "username" "tam", withText "actions" accountsName]]

/-- The account names the pack there is. -/
theorem script_readable_iff_greeting :
    ∃ actions accounts,
      ActionManager.load barePlatform (.document (oneAccount "greeting" "greeting")) = .ok actions ∧
      readAccountConfiguration (.document (oneAccount "greeting" "greeting")) = .ok accounts ∧
      ∀ account ∈ accounts, ∃ packs, account.actionPacks actions = .ok packs ∧
        List.Forall₂ (fun element pack => Names barePlatform (oneAccount "greeting" "greeting")
          element.innerText pack) account.actionsElements packs ∧
        account.script actions = .ok packs := by
  refine ⟨_, _, rfl, rfl, (script_readable_iff rfl rfl).mpr ?_⟩
  decide

/-- The account names a pack that is not there: everything loads, and the first call on the account
ends its thread. -/
theorem script_fails_goodbye :
    ∃ actions account,
      ActionManager.load barePlatform (.document (oneAccount "greeting" "goodbye")) = .ok actions ∧
      readAccountConfiguration (.document (oneAccount "greeting" "goodbye")) = .ok [account] ∧
      account.actionPacks actions = .error .KeyNotFoundException ∧
      account.script actions = .error .KeyNotFoundException :=
  ⟨_, _, rfl, rfl, rfl, rfl⟩

end TAM
