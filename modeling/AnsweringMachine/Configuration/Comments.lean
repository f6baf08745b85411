import AnsweringMachine.Configuration.Accounts
import AnsweringMachine.Configuration.DayTexts
import AnsweringMachine.Library.XmlComments

/-!
# Comments in the configuration

The loaders go through `accounts.xml` in two ways.  Elements are selected by name, under the root,
in a pack and in an account, and their inner text is taken.  The children of a `trigger` element and
of an `actions` element under the root are enumerated as they stand, each cast to an element, and a
comment among them is an `InvalidCastException`.

In a text a comment is passed over, but it divides the text, and `XmlDocument.Load` drops a piece
that is nothing but white space: `<day> <!--x-->sunday</day>` is read as `sunday`, where the text
without the comment begins with an empty token.

`sameConfiguration_iff` says that this is all there is to it.  Comments change nothing if and only
if none of them stands directly in a `trigger` or an `actions` element under the root, none cuts
white space off a name, a reference, a file or a field of an account, and a time, a delay or a
transport it cuts white space off parses to the same value; triggers and packs that cannot be loaded
from either document are free.
-/

namespace TAM

open XmlNode
open Except (Alike alike_map_iff alike_mapM)

variable {platform : Platform} {element element' root root' : XmlNode}

/-! ## Loading by name -/

/-- Two loaders give the same dictionary if their elements have the same names and are read
alike. -/
lemma loadNamed_alike {ν : Type} {read read' : XmlNode → Except ConfigException ν}
    {elements elements' : List XmlNode}
    (h : List.Forall₂ (fun e e' => readString e' "name" = readString e "name" ∧
      Alike (read e) (read' e')) elements elements') :
    Alike (loadNamed read elements) (loadNamed read' elements') := by
  unfold loadNamed
  generalize (Dictionary.empty : Dictionary String ν) = d₀
  induction h generalizing d₀ with
  | nil => exact .of_eq rfl
  | cons he _ ih =>
      simp only [List.foldlM_cons, he.1]
      exact (he.2.bind fun v => .of_eq rfl).bind ih

/-- **Loading from two documents.**  `Kept` is a condition on the elements in the files that makes
them alike, and that elements read into the same value meet: then the same dictionary is loaded if
and only if, in case one is loaded at all, the elements meet the condition. -/
lemma loadNamed_loaded_alike_iff {ν : Type} {read read' : XmlNode → Except ConfigException ν}
    {Kept : XmlNode → XmlNode → Prop} {elements elements' : List XmlNode}
    (halike : ∀ e e', Commented e e' → Kept e e' →
      readString (loaded e') "name" = readString (loaded e) "name" ∧
        Alike (read (loaded e)) (read' (loaded e')))
    (hkept : ∀ e e' v, Commented e e' →
      readString (loaded e') "name" = readString (loaded e) "name" →
      read (loaded e) = .ok v → read' (loaded e') = .ok v → Kept e e')
    (h : List.Forall₂ Commented elements elements') :
    Alike (loadNamed read (elements.map loaded)) (loadNamed read' (elements'.map loaded)) ↔
      ((∃ d, loadNamed read (elements.map loaded) = .ok d) ∨
        (∃ d, loadNamed read' (elements'.map loaded) = .ok d) →
        List.Forall₂ Kept elements elements') := by
  constructor
  · intro hsame hloads
    obtain ⟨d, hd, hd'⟩ : ∃ d, loadNamed read (elements.map loaded) = .ok d ∧
        loadNamed read' (elements'.map loaded) = .ok d := by
      rcases hloads with ⟨d, hd⟩ | ⟨d, hd⟩
      · exact ⟨d, hd, (hsame d).mp hd⟩
      · exact ⟨d, (hsame d).mpr hd, hd⟩
    -- both lists were read into the pairs of the dictionary, in its order
    have hpairs := Except.forall₂_exists (List.forall₂_map_left_iff.mp (entries_loadNamed hd))
      (List.forall₂_map_left_iff.mp (entries_loadNamed hd'))
    refine List.Forall₂.mp (fun e e' he hpair => ?_) h hpairs
    obtain ⟨pair, ⟨hname, hread⟩, hname', hread'⟩ := hpair
    exact hkept e e' pair.2 he (hname'.trans hname.symm) hread hread'
  · intro hall
    by_cases hloads : (∃ d, loadNamed read (elements.map loaded) = .ok d) ∨
        (∃ d, loadNamed read' (elements'.map loaded) = .ok d)
    · refine loadNamed_alike ?_
      rw [List.forall₂_map_left_iff, List.forall₂_map_right_iff]
      exact List.Forall₂.mp halike h (hall hloads)
    · rw [not_or] at hloads
      exact fun d => ⟨fun hd => absurd ⟨d, hd⟩ hloads.1, fun hd => absurd ⟨d, hd⟩ hloads.2⟩

/-- What is read by name is the same if no white space was cut off. -/
lemma readString_loaded_iff (h : Commented element element') (name : String) :
    readString (loaded element') name = readString (loaded element) name ↔
      (element'.selectSingleNode name).map blanks = (element.selectSingleNode name).map blanks :=
  h.map_selectSingleNode_eq_iff name

/-! ## Loops over children -/

section Parts

variable {β : Type} {f : XmlNode → Except ConfigException (List β)}

/-- A loop over the children gives the same if no comment stands among them and the elements are
read alike. -/
lemma mapM_children_alike (hf : ∀ n b, f n = .ok b → isElement n = true)
    (h : Commented element element') (hclear : element'.hasComment = false)
    (hparts : List.Forall₂ (fun c c' => Alike (f (loaded c)) (f (loaded c')))
      element.elements element'.elements) :
    Alike ((loaded element).children.mapM f) ((loaded element').children.mapM f) := by
  intro r
  simp only [mapM_children_eq_ok_iff hf, elements_loaded, h.onlyElements_iff, hclear, and_true]
  refine and_congr_right fun _ => alike_mapM ?_ r
  rwa [List.forall₂_map_left_iff, List.forall₂_map_right_iff]

/-- How much an element gives depends on its tag alone. -/
def SizedByTag (f : XmlNode → Except ConfigException (List β)) : Prop :=
  ∀ {uri tag cs cs' b b'}, f (.element uri tag cs) = .ok b →
    f (.element uri tag cs') = .ok b' → b.length = b'.length

lemma SizedByTag.map_length_eq (hf : SizedByTag f) {cs cs' : List XmlNode} {r r' : List (List β)}
    (h : List.Forall₂ Commented cs cs') (hr : List.Forall₂ (fun c b => f (loaded c) = .ok b) cs r)
    (hr' : List.Forall₂ (fun c b => f (loaded c) = .ok b) cs' r') :
    r.map List.length = r'.map List.length := by
  induction h generalizing r r' with
  | nil =>
      rw [List.forall₂_nil_left_iff] at hr hr'
      rw [hr, hr']
  | cons hc _ ih =>
      obtain ⟨b, bs, hb, hbs, rfl⟩ := List.forall₂_cons_left_iff.mp hr
      obtain ⟨b', bs', hb', hbs', rfl⟩ := List.forall₂_cons_left_iff.mp hr'
      cases hc with
      | element uri tag hc => rw [List.map_cons, List.map_cons, hf hb hb', ih hbs hbs']

/-- A loop that gives the same found no comment, and read each element into the same. -/
lemma parts_of_flatten_eq (hf : ∀ n b, f n = .ok b → isElement n = true) (hsize : SizedByTag f)
    (h : Commented element element') {r r' : List (List β)}
    (hr : (loaded element).children.mapM f = .ok r)
    (hr' : (loaded element').children.mapM f = .ok r') (hflat : r.flatten = r'.flatten) :
    element'.hasComment = false ∧
      List.Forall₂ (fun c c' => ∃ b, f (loaded c) = .ok b ∧ f (loaded c') = .ok b)
        element.elements element'.elements := by
  simp only [mapM_children_eq_ok_iff hf, elements_loaded, Except.mapM_eq_ok_iff,
    List.forall₂_map_left_iff] at hr hr'
  -- the pieces have the same lengths, so they can be told apart in the joined list
  obtain rfl : r = r' :=
    List.eq_iff_flatten_eq.mpr ⟨hflat, hsize.map_length_eq h.elements hr.2 hr'.2⟩
  exact ⟨(h.onlyElements_iff.mp hr'.1).2, Except.forall₂_exists hr.2 hr'.2⟩

end Parts

/-! ## Triggers -/

/-- Is the node an element with this tag, in whatever namespace? -/
def tagged (tag : String) : XmlNode → Bool
  | .element _ tag' _ => tag' = tag
  | .text _ | .comment _ => false

/-- The triggers of a document can be loaded: they have names, distinct ones, nothing but elements
stands in them, and their days and ring delays parse. -/
structure FitTriggers (platform : Platform) (root : XmlNode) : Prop where
  named : WellNamed (root.selectNodes "trigger")
  elements : ∀ e ∈ root.selectNodes "trigger", e.onlyElements = true
  days : ∀ e ∈ root.selectNodes "trigger", ∀ c ∈ e.children, tagged "day" c = true →
    ∃ t, DayTrigger.parse platform c.innerText (readString e "name") = .ok t
  delays : ∀ e ∈ root.selectNodes "trigger", ∀ c ∈ e.children, tagged "ringDelay" c = true →
    ∃ t, RingDelay.parse platform c.innerText (readString e "name") = .ok t

/-- A child of a trigger of this name parses to the same, if it is parsed. -/
structure SameRealTrigger (platform : Platform) (name : Option String) (c c' : XmlNode) :
    Prop where
  day : tagged "day" c = true →
    Alike (DayTrigger.parse platform (loaded c).innerText name)
      (DayTrigger.parse platform (loaded c').innerText name)
  ringDelay : tagged "ringDelay" c = true →
    Alike (RingDelay.parse platform (loaded c).innerText name)
      (RingDelay.parse platform (loaded c').innerText name)

/-- The comments in a `trigger` element do no harm. -/
structure KeptTrigger (platform : Platform) (element element' : XmlNode) : Prop where
  clear : element'.hasComment = false
  name : (element'.selectSingleNode "name").map blanks =
    (element.selectSingleNode "name").map blanks
  realTriggers : List.Forall₂ (SameRealTrigger platform (readString (loaded element) "name"))
    element.elements element'.elements

lemma isElement_of_readRealTrigger {name : Option String} (n : XmlNode) (b : List ITrigger)
    (h : readRealTrigger platform name n = .ok b) : isElement n = true := by
  cases n <;> simp_all [readRealTrigger, isElement]

lemma readRealTrigger_alike_iff {name : Option String} {c c' : XmlNode} (h : Commented c c') :
    Alike (readRealTrigger platform name (loaded c)) (readRealTrigger platform name (loaded c')) ↔
      SameRealTrigger platform name c c' := by
  cases h with
  | element uri tag h =>
      by_cases hday : tag = "day"
      · subst hday
        simp only [loaded, readRealTrigger, if_true]
        rw [alike_map_iff fun a b hab => by simpa using hab]
        exact ⟨fun h => ⟨fun _ => h, by simp [tagged]⟩, fun h => h.day (by simp [tagged])⟩
      · by_cases hring : tag = "ringDelay"
        · subst hring
          simp only [loaded, readRealTrigger, if_true, if_neg hday]
          rw [alike_map_iff fun a b hab => by simpa using hab]
          exact ⟨fun h => ⟨by simp [tagged], fun _ => h⟩, fun h => h.ringDelay (by simp [tagged])⟩
        · simp only [loaded, readRealTrigger, if_neg hday, if_neg hring]
          exact ⟨fun _ => ⟨by simp [tagged, hday], by simp [tagged, hring]⟩, fun _ => .of_eq rfl⟩

lemma sizedByTag_readRealTrigger (name : Option String) :
    SizedByTag (readRealTrigger platform name) := by
  intro uri tag cs cs' b b' h h'
  simp only [readRealTrigger] at h h'
  split_ifs at h h'
  · obtain ⟨t, -, ht⟩ := Except.bind_eq_ok_iff.mp h
    obtain ⟨t', -, ht'⟩ := Except.bind_eq_ok_iff.mp h'
    simp only [pure, Except.pure, Except.ok.injEq] at ht ht'
    simp [← ht, ← ht']
  · obtain ⟨t, -, ht⟩ := Except.bind_eq_ok_iff.mp h
    obtain ⟨t', -, ht'⟩ := Except.bind_eq_ok_iff.mp h'
    simp only [pure, Except.pure, Except.ok.injEq] at ht ht'
    simp [← ht, ← ht']
  · simp only [pure, Except.pure, Except.ok.injEq] at h h'
    simp [← h, ← h']

/-- What is read of a trigger. -/
lemma readTrigger_eq_ok_iff {collector : TriggerCollector} :
    readTrigger platform element = .ok collector ↔
      ∃ r, element.children.mapM (readRealTrigger platform (readString element "name")) = .ok r ∧
        collector = { name := readString element "name", triggers := r.flatten } := by
  simp only [readTrigger, Except.bind_eq_ok_iff, pure, Except.pure, Except.ok.injEq]
  exact exists_congr fun r => and_congr_right fun _ => eq_comm

lemma KeptTrigger.alike (h : Commented element element')
    (hkept : KeptTrigger platform element element') :
    readString (loaded element') "name" = readString (loaded element) "name" ∧
      Alike (readTrigger platform (loaded element)) (readTrigger platform (loaded element')) := by
  have hname := (readString_loaded_iff h "name").mpr hkept.name
  refine ⟨hname, ?_⟩
  unfold readTrigger
  rw [hname]
  refine (mapM_children_alike isElement_of_readRealTrigger h hkept.clear ?_).bind
    fun r => .of_eq rfl
  exact List.Forall₂.mp (fun c c' hc => (readRealTrigger_alike_iff hc).mpr) h.elements
    hkept.realTriggers

lemma keptTrigger_of_read (h : Commented element element')
    (hname : readString (loaded element') "name" = readString (loaded element) "name")
    {collector : TriggerCollector} (hread : readTrigger platform (loaded element) = .ok collector)
    (hread' : readTrigger platform (loaded element') = .ok collector) :
    KeptTrigger platform element element' := by
  obtain ⟨r, hr, rfl⟩ := readTrigger_eq_ok_iff.mp hread
  obtain ⟨r', hr', hsame⟩ := readTrigger_eq_ok_iff.mp hread'
  rw [hname] at hr'
  obtain ⟨hclear, hparts⟩ := parts_of_flatten_eq isElement_of_readRealTrigger
    (sizedByTag_readRealTrigger _) h hr hr' (congrArg TriggerCollector.triggers hsame)
  refine ⟨hclear, (readString_loaded_iff h "name").mp hname,
    List.Forall₂.mp (fun c c' hc hread => ?_) h.elements hparts⟩
  obtain ⟨b, hb, hb'⟩ := hread
  exact (readRealTrigger_alike_iff hc).mp (.of_eq (hb.trans hb'.symm))

lemma exists_readRealTrigger_iff {name : Option String} {n : XmlNode} :
    (∃ b, readRealTrigger platform name n = .ok b) ↔ isElement n = true ∧
      (tagged "day" n = true → ∃ t, DayTrigger.parse platform n.innerText name = .ok t) ∧
      (tagged "ringDelay" n = true → ∃ t, RingDelay.parse platform n.innerText name = .ok t) := by
  cases n with
  | element uri tag cs =>
      by_cases hday : tag = "day"
      · simp [readRealTrigger, hday, tagged, isElement, Except.bind_eq_ok_iff, pure, Except.pure]
      · by_cases hring : tag = "ringDelay"
        · simp [readRealTrigger, hring, tagged, isElement, Except.bind_eq_ok_iff, pure, Except.pure]
        · simp [readRealTrigger, hday, hring, tagged, isElement, pure, Except.pure]
  | text value => simp [readRealTrigger, isElement]
  | comment value => simp [readRealTrigger, isElement]

/-- **The triggers load if they are fit.** -/
lemma exists_loadTriggers_iff :
    (∃ d, loadTriggers platform root = .ok d) ↔ FitTriggers platform root := by
  have hread : ∀ e : XmlNode, (∃ c, readTrigger platform e = .ok c) ↔
      ∀ n ∈ e.children, ∃ b, readRealTrigger platform (readString e "name") n = .ok b := fun e => by
    simp only [readTrigger_eq_ok_iff, ← Except.exists_mapM_eq_ok_iff]
    exact ⟨fun ⟨_, r, hr, _⟩ => ⟨r, hr⟩, fun ⟨r, hr⟩ => ⟨_, r, hr, rfl⟩⟩
  simp only [loadTriggers, exists_loadNamed_iff, hread, exists_readRealTrigger_iff, forall_and]
  constructor
  · rintro ⟨hnamed, helements, hdays, hdelays⟩
    exact ⟨hnamed, fun e he => List.all_eq_true.mpr (helements e he), hdays, hdelays⟩
  · rintro ⟨hnamed, helements, hdays, hdelays⟩
    exact ⟨hnamed, fun e he => List.all_eq_true.mp (helements e he), hdays, hdelays⟩

/-- **The same triggers are loaded.** -/
lemma loadTriggers_alike_iff (h : Commented root root') :
    Alike (loadTriggers platform (loaded root)) (loadTriggers platform (loaded root')) ↔
      (FitTriggers platform (loaded root) ∨ FitTriggers platform (loaded root') →
        List.Forall₂ (KeptTrigger platform) (root.selectNodes "trigger")
          (root'.selectNodes "trigger")) := by
  rw [← exists_loadTriggers_iff, ← exists_loadTriggers_iff]
  simp only [loadTriggers, selectNodes_loaded]
  exact loadNamed_loaded_alike_iff (fun e e' he hk => hk.alike he)
    (fun e e' v he hname hread => keptTrigger_of_read he hname hread) (h.selectNodes "trigger")

/-! ## Packs -/

/-- The packs of a document can be loaded: they have names, distinct ones, nothing but elements
stands in them, they refer to triggers that can be loaded, and their files and delays are
readable. -/
structure FitPacks (platform : Platform) (root : XmlNode) : Prop where
  named : WellNamed (root.selectNodes "actions")
  references : ∀ e ∈ root.selectNodes "actions", ∀ t ∈ e.selectNodes "trigger",
    FitTriggers platform root ∧
      ∃ trigger ∈ root.selectNodes "trigger", readString trigger "name" = some t.innerText
  elements : ∀ e ∈ root.selectNodes "actions", e.onlyElements = true
  files : ∀ e ∈ root.selectNodes "actions", ∀ c ∈ e.children, tagged "playwav" c = true →
    platform.convertAudio c.innerText = .ok ()
  delays : ∀ e ∈ root.selectNodes "actions", ∀ c ∈ e.children, tagged "delay" c = true →
    ∃ n, platform.parseInt c.innerText = .ok n

/-- A child of a pack says the same, if it says anything. -/
structure SameRealAction (platform : Platform) (c c' : XmlNode) : Prop where
  playwav : tagged "playwav" c = true → c'.blanks = c.blanks
  delay : tagged "delay" c = true →
    Alike (platform.parseInt (loaded c).innerText) (platform.parseInt (loaded c').innerText)

/-- The comments in an `actions` element do no harm. -/
structure KeptPack (platform : Platform) (element element' : XmlNode) : Prop where
  clear : element'.hasComment = false
  name : (element'.selectSingleNode "name").map blanks =
    (element.selectSingleNode "name").map blanks
  triggers : (element'.selectNodes "trigger").map blanks =
    (element.selectNodes "trigger").map blanks
  realActions : List.Forall₂ (SameRealAction platform) element.elements element'.elements

lemma isElement_of_readRealAction (n : XmlNode) (b : List IAction)
    (h : readRealAction platform n = .ok b) : isElement n = true := by
  cases n <;> simp_all [readRealAction, isElement]

/-- What is read of a child of a pack. -/
lemma readRealAction_eq_ok_iff {uri tag : String} {cs : List XmlNode} {b : List IAction} :
    readRealAction platform (.element uri tag cs) = .ok b ↔
      if tag = "playwav" then
        platform.convertAudio (innerText (.element uri tag cs)) = .ok () ∧
          [.playwav (innerText (.element uri tag cs))] = b
      else if tag = "delay" then
        ∃ n, platform.parseInt (innerText (.element uri tag cs)) = .ok n ∧ [.delay n.toInt] = b
      else
        (if tag = "hangup" then [.hangup] else if tag = "accept" then [.accept] else []) = b := by
  have hunit : ∀ x : Except ConfigException Unit, (∃ u, x = .ok u) ↔ x = .ok () :=
    fun _ => ⟨fun ⟨_, hu⟩ => hu, fun hu => ⟨(), hu⟩⟩
  simp only [readRealAction]
  split_ifs <;> simp [Except.bind_eq_ok_iff, pure, Except.pure, hunit]

lemma sizedByTag_readRealAction : SizedByTag (readRealAction platform) := by
  intro uri tag cs cs' b b' h h'
  rw [readRealAction_eq_ok_iff] at h h'
  by_cases hplay : tag = "playwav"
  · rw [if_pos hplay] at h h'
    simp [← h.2, ← h'.2]
  · rw [if_neg hplay] at h h'
    by_cases hdelay : tag = "delay"
    · rw [if_pos hdelay] at h h'
      obtain ⟨n, -, rfl⟩ := h
      obtain ⟨n', -, rfl⟩ := h'
      simp
    · rw [if_neg hdelay] at h h'
      rw [← h, ← h']

lemma SameRealAction.alike {c c' : XmlNode} (h : Commented c c')
    (hsame : SameRealAction platform c c') :
    Alike (readRealAction platform (loaded c)) (readRealAction platform (loaded c')) := by
  have htext := h.innerText_eq_iff
  cases h with
  | element uri tag h =>
      intro b
      simp only [loaded] at htext ⊢
      rw [readRealAction_eq_ok_iff, readRealAction_eq_ok_iff]
      split_ifs with hplay hdelay
      · rw [htext.mpr (hsame.playwav (by simp [tagged, hplay]))]
      · exact exists_congr fun n => and_congr_left fun _ =>
          hsame.delay (by simp [tagged, hdelay]) n
      all_goals rfl

lemma sameRealAction_of_read {c c' : XmlNode} (h : Commented c c') {b : List IAction}
    (hread : readRealAction platform (loaded c) = .ok b)
    (hread' : readRealAction platform (loaded c') = .ok b) : SameRealAction platform c c' := by
  have htext := h.innerText_eq_iff
  cases h with
  | element uri tag h =>
      simp only [loaded] at htext hread hread'
      rw [readRealAction_eq_ok_iff] at hread hread'
      constructor
      · intro htag
        have hplay : tag = "playwav" := by simpa [tagged] using htag
        rw [if_pos hplay] at hread hread'
        exact htext.mp (by simpa using hread'.2.trans hread.2.symm)
      · intro htag
        have hdelay : tag = "delay" := by simpa [tagged] using htag
        simp only [hdelay, if_true, String.reduceEq, if_false] at hread hread'
        obtain ⟨n, hn, rfl⟩ := hread
        obtain ⟨n', hn', hnn'⟩ := hread'
        obtain rfl : n = n' := Int32.toInt_inj.mp (by simpa using hnn'.symm)
        refine .of_eq ?_
        simp only [loaded, hdelay, hn, hn']

/-- What is read of a pack. -/
lemma readActionPack_eq_ok_iff {pack : ActionPack TriggerCollector} :
    readActionPack platform root element = .ok pack ↔
      ∃ triggers, (element.selectNodes "trigger").mapM
          (fun t => findTrigger platform root t.innerText) = .ok triggers ∧
        ∃ r, element.children.mapM (readRealAction platform) = .ok r ∧
          pack =
            { name := (readString element "name").getD "", triggers, actions := r.flatten } := by
  simp only [readActionPack, Except.bind_eq_ok_iff, pure, Except.pure, Except.ok.injEq]
  exact exists_congr fun triggers => and_congr_right fun _ => exists_congr fun r =>
    and_congr_right fun _ => eq_comm

lemma findTrigger_alike
    (h : Alike (loadTriggers platform root) (loadTriggers platform root')) (name : String) :
    Alike (findTrigger platform root name) (findTrigger platform root' name) :=
  h.bind fun _ => .of_eq rfl

/-- A trigger that is found has the name it was looked for. -/
lemma name_of_findTrigger {name : String} {collector : TriggerCollector}
    (h : findTrigger platform root name = .ok collector) : collector.name = some name := by
  obtain ⟨d, hd, hlookup⟩ := Except.bind_eq_ok_iff.mp h
  obtain ⟨e, -, hname, hread⟩ := (get?_loadNamed hd name collector).mp (lookup_eq_ok_iff.mp hlookup)
  obtain ⟨r, -, rfl⟩ := readTrigger_eq_ok_iff.mp hread
  exact hname

lemma KeptPack.alike (htriggers : Alike (loadTriggers platform (loaded root))
      (loadTriggers platform (loaded root'))) (h : Commented element element')
    (hkept : KeptPack platform element element') :
    readString (loaded element') "name" = readString (loaded element) "name" ∧
      Alike (readActionPack platform (loaded root) (loaded element))
        (readActionPack platform (loaded root') (loaded element')) := by
  have hname := (readString_loaded_iff h "name").mpr hkept.name
  have htexts := (h.map_innerText_eq_iff "trigger").mpr hkept.triggers
  have hreferences : List.Forall₂ (fun t t' : XmlNode =>
      Alike (findTrigger platform (loaded root) t.innerText)
        (findTrigger platform (loaded root') t'.innerText))
      ((loaded element).selectNodes "trigger") ((loaded element').selectNodes "trigger") := by
    rw [eq_comm, ← List.forall₂_eq_eq_eq, List.forall₂_map_left_iff,
      List.forall₂_map_right_iff] at htexts
    exact htexts.imp fun t t' ht => ht ▸ findTrigger_alike htriggers _
  refine ⟨hname, ?_⟩
  unfold readActionPack
  rw [hname]
  refine (alike_mapM hreferences).bind fun triggers => ?_
  refine (mapM_children_alike isElement_of_readRealAction h hkept.clear ?_).bind
    fun r => .of_eq rfl
  exact List.Forall₂.mp (fun c c' hc hsame => hsame.alike hc) h.elements hkept.realActions

lemma keptPack_of_read (h : Commented element element')
    (hname : readString (loaded element') "name" = readString (loaded element) "name")
    {pack : ActionPack TriggerCollector}
    (hread : readActionPack platform (loaded root) (loaded element) = .ok pack)
    (hread' : readActionPack platform (loaded root') (loaded element') = .ok pack) :
    KeptPack platform element element' := by
  obtain ⟨triggers, htriggers, r, hr, rfl⟩ := readActionPack_eq_ok_iff.mp hread
  obtain ⟨triggers', htriggers', r', hr', hsame⟩ := readActionPack_eq_ok_iff.mp hread'
  obtain rfl : triggers = triggers' := congrArg ActionPack.triggers hsame
  obtain ⟨hclear, hparts⟩ := parts_of_flatten_eq isElement_of_readRealAction
    sizedByTag_readRealAction h hr hr' (congrArg ActionPack.actions hsame)
  refine ⟨hclear, (readString_loaded_iff h "name").mp hname, ?_, ?_⟩
  · -- the same triggers were found, and each has the name it was looked for
    rw [← h.map_innerText_eq_iff, eq_comm, ← List.forall₂_eq_eq_eq, List.forall₂_map_left_iff,
      List.forall₂_map_right_iff]
    refine (Except.forall₂_exists (Except.mapM_eq_ok_iff.mp htriggers)
      (Except.mapM_eq_ok_iff.mp htriggers')).imp ?_
    rintro t t' ⟨collector, hfound, hfound'⟩
    exact Option.some.inj ((name_of_findTrigger hfound).symm.trans (name_of_findTrigger hfound'))
  · refine List.Forall₂.mp (fun c c' hc hread => ?_) h.elements hparts
    obtain ⟨b, hb, hb'⟩ := hread
    exact sameRealAction_of_read hc hb hb'

lemma exists_readRealAction_iff {n : XmlNode} :
    (∃ b, readRealAction platform n = .ok b) ↔ isElement n = true ∧
      (tagged "playwav" n = true → platform.convertAudio n.innerText = .ok ()) ∧
      (tagged "delay" n = true → ∃ k, platform.parseInt n.innerText = .ok k) := by
  cases n with
  | element uri tag cs =>
      simp only [readRealAction_eq_ok_iff]
      by_cases hplay : tag = "playwav"
      · simp [hplay, tagged, isElement]
      · by_cases hdelay : tag = "delay" <;> simp [hplay, hdelay, tagged, isElement]
  | text value => simp [readRealAction, isElement]
  | comment value => simp [readRealAction, isElement]

lemma exists_findTrigger_iff {name : String} :
    (∃ c, findTrigger platform root name = .ok c) ↔ FitTriggers platform root ∧
      ∃ trigger ∈ root.selectNodes "trigger", readString trigger "name" = some name := by
  rw [← exists_loadTriggers_iff]
  simp only [findTrigger, Except.bind_eq_ok_iff, lookup_eq_ok_iff]
  constructor
  · rintro ⟨c, d, hd, hget⟩
    exact ⟨⟨d, hd⟩, (exists_get?_loadNamed hd name).mp ⟨c, hget⟩⟩
  · rintro ⟨⟨d, hd⟩, hnamed⟩
    obtain ⟨c, hget⟩ := (exists_get?_loadNamed hd name).mpr hnamed
    exact ⟨c, d, hd, hget⟩

/-- **The packs load if they are fit.** -/
lemma exists_loadActions_iff :
    (∃ d, loadActions platform (.document root) = .ok d) ↔ FitPacks platform root := by
  have hread : ∀ e : XmlNode, (∃ pack, readActionPack platform root e = .ok pack) ↔
      (∀ t ∈ e.selectNodes "trigger", ∃ c, findTrigger platform root t.innerText = .ok c) ∧
      ∀ n ∈ e.children, ∃ b, readRealAction platform n = .ok b := fun e => by
    simp only [readActionPack_eq_ok_iff, ← Except.exists_mapM_eq_ok_iff]
    exact ⟨fun ⟨_, triggers, ht, r, hr, _⟩ => ⟨⟨triggers, ht⟩, r, hr⟩,
      fun ⟨⟨triggers, ht⟩, r, hr⟩ => ⟨_, triggers, ht, r, hr, rfl⟩⟩
  change (∃ d, loadNamed (readActionPack platform root) (root.selectNodes "actions") = .ok d) ↔ _
  simp only [exists_loadNamed_iff, hread, exists_findTrigger_iff, exists_readRealAction_iff,
    forall_and]
  constructor
  · rintro ⟨hnamed, ⟨hfit, hfound⟩, helements, hfiles, hdelays⟩
    exact ⟨hnamed, fun e he t ht => ⟨hfit e he t ht, hfound e he t ht⟩,
      fun e he => List.all_eq_true.mpr (helements e he), hfiles, hdelays⟩
  · rintro ⟨hnamed, hreferences, helements, hfiles, hdelays⟩
    exact ⟨hnamed, ⟨fun e he t ht => (hreferences e he t ht).1,
      fun e he t ht => (hreferences e he t ht).2⟩,
      fun e he => List.all_eq_true.mp (helements e he), hfiles, hdelays⟩

/-- **The same packs are loaded**, if the triggers are the same. -/
lemma loadActions_alike_iff (h : Commented root root')
    (htriggers :
      Alike (loadTriggers platform (loaded root)) (loadTriggers platform (loaded root'))) :
    Alike (loadActions platform (.document (loaded root)))
        (loadActions platform (.document (loaded root'))) ↔
      (FitPacks platform (loaded root) ∨ FitPacks platform (loaded root') →
        List.Forall₂ (KeptPack platform) (root.selectNodes "actions")
          (root'.selectNodes "actions")) := by
  have hload : ∀ n : XmlNode, loadActions platform (.document (loaded n)) =
      loadNamed (readActionPack platform (loaded n)) ((n.selectNodes "actions").map loaded) :=
    fun n => by rw [← selectNodes_loaded]; rfl
  rw [← exists_loadActions_iff, ← exists_loadActions_iff]
  simp only [hload]
  exact loadNamed_loaded_alike_iff (fun e e' he hk => hk.alike htriggers he)
    (fun e e' v he hname hread => keptPack_of_read he hname hread) (h.selectNodes "actions")

/-! ## Accounts -/

/-- Two accounts that nobody can tell apart by their properties. -/
structure SameAccount (parse : String → Option ETransportMode) (account account' : XmlAccount) :
    Prop where
  index : account'.index = account.index
  accountName : account'.accountName = account.accountName
  displayName : account'.displayName = account.displayName
  hostName : account'.hostName = account.hostName
  id : account'.id = account.id
  userName : account'.userName = account.userName
  password : account'.password = account.password
  domainName : account'.domainName = account.domainName
  proxyAddress : account'.proxyAddress = account.proxyAddress
  transportMode : account'.transportMode parse = account.transportMode parse
  actionPacks : ∀ actions, account'.actionPacks actions = account.actionPacks actions

/-- The elements of an account whose text is taken as it is. -/
def accountFields : List String := ["displayName", "registrar", "username", "password", "realm"]

/-- The comments in a `sipekAccount` element do no harm. -/
structure KeptAccount (parse : String → Option ETransportMode) (element element' : XmlNode) :
    Prop where
  fields : ∀ name ∈ accountFields,
    (element'.selectSingleNode name).map blanks = (element.selectSingleNode name).map blanks
  transport : readEnum parse (loaded element') "transport" .TM_UDP =
    readEnum parse (loaded element) "transport" .TM_UDP
  actions : (element'.selectNodes "actions").map blanks =
    (element.selectNodes "actions").map blanks

/-- Packs under given names, each with its name. -/
lemma exists_packs : ∀ names : List String,
    ∃ actions : Dictionary String (ActionPack TriggerCollector),
      (∀ name ∈ names, actions.get? name ≠ none) ∧
      ∀ name pack, actions.get? name = some pack → pack.name = name
  | [] => ⟨.empty, by simp, by simp⟩
  | name :: names => by
      obtain ⟨actions, hall, hname⟩ := exists_packs names
      by_cases hfree : actions.get? name = none
      · obtain ⟨actions', hadd⟩ : ∃ actions', actions.add? name ⟨name, [], []⟩ = some actions' := by
          rw [← Option.isSome_iff_exists, Option.isSome_iff_ne_none, ne_eq,
            Dictionary.add?_eq_none_iff, not_not]
          exact hfree
        have hget := Dictionary.get?_of_add? hadd
        refine ⟨actions', fun n hn => ?_, fun n pack hn => ?_⟩
        · by_cases hne : n = name
          · simp [hget, hne]
          · rw [hget, if_neg hne]
            exact hall n ((List.mem_cons.mp hn).resolve_left hne)
        · by_cases hne : n = name
          · rw [hget, if_pos hne, Option.some.injEq] at hn
            rw [← hn, hne]
          · rw [hget, if_neg hne] at hn
            exact hname n pack hn
      · refine ⟨actions, fun n hn => ?_, hname⟩
        rcases List.mem_cons.mp hn with rfl | hn
        · exact hfree
        · exact hall n hn

/-- Texts that name the same packs, whatever packs there are, are the same. -/
lemma map_innerText_eq_iff_mapM {l l' : List XmlNode} :
    l'.map innerText = l.map innerText ↔
      ∀ actions : Dictionary String (ActionPack TriggerCollector),
        l'.mapM (fun e => ActionManager.findActionPack actions e.innerText) =
          l.mapM (fun e => ActionManager.findActionPack actions e.innerText) := by
  constructor
  · intro h actions
    have hmap : ∀ l : List XmlNode,
        l.mapM (fun e => ActionManager.findActionPack actions e.innerText) =
          (l.map innerText).mapM (ActionManager.findActionPack actions) := fun l => by
      rw [List.mapM_map]
      rfl
    rw [hmap, hmap, h]
  · intro h
    obtain ⟨actions, hall, hname⟩ := exists_packs (l.map innerText)
    have hfound : ∀ e ∈ l, ∃ pack, ActionManager.findActionPack actions e.innerText = .ok pack := by
      intro e he
      obtain ⟨pack, hpack⟩ :=
        Option.ne_none_iff_exists'.mp (hall _ (List.mem_map_of_mem he))
      exact ⟨pack, lookup_eq_ok_iff.mpr hpack⟩
    obtain ⟨packs, hpacks⟩ := Except.exists_mapM_eq_ok_iff.mpr hfound
    have hpacks' := (h actions).trans hpacks
    rw [← List.forall₂_eq_eq_eq, List.forall₂_map_left_iff, List.forall₂_map_right_iff]
    refine (Except.forall₂_exists (Except.mapM_eq_ok_iff.mp hpacks')
      (Except.mapM_eq_ok_iff.mp hpacks)).imp ?_
    rintro e' e ⟨pack, hpack', hpack⟩
    exact (hname _ _ (lookup_eq_ok_iff.mp hpack')).symm.trans
      (hname _ _ (lookup_eq_ok_iff.mp hpack))

/-- **The accounts are the same** if and only if the comments in their elements do no harm. -/
lemma sameAccount_iff {parse : String → Option ETransportMode} (h : Commented element element')
    (i : ℕ) :
    SameAccount parse { accountRoot := loaded element, index := i }
        { accountRoot := loaded element', index := i } ↔
      KeptAccount parse element element' := by
  have hread := readString_loaded_iff h
  have hactions := (h.map_innerText_eq_iff "actions").symm.trans map_innerText_eq_iff_mapM
  constructor
  · intro hsame
    refine ⟨?_, hsame.transportMode, hactions.mpr hsame.actionPacks⟩
    simp only [accountFields, List.forall_mem_cons, List.not_mem_nil, IsEmpty.forall_iff,
      implies_true, and_true]
    exact ⟨(hread _).mp hsame.displayName, (hread _).mp hsame.hostName,
      (hread _).mp hsame.userName, (hread _).mp hsame.password, (hread _).mp hsame.domainName⟩
  · rintro ⟨hfields, htransport, hacts⟩
    simp only [accountFields, List.forall_mem_cons, List.not_mem_nil, IsEmpty.forall_iff,
      implies_true, and_true] at hfields
    obtain ⟨hdisplay, hregistrar, huser, hpassword, hrealm⟩ := hfields
    exact ⟨rfl, (hread _).mpr hdisplay, (hread _).mpr hdisplay, (hread _).mpr hregistrar,
      (hread _).mpr huser, (hread _).mpr huser, (hread _).mpr hpassword, (hread _).mpr hrealm, rfl,
      htransport, hactions.mp hacts⟩

/-! ## Documents -/

/-- Everything that is loaded from two documents is the same, or fails to load from both. -/
structure SameConfiguration (platform : Platform) (parse : String → Option ETransportMode)
    (root root' : XmlNode) : Prop where
  triggers : Alike (loadTriggers platform root) (loadTriggers platform root')
  actions : Alike (loadActions platform (.document root)) (loadActions platform (.document root'))
  accounts : ∃ accounts accounts', readAccountConfiguration (.document root) = .ok accounts ∧
    readAccountConfiguration (.document root') = .ok accounts' ∧
    List.Forall₂ (SameAccount parse) accounts accounts'

/-- The accounts are always read. -/
lemma sameAccounts_iff {parse : String → Option ETransportMode} (h : Commented root root') :
    (∃ accounts accounts', readAccountConfiguration (.document (loaded root)) = .ok accounts ∧
        readAccountConfiguration (.document (loaded root')) = .ok accounts' ∧
        List.Forall₂ (SameAccount parse) accounts accounts') ↔
      List.Forall₂ (KeptAccount parse) (root.selectNodes "sipekAccount")
        (root'.selectNodes "sipekAccount") := by
  obtain ⟨hlen, hsel⟩ := List.forall₂_iff_get.mp (h.selectNodes "sipekAccount")
  have hread : ∀ n : XmlNode, readAccountConfiguration (.document (loaded n)) =
      .ok (((n.selectNodes "sipekAccount").map loaded).mapIdx fun i element =>
        { accountRoot := element, index := i }) := fun n => by
    rw [← selectNodes_loaded]
    rfl
  rw [hread, hread]
  refine Iff.trans (b := List.Forall₂ (SameAccount parse) (List.mapIdx _ _) (List.mapIdx _ _))
    ⟨?_, fun hsame => ⟨_, _, rfl, rfl, hsame⟩⟩ ?_
  · rintro ⟨_, _, ⟨⟩, ⟨⟩, hsame⟩
    exact hsame
  · simp only [List.forall₂_iff_get, List.length_mapIdx, List.length_map, List.get_eq_getElem,
      List.getElem_mapIdx, List.getElem_map]
    refine and_congr_right fun _ => forall_congr' fun i => forall₂_congr fun hi hi' => ?_
    exact sameAccount_iff (hsel i hi hi') i

/-- **Comments change nothing if and only if**, in case the triggers of one of the documents can be
loaded, the comments in the triggers do no harm, the same for the packs, and the comments in the
accounts do no harm. -/
theorem sameConfiguration_iff (platform : Platform) (parse : String → Option ETransportMode)
    (h : Commented root root') :
    SameConfiguration platform parse (loaded root) (loaded root') ↔
      (FitTriggers platform (loaded root) ∨ FitTriggers platform (loaded root') →
        List.Forall₂ (KeptTrigger platform) (root.selectNodes "trigger")
          (root'.selectNodes "trigger")) ∧
      (FitPacks platform (loaded root) ∨ FitPacks platform (loaded root') →
        List.Forall₂ (KeptPack platform) (root.selectNodes "actions")
          (root'.selectNodes "actions")) ∧
      List.Forall₂ (KeptAccount parse) (root.selectNodes "sipekAccount")
        (root'.selectNodes "sipekAccount") := by
  rw [← loadTriggers_alike_iff h, ← sameAccounts_iff h]
  constructor
  · rintro ⟨htriggers, hactions, haccounts⟩
    exact ⟨htriggers, (loadActions_alike_iff h htriggers).mp hactions, haccounts⟩
  · rintro ⟨htriggers, hpacks, haccounts⟩
    exact ⟨htriggers, (loadActions_alike_iff h htriggers).mpr hpacks, haccounts⟩

/-- `oneAccount`, with more nodes at the head of its trigger, its pack and its account. -/
def remarked (trigger actions account : List XmlNode) : XmlNode :=
  createElement "accounts"
    [createElement "trigger" (trigger ++ [withText "name" "always", withText "day" "sunday"]),
     createElement "actions" (actions ++
       [withText "name" "greeting", withText "trigger" "always", createElement "accept" []]),
     createElement "sipekAccount"
       (account ++ [withText "username" "tam", withText "actions" "greeting"])]

/-- A comment in the account changes nothing. -/
theorem sameConfiguration_iff_account :
    Commented (oneAccount "greeting" "greeting") (remarked [] [] [.comment "at home"]) ∧
    SameConfiguration barePlatform (fun _ => none) (loaded (oneAccount "greeting" "greeting"))
      (loaded (remarked [] [] [.comment "at home"])) := by
  have h : Commented (oneAccount "greeting" "greeting") (remarked [] [] [.comment "at home"]) :=
    .element _ _ (.element _ _ (.refl _) (.element _ _ (.refl _)
      (.element _ _ (.insert _ (.refl _)) .nil)))
  refine ⟨h, (sameConfiguration_iff barePlatform _ h).mpr ⟨fun _ => ?_, fun _ => ?_, ?_⟩⟩
  · exact .cons ⟨rfl, rfl, List.forall₂_same.mpr fun _ _ => ⟨fun _ => .of_eq rfl,
      fun _ => .of_eq rfl⟩⟩ .nil
  · exact .cons ⟨rfl, rfl, rfl, List.forall₂_same.mpr fun _ _ => ⟨fun _ => rfl,
      fun _ => .of_eq rfl⟩⟩ .nil
  · exact .cons ⟨by decide, rfl, rfl⟩ .nil

/-- A document with one trigger, on the day of a text, and one account, with a password. -/
def dayAndPassword (day password : List XmlNode) : XmlNode :=
  createElement "accounts"
    [createElement "trigger" [withText "name" "always", createElement "day" day],
     createElement "sipekAccount" [createElement "password" password]]

/-- **A comment in the trigger, or in the pack, is not an element**: the document loads without it,
and not with it.  **A blank piece of text is dropped**: a day that does not parse does so with a
comment behind its first character, and between two comments the blank of a password is lost. -/
theorem comments_change :
    (Commented (oneAccount "greeting" "greeting") (remarked [.comment "all day"] [] []) ∧
      Commented (oneAccount "greeting" "greeting") (remarked [] [.comment "polite"] []) ∧
      (∃ d, loadTriggers barePlatform (loaded (oneAccount "greeting" "greeting")) = .ok d) ∧
      (∃ d, loadActions barePlatform (.document (loaded (oneAccount "greeting" "greeting"))) =
        .ok d) ∧
      loadTriggers barePlatform (loaded (remarked [.comment "all day"] [] [])) =
        .error .InvalidCastException ∧
      loadActions barePlatform (.document (loaded (remarked [.comment "all day"] [] []))) =
        .error .InvalidCastException ∧
      loadActions barePlatform (.document (loaded (remarked [] [.comment "polite"] []))) =
        .error .InvalidCastException) ∧
    (Commented (dayAndPassword [.text (" " ++ "sunday")] [.text ("a" ++ (" " ++ "b"))])
        (dayAndPassword [.text " ", .comment "x", .text "sunday"]
          [.text "a", .comment "x", .text " ", .comment "y", .text "b"]) ∧
      loadTriggers DayTrigger.digitPlatform
          (loaded (dayAndPassword [.text (" " ++ "sunday")] [.text ("a" ++ (" " ++ "b"))])) =
        .error (.ArgumentException "Must specify valid information for parsing in the string.") ∧
      (∃ d, loadTriggers DayTrigger.digitPlatform (loaded (dayAndPassword
        [.text " ", .comment "x", .text "sunday"]
        [.text "a", .comment "x", .text " ", .comment "y", .text "b"])) = .ok d) ∧
      (∃ account, readAccountConfiguration (.document (loaded (dayAndPassword
          [.text (" " ++ "sunday")] [.text ("a" ++ (" " ++ "b"))]))) = .ok [account] ∧
        account.password = some "a b") ∧
      ∃ account, readAccountConfiguration (.document (loaded (dayAndPassword
          [.text " ", .comment "x", .text "sunday"]
          [.text "a", .comment "x", .text " ", .comment "y", .text "b"]))) = .ok [account] ∧
        account.password = some "ab") := by
  refine ⟨⟨?_, ?_, ⟨_, rfl⟩, ⟨_, rfl⟩, rfl, rfl, rfl⟩, ?_, rfl, ⟨_, rfl⟩, ⟨_, rfl, rfl⟩,
    ⟨_, rfl, rfl⟩⟩
  · exact .element _ _ (.element _ _ (.insert _ (.refl _)) (.refl _))
  · exact .element _ _ (.element _ _ (.refl _) (.element _ _ (.insert _ (.refl _)) (.refl _)))
  · refine .element _ _ (.element _ _ (.element _ _ (.refl _) (.element _ _ ?_ .nil))
      (.element _ _ (.element _ _ ?_ .nil) .nil))
    · exact .split _ _ _ (.refl _)
    · exact .split _ _ _ (.split _ _ _ (.refl _))

end TAM
