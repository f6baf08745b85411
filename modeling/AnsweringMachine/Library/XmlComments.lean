import AnsweringMachine.Library.Outcome
import AnsweringMachine.Library.Xml

/-!
# Comments in XML files

`Commented node node'` says that in the file the element `node'` is `node` with comments inserted at
any places: between the children of an element, at any depth, and inside a text, which falls into
two pieces.  What a program sees is `loaded node` and `loaded node'`, in which white space that
stands by itself is dropped.

So a comment shows in two ways.

* It is a child itself: a reader that goes through the children and takes nothing but elements stops
  at it, and it stops nowhere else (`Commented.onlyElements_iff`).
* A piece of white space that it cuts off a text is dropped.  The text is read as before if and only
  if the white space that stands by itself has not become more (`Commented.innerText_eq_iff`).

Otherwise the elements of a name are found as before (`Commented.selectNodes`).
-/

namespace XmlNode

/-- Comments are inserted into a list of nodes, and into the nodes. -/
inductive CommentedList : List XmlNode → List XmlNode → Prop
  | nil : CommentedList [] []
  | insert (value : String) {ns ns' : List XmlNode} :
      CommentedList ns ns' → CommentedList ns (.comment value :: ns')
  /-- A text falls into two pieces; the second may be divided again. -/
  | split (v₁ v₂ value : String) {ns ns' : List XmlNode} :
      CommentedList (.text v₂ :: ns) ns' →
      CommentedList (.text (v₁ ++ v₂) :: ns) (.text v₁ :: .comment value :: ns')
  | element (uri name : String) {cs cs' ns ns' : List XmlNode} :
      CommentedList cs cs' → CommentedList ns ns' →
      CommentedList (.element uri name cs :: ns) (.element uri name cs' :: ns')
  | text (value : String) {ns ns' : List XmlNode} :
      CommentedList ns ns' → CommentedList (.text value :: ns) (.text value :: ns')
  | comment (value : String) {ns ns' : List XmlNode} :
      CommentedList ns ns' → CommentedList (.comment value :: ns) (.comment value :: ns')

/-- Comments are inserted into an element. -/
inductive Commented : XmlNode → XmlNode → Prop
  | element (uri name : String) {cs cs' : List XmlNode} :
      CommentedList cs cs' → Commented (.element uri name cs) (.element uri name cs')

/-- Is the node a comment? -/
def isComment : XmlNode → Bool
  | .comment _ => true
  | .element _ _ _ | .text _ => false

/-- Is the node an element? -/
def isElement : XmlNode → Bool
  | .element _ _ _ => true
  | .text _ | .comment _ => false

/-- Does a comment stand directly inside the node? -/
def hasComment (node : XmlNode) : Bool := node.children.any isComment

/-- The children that are elements. -/
def elements (node : XmlNode) : List XmlNode := node.children.filter isElement

/-- Nothing but elements stands directly inside the node. -/
def onlyElements (node : XmlNode) : Bool := node.children.all isElement

mutual

/-- How much white space stands by itself in a node: the texts that are not read. -/
def blanks : XmlNode → ℕ
  | .element _ _ children => blanksAll children
  | .text value => if isBlank value then value.length else 0
  | .comment _ => 0

/-- The same for a list of nodes. -/
def blanksAll : List XmlNode → ℕ
  | [] => 0
  | node :: nodes => node.blanks + blanksAll nodes

end

section

variable {ns ns' : List XmlNode} {node node' : XmlNode}

/-- No comment is inserted. -/
lemma CommentedList.refl : ∀ ns : List XmlNode, CommentedList ns ns
  | [] => .nil
  | .element uri name cs :: ns => .element uri name (refl cs) (refl ns)
  | .text value :: ns => .text value (refl ns)
  | .comment value :: ns => .comment value (refl ns)

/-! ## Inner text -/

lemma isBlank_append {v₁ v₂ : String} :
    isBlank (v₁ ++ v₂) = true ↔ isBlank v₁ = true ∧ isBlank v₂ = true := by
  simp [isBlank, List.all_append]

/-- In the file the joined text is the same: a comment adds none, and the pieces of a text follow
each other. -/
lemma CommentedList.innerTexts (h : CommentedList ns ns') :
    XmlNode.innerTexts ns' = XmlNode.innerTexts ns := by
  induction h with
  | nil => rfl
  | insert value _ ih => simp [XmlNode.innerTexts, XmlNode.innerText, ih]
  | split v₁ v₂ value _ ih =>
      simp only [XmlNode.innerTexts, XmlNode.innerText, String.empty_append,
        String.append_assoc] at ih ⊢
      rw [ih]
  | element uri name _ _ ihc ih => simp [XmlNode.innerTexts, XmlNode.innerText, ihc, ih]
  | text value _ ih => simp [XmlNode.innerTexts, ih]
  | comment value _ ih => simp [XmlNode.innerTexts, ih]

/-- What is read of a text. -/
lemma innerTexts_rereadAll_text (value : String) (ns : List XmlNode) :
    XmlNode.innerTexts (rereadAll (.text value :: ns)) =
      (if isBlank value then "" else value) ++ XmlNode.innerTexts (rereadAll ns) := by
  by_cases hv : isBlank value <;> simp [rereadAll, reread, hv, XmlNode.innerTexts, innerText]

/-- What is read of an element. -/
lemma innerTexts_rereadAll_element (uri name : String) (cs ns : List XmlNode) :
    XmlNode.innerTexts (rereadAll (.element uri name cs :: ns)) =
      XmlNode.innerTexts (rereadAll cs) ++ XmlNode.innerTexts (rereadAll ns) := by
  simp [rereadAll, reread, XmlNode.innerTexts, innerText]

/-- A comment is read, and adds no text. -/
lemma innerTexts_rereadAll_comment (value : String) (ns : List XmlNode) :
    XmlNode.innerTexts (rereadAll (.comment value :: ns)) = XmlNode.innerTexts (rereadAll ns) := by
  simp [rereadAll, reread, XmlNode.innerTexts, innerText]

/-- The text in the file is what is read and what is dropped. -/
lemma length_innerTexts : ∀ ns : List XmlNode,
    (XmlNode.innerTexts ns).length = (XmlNode.innerTexts (rereadAll ns)).length + blanksAll ns
  | [] => by simp [XmlNode.innerTexts, rereadAll, blanksAll]
  | .element uri name cs :: ns => by
      have hcs := length_innerTexts cs
      have hns := length_innerTexts ns
      rw [innerTexts_rereadAll_element]
      simp only [XmlNode.innerTexts, innerText, String.length_append, blanksAll, blanks]
      omega
  | .text value :: ns => by
      have hns := length_innerTexts ns
      rw [innerTexts_rereadAll_text]
      simp only [XmlNode.innerTexts, innerText, String.length_append, blanksAll, blanks]
      by_cases hv : isBlank value
      · simp only [hv, if_true, String.length_empty]
        omega
      · simp only [hv, Bool.false_eq_true, if_false]
        omega
  | .comment value :: ns => by
      have hns := length_innerTexts ns
      rw [innerTexts_rereadAll_comment]
      simpa [XmlNode.innerTexts, innerText, blanksAll, blanks] using hns

/-- With comments nothing is read that was not read before. -/
lemma CommentedList.sublist (h : CommentedList ns ns') :
    (XmlNode.innerTexts (rereadAll ns')).toList.Sublist
      (XmlNode.innerTexts (rereadAll ns)).toList := by
  induction h with
  | nil => exact List.Sublist.refl _
  | insert value _ ih => rwa [innerTexts_rereadAll_comment]
  | split v₁ v₂ value _ ih =>
      rw [innerTexts_rereadAll_text, innerTexts_rereadAll_comment, innerTexts_rereadAll_text]
      rw [innerTexts_rereadAll_text] at ih
      simp only [String.toList_append] at ih ⊢
      -- a blank text has blank pieces; of another one a blank piece may be missing
      by_cases h₁ : isBlank v₁
      · by_cases h₂ : isBlank v₂
        · simpa [h₁, h₂, isBlank_append.mpr ⟨h₁, h₂⟩] using ih
        · have h₁₂ : ¬ isBlank (v₁ ++ v₂) := fun h => h₂ (isBlank_append.mp h).2
          simp only [h₁, h₂, h₁₂, if_true] at ih ⊢
          simpa using ih.trans (List.sublist_append_right v₁.toList _)
      · have h₁₂ : ¬ isBlank (v₁ ++ v₂) := fun h => h₁ (isBlank_append.mp h).1
        have hpiece : (if isBlank v₂ then "" else v₂).toList.Sublist v₂.toList := by
          split
          · simp
          · exact List.Sublist.refl _
        simp only [h₁, h₁₂] at ih ⊢
        simpa using ih.trans (hpiece.append_right _)
  | element uri name _ _ ihc ih =>
      rw [innerTexts_rereadAll_element, innerTexts_rereadAll_element]
      simpa using ihc.append ih
  | text value _ ih =>
      rw [innerTexts_rereadAll_text, innerTexts_rereadAll_text]
      simpa using ih
  | comment value _ ih => rwa [innerTexts_rereadAll_comment, innerTexts_rereadAll_comment]

/-- **A text is read as before** if and only if no white space was cut off it. -/
theorem Commented.innerText_eq_iff (h : Commented node node') :
    innerText (loaded node') = innerText (loaded node) ↔ node'.blanks = node.blanks := by
  cases h with
  | @element uri name cs cs' h =>
      have hlen := length_innerTexts cs
      have hlen' := length_innerTexts cs'
      rw [h.innerTexts] at hlen'
      simp only [loaded, innerText, blanks]
      constructor
      · intro htext
        rw [htext] at hlen'
        omega
      · intro hblanks
        refine String.toList_inj.mp (h.sublist.eq_of_length ?_)
        simp only [String.length_toList]
        omega

/-! ## Selection -/

@[simp] lemma isNamed_loaded (name : String) (node : XmlNode) :
    isNamed name (loaded node) = isNamed name node := by
  cases node <;> rfl

@[simp] lemma isElement_loaded (node : XmlNode) : isElement (loaded node) = isElement node := by
  cases node <;> rfl

/-- The elements among the nodes that are read. -/
lemma filter_rereadAll {p : XmlNode → Bool} (hp : ∀ n, p n = true → isElement n = true)
    (hloaded : ∀ n, p (loaded n) = p n) (ns : List XmlNode) :
    (rereadAll ns).filter p = (ns.filter p).map loaded := by
  have hnone : ∀ n, isElement n = false → p n = false := fun n hn => by
    by_contra hpn
    simp [hp n (by simpa using hpn)] at hn
  induction ns with
  | nil => simp [rereadAll]
  | cons n ns ih =>
      cases n with
      | element uri name cs =>
          have hn := hloaded (.element uri name cs)
          simp only [loaded] at hn
          by_cases hpn : p (.element uri name cs) <;> simp_all [rereadAll, reread, loaded]
      | text value =>
          by_cases hv : isBlank value <;>
            simp [rereadAll, reread, hv, hnone (.text value) rfl, ih]
      | comment value => simp [rereadAll, reread, hnone (.comment value) rfl, ih]

lemma selectNodes_loaded (node : XmlNode) (name : String) :
    (loaded node).selectNodes name = (node.selectNodes name).map loaded := by
  cases node with
  | element uri tag cs =>
      exact filter_rereadAll (fun n hn => by cases n <;> simp_all [isNamed, isElement])
        (isNamed_loaded name) cs
  | text value => rfl
  | comment value => rfl

lemma elements_loaded (node : XmlNode) : (loaded node).elements = node.elements.map loaded := by
  cases node with
  | element uri tag cs => exact filter_rereadAll (fun _ => id) isElement_loaded cs
  | text value => rfl
  | comment value => rfl

/-- The first element of a name is the first of the elements of that name. -/
lemma selectSingleNode_eq_head? (node : XmlNode) (name : String) :
    node.selectSingleNode name = (node.selectNodes name).head? := by
  simp [selectSingleNode, selectNodes, List.head?_filter]

/-- The elements are the same, with comments inserted. -/
lemma CommentedList.filter {p : XmlNode → Bool} (hp : ∀ n, p n = true → isElement n = true)
    (hsame : ∀ {n n'}, Commented n n' → p n' = p n) (h : CommentedList ns ns') :
    List.Forall₂ Commented (ns.filter p) (ns'.filter p) := by
  have hnone : ∀ n, isElement n = false → p n = false := fun n hn => by
    by_contra hpn
    simp [hp n (by simpa using hpn)] at hn
  induction h with
  | nil => exact .nil
  | insert value _ ih => simpa [hnone (.comment value) rfl] using ih
  | split v₁ v₂ value _ ih =>
      simpa [hnone (.comment value) rfl, hnone (.text _) rfl] using ih
  | @element uri tag cs cs' ns ns' hc _ _ ih =>
      have hn := hsame (.element uri tag hc)
      by_cases hpn : p (.element uri tag cs)
      · rw [List.filter_cons_of_pos hpn, List.filter_cons_of_pos (hn.trans hpn)]
        exact .cons (.element uri tag hc) ih
      · rw [List.filter_cons_of_neg hpn, List.filter_cons_of_neg (by rwa [hn])]
        exact ih
  | text value _ ih => simpa [hnone (.text value) rfl] using ih
  | comment value _ ih => simpa [hnone (.comment value) rfl] using ih

/-- **The elements of a name are found as before.** -/
theorem Commented.selectNodes (h : Commented node node') (name : String) :
    List.Forall₂ Commented (node.selectNodes name) (node'.selectNodes name) := by
  cases h with
  | element uri tag h =>
      refine h.filter (fun n hn => ?_) fun hn => ?_
      · cases n <;> simp_all [isNamed, isElement]
      · cases hn
        rfl

lemma Commented.elements (h : Commented node node') :
    List.Forall₂ Commented node.elements node'.elements := by
  cases h with
  | element uri tag h =>
      refine h.filter (fun _ => id) fun hn => ?_
      cases hn
      rfl

/-- The texts of the elements of a name are read as before if no white space was cut off them. -/
lemma Commented.map_innerText_eq_iff (h : Commented node node') (name : String) :
    ((loaded node').selectNodes name).map innerText = ((loaded node).selectNodes name).map innerText
      ↔ (node'.selectNodes name).map blanks = (node.selectNodes name).map blanks := by
  rw [selectNodes_loaded, selectNodes_loaded, List.map_map, List.map_map]
  have hsel := h.selectNodes name
  generalize node.selectNodes name = l at hsel
  generalize node'.selectNodes name = l' at hsel
  induction hsel with
  | nil => simp
  | cons hn _ ih => simp [hn.innerText_eq_iff, ih]

/-- The same for the first element of a name. -/
lemma Commented.map_selectSingleNode_eq_iff (h : Commented node node') (name : String) :
    ((loaded node').selectSingleNode name).map innerText =
        ((loaded node).selectSingleNode name).map innerText ↔
      (node'.selectSingleNode name).map blanks = (node.selectSingleNode name).map blanks := by
  simp only [selectSingleNode_eq_head?, selectNodes_loaded]
  have hsel := h.selectNodes name
  generalize node.selectNodes name = l at hsel
  generalize node'.selectNodes name = l' at hsel
  cases hsel with
  | nil => simp
  | cons hn _ => simpa using hn.innerText_eq_iff

/-! ## Children -/

lemma CommentedList.all_isElement_iff (h : CommentedList ns ns') :
    (rereadAll ns').all isElement = true ↔
      (rereadAll ns).all isElement = true ∧ ns'.any isComment = false := by
  induction h with
  | nil => simp [rereadAll]
  | insert value _ _ => simp [rereadAll, reread, isElement, isComment]
  | split v₁ v₂ value _ _ => simp [rereadAll, reread, isElement, isComment]
  | element uri tag _ _ _ ih => simp [rereadAll, reread, isElement, isComment, ih]
  | text value _ ih =>
      by_cases hv : isBlank value <;> simp [rereadAll, reread, isElement, isComment, hv, ih]
  | comment value _ _ => simp [rereadAll, reread, isElement, isComment]

/-- **Nothing but elements is found inside** if that was so before, and no comment stands there. -/
theorem Commented.onlyElements_iff (h : Commented node node') :
    (loaded node').onlyElements = true ↔
      (loaded node).onlyElements = true ∧ node'.hasComment = false := by
  cases h with
  | element uri tag h => exact h.all_isElement_iff

/-- A pass over the children that takes nothing but elements. -/
lemma mapM_children_eq_ok_iff {ε β : Type} {f : XmlNode → Except ε β} {r : List β}
    (hf : ∀ n b, f n = .ok b → isElement n = true) (node : XmlNode) :
    node.children.mapM f = .ok r ↔ node.onlyElements = true ∧ node.elements.mapM f = .ok r := by
  have hall : node.onlyElements = true → node.elements = node.children := fun h => by
    simpa [elements, onlyElements, List.filter_eq_self] using h
  constructor
  · intro h
    have honly : node.onlyElements = true := by
      refine List.all_eq_true.mpr fun n hn => ?_
      obtain ⟨b, hb⟩ := Except.exists_mapM_eq_ok_iff.mp ⟨r, h⟩ n hn
      exact hf n b hb
    rw [hall honly]
    exact ⟨honly, h⟩
  · rintro ⟨honly, h⟩
    rwa [hall honly] at h

end

end XmlNode
