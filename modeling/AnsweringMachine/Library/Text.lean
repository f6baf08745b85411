import Mathlib.Data.List.DropRight
import Mathlib.Data.List.Infix

/-!
# Positions in texts

A text is a list of characters of any type.  The operations are those of a runtime that works with
positions: search for the first occurrence of a pattern (`indexOf`), cut a part out (`substring`,
`remove`), and strip both ends (`trim`); texts are split at a separator by `List.splitOn`.
Positions and lengths are integers, since they are computed by subtraction, and a part that does not
lie within the text is an exception.

The rules take the positions out again: a text that is put together from parts is searched and cut
at its seams (`indexOf_append`, `substring_middle`, `remove_end`).  `indexOf_append` needs a pattern
that does not begin anew within itself, such as one whose first character occurs in it only once.
-/

namespace Text

/-- A position or a length that does not fit the text. -/
inductive RangeException
  | ArgumentOutOfRangeException
  deriving DecidableEq, Repr

variable {α : Type*}

/-! ## Searching -/

section IndexOf

variable [DecidableEq α] {c : α} {p text before after : List α} {i : ℕ}

/-- The position of the first occurrence of a pattern. -/
def indexOf (p : List α) : List α → Option ℕ
  | [] => if p.isPrefixOf [] then some 0 else none
  | a :: text => if p.isPrefixOf (a :: text) then some 0 else (indexOf p text).map (· + 1)

/-- The position of the first occurrence that does not begin before a given one. -/
def indexFrom (p text : List α) (start : ℕ) : Option ℕ :=
  (indexOf p (text.drop start)).map (start + ·)

/-- The text in front of an occurrence that is found, and the text behind it. -/
lemma exists_of_indexOf (h : indexOf p text = some i) :
    ∃ before after, text = before ++ p ++ after ∧ before.length = i := by
  induction text generalizing i with
  | nil =>
      simp only [indexOf] at h
      split_ifs at h with hp
      obtain ⟨after, hafter⟩ := List.isPrefixOf_iff_prefix.mp hp
      exact ⟨[], after, by simpa using hafter.symm, by simpa using h⟩
  | cons a text ih =>
      simp only [indexOf] at h
      split_ifs at h with hp
      · obtain ⟨after, hafter⟩ := List.isPrefixOf_iff_prefix.mp hp
        exact ⟨[], after, by simpa using hafter.symm, by simpa using h⟩
      · obtain ⟨j, hj, rfl⟩ := Option.map_eq_some_iff.mp h
        obtain ⟨before, after, rfl, rfl⟩ := ih hj
        exact ⟨a :: before, after, by simp, by simp⟩

/-- Nothing is found if and only if the pattern does not occur. -/
lemma indexOf_eq_none_iff : indexOf p text = none ↔ ¬ p <:+: text := by
  induction text with
  | nil => simp [indexOf]
  | cons a text ih =>
      simp only [indexOf, List.infix_cons_iff, not_or, ← ih, ← List.isPrefixOf_iff_prefix]
      split_ifs with hp <;> simp [hp]

/-- **The first occurrence is at the seam**, if the pattern does not begin anew within itself and
does not occur in front of the seam. -/
theorem indexOf_append (hc : c ∉ p) (hbefore : ¬ c :: p <:+: before) (after : List α) :
    indexOf (c :: p) (before ++ c :: p ++ after) = some before.length := by
  induction before with
  | nil =>
      have hp : (c :: p).isPrefixOf (c :: p ++ after) :=
        List.isPrefixOf_iff_prefix.mpr (List.prefix_append _ _)
      simp only [List.nil_append, List.cons_append, indexOf] at hp ⊢
      rw [if_pos hp]
      rfl
  | cons a before ih =>
      rw [List.infix_cons_iff, not_or] at hbefore
      have hp : ¬ (c :: p).isPrefixOf (a :: (before ++ c :: p ++ after)) := by
        rw [List.isPrefixOf_iff_prefix, List.cons_prefix_cons]
        rintro ⟨rfl, hp⟩
        -- an occurrence at the front ends before the seam, or runs over its first character
        rcases le_or_gt p.length before.length with hle | hlt
        · have hpre : p <+: before := List.prefix_of_prefix_length_le hp
            (by simp [List.append_assoc]) hle
          exact hbefore.1 (List.cons_prefix_cons.mpr ⟨rfl, hpre⟩)
        · have hpre : before ++ [c] <+: p := List.prefix_of_prefix_length_le
            ⟨p ++ after, by simp⟩ hp (by rw [List.length_append]; exact hlt)
          exact hc (hpre.subset (by simp))
      simp only [List.cons_append, indexOf]
      rw [if_neg hp, ih hbefore.2]
      rfl

/-- A single character. -/
lemma indexOf_singleton (hc : c ∉ before) (after : List α) :
    indexOf [c] (before ++ c :: after) = some before.length := by
  have h := indexOf_append (p := []) (List.not_mem_nil (a := c))
    (fun hin => hc (hin.subset (by simp))) after
  simpa using h

lemma indexOf_singleton_eq_none : indexOf [c] text = none ↔ c ∉ text := by
  rw [indexOf_eq_none_iff, List.singleton_infix_iff]

/-- Up to a separator that is not in front of the seam, a text is taken whole. -/
lemma takeWhile_ne (hc : c ∉ before) (after : List α) :
    (before ++ c :: after).takeWhile (· ≠ c) = before := by
  have hne : ∀ a ∈ before, decide (a ≠ c) = true := by
    intro a ha
    simpa using ne_of_mem_of_not_mem ha hc
  rw [List.takeWhile_append_of_pos hne]
  simp

lemma dropWhile_ne (hc : c ∉ before) (after : List α) :
    (before ++ c :: after).dropWhile (· ≠ c) = c :: after := by
  have hne : ∀ a ∈ before, decide (a ≠ c) = true := by
    intro a ha
    simpa using ne_of_mem_of_not_mem ha hc
  rw [List.dropWhile_append_of_pos hne]
  simp

end IndexOf

/-! ## Splitting -/

section Split

variable [DecidableEq α] {c : α} {text part : List α} {parts : List (List α)}

/-- No part of a split text has the separator in it. -/
lemma not_mem_of_mem_splitOn (h : part ∈ text.splitOn c) : c ∉ part := by
  induction text generalizing part with
  | nil =>
      obtain rfl : part = [] := by simpa [List.splitOn] using h
      simp
  | cons a text ih =>
      rw [List.splitOn_eq_splitOnP, List.splitOnP_cons_eq_if_modifyHead,
        ← List.splitOn_eq_splitOnP] at h
      split_ifs at h with ha
      · rcases List.mem_cons.mp h with rfl | h
        · simp
        · exact ih h
      · have hac : c ≠ a := fun hca => ha (by simp [hca])
        -- the first part is the one that grows
        cases hsplit : text.splitOn c with
        | nil => exact absurd hsplit (List.splitOn_ne_nil c text)
        | cons first rest =>
            rw [hsplit, List.modifyHead_cons] at h
            rcases List.mem_cons.mp h with rfl | h
            · exact List.not_mem_cons_of_ne_of_not_mem hac (ih (by simp [hsplit]))
            · exact ih (by simp [hsplit, h])

/-- **A split is the one way to put a text together** from parts without the separator. -/
theorem splitOn_eq_iff :
    text.splitOn c = parts ↔
      parts ≠ [] ∧ (∀ part ∈ parts, c ∉ part) ∧ text = [c].intercalate parts := by
  constructor
  · rintro rfl
    exact ⟨List.splitOn_ne_nil c text, fun part h => not_mem_of_mem_splitOn h,
      (List.intercalate_splitOn c).symm⟩
  · rintro ⟨hne, hparts, rfl⟩
    exact List.splitOn_intercalate c hparts hne

/-- A character of the text is the separator, or in a part. -/
lemma exists_mem_splitOn {a : α} (h : a ∈ text) : a = c ∨ ∃ part ∈ text.splitOn c, a ∈ part := by
  have hjoin : [c].intercalate (text.splitOn c) = text := List.intercalate_splitOn c
  rw [← hjoin] at h
  generalize text.splitOn c = parts at h
  induction parts with
  | nil => simp [List.intercalate] at h
  | cons part parts ih =>
      cases parts with
      | nil => exact .inr ⟨part, by simp, by simpa [List.intercalate] using h⟩
      | cons next parts =>
          rw [List.intercalate_cons_cons, List.append_assoc, List.mem_append, List.mem_append,
            List.mem_singleton] at h
          rcases h with h | h | h
          · exact .inr ⟨part, by simp, h⟩
          · exact .inl h
          · rcases ih h with h | ⟨part', hpart', h⟩
            · exact .inl h
            · exact .inr ⟨part', by simp only [List.mem_cons] at hpart' ⊢; exact .inr hpart', h⟩

end Split

/-! ## Cutting -/

/-- The part of a text with a given start and length. -/
def substring (text : List α) (start length : ℤ) : Except RangeException (List α) :=
  if 0 ≤ start ∧ 0 ≤ length ∧ start + length ≤ text.length then
    .ok ((text.drop start.toNat).take length.toNat)
  else .error .ArgumentOutOfRangeException

/-- The part of a text from a position on. -/
def substringFrom (text : List α) (start : ℤ) : Except RangeException (List α) :=
  substring text start (text.length - start)

/-- A text without a part. -/
def remove (text : List α) (start count : ℤ) : Except RangeException (List α) :=
  if 0 ≤ start ∧ 0 ≤ count ∧ start + count ≤ text.length then
    .ok (text.take start.toNat ++ text.drop (start + count).toNat)
  else .error .ArgumentOutOfRangeException

lemma substring_middle (before part after : List α) {start length : ℤ}
    (hstart : start = before.length) (hlength : length = part.length) :
    substring (before ++ part ++ after) start length = .ok part := by
  subst hstart hlength
  have hwithin : 0 ≤ (before.length : ℤ) ∧ 0 ≤ (part.length : ℤ) ∧
      (before.length : ℤ) + part.length ≤ ((before ++ part ++ after).length : ℤ) := by
    simp only [List.length_append]
    omega
  rw [substring, if_pos hwithin]
  simp

lemma substringFrom_append (before part : List α) {start : ℤ} (hstart : start = before.length) :
    substringFrom (before ++ part) start = .ok part := by
  have h := substring_middle before part [] hstart
    (show ((before ++ part).length - start : ℤ) = part.length by
      rw [hstart, List.length_append]
      omega)
  rwa [List.append_nil] at h

lemma remove_end (before part : List α) {start count : ℤ} (hstart : start = before.length)
    (hcount : count = part.length) : remove (before ++ part) start count = .ok before := by
  subst hstart hcount
  rw [remove, if_pos (by simp), ← Int.natCast_add, Int.toNat_natCast, Int.toNat_natCast,
    ← List.length_append, List.drop_length, List.take_left, List.append_nil]

/-! ## Stripping -/

/-- A text without the blanks at its ends. -/
def trim (white : α → Bool) (text : List α) : List α := (text.dropWhile white).rdropWhile white

lemma trim_eq_self {white : α → Bool} {text : List α} (h : ∀ a ∈ text, white a = false) :
    trim white text = text := by
  have hfront : text.dropWhile white = text :=
    List.dropWhile_eq_self_iff.mpr fun hl => by simp [h _ (List.getElem_mem hl)]
  rw [trim, hfront]
  exact List.rdropWhile_eq_self_iff.mpr fun hl => by simp [h _ (List.getLast_mem hl)]

/-- Only blanks are lost. -/
lemma mem_trim_or (white : α → Bool) {text : List α} {a : α} (h : a ∈ text) :
    a ∈ trim white text ∨ white a = true := by
  have hsplit : ∀ {l : List α}, a ∈ l → a ∈ l.dropWhile white ∨ white a = true := by
    intro l hl
    rw [← List.takeWhile_append_dropWhile (p := white) (l := l), List.mem_append] at hl
    exact hl.symm.imp_right List.mem_takeWhile_imp
  rcases hsplit h with h | h
  · rcases hsplit (List.mem_reverse.mpr h) with h | h
    · exact .inl (List.mem_reverse.mpr h)
    · exact .inr h
  · exact .inr h

/-- The white space of Unicode. -/
def isWhiteSpace (c : Char) : Bool :=
  (0x9 ≤ c.toNat ∧ c.toNat ≤ 0xD) ∨ (0x2000 ≤ c.toNat ∧ c.toNat ≤ 0x200A) ∨
    c.toNat ∈ [0x20, 0x85, 0xA0, 0x1680, 0x2028, 0x2029, 0x202F, 0x205F, 0x3000]

end Text
