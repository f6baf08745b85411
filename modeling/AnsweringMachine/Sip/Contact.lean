import AnsweringMachine.CallControl.Manager
import AnsweringMachine.Library.Text

/-!
# The caller in the contact of a call

`onCallIncoming` of the call wrapper gets the contact of the remote party as the stack prints it,
and hands number and display text on to the subscribers of `CallIncoming`, which is the event
`callIncoming` of the manager.  It searches the whole contact for `<sip:` and, independently of
that, for the first `@`.

`identify_of_sip` says what is found in a contact with an address: the display text is what is in
front of it, and the number is found if the first `@` is behind it.  So a display text with an `@`
hides the number (`contact_identified_iff`), while no contact at all raises an exception.

`String.IndexOf` of a string compares by the rules of the current culture, which may pass over
characters without a weight and equate sequences that differ.  The search is taken as ordinal here,
character by character; for contacts of printable ASCII characters, as the stack prints them, the
two agree.
-/

namespace TAM

open Text

namespace PjsipCallProxy

/-- The position the runtime returns; `-1` stands for none. -/
def position (i : Option ℕ) : ℤ := (i.map Nat.cast).getD (-1)

@[simp] lemma position_some (i : ℕ) : position (some i) = i := rfl

@[simp] lemma position_none : position none = -1 := rfl

/-- The beginning of an address. -/
def sipStart : List Char := ['<', 's', 'i', 'p', ':']

/-- "Search for number". -/
def searchNumber (uri : List Char) (startNum atPos : ℤ) : Except RangeException (List Char) :=
  if startNum ≥ 0 ∧ atPos > startNum then substring uri (startNum + 5) (atPos - startNum - 5)
  else pure []

/-- "Extract display name if exists".  Without an address the display text is still empty when it is
searched for a semicolon and a colon. -/
def extractDisplay (uri : List Char) (startNum : ℤ) : Except RangeException (List Char) :=
  if startNum ≥ 0 then trim isWhiteSpace <$> remove uri startNum (uri.length - startNum)
  else
    let display : List Char := []
    let semiPos := position (indexOf [';'] display)
    if semiPos ≥ 0 then remove display semiPos (display.length - semiPos)
    else
      let colPos := position (indexOf [':'] display)
      if colPos ≥ 0 then remove display colPos (display.length - colPos) else pure display

/-- Number and display text of a contact. -/
def identify (uri : List Char) : Except RangeException (List Char × List Char) := do
  let startNum := position (indexOf sipStart uri)
  let atPos := position (indexOf ['@'] uri)
  let number ← searchNumber uri startNum atPos
  let display ← extractDisplay uri startNum
  return (number, display)

/-- `onCallIncoming`, with the events that are raised. -/
def onCallIncoming (callId : CallId) (sturi : Option String) :
    Except RangeException (List CCallManager.Event) :=
  match sturi with
  | none => return [.callIncoming callId "" ""]
  | some uri => do
      let (number, display) ← identify uri.toList
      return [.callIncoming callId (String.ofList number) (String.ofList display)]

/-! ## What is found -/

variable {before after u h : List Char}

/-- The number of an address is what is in front of its `@`, unless an `@` comes before. -/
def numberOf (before after : List Char) : List Char :=
  if '@' ∉ before ∧ '@' ∈ after then after.takeWhile (· ≠ '@') else []

/-- The search for the `@`, cut at the address. -/
lemma position_at (before after : List Char) :
    ('@' ∈ before ∧ position (indexOf ['@'] (before ++ sipStart ++ after)) ≤ before.length) ∨
    ('@' ∉ before ∧ '@' ∉ after ∧ position (indexOf ['@'] (before ++ sipStart ++ after)) = -1) ∨
    ∃ u h, after = u ++ '@' :: h ∧ '@' ∉ u ∧ '@' ∉ before ∧
      position (indexOf ['@'] (before ++ sipStart ++ after)) = before.length + 5 + u.length := by
  have hsip : '@' ∉ sipStart := by decide
  by_cases hb : '@' ∈ before
  · obtain ⟨b, b', rfl, hnot⟩ := List.eq_append_cons_of_mem hb
    have hpos := indexOf_singleton hnot (b' ++ sipStart ++ after)
    refine Or.inl ⟨hb, ?_⟩
    rw [show b ++ '@' :: b' ++ sipStart ++ after = b ++ '@' :: (b' ++ sipStart ++ after) by simp,
      hpos, position_some]
    simp only [List.length_append, List.length_cons]
    omega
  by_cases ha : '@' ∈ after
  · obtain ⟨u, h, rfl, hnot⟩ := List.eq_append_cons_of_mem ha
    have hpos := indexOf_singleton
      (show '@' ∉ before ++ sipStart ++ u by simp [hb, hsip, hnot]) h
    refine Or.inr (Or.inr ⟨u, h, rfl, hnot, hb, ?_⟩)
    rw [← List.append_assoc, hpos, position_some]
    simp only [sipStart, List.length_append, List.length_cons, List.length_nil]
    omega
  · refine Or.inr (Or.inl ⟨hb, ha, ?_⟩)
    rw [indexOf_singleton_eq_none.mpr (by simp [hb, ha, hsip]), position_none]

/-- The number of an address with a user part. -/
lemma numberOf_address (hu : '@' ∉ u) (before h : List Char) :
    numberOf before (u ++ '@' :: h) = if '@' ∉ before then u else [] := by
  rw [numberOf, takeWhile_ne hu]
  simp

lemma searchNumber_eq (before after : List Char) :
    searchNumber (before ++ sipStart ++ after) before.length
        (position (indexOf ['@'] (before ++ sipStart ++ after))) =
      .ok (numberOf before after) := by
  rcases position_at before after with ⟨hb, hpos⟩ | ⟨hb, ha, hpos⟩ | ⟨u, h, rfl, hu, hb, hpos⟩
  · rw [searchNumber, if_neg (by omega), numberOf, if_neg (by simp [hb])]
    rfl
  · rw [searchNumber, if_neg (by omega), numberOf, if_neg (by simp [ha])]
    rfl
  · rw [searchNumber, if_pos (by omega), hpos, numberOf, if_pos ⟨hb, by simp⟩, takeWhile_ne hu,
      ← List.append_assoc]
    refine substring_middle (before ++ sipStart) u ('@' :: h) ?_ (by omega)
    simp [sipStart]

lemma extractDisplay_eq (before after : List Char) :
    extractDisplay (before ++ sipStart ++ after) before.length =
      .ok (trim isWhiteSpace before) := by
  have hdisplay : remove (before ++ sipStart ++ after) before.length
      ((before ++ sipStart ++ after).length - before.length) = .ok before := by
    rw [List.append_assoc]
    refine remove_end before _ rfl ?_
    simp only [List.length_append]
    omega
  rw [extractDisplay, if_pos (by omega), hdisplay]
  rfl

/-- **A contact with an address**, where `before` is in front of the first `<sip:`. -/
lemma identify_of_sip
    (hstart : indexOf sipStart (before ++ sipStart ++ after) = some before.length) :
    identify (before ++ sipStart ++ after) =
      .ok (numberOf before after, trim isWhiteSpace before) := by
  simp only [identify, hstart, position_some, searchNumber_eq, extractDisplay_eq]
  rfl

/-- A contact without an address. -/
lemma identify_of_no_sip {uri : List Char} (h : indexOf sipStart uri = none) :
    identify uri = .ok ([], []) := by
  simp only [identify, h, position_none]
  rfl

/-- Every contact is read. -/
lemma exists_identify (uri : List Char) :
    ∃ number display, identify uri = .ok (number, display) := by
  cases h : indexOf sipStart uri with
  | none => exact ⟨_, _, identify_of_no_sip h⟩
  | some i =>
      obtain ⟨before, after, rfl, rfl⟩ := exists_of_indexOf h
      exact ⟨_, _, identify_of_sip h⟩

lemma onCallIncoming_eq {uri : String} {number display : List Char}
    (h : identify uri.toList = .ok (number, display)) (callId : CallId) :
    onCallIncoming callId (some uri) =
      .ok [.callIncoming callId (String.ofList number) (String.ofList display)] := by
  simp only [onCallIncoming, h]
  rfl

/-- **The caller's identity.**  Every contact, and none, gives one event and no exception; the user
part of an address and the text in front of it arrive if and only if there is no `@` in front of the
address, or no user part to be lost. -/
theorem contact_identified_iff (callId : CallId) {d u : String} (h : String)
    (hd : ¬ sipStart <:+: d.toList) (hu : '@' ∉ u.toList) :
    (∀ sturi, ∃ number display,
      onCallIncoming callId sturi = .ok [.callIncoming callId number display]) ∧
    (onCallIncoming callId (some (d ++ "<sip:" ++ u ++ "@" ++ h)) =
        .ok [.callIncoming callId u (String.ofList (trim isWhiteSpace d.toList))] ↔
      '@' ∉ d.toList ∨ u = "") := by
  constructor
  · intro sturi
    cases sturi with
    | none => exact ⟨"", "", rfl⟩
    | some uri =>
        obtain ⟨number, display, heq⟩ := exists_identify uri.toList
        exact ⟨_, _, onCallIncoming_eq heq callId⟩
  · have htext : (d ++ "<sip:" ++ u ++ "@" ++ h).toList =
        d.toList ++ sipStart ++ (u.toList ++ '@' :: h.toList) := by
      simp [String.toList_append, sipStart]
    have hstart : indexOf sipStart (d.toList ++ sipStart ++ (u.toList ++ '@' :: h.toList)) =
        some d.toList.length := indexOf_append (by decide) hd _
    have hraised : onCallIncoming callId (some (d ++ "<sip:" ++ u ++ "@" ++ h)) =
        .ok [.callIncoming callId (if '@' ∉ d.toList then u else "")
          (String.ofList (trim isWhiteSpace d.toList))] := by
      rw [onCallIncoming_eq (by rw [htext]; exact identify_of_sip hstart), numberOf_address hu]
      split_ifs
      · rfl
      · rw [String.ofList_toList]
    rw [hraised]
    by_cases hat : '@' ∈ d.toList
    · simp [hat, eq_comm]
    · simp [hat]

/-- A caller with a display name. -/
theorem contact_identified_alice :
    onCallIncoming 1 (some ("Alice " ++ "<sip:" ++ "100" ++ "@" ++ "host>")) =
      .ok [.callIncoming 1 "100" (String.ofList (trim isWhiteSpace "Alice ".toList))] :=
  (contact_identified_iff 1 "host>" (by decide) (by decide)).2.mpr (Or.inl (by decide))

/-- **A display name that is a mail address hides the number.** -/
theorem contact_hidden :
    ¬ sipStart <:+: "a@b ".toList ∧ '@' ∉ "100".toList ∧
      onCallIncoming 1 (some ("a@b " ++ "<sip:" ++ "100" ++ "@" ++ "host>")) =
        .ok [.callIncoming 1 "" "a@b"] := by
  decide

end PjsipCallProxy

end TAM
