import RemoteDebug.Proofs.Lines

/-! The heading of a frame.

Blank lines in front do not count; then come header lines, and an empty one behind them. After some
header lines the reader knows of each name the last value (`heard`), so that one line is one step of a
list of fields, and the whole heading is read exactly if its lines are those of such a list. -/
namespace RemoteDebug.Text

variable {s : List Char} {n bound : Nat}

/-- The text writes the number: perhaps a plus sign, then one or more ASCII digits. -/
def Numeral (s : List Char) (n : Nat) : Prop :=
  ∃ ds, (s = ds ∨ s = '+' :: ds) ∧ ds ≠ [] ∧ (∀ c ∈ ds, c.isDigit = true) ∧ Nat.ofDigitChars 10 ds 0 = n

theorem isNumeral_iff : isNumeral s = true ↔ s ≠ [] ∧ ∀ c ∈ s, c.isDigit = true := by
  simp [isNumeral]

theorem unsigned_of_isNumeral (h : isNumeral s = true) : unsigned s = s := by
  unfold unsigned
  split
  · cases (isNumeral_iff.mp h).2 '+' (List.mem_cons_self ..)
  · rfl

theorem unsigned_cases (s : List Char) : s = unsigned s ∨ s = '+' :: unsigned s := by
  unfold unsigned
  split
  · exact Or.inr rfl
  · exact Or.inl rfl

/-- The numbers that are read are those below the bound that the text writes. -/
theorem parseBelow_eq_some_iff : parseBelow bound s = some n ↔ Numeral s n ∧ n < bound := by
  constructor
  · intro h
    refine ⟨⟨unsigned s, unsigned_cases s, ?_⟩, parseBelow_lt h⟩
    unfold parseBelow at h
    split at h
    · next hnum =>
      refine ⟨(isNumeral_iff.mp hnum).1, (isNumeral_iff.mp hnum).2, ?_⟩
      simp only [Option.ite_none_right_eq_some, Option.some.injEq] at h
      exact h.2
    · cases h
  · rintro ⟨⟨ds, hs, hne, hdigits, rfl⟩, hlt⟩
    have hnum : isNumeral ds = true := isNumeral_iff.mpr ⟨hne, hdigits⟩
    have hunsigned : unsigned s = ds := by
      rcases hs with rfl | rfl
      · exact unsigned_of_isNumeral hnum
      · rfl
    unfold parseBelow
    rw [hunsigned, if_pos hnum]
    exact if_pos hlt

theorem parseUInt32_eq_some_iff {n : UInt32} : parseUInt32 s = some n ↔ Numeral s n.toNat := by
  unfold parseUInt32
  constructor
  · intro h
    obtain ⟨k, hk, rfl⟩ := Option.map_eq_some_iff.mp h
    obtain ⟨hnumeral, hlt⟩ := parseBelow_eq_some_iff.mp hk
    rwa [UInt32.toNat_ofNat_of_lt' hlt]
  · intro h
    rw [parseBelow_eq_some_iff.mpr ⟨h, n.toNat_lt⟩, Option.map_some, UInt32.ofNat_toNat]

theorem numeral_digits (n : Nat) : Numeral (digits n) n :=
  (parseBelow_eq_some_iff.mp (parseBelow_digits (Nat.lt_succ_self n))).1

theorem isBlank_of_isDigit {c : Char} (h : c.isDigit = true) : isBlank c = false := by
  have hc : 48 ≤ c.toNat ∧ c.toNat ≤ 57 := by simpa [Char.isDigit, UInt32.le_iff_toNat_le] using h
  simp only [isBlank, within, blankRanges, List.any_cons, List.any_nil, Bool.or_false, Bool.or_eq_false_iff,
    Bool.and_eq_false_iff, decide_eq_false_iff_not]
  omega

end RemoteDebug.Text

namespace RemoteDebug.Wire
open Protocol

variable {shown : List Char} {line input rest after : Octets} {h h' k : Headers}

/-! ### Fields -/

/-- What a header line says: a name, which ends at the first colon, and a value. -/
structure Field where
  name : List Char
  value : List Char
  plain : ':' ∉ name

namespace Field

def text (f : Field) : List Char := f.name ++ ':' :: f.value

/-- The name without regard to ASCII case. -/
def named (name : String) (f : Field) : Bool := sameName f.name name.toList

/-- A field that gives a length gives one of at most 64 bits. -/
def Counts (f : Field) : Prop :=
  f.named "Content-Length" = true → ∃ n, Text.Numeral (Text.trim f.value) n ∧ n < UInt64.size

end Field

/-- The value of the last of the fields with the name, without blanks around it. -/
def lastValue (name : String) (fields : List Field) : Option (List Char) :=
  ((fields.filter (·.named name)).getLast?).map fun f => Text.trim f.value

/-- What the reader knows after these fields. -/
def heard (fields : List Field) : Headers where
  any := !fields.isEmpty
  tool := (lastValue "Tool" fields).map String.ofList
  destination := (lastValue "Destination" fields).map String.ofList
  length := (lastValue "Content-Length" fields).bind (Text.parseBelow UInt64.size)

variable {f : Field} {fields : List Field}

theorem lastValue_concat (name : String) (fields : List Field) (f : Field) :
    lastValue name (fields ++ [f]) =
      if f.named name then some (Text.trim f.value) else lastValue name fields := by
  unfold lastValue
  rw [List.filter_append]
  split
  · next h => rw [List.filter_cons_of_pos h, List.filter_nil, List.getLast?_concat]; rfl
  · next h => rw [List.filter_cons_of_neg h, List.filter_nil, List.append_nil]

/-- A field has one name. -/
theorem Field.named_of_named {a b : String} (h : f.named a = true) :
    f.named b = sameName a.toList b.toList := by
  unfold named sameName at *
  rw [eq_of_beq h]

theorem heard_concat (fields : List Field) (f : Field) : heard (fields ++ [f]) = {
    any := true
    tool := if f.named "Tool" then some (String.ofList (Text.trim f.value)) else (heard fields).tool
    destination :=
      if f.named "Destination" then some (String.ofList (Text.trim f.value)) else (heard fields).destination
    length :=
      if f.named "Content-Length" then Text.parseBelow UInt64.size (Text.trim f.value)
      else (heard fields).length } := by
  have hany : (fields ++ [f]).isEmpty = false := by simp
  simp only [heard, lastValue_concat, hany, Bool.not_false, Headers.mk.injEq, true_and]
  refine ⟨?_, ?_, ?_⟩ <;> split <;> rfl

/-- A field is taken up unless it should give a length and does not. -/
theorem add_text (fields : List Field) (f : Field) : (heard fields).add f.text =
    if f.named "Content-Length" = true ∧ Text.parseBelow UInt64.size (Text.trim f.value) = none
    then .error (.badLength (String.ofList (Text.trim f.value))) else .ok (heard (fields ++ [f])) := by
  have hsplit : Text.splitAt? ':' f.text = some (f.name, f.value) :=
    Text.splitAt?_eq_some_iff.mpr ⟨rfl, f.plain⟩
  rw [heard_concat]
  unfold Headers.add
  rw [hsplit]
  change (if f.named "Tool" then _ else if f.named "Destination" then _ else
    if f.named "Content-Length" then _ else _) = _
  by_cases htool : f.named "Tool" = true
  · have hdestination : f.named "Destination" = false := Field.named_of_named htool
    have hlength : f.named "Content-Length" = false := Field.named_of_named htool
    simp [htool, hdestination, hlength]
  by_cases hdestination : f.named "Destination" = true
  · have hlength : f.named "Content-Length" = false := Field.named_of_named hdestination
    simp [htool, hdestination, hlength]
  by_cases hlength : f.named "Content-Length" = true
  · simp only [htool, hdestination, hlength, if_true, true_and]
    cases Text.parseBelow UInt64.size (Text.trim f.value) with
    | none => rfl
    | some n => rfl
  · simp [htool, hdestination, hlength]

theorem Field.counts_iff : f.Counts ↔
    ¬ (f.named "Content-Length" = true ∧ Text.parseBelow UInt64.size (Text.trim f.value) = none) := by
  unfold Counts
  rw [not_and, Option.eq_none_iff_forall_ne_some, not_forall_not]
  exact imp_congr_right fun _ => exists_congr fun _ => Text.parseBelow_eq_some_iff.symm

/-- A text that is not empty is taken up exactly if it is that of such a field. -/
theorem add_eq_ok_iff : (heard fields).add shown = .ok k ↔
    ∃ f : Field, shown = f.text ∧ f.Counts ∧ k = heard (fields ++ [f]) := by
  constructor
  · intro h
    cases hsplit : Text.splitAt? ':' shown with
    | none =>
      unfold Headers.add at h
      rw [hsplit] at h
      cases h
    | some parts =>
      obtain ⟨rfl, hplain⟩ := Text.splitAt?_eq_some_iff.mp hsplit
      let f : Field := ⟨parts.1, parts.2, hplain⟩
      refine ⟨f, rfl, ?_⟩
      rw [show parts.1 ++ ':' :: parts.2 = f.text from rfl, add_text] at h
      split at h
      · cases h
      · next hcounts =>
        cases h
        exact ⟨Field.counts_iff.mpr hcounts, rfl⟩
  · rintro ⟨f, rfl, hcounts, rfl⟩
    rw [add_text, if_neg (Field.counts_iff.mp hcounts)]

/-! ### Lines of a heading -/

theorem heard_any : (heard fields).any = true ↔ fields ≠ [] := by
  simp [heard]

theorem Field.text_ne_nil (f : Field) : f.text ≠ [] :=
  List.append_ne_nil_of_right_ne_nil _ (List.cons_ne_nil _ _)

/-- What a line does to the reader is told by what it shows. -/
theorem lineStep_of_shows (h : Shows shown line) : lineStep k line =
    if shown = [] then if k.any then .complete else .more k
    else match k.add shown with
      | .ok h => .more h
      | .error fault => .failed (.framing fault) := by
  obtain ⟨chars, hchars, hshown⟩ := shows_iff.mp h
  unfold lineStep
  rw [hchars]
  dsimp only
  rw [hshown]
  cases shown with
  | nil => rfl
  | cons c shown =>
    refine Eq.trans ?_ (if_neg (List.cons_ne_nil c shown)).symm
    cases hadd : k.add (c :: shown) <;> simp only [hadd]

theorem exists_shows (k : Headers) (line : Octets) (h : ∀ e, lineStep k line ≠ .failed e) :
    ∃ shown, Shows shown line := by
  cases hchars : Text.Utf8.decodeChars line with
  | error fault =>
    refine absurd ?_ (h (.stream (.notUtf8 fault)))
    unfold lineStep
    rw [hchars]
  | ok chars => exact ⟨_, shows_iff.mpr ⟨chars, hchars, rfl⟩⟩

/-- A line completes the heading exactly if it shows nothing, behind a header line. -/
theorem lineStep_eq_complete_iff : lineStep (heard fields) line = .complete ↔ Shows [] line ∧ fields ≠ [] := by
  constructor
  · intro h
    obtain ⟨shown, hshows⟩ := exists_shows (heard fields) line (by simp [h])
    rw [lineStep_of_shows hshows] at h
    split at h
    · next hnil =>
      subst hnil
      split at h
      · next hany => exact ⟨hshows, heard_any.mp hany⟩
      · cases h
    · split at h <;> cases h
  · rintro ⟨hshows, hne⟩
    rw [lineStep_of_shows hshows, if_pos rfl, if_pos (heard_any.mpr hne)]

/-- The reader goes on behind a blank line with no header line before it, and behind a header line. -/
theorem lineStep_eq_more_iff : lineStep (heard fields) line = .more k ↔
    (Shows [] line ∧ fields = [] ∧ k = heard []) ∨
    ∃ f : Field, Shows f.text line ∧ f.Counts ∧ k = heard (fields ++ [f]) := by
  constructor
  · intro h
    obtain ⟨shown, hshows⟩ := exists_shows (heard fields) line (by simp [h])
    rw [lineStep_of_shows hshows] at h
    split at h
    · next hnil =>
      subst hnil
      split at h
      · cases h
      · next hany =>
        have hfields : fields = [] := not_not.mp (mt heard_any.mpr hany)
        cases h
        exact Or.inl ⟨hshows, hfields, by rw [hfields]⟩
    · split at h
      · next hadd =>
        cases h
        obtain ⟨f, rfl, hcounts, rfl⟩ := add_eq_ok_iff.mp hadd
        exact Or.inr ⟨f, hshows, hcounts, rfl⟩
      · cases h
  · rintro (⟨hshows, rfl, rfl⟩ | ⟨f, hshows, hcounts, rfl⟩)
    · rw [lineStep_of_shows hshows]
      rfl
    · rw [lineStep_of_shows hshows, if_neg f.text_ne_nil, add_eq_ok_iff.mpr ⟨f, rfl, hcounts, rfl⟩]

/-! ### The lines one after the other -/

/-- From headers `h` the lines of the input lead to headers `k`, and `after` is behind the empty line. -/
inductive Heading : Headers → Octets → Headers → Octets → Prop
  | more {h h' k : Headers} {line rest after : Octets} (hline : Line line rest)
      (step : lineStep h line = .more h') (more : Heading h' rest k after) : Heading h (line ++ rest) k after
  | complete {h : Headers} {line rest : Octets} (hline : Line line rest) (step : lineStep h line = .complete) :
    Heading h (line ++ rest) h rest

theorem not_heading_nil : ¬ Heading h [] k after := by
  intro hheading
  generalize hinput : ([] : Octets) = input at hheading
  cases hheading with
  | more hline => exact hline.ne_nil (List.append_eq_nil_iff.mp hinput.symm).1
  | complete hline => exact hline.ne_nil (List.append_eq_nil_iff.mp hinput.symm).1

theorem heading_line_iff (hline : Line line rest) : Heading h (line ++ rest) k after ↔
    (∃ h', lineStep h line = .more h' ∧ Heading h' rest k after) ∨
    (lineStep h line = .complete ∧ k = h ∧ after = rest) := by
  constructor
  · intro hheading
    generalize hinput : line ++ rest = input at hheading
    cases hheading with
    | more hline' step more =>
      obtain ⟨rfl, rfl⟩ := hline.unique hline' hinput
      exact Or.inl ⟨_, step, more⟩
    | complete hline' step =>
      obtain ⟨rfl, rfl⟩ := hline.unique hline' hinput
      exact Or.inr ⟨step, rfl, rfl⟩
  · rintro (⟨h', step, more⟩ | ⟨step, rfl, rfl⟩)
    · exact .more hline step more
    · exact .complete hline step

/-! ### Reading headers -/

variable {n : Nat} {m : Message}

theorem readHeaders_nil_ne (rest : Octets) : readHeaders true n h [] ≠ some (.message m, rest) := by
  intro hread
  cases n with
  | zero => cases hread
  | succ n =>
    change some (if h.any then Reading.failed _ else Reading.finished, _) = _ at hread
    split at hread <;> cases hread

/-- Reading goes on by what the first line does, also if no line feed ends it. -/
theorem readHeaders_line (hline : Line line after) :
    readHeaders true (n + 1) h (line ++ after) = some (.message m, rest) ↔
      (∃ h', lineStep h line = .more h' ∧ readHeaders true n h' after = some (.message m, rest)) ∨
      (lineStep h line = .complete ∧ readBody true h after = some (.message m, rest)) := by
  cases hline with
  | @fed inner hin =>
    rw [readHeaders, line?_fed hin]
    dsimp only
    cases lineStep h (inner ++ [0x0A]) <;> simp
  | last hin hne =>
    rw [List.append_nil, readHeaders, line?_eq_none hin]
    simp only [Bool.not_true, Bool.false_eq_true, if_false, List.isEmpty_iff, hne]
    cases lineStep h line with
    | more h' =>
      have hno := readHeaders_nil_ne (n := n) (h := h') (m := m) rest
      simp only [LineStep.more.injEq, exists_eq_left', hno, reduceCtorEq, false_and, or_false, iff_false]
      split <;> simp
    | complete => simp
    | failed e => simp

/-- A message is read exactly if there is a heading with a body behind it. -/
theorem readHeaders_eq_message_iff (hn : input.length < n) :
    readHeaders true n h input = some (.message m, rest) ↔
      ∃ k after, Heading h input k after ∧ readBody true k after = some (.message m, rest) := by
  induction n generalizing h input with
  | zero => exact absurd hn (Nat.not_lt_zero _)
  | succ n ih =>
    rcases line_cases input with rfl | ⟨line, behind, rfl, hline⟩
    · simp only [readHeaders_nil_ne, not_heading_nil, false_and, exists_const]
    · have hlt : behind.length < n := by
        have := List.length_pos_iff.mpr hline.ne_nil
        rw [List.length_append] at hn
        omega
      simp only [readHeaders_line hline, heading_line_iff hline, ih hlt]
      grind

end RemoteDebug.Wire
