import Mathlib.Tactic.IntervalCases
import RemoteDebug.Json.Printer
import RemoteDebug.Json.Reader
import RemoteDebug.Proofs.Encoding

/-! The text of a value is read as that value.

The reader takes the text off the front of any octets that do not go on a number. -/
namespace RemoteDebug.Json
open Text.Utf8

namespace Reader

variable {rest : Octets}

/-! ### Strings -/

theorem hexValue_digitChar {d : Nat} (h : d < 16) : hexValue (.ofNat (Nat.digitChar d).toNat) = some d := by
  revert d
  decide

/-- An escaped character is read as the octets of the character. -/
theorem stringOctets_escaped {c : Char} {steps : Nat} {done tail : Octets}
    (h : ∀ rest, escaped (tail ++ rest) = .ok (String.utf8EncodeChar c, rest)) :
    stringOctets (steps + 1) done (0x5C :: (tail ++ rest)) =
      stringOctets steps ((String.utf8EncodeChar c).reverse ++ done) rest := by
  rw [stringOctets]
  simp only [show ¬ (0x5C : UInt8) = 0x22 by decide, if_false, if_true, h]

theorem stringOctets_plain {steps : Nat} {done octets : Octets}
    (h : ∀ b ∈ octets, b ≠ 0x22 ∧ b ≠ 0x5C ∧ ¬ b < 0x20) :
    stringOctets (steps + octets.length) done (octets ++ rest) =
      stringOctets steps (octets.reverse ++ done) rest := by
  induction octets generalizing done with
  | nil => rfl
  | cons b octets ih =>
    obtain ⟨h₁, h₂, h₃⟩ := h b (List.mem_cons_self ..)
    rw [List.length_cons, ← Nat.add_assoc, List.cons_append, stringOctets]
    simp only [h₁, h₂, h₃, if_false]
    rw [ih fun x hx => h x (List.mem_cons_of_mem _ hx), List.reverse_cons, List.append_assoc]
    rfl

/-- A control character is read from its four hexadecimal digits. -/
theorem escaped_control {c : Char} (h : c.toNat < 0x20) (rest : Octets) :
    escaped (0x75 :: 0x30 :: 0x30 :: .ofNat (Nat.digitChar (c.toNat / 16)).toNat ::
      .ofNat (Nat.digitChar (c.toNat % 16)).toNat :: rest) = .ok (String.utf8EncodeChar c, rest) := by
  have hn : ((0 * 16 + 0) * 16 + c.toNat / 16) * 16 + c.toNat % 16 = c.toNat := by omega
  have hhex : hex4 (0x30 :: 0x30 :: .ofNat (Nat.digitChar (c.toNat / 16)).toNat ::
      .ofNat (Nat.digitChar (c.toNat % 16)).toNat :: rest) = .ok (c.toNat, rest) := by
    unfold hex4
    simp only [show hexValue 0x30 = some 0 from rfl, hexValue_digitChar (show c.toNat / 16 < 16 by omega),
      hexValue_digitChar (show c.toNat % 16 < 16 by omega), hn]
  have hpoint : codePoint (0x30 :: 0x30 :: .ofNat (Nat.digitChar (c.toNat / 16)).toNat ::
      .ofNat (Nat.digitChar (c.toNat % 16)).toNat :: rest) = .ok (c.toNat, rest) := by
    unfold codePoint
    rw [hhex]
    simp only [bind, Except.bind]
    rw [if_neg (by omega), if_pos (by omega)]
    rfl
  unfold escaped
  simp only [hpoint, bind, Except.bind, Char.ofNat_toNat]
  rfl

/-- The characters with an escape of their own. -/
def shortEscapes : List Char := ['"', '\\', '\x08', '\x0c', '\n', '\r', '\t']

theorem digitChar_lt {d : Nat} (h : d < 16) : (Nat.digitChar d).toNat < 0x80 := by
  revert d
  decide

/-- A character is written as an escape that is read as its octets, or it stands for itself. -/
theorem escape_cases (c : Char) :
    (∃ tail, encodeChars (escape c) = 0x5C :: tail ∧ tail.length ≤ 5 ∧
      ∀ rest, escaped (tail ++ rest) = .ok (String.utf8EncodeChar c, rest)) ∨
    (c ≠ '"' ∧ c ≠ '\\' ∧ 0x20 ≤ c.toNat ∧ escape c = [c]) := by
  by_cases short : c ∈ shortEscapes
  · simp only [shortEscapes, List.mem_cons, List.not_mem_nil, or_false] at short
    rcases short with rfl | rfl | rfl | rfl | rfl | rfl | rfl
    all_goals exact Or.inl ⟨_, rfl, by decide, fun _ => rfl⟩
  · simp only [shortEscapes, List.mem_cons, List.not_mem_nil, or_false, not_or] at short
    obtain ⟨h₁, h₂, h₃, h₄, h₅, h₆, h₇⟩ := short
    unfold escape
    rw [if_neg h₁, if_neg h₂, if_neg h₃, if_neg h₄, if_neg h₅, if_neg h₆, if_neg h₇]
    split
    · next h =>
      refine Or.inl ⟨[0x75, 0x30, 0x30, .ofNat (Nat.digitChar (c.toNat / 16)).toNat,
        .ofNat (Nat.digitChar (c.toNat % 16)).toNat], ?_, Nat.le_refl 5, fun rest => escaped_control h rest⟩
      have ha : (Nat.digitChar (c.toNat / 16)).toNat < 0x80 := digitChar_lt (by omega)
      have hb : (Nat.digitChar (c.toNat % 16)).toNat < 0x80 := digitChar_lt (by omega)
      repeat rw [encodeChars_cons_of_ascii (by first | assumption | decide)]
      rfl
    · next h => exact Or.inr ⟨h₁, h₂, Nat.le_of_not_lt h, rfl⟩

/-- An octet of a character that stands for itself ends no string and begins no escape. -/
theorem ne_of_mem_encodeChar {c : Char} (h₁ : c ≠ '"') (h₂ : c ≠ '\\') (h₃ : 0x20 ≤ c.toNat) {b : UInt8}
    (hb : b ∈ String.utf8EncodeChar c) : b ≠ 0x22 ∧ b ≠ 0x5C ∧ ¬ b < 0x20 := by
  have hne : ∀ d : Char, d.toNat < 0x80 → c ≠ d → b.toNat ≠ d.toNat := by
    intro d hd hcd he
    rcases toNat_of_mem_encodeChar hb with h | ⟨h, _⟩
    · omega
    · exact hcd (Char.toNat_inj.mp (h.symm.trans he))
  have h₄ : 0x20 ≤ b.toNat := by
    rcases toNat_of_mem_encodeChar hb with h | ⟨h, _⟩ <;> omega
  refine ⟨?_, ?_, ?_⟩
  · rintro rfl
    exact hne '"' (by decide) h₁ rfl
  · rintro rfl
    exact hne '\\' (by decide) h₂ rfl
  · rw [UInt8.lt_iff_toNat_lt]
    exact Nat.not_lt.mpr h₄

/-- What stands for a character in a text is read as the octets of the character, in no more steps
than it has octets. -/
theorem stringOctets_escape (c : Char) : ∃ k ≤ (encodeChars (escape c)).length,
    ∀ steps done rest, stringOctets (steps + k) done (encodeChars (escape c) ++ rest) =
      stringOctets steps ((String.utf8EncodeChar c).reverse ++ done) rest := by
  rcases escape_cases c with ⟨tail, hc, -, he⟩ | ⟨h₁, h₂, h₃, hc⟩
  · rw [hc]
    exact ⟨1, by simp, fun _ _ _ => stringOctets_escaped he⟩
  · rw [hc, encodeChars_cons, encodeChars_nil, List.append_nil]
    exact ⟨_, Nat.le_refl _, fun _ _ _ =>
      stringOctets_plain fun _ hb => ne_of_mem_encodeChar h₁ h₂ h₃ hb⟩

theorem stringOctets_text (s : List Char) {steps : Nat} (done : Octets)
    (h : (encodeChars (s.flatMap escape)).length ≤ steps) :
    stringOctets (steps + 1) done (encodeChars (s.flatMap escape) ++ 0x22 :: rest) =
      .ok (done.reverse ++ encodeChars s, rest) := by
  induction s generalizing steps done with
  | nil =>
    rw [List.flatMap_nil, encodeChars_nil, List.append_nil, List.nil_append, stringOctets]
    exact if_pos rfl
  | cons c s ih =>
    obtain ⟨k, hk, hread⟩ := stringOctets_escape c
    rw [List.flatMap_cons, encodeChars_append] at h ⊢
    rw [List.length_append] at h
    obtain ⟨n, rfl⟩ := Nat.exists_eq_add_of_le' (show k ≤ steps by omega)
    rw [List.append_assoc, Nat.add_right_comm, hread, ih _ (by omega), List.reverse_append,
      List.reverse_reverse, List.append_assoc, encodeChars_cons]

/-- A string is read behind its opening quote. -/
theorem string_text (s : String) :
    string (encodeChars (s.toList.flatMap escape) ++ 0x22 :: rest) = .ok (s, rest) := by
  have hread : stringOctets (encodeChars (s.toList.flatMap escape) ++ 0x22 :: rest).length []
      (encodeChars (s.toList.flatMap escape) ++ 0x22 :: rest) = .ok (encodeChars s.toList, rest) := by
    rw [List.length_append, List.length_cons, ← Nat.add_assoc]
    exact stringOctets_text s.toList [] (Nat.le_add_right ..)
  have hdecode : Text.Utf8.decode? (encodeChars s.toList) = some s := decode?_eq_some_iff.mpr rfl
  unfold string
  rw [hread]
  simp only [bind, Except.bind, hdecode]
  rfl

/-! ### Numbers -/

/-- No number goes on with these octets. -/
def EndsNumber (rest : Octets) : Prop :=
  ∀ b ∈ rest.head?, isDigit b = false ∧ b ≠ 0x2E ∧ b ≠ 0x65 ∧ b ≠ 0x45

theorem toNat_of_isDigit {c : Char} (h : c.isDigit = true) : 48 ≤ c.toNat ∧ c.toNat ≤ 57 := by
  simpa [Char.isDigit, UInt32.le_iff_toNat_le] using h

theorem isDigit_ofNat {n : Nat} (h : 48 ≤ n ∧ n ≤ 57) :
    isDigit (.ofNat n) = true ∧ digitValue (.ofNat n) = n - 48 := by
  have hn : (UInt8.ofNat n).toNat = n := UInt8.toNat_ofNat_of_lt' (show n < 256 by omega)
  unfold isDigit digitValue
  rw [Bool.and_eq_true, decide_eq_true_eq, decide_eq_true_eq, UInt8.le_iff_toNat_le, UInt8.le_iff_toNat_le, hn]
  exact ⟨h, rfl⟩

theorem le_ofDigitChars (ds : List Char) (n : Nat) : n ≤ Nat.ofDigitChars 10 ds n := by
  induction ds generalizing n with
  | nil => exact Nat.le_refl n
  | cons c ds ih =>
    rw [Nat.ofDigitChars_cons]
    exact Nat.le_trans (by omega) (ih _)

/-- Digits are taken in as long as their value has no more than 64 bits. -/
theorem digits_text (ds : List Char) {n k : Nat} (hd : ∀ c ∈ ds, c.isDigit = true)
    (hlt : Nat.ofDigitChars 10 ds n < UInt64.size) (hr : EndsNumber rest) :
    digits ⟨n, k, 0⟩ (encodeChars ds ++ rest) = (⟨Nat.ofDigitChars 10 ds n, k + ds.length, 0⟩, rest) := by
  induction ds generalizing n k with
  | nil =>
    cases rest with
    | nil => rfl
    | cons b rest =>
      rw [encodeChars_nil, List.nil_append, digits, (hr b rfl).1]
      rfl
  | cons c ds ih =>
    have hc := toNat_of_isDigit (hd c (List.mem_cons_self ..))
    obtain ⟨hdigit, hvalue⟩ := isDigit_ofNat hc
    rw [Nat.ofDigitChars_cons] at hlt ⊢
    have hn : n * 10 + (c.toNat - 48) = 10 * n + (c.toNat - '0'.toNat) := by
      rw [Nat.mul_comm]
      rfl
    have hfit : n * 10 + (c.toNat - 48) < UInt64.size := by
      rw [hn]
      exact Nat.lt_of_le_of_lt (le_ofDigitChars ds _) hlt
    rw [encodeChars_cons_of_ascii (by omega), List.cons_append, digits, hdigit, hvalue]
    simp only [if_true, true_and, hfit]
    rw [hn, ih (fun x hx => hd x (List.mem_cons_of_mem _ hx)) hlt, List.length_cons, Nat.add_assoc,
      Nat.add_comm 1]

theorem afterWhole_ends {negative : Bool} {n k : Nat} (hr : EndsNumber rest) :
    afterWhole negative ⟨n, k, 0⟩ rest = .ok (whole negative n, rest) := by
  cases rest with
  | nil => rfl
  | cons b rest =>
    obtain ⟨_, h₁, h₂, h₃⟩ := hr b rfl
    unfold afterWhole
    simp only [h₁, h₂, h₃, or_self, if_false, if_true]

/-- The digits of a number begin with a digit. -/
theorem exists_digits_cons (n : Nat) : ∃ c ds, Text.digits n = c :: ds ∧ 48 ≤ c.toNat ∧ c.toNat ≤ 57 := by
  obtain ⟨c, ds, hds⟩ := List.exists_cons_of_ne_nil (Nat.toDigits_ne_nil (n := n) (b := 10))
  have hc : c ∈ Nat.toDigits 10 n := hds ▸ List.mem_cons_self ..
  exact ⟨c, ds, hds, toNat_of_isDigit (Nat.isDigit_of_mem_toDigits (by decide) (by decide) hc)⟩

theorem digitChar_pos {d : Nat} (h : d < 10) (h₀ : 0 < d) :
    (Nat.digitChar d).isDigit = true ∧ Nat.digitChar d ≠ '0' := by
  revert h₀
  revert d
  decide

/-- A number that is not zero does not begin with the digit zero. -/
theorem head_digits {n : Nat} (h : 0 < n) : ∃ c ds, Text.digits n = c :: ds ∧ c.isDigit = true ∧ c ≠ '0' := by
  unfold Text.digits
  induction n using Nat.strongRecOn with
  | ind n ih =>
    by_cases hlt : n < 10
    · exact ⟨Nat.digitChar n, [], Nat.toDigits_of_lt_base hlt, digitChar_pos hlt h⟩
    · obtain ⟨c, ds, hds, hc⟩ := ih (n / 10) (by omega) (by omega)
      rw [Nat.toDigits_of_base_le (by decide) (by omega), hds]
      exact ⟨c, ds ++ [Nat.digitChar (n % 10)], rfl, hc⟩

/-- A number is read behind its sign. -/
theorem number_text (negative : Bool) {n : Nat} (h : n < UInt64.size) (hr : EndsNumber rest) :
    number negative (encodeChars (Text.digits n) ++ rest) = .ok (whole negative n, rest) := by
  by_cases h₀ : n = 0
  · subst h₀
    show number negative (0x30 :: rest) = _
    unfold number
    simp only [if_true]
    cases rest with
    | nil => rfl
    | cons b rest =>
      simp only [(hr b rfl).1, Bool.false_eq_true, if_false]
      exact afterWhole_ends hr
  · obtain ⟨c, ds, hds, hdigit, hne⟩ := head_digits (Nat.pos_of_ne_zero h₀)
    have hc := toNat_of_isDigit hdigit
    have hvalue : Nat.ofDigitChars 10 (Text.digits n) 0 = n := Nat.ofDigitChars_ten_toDigits
    have hread := digits_text (n := 0) (k := 0) (Text.digits n)
      (fun _ => Text.isDigit_of_mem_digits) (by rwa [hvalue]) hr
    rw [hvalue] at hread
    have hb : (UInt8.ofNat c.toNat) ≠ 0x30 := by
      intro he
      have : c.toNat = '0'.toNat := by
        have := congrArg UInt8.toNat he
        rwa [UInt8.toNat_ofNat_of_lt' (show c.toNat < 256 by omega)] at this
      exact hne (Char.toNat_inj.mp this)
    rw [hds, encodeChars_cons_of_ascii (by omega), List.cons_append] at hread ⊢
    unfold number
    simp only [hb, if_false, (isDigit_ofNat hc).1, if_true, hread]
    exact afterWhole_ends hr

theorem ofInt?_val (n : Integer) : Integer.ofInt? n.val = some n := by
  unfold Integer.ofInt?
  rw [dif_pos ⟨n.lower, n.upper⟩]

theorem whole_eq_int (negative : Bool) {k : Nat} {n : Integer}
    (h : n.val = if negative then -(k : Int) else k) (hz : ¬ (negative = true ∧ k = 0)) :
    whole negative k = .int n := by
  have hi := ofInt?_val n
  rw [h] at hi
  unfold whole
  rw [hi]
  exact if_neg hz

/-! ### Values -/

theorem skipSpaces_cons {b : UInt8} (h : isSpace b = false) : skipSpaces (b :: rest) = b :: rest := by
  rw [skipSpaces, h]
  rfl

theorem isSpace_of_lt {b : UInt8} (h : 0x20 < b) : isSpace b = false := by
  rw [UInt8.lt_iff_toNat_lt] at h
  simp only [isSpace, beq_eq_false_iff_ne, Bool.or_eq_false_iff, ne_eq, ← UInt8.toNat_inj]
  refine ⟨⟨⟨?_, ?_⟩, ?_⟩, ?_⟩ <;> exact Nat.ne_of_gt (Nat.lt_of_le_of_lt (by decide) h)

/-- The text of a value begins with an octet behind the blanks, which does not end an array. -/
theorem head_chars (v : Json) (exact : v.Exact) :
    ∃ b tail, encodeChars v.chars = b :: tail ∧ 0x20 < b ∧ b ≠ 0x5D := by
  have digit : ∀ n, ∃ b tail, encodeChars (Text.digits n) = b :: tail ∧ 0x20 < b ∧ b ≠ 0x5D := by
    intro n
    obtain ⟨c, ds, hds, h₁, h₂⟩ := exists_digits_cons n
    refine ⟨_, encodeChars ds, (congrArg encodeChars hds).trans (encodeChars_cons_of_ascii (by omega) ds), ?_⟩
    generalize c.toNat = k at h₁ h₂
    interval_cases k <;> decide
  cases v with
  | null => exact ⟨_, _, rfl, by decide⟩
  | bool b => cases b <;> exact ⟨_, _, rfl, by decide⟩
  | int n =>
    rw [chars]
    unfold Text.signedDigits
    split
    · exact digit _
    · exact ⟨_, _, encodeChars_cons_of_ascii (by decide) _, by decide⟩
  | double x => exact exact.elim
  | str s => exact ⟨_, _, encodeChars_cons_of_ascii (by decide) _, by decide⟩
  | arr items => cases items <;> exact ⟨_, _, encodeChars_cons_of_ascii (by decide) _, by decide⟩
  | obj fields => cases fields <;> exact ⟨_, _, encodeChars_cons_of_ascii (by decide) _, by decide⟩

theorem value_digit {b : UInt8} (h : isDigit b = true) (depth : Nat) :
    value depth (b :: rest) = number false (b :: rest) := by
  have hne : ∀ x, isDigit x = false → b ≠ x := by
    rintro x hx rfl
    rw [h] at hx
    cases hx
  have hspace : isSpace b = false := by
    unfold isSpace
    simp only [beq_eq_false_iff_ne.mpr (hne 0x20 rfl), beq_eq_false_iff_ne.mpr (hne 0x0A rfl),
      beq_eq_false_iff_ne.mpr (hne 0x09 rfl), beq_eq_false_iff_ne.mpr (hne 0x0D rfl), Bool.or_false]
  unfold value
  rw [skipSpaces_cons hspace]
  simp only [hne 0x6E rfl, hne 0x74 rfl, hne 0x66 rfl, hne 0x2D rfl, h, if_false, if_true]

theorem value_minus (depth : Nat) : value depth (0x2D :: rest) = number true rest := by
  unfold value
  rfl

theorem value_int (n : Integer) (depth : Nat) (hr : EndsNumber rest) :
    value depth (encodeChars (Text.signedDigits n.val) ++ rest) = .ok (.int n, rest) := by
  have hl := n.lower
  have hu := n.upper
  unfold Text.signedDigits
  split
  · next k hk =>
    have hv : n.val = (k : Int) := hk
    have hread := number_text false (n := k) (show k < 18446744073709551616 by omega) hr
    rw [whole_eq_int false hv (fun h => by cases h.1)] at hread
    obtain ⟨c, ds, hds, hb⟩ := exists_digits_cons k
    rw [hds, encodeChars_cons_of_ascii (by omega), List.cons_append] at hread ⊢
    rw [value_digit (isDigit_ofNat hb).1, hread]
  · next k hk =>
    have hv : n.val = -((k + 1 : Nat) : Int) := hk
    have hread := number_text true (n := k + 1) (show k + 1 < 18446744073709551616 by omega) hr
    rw [whole_eq_int true hv (fun h => by cases h.2)] at hread
    rw [encodeChars_cons_of_ascii (by decide), List.cons_append]
    exact (value_minus depth).trans hread

/-- The text of a string goes on behind its quote, and ends with one. -/
theorem encodeChars_stringText (s : String) : encodeChars (stringText s) ++ rest =
    0x22 :: (encodeChars (s.toList.flatMap escape) ++ 0x22 :: rest) := by
  unfold stringText
  rw [encodeChars_append, encodeChars_cons_of_ascii (by decide), List.append_assoc]
  rfl

theorem value_string (s : String) (depth : Nat) :
    value depth (encodeChars (stringText s) ++ rest) = .ok (.str s, rest) := by
  rw [encodeChars_stringText]
  unfold value
  show (string (encodeChars (s.toList.flatMap escape) ++ 0x22 :: rest)).bind _ = _
  rw [string_text]
  rfl

theorem value_array (depth : Nat) : value (depth + 1) (0x5B :: rest) = items (value depth) rest := by
  rw [value]
  rfl

theorem value_object (depth : Nat) : value (depth + 1) (0x7B :: rest) = fields (value depth) rest := by
  rw [value]
  rfl

theorem endsNumber_cons {b : UInt8} (h : isDigit b = false ∧ b ≠ 0x2E ∧ b ≠ 0x65 ∧ b ≠ 0x45) :
    EndsNumber (b :: rest) := by
  intro x hx
  obtain rfl := Option.some.inj hx
  exact h

/-- What follows a value in an array goes on no number. -/
theorem endsNumber_items (items : List Json) (rest : Octets) :
    EndsNumber (encodeChars (charsItems items) ++ rest) := by
  cases items with
  | nil => exact endsNumber_cons (by decide)
  | cons v items =>
    rw [charsItems, List.cons_append, encodeChars_cons_of_ascii (by decide), List.cons_append]
    exact endsNumber_cons (by decide)

theorem endsNumber_fields (fields : List (String × Json)) (rest : Octets) :
    EndsNumber (encodeChars (charsFields fields) ++ rest) := by
  cases fields with
  | nil => exact endsNumber_cons (by decide)
  | cons f fields =>
    rw [charsFields, List.cons_append, List.cons_append, encodeChars_cons_of_ascii (by decide),
      List.cons_append]
    exact endsNumber_cons (by decide)

/-- A field whose key is behind all others is put at the end. -/
theorem insert_last {key : String} {v : Json} {fields : List (String × Json)}
    (h : ∀ f ∈ fields, f.1 < key) : insert key v fields = fields ++ [(key, v)] := by
  induction fields with
  | nil => rfl
  | cons f fields ih =>
    have hf : f.1 < key := h f (List.mem_cons_self ..)
    have hne : key ≠ f.1 := fun he => String.lt_irrefl _ (he ▸ hf)
    have hlt : ¬ key < f.1 := fun hl => String.lt_irrefl _ (String.lt_trans hl hf)
    rw [insert, if_neg hne, if_neg hlt, ih fun x hx => h x (List.mem_cons_of_mem _ hx)]
    rfl

/-! ### Arrays and objects

The reader of a part of a container is given as one that reads the texts of the values inside it. -/

variable {item : Octets → Result (Json × Octets)}

/-- The reader takes the text of a value off the front. -/
def Reads (item : Octets → Result (Json × Octets)) (v : Json) : Prop :=
  ∀ rest, EndsNumber rest → item (encodeChars v.chars ++ rest) = .ok (v, rest)

theorem encodeChars_moreItems (v : Json) (items : List Json) :
    encodeChars (charsItems (v :: items)) ++ rest =
      0x2C :: (encodeChars v.chars ++ (encodeChars (charsItems items) ++ rest)) := by
  rw [charsItems, List.cons_append, encodeChars_cons_of_ascii (by decide), encodeChars_append,
    List.cons_append, List.append_assoc]
  rfl

theorem moreItems_text {items : List Json} (reads : ∀ v ∈ items, v.Exact ∧ Reads item v) {steps : Nat}
    (done : List Json) (h : (encodeChars (charsItems items) ++ rest).length ≤ steps) :
    moreItems item steps done (encodeChars (charsItems items) ++ rest) =
      .ok (.arr (done.reverse ++ items), rest) := by
  induction items generalizing steps done with
  | nil =>
    change (0x5D :: rest).length ≤ steps at h
    obtain ⟨n, rfl⟩ := Nat.exists_eq_add_of_le' (Nat.le_trans (Nat.le_add_left 1 _) h)
    rw [List.append_nil]
    rfl
  | cons v items ih =>
    obtain ⟨exact, reads_v⟩ := reads v (List.mem_cons_self ..)
    obtain ⟨b, tail, hv, hb₀, hb⟩ := head_chars v exact
    have hread := reads_v _ (endsNumber_items items rest)
    rw [encodeChars_moreItems] at h ⊢
    rw [List.length_cons, List.length_append] at h
    obtain ⟨n, rfl⟩ := Nat.exists_eq_add_of_le' (Nat.le_trans (Nat.le_add_left 1 _) h)
    rw [hv, List.cons_append] at hread ⊢
    rw [moreItems, skipSpaces_cons rfl]
    simp only [show ¬ (0x2C : UInt8) = 0x5D by decide, if_false, if_true,
      skipSpaces_cons (isSpace_of_lt hb₀), hb,
      hread]
    rw [ih (fun x hx => reads x (List.mem_cons_of_mem _ hx)) _ (by omega), List.reverse_cons,
      List.append_assoc]
    rfl

/-- An array is read behind its bracket. -/
theorem items_text {v : Json} {items : List Json} (reads : ∀ x ∈ v :: items, x.Exact ∧ Reads item x) :
    Reader.items item (encodeChars v.chars ++ (encodeChars (charsItems items) ++ rest)) =
      .ok (.arr (v :: items), rest) := by
  obtain ⟨exact, reads_v⟩ := reads v (List.mem_cons_self ..)
  obtain ⟨b, tail, hv, hb₀, hb⟩ := head_chars v exact
  have hread := reads_v _ (endsNumber_items items rest)
  rw [hv, List.cons_append] at hread ⊢
  unfold Reader.items
  rw [skipSpaces_cons (isSpace_of_lt hb₀)]
  simp only [hb, if_false, hread]
  exact moreItems_text (fun x hx => reads x (List.mem_cons_of_mem _ hx)) [v] (Nat.le_succ _)

theorem field_text (key : String) {v : Json} (reads : Reads item v) (hr : EndsNumber rest) :
    field item (encodeChars (key.toList.flatMap escape) ++ 0x22 :: 0x3A :: (encodeChars v.chars ++ rest)) =
      .ok ((key, v), rest) := by
  unfold field
  rw [string_text]
  simp only [bind, Except.bind]
  rw [skipSpaces_cons rfl]
  simp only [if_true, reads rest hr]
  rfl

theorem encodeChars_field (key : String) (v : Json) : encodeChars (stringText key ++ ':' :: v.chars) ++ rest =
    0x22 :: (encodeChars (key.toList.flatMap escape) ++ 0x22 :: 0x3A :: (encodeChars v.chars ++ rest)) := by
  rw [encodeChars_append, List.append_assoc, encodeChars_stringText,
    encodeChars_cons_of_ascii (by decide)]
  rfl

theorem encodeChars_moreFields (key : String) (v : Json) (fields : List (String × Json)) :
    encodeChars (charsFields ((key, v) :: fields)) ++ rest =
      0x2C :: 0x22 :: (encodeChars (key.toList.flatMap escape) ++
        0x22 :: 0x3A :: (encodeChars v.chars ++ (encodeChars (charsFields fields) ++ rest))) := by
  rw [← encodeChars_field, ← List.append_assoc, ← encodeChars_append, charsFields]
  rfl

theorem moreFields_text {fields : List (String × Json)} (reads : ∀ f ∈ fields, Reads item f.2) {steps : Nat}
    (done : List (String × Json)) (sorted : (done ++ fields).Pairwise (fun a b => a.1 < b.1))
    (h : (encodeChars (charsFields fields) ++ rest).length ≤ steps) :
    moreFields item steps done (encodeChars (charsFields fields) ++ rest) =
      .ok (.obj (done ++ fields), rest) := by
  induction fields generalizing steps done with
  | nil =>
    change (0x7D :: rest).length ≤ steps at h
    obtain ⟨n, rfl⟩ := Nat.exists_eq_add_of_le' (Nat.le_trans (Nat.le_add_left 1 _) h)
    rw [List.append_nil]
    rfl
  | cons f fields ih =>
    obtain ⟨key, v⟩ := f
    have hread := field_text key (reads (key, v) (List.mem_cons_self ..))
      (endsNumber_fields fields rest)
    have last : ∀ f ∈ done, f.1 < key := fun f hf =>
      (List.pairwise_append.mp sorted).2.2 f hf (key, v) (List.mem_cons_self ..)
    rw [encodeChars_moreFields] at h ⊢
    simp only [List.length_cons, List.length_append] at h
    obtain ⟨n, rfl⟩ := Nat.exists_eq_add_of_le' (Nat.le_trans (Nat.le_add_left 1 _) h)
    rw [moreFields, skipSpaces_cons rfl]
    simp only [show ¬ (0x2C : UInt8) = 0x7D by decide, if_false, if_true,
      skipSpaces_cons (show isSpace 0x22 = false from rfl), hread]
    rw [insert_last last]
    have hmore := ih (fun f hf => reads f (List.mem_cons_of_mem _ hf)) (done ++ [(key, v)])
      (by rwa [List.append_assoc]) (show _ ≤ n by rw [List.length_append]; omega)
    rw [hmore, List.append_assoc]
    rfl

/-- An object is read behind its brace. -/
theorem fields_text {key : String} {v : Json} {fields : List (String × Json)}
    (reads : ∀ f ∈ (key, v) :: fields, Reads item f.2)
    (sorted : ((key, v) :: fields).Pairwise (fun a b => a.1 < b.1)) :
    Reader.fields item (encodeChars (stringText key ++ ':' :: v.chars) ++
      (encodeChars (charsFields fields) ++ rest)) = .ok (.obj ((key, v) :: fields), rest) := by
  have hread := field_text key (reads (key, v) (List.mem_cons_self ..))
    (endsNumber_fields fields rest)
  rw [encodeChars_field]
  unfold Reader.fields
  rw [skipSpaces_cons rfl]
  simp only [show ¬ (0x22 : UInt8) = 0x7D by decide, if_false, if_true, hread]
  exact moreFields_text (fun f hf => reads f (List.mem_cons_of_mem _ hf)) [(key, v)] sorted (Nat.le_succ _)

mutual

/-- The text of a value is read as the value. -/
theorem reads_chars (v : Json) (exact : v.Exact) (canonical : v.Canonical) {depth : Nat}
    (nested : v.depth ≤ depth) : Reads (value depth) v := by
  intro rest hr
  match v, depth with
  | .null, _ =>
    unfold value
    rfl
  | .bool true, _ =>
    unfold value
    rfl
  | .bool false, _ =>
    unfold value
    rfl
  | .int n, _ => exact value_int n _ hr
  | .double x, _ => exact exact.elim
  | .str s, _ => exact value_string s _
  | .arr _, 0 => cases nested
  | .arr [], depth + 1 => exact value_array depth
  | .arr (v :: items), depth + 1 =>
    rw [chars, List.cons_append, encodeChars_cons_of_ascii (by decide), encodeChars_append, List.cons_append,
      List.append_assoc]
    exact (value_array depth).trans (items_text (reads_items (v :: items) exact canonical
      (Nat.le_of_succ_le_succ nested)))
  | .obj _, 0 => cases nested
  | .obj [], depth + 1 => exact value_object depth
  | .obj ((key, v) :: fields), depth + 1 =>
    rw [chars, List.cons_append, List.cons_append, encodeChars_cons_of_ascii (by decide), encodeChars_append,
      List.cons_append, List.append_assoc]
    exact (value_object depth).trans (fields_text (reads_fields ((key, v) :: fields) exact canonical.2
      (Nat.le_of_succ_le_succ nested)) canonical.1)

theorem reads_items (items : List Json) (exact : ExactItems items) (canonical : CanonicalItems items)
    {depth : Nat} (nested : depthItems items ≤ depth) : ∀ v ∈ items, v.Exact ∧ Reads (value depth) v := by
  match items with
  | [] => exact fun _ h => by cases h
  | v :: items =>
    rintro x (_ | ⟨_, hx⟩)
    · exact ⟨exact.1, reads_chars v exact.1 canonical.1 (Nat.le_trans (Nat.le_max_left ..) nested)⟩
    · exact reads_items items exact.2 canonical.2 (Nat.le_trans (Nat.le_max_right ..) nested) x hx

theorem reads_fields (fields : List (String × Json)) (exact : ExactFields fields)
    (canonical : CanonicalFields fields) {depth : Nat} (nested : depthFields fields ≤ depth) :
    ∀ f ∈ fields, Reads (value depth) f.2 := by
  match fields with
  | [] => exact fun _ h => by cases h
  | (key, v) :: fields =>
    rintro f (_ | ⟨_, hf⟩)
    · exact reads_chars v exact.1 canonical.1 (Nat.le_trans (Nat.le_max_left ..) nested)
    · exact reads_fields fields exact.2 canonical.2 (Nat.le_trans (Nat.le_max_right ..) nested) f hf

end

end Reader

/-- A text is read as the value that it is the text of. -/
theorem parse_chars {v : Json} (exact : v.Exact) (canonical : v.Canonical) (nested : v.depth ≤ depthLimit) :
    parse (encodeChars v.chars) = .ok v := by
  have hread := Reader.reads_chars v exact canonical nested [] fun _ h => by cases h
  rw [List.append_nil] at hread
  unfold parse
  rw [hread]
  rfl

end RemoteDebug.Json
