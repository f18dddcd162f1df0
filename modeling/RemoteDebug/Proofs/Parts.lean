import Mathlib.Algebra.Group.Nat.Defs
import RemoteDebug.Json.Printer
import RemoteDebug.Json.Reader
import RemoteDebug.Proofs.Encoding

/-! The reader, part by part.

Where a part of the reader succeeds, one of a few things stood in front of the octets and the rest was left.
Each of these lemmas says for one part which. What holds of everything that is read is proved from them. -/
namespace RemoteDebug.Json.Reader
open Text.Utf8

variable {item : Octets → Result (Json × Octets)} {depth : Nat} {input rest : Octets} {v : Json}

theorem bind_eq_ok {ε α β : Type} {x : Except ε α} {f : α → Except ε β} {b : β} :
    x >>= f = .ok b ↔ ∃ a, x = .ok a ∧ f a = .ok b := by
  cases x <;> simp [bind, Except.bind]

theorem skipSpaces_suffix (input : Octets) : skipSpaces input <:+ input := by
  induction input with
  | nil => exact List.suffix_refl _
  | cons b input ih =>
    unfold skipSpaces
    split
    · exact ih.trans (List.suffix_cons ..)
    · exact List.suffix_refl _

theorem literal_eq_ok {w : Json} {name : Octets} (h : literal w name input = .ok (v, rest)) :
    v = w ∧ input = name ++ rest := by
  induction name generalizing input with
  | nil =>
    cases h
    exact ⟨rfl, rfl⟩
  | cons b name ih =>
    cases input with
    | nil => cases h
    | cons c input =>
      unfold literal at h
      split at h
      · next he =>
        obtain ⟨hv, hinput⟩ := ih h
        exact ⟨hv, by rw [he, hinput, List.cons_append]⟩
      · cases h

/-! ### Strings -/

theorem hex4_eq_ok {n : Nat} (h : hex4 input = .ok (n, rest)) : rest.length + 4 = input.length := by
  unfold hex4 at h
  split at h
  · split at h
    · cases h
      rfl
    · cases h
  · cases h

/-- A code point takes four octets, or four more and what is between. -/
theorem codePoint_eq_ok {n : Nat} (h : codePoint input = .ok (n, rest)) : rest.length + 4 ≤ input.length := by
  unfold codePoint at h
  obtain ⟨⟨lead, r⟩, hlead, h⟩ := bind_eq_ok.mp h
  have hlength := hex4_eq_ok hlead
  dsimp only at h
  split at h
  · cases h
  split at h
  · cases h
    exact Nat.le_of_eq hlength
  split at h
  · cases h
  · split at h
    · cases h
    split at h
    · cases h
    · split at h
      · cases h
      · obtain ⟨⟨trail, r⟩, htrail, h⟩ := bind_eq_ok.mp h
        have hlength' := hex4_eq_ok htrail
        dsimp only at h
        split at h
        · cases h
        · cases h
          simp only [List.length_cons] at hlength
          omega

/-- An escape of two octets stands for one of these. -/
def shortEscaped : Octets := [0x22, 0x5C, 0x2F, 0x08, 0x0C, 0x0A, 0x0D, 0x09]

/-- An escape behind its backslash is one octet, or the octets of a character for five at least. -/
theorem escaped_eq_ok {octets : Octets} (h : escaped input = .ok (octets, rest)) :
    (∃ b, ∃ c ∈ shortEscaped, octets = [c] ∧ input = b :: rest) ∨
      ∃ c : Char, octets = String.utf8EncodeChar c ∧ rest.length + 5 ≤ input.length := by
  unfold escaped at h
  split at h
  · cases h
  · next b r =>
    have short : ∀ {c}, c ∈ shortEscaped → (.ok ([c], r) : Result (Octets × Octets)) = .ok (octets, rest) →
        (∃ b', ∃ c ∈ shortEscaped, octets = [c] ∧ b :: r = b' :: rest) := by
      intro c hc h
      cases h
      exact ⟨b, c, hc, rfl, rfl⟩
    split at h
    · next hb => exact Or.inl (short (by rcases hb with rfl | rfl | rfl <;> decide) h)
    split at h
    · exact Or.inl (short (by decide) h)
    split at h
    · exact Or.inl (short (by decide) h)
    split at h
    · exact Or.inl (short (by decide) h)
    split at h
    · exact Or.inl (short (by decide) h)
    split at h
    · exact Or.inl (short (by decide) h)
    split at h
    · obtain ⟨⟨n, r'⟩, hn, h⟩ := bind_eq_ok.mp h
      cases h
      exact Or.inr ⟨_, rfl, Nat.succ_le_succ (codePoint_eq_ok hn)⟩
    · cases h

/-- The next thing in a string is its end, an escape or an octet that stands for itself. -/
theorem stringOctets_eq_ok {steps : Nat} {done octets : Octets}
    (h : stringOctets (steps + 1) done input = .ok (octets, rest)) :
    (octets = done.reverse ∧ input = 0x22 :: rest) ∨
    (∃ r part r', input = 0x5C :: r ∧ escaped r = .ok (part, r') ∧
      stringOctets steps (part.reverse ++ done) r' = .ok (octets, rest)) ∨
    ∃ b r, input = b :: r ∧ (b ≠ 0x22 ∧ b ≠ 0x5C ∧ ¬ b < 0x20) ∧
      stringOctets steps (b :: done) r = .ok (octets, rest) := by
  unfold stringOctets at h
  split at h
  · cases h
  · next hzero => cases hzero
  · next b r hsteps =>
    obtain rfl := Nat.succ.inj hsteps
    split at h
    · next hb =>
      cases h
      exact Or.inl ⟨rfl, hb ▸ rfl⟩
    split at h
    · next hb =>
      split at h
      · next he => exact Or.inr (Or.inl ⟨r, _, _, hb ▸ rfl, he, h⟩)
      · cases h
    split at h
    · cases h
    · next h₁ h₂ h₃ => exact Or.inr (Or.inr ⟨b, r, rfl, ⟨h₁, h₂, h₃⟩, h⟩)

theorem string_eq_ok {s : String} (h : string input = .ok (s, rest)) :
    stringOctets input.length [] input = .ok (encodeChars s.toList, rest) := by
  unfold string at h
  obtain ⟨⟨octets, r⟩, hoctets, h⟩ := bind_eq_ok.mp h
  dsimp only at h
  split at h
  · next s' hdecode =>
    cases h
    rw [hoctets, decode?_eq_some_iff.mp hdecode]
  · cases h

/-! ### Numbers -/

/-- A digit goes into the significand, or it is dropped and from then on every other one. -/
theorem digits_cons {b : UInt8} (hb : isDigit b = true) (d : Digits) (rest : Octets) :
    ∃ d', digits d (b :: rest) = digits d' rest ∧
      (d'.dropped = 0 → d.dropped = 0 ∧ d'.significand < (d.significand + 1) * 10) := by
  have hvalue : digitValue b < 10 := by
    simp only [isDigit, Bool.and_eq_true, decide_eq_true_eq, UInt8.le_iff_toNat_le, UInt8.toNat_ofNat] at hb
    unfold digitValue
    omega
  rw [digits, if_pos hb]
  dsimp only
  split
  · next hfit => exact ⟨_, rfl, fun _ => ⟨hfit.1, show d.significand * 10 + _ < _ by omega⟩⟩
  · exact ⟨_, rfl, fun hdropped => absurd hdropped (Nat.succ_ne_zero _)⟩

/-- Digits that are all taken in are no fewer than those of the number. -/
theorem digits_eq (d : Digits) (input : Octets) : ∃ taken, input = taken ++ (digits d input).2 ∧
    ((digits d input).1.dropped = 0 →
      d.dropped = 0 ∧ (digits d input).1.significand < (d.significand + 1) * 10 ^ taken.length) := by
  induction input generalizing d with
  | nil => exact ⟨[], rfl, fun h => ⟨h, by simp [digits]⟩⟩
  | cons b input ih =>
    cases hb : isDigit b with
    | false =>
      rw [digits, if_neg (hb ▸ Bool.false_ne_true)]
      exact ⟨[], rfl, fun h => ⟨h, by simp⟩⟩
    | true =>
      obtain ⟨d', hstep, hnext⟩ := digits_cons hb d input
      obtain ⟨taken, htaken, hbound⟩ := ih d'
      rw [hstep]
      refine ⟨b :: taken, by rw [List.cons_append, ← htaken], fun h => ?_⟩
      obtain ⟨h', hlt⟩ := hbound h
      obtain ⟨hd, hlt'⟩ := hnext h'
      refine ⟨hd, Nat.lt_of_lt_of_le hlt ?_⟩
      calc (d'.significand + 1) * 10 ^ taken.length
          ≤ (d.significand + 1) * 10 * 10 ^ taken.length := Nat.mul_le_mul_right _ hlt'
        _ = (d.significand + 1) * 10 ^ (b :: taken).length := by
          rw [List.length_cons, Nat.pow_succ', Nat.mul_assoc]

theorem digits_suffix (d : Digits) (input : Octets) : (digits d input).2 <:+ input :=
  let ⟨taken, h, _⟩ := digits_eq d input
  ⟨taken, h.symm⟩

theorem exponentDigits_suffix (n : Nat) (input : Octets) : (exponentDigits n input).2 <:+ input := by
  induction input generalizing n with
  | nil => exact List.suffix_refl _
  | cons b input ih =>
    unfold exponentDigits
    split
    · exact (ih _).trans (List.suffix_cons ..)
    · exact List.suffix_refl _

/-- A double, read from the front of the octets. -/
structure Doubled (input : Octets) (v : Json) (rest : Octets) : Prop where
  double : ∃ x, v = .double x
  suffix : rest <:+ input

theorem Doubled.mono {input' : Octets} (h : Doubled input v rest) (hs : input <:+ input') :
    Doubled input' v rest := ⟨h.double, h.suffix.trans hs⟩

theorem doubled_decimal {negative : Bool} {n : Nat} {exponent : Int}
    (h : decimal negative n exponent input = .ok (v, rest)) : Doubled input v rest := by
  unfold decimal at h
  split at h
  · cases h
    exact ⟨⟨_, rfl⟩, List.suffix_refl _⟩
  · cases h

theorem doubled_exponentPart {negative : Bool} {n : Nat} {exponent : Int}
    (h : exponentPart negative n exponent input = .ok (v, rest)) : Doubled input v rest := by
  unfold exponentPart at h
  dsimp only at h
  split at h
  · cases h
  · next b r hsign =>
    -- the first digit is behind the sign, or there is none
    have hs : b :: r <:+ input := by
      rw [← hsign]
      split
      · exact List.suffix_cons ..
      · exact List.suffix_cons ..
      · exact List.suffix_refl _
    split at h
    · exact (doubled_decimal h).mono ((exponentDigits_suffix _ r).trans ((List.suffix_cons ..).trans hs))
    · cases h

theorem doubled_fractionPart {negative : Bool} {n : Nat} {exponent : Int}
    (h : fractionPart negative n exponent input = .ok (v, rest)) : Doubled input v rest := by
  unfold fractionPart at h
  split at h
  · cases h
  · next b r =>
    have hsuffix := digits_suffix ⟨n, 0, 0⟩ (b :: r)
    split at h
    · dsimp only at h
      split at h
      · next c r' heq =>
        rw [heq] at hsuffix
        split at h
        · exact (doubled_exponentPart h).mono ((List.suffix_cons ..).trans hsuffix)
        · exact (doubled_decimal h).mono hsuffix
      · next heq =>
        exact (doubled_decimal h).mono List.nil_suffix
    · cases h

/-- A number is whole and all its digits are in it, or it is a double. -/
theorem afterWhole_eq_ok {negative : Bool} {d : Digits} (h : afterWhole negative d input = .ok (v, rest)) :
    (d.dropped = 0 ∧ v = whole negative d.significand ∧ input = rest) ∨ Doubled input v rest := by
  have plain : (if d.dropped = 0 then .ok (whole negative d.significand, input)
      else decimal negative d.significand d.dropped input) = .ok (v, rest) →
      (d.dropped = 0 ∧ v = whole negative d.significand ∧ input = rest) ∨ Doubled input v rest := by
    intro h
    split at h
    · next hd =>
      cases h
      exact Or.inl ⟨hd, rfl, rfl⟩
    · exact Or.inr (doubled_decimal h)
  unfold afterWhole at h
  dsimp only at h
  split at h
  · exact plain h
  split at h
  · exact Or.inr ((doubled_fractionPart h).mono (List.suffix_cons ..))
  split at h
  · exact Or.inr ((doubled_exponentPart h).mono (List.suffix_cons ..))
  · exact plain h

theorem number_eq_ok {negative : Bool} (h : number negative input = .ok (v, rest)) :
    (∃ taken n, v = whole negative n ∧ taken ≠ [] ∧ n < 10 ^ taken.length ∧ input = taken ++ rest) ∨
      Doubled input v rest := by
  have zero : ∀ {r}, afterWhole negative ⟨0, 1, 0⟩ r = .ok (v, rest) →
      (∃ taken n, v = whole negative n ∧ taken ≠ [] ∧ n < 10 ^ taken.length ∧ 0x30 :: r = taken ++ rest) ∨
        Doubled (0x30 :: r) v rest := by
    intro r h
    rcases afterWhole_eq_ok h with ⟨-, rfl, rfl⟩ | h
    · exact Or.inl ⟨[0x30], 0, rfl, by simp, by simp, rfl⟩
    · exact Or.inr (h.mono (List.suffix_cons ..))
  unfold number at h
  split at h
  · cases h
  · next b r =>
    split at h
    · next hzero =>
      subst hzero
      split at h
      · split at h
        · cases h
        · exact zero h
      · exact zero h
    split at h
    · next hb =>
      dsimp only at h
      obtain ⟨taken, htaken, hbound⟩ := digits_eq ⟨0, 0, 0⟩ (b :: r)
      have hne : taken ≠ [] := by
        rintro rfl
        obtain ⟨d, hstep, -⟩ := digits_cons hb ⟨0, 0, 0⟩ r
        have hle := (digits_suffix d r).length_le
        rw [← hstep, ← List.nil_append (digits _ _).2, ← htaken] at hle
        exact absurd hle (Nat.not_succ_le_self _)
      rcases afterWhole_eq_ok h with ⟨hdropped, rfl, rfl⟩ | h
      · refine Or.inl ⟨taken, _, rfl, hne, ?_, htaken⟩
        simpa using (hbound hdropped).2
      · exact Or.inr (h.mono (digits_suffix ..))
    · cases h

/-! ### Arrays and objects -/

/-- The next thing in an array is its end or one more item. -/
theorem moreItems_eq_ok {steps : Nat} {done : List Json}
    (h : moreItems item (steps + 1) done input = .ok (v, rest)) :
    (v = .arr done.reverse ∧ skipSpaces input = 0x5D :: rest) ∨
      ∃ r w r', skipSpaces input = 0x2C :: r ∧ item (skipSpaces r) = .ok (w, r') ∧
        moreItems item steps (w :: done) r' = .ok (v, rest) := by
  unfold moreItems at h
  split at h
  · cases h
  · next b r hspaces =>
    split at h
    · next hb =>
      cases h
      exact Or.inl ⟨rfl, hb ▸ hspaces⟩
    split at h
    · next hb =>
      split at h
      · cases h
      · next hnext =>
        split at h
        · cases h
        split at h
        · next hw => exact Or.inr ⟨r, _, _, hb ▸ hspaces, hnext ▸ hw, h⟩
        · cases h
    · cases h

theorem items_eq_ok (h : items item input = .ok (v, rest)) :
    (v = .arr [] ∧ skipSpaces input = 0x5D :: rest) ∨
      ∃ w r, item (skipSpaces input) = .ok (w, r) ∧ moreItems item (r.length + 1) [w] r = .ok (v, rest) := by
  unfold items at h
  split at h
  · cases h
  · next b r hspaces =>
    split at h
    · next hb =>
      cases h
      exact Or.inl ⟨rfl, hb ▸ hspaces⟩
    split at h
    · next hw => exact Or.inr ⟨_, _, hspaces ▸ hw, h⟩
    · cases h

theorem field_eq_ok {f : String × Json} (h : field item input = .ok (f, rest)) :
    ∃ r r', string input = .ok (f.1, r) ∧ skipSpaces r = 0x3A :: r' ∧ item r' = .ok (f.2, rest) := by
  unfold field at h
  obtain ⟨⟨key, r⟩, hkey, h⟩ := bind_eq_ok.mp h
  dsimp only at h
  split at h
  · cases h
  · next b r' hspaces =>
    split at h
    · next hb =>
      obtain ⟨⟨w, r''⟩, hw, h⟩ := bind_eq_ok.mp h
      cases h
      exact ⟨r, r', hkey, hb ▸ hspaces, hw⟩
    · cases h

/-- The next thing in an object is its end or one more field. -/
theorem moreFields_eq_ok {steps : Nat} {done : List (String × Json)}
    (h : moreFields item (steps + 1) done input = .ok (v, rest)) :
    (v = .obj done ∧ skipSpaces input = 0x7D :: rest) ∨
      ∃ r r' f r'', skipSpaces input = 0x2C :: r ∧ skipSpaces r = 0x22 :: r' ∧ field item r' = .ok (f, r'') ∧
        moreFields item steps (insert f.1 f.2 done) r'' = .ok (v, rest) := by
  unfold moreFields at h
  split at h
  · cases h
  · next b r hspaces =>
    split at h
    · next hb =>
      cases h
      exact Or.inl ⟨rfl, hb ▸ hspaces⟩
    split at h
    · next hb =>
      split at h
      · cases h
      · next hquote =>
        split at h
        · next hc =>
          split at h
          · next hf => exact Or.inr ⟨r, _, _, _, hb ▸ hspaces, hc ▸ hquote, hf, h⟩
          · cases h
        · cases h
    · cases h

theorem fields_eq_ok (h : fields item input = .ok (v, rest)) :
    (v = .obj [] ∧ skipSpaces input = 0x7D :: rest) ∨
      ∃ r f r', skipSpaces input = 0x22 :: r ∧ field item r = .ok (f, r') ∧
        moreFields item (r'.length + 1) [f] r' = .ok (v, rest) := by
  unfold fields at h
  split at h
  · cases h
  · next b r hspaces =>
    split at h
    · next hb =>
      cases h
      exact Or.inl ⟨rfl, hb ▸ hspaces⟩
    split at h
    · next hb =>
      split at h
      · next hf => exact Or.inr ⟨r, _, _, hb ▸ hspaces, hf, h⟩
      · cases h
    · cases h

/-! ### Values -/

/-- A value that is neither an array nor an object. -/
def IsScalar : Json → Prop
  | .arr _ | .obj _ => False
  | _ => True

theorem isScalar_number {negative : Bool} (h : number negative input = .ok (v, rest)) : IsScalar v := by
  rcases number_eq_ok h with ⟨_, n, rfl, -⟩ | ⟨⟨x, rfl⟩, -⟩
  · unfold whole
    split
    · split <;> trivial
    · trivial
  · trivial

/-- The ways in which a value is read, without the blanks in front of it. -/
inductive Shape : (depth : Nat) → Octets → Json → Octets → Prop
  | literal {depth : Nat} {v : Json} {rest : Octets} (named : v = .null ∨ ∃ b, v = .bool b) :
    Shape depth (encodeChars v.chars ++ rest) v rest
  | negative {depth : Nat} {input rest : Octets} {v : Json} (h : number true input = .ok (v, rest)) :
    Shape depth (0x2D :: input) v rest
  | number {depth : Nat} {input rest : Octets} {v : Json} (h : number false input = .ok (v, rest)) :
    Shape depth input v rest
  | string {depth : Nat} {input rest : Octets} {s : String} (h : string input = .ok (s, rest)) :
    Shape depth (0x22 :: input) (.str s) rest
  | items {depth : Nat} {input rest : Octets} {v : Json} (h : items (value depth) input = .ok (v, rest)) :
    Shape (depth + 1) (0x5B :: input) v rest
  | fields {depth : Nat} {input rest : Octets} {v : Json} (h : fields (value depth) input = .ok (v, rest)) :
    Shape (depth + 1) (0x7B :: input) v rest

theorem shape_of_value (h : value depth input = .ok (v, rest)) : Shape depth (skipSpaces input) v rest := by
  unfold value at h
  split at h
  · cases h
  · next b r hspaces =>
    rw [hspaces]
    split at h
    · next hb =>
      obtain ⟨rfl, rfl⟩ := literal_eq_ok h
      exact hb ▸ .literal (Or.inl rfl)
    split at h
    · next hb =>
      obtain ⟨rfl, rfl⟩ := literal_eq_ok h
      exact hb ▸ .literal (Or.inr ⟨true, rfl⟩)
    split at h
    · next hb =>
      obtain ⟨rfl, rfl⟩ := literal_eq_ok h
      exact hb ▸ .literal (Or.inr ⟨false, rfl⟩)
    split at h
    · next hb => exact hb ▸ .negative h
    split at h
    · exact .number h
    split at h
    · next hb =>
      obtain ⟨⟨s, r⟩, hs, h⟩ := bind_eq_ok.mp h
      cases h
      exact hb ▸ .string hs
    split at h
    · next hb =>
      split at h
      · cases h
      · exact hb ▸ .items h
    split at h
    · next hb =>
      split at h
      · cases h
      · exact hb ▸ .fields h
    · cases h

end RemoteDebug.Json.Reader
