import RemoteDebug.Text.Utf8

/-! UTF-8 is read as it is written.

Decoding takes one character at a time: between two characters it goes on exactly if the next octets
are those of a character, and then with the octets behind them. So it accepts the octets of a text,
gives that text back, and accepts nothing else. -/
namespace RemoteDebug.Text.Utf8

variable {c : Char} {s t : List Char} {bytes octets rest : List UInt8}

@[simp] theorem encodeChars_nil : encodeChars [] = [] := rfl

@[simp] theorem encodeChars_cons (c : Char) (s : List Char) :
    encodeChars (c :: s) = String.utf8EncodeChar c ++ encodeChars s := rfl

@[simp] theorem encodeChars_append (s t : List Char) :
    encodeChars (s ++ t) = encodeChars s ++ encodeChars t := List.flatMap_append

theorem encodeChars_eq_nil : encodeChars s = [] ↔ s = [] := by
  cases s <;> simp

/-! ### The octets of a character -/

/-- The octets of a code point: one below `0x80`, else a first octet and one for every six bits
behind it. Overlong forms, surrogates and what lies above `U+10FFFF` are left out. -/
inductive Form : Nat → List UInt8 → Prop
  | one {a : Nat} (ha : a < 0x80) : Form a [.ofNat a]
  | two {a b : Nat} (ha : 2 ≤ a ∧ a < 32) (hb : b < 64) :
    Form (a * 64 + b) [.ofNat (a + 0xC0), .ofNat (b + 0x80)]
  | three {a b c : Nat} (ha : a < 16) (hb : b < 64) (hc : c < 64) (long : a = 0 → 32 ≤ b)
    (scalar : a = 13 → b < 32) :
    Form ((a * 64 + b) * 64 + c) [.ofNat (a + 0xE0), .ofNat (b + 0x80), .ofNat (c + 0x80)]
  | four {a b c d : Nat} (ha : a ≤ 4) (hb : b < 64) (hc : c < 64) (hd : d < 64)
    (long : a = 0 → 16 ≤ b) (scalar : a = 4 → b < 16) :
    Form (((a * 64 + b) * 64 + c) * 64 + d)
      [.ofNat (a + 0xF0), .ofNat (b + 0x80), .ofNat (c + 0x80), .ofNat (d + 0x80)]

theorem form_encodeChar (c : Char) : Form c.toNat (String.utf8EncodeChar c) := by
  have hvalid : c.val.toNat < 0xD800 ∨ 0xDFFF < c.val.toNat ∧ c.val.toNat < 0x110000 := c.valid
  show Form c.val.toNat _
  unfold String.utf8EncodeChar
  generalize c.val.toNat = n at hvalid
  dsimp only
  split
  · exact .one (by omega)
  split
  · have h := Form.two (a := n / 64) (b := n % 64) (by omega) (by omega)
    rwa [show n / 64 * 64 + n % 64 = n by omega, ← show n / 64 % 32 = n / 64 by omega] at h
  split
  · have h := Form.three (a := n / 4096) (b := n / 64 % 64) (c := n % 64) (by omega) (by omega) (by omega)
      (by omega) (by omega)
    rwa [show (n / 4096 * 64 + n / 64 % 64) * 64 + n % 64 = n by omega,
      ← show n / 4096 % 16 = n / 4096 by omega] at h
  · have h := Form.four (a := n / 262144) (b := n / 4096 % 64) (c := n / 64 % 64) (d := n % 64) (by omega)
      (by omega) (by omega) (by omega) (by omega) (by omega)
    rwa [show ((n / 262144 * 64 + n / 4096 % 64) * 64 + n / 64 % 64) * 64 + n % 64 = n by omega,
      ← show n / 262144 % 8 = n / 262144 by omega] at h

theorem Form.isValidChar {n : Nat} (h : Form n octets) : n.isValidChar := by
  cases h with
  | one ha => exact Or.inl (by omega)
  | two ha hb => exact Or.inl (by omega)
  | three ha hb hc long scalar =>
    show _ < 0xD800 ∨ 0xDFFF < _ ∧ _ < 0x110000
    omega
  | four ha hb hc hd long scalar =>
    show _ < 0xD800 ∨ 0xDFFF < _ ∧ _ < 0x110000
    omega

theorem Form.toNat {n : Nat} (h : Form n octets) : (Char.ofNat n).toNat = n := by
  unfold Char.ofNat
  rw [dif_pos h.isValidChar]
  rfl

/-- The octets of a code point are those of its character. -/
theorem Form.eq_encodeChar {n : Nat} (h : Form n octets) :
    String.utf8EncodeChar (Char.ofNat n) = octets := by
  have hn : (Char.ofNat n).val.toNat = n := h.toNat
  unfold String.utf8EncodeChar
  rw [hn]
  dsimp only
  cases h with
  | one ha => rw [if_pos (by omega)]
  | @two a b ha hb =>
    rw [if_neg (by omega), if_pos (by omega), show (a * 64 + b) / 64 % 32 = a by omega,
      show (a * 64 + b) % 64 = b by omega]
  | @three a b c ha hb hc long scalar =>
    rw [if_neg (by omega), if_neg (by omega), if_pos (by omega),
      show ((a * 64 + b) * 64 + c) / 4096 % 16 = a by omega,
      show ((a * 64 + b) * 64 + c) / 64 % 64 = b by omega, show ((a * 64 + b) * 64 + c) % 64 = c by omega]
  | @four a b c d ha hb hc hd long scalar =>
    rw [if_neg (by omega), if_neg (by omega), if_neg (by omega),
      show (((a * 64 + b) * 64 + c) * 64 + d) / 262144 % 8 = a by omega,
      show (((a * 64 + b) * 64 + c) * 64 + d) / 4096 % 64 = b by omega,
      show (((a * 64 + b) * 64 + c) * 64 + d) / 64 % 64 = c by omega,
      show (((a * 64 + b) * 64 + c) * 64 + d) % 64 = d by omega]

/-! ### The decoder between two octets -/

/-- From a state and the characters so far, the octets are decoded to a text. -/
def Decodes (s : State) (done : List Char) (bytes : List UInt8) (out : List Char) : Prop :=
  decodeFrom 0 0 s done bytes = .ok out

/-- The indices are there for failures only. -/
theorem decodeFrom_eq_ok_of {start next start' next' : Nat} {s : State} {done out : List Char}
    (h : decodeFrom start next s done bytes = .ok out) : decodeFrom start' next' s done bytes = .ok out := by
  induction bytes generalizing start next start' next' s done with
  | nil =>
    unfold decodeFrom at h ⊢
    split at h
    · next hs => rw [if_pos hs, h]
    · cases h
  | cons b rest ih =>
    unfold decodeFrom at h ⊢
    split at h
    · simp only [ih h]
    · simp only [ih h]
    · cases h

theorem decodes_nil {s : State} {done out : List Char} :
    Decodes s done [] out ↔ s = .between ∧ out = done.reverse := by
  unfold Decodes decodeFrom
  split
  · next hs => simp [hs, eq_comm]
  · next hs => simp [hs]

theorem decodes_of_char {s : State} {done out : List Char} {b : UInt8} (h : step s b = .char c) :
    Decodes s done (b :: rest) out ↔ Decodes .between (c :: done) rest out := by
  unfold Decodes
  rw [decodeFrom, h]
  exact ⟨decodeFrom_eq_ok_of, decodeFrom_eq_ok_of⟩

theorem decodes_of_more {s s' : State} {done out : List Char} {b : UInt8} (h : step s b = .more s') :
    Decodes s done (b :: rest) out ↔ Decodes s' done rest out := by
  unfold Decodes
  rw [decodeFrom, h]
  exact ⟨decodeFrom_eq_ok_of, decodeFrom_eq_ok_of⟩

theorem not_decodes_of_refused {s : State} {done out : List Char} {b : UInt8} {k : Nat}
    (h : step s b = .refused k) : ¬ Decodes s done (b :: rest) out := by
  unfold Decodes
  rw [decodeFrom, h]
  exact fun h => by cases h

/-- An octet that a state inside a character takes gives six bits. -/
def Takes (low high : UInt8) (n : Nat) : Prop := n < 64 ∧ low.toNat ≤ n + 0x80 ∧ n + 0x80 ≤ high.toNat

theorem exists_takes {low high b : UInt8} (hl : 0x80 ≤ low.toNat) (hh : high.toNat < 0xC0) {P : Nat → Prop} :
    ((low ≤ b ∧ b ≤ high) ∧ P (b.toNat - 0x80)) ↔
      ∃ n, b = .ofNat (n + 0x80) ∧ Takes low high n ∧ P n := by
  rw [UInt8.le_iff_toNat_le, UInt8.le_iff_toNat_le]
  constructor
  · rintro ⟨⟨h₁, h₂⟩, hp⟩
    refine ⟨b.toNat - 0x80, ?_, ⟨by omega, by omega, by omega⟩, hp⟩
    rw [show b.toNat - 0x80 + 0x80 = b.toNat by omega, UInt8.ofNat_toNat]
  · rintro ⟨n, rfl, ⟨hn, h₁, h₂⟩, hp⟩
    rw [UInt8.toNat_ofNat_of_lt' (show n + 0x80 < 256 by omega), Nat.add_sub_cancel]
    exact ⟨⟨h₁, h₂⟩, hp⟩

variable {value due taken : Nat} {low high : UInt8} {done out : List Char}

theorem decodes_inside_cons {b : UInt8} : Decodes (.inside value due taken low high) done (b :: rest) out ↔
    (low ≤ b ∧ b ≤ high) ∧
      if due ≤ 1 then Decodes .between (Char.ofNat (value * 64 + (b.toNat - 0x80)) :: done) rest out
      else Decodes (.inside (value * 64 + (b.toNat - 0x80)) (due - 1) (taken + 1) 0x80 0xBF) done rest out := by
  have hstep : step (.inside value due taken low high) b = if low ≤ b ∧ b ≤ high then
      if due ≤ 1 then .char (Char.ofNat (value * 64 + (b.toNat - 0x80)))
      else .more (.inside (value * 64 + (b.toNat - 0x80)) (due - 1) (taken + 1) 0x80 0xBF)
      else .refused taken := rfl
  by_cases hr : low ≤ b ∧ b ≤ high
  · rw [if_pos hr] at hstep
    rw [and_iff_right hr]
    split
    · next hd => exact decodes_of_char (hstep.trans (if_pos hd))
    · next hd => exact decodes_of_more (hstep.trans (if_neg hd))
  · rw [if_neg hr] at hstep
    exact iff_of_false (not_decodes_of_refused hstep) fun h => hr h.1

theorem decodes_last (hl : 0x80 ≤ low.toNat) (hh : high.toNat < 0xC0) :
    Decodes (.inside value 1 taken low high) done bytes out ↔ ∃ n rest, bytes = .ofNat (n + 0x80) :: rest ∧
      Takes low high n ∧ Decodes .between (Char.ofNat (value * 64 + n) :: done) rest out := by
  cases bytes with
  | nil => simp [decodes_nil]
  | cons b rest =>
    rw [decodes_inside_cons, if_pos (Nat.le_refl 1), exists_takes hl hh
      (P := fun n => Decodes .between (Char.ofNat (value * 64 + n) :: done) rest out)]
    exact ⟨fun ⟨n, hb, h⟩ => ⟨n, rest, hb ▸ rfl, h⟩, fun ⟨n, r, hb, h⟩ => by cases hb; exact ⟨n, rfl, h⟩⟩

theorem decodes_inside (hl : 0x80 ≤ low.toNat) (hh : high.toNat < 0xC0) :
    Decodes (.inside value (due + 2) taken low high) done bytes out ↔ ∃ n rest,
      bytes = .ofNat (n + 0x80) :: rest ∧ Takes low high n ∧
        Decodes (.inside (value * 64 + n) (due + 1) (taken + 1) 0x80 0xBF) done rest out := by
  cases bytes with
  | nil => simp [decodes_nil]
  | cons b rest =>
    rw [decodes_inside_cons, if_neg (by omega), show due + 2 - 1 = due + 1 from rfl, exists_takes hl hh
      (P := fun n => Decodes (.inside (value * 64 + n) (due + 1) (taken + 1) 0x80 0xBF) done rest out)]
    exact ⟨fun ⟨n, hb, h⟩ => ⟨n, rest, hb ▸ rfl, h⟩, fun ⟨n, r, hb, h⟩ => by cases hb; exact ⟨n, rfl, h⟩⟩

theorem takes_tail {n : Nat} : Takes 0x80 0xBF n ↔ n < 64 := by
  unfold Takes
  simp only [UInt8.toNat_ofNat]
  omega

theorem step_one {a : Nat} (ha : a < 0x80) : step .between (.ofNat a) = .char (Char.ofNat a) := by
  unfold step first
  dsimp only
  rw [UInt8.toNat_ofNat_of_lt' (show a < 256 by omega)]
  exact if_pos ha

theorem step_two {a : Nat} (ha : 2 ≤ a ∧ a < 32) :
    step .between (.ofNat (a + 0xC0)) = .more (.inside a 1 1 0x80 0xBF) := by
  unfold step first
  dsimp only
  rw [UInt8.toNat_ofNat_of_lt' (show a + 0xC0 < 256 by omega)]
  rw [if_neg (by omega), if_neg (by omega), if_pos (by omega), Nat.add_sub_cancel]

theorem step_three {a : Nat} (ha : a < 16) : step .between (.ofNat (a + 0xE0)) =
    .more (.inside a 2 1 (if a = 0 then 0xA0 else 0x80) (if a = 13 then 0x9F else 0xBF)) := by
  unfold step first
  dsimp only
  rw [UInt8.toNat_ofNat_of_lt' (show a + 0xE0 < 256 by omega)]
  rw [if_neg (by omega), if_neg (by omega), if_neg (by omega)]
  by_cases h₀ : a = 0
  · subst h₀
    rfl
  by_cases h₁ : a = 13
  · subst h₁
    rfl
  · rw [if_neg (by omega), if_neg (by omega), if_pos (by omega), if_neg h₀, if_neg h₁, Nat.add_sub_cancel]

theorem step_four {a : Nat} (ha : a ≤ 4) : step .between (.ofNat (a + 0xF0)) =
    .more (.inside a 3 1 (if a = 0 then 0x90 else 0x80) (if a = 4 then 0x8F else 0xBF)) := by
  obtain rfl | rfl | rfl | rfl | rfl : a = 0 ∨ a = 1 ∨ a = 2 ∨ a = 3 ∨ a = 4 := by omega
  all_goals rfl

/-- What an octet between two characters can be. -/
theorem step_cases (b : UInt8) : (∃ a < 0x80, b = .ofNat a) ∨ (∃ a, (2 ≤ a ∧ a < 32) ∧ b = .ofNat (a + 0xC0)) ∨
    (∃ a < 16, b = .ofNat (a + 0xE0)) ∨ (∃ a ≤ 4, b = .ofNat (a + 0xF0)) ∨ step .between b = .refused 1 := by
  have hlt : b.toNat < 256 := b.toNat_lt
  have shift : ∀ k, k ≤ b.toNat → b = .ofNat (b.toNat - k + k) := by
    intro k hk
    rw [Nat.sub_add_cancel hk, UInt8.ofNat_toNat]
  by_cases h₁ : b.toNat < 0x80
  · exact Or.inl ⟨b.toNat, h₁, UInt8.ofNat_toNat.symm⟩
  by_cases h₂ : b.toNat < 0xC2
  · refine Or.inr (Or.inr (Or.inr (Or.inr ?_)))
    unfold step first
    dsimp only
    rw [if_neg h₁, if_pos h₂]
  by_cases h₃ : b.toNat < 0xE0
  · exact Or.inr (Or.inl ⟨b.toNat - 0xC0, by omega, shift _ (by omega)⟩)
  by_cases h₄ : b.toNat < 0xF0
  · exact Or.inr (Or.inr (Or.inl ⟨b.toNat - 0xE0, by omega, shift _ (by omega)⟩))
  by_cases h₅ : b.toNat < 0xF5
  · exact Or.inr (Or.inr (Or.inr (Or.inl ⟨b.toNat - 0xF0, by omega, shift _ (by omega)⟩)))
  · refine Or.inr (Or.inr (Or.inr (Or.inr ?_)))
    unfold step first
    dsimp only
    repeat rw [if_neg (by omega)]

theorem takes_three {a n : Nat} : Takes (if a = 0 then 0xA0 else 0x80) (if a = 13 then 0x9F else 0xBF) n ↔
    n < 64 ∧ (a = 0 → 32 ≤ n) ∧ (a = 13 → n < 32) := by
  unfold Takes
  split <;> split <;> simp only [UInt8.toNat_ofNat] <;> omega

theorem takes_four {a n : Nat} : Takes (if a = 0 then 0x90 else 0x80) (if a = 4 then 0x8F else 0xBF) n ↔
    n < 64 ∧ (a = 0 → 16 ≤ n) ∧ (a = 4 → n < 16) := by
  unfold Takes
  split <;> split <;> simp only [UInt8.toNat_ofNat] <;> omega

theorem decodes_two {a : Nat} (ha : 2 ≤ a ∧ a < 32) :
    Decodes .between done (.ofNat (a + 0xC0) :: bytes) out ↔ ∃ b rest, b < 64 ∧
      bytes = .ofNat (b + 0x80) :: rest ∧ Decodes .between (Char.ofNat (a * 64 + b) :: done) rest out := by
  rw [decodes_of_more (step_two ha), decodes_last (by decide) (by decide)]
  simp only [takes_tail]
  exact exists_congr fun b => exists_congr fun r => and_left_comm

theorem decodes_three {a : Nat} (ha : a < 16) :
    Decodes .between done (.ofNat (a + 0xE0) :: bytes) out ↔ ∃ b c rest,
      (b < 64 ∧ (a = 0 → 32 ≤ b) ∧ (a = 13 → b < 32)) ∧ c < 64 ∧
        bytes = .ofNat (b + 0x80) :: .ofNat (c + 0x80) :: rest ∧
          Decodes .between (Char.ofNat ((a * 64 + b) * 64 + c) :: done) rest out := by
  rw [decodes_of_more (step_three ha),
    decodes_inside (by split <;> decide) (by split <;> decide)]
  simp only [takes_three, decodes_last (show 0x80 ≤ (0x80 : UInt8).toNat by decide)
    (show (0xBF : UInt8).toNat < 0xC0 by decide), takes_tail]
  constructor
  · rintro ⟨b, _, rfl, hb, c, rest, rfl, hc, h⟩
    exact ⟨b, c, rest, hb, hc, rfl, h⟩
  · rintro ⟨b, c, rest, hb, hc, rfl, h⟩
    exact ⟨b, _, rfl, hb, c, rest, rfl, hc, h⟩

theorem decodes_four {a : Nat} (ha : a ≤ 4) :
    Decodes .between done (.ofNat (a + 0xF0) :: bytes) out ↔ ∃ b c d rest,
      (b < 64 ∧ (a = 0 → 16 ≤ b) ∧ (a = 4 → b < 16)) ∧ c < 64 ∧ d < 64 ∧
        bytes = .ofNat (b + 0x80) :: .ofNat (c + 0x80) :: .ofNat (d + 0x80) :: rest ∧
          Decodes .between (Char.ofNat (((a * 64 + b) * 64 + c) * 64 + d) :: done) rest out := by
  rw [decodes_of_more (step_four ha),
    decodes_inside (by split <;> decide) (by split <;> decide)]
  simp only [takes_four, decodes_inside (show 0x80 ≤ (0x80 : UInt8).toNat by decide)
    (show (0xBF : UInt8).toNat < 0xC0 by decide), decodes_last (show 0x80 ≤ (0x80 : UInt8).toNat by decide)
    (show (0xBF : UInt8).toNat < 0xC0 by decide), takes_tail]
  constructor
  · rintro ⟨b, _, rfl, hb, c, _, rfl, hc, d, rest, rfl, hd, h⟩
    exact ⟨b, c, d, rest, hb, hc, hd, rfl, h⟩
  · rintro ⟨b, c, d, rest, hb, hc, hd, rfl, h⟩
    exact ⟨b, _, rfl, hb, c, _, rfl, hc, d, rest, rfl, hd, h⟩

/-- Between two characters the octets of one come next, or nothing does. -/
theorem decodes_between : Decodes .between done bytes out ↔ (bytes = [] ∧ out = done.reverse) ∨
    ∃ n octets rest, Form n octets ∧ bytes = octets ++ rest ∧
      Decodes .between (Char.ofNat n :: done) rest out := by
  constructor
  · intro h
    cases bytes with
    | nil => exact Or.inl ⟨rfl, (decodes_nil.mp h).2⟩
    | cons b bytes =>
      refine Or.inr ?_
      rcases step_cases b with ⟨a, ha, rfl⟩ | ⟨a, ha, rfl⟩ | ⟨a, ha, rfl⟩ | ⟨a, ha, rfl⟩ | hr
      · exact ⟨a, _, bytes, .one ha, rfl, (decodes_of_char (step_one ha)).mp h⟩
      · obtain ⟨b, rest, hb, rfl, h'⟩ := (decodes_two ha).mp h
        exact ⟨_, _, rest, .two ha hb, rfl, h'⟩
      · obtain ⟨b, c, rest, hb, hc, rfl, h'⟩ := (decodes_three ha).mp h
        exact ⟨_, _, rest, .three ha hb.1 hc hb.2.1 hb.2.2, rfl, h'⟩
      · obtain ⟨b, c, d, rest, hb, hc, hd, rfl, h'⟩ := (decodes_four ha).mp h
        exact ⟨_, _, rest, .four ha hb.1 hc hd hb.2.1 hb.2.2, rfl, h'⟩
      · exact absurd h (not_decodes_of_refused hr)
  · rintro (⟨rfl, rfl⟩ | ⟨n, octets, rest, form, rfl, h⟩)
    · exact decodes_nil.mpr ⟨rfl, rfl⟩
    · cases form with
      | one ha => exact (decodes_of_char (step_one ha)).mpr h
      | two ha hb => exact (decodes_two ha).mpr ⟨_, rest, hb, rfl, h⟩
      | three ha hb hc long scalar =>
        exact (decodes_three ha).mpr ⟨_, _, rest, ⟨hb, long, scalar⟩, hc, rfl, h⟩
      | four ha hb hc hd long scalar =>
        exact (decodes_four ha).mpr ⟨_, _, _, rest, ⟨hb, long, scalar⟩, hc, hd, rfl, h⟩

/-! ### Octets of a text -/

/-- An octet of a character is the character itself or lies above ASCII. -/
theorem toNat_of_mem_encodeChar {b : UInt8} (h : b ∈ String.utf8EncodeChar c) :
    0x80 ≤ b.toNat ∨ b.toNat = c.toNat ∧ String.utf8EncodeChar c = [b] := by
  have tail : ∀ n, b = .ofNat (n + 0x80) → n < 0x80 → 0x80 ≤ b.toNat := by
    rintro n rfl hn
    rw [UInt8.toNat_ofNat_of_lt' (show n + 0x80 < 256 by omega)]
    omega
  have form := form_encodeChar c
  generalize String.utf8EncodeChar c = octets, c.toNat = n at form h
  cases form with
  | one ha =>
    obtain rfl := List.mem_singleton.mp h
    exact Or.inr ⟨UInt8.toNat_ofNat_of_lt' (show _ < 256 by omega), rfl⟩
  | two ha hb =>
    simp only [List.mem_cons, List.not_mem_nil, or_false] at h
    rcases h with h | h
    · exact Or.inl (tail (_ + 0x40) h (by omega))
    · exact Or.inl (tail _ h (by omega))
  | three ha hb hc long scalar =>
    simp only [List.mem_cons, List.not_mem_nil, or_false] at h
    rcases h with h | h | h
    · exact Or.inl (tail (_ + 0x60) h (by omega))
    · exact Or.inl (tail _ h (by omega))
    · exact Or.inl (tail _ h (by omega))
  | four ha hb hc hd long scalar =>
    simp only [List.mem_cons, List.not_mem_nil, or_false] at h
    rcases h with h | h | h | h
    · exact Or.inl (tail (_ + 0x70) h (by omega))
    · exact Or.inl (tail _ h (by omega))
    · exact Or.inl (tail _ h (by omega))
    · exact Or.inl (tail _ h (by omega))

theorem encodeChar_of_ascii (h : c.toNat < 0x80) : String.utf8EncodeChar c = [.ofNat c.toNat] := by
  rw [← (Form.one h).eq_encodeChar, Char.ofNat_toNat]

theorem encodeChars_cons_of_ascii (h : c.toNat < 0x80) (s : List Char) :
    encodeChars (c :: s) = .ofNat c.toNat :: encodeChars s := by
  rw [encodeChars_cons, encodeChar_of_ascii h]
  rfl

theorem length_encodeChars_of_ascii (h : ∀ c ∈ s, c.toNat < 0x80) : (encodeChars s).length = s.length := by
  induction s with
  | nil => rfl
  | cons c s ih =>
    obtain ⟨hc, hs⟩ := List.forall_mem_cons.mp h
    rw [encodeChars_cons_of_ascii hc, List.length_cons, ih hs, List.length_cons]

/-- A text has an ASCII octet exactly where it has that character. -/
theorem mem_encodeChars_of_ascii (h : c.toNat < 0x80) : .ofNat c.toNat ∈ encodeChars s ↔ c ∈ s := by
  have hc : (UInt8.ofNat c.toNat).toNat = c.toNat := UInt8.toNat_ofNat_of_lt' (show _ < 256 by omega)
  constructor
  · intro hm
    obtain ⟨d, hd, hm⟩ := List.mem_flatMap.mp hm
    rcases toNat_of_mem_encodeChar hm with hge | ⟨he, _⟩
    · omega
    · rw [hc] at he
      rwa [Char.toNat_inj.mp he]
  · intro hm
    refine List.mem_flatMap.mpr ⟨c, hm, ?_⟩
    rw [encodeChar_of_ascii h]
    exact List.mem_singleton.mpr rfl

/-! ### Whole texts -/

theorem decodes_encodeChars (s : List Char) (done : List Char) :
    Decodes .between done (encodeChars s) (done.reverse ++ s) := by
  induction s generalizing done with
  | nil => exact decodes_nil.mpr ⟨rfl, List.append_nil _⟩
  | cons c s ih =>
    refine decodes_between.mpr (Or.inr ⟨c.toNat, _, _, form_encodeChar c, rfl, ?_⟩)
    have h := ih (c :: done)
    rw [List.reverse_cons, List.append_assoc] at h
    rwa [Char.ofNat_toNat]

theorem decodes_inv {bytes : List UInt8} (done : List Char) {out : List Char}
    (h : Decodes .between done bytes out) :
    ∃ s, out = done.reverse ++ s ∧ bytes = encodeChars s := by
  rcases decodes_between.mp h with ⟨rfl, rfl⟩ | ⟨n, octets, rest, form, rfl, h'⟩
  · exact ⟨[], (List.append_nil _).symm, rfl⟩
  · have hlt : rest.length < (octets ++ rest).length := by
      rw [List.length_append]
      cases form <;> simp
    obtain ⟨s, hout, rfl⟩ := decodes_inv _ h'
    refine ⟨Char.ofNat n :: s, by rw [hout, List.reverse_cons, List.append_assoc]; rfl, ?_⟩
    rw [encodeChars_cons, form.eq_encodeChar]
termination_by bytes.length

/-- Decoding accepts the octets of a text, which it gives back, and nothing else. -/
theorem decodeChars_eq_ok_iff : decodeChars bytes = .ok s ↔ bytes = encodeChars s := by
  refine ⟨fun h => ?_, fun h => h ▸ decodes_encodeChars s []⟩
  obtain ⟨t, rfl, rfl⟩ := decodes_inv [] h
  rfl

theorem decode?_eq_some_iff {text : String} : decode? bytes = some text ↔ bytes = encodeChars text.toList := by
  rw [← decodeChars_eq_ok_iff]
  unfold decode?
  cases decodeChars bytes with
  | error fault => simp
  | ok t =>
    rw [Option.some.injEq, Except.ok.injEq]
    exact ⟨fun h => h ▸ String.toList_ofList.symm, fun h => h ▸ String.ofList_toList⟩

end RemoteDebug.Text.Utf8
