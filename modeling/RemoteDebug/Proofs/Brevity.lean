import RemoteDebug.Proofs.Roundtrip

/-! No text of a value without doubles is shorter than the one that is written.

The octets that the reader takes for a value are at least `least` many. That counts what the printer writes,
and a double as nothing, for a double can be read from fewer digits than it is written with. A field whose
key comes again may have held one and left no trace, so the reader is measured for all values and the
printer only for those without doubles. Hence a body is never read from fewer octets than are written for it
again, and what came in as a message can go out and come in once more. -/
namespace RemoteDebug.Json
open Text.Utf8

/-! ### Strings -/

theorem escape_eq_self {c : Char} (h₁ : c ≠ '"') (h₂ : c ≠ '\\') (h₃ : 0x20 ≤ c.toNat) : escape c = [c] := by
  have hne : ∀ d : Char, d.toNat < 0x20 → c ≠ d := by
    rintro d hd rfl
    omega
  unfold escape
  rw [if_neg h₁, if_neg h₂, if_neg (hne _ (by decide)), if_neg (hne _ (by decide)), if_neg (hne _ (by decide)),
    if_neg (hne _ (by decide)), if_neg (hne _ (by decide)), if_neg (Nat.not_lt.mpr h₃)]

/-- How many octets an octet of a string is written with. -/
def cost (b : UInt8) : Nat := if b.toNat < 0x80 then (encodeChars (escape (Char.ofNat b.toNat))).length else 1

def costs (octets : Octets) : Nat := (octets.map cost).sum

theorem costs_cons (b : UInt8) (octets : Octets) : costs (b :: octets) = cost b + costs octets := List.sum_cons

theorem costs_append (a b : Octets) : costs (a ++ b) = costs a + costs b := by
  unfold costs
  rw [List.map_append, List.sum_append]

theorem costs_reverse (octets : Octets) : costs octets.reverse = costs octets := by
  unfold costs
  rw [List.map_reverse, List.sum_reverse]

theorem costs_eq_length {octets : Octets} (h : ∀ b ∈ octets, cost b = 1) : costs octets = octets.length := by
  induction octets with
  | nil => rfl
  | cons b octets ih =>
    obtain ⟨hb, hrest⟩ := List.forall_mem_cons.mp h
    rw [costs_cons, hb, ih hrest, List.length_cons, Nat.add_comm]

theorem cost_ofNat {c : Char} (h : c.toNat < 0x80) : cost (.ofNat c.toNat) = (encodeChars (escape c)).length := by
  have hb : (UInt8.ofNat c.toNat).toNat = c.toNat := UInt8.toNat_ofNat_of_lt' (show _ < 256 by omega)
  unfold cost
  rw [hb, if_pos h, Char.ofNat_toNat]

/-- An octet that stands for itself when it is read does so when it is written. -/
theorem cost_plain {b : UInt8} (h₁ : b ≠ 0x22) (h₂ : b ≠ 0x5C) (h₃ : ¬ b < 0x20) : cost b = 1 := by
  by_cases h : b.toNat < 0x80
  · have hb : (Char.ofNat b.toNat).toNat = b.toNat := (Form.one h).toNat
    generalize Char.ofNat b.toNat = c at hb
    have hne : ∀ x : UInt8, b ≠ x → c.toNat ≠ x.toNat :=
      fun x hx he => hx (UInt8.toNat_inj.mp (hb.symm.trans he))
    have hself : escape c = [c] := by
      refine escape_eq_self ?_ ?_ ?_
      · exact fun he => hne _ h₁ (congrArg Char.toNat he)
      · exact fun he => hne _ h₂ (congrArg Char.toNat he)
      · rw [UInt8.lt_iff_toNat_lt, ← hb] at h₃
        exact Nat.not_lt.mp h₃
    rw [← UInt8.ofNat_toNat (x := b), ← hb, cost_ofNat (hb ▸ h), hself, encodeChars_cons_of_ascii (hb ▸ h)]
    rfl
  · exact if_neg h

/-- The octets of a character cost what its escape takes. -/
theorem costs_encodeChar (c : Char) : costs (String.utf8EncodeChar c) = (encodeChars (escape c)).length := by
  by_cases h : c.toNat < 0x80
  · rw [encodeChar_of_ascii h, ← cost_ofNat h]
    rfl
  · have hne : ∀ d : Char, d.toNat < 0x80 → c ≠ d := by
      rintro d hd rfl
      exact h hd
    rw [escape_eq_self (hne _ (by decide)) (hne _ (by decide)) (by omega), encodeChars_cons, encodeChars_nil,
      List.append_nil]
    refine costs_eq_length fun b hb => ?_
    refine if_neg ?_
    rcases toNat_of_mem_encodeChar hb with hb | ⟨hb, -⟩
    · exact Nat.not_lt.mpr hb
    · exact hb ▸ h

theorem costs_encodeChars (s : List Char) : costs (encodeChars s) = (encodeChars (s.flatMap escape)).length := by
  induction s with
  | nil => rfl
  | cons c s ih =>
    rw [encodeChars_cons, costs_append, costs_encodeChar, ih, List.flatMap_cons, encodeChars_append,
      List.length_append]

theorem length_escape_le (c : Char) : (encodeChars (escape c)).length ≤ 6 := by
  rcases Reader.escape_cases c with ⟨tail, hc, hlength, -⟩ | ⟨-, -, -, hc⟩
  · rw [hc]
    exact Nat.succ_le_succ hlength
  · rw [hc, encodeChars_cons, encodeChars_nil, List.append_nil]
    have form := form_encodeChar c
    generalize String.utf8EncodeChar c = octets, c.toNat = n at form
    cases form <;> simp

theorem length_stringText (s : String) :
    (encodeChars (stringText s)).length = costs (encodeChars s.toList) + 2 := by
  have h := congrArg List.length (@Reader.encodeChars_stringText [] s)
  rw [List.append_nil, List.length_cons, List.length_append] at h
  rw [h, costs_encodeChars]
  rfl

/-! ### Values -/

mutual

/-- The fewest octets from which a value can be read, a double counted as nothing. -/
def least : Json → Nat
  | .null => 4
  | .bool b => if b then 4 else 5
  | .int n => (Text.signedDigits n.val).length
  | .double _ => 0
  | .str s => costs (encodeChars s.toList) + 2
  | .arr items => 1 + max 1 (leastItems items)
  | .obj fields => 1 + max 1 (leastFields fields)

/-- Behind every item stands a comma or the bracket. -/
def leastItems : List Json → Nat
  | [] => 0
  | v :: rest => least v + 1 + leastItems rest

/-- A key has two quotes and a colon. -/
def leastFields : List (String × Json) → Nat
  | [] => 0
  | (k, v) :: rest => costs (encodeChars k.toList) + 3 + least v + 1 + leastFields rest

end

theorem length_signedDigits (n : Int) :
    (encodeChars (Text.signedDigits n)).length = (Text.signedDigits n).length := by
  have digits : ∀ k, ∀ c ∈ Text.digits k, c.toNat < 0x80 := fun k c hc =>
    Nat.lt_of_le_of_lt (Reader.toNat_of_isDigit (Text.isDigit_of_mem_digits hc)).2 (by decide)
  unfold Text.signedDigits
  split
  · exact length_encodeChars_of_ascii (digits _)
  · exact length_encodeChars_of_ascii (List.forall_mem_cons.mpr ⟨by decide, digits _⟩)

mutual

/-- A value without doubles is written with the fewest octets. -/
theorem length_chars (v : Json) (exact : v.Exact) : (encodeChars v.chars).length = least v := by
  match v with
  | .null => rfl
  | .bool true => rfl
  | .bool false => rfl
  | .int n => exact length_signedDigits n.val
  | .double x => exact exact.elim
  | .str s => exact length_stringText s
  | .arr [] => rfl
  | .arr (v :: items) =>
    rw [chars, List.cons_append, encodeChars_cons_of_ascii (by decide), encodeChars_append, List.length_cons,
      List.length_append, length_chars v exact.1, length_charsItems items exact.2, least, leastItems]
    omega
  | .obj [] => rfl
  | .obj ((key, v) :: fields) =>
    have h := congrArg List.length (@Reader.encodeChars_field [] key v)
    simp only [List.append_nil, List.length_cons, List.length_append, ← costs_encodeChars] at h
    rw [chars, List.cons_append, List.cons_append, encodeChars_cons_of_ascii (by decide), encodeChars_append,
      List.length_cons, List.length_append, h, length_chars v exact.1, length_charsFields fields exact.2, least,
      leastFields]
    omega

theorem length_charsItems (items : List Json) (exact : ExactItems items) :
    (encodeChars (charsItems items)).length = leastItems items + 1 := by
  match items with
  | [] => rfl
  | v :: items =>
    have h := congrArg List.length (@Reader.encodeChars_moreItems [] v items)
    simp only [List.append_nil, List.length_cons, List.length_append] at h
    rw [h, length_chars v exact.1, length_charsItems items exact.2, leastItems]
    omega

theorem length_charsFields (fields : List (String × Json)) (exact : ExactFields fields) :
    (encodeChars (charsFields fields)).length = leastFields fields + 1 := by
  match fields with
  | [] => rfl
  | (key, v) :: fields =>
    have h := congrArg List.length (@Reader.encodeChars_moreFields [] key v fields)
    simp only [List.append_nil, List.length_cons, List.length_append] at h
    rw [h, ← costs_encodeChars, length_chars v exact.1, length_charsFields fields exact.2, leastFields]
    omega

end

namespace Reader

variable {item : Octets → Result (Json × Octets)} {depth : Nat} {input rest : Octets} {v : Json}

theorem costs_escaped {octets : Octets} (h : escaped input = .ok (octets, rest)) :
    costs octets + rest.length ≤ input.length + 1 := by
  rcases escaped_eq_ok h with ⟨b, c, hc, rfl, rfl⟩ | ⟨c, rfl, hlength⟩
  · have short : shortEscaped.all (fun c => costs [c] ≤ 2) = true := rfl
    have hcosts := of_decide_eq_true (List.all_eq_true.mp short c hc)
    rw [List.length_cons]
    omega
  · have hcosts := length_escape_le c
    rw [costs_encodeChar]
    omega

/-- A string is read from as many octets as it is written with, or more. -/
theorem costs_stringOctets {steps : Nat} {done octets : Octets}
    (h : stringOctets steps done input = .ok (octets, rest)) :
    costs octets + rest.length + 1 ≤ costs done + input.length := by
  induction steps generalizing done input with
  | zero => cases input <;> cases h
  | succ steps ih =>
    rcases stringOctets_eq_ok h with ⟨rfl, rfl⟩ | ⟨r, part, r', rfl, he, h⟩ | ⟨b, r, rfl, ⟨h₁, h₂, h₃⟩, h⟩
    · rw [costs_reverse, List.length_cons, Nat.add_assoc]
    · have hrest := ih h
      have hpart := costs_escaped he
      rw [costs_append, costs_reverse] at hrest
      rw [List.length_cons]
      omega
    · have hrest := ih h
      rw [costs_cons, cost_plain h₁ h₂ h₃] at hrest
      rw [List.length_cons]
      omega

theorem length_string {s : String} (h : string input = .ok (s, rest)) :
    costs (encodeChars s.toList) + rest.length + 1 ≤ input.length := by
  have hoctets := costs_stringOctets (string_eq_ok h)
  rwa [show costs [] = 0 from rfl, Nat.zero_add] at hoctets

/-! ### Numbers -/

theorem val_of_ofInt? {k : Int} {n : Integer} (h : Integer.ofInt? k = some n) : n.val = k := by
  unfold Integer.ofInt? at h
  split at h
  · cases h
    rfl
  · cases h

/-- A whole number has no more digits than it was read from. -/
theorem least_whole (negative : Bool) {n k : Nat} (hk : 0 < k) (h : n < 10 ^ k) :
    least (whole negative n) ≤ k + if negative then 1 else 0 := by
  have hdigits : ∀ m, m < 10 ^ k → (Text.digits m).length ≤ k :=
    fun m hm => (Nat.length_toDigits_le_iff (by decide) hk).mpr hm
  unfold whole
  split
  · next i hi =>
    have hval := val_of_ofInt? hi
    split
    · exact Nat.zero_le _
    · next hzero =>
      rw [least, hval]
      cases negative with
      | false => exact hdigits n h
      | true =>
        obtain ⟨m, rfl⟩ := Nat.exists_eq_succ_of_ne_zero fun hn => hzero ⟨rfl, hn⟩
        exact Nat.succ_le_succ (hdigits _ h)
  · exact Nat.zero_le _

theorem least_number {negative : Bool} (h : number negative input = .ok (v, rest)) :
    least v + rest.length ≤ input.length + if negative then 1 else 0 := by
  rcases number_eq_ok h with ⟨taken, n, rfl, hne, hlt, rfl⟩ | ⟨⟨x, rfl⟩, hsuffix⟩
  · have hwhole := least_whole negative (List.length_pos_iff.mpr hne) hlt
    rw [List.length_append]
    omega
  · have hlength := hsuffix.length_le
    rw [least]
    omega

/-! ### Arrays and objects -/

/-- Whatever is read takes the fewest octets of its value, or more. -/
def Pays (item : Octets → Result (Json × Octets)) : Prop :=
  ∀ {input v rest}, item input = .ok (v, rest) → least v + rest.length ≤ input.length

theorem length_of_skipSpaces {b : UInt8} {r : Octets} (h : skipSpaces input = b :: r) :
    r.length + 1 ≤ input.length := by
  have hlength := (skipSpaces_suffix input).length_le
  rwa [h] at hlength

theorem leastItems_append (a b : List Json) : leastItems (a ++ b) = leastItems a + leastItems b := by
  induction a with
  | nil => rw [List.nil_append, leastItems, Nat.zero_add]
  | cons v a ih => rw [List.cons_append, leastItems, leastItems, ih, ← Nat.add_assoc]

theorem leastItems_reverse (items : List Json) : leastItems items.reverse = leastItems items := by
  induction items with
  | nil => rfl
  | cons v items ih =>
    rw [List.reverse_cons, leastItems_append, ih, leastItems, leastItems, leastItems, Nat.add_zero, Nat.add_comm]

theorem leastItems_pos {items : List Json} (h : items ≠ []) : 1 ≤ leastItems items := by
  cases items with
  | nil => exact absurd rfl h
  | cons v items =>
    rw [leastItems]
    omega

theorem least_moreItems (pays : Pays item) {steps : Nat} {done : List Json} (hdone : done ≠ [])
    (h : moreItems item steps done input = .ok (v, rest)) :
    least v + rest.length ≤ leastItems done + input.length := by
  induction steps generalizing done input with
  | zero => cases h
  | succ steps ih =>
    rcases moreItems_eq_ok h with ⟨rfl, hend⟩ | ⟨r, w, r', hcomma, hw, h⟩
    · have hlength := length_of_skipSpaces hend
      have hpos := leastItems_pos hdone
      rw [least, leastItems_reverse, Nat.max_eq_right hpos]
      omega
    · have hlength := length_of_skipSpaces hcomma
      have hspaces := (skipSpaces_suffix r).length_le
      have hitem := pays hw
      have hmore := ih (List.cons_ne_nil w done) h
      rw [leastItems] at hmore
      omega

theorem least_items (pays : Pays item) (h : items item input = .ok (v, rest)) :
    least v + rest.length ≤ input.length + 1 := by
  rcases items_eq_ok h with ⟨rfl, hend⟩ | ⟨w, r, hw, h⟩
  · have hlength := length_of_skipSpaces hend
    change 2 + rest.length ≤ _
    omega
  · have hspaces := (skipSpaces_suffix input).length_le
    have hitem := pays hw
    have hmore := least_moreItems pays (List.cons_ne_nil w []) h
    simp only [leastItems] at hmore
    omega

theorem leastFields_pos {fields : List (String × Json)} (h : fields ≠ []) : 1 ≤ leastFields fields := by
  cases fields with
  | nil => exact absurd rfl h
  | cons f fields =>
    rw [leastFields]
    omega

theorem insert_ne_nil (key : String) (v : Json) (fields : List (String × Json)) : insert key v fields ≠ [] := by
  cases fields with
  | nil => exact List.cons_ne_nil _ _
  | cons f fields =>
    unfold insert
    split
    · exact List.cons_ne_nil _ _
    · split <;> exact List.cons_ne_nil _ _

/-- A field that takes the place of another one makes the object no longer than one more field would. -/
theorem leastFields_insert_le (key : String) (v : Json) (fields : List (String × Json)) :
    leastFields (insert key v fields) ≤ leastFields ((key, v) :: fields) := by
  induction fields with
  | nil => exact Nat.le_refl _
  | cons f fields ih =>
    unfold insert
    split
    · simp only [leastFields]
      omega
    · split
      · exact Nat.le_refl _
      · simp only [leastFields] at ih ⊢
        omega

theorem least_field (pays : Pays item) {f : String × Json} (h : field item input = .ok (f, rest)) :
    leastFields [f] + rest.length ≤ input.length + 2 := by
  obtain ⟨r, r', hkey, hcolon, hw⟩ := field_eq_ok h
  have hkey := length_string hkey
  have hlength := length_of_skipSpaces hcolon
  have hvalue := pays hw
  simp only [leastFields]
  omega

theorem least_moreFields (pays : Pays item) {steps : Nat} {done : List (String × Json)} (hdone : done ≠ [])
    (h : moreFields item steps done input = .ok (v, rest)) :
    least v + rest.length ≤ leastFields done + input.length := by
  induction steps generalizing done input with
  | zero => cases h
  | succ steps ih =>
    rcases moreFields_eq_ok h with ⟨rfl, hend⟩ | ⟨r, r', f, r'', hcomma, hquote, hf, h⟩
    · have hlength := length_of_skipSpaces hend
      have hpos := leastFields_pos hdone
      rw [least, Nat.max_eq_right hpos]
      omega
    · have hlength := length_of_skipSpaces hcomma
      have hlength' := length_of_skipSpaces hquote
      have hfield := least_field pays hf
      have hinsert := leastFields_insert_le f.1 f.2 done
      have hmore := ih (insert_ne_nil f.1 f.2 done) h
      simp only [leastFields] at hfield hinsert
      omega

theorem least_fields (pays : Pays item) (h : fields item input = .ok (v, rest)) :
    least v + rest.length ≤ input.length + 1 := by
  rcases fields_eq_ok h with ⟨rfl, hend⟩ | ⟨r, f, r', hquote, hf, h⟩
  · have hlength := length_of_skipSpaces hend
    change 2 + rest.length ≤ _
    omega
  · have hlength := length_of_skipSpaces hquote
    have hfield := least_field pays hf
    have hmore := least_moreFields pays (List.cons_ne_nil f []) h
    omega

/-! ### Whole texts -/

theorem Shape.pays (h : Shape depth input v rest) (inner : ∀ d, d + 1 = depth → Pays (value d)) :
    least v + rest.length ≤ input.length := by
  cases h with
  | literal named =>
    rcases named with rfl | ⟨b, rfl⟩
    · rw [List.length_append, length_chars .null trivial]
    · rw [List.length_append, length_chars (.bool b) trivial]
  | negative h => exact least_number h
  | number h => exact least_number h
  | string h =>
    have hstring := length_string h
    rw [least, List.length_cons]
    omega
  | items h => exact least_items (inner _ rfl) h
  | fields h => exact least_fields (inner _ rfl) h

theorem pays_value (depth : Nat) : Pays (value depth) := by
  have onward : ∀ {depth input v rest}, value depth input = .ok (v, rest) →
      (∀ d, d + 1 = depth → Pays (value d)) → least v + rest.length ≤ input.length :=
    fun h inner => ((shape_of_value h).pays inner).trans (skipSpaces_suffix _).length_le
  induction depth with
  | zero => exact fun h => onward h fun _ hd => absurd hd (Nat.succ_ne_zero _)
  | succ depth ih => exact fun h => onward h fun _ hd => Nat.succ.inj hd ▸ ih

/-- A text is no shorter than the fewest octets of its value. -/
theorem least_parse (h : parse input = .ok v) : least v ≤ input.length := by
  unfold parse at h
  obtain ⟨⟨w, r⟩, hw, h⟩ := bind_eq_ok.mp h
  dsimp only at h
  split at h
  · cases h
    exact (Nat.le_add_right ..).trans (pays_value depthLimit hw)
  · cases h

end Reader
end RemoteDebug.Json

namespace RemoteDebug.Wire
open Protocol Text.Utf8

variable {input after octets : Octets} {m : Message}

/-- A content is written into no more octets than it was read from. -/
theorem length_body_le (exact : m.content.Exact) (holds : Holds octets m.content) :
    (body m).length ≤ octets.length := by
  by_cases hnull : m.content = .null
  · rw [body_of_null hnull]
    exact Nat.zero_le _
  · unfold Holds at holds
    split at holds
    · exact absurd holds hnull
    · rw [body_of_ne_null hnull, Json.length_chars _ exact]
      exact Json.Reader.least_parse holds

theorem nested_of_holds (holds : Holds octets m.content) :
    m.content.Canonical ∧ m.content.depth ≤ Json.depthLimit := by
  unfold Holds at holds
  split at holds
  · rw [holds]
    exact ⟨trivial, Nat.zero_le _⟩
  · have tame := Json.Reader.tame_parse holds
    exact ⟨tame.canonical, tame.nested⟩

/-- What came in as a message without doubles goes out and comes in as the same message, whatever follows
it. Its body is no longer than the one it was read from and nests no deeper than is read, so neither limit
stands in the way. -/
theorem received_message_returns (h : readMessage input = (.message m, after)) (exact : m.content.Exact) :
    (∀ rest, readMessage (encode m ++ rest) = (.message m, rest)) ∧
    ∃ blanks lines last fields octets, IsFrame input m after blanks lines last fields octets ∧
      (body m).length ≤ octets.length ∧ octets.length ≤ maxLength ∧ m.content.depth ≤ Json.depthLimit := by
  obtain ⟨tool, destination⟩ := fits_of_readMessage h
  obtain ⟨blanks, lines, last, fields, octets, frame⟩ := exists_isFrame h
  obtain ⟨canonical, nested⟩ := nested_of_holds frame.content
  have hlength := length_body_le exact frame.content
  have sendable : Sendable m := ⟨tool, destination, nested, hlength.trans frame.short⟩
  exact ⟨fun rest => (readMessage_encode exact canonical rest).mpr sendable,
    blanks, lines, last, fields, octets, frame, hlength, frame.short, nested⟩

/-- Line feeds alone, names in another case, an escape that is not needed, and a key that comes twice, the
first time with a double. -/
def untidy : Octets := encodeChars (
  ['T', 'O', 'O', 'L', ':', ' ', 'X', '\n'] ++
  ['c', 'o', 'n', 't', 'e', 'n', 't', '-', 'l', 'e', 'n', 'g', 't', 'h', ':', '2', '3', '\n', '\n'] ++
  ['\x7b', '"', 'a', '"', ':', '1', '.', '5', ',', ' '] ++
  ['"', 'a', '"', ':', '"', '\\', 'u', '0', '0', '4', '1', '"', '\x7d'] ++ ['A'])

theorem untidy_message_returns :
    let m := Message.ofHeaders "X" none (.obj [("a", .str "A")])
    readMessage untidy = (.message m, [0x41]) ∧ readMessage (encode m ++ [0x42]) = (.message m, [0x42]) := by
  have h : readMessage untidy = (.message (.ofHeaders "X" none (.obj [("a", .str "A")])), [0x41]) := rfl
  exact ⟨h, (received_message_returns h ⟨trivial, trivial⟩).1 [0x42]⟩

end RemoteDebug.Wire
