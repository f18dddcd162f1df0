import Mathlib.Algebra.Group.Nat.Defs
import RemoteDebug.Proofs.Heading
import RemoteDebug.Protocol.Version

/-! Which texts are versions.

A version is written as two numbers around a point, with any blanks at both ends. That is said here by
the characters of the text; reading accepts exactly these texts, gives the numbers that are written, and
takes back what was printed. -/
namespace RemoteDebug.Text

variable {s t : List Char}

/-- `t` is what is left of `s` without the blanks at both ends. -/
def Core (s t : List Char) : Prop :=
  ∃ left right, s = left ++ t ++ right ∧ (∀ c ∈ left, isBlank c = true) ∧ (∀ c ∈ right, isBlank c = true) ∧
    Trimmed t

theorem trimStart_append_of_trimmed (ht : Trimmed t) (hne : t ≠ []) (right : List Char) :
    trimStart (t ++ right) = t ++ right := by
  obtain ⟨c, t, rfl⟩ := List.exists_cons_of_ne_nil hne
  have hc : isBlank c = false := ht.head c rfl
  exact List.dropWhile_cons_of_neg (Bool.eq_false_iff.mp hc)

theorem trim_eq_iff : trim s = t ↔ Core s t := by
  constructor
  · rintro rfl
    obtain ⟨right, hs, hright, -⟩ := dropEndWhile_eq_iff.mp (rfl : trim s = trim s)
    refine ⟨s.takeWhile isBlank, right, ?_, fun c hc => ?_, hright, trimmed_trim s⟩
    · rw [List.append_assoc, ← hs]
      exact List.takeWhile_append_dropWhile.symm
    · exact List.all_eq_true.mp List.all_takeWhile c hc
  · rintro ⟨left, right, rfl, hleft, hright, ht⟩
    have hstart : trimStart (left ++ t ++ right) = trimStart (t ++ right) := by
      rw [List.append_assoc]
      exact List.dropWhile_append_of_pos hleft
    unfold trim trimEnd
    rw [hstart]
    by_cases hne : t = []
    · subst hne
      rw [List.nil_append, trimStart, List.dropWhile_eq_nil_iff.mpr hright]
      rfl
    · rw [trimStart_append_of_trimmed ht hne]
      exact dropEndWhile_eq_iff.mpr ⟨right, rfl, hright, ht.last⟩

end RemoteDebug.Text

namespace RemoteDebug.Protocol.Version
open Text

/-- The text writes two numbers around its first point, with blanks ignored at both ends. -/
def Writes (s : String) (major minor : Nat) : Prop :=
  ∃ a b, Core s.toList (a ++ '.' :: b) ∧ '.' ∉ a ∧ Numeral a major ∧ Numeral b minor

theorem ofString?_eq_some_iff {s : String} {v : Version} :
    ofString? s = some v ↔ Writes s v.major.toNat v.minor.toNat := by
  unfold ofString? ofChars?
  constructor
  · intro h
    obtain ⟨⟨a, b⟩, hsplit, h⟩ := Option.bind_eq_some_iff.mp h
    obtain ⟨major, hmajor, h⟩ := Option.bind_eq_some_iff.mp h
    obtain ⟨minor, hminor, h⟩ := Option.bind_eq_some_iff.mp h
    obtain rfl := Option.some.inj h
    obtain ⟨htrim, hpoint⟩ := splitAt?_eq_some_iff.mp hsplit
    exact ⟨a, b, trim_eq_iff.mp htrim, hpoint, parseUInt32_eq_some_iff.mp hmajor,
      parseUInt32_eq_some_iff.mp hminor⟩
  · rintro ⟨a, b, hcore, hpoint, hmajor, hminor⟩
    rw [splitAt?_eq_some_iff.mpr ⟨trim_eq_iff.mpr hcore, hpoint⟩]
    change (parseUInt32 a).bind (fun major => (parseUInt32 b).bind fun minor => some ⟨major, minor⟩) = some v
    rw [parseUInt32_eq_some_iff.mpr hmajor, parseUInt32_eq_some_iff.mpr hminor]
    rfl

/-- What is printed has no blanks, and its first point is the one between the numbers. -/
theorem writes_text (v : Version) : Writes v.text v.major.toNat v.minor.toNat := by
  have htrimmed : Trimmed v.chars := by
    refine trimmed_of_forall fun c hc => ?_
    rcases List.mem_append.mp hc with hc | hc
    · exact isBlank_of_isDigit (isDigit_of_mem_digits hc)
    · rcases List.mem_cons.mp hc with rfl | hc
      · rfl
      · exact isBlank_of_isDigit (isDigit_of_mem_digits hc)
  have hpoint : '.' ∉ digits v.major.toNat := fun h => by cases isDigit_of_mem_digits h
  refine ⟨_, _, ⟨[], [], ?_, by simp, by simp, htrimmed⟩, hpoint, numeral_digits _, numeral_digits _⟩
  rw [text, String.toList_ofList, List.nil_append, List.append_nil]
  rfl

theorem ofString?_text (v : Version) : ofString? v.text = some v := ofString?_eq_some_iff.mpr (writes_text v)

/-- A text is read exactly if it writes two numbers of at most 32 bits, and then as just these; what is printed
is read as what it was printed from. -/
theorem versions_are_read_as_written :
    (∀ s, (ofString? s).isSome ↔ ∃ major minor, Writes s major minor ∧ major ≤ 2 ^ 32 - 1 ∧ minor ≤ 2 ^ 32 - 1) ∧
    (∀ s v, ofString? s = some v ↔ Writes s v.major.toNat v.minor.toNat) ∧
    (∀ v, ofString? v.text = some v) ∧
    ∀ s, ((ofString? s).bind fun v => ofString? v.text) = ofString? s := by
  refine ⟨fun s => ?_, fun s v => ofString?_eq_some_iff, ofString?_text, fun s => ?_⟩
  · rw [Option.isSome_iff_exists]
    constructor
    · rintro ⟨v, hv⟩
      exact ⟨_, _, ofString?_eq_some_iff.mp hv, Nat.le_pred_of_lt v.major.toNat_lt, Nat.le_pred_of_lt v.minor.toNat_lt⟩
    · rintro ⟨major, minor, hwrites, hmajor, hminor⟩
      refine ⟨⟨.ofNat major, .ofNat minor⟩, ofString?_eq_some_iff.mpr ?_⟩
      rwa [UInt32.toNat_ofNat_of_lt' (Nat.lt_of_le_pred (by decide) hmajor),
        UInt32.toNat_ofNat_of_lt' (Nat.lt_of_le_pred (by decide) hminor)]
  · cases h : ofString? s with
    | none => rfl
    | some v => rw [Option.bind_some, ofString?_text]

example : ofString? "\t+007.4294967295\u3000" = some ⟨7, 4294967295⟩ := by decide +kernel
example : ofString? "1.2.3" = none ∧ ofString? "1. 2" = none ∧ ofString? "0.4294967296" = none := by decide +kernel

end RemoteDebug.Protocol.Version
