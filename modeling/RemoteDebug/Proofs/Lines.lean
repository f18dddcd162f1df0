import Mathlib.Data.List.DropRight
import Mathlib.Data.List.TakeDrop
import RemoteDebug.Proofs.Encoding
import RemoteDebug.Wire.Frame

/-! Lines and what they show.

A line goes up to and with the next line feed, or to the end of the stream if there is none. It shows
its characters without the CR and LF at its end. Both are said here without the functions that cut
and trim, and the functions are shown to do just that. -/
namespace RemoteDebug.Text

variable {p : Char → Bool} {s t : List Char} {c : Char}

/-- What is left after dropping at the right end is the text before a longest run of such characters. -/
theorem dropEndWhile_eq_iff : dropEndWhile p s = t ↔
    ∃ ends, s = t ++ ends ∧ (∀ c ∈ ends, p c = true) ∧ ∀ c ∈ t.getLast?, p c = false := by
  constructor
  · rintro rfl
    refine ⟨s.rtakeWhile p, List.rdropWhile_append_rtakeWhile.symm, fun c hc => List.mem_rtakeWhile_imp hc, ?_⟩
    intro c hc
    obtain ⟨hne, rfl⟩ := List.mem_getLast?_eq_getLast hc
    exact Bool.eq_false_iff.mpr (List.rdropWhile_last_not p s hne)
  · rintro ⟨ends, rfl, hends, hlast⟩
    unfold dropEndWhile
    rw [List.reverse_append, List.dropWhile_append_of_pos fun c hc => hends c (List.mem_reverse.mp hc)]
    refine List.rdropWhile_eq_self_iff.mpr fun hne => ?_
    exact Bool.eq_false_iff.mp (hlast _ (List.getLast?_eq_getLast_of_ne_nil hne))

/-- No blank at either end. -/
structure Trimmed (s : List Char) : Prop where
  head : ∀ c ∈ s.head?, isBlank c = false
  last : ∀ c ∈ s.getLast?, isBlank c = false

theorem trimmed_of_forall (h : ∀ c ∈ s, isBlank c = false) : Trimmed s :=
  ⟨fun c hc => h c (List.mem_of_mem_head? hc), fun c hc => h c (List.mem_of_getLast? hc)⟩

theorem trimmed_trim (s : List Char) : Trimmed (trim s) := by
  obtain ⟨ends, happend, -, hlast⟩ := dropEndWhile_eq_iff.mp (rfl : trim s = trim s)
  refine ⟨fun c hc => ?_, hlast⟩
  have hhead : c ∈ (trimStart s).head? := by
    rw [happend]
    exact List.mem_head?_append_of_mem_head? hc
  have h := List.head?_dropWhile_not isBlank s
  rw [show (s.dropWhile isBlank).head? = some c from hhead] at h
  exact h

theorem trim_of_trimmed (h : Trimmed s) : trim s = s := by
  have hstart : trimStart s = s :=
    List.dropWhile_eq_self_iff.mpr fun hl =>
      Bool.eq_false_iff.mp (h.head _ (List.head?_eq_getElem? ▸ List.getElem?_eq_getElem hl))
  unfold trim
  rw [hstart]
  exact dropEndWhile_eq_iff.mpr ⟨[], (List.append_nil s).symm, by simp, h.last⟩

theorem mem_of_mem_trim (h : c ∈ trim s) : c ∈ s :=
  (List.dropWhile_sublist _).mem ((List.rdropWhile_prefix isBlank (l := trimStart s)).sublist.mem h)

/-! ### The first of some element -/

section Span
variable {α : Type} [DecidableEq α] {x : α} {before : List α}

theorem span_ne_of_notMem (h : x ∉ before) : before.span (· != x) = (before, []) := by
  have hpos : ∀ y ∈ before, (y != x) = true := fun y hy => bne_iff_ne.mpr fun e => h (e ▸ hy)
  rw [List.span_eq_takeWhile_dropWhile, List.takeWhile_eq_self_iff.mpr hpos,
    List.dropWhile_eq_nil_iff.mpr hpos]

theorem span_ne_append (h : x ∉ before) (after : List α) :
    (before ++ x :: after).span (· != x) = (before, x :: after) := by
  have hpos : ∀ y ∈ before, (y != x) = true := fun y hy => bne_iff_ne.mpr fun e => h (e ▸ hy)
  rw [List.span_eq_takeWhile_dropWhile, List.takeWhile_append_of_pos hpos, List.dropWhile_append_of_pos hpos]
  simp

end Span

/-- A text is split at the first of the characters. -/
theorem splitAt?_eq_some_iff {before after : List Char} :
    splitAt? c s = some (before, after) ↔ s = before ++ c :: after ∧ c ∉ before := by
  constructor
  · intro h
    by_cases hc : c ∈ s
    · obtain ⟨l, r, rfl, hl⟩ := List.eq_append_cons_of_mem hc
      unfold splitAt? at h
      rw [span_ne_append hl] at h
      cases h
      exact ⟨rfl, hl⟩
    · unfold splitAt? at h
      rw [span_ne_of_notMem hc] at h
      cases h
  · rintro ⟨rfl, hbefore⟩
    unfold splitAt?
    rw [span_ne_append hbefore]

end RemoteDebug.Text

namespace RemoteDebug.Wire
open Text.Utf8

variable {text : List Char} {input line line' rest rest' : Octets}

/-! ### Lines -/

/-- `line` is the first line of `line ++ rest`. -/
inductive Line : Octets → Octets → Prop
  | fed {inner : Octets} (h : 0x0A ∉ inner) (rest : Octets) : Line (inner ++ [0x0A]) rest
  | last {inner : Octets} (h : 0x0A ∉ inner) (hne : inner ≠ []) : Line inner []

theorem line?_fed {inner : Octets} (h : 0x0A ∉ inner) (rest : Octets) :
    line? (inner ++ [0x0A] ++ rest) = some (inner ++ [0x0A], rest) := by
  unfold line?
  rw [List.append_assoc, List.singleton_append, Text.span_ne_append h]

theorem line?_eq_none (h : 0x0A ∉ input) : line? input = none := by
  unfold line?
  rw [Text.span_ne_of_notMem h]

theorem Line.ne_nil (h : Line line rest) : line ≠ [] := by
  cases h with
  | fed => exact List.append_ne_nil_of_right_ne_nil _ (List.cons_ne_nil _ _)
  | last _ hne => exact hne

theorem line_cases (input : Octets) : input = [] ∨ ∃ line rest, input = line ++ rest ∧ Line line rest := by
  by_cases hfeed : 0x0A ∈ input
  · obtain ⟨inner, rest, rfl, h⟩ := List.eq_append_cons_of_mem hfeed
    exact Or.inr ⟨_, rest, by rw [List.append_assoc, List.singleton_append], .fed h rest⟩
  · by_cases hne : input = []
    · exact Or.inl hne
    · exact Or.inr ⟨input, [], (List.append_nil _).symm, .last hfeed hne⟩

/-- Octets begin with one line only. -/
theorem Line.unique (h : Line line rest) (h' : Line line' rest') (heq : line ++ rest = line' ++ rest') :
    line = line' ∧ rest = rest' := by
  cases h with
  | @fed inner hin =>
    have hfirst := line?_fed hin rest
    cases h' with
    | @fed inner' hin' =>
      rw [heq, line?_fed hin', Option.some.injEq, Prod.mk.injEq] at hfirst
      exact ⟨hfirst.1.symm, hfirst.2.symm⟩
    | last hin' =>
      rw [heq, List.append_nil, line?_eq_none hin'] at hfirst
      cases hfirst
  | last hin =>
    cases h' with
    | @fed inner' hin' =>
      have hfirst := line?_fed hin' rest'
      rw [← heq, List.append_nil, line?_eq_none hin] at hfirst
      cases hfirst
    | last hin' => exact ⟨by simpa only [List.append_nil] using heq, rfl⟩

/-- The octets begin with these lines, and `after` is behind them. -/
inductive Lines : Octets → List Octets → Octets → Prop
  | nil (after : Octets) : Lines after [] after
  | cons {line rest after : Octets} {lines : List Octets} (h : Line line rest) (more : Lines rest lines after) :
    Lines (line ++ rest) (line :: lines) after

/-! ### Texts -/

/-- The line is UTF-8, and this is its text without the CR and LF at the end. -/
def Shows (text : List Char) (line : Octets) : Prop :=
  ∃ ends, line = encodeChars (text ++ ends) ∧ (∀ c ∈ ends, isLineEnd c = true) ∧
    ∀ c ∈ text.getLast?, isLineEnd c = false

theorem shows_iff : Shows text line ↔
    ∃ chars, decodeChars line = .ok chars ∧ Text.dropEndWhile isLineEnd chars = text := by
  simp only [decodeChars_eq_ok_iff, Text.dropEndWhile_eq_iff]
  constructor
  · rintro ⟨ends, hline, hends⟩
    exact ⟨_, hline, ends, rfl, hends⟩
  · rintro ⟨_, hline, ends, rfl, hends⟩
    exact ⟨ends, hline, hends⟩

/-- A line shows no line feed. -/
theorem Shows.notMem (h : Shows text line) (hline : Line line rest) : '\n' ∉ text := by
  intro hmem
  obtain ⟨ends, hchars, -, hlast⟩ := h
  obtain ⟨before, after, rfl, hbefore⟩ := List.eq_append_cons_of_mem hmem
  have hfirst : Line (encodeChars before ++ [0x0A]) (encodeChars (after ++ ends) ++ rest) :=
    .fed (fun h => hbefore ((mem_encodeChars_of_ascii (by decide)).mp h)) _
  have hrest := (hline.unique hfirst (by
    rw [hchars, List.append_assoc, encodeChars_append, List.cons_append, encodeChars_cons_of_ascii (by decide)]
    simp only [List.append_assoc]
    rfl)).2
  have hbehind : after ++ ends = [] := encodeChars_eq_nil.mp (List.self_eq_append_left.mp hrest)
  have hafter : after = [] := (List.append_eq_nil_iff.mp hbehind).1
  rw [hafter, List.getLast?_concat] at hlast
  cases hlast _ rfl

end RemoteDebug.Wire
