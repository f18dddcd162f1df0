import RemoteDebug.Proofs.Growth
import RemoteDebug.Proofs.Roundtrip

/-! Frames with any body.

The header lines say how long the body is, and that many octets belong to it, whatever they are. So a
body that is not JSON costs its own frame only: a stream of frames is read frame by frame, each as it is
read alone. -/
namespace RemoteDebug.Text

variable {p : Char → Bool} {c : Char} {t : List Char}

theorem dropEndWhile_append_cons (hc : p c = false) (s t : List Char) :
    dropEndWhile p (s ++ c :: t) = s ++ c :: dropEndWhile p t := by
  obtain ⟨ends, ht, hends, hlast⟩ := dropEndWhile_eq_iff.mp (rfl : dropEndWhile p t = dropEndWhile p t)
  refine dropEndWhile_eq_iff.mpr ⟨ends, ?_, hends, ?_⟩
  · rw [List.append_assoc, List.cons_append, ← ht]
  · intro d hd
    rw [List.getLast?_append_cons, List.getLast?_cons] at hd
    obtain rfl := Option.some.inj hd
    cases hrest : (dropEndWhile p t).getLast? with
    | none => exact hc
    | some d => exact hlast d hrest

theorem dropEndWhile_append_of_all (ht : ∀ c ∈ t, p c = true) (s : List Char) :
    dropEndWhile p (s ++ t) = dropEndWhile p s := by
  unfold dropEndWhile
  rw [List.reverse_append, List.dropWhile_append_of_pos fun c hc => ht c (List.mem_reverse.mp hc)]

/-- Blanks that are dropped beforehand are not missed. -/
theorem trim_dropEndWhile (hp : ∀ c, p c = true → isBlank c = true) (s : List Char) :
    trim (dropEndWhile p s) = trim s := by
  obtain ⟨ends, hs, hends, -⟩ := dropEndWhile_eq_iff.mp (rfl : dropEndWhile p s = dropEndWhile p s)
  have hblank : ∀ c ∈ ends, isBlank c = true := fun c hc => hp c (hends c hc)
  generalize dropEndWhile p s = text at hs
  subst hs
  unfold trim trimEnd trimStart
  by_cases htext : ∀ c ∈ text, isBlank c = true
  · rw [List.dropWhile_append_of_pos htext, List.dropWhile_eq_nil_iff.mpr htext,
      List.dropWhile_eq_nil_iff.mpr hblank]
  · rw [List.dropWhile_append, if_neg (by simpa [List.dropWhile_eq_nil_iff] using htext),
      dropEndWhile_append_of_all hblank]

end RemoteDebug.Text

namespace RemoteDebug.Wire
open Protocol Text.Utf8

variable {rest : Octets} {ended : Bool} {n : Nat} {fields seen : List Field} {f : Field}

/-! ### Header lines as they are written -/

theorem line?_written {text : List Char} (h : '\n' ∉ text) (rest : Octets) :
    line? (encodeChars (text ++ ['\r', '\n']) ++ rest) = some (encodeChars (text ++ ['\r', '\n']), rest) := by
  have hfeed : (0x0A : UInt8) ∉ encodeChars (text ++ ['\r']) := fun hmem => by
    have : '\n' ∈ text ++ ['\r'] := (mem_encodeChars_of_ascii (by decide)).mp hmem
    simp [h] at this
  refine line?_eq_some_iff.mpr ⟨_, hfeed, ?_, rfl⟩
  rw [show text ++ ['\r', '\n'] = text ++ ['\r'] ++ ['\n'] by simp, encodeChars_append]
  rfl

theorem isBlank_of_isLineEnd (c : Char) (h : isLineEnd c = true) : Text.isBlank c = true := by
  unfold isLineEnd at h
  rw [Bool.or_eq_true, beq_iff_eq, beq_iff_eq] at h
  rcases h with rfl | rfl <;> decide

/-- The field as its line shows it: CR and LF at its end are part of the end of the line. -/
def Field.shown (f : Field) : Field := { f with value := Text.dropEndWhile isLineEnd f.value }

theorem Field.shows_shown (f : Field) : Shows f.shown.text (encodeChars (f.text ++ ['\r', '\n'])) := by
  refine shows_iff.mpr ⟨_, decodeChars_eq_ok_iff.mpr rfl, ?_⟩
  rw [Text.dropEndWhile_append_of_all (by simp [isLineEnd])]
  exact Text.dropEndWhile_append_cons (by decide) _ _

theorem heard_shown (seen : List Field) (f : Field) : heard (seen ++ [f.shown]) = heard (seen ++ [f]) := by
  have htrim : Text.trim f.shown.value = Text.trim f.value := Text.trim_dropEndWhile isBlank_of_isLineEnd _
  rw [heard_concat, heard_concat, htrim]
  rfl

theorem Field.counts_shown (h : f.Counts) : f.shown.Counts := by
  intro hnamed
  obtain ⟨n, hn⟩ := h hnamed
  exact ⟨n, by rwa [show Text.trim f.shown.value = Text.trim f.value from
    Text.trim_dropEndWhile isBlank_of_isLineEnd _]⟩

/-- A field is taken up as it was written. -/
theorem lineStep_field (h : f.Counts) (seen : List Field) :
    lineStep (heard seen) (encodeChars (f.text ++ ['\r', '\n'])) = .more (heard (seen ++ [f])) := by
  rw [← heard_shown]
  exact lineStep_eq_more_iff.mpr (Or.inr ⟨f.shown, f.shows_shown, Field.counts_shown h, rfl⟩)

/-- Fields that are written are taken up one after the other, and then the body is read. -/
theorem readHeaders_written (h : ∀ f ∈ fields, '\n' ∉ f.text ∧ f.Counts) (hne : seen ++ fields ≠ [])
    (hn : fields.length < n) : readHeaders ended n (heard seen) (encodeChars (written fields) ++ rest) =
      readBody ended (heard (seen ++ fields)) rest := by
  induction fields generalizing seen n with
  | nil =>
    obtain ⟨n, rfl⟩ : ∃ i, n = i + 1 := ⟨n - 1, by omega⟩
    rw [List.append_nil] at hne ⊢
    have hline : line? (encodeChars (written []) ++ rest) = some (encodeChars ['\r', '\n'], rest) :=
      line?_written (by simp : '\n' ∉ []) rest
    have hstep : lineStep (heard seen) (encodeChars ['\r', '\n']) = .complete :=
      lineStep_eq_complete_iff.mpr ⟨shows_written ⟨by simp, by simp⟩, hne⟩
    rw [readHeaders, hline]
    simp only [hstep]
  | cons f fields ih =>
    obtain ⟨n, rfl⟩ : ∃ i, n = i + 1 := ⟨n - 1, by omega⟩
    obtain ⟨⟨hf, hcounts⟩, hfields⟩ := List.forall_mem_cons.mp h
    rw [encodeChars_written, readHeaders, line?_written hf]
    simp only [lineStep_field hcounts]
    rw [ih hfields (by simp) (by simpa using hn), List.append_assoc, List.singleton_append]

/-- A line takes an octet at least. -/
theorem length_lt_written (fields : List Field) : fields.length < (encodeChars (written fields)).length := by
  induction fields with
  | nil => decide
  | cons f fields ih =>
    have hline := encodeChars_written f fields []
    have hpos : 0 < (encodeChars (f.text ++ ['\r', '\n'])).length := by
      simp only [List.length_pos_iff, ne_eq, encodeChars_eq_nil]
      simp
    rw [List.append_nil, List.append_nil] at hline
    rw [hline, List.length_append, List.length_cons]
    omega

/-! ### Frames -/

/-- Headers as they are written, and the octets of a body that need not be JSON. -/
structure Frame where
  tool : String
  destination : Option String
  body : Octets

namespace Frame

def octets (f : Frame) : Octets :=
  encodeChars (headers f.tool f.destination f.body.length) ++ f.body

/-- What is written for a message is such a frame. -/
theorem octets_of_message (m : Message) : octets ⟨m.tool, m.destination, Wire.body m⟩ = encode m := rfl

/-- The headers are lines, and the body is no longer than is allowed. -/
structure Allowed (f : Frame) : Prop where
  tool : '\n' ∉ f.tool.toList
  destination : ∀ d, f.destination = some d → '\n' ∉ d.toList
  short : f.body.length ≤ 64 * 1024 * 1024

def trimmed (s : String) : String := String.ofList (Text.trim s.toList)

/-- What the frame is read as: a message, or a body that is not JSON. -/
def reading (f : Frame) : Reading :=
  match contentOf f.body with
  | .ok content => .message (.ofHeaders (trimmed f.tool) (f.destination.map trimmed) content)
  | .error fault => .badBody fault

theorem reading_cases (f : Frame) : (∃ m, f.reading = .message m) ∨ ∃ fault, f.reading = .badBody fault := by
  unfold reading
  cases contentOf f.body with
  | ok content => exact Or.inl ⟨_, rfl⟩
  | error fault => exact Or.inr ⟨_, rfl⟩

theorem reading_goesOn (f : Frame) : f.reading.goesOn = true := by
  rcases f.reading_cases with ⟨m, h⟩ | ⟨fault, h⟩ <;> rw [h] <;> rfl

theorem plain_tool : ':' ∉ "Tool".toList := by decide

theorem plain_destination : ':' ∉ "Destination".toList := by decide

theorem plain_length : ':' ∉ "Content-Length".toList := by decide

def heading (f : Frame) : List Field :=
  ⟨"Tool".toList, f.tool.toList, plain_tool⟩ ::
    (f.destination.toList.map fun d => ⟨"Destination".toList, d.toList, plain_destination⟩) ++
    [⟨"Content-Length".toList, Text.digits f.body.length, plain_length⟩]

theorem octets_eq (f : Frame) : f.octets = encodeChars (written f.heading) ++ f.body := by
  unfold octets headers written heading headerLine
  cases f.destination <;> simp [Field.text]

theorem trim_digits (n : Nat) : Text.trim (Text.digits n) = Text.digits n :=
  Text.trim_of_trimmed (fits_digits n).trimmed

variable {f : Frame}

theorem Allowed.lt_size (h : f.Allowed) : f.body.length < UInt64.size :=
  Nat.lt_of_le_of_lt h.short (by decide)

/-- Each field is on one line, and the length is one that can be read. -/
theorem Allowed.heading (h : f.Allowed) : ∀ field ∈ f.heading, '\n' ∉ field.text ∧ field.Counts := by
  have hlength : (Field.mk "Content-Length".toList (Text.digits f.body.length) (by decide)).Counts := by
    intro _
    rw [trim_digits]
    exact ⟨_, Text.parseBelow_eq_some_iff.mp (Text.parseBelow_digits h.lt_size)⟩
  intro field hfield
  simp only [Frame.heading, List.mem_append, List.mem_cons, List.mem_map, Option.mem_toList, List.not_mem_nil,
    or_false] at hfield
  rcases hfield with (rfl | ⟨d, hd, rfl⟩) | rfl
  · exact ⟨by simp [Field.text, h.tool], fun h => by cases h⟩
  · exact ⟨by simp [Field.text, h.destination d hd], fun h => by cases h⟩
  · exact ⟨by simp [Field.text, (fits_digits _).notMem], hlength⟩

theorem Allowed.heard_heading (h : f.Allowed) : heard f.heading =
    { any := true, tool := some (trimmed f.tool), destination := f.destination.map trimmed,
      length := some f.body.length } := by
  have hlength : Text.parseBelow UInt64.size (Text.trim (Text.digits f.body.length)) = some f.body.length := by
    rw [trim_digits, Text.parseBelow_digits h.lt_size]
  unfold Frame.heading
  rw [← hlength]
  cases f.destination <;> rfl

theorem Allowed.readBody (h : f.Allowed) (ended : Bool) (rest : Octets) :
    readBody ended (heard f.heading) (f.body ++ rest) = some (f.reading, rest) := by
  rw [h.heard_heading]
  unfold Wire.readBody
  simp only [if_neg (Nat.not_lt.mpr h.short : ¬ maxLength < f.body.length), List.take_left, if_true, List.drop_left]
  unfold reading
  cases contentOf f.body <;> rfl

/-- A frame is read as a whole and as nothing more, whatever its body and whatever follows. -/
theorem Allowed.next (h : f.Allowed) (ended : Bool) (rest : Octets) :
    next ended (f.octets ++ rest) = some (f.reading, rest) := by
  have hne : [] ++ f.heading ≠ [] := List.cons_ne_nil _ _
  have hn : f.heading.length < (f.octets ++ rest).length + 1 := by
    have := length_lt_written f.heading
    rw [octets_eq, List.length_append, List.length_append]
    omega
  rw [← h.readBody ended rest, ← List.nil_append f.heading, ← readHeaders_written h.heading hne hn, octets_eq,
    List.append_assoc]
  rfl

theorem Allowed.readMessage (h : f.Allowed) (rest : Octets) : readMessage (f.octets ++ rest) = (f.reading, rest) :=
  readMessage_eq_iff.mpr (h.next true rest)

end Frame

/-! ### Streams of frames -/

theorem readAll_nil : readAll [] = ([.finished], []) := rfl

/-- Frames in front of a stream are read one after the other, and then the stream is. -/
theorem readAll_frames {frames : List Frame} (h : ∀ f ∈ frames, f.Allowed) (rest : Octets) :
    readAll (frames.flatMap Frame.octets ++ rest) =
      (frames.map Frame.reading ++ (readAll rest).1, (readAll rest).2) := by
  induction frames with
  | nil => rfl
  | cons f frames ih =>
    obtain ⟨hf, hframes⟩ := List.forall_mem_cons.mp h
    rw [List.flatMap_cons, List.append_assoc]
    calc readAll (f.octets ++ (frames.flatMap Frame.octets ++ rest))
        = (f.reading :: (readAll (frames.flatMap Frame.octets ++ rest)).1,
            (readAll (frames.flatMap Frame.octets ++ rest)).2) :=
          available_cons (hf.next true _) f.reading_goesOn
      _ = _ := by rw [ih hframes]; rfl

/-- Whatever octets the bodies are, a stream of frames is read as one thing for each frame and a clean end,
and what a frame is read as, a message or a bad body, is what it is read as alone. -/
theorem bodies_keep_frames_apart {frames : List Frame} (h : ∀ f ∈ frames, f.Allowed) :
    readAll (frames.flatMap Frame.octets) =
        (frames.map (fun f => (readMessage f.octets).1) ++ [.finished], []) ∧
      ∀ f ∈ frames, ((∃ m, (readMessage f.octets).1 = .message m) ∨ ∃ fault, (readMessage f.octets).1 = .badBody fault) ∧
        ∀ rest, readMessage (f.octets ++ rest) = ((readMessage f.octets).1, rest) := by
  have halone : ∀ f ∈ frames, (readMessage f.octets).1 = f.reading := by
    intro f hf
    have := (h f hf).readMessage []
    rw [List.append_nil] at this
    rw [this]
  constructor
  · have hall := readAll_frames h []
    rw [List.append_nil, readAll_nil] at hall
    rw [hall, List.map_congr_left halone]
  · intro f hf
    rw [halone f hf]
    exact ⟨f.reading_cases, (h f hf).readMessage⟩

/-- Bodies that are not UTF-8, that look like a frame, that are blank and that are an object. -/
def mixed : List Frame :=
  [⟨"a\r", none, [0xFF]⟩, ⟨"V8Debugger", some "7", (Frame.mk "b" none [0x31]).octets⟩, ⟨"b", some "", [0x20]⟩,
    ⟨"b", none, [0x7B, 0x7D]⟩]

/-- Two bad bodies before two good ones. -/
theorem bodies_keep_frames_apart_mixed : (∀ f ∈ mixed, f.Allowed) ∧ readAll (mixed.flatMap Frame.octets) =
    ([.badBody .malformed, .badBody .malformed, .message (.ofHeaders "b" none .null),
      .message (.ofHeaders "b" none (.obj [])), .finished], []) := by
  have h : ∀ f ∈ mixed, f.Allowed := by
    intro f hf
    simp only [mixed, List.mem_cons, List.not_mem_nil, or_false] at hf
    rcases hf with rfl | rfl | rfl | rfl <;> exact ⟨by decide, by decide, by decide⟩
  refine ⟨h, ?_⟩
  rw [(bodies_keep_frames_apart h).1]
  rfl

end RemoteDebug.Wire
