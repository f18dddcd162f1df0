import RemoteDebug.Proofs.Framing
import RemoteDebug.Proofs.Nesting
import RemoteDebug.Proofs.Transcript
import RemoteDebug.Protocol.Debugger

/-! What is written is read, and when.

The lines that `encode` writes are taken up one by one, so the reader knows what was written. What it
gives back are trimmed texts of single lines and a body that nests no deeper than is read; a message
comes back exactly if it is of that kind and its body is no longer than is allowed. -/
namespace RemoteDebug.Wire
open Protocol Text.Utf8

variable {input rest after : Octets} {k : Headers} {m : Message} {fields : List Field}

/-! ### Headers that are read -/

/-- The text fits a header value: no line feed in it and no blank at either end. -/
structure Fits (value : List Char) : Prop where
  notMem : '\n' ∉ value
  trimmed : Text.Trimmed value

theorem Lines.line {lines : List Octets} (h : Lines input lines after) :
    ∀ line ∈ lines, ∃ rest, Line line rest := by
  induction h with
  | nil => exact fun _ h => by cases h
  | cons hline _ ih => exact List.forall_mem_cons.mpr ⟨⟨_, hline⟩, ih⟩

theorem exists_shows_of_mem {lines : List Octets} {f : Field}
    (h : List.Forall₂ (fun line f => Shows f.text line) lines fields) (hf : f ∈ fields) :
    ∃ line ∈ lines, Shows f.text line := by
  induction h with
  | nil => cases hf
  | cons hshows _ ih =>
    rcases List.mem_cons.mp hf with rfl | hf
    · exact ⟨_, List.mem_cons_self .., hshows⟩
    · obtain ⟨line, hline, hshows⟩ := ih hf
      exact ⟨line, List.mem_cons_of_mem _ hline, hshows⟩

/-- A value that is read is a trimmed part of one line. -/
theorem fits_lastValue {blanks lines : List Octets} {last : Octets}
    (hlines : Lines input (blanks ++ lines ++ [last]) after) (hheading : IsHeading blanks lines last fields)
    {name : String} {value : List Char} (h : lastValue name fields = some value) : Fits value := by
  obtain ⟨f, hlast, rfl⟩ := Option.map_eq_some_iff.mp h
  have hf : f ∈ fields := List.mem_of_mem_filter (List.mem_of_getLast? hlast)
  obtain ⟨line, hline, hshows⟩ := exists_shows_of_mem hheading.shown hf
  obtain ⟨behind, hline⟩ := hlines.line line (by simp [hline])
  refine ⟨fun hmem => hshows.notMem hline ?_, Text.trimmed_trim f.value⟩
  exact List.mem_append_right _ (List.mem_cons_of_mem _ (Text.mem_of_mem_trim hmem))

theorem fits_of_heading (h : Heading {} input k after) :
    (∀ tool ∈ k.tool, Fits tool.toList) ∧ ∀ destination ∈ k.destination, Fits destination.toList := by
  obtain ⟨blanks, lines, last, fields, -, hlines, hheading, rfl⟩ := heading_iff.mp h
  have hfits : ∀ name, ∀ text ∈ (lastValue name fields).map String.ofList, Fits text.toList := by
    intro name text htext
    obtain ⟨value, hvalue, rfl⟩ := Option.map_eq_some_iff.mp htext
    rw [String.toList_ofList]
    exact fits_lastValue hlines hheading hvalue
  exact ⟨hfits "Tool", hfits "Destination"⟩

/-! ### Headers that are written -/

/-- The characters of the header lines of these fields, and of the empty line. -/
def written (fields : List Field) : List Char :=
  fields.flatMap (fun f => f.text ++ ['\r', '\n']) ++ ['\r', '\n']

/-- The text is all that its line shows. -/
structure Plain (text : List Char) : Prop where
  notMem : '\n' ∉ text
  last : ∀ c ∈ text.getLast?, isLineEnd c = false

theorem line_written {text : List Char} (h : '\n' ∉ text) (rest : Octets) :
    Line (encodeChars (text ++ ['\r', '\n'])) rest := by
  rw [show text ++ ['\r', '\n'] = text ++ ['\r'] ++ ['\n'] by simp, encodeChars_append]
  refine .fed (fun hmem => h ?_) rest
  have : '\n' ∈ text ++ ['\r'] := (mem_encodeChars_of_ascii (by decide)).mp hmem
  simpa using this

theorem shows_written {text : List Char} (h : Plain text) : Shows text (encodeChars (text ++ ['\r', '\n'])) :=
  ⟨['\r', '\n'], rfl, by simp [isLineEnd], h.last⟩

theorem lineStep_written {f : Field} (plain : Plain f.text) (seen : List Field) :
    f.Counts ∧ lineStep (heard seen) (encodeChars (f.text ++ ['\r', '\n'])) = .more (heard (seen ++ [f])) ∨
      ¬ f.Counts ∧ ∃ e, lineStep (heard seen) (encodeChars (f.text ++ ['\r', '\n'])) = .failed e := by
  rw [lineStep_of_shows (shows_written plain), if_neg f.text_ne_nil, add_text, Field.counts_iff, not_not]
  by_cases hcounts : f.named "Content-Length" = true ∧ Text.parseBelow UInt64.size (Text.trim f.value) = none
  · rw [if_pos hcounts]
    exact Or.inr ⟨hcounts, _, rfl⟩
  · rw [if_neg hcounts]
    exact Or.inl ⟨hcounts, rfl⟩

theorem encodeChars_written (f : Field) (fields : List Field) (rest : Octets) :
    encodeChars (written (f :: fields)) ++ rest =
      encodeChars (f.text ++ ['\r', '\n']) ++ (encodeChars (written fields) ++ rest) := by
  rw [← List.append_assoc, ← encodeChars_append]
  unfold written
  rw [List.flatMap_cons, List.append_assoc]

/-- Headers that are written are taken up one after the other, and nothing else can be read. -/
theorem heading_written {seen : List Field} (plain : ∀ f ∈ fields, Plain f.text) (hne : seen ++ fields ≠ []) :
    Heading (heard seen) (encodeChars (written fields) ++ rest) k after ↔
      (∀ f ∈ fields, f.Counts) ∧ k = heard (seen ++ fields) ∧ after = rest := by
  induction fields generalizing seen with
  | nil =>
    rw [List.append_nil] at hne
    have hstep : lineStep (heard seen) (encodeChars ['\r', '\n']) = .complete :=
      lineStep_eq_complete_iff.mpr ⟨shows_written ⟨by simp, by simp⟩, hne⟩
    change Heading _ (encodeChars ([] ++ ['\r', '\n']) ++ rest) _ _ ↔ _
    rw [heading_line_iff (line_written (by simp) rest), List.nil_append, hstep]
    simp
  | cons f fields ih =>
    obtain ⟨hf, hfields⟩ := List.forall_mem_cons.mp plain
    have hline := line_written hf.notMem (encodeChars (written fields) ++ rest)
    rw [encodeChars_written, heading_line_iff hline, List.forall_mem_cons]
    rcases lineStep_written hf seen with ⟨hcounts, hstep⟩ | ⟨hcounts, e, hstep⟩
    · have hrest := ih hfields (show seen ++ [f] ++ fields ≠ [] by simp)
      rw [hstep]
      simp only [LineStep.more.injEq, exists_eq_left', hrest, hcounts, true_and, reduceCtorEq, false_and, or_false,
        List.append_assoc, List.singleton_append]
    · rw [hstep]
      simp [hcounts]

/-! ### Messages -/

theorem fits_digits (n : Nat) : Fits (Text.digits n) := by
  refine ⟨fun h => ?_, Text.trimmed_of_forall fun c hc => Text.isBlank_of_isDigit (Text.isDigit_of_mem_digits hc)⟩
  cases Text.isDigit_of_mem_digits h

/-- The fields of a message with a body of so many octets. -/
def fieldsOf (m : Message) (length : Nat) : List Field :=
  ⟨"Tool".toList, m.tool.toList, by decide⟩ ::
    (m.destination.toList.map fun d => ⟨"Destination".toList, d.toList, by decide⟩) ++
    [⟨"Content-Length".toList, Text.digits length, by decide⟩]

theorem headers_eq_written (m : Message) (length : Nat) :
    headers m.tool m.destination length = written (fieldsOf m length) := by
  unfold headers written fieldsOf headerLine
  cases m.destination <;> simp [Field.text]

/-- What a message is like that can be written and read again. -/
structure Sendable (m : Message) : Prop where
  tool : Fits m.tool.toList
  destination : ∀ d, m.destination = some d → Fits d.toList
  nested : m.content.depth ≤ 127
  short : (body m).length ≤ 64 * 1024 * 1024

theorem isLineEnd_of_not_isBlank {c : Char} (h : Text.isBlank c = false) : isLineEnd c = false := by
  rw [isLineEnd, Bool.or_eq_false_iff, beq_eq_false_iff_ne, beq_eq_false_iff_ne]
  constructor <;> rintro rfl <;> cases h

theorem Fits.plain {value : List Char} (h : Fits value) {name : List Char} (hname : '\n' ∉ name) :
    Plain (name ++ ':' :: value) := by
  refine ⟨by simp [hname, h.notMem], fun c hc => ?_⟩
  rw [List.getLast?_append_cons, List.getLast?_cons] at hc
  obtain rfl := Option.some.inj hc
  cases hlast : value.getLast? with
  | none => rfl
  | some c => exact isLineEnd_of_not_isBlank (h.trimmed.last c hlast)

theorem plain_fieldsOf (tool : Fits m.tool.toList) (destination : ∀ d, m.destination = some d → Fits d.toList)
    (length : Nat) : ∀ f ∈ fieldsOf m length, Plain f.text := by
  intro f hf
  simp only [fieldsOf, List.mem_append, List.mem_cons, List.mem_map, Option.mem_toList, List.not_mem_nil,
    or_false] at hf
  rcases hf with (rfl | ⟨d, hd, rfl⟩) | rfl
  · exact tool.plain (show '\n' ∉ "Tool".toList by decide)
  · exact (destination d hd).plain (show '\n' ∉ "Destination".toList by decide)
  · exact (fits_digits length).plain (show '\n' ∉ "Content-Length".toList by decide)

theorem parseBelow_digits_eq_none {bound n : Nat} :
    Text.parseBelow bound (Text.digits n) = none ↔ bound ≤ n := by
  refine ⟨fun h => Nat.not_lt.mp fun hlt => ?_, fun h => ?_⟩
  · rw [Text.parseBelow_digits hlt] at h
    cases h
  · rw [Option.eq_none_iff_forall_ne_some]
    intro k hk
    -- a greater bound lets both numbers through
    obtain ⟨hnumeral, hlt⟩ := Text.parseBelow_eq_some_iff.mp hk
    have hk' := Text.parseBelow_eq_some_iff.mpr ⟨hnumeral, (by omega : k < n + 1)⟩
    rw [Text.parseBelow_digits (Nat.lt_succ_self n), Option.some.injEq] at hk'
    omega

theorem counts_fieldsOf (m : Message) (length : Nat) :
    (∀ f ∈ fieldsOf m length, f.Counts) ↔ length < UInt64.size := by
  have htrim := Text.trim_of_trimmed (fits_digits length).trimmed
  have hcounts : (Field.mk "Content-Length".toList (Text.digits length) (by decide)).Counts ↔
      length < UInt64.size := by
    rw [Field.counts_iff, htrim, parseBelow_digits_eq_none, ← Nat.not_le]
    exact not_congr (and_iff_right rfl)
  have htool : (Field.mk "Tool".toList m.tool.toList (by decide)).Counts := fun h => by cases h
  have hdestination : ∀ d : String, (Field.mk "Destination".toList d.toList (by decide)).Counts :=
    fun _ h => by cases h
  unfold fieldsOf
  rw [List.forall_mem_append, List.forall_mem_cons, List.forall_mem_singleton, hcounts]
  refine and_iff_right ⟨htool, fun f hf => ?_⟩
  obtain ⟨d, -, rfl⟩ := List.mem_map.mp hf
  exact hdestination d

/-- The reader knows what was written. -/
theorem heard_fieldsOf (tool : Fits m.tool.toList) (destination : ∀ d, m.destination = some d → Fits d.toList)
    (length : Nat) : heard (fieldsOf m length) =
      { any := true, tool := some m.tool, destination := m.destination,
        length := Text.parseBelow UInt64.size (Text.digits length) } := by
  have htool := Text.trim_of_trimmed tool.trimmed
  have hlength := Text.trim_of_trimmed (fits_digits length).trimmed
  unfold fieldsOf
  cases hd : m.destination with
  | none =>
    change Headers.mk true (some (String.ofList (Text.trim m.tool.toList))) none
      (Text.parseBelow UInt64.size (Text.trim (Text.digits length))) = _
    rw [htool, hlength, String.ofList_toList]
  | some d =>
    have hdestination := Text.trim_of_trimmed (destination d hd).trimmed
    change Headers.mk true (some (String.ofList (Text.trim m.tool.toList)))
      (some (String.ofList (Text.trim d.toList)))
      (Text.parseBelow UInt64.size (Text.trim (Text.digits length))) = _
    rw [htool, hdestination, hlength, String.ofList_toList, String.ofList_toList]

/-! ### Contents -/

theorem isAsciiBlank_of_lt {b : UInt8} (h : 0x20 < b) : isAsciiBlank b = false := by
  rw [UInt8.lt_iff_toNat_lt] at h
  simp only [isAsciiBlank, beq_eq_false_iff_ne, Bool.or_eq_false_iff, ne_eq, ← UInt8.toNat_inj]
  refine ⟨⟨⟨⟨?_, ?_⟩, ?_⟩, ?_⟩, ?_⟩ <;> exact Nat.ne_of_gt (Nat.lt_of_le_of_lt (by decide) h)

theorem body_of_null (h : m.content = .null) : body m = [] := by
  unfold body
  rw [h]

theorem body_of_ne_null (h : m.content ≠ .null) : body m = encodeChars m.content.chars := by
  unfold body
  split
  · next hnull => exact absurd hnull h
  · rfl

/-- A body holds the content it was written from exactly if that nests as deep as is read. -/
theorem holds_body (exact : m.content.Exact) (canonical : m.content.Canonical) :
    Holds (body m) m.content ↔ m.content.depth ≤ Json.depthLimit := by
  by_cases hnull : m.content = .null
  · rw [body_of_null hnull, hnull]
    simp [Holds, Json.depth]
  · obtain ⟨b, tail, hhead, hb, -⟩ := Json.Reader.head_chars m.content exact
    have hsome : ¬ (body m).all isAsciiBlank = true := by
      intro h
      have := List.all_eq_true.mp h b (by rw [body_of_ne_null hnull, hhead]; exact List.mem_cons_self ..)
      rw [isAsciiBlank_of_lt hb] at this
      cases this
    rw [Holds, if_neg hsome, body_of_ne_null hnull]
    exact ⟨fun h => (Json.Reader.tame_parse h).nested, Json.parse_chars exact canonical⟩

/-! ### Frames -/

theorem filter_destination (m : Message) : m.destination.filter (· ≠ "") = m.destination := by
  cases h : m.destination with
  | none => rfl
  | some d =>
    have hne : d ≠ "" := by
      rintro rfl
      exact m.destination_ne_empty h
    simp [Option.filter, hne]

/-- With headers that fit, it is the length and the body that decide. -/
theorem readMessage_encode_of_fits (tool : Fits m.tool.toList)
    (destination : ∀ d, m.destination = some d → Fits d.toList) (rest : Octets) :
    readMessage (encode m ++ rest) = (.message m, rest) ↔
      (body m).length ≤ maxLength ∧ Holds (body m) m.content := by
  have hencode : encode m ++ rest =
      encodeChars (written (fieldsOf m (body m).length)) ++ (body m ++ rest) := by
    rw [← headers_eq_written]
    exact List.append_assoc ..
  have hheading : ∀ {k after}, Heading {} (encode m ++ rest) k after ↔ (body m).length < UInt64.size ∧
      k = heard (fieldsOf m (body m).length) ∧ after = body m ++ rest := by
    intro k after
    rw [hencode, ← counts_fieldsOf m]
    have hne : [] ++ fieldsOf m (body m).length ≠ [] := List.cons_ne_nil _ _
    exact heading_written (plain_fieldsOf tool destination _) hne
  rw [readMessage_eq_message_iff_heading]
  simp only [hheading, heard_fieldsOf tool destination, readBody_eq_message_iff]
  constructor
  · rintro ⟨_, _, ⟨hlt, rfl, rfl⟩, body', happend, -, -, hlength, hshort, hholds⟩
    rw [Text.parseBelow_digits hlt, Option.some.injEq] at hlength
    obtain ⟨rfl, -⟩ := List.append_inj happend hlength
    exact ⟨hshort, hholds⟩
  · rintro ⟨hshort, hholds⟩
    have hlt : (body m).length < UInt64.size := Nat.lt_of_le_of_lt hshort (by decide)
    exact ⟨_, _, ⟨hlt, rfl, rfl⟩, body m, rfl, rfl, (filter_destination m).symm, Text.parseBelow_digits hlt, hshort,
      hholds⟩

theorem fits_of_readMessage (h : readMessage input = (.message m, rest)) :
    Fits m.tool.toList ∧ ∀ d, m.destination = some d → Fits d.toList := by
  obtain ⟨k, after, hheading, hbody⟩ := readMessage_eq_message_iff_heading.mp h
  obtain ⟨htool, hdestination⟩ := fits_of_heading hheading
  obtain ⟨_, -, hktool, hkdestination, -⟩ := readBody_eq_message_iff.mp hbody
  refine ⟨htool _ hktool, fun d hd => hdestination d ?_⟩
  rw [hd] at hkdestination
  exact (Option.filter_eq_some_iff.mp hkdestination.symm).1

/-- A message comes back, with what follows it left alone, exactly if it is one that can be sent. -/
theorem readMessage_encode (exact : m.content.Exact) (canonical : m.content.Canonical) (rest : Octets) :
    readMessage (encode m ++ rest) = (.message m, rest) ↔ Sendable m := by
  constructor
  · intro h
    obtain ⟨tool, destination⟩ := fits_of_readMessage h
    obtain ⟨hshort, hholds⟩ := (readMessage_encode_of_fits tool destination rest).mp h
    exact ⟨tool, destination, (holds_body exact canonical).mp hholds, hshort⟩
  · rintro ⟨tool, destination, hnested, hshort⟩
    exact (readMessage_encode_of_fits tool destination rest).mpr ⟨hshort, (holds_body exact canonical).mpr hnested⟩

/-! ### Streams of frames -/

theorem next_of_readMessage (h : readMessage input = (.message m, rest)) :
    next true input = some (.message m, rest) := by
  unfold readMessage at h
  cases hnext : next true input with
  | none =>
    rw [hnext] at h
    cases h
  | some reading =>
    rw [hnext] at h
    exact congrArg some h

theorem encode_ne_nil (m : Message) : encode m ≠ [] :=
  List.append_ne_nil_of_left_ne_nil (fun h => by cases encodeChars_eq_nil.mp h) _

theorem length_le_flatMap_encode (ms : List Message) : ms.length ≤ (ms.flatMap encode).length := by
  induction ms with
  | nil => exact Nat.le_refl _
  | cons m ms ih =>
    have := List.length_pos_iff.mpr (encode_ne_nil m)
    rw [List.flatMap_cons, List.length_append, List.length_cons]
    omega

theorem readings_encode {ms : List Message}
    (h : ∀ m ∈ ms, ∀ rest, readMessage (encode m ++ rest) = (.message m, rest))
    {n : Nat} (hn : ms.length < n) :
    readings true n (ms.flatMap encode) = (ms.map .message ++ [.finished], []) := by
  induction ms generalizing n with
  | nil =>
    obtain ⟨n, rfl⟩ := Nat.exists_eq_add_of_lt hn
    rfl
  | cons m ms ih =>
    obtain ⟨n, rfl⟩ : ∃ i, n = i + 1 := ⟨n - 1, by omega⟩
    rw [List.flatMap_cons, readings, next_of_readMessage (h m (List.mem_cons_self ..) _)]
    simp only [Reading.goesOn, if_true]
    rw [ih (fun m hm => h m (List.mem_cons_of_mem _ hm)) (by simpa using hn)]
    rfl

/-- Exactly the messages that can be sent come back, whatever follows them, and a stream of such messages
is read as these messages and a clean end. -/
theorem frames_roundtrip :
    (∀ m : Message, m.content.Exact → m.content.Canonical → ∀ rest,
      readMessage (encode m ++ rest) = (.message m, rest) ↔ Sendable m) ∧
    ∀ ms : List Message, (∀ m ∈ ms, m.content.Exact ∧ m.content.Canonical ∧ Sendable m) →
      readAll (ms.flatMap encode) = (ms.map .message ++ [.finished], []) := by
  refine ⟨fun m => readMessage_encode, fun ms h => ?_⟩
  refine readings_encode (fun m hm rest => ?_) (Nat.lt_succ_of_le (length_le_flatMap_encode ms))
  obtain ⟨exact, canonical, sendable⟩ := h m hm
  exact (readMessage_encode exact canonical rest).mpr sendable

/-! ### Requests to a tab -/

theorem tabText_ne_empty (tab : TabId) : Message.tabText tab ≠ "" := by
  intro h
  have hnil := congrArg String.toList h
  rw [Message.tabText, String.toList_ofList] at hnil
  exact Nat.toDigits_ne_nil hnil

/-- What a request to a tab is made of. -/
theorem toMessage_parts (c : DebuggerCommand) (tab : TabId) : (c.toMessage tab).tool = "V8Debugger" ∧
    (c.toMessage tab).destination = some (Message.tabText tab) ∧ (c.toMessage tab).content = c.content := by
  obtain ⟨htool, hdestination, hcontent⟩ :=
    eq_ofHeaders_iff.mp (rfl : c.toMessage tab = .ofHeaders "V8Debugger" (some (Message.tabText tab)) c.content)
  refine ⟨htool, hdestination.trans ?_, hcontent⟩
  rw [Option.filter_some, if_pos (by simpa using tabText_ne_empty tab)]

/-- For every tab it is the payload that decides whether a request can be sent. -/
theorem sendable_toMessage {c : DebuggerCommand} {tab : TabId} : Sendable (c.toMessage tab) ↔
    c.content.depth ≤ 127 ∧ (body (c.toMessage tab)).length ≤ 64 * 1024 * 1024 := by
  obtain ⟨htool, hdestination, hcontent⟩ := toMessage_parts c tab
  refine ⟨fun h => ⟨hcontent ▸ h.nested, h.short⟩, fun ⟨hnested, hshort⟩ => ⟨?_, ?_, hcontent ▸ hnested, hshort⟩⟩
  · have hblank : "V8Debugger".toList.all (!Text.isBlank ·) = true := by decide
    rw [htool]
    refine ⟨by decide, Text.trimmed_of_forall fun c hc => ?_⟩
    exact Bool.not_eq_true' _ ▸ List.all_eq_true.mp hblank c hc
  · intro d hd
    obtain rfl := Option.some.inj (hdestination.symm.trans hd)
    rw [Message.tabText, String.toList_ofList]
    exact fits_digits _

/-- The request to attach can be sent for every tab. -/
theorem sendable_attach (tab : TabId) : Sendable (DebuggerCommand.attach.toMessage tab) := by
  refine sendable_toMessage.mpr ⟨by decide, ?_⟩
  unfold body
  rw [(toMessage_parts _ tab).2.2]
  decide

/-- Requests to attach to two tabs, the first with other octets behind it and both in a row. -/
theorem frames_roundtrip_attach :
    readMessage (encode (DebuggerCommand.attach.toMessage 7) ++ [0x41]) =
        (.message (DebuggerCommand.attach.toMessage 7), [0x41]) ∧
      readAll ([7, 8].flatMap fun tab => encode (DebuggerCommand.attach.toMessage tab)) =
        ([7, 8].map (fun tab => .message (DebuggerCommand.attach.toMessage tab)) ++ [.finished], []) := by
  have tame : ∀ tab, (DebuggerCommand.attach.toMessage tab).content.Exact ∧
      (DebuggerCommand.attach.toMessage tab).content.Canonical := by
    intro tab
    rw [(toMessage_parts _ tab).2.2]
    exact ⟨⟨trivial, trivial⟩, List.pairwise_singleton .., trivial, trivial⟩
  refine ⟨(frames_roundtrip.1 _ (tame 7).1 (tame 7).2 [0x41]).mpr (sendable_attach 7), ?_⟩
  refine frames_roundtrip.2 ([7, 8].map DebuggerCommand.attach.toMessage) fun m hm => ?_
  obtain ⟨tab, -, rfl⟩ := List.mem_map.mp hm
  exact ⟨(tame tab).1, (tame tab).2, sendable_attach tab⟩

end RemoteDebug.Wire
