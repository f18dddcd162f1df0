import RemoteDebug.Proofs.Heading

/-! The layout of a frame, and that frames are read exactly as they are laid out.

`IsFrame` says what the octets of a frame are, without the functions that read it: blank lines, header
lines, an empty line and a body of the length that the last length header gives. What the reader gives
is a frame in this sense, and every such frame is read. -/
namespace RemoteDebug.Wire
open Protocol

variable {input rest body after : Octets} {k : Headers} {m : Message} {fields : List Field} {last : Octets}
  {blanks lines : List Octets}

/-! ### The layout of a heading -/

/-- Blank lines, one line for each of the fields, and an empty one. -/
structure IsHeading (blanks lines : List Octets) (last : Octets) (fields : List Field) : Prop where
  blank : ∀ line ∈ blanks, Shows [] line
  shown : List.Forall₂ (fun line f => Shows f.text line) lines fields
  counts : ∀ f ∈ fields, f.Counts
  closing : Shows [] last

theorem heading_of_fields (seen : List Field)
    (shown : List.Forall₂ (fun line f => Shows f.text line) lines fields)
    (counts : ∀ f ∈ fields, f.Counts) (hlast : Shows [] last) (hne : seen ++ fields ≠ [])
    (hlines : Lines input (lines ++ [last]) after) :
    Heading (heard seen) input (heard (seen ++ fields)) after := by
  induction shown generalizing seen input with
  | nil =>
    obtain ⟨⟩ | ⟨hline, more⟩ := hlines
    cases more
    rw [List.append_nil] at hne ⊢
    exact .complete hline (lineStep_eq_complete_iff.mpr ⟨hlast, hne⟩)
  | @cons line f lines fields hshows _ ih =>
    obtain ⟨⟩ | ⟨hline, more⟩ := hlines
    have hstep : lineStep (heard seen) line = .more (heard (seen ++ [f])) :=
      lineStep_eq_more_iff.mpr (Or.inr ⟨f, hshows, counts f (List.mem_cons_self ..), rfl⟩)
    refine .more hline hstep ?_
    rw [List.append_cons seen f fields]
    exact ih _ (fun g hg => counts g (List.mem_cons_of_mem _ hg)) (by simp) more

theorem heading_of_isHeading (h : IsHeading blanks lines last fields) (hne : fields ≠ [])
    (hlines : Lines input (blanks ++ lines ++ [last]) after) : Heading {} input (heard fields) after := by
  obtain ⟨hblanks, shown, counts, hlast⟩ := h
  induction blanks generalizing input with
  | nil => exact heading_of_fields [] shown counts hlast hne hlines
  | cons line blanks ih =>
    obtain ⟨⟩ | ⟨hline, more⟩ := hlines
    have hstep : lineStep (heard []) line = .more (heard []) :=
      lineStep_eq_more_iff.mpr (Or.inl ⟨hblanks line (List.mem_cons_self ..), rfl, rfl⟩)
    exact .more hline hstep (ih more fun l hl => hblanks l (List.mem_cons_of_mem _ hl))

theorem isHeading_of_heading (seen : List Field) (h : Heading (heard seen) input k after) :
    ∃ blanks lines last fields, (seen = [] ∨ blanks = []) ∧ seen ++ fields ≠ [] ∧
      Lines input (blanks ++ lines ++ [last]) after ∧ IsHeading blanks lines last fields ∧
      k = heard (seen ++ fields) := by
  generalize hseen : heard seen = h₀ at h
  induction h generalizing seen with
  | complete hline step =>
    subst hseen
    obtain ⟨hshows, hne⟩ := lineStep_eq_complete_iff.mp step
    exact ⟨[], [], _, [], Or.inr rfl, by rwa [List.append_nil], .cons hline (.nil _),
      ⟨by simp, .nil, by simp, hshows⟩, by rw [List.append_nil]⟩
  | more hline step _ ih =>
    subst hseen
    rcases lineStep_eq_more_iff.mp step with ⟨hshows, rfl, rfl⟩ | ⟨f, hshows, hcounts, rfl⟩
    · obtain ⟨blanks, lines, last, fields, -, hne, hlines, hheading, rfl⟩ := ih [] rfl
      exact ⟨_ :: blanks, lines, last, fields, Or.inl rfl, hne, .cons hline hlines,
        { hheading with blank := List.forall_mem_cons.mpr ⟨hshows, hheading.blank⟩ }, rfl⟩
    · obtain ⟨blanks, lines, last, fields, hblanks, hne, hlines, hheading, rfl⟩ := ih (seen ++ [f]) rfl
      obtain rfl : blanks = [] := hblanks.resolve_left (by simp)
      rw [List.append_assoc] at hne
      exact ⟨[], _ :: lines, last, f :: fields, Or.inr rfl, hne, .cons hline hlines,
        { hheading with
          shown := .cons hshows hheading.shown
          counts := List.forall_mem_cons.mpr ⟨hcounts, hheading.counts⟩ }, by rw [List.append_assoc]; rfl⟩

/-- The headers that are read are those of a list of fields laid out as a heading. -/
theorem heading_iff : Heading {} input k after ↔ ∃ blanks lines last fields, fields ≠ [] ∧
    Lines input (blanks ++ lines ++ [last]) after ∧ IsHeading blanks lines last fields ∧ k = heard fields := by
  constructor
  · intro h
    obtain ⟨blanks, lines, last, fields, -, hne, hlines, hheading, rfl⟩ := isHeading_of_heading [] h
    exact ⟨blanks, lines, last, fields, hne, hlines, hheading, rfl⟩
  · rintro ⟨blanks, lines, last, fields, hne, hlines, hheading, rfl⟩
    exact heading_of_isHeading hheading hne hlines

/-! ### The layout of a frame -/

/-- What a body stands for: null if it is blank, and else the value whose text it is. -/
def Holds (body : Octets) (content : Json) : Prop :=
  if body.all isAsciiBlank then content = .null else Json.parse body = .ok content

theorem contentOf_eq_ok_iff {content : Json} : contentOf body = .ok content ↔ Holds body content := by
  unfold contentOf Holds
  split
  · rw [Except.ok.injEq, eq_comm]
  · rfl

/-- The octets are a frame of the message and `rest`. -/
structure IsFrame (input : Octets) (m : Message) (rest : Octets) (blanks lines : List Octets) (last : Octets)
    (fields : List Field) (body : Octets) : Prop where
  laid : Lines input (blanks ++ lines ++ [last]) (body ++ rest)
  heading : IsHeading blanks lines last fields
  tool : lastValue "Tool" fields = some m.tool.toList
  /-- An empty destination is none. -/
  destination : m.destination = ((lastValue "Destination" fields).map String.ofList).filter (· ≠ "")
  length : ∃ value, lastValue "Content-Length" fields = some value ∧ Text.Numeral value body.length
  short : body.length ≤ 64 * 1024 * 1024
  content : Holds body m.content

theorem message_eq_iff {m m' : Message} :
    m = m' ↔ m.tool = m'.tool ∧ m.destination = m'.destination ∧ m.content = m'.content := by
  cases m
  cases m'
  simp only [Message.mk.injEq]

theorem eq_ofHeaders_iff {tool : String} {destination : Option String} {content : Json} :
    m = .ofHeaders tool destination content ↔
      m.tool = tool ∧ m.destination = destination.filter (· ≠ "") ∧ m.content = content := by
  have hdestination :
      (Message.ofHeaders tool destination content).destination = destination.filter (· ≠ "") := by
    unfold Message.ofHeaders
    cases destination with
    | none => rfl
    | some d => by_cases hd : d = "" <;> simp [hd, Option.filter]
  have hother : (Message.ofHeaders tool destination content).tool = tool ∧
      (Message.ofHeaders tool destination content).content = content := by
    unfold Message.ofHeaders
    split <;> exact ⟨rfl, rfl⟩
  rw [message_eq_iff, hother.1, hother.2, hdestination]

/-- A body is read if it is there as a whole. -/
theorem readBody_eq_message_iff : readBody true k after = some (.message m, rest) ↔
    ∃ body, after = body ++ rest ∧ k.tool = some m.tool ∧ m.destination = k.destination.filter (· ≠ "") ∧
      k.length = some body.length ∧ body.length ≤ maxLength ∧ Holds body m.content := by
  unfold readBody
  constructor
  · intro h
    split at h
    · cases h
    · cases h
    · next tool length htool hlength =>
      split at h
      · cases h
      · next hshort =>
        simp only at h
        split at h
        · next htaken =>
          refine ⟨after.take length, ?_⟩
          rw [htool, hlength, htaken]
          split at h
          · next content hcontent =>
            obtain ⟨hm, rfl⟩ : .ofHeaders tool k.destination content = m ∧ after.drop length = rest := by
              simpa using h
            obtain ⟨rfl, hdestination, rfl⟩ := eq_ofHeaders_iff.mp hm.symm
            exact ⟨(List.take_append_drop ..).symm, rfl, hdestination, rfl, Nat.not_lt.mp hshort,
              contentOf_eq_ok_iff.mp hcontent⟩
          · cases h
        · cases h
  · rintro ⟨body, rfl, htool, hdestination, hlength, hshort, hholds⟩
    rw [htool, hlength]
    simp only [Nat.not_lt.mpr hshort, if_false, List.take_left, if_true, List.drop_left,
      contentOf_eq_ok_iff.mpr hholds, ← eq_ofHeaders_iff.mpr ⟨rfl, hdestination, rfl⟩]

theorem readMessage_eq_message_iff_heading : readMessage input = (.message m, rest) ↔
    ∃ k after, Heading {} input k after ∧ readBody true k after = some (.message m, rest) := by
  rw [← readHeaders_eq_message_iff (Nat.lt_succ_self _)]
  change (readHeaders true (input.length + 1) {} input).getD (.finished, []) = _ ↔ _
  cases readHeaders true (input.length + 1) {} input with
  | none => simp
  | some reading => simp

/-- A message is read from a frame of it. -/
theorem exists_isFrame (h : readMessage input = (.message m, rest)) :
    ∃ blanks lines last fields body, IsFrame input m rest blanks lines last fields body := by
  obtain ⟨k, after, hheading, hbody⟩ := readMessage_eq_message_iff_heading.mp h
  obtain ⟨blanks, lines, last, fields, -, hlines, hlayout, rfl⟩ := heading_iff.mp hheading
  obtain ⟨body, rfl, htool, hdestination, hlength, hshort, hholds⟩ := readBody_eq_message_iff.mp hbody
  refine ⟨blanks, lines, last, fields, body, hlines, hlayout, ?_, hdestination, ?_, hshort, hholds⟩
  · obtain ⟨tool, hlast, hm⟩ := Option.map_eq_some_iff.mp htool
    rw [hlast, ← hm, String.toList_ofList]
  · obtain ⟨value, hlast, hparse⟩ := Option.bind_eq_some_iff.mp hlength
    exact ⟨value, hlast, (Text.parseBelow_eq_some_iff.mp hparse).1⟩

/-- What is read as a message is a frame of it, and every frame is read. -/
theorem readMessage_eq_message_iff : readMessage input = (.message m, rest) ↔
    ∃ blanks lines last fields body, IsFrame input m rest blanks lines last fields body := by
  refine ⟨exists_isFrame, ?_⟩
  rintro ⟨blanks, lines, last, fields, body, h⟩
  have hne : fields ≠ [] := by
    rintro rfl
    cases h.tool
  refine readMessage_eq_message_iff_heading.mpr ⟨heard fields, body ++ rest,
    heading_iff.mpr ⟨_, _, _, _, hne, h.laid, h.heading, rfl⟩, ?_⟩
  obtain ⟨value, hlast, hnumeral⟩ := h.length
  have hshort : body.length < UInt64.size := Nat.lt_of_le_of_lt h.short (by decide)
  refine readBody_eq_message_iff.mpr ⟨body, rfl, ?_, h.destination, ?_, h.short, h.content⟩
  · change (lastValue "Tool" fields).map String.ofList = _
    rw [h.tool, Option.map_some, String.ofList_toList]
  · change (lastValue "Content-Length" fields).bind _ = _
    rw [hlast, Option.bind_some, Text.parseBelow_eq_some_iff.mpr ⟨hnumeral, hshort⟩]

end RemoteDebug.Wire
