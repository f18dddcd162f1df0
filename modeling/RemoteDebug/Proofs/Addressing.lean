import RemoteDebug.Proofs.Roundtrip
import RemoteDebug.Proofs.Routing

/-! Requests to a tab, from the command to the tab.

A request names its command and has its payload beside that, one level down, so no key of the payload is
taken for one of the request's own. The id of the tab is written as a numeral that is read as that id.
So what is written for a tab is read as it was, and is handed to the tab that is registered under the id. -/
namespace RemoteDebug

open Protocol Wire

variable {c : DebuggerCommand} {tab : TabId}

namespace Protocol.DebuggerCommand

/-- A payload that is passed on holds no double, has its keys in order, and leaves room for the level that
the request puts around it. Every script can be passed on. -/
def Portable : DebuggerCommand → Prop
  | .request payload => payload.Exact ∧ payload.Canonical ∧ payload.depth ≤ 126
  | .attach | .detach | .evaluate _ => True

theorem Portable.data (h : c.Portable) : ∀ v ∈ c.data?, v.Exact ∧ v.Canonical ∧ v.depth ≤ 126 := by
  intro v hv
  cases c with
  | attach => cases hv
  | detach => cases hv
  | request payload =>
    obtain rfl := Option.some.inj hv
    exact h
  | evaluate script =>
    obtain rfl := Option.some.inj hv
    exact ⟨trivial, trivial, Nat.zero_le _⟩

theorem command_lt_data : "command" < "data" := by decide

/-- The fields of a request, which stand in the order of their keys. -/
theorem content_eq (c : DebuggerCommand) :
    c.content = .obj (("command", .str c.name) :: (c.data?.map ("data", ·)).toList) := by
  unfold content
  cases c.data? with
  | none => rfl
  | some v => exact congrArg Json.obj (Json.Reader.insert_last fun f hf => List.mem_singleton.mp hf ▸ command_lt_data)

theorem field?_command (c : DebuggerCommand) : c.content.field? "command" = some (.str c.name) := by
  rw [content_eq]
  rfl

theorem field?_data (c : DebuggerCommand) : c.content.field? "data" = c.data? := by
  rw [content_eq]
  cases c.data? <;> rfl

theorem Portable.content (h : c.Portable) :
    c.content.Exact ∧ c.content.Canonical ∧ c.content.depth ≤ 127 := by
  have hdata := h.data
  rw [content_eq]
  cases hd : c.data? with
  | none => exact ⟨⟨trivial, trivial⟩, ⟨List.pairwise_singleton .., trivial, trivial⟩, Nat.le_of_ble_eq_true rfl⟩
  | some v =>
    obtain ⟨exact, canonical, nested⟩ := hdata v hd
    refine ⟨⟨trivial, exact, trivial⟩, ⟨?_, trivial, canonical, trivial⟩, ?_⟩
    · exact List.pairwise_pair.mpr command_lt_data
    · show max 0 (max v.depth 0) + 1 ≤ 127
      omega

/-- The destination of a request is read as the tab it was written for. -/
theorem tab?_toMessage (c : DebuggerCommand) (tab : TabId) : (c.toMessage tab).tab? = some tab := by
  unfold Message.tab?
  rw [(toMessage_parts c tab).2.1, Option.getD_some, Message.tabText, String.toList_ofList]
  exact Text.parseUInt32_eq_some_iff.mpr (Text.numeral_digits _)

theorem tool?_toMessage (c : DebuggerCommand) (tab : TabId) : (c.toMessage tab).tool? = some .v8Debugger := by
  unfold Message.tool?
  rw [(toMessage_parts c tab).1]
  exact Tool.ofName?_name .v8Debugger

end Protocol.DebuggerCommand

namespace Engine.State

/-- A request with a payload that can be passed on is read back as it was written, whatever follows it, exactly if
its body is no longer than is allowed. What is read is for the debugger, has the name of the command and the very
payload in their fields, and is handed to the tab that is registered under the id, or to nobody. -/
theorem request_reaches_its_tab (portable : c.Portable) (tab : TabId) (rest : Octets) :
    (readMessage (encode (c.toMessage tab) ++ rest) = (.message (c.toMessage tab), rest) ↔
        (body (c.toMessage tab)).length ≤ 64 * 1024 * 1024) ∧
      (c.toMessage tab).tool? = some .v8Debugger ∧
      (c.toMessage tab).content.field? "command" = some (.str c.name) ∧
      (c.toMessage tab).content.field? "data" = c.data? ∧
      ∀ s : State, s.config.routes.get .v8Debugger = some .tab →
        s.recipient (c.toMessage tab) = (s.registered? tab).elim (.nobody none) .tab := by
  obtain ⟨exact, canonical, nested⟩ := portable.content
  have hcontent := (toMessage_parts c tab).2.2
  refine ⟨?_, c.tool?_toMessage tab, ?_, ?_, fun s route => ?_⟩
  · rw [readMessage_encode (hcontent ▸ exact) (hcontent ▸ canonical), sendable_toMessage]
    exact and_iff_right nested
  · rw [hcontent, c.field?_command]
  · rw [hcontent, c.field?_data]
  · exact recipient_of_destination (c.tool?_toMessage tab) route (c.tab?_toMessage tab)

/-- A payload with the keys of a request and a text that looks like a header. -/
def disguised : DebuggerCommand :=
  .request (.obj [("command", .str "attach"), ("data", .str "\r\nDestination:1\r\n\r\n")])

/-- The greatest id, with the tab of the id below it registered beside it, and without any. -/
theorem disguised_request_reaches_last_tab :
    readMessage (encode (disguised.toMessage 4294967295) ++ [0x41]) =
        (.message (disguised.toMessage 4294967295), [0x41]) ∧
      ({ registry := [(4294967294, 0), (4294967295, 1)] } : State).recipient (disguised.toMessage 4294967295) = .tab 1 ∧
      ({} : State).recipient (disguised.toMessage 4294967295) = .nobody none := by
  have portable : disguised.Portable :=
    ⟨⟨trivial, trivial, trivial⟩, ⟨List.pairwise_pair.mpr (by decide), trivial, trivial, trivial⟩, by decide⟩
  obtain ⟨hread, -, -, -, hrecipient⟩ := request_reaches_its_tab portable 4294967295 [0x41]
  refine ⟨hread.mpr ?_, hrecipient _ rfl, hrecipient _ rfl⟩
  unfold body
  rw [(toMessage_parts _ _).2.2]
  decide

end Engine.State

end RemoteDebug
