import Oxmux.Client.Sockets

/-! Which keystrokes the store writes to the WebSocket: those that a component
gives it for a pane whose session has no direct connection. -/

namespace Oxmux.Client
open Oxmux.Lib Oxmux.Session Oxmux.Ws

/-- The message carries keystrokes. -/
def Msg.isKeys : Msg → Bool
  | i _ _ => true
  | _ => false

namespace Store

/-- `s'` wrote more than `s`, and no keystrokes. -/
def Mute (s s' : Store) : Prop :=
  ∃ msgs, s'.wire = s.wire ++ msgs ∧ ∀ m ∈ msgs, m.2.isKeys = false

theorem Mute.of_eq {s s' : Store} (h : s'.wire = s.wire) : s.Mute s' :=
  ⟨[], by rw [h, List.append_nil], fun _ hm => by cases hm⟩

theorem Mute.trans {s s' s'' : Store} (h : s.Mute s') (h' : s'.Mute s'') : s.Mute s'' := by
  obtain ⟨msgs, hw, hk⟩ := h
  obtain ⟨msgs', hw', hk'⟩ := h'
  refine ⟨msgs ++ msgs', by rw [hw', hw, List.append_assoc], fun m hm => ?_⟩
  rcases List.mem_append.mp hm with hm | hm
  · exact hk m hm
  · exact hk' m hm

/-! ## Sending -/

end Store

end Oxmux.Client
