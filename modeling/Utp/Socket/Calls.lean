import Utp.Foundation.Transition
import Utp.Socket.PacketRun

/-!
# The calls of a run

A peer state handles a list of packets one after the other.  The calls that
complete form a history; one that aborts ends it.
-/

namespace Utp

open Foundation

/-- A completed call of `handle_packet`. -/
structure Call where
  env : Env
  packet : Packet
  before : UtpSocketState
  outcome : Outcome
  completed : handlePacket env packet before = .ok outcome

namespace Call

def after (c : Call) : UtpSocketState := c.outcome.peer

theorem handles (c : Call) : Handles c.env c.packet c.before c.outcome :=
  handlePacket_eq_ok c.completed

end Call

def callsOf : List (Env × Packet) -> UtpSocketState -> List Call
  | [], _ => []
  | (env, packet) :: inputs, peer =>
      match h : handlePacket env packet peer with
      | .error _ => []
      | .ok outcome =>
          { env := env, packet := packet, before := peer, outcome := outcome,
            completed := h } :: callsOf inputs outcome.peer

theorem callsOf_cons {env : Env} {packet : Packet} {peer : UtpSocketState} {o : Outcome}
    (inputs : List (Env × Packet)) (h : handlePacket env packet peer = .ok o) :
    exists c : Call, c.packet = packet ∧ c.before = peer ∧ c.outcome = o ∧
      callsOf ((env, packet) :: inputs) peer = c :: callsOf inputs o.peer := by
  rw [callsOf]
  split
  · rename_i e herror
    cases h.symm.trans herror
  · rename_i o' hcompleted
    cases h.symm.trans hcompleted
    exact ⟨_, rfl, rfl, rfl, rfl⟩

theorem linked_callsOf (inputs : List (Env × Packet)) (peer : UtpSocketState) :
    Linked Call.before Call.after peer (callsOf inputs peer) := by
  induction inputs generalizing peer with
  | nil => exact trivial
  | cons input inputs ih =>
      rcases input with ⟨env, packet⟩
      rw [callsOf]
      split
      · exact trivial
      · exact ⟨rfl, ih _⟩

theorem callsOf_packet {inputs : List (Env × Packet)} {peer : UtpSocketState} {c : Call}
    (hc : c ∈ callsOf inputs peer) : (c.env, c.packet) ∈ inputs := by
  induction inputs generalizing peer with
  | nil => cases hc
  | cons input inputs ih =>
      rcases input with ⟨env, packet⟩
      rw [callsOf] at hc
      split at hc
      · cases hc
      · rcases List.mem_cons.mp hc with rfl | hc
        · exact List.mem_cons_self ..
        · exact List.mem_cons_of_mem _ (ih hc)

end Utp
