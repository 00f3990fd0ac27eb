import Utp.Foundation.Unwinding
import Utp.Socket.StaleBytes
import Utp.Transport.Host

/-!
# Independent conversations

A socket has one map of peers, one buffer, and one channel for all of its peers.
Nevertheless each conversation goes on as if it were the only one: what is done for
other addresses shows in it nowhere but in the stale bytes behind the payload of the
packets that are forwarded.
-/

namespace Utp

open Foundation
open Std (ExtTreeMap)

/-- The same action, with any other bytes in the buffer of the receive loop. -/
inductive SameAction : HostAction -> HostAction -> Prop where
  | connect (addr : SocketAddr) (env : ConnectEnv) :
      SameAction (.connect addr env) (.connect addr env)
  | write (target : Addressee) (env : Env) (buf : List UInt8) :
      SameAction (.write target env buf) (.write target env buf)
  | receive (arrival : Arrival) {buf buf' : List UInt8} : buf'.length = buf.length ->
      SameAction (.receive arrival buf) (.receive arrival buf')

/-!
## Writing
-/

section Write

variable {env : Env} {id : UInt16} {buf : List UInt8} {addr : SocketAddr}
  (peer : UtpSocketState) (buffer : List Packet) (store : PacketMap)

end Write

/-!
## One step
-/

section Step

variable {socket : UtpSocket} {s t s' : Host} {addr : SocketAddr}

end Step

/-!
## Runs
-/

theorem SameAction.refl (action : HostAction) : SameAction action action := by
  cases action with
  | connect addr env => exact .connect addr env
  | write target env buf => exact .write target env buf
  | receive arrival buf => exact .receive arrival rfl

section Loop

variable {socket : UtpSocket} {arrivals arrivals' : List Arrival} {loop loop' : LoopState}
  {addr : SocketAddr} {size : Nat} {actions actions' : List HostAction}

structure Unread (peers : Peers) : Prop where
  wired : forall addr peer, peers addr = some peer -> peer.connectedTo = some addr
  incomingBuffer : forall addr peer, peers addr = some peer -> peer.incomingBuffer = []
  outOfOrder : forall addr peer, peers addr = some peer -> peer.outOfOrder = ∅

theorem Unread.alike {peers : Peers} (h : Unread peers) (addr : SocketAddr) :
    Option.Rel AlikePeers (peers addr) (peers addr) := by
  cases hentry : peers addr with
  | none => exact .none
  | some peer =>
      refine .some (.of_eq rfl ?_ ?_)
      · rw [h.incomingBuffer addr peer hentry]
        exact .nil
      · rw [h.outOfOrder addr peer hentry]
        exact .empty

end Loop

end Utp
