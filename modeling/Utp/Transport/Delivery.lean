import Utp.Transport.Refinement

/-!
# Delivery and cumulative acknowledgement

What the refinement says about one-way transport: the server outputs a front of
what was written, nothing is dropped before the server has it, and an
acknowledgement is cumulative exactly when it is at most one ahead of the last
one.
-/

namespace Utp

open Foundation
open Foundation.SelectiveRepeat

namespace OneWay

theorem established_openPeer (a b : SocketAddr) :
    Established 1 (openPeer a) (openPeer b) where
  client_state := rfl
  client_lastAcked := rfl
  client_seqNr := rfl
  client_sentWindow := rfl
  server_state := rfl
  server_lastAcked := rfl
  server_outOfOrder := rfl
  server_incomingBuffer := rfl

/-!
## Safe delivery
-/

theorem Refines.pushed_payloads {base limit : Nat} {s : OneWay} {c : Config Packet}
    (h : Refines base limit s c) :
    exists payloads, s.pushed.mapM Packet.payload = .ok payloads ∧
      payloads.flatten <+: s.written.flatten := by
  rcases h.payloads with ⟨chunks, hall, hflat⟩
  have htake : s.pushed = s.created.take c.output.length := by
    rw [← h.output, ← h.written]
    exact h.invariant.output_eq
  refine ⟨chunks.take c.output.length, ?_, ?_⟩
  · rw [htake]
    exact mapM_payload (List.forall₂_take _ hall)
  · rw [← hflat]
    refine ⟨(chunks.drop c.output.length).flatten, ?_⟩
    rw [← List.flatten_append, List.take_append_drop]

theorem Refines.not_lost {base limit : Nat} {s : OneWay} {c : Config Packet}
    (h : Refines base limit s c) {p : Packet} (hp : p ∈ s.created) :
    s.client.sentWindow[p.seqNr]? = some p ∨ p ∈ s.pushed ∨
      s.server.outOfOrder[p.seqNr]? = some p := by
  rcases List.mem_iff_getElem?.mp hp with ⟨i, hi⟩
  have hnumber := (h.items i p hi).2
  rw [← h.written] at hi
  rcases h.invariant.nothing_lost i (List.getElem?_eq_some_iff.mp hi).1 with
    hout | hlt | ⟨q, hq⟩
  · exact Or.inl ((h.sender.window p.seqNr p).mpr ⟨i, hout, hi, hnumber⟩)
  · refine Or.inr (Or.inl ?_)
    rw [← h.output, h.invariant.output_eq]
    exact List.mem_of_getElem? ((List.getElem?_take_of_lt hlt).trans hi)
  · have hsame := h.invariant.buffer_written hq
    cases hi.symm.trans hsame
    exact Or.inr (Or.inr ((h.receiver.buffer p.seqNr p).mpr ⟨i, hq, hnumber⟩))

/-- The server delivers a front of what the client wrote, and a packet leaves
the client's window only when the server has it. -/
theorem delivery_safe {client server : UtpSocketState} {actions : List Action}
    {s : OneWay} (h : Established 1 client server)
    (hrun : run (step 60000) (initial client server) actions = some s) :
    (exists payloads, s.pushed.mapM Packet.payload = .ok payloads ∧
      payloads.flatten <+: s.written.flatten) ∧
    forall p, p ∈ s.created ->
      s.client.sentWindow[p.seqNr]? = some p ∨ p ∈ s.pushed ∨
        s.server.outOfOrder[p.seqNr]? = some p := by
  rcases refines_reachable (by decide) ⟨client, server, actions, h, hrun⟩ with ⟨c, hc⟩
  exact ⟨hc.pushed_payloads, fun p hp => hc.not_lost hp⟩

/-- Two packets, the second one delivered first and acknowledged by its SACK
bit, the first one delivered and acknowledged behind it. -/
def reorderedRun : List Action :=
  [ .write (healthyEnv 7) [1, 2, 3, 4, 5, 6, 7, 8, 9] (loopback 2),
    .deliverData (healthyEnv 8) 1,
    .deliverAck (healthyEnv 7) 0,
    .deliverData (healthyEnv 8) 0,
    .forward fun _ => .ok (),
    .deliverAck (healthyEnv 7) 1 ]

theorem delivery_safe_reordered :
    exists s, run (step 60000)
        (initial (openPeer (loopback 2)) (openPeer (loopback 1))) reorderedRun = some s ∧
      s.pushed.length = 2 ∧
      (exists payloads, s.pushed.mapM Packet.payload = .ok payloads ∧
        payloads.flatten <+: s.written.flatten) ∧
      forall p, p ∈ s.created ->
        s.client.sentWindow[p.seqNr]? = some p ∨ p ∈ s.pushed ∨
          s.server.outOfOrder[p.seqNr]? = some p := by
  have hpushed : (run (step 60000)
      (initial (openPeer (loopback 2)) (openPeer (loopback 1))) reorderedRun).map
        (fun s => s.pushed.length) = some 2 := by
    decide +kernel
  rcases Option.map_eq_some_iff.mp hpushed with ⟨s, hrun, hlength⟩
  exact ⟨s, hrun, hlength, delivery_safe (established_openPeer _ _) hrun⟩

/-!
## Cumulative acknowledgement
-/

/-- An acknowledgement at or ahead of the mark covers everything up to its
number exactly when it is at most one ahead. -/
theorem ack_covers_iff {base limit : Nat} (hlimit : base + 1 + limit <= 65535)
    {s : OneWay} (h : Reachable base limit s) {env : Env} {q : Packet} {o : Outcome}
    (hq : q ∈ s.toClient) (hahead : s.client.lastAcked.toNat <= q.ackNr.toNat)
    (ho : handlePacket env q s.client = .ok o) :
    (o.peer.lastAcked = q.ackNr ∧
      forall k, k ∈ o.peer.sentWindow -> q.ackNr.toNat < k.toNat) <->
    q.ackNr.toNat <= s.client.lastAcked.toNat + 1 := by
  rcases refines_reachable hlimit h with ⟨c, hc⟩
  rcases hc.acks q hq with ⟨a, ha, hview⟩
  rcases hview.sack with ⟨exts, payload, hchain, -⟩
  rw [handlePacket_ack hc.sender.state hview.getType_eq] at ho
  rcases handleAck_eq_ok ho with ⟨counted, -, lost, -, heffect, -, hlost, -, -⟩
  rcases (getLostSeqNr_eq_ok hchain hlost).window with ⟨acked, hpeer, -⟩
  have hlast : o.peer.lastAcked = counted.lastAcked := by rw [hpeer]
  rcases hc.countAck ha hview heffect with ⟨c', -, -, hc'⟩
  -- whatever is left in the window lies behind the mark
  have hwindow : forall k, k ∈ o.peer.sentWindow ->
      counted.lastAcked.toNat < k.toNat := by
    intro k hk
    rcases mem_iff_getElem?.mp hk with ⟨p, hp⟩
    rw [hpeer] at hp
    exact hc'.lastAcked_lt (eraseAll_kept hp)
  rw [hlast]
  constructor
  · intro hcase
    rcases hcase with ⟨hsame, -⟩
    cases heffect with
    | repeated heq =>
        rw [heq]
        omega
    | next hnext => omega
    | ignored hne => exact absurd hsame.symm hne
  · intro hle
    have hsame : counted.lastAcked = q.ackNr := by
      cases heffect with
      | repeated heq => exact heq.symm
      | next => rfl
      | ignored hne hnotNext =>
          have hdiff : q.ackNr.toNat ≠ s.client.lastAcked.toNat := fun heq =>
            hne (UInt16.toNat_inj.mp heq)
          omega
    exact ⟨hsame, fun k hk => hsame ▸ hwindow k hk⟩

/-- Two packets delivered in order, so two replies are on the wire. -/
def twoReplies : List Action :=
  [ .write (healthyEnv 7) [1, 2, 3, 4, 5, 6, 7, 8, 9] (loopback 2),
    .deliverData (healthyEnv 8) 0,
    .deliverData (healthyEnv 8) 1 ]

def handleReply (index : Nat) : Option (OneWay × Packet × Outcome) := do
  let s <- run (step 60000)
    (initial (openPeer (loopback 2)) (openPeer (loopback 1))) twoReplies
  let q <- s.toClient[index]?
  let o <- (handlePacket (healthyEnv 7) q s.client).toOption
  return (s, q, o)

theorem handleReply_eq_some {index : Nat} {s : OneWay} {q : Packet} {o : Outcome}
    (h : handleReply index = some (s, q, o)) :
    Reachable 1 60000 s ∧ q ∈ s.toClient ∧
      handlePacket (healthyEnv 7) q s.client = .ok o := by
  rcases Option.bind_eq_some_iff.mp h with ⟨s', hrun, h⟩
  rcases Option.bind_eq_some_iff.mp h with ⟨q', hq, h⟩
  rcases Option.bind_eq_some_iff.mp h with ⟨o', ho, h⟩
  cases h
  exact ⟨⟨_, _, _, established_openPeer _ _, hrun⟩, List.mem_of_getElem? hq,
    toOption_eq_some.mp ho⟩

theorem ack_covers_first_reply :
    exists s q o, handleReply 0 = some (s, q, o) ∧ o.peer.lastAcked = q.ackNr ∧
      forall k, k ∈ o.peer.sentWindow -> q.ackNr.toNat < k.toNat := by
  have hreply : (handleReply 0).map (fun r =>
      (r.1.client.lastAcked, r.2.1.ackNr)) = some (1, 2) := by
    decide +kernel
  rcases Option.map_eq_some_iff.mp hreply with ⟨⟨s, q, o⟩, hrun, hnumbers⟩
  injection hnumbers with hlast hack
  rcases handleReply_eq_some hrun with ⟨hreachable, hq, ho⟩
  simp only at hlast hack
  exact ⟨s, q, o, hrun, (ack_covers_iff (by decide) hreachable hq
    (by rw [hlast, hack]; decide) ho).mpr (by rw [hlast, hack]; decide)⟩

/-- The first reply is lost: the second one is two ahead of the mark, and the
sender ignores it. -/
theorem ack_skipped_ignored :
    exists s q o, Reachable 1 60000 s ∧ q ∈ s.toClient ∧
      s.client.lastAcked.toNat <= q.ackNr.toNat ∧
      handlePacket (healthyEnv 7) q s.client = .ok o ∧
      ¬ (o.peer.lastAcked = q.ackNr ∧
        forall k, k ∈ o.peer.sentWindow -> q.ackNr.toNat < k.toNat) := by
  have hreply : (handleReply 1).map (fun r =>
      (r.1.client.lastAcked, r.2.1.ackNr, r.2.2.peer.lastAcked)) =
        some (1, 3, 1) := by
    decide +kernel
  rcases Option.map_eq_some_iff.mp hreply with ⟨⟨s, q, o⟩, hrun, hnumbers⟩
  injection hnumbers with hlast hnumbers
  injection hnumbers with hack hafter
  rcases handleReply_eq_some hrun with ⟨hreachable, hq, ho⟩
  simp only at hlast hack hafter
  refine ⟨s, q, o, hreachable, hq, by rw [hlast, hack]; decide, ho, ?_⟩
  intro hcase
  rcases hcase with ⟨hsame, -⟩
  rw [hafter, hack] at hsame
  exact absurd hsame (by decide)

end OneWay

end Utp
