import Utp.Socket.PacketRun
import Utp.Socket.ReceiveLoop
import Utp.Wire.Grammar

/-!
# A reply on its way back

The receive loop of the other endpoint reads a reply into a buffer of
twenty-six bytes: the header and one SACK word.  A reply with a longer bitmap
does not arrive as it was sent.
-/

namespace Utp

open Foundation

/-!
## The reply as it is sent
-/

/-- The SACK part of a reply that can be read back in full. -/
def carriedSack (sack : List UInt8) : List Extension :=
  if sack.length = 0 then [] else [⟨.selectiveAck, sack⟩]

theorem withSack_chain {reply q : Packet} {sack payload : List UInt8}
    (hplain : reply.HasChain [] payload) (hshort : sack.length < 256)
    (h : withSack reply sack = .ok q) : q.HasChain (carriedSack sack) payload := by
  unfold withSack at h
  unfold carriedSack
  by_cases hsack : sack.length = 0
  · rw [if_neg (not_not.mpr hsack)] at h
    cases h
    rw [if_pos hsack]
    exact hplain
  · rw [if_pos hsack] at h
    rw [if_neg hsack]
    have hlength : Packet.SackLength sack := by
      by_contra hillegal
      have hbytes := Packet.setSack_eq_ok.mp h
      rw [Packet.setSackBytes, if_pos (by unfold Packet.SackLength at hillegal; omega)]
        at hbytes
      cases hbytes
    rcases Packet.setSack_chain hlength hplain with ⟨q', hq', -, -, hchain⟩
    cases hq'.symm.trans h
    rw [Nat.mod_eq_of_lt hshort, List.take_length, List.drop_length] at hchain
    exact hchain

theorem length_encodeBlocks_carriedSack (sack : List UInt8) :
    (encodeBlocks (carriedSack sack)).length =
      if sack.length = 0 then 0 else sack.length + 2 := by
  unfold carriedSack
  split
  · rfl
  · simp [encodeBlocks]

def repliedSack (packet : Packet) (before after : UtpSocketState) : List UInt8 :=
  if before.lastAcked.toNat + 1 < packet.seqNr.toNat then buildSelectiveAck after else []

theorem DataEffect.sack {packet : Packet} {peer peer' : UtpSocketState}
    {sack : List UInt8} (h : DataEffect packet peer peer' sack) :
    sack = repliedSack packet peer peer' := by
  unfold repliedSack
  cases h with
  | inOrder hseq hcount => rw [if_neg (by omega)]
  | early hlt => rw [if_pos hlt]
  | old hle hlast => rw [if_neg (by omega)]

theorem handleData_reply {env : Env} {packet : Packet} {peer : UtpSocketState}
    {o : Outcome} (h : handleData env packet peer = .ok o) :
    exists reply, o.result = .ok (some reply) ∧
      DataEffect packet peer o.peer (repliedSack packet peer o.peer) ∧
      withSack (prepareReply env packet .ack o.peer.seqNr o.peer.lastAcked)
        (repliedSack packet peer o.peer) = .ok reply := by
  rcases bind_eq_ok.mp h with ⟨⟨peer', sack⟩, haccept, h⟩
  rcases bind_eq_ok.mp h with ⟨reply, hreply, h⟩
  cases h
  have heffect := acceptData_eq_ok haccept
  cases heffect.sack
  exact ⟨reply, rfl, heffect, hreply⟩

theorem length_repliedSack_le {packet : Packet} {peer peer' : UtpSocketState}
    {sack : List UInt8} (h : DataEffect packet peer peer' sack) :
    (repliedSack packet peer peer').length <= 4 <->
      (peer.lastAcked.toNat + 1 < packet.seqNr.toNat ->
        packet.seqNr.toNat <= peer.lastAcked.toNat + 32 ∧
        forall k, k ∈ peer.outOfOrder -> k.toNat <= peer.lastAcked.toNat + 32) := by
  unfold repliedSack
  cases h with
  | inOrder hseq hcount =>
      rw [if_neg (by omega)]
      exact iff_of_true (Nat.zero_le _) fun hlt => absurd hlt (by omega)
  | old hle hlast =>
      rw [if_neg (by omega)]
      exact iff_of_true (Nat.zero_le _) fun hlt => absurd hlt (by omega)
  | early hlt =>
      rw [if_pos hlt]
      have hword : (buildSelectiveAck { peer with
          outOfOrder := peer.outOfOrder.insert packet.seqNr
            packet }).length <= 4 * 1 <-> _ :=
        length_buildSelectiveAck_le
      rw [hword]
      simp only [Std.ExtTreeMap.mem_insert, Std.compare_eq_iff_eq]
      constructor
      · intro hall _
        exact ⟨hall _ (Or.inl rfl), fun k hk => hall k (Or.inr hk)⟩
      · intro hall k hk
        rcases hall hlt with ⟨hpacket, hstored⟩
        rcases hk with rfl | hk
        · exact hpacket
        · exact hstored k hk

/-!
## The reply as it arrives
-/

/-- Read into the buffer, the reply parses, acknowledges the same number, and
carries this bitmap. -/
def ReplyArrives (buf : List UInt8) (reply : Packet) (sack : List UInt8) : Prop :=
  exists q,
    toPacket ((recvInto buf reply.bytes).take (recvLen buf reply.bytes)) = .ok q ∧
      q.ackNr = reply.ackNr ∧ q.extensions = .ok (carriedSack sack)

theorem ReplyArrives.length_le {buf sack : List UInt8} {reply : Packet}
    (hbuf : buf.length = 26) (h : ReplyArrives buf reply sack) : sack.length <= 4 := by
  rcases h with ⟨q, hq, -, hextensions⟩
  rw [take_recvInto, take_recvLen hbuf] at hq
  rcases Packet.hasChain_of_tryFrom hq with ⟨exts, payload, hchain, -⟩
  cases hchain.extensions.symm.trans hextensions
  have hlength := Chain.length_eq hchain
  rw [length_encodeBlocks_carriedSack, (Packet.tryFrom_eq_ok.mp hq).1, List.length_drop,
    List.length_take, headerSize] at hlength
  split at hlength <;> omega

theorem replyArrives_of_length_le {buf sack : List UInt8} {reply : Packet}
    (hbuf : buf.length = 26) (hshort : sack.length <= 4)
    (hword : sack.length ≠ 0 -> Packet.SackLength sack)
    (hchain : reply.HasChain (carriedSack sack) []) : ReplyArrives buf reply sack := by
  have hlength := Chain.length_eq hchain
  rw [length_encodeBlocks_carriedSack, List.length_drop, headerSize] at hlength
  have hheader := reply.length_bytes
  rw [headerSize] at hheader
  have hwhole : reply.bytes.take 26 = reply.bytes := by
    apply List.take_of_length_le
    split at hlength
    · rw [List.length_nil] at hlength
      omega
    · rw [List.length_nil] at hlength
      omega
  have hgood : forall e, e ∈ carriedSack sack -> e.WellFormed := by
    intro e he
    unfold carriedSack at he
    split at he
    · cases he
    · rename_i hsack
      cases List.mem_singleton.mp he
      exact ⟨Nat.pos_of_ne_zero hsack, (hword hsack).2⟩
  exists reply
  refine ⟨?_, rfl, hchain.extensions⟩
  rw [take_recvInto, take_recvLen hbuf, hwhole]
  exact Packet.tryFrom_eq_ok.mpr
    ⟨rfl, checkExtensions_of_chain reply.length_bytes hchain hgood⟩

/-!
## Runs
-/

/-- In every run a reply arrives as it was sent exactly when there is nothing to
report, or nothing more than thirty-two numbers ahead. -/
theorem reply_arrives_iff {start peer : UtpSocketState} {inputs : List (Env × Packet)}
    {outcomes : List Outcome} {env : Env} {packet : Packet} {o : Outcome}
    {socket : UtpSocket} {arrivals : List Arrival} {peers : Peers} {loop : LoopState}
    (hstate : start.state = .connected) (hdata : DataOnly inputs)
    (hrun : runPackets inputs start = .ok (peer, outcomes))
    (htype : packet.getType = .data) (ho : handlePacket env packet peer = .ok o)
    (hloop : startReceiving socket arrivals (LoopState.initial peers) = .ok loop) :
    exists reply, o.result = .ok (some reply) ∧
      (ReplyArrives loop.buf reply (repliedSack packet peer o.peer) <->
        (peer.lastAcked.toNat + 1 < packet.seqNr.toNat ->
          packet.seqNr.toNat <= peer.lastAcked.toNat + 32 ∧
          forall k, k ∈ peer.outOfOrder -> k.toNat <= peer.lastAcked.toNat + 32)) := by
  have hbuf : loop.buf.length = 26 := length_buf_startReceiving hloop
  have hconnected := runPackets_connected hstate hdata hrun
  rw [handlePacket_data hconnected htype] at ho
  rcases handleData_reply ho with ⟨reply, hresult, heffect, hreply⟩
  refine ⟨reply, hresult, ?_⟩
  rw [← length_repliedSack_le heffect]
  constructor
  · intro harrives
    exact harrives.length_le hbuf
  · intro hshort
    refine replyArrives_of_length_le hbuf hshort ?_
      (withSack_chain (hasChain_prepareReply ..) (by omega) hreply)
    intro hsack
    unfold repliedSack at hsack ⊢
    split at hsack
    · rename_i hahead
      rw [if_pos hahead]
      exact sackLength_buildSelectiveAck hsack
    · exact absurd rfl hsack

def answeredPeer : UtpSocketState :=
  (handleNewSyn (healthyEnv 8) (barePacket .syn 1 0) (.new 0)).peer

theorem reply_of_early (n : UInt16) (length : Nat)
    (h : (runPackets [incoming .data 3 0] answeredPeer).toOption.bind (fun r =>
      (handlePacket (healthyEnv 8) (barePacket .data n 0) r.1).toOption.map
        fun o => (r.1.lastAcked, r.1.outOfOrder.toList.map Prod.fst,
          (repliedSack (barePacket .data n 0) r.1 o.peer).length)) =
            some (1, [3], length)) :
    exists peer outcomes o,
      runPackets [incoming .data 3 0] answeredPeer = .ok (peer, outcomes) ∧
      handlePacket (healthyEnv 8) (barePacket .data n 0) peer = .ok o ∧
      peer.lastAcked = 1 ∧ (forall k, k ∈ peer.outOfOrder -> k = 3) ∧
      (repliedSack (barePacket .data n 0) peer o.peer).length = length := by
  rcases Option.bind_eq_some_iff.mp h with ⟨⟨peer, outcomes⟩, hrun, h⟩
  rcases Option.map_eq_some_iff.mp h with ⟨o, ho, hfacts⟩
  rcases Prod.mk.inj hfacts with ⟨hlast, hfacts⟩
  rcases Prod.mk.inj hfacts with ⟨hkeys, hlength⟩
  refine ⟨peer, outcomes, o, toOption_eq_some.mp hrun, toOption_eq_some.mp ho, hlast,
    ?_, hlength⟩
  intro k hk
  have hkey := mem_keys_toList.mpr hk
  rw [hkeys] at hkey
  exact List.mem_singleton.mp hkey

theorem dataOnly_incoming (seqNr ackNr : UInt16) :
    DataOnly [incoming .data seqNr ackNr] := by
  intro input hinput
  cases List.mem_singleton.mp hinput
  exact getType_barePacket .data seqNr ackNr

/-- Thirty-two numbers ahead, the bitmap still fits. -/
theorem reply_arrives_within_word :
    exists peer outcomes o reply,
      runPackets [incoming .data 3 0] answeredPeer = .ok (peer, outcomes) ∧
      handlePacket (healthyEnv 8) (barePacket .data 33 0) peer = .ok o ∧
      o.result = .ok (some reply) ∧
      (repliedSack (barePacket .data 33 0) peer o.peer).length = 4 ∧
      ReplyArrives (List.replicate 26 0) reply
        (repliedSack (barePacket .data 33 0) peer o.peer) := by
  rcases reply_of_early 33 4 (by decide +kernel) with
    ⟨peer, outcomes, o, hrun, ho, hlast, hkeys, hlength⟩
  rcases @reply_arrives_iff answeredPeer peer [incoming .data 3 0] outcomes
    (healthyEnv 8) (barePacket .data 33 0) o plainSocket [] (fun _ => none)
    (LoopState.initial fun _ => none) rfl (dataOnly_incoming 3 0) hrun
    (getType_barePacket .data 33 0) ho rfl with ⟨reply, hreply, harrives⟩
  refine ⟨peer, outcomes, o, reply, hrun, ho, hreply, hlength, harrives.mpr ?_⟩
  rw [hlast]
  intro _
  refine ⟨by decide, ?_⟩
  intro k hk
  rw [hkeys k hk]
  decide

/-- One number further, the bitmap takes two words, and the reply of thirty
bytes is cut off inside of them. -/
theorem reply_cut_off :
    exists peer outcomes o reply,
      answeredPeer.state = .connected ∧ DataOnly [incoming .data 3 0] ∧
      runPackets [incoming .data 3 0] answeredPeer = .ok (peer, outcomes) ∧
      handlePacket (healthyEnv 8) (barePacket .data 34 0) peer = .ok o ∧
      o.result = .ok (some reply) ∧
      ¬ ReplyArrives (LoopState.initial fun _ => none).buf reply
        (repliedSack (barePacket .data 34 0) peer o.peer) := by
  rcases reply_of_early 34 8 (by decide +kernel) with
    ⟨peer, outcomes, o, hrun, ho, -, -, hlength⟩
  have hconnected : peer.state = .connected :=
    runPackets_connected rfl (dataOnly_incoming 3 0) hrun
  have hdata := ho
  rw [handlePacket_data hconnected (getType_barePacket .data 34 0)] at hdata
  rcases handleData_reply hdata with ⟨reply, hreply, -, -⟩
  refine ⟨peer, outcomes, o, reply, rfl, dataOnly_incoming 3 0, hrun, ho, hreply, ?_⟩
  intro harrives
  have hshort := harrives.length_le rfl
  change (repliedSack (barePacket .data 34 0) peer o.peer).length = 8 at hlength
  omega

end Utp
