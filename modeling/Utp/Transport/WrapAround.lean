import Utp.Socket.Renumber

/-!
# Wrap-around

A run on renumbered inputs is the renumbered run, as long as the numbers of the
run lie in one range that the renumbering does not split.  Behind the greatest
number the comparisons of the arms go the other way.
-/

namespace Utp

open Foundation

def InputInside (lo hi : Nat) (packet : Packet) : Prop :=
  (packet.getType = .data -> Inside lo hi packet.seqNr) ∧
    (packet.getType = .ack -> Inside lo hi packet.ackNr ∧
      forall exts, packet.extensions = .ok exts -> SackInside lo hi packet exts)

/-- The numbers of a run: those of the state, those of the inputs, and as many
numbers behind `seqNr` as there are `Data` packets. -/
structure RunInside (lo hi : Nat) (inputs : List (Env × Packet))
    (peer : UtpSocketState) : Prop where
  numbers : NumbersInside lo hi peer
  packets : forall input, input ∈ inputs -> InputInside lo hi input.2
  seqNr_low : lo <= peer.seqNr.toNat
  seqNr_high : peer.seqNr.toNat + (ofType .data inputs).length < hi

def renumberInputs (d : UInt16) (inputs : List (Env × Packet)) : List (Env × Packet) :=
  inputs.map fun input => (input.1, input.2.renumber d)

section Run

variable {d : UInt16} {lo hi : Nat} {env : Env} {packet : Packet}
  {peer peer' : UtpSocketState} {inputs : List (Env × Packet)} {o : Outcome}

/-!
## The numbers stay inside
-/

theorem inside_lastKey {start : UInt16} {entries : List (UInt16 × Packet)}
    (hstart : Inside lo hi start) (hkeys : forall e, e ∈ entries -> Inside lo hi e.1) :
    Inside lo hi (lastKey start entries) := by
  induction entries generalizing start with
  | nil => exact hstart
  | cons entry entries ih =>
      exact ih (hkeys entry (List.mem_cons_self ..))
        fun e he => hkeys e (List.mem_cons_of_mem _ he)

theorem DataEffect.numbersInside {sack : List UInt8}
    (h : DataEffect packet peer peer' sack) (hpeer : NumbersInside lo hi peer)
    (hpacket : Inside lo hi packet.seqNr) : NumbersInside lo hi peer' := by
  cases h with
  | inOrder =>
      have hfollowing : forall e, e ∈ following packet peer -> Inside lo hi e.1 :=
        fun e he => hpeer.outOfOrder e.1
          (mem_of_mem_toList ((continuing_front ..).subset he))
      exact
        { lastAcked := inside_lastKey hpacket hfollowing
          outOfOrder := fun k hk => hpeer.outOfOrder k (mem_of_mem_eraseAll hk)
          sentWindow := hpeer.sentWindow }
  | early => exact hpeer.insert hpacket
  | old => exact hpeer

theorem handleAck_numbersInside (h : handleAck env packet peer = .ok o)
    (hpeer : NumbersInside lo hi peer) (hpacket : Inside lo hi packet.ackNr) :
    NumbersInside lo hi o.peer := by
  rcases handleAck_eq_ok h with ⟨counted, reply, lost, status, hcount, -, hlost, -⟩
  have hcounted := hcount.numbersInside hpeer hpacket
  rcases getLostSeqNr_peer hlost with ⟨hframe, hlast⟩
  exact
    { lastAcked := by
        rw [hlast]
        exact hcounted.lastAcked
      outOfOrder := by
        rw [hframe.outOfOrder]
        exact hcounted.outOfOrder
      sentWindow := by
        intro k hk
        rcases mem_iff_getElem?.mp hk with ⟨v, hv⟩
        exact hcounted.sentWindow k
          (mem_iff_getElem?.mpr ⟨v, getLostSeqNr_kept hlost hv⟩) }

theorem RunInside.data (htop : hi < 65536)
    (h : RunInside lo hi ((env, packet) :: inputs) peer)
    (htype : packet.getType = .data) (ho : handleData env packet peer = .ok o) :
    RunInside lo hi inputs o.peer := by
  rcases handleData_effect ho with ⟨sack, heffect⟩
  have hpacket := (h.packets _ (List.mem_cons_self ..)).1 htype
  have hlow := h.seqNr_low
  have hhigh := h.seqNr_high
  rw [ofType_cons_of_eq htype, List.length_cons] at hhigh
  have hseq : o.peer.seqNr.toNat = peer.seqNr.toNat ∨
      o.peer.seqNr.toNat = peer.seqNr.toNat + 1 := by
    rcases heffect.counters with ⟨-, hnext, -⟩ | ⟨-, hsame, -⟩
    · refine Or.inr ?_
      rw [hnext, UInt16.toNat_add, UInt16.toNat_one]
      omega
    · exact Or.inl (by rw [hsame])
  exact
    { numbers := heffect.numbersInside h.numbers hpacket
      packets := fun input hinput => h.packets input (List.mem_cons_of_mem _ hinput)
      seqNr_low := by omega
      seqNr_high := by omega }

theorem RunInside.ack (h : RunInside lo hi ((env, packet) :: inputs) peer)
    (htype : packet.getType = .ack) (ho : handleAck env packet peer = .ok o) :
    RunInside lo hi inputs o.peer := by
  have hpacket := (h.packets _ (List.mem_cons_self ..)).2 htype
  have hhigh := h.seqNr_high
  rw [ofType_cons_of_ne (by rw [htype]; decide)] at hhigh
  have hseq := (handleAck_frame ho).1.seqNr
  exact
    { numbers := handleAck_numbersInside ho h.numbers hpacket.1
      packets := fun input hinput => h.packets input (List.mem_cons_of_mem _ hinput)
      seqNr_low := by
        rw [hseq]
        exact h.seqNr_low
      seqNr_high := by
        rw [hseq]
        exact hhigh }

/-!
## Renumbered runs
-/

theorem runPackets_renumber (hd : Unsplit d lo hi) (hstate : peer.state = .connected)
    (htypes : DataAndAcks inputs) (hinside : RunInside lo hi inputs peer) :
    runPackets (renumberInputs d inputs) (peer.renumber d) =
      (runPackets inputs peer).map fun r =>
        (r.1.renumber d, r.2.map (Outcome.renumber d)) := by
  induction inputs generalizing peer with
  | nil => rfl
  | cons input inputs ih =>
      rcases input with ⟨env, packet⟩
      have hinput := hinside.packets _ (List.mem_cons_self ..)
      have hstate' : (peer.renumber d).state = .connected := hstate
      have hcall : handlePacket env (packet.renumber d) (peer.renumber d) =
          (handlePacket env packet peer).map (Outcome.renumber d) ∧
          forall o, handlePacket env packet peer = .ok o ->
            o.peer.state = .connected ∧ RunInside lo hi inputs o.peer := by
        rcases htypes _ (List.mem_cons_self ..) with htype | htype
        · have htype' : (packet.renumber d).getType = .data := by
            rw [getType_renumber, htype]
          rw [handlePacket_data hstate htype, handlePacket_data hstate' htype']
          refine ⟨handleData_renumber hd hinside.numbers ?_ (hinput.1 htype), ?_⟩
          · have hhigh := hinside.seqNr_high
            exact ⟨hinside.seqNr_low, by omega⟩
          · intro o ho
            rcases handleData_effect ho with ⟨sack, heffect⟩
            exact ⟨heffect.state.trans hstate, hinside.data hd.top htype ho⟩
        · have htype' : (packet.renumber d).getType = .ack := by
            rw [getType_renumber, htype]
          rw [handlePacket_ack hstate htype, handlePacket_ack hstate' htype']
          rcases hinput.2 htype with ⟨hack, hsack⟩
          refine ⟨handleAck_renumber hd hinside.numbers hack hsack, ?_⟩
          intro o ho
          exact ⟨(handleAck_frame ho).1.state.trans hstate, hinside.ack htype ho⟩
      refine bind_renamed hcall.1 ?_
      intro o ho
      rcases hcall.2 o ho with ⟨hconnected, hrest⟩
      exact bind_renamed (ih hconnected htypes.tail hrest) fun _ _ => rfl

end Run

/-- Every number one lower: a delivered packet, a stored one, and an old `Ack`. -/
theorem runPackets_renumber_down :
    exists last replies,
      runPackets
        (renumberInputs 65535
          [incoming .data 2 0, incoming .data 4 0, incoming .ack 0 1])
        ((openPeer (loopback 2)).renumber 65535) =
          .ok (UtpSocketState.renumber 65535 last, replies) ∧
      last.incomingBuffer.map Packet.seqNr = [2] ∧
      last.outOfOrder.toList.map Prod.fst = [4] := by
  have hruns : (runPackets
      [incoming .data 2 0, incoming .data 4 0, incoming .ack 0 1]
      (openPeer (loopback 2))).toOption.map (fun r =>
        (r.1.incomingBuffer.map Packet.seqNr, r.1.outOfOrder.toList.map Prod.fst)) =
      some ([2], [4]) := by
    decide +kernel
  rcases Option.map_eq_some_iff.mp hruns with ⟨⟨last, outcomes⟩, hrun, hfacts⟩
  rcases Prod.mk.inj hfacts with ⟨hdelivered, hstored⟩
  have htypes : DataAndAcks
      [incoming .data 2 0, incoming .data 4 0, incoming .ack 0 1] := by
    unfold DataAndAcks
    decide +kernel
  have hinside : RunInside 1 10
      [incoming .data 2 0, incoming .data 4 0, incoming .ack 0 1]
      (openPeer (loopback 2)) :=
    { numbers :=
        { lastAcked := by decide
          outOfOrder := fun k hk => absurd hk Std.ExtTreeMap.not_mem_empty
          sentWindow := fun k hk => absurd hk Std.ExtTreeMap.not_mem_empty }
      packets := by
        intro input hinput
        rw [List.mem_cons, List.mem_cons, List.mem_singleton] at hinput
        rcases hinput with rfl | rfl | rfl
        · exact ⟨fun _ => by decide +kernel, fun h => absurd h (by decide +kernel)⟩
        · exact ⟨fun _ => by decide +kernel, fun h => absurd h (by decide +kernel)⟩
        · refine ⟨fun h => absurd h (by decide +kernel), fun _ => ⟨by decide +kernel, ?_⟩⟩
          intro exts hexts
          cases (hasChain_barePacket .ack 0 1).extensions.symm.trans hexts
          exact ⟨by decide +kernel, fun e he => by cases he⟩
      seqNr_low := by decide
      seqNr_high := by decide +kernel }
  have hrenumbered := runPackets_renumber (d := 65535) ⟨by decide, by decide⟩
    (by decide +kernel) htypes hinside
  rw [toOption_eq_some.mp hrun] at hrenumbered
  exact ⟨last, _, hrenumbered, hdelivered, hstored⟩

/-- In the range that is split, an early packet is taken for an old one: behind
65534 the packet numbered one is dropped, where behind one the packet numbered
four is stored. -/
theorem early_packet_wrapped_dropped :
    exists last last' outcomes replies,
      runPackets [incoming .data 4 0] (openPeer (loopback 2)) = .ok (last, outcomes) ∧
      runPackets (renumberInputs 65533 [incoming .data 4 0])
        ((openPeer (loopback 2)).renumber 65533) = .ok (last', replies) ∧
      last.outOfOrder.toList.map Prod.fst = [4] ∧ last'.outOfOrder = ∅ := by
  exact runPackets_both (by decide +kernel)

end Utp
