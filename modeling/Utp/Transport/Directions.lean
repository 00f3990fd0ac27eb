import Utp.Socket.PacketRun
import Utp.Transport.Numbering

/-!
# The two directions of a connection

A peer receives the remote's `Data` and the remote's `Ack`s of its own data, and
both use one `lastAcked`.  A run treats each direction as if the packets of the
other were not there as long as every packet compares with `lastAcked` as it
does with the value its own direction last gave it.
-/

namespace Utp

open Foundation

/-!
## Marks

The marks are the history of a run: what each direction made of `lastAcked`.
-/

/-- The value each direction last gave `lastAcked`. -/
structure Marks where
  received : UInt16
  acknowledged : UInt16

def Marks.after (m : Marks) (packet : Packet) (lastAcked lastAcked' : UInt16) :
    Marks :=
  if lastAcked' = lastAcked then m
  else if packet.getType = .data then { m with received := lastAcked' }
  else { m with acknowledged := lastAcked' }

def IsNext (number mark : UInt16) : Prop :=
  number.toNat = mark.toNat + 1

/-- A `Data` packet is next or ahead of `lastAcked` if it is so of its mark, an
`Ack` is next if it is next to its mark. -/
def Marks.Agree (m : Marks) (packet : Packet) (lastAcked : UInt16) : Prop :=
  if packet.getType = .data then
    (IsNext packet.seqNr lastAcked <-> IsNext packet.seqNr m.received) ∧
      (lastAcked < packet.seqNr <-> m.received < packet.seqNr)
  else
    IsNext packet.ackNr lastAcked <-> IsNext packet.ackNr m.acknowledged

def Undisturbed : Marks -> List (Env × Packet) -> UtpSocketState -> Prop
  | _, [], _ => True
  | m, (env, packet) :: inputs, peer =>
      m.Agree packet peer.lastAcked ∧
        forall o, handlePacket env packet peer = .ok o ->
          Undisturbed (m.after packet peer.lastAcked o.peer.lastAcked) inputs o.peer

instance (number mark : UInt16) : Decidable (IsNext number mark) :=
  inferInstanceAs (Decidable (_ = _))

instance (m : Marks) (packet : Packet) (lastAcked : UInt16) :
    Decidable (m.Agree packet lastAcked) :=
  inferInstanceAs (Decidable (if packet.getType = .data then
    (IsNext packet.seqNr lastAcked <-> IsNext packet.seqNr m.received) ∧
      (lastAcked < packet.seqNr <-> m.received < packet.seqNr)
    else (IsNext packet.ackNr lastAcked <-> IsNext packet.ackNr m.acknowledged)))

theorem undisturbed_cons {m : Marks} {env : Env} {packet : Packet}
    {inputs : List (Env × Packet)} {peer : UtpSocketState} {o : Outcome}
    (ho : handlePacket env packet peer = .ok o) :
    Undisturbed m ((env, packet) :: inputs) peer <->
      m.Agree packet peer.lastAcked ∧
        Undisturbed (m.after packet peer.lastAcked o.peer.lastAcked) inputs o.peer := by
  refine and_congr_right fun _ => ?_
  constructor
  · intro hall
    exact hall o ho
  · intro h o' ho'
    cases ho.symm.trans ho'
    exact h

instance decidableUndisturbed : (m : Marks) -> (inputs : List (Env × Packet)) ->
    (peer : UtpSocketState) -> Decidable (Undisturbed m inputs peer)
  | _, [], _ => .isTrue trivial
  | m, (env, packet) :: inputs, peer =>
      match ho : handlePacket env packet peer with
      | .ok o =>
          have := decidableUndisturbed
            (m.after packet peer.lastAcked o.peer.lastAcked) inputs o.peer
          decidable_of_iff _ (undisturbed_cons ho).symm
      | .error _ =>
          decidable_of_iff (m.Agree packet peer.lastAcked)
            ⟨fun h => ⟨h, fun _ ho' => nomatch ho.symm.trans ho'⟩, And.left⟩

/-!
## The receiving direction
-/

/-- The peer of the run without `Ack`s: its `lastAcked` is the mark of the
receiving direction. -/
structure Receives (m : Marks) (mixed dataOnly : UtpSocketState) : Prop where
  connected : mixed.state = .connected
  same : SameReceiving dataOnly mixed
  mark : dataOnly.lastAcked = m.received
  behind : m.received.toNat <= mixed.lastAcked.toNat

section Receiving

variable {m : Marks} {env : Env} {packet : Packet} {mixed dataOnly : UtpSocketState}

theorem DataEffect.sameReceiving {mixed' dataOnly' : UtpSocketState}
    {sack sack' : List UInt8} (hsame : SameReceiving dataOnly mixed)
    (hnext : IsNext packet.seqNr mixed.lastAcked <->
      IsNext packet.seqNr dataOnly.lastAcked)
    (hahead : mixed.lastAcked < packet.seqNr <-> dataOnly.lastAcked < packet.seqNr)
    (h : DataEffect packet mixed mixed' sack)
    (h' : DataEffect packet dataOnly dataOnly' sack') :
    SameReceiving dataOnly' mixed' ∧
      (mixed'.lastAcked = mixed.lastAcked ∧
          dataOnly'.lastAcked = dataOnly.lastAcked ∨
        mixed'.lastAcked ≠ mixed.lastAcked ∧
          dataOnly'.lastAcked = mixed'.lastAcked) := by
  unfold IsNext at hnext
  rw [UInt16.lt_iff_toNat_lt, UInt16.lt_iff_toNat_lt] at hahead
  have hfollowing : following packet dataOnly = following packet mixed := by
    rw [following, following, hsame.outOfOrder]
  have hcounters := h.counters
  cases h with
  | inOrder hseq =>
      cases h' with
      | inOrder =>
          refine ⟨⟨hsame.state, ?_, ?_, ?_⟩, Or.inr ⟨?_, ?_⟩⟩
          · simp only [hsame.seqNr]
          · simp only [hsame.incomingBuffer, hfollowing]
          · simp only [hsame.outOfOrder, hfollowing]
          · intro heq
            rw [heq] at hcounters
            omega
          · simp only [hfollowing]
      | early hlt => omega
      | old hle => omega
  | early hlt =>
      cases h' with
      | inOrder hseq => omega
      | early =>
          refine ⟨⟨hsame.state, hsame.seqNr, hsame.incomingBuffer, ?_⟩,
            Or.inl ⟨rfl, rfl⟩⟩
          simp only [hsame.outOfOrder]
      | old hle => omega
  | old hle =>
      cases h' with
      | inOrder hseq => omega
      | early hlt => omega
      | old => exact ⟨hsame, Or.inl ⟨rfl, rfl⟩⟩

theorem Receives.data {o : Outcome} (h : Receives m mixed dataOnly)
    (htype : packet.getType = .data) (hagree : m.Agree packet mixed.lastAcked)
    (ho : handlePacket env packet mixed = .ok o) :
    exists o', handlePacket env packet dataOnly = .ok o' ∧
      Receives (m.after packet mixed.lastAcked o.peer.lastAcked) o.peer o'.peer := by
  rw [Marks.Agree, if_pos htype, ← h.mark] at hagree
  rcases hagree with ⟨hnext, hahead⟩
  have hconnected : dataOnly.state = .connected := h.same.state.trans h.connected
  have hbehind := h.behind
  rw [← h.mark] at hbehind
  rw [handlePacket_data h.connected htype] at ho
  rw [handlePacket_data hconnected htype]
  have hok : exists o', handleData env packet dataOnly = .ok o' := by
    have hmixed := acceptData_isOk.mp ((handleData_isOk_iff env).mp ⟨o, ho⟩)
    refine (handleData_isOk_iff env).mpr (acceptData_isOk.mpr ⟨by omega, ?_⟩)
    rw [h.same.seqNr, h.same.outOfOrder]
    exact fun hseq => hmixed.2 (hnext.mpr hseq)
  rcases hok with ⟨o', ho'⟩
  refine ⟨o', ho', ?_⟩
  rcases handleData_effect ho with ⟨sack, heffect⟩
  rcases handleData_effect ho' with ⟨sack', heffect'⟩
  rcases DataEffect.sameReceiving h.same hnext hahead heffect heffect' with
    ⟨hsame, hlast⟩
  have hgrows : mixed.lastAcked.toNat <= o.peer.lastAcked.toNat := by
    rcases heffect.counters with ⟨-, -, hmoved⟩ | ⟨-, -, hstill⟩
    · omega
    · rw [hstill]
  rcases hlast with ⟨hstill, hstill'⟩ | ⟨hmoved, hequal⟩
  · rw [Marks.after, if_pos hstill]
    exact
      { connected := heffect.state.trans h.connected
        same := hsame
        mark := hstill'.trans h.mark
        behind := Nat.le_trans h.behind hgrows }
  · rw [Marks.after, if_neg hmoved, if_pos htype]
    exact
      { connected := heffect.state.trans h.connected
        same := hsame
        mark := hequal
        behind := Nat.le_refl _ }

theorem Receives.ack {o : Outcome} (h : Receives m mixed dataOnly)
    (htype : packet.getType = .ack) (ho : handlePacket env packet mixed = .ok o) :
    Receives (m.after packet mixed.lastAcked o.peer.lastAcked) o.peer dataOnly := by
  rw [handlePacket_ack h.connected htype] at ho
  rcases handleAck_frame ho with ⟨hframe, hlast⟩
  have hreceived :
      (m.after packet mixed.lastAcked o.peer.lastAcked).received = m.received := by
    rw [Marks.after, if_neg (show packet.getType ≠ .data by rw [htype]; decide)]
    split <;> rfl
  have hgrows : mixed.lastAcked.toNat <= o.peer.lastAcked.toNat := by
    rw [hlast]
    split <;> omega
  exact
    { connected := hframe.state.trans h.connected
      same :=
        { state := h.same.state.trans hframe.state.symm
          seqNr := h.same.seqNr.trans hframe.seqNr.symm
          incomingBuffer := h.same.incomingBuffer.trans hframe.incomingBuffer.symm
          outOfOrder := h.same.outOfOrder.trans hframe.outOfOrder.symm }
      mark := h.mark.trans hreceived.symm
      behind := by
        rw [hreceived]
        exact Nat.le_trans h.behind hgrows }

theorem Receives.runPackets {inputs : List (Env × Packet)} {last : UtpSocketState}
    {outcomes : List Outcome} (h : Receives m mixed dataOnly)
    (htypes : DataAndAcks inputs) (hundisturbed : Undisturbed m inputs mixed)
    (hrun : runPackets inputs mixed = .ok (last, outcomes)) :
    exists last' outcomes',
      runPackets (ofType .data inputs) dataOnly = .ok (last', outcomes') ∧
      last'.incomingBuffer = last.incomingBuffer := by
  induction inputs generalizing m mixed dataOnly outcomes with
  | nil =>
      cases hrun
      exact ⟨dataOnly, [], rfl, h.same.incomingBuffer⟩
  | cons input inputs ih =>
      rcases input with ⟨env, packet⟩
      rcases runPackets_cons_eq_ok.mp hrun with ⟨o, rest, ho, hrest, -⟩
      have hlater := hundisturbed.2 o ho
      rcases htypes _ (List.mem_cons_self ..) with htype | htype
      · rcases h.data htype hundisturbed.1 ho with ⟨o', ho', hnext⟩
        rcases ih hnext htypes.tail hlater hrest with ⟨last', outcomes', hlast, hbuffer⟩
        rw [ofType_cons_of_eq htype]
        exact ⟨last', o' :: outcomes',
          runPackets_cons_eq_ok.mpr ⟨o', outcomes', ho', hlast, rfl⟩, hbuffer⟩
      · rw [ofType_cons_of_ne (by rw [htype]; decide)]
        exact ih (h.ack htype ho) htypes.tail hlater hrest

end Receiving

/-!
## The sending direction
-/

/-- The peer of the run without `Data`: its `lastAcked` is the mark of the
sending direction. -/
structure Sends (m : Marks) (mixed ackOnly : UtpSocketState) : Prop where
  connected : mixed.state = .connected
  connected' : ackOnly.state = .connected
  mark : ackOnly.lastAcked = m.acknowledged
  sentWindow : mixed.sentWindow = ackOnly.sentWindow

section Sending

variable {m : Marks} {env : Env} {packet : Packet} {mixed ackOnly : UtpSocketState}

theorem Sends.data {o : Outcome} (h : Sends m mixed ackOnly)
    (htype : packet.getType = .data) (ho : handlePacket env packet mixed = .ok o) :
    Sends (m.after packet mixed.lastAcked o.peer.lastAcked) o.peer ackOnly := by
  rw [handlePacket_data h.connected htype] at ho
  rcases handleData_effect ho with ⟨sack, heffect⟩
  have hacknowledged :
      (m.after packet mixed.lastAcked o.peer.lastAcked).acknowledged =
        m.acknowledged := by
    rw [Marks.after, if_pos htype]
    split <;> rfl
  exact
    { connected := heffect.state.trans h.connected
      connected' := h.connected'
      mark := h.mark.trans hacknowledged.symm
      sentWindow := heffect.sentWindow.trans h.sentWindow }

theorem Sends.ack {o o' : Outcome} (h : Sends m mixed ackOnly)
    (htype : packet.getType = .ack) (hagree : m.Agree packet mixed.lastAcked)
    (ho : handlePacket env packet mixed = .ok o)
    (ho' : handlePacket env packet ackOnly = .ok o') :
    Sends (m.after packet mixed.lastAcked o.peer.lastAcked) o.peer o'.peer := by
  have hdata : packet.getType ≠ .data := by
    rw [htype]
    decide
  rw [Marks.Agree, if_neg hdata, ← h.mark] at hagree
  rw [handlePacket_ack h.connected htype] at ho
  rw [handlePacket_ack h.connected' htype] at ho'
  rcases handleAck_frame ho with ⟨hframe, hlast⟩
  rcases handleAck_frame ho' with ⟨hframe', hlast'⟩
  have hmark : o'.peer.lastAcked =
      (m.after packet mixed.lastAcked o.peer.lastAcked).acknowledged := by
    unfold IsNext at hagree
    rw [hlast', hlast, Marks.after]
    by_cases hnext : packet.ackNr.toNat = mixed.lastAcked.toNat + 1
    · have hmoved : packet.ackNr ≠ mixed.lastAcked := by
        intro heq
        rw [heq] at hnext
        omega
      rw [if_pos (hagree.mp hnext), if_pos hnext, if_neg hmoved, if_neg hdata]
    · rw [if_neg (mt hagree.mpr hnext), if_neg hnext, if_pos rfl]
      exact h.mark
  exact
    { connected := hframe.state.trans h.connected
      connected' := hframe'.state.trans h.connected'
      mark := hmark
      sentWindow := handleAck_sentWindow_congr h.sentWindow hagree ho ho' }

theorem Sends.runPackets {inputs : List (Env × Packet)} {last last' : UtpSocketState}
    {outcomes outcomes' : List Outcome} (h : Sends m mixed ackOnly)
    (htypes : DataAndAcks inputs) (hundisturbed : Undisturbed m inputs mixed)
    (hrun : runPackets inputs mixed = .ok (last, outcomes))
    (hrun' : runPackets (ofType .ack inputs) ackOnly = .ok (last', outcomes')) :
    last'.sentWindow = last.sentWindow := by
  induction inputs generalizing m mixed ackOnly outcomes outcomes' with
  | nil =>
      cases hrun
      cases hrun'
      exact h.sentWindow.symm
  | cons input inputs ih =>
      rcases input with ⟨env, packet⟩
      rcases runPackets_cons_eq_ok.mp hrun with ⟨o, rest, ho, hrest, -⟩
      have hlater := hundisturbed.2 o ho
      rcases htypes _ (List.mem_cons_self ..) with htype | htype
      · rw [ofType_cons_of_ne (by rw [htype]; decide)] at hrun'
        exact ih (h.data htype ho) htypes.tail hlater hrest hrun'
      · rw [ofType_cons_of_eq htype] at hrun'
        rcases runPackets_cons_eq_ok.mp hrun' with ⟨o', rest', ho', hrest', -⟩
        exact ih (h.ack htype hundisturbed.1 ho ho') htypes.tail hlater hrest hrest'

end Sending

/-!
## Independence
-/

/-- In an undisturbed run, what is delivered does not depend on the `Ack`s and
the window does not depend on the `Data`. -/
theorem directions_independent {inputs : List (Env × Packet)}
    {peer mixed : UtpSocketState} {outcomes : List Outcome}
    (hstate : peer.state = .connected) (htypes : DataAndAcks inputs)
    (hrun : runPackets inputs peer = .ok (mixed, outcomes))
    (hundisturbed : Undisturbed ⟨peer.lastAcked, peer.lastAcked⟩ inputs peer) :
    (exists dataOnly replies,
      runPackets (ofType .data inputs) peer = .ok (dataOnly, replies) ∧
      dataOnly.incomingBuffer = mixed.incomingBuffer) ∧
    forall ackOnly replies,
      runPackets (ofType .ack inputs) peer = .ok (ackOnly, replies) ->
      ackOnly.sentWindow = mixed.sentWindow := by
  have hreceives : Receives ⟨peer.lastAcked, peer.lastAcked⟩ peer peer :=
    { connected := hstate
      same := ⟨rfl, rfl, rfl, rfl⟩
      mark := rfl
      behind := Nat.le_refl _ }
  have hsends : Sends ⟨peer.lastAcked, peer.lastAcked⟩ peer peer :=
    { connected := hstate
      connected' := hstate
      mark := rfl
      sentWindow := rfl }
  constructor
  · exact hreceives.runPackets htypes hundisturbed hrun
  · intro ackOnly replies hrun'
    exact hsends.runPackets htypes hundisturbed hrun hrun'

def sendingPeer : UtpSocketState := threeBytes.apply (openPeer (loopback 2))

/-- Two packets are delivered around an old `Ack`, and an `Ack` takes packet two out of the
window between packets that are not next. -/
theorem directions_independent_old_ack :
    (exists mixed dataOnly outcomes replies,
      runPackets [incoming .data 2 0, incoming .ack 0 1, incoming .data 3 0]
        sendingPeer = .ok (mixed, outcomes) ∧
      runPackets [incoming .data 2 0, incoming .data 3 0] sendingPeer =
        .ok (dataOnly, replies) ∧
      mixed.lastAcked = 3 ∧ dataOnly.incomingBuffer = mixed.incomingBuffer) ∧
    exists mixed ackOnly outcomes replies,
      runPackets [incoming .data 4 0, incoming .ack 0 2, incoming .data 1 0]
        sendingPeer = .ok (mixed, outcomes) ∧
      runPackets [incoming .ack 0 2] sendingPeer = .ok (ackOnly, replies) ∧
      2 ∈ sendingPeer.sentWindow ∧ 2 ∉ mixed.sentWindow ∧
      ackOnly.sentWindow = mixed.sentWindow := by
  constructor
  · have hmixed : (runPackets [incoming .data 2 0, incoming .ack 0 1, incoming .data 3 0]
        sendingPeer).toOption.map (fun r => r.1.lastAcked) = some 3 := by
      decide +kernel
    rcases Option.map_eq_some_iff.mp hmixed with ⟨⟨mixed, outcomes⟩, hrun, hlast⟩
    have hrun := toOption_eq_some.mp hrun
    have htypes : DataAndAcks
        [incoming .data 2 0, incoming .ack 0 1, incoming .data 3 0] := by
      unfold DataAndAcks
      decide +kernel
    rcases (directions_independent (by decide +kernel) htypes hrun
      (by decide +kernel)).1 with ⟨dataOnly, replies, hdata, hbuffer⟩
    exact ⟨mixed, dataOnly, outcomes, replies, hrun, hdata, hlast, hbuffer⟩
  · have hruns : (runPackets [incoming .data 4 0, incoming .ack 0 2, incoming .data 1 0]
        sendingPeer).toOption.bind (fun r =>
          (runPackets [incoming .ack 0 2] sendingPeer).toOption.map fun r' =>
            decide (2 ∉ r.1.sentWindow)) = some true := by
      decide +kernel
    rcases Option.bind_eq_some_iff.mp hruns with ⟨⟨mixed, outcomes⟩, hrun, hruns⟩
    rcases Option.map_eq_some_iff.mp hruns with ⟨⟨ackOnly, replies⟩, hrun', hgone⟩
    have hrun := toOption_eq_some.mp hrun
    have hrun' := toOption_eq_some.mp hrun'
    have htypes : DataAndAcks
        [incoming .data 4 0, incoming .ack 0 2, incoming .data 1 0] := by
      unfold DataAndAcks
      decide +kernel
    refine ⟨mixed, ackOnly, outcomes, replies, hrun, hrun', by decide +kernel,
      of_decide_eq_true hgone, ?_⟩
    exact (directions_independent (by decide +kernel) htypes hrun (by decide +kernel)).2
      ackOnly replies hrun'

/-- The `Ack` of packet two hides the remote's packet two, and the remote's
packet two hides the `Ack`. -/
theorem directions_disturb_each_other :
    (exists mixed dataOnly outcomes replies,
      runPackets [incoming .ack 0 2, incoming .data 2 0] sendingPeer =
        .ok (mixed, outcomes) ∧
      runPackets (ofType .data [incoming .ack 0 2, incoming .data 2 0])
        sendingPeer = .ok (dataOnly, replies) ∧
      dataOnly.incomingBuffer ≠ mixed.incomingBuffer) ∧
    exists mixed ackOnly outcomes replies,
      runPackets [incoming .data 2 0, incoming .ack 0 2] sendingPeer =
        .ok (mixed, outcomes) ∧
      runPackets (ofType .ack [incoming .data 2 0, incoming .ack 0 2])
        sendingPeer = .ok (ackOnly, replies) ∧
      ackOnly.sentWindow ≠ mixed.sentWindow := by
  constructor
  · exact runPackets_both (by decide +kernel)
  · exact runPackets_both (by decide +kernel)

end Utp
