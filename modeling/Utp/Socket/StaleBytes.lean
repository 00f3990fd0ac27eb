import Utp.Foundation.RelatedMaps
import Utp.Socket.Turn

/-!
# Stale bytes

The receive loop reads every datagram into one buffer and handles the whole buffer.
What stands behind a datagram becomes payload of the packet, and nothing else of
the socket ever depends on it: peers that have received the same datagrams behave
in the same way, whatever stood behind them.
-/

namespace Utp

open Foundation
open Std (ExtTreeMap)

/-!
## Packets of one datagram
-/

/-- The two packets were read from one datagram, with any bytes behind it. -/
def SameDatagram (p q : Packet) : Prop :=
  exists first, Packet.tryFrom first.bytes = .ok first ∧
    first.bytes <+: p.bytes ∧ first.bytes <+: q.bytes

/-- What the two packets have in common, which is all but the payload. -/
structure SameButPayload (p q : Packet) : Prop where
  header : p.SameHeader q
  extensions : q.extensions = p.extensions

section SameDatagram

variable {p q : Packet}

theorem SameDatagram.sameButPayload (h : SameDatagram p q) : SameButPayload p q := by
  rcases h with ⟨first, haccepted, ⟨more, hp⟩, ⟨more', hq⟩⟩
  rcases Packet.hasChain_of_tryFrom haccepted with ⟨exts, payload, hchain, -⟩
  have hpchain := hchain.append hp.symm
  have hqchain := hchain.append hq.symm
  have hpheader := Packet.sameHeader_of_append hp.symm
  have hqheader := Packet.sameHeader_of_append hq.symm
  refine ⟨hpheader.of_common hqheader, ?_⟩
  rw [hpchain.extensions, hqchain.extensions]

theorem SameButPayload.getType (h : SameButPayload p q) : q.getType = p.getType :=
  h.header.packetType

theorem SameButPayload.seqNr (h : SameButPayload p q) : q.seqNr = p.seqNr :=
  h.header.seqNr

theorem SameButPayload.ackNr (h : SameButPayload p q) : q.ackNr = p.ackNr :=
  congrArg UInt16.ofNat (h.header.field .ackNr)

theorem SameButPayload.timestamp (h : SameButPayload p q) : q.timestamp = p.timestamp :=
  congrArg (fun n => Timestamp.mk (UInt32.ofNat n)) (h.header.field .timestamp)

theorem SameButPayload.prepareReply (h : SameButPayload p q) (env : Env) (t : PacketType)
    (seqNr ackNr : UInt16) :
    prepareReply env q t seqNr ackNr = Utp.prepareReply env p t seqNr ackNr := by
  simp only [Utp.prepareReply, h.timestamp]

end SameDatagram

/-!
## The sending direction
-/

/-- The peer with these packets received. -/
def UtpSocketState.receivedAs (peer : UtpSocketState) (buffer : List Packet)
    (store : PacketMap) : UtpSocketState :=
  { peer with incomingBuffer := buffer, outOfOrder := store }

def Outcome.receivedAs (o : Outcome) (buffer : List Packet)
    (store : PacketMap) : Outcome :=
  { o with peer := o.peer.receivedAs buffer store }

section Sending

variable {env : Env} {p q : Packet} (peer : UtpSocketState) (buffer : List Packet)
  (store : PacketMap)

theorem countAck_receivedAs (h : SameButPayload p q) :
    countAck env q (peer.receivedAs buffer store) =
      (countAck env p peer).map (UtpSocketState.receivedAs · buffer store) := by
  simp only [countAck, h.ackNr, UtpSocketState.receivedAs]
  split
  · cases addU16 peer.duplicateAckCount 1 <;> rfl
  · cases addU16 peer.lastAcked 1 with
    | error e => rfl
    | ok next =>
        simp only [bind, Except.bind, pure, Except.pure, Except.map]
        split <;> rfl

theorem fastRetransmit_receivedAs (h : SameButPayload p q) :
    fastRetransmit q (peer.receivedAs buffer store) = fastRetransmit p peer := by
  simp only [fastRetransmit, h.ackNr]
  rfl

theorem scanExtensions_receivedAs (h : SameButPayload p q) (exts : List Extension)
    (found : Found) :
    scanExtensions q (peer.receivedAs buffer store) exts found =
      scanExtensions p peer exts found := by
  induction exts generalizing found with
  | nil => rfl
  | cons e exts ih =>
      simp only [scanExtensions, h.ackNr, ih]
      rfl

theorem getLostSeqNr_receivedAs (h : SameButPayload p q) :
    getLostSeqNr q (peer.receivedAs buffer store) =
      (getLostSeqNr p peer).map fun r => (r.1, r.2.receivedAs buffer store) := by
  simp only [getLostSeqNr, h.extensions, scanExtensions_receivedAs peer buffer store h]
  cases p.extensions with
  | error e => rfl
  | ok exts =>
      simp only [bind, Except.bind]
      cases scanExtensions p peer exts ⟨[], []⟩ <;> rfl

theorem resendLost_receivedAs (lost : List UInt16) (sent : List Datagram) :
    resendLost env (peer.receivedAs buffer store) lost sent =
      resendLost env peer lost sent := by
  induction lost generalizing sent with
  | nil => rfl
  | cons seqNr lost ih =>
      simp only [resendLost, ih]
      rfl

theorem handleAck_receivedAs (h : SameButPayload p q) :
    handleAck env q (peer.receivedAs buffer store) =
      (handleAck env p peer).map (Outcome.receivedAs · buffer store) := by
  simp only [handleAck, countAck_receivedAs peer buffer store h]
  cases countAck env p peer with
  | error e => rfl
  | ok counted =>
      simp only [Except.map, bind, Except.bind,
        fastRetransmit_receivedAs counted buffer store h]
      cases fastRetransmit p counted with
      | error e => rfl
      | ok reply =>
          simp only [getLostSeqNr_receivedAs counted buffer store h]
          cases getLostSeqNr p counted with
          | error e => rfl
          | ok lost =>
              simp only [Except.map, resendLost_receivedAs lost.2 buffer store]
              cases resendLost env lost.2 lost.1 [] <;> rfl

theorem handleState_receivedAs (h : SameButPayload p q) :
    handleState env q (peer.receivedAs buffer store) =
      (handleState env p peer).map (Outcome.receivedAs · buffer store) := by
  have hcount : countState env q (peer.receivedAs buffer store) =
      (countState env p peer).map (UtpSocketState.receivedAs · buffer store) := by
    simp only [countState, h.ackNr, UtpSocketState.receivedAs]
    split
    · cases addU16 peer.duplicateAckCount 1 <;> rfl
    · rfl
  have hbefore : forall counted : UtpSocketState,
      resendBefore q (counted.receivedAs buffer store) = resendBefore p counted := by
    intro counted
    simp only [resendBefore, h.ackNr]
    rfl
  simp only [handleState, hcount]
  cases countState env p peer with
  | error e => rfl
  | ok counted =>
      simp only [Except.map, bind, Except.bind, hbefore]
      by_cases hresend : counted.sentWindow ≠ ∅ ∨ counted.duplicateAckCount = 3
      · have hsame : (counted.receivedAs buffer store).sentWindow ≠ ∅ ∨
            (counted.receivedAs buffer store).duplicateAckCount = 3 := hresend
        rw [if_pos hresend, if_pos hsame]
        cases resendBefore p counted <;> rfl
      · have hsame : ¬ ((counted.receivedAs buffer store).sentWindow ≠ ∅ ∨
            (counted.receivedAs buffer store).duplicateAckCount = 3) := hresend
        rw [if_neg hresend, if_neg hsame]
        rfl

theorem handleNewSyn_receivedAs (h : SameButPayload p q) :
    handleNewSyn env q (peer.receivedAs buffer store) =
      (handleNewSyn env p peer).receivedAs buffer store := by
  simp only [handleNewSyn, h.prepareReply, h.seqNr]
  rfl

theorem handleUnexpectedSyn_receivedAs (h : SameButPayload p q) :
    handleUnexpectedSyn env q (peer.receivedAs buffer store) =
      (handleUnexpectedSyn env p peer).receivedAs buffer store := by
  simp only [handleUnexpectedSyn, h.prepareReply, h.seqNr]
  rfl

theorem handleSynAck_receivedAs (h : SameButPayload p q) :
    handleSynAck env q (peer.receivedAs buffer store) =
      (handleSynAck env p peer).receivedAs buffer store := by
  simp only [handleSynAck, h.seqNr, h.ackNr]
  rfl

theorem handleFin_receivedAs (h : SameButPayload p q) :
    handleFin env q (peer.receivedAs buffer store) =
      (handleFin env p peer).receivedAs buffer store := by
  simp only [handleFin, h.prepareReply, h.seqNr]
  rfl

theorem handleOther_receivedAs (h : SameButPayload p q) :
    handleOther q (peer.receivedAs buffer store) =
      (handleOther p peer).receivedAs buffer store := by
  simp only [handleOther, h.getType]
  rfl

end Sending

/-!
## The receiving direction
-/

/-- The same peer, with packets of the same datagrams received. -/
inductive AlikePeers (peer : UtpSocketState) : UtpSocketState -> Prop where
  | mk (buffer : List Packet) (store : PacketMap) :
      List.Forall₂ SameDatagram peer.incomingBuffer buffer ->
      RelatedMaps SameDatagram peer.outOfOrder store ->
      AlikePeers peer (peer.receivedAs buffer store)

structure AlikeOutcomes (o o' : Outcome) : Prop where
  peer : AlikePeers o.peer o'.peer
  sent : o'.sent = o.sent
  result : o'.result = o.result

def AlikeEntries (entries entries' : List (UInt16 × Packet)) : Prop :=
  List.Forall₂ (fun e e' => e.1 = e'.1 ∧ SameDatagram e.2 e'.2) entries entries'

section Receiving

variable {env : Env} {p q : Packet} {peer other peer' : UtpSocketState}
  {entries entries' : List (UInt16 × Packet)} {sack : List UInt8} {o : Outcome}

theorem AlikePeers.of_eq
    (heq : other = peer.receivedAs other.incomingBuffer other.outOfOrder)
    (hbuffer : List.Forall₂ SameDatagram peer.incomingBuffer other.incomingBuffer)
    (hstore : RelatedMaps SameDatagram peer.outOfOrder other.outOfOrder) :
    AlikePeers peer other := by
  rw [heq]
  exact .mk _ _ hbuffer hstore

theorem AlikePeers.incomingBuffer (h : AlikePeers peer other) :
    List.Forall₂ SameDatagram peer.incomingBuffer other.incomingBuffer := by
  cases h with
  | mk buffer store hbuffer => exact hbuffer

theorem AlikeEntries.continuing (h : AlikeEntries entries entries') (start : UInt16) :
    AlikeEntries (Utp.continuing start entries) (Utp.continuing start entries') := by
  induction h generalizing start with
  | nil => exact .nil
  | @cons e e' _ _ hentry _ ih =>
      rcases e with ⟨seq, packet⟩
      rcases e' with ⟨seq', packet'⟩
      rcases hentry with ⟨rfl, hpacket⟩
      rw [Utp.continuing, Utp.continuing]
      split
      · exact .cons ⟨rfl, hpacket⟩ (ih seq)
      · exact .nil

theorem AlikeEntries.lastKey (h : AlikeEntries entries entries') (start : UInt16) :
    Utp.lastKey start entries' = Utp.lastKey start entries := by
  induction h generalizing start with
  | nil => rfl
  | @cons e e' _ _ hentry _ ih =>
      rcases e with ⟨seq, packet⟩
      rcases e' with ⟨seq', packet'⟩
      rcases hentry with ⟨rfl, -⟩
      exact ih seq

theorem AlikeEntries.keys (h : AlikeEntries entries entries') :
    entries'.map Prod.fst = entries.map Prod.fst := by
  induction h with
  | nil => rfl
  | cons hentry _ ih => rw [List.map_cons, List.map_cons, ih, hentry.1]

theorem AlikeEntries.packets (h : AlikeEntries entries entries') :
    List.Forall₂ SameDatagram (entries.map Prod.snd) (entries'.map Prod.snd) := by
  induction h with
  | nil => exact .nil
  | cons hentry _ ih => exact .cons hentry.2 ih

theorem buildSelectiveAck_congr (hlast : other.lastAcked = peer.lastAcked)
    (hstore : RelatedMaps SameDatagram peer.outOfOrder other.outOfOrder) :
    buildSelectiveAck other = buildSelectiveAck peer := by
  rw [buildSelectiveAck, buildSelectiveAck, hlast, hstore.keys_toList]

theorem DataEffect.alike {buffer : List Packet} {store : PacketMap}
    {other' : UtpSocketState}
    {sack' : List UInt8} (hsame : SameDatagram p q)
    (hbuffer : List.Forall₂ SameDatagram peer.incomingBuffer buffer)
    (hstore : RelatedMaps SameDatagram peer.outOfOrder store)
    (h : DataEffect p peer peer' sack)
    (h' : DataEffect q (peer.receivedAs buffer store) other' sack') :
    sack' = sack ∧ AlikePeers peer' other' := by
  have hseq := hsame.sameButPayload.seqNr
  have hlast : (peer.receivedAs buffer store).lastAcked = peer.lastAcked := rfl
  have hfollowing : AlikeEntries (following p peer)
      (following q (peer.receivedAs buffer store)) := by
    rw [following, following, hseq]
    exact AlikeEntries.continuing hstore.toList p.seqNr
  cases h with
  | inOrder hnext =>
      cases h' with
      | inOrder =>
          refine ⟨rfl, .of_eq ?_ ?_ ?_⟩
          · simp only [hseq, hfollowing.lastKey]
            rfl
          · exact List.rel_append hbuffer (.cons hsame hfollowing.packets)
          · show RelatedMaps _ _ (eraseAll store _)
            rw [hfollowing.keys]
            exact hstore.eraseAll _
      | early hgap =>
          rw [hseq, hlast] at hgap
          omega
      | old hle =>
          rw [hseq, hlast] at hle
          omega
  | early hgap =>
      cases h' with
      | inOrder hnext =>
          rw [hseq, hlast] at hnext
          omega
      | early =>
          have hinserted : RelatedMaps SameDatagram (peer.outOfOrder.insert p.seqNr p)
              (store.insert q.seqNr q) := by
            rw [hseq]
            exact hstore.insert _ hsame
          exact ⟨buildSelectiveAck_congr rfl hinserted, .of_eq rfl hbuffer hinserted⟩
      | old hle =>
          rw [hseq, hlast] at hle
          omega
  | old hle =>
      cases h' with
      | inOrder hnext =>
          rw [hseq, hlast] at hnext
          omega
      | early hgap =>
          rw [hseq, hlast] at hgap
          omega
      | old => exact ⟨rfl, .mk buffer store hbuffer hstore⟩

theorem AlikePeers.acceptData (h : AlikePeers peer other) (hsame : SameDatagram p q)
    (haccept : Utp.acceptData p peer = .ok (peer', sack)) :
    exists other', Utp.acceptData q other = .ok (other', sack) ∧
      AlikePeers peer' other' := by
  rcases h with ⟨buffer, store, hbuffer, hstore⟩
  have hok : exists out, Utp.acceptData q (peer.receivedAs buffer store) = .ok out := by
    have hpeer := acceptData_isOk.mp ⟨_, haccept⟩
    rw [acceptData_isOk, hsame.sameButPayload.seqNr]
    refine ⟨hpeer.1, fun hnext => ⟨(hpeer.2 hnext).1, fun hmax => ?_⟩⟩
    exact hstore.empty_iff.mp ((hpeer.2 hnext).2 hmax)
  rcases hok with ⟨⟨other', sack'⟩, haccept'⟩
  rcases (acceptData_eq_ok haccept).alike hsame hbuffer hstore
    (acceptData_eq_ok haccept') with
    ⟨rfl, halike⟩
  exact ⟨other', haccept', halike⟩

theorem AlikePeers.handleData (h : AlikePeers peer other) (hsame : SameDatagram p q)
    (ho : Utp.handleData env p peer = .ok o) :
    exists o', Utp.handleData env q other = .ok o' ∧ AlikeOutcomes o o' := by
  rcases bind_eq_ok.mp ho with ⟨⟨peer', sack⟩, haccept, ho⟩
  rcases bind_eq_ok.mp ho with ⟨reply, hreply, ho⟩
  cases ho
  rcases h.acceptData hsame haccept with ⟨other', haccept', halike⟩
  refine ⟨Outcome.quiet other' (.ok (some reply)), ?_, halike, rfl, rfl⟩
  refine bind_eq_ok.mpr ⟨(other', sack), haccept', bind_eq_ok.mpr ⟨reply, ?_, rfl⟩⟩
  have hnumbers : other'.seqNr = peer'.seqNr ∧ other'.lastAcked = peer'.lastAcked := by
    cases halike
    exact ⟨rfl, rfl⟩
  rw [hsame.sameButPayload.prepareReply, hnumbers.1, hnumbers.2]
  exact hreply

end Receiving

/-!
## Every packet
-/

section Alike

variable {env : Env} {p q : Packet} {peer other : UtpSocketState} {o : Outcome}

/-- If the first call completes, the second one does the same. -/
def AlikeCalls (call call' : Except Panic Outcome) : Prop :=
  forall o, call = .ok o -> exists o', call' = .ok o' ∧ AlikeOutcomes o o'

section Ignored

variable {call call' : Except Panic Outcome} {buffer : List Packet} {store : PacketMap}

theorem AlikeCalls.of_ignored
    (hbuffer : List.Forall₂ SameDatagram peer.incomingBuffer buffer)
    (hstore : RelatedMaps SameDatagram peer.outOfOrder store)
    (hsame : call' = call.map (Outcome.receivedAs · buffer store))
    (hkept : forall o, call = .ok o -> o.peer.incomingBuffer = peer.incomingBuffer ∧
      o.peer.outOfOrder = peer.outOfOrder) : AlikeCalls call call' := by
  intro o ho
  rcases hkept o ho with ⟨hbuffer', hstore'⟩
  rw [← hbuffer'] at hbuffer
  rw [← hstore'] at hstore
  rw [hsame, ho]
  exact ⟨_, rfl, .mk buffer store hbuffer hstore, rfl, rfl⟩

theorem AlikeCalls.of_ok (hbuffer : List.Forall₂ SameDatagram peer.incomingBuffer buffer)
    (hstore : RelatedMaps SameDatagram peer.outOfOrder store) {o' : Outcome}
    (hsame : o' = o.receivedAs buffer store)
    (hkept : o.peer.incomingBuffer = peer.incomingBuffer)
    (hkept' : o.peer.outOfOrder = peer.outOfOrder) : AlikeCalls (.ok o) (.ok o') := by
  refine .of_ignored hbuffer hstore (congrArg Except.ok hsame) fun out hout => ?_
  cases hout
  exact ⟨hkept, hkept'⟩

end Ignored

theorem AlikePeers.handlePacket (h : AlikePeers peer other) (hsame : SameDatagram p q)
    (ho : Utp.handlePacket env p peer = .ok o) :
    exists o', Utp.handlePacket env q other = .ok o' ∧ AlikeOutcomes o o' := by
  have hpayload := hsame.sameButPayload
  have hdata : AlikeCalls (Utp.handleData env p peer) (Utp.handleData env q other) :=
    fun o ho => h.handleData hsame ho
  rcases h with ⟨buffer, store, hbuffer, hstore⟩
  have hcalls : AlikeCalls (Utp.handlePacket env p peer)
      (Utp.handlePacket env q (peer.receivedAs buffer store)) := by
    apply handlePacket_same_arm
    case hpeer => rfl
    case htype => exact hpayload.getType
    case hdata => exact hdata
    case hnewSyn =>
      exact .of_ok hbuffer hstore
        (handleNewSyn_receivedAs peer buffer store hpayload) rfl rfl
    case hunexpectedSyn =>
      exact .of_ok hbuffer hstore
        (handleUnexpectedSyn_receivedAs peer buffer store hpayload)
        rfl rfl
    case hsynAck =>
      exact .of_ok hbuffer hstore
        (handleSynAck_receivedAs peer buffer store hpayload) rfl rfl
    case hfin =>
      exact .of_ok hbuffer hstore
        (handleFin_receivedAs peer buffer store hpayload) rfl rfl
    case hreset => exact .of_ok hbuffer hstore rfl rfl rfl
    case hother =>
      exact .of_ok hbuffer hstore
        (handleOther_receivedAs peer buffer store hpayload) rfl rfl
    case hack =>
      refine .of_ignored hbuffer hstore (handleAck_receivedAs peer buffer store hpayload)
        fun o ho => ?_
      have hframe := (handleAck_frame ho).1
      exact ⟨hframe.incomingBuffer, hframe.outOfOrder⟩
    case hstate =>
      refine .of_ignored hbuffer hstore
        (handleState_receivedAs peer buffer store hpayload)
        fun o ho => ?_
      have hframe := (handleState_frame ho).1
      exact ⟨hframe.incomingBuffer, hframe.outOfOrder⟩
  exact hcalls o ho

end Alike

/-!
## Turns of the receive loop
-/

section Turn

variable {socket : UtpSocket} {arrival : Arrival} {buf buf' data : List UInt8}
  {peers peers' : Peers} {addr : SocketAddr} {turn : Turn} {o o' : Outcome}

end Turn

end Utp
