import Utp.Transport.OneWay

/-!
# One-way transport refines selective repeat

Item `i` of the abstract protocol is the `i`-th packet the client created; it
carries the sequence number `base + 1 + i`.  The window of the client holds the
outstanding items, the map of the server the buffered ones, and every reply on
the wire is an abstract acknowledgement.  Each step of the system is matched by
steps of the protocol.
-/

namespace Utp

open Foundation
open Foundation.SelectiveRepeat

namespace OneWay

/-!
## The relation
-/

/-- The client is the abstract sender. -/
structure SenderView (base : Nat) (client : UtpSocketState) (c : Config Packet) :
    Prop where
  state : client.state = .connected
  seqNr : client.seqNr.toNat = base + 1 + c.written.length
  lastAcked : client.lastAcked.toNat = base + c.mark
  window : forall (k : UInt16) p, client.sentWindow[k]? = some p <->
    exists i, i ∈ c.outstanding ∧ c.written[i]? = some p ∧ k.toNat = base + 1 + i

/-- The server is the abstract receiver. -/
structure ReceiverView (base : Nat) (server : UtpSocketState) (c : Config Packet) :
    Prop where
  state : server.state = .connected
  lastAcked : server.lastAcked.toNat = base + c.output.length
  buffer : forall (k : UInt16) p, server.outOfOrder[k]? = some p <->
    exists i, (i, p) ∈ c.buffer ∧ k.toNat = base + 1 + i

/-- The reply says what the abstract acknowledgement says. -/
structure AckView (base : Nat) (a : Ack) (q : Packet) : Prop where
  getType_eq : q.getType = .ack
  ackNr : q.ackNr.toNat = base + a.upTo
  sack : exists exts payload, q.HasChain exts payload ∧
    forall s, Reports q.ackNr exts true s ->
      exists i, i ∈ a.also ∧ s.toNat = base + 1 + i

structure Refines (base limit : Nat) (s : OneWay) (c : Config Packet) : Prop where
  invariant : Invariant c
  sender : SenderView base s.client c
  receiver : ReceiverView base s.server c
  written : c.written = s.created
  output : c.output = s.pushed
  fits : s.created.length <= limit
  items : forall i p, s.created[i]? = some p ->
    p.getType = .data ∧ p.seqNr.toNat = base + 1 + i
  payloads : exists chunks,
    List.Forall₂ (fun (p : Packet) chunk => p.HasChain [] chunk) s.created chunks ∧
      chunks.flatten = s.written.flatten
  wire : forall p, p ∈ s.toServer -> exists i, (i, p) ∈ c.wire
  acks : forall q, q ∈ s.toClient -> exists a, a ∈ c.acks ∧ AckView base a q

theorem refines_initial {base limit : Nat} {client server : UtpSocketState}
    (h : Established base client server) :
    Refines base limit (initial client server) Config.initial where
  invariant := invariant_initial
  sender :=
    { state := h.client_state
      seqNr := h.client_seqNr
      lastAcked := h.client_lastAcked
      window := by
        intro k p
        simp [initial, Config.initial, h.client_sentWindow] }
  receiver :=
    { state := h.server_state
      lastAcked := h.server_lastAcked
      buffer := by
        intro k p
        simp [initial, Config.initial, h.server_outOfOrder] }
  written := rfl
  output := rfl
  fits := Nat.zero_le _
  items := by simp [initial]
  payloads := ⟨[], List.Forall₂.nil, rfl⟩
  wire := by simp [initial]
  acks := by simp [initial]

section Simulation

variable {base limit : Nat} {s : OneWay} {c : Config Packet}

theorem Refines.toServer_spec (h : Refines base limit s c) {p : Packet}
    (hp : p ∈ s.toServer) :
    exists i, (i, p) ∈ c.wire ∧ s.created[i]? = some p ∧ p.getType = .data ∧
      p.seqNr.toNat = base + 1 + i := by
  rcases h.wire p hp with ⟨i, hi⟩
  have hcreated := h.invariant.wire_written hi
  rw [h.written] at hcreated
  rcases h.items i p hcreated with ⟨htype, hseq⟩
  exact ⟨i, hi, hcreated, htype, hseq⟩

theorem SenderView.outstanding {client : UtpSocketState} (h : SenderView base client c)
    {p : Packet} (hp : exists k : UInt16, client.sentWindow[k]? = some p) :
    exists i, i ∈ c.outstanding ∧ c.written[i]? = some p := by
  rcases hp with ⟨k, hk⟩
  rcases (h.window k p).mp hk with ⟨i, hi, hwritten, -⟩
  exact ⟨i, hi, hwritten⟩

theorem Refines.lastAcked_lt (h : Refines base limit s c) {k : UInt16} {p : Packet}
    (hk : s.client.sentWindow[k]? = some p) :
    s.client.lastAcked.toNat < k.toNat := by
  rcases (h.sender.window k p).mp hk with ⟨i, hi, -, hnumber⟩
  have hge := h.invariant.outstanding_ge i hi
  have hmark := h.sender.lastAcked
  omega

/-!
## Writing
-/

def afterWrite (c : Config Packet) (items : List Packet) : Config Packet :=
  { c with
    written := c.written ++ items
    outstanding := c.outstanding ∪
      {i | c.written.length <= i ∧ i < c.written.length + items.length} }

section Write

variable {client : UtpSocketState} {id : UInt16} {chunks : List (List UInt8)}

theorem SenderView.toNat_number (h : SenderView base client c) {i : Nat}
    (hi : base + 1 + c.written.length + i <= 65535) :
    (client.seqNr + UInt16.ofNat i).toNat = base + 1 + c.written.length + i := by
  rw [UInt16.toNat_add, UInt16.toNat_ofNat', h.seqNr]
  omega

theorem getElem?_afterWrite {items : List Packet} {i : Nat} {p : Packet} :
    (afterWrite c items).written[i]? = some p <->
      c.written[i]? = some p ∨
        (c.written.length <= i ∧ items[i - c.written.length]? = some p) := by
  change (c.written ++ items)[i]? = some p <-> _
  by_cases hlt : i < c.written.length
  · rw [List.getElem?_append_left hlt]
    exact (or_iff_left fun h => absurd hlt (Nat.not_lt.mpr h.1)).symm
  · have hnone : c.written[i]? = none := List.getElem?_eq_none (Nat.not_lt.mp hlt)
    rw [List.getElem?_append_right (Nat.not_lt.mp hlt), hnone]
    simp [Nat.not_lt.mp hlt]

theorem SenderView.window_created (h : SenderView base client c)
    (hfit : base + 1 + c.written.length + chunks.length <= 65535) {i : Nat} {p : Packet}
    (hcreated : (createdPackets id client chunks)[i]? = some p) :
    exists j, j ∈ (afterWrite c (createdPackets id client chunks)).outstanding ∧
      (afterWrite c (createdPackets id client chunks)).written[j]? = some p ∧
      (client.seqNr + UInt16.ofNat i).toNat = base + 1 + j := by
  have hi := (List.getElem?_eq_some_iff.mp hcreated).1
  have hlength := @length_createdPackets id client chunks
  refine ⟨c.written.length + i, Or.inr ⟨by omega, by omega⟩,
    getElem?_afterWrite.mpr (Or.inr ⟨by omega, ?_⟩), ?_⟩
  · rw [Nat.add_sub_cancel_left]
    exact hcreated
  · rw [h.toNat_number (by omega)]
    omega

theorem SenderView.window_write (h : SenderView base client c)
    (hfit : base + 1 + c.written.length + chunks.length <= 65535)
    {k : UInt16} {p : Packet} :
    (chunks.foldl (enqueueChunk id) client).sentWindow[k]? = some p <->
      exists i, i ∈ (afterWrite c (createdPackets id client chunks)).outstanding ∧
        (afterWrite c (createdPackets id client chunks)).written[i]? = some p ∧
        k.toNat = base + 1 + i := by
  have hlength := @length_createdPackets id client chunks
  rw [sentWindow_foldl_iff (by omega)]
  constructor
  · intro hcase
    rcases hcase with ⟨i, hcreated, rfl⟩ | ⟨hearlier, -⟩
    · exact h.window_created hfit hcreated
    · rcases (h.window k p).mp hearlier with ⟨i, hi, hwritten, hk⟩
      exact ⟨i, Or.inl hi, getElem?_afterWrite.mpr (Or.inl hwritten), hk⟩
  · intro hitem
    rcases hitem with ⟨i, hi, hwritten, hk⟩
    rcases getElem?_afterWrite.mp hwritten with hold | ⟨hle, hnew⟩
    · have hlt := (List.getElem?_eq_some_iff.mp hold).1
      have houtstanding : i ∈ c.outstanding :=
        hi.resolve_right fun hi => absurd hlt (Nat.not_lt.mpr hi.1)
      refine Or.inr ⟨(h.window k p).mpr ⟨i, houtstanding, hold, hk⟩, ?_⟩
      intro j hj heq
      rw [heq, h.toNat_number (by omega)] at hk
      omega
    · have hj := (List.getElem?_eq_some_iff.mp hnew).1
      refine Or.inl ⟨i - c.written.length, hnew, UInt16.toNat_inj.mp ?_⟩
      rw [h.toNat_number (by omega), hk]
      omega

end Write

theorem SenderView.write {client : UtpSocketState} (h : SenderView base client c)
    (id : UInt16) (buf : List UInt8)
    (hfit : base + 1 + c.written.length + (chunksOf buf).length <= 65535) :
    SenderView base (enqueue id buf client)
      (afterWrite c (createdPackets id client (chunksOf buf))) := by
  have hcount := foldl_enqueueChunk id client (chunksOf buf)
  refine ⟨?_, ?_, ?_, fun k p => h.window_write hfit⟩
  · rw [enqueue, hcount]
    exact h.state
  · rw [enqueue, hcount]
    show (client.seqNr + UInt16.ofNat (chunksOf buf).length).toNat =
      base + 1 + (c.written ++ _).length
    rw [h.toNat_number hfit, List.length_append, length_createdPackets]
    omega
  · rw [enqueue, hcount]
    exact h.lastAcked

theorem Refines.transmit (h : Refines base limit s c) (packets : List Packet)
    (hpackets : forall p, p ∈ packets ->
      exists k : UInt16, s.client.sentWindow[k]? = some p) :
    exists wire, Relation.ReflTransGen Step c { c with wire := wire } ∧
      Refines base limit { s with toServer := s.toServer ++ packets }
        { c with wire := wire } := by
  rcases transmit_all fun p hp => h.sender.outstanding (hpackets p hp) with
    ⟨wire, hsteps, hsub, hall⟩
  refine ⟨wire, hsteps, { h with
    invariant := h.invariant.steps hsteps
    sender := { h.sender with }
    receiver := { h.receiver with }
    wire := ?_ }⟩
  intro p hp
  rcases List.mem_append.mp hp with hold | hnew
  · rcases h.wire p hold with ⟨i, hi⟩
    exact ⟨i, hsub hi⟩
  · exact hall p hnew

theorem Refines.enqueue (h : Refines base limit s c) (hlimit : base + 1 + limit <= 65535)
    (id : UInt16) (buf : List UInt8)
    (hfit : s.created.length + (chunksOf buf).length <= limit) :
    exists c', Step c c' ∧
      Refines base limit
        { s with
          client := Utp.enqueue id buf s.client
          written := s.written ++ [buf]
          created := s.created ++ createdPackets id s.client (chunksOf buf) } c' := by
  have hwritten := congrArg List.length h.written
  have hseqNr := h.sender.seqNr
  have hstep := Step.write c (createdPackets id s.client (chunksOf buf))
  refine ⟨_, hstep,
    { invariant := invariant_step h.invariant hstep
      sender := h.sender.write id buf (by omega)
      receiver := { h.receiver with }
      written := ?_
      output := h.output
      fits := ?_
      items := ?_
      payloads := ?_
      wire := h.wire
      acks := h.acks }⟩
  · show c.written ++ _ = _
    rw [h.written]
  · simpa using hfit
  · intro i p hp
    by_cases hlt : i < s.created.length
    · rw [List.getElem?_append_left hlt] at hp
      exact h.items i p hp
    · rw [List.getElem?_append_right (by omega)] at hp
      rcases createdPackets_spec hp with ⟨htype, hseq, chunk, hchunk, -⟩
      have hj := (List.getElem?_eq_some_iff.mp hchunk).1
      refine ⟨htype, ?_⟩
      rw [hseq, UInt16.toNat_add, UInt16.toNat_ofNat', hseqNr]
      omega
  · rcases h.payloads with ⟨chunks, hall, hflat⟩
    refine ⟨chunks ++ chunksOf buf,
      List.rel_append hall (forall₂_createdPackets id s.client (chunksOf buf)), ?_⟩
    rw [List.flatten_append, List.flatten_append, hflat]
    simp [chunksOf, chunks_flatten]

theorem Refines.write (h : Refines base limit s c) (hlimit : base + 1 + limit <= 65535)
    (env : Env) (buf : List UInt8) (addr : SocketAddr)
    (hfit : s.created.length + (chunksOf buf).length <= limit) :
    exists c', Relation.ReflTransGen Step c c' ∧
      Refines base limit (s.write env buf addr) c' := by
  have hopen : s.client.state ≠ .closed := by
    rw [h.sender.state]
    decide
  rcases h.enqueue hlimit env.id buf hfit with ⟨c₁, hstep, h₁⟩
  rcases h₁.transmit ((sendPackets env buf addr s.client).sent.map Prod.fst)
    (by
      intro p hp
      rcases List.mem_map.mp hp with ⟨d, hd, rfl⟩
      rcases sendPackets_mem hd with ⟨k, hk⟩
      rw [sendPackets_peer hopen] at hk
      exact ⟨k, hk⟩) with ⟨wire, hsteps, h₂⟩
  refine ⟨_, Relation.ReflTransGen.head hstep hsteps, ?_⟩
  simp only [OneWay.write, sendPackets_peer hopen]
  exact h₂

/-!
## Handling an acknowledgement
-/

theorem Refines.countAck (h : Refines base limit s c) {env : Env} {q : Packet}
    {a : Ack} (ha : a ∈ c.acks) (hq : AckView base a q) {counted : UtpSocketState}
    (heffect : AckEffect env q s.client counted) :
    exists c', Relation.ReflTransGen Step c c' ∧ a ∈ c'.acks ∧
      Refines base limit { s with client := counted } c' := by
  have hlast := h.sender.lastAcked
  have hackNr := hq.ackNr
  cases heffect with
  | repeated =>
      exact ⟨c, Relation.ReflTransGen.refl, ha,
        { h with sender := { h.sender with } }⟩
  | next hnext =>
      have hupTo : a.upTo = c.mark + 1 := by omega
      have hstep := Step.advance c ha
      refine ⟨_, Relation.ReflTransGen.single hstep, ha,
        { h with
          invariant := invariant_step h.invariant hstep
          sender := { h.sender with lastAcked := hackNr, window := ?_ }
          receiver := { h.receiver with } }⟩
      intro k p
      simp only [getElem?_erase_eq]
      by_cases hk : q.ackNr = k
      · rw [if_pos hk]
        constructor
        · intro hnone
          cases hnone
        · intro hcase
          rcases hcase with ⟨i, hi, -, hnumber⟩
          rw [← hk] at hnumber
          have hge : ¬ i < a.upTo := hi.2
          omega
      · rw [if_neg hk, h.sender.window k p]
        have hne : k.toNat ≠ q.ackNr.toNat := fun heq =>
          hk (UInt16.toNat_inj.mp heq.symm)
        refine exists_congr fun i => ?_
        constructor
        · intro hcase
          rcases hcase with ⟨hi, hwritten, hnumber⟩
          have hge := h.invariant.outstanding_ge i hi
          refine ⟨⟨hi, ?_⟩, hwritten, hnumber⟩
          show ¬ i < a.upTo
          omega
        · intro hcase
          rcases hcase with ⟨hi, hwritten, hnumber⟩
          exact ⟨hi.1, hwritten, hnumber⟩
  | ignored =>
      exact ⟨c, Relation.ReflTransGen.refl, ha,
        { h with sender := { h.sender with } }⟩

theorem Refines.lost (h : Refines base limit s c) {q : Packet} {a : Ack}
    (ha : a ∈ c.acks) {exts : List Extension}
    (hreports : forall s, Reports q.ackNr exts true s ->
      exists i, i ∈ a.also ∧ s.toNat = base + 1 + i)
    {lost : List UInt16} {client : UtpSocketState}
    (heffect : LostEffect q exts s.client lost client) :
    exists c', Step c c' ∧ Refines base limit { s with client := client } c' := by
  rcases heffect.window with ⟨acked, rfl, hacked⟩
  have hdropped : forall i,
      i ∈ {i | exists k, k ∈ acked ∧ k.toNat = base + 1 + i} ->
        i < a.upTo ∨ i ∈ a.also := by
    intro i hcase
    rcases hcase with ⟨k, hk, hnumber⟩
    rcases hreports k ((hacked k).mp hk).2 with ⟨j, hj, hsame⟩
    have hij : i = j := by omega
    exact Or.inr (hij ▸ hj)
  have hstep := Step.release c {i | exists k, k ∈ acked ∧ k.toNat = base + 1 + i}
    ha hdropped
  refine ⟨_, hstep,
    { h with
      invariant := invariant_step h.invariant hstep
      sender := { h.sender with window := ?_ }
      receiver := { h.receiver with } }⟩
  intro k p
  simp only [getElem?_eraseAll]
  by_cases hk : k ∈ acked
  · rw [if_pos hk]
    constructor
    · intro hnone
      cases hnone
    · intro hcase
      rcases hcase with ⟨i, hi, -, hnumber⟩
      exact absurd ⟨k, hk, hnumber⟩ hi.2
  · rw [if_neg hk, h.sender.window k p]
    refine exists_congr fun i => ?_
    constructor
    · intro hcase
      rcases hcase with ⟨hi, hwritten, hnumber⟩
      refine ⟨⟨hi, ?_⟩, hwritten, hnumber⟩
      intro hcase
      rcases hcase with ⟨k', hk', hnumber'⟩
      have hsame : k' = k := UInt16.toNat_inj.mp (by omega)
      exact hk (hsame ▸ hk')
    · intro hcase
      rcases hcase with ⟨hi, hwritten, hnumber⟩
      exact ⟨hi.1, hwritten, hnumber⟩

theorem Refines.deliverAck (h : Refines base limit s c) {env : Env} {q : Packet}
    (hq : q ∈ s.toClient) {o : Outcome}
    (ho : handlePacket env q s.client = .ok o) :
    exists c', Relation.ReflTransGen Step c c' ∧
      Refines base limit (s.clientStep o) c' := by
  rcases h.acks q hq with ⟨a, ha, hview⟩
  rcases hview.sack with ⟨exts, payload, hchain, hreports⟩
  rw [handlePacket_ack h.sender.state hview.getType_eq] at ho
  rcases handleAck_eq_ok ho with
    ⟨counted, reply, lost, status, heffect, hreply, hlost, hsent, hresult⟩
  rcases h.countAck ha hview heffect with ⟨c₁, hsteps₁, ha₁, h₁⟩
  -- the fast retransmission is taken from the window before the SACK is read
  rcases h₁.transmit reply.toList (by
      intro p hp
      rw [Option.mem_toList] at hp
      exact fastRetransmit_mem (hreply.trans (congrArg _ hp))) with
    ⟨wire₂, hsteps₂, h₂⟩
  rcases h₂.lost ha₁ hreports (getLostSeqNr_eq_ok hchain hlost) with
    ⟨c₃, hstep₃, h₃⟩
  rcases h₃.transmit (o.sent.map Prod.fst) (by
      intro p hp
      rcases List.mem_map.mp hp with ⟨d, hd, rfl⟩
      rcases resendLost_mem hsent hd with hnil | ⟨k, -, hk⟩
      · cases hnil
      · exact ⟨k, hk⟩) with ⟨wire₄, hsteps₄, h₄⟩
  refine ⟨_, hsteps₁.trans (hsteps₂.trans
    (Relation.ReflTransGen.head hstep₃ hsteps₄)), { h₄ with wire := ?_ }⟩
  intro p hp
  apply h₄.wire
  simp only [clientStep, List.mem_append] at hp ⊢
  rcases hp with hold | hnew
  · exact Or.inl (Or.inl hold)
  · rcases mem_emitted_of_status hresult hnew with hsent | hretransmitted
    · exact Or.inr hsent
    · exact Or.inl (Or.inr (Option.mem_toList.mpr hretransmitted))

/-!
## Handling data
-/

theorem reports_announcedSack {peer : UtpSocketState} {s : UInt16}
    (h : Reports peer.lastAcked (announcedSack (buildSelectiveAck peer)) true s) :
    s ∈ peer.outOfOrder := by
  unfold announcedSack at h
  rcases h with ⟨e, he, -, i, hi, hs⟩
  split at he
  · cases he
  · cases List.mem_singleton.mp he
    have hbit : bitAt (buildSelectiveAck peer) i = true :=
      bitAt_of_take (getElem?_bits.mp hi).2
    have hnumber : s.toNat = peer.lastAcked.toNat + 1 + i := by
      rw [SackNumber] at hs
      omega
    exact (bitAt_of_number hnumber).mp hbit

theorem Refines.reply (h : Refines base limit s c) {sack : List UInt8}
    {reply : Packet} (hreply : DataReply s.server sack reply)
    (hsack : sack = [] ∨ sack = buildSelectiveAck s.server) :
    exists c', Step c c' ∧
      Refines base limit { s with toClient := s.toClient ++ [reply] } c' := by
  have hstep := Step.acknowledge c {i | exists x, (i, x) ∈ c.buffer} fun _ hi => hi
  rcases hreply.hasChain with ⟨payload, hchain⟩
  refine ⟨_, hstep,
    { h with
      invariant := invariant_step h.invariant hstep
      sender := { h.sender with }
      receiver := { h.receiver with }
      acks := ?_ }⟩
  intro q hq
  rcases List.mem_append.mp hq with hold | hnew
  · rcases h.acks q hold with ⟨a, ha, hview⟩
    exact ⟨a, Set.mem_insert_of_mem _ ha, hview⟩
  · cases List.mem_singleton.mp hnew
    refine ⟨_, Set.mem_insert _ _,
      { getType_eq := hreply.getType_eq
        ackNr := by rw [hreply.ackNr_eq, h.receiver.lastAcked]
        sack := ⟨_, payload, hchain, ?_⟩ }⟩
    intro k hk
    rw [hreply.ackNr_eq] at hk
    rcases hsack with rfl | rfl
    · rcases hk with ⟨e, he, -⟩
      cases he
    · have hmem := reports_announcedSack hk
      rcases mem_iff_getElem?.mp hmem with ⟨p, hp⟩
      rcases (h.receiver.buffer k p).mp hp with ⟨i, hi, hnumber⟩
      exact ⟨i, ⟨p, hi⟩, hnumber⟩

theorem ReceiverView.buffered {server : UtpSocketState} (h : ReceiverView base server c)
    {start : UInt16} {front back : List (UInt16 × Packet)}
    (hsplit : server.outOfOrder.toList = front ++ back)
    (hcont : Continues start front) {j : Nat} {p : Packet}
    (hj : (front.map Prod.snd)[j]? = some p) {n : Nat}
    (hstart : start.toNat = base + n) : (n + j, p) ∈ c.buffer := by
  rw [List.getElem?_map] at hj
  rcases Option.map_eq_some_iff.mp hj with ⟨⟨k, q⟩, hentry, rfl⟩
  have hnumber := hcont.toNat_getElem hentry
  have hmem : (k, q) ∈ server.outOfOrder.toList := by
    rw [hsplit]
    exact List.mem_append_left _ (List.mem_of_getElem? hentry)
  have hget := Std.ExtTreeMap.mem_toList_iff_getElem?_eq_some.mp hmem
  rcases (h.buffer k q).mp hget with ⟨i, hi, hk⟩
  have hij : i = n + j := by omega
  exact hij ▸ hi

theorem ReceiverView.drained {server : UtpSocketState} (h : ReceiverView base server c)
    {start : UInt16} {front : List (UInt16 × Packet)} (hcont : Continues start front)
    {n : Nat} (hstart : start.toNat = base + n) (k : UInt16) (q : Packet) :
    (eraseAll server.outOfOrder (front.map Prod.fst))[k]? = some q <->
      exists i, ((i, q) ∈ c.buffer ∧ (i < n ∨ n + front.length <= i)) ∧
        k.toNat = base + 1 + i := by
  rw [getElem?_eraseAll]
  by_cases hk : k ∈ front.map Prod.fst
  · have hrange := (hcont.mem_keys k).mp hk
    rw [if_pos hk]
    constructor
    · intro hnone
      cases hnone
    · intro hcase
      rcases hcase with ⟨i, ⟨-, hkept⟩, hki⟩
      omega
  · have hrange := mt (hcont.mem_keys k).mpr hk
    rw [if_neg hk, h.buffer k q]
    refine exists_congr fun i => ?_
    constructor
    · intro hcase
      rcases hcase with ⟨hi, hki⟩
      exact ⟨⟨hi, by omega⟩, hki⟩
    · intro hcase
      rcases hcase with ⟨hi, hki⟩
      exact ⟨hi.1, hki⟩

theorem Refines.inOrder (h : Refines base limit s c) {p : Packet}
    (hp : p ∈ s.toServer) {front back : List (UInt16 × Packet)}
    (hseq : p.seqNr.toNat = s.server.lastAcked.toNat + 1)
    (hsplit : s.server.outOfOrder.toList = front ++ back)
    (hcont : Continues p.seqNr front) (seqNr : UInt16) (incoming : List Packet) :
    exists c', Relation.ReflTransGen Step c c' ∧
      Refines base limit
        { s with
          server := { s.server with
            lastAcked := lastKey p.seqNr front
            seqNr := seqNr
            incomingBuffer := incoming
            outOfOrder := eraseAll s.server.outOfOrder (front.map Prod.fst) }
          pushed := s.pushed ++ p :: front.map Prod.snd } c' := by
  have hlast := h.receiver.lastAcked
  rcases h.toServer_spec hp with ⟨i, hwire, -, -, hnumber⟩
  have hi : i = c.output.length := by omega
  subst hi
  have hlength : (c.output ++ [p]).length = c.output.length + 1 := by simp
  have hstart : p.seqNr.toNat = base + (c.output ++ [p]).length := by
    rw [hlength]
    omega
  have haccept := Step.accept c hwire
  have hflush := flush_all { c with output := c.output ++ [p] } (front.map Prod.snd)
    fun j q hj => h.receiver.buffered hsplit hcont hj hstart
  have hsteps := Relation.ReflTransGen.head haccept hflush
  refine ⟨_, hsteps,
    { h with
      invariant := h.invariant.steps hsteps
      sender := { h.sender with }
      receiver := { state := h.receiver.state, lastAcked := ?_, buffer := ?_ }
      output := ?_ }⟩
  · simp only [hcont.toNat_lastKey, List.length_append, List.length_singleton,
      List.length_map]
    omega
  · intro k q
    rw [h.receiver.drained hcont hstart k q]
    simp only [List.length_map]
    exact Iff.rfl
  · show c.output ++ [p] ++ front.map Prod.snd = s.pushed ++ p :: front.map Prod.snd
    rw [h.output, List.append_assoc, List.singleton_append]

theorem Refines.early (h : Refines base limit s c) {p : Packet}
    (hp : p ∈ s.toServer) :
    exists c', Step c c' ∧
      Refines base limit
        { s with
          server := { s.server with
            outOfOrder := s.server.outOfOrder.insert p.seqNr p } } c' := by
  rcases h.toServer_spec hp with ⟨i, hwire, -, -, hnumber⟩
  have hstep := Step.store c hwire
  have hwritten := h.invariant.wire_written hwire
  refine ⟨_, hstep,
    { h with
      invariant := invariant_step h.invariant hstep
      sender := { h.sender with }
      receiver := { h.receiver with buffer := ?_ } }⟩
  intro k q
  simp only [getElem?_insert_eq]
  by_cases hk : p.seqNr = k
  · rw [if_pos hk]
    constructor
    · intro hsome
      cases hsome
      exact ⟨i, Set.mem_insert _ _, by rw [← hk]; exact hnumber⟩
    · intro hcase
      rcases hcase with ⟨j, hj, hkj⟩
      rw [← hk] at hkj
      have hij : j = i := by omega
      rcases hj with heq | hj
      · cases heq
        rfl
      · have hstored := h.invariant.buffer_written hj
        rw [hij, hwritten] at hstored
        exact hstored
  · rw [if_neg hk, h.receiver.buffer k q]
    constructor
    · intro hcase
      rcases hcase with ⟨j, hj, hkj⟩
      exact ⟨j, Set.mem_insert_of_mem _ hj, hkj⟩
    · intro hcase
      rcases hcase with ⟨j, hj, hkj⟩
      rcases hj with heq | hj
      · cases heq
        exact absurd (UInt16.toNat_inj.mp (hnumber.trans hkj.symm)) hk
      · exact ⟨j, hj, hkj⟩

theorem Refines.deliverData (h : Refines base limit s c) {env : Env} {p : Packet}
    (hp : p ∈ s.toServer) {o : Outcome}
    (ho : handlePacket env p s.server = .ok o) :
    exists c', Relation.ReflTransGen Step c c' ∧
      Refines base limit (s.serverStep o) c' := by
  rcases h.toServer_spec hp with ⟨-, -, -, htype, -⟩
  rw [handlePacket_data h.receiver.state htype] at ho
  rcases handleData_eq_ok ho with ⟨sack, reply, haccept, hquiet, hreply⟩
  have hemitted : o.emitted = [reply] := by
    rw [hquiet]
    rfl
  have heffect := acceptData_eq_ok haccept
  have hserver : exists c', Relation.ReflTransGen Step c c' ∧
      Refines base limit
        { s with
          server := o.peer
          pushed := s.pushed ++
            o.peer.incomingBuffer.drop s.server.incomingBuffer.length } c' ∧
      (sack = [] ∨ sack = buildSelectiveAck o.peer) := by
    generalize o.peer = server at heffect
    cases heffect with
    | inOrder hseq hcount =>
        rcases continuing_front p.seqNr s.server.outOfOrder.toList with
          ⟨back, hsplit⟩
        rcases h.inOrder hp hseq hsplit.symm (continues_continuing ..)
          (s.server.seqNr + 1)
          (s.server.incomingBuffer ++ p :: (following p s.server).map Prod.snd) with
          ⟨c₁, hsteps, h₁⟩
        refine ⟨c₁, hsteps, ?_, Or.inl rfl⟩
        simp only [List.drop_left]
        exact h₁
    | early =>
        rcases h.early hp with ⟨c₁, hstep, h₁⟩
        refine ⟨c₁, Relation.ReflTransGen.single hstep, ?_, Or.inr rfl⟩
        simp only [List.drop_length, List.append_nil]
        exact h₁
    | old =>
        refine ⟨c, Relation.ReflTransGen.refl, ?_, Or.inl rfl⟩
        simp only [List.drop_length, List.append_nil]
        exact h
  rcases hserver with ⟨c₁, hsteps, h₁, hsack⟩
  rcases h₁.reply hreply hsack with ⟨c₂, hstep, h₂⟩
  refine ⟨c₂, hsteps.tail hstep, ?_⟩
  unfold serverStep
  rw [hemitted]
  exact h₂

/-!
## Runs
-/

theorem refines_step (hlimit : base + 1 + limit <= 65535) {a : Action} {s' : OneWay}
    (h : Refines base limit s c) (hstep : step limit s a = some s') :
    exists c', Relation.ReflTransGen Step c c' ∧ Refines base limit s' c' := by
  cases a with
  | write env buf addr =>
      rcases of_step_write hstep with ⟨hfit, rfl⟩
      exact h.write hlimit env buf addr hfit
  | deliverData env index =>
      rcases of_step_deliverData hstep with ⟨p, o, hp, ho, rfl⟩
      exact h.deliverData (List.mem_of_getElem? hp) ho
  | deliverAck env index =>
      rcases of_step_deliverAck hstep with ⟨q, o, hq, ho, rfl⟩
      exact h.deliverAck (List.mem_of_getElem? hq) ho
  | forward channel =>
      cases hstep
      exact ⟨c, Relation.ReflTransGen.refl,
        { h with receiver := { h.receiver with } }⟩

/-- Every reachable state of the system is one of the abstract protocol. -/
theorem refines_reachable (hlimit : base + 1 + limit <= 65535)
    (h : Reachable base limit s) : exists c, Refines base limit s c := by
  rcases h with ⟨client, server, actions, hestablished, hrun⟩
  rcases run_simulation (fun _ _ _ _ h hstep => refines_step hlimit h hstep)
    (refines_initial hestablished) hrun with ⟨c, -, hc⟩
  exact ⟨c, hc⟩

end Simulation

end OneWay

end Utp
