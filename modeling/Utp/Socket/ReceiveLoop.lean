import Utp.Socket.Receive
import Utp.Wire.Grammar

/-!
# Runs of the receive loop

The loop reads every datagram into one buffer, parses the received slice, and
then parses the whole buffer.  This module follows the buffer through a run,
compares the packet that is handled with the datagram that arrived, and says
what a rejected datagram does to the rest of the run.
-/

namespace Utp

open Foundation

/-!
## The buffer
-/

theorem length_take_recvLen (buf data : List UInt8) :
    (data.take (recvLen buf data)).length = recvLen buf data := by
  rw [List.length_take, recvLen]
  omega

theorem recvInto_eq (buf data : List UInt8) :
    recvInto buf data =
      data.take (recvLen buf data) ++ buf.drop (recvLen buf data) := by
  simp only [recvInto, overwrite, List.take_zero, List.nil_append,
    length_take_recvLen, Nat.zero_add]

theorem take_recvInto (buf data : List UInt8) :
    (recvInto buf data).take (recvLen buf data) = data.take (recvLen buf data) := by
  rw [recvInto_eq, List.take_left' (length_take_recvLen buf data)]

@[simp] theorem length_recvInto (buf data : List UInt8) :
    (recvInto buf data).length = buf.length := by
  rw [recvInto_eq, List.length_append, List.length_take, List.length_drop, recvLen]
  omega

theorem length_buf_recvPacketsFrom {socket : UtpSocket} {arrival : Arrival}
    {buf : List UInt8} {peers : Peers} {turn : Turn}
    (h : recvPacketsFrom socket arrival buf peers = .ok turn) :
    turn.buf.length = buf.length := by
  unfold recvPacketsFrom at h
  split at h
  · cases h
    rfl
  · simp only at h
    split at h
    · cases h
      exact length_recvInto ..
    · split at h
      · cases h
        exact length_recvInto ..
      · split at h
        · cases h
          exact length_recvInto ..
        · rcases bind_eq_ok.mp h with ⟨outcome, -, h⟩
          cases h
          rw [finishTurn]
          split
          · split <;> exact length_recvInto ..
          · exact length_recvInto ..

theorem startReceiving_invariant {socket : UtpSocket} (inv : LoopState -> Prop)
    (hstep : forall arrival loop turn, inv loop ->
      recvPacketsFrom socket arrival loop.buf loop.peers = .ok turn ->
      inv (loop.absorb turn))
    {arrivals : List Arrival} {loop loop' : LoopState} (h : inv loop)
    (hrun : startReceiving socket arrivals loop = .ok loop') : inv loop' := by
  induction arrivals generalizing loop with
  | nil =>
      cases hrun
      exact h
  | cons arrival arrivals ih =>
      rcases bind_eq_ok.mp hrun with ⟨turn, hturn, hrun⟩
      have hnext := hstep arrival loop turn h hturn
      simp only at hrun
      split at hrun
      · cases hrun
        exact hnext
      · exact ih hnext hrun

theorem length_buf_startReceiving {socket : UtpSocket} {arrivals : List Arrival}
    {loop loop' : LoopState}
    (hrun : startReceiving socket arrivals loop = .ok loop') :
    loop'.buf.length = loop.buf.length := by
  refine startReceiving_invariant (fun l => l.buf.length = loop.buf.length)
    ?_ rfl hrun
  intro arrival l turn hl hturn
  exact (length_buf_recvPacketsFrom hturn).trans hl

/-!
## The packet that is handled
-/

/-- `packetToHandle` is what `recv_packets_from` gives to `handle_packet`. -/
theorem recvPacketsFrom_of_packetToHandle {socket : UtpSocket} {arrival : Arrival}
    {buf data : List UInt8} {peers : Peers} {addr : SocketAddr} {p : Packet}
    (harrival : arrival.received = .ok (data, addr))
    (hp : packetToHandle socket arrival buf = some p) :
    exists first, Packet.tryFrom (data.take (recvLen buf data)) = .ok first ∧
      recvPacketsFrom socket arrival buf peers =
        (handlePacket { id := socket.id, now := arrival.now, udp := arrival.udp } p
          ((peers addr).getD (newPeer addr first))).map
            (finishTurn arrival addr (recvInto buf data) peers) := by
  simp only [packetToHandle, harrival, toPacket, take_recvInto] at hp
  split at hp
  · cases hp
  · rename_i first hfirst
    split at hp
    · cases hp
    · rename_i hkept
      have hsecond := toOption_eq_some.mp hp
      refine ⟨first, hfirst, ?_⟩
      simp only [recvPacketsFrom, harrival, toPacket, take_recvInto, hfirst,
        if_neg hkept, hsecond]
      cases handlePacket _ p _ <;> rfl

theorem packetToHandle_accepted {socket : UtpSocket} {arrival : Arrival}
    {buf data : List UInt8} {addr : SocketAddr} {q : Packet}
    (harrival : arrival.received = .ok (data, addr))
    (hfits : data.length <= buf.length) (hq : Packet.tryFrom data = .ok q)
    (hkept : simulatesLoss socket arrival q = false) :
    exists p, packetToHandle socket arrival buf = some p ∧
      p.bytes = data ++ buf.drop data.length := by
  have hlen : recvLen buf data = data.length := by
    rw [recvLen]
    omega
  have hbuf : recvInto buf data = data ++ buf.drop data.length := by
    rw [recvInto_eq, hlen, List.take_length]
  rcases Packet.tryFrom_append (buf.drop data.length) hq with ⟨p, hp, hbytes⟩
  refine ⟨p, ?_, hbytes⟩
  simp only [packetToHandle, harrival, toPacket, hlen, hbuf, List.take_left, hq,
    hkept, hp]
  rfl

/-- In a run of the loop the packet that is handled is the datagram that arrived
exactly when the datagram fills the buffer. -/
theorem handled_iff_full {socket : UtpSocket} {arrivals : List Arrival}
    {peers : Peers} {loop : LoopState} {arrival : Arrival} {data : List UInt8}
    {addr : SocketAddr} {q : Packet}
    (hrun : startReceiving socket arrivals (LoopState.initial peers) = .ok loop)
    (harrival : arrival.received = .ok (data, addr)) (hshort : data.length <= 26)
    (hq : Packet.tryFrom data = .ok q)
    (hkept : simulatesLoss socket arrival q = false) :
    packetToHandle socket arrival loop.buf = some q <-> data.length = 26 := by
  have hbuf : loop.buf.length = 26 := length_buf_startReceiving hrun
  have hfits : data.length <= loop.buf.length := by omega
  rcases packetToHandle_accepted harrival hfits hq hkept with ⟨p, hp, hbytes⟩
  have hdata := (Packet.tryFrom_eq_ok.mp hq).1
  rw [hp]
  constructor
  · intro h
    cases h
    rw [hdata] at hbytes
    have hlength := congrArg List.length hbytes
    rw [List.length_append, List.length_drop] at hlength
    omega
  · intro hfull
    rw [List.drop_of_length_le (by omega), List.append_nil] at hbytes
    exact congrArg some (Packet.ext (hbytes.trans hdata.symm))

def Arrival.healthy (data : List UInt8) (addr : SocketAddr) : Arrival where
  received := .ok (data, addr)
  draw := false
  now := ⟨0⟩
  udp := fun _ => .ok ()
  channel := fun _ => .ok ()

def plainSocket : UtpSocket where
  id := 8
  drop := false

def fullPacket : Packet := Packet.withPayload [1, 2, 3, 4, 5, 6]

def shortPacket : Packet := Packet.withPayload [9]

theorem tryFrom_withPayload (payload : List UInt8) :
    Packet.tryFrom (Packet.withPayload payload).bytes =
      .ok (Packet.withPayload payload) := by
  refine Packet.tryFrom_eq_ok.mpr ⟨rfl, ?_⟩
  have hdefault : checkExtensions Packet.defaultHeader = .ok () := by decide +kernel
  exact checkExtensions_append payload hdefault

theorem handled_full_packet :
    packetToHandle plainSocket (.healthy fullPacket.bytes (loopback 1))
      (List.replicate 26 0) = some fullPacket := by
  have hrun : startReceiving plainSocket [] (LoopState.initial fun _ => none) =
    .ok (LoopState.initial fun _ => none) := rfl
  have harrival : (Arrival.healthy fullPacket.bytes (loopback 1)).received =
    .ok (fullPacket.bytes, loopback 1) := rfl
  exact (handled_iff_full hrun harrival (by decide) (tryFrom_withPayload _) rfl).mpr
    (by decide)

/-- A packet with one byte of payload is handled with the last five payload
bytes of the packet before it. -/
theorem handled_stale_payload :
    exists loop p,
      startReceiving plainSocket [.healthy fullPacket.bytes (loopback 1)]
        (LoopState.initial fun _ => none) = .ok loop ∧
      Packet.tryFrom shortPacket.bytes = .ok shortPacket ∧
      packetToHandle plainSocket (.healthy shortPacket.bytes (loopback 1)) loop.buf =
        some p ∧
      p.bytes ≠ shortPacket.bytes ∧ p.payload = .ok [9, 2, 3, 4, 5, 6] := by
  have hbuf : (startReceiving plainSocket [.healthy fullPacket.bytes (loopback 1)]
      (LoopState.initial fun _ => none)).toOption.map LoopState.buf =
        some fullPacket.bytes := by
    decide +kernel
  rcases Option.map_eq_some_iff.mp hbuf with ⟨loop, hloop, hbytes⟩
  have hhandled : packetToHandle plainSocket (.healthy shortPacket.bytes (loopback 1))
      fullPacket.bytes = some (Packet.withPayload [9, 2, 3, 4, 5, 6]) := by
    decide +kernel
  refine ⟨loop, Packet.withPayload [9, 2, 3, 4, 5, 6], toOption_eq_some.mp hloop,
    tryFrom_withPayload _, ?_, by decide, ?_⟩
  · rw [hbytes]
    exact hhandled
  · exact (Packet.hasChain_withPayload _).payload

/-!
## The second parse
-/

/-- The parse of the whole buffer, behind that of the received slice. -/
theorem tryFrom_recvInto {buf data : List UInt8} {p : Packet}
    (hp : toPacket ((recvInto buf data).take (recvLen buf data)) = .ok p) :
    exists q, Packet.tryFrom (recvInto buf data) = .ok q ∧
      p.LongerBy q ((recvInto buf data).drop (recvLen buf data)) := by
  have hsecond := Packet.tryFrom_append_longer
    ((recvInto buf data).drop (recvLen buf data)) hp
  rw [List.take_append_drop] at hsecond
  exact hsecond

/-- Bytes behind an accepted slice do not disturb the parse: they become payload.
So the parse of the whole buffer succeeds whenever the parse of the received
slice did, and yields the received packet with more payload. -/
theorem second_parse_accepts :
    (forall (x y : List UInt8) (p : Packet), Packet.tryFrom x = .ok p ->
      exists q, Packet.tryFrom (x ++ y) = .ok q ∧ p.LongerBy q y) ∧
    forall (buf data : List UInt8) (p : Packet),
      toPacket ((recvInto buf data).take (recvLen buf data)) = .ok p ->
        exists q, Packet.tryFrom (recvInto buf data) = .ok q ∧
          p.LongerBy q ((recvInto buf data).drop (recvLen buf data)) := by
  constructor
  · intro x y p hp
    exact Packet.tryFrom_append_longer y hp
  · intro buf data p hp
    exact tryFrom_recvInto hp

def sackDatagram : List UInt8 :=
  [0x21, 1, 0, 7, 0, 0, 0, 0, 0, 0, 0, 0, 0, 0, 0, 0, 0, 3, 0, 2, 0, 4, 5, 0, 0, 0, 9]

/-- With two bytes behind it, the SACK is read as before and the payload is longer. -/
theorem second_parse_accepts_payload :
    exists p q, Packet.tryFrom sackDatagram = .ok p ∧
      p.extensions = .ok [⟨.selectiveAck, [5, 0, 0, 0]⟩] ∧ p.payload = .ok [9] ∧
      Packet.tryFrom (sackDatagram ++ [7, 8]) = .ok q ∧ p.LongerBy q [7, 8] := by
  have hparsed : (Packet.tryFrom sackDatagram).toOption.map (fun p =>
      (p.extensions.toOption, p.payload.toOption)) =
        some (some [⟨.selectiveAck, [5, 0, 0, 0]⟩], some [9]) := by
    decide +kernel
  rcases Option.map_eq_some_iff.mp hparsed with ⟨p, hp, hread⟩
  have hp := toOption_eq_some.mp hp
  rcases Prod.mk.inj hread with ⟨hexts, hpayload⟩
  rcases second_parse_accepts.1 sackDatagram [7, 8] p hp with ⟨q, hq, hlonger⟩
  exact ⟨p, q, hp, toOption_eq_some.mp hexts, toOption_eq_some.mp hpayload, hq, hlonger⟩

/-!
## Rejected datagrams
-/

structure Arrival.Healthy (a : Arrival) : Prop where
  received : exists d, a.received = .ok d
  udp : forall n, a.udp n = .ok ()
  channel : forall n, a.channel n = .ok ()

/-- The parser rejects the datagram. -/
def Arrival.Rejected (a : Arrival) : Prop :=
  exists data addr e, a.received = .ok (data, addr) ∧ Packet.tryFrom data = .error e

/-- The first parse of the turn succeeds: it sees what fits into the buffer. -/
def Arrival.parses (a : Arrival) : Bool :=
  match a.received with
  | .error _ => false
  | .ok (data, _) => (Packet.tryFrom (data.take 26)).toOption.isSome

/-- The second list is the first one with rejected datagrams inserted. -/
inductive Inserted : List Arrival -> List Arrival -> Prop where
  | nil : Inserted [] []
  | keep (a : Arrival) {arrivals inserted : List Arrival} :
      Inserted arrivals inserted -> Inserted (a :: arrivals) (a :: inserted)
  | insert {a : Arrival} {arrivals inserted : List Arrival} :
      a.Rejected -> Inserted arrivals inserted -> Inserted arrivals (a :: inserted)

/-- What can be observed of the loop: the peers, the datagrams sent, the packets
forwarded, and how many datagrams were processed. -/
structure Observation where
  peers : Peers
  sent : List Datagram
  forwarded : List Packet
  processed : Nat

def LoopState.observe (loop : LoopState) : Observation where
  peers := loop.peers
  sent := loop.sent
  forwarded := loop.forwarded
  processed := loop.processed

def observeRun (socket : UtpSocket) (peers : Peers) (arrivals : List Arrival) :
    Except Panic Observation :=
  (startReceiving socket arrivals (LoopState.initial peers)).map LoopState.observe

theorem Arrival.parses_eq {a : Arrival} {data : List UInt8} {addr : SocketAddr}
    (h : a.received = .ok (data, addr)) :
    a.parses = (Packet.tryFrom (data.take 26)).toOption.isSome := by
  simp only [Arrival.parses, h]

theorem Arrival.Rejected.not_parses {a : Arrival} (h : a.Rejected) :
    a.parses = false := by
  rcases h with ⟨data, addr, e, hreceived, hrejected⟩
  rw [Arrival.parses_eq hreceived]
  cases htake : Packet.tryFrom (data.take 26) with
  | error e => rfl
  | ok p =>
      rcases Packet.tryFrom_append (data.drop 26) htake with ⟨q, hq, -⟩
      rw [List.take_append_drop, hrejected] at hq
      cases hq

theorem take_recvLen {buf : List UInt8} (hbuf : buf.length = 26) (data : List UInt8) :
    data.take (recvLen buf data) = data.take 26 := by
  rw [recvLen, hbuf, List.take_eq_take_iff]
  omega

theorem observe_of_not_parses {socket : UtpSocket} {a : Arrival}
    {arrivals : List Arrival} {loop : LoopState} (hbuf : loop.buf.length = 26)
    (hreceived : exists d, a.received = .ok d) (hparses : a.parses = false) :
    (startReceiving socket (a :: arrivals) loop).map LoopState.observe =
      .ok loop.observe := by
  rcases hreceived with ⟨⟨data, addr⟩, hreceived⟩
  rw [Arrival.parses_eq hreceived] at hparses
  cases htake : Packet.tryFrom (data.take 26) with
  | ok p =>
      rw [htake] at hparses
      cases hparses
  | error e =>
      have hturn : recvPacketsFrom socket a loop.buf loop.peers =
          .ok (Turn.idle (recvInto loop.buf data) loop.peers
            (.error ⟨.invalidData, e.display⟩)) := by
        simp only [recvPacketsFrom, hreceived, toPacket, take_recvInto,
          take_recvLen hbuf, htake]
      simp only [startReceiving, hturn, bind, Except.bind, LoopState.absorb,
        Turn.idle, pure, Except.pure, Except.map, LoopState.observe,
        List.append_nil]

theorem forward_healthy {channel : Nat -> Except String Unit}
    (h : forall n, channel n = .ok ()) (buffer forwarded : List Packet) :
    forward channel buffer forwarded = (forwarded ++ buffer, [], .ok ()) := by
  induction buffer generalizing forwarded with
  | nil => simp [forward]
  | cons data rest ih =>
      rw [forward, h]
      simp only [ih, List.append_assoc, List.singleton_append]

theorem result_of_parses {socket : UtpSocket} {a : Arrival} {buf : List UInt8}
    {peers : Peers} {turn : Turn} (hbuf : buf.length = 26) (hhealthy : a.Healthy)
    (hparses : a.parses = true)
    (hturn : recvPacketsFrom socket a buf peers = .ok turn) :
    exists addr, turn.result = .ok addr := by
  rcases hhealthy.received with ⟨⟨data, addr⟩, hreceived⟩
  rw [Arrival.parses_eq hreceived] at hparses
  cases htake : Packet.tryFrom (data.take 26) with
  | error e =>
      rw [htake] at hparses
      cases hparses
  | ok first =>
      -- the second parse sees more bytes behind the accepted ones
      rcases Packet.tryFrom_append (buf.drop (recvLen buf data)) htake with
        ⟨p, hp, -⟩
      rw [← take_recvLen hbuf data, ← recvInto_eq] at hp
      simp only [recvPacketsFrom, hreceived, toPacket, take_recvInto,
        take_recvLen hbuf, htake, hp] at hturn
      refine ⟨addr, ?_⟩
      split at hturn
      · cases hturn
        rfl
      · rcases bind_eq_ok.mp hturn with ⟨outcome, -, hturn⟩
        cases hturn
        rw [finishTurn]
        simp only [hhealthy.udp, forward_healthy hhealthy.channel]
        split <;> rfl

theorem startReceiving_cons_parses {socket : UtpSocket} {a : Arrival}
    (arrivals : List Arrival) {loop : LoopState} {turn : Turn}
    (hturn : recvPacketsFrom socket a loop.buf loop.peers = .ok turn)
    (hresult : exists addr, turn.result = .ok addr) :
    startReceiving socket (a :: arrivals) loop =
      startReceiving socket arrivals (loop.absorb turn) ∧
    (loop.absorb turn).processed = loop.processed + 1 := by
  rcases hresult with ⟨addr, hresult⟩
  have hstopped : (loop.absorb turn).stopped = none := by
    simp only [LoopState.absorb, hresult]
  constructor
  · simp only [startReceiving, hturn, bind, Except.bind, hstopped]
  · simp only [LoopState.absorb, hresult]

/-- The loop only sees the datagrams before the first one that does not parse. -/
theorem observe_takeWhile {socket : UtpSocket} {arrivals : List Arrival}
    {loop : LoopState} (hbuf : loop.buf.length = 26)
    (hhealthy : forall a, a ∈ arrivals -> exists d, a.received = .ok d)
    (hparsed : forall a, a ∈ arrivals -> a.parses = true -> a.Healthy) :
    (startReceiving socket arrivals loop).map LoopState.observe =
      (startReceiving socket (arrivals.takeWhile Arrival.parses) loop).map
        LoopState.observe := by
  induction arrivals generalizing loop with
  | nil => rfl
  | cons a arrivals ih =>
      cases hparses : a.parses with
      | false =>
          rw [observe_of_not_parses hbuf (hhealthy a (List.mem_cons_self ..)) hparses,
            List.takeWhile_cons_of_neg (by simp [hparses])]
          rfl
      | true =>
          rw [List.takeWhile_cons_of_pos hparses]
          cases hturn : recvPacketsFrom socket a loop.buf loop.peers with
          | error e =>
              simp only [startReceiving, hturn, bind, Except.bind]
          | ok turn =>
              have hresult := result_of_parses hbuf
                (hparsed a (List.mem_cons_self ..) hparses) hparses hturn
              rw [(startReceiving_cons_parses _ hturn hresult).1,
                (startReceiving_cons_parses _ hturn hresult).1]
              exact ih ((length_buf_recvPacketsFrom hturn).trans hbuf)
                (fun a ha => hhealthy a (List.mem_cons_of_mem _ ha))
                (fun a ha => hparsed a (List.mem_cons_of_mem _ ha))

theorem processed_of_parses {socket : UtpSocket} {arrivals : List Arrival}
    {loop loop' : LoopState} (hbuf : loop.buf.length = 26)
    (hall : forall a, a ∈ arrivals -> a.parses = true ∧ a.Healthy)
    (hrun : startReceiving socket arrivals loop = .ok loop') :
    loop'.processed = loop.processed + arrivals.length := by
  induction arrivals generalizing loop with
  | nil =>
      cases hrun
      rfl
  | cons a arrivals ih =>
      have ha := hall a (List.mem_cons_self ..)
      rcases bind_eq_ok.mp hrun with ⟨turn, hturn, -⟩
      have hresult := result_of_parses hbuf ha.2 ha.1 hturn
      rcases startReceiving_cons_parses arrivals hturn hresult with
        ⟨hrest, hcount⟩
      rw [hrest] at hrun
      rw [ih ((length_buf_recvPacketsFrom hturn).trans hbuf)
        (fun a ha => hall a (List.mem_cons_of_mem _ ha)) hrun, hcount,
        List.length_cons]
      omega

theorem Inserted.takeWhile_isPrefix {arrivals inserted : List Arrival}
    (h : Inserted arrivals inserted) :
    inserted.takeWhile Arrival.parses <+: arrivals.takeWhile Arrival.parses := by
  induction h with
  | nil => exact List.prefix_refl _
  | keep a _ ih =>
      cases hparses : a.parses with
      | false =>
          rw [List.takeWhile_cons_of_neg (by simp [hparses])]
          exact List.nil_prefix
      | true =>
          rw [List.takeWhile_cons_of_pos hparses, List.takeWhile_cons_of_pos hparses]
          exact (List.prefix_cons_inj a).mpr ih
  | insert hrejected _ _ =>
      rw [List.takeWhile_cons_of_neg (by simp [hrejected.not_parses])]
      exact List.nil_prefix

theorem Inserted.forall_received {arrivals inserted : List Arrival}
    (h : Inserted arrivals inserted)
    (hhealthy : forall a, a ∈ arrivals -> a.Healthy) :
    (forall a, a ∈ inserted -> exists d, a.received = .ok d) ∧
      forall a, a ∈ inserted -> a.parses = true -> a.Healthy := by
  induction h with
  | nil =>
      exact ⟨fun a ha => absurd ha List.not_mem_nil,
        fun a ha => absurd ha List.not_mem_nil⟩
  | keep a _ ih =>
      have hrest := ih fun b hb => hhealthy b (List.mem_cons_of_mem _ hb)
      have ha := hhealthy a (List.mem_cons_self ..)
      constructor
      · intro b hb
        rcases List.mem_cons.mp hb with rfl | hb
        · exact ha.received
        · exact hrest.1 b hb
      · intro b hb hparses
        rcases List.mem_cons.mp hb with rfl | hb
        · exact ha
        · exact hrest.2 b hb hparses
  | insert hrejected _ ih =>
      have hrest := ih hhealthy
      constructor
      · intro b hb
        rcases List.mem_cons.mp hb with rfl | hb
        · rcases hrejected with ⟨data, addr, e, hreceived, -⟩
          exact ⟨_, hreceived⟩
        · exact hrest.1 b hb
      · intro b hb hparses
        rcases List.mem_cons.mp hb with rfl | hb
        · rw [hrejected.not_parses] at hparses
          cases hparses
        · exact hrest.2 b hb hparses

theorem forall_takeWhile {arrivals : List Arrival}
    (hhealthy : forall a, a ∈ arrivals -> a.parses = true -> a.Healthy) :
    forall a, a ∈ arrivals.takeWhile Arrival.parses -> a.parses = true ∧ a.Healthy := by
  intro a ha
  have hparses := List.mem_takeWhile_imp ha
  exact ⟨hparses, hhealthy a ((List.takeWhile_prefix _).subset ha) hparses⟩

/-- Inserting rejected datagrams goes unnoticed exactly when none of them stands
before a datagram the loop would have processed. -/
theorem inserted_unnoticed_iff {socket : UtpSocket} {peers : Peers}
    {arrivals inserted : List Arrival} (h : Inserted arrivals inserted)
    (hhealthy : forall a, a ∈ arrivals -> a.Healthy) :
    (inserted.takeWhile Arrival.parses = arrivals.takeWhile Arrival.parses ->
      observeRun socket peers inserted = observeRun socket peers arrivals) ∧
    ((exists seen, observeRun socket peers arrivals = .ok seen) ->
      observeRun socket peers inserted = observeRun socket peers arrivals ->
      inserted.takeWhile Arrival.parses = arrivals.takeWhile Arrival.parses) := by
  have hbuf : (LoopState.initial peers).buf.length = 26 := rfl
  have hinserted := h.forall_received hhealthy
  have hleft : observeRun socket peers inserted = _ :=
    observe_takeWhile hbuf hinserted.1 hinserted.2
  have hright : observeRun socket peers arrivals = _ :=
    observe_takeWhile hbuf (fun a ha => (hhealthy a ha).received)
      (fun a ha _ => hhealthy a ha)
  rw [hleft, hright]
  constructor
  · intro hsame
    rw [hsame]
  · intro hseen hsame
    rcases hseen with ⟨seen, hseen⟩
    rw [hseen] at hsame
    rcases map_eq_ok.mp hseen with ⟨loop, hloop, hobserved⟩
    rcases map_eq_ok.mp hsame with ⟨loop', hloop', hobserved'⟩
    have hcount := processed_of_parses hbuf
      (forall_takeWhile fun a ha _ => hhealthy a ha) hloop
    have hcount' := processed_of_parses hbuf (forall_takeWhile hinserted.2) hloop'
    have hprocessed : loop'.processed = loop.processed :=
      congrArg Observation.processed (hobserved'.trans hobserved.symm)
    exact h.takeWhile_isPrefix.eq_of_length (by omega)

def synArrival : Arrival :=
  .healthy (barePacket .syn 1 0).bytes (loopback 1)

def garbageArrival : Arrival := .healthy [0xff] (loopback 1)

theorem healthy_healthy (data : List UInt8) (addr : SocketAddr) :
    (Arrival.healthy data addr).Healthy where
  received := ⟨_, rfl⟩
  udp _ := rfl
  channel _ := rfl

theorem garbageArrival_rejected : garbageArrival.Rejected :=
  ⟨[0xff], loopback 1, .invalidPacketLength, rfl, rfl⟩

theorem garbage_last_unnoticed :
    observeRun plainSocket (fun _ => none) [synArrival, garbageArrival] =
      observeRun plainSocket (fun _ => none) [synArrival] := by
  have hinserted : Inserted [synArrival] [synArrival, garbageArrival] :=
    .keep _ (.insert garbageArrival_rejected .nil)
  have hhealthy : forall a, a ∈ [synArrival] -> a.Healthy := by
    intro a ha
    cases List.mem_singleton.mp ha
    exact healthy_healthy _ _
  refine (inserted_unnoticed_iff hinserted hhealthy).1 ?_
  have hsyn : synArrival.parses = true := by decide +kernel
  simp [hsyn, garbageArrival_rejected.not_parses]

/-- Garbage in front of the `Syn` keeps the loop from ever seeing it: the reply
is missing. -/
theorem garbage_first_noticed :
    Inserted [synArrival] [garbageArrival, synArrival] ∧
    (forall a, a ∈ [synArrival] -> a.Healthy) ∧
    (exists seen seen',
      observeRun plainSocket (fun _ => none) [synArrival] = .ok seen ∧
      observeRun plainSocket (fun _ => none) [garbageArrival, synArrival] = .ok seen' ∧
      seen.sent.length = 1 ∧ seen'.sent = []) ∧
    observeRun plainSocket (fun _ => none) [garbageArrival, synArrival] ≠
      observeRun plainSocket (fun _ => none) [synArrival] := by
  have hsyn : (observeRun plainSocket (fun _ => none) [synArrival]).toOption.map
      (fun seen => seen.sent.length) = some 1 := by
    decide +kernel
  have hgarbage : (observeRun plainSocket (fun _ => none)
      [garbageArrival, synArrival]).toOption.map Observation.sent = some [] := by
    decide +kernel
  rcases Option.map_eq_some_iff.mp hsyn with ⟨seen, hseen, hreplied⟩
  rcases Option.map_eq_some_iff.mp hgarbage with ⟨seen', hseen', hsilent⟩
  have hrun := toOption_eq_some.mp hseen
  have hrun' := toOption_eq_some.mp hseen'
  refine ⟨.insert garbageArrival_rejected (.keep _ .nil), ?_,
    ⟨seen, seen', hrun, hrun', hreplied, hsilent⟩, ?_⟩
  · intro a ha
    cases List.mem_singleton.mp ha
    exact healthy_healthy _ _
  · intro hsame
    rw [hrun, hrun'] at hsame
    cases hsame
    rw [hsilent] at hreplied
    cases hreplied

end Utp
