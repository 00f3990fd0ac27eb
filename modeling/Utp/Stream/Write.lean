import Utp.Socket.SendPackets
import Utp.Stream.Read

/-!
# Writing to a stream

`UtpStream::poll_write` makes a new future of `send_packets` on each call, polls
it once and drops it.  The future puts the whole buffer into the sent window
before its first send, so a call that returns `Pending` in one of the sends has
done that already, and the next one does it again.
-/

namespace Utp

open Foundation

/-- What one poll of `send_packets` reads from outside: the identifier of the
socket, the lock of the peer, and the outcome of each UDP send it attempts. -/
structure PollEnv where
  id : UInt16
  lock : Poll Unit
  udp : Nat -> Poll (Except IoError Unit)

/-- The entry of the map of peers that its iterator yields first, if there is
one. -/
abbrev FirstPeer := Option (SocketAddr × UtpSocketState)

/-- What one poll leaves behind.  The packets it put into the window are
`created`. -/
structure WriteOutcome (α : Type) where
  first : FirstPeer
  created : List Packet
  sent : List Datagram
  result : Poll (Except IoError α)

def pollTransmit (env : PollEnv) (addr : SocketAddr) :
    List Packet -> List Datagram -> List Datagram × Poll (Except IoError Unit)
  | [], sent => (sent, .ready (.ok ()))
  | packet :: packets, sent =>
      match env.udp sent.length with
      | .ready (.ok ()) => pollTransmit env addr packets (sent ++ [(packet, addr)])
      | .ready (.error e) => (sent, .ready (.error ⟨.networkUnreachable, e.text⟩))
      | .pending => (sent, .pending)

/-- The first poll of `send_packets` without an address. -/
def pollSendPackets (env : PollEnv) (buf : List UInt8) : FirstPeer -> WriteOutcome Unit
  | none =>
      { first := none, created := [], sent := [],
        result := .ready (.error ⟨.notFound, "No peers"⟩) }
  | some (addr, peer) =>
      match env.lock with
      | .pending =>
          { first := some (addr, peer), created := [], sent := [], result := .pending }
      | .ready () =>
          if peer.state = .closed then
            { first := some (addr, peer), created := [], sent := [],
              result := .ready (.error SocketError.connectionClosed.toIoError) }
          else
            let created := createdPackets env.id peer (chunksOf buf)
            let peer := enqueue env.id buf peer
            let (sent, result) :=
              pollTransmit env addr (peer.sentWindow.toList.map Prod.snd) []
            { first := some (addr, peer), created := created, sent := sent,
              result := result }

def pollWrite (env : PollEnv) (buf : List UInt8) (first : FirstPeer) : WriteOutcome Nat :=
  let out := pollSendPackets env buf first
  { first := out.first
    created := out.created
    sent := out.sent
    result :=
      match out.result with
      | .ready (.ok ()) => .ready (.ok buf.length)
      | .ready (.error error) => .ready (.error error)
      | .pending => .pending }

/-!
## A poll that is not suspended
-/

def Env.ready (env : Env) : PollEnv where
  id := env.id
  lock := .ready ()
  udp := fun i => .ready (env.udp i)

theorem pollTransmit_ready (env : Env) (addr : SocketAddr) (packets : List Packet)
    (sent : List Datagram) :
    pollTransmit env.ready addr packets sent =
      ((transmit env addr packets sent).1,
        .ready (transmit env addr packets sent).2) := by
  induction packets generalizing sent with
  | nil => rfl
  | cons packet packets ih =>
      have hudp : env.ready.udp sent.length = .ready (env.udp sent.length) := rfl
      rw [pollTransmit, transmit, hudp]
      cases env.udp sent.length with
      | error e => rfl
      | ok u => exact ih _

theorem pollSendPackets_ready (env : Env) (buf : List UInt8) (addr : SocketAddr)
    (peer : UtpSocketState) :
    (pollSendPackets env.ready buf (some (addr, peer))).first =
        some (addr, (sendPackets env buf addr peer).peer) ∧
      (pollSendPackets env.ready buf (some (addr, peer))).sent =
        (sendPackets env buf addr peer).sent ∧
      (pollSendPackets env.ready buf (some (addr, peer))).result =
        .ready (sendPackets env buf addr peer).result := by
  have hlock : env.ready.lock = .ready () := rfl
  simp only [pollSendPackets, sendPackets, hlock]
  split
  · exact ⟨rfl, rfl, rfl⟩
  · simp only [pollTransmit_ready]
    exact ⟨rfl, rfl, rfl⟩

/-!
## Calls that do not complete
-/

/-- The call leaves the numbers and the window of the peer as they are. -/
def Unaffected (before after : FirstPeer) : Prop :=
  after.map (fun e => (e.1, e.2.seqNr, e.2.sentWindow)) =
    before.map fun e => (e.1, e.2.seqNr, e.2.sentWindow)

instance (before after : FirstPeer) : Decidable (Unaffected before after) :=
  inferInstanceAs (Decidable (_ = _))

/-- Putting the buffer into the window changes nothing: it is empty, or its
numbers run through all there are and end where they began, and the window holds
the packet of the last chunk for each number. -/
def AlreadyQueued (id : UInt16) (buf : List UInt8) (peer : UtpSocketState) : Prop :=
  buf = [] ∨
    (65536 ∣ (chunksOf buf).length ∧
      forall i p, (createdPackets id peer (chunksOf buf))[i]? = some p ->
        (chunksOf buf).length <= i + 65536 ->
          peer.sentWindow[peer.seqNr + UInt16.ofNat i]? = some p)

inductive StopsEarly (env : PollEnv) (buf : List UInt8) : FirstPeer -> Prop where
  | noPeer : StopsEarly env buf none
  | waiting {addr : SocketAddr} {peer : UtpSocketState} :
      env.lock = .pending -> StopsEarly env buf (some (addr, peer))
  | closed {addr : SocketAddr} {peer : UtpSocketState} :
      peer.state = .closed -> StopsEarly env buf (some (addr, peer))
  | queued {addr : SocketAddr} {peer : UtpSocketState} :
      AlreadyQueued env.id buf peer -> StopsEarly env buf (some (addr, peer))

theorem ofNat_eq_zero_iff (n : Nat) : UInt16.ofNat n = 0 <-> 65536 ∣ n := by
  rw [← UInt16.toNat_inj, UInt16.toNat_ofNat', UInt16.toNat_zero]
  exact (Nat.dvd_iff_mod_eq_zero ..).symm

theorem last_index {n : Nat} (hn : 65536 ∣ n) (hpos : 0 < n) (k : UInt16) :
    exists i, i < n ∧ n <= i + 65536 ∧ UInt16.ofNat i = k := by
  have hle := Nat.le_of_dvd hpos hn
  have hlt := k.toNat_lt
  refine ⟨n - 65536 + k.toNat, by omega, by omega, ?_⟩
  rw [UInt16.ofNat_add, (ofNat_eq_zero_iff _).mpr (Nat.dvd_sub hn (Nat.dvd_refl _)),
    UInt16.zero_add, UInt16.ofNat_toNat]

theorem seqNr_enqueue (id : UInt16) (buf : List UInt8) (peer : UtpSocketState) :
    (enqueue id buf peer).seqNr = peer.seqNr + UInt16.ofNat (chunksOf buf).length :=
  congrArg UtpSocketState.seqNr (foldl_enqueueChunk id peer (chunksOf buf))

theorem enqueue_unaffected_iff {id : UInt16} {buf : List UInt8} {peer : UtpSocketState} :
    ((enqueue id buf peer).seqNr = peer.seqNr ∧
        (enqueue id buf peer).sentWindow = peer.sentWindow) <->
      AlreadyQueued id buf peer := by
  rw [seqNr_enqueue, add_eq_left, ofNat_eq_zero_iff]
  constructor
  · rintro ⟨hdvd, hwindow⟩
    refine Or.inr ⟨hdvd, fun i p hp hlast => ?_⟩
    rw [← hwindow]
    exact sentWindow_foldl_created hlast hp
  · rintro (hnil | ⟨hdvd, hqueued⟩)
    · rw [hnil, enqueue, chunksOf_nil]
      exact ⟨Nat.dvd_zero _, rfl⟩
    · refine ⟨hdvd, Std.ExtTreeMap.ext_getElem? fun k => ?_⟩
      by_cases hpos : 0 < (chunksOf buf).length
      · rcases last_index hdvd hpos (k - peer.seqNr) with ⟨i, hlt, hlast, hnumber⟩
        have hk : k = peer.seqNr + UInt16.ofNat i := by
          rw [hnumber, UInt16.add_comm, UInt16.sub_add_cancel]
        rw [← @length_createdPackets id peer (chunksOf buf)] at hlt
        have hp := List.getElem?_eq_getElem hlt
        rw [hk]
        exact (sentWindow_foldl_created hlast hp).trans (hqueued i _ hp hlast).symm
      · have hnone := List.length_eq_zero_iff.mp (Nat.eq_zero_of_not_pos hpos)
        rw [enqueue, hnone]
        rfl

theorem pollWrite_first (env : PollEnv) (buf : List UInt8) (addr : SocketAddr)
    (peer : UtpSocketState) :
    (pollWrite env buf (some (addr, peer))).first =
      if env.lock = .pending ∨ peer.state = .closed then some (addr, peer)
      else some (addr, enqueue env.id buf peer) := by
  cases hlock : env.lock with
  | pending => simp only [pollWrite, pollSendPackets, hlock, true_or, if_true]
  | ready u =>
      simp only [pollWrite, pollSendPackets, hlock, reduceCtorEq, false_or]
      split <;> rfl

theorem pollWrite_unaffected_iff {env : PollEnv} {buf : List UInt8} {first : FirstPeer} :
    Unaffected first (pollWrite env buf first).first <-> StopsEarly env buf first := by
  cases first with
  | none => exact iff_of_true rfl .noPeer
  | some entry =>
      rcases entry with ⟨addr, peer⟩
      rw [pollWrite_first]
      split
      · rename_i hearly
        exact iff_of_true rfl (hearly.elim .waiting .closed)
      · rename_i hlate
        have hkept : Unaffected (some (addr, peer))
          (some (addr, enqueue env.id buf peer)) <->
            (enqueue env.id buf peer).seqNr = peer.seqNr ∧
              (enqueue env.id buf peer).sentWindow = peer.sentWindow := by
          simp [Unaffected]
        rw [hkept, enqueue_unaffected_iff]
        constructor
        · exact .queued
        · intro hearly
          cases hearly with
          | waiting hlock => exact absurd (Or.inl hlock) hlate
          | closed hclosed => exact absurd (Or.inr hclosed) hlate
          | queued hqueued => exact hqueued

/-!
## Retrying
-/

/-- One call of a caller that retries, and what other tasks do to the peers
before it calls again. -/
structure Attempt where
  env : PollEnv
  meanwhile : FirstPeer -> FirstPeer

/-- Calls with the same buffer, those of `waiting` pending and the last one
complete, which put the packets `created` into the window. -/
inductive Retried (buf : List UInt8) : FirstPeer -> List Attempt -> List Packet -> Prop
  | done {env : PollEnv} {first : FirstPeer} {n : Nat} :
      (pollWrite env buf first).result = .ready (.ok n) ->
        Retried buf first [] (pollWrite env buf first).created
  | again {attempt : Attempt} {first : FirstPeer} {waiting : List Attempt}
      {created : List Packet} :
      (pollWrite attempt.env buf first).result = .pending ->
        Retried buf (attempt.meanwhile (pollWrite attempt.env buf first).first)
          waiting created ->
          Retried buf first (attempt :: waiting)
            ((pollWrite attempt.env buf first).created ++ created)

section Created

variable {env : PollEnv} {buf : List UInt8} {first : FirstPeer}

theorem pollWrite_created_of_lock (hlock : env.lock ≠ .pending)
    (hopen : forall e, (pollWrite env buf first).result ≠ .ready (.error e)) :
    (pollWrite env buf first).created.mapM Packet.payload = .ok (chunksOf buf) := by
  cases first with
  | none => exact absurd rfl (hopen ⟨.notFound, "No peers"⟩)
  | some entry =>
      rcases entry with ⟨addr, peer⟩
      cases hready : env.lock with
      | pending => exact absurd hready hlock
      | ready u =>
          by_cases hclosed : peer.state = .closed
          · refine absurd ?_ (hopen SocketError.connectionClosed.toIoError)
            simp only [pollWrite, pollSendPackets, hready, hclosed, if_true]
          · simp only [pollWrite, pollSendPackets, hready, if_neg hclosed]
            exact payloads_createdPackets peer (chunksOf buf)

theorem pollWrite_waiting (hlock : env.lock = .pending) :
    (pollWrite env buf first).created = [] ∧
      forall n, (pollWrite env buf first).result ≠ .ready (.ok n) := by
  cases first with
  | none => exact ⟨rfl, fun n => nofun⟩
  | some entry =>
      simp only [pollWrite, pollSendPackets, hlock]
      exact ⟨trivial, fun n => nofun⟩

end Created

def repeated (waiting : List Attempt) : Nat :=
  waiting.countP fun a => a.env.lock ≠ .pending

theorem Retried.payloads {buf : List UInt8} {first : FirstPeer} {waiting : List Attempt}
    {created : List Packet} (h : Retried buf first waiting created) :
    exists payloads, created.mapM Packet.payload = .ok payloads ∧
      payloads.flatten = (List.replicate (repeated waiting + 1) buf).flatten := by
  have hflat : (chunksOf buf).flatten = buf := chunks_flatten bufSize _ buf
  induction h with
  | done hok =>
      refine ⟨chunksOf buf, pollWrite_created_of_lock ?_ ?_, ?_⟩
      · intro hlock
        exact (pollWrite_waiting hlock).2 _ hok
      · intro e he
        rw [hok] at he
        cases he
      · simpa [repeated] using hflat
  | @again attempt first waiting created hpending _ ih =>
      rcases ih with ⟨payloads, hpayloads, hrest⟩
      by_cases hlock : attempt.env.lock = .pending
      · have hcount : repeated (attempt :: waiting) = repeated waiting := by
          simp [repeated, hlock]
        rw [(pollWrite_waiting hlock).1, hcount]
        exact ⟨payloads, hpayloads, hrest⟩
      · have hcount : repeated (attempt :: waiting) = repeated waiting + 1 := by
          simp [repeated, hlock]
        have hfirst : (pollWrite attempt.env buf first).created.mapM Packet.payload =
            .ok (chunksOf buf) :=
          pollWrite_created_of_lock hlock fun e he => by
            rw [hpending] at he
            cases he
        refine ⟨chunksOf buf ++ payloads, ?_, ?_⟩
        · rw [List.mapM_append, hfirst, hpayloads]
          rfl
        · rw [List.flatten_append, hflat, hrest, hcount, List.replicate_succ (n := _ + 1),
            List.flatten_cons]

theorem flatten_replicate_succ_eq {buf : List UInt8} {c : Nat} :
    (List.replicate (c + 1) buf).flatten = buf <-> buf = [] ∨ c = 0 := by
  constructor
  · intro h
    have hlen := congrArg List.length h
    rw [List.length_flatten, List.map_replicate, List.sum_replicate, smul_eq_mul,
      Nat.succ_mul] at hlen
    have hzero : c * buf.length = 0 := by omega
    rcases Nat.mul_eq_zero.mp hzero with hc | hbuf
    · exact Or.inr hc
    · exact Or.inl (List.length_eq_zero_iff.mp hbuf)
  · rintro (rfl | rfl)
    · simp
    · simp

/-- A call that does not complete leaves the peer as it was exactly when there is
no peer, the lock is pending, the peer is closed, or the buffer changes nothing;
and a buffer that is retried is enqueued once exactly when it is empty or every
pending call was pending at the lock. -/
theorem incomplete_write_iff (buf : List UInt8) :
    (forall env first, (forall n, (pollWrite env buf first).result ≠ .ready (.ok n)) ->
      (Unaffected first (pollWrite env buf first).first <-> StopsEarly env buf first)) ∧
    forall first waiting created, Retried buf first waiting created ->
      ((exists payloads, created.mapM Packet.payload = .ok payloads ∧
          payloads.flatten = buf) <->
        buf = [] ∨ forall a, a ∈ waiting -> a.env.lock = .pending) := by
  refine ⟨fun env first _ => pollWrite_unaffected_iff, ?_⟩
  intro first waiting created h
  rcases h.payloads with ⟨payloads, hpayloads, hflat⟩
  have honce : (exists payloads, created.mapM Packet.payload = .ok payloads ∧
      payloads.flatten = buf) <-> payloads.flatten = buf := by
    rw [hpayloads]
    exact ⟨fun ⟨_, heq, hsame⟩ => by cases heq; exact hsame, fun hsame => ⟨_, rfl, hsame⟩⟩
  rw [honce, hflat, flatten_replicate_succ_eq, repeated, List.countP_eq_zero]
  simp only [decide_eq_true_eq, not_not]

def takenLock : PollEnv where
  id := 7
  lock := .pending
  udp := fun _ => .ready (.ok ())

def stalledSocket : PollEnv where
  id := 7
  lock := .ready ()
  udp := fun _ => .pending

/-- A write that waits for the lock and is then complete. -/
theorem write_behind_lock :
    (pollWrite takenLock [1]
      (some (loopback 1, openPeer (loopback 1)))).result = .pending ∧
      Unaffected (some (loopback 1, openPeer (loopback 1)))
        (pollWrite takenLock [1] (some (loopback 1, openPeer (loopback 1)))).first ∧
      exists created, Retried [1] (some (loopback 1, openPeer (loopback 1)))
          [⟨takenLock, id⟩] created ∧
        exists payloads, created.mapM Packet.payload = .ok payloads ∧
          payloads.flatten = [1] := by
  have hready : (pollWrite (healthyEnv 7).ready [1]
      (some (loopback 1, openPeer (loopback 1)))).result = .ready (.ok 1) := by
    decide +kernel
  have hretried : Retried [1] (some (loopback 1, openPeer (loopback 1)))
      [⟨takenLock, id⟩] _ := .again rfl (.done hready)
  rcases incomplete_write_iff [1] with ⟨hincomplete, hretry⟩
  refine ⟨rfl, (hincomplete takenLock _ (pollWrite_waiting rfl).2).mpr
    (.waiting rfl), _, hretried,
    (hretry _ _ _ hretried).mpr (Or.inr ?_)⟩
  intro a ha
  cases List.mem_singleton.mp ha
  rfl

/-- A write whose first send is not ready, and the same write once it is: the
byte is in the window twice. -/
theorem write_twice :
    (pollWrite stalledSocket [1] (some (loopback 1, openPeer (loopback 1)))).result =
        .pending ∧
      ¬ Unaffected (some (loopback 1, openPeer (loopback 1)))
        (pollWrite stalledSocket [1] (some (loopback 1, openPeer (loopback 1)))).first ∧
      exists created, Retried [1] (some (loopback 1, openPeer (loopback 1)))
          [⟨stalledSocket, id⟩] created ∧
        exists payloads, created.mapM Packet.payload = .ok payloads ∧
          payloads.flatten = [1, 1] := by
  have hpending : (pollWrite stalledSocket [1]
      (some (loopback 1, openPeer (loopback 1)))).result = .pending := by
    decide +kernel
  have hready : (pollWrite (healthyEnv 7).ready [1]
      (pollWrite stalledSocket [1]
        (some (loopback 1, openPeer (loopback 1)))).first).result =
        .ready (.ok 1) := by
    decide +kernel
  have hretried : Retried [1] (some (loopback 1, openPeer (loopback 1)))
      [⟨stalledSocket, id⟩] _ := .again hpending (.done hready)
  refine ⟨hpending, ?_, _, hretried, hretried.payloads⟩
  decide +kernel

end Utp
