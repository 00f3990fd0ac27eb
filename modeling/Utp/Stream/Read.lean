import Utp.Foundation.Transition
import Utp.Socket.NoPanic
import Utp.Socket.ReceiveLoop
import Utp.Wire.Grammar

/-!
# Reading from a stream

`UtpStream::poll_read` takes the packets that the receive loop forwards from a
channel, one for each call, and copies bytes into the buffer of its caller.
The bytes it copies are those of the packet as it was received, header first,
and what does not fit into the buffer is gone with the packet.
-/

namespace Utp

open Foundation

/-!
## The runtime
-/

inductive Poll (α : Type) where
  | ready (a : α)
  | pending
  deriving DecidableEq, Repr

/-- What `poll_read` uses of the asynchronous runtime: the receiver of a channel
with the packets queued in it, and the buffer of a caller with its filled part. -/
structure Runtime (ρ β : Type) where
  pollRecv : ρ -> Poll (Option Packet) × ρ
  queue : ρ -> List Packet
  remaining : β -> Nat
  filled : β -> List UInt8
  putSlice : β -> List UInt8 -> Except Panic β

/-- Packets come out of the channel in the order they are queued, and bytes that
fit into a buffer are put behind those that are filled already. -/
structure Runtime.Lawful {ρ β : Type} (rt : Runtime ρ β) : Prop where
  received : forall receiver data receiver',
    rt.pollRecv receiver = (.ready (some data), receiver') ->
      rt.queue receiver = data :: rt.queue receiver'
  ended : forall receiver receiver',
    rt.pollRecv receiver = (.ready none, receiver') ->
      rt.queue receiver' = rt.queue receiver
  waiting : forall receiver receiver',
    rt.pollRecv receiver = (.pending, receiver') ->
      rt.queue receiver' = rt.queue receiver
  appended : forall buf bytes, bytes.length <= rt.remaining buf ->
    exists buf', rt.putSlice buf bytes = .ok buf' ∧
      rt.filled buf' = rt.filled buf ++ bytes

/-!
## One call
-/

structure ReadOutcome (ρ β : Type) where
  receiver : ρ
  buf : β
  result : Poll (Except IoError Unit)

section PollRead

variable {ρ β : Type} (rt : Runtime ρ β)

def copyPacket (data : Packet) (buf : β) : Except Panic β := do
  let amt := min (rt.remaining buf) data.len
  let part <- slice data.bytes 0 amt
  rt.putSlice buf part

def pollRead (receiver : ρ) (buf : β) : Except Panic (ReadOutcome ρ β) :=
  match rt.pollRecv receiver with
  | (.ready (some data), receiver) => do
      let buf <- copyPacket rt data buf
      return { receiver := receiver, buf := buf, result := .ready (.ok ()) }
  | (.ready none, receiver) =>
      .ok { receiver := receiver, buf := buf, result := .ready (.ok ()) }
  | (.pending, receiver) =>
      .ok { receiver := receiver, buf := buf, result := .pending }

variable {rt}

theorem copyPacket_exists (hrt : rt.Lawful) (data : Packet) (buf : β) :
    exists buf', copyPacket rt data buf = .ok buf' ∧
      rt.filled buf' = rt.filled buf ++ data.bytes.take (rt.remaining buf) := by
  have hpart : data.bytes.take (min (rt.remaining buf) data.bytes.length) =
      data.bytes.take (rt.remaining buf) := by
    rw [List.take_eq_take_iff]
    omega
  have hslice : slice data.bytes 0 (min (rt.remaining buf) data.len) =
      .ok (data.bytes.take (rt.remaining buf)) := by
    rw [slice_eq_ok, List.drop_zero, Nat.sub_zero]
    exact ⟨⟨Nat.zero_le _, Nat.min_le_right ..⟩, hpart⟩
  rcases hrt.appended buf (data.bytes.take (rt.remaining buf)) (List.length_take_le ..)
    with ⟨buf', hput, hfilled⟩
  exact ⟨buf', bind_eq_ok.mpr ⟨_, hslice, hput⟩, hfilled⟩

/-- A call takes one packet and as many of its bytes as there is room for, or
it takes and writes nothing. -/
inductive ReadEffect (rt : Runtime ρ β) (receiver : ρ) (buf : β)
    (out : ReadOutcome ρ β) : Prop where
  | took (data : Packet) :
      rt.queue receiver = data :: rt.queue out.receiver ->
      rt.filled out.buf = rt.filled buf ++ data.bytes.take (rt.remaining buf) ->
      ReadEffect rt receiver buf out
  | nothing :
      rt.queue out.receiver = rt.queue receiver -> out.buf = buf ->
      ReadEffect rt receiver buf out

theorem pollRead_effect (hrt : rt.Lawful) (receiver : ρ) (buf : β) :
    exists out, pollRead rt receiver buf = .ok out ∧ ReadEffect rt receiver buf out := by
  unfold pollRead
  rcases hpoll : rt.pollRecv receiver with ⟨answer, receiver'⟩
  cases answer with
  | pending => exact ⟨_, rfl, .nothing (hrt.waiting _ _ hpoll) rfl⟩
  | ready message =>
      cases message with
      | none => exact ⟨_, rfl, .nothing (hrt.ended _ _ hpoll) rfl⟩
      | some data =>
          rcases copyPacket_exists hrt data buf with ⟨buf', hcopy, hfilled⟩
          exact ⟨_, bind_eq_ok.mpr ⟨buf', hcopy, rfl⟩,
            .took data (hrt.received _ _ _ hpoll) hfilled⟩

end PollRead

/-!
## Runs
-/

/-- The channel of a stream, with the history of both ends: the packets sent
into it, the packets taken out of it with the room there was for each, and the
bytes written into the buffers of the callers. -/
structure Reading (ρ : Type) where
  receiver : ρ
  forwarded : List Packet
  reads : List (Packet × Nat)
  written : List UInt8

namespace Reading

def initial {ρ : Type} (receiver : ρ) : Reading ρ where
  receiver := receiver
  forwarded := []
  reads := []
  written := []

/-- What happens between the calls: a packet enters the channel, or the channel
changes in a way that leaves its packets alone. -/
inductive Action (ρ β : Type) where
  | forward (p : AcceptedPacket) (receiver : ρ)
  | idle (receiver : ρ)
  | read (buf : β)

section Runs

variable {ρ β : Type} (rt : Runtime ρ β)

def absorb (s : Reading ρ) (buf : β) (out : ReadOutcome ρ β) : Reading ρ where
  receiver := out.receiver
  forwarded := s.forwarded
  reads := s.reads ++
    ((rt.queue s.receiver).take
      ((rt.queue s.receiver).length - (rt.queue out.receiver).length)).map
      fun data => (data, rt.remaining buf)
  written := s.written ++ (rt.filled out.buf).drop (rt.filled buf).length

/-- Every caller has room for one byte at least. -/
def step (s : Reading ρ) : Action ρ β -> Option (Reading ρ)
  | .forward p receiver =>
      if rt.queue receiver = rt.queue s.receiver ++ [p.packet] then
        some { s with receiver := receiver, forwarded := s.forwarded ++ [p.packet] }
      else none
  | .idle receiver =>
      if rt.queue receiver = rt.queue s.receiver then
        some { s with receiver := receiver }
      else none
  | .read buf =>
      if 0 < rt.remaining buf then
        (pollRead rt s.receiver buf).toOption.map (s.absorb rt buf)
      else none

def copied (reads : List (Packet × Nat)) : List UInt8 :=
  (reads.map fun r => r.1.bytes.take r.2).flatten

/-- The packets read are the front of the packets forwarded, the rest is still
queued, and the bytes written are the leading bytes of the packets read. -/
structure Invariant (s : Reading ρ) : Prop where
  order : s.forwarded = s.reads.map Prod.fst ++ rt.queue s.receiver
  written : s.written = copied s.reads
  room : forall r, r ∈ s.reads -> 0 < r.2
  accepted : forall p, p ∈ s.forwarded -> Packet.tryFrom p.bytes = .ok p

variable {rt}

theorem invariant_initial {receiver : ρ} (hempty : rt.queue receiver = []) :
    (initial receiver).Invariant rt where
  order := hempty.symm
  written := rfl
  room _ hr := absurd hr List.not_mem_nil
  accepted _ hp := absurd hp List.not_mem_nil

theorem Invariant.read {s : Reading ρ} {buf : β} {out : ReadOutcome ρ β}
    (h : s.Invariant rt) (hroom : 0 < rt.remaining buf)
    (heffect : ReadEffect rt s.receiver buf out) :
    (s.absorb rt buf out).Invariant rt := by
  cases heffect with
  | nothing hqueue hbuf =>
      have hreads : (s.absorb rt buf out).reads = s.reads := by
        simp [absorb, hqueue]
      exact
        { order := by
            rw [hreads]
            exact h.order.trans (by rw [← hqueue]; rfl)
          written := by
            rw [hreads, ← h.written]
            simp [absorb, hbuf]
          room := by
            rw [hreads]
            exact h.room
          accepted := h.accepted }
  | took data hqueue hfilled =>
      have htaken : (rt.queue s.receiver).take
          ((rt.queue s.receiver).length - (rt.queue out.receiver).length) = [data] := by
        rw [hqueue, List.length_cons, Nat.add_sub_cancel_left]
        rfl
      have hreads : (s.absorb rt buf out).reads =
          s.reads ++ [(data, rt.remaining buf)] := by
        rw [absorb, htaken]
        rfl
      exact
        { order := by
            rw [hreads, List.map_append, List.append_assoc]
            exact h.order.trans (by rw [hqueue]; rfl)
          written := by
            rw [hreads]
            change s.written ++ (rt.filled out.buf).drop (rt.filled buf).length = _
            rw [hfilled, List.drop_left, h.written]
            simp [copied]
          room := by
            intro r hr
            rw [hreads] at hr
            rcases List.mem_append.mp hr with hr | hr
            · exact h.room r hr
            · cases List.mem_singleton.mp hr
              exact hroom
          accepted := h.accepted }

theorem Invariant.forward {s : Reading ρ} (h : s.Invariant rt) (p : AcceptedPacket)
    {receiver : ρ} (hqueue : rt.queue receiver = rt.queue s.receiver ++ [p.packet]) :
    Invariant rt
      { s with receiver := receiver, forwarded := s.forwarded ++ [p.packet] } where
  order := by
    change s.forwarded ++ [p.packet] = s.reads.map Prod.fst ++ rt.queue receiver
    rw [hqueue, h.order, List.append_assoc]
  written := h.written
  room := h.room
  accepted := by
    intro q hq
    rcases List.mem_append.mp hq with hq | hq
    · exact h.accepted q hq
    · cases List.mem_singleton.mp hq
      exact p.accepted

theorem Invariant.idle {s : Reading ρ} (h : s.Invariant rt) {receiver : ρ}
    (hqueue : rt.queue receiver = rt.queue s.receiver) :
    Invariant rt { s with receiver := receiver } where
  order := by
    change s.forwarded = s.reads.map Prod.fst ++ rt.queue receiver
    rw [hqueue]
    exact h.order
  written := h.written
  room := h.room
  accepted := h.accepted

theorem invariant_step (hrt : rt.Lawful) (s : Reading ρ) (a : Action ρ β) (s' : Reading ρ)
    (h : s.Invariant rt) (hstep : step rt s a = some s') : s'.Invariant rt := by
  cases a with
  | forward p receiver =>
      rw [step] at hstep
      split at hstep
      · rename_i hqueue
        cases hstep
        exact h.forward p hqueue
      · cases hstep
  | idle receiver =>
      rw [step] at hstep
      split at hstep
      · rename_i hqueue
        cases hstep
        exact h.idle hqueue
      · cases hstep
  | read buf =>
      rw [step] at hstep
      split at hstep
      · rename_i hroom
        rcases pollRead_effect hrt s.receiver buf with ⟨out, hout, heffect⟩
        rw [hout] at hstep
        cases hstep
        exact h.read hroom heffect
      · cases hstep

end Runs

/-!
## The byte stream
-/

def payloadStream : List Packet -> Except Panic (List UInt8)
  | [] => .ok []
  | p :: packets => do
      let payload <- p.payload
      let rest <- payloadStream packets
      return payload ++ rest

theorem payloadStream_exists {packets : List Packet}
    (h : forall p, p ∈ packets -> Packet.tryFrom p.bytes = .ok p) :
    exists due, payloadStream packets = .ok due := by
  induction packets with
  | nil => exact ⟨[], rfl⟩
  | cons p packets ih =>
      rcases Packet.hasChain_of_tryFrom (h p (List.mem_cons_self ..)) with
        ⟨exts, payload, hchain, -⟩
      rcases ih (fun q hq => h q (List.mem_cons_of_mem _ hq)) with ⟨rest, hrest⟩
      exact ⟨payload ++ rest, bind_eq_ok.mpr
        ⟨payload, hchain.payload, bind_eq_ok.mpr ⟨rest, hrest, rfl⟩⟩⟩

/-- Read by read, the leading bytes of the packet, its header first, happen to
be the bytes that are due. -/
def Coincides : List UInt8 -> List (Packet × Nat) -> Prop
  | _, [] => True
  | due, (data, room) :: reads =>
      data.bytes.take room <+: due ∧
        Coincides (due.drop (data.bytes.take room).length) reads

theorem append_prefix_iff {front back due : List UInt8} :
    front ++ back <+: due <-> front <+: due ∧ back <+: due.drop front.length := by
  constructor
  · intro h
    rcases h with ⟨rest, rfl⟩
    rw [List.append_assoc, List.drop_left]
    exact ⟨List.prefix_append .., List.prefix_append ..⟩
  · intro h
    rcases h with ⟨⟨rest, rfl⟩, hback⟩
    rw [List.drop_left] at hback
    exact (List.prefix_append_right_inj front).mpr hback

theorem copied_prefix_iff {due : List UInt8} {reads : List (Packet × Nat)} :
    copied reads <+: due <-> Coincides due reads := by
  induction reads generalizing due with
  | nil => exact iff_of_true List.nil_prefix trivial
  | cons r reads ih =>
      change r.1.bytes.take r.2 ++ copied reads <+: due <-> _
      rw [append_prefix_iff, ih, Coincides]

/-- The first byte that is copied is the first byte of a header. -/
theorem copied_head {data : Packet} {room : Nat} {reads : List (Packet × Nat)}
    (hroom : 0 < room) :
    exists b rest, copied ((data, room) :: reads) = b :: rest ∧ b.toNat % 16 = 1 := by
  have hversion := (checkHeader_isOk.mp data.headerValid).version
  have hlength := data.length_bytes
  rw [headerSize] at hlength
  change exists b rest, data.bytes.take room ++ copied reads = b :: rest ∧ _
  rcases hbytes : data.bytes with _ | ⟨b, rest⟩
  · rw [hbytes] at hlength
    cases hlength
  · rw [hbytes] at hversion
    cases room with
    | zero => cases hroom
    | succ room => exact ⟨b, rest.take room ++ copied reads, rfl, hversion⟩

/-- For payload bytes that no header can start with, what has been written is the front of
the payload stream exactly when nothing has been read.  The other bytes leave one more
case: every read happened to find the bytes that are due at the front of its packet. -/
theorem reads_reproduce_iff {ρ β : Type} {rt : Runtime ρ β} (hrt : rt.Lawful)
    {receiver : ρ} (hempty : rt.queue receiver = []) {actions : List (Action ρ β)}
    {s : Reading ρ} (hrun : run (step rt) (initial receiver) actions = some s) :
    exists due, payloadStream s.forwarded = .ok due ∧
      ((forall b, b ∈ due -> b.toNat % 16 ≠ 1) ->
        (s.written <+: due <-> s.reads = [])) ∧
      (s.written <+: due <-> Coincides due s.reads) := by
  have h := run_invariant (invariant_step hrt) (invariant_initial hempty) hrun
  rcases payloadStream_exists h.accepted with ⟨due, hdue⟩
  refine ⟨due, hdue, ?_, ?_⟩
  · intro hbytes
    rw [h.written]
    constructor
    · intro hfront
      have hroom := h.room
      cases hreads : s.reads with
      | nil => rfl
      | cons r reads =>
          rcases r with ⟨data, room⟩
          rw [hreads] at hfront hroom
          rcases @copied_head data room reads (hroom _ (List.mem_cons_self ..)) with
            ⟨b, rest, hcopied, hversion⟩
          rw [hcopied] at hfront
          exact absurd hversion (hbytes b (hfront.subset (List.mem_cons_self ..)))
    · intro hreads
      rw [hreads]
      exact List.nil_prefix
  · rw [h.written]
    exact copied_prefix_iff

/-!
## A queue and a vector
-/

structure ReadBuf where
  filled : List UInt8
  capacity : Nat

def queueRuntime : Runtime (List Packet) ReadBuf where
  pollRecv
    | [] => (.pending, [])
    | data :: queue => (.ready (some data), queue)
  queue := id
  remaining buf := buf.capacity - buf.filled.length
  filled := ReadBuf.filled
  putSlice buf bytes :=
    if bytes.length <= buf.capacity - buf.filled.length then
      .ok { buf with filled := buf.filled ++ bytes }
    else .error .assertFailed

theorem lawful_queueRuntime : queueRuntime.Lawful where
  received receiver data receiver' h := by
    cases receiver with
    | nil => cases h
    | cons first queue =>
        cases h
        rfl
  ended receiver receiver' h := by
    cases receiver <;> cases h
  waiting receiver receiver' h := by
    cases receiver with
    | nil =>
        cases h
        rfl
    | cons first queue => cases h
  appended buf bytes h := ⟨_, if_pos h, rfl⟩

def dataPacket (payload : List UInt8) : AcceptedPacket where
  packet := Packet.withPayload payload
  accepted := tryFrom_withPayload payload

def readOnce (payload : List UInt8) (capacity : Nat) :
    List (Action (List Packet) ReadBuf) :=
  [.forward (dataPacket payload) [Packet.withPayload payload],
    .read { filled := [], capacity := capacity }]

theorem payloadStream_withPayload (payload : List UInt8) :
    payloadStream [Packet.withPayload payload] = .ok payload := by
  rw [payloadStream, (Packet.hasChain_withPayload payload).payload]
  exact congrArg Except.ok (List.append_nil payload)

/-- A packet with the payload 5, 6 that is never read, and one with the payload 1 whose
first header byte is read. -/
theorem read_nothing :
    (exists s, run (step queueRuntime) (initial [])
        [.forward (dataPacket [5, 6]) [Packet.withPayload [5, 6]]] = some s ∧
      payloadStream s.forwarded = .ok [5, 6] ∧ s.written <+: [5, 6]) ∧
    exists s, run (step queueRuntime) (initial []) (readOnce [1] 1) = some s ∧
      payloadStream s.forwarded = .ok [1] ∧ s.reads.length = 1 ∧ s.written <+: [1] := by
  constructor
  · have hstate : (run (step queueRuntime) (initial [])
        [.forward (dataPacket [5, 6]) [Packet.withPayload [5, 6]]]).map
        (fun s => (s.forwarded, s.reads)) = some ([Packet.withPayload [5, 6]], []) := by
      decide +kernel
    rcases Option.map_eq_some_iff.mp hstate with ⟨s, hrun, hs⟩
    rcases Prod.mk.inj hs with ⟨hforwarded, hreads⟩
    rcases reads_reproduce_iff lawful_queueRuntime rfl hrun with ⟨due, hdue, hiff, -⟩
    rw [hforwarded, payloadStream_withPayload] at hdue
    cases hdue
    refine ⟨s, hrun, ?_, (hiff ?_).mpr hreads⟩
    · rw [hforwarded, payloadStream_withPayload]
    · intro b hb
      rcases List.mem_pair.mp hb with rfl | rfl <;> decide
  · have hstate : (run (step queueRuntime) (initial []) (readOnce [1] 1)).map
        (fun s => (s.forwarded, s.reads)) =
          some ([Packet.withPayload [1]], [(Packet.withPayload [1], 1)]) := by
      decide +kernel
    rcases Option.map_eq_some_iff.mp hstate with ⟨s, hrun, hs⟩
    rcases Prod.mk.inj hs with ⟨hforwarded, hreads⟩
    rcases reads_reproduce_iff lawful_queueRuntime rfl hrun with ⟨due, hdue, -, hiff⟩
    rw [hforwarded, payloadStream_withPayload] at hdue
    cases hdue
    refine ⟨s, hrun, ?_, by rw [hreads]; rfl, hiff.mpr ?_⟩
    · rw [hforwarded, payloadStream_withPayload]
    · rw [hreads]
      exact ⟨by decide +kernel, trivial⟩

/-- The caller has room for everything, and gets the header in front of the
payload. -/
theorem read_header :
    exists s due, run (step queueRuntime) (initial []) (readOnce [5, 6] 64) = some s ∧
      payloadStream s.forwarded = .ok due ∧ ¬ s.written <+: due := by
  have hstate : (run (step queueRuntime) (initial []) (readOnce [5, 6] 64)).map
      (fun s => (s.forwarded, s.written.head?)) =
        some ([Packet.withPayload [5, 6]], some 1) := by
    decide +kernel
  rcases Option.map_eq_some_iff.mp hstate with ⟨s, hrun, hs⟩
  rcases Prod.mk.inj hs with ⟨hforwarded, hhead⟩
  refine ⟨s, [5, 6], hrun, ?_, ?_⟩
  · rw [hforwarded, payloadStream_withPayload]
  · intro hfront
    have hmem := hfront.subset (List.mem_of_head? hhead)
    exact absurd hmem (by decide)

end Reading

end Utp
