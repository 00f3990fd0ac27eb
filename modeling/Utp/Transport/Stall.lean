import Utp.Transport.Losses

/-!
# Stalls of one-way transport

A run of the one-way system, losses included, can always be continued until the server
has delivered everything that was written.  The mark of the client is another matter: it
moves in steps of one, and the server acknowledges only the number it has reached, so a
number it has skipped is never acknowledged and the mark stays in front of it for good.
-/

namespace Utp

open Foundation
open Foundation.SelectiveRepeat

namespace OneWay

/-!
## The next packet can be delivered
-/

section Next

variable {base limit : Nat} {s : OneWay}

theorem Working.next_in_window (h : Working base limit s)
    (hmore : s.pushed.length < s.created.length) :
    exists p : Packet, s.client.sentWindow[p.seqNr]? = some p ∧
      p.seqNr.toNat = s.server.lastAcked.toNat + 1 := by
  rcases h.refines with ⟨c, hc⟩
  have hlast := h.numbers.server_lastAcked
  have hwritten := hc.written
  have houtput := hc.output
  have hget := List.getElem?_eq_getElem hmore
  have hnumber := (hc.items _ _ hget).2
  rcases hc.invariant.nothing_lost s.pushed.length (by rw [hwritten]; exact hmore) with
    hin | hheld
  · refine ⟨s.created[s.pushed.length], ?_, by omega⟩
    refine (hc.sender.window _ _).mpr ⟨s.pushed.length, hin, ?_, hnumber⟩
    rw [hwritten]
    exact hget
  · exfalso
    rcases hheld with hout | ⟨x, hx⟩
    · rw [houtput] at hout
      omega
    · -- a stored packet lies behind a gap
      have hbuffer := hc.invariant.buffer_written hx
      rw [hwritten] at hbuffer
      have hx' := (hc.items _ _ hbuffer).2
      have hmem := (hc.receiver.buffer x.seqNr x).mpr ⟨_, hx, hx'⟩
      have hgap := h.ahead x.seqNr (mem_iff_getElem?.mpr ⟨x, hmem⟩)
      omega

theorem Working.handled (h : Working base limit s) (hlimit : base + limit + 31 <= 65535)
    (env : Env) {p : Packet} (hp : p ∈ s.toServer) :
    exists o, handlePacket env p s.server = .ok o := by
  have hnumbers := h.numbers
  have hlast := hnumbers.server_lastAcked
  have hle := hnumbers.pushed_le
  have hfits := hnumbers.fits
  rcases h.toServer_spec hp with ⟨htype, -, hhigh⟩
  rw [handlePacket_data hnumbers.server_state htype]
  refine (handleData_isOk_iff env).mpr (acceptData_isOk.mpr ⟨by omega, ?_⟩)
  intro hseq
  have hcounted := h.counted
  exact ⟨by omega, fun hfull => by omega⟩

/-- With an empty write the client sends its whole window again. -/
def resent (s : OneWay) : OneWay := s.write (healthyEnv 7) [] (loopback 2)

theorem created_resent (s : OneWay) : s.resent.created = s.created := by
  show s.created ++ createdPackets 7 s.client (chunksOf []) = _
  rw [chunksOf_nil, createdPackets, List.append_nil]

theorem Working.empty_fits (h : Working base limit s) :
    s.created.length + (chunksOf []).length <= limit := by
  rw [chunksOf_nil]
  exact h.numbers.fits

theorem Working.resent (h : Working base limit s) (hlimit : base + limit + 31 <= 65535) :
    Working base limit s.resent :=
  h.write hlimit [] (loopback 2) h.empty_fits

theorem Working.mem_resent (h : Working base limit s) {k : UInt16} {p : Packet}
    (hk : s.client.sentWindow[k]? = some p) : p ∈ s.resent.toServer :=
  List.mem_append_right _ (List.mem_map.mpr
    ⟨(p, loopback 2), sendPackets_nil (fun _ => rfl) (loopback 2) h.client_open hk, rfl⟩)

theorem Working.brought (h : Working base limit s) (hlimit : base + limit + 31 <= 65535)
    {k : UInt16} {p : Packet} (hk : s.client.sentWindow[k]? = some p) :
    exists (o : Outcome) (index : Nat), handlePacket (healthyEnv 7) p s.server = .ok o ∧
      run (step limit) s [.write (healthyEnv 7) [] (loopback 2),
        .deliverData (healthyEnv 7) index] = some (s.resent.serverStep o) := by
  have hp := h.mem_resent hk
  rcases (h.resent hlimit).handled hlimit (healthyEnv 7) hp with ⟨o, ho⟩
  rcases List.mem_iff_getElem?.mp hp with ⟨index, hindex⟩
  have hstep : step limit s (.write (healthyEnv 7) [] (loopback 2)) = some s.resent :=
    if_pos h.empty_fits
  have hdeliver : step limit s.resent (.deliverData (healthyEnv 7) index) =
      some (s.resent.serverStep o) := by
    simp only [step, hindex, Option.bind_some, bind, ho, Except.toOption, pure]
  exact ⟨o, index, ho,
    run_cons_eq_some.mpr ⟨_, hstep, run_cons_eq_some.mpr ⟨_, hdeliver, rfl⟩⟩⟩

end Next

/-!
## Everything can still be delivered
-/

section Deliver

variable {base limit : Nat} {s : OneWay} {client server : UtpSocketState}

theorem Working.deliverable (hworking : Working base limit s)
    (hlimit : base + limit + 31 <= 65535) :
    Possible (step limit) (fun t => t.created = s.created ∧ t.pushed = s.created) s := by
  have hall : Possible (step limit) (fun t =>
    (Working base limit t ∧ t.created = s.created) ∧
      t.pushed.length = s.created.length) s := by
    refine possible_of_measure (fun t => s.created.length - t.pushed.length) ?_
      ⟨hworking, rfl⟩
    intro t ht hmissing
    rcases ht with ⟨ht, hcreated⟩
    have hle := ht.numbers.pushed_le
    rw [hcreated] at hle
    rcases ht.next_in_window (by rw [hcreated]; omega) with ⟨p, hp, hnumber⟩
    rcases ht.brought hlimit hp with ⟨o, index, ho, hrun⟩
    have hsent := ht.mem_resent hp
    have hdelivered := (ht.resent hlimit).deliverData hsent ho
    have hlonger : t.pushed.length < (t.resent.serverStep o).pushed.length := by
      rcases (ht.resent hlimit).handles_data hsent ho with ⟨sack, reply, heffect, -⟩
      have hbefore := ht.numbers.server_lastAcked
      have hafter := hdelivered.numbers.server_lastAcked
      change o.peer.lastAcked.toNat = _ at hafter
      rcases heffect.counters with ⟨-, -, hmoved⟩ | ⟨hnot, -, -⟩
      · change t.server.lastAcked.toNat + 1 <= _ at hmoved
        omega
      · exact absurd hnumber hnot
    refine ⟨_, _, hrun, ⟨hdelivered, ?_⟩, ?_⟩
    · exact (created_resent t).trans hcreated
    · omega
  refine hall.mono ?_
  intro t ht
  rcases ht with ⟨⟨ht, hcreated⟩, hlength⟩
  refine ⟨hcreated, ?_⟩
  rw [ht.pushed_eq, hlength, hcreated, List.take_length]

/-- Whatever has been lost so far, everything created can be delivered. -/
theorem delivery_possible (hlimit : base + limit + 31 <= 65535)
    (hstarted : Started base client server) {actions : List (Action ⊕ Loss)}
    (hrun : run (lossyStep limit) (initial client server) actions = some s) :
    Possible (lossyStep limit)
      (fun t => t.created = s.created ∧ t.pushed = s.created) s :=
  ((working_of_run hlimit hstarted hrun).deliverable hlimit).lossy

end Deliver

def acceptingPeer : UtpSocketState :=
  { openPeer (loopback 1) with seqNr := 1, ackNr := 0 }

theorem started_sample : Started 1 (openPeer (loopback 2)) acceptingPeer where
  toEstablished := { established_openPeer (loopback 2) (loopback 1) with
    server_state := rfl
    server_lastAcked := rfl
    server_outOfOrder := rfl
    server_incomingBuffer := rfl }
  server_seqNr := rfl
  client_address := by simp [openPeer]

/-- Both packets are lost for good, and can be delivered all the same. -/
theorem delivery_possible_lost :
    exists s, run (lossyStep 60000) (initial (openPeer (loopback 2)) acceptingPeer)
        [.inl (.write (healthyEnv 7) [1, 2, 3, 4, 5, 6, 7, 8, 9] (loopback 2)),
          .inr (.data 0), .inr (.data 0)] = some s ∧
      s.created.length = 2 ∧ s.toServer = [] ∧ s.pushed = [] ∧
      Possible (lossyStep 60000) (fun t => t.created = s.created ∧
        t.pushed = s.created) s := by
  have hruns : (run (lossyStep 60000) (initial (openPeer (loopback 2)) acceptingPeer)
      [.inl (.write (healthyEnv 7) [1, 2, 3, 4, 5, 6, 7, 8, 9] (loopback 2)),
        .inr (.data 0), .inr (.data 0)]).map
        (fun s => (s.created.length, s.toServer, s.pushed)) = some (2, [], []) := by
    decide +kernel
  rcases Option.map_eq_some_iff.mp hruns with ⟨s, hrun, hfacts⟩
  rcases Prod.mk.inj hfacts with ⟨hcreated, hfacts⟩
  rcases Prod.mk.inj hfacts with ⟨hwire, hpushed⟩
  exact ⟨s, hrun, hcreated, hwire, hpushed,
    delivery_possible (by decide) started_sample hrun⟩

/-!
## The packet behind the mark

The client keeps the packet behind its mark, and the one behind every acknowledgement on
the wire that can still move the mark: the server announces a number only while the
packet behind it has not arrived, and once it has announced the number, that packet never
arrives early.
-/

/-- The client has been told the number, or is about to be. -/
def Announced (s : OneWay) (n : Nat) : Prop :=
  n = s.client.lastAcked.toNat ∨ exists q, q ∈ s.toClient ∧ q.ackNr.toNat = n

def InWindow (s : OneWay) (n : Nat) : Prop :=
  n < s.client.seqNr.toNat ->
    exists p : Packet, s.client.sentWindow[p.seqNr]? = some p ∧ p.seqNr.toNat = n

structure Kept (s : OneWay) : Prop where
  window : forall n, Announced s n -> s.client.lastAcked.toNat <= n -> InWindow s (n + 1)
  /-- No SACK on the wire reports the packet behind an announced number. -/
  unreported : forall q, q ∈ s.toClient -> forall exts payload, q.HasChain exts payload ->
    forall k, Reports q.ackNr exts true k -> forall n, Announced s n -> k.toNat ≠ n + 1

section Kept

variable {base limit : Nat} {s s' : OneWay} {env : Env} {o : Outcome} {n : Nat}

theorem kept_initial {client server : UtpSocketState} (h : Started base client server) :
    Kept (initial client server) where
  window := by
    intro n _ hle hlt
    change client.lastAcked.toNat <= n at hle
    change n + 1 < client.seqNr.toNat at hlt
    rw [h.client_lastAcked] at hle
    rw [h.client_seqNr] at hlt
    omega
  unreported := by simp [initial]

theorem Working.announced_le (h : Working base limit s) (hn : Announced s n) :
    n <= s.server.lastAcked.toNat := by
  rcases hn with rfl | ⟨q, hq, rfl⟩
  · exact h.numbers.mark_le
  · rcases h.refines with ⟨c, hc⟩
    rcases hc.acks q hq with ⟨a, ha, hview⟩
    have hsound := (hc.invariant.acks_sound ha).1
    have hack := hview.ackNr
    have hlast := hc.receiver.lastAcked
    omega

theorem Working.reported (h : Working base limit s) {q : Packet} (hq : q ∈ s.toClient)
    {exts : List Extension} {payload : List UInt8} (hchain : q.HasChain exts payload)
    {k : UInt16} (hk : Reports q.ackNr exts true k) :
    k.toNat <= s.server.lastAcked.toNat ∨ k ∈ s.server.outOfOrder := by
  rcases h.refines with ⟨c, hc⟩
  rcases hc.acks q hq with ⟨a, ha, hview⟩
  rcases hview.sack with ⟨exts', payload', hchain', hreports⟩
  cases hchain.extensions.symm.trans hchain'.extensions
  rcases hreports k hk with ⟨i, hi, hnumber⟩
  rcases (hc.invariant.acks_sound ha).2 i hi with hout | ⟨p, hp⟩
  · have hlast := hc.receiver.lastAcked
    exact Or.inl (by omega)
  · exact Or.inr (mem_iff_getElem?.mpr ⟨p, (hc.receiver.buffer k p).mpr ⟨i, hp, hnumber⟩⟩)

theorem Working.inWindow_next (h : Working base limit s) :
    InWindow s (s.server.lastAcked.toNat + 1) := by
  intro hlt
  have hlast := h.numbers.server_lastAcked
  have hseqNr := h.numbers.client_seqNr
  exact h.next_in_window (by omega)

theorem Kept.write (h : Kept s) (hworking : Working base limit s)
    (hlimit : base + limit + 31 <= 65535) (env : Env) (buf : List UInt8)
    (addr : SocketAddr)
    (hfit : s.created.length + (chunksOf buf).length <= limit) :
    Kept (s.write env buf addr) := by
  have hmark := hworking.lastAcked_write env buf addr
  have hannounced : forall n, Announced (s.write env buf addr) n -> Announced s n := by
    intro n hn
    rwa [Announced, hmark] at hn
  refine
    { window := ?_
      unreported := fun q hq exts payload hchain k hk n hn =>
        h.unreported q hq exts payload hchain k hk n (hannounced n hn) }
  intro n hn hle
  have hn := hannounced n hn
  rw [hmark] at hle
  have hseqNr := hworking.numbers.client_seqNr
  by_cases hold : n + 1 < s.client.seqNr.toNat
  · -- the new packets have larger numbers
    intro _
    rcases h.window n hn hle hold with ⟨p, hp, hnumber⟩
    refine ⟨p, ?_, hnumber⟩
    show (sendPackets env buf addr s.client).peer.sentWindow[p.seqNr]? = _
    rw [sendPackets_peer hworking.client_open]
    refine (sentWindow_foldl_iff (by omega)).mpr (Or.inr ⟨hp, fun i hi heq => ?_⟩)
    have hkey := congrArg UInt16.toNat heq
    rw [UInt16.toNat_add, UInt16.toNat_ofNat'] at hkey
    omega
  · -- the packet is the first one of the buffer, which the server waits for
    have hreached := hworking.announced_le hn
    have hlast := hworking.numbers.server_lastAcked
    have hpushed := hworking.numbers.pushed_le
    have hn : n = (s.write env buf addr).server.lastAcked.toNat := by
      show n = s.server.lastAcked.toNat
      omega
    rw [hn]
    exact (hworking.write hlimit buf addr hfit).inWindow_next

theorem Kept.deliverData (h : Kept s) (hworking : Working base limit s) {p : Packet}
    (hp : p ∈ s.toServer) (ho : handlePacket env p s.server = .ok o) :
    Kept (s.serverStep o) := by
  have hafter := hworking.deliverData hp ho
  rcases hworking.handles_data hp ho with ⟨sack, reply, heffect, hemitted, hreply, hsack⟩
  have hstored : forall k, k ∈ o.peer.outOfOrder ->
    o.peer.lastAcked.toNat + 1 < k.toNat :=
    hafter.ahead
  have hannounced : forall n, Announced (s.serverStep o) n ->
      Announced s n ∨ n = o.peer.lastAcked.toNat := by
    intro n hn
    rcases hn with hmark | ⟨q, hq, hnumber⟩
    · exact Or.inl (Or.inl hmark)
    · rcases List.mem_append.mp hq with hq | hq
      · exact Or.inl (Or.inr ⟨q, hq, hnumber⟩)
      · rw [hemitted] at hq
        cases List.mem_singleton.mp hq
        rw [hreply.ackNr_eq] at hnumber
        exact Or.inr hnumber.symm
  refine { window := ?_, unreported := ?_ }
  · intro n hn hle
    rcases hannounced n hn with hn | rfl
    · exact h.window n hn hle
    · exact hafter.inWindow_next
  · intro q hq exts payload hchain k hk n hn
    have hle := hafter.announced_le hn
    change n <= o.peer.lastAcked.toNat at hle
    have hnew : k ∈ o.peer.outOfOrder -> k.toNat ≠ n + 1 := by
      intro hmem
      have hgap := hstored k hmem
      omega
    rcases List.mem_append.mp hq with hold | hmine
    · rcases hannounced n hn with hn | rfl
      · exact h.unreported q hold exts payload hchain k hk n hn
      · rcases hafter.reported hq hchain hk with hreached | hmem
        · change k.toNat <= o.peer.lastAcked.toNat at hreached
          omega
        · exact hnew hmem
    · rw [hemitted] at hmine
      cases List.mem_singleton.mp hmine
      rcases hreply.hasChain with ⟨payload', hchain'⟩
      cases hchain.extensions.symm.trans hchain'.extensions
      rw [hreply.ackNr_eq] at hk
      rcases hsack with rfl | rfl
      · rcases hk with ⟨e, he, -⟩
        cases he
      · exact hnew (reports_announcedSack hk)

theorem handleAck_window {peer : UtpSocketState} {q : Packet} {exts : List Extension}
    {payload : List UInt8} (hchain : q.HasChain exts payload)
    (ho : handleAck env q peer = .ok o) {p : Packet} {k : UInt16}
    (hp : peer.sentWindow[k]? = some p)
    (hnext : q.ackNr.toNat = peer.lastAcked.toNat + 1 -> k ≠ q.ackNr)
    (hreported : ¬ Reports q.ackNr exts true k) : o.peer.sentWindow[k]? = some p := by
  rcases handleAck_eq_ok ho with ⟨counted, -, lost, -, heffect, -, hlost, -, -⟩
  rcases (getLostSeqNr_eq_ok hchain hlost).window with ⟨acked, hpeer, hacked⟩
  have hkept : k ∉ acked := fun hmem => hreported ((hacked k).mp hmem).2
  rw [hpeer]
  show (eraseAll counted.sentWindow acked)[k]? = _
  rw [getElem?_eraseAll, if_neg hkept, heffect.sentWindow]
  split
  · rename_i hmoved
    rw [getElem?_erase_eq, if_neg (hnext hmoved).symm]
    exact hp
  · exact hp

theorem Kept.deliverAck (h : Kept s) (hworking : Working base limit s) {q : Packet}
    (hq : q ∈ s.toClient) (ho : handlePacket env q s.client = .ok o) :
    Kept (s.clientStep o) := by
  rw [handlePacket_ack hworking.numbers.client_state (hworking.toClient_spec hq)] at ho
  rcases handleAck_frame ho with ⟨hframe, hmoved⟩
  have hannounced : forall n, Announced (s.clientStep o) n -> Announced s n := by
    intro n hn
    rcases hn with rfl | hwire
    · show Announced s o.peer.lastAcked.toNat
      rw [hmoved]
      split
      · exact Or.inr ⟨q, hq, rfl⟩
      · exact Or.inl rfl
    · exact Or.inr hwire
  refine
    { window := ?_
      unreported := fun q hq exts payload hchain k hk n hn =>
        h.unreported q hq exts payload hchain k hk n (hannounced n hn) }
  intro n hn hle hlt
  have hn := hannounced n hn
  change o.peer.lastAcked.toNat <= n at hle
  change n + 1 < o.peer.seqNr.toNat at hlt
  rw [hframe.seqNr] at hlt
  rw [hmoved] at hle
  have hold : s.client.lastAcked.toNat <= n := by
    split at hle <;> omega
  rcases h.window n hn hold hlt with ⟨p, hp, hnumber⟩
  rcases hworking.refines with ⟨c, hc⟩
  rcases hc.acks q hq with ⟨a, -, hview⟩
  rcases hview.sack with ⟨exts, payload, hchain, -⟩
  refine ⟨p, handleAck_window hchain ho hp ?_ ?_, hnumber⟩
  · intro hnext heq
    rw [if_pos hnext] at hle
    rw [heq] at hnumber
    omega
  · intro hreported
    exact h.unreported q hq exts payload hchain p.seqNr hreported n hn hnumber

theorem Kept.lose (h : Kept s) (l : Loss) : Kept (s.lose l) := by
  rcases s.lose_eq l with ⟨toServer, toClient, heq, -, hclient⟩
  rw [heq]
  have hannounced : forall n,
      Announced { s with toServer := toServer, toClient := toClient } n ->
        Announced s n :=
    fun n hn => hn.imp_right fun ⟨q, hq, hnumber⟩ => ⟨q, hclient hq, hnumber⟩
  exact
    { window := fun n hn hle => h.window n (hannounced n hn) hle
      unreported := fun q hq exts payload hchain k hk n hn =>
        h.unreported q (hclient hq) exts payload hchain k hk n (hannounced n hn) }

theorem kept_step (hlimit : base + limit + 31 <= 65535)
    (h : Working base limit s ∧ Kept s) {a : Action} (hstep : step limit s a = some s') :
    Working base limit s' ∧ Kept s' := by
  rcases h with ⟨hworking, h⟩
  refine ⟨working_step hlimit hworking hstep, ?_⟩
  cases a with
  | write env buf addr =>
      rcases of_step_write hstep with ⟨hfit, rfl⟩
      exact h.write hworking hlimit env buf addr hfit
  | deliverData env index =>
      rcases of_step_deliverData hstep with ⟨p, o, hp, ho, rfl⟩
      exact h.deliverData hworking (List.mem_of_getElem? hp) ho
  | deliverAck env index =>
      rcases of_step_deliverAck hstep with ⟨q, o, hq, ho, rfl⟩
      exact h.deliverAck hworking (List.mem_of_getElem? hq) ho
  | forward channel =>
      cases hstep
      exact { h with }

theorem kept_of_run (hlimit : base + limit + 31 <= 65535) {client server : UtpSocketState}
    (h : Started base client server) {actions : List (Action ⊕ Loss)}
    (hrun : run (lossyStep limit) (initial client server) actions = some s) :
    Working base limit s ∧ Kept s :=
  run_invariant
    (lossy_preserves (fun _ _ _ h hstep => kept_step hlimit h hstep)
      fun _ l h => ⟨h.1.lose l, h.2.lose l⟩)
    ⟨working_initial h, kept_initial h⟩ hrun

end Kept

/-!
## When the mark is stuck
-/

/-- The number behind the mark of the client is not acknowledged on the wire, and
the server has skipped it or will skip it: the packet behind it is delivered
already, or is stored and will be delivered with it. -/
structure Stuck (s : OneWay) : Prop where
  unacknowledged : forall q, q ∈ s.toClient ->
    q.ackNr.toNat ≠ s.client.lastAcked.toNat + 1
  skipped : s.client.lastAcked.toNat + 2 <= s.server.lastAcked.toNat ∨
    (s.server.lastAcked = s.client.lastAcked ∧
      exists k, k ∈ s.server.outOfOrder ∧ k.toNat = s.client.lastAcked.toNat + 2)

def MarkMoves (limit : Nat) (s : OneWay) : Prop :=
  Possible (lossyStep limit) (fun t =>
    s.client.lastAcked.toNat < t.client.lastAcked.toNat) s

section Stuck

variable {base limit : Nat} {s s' : OneWay} {env : Env} {client server : UtpSocketState}

theorem Stuck.skipped_data {p : Packet} {peer' : UtpSocketState} {sack : List UInt8}
    (h : Stuck s) (hahead : StoreAhead s.server)
    (heffect : DataEffect p s.server peer' sack) :
    s.client.lastAcked.toNat + 2 <= peer'.lastAcked.toNat ∨
      (peer'.lastAcked = s.client.lastAcked ∧
        exists k, k ∈ peer'.outOfOrder ∧ k.toNat = s.client.lastAcked.toNat + 2) := by
  have hle := heffect.lastAcked_le
  rcases h.skipped with hpassed | ⟨hsame, k, hk, hnumber⟩
  · exact Or.inl (by omega)
  · cases heffect with
    | inOrder hseq =>
        have hcont : Continues p.seqNr (following p s.server) := continues_continuing _ _
        have hfollows := hahead.next_following hseq hk (by rw [hseq, hsame]; omega)
        have hreached := (hcont.mem_keys k).mp hfollows
        rw [← hcont.toNat_lastKey] at hreached
        exact Or.inl (hnumber ▸ hreached.2)
    | early =>
        refine Or.inr ⟨hsame, k, ?_, hnumber⟩
        rw [Std.ExtTreeMap.mem_insert]
        exact Or.inr hk
    | old => exact Or.inr ⟨hsame, k, hk, hnumber⟩

theorem Stuck.of_same (h : Stuck s) (hmark : s'.client.lastAcked = s.client.lastAcked)
    (hacks : s'.toClient = s.toClient) (hlast : s'.server.lastAcked = s.server.lastAcked)
    (hstored : s'.server.outOfOrder = s.server.outOfOrder) : Stuck s' where
  unacknowledged := by
    rw [hmark, hacks]
    exact h.unacknowledged
  skipped := by
    rw [hmark, hlast, hstored]
    exact h.skipped

theorem Stuck.step (h : Stuck s) (hworking : Working base limit s) {a : Action}
    (hstep : step limit s a = some s') :
    Stuck s' ∧ s'.client.lastAcked = s.client.lastAcked := by
  cases a with
  | write env buf addr =>
      rcases of_step_write hstep with ⟨-, rfl⟩
      have hlast := hworking.lastAcked_write env buf addr
      exact ⟨h.of_same hlast rfl rfl rfl, hlast⟩
  | deliverData env index =>
      rcases of_step_deliverData hstep with ⟨p, o, hp, ho, rfl⟩
      rcases hworking.handles_data (List.mem_of_getElem? hp) ho with
        ⟨sack, reply, heffect, hemitted, hreply, -⟩
      have hskipped := h.skipped_data hworking.ahead heffect
      refine ⟨⟨?_, hskipped⟩, rfl⟩
      intro q hq
      rcases List.mem_append.mp hq with hq | hq
      · exact h.unacknowledged q hq
      · rw [hemitted] at hq
        cases List.mem_singleton.mp hq
        rw [hreply.ackNr_eq]
        show o.peer.lastAcked.toNat ≠ s.client.lastAcked.toNat + 1
        rcases hskipped with hpassed | ⟨hsame, -⟩
        · omega
        · rw [hsame]
          omega
  | deliverAck env index =>
      rcases of_step_deliverAck hstep with ⟨q, o, hq, ho, rfl⟩
      have hq := List.mem_of_getElem? hq
      rw [handlePacket_ack hworking.numbers.client_state
        (hworking.toClient_spec hq)] at ho
      have hlast : o.peer.lastAcked = s.client.lastAcked := by
        rw [(handleAck_frame ho).2, if_neg (h.unacknowledged q hq)]
      exact ⟨h.of_same hlast rfl rfl rfl, hlast⟩
  | forward channel =>
      cases hstep
      exact ⟨h.of_same rfl rfl rfl rfl, rfl⟩

theorem Stuck.lose (h : Stuck s) (l : Loss) :
    Stuck (s.lose l) ∧ (s.lose l).client.lastAcked = s.client.lastAcked := by
  rcases s.lose_eq l with ⟨toServer, toClient, heq, -, hclient⟩
  rw [heq]
  exact ⟨{ unacknowledged := fun q hq => h.unacknowledged q (hclient hq)
           skipped := h.skipped }, rfl⟩

theorem Stuck.not_markMoves (h : Stuck s) (hworking : Working base limit s)
    (hlimit : base + limit + 31 <= 65535) : ¬ MarkMoves limit s := by
  refine not_possible_of_trap (fun t => Working base limit t ∧ Stuck t ∧
    t.client.lastAcked = s.client.lastAcked) (lossy_preserves ?_ ?_) ?_ ⟨hworking, h, rfl⟩
  · intro t a t' ht hstep
    rcases ht with ⟨ht, hstuck, hsame⟩
    have hkept := hstuck.step ht hstep
    exact ⟨working_step hlimit ht hstep, hkept.1, hkept.2.trans hsame⟩
  · intro t l ht
    rcases ht with ⟨ht, hstuck, hsame⟩
    have hkept := hstuck.lose l
    exact ⟨ht.lose l, hkept.1, hkept.2.trans hsame⟩
  · intro t ht hmoved
    rw [ht.2.2] at hmoved
    omega

theorem Working.ack_moves (h : Working base limit s) (hlimit : base + limit + 31 <= 65535)
    {q : Packet} (hq : q ∈ s.toClient)
    (hnext : q.ackNr.toNat = s.client.lastAcked.toNat + 1) : MarkMoves limit s := by
  have hbound := q.ackNr.toNat_lt
  have hne : q.ackNr ≠ s.client.lastAcked := by
    intro heq
    rw [heq] at hnext
    omega
  rcases h.sacks q hq with ⟨exts, payload, hchain, hsacks⟩
  have hsafe : AckSafe q exts s.client :=
    { counter := fun heq => absurd heq hne
      mark := fun _ => by omega
      retransmit := by
        intro hcase
        rcases hcase with ⟨heq, -⟩ | ⟨-, hnot, -⟩
        · exact absurd heq hne
        · exact absurd hnext hnot
      sack := by
        intro _ _ e he _
        have hle := hsacks e he
        omega
      address := fun hnone => absurd hnone h.address }
  rcases hsafe.isOk (healthyEnv 7) hchain with ⟨o, ho⟩
  rcases List.mem_iff_getElem?.mp hq with ⟨index, hindex⟩
  have hstep : step limit s (.deliverAck (healthyEnv 7) index) =
    some (s.clientStep o) := by
    rw [← handlePacket_ack h.numbers.client_state (h.toClient_spec hq)] at ho
    simp only [step, hindex, Option.bind_some, bind, ho, Except.toOption, pure]
  refine Possible.lossy (.after hstep (.here ?_))
  show s.client.lastAcked.toNat < o.peer.lastAcked.toNat
  rw [(handleAck_frame ho).2, if_pos hnext]
  omega

theorem Working.answer_moves (h : Working base limit s)
    (hlimit : base + limit + 31 <= 65535)
    {p : Packet} (hp : p ∈ s.toServer) {o : Outcome}
    (ho : handlePacket env p s.server = .ok o)
    (hreached : o.peer.lastAcked.toNat = s.client.lastAcked.toNat + 1) :
    MarkMoves limit (s.serverStep o) := by
  rcases h.handles_data hp ho with ⟨sack, reply, -, hemitted, hreply, -⟩
  have hq : reply ∈ (s.serverStep o).toClient := by
    refine List.mem_append_right _ ?_
    rw [hemitted]
    exact List.mem_singleton.mpr rfl
  refine (h.deliverData hp ho).ack_moves hlimit hq ?_
  rw [hreply.ackNr_eq]
  exact hreached

theorem Working.resend_moves (h : Working base limit s)
    (hlimit : base + limit + 31 <= 65535)
    {k : UInt16} {p : Packet} (hk : s.client.sentWindow[k]? = some p)
    (hreached : forall peer' sack, DataEffect p s.server peer' sack ->
      peer'.lastAcked.toNat = s.client.lastAcked.toNat + 1) : MarkMoves limit s := by
  have hp := h.mem_resent hk
  have hresent := h.resent hlimit
  rcases h.brought hlimit hk with ⟨o, index, ho, hrun⟩
  rcases hresent.handles_data hp ho with ⟨sack, reply, heffect, -⟩
  have hmark : s.resent.client.lastAcked = s.client.lastAcked :=
    h.lastAcked_write (healthyEnv 7) [] (loopback 2)
  have hanswer : o.peer.lastAcked.toNat = s.resent.client.lastAcked.toNat + 1 := by
    rw [hmark]
    exact hreached o.peer sack heffect
  have hbehind := hresent.answer_moves hlimit hp ho hanswer
  have hfirst : Possible (step limit) (fun t => t = s.resent.serverStep o) s :=
    ⟨_, _, hrun, rfl⟩
  refine hfirst.lossy.trans fun t ht => ?_
  subst ht
  refine hbehind.mono fun t hmoved => ?_
  change s.resent.client.lastAcked.toNat < _ at hmoved
  rwa [hmark] at hmoved

theorem Working.old_answered (h : Working base limit s)
    (hlimit : base + limit + 31 <= 65535)
    (hkept : Kept s) (hunacked : s.client.lastAcked.toNat + 1 < s.client.seqNr.toNat)
    (hreached : s.server.lastAcked.toNat = s.client.lastAcked.toNat + 1) :
    MarkMoves limit s := by
  rcases hkept.window _ (Or.inl rfl) (Nat.le_refl _) hunacked with ⟨p, hp, hnumber⟩
  refine h.resend_moves hlimit hp fun peer' sack heffect => ?_
  rcases heffect.counters with ⟨hseq, -, -⟩ | ⟨-, -, hsame⟩
  · omega
  · rw [hsame, hreached]

theorem Working.next_answered (h : Working base limit s)
    (hlimit : base + limit + 31 <= 65535)
    (hlevel : s.server.lastAcked = s.client.lastAcked)
    (halone : forall k, k ∈ s.server.outOfOrder ->
      k.toNat ≠ s.client.lastAcked.toNat + 2)
    (hmore : s.pushed.length < s.created.length) : MarkMoves limit s := by
  rcases h.next_in_window hmore with ⟨p, hp, hnumber⟩
  refine h.resend_moves hlimit hp fun peer' sack heffect => ?_
  rw [← hlevel]
  cases heffect with
  | inOrder hseq =>
      have hfollowing : following p s.server = [] := by
        refine continuing_eq_nil ?_
        intro e he heq
        exact halone e.1 (mem_of_mem_toList he) (by rw [heq, hnumber, hlevel])
      rw [hfollowing]
      exact hnumber
  | early hlt => omega
  | old hle => omega

end Stuck

/-- While something is unacknowledged, the mark of the client can still move
exactly when it is not stuck. -/
theorem markMoves_iff {base limit : Nat} {s : OneWay} {client server : UtpSocketState}
    (hlimit : base + limit + 31 <= 65535) (hstarted : Started base client server)
    {actions : List (Action ⊕ Loss)}
    (hrun : run (lossyStep limit) (initial client server) actions = some s)
    (hunacked : s.client.lastAcked.toNat + 1 < s.client.seqNr.toNat) :
    MarkMoves limit s <-> ¬ Stuck s := by
  rcases kept_of_run hlimit hstarted hrun with ⟨h, hkept⟩
  have hnumbers := h.numbers
  have hserver := hnumbers.server_lastAcked
  have hseqNr := hnumbers.client_seqNr
  have hle := hnumbers.mark_le
  constructor
  · intro hmoves hstuck
    exact hstuck.not_markMoves h hlimit hmoves
  · intro hfree
    by_cases hacked : exists q, q ∈ s.toClient ∧
        q.ackNr.toNat = s.client.lastAcked.toNat + 1
    · rcases hacked with ⟨q, hq, hnext⟩
      exact h.ack_moves hlimit hq hnext
    · have hunacknowledged : forall q, q ∈ s.toClient ->
          q.ackNr.toNat ≠ s.client.lastAcked.toNat + 1 :=
        fun q hq hnext => hacked ⟨q, hq, hnext⟩
      have hpassed : ¬ s.client.lastAcked.toNat + 2 <= s.server.lastAcked.toNat :=
        fun hpassed => hfree ⟨hunacknowledged, Or.inl hpassed⟩
      by_cases hone : s.server.lastAcked.toNat = s.client.lastAcked.toNat + 1
      · exact h.old_answered hlimit hkept hunacked hone
      · have hlevel : s.server.lastAcked = s.client.lastAcked :=
          UInt16.toNat_inj.mp (by omega)
        refine h.next_answered hlimit hlevel ?_ (by omega)
        intro k hk hnumber
        exact hfree ⟨hunacknowledged, Or.inr ⟨hlevel, k, hk, hnumber⟩⟩

def twoAnswered : List (Action ⊕ Loss) :=
  [ .inl (.write (healthyEnv 7) [1, 2, 3, 4, 5, 6, 7, 8, 9] (loopback 2)),
    .inl (.deliverData (healthyEnv 8) 0),
    .inl (.deliverData (healthyEnv 8) 1) ]

/-- The reply 2 vanishes, and the mark of the client, which could have moved before, stays
at 1 for good. -/
theorem stuck_behind_loss :
    exists s t,
      run (lossyStep 60000) (initial (openPeer (loopback 2)) acceptingPeer) twoAnswered =
        some s ∧
      run (lossyStep 60000) (initial (openPeer (loopback 2)) acceptingPeer)
        (twoAnswered ++ [.inr (.ack 0)]) = some t ∧
      MarkMoves 60000 s ∧ ¬ MarkMoves 60000 t := by
  have hall : forall actions acks,
      (run (lossyStep 60000) (initial (openPeer (loopback 2)) acceptingPeer) actions).map
          (fun s => (s.toClient.map Packet.ackNr, s.server.lastAcked, s.client.lastAcked,
            s.client.seqNr)) = some (acks, 3, 1, 4) ->
      exists s, run (lossyStep 60000) (initial (openPeer (loopback 2)) acceptingPeer)
          actions = some s ∧ (MarkMoves 60000 s <-> 2 ∈ acks) := by
    intro actions acks hruns
    rcases Option.map_eq_some_iff.mp hruns with ⟨s, hrun, hfacts⟩
    rcases Prod.mk.inj hfacts with ⟨hacks, hfacts⟩
    rcases Prod.mk.inj hfacts with ⟨hserver, hfacts⟩
    rcases Prod.mk.inj hfacts with ⟨hclient, hseqNr⟩
    have hunacked : s.client.lastAcked.toNat + 1 < s.client.seqNr.toNat := by
      rw [hclient, hseqNr]
      decide
    refine ⟨s, hrun, ?_⟩
    rw [markMoves_iff (by decide) started_sample hrun hunacked, ← hacks, List.mem_map]
    constructor
    · intro hfree
      by_contra hnone
      refine hfree ⟨fun q hq hnext => hnone ⟨q, hq, ?_⟩,
        Or.inl (by rw [hclient, hserver]; decide)⟩
      rw [hclient] at hnext
      exact UInt16.toNat_inj.mp hnext
    · intro hsome hstuck
      rcases hsome with ⟨q, hq, hnext⟩
      exact hstuck.unacknowledged q hq (by rw [hnext, hclient]; decide)
  rcases hall twoAnswered [2, 3] (by decide +kernel) with ⟨s, hrun, hmoves⟩
  rcases hall (twoAnswered ++ [.inr (.ack 0)]) [3] (by decide +kernel) with
    ⟨t, hrun', hmoves'⟩
  exact ⟨s, t, hrun, hrun', hmoves.mpr (by decide),
    fun hmoved => absurd (hmoves'.mp hmoved) (by decide)⟩

end OneWay

end Utp
