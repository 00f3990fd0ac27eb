import Utp.Socket.Calls
import Utp.Socket.NoPanic

/-!
# Fast retransmission

A peer counts the acknowledgements of the number it holds as the last
acknowledged one.  From the third on, an `Ack` is answered with the packet
behind the number it carries, also when that is not the number that was counted.
-/

namespace Utp

open Foundation

/-!
## The reply
-/

def Behind (packet : Packet) (peer : UtpSocketState) (reply : Packet) : Prop :=
  exists lost : UInt16, lost.toNat = packet.ackNr.toNat + 1 ∧
    peer.sentWindow[lost]? = some reply

/-- Two acknowledgements of the last acknowledged number have been counted, and
this is a further one. -/
def ThirdDuplicate (packet : Packet) (peer : UtpSocketState) : Prop :=
  packet.ackNr = peer.lastAcked ∧ 2 <= peer.duplicateAckCount.toNat

/-- Three have been counted, and this is an acknowledgement of a number that is
neither the last acknowledged one nor the next. -/
def StaleTrigger (packet : Packet) (peer : UtpSocketState) : Prop :=
  packet.ackNr ≠ peer.lastAcked ∧ packet.ackNr.toNat ≠ peer.lastAcked.toNat + 1 ∧
    3 <= peer.duplicateAckCount.toNat

section Reply

variable {env : Env} {packet reply : Packet} {peer counted : UtpSocketState} {o : Outcome}

theorem fastRetransmit_eq_some :
    fastRetransmit packet counted = .ok (some reply) <->
      3 <= counted.duplicateAckCount.toNat ∧ Behind packet counted reply := by
  have hthree : (3 <= counted.duplicateAckCount) <->
      3 <= counted.duplicateAckCount.toNat := UInt16.le_iff_toNat_le
  unfold fastRetransmit
  constructor
  · intro h
    split at h
    · rename_i hcount
      rcases bind_eq_ok.mp h with ⟨lost, hlost, h⟩
      exact ⟨hthree.mp hcount, lost, addOne_eq_ok.mp hlost, Except.ok.inj h⟩
    · cases h
  · intro h
    rcases h with ⟨hcount, lost, hlost, hreply⟩
    rw [if_pos (hthree.mpr hcount)]
    exact bind_eq_ok.mpr ⟨lost, addOne_eq_ok.mpr hlost, congrArg Except.ok hreply⟩

theorem AckEffect.reply_iff (h : AckEffect env packet peer counted) :
    fastRetransmit packet counted = .ok (some reply) <->
      (ThirdDuplicate packet peer ∨ StaleTrigger packet peer) ∧
        Behind packet peer reply := by
  have htriggers : 3 <= counted.duplicateAckCount.toNat <->
      ThirdDuplicate packet peer ∨ StaleTrigger packet peer := h.retransmits
  rw [fastRetransmit_eq_some, htriggers]
  apply and_congr_right
  intro hcase
  have hnotNext : packet.ackNr.toNat ≠ peer.lastAcked.toNat + 1 := by
    rcases hcase with hduplicate | hstale
    · rw [hduplicate.1]
      omega
    · exact hstale.2.1
  have hwindow := h.sentWindow
  rw [if_neg hnotNext] at hwindow
  rw [Behind, Behind, hwindow]

theorem resendLost_healthy {lost : List UInt16} {sent sent' : List Datagram}
    {status : Except IoError Unit} (hudp : forall n, env.udp n = .ok ())
    (h : resendLost env peer lost sent = .ok (sent', status)) : status = .ok () := by
  induction lost generalizing sent with
  | nil =>
      cases h
      rfl
  | cons seqNr lost ih =>
      rw [resendLost] at h
      split at h
      · exact ih h
      · split at h
        · cases h
        · rw [hudp] at h
          exact ih h

theorem handleAck_reply (h : handleAck env packet peer = .ok o) :
    (o.result = .ok (some reply) ->
      (ThirdDuplicate packet peer ∨ StaleTrigger packet peer) ∧
        Behind packet peer reply) ∧
    ((forall n, env.udp n = .ok ()) ->
      ThirdDuplicate packet peer ∨ StaleTrigger packet peer ->
      Behind packet peer reply -> o.result = .ok (some reply)) := by
  rcases handleAck_eq_ok h with
    ⟨counted, answer, lost, status, hcount, hanswer, -, hsent, hresult⟩
  constructor
  · intro hreply
    rw [hresult] at hreply
    rcases map_eq_ok.mp hreply with ⟨_, -, rfl⟩
    exact hcount.reply_iff.mp hanswer
  · intro hudp htrigger hbehind
    cases hanswer.symm.trans (hcount.reply_iff.mpr ⟨htrigger, hbehind⟩)
    rw [hresult, resendLost_healthy hudp hsent]
    rfl

theorem handleAck_counts (h : handleAck env packet peer = .ok o) :
    (packet.ackNr = peer.lastAcked ∧ o.peer.lastAcked = peer.lastAcked ∧
      o.peer.duplicateAckCount.toNat = peer.duplicateAckCount.toNat + 1) ∨
    (packet.ackNr ≠ peer.lastAcked ∧ o.peer.lastAcked = packet.ackNr ∧
      o.peer.duplicateAckCount.toNat = 1) ∨
    (packet.ackNr ≠ peer.lastAcked ∧ o.peer.lastAcked = peer.lastAcked ∧
      o.peer.duplicateAckCount = peer.duplicateAckCount) := by
  rcases handleAck_eq_ok h with ⟨counted, reply, lost, status, hcount, -, hlost, -⟩
  have hpeer : o.peer.lastAcked = counted.lastAcked ∧
      o.peer.duplicateAckCount = counted.duplicateAckCount := by
    rcases bind_eq_ok.mp hlost with ⟨exts, -, hlost⟩
    rcases bind_eq_ok.mp hlost with ⟨found, -, hlost⟩
    rw [← (Prod.mk.inj (Except.ok.inj hlost)).2]
    exact ⟨rfl, rfl⟩
  rw [hpeer.1, hpeer.2]
  cases hcount with
  | repeated heq hroom =>
      refine Or.inl ⟨heq, rfl, ?_⟩
      change (peer.duplicateAckCount + 1).toNat = _
      rw [UInt16.toNat_add, UInt16.toNat_one]
      omega
  | next hnext =>
      refine Or.inr (Or.inl ⟨?_, rfl, rfl⟩)
      intro heq
      rw [heq] at hnext
      omega
  | ignored hne => exact Or.inr (Or.inr ⟨hne, rfl, rfl⟩)

end Reply

/-!
## Counting
-/

/-- How many of the earlier calls carried this number, since it became the last
acknowledged one. -/
def acksSince (earlier : List Call) (mark : UInt16) : Nat :=
  (earlier.reverse.takeWhile fun c => c.after.lastAcked = mark).countP
    fun c => c.packet.ackNr = mark

theorem acksSince_snoc (earlier : List Call) (c : Call) (mark : UInt16) :
    acksSince (earlier ++ [c]) mark =
      if c.after.lastAcked = mark then
        acksSince earlier mark + if c.packet.ackNr = mark then 1 else 0
      else 0 := by
  unfold acksSince
  rw [List.reverse_append, List.reverse_singleton, List.singleton_append,
    List.takeWhile_cons]
  by_cases hmark : c.after.lastAcked = mark
  · simp [hmark, List.countP_cons]
  · simp [hmark]

theorem acksSince_of_ne {earlier : List Call} {mark : UInt16}
    (h : forall c, earlier.getLast? = some c -> c.after.lastAcked ≠ mark) :
    acksSince earlier mark = 0 := by
  rcases List.eq_nil_or_concat' earlier with rfl | ⟨front, c, rfl⟩
  · rfl
  · rw [acksSince_snoc, if_neg (h c List.getLast?_concat)]

def Call.IsAck (c : Call) : Prop :=
  handleAck c.env c.packet c.before = .ok c.outcome

theorem Call.IsAck.counts {c : Call} (h : c.IsAck) {earlier : List Call}
    (hcount : c.before.duplicateAckCount.toNat = acksSince earlier c.before.lastAcked)
    (hlast : forall d, earlier.getLast? = some d ->
      d.after.lastAcked = c.before.lastAcked) :
    c.after.duplicateAckCount.toNat =
      acksSince (earlier ++ [c]) c.after.lastAcked := by
  rw [acksSince_snoc, if_pos rfl]
  rcases handleAck_counts h with ⟨heq, hmark, hnumber⟩ | ⟨hne, hmark, hnumber⟩ |
    ⟨hne, hmark, hnumber⟩
  · change c.after.lastAcked = _ at hmark
    change c.after.duplicateAckCount.toNat = _ at hnumber
    rw [hnumber, hmark, hcount, if_pos heq]
  · change c.after.lastAcked = _ at hmark
    change c.after.duplicateAckCount.toNat = _ at hnumber
    rw [hnumber, hmark, if_pos rfl, acksSince_of_ne]
    intro d hd heq
    exact hne (heq.symm.trans (hlast d hd))
  · change c.after.lastAcked = _ at hmark
    change c.after.duplicateAckCount = _ at hnumber
    rw [hnumber, hmark, hcount, if_neg hne, Nat.add_zero]

theorem counts_of_linked (prior : List Call) {s : UtpSocketState} {calls : List Call}
    (hlinked : Linked Call.before Call.after s calls)
    (hacks : forall c, c ∈ calls -> c.IsAck)
    (hcount : s.duplicateAckCount.toNat = acksSince prior s.lastAcked)
    (hlast : forall d, prior.getLast? = some d -> d.after.lastAcked = s.lastAcked)
    {earlier later : List Call} {c : Call} (hcalls : calls = earlier ++ c :: later) :
    c.before.duplicateAckCount.toNat =
      acksSince (prior ++ earlier) c.before.lastAcked := by
  induction earlier generalizing s calls prior with
  | nil =>
      subst hcalls
      rw [hlinked.1, List.append_nil]
      exact hcount
  | cons d earlier ih =>
      subst hcalls
      rcases hlinked with ⟨rfl, hlinked⟩
      have hnext := (hacks d (List.mem_cons_self ..)).counts hcount hlast
      have hrest := ih _ hlinked (fun c hc => hacks c (List.mem_cons_of_mem _ hc)) hnext
        (by
          intro d' hd'
          rw [List.getLast?_concat] at hd'
          cases hd'
          rfl) rfl
      rw [List.append_assoc] at hrest
      exact hrest

/-!
## Runs
-/

def AcksOnly (inputs : List (Env × Packet)) : Prop :=
  forall input, input ∈ inputs -> input.2.getType = .ack

/-- The retransmission answers the last acknowledged number, after two earlier
acknowledgements of it, with the packet behind it. -/
structure Justified (earlier : List Call) (c : Call) (reply : Packet) : Prop where
  ackNr_eq : c.packet.ackNr = c.before.lastAcked
  earlier_acks : 2 <= acksSince earlier c.before.lastAcked
  behind : exists lost : UInt16, lost.toNat = c.before.lastAcked.toNat + 1 ∧
    c.before.sentWindow[lost]? = some reply

def RetransmitsJustified (calls : List Call) : Prop :=
  forall earlier c later reply, calls = earlier ++ c :: later ->
    c.outcome.result = .ok (some reply) -> Justified earlier c reply

theorem isAck_of_acksOnly {inputs : List (Env × Packet)} {peer : UtpSocketState}
    (hstate : peer.state = .connected) (hacks : AcksOnly inputs) :
    forall c, c ∈ callsOf inputs peer -> c.IsAck := by
  have htype : forall c, c ∈ callsOf inputs peer -> c.packet.getType = .ack :=
    fun c hc => hacks _ (callsOf_packet hc)
  have harm : forall c, c ∈ callsOf inputs peer -> c.before.state = .connected ->
      c.IsAck := by
    intro c hc hconnected
    have h := c.completed
    rw [handlePacket_ack hconnected (htype c hc)] at h
    exact h
  have hconnected := (linked_callsOf inputs peer).invariant
    (fun s => s.state = .connected) hstate
    (fun c hc hbefore => (handleAck_frame (harm c hc hbefore)).1.state.trans hbefore)
  exact fun c hc => harm c hc (hconnected c hc)

/-- A stale or too new acknowledgement of a number with a packet behind it. -/
def Call.Misfires (c : Call) : Prop :=
  StaleTrigger c.packet c.before ∧ exists reply, Behind c.packet c.before reply

/-- In a run without a misfiring `Ack` every retransmission is justified, and as
long as the UDP socket does not fail, only in such a run. -/
theorem retransmitsJustified_iff {inputs : List (Env × Packet)} {peer : UtpSocketState}
    (hstate : peer.state = .connected) (hcount : peer.duplicateAckCount = 0)
    (hacks : AcksOnly inputs) :
    ((forall c, c ∈ callsOf inputs peer -> ¬ c.Misfires) ->
      RetransmitsJustified (callsOf inputs peer)) ∧
    ((forall input, input ∈ inputs -> forall n, input.1.udp n = .ok ()) ->
      RetransmitsJustified (callsOf inputs peer) ->
      forall c, c ∈ callsOf inputs peer -> ¬ c.Misfires) := by
  have hisAck := isAck_of_acksOnly hstate hacks
  have hstart : peer.duplicateAckCount.toNat = acksSince [] peer.lastAcked := by
    rw [hcount]
    rfl
  constructor
  · intro hnone earlier c later reply hcalls hreply
    have hmem : c ∈ callsOf inputs peer := by
      rw [hcalls]
      exact List.mem_append_right _ (List.mem_cons_self ..)
    have hcounted := counts_of_linked [] (linked_callsOf inputs peer) hisAck
      hstart (fun d hd => by cases hd) hcalls
    rw [List.nil_append] at hcounted
    rcases (handleAck_reply (hisAck c hmem)).1 hreply with ⟨hduplicate | hstale, hbehind⟩
    · rcases hduplicate with ⟨heq, htwo⟩
      refine ⟨heq, by omega, ?_⟩
      rw [Behind, heq] at hbehind
      exact hbehind
    · exact absurd ⟨hstale, reply, hbehind⟩ (hnone c hmem)
  · intro hudp hjustified c hc hmisfires
    rcases hmisfires with ⟨hstale, reply, hbehind⟩
    have hresult := (handleAck_reply (hisAck c hc)).2
      (hudp _ (callsOf_packet hc)) (Or.inr hstale) hbehind
    rcases List.mem_iff_append.mp hc with ⟨earlier, later, hcalls⟩
    exact hstale.1 (hjustified earlier c later reply hcalls hresult).ackNr_eq

def windowPeer : UtpSocketState :=
  (sendPackets (healthyEnv 7) (List.replicate 24 0) (loopback 2)
    (openPeer (loopback 2))).peer

def acks (numbers : List UInt16) : List (Env × Packet) :=
  numbers.map (incoming .ack 0)

theorem acksOnly_acks (numbers : List UInt16) : AcksOnly (acks numbers) := by
  intro input hinput
  rcases List.mem_map.mp hinput with ⟨n, -, rfl⟩
  exact getType_barePacket .ack 0 n

theorem third_ack_retransmits :
    RetransmitsJustified (callsOf (acks [1, 1, 1]) windowPeer) ∧
      (callsOf (acks [1, 1, 1]) windowPeer).map
        (fun c => (c.outcome.result.toOption.bind id).map Packet.seqNr) =
          [none, none, some 2] := by
  have hcurrent : (callsOf (acks [1, 1, 1]) windowPeer).all
      (fun c => c.packet.ackNr == c.before.lastAcked) = true := by
    decide +kernel
  refine ⟨(retransmitsJustified_iff (by decide +kernel) (by decide +kernel)
    (acksOnly_acks [1, 1, 1])).1 ?_, by decide +kernel⟩
  intro c hc hmisfires
  exact hmisfires.1.1 (eq_of_beq (List.all_eq_true.mp hcurrent c hc))

/-- After three acknowledgements of one number, one of a number far ahead is
answered with the packet behind that one. -/
theorem stray_ack_retransmits :
    windowPeer.state = .connected ∧ windowPeer.duplicateAckCount = 0 ∧
      AcksOnly (acks [1, 1, 1, 3]) ∧
      ¬ RetransmitsJustified (callsOf (acks [1, 1, 1, 3]) windowPeer) := by
  have hstray : (callsOf (acks [1, 1, 1, 3]) windowPeer).any
      (fun c => c.packet.ackNr != c.before.lastAcked &&
        (c.outcome.result.toOption.bind id).isSome) = true := by
    decide +kernel
  refine ⟨by decide +kernel, by decide +kernel, acksOnly_acks _, ?_⟩
  intro hjustified
  rcases List.any_eq_true.mp hstray with ⟨c, hc, hfacts⟩
  rcases (Bool.and_eq_true _ _).mp hfacts with ⟨hne, hsome⟩
  rcases Option.isSome_iff_exists.mp hsome with ⟨reply, hreply⟩
  rcases Option.bind_eq_some_iff.mp hreply with ⟨answer, hanswer, rfl⟩
  rcases List.mem_iff_append.mp hc with ⟨earlier, later, hcalls⟩
  have hcase := hjustified earlier c later reply hcalls (toOption_eq_some.mp hanswer)
  exact bne_iff_ne.mp hne hcase.ackNr_eq

end Utp
