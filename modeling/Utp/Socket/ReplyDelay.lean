import Utp.Socket.HandlePacket

/-!
# The delay a reply reports

A reply carries the time it was built at and the distance to the time stamp of
the packet it answers.  Both time stamps are readings of a counter of 32 bits,
and the distance is taken without regard to the counter starting again at zero.
-/

namespace Utp

open Foundation

/-!
## Distances
-/

theorem absDiff_val (a b : Timestamp) :
    (absDiff a b).val = ((a.val.toNat : Int) - b.val.toNat).natAbs := by
  unfold absDiff
  split
  · rename_i hlt
    have hlt := UInt32.lt_iff_toNat_lt.mp hlt
    change (a.val.toNat : Int) - b.val.toNat = _
    omega
  · rename_i hle
    have hle := UInt32.not_lt.mp hle
    have hle := UInt32.le_iff_toNat_le.mp hle
    change (b.val.toNat : Int) - a.val.toNat = _
    omega

theorem toU32_absDiff (a b : Timestamp) :
    ((absDiff a b).toU32.toNat : Int) = (absDiff a b).val := by
  have ha := a.val.toNat_lt
  have hb := b.val.toNat_lt
  rw [absDiff_val, Delay.toU32, absDiff_val, UInt32.ofInt, UInt32.toNat_ofNat']
  omega

section PrepareReply

variable (env : Env) (packet : Packet) (t : PacketType) (seqNr ackNr : UInt16)

theorem timestamp_prepareReply :
    (prepareReply env packet t seqNr ackNr).timestamp = env.now := by
  have hfit := env.now.val.toNat_lt
  simp only [prepareReply, Packet.timestamp, Packet.setAckNr, Packet.setSeqNr,
    Packet.setConnectionId, Packet.setTimestampDifference, Packet.setTimestamp,
    Packet.getField_setField, reduceCtorEq, if_true, if_false,
    Packet.HeaderField.width]
  rw [Nat.mod_eq_of_lt (by omega), UInt32.ofNat_toNat]

theorem timestampDifference_prepareReply :
    (prepareReply env packet t seqNr ackNr).timestampDifference =
      absDiff env.now packet.timestamp := by
  have hfit := (absDiff env.now packet.timestamp).toU32.toNat_lt
  simp only [prepareReply, Packet.timestampDifference, Packet.setAckNr,
    Packet.setSeqNr, Packet.setConnectionId, Packet.setTimestampDifference,
    Packet.getField_setField, reduceCtorEq, if_true, if_false,
    Packet.HeaderField.width]
  rw [Nat.mod_eq_of_lt (by omega), UInt32.ofNat_toNat, toU32_absDiff]

end PrepareReply

/-!
## Two instants on one clock
-/

theorem absDiff_nowMicroseconds {sentAt repliedAt : Nat} (horder : sentAt <= repliedAt)
    (hturn : repliedAt < sentAt + 2 ^ 32) :
    (absDiff (nowMicroseconds repliedAt) (nowMicroseconds sentAt)).val =
      if sentAt / 2 ^ 32 = repliedAt / 2 ^ 32 then (repliedAt : Int) - sentAt
      else 2 ^ 32 - ((repliedAt : Int) - sentAt) := by
  rw [absDiff_val, toNat_nowMicroseconds, toNat_nowMicroseconds]
  split
  · omega
  · omega

/-- The reply reports when it was built and how long ago the packet was. -/
structure ReportsDelay (reply : Packet) (sentAt repliedAt : Nat) : Prop where
  timestamp : reply.timestamp.val.toNat = repliedAt % 2 ^ 32
  difference : reply.timestampDifference.val = (repliedAt : Int) - sentAt

/-- The counter has started again between the two instants. -/
def Wraps (sentAt repliedAt : Nat) : Prop :=
  sentAt / 2 ^ 32 ≠ repliedAt / 2 ^ 32

/-- The delay is reported exactly when the counter does not start again in
between, or the two instants are half a turn apart. -/
theorem reportsDelay_iff {env : Env} {packet : Packet} {t : PacketType}
    {seqNr ackNr : UInt16} {sentAt repliedAt : Nat} (horder : sentAt <= repliedAt)
    (hturn : repliedAt < sentAt + 2 ^ 32)
    (hsent : packet.timestamp = nowMicroseconds sentAt)
    (hnow : env.now = nowMicroseconds repliedAt) :
    ReportsDelay (prepareReply env packet t seqNr ackNr) sentAt repliedAt <->
      ¬ Wraps sentAt repliedAt ∨ repliedAt - sentAt = 2 ^ 31 := by
  have htime : (prepareReply env packet t seqNr ackNr).timestamp.val.toNat =
      repliedAt % 2 ^ 32 := by
    rw [timestamp_prepareReply, hnow, toNat_nowMicroseconds]
  have hdelay := timestampDifference_prepareReply env packet t seqNr ackNr
  have hval := absDiff_nowMicroseconds horder hturn
  rw [hsent, hnow] at hdelay
  constructor
  · intro hreports
    have hdifference := hreports.difference
    rw [hdelay, hval] at hdifference
    unfold Wraps
    split at hdifference
    · rename_i hsame
      exact Or.inl (not_not.mpr hsame)
    · right
      omega
  · intro hcase
    refine ⟨htime, ?_⟩
    rw [hdelay, hval]
    split
    · rfl
    · rename_i hwraps
      rcases hcase with hsame | hhalf
      · exact absurd hwraps hsame
      · omega

def stampedPacket (sentAt : Nat) : Packet :=
  (barePacket .data 1 0).setTimestamp (nowMicroseconds sentAt)

theorem timestamp_stampedPacket (sentAt : Nat) :
    (stampedPacket sentAt).timestamp = nowMicroseconds sentAt := by
  have hfit := (nowMicroseconds sentAt).val.toNat_lt
  simp only [stampedPacket, Packet.timestamp, Packet.setTimestamp,
    Packet.getField_setField, if_true, Packet.HeaderField.width]
  rw [Nat.mod_eq_of_lt (by omega), UInt32.ofNat_toNat]

def clockAt (instant : Nat) : Env :=
  { healthyEnv 8 with now := nowMicroseconds instant }

/-- A packet answered five microseconds later, within one turn. -/
theorem reportsDelay_of_five :
    ReportsDelay (prepareReply (clockAt 12) (stampedPacket 7) .ack 1 1) 7 12 :=
  (reportsDelay_iff (by decide) (by decide) (timestamp_stampedPacket 7) rfl).mpr
    (Or.inl (not_not.mpr rfl))

/-- One microsecond that takes the counter from its last value to zero is
reported as more than an hour. -/
theorem delay_across_wrap :
    exists sentAt repliedAt : Nat, sentAt <= repliedAt ∧ repliedAt < sentAt + 2 ^ 32 ∧
      (stampedPacket sentAt).timestamp = nowMicroseconds sentAt ∧
      (clockAt repliedAt).now = nowMicroseconds repliedAt ∧
      (prepareReply (clockAt repliedAt) (stampedPacket sentAt) .ack 1
        1).timestampDifference.val = 4294967295 ∧
      ¬ ReportsDelay (prepareReply (clockAt repliedAt) (stampedPacket sentAt) .ack 1 1)
        sentAt repliedAt := by
  have hdelay : (prepareReply (clockAt (2 ^ 32)) (stampedPacket (2 ^ 32 - 1)) .ack 1
      1).timestampDifference.val = 4294967295 := by
    rw [timestampDifference_prepareReply, timestamp_stampedPacket]
    exact absDiff_nowMicroseconds (by decide) (by decide)
  refine ⟨2 ^ 32 - 1, 2 ^ 32, by decide, by decide, timestamp_stampedPacket _, rfl,
    hdelay, ?_⟩
  intro hreports
  have hdifference := hreports.difference
  rw [hdelay] at hdifference
  omega

end Utp
