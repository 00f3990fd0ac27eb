import Utp.Socket.AckArm
import Utp.Socket.DataArm

/-!
# Runs of `Data` and `Ack` packets

A connected peer handles packets one after the other.  This module gives the
run, and for each of the two types what a packet leaves unchanged and what it
does to the window.
-/

namespace Utp

open Foundation

/-!
## Dispatch
-/

section Dispatch

variable {env : Env} {packet : Packet} {peer : UtpSocketState}

theorem handlePacket_newSyn (hstate : peer.state = .new) (htype : packet.getType = .syn) :
    handlePacket env packet peer = .ok (handleNewSyn env packet peer) := by
  simp only [handlePacket, hstate, htype]

theorem handlePacket_synAck (hstate : peer.state = .synSent)
    (htype : packet.getType = .state) :
    handlePacket env packet peer = .ok (handleSynAck env packet peer) := by
  simp only [handlePacket, hstate, htype]

theorem handlePacket_data (hstate : peer.state = .connected)
    (htype : packet.getType = .data) :
    handlePacket env packet peer = handleData env packet peer := by
  simp only [handlePacket, hstate, htype]

theorem handlePacket_ack (hstate : peer.state = .connected)
    (htype : packet.getType = .ack) :
    handlePacket env packet peer = handleAck env packet peer := by
  simp only [handlePacket, hstate, htype]

theorem handlePacket_ack_open (hstate : peer.state = .connected ∨ peer.state = .finSent)
    (htype : packet.getType = .ack) :
    handlePacket env packet peer = handleAck env packet peer := by
  rcases hstate with hstate | hstate
  · exact handlePacket_ack hstate htype
  · simp only [handlePacket, hstate, htype]

theorem handlePacket_state (hstate : peer.state = .connected)
    (htype : packet.getType = .state) :
    handlePacket env packet peer = handleState env packet peer := by
  simp only [handlePacket, hstate, htype]

theorem handlePacket_reset (htype : packet.getType = .reset) :
    handlePacket env packet peer = .ok (handleReset peer) := by
  unfold handlePacket
  rw [htype]
  cases peer.state <;> rfl

theorem handlePacket_same_arm {rel : Except Panic Outcome -> Except Panic Outcome -> Prop}
    {packet' : Packet} {peer' : UtpSocketState} (hpeer : peer'.state = peer.state)
    (htype : packet'.getType = packet.getType)
    (hnewSyn : rel (.ok (handleNewSyn env packet peer))
      (.ok (handleNewSyn env packet' peer')))
    (hunexpectedSyn : rel (.ok (handleUnexpectedSyn env packet peer))
      (.ok (handleUnexpectedSyn env packet' peer')))
    (hsynAck : rel (.ok (handleSynAck env packet peer))
      (.ok (handleSynAck env packet' peer')))
    (hack : rel (handleAck env packet peer) (handleAck env packet' peer'))
    (hdata : rel (handleData env packet peer) (handleData env packet' peer'))
    (hstate : rel (handleState env packet peer) (handleState env packet' peer'))
    (hfin : rel (.ok (handleFin env packet peer)) (.ok (handleFin env packet' peer')))
    (hreset : rel (.ok (handleReset peer)) (.ok (handleReset peer')))
    (hother : rel (.ok (handleOther packet peer)) (.ok (handleOther packet' peer'))) :
    rel (handlePacket env packet peer) (handlePacket env packet' peer') := by
  unfold handlePacket
  rw [hpeer, htype]
  cases peer.state <;> cases packet.getType <;> assumption

/-- What one completed call can be: an arm that applies, with its outcome. -/
inductive Handles (env : Env) (packet : Packet) (peer : UtpSocketState) :
    Outcome -> Prop where
  | newSyn : peer.state = .new -> packet.getType = .syn ->
      Handles env packet peer (handleNewSyn env packet peer)
  | unexpectedSyn : peer.state ≠ .new -> packet.getType = .syn ->
      Handles env packet peer (handleUnexpectedSyn env packet peer)
  | synAck : peer.state = .synSent -> packet.getType = .state ->
      Handles env packet peer (handleSynAck env packet peer)
  | ack {o : Outcome} : peer.state = .connected ∨ peer.state = .finSent ->
      packet.getType = .ack -> handleAck env packet peer = .ok o ->
      Handles env packet peer o
  | data {o : Outcome} : peer.state = .connected ∨ peer.state = .finSent ->
      packet.getType = .data -> handleData env packet peer = .ok o ->
      Handles env packet peer o
  | state {o : Outcome} : peer.state = .connected -> packet.getType = .state ->
      handleState env packet peer = .ok o -> Handles env packet peer o
  | fin : peer.state = .connected ∨ peer.state = .finSent ->
      packet.getType = .fin -> Handles env packet peer (handleFin env packet peer)
  | reset : packet.getType = .reset ->
      Handles env packet peer (handleReset peer)
  | other : peer.state ≠ .connected -> packet.getType ≠ .syn ->
      packet.getType ≠ .reset -> Handles env packet peer (handleOther packet peer)

theorem handlePacket_eq_ok {o : Outcome} (h : handlePacket env packet peer = .ok o) :
    Handles env packet peer o := by
  unfold handlePacket at h
  split at h
  · rename_i hstate htype
    cases h
    exact Handles.newSyn hstate htype
  · rename_i htype hnew
    cases h
    exact Handles.unexpectedSyn hnew htype
  · rename_i hstate htype
    cases h
    exact Handles.synAck hstate htype
  · rename_i hstate htype
    exact Handles.ack (Or.inl hstate) htype h
  · rename_i hstate htype
    exact Handles.ack (Or.inr hstate) htype h
  · rename_i hstate htype
    exact Handles.data (Or.inl hstate) htype h
  · rename_i hstate htype
    exact Handles.data (Or.inr hstate) htype h
  · rename_i hstate htype
    exact Handles.state hstate htype h
  · rename_i hstate htype
    cases h
    exact Handles.fin (Or.inl hstate) htype
  · rename_i hstate htype
    cases h
    exact Handles.fin (Or.inr hstate) htype
  · rename_i htype
    cases h
    exact Handles.reset htype
  · rename_i hsyn hreset _ _ hack _ hdata _ hstate hfin _
    cases h
    refine Handles.other ?_ hsyn hreset
    intro hconnected
    cases htype : packet.getType with
    | syn => exact hsyn htype
    | reset => exact hreset htype
    | ack => exact hack hconnected htype
    | data => exact hdata hconnected htype
    | state => exact hstate hconnected htype
    | fin => exact hfin hconnected htype

end Dispatch

/-- Handle the packets in turn; the result is the last state and the outcomes. -/
def runPackets : List (Env × Packet) -> UtpSocketState ->
    Except Panic (UtpSocketState × List Outcome)
  | [], peer => .ok (peer, [])
  | (env, packet) :: inputs, peer => do
      let o <- handlePacket env packet peer
      let (last, outcomes) <- runPackets inputs o.peer
      return (last, o :: outcomes)

theorem runPackets_cons_eq_ok {env : Env} {packet : Packet}
    {inputs : List (Env × Packet)} {peer last : UtpSocketState}
    {outcomes : List Outcome} :
    runPackets ((env, packet) :: inputs) peer = .ok (last, outcomes) <->
      exists o rest, handlePacket env packet peer = .ok o ∧
        runPackets inputs o.peer = .ok (last, rest) ∧ outcomes = o :: rest := by
  rw [runPackets, bind_eq_ok]
  constructor
  · intro hcase
    rcases hcase with ⟨o, ho, h⟩
    rcases bind_eq_ok.mp h with ⟨⟨last', rest⟩, hrest, h⟩
    cases h
    exact ⟨o, rest, ho, hrest, rfl⟩
  · intro hcase
    rcases hcase with ⟨o, rest, ho, hrest, rfl⟩
    exact ⟨o, ho, bind_eq_ok.mpr ⟨(last, rest), hrest, rfl⟩⟩

def DataAndAcks (inputs : List (Env × Packet)) : Prop :=
  forall input, input ∈ inputs ->
    input.2.getType = .data ∨ input.2.getType = .ack

theorem DataAndAcks.tail {input : Env × Packet} {inputs : List (Env × Packet)}
    (h : DataAndAcks (input :: inputs)) : DataAndAcks inputs :=
  fun later hlater => h later (List.mem_cons_of_mem _ hlater)

def DataOnly (inputs : List (Env × Packet)) : Prop :=
  forall input, input ∈ inputs -> input.2.getType = .data

theorem DataOnly.tail {input : Env × Packet} {inputs : List (Env × Packet)}
    (h : DataOnly (input :: inputs)) : DataOnly inputs :=
  fun later hlater => h later (List.mem_cons_of_mem _ hlater)

def ofType (t : PacketType) (inputs : List (Env × Packet)) : List (Env × Packet) :=
  inputs.filter fun input => input.2.getType = t

theorem ofType_cons_of_eq {t : PacketType} {env : Env} {packet : Packet}
    {inputs : List (Env × Packet)} (h : packet.getType = t) :
    ofType t ((env, packet) :: inputs) = (env, packet) :: ofType t inputs :=
  List.filter_cons_of_pos (by simpa using h)

theorem ofType_cons_of_ne {t : PacketType} {env : Env} {packet : Packet}
    {inputs : List (Env × Packet)} (h : packet.getType ≠ t) :
    ofType t ((env, packet) :: inputs) = ofType t inputs :=
  List.filter_cons_of_neg (by simpa using h)

theorem runPackets_both {inputs inputs' : List (Env × Packet)}
    {peer peer' : UtpSocketState} {p : UtpSocketState -> UtpSocketState -> Prop}
    [DecidableRel p]
    (h : (runPackets inputs peer).toOption.bind (fun r =>
      (runPackets inputs' peer').toOption.map fun r' => decide (p r.1 r'.1)) =
        some true) :
    exists last last' outcomes replies,
      runPackets inputs peer = .ok (last, outcomes) ∧
      runPackets inputs' peer' = .ok (last', replies) ∧ p last last' := by
  rcases Option.bind_eq_some_iff.mp h with ⟨⟨last, outcomes⟩, hrun, h⟩
  rcases Option.map_eq_some_iff.mp h with ⟨⟨last', replies⟩, hrun', hp⟩
  exact ⟨last, last', outcomes, replies, toOption_eq_some.mp hrun,
    toOption_eq_some.mp hrun', of_decide_eq_true hp⟩

def incoming (t : PacketType) (seqNr ackNr : UInt16) : Env × Packet :=
  (healthyEnv 7, barePacket t seqNr ackNr)

/-!
## What an `Ack` changes
-/

section Ack

variable {env : Env} {packet : Packet} {peer counted : UtpSocketState} {o : Outcome}

theorem AckEffect.sentWindow (h : AckEffect env packet peer counted) :
    counted.sentWindow =
      if packet.ackNr.toNat = peer.lastAcked.toNat + 1 then
        peer.sentWindow.erase packet.ackNr
      else peer.sentWindow := by
  cases h with
  | repeated heq _ =>
      rw [if_neg]
      rw [heq]
      omega
  | next heq => rw [if_pos heq]
  | ignored _ hne _ => rw [if_neg hne]

theorem AckEffect.lastAcked (h : AckEffect env packet peer counted) :
    counted.lastAcked =
      if packet.ackNr.toNat = peer.lastAcked.toNat + 1 then packet.ackNr
      else peer.lastAcked := by
  cases h with
  | repeated heq _ =>
      rw [if_neg]
      rw [heq]
      omega
  | next heq => rw [if_pos heq]
  | ignored _ hne _ => rw [if_neg hne]

theorem AckEffect.window_kept {k : UInt16} {q : Packet}
    (h : AckEffect env packet peer counted) (hq : counted.sentWindow[k]? = some q) :
    peer.sentWindow[k]? = some q := by
  rw [h.sentWindow] at hq
  split at hq
  · exact erase_kept hq
  · exact hq

/-- What belongs to the receiving direction of a peer, apart from `lastAcked`. -/
structure SameReceiving (peer other : UtpSocketState) : Prop where
  state : peer.state = other.state
  seqNr : peer.seqNr = other.seqNr
  incomingBuffer : peer.incomingBuffer = other.incomingBuffer
  outOfOrder : peer.outOfOrder = other.outOfOrder

theorem AckEffect.sameReceiving (h : AckEffect env packet peer counted) :
    SameReceiving counted peer := by
  cases h <;> exact ⟨rfl, rfl, rfl, rfl⟩

theorem getLostSeqNr_peer {lost : List UInt16} {peer' : UtpSocketState}
    (h : getLostSeqNr packet peer = .ok (lost, peer')) :
    SameReceiving peer' peer ∧ peer'.lastAcked = peer.lastAcked := by
  rcases bind_eq_ok.mp h with ⟨exts, -, h⟩
  rcases bind_eq_ok.mp h with ⟨found, -, h⟩
  cases h
  exact ⟨⟨rfl, rfl, rfl, rfl⟩, rfl⟩

theorem getLostSeqNr_kept {lost : List UInt16} {peer' : UtpSocketState} {k : UInt16}
    {q : Packet} (h : getLostSeqNr packet peer = .ok (lost, peer'))
    (hq : peer'.sentWindow[k]? = some q) : peer.sentWindow[k]? = some q := by
  rcases bind_eq_ok.mp h with ⟨exts, -, h⟩
  rcases bind_eq_ok.mp h with ⟨found, -, h⟩
  cases h
  exact eraseAll_kept hq

theorem handleAck_frame (h : handleAck env packet peer = .ok o) :
    SameReceiving o.peer peer ∧
      o.peer.lastAcked =
        if packet.ackNr.toNat = peer.lastAcked.toNat + 1 then packet.ackNr
        else peer.lastAcked := by
  rcases handleAck_eq_ok h with ⟨counted, reply, lost, status, hcount, -, hlost, -⟩
  rcases getLostSeqNr_peer hlost with ⟨hframe, hlast⟩
  have hsame := hcount.sameReceiving
  refine ⟨?_, hlast.trans hcount.lastAcked⟩
  exact
    { state := hframe.state.trans hsame.state
      seqNr := hframe.seqNr.trans hsame.seqNr
      incomingBuffer := hframe.incomingBuffer.trans hsame.incomingBuffer
      outOfOrder := hframe.outOfOrder.trans hsame.outOfOrder }

theorem handleAck_kept {k : UInt16} {q : Packet} (h : handleAck env packet peer = .ok o)
    (hq : o.peer.sentWindow[k]? = some q) : peer.sentWindow[k]? = some q := by
  rcases handleAck_eq_ok h with ⟨counted, reply, lost, status, hcount, -, hlost, -⟩
  exact hcount.window_kept (getLostSeqNr_kept hlost hq)

theorem scanExtensions_congr {other : UtpSocketState}
    (hwindow : peer.sentWindow = other.sentWindow) (exts : List Extension)
    (found : Found) :
    scanExtensions packet peer exts found = scanExtensions packet other exts found := by
  induction exts generalizing found with
  | nil => rfl
  | cons e exts ih =>
      simp only [scanExtensions, hwindow, ih]

theorem getLostSeqNr_congr {other peer' other' : UtpSocketState}
    {lost lost' : List UInt16} (hwindow : peer.sentWindow = other.sentWindow)
    (h : getLostSeqNr packet peer = .ok (lost, peer'))
    (h' : getLostSeqNr packet other = .ok (lost', other')) :
    peer'.sentWindow = other'.sentWindow := by
  rcases bind_eq_ok.mp h with ⟨exts, hexts, h⟩
  rcases bind_eq_ok.mp h' with ⟨exts', hexts', h'⟩
  cases hexts.symm.trans hexts'
  rcases bind_eq_ok.mp h with ⟨found, hfound, h⟩
  rcases bind_eq_ok.mp h' with ⟨found', hfound', h'⟩
  rw [scanExtensions_congr hwindow] at hfound
  cases hfound.symm.trans hfound'
  cases h
  cases h'
  show eraseAll peer.sentWindow _ = eraseAll other.sentWindow _
  rw [hwindow]

theorem handleAck_sentWindow_congr {other : UtpSocketState} {o' : Outcome}
    (hwindow : peer.sentWindow = other.sentWindow)
    (hnext : packet.ackNr.toNat = peer.lastAcked.toNat + 1 <->
      packet.ackNr.toNat = other.lastAcked.toNat + 1)
    (h : handleAck env packet peer = .ok o)
    (h' : handleAck env packet other = .ok o') :
    o.peer.sentWindow = o'.peer.sentWindow := by
  rcases handleAck_eq_ok h with ⟨counted, reply, lost, status, hcount, -, hlost, -⟩
  rcases handleAck_eq_ok h' with ⟨counted', reply', lost', status', hcount', -, hlost', -⟩
  have hcounted : counted.sentWindow = counted'.sentWindow := by
    rw [hcount.sentWindow, hcount'.sentWindow, hwindow]
    simp only [hnext]
  exact getLostSeqNr_congr hcounted hlost hlost'

/-!
## What a `State` packet changes
-/

theorem countState_frame {counted : UtpSocketState}
    (h : countState env packet peer = .ok counted) :
    SameReceiving counted peer ∧ counted.sentWindow = peer.sentWindow ∧
      counted.lastAcked = packet.ackNr := by
  unfold countState at h
  split at h
  · rename_i heq
    rcases bind_eq_ok.mp h with ⟨count, -, h⟩
    cases h
    exact ⟨⟨rfl, rfl, rfl, rfl⟩, rfl, heq.symm⟩
  · cases h
    exact ⟨⟨rfl, rfl, rfl, rfl⟩, rfl, rfl⟩

/-- A `State` packet only moves the mark, and it moves it in any case. -/
theorem handleState_frame (h : handleState env packet peer = .ok o) :
    SameReceiving o.peer peer ∧ o.peer.sentWindow = peer.sentWindow ∧
      o.peer.lastAcked = packet.ackNr := by
  rcases bind_eq_ok.mp h with ⟨counted, hcount, h⟩
  have hframe := countState_frame hcount
  split at h
  · rcases bind_eq_ok.mp h with ⟨lost, -, h⟩
    cases h
    exact hframe
  · cases h
    exact hframe

end Ack

/-!
## What a `Data` packet changes
-/

theorem DataEffect.sentWindow {packet : Packet} {peer peer' : UtpSocketState}
    {sack : List UInt8} (h : DataEffect packet peer peer' sack) :
    peer'.sentWindow = peer.sentWindow := by
  cases h <;> rfl

theorem handleData_effect {env : Env} {packet : Packet} {peer : UtpSocketState}
    {o : Outcome} (h : handleData env packet peer = .ok o) :
    exists sack, DataEffect packet peer o.peer sack := by
  rcases handleData_eq_ok h with ⟨sack, -, haccept, -, -⟩
  exact ⟨sack, acceptData_eq_ok haccept⟩

theorem Handles.window_kept {env : Env} {packet q : Packet} {peer : UtpSocketState}
    {o : Outcome} {k : UInt16} (h : Handles env packet peer o)
    (hq : o.peer.sentWindow[k]? = some q) : peer.sentWindow[k]? = some q := by
  cases h with
  | newSyn => exact hq
  | unexpectedSyn => exact hq
  | synAck => exact erase_kept hq
  | ack _ _ h => exact handleAck_kept h hq
  | data _ _ h =>
      rcases handleData_effect h with ⟨sack, heffect⟩
      rwa [heffect.sentWindow] at hq
  | state _ _ h => rwa [(handleState_frame h).2.1] at hq
  | fin => exact hq
  | reset => exact hq
  | other => exact hq

theorem runPackets_data_cons {input : Env × Packet} {inputs : List (Env × Packet)}
    {peer last : UtpSocketState} {outcomes : List Outcome}
    (hstate : peer.state = .connected) (hdata : DataOnly (input :: inputs))
    (hrun : runPackets (input :: inputs) peer = .ok (last, outcomes)) :
    exists (o : Outcome) (sack : List UInt8) (rest : List Outcome),
      DataEffect input.2 peer o.peer sack ∧
      o.peer.state = .connected ∧ runPackets inputs o.peer = .ok (last, rest) := by
  rcases runPackets_cons_eq_ok.mp hrun with ⟨o, rest, ho, hrest, -⟩
  rw [handlePacket_data hstate (hdata _ (List.mem_cons_self ..))] at ho
  rcases handleData_effect ho with ⟨sack, heffect⟩
  exact ⟨o, sack, rest, heffect, heffect.state.trans hstate, hrest⟩

theorem runPackets_connected {inputs : List (Env × Packet)} {peer last : UtpSocketState}
    {outcomes : List Outcome} (hstate : peer.state = .connected) (hdata : DataOnly inputs)
    (hrun : runPackets inputs peer = .ok (last, outcomes)) : last.state = .connected := by
  induction inputs generalizing peer outcomes with
  | nil =>
      cases hrun
      exact hstate
  | cons input inputs ih =>
      rcases runPackets_data_cons hstate hdata hrun with ⟨o, sack, rest, -, hnext, hrest⟩
      exact ih hnext hdata.tail hrest

end Utp
