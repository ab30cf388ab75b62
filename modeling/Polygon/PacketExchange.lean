import Polygon.AckedPackets

/-!
# Packets from one endpoint to the other

An endpoint reads a packet frame by frame, and comes to its end only where all the frames were
accepted. Whatever packets the network loses, repeats and reorders, one is reported as acknowledged
only where the other endpoint has processed all of it.
-/
namespace Ngtcp2

/-- A step of an endpoint, the packet that it is about, and whether the call succeeds. -/
structure PktStep where
  op : Op
  src : Option Pkt
  accepted : Bool

/-- The frame was read from the packet, and the call succeeded. -/
def AcceptedFrom (ls : List PktStep) (pkt : Pkt) (fr : Frame) : Prop :=
  ∃ l ∈ ls, pkt ∈ l.src ∧ l.accepted = true ∧ fr ∈ l.op.readFrames

instance (ls : List PktStep) (pkt : Pkt) (fr : Frame) : Decidable (AcceptedFrom ls pkt fr) :=
  inferInstanceAs (Decidable (∃ l ∈ ls, _))

/-- The step reads only frames of its packet, and ends it only behind all of them. -/
structure PktStep.Follows (ls : List PktStep) (l : PktStep) : Prop where
  reads : ∀ fr ∈ l.op.readFrames, ∃ pkt ∈ l.src, fr ∈ pkt.frames
  ends : ∀ n ∈ l.op.finishes, ∃ pkt ∈ l.src, pkt.hd.pktNum = n ∧
    ∀ fr ∈ pkt.frames, AcceptedFrom ls pkt fr

instance (ls : List PktStep) (l : PktStep) : Decidable (l.Follows ls) :=
  decidable_of_iff ((∀ fr ∈ l.op.readFrames, ∃ pkt ∈ l.src, fr ∈ pkt.frames) ∧
      ∀ n ∈ l.op.finishes, ∃ pkt ∈ l.src, pkt.hd.pktNum = n ∧
        ∀ fr ∈ pkt.frames, AcceptedFrom ls pkt fr)
    ⟨fun h => ⟨h.1, h.2⟩, fun h => ⟨h.reads, h.ends⟩⟩

/-- What an endpoint may do after the steps `ls`. -/
structure PktStep.Allowed (ls : List PktStep) (conn : Conn) (l : PktStep) : Prop where
  follows : l.Follows ls
  accepted : l.accepted = true ↔ (l.op.run conn).1 = .ok ()
  nonces : l.op.keepsNonces conn = true

instance (ls : List PktStep) (conn : Conn) (l : PktStep) : Decidable (l.Allowed ls conn) :=
  decidable_of_iff (l.Follows ls ∧ (l.accepted = true ↔ (l.op.run conn).1 = .ok ()) ∧
      l.op.keepsNonces conn = true)
    ⟨fun h => ⟨h.1, h.2.1, h.2.2⟩, fun h => ⟨h.follows, h.accepted, h.nonces⟩⟩

/-- A connection as a party that exchanges packets. -/
def pktEndpoint : Network.Party Conn PktStep Pkt where
  step ls conn l conn' := Step (ls.map (·.op)) conn l.op conn' ∧ l.Allowed ls conn
  reads l := l.src.toList
  sends conn l := (l.op.pkt conn).toList

/-- Two endpoints that exchange packets. -/
abbrev PktExchange : Network.Net Conn Pkt → List (Bool × PktStep) → Network.Net Conn Pkt → Prop :=
  Network.Run fun _ => pktEndpoint

/-- A step of one of two endpoints, as a function of both. -/
def pktExchangeStep (net : Network.Net Conn Pkt) (l : Bool × PktStep) : Network.Net Conn Pkt :=
  net.move l.1 (l.2.op.run (net.state l.1)).2 (l.2.op.pkt (net.state l.1)).toList

/-- The step is survived, and about a packet that the other endpoint sent. -/
def pktExchangeAllows (ls : List (Bool × PktStep)) (net : Network.Net Conn Pkt)
    (l : Bool × PktStep) : Bool :=
  survives (l.2.op.run (net.state l.1)).1 &&
    decide (l.2.Allowed (Network.own l.1 ls) (net.state l.1)) &&
    l.2.src.toList.all fun pkt => decide (pkt ∈ net.sent !l.1)

/-- The processing of a packet with this number came to its end. -/
def EndRead (ls : List PktStep) (n : Nat) : Prop := ∃ l ∈ ls, l.op.finishes = some n

/-- All the frames of the packet were accepted, and its processing came to its end. -/
structure Processed (ls : List PktStep) (pkt : Pkt) : Prop where
  frames : ∀ fr ∈ pkt.frames, AcceptedFrom ls pkt fr
  ended : EndRead ls pkt.hd.pktNum

/-- An ACK frame that covers the number was read. -/
def Claimed (ls : List PktStep) (n : Nat) : Prop :=
  ∃ l ∈ ls, ∃ fr, .ack fr ∈ l.op.readFrames ∧ fr.Covers n

/-- What holds of an endpoint and the packets that it has sent, after the steps `ls`. -/
structure PktInv (ls : List PktStep) (conn : Conn) (sent : List Pkt) : Prop where
  wf : WellFormed conn
  nums : NumbersInv conn
  log : sent.map (·.hd) = encrypted conn.log
  kept : ∀ ent ∈ unacked conn, ∃ pkt ∈ sent, OfPkt ent pkt
  tracks : TracksIn (EndRead ls) conn
  acks : ∀ pkt ∈ sent, AcksIn (EndRead ls) pkt.frames
  acked : ∀ n frc, .pktAcked n frc ∈ conn.log →
    Claimed ls n ∧ ∃ pkt ∈ sent, pkt.hd.pktNum = n ∧ frc ⊆ pkt.frames
  follows : ∀ l ∈ ls, l.Follows ls

section
variable {conn conn' peer : Conn} {ls ls' : List PktStep} {l : PktStep} {sent sent' : List Pkt}
  {pkt pkt' : Pkt} {fr : Frame} {n : Nat}

theorem AcceptedFrom.snoc (h : AcceptedFrom ls pkt fr) (l : PktStep) :
    AcceptedFrom (ls ++ [l]) pkt fr := by
  obtain ⟨l', hl', hread⟩ := h
  exact ⟨l', List.mem_append_left _ hl', hread⟩

theorem PktStep.Follows.snoc (h : l.Follows ls) (l' : PktStep) : l.Follows (ls ++ [l']) := by
  refine ⟨h.reads, fun n hn => ?_⟩
  obtain ⟨pkt, hsrc, hnum, hall⟩ := h.ends n hn
  exact ⟨pkt, hsrc, hnum, fun fr hfr => (hall fr hfr).snoc l'⟩

theorem EndRead.snoc (h : EndRead ls n) (l : PktStep) : EndRead (ls ++ [l]) n := by
  obtain ⟨l', hl', hn⟩ := h
  exact ⟨l', List.mem_append_left _ hl', hn⟩

theorem EndRead.last (h : l.op.finishes = some n) : EndRead (ls ++ [l]) n :=
  ⟨l, List.mem_append_right _ (List.mem_singleton_self l), h⟩

theorem Claimed.snoc (h : Claimed ls n) (l : PktStep) : Claimed (ls ++ [l]) n := by
  obtain ⟨l', hl', hread⟩ := h
  exact ⟨l', List.mem_append_left _ hl', hread⟩

/-! ## One endpoint -/

theorem Initial.pktInv (h : Initial conn) : PktInv [] conn [] := by
  have hlog : conn.log = [] := by cases h <;> rfl
  have hnone : unacked conn = [] := by cases h <;> rfl
  have hacktr : conn.acktr = acktrInit := by cases h <;> rfl
  have hfrq : conn.frq = [] := by cases h <;> rfl
  refine ⟨h.wellFormed, h.numbersInv, ?_, ?_, ⟨?_, ?_, ?_⟩, ?_, ?_, ?_⟩
  · rw [hlog]
    rfl
  · rw [hnone]
    nofun
  · rw [hacktr]
    exact ⟨.nil, nofun⟩
  · rw [hacktr]
    nofun
  · rw [hfrq]
    exact .nil
  · exact fun pkt hpkt => absurd hpkt List.not_mem_nil
  · rw [hlog]
    exact fun n frc hev => absurd hev List.not_mem_nil
  · exact fun l hl => absurd hl List.not_mem_nil

theorem PktInv.pktNum_lt (h : PktInv ls conn sent) (hpkt : pkt ∈ sent) :
    pkt.hd.pktNum < 2 ^ 64 := by
  have hmem : pkt.hd ∈ encrypted conn.log := h.log ▸ List.mem_map_of_mem hpkt
  have hle := h.nums.le_last _ hmem
  have hlast := h.nums.last_le
  unfold uint64Max at hlast
  omega

/-- No two packets have the same number. -/
theorem PktInv.unique (h : PktInv ls conn sent) (hpkt : pkt ∈ sent) (hpkt' : pkt' ∈ sent)
    (hnum : pkt.hd.pktNum = pkt'.hd.pktNum) : pkt = pkt' := by
  have hincreasing := h.nums.increasing
  rw [← h.log, List.map_map] at hincreasing
  have hnodup : (sent.map fun pkt => pkt.hd.pktNum).Nodup :=
    hincreasing.imp fun hlt => Nat.ne_of_lt hlt
  exact List.inj_on_of_nodup_map hnodup hpkt hpkt' hnum

/-- The entries hold ACK frames of packets that were sent. -/
theorem PktInv.entries (h : PktInv ls conn sent) : EntriesAckIn (EndRead ls) (unacked conn) := by
  intro ent hent
  obtain ⟨pkt, hpkt, -, hsub⟩ := h.kept ent hent
  exact (h.acks pkt hpkt).of_subset hsub

/-- What a step reads was sent by the other endpoint, so its numbers have 64 bits. -/
theorem PktInv.ackSized (hpeer : PktInv ls' peer sent') (hl : l.Follows ls)
    (hreads : ∀ pkt ∈ l.src.toList, pkt ∈ sent') : l.op.AckSized := by
  constructor
  · intro fr hfr
    obtain ⟨pkt, hsrc, hmem⟩ := hl.reads _ hfr
    have hpkt := hreads pkt (Option.mem_toList.mpr hsrc)
    exact (hpeer.acks pkt hpkt _ hmem).1.largest
  · intro n hn
    obtain ⟨pkt, hsrc, rfl, -⟩ := hl.ends n hn
    exact hpeer.pktNum_lt (hreads pkt (Option.mem_toList.mpr hsrc))

/-- What a step sends, and the tracker behind it. -/
theorem PktInv.sends {ops : List Op} (h : PktInv ls conn sent) (hstep : Step ops conn l.op conn')
    (hretry : l.op.completesRetry conn = false) (hsize : l.op.AckSized) :
    TracksIn (EndRead (ls ++ [l])) conn' ∧ PktAcksIn (EndRead (ls ++ [l])) (l.op.pkt conn) := by
  cases hw : l.op.writesPkt with
  | false =>
    rw [Op.pkt_none hw conn]
    refine ⟨(hstep.tracksIn h.wf hw hretry hsize h.tracks).mono fun n hn => ?_, .none⟩
    rcases hn with hn | hn
    · exact hn.snoc l
    · exact .last hn
  | true =>
    obtain ⟨htracks, hpkt⟩ := Op.acksSent hw h.wf.inv h.tracks h.entries
    obtain ⟨rv, hrun, -⟩ := hstep
    rw [hrun] at htracks
    refine ⟨htracks.mono fun n hn => hn.snoc l, fun p hp fr hfr => ?_⟩
    exact (hpkt p hp fr hfr).mono fun n hn => hn.snoc l

/-- The entries behind a step are of packets that were sent before it or by it. -/
theorem PktInv.kept_step {ops : List Op} (h : PktInv ls conn sent)
    (hstep : Step ops conn l.op conn') (hretry : l.op.completesRetry conn = false) :
    ∀ ent ∈ unacked conn', ∃ pkt ∈ sent ++ (l.op.pkt conn).toList, OfPkt ent pkt := by
  intro ent hent
  rcases (hstep.emitted h.wf hretry).kept ent hent with ⟨old, hold, hnum, hsub⟩ | ⟨p, hp, hof⟩
  · obtain ⟨pkt, hpkt, hnum', hsub'⟩ := h.kept old hold
    exact ⟨pkt, List.mem_append_left _ hpkt, hnum'.trans hnum, List.Subset.trans hsub hsub'⟩
  · refine ⟨p, List.mem_append_right _ ?_, hof⟩
    rw [hp]
    exact List.mem_singleton_self p

/-- A step that reports a packet reads the ACK frame for it. -/
theorem PktInv.acked_step {ops : List Op} (h : PktInv ls conn sent)
    (hstep : Step ops conn l.op conn') (hsize : l.op.AckSized) {frc : List Frame}
    (hev : .pktAcked n frc ∈ conn'.log) :
    Claimed (ls ++ [l]) n ∧ ∃ pkt ∈ sent, pkt.hd.pktNum = n ∧ frc ⊆ pkt.frames := by
  rcases hstep.acked h.wf hsize hev with hold | ⟨fr, hread, hcovers, ent, hent, rfl, rfl⟩
  · obtain ⟨hclaimed, hsent⟩ := h.acked n frc hold
    exact ⟨hclaimed.snoc l, hsent⟩
  · exact ⟨⟨l, List.mem_append_right _ (List.mem_singleton_self l), fr, hread, hcovers⟩,
      h.kept ent hent⟩

/-- One step, where the invariant holds of the other endpoint. -/
theorem PktInv.step {ops : List Op} (h : PktInv ls conn sent) (hpeer : PktInv ls' peer sent')
    (hstep : Step ops conn l.op conn') (hl : l.Allowed ls conn)
    (hreads : ∀ pkt ∈ l.src.toList, pkt ∈ sent') :
    PktInv (ls ++ [l]) conn' (sent ++ (l.op.pkt conn).toList) := by
  have hretry := Op.keepsNonces_noRetry hl.nonces
  have hsize := hpeer.ackSized hl.follows hreads
  have hsends := h.sends hstep hretry hsize
  constructor
  · exact hstep.wellFormed h.wf
  · exact h.nums.step (hstep.nums h.wf hretry) hl.nonces
  · rw [(hstep.emitted h.wf hretry).log, List.map_append, h.log]
    cases l.op.pkt conn <;> rfl
  · exact h.kept_step hstep hretry
  · exact hsends.1
  · intro pkt hpkt
    rcases List.mem_append.mp hpkt with hpkt | hpkt
    · exact fun fr hfr => (h.acks pkt hpkt fr hfr).mono fun n hn => hn.snoc l
    · exact hsends.2 pkt (Option.mem_toList.mp hpkt)
  · intro n frc hev
    obtain ⟨hclaimed, pkt, hpkt, hacked⟩ := h.acked_step hstep hsize hev
    exact ⟨hclaimed, pkt, List.mem_append_left _ hpkt, hacked⟩
  · intro l' hl'
    rcases List.mem_append.mp hl' with hl' | hl'
    · exact (h.follows l' hl').snoc l
    · obtain rfl := List.mem_singleton.mp hl'
      exact hl.follows.snoc l'

/-! ## Both endpoints -/

variable {net₀ net : Network.Net Conn Pkt} {bls : List (Bool × PktStep)}

theorem pktInv_of_run (hrun : PktExchange net₀ bls net) (hstart : Connected net₀) (side : Bool) :
    PktInv (Network.own side bls) (net.state side) (net.sent side) := by
  refine Network.run_both hrun (fun _ => PktInv) (fun side => ?_)
    (fun side ls s ms l s' ls' t ms' h hpeer hstep hreads => ?_) side
  · rw [hstart.sent side]
    exact (hstart.initial side).pktInv
  · exact h.step hpeer hstep.1 hstep.2 hreads

theorem pktExchange_reads (hrun : PktExchange net₀ bls net) (side : Bool) :
    ∀ l ∈ Network.own side bls, ∀ pkt ∈ l.src, pkt ∈ net.sent !side :=
  fun _ hl _ hpkt => Network.run_reads hrun side hl (Option.mem_toList.mpr hpkt)

/-- The packet of an ended processing was processed, since its number is unique. -/
theorem PktInv.processed (h : PktInv ls conn sent) (hpkt : pkt ∈ sent)
    (hended : EndRead ls' pkt.hd.pktNum) (hfollows : ∀ l ∈ ls', l.Follows ls')
    (hreads : ∀ l ∈ ls', ∀ pkt ∈ l.src, pkt ∈ sent) : Processed ls' pkt := by
  refine ⟨?_, hended⟩
  obtain ⟨l, hl, hends⟩ := hended
  obtain ⟨pkt', hsrc, hnum', hall⟩ := (hfollows l hl).ends _ hends
  obtain rfl := h.unique (hreads l hl pkt' hsrc) hpkt hnum'
  exact hall

/-- The ACK frame that covers a packet is one that the other endpoint sent. -/
theorem PktInv.acked_sent (h : PktInv ls conn sent) (hpeer : PktInv ls' peer sent')
    (hreads : ∀ l ∈ ls, ∀ pkt ∈ l.src, pkt ∈ sent') (hreads' : ∀ l ∈ ls', ∀ pkt ∈ l.src, pkt ∈ sent)
    {frc : List Frame} (hacked : .pktAcked n frc ∈ conn.log) :
    ∃ pkt ∈ sent, pkt.hd.pktNum = n ∧ frc ⊆ pkt.frames ∧ Processed ls' pkt := by
  obtain ⟨⟨l, hl, fr, hread, hcovers⟩, pkt, hpkt, rfl, hsub⟩ := h.acked n frc hacked
  obtain ⟨ackPkt, hsrc, hmem⟩ := (h.follows l hl).reads _ hread
  have hended : EndRead ls' pkt.hd.pktNum :=
    (hpeer.acks ackPkt (hreads l hl ackPkt hsrc) _ hmem).2 _ hcovers
  exact ⟨pkt, hpkt, rfl, hsub, h.processed hpkt hended hpeer.follows hreads'⟩

theorem pktExchange_reads_back (hrun : PktExchange net₀ bls net) (side : Bool) :
    ∀ l ∈ Network.own (!side) bls, ∀ pkt ∈ l.src, pkt ∈ net.sent side := by
  intro l hl pkt hpkt
  have hread := pktExchange_reads hrun (!side) l hl pkt hpkt
  rwa [Bool.not_not] at hread

/-- A packet is reported as acknowledged only where the other endpoint has accepted all its frames
and come to its end. -/
theorem acked_processed (hrun : PktExchange net₀ bls net) (hstart : Connected net₀) (side : Bool)
    {frc : List Frame} (hacked : .pktAcked n frc ∈ (net.state side).log) :
    ∃ pkt ∈ net.sent side, pkt.hd.pktNum = n ∧ frc ⊆ pkt.frames ∧
      Processed (Network.own (!side) bls) pkt := by
  have h := pktInv_of_run hrun hstart side
  have hpeer := pktInv_of_run hrun hstart !side
  exact h.acked_sent hpeer (pktExchange_reads hrun side) (pktExchange_reads_back hrun side) hacked

/-- Steps that are allowed make a run. -/
theorem pktExchange_allowed
    (h : Runs.allowed pktExchangeStep pktExchangeAllows [] net₀ bls = true) :
    PktExchange net₀ bls (bls.foldl pktExchangeStep net₀) := by
  refine Runs.Run.of_allowed (fun bls net l hall => ?_) h
  unfold pktExchangeAllows at hall
  simp only [Bool.and_eq_true, List.all_eq_true, decide_eq_true_eq] at hall
  obtain ⟨⟨hsurvives, hallowed⟩, hknown⟩ := hall
  exact .move l.1 ⟨⟨_, rfl, hsurvives⟩, hallowed⟩ hknown

end

/-! ## An acknowledged packet -/

/-- A new client that is told about acknowledged bytes, and a new server. -/
def pktNet : Network.Net Conn Pkt where
  state side := bif side then
      ngtcp2ConnClientNew (fun _ => 0) 1 1 { quietCallbacks with ackedStreamDataOffset := true }
        ⟨100, 1000, 40, 40, 3⟩
    else handshakeServer
  sent _ := []

theorem pktNet_connected : Connected pktNet := by
  refine ⟨fun side => ?_, fun _ => rfl, rfl, rfl⟩
  cases side
  · exact .server ..
  · exact .client ..

/-- The client's packet with all of a stream. -/
def streamPkt : Pkt :=
  ⟨⟨false, false, false, .pkt01, 1, 1, 1⟩, [.stream ⟨2, 0, [7, 8], true⟩], 15, ⟨[2], [2]⟩⟩

/-- The server's packet that acknowledges it. -/
def ackPkt : Pkt :=
  ⟨⟨false, false, false, .pkt01, 1, 2, 1⟩, [.ack ⟨1, 24999, 0, []⟩, .maxStreamId 44], 20,
    ⟨[2], [2]⟩⟩

/-- A step that no packet is needed for. -/
def PktStep.alone (op : Op) : PktStep := ⟨op, none, true⟩

/-- The server gets ready, and acknowledges what the client sent. -/
def pktSteps : List (Bool × PktStep) :=
  (handshakeOps.map fun op => (false, .alone op)) ++
    [(true, .alone (.setRemoteTransportParams .encryptedExtensions ⟨100, 1000, 40, 40, 3, 1, [1]⟩)),
      (true, .alone (.setKeys .tx ⟨[2], [2]⟩)), (true, .alone .openUniStream),
      (true, .alone (.writeStream 100 2 true [7, 8] 1)),
      (false, ⟨.recvFrame false (.stream ⟨2, 0, [7, 8], true⟩), some streamPkt, true⟩),
      (false, ⟨.recvPktEnd 1 true false 1, some streamPkt, true⟩),
      (false, .alone (.writePkt 1200 200000)),
      (true, ⟨.recvFrame false (.ack ⟨1, 24999, 0, []⟩), some ackPkt, true⟩)]

theorem pktSteps_run : PktExchange pktNet pktSteps (pktSteps.foldl pktExchangeStep pktNet) :=
  pktExchange_allowed (by decide +kernel)

theorem acked_processed_once :
    Event.pktAcked 1 [.stream ⟨2, 0, [7, 8], true⟩] ∈
        ((pktSteps.foldl pktExchangeStep pktNet).state true).log ∧
      ∃ pkt ∈ (pktSteps.foldl pktExchangeStep pktNet).sent true, pkt.hd.pktNum = 1 ∧
        [.stream ⟨2, 0, [7, 8], true⟩] ⊆ pkt.frames ∧
          Processed (Network.own false pktSteps) pkt :=
  ⟨by decide, acked_processed pktSteps_run pktNet_connected true (by decide)⟩

end Ngtcp2
