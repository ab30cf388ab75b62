import Polygon.FrameRoundTrip
import Polygon.StreamCredit
import Polygon.Unauthenticated

/-!
# STREAM frames between two endpoints

A STREAM frame written by `ngtcp2_conn_write_stream` comes to `conn_recv_stream` of the
peer. The sender cuts the data by its limits and drops FIN where it cut, the receiver has
rules of its own about empty frames, FIN and offsets; they agree but for a few calls.
-/
namespace Ngtcp2

/-! ## What the sender emits -/

/-- The header `ngtcp2_conn_write_stream` begins its packet with. -/
def writeStreamHdLen (conn : Conn) : Nat :=
  if conn.txCkm.isSome then 1 + 8 +
    (pktNumLen (connSelectPktType conn conn.nextPktNum)).getD 0 else longHeaderlen

/-- The bytes of the stream that a packet of `destlen` bytes and the credit leave room for. -/
def writeStreamRoom (conn : Conn) (strm : Strm) (destlen : Nat) : Nat :=
  min (min (destlen - writeStreamHdLen conn - conn.aeadOverhead - streamOverhead)
    (subU64 strm.maxTxOffset strm.txOffset)) (subU64 conn.maxTxOffset conn.txOffset)

section
variable {conn conn' peer : Conn} {destlen streamId ts n : Nat} {fin : Bool} {data : List UInt8} {strm : Strm} {pkt : Pkt}

theorem connSelectPktType_hdLen (conn : Conn) (pktNum : Nat) :
    ∃ len, pktNumLen (connSelectPktType conn pktNum) = some len ∧
      ∀ hd : PktHd, hd.longForm = false → hd.omitConnId = false →
      hd.type = connSelectPktType conn pktNum →
        hdLen hd = .ok (1 + 8 + len) := by
  have hlen : ∀ type : PktType, type = .pkt01 ∨ type = .pkt02 ∨ type = .pkt03 →
    ∃ len, pktNumLen type = some len ∧
      ∀ hd : PktHd, hd.longForm = false → hd.omitConnId = false → hd.type = type →
        hdLen hd = .ok (1 + 8 + len) := by
    intro type htype
    rcases htype with rfl | rfl | rfl
    all_goals
      refine ⟨_, rfl, fun hd hlong homit htype => ?_⟩
      unfold hdLen
      rw [hlong, homit, htype]
      rfl
  exact hlen _ (connSelectPktType_short conn pktNum)

/-- The encoder is left with what the header and the AEAD do not need. -/
theorem writeStreamHd_left {hd : PktHd} {ckm : CryptoKm} {ppe : Ppe}
    (hhd : writeStreamHd conn = .ok (hd, ckm))
    (hppe : ppeEncodeHd destlen conn.aeadOverhead (some ckm) hd = .ok ppe) :
    ppeLeft ppe = destlen - writeStreamHdLen conn - conn.aeadOverhead := by
  have hlen : hdLen hd = .ok (writeStreamHdLen conn) := by
    unfold writeStreamHd at hhd
    unfold writeStreamHdLen
    split at hhd
    · next ckm' _ hckm =>
      obtain ⟨rfl, -⟩ := Prod.mk.inj (Except.ok.inj hhd)
      obtain ⟨len, hnum, hhdLen⟩ := connSelectPktType_hdLen conn conn.nextPktNum
      rw [hckm, hnum]
      exact hhdLen conn.shortHd rfl rfl rfl
    · next hckm _ =>
      split at hhd
      · cases hhd
      split at hhd
      · cases hhd
      · obtain ⟨rfl, -⟩ := Prod.mk.inj (Except.ok.inj hhd)
        rw [hckm]
        rfl
    · cases hhd
  unfold ppeEncodeHd at hppe
  rw [hlen] at hppe
  split at hppe
  · cases hppe
  dsimp only at hppe
  split at hppe
  · cases hppe
  · obtain rfl := Except.ok.inj hppe
    rfl

/-- The frame of a call that wrote a packet: the next bytes of the stream, as many as there is room for. -/
structure Emitted (conn : Conn) (destlen streamId : Nat) (fin : Bool) (data : List UInt8)
    (strm : Strm) (n : Nat)
    (fr : StreamFrame) : Prop where
  find : conn.strms streamId = some strm
  unshut : strm.shutWr = false
  fr_eq : fr = ⟨streamId, strm.txOffset, data.take n, fin && n == data.length⟩
  len : n = min data.length (writeStreamRoom conn strm destlen)
  sends : 0 < data.length → n ≠ 0
  encodes : fr.data.length ≤ maxVarint

theorem ngtcp2ConnWriteStream_emitted
    (h : ngtcp2ConnWriteStream conn destlen streamId fin data ts = (.ok (pkt, n), conn')) :
    ∃ strm fr, pkt.frames = [.stream fr] ∧ Emitted conn destlen streamId fin data strm n fr := by
  unfold ngtcp2ConnWriteStream at h
  split at h
  · cases h
  split at h
  · cases h
  next strm hfind =>
  split at h
  · cases h
  next hunshut =>
  split at h
  · cases h
  next hd ckm hhd =>
  split at h
  · cases h
  next ppe hppe =>
  obtain ⟨-, hnil, -⟩ := ppeEncodeHd_ok hppe
  split at h
  · cases h
  dsimp only at h
  split at h
  · cases h
  next hblocked =>
  have hlen : writeStreamLen conn strm (ppeLeft ppe) data.length =
      min data.length (writeStreamRoom conn strm destlen) := by
    unfold writeStreamLen writeStreamRoom
    rw [writeStreamHd_left hhd hppe, Nat.min_assoc, Nat.min_assoc, Nat.min_assoc]
  generalize hn : writeStreamLen conn strm (ppeLeft ppe) data.length = len at h hlen hblocked
  generalize hfr : StreamFrame.mk streamId strm.txOffset (data.take len)
    (fin && len == data.length) = fr at h
  obtain ⟨_, conn₁, -, h⟩ := andThen_eq_ok h
  split at h
  · cases h
  next ppe' henc =>
  obtain ⟨_, conn₂, -, h⟩ := andThen_eq_ok h
  obtain ⟨pkt', conn₃, hfinal, h⟩ := andThen_eq_ok h
  obtain ⟨_, hframe, -, rfl⟩ := ppeEncodeFrame_ok henc
  obtain ⟨-, ckm', -, rfl⟩ := ppeFinal_ok hfinal
  obtain ⟨hpkt, -⟩ := Prod.mk.inj h
  obtain ⟨rfl, rfl⟩ := Prod.mk.inj (Except.ok.inj hpkt)
  refine ⟨strm, fr, by simp [hnil], hfind, by simpa using hunshut, hfr.symm, hlen, fun hpos hz => hblocked ⟨hpos, hz⟩, ?_⟩
  obtain ⟨_, hlens, -⟩ := Option.map_eq_some_iff.mp hframe
  exact le_of_putVarintsLen hlens _ (by simp)

/-! ## The side of the sender -/

/-- Nothing can be written to the peer's unidirectional streams. -/
def PeerUniShut (conn : Conn) : Prop :=
  ∀ id strm, conn.strms id = some strm → bidiStream id = false → connLocalStream conn id = false →
    strm.shutWr = true

/-- A stream object comes into the map or is replaced. -/
theorem PeerUniShut.insert {strm' : Strm} (h : PeerUniShut conn)
    (ok : bidiStream strm'.streamId = false → connLocalStream conn strm'.streamId = false →
    strm'.shutWr = true) :
    PeerUniShut (conn.setStrm strm') := by
  intro i strm₁ hfind hbidi hloc
  rw [Conn.setStrm_strms] at hfind
  split at hfind
  · next hi =>
    obtain rfl := Option.some.inj hfind
    rw [hi] at hbidi hloc
    exact ok hbidi hloc
  · exact h i strm₁ hfind hbidi hloc

theorem PeerUniShut.setStrm {strm' : Strm} (h : PeerUniShut conn)
    (find : conn.strms strm.streamId = some strm)
    (id : strm'.streamId = strm.streamId) (shut : strm.shutWr = true → strm'.shutWr = true) :
    PeerUniShut (conn.setStrm strm') := by
  apply h.insert
  rw [id]
  exact fun hbidi hloc => shut (h _ _ find hbidi hloc)

theorem PeerUniShut.of_eq (h : PeerUniShut conn) (hstrms : conn'.strms = conn.strms)
    (hserver : conn'.server = conn.server) :
    PeerUniShut conn' := by
  intro i strm₁ hfind hbidi hloc
  rw [hstrms] at hfind
  rw [connLocalStream_congr hserver] at hloc
  exact h i strm₁ hfind hbidi hloc

theorem Change.peerUniShut {H : List Frame} {k : Kind} (h : Change H k conn conn')
    (hids : IdsInv conn)
    (hinv : PeerUniShut conn) : PeerUniShut conn' := by
  cases h with
  | idle same => exact hinv.of_eq same.strms same.server
  | timer => exact hinv
  | state => exact hinv
  | encrypt => exact hinv
  | rx find tx => exact hinv.setStrm find tx.streamId fun hs => tx.shutWr.trans hs
  | window find tx => exact hinv.setStrm find tx.streamId fun hs => tx.shutWr.trans hs
  | announce => exact hinv
  | announceStrm find => exact PeerUniShut.setStrm (show PeerUniShut (conn.setFrq _) from hinv) find rfl id
  | extend find tx => exact hinv.setStrm find tx.streamId fun hs => tx.shutWr.trans hs
  | extendConn => exact hinv
  | @openRemote _ streamId idtr none remote credit opens =>
    have hset : PeerUniShut (conn.setIds (bidiStream streamId)
        { conn.ids (bidiStream streamId) with remoteIdtr := idtr }) :=
      hinv.of_eq (Conn.setIds_strms _ _ _) (Conn.setIds_server _ _ _)
    have hopened : bidiStream (openedStrm conn streamId).streamId = false →
      (openedStrm conn streamId).shutWr = true := by
      rw [openedStrm_streamId]
      intro hbidi
      unfold openedStrm
      rw [hbidi]
      rfl
    exact hset.insert fun hbidi _ => hopened hbidi
  | @openLocal _ strm bidi credit none init =>
    have hid : strm.streamId = (conn.ids bidi).nextLocalStreamId := by
      rcases init with rfl | rfl <;> rfl
    have hset : PeerUniShut (conn.setStrm strm) := hinv.insert fun _ hloc => by
      rw [hid, hids.isLocal] at hloc
      cases hloc
    exact hset.of_eq (Conn.setIds_strms _ _ _) (Conn.setIds_server _ _ _)
  | consume => exact hinv.of_eq (Conn.setIds_strms _ _ _) (Conn.setIds_server _ _ _)
  | @close _ strm find shut code bidi unsent credit =>
    have hgone : PeerUniShut (conn.removeStrm strm.streamId) := fun i strm₁ hfind hbidi hloc => by
      have hfind : (if i = strm.streamId then .none else conn.strms i) = some strm₁ := hfind
      split at hfind
      · cases hfind
      · exact hinv i strm₁ hfind hbidi hloc
    exact hgone.of_eq (Conn.setIds_strms _ bidi _) (Conn.setIds_server _ bidi _)
  | raiseData => exact hinv
  | raiseIds => exact hinv.of_eq (Conn.setIds_strms _ _ _) (Conn.setIds_server _ _ _)
  | raiseStrm find n => exact hinv.setStrm find rfl id
  | limits => exact hinv
  | @limits0 _ strm0 find zero =>
    exact hinv.setStrm (zero ▸ find : conn.strms strm0.streamId = _) rfl id
  | push => exact hinv
  | rst find => exact PeerUniShut.setStrm (show PeerUniShut (connRstStream conn _ _) from hinv) find rfl fun _ => rfl
  | pktAcked => exact hinv
  | acked find => exact hinv.setStrm find rfl id
  | unlink => exact hinv
  | @tx _ strm fr hd find _ _ _ _ _ _ _ ts pktlen =>
    have hshut : ∀ b : Bool, strm.shutWr = true →
        (if b then (strm.setTxOffset (strm.txOffset + fr.data.length)).shutdownWr
          else strm.setTxOffset (strm.txOffset + fr.data.length)).shutWr = true := by
      intro b hs
      cases b
      · exact hs
      · rfl
    have htrack : (trackStreamPkt conn hd fr ts pktlen).strms = conn.strms ∧
        (trackStreamPkt conn hd fr ts pktlen).server = conn.server := by
      unfold trackStreamPkt
      split <;> exact ⟨rfl, rfl⟩
    have hkeep : PeerUniShut { trackStreamPkt conn hd fr ts pktlen with
        txOffset := if fr.streamId = 0 then (trackStreamPkt conn hd fr ts pktlen).txOffset
          else (trackStreamPkt conn hd fr ts pktlen).txOffset + fr.data.length } := hinv.of_eq htrack.1 htrack.2
    have hfind : (trackStreamPkt conn hd fr ts pktlen).strms strm.streamId = some strm :=
      htrack.1 ▸ find
    refine hkeep.setStrm hfind ?_ (hshut fr.fin)
    split <;> rfl
  | @refill _ strm0 find zero =>
    exact hinv.setStrm (zero ▸ find : conn.strms strm0.streamId = _) rfl id
  | @advance _ strm0 find zero =>
    exact hinv.setStrm (zero ▸ find : conn.strms strm0.streamId = _) rfl id
  | restart =>
    have hkeep : PeerUniShut { conn with lastTxPktNum := 0, rtb := rtbInit } := hinv
    exact hkeep.insert fun hbidi => absurd hbidi (by decide : bidiStream 0 ≠ false)
  | pkts => exact hinv
  | frq => exact hinv.of_eq rfl rfl
  | timeout => exact hinv

theorem Initial.peerUniShut (h : Initial conn) : PeerUniShut conn := by
  intro id strm hfind hbidi
  have hid : id = 0 := by
    by_contra hne
    have hnone : conn.strms id = none := by cases h <;> exact if_neg hne
    rw [hnone] at hfind
    cases hfind
  rw [hid] at hbidi
  exact absurd hbidi (by decide)

theorem Reachable.peerUniShut (h : Reachable conn) : PeerUniShut conn := by
  obtain ⟨conn₀, ops, hinit, hrun⟩ := h
  refine (hrun.invariant (fun _ c => WellFormed c ∧ IdsInv c ∧ PeerUniShut c)
    ⟨hinit.wellFormed, hinit.idsInv,
      hinit.peerUniShut⟩ fun _ _ _ _ hP hstep => ⟨Step.wellFormed hP.1 hstep, ?_⟩).2.2
  exact (Step.changes hP.1 hstep).keeps (fun c => IdsInv c ∧ PeerUniShut c)
    (fun _ _ _ _ hP hc => ⟨hc.idsInv hP.1, hc.peerUniShut hP.1 hP.2⟩) hP.2

/-! ## The side of the receiver -/

/-- The errors of a frame that breaks the rules of the format, of stream 0 or of the final offset. -/
def malformedErrs : List Err := [.frameFormat, .proto, .finalOffset]

/-- Accepted as far as the form of the frame goes. -/
def Accepted (r : Except Err Unit) : Prop := ∀ e ∈ malformedErrs, r ≠ .error e

/-- The other side of a stream: it lets the peer use the stream, has not seen its end, and no more of it than was
sent. -/
structure PeerOf (conn peer : Conn) (streamId : Nat) : Prop where
  role : peer.server = !conn.server
  allowed : connCheckStreamId peer streamId = none
  progress : ∀ strm rstrm, conn.strms streamId = some strm → peer.strms streamId = some rstrm →
    rstrm.shutRd = false ∧ rstrm.lastRxOffset ≤ strm.txOffset

theorem Erring.accepted {r : Except Err Unit} {E : List Err} (h : Erring E r)
    (hE : ∀ e ∈ malformedErrs, e ∉ E) :
    Accepted r := by
  intro e he hr
  exact hE e he (h e hr)

theorem connRecvStreamFin_accepted {fr : StreamFrame} (hopen : strm.shutRd = false)
    (hlast : strm.lastRxOffset ≤ fr.endOffset) :
    Erring deliveryErrs (connRecvStreamFin conn strm fr).1 := by
  unfold connRecvStreamFin
  rw [hopen, if_neg Bool.false_ne_true, if_neg (Nat.not_lt.mpr hlast)]
  dsimp only
  split
  · exact ngtcp2ConnCloseStreamIfShutRdwr_erring _ _ _
  split
  · exact (connCall_erring _ _).andThen fun _ _ => ngtcp2ConnCloseStreamIfShutRdwr_erring _ _ _
  · exact connRecvStreamDeliver_erring _ _ _ _

theorem connRecvStreamNoFin_accepted {fr : StreamFrame} (hopen : strm.shutRd = false) :
    Erring deliveryErrs (connRecvStreamNoFin conn strm fr).1 := by
  unfold connRecvStreamNoFin
  rw [hopen, if_neg (fun h => Bool.false_ne_true h.1)]
  dsimp only
  split
  · exact erring_ok _
  split
  · exact erring_ok _
  · exact connRecvStreamDeliver_erring _ _ _ _

/-- The object of the stream that a frame goes to, found or made. -/
theorem connFindOrOpenStream_progress {found : Option Strm}
    (hprogress : ∀ rstrm, conn.strms streamId = some rstrm → rstrm.shutRd = false ∧
    rstrm.lastRxOffset ≤ n)
    (h : connFindOrOpenStream conn streamId = (.ok found, conn')) :
    ∀ rstrm, found = some rstrm → rstrm.shutRd = false ∧ rstrm.lastRxOffset ≤ n := by
  intro rstrm hfound
  cases hfind : conn.strms streamId with
  | some strm =>
    rw [connFindOrOpenStream_find hfind] at h
    obtain ⟨hsome, -⟩ := Prod.mk.inj h
    obtain rfl := Option.some.inj ((Except.ok.inj hsome).trans hfound)
    exact hprogress strm hfind
  | none =>
    by_cases hused : UsedId conn streamId
    · rw [connFindOrOpenStream_closed hfind hused] at h
      obtain ⟨hnone, -⟩ := Prod.mk.inj h
      cases (Except.ok.inj hnone).trans hfound
    · obtain ⟨hremote, hopen⟩ := not_or.mp hused
      obtain ⟨idtr, hopen⟩ := Option.ne_none_iff_exists'.mp hopen
      rw [connFindOrOpenStream_open hfind (Bool.eq_false_iff.mpr hremote) hopen] at h
      obtain ⟨hsome, -⟩ := Prod.mk.inj h
      obtain rfl := Option.some.inj ((Except.ok.inj hsome).trans hfound)
      unfold openedStrm
      dsimp only
      split <;> exact ⟨rfl, Nat.zero_le _⟩

/-- Behind the checks of the frame no rule about its form is left to break. -/
theorem connRecvStream_checked {fr : StreamFrame} (hcheck : connCheckStreamFrame conn fr = none)
    (hprogress : ∀ rstrm, conn.strms fr.streamId = some rstrm → rstrm.shutRd = false ∧
    rstrm.lastRxOffset ≤ fr.endOffset) :
    Accepted (connRecvStream conn fr).1 := by
  have herrs : Erring (.flowControl :: deliveryErrs) (connRecvStream conn fr).1 := by
    have hmono : ∀ {r : Except Err Unit}, Erring deliveryErrs r →
      Erring (.flowControl :: deliveryErrs) r :=
      fun h e he => List.mem_cons_of_mem _ (h e he)
    unfold connRecvStream
    rw [hcheck]
    dsimp only
    cases hfind : connFindOrOpenStream conn fr.streamId with
    | mk found conn₁ =>
      cases found with
      | error e =>
        have hfound := connFindOrOpenStream_erring conn fr.streamId e
        rw [hfind] at hfound
        exact erring_error (List.mem_cons_of_mem _ (hfound rfl))
      | ok found =>
        rw [andThen_ok]
        cases found with
        | none => exact erring_ok _
        | some rstrm =>
          obtain ⟨hopen, hlast⟩ := connFindOrOpenStream_progress hprogress hfind rstrm rfl
          dsimp only
          refine Erring.andThen ?_ fun _ conn₂ => ?_
          · unfold connRecvStreamCharge
            dsimp only
            split
            · exact erring_error (by decide)
            split
            · split
              · exact erring_error (by decide)
              · exact erring_ok ()
            · exact erring_ok ()
          · split
            · exact hmono (connRecvStreamFin_accepted hopen hlast)
            · exact hmono (connRecvStreamNoFin_accepted hopen)
  exact herrs.accepted (by decide)

theorem connLocalStream_role (h : peer.server = !conn.server) (id : Nat) :
    connLocalStream peer id = !connLocalStream conn id := by
  unfold connLocalStream
  rw [h]
  cases conn.server with
  | true => simp [bne]
  | false => simp [bne]

/-- The frame of the sender is accepted if it is not empty, does not end stream 0, and ends where an offset can. -/
theorem Emitted.accepted_iff {fr : StreamFrame}
    (h : Emitted conn destlen streamId fin data strm n fr)
    (huni : PeerUniShut conn) (hpeer : PeerOf conn peer streamId) :
    Accepted (connRecvStream peer fr).1 ↔
      (fr.data ≠ [] ∨ fr.fin = true) ∧ ¬(fr.streamId = 0 ∧ fr.fin = true) ∧
      fr.endOffset ≤ maxVarint := by
  have hid : fr.streamId = streamId := by rw [h.fr_eq]
  have hoffset : fr.offset = strm.txOffset := by rw [h.fr_eq]
  have hrefused : ∀ e ∈ malformedErrs, connCheckStreamFrame peer fr = some e →
    ¬Accepted (connRecvStream peer fr).1 := by
    intro e he hcheck hacc
    refine hacc e he ?_
    unfold connRecvStream
    rw [hcheck]
  -- the peer has no rule of its own for a unidirectional stream of the sender
  have hlocal : ¬((!bidiStream fr.streamId) = true ∧ connLocalStream peer fr.streamId = true ∧
    fr.endOffset ≠ 0) := by
    rintro ⟨hbidi, hloc, -⟩
    rw [hid] at hbidi hloc
    rw [connLocalStream_role hpeer.role] at hloc
    have hshut := huni streamId strm h.find (by simpa using hbidi) (by simpa using hloc)
    rw [h.unshut] at hshut
    cases hshut
  have hvarint : subU64 maxVarint fr.data.length < fr.offset ↔ maxVarint < fr.endOffset := by
    rw [subU64_of_le h.encodes (by unfold maxVarint; omega)]
    have hle := h.encodes
    unfold StreamFrame.endOffset
    omega
  have hcheck : connCheckStreamFrame peer fr =
      if fr.streamId = 0 ∧ fr.fin = true then some .proto
      else if (!fr.fin) = true ∧ fr.data.length = 0 then some .frameFormat
      else if maxVarint < fr.endOffset then some .proto
      else none := by
    unfold connCheckStreamFrame
    rw [hid, hpeer.allowed, ← hid]
    dsimp only
    rw [if_neg hlocal, if_congr hvarint rfl rfl]
  rcases Decidable.em (fr.streamId = 0 ∧ fr.fin = true) with hcrypto | hcrypto
  · rw [if_pos hcrypto] at hcheck
    exact iff_of_false (hrefused .proto (by decide) hcheck) fun hc => hc.2.1 hcrypto
  rcases Decidable.em ((!fr.fin) = true ∧ fr.data.length = 0) with hempty | hempty
  · rw [if_neg hcrypto, if_pos hempty] at hcheck
    refine iff_of_false (hrefused .frameFormat (by decide) hcheck) fun hc => ?_
    rcases hc.1 with hdata | hfin
    · exact hdata (List.length_eq_zero_iff.mp hempty.2)
    · rw [hfin] at hempty
      cases hempty.1
  rw [if_neg hcrypto, if_neg hempty] at hcheck
  rcases Decidable.em (maxVarint < fr.endOffset) with hfar | hfar
  · rw [if_pos hfar] at hcheck
    exact iff_of_false (hrefused .proto (by decide) hcheck) fun hc => Nat.not_le.mpr hfar hc.2.2
  · rw [if_neg hfar] at hcheck
    refine iff_of_true (connRecvStream_checked hcheck fun rstrm hfind => ?_) ⟨?_, hcrypto,
      Nat.not_lt.mp hfar⟩
    · obtain ⟨hopen, hlast⟩ := hpeer.progress strm rstrm h.find (hid ▸ hfind)
      exact ⟨hopen, le_trans hlast (by rw [StreamFrame.endOffset, hoffset]; exact Nat.le_add_right _ _)⟩
    · cases hfin : fr.fin with
      | true => exact .inr rfl
      | false =>
        refine .inl fun hnil => hempty ⟨by rw [hfin]; rfl, ?_⟩
        rw [hnil]
        rfl

/-- Every STREAM frame of a call that returned a packet is accepted by the peer. -/
def FramesAccepted (conn peer : Conn) (destlen streamId : Nat) (fin : Bool) (data : List UInt8)
    (ts : Nat) : Prop :=
  ∀ pkt n, (ngtcp2ConnWriteStream conn destlen streamId fin data ts).1 = .ok (pkt, n) →
    ∀ fr, .stream fr ∈ pkt.frames → Accepted (connRecvStream peer fr).1

theorem Emitted.frame_iff {fr : StreamFrame}
    (h : Emitted conn destlen streamId fin data strm n fr) :
    (fr.data ≠ [] ∨ fr.fin = true) ∧ ¬(fr.streamId = 0 ∧ fr.fin = true) ∧ fr.endOffset ≤ maxVarint ↔
      (data ≠ [] ∨ fin = true) ∧
      ¬(streamId = 0 ∧ fin = true ∧ data.length ≤ writeStreamRoom conn strm destlen) ∧
      strm.txOffset + min data.length (writeStreamRoom conn strm destlen) ≤ maxVarint := by
  have hdata : fr.data = data.take n := by rw [h.fr_eq]
  have hfin : fr.fin = true ↔ fin = true ∧ data.length ≤ writeStreamRoom conn strm destlen := by
    have hall : n = data.length ↔ data.length ≤ writeStreamRoom conn strm destlen := by
      rw [h.len]
      exact min_eq_left_iff
    rw [h.fr_eq]
    simp [hall]
  have hempty : fr.data = [] ↔ data = [] := by
    rw [hdata, List.take_eq_nil_iff]
    refine ⟨fun hnil => ?_, .inr⟩
    by_contra hne
    exact h.sends (List.length_pos_iff.mpr hne) (hnil.resolve_right hne)
  have hend : fr.endOffset =
    strm.txOffset + min data.length (writeStreamRoom conn strm destlen) := by
    have hle : n ≤ data.length := h.len ▸ Nat.min_le_left _ _
    rw [StreamFrame.endOffset, hdata, List.length_take, Nat.min_eq_left hle, h.fr_eq, h.len]
  have hid : fr.streamId = streamId := by rw [h.fr_eq]
  have hbrings : data ≠ [] ∨ fin = true ∧ data.length ≤ writeStreamRoom conn strm destlen ↔
    data ≠ [] ∨ fin = true := by
    refine ⟨fun hb => hb.imp_right And.left, fun hb => ?_⟩
    rcases Decidable.em (data = []) with rfl | hne
    · exact .inr ⟨hb.resolve_left fun hnil => hnil rfl, Nat.zero_le _⟩
    · exact .inl hne
  rw [hend, hid, hfin, Ne, hempty, ← Ne, hbrings]

/-- The frame is accepted if and only if the call brings data or FIN, does not end stream 0 with all of its data, and
stops before the offsets that a varint cannot carry. -/
theorem writeStream_accepted_iff (hreach : Reachable conn) (hpeer : PeerOf conn peer streamId)
    (hfind : conn.strms streamId = some strm)
    (hok : ∃ pkt n, (ngtcp2ConnWriteStream conn destlen streamId fin data ts).1 = .ok (pkt, n)) :
    FramesAccepted conn peer destlen streamId fin data ts ↔
      (data ≠ [] ∨ fin = true) ∧
      ¬(streamId = 0 ∧ fin = true ∧ data.length ≤ writeStreamRoom conn strm destlen) ∧
      strm.txOffset + min data.length (writeStreamRoom conn strm destlen) ≤ maxVarint := by
  obtain ⟨pkt, n, hok⟩ := hok
  have hw : ngtcp2ConnWriteStream conn destlen streamId fin data ts =
      (.ok (pkt, n), (ngtcp2ConnWriteStream conn destlen streamId fin data ts).2) := by rw [← hok]
  obtain ⟨strm', fr, hframes, hem⟩ := ngtcp2ConnWriteStream_emitted hw
  obtain rfl := Option.some.inj (hfind.symm.trans hem.find)
  rw [← hem.frame_iff, ← hem.accepted_iff hreach.peerUniShut hpeer]
  constructor
  · intro hacc
    refine hacc pkt n hok fr ?_
    rw [hframes]
    exact List.mem_singleton_self _
  · intro hacc pkt' n' hok' fr' hfr'
    obtain ⟨rfl, -⟩ := Prod.mk.inj (Except.ok.inj (hok.symm.trans hok'))
    rw [hframes, List.mem_singleton] at hfr'
    obtain rfl := Frame.stream.inj hfr'
    exact hacc

end

/-! ## Two endpoints -/

/-- A client with its keys and one stream of its own. -/
def smallClient : Conn :=
  runOps (ngtcp2ConnClientNew (fun _ => 0) 1 1 quietCallbacks ⟨100, 1000, 40, 40, 3⟩)
    [.setKeys .tx ⟨[2], [2]⟩, .recvFrame false (.maxStreamId 40), .openBidiStream]

theorem smallClient_reachable : Reachable smallClient :=
  .runOps (Initial.client ..).reachable _ rfl

theorem smallClient_peer : PeerOf smallClient smallServer 4 := by
  refine ⟨rfl, rfl, fun strm rstrm _ hfind => ?_⟩
  cases hfind

/-- FIN without data ends the client's stream. -/
theorem writeStream_accepted_iff_fin : FramesAccepted smallClient smallServer 100 4 true [] 1 :=
  (writeStream_accepted_iff smallClient_reachable smallClient_peer rfl ⟨_, _, rfl⟩).mpr
    ⟨.inr rfl, fun h => absurd h.1 (by decide), by decide⟩

/-- A call of the client without data and FIN: the server answers the empty frame with
`NGTCP2_ERR_FRAME_FORMAT`. -/
theorem writeStream_refused_empty : Reachable smallClient ∧ PeerOf smallClient smallServer 4 ∧
    (∃ pkt n, (ngtcp2ConnWriteStream smallClient 100 4 false [] 1).1 = .ok (pkt, n)) ∧
    ¬FramesAccepted smallClient smallServer 100 4 false [] 1 := by
  refine ⟨smallClient_reachable, smallClient_peer, ⟨_, _, rfl⟩, fun hacc => ?_⟩
  exact hacc _ _ rfl _ (List.mem_singleton_self _) .frameFormat (by decide) rfl

end Ngtcp2
