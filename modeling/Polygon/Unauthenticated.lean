import Polygon.PacketSteps

/-!
# Packets that cannot be decrypted

Nothing behind the decryption of a packet returns `NGTCP2_ERR_TLS_DECRYPT`. So where
`ngtcp2_conn_recv` returns it, only what is done before the decryption has happened.
-/
namespace Ngtcp2

/-! ## Errors of the frames -/

/-- The error, if there is one, is among `E`. -/
def Erring {α : Type} (E : List Err) (r : Except Err α) : Prop := ∀ e, r = .error e → e ∈ E

/-- The errors of handing data to the application and of closing a stream. -/
def deliveryErrs : List Err :=
  [.abort, .callbackFailure, .invalidArgument, .tlsHandshake, .tlsFatalAlertGenerated,
    .tlsFatalAlertReceived]

/-- Not the error of a packet that could not be decrypted. -/
def Decrypted {α : Type} (r : Except Err α) : Prop := r ≠ .error .tlsDecrypt

section
variable {α β : Type} {E : List Err}

theorem erring_ok (a : α) : Erring E (.ok a : Except Err α) := nofun

theorem erring_error {e : Err} (h : e ∈ E) : Erring E (.error e : Except Err α) := by
  intro e' he
  obtain rfl := Except.error.inj he
  exact h

theorem Erring.andThen {x : Result α} {f : α → Conn → Result β} (hx : Erring E x.1)
    (hf : ∀ a conn, Erring E (f a conn).1) : Erring E (x.andThen f).1 := by
  obtain ⟨res, conn⟩ := x
  cases res with
  | error e => exact erring_error (hx e rfl)
  | ok a => exact hf a conn

theorem decrypted_ok (a : α) : Decrypted (.ok a : Except Err α) := nofun

theorem decrypted_error {e : Err} (h : e ≠ .tlsDecrypt) : Decrypted (.error e : Except Err α) :=
    fun hc =>
  h (Except.error.inj hc)

theorem Decrypted.andThen {x : Result α} {f : α → Conn → Result β} (hx : Decrypted x.1)
    (hf : ∀ a conn, Decrypted (f a conn).1) : Decrypted (x.andThen f).1 := by
  obtain ⟨res, conn⟩ := x
  cases res with
  | error e => exact decrypted_error fun he => hx (congrArg _ he)
  | ok a => exact hf a conn

theorem Erring.decrypted {r : Except Err α} (h : Erring deliveryErrs r) : Decrypted r := by
  intro he
  have hmem := h _ he
  revert hmem
  decide

theorem connCall_erring (conn : Conn) (ev : Event) : Erring deliveryErrs (connCall conn ev).1 := by
  unfold connCall
  split
  · exact erring_ok _
  · exact erring_error (by decide)

theorem connCall_decrypted (conn : Conn) (ev : Event) : Decrypted (connCall conn ev).1 :=
  (connCall_erring conn ev).decrypted

theorem connCallRecvStream0Data_erring (conn : Conn) (data : List UInt8) :
    Erring deliveryErrs (connCallRecvStream0Data conn data).1 := by
  unfold connCallRecvStream0Data
  dsimp only
  split
  · exact erring_ok _
  all_goals exact erring_error (by decide)

theorem ngtcp2ConnCloseStreamIfShutRdwr_erring (conn : Conn) (strm : Strm) (code : Nat) :
    Erring deliveryErrs (ngtcp2ConnCloseStreamIfShutRdwr conn strm code).1 := by
  unfold ngtcp2ConnCloseStreamIfShutRdwr
  split
  · unfold ngtcp2ConnCloseStream
    dsimp only
    split
    · exact erring_error (by decide)
    · exact (connCall_erring _ _).andThen fun _ _ => erring_ok _
  · exact erring_ok _

theorem ngtcp2ConnCloseStreamIfShutRdwr_decrypted (conn : Conn) (strm : Strm) (code : Nat) :
    Decrypted (ngtcp2ConnCloseStreamIfShutRdwr conn strm code).1 :=
  (ngtcp2ConnCloseStreamIfShutRdwr_erring conn strm code).decrypted

theorem connFindOrOpenStream_erring (conn : Conn) (streamId : Nat) :
    Erring deliveryErrs (connFindOrOpenStream conn streamId).1 := by
  unfold connFindOrOpenStream
  split
  · exact erring_ok _
  split
  · exact erring_ok _
  dsimp only
  split
  · exact erring_ok _
  refine Erring.andThen ?_ fun strm conn => ?_
  · unfold ngtcp2ConnInitStream
    split
    · exact erring_error (by decide)
    · exact erring_ok _
  · split
    · exact erring_ok _
    · exact erring_ok _

/-! ## STREAM frames -/

theorem connEmitPendingStreamData_erring (fuel : Nat) (conn : Conn) (strm : Strm) (rxOffset : Nat) :
    Erring deliveryErrs (connEmitPendingStreamData fuel conn strm rxOffset).1 := by
  induction fuel generalizing conn strm rxOffset with
  | zero => exact erring_error (by decide)
  | succ fuel ih =>
    unfold connEmitPendingStreamData
    split
    · exact erring_error (by decide)
    split
    · split
      · exact erring_ok _
      · exact erring_error (by decide)
    refine (connCall_erring _ _).andThen fun _ conn => ?_
    split
    · exact erring_error (by decide)
    · exact ih _ _ _

theorem connEmitPendingStream0Data_erring (fuel : Nat) (conn : Conn) (strm : Strm)
    (rxOffset : Nat) :
    Erring deliveryErrs (connEmitPendingStream0Data fuel conn strm rxOffset).1 := by
  induction fuel generalizing conn strm rxOffset with
  | zero => exact erring_error (by decide)
  | succ fuel ih =>
    unfold connEmitPendingStream0Data
    split
    · exact erring_error (by decide)
    split
    · split
      · exact erring_ok _
      · exact erring_error (by decide)
    refine (connCallRecvStream0Data_erring _ _).andThen fun _ conn => ?_
    dsimp only
    split
    · exact erring_error (by decide)
    · exact ih _ _ _

theorem connRecvStreamDeliver_erring (conn : Conn) (strm : Strm) (fr : StreamFrame)
    (rxOffset : Nat) :
    Erring deliveryErrs (connRecvStreamDeliver conn strm fr rxOffset).1 := by
  unfold connRecvStreamDeliver
  refine Erring.andThen ?_ fun _ _ => ngtcp2ConnCloseStreamIfShutRdwr_erring _ _ _
  split
  · dsimp only
    split
    · exact (connCallRecvStream0Data_erring _ _).andThen fun _ _ =>
        connEmitPendingStream0Data_erring _ _ _ _
    · exact (connCall_erring _ _).andThen fun _ _ => connEmitPendingStreamData_erring _ _ _ _
  · exact erring_ok _

theorem connRecvStreamDeliver_decrypted (conn : Conn) (strm : Strm) (fr : StreamFrame)
    (rxOffset : Nat) :
    Decrypted (connRecvStreamDeliver conn strm fr rxOffset).1 :=
  (connRecvStreamDeliver_erring conn strm fr rxOffset).decrypted

theorem connRecvStreamFin_decrypted (conn : Conn) (strm : Strm) (fr : StreamFrame) :
    Decrypted (connRecvStreamFin conn strm fr).1 := by
  unfold connRecvStreamFin
  split
  · split
    · exact decrypted_error (by decide)
    · exact decrypted_ok _
  split
  · exact decrypted_error (by decide)
  dsimp only
  split
  · exact ngtcp2ConnCloseStreamIfShutRdwr_decrypted _ _ _
  split
  · exact (connCall_decrypted _ _).andThen fun _ _ =>
      ngtcp2ConnCloseStreamIfShutRdwr_decrypted _ _ _
  · exact connRecvStreamDeliver_decrypted _ _ _ _

theorem connRecvStreamNoFin_decrypted (conn : Conn) (strm : Strm) (fr : StreamFrame) :
    Decrypted (connRecvStreamNoFin conn strm fr).1 := by
  unfold connRecvStreamNoFin
  split
  · exact decrypted_error (by decide)
  dsimp only
  split
  · exact decrypted_ok _
  split
  · exact decrypted_ok _
  · exact connRecvStreamDeliver_decrypted _ _ _ _

theorem connCheckStreamId_ne (conn : Conn) (streamId : Nat) :
    connCheckStreamId conn streamId ≠ some .tlsDecrypt := by
  unfold connCheckStreamId
  dsimp only
  split
  · split <;> decide
  · split <;> decide

theorem connCheckStreamFrame_ne (conn : Conn) (fr : StreamFrame) :
    connCheckStreamFrame conn fr ≠ some .tlsDecrypt := by
  unfold connCheckStreamFrame
  split
  · decide
  split
  · decide
  split
  · next e he =>
    rw [← he]
    exact connCheckStreamId_ne conn fr.streamId
  split
  · decide
  split <;> decide

theorem connRecvStream_decrypted (conn : Conn) (fr : StreamFrame) :
    Decrypted (connRecvStream conn fr).1 := by
  unfold connRecvStream
  split
  · next e he =>
    exact decrypted_error fun hc => connCheckStreamFrame_ne conn fr (he.trans (congrArg some hc))
  refine (connFindOrOpenStream_erring _ _).decrypted.andThen fun strm conn => ?_
  split
  · exact decrypted_ok _
  refine Decrypted.andThen ?_ fun _ conn => ?_
  · unfold connRecvStreamCharge
    dsimp only
    split
    · exact decrypted_error (by decide)
    split
    · split
      · exact decrypted_error (by decide)
      · exact decrypted_ok ()
    · exact decrypted_ok ()
  · split
    · exact connRecvStreamFin_decrypted _ _ _
    · exact connRecvStreamNoFin_decrypted _ _ _

/-! ## The other frames -/

theorem connRecvRstStream_decrypted (conn : Conn) (fr : RstStreamFrame) :
    Decrypted (connRecvRstStream conn fr).1 := by
  unfold connRecvRstStream
  split
  · exact decrypted_error (by decide)
  split
  · next e he => exact decrypted_error fun hc => connCheckStreamId_ne conn _ (he.trans (congrArg some hc))
  dsimp only
  split
  · split
    · split
      · exact decrypted_error (by decide)
      · exact decrypted_ok _
    split
    · exact decrypted_ok _
    split
    · exact decrypted_error (by decide)
    · exact decrypted_ok _
  split
  · exact decrypted_error (by decide)
  split
  · exact decrypted_error (by decide)
  split
  · exact decrypted_error (by decide)
  · exact ngtcp2ConnCloseStreamIfShutRdwr_decrypted _ _ _

theorem connRecvStopSending_decrypted (conn : Conn) (fr : StopSendingFrame) :
    Decrypted (connRecvStopSending conn fr).1 := by
  unfold connRecvStopSending
  split
  · exact decrypted_error (by decide)
  split
  · next e he => exact decrypted_error fun hc => connCheckStreamId_ne conn _ (he.trans (congrArg some hc))
  dsimp only
  split
  · split
    · split
      · exact decrypted_ok _
      · exact decrypted_ok _
    · exact decrypted_ok _
  · exact ngtcp2ConnCloseStreamIfShutRdwr_decrypted _ _ _

theorem connRecvMaxStreamData_decrypted (conn : Conn) (fr : MaxStreamDataFrame) :
    Decrypted (connRecvMaxStreamData conn fr).1 := by
  unfold connRecvMaxStreamData
  split
  · next e he => exact decrypted_error fun hc => connCheckStreamId_ne conn _ (he.trans (congrArg some hc))
  refine (connFindOrOpenStream_erring _ _).decrypted.andThen fun strm conn => ?_
  split
  · exact decrypted_ok _
  · exact decrypted_ok _

theorem callAckedStreamOffset_decrypted (frc : List Frame) (conn : Conn) :
    Decrypted (callAckedStreamOffset frc conn).1 := by
  induction frc generalizing conn with
  | nil => exact decrypted_ok _
  | cons fr frc ih =>
    cases fr with
    | stream fr =>
      unfold callAckedStreamOffset
      dsimp only
      split
      · exact ih _
      split
      · exact ih _
      · refine (connCall_decrypted _ _).andThen fun _ conn => ?_
        exact (ngtcp2ConnCloseStreamIfShutRdwr_decrypted _ _ _).andThen fun _ conn => ih _
    | _ => exact ih _

theorem rtbOnAcked_decrypted (conn : Conn) (ent : RtbEntry) :
    Decrypted (rtbOnAcked conn ent).1 := by
  unfold rtbOnAcked
  refine Decrypted.andThen ?_ fun _ conn => ?_
  · split
    · exact callAckedStreamOffset_decrypted _ _
    · exact decrypted_ok _
  · split
    · exact decrypted_error (by decide)
    · exact decrypted_ok _

theorem rtbRecvAckFirst_decrypted (unprotected : Bool) (minAck largestAck : Nat)
    (ents : List RtbEntry) (conn : Conn) :
    Decrypted (rtbRecvAckFirst unprotected minAck largestAck ents conn).1 := by
  induction ents generalizing conn with
  | nil => exact decrypted_ok _
  | cons ent ents ih =>
    unfold rtbRecvAckFirst
    split
    · split
      · exact ih _
      · exact (rtbOnAcked_decrypted _ _).andThen fun _ _ => ih _
    · exact decrypted_ok _

theorem rtbRecvAckBlk_decrypted (unprotected : Bool) (minAck largestAck : Nat)
    (ents : List RtbEntry) (conn : Conn) :
    Decrypted (rtbRecvAckBlk unprotected minAck largestAck ents conn).1 := by
  induction ents generalizing conn with
  | nil => exact decrypted_ok _
  | cons ent ents ih =>
    unfold rtbRecvAckBlk
    split
    · exact ih _
    split
    · exact decrypted_ok _
    split
    · exact ih _
    · exact (rtbOnAcked_decrypted _ _).andThen fun _ _ => ih _

theorem rtbRecvAckBlks_decrypted (unprotected : Bool) (minAck : Nat) (blks : List AckBlk)
    (ents : List RtbEntry)
    (conn : Conn) : Decrypted (rtbRecvAckBlks unprotected minAck blks ents conn).1 := by
  induction blks generalizing minAck ents conn with
  | nil =>
    unfold rtbRecvAckBlks
    exact decrypted_ok _
  | cons blk blks ih =>
    cases ents with
    | nil =>
      unfold rtbRecvAckBlks
      exact decrypted_ok _
    | cons ent ents =>
      unfold rtbRecvAckBlks
      exact (rtbRecvAckBlk_decrypted _ _ _ _ _).andThen fun _ _ => ih _ _ _

theorem connRecvAck_decrypted (conn : Conn) (fr : AckFrame) (unprotected : Bool) :
    Decrypted (connRecvAck conn fr unprotected).1 := by
  unfold connRecvAck
  split
  · exact (rtbRecvAckFirst_decrypted _ _ _ _ _).andThen fun _ _ =>
      rtbRecvAckBlks_decrypted _ _ _ _ _
  · exact decrypted_error (by decide)

/-! ## Packets -/

theorem connRecvPktFrame_decrypted (longForm : Bool) (conn : Conn) (fr : Frame) :
    Decrypted (connRecvPktFrame longForm conn fr).1 := by
  cases fr with
  | ack fr => exact connRecvAck_decrypted _ _ _
  | stream fr =>
    simp only [connRecvPktFrame]
    split
    · exact decrypted_error (by decide)
    · exact connRecvStream_decrypted _ _
  | rstStream fr => exact connRecvRstStream_decrypted _ _
  | stopSending fr => exact connRecvStopSending_decrypted _ _
  | maxStreamData fr => exact connRecvMaxStreamData_decrypted _ _
  | maxStreamId n => exact connCall_decrypted _ _
  | pong data =>
    simp only [connRecvPktFrame, connRecvPong]
    split
    · exact decrypted_error (by decide)
    · exact decrypted_ok _
  | _ => exact decrypted_ok _

theorem connRecvDelayedHandshakeFrame_decrypted (type : PktType) (conn : Conn) (fr : Frame) :
    Decrypted (connRecvDelayedHandshakeFrame type conn fr).1 := by
  cases fr with
  | ack fr =>
    simp only [connRecvDelayedHandshakeFrame]
    split
    · exact decrypted_error (by decide)
    · exact connRecvAck_decrypted _ _ _
  | stream fr => exact connRecvStream_decrypted _ _
  | padding n => exact decrypted_ok _
  | _ => exact decrypted_error (by decide)

theorem connRecvHandshakeStream_decrypted (conn : Conn) (type : PktType) (failed : Bool)
    (fr : StreamFrame) :
    Decrypted (connRecvHandshakeStream conn type failed fr).1 := by
  unfold connRecvHandshakeStream
  split
  · exact decrypted_ok _
  split
  · exact decrypted_error (by decide)
  split
  · exact decrypted_error (by decide)
  split
  · exact decrypted_error (by decide)
  split
  · exact decrypted_error (by decide)
  dsimp only
  split
  · exact decrypted_ok _
  split
  · exact decrypted_error (by decide)
  split
  · next strm0 _ _ _ _ =>
    split
    · exact decrypted_ok _
    · next e _ he =>
      refine decrypted_error fun hc => ?_
      exact (connCallRecvStream0Data_erring _ _).decrypted (he.trans (congrArg Except.error hc))
    · split
      · exact decrypted_ok _
      · exact (connEmitPendingStream0Data_erring _ _ _ _).decrypted.andThen fun _ _ =>
          decrypted_ok _
  split
  · exact decrypted_ok _
  · exact decrypted_ok _

theorem connRecvHandshakeFrame_decrypted (type : PktType) (failed : Bool) (conn : Conn)
    (fr : Frame) :
    Decrypted (connRecvHandshakeFrame type failed conn fr).1 := by
  cases fr with
  | ack fr =>
    simp only [connRecvHandshakeFrame]
    split
    · exact decrypted_error (by decide)
    · exact (connRecvAck_decrypted _ _ _).andThen fun _ _ => decrypted_ok _
  | padding n =>
    simp only [connRecvHandshakeFrame]
    split
    · exact decrypted_error (by decide)
    · exact decrypted_ok _
  | stream fr => exact connRecvHandshakeStream_decrypted _ _ _ _
  | connectionClose code reason =>
    simp only [connRecvHandshakeFrame]
    split
    · exact decrypted_ok _
    · exact decrypted_error (by decide)
  | _ => exact decrypted_error (by decide)

theorem ngtcp2ConnSchedAck_decrypted (conn : Conn) (pktNum : Nat) (activeAck : Bool) (ts : Nat)
    (unprotected : Bool) :
    Decrypted (ngtcp2ConnSchedAck conn pktNum activeAck ts unprotected).1 := by
  unfold ngtcp2ConnSchedAck
  split
  · exact decrypted_error (by decide)
  dsimp only
  split
  · exact decrypted_ok _
  · exact decrypted_ok _

theorem connRecvHandshakePktEnd_decrypted (conn : Conn) (type : PktType) (failed : Bool)
    (pktNum : Nat)
    (requireAck : Bool) (ts : Nat) :
    Decrypted (connRecvHandshakePktEnd conn type failed pktNum requireAck ts).1 := by
  unfold connRecvHandshakePktEnd
  extract_lets empty conn
  split
  · exact decrypted_error (by decide)
  split
  · split
    · exact decrypted_error (by decide)
    · exact (connCall_decrypted _ _).andThen fun _ _ => decrypted_ok _
  · refine (ngtcp2ConnSchedAck_decrypted _ _ _ _ _).andThen fun _ _ => ?_
    split
    · exact decrypted_error (by decide)
    · exact decrypted_ok _

/-- The calls of TLS fail only with the end of the process. -/
theorem runTls_decrypted (ops : List Op) (conn : Conn) : Decrypted (runTls ops conn).1 := by
  induction ops generalizing conn with
  | nil => exact decrypted_ok _
  | cons op ops ih =>
    unfold runTls
    split
    · exact ih _
    · split
      · next hfatal =>
        refine decrypted_error ?_
        rintro rfl
        cases hfatal
      · exact ih _

theorem recvFrames_decrypted {σ : Type} (rx : RxCallbacks) (hd : PktHd)
    (handle : σ → Conn → Frame → Result σ)
    (hframe : ∀ s conn fr, Decrypted (handle s conn fr).1) (fuel : Nat) (payload : List UInt8)
    (s : σ) (conn : Conn) :
    Decrypted (recvFrames rx hd handle fuel payload s conn).1 := by
  induction fuel generalizing payload s conn with
  | zero => exact decrypted_error (by decide)
  | succ fuel ih =>
    unfold recvFrames
    split
    · next e he =>
      rcases pktDecodeFrame_complains payload e he with rfl | rfl
      · exact decrypted_error (by decide)
      · exact decrypted_error (by decide)
    · exact decrypted_ok _
    split
    · exact decrypted_error (by decide)
    · refine (hframe _ _ _).andThen fun _ _ => ?_
      exact (runTls_decrypted _ _).andThen fun _ _ => ih _ _ _

end

theorem handleDelayedFrame_decrypted (type : PktType) (requireAck : Bool) (conn : Conn)
    (fr : Frame) :
    Decrypted (handleDelayedFrame type requireAck conn fr).1 :=
  (connRecvDelayedHandshakeFrame_decrypted _ _ _).andThen fun _ _ => decrypted_ok _

theorem handleFrame_decrypted (longForm requireAck : Bool) (conn : Conn) (fr : Frame) :
    Decrypted (handleFrame longForm requireAck conn fr).1 :=
  (connRecvPktFrame_decrypted _ _ _).andThen fun _ _ => decrypted_ok _

theorem handleHandshakeFrame_decrypted (type : PktType) (s : Bool × Bool) (conn : Conn)
    (fr : Frame) :
    Decrypted (handleHandshakeFrame type s conn fr).1 :=
  (connRecvHandshakeFrame_decrypted _ _ _ _).andThen fun _ _ => decrypted_ok _

theorem connRecvPktPayload_decrypted (rx : RxCallbacks) (conn : Conn) (hd : PktHd)
    (payload : List UInt8) (ts : Nat) :
    Decrypted (connRecvPktPayload rx conn hd payload ts).1 := by
  unfold connRecvPktPayload
  extract_lets conn'
  split
  · exact decrypted_ok _
  · refine (recvFrames_decrypted _ _ _ (handleFrame_decrypted _) _ _ _ _).andThen fun _ _ => ?_
    exact ngtcp2ConnSchedAck_decrypted _ _ _ _ _

theorem connRecvHandshakePayload_decrypted (rx : RxCallbacks) (conn : Conn) (hd : PktHd)
    (payload : List UInt8)
    (ts : Nat) : Decrypted (connRecvHandshakePayload rx conn hd payload ts).1 :=
  (recvFrames_decrypted _ _ _ (handleHandshakeFrame_decrypted _) _ _ _ _).andThen fun _ _ =>
    connRecvHandshakePktEnd_decrypted _ _ _ _ _ _

/-! ## A packet that cannot be decrypted -/

section
variable {rx : RxCallbacks} {conn conn' : Conn} {c c' : RxConn} {pkt : List UInt8} {ts : Nat}

/-- The error was returned with the connection as it was. -/
theorem unchanged_of_error {x : Except Err Unit} (h : (x, conn) = (.error .tlsDecrypt, conn')) :
    conn' = conn :=
  (Prod.mk.inj h).2.symm

theorem Decrypted.elim {x : Result Unit} {p : Prop} (hx : Decrypted x.1)
    (h : x = (.error .tlsDecrypt, conn')) : p :=
  absurd (congrArg Prod.fst h) hx

theorem connRecvDelayedHandshakePkt_tlsDecrypt {hd : PktHd} {payload ad : List UInt8}
    (h : connRecvDelayedHandshakePkt rx conn hd payload ad ts = (.error .tlsDecrypt, conn')) :
    conn' = conn := by
  unfold connRecvDelayedHandshakePkt at h
  split at h
  · exact unchanged_of_error h
  split at h
  · exact unchanged_of_error h
  split at h
  · exact unchanged_of_error h
  · refine Decrypted.elim ?_ h
    refine (recvFrames_decrypted _ _ _ (handleDelayedFrame_decrypted _) _ _ _ _).andThen fun _ _ =>
      ?_
    exact ngtcp2ConnSchedAck_decrypted _ _ _ _ _

/-- The packet ends with the token of a stateless reset, and the application refuses the reset. -/
def ResetRefused (c : RxConn) (pkt : List UInt8) : Prop :=
  c.conn.callbacks.reply c.conn.log .recvStatelessReset ≠ none ∧ ∃ nread hd,
    pktDecodeHdShort pkt = .ok (nread, hd) ∧
      statelessResetMatches c.statelessResetToken (pkt.drop nread) = true

theorem connRecvShortPkt_tlsDecrypt (hreset : ¬ResetRefused c pkt)
    (h : connRecvShortPkt c pkt ts = (.error .tlsDecrypt, conn')) : conn' = c.conn := by
  unfold connRecvShortPkt at h
  dsimp only at h
  split at h
  · exact unchanged_of_error h
  next nread hd hdec =>
  split at h
  · exact unchanged_of_error h
  split at h
  · exact unchanged_of_error h
  split at h
  · split at h
    · next htoken =>
      -- The application that refuses the reset is excluded.
      have haccepts : c.conn.callbacks.reply c.conn.log .recvStatelessReset = none := by
        by_contra hne
        exact hreset ⟨hne, nread, hd, hdec, htoken⟩
      have hok : (connOnStatelessReset c.conn).1 = .ok () := by
        have haccepts : (c.conn.setState .draining).callbacks.reply (c.conn.setState .draining).log
            .recvStatelessReset = none := haccepts
        unfold connOnStatelessReset connCall
        rw [haccepts]
      split at h
      · cases h
      · next hfails =>
        rw [hfails] at hok
        cases hok
    · exact unchanged_of_error h
  · exact unchanged_of_error h
  · exact (connRecvPktPayload_decrypted _ _ _ _ _).elim h

theorem connRecvLongPkt_tlsDecrypt (h : connRecvLongPkt c pkt ts = (.error .tlsDecrypt, conn')) :
    conn' = c.conn := by
  unfold connRecvLongPkt at h
  dsimp only at h
  split at h
  · exact unchanged_of_error h
  split at h
  · split at h
    · exact unchanged_of_error h
    split at h
    · exact unchanged_of_error h
    · exact unchanged_of_error h
  split at h
  · exact unchanged_of_error h
  split at h
  · exact unchanged_of_error h
  split at h
  · exact connRecvDelayedHandshakePkt_tlsDecrypt h
  split at h
  · split at h
    · exact unchanged_of_error h
    split at h
    · exact unchanged_of_error h
    · exact (connRecvPktPayload_decrypted _ _ _ _ _).elim h
  · exact unchanged_of_error h

theorem connRecvPkt_tlsDecrypt (hreset : ¬ResetRefused c pkt)
    (h : connRecvPkt c pkt ts = (.error .tlsDecrypt, conn')) : conn' = c.conn := by
  unfold connRecvPkt at h
  split at h
  · exact connRecvLongPkt_tlsDecrypt h
  · exact connRecvShortPkt_tlsDecrypt hreset h

/-- A packet of the given type from which the connection takes its peer's connection ID. -/
structure Negotiates (type : PktType) (c : RxConn) (pkt : List UInt8) (connId : Nat) : Prop where
  unnegotiated : c.conn.connIdNegotiated = false
  header : ∃ nread hd, pktDecodeHdLong pkt = .ok (nread, hd) ∧ hd.type = type ∧ hd.connId = connId ∧
    hd.version ≠ 0 ∧ hd.version = c.conn.version

/-- What a server does with its first Initial packet before it decrypts it: TLS gets the connection
ID and sets the keys. -/
def acceptClientInitial (c : RxConn) (connId : Nat) : RxConn :=
  { c with conn := (runTls (c.rx.tlsCalls c.conn.log)
      { c.conn with connIdNegotiated := true, clientConnId := connId }).2 }

theorem serverAcceptsPkt_cases {hd : PktHd} {o : Option (Except Err Unit)}
    (h : serverAcceptsPkt c hd pkt = (o, c')) :
    c' = c ∨ (∃ rv, o = some rv ∧ rv ≠ .error .tlsDecrypt) ∨
      (c.conn.connIdNegotiated = false ∧ hd.type = .initial ∧
      c' = acceptClientInitial c hd.connId) := by
  unfold serverAcceptsPkt at h
  dsimp only at h
  split at h
  · next htype =>
    split at h
    · exact .inl (Prod.mk.inj h).2.symm
    next hneg =>
    split at h
    · exact .inr (.inl ⟨_, (Prod.mk.inj h).1.symm, decrypted_error (by decide)⟩)
    split at h
    · next htls =>
      obtain ⟨-, rfl⟩ := Prod.mk.inj h
      refine .inr (.inr ⟨by simpa using hneg, htype, ?_⟩)
      unfold acceptClientInitial
      rw [htls]
    · next htls =>
      refine .inr (.inl ⟨_, (Prod.mk.inj h).1.symm, fun hc => ?_⟩)
      exact runTls_decrypted _ _ ((congrArg Prod.fst htls).trans hc)
  · split at h
    · exact .inl (Prod.mk.inj h).2.symm
    · exact .inl (Prod.mk.inj h).2.symm
  · split at h
    · exact .inr (.inl ⟨_, (Prod.mk.inj h).1.symm, decrypted_ok _⟩)
    · exact .inl (Prod.mk.inj h).2.symm
  · exact .inl (Prod.mk.inj h).2.symm

theorem clientAcceptsPkt_cases {hd : PktHd} {payload : List UInt8} {o : Option (Except Err Unit)}
    (h : clientAcceptsPkt c hd payload = (o, c')) :
    c' = c ∨ (c.conn.connIdNegotiated = false ∧ hd.type = .handshake) := by
  unfold clientAcceptsPkt at h
  dsimp only at h
  split at h
  · next htype =>
    split at h
    · split at h
      · exact .inl (Prod.mk.inj h).2.symm
      · exact .inl (Prod.mk.inj h).2.symm
    · next hneg => exact .inr ⟨by simpa using hneg, htype⟩
  · split at h
    · exact .inl (Prod.mk.inj h).2.symm
    split at h
    · exact .inl (Prod.mk.inj h).2.symm
    split at h
    · exact .inl (Prod.mk.inj h).2.symm
    · exact .inl (Prod.mk.inj h).2.symm
  · split at h
    · exact .inl (Prod.mk.inj h).2.symm
    split at h
    · exact .inl (Prod.mk.inj h).2.symm
    split at h
    · exact .inl (Prod.mk.inj h).2.symm
    · exact .inl (Prod.mk.inj h).2.symm
  · exact .inl (Prod.mk.inj h).2.symm

theorem connRecvLongHandshakePkt_tlsDecrypt {nread : Nat} {hd : PktHd}
    (hdec : pktDecodeHdLong pkt = .ok (nread, hd))
    (hpin : ¬(c.conn.server = false ∧ ∃ connId, Negotiates .handshake c pkt connId))
    (h : connRecvLongHandshakePkt c pkt nread hd ts = (.error .tlsDecrypt, c')) :
    c' = c ∨ (c.conn.server = true ∧ ∃ connId,
    Negotiates .initial c pkt connId ∧ c' = acceptClientInitial c connId) := by
  unfold connRecvLongHandshakePkt at h
  by_cases hversion : hd.version ≠ 0 ∧ c.conn.version ≠ hd.version
  · rw [if_pos hversion] at h
    cases h
  rw [if_neg hversion] at h
  extract_lets hdpktlen hd₁ payload at h
  split at h
  · cases h
  -- The header that is looked at has its type only from a packet of the connection's version.
  have hheader : ∀ type, hd₁.type = type → type ≠ .versionNegotiation →
    c.conn.connIdNegotiated = false →
      Negotiates type c pkt hd₁.connId := by
    intro type htype hne hneg
    by_cases hzero : hd.version = 0
    · have hhd₁ : hd₁ = { hd with type := .versionNegotiation, pktNum := 0 } := if_pos hzero
      rw [hhd₁] at htype
      exact absurd htype.symm hne
    · have hhd₁ : hd₁ = { hd with pktNum := pktAdjustPktNum c.conn.maxRxPktNum hd.pktNum 32 } :=
        if_neg hzero
      rw [hhd₁] at htype ⊢
      have hsame : c.conn.version = hd.version :=
        Classical.not_not.mp fun hc => hversion ⟨hzero, hc⟩
      exact ⟨hneg, nread, hd, hdec, htype, rfl, hzero, hsame.symm⟩
  generalize haccepts : (if c.conn.server then _ else _ : Option (Except Err Unit) × RxConn) =
    a at h
  obtain ⟨o, c₁⟩ := a
  have hcases : (∃ rv, o = some rv ∧ rv ≠ .error .tlsDecrypt) ∨ (c₁ = c ∨ (c.conn.server = true ∧
      ∃ connId, Negotiates .initial c pkt connId ∧ c₁ = acceptClientInitial c connId)) := by
    split at haccepts
    · next hserver =>
      rcases serverAcceptsPkt_cases haccepts with hsame | hrv | ⟨hneg, htype, haccept⟩
      · exact .inr (.inl hsame)
      · exact .inl hrv
      · exact .inr (.inr ⟨hserver, hd₁.connId, hheader _ htype (by decide) hneg, haccept⟩)
    · next hclient =>
      rcases clientAcceptsPkt_cases haccepts with hsame | ⟨hneg, htype⟩
      · exact .inr (.inl hsame)
      · exact absurd ⟨by simpa using hclient, _, hheader _ htype (by decide) hneg⟩ hpin
  rcases hcases with ⟨rv, rfl, hrv⟩ | hcases
  · exact absurd (Prod.mk.inj h).1 hrv
  cases o with
  | some rv =>
    obtain ⟨-, rfl⟩ := Prod.mk.inj h
    exact hcases
  | none =>
    dsimp only at h
    split at h
    · obtain ⟨-, rfl⟩ := Prod.mk.inj h
      exact hcases
    · exact absurd (Prod.mk.inj h).1 (connRecvHandshakePayload_decrypted _ _ _ _ _)

theorem lift_tlsDecrypt {x : Result Unit} (h : c.lift x = (.error .tlsDecrypt, c'))
    (hsame : ∀ conn', x = (.error .tlsDecrypt, conn') → conn' = c.conn) : c' = c := by
  obtain ⟨hx, rfl⟩ := Prod.mk.inj h
  have hconn : x.2 = c.conn := hsame x.2 (Prod.ext hx rfl)
  rw [hconn]

theorem connRecvOne_tlsDecrypt
    (hpin : ¬(c.conn.server = false ∧ ∃ connId, Negotiates .handshake c pkt connId))
    (hreset : ¬ResetRefused c pkt) (h : connRecvOne c pkt ts = (.error .tlsDecrypt, c')) :
    c' = c ∨ (c.conn.server = true ∧ ∃ connId,
    Negotiates .initial c pkt connId ∧ c' = acceptClientInitial c connId) := by
  have hhandshake : connRecvHandshakePkt c pkt ts = (.error .tlsDecrypt, c') →
    c' = c ∨ (c.conn.server = true ∧
      ∃ connId, Negotiates .initial c pkt connId ∧ c' = acceptClientInitial c connId) := by
    intro h
    unfold connRecvHandshakePkt at h
    split at h
    · split at h
      · cases h
      · cases h
    split at h
    · exact .inl (Prod.mk.inj h).2.symm
    next nread hd hdec =>
    split at h
    · exact .inl (lift_tlsDecrypt h fun _ => connRecvPkt_tlsDecrypt hreset)
    · exact connRecvLongHandshakePkt_tlsDecrypt hdec hpin h
  unfold connRecvOne at h
  split at h
  all_goals first
    | exact hhandshake h
    | exact .inl (lift_tlsDecrypt h fun _ => connRecvPkt_tlsDecrypt hreset)
    | exact .inl (Prod.mk.inj h).2.symm

/-- A packet that cannot be decrypted has no effect, but that a server's first Initial packet gives
TLS the connection ID from which the keys of the packet are derived. -/
theorem ngtcp2ConnRecv_tlsDecrypt
    (hpin : ¬(c.conn.server = false ∧ ∃ connId, Negotiates .handshake c pkt connId))
    (hreset : ¬ResetRefused c pkt)
    (hone : (connRecvOne c pkt ts).1 = .error .tlsDecrypt)
    (h : ngtcp2ConnRecv c pkt ts = (.error .tlsDecrypt, c')) :
    c' = c ∨ (c.conn.server = true ∧ ∃ connId,
    Negotiates .initial c pkt connId ∧ c' = acceptClientInitial c connId) := by
  have hrest : ∀ state, connRecvRest state (connRecvOne c pkt ts) ts = (.error .tlsDecrypt, c') →
      connRecvOne c pkt ts = (.error .tlsDecrypt, c') := by
    intro state h
    have hpair : connRecvOne c pkt ts = (.error .tlsDecrypt, (connRecvOne c pkt ts).2) :=
      Prod.ext hone rfl
    rw [hpair] at h ⊢
    unfold connRecvRest at h
    cases state <;> exact h
  suffices hrecv : connRecvOne c pkt ts =
    (.error .tlsDecrypt, c') from connRecvOne_tlsDecrypt hpin hreset hrecv
  unfold ngtcp2ConnRecv at h
  split at h
  · cases h
  split at h
  all_goals first
    | exact hrest _ h
    | exact h

end

/-- Callbacks that decrypt nothing, and set the server's handshake key. -/
def rejectingCallbacks : RxCallbacks :=
  { recvPkt := fun _ _ => true, recvFrame := fun _ _ _ => true, recvClientInitial := fun _ _ => true
    recvVersionNegotiation := fun _ _ _ => true, hsDecrypt := fun _ _ _ _ _ => .error .tlsDecrypt
    decrypt := fun _ _ _ _ _ => .error .tlsDecrypt, tlsCalls :=
      fun _ => [.setKeys .handshakeRx ⟨[1], [1]⟩]
    isTls := by simp [Op.isTls] }

/-- A new server with these callbacks. -/
def rejectingServer : RxConn :=
  { conn := handshakeServer, rx := rejectingCallbacks, omitConnectionId := false
    statelessResetToken := List.replicate 16 0, buffedRxPpkts := [] }

/-- An Initial packet for connection ID 5 that nobody encrypted. -/
def forgedInitial : List UInt8 := [0xff, 0, 0, 0, 0, 0, 0, 0, 5, 0, 0, 0, 1, 0, 0, 0, 0, 7, 7]

/-- The server after its first forged packet. -/
def negotiatedServer : RxConn := acceptClientInitial rejectingServer 5

/-- The second forged packet has no effect. -/
theorem ngtcp2ConnRecv_tlsDecrypt_again :
    (ngtcp2ConnRecv negotiatedServer forgedInitial 0).2 = negotiatedServer := by
  have hrecv : ngtcp2ConnRecv negotiatedServer forgedInitial 0 =
      (.error .tlsDecrypt, (ngtcp2ConnRecv negotiatedServer forgedInitial 0).2) := rfl
  have hserver : ¬(negotiatedServer.conn.server = false ∧ ∃ connId,
    Negotiates .handshake negotiatedServer forgedInitial connId) :=
    fun hc => nomatch hc.1
  have hcases := ngtcp2ConnRecv_tlsDecrypt hserver (fun hc => hc.1 rfl) rfl hrecv
  rcases hcases with hsame | ⟨-, connId, hneg, -⟩
  · exact hsame
  · exact nomatch hneg.unnegotiated

/-- The first one pins the connection ID of the client. -/
theorem ngtcp2ConnRecv_tlsDecrypt_pins : ¬∀ (c c' : RxConn) (pkt : List UInt8) (ts : Nat),
    (connRecvOne c pkt ts).1 = .error .tlsDecrypt →
    ngtcp2ConnRecv c pkt ts = (.error .tlsDecrypt, c') → c' = c := by
  intro hclaim
  have hsame := hclaim rejectingServer negotiatedServer forgedInitial 0 rfl rfl
  have hneg : negotiatedServer.conn.connIdNegotiated = rejectingServer.conn.connIdNegotiated :=
    congrArg (fun c => c.conn.connIdNegotiated) hsame
  exact absurd hneg (by decide)

end Ngtcp2
