import Polygon.StepChanges
import Polygon.StreamDelivery

/-!
# The draining period

A close frame of the peer or a stateless reset puts the connection into `DRAINING`. It
stays there and sends no packet, but for three paths that do not look at the state.
-/
namespace Ngtcp2

/-! ## Packets and steps -/

/-- The packet that the call returns. -/
def Op.pkt (conn : Conn) : Op → Option Pkt
  | writeStream destlen streamId fin data ts =>
    match (ngtcp2ConnWriteStream conn destlen streamId fin data ts).1 with
    | .ok (pkt, _) => some pkt
    | .error _ => none
  | writePkt destlen ts => (ngtcp2ConnWritePkt conn destlen ts).1.toOption.join
  | writeAckPkt destlen ts => (ngtcp2ConnWriteAckPkt conn destlen ts).1.toOption.join
  | writeConnectionClose destlen errorCode =>
    (ngtcp2ConnWriteConnectionClose conn destlen errorCode).1.toOption
  | writeApplicationClose destlen appErrorCode =>
    (ngtcp2ConnWriteApplicationClose conn destlen appErrorCode).1.toOption
  | _ => none

/-- Nothing in the retransmission buffer waits to be sent again. -/
def nothingExpired (conn : Conn) (ts : Nat) : Bool :=
  match rtbTop conn.rtb with
  | none => true
  | some ent => ts < ent.expiry

/-- `ngtcp2_conn_write_stream` has no key, or no stream that is open for writing. -/
def cannotWriteStream (conn : Conn) (streamId : Nat) : Bool :=
  (conn.txCkm.isNone && conn.earlyCkm.isNone) ||
    match conn.strms streamId with
    | none => true
    | some strm => strm.shutWr

/-- The packet, processed with `rv` by `ngtcp2_conn_recv` called in `state`, ends the handshake. -/
def endsHandshake (conn : Conn) (state : ConnState) (rv : Except Err Unit) : Bool :=
  (state == .clientWaitHandshake || state == .serverInitial || state == .serverWaitHandshake) &&
    match rv with
    | .ok _ => conn.handshakeCompleted
    | .error e => e == .tlsHandshake

/-- The step is none of those that go on while draining: nothing is to be retransmitted, no stream is written, and the
received packet does not end the handshake as well, nor is it a Retry packet. -/
def Op.quiet (conn : Conn) : Op → Bool
  | writePkt _ ts | writeAckPkt _ ts => nothingExpired conn ts
  | writeStream _ streamId .. => cannotWriteStream conn streamId
  | recvHandshakeDone state rv => !endsHandshake conn state rv
  | recvHandshakePktEnd type .. => type != .retry
  | _ => true

section
variable {conn conn' : Conn} {destlen ts streamId : Nat} {fin : Bool} {data : List UInt8}

theorem join_toOption_eq_none {r : Except Err (Option Pkt)} (h : ∀ pkt, r ≠ .ok (some pkt)) :
    r.toOption.join = none := by
  cases r with
  | error => rfl
  | ok o =>
    cases o with
    | none => rfl
    | some pkt => exact absurd rfl (h pkt)

theorem connRetransmit_nothing (h : nothingExpired conn ts = true) (destlen : Nat) :
    connRetransmit conn destlen ts = (.ok none, conn) := by
  unfold connRetransmit connRetransmitLoop
  unfold nothingExpired at h
  split
  · rfl
  · next ent htop =>
    rw [htop] at h
    exact if_pos (of_decide_eq_true h)

theorem ngtcp2ConnWritePkt_draining (destlen : Nat) (hstate : conn.state = .draining)
    (h : nothingExpired conn ts = true) :
    ∃ r, ngtcp2ConnWritePkt conn destlen ts = (r, conn) ∧ ∀ pkt, r ≠ .ok (some pkt) := by
  unfold ngtcp2ConnWritePkt
  split
  · exact ⟨_, rfl, nofun⟩
  · rw [connRetransmit_nothing h, andThen_ok, hstate]
    exact ⟨_, rfl, nofun⟩

theorem ngtcp2ConnWriteAckPkt_draining (destlen : Nat) (hstate : conn.state = .draining)
    (h : nothingExpired conn ts = true) :
    ∃ r, ngtcp2ConnWriteAckPkt conn destlen ts = (r, conn) ∧ ∀ pkt, r ≠ .ok (some pkt) := by
  unfold ngtcp2ConnWriteAckPkt
  split
  · exact ⟨_, rfl, nofun⟩
  · rw [connRetransmit_nothing h, andThen_ok, hstate]
    exact ⟨_, rfl, nofun⟩

theorem writeStreamHd_keyless (htx : conn.txCkm = none) (hearly : conn.earlyCkm = none) :
    writeStreamHd conn = .error .noKey := by
  unfold writeStreamHd
  rw [htx, hearly]

theorem ngtcp2ConnWriteStream_refused (destlen : Nat) (fin : Bool) (data : List UInt8) (ts : Nat)
    (h : cannotWriteStream conn streamId = true) :
    ∃ e, ngtcp2ConnWriteStream conn destlen streamId fin data ts = (.error e, conn) := by
  unfold ngtcp2ConnWriteStream
  split
  · exact ⟨_, rfl⟩
  split
  · exact ⟨_, rfl⟩
  next strm hfind =>
  split
  · exact ⟨_, rfl⟩
  next hunshut =>
  unfold cannotWriteStream at h
  rw [hfind, Bool.or_eq_true] at h
  rcases h with hkeys | hshut
  · obtain ⟨htx, hearly⟩ := Bool.and_eq_true_iff.mp hkeys
    rw [writeStreamHd_keyless (Option.isNone_iff_eq_none.mp htx) (Option.isNone_iff_eq_none.mp hearly)]
    exact ⟨_, rfl⟩
  · exact absurd hshut hunshut

theorem connRecvHandshakeDone_same {state : ConnState} {rv : Except Err Unit}
    (h : endsHandshake conn state rv = false) :
    ∃ r, connRecvHandshakeDone state conn rv = (r, conn) := by
  have hgoes : ∀ {state}, state ∈ [ConnState.clientWaitHandshake, .serverInitial,
    .serverWaitHandshake] →
      endsHandshake conn state rv = false →
        rv ≠ .error .tlsHandshake ∧ (rv = .ok () → conn.handshakeCompleted = false) := by
    intro state hmem hends
    have hwait : (state == .clientWaitHandshake || state == .serverInitial || state == .serverWaitHandshake) = true := by
      simpa [or_assoc] using hmem
    unfold endsHandshake at hends
    rw [hwait, Bool.true_and] at hends
    cases rv with
    | ok => exact ⟨fun hc => (by cases hc), fun _ => hends⟩
    | error e =>
      refine ⟨?_, fun hc => (by cases hc)⟩
      rintro ⟨⟩
      cases hends
  unfold connRecvHandshakeDone
  split
  · obtain ⟨htls, hdone⟩ := hgoes (by decide) h
    split
    · exact absurd rfl htls
    · exact ⟨_, rfl⟩
    · rw [hdone rfl]
      exact ⟨_, rfl⟩
  · obtain ⟨htls, hdone⟩ := hgoes (by decide) h
    split
    · exact absurd rfl htls
    · exact ⟨_, rfl⟩
    · rw [hdone rfl]
      split <;> exact ⟨_, rfl⟩
  · obtain ⟨htls, hdone⟩ := hgoes (by decide) h
    split
    · exact absurd rfl htls
    · exact ⟨_, rfl⟩
    · rw [hdone rfl]
      split <;> exact ⟨_, rfl⟩
  · exact ⟨_, rfl⟩

theorem closeCalls_draining (hstate : conn.state = .draining) (destlen code : Nat) :
    (∃ e, ngtcp2ConnWriteConnectionClose conn destlen code = (.error e, conn)) ∧
      ∃ e, ngtcp2ConnWriteApplicationClose conn destlen code = (.error e, conn) := by
  have hother : conn.state ≠ .postHandshake := by
    rw [hstate]
    decide
  unfold ngtcp2ConnWriteConnectionClose ngtcp2ConnWriteApplicationClose
  rw [if_neg hother]
  constructor
  · split <;> exact ⟨_, rfl⟩
  · split
    · exact ⟨_, rfl⟩
    split <;> exact ⟨_, rfl⟩

/-! ## One step -/

/-- Only the changes of the state change it. -/
theorem Change.keepsState {H : List Frame} {k : Kind} (h : Change H k conn conn')
    (hk : k ≠ .state) :
    conn'.state = conn.state := by
  cases h with
  | idle same => exact same.state
  | state => exact absurd rfl hk
  | openRemote => exact Conn.setIds_state _ _ _
  | openLocal => exact Conn.setIds_state _ _ _
  | consume => exact Conn.setIds_state _ _ _
  | close => exact Conn.setIds_state _ _ _
  | raiseIds => exact Conn.setIds_state _ _ _
  | tx =>
    unfold trackStreamPkt
    split <;> rfl
  | _ => rfl

theorem Changes.sameState {H : List Frame} {K : List Kind} (h : Changes H K conn conn')
    (hK : Kind.state ∉ K) :
    conn'.state = conn.state :=
  h.keeps (·.state = conn.state)
    (fun _ hk _ _ hP hc => (hc.keepsState fun he => hK (he ▸ hk)).trans hP) rfl

theorem recvFrame_draining {longForm : Bool} {fr : Frame} {r : Except Err Unit}
    (h : connRecvPktFrame longForm conn fr = (r, conn'))
    (hkinds : Kind.state ∉ fr.recvKinds → conn'.state = .draining) : conn'.state = .draining := by
  cases fr with
  | connectionClose | applicationClose =>
    obtain ⟨-, rfl⟩ := Prod.mk.inj h
    rfl
  | _ => exact hkinds (by simp [Frame.recvKinds, ackKinds, streamKinds])

theorem recvHandshakeFrame_draining {type : PktType} {failed : Bool} {fr : Frame}
    {r : Except Err Bool}
    (h : connRecvHandshakeFrame type failed conn fr = (r, conn')) (hstate : conn.state = .draining)
    (hkinds : Kind.state ∉ fr.recvHandshakeKinds → conn'.state = .draining) :
    conn'.state = .draining := by
  cases fr with
  | connectionClose =>
    simp only [connRecvHandshakeFrame] at h
    split at h
    · obtain ⟨-, rfl⟩ := Prod.mk.inj h
      rfl
    · obtain ⟨-, rfl⟩ := Prod.mk.inj h
      exact hstate
  | _ => exact hkinds (by simp [Frame.recvHandshakeKinds, ackKinds])

theorem handshakePktEnd_draining {type : PktType} {failed requireAck : Bool} {pktNum : Nat}
    {r : Except Err Unit}
    (h : connRecvHandshakePktEnd conn type failed pktNum requireAck ts = (r, conn'))
    (hstate : conn.state = .draining)
    (hretry : type ≠ .retry) : conn'.state = .draining := by
  unfold connRecvHandshakePktEnd at h
  rw [if_neg hretry] at h
  generalize hconn : ({ conn with maxRxPktNum := max conn.maxRxPktNum pktNum } : Conn) = conn₀ at h
  have hstate₀ : conn₀.state = .draining := by rw [← hconn, hstate]
  have hsched : ∀ {x : Except Err Unit} {conn₁ : Conn},
    ngtcp2ConnSchedAck conn₀ pktNum requireAck ts true = (x, conn₁) →
      conn₁.state = .draining := by
    intro x conn₁ hx
    have hch : Changes [] [.timer] conn₀ conn₁ := ngtcp2ConnSchedAck_changes hx
    exact (hch.sameState (by decide)).trans hstate₀
  have hend : ∀ {x : Except Err Unit},
    ((ngtcp2ConnSchedAck conn₀ pktNum requireAck ts true).andThen fun _ conn =>
      if failed then (.error .tlsHandshake, conn) else (.ok (), conn)) = (x,
        conn') → conn'.state = .draining := by
    intro x hx
    rcases andThen_cases hx with ⟨e, he, -⟩ | ⟨a, conn₁, ha, hx⟩
    · exact hsched he
    · split at hx <;>
      · obtain ⟨-, rfl⟩ := Prod.mk.inj hx
        exact hsched ha
  dsimp only at h
  split at h <;> split at h
  · obtain ⟨-, rfl⟩ := Prod.mk.inj h
    exact hstate
  · exact hend h
  · obtain ⟨-, rfl⟩ := Prod.mk.inj h
    exact hstate
  · exact hend h

theorem statelessReset_draining {r : Except Err Unit} (h : connOnStatelessReset conn = (r, conn')) :
    conn'.state = .draining := by
  rcases connCall_cases (conn.setState .draining) .recvStatelessReset with hc | hc <;>
  · obtain ⟨-, rfl⟩ := Prod.mk.inj (hc.symm.trans h)
    rfl

theorem Step.draining {ops : List Op} {op : Op} (hwf : WellFormed conn)
    (hstep : Step ops conn op conn')
    (hstate : conn.state = .draining) (hquiet : op.quiet conn = true) :
    conn'.state = .draining := by
  have hch := Step.changes hwf hstep
  obtain ⟨rv, hrun, hs⟩ := hstep
  have hkinds : Kind.state ∉ op.kinds → conn'.state = .draining := by
    intro hno
    exact (hch.sameState fun hc => hno ((List.mem_cons.mp hc).resolve_left nofun)).trans hstate
  -- A call that returns with the connection as it was.
  have hsame : ∀ {α : Type} {x : Result α}, x.void = (rv, conn') → x.2 = conn →
    conn'.state = .draining := by
    intro α x hvoid hx
    obtain ⟨y, hy, -⟩ := void_cases hvoid
    rw [hy] at hx
    rw [show conn' = conn from hx, hstate]
  cases op with
  | recvFrame longForm fr => exact recvFrame_draining hrun hkinds
  | recvHandshakeFrame type failed fr =>
    obtain ⟨y, hy, -⟩ := void_cases hrun
    exact recvHandshakeFrame_draining hy hstate hkinds
  | recvDelayedHandshakeFrame type fr =>
    exact hkinds (by cases fr <;> simp [Op.kinds, Frame.recvDelayedKinds, ackKinds, streamKinds])
  | recvHandshakePktEnd type failed pktNum requireAck ts =>
    exact handshakePktEnd_draining hrun hstate (by simpa [Op.quiet] using hquiet)
  | recvHandshakeDone state rv' =>
    obtain ⟨x, hx⟩ := connRecvHandshakeDone_same
      (by simpa [Op.quiet] using hquiet : endsHandshake conn state rv' = false)
    obtain ⟨-, rfl⟩ := Prod.mk.inj (hx.symm.trans hrun)
    exact hstate
  | statelessReset =>
    obtain ⟨r, hreset⟩ := Op.statelessReset_run hrun
    exact statelessReset_draining hreset
  | writePkt destlen ts =>
    obtain ⟨x, hx, -⟩ := ngtcp2ConnWritePkt_draining destlen hstate hquiet
    exact hsame hrun (by rw [hx])
  | writeAckPkt destlen ts =>
    obtain ⟨x, hx, -⟩ := ngtcp2ConnWriteAckPkt_draining destlen hstate hquiet
    exact hsame hrun (by rw [hx])
  | writeConnectionClose destlen errorCode =>
    obtain ⟨x, hx⟩ := (closeCalls_draining hstate destlen errorCode).1
    exact hsame hrun (by rw [hx])
  | writeApplicationClose destlen errorCode =>
    obtain ⟨x, hx⟩ := (closeCalls_draining hstate destlen errorCode).2
    exact hsame hrun (by rw [hx])
  | _ => exact hkinds (by simp [Op.kinds, shutdownKinds, streamTxKinds])

/-- A quiet step of a draining connection sends no packet. -/
theorem Op.pkt_draining {op : Op} (hstate : conn.state = .draining)
    (hquiet : op.quiet conn = true) :
    op.pkt conn = none := by
  cases op with
  | writeStream destlen streamId fin data ts =>
    obtain ⟨e, he⟩ := ngtcp2ConnWriteStream_refused destlen fin data ts hquiet
    rw [Op.pkt, he]
  | writePkt destlen ts =>
    obtain ⟨r, hr, hno⟩ := ngtcp2ConnWritePkt_draining destlen hstate hquiet
    rw [Op.pkt, hr]
    exact join_toOption_eq_none hno
  | writeAckPkt destlen ts =>
    obtain ⟨r, hr, hno⟩ := ngtcp2ConnWriteAckPkt_draining destlen hstate hquiet
    rw [Op.pkt, hr]
    exact join_toOption_eq_none hno
  | writeConnectionClose destlen errorCode =>
    obtain ⟨e, he⟩ := (closeCalls_draining hstate destlen errorCode).1
    rw [Op.pkt, he]
    rfl
  | writeApplicationClose destlen errorCode =>
    obtain ⟨e, he⟩ := (closeCalls_draining hstate destlen errorCode).2
    rw [Op.pkt, he]
    rfl
  | _ => rfl

/-! ## Runs -/

/-- The quiet steps of a draining connection. -/
def QuietStep : List Op → Conn → Op → Conn → Prop :=
    Runs.Guarded Step fun _ conn op => op.quiet conn = true

/-- A connection that drains goes on draining and sends no packet, in every run of quiet steps. -/
theorem draining_absorbing {ops : List Op} (hreach : Reachable conn)
    (hstate : conn.state = .draining)
    (hrun : Runs.Run QuietStep conn ops conn') :
    conn'.state = .draining ∧ ∀ op : Op, op.quiet conn' = true → op.pkt conn' = none := by
  have hinv : WellFormed conn' ∧ conn'.state = .draining := by
    refine hrun.invariant (fun _ conn => WellFormed conn ∧ conn.state = .draining)
      ⟨hreach.wellFormed, hstate⟩ ?_
    rintro ls conn₁ op conn₂ ⟨hwf, hdrain⟩ ⟨hstep, hquiet⟩
    exact ⟨Step.wellFormed hwf hstep, Step.draining hwf hstep hdrain hquiet⟩
  exact ⟨hinv.2, fun op hquiet => Op.pkt_draining hinv.2 hquiet⟩

end

/-- The server after its handshake, and the first data of a stream of its peer. -/
def closedServer : Conn := runOps establishedServer [.recvFrame false (.stream ⟨4, 0, [8], false⟩),
  .writeStream 1200 4 false [9] 2, .recvFrame false (.connectionClose 0 [])]

theorem closedServer_reachable : Reachable closedServer :=
    establishedServer_reachable.runOps _ (by decide)

/-- A server whose handshake is completed by a packet that also has a CONNECTION_CLOSE frame. -/
def closedHandshake : Conn :=
    runOps handshakeServer [.setKeys .handshakeTx ⟨[1], [1]⟩, .writePkt 1200 1,
  .setRemoteTransportParams .clientHello ⟨100, 1000, 40, 40, 3, 1, [1]⟩, .handshakeCompleted,
  .recvHandshakeFrame .handshake false (.connectionClose 0 [])]

theorem closedHandshake_reachable : Reachable closedHandshake :=
    (Initial.server ..).reachable.runOps _ (by decide)

/-- Before the timer of its packets it stays silent. -/
theorem draining_absorbing_early : (runOps closedServer [.writePkt 1200 5]).state = .draining ∧
    ∀ op : Op, op.quiet (runOps closedServer [.writePkt 1200 5]) = true →
    op.pkt (runOps closedServer [.writePkt 1200 5]) = none :=
  draining_absorbing closedServer_reachable (by decide)
    (run_allowed closedServer [.writePkt 1200 5] (by decide))

/-- A stream can be written, an unacknowledged packet is sent again, and the end of the handshake takes the
connection out of `DRAINING`. -/
theorem draining_left :
    (Reachable closedServer ∧ closedServer.state = .draining ∧
      ((Op.writeStream 1200 4 false [10] 3).pkt closedServer).isSome ∧
      ((Op.writePkt 1200 2000000).pkt closedServer).isSome) ∧
    Reachable closedHandshake ∧ closedHandshake.state = .draining ∧
      ((Op.recvHandshakeDone .serverWaitHandshake (.ok ())).run closedHandshake).2.state =
      .postHandshake := by
  refine ⟨⟨closedServer_reachable, by decide, by decide, by decide⟩, closedHandshake_reachable,
    by decide, by decide⟩

end Ngtcp2
