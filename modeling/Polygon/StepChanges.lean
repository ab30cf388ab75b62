import Polygon.WriteChanges

/-!
# What every step changes

The calls of the application, and for each step of a connection the kinds of changes
it makes. So every state that is reached is well formed.
-/
namespace Ngtcp2

section
variable {H : List Frame} {K : List Kind} {conn conn₁ conn' : Conn} {strm : Strm}

/-! ## The application's calls -/

/-- A call whose value is thrown away fails as it failed. -/
theorem void_cases {α : Type} {x : Result α} {r : Except Err Unit} (h : x.void = (r, conn')) :
    ∃ y, x = (y, conn') ∧ ∀ e, r = .error e ↔ y = .error e := by
  rcases andThen_cases h with ⟨e, hx, rfl⟩ | ⟨a, conn₁, hx, h⟩
  · exact ⟨_, hx, fun e' => by simp⟩
  · obtain ⟨rfl, rfl⟩ := Prod.mk.inj h
    exact ⟨_, hx, fun e' => by simp⟩

theorem ngtcp2ConnInitStream_cases {streamId : Nat} {r : Except Err Strm}
    (h : ngtcp2ConnInitStream conn streamId = (r, conn')) : Fatal r ∨ (conn.strms streamId = none ∧
      r = .ok (strmInit streamId conn.localSettings.maxStreamData.toNat conn.remoteSettings.maxStreamData.toNat
        conn.mem) ∧ conn' = (conn.setStrm (strmInit streamId conn.localSettings.maxStreamData.toNat
          conn.remoteSettings.maxStreamData.toNat conn.mem)).tell (.strmInit streamId)) := by
  unfold ngtcp2ConnInitStream at h
  split at h
  · obtain ⟨rfl, -⟩ := Prod.mk.inj h
    exact .inl fatal_abort
  · next hnone =>
    obtain ⟨rfl, rfl⟩ := Prod.mk.inj h
    exact .inr ⟨hnone, rfl, rfl⟩

theorem ngtcp2ConnOpenBidiStream_changes {r : Except Err Nat}
    (h : ngtcp2ConnOpenBidiStream conn = (r, conn'))
    (hr : ¬Fatal r) : Changes H [.openLocal] conn conn' := by
  unfold ngtcp2ConnOpenBidiStream at h
  dsimp only at h
  split at h
  · obtain ⟨-, rfl⟩ := Prod.mk.inj h
    exact .refl _
  next hcredit =>
  rcases andThen_cases h with ⟨e, h₁, rfl⟩ | ⟨strm, conn₁, h₁, h⟩
  · rcases ngtcp2ConnInitStream_cases h₁ with hfatal | ⟨-, he, -⟩
    · exact absurd hfatal.cast hr
    · simp at he
  rcases ngtcp2ConnInitStream_cases h₁ with hfatal | ⟨hnone, he, rfl⟩
  · exact absurd hfatal (not_fatal_ok _)
  obtain ⟨-, rfl⟩ := Prod.mk.inj h
  exact .one (.openLocal true (Nat.le_of_not_lt hcredit) hnone (.inl rfl)) (by simp)

theorem ngtcp2ConnOpenUniStream_changes {r : Except Err Nat}
    (h : ngtcp2ConnOpenUniStream conn = (r, conn'))
    (hr : ¬Fatal r) : Changes H [.openLocal] conn conn' := by
  unfold ngtcp2ConnOpenUniStream at h
  dsimp only at h
  split at h
  · obtain ⟨-, rfl⟩ := Prod.mk.inj h
    exact .refl _
  next hcredit =>
  rcases andThen_cases h with ⟨e, h₁, rfl⟩ | ⟨strm, conn₁, h₁, h⟩
  · rcases ngtcp2ConnInitStream_cases h₁ with hfatal | ⟨-, he, -⟩
    · exact absurd hfatal.cast hr
    · simp at he
  rcases ngtcp2ConnInitStream_cases h₁ with hfatal | ⟨hnone, he, rfl⟩
  · exact absurd hfatal (not_fatal_ok _)
  obtain rfl := Except.ok.inj he
  obtain ⟨-, rfl⟩ := Prod.mk.inj h
  have hopen := Change.openLocal (H := H) false (Nat.le_of_not_lt hcredit) hnone (.inr rfl)
  have hsame : ∀ strm : Strm,
    ((conn.setStrm strm).tell (.strmInit strm.streamId)).setStrm strm.shutdownRd =
      (conn.setStrm strm.shutdownRd).tell (.strmInit strm.shutdownRd.streamId) := fun strm =>
    congrArg (Conn.tell · (.strmInit strm.streamId)) (Conn.setStrm_setStrm conn (by rfl))
  unfold openLocal at hopen
  rw [← hsame] at hopen
  exact .one hopen (by simp)

/-- The kinds of changes of the shutdown functions. -/
def shutdownKinds : List Kind := [.window, .push, .rst, .idle]

theorem connShutdownStreamWrite_changes (find : conn.strms strm.streamId = some strm)
    (appErrorCode : Nat) :
    Changes H shutdownKinds conn (connShutdownStreamWrite conn strm appErrorCode).2 := by
  unfold connShutdownStreamWrite
  split
  · exact .refl _
  · exact .one (.rst find appErrorCode appErrorCode) (by simp [shutdownKinds])

theorem connShutdownStreamRead_changes (find : conn.strms strm.streamId = some strm)
    (hid : strm.streamId ≠ 0)
    (appErrorCode : Nat) :
    Changes H shutdownKinds conn (connShutdownStreamRead conn strm appErrorCode).2 ∧
      (connShutdownStreamRead conn strm appErrorCode).2.strms
        (connShutdownStreamRead conn strm appErrorCode).1.streamId =
          some (connShutdownStreamRead conn strm appErrorCode).1 := by
  unfold connShutdownStreamRead
  split
  · exact ⟨.refl _, find⟩
  dsimp only
  have hfirst : Changes H shutdownKinds conn
    (conn.setStrm (strm.markStopSending.setAppErrorCode appErrorCode)) := by
    have hmark : Change H .window conn _ := .window find (by constructor <;> rfl : SameTx strm
      (strm.markStopSending.setAppErrorCode appErrorCode)) (by constructor <;> first | rfl | exact fun _ => rfl | exact fun h => absurd h hid)
      rfl (.same rfl)
    exact .one hmark (by simp [shutdownKinds])
  have hfind := setStrm_find conn (strm.markStopSending.setAppErrorCode appErrorCode)
  generalize strm.markStopSending.setAppErrorCode appErrorCode = strm₁ at hfirst hfind ⊢
  generalize conn.setStrm strm₁ = conn₁ at hfirst hfind ⊢
  have hpush : Changes H shutdownKinds conn₁
      (conn₁.setFrq (.stopSending ⟨strm₁.streamId, appErrorCode⟩ :: conn₁.frq)) :=
    .one (.push (by simp)) (by simp [shutdownKinds])
  unfold connStopSending fcUnlink
  split
  · next hon =>
    refine ⟨hfirst.trans (hpush.trans ?_), setStrm_find _ _⟩
    have hfind' : (conn₁.setFrq (.stopSending ⟨strm₁.streamId, appErrorCode⟩ :: conn₁.frq)).strms strm₁.streamId = some strm₁ :=
      hfind
    have hunlink : Change H .window _ _ :=
      .window hfind' (by constructor <;> rfl : SameTx strm₁ (strm₁.setOnFc false))
      (by constructor <;> first | rfl | exact id | exact fun _ => rfl) rfl (.unlink hon rfl)
    exact .one hunlink (by simp [shutdownKinds])
  · exact ⟨hfirst.trans hpush, hfind⟩

theorem withShutdownStrm_changes {streamId appErrorCode : Nat} {f : Strm → Conn}
    {r : Except Err Unit}
    (hkeyed : StrmsKeyed conn) (h : withShutdownStrm conn streamId appErrorCode f = (r, conn'))
    (hf : ∀ strm, conn.strms strm.streamId = some strm → strm.streamId ≠ 0 →
    Changes H K conn (f strm)) :
    Changes H K conn conn' := by
  unfold withShutdownStrm at h
  split at h
  · exact .of_same h
  next harg =>
  split at h
  · exact .of_same h
  · next strm hfind =>
    obtain ⟨-, rfl⟩ := Prod.mk.inj h
    have hid : strm.streamId = streamId := hkeyed _ _ hfind
    exact hf strm (hid ▸ hfind) fun hzero => harg (.inl (hid ▸ hzero))

theorem ngtcp2ConnShutdownStream_changes {streamId appErrorCode : Nat} {r : Except Err Unit}
    (hkeyed : StrmsKeyed conn)
    (h : ngtcp2ConnShutdownStream conn streamId appErrorCode = (r, conn')) :
    Changes H shutdownKinds conn conn' :=
  withShutdownStrm_changes hkeyed h fun _ find hid =>
    have hread := connShutdownStreamRead_changes find hid appErrorCode
    hread.1.trans (connShutdownStreamWrite_changes hread.2 appErrorCode)

theorem ngtcp2ConnExtendMaxStreamOffset_changes {streamId datalen : Nat} {r : Except Err Unit}
    (hkeyed : StrmsKeyed conn)
    (h : ngtcp2ConnExtendMaxStreamOffset conn streamId datalen = (r, conn')) :
    Changes H [.extend, .idle] conn conn' := by
  unfold ngtcp2ConnExtendMaxStreamOffset at h
  split at h
  · exact .of_same h
  next strm hfind =>
  have hfind : conn.strms strm.streamId = some strm := by rw [hkeyed _ _ hfind, hfind]
  obtain ⟨strm', fcStrms, heq, htx, hrx, hfc⟩ := connExtendMaxStreamOffset_cases conn strm datalen
  obtain ⟨-, rfl⟩ := Prod.mk.inj h
  rw [heq]
  exact .one (.extend hfind htx hrx hfc) (by simp)

theorem ngtcp2ConnExtendMaxOffset_changes (conn : Conn) (datalen : Nat) :
    Changes H [.extend, .idle] conn (ngtcp2ConnExtendMaxOffset conn datalen) := by
  unfold ngtcp2ConnExtendMaxOffset
  split
  · exact .one (.extendConn conn maxVarint) (by simp)
  · exact .one (.extendConn conn (conn.unsentMaxRxOffset + datalen)) (by simp)

theorem ngtcp2ConnSetRemoteTransportParams_changes {exttype : TransportParamsType}
    {params : TransportParams}
    {r : Except Err Unit} (hkeyed : StrmsKeyed conn)
    (h : ngtcp2ConnSetRemoteTransportParams conn exttype params = (r, conn')) :
    Changes H [.limits, .idle] conn conn' := by
  unfold ngtcp2ConnSetRemoteTransportParams at h
  split at h
  · exact .of_same h
  dsimp only at h
  have hset : Changes H [.limits, .idle] conn (applyRemoteSettings conn params) :=
    .one (.limits conn params) (by simp)
  split at h
  · obtain ⟨-, rfl⟩ := Prod.mk.inj h
    exact hset
  · next strm0 hfind =>
    obtain ⟨-, rfl⟩ := Prod.mk.inj h
    have hid : strm0.streamId = 0 := hkeyed 0 strm0 hfind
    have hset0 := Change.limits0 (H := H) hfind hid
      (applyRemoteSettings conn params).remoteSettings.maxStreamData.toNat
    refine hset.trans (.trans (.one hset0 (by simp)) (Idle.changes ?_ (by simp)))
    constructor <;> first | rfl | exact id | exact log_same _

theorem ngtcp2ConnSetEarlyRemoteTransportParams_changes {params : TransportParams}
    {r : Except Err Unit}
    (h : ngtcp2ConnSetEarlyRemoteTransportParams conn params = (r, conn')) :
    Changes H [.limits, .idle] conn conn' := by
  unfold ngtcp2ConnSetEarlyRemoteTransportParams at h
  split at h
  · exact .of_same h
  · obtain ⟨-, rfl⟩ := Prod.mk.inj h
    exact .one (.limits conn params) (by simp)

theorem ngtcp2ConnSetKeys_idle {slot : KeySlot} {ckm : CryptoKm} {r : Except Err Unit}
    (h : ngtcp2ConnSetKeys conn slot ckm = (r, conn')) : Idle conn conn' := by
  unfold ngtcp2ConnSetKeys at h
  split at h <;> split at h <;>
  · obtain ⟨-, rfl⟩ := Prod.mk.inj h
    constructor <;> first | rfl | exact id | exact log_same _

/-- The kinds of changes of a packet that closes the connection. -/
def closeKinds : List Kind := .state :: resendKinds

theorem closePkt_changes {destlen : Nat} {fr : Frame} {r : Except Err Pkt} (hw : Writable H conn)
    (h : ((connWriteSingleFramePkt conn destlen fr).andThen fun pkt conn => (.ok pkt, conn.setState .closing)) =
      (r, conn')) (hr : ¬Fatal r) : Changes H closeKinds conn conn' := by
  refine Changes.andThen h hr (fun a conn₁ ha hne => ?_) fun a conn₁ ha h => ?_
  · exact (connWriteSingleFramePkt_changes hw ha hne).mono (by simp [closeKinds])
  · obtain ⟨-, rfl⟩ := Prod.mk.inj h
    exact .one (.state conn₁ .closing) (by simp [closeKinds])

theorem ngtcp2ConnWriteConnectionClose_changes {destlen errorCode : Nat} {r : Except Err Pkt}
    (hw : Writable H conn)
    (h : ngtcp2ConnWriteConnectionClose conn destlen errorCode = (r, conn')) (hr : ¬Fatal r) :
    Changes H closeKinds conn conn' := by
  have hsame : ∀ {x : Except Err Pkt}, (x, conn) = (r, conn') →
    Changes H closeKinds conn conn' := by
    intro x hx
    obtain ⟨-, rfl⟩ := Prod.mk.inj hx
    exact .refl _
  unfold ngtcp2ConnWriteConnectionClose at h
  split at h
  · exact hsame h
  split at h
  · exact closePkt_changes hw h hr
  · exact hsame h

theorem ngtcp2ConnWriteApplicationClose_changes {destlen appErrorCode : Nat} {r : Except Err Pkt}
    (hw : Writable H conn)
    (h : ngtcp2ConnWriteApplicationClose conn destlen appErrorCode = (r, conn')) (hr : ¬Fatal r) :
    Changes H closeKinds conn conn' := by
  have hsame : ∀ {x : Except Err Pkt}, (x, conn) = (r, conn') →
    Changes H closeKinds conn conn' := by
    intro x hx
    obtain ⟨-, rfl⟩ := Prod.mk.inj hx
    exact .refl _
  unfold ngtcp2ConnWriteApplicationClose at h
  split at h
  · exact hsame h
  split at h
  · exact hsame h
  split at h
  · exact closePkt_changes hw h hr
  · exact hsame h

/-! ## Steps -/

/-- The kinds of changes of a step, but for packets lost to their deadline. -/
def Op.kinds : Op → List Kind
  | recvFrame _ fr => fr.recvKinds
  | recvDelayedHandshakeFrame _ fr => fr.recvDelayedKinds
  | recvHandshakeFrame _ _ fr => fr.recvHandshakeKinds
  | recvPktEnd .. => [.idle, .timer]
  | recvHandshakePktEnd .. => retryKinds
  | recvHandshakeDone .. | statelessReset => [.idle, .state]
  | openBidiStream | openUniStream => [.openLocal]
  | writeStream .. => streamTxKinds
  | writePkt .. => writeKinds
  | writeAckPkt .. => resendKinds
  | writeConnectionClose .. | writeApplicationClose .. => closeKinds
  | shutdownStream .. | shutdownStreamWrite .. | shutdownStreamRead .. => shutdownKinds
  | extendMaxStreamOffset .. | extendMaxOffset _ => [.extend, .idle]
  | setRemoteTransportParams .. | setEarlyRemoteTransportParams _ => [.limits, .idle]
  | _ => [.idle]

theorem not_fatal_of_survives {rv : Except Err Unit} (h : survives rv = true) : ¬Fatal rv := by
  rintro ⟨e, rfl, hfatal⟩
  simp [survives, hfatal] at h

/-- A stateless reset leaves what its callback leaves, whatever the callback answers. -/
theorem Op.statelessReset_run {rv : Except Err Unit}
    (h : Op.statelessReset.run conn = (rv, conn')) :
    ∃ r, connOnStatelessReset conn = (r, conn') := by
  unfold Op.run at h
  generalize connOnStatelessReset conn = res at h
  obtain ⟨r, conn''⟩ := res
  cases r <;>
  · obtain ⟨-, rfl⟩ := Prod.mk.inj h
    exact ⟨_, rfl⟩

/-- A step makes changes of its kinds, and loses a packet only to its deadline. -/
theorem Op.run_changes {op : Op} {rv : Except Err Unit} (hinv : EntriesInv conn)
    (hkeyed : StrmsKeyed conn)
    (h : op.run conn = (rv, conn')) (hs : survives rv = true) (hK : op.kinds ⊆ K)
    (hlose : .timeout ∈ K ∨ (EntriesOk conn ∧ rv ≠ .error .pktTimeout)) :
    Changes (held conn) K conn conn' := by
  have hr := not_fatal_of_survives hs
  have hw : Writable (held conn) conn := ⟨hinv, hkeyed, fun fr _ hfr => hfr⟩
  have hheld : ∀ ent ∈ conn.rtb.head, ∀ fr ∈ ent.frc, fr ∈ held conn := fun ent hent fr hfr =>
    List.mem_append_right _ (List.mem_flatMap.mpr ⟨ent, List.mem_append_left _ hent, hfr⟩)
  have hidle : ∀ {conn'' : Conn}, .idle ∈ K → Idle conn conn'' →
    (Except.ok (), conn'') = (rv, conn') →
      Changes (held conn) K conn conn' := by
    intro conn'' hk hsame heq
    obtain ⟨-, rfl⟩ := Prod.mk.inj heq
    exact hsame.changes hk
  -- A call whose value is thrown away.
  have hvoid : ∀ {α : Type} {x : Result α} {K' : List Kind}, K' ⊆ K → x.void = (rv, conn') →
      (∀ y, x = (y, conn') → ¬Fatal y → Changes (held conn) K' conn conn') →
        Changes (held conn) K conn conn' := by
    intro α x K' hK' hx hch
    obtain ⟨y, hy, herr⟩ := void_cases hx
    refine (hch y hy ?_).mono hK'
    rintro ⟨e, he, hfatal⟩
    exact hr ⟨e, (herr e).mpr he, hfatal⟩
  have hlose' : ∀ {y : Except Err (Option Pkt)}, (∀ e, rv = .error e ↔ y = .error e) →
    MayLose K conn y :=
    fun herr => hlose.imp_right fun ⟨hok, hne⟩ => ⟨hok, fun he => hne ((herr _).mpr he)⟩
  cases op with
  | recvFrame longForm fr => exact (connRecvPktFrame_changes hkeyed hinv hheld h hr).mono hK
  | recvDelayedHandshakeFrame type fr =>
    exact (connRecvDelayedHandshakeFrame_changes hkeyed hinv hheld h hr).mono hK
  | recvHandshakeFrame type handshakeFailed fr =>
    exact hvoid hK h fun y hy hne => connRecvHandshakeFrame_changes hkeyed hinv hheld hy hne
  | recvProtectedPkt =>
    refine hidle (hK (by simp [Op.kinds])) ?_ h
    constructor <;> first | rfl | exact id | exact log_same _
  | recvPktEnd pktNum requireAck unprotected ts => exact (connRecvPktEnd_changes h).mono hK
  | recvHandshakePktEnd type handshakeFailed pktNum requireAck ts =>
    exact (connRecvHandshakePktEnd_changes h hr).mono hK
  | recvHandshakeDone state rv => exact (connRecvHandshakeDone_changes h hr).mono hK
  | negotiateConnId connId =>
    have hk : Kind.idle ∈ K := hK (by simp [Op.kinds])
    have h : (if conn.server then _ else _) = (rv, conn') := h
    split at h
    · exact hidle hk (by constructor <;> first | rfl | exact id | exact log_same _) h
    · exact hidle hk (by constructor <;> first | rfl | exact id | exact log_same _) h
  | statelessReset =>
    obtain ⟨r, hreset⟩ := Op.statelessReset_run h
    exact (connOnStatelessReset_changes hreset).mono hK
  | openBidiStream => exact hvoid hK h fun y hy hne => ngtcp2ConnOpenBidiStream_changes hy hne
  | openUniStream => exact hvoid hK h fun y hy hne => ngtcp2ConnOpenUniStream_changes hy hne
  | writeStream destlen streamId fin data ts =>
    exact hvoid hK h fun y hy hne => ngtcp2ConnWriteStream_changes hw hy hne
  | writePkt destlen ts =>
    obtain ⟨y, hy, herr⟩ := void_cases h
    refine ngtcp2ConnWritePkt_changes hw hy ?_ hK (hlose' herr)
    rintro ⟨e, he, hfatal⟩
    exact hr ⟨e, (herr e).mpr he, hfatal⟩
  | writeAckPkt destlen ts =>
    obtain ⟨y, hy, herr⟩ := void_cases h
    refine ngtcp2ConnWriteAckPkt_changes hw hy ?_ hK (hlose' herr)
    rintro ⟨e, he, hfatal⟩
    exact hr ⟨e, (herr e).mpr he, hfatal⟩
  | writeConnectionClose destlen errorCode =>
    exact hvoid hK h fun y hy hne => ngtcp2ConnWriteConnectionClose_changes hw hy hne
  | writeApplicationClose destlen appErrorCode =>
    exact hvoid hK h fun y hy hne => ngtcp2ConnWriteApplicationClose_changes hw hy hne
  | shutdownStream streamId appErrorCode =>
    exact (ngtcp2ConnShutdownStream_changes hkeyed h).mono hK
  | shutdownStreamWrite streamId appErrorCode =>
    refine (withShutdownStrm_changes hkeyed h fun strm find _ => ?_).mono hK
    exact connShutdownStreamWrite_changes find appErrorCode
  | shutdownStreamRead streamId appErrorCode =>
    refine (withShutdownStrm_changes hkeyed h fun strm find hid => ?_).mono hK
    exact (connShutdownStreamRead_changes find hid appErrorCode).1
  | extendMaxStreamOffset streamId datalen =>
    exact (ngtcp2ConnExtendMaxStreamOffset_changes hkeyed h).mono hK
  | extendMaxOffset datalen =>
    obtain ⟨-, rfl⟩ := Prod.mk.inj h
    exact (ngtcp2ConnExtendMaxOffset_changes conn datalen).mono hK
  | setRemoteTransportParams exttype params =>
    exact (ngtcp2ConnSetRemoteTransportParams_changes hkeyed h).mono hK
  | setEarlyRemoteTransportParams params =>
    exact (ngtcp2ConnSetEarlyRemoteTransportParams_changes h).mono hK
  | setKeys slot ckm => exact (ngtcp2ConnSetKeys_idle h).changes (hK (by simp [Op.kinds]))
  | setAeadOverhead aeadOverhead =>
    refine hidle (hK (by simp [Op.kinds])) ?_ h
    constructor <;> first | rfl | exact id | exact log_same _
  | handshakeCompleted =>
    refine hidle (hK (by simp [Op.kinds])) ?_ h
    constructor <;> first | rfl | exact id | exact log_same _
  | earlyDataRejected =>
    refine hidle (hK (by simp [Op.kinds])) ?_ h
    constructor <;> first | rfl | exact id | exact log_same _

/-- What holds of the entries and the streams of every connection. -/
structure WellFormed (conn : Conn) : Prop where
  inv : EntriesInv conn
  keyed : StrmsKeyed conn
  ok : EntriesOk conn

theorem Initial.wellFormed (h : Initial conn) : WellFormed conn := by
  cases h with
  | client mem connId version callbacks settings =>
    refine ⟨⟨rtbInit_inv, by simp [addrs, ngtcp2ConnClientNew, connNew, rtbInit], by
      simp [addrs, ngtcp2ConnClientNew, connNew, rtbInit]⟩, fun id strm hfind => ?_, by
      simp [EntriesOk, ngtcp2ConnClientNew, connNew, rtbInit]⟩
    have hfind : (if id = 0 then some (strmInit 0 settings.maxStreamData.toNat strm0MaxStreamData mem) else none) =
        some strm := hfind
    split at hfind
    · next hid =>
      obtain rfl := Option.some.inj hfind
      exact hid.symm
    · simp at hfind
  | server mem connId version callbacks settings =>
    refine ⟨⟨rtbInit_inv, by simp [addrs, ngtcp2ConnServerNew, connNew, rtbInit], by
      simp [addrs, ngtcp2ConnServerNew, connNew, rtbInit]⟩, fun id strm hfind => ?_, by
      simp [EntriesOk, ngtcp2ConnServerNew, connNew, rtbInit]⟩
    have hfind : (if id = 0 then some (strmInit 0 settings.maxStreamData.toNat strm0MaxStreamData mem) else none) =
        some strm := hfind
    split at hfind
    · next hid =>
      obtain rfl := Option.some.inj hfind
      exact hid.symm
    · simp at hfind

theorem WellFormed.changes (h : WellFormed conn) (hch : Changes H K conn conn') :
    WellFormed conn' :=
  ⟨hch.keeps EntriesInv (fun _ _ _ _ hP hc => hc.entriesInv hP) h.inv, hch.keyed h.keyed,
    hch.keeps EntriesOk (fun _ _ _ _ hP hc => hc.entriesOk hP) h.ok⟩

/-- A step of a well formed connection makes changes of its kinds, and may lose a packet. -/
theorem Step.changes {ops : List Op} {op : Op} (h : WellFormed conn)
    (hstep : Step ops conn op conn') :
    Changes (held conn) (.timeout :: op.kinds) conn conn' := by
  obtain ⟨rv, hrun, hs⟩ := hstep
  exact Op.run_changes h.inv h.keyed hrun hs (List.subset_cons_self ..) (.inl List.mem_cons_self)

theorem Step.wellFormed {ops : List Op} {op : Op} (h : WellFormed conn)
    (hstep : Step ops conn op conn') :
    WellFormed conn' := h.changes (Step.changes h hstep)

theorem Reachable.wellFormed (h : Reachable conn) : WellFormed conn := by
  obtain ⟨conn₀, ops, hinit, hrun⟩ := h
  exact hrun.invariant (fun _ => WellFormed) hinit.wellFormed fun _ _ _ _ hwf hstep =>
    Step.wellFormed hwf hstep

end

/-! ## Retry packets -/

/-- Nothing of stream 0 was received. -/
def stream0Empty (conn : Conn) : Bool :=
  match conn.strms 0 with
  | none => true
  | some strm0 => robFirstGapOffset strm0.rob == 0

/-- The step is the end of a Retry packet that is accepted: stream 0 starts again. -/
def Op.completesRetry (conn : Conn) : Op → Bool
  | recvHandshakePktEnd type handshakeFailed _ _ _ =>
    type == .retry && !handshakeFailed && !stream0Empty conn
  | _ => false

section
variable {H : List Frame} {conn conn' : Conn}

theorem connRecvHandshakePktEnd_eq (conn : Conn) (type : PktType) (failed : Bool) (pktNum : Nat)
    (requireAck : Bool) (ts : Nat) :
    connRecvHandshakePktEnd conn type failed pktNum requireAck ts =
      if (type = .initial ∨ type = .retry) ∧ stream0Empty conn = true then (.error .proto, conn)
      else if type = .retry then
        if failed then (.error .proto, { conn with maxRxPktNum := max conn.maxRxPktNum pktNum })
        else connRecvServerStatelessRetry { conn with maxRxPktNum := max conn.maxRxPktNum pktNum }
      else
        (ngtcp2ConnSchedAck { conn with maxRxPktNum := max conn.maxRxPktNum pktNum } pktNum requireAck ts true).andThen
          fun _ conn => if failed then (.error .tlsHandshake, conn) else (.ok (), conn) := rfl

/-- The end of a handshake packet that is no accepted Retry packet. -/
theorem handshakePktEnd_noRestart {type : PktType} {failed requireAck : Bool} {pktNum ts : Nat}
    {r : Except Err Unit}
    (h : connRecvHandshakePktEnd conn type failed pktNum requireAck ts = (r, conn')) (hr : ¬Fatal r)
    (hretry : (type == .retry && !failed && !stream0Empty conn) = false) :
    Changes H (retryKinds.filter (· != .restart)) conn conn' := by
  have hmax : Idle conn { conn with maxRxPktNum := max conn.maxRxPktNum pktNum } := by
    constructor <;> first | rfl | exact id | exact log_same _
  have hmax : Changes H (retryKinds.filter (· != .restart)) conn _ := hmax.changes (by decide)
  rw [connRecvHandshakePktEnd_eq] at h
  split at h
  · exact .of_same h
  · next hempty =>
    split at h
    · next htype =>
      cases hfailed : failed with
      | true =>
        rw [if_pos hfailed] at h
        exact hmax.trans (.of_same h)
      | false =>
        have hsome : stream0Empty conn = false :=
          Bool.eq_false_iff.mpr fun hc => hempty ⟨.inr htype, hc⟩
        rw [htype, hfailed, hsome] at hretry
        cases hretry
    · refine hmax.trans (Changes.andThen h hr (fun a conn₁ ha hne => ?_) fun a conn₁ ha h => ?_)
      · exact (ngtcp2ConnSchedAck_changes ha).mono (by decide)
      · split at h <;> exact .of_same h

/-- An accepted Retry packet gives stream 0 a new object. -/
theorem Step.restarted {ops : List Op} {op : Op} (hstep : Step ops conn op conn')
    (hretry : op.completesRetry conn = true) :
    conn'.strms 0 = some (strmInit 0 conn.localSettings.maxStreamData.toNat strm0MaxStreamData conn.mem) := by
  cases op with
  | recvHandshakePktEnd type failed pktNum requireAck ts =>
    obtain ⟨rv, hrun, hs⟩ := hstep
    have hretry : (type == .retry && !failed && !stream0Empty conn) = true := hretry
    rw [Bool.and_eq_true, Bool.and_eq_true, beq_iff_eq, Bool.not_eq_true',
      Bool.not_eq_true'] at hretry
    obtain ⟨⟨htype, hfailed⟩, hempty⟩ := hretry
    have hrun : connRecvHandshakePktEnd conn type failed pktNum requireAck ts = (rv, conn') := hrun
    rw [connRecvHandshakePktEnd_eq, hempty, if_neg (fun hc => Bool.false_ne_true hc.2),
      if_pos htype, hfailed,
      if_neg Bool.false_ne_true] at hrun
    have hrun := connCall_andThen hrun (not_fatal_of_survives hs)
    obtain ⟨-, rfl⟩ := Prod.mk.inj hrun
    rfl
  | _ => cases hretry

theorem Op.restart_not_mem {op : Op}
    (hend : ∀ type failed pktNum requireAck ts,
    op ≠ .recvHandshakePktEnd type failed pktNum requireAck ts) :
    Kind.restart ∉ op.kinds := by
  cases op with
  | recvFrame longForm fr => cases fr <;> simp [Op.kinds, Frame.recvKinds, ackKinds, streamKinds]
  | recvDelayedHandshakeFrame type fr =>
    cases fr <;> simp [Op.kinds, Frame.recvDelayedKinds, ackKinds, streamKinds]
  | recvHandshakeFrame type failed fr =>
    cases fr <;> simp [Op.kinds, Frame.recvHandshakeKinds, ackKinds]
  | recvHandshakePktEnd type failed pktNum requireAck ts => exact absurd rfl (hend _ _ _ _ _)
  | _ => simp [Op.kinds, shutdownKinds, streamTxKinds, writeKinds, resendKinds, closeKinds]

/-- Only an accepted Retry packet starts stream 0 again. -/
theorem Step.changes_noRetry {ops : List Op} {op : Op} (h : WellFormed conn)
    (hstep : Step ops conn op conn')
    (hretry : op.completesRetry conn = false) :
    Changes (held conn) ((Kind.timeout :: op.kinds).filter (· != .restart)) conn conn' := by
  by_cases hend : ∃ type failed pktNum requireAck ts, op =
    .recvHandshakePktEnd type failed pktNum requireAck ts
  · obtain ⟨type, failed, pktNum, requireAck, ts, rfl⟩ := hend
    obtain ⟨rv, hrun, hs⟩ := hstep
    have hsub : retryKinds.filter (· != .restart) ⊆ (Kind.timeout :: retryKinds).filter
      (· != .restart) := by decide
    exact (handshakePktEnd_noRestart hrun (not_fatal_of_survives hs) hretry).mono hsub
  · have hno : Kind.restart ∉ op.kinds :=
      Op.restart_not_mem fun type failed pktNum requireAck ts he =>
      hend ⟨type, failed, pktNum, requireAck, ts, he⟩
    have hno : Kind.restart ∉ Kind.timeout :: op.kinds :=
      List.not_mem_cons_of_ne_of_not_mem (by decide) hno
    exact (Step.changes h hstep).mono fun k hk => List.mem_filter.mpr ⟨hk,
      bne_iff_ne.mpr fun he => hno (he ▸ hk)⟩

end

end Ngtcp2
