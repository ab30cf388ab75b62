import Polygon.StreamsOnce

/-!
# Queued frames

A frame leaves the queue `frq` only in a packet of `ngtcp2_conn_write_pkt`, or by its
cancel rules. For the RST_STREAM frame of a shutdown this means that the stream was closed
before the next packet was written.
-/
namespace Ngtcp2

section
variable {H : List Frame} {K : List Kind} {conn conn₁ conn' : Conn} {fr : Frame} {destlen ts : Nat}

/-- Only `ngtcp2_conn_write_pkt` takes frames out of the queue; all else puts them in front. -/
theorem Change.frq_suffix {k : Kind} (h : Change H k conn conn') (hk : k ≠ .frq) :
    conn.frq <:+ conn'.frq := by
  have hids : ∀ (conn : Conn) bidi ids, (conn.setIds bidi ids).frq = conn.frq := by
    intro conn bidi ids
    cases bidi <;> rfl
  have hsame : conn'.frq = conn.frq → conn.frq <:+ conn'.frq := fun heq => heq ▸ List.suffix_rfl
  cases h with
  | idle same => exact hsame same.frq
  | announce => exact List.suffix_cons _ _
  | announceStrm => exact List.suffix_cons _ _
  | openRemote => exact hsame (hids _ _ _)
  | openLocal => exact hsame (hids _ _ _)
  | consume => exact hsame (hids _ _ _)
  | close => exact hsame (hids _ _ _)
  | raiseIds => exact hsame (hids _ _ _)
  | push => exact List.suffix_cons _ _
  | rst => exact List.suffix_cons _ _
  | tx =>
    refine hsame ?_
    unfold trackStreamPkt
    split <;> rfl
  | frq => exact absurd rfl hk
  | _ => exact List.suffix_rfl

theorem Changes.count_frq (h : Changes H K conn conn') (hK : .frq ∉ K) (fr : Frame) :
    conn.frq.count fr ≤ conn'.frq.count fr :=
  h.keeps (fun c => conn.frq.count fr ≤ c.frq.count fr)
    (fun _ hk _ _ hP hc => Nat.le_trans hP ((hc.frq_suffix fun heq => hK (heq ▸ hk)).sublist.count_le fr)) (Nat.le_refl _)

/-- A queued frame that is not cancelled stays or goes into the packet. -/
theorem FrqWritten.count_le {ppe : Ppe} {w : Written} {new cancelled : List Frame}
    (h : FrqWritten conn ppe w new cancelled conn₁) (hfr : frqCancelled conn fr = false) :
    conn.frq.count fr ≤ w.done.count fr + w.rest.count fr := by
  have hcount := h.perm.count_eq fr
  have hcancelled : cancelled.count fr = 0 := by
    refine List.count_eq_zero.mpr fun hmem => ?_
    rw [h.cancelled fr hmem] at hfr
    cases hfr
  simp only [List.count_append] at hcount
  omega

theorem PktWritten.count_frq {r : Except Err (Option Pkt)} (h : PktWritten conn r conn')
    (hfr : frqCancelled conn fr = false) :
    conn.frq.count fr ≤ conn'.frq.count fr ∨ ∃ pkt, r = .ok (some pkt) ∧ fr ∈ pkt.frames := by
  cases h with
  | nothing => exact .inl (Nat.le_refl _)
  | noBuf quiet =>
    obtain ⟨_, _, _, _, _, _, rfl⟩ := quiet
    exact .inl (Nat.le_refl _)
  | @empty ppe w new cancelled conn₁ r filled result =>
    left
    show conn.frq.count fr ≤ (w.done ++ w.rest).count fr
    rw [List.count_append]
    exact filled.count_le hfr
  | @sent ppe w new cancelled conn₁ conn' pkt filled sends =>
    have hle := filled.count_le hfr
    by_cases hdone : fr ∈ w.done
    · right
      cases sends with
      | untracked nil =>
        rw [nil] at hdone
        cases hdone
      | tracked ent frc_eq addr flag fresh num form known tracks logs =>
        obtain ⟨pre, post, hframes, -⟩ := tracks.carries
        refine ⟨pkt, rfl, ?_⟩
        rw [hframes, frc_eq]
        simp [hdone]
    · left
      have hzero := List.count_eq_zero.mpr hdone
      have hfrq : conn'.frq = w.rest := by
        cases sends with
        | untracked nil num frames logs =>
          obtain ⟨_, _, _, _, _, _, rfl⟩ := logs
          rfl
        | tracked ent frc_eq addr flag fresh num form known tracks logs =>
          obtain ⟨_, _, _, _, _, _, rfl⟩ := logs
          rfl
      rw [hfrq]
      omega

theorem Changes.isSome {id : Nat} (h : Changes H K conn conn') (hK : ∀ k ∈ K, k.keepsObjs = true)
    (hid : id ≠ 0) :
    (conn'.strms id).isSome = (conn.strms id).isSome :=
  h.keeps (fun c => (c.strms id).isSome = (conn.strms id).isSome)
    (fun k hk _ _ hP hc => (hc.isSome (hK k hk) hid).trans hP) rfl

/-- How a RST_STREAM frame leaves the queue in a step: it is in the packet of `ngtcp2_conn_write_pkt`, or
that call finds no stream any more. -/
def LeavesQueue (fr : RstStreamFrame) (conn : Conn) (op : Op) : Prop :=
  ∃ destlen ts, op = .writePkt destlen ts ∧
    ((∃ pkt, (ngtcp2ConnWritePkt conn destlen ts).1 = .ok (some pkt) ∧ .rstStream fr ∈ pkt.frames) ∨
      conn.strms fr.streamId = none)

theorem Step.reset_kept {ops : List Op} {op : Op} {fr : RstStreamFrame} (hwf : WellFormed conn)
    (hid : fr.streamId ≠ 0) (hstep : Step ops conn op conn') :
    conn.frq.count (.rstStream fr) ≤ conn'.frq.count (.rstStream fr) ∨ LeavesQueue fr conn op := by
  by_cases hop : ∃ destlen ts, op = .writePkt destlen ts
  · obtain ⟨destlen, ts, rfl⟩ := hop
    obtain ⟨rv, hrun, hs⟩ := hstep
    obtain ⟨r, hr, herr⟩ := void_cases hrun
    have hnf : ¬Fatal r := fun ⟨e, he, hfatal⟩ => not_fatal_of_survives hs ⟨e, (herr e).mpr he,
      hfatal⟩
    have hw : Writable (held conn) conn := ⟨hwf.inv, hwf.keyed, fun _ _ hfr => hfr⟩
    rcases ngtcp2ConnWritePkt_split hw hr hnf (List.subset_cons_self .timeout fillKinds)
      (.inl List.mem_cons_self)
      with hch | ⟨conn₁, hch, hw₁, hwritten⟩
    · exact .inl (hch.count_frq (by simp [fillKinds]) _)
    have hle := hch.count_frq (by simp [fillKinds]) (.rstStream fr)
    cases hcancel : frqCancelled conn₁ (.rstStream fr) with
    | false =>
      rcases hwritten.count_frq hcancel with hkept | ⟨pkt, rfl, hmem⟩
      · exact .inl (Nat.le_trans hle hkept)
      · exact .inr ⟨destlen, ts, rfl, .inl ⟨pkt, by rw [hr], hmem⟩⟩
    | true =>
      have hnone : (conn₁.strms fr.streamId).isNone = true := (Bool.and_eq_true_iff.mp hcancel).1
      have hsome : (conn₁.strms fr.streamId).isSome = (conn.strms fr.streamId).isSome :=
        hch.isSome (by simp [fillKinds, Kind.keepsObjs]) hid
      refine .inr ⟨destlen, ts, rfl, .inr (Option.isNone_iff_eq_none.mp ?_)⟩
      rw [← Option.not_isSome, ← hsome, Option.not_isSome]
      exact hnone
  · refine .inl ((Step.changes hwf hstep).count_frq ?_ _)
    cases op with
    | writePkt destlen ts => exact absurd ⟨destlen, ts, rfl⟩ hop
    | recvFrame longForm fr => cases fr <;> simp [Op.kinds, Frame.recvKinds, ackKinds, streamKinds]
    | recvDelayedHandshakeFrame type fr =>
      cases fr <;> simp [Op.kinds, Frame.recvDelayedKinds, ackKinds, streamKinds]
    | recvHandshakeFrame type handshakeFailed fr =>
      cases fr <;> simp [Op.kinds, Frame.recvHandshakeKinds, ackKinds]
    | _ => simp [Op.kinds, retryKinds, streamTxKinds, resendKinds, closeKinds, shutdownKinds]

/-- The RST_STREAM frame of a shutdown. -/
theorem connShutdownStreamWrite_mem {strm : Strm} (conn : Conn) (code : Nat)
    (hunsent : strm.sentRst = false) :
    .rstStream ⟨strm.streamId, code,
    strm.txOffset⟩ ∈ (connShutdownStreamWrite conn strm code).2.frq := by
  unfold connShutdownStreamWrite
  rw [hunsent, if_neg Bool.false_ne_true]
  exact List.mem_cons_self

/-- The calls that reset a stream. -/
inductive ResetOp (id code : Nat) : Op → Prop where
  | shutdownStream : ResetOp id code (.shutdownStream id code)
  | shutdownStreamWrite : ResetOp id code (.shutdownStreamWrite id code)

theorem connShutdownStreamRead_fst (conn : Conn) (strm : Strm) (code : Nat) :
    (connShutdownStreamRead conn strm code).1.streamId = strm.streamId ∧
      (connShutdownStreamRead conn strm code).1.txOffset = strm.txOffset ∧
      (connShutdownStreamRead conn strm code).1.sentRst = strm.sentRst := by
  unfold connShutdownStreamRead connStopSending fcUnlink
  split
  · exact ⟨rfl, rfl, rfl⟩
  · dsimp only
    split <;> exact ⟨rfl, rfl, rfl⟩

theorem ResetOp.queued {id code : Nat} {op : Op} {strm : Strm} (hop : ResetOp id code op)
    (hkeyed : StrmsKeyed conn)
    (hfind : conn.strms id = some strm) (hunsent : strm.sentRst = false)
    (hrun : op.run conn = (.ok (), conn')) :
    id ≠ 0 ∧ .rstStream ⟨id, code, strm.txOffset⟩ ∈ conn'.frq := by
  have hid := hkeyed id strm hfind
  -- The checks have passed.
  have hshut : ∀ f : Strm → Conn, withShutdownStrm conn id code f = (.ok (), conn') →
    id ≠ 0 ∧ conn' = f strm := by
    intro f hf
    unfold withShutdownStrm at hf
    rw [hfind] at hf
    split at hf
    · simp at hf
    · next hguard =>
      simp only [not_or] at hguard
      exact ⟨hguard.1, (Prod.mk.inj hf).2.symm⟩
  cases hop with
  | shutdownStream =>
    obtain ⟨hne, rfl⟩ := hshut _ hrun
    refine ⟨hne, ?_⟩
    obtain ⟨hsid, htx, hrst⟩ := connShutdownStreamRead_fst conn strm code
    have hmem := connShutdownStreamWrite_mem (connShutdownStreamRead conn strm code).2 code
      (hrst.trans hunsent)
    rwa [hsid, htx, hid] at hmem
  | shutdownStreamWrite =>
    obtain ⟨hne, rfl⟩ := hshut _ hrun
    have hmem := connShutdownStreamWrite_mem conn code hunsent
    rw [hid] at hmem
    exact ⟨hne, hmem⟩

/-- The RST_STREAM frame that a shutdown of a stream queued stays in the queue until it is written into a packet,
or until `ngtcp2_conn_write_pkt` finds that the stream was closed in between. -/
theorem shutdown_resetKept {id code : Nat} {op : Op} {ops : List Op} {strm : Strm}
    (h : Reachable conn)
    (hop : ResetOp id code op) (hfind : conn.strms id = some strm) (hunsent : strm.sentRst = false)
    (hrun : op.run conn = (.ok (), conn₁)) (hafter : Runs.Run Step conn₁ ops conn') :
    .rstStream ⟨id, code, strm.txOffset⟩ ∈ conn₁.frq ∧
      (.rstStream ⟨id, code, strm.txOffset⟩ ∈ conn'.frq ∨
        ∃ ops₁ op ops₂ conn₂, ops = ops₁ ++ op :: ops₂ ∧ Runs.Run Step conn₁ ops₁ conn₂ ∧
          .rstStream ⟨id, code, strm.txOffset⟩ ∈ conn₂.frq ∧
          LeavesQueue ⟨id, code, strm.txOffset⟩ conn₂ op) := by
  have hwf := h.wellFormed
  obtain ⟨hid, hmem⟩ := hop.queued hwf.keyed hfind hunsent hrun
  have hstep₁ : Step [] conn op conn₁ := ⟨_, hrun, rfl⟩
  have hwf₁ := Step.wellFormed hwf hstep₁
  refine ⟨hmem, ?_⟩
  refine hafter.until (fun c => .rstStream ⟨id, code,
    strm.txOffset⟩ ∈ c.frq) _ hmem fun ops₁ c op c' run hin hstep => ?_
  have hwfc : WellFormed c :=
    run.invariant (fun _ => WellFormed) hwf₁ fun _ _ _ _ hP hs => Step.wellFormed hP hs
  refine (Step.reset_kept hwfc hid hstep).imp_left fun hle => ?_
  exact List.count_pos_iff.mp (Nat.lt_of_lt_of_le (List.count_pos_iff.mpr hin) hle)

end

/-- The server with the stream 4 of its client. -/
def streamServer : Conn := runOps establishedServer [.recvFrame false (.stream ⟨4, 0, [8], false⟩)]

theorem streamServer_reachable : Reachable streamServer :=
  establishedServer_reachable.runOps [.recvFrame false (.stream ⟨4, 0, [8], false⟩)] (by decide)

/-- A reset that is written at once. -/
theorem shutdown_resetKept_written :
    .rstStream ⟨4, 7, 0⟩ ∈ (runOps streamServer [.shutdownStreamWrite 4 7]).frq ∧
    (.rstStream ⟨4, 7, 0⟩ ∈ (runOps streamServer [.shutdownStreamWrite 4 7, .writePkt 1200 2]).frq ∨
      ∃ ops₁ op ops₂ conn₂, [.writePkt 1200 2] = ops₁ ++ op :: ops₂ ∧
        Runs.Run Step (runOps streamServer [.shutdownStreamWrite 4 7]) ops₁ conn₂ ∧
        .rstStream ⟨4, 7, 0⟩ ∈ conn₂.frq ∧ LeavesQueue ⟨4, 7, 0⟩ conn₂ op) := by
  have hfind : streamServer.strms 4 =
    some ((streamServer.strms 4).getD (strmInit 4 0 0 fun _ => 0)) := rfl
  exact shutdown_resetKept streamServer_reachable .shutdownStreamWrite hfind (by decide) rfl
    (run_runOps (runOps streamServer [.shutdownStreamWrite 4 7]) [.writePkt 1200 2] (by decide))

/-- The peer resets the stream too before the next packet is written: the stream is closed, and the queued reset
is deleted unsent. -/
theorem shutdown_resetLost :
    survivesAll streamServer [.shutdownStreamWrite 4 7, .recvFrame false (.rstStream ⟨4, 0, 1⟩),
    .writePkt 1200 2] = true ∧
    .rstStream ⟨4, 7, 0⟩ ∈
      (runOps streamServer [.shutdownStreamWrite 4 7,
      .recvFrame false (.rstStream ⟨4, 0, 1⟩)]).frq ∧
    ((ngtcp2ConnWritePkt (runOps streamServer
      [.shutdownStreamWrite 4 7, .recvFrame false (.rstStream ⟨4, 0, 1⟩)]) 1200 2).1.map (·.map (·.frames))) =
        .ok (some [.maxStreamId 44]) ∧
    (runOps streamServer
      [.shutdownStreamWrite 4 7, .recvFrame false (.rstStream ⟨4, 0, 1⟩),
      .writePkt 1200 2]).frq = [] := by
  decide

end Ngtcp2
