import Polygon.Lib.Tally
import Polygon.StreamHoldings

/-!
# The offsets of all streams

A connection is charged for each stream up to the highest offset received of it, or announced
as its end. Frames of a stream that is over are ignored.
-/
namespace Ngtcp2

open Ranges

/-- The stream and the end of the bytes of a STREAM or RST_STREAM frame; stream 0 is not
charged. -/
def Frame.offsets : Frame → List (Nat × Nat)
  | .stream fr => if fr.streamId = 0 then [] else [(fr.streamId, fr.endOffset)]
  | .rstStream fr => if fr.streamId = 0 then [] else [(fr.streamId, fr.finalOffset)]
  | _ => []

/-- The offsets that the step receives. -/
def Op.offsets : Op → List (Nat × Nat)
  | recvFrame _ fr | recvDelayedHandshakeFrame _ fr => fr.offsets
  | _ => []

/-- The stream is over: it has no object, and none is made for it. -/
def ended (conn : Conn) (id : Nat) : Bool :=
  (conn.strms id).isNone &&
    (connLocalStream conn id || (idtrOpen (conn.ids (bidiStream id)).remoteIdtr id).isNone)

/-- The offsets of streams that are not over. -/
def counted (conn : Conn) (op : Op) : List (Nat × Nat) :=
  op.offsets.filter fun p => !ended conn p.1

/-- The offsets that count in a run. -/
def countedAlong : Conn → List Op → List (Nat × Nat)
  | _, [] => []
  | conn, op :: ops => counted conn op ++ countedAlong (op.run conn).2 ops

/-- A frame that is processed is accepted. -/
def Op.accepted (conn : Conn) (op : Op) : Prop :=
  match op with
  | .recvFrame .. | .recvDelayedHandshakeFrame .. | .recvHandshakeFrame .. =>
    (op.run conn).1 = .ok ()
  | _ => True

/-- The frames are such as can be read from a packet, and the lengths are those of data. -/
def Op.Proper : Op → Prop
  | recvFrame _ fr | recvDelayedHandshakeFrame _ fr | recvHandshakeFrame _ _ fr => fr.WireRange
  | extendMaxStreamOffset _ datalen => datalen ≤ maxVarint
  | _ => True

/-- The credit of the connection. -/
structure RxLimits (conn : Conn) : Prop where
  rx_le : conn.rxOffset ≤ conn.maxRxOffset
  max_le : conn.maxRxOffset ≤ conn.unsentMaxRxOffset
  unsent_le : conn.unsentMaxRxOffset ≤ maxVarint

/-- The credit of a stream. -/
structure StrmLimits (strm : Strm) : Prop where
  last_le : strm.lastRxOffset ≤ strm.maxRxOffset
  max_le : strm.maxRxOffset ≤ strm.unsentMaxRxOffset
  unsent_le : strm.unsentMaxRxOffset ≤ maxVarint

/-- The stream is charged up to `highest`. -/
structure ChargedTo (highest : Nat) (strm : Strm) : Prop where
  limits : StrmLimits strm
  last_le : strm.lastRxOffset ≤ highest
  last_eq : strm.recvRst = false → highest = strm.lastRxOffset
  shutRd : strm.recvRst = true → strm.shutRd = true

/-- The connection is charged for the received offsets `l`. -/
structure ChargedFor (l : List (Nat × Nat)) (conn : Conn) : Prop where
  total : conn.rxOffset = Tally.total l
  limits : RxLimits conn
  unused : ∀ id, id ≠ 0 → ¬Used conn id → Tally.highest l id = 0
  live : ∀ id strm, id ≠ 0 → conn.strms id = some strm → ChargedTo (Tally.highest l id) strm

/-- The stream IDs that do not fit into a frame are not used. -/
def WideUnused (conn : Conn) : Prop :=
  ∀ id, maxVarint < id → id < 4 * uint64Max → connLocalStream conn id = false → ¬Used conn id

theorem Op.Proper.sized {op : Op} (h : op.Proper) : op.Sized := by
  cases op with
  | recvFrame _ fr | recvDelayedHandshakeFrame _ fr | recvHandshakeFrame _ _ fr =>
    cases fr with
    | stream fr => exact h
    | _ => trivial
  | extendMaxStreamOffset => exact h
  | _ => trivial

theorem countedAlong_snoc (conn : Conn) (ops : List Op) (op : Op) :
    countedAlong conn (ops ++ [op]) = countedAlong conn ops ++ counted (runOps conn ops) op := by
  induction ops generalizing conn with
  | nil => exact List.append_nil _
  | cons op' ops ih =>
    show counted conn op' ++ countedAlong (op'.run conn).2 (ops ++ [op]) = _
    rw [ih]
    exact (List.append_assoc _ _ _).symm

/-! ## Stream IDs -/

section
variable {H : List Frame} {K : List Kind} {conn conn₁ conn' : Conn} {strm strm' : Strm} {id : Nat}

/-- The changes that use no ID of the peer. -/
theorem Change.usedRemote {k : Kind} (h : Change H k conn conn') (hk : k ≠ .openRemote)
    (hconsume : k ≠ .consume) (hremote : connLocalStream conn id = false) :
    Used conn' id ↔ Used conn id := by
  cases hkeeps : k.keepsIds with
  | true => exact (h.sameIds hkeeps).used id
  | false =>
    have hserver := h.server
    cases h with
    | openRemote => exact absurd rfl hk
    | consume => exact absurd rfl hconsume
    | @openLocal _ strm bidi =>
      have hidtr : ∀ b, ((Ngtcp2.openLocal conn bidi strm).ids b).remoteIdtr =
          (conn.ids b).remoteIdtr := fun b => by cases b <;> cases bidi <;> rfl
      unfold Used
      rw [connLocalStream_congr hserver, hremote, hidtr]
      exact Iff.rfl
    | _ => cases hkeeps

theorem Changes.usedRemote (h : Changes H K conn conn')
    (hK : ∀ k ∈ K, k ≠ .openRemote ∧ k ≠ .consume) (hremote : connLocalStream conn id = false) :
    Used conn' id ↔ Used conn id := by
  refine (h.keeps (fun c => c.server = conn.server ∧ (Used c id ↔ Used conn id)) ?_
    ⟨rfl, Iff.rfl⟩).2
  rintro k hk c c' ⟨hserver, hused⟩ hc
  have hlocal : connLocalStream c id = false := (connLocalStream_congr hserver id).trans hremote
  exact ⟨hc.server.trans hserver, (hc.usedRemote (hK k hk).1 (hK k hk).2 hlocal).trans hused⟩

theorem connFindOrOpenStream_used {r : Except Err (Option Strm)} (hids : IdsInv conn)
    (h : connFindOrOpenStream conn id = (r, conn₁)) (i : Nat) :
    (Used conn i → Used conn₁ i) ∧ (Used conn₁ i → Used conn i ∨ i = id) := by
  cases hfind : conn.strms id with
  | some strm =>
    rw [connFindOrOpenStream_find hfind] at h
    obtain ⟨-, rfl⟩ := Prod.mk.inj h
    exact ⟨fun hu => hu, .inl⟩
  | none =>
    by_cases hlocal : connLocalStream conn id = true
    · rw [connFindOrOpenStream_closed hfind (.inl hlocal)] at h
      obtain ⟨-, rfl⟩ := Prod.mk.inj h
      exact ⟨fun hu => hu, .inl⟩
    have hremote : connLocalStream conn id = false := Bool.eq_false_iff.mpr hlocal
    cases ho : idtrOpen (conn.ids (bidiStream id)).remoteIdtr id with
    | none =>
      rw [connFindOrOpenStream_closed hfind (.inr ho)] at h
      obtain ⟨-, rfl⟩ := Prod.mk.inj h
      exact ⟨fun hu => hu, .inl⟩
    | some idtr =>
      rw [connFindOrOpenStream_open hfind hremote ho] at h
      obtain ⟨-, rfl⟩ := Prod.mk.inj h
      have hiff := openRemote_usedId hids hremote ho i
      exact ⟨fun hu => hiff.mpr (.inl hu), hiff.mp⟩

theorem connRecvMaxStreamData_used {fr : MaxStreamDataFrame} {r : Except Err Unit} {i : Nat}
    (hc : StrmsUsed conn) (h : connRecvMaxStreamData conn fr = (r, conn')) (hused : Used conn' i) :
    Used conn i ∨ i = fr.streamId := by
  unfold connRecvMaxStreamData at h
  split at h
  · obtain ⟨-, rfl⟩ := Prod.mk.inj h
    exact .inl hused
  rcases andThen_cases h with ⟨e, hfound, -⟩ | ⟨found, conn₁, hfound, h⟩
  · exact (connFindOrOpenStream_used hc.ids hfound i).2 hused
  · have hsame : Used conn₁ i := by
      cases found with
      | none =>
        obtain ⟨-, rfl⟩ := Prod.mk.inj h
        exact hused
      | some strm =>
        obtain ⟨-, rfl⟩ := Prod.mk.inj h
        exact hused
    exact (connFindOrOpenStream_used hc.ids hfound i).2 hsame

/-- The frame may use the ID. -/
def Frame.names (id : Nat) : Frame → Prop
  | .stream fr => id = fr.streamId
  | .rstStream fr => id = fr.streamId
  | .stopSending fr => id = fr.streamId
  | .maxStreamData fr => id = fr.streamId
  | _ => False

def Op.names (id : Nat) : Op → Prop
  | recvFrame _ fr | recvDelayedHandshakeFrame _ fr | recvHandshakeFrame _ _ fr => fr.names id
  | _ => False

/-- Only frames use the IDs of the peer. -/
theorem Step.usedRemote {ops : List Op} {op : Op} (hreach : Reachable conn)
    (hstep : Step ops conn op conn') (hremote : connLocalStream conn id = false)
    (hused : Used conn' id) : Used conn id ∨ op.names id := by
  have hc := hreach.strmsUsed
  have hch := Step.changes hreach.wellFormed hstep
  have hkinds : (∀ k ∈ Kind.timeout :: op.kinds, k ≠ .openRemote ∧ k ≠ .consume) →
      Used conn id ∨ op.names id := fun hK => .inl ((hch.usedRemote hK hremote).mp hused)
  have hstream : ∀ {fr : StreamFrame} {r : Except Err Unit}, connRecvStream conn fr = (r, conn') →
      Used conn id ∨ id = fr.streamId := by
    intro fr r hrun
    by_cases heq : id = fr.streamId
    · exact .inr heq
    · exact .inl ((connRecvStream_elsewhere hc hrun heq).2.1.mp hused)
  have hconsume : ∀ {streamId rxOffset : Nat}, connLocalStream conn streamId = false →
      conn' = consumeId conn streamId rxOffset → Used conn id ∨ id = streamId := by
    intro streamId rxOffset hlocal heq
    rw [heq] at hused
    exact (consumeId_used hc.ids hlocal id).mp hused
  obtain ⟨rv, hrun, hs⟩ := hstep
  have hrv := not_fatal_of_survives hs
  cases op with
  | recvFrame longForm fr =>
    cases fr with
    | stream fr =>
      have hrun : (if fr.streamId = 0 ∧ longForm then (.error .proto, conn)
        else connRecvStream conn fr) = (rv, conn') := hrun
      split at hrun
      · obtain ⟨-, rfl⟩ := Prod.mk.inj hrun
        exact .inl hused
      · exact hstream hrun
    | rstStream fr =>
      rcases connRecvRstStream_cases (H := []) hc.keyed hrun hrv with
        rfl | ⟨-, -, hlocal, -, -, -, heq⟩ | ⟨-, -, hch⟩
      · exact .inl hused
      · exact hconsume hlocal heq
      · exact .inl ((hch.usedRemote (by simp) hremote).mp hused)
    | stopSending fr =>
      rcases connRecvStopSending_cases (H := []) hc.keyed hrun hrv with
        rfl | ⟨-, -, hlocal, -, heq⟩ | ⟨-, -, hch⟩
      · exact .inl hused
      · exact hconsume hlocal heq
      · exact .inl ((hch.usedRemote (by simp) hremote).mp hused)
    | maxStreamData fr => exact connRecvMaxStreamData_used hc hrun hused
    | _ => exact hkinds (by simp [Op.kinds, Frame.recvKinds, ackKinds])
  | recvDelayedHandshakeFrame type fr =>
    cases fr with
    | stream fr => exact hstream hrun
    | _ => exact hkinds (by simp [Op.kinds, Frame.recvDelayedKinds, ackKinds])
  | recvHandshakeFrame type failed fr =>
    cases fr with
    | stream fr =>
      obtain ⟨x, hrun, -⟩ := void_cases hrun
      have hon := connRecvHandshakeStream_onStrm hc.keyed hrun
      exact .inl ((hon.ids.used id).mp hused)
    | _ => exact hkinds (by simp [Op.kinds, Frame.recvHandshakeKinds, ackKinds])
  | _ =>
    exact hkinds (by simp [Op.kinds, shutdownKinds, streamTxKinds, writeKinds, resendKinds,
      closeKinds, retryKinds])

theorem Frame.WireRange.names_le {fr : Frame} (h : fr.WireRange) (hid : fr.names id) :
    id ≤ maxVarint := by
  cases fr with
  | stream fr => exact hid ▸ h.streamId
  | rstStream fr | stopSending fr | maxStreamData fr => exact hid ▸ h.1
  | _ => cases hid

theorem Step.wideUnused {ops : List Op} {op : Op} (hreach : Reachable conn)
    (hstep : Step ops conn op conn') (hproper : op.Proper) (h : WideUnused conn) :
    WideUnused conn' := by
  have hserver : conn'.server = conn.server :=
    (Step.changes hreach.wellFormed hstep).keeps (fun c => c.server = conn.server)
      (fun _ _ _ _ hP hc => hc.server.trans hP) rfl
  intro id hwide hlt hremote hused
  rw [connLocalStream_congr hserver] at hremote
  rcases hstep.usedRemote hreach hremote hused with hold | hnames
  · exact h id hwide hlt hremote hold
  · refine Nat.not_lt_of_le ?_ hwide
    cases op with
    | recvFrame _ fr | recvDelayedHandshakeFrame _ fr | recvHandshakeFrame _ _ fr =>
      exact hproper.names_le hnames
    | _ => cases hnames

/-- `ngtcp2_idtr_is_open` tells the used IDs. -/
theorem WideUnused.isOpen (h : WideUnused conn) (hids : IdsInv conn) (hle : id ≤ maxVarint)
    (hremote : connLocalStream conn id = false) :
    idtrIsOpen (conn.ids (bidiStream id)).remoteIdtr id = true ↔ Used conn id := by
  -- An ID of the same type that is not used is behind this one.
  have hwide : ∃ n, idFromStreamId id ≤ n ∧ InGap (conn.ids (bidiStream id)).remoteIdtr.gap n := by
    have hlocal : connLocalStream conn (id + 4 * (maxVarint + 1)) = false := by
      rw [← hremote]
      unfold connLocalStream
      have hmod : (id + 4 * (maxVarint + 1)) % 2 = id % 2 := by omega
      rw [hmod]
    have hbidi : bidiStream (id + 4 * (maxVarint + 1)) = bidiStream id := by
      unfold bidiStream
      have hmod : (id + 4 * (maxVarint + 1)) / 2 % 2 = id / 2 % 2 := by omega
      rw [hmod]
    have hnot := h (id + 4 * (maxVarint + 1)) (by omega) (by
      unfold maxVarint at hle ⊢
      unfold uint64Max
      omega) hlocal
    unfold Used at hnot
    rw [hlocal, if_neg Bool.false_ne_true, hbidi, not_not] at hnot
    refine ⟨_, ?_, hnot⟩
    unfold idFromStreamId
    omega
  unfold Used
  rw [hremote, if_neg Bool.false_ne_true]
  exact idtrIsOpenLoop_iff (hids.sorted _) hwide

theorem ended_iff_used (hids : IdsInv conn) (hnone : conn.strms id = none)
    (hremote : connLocalStream conn id = false) : ended conn id = true ↔ Used conn id := by
  unfold ended
  rw [hnone, hremote, Bool.false_or, Option.isNone_none, Bool.true_and]
  constructor
  · intro hopen
    exact used_of_idtrOpen_none hids hremote (Option.isNone_iff_eq_none.mp hopen)
  · intro hused
    cases ho : idtrOpen (conn.ids (bidiStream id)).remoteIdtr id with
    | none => rfl
    | some idtr => exact absurd hused (not_used_of_idtrOpen hids hremote ho)

/-! ## Credit -/

theorem setIds_maxRxOffset (conn : Conn) (bidi : Bool) (ids : StreamIds) :
    (conn.setIds bidi ids).maxRxOffset = conn.maxRxOffset ∧
      (conn.setIds bidi ids).unsentMaxRxOffset = conn.unsentMaxRxOffset := by
  cases bidi <;> exact ⟨rfl, rfl⟩

/-- The credit of the connection moves only where it is announced or extended. -/
theorem Change.maxRxOffset {k : Kind} (h : Change H k conn conn') (hk : k ≠ .announce)
    (hext : k ≠ .extend) :
    conn'.maxRxOffset = conn.maxRxOffset ∧ conn'.unsentMaxRxOffset = conn.unsentMaxRxOffset := by
  cases h with
  | idle same => exact ⟨same.maxRxOffset, same.unsentMaxRxOffset⟩
  | announce | announceStrm => exact absurd rfl hk
  | extend | extendConn => exact absurd rfl hext
  | openRemote => exact setIds_maxRxOffset _ _ _
  | openLocal bidi => exact setIds_maxRxOffset _ _ _
  | consume => exact setIds_maxRxOffset _ _ _
  | close => exact setIds_maxRxOffset _ _ _
  | raiseIds => exact setIds_maxRxOffset _ _ _
  | tx =>
    unfold chargeStream trackStreamPkt
    dsimp only
    split <;> exact ⟨rfl, rfl⟩
  | _ => exact ⟨rfl, rfl⟩

theorem Changes.maxRxOffset (h : Changes H K conn conn')
    (hK : ∀ k ∈ K, k ≠ .announce ∧ k ≠ .extend) :
    conn'.maxRxOffset = conn.maxRxOffset ∧ conn'.unsentMaxRxOffset = conn.unsentMaxRxOffset :=
  h.keeps (fun c => c.maxRxOffset = conn.maxRxOffset ∧
    c.unsentMaxRxOffset = conn.unsentMaxRxOffset)
    (fun k hk _ _ hP hc => (hc.maxRxOffset (hK k hk).1 (hK k hk).2).imp
      (fun h => h.trans hP.1) fun h => h.trans hP.2) ⟨rfl, rfl⟩

theorem RxLimits.of_eq (h : RxLimits conn) (hrx : conn'.rxOffset = conn.rxOffset)
    (hmax : conn'.maxRxOffset = conn.maxRxOffset ∧
      conn'.unsentMaxRxOffset = conn.unsentMaxRxOffset) : RxLimits conn' := by
  constructor
  · rw [hrx, hmax.1]
    exact h.rx_le
  · rw [hmax.1, hmax.2]
    exact h.max_le
  · rw [hmax.2]
    exact h.unsent_le

theorem Change.rxLimits {k : Kind} (h : Change H k conn conn') (hk : k ≠ .rx)
    (hconsume : k ≠ .consume) (hext : k ≠ .extend) (hlimits : RxLimits conn) : RxLimits conn' := by
  have hrx := h.rxOffset hk hconsume
  by_cases hann : k = .announce
  · subst hann
    cases h with
    | announce ahead => exact ⟨Nat.le_trans hlimits.rx_le hlimits.max_le, Nat.le_refl _,
        hlimits.unsent_le⟩
    | announceStrm => exact hlimits.of_eq hrx ⟨rfl, rfl⟩
  · exact hlimits.of_eq hrx (h.maxRxOffset hann hext)

/-- The check of the connection's credit does not wrap. -/
theorem RxLimits.violated_iff (h : RxLimits conn) (datalen : Nat) :
    connMaxDataViolated conn datalen = true ↔ conn.maxRxOffset < conn.rxOffset + datalen := by
  have hmax : conn.maxRxOffset < 2 ^ 64 :=
    Nat.lt_of_le_of_lt (Nat.le_trans h.max_le h.unsent_le) (by decide)
  unfold connMaxDataViolated
  rw [subU64_of_le h.rx_le hmax, decide_eq_true_eq]
  have hle := h.rx_le
  omega

/-! ## What is charged -/

theorem ChargedTo.same {n : Nat} (h : ChargedTo n strm) (hsame : SameBuf strm strm') :
    ChargedTo n strm' := by
  obtain ⟨hlast, hmax, hunsent⟩ := h.limits
  refine ⟨⟨?_, ?_, ?_⟩, ?_, fun hrst => ?_, hsame.shutRd h.shutRd⟩
  · rw [hsame.lastRxOffset]
    rcases hsame.max with heq | heq <;> omega
  · rcases hsame.max with heq | heq <;> rcases hsame.unsent with heq' | ⟨hle, -⟩ <;> omega
  · rcases hsame.unsent with heq | ⟨-, hle⟩ <;> omega
  · rw [hsame.lastRxOffset]
    exact h.last_le
  · rw [hsame.lastRxOffset]
    refine h.last_eq (Bool.eq_false_iff.mpr fun hold => ?_)
    exact Bool.false_ne_true (hrst.symm.trans (hsame.recvRst hold))

theorem Blank.chargedTo (h : Blank strm) : ChargedTo 0 strm := by
  have hmax := h.fresh.max_le
  refine ⟨⟨?_, ?_, h.unsent_le⟩, ?_, fun _ => h.fresh.last.symm, fun hrst => ?_⟩
  · rw [h.fresh.last]
    exact Nat.zero_le _
  · exact Nat.le_of_eq h.unsent.symm
  · exact Nat.le_of_eq h.fresh.last
  · rw [h.fresh.noRst] at hrst
    cases hrst

variable {l : List (Nat × Nat)}

theorem ChargedFor.aside (h : ChargedFor l conn) (haside : Aside conn conn')
    (hrx : conn'.rxOffset = conn.rxOffset) (hlimits : RxLimits conn')
    (hused : ∀ id, Used conn id → Used conn' id) : ChargedFor l conn' := by
  refine ⟨hrx.trans h.total, hlimits, ?_, ?_⟩
  · exact fun id hid hunused => h.unused id hid fun hu => hunused (hused id hu)
  · intro id strm hid hfind
    rcases haside.strms id strm hid hfind with ⟨strm₀, hold, hsame⟩ | ⟨hunused, hblank⟩
    · exact (h.live id strm₀ hid hold).same hsame
    · rw [h.unused id hid hunused]
      exact hblank.chargedTo

theorem Changes.chargedFor (h : Changes H K conn conn')
    (hK : ∀ k ∈ K, k ≠ .rx ∧ k ≠ .consume ∧ k ≠ .extend) (hids : IdsInv conn)
    (hc : ChargedFor l conn) : ChargedFor l conn' := by
  refine (h.keeps (fun c => IdsInv c ∧ ChargedFor l c) ?_ ⟨hids, hc⟩).2
  rintro k hk c c' ⟨hids, hc⟩ hch
  obtain ⟨hrx, hconsume, hext⟩ := hK k hk
  refine ⟨hch.idsInv hids, ?_⟩
  exact hc.aside (hch.aside hrx hext hids) (hch.rxOffset hrx hconsume)
    (hch.rxLimits hrx hconsume hext hc.limits) fun id hused => hch.used hids hused

/-- A stream is charged for one more offset. -/
theorem ChargedFor.charge {n : Nat} (h : ChargedFor l conn)
    (hused : Used conn' id) (hmono : ∀ i, Used conn i → Used conn' i)
    (hrx : conn'.rxOffset = conn.rxOffset + (n - Tally.highest l id)) (hlimits : RxLimits conn')
    (hothers : ∀ i strm, i ≠ 0 → i ≠ id → conn'.strms i = some strm → conn.strms i = some strm)
    (hstrm : ∀ strm, conn'.strms id = some strm →
      ChargedTo (max (Tally.highest l id) n) strm) : ChargedFor (l ++ [(id, n)]) conn' := by
  refine ⟨?_, hlimits, ?_, ?_⟩
  · rw [Tally.total_snoc, hrx, h.total]
  · intro i hi hunused
    have hne : ¬id = i := fun heq => hunused (heq ▸ hused)
    rw [Tally.highest_snoc, if_neg hne]
    exact h.unused i hi fun hu => hunused (hmono i hu)
  · intro i strm hi hfind
    rw [Tally.highest_snoc]
    by_cases heq : id = i
    · subst heq
      rw [if_pos rfl]
      exact hstrm strm hfind
    · rw [if_neg heq]
      exact h.live i strm hi (hothers i strm hi (Ne.symm heq) hfind)

theorem connFindOrOpenStream_credit {r : Except Err (Option Strm)}
    (h : connFindOrOpenStream conn id = (r, conn₁)) : conn₁.rxOffset = conn.rxOffset ∧
      conn₁.maxRxOffset = conn.maxRxOffset ∧
      conn₁.unsentMaxRxOffset = conn.unsentMaxRxOffset := by
  cases hfind : conn.strms id with
  | some strm =>
    rw [connFindOrOpenStream_find hfind] at h
    obtain ⟨-, rfl⟩ := Prod.mk.inj h
    exact ⟨rfl, rfl, rfl⟩
  | none =>
    by_cases hlocal : connLocalStream conn id = true
    · rw [connFindOrOpenStream_closed hfind (.inl hlocal)] at h
      obtain ⟨-, rfl⟩ := Prod.mk.inj h
      exact ⟨rfl, rfl, rfl⟩
    cases ho : idtrOpen (conn.ids (bidiStream id)).remoteIdtr id with
    | none =>
      rw [connFindOrOpenStream_closed hfind (.inr ho)] at h
      obtain ⟨-, rfl⟩ := Prod.mk.inj h
      exact ⟨rfl, rfl, rfl⟩
    | some idtr =>
      rw [connFindOrOpenStream_open hfind (Bool.eq_false_iff.mpr hlocal) ho] at h
      obtain ⟨-, rfl⟩ := Prod.mk.inj h
      exact ⟨setIds_rxOffset _ _ _, setIds_maxRxOffset _ _ _⟩

/-- A stream that is not over is found or opened. -/
theorem found_of_not_ended (h : ended conn id = false) :
    ∃ strm conn₁, connFindOrOpenStream conn id = (.ok (some strm), conn₁) := by
  cases hfind : conn.strms id with
  | some strm => exact ⟨_, _, connFindOrOpenStream_find hfind⟩
  | none =>
    unfold ended at h
    rw [hfind, Option.isNone_none, Bool.true_and, Bool.or_eq_false_iff] at h
    obtain ⟨idtr, ho⟩ := Option.isSome_iff_exists.mp (Option.isNone_eq_false_iff.mp h.2)
    exact ⟨_, _, connFindOrOpenStream_open hfind h.1 ho⟩

theorem Changes.usedMono (h : Changes H K conn conn') (hids : IdsInv conn) (hused : Used conn id) :
    Used conn' id :=
  (h.keeps (fun c => IdsInv c ∧ Used c id)
    (fun _ _ _ _ hP hc => ⟨hc.idsInv hP.1, hc.used hP.1 hP.2⟩) ⟨hids, hused⟩).2

/-- The IDs that the peer has used are the same. -/
structure SameRemote (conn conn' : Conn) : Prop where
  server : conn'.server = conn.server
  remoteIdtr : ∀ bidi, (conn'.ids bidi).remoteIdtr = (conn.ids bidi).remoteIdtr

theorem SameRemote.used (h : SameRemote conn conn') (hremote : connLocalStream conn id = false) :
    Used conn' id ↔ Used conn id := by
  unfold Used
  rw [connLocalStream_congr h.server, hremote, h.remoteIdtr]
  exact Iff.rfl

/-- A stream that is found was used, one that is opened is used now. -/
theorem found_used (hc : StrmsUsed conn) (hid : id ≠ 0)
    (h : connFindOrOpenStream conn id = (.ok (some strm), conn₁)) :
    Used conn id ∨ (connLocalStream conn₁ id = false ∧ Used conn₁ id) := by
  cases hfind : conn.strms id with
  | some strm => exact .inl (hc.live id hid (by rw [hfind]; rfl))
  | none =>
    by_cases hlocal : connLocalStream conn id = true
    · rw [connFindOrOpenStream_closed hfind (.inl hlocal)] at h
      cases h
    have hremote : connLocalStream conn id = false := Bool.eq_false_iff.mpr hlocal
    cases ho : idtrOpen (conn.ids (bidiStream id)).remoteIdtr id with
    | none =>
      rw [connFindOrOpenStream_closed hfind (.inr ho)] at h
      cases h
    | some idtr =>
      rw [connFindOrOpenStream_open hfind hremote ho] at h
      obtain ⟨-, rfl⟩ := Prod.mk.inj h
      refine .inr ⟨?_, (openRemote_usedId hc.ids hremote ho id).mpr (.inr rfl)⟩
      have hserver : (openRemote conn id idtr).server = conn.server := Conn.setIds_server _ _ _
      rw [connLocalStream_congr hserver]
      exact hremote

theorem ChargedTo.received {n : Nat} {w : Nat → UInt8} {fr : StreamFrame} {evs : List Event}
    (h : ChargedTo n strm) (hrec : Received w strm strm' fr evs)
    (hend : fr.endOffset ≤ strm.maxRxOffset) : ChargedTo (max n fr.endOffset) strm' := by
  have hlast : strm'.lastRxOffset = max strm.lastRxOffset fr.endOffset := by rw [hrec.same]
  have hmax : strm'.maxRxOffset = strm.maxRxOffset := by rw [hrec.same]
  have hunsent : strm'.unsentMaxRxOffset = strm.unsentMaxRxOffset := by rw [hrec.same]
  have hrst : strm'.recvRst = strm.recvRst := by rw [hrec.same]
  have hshut : strm'.shutRd = (strm.shutRd || fr.fin) := by rw [hrec.same]
  have hle := h.last_le
  obtain ⟨hl, hm, hu⟩ := h.limits
  refine ⟨⟨?_, ?_, ?_⟩, ?_, fun hno => ?_, fun hyes => ?_⟩
  · rw [hlast, hmax]
    exact Nat.max_le.mpr ⟨hl, hend⟩
  · rw [hmax, hunsent]
    exact hm
  · rw [hunsent]
    exact hu
  · rw [hlast]
    omega
  · rw [hlast, h.last_eq (hrst.symm.trans hno)]
  · rw [hshut, h.shutRd (hrst.symm.trans hyes)]
    rfl

/-- An accepted STREAM frame. -/
theorem connRecvStream_chargedFor {fr : StreamFrame} (hc : Collects conn) (h : ChargedFor l conn)
    (hch : Changes H streamKinds conn conn') (hid : fr.streamId ≠ 0)
    (hok : connRecvStream conn fr = (.ok (), conn')) :
    ChargedFor (l ++ [(fr.streamId, fr.endOffset)].filter fun p => !ended conn p.1) conn' := by
  have hmax := hch.maxRxOffset (by simp [streamKinds])
  cases hended : ended conn fr.streamId with
  | true =>
    rw [List.filter_cons_of_neg (by simp [hended]), List.filter_nil, List.append_nil]
    unfold ended at hended
    simp only [Bool.and_eq_true, Bool.or_eq_true, Option.isNone_iff_eq_none] at hended
    rcases connRecvStream_closed hended.1 hended.2 with ⟨e, c, heq, -⟩ | heq
    · rw [heq] at hok
      cases hok
    · rw [heq] at hok
      obtain ⟨-, rfl⟩ := Prod.mk.inj hok
      exact h
  | false =>
    rw [List.filter_cons_of_pos (by simp [hended]), List.filter_nil]
    obtain ⟨strm₀, conn₀, hfound⟩ := found_of_not_ended hended
    cases connRecvStream_taken hc hid hok (not_fatal_ok _) with
    | aside _ _ refused => exact absurd hfound (refused rfl strm₀ conn₀)
    | taken conn₁ strm strm' w rxOffset fcStrms evs found aside keyed holding streamId find received
        writes _ charge end_le room total ends =>
      obtain ⟨hrx₁, hmax₁⟩ := connFindOrOpenStream_credit found
      have hused₁ := fun i => connFindOrOpenStream_used hc.used.ids found i
      have h₁ : ChargedFor l conn₁ :=
        h.aside aside hrx₁ (h.limits.of_eq hrx₁ hmax₁) fun i => (hused₁ i).1
      have hstrm := h₁.live _ _ hid find
      -- A stream that was reset takes no more bytes than before.
      have hnew : fr.endOffset - strm.lastRxOffset =
          fr.endOffset - Tally.highest l fr.streamId := by
        cases hrst : strm.recvRst with
        | false => rw [hstrm.last_eq hrst]
        | true =>
          have hle := received.shut_le (hstrm.shutRd hrst)
          have hle' := hstrm.last_le
          omega
      have hsid' : strm'.streamId = fr.streamId := by
        rw [received.same]
        exact streamId
      have hstrms : ∀ i, (frameDone (conn₁.setRxOffset rxOffset) fcStrms strm' evs).strms i =
          if i = fr.streamId then some strm' else conn₁.strms i := by
        intro i
        rw [← hsid']
        rfl
      have hends : ∀ i s, conn'.strms i = some s →
          (if i = fr.streamId then some strm' else conn₁.strms i) = some s := by
        intro i s hs
        rw [← hstrms]
        rcases ends with rfl | ⟨-, hclosed⟩
        · exact hs
        · rw [hclosed.strms] at hs
          change (if i = fr.streamId then none else _) = some s at hs
          split at hs
          · cases hs
          · exact hs
      have hsame : SameRemote conn₁ conn' := by
        rcases ends with rfl | ⟨-, hclosed⟩
        · exact ⟨rfl, fun _ => rfl⟩
        · exact ⟨hclosed.server, hclosed.remoteIdtr⟩
      have hused : Used conn' fr.streamId := by
        rcases found_used hc.used hid found with hold | ⟨hremote, hu⟩
        · exact hch.usedMono hc.used.ids hold
        · exact (hsame.used hremote).mpr hu
      have hmono : ∀ i, Used conn₁ i → Used conn' i := by
        intro i hu
        rcases (hused₁ i).2 hu with hold | rfl
        · exact hch.usedMono hc.used.ids hold
        · exact hused
      refine h₁.charge hused hmono ?_ ?_ ?_ ?_
      · rw [total, charge, hnew]
      · refine ⟨?_, ?_, ?_⟩
        · rw [total, charge, hmax.1, ← hmax₁.1]
          by_cases hlt : strm.lastRxOffset < fr.endOffset
          · refine Nat.le_of_not_lt fun hc => ?_
            have hviolated := (h₁.limits.violated_iff _).mpr hc
            rw [room hlt] at hviolated
            cases hviolated
          · rw [Nat.sub_eq_zero_of_le (Nat.le_of_not_lt hlt)]
            exact h₁.limits.rx_le
        · rw [hmax.1, hmax.2]
          exact h.limits.max_le
        · rw [hmax.2]
          exact h.limits.unsent_le
      · intro i s _ hne hs
        have hs := hends i s hs
        rwa [if_neg hne] at hs
      · intro s hs
        have hs := hends _ s hs
        rw [if_pos rfl] at hs
        obtain rfl := Option.some.inj hs
        exact hstrm.received received end_le

/-- How a RST_STREAM frame is accepted. -/
inductive RstTaken (conn : Conn) (fr : RstStreamFrame) (conn' : Conn) : Prop where
  | ignored (none : conn.strms fr.streamId = none) (used : Used conn fr.streamId)
      (same : conn' = conn)
  | consumed (none : conn.strms fr.streamId = none)
      (remote : connLocalStream conn fr.streamId = false) (unused : ¬Used conn fr.streamId)
      (room : connMaxDataViolated conn fr.finalOffset = false)
      (consumes : conn' = consumeId conn fr.streamId (conn.rxOffset + fr.finalOffset))
  | marked (strm : Strm) (find : conn.strms fr.streamId = some strm)
      (shut : strm.shutRd = true → strm.lastRxOffset = fr.finalOffset)
      (final : strm.lastRxOffset ≤ fr.finalOffset)
      (room : connMaxDataViolated conn (fr.finalOffset - strm.lastRxOffset) = false)
      (total : conn'.rxOffset = conn.rxOffset + (fr.finalOffset - strm.lastRxOffset))
      (strms : ∀ i s, conn'.strms i = some s →
        (if i = fr.streamId then some strm.markRecvRst else conn.strms i) = some s)

theorem connRecvRstStream_taken {fr : RstStreamFrame} (hc : StrmsUsed conn)
    (hwide : WideUnused conn) (hle : fr.streamId ≤ maxVarint)
    (hok : connRecvRstStream conn fr = (.ok (), conn')) :
    fr.streamId ≠ 0 ∧ connCheckStreamId conn fr.streamId = none ∧ RstTaken conn fr conn' := by
  unfold connRecvRstStream at hok
  split at hok
  · cases hok
  next hid =>
  split at hok
  · cases hok
  next hcheck =>
  refine ⟨hid, hcheck, ?_⟩
  dsimp only at hok
  cases hfind : conn.strms fr.streamId with
  | none =>
    rw [hfind] at hok
    dsimp only at hok
    cases hlocal : connLocalStream conn fr.streamId with
    | true =>
      rw [hlocal, if_pos rfl] at hok
      have hused : Used conn fr.streamId := by
        unfold connCheckStreamId at hcheck
        unfold Used
        rw [hlocal, if_pos rfl]
        simpa [hlocal] using hcheck
      split at hok
      · cases hok
      · exact .ignored hfind hused (Prod.mk.inj hok).2.symm
    | false =>
      rw [hlocal, if_neg Bool.false_ne_true] at hok
      have hopen := hwide.isOpen hc.ids hle hlocal
      split at hok
      · next hisopen => exact .ignored hfind (hopen.mp hisopen) (Prod.mk.inj hok).2.symm
      next hclosed =>
      have hunused : ¬Used conn fr.streamId := fun hu => hclosed (hopen.mpr hu)
      split at hok
      · cases hok
      next hroom =>
      rw [not_or] at hroom
      cases ho : idtrOpen (conn.ids (bidiStream fr.streamId)).remoteIdtr fr.streamId with
      | none => exact absurd (used_of_idtrOpen_none hc.ids hlocal ho) hunused
      | some idtr =>
        rw [ho] at hok
        dsimp only at hok
        rw [setIds_rxOffset] at hok
        obtain ⟨-, hconn⟩ := Prod.mk.inj hok
        refine .consumed hfind hlocal hunused (by simpa using hroom.2) ?_
        rw [consumeId_some _ ho]
        exact hconn.symm
  | some strm =>
    rw [hfind] at hok
    dsimp only at hok
    split at hok
    · cases hok
    next hshut =>
    split at hok
    · cases hok
    next hunshut =>
    split at hok
    · cases hok
    next hroom =>
    rw [not_or] at hroom
    have hsid := hc.keyed _ _ hfind
    have hfinal : strm.lastRxOffset ≤ fr.finalOffset := by
      cases hrd : strm.shutRd with
      | true => exact Nat.le_of_eq (by simpa [hrd] using hshut)
      | false => simpa [hrd] using hunshut
    have hclose : Changes [] [.close, .idle] _ conn' :=
      ngtcp2ConnCloseStreamIfShutRdwr_changes (setStrm_find _ strm.markRecvRst) hok
        (not_fatal_ok _)
    refine .marked strm hfind (fun hrd => by simpa [hrd] using hshut) hfinal
      (by simpa using hroom.2) (hclose.rxOffset (by simp)) fun i s hs => ?_
    rw [← hsid]
    rcases (closeIfShut_ends (setStrm_find _ strm.markRecvRst) hok (not_fatal_ok _)).2 with
      rfl | ⟨-, hclosed⟩
    · exact hs
    · rw [hclosed.strms] at hs
      change (if i = strm.streamId then none else _) = some s at hs
      split at hs
      · cases hs
      · exact hs

/-- An accepted RST_STREAM frame. -/
theorem connRecvRstStream_chargedFor {fr : RstStreamFrame} (hc : StrmsUsed conn)
    (hwide : WideUnused conn) (h : ChargedFor l conn) (hle : fr.streamId ≤ maxVarint)
    (hch : Changes H [.consume, .rx, .close, .idle] conn conn')
    (hok : connRecvRstStream conn fr = (.ok (), conn')) :
    ChargedFor (l ++ (Frame.rstStream fr).offsets.filter fun p => !ended conn p.1) conn' := by
  have hmax := hch.maxRxOffset (by simp)
  have hmono : ∀ i, Used conn i → Used conn' i := fun i hu => hch.usedMono hc.ids hu
  have hlimits : ∀ {n : Nat}, connMaxDataViolated conn n = false →
      conn'.rxOffset = conn.rxOffset + n → RxLimits conn' := by
    intro n hroom hrx
    refine ⟨?_, ?_, ?_⟩
    · rw [hrx, hmax.1]
      refine Nat.le_of_not_lt fun hlt => ?_
      rw [(h.limits.violated_iff n).mpr hlt] at hroom
      cases hroom
    · rw [hmax.1, hmax.2]
      exact h.limits.max_le
    · rw [hmax.2]
      exact h.limits.unsent_le
  obtain ⟨hid, -, htaken⟩ := connRecvRstStream_taken hc hwide hle hok
  have hone : (Frame.rstStream fr).offsets = [(fr.streamId, fr.finalOffset)] := if_neg hid
  rw [hone]
  have hcounts : ended conn fr.streamId = false →
      ([(fr.streamId, fr.finalOffset)].filter fun p => !ended conn p.1) =
        [(fr.streamId, fr.finalOffset)] := by
    intro hended
    rw [List.filter_cons_of_pos (by simp [hended]), List.filter_nil]
  cases htaken with
  | ignored none used same =>
    have hended : ended conn fr.streamId = true := by
      cases hlocal : connLocalStream conn fr.streamId with
      | true =>
        unfold ended
        rw [none, hlocal]
        rfl
      | false => exact (ended_iff_used hc.ids none hlocal).mpr used
    rw [List.filter_cons_of_neg (by simp [hended]), List.filter_nil, List.append_nil, same]
    exact h
  | consumed none remote unused room consumes =>
    have hused := ended_iff_used hc.ids none remote
    have hrx : conn'.rxOffset = conn.rxOffset + fr.finalOffset := by rw [consumes]; rfl
    have hstrms : conn'.strms = conn.strms := by
      rw [consumes]
      exact consumeId_strms _ _ _
    rw [hcounts (Bool.eq_false_iff.mpr fun he => unused (hused.mp he))]
    refine h.charge ?_ hmono ?_ (hlimits room hrx) ?_ ?_
    · rw [consumes]
      exact (consumeId_used hc.ids remote _).mpr (.inr rfl)
    · rw [hrx, h.unused _ hid unused, Nat.sub_zero]
    · intro i s _ _ hs
      rw [← hstrms]
      exact hs
    · intro s hs
      rw [hstrms, none] at hs
      cases hs
  | marked strm find shut final room total strms =>
    have hended : ended conn fr.streamId = false := by
      unfold ended
      rw [find]
      rfl
    have hstrm := h.live _ _ hid find
    -- A stream that was reset before was charged up to its end.
    have hnew : fr.finalOffset - strm.lastRxOffset =
        fr.finalOffset - Tally.highest l fr.streamId := by
      cases hrst : strm.recvRst with
      | false => rw [hstrm.last_eq hrst]
      | true =>
        have hlast := shut (hstrm.shutRd hrst)
        have hle' := hstrm.last_le
        omega
    rw [hcounts hended]
    refine h.charge (hmono _ (hc.live _ hid (by rw [find]; rfl))) hmono ?_
      (hlimits room total) ?_ ?_
    · rw [total, hnew]
    · intro i s _ hne hs
      have hs := strms i s hs
      rwa [if_neg hne] at hs
    · intro s hs
      have hs := strms _ s hs
      rw [if_pos rfl] at hs
      obtain rfl := Option.some.inj hs
      obtain ⟨hlast, hmax, hunsent⟩ := hstrm.limits
      exact ⟨⟨hlast, hmax, hunsent⟩, Nat.le_trans final (Nat.le_max_right _ _), nofun,
        fun _ => rfl⟩

theorem extendMaxOffset_rxLimits (h : RxLimits conn) (datalen : Nat) :
    RxLimits (ngtcp2ConnExtendMaxOffset conn datalen) := by
  unfold ngtcp2ConnExtendMaxOffset
  split
  · exact ⟨h.rx_le, Nat.le_trans h.max_le h.unsent_le, Nat.le_refl _⟩
  · next hroom =>
    have hmax := h.max_le
    refine ⟨h.rx_le, ?_, ?_⟩
    · show conn.maxRxOffset ≤ conn.unsentMaxRxOffset + datalen
      omega
    · show conn.unsentMaxRxOffset + datalen ≤ maxVarint
      omega

/-- What a step receives is charged. -/
theorem Step.chargedFor {ops : List Op} {op : Op} (hreach : Reachable conn)
    (hstep : Step ops conn op conn') (hproper : op.Proper) (haccepted : op.accepted conn)
    (hc : Collects conn) (hwide : WideUnused conn) (h : ChargedFor l conn) :
    ChargedFor (l ++ counted conn op) conn' := by
  have hch := Step.changes hreach.wellFormed hstep
  have hnone : counted conn op = [] → ChargedFor l conn' →
      ChargedFor (l ++ counted conn op) conn' := by
    intro hnil h'
    rwa [hnil, List.append_nil]
  have hkinds : counted conn op = [] →
      (∀ k ∈ Kind.timeout :: op.kinds, k ≠ .rx ∧ k ≠ .consume ∧ k ≠ .extend) →
      ChargedFor (l ++ counted conn op) conn' :=
    fun hnil hK => hnone hnil (hch.chargedFor hK hc.used.ids h)
  have hmono : ∀ i, Used conn i → Used conn' i := fun i hu => hch.usedMono hc.used.ids hu
  have haside : Aside conn conn' → conn'.rxOffset = conn.rxOffset → RxLimits conn' →
      ChargedFor l conn' := fun has hrx hlimits => h.aside has hrx hlimits hmono
  have hzero : OnStrm 0 conn conn' → Changes (held conn) streamKinds conn conn' →
      ChargedFor l conn' := fun hon hch =>
    haside hon.aside hon.rxOffset
      (h.limits.of_eq hon.rxOffset (hch.maxRxOffset (by simp [streamKinds])))
  have hstream : ∀ {fr : StreamFrame}, connRecvStream conn fr = (.ok (), conn') →
      ChargedFor (l ++ (Frame.stream fr).offsets.filter fun p => !ended conn p.1) conn' := by
    intro fr hrun
    have hch : Changes (held conn) streamKinds conn conn' :=
      connRecvStream_changes hc.used.keyed hrun (not_fatal_ok _)
    by_cases hid : fr.streamId = 0
    · have hnil : (Frame.stream fr).offsets = [] := if_pos hid
      rw [hnil, List.filter_nil, List.append_nil]
      exact hzero (connRecvStream_zero hc.used hid hrun) hch
    · have hone : (Frame.stream fr).offsets = [(fr.streamId, fr.endOffset)] := if_neg hid
      rw [hone]
      exact connRecvStream_chargedFor hc h hch hid hrun
  obtain ⟨rv, hrun, hs⟩ := hstep
  have hrv := not_fatal_of_survives hs
  cases op with
  | recvFrame longForm fr =>
    have hok : ((Op.recvFrame longForm fr).run conn).1 = .ok () := haccepted
    obtain rfl : rv = .ok () := by rw [← hok, hrun]
    cases fr with
    | stream fr =>
      have hrun : (if fr.streamId = 0 ∧ longForm then (.error .proto, conn)
        else connRecvStream conn fr) = (.ok (), conn') := hrun
      split at hrun
      · cases hrun
      · exact hstream hrun
    | rstStream fr =>
      exact connRecvRstStream_chargedFor hc.used hwide h hproper.1
        (connRecvRstStream_changes (H := held conn) hc.used.keyed hrun hrv) hrun
    | stopSending fr =>
      refine hnone rfl ?_
      rcases connRecvStopSending_cases (H := []) hc.used.keyed hrun hrv with
        rfl | ⟨-, -, -, -, heq⟩ | ⟨-, -, hch⟩
      · exact h
      · have hrx : conn'.rxOffset = conn.rxOffset := by rw [heq]; rfl
        refine haside ((Aside.refl conn).congr ?_ ?_) hrx (h.limits.of_eq hrx ?_)
        · rw [heq]
          exact consumeId_strms _ _ _
        · rw [heq]
          exact consumeId_log _ _ _
        · rw [heq]
          exact setIds_maxRxOffset _ _ _
      · exact hch.chargedFor (by simp) hc.used.ids h
    | _ => exact hkinds rfl (by simp [Op.kinds, Frame.recvKinds, ackKinds])
  | recvDelayedHandshakeFrame type fr =>
    have hok : ((Op.recvDelayedHandshakeFrame type fr).run conn).1 = .ok () := haccepted
    obtain rfl : rv = .ok () := by rw [← hok, hrun]
    cases fr with
    | stream fr => exact hstream hrun
    | rstStream fr => cases hok
    | _ => exact hkinds rfl (by simp [Op.kinds, Frame.recvDelayedKinds, ackKinds])
  | recvHandshakeFrame type failed fr =>
    cases fr with
    | stream fr =>
      refine hnone rfl ?_
      obtain ⟨x, hrun, -⟩ := void_cases hrun
      have hon := connRecvHandshakeStream_onStrm hc.used.keyed hrun
      have hmax := hch.maxRxOffset (by simp [Op.kinds, Frame.recvHandshakeKinds])
      exact haside hon.aside hon.rxOffset (h.limits.of_eq hon.rxOffset hmax)
    | _ => exact hkinds rfl (by simp [Op.kinds, Frame.recvHandshakeKinds, ackKinds])
  | extendMaxStreamOffset streamId datalen =>
    refine hnone rfl ?_
    have hrun : ngtcp2ConnExtendMaxStreamOffset conn streamId datalen = (rv, conn') := hrun
    unfold ngtcp2ConnExtendMaxStreamOffset at hrun
    split at hrun
    · obtain ⟨-, rfl⟩ := Prod.mk.inj hrun
      exact h
    next strm hfind =>
    obtain ⟨-, hconn⟩ := Prod.mk.inj hrun
    have hsid := hc.used.keyed _ _ hfind
    obtain ⟨strm', fcStrms, heq, htx, -, -⟩ := connExtendMaxStreamOffset_cases conn strm datalen
    have hrx : conn'.rxOffset = conn.rxOffset := by rw [← hconn, heq]; rfl
    have hlimits := h.limits.of_eq hrx (by rw [← hconn, heq]; exact ⟨rfl, rfl⟩)
    by_cases hid : streamId = 0
    · refine haside (.of_same (fun id hne => ?_) fun _ => ?_) hrx hlimits
      · rw [← hconn, heq, Conn.setStrm_strms, htx.streamId, hsid, hid]
        exact if_neg hne
      · rw [← hconn, heq]
        rfl
    · refine haside ?_ hrx hlimits
      rw [← hconn]
      exact connExtendMaxStreamOffset_aside (hsid.symm ▸ hfind) hproper
        (hc.holding streamId strm hid hfind).unsent_le
  | extendMaxOffset datalen =>
    refine hnone rfl ?_
    obtain ⟨-, rfl⟩ := Prod.mk.inj hrun
    refine haside ((Aside.refl conn).congr ?_ ?_) ?_ (extendMaxOffset_rxLimits h.limits datalen)
    · unfold ngtcp2ConnExtendMaxOffset
      split <;> rfl
    · unfold ngtcp2ConnExtendMaxOffset
      split <;> rfl
    · unfold ngtcp2ConnExtendMaxOffset
      split <;> rfl
  | _ =>
    exact hkinds rfl (by simp [Op.kinds, shutdownKinds, streamTxKinds, writeKinds, resendKinds,
      closeKinds, retryKinds])

/-! ## Runs -/

/-- What holds at the end of a run. -/
structure ChargedRun (conn₀ : Conn) (ops : List Op) (conn : Conn) : Prop where
  reach : Reachable conn
  last : runOps conn₀ ops = conn
  collects : Collects conn
  wide : WideUnused conn
  charged : ChargedFor (countedAlong conn₀ ops) conn

theorem Initial.wideUnused (h : Initial conn) : WideUnused conn := by
  intro id hwide hlt hremote
  unfold Used
  rw [hremote, if_neg Bool.false_ne_true, not_not]
  have hgap : ∀ b, (conn.ids b).remoteIdtr.gap = [⟨0, uint64Max⟩] ∨
      (conn.ids b).remoteIdtr.gap = [⟨1, uint64Max⟩] := by
    intro b
    cases h <;> cases b
    · exact .inl rfl
    · exact .inl rfl
    · exact .inl rfl
    · exact .inr rfl
  unfold maxVarint at hwide
  rcases hgap (bidiStream id) with hgap | hgap <;> rw [hgap, inGap_cons, mem_mk] <;>
    exact .inl ⟨by unfold idFromStreamId; omega, by unfold idFromStreamId; omega⟩

theorem Initial.chargedFor (h : Initial conn) : ChargedFor [] conn := by
  have hnew : ∃ n : UInt32, conn.rxOffset = 0 ∧ conn.maxRxOffset = n.toNat ∧
      conn.unsentMaxRxOffset = n.toNat := by
    cases h <;> exact ⟨_, rfl, rfl, rfl⟩
  obtain ⟨n, hrx, hmax, hunsent⟩ := hnew
  have hn : n.toNat ≤ maxVarint := Nat.le_of_lt (Nat.lt_trans n.toNat_lt (by decide))
  refine ⟨hrx, ⟨?_, ?_, ?_⟩, fun _ _ _ => rfl, fun id strm hid hfind => ?_⟩
  · rw [hrx]
    exact Nat.zero_le _
  · rw [hmax, hunsent]
  · rw [hunsent]
    exact hn
  · have hnone : conn.strms id = none := by cases h <;> exact if_neg hid
    rw [hnone] at hfind
    cases hfind

/-- The runs in which the processed frames are accepted. -/
def AcceptedRun : Conn → List Op → Conn → Prop :=
  Runs.Run (Runs.Guarded Step fun _ conn op => op.Proper ∧ op.accepted conn)

theorem Initial.chargedRun {conn₀ : Conn} {ops : List Op} (init : Initial conn₀)
    (hrun : AcceptedRun conn₀ ops conn) : ChargedRun conn₀ ops conn := by
  refine hrun.invariant (ChargedRun conn₀)
    ⟨init.reachable, rfl, collects_of_run init .nil, init.wideUnused, init.chargedFor⟩ ?_
  rintro ops conn₁ op conn₂ ⟨hreach, rfl, hc, hwide, hcharged⟩ ⟨hstep, hproper, haccepted⟩
  refine ⟨hreach.step hstep, ?_, hstep.collects hreach hproper.sized hc,
    hstep.wideUnused hreach hproper hwide, ?_⟩
  · obtain ⟨rv, hop, -⟩ := hstep
    rw [runOps, List.foldl_append]
    exact congrArg Prod.snd hop
  · rw [countedAlong_snoc]
    exact hstep.chargedFor hreach hproper haccepted hc hwide hcharged

/-- The connection was charged for the highest offset of each stream, and it and its streams
stay within their credit. -/
theorem rxOffset_exact {conn₀ : Conn} {ops : List Op} (init : Initial conn₀)
    (hrun : AcceptedRun conn₀ ops conn) :
    conn.rxOffset = Tally.total (countedAlong conn₀ ops) ∧ RxLimits conn ∧
      (∀ id strm, id ≠ 0 → conn.strms id = some strm → StrmLimits strm) ∧
      (∀ datalen, connMaxDataViolated conn datalen = true ↔
        conn.maxRxOffset < conn.rxOffset + datalen) ∧
      (∀ fr strm, conn.strms fr.streamId = some strm →
        (connRecvRstStream conn fr).1 = .ok () → strm.lastRxOffset ≤ fr.finalOffset) := by
  obtain ⟨-, -, -, -, hcharged⟩ := init.chargedRun hrun
  refine ⟨hcharged.total, hcharged.limits, fun id strm hid hfind => ?_,
    hcharged.limits.violated_iff, fun fr strm hfind hok => ?_⟩
  · exact (hcharged.live id strm hid hfind).limits
  · unfold connRecvRstStream at hok
    split at hok
    · cases hok
    split at hok
    · cases hok
    rw [hfind] at hok
    dsimp only at hok
    split at hok
    · cases hok
    next hshut =>
    split at hok
    · cases hok
    next hunshut =>
    cases hrd : strm.shutRd with
    | true => exact Nat.le_of_eq (by simpa [hrd] using hshut)
    | false => simpa [hrd] using hunshut

end

/-- RST_STREAM, then data of the same stream. -/
def resetFirstOps : List Op :=
  [.recvFrame false (.rstStream ⟨4, 0, 2⟩), .recvFrame false (.stream ⟨4, 0, [1, 2, 3], false⟩)]

theorem resetFirst_run :
    AcceptedRun smallServer resetFirstOps (runOps smallServer resetFirstOps) :=
  (Runs.Run.nil.snoc ⟨⟨_, rfl, rfl⟩, ⟨by decide, by decide, by decide⟩, by exact rfl⟩).snoc
    ⟨⟨_, rfl, rfl⟩, ⟨by decide, by decide, by decide⟩, by exact rfl⟩

/-- The data is accepted and not charged. -/
theorem rxOffset_resetFirst :
    AcceptedRun smallServer resetFirstOps (runOps smallServer resetFirstOps) ∧
      (runOps smallServer resetFirstOps).rxOffset = 2 ∧
      Tally.total (resetFirstOps.flatMap Op.offsets) = 3 :=
  ⟨resetFirst_run, rfl, by decide⟩

/-- Two streams, one of them reset. -/
def resetAndDataOps : List Op :=
  [.recvFrame false (.stream ⟨4, 0, [1, 2, 3], false⟩), .recvFrame false (.rstStream ⟨4, 0, 5⟩),
    .recvFrame false (.stream ⟨8, 2, [7], false⟩)]

theorem resetAndData_run :
    AcceptedRun smallServer resetAndDataOps (runOps smallServer resetAndDataOps) :=
  ((Runs.Run.nil.snoc ⟨⟨_, rfl, rfl⟩, ⟨by decide, by decide, by decide⟩, by exact rfl⟩).snoc
    ⟨⟨_, rfl, rfl⟩, ⟨by decide, by decide, by decide⟩, by exact rfl⟩).snoc
    ⟨⟨_, rfl, rfl⟩, ⟨by decide, by decide, by decide⟩, by exact rfl⟩

theorem rxOffset_exact_resetAndData :
    (runOps smallServer resetAndDataOps).rxOffset =
      Tally.total (countedAlong smallServer resetAndDataOps) ∧
    Tally.total (countedAlong smallServer resetAndDataOps) = 8 :=
  ⟨(rxOffset_exact (.server ..) resetAndData_run).1, by decide⟩

end Ngtcp2
