import Polygon.CreditLimits
import Polygon.Unauthenticated

/-!
# No endpoint is blamed

What one endpoint is charged for by the other is no more than it has sent, and that is within the
credit that was announced to it. So a frame of an endpoint that keeps to its limits is never
refused for a stream ID, and for its offsets only where the stream was reset before.
-/
namespace Ngtcp2

/-- The errors for which the frame of a stream is to blame: a stream that may not be opened or
used, too many bytes, and an end in another place. -/
def blameErrs : List Err := [.streamId, .streamState, .flowControl, .finalOffset, .proto]

/-- A stream that was reset and is still there. -/
def ResetLeft (conn : Conn) (id : Nat) : Prop :=
  ∃ strm, conn.strms id = some strm ∧ strm.recvRst = true

/-- The result is none of these errors, but for those of a stream that was reset before. -/
def Blameless (conn : Conn) (id : Nat) (r : Except Err Unit) : Prop :=
  ∀ e ∈ blameErrs, r = .error e → (e = .flowControl ∨ e = .finalOffset) ∧ ResetLeft conn id

/-- The receiver has room for so many bytes of the stream. -/
structure Room (l : List (Nat × Nat)) (conn : Conn) (id n : Nat) : Prop where
  within : Within conn id n
  total : Tally.total (l ++ [(id, n)]) ≤ conn.maxRxOffset

/-- What was received of a stream of which `len` bytes are sent, unless it was reset. -/
structure EndsAt (conn : Conn) (id len : Nat) (strm : Strm) : Prop where
  last_le : strm.lastRxOffset ≤ len
  ending : strm.shutRd = true → strm.lastRxOffset = len ∨ ResetLeft conn id

section
variable {conn conn₁ peer : Conn} {strm : Strm} {id n len datalen : Nat} {l : List (Nat × Nat)}
  {r : Except Err Unit} {E : List Err} {s : List UInt8} {ended : Bool} {noRst : Prop}

theorem Erring.blameless (h : Erring E r) (hE : ∀ e ∈ blameErrs, e ∉ E) : Blameless conn id r :=
  fun e he hr => absurd (h e hr) (hE e he)

theorem blameless_error {e : Err} (h : e ∉ blameErrs) : Blameless conn id (.error e) := by
  intro e' he heq
  obtain rfl := Except.error.inj heq
  exact absurd he h

theorem blameless_ok : Blameless conn id (.ok ()) := by
  intro e _ heq
  cases heq

theorem blameless_reset {e : Err} (he : e = .flowControl ∨ e = .finalOffset)
    (h : ResetLeft conn id) : Blameless conn id (.error e) := by
  intro e' _ heq
  obtain rfl := Except.error.inj heq
  exact ⟨he, h⟩

/-! ## Room for what is sent -/

/-- The connection has room where the stream goes up to its share. -/
theorem Room.unviolated (h : Room l conn id n) (hcharged : ChargedFor l conn)
    (hrx : conn₁.rxOffset = conn.rxOffset) (hmax : conn₁.maxRxOffset = conn.maxRxOffset)
    (hle : datalen ≤ n - Tally.highest l id) : connMaxDataViolated conn₁ datalen = false := by
  have hsame : connMaxDataViolated conn₁ datalen = connMaxDataViolated conn datalen := by
    unfold connMaxDataViolated
    rw [hrx, hmax]
  rw [hsame]
  refine Bool.eq_false_iff.mpr fun hviolated => ?_
  have hlt := (hcharged.limits.violated_iff _).mp hviolated
  have htotal := h.total
  rw [Tally.total_snoc, ← hcharged.total] at htotal
  omega

/-- There is no room beyond the offsets that fit into a frame. -/
theorem Room.le_maxVarint (h : Room l conn id n) (hcharged : ChargedFor l conn) : n ≤ maxVarint := by
  have hlast := Tally.highest_le_total (l ++ [(id, n)]) id
  rw [Tally.highest_snoc, if_pos rfl] at hlast
  have hlimits := hcharged.limits
  calc n ≤ max (Tally.highest l id) n := Nat.le_max_right _ _
    _ ≤ conn.maxRxOffset := Nat.le_trans hlast h.total
    _ ≤ maxVarint := Nat.le_trans hlimits.max_le hlimits.unsent_le

theorem Receives.endsAt (h : Receives id s ended noRst conn) (find : conn.strms id = some strm) :
    EndsAt conn id s.length strm := by
  have hstrm := h.live strm find
  refine ⟨hstrm.last_le, fun hshut => ?_⟩
  cases hrst : strm.recvRst with
  | true => exact .inr ⟨strm, find, hrst⟩
  | false => exact .inl (hstrm.ending hrst hshut).1

/-! ## STREAM frames -/

theorem connCheckStreamFrame_blameless {fr : StreamFrame} {e : Err}
    (hcheck : connCheckStreamId conn fr.streamId = none) (hid : fr.streamId ≠ 0)
    (hlocal : connLocalStream conn fr.streamId = true → bidiStream fr.streamId = false →
      fr.endOffset = 0)
    (hle : fr.endOffset ≤ maxVarint) (h : connCheckStreamFrame conn fr = some e) :
    e ∉ blameErrs := by
  unfold connCheckStreamFrame at h
  rw [hcheck, if_neg fun hzero => hid hzero.1] at h
  split at h
  · obtain rfl := Option.some.inj h
    decide
  dsimp only at h
  split at h
  · next huni =>
    obtain ⟨hbidi, hl, hne⟩ := huni
    exact absurd (hlocal hl (by simpa using hbidi)) hne
  split at h
  · next hlt =>
    unfold StreamFrame.endOffset at hle
    unfold subU64 maxVarint at hlt
    unfold maxVarint at hle
    omega
  · cases h

theorem connRecvStreamFin_blameless {fr : StreamFrame} (hfin : fr.fin = true)
    (hconv : Conveys s ended fr) (hends : EndsAt conn id s.length strm) (conn₁ : Conn) :
    Blameless conn id (connRecvStreamFin conn₁ strm fr).1 := by
  obtain ⟨-, hall⟩ := hconv.fin hfin
  have hlocal : ∀ {r : Except Err Unit}, Erring deliveryErrs r → Blameless conn id r :=
    fun h => h.blameless (by decide)
  unfold connRecvStreamFin
  dsimp only
  split
  · next hshut =>
    split
    · next hne =>
      refine blameless_reset (.inr rfl) ((hends.ending hshut).resolve_left fun hlast => hne ?_)
      rw [hlast, hall]
    · exact blameless_ok
  split
  · next hlt => exact absurd hends.last_le (Nat.not_le.mpr (hall ▸ hlt))
  split
  · exact hlocal (ngtcp2ConnCloseStreamIfShutRdwr_erring _ _ _)
  split
  · exact hlocal ((connCall_erring _ _).andThen fun _ _ =>
      ngtcp2ConnCloseStreamIfShutRdwr_erring _ _ _)
  · exact hlocal (connRecvStreamDeliver_erring _ _ _ _)

theorem connRecvStreamNoFin_blameless {fr : StreamFrame} (hconv : Conveys s ended fr)
    (hends : EndsAt conn id s.length strm) (conn₁ : Conn) :
    Blameless conn id (connRecvStreamNoFin conn₁ strm fr).1 := by
  unfold connRecvStreamNoFin
  split
  · next hpast =>
    obtain ⟨hshut, hlt⟩ := hpast
    refine blameless_reset (.inr rfl) ((hends.ending hshut).resolve_left fun hlast => ?_)
    exact absurd hconv.slice.end_le (Nat.not_le.mpr (hlast ▸ hlt))
  dsimp only
  split
  · exact blameless_ok
  split
  · exact blameless_ok
  · exact (connRecvStreamDeliver_erring _ _ _ _).blameless (by decide)

/-- A stream that takes the frame, in a connection with room for it. -/
theorem connRecvStream_found {fr : StreamFrame}
    (hfound : connFindOrOpenStream conn fr.streamId = (.ok (some strm), conn₁))
    (hcheck : ∀ e, connCheckStreamFrame conn fr = some e → e ∉ blameErrs)
    (hconv : Conveys s ended fr) (hends : EndsAt conn id s.length strm)
    (hstrm : fr.endOffset ≤ strm.maxRxOffset)
    (hroom : connMaxDataViolated conn₁ (fr.endOffset - strm.lastRxOffset) = false ∨
      ResetLeft conn id) :
    Blameless conn id (connRecvStream conn fr).1 := by
  have hmore : ∀ conn₂, Blameless conn id (if fr.fin = true then connRecvStreamFin conn₂ strm fr
      else connRecvStreamNoFin conn₂ strm fr).1 := by
    intro conn₂
    split
    · next hfin => exact connRecvStreamFin_blameless hfin hconv hends conn₂
    · exact connRecvStreamNoFin_blameless hconv hends conn₂
  unfold connRecvStream
  split
  · next e he => exact blameless_error (hcheck e he)
  rw [hfound, andThen_ok]
  dsimp only
  unfold connRecvStreamCharge
  rw [if_neg (Nat.not_lt.mpr hstrm)]
  dsimp only
  split
  · split
    · next hviolated =>
      exact blameless_reset (.inl rfl) (hroom.resolve_left (by rw [hviolated]; decide))
    · rw [andThen_ok]
      exact hmore _
  · rw [andThen_ok]
    exact hmore _

theorem connRecvStream_blameless {fr : StreamFrame} (hused : StrmsUsed conn)
    (hcharged : ChargedFor l conn) (hcheck : connCheckStreamId conn fr.streamId = none)
    (hid : fr.streamId ≠ 0) (hroom : Room l conn fr.streamId fr.endOffset)
    (hconv : Conveys s ended fr) (hrecv : Receives fr.streamId s ended noRst conn)
    (huni : connLocalStream conn fr.streamId = true → bidiStream fr.streamId = false → s = []) :
    Blameless conn fr.streamId (connRecvStream conn fr).1 := by
  have hfirst : ∀ e, connCheckStreamFrame conn fr = some e → e ∉ blameErrs := by
    intro e
    refine connCheckStreamFrame_blameless hcheck hid (fun hl hu => ?_) (hroom.le_maxVarint hcharged)
    obtain rfl := huni hl hu
    exact Nat.le_zero.mp hconv.slice.end_le
  cases hfind : conn.strms fr.streamId with
  | some strm =>
    refine connRecvStream_found (connFindOrOpenStream_find hfind) hfirst hconv
      (hrecv.endsAt hfind) (hroom.within.live strm hfind) ?_
    cases hrst : strm.recvRst with
    | true => exact .inr ⟨strm, hfind, hrst⟩
    | false =>
      have hlast := (hcharged.live _ strm hid hfind).last_eq hrst
      exact .inl (hroom.unviolated hcharged rfl rfl (by rw [hlast]))
  | none =>
    by_cases hold : UsedId conn fr.streamId
    · have hfound := connFindOrOpenStream_closed hfind hold
      unfold connRecvStream
      split
      · next e he => exact blameless_error (hfirst e he)
      · rw [hfound]
        exact blameless_ok
    unfold UsedId at hold
    rw [not_or] at hold
    have hremote : connLocalStream conn fr.streamId = false := Bool.eq_false_iff.mpr hold.1
    obtain ⟨idtr, hopen⟩ := Option.ne_none_iff_exists'.mp hold.2
    have hnew := not_used_of_idtrOpen hused.ids hremote hopen
    have hzero := hcharged.unused _ hid hnew
    have hsame : (openRemote conn fr.streamId idtr).rxOffset = conn.rxOffset ∧
        (openRemote conn fr.streamId idtr).maxRxOffset = conn.maxRxOffset := by
      unfold openRemote
      generalize bidiStream fr.streamId = b
      cases b <;> exact ⟨rfl, rfl⟩
    have hfresh : (openedStrm conn fr.streamId).maxRxOffset =
        conn.localSettings.maxStreamData.toNat := by
      unfold openedStrm
      dsimp only
      split <;> rfl
    have hlast := (openedStrm_fresh conn fr.streamId).last
    refine connRecvStream_found (connFindOrOpenStream_open hfind hremote hopen) hfirst hconv
      ⟨?_, fun hshut => ?_⟩ ?_ (.inl ?_)
    · rw [hlast]
      exact Nat.zero_le _
    · rw [(openedStrm_open conn fr.streamId).noShut] at hshut
      exact absurd hshut Bool.false_ne_true
    · rw [hfresh]
      exact hroom.within.fresh hnew
    · exact hroom.unviolated hcharged hsame.1 hsame.2 (by rw [hlast, hzero])

/-! ## Other frames of streams -/

theorem connRecvRstStream_blameless {fr : RstStreamFrame} (hcharged : ChargedFor l conn)
    (hids : IdsInv conn) (hwide : WideUnused conn) (hle : fr.streamId ≤ maxVarint)
    (hcheck : connCheckStreamId conn fr.streamId = none) (hid : fr.streamId ≠ 0)
    (hroom : Room l conn fr.streamId fr.finalOffset) (hfinal : fr.finalOffset = s.length)
    (hrecv : Receives fr.streamId s ended noRst conn)
    (huni : connLocalStream conn fr.streamId = true → bidiStream fr.streamId = false → s = []) :
    Blameless conn fr.streamId (connRecvRstStream conn fr).1 := by
  unfold connRecvRstStream
  rw [if_neg hid, hcheck]
  dsimp only
  cases hfind : conn.strms fr.streamId with
  | none =>
    dsimp only
    split
    · next hl =>
      split
      · next hne =>
        obtain rfl := huni hl (by simpa using hne.1)
        exact absurd hfinal hne.2
      · exact blameless_ok
    next hlocal =>
    have hremote : connLocalStream conn fr.streamId = false := Bool.eq_false_iff.mpr hlocal
    split
    · exact blameless_ok
    next hclosed =>
    have hnew : ¬Used conn fr.streamId := fun hu =>
      hclosed ((hwide.isOpen hids hle hremote).mpr hu)
    have hviolated : connMaxDataViolated conn fr.finalOffset = false :=
      hroom.unviolated hcharged rfl rfl (by rw [hcharged.unused _ hid hnew, Nat.sub_zero])
    rw [hviolated, if_neg]
    · exact blameless_ok
    · rintro (hlt | hc)
      · exact absurd hlt (Nat.not_lt.mpr (hroom.within.fresh hnew))
      · exact absurd hc Bool.false_ne_true
  | some strm =>
    have hends := hrecv.endsAt hfind
    dsimp only
    split
    · next hne =>
      refine blameless_reset (.inr rfl) ((hends.ending hne.1).resolve_left fun hlast => hne.2 ?_)
      rw [hlast, hfinal]
    split
    · next hlt => exact absurd hends.last_le (Nat.not_le.mpr (hfinal ▸ hlt.2))
    split
    · next hc =>
      cases hrst : strm.recvRst with
      | true => exact blameless_reset (.inl rfl) ⟨strm, hfind, hrst⟩
      | false =>
        have hlast := (hcharged.live _ strm hid hfind).last_eq hrst
        have hviolated : connMaxDataViolated conn (fr.finalOffset - strm.lastRxOffset) = false :=
          hroom.unviolated hcharged rfl rfl (by rw [hlast])
        rcases hc with hlt | hc
        · exact absurd hlt (Nat.not_lt.mpr (hroom.within.live strm hfind))
        · exact absurd (hviolated.symm.trans hc) Bool.false_ne_true
    · exact (ngtcp2ConnCloseStreamIfShutRdwr_erring _ _ _).blameless (by decide)

theorem connRecvStopSending_blameless {fr : StopSendingFrame} (hid : fr.streamId ≠ 0)
    (hcheck : connCheckStreamId conn fr.streamId = none) :
    Blameless conn fr.streamId (connRecvStopSending conn fr).1 := by
  unfold connRecvStopSending
  rw [if_neg hid, hcheck]
  dsimp only
  split
  · split
    · split <;> exact blameless_ok
    · exact blameless_ok
  · exact (ngtcp2ConnCloseStreamIfShutRdwr_erring _ _ _).blameless (by decide)

theorem connRecvMaxStreamData_blameless {fr : MaxStreamDataFrame}
    (hcheck : connCheckStreamId conn fr.streamId = none) :
    Blameless conn fr.streamId (connRecvMaxStreamData conn fr).1 := by
  have herrs : Erring deliveryErrs (connRecvMaxStreamData conn fr).1 := by
    unfold connRecvMaxStreamData
    rw [hcheck]
    refine (connFindOrOpenStream_erring conn fr.streamId).andThen fun strm conn => ?_
    cases strm <;> exact erring_ok _
  exact herrs.blameless (by decide)

/-- A stream that the peer uses passes the checks of stream IDs. -/
theorem connCheckStreamId_granted (hlocal : connLocalStream conn id = true → Used conn id)
    (hremote : connLocalStream conn id = false →
      id ≤ (conn.ids (bidiStream id)).maxRemoteStreamId) : connCheckStreamId conn id = none := by
  unfold connCheckStreamId
  dsimp only
  split
  · next hl =>
    have hused := hlocal hl
    unfold Used at hused
    rw [if_pos hl] at hused
    rw [if_neg (Nat.not_le.mpr hused)]
  · next hl => rw [if_neg (Nat.not_lt.mpr (hremote (Bool.eq_false_iff.mpr hl)))]

/-! ## Runs of both endpoints -/

variable {net₀ net : Network.Net Conn Frame} {ls : List (Bool × Op)} {ops : List Op} {op : Op}
  {conn₀ : Conn} {fr : Frame}

theorem FairExchange.sized (hrun : FairExchange net₀ ls net) : Exchange net₀ ls net :=
  Network.run_mono hrun (fun _ _ _ _ _ h => ⟨h.1, h.2.proper.sized⟩) (fun _ => rfl) fun _ => rfl

theorem mem_countedAlong {p : Nat × Nat} (h : p ∈ countedAlong conn₀ ops) :
    ∃ op ∈ ops, p ∈ op.offsets := by
  induction ops generalizing conn₀ with
  | nil => cases h
  | cons op ops ih =>
    rcases List.mem_append.mp h with h | h
    · exact ⟨op, List.mem_cons_self, (List.mem_filter.mp h).1⟩
    · obtain ⟨op', hop, hp⟩ := ih h
      exact ⟨op', List.mem_cons_of_mem _ hop, hp⟩

theorem Op.offsets_read {p : Nat × Nat} (h : p ∈ op.offsets) :
    ∃ fr ∈ op.readFrames, p ∈ fr.offsets := by
  cases op with
  | recvFrame longForm fr | recvDelayedHandshakeFrame type fr =>
    exact ⟨fr, List.mem_cons_self, h⟩
  | _ => cases h

theorem Frame.offsets_cases {p : Nat × Nat} (h : p ∈ fr.offsets) : p.1 ≠ 0 ∧
    ((∃ fr', fr = .stream fr' ∧ p = (fr'.streamId, fr'.endOffset)) ∨
      ∃ fr', fr = .rstStream fr' ∧ p = (fr'.streamId, fr'.finalOffset)) := by
  cases fr with
  | stream fr =>
    have h : p ∈ if fr.streamId = 0 then [] else [(fr.streamId, fr.endOffset)] := h
    split at h
    · cases h
    · next hid =>
      obtain rfl := List.mem_singleton.mp h
      exact ⟨hid, .inl ⟨fr, rfl, rfl⟩⟩
  | rstStream fr =>
    have h : p ∈ if fr.streamId = 0 then [] else [(fr.streamId, fr.finalOffset)] := h
    split at h
    · cases h
    · next hid =>
      obtain rfl := List.mem_singleton.mp h
      exact ⟨hid, .inr ⟨fr, rfl, rfl⟩⟩
  | _ => cases h

/-- How far the frames of an endpoint go in a stream. -/
theorem sent_offsets (hrun : FairExchange net₀ ls net) (hstart : Connected net₀) (side : Bool)
    (hkinds : LimitKinds (net₀.state side)) {fr : Frame} (hfr : fr ∈ net.sent side)
    {p : Nat × Nat} (hp : p ∈ fr.offsets) :
    p.1 ≠ 0 ∧ p.2 ≤ writtenLens (net₀.state side) (Network.own side ls) p.1 := by
  obtain ⟨hid, hcases⟩ := Frame.offsets_cases hp
  refine ⟨hid, ?_⟩
  rcases hcases with ⟨fr', rfl, rfl⟩ | ⟨fr', rfl, rfl⟩
  · exact ((sent_conveys hrun hstart side hid).2 _ hfr fr' rfl rfl).slice.end_le
  · exact Nat.le_of_eq (((fairExchange_backed hrun hstart side hkinds).2 _ hfr).2 hid).1

/-- All that an endpoint is charged for was sent by the other one. -/
theorem counted_sent (hrun : FairExchange net₀ ls net) (hstart : Connected net₀) (side : Bool)
    (hkinds : LimitKinds (net₀.state !side)) {p : Nat × Nat}
    (hp : p ∈ countedAlong (net₀.state side) (Network.own side ls)) :
    p.1 ≠ 0 ∧ p.2 ≤ writtenLens (net₀.state !side) (Network.own (!side) ls) p.1 := by
  obtain ⟨op, hop, hp⟩ := mem_countedAlong hp
  obtain ⟨fr, hfr, hp⟩ := Op.offsets_read hp
  exact sent_offsets hrun hstart (!side) hkinds (Network.run_reads hrun side hop hfr) hp

/-- What an endpoint is charged for, with what else was sent of a stream, is within what the other
endpoint has sent. -/
theorem total_le_sent (hrun : FairExchange net₀ ls net) (hstart : Connected net₀) (side : Bool)
    (hkinds : ∀ side, LimitKinds (net₀.state side)) (more : List (Nat × Nat))
    (hmore : ∀ p ∈ more,
      p.1 ≠ 0 ∧ p.2 ≤ writtenLens (net₀.state !side) (Network.own (!side) ls) p.1) :
    Tally.total (countedAlong (net₀.state side) (Network.own side ls) ++ more) ≤
      (net.state !side).txOffset := by
  obtain ⟨l, htotal, hzero, hlens⟩ :=
    (fairExchange_bounded hrun hstart (!side) (hkinds _)).total
  have hall : ∀ p ∈ countedAlong (net₀.state side) (Network.own side ls) ++ more,
      p.2 ≤ Tally.highest l p.1 := by
    intro p hp
    obtain ⟨hid, hle⟩ := (List.mem_append.mp hp).elim
      (counted_sent hrun hstart side (hkinds _)) (hmore p)
    rw [hlens _ hid]
    exact hle
  rw [htotal]
  exact Tally.total_mono (Tally.highest_le hall)

/-- An endpoint is charged for no more of a stream than the other one has sent of it. -/
theorem highest_le_sent (hrun : FairExchange net₀ ls net) (hstart : Connected net₀) (side : Bool)
    (hkinds : LimitKinds (net₀.state !side)) (id : Nat) :
    Tally.highest (countedAlong (net₀.state side) (Network.own side ls)) id ≤
      writtenLens (net₀.state !side) (Network.own (!side) ls) id :=
  Tally.highest_le (fun _ hp => (counted_sent hrun hstart side hkinds hp).2) id

theorem fairExchange_charged (hrun : FairExchange net₀ ls net) (hstart : Connected net₀)
    (side : Bool) (hkinds : LimitKinds (net₀.state side)) :
    ChargedRun (net₀.state side) (Network.own side ls) (net.state side) :=
  (hstart.initial side).chargedRun (fairExchange_backed hrun hstart side hkinds).1.run

/-- The endpoints keep their roles. -/
theorem fairExchange_server (hrun : FairExchange net₀ ls net) (hstart : Connected net₀)
    (side : Bool) : (net.state side).server = (net₀.state side).server := by
  refine ((Network.run_own hrun side).invariant (fun _ c => Reachable c ∧
    c.server = (net₀.state side).server) ⟨(hstart.initial side).reachable, rfl⟩ ?_).2
  rintro ops c op c' ⟨hreach, hserver⟩ ⟨⟨hstep, -⟩, -⟩
  exact ⟨hreach.step hstep, (hstep.server hreach).trans hserver⟩

end

/-! ## A client and a server -/

/-- The step is fair between endpoints with these settings. -/
def Op.fair (settings : Settings) (conn : Conn) (op : Op) : Bool :=
  (op.run conn).1.toBool && op.keepsLimits conn &&
    match op with
    | recvFrame _ (.stream fr) =>
      fr.streamId ≤ maxVarint && fr.offset ≤ maxVarint && fr.data.length ≤ maxVarint
    | recvFrame _ (.maxData n) => n ≤ maxVarint
    | recvFrame .. | recvDelayedHandshakeFrame .. | recvHandshakeFrame .. => false
    | extendMaxStreamOffset _ datalen => datalen ≤ maxVarint
    | setRemoteTransportParams _ params | setEarlyRemoteTransportParams params =>
      params.initialMaxStreamData.toNat ≤ settings.maxStreamData.toNat &&
        params.initialMaxData.toNat ≤ settings.maxData.toNat &&
        params.initialMaxStreamIdBidi.toNat ≤ settings.maxStreamIdBidi.toNat &&
        params.initialMaxStreamIdUni.toNat ≤ settings.maxStreamIdUni.toNat
    | _ => true

theorem Op.fair_spec {net₀ : Network.Net Conn Frame} {settings : Settings}
    (hset : ∀ side, (net₀.state side).localSettings = settings) (side : Bool) {conn : Conn}
    {op : Op} (h : op.fair settings conn = true) : Fair net₀ side conn op := by
  unfold Op.fair at h
  rw [Bool.and_eq_true, Bool.and_eq_true] at h
  obtain ⟨⟨hok, hkeeps⟩, hfit⟩ := h
  have haccepted : op.accepted conn := by
    have hrun : (op.run conn).1 = .ok () := by
      cases hr : (op.run conn).1 with
      | ok u => rfl
      | error e =>
        rw [hr] at hok
        exact absurd hok Bool.false_ne_true
    cases op with
    | recvFrame | recvDelayedHandshakeFrame | recvHandshakeFrame => exact hrun
    | _ => trivial
  refine ⟨?_, haccepted, hkeeps, ?_⟩
  · cases op with
    | recvFrame longForm fr =>
      cases fr with
      | stream fr =>
        simp only [Bool.and_eq_true, decide_eq_true_eq] at hfit
        exact ⟨hfit.1.1, hfit.1.2, hfit.2⟩
      | maxData n =>
        show n ≤ maxVarint
        exact of_decide_eq_true hfit
      | _ => exact absurd hfit Bool.false_ne_true
    | recvDelayedHandshakeFrame type fr | recvHandshakeFrame type failed fr =>
      exact absurd hfit Bool.false_ne_true
    | extendMaxStreamOffset streamId datalen =>
      show datalen ≤ maxVarint
      exact of_decide_eq_true hfit
    | _ => trivial
  · rw [hset]
    cases op with
    | setRemoteTransportParams exttype params | setEarlyRemoteTransportParams params =>
      simp only [Bool.and_eq_true, decide_eq_true_eq] at hfit
      exact ⟨hfit.1.1.1, hfit.1.1.2, hfit.1.2, hfit.2⟩
    | _ => trivial

/-- What a client and a server allow each other. -/
def fairSettings : Settings := ⟨100, 1000, 40, 42, 3⟩

/-- A new client and a new server, with limits for both types of streams. -/
def fairNet : Network.Net Conn Frame where
  state side := bif side then ngtcp2ConnClientNew (fun _ => 0) 1 1 quietCallbacks fairSettings
    else ngtcp2ConnServerNew (fun _ => 0) 1 1 quietCallbacks fairSettings
  sent _ := []

theorem fairNet_connected : Connected fairNet := by
  refine ⟨fun side => ?_, fun _ => rfl, rfl, rfl⟩
  cases side
  · exact .server ..
  · exact .client ..

theorem fairNet_limitKinds (side : Bool) : LimitKinds (fairNet.state side) := by
  refine ⟨fun bidi => ?_, fun id strm hid hfind _ => ?_⟩
  · cases side <;> cases bidi <;> exact .inl (by decide)
  · have hnone : (fairNet.state side).strms id = none := by cases side <;> exact if_neg hid
    cases hnone.symm.trans hfind

/-- The client writes to its stream. The server gets the end first, and gives more credit. -/
def fairSteps : List (Bool × Op) :=
  [(true, .setRemoteTransportParams .encryptedExtensions ⟨100, 1000, 40, 42, 3, 1, [1]⟩),
    (true, .setKeys .tx ⟨[2], [2]⟩), (true, .openBidiStream),
    (true, .writeStream 100 4 false [7, 8] 1), (true, .writeStream 100 4 true [9] 1),
    (false, .recvFrame false (.stream ⟨4, 2, [9], true⟩)),
    (false, .setRemoteTransportParams .clientHello ⟨100, 1000, 40, 42, 3, 1, [1]⟩),
    (false, .setKeys .tx ⟨[2], [2]⟩), (false, .handshakeCompleted),
    (false, .recvHandshakeDone .serverWaitHandshake (.ok ())),
    (false, .extendMaxOffset 600), (false, .writePkt 100 2),
    (true, .recvFrame false (.maxData 1600))]

theorem fairSteps_run : FairExchange fairNet fairSteps (fairSteps.foldl exchangeStep fairNet) :=
  exchange_allowed (fun side _ _ => Op.fair_spec (fun s => by cases s <;> rfl) side) (by decide)

/-- Both endpoints after these steps. -/
def fairEnd : Network.Net Conn Frame := fairSteps.foldl exchangeStep fairNet

end Ngtcp2
