import Polygon.Endpoints
import Polygon.PacketNumbers

/-!
# What a step sends and what it keeps of it

At most one packet is encrypted, and it is the one that is sent. A new entry of the retransmission
buffer holds frames of that packet under its number, the others are old ones.
-/
namespace Ngtcp2

/-- The entries of the packets that are not acknowledged, those of early data included. -/
def unacked (conn : Conn) : List RtbEntry := conn.rtb.head ++ conn.earlyRtb

/-- The entry holds frames of the packet with its number. -/
def OfPkt (ent : RtbEntry) (pkt : Pkt) : Prop :=
  pkt.hd.pktNum = ent.hd.pktNum ∧ ent.frc ⊆ pkt.frames

/-- The entry is one of these, some of whose frames may be gone, or it is that of the packet. -/
def Traced (ents : List RtbEntry) (pkt : Option Pkt) (ent : RtbEntry) : Prop :=
  (∃ old ∈ ents, old.hd.pktNum = ent.hd.pktNum ∧ ent.frc ⊆ old.frc) ∨
    ∃ p, pkt = some p ∧ OfPkt ent p

/-- The packet, if any, is the only one that was encrypted, and the new entries are its own. -/
structure EmittedOnly (conn : Conn) (pkt : Option Pkt) (conn' : Conn) : Prop where
  log : encrypted conn'.log = encrypted conn.log ++ (pkt.map (·.hd)).toList
  kept : ∀ ent ∈ unacked conn', Traced (unacked conn) pkt ent

/-- The packet that a writer returns. -/
def pktOf (r : Except Err (Option Pkt)) : Option Pkt := r.toOption.join

section
variable {conn conn₁ conn' : Conn} {ent ent' : RtbEntry} {ents : List RtbEntry} {pkt : Option Pkt}
  {p : Pkt} {hds : List PktHd} {r : Except Err (Option Pkt)} {destlen ts : Nat}

theorem Traced.old (h : ent ∈ ents) : Traced ents pkt ent :=
  .inl ⟨ent, h, rfl, List.Subset.refl _⟩

theorem Traced.less (h : ent ∈ ents) (hnum : ent.hd.pktNum = ent'.hd.pktNum)
    (hfrc : ent'.frc ⊆ ent.frc) : Traced ents pkt ent' :=
  .inl ⟨ent, h, hnum, hfrc⟩

theorem Traced.sent (h : OfPkt ent p) : Traced ents (some p) ent := .inr ⟨p, rfl, h⟩

theorem Tracks.ofPkt (h : Tracks ent p) : OfPkt ent p := by
  obtain ⟨pre, post, hframes, -⟩ := h.carries
  refine ⟨congrArg (·.pktNum) h.hd.symm, fun fr hfr => ?_⟩
  rw [hframes]
  exact List.mem_append_left _ (List.mem_append_right _ hfr)

theorem EmittedOnly.of_same (hlog : encrypted conn'.log = encrypted conn.log)
    (hless : unacked conn' ⊆ unacked conn) : EmittedOnly conn none conn' :=
  ⟨by rw [hlog]; exact (List.append_nil _).symm, fun _ hent => .old (hless hent)⟩

theorem EmittedOnly.refl (conn : Conn) : EmittedOnly conn none conn :=
  .of_same rfl (List.Subset.refl _)

/-- Steps of which at most one sends a packet. -/
theorem EmittedOnly.trans {pkt₁ pkt₂ : Option Pkt} (h₁ : EmittedOnly conn pkt₁ conn₁)
    (h₂ : EmittedOnly conn₁ pkt₂ conn') (hone : pkt₁ = none ∨ pkt₂ = none) :
    EmittedOnly conn (pkt₁.or pkt₂) conn' := by
  refine ⟨?_, fun ent hent => ?_⟩
  · rw [h₂.log, h₁.log]
    rcases hone with rfl | rfl <;> simp
  · rcases h₂.kept ent hent with ⟨old, hold, hnum, hfrc⟩ | ⟨p, rfl, hp⟩
    · rcases h₁.kept old hold with ⟨old', hold', hnum', hfrc'⟩ | ⟨p, rfl, hp⟩
      · exact .inl ⟨old', hold', hnum'.trans hnum, List.Subset.trans hfrc hfrc'⟩
      · exact .inr ⟨p, rfl, hp.1.trans hnum, List.Subset.trans hfrc hp.2⟩
    · obtain rfl := hone.resolve_right nofun
      exact .inr ⟨p, rfl, hp⟩

theorem EmittedOnly.before (h₁ : EmittedOnly conn none conn₁) (h₂ : EmittedOnly conn₁ pkt conn') :
    EmittedOnly conn pkt conn' := h₁.trans h₂ (.inl rfl)

theorem EmittedOnly.after (h₁ : EmittedOnly conn pkt conn₁) (h₂ : EmittedOnly conn₁ none conn') :
    EmittedOnly conn pkt conn' := by
  have h := h₁.trans h₂ (.inr rfl)
  rwa [Option.or_none] at h

theorem Logs.unacked (h : Logs hds conn conn') : unacked conn' = unacked conn := by
  obtain ⟨_, _, _, _, -, -, rfl⟩ := h
  rfl

theorem Logs.emitted (h : Quiet conn conn') : EmittedOnly conn none conn' :=
  .of_same (Logs.sameNums h).1 (Logs.unacked h ▸ List.Subset.refl _)

/-- A packet that no entry is kept of. -/
theorem Logs.emits (h : Logs [p.hd] conn conn') : EmittedOnly conn (some p) conn' :=
  ⟨h.nums.1, fun _ hent => .old (h.unacked ▸ hent)⟩

/-! ## The writers -/

theorem Sends.emitted {unprotected : Bool} {frc : List Frame}
    (h : Sends conn unprotected frc p conn') :
    EmittedOnly conn (some p) conn' := by
  cases h with
  | untracked nil num frames logs => exact ⟨logs.nums.1, logs.emits.kept⟩
  | tracked ent frc_eq addr flag fresh num form known tracks logs =>
    refine ⟨logs.nums.1, fun ent' hent' => ?_⟩
    rw [logs.unacked] at hent'
    have hent' : ent' ∈ ent :: unacked conn := hent'
    rcases List.mem_cons.mp hent' with rfl | hent'
    · exact .sent tracks.ofPkt
    · exact .old hent'

/-- Also the lost entry, as it is afterwards, is traced to itself or to the packet. -/
theorem Resent.emitted (h : Resent ts conn ent r ent' conn') :
    EmittedOnly conn (pktOf r) conn' ∧ (r ≠ .ok none → Traced [ent] (pktOf r) ent') := by
  cases h with
  | nothing => exact ⟨.refl conn, fun hne => absurd rfl hne⟩
  | noBuf rest gone perm cancelled =>
    refine ⟨.refl conn, fun _ => .less List.mem_cons_self rfl fun fr hfr => ?_⟩
    exact perm.symm.subset (List.mem_append_left _ hfr)
  | whole gone logs perm cancelled addr flag backoff tracks next =>
    exact ⟨⟨logs.nums.1, logs.emits.kept⟩, fun _ => .sent tracks.ofPkt⟩
  | part new rest gone logs perm cancelled addr flag backoff tracks next left =>
    refine ⟨⟨logs.nums.1, fun ent' hent' => ?_⟩,
      fun _ => .less List.mem_cons_self rfl fun fr hfr => ?_⟩
    · rw [logs.unacked] at hent'
      have hent' : ent' ∈ new :: unacked conn := hent'
      rcases List.mem_cons.mp hent' with rfl | hent'
      · exact .sent tracks.ofPkt
      · exact .old hent'
    · exact perm.symm.subset (List.mem_append_left _ (List.mem_append_right _ hfr))

theorem unacked_subset (hsub : (conn₁.rtb.head) ⊆ conn.rtb.head)
    (hearly : conn₁.earlyRtb = conn.earlyRtb) : unacked conn₁ ⊆ unacked conn := by
  intro ent hent
  rcases List.mem_append.mp hent with hent | hent
  · exact List.mem_append_left _ (hsub hent)
  · exact List.mem_append_right _ (hearly ▸ hent)

theorem RetransmitEnd.emitted (h : RetransmitEnd destlen ts conn r conn') (hinv : RtbInv conn.rtb)
    (hr : ¬Fatal r) : EmittedOnly conn (pktOf r) conn' := by
  -- The lost entry was one of the buffer, to which it goes back.
  have hback : ∀ {ent ent₁ ent₂ : RtbEntry} {rtb : Rtb} {conn₁ : Conn}
      {r : Except Err (Option Pkt)},
      Popped ts conn ent rtb → Resent ts (conn.setRtb rtb) ent r ent₁ conn₁ → r ≠ .ok none →
      ent₂.hd = ent₁.hd → ent₂.frc = ent₁.frc →
      EmittedOnly conn (pktOf r) (conn₁.setRtb (rtbAdd conn₁.rtb ent₂)) := by
    intro ent ent₁ ent₂ rtb conn₁ r popped resent hne hhd hfrc
    have hun := popped.unlinked hinv
    have hin : ent ∈ unacked conn :=
      List.mem_append_left _ (hun.perm.subset List.mem_cons_self)
    have hless : EmittedOnly conn none (conn.setRtb rtb) :=
      .of_same rfl (unacked_subset hun.sublist.subset rfl)
    obtain ⟨hagain, htraced⟩ := resent.emitted
    have hsent := hless.before hagain
    refine ⟨hsent.log, fun e he => ?_⟩
    have he : e ∈ ent₂ :: unacked conn₁ := he
    rcases List.mem_cons.mp he with rfl | he
    · rcases htraced hne with ⟨old, hold, hnum, hsub⟩ | ⟨p, hp, hnum, hsub⟩
      · obtain rfl := List.mem_singleton.mp hold
        exact .less hin (hnum.trans (congrArg _ hhd.symm)) (hfrc ▸ hsub)
      · exact .inr ⟨p, hp, hnum.trans (congrArg _ hhd.symm), hfrc ▸ hsub⟩
    · exact hsent.kept e he
  cases h with
  | idle => exact .refl conn
  | refused popped =>
    exact .of_same rfl (unacked_subset (popped.unlinked hinv).sublist.subset rfl)
  | failed popped alive call fatal => exact absurd ⟨_, rfl, fatal⟩ hr
  | noBuf popped alive resent => exact hback popped resent nofun rfl rfl
  | sent popped alive resent => exact hback popped resent nofun rfl rfl

theorem connRetransmit_emitted (hinv : RtbInv conn.rtb)
    (h : connRetransmit conn destlen ts = (r, conn')) (hr : ¬Fatal r) :
    EmittedOnly conn (pktOf r) conn' := by
  obtain ⟨gone, conn₁, hgave, hend⟩ := connRetransmit_cases hinv h
  obtain ⟨rtb, rfl, hinv₁, -, hsub, -⟩ := hgave.spec hinv
  have hless : EmittedOnly conn none (conn.setRtb rtb) :=
    .of_same rfl (unacked_subset hsub.subset rfl)
  exact hless.before (hend.emitted hinv₁ hr)

theorem HsAdvance.emitted {frc : List Frame} (h : HsAdvance conn frc conn') :
    EmittedOnly conn .none conn' := by
  cases h <;> exact .of_same rfl (List.Subset.refl _)

theorem HsWritten.emitted {r : Except Err Pkt} (h : HsWritten conn r conn') :
    EmittedOnly conn r.toOption conn' := by
  cases h with
  | noBuf adv quiet => exact adv.emitted.before (Logs.emitted quiet)
  | sent adv close_eq sends => exact adv.emitted.before sends.emitted

theorem AckWritten.emitted (h : AckWritten conn r conn') : EmittedOnly conn (pktOf r) conn' := by
  cases h with
  | nothing quiet => exact Logs.emitted quiet
  | noBuf quiet => exact Logs.emitted quiet
  | sent sends => exact sends.emitted

theorem HsPrepared.emitted (h : HsPrepared conn conn₁) : EmittedOnly conn none conn₁ := by
  have hbuf : ∀ (c : Conn) (payload : List UInt8), encrypted c.log = encrypted conn.log →
      unacked c = unacked conn → EmittedOnly conn none (setTxBuf0 c payload) := by
    intro c payload hlog hless
    unfold setTxBuf0
    split <;> exact .of_same hlog (hless ▸ List.Subset.refl _)
  have hnum : ∀ {c : Conn} (n : Nat), EmittedOnly conn none c →
      EmittedOnly conn none (c.setLastTxPktNum n) :=
    fun n h => ⟨h.log, h.kept⟩
  have hinit : ∀ {c : Conn} (n : Nat), EmittedOnly conn none c →
      EmittedOnly conn none (setInitialPktNum c n) :=
    fun n h => ⟨h.log, h.kept⟩
  have htell : ∀ ev : Event, (∀ hd, ev ≠ .encrypt hd) →
      encrypted (conn.tell ev).log = encrypted conn.log := by
    intro ev hev
    show encrypted (conn.log ++ [ev]) = _
    rw [encrypted_append, encrypted_eq_nil fun ev' hmem => List.mem_singleton.mp hmem ▸ hev,
      List.append_nil]
  cases h with
  | buffered => exact .refl conn
  | @clientInitial pktNum payload =>
    have h := hbuf (conn.tell .sendClientInitial) payload (htell _ nofun) rfl
    split
    · exact h
    · exact hnum _ h
  | clientHandshake => exact hbuf (conn.tell .sendClientHandshake) _ (htell _ nofun) rfl
  | serverHandshake => exact hbuf (conn.tell .sendServerHandshake) _ (htell _ nofun) rfl
  | serverInitial =>
    exact hinit _ (hbuf (conn.tell .sendServerHandshake) _ (htell _ nofun) rfl)
  | serverRest => exact hinit _ (.refl conn)

theorem HsCall.emitted (h : HsCall conn r conn') : EmittedOnly conn (pktOf r) conn' := by
  cases h with
  | @written _ _ r prepared written =>
    have hsent := prepared.emitted.before written.emitted
    cases r <;> exact hsent
  | acked written => exact written.emitted
  | failed quiet => exact Logs.emitted quiet

theorem PktWritten.emitted (h : PktWritten conn r conn') : EmittedOnly conn (pktOf r) conn' := by
  have hfilled : ∀ {ppe : Ppe} {w : Written} {new cancelled : List Frame} {conn₁ : Conn}
      (frq : List Frame), FrqWritten conn ppe w new cancelled conn₁ →
        EmittedOnly conn none (conn₁.setFrq frq) := by
    intro ppe w new cancelled conn₁ frq hfilled
    obtain ⟨bidi, uni, -, -, hq⟩ := hfilled.state
    exact ⟨(Logs.emitted hq).log, (Logs.emitted hq).kept⟩
  cases h with
  | nothing => exact .refl conn
  | noBuf quiet => exact Logs.emitted quiet
  | empty filled result => rcases result with rfl | rfl <;> exact hfilled _ filled
  | sent filled sends => exact (hfilled _ filled).before sends.emitted

theorem connWritePkt_emitted (h : connWritePkt conn destlen ts = (r, conn')) (hr : ¬Fatal r) :
    EmittedOnly conn (pktOf r) conn' := by
  obtain ⟨conn₁, ackfr, conn₂, hq, hqueue, hw⟩ := (connWritePkt_cases h).resolve_left hr
  obtain ⟨frq, strms, fcStrms, rfl⟩ := queueMaxStreamData_state hqueue
  obtain ⟨frq', maxRxOffset, heq⟩ := queueMaxData_state conn₁ ackfr
  have hqueued : EmittedOnly conn₁ none { queueMaxData conn₁ ackfr with frq, strms, fcStrms } := by
    rw [heq]
    exact .of_same rfl (List.Subset.refl _)
  exact (Logs.emitted hq).before (hqueued.before hw.emitted)

theorem connProcessEarlyRtb_emitted (hinv : EntriesInv conn) :
    EmittedOnly conn none (connProcessEarlyRtb conn) := by
  obtain ⟨-, hhead⟩ := connProcessEarlyRtb_spec hinv
  refine ⟨(List.append_nil _).symm, fun ent hent => ?_⟩
  rcases List.mem_append.mp hent with hent | hent
  · rw [hhead] at hent
    rcases List.mem_append.mp hent with hent | hent
    · obtain ⟨old, hold, rfl⟩ := List.mem_map.mp (List.mem_reverse.mp hent)
      refine .less (List.mem_append_right _ hold) ?_ ?_
      · rw [earlyEntry_hd]
      · rw [earlyEntry_frc]
        exact List.Subset.refl _
    · exact .old (List.mem_append_left _ hent)
  · cases hent

theorem GoesOn.emitted (hinv : EntriesInv conn) (h : GoesOn destlen ts conn r conn')
    (hr : ¬Fatal r) : EmittedOnly conn (pktOf r) conn' := by
  cases h with
  | handshake call state => exact ⟨call.emitted.log, call.emitted.kept⟩
  | @early conn₁ _ _ quiet state call =>
    have hinv₁ := quiet.entriesInv hinv
    have hinv₂ : EntriesInv (conn₁.setState .postHandshake) := ⟨hinv₁.rtb, hinv₁.nodup, hinv₁.fresh⟩
    have hearly := connProcessEarlyRtb_emitted hinv₂
    have hstate : EmittedOnly conn none (conn₁.setState .postHandshake) :=
      ⟨(Logs.emitted quiet).log, (Logs.emitted quiet).kept⟩
    have hrtb := (connProcessEarlyRtb_spec hinv₂).1.rtb
    exact hstate.before (hearly.before (connRetransmit_emitted hrtb call hr))
  | refused quiet => exact ⟨(Logs.emitted quiet).log, (Logs.emitted quiet).kept⟩
  | pkt state call => exact connWritePkt_emitted call hr
  | idle => exact .refl conn

theorem ngtcp2ConnWritePkt_emitted (hinv : EntriesInv conn)
    (h : ngtcp2ConnWritePkt conn destlen ts = (r, conn')) (hr : ¬Fatal r) :
    EmittedOnly conn (pktOf r) conn' := by
  rcases ngtcp2ConnWritePkt_cases h with hf | ⟨rfl, rfl⟩ | ⟨-, hcall⟩ | ⟨conn₁, hcall, hgoes⟩
  · exact absurd hf hr
  · exact .refl _
  · exact connRetransmit_emitted hinv.rtb hcall hr
  · have hinv₁ := connRetransmit_entriesInv hinv hcall (not_fatal_ok _)
    exact (connRetransmit_emitted hinv.rtb hcall (not_fatal_ok _)).before (hgoes.emitted hinv₁ hr)

theorem ngtcp2ConnWriteAckPkt_emitted (hinv : EntriesInv conn)
    (h : ngtcp2ConnWriteAckPkt conn destlen ts = (r, conn')) (hr : ¬Fatal r) :
    EmittedOnly conn (pktOf r) conn' := by
  rcases ngtcp2ConnWriteAckPkt_cases h with hf | ⟨rfl, rfl⟩ | ⟨-, hcall⟩ | ⟨conn₁, hcall, hw⟩
  · exact absurd hf hr
  · exact .refl _
  · exact connRetransmit_emitted hinv.rtb hcall hr
  · exact (connRetransmit_emitted hinv.rtb hcall (not_fatal_ok _)).before hw.emitted

theorem connWriteSingleFramePkt_emitted {fr : Frame} {r : Except Err Pkt}
    (h : connWriteSingleFramePkt conn destlen fr = (r, conn')) (hr : ¬Fatal r) :
    EmittedOnly conn r.toOption conn' := by
  rcases connWriteSingleFramePkt_cases h with hf | ⟨rfl, hq⟩ | ⟨pkt, rfl, -, -, logs⟩
  · exact absurd hf hr
  · exact Logs.emitted hq
  · exact ⟨logs.nums.1, logs.emits.kept⟩

/-- The two calls that close the connection share their packet. -/
theorem closePkt_emitted {fr : Frame} {r : Except Err Pkt}
    (h : (if conn.lastTxPktNum = uint64Max then (.error .pktNumExhausted, conn)
      else if conn.state = .postHandshake then
        (connWriteSingleFramePkt conn destlen fr).andThen fun pkt conn =>
        (.ok pkt, conn.setState .closing)
      else (.error .invalidState, conn)) = (r, conn')) (hr : ¬Fatal r) :
    EmittedOnly conn r.toOption conn' := by
  split at h
  · obtain ⟨rfl, rfl⟩ := Prod.mk.inj h
    exact .refl _
  split at h
  · rcases andThen_cases h with ⟨e, hw, rfl⟩ | ⟨pkt, conn₁, hw, h⟩
    · exact connWriteSingleFramePkt_emitted hw fun hf => hr hf.cast
    · obtain ⟨rfl, rfl⟩ := Prod.mk.inj h
      have hsent := connWriteSingleFramePkt_emitted hw (not_fatal_ok _)
      exact ⟨hsent.log, hsent.kept⟩
  · obtain ⟨rfl, rfl⟩ := Prod.mk.inj h
    exact .refl _

theorem writeStream_emitted {streamId : Nat} {fin : Bool} {data : List UInt8}
    {r : Except Err (Pkt × Nat)}
    (h : ngtcp2ConnWriteStream conn destlen streamId fin data ts = (r, conn')) (hr : ¬Fatal r) :
    EmittedOnly conn (r.toOption.map Prod.fst) conn' := by
  rcases ngtcp2ConnWriteStream_cases h with hf | ⟨e, rfl, hq⟩ |
    ⟨pkt, n, strm, fr, conn₁, rfl, hsent, hframes, logs, rfl⟩
  · exact absurd hf hr
  · exact Logs.emitted hq
  · have htrack : encrypted (trackStreamPkt conn₁ pkt.hd fr ts pkt.len).log = encrypted conn₁.log ∧
        ∀ ent ∈ unacked (trackStreamPkt conn₁ pkt.hd fr ts pkt.len),
          ent ∈ unacked conn₁ ∨ OfPkt ent pkt := by
      have hnew : [Frame.stream fr] ⊆ pkt.frames := hframes ▸ List.Subset.refl _
      unfold trackStreamPkt
      split
      · refine ⟨rfl, fun ent hent => ?_⟩
        rcases List.mem_append.mp hent with hent | hent
        · exact .inl (List.mem_append_left _ hent)
        · rcases List.mem_append.mp hent with hent | hent
          · exact .inl (List.mem_append_right _ hent)
          · obtain rfl := List.mem_singleton.mp hent
            exact .inr ⟨rfl, hnew⟩
      · refine ⟨rfl, fun ent hent => ?_⟩
        rcases List.mem_cons.mp hent with rfl | hent
        · exact .inr ⟨rfl, hnew⟩
        · exact .inl hent
    refine ⟨htrack.1.trans logs.nums.1, fun ent hent => ?_⟩
    rcases htrack.2 ent hent with hold | hnew
    · exact logs.emits.kept ent hold
    · exact .sent hnew

/-! ## Steps -/

/-- The changes that keep frames of new packets. -/
def Kind.tracks : Kind → Bool
  | .tx | .pkts | .frq => true
  | _ => false

theorem Change.unacked_subset {H : List Frame} {k : Kind} (h : Change H k conn conn')
    (hk : k.tracks = false) : unacked conn' ⊆ unacked conn := by
  by_cases hpackets : k.packetless = true
  · obtain ⟨hrtb, hearly, -⟩ := h.sameEntries hpackets
    rw [unacked, unacked, hrtb, hearly]
    exact List.Subset.refl _
  · cases h with
    | unlink inv sub => exact (sub.append_right _).subset
    | timeout inv sub => exact (sub.append_right _).subset
    | restart => exact List.subset_append_right _ _
    | tx | pkts | frq => cases hk
    | _ => exact absurd rfl hpackets

theorem Op.kinds_tracks {op : Op} (hw : op.writesPkt = false) :
    ∀ k ∈ op.kinds, k.tracks = false := by
  cases op with
  | writeStream => cases hw
  | writePkt => cases hw
  | writeAckPkt => cases hw
  | writeConnectionClose => cases hw
  | writeApplicationClose => cases hw
  | recvFrame longForm fr =>
    cases fr <;> simp [Op.kinds, Frame.recvKinds, ackKinds, streamKinds, Kind.tracks]
  | recvDelayedHandshakeFrame type fr =>
    cases fr <;> simp [Op.kinds, Frame.recvDelayedKinds, ackKinds, streamKinds, Kind.tracks]
  | recvHandshakeFrame type failed fr =>
    cases fr <;> simp [Op.kinds, Frame.recvHandshakeKinds, ackKinds, Kind.tracks]
  | _ => simp [Op.kinds, Kind.tracks, shutdownKinds, retryKinds]

theorem Op.pkt_none {op : Op} (hw : op.writesPkt = false) (conn : Conn) : op.pkt conn = none := by
  cases op with
  | writeStream => cases hw
  | writePkt => cases hw
  | writeAckPkt => cases hw
  | writeConnectionClose => cases hw
  | writeApplicationClose => cases hw
  | _ => rfl

theorem Step.emitted_none {ops : List Op} {op : Op} (hwf : WellFormed conn)
    (hstep : Step ops conn op conn') (hretry : op.completesRetry conn = false)
    (hw : op.writesPkt = false) : EmittedOnly conn none conn' := by
  have hnums : SameNums conn conn' := by
    refine (hstep.changes_noRetry hwf hretry).sameNums fun k hk => ?_
    obtain ⟨hk, hne⟩ := List.mem_filter.mp hk
    rcases List.mem_cons.mp hk with rfl | hk
    · rfl
    · exact Op.kinds_numbers hw k hk (bne_iff_ne.mp hne)
  have hsub : unacked conn' ⊆ unacked conn := by
    refine (Step.changes hwf hstep).keeps (fun c => unacked c ⊆ unacked conn)
      (fun k hk c c' hP hc => List.Subset.trans (hc.unacked_subset ?_) hP) (List.Subset.refl _)
    rcases List.mem_cons.mp hk with rfl | hk
    · rfl
    · exact Op.kinds_tracks hw k hk
  exact .of_same hnums.1 hsub

/-- A step encrypts the packet that it sends and no other, and keeps frames of this packet only. -/
theorem Step.emitted {ops : List Op} {op : Op} (hwf : WellFormed conn)
    (hstep : Step ops conn op conn') (hretry : op.completesRetry conn = false) :
    EmittedOnly conn (op.pkt conn) conn' := by
  cases hw : op.writesPkt with
  | false =>
    rw [Op.pkt_none hw conn]
    exact hstep.emitted_none hwf hretry hw
  | true =>
    obtain ⟨rv, hrun, hs⟩ := hstep
    have hrv := not_fatal_of_survives hs
    cases op with
    | writeStream destlen streamId fin data ts =>
      obtain ⟨x, hx, herr⟩ := void_cases hrun
      have hsent := writeStream_emitted hx (not_fatal_of_void herr hrv)
      rw [Op.pkt, hx]
      cases x <;> exact hsent
    | writePkt destlen ts =>
      obtain ⟨x, hx, herr⟩ := void_cases hrun
      rw [Op.pkt, hx]
      exact ngtcp2ConnWritePkt_emitted hwf.inv hx (not_fatal_of_void herr hrv)
    | writeAckPkt destlen ts =>
      obtain ⟨x, hx, herr⟩ := void_cases hrun
      rw [Op.pkt, hx]
      exact ngtcp2ConnWriteAckPkt_emitted hwf.inv hx (not_fatal_of_void herr hrv)
    | writeConnectionClose destlen errorCode =>
      obtain ⟨x, hx, herr⟩ := void_cases hrun
      rw [Op.pkt, hx]
      exact closePkt_emitted hx (not_fatal_of_void herr hrv)
    | writeApplicationClose destlen appErrorCode =>
      obtain ⟨x, hx, herr⟩ := void_cases hrun
      rw [Op.pkt, hx]
      have hr := not_fatal_of_void herr hrv
      unfold ngtcp2ConnWriteApplicationClose at hx
      split at hx
      · obtain ⟨rfl, rfl⟩ := Prod.mk.inj hx
        exact .refl _
      · exact closePkt_emitted hx hr
    | _ => cases hw

end

end Ngtcp2
