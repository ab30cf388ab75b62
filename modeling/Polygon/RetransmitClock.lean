import Polygon.StepChanges

/-!
# When lost packets are given up

The timeout of a packet doubles each time it is sent again, and its deadline stays. So the
second time is the last one, in every run whose time stamps do not go back.
-/
namespace Ngtcp2

/-- The packet of the entry went out at `t₀` for the first time. It is sent again at most twice,
and when it expires after that, its deadline is over. -/
structure SentAt (t₀ now : Nat) (ent : RtbEntry) : Prop where
  deadline : ent.deadline = t₀ + pktDeadlinePeriod
  count : ent.count ≤ 2
  -- An entry that the server rejected expires at once.
  first : ent.count = 0 → t₀ + initialExpiry ≤ ent.expiry ∨ t₀ ≤ now
  once : ent.count = 1 → t₀ + 2 * initialExpiry ≤ ent.expiry
  twice : ent.count = 2 → t₀ + 6 * initialExpiry ≤ ent.expiry

/-- The entry of a packet in the retransmission buffer. -/
def Clock (now : Nat) (ent : RtbEntry) : Prop := ∃ t₀, SentAt t₀ now ent

/-- The entry of a 0-RTT packet that waits for the end of the handshake. -/
structure EarlyClock (now : Nat) (ent : RtbEntry) : Prop where
  count : ent.count = 0
  sent : ∃ t₀ ≤ now, ent.deadline = t₀ + pktDeadlinePeriod

/-- All entries keep to their clocks. -/
structure Clocked (now : Nat) (conn : Conn) : Prop where
  head : ∀ ent ∈ conn.rtb.head, Clock now ent
  early : ∀ ent ∈ conn.earlyRtb, EarlyClock now ent

section
variable {now ts : Nat} {conn conn₁ conn' : Conn} {ent ent' : RtbEntry}

theorem Clock.mono (h : Clock now ent) (hle : now ≤ ts) : Clock ts ent := by
  obtain ⟨t₀, h⟩ := h
  exact ⟨t₀, h.deadline, h.count, fun hc => (h.first hc).imp_right hle.trans', h.once, h.twice⟩

theorem Fresh.clock (h : Fresh ent) : Clock now ent := by
  obtain ⟨t₀, hexpiry, hdeadline, hcount⟩ := h
  refine ⟨t₀, hdeadline, by omega, fun _ => .inl ?_, fun hc => ?_, fun hc => ?_⟩
  · rw [hexpiry]
  · omega
  · omega

/-- An entry of the same times. -/
theorem Clock.congr (h : Clock now ent) (hexpiry : ent'.expiry = ent.expiry)
    (hcount : ent'.count = ent.count)
    (hdeadline : ent'.deadline = ent.deadline) : Clock now ent' := by
  obtain ⟨t₀, h⟩ := h
  refine ⟨t₀, hdeadline.trans h.deadline, ?_, ?_, ?_, ?_⟩
  · rw [hcount]
    exact h.count
  · rw [hcount, hexpiry]
    exact h.first
  · rw [hcount, hexpiry]
    exact h.once
  · rw [hcount, hexpiry]
    exact h.twice

/-- A packet that was sent again twice expires behind its deadline. -/
theorem Clock.dead (h : Clock now ent) (hcount : ent.count = 2) (hdue : ent.expiry ≤ ts) :
    ent.deadline ≤ ts := by
  obtain ⟨t₀, h⟩ := h
  have htwice := h.twice hcount
  rw [h.deadline]
  unfold initialExpiry at htwice
  unfold pktDeadlinePeriod
  omega

/-- The clock of a packet that is sent again before its deadline. -/
theorem Clock.backoff (h : Clock now ent) (hle : now ≤ ts) (hdue : ent.expiry ≤ ts)
    (halive : ts < ent.deadline)
    (hback : BackedOff ts ent ent') : Clock ts ent' := by
  have hlt : ent.count ≠ 2 := fun hc => absurd (h.dead hc hdue) (Nat.not_le_of_lt halive)
  obtain ⟨t₀, h⟩ := h
  have hcount := h.count
  have hzero_or_one : ent.count = 0 ∨ ent.count = 1 := by omega
  refine ⟨t₀, hback.deadline.trans h.deadline, ?_, ?_, ?_, ?_⟩ <;> rw [hback.count]
  · omega
  · exact nofun
  · intro hc
    have hzero : ent.count = 0 := Nat.succ.inj hc
    rw [hback.expiry, hzero]
    rcases h.first hzero with hexpiry | hnow <;> omega
  · intro hc
    have hone : ent.count = 1 := Nat.succ.inj hc
    have honce := h.once hone
    rw [hback.expiry, hone]
    omega

theorem EarlyClock.mono (h : EarlyClock now ent) (hle : now ≤ ts) : EarlyClock ts ent := by
  obtain ⟨t₀, ht₀, hdeadline⟩ := h.sent
  exact ⟨h.count, t₀, ht₀.trans hle, hdeadline⟩

/-- An entry of a 0-RTT packet goes over to the retransmission buffer, whatever its expiry. -/
theorem EarlyClock.clock (h : EarlyClock now ent) (hcount : ent'.count = ent.count)
    (hdeadline : ent'.deadline = ent.deadline) :
    Clock now ent' := by
  obtain ⟨t₀, ht₀, hd⟩ := h.sent
  have hzero : ent'.count = 0 := hcount.trans h.count
  exact ⟨t₀, hdeadline.trans hd, by omega, fun _ => .inr ht₀, by omega, by omega⟩

/-! ## What keeps the clocks -/

theorem Clocked.mono (h : Clocked now conn) (hle : now ≤ ts) : Clocked ts conn :=
  ⟨fun ent hent => (h.head ent hent).mono hle, fun ent hent => (h.early ent hent).mono hle⟩

theorem Clocked.of_subset (h : Clocked now conn) (hhead : conn'.rtb.head ⊆ conn.rtb.head)
    (hearly : conn'.earlyRtb ⊆ conn.earlyRtb) : Clocked now conn' :=
  ⟨fun ent hent => h.head ent (hhead hent), fun ent hent => h.early ent (hearly hent)⟩

theorem Clocked.of_eq (h : Clocked now conn) (hhead : conn'.rtb.head = conn.rtb.head)
    (hearly : conn'.earlyRtb = conn.earlyRtb) :
    Clocked now conn' :=
  h.of_subset (fun _ he => hhead ▸ he) fun _ he => hearly ▸ he

theorem Clocked.same (h : Clocked now conn) (hsame : SameEntries conn conn') : Clocked now conn' :=
  h.of_eq (congrArg Rtb.head hsame.rtb) hsame.earlyRtb

theorem Clocked.logs {hds : List PktHd} (h : Clocked now conn) (hlogs : Logs hds conn conn') :
    Clocked now conn' :=
  h.same hlogs.sameEntries

/-- A packet took the next number. -/
theorem Clocked.sent {hds : List PktHd} (h : Clocked now conn)
    (hlogs : Logs hds conn.incLastTxPktNum conn') :
    Clocked now conn' := by
  have hinc : Clocked now conn.incLastTxPktNum := h.of_eq rfl rfl
  exact hinc.logs hlogs

/-- A new entry comes first. -/
theorem Clocked.cons (h : Clocked now conn) (hent : Clock now ent)
    (hhead : conn'.rtb.head = ent :: conn.rtb.head)
    (hearly : conn'.earlyRtb = conn.earlyRtb) : Clocked now conn' := by
  refine ⟨fun e he => ?_, fun e he => h.early e (hearly ▸ he)⟩
  rw [hhead] at he
  rcases List.mem_cons.mp he with rfl | he
  · exact hent
  · exact h.head e he

theorem Clocked.popped {rtb : Rtb} (h : Clocked now conn) (hinv : RtbInv conn.rtb)
    (hpop : Popped ts conn ent rtb) :
    Clock now ent ∧ Clocked now (conn.setRtb rtb) := by
  have hun := hpop.unlinked hinv
  refine ⟨h.head ent (hun.perm.subset List.mem_cons_self), h.of_subset hun.sublist.subset ?_⟩
  exact fun _ he => he

theorem GaveUp.clocked {ents : List RtbEntry} (h : GaveUp ts conn ents conn')
    (hinv : RtbInv conn.rtb) (hclk : Clocked now conn) :
    Clocked now conn' := by
  induction h with
  | nil => exact hclk
  | cons popped alive why rest ih => exact ih (popped.unlinked hinv).inv (hclk.popped hinv popped).2

theorem GaveUp.rtbInv {ents : List RtbEntry} (h : GaveUp ts conn ents conn')
    (hinv : RtbInv conn.rtb) : RtbInv conn'.rtb := by
  obtain ⟨rtb, rfl, hrtb, -⟩ := h.spec hinv
  exact hrtb

theorem RetransmitEnd.clocked {destlen : Nat} {r : Except Err (Option Pkt)}
    (h : RetransmitEnd destlen ts conn r conn')
    (hinv : RtbInv conn.rtb) (hr : ¬Fatal r) (hclk : Clocked now conn) (hle : now ≤ ts) :
    Clocked ts conn' := by
  cases h with
  | idle => exact hclk.mono hle
  | refused popped why => exact (hclk.popped hinv popped).2.mono hle
  | failed popped alive call fatal => exact absurd ⟨_, rfl, fatal⟩ hr
  | @noBuf ent ent' rtb conn₁ popped alive resent =>
    obtain ⟨hent, hrest⟩ := hclk.popped hinv popped
    cases resent with
    | noBuf rest gone perm cancelled =>
      have hback : Clock ts { ent with frc := rest } := (hent.mono hle).congr rfl rfl rfl
      exact (hrest.mono hle).cons hback rfl rfl
  | @sent ent ent' rtb conn₁ pkt popped alive resent =>
    obtain ⟨hent, hrest⟩ := hclk.popped hinv popped
    cases resent with
    | whole gone logs perm cancelled addr flag backoff tracks next =>
      have hconn : Clocked ts conn₁ := (hrest.mono hle).sent logs
      have hagain : Clock ts { ent' with pktlen := pkt.len } :=
        (hent.backoff hle popped.due alive backoff).congr rfl rfl rfl
      exact hconn.cons hagain rfl rfl
    | part new rest gone logs perm cancelled addr flag backoff tracks next left =>
      have hnew : Clocked ts ((conn.setRtb rtb).addEntry fun _ => new) :=
        (hrest.mono hle).cons (hent.backoff hle popped.due alive backoff) rfl rfl
      have hconn : Clocked ts conn₁ := hnew.sent logs
      -- The rest of the chain goes back without a new timeout.
      have hback : Clock ts { ent with frc := rest, pktlen := pkt.len } :=
        (hent.mono hle).congr rfl rfl rfl
      exact hconn.cons hback rfl rfl

theorem connRetransmit_clocked {destlen : Nat} {r : Except Err (Option Pkt)}
    (hinv : RtbInv conn.rtb)
    (h : connRetransmit conn destlen ts = (r, conn')) (hr : ¬Fatal r) (hclk : Clocked now conn)
    (hle : now ≤ ts) :
    Clocked ts conn' := by
  obtain ⟨ents, conn₁, hgave, hend⟩ := connRetransmit_cases hinv h
  exact hend.clocked (hgave.rtbInv hinv) hr (hgave.clocked hinv hclk) hle

/-! ## Packets sent for the first time -/

theorem Sends.clocked {unprotected : Bool} {frc : List Frame} {pkt : Pkt}
    (h : Sends conn unprotected frc pkt conn')
    (hclk : Clocked now conn) : Clocked now conn' := by
  cases h with
  | untracked nil num frames logs => exact hclk.sent logs
  | tracked ent frc_eq addr flag fresh num form known tracks logs =>
    have hadd : Clocked now (conn.addEntry fun _ => ent) := hclk.cons fresh.clock rfl rfl
    exact hadd.sent logs

theorem setInitialPktNum_sameHead (conn : Conn) (lastTxPktNum : Nat) :
    (setInitialPktNum conn lastTxPktNum).rtb.head = conn.rtb.head ∧
      (setInitialPktNum conn lastTxPktNum).earlyRtb = conn.earlyRtb := ⟨rfl, rfl⟩

theorem setLastTxPktNum_sameHead (conn : Conn) (lastTxPktNum : Nat) :
    (conn.setLastTxPktNum lastTxPktNum).rtb.head = conn.rtb.head ∧
      (conn.setLastTxPktNum lastTxPktNum).earlyRtb = conn.earlyRtb := ⟨rfl, rfl⟩

theorem HsPrepared.sameHead (h : HsPrepared conn conn') :
    conn'.rtb.head = conn.rtb.head ∧ conn'.earlyRtb = conn.earlyRtb := by
  have hset : ∀ ev payload, (setTxBuf0 (conn.tell ev) payload).rtb.head = conn.rtb.head ∧
      (setTxBuf0 (conn.tell ev) payload).earlyRtb = conn.earlyRtb := by
    intro ev payload
    unfold setTxBuf0
    split <;> exact ⟨rfl, rfl⟩
  cases h with
  | buffered rest => exact ⟨rfl, rfl⟩
  | clientInitial state answer =>
    obtain ⟨hhead, hearly⟩ := hset .sendClientInitial _
    split
    · exact ⟨hhead, hearly⟩
    · exact ⟨(setLastTxPktNum_sameHead _ _).1.trans hhead,
        (setLastTxPktNum_sameHead _ _).2.trans hearly⟩
  | clientHandshake empty answer => exact hset _ _
  | serverHandshake empty answer => exact hset _ _
  | serverInitial empty first answer =>
    obtain ⟨hhead, hearly⟩ := hset .sendServerHandshake _
    exact ⟨(setInitialPktNum_sameHead _ _).1.trans hhead,
      (setInitialPktNum_sameHead _ _).2.trans hearly⟩
  | serverRest rest first => exact setInitialPktNum_sameHead conn _

theorem HsAdvance.clocked {frc : List Frame} (h : HsAdvance conn frc conn')
    (hclk : Clocked now conn) : Clocked now conn' := by
  cases h with
  | none => exact hclk
  | some => exact hclk.of_eq rfl rfl

theorem HsWritten.clocked {r : Except Err Pkt} (h : HsWritten conn r conn')
    (hclk : Clocked now conn) : Clocked now conn' := by
  cases h with
  | noBuf adv quiet => exact (adv.clocked hclk).logs quiet
  | sent adv close_eq sends => exact sends.clocked (adv.clocked hclk)

theorem AckWritten.clocked {r : Except Err (Option Pkt)} (h : AckWritten conn r conn')
    (hclk : Clocked now conn) :
    Clocked now conn' := by
  cases h with
  | nothing quiet => exact hclk.logs quiet
  | noBuf quiet => exact hclk.logs quiet
  | sent sends => exact sends.clocked hclk

theorem HsCall.clocked {r : Except Err (Option Pkt)} (h : HsCall conn r conn')
    (hclk : Clocked now conn) : Clocked now conn' := by
  cases h with
  | written prepared written =>
    obtain ⟨hhead, hearly⟩ := prepared.sameHead
    exact written.clocked (hclk.of_eq hhead hearly)
  | acked written => exact written.clocked hclk
  | failed quiet => exact hclk.logs quiet

theorem FrqWritten.clocked {ppe : Ppe} {w : Written} {new cancelled : List Frame}
    (h : FrqWritten conn ppe w new cancelled conn')
    (hclk : Clocked now conn) : Clocked now conn' := by
  obtain ⟨bidi, uni, -, -, hq⟩ := h.state
  have hcredit : Clocked now (conn.setMaxRemoteStreamIds bidi uni) := hclk.of_eq rfl rfl
  exact hcredit.logs hq

theorem PktWritten.clocked {r : Except Err (Option Pkt)} (h : PktWritten conn r conn')
    (hclk : Clocked now conn) :
    Clocked now conn' := by
  cases h with
  | nothing => exact hclk
  | noBuf quiet => exact hclk.logs quiet
  | empty filled result => exact (filled.clocked hclk).of_eq rfl rfl
  | sent filled sends => exact sends.clocked ((filled.clocked hclk).of_eq rfl rfl)

theorem connWritePkt_clocked {destlen : Nat} {r : Except Err (Option Pkt)}
    (h : connWritePkt conn destlen ts = (r, conn'))
    (hr : ¬Fatal r) (hclk : Clocked now conn) : Clocked now conn' := by
  obtain ⟨conn₁, ackfr, conn₂, hq, hqueue, hw⟩ := (connWritePkt_cases h).resolve_left hr
  obtain ⟨frq, maxRxOffset, hdata⟩ := queueMaxData_state conn₁ ackfr
  obtain ⟨frq', strms, fcStrms, rfl⟩ := queueMaxStreamData_state hqueue
  have hqueued : Clocked now (queueMaxData conn₁ ackfr) := by
    rw [hdata]
    exact (hclk.logs hq).of_eq rfl rfl
  exact hw.clocked (hqueued.of_eq rfl rfl)

/-- The 0-RTT entries go over, and those that the server rejected expire at once. -/
theorem connProcessEarlyRtb_clocked (hinv : EntriesInv conn) (hclk : Clocked now conn) :
    Clocked now (connProcessEarlyRtb conn) := by
  obtain ⟨-, hhead⟩ := connProcessEarlyRtb_spec hinv
  refine ⟨fun ent hent => ?_, nofun⟩
  rw [hhead, List.mem_append, List.mem_reverse] at hent
  rcases hent with hent | hent
  · obtain ⟨early, hmem, rfl⟩ := List.mem_map.mp hent
    have hcount : (earlyEntry conn.earlyDataRejected early).count = early.count := by
      unfold earlyEntry
      split <;> rfl
    have hdeadline : (earlyEntry conn.earlyDataRejected early).deadline = early.deadline := by
      unfold earlyEntry
      split <;> rfl
    exact (hclk.early early hmem).clock hcount hdeadline
  · exact hclk.head ent hent

theorem GoesOn.clocked {destlen : Nat} {r : Except Err (Option Pkt)}
    (h : GoesOn destlen ts conn r conn') (hinv : EntriesInv conn)
    (hr : ¬Fatal r) (hclk : Clocked ts conn) : Clocked ts conn' := by
  cases h with
  | handshake call state => exact (call.clocked hclk).of_eq rfl rfl
  | @early conn₁ conn' r quiet state call =>
    have hinv₁ : EntriesInv (conn₁.setState .postHandshake) := 
      SameEntries.inv (by constructor <;> rfl) (quiet.entriesInv hinv)
    have hclk₁ : Clocked ts (conn₁.setState .postHandshake) := (hclk.logs quiet).of_eq rfl rfl
    exact connRetransmit_clocked (connProcessEarlyRtb_spec hinv₁).1.rtb call hr
      (connProcessEarlyRtb_clocked hinv₁ hclk₁) le_rfl
  | refused quiet => exact (hclk.logs quiet).of_eq rfl rfl
  | pkt state call => exact connWritePkt_clocked call hr hclk
  | idle => exact hclk

theorem ngtcp2ConnWritePkt_clocked {destlen : Nat} {r : Except Err (Option Pkt)}
    (hinv : EntriesInv conn)
    (h : ngtcp2ConnWritePkt conn destlen ts = (r, conn')) (hr : ¬Fatal r) (hclk : Clocked now conn)
    (hle : now ≤ ts) :
    Clocked ts conn' := by
  rcases ngtcp2ConnWritePkt_cases h with hfatal | ⟨-, rfl⟩ | ⟨-, hresent⟩ | ⟨conn₁, hresent, hgoes⟩
  · exact absurd hfatal hr
  · exact hclk.mono hle
  · exact connRetransmit_clocked hinv.rtb hresent hr hclk hle
  · have hclk₁ := connRetransmit_clocked hinv.rtb hresent (not_fatal_ok _) hclk hle
    exact hgoes.clocked (connRetransmit_entriesInv hinv hresent (not_fatal_ok _)) hr hclk₁

theorem ngtcp2ConnWriteAckPkt_clocked {destlen : Nat} {r : Except Err (Option Pkt)}
    (hinv : EntriesInv conn)
    (h : ngtcp2ConnWriteAckPkt conn destlen ts = (r, conn')) (hr : ¬Fatal r)
    (hclk : Clocked now conn) (hle : now ≤ ts) :
    Clocked ts conn' := by
  rcases ngtcp2ConnWriteAckPkt_cases h with hfatal | ⟨-, rfl⟩ | ⟨-, hresent⟩ | ⟨conn₁, hresent, hw⟩
  · exact absurd hfatal hr
  · exact hclk.mono hle
  · exact connRetransmit_clocked hinv.rtb hresent hr hclk hle
  · exact hw.clocked (connRetransmit_clocked hinv.rtb hresent (not_fatal_ok _) hclk hle)

theorem trackStreamPkt_clocked {hd : PktHd} {fr : StreamFrame} {pktlen : Nat}
    (hclk : Clocked now conn) (hle : now ≤ ts) :
    Clocked ts (trackStreamPkt conn hd fr ts pktlen) := by
  unfold trackStreamPkt
  split
  · refine ⟨fun ent hent => (hclk.head ent hent).mono hle, fun ent hent => ?_⟩
    rcases List.mem_append.mp hent with hent | hent
    · exact (hclk.early ent hent).mono hle
    · obtain rfl := List.mem_singleton.mp hent
      exact ⟨rfl, ts, le_rfl, rfl⟩
  · have hfresh : Fresh (rtbEntryNew conn.nextAddr hd [.stream fr] ts (ts + pktDeadlinePeriod) pktlen false) := ⟨ts, rfl, rfl, rfl⟩
    exact (hclk.mono hle).cons hfresh.clock rfl rfl

theorem ngtcp2ConnWriteStream_clocked {destlen streamId : Nat} {fin : Bool} {data : List UInt8}
    {r : Except Err (Pkt × Nat)}
    (h : ngtcp2ConnWriteStream conn destlen streamId fin data ts = (r, conn')) (hr : ¬Fatal r)
    (hclk : Clocked now conn)
    (hle : now ≤ ts) : Clocked ts conn' := by
  rcases ngtcp2ConnWriteStream_cases h with hfatal | ⟨e, -, quiet⟩
      | ⟨pkt, n, strm, fr, conn₁, -, -, -, logs, rfl⟩
  · exact absurd hfatal hr
  · exact (hclk.logs quiet).mono hle
  · exact (trackStreamPkt_clocked (hclk.logs logs) hle).of_eq rfl rfl

/-! ## Runs in time -/

/-- These changes add no entry. -/
def Kind.addsNone : Kind → Bool
  | .tx | .pkts | .frq => false
  | _ => true

theorem Change.clocked {H : List Frame} {k : Kind} (h : Change H k conn conn')
    (hk : k.addsNone = true) (hclk : Clocked now conn) :
    Clocked now conn' := by
  by_cases hless : k.packetless = true
  · exact hclk.same (h.sameEntries hless)
  cases h with
  | unlink inv sub perm acked => exact hclk.of_subset sub.subset fun _ he => he
  | timeout inv sub => exact hclk.of_subset sub.subset fun _ he => he
  | restart => exact hclk.of_subset (List.nil_subset _) fun _ he => he
  | tx | pkts | frq => exact absurd hk Bool.false_ne_true
  | _ => exact absurd rfl hless

theorem Changes.clocked {H : List Frame} {K : List Kind} (h : Changes H K conn conn')
    (hK : ∀ k ∈ K, k.addsNone = true)
    (hclk : Clocked now conn) : Clocked now conn' :=
  h.keeps (Clocked now) (fun k hk _ _ hP hc => hc.clocked (hK k hk) hP) hclk

/-- The time stamp of a call. -/
def Op.time : Op → Option Nat
  | recvPktEnd _ _ _ ts | recvHandshakePktEnd _ _ _ _ ts | writeStream _ _ _ _ ts | writePkt _ ts | writeAckPkt _ ts => some ts
  | _ => none

/-- The latest time stamp so far. -/
def latest (ops : List Op) : Nat := ops.foldl (fun t op => max t (op.time.getD 0)) 0

/-- A step whose time stamp is not before those of earlier steps. -/
def TimedStep : List Op → Conn → Op → Conn → Prop :=
  Runs.Guarded Step fun ops _ op => ∀ ts ∈ op.time, latest ops ≤ ts

theorem latest_snoc (ops : List Op) (op : Op) :
    latest (ops ++ [op]) = max (latest ops) (op.time.getD 0) := by
  unfold latest
  rw [List.foldl_append, List.foldl_cons, List.foldl_nil]

theorem closePkt_clocked {destlen : Nat} {fr : Frame} {r : Except Err Pkt}
    (h : ((connWriteSingleFramePkt conn destlen fr).andThen fun pkt conn => (.ok pkt, conn.setState .closing)) =
      (r, conn')) (hr : ¬Fatal r) (hclk : Clocked now conn) : Clocked now conn' := by
  rcases andThen_cases h with ⟨e, h₁, rfl⟩ | ⟨pkt, conn₁, h₁, h⟩
  · rcases (connWriteSingleFramePkt_cases h₁).resolve_left hr with ⟨-, quiet⟩ | ⟨pkt, he, -⟩
    · exact hclk.logs quiet
    · cases he
  · obtain ⟨-, rfl⟩ := Prod.mk.inj h
    rcases (connWriteSingleFramePkt_cases h₁).resolve_left (not_fatal_ok _) with ⟨he, -⟩
        | ⟨pkt', -, -, -, logs⟩
    · cases he
    · exact (hclk.sent logs).of_eq rfl rfl

theorem ngtcp2ConnWriteConnectionClose_clocked {destlen errorCode : Nat} {r : Except Err Pkt}
    (h : ngtcp2ConnWriteConnectionClose conn destlen errorCode = (r, conn')) (hr : ¬Fatal r)
    (hclk : Clocked now conn) :
    Clocked now conn' := by
  unfold ngtcp2ConnWriteConnectionClose at h
  split at h
  · obtain ⟨-, rfl⟩ := Prod.mk.inj h
    exact hclk
  split at h
  · exact closePkt_clocked h hr hclk
  · obtain ⟨-, rfl⟩ := Prod.mk.inj h
    exact hclk

theorem ngtcp2ConnWriteApplicationClose_clocked {destlen appErrorCode : Nat} {r : Except Err Pkt}
    (h : ngtcp2ConnWriteApplicationClose conn destlen appErrorCode = (r, conn')) (hr : ¬Fatal r)
    (hclk : Clocked now conn) :
    Clocked now conn' := by
  unfold ngtcp2ConnWriteApplicationClose at h
  split at h
  · obtain ⟨-, rfl⟩ := Prod.mk.inj h
    exact hclk
  split at h
  · obtain ⟨-, rfl⟩ := Prod.mk.inj h
    exact hclk
  split at h
  · exact closePkt_clocked h hr hclk
  · obtain ⟨-, rfl⟩ := Prod.mk.inj h
    exact hclk

theorem Step.clocked {ops : List Op} {op : Op} (hwf : WellFormed conn)
    (hstep : TimedStep ops conn op conn')
    (hclk : Clocked (latest ops) conn) : Clocked (latest (ops ++ [op])) conn' := by
  obtain ⟨hstep, htime⟩ := hstep
  have hch := Step.changes hwf hstep
  obtain ⟨rv, hrun, hs⟩ := hstep
  have hle : latest ops ≤ latest (ops ++ [op]) := by
    rw [latest_snoc]
    exact Nat.le_max_left _ _
  have hkinds : (∀ k ∈ op.kinds, k.addsNone = true) → Clocked (latest (ops ++ [op])) conn' := by
    intro hK
    refine (hch.clocked (fun k hk => ?_) hclk).mono hle
    rcases List.mem_cons.mp hk with rfl | hk
    · rfl
    · exact hK k hk
  -- A call at `ts` whose value is thrown away.
  have hat : ∀ {α : Type} {x : Result α} {ts : Nat}, op.time = some ts → x.void = (rv, conn') →
      (∀ y, x = (y, conn') → ¬Fatal y → latest ops ≤ ts → Clocked ts conn') →
        Clocked (latest (ops ++ [op])) conn' := by
    intro α x ts hts hx hcall
    obtain ⟨y, hy, herr⟩ := void_cases hx
    have hnew : ts ≤ latest (ops ++ [op]) := by
      rw [latest_snoc, hts]
      exact Nat.le_max_right _ _
    refine (hcall y hy ?_ (htime ts hts)).mono hnew
    rintro ⟨e, he, hfatal⟩
    exact not_fatal_of_survives hs ⟨e, (herr e).mpr he, hfatal⟩
  have huntimed : ∀ {α : Type} {x : Result α}, x.void = (rv, conn') →
      (∀ y, x = (y, conn') → ¬Fatal y → Clocked (latest ops) conn') →
        Clocked (latest (ops ++ [op])) conn' := by
    intro α x hx hcall
    obtain ⟨y, hy, herr⟩ := void_cases hx
    refine (hcall y hy ?_).mono hle
    rintro ⟨e, he, hfatal⟩
    exact not_fatal_of_survives hs ⟨e, (herr e).mpr he, hfatal⟩
  cases op with
  | writeStream destlen streamId fin data ts =>
    exact hat rfl hrun fun y hy hr hts => ngtcp2ConnWriteStream_clocked hy hr hclk hts
  | writePkt destlen ts => exact hat rfl hrun fun y hy hr hts => ngtcp2ConnWritePkt_clocked hwf.inv hy hr hclk hts
  | writeAckPkt destlen ts =>
    exact hat rfl hrun fun y hy hr hts => ngtcp2ConnWriteAckPkt_clocked hwf.inv hy hr hclk hts
  | writeConnectionClose destlen errorCode =>
    exact huntimed hrun fun y hy hr => ngtcp2ConnWriteConnectionClose_clocked hy hr hclk
  | writeApplicationClose destlen appErrorCode =>
    exact huntimed hrun fun y hy hr => ngtcp2ConnWriteApplicationClose_clocked hy hr hclk
  | recvFrame longForm fr =>
    exact hkinds (by cases fr <;> simp [Op.kinds, Frame.recvKinds, ackKinds, streamKinds,
      Kind.addsNone])
  | recvDelayedHandshakeFrame type fr =>
    exact hkinds (by cases fr <;> simp [Op.kinds, Frame.recvDelayedKinds, ackKinds, streamKinds,
      Kind.addsNone])
  | recvHandshakeFrame type handshakeFailed fr =>
    exact hkinds (by cases fr <;> simp [Op.kinds, Frame.recvHandshakeKinds, ackKinds,
      Kind.addsNone])
  | _ => exact hkinds (by simp [Op.kinds, retryKinds, shutdownKinds, Kind.addsNone])

theorem Initial.clocked (h : Initial conn) : Clocked now conn := by
  cases h with
  | client => exact ⟨nofun, nofun⟩
  | server => exact ⟨nofun, nofun⟩

theorem timedRun_clocked {conn₀ : Conn} {ops : List Op} (hinit : Initial conn₀)
    (hrun : Runs.Run TimedStep conn₀ ops conn) :
    WellFormed conn ∧ Clocked (latest ops) conn := by
  apply hrun.invariant fun ops conn => WellFormed conn ∧ Clocked (latest ops) conn
  · exact ⟨hinit.wellFormed, hinit.clocked⟩
  · intro ops conn op conn' h hstep
    exact ⟨Step.wellFormed h.1 hstep.1, Step.clocked h.1 hstep h.2⟩

/-! ## What becomes of a packet whose time is over -/

/-- A packet behind its deadline that comes first is taken out and given up. -/
theorem connRetransmit_dead {destlen : Nat} (hinv : RtbInv conn.rtb)
    (htop : rtbTop conn.rtb = some ent) (hdue : ent.expiry ≤ ts)
    (hdead : ent.deadline ≤ ts) : ∃ rtb, Unlinked conn.rtb ent rtb ∧
      connRetransmit conn destlen ts = (.error .pktTimeout, conn.setRtb rtb) := by
  obtain ⟨rtb, hpop, hun⟩ := hinv.pop htop
  refine ⟨rtb, hun, ?_⟩
  unfold connRetransmit connRetransmitLoop
  rw [htop]
  dsimp only
  rw [if_neg (Nat.not_lt_of_le hdue), hpop]
  dsimp only
  rw [if_pos hdead]

/-- The entries that are given up before are alive. -/
theorem GaveUp.keeps_dead {ents : List RtbEntry} (h : GaveUp ts conn ents conn')
    (hinv : RtbInv conn.rtb)
    (hdead : ent.deadline ≤ ts) (hent : ent ∈ conn.rtb.head) : ent ∈ conn'.rtb.head := by
  induction h with
  | nil => exact hent
  | @cons conn conn' gone rtb ents popped alive why rest ih =>
    have hun := popped.unlinked hinv
    apply ih hun.inv
    rcases List.mem_cons.mp (hun.perm.symm.subset hent) with rfl | hent
    · exact absurd hdead (Nat.not_le_of_lt alive)
    · exact hent

theorem RetransmitEnd.dead {destlen : Nat} {r : Except Err (Option Pkt)}
    (h : RetransmitEnd destlen ts conn r conn')
    (hinv : RtbInv conn.rtb) (hok : ∀ ent ∈ conn.rtb.head, retransmittable ent.hd = true)
    (hr : ¬Fatal r)
    (hdead : ent.deadline ≤ ts) (hent : ent ∈ conn.rtb.head) :
    (r = .error .pktTimeout ∧ ent ∉ conn'.rtb.head) ∨ ent ∈ conn'.rtb.head := by
  have hother : ∀ {gone : RtbEntry} {rtb : Rtb}, Popped ts conn gone rtb → ts < gone.deadline →
    ent ∈ rtb.head := by
    intro gone rtb popped alive
    rcases List.mem_cons.mp ((popped.unlinked hinv).perm.symm.subset hent) with rfl | hent
    · exact absurd hdead (Nat.not_le_of_lt alive)
    · exact hent
  cases h with
  | idle => exact .inr hent
  | @refused gone rtb e popped why =>
    have hun := popped.unlinked hinv
    have hmem := hun.perm.subset List.mem_cons_self
    have htimeout : e = .pktTimeout := by
      rcases why with ⟨he, -⟩ | ⟨-, hunknown⟩
      · exact he
      · exact absurd (hunknown.symm.trans (hok gone hmem)) Bool.false_ne_true
    rcases List.mem_cons.mp (hun.perm.symm.subset hent) with rfl | hent
    · refine .inl ⟨congrArg _ htimeout, fun hin => hun.addr ?_⟩
      exact List.mem_map_of_mem hin
    · exact .inr hent
  | failed popped alive call fatal => exact absurd ⟨_, rfl, fatal⟩ hr
  | noBuf popped alive resent =>
    have hrest := hother popped alive
    cases resent with
    | noBuf => exact .inr (List.mem_cons_of_mem _ hrest)
  | sent popped alive resent =>
    have hrest := hother popped alive
    cases resent with
    | whole gone logs =>
      have hsame := logs.sameEntries.rtb
      refine .inr (List.mem_cons_of_mem _ ?_)
      rw [hsame]
      exact hrest
    | part new rest gone logs =>
      have hsame := logs.sameEntries.rtb
      refine .inr (List.mem_cons_of_mem _ ?_)
      rw [hsame]
      exact List.mem_cons_of_mem _ hrest

/-- In every run in time a packet is sent again at most twice. When it expires after that, the
retransmission that meets it takes it out and fails, and no other one touches it. -/
theorem retransmission_gives_up {conn₀ : Conn} {ops : List Op} (hinit : Initial conn₀)
    (hrun : Runs.Run TimedStep conn₀ ops conn) :
    (∀ ent ∈ conn.rtb.head ++ conn.earlyRtb, ent.count ≤ 2) ∧ ∀ destlen ts ent, latest ops ≤ ts →
    ent.count = 2 →
      ent.expiry ≤ ts →
        (rtbTop conn.rtb = some ent → ∃ rtb, Unlinked conn.rtb ent rtb ∧
          connRetransmit conn destlen ts = (.error .pktTimeout, conn.setRtb rtb)) ∧
        (ent ∈ conn.rtb.head → ∀ r conn', connRetransmit conn destlen ts = (r, conn') → ¬Fatal r →
          (r = .error .pktTimeout ∧ ent ∉ conn'.rtb.head) ∨ ent ∈ conn'.rtb.head) := by
  obtain ⟨hwf, hclk⟩ := timedRun_clocked hinit hrun
  constructor
  · intro ent hent
    rcases List.mem_append.mp hent with hent | hent
    · obtain ⟨t₀, h⟩ := hclk.head ent hent
      exact h.count
    · rw [(hclk.early ent hent).count]
      exact Nat.zero_le 2
  · intro destlen ts ent hts hcount hdue
    have hdead : ent ∈ conn.rtb.head → ent.deadline ≤ ts :=
      fun hent => (hclk.head ent hent).dead hcount hdue
    constructor
    · intro htop
      have hent : ent ∈ conn.rtb.head := hwf.inv.rtb.perm.subset (List.mem_of_mem_head? htop)
      exact connRetransmit_dead hwf.inv.rtb htop hdue (hdead hent)
    · intro hent r conn' h hr
      obtain ⟨ents, conn₁, hgave, hend⟩ := connRetransmit_cases hwf.inv.rtb h
      obtain ⟨rtb, rfl, hrtb, -, hsub, -⟩ := hgave.spec hwf.inv.rtb
      apply hend.dead hrtb _ hr (hdead hent) (hgave.keeps_dead hwf.inv.rtb (hdead hent) hent)
      intro ent hent
      exact (hwf.ok ent (List.mem_append_left _ (hsub.subset hent))).known

end

/-- A server whose handshake packet is sent three times. -/
def sentThreeTimesOps : List Op :=
  [.setKeys .handshakeTx ⟨[1], [1]⟩, .writePkt 1200 1, .writePkt 1200 1000001,
    .writePkt 1200 3000001]

theorem sentThreeTimes_run :
    Runs.Run TimedStep handshakeServer sentThreeTimesOps
    (runOps handshakeServer sentThreeTimesOps) :=
  (((Runs.Run.nil.snoc ⟨⟨_, rfl, by decide⟩, by decide⟩).snoc ⟨⟨_, rfl, by decide⟩, by decide⟩).snoc
    ⟨⟨_, rfl, by decide⟩, by decide⟩).snoc ⟨⟨_, rfl, by decide⟩, by decide⟩

theorem retransmission_gives_up_third :
    ∃ ent rtb, rtbTop (runOps handshakeServer sentThreeTimesOps).rtb = some ent ∧ ent.count = 2 ∧
    connRetransmit (runOps handshakeServer sentThreeTimesOps) 1200 7000001 =
      (.error .pktTimeout, (runOps handshakeServer sentThreeTimesOps).setRtb rtb) := by
  obtain ⟨ent, htop, hcount, hdue⟩ :
    ∃ ent, rtbTop (runOps handshakeServer sentThreeTimesOps).rtb = some ent ∧ ent.count = 2 ∧
      ent.expiry ≤ 7000001 := ⟨_, rfl, by decide, by decide⟩
  have hgives := retransmission_gives_up (.server ..) sentThreeTimes_run
  obtain ⟨rtb, -, hretransmit⟩ := (hgives.2 1200 7000001 ent (by decide) hcount hdue).1 htop
  exact ⟨ent, rtb, htop, hcount, hretransmit⟩

end Ngtcp2
