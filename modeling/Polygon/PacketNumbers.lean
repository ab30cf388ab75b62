import Polygon.ConnRecvPkt
import Polygon.StepChanges

/-!
# Packet numbers

Every packet that is encrypted takes the next packet number. Two things set the number back or
to a value of the application's choice: a Retry packet, and the first packet of a handshake. In
a run without the one, where the other chooses numbers above those in use, no nonce is used twice.
-/
namespace Ngtcp2

/-! ## The number of one packet -/

/-- At most one packet was encrypted, under the number behind `last`. -/
inductive Numbers (last : Nat) (conn conn' : Conn) : Prop where
  | none (log : encrypted conn'.log = encrypted conn.log) (last_eq : conn'.lastTxPktNum = last)
  | one (hd : PktHd) (log : encrypted conn'.log = encrypted conn.log ++ [hd])
      (num : hd.pktNum = addU64 last 1) (last_eq : conn'.lastTxPktNum = addU64 last 1)

/-- No packet was encrypted, and the last packet number is the same. -/
abbrev SameNums (conn conn' : Conn) : Prop :=
  encrypted conn'.log = encrypted conn.log ∧ conn'.lastTxPktNum = conn.lastTxPktNum

/-- The changes that encrypt packets or touch the packet number. -/
def Kind.numbers : Kind → Bool
  | .encrypt | .tx | .restart | .pkts | .frq | .hs => true
  | _ => false

section
variable {H : List Frame} {K : List Kind} {hds : List PktHd} {conn conn₁ conn' : Conn}
  {last destlen ts : Nat}

theorem SameNums.trans (h : SameNums conn conn₁) (h' : SameNums conn₁ conn') :
    SameNums conn conn' :=
  ⟨h'.1.trans h.1, h'.2.trans h.2⟩

theorem SameNums.none (h : SameNums conn conn') : Numbers conn.lastTxPktNum conn conn' :=
  .none h.1 h.2

theorem Numbers.of_log (h : encrypted conn₁.log = encrypted conn.log)
    (h' : Numbers last conn₁ conn') : Numbers last conn conn' := by
  cases h' with
  | none log last_eq => exact .none (log.trans h) last_eq
  | one hd log num last_eq => exact .one hd (by rw [log, h]) num last_eq

theorem SameNums.numbers (h : SameNums conn conn₁) (h' : Numbers conn₁.lastTxPktNum conn₁ conn') :
    Numbers conn.lastTxPktNum conn conn' := by
  rw [h.2] at h'
  exact .of_log h.1 h'

theorem Numbers.same (h : Numbers last conn conn₁) (h' : SameNums conn₁ conn') :
    Numbers last conn conn' := by
  cases h with
  | none log last_eq => exact .none (h'.1.trans log) (h'.2.trans last_eq)
  | one hd log num last_eq => exact .one hd (h'.1.trans log) num (h'.2.trans last_eq)

theorem encrypted_eq_nil {evs : List Event} (h : ∀ ev ∈ evs, ∀ hd, ev ≠ .encrypt hd) :
    encrypted evs = [] := by
  apply List.filterMap_eq_nil_iff.mpr
  intro ev hev
  cases ev with
  | encrypt hd => exact absurd rfl (h _ hev hd)
  | _ => rfl

/-- Most changes have nothing to do with packet numbers. -/
theorem Change.sameNums {k : Kind} (h : Change H k conn conn') (hk : k.numbers = false) :
    SameNums conn conn' := by
  have happend : ∀ evs : List Event, (∀ ev ∈ evs, ∀ hd, ev ≠ .encrypt hd) →
      encrypted (conn.log ++ evs) = encrypted conn.log := by
    intro evs hevs
    rw [encrypted_append, encrypted_eq_nil hevs, List.append_nil]
  have hone : ∀ ev : Event, (∀ hd, ev ≠ .encrypt hd) →
      encrypted (conn.log ++ [ev]) = encrypted conn.log := by
    intro ev hev
    exact happend [ev] fun ev' hmem => List.mem_singleton.mp hmem ▸ hev
  have hids : ∀ (conn₁ : Conn) (bidi : Bool) (ids : StreamIds),
      (conn₁.setIds bidi ids).lastTxPktNum = conn₁.lastTxPktNum := by
    intro conn₁ bidi ids
    cases bidi <;> rfl
  cases h with
  | idle same =>
    obtain ⟨evs, hsilent, hlog⟩ := same.log
    refine ⟨?_, same.lastTxPktNum⟩
    rw [hlog]
    apply happend
    rintro ev hev hd rfl
    cases hsilent _ hev
  | rx find tx zero rxOffset evs told fc =>
    refine ⟨happend evs ?_, rfl⟩
    rintro ev hev hd rfl
    rcases told _ hev with hs | ⟨_, _, he⟩ | ⟨-, _, he⟩
    · cases hs
    · cases he
    · cases he
  | openRemote =>
    refine ⟨?_, hids conn _ _⟩
    rw [openRemote_log]
    exact hone _ nofun
  | openLocal =>
    refine ⟨?_, hids _ _ _⟩
    rw [openLocal_log]
    exact hone _ nofun
  | consume =>
    refine ⟨?_, hids conn _ _⟩
    rw [consumeId_log]
  | close =>
    refine ⟨?_, hids _ _ _⟩
    rw [closeStrm_log]
    exact hone _ nofun
  | raiseIds => exact ⟨congrArg encrypted (Conn.setIds_log _ _ _), hids conn _ _⟩
  | rst => exact ⟨hone _ nofun, rfl⟩
  | pktAcked => exact ⟨hone _ nofun, rfl⟩
  | encrypt => cases hk
  | tx => cases hk
  | restart => cases hk
  | pkts => cases hk
  | frq => cases hk
  | refill => cases hk
  | advance => cases hk
  | _ => exact ⟨rfl, rfl⟩

theorem Changes.sameNums (h : Changes H K conn conn') (hK : ∀ k ∈ K, k.numbers = false) :
    SameNums conn conn' :=
  h.keeps (SameNums conn ·) (fun k hk _ _ hP hc => hP.trans (hc.sameNums (hK k hk))) ⟨rfl, rfl⟩

/-! ## The writers -/

theorem Logs.nums (h : Logs hds conn conn') :
    encrypted conn'.log = encrypted conn.log ++ hds ∧ conn'.lastTxPktNum = conn.lastTxPktNum := by
  obtain ⟨evs, _, _, _, hn, -, rfl⟩ := h
  exact ⟨by rw [encrypted_append, hn.encrypted], rfl⟩

theorem Logs.sameNums (h : Quiet conn conn') : SameNums conn conn' := by
  obtain ⟨hlog, hlast⟩ := Logs.nums h
  exact ⟨by rw [hlog, List.append_nil], hlast⟩

theorem Sends.numbers {unprotected : Bool} {frc : List Frame} {pkt : Pkt}
    (h : Sends conn unprotected frc pkt conn') : Numbers conn.lastTxPktNum conn conn' := by
  cases h with
  | untracked nil num frames logs =>
    obtain ⟨hlog, hlast⟩ := logs.nums
    exact .one pkt.hd hlog num hlast
  | tracked ent frc_eq addr flag fresh num form known tracks logs =>
    obtain ⟨hlog, hlast⟩ := logs.nums
    exact .one pkt.hd hlog num hlast

theorem Resent.numbers {ent ent' : RtbEntry} {r : Except Err (Option Pkt)}
    (h : Resent ts conn ent r ent' conn') : Numbers conn.lastTxPktNum conn conn' := by
  cases h with
  | nothing => exact .none rfl rfl
  | noBuf => exact .none rfl rfl
  | whole gone logs perm cancelled addr flag backoff tracks next =>
    obtain ⟨hlog, hlast⟩ := logs.nums
    exact .one _ hlog next.pktNum hlast
  | part new rest gone logs perm cancelled addr flag backoff tracks next left =>
    obtain ⟨hlog, hlast⟩ := logs.nums
    exact .one _ hlog next.pktNum hlast

theorem RetransmitEnd.numbers {r : Except Err (Option Pkt)}
    (h : RetransmitEnd destlen ts conn r conn') (hr : ¬Fatal r) :
    Numbers conn.lastTxPktNum conn conn' := by
  have hset : ∀ {c : Conn} (rtb : Rtb), SameNums c (c.setRtb rtb) := fun _ => ⟨rfl, rfl⟩
  cases h with
  | idle => exact .none rfl rfl
  | refused => exact .none rfl rfl
  | failed popped alive call fatal => exact absurd ⟨_, rfl, fatal⟩ hr
  | noBuf popped alive resent => exact (hset _).numbers (resent.numbers.same (hset _))
  | sent popped alive resent => exact (hset _).numbers (resent.numbers.same (hset _))

/-- A retransmission takes at most one number, and gives up packets without taking any. -/
theorem connRetransmit_numbers {r : Except Err (Option Pkt)} (hinv : RtbInv conn.rtb)
    (h : connRetransmit conn destlen ts = (r, conn')) (hr : ¬Fatal r) :
    Numbers conn.lastTxPktNum conn conn' ∧
      (r = .ok none → ∃ rtb, conn' = conn.setRtb rtb) := by
  obtain ⟨ents, conn₁, hgave, hend⟩ := connRetransmit_cases hinv h
  obtain ⟨rtb, rfl, -⟩ := hgave.spec hinv
  have hset : SameNums conn (conn.setRtb rtb) := ⟨rfl, rfl⟩
  refine ⟨hset.numbers (hend.numbers hr), fun he => ?_⟩
  cases hend with
  | idle => exact ⟨rtb, rfl⟩
  | _ => cases he

theorem HsAdvance.sameNums {frc : List Frame} (h : HsAdvance conn frc conn') :
    SameNums conn conn' := by
  cases h <;> exact ⟨rfl, rfl⟩

theorem HsWritten.numbers {r : Except Err Pkt} (h : HsWritten conn r conn') :
    Numbers conn.lastTxPktNum conn conn' := by
  cases h with
  | noBuf adv quiet => exact (adv.sameNums.trans (Logs.sameNums quiet)).none
  | sent adv close_eq sends => exact adv.sameNums.numbers sends.numbers

theorem AckWritten.numbers {r : Except Err (Option Pkt)} (h : AckWritten conn r conn') :
    Numbers conn.lastTxPktNum conn conn' := by
  cases h with
  | nothing quiet => exact (Logs.sameNums quiet).none
  | noBuf quiet => exact (Logs.sameNums quiet).none
  | sent sends => exact sends.numbers

theorem PktWritten.numbers {r : Except Err (Option Pkt)} (h : PktWritten conn r conn') :
    Numbers conn.lastTxPktNum conn conn' := by
  have hfilled : ∀ {ppe : Ppe} {w : Written} {new cancelled : List Frame} {conn₁ : Conn}
      (frq : List Frame), FrqWritten conn ppe w new cancelled conn₁ →
        SameNums conn (conn₁.setFrq frq) := by
    intro ppe w new cancelled conn₁ frq hfilled
    obtain ⟨bidi, uni, -, -, hq⟩ := hfilled.state
    obtain ⟨hlog, hlast⟩ := Logs.sameNums hq
    exact ⟨hlog, hlast⟩
  cases h with
  | nothing => exact .none rfl rfl
  | noBuf quiet => exact (Logs.sameNums quiet).none
  | empty filled result => exact (hfilled _ filled).none
  | sent filled sends => exact (hfilled _ filled).numbers sends.numbers

theorem connWritePkt_numbers {r : Except Err (Option Pkt)}
    (h : connWritePkt conn destlen ts = (r, conn')) (hr : ¬Fatal r) :
    Numbers conn.lastTxPktNum conn conn' := by
  obtain ⟨conn₁, ackfr, conn₂, hq, hqueue, hw⟩ := (connWritePkt_cases h).resolve_left hr
  obtain ⟨frq, strms, fcStrms, rfl⟩ := queueMaxStreamData_state hqueue
  obtain ⟨frq', maxRxOffset, heq⟩ := queueMaxData_state conn₁ ackfr
  have hqueued : SameNums conn₁ { queueMaxData conn₁ ackfr with frq, strms, fcStrms } := by
    rw [heq]
    exact ⟨rfl, rfl⟩
  exact ((Logs.sameNums hq).trans hqueued).numbers hw.numbers

theorem connWriteSingleFramePkt_numbers {fr : Frame} {r : Except Err Pkt}
    (h : connWriteSingleFramePkt conn destlen fr = (r, conn')) (hr : ¬Fatal r) :
    Numbers conn.lastTxPktNum conn conn' := by
  rcases connWriteSingleFramePkt_cases h with hf | ⟨-, hq⟩ | ⟨pkt, -, hhd, -, logs⟩
  · exact absurd hf hr
  · exact (Logs.sameNums hq).none
  · obtain ⟨hlog, hlast⟩ := logs.nums
    exact .one _ hlog (by rw [hhd]; rfl) hlast

theorem ngtcp2ConnWriteStream_numbers {streamId : Nat} {fin : Bool} {data : List UInt8}
    {r : Except Err (Pkt × Nat)}
    (h : ngtcp2ConnWriteStream conn destlen streamId fin data ts = (r, conn')) (hr : ¬Fatal r) :
    Numbers conn.lastTxPktNum conn conn' := by
  rcases ngtcp2ConnWriteStream_cases h with hf | ⟨e, -, hq⟩ | ⟨pkt, n, strm, fr, conn₁, -, hsent,
    -, logs, rfl⟩
  · exact absurd hf hr
  · exact (Logs.sameNums hq).none
  · obtain ⟨hlog, hlast⟩ := logs.nums
    have htrack : SameNums conn₁ (trackStreamPkt conn₁ pkt.hd fr ts pkt.len) := by
      unfold trackStreamPkt
      split <;> exact ⟨rfl, rfl⟩
    refine .one pkt.hd (htrack.1.trans hlog) hsent.num ?_
    show addU64 (trackStreamPkt conn₁ pkt.hd fr ts pkt.len).lastTxPktNum 1 = _
    rw [htrack.2, hlast]

end

/-! ## Numbers that the application chooses -/

/-- No byte of stream 0 was sent. -/
def stream0Unsent (conn : Conn) : Bool :=
  match conn.strms 0 with
  | none => true
  | some strm0 => strm0.txOffset == 0

/-- The number of a server's first packet. -/
def firstServerPktNum (conn : Conn) : Option Nat :=
  if txBuf0Empty conn then (conn.callbacks.sendServerHandshake conn.log).map (·.1) else some 0

/-- The number that the application chooses for the next handshake packet. -/
def chosenPktNum (conn : Conn) : Option Nat :=
  if conn.state = .clientInitial then
    if conn.statelessRetry then none
    else (conn.callbacks.sendClientInitial conn.log).map (·.1)
  else if conn.state = .serverInitial then firstServerPktNum conn
  else if conn.state = .serverTlsHandshakeFailed ∧ stream0Unsent conn = true then
    firstServerPktNum conn
  else none

/-- The step is no accepted Retry packet, and a number that is chosen is above those in use. -/
def Op.keepsNonces (conn : Conn) : Op → Bool
  | writePkt _ _ =>
    (chosenPktNum conn).all fun n => n < 2 ^ 64 && (encrypted conn.log).all (·.pktNum < n)
  | op => !op.completesRetry conn

section
variable {conn conn₁ conn' : Conn} {destlen ts : Nat}

theorem setLastTxPktNum_spec (conn : Conn) (n : Nat) :
    (conn.setLastTxPktNum n).log = conn.log ∧ (conn.setLastTxPktNum n).lastTxPktNum = n :=
  ⟨rfl, rfl⟩

theorem setInitialPktNum_spec (conn : Conn) (n : Nat) :
    (setInitialPktNum conn n).log = conn.log ∧ (setInitialPktNum conn n).lastTxPktNum = n :=
  ⟨rfl, rfl⟩

theorem setTxBuf0_nums (conn : Conn) (payload : List UInt8) :
    SameNums conn (setTxBuf0 conn payload) := by
  unfold setTxBuf0
  split <;> exact ⟨rfl, rfl⟩

theorem chosenPktNum_server (hfirst : FirstServerPkt conn) :
    chosenPktNum conn = firstServerPktNum conn := by
  unfold chosenPktNum
  rcases hfirst with hstate | ⟨hstate, hzero⟩
  · rw [hstate, if_neg nofun, if_pos rfl]
  · have hunsent : stream0Unsent conn = true := by
      unfold stream0Unsent
      split
      · rfl
      · next strm0 hfind =>
        rw [hzero strm0 hfind]
        rfl
    rw [hstate, hunsent, if_neg nofun, if_neg nofun, if_pos ⟨rfl, rfl⟩]

/-- What precedes a handshake packet leaves the number alone, or sets the chosen one. -/
theorem HsPrepared.nums (h : HsPrepared conn conn₁) :
    SameNums conn conn₁ ∨ ∃ n, chosenPktNum conn = some n ∧
      encrypted conn₁.log = encrypted conn.log ∧ conn₁.lastTxPktNum = subU64 n 1 := by
  have htell : ∀ ev : Event, (∀ hd, ev ≠ .encrypt hd) →
      encrypted (conn.tell ev).log = encrypted conn.log := by
    intro ev hev
    show encrypted (conn.log ++ [ev]) = _
    rw [encrypted_append, encrypted_eq_nil fun ev' hmem => List.mem_singleton.mp hmem ▸ hev,
      List.append_nil]
  cases h with
  | buffered => exact .inl ⟨rfl, rfl⟩
  | @clientInitial pktNum payload state answer =>
    have hsame := setTxBuf0_nums (conn.tell .sendClientInitial) payload
    have hlog := hsame.1.trans (htell _ nofun)
    cases hretry : conn.statelessRetry with
    | true =>
      rw [if_pos rfl]
      exact .inl ⟨hlog, hsame.2⟩
    | false =>
      rw [if_neg Bool.false_ne_true]
      obtain ⟨hkept, hset⟩ := setLastTxPktNum_spec
        (setTxBuf0 (conn.tell .sendClientInitial) payload) (subU64 pktNum 1)
      refine .inr ⟨pktNum, ?_, (congrArg encrypted hkept).trans hlog, hset⟩
      unfold chosenPktNum
      rw [if_pos state, hretry, if_neg Bool.false_ne_true, answer]
      rfl
  | @clientHandshake payload =>
    have hsame := setTxBuf0_nums (conn.tell .sendClientHandshake) payload
    exact .inl ⟨hsame.1.trans (htell _ nofun), hsame.2⟩
  | @serverHandshake pktNum payload =>
    have hsame := setTxBuf0_nums (conn.tell .sendServerHandshake) payload
    exact .inl ⟨hsame.1.trans (htell _ nofun), hsame.2⟩
  | @serverInitial pktNum payload empty first answer =>
    have hsame := setTxBuf0_nums (conn.tell .sendServerHandshake) payload
    obtain ⟨hkept, hset⟩ := setInitialPktNum_spec
      (setTxBuf0 (conn.tell .sendServerHandshake) payload) (subU64 pktNum 1)
    refine .inr ⟨pktNum, ?_, (congrArg encrypted hkept).trans (hsame.1.trans (htell _ nofun)),
      hset⟩
    rw [chosenPktNum_server first, firstServerPktNum, if_pos empty, answer]
    rfl
  | serverRest rest first =>
    obtain ⟨hkept, hset⟩ := setInitialPktNum_spec conn (subU64 0 1)
    refine .inr ⟨0, ?_, congrArg encrypted hkept, hset⟩
    rw [chosenPktNum_server first, firstServerPktNum, if_neg (by simp [rest])]

/-- A handshake packet takes the next number or the chosen one. -/
theorem HsCall.nums {r : Except Err (Option Pkt)} (h : HsCall conn r conn') :
    Numbers conn.lastTxPktNum conn conn' ∨
      ∃ n, chosenPktNum conn = some n ∧ Numbers (subU64 n 1) conn conn' := by
  cases h with
  | written prepared written =>
    rcases prepared.nums with hsame | ⟨n, hchosen, hlog, hlast⟩
    · exact .inl (hsame.numbers written.numbers)
    · have hnums := written.numbers
      rw [hlast] at hnums
      exact .inr ⟨n, hchosen, hnums.of_log hlog⟩
  | acked written => exact .inl written.numbers
  | failed quiet => exact .inl (Logs.sameNums quiet).none

theorem connProcessEarlyRtb_nums (conn : Conn) : SameNums conn (connProcessEarlyRtb conn) :=
  ⟨rfl, rfl⟩

theorem GoesOn.nums {r : Except Err (Option Pkt)} (hinv : EntriesInv conn)
    (h : GoesOn destlen ts conn r conn') (hr : ¬Fatal r) :
    Numbers conn.lastTxPktNum conn conn' ∨
      ∃ n, chosenPktNum conn = some n ∧ Numbers (subU64 n 1) conn conn' := by
  have hstate : ∀ (c : Conn) (state : ConnState), SameNums c (c.setState state) :=
    fun _ _ => ⟨rfl, rfl⟩
  cases h with
  | handshake call state =>
    rcases call.nums with hnums | ⟨n, hchosen, hnums⟩
    · exact .inl (hnums.same (hstate _ _))
    · exact .inr ⟨n, hchosen, hnums.same (hstate _ _)⟩
  | @early conn₁ _ _ quiet state call =>
    have hinv₁ := quiet.entriesInv hinv
    have hinv₂ : EntriesInv (conn₁.setState .postHandshake) := ⟨hinv₁.rtb, hinv₁.nodup, hinv₁.fresh⟩
    have hrtb := (connProcessEarlyRtb_spec hinv₂).1.rtb
    have hsame := ((Logs.sameNums quiet).trans (hstate conn₁ .postHandshake)).trans
      (connProcessEarlyRtb_nums _)
    exact .inl (hsame.numbers (connRetransmit_numbers hrtb call hr).1)
  | refused quiet => exact .inl ((Logs.sameNums quiet).trans (hstate _ _)).none
  | pkt state call => exact .inl (connWritePkt_numbers call hr)
  | idle => exact .inl (.none rfl rfl)

/-! ## Steps and runs -/

/-- What a step does to the packet numbers. -/
inductive StepNums (conn : Conn) (op : Op) (conn' : Conn) : Prop where
  | same (same : SameNums conn conn')
  | next (last_ne : conn.lastTxPktNum ≠ uint64Max) (nums : Numbers conn.lastTxPktNum conn conn')
  | chosen (n : Nat) (write : ∃ destlen ts, op = .writePkt destlen ts)
      (chosen : chosenPktNum conn = some n) (nums : Numbers (subU64 n 1) conn conn')

theorem ngtcp2ConnWritePkt_nums {r : Except Err (Option Pkt)} (hinv : EntriesInv conn)
    (h : ngtcp2ConnWritePkt conn destlen ts = (r, conn')) (hr : ¬Fatal r) :
    StepNums conn (.writePkt destlen ts) conn' := by
  by_cases hmax : conn.lastTxPktNum = uint64Max
  · rw [ngtcp2ConnWritePkt, if_pos hmax] at h
    obtain ⟨-, rfl⟩ := Prod.mk.inj h
    exact .same ⟨rfl, rfl⟩
  rcases ngtcp2ConnWritePkt_cases h with hf | ⟨-, rfl⟩ | ⟨-, hcall⟩ | ⟨conn₁, hcall, hgoes⟩
  · exact absurd hf hr
  · exact .same ⟨rfl, rfl⟩
  · exact .next hmax (connRetransmit_numbers hinv.rtb hcall hr).1
  · have hinv₁ := connRetransmit_entriesInv hinv hcall (not_fatal_ok _)
    obtain ⟨rtb, rfl⟩ := (connRetransmit_numbers hinv.rtb hcall (not_fatal_ok _)).2 rfl
    have hset : SameNums conn (conn.setRtb rtb) := ⟨rfl, rfl⟩
    rcases hgoes.nums hinv₁ hr with hnums | ⟨n, hchosen, hnums⟩
    · exact .next hmax (hset.numbers hnums)
    · exact .chosen n ⟨destlen, ts, rfl⟩ hchosen (hnums.of_log hset.1)

theorem ngtcp2ConnWriteAckPkt_nums {op : Op} {r : Except Err (Option Pkt)} (hinv : EntriesInv conn)
    (h : ngtcp2ConnWriteAckPkt conn destlen ts = (r, conn')) (hr : ¬Fatal r) :
    StepNums conn op conn' := by
  by_cases hmax : conn.lastTxPktNum = uint64Max
  · rw [ngtcp2ConnWriteAckPkt, if_pos hmax] at h
    obtain ⟨-, rfl⟩ := Prod.mk.inj h
    exact .same ⟨rfl, rfl⟩
  rcases ngtcp2ConnWriteAckPkt_cases h with hf | ⟨-, rfl⟩ | ⟨-, hcall⟩ | ⟨conn₁, hcall, hw⟩
  · exact absurd hf hr
  · exact .same ⟨rfl, rfl⟩
  · exact .next hmax (connRetransmit_numbers hinv.rtb hcall hr).1
  · obtain ⟨rtb, rfl⟩ := (connRetransmit_numbers hinv.rtb hcall (not_fatal_ok _)).2 rfl
    have hset : SameNums conn (conn.setRtb rtb) := ⟨rfl, rfl⟩
    exact .next hmax (hset.numbers hw.numbers)

/-- The two calls that close the connection share their packet. -/
theorem closePkt_nums {op : Op} {fr : Frame} {r : Except Err Pkt}
    (h : (if conn.lastTxPktNum = uint64Max then (.error .pktNumExhausted, conn)
      else if conn.state = .postHandshake then
        (connWriteSingleFramePkt conn destlen fr).andThen fun pkt conn =>
        (.ok pkt, conn.setState .closing)
      else (.error .invalidState, conn)) = (r, conn')) (hr : ¬Fatal r) :
    StepNums conn op conn' := by
  have hsame : ∀ {x : Except Err Pkt}, (x, conn) = (r, conn') → StepNums conn op conn' := by
    intro x hx
    obtain ⟨-, rfl⟩ := Prod.mk.inj hx
    exact .same ⟨rfl, rfl⟩
  split at h
  · exact hsame h
  next hmax =>
  split at h
  · rcases andThen_cases h with ⟨e, hw, rfl⟩ | ⟨pkt, conn₁, hw, h⟩
    · exact .next hmax (connWriteSingleFramePkt_numbers hw fun hf => hr hf.cast)
    · obtain ⟨-, rfl⟩ := Prod.mk.inj h
      exact .next hmax ((connWriteSingleFramePkt_numbers hw (not_fatal_ok _)).same ⟨rfl, rfl⟩)
  · exact hsame h

/-- The calls that write packets. -/
def Op.writesPkt : Op → Bool
  | writeStream .. | writePkt .. | writeAckPkt .. | writeConnectionClose ..
  | writeApplicationClose .. => true
  | _ => false

theorem Op.kinds_numbers {op : Op} (hw : op.writesPkt = false) :
    ∀ k ∈ op.kinds, k ≠ .restart → k.numbers = false := by
  cases op with
  | writeStream => cases hw
  | writePkt => cases hw
  | writeAckPkt => cases hw
  | writeConnectionClose => cases hw
  | writeApplicationClose => cases hw
  | recvFrame longForm fr =>
    cases fr <;> simp [Op.kinds, Frame.recvKinds, ackKinds, streamKinds, Kind.numbers]
  | recvDelayedHandshakeFrame type fr =>
    cases fr <;> simp [Op.kinds, Frame.recvDelayedKinds, ackKinds, streamKinds, Kind.numbers]
  | recvHandshakeFrame type failed fr =>
    cases fr <;> simp [Op.kinds, Frame.recvHandshakeKinds, ackKinds, Kind.numbers]
  | _ => simp [Op.kinds, Kind.numbers, shutdownKinds, retryKinds]

theorem Step.nums {ops : List Op} {op : Op} (hwf : WellFormed conn)
    (hstep : Step ops conn op conn') (hretry : op.completesRetry conn = false) :
    StepNums conn op conn' := by
  cases hw : op.writesPkt with
  | false =>
    refine .same ((hstep.changes_noRetry hwf hretry).sameNums fun k hk => ?_)
    obtain ⟨hk, hne⟩ := List.mem_filter.mp hk
    rcases List.mem_cons.mp hk with rfl | hk
    · rfl
    · exact Op.kinds_numbers hw k hk (bne_iff_ne.mp hne)
  | true =>
    obtain ⟨rv, hrun, hs⟩ := hstep
    have hrv := not_fatal_of_survives hs
    cases op with
    | writeStream destlen streamId fin data ts =>
      obtain ⟨x, hx, herr⟩ := void_cases hrun
      have hr : ¬Fatal x := fun ⟨e, he, hfatal⟩ => hrv ⟨e, (herr e).mpr he, hfatal⟩
      by_cases hmax : conn.lastTxPktNum = uint64Max
      · rw [ngtcp2ConnWriteStream, if_pos hmax] at hx
        obtain ⟨-, rfl⟩ := Prod.mk.inj hx
        exact .same ⟨rfl, rfl⟩
      · exact .next hmax (ngtcp2ConnWriteStream_numbers hx hr)
    | writePkt destlen ts =>
      obtain ⟨x, hx, herr⟩ := void_cases hrun
      have hr : ¬Fatal x := fun ⟨e, he, hfatal⟩ => hrv ⟨e, (herr e).mpr he, hfatal⟩
      exact ngtcp2ConnWritePkt_nums hwf.inv hx hr
    | writeAckPkt destlen ts =>
      obtain ⟨x, hx, herr⟩ := void_cases hrun
      have hr : ¬Fatal x := fun ⟨e, he, hfatal⟩ => hrv ⟨e, (herr e).mpr he, hfatal⟩
      exact ngtcp2ConnWriteAckPkt_nums hwf.inv hx hr
    | writeConnectionClose destlen errorCode =>
      obtain ⟨x, hx, herr⟩ := void_cases hrun
      have hr : ¬Fatal x := fun ⟨e, he, hfatal⟩ => hrv ⟨e, (herr e).mpr he, hfatal⟩
      exact closePkt_nums hx hr
    | writeApplicationClose destlen appErrorCode =>
      obtain ⟨x, hx, herr⟩ := void_cases hrun
      have hr : ¬Fatal x := fun ⟨e, he, hfatal⟩ => hrv ⟨e, (herr e).mpr he, hfatal⟩
      unfold ngtcp2ConnWriteApplicationClose at hx
      split at hx
      · obtain ⟨-, rfl⟩ := Prod.mk.inj hx
        exact .same ⟨rfl, rfl⟩
      · exact closePkt_nums hx hr
    | _ => cases hw

/-- The numbers of the encrypted packets get larger, up to the last one. -/
structure NumbersInv (conn : Conn) : Prop where
  increasing : ((encrypted conn.log).map (·.pktNum)).Pairwise (· < ·)
  le_last : ∀ hd ∈ encrypted conn.log, hd.pktNum ≤ conn.lastTxPktNum
  last_le : conn.lastTxPktNum ≤ uint64Max

/-- One more number, above all those in use. -/
theorem NumbersInv.numbers {last : Nat} (h : NumbersInv conn) (hlast : last ≤ uint64Max)
    (hle : ∀ hd ∈ encrypted conn.log, hd.pktNum ≤ last ∧ hd.pktNum < addU64 last 1)
    (hnums : Numbers last conn conn') : NumbersInv conn' := by
  have hnext : addU64 last 1 ≤ uint64Max := Nat.le_of_lt_succ (Nat.mod_lt _ (by decide))
  cases hnums with
  | none log last_eq =>
    refine ⟨?_, ?_, last_eq ▸ hlast⟩
    · rw [log]
      exact h.increasing
    · rw [log, last_eq]
      exact fun hd hmem => (hle hd hmem).1
  | one hd log num last_eq =>
    refine ⟨?_, ?_, last_eq ▸ hnext⟩
    · rw [log, List.map_append, List.pairwise_append]
      refine ⟨h.increasing, List.pairwise_singleton _ _, fun n hn m hm => ?_⟩
      obtain ⟨hd', hmem, rfl⟩ := List.mem_map.mp hn
      obtain rfl := List.mem_singleton.mp hm
      show hd'.pktNum < hd.pktNum
      rw [num]
      exact (hle hd' hmem).2
    · rw [log, last_eq]
      intro hd' hmem
      rcases List.mem_append.mp hmem with hmem | hmem
      · exact Nat.le_of_lt (hle hd' hmem).2
      · obtain rfl := List.mem_singleton.mp hmem
        exact Nat.le_of_eq num

theorem NumbersInv.step {op : Op} (h : NumbersInv conn) (hnums : StepNums conn op conn')
    (hok : op.keepsNonces conn = true) : NumbersInv conn' := by
  cases hnums with
  | same same =>
    refine ⟨?_, ?_, ?_⟩
    · rw [same.1]
      exact h.increasing
    · rw [same.1, same.2]
      exact h.le_last
    · rw [same.2]
      exact h.last_le
  | next last_ne nums =>
    refine h.numbers h.last_le (fun hd hmem => ⟨h.le_last hd hmem, ?_⟩) nums
    have hlt : conn.lastTxPktNum + 1 < 2 ^ 64 := by
      have := h.last_le
      unfold uint64Max at this last_ne
      omega
    rw [addU64_of_lt hlt]
    exact Nat.lt_succ_of_le (h.le_last hd hmem)
  | chosen n write chosen nums =>
    obtain ⟨destlen, ts, rfl⟩ := write
    have hok : (chosenPktNum conn).all (fun n =>
      n < 2 ^ 64 && (encrypted conn.log).all (·.pktNum < n)) = true := hok
    rw [chosen] at hok
    obtain ⟨hn, hall⟩ := Bool.and_eq_true_iff.mp hok
    have hn : n < 2 ^ 64 := of_decide_eq_true hn
    have hle : subU64 n 1 ≤ uint64Max := by
      unfold subU64 uint64Max
      omega
    refine h.numbers hle (fun hd hmem => ?_) nums
    have hlt : hd.pktNum < n := of_decide_eq_true (List.all_eq_true.mp hall hd hmem)
    have hsub : subU64 n 1 = n - 1 := subU64_of_le (by omega) hn
    rw [hsub, addU64_of_lt (by omega)]
    omega

theorem Initial.numbersInv (h : Initial conn) : NumbersInv conn := by
  have hnew : conn.log = [] ∧ conn.lastTxPktNum = 0 := by cases h <;> exact ⟨rfl, rfl⟩
  have hnone : encrypted conn.log = [] := by
    rw [hnew.1]
    rfl
  refine ⟨?_, ?_, ?_⟩
  · rw [hnone]
    exact List.Pairwise.nil
  · rw [hnone]
    nofun
  · rw [hnew.2]
    exact Nat.zero_le _

theorem Op.keepsNonces_noRetry {op : Op} (h : op.keepsNonces conn = true) :
    op.completesRetry conn = false := by
  cases op with
  | writePkt destlen ts => rfl
  | _ => exact (Bool.not_eq_true' _).mp h

/-- The invariant of runs in which no number is set back. -/
theorem numbersInv_of_run {conn₀ : Conn} {ops : List Op} (init : Initial conn₀)
    (hrun : Runs.Run (Runs.Guarded Step fun _ conn op => op.keepsNonces conn = true)
      conn₀ ops conn) : NumbersInv conn := by
  refine (hrun.invariant (fun _ conn => WellFormed conn ∧ NumbersInv conn)
    ⟨init.wellFormed, init.numbersInv⟩ ?_).2
  rintro ops conn₁ op conn₂ ⟨hwf, h⟩ ⟨hstep, hok⟩
  exact ⟨hstep.wellFormed hwf, h.step (hstep.nums hwf (Op.keepsNonces_noRetry hok)) hok⟩

/-! ## Nonces -/

theorem zipWith_xor_inj {as bs cs : List UInt8} (hb : bs.length = as.length)
    (hc : cs.length = as.length)
    (h : List.zipWith (· ^^^ ·) as bs = List.zipWith (· ^^^ ·) as cs) : bs = cs := by
  induction as generalizing bs cs with
  | nil => rw [List.eq_nil_of_length_eq_zero hb, List.eq_nil_of_length_eq_zero hc]
  | cons a as ih =>
    obtain ⟨b, bs, rfl⟩ := List.exists_cons_of_length_eq_add_one hb
    obtain ⟨c, cs, rfl⟩ := List.exists_cons_of_length_eq_add_one hc
    obtain ⟨hhead, htail⟩ := List.cons.inj h
    rw [(UInt8.xor_right_inj a).mp hhead, ih (Nat.succ.inj hb) (Nat.succ.inj hc) htail]

/-- The last eight bytes of a nonce carry the packet number. -/
theorem cryptoCreateNonce_inj {iv : List UInt8} (hiv : 8 ≤ iv.length) {n m : Nat}
    (hn : n ≤ uint64Max) (hm : m ≤ uint64Max)
    (h : cryptoCreateNonce iv n = cryptoCreateNonce iv m) : n = m := by
  have hlen : (iv.drop (iv.length - 8)).length = 8 := by
    rw [List.length_drop]
    omega
  have hput : ∀ k, (putUint64be k).length = (iv.drop (iv.length - 8)).length := by
    intro k
    rw [hlen, putUint64be, BigEndian.put_length]
  have heq := zipWith_xor_inj (hput n) (hput m) (List.append_cancel_left h)
  have hget : ∀ {k : Nat}, k ≤ uint64Max → getUint64 (putUint64be k ++ []) = k :=
    fun hk => getUint64_put (Nat.lt_succ_of_le hk) []
  rw [← hget hn, ← hget hm, heq]

/-- A handshake, and two packets behind it. -/
def twoPktOps : List Op :=
  handshakeOps ++ [.recvFrame false (.ping [8]), .writePkt 1200 2, .recvFrame false (.ping [9]),
    .writePkt 1200 3]

end

end Ngtcp2
