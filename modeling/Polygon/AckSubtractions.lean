import Polygon.AckOfAck
import Polygon.AckRanges

/-!
# The subtractions of the ACK consumers

The validator adds before it compares, its three consumers subtract without looking.
The consumers are written a second time here, with subtractions that fail where they
would wrap around.
-/
namespace Ngtcp2

/-! ## The ranges over the integers -/

/-- The lower and the upper bounds of the blocks that follow a range ending at `minAck`. -/
def ackIntBlks : Int → List AckBlk → List (Int × Int)
  | _, [] => []
  | minAck, blk :: blks =>
    let largestAck := minAck - blk.gap - 2
    let leastAck := largestAck - blk.blklen
    (leastAck, largestAck) :: ackIntBlks leastAck blks

/-- All ranges of the frame, from its largest packet number downwards. -/
def AckFrame.intRanges (fr : AckFrame) : List (Int × Int) :=
  let minAck : Int := fr.largestAck - fr.firstAckBlklen
  (minAck, (fr.largestAck : Int)) :: ackIntBlks minAck fr.blks

/-- Both bounds of every range are packet numbers. -/
def NonnegBounds (rs : List (Int × Int)) : Prop := ∀ r ∈ rs, 0 ≤ r.1 ∧ 0 ≤ r.2

@[simp] theorem nonnegBounds_nil : NonnegBounds [] := fun _ h => nomatch h

@[simp] theorem nonnegBounds_cons (r : Int × Int) (rs : List (Int × Int)) :
    NonnegBounds (r :: rs) ↔ (0 ≤ r.1 ∧ 0 ≤ r.2) ∧ NonnegBounds rs :=
  List.forall_mem_cons

/-- The fields are below 2^62, as all that a varint holds. -/
structure AckFrame.Bounded (fr : AckFrame) : Prop where
  largest : fr.largestAck < 2 ^ 62
  first : fr.firstAckBlklen < 2 ^ 62
  blks : ∀ blk ∈ fr.blks, blk.gap < 2 ^ 62 ∧ blk.blklen < 2 ^ 62

theorem validateAckBlks_iff (minAck : Nat) (blks : List AckBlk) :
    validateAckBlks minAck blks = true ↔ NonnegBounds (ackIntBlks minAck blks) := by
  induction blks generalizing minAck with
  | nil => simp [validateAckBlks, ackIntBlks]
  | cons blk blks ih =>
    simp only [validateAckBlks, ackIntBlks, nonnegBounds_cons]
    split
    · next hgap =>
      have hneg : ¬(0 : Int) ≤ minAck - blk.gap - 2 := by omega
      exact iff_of_false (by decide) fun h => hneg h.1.2
    next hgap =>
    split
    · next hlen =>
      have hneg : ¬(0 : Int) ≤ minAck - blk.gap - 2 - blk.blklen := by omega
      exact iff_of_false (by decide) fun h => hneg h.1.1
    next hlen =>
    have hleast : ((minAck - (blk.gap + 2) - blk.blklen : Nat) : Int) =
        minAck - blk.gap - 2 - blk.blklen := by omega
    rw [ih, hleast]
    refine ⟨fun h => ⟨⟨?_, ?_⟩, h⟩, And.right⟩
    · omega
    · omega

/-- The validator accepts exactly the frames whose ranges stay above zero. -/
theorem pktValidateAck_iff (fr : AckFrame) :
    pktValidateAck fr = true ↔ NonnegBounds fr.intRanges := by
  simp only [pktValidateAck, AckFrame.intRanges, nonnegBounds_cons]
  split
  · next hlt =>
    have hneg : ¬(0 : Int) ≤ fr.largestAck - fr.firstAckBlklen := by omega
    exact iff_of_false (by decide) fun h => hneg h.1.1
  · next hle =>
    have hleast : ((fr.largestAck - fr.firstAckBlklen : Nat) : Int) =
      fr.largestAck - fr.firstAckBlklen := by omega
    rw [validateAckBlks_iff, hleast]
    refine ⟨fun h => ⟨⟨?_, ?_⟩, h⟩, And.right⟩
    · omega
    · omega

/-! ## Checked consumers -/

/-- The next range, `none` where one of its three subtractions wraps around. -/
def ackBlkRangeChecked (minAck : Nat) (blk : AckBlk) : Option (Nat × Nat) :=
  ((checkedSub minAck blk.gap).bind (checkedSub · 2)).bind fun largestAck =>
    (checkedSub largestAck blk.blklen).map fun leastAck => (leastAck, largestAck)

/-- `acktr_on_ack`, its further ranges. It stops when no entry is left. -/
def acktrOnAckBlksChecked (minAck : Nat) :
    List AckBlk → List AcktrEntry → Option (List AcktrEntry)
  | [], es => some es
  | _, [] => some []
  | blk :: blks, e :: es =>
    (ackBlkRangeChecked minAck blk).bind fun range =>
      let (kept, rest) := acktrOnAckBlk range.1 range.2 (e :: es)
      (acktrOnAckBlksChecked range.1 blks rest).map (kept ++ ·)

/-- `acktr_on_ack`. -/
def acktrOnAckChecked (acktr : Acktr) (j : Nat) : Option Acktr :=
  match acktr.acks[j]? with
  | none => some acktr
  | some ackEnt =>
    let fr := ackEnt.ack
    let newer := acktr.ent.takeWhile fun e => fr.largestAck < e.pktNum
    match acktr.ent.drop newer.length with
    | [] => some { acktr with acks := acktr.acks.take j }
    | e :: es =>
      (checkedSub fr.largestAck fr.firstAckBlklen).bind fun minAck =>
        (acktrOnAckBlksChecked minAck fr.blks
          (acktrOnAckFirst minAck fr.largestAck (e :: es))).map fun es =>
            { acktr with ent := newer ++ es, acks := acktr.acks.take j }

/-- `ngtcp2_acktr_recv_ack`, the loop over the further ranges. -/
def acktrFindBlksChecked (unprotected : Bool) (minAck : Nat) :
    List AckBlk → List AcktrAckEntry → Nat → Option (Option Nat)
  | [], _, _ => some none
  | blk :: blks, es, j =>
    (ackBlkRangeChecked minAck blk).bind fun range =>
      let skipped := es.takeWhile fun e =>
        range.2 < e.pktNum || (range.1 ≤ e.pktNum && unprotected && !e.unprotected)
      match es.drop skipped.length with
      | [] => some none
      | e :: rest =>
        if e.pktNum < range.1 then
          acktrFindBlksChecked unprotected range.1 blks (e :: rest) (j + skipped.length)
        else some (some (j + skipped.length))

/-- `ngtcp2_acktr_recv_ack` up to its call of `acktr_on_ack`: the ring position it calls it with. -/
def acktrSearchChecked (acktr : Acktr) (fr : AckFrame) (unprotected : Bool) :
    Option (Option Nat) :=
  let newer := acktr.acks.takeWhile fun e => fr.largestAck < e.pktNum
  match acktr.acks.drop newer.length with
  | [] => some none
  | e :: es =>
    (checkedSub fr.largestAck fr.firstAckBlklen).bind fun minAck =>
      let skipped := (e :: es).takeWhile fun e =>
        minAck ≤ e.pktNum && e.pktNum ≤ fr.largestAck && unprotected && !e.unprotected
      let j := newer.length + skipped.length
      match acktr.acks.drop j with
      | [] => some none
      | e :: rest =>
        if minAck ≤ e.pktNum && e.pktNum ≤ fr.largestAck then some (some j)
        else acktrFindBlksChecked unprotected minAck fr.blks (e :: rest) j

/-- `ngtcp2_acktr_recv_ack`. -/
def acktrRecvAckChecked (acktr : Acktr) (fr : AckFrame) (unprotected : Bool) : Option Acktr :=
  (acktrSearchChecked acktr fr unprotected).bind fun
    | none => some acktr
    | some j => acktrOnAckChecked acktr j

/-- A call that may fail, and then a part with checked subtractions. -/
def Result.andThenChecked {α β : Type} (r : Result α) (f : α → Conn → Option (Result β)) :
    Option (Result β) :=
  match r with
  | (.error e, conn) => some (.error e, conn)
  | (.ok a, conn) => f a conn

/-- `ngtcp2_rtb_recv_ack`, its further ranges. -/
def rtbRecvAckBlksChecked (unprotected : Bool) :
    Nat → List AckBlk → List RtbEntry → Conn → Option (Result Unit)
  | _, [], _, conn => some (.ok (), conn)
  | _, _, [], conn => some (.ok (), conn)
  | minAck, blk :: blks, ent :: ents, conn =>
    (ackBlkRangeChecked minAck blk).bind fun range =>
      (rtbRecvAckBlk unprotected range.1 range.2 (ent :: ents) conn).andThenChecked
        fun ents conn => rtbRecvAckBlksChecked unprotected range.1 blks ents conn

/-- `ngtcp2_rtb_recv_ack`. -/
def ngtcp2RtbRecvAckChecked (conn : Conn) (fr : AckFrame) (unprotected : Bool) :
    Option (Result Unit) :=
  match conn.rtb.head.dropWhile fun ent => fr.largestAck < ent.hd.pktNum with
  | [] => some (.ok (), conn)
  | ent :: ents =>
    (checkedSub fr.largestAck fr.firstAckBlklen).bind fun minAck =>
      (rtbRecvAckFirst unprotected minAck fr.largestAck (ent :: ents) conn).andThenChecked
        fun ents conn => rtbRecvAckBlksChecked unprotected minAck fr.blks ents conn

section
variable {minAck : Nat} {blk : AckBlk} {blks : List AckBlk} {fr : AckFrame} {unprotected : Bool}
  {acktr : Acktr} {conn : Conn}

theorem AckFrame.Bounded.wf (h : fr.Bounded) (hvalid : pktValidateAck fr = true) : fr.Wf :=
  ⟨hvalid, Nat.lt_trans h.largest (by decide)⟩

theorem ackBlkRange_checked (h : validateAckBlks minAck (blk :: blks) = true)
    (hmin : minAck < 2 ^ 64) : ackBlkRangeChecked minAck blk = some (ackBlkRange minAck blk) := by
  obtain ⟨hgap, hlen, -⟩ := validateAckBlks_cons h hmin
  have hexact : subU64 minAck blk.gap = minAck - blk.gap := subU64_of_le (by omega) hmin
  unfold ackBlkRangeChecked
  unfold ackBlkRange at hgap hlen ⊢
  dsimp only at hgap hlen ⊢
  rw [checkedSub_of_le (by omega) hmin, Option.bind_some]
  generalize subU64 minAck blk.gap = rest at hexact hgap hlen ⊢
  rw [checkedSub_of_le (by omega) (by omega), Option.bind_some]
  generalize subU64 rest 2 = largestAck at hgap hlen ⊢
  rw [checkedSub_of_le (by omega) (by omega), Option.map_some]

theorem AckFrame.Wf.checked (h : fr.Wf) : checkedSub fr.largestAck fr.firstAckBlklen =
    some (subU64 fr.largestAck fr.firstAckBlklen) :=
  checkedSub_of_le h.first.2.1 h.largest

/-- What the blocks of a valid frame are walked with. -/
theorem AckFrame.Wf.walk (h : fr.Wf) :
    validateAckBlks (subU64 fr.largestAck fr.firstAckBlklen) fr.blks = true ∧
      subU64 fr.largestAck fr.firstAckBlklen < 2 ^ 64 := by
  obtain ⟨hsub, hle, hvalid⟩ := h.first
  have hlt := h.largest
  rw [hsub]
  exact ⟨hvalid, by omega⟩

/-! ### `acktr_on_ack` -/

/-- One range removed with both subtractions the same. -/
theorem acktrOnAckBlks_cons {range : Nat × Nat} {e : AcktrEntry} {es : List AcktrEntry}
    (hrange : ackBlkRange minAck blk = range)
    (hchecked : ackBlkRangeChecked minAck blk = some range)
    (hrest : ∀ es, acktrOnAckBlksChecked range.1 blks es = some (acktrOnAckBlks range.1 blks es)) :
    acktrOnAckBlksChecked minAck (blk :: blks) (e :: es) =
      some (acktrOnAckBlks minAck (blk :: blks) (e :: es)) := by
  rw [acktrOnAckBlksChecked, acktrOnAckBlks, hchecked, hrange, Option.bind_some]
  dsimp only
  rw [hrest, Option.map_some]

theorem acktrOnAckBlks_checked (hvalid : validateAckBlks minAck blks = true)
    (hmin : minAck < 2 ^ 64) (es : List AcktrEntry) :
    acktrOnAckBlksChecked minAck blks es = some (acktrOnAckBlks minAck blks es) := by
  induction blks generalizing minAck es with
  | nil => rfl
  | cons blk blks ih =>
    cases es with
    | nil =>
      rw [acktrOnAckBlks_nil]
      simp [acktrOnAckBlksChecked]
    | cons e es =>
      obtain ⟨hgap, hlen, hrest⟩ := validateAckBlks_cons hvalid hmin
      exact acktrOnAckBlks_cons rfl (ackBlkRange_checked hvalid hmin) (ih hrest (by omega))

/-- The entry's ACK frame is one that the validator accepts. -/
theorem acktrOnAck_checked {j : Nat} (h : ∀ ackEnt, acktr.acks[j]? = some ackEnt → ackEnt.ack.Wf) :
    acktrOnAckChecked acktr j = some (acktrOnAck acktr j) := by
  unfold acktrOnAckChecked acktrOnAck
  cases hfind : acktr.acks[j]? with
  | none => rfl
  | some ackEnt =>
    have hwf := h ackEnt hfind
    obtain ⟨hvalid, hmin⟩ := hwf.walk
    dsimp only
    have hsplit : (acktr.ent.takeWhile fun e => ackEnt.ack.largestAck < e.pktNum) ++
        acktr.ent.drop (acktr.ent.takeWhile fun e => ackEnt.ack.largestAck < e.pktNum).length =
          acktr.ent := by
      rw [drop_takeWhile, List.takeWhile_append_dropWhile]
    generalize (acktr.ent.takeWhile fun e => ackEnt.ack.largestAck < e.pktNum) = newer at hsplit ⊢
    cases hdrop : acktr.ent.drop newer.length with
    | nil =>
      -- No entry is left, so nothing is subtracted and nothing is removed.
      have hfirst : acktrOnAckFirst (subU64 ackEnt.ack.largestAck ackEnt.ack.firstAckBlklen)
          ackEnt.ack.largestAck [] = [] := rfl
      rw [hdrop] at hsplit
      rw [hfirst, acktrOnAckBlks_nil, hsplit]
    | cons e es =>
      dsimp only
      rw [hwf.checked, Option.bind_some, acktrOnAckBlks_checked hvalid hmin]
      rfl

/-! ### `ngtcp2_acktr_recv_ack` -/

theorem acktrFindBlks_checked (hvalid : validateAckBlks minAck blks = true)
    (hmin : minAck < 2 ^ 64) (es : List AcktrAckEntry) (j : Nat) :
    acktrFindBlksChecked unprotected minAck blks es j =
      some (acktrFindBlks unprotected minAck blks es j) := by
  induction blks generalizing minAck es j with
  | nil => rfl
  | cons blk blks ih =>
    obtain ⟨hgap, hlen, hrest⟩ := validateAckBlks_cons hvalid hmin
    have ih' := fun es j => ih hrest (by omega) es j
    rw [acktrFindBlksChecked, acktrFindBlks, ackBlkRange_checked hvalid hmin, Option.bind_some]
    generalize ackBlkRange minAck blk = range at ih' ⊢
    dsimp only
    generalize (es.takeWhile fun e => decide (range.2 < e.pktNum) ||
      (decide (range.1 ≤ e.pktNum) && unprotected && !e.unprotected)) = skipped
    cases es.drop skipped.length with
    | nil => rfl
    | cons e rest =>
      dsimp only
      split
      · exact ih' _ _
      · rfl

/-- The search for the ACK frame that was acknowledged never wraps, and `ngtcp2_acktr_recv_ack`
goes on with what it finds. -/
theorem acktrSearch_checked (hwf : fr.Wf) (acktr : Acktr) (unprotected : Bool) :
    ∃ found, acktrSearchChecked acktr fr unprotected = some found ∧
      acktrRecvAck acktr fr unprotected = match found with
        | none => acktr
        | some j => acktrOnAck acktr j := by
  obtain ⟨hvalid, hmin⟩ := hwf.walk
  unfold acktrSearchChecked acktrRecvAck
  dsimp only
  generalize (acktr.acks.takeWhile fun e => fr.largestAck < e.pktNum) = newer
  cases hdrop : acktr.acks.drop newer.length with
  | nil =>
    refine ⟨none, rfl, ?_⟩
    simp only [List.takeWhile_nil, List.length_nil, Nat.add_zero, hdrop]
  | cons e es =>
    dsimp only
    rw [hwf.checked, Option.bind_some]
    generalize subU64 fr.largestAck fr.firstAckBlklen = minAck at hvalid hmin ⊢
    generalize newer.length + ((e :: es).takeWhile fun e => decide (minAck ≤ e.pktNum) &&
      decide (e.pktNum ≤ fr.largestAck) && unprotected && !e.unprotected).length = j
    cases acktr.acks.drop j with
    | nil => exact ⟨none, rfl, rfl⟩
    | cons e rest =>
      dsimp only
      split
      · exact ⟨some j, rfl, rfl⟩
      · exact ⟨_, acktrFindBlks_checked hvalid hmin _ _, rfl⟩

theorem acktrRecvAck_checked (hwf : fr.Wf) (hacks : ∀ e ∈ acktr.acks, e.ack.Wf)
    (unprotected : Bool) :
    acktrRecvAckChecked acktr fr unprotected = some (acktrRecvAck acktr fr unprotected) := by
  obtain ⟨found, hsearch, hrecv⟩ := acktrSearch_checked hwf acktr unprotected
  rw [acktrRecvAckChecked, hsearch, Option.bind_some, hrecv]
  cases found with
  | none => rfl
  | some j => exact acktrOnAck_checked fun e he => hacks e (List.mem_of_getElem? he)

/-! ### `ngtcp2_rtb_recv_ack` -/

theorem rtbRecvAckBlks_checked (hvalid : validateAckBlks minAck blks = true)
    (hmin : minAck < 2 ^ 64) (ents : List RtbEntry) (conn : Conn) :
    rtbRecvAckBlksChecked unprotected minAck blks ents conn =
      some (rtbRecvAckBlks unprotected minAck blks ents conn) := by
  induction blks generalizing minAck ents conn with
  | nil => rfl
  | cons blk blks ih =>
    cases ents with
    | nil => rfl
    | cons ent ents =>
      obtain ⟨hgap, hlen, hrest⟩ := validateAckBlks_cons hvalid hmin
      have ih' := fun ents conn => ih hrest (by omega) ents conn
      rw [rtbRecvAckBlksChecked, rtbRecvAckBlks.eq_3 _ _ _ _ _ _ (by simp),
        ackBlkRange_checked hvalid hmin, Option.bind_some]
      generalize ackBlkRange minAck blk = range at ih' ⊢
      dsimp only
      generalize rtbRecvAckBlk unprotected range.1 range.2 (ent :: ents) conn = r
      obtain ⟨x, conn₁⟩ := r
      cases x with
      | error e => rfl
      | ok ents₁ => exact ih' ents₁ conn₁

theorem ngtcp2RtbRecvAck_checked (hwf : fr.Wf) (conn : Conn) (unprotected : Bool) :
    ngtcp2RtbRecvAckChecked conn fr unprotected = some (ngtcp2RtbRecvAck conn fr unprotected) := by
  obtain ⟨hvalid, hmin⟩ := hwf.walk
  unfold ngtcp2RtbRecvAckChecked ngtcp2RtbRecvAck
  dsimp only
  cases conn.rtb.head.dropWhile fun ent => fr.largestAck < ent.hd.pktNum with
  | nil =>
    rw [rtbRecvAckFirst, andThen_ok]
    cases fr.blks <;> rfl
  | cons ent ents =>
    dsimp only
    rw [hwf.checked, Option.bind_some]
    generalize rtbRecvAckFirst unprotected _ _ (ent :: ents) conn = r
    obtain ⟨x, conn₁⟩ := r
    cases x with
    | error e => rfl
    | ok ents₁ => exact rtbRecvAckBlks_checked hvalid hmin ents₁ conn₁

end

/-- The validator accepts the frames whose ranges have bounds of at least 0, and no others. Where it
accepts, no consumer computes a difference that wraps around: not the retransmission buffer, not
the search for an acknowledged ACK frame, not the removal for a frame of the ring, and not the two
together after any run of the tracker. -/
theorem pktValidateAck_noWrap :
    (∀ fr : AckFrame, fr.Bounded → (pktValidateAck fr = true ↔ NonnegBounds fr.intRanges)) ∧
      ∀ fr : AckFrame, fr.Bounded → pktValidateAck fr = true →
        (∀ conn unprotected, ngtcp2RtbRecvAckChecked conn fr unprotected =
          some (ngtcp2RtbRecvAck conn fr unprotected)) ∧
        (∀ acktr unprotected, (acktrSearchChecked acktr fr unprotected).isSome = true) ∧
        (∀ acktr j ackEnt, acktr.acks[j]? = some ackEnt → ackEnt.ack = fr →
          acktrOnAckChecked acktr j = some (acktrOnAck acktr j)) ∧
        ∀ conn₀ conn ops unprotected, conn₀.acktr = acktrInit → Runs.Run AckStep conn₀ ops conn →
          acktrRecvAckChecked conn.acktr fr unprotected =
            some (acktrRecvAck conn.acktr fr unprotected) := by
  refine ⟨fun fr _ => pktValidateAck_iff fr, fun fr hbound hvalid => ?_⟩
  have hwf := hbound.wf hvalid
  refine ⟨ngtcp2RtbRecvAck_checked hwf, fun acktr unprotected => ?_,
    fun acktr j ackEnt hfind heq => ?_, fun conn₀ conn ops unprotected hempty hrun => ?_⟩
  · obtain ⟨found, hsearch, -⟩ := acktrSearch_checked hwf acktr unprotected
    rw [hsearch]
    rfl
  · refine acktrOnAck_checked fun ackEnt' hfind' => ?_
    obtain rfl := Option.some.inj (hfind.symm.trans hfind')
    rw [heq]
    exact hwf
  · exact acktrRecvAck_checked hwf (fun e he => ((ackRun_inv hempty hrun).acks e he).2) unprotected

/-- A frame whose last range is the packet number 0. -/
def downToZero : AckFrame := ⟨7, 0, 2, [⟨1, 0⟩, ⟨0, 0⟩]⟩

theorem pktValidateAck_noWrap_zero :
    NonnegBounds downToZero.intRanges ∧
      ngtcp2RtbRecvAckChecked handshakeServer downToZero false =
        some (ngtcp2RtbRecvAck handshakeServer downToZero false) ∧
      (acktrSearchChecked ⟨[], [⟨downToZero, 0, false⟩], true⟩ downToZero false).isSome = true ∧
      acktrOnAckChecked ⟨[⟨2, 0, false⟩], [⟨downToZero, 9, false⟩], true⟩ 0 =
        some (acktrOnAck ⟨[⟨2, 0, false⟩], [⟨downToZero, 9, false⟩], true⟩ 0) ∧
      acktrRecvAckChecked handshakeServer.acktr downToZero true =
        some (acktrRecvAck handshakeServer.acktr downToZero true) := by
  have hbound : downToZero.Bounded := ⟨by decide, by decide, by decide⟩
  have hvalid : pktValidateAck downToZero = true := by decide
  obtain ⟨hiff, hnowrap⟩ := pktValidateAck_noWrap
  obtain ⟨hrtb, hsearch, honAck, hrecv⟩ := hnowrap downToZero hbound hvalid
  exact ⟨(hiff downToZero hbound).mp hvalid, hrtb _ _, hsearch _ _, honAck _ 0 _ rfl rfl,
    hrecv handshakeServer handshakeServer [] true rfl .nil⟩

end Ngtcp2
