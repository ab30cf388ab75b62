import Polygon.AckFrames
import Polygon.ConnApi
import Polygon.Lib.RingBuf

/-!
# Acknowledgements of acknowledgements

When the peer acknowledges a packet with an ACK frame, the packet numbers of that frame
leave the tracker. No other received ACK takes a number away.
-/
namespace Ngtcp2

/-! ## The ring of sent ACK frames -/

/-- The list of sent frames is what `ngtcp2_ringbuf` holds. -/
theorem acktrInit_ring (buf : Nat → AcktrAckEntry) :
    (RingBuf.mk buf acktrRingSize 0 0).Holds acktrInit.acks :=
  RingBuf.holds_nil buf (by decide : 7 ≤ 64) 0

theorem acktrAddAck_ring {rb : RingBuf AcktrAckEntry} {acktr : Acktr} (h : rb.Holds acktr.acks)
    (hsize : rb.nmemb = acktrRingSize)
    (pktNum : Nat) (fr : AckFrame) (unprotected : Bool) :
    (rb.pushFront ⟨fr, pktNum, unprotected⟩).Holds
    (acktrAddAck acktr pktNum fr unprotected).acks := by
  have hpush := h.pushFront ⟨fr, pktNum, unprotected⟩
  rw [hsize] at hpush
  exact hpush

theorem acktrOnAck_ring {rb : RingBuf AcktrAckEntry} {acktr : Acktr} (h : rb.Holds acktr.acks)
    {j : Nat} (hj : j < rb.len) :
    (rb.resize j).Holds (acktrOnAck acktr j).acks := by
  unfold acktrOnAck
  rw [h.get hj]
  exact h.resize (Nat.le_of_lt hj)

/-! ## What a received ACK removes -/

/-- A loop that passes over items stops at one it does not pass over. -/
theorem takeWhile_stops {α : Type} {p : α → Bool} {l rest : List α} {x : α}
    (h : l.drop (l.takeWhile p).length = x :: rest) : p x = false := by
  have hhead := List.head?_dropWhile_not p l
  rw [← drop_takeWhile, h] at hhead
  simpa using hhead

section
variable {acktr acktr' : Acktr} {fr : AckFrame} {unprotected : Bool} {e : AcktrEntry} {es : List AcktrEntry}

theorem acktrOnAckFirst_mem (minAck largestAck : Nat) (h : e ∈ es) :
    e ∈ acktrOnAckFirst minAck largestAck es ∨ (minAck ≤ e.pktNum ∧ e.pktNum ≤ largestAck) := by
  have hsplit := List.takeWhile_append_dropWhile
    (p := fun e : AcktrEntry => minAck ≤ e.pktNum && e.pktNum ≤ largestAck) (l := es)
  rw [← hsplit] at h
  rcases List.mem_append.mp h with h | h
  · have := List.mem_takeWhile_imp
      (p := fun e : AcktrEntry => minAck ≤ e.pktNum && e.pktNum ≤ largestAck) h
    exact .inr (by simpa using this)
  · exact .inl h

theorem acktrOnAckBlk_mem (lo hi : Nat) (h : e ∈ es) :
    e ∈ (acktrOnAckBlk lo hi es).1 ∨ e ∈ (acktrOnAckBlk lo hi es).2 ∨
    (lo ≤ e.pktNum ∧ e.pktNum ≤ hi) := by
  induction es with
  | nil => cases h
  | cons e' es ih =>
    unfold acktrOnAckBlk
    split
    · rcases List.mem_cons.mp h with rfl | h
      · exact .inl List.mem_cons_self
      · exact (ih h).imp_left (List.mem_cons_of_mem _)
    next hhi =>
    split
    · exact .inr (.inl h)
    next hlo =>
    rcases List.mem_cons.mp h with rfl | h
    · exact .inr (.inr ⟨Nat.le_of_not_lt hlo, Nat.le_of_not_lt hhi⟩)
    · exact ih h

/-- Without entries the further ranges remove nothing. -/
theorem acktrOnAckBlks_nil (minAck : Nat) (blks : List AckBlk) :
    acktrOnAckBlks minAck blks [] = [] := by
  induction blks generalizing minAck with
  | nil => rfl
  | cons blk blks ih =>
    rw [acktrOnAckBlks]
    exact ih _

theorem acktrOnAckBlks_mem {minAck : Nat} {blks : List AckBlk}
    (hvalid : validateAckBlks minAck blks = true)
    (hmin : minAck < 2 ^ 64) (h : e ∈ es) :
    e ∈ acktrOnAckBlks minAck blks es ∨ InAckBlks minAck blks e.pktNum := by
  induction blks generalizing minAck es with
  | nil => exact .inl h
  | cons blk blks ih =>
    obtain ⟨hgap, hlen, hrest⟩ := validateAckBlks_cons hvalid hmin
    rw [inAckBlks_cons hvalid hmin, acktrOnAckBlks]
    generalize ackBlkRange minAck blk = range at hgap hlen hrest ⊢
    obtain ⟨lo, hi⟩ := range
    dsimp only at hgap hlen hrest ⊢
    have hmem := acktrOnAckBlk_mem lo hi h
    generalize acktrOnAckBlk lo hi es = res at hmem ⊢
    obtain ⟨kept, rest⟩ := res
    rcases hmem with hmem | hmem | hmem
    · exact .inl (List.mem_append_left _ hmem)
    · exact (ih hrest (by omega) hmem).imp (List.mem_append_right _) .inr
    · exact .inr (.inl hmem)

/-- Only numbers of the sent frame leave. -/
theorem acktrOnAck_mem {j : Nat} {ackEnt : AcktrAckEntry} (hfind : acktr.acks[j]? = some ackEnt)
    (hwf : ackEnt.ack.Wf)
    (h : e ∈ acktr.ent) : e ∈ (acktrOnAck acktr j).ent ∨ ackEnt.ack.Covers e.pktNum := by
  obtain ⟨hsub, hle, hvalid⟩ := hwf.first
  unfold acktrOnAck
  rw [hfind, hwf.covers]
  dsimp only
  rw [hsub]
  rw [drop_takeWhile]
  have hsplit := List.takeWhile_append_dropWhile
    (p := fun e : AcktrEntry => ackEnt.ack.largestAck < e.pktNum) (l := acktr.ent)
  rw [← hsplit] at h
  rcases List.mem_append.mp h with h | h
  · exact .inl (List.mem_append_left _ h)
  rcases acktrOnAckFirst_mem
    (ackEnt.ack.largestAck - ackEnt.ack.firstAckBlklen) ackEnt.ack.largestAck h with h | h
  · have hlt := hwf.largest
    exact (acktrOnAckBlks_mem hvalid (by omega) h).imp (List.mem_append_right _) .inr
  · exact .inr (.inl h)

/-- The sent frame that the further ranges lead to is in one of them. -/
theorem acktrFindBlks_some {minAck j k : Nat} {blks : List AckBlk} {acks : List AcktrAckEntry}
    (hvalid : validateAckBlks minAck blks = true) (hmin : minAck < 2 ^ 64)
    (h : acktrFindBlks unprotected minAck blks acks j = some k) :
    ∃ i ackEnt, k = j + i ∧ acks[i]? = some ackEnt ∧ InAckBlks minAck blks ackEnt.pktNum ∧
      (unprotected = true → ackEnt.unprotected = true) := by
  induction blks generalizing minAck j acks with
  | nil =>
    rw [acktrFindBlks] at h
    cases h
  | cons blk blks ih =>
    obtain ⟨hgap, hlen, hrest⟩ := validateAckBlks_cons hvalid hmin
    rw [acktrFindBlks] at h
    generalize hrange : ackBlkRange minAck blk = range at hgap hlen hrest h
    obtain ⟨lo, hi⟩ := range
    dsimp only at hgap hlen hrest h
    generalize hskipped : (acks.takeWhile fun e =>
      decide (hi < e.pktNum) || (decide (lo ≤ e.pktNum) && unprotected && !e.unprotected)) = skipped at h
    split at h
    · cases h
    next ackEnt rest hdrop =>
    have hget : ∀ i, acks[skipped.length + i]? = (ackEnt :: rest)[i]? :=
      fun i => by rw [← hdrop, List.getElem?_drop]
    rw [← hskipped] at hdrop
    have hstop := takeWhile_stops hdrop
    have hin : ∀ n, InAckBlks minAck (blk :: blks) n ↔ (lo ≤ n ∧ n ≤ hi) ∨ InAckBlks lo blks n :=
      fun n => by
      rw [inAckBlks_cons hvalid hmin, hrange]
    split at h
    · obtain ⟨i, ackEnt', rfl, hfind, hcovers, hprot⟩ := ih hrest (by omega) h
      exact ⟨skipped.length + i, ackEnt', by omega, (hget i).trans hfind, (hin _).mpr (.inr hcovers), hprot⟩
    · next hlo =>
      obtain rfl := Option.some.inj h
      have hle : lo ≤ ackEnt.pktNum := Nat.le_of_not_lt hlo
      simp only [Bool.or_eq_false_iff, decide_eq_false_iff_not, hle, decide_true,
        Bool.true_and] at hstop
      refine ⟨skipped.length, ackEnt, rfl, hget 0,
        (hin _).mpr (.inl ⟨hle, Nat.le_of_not_lt hstop.1⟩), fun hu => ?_⟩
      simpa [hu] using hstop.2

/-- A received ACK removes nothing, or it leads to a sent frame. -/
theorem acktrRecvAck_cases (acktr : Acktr) (unprotected : Bool) (hwf : fr.Wf) :
    acktrRecvAck acktr fr unprotected = acktr ∨ ∃ j ackEnt,
    acktr.acks[j]? = some ackEnt ∧ fr.Covers ackEnt.pktNum ∧
    (unprotected = true → ackEnt.unprotected = true) ∧
      acktrRecvAck acktr fr unprotected = acktrOnAck acktr j := by
  obtain ⟨hsub, hle, hvalid⟩ := hwf.first
  have hcovers : ∀ n, fr.Covers n ↔ (fr.largestAck - fr.firstAckBlklen ≤ n ∧ n ≤ fr.largestAck) ∨
      InAckBlks (fr.largestAck - fr.firstAckBlklen : Nat) fr.blks n :=
        fun n => by rw [hwf.covers, hsub]
  unfold acktrRecvAck
  dsimp only
  rw [hsub]
  generalize (acktr.acks.takeWhile fun e => fr.largestAck < e.pktNum) = newer
  generalize hskipped : ((acktr.acks.drop newer.length).takeWhile fun e =>
    decide (fr.largestAck - fr.firstAckBlklen ≤ e.pktNum) && decide
      (e.pktNum ≤ fr.largestAck) && unprotected &&
      !e.unprotected) = skipped
  split
  · exact .inl rfl
  next e rest hdrop =>
  have hget : ∀ i, acktr.acks[newer.length + skipped.length + i]? = (e :: rest)[i]? := fun i => by
    rw [← hdrop, List.getElem?_drop]
  rw [← List.drop_drop, ← hskipped] at hdrop
  have hstop := takeWhile_stops hdrop
  split
  · next hin =>
    obtain ⟨hge, hle'⟩ := Bool.and_eq_true_iff.mp hin
    refine .inr ⟨_, e, hget 0,
      (hcovers _).mpr (.inl ⟨of_decide_eq_true hge, of_decide_eq_true hle'⟩), fun hu => ?_, rfl⟩
    rw [hge, hle', hu] at hstop
    simpa using hstop
  · have hlt := hwf.largest
    split
    · exact .inl rfl
    · next j hfind =>
      obtain ⟨i, ackEnt, rfl, hent, hin, hprot⟩ := acktrFindBlks_some hvalid (by omega) hfind
      exact .inr ⟨_, ackEnt, (hget i).trans hent, (hcovers _).mpr (.inr hin), hprot, rfl⟩

/-! ## What stays in the tracker -/

theorem acktrOnAck_acks (acktr : Acktr) (j : Nat) :
    ∀ r ∈ (acktrOnAck acktr j).acks, r ∈ acktr.acks := by
  intro r hr
  unfold acktrOnAck at hr
  split at hr
  · exact hr
  · exact List.mem_of_mem_take hr

theorem Acktr.Wf.sublist (h : acktr.Wf) (hsub : acktr'.ent.Sublist acktr.ent) : acktr'.Wf :=
  ⟨h.desc.sublist (hsub.map _), fun e he => h.lt e (hsub.subset he)⟩

theorem acktrRecvAck_keeps (acktr : Acktr) (unprotected : Bool) (hwf : fr.Wf) :
    (acktrRecvAck acktr fr unprotected).ent.Sublist acktr.ent ∧
    ∀ r ∈ (acktrRecvAck acktr fr unprotected).acks, r ∈ acktr.acks := by
  rcases acktrRecvAck_cases acktr unprotected hwf with heq | ⟨j, ackEnt, -, -, -, heq⟩
  · rw [heq]
    exact ⟨.refl _, fun r hr => hr⟩
  · rw [heq]
    exact ⟨acktrOnAck_sublist acktr j, acktrOnAck_acks acktr j⟩

/-- A full tracker loses its smallest number when one is added. -/
theorem acktrAdd_cases {ent : AcktrEntry} {activeAck : Bool} (hwf : acktr.Wf)
    (hlt : ent.pktNum < 2 ^ 64)
    (h : acktrAdd acktr ent activeAck = some acktr') : acktr'.Wf ∧ acktr'.acks = acktr.acks ∧
      ∀ e ∈ acktr.ent, e ∈ acktr'.ent ∨
      (acktrMaxEnt ≤ acktr.ent.length ∧ ∀ e' ∈ acktr'.ent, e.pktNum < e'.pktNum) := by
  obtain ⟨es, hes, rfl⟩ := Option.map_eq_some_iff.mp h
  obtain ⟨hperm, hdesc⟩ := acktrInsert_some hwf.desc hes
  have hall : ∀ e ∈ es, e.pktNum < 2 ^ 64 := by
    intro e he
    rcases List.mem_cons.mp (hperm.subset he) with rfl | he
    · exact hlt
    · exact hwf.lt e he
  have hmem : ∀ e ∈ acktr.ent, e ∈ es := fun e he => hperm.symm.subset (List.mem_cons_of_mem _ he)
  dsimp only
  split
  · next hfull =>
    have hsub : es.dropLast.Sublist es := List.dropLast_sublist es
    refine ⟨⟨hdesc.sublist (hsub.map _), fun e he => hall e (hsub.subset he)⟩, rfl, fun e he => ?_⟩
    have hne : es ≠ [] := List.ne_nil_of_mem (hmem e he)
    have hsplit := List.dropLast_append_getLast hne
    have he' : e ∈ es.dropLast ++ [es.getLast hne] := hsplit.symm ▸ hmem e he
    rcases List.mem_append.mp he' with he' | he'
    · exact .inl he'
    obtain rfl := List.mem_singleton.mp he'
    have hlength := hperm.length_eq
    rw [List.length_cons] at hlength
    refine .inr ⟨by omega, fun e' he' => ?_⟩
    rw [← hsplit, List.map_append] at hdesc
    exact (List.pairwise_append.mp hdesc).2.2 _ (List.mem_map_of_mem he') _ (by simp)
  · exact ⟨⟨hdesc, hall⟩, rfl, fun e he => .inl (hmem e he)⟩

end

/-! ## Runs -/

/-- What happens to a tracker. `addAck` builds a frame and records it for the packet that carries it. -/
inductive AckOp where
  | recvPkt (ent : AcktrEntry) (activeAck : Bool)
  | createAck (ts : Nat) (unprotected : Bool)
  | addAck (ts : Nat) (fr : AckFrame) (pktNum : Nat) (unprotected : Bool)
  | commitAck
  | recvAck (fr : AckFrame) (unprotected : Bool)

/-- The recorded ACK frames. -/
def recorded (ops : List AckOp) : List AcktrAckEntry :=
  ops.filterMap fun
    | .addAck _ fr pktNum unprotected => some ⟨fr, pktNum, unprotected⟩
    | _ => none

/-- One step of the tracker of a connection; received ACK frames were validated. -/
inductive AckStep (ops : List AckOp) : Conn → AckOp → Conn → Prop where
  | recvPkt {conn : Conn} {ent : AcktrEntry} {activeAck : Bool} {acktr : Acktr}
      (lt : ent.pktNum < 2 ^ 64)
      (add : acktrAdd conn.acktr ent activeAck = some acktr) :
    AckStep ops conn (.recvPkt ent activeAck) (conn.setAcktr acktr)
  | createAck (conn : Conn) (ts : Nat) (unprotected : Bool) :
    AckStep ops conn (.createAck ts unprotected) (connCreateAckFrame conn ts unprotected).2
  | addAck {conn conn' : Conn} {ts : Nat} {unprotected : Bool} {fr : AckFrame}
      (created : connCreateAckFrame conn ts unprotected = (some fr, conn')) (pktNum : Nat) :
    AckStep ops conn (.addAck ts fr pktNum unprotected)
      (conn'.setAcktr (acktrAddAck conn'.acktr pktNum fr unprotected))
  | commitAck (conn : Conn) : AckStep ops conn .commitAck (connCommitTxAck conn)
  | recvAck {conn : Conn} {fr : AckFrame} (wf : fr.Wf) (unprotected : Bool) :
    AckStep ops conn (.recvAck fr unprotected)
      (conn.setAcktr (acktrRecvAck conn.acktr fr unprotected))

/-- The tracker is in order, and its frames are valid ones that were recorded. -/
structure TrackerInv (ops : List AckOp) (conn : Conn) : Prop where
  wf : conn.acktr.Wf
  acks : ∀ r ∈ conn.acktr.acks, r ∈ recorded ops ∧ r.ack.Wf

/-- Why an entry is not in the tracker any more: a frame with its number was in a packet that the peer
acknowledged, the tracker was full, or an ACK frame had no room for it. -/
inductive Removed (ops : List AckOp) (conn conn' : Conn) (e : AcktrEntry) : AckOp → Prop where
  | acked {fr : AckFrame} {unprotected : Bool} {r : AcktrAckEntry} (mem : r ∈ recorded ops)
      (covers : r.ack.Covers e.pktNum)
      (received : fr.Covers r.pktNum) (prot : unprotected = true → r.unprotected = true) :
    Removed ops conn conn' e (.recvAck fr unprotected)
  | evicted {ent : AcktrEntry} {activeAck : Bool} (full : acktrMaxEnt ≤ conn.acktr.ent.length)
      (least : ∀ e' ∈ conn'.acktr.ent, e.pktNum < e'.pktNum) :
        Removed ops conn conn' e (.recvPkt ent activeAck)
  | forgotten {ts : Nat} {unprotected : Bool} {fr : AckFrame}
      (created : (connCreateAckFrame conn ts unprotected).1 = some fr)
      (full : fr.blks.length = maxAckBlks + 1) (least : ∀ n, fr.Covers n → e.pktNum ≤ n) :
    Removed ops conn conn' e (.createAck ts unprotected)
  | forgottenSent {ts pktNum : Nat} {unprotected : Bool} {fr : AckFrame}
      (full : fr.blks.length = maxAckBlks + 1)
      (least : ∀ n, fr.Covers n → e.pktNum ≤ n) :
        Removed ops conn conn' e (.addAck ts fr pktNum unprotected)

section
variable {ops : List AckOp} {conn conn' conn₀ : Conn} {op : AckOp} {e : AcktrEntry}

theorem mem_recorded {r : AcktrAckEntry} (h : r ∈ recorded ops) (op : AckOp) :
    r ∈ recorded (ops ++ [op]) := by
  rw [recorded, List.filterMap_append]
  exact List.mem_append_left _ h

/-- A smaller tracker with no new frames. -/
theorem TrackerInv.sublist (h : TrackerInv ops conn) (hsub : conn'.acktr.ent.Sublist conn.acktr.ent)
    (hacks : ∀ r ∈ conn'.acktr.acks, r ∈ conn.acktr.acks) (op : AckOp) :
    TrackerInv (ops ++ [op]) conn' := by
  refine ⟨h.wf.sublist hsub, fun r hr => ?_⟩
  obtain ⟨hmem, hwf⟩ := h.acks r (hacks r hr)
  exact ⟨mem_recorded hmem op, hwf⟩

/-- What building a frame does to the tracker. -/
theorem createAck_keeps (hwf : conn.acktr.Wf) {ts : Nat} {unprotected : Bool} {r : Option AckFrame}
    (h : connCreateAckFrame conn ts unprotected = (r, conn')) :
    conn'.acktr.ent.Sublist conn.acktr.ent ∧
      conn'.acktr.acks = conn.acktr.acks ∧ (∀ fr, r = some fr → fr.Wf) ∧
      ∀ e ∈ conn.acktr.ent, e ∈ conn'.acktr.ent ∨
        ∃ fr, r = some fr ∧ fr.blks.length = maxAckBlks + 1 ∧ ∀ n, fr.Covers n → e.pktNum ≤ n := by
  rcases connCreateAckFrame_cases hwf h with ⟨rfl, hsame⟩ | ⟨fr, n, ns, rfl, hnums, hcreated⟩
  · rw [hsame]
    exact ⟨.refl _, rfl, nofun, fun e he => .inl he⟩
  · have hdesc : Descending (n :: ns) := hnums ▸ hwf.desc.visibleNums unprotected
    obtain ⟨e₀, he₀, rfl⟩ := mem_visibleNums
      (hnums ▸ List.mem_cons_self : n ∈ visibleNums unprotected conn.acktr.ent)
    obtain ⟨rest, hsplit, hfull, hle⟩ := hcreated.kept
    refine ⟨?_, hcreated.acks, ?_, fun e he => ?_⟩
    · rw [hsplit]
      exact List.sublist_append_left _ _
    · intro fr' heq
      obtain rfl := Option.some.inj heq
      exact hcreated.wf hdesc (hwf.lt e₀ he₀)
    · rw [hsplit] at he
      rcases List.mem_append.mp he with he | he
      · exact .inl he
      · exact .inr ⟨fr, rfl, hfull (List.ne_nil_of_mem he), fun m hm =>
          Nat.le_trans (hle e he) (hcreated.lowest_le hdesc hm)⟩

theorem AckStep.inv (h : AckStep ops conn op conn') (hinv : TrackerInv ops conn) :
    TrackerInv (ops ++ [op]) conn' := by
  cases h with
  | recvPkt lt add =>
    obtain ⟨hwf, hacks, -⟩ := acktrAdd_cases hinv.wf lt add
    refine ⟨hwf, fun r hr => ?_⟩
    obtain ⟨hmem, hr'⟩ := hinv.acks r (hacks ▸ hr)
    exact ⟨mem_recorded hmem _, hr'⟩
  | createAck ts unprotected =>
    obtain ⟨hsub, hacks, -, -⟩ := createAck_keeps hinv.wf
      (rfl : connCreateAckFrame conn ts unprotected = (_,
      (connCreateAckFrame conn ts unprotected).2))
    exact hinv.sublist hsub (fun r hr => hacks ▸ hr) _
  | @addAck conn₁ ts unprotected fr created pktNum =>
    obtain ⟨hsub, hacks, hfr, -⟩ := createAck_keeps hinv.wf created
    refine ⟨hinv.wf.sublist hsub, fun r hr => ?_⟩
    rcases List.mem_cons.mp (List.mem_of_mem_take hr) with rfl | hr
    · refine ⟨?_, hfr fr rfl⟩
      rw [recorded, List.filterMap_append]
      exact List.mem_append_right _ (by simp)
    · obtain ⟨hmem, hwf⟩ := hinv.acks r (hacks ▸ hr)
      exact ⟨mem_recorded hmem _, hwf⟩
  | commitAck =>
    have hsub : (connCommitTxAck conn).acktr.ent.Sublist conn.acktr.ent := .refl _
    exact hinv.sublist hsub (fun r hr => hr) _
  | recvAck wf unprotected =>
    obtain ⟨hsub, hacks⟩ := acktrRecvAck_keeps conn.acktr unprotected wf
    exact hinv.sublist hsub hacks _

theorem AckStep.removed (h : AckStep ops conn op conn') (hinv : TrackerInv ops conn)
    (he : e ∈ conn.acktr.ent)
    (hgone : e ∉ conn'.acktr.ent) : Removed ops conn conn' e op := by
  cases h with
  | recvPkt lt add =>
    obtain ⟨-, -, hkept⟩ := acktrAdd_cases hinv.wf lt add
    obtain ⟨hfull, hleast⟩ := (hkept e he).resolve_left hgone
    exact .evicted hfull hleast
  | createAck ts unprotected =>
    obtain ⟨-, -, -, hkept⟩ := createAck_keeps hinv.wf
      (rfl : connCreateAckFrame conn ts unprotected = (_,
      (connCreateAckFrame conn ts unprotected).2))
    obtain ⟨fr, hfr, hfull, hleast⟩ := (hkept e he).resolve_left hgone
    exact .forgotten hfr hfull hleast
  | @addAck conn₁ ts unprotected fr created pktNum =>
    obtain ⟨-, -, -, hkept⟩ := createAck_keeps hinv.wf created
    obtain ⟨fr', hfr, hfull, hleast⟩ := (hkept e he).resolve_left hgone
    obtain rfl := Option.some.inj hfr
    exact .forgottenSent hfull hleast
  | commitAck => exact absurd he hgone
  | @recvAck fr wf unprotected =>
    change e ∉ (acktrRecvAck conn.acktr fr unprotected).ent at hgone
    rcases acktrRecvAck_cases conn.acktr unprotected wf with heq
        | ⟨j, r, hfind, hcovers, hprot, heq⟩
    · rw [heq] at hgone
      exact absurd he hgone
    · rw [heq] at hgone
      obtain ⟨hmem, hwf⟩ := hinv.acks r (List.mem_of_getElem? hfind)
      exact .acked hmem ((acktrOnAck_mem hfind hwf he).resolve_left hgone) hcovers hprot

theorem ackRun_inv (hempty : conn₀.acktr = acktrInit) (hrun : Runs.Run AckStep conn₀ ops conn) :
    TrackerInv ops conn := by
  refine hrun.invariant TrackerInv ⟨⟨?_, ?_⟩, ?_⟩ fun _ _ _ _ hinv hstep => hstep.inv hinv
  · rw [hempty]
    exact .nil
  · rw [hempty]
    exact nofun
  · rw [hempty]
    exact nofun

/-- An entry leaves the tracker because an acknowledged packet carried a frame with its number, because
the tracker is full, or because an ACK frame had no room for it. -/
theorem ackOfAck_sound (hempty : conn₀.acktr = acktrInit) (hrun : Runs.Run AckStep conn₀ ops conn)
    (hstep : AckStep ops conn op conn') (he : e ∈ conn.acktr.ent) (hgone : e ∉ conn'.acktr.ent) :
    Removed ops conn conn' e op :=
  hstep.removed (ackRun_inv hempty hrun) he hgone

end

/-- A packet is received, acknowledged in packet 7, and the ACK of packet 7 takes it away. -/
theorem ackOfAck_sound_packet :
    ∃ conn conn', Removed [.recvPkt ⟨5, 0, false⟩ true,
    .addAck 0 ⟨5, 0, 0, []⟩ 7 false] conn conn' ⟨5, 0, false⟩
      (.recvAck ⟨8, 0, 1, []⟩ false) := by
  have hadd : acktrAdd handshakeServer.acktr ⟨5, 0, false⟩ true =
    some ⟨[⟨5, 0, false⟩], [], true⟩ := rfl
  have hrun : Runs.Run AckStep handshakeServer [.recvPkt ⟨5, 0, false⟩ true,
    .addAck 0 ⟨5, 0, 0, []⟩ 7 false] _ :=
    (Runs.Run.nil.snoc (.recvPkt (by decide) hadd)).snoc (.addAck rfl 7)
  refine ⟨_, _, ackOfAck_sound rfl hrun (.recvAck ⟨rfl, by decide⟩ false) ?_ ?_⟩
  · decide
  · decide

/-! ## A tracker with too many gaps -/

/-- The even packet numbers below `2 * k`. -/
def evens : Nat → List AcktrEntry
  | 0 => []
  | k + 1 => ⟨2 * k, 0, false⟩ :: evens k

theorem evens_length (k : Nat) : (evens k).length = k := by
  induction k with
  | zero => rfl
  | succ k ih => rw [evens, List.length_cons, ih]

/-- The even numbers come in one after the other. -/
theorem evens_run (k : Nat) (hk : k ≤ acktrMaxEnt) :
    ∃ ops, recorded ops = [] ∧
    Runs.Run AckStep handshakeServer ops (handshakeServer.setAcktr ⟨evens k, [], k != 0⟩) := by
  induction k with
  | zero => exact ⟨[], rfl, .nil⟩
  | succ k ih =>
    obtain ⟨ops, hops, hrun⟩ := ih (Nat.le_of_succ_le hk)
    have hins : acktrInsert ⟨2 * k, 0, false⟩ (evens k) = some (evens (k + 1)) := by
      cases k with
      | zero => rfl
      | succ k =>
        rw [evens, acktrInsert, if_neg (by dsimp only; omega), if_neg (by dsimp only; omega)]
        rfl
    have hadd : acktrAdd ⟨evens k, [], k != 0⟩ ⟨2 * k, 0, false⟩ true =
      some ⟨evens (k + 1), [], true⟩ := by
      rw [acktrAdd, hins, Option.map_some, if_neg (by rw [evens_length]; omega)]
      rfl
    refine ⟨ops ++ [.recvPkt ⟨2 * k, 0, false⟩ true], ?_,
      hrun.snoc (.recvPkt (by unfold acktrMaxEnt at hk; dsimp only; omega) hadd)⟩
    rw [recorded, List.filterMap_append, ← recorded, hops]
    rfl

/-- 257 packets with a gap between any two of them: the first one is forgotten before any frame is sent. -/
theorem ackOfAck_forgets :
    ¬∀ (conn₀ conn conn' : Conn) (ops : List AckOp) (op : AckOp) (e : AcktrEntry),
    conn₀.acktr = acktrInit → Runs.Run AckStep conn₀ ops conn → AckStep ops conn op conn' →
    e ∈ conn.acktr.ent →
      e ∉ conn'.acktr.ent → ∃ fr unprotected r, op = .recvAck fr unprotected ∧ r ∈ recorded ops ∧
        r.ack.Covers e.pktNum ∧ fr.Covers r.pktNum ∧
        (unprotected = true → r.unprotected = true) := by
  intro h
  obtain ⟨ops, -, hrun⟩ := evens_run 257 (by decide)
  obtain ⟨fr, unprotected, r, hop, -⟩ := h handshakeServer _ _ ops _ ⟨0, 0, false⟩ rfl hrun
    (.createAck _ 0 false) (by decide +kernel) (by decide +kernel)
  cases hop

end Ngtcp2
