import Mathlib.Data.List.TakeWhile
import Polygon.Frame

/-!
# The ACK tracker

`ngtcp2_acktr` lists the received packet numbers that are to be acknowledged,
newest first, and remembers the last 128 ACK frames it sent.
-/
namespace Ngtcp2

/-- `NGTCP2_ACKTR_MAX_ENT`. -/
def acktrMaxEnt : Nat := 1024

/-- The capacity of the ring of sent ACK frames. -/
def acktrRingSize : Nat := 128

structure AcktrEntry where
  pktNum : Nat
  tstamp : Nat
  unprotected : Bool
  deriving DecidableEq, Repr

structure AcktrAckEntry where
  ack : AckFrame
  pktNum : Nat
  unprotected : Bool
  deriving DecidableEq, Repr

/-- `ngtcp2_acktr`: `ent` from its head, `acks` from the front of the ring. -/
structure Acktr where
  ent : List AcktrEntry
  acks : List AcktrAckEntry
  activeAck : Bool
  deriving DecidableEq, Repr

def acktrInit : Acktr := ⟨[], [], false⟩

/-- The insertion loop of `ngtcp2_acktr_add`; `none` is a duplicate packet number. -/
def acktrInsert (ent : AcktrEntry) : List AcktrEntry → Option (List AcktrEntry)
  | [] => some [ent]
  | e :: es =>
    if ent.pktNum < e.pktNum then (acktrInsert ent es).map (e :: ·)
    else if e.pktNum = ent.pktNum then none
    else some (ent :: e :: es)

def acktrAdd (acktr : Acktr) (ent : AcktrEntry) (activeAck : Bool) : Option Acktr :=
  (acktrInsert ent acktr.ent).map fun es =>
    { acktr with
      ent := if acktrMaxEnt < es.length then es.dropLast else es
      activeAck := activeAck || acktr.activeAck }

/-- `ngtcp2_acktr_add_ack`, overwriting the oldest frame of a full ring. -/
def acktrAddAck (acktr : Acktr) (pktNum : Nat) (fr : AckFrame) (unprotected : Bool) : Acktr :=
  { acktr with acks := (⟨fr, pktNum, unprotected⟩ :: acktr.acks).take acktrRingSize }

/-- The lower end of the block `blk` that follows a block ending at `minAck`, and its upper end. -/
def ackBlkRange (minAck : Nat) (blk : AckBlk) : Nat × Nat :=
  let largestAck := subU64 (subU64 minAck blk.gap) 2
  (subU64 largestAck blk.blklen, largestAck)

/-- The entries of the first range of an ACK frame removed, from its first entry on. -/
def acktrOnAckFirst (minAck largestAck : Nat) (es : List AcktrEntry) : List AcktrEntry :=
  es.dropWhile fun e => minAck ≤ e.pktNum && e.pktNum ≤ largestAck

/-- The entries of one further range removed: those kept before the cursor, and those behind it. -/
def acktrOnAckBlk (lo hi : Nat) : List AcktrEntry → List AcktrEntry × List AcktrEntry
  | [] => ([], [])
  | e :: es =>
    if hi < e.pktNum then
      let (kept, rest) := acktrOnAckBlk lo hi es
      (e :: kept, rest)
    else if e.pktNum < lo then ([], e :: es)
    else acktrOnAckBlk lo hi es

def acktrOnAckBlks (minAck : Nat) : List AckBlk → List AcktrEntry → List AcktrEntry
  | [], es => es
  | blk :: blks, es =>
    let (lo, hi) := ackBlkRange minAck blk
    let (kept, rest) := acktrOnAckBlk lo hi es
    kept ++ acktrOnAckBlks lo blks rest

/-- `acktr_on_ack`: the peer received the ACK frame at ring position `j`. -/
def acktrOnAck (acktr : Acktr) (j : Nat) : Acktr :=
  match acktr.acks[j]? with
  | none => acktr
  | some ackEnt =>
    let fr := ackEnt.ack
    let newer := acktr.ent.takeWhile fun e => fr.largestAck < e.pktNum
    let es := acktr.ent.drop newer.length
    let minAck := subU64 fr.largestAck fr.firstAckBlklen
    { acktr with
      ent := newer ++ acktrOnAckBlks minAck fr.blks (acktrOnAckFirst minAck fr.largestAck es)
      acks := acktr.acks.take j }

/-- The first ring position from `j` on that the ranges below `minAck` acknowledge. -/
def acktrFindBlks (unprotected : Bool) (minAck : Nat) :
    List AckBlk → List AcktrAckEntry → Nat → Option Nat
  | [], _, _ => none
  | blk :: blks, es, j =>
    let (lo, hi) := ackBlkRange minAck blk
    let skipped := es.takeWhile fun e =>
      hi < e.pktNum || (lo ≤ e.pktNum && unprotected && !e.unprotected)
    match es.drop skipped.length with
    | [] => none
    | e :: rest =>
      if e.pktNum < lo then acktrFindBlks unprotected lo blks (e :: rest) (j + skipped.length)
      else some (j + skipped.length)

/-- `ngtcp2_acktr_recv_ack`: finds the newest sent ACK frame whose packet `fr` acknowledges. -/
def acktrRecvAck (acktr : Acktr) (fr : AckFrame) (unprotected : Bool) : Acktr :=
  let newer := acktr.acks.takeWhile fun e => fr.largestAck < e.pktNum
  let minAck := subU64 fr.largestAck fr.firstAckBlklen
  let skipped := (acktr.acks.drop newer.length).takeWhile fun e =>
    minAck ≤ e.pktNum && e.pktNum ≤ fr.largestAck && unprotected && !e.unprotected
  let j := newer.length + skipped.length
  match acktr.acks.drop j with
  | [] => acktr
  | e :: rest =>
    if minAck ≤ e.pktNum && e.pktNum ≤ fr.largestAck then acktrOnAck acktr j
    else
      match acktrFindBlks unprotected minAck fr.blks (e :: rest) j with
      | none => acktr
      | some j => acktrOnAck acktr j

/-! ## The order of the numbers -/

/-- The packet numbers get smaller. -/
def Descending (ns : List Nat) : Prop := ns.Pairwise fun a b => b < a

/-- The numbers of the tracker are in order. -/
abbrev Acktr.Sorted (acktr : Acktr) : Prop := Descending (acktr.ent.map (·.pktNum))

theorem drop_takeWhile {α : Type} (p : α → Bool) (l : List α) :
    l.drop (l.takeWhile p).length = l.dropWhile p := by
  obtain ⟨t, ht, hl⟩ : ∃ t, t = l.takeWhile p ∧ t ++ l.dropWhile p = l :=
    ⟨_, rfl, List.takeWhile_append_dropWhile⟩
  generalize l.dropWhile p = d at hl ⊢
  rw [← ht, ← hl, List.drop_left]

section
variable {acktr acktr' : Acktr} {es : List AcktrEntry}

theorem acktrOnAckBlk_sublist (lo hi : Nat) (es : List AcktrEntry) :
    ((acktrOnAckBlk lo hi es).1 ++ (acktrOnAckBlk lo hi es).2).Sublist es := by
  induction es with
  | nil => exact .slnil
  | cons e es ih =>
    unfold acktrOnAckBlk
    split
    · exact ih.cons_cons e
    split
    · exact .refl _
    · exact ih.cons e

theorem acktrOnAckBlks_sublist (minAck : Nat) (blks : List AckBlk) (es : List AcktrEntry) :
    (acktrOnAckBlks minAck blks es).Sublist es := by
  induction blks generalizing minAck es with
  | nil => exact .refl _
  | cons blk blks ih =>
    have hblk := acktrOnAckBlk_sublist (ackBlkRange minAck blk).1 (ackBlkRange minAck blk).2 es
    exact ((ih (ackBlkRange minAck blk).1 _).append_left _).trans hblk

theorem acktrOnAck_sublist (acktr : Acktr) (j : Nat) :
    (acktrOnAck acktr j).ent.Sublist acktr.ent := by
  unfold acktrOnAck
  split
  · exact .refl _
  · next ackEnt hfind =>
    dsimp only
    rw [drop_takeWhile]
    have hfirst : (acktrOnAckFirst (subU64 ackEnt.ack.largestAck ackEnt.ack.firstAckBlklen) ackEnt.ack.largestAck
        (acktr.ent.dropWhile fun e => ackEnt.ack.largestAck < e.pktNum)).Sublist _ := List.dropWhile_sublist _
    have hblks := (acktrOnAckBlks_sublist (subU64 ackEnt.ack.largestAck ackEnt.ack.firstAckBlklen)
      ackEnt.ack.blks _).trans hfirst
    exact (hblks.append_left _).trans (List.takeWhile_append_dropWhile.symm ▸ .refl _)

theorem acktrRecvAck_sublist (acktr : Acktr) (fr : AckFrame) (unprotected : Bool) :
    (acktrRecvAck acktr fr unprotected).ent.Sublist acktr.ent := by
  unfold acktrRecvAck
  dsimp only
  split
  · exact .refl _
  split
  · exact acktrOnAck_sublist acktr _
  split
  · exact .refl _
  · exact acktrOnAck_sublist acktr _

theorem acktrInit_sorted : acktrInit.Sorted := List.Pairwise.nil

theorem Acktr.Sorted.sublist (h : acktr.Sorted) (hsub : acktr'.ent.Sublist acktr.ent) :
    acktr'.Sorted :=
  List.Pairwise.sublist (hsub.map _) h

theorem acktrInsert_some {ent : AcktrEntry} {es' : List AcktrEntry}
    (hdesc : Descending (es.map (·.pktNum)))
    (h : acktrInsert ent es = some es') :
    es'.Perm (ent :: es) ∧ Descending (es'.map (·.pktNum)) := by
  induction es generalizing es' with
  | nil =>
    obtain rfl := Option.some.inj h
    exact ⟨.refl _, List.pairwise_singleton _ _⟩
  | cons e es ih =>
    obtain ⟨hlt, hrest⟩ := List.pairwise_cons.mp hdesc
    unfold acktrInsert at h
    split at h
    · next hbelow =>
      obtain ⟨es₁, hes₁, rfl⟩ := Option.map_eq_some_iff.mp h
      obtain ⟨hperm, hdesc₁⟩ := ih hrest hes₁
      refine ⟨(hperm.cons e).trans (.swap ent e es),
        List.pairwise_cons.mpr ⟨fun n hn => ?_, hdesc₁⟩⟩
      obtain ⟨e', he', rfl⟩ := List.mem_map.mp hn
      rcases List.mem_cons.mp (hperm.subset he') with rfl | he'
      · exact hbelow
      · exact hlt _ (List.mem_map_of_mem he')
    split at h
    · cases h
    · next hge hne =>
      obtain rfl := Option.some.inj h
      refine ⟨.refl _, List.pairwise_cons.mpr ⟨fun n hn => ?_, hdesc⟩⟩
      rcases List.mem_cons.mp hn with rfl | hn
      · show e.pktNum < ent.pktNum
        omega
      · have hn : n < e.pktNum := hlt n hn
        show n < ent.pktNum
        omega

theorem acktrAdd_sorted {ent : AcktrEntry} {activeAck : Bool} (hsorted : acktr.Sorted)
    (h : acktrAdd acktr ent activeAck = some acktr') : acktr'.Sorted := by
  obtain ⟨es', hes', rfl⟩ := Option.map_eq_some_iff.mp h
  have hdesc := (acktrInsert_some hsorted hes').2
  unfold Acktr.Sorted
  dsimp only
  split
  · exact List.Pairwise.sublist ((List.dropLast_sublist es').map _) hdesc
  · exact hdesc

end

end Ngtcp2
