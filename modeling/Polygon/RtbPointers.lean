import Polygon.ConnRecv
import Polygon.ConnWrite
import Polygon.Lib.Intrusive
import Polygon.Lib.Runs
import Polygon.PqIndex
import Polygon.PqOrder
import Polygon.RtbInvariant

/-!
# The pointers of the retransmission buffer

`ngtcp2_rtb` with its objects in memory, each linked by pointers and with its position in the
heap. The buffer of the connection holds what the pointers hold.
-/
namespace Ngtcp2

open Intrusive Intrusive.Links

/-- The objects by their addresses, the heap and the list of the addresses in use. -/
structure RtbMem where
  ents : Nat → Option RtbEntry
  pq : Pq.Indexed Nat
  links : Links Nat
  bytesInFlight : Nat
  largestAcked : Nat

def rtbMemInit : RtbMem := ⟨fun _ => none, ⟨[], fun _ => 0⟩, .empty, 0, 0⟩

/-- `expiry_less` on the objects. -/
def lessAt (ents : Nat → Option RtbEntry) (lhs rhs : Nat) : Bool :=
  match ents lhs, ents rhs with
  | some lhs, some rhs => expiryLess lhs rhs
  | _, _ => false

namespace RtbMem

/-- An object written to memory. -/
def store (rtb : RtbMem) (ent : RtbEntry) : RtbMem :=
  { rtb with ents := fun a => if a = ent.addr then some ent else rtb.ents a }

/-- `ngtcp2_rtb_add` of the object `ent`. -/
def add (rtb : RtbMem) (ent : RtbEntry) : RtbMem :=
  let rtb := rtb.store ent
  { rtb with
    pq := rtb.pq.push (lessAt rtb.ents) ent.addr
    links := rtb.links.pushFront ent.addr
    bytesInFlight := rtb.bytesInFlight + ent.pktlen }

/-- `ngtcp2_rtb_top`. -/
def top (rtb : RtbMem) : Option RtbEntry := (Pq.top rtb.pq.q).bind rtb.ents

/-- `ngtcp2_rtb_pop`; `none` is a failed assertion or a bad pointer. The object stays in memory. -/
def pop (rtb : RtbMem) : Option RtbMem :=
  match Pq.top rtb.pq.q with
  | none => some rtb
  | some a =>
    match rtb.ents a, rtb.links.pprev a with
    | some ent, some loc =>
      if ent.pktlen ≤ rtb.bytesInFlight then
        some { rtb with
          pq := rtb.pq.pop (lessAt rtb.ents)
          links := (rtb.links.unlink a loc).clear a
          bytesInFlight := rtb.bytesInFlight - ent.pktlen }
      else none
    | _, _ => none

/-- `rtb_remove` of the object that the pointer at `pent` leads to, which is freed. -/
def remove (rtb : RtbMem) (pent : Loc Nat) : Option RtbMem :=
  match rtb.links.read pent with
  | none => none
  | some a =>
    match rtb.ents a, rtb.pq.remove (lessAt rtb.ents) a with
    | some ent, some pq =>
      if ent.pktlen ≤ rtb.bytesInFlight then
        some { rtb with
          ents := fun b => if b = a then none else rtb.ents b
          pq
          links := rtb.links.unlinkAt pent
          bytesInFlight := rtb.bytesInFlight - ent.pktlen }
      else none
    | _, _ => none

end RtbMem

/-- The application is told of the frames of an acknowledged packet. -/
def ackedEntry (conn : Conn) (ent : RtbEntry) : Result Unit :=
  let conn := conn.tell (.pktAcked ent.hd.pktNum ent.frc)
  if conn.callbacks.ackedStreamDataOffset then callAckedStreamOffset ent.frc conn else (.ok (),
    conn)

namespace RtbMem

/-- The first loop of `ngtcp2_rtb_recv_ack`, up to the first entry that is not newer. -/
def skipNewer (rtb : RtbMem) (largestAck : Nat) : Nat → Loc Nat → Option (Loc Nat)
  | 0, _ => none
  | fuel + 1, pent =>
    match rtb.links.read pent with
    | none => some pent
    | some a =>
      match rtb.ents a with
      | none => none
      | some ent => if ent.hd.pktNum ≤ largestAck then some pent else skipNewer rtb largestAck fuel (.next a)

/-- The loop over the first range, from the pointer at `pent` on. -/
def ackFirst (unprotected : Bool) (minAck largestAck : Nat) :
    Nat → Loc Nat → RtbMem → Conn → Option (Except Err (Loc Nat) × RtbMem × Conn)
  | 0, _, _, _ => none
  | fuel + 1, pent, rtb, conn =>
    match rtb.links.read pent with
    | none => some (.ok pent, rtb, conn)
    | some a =>
      match rtb.ents a with
      | none => none
      | some ent =>
        if minAck ≤ ent.hd.pktNum ∧ ent.hd.pktNum ≤ largestAck then
          if unprotected && !ent.unprotected then ackFirst unprotected minAck largestAck fuel
            (.next a) rtb conn
          else
            match ackedEntry conn ent with
            | (.error e, conn) => some (.error e, rtb, conn)
            | (.ok (), conn) =>
              match remove { rtb with largestAcked := max rtb.largestAcked ent.hd.pktNum } pent with
              | none => none
              | some rtb => ackFirst unprotected minAck largestAck fuel pent rtb conn
        else some (.ok pent, rtb, conn)

/-- The loop over one further range. -/
def ackBlk (unprotected : Bool) (minAck largestAck : Nat) :
    Nat → Loc Nat → RtbMem → Conn → Option (Except Err (Loc Nat) × RtbMem × Conn)
  | 0, _, _, _ => none
  | fuel + 1, pent, rtb, conn =>
    match rtb.links.read pent with
    | none => some (.ok pent, rtb, conn)
    | some a =>
      match rtb.ents a with
      | none => none
      | some ent =>
        if largestAck < ent.hd.pktNum then ackBlk unprotected minAck largestAck fuel
          (.next a) rtb conn
        else if ent.hd.pktNum < minAck then some (.ok pent, rtb, conn)
        else if unprotected && !ent.unprotected then ackBlk unprotected minAck largestAck fuel
          (.next a) rtb conn
        else
          match ackedEntry conn ent with
          | (.error e, conn) => some (.error e, rtb, conn)
          | (.ok (), conn) =>
            match remove { rtb with largestAcked := max rtb.largestAcked ent.hd.pktNum } pent with
            | none => none
            | some rtb => ackBlk unprotected minAck largestAck fuel pent rtb conn

/-- The loop over the further ranges. -/
def ackBlks (unprotected : Bool) (fuel : Nat) :
    Nat → List AckBlk → Loc Nat → RtbMem → Conn → Option (Except Err Unit × RtbMem × Conn)
  | _, [], _, rtb, conn => some (.ok (), rtb, conn)
  | minAck, blk :: blks, pent, rtb, conn =>
    match rtb.links.read pent with
    | none => some (.ok (), rtb, conn)
    | some _ =>
      let (minAck, largestAck) := ackBlkRange minAck blk
      match ackBlk unprotected minAck largestAck fuel pent rtb conn with
      | none => none
      | some (.error e, rtb, conn) => some (.error e, rtb, conn)
      | some (.ok pent, rtb, conn) => ackBlks unprotected fuel minAck blks pent rtb conn

/-- `ngtcp2_rtb_recv_ack`; `none` is a failed assertion, a bad pointer or a loop that does not end. -/
def recvAck (rtb : RtbMem) (fr : AckFrame) (unprotected : Bool) (conn : Conn) :
    Option (Except Err Unit × RtbMem × Conn) :=
  let fuel := rtb.pq.q.length + 1
  match rtb.skipNewer fr.largestAck fuel .head with
  | none => none
  | some pent =>
    let minAck := subU64 fr.largestAck fr.firstAckBlklen
    match ackFirst unprotected minAck fr.largestAck fuel pent rtb conn with
    | none => none
    | some (.error e, rtb, conn) => some (.error e, rtb, conn)
    | some (.ok pent, rtb, conn) => ackBlks unprotected fuel minAck fr.blks pent rtb conn

end RtbMem

/-! ## What the memory holds -/

theorem addrs_append (ents ents' : List RtbEntry) :
    addrs (ents ++ ents') = addrs ents ++ addrs ents' := List.map_append

/-- The pointers, the heap and the counters are those of the buffer `rtb`. -/
structure RtbMem.Holds (m : RtbMem) (rtb : Rtb) : Prop where
  inv : RtbInv rtb
  ordered : Pq.Ordered (·.expiry) rtb.pq
  links : m.links.Linked (addrs rtb.head)
  q : m.pq.q = addrs rtb.pq
  ents : ∀ ent ∈ rtb.head, m.ents ent.addr = some ent
  index : m.pq.Ok
  bytes : m.bytesInFlight = rtb.bytesInFlight
  largest : m.largestAcked = rtb.largestAcked

theorem expiryLess_byKey : Pq.ByKey expiryLess (·.expiry) := fun _ _ => decide_eq_true_iff

section
variable {m : RtbMem} {rtb : Rtb} {ent : RtbEntry} {pre suf : List RtbEntry}

theorem lessAt_agrees {ents : Nat → Option RtbEntry} {q : List RtbEntry}
    (h : ∀ ent ∈ q, ents ent.addr = some ent) :
    Pq.Agrees expiryLess (lessAt ents) (·.addr) q := by
  intro x hx y hy
  unfold lessAt
  rw [h x hx, h y hy]

theorem RtbMem.Holds.agrees (h : m.Holds rtb) :
    Pq.Agrees expiryLess (lessAt m.ents) (·.addr) rtb.pq :=
  lessAt_agrees fun ent hent => h.ents ent (h.inv.perm.subset hent)

theorem rtbMemInit_holds : rtbMemInit.Holds rtbInit where
  inv := rtbInit_inv
  ordered := fun i x p _ hx => by cases hx
  links := .empty
  q := rfl
  ents := fun ent hent => by cases hent
  index := fun i x hx => by cases hx
  bytes := rfl
  largest := rfl

/-- An object that is in neither of the two is added. -/
theorem RtbMem.Holds.add (h : m.Holds rtb) (hnew : ent.addr ∉ m.pq.q) :
    (m.add ent).Holds (rtbAdd rtb ent) := by
  have hpq : ent.addr ∉ addrs rtb.pq := h.q ▸ hnew
  have hhead : ent.addr ∉ addrs rtb.head := fun hc => hpq ((h.inv.perm.map _).symm.subset hc)
  have hents : ∀ e ∈ ent :: rtb.head, (m.store ent).ents e.addr = some e := by
    intro e he
    rcases List.mem_cons.mp he with rfl | he
    · exact if_pos rfl
    · have hne : e.addr ≠ ent.addr := fun hc => hhead (hc ▸ List.mem_map_of_mem he)
      exact (if_neg hne).trans (h.ents e he)
  have hagrees : Pq.Agrees expiryLess (lessAt (m.store ent).ents) (·.addr) (rtb.pq ++ [ent]) := by
    apply lessAt_agrees
    intro e he
    rcases List.mem_append.mp he with he | he
    · exact hents e (List.mem_cons_of_mem _ (h.inv.perm.subset he))
    · exact hents e (List.mem_singleton.mp he ▸ List.mem_cons_self)
  constructor
  · exact h.inv.add hhead
  · exact Pq.push_ordered expiryLess_byKey h.ordered ent
  · exact h.links.pushFront hhead
  · show (m.pq.push (lessAt (m.store ent).ents) ent.addr).q = addrs (Pq.push expiryLess rtb.pq ent)
    rw [Pq.Indexed.push_q, h.q]
    exact Pq.push_map hagrees
  · exact hents
  · exact h.index.push hnew _
  · show m.bytesInFlight + ent.pktlen = rtb.bytesInFlight + ent.pktlen
    rw [h.bytes]
  · exact h.largest

/-- The entry at the top of the heap. -/
theorem RtbMem.Holds.top (h : m.Holds rtb) : m.top = rtbTop rtb := by
  unfold RtbMem.top rtbTop Pq.top
  rw [h.q, addrs, List.head?_map]
  cases hhead : rtb.pq.head? with
  | none => rfl
  | some ent => exact h.ents ent (h.inv.perm.subset (List.mem_of_head? hhead))

/-- The entries before and behind one of the list. -/
theorem unlink_split (hhead : rtb.head = pre ++ ent :: suf) (hnodup : (addrs rtb.head).Nodup) :
    unlink ent.addr rtb.head = pre ++ suf := by
  have hpre : ∀ e ∈ pre, ¬(e.addr == ent.addr) = true := by
    intro e he heq
    rw [hhead, addrs, List.map_append, List.map_cons] at hnodup
    have hdisj := (List.nodup_append.mp hnodup).2.2 e.addr
      (List.mem_map_of_mem he) ent.addr List.mem_cons_self
    exact hdisj (by simpa using heq)
  unfold unlink
  rw [hhead, List.eraseP_append_right _ hpre, List.eraseP_cons_of_pos (by simp)]

/-- The entry at the top leaves the heap and the list. -/
theorem RtbMem.Holds.pop (h : m.Holds rtb) (htop : rtbTop rtb = some ent) :
    ∃ m' rtb', m.pop = some m' ∧ rtbPop rtb ent = some rtb' ∧ m'.Holds rtb' := by
  obtain ⟨rtb', hpop, hun⟩ := h.inv.pop htop
  have hmem : ent ∈ rtb.head := h.inv.perm.subset (List.mem_of_head? htop)
  obtain ⟨pre, suf, hhead⟩ := List.append_of_mem hmem
  have hlinked : m.links.Linked (addrs pre ++ ent.addr :: addrs suf) := by
    have hlinks := h.links
    rwa [hhead, addrs, List.map_append, List.map_cons] at hlinks
  have hqtop : Pq.top m.pq.q = some ent.addr := by
    rw [h.q, Pq.top, addrs, List.head?_map]
    exact congrArg (Option.map _) htop
  unfold rtbPop at hpop
  split at hpop
  · next hle =>
    obtain rfl := Option.some.inj hpop
    have hmpop : m.pop = some { m with
        pq := m.pq.pop (lessAt m.ents)
        links := (m.links.unlink ent.addr (endLoc .head (addrs pre))).clear ent.addr
        bytesInFlight := m.bytesInFlight - ent.pktlen } := by
      unfold RtbMem.pop
      rw [hqtop]
      dsimp only
      rw [h.ents ent hmem, hlinked.pprev.1]
      dsimp only
      rw [if_pos (h.bytes ▸ hle)]
    have hunlink := unlink_split hhead h.inv.nodup
    have hout : ent.addr ∉ addrs pre ++ addrs suf := by
      have hnot := hun.addr
      dsimp only at hnot
      rwa [hunlink, addrs_append] at hnot
    refine ⟨_, _, hmpop, if_pos hle, ?_⟩
    · constructor
      · exact hun.inv
      · exact Pq.pop_ordered expiryLess_byKey h.ordered
      · show ((m.links.unlink ent.addr (endLoc .head (addrs pre))).clear ent.addr).Linked
          (addrs (unlink ent.addr rtb.head))
        rw [hunlink, addrs_append]
        exact hlinked.unlink.clear hout
      · show (m.pq.pop (lessAt m.ents)).q = addrs (Pq.pop expiryLess rtb.pq)
        rw [Pq.Indexed.pop_q, h.q]
        exact Pq.pop_map h.agrees
      · exact fun e he => h.ents e ((unlink_sublist _ _).subset he)
      · exact h.index.pop _
      · show m.bytesInFlight - ent.pktlen = rtb.bytesInFlight - ent.pktlen
        rw [h.bytes]
      · exact h.largest
  · cases hpop

/-- The entry behind a pointer of the list is removed and freed. -/
theorem RtbMem.Holds.remove (h : m.Holds rtb) (hhead : rtb.head = pre ++ ent :: suf) :
    ∃ m' rtb', m.remove (endLoc .head (addrs pre)) = some m' ∧ rtbRemove rtb ent = some rtb' ∧
    m'.Holds rtb' ∧
      rtb'.head = pre ++ suf := by
  have hmem : ent ∈ rtb.head := hhead ▸ List.mem_append_right _ List.mem_cons_self
  obtain ⟨rtb', hremove, hun⟩ := h.inv.remove hmem
  have hlinked : m.links.Linked (addrs pre ++ ent.addr :: addrs suf) := by
    have hlinks := h.links
    rwa [hhead, addrs, List.map_append, List.map_cons] at hlinks
  have hunlink := unlink_split hhead h.inv.nodup
  unfold rtbRemove at hremove
  split at hremove
  · cases hremove
  next index hfind =>
  split at hremove
  · next hle =>
    obtain rfl := Option.some.inj hremove
    -- The position that the object knows is the one the heap is searched for.
    obtain ⟨hlt, haddr, -⟩ := List.findIdx?_eq_some_iff_getElem.mp hfind
    have hat : m.pq.q[index]? = some ent.addr := by
      rw [h.q, addrs, List.getElem?_map, List.getElem?_eq_getElem hlt, Option.map_some]
      exact congrArg some (by simpa using haddr)
    obtain ⟨pq, hpq, hpqq, hok⟩ := h.index.remove (List.mem_of_getElem? hat) (lessAt m.ents)
    rw [h.index index _ hat] at hpqq
    have hmremove : m.remove (endLoc .head (addrs pre)) = some { m with
        ents := fun b => if b = ent.addr then none else m.ents b
        pq
        links := m.links.unlinkAt (endLoc .head (addrs pre))
        bytesInFlight := m.bytesInFlight - ent.pktlen } := by
      unfold RtbMem.remove
      rw [hlinked.pprev.2]
      dsimp only
      rw [h.ents ent hmem, hpq]
      dsimp only
      rw [if_pos (h.bytes ▸ hle)]
    have hrtb : rtbRemove rtb ent = some { rtb with
        pq := Pq.removeAt expiryLess rtb.pq index
        head := unlink ent.addr rtb.head
        bytesInFlight := rtb.bytesInFlight - ent.pktlen } := by
      unfold rtbRemove
      rw [hfind]
      exact if_pos hle
    refine ⟨_, _, hmremove, hrtb, ?_, hunlink⟩
    · constructor
      · exact hun.inv
      · exact Pq.removeAt_ordered expiryLess_byKey h.ordered index
      · show (m.links.unlinkAt (endLoc .head (addrs pre))).Linked (addrs (unlink ent.addr rtb.head))
        rw [hunlink, addrs_append]
        exact hlinked.unlinkAt
      · show pq.q = addrs (Pq.removeAt expiryLess rtb.pq index)
        rw [hpqq, h.q]
        exact Pq.removeAt_map h.agrees index
      · intro e he
        have hne : e.addr ≠ ent.addr := fun hc => hun.addr (List.mem_map.mpr ⟨e, he, hc⟩)
        exact (if_neg hne).trans (h.ents e ((unlink_sublist _ _).subset he))
      · exact hok
      · show m.bytesInFlight - ent.pktlen = rtb.bytesInFlight - ent.pktlen
        rw [h.bytes]
      · exact h.largest
  · cases hremove

end

/-! ## Telling the application does not touch the buffer -/

/-- The same result with another buffer. -/
def withRtb {α : Type} (r : Result α) (rtb : Rtb) : Result α := (r.1, r.2.setRtb rtb)

section
variable {conn : Conn} {rtb : Rtb}

theorem andThen_withRtb {α β : Type} (r : Result α) {f : α → Conn → Result β}
    (hf : ∀ a conn, f a (conn.setRtb rtb) = withRtb (f a conn) rtb) :
    (withRtb r rtb).andThen f = withRtb (r.andThen f) rtb := by
  obtain ⟨x, conn⟩ := r
  cases x with
  | error e => rfl
  | ok a => exact hf a conn

theorem connCall_withRtb (conn : Conn) (ev : Event) :
    connCall (conn.setRtb rtb) ev = withRtb (connCall conn ev) rtb := by
  have hreply : (conn.setRtb rtb).callbacks.reply (conn.setRtb rtb).log ev =
    conn.callbacks.reply conn.log ev := rfl
  unfold connCall
  rw [hreply]
  cases conn.callbacks.reply conn.log ev <;> rfl

theorem ngtcp2ConnCloseStreamIfShutRdwr_withRtb (conn : Conn) (strm : Strm) (code : Nat) :
    ngtcp2ConnCloseStreamIfShutRdwr (conn.setRtb rtb) strm code =
    withRtb (ngtcp2ConnCloseStreamIfShutRdwr conn strm code) rtb := by
  have hstrms : (conn.setRtb rtb).strms strm.streamId = conn.strms strm.streamId := rfl
  unfold ngtcp2ConnCloseStreamIfShutRdwr ngtcp2ConnCloseStream
  split
  · dsimp only
    rw [hstrms]
    cases conn.strms strm.streamId with
    | none => rfl
    | some _ =>
      dsimp only
      unfold connCallStreamClose
      rw [← andThen_withRtb, ← connCall_withRtb]
      · rfl
      · intro _ conn
        have hlocal : connLocalStream (conn.setRtb rtb) strm.streamId =
          connLocalStream conn strm.streamId := rfl
        rw [hlocal]
        cases bidiStream strm.streamId <;> split <;> split <;> rfl
  · rfl

theorem callAckedStreamOffset_withRtb (frc : List Frame) (conn : Conn) :
    callAckedStreamOffset frc (conn.setRtb rtb) = withRtb (callAckedStreamOffset frc conn) rtb := by
  induction frc generalizing conn with
  | nil => rfl
  | cons fr frc ih =>
    cases fr with
    | stream fr =>
      have hstrms : (conn.setRtb rtb).strms fr.streamId = conn.strms fr.streamId := rfl
      unfold callAckedStreamOffset
      rw [hstrms]
      cases conn.strms fr.streamId with
      | none => exact ih conn
      | some strm =>
        dsimp only
        split
        · exact ih (conn.setStrm _)
        · rw [← andThen_withRtb, ← connCall_withRtb]
          · rfl
          · intro _ conn
            rw [ngtcp2ConnCloseStreamIfShutRdwr_withRtb]
            apply andThen_withRtb
            intro _ conn
            exact ih conn
    | _ => exact ih conn

theorem ackedEntry_withRtb (conn : Conn) (ent : RtbEntry) :
    ackedEntry (conn.setRtb rtb) ent = withRtb (ackedEntry conn ent) rtb := by
  unfold ackedEntry
  dsimp only
  split
  · next h =>
    have h : (conn.tell (.pktAcked ent.hd.pktNum ent.frc)).callbacks.ackedStreamDataOffset = true :=
      h
    rw [if_pos h, ← callAckedStreamOffset_withRtb]
    rfl
  · next h =>
    have h : ¬(conn.tell (.pktAcked ent.hd.pktNum ent.frc)).callbacks.ackedStreamDataOffset =
      true := h
    rw [if_neg h]
    rfl

end

/-! ## The loops over the pointers -/

section
variable {m : RtbMem} {rtb : Rtb} {ent : RtbEntry} {pre ents suf : List RtbEntry} {conn : Conn} {fuel : Nat}

theorem RtbMem.Holds.read_nil (h : m.Holds rtb) (hhead : rtb.head = pre ++ []) :
    m.links.read (endLoc .head (addrs pre)) = none := by
  have hchain := h.links.chain
  rw [hhead, addrs_append] at hchain
  exact hchain.suffix

theorem RtbMem.Holds.read_cons (h : m.Holds rtb) (hhead : rtb.head = pre ++ ent :: suf) :
    m.links.read (endLoc .head (addrs pre)) = some ent.addr ∧ m.ents ent.addr = some ent := by
  have hchain := h.links.chain
  rw [hhead, addrs_append] at hchain
  exact ⟨hchain.suffix.1, h.ents ent (hhead ▸ List.mem_append_right _ List.mem_cons_self)⟩

theorem endLoc_addrs_concat (pre : List RtbEntry) (ent : RtbEntry) :
    endLoc .head (addrs (pre ++ [ent])) = .next ent.addr := by
  rw [addrs_append]
  exact endLoc_concat _ _ _

/-- An entry stays when the application reports a failure. -/
theorem rtbOnAcked_of_error {conn' : Conn} {e : Err} (h : ackedEntry conn ent = (.error e, conn')) :
    rtbOnAcked conn ent = (.error e, conn') := by
  unfold ackedEntry at h
  unfold rtbOnAcked
  dsimp only at h ⊢
  rw [h, andThen_error]

theorem rtbOnAcked_of_ok {conn' : Conn} {rtb : Rtb} (h : ackedEntry conn ent = (.ok (), conn'))
    (hremove : rtbRemove { conn'.rtb with
      largestAcked := max conn'.rtb.largestAcked ent.hd.pktNum } ent = some rtb) :
    rtbOnAcked conn ent = (.ok (), conn'.setRtb rtb) := by
  unfold ackedEntry at h
  unfold rtbOnAcked
  dsimp only at h ⊢
  rw [h, andThen_ok, hremove]

/-- An acknowledged entry is reported and removed, by the pointer that leads to it as by its address. -/
theorem RtbMem.Holds.acked (h : m.Holds rtb) (hhead : rtb.head = pre ++ ent :: suf) (conn : Conn) :
    (∃ e conn', ackedEntry conn ent = (.error e, conn') ∧
    rtbOnAcked (conn.setRtb rtb) ent = (.error e, conn'.setRtb rtb)) ∨
    ∃ conn' m' rtb', ackedEntry conn ent = (.ok (), conn') ∧
      RtbMem.remove { m with largestAcked := max m.largestAcked ent.hd.pktNum }
      (endLoc .head (addrs pre)) = some m' ∧
      rtbOnAcked (conn.setRtb rtb) ent = (.ok (), conn'.setRtb rtb') ∧ m'.Holds rtb' ∧
      rtb'.head = pre ++ suf := by
  have hacked : ackedEntry (conn.setRtb rtb) ent = withRtb (ackedEntry conn ent) rtb :=
    ackedEntry_withRtb conn ent
  generalize ackedEntry conn ent = res at hacked
  obtain ⟨x, conn'⟩ := res
  cases x with
  | error e => exact .inl ⟨e, conn', rfl, rtbOnAcked_of_error hacked⟩
  | ok _ =>
    have hmax : RtbMem.Holds { m with largestAcked := max m.largestAcked ent.hd.pktNum }
        { rtb with largestAcked := max rtb.largestAcked ent.hd.pktNum } :=
      ⟨⟨h.inv.perm, h.inv.nodup, h.inv.bytes⟩, h.ordered, h.links, h.q, h.ents, h.index, h.bytes, by
        dsimp only
        rw [h.largest]⟩
    obtain ⟨m', rtb', hmremove, hremove, hholds, hhead'⟩ := hmax.remove hhead
    have hok : ackedEntry (conn.setRtb rtb) ent = (.ok (), conn'.setRtb rtb) := hacked
    have hon := rtbOnAcked_of_ok hok hremove
    exact .inr ⟨conn', m', rtb', rfl, hmremove, hon, hholds, hhead'⟩

/-- The loop over the pointers and the one over the entries ended in the same way. -/
inductive AckLoop (n : Nat) :
    Option (Except Err (Loc Nat) × RtbMem × Conn) → Result (List RtbEntry) → Prop where
  | failed {m : RtbMem} {rtb : Rtb} (holds : m.Holds rtb) (e : Err) (conn : Conn) :
    AckLoop n (some (.error e, m, conn)) (.error e, conn.setRtb rtb)
  | cursor {m : RtbMem} {rtb : Rtb} {pre ents : List RtbEntry} (holds : m.Holds rtb)
      (head : rtb.head = pre ++ ents)
      (len : ents.length ≤ n) (conn : Conn) :
    AckLoop n (some (.ok (endLoc .head (addrs pre)), m, conn)) (.ok ents, conn.setRtb rtb)

theorem AckLoop.mono {n k : Nat} {x : Option (Except Err (Loc Nat) × RtbMem × Conn)}
    {y : Result (List RtbEntry)}
    (h : AckLoop n x y) (hn : n ≤ k) : AckLoop k x y := by
  cases h with
  | failed holds e conn => exact .failed holds e conn
  | cursor holds head len conn => exact .cursor holds head (len.trans hn) conn

theorem skipNewer_loop (h : m.Holds rtb) (hhead : rtb.head = pre ++ ents)
    (hfuel : ents.length < fuel) (largestAck : Nat) :
    ∃ pre', rtb.head = pre' ++ ents.dropWhile (fun ent => largestAck < ent.hd.pktNum) ∧
      m.skipNewer largestAck fuel (endLoc .head (addrs pre)) =
      some (endLoc .head (addrs pre')) := by
  induction ents generalizing pre fuel with
  | nil =>
    obtain ⟨fuel, rfl⟩ := Nat.exists_eq_add_of_lt hfuel
    refine ⟨pre, hhead, ?_⟩
    unfold RtbMem.skipNewer
    rw [h.read_nil hhead]
  | cons ent ents ih =>
    obtain ⟨hread, hent⟩ := h.read_cons hhead
    obtain ⟨fuel, rfl⟩ := Nat.exists_eq_add_of_lt (Nat.zero_lt_of_lt hfuel)
    rw [Nat.zero_add] at hfuel ⊢
    unfold RtbMem.skipNewer
    rw [hread]
    dsimp only
    rw [hent]
    dsimp only
    by_cases hle : ent.hd.pktNum ≤ largestAck
    · rw [if_pos hle, List.dropWhile_cons_of_neg (by simpa using hle)]
      exact ⟨pre, hhead, rfl⟩
    · rw [if_neg hle, List.dropWhile_cons_of_pos (by simpa using hle),
        ← endLoc_addrs_concat pre ent]
      exact ih (by rw [hhead, List.append_assoc, List.singleton_append])
        (Nat.lt_of_succ_lt_succ hfuel)

theorem ackFirst_loop (h : m.Holds rtb) (hhead : rtb.head = pre ++ ents)
    (hfuel : ents.length < fuel) (conn : Conn)
    (unprotected : Bool) (minAck largestAck : Nat) :
    AckLoop ents.length (RtbMem.ackFirst unprotected minAck largestAck fuel (endLoc .head (addrs pre)) m conn)
      (rtbRecvAckFirst unprotected minAck largestAck ents (conn.setRtb rtb)) := by
  induction ents generalizing pre fuel m rtb conn with
  | nil =>
    obtain ⟨fuel, rfl⟩ := Nat.exists_eq_add_of_lt hfuel
    unfold RtbMem.ackFirst rtbRecvAckFirst
    rw [h.read_nil hhead]
    exact .cursor h hhead (Nat.le_refl _) conn
  | cons ent ents ih =>
    obtain ⟨hread, hent⟩ := h.read_cons hhead
    obtain ⟨fuel, rfl⟩ := Nat.exists_eq_add_of_lt (Nat.zero_lt_of_lt hfuel)
    rw [Nat.zero_add] at hfuel ⊢
    have hfuel : ents.length < fuel := Nat.lt_of_succ_lt_succ hfuel
    unfold RtbMem.ackFirst rtbRecvAckFirst
    rw [hread]
    dsimp only
    rw [hent]
    dsimp only
    split
    · split
      · rw [← endLoc_addrs_concat pre ent]
        exact (ih h (by rw [hhead, List.append_assoc, List.singleton_append]) hfuel conn).mono
          (Nat.le_succ _)
      · rcases h.acked hhead conn with ⟨e, conn', hacked, hon⟩
            | ⟨conn', m', rtb', hacked, hremove, hon, hholds, hhead'⟩
        · rw [hacked, hon]
          exact .failed h e conn'
        · rw [hacked, hon]
          dsimp only
          rw [hremove]
          exact (ih hholds hhead' hfuel conn').mono (Nat.le_succ _)
    · exact .cursor h hhead (Nat.le_refl _) conn

theorem ackBlk_loop (h : m.Holds rtb) (hhead : rtb.head = pre ++ ents) (hfuel : ents.length < fuel)
    (conn : Conn)
    (unprotected : Bool) (minAck largestAck : Nat) :
    AckLoop ents.length (RtbMem.ackBlk unprotected minAck largestAck fuel (endLoc .head (addrs pre)) m conn)
      (rtbRecvAckBlk unprotected minAck largestAck ents (conn.setRtb rtb)) := by
  induction ents generalizing pre fuel m rtb conn with
  | nil =>
    obtain ⟨fuel, rfl⟩ := Nat.exists_eq_add_of_lt hfuel
    unfold RtbMem.ackBlk rtbRecvAckBlk
    rw [h.read_nil hhead]
    exact .cursor h hhead (Nat.le_refl _) conn
  | cons ent ents ih =>
    obtain ⟨hread, hent⟩ := h.read_cons hhead
    obtain ⟨fuel, rfl⟩ := Nat.exists_eq_add_of_lt (Nat.zero_lt_of_lt hfuel)
    rw [Nat.zero_add] at hfuel ⊢
    have hfuel : ents.length < fuel := Nat.lt_of_succ_lt_succ hfuel
    have hskip : AckLoop (ents.length + 1)
        (RtbMem.ackBlk unprotected minAck largestAck fuel (.next ent.addr) m conn)
        (rtbRecvAckBlk unprotected minAck largestAck ents (conn.setRtb rtb)) := by
      rw [← endLoc_addrs_concat pre ent]
      exact (ih h (by rw [hhead, List.append_assoc, List.singleton_append]) hfuel conn).mono
        (Nat.le_succ _)
    unfold RtbMem.ackBlk rtbRecvAckBlk
    rw [hread]
    dsimp only
    rw [hent]
    dsimp only
    split
    · exact hskip
    split
    · exact .cursor h hhead (Nat.le_refl _) conn
    split
    · exact hskip
    · rcases h.acked hhead conn with ⟨e, conn', hacked, hon⟩
          | ⟨conn', m', rtb', hacked, hremove, hon, hholds, hhead'⟩
      · rw [hacked, hon]
        exact .failed h e conn'
      · rw [hacked, hon]
        dsimp only
        rw [hremove]
        exact (ih hholds hhead' hfuel conn').mono (Nat.le_succ _)

theorem ackBlks_loop (h : m.Holds rtb) (hhead : rtb.head = pre ++ ents) (hfuel : ents.length < fuel)
    (conn : Conn)
    (unprotected : Bool) (minAck : Nat) (blks : List AckBlk) :
    ∃ r m' rtb' conn', RtbMem.ackBlks unprotected fuel minAck blks
    (endLoc .head (addrs pre)) m conn = some (r, m', conn') ∧
      rtbRecvAckBlks unprotected minAck blks ents (conn.setRtb rtb) = (r, conn'.setRtb rtb') ∧
      m'.Holds rtb' := by
  induction blks generalizing minAck pre ents m rtb conn with
  | nil => exact ⟨_, m, rtb, conn, rfl, rfl, h⟩
  | cons blk blks ih =>
    unfold RtbMem.ackBlks
    cases ents with
    | nil =>
      rw [h.read_nil hhead]
      exact ⟨_, m, rtb, conn, rfl, rfl, h⟩
    | cons ent ents =>
      obtain ⟨hread, -⟩ := h.read_cons hhead
      rw [hread]
      unfold rtbRecvAckBlks
      dsimp only
      have hloop := ackBlk_loop h hhead hfuel conn unprotected (ackBlkRange minAck blk).1
        (ackBlkRange minAck blk).2
      generalize RtbMem.ackBlk _ _ _ _ _ _ _ = x at hloop ⊢
      generalize rtbRecvAckBlk _ _ _ _ _ = y at hloop ⊢
      cases hloop with
      | failed holds e conn' => exact ⟨_, _, _, conn', rfl, rfl, holds⟩
      | cursor holds head len conn' => exact ih holds head (Nat.lt_of_le_of_lt len hfuel) conn' _

/-- The call on the pointers does what the call on the lists does. -/
theorem RtbMem.Holds.recvAck (h : m.Holds rtb) (fr : AckFrame) (unprotected : Bool) (conn : Conn) :
    ∃ r m' rtb' conn', m.recvAck fr unprotected conn = some (r, m', conn') ∧
      ngtcp2RtbRecvAck (conn.setRtb rtb) fr unprotected = (r, conn'.setRtb rtb') ∧
      m'.Holds rtb' := by
  have hfuel : rtb.head.length < m.pq.q.length + 1 := by
    have hlength := h.inv.perm.length_eq
    rw [h.q, addrs, List.length_map]
    omega
  obtain ⟨pre, hhead, hskip⟩ := skipNewer_loop h (List.nil_append rtb.head).symm hfuel fr.largestAck
  have hskip : m.skipNewer fr.largestAck (m.pq.q.length + 1) .head =
    some (endLoc .head (addrs pre)) := hskip
  have hfuel : (rtb.head.dropWhile fun ent => fr.largestAck < ent.hd.pktNum).length < m.pq.q.length + 1 :=
    Nat.lt_of_le_of_lt (List.dropWhile_sublist _).length_le hfuel
  unfold RtbMem.recvAck ngtcp2RtbRecvAck
  dsimp only
  rw [hskip]
  dsimp only
  have hloop := ackFirst_loop h hhead hfuel conn unprotected
    (subU64 fr.largestAck fr.firstAckBlklen) fr.largestAck
  change ∃ r m' rtb' conn', _ ∧
    (rtbRecvAckFirst unprotected (subU64 fr.largestAck fr.firstAckBlklen) fr.largestAck
    (rtb.head.dropWhile fun ent => fr.largestAck < ent.hd.pktNum)
    (conn.setRtb rtb)).andThen _ = _ ∧ _
  generalize RtbMem.ackFirst _ _ _ _ _ _ _ = x at hloop ⊢
  generalize rtbRecvAckFirst _ _ _ _ _ = y at hloop ⊢
  cases hloop with
  | failed holds e conn' => exact ⟨_, _, _, conn', rfl, rfl, holds⟩
  | cursor holds head len conn' =>
    exact ackBlks_loop holds head (Nat.lt_of_le_of_lt len hfuel) conn' unprotected _ _

end

/-! ## Runs of the buffer -/

/-- The calls of the buffer's functions. -/
inductive RtbOp where
  | add (ent : RtbEntry)
  | pop
  | recvAck (fr : AckFrame) (unprotected : Bool) (conn : Conn)

/-- A call that returns. An object is added that is not in the buffer: a new one, or one that was popped. -/
inductive RtbStep (ops : List RtbOp) : RtbMem → RtbOp → RtbMem → Prop where
  | add {m : RtbMem} {ent : RtbEntry} (out : ent.addr ∉ m.pq.q) :
      RtbStep ops m (.add ent) (m.add ent)
  | pop {m m' : RtbMem} (ret : m.pop = some m') : RtbStep ops m .pop m'
  | recvAck {m m' : RtbMem} {fr : AckFrame} {unprotected : Bool} {conn conn' : Conn}
      {r : Except Err Unit}
      (ret : m.recvAck fr unprotected conn = some (r, m', conn')) :
        RtbStep ops m (.recvAck fr unprotected conn) m'

/-- The heap and the list have the same objects `ents`, and the counters and the top are theirs. -/
structure RtbMem.Consistent (m : RtbMem) (ents : List RtbEntry) : Prop where
  links : m.links.Linked (addrs ents)
  mem : ∀ ent ∈ ents, m.ents ent.addr = some ent
  same : m.pq.q.Perm (addrs ents)
  index : m.pq.Ok
  bytes : m.bytesInFlight = (ents.map (·.pktlen)).sum
  empty : m.top = none → ents = []
  least : ∀ ent, m.top = some ent → ent ∈ ents ∧ ∀ ent' ∈ ents, ent.expiry ≤ ent'.expiry

section
variable {m m' : RtbMem} {rtb : Rtb} {ops : List RtbOp} {op : RtbOp}

theorem RtbMem.Holds.consistent (h : m.Holds rtb) : m.Consistent rtb.head where
  links := h.links
  mem := h.ents
  same := by
    rw [h.q]
    exact h.inv.perm.map _
  index := h.index
  bytes := h.bytes.trans h.inv.bytes
  empty := by
    intro hnone
    rw [h.top] at hnone
    have hperm := h.inv.perm
    rw [List.head?_eq_none_iff.mp hnone] at hperm
    exact hperm.nil_eq.symm
  least := by
    intro ent htop
    rw [h.top] at htop
    refine ⟨h.inv.perm.subset (List.mem_of_head? htop), fun ent' hmem => ?_⟩
    exact h.ordered.top_least expiryLess_byKey htop ent' (h.inv.perm.symm.subset hmem)

/-- No assertion of `ngtcp2_rtb_pop` fails. -/
theorem RtbMem.Holds.pop_returns (h : m.Holds rtb) :
    ∃ m' rtb', m.pop = some m' ∧ m'.Holds rtb' := by
  cases htop : rtbTop rtb with
  | none =>
    refine ⟨m, rtb, ?_, h⟩
    have hnil : rtb.pq = [] := List.head?_eq_none_iff.mp htop
    unfold RtbMem.pop
    rw [h.q, hnil]
    rfl
  | some ent =>
    obtain ⟨m', rtb', hpop, -, hholds⟩ := h.pop htop
    exact ⟨m', rtb', hpop, hholds⟩

/-- Every call keeps to the buffer of the lists. -/
theorem RtbStep.holds (hstep : RtbStep ops m op m') (h : m.Holds rtb) : ∃ rtb', m'.Holds rtb' := by
  cases hstep with
  | add out => exact ⟨_, h.add out⟩
  | pop ret =>
    obtain ⟨m₁, rtb', hpop, hholds⟩ := h.pop_returns
    obtain rfl := Option.some.inj (hpop.symm.trans ret)
    exact ⟨rtb', hholds⟩
  | recvAck ret =>
    obtain ⟨r, m₁, rtb', conn', hrecv, -, hholds⟩ := h.recvAck _ _ _
    obtain ⟨-, hm⟩ := Prod.mk.inj (Option.some.inj (hrecv.symm.trans ret))
    obtain ⟨rfl, -⟩ := Prod.mk.inj hm
    exact ⟨rtb', hholds⟩

theorem rtbRun_holds (hrun : Runs.Run RtbStep rtbMemInit ops m) : ∃ rtb, m.Holds rtb := by
  apply hrun.invariant fun _ m => ∃ rtb, RtbMem.Holds m rtb
  · exact ⟨rtbInit, rtbMemInit_holds⟩
  · rintro ops m op m' ⟨rtb, h⟩ hstep
    exact hstep.holds h

/-- After every sequence of calls the heap, the list and the counters agree, and the next call returns. -/
theorem rtb_consistent (hrun : Runs.Run RtbStep rtbMemInit ops m) :
    (∃ ents, m.Consistent ents) ∧ (∃ m', m.pop = some m') ∧
    ∀ fr unprotected conn, ∃ r m' conn', m.recvAck fr unprotected conn = some (r, m', conn') := by
  obtain ⟨rtb, h⟩ := rtbRun_holds hrun
  refine ⟨⟨rtb.head, h.consistent⟩, ?_, fun fr unprotected conn => ?_⟩
  · obtain ⟨m', -, hpop, -⟩ := h.pop_returns
    exact ⟨m', hpop⟩
  · obtain ⟨r, m', -, conn', hrecv, -⟩ := h.recvAck fr unprotected conn
    exact ⟨r, m', conn', hrecv⟩

end

/-- An entry for packet `pktNum`. -/
def pktEntry (addr pktNum ts pktlen : Nat) : RtbEntry :=
  rtbEntryNew addr (pktHdInit false .pkt01 1 pktNum 1) [] ts (ts + pktDeadlinePeriod) pktlen false

/-- Two packets are sent, and the first one is popped and goes in again with another length. -/
def resentOps : List RtbOp :=
  [.add (pktEntry 1 7 10 40), .add (pktEntry 2 8 20 50), .pop, .add (pktEntry 1 9 30 35)]

theorem rtb_consistent_resent :
    ∃ (m : RtbMem) (ents : List RtbEntry), m.Consistent ents ∧ m.bytesInFlight = 85 := by
  have hrun : Runs.Run RtbStep rtbMemInit resentOps _ :=
    (((Runs.Run.nil.snoc (.add (by decide))).snoc (.add (by decide))).snoc (.pop rfl)).snoc
    (.add (by decide))
  obtain ⟨⟨ents, h⟩, -⟩ := rtb_consistent hrun
  exact ⟨_, ents, h, rfl⟩

end Ngtcp2
