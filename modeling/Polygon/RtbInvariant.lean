import Mathlib.Data.List.Nodup
import Polygon.Rtb

/-!
# The heap and the list of the retransmission buffer

Both hold the same entries, each at an address of its own. So no assertion of the
buffer fails, and an entry that leaves one leaves the other.
-/
namespace Ngtcp2

/-- The addresses of the entries. -/
def addrs (ents : List RtbEntry) : List Nat := ents.map (·.addr)

/-- The heap and the list hold the same entries, and the bytes in flight are theirs. -/
structure RtbInv (rtb : Rtb) : Prop where
  perm : rtb.pq.Perm rtb.head
  nodup : (addrs rtb.head).Nodup
  bytes : rtb.bytesInFlight = (rtb.head.map (·.pktlen)).sum

/-- An entry went out: the list lost exactly this entry. -/
structure Unlinked (rtb : Rtb) (ent : RtbEntry) (rtb' : Rtb) : Prop where
  inv : RtbInv rtb'
  perm : (ent :: rtb'.head).Perm rtb.head
  sublist : rtb'.head.Sublist rtb.head
  addr : ent.addr ∉ addrs rtb'.head

theorem rtbInit_inv : RtbInv rtbInit := ⟨.refl _, List.nodup_nil, rfl⟩

theorem RtbInv.add {rtb : Rtb} (h : RtbInv rtb) {ent : RtbEntry}
    (hnew : ent.addr ∉ addrs rtb.head) :
    RtbInv (rtbAdd rtb ent) := by
  refine ⟨?_, ?_, ?_⟩
  · exact (Pq.push_perm expiryLess rtb.pq ent).trans (h.perm.cons ent)
  · exact List.nodup_cons.mpr ⟨hnew, h.nodup⟩
  · change rtb.bytesInFlight + ent.pktlen = ent.pktlen + (rtb.head.map (·.pktlen)).sum
    rw [h.bytes, Nat.add_comm]

section
variable {addr : Nat} {ent : RtbEntry} {ents : List RtbEntry} {rtb : Rtb}

theorem unlink_sublist (addr : Nat) (ents : List RtbEntry) : (unlink addr ents).Sublist ents :=
  List.eraseP_sublist

/-- Unlinking the address of an entry removes the entry. -/
theorem unlink_perm (hmem : ent ∈ ents) (hnodup : (addrs ents).Nodup) :
    (ent :: unlink ent.addr ents).Perm ents ∧ ent.addr ∉ addrs (unlink ent.addr ents) := by
  induction ents with
  | nil => simp at hmem
  | cons e es ih =>
    obtain ⟨hne, hes⟩ := List.nodup_cons.mp hnodup
    rcases List.mem_cons.mp hmem with rfl | hmem
    · have hself : unlink ent.addr (ent :: es) = es := by simp [unlink]
      rw [hself]
      exact ⟨.refl _, hne⟩
    · have haddr : e.addr ≠ ent.addr := by
        intro he
        apply hne
        exact List.mem_map.mpr ⟨ent, hmem, he.symm⟩
      have hskip : unlink ent.addr (e :: es) = e :: unlink ent.addr es := by simp [unlink, haddr]
      obtain ⟨hperm, hnot⟩ := ih hmem hes
      rw [hskip]
      refine ⟨(List.Perm.swap e ent _).trans (hperm.cons e), ?_⟩
      exact fun hc => (List.mem_cons.mp hc).elim (fun he => haddr he.symm) hnot

/-- Any way of taking an entry out of the heap keeps the two in step. -/
theorem RtbInv.unlink (h : RtbInv rtb) {pq : List RtbEntry} (hpq : (ent :: pq).Perm rtb.pq)
    (largestAcked : Nat) :
    ent.pktlen ≤ rtb.bytesInFlight ∧ Unlinked rtb ent
      { pq, head := Ngtcp2.unlink ent.addr rtb.head, bytesInFlight := rtb.bytesInFlight - ent.pktlen,
        largestAcked } := by
  have hmem : ent ∈ rtb.head := (hpq.trans h.perm).subset (List.mem_cons_self ..)
  obtain ⟨hperm, hnot⟩ := unlink_perm hmem h.nodup
  have hsum : rtb.bytesInFlight =
    ent.pktlen + ((Ngtcp2.unlink ent.addr rtb.head).map (·.pktlen)).sum := by
    rw [h.bytes, ← (hperm.map (·.pktlen)).sum_nat]
    rfl
  refine ⟨by omega, ⟨⟨?_, ?_, ?_⟩, hperm, unlink_sublist _ _, hnot⟩⟩
  · exact ((hpq.trans h.perm).trans hperm.symm).cons_inv
  · exact h.nodup.sublist ((unlink_sublist _ _).map _)
  · dsimp only
    omega

/-- The top entry goes out of the heap and the list. -/
theorem RtbInv.pop (h : RtbInv rtb) (htop : rtbTop rtb = some ent) :
    ∃ rtb', rtbPop rtb ent = some rtb' ∧ Unlinked rtb ent rtb' := by
  obtain ⟨hle, hun⟩ := h.unlink (Pq.pop_perm expiryLess htop) rtb.largestAcked
  exact ⟨_, if_pos hle, hun⟩

/-- An acknowledged entry goes out of the heap and the list. -/
theorem RtbInv.remove (h : RtbInv rtb) (hmem : ent ∈ rtb.head) :
    ∃ rtb', rtbRemove rtb ent = some rtb' ∧ Unlinked rtb ent rtb' := by
  have hpq : ent ∈ rtb.pq := h.perm.symm.subset hmem
  unfold rtbRemove
  cases hf : rtb.pq.findIdx? (·.addr == ent.addr) with
  | none =>
    have := List.findIdx?_eq_none_iff.mp hf ent hpq
    simp at this
  | some index =>
    obtain ⟨hlt, haddr, -⟩ := List.findIdx?_eq_some_iff_getElem.mp hf
    -- Only one entry has the address.
    have hent : rtb.pq[index] = ent := by
      have hnodup : (addrs rtb.pq).Nodup := (h.perm.map _).nodup_iff.mpr h.nodup
      exact List.inj_on_of_nodup_map hnodup (List.getElem_mem hlt) hpq (by simpa using haddr)
    have hperm := Pq.removeAt_perm expiryLess hlt
    rw [hent] at hperm
    obtain ⟨hle, hun⟩ := h.unlink hperm rtb.largestAcked
    exact ⟨_, if_pos hle, hun⟩

end

end Ngtcp2
