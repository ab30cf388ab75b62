import Mathlib.Data.List.Range
import Mathlib.Data.List.Nodup
import Polygon.StreamCredit

/-!
# The credit of a whole run

The credit that a run has given is the number of streams that earned it. So the window
of stream IDs does not move with it, and credit is lost when streams finish otherwise.
-/
namespace Ngtcp2

open Ranges

/-- What the steps of a run contribute, in order. -/
def along (f : Conn → Op → List Nat) : Conn → List Op → List Nat
  | _, [] => []
  | conn, op :: ops => f conn op ++ along f (op.run conn).2 ops

theorem along_snoc (f : Conn → Op → List Nat) (conn : Conn) (ops : List Op) (op : Op) :
    along f conn (ops ++ [op]) = along f conn ops ++ f (runOps conn ops) op := by
  induction ops generalizing conn with
  | nil => simp [along, runOps]
  | cons op' ops ih =>
    rw [List.cons_append, along, along, ih, List.append_assoc]
    rfl

/-- The peer's streams of the type that finish in the step without credit. -/
def lostBy (bidi : Bool) (conn : Conn) (op : Op) : List Nat :=
  (closedBy bidi conn op).filter (fun id => !earnsCredit conn id) ++ resetBy bidi conn op

/-- What a step finishes either earns credit or loses it. -/
theorem finishedBy_length (bidi : Bool) (conn : Conn) (op : Op) :
    (finishedBy bidi conn op).length = (earnedBy bidi conn op).length +
    (lostBy bidi conn op).length := by
  rw [finishedBy, lostBy, List.length_append, List.length_append, earnedBy, ← Nat.add_assoc,
    Nat.add_right_cancel_iff]
  have hsplit := List.length_eq_length_filter_add (earnsCredit conn) (l := closedBy bidi conn op)
  exact hsplit

theorem along_length (bidi : Bool) (conn : Conn) (ops : List Op) :
    (along (finishedBy bidi) conn ops).length =
    (along (earnedBy bidi) conn ops).length + (along (lostBy bidi) conn ops).length := by
  induction ops generalizing conn with
  | nil => rfl
  | cons op ops ih =>
    simp only [along, List.length_append, ih, finishedBy_length]
    omega

/-- Credit grows by 4 until it would leave the range of a variable-length integer. -/
theorem addCredit_iterate (n unsent : Nat) : addCredit^[n] unsent = unsent + 4 * n ∨
    maxVarint < unsent + 4 * n ∧ maxVarint < addCredit^[n] unsent + 4 := by
  induction n with
  | zero => exact .inl rfl
  | succ n ih =>
    rw [Function.iterate_succ_apply']
    unfold addCredit at ih ⊢
    split <;> omega

section
variable {conn₀ conn : Conn} {ops : List Op} {bidi : Bool}

/-- What holds at the end of a run. -/
structure CreditRun (bidi : Bool) (conn₀ : Conn) (ops : List Op) (conn : Conn) : Prop where
  reach : Reachable conn
  last : conn = runOps conn₀ ops
  server : conn.server = conn₀.server
  unsent : (conn.ids bidi).unsentMaxRemoteStreamId =
    addCredit^[(along (earnedBy bidi) conn₀ ops).length] (conn₀.ids bidi).unsentMaxRemoteStreamId
  old : ∀ id, id ≠ 0 → Used conn₀ id → Retired id conn
  nodup : (along (finishedBy bidi) conn₀ ops).Nodup
  mem : ∀ id, id ∈ along (finishedBy bidi) conn₀ ops ↔
    peerStrm conn₀ bidi id = true ∧ ¬Used conn₀ id ∧ Retired id conn

theorem CreditRun.step {op : Op} {conn' : Conn} (hzero : Used conn₀ 0)
    (h : CreditRun bidi conn₀ ops conn)
    (hstep : Step ops conn op conn') : CreditRun bidi conn₀ (ops ++ [op]) conn' := by
  have hids := h.reach.peerInv.used.ids
  have hch := Step.changes h.reach.wellFormed hstep
  have hreach' : Reachable conn' := by
    obtain ⟨conn₁, ops₁, hinit, hrun⟩ := h.reach
    exact ⟨conn₁, _, hinit, hrun.snoc hstep⟩
  have hpeer : ∀ id, peerStrm conn bidi id = peerStrm conn₀ bidi id := peerStrm_congr h.server bidi
  have hstays : ∀ id, id ≠ 0 → Retired id conn → Retired id conn' := fun id hid hgone =>
    (hch.staysRetired hid hids hgone).1
  obtain ⟨hnodup, hnew⟩ := Step.finished h.reach hstep bidi
  have hserver : conn'.server = conn.server := hch.keeps (fun c => c.server = conn.server)
    (fun _ _ _ _ hP hc => hc.server.trans hP) rfl
  have hlast : conn' = runOps conn₀ (ops ++ [op]) := by
    obtain ⟨rv, hrun, -⟩ := hstep
    have hsnoc : runOps conn₀ (ops ++ [op]) = (op.run (runOps conn₀ ops)).2 := by
      rw [runOps, List.foldl_append]
      rfl
    rw [hsnoc, ← h.last, hrun]
  refine ⟨hreach', hlast, hserver.trans h.server, ?_,
    fun id hid hused => hstays id hid (h.old id hid hused), ?_, fun id => ?_⟩
  · rw [Step.unsent h.reach hstep, h.unsent, along_snoc, List.length_append, Nat.add_comm,
      Function.iterate_add_apply,
      ← h.last]
  · rw [along_snoc, ← h.last, List.nodup_append]
    refine ⟨h.nodup, hnodup, fun id hid id' hid' heq => ?_⟩
    exact (hnew id' hid').2.2.1 (heq ▸ ((h.mem id).mp hid).2.2)
  · rw [along_snoc, ← h.last, List.mem_append, h.mem]
    constructor
    · rintro (⟨hp, hfresh, hgone⟩ | hmem)
      · have hne : id ≠ 0 := by
          rintro rfl
          exact hfresh hzero
        exact ⟨hp, hfresh, hstays id hne hgone⟩
      · obtain ⟨hne, hp, hlive, hgone⟩ := hnew id hmem
        exact ⟨hpeer id ▸ hp, fun hc => hlive (h.old id hne hc), hgone⟩
    · rintro ⟨hp, hfresh, hgone⟩
      have hne : id ≠ 0 := by
        rintro rfl
        exact hfresh hzero
      rcases Step.retired h.reach hstep hne ((hpeer id).trans hp) hgone with hold | hmem
      · exact .inl ⟨hp, hfresh, hold⟩
      · exact .inr (List.mem_append.mpr hmem)

theorem Initial.creditRun (h : Initial conn₀) (hrun : Runs.Run Step conn₀ ops conn) (bidi : Bool) :
    CreditRun bidi conn₀ ops conn := by
  refine hrun.invariant (CreditRun bidi conn₀) ⟨h.reachable, rfl, rfl, rfl,
    fun id hid hused => ⟨hused, ?_⟩, ?_, fun id => ?_⟩
    fun _ _ _ _ hP hstep => hP.step h.used_zero hstep
  · cases h <;> exact if_neg hid
  · exact List.nodup_nil
  · constructor
    · intro hid
      cases hid
    · rintro ⟨-, hfresh, hgone⟩
      exact absurd hgone.1 hfresh

theorem Initial.unsent_lt (h : Initial conn₀) (bidi : Bool) :
    (conn₀.ids bidi).unsentMaxRemoteStreamId < 2 ^ 32 := by
  cases h with
  | client mem connId version callbacks settings =>
    cases bidi
    · exact settings.maxStreamIdUni.toNat_lt
    · exact settings.maxStreamIdBidi.toNat_lt
  | server mem connId version callbacks settings =>
    cases bidi
    · exact settings.maxStreamIdUni.toNat_lt
    · exact settings.maxStreamIdBidi.toNat_lt

/-! ## The window -/

/-- The right edge was enlarged as far as the left edge has moved, and the left edge has not passed the
first gap. -/
def StreamIdWindow (init : Nat) (ids : StreamIds) : Prop :=
  (ids.unsentMaxRemoteStreamId - init) / 4 = ids.remoteStreamIdWindowStart ∧
    ids.remoteStreamIdWindowStart ≤ idtrFirstGap ids.remoteIdtr

instance (init : Nat) (ids : StreamIds) : Decidable (StreamIdWindow init ids) :=
    inferInstanceAs (Decidable (_ ∧ _))

/-- The window of a type is as documented as long as no stream of the peer of this type is closed while the
first ID of the type is in use, and from the first such close on it never is again. -/
theorem streamIdWindow_iff (hinit : Initial conn₀) (hrun : Runs.Run Step conn₀ ops conn)
    (bidi : Bool) :
    StreamIdWindow (conn₀.ids bidi).unsentMaxRemoteStreamId (conn.ids bidi) ↔
    along (earnedBy bidi) conn₀ ops = [] := by
  have h := hinit.creditRun hrun bidi
  have hlt := hinit.unsent_lt bidi
  have hmax : maxVarint = 2 ^ 62 - 1 := rfl
  unfold StreamIdWindow
  rw [h.reach.peerInv.start bidi, h.unsent, ← List.length_eq_zero_iff]
  have hiter := addCredit_iterate (along (earnedBy bidi) conn₀ ops).length
    (conn₀.ids bidi).unsentMaxRemoteStreamId
  constructor
  · rintro ⟨hdiv, -⟩
    omega
  · intro hnil
    rw [hnil]
    exact ⟨by simp, Nat.zero_le _⟩

end

/-- The client's stream 6 ends before stream 2 was used, which gives no credit. -/
theorem streamIdWindow_iff_hole :
    StreamIdWindow 40 ((runOps smallServer [.recvFrame false (.stream ⟨6, 0, [8], true⟩)]).ids false) :=
  (streamIdWindow_iff (Initial.server ..) (run_runOps smallServer [.recvFrame false (.stream ⟨6, 0, [8], true⟩)] rfl)
    false).mpr (by decide)

/-- Closing stream 2 enlarges the right edge, and the left edge stays where it was. -/
theorem streamIdWindow_broken : ∃ conn₀ ops conn, Initial conn₀ ∧ Runs.Run Step conn₀ ops conn ∧
    ¬StreamIdWindow (conn₀.ids false).unsentMaxRemoteStreamId (conn.ids false) :=
  ⟨smallServer, [.recvFrame false (.stream ⟨2, 0, [8], true⟩)], _, Initial.server ..,
    run_runOps _ _ rfl, by decide⟩

section
variable {conn₀ conn : Conn} {ops : List Op} {bidi : Bool}

/-! ## The credit -/

/-- The streams of the type that the peer can open, in order; stream 0 is not one of them. -/
def nthPeerStrm (conn : Conn) (bidi : Bool) (n : Nat) : Nat :=
  peerId conn bidi (if conn.server && bidi then n + 1 else n)

theorem nthPeerStrm_inj {n m : Nat} (h : nthPeerStrm conn bidi n = nthPeerStrm conn bidi m) :
    n = m := by
  have hidx := congrArg idFromStreamId h
  simp only [nthPeerStrm, idFromStreamId_peerId] at hidx
  split at hidx <;> omega

theorem exists_nthPeerStrm {id : Nat} (hpeer : peerStrm conn bidi id = true) (hid : id ≠ 0) :
    ∃ n, id = nthPeerStrm conn bidi n := by
  have heq := eq_peerId hpeer
  unfold nthPeerStrm
  split
  · next h =>
    obtain ⟨hserver, rfl⟩ := Bool.and_eq_true_iff.mp h
    have hpos : idFromStreamId id ≠ 0 := by
      intro hzero
      rw [hzero] at heq
      exact hid (by simpa [peerId, hserver] using heq)
    exact ⟨idFromStreamId id - 1, by rw [Nat.sub_add_cancel (by omega)]; exact heq⟩
  · exact ⟨idFromStreamId id, heq⟩

/-- When the peer has used exactly its first `k` streams of a type and all of them are finished, the credit
has grown by `k` streams exactly if no step of the run lost credit. -/
theorem streamIdCredit_iff (hinit : Initial conn₀) (hrun : Runs.Run Step conn₀ ops conn)
    (bidi : Bool) (k : Nat)
    (hused : ∀ n, (Used conn (nthPeerStrm conn₀ bidi n) ∧ ¬Used conn₀ (nthPeerStrm conn₀ bidi n)) ↔
    n < k)
    (hfinished : ∀ n < k, conn.strms (nthPeerStrm conn₀ bidi n) = none)
    (hcap : (conn₀.ids bidi).unsentMaxRemoteStreamId + 4 * k ≤ maxVarint) :
    (conn.ids bidi).unsentMaxRemoteStreamId = (conn₀.ids bidi).unsentMaxRemoteStreamId + 4 * k ↔
      along (lostBy bidi) conn₀ ops = [] := by
  have h := hinit.creditRun hrun bidi
  have hmem : ∀ id, id ∈ along (finishedBy bidi) conn₀ ops ↔
    id ∈ (List.range k).map (nthPeerStrm conn₀ bidi) := by
    intro id
    rw [h.mem, List.mem_map]
    constructor
    · rintro ⟨hpeer, hfresh, hgone⟩
      have hne : id ≠ 0 := by
        rintro rfl
        exact hfresh hinit.used_zero
      obtain ⟨n, rfl⟩ := exists_nthPeerStrm hpeer hne
      exact ⟨n, List.mem_range.mpr ((hused n).mp ⟨hgone.1, hfresh⟩), rfl⟩
    · rintro ⟨n, hn, rfl⟩
      have hn := List.mem_range.mp hn
      obtain ⟨hin, hfresh⟩ := (hused n).mpr hn
      exact ⟨peerId_peerStrm .., hfresh, hin, hfinished n hn⟩
  have hnodup : ((List.range k).map (nthPeerStrm conn₀ bidi)).Nodup :=
    List.Nodup.map (fun _ _ => nthPeerStrm_inj) List.nodup_range
  have hlen := ((List.perm_ext_iff_of_nodup h.nodup hnodup).mpr hmem).length_eq
  rw [List.length_map, List.length_range, along_length] at hlen
  rw [h.unsent, ← List.length_eq_zero_iff]
  have hiter := addCredit_iterate (along (earnedBy bidi) conn₀ ops).length
    (conn₀.ids bidi).unsentMaxRemoteStreamId
  omega

end

/-- Only the client's stream 2 was used. -/
theorem onlyStrm2_used (conn : Conn) (hserver : conn.server = true)
    (hgap : (conn.ids false).remoteIdtr.gap = [⟨1, uint64Max⟩])
    (n : Nat) : (Used conn (nthPeerStrm smallServer false n) ∧
    ¬Used smallServer (nthPeerStrm smallServer false n)) ↔
      n < 1 := by
  have hgap₀ : (smallServer.ids false).remoteIdtr.gap = [⟨0, uint64Max⟩] := rfl
  have hid : nthPeerStrm smallServer false n = peerId conn false n :=
    peerId_congr (hserver ▸ rfl) false n
  have hid₀ : nthPeerStrm smallServer false n = peerId smallServer false n := rfl
  have hused : Used conn (nthPeerStrm smallServer false n) ↔ ¬InGap [⟨1, uint64Max⟩] n := by
    rw [hid, used_peerId, hgap]
  have hused₀ : Used smallServer (nthPeerStrm smallServer false n) ↔ ¬InGap [⟨0, uint64Max⟩] n := by
    rw [hid₀, used_peerId, hgap₀]
  rw [hused, hused₀]
  simp only [inGap_cons, inGap_nil, mem_mk, or_false, uint64Max]
  omega

/-- Stream 2 ends, and the client may open one stream more. -/
theorem streamIdCredit_iff_closed :
    ((runOps smallServer [.recvFrame false (.stream ⟨2, 0, [8], true⟩)]).ids false).unsentMaxRemoteStreamId = 40 + 4 * 1 :=
  (streamIdCredit_iff (Initial.server ..) (run_runOps smallServer [.recvFrame false (.stream ⟨2, 0, [8], true⟩)] rfl)
    false 1 (onlyStrm2_used _ rfl rfl) (by decide) (by decide)).mpr (by decide)

/-- Stream 2 is reset before it is created, and the client may open one stream less. -/
theorem streamIdCredit_lost : ∃ conn₀ ops conn, Initial conn₀ ∧ Runs.Run Step conn₀ ops conn ∧
    (∀ n, (Used conn (nthPeerStrm conn₀ false n) ∧ ¬Used conn₀ (nthPeerStrm conn₀ false n)) ↔
    n < 1) ∧
    (∀ n < 1, conn.strms (nthPeerStrm conn₀ false n) = none) ∧
    (conn₀.ids false).unsentMaxRemoteStreamId + 4 * 1 ≤ maxVarint ∧
    (conn.ids false).unsentMaxRemoteStreamId ≠ (conn₀.ids false).unsentMaxRemoteStreamId + 4 * 1 :=
  ⟨smallServer, [.recvFrame false (.rstStream ⟨2, 0, 5⟩)], _, Initial.server .., run_runOps _ _ rfl,
    onlyStrm2_used _ rfl rfl, by decide, by decide, by decide⟩

end Ngtcp2
