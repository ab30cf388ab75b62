import Polygon.Draining
import Polygon.Lib.Network

/-!
# A connection as a party of a network

The packets that a step sends and the frames that it reads, and two connections with a network
between them that loses, repeats and reorders frames.
-/
namespace Ngtcp2

/-- The frames that a step sends. -/
def Op.emits (conn : Conn) (op : Op) : List Frame := ((op.pkt conn).map (·.frames)).getD []

/-- The frames that a step reads from the network. -/
def Op.readFrames : Op → List Frame
  | recvFrame _ fr | recvDelayedHandshakeFrame _ fr | recvHandshakeFrame _ _ fr => [fr]
  | _ => []

/-- A connection whose steps are restricted by `ok`, as a party that exchanges frames. -/
def endpoint (ok : Conn → Op → Prop) : Network.Party Conn Op Frame where
  step := Runs.Guarded Step fun _ conn op => ok conn op
  reads := Op.readFrames
  sends := Op.emits

/-- A client and a server, which have sent nothing. -/
structure Connected {μ : Type} (net : Network.Net Conn μ) : Prop where
  initial : ∀ side, Initial (net.state side)
  sent : ∀ side, net.sent side = []
  roles : (net.state false).server = true ∧ (net.state true).server = false

/-- A step of one of two endpoints, as a function of both. -/
def exchangeStep (net : Network.Net Conn Frame) (l : Bool × Op) : Network.Net Conn Frame :=
  net.move l.1 (l.2.run (net.state l.1)).2 (l.2.emits (net.state l.1))

/-- The step is survived, and reads only what the other endpoint sent. -/
def exchangeAllows (ok : Conn → Op → Bool) (net : Network.Net Conn Frame) (l : Bool × Op) : Bool :=
  survives (l.2.run (net.state l.1)).1 && ok (net.state l.1) l.2 &&
    l.2.readFrames.all fun m => decide (m ∈ net.sent !l.1)

/-- A frame that closes the connection, which is not sent again. -/
def Frame.isClose : Frame → Bool
  | .connectionClose .. | .applicationClose .. => true
  | _ => false

section
variable {conn conn' : Conn} {ops : List Op} {op : Op} {pkt : Pkt} {destlen ts : Nat}

theorem toOption_some {α : Type} {r : Except Err α} {a : α} (h : r.toOption = some a) :
    r = .ok a := by
  cases r with
  | ok b =>
    obtain rfl := Option.some.inj h
    rfl
  | error e => cases h

theorem toOption_join {α : Type} {r : Except Err (Option α)} {a : α}
    (h : r.toOption.join = some a) : r = .ok (some a) := by
  cases r with
  | ok b =>
    cases b with
    | none => cases h
    | some b =>
      obtain rfl := Option.some.inj h
      rfl
  | error e => cases h

theorem not_fatal_of_void {α : Type} {x : Except Err α} {rv : Except Err Unit}
    (hve : ∀ e, rv = .error e ↔ x = .error e) (hrv : ¬Fatal rv) : ¬Fatal x := by
  rintro ⟨e, rfl, hf⟩
  exact hrv ⟨e, (hve e).mpr rfl, hf⟩

theorem Kept.held {fr : Frame} (h : Kept conn pkt) (hfr : fr ∈ pkt.frames) :
    fr.untracked = true ∨ fr ∈ held conn := by
  rcases h with hun | ⟨ent, hent, htracks⟩
  · exact .inl (hun fr hfr)
  · obtain ⟨pre, post, hframes, hun⟩ := htracks.carries
    rw [hframes, List.append_assoc] at hfr
    rcases List.mem_append.mp hfr with hfr | hfr
    · exact .inl (hun fr (List.mem_append_left _ hfr))
    rcases List.mem_append.mp hfr with hfr | hfr
    · refine .inr (List.mem_append_right _ (List.mem_flatMap.mpr ⟨ent, ?_, hfr⟩))
      exact List.mem_append_left _ hent
    · exact .inl (hun fr (List.mem_append_right _ hfr))

theorem ngtcp2ConnWritePkt_kept (hwf : WellFormed conn)
    (h : ngtcp2ConnWritePkt conn destlen ts = (.ok (some pkt), conn')) : Kept conn' pkt := by
  rcases ngtcp2ConnWritePkt_cases h with hf | ⟨he, -⟩ | ⟨-, hcall⟩ | ⟨conn₁, hcall, hgoes⟩
  · exact absurd hf (not_fatal_ok _)
  · cases he
  · exact (connRetransmit_accounts hwf.inv hcall (.inl ⟨_, rfl⟩)).2 pkt rfl
  · obtain ⟨hinv, hstrms, -⟩ := connRetransmit_settled hwf.inv hcall
    have hkeyed : StrmsKeyed conn₁ := hwf.keyed.of_eq hstrms
    exact (hgoes.accounts hinv hkeyed (.inl ⟨_, rfl⟩)).2 pkt rfl

theorem ngtcp2ConnWriteAckPkt_kept (hwf : WellFormed conn)
    (h : ngtcp2ConnWriteAckPkt conn destlen ts = (.ok (some pkt), conn')) : Kept conn' pkt := by
  rcases ngtcp2ConnWriteAckPkt_cases h with hf | ⟨he, -⟩ | ⟨-, hcall⟩ | ⟨conn₁, -, hw⟩
  · exact absurd hf (not_fatal_ok _)
  · cases he
  · exact (connRetransmit_accounts hwf.inv hcall (.inl ⟨_, rfl⟩)).2 pkt rfl
  · exact hw.accounts.2 pkt rfl

/-- The frame of a stream packet is held by the packet's entry. -/
theorem trackStreamPkt_held (conn : Conn) (hd : PktHd) (strm : Strm) (fr : StreamFrame)
    (ts pktlen : Nat) :
    (held (chargeStream (trackStreamPkt conn hd fr ts pktlen) strm fr)).Perm
      (.stream fr :: held conn) := by
  show (held (trackStreamPkt conn hd fr ts pktlen)).Perm _
  unfold trackStreamPkt
  split
  · show (conn.frq ++ frames (conn.rtb.head ++ (conn.earlyRtb ++ [_]))).Perm _
    rw [← List.append_assoc conn.rtb.head, frames_append, ← List.append_assoc]
    exact List.perm_append_singleton _ _
  · show (conn.frq ++ frames ((_ :: conn.rtb.head) ++ conn.earlyRtb)).Perm _
    rw [List.cons_append, frames_cons]
    exact List.perm_middle

theorem closePkt_frames {fr : Frame}
    (h : (if conn.lastTxPktNum = uint64Max then (.error .pktNumExhausted, conn)
      else if conn.state = .postHandshake then
        (connWriteSingleFramePkt conn destlen fr).andThen fun pkt conn =>
        (.ok pkt, conn.setState .closing)
      else (.error .invalidState, conn)) = ((.ok pkt, conn') : Result Pkt)) :
    pkt.frames = [fr] := by
  split at h
  · cases h
  split at h
  · obtain ⟨pkt', conn₁, hw, h⟩ := andThen_eq_ok h
    obtain ⟨he, -⟩ := Prod.mk.inj h
    obtain rfl := Except.ok.inj he
    rcases connWriteSingleFramePkt_cases hw with hf | ⟨he, -⟩ | ⟨_, he, -, hframes, -⟩
    · exact absurd hf (not_fatal_ok _)
    · cases he
    · obtain rfl := Except.ok.inj he
      exact hframes
  · cases h

/-- What is sent is held until it is acknowledged, but for ACK and PADDING frames and for the
frame that closes the connection. -/
theorem Step.emits_held (hwf : WellFormed conn) (hstep : Step ops conn op conn') {fr : Frame}
    (hfr : fr ∈ op.emits conn) : fr.untracked = true ∨ fr.isClose = true ∨ fr ∈ held conn' := by
  obtain ⟨rv, hrun, -⟩ := hstep
  unfold Op.emits at hfr
  cases hpkt : op.pkt conn with
  | none =>
    rw [hpkt] at hfr
    cases hfr
  | some pkt =>
  rw [hpkt] at hfr
  have hfr : fr ∈ pkt.frames := hfr
  have hkept : Kept conn' pkt → fr.untracked = true ∨ fr.isClose = true ∨ fr ∈ held conn' :=
    fun hk => (hk.held hfr).imp_right .inr
  cases op with
  | writeStream destlen streamId fin data ts =>
    obtain ⟨x, hx, -⟩ := void_cases hrun
    rw [Op.pkt, hx] at hpkt
    rcases ngtcp2ConnWriteStream_cases hx with hf | ⟨e, he, -⟩ | ⟨pkt, m, strm, fr', conn₁, he, -,
      hframes, -, rfl⟩
    · obtain ⟨e, rfl, -⟩ := hf
      cases hpkt
    · rw [he] at hpkt
      cases hpkt
    · rw [he] at hpkt
      obtain rfl := Option.some.inj hpkt
      rw [hframes] at hfr
      obtain rfl := List.mem_singleton.mp hfr
      exact .inr (.inr ((trackStreamPkt_held ..).symm.subset List.mem_cons_self))
  | writePkt destlen ts =>
    obtain ⟨x, hx, -⟩ := void_cases hrun
    have hok := toOption_join hpkt
    rw [hx] at hok
    obtain rfl : x = .ok (some pkt) := hok
    exact hkept (ngtcp2ConnWritePkt_kept hwf hx)
  | writeAckPkt destlen ts =>
    obtain ⟨x, hx, -⟩ := void_cases hrun
    have hok := toOption_join hpkt
    rw [hx] at hok
    obtain rfl : x = .ok (some pkt) := hok
    exact hkept (ngtcp2ConnWriteAckPkt_kept hwf hx)
  | writeConnectionClose destlen errorCode =>
    obtain ⟨x, hx, -⟩ := void_cases hrun
    have hok := toOption_some hpkt
    rw [hx] at hok
    obtain rfl : x = .ok pkt := hok
    rw [closePkt_frames hx] at hfr
    obtain rfl := List.mem_singleton.mp hfr
    exact .inr (.inl rfl)
  | writeApplicationClose destlen appErrorCode =>
    obtain ⟨x, hx, -⟩ := void_cases hrun
    have hok := toOption_some hpkt
    rw [hx] at hok
    obtain rfl : x = .ok pkt := hok
    unfold ngtcp2ConnWriteApplicationClose at hx
    split at hx
    · cases hx
    rw [closePkt_frames hx] at hfr
    obtain rfl := List.mem_singleton.mp hfr
    exact .inr (.inl rfl)
  | _ => cases hpkt

/-- Steps that are allowed make a run. -/
theorem exchange_allowed {ok : Bool → Conn → Op → Prop} {allowed : Conn → Op → Bool}
    {net : Network.Net Conn Frame} {ls : List (Bool × Op)}
    (hok : ∀ side conn op, allowed conn op = true → ok side conn op)
    (h : Runs.allowed exchangeStep (fun _ => exchangeAllows allowed) [] net ls = true) :
    Network.Run (fun side => endpoint (ok side)) net ls (ls.foldl exchangeStep net) := by
  refine Runs.Run.of_allowed (fun ls net l hall => ?_) h
  unfold exchangeAllows at hall
  simp only [Bool.and_eq_true, List.all_eq_true, decide_eq_true_eq] at hall
  obtain ⟨⟨hsurvives, hallowed⟩, hknown⟩ := hall
  exact .move l.1 ⟨⟨_, rfl, hsurvives⟩, hok _ _ _ hallowed⟩ hknown

end

end Ngtcp2
