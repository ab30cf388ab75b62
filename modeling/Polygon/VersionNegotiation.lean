import Polygon.ConnRecvPkt

/-!
# Version Negotiation

The writer of Version Negotiation packets and what a client tells its application when
it receives one. The versions are decoded into an array of 16 places or, when they are
more, into allocated memory; the callback is given the array in both cases.
-/
namespace Ngtcp2

/-! ## The packet -/

/-- `ngtcp2_pkt_write_version_negotiation`: the bytes it writes. -/
def pktWriteVersionNegotiation (destlen : Nat) (unusedRandom : UInt8) (connId : UInt64)
    (sv : List UInt32) :
    Except Err (List UInt8) :=
  let len := 1 + 8 + 4 + sv.length * 4
  if destlen < len then .error .noBuf
  else
    .ok (UInt8.ofNat (0x80 ||| unusedRandom.toNat) :: putUint64be connId.toNat ++ putUint32be 0 ++
      sv.flatMap fun v => putUint32be v.toNat)

/-- `ngtcp2_pkt_decode_version_negotiation`: the values it stores. Its caller has checked that the
length is a multiple of 4. -/
def pktDecodeVersionNegotiation : List UInt8 → List UInt32
  | a :: b :: c :: d :: payload =>
    UInt32.ofNat (getUint32 [a, b, c, d]) :: pktDecodeVersionNegotiation payload
  | _ => []

/-- The places of the array `sv` of `conn_on_version_negotiation`. -/
def maxSv : Nat := 16

/-- The `nsv` places from `sv` on when `conn_on_version_negotiation` makes its call; `stack` is what
the memory from `sv` on held before. The values are decoded into `sv` only if they fit. -/
def versionNegotiationSv (stack : Nat → UInt32) (payload : List UInt8) : List UInt32 :=
  let nsv := payload.length / 4
  let decoded := pktDecodeVersionNegotiation payload
  let sv := if maxSv * 4 < payload.length then stack else fun i => decoded.getD i (stack i)
  (List.range nsv).map sv

/-- A client whose callback `recv_version_negotiation` is given the versions as
`conn_on_version_negotiation` does. -/
def RxConn.listening (c : RxConn) (stack : Nat → UInt32)
    (recv : List Event → PktHd → List UInt32 → Bool) : RxConn :=
  { c with rx := { c.rx with
      recvVersionNegotiation := fun log hd payload =>
        recv log hd (versionNegotiationSv stack payload) } }

/-! ## What is decoded -/

/-- What was written is read back. -/
theorem pktDecodeVersionNegotiation_put (vs : List UInt32) :
    pktDecodeVersionNegotiation (vs.flatMap fun v => putUint32be v.toNat) = vs := by
  induction vs with
  | nil => rfl
  | cons v vs ih =>
    have hget : getUint32 (putUint32be v.toNat) = v.toNat := by
      have htake : (putUint32be v.toNat).take 4 = putUint32be v.toNat := rfl
      rw [getUint32, htake]
      exact BigEndian.get_put_of_lt v.toNat_lt
    rw [List.flatMap_cons]
    change UInt32.ofNat (getUint32 (putUint32be v.toNat)) ::
      pktDecodeVersionNegotiation (vs.flatMap fun v => putUint32be v.toNat) = _
    rw [hget, ih, UInt32.ofNat_toNat]

/-- Up to 16 versions the callback finds what was written. -/
theorem versionNegotiationSv_small (stack : Nat → UInt32) {vs : List UInt32}
    (h : vs.length ≤ maxSv) :
    versionNegotiationSv stack (vs.flatMap fun v => putUint32be v.toNat) = vs := by
  unfold versionNegotiationSv
  rw [pktDecodeVersionNegotiation_put, flatMap_putUint32be_length,
    Nat.mul_div_cancel _ (by decide : 0 < 4)]
  dsimp only
  rw [if_neg (Nat.not_lt.mpr (Nat.mul_le_mul_right 4 h))]
  apply List.ext_getElem
  · rw [List.length_map, List.length_range]
  · intro i h₁ h₂
    rw [List.getElem_map, List.getElem_range, List.getD_eq_getElem _ _ h₂]

/-- Behind 16 versions it finds what the memory held before. -/
theorem versionNegotiationSv_large (stack : Nat → UInt32) {vs : List UInt32}
    (h : maxSv < vs.length) :
    versionNegotiationSv stack (vs.flatMap fun v => putUint32be v.toNat) =
    (List.range vs.length).map stack := by
  unfold versionNegotiationSv
  rw [flatMap_putUint32be_length, Nat.mul_div_cancel _ (by decide : 0 < 4)]
  dsimp only
  rw [if_pos (Nat.mul_lt_mul_of_pos_right h (by decide))]

/-! ## What the client receives -/

/-- The header that the client decodes. -/
def versionNegotiationHd (connId : UInt64) : PktHd :=
  { longForm := true, type := .versionNegotiation, connId := connId.toNat, pktNum := 0, version := 0 }

section
variable {c : RxConn} {connId : UInt64} {unusedRandom : UInt8} {vs : List UInt32} {destlen : Nat} {pkt : List UInt8}

theorem firstByte_bits : ∀ b : UInt8, (UInt8.ofNat (0x80 ||| b.toNat)).toNat &&& 0x80 = 0x80 := by
  intro b
  have hle : ∀ n < 256, (UInt8.ofNat (0x80 ||| n)).toNat &&& 0x80 = 0x80 := by decide +kernel
  exact hle b.toNat b.toNat_lt

/-- The packet has a long header, whose type may be any, and its versions follow the version field 0. -/
theorem pktWriteVersionNegotiation_decode (hvs : vs ≠ [])
    (hwrite : pktWriteVersionNegotiation destlen unusedRandom connId vs = .ok pkt) :
    longHeader pkt = true ∧ pkt.drop 13 = (vs.flatMap fun v => putUint32be v.toNat) ∧
      ∃ hd, pktDecodeHdLong pkt = .ok (17, hd) ∧ hd.version = 0 ∧
        { hd with type := .versionNegotiation, pktNum := 0 } = versionNegotiationHd connId := by
  unfold pktWriteVersionNegotiation at hwrite
  dsimp only at hwrite
  split at hwrite
  · cases hwrite
  obtain rfl := Except.ok.inj hwrite
  generalize hb : UInt8.ofNat (0x80 ||| unusedRandom.toNat) = b
  generalize hsv : (vs.flatMap fun v => putUint32be v.toNat) = sv
  have hform : b.toNat &&& 0x80 = 0x80 := hb ▸ firstByte_bits unusedRandom
  have h8 : (putUint64be connId.toNat).length = 8 := BigEndian.put_length _ _
  have h4 : (putUint32be 0).length = 4 := BigEndian.put_length _ _
  have hlen : ¬(b :: putUint64be connId.toNat ++ putUint32be 0 ++ sv).length < longHeaderlen := by
    have hpos := List.length_pos_iff.mpr hvs
    have hsvlen := flatMap_putUint32be_length vs
    rw [hsv] at hsvlen
    rw [List.length_append, List.length_append, List.length_cons, h8, h4, hsvlen, longHeaderlen]
    omega
  have hid : getUint64 ((b :: putUint64be connId.toNat ++ putUint32be 0 ++ sv).drop 1) =
    connId.toNat := by
    rw [List.cons_append, List.cons_append, List.drop_one, List.tail_cons, List.append_assoc,
      getUint64,
      List.take_left' h8]
    exact BigEndian.get_put_of_lt connId.toNat_lt
  have hversion : getUint32 ((b :: putUint64be connId.toNat ++ putUint32be 0 ++ sv).drop 9) =
    0 := by
    rw [List.append_assoc, List.drop_left' (by rw [List.length_cons, h8]), getUint32,
      List.take_left' h4]
    exact BigEndian.get_put_of_lt (by decide)
  refine ⟨?_, ?_, ?_⟩
  · simp [longHeader, hform]
  · exact List.drop_left' (by rw [List.length_append, List.length_cons, h8, h4])
  · unfold pktDecodeHdLong
    dsimp only
    rw [if_neg hlen, hversion, hid]
    rw [List.cons_append, List.cons_append, List.headD_cons, if_neg (by rw [hform]; decide)]
    split
    · exact ⟨_, rfl, rfl, rfl⟩
    · exact ⟨_, rfl, rfl, rfl⟩

/-- A Version Negotiation packet for the client goes to the callback. -/
theorem clientAcceptsPkt_versionNegotiation {hd : PktHd} {payload : List UInt8}
    (htype : hd.type = .versionNegotiation)
    (hid : c.conn.clientConnId = hd.connId) (hlen : payload.length % 4 = 0) :
    clientAcceptsPkt c hd payload = (some (if c.rx.recvVersionNegotiation c.conn.log hd payload
      then .error .versionNegotiation else .error .callbackFailure), c) := by
  unfold clientAcceptsPkt
  rw [htype]
  dsimp only
  rw [if_neg (fun hc => hc hid), if_neg (fun hc => hc hlen)]
  cases c.rx.recvVersionNegotiation c.conn.log hd payload <;> rfl

/-- The client hands the packet to its callback, whose value it reports. -/
theorem connRecvHandshakePkt_versionNegotiation (ts : Nat) (hvs : vs ≠ [])
    (hwrite : pktWriteVersionNegotiation destlen unusedRandom connId vs = .ok pkt)
    (hclient : c.conn.server = false)
    (hid : c.conn.clientConnId = connId.toNat)
    (hpkt : c.rx.recvPkt c.conn.log (versionNegotiationHd connId) = true) :
    connRecvHandshakePkt c pkt ts =
    (if c.rx.recvVersionNegotiation c.conn.log (versionNegotiationHd connId)
      (vs.flatMap fun v => putUint32be v.toNat) then .error .versionNegotiation else .error .callbackFailure, c) := by
  obtain ⟨hlong, hdrop, hd, hdec, hversion, hhd⟩ := pktWriteVersionNegotiation_decode hvs hwrite
  unfold connRecvHandshakePkt
  rw [hlong, hdec]
  dsimp only
  rw [if_neg (by decide), if_neg (by rw [hclient]; simp)]
  unfold connRecvLongHandshakePkt
  rw [if_neg (fun hc => hc.1 hversion), if_pos hversion, if_pos hversion, hhd]
  dsimp only
  rw [hdrop, hpkt, hclient]
  have hlen : (vs.flatMap fun v => putUint32be v.toNat).length % 4 = 0 := by
    rw [flatMap_putUint32be_length, Nat.mul_mod_left]
  have haccepts := clientAcceptsPkt_versionNegotiation
    (show (versionNegotiationHd connId).type = _ from rfl) hid hlen
  rw [haccepts]
  rfl

theorem ngtcp2ConnRecv_versionNegotiation (ts : Nat) (hvs : vs ≠ [])
    (hwrite : pktWriteVersionNegotiation destlen unusedRandom connId vs = .ok pkt)
    (hclient : c.conn.server = false)
    (hstate : c.conn.state = .clientWaitHandshake ∨ c.conn.state = .clientTlsHandshakeFailed)
    (hid : c.conn.clientConnId = connId.toNat)
    (hpkt : c.rx.recvPkt c.conn.log (versionNegotiationHd connId) = true) :
    (ngtcp2ConnRecv c pkt ts).1 = if c.rx.recvVersionNegotiation c.conn.log
    (versionNegotiationHd connId)
      (vs.flatMap fun v => putUint32be v.toNat) then .error .versionNegotiation else .error .callbackFailure := by
  have hrecv := connRecvHandshakePkt_versionNegotiation ts hvs hwrite hclient hid hpkt
  have hne : pkt ≠ [] := by
    rintro rfl
    have := (pktWriteVersionNegotiation_decode hvs hwrite).1
    cases this
  unfold ngtcp2ConnRecv
  rw [if_neg hne]
  rcases hstate with hstate | hstate
  · rw [hstate]
    dsimp only
    unfold connRecvOne
    rw [hstate]
    dsimp only
    rw [hrecv]
    split <;> rfl
  · rw [hstate]
    dsimp only
    unfold connRecvOne
    rw [hstate]
    dsimp only
    rw [hrecv]

/-- What the application answers to the list it is given. -/
theorem ngtcp2ConnRecv_listening (ts : Nat) (hvs : vs ≠ [])
    (hwrite : pktWriteVersionNegotiation destlen unusedRandom connId vs = .ok pkt)
    (hclient : c.conn.server = false)
    (hstate : c.conn.state = .clientWaitHandshake ∨ c.conn.state = .clientTlsHandshakeFailed)
    (hid : c.conn.clientConnId = connId.toNat)
    (hpkt : c.rx.recvPkt c.conn.log (versionNegotiationHd connId) = true) (stack : Nat → UInt32)
    (recv : List Event → PktHd → List UInt32 → Bool) :
    (ngtcp2ConnRecv (c.listening stack recv) pkt ts).1 =
      if recv c.conn.log (versionNegotiationHd connId)
        (versionNegotiationSv stack (vs.flatMap fun v => putUint32be v.toNat)) then .error .versionNegotiation
      else .error .callbackFailure :=
  ngtcp2ConnRecv_versionNegotiation
    (c := c.listening stack recv) ts hvs hwrite hclient hstate hid hpkt

/-- The callback of a client in its handshake is given the versions that were written, whatever the
memory held and whatever it answers, if and only if they are at most 16. -/
theorem versionNegotiation_agreement {ts : Nat} (hvs : vs ≠ [])
    (hwrite : pktWriteVersionNegotiation destlen unusedRandom connId vs = .ok pkt)
    (hclient : c.conn.server = false)
    (hstate : c.conn.state = .clientWaitHandshake ∨ c.conn.state = .clientTlsHandshakeFailed)
    (hid : c.conn.clientConnId = connId.toNat)
    (hpkt : c.rx.recvPkt c.conn.log (versionNegotiationHd connId) = true) :
    (∀ stack recv, (ngtcp2ConnRecv (c.listening stack recv) pkt ts).1 =
      if recv c.conn.log (versionNegotiationHd connId) vs then .error .versionNegotiation
      else .error .callbackFailure) ↔ vs.length ≤ maxSv := by
  have hgiven := ngtcp2ConnRecv_listening ts hvs hwrite hclient hstate hid hpkt
  constructor
  · intro h
    by_contra hlarge
    -- Memory that differs from the first version gives the callback a different list.
    obtain ⟨v, rest, rfl⟩ := List.exists_cons_of_ne_nil hvs
    have hwrong := (hgiven (fun _ => v + 1) fun _ _ sv => sv == v :: rest).symm.trans (h _ _)
    rw [versionNegotiationSv_large _ (Nat.lt_of_not_le hlarge)] at hwrong
    have hne : ((List.range (v :: rest).length).map fun _ => v + 1) ≠ v :: rest := by
      intro hc
      rw [List.length_cons, List.range_succ_eq_map, List.map_cons] at hc
      exact absurd (List.cons.inj hc).1 (by simp)
    rw [beq_self_eq_true, if_pos rfl, beq_eq_false_iff_ne.mpr hne,
      if_neg Bool.false_ne_true] at hwrong
    cases hwrong
  · intro hle stack recv
    rw [hgiven, versionNegotiationSv_small stack hle]

end

/-- A client that has sent its first packet; its connection ID is 1. -/
def waitingClient : RxConn :=
  { conn := (ngtcp2ConnClientNew (fun _ => 0) 1 1 quietCallbacks ⟨100, 1000, 40, 40, 3⟩).setState .clientWaitHandshake
    rx := { recvPkt := fun _ _ => true, recvFrame := fun _ _ _ => true, recvClientInitial := fun _ _ => true
            recvVersionNegotiation := fun _ _ _ => true, hsDecrypt :=
              fun _ _ _ _ _ => .error .tlsDecrypt
            decrypt := fun _ _ _ _ _ => .error .tlsDecrypt, tlsCalls := fun _ => [], isTls := by
              simp }
    omitConnectionId := false, statelessResetToken := List.replicate 16 0, buffedRxPpkts := [] }

/-- The packet with the versions 5 and 9. -/
def twoVersions : List UInt8 := [0x85, 0, 0, 0, 0, 0, 0, 0, 1, 0, 0, 0, 0, 0, 0, 0, 5, 0, 0, 0, 9]

/-- Two versions arrive. -/
theorem versionNegotiation_agreement_two :
    (ngtcp2ConnRecv (waitingClient.listening (fun _ => 0) fun _ _ sv => sv == [5, 9]) twoVersions 0).1 =
      .error .versionNegotiation :=
  have hwrite : pktWriteVersionNegotiation 100 5 1 [5, 9] = .ok twoVersions := by decide
  (versionNegotiation_agreement (c := waitingClient) (by simp) hwrite rfl (.inl rfl) rfl rfl).mpr
  (by decide)
    (fun _ => 0) fun _ _ sv => sv == [5, 9]

/-- Of 17 versions the callback is given none. -/
theorem versionNegotiation_seventeen :
    ¬∀ (c : RxConn) (connId : UInt64) (unusedRandom : UInt8) (vs : List UInt32)
    (destlen : Nat) (pkt : List UInt8) (stack : Nat → UInt32)
    (recv : List Event → PktHd → List UInt32 → Bool),
    vs ≠ [] → pktWriteVersionNegotiation destlen unusedRandom connId vs = .ok pkt →
    c.conn.server = false →
    c.conn.state = .clientWaitHandshake → c.conn.clientConnId = connId.toNat →
    c.rx.recvPkt c.conn.log (versionNegotiationHd connId) = true →
    (ngtcp2ConnRecv (c.listening stack recv) pkt 0).1 =
      if recv c.conn.log (versionNegotiationHd connId) vs then .error .versionNegotiation
      else .error .callbackFailure := by
  intro hclaim
  have hvs : List.replicate 17 (5 : UInt32) ≠ [] := by simp
  obtain ⟨pkt, hwrite⟩ : ∃ pkt, pktWriteVersionNegotiation 100 5 1 (List.replicate 17 5) =
    .ok pkt := ⟨_, rfl⟩
  have hsame := hclaim waitingClient 1 5 (List.replicate 17 5) 100 pkt (fun _ => 0)
    (fun _ _ sv => sv == List.replicate 17 5) hvs hwrite rfl rfl rfl rfl
  have hgiven := ngtcp2ConnRecv_listening (c := waitingClient) 0 hvs hwrite rfl (.inl rfl) rfl rfl
    (fun _ => 0)
    fun _ _ sv => sv == List.replicate 17 5
  rw [hgiven, versionNegotiationSv_large _ (by decide)] at hsame
  exact absurd hsame (by decide)

end Ngtcp2
