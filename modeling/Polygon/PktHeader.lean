import Mathlib.Data.Nat.Bitwise
import Mathlib.Data.Nat.Dist
import Polygon.Conv
import Polygon.ConnWrite

/-!
# Short headers and packet numbers

The short header codec of `ngtcp2_pkt.c` and the expansion of a truncated packet
number. The sender cuts the number to the width that its distance from the
largest acknowledged one needs; the receiver takes the number next to its
largest received one.
-/
namespace Ngtcp2

/-- The bytes the packet number takes in a short header of a type. -/
def pktNumLen : PktType → Option Nat
  | .pkt01 => some 1
  | .pkt02 => some 2
  | .pkt03 => some 4
  | _ => none

/-- The value of a short `ngtcp2_pkt_type`. -/
def shortTypeCode : PktType → Nat
  | .pkt01 => 0x1f
  | .pkt02 => 0x1e
  | _ => 0x1d

/-- The short type of the lower bits of the first byte. -/
def shortTypeOf (code : Nat) : Option PktType :=
  if code = 0x1f then some .pkt01
  else if code = 0x1e then some .pkt02
  else if code = 0x1d then some .pkt03
  else none

/-- The first byte of a short header. -/
def shortFirstByte (type : PktType) (omitConnId keyPhase : Bool) : Nat :=
  let b := shortTypeCode type
  let b := if omitConnId then b ||| 0x40 else b
  if keyPhase then b ||| 0x20 else b

/-- `ngtcp2_pkt_encode_hd_short`: the bytes it writes. -/
def pktEncodeHdShort (outlen : Nat) (hd : PktHd) : Except Err (List UInt8) :=
  let len := if hd.omitConnId then 1 else 1 + 8
  match pktNumLen hd.type with
  | none => .error .invalidArgument
  | some n =>
    if outlen < len + n then .error .noBuf
    else
      .ok (UInt8.ofNat (shortFirstByte hd.type hd.omitConnId hd.keyPhase) ::
        (if hd.omitConnId then [] else putUint64be hd.connId) ++ BigEndian.put n hd.pktNum)

/-- `ngtcp2_pkt_decode_hd_short`: the bytes it read and the header. -/
def pktDecodeHdShort (pkt : List UInt8) : Except Err (Nat × PktHd) :=
  let b := (pkt.headD 0).toNat
  if b &&& 0x80 ≠ 0 then .error .invalidArgument
  else
    let omitConnId := decide (b &&& 0x40 ≠ 0)
    let keyPhase := decide (b &&& 0x20 ≠ 0)
    let len := if omitConnId then 1 else 1 + 8
    match shortTypeOf (b &&& 0x1f) with
    | none => .error .unknownPktType
    | some type =>
      let n := (pktNumLen type).getD 0
      if pkt.length < len + n then .error .invalidArgument
      else
        let p := pkt.drop 1
        let connId := if omitConnId then 0 else getUint64 p
        let pktNum := BigEndian.get ((pkt.drop len).take n)
        .ok (len + n, { longForm := false, omitConnId, keyPhase, type, connId, pktNum, version := 0 })

/-- `ngtcp2_pkt_adjust_pkt_num`. -/
def pktAdjustPktNum (maxPktNum pktNum n : Nat) : Nat :=
  let k := if maxPktNum = uint64Max then maxPktNum else maxPktNum + 1
  let u := k.ldiff (2 ^ n - 1)
  let a := u ||| pktNum
  let b := addU64 u (2 ^ n) ||| pktNum
  let a1 := if k < a then a - k else k - a
  let b1 := if k < b then b - k else k - b
  if a1 < b1 then a else b

/-- The `pkt_num_bits` of `conn_recv_pkt`. -/
def pktNumBits (hd : PktHd) : Nat :=
  if hd.longForm then 32
  else
    match hd.type with
    | .pkt01 => 8
    | .pkt02 => 16
    | _ => 32

/-! ## The header codec -/

/-- One of the three short types. -/
def PktType.isShort (type : PktType) : Prop := type = .pkt01 ∨ type = .pkt02 ∨ type = .pkt03

/-- The first byte holds the type and the two flags, and is not that of a long header. -/
theorem shortFirstByte_bits {type : PktType} (h : type.isShort) (omitConnId keyPhase : Bool) :
    let b := shortFirstByte type omitConnId keyPhase
    b < 256 ∧ b &&& 0x80 = 0 ∧ decide (b &&& 0x40 ≠ 0) = omitConnId ∧
      decide (b &&& 0x20 ≠ 0) = keyPhase ∧ shortTypeOf (b &&& 0x1f) = some type := by
  rcases h with rfl | rfl | rfl <;> cases omitConnId <;> cases keyPhase <;> decide

/-- The types that have a packet number width are the short ones, and the width is that of
`pkt_num_bits`. -/
theorem isShort_of_pktNumLen {type : PktType} {n : Nat} (h : pktNumLen type = some n) :
    type.isShort ∧ 0 < n ∧ n ≤ 4 ∧ ∀ hd : PktHd, hd.longForm = false → hd.type = type →
      pktNumBits hd = 8 * n := by
  cases type <;> simp [pktNumLen] at h <;> subst h
  all_goals
    refine ⟨by unfold PktType.isShort; decide, by decide, by decide, ?_⟩
    intro hd hlong htype
    simp [pktNumBits, hlong, htype]

/-- The length the encoder needs is the one `ngtcp2_ppe` asks for. -/
theorem hdLen_short {hd : PktHd} {n : Nat} (hlong : hd.longForm = false)
    (hn : pktNumLen hd.type = some n) :
    hdLen hd = .ok ((if hd.omitConnId then 1 else 1 + 8) + n) := by
  unfold hdLen
  cases htype : hd.type <;> simp [htype, pktNumLen] at hn <;> simp [hlong, hn]

theorem pktEncodeHdShort_fits {hd : PktHd} {n outlen : Nat} (hn : pktNumLen hd.type = some n)
    (hlen : (if hd.omitConnId then 1 else 1 + 8) + n ≤ outlen) :
    ∃ bs, pktEncodeHdShort outlen hd = .ok bs := by
  unfold pktEncodeHdShort
  rw [hn]
  exact ⟨_, if_neg (Nat.not_lt.mpr hlen)⟩

/-- What a header of width `n` looks like to its receiver. -/
def PktHd.shortSeen (hd : PktHd) (n : Nat) : PktHd :=
  { hd with
    longForm := false
    connId := if hd.omitConnId then 0 else hd.connId
    pktNum := hd.pktNum % 256 ^ n
    version := 0 }

/-- A short header is read back, its packet number cut to the width of its type. -/
theorem pktDecodeHdShort_encode {hd : PktHd} {outlen n : Nat} {bs : List UInt8}
    (h : hd.type.isShort)
    (hconnId : hd.connId < 2 ^ 64) (hn : pktNumLen hd.type = some n)
    (henc : pktEncodeHdShort outlen hd = .ok bs) (rest : List UInt8) :
    pktDecodeHdShort (bs ++ rest) = .ok (bs.length, hd.shortSeen n) := by
  unfold pktEncodeHdShort at henc
  simp only [hn] at henc
  by_cases hbuf : outlen < (if hd.omitConnId then 1 else 1 + 8) + n
  · rw [if_pos hbuf] at henc
    cases henc
  rw [if_neg hbuf] at henc
  obtain rfl := Except.ok.inj henc
  obtain ⟨hlt, hlong, homit, hkey, htype⟩ := shortFirstByte_bits h hd.omitConnId hd.keyPhase
  have hb : (UInt8.ofNat (shortFirstByte hd.type hd.omitConnId hd.keyPhase)).toNat =
      shortFirstByte hd.type hd.omitConnId hd.keyPhase := by
    rw [UInt8.toNat_ofNat']
    omega
  unfold pktDecodeHdShort
  simp only [List.cons_append, List.headD_cons, hb, hlong, homit, hkey, htype, hn, PktHd.shortSeen]
  cases ho : hd.omitConnId with
  | true =>
    simp [BigEndian.get_put, Nat.add_comm]
  | false =>
    have hid : getUint64 (putUint64be hd.connId ++ (BigEndian.put n hd.pktNum ++ rest)) =
      hd.connId :=
      getUint64_put hconnId _
    have hlen : (putUint64be hd.connId).length = 8 := BigEndian.put_length 8 _
    have hdrop : (putUint64be hd.connId ++ (BigEndian.put n hd.pktNum ++ rest)).drop 8 =
        BigEndian.put n hd.pktNum ++ rest := List.drop_left' hlen
    have hfits : ¬ 8 + (n + rest.length) + 1 < 1 + 8 + n := by omega
    simp [BigEndian.get_put, hid, hlen, hdrop, hfits]
    omega

/-! ## Packet numbers -/

theorem ldiff_two_pow_sub_one (k n : Nat) : k.ldiff (2 ^ n - 1) = 2 ^ n * (k / 2 ^ n) := by
  apply Nat.eq_of_testBit_eq
  intro i
  rw [Nat.testBit_ldiff, Nat.testBit_two_pow_sub_one, Nat.testBit_two_pow_mul,
    Nat.testBit_div_two_pow]
  by_cases hi : i < n
  · simp [hi]
  · have hle : n ≤ i := Nat.le_of_not_lt hi
    simp [hi, hle, Nat.sub_add_cancel hle]

/-- The number is the one in the window of the next expected packet, or the one above. -/
theorem pktAdjustPktNum_window {maxPktNum pktNum n : Nat}
    (hmax : maxPktNum + 1 + 2 ^ n < 2 ^ 64) (hpkt : pktNum < 2 ^ n) :
    pktAdjustPktNum maxPktNum pktNum n =
      let u := 2 ^ n * ((maxPktNum + 1) / 2 ^ n)
      if Nat.dist (maxPktNum + 1) (u + pktNum) < Nat.dist (maxPktNum + 1) (u + 2 ^ n + pktNum) then
        u + pktNum
      else u + 2 ^ n + pktNum := by
  have hk := Nat.div_add_mod (maxPktNum + 1) (2 ^ n)
  have hnext : (if maxPktNum = uint64Max then maxPktNum else maxPktNum + 1) = maxPktNum + 1 := by
    unfold uint64Max
    exact if_neg (by omega)
  have hwrap : addU64 (2 ^ n * ((maxPktNum + 1) / 2 ^ n)) (2 ^ n) =
      2 ^ n * ((maxPktNum + 1) / 2 ^ n + 1) := by
    rw [addU64_of_lt (by omega), Nat.mul_add, Nat.mul_one]
  have hdist : ∀ k a : Nat, (if k < a then a - k else k - a) = Nat.dist k a := by
    intro k a
    unfold Nat.dist
    split <;> omega
  unfold pktAdjustPktNum
  dsimp only
  rw [hnext, ldiff_two_pow_sub_one, hwrap, ← Nat.two_pow_add_eq_or_of_lt hpkt,
    ← Nat.two_pow_add_eq_or_of_lt hpkt, hdist, hdist, Nat.mul_add, Nat.mul_one]

/-- Next to the largest received number the truncated number is expanded to what was sent. -/
theorem pktAdjustPktNum_eq {maxPktNum pn n : Nat} (hn : 0 < n) (hgt : maxPktNum < pn)
    (hnear : pn - maxPktNum ≤ 2 ^ (n - 1)) (hmax : pn + 2 ^ n < 2 ^ 64) :
    pktAdjustPktNum maxPktNum (pn % 2 ^ n) n = pn := by
  have hhalf : 2 ^ n = 2 * 2 ^ (n - 1) := by
    rw [← pow_succ']
    congr 1
    omega
  have htrunc : pn % 2 ^ n < 2 ^ n := Nat.mod_lt _ (Nat.two_pow_pos n)
  have hpn := Nat.div_add_mod pn (2 ^ n)
  have hk := Nat.div_add_mod (maxPktNum + 1) (2 ^ n)
  have hrem : (maxPktNum + 1) % 2 ^ n < 2 ^ n := Nat.mod_lt _ (Nat.two_pow_pos n)
  rw [pktAdjustPktNum_window (by omega) htrunc]
  unfold Nat.dist
  dsimp only
  -- the number lies in the window of the next expected one, or in the one above
  have hwindow : pn / 2 ^ n = (maxPktNum + 1) / 2 ^ n ∨
    pn / 2 ^ n = (maxPktNum + 1) / 2 ^ n + 1 := by
    have hle : (maxPktNum + 1) / 2 ^ n ≤ pn / 2 ^ n := Nat.div_le_div_right (by omega)
    have hlt : pn / 2 ^ n < (maxPktNum + 1) / 2 ^ n + 2 := by
      rw [Nat.div_lt_iff_lt_mul (Nat.two_pow_pos n), Nat.add_mul, Nat.mul_comm]
      omega
    omega
  rcases hwindow with hw | hw
  · rw [hw] at hpn
    generalize 2 ^ n * ((maxPktNum + 1) / 2 ^ n) = u at hpn hk ⊢
    rw [if_pos (by omega)]
    exact hpn
  · rw [hw, Nat.mul_add, Nat.mul_one] at hpn
    generalize 2 ^ n * ((maxPktNum + 1) / 2 ^ n) = u at hpn hk ⊢
    rw [if_neg (by omega)]
    exact hpn

/-- Of all numbers from `lo` on with the given rest, `x` is closest to `k`. -/
structure Closest (lo k rest m x : Nat) : Prop where
  congruent : x % m = rest % m
  from_lo : lo ≤ x
  closest : ∀ y, lo ≤ y → y % m = rest % m → Nat.dist k x ≤ Nat.dist k y

/-- The expanded number is the closest one from the window of the next expected packet on, and the
closest one of all unless the window below has a closer one. -/
theorem pktAdjustPktNum_closest {maxPktNum pktNum n : Nat} (hn : n = 8 ∨ n = 16 ∨ n = 32)
    (hmax : maxPktNum < 2 ^ 62) (hpkt : pktNum < 2 ^ n) :
    Closest (2 ^ n * ((maxPktNum + 1) / 2 ^ n)) (maxPktNum + 1) pktNum (2 ^ n)
        (pktAdjustPktNum maxPktNum pktNum n) ∧
      (Closest 0 (maxPktNum + 1) pktNum (2 ^ n) (pktAdjustPktNum maxPktNum pktNum n) ↔
        maxPktNum + 1 < 2 ^ n ∨ pktNum ≤ (maxPktNum + 1) % 2 ^ n + 2 ^ (n - 1)) := by
  have hle : 2 ^ n ≤ 2 ^ 32 := Nat.pow_le_pow_right (by decide) (by omega)
  have hhalf : 2 ^ n = 2 * 2 ^ (n - 1) := by
    rw [← pow_succ']
    congr 1
    omega
  have hk := Nat.div_add_mod (maxPktNum + 1) (2 ^ n)
  have hrem : (maxPktNum + 1) % 2 ^ n < 2 ^ n := Nat.mod_lt _ (Nat.two_pow_pos n)
  have hsmall : maxPktNum + 1 < 2 ^ n ↔ (maxPktNum + 1) / 2 ^ n = 0 := by
    rw [Nat.div_eq_zero_iff]
    omega
  rw [pktAdjustPktNum_window (by omega) hpkt, hsmall]
  dsimp only
  generalize (maxPktNum + 1) % 2 ^ n = r at hk hrem ⊢
  generalize (maxPktNum + 1) / 2 ^ n = q at hk ⊢
  generalize maxPktNum + 1 = k at hk ⊢
  generalize 2 ^ n = m at *
  generalize 2 ^ (n - 1) = h at *
  generalize hx : (if Nat.dist k (m * q + pktNum) < Nat.dist k (m * q + m + pktNum) then
    m * q + pktNum else m * q + m + pktNum) = x
  have hcongruent : x % m = pktNum % m := by
    rw [← hx]
    split
    · exact Nat.mul_add_mod ..
    · rw [← Nat.mul_succ]
      exact Nat.mul_add_mod ..
  -- a number with this rest is below the window, in it, or above
  have hwindow : ∀ y, y % m = pktNum % m → (q ≠ 0 ∧ y + m ≤ m * q + pktNum) ∨
      y = m * q + pktNum ∨ m * q + m + pktNum ≤ y := by
    intro y hy
    rw [Nat.mod_eq_of_lt hpkt] at hy
    have hdiv := Nat.div_add_mod y m
    rw [hy] at hdiv
    generalize y / m = j at hdiv
    rcases Nat.lt_trichotomy j q with hlt | rfl | hgt
    · have hbelow := Nat.mul_le_mul_left m hlt
      rw [Nat.mul_succ] at hbelow
      omega
    · exact .inr (.inl hdiv.symm)
    · have habove := Nat.mul_le_mul_left m hgt
      rw [Nat.mul_succ] at habove
      omega
  constructor
  · refine ⟨hcongruent, by rw [← hx]; split <;> omega, fun y hlo hy => ?_⟩
    have hcases := hwindow y hy
    unfold Nat.dist at *
    rw [← hx]
    split <;> omega
  constructor
  · intro hclosest
    by_contra hnot
    obtain ⟨hq, hfar⟩ := not_or.mp hnot
    -- the number of the window below is closer
    have hbelow : m * (q - 1) + m = m * q := by
      rw [← Nat.mul_succ, Nat.succ_eq_add_one, Nat.sub_add_cancel (Nat.pos_of_ne_zero hq)]
    have hcloser := hclosest.closest (m * (q - 1) + pktNum) (Nat.zero_le _) (Nat.mul_add_mod ..)
    rw [← hx] at hcloser
    unfold Nat.dist at hcloser
    split at hcloser <;> omega
  · intro hnear
    refine ⟨hcongruent, Nat.zero_le _, fun y _ hy => ?_⟩
    have hcases := hwindow y hy
    unfold Nat.dist at *
    rw [← hx]
    split <;> omega

/-- Packet 255 comes after packet 256. -/
theorem pktAdjustPktNum_reordered :
    pktAdjustPktNum 256 (255 % 2 ^ 8) 8 = 511 ∧
      ¬Closest 0 (256 + 1) (255 % 2 ^ 8) (2 ^ 8) (pktAdjustPktNum 256 (255 % 2 ^ 8) 8) := by
  have hval : pktAdjustPktNum 256 (255 % 2 ^ 8) 8 = 511 := by
    rw [pktAdjustPktNum_window (by decide) (by decide)]
    rfl
  refine ⟨hval, fun hclosest => ?_⟩
  have hcloser := hclosest.closest 255 (by decide) (by decide)
  rw [hval] at hcloser
  revert hcloser
  decide

theorem pktAdjustPktNum_closest_sixteen :
    Closest 0 (65535 + 1) 3 (2 ^ 16) (pktAdjustPktNum 65535 3 16) :=
  (pktAdjustPktNum_closest (.inr (.inl rfl)) (by decide) (by decide)).2.mpr (.inr (by decide))

/-- The type that `conn_select_pkt_type` takes is wide enough for the distance from the largest
acknowledged packet number. -/
theorem connSelectPktType_wide (conn : Conn) {pn : Nat} (hla : conn.rtb.largestAcked ≤ pn)
    (hmax : pn < 2 ^ 62) (hnear : pn - conn.rtb.largestAcked < 2 ^ 31) :
    ∃ n, pktNumLen (connSelectPktType conn pn) = some n ∧
      pn - conn.rtb.largestAcked < 2 ^ (8 * n - 1) := by
  have hsub : subU64 pn conn.rtb.largestAcked = pn - conn.rtb.largestAcked :=
    subU64_of_le hla (by omega)
  have hodd : ((pn - conn.rtb.largestAcked) * 2 + 1) % 2 ^ 64 =
      (pn - conn.rtb.largestAcked) * 2 + 1 := Nat.mod_eq_of_lt (by omega)
  have hsmall : ¬ uint64Max / 2 ≤ pn := by
    unfold uint64Max
    omega
  unfold connSelectPktType
  rw [if_neg hsmall]
  dsimp only
  rw [hsub, hodd]
  split_ifs with h₄ h₂
  · exact ⟨4, rfl, hnear⟩
  · exact ⟨2, rfl, by omega⟩
  · exact ⟨1, rfl, by omega⟩

/-- The header that `conn_select_pkt_type` gives to packet `pn`. -/
def selectedHd (conn : Conn) (omitConnId keyPhase : Bool) (connId version pn : Nat) : PktHd :=
  { longForm := false, omitConnId, keyPhase, type := connSelectPktType conn pn, connId, pktNum := pn, version }

/-- Sender and receiver agree on the packet number: cut by one and expanded by the other, it is
the number that was sent. -/
theorem pktNum_agreement (conn : Conn) (omitConnId keyPhase : Bool) (version : Nat)
    {maxRxPktNum pn connId : Nat} (hla : conn.rtb.largestAcked ≤ maxRxPktNum)
    (hgt : maxRxPktNum < pn)
    (hmax : pn < 2 ^ 62) (hnear : pn - conn.rtb.largestAcked < 2 ^ 31) (hconnId : connId < 2 ^ 64) :
    (∃ len, hdLen (selectedHd conn omitConnId keyPhase connId version pn) = .ok len ∧
      ∀ outlen, len ≤ outlen →
        ∃ bs, pktEncodeHdShort outlen (selectedHd conn omitConnId keyPhase connId version pn) =
        .ok bs) ∧
    ∀ outlen bs, pktEncodeHdShort outlen (selectedHd conn omitConnId keyPhase connId version pn) =
    .ok bs →
      ∀ rest, ∃ hd, pktDecodeHdShort (bs ++ rest) = .ok (bs.length, hd) ∧
        pktAdjustPktNum maxRxPktNum hd.pktNum (pktNumBits hd) = pn := by
  obtain ⟨n, hn, hwide⟩ := connSelectPktType_wide conn (by omega) hmax hnear
  obtain ⟨hshort, hpos, hle, hbits⟩ := isShort_of_pktNumLen hn
  constructor
  · exact ⟨_, hdLen_short rfl hn, fun outlen hlen => pktEncodeHdShort_fits hn hlen⟩
  · intro outlen bs henc rest
    refine ⟨_, pktDecodeHdShort_encode hshort hconnId hn henc rest, ?_⟩
    rw [hbits _ rfl rfl]
    have hcut : ((selectedHd conn omitConnId keyPhase connId version pn).shortSeen n).pktNum =
        pn % 2 ^ (8 * n) := by
      rw [pow_mul]
      rfl
    rw [hcut]
    have hpow : 2 ^ (8 * n) ≤ 2 ^ 32 := Nat.pow_le_pow_right (by decide) (by omega)
    exact pktAdjustPktNum_eq (by omega) hgt (by omega) (by omega)

/-- A sender whose peer acknowledged packet 1000. -/
def ackedServer : Conn :=
  (ngtcp2ConnServerNew (fun _ => 0) 1 1 quietCallbacks ⟨100, 100, 100, 100, 0⟩).setRtb
    { rtbInit with largestAcked := 1000 }

/-- The first distance that needs two bytes, at a receiver that has seen every packet before. -/
theorem pktNum_agreement_two_bytes :
    (∃ len, hdLen (selectedHd ackedServer false false 1 1 1128) = .ok len ∧
      ∀ outlen, len ≤ outlen → ∃ bs,
      pktEncodeHdShort outlen (selectedHd ackedServer false false 1 1 1128) = .ok bs) ∧
    ∀ outlen bs, pktEncodeHdShort outlen (selectedHd ackedServer false false 1 1 1128) = .ok bs →
      ∀ rest, ∃ hd, pktDecodeHdShort (bs ++ rest) = .ok (bs.length, hd) ∧
        pktAdjustPktNum 1127 hd.pktNum (pktNumBits hd) = 1128 :=
  pktNum_agreement ackedServer false false 1 (by decide) (by decide) (by decide) (by decide)
    (by decide)

end Ngtcp2
