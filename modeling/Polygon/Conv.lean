import Polygon.Frame
import Polygon.Lib.BigEndian

/-!
# Variable-length integers

The integer readers and writers of `ngtcp2_conv.c` over byte strings. A reader
gets the bytes from its pointer on; the callers check their length before.
-/
namespace Ngtcp2

/-- `ngtcp2_put_uint16be`, `ngtcp2_put_uint32be` and `ngtcp2_put_uint64be`. -/
def putUint16be (n : Nat) : List UInt8 := BigEndian.put 2 n
def putUint32be (n : Nat) : List UInt8 := BigEndian.put 4 n
def putUint64be (n : Nat) : List UInt8 := BigEndian.put 8 n

/-- `ngtcp2_get_uint16`, `ngtcp2_get_uint32` and `ngtcp2_get_uint64`. -/
def getUint16 (p : List UInt8) : Nat := BigEndian.get (p.take 2)
def getUint32 (p : List UInt8) : Nat := BigEndian.get (p.take 4)
def getUint64 (p : List UInt8) : Nat := BigEndian.get (p.take 8)

/-- `*p |= mask`. -/
def orFirst (mask : Nat) : List UInt8 → List UInt8
  | [] => []
  | b :: bs => UInt8.ofNat (b.toNat ||| mask) :: bs

/-- `n.b[0] &= 0x3f`. -/
def clearTag : List UInt8 → List UInt8
  | [] => []
  | b :: bs => UInt8.ofNat (b.toNat &&& 0x3f) :: bs

/-- `ngtcp2_put_varint`; its callers have asked `putVarintLen` for the length before. -/
def putVarint (n : Nat) : List UInt8 :=
  if n < 64 then [UInt8.ofNat n]
  else if n < 16384 then orFirst 0x40 (putUint16be n)
  else if n < 1073741824 then orFirst 0x80 (putUint32be n)
  else orFirst 0xc0 (putUint64be n)

/-- `varintlen_def`. -/
def varintlenDef : List Nat := [1, 2, 4, 8]

/-- `ngtcp2_get_varint_len`. -/
def getVarintLen (p : List UInt8) : Nat := varintlenDef.getD ((p.headD 0).toNat >>> 6) 0

/-- `ngtcp2_get_varint`: the value and the bytes behind it. -/
def getVarint (p : List UInt8) : Nat × List UInt8 :=
  let len := getVarintLen p
  (if len = 1 then (p.headD 0).toNat else BigEndian.get (clearTag (p.take len)), p.drop len)

/-! ## Round trips -/

theorem tag_bits : ∀ b < 64, ∀ tag < 4, (b ||| tag <<< 6) >>> 6 = tag ∧
    (b ||| tag <<< 6) &&& 0x3f = b ∧
    b ||| tag <<< 6 < 256 := by
  decide +kernel

/-- A tagged number: the tag gives the length, and the number comes back without it. -/
theorem getVarint_tagged (k tag : Nat) {n : Nat} (htag : tag < 4)
    (hlen : varintlenDef.getD tag 0 = k + 2)
    (hn : n < 64 * 256 ^ (k + 1)) (rest : List UInt8) :
    getVarint (orFirst (tag <<< 6) (BigEndian.put (k + 2) n) ++ rest) = (n, rest) ∧
      getVarintLen (orFirst (tag <<< 6) (BigEndian.put (k + 2) n) ++ rest) = k + 2 := by
  have hhead : n / 256 ^ (k + 1) < 64 := Nat.div_lt_of_lt_mul (by rwa [Nat.mul_comm] at hn)
  obtain ⟨hshift, hmask, hbyte⟩ := tag_bits _ hhead _ htag
  have hfirst : (UInt8.ofNat (n / 256 ^ (k + 1))).toNat = n / 256 ^ (k + 1) := by
    rw [UInt8.toNat_ofNat']
    omega
  have htagged : (UInt8.ofNat (n / 256 ^ (k + 1) ||| tag <<< 6)).toNat =
      n / 256 ^ (k + 1) ||| tag <<< 6 := by
    rw [UInt8.toNat_ofNat']
    omega
  have hput : orFirst (tag <<< 6) (BigEndian.put (k + 2) n) =
      UInt8.ofNat (n / 256 ^ (k + 1) ||| tag <<< 6) :: BigEndian.put (k + 1) n := by
    rw [BigEndian.put, orFirst, hfirst]
  have hl : getVarintLen (orFirst (tag <<< 6) (BigEndian.put (k + 2) n) ++ rest) = k + 2 := by
    rw [hput, getVarintLen, List.cons_append, List.headD_cons, htagged, hshift, hlen]
  refine ⟨?_, hl⟩
  have htake : (orFirst (tag <<< 6) (BigEndian.put (k + 2) n) ++ rest).take (k + 2) =
      orFirst (tag <<< 6) (BigEndian.put (k + 2) n) := by
    rw [List.take_left']
    simp [hput]
  have hdrop : (orFirst (tag <<< 6) (BigEndian.put (k + 2) n) ++ rest).drop (k + 2) = rest := by
    rw [List.drop_left']
    simp [hput]
  have hclear : clearTag (orFirst (tag <<< 6) (BigEndian.put (k + 2) n)) =
    BigEndian.put (k + 2) n := by
    rw [hput, clearTag, htagged, hmask]
    rfl
  have hval : n < 256 ^ (k + 2) := by
    rw [pow_succ]
    omega
  unfold getVarint
  dsimp only
  rw [hl, if_neg (by omega), htake, hdrop, hclear, BigEndian.get_put_of_lt hval]

/-- What `ngtcp2_put_varint` writes is read back, and nothing behind it is touched. -/
theorem getVarint_putVarint {n : Nat} (h : n ≤ maxVarint) (rest : List UInt8) :
    getVarint (putVarint n ++ rest) = (n, rest) ∧
      getVarintLen (putVarint n ++ rest) = (putVarint n).length := by
  unfold putVarint
  split_ifs with h₁ h₂ h₃
  · have hb : (UInt8.ofNat n).toNat = n := by
      rw [UInt8.toNat_ofNat']
      omega
    have hs : n >>> 6 = 0 := Nat.shiftRight_eq_div_pow n 6 ▸ Nat.div_eq_of_lt h₁
    simp [getVarint, getVarintLen, hb, hs, varintlenDef]
  · exact getVarint_tagged 0 1 (by decide) rfl (by omega) rest
  · exact getVarint_tagged 2 2 (by decide) rfl (by omega) rest
  · exact getVarint_tagged 6 3 (by decide) rfl (by unfold maxVarint at h; omega) rest

theorem orFirst_length (mask : Nat) (bs : List UInt8) : (orFirst mask bs).length = bs.length := by
  cases bs <;> rfl

/-- `ngtcp2_put_varint_len` is the number of bytes `ngtcp2_put_varint` writes. -/
theorem putVarintLen_eq {n : Nat} (h : n ≤ maxVarint) :
    putVarintLen n = some (putVarint n).length := by
  unfold maxVarint at h
  unfold putVarintLen putVarint
  split_ifs <;> first
    | rfl
    | simp [orFirst_length, putUint16be, putUint32be, putUint64be]
    | omega

theorem putVarint_length_pos (n : Nat) : 1 ≤ (putVarint n).length := by
  unfold putVarint
  split_ifs <;> simp [orFirst_length, putUint16be, putUint32be, putUint64be]

theorem getUint16_put {n : Nat} (h : n < 2 ^ 16) (rest : List UInt8) :
    getUint16 (putUint16be n ++ rest) = n := by
  rw [getUint16, putUint16be, List.take_left' (BigEndian.put_length 2 n),
    BigEndian.get_put_of_lt (by omega)]

theorem getUint64_put {n : Nat} (h : n < 2 ^ 64) (rest : List UInt8) :
    getUint64 (putUint64be n ++ rest) = n := by
  rw [getUint64, putUint64be, List.take_left' (BigEndian.put_length 8 n),
    BigEndian.get_put_of_lt (by omega)]

theorem flatMap_putUint32be_length (vs : List UInt32) :
    (vs.flatMap fun v => putUint32be v.toNat).length = vs.length * 4 := by
  induction vs with
  | nil => rfl
  | cons v vs ih =>
    rw [List.flatMap_cons, List.length_append, ih, List.length_cons, putUint32be,
      BigEndian.put_length]
    omega

end Ngtcp2
