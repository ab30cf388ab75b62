import Polygon.Conv

/-!
# The shortest encoding of an integer

A number can have an encoding in each of the four lengths. The writer takes the shortest
one, and every encoding is read as a number below 2^62.
-/
namespace Ngtcp2

/-- As many bytes as their first two bits say. -/
def Encoding (p : List UInt8) : Prop := p.length = getVarintLen p

/-- The bytes that a length leaves room for below the tag. -/
theorem clearTag_lt {b : UInt8} {p : List UInt8} :
    BigEndian.get (clearTag (b :: p)) < 64 * 256 ^ p.length := by
  have hb : b.toNat &&& 0x3f < 64 := Nat.lt_succ_of_le Nat.and_le_right
  have hbyte : (UInt8.ofNat (b.toNat &&& 0x3f)).toNat = b.toNat &&& 0x3f := by
    rw [UInt8.toNat_ofNat']
    omega
  have hrest := BigEndian.get_lt p
  rw [clearTag, BigEndian.get, hbyte]
  calc (b.toNat &&& 0x3f) * 256 ^ p.length + BigEndian.get p
      < (b.toNat &&& 0x3f) * 256 ^ p.length + 256 ^ p.length := by omega
    _ = ((b.toNat &&& 0x3f) + 1) * 256 ^ p.length := by ring
    _ ≤ 64 * 256 ^ p.length := Nat.mul_le_mul_right _ hb

/-- The four lengths, with the first byte of a single one below 64. -/
theorem getVarintLen_cases (b : UInt8) (p : List UInt8) :
    (getVarintLen (b :: p) = 1 ∧ b.toNat < 64) ∨ getVarintLen (b :: p) = 2 ∨
      getVarintLen (b :: p) = 4 ∨ getVarintLen (b :: p) = 8 := by
  have hb : b.toNat < 256 := b.toNat_lt
  have htag : b.toNat >>> 6 = b.toNat / 64 := Nat.shiftRight_eq_div_pow _ 6
  have hlt : b.toNat / 64 < 4 := by omega
  rw [getVarintLen, List.headD_cons, htag]
  rcases h : b.toNat / 64 with _ | _ | _ | _ | n
  · exact .inl ⟨rfl, by omega⟩
  · exact .inr (.inl rfl)
  · exact .inr (.inr (.inl rfl))
  · exact .inr (.inr (.inr rfl))
  · omega

/-- A number of `k` bytes is below 64 * 256 ^ (k - 1). -/
theorem Encoding.value_lt {p : List UInt8} (h : Encoding p) :
    (getVarint p).1 < 64 * 256 ^ (p.length - 1) := by
  cases p with
  | nil => cases h
  | cons b p =>
    have hlen : (b :: p).take (getVarintLen (b :: p)) = b :: p := List.take_of_length_le (Nat.le_of_eq h)
    unfold getVarint
    dsimp only
    rw [hlen, List.length_cons, Nat.add_sub_cancel]
    split
    · next hone =>
      rcases getVarintLen_cases b p with ⟨-, hb⟩ | h' | h' | h'
      · exact Nat.lt_of_lt_of_le hb (Nat.le_mul_of_pos_right _ (by positivity))
      all_goals
        rw [h'] at hone
        cases hone
    · exact clearTag_lt

theorem Encoding.length_cases {p : List UInt8} (h : Encoding p) :
    p.length = 1 ∨ p.length = 2 ∨ p.length = 4 ∨ p.length = 8 := by
  cases p with
  | nil => cases h
  | cons b p =>
    rw [h]
    exact (getVarintLen_cases b p).imp_left And.left

theorem putVarint_length (n : Nat) : (putVarint n).length =
    if n < 64 then 1 else if n < 16384 then 2 else if n < 1073741824 then 4 else 8 := by
  unfold putVarint
  split_ifs <;> simp [orFirst_length, putUint16be, putUint32be, putUint64be]

/-- The writer needs `k` bytes only for numbers that do not fit into fewer. -/
theorem putVarint_length_le {n k : Nat} (hn : n < 64 * 256 ^ (k - 1))
    (hk : k = 1 ∨ k = 2 ∨ k = 4 ∨ k = 8) : (putVarint n).length ≤ k := by
  rw [putVarint_length]
  rcases hk with rfl | rfl | rfl | rfl <;> split_ifs <;> omega

theorem Encoding.value_lt_max {p : List UInt8} (h : Encoding p) : (getVarint p).1 < 2 ^ 62 := by
  have hlt := h.value_lt
  rcases h.length_cases with hlen | hlen | hlen | hlen <;> rw [hlen] at hlt <;> omega

/-- No encoding is shorter than the one that is written. -/
theorem Encoding.putVarint_le {p : List UInt8} (h : Encoding p) :
    (putVarint (getVarint p).1).length ≤ p.length :=
  putVarint_length_le h.value_lt h.length_cases

/-- Numbers below 2^62 are written in the shortest of their encodings, which is as long as it is
measured on both sides and is read back whatever follows, and every encoding is one of such a number. -/
theorem varint_shortest :
    (∀ n, n < 2 ^ 62 → ∀ rest,
      getVarint (putVarint n ++ rest) = (n, rest) ∧
      putVarintLen n = some (putVarint n).length ∧
      getVarintLen (putVarint n ++ rest) = (putVarint n).length ∧
      ∀ p, Encoding p → (getVarint p).1 = n → (putVarint n).length ≤ p.length) ∧
    ∀ p, Encoding p → (getVarint p).1 < 2 ^ 62 ∧ (putVarint (getVarint p).1).length ≤ p.length := by
  refine ⟨fun n hn rest => ?_, fun p hp => ⟨hp.value_lt_max, hp.putVarint_le⟩⟩
  have hmax : n ≤ maxVarint := Nat.le_sub_one_of_lt hn
  obtain ⟨hread, hlen⟩ := getVarint_putVarint hmax rest
  refine ⟨hread, putVarintLen_eq hmax, hlen, ?_⟩
  rintro p hp rfl
  exact hp.putVarint_le

/-- Two bytes that stand for 37, which is written in one. -/
theorem varint_shortest_two :
    getVarint (putVarint 37 ++ [1]) = (37, [1]) ∧ (putVarint 37).length ≤ [(0x40 : UInt8), 37].length :=
  have h := varint_shortest.1 37 (by decide) [1]
  ⟨h.1, h.2.2.2 [0x40, 37] (by unfold Encoding; decide) (by decide)⟩

end Ngtcp2
