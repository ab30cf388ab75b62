import Mathlib.Tactic.Ring
import Mathlib.Tactic.Positivity

/-!
# Numbers as bytes in network order

A natural number cut into a fixed number of bytes, most significant first, and
the number that a string of bytes stands for.
-/
namespace BigEndian

/-- The `k` lowest bytes of `n`, most significant first. -/
def put : Nat → Nat → List UInt8
  | 0, _ => []
  | k + 1, n => UInt8.ofNat (n / 256 ^ k) :: put k n

/-- The number that the bytes stand for. -/
def get : List UInt8 → Nat
  | [] => 0
  | b :: bs => b.toNat * 256 ^ bs.length + get bs

@[simp]
theorem put_length (k n : Nat) : (put k n).length = k := by
  induction k with
  | zero => rfl
  | succ k ih => simp [put, ih]

/-- Reading what was written gives the number modulo the width. -/
theorem get_put (k n : Nat) : get (put k n) = n % 256 ^ k := by
  induction k with
  | zero => simp [put, get, Nat.mod_one]
  | succ k ih =>
    have hsplit : n % 256 ^ (k + 1) = n / 256 ^ k % 256 * 256 ^ k + n % 256 ^ k := by
      rw [pow_succ, Nat.mod_mul, Nat.add_comm, Nat.mul_comm]
    simp [put, get, ih, hsplit]

theorem get_put_of_lt {k n : Nat} (h : n < 256 ^ k) : get (put k n) = n := by
  rw [get_put, Nat.mod_eq_of_lt h]

theorem get_lt (bs : List UInt8) : get bs < 256 ^ bs.length := by
  induction bs with
  | nil => simp [get]
  | cons b bs ih =>
    have hb : b.toNat < 256 := b.toNat_lt
    calc b.toNat * 256 ^ bs.length + get bs
        < b.toNat * 256 ^ bs.length + 256 ^ bs.length := by omega
      _ = (b.toNat + 1) * 256 ^ bs.length := by ring
      _ ≤ 256 * 256 ^ bs.length := Nat.mul_le_mul_right _ hb
      _ = 256 ^ (b :: bs).length := by rw [List.length_cons, pow_succ, Nat.mul_comm]

/-- Only the `k` lowest bytes count. -/
theorem put_add_mul (k n m : Nat) : put k (n + m * 256 ^ k) = put k n := by
  induction k generalizing m with
  | zero => rfl
  | succ k ih =>
    have hsplit : n + m * 256 ^ (k + 1) = n + m * 256 * 256 ^ k := by
      rw [pow_succ]
      ring
    have hbyte : UInt8.ofNat ((n + m * 256 * 256 ^ k) / 256 ^ k) = UInt8.ofNat (n / 256 ^ k) := by
      rw [Nat.add_mul_div_right _ _ (by positivity)]
      apply UInt8.toNat_inj.mp
      rw [UInt8.toNat_ofNat', UInt8.toNat_ofNat']
      omega
    rw [put, put, hsplit, hbyte, ih]

/-- Writing what was read gives the bytes back. -/
theorem put_get (bs : List UInt8) : put bs.length (get bs) = bs := by
  induction bs with
  | nil => rfl
  | cons b bs ih =>
    have hbyte : (b.toNat * 256 ^ bs.length + get bs) / 256 ^ bs.length = b.toNat := by
      rw [Nat.add_comm, Nat.add_mul_div_right _ _ (by positivity), Nat.div_eq_of_lt (get_lt bs),
        Nat.zero_add]
    have hrest : put bs.length (b.toNat * 256 ^ bs.length + get bs) = bs := by
      rw [Nat.add_comm, put_add_mul, ih]
    rw [List.length_cons, get, put, hbyte, hrest, UInt8.ofNat_toNat]

theorem get_inj {bs bs' : List UInt8} (hlen : bs.length = bs'.length) (h : get bs = get bs') :
    bs = bs' := by
  rw [← put_get bs, ← put_get bs', hlen, h]

end BigEndian
