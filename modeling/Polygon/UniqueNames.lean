import Mathlib.Data.List.Basic

/-!
# Unique names of clients

`util::int2Address` prints a number in groups of three digits, `util::address2Int` reads
it back. The log files of a client are named after its address, its process and a time
stamp. A string has one character for each byte.
-/
namespace Util

/-- The digits that `std::to_string` gives. -/
def digits (n : UInt64) : List Char := Nat.toDigits 10 n.toNat

/-- The loop of `address2Int` with its variables `res` and `last`. -/
def address2IntLoop : List Char → UInt64 → UInt64 → UInt64
  | [], res, last => res * 1000 + last
  | c :: ip, res, last =>
    if c = '.' then address2IntLoop ip (res * 1000 + last) 0
    else address2IntLoop ip res (last * 10 + UInt64.ofNat c.toNat - UInt64.ofNat '0'.toNat)

def address2Int (ip : String) : UInt64 := address2IntLoop ip.toList 0 0

/-- The loop of `int2Address` with its variable `res`. -/
def int2AddressLoop (ipInt : UInt64) (res : List Char) : List Char :=
  if 0 < ipInt then int2AddressLoop (ipInt / 1000) ('.' :: (digits (ipInt % 1000) ++ res)) else res
termination_by ipInt.toNat
decreasing_by
  rename_i hpos
  have hpos : 0 < ipInt.toNat := UInt64.lt_iff_toNat_lt.mp hpos
  rw [UInt64.toNat_div]
  exact Nat.div_lt_self hpos (by decide)

/-- A point in front is erased. -/
def eraseDot : List Char → List Char
  | [] => []
  | c :: s => if c = '.' then s else c :: s

def int2Address (ipInt : UInt64) : String := String.ofList (eraseDot (int2AddressLoop ipInt []))

def getUinque (a b c : UInt64) : String :=
  int2Address a ++ "_" ++ String.ofList (digits b) ++ "_" ++ String.ofList (digits c)

def getUniqueLogFile (a b c : UInt64) : String :=
  "~/experiment_results/" ++ getUinque a b c ++ ".txt"

def getUniqueLogFileDeliver (a b c : UInt64) : String :=
  "~/experiment_results/deliver_info/" ++ getUinque a b c ++ ".txt"

/-! ## Digits -/

theorem isDigit_of_mem_digits {n : UInt64} {c : Char} (h : c ∈ digits n) : c.isDigit = true :=
  Nat.isDigit_of_mem_toDigits (by decide) (by decide) h

theorem digits_injective : Function.Injective digits := by
  intro n m h
  have hval : Nat.ofDigitChars 10 (digits n) 0 = Nat.ofDigitChars 10 (digits m) 0 := by rw [h]
  rw [digits, digits, Nat.ofDigitChars_ten_toDigits, Nat.ofDigitChars_ten_toDigits] at hval
  exact UInt64.toNat_inj.mp hval

/-- Digits are accumulated, whatever their number, modulo the width. -/
theorem address2IntLoop_digits {ds : List Char} (hds : ∀ c ∈ ds, c.isDigit = true) (s : List Char)
    (res : UInt64) (n : Nat) :
    address2IntLoop (ds ++ s) res (UInt64.ofNat n) =
      address2IntLoop s res (UInt64.ofNat (Nat.ofDigitChars 10 ds n)) := by
  induction ds generalizing n with
  | nil => rw [List.nil_append, Nat.ofDigitChars_nil]
  | cons c ds ih =>
    obtain ⟨hc, hds⟩ := List.forall_mem_cons.mp hds
    have hdot : c ≠ '.' := by
      rintro rfl
      cases hc
    have hlow : '0'.toNat ≤ c.toNat := (Char.isDigit_iff_toNat.mp hc).1
    have hstep : UInt64.ofNat n * 10 + UInt64.ofNat c.toNat - UInt64.ofNat '0'.toNat =
        UInt64.ofNat (10 * n + (c.toNat - '0'.toNat)) := by
      rw [UInt64.ofNat_add, UInt64.ofNat_mul, UInt64.ofNat_sub hlow, UInt64.mul_comm,
        UInt64.sub_eq_add_neg, UInt64.sub_eq_add_neg, UInt64.add_assoc]
      rfl
    rw [List.cons_append, address2IntLoop, if_neg hdot, hstep, ih hds, Nat.ofDigitChars_cons]

/-- The digits of a number at the beginning of a group. -/
theorem address2IntLoop_group (n : UInt64) (s : List Char) (res : UInt64) :
    address2IntLoop (digits n ++ s) res 0 = address2IntLoop s res n := by
  change address2IntLoop (digits n ++ s) res (UInt64.ofNat 0) = _
  rw [address2IntLoop_digits (fun c hc => isDigit_of_mem_digits hc), digits,
    Nat.ofDigitChars_ten_toDigits, UInt64.ofNat_toNat]

/-! ## Addresses -/

theorem div_mul_add_mod (n : UInt64) : n / 1000 * 1000 + n % 1000 = n := by
  apply UInt64.toNat_inj.mp
  have hn : n.toNat < 2 ^ 64 := n.toNat_lt
  rw [UInt64.toNat_add, UInt64.toNat_mul, UInt64.toNat_div, UInt64.toNat_mod]
  change (n.toNat / 1000 * 1000 % 2 ^ 64 + n.toNat % 1000) % 2 ^ 64 = n.toNat
  omega

/-- What the loop prints, with the point in front, takes the parser to the two parts of the number. -/
theorem address2IntLoop_int2AddressLoop (n : UInt64) (s : List Char) :
    address2IntLoop (int2AddressLoop n s) 0 0 = address2IntLoop s (n / 1000) (n % 1000) := by
  fun_induction int2AddressLoop n s with
  | case1 n s hpos ih =>
    rw [ih, address2IntLoop, if_pos rfl, div_mul_add_mod, address2IntLoop_group]
  | case2 n s hzero =>
    obtain rfl : n = 0 := UInt64.le_zero_iff.mp (UInt64.not_lt.mp hzero)
    rfl

theorem address2IntLoop_eraseDot (s : List Char) :
    address2IntLoop (eraseDot s) 0 0 = address2IntLoop s 0 0 := by
  cases s with
  | nil => rfl
  | cons c s =>
    by_cases hdot : c = '.'
    · rw [eraseDot, if_pos hdot, address2IntLoop, if_pos hdot]
      rfl
    · rw [eraseDot, if_neg hdot]

theorem address2Int_int2Address (n : UInt64) : address2Int (int2Address n) = n := by
  unfold address2Int int2Address
  rw [String.toList_ofList, address2IntLoop_eraseDot, address2IntLoop_int2AddressLoop,
    address2IntLoop, div_mul_add_mod]

/-! ## Names -/

/-- The characters of an address. -/
theorem mem_int2AddressLoop {n : UInt64} {s : List Char} {c : Char}
    (h : c ∈ int2AddressLoop n s) : c ∈ s ∨ c = '.' ∨ c.isDigit = true := by
  fun_induction int2AddressLoop n s with
  | case1 n s hpos ih =>
    rcases ih h with hmem | hother
    · rcases List.mem_cons.mp hmem with hdot | hmem
      · exact .inr (.inl hdot)
      · exact (List.mem_append.mp hmem).symm.imp_right fun hd => .inr (isDigit_of_mem_digits hd)
    · exact .inr hother
  | case2 n s hzero => exact .inl h

theorem mem_eraseDot {s : List Char} {c : Char} (h : c ∈ eraseDot s) : c ∈ s := by
  cases s with
  | nil => exact h
  | cons d s =>
    rw [eraseDot] at h
    split at h
    · exact List.mem_cons_of_mem d h
    · exact h

theorem mem_int2Address {n : UInt64} {c : Char} (h : c ∈ (int2Address n).toList) :
    c = '.' ∨ c.isDigit = true := by
  rw [int2Address, String.toList_ofList] at h
  exact (mem_int2AddressLoop (mem_eraseDot h)).resolve_left List.not_mem_nil

/-- What is in front of the first separator, and what is behind it. -/
theorem append_cons_inj {x : Char} {s s' t t' : List Char} (hs : x ∉ s) (hs' : x ∉ s')
    (h : s ++ x :: t = s' ++ x :: t') : s = s' ∧ t = t' := by
  induction s generalizing s' with
  | nil =>
    cases s' with
    | nil => exact ⟨rfl, (List.cons.inj h).2⟩
    | cons c s' => exact absurd (List.cons.inj h).1 (List.ne_of_not_mem_cons hs')
  | cons c s ih =>
    cases s' with
    | nil => exact absurd (List.cons.inj h).1.symm (List.ne_of_not_mem_cons hs)
    | cons c' s' =>
      obtain ⟨rfl, hrest⟩ := List.cons.inj h
      obtain ⟨rfl, rfl⟩ := ih (List.not_mem_of_not_mem_cons hs) (List.not_mem_of_not_mem_cons hs') hrest
      exact ⟨rfl, rfl⟩

theorem getUinque_toList (a b c : UInt64) :
    (getUinque a b c).toList = (int2Address a).toList ++ '_' :: (digits b ++ '_' :: digits c) := by
  simp [getUinque]

theorem underscore_notMem_int2Address (n : UInt64) : '_' ∉ (int2Address n).toList := by
  intro h
  rcases mem_int2Address h with h | h <;> cases h

theorem underscore_notMem_digits (n : UInt64) : '_' ∉ digits n := fun h => by
  cases isDigit_of_mem_digits h

/-- A name has one client. -/
theorem getUinque_inj {a b c a' b' c' : UInt64} (h : getUinque a b c = getUinque a' b' c') :
    a = a' ∧ b = b' ∧ c = c' := by
  have hlist := congrArg String.toList h
  rw [getUinque_toList, getUinque_toList] at hlist
  obtain ⟨ha, hrest⟩ := append_cons_inj (underscore_notMem_int2Address a)
    (underscore_notMem_int2Address a') hlist
  obtain ⟨hb, hc⟩ := append_cons_inj (underscore_notMem_digits b) (underscore_notMem_digits b') hrest
  refine ⟨?_, digits_injective hb, digits_injective hc⟩
  have haddr := congrArg address2Int (String.toList_inj.mp ha)
  rwa [address2Int_int2Address, address2Int_int2Address] at haddr

theorem slash_notMem_getUinque (a b c : UInt64) : '/' ∉ (getUinque a b c).toList := by
  intro h
  rw [getUinque_toList] at h
  simp only [List.mem_append, List.mem_cons] at h
  rcases h with h | h | h | h | h
  · rcases mem_int2Address h with h | h <;> cases h
  · cases h
  · cases isDigit_of_mem_digits h
  · cases h
  · cases isDigit_of_mem_digits h

theorem between_inj {pre post s t : String} (h : pre ++ s ++ post = pre ++ t ++ post) : s = t := by
  have hlist := congrArg String.toList h
  simp only [String.toList_append, List.append_cancel_left_eq, List.append_cancel_right_eq] at hlist
  exact String.toList_inj.mp hlist

/-- Every client has log files of its own. -/
theorem getUniqueLogFile_inj {a b c a' b' c' : UInt64}
    (h : getUniqueLogFile a b c = getUniqueLogFile a' b' c') : a = a' ∧ b = b' ∧ c = c' :=
  getUinque_inj (between_inj h)

theorem getUniqueLogFileDeliver_inj {a b c a' b' c' : UInt64}
    (h : getUniqueLogFileDeliver a b c = getUniqueLogFileDeliver a' b' c') :
    a = a' ∧ b = b' ∧ c = c' :=
  getUinque_inj (between_inj h)

theorem deliverInfo_eq (name : String) : "~/experiment_results/deliver_info/" ++ name =
    "~/experiment_results/" ++ ("deliver_info/" ++ name) := by
  rw [← String.append_assoc]
  rfl

/-- The two kinds of log files are in different directories. -/
theorem getUniqueLogFile_ne_deliver (a b c a' b' c' : UInt64) :
    getUniqueLogFile a b c ≠ getUniqueLogFileDeliver a' b' c' := by
  intro h
  unfold getUniqueLogFile getUniqueLogFileDeliver at h
  rw [deliverInfo_eq] at h
  have hslash : '/' ∈ (getUinque a b c).toList := by
    rw [between_inj h, String.toList_append]
    exact List.mem_append_left _ (by decide)
  exact slash_notMem_getUinque a b c hslash

/-- Addresses survive the way to a string and back, and different triples have different names and
different log files. -/
theorem uniqueNames_distinct :
    (∀ n, address2Int (int2Address n) = n) ∧
    (Function.Injective fun t : UInt64 × UInt64 × UInt64 => getUinque t.1 t.2.1 t.2.2) ∧
    ∀ a b c a' b' c' : UInt64, (a, b, c) ≠ (a', b', c') →
      getUniqueLogFile a b c ≠ getUniqueLogFile a' b' c' ∧
      getUniqueLogFileDeliver a b c ≠ getUniqueLogFileDeliver a' b' c' ∧
      getUniqueLogFile a b c ≠ getUniqueLogFileDeliver a' b' c' := by
  refine ⟨address2Int_int2Address, ?_, fun a b c a' b' c' hne => ⟨fun h => hne ?_, fun h => hne ?_, ?_⟩⟩
  · rintro ⟨a, b, c⟩ ⟨a', b', c'⟩ h
    obtain ⟨rfl, rfl, rfl⟩ := getUinque_inj h
    rfl
  · obtain ⟨rfl, rfl, rfl⟩ := getUniqueLogFile_inj h
    rfl
  · obtain ⟨rfl, rfl, rfl⟩ := getUniqueLogFileDeliver_inj h
    rfl
  · exact getUniqueLogFile_ne_deliver a b c a' b' c'

end Util
