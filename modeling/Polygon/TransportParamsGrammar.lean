import Polygon.TransportParams

/-!
# What the transport parameter decoder accepts

The decoder reads only its input, and it accepts exactly the version part of the
extension type, the length of the rest, and complete parameters of known lengths
and ranges with the required ones among them.
-/
namespace Ngtcp2

open Checked

/-! ## The grammar -/

/-- A parameter as it stands in the input. -/
structure WireParam where
  type : Nat
  value : List UInt8

def WireParam.bytes (w : WireParam) : List UInt8 :=
  putUint16be w.type ++ (putUint16be w.value.length ++ w.value)

/-- The range of a known parameter. -/
def InRange (exttype : TransportParamsType) (id : TransportParamId) (value : List UInt8) : Prop :=
  match id with
  | .initialMaxStreamIdBidi => validStreamIdBidi (BigEndian.get value) exttype = true
  | .initialMaxStreamIdUni => validStreamIdUni (BigEndian.get value) exttype = true
  | .ackDelayExponent => BigEndian.get value ≤ 20
  | .statelessResetToken => exttype ≠ .clientHello
  | _ => True

/-- Type and length fit in two bytes. -/
structure WireParam.Fits (w : WireParam) : Prop where
  type_lt : w.type < 2 ^ 16
  value_lt : w.value.length < 2 ^ 16

/-- A known parameter has its length and range; an unknown one may have any. -/
def WireParam.Valid (exttype : TransportParamsType) (w : WireParam) : Prop :=
  ∀ id, TransportParamId.ofCode w.type = some id →
    w.value.length = id.valueLen ∧ InRange exttype id w.value

/-- The version part of an extension type. -/
def IsVersionPart (exttype : TransportParamsType) (part : List UInt8) : Prop :=
  match exttype with
  | .clientHello => part.length = 4
  | .encryptedExtensions =>
    ∃ version versions : List UInt8, version.length = 4 ∧ versions.length % 4 = 0 ∧
      versions.length < 256 ∧ part = version ++ (UInt8.ofNat versions.length :: versions)
  | .newSessionTicket => part = []

/-- The parameters that must be present. -/
def requiredIds : TransportParamsType → List TransportParamId
  | .clientHello => [.initialMaxStreamData, .initialMaxData, .idleTimeout]
  | _ => [.initialMaxStreamData, .initialMaxData, .idleTimeout, .statelessResetToken]

/-- An input that is to be accepted. -/
structure WellFormedParams (exttype : TransportParamsType) (data part : List UInt8)
    (ws : List WireParam) : Prop where
  version : IsVersionPart exttype part
  length : (ws.flatMap WireParam.bytes).length < 2 ^ 16
  data : data = part ++ (putUint16be (ws.flatMap WireParam.bytes).length ++ ws.flatMap WireParam.bytes)
  fits : ∀ w ∈ ws, w.Fits
  valid : ∀ w ∈ ws, w.Valid exttype
  required : ∀ id ∈ requiredIds exttype, ∃ w ∈ ws, w.type = id.code

/-! ## Reading -/

theorem putUint16be_length (n : Nat) : (putUint16be n).length = 2 := BigEndian.put_length 2 n

theorem readUint16_put {n : Nat} (h : n < 2 ^ 16) (p : List UInt8) :
    readUint16 (putUint16be n ++ p) = ok (n, p) := by
  unfold readUint16
  rw [read_append (putUint16be_length n), ok_andThen]
  dsimp only
  rw [putUint16be, BigEndian.get_put_of_lt (by omega)]

/-- Two bytes are a number. -/
theorem readUint16_of_le {p : List UInt8} (h : 2 ≤ p.length) :
    ∃ n q, n < 2 ^ 16 ∧ p = putUint16be n ++ q ∧ readUint16 p = ok (n, q) := by
  have hlen : (p.take 2).length = 2 := List.length_take_of_le h
  have hlt := BigEndian.get_lt (p.take 2)
  have hput := BigEndian.put_get (p.take 2)
  rw [hlen] at hlt hput
  refine ⟨BigEndian.get (p.take 2), p.drop 2, hlt, ?_, ?_⟩
  · rw [putUint16be, hput, List.take_append_drop]
  · unfold readUint16
    rw [read_of_le h]
    rfl

theorem readUint32_of_le {p : List UInt8} (h : 4 ≤ p.length) :
    readUint32 p = ok (BigEndian.get (p.take 4), p.drop 4) := by
  unfold readUint32
  rw [read_of_le h]
  rfl

theorem readVersions_of_le (k : Nat) {p : List UInt8} (h : 4 * k ≤ p.length) :
    ∃ versions, versions.length = k ∧ readVersions k p = ok (versions, p.drop (4 * k)) := by
  induction k generalizing p with
  | zero => exact ⟨[], rfl, rfl⟩
  | succ k ih =>
    obtain ⟨versions, hlen, hrest⟩ := ih (p := p.drop 4) (by rw [List.length_drop]; omega)
    refine ⟨UInt32.ofNat (BigEndian.get (p.take 4)) :: versions, by rw [List.length_cons, hlen], ?_⟩
    rw [readVersions, readUint32_of_le (by omega), ok_andThen]
    dsimp only
    have hdrop : 4 + 4 * k = 4 * (k + 1) := by omega
    rw [hrest, List.drop_drop, ok_andThen, hdrop]

/-- A version part is read as a whole. -/
theorem decodeVersionPart_part {exttype : TransportParamsType} {part : List UInt8}
    (h : IsVersionPart exttype part)
    (params : Ngtcp2TransportParams) (q : List UInt8) :
    ∃ params', decodeVersionPart exttype params (part ++ q) = ok (part.length, params', q) := by
  cases exttype with
  | clientHello =>
    have hlen : part.length = 4 := h
    unfold decodeVersionPart
    dsimp only
    rw [if_neg (by rw [List.length_append]; omega),
      readUint32_of_le (by rw [List.length_append]; omega), ok_andThen,
      List.drop_left' hlen, hlen]
    exact ⟨_, rfl⟩
  | encryptedExtensions =>
    obtain ⟨version, versions, hversion, hmod, hlt, rfl⟩ := h
    have hbyte : BigEndian.get [UInt8.ofNat versions.length] = versions.length := by
      simp only [BigEndian.get, List.length_nil, UInt8.toNat_ofNat']
      omega
    have hdiv : 4 * (versions.length / 4) = versions.length := by omega
    obtain ⟨vs, hvs, hread⟩ := readVersions_of_le (versions.length / 4) (p := versions ++ q)
      (by rw [List.length_append]; omega)
    rw [hdiv, List.drop_left' rfl] at hread
    unfold decodeVersionPart
    dsimp only
    rw [if_neg (by simp only [List.length_append, List.length_cons]; omega), List.append_assoc,
      readUint32_of_le (by rw [List.length_append]; omega), ok_andThen]
    dsimp only
    rw [List.drop_left' hversion, List.cons_append, read_one, ok_andThen]
    dsimp only
    rw [hbyte, if_neg (by rw [List.length_append]; omega), hread, ok_andThen]
    dsimp only
    have hlen : 4 + 1 + versions.length =
      (version ++ (UInt8.ofNat versions.length :: versions)).length := by
      simp only [List.length_append, List.length_cons]
      omega
    rw [dif_pos (by omega), hlen]
    exact ⟨_, rfl⟩
  | newSessionTicket =>
    have hnil : part = [] := h
    rw [hnil]
    exact ⟨params, rfl⟩

/-- Anything else is malformed. -/
theorem decodeVersionPart_cases (exttype : TransportParamsType) (params : Ngtcp2TransportParams)
    (p : List UInt8) :
    decodeVersionPart exttype params p = error .malformedTransportParam ∨
      ∃ part q, IsVersionPart exttype part ∧ p = part ++ q := by
  cases exttype with
  | clientHello =>
    by_cases hlen : p.length < 4
    · exact .inl (if_pos hlen)
    · exact .inr ⟨p.take 4, p.drop 4, List.length_take_of_le (by omega),
        (List.take_append_drop 4 p).symm⟩
  | encryptedExtensions =>
    by_cases hlen : p.length < 4 + 1
    · exact .inl (if_pos hlen)
    · match hq : p.drop 4 with
      | [] =>
        have hdrop := congrArg List.length hq
        rw [List.length_drop, List.length_nil] at hdrop
        omega
      | n :: q =>
        have hp : p = p.take 4 ++ (n :: q) := by rw [← hq, List.take_append_drop]
        have htake : (p.take 4).length = 4 := List.length_take_of_le (by omega)
        have hbyte : BigEndian.get [n] = n.toNat := by simp [BigEndian.get]
        by_cases hbad : q.length < n.toNat ∨ n.toNat % 4 ≠ 0
        · left
          unfold decodeVersionPart
          dsimp only
          rw [if_neg hlen, readUint32_of_le (by omega), ok_andThen]
          dsimp only
          rw [hq, read_one, ok_andThen]
          dsimp only
          rw [hbyte, if_pos hbad]
        · right
          have hn := n.toNat_lt
          have hlenq : (q.take n.toNat).length = n.toNat := List.length_take_of_le (by omega)
          refine ⟨p.take 4 ++ (n :: q.take n.toNat), q.drop n.toNat,
            ⟨p.take 4, q.take n.toNat, htake, by rw [hlenq]; omega, by rw [hlenq]; omega, ?_⟩, ?_⟩
          · rw [hlenq, UInt8.ofNat_toNat]
          · rw [List.append_assoc, List.cons_append, List.take_append_drop]
            exact hp
  | newSessionTicket => exact .inr ⟨[], p, rfl, rfl⟩

/-! ## The parameters -/

theorem ofCode_code (id : TransportParamId) : TransportParamId.ofCode id.code = some id := by
  cases id <;> rfl

theorem code_inj {id id' : TransportParamId} (h : id.code = id'.code) : id = id' :=
  Option.some.inj ((ofCode_code id).symm.trans ((congrArg TransportParamId.ofCode h).trans (ofCode_code id')))

theorem code_of_ofCode {type : Nat} {id : TransportParamId}
    (h : TransportParamId.ofCode type = some id) :
    id.code = type := by
  obtain ⟨hlt, hget⟩ := List.getElem?_eq_some_iff.mp h
  have hall : ∀ i : Fin transportParamIds.length, (transportParamIds.get i).code = i := by decide
  rw [← hget]
  exact hall ⟨type, hlt⟩

theorem code_lt (id : TransportParamId) : id.code < 18 := by cases id <;> decide

theorem valueLen_le (id : TransportParamId) : id.valueLen ≤ 16 := by cases id <;> decide

/-- What a parameter of the input does to the decoder's state; none if it is malformed. -/
def WireParam.step (exttype : TransportParamsType) (st : ParamsState) (w : WireParam) :
    Option ParamsState :=
  match TransportParamId.ofCode w.type with
  | none => some st
  | some id =>
    if w.value.length = id.valueLen ∧ ¬(id = .statelessResetToken ∧ exttype = .clientHello) then
      (storeParam exttype st.params id w.value).map fun params => ⟨st.flags ||| 1 <<< id.code,
        params⟩
    else none

theorem storeParam_isSome_iff {exttype : TransportParamsType} {params : Ngtcp2TransportParams}
    {id : TransportParamId}
    {value : List UInt8} (hlen : value.length = id.valueLen)
    (htoken : ¬(id = .statelessResetToken ∧ exttype = .clientHello)) :
    (storeParam exttype params id value).isSome = true ↔ InRange exttype id value := by
  unfold storeParam InRange
  cases id with
  | initialMaxStreamIdBidi =>
    dsimp only
    by_cases h : validStreamIdBidi (BigEndian.get value) exttype = true <;> simp [h]
  | initialMaxStreamIdUni =>
    dsimp only
    by_cases h : validStreamIdUni (BigEndian.get value) exttype = true <;> simp [h]
  | statelessResetToken =>
    have hlen : value.length = 16 := hlen
    dsimp only
    rw [dif_pos hlen]
    simpa using htoken
  | ackDelayExponent =>
    dsimp only
    by_cases h : BigEndian.get value > 20
    · rw [if_pos h]
      simp only [Option.isSome_none, Bool.false_eq_true, false_iff]
      omega
    · rw [if_neg h]
      simp only [Option.isSome_some, true_iff]
      omega
  | _ => simp

/-- Exactly the valid parameters are stored or skipped. -/
theorem WireParam.step_isSome_iff {exttype : TransportParamsType} {st : ParamsState}
    {w : WireParam} :
    (w.step exttype st).isSome = true ↔ w.Valid exttype := by
  unfold WireParam.step WireParam.Valid
  cases hid : TransportParamId.ofCode w.type with
  | none => simp
  | some id =>
    dsimp only
    by_cases hok : w.value.length = id.valueLen ∧
      ¬(id = .statelessResetToken ∧ exttype = .clientHello)
    · rw [if_pos hok, Option.isSome_map, storeParam_isSome_iff hok.1 hok.2]
      constructor
      · intro hrange id' hid'
        obtain rfl := Option.some.inj hid'
        exact ⟨hok.1, hrange⟩
      · intro hvalid
        exact (hvalid id rfl).2
    · rw [if_neg hok]
      constructor
      · intro hc
        cases hc
      · intro hvalid
        obtain ⟨hlen, hrange⟩ := hvalid id rfl
        refine absurd ⟨hlen, ?_⟩ hok
        rintro ⟨rfl, rfl⟩
        exact hrange rfl

/-- A round on a parameter that is there as a whole. -/
theorem decodeParam_bytes {exttype : TransportParamsType} {st : ParamsState} {w : WireParam}
    (hw : w.Fits)
    (rest : List UInt8) : decodeParam exttype st (w.bytes ++ rest) =
      match w.step exttype st with
      | some st' => ok (st', rest)
      | none => error .malformedTransportParam := by
  unfold decodeParam WireParam.bytes WireParam.step
  rw [List.append_assoc, readUint16_put hw.type_lt, ok_andThen, List.append_assoc]
  dsimp only
  cases hid : TransportParamId.ofCode w.type with
  | none =>
    dsimp only
    unfold skipParam
    rw [readUint16_put hw.value_lt, ok_andThen]
    dsimp only
    rw [if_neg (by rw [List.length_append]; omega), List.drop_left' rfl]
  | some id =>
    dsimp only
    unfold decodeKnownParam
    by_cases htoken : id = .statelessResetToken ∧ exttype = .clientHello
    · rw [if_pos htoken, if_neg fun hc => hc.2 htoken]
    rw [if_neg htoken, readUint16_put hw.value_lt, ok_andThen]
    dsimp only
    by_cases hlen : w.value.length = id.valueLen
    · rw [if_neg (not_not_intro hlen), if_neg (by rw [List.length_append]; omega), read_append hlen,
        ok_andThen,
        if_pos ⟨hlen, htoken⟩]
      dsimp only
      cases storeParam exttype st.params id w.value with
      | none => rfl
      | some params => rfl
    · rw [if_pos hlen, if_neg fun hc => hlen hc.1]

/-- A round on a parameter whose value is cut off. -/
theorem decodeParam_truncated {exttype : TransportParamsType} {st : ParamsState} {type n : Nat}
    {q : List UInt8}
    (htype : type < 2 ^ 16) (hn : n < 2 ^ 16) (hlen : q.length < n) :
    decodeParam exttype st (putUint16be type ++ (putUint16be n ++ q)) =
    error .malformedTransportParam := by
  unfold decodeParam
  rw [readUint16_put htype, ok_andThen]
  dsimp only
  cases TransportParamId.ofCode type with
  | none =>
    dsimp only
    unfold skipParam
    rw [readUint16_put hn, ok_andThen]
    exact if_pos hlen
  | some id =>
    dsimp only
    unfold decodeKnownParam
    split
    · rfl
    rw [readUint16_put hn, ok_andThen]
    dsimp only
    by_cases heq : n = id.valueLen
    · rw [if_neg (not_not_intro heq), if_pos (by omega)]
    · rw [if_pos heq]

/-- What the loop finds when there are four bytes: a whole parameter or one that is cut off. -/
theorem wireParam_cases {p : List UInt8} (h : 4 ≤ p.length) :
    (∃ w rest, WireParam.Fits w ∧ p = w.bytes ++ rest) ∨
      ∃ type n q, type < 2 ^ 16 ∧ n < 2 ^ 16 ∧ q.length < n ∧
      p = putUint16be type ++ (putUint16be n ++ q) := by
  obtain ⟨type, p₁, htype, rfl, -⟩ := readUint16_of_le (p := p) (by omega)
  rw [List.length_append, putUint16be_length] at h
  obtain ⟨n, q, hn, rfl, -⟩ := readUint16_of_le (p := p₁) (by omega)
  by_cases hlen : q.length < n
  · exact .inr ⟨type, n, q, htype, hn, hlen, rfl⟩
  · have htake : (q.take n).length = n := List.length_take_of_le (by omega)
    refine .inl ⟨⟨type, q.take n⟩, q.drop n, ⟨htype, by rw [htake]; exact hn⟩, ?_⟩
    unfold WireParam.bytes
    dsimp only
    rw [htake, List.append_assoc, List.append_assoc, List.take_append_drop]

theorem WireParam.bytes_length (w : WireParam) : w.bytes.length = 4 + w.value.length := by
  unfold WireParam.bytes
  rw [List.length_append, List.length_append, putUint16be_length, putUint16be_length]
  omega

/-- The loop never reads behind the input and always ends. -/
theorem decodeParams_ne_none {exttype : TransportParamsType} {fuel : Nat} {st : ParamsState}
    {p : List UInt8}
    (h : p.length < fuel) : decodeParams exttype fuel st p ≠ none := by
  induction fuel generalizing st p with
  | zero => omega
  | succ fuel ih =>
    unfold decodeParams
    by_cases hlen : 2 * 2 ≤ p.length
    · rw [if_pos hlen]
      rcases wireParam_cases hlen with ⟨w, rest, hw, rfl⟩ | ⟨type, n, q, htype, hn, hq, rfl⟩
      · rw [decodeParam_bytes hw]
        cases w.step exttype st with
        | none => exact Option.some_ne_none _
        | some st' =>
          apply ih
          rw [List.length_append, w.bytes_length] at h
          omega
      · rw [decodeParam_truncated htype hn hq]
        exact Option.some_ne_none _
    · rw [if_neg hlen]
      exact Option.some_ne_none _

/-- The loop over whole parameters. -/
theorem decodeParams_bytes {exttype : TransportParamsType} {fuel : Nat} {st st' : ParamsState}
    {ws : List WireParam}
    (hfuel : (ws.flatMap WireParam.bytes).length < fuel) (hfits : ∀ w ∈ ws, w.Fits)
    (hstep : ws.foldlM (WireParam.step exttype) st = some st') :
    decodeParams exttype fuel st (ws.flatMap WireParam.bytes) = ok (st', []) := by
  induction ws generalizing fuel st with
  | nil =>
    cases fuel with
    | zero => omega
    | succ fuel =>
      obtain rfl := Option.some.inj hstep
      rfl
  | cons w ws ih =>
    cases fuel with
    | zero => omega
    | succ fuel =>
      rw [List.flatMap_cons, List.length_append, w.bytes_length] at hfuel
      rw [List.foldlM_cons] at hstep
      obtain ⟨st₁, hfirst, hrest⟩ := Option.bind_eq_some_iff.mp hstep
      unfold decodeParams
      rw [List.flatMap_cons, if_pos (by rw [List.length_append, w.bytes_length]; omega),
        decodeParam_bytes (hfits w (List.mem_cons_self ..)), hfirst]
      exact ih (by omega) (fun w' hw' => hfits w' (List.mem_cons_of_mem _ hw')) hrest

/-- The loop stops at a parameter that is malformed. -/
theorem decodeParams_malformed {exttype : TransportParamsType} {fuel : Nat} {st : ParamsState}
    {ws : List WireParam}
    (hfuel : (ws.flatMap WireParam.bytes).length < fuel) (hfits : ∀ w ∈ ws, w.Fits)
    (hstep : ws.foldlM (WireParam.step exttype) st = none) :
    decodeParams exttype fuel st (ws.flatMap WireParam.bytes) = error .malformedTransportParam := by
  induction ws generalizing fuel st with
  | nil => cases hstep
  | cons w ws ih =>
    cases fuel with
    | zero => omega
    | succ fuel =>
      rw [List.flatMap_cons, List.length_append, w.bytes_length] at hfuel
      unfold decodeParams
      rw [List.flatMap_cons, if_pos (by rw [List.length_append, w.bytes_length]; omega),
        decodeParam_bytes (hfits w (List.mem_cons_self ..))]
      cases hfirst : w.step exttype st with
      | none => rfl
      | some st₁ =>
        rw [List.foldlM_cons, hfirst] at hstep
        exact ih (by omega) (fun w' hw' => hfits w' (List.mem_cons_of_mem _ hw')) hstep

/-- A loop that ends at the end of the input has seen whole parameters. -/
theorem decodeParams_ok {exttype : TransportParamsType} {fuel : Nat} {st st' : ParamsState}
    {p : List UInt8}
    (h : decodeParams exttype fuel st p = ok (st', [])) :
    ∃ ws : List WireParam, (∀ w ∈ ws, w.Fits) ∧ p = ws.flatMap WireParam.bytes ∧
      ws.foldlM (WireParam.step exttype) st = some st' := by
  induction fuel generalizing st p with
  | zero => cases h
  | succ fuel ih =>
    unfold decodeParams at h
    by_cases hlen : 2 * 2 ≤ p.length
    · rw [if_pos hlen] at h
      rcases wireParam_cases hlen with ⟨w, rest, hw, rfl⟩ | ⟨type, n, q, htype, hn, hq, rfl⟩
      · rw [decodeParam_bytes hw] at h
        cases hfirst : w.step exttype st with
        | none =>
          rw [hfirst] at h
          cases h
        | some st₁ =>
          rw [hfirst] at h
          obtain ⟨ws, hfits, rfl, hrest⟩ := ih h
          refine ⟨w :: ws, ?_, rfl, ?_⟩
          · intro w' hw'
            rcases List.mem_cons.mp hw' with rfl | hmem
            · exact hw
            · exact hfits w' hmem
          · rw [List.foldlM_cons, hfirst]
            exact hrest
      · rw [decodeParam_truncated htype hn hq] at h
        cases h
    · rw [if_neg hlen] at h
      have hends := Prod.mk.inj (ok_inj.mp h)
      exact ⟨[], by simp, hends.2, congrArg some hends.1⟩

/-! ## The parameters that were received -/

theorem hasParam_eq (flags : Nat) (id : TransportParamId) :
    hasParam flags id = flags.testBit id.code := by
  unfold hasParam
  rw [Nat.one_shiftLeft]
  cases hbit : flags.testBit id.code with
  | false =>
    have hzero : flags &&& 2 ^ id.code = 0 := by
      apply Nat.eq_of_testBit_eq
      intro i
      rw [Nat.testBit_and, Nat.testBit_two_pow, Nat.zero_testBit]
      by_cases hi : id.code = i
      · rw [← hi, hbit, Bool.false_and]
      · rw [decide_eq_false hi, Bool.and_false]
    rw [hzero]
    rfl
  | true =>
    have hne : flags &&& 2 ^ id.code ≠ 0 := by
      intro hzero
      have hbit' := congrArg (Nat.testBit · id.code) hzero
      rw [Nat.testBit_and, hbit, Nat.testBit_two_pow_self, Nat.zero_testBit] at hbit'
      cases hbit'
    exact bne_iff_ne.mpr hne

theorem hasParam_set (flags : Nat) (id id' : TransportParamId) :
    hasParam (flags ||| 1 <<< id.code) id' = true ↔ hasParam flags id' = true ∨ id = id' := by
  rw [hasParam_eq, hasParam_eq, Nat.testBit_or, Nat.one_shiftLeft, Nat.testBit_two_pow,
    Bool.or_eq_true, decide_eq_true_eq]
  apply or_congr_right
  constructor
  · exact code_inj
  · intro h
    rw [h]

theorem WireParam.step_hasParam {exttype : TransportParamsType} {st st' : ParamsState}
    {w : WireParam}
    (h : w.step exttype st = some st') (id : TransportParamId) :
    hasParam st'.flags id = true ↔ hasParam st.flags id = true ∨ w.type = id.code := by
  unfold WireParam.step at h
  cases hid : TransportParamId.ofCode w.type with
  | none =>
    rw [hid] at h
    obtain rfl := Option.some.inj h
    have hne : w.type ≠ id.code := by
      intro hc
      rw [hc, ofCode_code] at hid
      cases hid
    simp only [hne, or_false]
  | some id' =>
    rw [hid] at h
    dsimp only at h
    split at h
    · obtain ⟨params, -, rfl⟩ := Option.map_eq_some_iff.mp h
      rw [hasParam_set, ← code_of_ofCode hid]
      apply or_congr_right
      constructor
      · intro heq
        rw [heq]
      · exact code_inj
    · cases h

/-- After the loop the flags tell which parameters were received. -/
theorem foldlM_hasParam {exttype : TransportParamsType} {st st' : ParamsState} {ws : List WireParam}
    (h : ws.foldlM (WireParam.step exttype) st = some st') (id : TransportParamId) :
    hasParam st'.flags id = true ↔ hasParam st.flags id = true ∨ ∃ w ∈ ws, w.type = id.code := by
  induction ws generalizing st with
  | nil =>
    obtain rfl := Option.some.inj h
    simp
  | cons w ws ih =>
    rw [List.foldlM_cons] at h
    obtain ⟨st₁, hfirst, hrest⟩ := Option.bind_eq_some_iff.mp h
    rw [ih hrest, WireParam.step_hasParam hfirst, List.exists_mem_cons_iff, or_assoc]

theorem foldlM_isSome_iff {exttype : TransportParamsType} {st : ParamsState} {ws : List WireParam} :
    (∃ st', ws.foldlM (WireParam.step exttype) st = some st') ↔ ∀ w ∈ ws, w.Valid exttype := by
  induction ws generalizing st with
  | nil => exact iff_of_true ⟨st, rfl⟩ (by simp)
  | cons w ws ih =>
    have hstep : (w.step exttype st).isSome = true ↔ w.Valid exttype := WireParam.step_isSome_iff
    rw [List.foldlM_cons, List.forall_mem_cons, ← hstep]
    cases hfirst : w.step exttype st with
    | none =>
      refine iff_of_false ?_ fun hc => Bool.false_ne_true hc.1
      rintro ⟨st', hc⟩
      cases hc
    | some st₁ =>
      constructor
      · intro h
        exact ⟨rfl, ih.mp h⟩
      · intro h
        exact ih.mpr h.2

theorem required_iff (flags : Nat) : flags &&& requiredTransportParams = requiredTransportParams ↔
    hasParam flags .initialMaxStreamData = true ∧ hasParam flags .initialMaxData = true ∧
      hasParam flags .idleTimeout = true := by
  have hreq : ∀ i, requiredTransportParams.testBit i = (i == 0 || i == 1 || i == 3) := by
    intro i
    by_cases hi : i < 4
    · have hall : ∀ j < 4, requiredTransportParams.testBit j = (j == 0 || j == 1 || j == 3) := by
        decide
      exact hall i hi
    · have hlt : requiredTransportParams < 2 ^ i :=
        Nat.lt_of_lt_of_le (by decide : requiredTransportParams < 2 ^ 4)
          (Nat.pow_le_pow_right (by decide) (by omega))
      rw [Nat.testBit_lt_two_pow hlt]
      have h0 : (i == 0) = false := beq_eq_false_iff_ne.mpr (by omega)
      have h1 : (i == 1) = false := beq_eq_false_iff_ne.mpr (by omega)
      have h3 : (i == 3) = false := beq_eq_false_iff_ne.mpr (by omega)
      rw [h0, h1, h3]
      rfl
  rw [hasParam_eq, hasParam_eq, hasParam_eq]
  constructor
  · intro h
    have hbit : ∀ i, requiredTransportParams.testBit i = true → flags.testBit i = true := by
      intro i hi
      rw [← h, Nat.testBit_and, Bool.and_eq_true] at hi
      exact hi.1
    exact ⟨hbit 0 (by decide), hbit 1 (by decide), hbit 3 (by decide)⟩
  · rintro ⟨h0, h1, h3⟩
    apply Nat.eq_of_testBit_eq
    intro i
    rw [Nat.testBit_and]
    cases hi : requiredTransportParams.testBit i with
    | false => rw [Bool.and_false]
    | true =>
      rw [hreq] at hi
      simp only [Bool.or_eq_true, beq_iff_eq] at hi
      rcases hi with (rfl | rfl) | rfl
      · rw [Bool.and_true]
        exact h0
      · rw [Bool.and_true]
        exact h1
      · rw [Bool.and_true]
        exact h3

/-- The checks behind the loop. -/
theorem requiredIds_iff {exttype : TransportParamsType} {flags : Nat} :
    (∀ id ∈ requiredIds exttype, hasParam flags id = true) ↔
      flags &&& requiredTransportParams = requiredTransportParams ∧
        ¬(exttype ≠ .clientHello ∧ hasParam flags .statelessResetToken = false) := by
  rw [required_iff]
  cases exttype <;> simp [requiredIds, and_assoc]

/-! ## The whole input -/

section
variable {exttype : TransportParamsType} {data part : List UInt8} {ws : List WireParam}

/-- What the decoder makes of a well-formed input. -/
theorem WellFormedParams.decode (h : WellFormedParams exttype data part ws)
    {params params₁ : Ngtcp2TransportParams}
    (hpart : decodeVersionPart exttype params (part ++ (putUint16be (ws.flatMap WireParam.bytes).length ++
      ws.flatMap WireParam.bytes)) = ok (part.length, params₁, putUint16be (ws.flatMap WireParam.bytes).length ++
        ws.flatMap WireParam.bytes)) {st : ParamsState}
    (hst : ws.foldlM (WireParam.step exttype) ⟨0, params₁⟩ = some st) :
    ngtcp2DecodeTransportParams params exttype data = ok (restoreDefaults st.flags st.params) := by
  have hlen : data.length = part.length + 2 + (ws.flatMap WireParam.bytes).length := by
    rw [h.data, List.length_append, List.length_append, putUint16be_length, Nat.add_assoc]
  have hrequired := requiredIds_iff.mp fun id hid =>
    (foldlM_hasParam hst id).mpr (.inr (h.required id hid))
  unfold ngtcp2DecodeTransportParams
  rw [h.data, hpart, ok_andThen]
  dsimp only
  rw [if_neg (by rw [List.length_append, putUint16be_length]; omega), readUint16_put h.length,
    ok_andThen]
  dsimp only
  rw [← h.data, if_neg (not_not_intro hlen.symm), decodeParams_bytes (by omega) h.fits hst,
    ok_andThen]
  dsimp only
  rw [if_neg (by simp), if_neg (not_not_intro hrequired.1), if_neg hrequired.2]

theorem WellFormedParams.accepted (h : WellFormedParams exttype data part ws)
    (params : Ngtcp2TransportParams) :
    ∃ params', ngtcp2DecodeTransportParams params exttype data = ok params' := by
  obtain ⟨params₁, hpart⟩ := decodeVersionPart_part h.version params
    (putUint16be (ws.flatMap WireParam.bytes).length ++ ws.flatMap WireParam.bytes)
  obtain ⟨st, hst⟩ : ∃ st, ws.foldlM (WireParam.step exttype) ⟨0, params₁⟩ = some st :=
    foldlM_isSome_iff.mpr h.valid
  exact ⟨_, h.decode hpart hst⟩

/-- What follows the version part: the length, and the parameters. -/
theorem decodeTransportParams_rest {params params' : Ngtcp2TransportParams} {q : List UInt8}
    (hpart : IsVersionPart exttype part) (hdata : data = part ++ q)
    (hok : ngtcp2DecodeTransportParams params exttype data = ok params') :
    ∃ ws, WellFormedParams exttype data part ws := by
  obtain ⟨params₁, hdecode⟩ := decodeVersionPart_part hpart params q
  unfold ngtcp2DecodeTransportParams at hok
  rw [hdata, hdecode, ok_andThen] at hok
  dsimp only at hok
  by_cases hshort : q.length < 2
  · rw [if_pos hshort] at hok
    cases hok
  rw [if_neg hshort] at hok
  obtain ⟨n, p, hn, rfl, hread⟩ := readUint16_of_le (p := q) (by omega)
  rw [hread, ok_andThen] at hok
  dsimp only at hok
  rw [← hdata] at hok
  by_cases hlen : part.length + 2 + n = data.length
  · rw [if_neg (not_not_intro hlen)] at hok
    obtain ⟨⟨st, p'⟩, hloop, hchecks⟩ := andThen_ok_iff.mp hok
    clear hok
    dsimp only at hchecks
    by_cases hend : p'.length = 0
    · obtain rfl := List.length_eq_zero_iff.mp hend
      obtain ⟨ws, hfits, rfl, hst⟩ := decodeParams_ok hloop
      have hn' : n = (ws.flatMap WireParam.bytes).length := by
        rw [hdata, List.length_append, List.length_append, putUint16be_length] at hlen
        omega
      rw [if_neg (not_not_intro hend)] at hchecks
      refine ⟨ws, hpart, by omega, by rw [hdata, hn'], hfits, foldlM_isSome_iff.mp ⟨st, hst⟩, ?_⟩
      by_cases hreq : st.flags &&& requiredTransportParams = requiredTransportParams
      · by_cases htoken : exttype ≠ .clientHello ∧ hasParam st.flags .statelessResetToken = false
        · rw [if_neg (not_not_intro hreq), if_pos htoken] at hchecks
          cases hchecks
        · intro id hid
          have hreceived := (foldlM_hasParam hst id).mp (requiredIds_iff.mpr ⟨hreq, htoken⟩ id hid)
          refine hreceived.resolve_left ?_
          unfold hasParam
          simp
      · rw [if_pos hreq] at hchecks
        cases hchecks
    · rw [if_pos hend] at hchecks
      cases hchecks
  · rw [if_pos hlen] at hok
    cases hok

/-- The decoder reads and writes only what is there, it ends, and it accepts exactly the well-formed inputs. -/
theorem ngtcp2DecodeTransportParams_accepts (params : Ngtcp2TransportParams)
    (exttype : TransportParamsType)
    (data : List UInt8) : ngtcp2DecodeTransportParams params exttype data ≠ none ∧
      ((∃ params', ngtcp2DecodeTransportParams params exttype data = ok params') ↔
        ∃ part ws, WellFormedParams exttype data part ws) := by
  have haccepts : ∀ part ws, WellFormedParams exttype data part ws →
      ∃ params', ngtcp2DecodeTransportParams params exttype data = ok params' :=
        fun _ _ h => h.accepted params
  rcases decodeVersionPart_cases exttype params data with hbad | ⟨part, q, hpart, hdata⟩
  · have herr : ngtcp2DecodeTransportParams params exttype data =
      error .malformedTransportParam := by
      unfold ngtcp2DecodeTransportParams
      rw [hbad, error_andThen]
    refine ⟨by rw [herr]; exact Option.some_ne_none _, ?_⟩
    constructor
    · rintro ⟨params', hok⟩
      rw [herr] at hok
      exact absurd hok error_ne_ok
    · rintro ⟨part, ws, h⟩
      exact haccepts part ws h
  · constructor
    · obtain ⟨params₁, hdecode⟩ := decodeVersionPart_part hpart params q
      unfold ngtcp2DecodeTransportParams
      rw [hdata, hdecode, ok_andThen]
      dsimp only
      split
      · exact Option.some_ne_none _
      next hshort =>
      obtain ⟨n, p, hn, rfl, hread⟩ := readUint16_of_le (p := q) (by omega)
      rw [hread, ok_andThen]
      dsimp only
      split
      · exact Option.some_ne_none _
      apply andThen_ne_none
      · apply decodeParams_ne_none
        simp only [List.length_append]
        omega
      · rintro ⟨st, p'⟩ -
        dsimp only
        split
        · exact Option.some_ne_none _
        split
        · exact Option.some_ne_none _
        split <;> exact Option.some_ne_none _
    · constructor
      · rintro ⟨params', hok⟩
        exact ⟨part, decodeTransportParams_rest hpart hdata hok⟩
      · rintro ⟨part', ws, h⟩
        exact haccepts part' ws h

end

end Ngtcp2
