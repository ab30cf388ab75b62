import Polygon.StreamStep

/-!
# What the application gets of a stream

Runs of `conn_recv_stream` over the STREAM frames of one stream that are slices of
one byte string, in any order and with any overlap.
-/
namespace Ngtcp2

open Ranges

/-- The frames are processed one after the other. -/
def connRecvStreams : List StreamFrame → Conn → Result Unit
  | [], conn => (.ok (), conn)
  | fr :: frs, conn => (connRecvStream conn fr).andThen fun _ conn => connRecvStreams frs conn

/-- The frame carries the bytes of `s` at its offset. -/
structure SliceOf (s : List UInt8) (fr : StreamFrame) : Prop where
  end_le : fr.endOffset ≤ s.length
  data_eq : fr.data = (s.drop fr.offset).take fr.data.length

/-- The byte string as the content of a stream. -/
def content (s : List UInt8) (n : Nat) : UInt8 := s.getD n 0

theorem SliceOf.agree {s : List UInt8} {fr : StreamFrame} (h : SliceOf s fr) (i : Nat)
    (hi : i < fr.data.length) : content s (fr.offset + i) = fr.data[i] := by
  have hlt : fr.offset + i < s.length := by
    have := h.end_le
    unfold StreamFrame.endOffset at this
    omega
  have hget : fr.data[i]? = s[fr.offset + i]? := by
    rw [h.data_eq, List.getElem?_take_of_lt hi, List.getElem?_drop]
  rw [content, List.getD_eq_getElem?_getD, ← hget, List.getElem?_eq_getElem hi, Option.getD_some]

theorem slice_content {s : List UInt8} {e : Nat} (he : e ≤ s.length) :
    slice (content s) 0 e = s.take e := by
  refine List.ext_getElem (by simp [he]) fun i h₁ h₂ => ?_
  rw [slice_length] at h₁
  have hi : i < s.length := by omega
  simp [slice, content, List.getElem?_eq_getElem hi]

/-- Some processed frame covers the position. -/
def covered (frs : List StreamFrame) (n : Nat) : Bool :=
  frs.any fun fr => fr.offset ≤ n && n < fr.endOffset

@[simp] theorem covered_append_one (frs : List StreamFrame) (fr : StreamFrame) (n : Nat) :
    covered (frs ++ [fr]) n = (covered frs n || (fr.offset ≤ n && n < fr.endOffset)) := by
  simp [covered]

/-- From `n` on, the first position that no frame covers, looking at `fuel` positions. -/
def scanCovered (frs : List StreamFrame) : Nat → Nat → Nat
  | 0, n => n
  | fuel + 1, n => if covered frs n then scanCovered frs fuel (n + 1) else n

/-- The first position that no frame covers. -/
def firstUncovered (frs : List StreamFrame) : Nat :=
  scanCovered frs (frs.foldr (fun fr m => max fr.endOffset m) 0) 0

theorem lt_foldr_of_covered {frs : List StreamFrame} {n : Nat} (h : covered frs n = true) :
    n < frs.foldr (fun fr m => max fr.endOffset m) 0 := by
  induction frs with
  | nil => simp [covered] at h
  | cons fr frs ih =>
    simp only [covered, List.any_cons, Bool.or_eq_true, Bool.and_eq_true, decide_eq_true_eq] at h
    rw [List.foldr_cons]
    rcases h with ⟨_, hlt⟩ | h
    · omega
    · have := ih h
      omega

theorem firstUncovered_spec (frs : List StreamFrame) :
    (∀ n, n < firstUncovered frs → covered frs n = true) ∧
    covered frs (firstUncovered frs) = false := by
  have hscan : ∀ fuel n, (∀ k, k < n → covered frs k = true) →
      frs.foldr (fun fr m => max fr.endOffset m) 0 ≤ n + fuel →
      (∀ k, k < scanCovered frs fuel n → covered frs k = true) ∧
        covered frs (scanCovered frs fuel n) = false := by
    intro fuel
    induction fuel with
    | zero =>
      intro n hn hle
      refine ⟨hn, ?_⟩
      by_contra hc
      have := lt_foldr_of_covered (by simpa using hc)
      change n < _ at this
      omega
    | succ fuel ih =>
      intro n hn hle
      simp only [scanCovered]
      split
      · next hc =>
        refine ih (n + 1) (fun k hk => ?_) (by omega)
        by_cases hkn : k = n
        · exact hkn ▸ hc
        · exact hn k (by omega)
      · next hc => exact ⟨hn, by simpa using hc⟩
  exact hscan _ 0 (fun _ hk => absurd hk (Nat.not_lt_zero _)) (by omega)

/-- A position that no frame covers, with every position before it covered, is the first one. -/
theorem firstUncovered_eq {frs : List StreamFrame} {m : Nat} (hm : covered frs m = false)
    (hlt : ∀ n, n < m → covered frs n = true) : firstUncovered frs = m := by
  obtain ⟨hbelow, hfirst⟩ := firstUncovered_spec frs
  rcases Nat.lt_trichotomy (firstUncovered frs) m with h | h | h
  · simp [hlt _ h] at hfirst
  · exact h
  · simp [hbelow _ h] at hm

theorem le_firstUncovered {frs : List StreamFrame} {m : Nat}
    (h : ∀ n, n < m → covered frs n = true) :
    m ≤ firstUncovered frs := by
  refine Nat.le_of_not_lt fun hlt => ?_
  have hfirst := (firstUncovered_spec frs).2
  simp [h _ hlt] at hfirst

/-- The final offset that a FIN frame announced. -/
def finalOffset (frs : List StreamFrame) : Option Nat := (frs.find? (·.fin)).map (·.endOffset)

/-- The end of the prefix that the frames let the application have: the first position not
covered, and not beyond the final offset. -/
def deliveredEnd (frs : List StreamFrame) : Nat :=
  match finalOffset frs with
  | none => firstUncovered frs
  | some final => min (firstUncovered frs) final

theorem finalOffset_none {frs : List StreamFrame} (h : frs.any (·.fin) = false) :
    finalOffset frs = none := by
  have hno : frs.find? (·.fin) = none := by
    rw [List.find?_eq_none]
    intro fr hfr hfin
    simp only [List.any_eq_false] at h
    exact h fr hfr hfin
  rw [finalOffset, hno, Option.map_none]

theorem finalOffset_some {frs : List StreamFrame} {last : Nat} (h : frs.any (·.fin) = true)
    (hlast : ∀ fr ∈ frs, fr.fin = true → fr.endOffset = last) : finalOffset frs = some last := by
  obtain ⟨fr, hfr, hfin⟩ := List.any_eq_true.mp h
  cases hf : frs.find? (·.fin) with
  | none => exact absurd hfin (List.find?_eq_none.mp hf fr hfr)
  | some fr' =>
    have hfin' : fr'.fin = true := List.find?_some hf
    rw [finalOffset, hf, Option.map_some, hlast fr' (List.mem_of_find?_eq_some hf) hfin']

/-! ## The invariant of a run -/

section
variable {s : List UInt8} {id : Nat} {frs : List StreamFrame} {fr : StreamFrame} {evs : List Event}
  {conn conn₁ : Conn} {strm : Strm}

/-- The stream has its object, and everything received is delivered or buffered. -/
structure Receiving (s : List UInt8) (id : Nat) (frs : List StreamFrame) (evs : List Event)
    (conn : Conn)
    (strm : Strm) : Prop where
  find : conn.strms id = some strm
  sid : strm.streamId = id
  used : UsedId conn id
  rx : StrmRx (content s) strm
  noStop : strm.stopSending = false
  noRst : strm.recvRst = false
  gap : ∀ n, n < uint64Max → (InGap strm.rob.gap n ↔ covered frs n = false)
  shut : strm.shutRd = frs.any (·.fin)
  fin_eq : ∀ fr ∈ frs, fr.fin = true → fr.endOffset = strm.lastRxOffset
  data : deliveredData id evs = slice (content s) 0 (strmRxOffset strm)
  fins : finCount id evs = if strm.shutRd = true ∧
    strmRxOffset strm = strm.lastRxOffset then 1 else 0

/-- The stream was delivered up to its final offset and closed. -/
structure Finished (s : List UInt8) (id : Nat) (frs : List StreamFrame) (evs : List Event)
    (conn : Conn)
    (last : Nat) : Prop where
  closed : conn.strms id = none
  used : UsedId conn id
  fin : frs.any (·.fin) = true
  fin_eq : ∀ fr ∈ frs, fr.fin = true → fr.endOffset = last
  covers : ∀ n, n < last → covered frs n = true
  data : deliveredData id evs = slice (content s) 0 last
  fins : finCount id evs = 1

/-- The report of the end comes with the state in which the last byte is delivered. -/
theorem Received.fins {w' : Nat → UInt8} {strm' : Strm} (h : Received w' strm strm' fr evs)
    {w : Nat → UInt8} (hrx : StrmRx w strm) (hstop : strm.stopSending = false) :
    (if strm.shutRd = true ∧ strmRxOffset strm = strm.lastRxOffset then 1 else 0) +
        (if FinReported strm strm' fr then 1 else 0) =
      if strm'.shutRd = true ∧ strmRxOffset strm' = strm'.lastRxOffset then 1 else 0 := by
  have hshut : strm'.shutRd = (strm.shutRd || fr.fin) := by rw [h.same]
  have hlast : strm'.lastRxOffset = max strm.lastRxOffset fr.endOffset := by rw [h.same]
  have hle := hrx.rx_le
  have hle' := h.rx.rx_le
  have hmono : strmRxOffset strm ≤ strmRxOffset strm' :=
    hrx.rob.gaps.firstGap_le ((h.gap _).mp h.rx.rob.inGap_firstGap).1
  have hshut_le := h.shut_le
  have hle_fin := h.le_fin
  have hreported : FinReported strm strm' fr ↔
      (strm.shutRd = false ∧ fr.fin = true ∧ fr.endOffset = strmRxOffset strm) ∨
        (strmRxOffset strm < strmRxOffset strm' ∧ (strm.shutRd = true ∨ fr.fin = true) ∧
          strmRxOffset strm' = max strm.lastRxOffset fr.endOffset) := by
    rw [FinReported, hshut, hlast, Bool.or_eq_true, frameDropped, hstop]
    refine or_congr_left ?_
    cases fr.fin <;> simp
  rw [hlast] at hle'
  simp only [hreported, hshut, hlast, Bool.or_eq_true]
  cases hs : strm.shutRd with
  | true =>
    have hend : max strm.lastRxOffset fr.endOffset = strm.lastRxOffset :=
      Nat.max_eq_left (hshut_le hs)
    simp only [hend, Bool.true_eq_false, false_and, false_or, true_or, true_and] at hle' ⊢
    split <;> split <;> split <;> omega
  | false =>
    cases hf : fr.fin with
    | false => simp
    | true =>
      have hend : max strm.lastRxOffset fr.endOffset = fr.endOffset := Nat.max_eq_right (hle_fin hf)
      simp only [hend, Bool.false_eq_true, false_and, or_true, true_and, ↓reduceIte,
        Nat.zero_add] at hle' ⊢
      split <;> split <;> omega
/-- An accepted frame, before the check whether the stream is done. -/
theorem Receiving.received {strm' : Strm} {evs' : List Event} {conn' : Conn}
    (h : Receiving s id frs evs conn₁ strm) (hfr : fr.streamId = id)
    (hsame : ∀ fr' ∈ frs, fr'.fin = true → fr.fin = true → fr' = fr)
    (hrec : Received (content s) strm strm' fr evs') (hfind : conn'.strms id = some strm')
    (hused : UsedId conn' id) : Receiving s id (frs ++ [fr]) (evs ++ evs') conn' strm' := by
  have hshut : strm'.shutRd = (strm.shutRd || fr.fin) := by rw [hrec.same]
  have hlast : strm'.lastRxOffset = max strm.lastRxOffset fr.endOffset := by rw [hrec.same]
  have hmono : strmRxOffset strm ≤ strmRxOffset strm' :=
    h.rx.rob.gaps.firstGap_le ((hrec.gap _).mp hrec.rx.rob.inGap_firstGap).1
  refine ⟨hfind, ?_, hused, hrec.rx, ?_, ?_, fun n hn => ?_, ?_, fun fr' hfr' hfin' => ?_, ?_, ?_⟩
  · rw [hrec.same]
    exact h.sid
  · rw [hrec.same]
    exact h.noStop
  · rw [hrec.same]
    exact h.noRst
  · rw [hrec.gap, h.gap n hn, covered_append_one, Bool.or_eq_false_iff]
    refine and_congr_right fun hc => ?_
    simp only [Bool.and_eq_false_iff, decide_eq_false_iff_not, ← Decidable.not_and_iff_or_not]
    refine not_congr ⟨And.right, fun hcov => ⟨?_, hcov⟩⟩
    -- A dropped frame repeats the FIN frame that was processed before.
    by_contra hd
    simp only [frameDropped, h.noStop, Bool.false_or, Bool.and_eq_false_iff, not_or,
      Bool.not_eq_false] at hd
    rw [h.shut] at hd
    obtain ⟨fr', hfr', hfin'⟩ := List.any_eq_true.mp hd.2
    obtain rfl := hsame fr' hfr' hfin' hd.1
    have : covered frs n = true := List.any_eq_true.mpr ⟨fr', hfr', by simpa using hcov⟩
    simp [this] at hc
  · rw [hshut, h.shut]
    simp
  · rw [hlast]
    rcases List.mem_append.mp hfr' with hfr' | hfr'
    · have hs : strm.shutRd = true := by
        rw [h.shut]
        exact List.any_eq_true.mpr ⟨fr', hfr', hfin'⟩
      have hend := hrec.shut_le hs
      have := h.fin_eq fr' hfr' hfin'
      omega
    · obtain rfl := List.mem_singleton.mp hfr'
      have := hrec.le_fin hfin'
      omega
  · have hdata := hrec.told.data_eq
    rw [h.sid] at hdata
    rw [deliveredData_append, h.data, hdata, slice_append _ (Nat.zero_le _) hmono]
  · have hfins := hrec.told.fins_eq
    rw [h.sid] at hfins
    rw [finCount_append, h.fins, hfins]
    exact hrec.fins h.rx h.noStop

/-- A stream that is closed after a frame was delivered to its end. -/
theorem Receiving.finish {conn' : Conn} (h : Receiving s id frs evs conn strm)
    (hshut : strmShutRdwr strm = true) (hclosed : Closed conn id conn') (code : Nat) :
    Finished s id frs (evs ++ [.streamClose id code]) conn' strm.lastRxOffset := by
  simp only [strmShutRdwr, h.noRst, Bool.false_or, Bool.and_eq_true, beq_iff_eq] at hshut
  have hrx : strmRxOffset strm = strm.lastRxOffset := hshut.1.2
  refine ⟨?_, ?_, ?_, h.fin_eq, fun n hn => ?_, ?_, ?_⟩
  · rw [hclosed.strms]
    simp [Conn.removeStrm]
  · rw [UsedId, connLocalStream, hclosed.server, hclosed.remoteIdtr]
    exact h.used
  · rw [← h.shut]
    exact hshut.1.1.1
  · have hlt : n < strmRxOffset strm := by omega
    have hmax := h.rx.last_le
    have hg := h.gap n (by unfold maxVarint uint64Max at *; omega)
    by_contra hc
    exact h.rx.rob.not_inGap_of_lt hlt (hg.mpr (by simpa using hc))
  · rw [deliveredData_append, h.data, hrx]
    exact List.append_nil _
  · rw [finCount_append, h.fins, if_pos ⟨hshut.1.1.1, hrx⟩]
    rfl

/-- What holds of the stream after some of its frames. -/
def RxState (s : List UInt8) (id : Nat) (frs : List StreamFrame) (evs : List Event) (conn : Conn) :
    Prop :=
  (∃ strm, Receiving s id frs evs conn strm) ∨ ∃ last, Finished s id frs evs conn last

/-- One frame for a stream that has its object, or gets it now. -/
theorem Receiving.step (hid : id ≠ 0) (hfr : fr.streamId = id) (hslice : SliceOf s fr)
    (hsame : ∀ fr' ∈ frs, fr'.fin = true → fr.fin = true → fr' = fr)
    (hfind : connFindOrOpenStream conn fr.streamId = (.ok (some strm), conn₁))
    (h : Receiving s id frs evs conn₁ strm) :
    Refused (connRecvStream conn fr) ∨ ∃ conn' evs', connRecvStream conn fr = (.ok (), conn') ∧
      conn'.log = conn₁.log ++ evs' ∧ RxState s id (frs ++ [fr]) (evs ++ evs') conn' := by
  have hstrm : conn₁.strms strm.streamId = some strm := by
    rw [h.sid]
    exact h.find
  rcases connRecvStream_spec hfind hstrm (by rw [h.sid]; exact hid) h.rx
    (Writes.of_agree hslice.agree) with href | ⟨strm', evs', fc, hrec, _, hends⟩
  · exact .inl href
  generalize hdone : frameDone (conn₁.setRxOffset _) fc strm' evs' = conn₂ at hends
  have hsid : strm'.streamId = id := by
    rw [hrec.same]
    exact h.sid
  have hfind₂ : conn₂.strms id = some strm' := by
    rw [← hdone, ← hsid]
    exact if_pos rfl
  have hused₂ : UsedId conn₂ id := by
    rw [← hdone]
    exact h.used
  have hlog₂ : conn₂.log = conn₁.log ++ evs' := by rw [← hdone]; rfl
  have hrecv := h.received hfr hsame hrec hfind₂ hused₂
  rcases hends with heq | ⟨code, heq⟩
  · exact .inr ⟨conn₂, evs', heq, hlog₂, .inl ⟨strm', hrecv⟩⟩
  rw [heq, ngtcp2ConnCloseStreamIfShutRdwr]
  split
  · next hshut =>
    rcases ngtcp2ConnCloseStream_spec strm' code (hsid ▸ hfind₂) with
      href | ⟨conn', hclose, hclosed⟩
    · exact .inl href
    · obtain ⟨code', hlog⟩ := hclosed.log
      rw [hsid] at hlog hclosed
      refine .inr ⟨conn', evs' ++ [.streamClose id code'], hclose, ?_,
        .inr ⟨strm'.lastRxOffset, ?_⟩⟩
      · rw [hlog, hlog₂, List.append_assoc]
      · rw [← List.append_assoc]
        exact hrecv.finish hshut hclosed code'
  · exact .inr ⟨conn₂, evs', rfl, hlog₂, .inl ⟨strm', hrecv⟩⟩

/-- A frame for a stream that was closed is ignored. -/
theorem Finished.step {last : Nat} (hfr : fr.streamId = id)
    (hsame : ∀ fr' ∈ frs, fr'.fin = true → fr.fin = true → fr' = fr)
    (h : Finished s id frs evs conn last) :
    Refused (connRecvStream conn fr) ∨
      (connRecvStream conn fr = (.ok (), conn) ∧ Finished s id (frs ++ [fr]) evs conn last) := by
  refine (connRecvStream_closed (hfr ▸ h.closed) (hfr ▸ h.used)).imp_right fun heq => ⟨heq, ?_⟩
  refine ⟨h.closed, h.used, by simp [h.fin], fun fr' hfr' hfin' => ?_, fun n hn => ?_, h.data, h.fins⟩
  · rcases List.mem_append.mp hfr' with hfr' | hfr'
    · exact h.fin_eq fr' hfr' hfin'
    · obtain rfl := List.mem_singleton.mp hfr'
      obtain ⟨fr'', hfr'', hfin''⟩ := List.any_eq_true.mp h.fin
      rw [← hsame fr'' hfr'' hfin'' hfin']
      exact h.fin_eq fr'' hfr'' hfin''
  · simp [h.covers n hn]

theorem RxState.step (hid : id ≠ 0) (hfr : fr.streamId = id) (hslice : SliceOf s fr)
    (hsame : ∀ fr' ∈ frs, fr'.fin = true → fr.fin = true → fr' = fr)
    (h : RxState s id frs evs conn) :
    Refused (connRecvStream conn fr) ∨ ∃ conn' evs', connRecvStream conn fr = (.ok (), conn') ∧
      conn'.log = conn.log ++ evs' ∧ RxState s id (frs ++ [fr]) (evs ++ evs') conn' := by
  rcases h with ⟨strm, h⟩ | ⟨last, h⟩
  · refine h.step hid hfr hslice hsame (connFindOrOpenStream_find ?_)
    rw [hfr]
    exact h.find
  · refine (h.step hfr hsame).imp_right fun ⟨heq, hfin⟩ => ⟨conn, [], heq, ?_, .inr ⟨last, ?_⟩⟩
    · rw [List.append_nil]
    · rw [List.append_nil]
      exact hfin

/-- A run is refused somewhere, or the invariant holds at its end. -/
theorem RxState.run (hid : id ≠ 0) {rest : List StreamFrame} :
    ∀ {frs : List StreamFrame} {evs : List Event} {conn : Conn}, RxState s id frs evs conn →
      (∀ fr ∈ rest, fr.streamId = id ∧ SliceOf s fr) →
      (∀ fr ∈ frs ++ rest, ∀ fr' ∈ frs ++ rest, fr.fin = true → fr'.fin = true → fr = fr') →
      Refused (connRecvStreams rest conn) ∨
      ∃ conn' evs', connRecvStreams rest conn = (.ok (), conn') ∧
        conn'.log = conn.log ++ evs' ∧ RxState s id (frs ++ rest) (evs ++ evs') conn' := by
  induction rest with
  | nil =>
    intro frs evs conn h _ _
    refine .inr ⟨conn, [], rfl, by simp, ?_⟩
    rw [List.append_nil, List.append_nil]
    exact h
  | cons fr rest ih =>
    intro frs evs conn h hfrs hsame
    obtain ⟨hfr, hslice⟩ := hfrs fr (List.mem_cons_self ..)
    have hsame₁ : ∀ fr' ∈ frs, fr'.fin = true → fr.fin = true → fr' = fr := fun fr' hfr' =>
      hsame fr' (List.mem_append_left _ hfr') fr (List.mem_append_right _ (List.mem_cons_self ..))
    rcases h.step hid hfr hslice hsame₁ with ⟨e, conn', he, hne⟩ | ⟨conn', evs', heq, hlog, h'⟩
    · refine .inl ⟨e, conn', ?_, hne⟩
      rw [connRecvStreams, he, andThen_error]
    rw [connRecvStreams, heq, andThen_ok]
    rcases ih h' (fun fr' hfr' => hfrs fr' (List.mem_cons_of_mem _ hfr'))
      (by simpa using hsame) with
      href | ⟨conn'', evs'', heq', hlog', h''⟩
    · exact .inl href
    · refine .inr ⟨conn'', evs' ++ evs'', heq', ?_, ?_⟩
      · rw [hlog', hlog, List.append_assoc]
      · simpa using h''

theorem Receiving.firstUncovered_eq (h : Receiving s id frs evs conn strm) :
    firstUncovered frs = strmRxOffset strm := by
  have hmax := h.rx.rob.firstGap_le_max
  have hlt : ∀ n, n ≤ strmRxOffset strm → n < uint64Max := fun n hn => by
    unfold strmRxOffset maxVarint uint64Max at *
    omega
  refine Ngtcp2.firstUncovered_eq ((h.gap _ (hlt _ (Nat.le_refl _))).mp h.rx.rob.inGap_firstGap)
    fun n hn => ?_
  by_contra hc
  exact h.rx.rob.not_inGap_of_lt hn ((h.gap n (hlt n (Nat.le_of_lt hn))).mpr (by simpa using hc))

theorem Receiving.rx_le_length (h : Receiving s id frs evs conn strm)
    (hfrs : ∀ fr ∈ frs, SliceOf s fr) :
    strmRxOffset strm ≤ s.length := by
  refine Nat.le_of_not_lt fun hlt => ?_
  rw [← h.firstUncovered_eq] at hlt
  obtain ⟨fr, hfr, hcov⟩ := List.any_eq_true.mp ((firstUncovered_spec frs).1 _ hlt)
  have := (hfrs fr hfr).end_le
  simp only [Bool.and_eq_true, decide_eq_true_eq] at hcov
  omega

/-- The invariant says what the application got. -/
theorem RxState.delivered (h : RxState s id frs evs conn) (hfrs : ∀ fr ∈ frs, SliceOf s fr) :
    deliveredData id evs = s.take (deliveredEnd frs) ∧
      finCount id evs = if finalOffset frs = some (deliveredEnd frs) then 1 else 0 := by
  rcases h with ⟨strm, h⟩ | ⟨last, h⟩
  · have hle := h.rx_le_length hfrs
    have hrx := h.rx.rx_le
    cases hfin : frs.any (·.fin) with
    | false =>
      have hfinal := finalOffset_none hfin
      have hend : deliveredEnd frs = strmRxOffset strm := by
        rw [deliveredEnd, hfinal, h.firstUncovered_eq]
      rw [hend, hfinal, h.data, slice_content hle, h.fins, h.shut, hfin]
      simp
    | true =>
      have hfinal := finalOffset_some hfin h.fin_eq
      have hend : deliveredEnd frs = strmRxOffset strm := by
        rw [deliveredEnd, hfinal, h.firstUncovered_eq]
        exact Nat.min_eq_left hrx
      rw [hend, hfinal, h.data, slice_content hle, h.fins, h.shut, hfin]
      simp [eq_comm]
  · have hfinal := finalOffset_some h.fin h.fin_eq
    have hend : deliveredEnd frs = last := by
      rw [deliveredEnd, hfinal]
      exact Nat.min_eq_right (le_firstUncovered h.covers)
    have hlast : last ≤ s.length := by
      obtain ⟨fr, hfr, hfin⟩ := List.any_eq_true.mp h.fin
      rw [← h.fin_eq fr hfr hfin]
      exact (hfrs fr hfr).end_le
    rw [hend, hfinal, h.data, slice_content hlast, h.fins]
    simp
end

/-! ## From the first frame on -/

/-- Nothing was received on the stream. -/
structure RecvFresh (strm : Strm) : Prop where
  rob : ∃ mem, strm.rob = robInit strmRobChunk mem
  last : strm.lastRxOffset = 0
  max_le : strm.maxRxOffset ≤ maxVarint
  noRst : strm.recvRst = false

/-- The receive side is neither shut, as that of a local unidirectional stream is, nor refused. -/
structure RecvOpen (strm : Strm) : Prop where
  noShut : strm.shutRd = false
  noStop : strm.stopSending = false

/-- The stream has its object and received nothing, or it is remote and not yet opened. -/
inductive StreamStart (conn : Conn) (id : Nat) : Prop where
  | opened (strm : Strm) (find : conn.strms id = some strm) (sid : strm.streamId = id)
      (used : UsedId conn id) (fresh : RecvFresh strm)
  | unused (idtr : Idtr) (none : conn.strms id = none) (remote : connLocalStream conn id = false)
      (sorted : Sorted 0 (conn.ids (bidiStream id)).remoteIdtr.gap)
      (canOpen : idtrOpen (conn.ids (bidiStream id)).remoteIdtr id = some idtr)

theorem RecvFresh.rxOffset {strm : Strm} (h : RecvFresh strm) : strmRxOffset strm = 0 := by
  obtain ⟨mem, hrob⟩ := h.rob
  rw [strmRxOffset, hrob]
  rfl

theorem RecvFresh.rx {strm : Strm} (h : RecvFresh strm) (w : Nat → UInt8) : StrmRx w strm := by
  obtain ⟨mem, hrob⟩ := h.rob
  have hinit := robInit_inv w strmRobChunk mem (by decide)
  refine ⟨?_, ?_, ?_, h.max_le⟩
  · rw [h.rxOffset, hrob]
    exact hinit
  · rw [h.last]
    exact Nat.zero_le _
  · rw [hrob]
    intro n _ hn
    simpa [robInit, gapsInit] using hn

theorem openedStrm_fresh (conn : Conn) (id : Nat) : RecvFresh (openedStrm conn id) := by
  have hmax : conn.localSettings.maxStreamData.toNat ≤ maxVarint := by
    have := conn.localSettings.maxStreamData.toNat_lt
    unfold maxVarint
    omega
  unfold openedStrm
  dsimp only
  split
  · exact ⟨⟨_, rfl⟩, rfl, hmax, rfl⟩
  · exact ⟨⟨_, rfl⟩, rfl, hmax, rfl⟩

theorem openedStrm_open (conn : Conn) (id : Nat) : RecvOpen (openedStrm conn id) := by
  unfold openedStrm
  dsimp only
  split <;> exact ⟨rfl, rfl⟩

theorem RecvFresh.receiving {s : List UInt8} {id : Nat} {conn : Conn} {strm : Strm}
    (h : RecvFresh strm)
    (hopen : RecvOpen strm) (hfind : conn.strms id = some strm) (hsid : strm.streamId = id)
    (hused : UsedId conn id) :
    Receiving s id [] [] conn strm := by
  obtain ⟨mem, hrob⟩ := h.rob
  refine ⟨hfind, hsid, hused, h.rx _, hopen.noStop, h.noRst, fun n hn => ?_, ?_, by simp, ?_, ?_⟩
  · rw [hrob]
    simpa [robInit, gapsInit, covered] using hn
  · simp [hopen.noShut]
  · rw [h.rxOffset, slice_self]
    rfl
  · simp [hopen.noShut, finCount]

/-- The object of a remote stream, right after it was opened. -/
theorem openRemote_receiving {s : List UInt8} {id : Nat} {conn : Conn} {idtr : Idtr}
    (hsorted : Sorted 0 (conn.ids (bidiStream id)).remoteIdtr.gap)
    (hopen : idtrOpen (conn.ids (bidiStream id)).remoteIdtr id = some idtr) :
    Receiving s id [] [] (openRemote conn id idtr) (openedStrm conn id) := by
  have hsid := openedStrm_streamId conn id
  refine (openedStrm_fresh conn id).receiving (openedStrm_open conn id) ?_ hsid (.inr ?_)
  · change (if id = (openedStrm conn id).streamId then _ else _) = _
    rw [if_pos hsid.symm]
  · change idtrOpen (((conn.setIds (bidiStream id) _).ids (bidiStream id)).remoteIdtr) id = none
    rw [Conn.ids_setIds, if_pos rfl]
    exact idtrOpen_used hsorted hopen

/-- A run from the start is refused somewhere, or ends with the invariant. -/
theorem StreamStart.run {s : List UInt8} {id : Nat} {frs : List StreamFrame} {conn : Conn}
    (hid : id ≠ 0) (hstart : StreamStart conn id)
    (hopen : ∀ strm, conn.strms id = some strm → RecvOpen strm)
    (hfrs : ∀ fr ∈ frs, fr.streamId = id ∧ SliceOf s fr)
    (hfin : ∀ fr ∈ frs, ∀ fr' ∈ frs, fr.fin = true → fr'.fin = true → fr = fr') :
    Refused (connRecvStreams frs conn) ∨
    ∃ conn' evs evs', connRecvStreams frs conn = (.ok (), conn') ∧
      conn'.log = conn.log ++ evs' ++ evs ∧ (∀ ev ∈ evs', ∃ i, ev = .strmInit i) ∧
      (frs = [] ∧ evs = [] ∨ RxState s id frs evs conn') := by
  cases hstart with
  | opened strm find sid used fresh =>
    have hstate : RxState s id [] [] conn :=
      .inl ⟨strm, fresh.receiving (hopen strm find) find sid used⟩
    refine (hstate.run hid hfrs hfin).imp_right fun ⟨conn', evs, heq, hlog, h⟩ => ?_
    exact ⟨conn', evs, [], heq, by simpa using hlog, by simp, .inr h⟩
  | unused idtr none remote sorted canOpen =>
    cases frs with
    | nil => exact .inr ⟨conn, [], [], rfl, by simp, by simp, .inl ⟨rfl, rfl⟩⟩
    | cons fr frs =>
      obtain ⟨hfr, hslice⟩ := hfrs fr (List.mem_cons_self ..)
      have hfind := connFindOrOpenStream_open none remote canOpen
      rcases (openRemote_receiving sorted canOpen).step hid hfr hslice (by simp)
        (by rw [hfr]; exact hfind) with
        ⟨e, conn', he, hne⟩ | ⟨conn', evs, heq, hlog, hstate⟩
      · refine .inl ⟨e, conn', ?_, hne⟩
        rw [connRecvStreams, he, andThen_error]
      rw [connRecvStreams, heq, andThen_ok]
      refine (hstate.run hid (fun fr' hfr' => hfrs fr' (List.mem_cons_of_mem _ hfr')) hfin).imp_right ?_
      rintro ⟨conn'', evs', heq', hlog', h⟩
      refine ⟨conn'', evs ++ evs', [.strmInit id], heq', ?_, by simp, .inr (by simpa using h)⟩
      rw [hlog', hlog]
      simp [openRemote, Conn.tell]

theorem deliveredData_strmInit {id : Nat} {evs : List Event}
    (h : ∀ ev ∈ evs, ∃ i, ev = .strmInit i) :
    deliveredData id evs = [] := by
  rw [deliveredData, List.flatMap_eq_nil_iff]
  intro ev hev
  obtain ⟨i, rfl⟩ := h ev hev
  rfl

theorem finCount_strmInit {id : Nat} {evs : List Event} (h : ∀ ev ∈ evs, ∃ i, ev = .strmInit i) :
    finCount id evs = 0 := by
  rw [finCount, List.countP_eq_zero]
  intro ev hev
  obtain ⟨i, rfl⟩ := h ev hev
  simp [isFinEv]

/-- Processing any frames of a stream delivers its bytes up to the first missing one and at most
up to the final offset, and reports the end exactly when that is reached. -/
theorem connRecvStreams_delivers {s : List UInt8} {id : Nat} {frs : List StreamFrame} {conn : Conn}
    (hid : id ≠ 0) (hstart : StreamStart conn id)
    (hopen : ∀ strm, conn.strms id = some strm → RecvOpen strm)
    (hfrs : ∀ fr ∈ frs, fr.streamId = id ∧ SliceOf s fr)
    (hfin : ∀ fr ∈ frs, ∀ fr' ∈ frs, fr.fin = true → fr'.fin = true → fr = fr') :
    Refused (connRecvStreams frs conn) ∨ ∃ conn' evs, connRecvStreams frs conn = (.ok (), conn') ∧
      conn'.log = conn.log ++ evs ∧ deliveredData id evs = s.take (deliveredEnd frs) ∧
      finCount id evs = if finalOffset frs = some (deliveredEnd frs) then 1 else 0 := by
  refine (hstart.run hid hopen hfrs hfin).imp_right fun ⟨conn', evs, evs', heq, hlog, hinit,
    h⟩ => ?_
  refine ⟨conn', evs' ++ evs, heq, by rw [hlog, List.append_assoc], ?_⟩
  rw [deliveredData_append, finCount_append, deliveredData_strmInit hinit, finCount_strmInit hinit,
    List.nil_append, Nat.zero_add]
  rcases h with ⟨rfl, rfl⟩ | h
  · exact ⟨rfl, rfl⟩
  · exact h.delivered fun fr hfr => (hfrs fr hfr).2

/-- A server that lets its client open streams and send on them. -/
def smallServer : Conn := ngtcp2ConnServerNew (fun _ => 0) 1 1 quietCallbacks ⟨100, 1000, 40, 40, 3⟩

/-- The server with a unidirectional stream of its own. -/
def smallUniServer : Conn := (ngtcp2ConnOpenUniStream (connRecvMaxStreamId smallServer 3).2).2

theorem smallServer_start (id : Nat) (hnone : smallServer.strms id = none)
    (hremote : connLocalStream smallServer id = false)
    (hidtr : (smallServer.ids (bidiStream id)).remoteIdtr.gap = [⟨0, uint64Max⟩] ∨
      (smallServer.ids (bidiStream id)).remoteIdtr.gap = [⟨1, uint64Max⟩])
    {idtr : Idtr} (hopen : idtrOpen (smallServer.ids (bidiStream id)).remoteIdtr id = some idtr) :
    StreamStart smallServer id := by
  refine .unused idtr hnone hremote ?_ hopen
  rcases hidtr with h | h
  · rw [h]
    simp [Sorted, uint64Max]
  · rw [h]
    simp [Sorted, uint64Max]

theorem connRecvStreams_delivers_two : Refused (connRecvStreams
      [⟨4, 1, [8, 9], true⟩, ⟨4, 0, [7, 8], false⟩] smallServer) ∨
    ∃ conn' evs, connRecvStreams [⟨4, 1, [8, 9], true⟩, ⟨4, 0, [7, 8], false⟩] smallServer =
        (.ok (), conn') ∧ conn'.log = smallServer.log ++ evs ∧
      deliveredData 4 evs = List.take
      (deliveredEnd [⟨4, 1, [8, 9], true⟩, ⟨4, 0, [7, 8], false⟩]) [7, 8, 9] ∧
      finCount 4 evs = if finalOffset [⟨4, 1, [8, 9], true⟩, ⟨4, 0, [7, 8], false⟩] =
        some (deliveredEnd [⟨4, 1, [8, 9], true⟩, ⟨4, 0, [7, 8], false⟩]) then 1 else 0 := by
  refine connRecvStreams_delivers (by decide) (smallServer_start 4 rfl rfl (.inr rfl) rfl) ?_ ?_ ?_
  · exact fun strm h => by simp [smallServer, ngtcp2ConnServerNew, connNew] at h
  · intro fr hfr
    simp only [List.mem_cons, List.not_mem_nil, or_false] at hfr
    rcases hfr with rfl | rfl
    · exact ⟨rfl, by decide, by decide⟩
    · exact ⟨rfl, by decide, by decide⟩
  · decide

/-- A frame behind the end of a closed stream is accepted and ignored, and so is the report of the
end on a local unidirectional stream. -/
theorem connRecvStreams_ignored :
    (StreamStart smallServer 2 ∧
      (∀ fr ∈ [⟨2, 0, [7], true⟩, (⟨2, 1, [8], false⟩ : StreamFrame)], SliceOf [7, 8] fr) ∧
      (connRecvStreams [⟨2, 0, [7], true⟩, ⟨2, 1, [8], false⟩] smallServer).1 = .ok () ∧
      deliveredData 2 (connRecvStreams [⟨2, 0, [7], true⟩, ⟨2, 1, [8], false⟩] smallServer).2.log ≠
        List.take (firstUncovered [⟨2, 0, [7], true⟩, ⟨2, 1, [8], false⟩]) [7, 8]) ∧
    (connRecvStreams [⟨3, 0, [], true⟩] smallUniServer).1 = .ok () ∧
      finCount 3 (connRecvStreams [⟨3, 0, [], true⟩] smallUniServer).2.log = 0 := by
  refine ⟨⟨smallServer_start 2 rfl rfl (.inl rfl) rfl, ?_, rfl, by decide⟩, rfl, by decide⟩
  intro fr hfr
  simp only [List.mem_cons, List.not_mem_nil, or_false] at hfr
  rcases hfr with rfl | rfl
  · exact ⟨by decide, by decide⟩
  · exact ⟨by decide, by decide⟩

end Ngtcp2
