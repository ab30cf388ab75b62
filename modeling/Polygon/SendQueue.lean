import Polygon.SendBuffer

/-!
# The queues of the streams

`streambuf_idx` moves forward when a buffer was written and back when an acknowledged one
is popped. It stays behind when the packet with the last bytes of a buffer is not sent.
-/
namespace Server

open Ngtcp2

variable {ε : Type} {env : Env ε}

/-! ## A queue in two parts -/

/-- Buffers that wait: only the first of them may have been begun, and each has bytes to send. -/
def Waiting : List Buffer → Prop
  | [] => True
  | v :: later => v.head < v.data.length ∧ ∀ w ∈ later, w.head = 0 ∧ w.data ≠ []

/-- The bytes of the buffers that the library took. -/
def takenBytes (bufs : List Buffer) : Nat := (bufs.map (·.head)).sum

/-- The bytes of the buffers. -/
def totalBytes (bufs : List Buffer) : Nat := (bufs.map (·.bufsize)).sum

/-- The queue is made of buffers that were handed over, up to the index, and of buffers that wait. -/
structure Stream.Parted (s : Stream) (sent waiting : List Buffer) : Prop where
  buf : s.streambuf = sent ++ waiting
  idx : s.streambufIdx = sent.length
  sent : ∀ v ∈ sent, v.head = v.data.length
  waiting : Waiting waiting
  taken : s.taken = s.txStreamOffset + takenBytes s.streambuf
  offset : s.txStreamOffset = totalBytes s.popped

/-- The number of leading buffers whose bytes the library has taken. -/
def Stream.handed (s : Stream) : Nat := (s.streambuf.takeWhile fun v => v.size = 0).length

/-- The index counts the buffers that were handed over, and the offset the bytes that were popped. -/
structure Stream.Consistent (s : Stream) : Prop where
  idx : s.streambufIdx = s.handed
  le : s.streambufIdx ≤ s.streambuf.length
  offset : s.txStreamOffset = totalBytes s.popped

section
variable {s s' : Stream} {sent waiting bufs : List Buffer} {v : Buffer} {offset tx : Nat}

theorem Stream.Parted.consistent (h : s.Parted sent waiting) : s.Consistent := by
  constructor
  · rw [Stream.handed, h.buf, h.idx, List.takeWhile_append_of_pos]
    · cases waiting with
      | nil => rw [List.takeWhile_nil, List.append_nil]
      | cons v later =>
        have hlt : v.head < v.data.length := h.waiting.1
        have hsize : ¬(decide (v.size = 0) = true) := by
          rw [decide_eq_true_iff, Buffer.size]
          omega
        rw [List.takeWhile_cons_of_neg (p := fun v : Buffer => decide (v.size = 0)) hsize,
          List.append_nil]
    · intro v hv
      have hhead := h.sent v hv
      rw [decide_eq_true_iff, Buffer.size]
      omega
  · rw [h.buf, h.idx, List.length_append]
    exact Nat.le_add_right _ _
  · exact h.offset

theorem takenBytes_append (bufs bufs' : List Buffer) :
    takenBytes (bufs ++ bufs') = takenBytes bufs + takenBytes bufs' := by
  rw [takenBytes, List.map_append, List.sum_append]
  rfl

theorem totalBytes_append (bufs bufs' : List Buffer) :
    totalBytes (bufs ++ bufs') = totalBytes bufs + totalBytes bufs' := by
  rw [totalBytes, List.map_append, List.sum_append]
  rfl

theorem takenBytes_later (h : ∀ w ∈ bufs, w.head = 0 ∧ w.data ≠ []) : takenBytes bufs = 0 := by
  induction bufs with
  | nil => rfl
  | cons w bufs ih =>
    have hrest := ih fun w hw => h w (List.mem_cons_of_mem _ hw)
    have hhead := (h w List.mem_cons_self).1
    unfold takenBytes at hrest ⊢
    rw [List.map_cons, List.sum_cons, hhead, hrest]

/-! ## Acknowledgements -/

/-- Only buffers that were handed over are popped. -/
theorem removeTxStreamData_parted (hsent : ∀ v ∈ sent, v.head = v.data.length)
    (hwaiting : Waiting waiting)
    (hle : offset ≤ tx + takenBytes (sent ++ waiting)) : ∃ popped kept, sent = popped ++ kept ∧
      removeTxStreamData (sent ++ waiting) sent.length tx offset =
      (kept ++ waiting, kept.length, tx + totalBytes popped, popped) := by
  induction sent generalizing tx with
  | nil =>
    refine ⟨[], [], rfl, ?_⟩
    cases waiting with
    | nil => rfl
    | cons v later =>
      obtain ⟨hlt, hlater⟩ := hwaiting
      have htaken : takenBytes ([] ++ v :: later) = v.head + takenBytes later := rfl
      rw [htaken, takenBytes_later hlater] at hle
      have hstay : ¬(tx + v.bufsize ≤ offset) := by
        unfold Buffer.bufsize
        omega
      rw [List.nil_append, removeTxStreamData, if_neg hstay]
      rfl
  | cons v sent ih =>
    rw [List.cons_append, removeTxStreamData]
    by_cases hpop : tx + v.bufsize ≤ offset
    · have hhead : v.head = v.bufsize := hsent v List.mem_cons_self
      have htaken : takenBytes (v :: sent ++ waiting) = v.head + takenBytes (sent ++ waiting) := rfl
      have hle' : offset ≤ tx + v.bufsize + takenBytes (sent ++ waiting) := by omega
      obtain ⟨popped, kept, hsplit, hremove⟩ :=
        ih (fun w hw => hsent w (List.mem_cons_of_mem _ hw)) hle'
      have hdec : decSize (v :: sent).length = sent.length := rfl
      refine ⟨v :: popped, kept, by rw [hsplit, List.cons_append], ?_⟩
      rw [if_pos hpop, hdec, hremove]
      dsimp only
      have htotal : totalBytes (v :: popped) = v.bufsize + totalBytes popped := rfl
      rw [htotal, Nat.add_assoc]
    · exact ⟨[], v :: sent, rfl, if_neg hpop⟩

theorem Stream.Parted.remove (h : s.Parted sent waiting) (hle : offset ≤ s.taken) :
    ∃ popped kept, sent = popped ++ kept ∧
    (s.removeTxStreamData offset).Parted kept waiting ∧
    (s.removeTxStreamData offset).popped = s.popped ++ popped := by
  have hle' : offset ≤ s.txStreamOffset + takenBytes (sent ++ waiting) := by
    rw [← h.buf, ← h.taken]
    exact hle
  obtain ⟨popped, kept, hsplit, hremove⟩ := removeTxStreamData_parted h.sent h.waiting hle'
  rw [← h.buf, ← h.idx] at hremove
  have hs : s.removeTxStreamData offset = { s with
      streambuf := kept ++ waiting
      streambufIdx := kept.length
      txStreamOffset := s.txStreamOffset + totalBytes popped
      popped := s.popped ++ popped } := by
    rw [Stream.removeTxStreamData, hremove]
  have htaken : takenBytes popped = totalBytes popped := by
    have hpopped : ∀ v ∈ popped, v.head = v.bufsize :=
      fun v hv => h.sent v (hsplit ▸ List.mem_append_left _ hv)
    rw [takenBytes, totalBytes, List.map_congr_left hpopped]
  refine ⟨popped, kept, hsplit, ?_, by rw [hs]⟩
  rw [hs]
  constructor
  · rfl
  · rfl
  · exact fun v hv => h.sent v (hsplit ▸ List.mem_append_right _ hv)
  · exact h.waiting
  · have hold := h.taken
    rw [h.buf, hsplit, takenBytes_append, takenBytes_append] at hold
    dsimp only
    rw [hold, takenBytes_append]
    omega
  · dsimp only
    rw [totalBytes_append, ← h.offset]

end

/-! ## Writing -/

/-- The packet that holds the rest of a buffer is sent. -/
def Call.Calm (c : Call) : Prop :=
  ∀ data ndatalen rv, c.queued = some data → c.answer = some (ndatalen, rv) →
    ndatalen = data.length → rv = .ok

/-- No buffer without bytes left is passed to the library. -/
def Call.Brings (c : Call) : Prop := c.queued ≠ some []

/-- A write of the buffer `v` of a stream: it takes bytes from the front of the buffer. -/
structure Took (s : Stream) (v : Buffer) (s' : Stream) (v' : Buffer) : Prop where
  stream : s' = { s with taken := s.taken + (v'.head - v.head) }
  data : v'.data = v.data
  ge : v.head ≤ v'.head
  le : v'.head ≤ v'.data.length

section
variable {h h' : Handler} {s s' s'' : Stream} {v v' v'' : Buffer} {o o' : Outside ε} {rv : Rv} {fuel : Nat} {fin : Bool}
  {sent waiting before rest : List Buffer}

theorem Took.refl (s : Stream) (hle : v.head ≤ v.data.length) : Took s v s v :=
  ⟨by rw [Nat.sub_self, Nat.add_zero], rfl, Nat.le_refl _, hle⟩

theorem Took.trans (h₁ : Took s v s' v') (h₂ : Took s' v' s'' v'') : Took s v s'' v'' := by
  constructor
  · rw [h₂.stream, h₁.stream]
    have hge := h₁.ge
    have hge' := h₂.ge
    have hsum : s.taken + (v'.head - v.head) + (v''.head - v'.head) =
      s.taken + (v''.head - v.head) := by omega
    dsimp only
    rw [hsum]
  · exact h₂.data.trans h₁.data
  · exact Nat.le_trans h₁.ge h₂.ge
  · exact h₂.le

/-- The library takes what it says, at most the bytes from `rpos()` on. -/
theorem Took.seek {n : Nat} (hle : v.head ≤ v.data.length) (hn : n ≤ v.rpos.length) :
    Took s v { s with taken := s.taken + n } (v.seek n) := by
  rw [Buffer.rpos, List.length_drop] at hn
  constructor
  · have hdiff : (v.seek n).head - v.head = n := by
      unfold Buffer.seek
      dsimp only
      omega
    rw [hdiff]
  · rfl
  · exact Nat.le_add_right _ _
  · unfold Buffer.seek
    dsimp only
    omega

theorem writeStreamData_took (hlib : env.Lawful) (hle : v.head ≤ v.data.length)
    (hcall : h.writeStreamData env fin fuel s v o = (rv, h', s', v', o')) : Took s v s' v' := by
  induction fuel generalizing h s v o with
  | zero =>
    obtain ⟨-, -, rfl, rfl, -⟩ := by simpa only [Handler.writeStreamData, Prod.mk.injEq] using hcall
    exact .refl s hle
  | succ fuel ih =>
    have hturn := writeStreamData_turn env fin fuel h s v o
    generalize h.writeStreamData env fin (fuel + 1) s v o = res at hturn hcall
    cases hturn with
    | full hfull =>
      obtain ⟨-, -, rfl, rfl, -⟩ := by simpa only [Prod.mk.injEq] using hcall
      exact .refl s hle
    | refused same hok =>
      obtain ⟨-, -, rfl, rfl, -⟩ := by simpa only [Prod.mk.injEq] using hcall
      exact .refl s hle
    | last write send hend =>
      obtain ⟨-, -, rfl, rfl, -⟩ := by simpa only [Prod.mk.injEq] using hcall
      exact .seek hle (hlib.writeStream _ _ _ _ _ _ _ _ write).2
    | more write send hmore =>
      have htook := Took.seek (s := s) hle (hlib.writeStream _ _ _ _ _ _ _ _ write).2
      exact htook.trans (ih htook.le hcall)

theorem Call.Brings.snoc {calls : List Call} {c₀ : Call} (h : c₀.Brings) :
    ∀ c ∈ calls ++ [c₀], c ∈ calls ∨ c.Brings := by
  intro c hc
  rcases List.mem_append.mp hc with hc | hc
  · exact .inl hc
  · rw [List.mem_singleton.mp hc]
    exact .inr h

theorem streamCall_queued (hidx : s.streambufIdx ≠ s.streambuf.length)
    (answer : Option (Nat × Rv)) : (streamCall h s v answer).queued = some v.rpos :=
  if_neg hidx

theorem streamCall_brings (hlt : v.head < v.data.length)
    (hidx : s.streambufIdx ≠ s.streambuf.length) (answer : Option (Nat × Rv)) :
    (streamCall h s v answer).Brings := by
  rw [Call.Brings, streamCall_queued hidx]
  intro hnil
  have hlen := congrArg List.length (Option.some.inj hnil)
  rw [Buffer.rpos, List.length_drop, List.length_nil] at hlen
  omega

theorem streamCall_brings_fin (hidx : s.streambufIdx = s.streambuf.length)
    (answer : Option (Nat × Rv)) : (streamCall h s v answer).Brings := by
  have hnone : (streamCall h s v answer).queued = none := if_pos hidx
  rw [Call.Brings, hnone]
  exact nofun

/-- A buffer with bytes to send: every call brings some of them, and if the packet with the last ones is always
sent, a write that does not succeed leaves some. -/
theorem writeStreamData_brings (hlib : env.Lawful) (hlt : v.head < v.data.length)
    (hidx : s.streambufIdx ≠ s.streambuf.length)
    (hcall : h.writeStreamData env fin fuel s v o = (rv, h', s', v', o')) :
    (∀ c ∈ o'.calls, c ∈ o.calls ∨ c.Brings) ∧
      ((∀ c ∈ o'.calls, c.Calm) → rv ≠ .ok → v'.head < v'.data.length) := by
  induction fuel generalizing h s v o with
  | zero =>
    obtain ⟨-, -, -, rfl, rfl⟩ := by simpa only [Handler.writeStreamData, Prod.mk.injEq] using hcall
    exact ⟨fun c hc => .inl hc, fun _ _ => hlt⟩
  | succ fuel ih =>
    have hone : ∀ answer, ∀ c ∈ o.calls ++ [streamCall h s v answer], c ∈ o.calls ∨ c.Brings :=
      fun answer => (streamCall_brings hlt hidx answer).snoc
    have hturn := writeStreamData_turn env fin fuel h s v o
    generalize h.writeStreamData env fin (fuel + 1) s v o = res at hturn hcall
    cases hturn with
    | full hfull =>
      obtain ⟨-, -, -, rfl, rfl⟩ := by simpa only [Prod.mk.injEq] using hcall
      exact ⟨fun c hc => .inl hc, fun _ _ => hlt⟩
    | refused same hok =>
      obtain ⟨-, -, -, rfl, rfl⟩ := by simpa only [Prod.mk.injEq] using hcall
      exact ⟨hone _, fun _ _ => hlt⟩
    | @last pkt n rv₁ buf' e e' write send hend =>
      obtain ⟨rfl, -, -, rfl, rfl⟩ := by simpa only [Prod.mk.injEq] using hcall
      have htook := Took.seek (s := s) (Nat.le_of_lt hlt) (hlib.writeStream _ _ _ _ _ _ _ _ write).2
      refine ⟨hone _, fun hcalm hfail => Nat.lt_of_le_of_ne htook.le fun hall => hfail ?_⟩
      refine hcalm _ (List.mem_append_right _ (List.mem_singleton.mpr rfl)) v.rpos n rv₁
        (streamCall_queued hidx _) rfl ?_
      -- All bytes of the buffer are taken, so the call took all that it was passed.
      unfold Buffer.seek at hall
      dsimp only at hall
      rw [Buffer.rpos, List.length_drop]
      omega
    | @more pkt n buf' e e' write send hmore =>
      have htook := Took.seek (s := s) (Nat.le_of_lt hlt) (hlib.writeStream _ _ _ _ _ _ _ _ write).2
      have hlt' : (v.seek n).head < (v.seek n).data.length := by
        have hle := htook.le
        unfold Buffer.size at hmore
        omega
      have hidx' : ({ s with taken := s.taken + n } : Stream).streambufIdx ≠ s.streambuf.length :=
        hidx
      obtain ⟨hbrings, hcalm⟩ := ih hlt' hidx' hcall
      exact ⟨fun c hc => (hbrings c hc).elim (hone _ c) .inr, hcalm⟩

/-- A call for the end of a stream passes no buffer. -/
theorem writeStreamData_fin (hidx : s.streambufIdx = s.streambuf.length)
    (hcall : h.writeStreamData env fin fuel s v o = (rv, h', s', v', o')) :
    ∀ c ∈ o'.calls, c ∈ o.calls ∨ c.Brings := by
  induction fuel generalizing h s v o with
  | zero =>
    obtain ⟨-, -, -, -, rfl⟩ := by simpa only [Handler.writeStreamData, Prod.mk.injEq] using hcall
    exact fun c hc => .inl hc
  | succ fuel ih =>
    have hone : ∀ answer, ∀ c ∈ o.calls ++ [streamCall h s v answer], c ∈ o.calls ∨ c.Brings :=
      fun answer => (streamCall_brings_fin hidx answer).snoc
    have hturn := writeStreamData_turn env fin fuel h s v o
    generalize h.writeStreamData env fin (fuel + 1) s v o = res at hturn hcall
    cases hturn with
    | full hfull =>
      obtain ⟨-, -, -, -, rfl⟩ := by simpa only [Prod.mk.injEq] using hcall
      exact fun c hc => .inl hc
    | refused same hok =>
      obtain ⟨-, -, -, -, rfl⟩ := by simpa only [Prod.mk.injEq] using hcall
      exact hone _
    | last write send hend =>
      obtain ⟨-, -, -, -, rfl⟩ := by simpa only [Prod.mk.injEq] using hcall
      exact hone _
    | @more pkt n buf' e e' write send hmore =>
      have hidx' : ({ s with taken := s.taken + n } : Stream).streambufIdx = s.streambuf.length :=
        hidx
      exact fun c hc => (ih hidx' hcall c hc).elim (hone _ c) .inr

/-! ## Buffer after buffer -/

/-- The loop over the buffers, from one that waits on. -/
theorem writeBuffers_parted (hlib : env.Lawful) (hparted : s.Parted before rest)
    (hcall : h.writeBuffers env fuel before rest s o = (rv, h', s', o')) :
    (∀ c ∈ o'.calls, c ∈ o.calls ∨ c.Brings) ∧
      ((∀ c ∈ o'.calls, c.Calm) → ∃ sent waiting, s'.Parted sent waiting) := by
  induction rest generalizing before h s o with
  | nil =>
    obtain ⟨-, -, rfl, rfl⟩ := by simpa only [Handler.writeBuffers, Prod.mk.injEq] using hcall
    exact ⟨fun c hc => .inl hc, fun _ => ⟨before, [], hparted⟩⟩
  | cons v rest ih =>
    obtain ⟨hlt, hlater⟩ := hparted.waiting
    have hidx : s.streambufIdx ≠ s.streambuf.length := by
      rw [hparted.idx, hparted.buf, List.length_append, List.length_cons]
      omega
    unfold Handler.writeBuffers at hcall
    dsimp only at hcall
    generalize (s.shouldSendFin && s.streambufIdx == s.streambuf.length - 1) = fin at hcall
    generalize hwrite : h.writeStreamData env fin fuel s v o = res at hcall
    obtain ⟨rv₁, h₁, s₁, v₁, o₁⟩ := res
    have htook := writeStreamData_took hlib (Nat.le_of_lt hlt) hwrite
    obtain ⟨hbrings, hleft⟩ := writeStreamData_brings hlib hlt hidx hwrite
    have hstream := htook.stream
    subst hstream
    dsimp only at hcall
    have htaken : takenBytes (before ++ v₁ :: rest) =
      takenBytes s.streambuf + (v₁.head - v.head) := by
      have hge := htook.ge
      have hcons : ∀ w : Buffer, takenBytes (w :: rest) = w.head + takenBytes rest := fun _ => rfl
      rw [hparted.buf, takenBytes_append, takenBytes_append, hcons, hcons]
      omega
    -- The buffer is still the first that waits.
    have hstay : v₁.head < v₁.data.length → Stream.Parted { s with
        streambuf := before ++ v₁ :: rest
        taken := s.taken + (v₁.head - v.head) } before (v₁ :: rest) := by
      intro hlt₁
      constructor
      · rfl
      · exact hparted.idx
      · exact hparted.sent
      · exact ⟨hlt₁, hlater⟩
      · dsimp only
        rw [htaken, hparted.taken, Nat.add_assoc]
      · exact hparted.offset
    split at hcall
    · next hfail =>
      obtain ⟨rfl, -, rfl, rfl⟩ := by simpa only [Prod.mk.injEq] using hcall
      exact ⟨hbrings, fun hcalm => ⟨before, v₁ :: rest, hstay (hleft hcalm hfail)⟩⟩
    split at hcall
    · next hsize =>
      obtain ⟨-, -, rfl, rfl⟩ := by simpa only [Prod.mk.injEq] using hcall
      unfold Buffer.size at hsize
      exact ⟨hbrings, fun _ => ⟨before, v₁ :: rest, hstay (by omega)⟩⟩
    · next hsize =>
      have hnext : Stream.Parted { s with
          streambuf := before ++ v₁ :: rest
          streambufIdx := s.streambufIdx + 1
          shouldSendFin := s.shouldSendFin && !fin
          taken := s.taken + (v₁.head - v.head) } (before ++ [v₁]) rest := by
        constructor
        · rw [List.append_assoc]
          rfl
        · dsimp only
          rw [hparted.idx, List.length_append]
          rfl
        · intro w hw
          rcases List.mem_append.mp hw with hw | hw
          · exact hparted.sent w hw
          · rw [List.mem_singleton.mp hw]
            have hle := htook.le
            unfold Buffer.size at hsize
            omega
        · cases rest with
          | nil => trivial
          | cons w rest =>
            obtain ⟨hhead, hdata⟩ := hlater w List.mem_cons_self
            refine ⟨?_, fun u hu => hlater u (List.mem_cons_of_mem _ hu)⟩
            rw [hhead]
            exact List.length_pos_of_ne_nil hdata
        · dsimp only
          rw [htaken, hparted.taken, Nat.add_assoc]
        · exact hparted.offset
      obtain ⟨hbrings', hparted'⟩ := ih hnext hcall
      exact ⟨fun c hc => (hbrings' c hc).elim (hbrings c) .inr, hparted'⟩

theorem onWriteStream_parted (hlib : env.Lawful) (hparted : s.Parted sent waiting)
    (hcall : h.onWriteStream env fuel s o = (rv, h', s', o')) :
    (∀ c ∈ o'.calls, c ∈ o.calls ∨ c.Brings) ∧
      ((∀ c ∈ o'.calls, c.Calm) → ∃ sent waiting, s'.Parted sent waiting) := by
  unfold Handler.onWriteStream at hcall
  by_cases hend : s.streambufIdx = s.streambuf.length
  · rw [if_pos hend] at hcall
    by_cases hfin : s.shouldSendFin = true
    · rw [if_pos hfin] at hcall
      split at hcall
      · obtain ⟨-, -, rfl, rfl⟩ := by simpa only [Prod.mk.injEq] using hcall
        exact ⟨fun c hc => .inl hc, fun _ => ⟨sent, waiting, hparted⟩⟩
      dsimp only at hcall
      generalize hstream : ({ s with shouldSendFin := false } : Stream) = stream at hcall
      generalize hwrite : h.writeStreamData env true fuel stream (Buffer.ofLen 0) o = res at hcall
      obtain ⟨rv₁, h₁, s₁, v₁, o₁⟩ := res
      have htook := writeStreamData_took hlib (Nat.le_refl 0) hwrite
      have hcalls := writeStreamData_fin (by rw [← hstream]; exact hend) hwrite
      have hs : s' = s₁ ∧ o' = o₁ := by
        cases rv₁ <;> obtain ⟨-, -, rfl, rfl⟩ := by simpa only [Prod.mk.injEq] using hcall
        all_goals exact ⟨rfl, rfl⟩
      obtain ⟨rfl, rfl⟩ := hs
      refine ⟨hcalls, fun _ => ⟨sent, waiting, ?_⟩⟩
      -- There is nothing in the buffer that the library could take.
      have hzero : v₁.head = 0 := by
        have hle := htook.le
        rw [htook.data] at hle
        exact Nat.le_zero.mp hle
      rw [htook.stream, hzero, ← hstream]
      exact ⟨hparted.buf, hparted.idx, hparted.sent, hparted.waiting, hparted.taken, hparted.offset⟩
    · rw [if_neg hfin] at hcall
      obtain ⟨-, -, rfl, rfl⟩ := by simpa only [Prod.mk.injEq] using hcall
      exact ⟨fun c hc => .inl hc, fun _ => ⟨sent, waiting, hparted⟩⟩
  · rw [if_neg hend, hparted.buf, hparted.idx, List.take_left, List.drop_left] at hcall
    exact writeBuffers_parted hlib hparted hcall

/-- The queue is in two parts at its index. -/
def Stream.Queued (s : Stream) : Prop := ∃ sent waiting, s.Parted sent waiting

theorem writeStreams_queued (hlib : env.Lawful) {streams streams' : List (Nat × Stream)}
    (hqueued : ∀ p ∈ streams, p.2.Queued)
    (hcall : Handler.writeStreams env fuel streams h o = (rv, streams', h', o')) :
    (∀ c ∈ o'.calls, c ∈ o.calls ∨ c.Brings) ∧
    ((∀ c ∈ o'.calls, c.Calm) → ∀ p ∈ streams', p.2.Queued) := by
  induction streams generalizing h h' o rv streams' with
  | nil =>
    obtain ⟨-, rfl, -, rfl⟩ := by simpa only [Handler.writeStreams, Prod.mk.injEq] using hcall
    exact ⟨fun c hc => .inl hc, fun _ => nofun⟩
  | cons p streams ih =>
    obtain ⟨id, s⟩ := p
    obtain ⟨sent, waiting, hparted⟩ := hqueued _ List.mem_cons_self
    have hrest : ∀ p ∈ streams, p.2.Queued := fun p hp => hqueued p (List.mem_cons_of_mem _ hp)
    unfold Handler.writeStreams at hcall
    generalize hwrite : h.onWriteStream env fuel s o = res at hcall
    obtain ⟨rv₁, h₁, s₁, o₁⟩ := res
    obtain ⟨hbrings, hqueued₁⟩ := onWriteStream_parted hlib hparted hwrite
    dsimp only at hcall
    split at hcall
    · obtain ⟨-, rfl, -, rfl⟩ := by simpa only [Prod.mk.injEq] using hcall
      refine ⟨hbrings, fun hcalm p hp => ?_⟩
      rcases List.mem_cons.mp hp with rfl | hp
      · exact hqueued₁ hcalm
      · exact hrest p hp
    · generalize hmore : Handler.writeStreams env fuel streams h₁ o₁ = res at hcall
      obtain ⟨rv₂, streams₂, h₂, o₂⟩ := res
      have hcalls : o₁.calls <+: o₂.calls := by
        have hwrote := (writeStreams_wrote env fuel streams h₁ o₁).calls
        rw [hmore] at hwrote
        exact hwrote
      obtain ⟨-, rfl, -, rfl⟩ := by simpa only [Prod.mk.injEq] using hcall
      obtain ⟨hbrings₂, hqueued₂⟩ := ih hrest hmore
      refine ⟨fun c hc => (hbrings₂ c hc).elim (hbrings c) .inr, fun hcalm p hp => ?_⟩
      rcases List.mem_cons.mp hp with rfl | hp
      · exact hqueued₁ fun c hc => hcalm c (hcalls.subset hc)
      · exact hqueued₂ hcalm p hp

/-- The first loop passes no buffer of a stream. -/
theorem writePkts_brings {r : Option Rv} (hcall : h.writePkts env fuel o = (r, h', o')) :
    h.SameBuf h' ∧ ∀ c ∈ o'.calls, c ∈ o.calls ∨ c.Brings := by
  induction fuel generalizing h o with
  | zero =>
    obtain ⟨-, rfl, rfl⟩ := by simpa only [Handler.writePkts, Prod.mk.injEq] using hcall
    exact ⟨.refl h, fun c hc => .inl hc⟩
  | succ fuel ih =>
    have hnone : Call.Brings ⟨h.sendbuf.left, h.maxPktlen, none, none⟩ := fun h => by cases h
    have hone : ∀ c ∈ o.calls ++ [⟨h.sendbuf.left, h.maxPktlen, none, none⟩], c ∈ o.calls ∨
      c.Brings :=
      hnone.snoc
    unfold Handler.writePkts at hcall
    dsimp only at hcall
    split at hcall
    · next liberr e _ =>
      generalize herr : h.handleError env liberr e = res at hcall
      obtain ⟨rv, h₁, e₁⟩ := res
      obtain ⟨-, rfl, rfl⟩ := by simpa only [Prod.mk.injEq] using hcall
      exact ⟨(handleError_same herr).1, hone⟩
    split at hcall
    · obtain ⟨-, rfl, rfl⟩ := by simpa only [Prod.mk.injEq] using hcall
      exact ⟨.refl h, hone⟩
    split at hcall
    · next buf' e₂ hsend =>
      obtain ⟨hsame, hbrings⟩ := ih hcall
      exact ⟨(sendPacket_same hsend).trans hsame, fun c hc => (hbrings c hc).elim (hone c) .inr⟩
    · next buf' e₂ hsend =>
      obtain ⟨-, rfl, rfl⟩ := by simpa only [Prod.mk.injEq] using hcall
      exact ⟨sendPacket_same hsend, hone⟩
    · next rv buf' e₂ _ _ hsend =>
      obtain ⟨-, rfl, rfl⟩ := by simpa only [Prod.mk.injEq] using hcall
      exact ⟨sendPacket_same hsend, hone⟩

theorem onWrite_queued (hlib : env.Lawful) (hroomy : h.Roomy)
    (hqueued : ∀ p ∈ h.streams, p.2.Queued) {e : ε}
    (hcall : h.onWrite env fuel ⟨e, []⟩ = (rv, h', o')) :
    (∀ c ∈ o'.calls, c.Brings) ∧ ((∀ c ∈ o'.calls, c.Calm) → ∀ p ∈ h'.streams, p.2.Queued) := by
  by_cases hopen : env.inClosingPeriod e = true
  · unfold Handler.onWrite at hcall
    rw [if_pos hopen] at hcall
    obtain ⟨-, rfl, rfl⟩ := by simpa only [Prod.mk.injEq] using hcall
    exact ⟨nofun, fun _ => hqueued⟩
  generalize hresend : h.resend env e = res
  obtain ⟨rv₁, h₁, e₁⟩ := res
  have hsame := (resend_cases hresend).1
  by_cases hok : rv₁ = .ok
  · subst hok
    rw [onWrite_loops hroomy (Bool.eq_false_iff.mpr hopen) hresend] at hcall
    generalize hpkts : h₁.writePkts env fuel ⟨e₁, []⟩ = res at hcall
    obtain ⟨r, h₂, o₂⟩ := res
    obtain ⟨hsame₂, hbrings⟩ := writePkts_brings hpkts
    have hbrings' : ∀ c ∈ o₂.calls, c.Brings :=
      fun c hc => (hbrings c hc).resolve_left List.not_mem_nil
    have hqueued₂ : ∀ p ∈ h₂.streams, p.2.Queued := by
      rw [hsame₂.streams, hsame.streams]
      exact hqueued
    cases r with
    | some rv =>
      obtain ⟨-, rfl, rfl⟩ := by simpa only [Prod.mk.injEq] using hcall
      exact ⟨hbrings', fun _ => hqueued₂⟩
    | none =>
      dsimp only at hcall
      generalize hstreams : Handler.writeStreams env fuel h₂.streams h₂ o₂ = res at hcall
      obtain ⟨rv₃, streams₃, h₃, o₃⟩ := res
      obtain ⟨-, rfl, rfl⟩ := by simpa only [Prod.mk.injEq] using hcall
      obtain ⟨hbrings₃, hqueued₃⟩ := writeStreams_queued hlib hqueued₂ hstreams
      exact ⟨fun c hc => (hbrings₃ c hc).elim (hbrings' c) id, hqueued₃⟩
  · unfold Handler.onWrite at hcall
    dsimp only at hcall
    rw [if_neg hopen, hresend] at hcall
    cases rv₁ with
    | ok => exact absurd rfl hok
    | _ =>
      obtain ⟨-, rfl, rfl⟩ := by simpa only [Prod.mk.injEq] using hcall
      rw [hsame.streams]
      exact ⟨nofun, fun _ => hqueued⟩

/-! ## Runs -/

/-- What arrives for a stream does not stop in the middle: buffers have bytes, and no write is refused by the socket
with the last bytes of a buffer. -/
def CalmOp (env : Env ε) (_ : List (Op ε)) (h : Handler) : Op ε → Prop
  | .onWrite e => ∀ fuel, ∀ c ∈ (h.onWrite env fuel ⟨e, []⟩).2.2.calls, c.Calm
  | .queue _ data _ _ => ∀ bytes ∈ data, bytes ≠ []
  | _ => True

theorem Stream.Queued.consistent (hqueued : s.Queued) : s.Consistent := by
  obtain ⟨sent, waiting, hparted⟩ := hqueued
  exact hparted.consistent

theorem Stream.new_queued (streamId : Nat) : (Stream.new streamId).Queued :=
  ⟨[], [], rfl, rfl, nofun, trivial, rfl, rfl⟩

/-- New buffers wait at the end. -/
theorem Stream.Queued.add (hqueued : s.Queued) {data : List (List UInt8)}
    (hdata : ∀ bytes ∈ data, bytes ≠ []) (fin : Bool)
    (respState : RespState) : Stream.Queued { s with
      streambuf := s.streambuf ++ data.map Buffer.ofData
      shouldSendFin := fin
      respState } := by
  obtain ⟨sent, waiting, hparted⟩ := hqueued
  have hnew : ∀ w ∈ data.map Buffer.ofData, w.head = 0 ∧ w.data ≠ [] := by
    intro w hw
    obtain ⟨bytes, hbytes, rfl⟩ := List.mem_map.mp hw
    exact ⟨rfl, hdata bytes hbytes⟩
  refine ⟨sent, waiting ++ data.map Buffer.ofData, ?_, hparted.idx, hparted.sent, ?_, ?_,
    hparted.offset⟩
  · dsimp only
    rw [hparted.buf, List.append_assoc]
  · have hwaiting := hparted.waiting
    cases waiting with
    | nil =>
      rw [List.nil_append]
      generalize data.map Buffer.ofData = new at hnew
      cases new with
      | nil => trivial
      | cons w new =>
        obtain ⟨hhead, hne⟩ := hnew w List.mem_cons_self
        refine ⟨?_, fun u hu => hnew u (List.mem_cons_of_mem _ hu)⟩
        rw [hhead]
        exact List.length_pos_of_ne_nil hne
    | cons v later =>
      refine ⟨hwaiting.1, fun w hw => ?_⟩
      rcases List.mem_append.mp hw with hw | hw
      · exact hwaiting.2 w hw
      · exact hnew w hw
  · dsimp only
    rw [takenBytes_append, takenBytes_later hnew]
    exact hparted.taken

theorem findStream_mem {streamId : Nat} (hfind : h.findStream streamId = some s) :
    ∃ p ∈ h.streams, p.1 = streamId ∧ p.2 = s := by
  unfold Handler.findStream at hfind
  obtain ⟨p, hp, hs⟩ := Option.map_eq_some_iff.mp hfind
  have hid : decide (p.1 = streamId) = true :=
    List.find?_some (p := fun p : Nat × Stream => decide (p.1 = streamId)) hp
  exact ⟨p, List.mem_of_find?_eq_some hp, of_decide_eq_true hid, hs⟩

theorem setStream_queued {streams : List (Nat × Stream)} (hqueued : ∀ p ∈ streams, p.2.Queued)
    (hs : s.Queued)
    (streamId : Nat) : ∀ p ∈ setStream streamId s streams, p.2.Queued := by
  intro p hp
  obtain ⟨p', hp', rfl⟩ := List.mem_map.mp hp
  split
  · exact hs
  · exact hqueued p' hp'

theorem emplaceStream_queued {streams : List (Nat × Stream)} (hqueued : ∀ p ∈ streams, p.2.Queued)
    (hs : s.Queued)
    (streamId : Nat) : ∀ p ∈ emplaceStream streamId s streams, p.2.Queued := by
  induction streams with
  | nil =>
    intro p hp
    rw [List.mem_singleton.mp hp]
    exact hs
  | cons q streams ih =>
    unfold emplaceStream
    intro p hp
    split at hp
    · rcases List.mem_cons.mp hp with rfl | hp
      · exact hs
      · exact hqueued p hp
    · rcases List.mem_cons.mp hp with rfl | hp
      · exact hqueued _ List.mem_cons_self
      · exact ih (fun p hp => hqueued p (List.mem_cons_of_mem _ hp)) p hp

theorem queueData_queued (hqueued : ∀ p ∈ h.streams, p.2.Queued) {data : List (List UInt8)}
    (hdata : ∀ bytes ∈ data, bytes ≠ [])
    (streamId : Nat) (fin : Bool) (respState : RespState) :
    ∀ p ∈ (h.queueData streamId data fin respState).streams, p.2.Queued := by
  unfold Handler.queueData
  dsimp only
  split
  · next s hfind =>
    obtain ⟨p, hp, -, rfl⟩ := findStream_mem hfind
    exact setStream_queued hqueued ((hqueued p hp).add hdata _ _) streamId
  · exact emplaceStream_queued hqueued ((Stream.new_queued streamId).add hdata _ _) streamId

theorem ack_queued (hqueued : ∀ p ∈ h.streams, p.2.Queued) {streamId offset datalen : Nat}
    {e e' : ε}
    (hacked : h.Acked streamId offset datalen)
    (hcall : h.removeTxStreamData env streamId offset datalen e = (rv, h', e')) :
    ∀ p ∈ h'.streams, p.2.Queued := by
  unfold Handler.removeTxStreamData at hcall
  split at hcall
  · obtain ⟨-, rfl, -⟩ := by simpa only [Prod.mk.injEq] using hcall
    exact hqueued
  split at hcall
  · obtain ⟨-, rfl, -⟩ := by simpa only [Prod.mk.injEq] using hcall
    exact hqueued
  next s hfind =>
  obtain ⟨p, hp, hid, rfl⟩ := findStream_mem hfind
  obtain ⟨sent, waiting, hparted⟩ := hqueued p hp
  obtain ⟨popped, kept, -, hparted', -⟩ := hparted.remove (hacked p hp hid)
  have hset := setStream_queued hqueued ⟨kept, waiting, hparted'⟩ streamId
  dsimp only at hcall
  split at hcall
  · split at hcall <;> obtain ⟨-, rfl, -⟩ := by simpa only [Prod.mk.injEq] using hcall
    all_goals exact hset
  · obtain ⟨-, rfl, -⟩ := by simpa only [Prod.mk.injEq] using hcall
    exact hset

theorem Step.queued {ops : List (Op ε)} {op : Op ε} (hstep : Step env ops h op h')
    (hcalm : CalmOp env ops h op) (hlib : env.Lawful)
    (hroomy : h.Roomy) (hqueued : ∀ p ∈ h.streams, p.2.Queued) : ∀ p ∈ h'.streams, p.2.Queued := by
  cases hstep with
  | @onWrite _ _ fuel _ _ call kept =>
    refine (onWrite_queued hlib hroomy hqueued call).2 ?_
    have hcalm' := hcalm fuel
    rw [call] at hcalm'
    exact hcalm'
  | handleError call kept =>
    rw [(handleError_same call).1.streams]
    exact hqueued
  | sendConnClose call kept =>
    rw [(sendConnClose_same call).streams]
    exact hqueued
  | ack acked call kept => exact ack_queued hqueued acked call
  | queue streamId data fin respState => exact queueData_queued hqueued hcalm streamId fin respState
  | close streamId =>
    unfold Handler.onStreamClose
    split
    · exact hqueued
    · exact fun p hp => hqueued p (List.mem_of_mem_filter hp)
  | writeServerHandshake data => exact hqueued
  | readServerHandshake =>
    unfold Handler.readServerHandshake
    split <;> exact hqueued

end

end Server
