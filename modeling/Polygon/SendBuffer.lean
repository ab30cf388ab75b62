import Polygon.Handler

/-!
# The send buffer

All packets of a handler are written into one buffer. A packet that the socket does not
take stays there, and `on_write` may go on to write stream data behind it.
-/
namespace Server

open Ngtcp2

variable {ε : Type} {env : Env ε}

/-! ## The buffer between the calls -/

/-- The buffer of a handler: nothing in it was read, and it has space for the largest packet. -/
structure Handler.Roomy (h : Handler) : Prop where
  head : h.sendbuf.head = 0
  cap : h.sendbuf.cap = maxPktlenIpv4
  max : h.maxPktlen ≤ maxPktlenIpv4

theorem Handler.init_roomy (inet6 : Bool) : (Handler.init inet6).Roomy := by
  cases inet6 <;> exact ⟨rfl, rfl, by decide⟩

/-- Steps that leave the place of the buffer as it is. -/
structure Handler.SameBuf (h h' : Handler) : Prop where
  max : h'.maxPktlen = h.maxPktlen
  cap : h'.sendbuf.cap = h.sendbuf.cap
  head : h.sendbuf.head = 0 → h'.sendbuf.head = 0
  streams : h'.streams = h.streams

/-- A packet fits behind what is in the buffer. -/
def Handler.HasRoom (h : Handler) : Prop := h.sendbuf.data.length + h.maxPktlen ≤ h.sendbuf.cap

section
variable {h h' h'' : Handler} {buf buf' : Buffer} {e e' : ε} {rv : Rv}

theorem Handler.SameBuf.refl (h : Handler) : h.SameBuf h := ⟨rfl, rfl, id, rfl⟩

theorem Handler.SameBuf.trans (h₁ : h.SameBuf h') (h₂ : h'.SameBuf h'') : h.SameBuf h'' :=
  ⟨h₂.max.trans h₁.max, h₂.cap.trans h₁.cap, fun hhead => h₂.head (h₁.head hhead),
    h₂.streams.trans h₁.streams⟩

theorem Handler.SameBuf.roomy (h₁ : h.SameBuf h') (hroomy : h.Roomy) : h'.Roomy :=
  ⟨h₁.head hroomy.head, h₁.cap.trans hroomy.cap, by rw [h₁.max]; exact hroomy.max⟩

theorem Handler.Roomy.hasRoom (hroomy : h.Roomy) (hempty : h.sendbuf.data = []) : h.HasRoom := by
  rw [Handler.HasRoom, hempty, hroomy.cap, List.length_nil, Nat.zero_add]
  exact hroomy.max

theorem Handler.HasRoom.left (hroom : h.HasRoom) (hroomy : h.Roomy) :
    h.maxPktlen ≤ h.sendbuf.left := by
  have hcap := hroomy.cap
  have hmax : maxPktlenIpv4 < 2 ^ 64 := by decide
  unfold Handler.HasRoom at hroom
  rw [Buffer.left, subU64_of_le (by omega) (by omega)]
  omega

/-- Less than a packet is left behind a packet that leaves no room. -/
theorem Handler.Roomy.left_lt (hroomy : h.Roomy) (hfull : ¬h.HasRoom)
    (hle : h.sendbuf.data.length ≤ h.maxPktlen) :
    h.sendbuf.left < h.maxPktlen := by
  have hcap := hroomy.cap
  have hmax := hroomy.max
  have hlt : maxPktlenIpv4 < 2 ^ 64 := by decide
  unfold Handler.HasRoom at hfull
  rw [Buffer.left, subU64_of_le (by omega) (by omega)]
  omega

/-- A packet that was sent leaves the buffer empty; any other stays there. -/
theorem sendPacket_cases (h : sendPacket env buf e = (rv, buf', e')) :
    (rv = .ok ∧ buf' = buf.reset) ∨ (rv ≠ .ok ∧ buf' = buf) := by
  unfold sendPacket at h
  split at h
  · obtain ⟨rfl, rfl, rfl⟩ := by simpa only [Prod.mk.injEq] using h
    exact .inl ⟨rfl, rfl⟩
  split at h
  · obtain ⟨rfl, rfl, rfl⟩ := by simpa only [Prod.mk.injEq] using h
    exact .inr ⟨nofun, rfl⟩
  · obtain ⟨rfl, rfl, rfl⟩ := by simpa only [Prod.mk.injEq] using h
    exact .inr ⟨nofun, rfl⟩
  · split at h
    · obtain ⟨rfl, rfl, rfl⟩ := by simpa only [Prod.mk.injEq] using h
      exact .inl ⟨rfl, rfl⟩
    · obtain ⟨rfl, rfl, rfl⟩ := by simpa only [Prod.mk.injEq] using h
      exact .inr ⟨nofun, rfl⟩

/-- A packet is put into the buffer, and is sent or stays. -/
theorem sendPacket_same {bytes : List UInt8}
    (hsend : sendPacket env (h.sendbuf.push bytes) e = (rv, buf', e')) :
    h.SameBuf { h with sendbuf := buf' } := by
  rcases sendPacket_cases hsend with ⟨-, rfl⟩ | ⟨-, rfl⟩
  · exact ⟨rfl, rfl, fun _ => rfl, rfl⟩
  · exact ⟨rfl, rfl, id, rfl⟩

theorem startClosingPeriod_same {liberr : Err}
    (hstart : h.startClosingPeriod env liberr e = (rv, h', e')) : h.SameBuf h' := by
  unfold Handler.startClosingPeriod at hstart
  split at hstart
  · obtain ⟨-, rfl, -⟩ := by simpa only [Prod.mk.injEq] using hstart
    exact .refl h
  dsimp only at hstart
  split at hstart
  · obtain ⟨-, rfl, -⟩ := by simpa only [Prod.mk.injEq] using hstart
    exact ⟨rfl, rfl, fun _ => rfl, rfl⟩
  split at hstart
  · obtain ⟨-, rfl, -⟩ := by simpa only [Prod.mk.injEq] using hstart
    exact ⟨rfl, rfl, fun _ => rfl, rfl⟩
  · obtain ⟨-, rfl, -⟩ := by simpa only [Prod.mk.injEq] using hstart
    exact ⟨rfl, rfl, fun _ => rfl, rfl⟩

theorem sendConnClose_same (hclose : h.sendConnClose env e = (rv, h', e')) : h.SameBuf h' := by
  unfold Handler.sendConnClose at hclose
  split at hclose
  · obtain ⟨-, rfl, -⟩ := by simpa only [Prod.mk.injEq] using hclose
    exact .refl h
  next closebuf _ =>
  split at hclose
  · obtain ⟨-, rfl, -⟩ := by simpa only [Prod.mk.injEq] using hclose
    exact .refl h
  dsimp only at hclose
  generalize hres : sendPacket env
    (if h.sendbuf.size = 0 then h.sendbuf.push closebuf.rpos else h.sendbuf) e = res at hclose
  obtain ⟨rv', buf', e''⟩ := res
  obtain ⟨-, rfl, -⟩ := by simpa only [Prod.mk.injEq] using hclose
  split at hres
  · exact sendPacket_same hres
  · have hpush : h.sendbuf.push [] = h.sendbuf := by rw [Buffer.push, List.append_nil]
    rw [← hpush] at hres
    exact sendPacket_same hres

/-- A connection that fails is closed; the call does not end with success. -/
theorem handleError_same {liberr : Err} (herr : h.handleError env liberr e = (rv, h', e')) :
    h.SameBuf h' ∧ rv ≠ .ok := by
  unfold Handler.handleError at herr
  generalize hstart : h.startClosingPeriod env liberr e = res at herr
  obtain ⟨rv₁, h₁, e₁⟩ := res
  have hsame := startClosingPeriod_same hstart
  cases rv₁ with
  | ok =>
    dsimp only at herr
    generalize hclose : h₁.sendConnClose env e₁ = res at herr
    obtain ⟨rv₂, h₂, e₂⟩ := res
    have hsame' := hsame.trans (sendConnClose_same hclose)
    cases rv₂ <;> obtain ⟨rfl, rfl, -⟩ := by simpa only [Prod.mk.injEq] using herr
    all_goals exact ⟨hsame', nofun⟩
  | _ =>
    obtain ⟨rfl, rfl, -⟩ := by simpa only [Prod.mk.injEq] using herr
    exact ⟨hsame, nofun⟩

end

/-! ## The calls of one write -/

/-- Writing from `h` to `h'`: the record grows, and as long as there is room at the start every call has
room, and there is room again after success. -/
structure Wrote (h : Handler) (o : Outside ε) (rv : Rv) (h' : Handler) (o' : Outside ε) : Prop where
  same : h.SameBuf h'
  calls : o.calls <+: o'.calls
  fits : h.Roomy → h.HasRoom → ∀ c ∈ o'.calls, c ∈ o.calls ∨ c.destlen ≤ c.room
  room : h.Roomy → h.HasRoom → rv = .ok → h'.HasRoom

section
variable {h h' h'' : Handler} {o o' o'' : Outside ε} {rv : Rv} {call : Call} {e' : ε}

theorem Wrote.refl (rv : Rv) (h : Handler) (o : Outside ε) : Wrote h o rv h o :=
  ⟨.refl h, List.prefix_refl _, fun _ _ _ hc => .inl hc, fun _ hroom _ => hroom⟩

theorem Wrote.trans (h₁ : Wrote h o .ok h' o') (h₂ : Wrote h' o' rv h'' o'') :
    Wrote h o rv h'' o'' := by
  constructor
  · exact h₁.same.trans h₂.same
  · exact h₁.calls.trans h₂.calls
  · intro hroomy hroom c hc
    rcases h₂.fits (h₁.same.roomy hroomy) (h₁.room hroomy hroom rfl) c hc with hc | hfits
    · exact h₁.fits hroomy hroom c hc
    · exact .inr hfits
  · exact fun hroomy hroom => h₂.room (h₁.same.roomy hroomy) (h₁.room hroomy hroom rfl)

/-- One call at the end of the buffer. -/
theorem Wrote.one (hsame : h.SameBuf h') (hcall : call.room = h.sendbuf.left)
    (hdestlen : call.destlen = h.maxPktlen)
    (hempty : rv = .ok → h'.sendbuf.data = h.sendbuf.data ∨ h'.sendbuf.data = []) :
    Wrote h o rv h' ⟨e', o.calls ++ [call]⟩ := by
  constructor
  · exact hsame
  · exact List.prefix_append _ _
  · intro hroomy hroom c hc
    rcases List.mem_append.mp hc with hc | hc
    · exact .inl hc
    · rw [List.mem_singleton.mp hc, hcall, hdestlen]
      exact .inr (hroom.left hroomy)
  · intro hroomy hroom hok
    rcases hempty hok with heq | heq
    · rw [Handler.HasRoom, heq, hsame.max, hsame.cap]
      exact hroom
    · exact (hsame.roomy hroomy).hasRoom heq

/-- The record of a call that `write_stream_data` makes. -/
def streamCall (h : Handler) (stream : Stream) (v : Buffer) (answer : Option (Nat × Rv)) : Call :=
  ⟨h.sendbuf.left, h.maxPktlen,
    if stream.streambufIdx = stream.streambuf.length then none else some v.rpos, answer⟩

/-- One turn of `write_stream_data`: it breaks at once, the library refuses, its packet is the last one, or the loop goes on. -/
inductive Turn (env : Env ε) (fin : Bool) (fuel : Nat) (h : Handler) (stream : Stream) (v : Buffer)
    (o : Outside ε) :
    Rv × Handler × Stream × Buffer × Outside ε → Prop where
  | full (hfull : maxBytesInFlight ≤ env.bytesInFlight o.state) :
      Turn env fin fuel h stream v o (.ok, h, stream, v, o)
  | refused {rv : Rv} {h' : Handler} {e : ε} (same : h.SameBuf h') (hok : rv = .ok → h' = h) :
      Turn env fin fuel h stream v o (rv, h', stream, v,
        ⟨e, o.calls ++ [streamCall h stream v none]⟩)
  | last {pkt : List UInt8} {n : Nat} {rv : Rv} {buf' : Buffer} {e e' : ε}
      (write : env.writeStream o.state h.maxPktlen stream.streamId fin v.rpos = (.ok (pkt, n), e))
      (send : sendPacket env (h.sendbuf.push pkt) e = (rv, buf', e'))
      (hend : rv = .ok → (v.seek n).size = 0) :
      Turn env fin fuel h stream v o (rv, { h with sendbuf := buf' },
        { stream with taken := stream.taken + n }, v.seek n,
        ⟨e', o.calls ++ [streamCall h stream v (some (n, rv))]⟩)
  | more {pkt : List UInt8} {n : Nat} {buf' : Buffer} {e e' : ε}
      (write : env.writeStream o.state h.maxPktlen stream.streamId fin v.rpos = (.ok (pkt, n), e))
      (send : sendPacket env (h.sendbuf.push pkt) e = (.ok, buf', e'))
      (hmore : (v.seek n).size ≠ 0) :
      Turn env fin fuel h stream v o
        (Handler.writeStreamData env fin fuel { h with sendbuf := buf' }
        { stream with taken := stream.taken + n }
        (v.seek n) ⟨e', o.calls ++ [streamCall h stream v (some (n, .ok))]⟩)

theorem writeStreamData_turn (env : Env ε) (fin : Bool) (fuel : Nat) (h : Handler) (stream : Stream)
    (v : Buffer) (o : Outside ε) :
    Turn env fin fuel h stream v o (h.writeStreamData env fin (fuel + 1) stream v o) := by
  unfold Handler.writeStreamData
  by_cases hfull : maxBytesInFlight ≤ env.bytesInFlight o.state
  · rw [if_pos hfull]
    exact .full hfull
  rw [if_neg hfull]
  dsimp only
  split
  · exact .refused (.refl h) fun _ => rfl
  · exact .refused (.refl h) fun _ => rfl
  · next liberr e _ _ _ =>
    have herr : h.handleError env liberr e =
      ((h.handleError env liberr e).1, (h.handleError env liberr e).2) := rfl
    obtain ⟨hsame, hne⟩ := handleError_same herr
    exact .refused hsame fun hok => absurd hok hne
  · next pkt ndatalen e hwrite =>
    generalize hsend : sendPacket env (h.sendbuf.push pkt) e = res
    obtain ⟨rv, buf', e'⟩ := res
    dsimp only
    by_cases hok : rv = .ok
    · subst hok
      rw [if_neg (by simp)]
      by_cases hsize : (v.seek ndatalen).size = 0
      · rw [if_pos hsize]
        exact .last hwrite hsend fun _ => hsize
      · rw [if_neg hsize]
        exact .more hwrite hsend hsize
    · rw [if_pos hok]
      exact .last hwrite hsend fun hok' => absurd hok' hok

/-- A packet that is sent leaves room for the next one. -/
theorem Wrote.sent {pkt : List UInt8} {buf' : Buffer} {e : ε}
    (hsend : sendPacket env (h.sendbuf.push pkt) e = (rv, buf', e'))
    (hcall : call.room = h.sendbuf.left) (hdestlen : call.destlen = h.maxPktlen) :
    Wrote h o rv { h with sendbuf := buf' } ⟨e', o.calls ++ [call]⟩ := by
  refine .one (sendPacket_same hsend) hcall hdestlen fun hok => ?_
  rcases sendPacket_cases hsend with ⟨-, rfl⟩ | ⟨hne, -⟩
  · exact .inr rfl
  · exact absurd hok hne

theorem writeStreamData_wrote (env : Env ε) (fin : Bool) (fuel : Nat) (h : Handler)
    (stream : Stream) (v : Buffer) (o : Outside ε) :
    Wrote h o (h.writeStreamData env fin fuel stream v o).1
    (h.writeStreamData env fin fuel stream v o).2.1
      (h.writeStreamData env fin fuel stream v o).2.2.2.2 := by
  induction fuel generalizing h stream v o with
  | zero => exact .refl .running h o
  | succ fuel ih =>
    have hturn := writeStreamData_turn env fin fuel h stream v o
    generalize h.writeStreamData env fin (fuel + 1) stream v o = res at hturn ⊢
    cases hturn with
    | full hfull => exact .refl .ok h o
    | refused same hok => exact .one same rfl rfl fun h => .inl (by rw [hok h])
    | last write send hend => exact .sent send rfl rfl
    | more write send hmore => exact (Wrote.sent send rfl rfl).trans (ih _ _ _ _)

theorem writeBuffers_wrote (env : Env ε) (fuel : Nat) (before rest : List Buffer) (h : Handler)
    (stream : Stream) (o : Outside ε) :
    Wrote h o (h.writeBuffers env fuel before rest stream o).1
    (h.writeBuffers env fuel before rest stream o).2.1
      (h.writeBuffers env fuel before rest stream o).2.2.2 := by
  induction rest generalizing before h stream o with
  | nil => exact .refl .ok h o
  | cons v rest ih =>
    unfold Handler.writeBuffers
    dsimp only
    generalize hfin : (stream.shouldSendFin && stream.streambufIdx == stream.streambuf.length - 1) =
      fin
    have hwrote := writeStreamData_wrote env fin fuel h stream v o
    generalize h.writeStreamData env fin fuel stream v o = res at hwrote ⊢
    obtain ⟨rv, h₁, stream₁, v₁, o₁⟩ := res
    dsimp only at hwrote ⊢
    by_cases hok : rv = .ok
    · subst hok
      rw [if_neg (by simp)]
      split
      · exact hwrote
      · exact hwrote.trans (ih _ _ _ _)
    · rw [if_pos hok]
      exact hwrote

theorem onWriteStream_wrote (env : Env ε) (fuel : Nat) (h : Handler) (stream : Stream)
    (o : Outside ε) :
    Wrote h o (h.onWriteStream env fuel stream o).1 (h.onWriteStream env fuel stream o).2.1
      (h.onWriteStream env fuel stream o).2.2.2 := by
  unfold Handler.onWriteStream
  by_cases hend : stream.streambufIdx = stream.streambuf.length
  · rw [if_pos hend]
    by_cases hfin : stream.shouldSendFin
    · rw [if_pos hfin]
      split
      · exact .refl .ok h o
      dsimp only
      generalize hstream : ({ stream with shouldSendFin := false } : Stream) = stream'
      have hwrote := writeStreamData_wrote env true fuel h stream' (Buffer.ofLen 0) o
      generalize h.writeStreamData env true fuel stream' (Buffer.ofLen 0) o = res at hwrote ⊢
      obtain ⟨rv, h₁, stream₁, v₁, o₁⟩ := res
      cases rv with
      | ok => exact hwrote
      | _ => exact ⟨hwrote.same, hwrote.calls, hwrote.fits, fun _ _ hok => nomatch hok⟩
    · rw [if_neg hfin]
      exact .refl .ok h o
  · rw [if_neg hend]
    exact writeBuffers_wrote _ _ _ _ _ _ _

theorem writeStreams_wrote (env : Env ε) (fuel : Nat) (streams : List (Nat × Stream)) (h : Handler)
    (o : Outside ε) :
    Wrote h o (Handler.writeStreams env fuel streams h o).1
    (Handler.writeStreams env fuel streams h o).2.2.1
      (Handler.writeStreams env fuel streams h o).2.2.2 := by
  induction streams generalizing h o with
  | nil => exact .refl .ok h o
  | cons p streams ih =>
    obtain ⟨id, stream⟩ := p
    unfold Handler.writeStreams
    have hwrote := onWriteStream_wrote env fuel h stream o
    generalize h.onWriteStream env fuel stream o = res at hwrote ⊢
    obtain ⟨rv, h₁, stream₁, o₁⟩ := res
    dsimp only at hwrote ⊢
    by_cases hok : rv = .ok
    · subst hok
      rw [if_neg (by simp)]
      exact hwrote.trans (ih h₁ o₁)
    · rw [if_pos hok]
      exact hwrote

end

/-! ## Whether a stream is written at all -/

/-- `on_write_stream` has something to write. -/
def Stream.Pending (s : Stream) : Prop :=
  s.streambufIdx < s.streambuf.length ∨
    (s.streambufIdx = s.streambuf.length ∧ s.shouldSendFin = true)

section
variable {h : Handler} {o : Outside ε} {fuel : Nat}

/-- The connection has as many bytes in flight as it may have. -/
abbrev Env.Full (env : Env ε) (e : ε) : Prop := maxBytesInFlight ≤ env.bytesInFlight e

theorem writeStreamData_full (fin : Bool) (fuel : Nat) (h : Handler) (stream : Stream) (v : Buffer)
    (hfull : env.Full o.state) :
    (h.writeStreamData env fin fuel stream v o).2 = (h, stream, v, o) := by
  cases fuel with
  | zero => rfl
  | succ fuel =>
    unfold Handler.writeStreamData
    rw [if_pos hfull]

theorem writeBuffers_full {before rest : List Buffer} {stream : Stream} (hfull : env.Full o.state) :
    (h.writeBuffers env fuel before rest stream o).2.1 = h ∧
    (h.writeBuffers env fuel before rest stream o).2.2.2 = o := by
  induction rest generalizing before stream with
  | nil => exact ⟨rfl, rfl⟩
  | cons v rest ih =>
    unfold Handler.writeBuffers
    dsimp only
    generalize (stream.shouldSendFin && stream.streambufIdx == stream.streambuf.length - 1) = fin
    have hnone := writeStreamData_full fin fuel h stream v hfull
    generalize h.writeStreamData env fin fuel stream v o = res at hnone ⊢
    obtain ⟨rv, res⟩ := res
    obtain rfl : res = (h, stream, v, o) := hnone
    dsimp only
    split
    · exact ⟨rfl, rfl⟩
    · split
      · exact ⟨rfl, rfl⟩
      · exact ih

/-- Nothing is written when there is nothing to write or the connection is full. -/
theorem onWriteStream_quiet (fuel : Nat) (h : Handler) (stream : Stream)
    (hquiet : env.Full o.state ∨ ¬stream.Pending) :
    (h.onWriteStream env fuel stream o).2.1 = h ∧
    (h.onWriteStream env fuel stream o).2.2.2 = o := by
  unfold Handler.onWriteStream
  by_cases hend : stream.streambufIdx = stream.streambuf.length
  · rw [if_pos hend]
    by_cases hfin : stream.shouldSendFin = true
    · rw [if_pos hfin]
      have hfull : env.Full o.state := hquiet.resolve_right fun hnone => hnone (.inr ⟨hend, hfin⟩)
      rw [if_pos hfull]
      exact ⟨rfl, rfl⟩
    · rw [if_neg hfin]
      exact ⟨rfl, rfl⟩
  · rw [if_neg hend]
    rcases hquiet with hfull | hnone
    · exact writeBuffers_full hfull
    · have hle : stream.streambuf.length ≤ stream.streambufIdx :=
        Nat.le_of_not_lt fun hlt => hnone (.inl hlt)
      rw [List.drop_eq_nil_of_le hle]
      exact ⟨rfl, rfl⟩

theorem onWriteStream_idle {stream : Stream} (hnone : ¬stream.Pending) :
    (h.onWriteStream env fuel stream o).1 = .ok := by
  unfold Handler.onWriteStream
  by_cases hend : stream.streambufIdx = stream.streambuf.length
  · have hfin : ¬(stream.shouldSendFin = true) := fun hfin => hnone (.inr ⟨hend, hfin⟩)
    rw [if_pos hend, if_neg hfin]
  · have hle : stream.streambuf.length ≤ stream.streambufIdx :=
      Nat.le_of_not_lt fun hlt => hnone (.inl hlt)
    rw [if_neg hend, List.drop_eq_nil_of_le hle]
    rfl

theorem writeStreams_quiet (fuel : Nat) (h : Handler) {streams : List (Nat × Stream)}
    (hquiet : env.Full o.state ∨ ∀ p ∈ streams, ¬p.2.Pending) :
    (Handler.writeStreams env fuel streams h o).2.2.1 = h ∧
    (Handler.writeStreams env fuel streams h o).2.2.2 = o := by
  induction streams with
  | nil => exact ⟨rfl, rfl⟩
  | cons p streams ih =>
    obtain ⟨id, stream⟩ := p
    unfold Handler.writeStreams
    have hnone := onWriteStream_quiet fuel h stream
      (hquiet.imp_right fun hnone => hnone _ List.mem_cons_self)
    generalize h.onWriteStream env fuel stream o = res at hnone ⊢
    obtain ⟨rv, h₁, stream₁, o₁⟩ := res
    obtain ⟨rfl, rfl⟩ := hnone
    dsimp only
    split
    · exact ⟨rfl, rfl⟩
    · exact ih (hquiet.imp_right fun hnone p hp => hnone p (List.mem_cons_of_mem _ hp))

/-- A call at the end of the buffer is on record. -/
def CallHere (h : Handler) (o : Outside ε) : Prop :=
    ∃ c ∈ o.calls, c.room = h.sendbuf.left ∧ c.destlen = h.maxPktlen

theorem CallHere.mono {o' : Outside ε} (hcall : CallHere h o) (hcalls : o.calls <+: o'.calls) :
    CallHere h o' := by
  obtain ⟨c, hc, hwhere⟩ := hcall
  exact ⟨c, hcalls.subset hc, hwhere⟩

theorem writeStreamData_call (fin : Bool) (fuel : Nat) (h : Handler) (stream : Stream) (v : Buffer)
    (hfull : ¬env.Full o.state) :
    CallHere h (h.writeStreamData env fin (fuel + 1) stream v o).2.2.2.2 := by
  have hhere : ∀ (e : ε) (answer : Option (Nat × Rv)),
    CallHere h ⟨e, o.calls ++ [streamCall h stream v answer]⟩ :=
    fun e answer => ⟨_, List.mem_append_right _ (List.mem_singleton.mpr rfl), rfl, rfl⟩
  have hturn := writeStreamData_turn env fin fuel h stream v o
  generalize h.writeStreamData env fin (fuel + 1) stream v o = res at hturn ⊢
  cases hturn with
  | full hfull' => exact absurd hfull' hfull
  | refused same hok => exact hhere _ _
  | last write send hend => exact hhere _ _
  | more write send hmore =>
    exact (hhere _ _).mono (writeStreamData_wrote env fin fuel _ _ _ _).calls

theorem onWriteStream_call (fuel : Nat) (h : Handler) {stream : Stream} (hfull : ¬env.Full o.state)
    (hpending : stream.Pending) :
    CallHere h (h.onWriteStream env (fuel + 1) stream o).2.2.2 := by
  unfold Handler.onWriteStream
  rcases hpending with hlt | ⟨hend, hfin⟩
  · rw [if_neg (Nat.ne_of_lt hlt), List.drop_eq_getElem_cons hlt]
    unfold Handler.writeBuffers
    dsimp only
    generalize (stream.shouldSendFin && stream.streambufIdx == stream.streambuf.length - 1) = fin
    generalize stream.streambuf[stream.streambufIdx] = v
    have hcall := writeStreamData_call fin fuel h stream v hfull
    generalize h.writeStreamData env fin (fuel + 1) stream v o = res at hcall ⊢
    obtain ⟨rv, h₁, stream₁, v₁, o₁⟩ := res
    dsimp only at hcall ⊢
    split
    · exact hcall
    · split
      · exact hcall
      · exact hcall.mono (writeBuffers_wrote env _ _ _ _ _ _).calls
  · rw [if_pos hend, if_pos hfin, if_neg hfull]
    dsimp only
    generalize hstream : ({ stream with shouldSendFin := false } : Stream) = stream'
    have hcall := writeStreamData_call true fuel h stream' (Buffer.ofLen 0) hfull
    generalize h.writeStreamData env true (fuel + 1) stream' (Buffer.ofLen 0) o = res at hcall ⊢
    obtain ⟨rv, h₁, stream₁, v₁, o₁⟩ := res
    cases rv <;> exact hcall

/-- The first stream with something to write makes a call. -/
theorem writeStreams_call (fuel : Nat) (h : Handler) {streams : List (Nat × Stream)}
    (hfull : ¬env.Full o.state) (hpending : ∃ p ∈ streams, p.2.Pending) :
    CallHere h (Handler.writeStreams env (fuel + 1) streams h o).2.2.2 := by
  induction streams with
  | nil => simp at hpending
  | cons p streams ih =>
    obtain ⟨id, stream⟩ := p
    unfold Handler.writeStreams
    by_cases hthis : stream.Pending
    · have hcall := onWriteStream_call fuel h hfull hthis
      generalize h.onWriteStream env (fuel + 1) stream o = res at hcall ⊢
      obtain ⟨rv, h₁, stream₁, o₁⟩ := res
      dsimp only at hcall ⊢
      split
      · exact hcall
      · exact hcall.mono (writeStreams_wrote env _ _ _ _).calls
    · have hok : (h.onWriteStream env (fuel + 1) stream o).1 = .ok := onWriteStream_idle hthis
      have hnone := @onWriteStream_quiet _ env o (fuel + 1) h stream (.inr hthis)
      generalize h.onWriteStream env (fuel + 1) stream o = res at hok hnone ⊢
      obtain ⟨rv, h₁, stream₁, o₁⟩ := res
      obtain ⟨rfl, rfl⟩ := hnone
      obtain rfl : rv = .ok := hok
      dsimp only
      rw [if_neg (by simp)]
      obtain ⟨p, hp, hpend⟩ := hpending
      rcases List.mem_cons.mp hp with rfl | hp
      · exact absurd hpend hthis
      · exact ih ⟨p, hp, hpend⟩

end

/-! ## The loop over packets -/

/-- The library has packets that are sent one by one, until the socket does not take one of `n` bytes;
`buf` is the empty send buffer. -/
inductive Blocks (env : Env ε) (destlen : Nat) (buf : Buffer) : ε → Nat → ε → Prop where
  | now {e e₁ e₂ : ε} {pkt : List UInt8} {buf' : Buffer}
      (write : Handler.nextPkt env destlen e = (.ok pkt, e₁)) (ne : pkt ≠ [])
      (send : sendPacket env (buf.push pkt) e₁ = (.sendNonFatal, buf', e₂)) :
        Blocks env destlen buf e pkt.length e₂
  | later {e e₁ e₂ e₃ : ε} {pkt : List UInt8} {buf' : Buffer} {n : Nat}
      (write : Handler.nextPkt env destlen e = (.ok pkt, e₁))
      (ne : pkt ≠ []) (send : sendPacket env (buf.push pkt) e₁ = (.ok, buf', e₂))
      (rest : Blocks env destlen buf e₂ n e₃) :
      Blocks env destlen buf e n e₃

section
variable {h h' : Handler} {o o' : Outside ε} {fuel n : Nat} {e e' : ε} {r : Option Rv}

theorem nextPkt_le (hlib : env.Lawful) {destlen : Nat} {pkt : List UInt8}
    (hpkt : Handler.nextPkt env destlen e = (.ok pkt, e')) :
    pkt.length ≤ destlen := by
  unfold Handler.nextPkt at hpkt
  split at hpkt
  · exact hlib.writePkt _ _ _ _ hpkt
  · exact hlib.writeAckPkt _ _ _ _ hpkt

/-- A packet that was sent leaves an empty buffer as it was. -/
theorem push_reset (hroomy : h.Roomy) (hempty : h.sendbuf.data = []) (bytes : List UInt8) :
    (h.sendbuf.push bytes).reset = h.sendbuf := by
  have hhead := hroomy.head
  generalize h.sendbuf = buf at hempty hhead ⊢
  obtain ⟨data, head, cap⟩ := buf
  obtain rfl : data = [] := hempty
  obtain rfl : head = 0 := hhead
  rfl

theorem writePkts_cases (hlib : env.Lawful) (hroomy : h.Roomy) (hempty : h.sendbuf.data = [])
    (hcall : h.writePkts env fuel o = (r, h', o')) :
    h.SameBuf h' ∧ (∀ c ∈ o'.calls, c ∈ o.calls ∨ c.destlen ≤ c.room) ∧
      (r = none → h'.sendbuf.data = [] ∨ ∃ n, Blocks env h.maxPktlen h.sendbuf o.state n o'.state ∧
        h'.sendbuf.data.length = n ∧ n ≤ h.maxPktlen) := by
  induction fuel generalizing o with
  | zero =>
    obtain ⟨rfl, rfl, rfl⟩ := by simpa only [Handler.writePkts, Prod.mk.injEq] using hcall
    exact ⟨.refl h, fun c hc => .inl hc, nofun⟩
  | succ fuel ih =>
    have hfits : ∀ c ∈ o.calls ++ [⟨h.sendbuf.left, h.maxPktlen, none, none⟩], c ∈ o.calls ∨
      c.destlen ≤ c.room := by
      intro c hc
      rcases List.mem_append.mp hc with hc | hc
      · exact .inl hc
      · rw [List.mem_singleton.mp hc]
        exact .inr ((hroomy.hasRoom hempty).left hroomy)
    unfold Handler.writePkts at hcall
    dsimp only at hcall
    split at hcall
    · next liberr e _ =>
      generalize herr : h.handleError env liberr e = res at hcall
      obtain ⟨rv, h₁, e₁⟩ := res
      obtain ⟨rfl, rfl, rfl⟩ := by simpa only [Prod.mk.injEq] using hcall
      exact ⟨(handleError_same herr).1, hfits, nofun⟩
    next pkt e hpkt =>
    split at hcall
    · obtain ⟨rfl, rfl, rfl⟩ := by simpa only [Prod.mk.injEq] using hcall
      exact ⟨.refl h, hfits, fun _ => .inl hempty⟩
    next hne =>
    split at hcall
    · next buf' e₂ hsend =>
      obtain rfl : buf' = h.sendbuf := by
        rcases sendPacket_cases hsend with ⟨-, rfl⟩ | ⟨hnot, -⟩
        · exact push_reset hroomy hempty pkt
        · exact absurd rfl hnot
      obtain ⟨hsame, hfits', hnone⟩ := ih hcall
      refine ⟨hsame, fun c hc => (hfits' c hc).elim (hfits c) .inr, fun hr => ?_⟩
      rcases hnone hr with hempty' | ⟨n, hblocks, hlen⟩
      · exact .inl hempty'
      · exact .inr ⟨n, .later hpkt hne hsend hblocks, hlen⟩
    · next buf' e₂ hsend =>
      obtain ⟨rfl, rfl, rfl⟩ := by simpa only [Prod.mk.injEq] using hcall
      obtain rfl : buf' = h.sendbuf.push pkt := by
        rcases sendPacket_cases hsend with ⟨hnot, -⟩ | ⟨-, rfl⟩
        · cases hnot
        · rfl
      have hlen : (h.sendbuf.push pkt).data.length = pkt.length := by
        rw [Buffer.push, hempty, List.nil_append]
      exact ⟨sendPacket_same hsend, hfits,
        fun _ => .inr ⟨_, .now hpkt hne hsend, hlen, nextPkt_le hlib hpkt⟩⟩
    · next rv buf' e₂ _ _ hsend =>
      obtain ⟨rfl, rfl, rfl⟩ := by simpa only [Prod.mk.injEq] using hcall
      exact ⟨sendPacket_same hsend, hfits, nofun⟩

/-- With enough turns the loop comes to the packet that blocks. -/
theorem writePkts_blocks (hroomy : h.Roomy) (hempty : h.sendbuf.data = [])
    (hblocks : Blocks env h.maxPktlen h.sendbuf e n e') (calls : List Call) :
    ∃ fuel h' calls', h.writePkts env (fuel + 1) ⟨e, calls⟩ = (none, h', ⟨e', calls'⟩) ∧
    h'.sendbuf.data.length = n := by
  generalize hbuf : h.sendbuf = buf at hblocks
  generalize hmax : h.maxPktlen = destlen at hblocks
  induction hblocks generalizing calls with
  | @now e e₁ e₂ pkt buf' write ne send =>
    subst hbuf hmax
    refine ⟨0, { h with sendbuf := buf' }, calls ++ [⟨h.sendbuf.left, h.maxPktlen, none, none⟩], ?_,
      ?_⟩
    · unfold Handler.writePkts
      dsimp only
      rw [write]
      dsimp only
      rw [if_neg ne, send]
    · rcases sendPacket_cases send with ⟨hnot, -⟩ | ⟨-, rfl⟩
      · cases hnot
      · rw [Buffer.push, hempty, List.nil_append]
  | @later e e₁ e₂ e₃ pkt buf' n write ne send rest ih =>
    obtain ⟨fuel, h', calls', hcall, hlen⟩ :=
      ih (calls ++ [⟨h.sendbuf.left, h.maxPktlen, none, none⟩])
    subst hbuf hmax
    refine ⟨fuel + 1, h', calls', ?_, hlen⟩
    obtain rfl : buf' = h.sendbuf := by
      rcases sendPacket_cases send with ⟨-, rfl⟩ | ⟨hnot, -⟩
      · exact push_reset hroomy hempty pkt
      · exact absurd rfl hnot
    unfold Handler.writePkts
    dsimp only
    rw [write]
    dsimp only
    rw [if_neg ne, send]
    exact hcall

end

/-! ## Every call of a run -/

/-- `on_write` comes to stream data behind a packet that leaves too little room: the packet that waited was
sent, the socket did not take one of the new ones, and a stream may be written. -/
def Handler.Collides (env : Env ε) (h : Handler) (e : ε) : Prop :=
  env.inClosingPeriod e = false ∧ ∃ h₁ e₁, h.resend env e = (.ok, h₁, e₁) ∧
    ∃ n e₂, Blocks env h.maxPktlen h₁.sendbuf e₁ n e₂ ∧ h.sendbuf.cap < n + h.maxPktlen ∧
      ¬env.Full e₂ ∧ ∃ p ∈ h.streams, p.2.Pending

section
variable {h h' : Handler} {e e' : ε} {o o' : Outside ε} {rv : Rv} {fuel : Nat} {inet6 : Bool} {ops : List (Op ε)}

/-- Before the first loop the buffer is empty. -/
theorem resend_cases (hresend : h.resend env e = (rv, h', e')) :
    h.SameBuf h' ∧ (h.Roomy → rv = .ok → h'.sendbuf.data = []) := by
  unfold Handler.resend at hresend
  split at hresend
  · generalize hsend : sendPacket env h.sendbuf e = res at hresend
    obtain ⟨rv', buf', e''⟩ := res
    obtain ⟨rfl, rfl, rfl⟩ := by simpa only [Prod.mk.injEq] using hresend
    rcases sendPacket_cases hsend with ⟨-, rfl⟩ | ⟨hne, rfl⟩
    · exact ⟨⟨rfl, rfl, fun _ => rfl, rfl⟩, fun _ _ => rfl⟩
    · exact ⟨.refl h, fun _ hok => absurd hok hne⟩
  · next hsize =>
    obtain ⟨rfl, rfl, rfl⟩ := by simpa only [Prod.mk.injEq] using hresend
    refine ⟨.refl h, fun hroomy _ => List.eq_nil_of_length_eq_zero ?_⟩
    have hhead := hroomy.head
    unfold Buffer.size at hsize
    omega

theorem removeTxStreamData_sendbuf {streamId offset datalen : Nat}
    (hcall : h.removeTxStreamData env streamId offset datalen e = (rv, h', e')) :
    h'.maxPktlen = h.maxPktlen ∧ h'.sendbuf = h.sendbuf := by
  unfold Handler.removeTxStreamData at hcall
  split at hcall
  · obtain ⟨-, rfl, -⟩ := by simpa only [Prod.mk.injEq] using hcall
    exact ⟨rfl, rfl⟩
  split at hcall
  · obtain ⟨-, rfl, -⟩ := by simpa only [Prod.mk.injEq] using hcall
    exact ⟨rfl, rfl⟩
  dsimp only at hcall
  split at hcall
  · split at hcall <;> obtain ⟨-, rfl, -⟩ := by simpa only [Prod.mk.injEq] using hcall
    all_goals exact ⟨rfl, rfl⟩
  · obtain ⟨-, rfl, -⟩ := by simpa only [Prod.mk.injEq] using hcall
    exact ⟨rfl, rfl⟩

theorem queueData_sendbuf (h : Handler) (streamId : Nat) (data : List (List UInt8)) (fin : Bool)
    (respState : RespState) :
    (h.queueData streamId data fin respState).maxPktlen = h.maxPktlen ∧
      (h.queueData streamId data fin respState).sendbuf = h.sendbuf := by
  unfold Handler.queueData
  dsimp only
  split <;> exact ⟨rfl, rfl⟩

/-- The assertion before the first loop holds, and the loops run one after the other. -/
theorem onWrite_loops (hroomy : h.Roomy) {h₁ : Handler} {e₁ : ε}
    (hopen : env.inClosingPeriod e = false)
    (hresend : h.resend env e = (.ok, h₁, e₁)) (fuel : Nat) (calls : List Call) :
    h.onWrite env fuel ⟨e, calls⟩ =
      match h₁.writePkts env fuel ⟨e₁, calls⟩ with
      | (some rv, h₂, o) => (rv, h₂, o)
      | (none, h₂, o) =>
        let (rv, streams, h₂, o) := Handler.writeStreams env fuel h₂.streams h₂ o
        (rv, { h₂ with streams }, o) := by
  obtain ⟨hsame, hempty⟩ := resend_cases hresend
  have hroomy₁ := hsame.roomy hroomy
  have hleft := (hroomy₁.hasRoom (hempty hroomy rfl)).left hroomy₁
  have hopen' : ¬(env.inClosingPeriod e = true) := by
    rw [hopen]
    decide
  unfold Handler.onWrite
  dsimp only
  rw [if_neg hopen', hresend]
  dsimp only
  exact if_neg (Nat.not_lt.mpr hleft)

theorem onWrite_roomy (hlib : env.Lawful) (hroomy : h.Roomy)
    (hcall : h.onWrite env fuel o = (rv, h', o')) : h'.Roomy := by
  obtain ⟨e, calls⟩ := o
  by_cases hopen : env.inClosingPeriod e = true
  · unfold Handler.onWrite at hcall
    rw [if_pos hopen] at hcall
    obtain ⟨-, rfl, -⟩ := by simpa only [Prod.mk.injEq] using hcall
    exact hroomy
  generalize hresend : h.resend env e = res
  obtain ⟨rv₁, h₁, e₁⟩ := res
  obtain ⟨hsame, hempty⟩ := resend_cases hresend
  have hroomy₁ := hsame.roomy hroomy
  by_cases hok : rv₁ = .ok
  · subst hok
    rw [onWrite_loops hroomy (Bool.eq_false_iff.mpr hopen) hresend] at hcall
    generalize hpkts : h₁.writePkts env fuel ⟨e₁, calls⟩ = res at hcall
    obtain ⟨r, h₂, o₂⟩ := res
    have hroomy₂ := (writePkts_cases hlib hroomy₁ (hempty hroomy rfl) hpkts).1.roomy hroomy₁
    cases r with
    | some rv =>
      obtain ⟨-, rfl, -⟩ := by simpa only [Prod.mk.injEq] using hcall
      exact hroomy₂
    | none =>
      obtain ⟨-, rfl, -⟩ := by simpa only [Prod.mk.injEq] using hcall
      have hroomy₃ := (writeStreams_wrote env fuel h₂.streams h₂ o₂).same.roomy hroomy₂
      exact ⟨hroomy₃.head, hroomy₃.cap, hroomy₃.max⟩
  · unfold Handler.onWrite at hcall
    dsimp only at hcall
    rw [if_neg hopen, hresend] at hcall
    cases rv₁ with
    | ok => exact absurd rfl hok
    | _ =>
      obtain ⟨-, rfl, -⟩ := by simpa only [Prod.mk.injEq] using hcall
      exact hroomy₁

theorem Step.roomy {op : Op ε} (hstep : Step env ops h op h') (hlib : env.Lawful)
    (hroomy : h.Roomy) : h'.Roomy := by
  cases hstep with
  | onWrite call kept => exact onWrite_roomy hlib hroomy call
  | handleError call kept => exact (handleError_same call).1.roomy hroomy
  | sendConnClose call kept => exact (sendConnClose_same call).roomy hroomy
  | ack acked call kept =>
    obtain ⟨hmax, hbuf⟩ := removeTxStreamData_sendbuf call
    exact ⟨by rw [hbuf]; exact hroomy.head, by rw [hbuf]; exact hroomy.cap, by rw [hmax]; exact hroomy.max⟩
  | queue streamId data fin respState =>
    obtain ⟨hmax, hbuf⟩ := queueData_sendbuf h streamId data fin respState
    exact ⟨by rw [hbuf]; exact hroomy.head, by rw [hbuf]; exact hroomy.cap, by rw [hmax]; exact hroomy.max⟩
  | close streamId =>
    unfold Handler.onStreamClose
    split
    · exact hroomy
    · exact ⟨hroomy.head, hroomy.cap, hroomy.max⟩
  | writeServerHandshake data => exact ⟨hroomy.head, hroomy.cap, hroomy.max⟩
  | readServerHandshake =>
    unfold Handler.readServerHandshake
    split
    · exact hroomy
    · exact ⟨hroomy.head, hroomy.cap, hroomy.max⟩

theorem run_roomy (hlib : env.Lawful) (hrun : Runs.Run (Step env) (Handler.init inet6) ops h) :
    h.Roomy :=
  hrun.invariant (fun _ h => h.Roomy) (Handler.init_roomy inet6) fun _ _ _ _ hroomy hstep =>
    hstep.roomy hlib hroomy

/-- Every packet of a write is made with room for it exactly when the write does not come to stream data behind
a packet that waits. -/
theorem onWrite_room (hlib : env.Lawful) (hrun : Runs.Run (Step env) (Handler.init inet6) ops h)
    (e : ε) :
    (∀ fuel, ∀ c ∈ (h.onWrite env fuel ⟨e, []⟩).2.2.calls, c.destlen ≤ c.room) ↔
    ¬h.Collides env e := by
  have hroomy := run_roomy hlib hrun
  constructor
  · rintro hfits ⟨hopen, h₁, e₁, hresend, n, e₂, hblocks, hover, hfull, hpending⟩
    obtain ⟨hsame, hempty⟩ := resend_cases hresend
    have hroomy₁ := hsame.roomy hroomy
    rw [← hsame.max] at hblocks
    obtain ⟨fuel, h₂, calls, hpkts, hlen⟩ := writePkts_blocks hroomy₁ (hempty hroomy rfl) hblocks []
    obtain ⟨hsame₂, -, hnone⟩ := writePkts_cases hlib hroomy₁ (hempty hroomy rfl) hpkts
    have hroomy₂ := hsame₂.roomy hroomy₁
    have hmax : h₂.maxPktlen = h.maxPktlen := hsame₂.max.trans hsame.max
    have hle : h₂.sendbuf.data.length ≤ h₂.maxPktlen := by
      rcases hnone rfl with hnil | ⟨m, -, hm, hle⟩
      · rw [hnil]
        exact Nat.zero_le _
      · rw [hm, hsame₂.max]
        exact hle
    have hleft : h₂.sendbuf.left < h₂.maxPktlen := by
      apply hroomy₂.left_lt _ hle
      rw [Handler.HasRoom, hlen, hmax, hroomy₂.cap, ← hroomy.cap]
      omega
    rw [← hsame.streams, ← hsame₂.streams] at hpending
    obtain ⟨c, hc, hroom, hdestlen⟩ := writeStreams_call (o := ⟨e₂, calls⟩) fuel h₂ hfull hpending
    have hfit := hfits (fuel + 1) c (by
      rw [onWrite_loops hroomy hopen hresend, hpkts]
      exact hc)
    omega
  · intro hcollides fuel c hc
    by_cases hopen : env.inClosingPeriod e = true
    · unfold Handler.onWrite at hc
      rw [if_pos hopen] at hc
      cases hc
    generalize hresend : h.resend env e = res
    obtain ⟨rv₁, h₁, e₁⟩ := res
    obtain ⟨hsame, hempty⟩ := resend_cases hresend
    by_cases hok : rv₁ = .ok
    · subst hok
      have hroomy₁ := hsame.roomy hroomy
      rw [onWrite_loops hroomy (Bool.eq_false_iff.mpr hopen) hresend] at hc
      generalize hpkts : h₁.writePkts env fuel ⟨e₁, []⟩ = res at hc
      obtain ⟨r, h₂, o₂⟩ := res
      obtain ⟨hsame₂, hfits, hnone⟩ := writePkts_cases hlib hroomy₁ (hempty hroomy rfl) hpkts
      have hroomy₂ := hsame₂.roomy hroomy₁
      have hfits' : ∀ c ∈ o₂.calls, c.destlen ≤ c.room :=
        fun c hc => (hfits c hc).resolve_left List.not_mem_nil
      cases r with
      | some rv => exact hfits' c hc
      | none =>
        have hwrote := writeStreams_wrote env fuel h₂.streams h₂ o₂
        by_cases hroom : h₂.HasRoom
        · exact (hwrote.fits hroomy₂ hroom c hc).elim (hfits' c) id
        · -- The stream loop starts behind a packet that waits, so nothing may be pending.
          have hquiet : env.Full o₂.state ∨ ∀ p ∈ h₂.streams, ¬p.2.Pending := by
            rcases hnone rfl with hnil | ⟨n, hblocks, hlen, -⟩
            · exact absurd (hroomy₂.hasRoom hnil) hroom
            · rw [Handler.HasRoom, hlen, hroomy₂.cap, ← hroomy.cap, hsame₂.max, hsame.max] at hroom
              rw [hsame.max] at hblocks
              rw [hsame₂.streams, hsame.streams]
              by_contra hbusy
              rw [not_or] at hbusy
              obtain ⟨hfull, hpending⟩ := hbusy
              apply hcollides
              refine ⟨Bool.eq_false_iff.mpr hopen, h₁, e₁, hresend, n, o₂.state, hblocks, by omega, hfull, ?_⟩
              simpa using hpending
          obtain ⟨-, ho⟩ := writeStreams_quiet fuel h₂ hquiet
          dsimp only at hc
          rw [ho] at hc
          exact hfits' c hc
    · unfold Handler.onWrite at hc
      dsimp only at hc
      rw [if_neg hopen, hresend] at hc
      cases rv₁ with
      | ok => exact absurd rfl hok
      | _ => cases hc

end

/-- A request was answered, and the socket takes everything. -/
theorem onWrite_room_answered :
    (∀ fuel, ∀ c ∈ (((Handler.init true).queueData 4 [[1, 2, 3]] true .completed).onWrite scripted fuel ⟨⟨[], []⟩, []⟩).2.2.calls,
      c.destlen ≤ c.room) ↔ ¬((Handler.init true).queueData 4 [[1, 2,
      3]] true .completed).Collides scripted ⟨[], []⟩ :=
  onWrite_room scripted_lawful (Runs.Run.nil.snoc (.queue _ 4 [[1, 2, 3]] true .completed)) ⟨[], []⟩

/-- The socket does not take a packet of 39 bytes, and the answer of stream 4 is written behind it: the library may
write 1252 bytes where 1213 are left. -/
theorem onWrite_overrun :
    ∃ h, Runs.Run (Step scripted) (Handler.init false) [.queue 4 [[1, 2, 3]] true .completed] h ∧
      ∃ c ∈ (h.onWrite scripted 2 ⟨⟨[List.replicate 39 0], [false]⟩, []⟩).2.2.calls, c.room = 1213 ∧
      c.destlen = 1252 :=
  ⟨_, Runs.Run.nil.snoc (.queue _ 4 [[1, 2, 3]] true .completed), by decide +kernel⟩

end Server
