import Mathlib.Data.List.Sort
import Polygon.Handler

/-!
# The connection tables

The server and the load balancer find the handler of a packet by the connection ID that the
handler chose, and through `ctos_` by the one that its client chose.
-/
namespace Server

/-! ## State -/

/-- A `Handler` as the tables see it: the connection IDs it was made with. -/
structure Registered where
  connId : Nat
  clientConnId : Nat
  deriving DecidableEq, Repr

/-- `handlers_` and `ctos_`. -/
structure Tables where
  handlers : Std.TreeMap Nat Registered
  ctos : Std.TreeMap Nat Nat

/-- What `ngtcp2_accept` says. -/
inductive Accept where
  | ok | unexpected | unsupportedVersion
  deriving DecidableEq, Repr

/-- A packet, and what the functions answer that `on_read` calls. -/
structure Arrival where
  /-- The packet is lost, or not meant for this program. -/
  dropped : Bool
  /-- The connection ID of the header, if it can be decoded. -/
  connId : Option Nat
  nread : Nat
  accept : Accept
  /-- What a new handler takes as its connection ID. -/
  newConnId : Nat
  closing : Bool
  draining : Bool
  sendConnClose : Rv
  onRead : Rv
  onWrite : Rv

/-- `MIN_PKT_SIZE`. -/
def minPktSize : Nat := 1200

namespace Tables

def empty : Tables := ⟨∅, ∅⟩

/-- `remove` of a handler. -/
def remove (t : Tables) (h : Registered) : Tables :=
    ⟨t.handlers.erase h.connId, t.ctos.erase h.clientConnId⟩

/-- `remove` at an iterator, with its key and its handler. -/
def removeAt (t : Tables) (it : Nat × Registered) : Tables :=
    ⟨t.handlers.erase it.1, t.ctos.erase it.2.clientConnId⟩

/-- The loop of `disconnect`, which removes the first handler as long as there is one. -/
def removeEach : List (Nat × Registered) → Tables → Tables
  | [], t => t
  | it :: rest, t => removeEach rest (t.removeAt it)

def disconnect (t : Tables) : Tables := removeEach t.handlers.toList t

/-- The loop of `Server::on_write`, with what the handlers answer. -/
def onWriteLoop (rvs : Nat → Rv) : List (Nat × Registered) → Tables → Tables
  | [], t => t
  | it :: rest, t =>
    match rvs it.1 with
    | .ok | .closeWait => onWriteLoop rvs rest t
    | .sendNonFatal => t
    | _ => onWriteLoop rvs rest (t.removeAt it)

def onWrite (t : Tables) (rvs : Nat → Rv) : Tables := onWriteLoop rvs t.handlers.toList t

/-- `timeoutcb`. -/
def timeoutcb (t : Tables) (h : Registered) (closing draining : Bool) : Tables :=
  if closing then t.remove h
  else if draining then t.remove h
  else t

/-- `retransmitcb`. -/
def retransmitcb (t : Tables) (h : Registered) (rv : Rv) : Tables :=
    if rv.kept then t else t.remove h

/-- A packet of a connection ID that is in neither table. -/
def accept (t : Tables) (clientConnId : Nat) (a : Arrival) : Tables :=
  if a.nread < minPktSize then t
  else
    match a.accept with
    | .unexpected | .unsupportedVersion => t
    | .ok =>
      if a.onRead ≠ .ok then t
      else
        match a.onWrite with
        | .ok | .sendNonFatal =>
          ⟨t.handlers.insertIfNew a.newConnId ⟨a.newConnId, clientConnId⟩,
            t.ctos.insertIfNew clientConnId a.newConnId⟩
        | _ => t

/-- A packet for the handler at an iterator; `after` is what is left to do behind `on_write`. -/
def deliver (after : Tables → Tables) (t : Tables) (it : Nat × Registered) (a : Arrival) : Tables :=
  if a.closing then
    match a.sendConnClose with
    | .ok | .sendNonFatal => t
    | _ => t.removeAt it
  else if a.draining then t
  else if a.onRead ≠ .ok then
    if a.onRead ≠ .closeWait then t.removeAt it else t
  else if a.onWrite.kept then after t
  else after (t.removeAt it)

/-- `Server::on_read` of both programs, with the handler that the packet is for; `none` when the assertion behind
the lookup in `ctos_` fails. -/
def onReadWith (after : Tables → Tables) (t : Tables) (a : Arrival) :
    Option (Tables × Option Registered) :=
  if a.dropped then some (t, none)
  else
    match a.connId with
    | none => some (t, none)
    | some connId =>
      match t.handlers[connId]? with
      | some h => some (deliver after t (connId, h) a, some h)
      | none =>
        match t.ctos[connId]? with
        | none => some (t.accept connId a, none)
        | some s =>
          match t.handlers[s]? with
          | none => none
          | some h => some (deliver after t (s, h) a, some h)

end Tables

/-- The two programs; the balancer ends all connections behind `on_write`. -/
inductive Program where
  | server | balancer
  deriving DecidableEq, Repr

/-- `Server::on_read` of the program. -/
def Tables.onRead (t : Tables) : Program → Arrival → Option (Tables × Option Registered)
  | .server => t.onReadWith fun t => t
  | .balancer => t.onReadWith Tables.disconnect

/-! ## Runs -/

inductive TableOp where
  | read (a : Arrival)
  | write (rvs : Nat → Rv)
  | timeout (h : Registered) (closing draining : Bool)
  | retransmit (h : Registered) (rv : Rv)
  | disconnect

/-- The connection ID that a new handler takes is not in use. -/
structure Tables.Fresh (t : Tables) (a : Arrival) : Prop where
  handlers : t.handlers[a.newConnId]? = none
  ctos : t.ctos[a.newConnId]? = none
  client : a.connId ≠ some a.newConnId

/-- One event of the loop; the timers of a handler run as long as it is in the table. -/
inductive TableStep (p : Program) : List TableOp → Tables → TableOp → Tables → Prop where
  | read {ops : List TableOp} {t t' : Tables} {a : Arrival} {r : Option Registered}
      (fresh : t.Fresh a)
      (call : t.onRead p a = some (t', r)) : TableStep p ops t (.read a) t'
  | write {ops : List TableOp} (t : Tables) (rvs : Nat → Rv) :
      TableStep p ops t (.write rvs) (t.onWrite rvs)
  | timeout {ops : List TableOp} {t : Tables} {s : Nat} {h : Registered}
      (registered : t.handlers[s]? = some h)
      (closing draining : Bool) :
        TableStep p ops t (.timeout h closing draining) (t.timeoutcb h closing draining)
  | retransmit {ops : List TableOp} {t : Tables} {s : Nat} {h : Registered}
      (registered : t.handlers[s]? = some h) (rv : Rv) :
      TableStep p ops t (.retransmit h rv) (t.retransmitcb h rv)
  | disconnect {ops : List TableOp} (t : Tables) : TableStep p ops t .disconnect t.disconnect

/-! ## The two tables belong together -/

/-- The tables describe the same handlers, and no client uses a connection ID that a handler chose. -/
structure Tables.Matched (t : Tables) : Prop where
  bijective : ∀ c s : Nat, t.ctos[c]? = some s ↔ ∃ h :
    Registered, t.handlers[s]? = some h ∧ h.clientConnId = c
  key : ∀ (s : Nat) (h : Registered), t.handlers[s]? = some h → h.connId = s
  apart : ∀ c s : Nat, t.ctos[c]? = some s → t.handlers[c]? = none

section
variable {t t' : Tables} {s : Nat} {h : Registered} {it : Nat × Registered} {a : Arrival} {after : Tables → Tables}

theorem Tables.empty_matched : Tables.empty.Matched := by
  constructor
  · intro c s
    simp [Tables.empty]
  · intro s h hs
    simp [Tables.empty] at hs
  · intro c s hc
    simp [Tables.empty] at hc

theorem handlers_removeAt (t : Tables) (it : Nat × Registered) (k : Nat) :
    (t.removeAt it).handlers[k]? = if it.1 = k then none else t.handlers[k]? := by
  simp [Tables.removeAt, Std.TreeMap.getElem?_erase]

theorem ctos_removeAt (t : Tables) (it : Nat × Registered) (c : Nat) :
    (t.removeAt it).ctos[c]? = if it.2.clientConnId = c then none else t.ctos[c]? := by
  simp [Tables.removeAt, Std.TreeMap.getElem?_erase]

/-- A handler goes with its client's entry, and nothing else goes. -/
theorem Tables.Matched.removeAt (hmatched : t.Matched) (hit : t.handlers[it.1]? = some it.2) :
    (t.removeAt it).Matched := by
  have hown : t.ctos[it.2.clientConnId]? = some it.1 :=
    (hmatched.bijective _ _).mpr ⟨it.2, hit, rfl⟩
  constructor
  · intro c s
    rw [handlers_removeAt, ctos_removeAt]
    by_cases hc : it.2.clientConnId = c
    · rw [if_pos hc]
      constructor
      · intro h
        cases h
      · rintro ⟨h, hs, hclient⟩
        split at hs
        · cases hs
        · next hne =>
          have hother := (hmatched.bijective c s).mpr ⟨h, hs, hclient⟩
          rw [← hc, hown] at hother
          exact absurd (Option.some.inj hother) hne
    · rw [if_neg hc, hmatched.bijective]
      constructor
      · rintro ⟨h, hs, hclient⟩
        have hne : it.1 ≠ s := by
          rintro rfl
          rw [hit] at hs
          obtain rfl := Option.some.inj hs
          exact hc hclient
        exact ⟨h, by rw [if_neg hne]; exact hs, hclient⟩
      · rintro ⟨h, hs, hclient⟩
        split at hs
        · cases hs
        · exact ⟨h, hs, hclient⟩
  · intro s h hs
    rw [handlers_removeAt] at hs
    split at hs
    · cases hs
    · exact hmatched.key s h hs
  · intro c s hc
    rw [ctos_removeAt] at hc
    split at hc
    · cases hc
    · rw [handlers_removeAt]
      split
      · rfl
      · exact hmatched.apart c s hc

theorem Tables.Matched.remove (hmatched : t.Matched) (hs : t.handlers[s]? = some h) :
    (t.remove h).Matched := by
  have hkey := hmatched.key s h hs
  rw [← hkey] at hs
  exact @Tables.Matched.removeAt t (h.connId, h) hmatched hs

/-- A loop over the handlers, from `t` with those of `l` still to come. -/
structure Ahead (t : Tables) (l : List (Nat × Registered)) : Prop where
  matched : t.Matched
  distinct : l.Pairwise fun it it' => it.1 ≠ it'.1
  registered : ∀ it ∈ l, t.handlers[it.1]? = some it.2

theorem Tables.Matched.ahead (hmatched : t.Matched) : Ahead t t.handlers.toList := by
  constructor
  · exact hmatched
  · refine Std.TreeMap.distinct_keys_toList.imp fun hne heq => hne ?_
    rw [heq]
    exact Std.ReflCmp.compare_self
  · exact fun it hit => Std.TreeMap.mem_toList_iff_getElem?_eq_some.mp hit

theorem Ahead.skip {l : List (Nat × Registered)} (hahead : Ahead t (it :: l)) : Ahead t l :=
  ⟨hahead.matched, (List.pairwise_cons.mp hahead.distinct).2,
    fun it' h => hahead.registered it' (List.mem_cons_of_mem _ h)⟩

theorem Ahead.removeAt {l : List (Nat × Registered)} (hahead : Ahead t (it :: l)) :
    Ahead (t.removeAt it) l := by
  obtain ⟨hne, hdistinct⟩ := List.pairwise_cons.mp hahead.distinct
  constructor
  · exact hahead.matched.removeAt (hahead.registered it List.mem_cons_self)
  · exact hdistinct
  · intro it' h
    rw [handlers_removeAt, if_neg (hne it' h)]
    exact hahead.registered it' (List.mem_cons_of_mem _ h)

theorem Ahead.removeEach {l : List (Nat × Registered)} (hahead : Ahead t l) :
    (Tables.removeEach l t).Matched := by
  induction l generalizing t with
  | nil => exact hahead.matched
  | cons it l ih => exact ih hahead.removeAt

theorem Ahead.onWriteLoop {l : List (Nat × Registered)} (rvs : Nat → Rv) (hahead : Ahead t l) :
    (Tables.onWriteLoop rvs l t).Matched := by
  induction l generalizing t with
  | nil => exact hahead.matched
  | cons it l ih =>
    unfold Tables.onWriteLoop
    split
    · exact ih hahead.skip
    · exact ih hahead.skip
    · exact hahead.matched
    · exact ih hahead.removeAt

/-- A new handler and its client come into the tables together. -/
theorem Tables.Matched.insert {c n : Nat} (hmatched : t.Matched) (hhandlers : t.handlers[n]? = none)
    (hctos : t.ctos[n]? = none)
    (hne : c ≠ n) (hc : t.handlers[c]? = none) (hc' : t.ctos[c]? = none) :
    Tables.Matched ⟨t.handlers.insertIfNew n ⟨n, c⟩, t.ctos.insertIfNew c n⟩ := by
  have hnew : ∀ k : Nat, (t.handlers.insertIfNew n (⟨n, c⟩ : Registered))[k]? = if n =
    k then some ⟨n, c⟩ else t.handlers[k]? := by
    intro k
    have hmem : n ∉ t.handlers := by simp [Std.TreeMap.mem_iff_isSome_getElem?, hhandlers]
    simp [Std.TreeMap.getElem?_insertIfNew, hmem]
  have hnew' : ∀ k : Nat, (t.ctos.insertIfNew c n)[k]? = if c = k then some n else t.ctos[k]? := by
    intro k
    have hmem : c ∉ t.ctos := by simp [Std.TreeMap.mem_iff_isSome_getElem?, hc']
    simp [Std.TreeMap.getElem?_insertIfNew, hmem]
  constructor
  · intro k s
    rw [hnew, hnew']
    by_cases hk : c = k
    · subst hk
      rw [if_pos rfl]
      constructor
      · intro hs
        obtain rfl := Option.some.inj hs
        exact ⟨⟨n, c⟩, if_pos rfl, rfl⟩
      · rintro ⟨h, hs, hclient⟩
        split at hs
        · next heq => rw [heq]
        · -- An older handler of the client would be in the table of the clients.
          have hold := (hmatched.bijective c s).mpr ⟨h, hs, hclient⟩
          rw [hc'] at hold
          cases hold
    · rw [if_neg hk, hmatched.bijective]
      constructor
      · rintro ⟨h, hs, hclient⟩
        have hns : n ≠ s := by
          rintro rfl
          rw [hhandlers] at hs
          cases hs
        exact ⟨h, by rw [if_neg hns]; exact hs, hclient⟩
      · rintro ⟨h, hs, hclient⟩
        split at hs
        · obtain rfl := Option.some.inj hs
          exact absurd hclient hk
        · exact ⟨h, hs, hclient⟩
  · intro s h hs
    rw [hnew] at hs
    split at hs
    · next heq =>
      obtain rfl := Option.some.inj hs
      exact heq
    · exact hmatched.key s h hs
  · intro k s hk
    rw [hnew'] at hk
    rw [hnew]
    split at hk
    · next heq =>
      subst heq
      rw [if_neg (Ne.symm hne)]
      exact hc
    · have hnk : n ≠ k := by
        rintro rfl
        rw [hctos] at hk
        cases hk
      rw [if_neg hnk]
      exact hmatched.apart k s hk

theorem accept_matched {c : Nat} (hmatched : t.Matched) (hfresh : t.Fresh a)
    (hconn : a.connId = some c)
    (hc : t.handlers[c]? = none) (hc' : t.ctos[c]? = none) : (t.accept c a).Matched := by
  have hne : c ≠ a.newConnId := fun heq => hfresh.client (by rw [hconn, heq])
  have hinsert := hmatched.insert hfresh.handlers hfresh.ctos hne hc hc'
  unfold Tables.accept
  split
  · exact hmatched
  split
  · exact hmatched
  · exact hmatched
  split
  · exact hmatched
  split
  · exact hinsert
  · exact hinsert
  · exact hmatched

theorem deliver_matched (hafter : ∀ t : Tables, t.Matched → (after t).Matched)
    (hmatched : t.Matched)
    (hit : t.handlers[it.1]? = some it.2) : (Tables.deliver after t it a).Matched := by
  have hremoved := hmatched.removeAt hit
  unfold Tables.deliver
  split
  · split
    · exact hmatched
    · exact hmatched
    · exact hremoved
  split
  · exact hmatched
  split
  · split
    · exact hremoved
    · exact hmatched
  split
  · exact hafter t hmatched
  · exact hafter _ hremoved

/-- The packet goes to the handler of its connection ID, and the tables still belong together. -/
theorem onReadWith_matched (hafter : ∀ t : Tables, t.Matched → (after t).Matched)
    (hmatched : t.Matched) (hfresh : t.Fresh a)
    {r : Option Registered} (hcall : t.onReadWith after a = some (t', r)) : t'.Matched := by
  unfold Tables.onReadWith at hcall
  split at hcall
  · obtain ⟨rfl, -⟩ := Prod.mk.inj (Option.some.inj hcall)
    exact hmatched
  split at hcall
  · obtain ⟨rfl, -⟩ := Prod.mk.inj (Option.some.inj hcall)
    exact hmatched
  next c hconn =>
  split at hcall
  · next h hc =>
    obtain ⟨rfl, -⟩ := Prod.mk.inj (Option.some.inj hcall)
    exact @deliver_matched t (c, h) a after hafter hmatched hc
  next hc =>
  split at hcall
  · next hc' =>
    obtain ⟨rfl, -⟩ := Prod.mk.inj (Option.some.inj hcall)
    exact accept_matched hmatched hfresh hconn hc hc'
  next s _ =>
  split at hcall
  · cases hcall
  · next h hs =>
    obtain ⟨rfl, -⟩ := Prod.mk.inj (Option.some.inj hcall)
    exact @deliver_matched t (s, h) a after hafter hmatched hs

theorem onRead_matched {p : Program} (hmatched : t.Matched) (hfresh : t.Fresh a)
    {r : Option Registered}
    (hcall : t.onRead p a = some (t', r)) : t'.Matched := by
  cases p with
  | server => exact onReadWith_matched (fun _ h => h) hmatched hfresh hcall
  | balancer => exact onReadWith_matched (fun _ h => h.ahead.removeEach) hmatched hfresh hcall

theorem TableStep.matched {p : Program} {ops : List TableOp} {op : TableOp}
    (hstep : TableStep p ops t op t') (hmatched : t.Matched) :
    t'.Matched := by
  cases hstep with
  | read fresh call => exact onRead_matched hmatched fresh call
  | write rvs => exact hmatched.ahead.onWriteLoop rvs
  | timeout registered closing draining =>
    unfold Tables.timeoutcb
    split
    · exact hmatched.remove registered
    split
    · exact hmatched.remove registered
    · exact hmatched
  | retransmit registered rv =>
    unfold Tables.retransmitcb
    split
    · exact hmatched
    · exact hmatched.remove registered
  | disconnect => exact hmatched.ahead.removeEach

/-- The lookup behind `ctos_` finds a handler, and the packets of a client go to its handler whichever of the two
connection IDs they carry. -/
theorem Tables.Matched.onReadWith (hmatched : t.Matched) (a : Arrival) :
    (∃ t' r, t.onReadWith after a = some (t', r)) ∧
      ∀ (c s : Nat) (h : Registered), t.ctos[c]? = some s → t.handlers[s]? = some h →
      a.dropped = false → (a.connId = some c ∨ a.connId = some s) →
        ∃ t', t.onReadWith after a = some (t', some h) := by
  unfold Tables.onReadWith
  constructor
  · split
    · exact ⟨_, _, rfl⟩
    split
    · exact ⟨_, _, rfl⟩
    split
    · exact ⟨_, _, rfl⟩
    split
    · exact ⟨_, _, rfl⟩
    next c s hctos =>
    obtain ⟨h, hs, -⟩ := (hmatched.bijective _ _).mp hctos
    rw [hs]
    exact ⟨_, _, rfl⟩
  · intro c s h hctos hs hdropped hconn
    rw [hdropped, if_neg (by decide)]
    rcases hconn with hconn | hconn
    · rw [hconn]
      dsimp only
      rw [hmatched.apart c s hctos, hctos]
      dsimp only
      rw [hs]
      exact ⟨_, rfl⟩
    · rw [hconn]
      dsimp only
      rw [hs]
      exact ⟨_, rfl⟩

/-- In every run of both programs `ctos_` holds exactly the clients of the handlers, the assertion holds, and every
packet of a client is for its handler. -/
theorem tables_consistent {p : Program} {ops : List TableOp}
    (hrun : Runs.Run (TableStep p) Tables.empty ops t) :
    (∀ c s : Nat, t.ctos[c]? = some s ↔ ∃ h : Registered,
    t.handlers[s]? = some h ∧ h.clientConnId = c) ∧
      ∀ a, (∃ t' r, t.onRead p a = some (t', r)) ∧
        ∀ (c s : Nat) (h : Registered), t.ctos[c]? = some s → t.handlers[s]? = some h →
        a.dropped = false → (a.connId = some c ∨ a.connId = some s) →
          ∃ t', t.onRead p a = some (t', some h) := by
  have hmatched : t.Matched :=
    hrun.invariant (fun _ t => t.Matched) Tables.empty_matched fun _ _ _ _ h hstep =>
      hstep.matched h
  refine ⟨hmatched.bijective, fun a => ?_⟩
  cases p with
  | server => exact hmatched.onReadWith a
  | balancer => exact hmatched.onReadWith a

end

/-- A client comes to the server, and its next packet carries the connection ID of its handler. -/
theorem tables_consistent_client : ∃ t, Runs.Run (TableStep .server) Tables.empty
    [.read ⟨false, some 5, 1200, .ok, 9, false, false, .ok, .ok, .ok⟩] t ∧ t.ctos[5]? = some 9 ∧
      (∀ c s : Nat, t.ctos[c]? = some s ↔ ∃ h : Registered,
      t.handlers[s]? = some h ∧ h.clientConnId = c) := by
  have hfresh : Tables.empty.Fresh ⟨false, some 5, 1200, .ok, 9, false, false, .ok, .ok, .ok⟩ := by
    constructor
    · simp [Tables.empty]
    · simp [Tables.empty]
    · decide
  have hcall : Tables.empty.onRead .server ⟨false, some 5, 1200, .ok, 9, false, false, .ok, .ok,
    .ok⟩ =
      some (⟨Tables.empty.handlers.insertIfNew 9 ⟨9, 5⟩, Tables.empty.ctos.insertIfNew 5 9⟩,
        none) := by
    simp [Tables.onRead, Tables.onReadWith, Tables.empty, Tables.accept, minPktSize]
  have hrun := Runs.Run.nil.snoc (TableStep.read hfresh hcall)
  refine ⟨_, hrun, ?_, (tables_consistent hrun).1⟩
  rw [Std.TreeMap.getElem?_insertIfNew]
  simp [Tables.empty]

end Server
