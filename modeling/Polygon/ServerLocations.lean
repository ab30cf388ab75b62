import Polygon.FailedMeasurements

/-!
# Servers and data centres

CPU and throughput are measured for each server, while packets are sent to data centres.
The data centre of a server is a short form of the server's name, and two servers can
have the same one.
-/
namespace Balancer

open FirstFew

/-! ## Names -/

/-- `std::string::substr`, which throws behind the end; a string has one character for each byte. -/
def substr (s : List Char) (pos count : Nat) : Option (List Char) :=
  if pos ≤ s.length then some ((s.drop pos).take count) else none

/-- The loop of `getStdLocation`: the parts in front of the first two dashes. -/
def dashParts : Nat → List Char → List Char → List (List Char)
  | _, _, [] => []
  | cnt, part, c :: rest =>
    if c = '-' then part :: (if 1 < cnt + 1 then [] else dashParts (cnt + 1) [] rest)
    else dashParts cnt (part ++ [c]) rest

/-- The position `size - 2` in `size_t`. -/
def lastTwo (s : List Char) : Nat := (s.length + 2 ^ 64 - 2) % 2 ^ 64

/-- `util::getStdLocation`. -/
def getStdLocation (dc : String) : Option String := do
  let pre := dashParts 0 [] dc.toList
  let pre0 := pre.getD 0 []
  let pre1 := pre.getD 1 []
  let a ← substr pre0 0 2
  let b ← substr pre0 (lastTwo pre0) pre0.length
  let c ← substr pre1 0 2
  let d ← substr pre1 (lastTwo pre1) pre0.length
  return String.ofList (a ++ b ++ ['-'] ++ c ++ d)

example : getStdLocation "asia-southeast1-c" = some "asia-sot1" := by decide +kernel

/-- A configured server and what is measured of it. -/
structure MeasuredServer where
  serverName : String
  value : ℚ

def measureCpus (servers : List MeasuredServer) : Option (List CpuDC) :=
  servers.mapM fun server => (getStdLocation server.serverName).map fun dc => ⟨dc, server.value⟩

def measureThroughputs (servers : List MeasuredServer) : Option (List ThroughputDC) :=
  servers.mapM fun server => (getStdLocation server.serverName).map fun dc => ⟨dc, server.value⟩

/-! ## Copies -/

section
variable {α : Type} {m : Metric α} {dcs : Dcs} {latencies : List LatencyDC} {redundancy : Nat}

/-- No usable server in front of one of the first `redundancy` alternatives to the best server is in the same
data centre. -/
def SpreadOut (m : Metric α) (redundancy : Nat) (latencies : List LatencyDC) (best : α)
    (rest : List α) : Prop :=
  ∀ before ldc after, rest = before ++ ldc :: after → alternative m latencies best ldc = true →
    before.countP (alternative m latencies best) < redundancy → m.dc ldc ∉ (best :: before).map m.dc

/-- A server in front of an alternative, in the same data centre, is an alternative itself. -/
theorem alternative_before (hvalue : ∀ a b, m.cmp b a = false → m.value b ≤ m.value a) {best : α}
    {rest : List α}
    (hsorted : (best :: rest).Pairwise fun a b => m.cmp b a = false) :
    rest.Pairwise fun y x => alternative m latencies best x = true → m.dc y = m.dc x →
      alternative m latencies best y = true := by
  obtain ⟨hbest, hrest⟩ := List.pairwise_cons.mp hsorted
  refine hrest.imp_of_mem fun {y x} hy hx hyx halt hdc => ?_
  obtain ⟨hleast, hnear, hlatency⟩ := of_decide_eq_true halt
  have hyb := hvalue _ _ (hbest y hy)
  have hxy := hvalue _ _ hyx
  refine decide_eq_true ⟨hleast, ?_, hdc ▸ hlatency⟩
  rw [abs_of_nonneg (by linarith)] at hnear ⊢
  linarith

/-- The data centres of a choice are distinct exactly when the alternatives are spread out. -/
theorem choose_nodup (hlat : latencies.Pairwise fun a b => latencyDCCmp b a = false)
    (hvalue : ∀ a b, m.cmp b a = false → m.value b ≤ m.value a) {best : α} {rest : List α}
    (hbest : 0 ≤ m.value best)
    (hsorted : (best :: rest).Pairwise fun a b => m.cmp b a = false) :
    ((choose m redundancy latencies (best :: rest)).map m.dc).Nodup ↔
    SpreadOut m redundancy latencies best rest := by
  have hiff := @nodup_take_filter _ _
    (alternative m latencies best) redundancy rest m.dc [m.dc best]
    (alternative_before hvalue hsorted)
  rw [choose_alternative hlat hbest, List.map_cons, List.nodup_cons]
  constructor
  · rintro ⟨hbestNew, hnodup⟩ before ldc after hsplit halt hcount
    have hseen := hiff.mp ⟨hnodup, fun b hb hmem => hbestNew (List.mem_singleton.mp hmem ▸ hb)⟩
    have hnew := hseen before ldc after hsplit halt hcount
    rw [List.map_cons, List.mem_cons, not_or]
    exact ⟨fun heq => hnew.1 (List.mem_singleton.mpr heq), hnew.2⟩
  · intro h
    have hnew := hiff.mpr fun before ldc after hsplit halt hcount => by
      have := h before ldc after hsplit halt hcount
      rw [List.map_cons, List.mem_cons, not_or] at this
      exact ⟨fun hmem => this.1 (List.mem_singleton.mp hmem), this.2⟩
    exact ⟨fun hmem => hnew.2 _ hmem List.mem_cons_self, hnew.1⟩

/-- The loop over sorted measurements. -/
theorem selectLoop_nodup (hlat : latencies.Pairwise fun a b => latencyDCCmp b a = false)
    (hvalue : ∀ a b, m.cmp b a = false → m.value b ≤ m.value a)
    (hskip : ∀ ldc, m.skipped ldc = false → 0 ≤ m.value ldc)
    {measured sorted : List α} (hsort : Sorted m.cmp measured sorted) :
    ((selectLoop m dcs redundancy latencies 0 0 sorted).map m.dc).Nodup ↔
      ∀ best rest, usable m dcs sorted = best :: rest →
      SpreadOut m redundancy latencies best rest := by
  rw [selectLoop_eq]
  have hsorted : (usable m dcs sorted).Pairwise fun a b => m.cmp b a = false := hsort.order.filter _
  change ((choose m redundancy latencies (usable m dcs sorted)).map m.dc).Nodup ↔ _
  cases hlist : usable m dcs sorted with
  | nil => simp [choose]
  | cons best rest =>
    have hmem : best ∈ usable m dcs sorted := by rw [hlist]; exact List.mem_cons_self
    have husable : Usable m dcs best := of_decide_eq_true (List.mem_filter.mp hmem).2
    rw [choose_nodup hlat hvalue (hskip best husable.1) (hlist ▸ hsorted)]
    constructor
    · rintro h best' rest' heq
      obtain ⟨rfl, rfl⟩ := List.cons.inj heq
      exact h
    · intro h
      exact h best rest rfl

end

/-- What is measured is measured of a server, under the short form of its name. -/
theorem measure_mem {α : Type} {f : String → ℚ → α} {servers : List MeasuredServer} {ldcs : List α}
    (h : (servers.mapM fun server => (getStdLocation server.serverName).map fun dc => f dc server.value) = some ldcs) :
    ∀ ldc ∈ ldcs, ∃ server ∈ servers, ∃ dc, getStdLocation server.serverName = some dc ∧
    ldc = f dc server.value := by
  induction servers generalizing ldcs with
  | nil =>
    obtain rfl : ldcs = [] := by simpa using h.symm
    exact fun ldc hmem => absurd hmem List.not_mem_nil
  | cons server servers ih =>
    rw [List.mapM_cons] at h
    obtain ⟨ldc, hfirst, hrest⟩ := Option.bind_eq_some_iff.mp h
    obtain ⟨ldcs', hservers, hcons⟩ := Option.bind_eq_some_iff.mp hrest
    obtain ⟨dc, hdc, rfl⟩ := Option.map_eq_some_iff.mp hfirst
    obtain rfl : f dc server.value :: ldcs' = ldcs := Option.some.inj hcons
    intro ldc hmem
    rcases List.mem_cons.mp hmem with rfl | hmem
    · exact ⟨server, List.mem_cons_self, dc, hdc, rfl⟩
    · obtain ⟨server', hserver, hldc⟩ := ih hservers ldc hmem
      exact ⟨server', List.mem_cons_of_mem _ hserver, hldc⟩

theorem selectLoop_mem {α : Type} {m : Metric α} {dcs : Dcs} {latencies : List LatencyDC}
    {redundancy : Nat} {ldcs : List α}
    {ldc : α} (h : ldc ∈ selectLoop m dcs redundancy latencies 0 0 ldcs) : ldc ∈ ldcs := by
  rw [selectLoop_eq] at h
  cases hlist : ldcs.filter fun ldc => Usable m dcs ldc with
  | nil =>
    rw [hlist] at h
    exact absurd h List.not_mem_nil
  | cons best rest =>
    rw [hlist, choose] at h
    have hmem : ldc ∈ best :: rest := by
      rcases List.mem_cons.mp h with rfl | h
      · exact List.mem_cons_self
      · exact List.mem_cons_of_mem _ (List.mem_filter.mp (List.mem_of_mem_take h)).1
    rw [← hlist] at hmem
    exact (List.mem_filter.mp hmem).1

end Balancer
