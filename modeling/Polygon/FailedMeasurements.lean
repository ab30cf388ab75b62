import Polygon.Dispatcher
import Polygon.Lib.FirstFew

/-!
# Failed measurements

A latency of zero or less records a measurement that failed, and a negative CPU or
throughput value one that is missing. Here is what such entries do to the choice, and
when no usable entry is left.
-/
namespace Balancer

open FirstFew

variable {α : Type} {m : Metric α} {config : Config} {dcs : Dcs} {latencies : List LatencyDC}

/-! ## The usable data centres -/

/-- The packet is sent when there is nothing to choose from, or something usable. -/
theorem forwards_eq_nil {measured : List α} {dc : α → String} {chosen : List α} :
    forwards config dcs dc measured chosen = [] ↔ measured ≠ [] ∧ chosen = [] := by
  unfold forwards
  by_cases hempty : measured = [] <;> simp [hempty]

theorem choose_eq_nil {redundancy : Nat} {ldcs : List α} :
    choose m redundancy latencies ldcs = [] ↔ ldcs = [] := by
  cases ldcs <;> simp [choose]

theorem selectLoop_eq_nil {redundancy : Nat} {measured : List α} :
    selectLoop m dcs redundancy latencies 0 0 measured = [] ↔
    ¬∃ ldc ∈ measured, Usable m dcs ldc := by
  rw [selectLoop_eq, choose_eq_nil, List.filter_eq_nil_iff]
  simp

/-- Nothing was measured of what the client is sensitive to. -/
def Unmeasured (config : Config) (latencies : List LatencyDC) (cpus : List CpuDC)
    (throughputs : List ThroughputDC) : Prop :=
  if config.rttSensitive = 1 then latencies = []
  else if config.cpuSensitive = 1 then cpus = []
  else throughputs = []

/-- A deployed data centre has a valid measurement of what the client is sensitive to. -/
def SomeUsable (config : Config) (dcs : Dcs) (latencies : List LatencyDC) (cpus : List CpuDC)
    (throughputs : List ThroughputDC) : Prop :=
  if config.rttSensitive = 1 then ∃ ldc ∈ latencies, Usable latencyMetric dcs ldc
  else if config.cpuSensitive = 1 then ∃ ldc ∈ cpus, Usable cpuMetric dcs ldc
  else ∃ ldc ∈ throughputs, Usable throughputMetric dcs ldc

/-- One branch: it sends the packet somewhere, to the own data centre at the least, if nothing was
measured or something is usable. -/
theorem forwards_some {redundancy : Nat} {measured : List α} {dc : α → String} :
    (forwards config dcs dc measured (selectLoop m dcs redundancy latencies 0 0 measured) ≠ [] ∧
      ((¬∃ ldc ∈ measured, Usable m dcs ldc) →
        forwards config dcs dc measured (selectLoop m dcs redundancy latencies 0 0 measured) =
        [.server])) ↔
      measured = [] ∨ ∃ ldc ∈ measured, Usable m dcs ldc := by
  rw [ne_eq, forwards_eq_nil, selectLoop_eq_nil]
  constructor
  · rintro ⟨hsome, -⟩
    by_contra hnone
    exact hsome (not_or.mp hnone)
  · intro hsome
    refine ⟨fun hnone => hsome.elim hnone.1 hnone.2, fun hunusable => ?_⟩
    have hempty : measured = [] := hsome.resolve_right hunusable
    subst hempty
    rfl

/-- The first packet is forwarded, in the worst case to the own data centre, exactly when nothing was
measured at all or a usable data centre was. -/
theorem onRead_forwarded (config : Config) (dcs : Dcs) (latencies : List LatencyDC)
    (cpus : List CpuDC)
    (throughputs : List ThroughputDC)
    (hmode : config.rttSensitive = 1 ∨ config.cpuSensitive = 1 ∨ config.throughputSensitive = 1) :
    (onRead config dcs latencies cpus throughputs ≠ [] ∧
      (¬SomeUsable config dcs latencies cpus throughputs →
        onRead config dcs latencies cpus throughputs = [.server])) ↔
      Unmeasured config latencies cpus throughputs ∨
      SomeUsable config dcs latencies cpus throughputs := by
  unfold onRead Unmeasured SomeUsable
  by_cases hrtt : config.rttSensitive = 1
  · simp only [if_pos hrtt]
    exact forwards_some
  by_cases hcpu : config.cpuSensitive = 1
  · simp only [if_neg hrtt, if_pos hcpu]
    exact forwards_some
  · have hthroughput : config.throughputSensitive = 1 := (hmode.resolve_left hrtt).resolve_left hcpu
    simp only [if_neg hrtt, if_neg hcpu, if_pos hthroughput]
    exact forwards_some

/-- A client that asks for a short way, with the latency of one deployed data centre. -/
theorem onRead_forwarded_one :
    (onRead ⟨"a", 1, 0, 0, 1⟩ some [⟨"b", 20⟩] [] [] ≠ [] ∧
      (¬SomeUsable ⟨"a", 1, 0, 0, 1⟩ some [⟨"b", 20⟩] [] [] →
        onRead ⟨"a", 1, 0, 0, 1⟩ some [⟨"b", 20⟩] [] [] = [.server])) ↔
      Unmeasured ⟨"a", 1, 0, 0, 1⟩ [⟨"b", 20⟩] [] [] ∨
      SomeUsable ⟨"a", 1, 0, 0, 1⟩ some [⟨"b", 20⟩] [] [] :=
  onRead_forwarded ⟨"a", 1, 0, 0, 1⟩ some [⟨"b", 20⟩] [] [] (.inl rfl)

/-- A packet is dropped: the only data centre whose latency is known does not serve the domain. -/
theorem onRead_dropped :
    ¬∀ (config : Config) (dcs : Dcs) (latencies : List LatencyDC) (cpus : List CpuDC)
    (throughputs : List ThroughputDC),
      config.rttSensitive = 1 ∨ config.cpuSensitive = 1 ∨ config.throughputSensitive = 1 →
        onRead config dcs latencies cpus throughputs ≠ [] := by
  intro h
  exact h ⟨"a", 1, 0, 0, 1⟩ (fun _ => none) [⟨"b", 20⟩] [] [] (.inl rfl) (by decide +kernel)

/-! ## Failed latencies -/

/-- The latencies without those that failed. -/
def valid (latencies : List LatencyDC) : List LatencyDC :=
    latencies.filter fun ldc => 0 < ldc.latency

/-- A latency measurement of the data centre failed. -/
def Failed (latencies : List LatencyDC) (dc : String) : Prop :=
    ∃ ldc ∈ latencies, ldc.dc = dc ∧ ldc.latency ≤ 0

instance (latencies : List LatencyDC) (dc : String) : Decidable (Failed latencies dc) :=
  inferInstanceAs (Decidable (∃ ldc ∈ latencies, _))

/-- The value is within a tenth of the best one, and the latency of the data centre is near the least. -/
def alternative (m : Metric α) (latencies : List LatencyDC) (best ldc : α) : Bool :=
  1 / 10000000 ≤ m.value best ∧ |m.value best - m.value ldc| ≤ m.value best / 10 ∧
    Near latencies (m.dc ldc)

theorem checkRedundantSuitable_alternative
    (hsorted : latencies.Pairwise fun a b => latencyDCCmp b a = false)
    {best ldc : α} (hbest : 0 ≤ m.value best) :
    checkRedundantSuitable (m.dc ldc) (m.value best) (m.value ldc) latencies =
    alternative m latencies best ldc := by
  rw [Bool.eq_iff_iff, checkRedundantSuitable_iff hsorted hbest, alternative, decide_eq_true_iff]

/-- What the check comes to in the choice. -/
theorem choose_alternative (hsorted : latencies.Pairwise fun a b => latencyDCCmp b a = false)
    {redundancy : Nat}
    {best : α} {rest : List α} (hbest : 0 ≤ m.value best) :
    choose m redundancy latencies (best :: rest) =
    best :: (rest.filter (alternative m latencies best)).take redundancy := by
  rw [choose]
  congr 2
  apply List.filter_congr
  intro ldc _
  exact checkRedundantSuitable_alternative hsorted hbest

/-! ## Deleting the failed latencies -/

theorem mem_valid {ldc : LatencyDC} :
    ldc ∈ valid latencies ↔ ldc ∈ latencies ∧ 0 < ldc.latency := by
  simp [valid]

/-- A data centre without a failed latency stays near when the failed ones are deleted. -/
theorem Near.valid {dc : String} (h : Near latencies dc) (hfailed : ¬Failed latencies dc) :
    Near (valid latencies) dc := by
  obtain ⟨ldc, hmem, hdc, hnear⟩ := h
  have hpos : 0 < ldc.latency := by
    by_contra hno
    exact hfailed ⟨ldc, hmem, hdc, not_lt.mp hno⟩
  exact ⟨ldc, mem_valid.mpr ⟨hmem, hpos⟩, hdc, fun ldc' hmem' => hnear ldc' (mem_valid.mp hmem').1⟩

/-- The usable data centres, in the order of the measurements. -/
def usable (m : Metric α) (dcs : Dcs) (measured : List α) : List α :=
    measured.filter fun ldc => Usable m dcs ldc

theorem usable_valid : usable latencyMetric dcs
    (valid latencies) = usable latencyMetric dcs latencies := by
  unfold usable valid
  rw [List.filter_filter]
  apply List.filter_congr
  intro ldc _
  rw [Bool.eq_iff_iff, Bool.and_eq_true, decide_eq_true_iff, decide_eq_true_iff]
  refine ⟨fun h => h.1, fun h => ⟨h, ?_⟩⟩
  exact not_le.mp (of_decide_eq_false h.1)

/-- The failed latencies change nothing for the best data centre `best` and those behind it: no failed one
is among the first `redundancy` alternatives, and whoever gets in or out of these because of a failed
latency is at a destination that gets the packet all the same. -/
structure Undisturbed (m : Metric α) (config : Config) (dcs : Dcs) (latencies : List LatencyDC)
    (best : α)
    (rest : List α) : Prop where
  never : ∀ ldc, Among (alternative m latencies best) config.redundancy rest ldc →
    ¬Failed latencies (m.dc ldc)
  lost : ∀ ldc, Among (alternative m (valid latencies) best) config.redundancy rest ldc →
    ¬Near latencies (m.dc ldc) →
    ∃ ldc', (ldc' = best ∨ Among (alternative m latencies best) config.redundancy rest ldc') ∧
      forwardTo config dcs (m.dc ldc') = forwardTo config dcs (m.dc ldc)
  gained : ∀ ldc, Among (alternative m latencies best) config.redundancy rest ldc →
    ¬Among (alternative m (valid latencies) best) config.redundancy rest ldc →
    ∃ ldc', (ldc' = best ∨ Among (alternative m (valid latencies) best) config.redundancy rest ldc') ∧
      forwardTo config dcs (m.dc ldc') = forwardTo config dcs (m.dc ldc)

/-- In each mode the failed latencies are harmless; where the latencies decide, they have not all failed. -/
def FailedHarmless (config : Config) (dcs : Dcs) (latencies : List LatencyDC) (cpus : List CpuDC)
    (throughputs : List ThroughputDC) : Prop :=
  if config.rttSensitive = 1 then (latencies = [] ∨ ∃ ldc ∈ latencies, 0 < ldc.latency) ∧
    ∀ best rest, usable latencyMetric dcs latencies = best :: rest →
      Undisturbed latencyMetric config dcs latencies best rest
  else if config.cpuSensitive = 1 then
    ∀ best rest, usable cpuMetric dcs cpus = best :: rest →
      Undisturbed cpuMetric config dcs latencies best rest
  else if config.throughputSensitive = 1 then
    ∀ best rest, usable throughputMetric dcs throughputs = best :: rest →
      Undisturbed throughputMetric config dcs latencies best rest
  else True

/-- The data centres that get a redundant copy. -/
def redundantDcs (config : Config) (dcs : Dcs) (latencies : List LatencyDC) (cpus : List CpuDC)
    (throughputs : List ThroughputDC) : List String :=
  if config.rttSensitive = 1 then
    (selectLatencies dcs config.redundancy latencies).tail.map LatencyDC.dc
  else if config.cpuSensitive =
    1 then (selectCpus dcs config.redundancy latencies cpus).tail.map CpuDC.dc
  else if config.throughputSensitive = 1 then
    (selectThroughputs dcs config.redundancy latencies throughputs).tail.map ThroughputDC.dc
  else []

theorem valid_sorted (hsorted : latencies.Pairwise fun a b => latencyDCCmp b a = false) :
    (valid latencies).Pairwise fun a b => latencyDCCmp b a = false := hsorted.filter _

/-- The choice among the usable data centres, with and without the failed latencies. -/
theorem choose_undisturbed (hsorted : latencies.Pairwise fun a b => latencyDCCmp b a = false)
    {best : α} {rest : List α}
    (hbest : 0 ≤ m.value best) :
    ((∀ f, f ∈ (choose m config.redundancy (valid latencies) (best :: rest)).map (fun ldc => forwardTo config dcs (m.dc ldc)) ↔
        f ∈ (choose m config.redundancy latencies (best :: rest)).map fun ldc =>
        forwardTo config dcs (m.dc ldc)) ∧
      ∀ dc ∈ (choose m config.redundancy latencies (best :: rest)).tail.map m.dc,
      ¬Failed latencies dc) ↔
      Undisturbed m config dcs latencies best rest := by
  rw [choose_alternative hsorted hbest, choose_alternative (valid_sorted hsorted) hbest]
  simp only [List.mem_map, List.mem_cons, List.tail_cons, mem_take_filter]
  constructor
  · rintro ⟨hsame, hnever⟩
    refine ⟨fun ldc h => hnever _ ⟨ldc, h, rfl⟩, fun ldc h _ => ?_, fun ldc h _ => ?_⟩
    · exact (hsame _).mp ⟨ldc, .inr h, rfl⟩
    · exact (hsame _).mpr ⟨ldc, .inr h, rfl⟩
  · intro h
    refine ⟨fun f => ⟨?_, ?_⟩, ?_⟩
    · rintro ⟨ldc, hldc | hldc, rfl⟩
      · exact ⟨ldc, .inl hldc, rfl⟩
      · by_cases hnear : Near latencies (m.dc ldc)
        · -- It is an alternative with the failed latencies too, and no more alternatives are before it.
          refine ⟨ldc, .inr (Among.of_among (fun ldc' hldc' => ?_) ?_ hldc), rfl⟩
          · have hall := of_decide_eq_true hldc'.holds
            exact decide_eq_true ⟨hall.1, hall.2.1, hall.2.2.valid (h.never ldc' hldc')⟩
          · have hall := of_decide_eq_true hldc.holds
            exact decide_eq_true ⟨hall.1, hall.2.1, hnear⟩
        · exact h.lost ldc hldc hnear
    · rintro ⟨ldc, hldc | hldc, rfl⟩
      · exact ⟨ldc, .inl hldc, rfl⟩
      · by_cases hvalid : Among (alternative m (valid latencies) best) config.redundancy rest ldc
        · exact ⟨ldc, .inr hvalid, rfl⟩
        · exact h.gained ldc hldc hvalid
    · rintro dc ⟨ldc, hldc, rfl⟩
      exact h.never ldc hldc

/-- The loop over measurements of which the deployed ones stay the same. -/
theorem selectLoop_undisturbed (hsorted : latencies.Pairwise fun a b => latencyDCCmp b a = false)
    (hvalue : ∀ ldc, m.skipped ldc = false → 0 ≤ m.value ldc) {measured measured' : List α}
    (hsame : usable m dcs measured' = usable m dcs measured) :
    ((∀ f, f ∈ (selectLoop m dcs config.redundancy (valid latencies) 0 0 measured').map
          (fun ldc => forwardTo config dcs (m.dc ldc)) ↔
        f ∈ (selectLoop m dcs config.redundancy latencies 0 0 measured).map fun ldc =>
        forwardTo config dcs (m.dc ldc)) ∧
      ∀ dc ∈ (selectLoop m dcs config.redundancy latencies 0 0 measured).tail.map m.dc,
      ¬Failed latencies dc) ↔
      ∀ best rest, usable m dcs measured = best :: rest →
      Undisturbed m config dcs latencies best rest := by
  have hchoose : ∀ latencies measured, selectLoop m dcs config.redundancy latencies 0 0 measured =
      choose m config.redundancy latencies (usable m dcs measured) :=
        fun latencies measured => selectLoop_eq 0 measured
  rw [hchoose, hchoose, hsame]
  cases hlist : usable m dcs measured with
  | nil => simp [choose]
  | cons best rest =>
    have hmem : best ∈ usable m dcs measured := by rw [hlist]; exact List.mem_cons_self
    have husable : Usable m dcs best := of_decide_eq_true (List.mem_filter.mp hmem).2
    rw [choose_undisturbed hsorted (hvalue best husable.1)]
    constructor
    · rintro h best' rest' heq
      obtain ⟨rfl, rfl⟩ := List.cons.inj heq
      exact h
    · intro h
      exact h best rest rfl

theorem forwards_of_ne {measured : List α} {dc : α → String} {chosen : List α} (h : measured ≠ []) :
    forwards config dcs dc measured chosen =
    chosen.map fun ldc => forwardTo config dcs (dc ldc) := by
  rw [forwards, if_neg h, List.nil_append]

/-- A branch whose own measurements are not latencies. -/
theorem forwards_undisturbed (hsorted : latencies.Pairwise fun a b => latencyDCCmp b a = false)
    (hvalue : ∀ ldc, m.skipped ldc = false → 0 ≤ m.value ldc) {measured : List α} :
    ((∀ f, f ∈ forwards config dcs m.dc measured (selectLoop m dcs config.redundancy (valid latencies) 0 0 measured) ↔
        f ∈ forwards config dcs m.dc measured
        (selectLoop m dcs config.redundancy latencies 0 0 measured)) ∧
      ∀ dc ∈ (selectLoop m dcs config.redundancy latencies 0 0 measured).tail.map m.dc,
      ¬Failed latencies dc) ↔
      ∀ best rest, usable m dcs measured = best :: rest →
      Undisturbed m config dcs latencies best rest := by
  by_cases hempty : measured = []
  · subst hempty
    simp [selectLoop, usable]
  · rw [forwards_of_ne hempty, forwards_of_ne hempty]
    exact selectLoop_undisturbed hsorted hvalue rfl

/-- The branch that chooses by the latencies themselves. -/
theorem forwards_latencies (hsorted : latencies.Pairwise fun a b => latencyDCCmp b a = false) :
    ((∀ f, f ∈ forwards config dcs LatencyDC.dc (valid latencies) (selectLatencies dcs config.redundancy (valid latencies)) ↔
        f ∈ forwards config dcs LatencyDC.dc latencies
        (selectLatencies dcs config.redundancy latencies)) ∧
      ∀ dc ∈ (selectLatencies dcs config.redundancy latencies).tail.map LatencyDC.dc,
      ¬Failed latencies dc) ↔
      (latencies = [] ∨ ∃ ldc ∈ latencies, 0 < ldc.latency) ∧ ∀ best rest,
        usable latencyMetric dcs latencies = best :: rest →
        Undisturbed latencyMetric config dcs latencies best rest := by
  have hloop := @selectLoop_undisturbed _ latencyMetric config dcs latencies hsorted latencyMetric_value latencies
    (valid latencies) usable_valid
  by_cases hempty : latencies = []
  · subst hempty
    simp [selectLatencies, selectLoop, usable, valid]
  rw [forwards_of_ne hempty]
  by_cases hvalid : valid latencies = []
  · -- All failed: the packet is not sent, but without the failed entries it goes to the own data centre.
    have hnone : ¬∃ ldc ∈ latencies, 0 < ldc.latency := by
      rintro ⟨ldc, hmem⟩
      exact List.not_mem_nil (hvalid ▸ mem_valid.mpr hmem)
    have hunusable : selectLatencies dcs config.redundancy latencies = [] := by
      refine selectLoop_eq_nil.mpr ?_
      rintro ⟨ldc, hmem, husable⟩
      exact hnone ⟨ldc, hmem, not_le.mp (of_decide_eq_false husable.1)⟩
    rw [hvalid, hunusable]
    constructor
    · rintro ⟨hsame, -⟩
      exact absurd ((hsame .server).mp (by simp [forwards])) (by simp)
    · rintro ⟨hsome, -⟩
      exact absurd hsome (not_or.mpr ⟨hempty, hnone⟩)
  · obtain ⟨ldc, hldc⟩ := List.exists_mem_of_ne_nil _ hvalid
    rw [forwards_of_ne hvalid]
    constructor
    · intro h
      exact ⟨.inr ⟨ldc, mem_valid.mp hldc⟩, hloop.mp h⟩
    · rintro ⟨-, h⟩
      exact hloop.mpr h

example : onRead ⟨"a", 0, 1, 0, 1⟩ some [⟨"b", -200⟩, ⟨"a", 10⟩, ⟨"c", 20⟩] [⟨"a", 90⟩,
  ⟨"c", 85⟩] [] = [.server] ∧
    onRead ⟨"a", 0, 1, 0, 1⟩ some [⟨"a", 10⟩, ⟨"c", 20⟩] [⟨"a", 90⟩, ⟨"c", 85⟩] [] =
      [.server, .balancer "c"] := by
  decide +kernel

end Balancer
