import Mathlib.Data.Rat.Defs
import Mathlib.Algebra.Order.Ring.Rat
import Mathlib.Tactic.Linarith
import Mathlib.Tactic.NormNum

/-!
# The dispatcher

How the balancer picks the data centres that get the first packet of a connection:
the loops of `Server::on_read` over the sorted measurements, and what they select.
-/
namespace Balancer

/-! ## Measurements -/

structure LatencyDC where
  dc : String
  latency : ℚ
  deriving DecidableEq

structure CpuDC where
  dc : String
  cpu : ℚ
  deriving DecidableEq

structure ThroughputDC where
  dc : String
  throughput : ℚ
  deriving DecidableEq

def latencyDCCmp (l1 l2 : LatencyDC) : Bool := l1.latency < l2.latency

def cpuDCCmp (l1 l2 : CpuDC) : Bool := l2.cpu < l1.cpu

def throughputDCCmp (l1 l2 : ThroughputDC) : Bool := l2.throughput < l1.throughput

/-- What `std::sort` promises: the same items, none after one that it is less than. -/
structure Sorted {α : Type} (cmp : α → α → Bool) (xs ys : List α) : Prop where
  perm : ys.Perm xs
  order : ys.Pairwise fun a b => cmp b a = false

/-- The loop of `check_redundant_suitable`; 0 is a least latency not seen yet. -/
def checkLatency (dc : String) : ℚ → List LatencyDC → Bool
  | _, [] => false
  | leastLatency, ldc :: latencies =>
    let leastLatency := if leastLatency = 0 then ldc.latency else leastLatency
    if ldc.dc = dc then !decide (30 < |leastLatency - ldc.latency|)
    else checkLatency dc leastLatency latencies

/-- `check_redundant_suitable`. -/
def checkRedundantSuitable (dc : String) (bestResult nowResult : ℚ) (latencies : List LatencyDC) :
    Bool :=
  if |bestResult| < 1 / 10000000 then false
  else if 1 / 10 < |bestResult - nowResult| / bestResult then false
  else checkLatency dc 0 latencies

/-! ## The selection loops -/

/-- What the loops of `Server::on_read` differ in. -/
structure Metric (α : Type) where
  dc : α → String
  value : α → ℚ
  skipped : α → Bool
  cmp : α → α → Bool

def latencyMetric : Metric LatencyDC :=
    ⟨LatencyDC.dc, LatencyDC.latency, fun ldc => ldc.latency ≤ 0, latencyDCCmp⟩

def cpuMetric : Metric CpuDC := ⟨CpuDC.dc, CpuDC.cpu, fun ldc => ldc.cpu < 0, cpuDCCmp⟩

def throughputMetric : Metric ThroughputDC :=
  ⟨ThroughputDC.dc, ThroughputDC.throughput, fun ldc => ldc.throughput < 0, throughputDCCmp⟩

/-- The deployments of a domain: the balancer of each data centre. -/
abbrev Dcs : Type := String → Option String

/-- A selection loop, with its count and the minimum of its first choice. -/
def selectLoop {α : Type} (m : Metric α) (dcs : Dcs) (redundancy : Nat)
    (latencies : List LatencyDC) :
    Nat → ℚ → List α → List α
  | _, _, [] => []
  | count, minimum, ldc :: rest =>
    if m.skipped ldc then selectLoop m dcs redundancy latencies count minimum rest
    else if (dcs (m.dc ldc)).isNone then selectLoop m dcs redundancy latencies count minimum rest
    else if count ≠ 0 ∧ !checkRedundantSuitable (m.dc ldc) minimum (m.value ldc) latencies then
      selectLoop m dcs redundancy latencies count minimum rest
    else
      let minimum := if count = 0 then m.value ldc else minimum
      if redundancy < count + 1 then [ldc]
      else ldc :: selectLoop m dcs redundancy latencies (count + 1) minimum rest

/-- The latency loop. -/
def selectLatencies (dcs : Dcs) (redundancy : Nat) (latencies : List LatencyDC) : List LatencyDC :=
  selectLoop latencyMetric dcs redundancy latencies 0 0 latencies

/-- The CPU loop. -/
def selectCpus (dcs : Dcs) (redundancy : Nat) (latencies : List LatencyDC) (cpus : List CpuDC) :
    List CpuDC :=
  selectLoop cpuMetric dcs redundancy latencies 0 0 cpus

/-- The throughput loop. -/
def selectThroughputs (dcs : Dcs) (redundancy : Nat) (latencies : List LatencyDC)
    (throughputs : List ThroughputDC) : List ThroughputDC :=
  selectLoop throughputMetric dcs redundancy latencies 0 0 throughputs

/-! ## Forwarding -/

/-- Where a packet is sent: to the server of the own data centre, or to the balancer behind an interface. -/
inductive Forward where
  | server
  | balancer (interface : String)
  deriving DecidableEq, Repr

/-- The configuration, as far as the dispatcher reads it. -/
structure Config where
  datacenter : String
  rttSensitive : Nat
  cpuSensitive : Nat
  throughputSensitive : Nat
  redundancy : Nat

/-- The data centre is the own one or has a balancer. -/
def forwardTo (config : Config) (dcs : Dcs) (dc : String) : Forward :=
  if config.datacenter ≠ dc then .balancer ((dcs dc).getD "") else .server

/-- The packets one of the three branches sends. -/
def forwards {α : Type} (config : Config) (dcs : Dcs) (dc : α → String) (measured chosen : List α) :
    List Forward :=
  (if measured = [] then [.server] else []) ++ chosen.map fun ldc => forwardTo config dcs (dc ldc)

/-- The dispatching part of `Server::on_read`, on the sorted measurements. -/
def onRead (config : Config) (dcs : Dcs) (latencies : List LatencyDC) (cpus : List CpuDC)
    (throughputs : List ThroughputDC) : List Forward :=
  if config.rttSensitive = 1 then
    forwards config dcs LatencyDC.dc latencies (selectLatencies dcs config.redundancy latencies)
  else if config.cpuSensitive = 1 then
    forwards config dcs CpuDC.dc cpus (selectCpus dcs config.redundancy latencies cpus)
  else if config.throughputSensitive = 1 then
    forwards config dcs ThroughputDC.dc throughputs
      (selectThroughputs dcs config.redundancy latencies throughputs)
  else []

/-! ## What the loops select -/

/-- What is not skipped is not negative. -/
theorem latencyMetric_value (ldc : LatencyDC) (h : latencyMetric.skipped ldc = false) :
    0 ≤ latencyMetric.value ldc :=
  le_of_not_ge (of_decide_eq_false h)

theorem cpuMetric_value (ldc : CpuDC) (h : cpuMetric.skipped ldc = false) :
    0 ≤ cpuMetric.value ldc :=
  not_lt.mp (of_decide_eq_false h)

theorem throughputMetric_value (ldc : ThroughputDC) (h : throughputMetric.skipped ldc = false) :
    0 ≤ throughputMetric.value ldc := not_lt.mp (of_decide_eq_false h)

section
variable {α : Type} {m : Metric α} {dcs : Dcs} {redundancy : Nat} {latencies : List LatencyDC}

/-- A deployed data centre whose measurement is valid. -/
def Usable (m : Metric α) (dcs : Dcs) (ldc : α) : Prop :=
    m.skipped ldc = false ∧ (dcs (m.dc ldc)).isSome

/-- The latency of the data centre is at most 30 ms above the smallest one. -/
def NearFastest (latencies : List LatencyDC) (dc : String) : Prop :=
  ∃ ldc ∈ latencies, ldc.dc = dc ∧ ∀ ldc' ∈ latencies, ldc.latency ≤ ldc'.latency + 30

/-- A latency of the data centre, valid or not, is at most 30 ms above every other one but zero. -/
def Near (latencies : List LatencyDC) (dc : String) : Prop :=
  ∃ ldc ∈ latencies, ldc.dc = dc ∧ ∀ ldc' ∈ latencies, ldc'.latency ≠ 0 →
    ldc.latency ≤ ldc'.latency + 30

/-- A data centre that is nearly as good as the best one. -/
structure Suitable (m : Metric α) (dcs : Dcs) (latencies : List LatencyDC) (best ldc : α) :
    Prop where
  usable : Usable m dcs ldc
  least : 1 / 10000000 ≤ m.value best
  near : |m.value best - m.value ldc| ≤ m.value best / 10
  latency : NearFastest latencies (m.dc ldc)

instance (m : Metric α) (dcs : Dcs) (ldc : α) : Decidable (Usable m dcs ldc) :=
    inferInstanceAs (Decidable (_ ∧ _))

instance (latencies : List LatencyDC) (dc : String) : Decidable (NearFastest latencies dc) :=
  inferInstanceAs (Decidable (∃ ldc ∈ latencies, _))

instance (latencies : List LatencyDC) (dc : String) : Decidable (Near latencies dc) :=
  inferInstanceAs (Decidable (∃ ldc ∈ latencies, _))

instance (m : Metric α) (dcs : Dcs) (latencies : List LatencyDC) (best ldc : α) :
    Decidable (Suitable m dcs latencies best ldc) :=
  decidable_of_iff (Usable m dcs ldc ∧ 1 / 10000000 ≤ m.value best ∧
      |m.value best - m.value ldc| ≤ m.value best / 10 ∧ NearFastest latencies (m.dc ldc))
    ⟨fun h => ⟨h.1, h.2.1, h.2.2.1, h.2.2.2⟩, fun h => ⟨h.usable, h.least, h.near, h.latency⟩⟩

/-- The choice among the measurements, of which `sorted` is a sorted form: nothing, or the best data
centre and the first suitable ones behind it. -/
inductive Selected (m : Metric α) (dcs : Dcs) (redundancy : Nat) (latencies : List LatencyDC)
    (measured sorted : List α) : List α → Prop where
  | nothing (unusable : ∀ ldc ∈ measured, ¬Usable m dcs ldc) :
      Selected m dcs redundancy latencies measured sorted []
  | chosen {before after : List α} {best : α} (split : sorted = before ++ best :: after)
      (usable : Usable m dcs best) (first : ∀ ldc ∈ before, ¬Usable m dcs ldc)
      (optimal : ∀ ldc ∈ measured, Usable m dcs ldc → m.cmp ldc best = false) :
    Selected m dcs redundancy latencies measured sorted
      (best :: (after.filter fun ldc => Suitable m dcs latencies best ldc).take redundancy)

/-! ### The suitability check -/

/-- Behind a positive least latency the first entry of the data centre decides, and it is its fastest. -/
theorem checkLatency_iff {dc : String} {least : ℚ} (hleast : least ≠ 0)
    (hle : ∀ ldc ∈ latencies, least ≤ ldc.latency)
    (hsorted : latencies.Pairwise fun a b => latencyDCCmp b a = false) :
    checkLatency dc least latencies = true ↔
    ∃ ldc ∈ latencies, ldc.dc = dc ∧ ldc.latency ≤ least + 30 := by
  induction latencies with
  | nil => simp [checkLatency]
  | cons ldc latencies ih =>
    obtain ⟨hfirst, hrest⟩ := List.pairwise_cons.mp hsorted
    have hldc := hle ldc List.mem_cons_self
    rw [checkLatency, if_neg hleast]
    by_cases hdc : ldc.dc = dc
    · rw [if_pos hdc, abs_of_nonpos (by linarith), Bool.not_eq_true', decide_eq_false_iff_not]
      constructor
      · intro h
        exact ⟨ldc, List.mem_cons_self, hdc, by linarith⟩
      · rintro ⟨ldc', hmem, -, hlat⟩
        rcases List.mem_cons.mp hmem with rfl | hmem
        · linarith
        · have := hfirst ldc' hmem
          rw [latencyDCCmp, decide_eq_false_iff_not] at this
          linarith
    · rw [if_neg hdc, ih (fun ldc' hmem => hle ldc' (List.mem_cons_of_mem _ hmem)) hrest]
      constructor
      · rintro ⟨ldc', hmem, h⟩
        exact ⟨ldc', List.mem_cons_of_mem _ hmem, h⟩
      · rintro ⟨ldc', hmem, hdc', hlat⟩
        rcases List.mem_cons.mp hmem with rfl | hmem
        · exact absurd hdc' hdc
        · exact ⟨ldc', hmem, hdc', hlat⟩

theorem latencyDCCmp_le {a b : LatencyDC} (h : latencyDCCmp b a = false) : a.latency ≤ b.latency :=
  not_lt.mp (of_decide_eq_false h)

/-- The check starts from the first latency that is not zero, whether it is valid or not. -/
theorem checkLatency_near {dc : String}
    (hsorted : latencies.Pairwise fun a b => latencyDCCmp b a = false) :
    checkLatency dc 0 latencies = true ↔ Near latencies dc := by
  induction latencies with
  | nil => simp [checkLatency, Near]
  | cons first rest ih =>
    obtain ⟨hfirst, hrest⟩ := List.pairwise_cons.mp hsorted
    have hle : ∀ ldc ∈ first :: rest, first.latency ≤ ldc.latency := by
      intro ldc hmem
      rcases List.mem_cons.mp hmem with rfl | hmem
      · exact le_rfl
      · exact latencyDCCmp_le (hfirst ldc hmem)
    by_cases hzero : first.latency = 0
    · -- A latency of zero does not become the least one, but it passes the check.
      rw [checkLatency, if_pos rfl, hzero]
      by_cases hdc : first.dc = dc
      · rw [if_pos hdc]
        refine iff_of_true (by norm_num) ⟨first, List.mem_cons_self, hdc, fun ldc hmem _ => ?_⟩
        linarith [hle ldc hmem]
      · rw [if_neg hdc, ih hrest]
        constructor
        · rintro ⟨ldc, hmem, hldc, hnear⟩
          refine ⟨ldc, List.mem_cons_of_mem _ hmem, hldc, fun ldc' hmem' hne => ?_⟩
          rcases List.mem_cons.mp hmem' with rfl | hmem'
          · exact absurd hzero hne
          · exact hnear ldc' hmem' hne
        · rintro ⟨ldc, hmem, hldc, hnear⟩
          rcases List.mem_cons.mp hmem with rfl | hmem
          · exact absurd hldc hdc
          · exact ⟨ldc, hmem, hldc, fun ldc' hmem' => hnear ldc' (List.mem_cons_of_mem _ hmem')⟩
    · have hstart : checkLatency dc 0 (first :: rest) =
        checkLatency dc first.latency (first :: rest) := by
        rw [checkLatency, checkLatency, if_pos rfl, if_neg hzero]
      rw [hstart, checkLatency_iff hzero hle hsorted]
      constructor
      · rintro ⟨ldc, hmem, hldc, hlatency⟩
        exact ⟨ldc, hmem, hldc, fun ldc' hmem' _ => by linarith [hle ldc' hmem']⟩
      · rintro ⟨ldc, hmem, hldc, hnear⟩
        exact ⟨ldc, hmem, hldc, hnear first List.mem_cons_self hzero⟩

theorem checkRedundantSuitable_iff
    (hsorted : latencies.Pairwise fun a b => latencyDCCmp b a = false) {best ldc : α}
    (hbest : 0 ≤ m.value best) :
    checkRedundantSuitable (m.dc ldc) (m.value best) (m.value ldc) latencies = true ↔
      1 / 10000000 ≤ m.value best ∧ |m.value best - m.value ldc| ≤ m.value best / 10 ∧
      Near latencies (m.dc ldc) := by
  unfold checkRedundantSuitable
  rw [abs_of_nonneg hbest]
  split
  · next hsmall =>
    constructor
    · intro h
      cases h
    · rintro ⟨h, -⟩
      exact absurd hsmall (not_lt.mpr h)
  next hsmall =>
  have hleast : 1 / 10000000 ≤ m.value best := not_lt.mp hsmall
  have hgt : 0 < m.value best := lt_of_lt_of_le (by norm_num) hleast
  split
  · next hfar =>
    rw [lt_div_iff₀ hgt] at hfar
    constructor
    · intro h
      cases h
    · rintro ⟨-, h, -⟩
      linarith
  · next hnear =>
    rw [lt_div_iff₀ hgt] at hnear
    rw [checkLatency_near hsorted]
    constructor
    · intro h
      exact ⟨hleast, by linarith [not_lt.mp hnear], h⟩
    · rintro ⟨-, -, h⟩
      exact h

/-- Where no measurement failed, every latency counts. -/
theorem near_iff_nearFastest {measured : List LatencyDC}
    (hsort : Sorted latencyDCCmp measured latencies)
    (hpos : ∀ ldc ∈ measured, 0 < ldc.latency) {dc : String} :
    Near latencies dc ↔ NearFastest measured dc := by
  have hmem : ∀ ldc, ldc ∈ latencies ↔ ldc ∈ measured := fun ldc => hsort.perm.mem_iff
  constructor
  · rintro ⟨ldc, h, hdc, hnear⟩
    exact ⟨ldc, (hmem ldc).mp h, hdc,
      fun ldc' h' => hnear ldc' ((hmem ldc').mpr h') (ne_of_gt (hpos ldc' h'))⟩
  · rintro ⟨ldc, h, hdc, hnear⟩
    exact ⟨ldc, (hmem ldc).mpr h, hdc, fun ldc' h' _ => hnear ldc' ((hmem ldc').mp h')⟩

/-! ### The loop -/

theorem usable_iff {ldc : α} :
    Usable m dcs ldc ↔ ¬(m.skipped ldc = true ∨ (dcs (m.dc ldc)).isNone = true) := by
  unfold Usable
  cases m.skipped ldc <;> cases dcs (m.dc ldc) <;> simp

/-- The loop goes over what it cannot use. -/
theorem selectLoop_unusable {ldc : α} (h : ¬Usable m dcs ldc) {count : Nat} {minimum : ℚ}
    {rest : List α} :
    selectLoop m dcs redundancy latencies count minimum (ldc :: rest) =
      selectLoop m dcs redundancy latencies count minimum rest := by
  rcases not_not.mp (mt usable_iff.mpr h) with hskipped | hnone
  · rw [selectLoop, if_pos hskipped]
  · rw [selectLoop, if_pos hnone, ite_self]

/-- The best of the usable data centres and the first ones behind it that pass the check. -/
def choose (m : Metric α) (redundancy : Nat) (latencies : List LatencyDC) : List α → List α
  | [] => []
  | best :: rest =>
    best :: (rest.filter fun ldc =>
      checkRedundantSuitable (m.dc ldc) (m.value best) (m.value ldc) latencies).take redundancy

/-- Behind its first choice the loop takes what passes the check, in order, until it has enough. -/
theorem selectLoop_more (best : α) {count : Nat} (hcount : 0 < count) (hle : count ≤ redundancy)
    (rest : List α) :
    selectLoop m dcs redundancy latencies count (m.value best) rest =
      ((rest.filter fun ldc => Usable m dcs ldc).filter fun ldc =>
        checkRedundantSuitable (m.dc ldc) (m.value best)
        (m.value ldc) latencies).take (redundancy + 1 - count) := by
  induction rest generalizing count with
  | nil => simp [selectLoop]
  | cons ldc rest ih =>
    by_cases husable : Usable m dcs ldc
    · obtain ⟨hskipped, hnone⟩ := not_or.mp (usable_iff.mp husable)
      rw [selectLoop, if_neg hskipped, if_neg hnone,
        List.filter_cons_of_pos (by simpa using husable)]
      by_cases hcheck : checkRedundantSuitable (m.dc ldc) (m.value best) (m.value ldc) latencies =
        true
      · rw [if_neg (by simp [hcheck]), List.filter_cons, if_pos hcheck]
        dsimp only
        rw [if_neg (Nat.ne_of_gt hcount)]
        split
        · next hlast =>
          have hone : redundancy + 1 - count = 0 + 1 := by omega
          rw [hone, List.take_succ_cons, List.take_zero]
        · next hmore =>
          have hsucc : redundancy + 1 - count = (redundancy + 1 - (count + 1)) + 1 := by omega
          rw [hsucc, List.take_succ_cons, ih (Nat.succ_pos _) (Nat.le_of_not_lt hmore)]
      · rw [if_pos ⟨Nat.ne_of_gt hcount, by simpa using hcheck⟩, List.filter_cons, if_neg hcheck,
          ih hcount hle]
    · rw [selectLoop_unusable husable, List.filter_cons_of_neg (by simpa using husable),
        ih hcount hle]

/-- The loop chooses among the usable data centres. -/
theorem selectLoop_eq (minimum : ℚ) (ldcs : List α) :
    selectLoop m dcs redundancy latencies 0 minimum ldcs =
      choose m redundancy latencies (ldcs.filter fun ldc => Usable m dcs ldc) := by
  induction ldcs with
  | nil => rfl
  | cons ldc rest ih =>
    by_cases husable : Usable m dcs ldc
    · obtain ⟨hskipped, hnone⟩ := not_or.mp (usable_iff.mp husable)
      rw [selectLoop, if_neg hskipped, if_neg hnone, if_neg (by simp),
        List.filter_cons_of_pos (by simpa using husable),
        choose]
      dsimp only
      rw [if_pos rfl]
      split
      · next hzero =>
        obtain rfl : redundancy = 0 := by omega
        rw [List.take_zero]
      · next hmore => rw [selectLoop_more ldc (Nat.succ_pos 0) (Nat.le_of_not_lt hmore), Nat.add_sub_cancel]
    · rw [selectLoop_unusable husable, List.filter_cons_of_neg (by simpa using husable), ih]

/-- The loop takes the first usable data centre. -/
theorem selectLoop_first {measured : List LatencyDC}
    (hsort : Sorted latencyDCCmp measured latencies)
    (hpos : ∀ ldc ∈ measured, 0 < ldc.latency)
    (hvalue : ∀ ldc, m.skipped ldc = false → 0 ≤ m.value ldc)
    (minimum : ℚ) (ldcs : List α) :
    (selectLoop m dcs redundancy latencies 0 minimum ldcs = [] ∧ ∀ ldc ∈ ldcs, ¬Usable m dcs ldc) ∨
      ∃ before best after, ldcs = before ++ best :: after ∧ Usable m dcs best ∧
      (∀ ldc ∈ before, ¬Usable m dcs ldc) ∧
        selectLoop m dcs redundancy latencies 0 minimum ldcs =
          best :: (after.filter fun ldc => Suitable m dcs measured best ldc).take redundancy := by
  rw [selectLoop_eq]
  cases hfilter : ldcs.filter fun ldc => Usable m dcs ldc with
  | nil => exact .inl ⟨rfl, fun ldc hmem => by simpa using List.filter_eq_nil_iff.mp hfilter ldc hmem⟩
  | cons best rest =>
    obtain ⟨before, after, hsplit, hbefore, hbest, rfl⟩ := List.filter_eq_cons_iff.mp hfilter
    refine .inr ⟨before, best, after, hsplit, by simpa using hbest, fun ldc hmem => by simpa using hbefore ldc hmem, ?_⟩
    rw [choose, List.filter_filter]
    congr 2
    apply List.filter_congr
    intro ldc _
    rw [Bool.eq_iff_iff, Bool.and_eq_true,
      checkRedundantSuitable_iff hsort.order (hvalue best (of_decide_eq_true hbest).1),
      near_iff_nearFastest hsort hpos, decide_eq_true_iff, decide_eq_true_iff]
    constructor
    · rintro ⟨⟨hleast, hnear, hlatency⟩, husable⟩
      exact ⟨husable, hleast, hnear, hlatency⟩
    · rintro ⟨husable, hleast, hnear, hlatency⟩
      exact ⟨⟨hleast, hnear, hlatency⟩, husable⟩

/-- Nothing in a sorted list is better than its first usable entry. -/
theorem first_optimal {before after sorted measured : List α} {best : α}
    (hsort : Sorted m.cmp measured sorted)
    (hirrefl : ∀ ldc, m.cmp ldc ldc = false) (hsplit : sorted = before ++ best :: after)
    (hbefore : ∀ ldc ∈ before, ¬Usable m dcs ldc) :
    ∀ ldc ∈ measured, Usable m dcs ldc → m.cmp ldc best = false := by
  intro ldc hmem husable
  have hmem : ldc ∈ before ++ best :: after := hsplit ▸ hsort.perm.mem_iff.mpr hmem
  have horder := (List.pairwise_append.mp (hsplit ▸ hsort.order)).2.1
  rcases List.mem_append.mp hmem with hmem | hmem
  · exact absurd husable (hbefore ldc hmem)
  rcases List.mem_cons.mp hmem with rfl | hmem
  · exact hirrefl _
  · exact List.rel_of_pairwise_cons horder hmem

theorem selectLoop_selected {measuredLatencies : List LatencyDC} {measured sorted : List α}
    (hlat : Sorted latencyDCCmp measuredLatencies latencies)
    (hpos : ∀ ldc ∈ measuredLatencies, 0 < ldc.latency)
    (hsort : Sorted m.cmp measured sorted) (hirrefl : ∀ ldc, m.cmp ldc ldc = false)
    (hvalue : ∀ ldc, m.skipped ldc = false → 0 ≤ m.value ldc) :
    Selected m dcs redundancy measuredLatencies measured sorted
      (selectLoop m dcs redundancy latencies 0 0 sorted) := by
  rcases selectLoop_first hlat hpos hvalue 0 sorted with
    ⟨hnil, hall⟩ | ⟨before, best, after, hsplit, hbest, hbefore, hloop⟩
  · rw [hnil]
    exact .nothing fun ldc hmem => hall ldc (hsort.perm.mem_iff.mpr hmem)
  · rw [hloop]
    exact .chosen hsplit hbest hbefore (first_optimal hsort hirrefl hsplit hbefore)

end

example : onRead ⟨"a", 1, 0, 0, 1⟩ (fun dc => if dc = "far" then none else some dc)
    [⟨"far", 100⟩, ⟨"a", 101⟩, ⟨"b", 102⟩] [] [] = [.server, .balancer "b"] := by decide +kernel

end Balancer
