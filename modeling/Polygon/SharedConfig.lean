import Polygon.Dispatcher
import Polygon.TransportParamsRoundTrip

/-!
# The configuration that connections share

What a client is sensitive to is parsed into the one configuration of the process, and
`Server::on_read` reads it from there. So the route of a first packet can depend on the
connections before it.
-/
namespace Balancer

open Ngtcp2

/-! ## Parsing -/

/-- `transport_params_parse_cb` on a ClientHello: whether it succeeds, and the configuration it leaves. The
structure `params` on the stack is not initialised. -/
def transportParamsParseCb (config : Config) (stack : Ngtcp2TransportParams) (input : List UInt8)
    (remoteSet : Bool) :
    Config × Bool :=
  match ngtcp2DecodeTransportParams stack .clientHello input with
  | some (.ok params) =>
    ({ config with
        cpuSensitive := params.cpuSensitive.toNat
        rttSensitive := params.rttSensitive.toNat
        throughputSensitive := params.throughputSensitive.toNat }, remoteSet)
  | _ => (config, false)

/-- What of a first packet decides about its route. The extension is there if the ClientHello is complete and
has transport parameters; `remoteSet` says that these fit the connection, `read` that `Handler::on_read` finds no
other fault. -/
structure FirstPacket where
  extension : Option (List UInt8)
  remoteSet : Bool
  read : Bool
  dcs : Dcs
  latencies : List LatencyDC
  cpus : List CpuDC
  throughputs : List ThroughputDC

/-- `Handler::on_read` for a first packet, which runs the callback if there is an extension. -/
def handlerOnRead (config : Config) (stack : Ngtcp2TransportParams) (p : FirstPacket) :
    Config × Bool :=
  match p.extension with
  | none => (config, p.read)
  | some input =>
    let (config, parsed) := transportParamsParseCb config stack input p.remoteSet
    (config, parsed && p.read)

inductive Sensitivity where
  | rtt
  | cpu
  | throughput
  | none
  deriving DecidableEq, Repr

/-- The mode that `Server::on_read` chooses. -/
def sensitivity (config : Config) : Sensitivity :=
  if config.rttSensitive = 1 then .rtt
  else if config.cpuSensitive = 1 then .cpu
  else if config.throughputSensitive = 1 then .throughput
  else .none

/-- The route of a first packet: mode and destinations, or nothing if the packet is refused. -/
def firstPacket (config : Config) (stack : Ngtcp2TransportParams) (p : FirstPacket) :
    Option (Sensitivity × List Forward) :=
  let (config, accepted) := handlerOnRead config stack p
  if accepted then some (sensitivity config,
    onRead config p.dcs p.latencies p.cpus p.throughputs) else none

/-- What happens on other connections: a first packet, or a later one that completes a ClientHello. -/
inductive Event where
  | first (stack : Ngtcp2TransportParams) (p : FirstPacket)
  | later (stack : Ngtcp2TransportParams) (input : List UInt8) (remoteSet : Bool)

def Event.run (config : Config) : Event → Config
  | .first stack p => (handlerOnRead config stack p).1
  | .later stack input remoteSet => (transportParamsParseCb config stack input remoteSet).1

/-- The configuration after earlier connections. -/
def runEvents (config : Config) (events : List Event) : Config := events.foldl Event.run config

/-! ## What the parameters of a packet say -/

/-- The number that the extension carries for a parameter, the last one if there are several. -/
def carried (id : TransportParamId) : List WireParam → Option Nat
  | [] => none
  | w :: ws => (carried id ws).or (if w.type = id.code then some (stored id w.value) else none)

theorem step_field {exttype : TransportParamsType} {st st' : ParamsState} {w : WireParam}
    (id : TransportParamId)
    (h : w.step exttype st = some st') :
    id.field st'.params = if w.type = id.code then stored id w.value else id.field st.params := by
  unfold WireParam.step at h
  cases hcode : TransportParamId.ofCode w.type with
  | none =>
    rw [hcode] at h
    obtain rfl := Option.some.inj h
    rw [if_neg]
    intro htype
    rw [htype, ofCode_code] at hcode
    cases hcode
  | some id' =>
    rw [hcode] at h
    dsimp only at h
    by_cases hlen : w.value.length = id'.valueLen ∧
      ¬(id' = .statelessResetToken ∧ exttype = .clientHello)
    · rw [if_pos hlen] at h
      obtain ⟨params, hstore, rfl⟩ := Option.map_eq_some_iff.mp h
      have htype : w.type = id'.code := (code_of_ofCode hcode).symm
      rw [htype]
      by_cases hid : id = id'
      · subst hid
        rw [if_pos rfl]
        exact storeParam_same hlen.1 hstore
      · rw [if_neg fun heq => hid (code_inj heq).symm]
        exact (storeParam_others hstore).1 id hid
    · rw [if_neg hlen] at h
      cases h

theorem foldlM_field {exttype : TransportParamsType} {st st' : ParamsState} {ws : List WireParam}
    (id : TransportParamId)
    (h : ws.foldlM (WireParam.step exttype) st = some st') :
    id.field st'.params = (carried id ws).getD (id.field st.params) := by
  induction ws generalizing st with
  | nil =>
    obtain rfl := Option.some.inj h
    rfl
  | cons w ws ih =>
    rw [List.foldlM_cons] at h
    obtain ⟨st₁, hfirst, hrest⟩ := Option.bind_eq_some_iff.mp h
    rw [ih hrest, step_field id hfirst, carried]
    cases carried id ws with
    | some n => rfl
    | none => by_cases htype : w.type = id.code <;> simp [htype]

theorem decodeVersionPart_field {params params' : Ngtcp2TransportParams} {p q : List UInt8}
    {n : Nat}
    (h : decodeVersionPart .clientHello params p = Checked.ok (n, params', q))
    (id : TransportParamId) :
    id.field params' = id.field params := by
  unfold decodeVersionPart at h
  dsimp only at h
  split at h
  · cases h
  · obtain ⟨⟨version, p'⟩, -, hok⟩ := Checked.andThen_ok_iff.mp h
    obtain rfl := (Prod.mk.inj (Prod.mk.inj (Except.ok.inj (Option.some.inj hok))).2).1
    cases id <;> rfl

/-- A field that the decoder has no default for is what the input carries, or else what was there before. -/
theorem decode_field {input part : List UInt8} {ws : List WireParam}
    (h : WellFormedParams .clientHello input part ws)
    (stack : Ngtcp2TransportParams) :
    ∃ params, ngtcp2DecodeTransportParams stack .clientHello input = some (.ok params) ∧
      ∀ id, (∀ prior, unsentField prior id = id.field prior) →
      id.field params = (carried id ws).getD (id.field stack) := by
  obtain ⟨params₁, hpart⟩ := decodeVersionPart_part h.version stack
    (putUint16be (ws.flatMap WireParam.bytes).length ++ ws.flatMap WireParam.bytes)
  obtain ⟨st, hst⟩ : ∃ st, ws.foldlM (WireParam.step .clientHello) ⟨0, params₁⟩ = some st :=
    foldlM_isSome_iff.mpr h.valid
  refine ⟨_, h.decode hpart hst, fun id hid => ?_⟩
  rw [restoreDefaults_field, hid, ite_self, foldlM_field id hst, decodeVersionPart_field hpart]

/-- The configuration behind an extension that is well formed. -/
theorem transportParamsParseCb_wellFormed {input part : List UInt8} {ws : List WireParam}
    (h : WellFormedParams .clientHello input part ws) (config : Config)
    (stack : Ngtcp2TransportParams) (remoteSet : Bool) :
    transportParamsParseCb config stack input remoteSet =
      ({ config with
          cpuSensitive := (carried .cpuSensitive ws).getD stack.cpuSensitive.toNat
          rttSensitive := (carried .rttSensitive ws).getD stack.rttSensitive.toNat
          throughputSensitive := (carried .throughputSensitive ws).getD stack.throughputSensitive.toNat }, remoteSet) := by
  obtain ⟨params, hdecode, hfield⟩ := decode_field h stack
  have hcpu : params.cpuSensitive.toNat = _ := hfield .cpuSensitive fun _ => rfl
  have hrtt : params.rttSensitive.toNat = _ := hfield .rttSensitive fun _ => rfl
  have hthroughput : params.throughputSensitive.toNat = _ :=
    hfield .throughputSensitive fun _ => rfl
  unfold transportParamsParseCb
  rw [hdecode]
  dsimp only
  rw [hcpu, hrtt, hthroughput]
  rfl

/-- An extension that is not well formed changes nothing. -/
theorem transportParamsParseCb_malformed {input : List UInt8}
    (h : ¬∃ part ws, WellFormedParams .clientHello input part ws)
    (config : Config) (stack : Ngtcp2TransportParams) (remoteSet : Bool) :
    transportParamsParseCb config stack input remoteSet = (config, false) := by
  unfold transportParamsParseCb
  split
  · next params hdecode =>
    exact absurd ((ngtcp2DecodeTransportParams_accepts stack .clientHello input).2.mp ⟨params,
      hdecode⟩) h
  · rfl

/-! ## Earlier connections -/

/-- The parse callback changes what clients are sensitive to, and nothing else. -/
structure SameSetup (config config' : Config) : Prop where
  datacenter : config'.datacenter = config.datacenter
  redundancy : config'.redundancy = config.redundancy

theorem transportParamsParseCb_setup (config : Config) (stack : Ngtcp2TransportParams)
    (input : List UInt8)
    (remoteSet : Bool) : SameSetup config
    (transportParamsParseCb config stack input remoteSet).1 := by
  unfold transportParamsParseCb
  split <;> exact ⟨rfl, rfl⟩

theorem handlerOnRead_setup (config : Config) (stack : Ngtcp2TransportParams) (p : FirstPacket) :
    SameSetup config (handlerOnRead config stack p).1 := by
  unfold handlerOnRead
  split
  · exact ⟨rfl, rfl⟩
  · exact transportParamsParseCb_setup config stack _ p.remoteSet

theorem Event.run_setup (config : Config) (e : Event) : SameSetup config (e.run config) := by
  cases e with
  | first stack p => exact handlerOnRead_setup config stack p
  | later stack input remoteSet => exact transportParamsParseCb_setup config stack input remoteSet

theorem runEvents_setup (config : Config) (events : List Event) :
    SameSetup config (runEvents config events) := by
  induction events generalizing config with
  | nil => exact ⟨rfl, rfl⟩
  | cons e events ih =>
    have hfirst := e.run_setup config
    have hrest := ih (e.run config)
    exact ⟨hrest.datacenter.trans hfirst.datacenter, hrest.redundancy.trans hfirst.redundancy⟩

/-- The destinations depend on the mode, but not on how the configuration says it. -/
theorem onRead_sensitivity {config config' : Config} (hsetup : SameSetup config config')
    (hmode : sensitivity config' = sensitivity config) (dcs : Dcs) (latencies : List LatencyDC)
    (cpus : List CpuDC)
    (throughputs : List ThroughputDC) :
    onRead config' dcs latencies cpus throughputs =
    onRead config dcs latencies cpus throughputs := by
  have hforward : ∀ dc, forwardTo config' dcs dc = forwardTo config dcs dc := by
    intro dc
    rw [forwardTo, forwardTo, hsetup.datacenter]
  have hforwards : ∀ {α : Type} (dc : α → String) (measured chosen : List α),
      forwards config' dcs dc measured chosen = forwards config dcs dc measured chosen := by
    intro α dc measured chosen
    simp only [forwards, hforward]
  have hcases : ∀ config : Config, onRead config dcs latencies cpus throughputs =
    match sensitivity config with
      | .rtt => forwards config dcs LatencyDC.dc latencies (selectLatencies dcs config.redundancy latencies)
      | .cpu => forwards config dcs CpuDC.dc cpus (selectCpus dcs config.redundancy latencies cpus)
      | .throughput =>
        forwards config dcs ThroughputDC.dc throughputs
          (selectThroughputs dcs config.redundancy latencies throughputs)
      | .none => [] := by
    intro config
    unfold onRead sensitivity
    split
    · rfl
    split
    · rfl
    split <;> rfl
  rw [hcases, hcases, hmode, hsetup.redundancy]
  simp only [hforwards]

/-! ## The route of a first packet -/

/-- The packet does not get as far as the choice of a route. -/
def Refused (p : FirstPacket) : Prop :=
  p.read = false ∨ ∃ input, p.extension = some input ∧
    (p.remoteSet = false ∨ ¬∃ part ws, WellFormedParams .clientHello input part ws)

/-- The carried parameters decide the mode, in the order in which it is chosen. -/
def DecidesMode (ws : List WireParam) : Prop :=
  carried .rttSensitive ws = some 1 ∨ (carried .rttSensitive ws).isSome = true ∧
    (carried .cpuSensitive ws = some 1 ∨ (carried .cpuSensitive ws).isSome = true ∧
      (carried .throughputSensitive ws).isSome = true)

/-- The route of a packet with an extension that is well formed. -/
theorem firstPacket_wellFormed {p : FirstPacket} {input part : List UInt8} {ws : List WireParam}
    (hext : p.extension = some input) (h : WellFormedParams .clientHello input part ws)
    (hset : p.remoteSet = true)
    (hread : p.read = true) (config : Config) (stack : Ngtcp2TransportParams) :
    ∃ config', SameSetup config config' ∧
    config'.cpuSensitive = (carried .cpuSensitive ws).getD stack.cpuSensitive.toNat ∧
      config'.rttSensitive = (carried .rttSensitive ws).getD stack.rttSensitive.toNat ∧
      config'.throughputSensitive =
      (carried .throughputSensitive ws).getD stack.throughputSensitive.toNat ∧
      firstPacket config stack p =
      some (sensitivity config', onRead config' p.dcs p.latencies p.cpus p.throughputs) := by
  unfold firstPacket handlerOnRead
  rw [hext]
  dsimp only
  rw [transportParamsParseCb_wellFormed h, hset, hread]
  exact ⟨{ config with
      cpuSensitive := (carried .cpuSensitive ws).getD stack.cpuSensitive.toNat
      rttSensitive := (carried .rttSensitive ws).getD stack.rttSensitive.toNat
      throughputSensitive := (carried .throughputSensitive ws).getD stack.throughputSensitive.toNat },
    ⟨rfl, rfl⟩, rfl, rfl, rfl, rfl⟩

theorem firstPacket_refused {p : FirstPacket} (h : Refused p) (config : Config)
    (stack : Ngtcp2TransportParams) :
    firstPacket config stack p = none := by
  unfold firstPacket handlerOnRead
  rcases h with hread | ⟨input, hext, hset | hmalformed⟩
  · cases p.extension <;> simp [hread]
  · rw [hext]
    dsimp only
    unfold transportParamsParseCb
    split <;> simp [hset]
  · rw [hext]
    dsimp only
    rw [transportParamsParseCb_malformed hmalformed]
    simp

theorem sensitivity_rtt {config : Config} :
    sensitivity config = .rtt ↔ config.rttSensitive = 1 := by
  unfold sensitivity
  split
  · next h => exact iff_of_true rfl h
  next h =>
  split
  · exact iff_of_false (by simp) h
  split <;> exact iff_of_false (by simp) h

theorem sensitivity_cpu {config : Config} :
    sensitivity config = .cpu ↔ config.rttSensitive ≠ 1 ∧ config.cpuSensitive = 1 := by
  unfold sensitivity
  split
  · next h => exact iff_of_false (by simp) fun hc => hc.1 h
  next hrtt =>
  split
  · next h => exact iff_of_true rfl ⟨hrtt, h⟩
  next h => split <;> exact iff_of_false (by simp) fun hc => h hc.2

theorem sensitivity_throughput {config : Config} : sensitivity config = .throughput ↔
    config.rttSensitive ≠ 1 ∧ config.cpuSensitive ≠ 1 ∧ config.throughputSensitive = 1 := by
  unfold sensitivity
  split
  · next h => exact iff_of_false (by simp) fun hc => hc.1 h
  next hrtt =>
  split
  · next h => exact iff_of_false (by simp) fun hc => hc.2.1 h
  next hcpu =>
  split
  · next h => exact iff_of_true rfl ⟨hrtt, hcpu, h⟩
  · next h => exact iff_of_false (by simp) fun hc => h hc.2.2

/-- The mode does not depend on the stack when the parameters decide it. -/
theorem DecidesMode.sensitivity {ws : List WireParam} (h : DecidesMode ws) {config config' : Config}
    {stack stack' : Ngtcp2TransportParams}
    (hcpu : config.cpuSensitive = (carried .cpuSensitive ws).getD stack.cpuSensitive.toNat)
    (hrtt : config.rttSensitive = (carried .rttSensitive ws).getD stack.rttSensitive.toNat)
    (hthr : config.throughputSensitive = (carried .throughputSensitive ws).getD stack.throughputSensitive.toNat)
    (hcpu' : config'.cpuSensitive = (carried .cpuSensitive ws).getD stack'.cpuSensitive.toNat)
    (hrtt' : config'.rttSensitive = (carried .rttSensitive ws).getD stack'.rttSensitive.toNat)
    (hthr' : config'.throughputSensitive = (carried .throughputSensitive ws).getD stack'.throughputSensitive.toNat) :
    sensitivity config' = sensitivity config := by
  rcases h with hone | ⟨hsome, hone | ⟨hsome', hsome''⟩⟩
  · rw [hone] at hrtt hrtt'
    rw [sensitivity_rtt.mpr hrtt, sensitivity_rtt.mpr hrtt']
  · obtain ⟨n, hn⟩ := Option.isSome_iff_exists.mp hsome
    rw [hn] at hrtt hrtt'
    rw [hone] at hcpu hcpu'
    simp [Balancer.sensitivity, hrtt, hrtt', hcpu, hcpu']
  · obtain ⟨n, hn⟩ := Option.isSome_iff_exists.mp hsome
    obtain ⟨n', hn'⟩ := Option.isSome_iff_exists.mp hsome'
    obtain ⟨n'', hn''⟩ := Option.isSome_iff_exists.mp hsome''
    rw [hn] at hrtt hrtt'
    rw [hn'] at hcpu hcpu'
    rw [hn''] at hthr hthr'
    simp only [Balancer.sensitivity, hrtt, hrtt', hcpu, hcpu', hthr, hthr', Option.getD_some]

/-- The extension of a client that asks for a short way, and that of one that asks for computing power. -/
def rttHello : Ngtcp2TransportParams := { plainParams with rttSensitive := 1 }
def cpuHello : Ngtcp2TransportParams := { plainParams with cpuSensitive := 1 }

theorem rttHello_wellFormed : WellFormedParams .clientHello (encodedParams .clientHello rttHello)
    (putVersionPart .clientHello rttHello) (sentParams .clientHello rttHello) :=
  encoded_wellFormed ⟨.inl rfl, .inl rfl, by decide⟩

theorem cpuHello_wellFormed : WellFormedParams .clientHello (encodedParams .clientHello cpuHello)
    (putVersionPart .clientHello cpuHello) (sentParams .clientHello cpuHello) :=
  encoded_wellFormed ⟨.inl rfl, .inl rfl, by decide⟩

/-- What these clients leave behind. -/
theorem sensitivity_rttHello (config : Config) :
    sensitivity (runEvents config [.later plainParams (encodedParams .clientHello rttHello) true]) =
    .rtt := by
  change sensitivity (transportParamsParseCb config plainParams (encodedParams .clientHello rttHello) true).1 = .rtt
  have hrtt : carried .rttSensitive (sentParams .clientHello rttHello) = some 1 := by decide
  rw [transportParamsParseCb_wellFormed rttHello_wellFormed, hrtt]
  exact sensitivity_rtt.mpr rfl

theorem sensitivity_cpuHello (config : Config) :
    sensitivity (runEvents config [.later plainParams (encodedParams .clientHello cpuHello) true]) =
    .cpu := by
  change sensitivity (transportParamsParseCb config plainParams (encodedParams .clientHello cpuHello) true).1 = .cpu
  have hrtt : carried .rttSensitive (sentParams .clientHello cpuHello) = none := by decide
  have hcpu : carried .cpuSensitive (sentParams .clientHello cpuHello) = some 1 := by decide
  rw [transportParamsParseCb_wellFormed cpuHello_wellFormed, hrtt, hcpu]
  exact sensitivity_cpu.mpr ⟨Nat.zero_ne_one, rfl⟩

/-- Without an extension the mode is the one that the configuration has. -/
theorem firstPacket_noExtension {p : FirstPacket} (hext : p.extension = none)
    (hread : p.read = true) (config : Config)
    (stack : Ngtcp2TransportParams) :
    firstPacket config stack p =
    some (sensitivity config, onRead config p.dcs p.latencies p.cpus p.throughputs) := by
  unfold firstPacket handlerOnRead
  rw [hext]
  dsimp only
  rw [if_pos hread]

/-- The stack decides the mode when the parameters do not. -/
theorem decidesMode_of_same {p : FirstPacket} {input part : List UInt8} {ws : List WireParam}
    (hext : p.extension = some input) (h : WellFormedParams .clientHello input part ws)
    (hset : p.remoteSet = true)
    (hread : p.read = true) (config : Config)
    (hsame : ∀ stack stack', firstPacket config stack p = firstPacket config stack' p) :
    DecidesMode ws := by
  -- Two stacks that differ in one field give the same mode.
  have hmode : ∀ stack stack' : Ngtcp2TransportParams, ∃ config₁ config₂ :
    Config, sensitivity config₁ = sensitivity config₂ ∧
      config₁.cpuSensitive = (carried .cpuSensitive ws).getD stack.cpuSensitive.toNat ∧
      config₁.rttSensitive = (carried .rttSensitive ws).getD stack.rttSensitive.toNat ∧
      config₁.throughputSensitive =
        (carried .throughputSensitive ws).getD stack.throughputSensitive.toNat ∧
      config₂.cpuSensitive = (carried .cpuSensitive ws).getD stack'.cpuSensitive.toNat ∧
      config₂.rttSensitive = (carried .rttSensitive ws).getD stack'.rttSensitive.toNat ∧
      config₂.throughputSensitive =
        (carried .throughputSensitive ws).getD stack'.throughputSensitive.toNat := by
    intro stack stack'
    obtain ⟨config₁, -, hcpu, hrtt, hthr, hroute⟩ :=
      firstPacket_wellFormed hext h hset hread config stack
    obtain ⟨config₂, -, hcpu', hrtt', hthr', hroute'⟩ :=
      firstPacket_wellFormed hext h hset hread config stack'
    have heq := hsame stack stack'
    rw [hroute, hroute'] at heq
    exact ⟨config₁, config₂, (Prod.mk.inj (Option.some.inj heq)).1, hcpu, hrtt, hthr, hcpu', hrtt',
      hthr'⟩
  cases hrtt : carried .rttSensitive ws with
  | none =>
    obtain ⟨config₁, config₂, heq, -, h₁, -, -, h₂, -⟩ :=
      hmode { plainParams with rttSensitive := 1 } plainParams
    rw [hrtt] at h₁ h₂
    rw [sensitivity_rtt.mpr h₁] at heq
    exact absurd (h₂.symm.trans (sensitivity_rtt.mp heq.symm)) (by decide)
  | some n =>
    by_cases hn : n = 1
    · exact .inl (by rw [hrtt, hn])
    refine .inr ⟨by rw [hrtt]; rfl, ?_⟩
    cases hcpu : carried .cpuSensitive ws with
    | none =>
      obtain ⟨config₁, config₂, heq, hc₁, h₁, -, hc₂, h₂, -⟩ :=
        hmode { plainParams with cpuSensitive := 1 } plainParams
      rw [hrtt] at h₁ h₂
      rw [hcpu] at hc₁ hc₂
      rw [sensitivity_cpu.mpr ⟨by rw [h₁]; exact hn, hc₁⟩] at heq
      exact absurd (hc₂.symm.trans (sensitivity_cpu.mp heq.symm).2) (by decide)
    | some n' =>
      by_cases hn' : n' = 1
      · exact .inl (by rw [hn'])
      refine .inr ⟨rfl, ?_⟩
      cases hthr : carried .throughputSensitive ws with
      | some n'' => rfl
      | none =>
        obtain ⟨config₁, config₂, heq, hc₁, h₁, ht₁, -, -, ht₂⟩ :=
          hmode { plainParams with throughputSensitive := 1 } plainParams
        rw [hrtt] at h₁
        rw [hcpu] at hc₁
        rw [hthr] at ht₁ ht₂
        rw [sensitivity_throughput.mpr ⟨by rw [h₁]; exact hn, by rw [hc₁]; exact hn', ht₁⟩] at heq
        exact absurd (ht₂.symm.trans (sensitivity_throughput.mp heq.symm).2.2) (by decide)

/-- The route of a first packet is the same whatever the connections before it left behind, exactly when the packet
is refused or carries parameters that decide the mode. -/
theorem firstPacket_private (config : Config) (p : FirstPacket) :
    (∀ (earlier earlier' : List Event) (stack stack' : Ngtcp2TransportParams),
      firstPacket (runEvents config earlier) stack p =
      firstPacket (runEvents config earlier') stack' p) ↔
      Refused p ∨ ∃ input part ws, p.extension = some input ∧
      WellFormedParams .clientHello input part ws ∧
        DecidesMode ws := by
  by_cases hrefused : Refused p
  · refine iff_of_true (fun earlier earlier' stack stack' => ?_) (.inl hrefused)
    rw [firstPacket_refused hrefused, firstPacket_refused hrefused]
  have hread : p.read = true := by
    by_contra hno
    exact hrefused (.inl (by simpa using hno))
  constructor
  · intro hsame
    refine .inr ?_
    cases hext : p.extension with
    | none =>
      have heq := hsame [.later plainParams (encodedParams .clientHello rttHello) true]
        [.later plainParams (encodedParams .clientHello cpuHello) true] plainParams plainParams
      rw [firstPacket_noExtension hext hread, firstPacket_noExtension hext hread,
        sensitivity_rttHello,
        sensitivity_cpuHello] at heq
      exact absurd (Prod.mk.inj (Option.some.inj heq)).1 (by decide)
    | some input =>
      have hset : p.remoteSet = true := by
        by_contra hno
        exact hrefused (.inr ⟨input, hext, .inl (by simpa using hno)⟩)
      have hwf : ∃ part ws, WellFormedParams .clientHello input part ws := by
        by_contra hno
        exact hrefused (.inr ⟨input, hext, .inr hno⟩)
      obtain ⟨part, ws, h⟩ := hwf
      exact ⟨input, part, ws, rfl, h,
        decidesMode_of_same hext h hset hread config fun stack stack' => hsame [] [] stack stack'⟩
  · rintro (hno | ⟨input, part, ws, hext, h, hdecides⟩) earlier earlier' stack stack'
    · exact absurd hno hrefused
    have hset : p.remoteSet = true := by
      by_contra hno
      exact hrefused (.inr ⟨input, hext, .inl (by simpa using hno)⟩)
    obtain ⟨config₁, hsetup, hcpu, hrtt, hthr, hroute⟩ :=
      firstPacket_wellFormed hext h hset hread (runEvents config earlier) stack
    obtain ⟨config₂, hsetup', hcpu', hrtt', hthr', hroute'⟩ :=
      firstPacket_wellFormed hext h hset hread (runEvents config earlier') stack'
    have hmode := hdecides.sensitivity hcpu' hrtt' hthr' hcpu hrtt hthr
    have hboth : SameSetup config₂ config₁ := by
      have hrun := runEvents_setup config earlier
      have hrun' := runEvents_setup config earlier'
      constructor
      · rw [hsetup.datacenter, hsetup'.datacenter, hrun.datacenter, hrun'.datacenter]
      · rw [hsetup.redundancy, hsetup'.redundancy, hrun.redundancy, hrun'.redundancy]
    rw [hroute, hroute', hmode, onRead_sensitivity hboth hmode]

/-- A packet without transport parameters goes the way that the client before it asked for. -/
theorem firstPacket_inherits :
    ¬∀ (config : Config) (p : FirstPacket) (earlier earlier' : List Event)
    (stack : Ngtcp2TransportParams),
      firstPacket (runEvents config earlier) stack p =
      firstPacket (runEvents config earlier') stack p := by
  intro h
  have heq := h ⟨"a", 0, 0, 0, 1⟩ ⟨none, true, true, some, [⟨"b", 20⟩], [], []⟩
    [.later plainParams (encodedParams .clientHello rttHello) true] [] plainParams
  rw [firstPacket_noExtension rfl rfl, firstPacket_noExtension rfl rfl, sensitivity_rttHello] at heq
  exact absurd (Prod.mk.inj (Option.some.inj heq)).1 (by decide)

end Balancer
