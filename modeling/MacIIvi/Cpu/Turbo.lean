import MacIIvi.Cpu.LineFill
import MacIIvi.Clocked.Run

/-!
# What the kernel and the memory see of a run's timing

A kernel that advances on beats is set against the untimed machine that makes one
access after another. Every run of the wrapper is a run of the untimed machine,
whatever its turbo beats, acknowledges, walks and line fills, so that two runs of
one kernel differ in their timing only. What timing does decide is which fetches
the cache serves: the fetches on the bus and the stale data latch that an access
without data shows are left out of what is compared.
-/

namespace MacIIvi.Cpu

/-! ### The untimed machine -/

/-- What the kernel drives for one access. -/
structure Access where
  busstate : BusState
  addr : Addr
  rw : Bool
  udsN : Bool
  ldsN : Bool
  dataWrite : Word
  fc : BitVec 3
  deriving DecidableEq

def accessOf (k : Kernel) : Access :=
  ⟨k.busstate, k.addr, k.rw, k.udsN, k.ldsN, k.dataWrite, k.fc⟩

/-- The access ends with a word for the kernel. -/
def BusState.gives : BusState → Bool
  | .fetch | .read => true
  | .none | .write => false

/-- The access is one to data. -/
def BusState.isData : BusState → Bool
  | .read | .write => true
  | .fetch | .none => false

/-- Of a beat that is valid unless it is a faulted access, one brings a word if
its access does and is not faulted. -/
theorem BusState.valid_gives (b : BusState) (fault : Bool) :
    ((b == .none || !fault) && b.gives) = (b.gives && !fault) := by
  cases b <;> cases fault <;> rfl

/-- A kernel with its PMMU: it advances on beats only. -/
structure Machine (σ : Type) where
  init : σ
  access : σ → Access
  faults : σ → Bool
  next : σ → Word → Bool → σ

/-- The value a memory gives for an access after the data accesses so far. -/
abbrev Memory := List Access → Access → Word

/-- A state of the untimed machine, with the beats and the data accesses that led
to it. -/
structure Untimed (σ : Type) where
  state : σ
  beats : List (Bool × Option Word)
  accesses : List Access

namespace Machine

variable {σ : Type} (m : Machine σ)

/-- The beat of this state brings a word. -/
def heeds (k : σ) : Bool := (m.access k).busstate.gives && !m.faults k

/-- The data access that the beat of this state completes. -/
def completed (k : σ) : List Access :=
  if (m.access k).busstate.isData && !m.faults k then [m.access k] else []

/-- `beat_valid` -/
def valid (k : σ) : Bool := (m.access k).busstate == .none || !m.faults k

/-- The beat of this state: `beat_valid` and the word it brings. -/
def beat (memory : Memory) (k : σ) (done : List Access) : Bool × Option Word :=
  (m.valid k, if m.heeds k then some (memory done (m.access k)) else none)

/-- The state after beats with these words on the data input. -/
def feed (k : σ) : List Word → σ
  | [] => k
  | d :: l => feed (m.next k d (m.valid k)) l

/-- Whatever words come, the kernel shows the same from both states on. -/
def Alike (k k' : σ) : Prop :=
  ∀ l, m.access (m.feed k l) = m.access (m.feed k' l) ∧ m.faults (m.feed k l) = m.faults (m.feed k' l)

/-- The word on the data input at a beat that brings none may stay in a register of the
kernel, but it never shows. -/
def Deaf : Prop := ∀ k d d', m.heeds k = false →
  m.Alike (m.next k d (m.valid k)) (m.next k d' (m.valid k))

/-- The machine after `c` beats. -/
def untimed (memory : Memory) : Nat → Untimed σ
  | 0 => ⟨m.init, [], []⟩
  | c + 1 =>
    let s := untimed memory c
    let b := m.beat memory s.state s.accesses
    ⟨m.next s.state (b.2.getD 0) b.1, s.beats ++ [b], s.accesses ++ m.completed s.state⟩

variable {m} {memory : Memory} {k k' : σ}

namespace Alike

theorem refl (k : σ) : m.Alike k k := fun _ => ⟨rfl, rfl⟩

theorem trans {k'' : σ} (h : m.Alike k k') (h' : m.Alike k' k'') : m.Alike k k'' := fun l =>
  ⟨(h l).1.trans (h' l).1, (h l).2.trans (h' l).2⟩

theorem access (h : m.Alike k k') : m.access k = m.access k' := (h []).1

theorem faults (h : m.Alike k k') : m.faults k = m.faults k' := (h []).2

theorem valid (h : m.Alike k k') : m.valid k = m.valid k' := by
  rw [Machine.valid, Machine.valid, h.access, h.faults]

theorem next (h : m.Alike k k') (d : Word) :
    m.Alike (m.next k d (m.valid k)) (m.next k' d (m.valid k')) := fun l => h (d :: l)

end Alike

theorem untimed_prefix {c c' : Nat} (later : c ≤ c') :
    (m.untimed memory c).beats <+: (m.untimed memory c').beats ∧
      (m.untimed memory c).accesses <+: (m.untimed memory c').accesses := by
  induction c', later using Nat.le_induction with
  | base => exact ⟨List.prefix_refl _, List.prefix_refl _⟩
  | succ c' later ih =>
    exact ⟨ih.1.trans (List.prefix_append _ _), ih.2.trans (List.prefix_append _ _)⟩

end Machine

/-! ### Timed runs -/

/-- What the kernel is given at clock `t`. -/
def beatAt (i : Nat → CoreInputs) (t : Nat) : Option (Bool × Option Word) :=
  let r := (Core.after i t).regs
  let x := Core.seen i t
  if r.clkena x then
    some (r.beatValid x,
      if r.beatValid x && (i t).kernel.busstate.gives then some (r.dataIn x) else none)
  else none

/-- A bus cycle of the kernel is served at clock `t`. -/
def ServedAt (i : Nat → CoreInputs) (t : Nat) : Prop :=
  (Core.after i t).regs.kernelOwned = true ∧ (Core.after i t).regs.sState = 6 ∧
    (i t).pins.phi = .phi2

instance (i : Nat → CoreInputs) (t : Nat) : Decidable (ServedAt i t) := by
  unfold ServedAt; infer_instance

/-- The data access that the memory is given at clock `t`. -/
def accessAt (i : Nat → CoreInputs) (t : Nat) : Option Access :=
  if ServedAt i t ∧ (i t).kernel.busstate.isData = true then some (accessOf (i t).kernel) else none

/-- The kernel's beats before clock `t`. -/
def beats (i : Nat → CoreInputs) (t : Nat) : List (Bool × Option Word) :=
  Clocked.record (beatAt i) 0 t

/-- The kernel's data accesses on the bus before clock `t`. -/
def accesses (i : Nat → CoreInputs) (t : Nat) : List Access :=
  Clocked.record (accessAt i) 0 t

/-- The wrapper is driven by this kernel and this memory: `state` is the kernel's
state at each clock. -/
structure Drives {σ : Type} (m : Machine σ) (memory : Memory) (i : Nat → CoreInputs) (w : World)
    (state : Nat → σ) (n : Nat) : Prop where
  starts : state 0 = m.init
  stalls : ∀ t, t + 1 < n → (Core.after i t).regs.clkena (Core.seen i t) = false →
    state (t + 1) = state t
  advances : ∀ t, t + 1 < n → (Core.after i t).regs.clkena (Core.seen i t) = true →
    state (t + 1) = m.next (state t) ((Core.after i t).regs.dataIn (Core.seen i t))
      ((Core.after i t).regs.beatValid (Core.seen i t))
  presents : ∀ t < n, (i t).kernel.pmmuBusy = false → accessOf (i t).kernel = m.access (state t)
  faults : ∀ t < n, (i t).kernel.pmmuBusy = false → (i t).kernel.pmmuFault = m.faults (state t)
  busy : ∀ t < n, (i t).kernel.pmmuBusy = true →
    (i t).kernel.busstate = .none ∧ (i t).kernel.pmmuFault = false
  walker : ∀ t < n, (i t).kernel.walkerReq = true → (i t).kernel.busstate = .none
  reads : ∀ t < n, ServedAt i t → (i t).kernel.busstate.gives = true →
    (Core.after i t).regs.tg68Din (Core.seen i t) = memory (accesses i t) (accessOf (i t).kernel)
  fetched : ∀ t < n, iReq (i t).kernel (i t).control = true →
    w.busWord t (i t).kernel.fc (i t).control.addrLog =
      memory (accesses i t) (accessOf (i t).kernel)

/-- A run of a kernel and a memory on the wrapper and its cache. -/
structure TimedRun {σ : Type} (m : Machine σ) (memory : Memory) (i : Nat → CoreInputs) (w : World)
    (first : Bool) (state : Nat → σ) (n : Nat) : Prop where
  environment : Environment i w first n
  refreshes : Refreshes i w n
  survivor : NoStaleSurvivor i w n
  drives : Drives m memory i w state n

/-! ### One clock -/

namespace Regs

variable {turn : Bool} {i j : Inputs} {r : Regs}

/-- A kernel cycle comes to state 7 from its state 6 and waits there for `phi1`. -/
theorem seven_next (ok : r.Ok turn i) (turns : OnTurn turn i.pins.phi) :
    ((r.step i).kernelOwned = true ∧ (r.step i).sState = 7) ↔
      r.kernelOwned = true ∧
        (r.sState = 6 ∧ i.pins.phi = .phi2 ∨ r.sState = 7 ∧ i.pins.phi = .none) := by
  have bound := ok.bound
  have moved := advance ok turns
  have owner : (i.pins.phi = .phi1 → r.sState ≠ 0 ∧ r.sState ≠ 7) →
      (r.step i).kernelOwned = r.kernelOwned := by
    intro mid
    obtain ⟨walk, fill, _⟩ := owner_next mid
    simp [kernelOwned, walk, fill]
  constructor
  · rintro ⟨mine, last⟩
    change r.sStateNext i = 7 at last
    rw [owner (running ok turns (by omega)).1] at mine
    refine ⟨mine, ?_⟩
    rcases moved with ⟨phi, next⟩ | ⟨phi, _, odd, next⟩ | ⟨phi, _, wait, next⟩ |
      ⟨phi, _, wait, next⟩ | ⟨phi, _, even, next, _⟩
    · exact .inr ⟨by omega, phi⟩
    · omega
    · omega
    · omega
    · exact .inl ⟨by omega, phi⟩
  · rintro ⟨mine, at_⟩
    rw [owner (by rcases at_ with ⟨_, phi⟩ | ⟨_, phi⟩ <;> simp [phi])]
    refine ⟨mine, ?_⟩
    change r.sStateNext i = 7
    rcases at_ with ⟨six, phi⟩ | ⟨seven, phi⟩
    · rcases moved with ⟨other, _⟩ | ⟨other, _⟩ | ⟨other, _⟩ | ⟨_, _, wait, _⟩ |
        ⟨_, _, _, next, _⟩
      · simp [phi] at other
      · simp [phi] at other
      · simp [phi] at other
      · omega
      · omega
    · simp [sStateNext, phi, seven]

end Regs

/-! ### Every run is a run of the untimed machine -/

section Run

variable {σ : Type} {m : Machine σ} {memory : Memory} {i : Nat → CoreInputs} {w : World}
  {first : Bool} {state : Nat → σ} {n : Nat}

open MacIIvi.Cpu.Core (after seen)

/-- Clock `t` of a run is where the untimed machine is after `c` beats. In state 7
of a kernel cycle the memory is one access ahead and the word is in the latch. -/
structure InStep (m : Machine σ) (memory : Memory) (i : Nat → CoreInputs) (state : Nat → σ)
    (t c : Nat) : Prop where
  state : m.Alike (state t) (m.untimed memory c).state
  beats : beats i t = (m.untimed memory c).beats
  accesses : accesses i t = (m.untimed memory c).accesses ++
    if (after i t).regs.kernelOwned = true ∧ (after i t).regs.sState = 7 then
      m.completed (m.untimed memory c).state
    else []
  sound : (after i t).regs.kernelOwned = true → (after i t).regs.sState ≠ 0 →
    m.faults (m.untimed memory c).state = false
  latched : (after i t).regs.kernelOwned = true → (after i t).regs.sState = 7 →
    m.heeds (m.untimed memory c).state = true →
      (after i t).regs.dinR =
        memory (m.untimed memory c).accesses (m.access (m.untimed memory c).state)

/-- What the kernel presents on the bus is the access of its state. -/
theorem TimedRun.presented (run : TimedRun m memory i w first state n) {t : Nat} (h : t < n)
    (live : (i t).kernel.busstate ≠ .none) :
    accessOf (i t).kernel = m.access (state t) ∧ (i t).kernel.pmmuBusy = false ∧
      (i t).kernel.walkerReq = false ∧ (i t).kernel.pmmuFault = m.faults (state t) := by
  have idle : (i t).kernel.pmmuBusy = false := by
    by_contra busy
    exact live (run.drives.busy t h (by simpa using busy)).1
  have quiet : (i t).kernel.walkerReq = false := by
    by_contra asks
    exact live (run.drives.walker t h (by simpa using asks))
  exact ⟨run.drives.presents t h idle, idle, quiet, run.drives.faults t h idle⟩

/-- A clock of a kernel cycle after its start. -/
theorem TimedRun.onBus (run : TimedRun m memory i w first state n) {t : Nat} (h : t < n)
    (mine : (after i t).regs.kernelOwned = true) (busy : (after i t).regs.sState ≠ 0) :
    (i t).kernel.busstate ≠ .none := by
  have kernel : (after i t).regs.walkCycle = false ∧ (after i t).regs.fillActive = false := by
    simpa [Regs.kernelOwned] using mine
  have live := (run.environment.ok t h).live busy
  simpa [Regs.effBusstate, kernel, seen, Core.bus] using live

/-- A clock without a beat. -/
theorem TimedRun.wait (run : TimedRun m memory i w first state n) {t c : Nat} (h : t + 1 < n)
    (here : InStep m memory i state t c) (idle : (after i t).regs.clkena (seen i t) = false) :
    InStep m memory i state (t + 1) c := by
  have ok := run.environment.ok t (by omega)
  have turns := run.environment.bus.turns t (by omega)
  have seven := Regs.seven_next ok turns
  have same := run.drives.stalls t h idle
  -- state 7 lasts only while no enable comes
  have waits : (after i t).regs.kernelOwned = true → (after i t).regs.sState = 7 →
      (i t).pins.phi = .none := by
    intro mine last
    have kernel : (after i t).regs.walkCycle = false ∧ (after i t).regs.fillActive = false := by
      simpa [Regs.kernelOwned] using mine
    obtain ⟨_, free, quiet, _⟩ := run.presented (by omega) (run.onBus (by omega) mine (by omega))
    cases phi : (i t).pins.phi with
    | none => rfl
    | phi1 => simp [Regs.clkena, seen, Core.bus, phi, last, kernel, free, quiet] at idle
    | phi2 =>
      have earlier := ok.odd (by omega)
      have now := turns.2 phi
      simp [earlier] at now
  constructor
  case state =>
    rw [same]
    exact here.state
  case beats =>
    rw [beats, Clocked.record_succ (Nat.zero_le _)]
    have none : beatAt i t = none := by simp [beatAt, idle]
    change beats i t ++ _ = _
    rw [none, here.beats]
    simp
  case accesses =>
    rw [accesses, Clocked.record_succ (Nat.zero_le _)]
    change accesses i t ++ _ = _
    rw [here.accesses, List.append_assoc]
    congr 1
    change _ = if ((after i t).regs.step (seen i t)).kernelOwned = true ∧
      ((after i t).regs.step (seen i t)).sState = 7 then _ else _
    by_cases served : ServedAt i t
    · obtain ⟨mine, six, phi⟩ := served
      have live := run.onBus (by omega) mine (by omega)
      have presented := (run.presented (by omega) live).1
      have sound := here.sound mine (by omega)
      have kind : (i t).kernel.busstate = (m.access (state t)).busstate := by
        rw [← presented]
        rfl
      rw [if_pos (seven.2 ⟨mine, .inl ⟨six, phi⟩⟩), if_neg (by omega)]
      simp only [accessAt, ServedAt, mine, six, phi, kind, presented, here.state.access,
        Machine.completed, sound]
      by_cases data : (m.access (m.untimed memory c).state).busstate.isData = true <;> simp [data]
    · have none : accessAt i t = none := by simp [accessAt, served]
      rw [none]
      by_cases last : (after i t).regs.kernelOwned = true ∧ (after i t).regs.sState = 7
      · rw [if_pos last, if_pos (seven.2 ⟨last.1, .inr ⟨last.2, waits last.1 last.2⟩⟩)]
        simp
      · rw [if_neg last, if_neg]
        · rfl
        · intro next
          obtain ⟨mine, ⟨six, phi⟩ | ⟨at_, _⟩⟩ := seven.1 next
          · exact served ⟨mine, six, phi⟩
          · exact last ⟨mine, at_⟩
  case sound =>
    intro mine busy
    change (after i t).regs.sStateNext (seen i t) ≠ 0 at busy
    obtain ⟨walk, fill, _⟩ := Regs.owner_next (Regs.running ok turns busy).1
    have owned : (after i t).regs.kernelOwned = true := by
      change ((after i t).regs.step (seen i t)).kernelOwned = true at mine
      simpa [Regs.kernelOwned, walk, fill] using mine
    by_cases start : (after i t).regs.sState = 0
    · obtain ⟨free, clear⟩ := Regs.launched_clear ok turns owned start busy
      rw [← here.state.faults, ← run.drives.faults t (by omega) free]
      exact clear
    · exact here.sound owned start
  case latched =>
    intro mine last heeds
    change (after i t).regs.dinRNext (seen i t) = _
    obtain ⟨owned, ⟨six, phi⟩ | ⟨at_, phi⟩⟩ := seven.1 ⟨mine, last⟩
    · have kernel : (after i t).regs.walkCycle = false ∧ (after i t).regs.fillActive = false := by
        simpa [Regs.kernelOwned] using owned
      have live := run.onBus (by omega) owned (by omega)
      have presented := (run.presented (by omega) live).1
      have gives : (i t).kernel.busstate.gives = true := by
        have kind : (m.access (state t)).busstate = (i t).kernel.busstate := by
          rw [← presented]
          rfl
        simp only [Machine.heeds, ← here.state.access, kind, Bool.and_eq_true] at heeds
        exact heeds.1
      have done := here.accesses
      rw [if_neg (by omega), List.append_nil] at done
      have word := run.drives.reads t (by omega) ⟨owned, six, phi⟩ gives
      rw [presented, done, here.state.access] at word
      rw [← word]
      simp [Regs.dinRNext, Regs.releases, phi, six, kernel]
    · rw [← here.latched owned at_ heeds]
      simp [Regs.dinRNext, Regs.releases, phi]

/-- What the kernel is given at a beat. -/
theorem TimedRun.given (run : TimedRun m memory i w first state n) {t c : Nat} (h : t < n)
    (here : InStep m memory i state t c) (beat : (after i t).regs.clkena (seen i t) = true) :
    beatAt i t = some (m.beat memory (m.untimed memory c).state (m.untimed memory c).accesses) ∧
      (m.heeds (m.untimed memory c).state = true →
        (after i t).regs.dataIn (seen i t) =
          memory (m.untimed memory c).accesses (m.access (m.untimed memory c).state)) ∧
      ((after i t).regs.sState = 0 → m.completed (m.untimed memory c).state = []) := by
  obtain ⟨mine, place⟩ := no_other_beat run.environment.bus t h
    (by rwa [← Core.after_regs])
  rw [← Core.after_regs] at mine place
  have kernel : (after i t).regs.walkCycle = false ∧ (after i t).regs.fillActive = false := by
    simpa [Regs.kernelOwned] using mine
  have free : (i t).kernel.pmmuBusy = false := by
    by_contra busy
    have parked := run.drives.busy t h (by simpa using busy)
    simp only [Bool.not_eq_false] at busy
    simp [Regs.clkena, seen, Core.bus, busy, parked] at beat
  have presented : accessOf (i t).kernel = m.access (m.untimed memory c).state := by
    rw [run.drives.presents t h free, here.state.access]
  have kind : (i t).kernel.busstate = (m.access (m.untimed memory c).state).busstate := by
    rw [← presented]
    rfl
  have fault : (i t).kernel.pmmuFault = m.faults (m.untimed memory c).state := by
    rw [run.drives.faults t h free, here.state.faults]
  have assemble : (after i t).regs.beatValid (seen i t) =
      ((i t).kernel.busstate == .none || !(i t).kernel.pmmuFault) →
      (m.heeds (m.untimed memory c).state = true → (after i t).regs.dataIn (seen i t) =
          memory (m.untimed memory c).accesses (m.access (m.untimed memory c).state)) →
      beatAt i t =
        some (m.beat memory (m.untimed memory c).state (m.untimed memory c).accesses) := by
    intro valid data
    simp only [beatAt, beat, if_true, Machine.beat, Machine.valid, valid, kind, fault,
      BusState.valid_gives]
    change some (_, if m.heeds (m.untimed memory c).state = true then _ else _) = _
    by_cases heeds : m.heeds (m.untimed memory c).state = true
    · rw [if_pos heeds, if_pos heeds, data heeds]
    · rw [if_neg heeds, if_neg heeds]
  rcases place with idle | ⟨last, phi⟩
  · -- between two bus cycles: no access, a cache hit, or a faulted access
    have done := here.accesses
    rw [if_neg (by omega), List.append_nil] at done
    by_cases none : (i t).kernel.busstate = .none
    · have heeds : m.heeds (m.untimed memory c).state = false := by
        simp [Machine.heeds, ← kind, none, BusState.gives]
      refine ⟨assemble ?_ (by simp [heeds]), by simp [heeds], ?_⟩
      · simp [Regs.beatValid, seen, Core.bus, none]
      · simp [Machine.completed, ← kind, none, BusState.isData]
    · by_cases hit : (after i t).regs.cacheHitBeat (seen i t) = true
      · have req : iReq (i t).kernel (i t).control = true := by
          have parts := hit
          simp only [Regs.cacheHitBeat, Regs.cacheReadHit, seen, Core.bus, Bool.and_eq_true]
            at parts
          exact parts.1.2.2
        have clear : (i t).kernel.pmmuFault = false := by
          simp only [iReq, Bool.and_eq_true, Bool.not_eq_true'] at req
          exact req.2
        have word : (after i t).regs.dataIn (seen i t) =
            memory (m.untimed memory c).accesses (m.access (m.untimed memory c).state) := by
          rw [hits_transparent run.environment run.refreshes run.survivor t h hit,
            run.drives.fetched t h req, done, presented]
        refine ⟨assemble ?_ fun _ => word, fun _ => word, fun _ => ?_⟩
        · simp [Regs.beatValid, hit, clear]
        · simp [Machine.completed, ← kind, busstate_of_iReq req, BusState.isData]
      · have faulted : (i t).kernel.pmmuFault = true := by
          by_contra clear
          simp only [Bool.not_eq_true] at clear hit
          simp [Regs.clkena, idle, hit] at beat
          simp [seen, Core.bus, none, clear] at beat
        have heeds : m.heeds (m.untimed memory c).state = false := by
          simp [Machine.heeds, ← fault, faulted]
        refine ⟨assemble ?_ (by simp [heeds]), by simp [heeds], fun _ => ?_⟩
        · simp only [Bool.not_eq_true] at hit
          simp [Regs.beatValid, idle, hit, faulted]
          rfl
        · simp [Machine.completed, ← fault, faulted]
  · -- the end of a bus cycle
    have clear : (i t).kernel.pmmuFault = false := by
      rw [fault]
      exact here.sound mine (by omega)
    have word : m.heeds (m.untimed memory c).state = true →
        (after i t).regs.dataIn (seen i t) =
          memory (m.untimed memory c).accesses (m.access (m.untimed memory c).state) := by
      intro heeds
      rw [← here.latched mine last heeds]
      simp [Regs.dataIn, Regs.cacheHitBeat, last]
    refine ⟨assemble ?_ word, word, by omega⟩
    simp [Regs.beatValid, last, clear]

/-- No cycle is on the bus after a beat. -/
theorem TimedRun.idle_next (run : TimedRun m memory i w first state n) {t : Nat} (h : t < n)
    (beat : (after i t).regs.clkena (seen i t) = true) : (after i (t + 1)).regs.sState = 0 := by
  have ok := run.environment.ok t h
  have turns := run.environment.bus.turns t h
  change (after i t).regs.sStateNext (seen i t) = 0
  obtain ⟨mine, place⟩ := no_other_beat run.environment.bus t h (by rwa [← Core.after_regs])
  rw [← Core.after_regs] at mine place
  by_contra on
  obtain ⟨mid, live, hit⟩ := Regs.running ok turns on
  have kernel : (after i t).regs.walkCycle = false ∧ (after i t).regs.fillActive = false := by
    simpa [Regs.kernelOwned] using mine
  have busy : (seen i t).kernel.busstate ≠ .none := by
    simpa [Regs.effBusstate, kernel] using live
  rcases place with idle | ⟨last, phi⟩
  · cases phi : (seen i t).pins.phi with
    | none => simp [Regs.clkena, phi] at beat
    | phi1 => exact (mid phi).1 idle
    | phi2 => simp [Regs.clkena, phi, busy, hit] at beat
  · exact (mid phi).2 last

/-- A clock with a beat. -/
theorem TimedRun.beat (run : TimedRun m memory i w first state n) (deaf : m.Deaf) {t c : Nat}
    (h : t + 1 < n) (here : InStep m memory i state t c)
    (beat : (after i t).regs.clkena (seen i t) = true) :
    InStep m memory i state (t + 1) (c + 1) := by
  obtain ⟨given, word, between⟩ := run.given (by omega) here beat
  have idle := run.idle_next (by omega) beat
  obtain ⟨mine, place⟩ := no_other_beat run.environment.bus t (by omega)
    (by rwa [← Core.after_regs])
  rw [← Core.after_regs] at mine place
  constructor
  case state =>
    have valid : (after i t).regs.beatValid (seen i t) = m.valid (state t) := by
      have pair := given
      simp only [beatAt, beat, if_true, Option.some.injEq] at pair
      rw [here.state.valid]
      exact congrArg Prod.fst pair
    have step := here.state.next ((after i t).regs.dataIn (seen i t))
    rw [run.drives.advances t h beat, valid]
    refine step.trans ?_
    simp only [Machine.untimed, Machine.beat]
    by_cases heeds : m.heeds (m.untimed memory c).state = true
    · rw [word heeds, if_pos heeds]
      exact .refl _
    · simp only [Bool.not_eq_true] at heeds
      exact deaf _ _ _ heeds
  case beats =>
    rw [beats, Clocked.record_succ (Nat.zero_le _)]
    change beats i t ++ _ = _
    rw [given, here.beats]
    rfl
  case accesses =>
    have unserved : accessAt i t = none := by
      have later : ¬ ServedAt i t := by
        rintro ⟨_, six, _⟩
        rcases place with idle | ⟨last, _⟩ <;> omega
      simp [accessAt, later]
    have gone : ¬ ((after i (t + 1)).regs.kernelOwned = true ∧
        (after i (t + 1)).regs.sState = 7) := by omega
    rw [accesses, Clocked.record_succ (Nat.zero_le _)]
    change accesses i t ++ _ = _
    rw [unserved, here.accesses, if_neg gone]
    simp only [Option.toList_none, List.append_nil]
    rcases place with idle | ⟨last, _⟩
    · simp [Machine.untimed, between idle, idle]
    · simp [Machine.untimed, mine, last]
  case sound => simp [idle]
  case latched => simp [idle]

/-- Every clock of a run is in step with the untimed machine. -/
theorem TimedRun.in_step (run : TimedRun m memory i w first state n) (deaf : m.Deaf) (t : Nat)
    (h : t < n) : ∃ c, InStep m memory i state t c := by
  induction t with
  | zero =>
    have starts : m.Alike (state 0) (m.untimed memory 0).state := by
      rw [run.drives.starts]
      exact .refl _
    refine ⟨0, starts, rfl, ?_, ?_, ?_⟩ <;> simp [after, accesses, Machine.untimed]
  | succ t ih =>
    obtain ⟨c, here⟩ := ih (by omega)
    by_cases beat : (after i t).regs.clkena (seen i t) = true
    · exact ⟨c + 1, run.beat deaf h here beat⟩
    · exact ⟨c, run.wait h here (by simpa using beat)⟩

/-- The memory is at most one access ahead of the kernel's beats. -/
theorem accesses_ahead {t c : Nat} (here : InStep m memory i state t c) :
    ∃ c', accesses i t = (m.untimed memory c').accesses := by
  have done := here.accesses
  split at done
  · exact ⟨c + 1, done⟩
  · exact ⟨c, by simpa using done⟩

end Run

/-- One of two sequences continues the other. -/
def Agree {α : Type} (a b : List α) : Prop := a <+: b ∨ b <+: a

instance {α : Type} [DecidableEq α] (a b : List α) : Decidable (Agree a b) := by
  unfold Agree; infer_instance

theorem agree_of_prefixes {α : Type} {f : Nat → List α} (grows : ∀ c c', c ≤ c' → f c <+: f c')
    (c c' : Nat) : Agree (f c) (f c') :=
  (Nat.le_total c c').imp (grows c c') (grows c' c)

/-- **Transparency of turbo beats and of all timing.** -/
theorem turbo_transparent {σ : Type} {m : Machine σ} {memory : Memory} (deaf : m.Deaf)
    {i j : Nat → CoreInputs} {w v : World} {first first' : Bool} {state state' : Nat → σ}
    {n n' : Nat} (run : TimedRun m memory i w first state n)
    (run' : TimedRun m memory j v first' state' n') (t t' : Nat) (h : t < n) (h' : t' < n') :
    Agree (beats i t) (beats j t') ∧ Agree (accesses i t) (accesses j t') := by
  obtain ⟨c, here⟩ := run.in_step deaf t h
  obtain ⟨c', there⟩ := run'.in_step deaf t' h'
  constructor
  · rw [here.beats, there.beats]
    exact agree_of_prefixes (fun _ _ later => (Machine.untimed_prefix later).1) c c'
  · obtain ⟨d, done⟩ := accesses_ahead here
    obtain ⟨d', done'⟩ := accesses_ahead there
    rw [done, done']
    exact agree_of_prefixes (fun _ _ later => (Machine.untimed_prefix later).2) d d'

/-! ### Two runs on fixed inputs -/

/-- The registers of a small kernel; the word on the data input of the last beat stays in one
of them, whatever it was. -/
structure ScriptKernel where
  count : Nat
  opcode : Word
  lastDataIn : Word
  deriving DecidableEq

/-- Two fetches from one line, a read at an address that the second word gives, and a write of
what it has read. -/
def scriptAccess (k : ScriptKernel) : Access :=
  match k.count with
  | 1 => ⟨.fetch, 0x5000, true, false, false, 0, 6⟩
  | 4 => ⟨.fetch, 0x5002, true, false, false, 0, 6⟩
  | 6 => ⟨.read, 0x7000 + (k.opcode &&& 0xE).setWidth 32, true, false, false, 0, 5⟩
  | 7 => ⟨.write, 0x7000, false, false, false, k.lastDataIn, 5⟩
  | _ => ⟨.none, 0, true, true, true, 0, 6⟩

def script : Machine ScriptKernel where
  init := ⟨0, 0, 0⟩
  access := scriptAccess
  faults := fun _ => false
  next := fun k d _ =>
    { count := k.count + 1
      opcode := if (scriptAccess k).busstate = .fetch then d else k.opcode
      lastDataIn := d }

def scriptMemory : Memory := fun _ a => if a.addr = 0x5000 then 0x4E71 else 0x4E75

/-- The register of the data input shows only in the write. -/
theorem script_alike {k k' : ScriptKernel} (count : k.count = k'.count)
    (opcode : k.opcode = k'.opcode) (last : k.count = 7 → k.lastDataIn = k'.lastDataIn) :
    script.Alike k k' := by
  have same {k k' : ScriptKernel} (count : k.count = k'.count) (opcode : k.opcode = k'.opcode)
      (last : k.count = 7 → k.lastDataIn = k'.lastDataIn) : scriptAccess k = scriptAccess k' := by
    unfold scriptAccess
    rw [← count, ← opcode]
    split
    case h_4 here => rw [last here]
    all_goals rfl
  intro l
  induction l generalizing k k' with
  | nil => exact ⟨same count opcode last, rfl⟩
  | cons d l ih =>
    refine ih (congrArg (· + 1) count) ?_ fun _ => rfl
    change (if (scriptAccess k).busstate = .fetch then d else k.opcode) =
      if (scriptAccess k').busstate = .fetch then d else k'.opcode
    rw [same count opcode last, opcode]

theorem script_deaf : script.Deaf := by
  intro k d d' none_
  have still : (scriptAccess k).busstate ≠ .fetch := by
    intro fetch
    simp [Machine.heeds, script, fetch, BusState.gives] at none_
  refine script_alike rfl ?_ fun writes => ?_
  · change (if _ then d else _) = if _ then d' else _
    rw [if_neg still, if_neg still]
  · -- the beat before the write is that of the read
    have read : k.count = 6 := Nat.succ.inj writes
    simp [Machine.heeds, script, scriptAccess, read, BusState.gives] at none_

/-- The clocks of a run's beats and the words on the data input at them, the strobes of its
fill, and the clock from which the bus shows `0x4E75`. -/
structure Timing where
  turbo : Bool
  beats : List Nat
  words : List Word
  strobes : Nat → Bool
  later : Nat

def Timing.state (x : Timing) (t : Nat) : ScriptKernel :=
  (x.words.take (x.beats.filter (· < t)).length).foldl (fun k d => script.next k d true) script.init

/-- The first run has no turbo, and its fill is served at once: the second fetch
hits. -/
def hitting : Timing where
  turbo := false
  beats := [0, 8, 10, 76, 78, 80, 88, 96]
  words := [0, 0x4E71, 0x4E71, 0x4E71, 0x4E75, 0x4E71, 0x4E75, 0x4E75]
  strobes := fun t => decide (10 < t ∧ t < 75 ∧ t % 8 = 1)
  later := 19

/-- In the second run no word of the first fill is served, the line is dropped
and the second fetch goes to the bus. -/
def missing : Timing where
  turbo := true
  beats := [0, 8, 10, 132, 204, 205, 214, 222, 223]
  words := [0, 0x4E71, 0x4E71, 0x4E71, 0x4E75, 0x4E75, 0x4E75, 0x4E75, 0x4E75]
  strobes := fun t => decide (132 < t ∧ t < 197 ∧ t % 8 = 3)
  later := 141

def Timing.world (x : Timing) : World where
  mem := fun _ address => if address = 0x5000 then 0x4E71 else 0x4E75
  page := fun _ _ _ => 0x500
  port := fun t =>
    if x.strobes t then
      { sdramRamReady := true, cpuBusControl := true, memoryLatch := true, selectRAM := true }
    else {}

def Timing.inputs (x : Timing) (t : Nat) : CoreInputs where
  pins :=
    { phi := if t % 2 = 0 then .phi1 else .phi2, turbo := x.turbo, dtackN := false
      din := if t < x.later then 0x4E71 else 0x4E75, fillDataValid := x.strobes t }
  kernel :=
    let a := scriptAccess (x.state t)
    { busstate := a.busstate, addr := a.addr, rw := a.rw, udsN := a.udsN, ldsN := a.ldsN
      dataWrite := a.dataWrite, fc := a.fc }
  control :=
    { ie := true, addrLog := if (x.state t).count = 4 then 0x1002 else 0x1000
      addrPhys := if (x.state t).count = 4 then 0x5002 else 0x5000, ramSizeBytes := 0x800000 }

/-- What has to be checked of a clock of such a run. -/
def Timing.Checked (x : Timing) (t : Nat) : Prop :=
  let r := (Core.after x.inputs t).regs
  let k := (x.inputs t).kernel
  (turn (Core.seen x.inputs) false t = decide (t % 2 = 1)) ∧
    (x.state (t + 1) =
      if r.clkena (Core.seen x.inputs t) then
        script.next (x.state t) (r.dataIn (Core.seen x.inputs t)) (r.beatValid (Core.seen x.inputs t))
      else x.state t) ∧
    ((Core.after x.inputs (t + 1)).regs.sState ≠ 0 → r.clkena (Core.seen x.inputs t) = false →
      SameAccess k (x.inputs (t + 1)).kernel) ∧
    r.walkCycle = false ∧
    (x.strobes t = true → r.asN = false ∧ (x.inputs t).pins.din = x.world.mem t r.addr) ∧
    (ServedAt x.inputs t → k.busstate.gives = true →
      r.tg68Din (Core.seen x.inputs t) = scriptMemory [] (accessOf k)) ∧
    (iReq k (x.inputs t).control = true →
      x.world.busWord t k.fc (x.inputs t).control.addrLog = scriptMemory [] (accessOf k) ∧
        (x.inputs t).control.addrPhys.extractLsb' 4 28 = 0x500 ∧ k.fc = 6)

instance (x : Timing) (t : Nat) : Decidable (x.Checked t) := by
  unfold Timing.Checked; infer_instance

theorem hitting_checked : ∀ t < 98, hitting.Checked t := by decide +kernel

theorem missing_checked : ∀ t < 224, missing.Checked t := by decide +kernel

theorem Timing.still (x : Timing) (t : Nat) (l : Line) : ¬ Stale x.inputs x.world t l := by
  rintro ⟨_, _, _, _, _, changed, _⟩
  rcases changed with moved | ⟨_, _, differs⟩
  · exact moved rfl
  · exact differs rfl

theorem Timing.environment (x : Timing) (n : Nat) (checked : ∀ t < n, x.Checked t) :
    Environment x.inputs x.world false n := by
  have live : ∀ t, (x.world.port t).fillDataValid = x.strobes t := by
    intro t
    cases strobe : x.strobes t <;> simp [Timing.world, strobe, Port.fillDataValid]
  have selected : ∀ t, (x.world.port t).selectRAM = true ∨ (x.world.port t).selectROM = true →
      x.strobes t = true := by
    intro t
    cases strobe : x.strobes t <;> simp [Timing.world, strobe]
  constructor
  case bus =>
    constructor
    case turns =>
      intro t h
      rw [(checked t h).1]
      by_cases odd : t % 2 = 0 <;> simp [OnTurn, Core.seen, Core.bus, Timing.inputs, odd]
      omega
    case holds =>
      intro t h
      rw [← Core.after_regs, ← Core.after_regs]
      exact (checked t (by omega)).2.2.1
    case fault =>
      intro t _ _ _ _ _
      rfl
    case walker =>
      intro t h
      rw [← Core.after_regs]
      simp [(checked t (by omega)).2.2.2.1]
  case freeze =>
    intro t _ _
    rfl
  case program =>
    intro t h fetch
    have kinds : ∀ k, (scriptAccess k).busstate = .fetch → (scriptAccess k).fc = 6 := by
      intro k
      unfold scriptAccess
      split <;> simp
    change (scriptAccess (x.state t)).fc.extractLsb' 0 2 = 2
    rw [kinds _ fetch]
    rfl
  case translated =>
    intro t h fetch
    exact ((checked t h).2.2.2.2.2.2 fetch).2.1
  case strobe =>
    intro t _
    exact (live t).symm
  case decoded =>
    intro t h valid
    exact ((checked t h).2.2.2.2.1 (selected t valid)).1
  case passed =>
    intro t h valid
    rw [live] at valid
    exact ((checked t h).2.2.2.2.1 valid).2

theorem Timing.timedRun (x : Timing) (n : Nat) (checked : ∀ t < n, x.Checked t)
    (starts : x.state 0 = script.init) :
    TimedRun script scriptMemory x.inputs x.world false x.state n := by
  constructor
  case environment => exact x.environment n checked
  case refreshes => exact fun t _ l _ => x.still t l
  case survivor => exact fun t _ _ _ _ _ => x.still t _
  case drives =>
    constructor
    case starts => exact starts
    case stalls =>
      intro t h idle
      rw [(checked t (by omega)).2.1, idle]
      rfl
    case advances =>
      intro t h beat
      rw [(checked t (by omega)).2.1, beat]
      rfl
    case presents => exact fun _ _ _ => rfl
    case faults => exact fun _ _ _ => rfl
    case busy =>
      intro t _ busy
      cases busy
    case walker =>
      intro t _ asks
      cases asks
    case reads =>
      intro t h
      exact (checked t h).2.2.2.2.2.1
    case fetched =>
      intro t h fetch
      exact ((checked t h).2.2.2.2.2.2 fetch).1

theorem turbo_transparent_script :
    Agree (beats hitting.inputs 97) (beats missing.inputs 223) ∧
      Agree (accesses hitting.inputs 97) (accesses missing.inputs 223) :=
  turbo_transparent script_deaf (hitting.timedRun 98 hitting_checked rfl)
    (missing.timedRun 224 missing_checked rfl) 97 223 (by decide) (by decide)

/-- Everything the kernel is shown at clock `t`. -/
def shownAt (i : Nat → CoreInputs) (t : Nat) : Option (Bool × Word) :=
  let r := (Core.after i t).regs
  let x := Core.seen i t
  if r.clkena x then some (r.beatValid x, r.dataIn x) else none

/-- The bus cycle of the kernel, a fetch or not, that is served at clock `t`. -/
def cycleAt (i : Nat → CoreInputs) (t : Nat) : Option Access :=
  if ServedAt i t then some (accessOf (i t).kernel) else none

/-- Taken literally, neither the data at each beat nor the reads on the bus are the
same: the first run serves the second fetch from the cache and the second run does
not, and the beat after it shows the data latch. -/
theorem fetches_not_transparent :
    TimedRun script scriptMemory hitting.inputs hitting.world false hitting.state 98 ∧
      TimedRun script scriptMemory missing.inputs missing.world false missing.state 224 ∧
      (∀ t, (hitting.inputs t).pins.turbo = false) ∧
      (∀ t, (missing.inputs t).pins.turbo = true) ∧
      ¬ Agree (Clocked.record (shownAt hitting.inputs) 0 97)
        (Clocked.record (shownAt missing.inputs) 0 223) ∧
      ¬ Agree (Clocked.record (cycleAt hitting.inputs) 0 97)
        (Clocked.record (cycleAt missing.inputs) 0 223) := by
  refine ⟨hitting.timedRun 98 hitting_checked rfl, missing.timedRun 224 missing_checked rfl,
    fun _ => rfl, fun _ => rfl, ?_, ?_⟩
  · decide +kernel
  · decide +kernel

end MacIIvi.Cpu
