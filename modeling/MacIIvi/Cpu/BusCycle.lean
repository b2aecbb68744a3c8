import MacIIvi.Cpu.Wrapper
import Mathlib.Tactic.IntervalCases

/-!
# Every run of the bus sequencer

The kernel is any machine that changes its access on a beat only and drives no
access while the PMMU translates or the walker asks for the bus. What the
sequencer then guarantees, for every timing of the pins, the cache and the
walker.
-/

namespace MacIIvi.Cpu

open Regs (after)

/-! ### Runs -/

/-- Which clock enable comes next after a clock: `true` for `phi2`. -/
def turnNext (turn : Bool) : Phi → Bool
  | .none => turn
  | .phi1 => true
  | .phi2 => false

/-- Which clock enable comes next at clock `t`. -/
def turn (i : Nat → Inputs) (first : Bool) : Nat → Bool
  | 0 => first
  | t + 1 => turnNext (turn i first t) (i t).pins.phi

/-- The enables alternate. -/
def OnTurn (turn : Bool) (phi : Phi) : Prop :=
  (phi = .phi1 → turn = false) ∧ (phi = .phi2 → turn = true)

/-- Two clocks with the same kernel access. -/
def SameAccess (k k' : Kernel) : Prop :=
  k'.busstate = k.busstate ∧ k'.addr = k.addr ∧ k'.rw = k.rw ∧ k'.udsN = k.udsN ∧ k'.ldsN = k.ldsN

instance (k k' : Kernel) : Decidable (SameAccess k k') := by
  unfold SameAccess; infer_instance

instance (turn : Bool) (phi : Phi) : Decidable (OnTurn turn phi) := by
  unfold OnTurn; infer_instance

/-- The first `n` clocks: the kernel changes its access on beats only, and it has
none while the PMMU is busy or the walker asks. -/
structure Lawful (i : Nat → Inputs) (first : Bool) (n : Nat) : Prop where
  turns : ∀ t < n, OnTurn (turn i first t) (i t).pins.phi
  holds : ∀ t, t + 1 < n → (after i t).clkena (i t) = false →
    SameAccess (i t).kernel (i (t + 1)).kernel
  parks : ∀ t < n, (i t).kernel.pmmuBusy = true ∨ (i t).kernel.walkerReq = true →
    (i t).kernel.busstate = .none

/-- The cycle on the bus is the kernel's own. -/
def Regs.kernelOwned (r : Regs) : Bool := !r.walkCycle && !r.fillActive

/-- What the kernel and its PMMU keep besides: no fault is raised at a `phi1` for
an access on the bus, the walker keeps its request while AS is low, and a bus
error seen at a beat is taken at once, unless that beat ends its hold. -/
structure Keeps (i : Nat → Inputs) (n : Nat) : Prop where
  fault : ∀ t < n, 1 ≤ (after i t).sState → (after i t).sState ≤ 6 →
    (after i t).kernelOwned = true → (i t).pins.phi = .phi1 → (i t).kernel.pmmuFault = false
  walker : ∀ t, t + 1 < n → (after i t).walkCycle = true → 2 ≤ (after i (t + 1)).sState →
    (after i (t + 1)).sState ≤ 6 →
      (i (t + 1)).kernel.walkerAddr = (i t).kernel.walkerAddr ∧
        (i (t + 1)).kernel.walkerWe = (i t).kernel.walkerWe
  taken : ∀ t, t + 1 < n → (after i t).clkena (i t) = true → (after i t).berrHeld (i t) = true →
    ¬ ((i t).pins.phi = .phi1 ∧ (after i t).sState = 0) →
      (i (t + 1)).kernel.makeBerr = true ∨ (i (t + 1)).kernel.trapBerr = true

/-- The part of all this that is about the bus: while a cycle is on it, the
kernel keeps its access until the beat, no fault cuts it short and the walker
keeps its request. Between two cycles the kernel is free, so that a translation
may hold its access back and release it. -/
structure Disciplined (i : Nat → Inputs) (first : Bool) (n : Nat) : Prop where
  turns : ∀ t < n, OnTurn (turn i first t) (i t).pins.phi
  holds : ∀ t, t + 1 < n → (after i (t + 1)).sState ≠ 0 → (after i t).clkena (i t) = false →
    SameAccess (i t).kernel (i (t + 1)).kernel
  fault : ∀ t < n, 1 ≤ (after i t).sState → (after i t).sState ≤ 6 →
    (after i t).kernelOwned = true → (i t).pins.phi = .phi1 → (i t).kernel.pmmuFault = false
  walker : ∀ t, t + 1 < n → (after i t).walkCycle = true → 2 ≤ (after i (t + 1)).sState →
    (after i (t + 1)).sState ≤ 6 →
      (i (t + 1)).kernel.walkerAddr = (i t).kernel.walkerAddr ∧
        (i (t + 1)).kernel.walkerWe = (i t).kernel.walkerWe

/-! ### What holds of a run -/

/-- AS is low exactly in bus states 2 to 6. -/
def AsFollowsState (i : Nat → Inputs) (n : Nat) : Prop :=
  ∀ t < n, (after i t).asN = false ↔ 2 ≤ (after i t).sState ∧ (after i t).sState ≤ 6

/-- Address, direction and owner are constant while AS is low. -/
def SteadyWhileLow (i : Nat → Inputs) (n : Nat) : Prop :=
  ∀ t, t + 1 < n → (after i t).asN = false → (after i (t + 1)).asN = false →
    (after i (t + 1)).addr = (after i t).addr ∧ (after i (t + 1)).rwN = (after i t).rwN ∧
      (after i (t + 1)).walkCycle = (after i t).walkCycle ∧
      (after i (t + 1)).fillActive = (after i t).fillActive

/-- A launched cycle runs to state 7, and the kernel launches none for a busy or
faulted translation. -/
def RunsToEnd (i : Nat → Inputs) (n : Nat) : Prop :=
  ∀ t, t + 1 < n →
    ((after i (t + 1)).sState = (after i t).sState ∨
      (after i (t + 1)).sState = ((after i t).sState + 1) % 8) ∧
    ((after i t).sState = 0 → (after i (t + 1)).sState = 1 → (after i t).kernelOwned = true →
      (i t).kernel.pmmuBusy = false ∧ (i t).kernel.pmmuFault = false)

/-- Clock `u` is the last one of state 6 of the kernel cycle that is in state 7
at clock `t`, and what was presented at `u` is the access the kernel has at `t`. -/
structure SampledAt (i : Nat → Inputs) (t u : Nat) : Prop where
  before : u < t
  state : (after i u).sState = 6
  phi : (i u).pins.phi = .phi2
  since : ∀ v, u < v → v ≤ t → (after i v).sState = 7
  mine : (after i u).kernelOwned = true
  addr : (after i u).addr = (i t).kernel.addr
  rwN : (after i u).rwN = (i t).kernel.rw

/-- A completed kernel cycle gives a valid beat with the word sampled in its
state 6. -/
def GivesOwnData (i : Nat → Inputs) (n : Nat) : Prop :=
  ∀ t < n, (after i t).kernelOwned = true → (after i t).sState = 7 → (i t).pins.phi = .phi1 →
    (after i t).clkena (i t) = true ∧ (after i t).beatValid (i t) = true ∧
      ∃ u, SampledAt i t u ∧ (after i t).dataIn (i t) = (after i u).tg68Din (i u)

/-- No other clock of a cycle gives a beat, and no clock of a borrowed cycle. -/
def NoOtherBeat (i : Nat → Inputs) (n : Nat) : Prop :=
  ∀ t < n, (after i t).clkena (i t) = true →
    (after i t).kernelOwned = true ∧
      ((after i t).sState = 0 ∨ (after i t).sState = 7 ∧ (i t).pins.phi = .phi1)

/-- BERR at clock `u` of a kernel cycle whose beat is at clock `t`. -/
def BerrInCycle (i : Nat → Inputs) (u t : Nat) : Prop :=
  u ≤ t ∧ (∀ v, u ≤ v → v ≤ t → (after i v).sState ≠ 0) ∧ (after i u).kernelOwned = true ∧
    (i u).pins.berr = true ∧ (after i t).sState = 7 ∧ (i t).pins.phi = .phi1

/-- The kernel is not taking a bus error from clock `u` to clock `t`. -/
def Receptive (i : Nat → Inputs) (u t : Nat) : Prop :=
  ∀ v, u ≤ v → v ≤ t → (i v).kernel.makeBerr = false ∧ (i v).kernel.trapBerr = false

/-- A bus error on a kernel cycle is seen at that cycle's beat. -/
def BerrSeen (i : Nat → Inputs) (n : Nat) : Prop :=
  ∀ u t, t < n → BerrInCycle i u t → Receptive i u t → (after i t).berrHeld (i t) = true

/-- Once seen, it is not seen again: what is seen later is a bus error that came
after the beat and is no older than the cycle it is seen in. -/
def BerrOnce (i : Nat → Inputs) (n : Nat) : Prop :=
  ∀ t t', t < t' → t' < n → (after i t).clkena (i t) = true → (after i t).berrHeld (i t) = true →
    (after i t').berrHeld (i t') = true →
      ∃ u, t < u ∧ u ≤ t' ∧ (after i u).berrKernelCycle (i u) = true ∧
        ∀ v, u ≤ v → v < t' → ¬ ((i v).pins.phi = .phi1 ∧ (after i v).sState = 0)

/-! ### One clock -/

namespace Regs

variable {turn : Bool} {i j : Inputs} {r : Regs}

/-- What is true of the registers at clock `t`, seen with that clock's inputs. -/
structure Ok (turn : Bool) (i : Inputs) (r : Regs) : Prop where
  bound : r.sState < 8
  odd : r.sState % 2 = 1 → turn = false
  even : r.sState = 2 ∨ r.sState = 6 → turn = true
  asN : r.asN = !(decide (2 ≤ r.sState) && decide (r.sState ≤ 6))
  live : r.sState ≠ 0 → r.effBusstate i ≠ .none
  addr : 2 ≤ r.sState → r.sState ≤ 6 → r.addr = r.effAddr i
  rwN : 2 ≤ r.sState → r.sState ≤ 6 → r.rwN = r.effRw i

/-- What a clock and the next one keep of the contract. -/
structure Clock (turn : Bool) (i j : Inputs) (r : Regs) : Prop where
  turns : OnTurn turn i.pins.phi
  holds : r.sStateNext i ≠ 0 → r.clkena i = false → SameAccess i.kernel j.kernel
  fault : 1 ≤ r.sState → r.sState ≤ 6 → r.kernelOwned = true → i.pins.phi = .phi1 →
    i.kernel.pmmuFault = false
  walker : r.walkCycle = true → 2 ≤ r.sStateNext i → r.sStateNext i ≤ 6 →
    j.kernel.walkerAddr = i.kernel.walkerAddr ∧ j.kernel.walkerWe = i.kernel.walkerWe

/-- The sequencer stays where it waits, or goes one state on at the enable whose
turn it is. -/
theorem advance (ok : r.Ok turn i) (turns : OnTurn turn i.pins.phi) :
    (i.pins.phi = .none ∧ r.sStateNext i = r.sState) ∨
    (i.pins.phi = .phi1 ∧ turn = false ∧ r.sState % 2 = 1 ∧
      r.sStateNext i = (r.sState + 1) % 8) ∨
    (i.pins.phi = .phi1 ∧ turn = false ∧ (r.sState = 0 ∨ r.sState = 4) ∧
      r.sStateNext i = r.sState) ∨
    (i.pins.phi = .phi2 ∧ turn = true ∧ (r.sState = 0 ∨ r.sState = 4) ∧
      r.sStateNext i = r.sState) ∨
    (i.pins.phi = .phi2 ∧ turn = true ∧ r.sState % 2 = 0 ∧ r.sStateNext i = r.sState + 1 ∧
      (r.sState = 0 → r.effBusstate i ≠ .none ∧ r.cacheHitBeat i = false ∧
        r.pmmuBusPark i = false)) := by
  have bound := ok.bound
  have hit : r.sState ≠ 0 → r.cacheHitBeat i = false := by
    intro busy
    simp [cacheHitBeat, busy]
  have park : r.sState ≠ 0 → r.pmmuBusPark i = false := by
    intro busy
    simp [pmmuBusPark, busy]
  cases phi : i.pins.phi with
  | none => simp [sStateNext, phi]
  | phi1 =>
    have mine := turns.1 phi
    have even := ok.even
    by_cases idle : r.sState = 0
    · simp [sStateNext, phi, idle, mine]
    · have busy := ok.live idle
      simp only [sStateNext, phi, busy, hit idle, mine] at even ⊢
      by_cases wait : r.sState = 4
      · simp [wait]
      · simp only [Bool.false_eq_true, imp_false] at even
        simp [wait, idle]
        omega
  | phi2 =>
    have mine := turns.2 phi
    have odd := ok.odd
    by_cases idle : r.sState = 0
    · simp only [sStateNext, phi, idle, mine]
      by_cases none : r.effBusstate i = .none
      · simp [none]
      · cases served : r.cacheHitBeat i <;> cases parked : r.pmmuBusPark i <;>
          simp [none]
    · have busy := ok.live idle
      simp only [mine, Bool.true_eq_false, imp_false] at odd
      simp only [sStateNext, phi, busy, hit idle, park idle, mine]
      by_cases wait : r.sState = 4
      · by_cases go : i.pins.dtackN = false ∨ r.xVma = true ∨ i.pins.berr = true
        · simp [wait, go]
        · simp [wait, go]
      · simp [wait, idle]
        omega

/-- A clock after which a cycle is on the bus: no cycle ends at it, and one that
starts is not parked. -/
theorem running (ok : r.Ok turn i) (turns : OnTurn turn i.pins.phi) (on : r.sStateNext i ≠ 0) :
    (i.pins.phi = .phi1 → r.sState ≠ 0 ∧ r.sState ≠ 7) ∧ r.effBusstate i ≠ .none ∧
      r.cacheHitBeat i = false := by
  have bound := ok.bound
  have live := ok.live
  have hit : r.sState ≠ 0 → r.cacheHitBeat i = false := by
    intro busy
    simp [cacheHitBeat, busy]
  rcases advance ok turns with ⟨phi, next⟩ | ⟨phi, _, odd, next⟩ | ⟨phi, _, wait, next⟩ |
    ⟨phi, _, wait, next⟩ | ⟨phi, _, even, next, start⟩
  · have busy : r.sState ≠ 0 := by rwa [next] at on
    exact ⟨by simp [phi], live busy, hit busy⟩
  · have busy : r.sState ≠ 0 := by omega
    exact ⟨fun _ => by omega, live busy, hit busy⟩
  · have busy : r.sState ≠ 0 := by rwa [next] at on
    exact ⟨fun _ => by omega, live busy, hit busy⟩
  · have busy : r.sState ≠ 0 := by rwa [next] at on
    exact ⟨by simp [phi], live busy, hit busy⟩
  · refine ⟨by simp [phi], ?_⟩
    by_cases idle : r.sState = 0
    · exact ⟨(start idle).1, (start idle).2.1⟩
    · exact ⟨live idle, hit idle⟩

/-- The owner of the bus and its place change between two cycles only. -/
theorem owner_next (mid : i.pins.phi = .phi1 → r.sState ≠ 0 ∧ r.sState ≠ 7) :
    (r.step i).walkCycle = r.walkCycle ∧ (r.step i).fillActive = r.fillActive ∧
      (r.step i).walkWord = r.walkWord ∧ (r.step i).fillWord = r.fillWord ∧
      (r.step i).fillBase = r.fillBase := by
  have walk : r.walkStarts i = false ∧ r.walkWordDone i = false := by
    by_cases phi : i.pins.phi = .phi1 <;> simp_all [walkStarts, walkWordDone]
  have fill : r.fillStarts i = false ∧ r.fillJudges i = false := by
    by_cases phi : i.pins.phi = .phi1 <;> simp_all [fillStarts, fillJudges]
  simp [step, walkCycleNext, fillActiveNext, walkWordNext, fillWordNext, fillBaseNext, walkEnds,
    fillEnds, fillAdvances, walk, fill]

/-- The kernel gets no beat at a clock after which its cycle is on the bus. -/
theorem no_beat (ok : r.Ok turn i) (clock : r.Clock turn i j) (mine : r.kernelOwned = true)
    (on : r.sStateNext i ≠ 0) : r.clkena i = false := by
  obtain ⟨mid, live, hit⟩ := running ok clock.turns on
  have owned : r.walkCycle = false ∧ r.fillActive = false := by
    simpa [kernelOwned] using mine
  have busy : i.kernel.busstate ≠ .none := by
    simpa [effBusstate, owned] using live
  cases phi : i.pins.phi with
  | none => simp [clkena, phi]
  | phi1 =>
    have bound := ok.bound
    have calm := clock.fault (by have := mid phi; omega) (by have := mid phi; omega) mine phi
    simp [clkena, phi, busy, hit, calm, mid phi]
  | phi2 => simp [clkena, phi, busy, hit]

/-- A kernel cycle that is launched is not one of a busy or faulted translation. -/
theorem launched_clear (ok : r.Ok turn i) (turns : OnTurn turn i.pins.phi)
    (mine : r.kernelOwned = true) (idle : r.sState = 0) (on : r.sStateNext i ≠ 0) :
    i.kernel.pmmuBusy = false ∧ i.kernel.pmmuFault = false := by
  rcases advance ok turns with ⟨_, next⟩ | ⟨_, _, odd, _⟩ | ⟨_, _, _, next⟩ | ⟨_, _, _, next⟩ |
    ⟨_, _, _, _, start⟩
  · omega
  · omega
  · omega
  · omega
  · have park := (start idle).2.2
    simp only [kernelOwned, Bool.and_eq_true, Bool.not_eq_true'] at mine
    simpa [pmmuBusPark, mine, idle] using park

/-- A cycle on the bus stays one. -/
theorem live_next (ok : r.Ok turn i) (clock : r.Clock turn i j) (on : r.sStateNext i ≠ 0) :
    (r.step i).effBusstate j ≠ .none := by
  obtain ⟨mid, live, _⟩ := running ok clock.turns on
  obtain ⟨walk, fill, _⟩ := owner_next mid
  by_cases walking : r.walkCycle = true
  · cases write : j.kernel.walkerWe <;> simp [effBusstate, walk, walking, write]
  · simp only [Bool.not_eq_true] at walking
    by_cases filling : r.fillActive = true
    · simp [effBusstate, walk, fill, walking, filling]
    · simp only [Bool.not_eq_true] at filling
      have mine : r.kernelOwned = true := by simp [kernelOwned, walking, filling]
      have same := (clock.holds on (no_beat ok clock mine on)).1
      simpa [effBusstate, walk, fill, walking, filling, same] using live

/-- What a cycle presents stays as it is while AS is low. -/
theorem presented_next (ok : r.Ok turn i) (clock : r.Clock turn i j)
    (low : 2 ≤ r.sStateNext i ∧ r.sStateNext i ≤ 6) :
    (r.step i).effAddr j = r.effAddr i ∧ (r.step i).effRw j = r.effRw i := by
  have on : r.sStateNext i ≠ 0 := by omega
  have mid := (running ok clock.turns on).1
  obtain ⟨walk, fill, word, place, base⟩ := owner_next mid
  by_cases walking : r.walkCycle = true
  · obtain ⟨address, write⟩ := clock.walker walking low.1 low.2
    simp [effAddr, effRw, walkWordAddr, walk, word, walking, address, write]
  · simp only [Bool.not_eq_true] at walking
    by_cases filling : r.fillActive = true
    · simp [effAddr, effRw, fillBusAddr, walk, fill, place, base, walking, filling]
    · simp only [Bool.not_eq_true] at filling
      have mine : r.kernelOwned = true := by simp [kernelOwned, walking, filling]
      obtain ⟨_, address, direction, _⟩ := clock.holds on (no_beat ok clock mine on)
      simp [effAddr, effRw, walk, fill, walking, filling, address, direction]

/-- AS after a clock. -/
theorem asN_next (ok : r.Ok turn i) (turns : OnTurn turn i.pins.phi) :
    r.asNNext i = !(decide (2 ≤ r.sStateNext i) && decide (r.sStateNext i ≤ 6)) := by
  have bound := ok.bound
  have here := ok.asN
  rcases advance ok turns with ⟨phi, next⟩ | ⟨phi, _, odd, next⟩ | ⟨phi, _, wait, next⟩ |
    ⟨phi, _, wait, next⟩ | ⟨phi, _, even, next, start⟩
  · simp [asNNext, launches, releases, phi, next, here]
  · have live := ok.live (by omega)
    rw [next]
    by_cases first : r.sState = 1
    · simp [asNNext, launches, phi, first, live]
    · simp only [asNNext, launches, releases, phi, here]
      have : r.sState = 3 ∨ r.sState = 5 ∨ r.sState = 7 := by omega
      rcases this with at_ | at_ | at_ <;> simp [at_]
  · rw [next]
    rcases wait with wait | wait <;> simp [asNNext, launches, releases, phi, here, wait]
  · rw [next]
    rcases wait with wait | wait <;> simp [asNNext, launches, releases, phi, here, wait]
  · rw [next]
    have : r.sState = 0 ∨ r.sState = 2 ∨ r.sState = 4 ∨ r.sState = 6 := by omega
    rcases this with at_ | at_ | at_ | at_ <;>
      simp [asNNext, launches, releases, phi, here, at_]

/-- The direction that AS goes low with stays. -/
theorem rwN_next (ok : r.Ok turn i) (turns : OnTurn turn i.pins.phi)
    (low : 2 ≤ r.sStateNext i ∧ r.sStateNext i ≤ 6) : r.rwNNext i = r.effRw i := by
  have bound := ok.bound
  have here := ok.rwN
  rcases advance ok turns with ⟨phi, next⟩ | ⟨phi, _, odd, next⟩ | ⟨phi, _, wait, next⟩ |
    ⟨phi, _, wait, next⟩ | ⟨phi, _, even, next, start⟩
  · simp [rwNNext, launches, phi, here (by omega) (by omega)]
  · have live := ok.live (by omega)
    by_cases first : r.sState = 1
    · simp [rwNNext, launches, phi, first, live]
    · have last : r.sState ≠ 7 := by
        intro seven
        simp [seven, next] at low
      simp [rwNNext, launches, phi, first, last, here (by omega) (by omega)]
  · have four : r.sState = 4 := by omega
    simp [rwNNext, launches, phi, four, here (by omega) (by omega)]
  · simp [rwNNext, launches, phi, here (by omega) (by omega)]
  · simp [rwNNext, launches, phi, here (by omega) (by omega)]

/-- The invariant is kept by every clock. -/
theorem Ok.step (ok : r.Ok turn i) (clock : r.Clock turn i j) :
    (r.step i).Ok (turnNext turn i.pins.phi) j := by
  have bound := ok.bound
  have moved := advance ok clock.turns
  constructor
  case bound =>
    change r.sStateNext i < 8
    omega
  case odd =>
    intro odd
    change r.sStateNext i % 2 = 1 at odd
    rcases moved with ⟨phi, next⟩ | ⟨phi, _, at_, next⟩ | ⟨phi, _, wait, next⟩ |
      ⟨phi, _, wait, next⟩ | ⟨phi, _, even, next, _⟩
    · rw [phi]
      exact ok.odd (by omega)
    all_goals first | omega | simp [phi, turnNext]
  case even =>
    intro even
    change r.sStateNext i = 2 ∨ r.sStateNext i = 6 at even
    rcases moved with ⟨phi, next⟩ | ⟨phi, _, at_, next⟩ | ⟨phi, _, wait, next⟩ |
      ⟨phi, _, wait, next⟩ | ⟨phi, _, at_, next, _⟩
    · rw [phi]
      exact ok.even (by omega)
    all_goals first | omega | simp [phi, turnNext]
  case asN => exact asN_next ok clock.turns
  case live =>
    intro on
    exact live_next ok clock on
  case addr =>
    intro low high
    rw [(presented_next ok clock ⟨low, high⟩).1]
    rfl
  case rwN =>
    intro low high
    rw [(presented_next ok clock ⟨low, high⟩).2]
    exact rwN_next ok clock.turns ⟨low, high⟩

end Regs

/-! ### Runs that keep the contract -/

section Run

variable {i : Nat → Inputs} {first : Bool} {n : Nat}

theorem Lawful.disciplined (lawful : Lawful i first n) (keeps : Keeps i n) :
    Disciplined i first n where
  turns := lawful.turns
  holds := fun t h _ => lawful.holds t h
  fault := keeps.fault
  walker := keeps.walker

theorem Disciplined.clock (bus : Disciplined i first n) {t : Nat} (h : t + 1 < n) :
    (after i t).Clock (turn i first t) (i t) (i (t + 1)) where
  turns := bus.turns t (by omega)
  holds := bus.holds t h
  fault := bus.fault t (by omega)
  walker := bus.walker t h

/-- The invariant holds at every clock. -/
theorem after_ok (bus : Disciplined i first n) (t : Nat) (h : t < n) :
    (after i t).Ok (turn i first t) (i t) := by
  induction t with
  | zero => constructor <;> simp [after]
  | succ t ih => exact (ih (by omega)).step (bus.clock h)

theorem as_follows_state (bus : Disciplined i first n) : AsFollowsState i n := by
  intro t h
  rw [(after_ok bus t h).asN]
  simp

theorem steady_while_low (bus : Disciplined i first n) : SteadyWhileLow i n := by
  intro t h low still
  have ok := after_ok bus t (by omega)
  have clock := bus.clock h
  obtain ⟨from2, to6⟩ := (as_follows_state bus t (by omega)).1 low
  obtain ⟨next2, next6⟩ := (as_follows_state bus (t + 1) h).1 still
  change 2 ≤ (after i t).sStateNext (i t) at next2
  change (after i t).sStateNext (i t) ≤ 6 at next6
  have mid := (Regs.running ok clock.turns (by omega)).1
  obtain ⟨walk, fill, _⟩ := Regs.owner_next mid
  refine ⟨(ok.addr from2 to6).symm, ?_, walk, fill⟩
  exact (Regs.rwN_next ok clock.turns ⟨next2, next6⟩).trans (ok.rwN from2 to6).symm

theorem runs_to_end (bus : Disciplined i first n) : RunsToEnd i n := by
  intro t h
  have ok := after_ok bus t (by omega)
  have bound := ok.bound
  have moved := Regs.advance ok (bus.turns t (by omega))
  refine ⟨?_, ?_⟩
  · change (after i t).sStateNext (i t) = _ ∨ (after i t).sStateNext (i t) = _
    omega
  · intro idle on mine
    change (after i t).sStateNext (i t) = 1 at on
    exact Regs.launched_clear ok (bus.turns t (by omega)) mine idle (by omega)

/-- The clock a kernel cycle in state 7 was sampled at. -/
theorem sampled (bus : Disciplined i first n) (t : Nat) (h : t < n)
    (mine : (after i t).kernelOwned = true) (last : (after i t).sState = 7) :
    ∃ u, SampledAt i t u ∧ (after i t).dinR = (after i u).tg68Din (i u) := by
  induction t with
  | zero => cases last
  | succ t ih =>
    have ok := after_ok bus t (by omega)
    have clock := bus.clock h
    have bound := ok.bound
    change (after i t).sStateNext (i t) = 7 at last
    have on : (after i t).sStateNext (i t) ≠ 0 := by omega
    obtain ⟨mid, live, _⟩ := Regs.running ok clock.turns on
    obtain ⟨walk, fill, _⟩ := Regs.owner_next mid
    have owned : (after i t).kernelOwned = true := by
      change ((after i t).step (i t)).kernelOwned = true at mine
      simpa [Regs.kernelOwned, walk, fill] using mine
    have same := clock.holds on (Regs.no_beat ok clock owned on)
    have still : (after i (t + 1)).sState = 7 := last
    rcases Regs.advance ok clock.turns with ⟨phi, next⟩ | ⟨_, _, odd, next⟩ |
      ⟨_, _, wait, next⟩ | ⟨_, _, wait, next⟩ | ⟨phi, _, even, next, _⟩
    · -- state 7 is held: the same sample
      obtain ⟨u, at_, data⟩ := ih (by omega) owned (by omega)
      refine ⟨u, ⟨by have := at_.before; omega, at_.state, at_.phi, ?_, at_.mine, ?_, ?_⟩, ?_⟩
      · intro v after_ upto
        rcases Nat.lt_or_eq_of_le upto with earlier | rfl
        · exact at_.since v after_ (by omega)
        · exact still
      · rw [at_.addr, same.2.1]
      · rw [at_.rwN, same.2.2.1]
      · rw [← data]
        simp [after, Regs.step, Regs.dinRNext, Regs.releases, phi]
    · omega
    · omega
    · omega
    · -- state 6 is left: this clock samples
      have six : (after i t).sState = 6 := by omega
      have kernel : (after i t).walkCycle = false ∧ (after i t).fillActive = false := by
        simpa [Regs.kernelOwned] using owned
      refine ⟨t, ⟨by omega, six, phi, ?_, owned, ?_, ?_⟩, ?_⟩
      · intro v after_ upto
        have : v = t + 1 := by omega
        rw [this]
        exact still
      · rw [ok.addr (by omega) (by omega), same.2.1]
        simp [Regs.effAddr, kernel]
      · rw [ok.rwN (by omega) (by omega), same.2.2.1]
        simp [Regs.effRw, kernel]
      · simp [after, Regs.step, Regs.dinRNext, Regs.releases, phi, six, kernel]

theorem gives_own_data (lawful : Lawful i first n) (keeps : Keeps i n) : GivesOwnData i n := by
  have bus := lawful.disciplined keeps
  intro t h mine last phi
  have ok := after_ok bus t h
  have kernel : (after i t).walkCycle = false ∧ (after i t).fillActive = false := by
    simpa [Regs.kernelOwned] using mine
  have live : (i t).kernel.busstate ≠ .none := by
    simpa [Regs.effBusstate, kernel] using ok.live (by omega)
  have calm : (i t).kernel.pmmuBusy = false ∧ (i t).kernel.walkerReq = false := by
    have parks := lawful.parks t h
    cases busy : (i t).kernel.pmmuBusy <;> cases asks : (i t).kernel.walkerReq <;> simp_all
  obtain ⟨u, at_, data⟩ := sampled bus t h mine last
  refine ⟨?_, ?_, u, at_, ?_⟩
  · simp [Regs.clkena, phi, last, kernel, calm]
  · simp [Regs.beatValid, last]
  · simpa [Regs.dataIn, Regs.cacheHitBeat, last] using data

theorem no_other_beat (bus : Disciplined i first n) : NoOtherBeat i n := by
  intro t h beat
  have ok := after_ok bus t h
  have bound := ok.bound
  have mine : (after i t).kernelOwned = true := by
    simp only [Regs.clkena, Bool.and_eq_true, Bool.not_eq_true'] at beat
    simp [Regs.kernelOwned, beat]
  have kernel : (after i t).walkCycle = false ∧ (after i t).fillActive = false := by
    simpa [Regs.kernelOwned] using mine
  refine ⟨mine, ?_⟩
  by_cases idle : (after i t).sState = 0
  · exact .inl idle
  · have live : (i t).kernel.busstate ≠ .none := by
      simpa [Regs.effBusstate, kernel] using ok.live idle
    have hit : (after i t).cacheHitBeat (i t) = false := by
      simp [Regs.cacheHitBeat, idle]
    by_cases last : (after i t).sState = 7
    · right
      cases phi : (i t).pins.phi <;> simp_all [Regs.clkena]
    · -- a cycle on the bus: only a fault could give a beat
      have phi : (i t).pins.phi = .phi1 := by
        cases phi : (i t).pins.phi <;> simp_all [Regs.clkena]
      have calm := bus.fault t h (by omega) (by omega) mine phi
      simp [Regs.clkena, idle, live, hit, calm, last] at beat

/-- A bus error is held until the cycle's beat. -/
theorem berr_held (t u : Nat) (upto : u ≤ t)
    (busy : ∀ v, u ≤ v → v ≤ t → (after i v).sState ≠ 0) (free : Receptive i u t)
    (error : (after i u).berrKernelCycle (i u) = true) : (after i t).berrHeld (i t) = true := by
  have hold : ∀ v, u < v → v ≤ t → (after i v).berrHold = true := by
    intro v after_
    induction v, after_ using Nat.le_induction with
    | base =>
      intro upto
      have idle := busy u (Nat.le_refl _) (by omega)
      obtain ⟨make, trap⟩ := free u (Nat.le_refl _) (by omega)
      simp [after, Regs.step, Regs.berrHoldNext, make, trap, idle, error]
    | succ v after_ ih =>
      intro upto
      have idle := busy v (by omega) (by omega)
      obtain ⟨make, trap⟩ := free v (by omega) (by omega)
      simp [after, Regs.step, Regs.berrHoldNext, make, trap, idle, ih (by omega)]
  obtain ⟨make, trap⟩ := free t upto (Nat.le_refl _)
  rcases Nat.lt_or_eq_of_le upto with earlier | rfl
  · simp [Regs.berrHeld, hold t earlier (Nat.le_refl _), make, trap]
  · simp [Regs.berrHeld, error, make, trap]

theorem berr_seen : BerrSeen i n := by
  rintro u t _ ⟨upto, busy, mine, berr, _, _⟩ free
  refine berr_held t u upto busy free ?_
  simpa [Regs.berrKernelCycle, Regs.kernelOwned, berr] using mine

/-- A held bus error has come since the start of its cycle, and since the last
clock at which none was held. -/
theorem berr_from (t t' : Nat) (later : t < t') (clean : (after i (t + 1)).berrHold = false)
    (held : (after i t').berrHold = true) :
    ∃ u, t < u ∧ u < t' ∧ (after i u).berrKernelCycle (i u) = true ∧
      ∀ v, u ≤ v → v < t' → ¬ ((i v).pins.phi = .phi1 ∧ (after i v).sState = 0) := by
  induction t', later using Nat.le_induction with
  | base => simp [clean] at held
  | succ t' later ih =>
    have quiet : ¬ ((i t').pins.phi = .phi1 ∧ (after i t').sState = 0) := by
      rintro ⟨phi, idle⟩
      simp [after, Regs.step, Regs.berrHoldNext, phi, idle] at held
    by_cases now : (after i t').berrKernelCycle (i t') = true
    · refine ⟨t', later, by omega, now, ?_⟩
      intro v from_ upto
      have : v = t' := by omega
      rwa [this]
    · have before : (after i t').berrHold = true := by
        simp only [Bool.not_eq_true] at now
        simp [after, Regs.step, Regs.berrHoldNext, now] at held
        exact held.2
      obtain ⟨u, after_, upto, error, since⟩ := ih before
      refine ⟨u, after_, by omega, error, ?_⟩
      intro v from_ until_
      rcases Nat.lt_or_eq_of_le (Nat.lt_succ_iff.mp until_) with earlier | rfl
      · exact since v from_ earlier
      · exact quiet

theorem berr_once (keeps : Keeps i n) : BerrOnce i n := by
  intro t t' later h beat seen again
  have parts : ((after i t').berrKernelCycle (i t') = true ∨ (after i t').berrHold = true) ∧
      (i t').kernel.makeBerr = false ∧ (i t').kernel.trapBerr = false := by
    simpa [Regs.berrHeld] using again
  obtain ⟨fresh | held, make, trap⟩ := parts
  · exact ⟨t', later, Nat.le_refl _, fresh, by omega⟩
  by_cases ends : (i t).pins.phi = .phi1 ∧ (after i t).sState = 0
  · have clean : (after i (t + 1)).berrHold = false := by
      simp [after, Regs.step, Regs.berrHoldNext, ends]
    obtain ⟨u, after_, upto, error, since⟩ := berr_from t t' later clean held
    exact ⟨u, after_, by omega, error, since⟩
  · have taken := keeps.taken t (by omega) beat seen ends
    have : t' ≠ t + 1 := by
      rintro rfl
      simp [make, trap] at taken
    have clean : (after i (t + 2)).berrHold = false := by
      rcases taken with taken | taken <;> simp [after, Regs.step, Regs.berrHoldNext, taken]
    obtain ⟨u, after_, upto, error, since⟩ := berr_from (t + 1) t' (by omega) clean held
    exact ⟨u, by omega, by omega, error, since⟩

/-- **Integrity of the bus sequencer.** -/
theorem bus_integrity (lawful : Lawful i first n) (keeps : Keeps i n) :
    AsFollowsState i n ∧ SteadyWhileLow i n ∧ RunsToEnd i n ∧ GivesOwnData i n ∧
      NoOtherBeat i n ∧ BerrSeen i n ∧ BerrOnce i n := by
  have bus := lawful.disciplined keeps
  exact ⟨as_follows_state bus, steady_while_low bus, runs_to_end bus, gives_own_data lawful keeps,
    no_other_beat bus, berr_seen, berr_once keeps⟩

end Run

/-! ### Runs on fixed inputs -/

/-- The enables alternate, every bus cycle is acknowledged at once, and the
kernel and the bus error are given clock by clock. -/
def acknowledged (kernel : Nat → Kernel) (berr : Nat → Bool) (t : Nat) : Inputs where
  pins :=
    { phi := if t % 2 = 0 then .phi1 else .phi2, dtackN := false, din := 0x4E71, berr := berr t }
  kernel := kernel t
  cache := {}

def reading : Kernel := { busstate := .read, addr := 0x1000, udsN := false, ldsN := false }

/-- One read that ends in a bus error, which the kernel takes. -/
def readRun : Nat → Inputs :=
  acknowledged (fun t => if 1 ≤ t ∧ t ≤ 8 then reading else { makeBerr := t == 9 }) (· == 5)

theorem lawful_of_clocks {i : Nat → Inputs} {n : Nat} (first : Bool)
    (turns : ∀ t < n + 1, OnTurn (turn i first t) (i t).pins.phi)
    (holds : ∀ t < n, (after i t).clkena (i t) = false →
      SameAccess (i t).kernel (i (t + 1)).kernel)
    (parks : ∀ t < n + 1, (i t).kernel.pmmuBusy = true ∨ (i t).kernel.walkerReq = true →
      (i t).kernel.busstate = .none) : Lawful i first (n + 1) :=
  ⟨turns, fun t h => holds t (by omega), parks⟩

set_option maxRecDepth 20000 in
theorem bus_integrity_readRun :
    AsFollowsState readRun 12 ∧ SteadyWhileLow readRun 12 ∧ RunsToEnd readRun 12 ∧
      GivesOwnData readRun 12 ∧ NoOtherBeat readRun 12 ∧ BerrSeen readRun 12 ∧
      BerrOnce readRun 12 := by
  have walker : ∀ t < 11, (after readRun t).walkCycle = false := by decide
  have taken : ∀ t < 11, (after readRun t).clkena (readRun t) = true →
      (after readRun t).berrHeld (readRun t) = true →
      (readRun (t + 1)).kernel.makeBerr = true ∨ (readRun (t + 1)).kernel.trapBerr = true := by
    decide
  exact bus_integrity (lawful_of_clocks false (by decide) (by decide) (by decide))
    ⟨by decide, fun t h walk => by simp [walker t (by omega)] at walk,
      fun t h beat seen _ => taken t (by omega) beat seen⟩

/-- The PMMU faults an access that is on the bus. -/
def faultedRun : Nat → Inputs :=
  acknowledged (fun t => if 1 ≤ t ∧ t ≤ 4 then { reading with pmmuFault := t == 4 } else {})
    fun _ => false

/-- The walker moves its address during its cycle. -/
def wanderingRun : Nat → Inputs :=
  acknowledged (fun t => { walkerReq := true, walkerAddr := if t < 5 then 0x2000 else 0x3000 })
    fun _ => false

/-- A bus error comes while the kernel still takes an earlier one. -/
def maskedRun : Nat → Inputs :=
  acknowledged (fun t => if 1 ≤ t ∧ t ≤ 8 then { reading with trapBerr := true } else {}) (· == 5)

/-- The kernel does not take the bus error it is shown. -/
def ignoredRun : Nat → Inputs :=
  acknowledged (fun t => if 1 ≤ t then reading else {}) (· == 5)

set_option maxRecDepth 20000 in
/-- What the kernel promises about its access alone is not enough: AS is left low
when an access on the bus is faulted, the address moves with the walker's, a bus
error that comes while another is taken is masked, and one that is not taken is
seen again. -/
theorem access_contract_not_enough :
    (Lawful faultedRun false 8 ∧ ¬ AsFollowsState faultedRun 8) ∧
      (Lawful wanderingRun false 8 ∧ ¬ SteadyWhileLow wanderingRun 8) ∧
      (Lawful maskedRun false 10 ∧ BerrInCycle maskedRun 5 8 ∧
        (after maskedRun 8).berrHeld (maskedRun 8) = false) ∧
      (Lawful ignoredRun false 18 ∧ ¬ BerrOnce ignoredRun 18) := by
  refine ⟨⟨?_, ?_⟩, ⟨?_, ?_⟩, ⟨?_, ?_, by decide⟩, ⟨?_, ?_⟩⟩
  · exact lawful_of_clocks false (by decide) (by decide) (by decide)
  · intro follows
    exact absurd (follows 6 (by decide)) (by decide)
  · exact lawful_of_clocks false (by decide) (by decide) (by decide)
  · intro steady
    exact absurd (steady 5 (by decide) (by decide) (by decide)).1 (by decide)
  · exact lawful_of_clocks false (by decide) (by decide) (by decide)
  · have busy : ∀ v < 9, 5 ≤ v → (after maskedRun v).sState ≠ 0 := by decide
    exact ⟨by decide, fun v from_ upto => busy v (by omega) from_, by decide, by decide,
      by decide, by decide⟩
  · exact lawful_of_clocks false (by decide) (by decide) (by decide)
  · intro once
    obtain ⟨u, after_, upto, error, _⟩ :=
      once 8 16 (by decide) (by decide) (by decide) (by decide) (by decide)
    have clean : ∀ u < 17, 8 < u → (after ignoredRun u).berrKernelCycle (ignoredRun u) = false := by
      decide
    simp [clean u (by omega) after_] at error

end MacIIvi.Cpu
