import MacIIvi.Cpu.InstructionCache

/-!
# Line fills and what a cache hit serves

A miss is latched with its physical address, filled later from the bus and
installed under its logical tag. Memory and mapping change in the meantime as
they like. The software's part is to invalidate the cache before it fetches a
line that changed; what the cache then serves is compared with the bus.
-/

namespace MacIIvi.Cpu

/-! ### Memory and mapping -/

/-- A line of program space: the supervisor bit of its function code and its
logical address. -/
structure Line where
  fc2 : BitVec 1
  address : BitVec 28
  deriving DecidableEq

def lineOf (fc : BitVec 3) (address : Addr) : Line where
  fc2 := fc.extractLsb' 2 1
  address := address.extractLsb' 4 28

/-- The address of word `k` of a line of physical memory. -/
def wordAddr (frame : BitVec 28) (k : Nat) : Addr := frame ++ BitVec.ofNat 3 k ++ 0#1

/-- The signals of the top level that qualify a word for the fill engine. -/
structure Port where
  sdramRamReady : Bool := false
  cpuBusControl : Bool := false
  memoryLatch : Bool := false
  downloadCycle : Bool := false
  cardExtSlot : Bool := false
  selectRAM : Bool := false
  selectROM : Bool := false

/-- `fill_data_valid` -/
def Port.fillDataValid (p : Port) : Bool :=
  p.sdramRamReady && p.cpuBusControl && p.memoryLatch && !p.downloadCycle && !p.cardExtSlot &&
    (p.selectRAM || p.selectROM)

/-- What is outside the CPU, clock by clock: the contents of physical memory, the
physical line that each logical line is mapped to, and the read port. -/
structure World where
  mem : Nat → Addr → Word
  page : Nat → BitVec 3 → BitVec 28 → BitVec 28
  port : Nat → Port

/-- What a bus read of a logical address returns. -/
def World.busWord (w : World) (t : Nat) (fc : BitVec 3) (address : Addr) : Word :=
  w.mem t (w.page t fc (address.extractLsb' 4 28) ++ address.extractLsb' 1 3 ++ 0#1)

/-- The physical line of a line. -/
def World.frame (w : World) (t : Nat) (l : Line) : BitVec 28 := w.page t (l.fc2 ++ 2#2) l.address

/-- Word `k` of a line. -/
def World.word (w : World) (t : Nat) (l : Line) (k : Nat) : Word :=
  w.mem t (wordAddr (w.frame t l) k)

/-- The mapping or the contents of a line change after clock `t`. -/
def World.Changes (w : World) (t : Nat) (l : Line) : Prop :=
  w.frame (t + 1) l ≠ w.frame t l ∨
    ∃ k < 8, w.mem (t + 1) (wordAddr (w.frame t l) k) ≠ w.mem t (wordAddr (w.frame t l) k)

theorem World.word_next {w : World} {t : Nat} {l : Line} (same : ¬ w.Changes t l) :
    w.frame (t + 1) l = w.frame t l ∧ ∀ k < 8, w.word (t + 1) l k = w.word t l k := by
  simp only [World.Changes, not_or, not_exists, not_and, not_not] at same
  refine ⟨same.1, ?_⟩
  intro k small
  rw [World.word, same.1]
  exact same.2 k small

/-! ### Runs -/

/-- The kernel fetches from a line. -/
def Fetches (i : Nat → CoreInputs) (t : Nat) (l : Line) : Prop :=
  iReq (i t).kernel (i t).control = true ∧ lineOf (i t).kernel.fc (i t).control.addrLog = l

/-- A line that was fetched has changed and the cache has not been invalidated
since. -/
def Stale (i : Nat → CoreInputs) (w : World) (t : Nat) (l : Line) : Prop :=
  ∃ t₀ t₁, t₀ ≤ t₁ ∧ t₁ < t ∧ Fetches i t₀ l ∧ w.Changes t₁ l ∧
    ∀ u, t₁ < u → u < t → (i u).control.invalidatesAll = false

/-- Software invalidates the cache before it fetches a line again that changed. -/
def Refreshes (i : Nat → CoreInputs) (w : World) (n : Nat) : Prop :=
  ∀ t < n, ∀ l, Fetches i t l → ¬ Stale i w t l

/-- What the kernel, the PMMU and the read port keep. -/
structure Environment (i : Nat → CoreInputs) (w : World) (first : Bool) (n : Nat) : Prop where
  bus : Disciplined (Core.seen i) first n
  freeze : ∀ t, t + 1 < n → (Core.after i t).regs.clkena (Core.seen i t) = false →
    (i (t + 1)).control.ifreeze = (i t).control.ifreeze
  program : ∀ t < n, (i t).kernel.busstate = .fetch → (i t).kernel.fc.extractLsb' 0 2 = 2
  translated : ∀ t < n, iReq (i t).kernel (i t).control = true →
    (i t).control.addrPhys.extractLsb' 4 28 =
      w.page t (i t).kernel.fc ((i t).control.addrLog.extractLsb' 4 28)
  strobe : ∀ t < n, (i t).pins.fillDataValid = (w.port t).fillDataValid
  decoded : ∀ t < n, (w.port t).selectRAM = true ∨ (w.port t).selectROM = true →
    (Core.after i t).regs.asN = false
  passed : ∀ t < n, (w.port t).fillDataValid = true →
    (i t).pins.din = w.mem t (Core.after i t).regs.addr

/-- The line of the latched miss. -/
def lineAt (tag : BitVec 25) (idx : Fin 16) : Line where
  fc2 := tag.extractLsb' 24 1
  address := tag.extractLsb' 0 24 ++ BitVec.ofNat 4 idx

def ICache.fillLine (s : ICache) : Line := lineAt s.fillTag s.fillLineIdx

/-- An invalidate-all leaves a latched miss in place only if the line of the miss
has not changed since it was fetched. -/
def NoStaleSurvivor (i : Nat → CoreInputs) (w : World) (n : Nat) : Prop :=
  ∀ t < n, (i t).control.invalidatesAll = true → (Core.after i t).cache.fillReq = true →
    (Core.after i t).regs.iFillValid = false → (i t).control.ifreeze = false →
      ¬ Stale i w t (Core.after i t).cache.fillLine

/-! ### What holds of a run -/

/-- A word served on a hit is the word a bus read returns. -/
def HitsTransparent (i : Nat → CoreInputs) (w : World) (n : Nat) : Prop :=
  ∀ t < n, (Core.after i t).regs.cacheHitBeat (Core.seen i t) = true →
    (Core.after i t).regs.dataIn (Core.seen i t) =
      w.busWord t (i t).kernel.fc (i t).control.addrLog

/-- The word in place `k` of the buffer was captured on a strobe while the bus
presented that word of the line being filled. -/
def Captured (i : Nat → CoreInputs) (t k : Nat) : Prop :=
  ∃ u < t, (Core.after i u).regs.fillActive = true ∧ (i u).pins.fillDataValid = true ∧
    (Core.after i u).regs.asN = false ∧
    (Core.after i u).regs.addr =
      wordAddr ((Core.after i t).regs.fillBase.extractLsb' 4 28) k ∧
    (Core.after i t).regs.fillBuf k = (i u).pins.din

/-- A line is installed only with all of its eight words captured, from the
address that was latched with the miss. -/
def InstallsWhole (i : Nat → CoreInputs) (n : Nat) : Prop :=
  ∀ t < n, (Core.after i t).cache.installs (i t).control (Core.after i t).regs.iFillValid = true →
    (Core.after i t).regs.fillBase = (Core.after i t).cache.fillAddr ∧ ∀ k < 8, Captured i t k

/-- A fill gives the kernel no beat, leaves the data latch alone, and returns the
bus in the state it was borrowed in. -/
def FillsInvisible (i : Nat → CoreInputs) (n : Nat) : Prop :=
  ∀ t, t + 1 < n →
    ((Core.after i t).regs.fillActive = true →
      (Core.after i t).regs.clkena (Core.seen i t) = false ∧
        (Core.after i (t + 1)).regs.dinR = (Core.after i t).regs.dinR) ∧
    ((Core.after i (t + 1)).regs.fillActive ≠ (Core.after i t).regs.fillActive →
      (Core.after i (t + 1)).regs.sState = 0)

/-! ### One clock of the fill engine -/

namespace Regs

variable {turn : Bool} {i j : Inputs} {r : Regs}

/-- What is true of the fill engine at every clock. -/
structure Filling (turn : Bool) (r : Regs) : Prop where
  alone : r.fillActive = true → r.walkCycle = false
  turned : r.fillActive = true → r.sState = 0 → turn = true
  bound : r.fillWord < 8
  pulse : r.iFillValid = true → r.fillActive = false ∧ turn = true

/-- A fill starts at a `phi1` of an idle bus. -/
theorem starts_spec (start : r.fillStarts i = true) :
    r.fillActive = false ∧ i.pins.phi = .phi1 ∧ r.sState = 0 ∧ r.walkCycle = false ∧
      r.walkStarts i = false ∧ i.cache.fillReq = true := by
  simp only [fillStarts, Bool.and_eq_true, Bool.not_eq_true', beq_iff_eq] at start
  simp [start, walkStarts]

/-- A fill ends at the `phi1` of a state 7. -/
theorem ends_spec (done : r.fillEnds i = true) :
    r.fillActive = true ∧ i.pins.phi = .phi1 ∧ r.sState = 7 ∧ r.fillWord = 7 := by
  simp only [fillEnds, fillAdvances, fillJudges, Bool.and_eq_true, beq_iff_eq] at done
  simp [done]

theorem active_next (on : (r.step i).fillActive = true) :
    r.fillStarts i = true ∨ r.fillActive = true ∧ r.fillEnds i = false := by
  simp only [step, fillActiveNext] at on
  cases start : r.fillStarts i <;> simp_all

theorem Filling.step (filling : r.Filling turn) (ok : r.Ok turn i)
    (turns : OnTurn turn i.pins.phi) : (r.step i).Filling (turnNext turn i.pins.phi) := by
  constructor
  case alone =>
    intro on
    rcases active_next on with start | ⟨active, _⟩
    · have facts := starts_spec start
      simp [Regs.step, walkCycleNext, facts]
    · have alone := filling.alone active
      have starts : r.walkStarts i = false := by
        by_contra starts
        simp only [walkStarts, Bool.not_eq_false, Bool.and_eq_true, beq_iff_eq] at starts
        have later := filling.turned active starts.1.2
        have now := turns.1 starts.1.1.1.1.2
        simp [later] at now
      simp [Regs.step, walkCycleNext, starts, alone]
  case turned =>
    intro on idle
    change r.sStateNext i = 0 at idle
    rcases active_next on with start | ⟨active, _⟩
    · rw [(starts_spec start).2.1]
      rfl
    · have alone := filling.alone active
      cases phi : i.pins.phi with
      | none => exact filling.turned active (by simpa [sStateNext, phi] using idle)
      | phi1 => rfl
      | phi2 =>
        -- the next word is launched at once
        have later := turns.2 phi
        have bound := ok.bound
        have even : r.sState % 2 = 0 := by
          by_contra odd
          have earlier := ok.odd (by omega)
          simp [later] at earlier
        simp only [sStateNext, phi, effBusstate, alone, active, cacheHitBeat, cacheReadHit,
          pmmuBusPark] at idle
        by_cases wait : r.sState = 4
        · simp [wait] at idle
          split at idle <;> omega
        · simp [wait] at idle
          omega
  case bound =>
    have bound := filling.bound
    change r.fillWordNext i < 8
    unfold fillWordNext
    split
    · omega
    · split
      · rename_i advances
        simp only [fillEnds, Bool.and_eq_true, Bool.not_eq_true', Bool.and_eq_false_iff,
          beq_eq_false_iff_ne] at advances
        rcases advances.2 with stays | last
        · simp [advances.1] at stays
        · omega
      · exact bound
  case pulse =>
    intro pulse
    simp only [Regs.step, iFillValidNext, Bool.and_eq_true] at pulse
    have done := ends_spec pulse.1.1
    have starts : r.fillStarts i = false := by simp [fillStarts, done.1]
    constructor
    · simp [Regs.step, fillActiveNext, starts, pulse.1.1]
    · rw [done.2.1]
      rfl

/-- What is known of the words of the line: of those judged so far, of the one on
the bus once it has been served, and of all eight when the line is handed over. -/
def Gathered (r : Regs) (known : Nat → Prop) : Prop :=
  (r.fillActive = true → (r.fillDirty = false → ∀ k < r.fillWord, known k) ∧
    (r.fillServed = true → known r.fillWord)) ∧
  (r.iFillValid = true → ∀ k < 8, known k)

/-- The rule for what is known: it is kept for the words that are not captured
and gained for the word that is. -/
theorem Gathered.step {known known' : Nat → Prop} (gathered : r.Gathered known)
    (filling : r.Filling turn)
    (keep : ∀ k < 8, r.fillActive = true →
      (r.fillCaptures i = true → k ≠ r.fillWord) → known k → known' k)
    (gain : r.fillCaptures i = true → known' r.fillWord) : (r.step i).Gathered known' := by
  have bound := filling.bound
  have here : r.fillActive = true → r.fillServed = true → known' r.fillWord := by
    intro active served
    by_cases captures : r.fillCaptures i = true
    · exact gain captures
    · exact keep _ bound active (by simp [captures]) ((gathered.1 active).2 served)
  have below : r.fillActive = true → r.fillDirty = false → ∀ k < r.fillWord, known' k := by
    intro active clean k small
    exact keep k (by omega) active (by omega) ((gathered.1 active).1 clean k small)
  constructor
  · intro on
    rcases active_next on with start | ⟨active, goes⟩
    · simp [Regs.step, fillWordNext, fillServedNext, start]
    · have start : r.fillStarts i = false := by simp [fillStarts, active]
      cases advances : r.fillAdvances i with
      | false =>
        constructor
        · intro clean k small
          simp only [Regs.step, fillDirtyNext, fillWordNext, start, advances] at clean small
          exact below active (by simpa using clean) k (by simpa using small)
        · intro served
          simp only [Regs.step, fillServedNext, fillWordNext, start, advances] at served ⊢
          rcases Bool.or_eq_true_iff.mp (by simpa using served) with served | captures
          · simpa using here active served
          · simpa using gain captures
      | true =>
        constructor
        · intro clean k small
          simp only [Regs.step, fillDirtyNext, fillWordNext, start, advances, goes] at clean small
          have parts : r.fillDirty = false ∧ r.fillServed = true := by simpa using clean
          have upto : k < r.fillWord + 1 := by simpa using small
          rcases Nat.lt_or_eq_of_le (Nat.lt_succ_iff.mp upto) with small | rfl
          · exact below active parts.1 k small
          · exact here active parts.2
        · intro served
          simp [Regs.step, fillServedNext, start, advances] at served
  · intro pulse k small
    simp only [Regs.step, iFillValidNext, Bool.and_eq_true, Bool.not_eq_true'] at pulse
    have done := ends_spec pulse.1.1
    rcases Nat.lt_or_eq_of_le (by omega : k ≤ r.fillWord) with less | rfl
    · exact below done.1 pulse.1.2 k less
    · exact here done.1 pulse.2

end Regs

/-! ### One clock of the latched miss -/

theorem busstate_of_iReq {k : Kernel} {c : Control} (fetch : iReq k c = true) :
    k.busstate = .fetch := by
  simp only [iReq, Bool.and_eq_true, beq_iff_eq] at fetch
  exact fetch.1.1.2

namespace ICache

variable {k : Kernel} {c : Control} {s : ICache} {fillValid : Bool} {d : Nat → Word}

theorem missLatched_spec (miss : s.missLatched k c = true) :
    iReq k c = true ∧ s.fillReq = false ∧ c.ifreeze = false ∧ s.present k c = false := by
  simp only [missLatched, Bool.and_eq_true, Bool.not_eq_true'] at miss
  simp [miss]

/-- A request was there before or is a miss of this clock. -/
theorem fillReq_cases (h : (s.step k c fillValid d).fillReq = true) :
    c.ifreeze = false ∧ (s.missLatched k c = true ∨ s.fillReq = true ∧ fillValid = false) := by
  simp only [step, fillReqNext] at h
  cases miss : s.missLatched k c with
  | true => exact ⟨(missLatched_spec miss).2.2.1, .inl rfl⟩
  | false =>
    cases req : s.fillReq <;> cases freeze : c.ifreeze <;> cases fillValid <;> simp_all

/-- A request stays until it is served or withdrawn. -/
theorem fillReq_next (req : s.fillReq = true) (unserved : fillValid = false) :
    (s.step k c fillValid d).fillReq = !c.ifreeze ∧
      (s.step k c fillValid d).fillAddr = s.fillAddr ∧
      (s.step k c fillValid d).fillLine = s.fillLine := by
  have miss : s.missLatched k c = false := by simp [missLatched, req]
  cases freeze : c.ifreeze <;> simp [step, fillReqNext, fillLine, miss, req, unserved, freeze]

end ICache

/-- The request that a fill runs for is still there, or was withdrawn for good. -/
structure Core.Requested (turn : Bool) (ifreeze : Bool) (s : Core) : Prop where
  quiet : s.cache.fillReq = true → turn = false → ifreeze = false
  served : s.regs.fillActive = true ∨ s.regs.iFillValid = true →
    s.cache.fillReq = true ∧ s.regs.fillBase = s.cache.fillAddr ∨
      s.cache.fillReq = false ∧ ifreeze = true

theorem Core.Requested.step {turn : Bool} {i : CoreInputs} {ifreeze : Bool} {s : Core}
    (requested : s.Requested turn i.control.ifreeze) (filling : s.regs.Filling turn)
    (turns : OnTurn turn i.pins.phi)
    (freeze : s.regs.clkena (s.bus i) = false → ifreeze = i.control.ifreeze) :
    (s.step i).Requested (turnNext turn i.pins.phi) ifreeze := by
  constructor
  case quiet =>
    intro req later
    obtain ⟨thawed, from_⟩ := ICache.fillReq_cases req
    have idle : s.regs.clkena (s.bus i) = false := by
      cases phi : i.pins.phi with
      | none => simp [Regs.clkena, bus, phi]
      | phi1 => simp [phi, turnNext] at later
      | phi2 =>
        rcases from_ with miss | ⟨pending, _⟩
        · -- a fetch that misses is no beat
          have facts := ICache.missLatched_spec miss
          have fetch := busstate_of_iReq facts.1
          simp [Regs.clkena, Regs.cacheHitBeat, Regs.cacheReadHit, bus, phi, fetch, ICache.iHit,
            facts]
        · simp [Regs.clkena, bus, phi, pending]
    rw [freeze idle, thawed]
  case served =>
    intro on
    have before : s.regs.fillStarts (s.bus i) = true ∨ s.regs.fillActive = true := by
      rcases on with on | pulse
      · exact (Regs.active_next on).imp_right And.left
      · simp only [Core.step, Regs.step, Regs.iFillValidNext, Bool.and_eq_true] at pulse
        exact .inr (Regs.ends_spec pulse.1.1).1
    rcases before with start | active
    · have facts := Regs.starts_spec start
      have req : s.cache.fillReq = true := facts.2.2.2.2.2
      have mine := turns.1 facts.2.1
      have unserved : s.regs.iFillValid = false := by
        by_contra pulse
        have later := (filling.pulse (by simpa using pulse)).2
        simp [mine] at later
      have next := ICache.fillReq_next (k := i.kernel) (c := i.control)
        (d := s.regs.fillBuf) req unserved
      left
      refine ⟨by simpa [Core.step, requested.quiet req mine] using next.1, ?_⟩
      simp only [Core.step, Regs.step, Regs.fillBaseNext, start, next.2.1]
      rfl
    · have start : s.regs.fillStarts (s.bus i) = false := by simp [Regs.fillStarts, active]
      have base : (s.step i).regs.fillBase = s.regs.fillBase := by
        simp [Core.step, Regs.step, Regs.fillBaseNext, start]
      have idle : s.regs.clkena (s.bus i) = false := by simp [Regs.clkena, active]
      have unserved : s.regs.iFillValid = false := by
        by_contra pulse
        have over_ := (filling.pulse (by simpa using pulse)).1
        simp [active] at over_
      rw [freeze idle, base]
      rcases requested.served (.inl active) with ⟨req, same⟩ | ⟨none, frozen⟩
      · have next := ICache.fillReq_next (k := i.kernel) (c := i.control)
          (d := s.regs.fillBuf) req unserved
        cases frozen : i.control.ifreeze
        · left
          refine ⟨by simpa [Core.step, frozen] using next.1, same.trans next.2.1.symm⟩
        · right
          refine ⟨by simpa [Core.step, frozen] using next.1, rfl⟩
      · right
        refine ⟨?_, frozen⟩
        simp [Core.step, ICache.step, ICache.fillReqNext, ICache.missLatched, none, frozen]

/-! ### Lines that change -/

section Stale

variable {i : Nat → CoreInputs} {w : World} {t t₀ : Nat} {l : Line}

theorem stale_next (stale : Stale i w t l) (kept : (i t).control.invalidatesAll = false) :
    Stale i w (t + 1) l := by
  obtain ⟨t₀, t₁, order, before, fetched, changed, since⟩ := stale
  refine ⟨t₀, t₁, order, by omega, fetched, changed, ?_⟩
  intro u after_ until_
  rcases Nat.lt_or_eq_of_le (Nat.lt_succ_iff.mp until_) with earlier | rfl
  · exact since u after_ earlier
  · exact kept

theorem stale_of_change (fetched : Fetches i t₀ l) (order : t₀ ≤ t) (changed : w.Changes t l) :
    Stale i w (t + 1) l :=
  ⟨t₀, t, order, by omega, fetched, changed, by omega⟩

/-- What is true of a fetched line until it changes. -/
theorem fresh_next {known known' : Prop} (fetched : ∃ t₀ ≤ t, Fetches i t₀ l)
    (here : Stale i w t l ∨ known) (kept : Stale i w t l → (i t).control.invalidatesAll = false)
    (keep : ¬ w.Changes t l → known → known') : Stale i w (t + 1) l ∨ known' := by
  obtain ⟨t₀, order, fetched⟩ := fetched
  by_cases changed : w.Changes t l
  · exact .inl (stale_of_change fetched order changed)
  · exact here.imp (fun stale => stale_next stale (kept stale)) (keep changed)

theorem lineAt_iTag (fc : BitVec 3) (address : Addr) :
    lineAt (iTag fc address) (lineIdx address) = lineOf fc address := by
  have index : BitVec.ofNat 4 (lineIdx address) = address.extractLsb' 4 4 :=
    BitVec.eq_of_toNat_eq (by simp [lineIdx])
  simp only [lineAt, lineOf, iTag, index, BitVec.extractLsb'_append_eq_left,
    BitVec.extractLsb'_append_eq_right, Line.mk.injEq, true_and]
  exact BitVec.extractLsb'_append_extractLsb'_eq_extractLsb' rfl

theorem program_space {fc : BitVec 3} (program : fc.extractLsb' 0 2 = 2) :
    fc.extractLsb' 2 1 ++ 2#2 = fc := by
  rw [show 2#2 = fc.extractLsb' 0 2 from program.symm]
  exact (BitVec.extractLsb'_append_extractLsb'_eq_extractLsb' rfl).trans BitVec.extractLsb'_eq_self

/-- The bus word of a fetch is a word of its line. -/
theorem World.busWord_eq (w : World) (t : Nat) {fc : BitVec 3} (address : Addr)
    (program : fc.extractLsb' 0 2 = 2) :
    w.busWord t fc address = w.word t (lineOf fc address) (address.extractLsb' 1 3).toNat := by
  simp only [World.busWord, World.word, World.frame, lineOf, wordAddr, program_space program]
  rw [BitVec.ofNat_toNat, BitVec.setWidth_eq]

/-- The half of the line that a fetch is served. -/
theorem ICache.dataOut_eq (s : ICache) (c : Control) :
    s.dataOut c = s.data (lineIdx c.addrLog) (c.addrLog.extractLsb' 1 3).toNat := by
  have split : (c.addrLog.extractLsb' 1 3).toNat =
      2 * (c.addrLog.extractLsb' 2 2).toNat + (c.addrLog.getLsbD 1).toNat := by
    simp only [BitVec.extractLsb'_toNat, BitVec.getLsbD, Nat.testBit_eq_decide_div_mod_eq,
      Nat.shiftRight_eq_div_pow]
    by_cases odd : c.addrLog.toNat / 2 ^ 1 % 2 = 1
    · rw [decide_eq_true odd, Bool.toNat_true]
      omega
    · rw [decide_eq_false odd, Bool.toNat_false]
      omega
  rw [split]
  cases odd : c.addrLog.getLsbD 1
  · simp only [dataOut, iData, odd, Bool.toNat_false, Nat.add_zero]
    exact BitVec.extractLsb'_append_eq_right
  · simp only [dataOut, iData, odd, Bool.toNat_true, if_true]
    exact BitVec.extractLsb'_append_eq_left

end Stale

/-! ### Runs in the environment -/

section Run

variable {i : Nat → CoreInputs} {w : World} {first : Bool} {n : Nat}

open MacIIvi.Cpu.Core (after seen)

theorem Environment.ok (env : Environment i w first n) (t : Nat) (h : t < n) :
    (after i t).regs.Ok (turn (seen i) first t) (seen i t) := by
  rw [Core.after_regs]
  exact after_ok env.bus t h

theorem Environment.filling (env : Environment i w first n) (t : Nat) (h : t < n) :
    (after i t).regs.Filling (turn (seen i) first t) := by
  induction t with
  | zero => constructor <;> simp [after]
  | succ t ih => exact (ih (by omega)).step (env.ok t (by omega)) (env.bus.turns t (by omega))

theorem Environment.requested (env : Environment i w first n) (t : Nat) (h : t < n) :
    (after i t).Requested (turn (seen i) first t) (i t).control.ifreeze := by
  induction t with
  | zero => constructor <;> simp [after]
  | succ t ih =>
    exact (ih (by omega)).step (env.filling t (by omega)) (env.bus.turns t (by omega))
      (env.freeze t h)

/-- A captured word is the bus's word at the place in the line that it is for. -/
theorem Environment.capture (env : Environment i w first n) (t : Nat) (h : t < n)
    (captures : (after i t).regs.fillCaptures (seen i t) = true) :
    (after i t).regs.fillActive = true ∧ (i t).pins.fillDataValid = true ∧
      (after i t).regs.asN = false ∧
      (after i t).regs.addr =
        wordAddr ((after i t).regs.fillBase.extractLsb' 4 28) (after i t).regs.fillWord ∧
      (i t).pins.din = w.mem t (after i t).regs.addr := by
  have parts : (after i t).regs.fillActive = true ∧ (i t).pins.fillDataValid = true := by
    simpa [Regs.fillCaptures, seen, Core.bus] using captures
  have live : (w.port t).fillDataValid = true := (env.strobe t h).symm.trans parts.2
  have low := env.decoded t h (by
    simp only [Port.fillDataValid, Bool.and_eq_true, Bool.or_eq_true] at live
    exact live.2)
  have ok := env.ok t h
  have states : 2 ≤ (after i t).regs.sState ∧ (after i t).regs.sState ≤ 6 := by
    have asN := ok.asN
    simpa [low] using asN
  have alone := (env.filling t h).alone parts.1
  refine ⟨parts.1, parts.2, low, ?_, env.passed t h live⟩
  rw [ok.addr states.1 states.2]
  simp [Regs.effAddr, alone, parts.1, Regs.fillBusAddr, wordAddr]

/-- The buffer holds captured words. -/
theorem Environment.captured (env : Environment i w first n) (t : Nat) (h : t < n) :
    (after i t).regs.Gathered (Captured i t) := by
  induction t with
  | zero => constructor <;> simp [after]
  | succ t ih =>
    refine (ih (by omega)).step (env.filling t (by omega)) (i := seen i t) ?_ ?_
    · rintro k _ active other ⟨u, before, facts⟩
      have start : (after i t).regs.fillStarts (seen i t) = false := by
        simp [Regs.fillStarts, active]
      have base : (after i (t + 1)).regs.fillBase = (after i t).regs.fillBase := by
        change (after i t).regs.fillBaseNext (seen i t) = _
        simp [Regs.fillBaseNext, start]
      have word : (after i (t + 1)).regs.fillBuf k = (after i t).regs.fillBuf k := by
        change (after i t).regs.fillBufNext (seen i t) k = _
        unfold Regs.fillBufNext
        split
        · rename_i captures
          exact Function.update_of_ne (other captures) _ _
        · rfl
      refine ⟨u, by omega, ?_⟩
      rwa [base, word]
    · intro captures
      obtain ⟨active, strobe, low, address, _⟩ := env.capture t (by omega) captures
      have start : (after i t).regs.fillStarts (seen i t) = false := by
        simp [Regs.fillStarts, active]
      have base : (after i (t + 1)).regs.fillBase = (after i t).regs.fillBase := by
        change (after i t).regs.fillBaseNext (seen i t) = _
        simp [Regs.fillBaseNext, start]
      refine ⟨t, by omega, active, strobe, low, ?_, ?_⟩
      · rw [base]
        exact address
      · change (after i t).regs.fillBufNext (seen i t) _ = _
        simp [Regs.fillBufNext, captures]
        rfl

theorem installs_whole (env : Environment i w first n) : InstallsWhole i n := by
  intro t h installs
  simp only [ICache.installs, Bool.and_eq_true] at installs
  obtain ⟨⟨pulse, _⟩, req⟩ := installs
  refine ⟨?_, (env.captured t h).2 pulse⟩
  rcases (env.requested t h).served (.inr pulse) with ⟨_, same⟩ | ⟨none, _⟩
  · exact same
  · simp [none] at req

theorem fills_invisible : FillsInvisible i n := by
  intro t _
  constructor
  · intro active
    constructor
    · simp [Regs.clkena, active]
    · change (after i t).regs.dinRNext (seen i t) = _
      simp [Regs.dinRNext, active]
  · intro differ
    change (after i t).regs.sStateNext (seen i t) = 0
    change (after i t).regs.fillActiveNext (seen i t) ≠ _ at differ
    by_cases start : (after i t).regs.fillStarts (seen i t) = true
    · have facts := Regs.starts_spec start
      simp [Regs.sStateNext, facts]
    · have done : (after i t).regs.fillEnds (seen i t) = true := by
        by_contra goes
        simp [Regs.fillActiveNext, start, goes] at differ
      have facts := Regs.ends_spec done
      simp [Regs.sStateNext, facts]

/-- A latched miss is of a fetched line that has changed, or it has the line's
physical address and what was captured for it is the line. -/
theorem Environment.current (env : Environment i w first n) (survive : NoStaleSurvivor i w n)
    (t : Nat) (h : t < n) (req : (after i t).cache.fillReq = true) :
    (∃ t₀ < t, Fetches i t₀ (after i t).cache.fillLine) ∧
      (Stale i w t (after i t).cache.fillLine ∨
        (after i t).cache.fillAddr.extractLsb' 4 28 = w.frame t (after i t).cache.fillLine ∧
          (after i t).regs.Gathered fun k =>
            (after i t).regs.fillBuf k = w.word t (after i t).cache.fillLine k) := by
  induction t with
  | zero => simp [after] at req
  | succ t ih =>
    have requested := env.requested t (by omega)
    obtain ⟨thawed, miss | ⟨pending, unserved⟩⟩ := ICache.fillReq_cases (s := (after i t).cache) req
    · -- the miss is latched now: no fill has started for it
      obtain ⟨fetch, none, _, _⟩ := ICache.missLatched_spec miss
      have line : (after i (t + 1)).cache.fillLine =
          lineOf (i t).kernel.fc (i t).control.addrLog := by
        simp [after, Core.step, ICache.step, ICache.fillLine, miss, lineAt_iTag]
      have fetched : Fetches i t (after i (t + 1)).cache.fillLine := ⟨fetch, line.symm⟩
      have quiet : (after i t).regs.fillActive = false ∧ (after i t).regs.iFillValid = false := by
        have served := requested.served
        simp only [none, thawed, Bool.false_eq_true, false_and, and_false, or_self, imp_false,
          not_or, Bool.not_eq_true] at served
        exact served
      have start : (after i t).regs.fillStarts (seen i t) = false := by
        simp [Regs.fillStarts, seen, Core.bus, none]
      refine ⟨⟨t, by omega, fetched⟩, ?_⟩
      by_cases changed : w.Changes t (after i (t + 1)).cache.fillLine
      · exact .inl (stale_of_change fetched (Nat.le_refl _) changed)
      · right
        constructor
        · have address : (after i (t + 1)).cache.fillAddr.extractLsb' 4 28 =
              (i t).control.addrPhys.extractLsb' 4 28 := by
            simp only [after, Core.step, ICache.step, miss, if_true]
            exact BitVec.extractLsb'_append_eq_left
          rw [(World.word_next changed).1, address, env.translated t (by omega) fetch, line]
          simp only [World.frame, lineOf]
          rw [program_space (env.program t (by omega) (busstate_of_iReq fetch))]
        · constructor
          · intro on
            change (after i t).regs.fillActiveNext (seen i t) = true at on
            simp [Regs.fillActiveNext, start, quiet] at on
          · intro pulse
            change (after i t).regs.iFillValidNext (seen i t) = true at pulse
            simp [Regs.iFillValidNext, Regs.fillEnds, Regs.fillAdvances, Regs.fillJudges, quiet]
              at pulse
    · -- the miss was latched before
      obtain ⟨⟨t₀, before, fetched⟩, here⟩ := ih (by omega) pending
      have next := ICache.fillReq_next (k := (i t).kernel) (c := (i t).control)
        (d := (after i t).regs.fillBuf) pending unserved
      have line : (after i (t + 1)).cache.fillLine = (after i t).cache.fillLine := next.2.2
      have address : (after i (t + 1)).cache.fillAddr = (after i t).cache.fillAddr := next.2.1
      rw [line, address]
      refine ⟨⟨t₀, by omega, fetched⟩, ?_⟩
      refine fresh_next ⟨t₀, by omega, fetched⟩ here ?_ ?_
      · intro stale
        by_contra all
        exact survive t (by omega) (by simpa using all) pending unserved thawed stale
      · rintro still ⟨frame, gathered⟩
        obtain ⟨moved, words⟩ := World.word_next still
        refine ⟨frame.trans moved.symm, ?_⟩
        refine gathered.step (env.filling t (by omega)) (i := seen i t) ?_ ?_
        · intro k small active other known
          rw [words k small, ← known]
          change (after i t).regs.fillBufNext (seen i t) k = _
          unfold Regs.fillBufNext
          split
          · rename_i captures
            exact Function.update_of_ne (other captures) _ _
          · rfl
        · intro captures
          have small := (env.filling t (by omega)).bound
          obtain ⟨active, _, _, presented, din⟩ := env.capture t (by omega) captures
          have base : (after i t).regs.fillBase = (after i t).cache.fillAddr := by
            rcases requested.served (.inl active) with ⟨_, same⟩ | ⟨none, _⟩
            · exact same
            · simp [none] at pending
          rw [words _ small, World.word, ← frame, ← base, ← presented, ← din]
          change (after i t).regs.fillBufNext (seen i t) _ = _
          simp [Regs.fillBufNext, captures]
          rfl

/-- A line in the cache has been fetched, and has changed since or is the line. -/
theorem Environment.cached (env : Environment i w first n) (survive : NoStaleSurvivor i w n)
    (t : Nat) (h : t < n) (idx : Fin 16) (valid : (after i t).cache.valid idx = true) :
    (∃ t₀ < t, Fetches i t₀ (lineAt ((after i t).cache.tag idx) idx)) ∧
      (Stale i w t (lineAt ((after i t).cache.tag idx) idx) ∨
        ∀ k < 8, (after i t).cache.data idx k =
          w.word t (lineAt ((after i t).cache.tag idx) idx) k) := by
  induction t with
  | zero => simp [after] at valid
  | succ t ih =>
    change (after i t).cache.validNext (i t).control (after i t).regs.iFillValid idx = true at valid
    have stays : (after i t).cache.dropped (i t).control idx = false := by
      by_contra dropped
      simp [ICache.validNext, dropped] at valid
    have all : (i t).control.invalidatesAll = false := by
      by_contra all
      simp only [Control.invalidatesAll, Bool.not_eq_false, Bool.and_eq_true] at all
      simp only [ICache.dropped, all.1] at stays
      simp_all
    by_cases installs : (after i t).cache.installs (i t).control (after i t).regs.iFillValid = true ∧
        idx = (after i t).cache.fillLineIdx
    · obtain ⟨installs, rfl⟩ := installs
      have parts := installs
      simp only [ICache.installs, Bool.and_eq_true] at parts
      obtain ⟨⟨t₀, before, fetched⟩, here⟩ := env.current survive t (by omega) parts.2
      have tag : (after i (t + 1)).cache.tag (after i t).cache.fillLineIdx =
          (after i t).cache.fillTag := by
        simp [after, Core.step, ICache.step, installs]
      have data : (after i (t + 1)).cache.data (after i t).cache.fillLineIdx =
          (after i t).regs.fillBuf := by
        simp [after, Core.step, ICache.step, installs]
      rw [tag, data]
      refine ⟨⟨t₀, by omega, fetched⟩, fresh_next ⟨t₀, by omega, fetched⟩ here (fun _ => all) ?_⟩
      rintro still ⟨_, gathered⟩ k small
      exact (gathered.2 parts.1.1 k small).trans ((World.word_next still).2 k small).symm
    · have kept : (after i t).cache.valid idx = true := by
        simp only [ICache.validNext, stays] at valid
        by_contra none
        simp_all
      have tag : (after i (t + 1)).cache.tag idx = (after i t).cache.tag idx := by
        change (if _ then Function.update _ _ _ else _) idx = _
        split
        · rename_i now
          exact Function.update_of_ne (fun same => installs ⟨now, same⟩) _ _
        · rfl
      have data : (after i (t + 1)).cache.data idx = (after i t).cache.data idx := by
        change (if _ then Function.update _ _ _ else _) idx = _
        split
        · rename_i now
          exact Function.update_of_ne (fun same => installs ⟨now, same⟩) _ _
        · rfl
      obtain ⟨⟨t₀, before, fetched⟩, here⟩ := ih (by omega) kept
      rw [tag, data]
      refine ⟨⟨t₀, by omega, fetched⟩, fresh_next ⟨t₀, by omega, fetched⟩ here (fun _ => all) ?_⟩
      intro still words k small
      exact (words k small).trans ((World.word_next still).2 k small).symm

theorem hits_transparent (env : Environment i w first n) (refreshes : Refreshes i w n)
    (survive : NoStaleSurvivor i w n) : HitsTransparent i w n := by
  intro t h beat
  have hit : (after i t).cache.iHit (i t).kernel (i t).control = true ∧
      iReq (i t).kernel (i t).control = true := by
    have parts := beat
    simp only [Regs.cacheHitBeat, Regs.cacheReadHit, seen, Core.bus, Bool.and_eq_true] at parts
    exact parts.1.2
  have present : (after i t).cache.present (i t).kernel (i t).control = true := by
    have parts := hit.1
    simp only [ICache.iHit, Bool.and_eq_true] at parts
    exact parts.2
  simp only [ICache.present, Bool.and_eq_true, beq_iff_eq] at present
  obtain ⟨valid, tag⟩ := present
  have line : lineAt ((after i t).cache.tag (lineIdx (i t).control.addrLog))
      (lineIdx (i t).control.addrLog) = lineOf (i t).kernel.fc (i t).control.addrLog := by
    rw [tag, lineAt_iTag]
  have data : (after i t).regs.dataIn (seen i t) = (after i t).cache.dataOut (i t).control := by
    simp [Regs.dataIn, beat]
    rfl
  have program := env.program t h (busstate_of_iReq hit.2)
  rw [data, ICache.dataOut_eq, World.busWord_eq w t _ program, ← line]
  rcases (env.cached survive t h _ valid).2 with stale | words
  · rw [line] at stale
    exact absurd stale (refreshes t h _ ⟨hit.2, rfl⟩)
  · exact words _ ((i t).control.addrLog.extractLsb' 1 3).isLt

/-- **Transparency of line fills and of the cache.** -/
theorem cache_transparent (env : Environment i w first n) (refreshes : Refreshes i w n)
    (survive : NoStaleSurvivor i w n) :
    HitsTransparent i w n ∧ InstallsWhole i n ∧ FillsInvisible i n :=
  ⟨hits_transparent env refreshes survive, installs_whole env, fills_invisible⟩

end Run

/-! ### A fill on fixed inputs -/

/-- The logical line is mapped to physical line `0x500`, and to `0x600` from clock
9 on if software remaps it. -/
def mapped (remap : Bool) (t : Nat) : BitVec 28 := if remap && 8 < t then 0x600 else 0x500

def fillWorld (remap : Bool) : World where
  mem := fun _ address => if address.extractLsb' 8 24 == 0x50 then 0x4E71 else 0x4E75
  page := fun t _ _ => mapped remap t
  port := fun t =>
    if 10 < t ∧ t % 8 = 1 then
      { sdramRamReady := true, cpuBusControl := true, memoryLatch := true, selectRAM := true }
    else {}

/-- A fetch misses; the kernel then works off the bus, and software that has
remapped the line invalidates the cache at clock 9. The line is filled from clock
10 to clock 75 and fetched once more at clock 77. -/
def fillRun (remap : Bool) (t : Nat) : CoreInputs where
  pins :=
    { phi := if t % 2 = 0 then .phi1 else .phi2, dtackN := false, din := 0x4E71
      fillDataValid := decide (10 < t ∧ t % 8 = 1) }
  kernel :=
    if 1 ≤ t ∧ t ≤ 8 ∨ t = 77 then
      { busstate := .fetch, addr := mapped remap t ++ 0#4, udsN := false, ldsN := false, fc := 6 }
    else { fc := 6 }
  control :=
    { ie := true, addrLog := 0x1000, addrPhys := mapped remap t ++ 0#4
      ramSizeBytes := 0x800000, invReq := remap && t == 9, opScope := 2, opCache := 2 }

theorem fillRun_disciplined (remap : Bool) :
    Disciplined (Core.seen (fillRun remap)) false 78 := by
  have turns : ∀ remap, ∀ t < 78, OnTurn (turn (Core.seen (fillRun remap)) false t)
      (Core.seen (fillRun remap) t).pins.phi := by decide +kernel
  have holds : ∀ remap, ∀ t < 77, (Core.after (fillRun remap) (t + 1)).regs.sState ≠ 0 →
      (Core.after (fillRun remap) t).regs.clkena (Core.seen (fillRun remap) t) = false →
        SameAccess (fillRun remap t).kernel (fillRun remap (t + 1)).kernel := by decide +kernel
  have fault : ∀ t, (fillRun remap t).kernel.pmmuFault = false := by
    intro t
    simp only [fillRun]
    split <;> rfl
  have walker : ∀ remap, ∀ t < 78, (Core.after (fillRun remap) t).regs.walkCycle = false := by
    decide +kernel
  constructor
  case turns => exact turns remap
  case holds =>
    intro t h
    rw [← Core.after_regs, ← Core.after_regs]
    exact holds remap t (by omega)
  case fault =>
    intro t _ _ _ _ _
    exact fault t
  case walker =>
    intro t h
    rw [← Core.after_regs]
    simp [walker remap t (by omega)]

theorem fillRun_environment (remap : Bool) :
    Environment (fillRun remap) (fillWorld remap) false 78 := by
  have freeze : ∀ t, (fillRun remap t).control.ifreeze = false := fun _ => rfl
  have program : ∀ t, (fillRun remap t).kernel.fc = 6 := by
    intro t
    simp only [fillRun]
    split <;> rfl
  have decoded : ∀ remap, ∀ t < 78, ((fillWorld remap).port t).fillDataValid = true →
      (Core.after (fillRun remap) t).regs.asN = false ∧
        (fillRun remap t).pins.din =
          (fillWorld remap).mem t (Core.after (fillRun remap) t).regs.addr := by decide +kernel
  have selected : ∀ t, ((fillWorld remap).port t).selectRAM = true ∨
      ((fillWorld remap).port t).selectROM = true →
        ((fillWorld remap).port t).fillDataValid = true := by
    intro t
    simp only [fillWorld]
    split <;> simp [Port.fillDataValid]
  constructor
  case bus => exact fillRun_disciplined remap
  case freeze =>
    intro t _ _
    rfl
  case program =>
    intro t _ _
    rw [program]
    rfl
  case translated =>
    intro t _ _
    exact BitVec.extractLsb'_append_eq_left
  case strobe =>
    intro t _
    by_cases live : 10 < t ∧ t % 8 = 1 <;> simp [fillRun, fillWorld, Port.fillDataValid, live]
  case decoded =>
    intro t h valid
    exact (decoded remap t h (selected t valid)).1
  case passed =>
    intro t h valid
    exact (decoded remap t h valid).2

/-- Without a remap nothing changes, and the hit is transparent. -/
theorem cache_transparent_fillRun :
    HitsTransparent (fillRun false) (fillWorld false) 78 ∧ InstallsWhole (fillRun false) 78 ∧
      FillsInvisible (fillRun false) 78 := by
  have still : ∀ t l, ¬ (fillWorld false).Changes t l := by
    intro t l changed
    rcases changed with moved | ⟨_, _, differs⟩
    · exact moved rfl
    · exact differs rfl
  have fresh : ∀ t l, ¬ Stale (fillRun false) (fillWorld false) t l := by
    rintro t l ⟨_, _, _, _, _, changed, _⟩
    exact still _ _ changed
  exact cache_transparent (fillRun_environment false) (fun t _ l _ => fresh t l)
    (fun t _ _ _ _ _ => fresh t _)

/-- An invalidate-all leaves the miss that was latched before it. The line is
filled from its old physical address after the invalidation, and the hit at clock
77 serves the old word. -/
theorem cache_not_transparent :
    Environment (fillRun true) (fillWorld true) false 78 ∧
      Refreshes (fillRun true) (fillWorld true) 78 ∧
        ¬ HitsTransparent (fillRun true) (fillWorld true) 78 := by
  refine ⟨fillRun_environment true, ?_, ?_⟩
  · rintro t h l ⟨fetch, _⟩ ⟨t₀, t₁, order, before, fetched, changed, since⟩
    have fetching : ∀ t < 78, iReq (fillRun true t).kernel (fillRun true t).control = true →
        t ≤ 8 ∧ 1 ≤ t ∨ t = 77 := by decide
    have moved : t₁ = 8 := by
      by_contra other
      have same : mapped true (t₁ + 1) = mapped true t₁ := by
        simp only [mapped]
        split <;> split <;> simp_all <;> omega
      rcases changed with moved | ⟨_, _, differs⟩
      · exact moved same
      · exact differs rfl
    subst moved
    have late : t = 77 := by
      have := fetching t h fetch
      omega
    have quiet := since 9 (by omega) (by omega)
    exact absurd quiet (by decide)
  · intro transparent
    have word := transparent 77 (by decide) (by decide +kernel)
    exact absurd word (by decide +kernel)

end MacIIvi.Cpu
