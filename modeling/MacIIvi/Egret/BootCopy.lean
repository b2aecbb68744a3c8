import MacIIvi.Egret.Core
import MacIIvi.Nvram.Fsm

/-!
# The working RAM of the Egret and the boot-copy

Source: `rtl/egret/egret_wrapper.sv`. The processor runs on one clock in eight and
stands still while the boot-copy moves `pram[]` and the time into its RAM, a byte a
clock. The ports, the timers and the ROM are inputs, so that any firmware is a run.
-/

namespace MacIIvi.Egret

open Nvram

/-- What reaches the processor and the RAM from outside in one clock: `bus` is what the
ports and the ROM drive. -/
structure Pins where
  timerIrq : Bool
  onesecIrq : Bool
  bus : Byte
  reset680x0Latched : Bool
  pramReady : Bool
  pramLoadWr : Bool
  pramLoadAddr : BitVec 8
  pramLoadData : Byte
  timestamp : BitVec 32
  deriving DecidableEq, Repr

/-- The processor, its RAM and the clock divider. -/
structure Chip where
  core : State
  ram : EgretRam
  clkDiv : BitVec 3

/-- `cpu_addr[12:0]` -/
def addr13 (s : State) : Nat := (addr s).toNat % 2 ^ 13

def ramCs (s : State) : Bool := decide (0x90 ≤ addr13 s) && decide (addr13 s < 0x200)

/-- `addr13[8:0] - 9'h90` -/
def ramAddr (s : State) : Nat := (addr13 s % 2 ^ 9 + (2 ^ 9 - 0x90)) % 2 ^ 9

namespace Chip

variable (c : Chip) (p : Pins)

def cen : Bool := c.clkDiv == 0

/-- The write branch of the RAM, and the mirror's. -/
def ramWrite : Bool := ramCs c.core && !c.core.wr && c.cen

/-- `cpu_din` -/
def cpuDin : Byte := if ramCs c.core then c.ram.intram (ramAddr c.core) else p.bus

def egretIn : EgretIn :=
  { reset680x0Latched := p.reset680x0Latched
    ramWrite := c.ramWrite
    ramAddr := ramAddr c.core
    cpuDout := dataout c.core
    timestamp := p.timestamp }

/-- The side of the top level. -/
def top (p : Pins) : Top :=
  { pramReady := p.pramReady
    pramLoadWr := p.pramLoadWr
    pramLoadAddr := p.pramLoadAddr.toNat
    pramLoadData := p.pramLoadData }

/-- The clock enable of the processor. -/
def runs : Bool := c.cen && !c.ram.copyBusy

/-- A clock out of reset. -/
def step : Chip where
  core := clock c.core c.runs
    { irq := true, timerIrq := p.timerIrq, onesecIrq := p.onesecIrq, datain := c.cpuDin p }
  ram := c.ram.next (c.egretIn p) (top p)
  clkDiv := c.clkDiv + 1

/-- A clock in reset. -/
def reset : Chip where
  core := Egret.reset c.core.opcode c.core.traceOpCode
  ram := c.ram.next { c.egretIn p with reset := true } (top p)
  clkDiv := 0

/-- The state after `t` clocks. -/
def after (p : Nat → Pins) : Nat → Chip
  | 0 => c
  | t + 1 => (after p t).step (p t)

/-- The trigger of the boot-copy. -/
def starts : Bool := EgretRam.copyStarts (c.egretIn p) p.pramReady c.ram

/-- The last clock of the boot-copy. -/
def ends : Bool := c.ram.copyBusy && c.ram.copyIdx == 259

/-- The processor executes a store to the RAM. -/
def stores : Bool := c.runs && ramCs c.core && !c.core.wr

end Chip

/-! ## What the firmware is to see -/

/-- The RAM after the boot-copy, by the processor's addresses. -/
def bootCopied (pram : Nat → Byte) (timestamp : BitVec 32) (m : Nat → Byte) (a : Nat) : Byte :=
  if 0x100 ≤ a ∧ a ≤ 0x1FF then pram (a - 0x100)
  else if a = 0xAB then timestamp.extractLsb' 24 8
  else if a = 0xAC then timestamp.extractLsb' 16 8
  else if a = 0xAD then timestamp.extractLsb' 8 8
  else if a = 0xAE then timestamp.extractLsb' 0 8
  else m a

section Laws

variable (c : Chip) (p : Nat → Pins)

/-- A memory in which stores take effect as they are executed, and the boot-copy in one
instant. -/
def memory : Nat → Nat → Byte
  | 0 => fun a => c.ram.intram (a - 0x90)
  | t + 1 =>
    if (c.after p t).stores then
      Function.update (memory t) (addr13 (c.after p t).core) (dataout (c.after p t).core)
    else if (c.after p t).ends then
      bootCopied (c.after p t).ram.pram (p t).timestamp (memory t)
    else memory t

/-- The RAM is coherent. -/
structure Coherent : Prop where
  /-- Outside the boot-copy the RAM holds what was stored last, or copied at once. -/
  holds : ∀ t, (c.after p t).ram.copyBusy = false → ∀ a, 0x90 ≤ a → a < 0x200 →
    (c.after p t).ram.intram (a - 0x90) = memory c p t a
  /-- The processor reads it, -/
  reads : ∀ t, (c.after p t).runs = true → ramCs (c.after p t).core = true →
    (c.after p t).cpuDin (p t) = memory c p t (addr13 (c.after p t).core)
  /-- stands still during the boot-copy, -/
  frozen : ∀ t, (c.after p t).ram.copyBusy = true →
    (c.after p (t + 1)).core = (c.after p t).core
  /-- which takes 260 clocks after its trigger. -/
  copies : ∀ t, (c.after p t).starts (p t) = true →
    (∀ n, 1 ≤ n → n ≤ 260 → (c.after p (t + n)).ram.copyBusy = true) ∧
    (c.after p (t + 260)).ends = true ∧ (c.after p (t + 261)).ram.pramLoaded = true
  /-- From then on `pram[]` is a copy of the RAM, unless something is loaded. -/
  mirror : ∀ t u, (c.after p t).starts (p t) = true → t ≤ u →
    (∀ v, t < v → v < u → (p v).pramLoadWr = false) → (c.after p u).ram.pramLoaded = true →
    ∀ k < 256, (c.after p u).ram.pram k = (c.after p u).ram.intram (0x70 + k) ∧
      (c.after p u).ram.pram k = memory c p u (0x100 + k)

end Laws

/-- A clock in which nothing goes wrong. -/
structure Clean (c : Chip) (p q : Pins) : Prop where
  /-- The trigger of the boot-copy does not meet a store. -/
  store : c.starts p = true → c.ramWrite = false
  /-- No byte that is copied already is loaded during the copy, -/
  load : c.ram.copyBusy = true → p.pramLoadWr = true → c.ram.copyIdx < 259 →
    c.ram.copyIdx < p.pramLoadAddr.toNat
  /-- and the time stands while its four bytes are copied. -/
  stamp : c.ram.copyBusy = true → 256 ≤ c.ram.copyIdx → c.ram.copyIdx < 259 →
    q.timestamp = p.timestamp

/-! ## The copy, byte by byte -/

/-- The step of the boot-copy that writes an address. -/
def place (a : Nat) : Option Nat :=
  if 0x100 ≤ a ∧ a ≤ 0x1FF then some (a - 0x100)
  else if 0xAB ≤ a ∧ a ≤ 0xAE then some (a - 0xAB + 256)
  else none

/-- What a step writes. -/
def source (pram : Nat → Byte) (timestamp : BitVec 32) (k : Nat) : Byte :=
  match k with
  | 256 => timestamp.extractLsb' 24 8
  | 257 => timestamp.extractLsb' 16 8
  | 258 => timestamp.extractLsb' 8 8
  | 259 => timestamp.extractLsb' 0 8
  | i => pram (i % 256)

/-- The RAM after the first `k` steps. -/
def copied (k : Nat) (pram : Nat → Byte) (timestamp : BitVec 32) (m : Nat → Byte) (a : Nat) : Byte :=
  match place a with
  | some j => if j < k then source pram timestamp j else m a
  | none => m a

section Copied

variable (pram : Nat → Byte) (timestamp : BitVec 32) (m : Nat → Byte)

theorem copied_zero (a : Nat) : copied 0 pram timestamp m a = m a := by
  unfold copied
  cases place a <;> rfl

theorem copied_succ (k a : Nat) :
    copied (k + 1) pram timestamp m a =
      if place a = some k then source pram timestamp k else copied k pram timestamp m a := by
  unfold copied
  cases here : place a with
  | none => rfl
  | some j =>
    by_cases last : j = k
    · simp [last]
    · have same : j < k + 1 ↔ j < k := by omega
      simp [last, same]

theorem source_small {k : Nat} (small : k < 256) : source pram timestamp k = pram k := by
  unfold source
  split <;> first | omega | rw [Nat.mod_eq_of_lt small]

theorem copied_all (a : Nat) : copied 260 pram timestamp m a = bootCopied pram timestamp m a := by
  unfold copied bootCopied place
  by_cases region : 0x100 ≤ a ∧ a ≤ 0x1FF
  · have small : a - 0x100 < 256 := by omega
    have inside : a - 0x100 < 260 := by omega
    simp only [region, and_self, if_true, inside]
    exact source_small _ _ small
  · rw [if_neg region, if_neg region]
    by_cases seconds : 0xAB ≤ a ∧ a ≤ 0xAE
    · obtain rfl | rfl | rfl | rfl : a = 0xAB ∨ a = 0xAC ∨ a = 0xAD ∨ a = 0xAE := by omega
      all_goals rfl
    · rw [if_neg seconds, if_neg (by omega), if_neg (by omega), if_neg (by omega), if_neg (by omega)]

/-- Nothing else that the copy reads matters. -/
theorem copied_congr {pram' : Nat → Byte} {timestamp' : BitVec 32} {k : Nat}
    (same : ∀ j < k, source pram' timestamp' j = source pram timestamp j) (a : Nat) :
    copied k pram' timestamp' m a = copied k pram timestamp m a := by
  unfold copied
  cases place a with
  | none => rfl
  | some j =>
    dsimp only
    by_cases before : j < k
    · rw [if_pos before, if_pos before, same j before]
    · rw [if_neg before, if_neg before]

/-- Where a step writes, and what. -/
theorem copyByte_eq (w : EgretIn) (r : EgretRam) (short : r.copyIdx < 260) {a : Nat} (low_ : 0x90 ≤ a)
    (high_ : a < 0x200) :
    ((EgretRam.copyByte w r).1 = a - 0x90 ↔ place a = some r.copyIdx) ∧
    (EgretRam.copyByte w r).2 = source r.pram w.timestamp r.copyIdx := by
  obtain small | last : r.copyIdx < 256 ∨ r.copyIdx = 256 ∨ r.copyIdx = 257 ∨ r.copyIdx = 258 ∨
      r.copyIdx = 259 := by omega
  · have byte : EgretRam.copyByte w r = ((r.copyIdx + 0x70) % 512, r.pram (r.copyIdx % 256)) := by
      unfold EgretRam.copyByte
      split <;> first | omega | rfl
    rw [byte, source_small _ _ small, Nat.mod_eq_of_lt small]
    refine ⟨?_, rfl⟩
    unfold place
    split_ifs <;> simp only [Option.some.injEq, iff_false] <;> omega
  · unfold EgretRam.copyByte source place
    rcases last with last | last | last | last
    all_goals
      rw [last]
      refine ⟨?_, rfl⟩
      split_ifs <;> simp only [Option.some.injEq, iff_false] <;> omega

end Copied

/-! ## One clock of the RAM -/

namespace Chip

section Step

variable {c : Chip} {p : Pins}

theorem ramAddr_eq {s : State} (cs : ramCs s = true) :
    ramAddr s = addr13 s - 0x90 ∧ 0x90 ≤ addr13 s ∧ addr13 s < 0x200 := by
  simp only [ramCs, Bool.and_eq_true, decide_eq_true_eq] at cs
  unfold ramAddr
  omega

/-- A store reaches the RAM's write branch. -/
theorem stores_iff (idle : c.ram.copyBusy = false) : c.stores = c.ramWrite := by
  rw [stores, runs, ramWrite, idle]
  cases c.cen <;> cases ramCs c.core <;> cases c.core.wr <;> rfl

theorem stores_busy (busy : c.ram.copyBusy = true) : c.stores = false := by
  rw [stores, runs, busy]
  simp

theorem step_starts (begins : c.starts p = true) :
    (c.step p).ram =
      { c.ram with
        pram := EgretRam.pramNext (c.egretIn p) (top p) c.ram, copyBusy := true, copyIdx := 0 } := by
  have trigger : EgretRam.copyStarts (c.egretIn p) (top p).pramReady c.ram = true := begins
  simp only [step, EgretRam.next, trigger, if_true]
  rfl

theorem starts_idle (begins : c.starts p = true) :
    c.ram.copyBusy = false ∧ c.ram.pramLoaded = false := by
  simp only [starts, EgretRam.copyStarts, Bool.and_eq_true, Bool.not_eq_true'] at begins
  exact ⟨begins.1.1.2, begins.1.1.1.2⟩

theorem step_busy (busy : c.ram.copyBusy = true) :
    (c.step p).ram =
      { c.ram with
        pram := EgretRam.pramNext (c.egretIn p) (top p) c.ram
        intram := Function.update c.ram.intram (EgretRam.copyByte (c.egretIn p) c.ram).1
          (EgretRam.copyByte (c.egretIn p) c.ram).2
        copyBusy := !c.ends, pramLoaded := c.ends || c.ram.pramLoaded
        copyIdx := if c.ends then c.ram.copyIdx else (c.ram.copyIdx + 1) % 512 } := by
  have none_ : EgretRam.copyStarts (c.egretIn p) (top p).pramReady c.ram = false := by
    simp [EgretRam.copyStarts, busy]
  by_cases last : c.ram.copyIdx = 259
  · have ends_ : c.ends = true := by rw [ends, busy, last]; rfl
    simp [step, EgretRam.next, egretIn, EgretRam.copyStarts, busy, last, ends_]
  · have goes : c.ends = false := by rw [ends, busy, beq_eq_false_iff_ne.2 last]; rfl
    simp [step, EgretRam.next, egretIn, EgretRam.copyStarts, busy, last, goes]

theorem step_other (idle : c.ram.copyBusy = false) (none_ : c.starts p = false) :
    (c.step p).ram =
      { c.ram with
        pram := EgretRam.pramNext (c.egretIn p) (top p) c.ram
        intram :=
          if c.ramWrite then Function.update c.ram.intram (ramAddr c.core) (dataout c.core)
          else c.ram.intram } := by
  have quiet : EgretRam.copyStarts (c.egretIn p) (top p).pramReady c.ram = false := none_
  cases write : c.ramWrite
  · have away : (c.egretIn p).ramWrite = false := write
    have running : (c.egretIn p).reset = false := rfl
    simp [step, EgretRam.next, quiet, idle, away, running]
  · have here : (c.egretIn p).ramWrite = true := write
    have running : (c.egretIn p).reset = false := rfl
    simp [step, EgretRam.next, quiet, idle, here, running]
    rfl

end Step

end Chip

/-! ## Runs -/

/-- The RAM holds the memory that the firmware is to see, with the copy as far as it
got. -/
structure Sound (c : Chip) (timestamp : BitVec 32) (m : Nat → Byte) : Prop where
  loaded : c.ram.pramLoaded = true → c.ram.copyBusy = false
  short : c.ram.copyBusy = true → c.ram.copyIdx < 260
  ram : ∀ a, 0x90 ≤ a → a < 0x200 → c.ram.intram (a - 0x90) =
    if c.ram.copyBusy then copied c.ram.copyIdx c.ram.pram timestamp m a else m a

section Step

open Chip

variable {c : Chip} {p q : Pins} {m : Nat → Byte}

/-- While `pram_loaded` is clear only a load changes `pram[]`. -/
theorem pram_unloaded (unloaded : c.ram.pramLoaded = false) :
    (c.step p).ram.pram =
      if p.pramLoadWr then Function.update c.ram.pram p.pramLoadAddr.toNat p.pramLoadData
      else c.ram.pram := by
  have none_ : EgretRam.regionWr (c.egretIn p) c.ram = false := by
    simp [EgretRam.regionWr, unloaded]
  change (c.ram.next _ _).pram = _
  rw [EgretRam.next_pram, EgretRam.pramNext, none_]
  rfl

/-- What was copied already stays what it was. -/
theorem source_step (sound : Sound c p.timestamp m) (clean : Clean c p q)
    (busy : c.ram.copyBusy = true) (goes : c.ram.copyIdx < 259) {j : Nat}
    (before : j < c.ram.copyIdx + 1) :
    source (c.step p).ram.pram q.timestamp j = source c.ram.pram p.timestamp j := by
  have unloaded : c.ram.pramLoaded = false := by
    by_contra loaded
    rw [sound.loaded (by simpa using loaded)] at busy
    cases busy
  obtain small | large : j < 256 ∨ 256 ≤ j := by omega
  · rw [source_small _ _ small, source_small _ _ small, pram_unloaded unloaded]
    split
    · next load =>
      have behind := clean.load busy load goes
      rw [Function.update_of_ne (by omega)]
    · rfl
  · have stamp := clean.stamp busy (by omega) goes
    obtain rfl | rfl | rfl : j = 256 ∨ j = 257 ∨ j = 258 := by omega
    all_goals rw [stamp]; rfl

/-- What the firmware is to see after a clock. -/
def memoryNext (c : Chip) (p : Pins) (m : Nat → Byte) : Nat → Byte :=
  if c.stores then Function.update m (addr13 c.core) (dataout c.core)
  else if c.ends then bootCopied c.ram.pram p.timestamp m
  else m

theorem sound_starts (sound : Sound c p.timestamp m) (clean : Clean c p q)
    (begins : c.starts p = true) : Sound (c.step p) q.timestamp (memoryNext c p m) := by
  obtain ⟨idle, unloaded⟩ := starts_idle begins
  have next := step_starts begins
  have still : memoryNext c p m = m := by
    have none_ : c.stores = false := by rw [stores_iff idle, clean.store begins]
    have goes : c.ends = false := by rw [ends, idle]; rfl
    rw [memoryNext, none_, goes]
    rfl
  refine ⟨?_, ?_, ?_⟩
  · intro loaded
    rw [next] at loaded
    exact absurd loaded (by rw [unloaded]; decide)
  · intro _
    rw [next]
    exact Nat.zero_lt_succ _
  · intro a low_ high_
    have before := sound.ram a low_ high_
    rw [idle, if_neg (by decide)] at before
    rw [next, still, if_pos rfl]
    dsimp only
    rw [copied_zero]
    exact before

theorem sound_busy (sound : Sound c p.timestamp m) (clean : Clean c p q)
    (busy : c.ram.copyBusy = true) : Sound (c.step p) q.timestamp (memoryNext c p m) := by
  have next := step_busy (p := p) busy
  have short := sound.short busy
  have none_ := stores_busy busy
  have written : ∀ a, 0x90 ≤ a → a < 0x200 → (c.step p).ram.intram (a - 0x90) =
      copied (c.ram.copyIdx + 1) c.ram.pram p.timestamp m a := by
    intro a low_ high_
    obtain ⟨here, byte⟩ := copyByte_eq (c.egretIn p) c.ram short low_ high_
    have before := sound.ram a low_ high_
    rw [busy, if_pos rfl] at before
    rw [next, copied_succ]
    dsimp only
    by_cases hit : place a = some c.ram.copyIdx
    · rw [if_pos hit, ← here.2 hit, Function.update_self, byte]
      rfl
    · rw [if_neg hit, Function.update_of_ne (fun same => hit (here.1 same.symm)), before]
  cases last : c.ends
  · have goes : c.ram.copyIdx < 259 := by
      have other : c.ram.copyIdx ≠ 259 := by simpa [ends, busy] using last
      omega
    have idx : (c.step p).ram.copyIdx = c.ram.copyIdx + 1 := by
      rw [next, last]
      exact Nat.mod_eq_of_lt (by omega)
    have still : memoryNext c p m = m := by
      rw [memoryNext, none_, last]
      rfl
    have busy' : (c.step p).ram.copyBusy = true := by
      rw [next, last]
      rfl
    refine ⟨?_, ?_, ?_⟩
    · intro loaded
      rw [next, last] at loaded
      rw [sound.loaded loaded] at busy
      cases busy
    · intro _
      omega
    · intro a low_ high_
      rw [busy', if_pos rfl, written a low_ high_, still, idx]
      exact (copied_congr _ _ _ (fun j before => source_step sound clean busy goes before) a).symm
  · have idx : c.ram.copyIdx = 259 := by
      simp only [ends, Bool.and_eq_true, beq_iff_eq] at last
      exact last.2
    have busy' : (c.step p).ram.copyBusy = false := by
      rw [next, last]
      rfl
    refine ⟨fun _ => busy', ?_, ?_⟩
    · rw [busy']
      intro more
      cases more
    · intro a low_ high_
      rw [busy', if_neg (by decide), written a low_ high_, idx, copied_all, memoryNext, none_, last]
      rfl

theorem sound_other (sound : Sound c p.timestamp m) (idle : c.ram.copyBusy = false)
    (none_ : c.starts p = false) : Sound (c.step p) q.timestamp (memoryNext c p m) := by
  have next := step_other idle none_
  have busy' : (c.step p).ram.copyBusy = false := by rw [next]; exact idle
  refine ⟨fun _ => busy', ?_, ?_⟩
  · rw [busy']
    intro more
    cases more
  · intro a low_ high_
    have before := sound.ram a low_ high_
    rw [idle, if_neg (by decide)] at before
    have goes : c.ends = false := by rw [ends, idle]; rfl
    rw [busy', if_neg (by decide), next, memoryNext, goes, stores_iff idle]
    cases write : c.ramWrite
    · exact before
    · have cs : ramCs c.core = true := by
        simp only [ramWrite, Bool.and_eq_true] at write
        exact write.1.1
      obtain ⟨offset, from_, upTo⟩ := ramAddr_eq cs
      simp only [if_true]
      by_cases here : a = addr13 c.core
      · rw [here, offset, Function.update_self, Function.update_self]
      · rw [Function.update_of_ne here, offset, Function.update_of_ne (by omega), before]

theorem sound_step (sound : Sound c p.timestamp m) (clean : Clean c p q) :
    Sound (c.step p) q.timestamp (memoryNext c p m) := by
  cases begins : c.starts p
  · cases busy : c.ram.copyBusy
    · exact sound_other sound busy begins
    · exact sound_busy sound clean busy
  · exact sound_starts sound clean begins

end Step

section Run

open Chip

variable {c : Chip} {p : Nat → Pins} {t u : Nat}

/-- The copy goes on for 260 clocks. -/
theorem copying (begins : (c.after p t).starts (p t) = true) (n : Nat) (short : n < 260) :
    (c.after p (t + 1 + n)).ram.copyBusy = true ∧ (c.after p (t + 1 + n)).ram.copyIdx = n := by
  induction n with
  | zero =>
    have next : (c.after p (t + 1)).ram = _ := step_starts begins
    exact ⟨by rw [Nat.add_zero, next], by rw [Nat.add_zero, next]⟩
  | succ n ih =>
    obtain ⟨busy, idx⟩ := ih (by omega)
    have goes : (c.after p (t + 1 + n)).ends = false := by
      rw [ends, idx, beq_eq_false_iff_ne.2 (by omega), Bool.and_false]
    have again : c.after p (t + 1 + (n + 1)) = (c.after p (t + 1 + n)).step (p (t + 1 + n)) := rfl
    rw [again, step_busy busy, goes, idx]
    exact ⟨rfl, Nat.mod_eq_of_lt (by omega)⟩

theorem copying_ends (begins : (c.after p t).starts (p t) = true) :
    (c.after p (t + 260)).ends = true ∧ (c.after p (t + 261)).ram.copyBusy = false ∧
    (c.after p (t + 261)).ram.pramLoaded = true := by
  obtain ⟨busy, idx⟩ := copying begins 259 (by omega)
  have last : (c.after p (t + 1 + 259)).ends = true := by
    rw [ends, busy, idx]
    rfl
  have next : (c.after p (t + 1 + 259 + 1)).ram = _ := step_busy busy
  have here : t + 260 = t + 1 + 259 := by omega
  have there : t + 261 = t + 1 + 259 + 1 := by omega
  rw [here, there, next, last]
  exact ⟨rfl, rfl, rfl⟩

/-- As far as the copy got, and all of it once it is over, `pram[]` is in the RAM. -/
structure Mirrored (c : Chip) : Prop where
  busy : c.ram.copyBusy = true → c.ram.pramLoaded = false ∧
    ∀ k < 256, k < c.ram.copyIdx → c.ram.pram k = c.ram.intram (0x70 + k)
  loaded : c.ram.pramLoaded = true → ∀ k < 256, c.ram.pram k = c.ram.intram (0x70 + k)
  started : c.ram.copyBusy = true ∨ c.ram.pramLoaded = true
  short : c.ram.copyIdx < 260

theorem mirrored_busy {c : Chip} {p : Pins} (mirrored : Mirrored c) (unloaded : p.pramLoadWr = false)
    (busy : c.ram.copyBusy = true) : Mirrored (c.step p) := by
  obtain ⟨before, copied_⟩ := mirrored.busy busy
  have short := mirrored.short
  have next := step_busy (p := p) busy
  have pram : (c.step p).ram.pram = c.ram.pram := by
    rw [pram_unloaded before, unloaded]
    rfl
  have moved : ∀ k < 256, k < c.ram.copyIdx + 1 → (c.step p).ram.pram k =
      (c.step p).ram.intram (0x70 + k) := by
    intro k small upTo
    obtain ⟨here, byte⟩ := copyByte_eq (c.egretIn p) c.ram short (show 0x90 ≤ 0x100 + k by omega)
      (show 0x100 + k < 0x200 by omega)
    have offset : 0x100 + k - 0x90 = 0x70 + k := by omega
    have at_ : place (0x100 + k) = some k := by
      rw [place, if_pos (by omega), Nat.add_sub_cancel_left]
    rw [offset, at_] at here
    rw [pram, next]
    dsimp only
    by_cases now : k = c.ram.copyIdx
    · rw [here.2 (by rw [now]), Function.update_self, byte, ← now, source_small _ _ small]
    · have other : 0x70 + k ≠ (EgretRam.copyByte (c.egretIn p) c.ram).1 := fun same =>
        now (Option.some.inj (here.1 same.symm))
      rw [Function.update_of_ne other]
      exact copied_ k small (by omega)
  cases last : c.ends
  · have goes : c.ram.copyIdx ≠ 259 := by simpa [ends, busy] using last
    have idx : (c.step p).ram.copyIdx = c.ram.copyIdx + 1 := by
      rw [next, last]
      exact Nat.mod_eq_of_lt (by omega)
    have flags : (c.step p).ram.copyBusy = true ∧ (c.step p).ram.pramLoaded = false := by
      rw [next, last]
      exact ⟨rfl, before⟩
    refine ⟨fun _ => ⟨flags.2, ?_⟩, ?_, .inl flags.1, by omega⟩
    · rw [idx]
      exact moved
    · rw [flags.2]
      intro more
      cases more
  · have idx : c.ram.copyIdx = 259 := by
      simp only [ends, Bool.and_eq_true, beq_iff_eq] at last
      exact last.2
    have flags : (c.step p).ram.copyBusy = false ∧ (c.step p).ram.pramLoaded = true ∧
        (c.step p).ram.copyIdx = c.ram.copyIdx := by
      rw [next, last]
      exact ⟨rfl, rfl, rfl⟩
    refine ⟨?_, fun _ k small => moved k small (by omega), .inr flags.2.1, by omega⟩
    rw [flags.1]
    intro more
    cases more

theorem mirrored_loaded {c : Chip} {p : Pins} (mirrored : Mirrored c) (unloaded : p.pramLoadWr = false)
    (loaded : c.ram.pramLoaded = true) (idle : c.ram.copyBusy = false) : Mirrored (c.step p) := by
  have none_ : c.starts p = false := by simp [starts, EgretRam.copyStarts, loaded]
  have next := step_other idle none_
  have pram : (c.step p).ram.pram = if EgretRam.regionWr (c.egretIn p) c.ram then
      Function.update c.ram.pram (EgretRam.wrIdx (c.egretIn p)) (dataout c.core) else c.ram.pram := by
    rw [next]
    change (if p.pramLoadWr then _ else _) = _
    rw [unloaded]
    rfl
  have flags : (c.step p).ram.copyBusy = false ∧ (c.step p).ram.pramLoaded = true ∧
      (c.step p).ram.copyIdx = c.ram.copyIdx := by
    rw [next]
    exact ⟨idle, loaded, rfl⟩
  refine ⟨?_, ?_, .inr flags.2.1, by rw [flags.2.2]; exact mirrored.short⟩
  · rw [flags.1]
    intro more
    cases more
  · intro _ k small
    have before := mirrored.loaded loaded k small
    rw [pram, next]
    dsimp only
    cases write : c.ramWrite
    · have away : EgretRam.regionWr (c.egretIn p) c.ram = false := by
        simp [EgretRam.regionWr, egretIn, write]
      rw [away, if_neg (by decide), if_neg (by decide), before]
    · have region : EgretRam.regionWr (c.egretIn p) c.ram =
          (decide (0x70 ≤ ramAddr c.core) && decide (ramAddr c.core < 0x170)) := by
        simp [EgretRam.regionWr, egretIn, write, loaded]
      rw [region, if_pos rfl]
      by_cases inside : 0x70 ≤ ramAddr c.core ∧ ramAddr c.core < 0x170
      · have index : EgretRam.wrIdx (c.egretIn p) = ramAddr c.core - 0x70 := by
          change (ramAddr c.core - 0x70) % 256 = _
          exact Nat.mod_eq_of_lt (by omega)
        rw [decide_eq_true inside.1, decide_eq_true inside.2, Bool.and_self, if_pos rfl, index]
        by_cases here : 0x70 + k = ramAddr c.core
        · have same : k = ramAddr c.core - 0x70 := by omega
          rw [here, same, Function.update_self, Function.update_self]
        · rw [Function.update_of_ne here, Function.update_of_ne (by omega), before]
      · have outside : (decide (0x70 ≤ ramAddr c.core) && decide (ramAddr c.core < 0x170)) = false := by
          simpa using inside
        rw [outside, if_neg (by decide), Function.update_of_ne (by omega), before]

theorem mirrored_run (begins : (c.after p t).starts (p t) = true) (later : t + 1 ≤ u)
    (unloaded : ∀ v, t < v → v < u → (p v).pramLoadWr = false) : Mirrored (c.after p u) := by
  induction u, later using Nat.le_induction with
  | base =>
    have next : (c.after p (t + 1)).ram = _ := step_starts begins
    have before := (starts_idle begins).2
    refine ⟨fun _ => ⟨by rw [next]; exact before, ?_⟩, ?_, .inl (by rw [next]),
      by rw [next]; exact Nat.zero_lt_succ _⟩
    · intro k _ upTo
      rw [next] at upTo
      exact absurd upTo (Nat.not_lt_zero _)
    · intro loaded
      rw [next] at loaded
      rw [before] at loaded
      cases loaded
  | succ u later ih =>
    have before := ih fun v after_ upTo => unloaded v after_ (by omega)
    have none_ := unloaded u (by omega) (by omega)
    cases busy : (c.after p u).ram.copyBusy
    · have loaded := before.started.resolve_left (by rw [busy]; decide)
      exact mirrored_loaded before none_ loaded busy
    · exact mirrored_busy before none_ busy

end Run

/-- The RAM is coherent as long as the trigger meets no store and the copy is not torn. -/
theorem coherent_of_clean (c : Chip) (p₀ : Pins) (p : Nat → Pins)
    (clean : ∀ t, Clean ((c.reset p₀).after p t) (p t) (p (t + 1))) : Coherent (c.reset p₀) p := by
  have sound : ∀ t, Sound ((c.reset p₀).after p t) (p t).timestamp (memory (c.reset p₀) p t) := by
    intro t
    induction t with
    | zero =>
      refine ⟨fun _ => rfl, fun more => ?_, fun a _ _ => rfl⟩
      cases more
    | succ t ih => exact sound_step ih (clean t)
  constructor
  · intro t idle a low_ high_
    have here := (sound t).ram a low_ high_
    rwa [idle, if_neg (by decide)] at here
  · intro t runs cs
    have idle : ((c.reset p₀).after p t).ram.copyBusy = false := by
      simp only [Chip.runs, Bool.and_eq_true, Bool.not_eq_true'] at runs
      exact runs.2
    obtain ⟨offset, low_, high_⟩ := Chip.ramAddr_eq cs
    have here := (sound t).ram _ low_ high_
    rw [idle, if_neg (by decide)] at here
    rw [Chip.cpuDin, cs, if_pos rfl, offset, here]
  · intro t busy
    change clock _ (Chip.runs _) _ = _
    rw [Chip.runs, busy]
    simp [clock]
  · intro t begins
    obtain ⟨last, -, loaded⟩ := copying_ends begins
    refine ⟨?_, last, loaded⟩
    intro n from_ upTo
    have busy := (copying begins (n - 1) (by omega)).1
    have there : t + 1 + (n - 1) = t + n := by omega
    rwa [there] at busy
  · intro t u begins later unloaded loaded k small
    obtain rfl | after_ := Nat.eq_or_lt_of_le later
    · rw [(Chip.starts_idle begins).2] at loaded
      cases loaded
    · have same := (mirrored_run begins after_ unloaded).loaded loaded k small
      have here := (sound u).ram (0x100 + k) (by omega) (by omega)
      have offset : 0x100 + k - 0x90 = 0x70 + k := by omega
      rw [(sound u).loaded loaded, if_neg (by decide), offset] at here
      exact ⟨same, same.trans here⟩

/-! ## A store that is lost -/

section Lost

open Chip

variable {c : Chip} {p : Nat → Pins} {t : Nat}

/-- The copy leaves the other addresses alone, in the RAM and in the memory. -/
theorem copying_frame (begins : (c.after p t).starts (p t) = true) {a : Nat} (low_ : 0x90 ≤ a)
    (high_ : a < 0x200) (outside : place a = none) (n : Nat) (upTo : n ≤ 260) :
    (c.after p (t + 1 + n)).ram.intram (a - 0x90) = (c.after p t).ram.intram (a - 0x90) ∧
    memory c p (t + 1 + n) a = memory c p (t + 1) a := by
  induction n with
  | zero =>
    have next : (c.after p (t + 1)).ram = _ := step_starts begins
    exact ⟨by rw [Nat.add_zero, next], rfl⟩
  | succ n ih =>
    obtain ⟨ram_, memory_⟩ := ih (by omega)
    obtain ⟨busy, idx⟩ := copying begins n (by omega)
    have again : c.after p (t + 1 + (n + 1)) = (c.after p (t + 1 + n)).step (p (t + 1 + n)) := rfl
    constructor
    · have here := (copyByte_eq ((c.after p (t + 1 + n)).egretIn (p (t + 1 + n)))
        (c.after p (t + 1 + n)).ram (by omega) low_ high_).1
      rw [outside] at here
      rw [again, step_busy busy, ← ram_]
      dsimp only
      have other : a - 0x90 ≠ (EgretRam.copyByte ((c.after p (t + 1 + n)).egretIn (p (t + 1 + n)))
          (c.after p (t + 1 + n)).ram).1 := by
        intro same
        cases here.1 same.symm
      rw [Function.update_of_ne other]
    · have kept : memory c p (t + 1 + (n + 1)) = memoryNext (c.after p (t + 1 + n)) (p (t + 1 + n))
        (memory c p (t + 1 + n)) := rfl
      rw [kept, memoryNext, stores_busy busy, if_neg (by decide)]
      split
      · rw [← copied_all, copied, outside, memory_]
      · exact memory_

/-- A store that meets the trigger never reaches the RAM. -/
theorem store_lost (begins : (c.after p t).starts (p t) = true) {a : Nat} (low_ : 0x90 ≤ a)
    (high_ : a < 0x200) (outside : place a = none)
    (other : (c.after p t).ram.intram (a - 0x90) ≠ memory c p (t + 1) a) : ¬ Coherent c p := by
  intro coherent
  obtain ⟨ram_, memory_⟩ := copying_frame begins low_ high_ outside 260 le_rfl
  have there : t + 1 + 260 = t + 261 := by omega
  have idle : (c.after p (t + 1 + 260)).ram.copyBusy = false := by
    rw [there]
    exact (copying_ends begins).2.1
  have same := coherent.holds (t + 1 + 260) idle a low_ high_
  rw [ram_, memory_] at same
  exact other same

end Lost

/-- The bytes that the bus carries, one for each clock of the processor and NOPs after
them, with `pram_ready` rising at a clock. -/
def booting (bytes : List Byte) (ready t : Nat) : Pins where
  timerIrq := true
  onesecIrq := true
  bus := bytes.getD (t / 8) 0x9D
  reset680x0Latched := false
  pramReady := decide (ready ≤ t)
  pramLoadWr := false
  pramLoadAddr := 0
  pramLoadData := 0
  timestamp := 0

/-- Out of reset, with a RAM of zeros. -/
def blankChip : Chip where
  core := Egret.reset 0x00 0x00
  ram := {}
  clkDiv := 0

set_option maxRecDepth 4000 in
/-- STX $C0, and `pram_ready` rises in the clock of the store. -/
theorem coherent_fails :
    ¬ Coherent (blankChip.reset (booting [] 32 0)) (booting [0x10, 0x00, 0xBF, 0xC0] 32) := by
  refine store_lost (t := 32) (a := 0xC0) ?_ (by decide) (by decide) rfl ?_
  · decide
  · decide

/-- With `pram_ready` a clock after reset the copy meets no store. -/
theorem booting_clean (t : Nat) : Clean ((blankChip.reset (booting [] 1 0)).after (booting [] 1) t)
    (booting [] 1 t) (booting [] 1 (t + 1)) := by
  refine ⟨?_, fun _ load => ?_, fun _ _ _ => rfl⟩
  · intro begins
    obtain rfl | rfl | later : t = 0 ∨ t = 1 ∨ 1 + 1 ≤ t := by omega
    · revert begins
      decide
    · decide
    · have first : ((blankChip.reset (booting [] 1 0)).after (booting [] 1) 1).starts
          (booting [] 1 1) = true := by decide
      obtain ⟨idle, unloaded⟩ := Chip.starts_idle begins
      rcases (mirrored_run first later fun _ _ _ => rfl).started with busy | loaded
      · rw [idle] at busy
        cases busy
      · rw [unloaded] at loaded
        cases loaded
  · cases load

theorem coherent_of_clean_booting :
    ((blankChip.reset (booting [] 1 0)).after (booting [] 1) 1).starts (booting [] 1 1) = true ∧
    Coherent (blankChip.reset (booting [] 1 0)) (booting [] 1) :=
  ⟨by decide, coherent_of_clean _ _ _ booting_clean⟩

end MacIIvi.Egret
