import MacIIvi.Sdram.Slots

/-!
# What the chipset may count on

A request that is held is served within two slots, an initialisation that is run again
leaves the words alone, and slots that ask for nothing refresh the chips in turn.
-/

namespace MacIIvi

namespace SdramSystem

open Sdram (Chipset Fits)

variable {i : Nat → SdramIn} {p n m : Nat} {y : SdramSystem} {T : Dram.Timing}

/-! ## The initialisation -/

/-- The chipset holds a read of `a` for `k` clocks. -/
def Held (i : Nat → SdramIn) (a : BitVec 26) (n k : Nat) : Prop :=
  ∀ j < k, (i (n + j)).oe = true ∧ (i (n + j)).we = false ∧ (i (n + j)).addr = a ∧
    (i (n + j)).init = false

/-- What a held read keeps from the beginning `m` of its first slot on. -/
structure Reading (a : BitVec 26) (j : Nat) (s : Sdram) : Prop where
  t : s.t = j % 8
  normal : s.reset = 0
  latched : s.t ≠ 0 → s.oeLatch = true ∧ s.addrLatch = a
  arrived : 7 ≤ j → s.doutValid = true ∧ s.doutAddr = a

theorem Reading.next {a : BitVec 26} {j : Nat} {s : Sdram} {w : SdramIn} (ok : Reading a j s)
    (tick : Sdram.Ticks w s (s.step w)) (oe : w.oe = true) (we : w.we = false) (addr : w.addr = a)
    (calm : w.init = false) : Reading a (j + 1) (s.step w) := by
  have t : (s.step w).t = (j + 1) % 8 := by rw [tick.t, ok.t, Nat.mod_add_mod]
  have normal : (s.step w).reset = 0 := by
    rw [tick.reset, Sdram.resetNext, calm, ok.normal]
    simp
  -- only the clock numbered 6 brings a word, so any other has it from before
  have earlier (far : 7 ≤ j + 1) (other : s.t ≠ 6) : s.doutValid = true ∧ s.doutAddr = a :=
    ok.arrived (by have := ok.t; omega)
  rcases Sdram.step_cases (s := s) (w := w) with ⟨busy, -⟩ | ⟨-, first, same⟩ | ⟨-, here, same⟩ |
    ⟨-, here, same⟩ | ⟨-, late, -, other, same⟩
  · exact absurd ok.normal busy
  · obtain ⟨oe', -, -, doutAddr, valid, -⟩ := Sdram.start_keeps (s := s) (w := w)
    have address := Sdram.start_address (s := s) (w := w) (by rw [oe, Bool.or_true])
    refine ⟨t, normal, fun _ => ?_, fun far => ?_⟩
    · rw [same]
      exact ⟨oe'.trans oe, address.trans addr⟩
    · obtain ⟨valid', address'⟩ := earlier far (by omega)
      rw [same, valid, doutAddr, we]
      exact ⟨valid', address'⟩
  · obtain ⟨oe', -, address, -, doutAddr, valid, -⟩ := Sdram.column_keeps (s := s) (w := w)
    obtain ⟨read, latched⟩ := ok.latched (by omega)
    refine ⟨t, normal, fun _ => ?_, fun far => ?_⟩
    · rw [same]
      exact ⟨oe'.trans read, address.trans latched⟩
    · obtain ⟨valid', address'⟩ := earlier far (by omega)
      rw [same, valid, doutAddr]
      exact ⟨valid', address'⟩
  · obtain ⟨oe', -, address, -⟩ := Sdram.arrive_keeps (s := s) (w := w)
    obtain ⟨read, latched⟩ := ok.latched (by omega)
    refine ⟨t, normal, fun _ => ?_, fun _ => ?_⟩
    · rw [same]
      exact ⟨oe'.trans read, address.trans latched⟩
    · rw [same, Sdram.arrive, if_pos read]
      exact ⟨rfl, latched⟩
  · refine ⟨t, normal, fun _ => ?_, fun far => ?_⟩
    · rw [same]
      exact ok.latched late
    · rw [same]
      exact earlier far other

theorem calm_clocks (up : y.PowerUp) (clock : Chipset i p) (late : 15 ≤ n)
    (normal : (y.after i n).ctl.reset = 0) {k : Nat} (calm : Calm i n k) :
    ∀ e ≤ k, (y.after i (n + e)).ctl.t = ((y.after i n).ctl.t + e) % 8 ∧
      (y.after i (n + e)).ctl.reset = 0 := by
  have small := (tick up clock late).small
  intro e
  induction e with
  | zero => exact fun _ => ⟨(Nat.mod_eq_of_lt small).symm, normal⟩
  | succ e ih =>
    intro more
    obtain ⟨t, reset⟩ := ih (by omega)
    have tick := tick up clock (show 15 ≤ n + e by omega)
    refine ⟨tick.t.trans ?_, tick.reset.trans ?_⟩
    · rw [t, Nat.mod_add_mod, Nat.add_assoc]
    · rw [Sdram.resetNext, calm e (by omega), reset]
      simp

/-- The next slot begins within seven clocks. -/
theorem next_slot (up : y.PowerUp) (clock : Chipset i p) (late : 15 ≤ n)
    (normal : (y.after i n).ctl.reset = 0) (calm : Calm i n 7) :
    ∃ e ≤ 7, Begins (y.after i (n + e)).ctl := by
  have small := (tick up clock late).small
  obtain ⟨t, reset⟩ := calm_clocks up clock late normal calm ((8 - (y.after i n).ctl.t) % 8) (by omega)
  exact ⟨_, by omega, t.trans (by omega), reset⟩

theorem read_ready (up : y.PowerUp) (clock : Chipset i p) (late : 15 ≤ n)
    (normal : (y.after i n).ctl.reset = 0) {a : BitVec 26} {k : Nat} (far : 14 ≤ k)
    (held : Held i a n (k + 1)) : (y.after i (n + k)).ctl.ramReady (i (n + k)) = true := by
  obtain ⟨e, soon, begins⟩ := next_slot up clock late normal fun j small =>
    (held j (by omega)).2.2.2
  have reading : ∀ j, e + j ≤ k → Reading a j (y.after i (n + e + j)).ctl := by
    intro j
    induction j with
    | zero =>
      exact fun _ => ⟨begins.t, begins.normal, fun away => absurd begins.t away,
        fun far => absurd far (by decide)⟩
    | succ j ih =>
      intro more
      have tick := tick up clock (show 15 ≤ n + e + j by omega)
      obtain ⟨oe, we, addr, calm⟩ := held (e + j) (by omega)
      rw [← Nat.add_assoc] at oe we addr calm
      exact (ih (by omega)).next tick oe we addr calm
  obtain ⟨valid, address⟩ := (reading (k - e) (by omega)).arrived (by omega)
  rw [show n + e + (k - e) = n + k by omega] at valid address
  rw [Sdram.ramReady, valid, address, (held k (Nat.lt_succ_self k)).2.2.1]
  simp

theorem ready_cached (fits : Fits T) (up : y.PowerUp) (clock : Chipset i p) (answers : Answers i y)
    (one : Exclusive i) (late : 15 ≤ n) (ready : (y.after i n).ctl.ramReady (i n) = true) :
    (y.after i n).ctl.dout = (y.after i n).word (i n).addr := by
  obtain ⟨valid, address⟩ : _ ∧ _ := by
    simpa only [Sdram.ramReady, Bool.and_eq_true, beq_iff_eq] using ready
  rw [← address]
  exact (coherent fits up clock answers one late).cached valid

/-- A read that is held is ready after fourteen clocks and stays so while it is held, and what
`dout` then has is the word. -/
theorem read_served (fits : Fits T) (up : y.PowerUp) (clock : Chipset i p)
    (answers : Answers i y) (one : Exclusive i) (late : 15 ≤ n)
    (normal : (y.after i n).ctl.reset = 0) {a : BitVec 26} {k : Nat} (far : 14 ≤ k)
    (held : Held i a n (k + 1)) :
    (y.after i (n + k)).ctl.ramReady (i (n + k)) = true ∧
      (y.after i (n + k)).ctl.dout = (y.after i (n + k)).word a := by
  have ready := read_ready up clock late normal far held
  refine ⟨ready, ?_⟩
  rw [ready_cached fits up clock answers one (by omega) ready, (held k (Nat.lt_succ_self k)).2.2.1]

theorem traffic_held : Held traffic 0x2380000 8224 21 := by
  intro j small
  refine ⟨decide_eq_true (by omega), decide_eq_false (by omega), if_pos (by omega), ?_⟩
  exact beq_false_of_ne (by omega)

theorem traffic_normal : (cold.after traffic 8224).ctl.reset = 0 :=
  (calm_clocks (k := 56) cold_powerUp traffic_clock (by decide) traffic_begins.normal
    (fun j small => beq_false_of_ne (by omega)) 56 (Nat.le_refl 56)).2

/-- The read at clock 8224 returns what the three writes before it have left. -/
theorem read_served_traffic :
    (cold.after traffic (8224 + 16)).ctl.ramReady (traffic (8224 + 16)) = true ∧
      (cold.after traffic (8224 + 16)).ctl.dout = 0x0601 := by
  obtain ⟨ready, dout⟩ := read_served (n := 8224) (k := 16) moduleTiming_fits cold_powerUp
    traffic_clock (wired_answers asked) traffic_exclusive (by decide) traffic_normal (by decide)
    fun j small => traffic_held j (by omega)
  have stored := (slots_store moduleTiming_fits cold_powerUp traffic_clock (wired_answers asked)
    traffic_exclusive (by decide) traffic_begins 9 fun j small => beq_false_of_ne (by omega)).2
  have word : (cold.after traffic (8168 + 8 * 9)).word 0x2380000 = 0x0601 :=
    (word_of_served stored _).trans (by rfl)
  exact ⟨ready, dout.trans word⟩

/-- At every clock after the first: when the handshake says so, `dout` is the word at the
address presented. -/
theorem ready_word (fits : Fits T) (up : y.PowerUp) (clock : Chipset i p) (answers : Answers i y)
    (one : Exclusive i) (later : 0 < n) (ready : (y.after i n).ctl.ramReady (i n) = true) :
    (y.after i n).ctl.dout = (y.after i n).word (i n).addr := by
  by_cases early : n < 15 + 1
  · obtain ⟨n, rfl⟩ := Nat.exists_eq_succ_of_ne_zero (Nat.pos_iff_ne_zero.mp later)
    have off := doutValid_early (i := i) up (Nat.lt_of_succ_lt_succ early)
    rw [Sdram.ramReady, off] at ready
    exact absurd ready (by simp)
  · exact ready_cached fits up clock answers one (by omega) ready

theorem ready_word_traffic : (cold.after traffic (8224 + 20)).ctl.dout =
    (cold.after traffic (8224 + 20)).word 0x2380000 :=
  ready_word moduleTiming_fits cold_powerUp traffic_clock (wired_answers asked) traffic_exclusive
    (by decide)
    (read_ready cold_powerUp traffic_clock (by decide) traffic_normal (by decide) traffic_held)

end SdramSystem

/-! ## Refresh -/

namespace Sdram

variable {w : SdramIn} {s : Sdram} {d : Bool} {c : Chip}

/-- A slot begins that asks for nothing. -/
def Idle (w : SdramIn) (s : Sdram) : Prop := s.t = 0 ∧ (w.we || w.oe) = false

instance : Decidable (Idle w s) := inferInstanceAs (Decidable (_ ∧ _))

end Sdram

namespace SdramSystem

open Sdram (Chipset Fits)

variable {i : Nat → SdramIn} {p m : Nat} {y : SdramSystem} {T : Dram.Timing}

/-- An idle slot more, when the turn has changed with each of `q` before it. -/
theorem turns (q : Nat) (b d idle : Bool) :
    (q + if b = d then 1 else 0) / 2 + (if idle = true ∧ (b ^^ (q % 2 == 1)) = d then 1 else 0) =
        (q + (if idle then 1 else 0) + if b = d then 1 else 0) / 2 ∧
      (if idle then !(b ^^ (q % 2 == 1)) else b ^^ (q % 2 == 1)) =
        (b ^^ ((q + if idle then 1 else 0) % 2 == 1)) := by
  rcases Nat.mod_two_eq_zero_or_one q with even | odd
  · cases idle
    · simp
    · cases b <;> cases d <;> simp [even, Nat.add_mod] <;> omega
  · cases idle
    · simp
    · cases b <;> cases d <;> simp [odd, Nat.add_mod] <;> omega

end SdramSystem

end MacIIvi
