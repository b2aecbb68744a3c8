import MacIIvi.Sdram.Coherence

/-!
# The SDRAM slot by slot

Eight clocks of the controller are one step of a store: a write changes one word, a read
takes one and keeps it, and a slot that asks for nothing refreshes one of the chips.
-/

namespace MacIIvi

/-! ## The store -/

/-- What is asked of a store in one slot. -/
structure Request (A W : Type) where
  addr : A
  read : Bool
  write : Bool
  put : W → W

/-- Words, and the last one read as long as it is up to date. -/
@[ext]
structure WordStore (A W : Type) where
  mem : A → W
  last : Option (A × W)

namespace WordStore

variable {A W : Type} [DecidableEq A] (m : WordStore A W)

def serve (r : Request A W) : WordStore A W where
  mem := if r.write then Function.update m.mem r.addr (r.put (m.mem r.addr)) else m.mem
  last := if r.read then some (r.addr, m.mem r.addr) else if r.write then none else m.last

variable {m} in
theorem serve_word (r : Request A W) (a : A) :
    (m.serve r).mem a = if r.write = true ∧ a = r.addr then r.put (m.mem a) else m.mem a := by
  unfold serve
  dsimp only
  by_cases write : r.write = true
  · by_cases here : a = r.addr
    · rw [if_pos write, if_pos ⟨write, here⟩, here, Function.update_self]
    · rw [if_pos write, if_neg fun both => here both.2, Function.update_of_ne here]
  · rw [if_neg write, if_neg fun both => write both.1]

variable {m} in
theorem serve_read {r : Request A W} (read : r.read = true) :
    (m.serve r).last = some (r.addr, m.mem r.addr) := if_pos read

variable {m} in
theorem serve_other {r : Request A W} (none_ : ¬ r.read = true) :
    (m.serve r).last = if r.write then none else m.last := if_neg none_

/-- A word is what the writes to its own address have made of it, in their order. -/
theorem serve_mem (rs : List (Request A W)) (a : A) :
    (rs.foldl serve m).mem a =
      (rs.filter fun r => r.write && r.addr == a).foldl (fun x r => r.put x) (m.mem a) := by
  induction rs generalizing m with
  | nil => rfl
  | cons r rs ih =>
    rw [List.foldl_cons, ih, List.filter_cons, serve_word]
    by_cases hit : r.write = true ∧ a = r.addr
    · rw [if_pos hit, if_pos (by simp [hit.1, hit.2]), List.foldl_cons]
    · rw [if_neg hit, if_neg]
      rw [Bool.and_eq_true, beq_iff_eq]
      exact fun both => hit ⟨both.1, both.2.symm⟩

end WordStore

namespace Sdram

variable {w : SdramIn} {s : Sdram}

/-- The word that the handshake offers. -/
def cache (s : Sdram) : Option (BitVec 26 × BitVec 16) :=
  if s.doutValid then some (s.doutAddr, s.dout) else none

theorem start_cache : (s.start w).cache = if w.we then none else s.cache := by
  obtain ⟨-, -, dout, doutAddr, valid, -⟩ := start_keeps (s := s) (w := w)
  unfold cache
  rw [dout, doutAddr, valid]
  cases w.we <;> rfl

theorem column_cache : (s.column w).cache = s.cache := by
  obtain ⟨-, -, -, dout, doutAddr, valid, -⟩ := column_keeps (s := s) (w := w)
  unfold cache
  rw [dout, doutAddr, valid]

theorem arrive_cache :
    (s.arrive w).cache = if s.oeLatch then some (s.addrLatch, w.sdData) else s.cache := by
  unfold arrive
  split <;> rfl

end Sdram

namespace SdramSystem

open Sdram (Chipset Fits)

variable {i : Nat → SdramIn} {p n m : Nat} {y : SdramSystem} {T : Dram.Timing}

/-- The controller and its chips as a store. -/
def store (y : SdramSystem) : WordStore (BitVec 26) (BitVec 16) := ⟨y.word, y.ctl.cache⟩

/-- What a run of the store makes of a word. -/
theorem word_of_served {z : SdramSystem} {rs : List (Request (BitVec 26) (BitVec 16))}
    (served : z.store = rs.foldl WordStore.serve y.store) (a : BitVec 26) :
    z.word a =
      (rs.filter fun r => r.write && r.addr == a).foldl (fun x r => r.put x) (y.word a) :=
  (congrFun (congrArg WordStore.mem served) a).trans (WordStore.serve_mem _ rs a)

/-- What the slot that begins at clock `m` is asked for: the data and the strobes are those at
the column. -/
def request (i : Nat → SdramIn) (m : Nat) : Request (BitVec 26) (BitVec 16) where
  addr := (i m).addr
  read := (i m).oe
  write := (i m).we
  put := Sdram.masked (~~~(i (m + 2)).ds) (i (m + 2)).din

/-- The slot that began at clock `m`, `j` clocks later. -/
structure InSlot (i : Nat → SdramIn) (y : SdramSystem) (m j : Nat) : Prop where
  t : (y.after i (m + j)).ctl.t = j % 8
  normal : (y.after i (m + j)).ctl.reset = 0
  read : (y.after i (m + j)).ctl.oeLatch = (i m).oe
  write : (y.after i (m + j)).ctl.weLatch = (i m).we
  address : ((i m).we || (i m).oe) = true → (y.after i (m + j)).ctl.addrLatch = (i m).addr
  mem : ∀ a, (y.after i (m + j)).word a =
    if 3 ≤ j then ((y.after i m).store.serve (request i m)).mem a else (y.after i m).word a
  cache : (y.after i (m + j)).ctl.cache =
    if 7 ≤ j then ((y.after i m).store.serve (request i m)).last
    else if (i m).we then none else (y.after i m).ctl.cache

section Slot

variable (fits : Fits T) (up : y.PowerUp) (clock : Chipset i p) (answers : Answers i y)
  (one : Exclusive i) (late : 15 ≤ m) (begins : Begins (y.after i m).ctl)

include fits up clock late begins

theorem InSlot.first (calm : (i m).init = false) : InSlot i y m 1 := by
  have same : (y.after i (m + 1)).ctl = (y.after i m).ctl.start (i m) := by
    change (y.after i m).ctl.step (i m) = _
    rw [Sdram.step, if_neg (not_not.mpr begins.normal), if_pos begins.t]
  have tick := tick up clock late
  obtain ⟨oe, we, -⟩ := Sdram.start_keeps (s := (y.after i m).ctl) (w := i m)
  rw [← same] at oe we
  have normal : (y.after i (m + 1)).ctl.reset = 0 := by
    refine tick.reset.trans ?_
    rw [Sdram.resetNext, calm, begins.t, begins.normal]
    rfl
  refine ⟨?_, normal, oe, we, fun asked => ?_, fun a => ?_, ?_⟩
  · refine tick.t.trans ?_
    rw [begins.t]
  · rw [same]
    exact Sdram.start_address asked
  · refine word_kept fits up clock (fun write => ?_) a
    have := write.2.1
    have := begins.t
    omega
  · rw [same]
    exact Sdram.start_cache

include answers one

omit begins in
/-- A clock in the slot. -/
theorem InSlot.next {j : Nat} (slot : InSlot i y m j) (here : 1 ≤ j) (more : j < 8)
    (calm : (i (m + j)).init = false) : InSlot i y m (j + 1) := by
  have late' : 15 ≤ m + j := by omega
  have tick := tick up clock late'
  have t := slot.t
  rw [Nat.mod_eq_of_lt more] at t
  have next : (y.after i (m + (j + 1))).ctl.t = (j + 1) % 8 := by
    refine tick.t.trans ?_
    rw [t]
  have normal : (y.after i (m + (j + 1))).ctl.reset = 0 := by
    refine tick.reset.trans ?_
    rw [Sdram.resetNext, calm, slot.normal]
    simp
  have words : ∀ a, (y.after i (m + (j + 1))).word a =
      if (y.after i (m + j)).ctl.Writes ∧ a = (y.after i (m + j)).ctl.addrLatch then
        Sdram.masked (~~~(i (m + j)).ds) (i (m + j)).din ((y.after i (m + j)).word a)
      else (y.after i (m + j)).word a := word_step fits up clock (m + j)
  have writes : (y.after i (m + j)).ctl.Writes ↔ j = 2 ∧ (i m).we = true := by
    rw [Sdram.Writes, slot.normal, slot.write, t]
    simp
  have mem (a : BitVec 26) : (y.after i (m + (j + 1))).word a =
      if 3 ≤ j + 1 then ((y.after i m).store.serve (request i m)).mem a
      else (y.after i m).word a := by
    rw [words a, slot.mem a]
    by_cases column : j = 2
    · subst column
      rw [if_neg (show ¬ 3 ≤ 2 by decide), if_pos (show 3 ≤ 2 + 1 by decide), WordStore.serve_word]
      refine if_congr ?_ rfl rfl
      constructor
      · rintro ⟨write, same⟩
        obtain ⟨-, we⟩ := writes.1 write
        exact ⟨we, same.trans (slot.address (by rw [we]; rfl))⟩
      · rintro ⟨we, same⟩
        have we : (i m).we = true := we
        exact ⟨writes.2 ⟨rfl, we⟩, same.trans (slot.address (by rw [we]; rfl)).symm⟩
    · rw [if_neg fun both => column (writes.1 both.1).1]
      exact if_congr (by omega) rfl rfl
  -- `dout` takes the word that the coherence of the handshake has seen on its way
  have arrives (read : (i m).oe = true) (at_ : j = 6) :
      (i (m + j)).sdData = (y.after i m).word (i m).addr := by
    have noWrite : (i m).we = false := Bool.eq_false_iff.mpr fun write => one m ⟨read, write⟩
    have flying := (coherent fits up clock answers one late').flying slot.normal
      (slot.read.trans read) (by omega) (by omega)
    have asked : ((i m).we || (i m).oe) = true := by rw [read, Bool.or_true]
    rw [slot.address asked, slot.mem, if_pos (by omega), t, at_, WordStore.serve_word,
      if_neg fun both => absurd (noWrite.symm.trans both.1) (by decide)] at flying
    rw [at_]
    exact flying
  have cache (now : (y.after i (m + (j + 1))).ctl.cache =
      if j = 6 ∧ (i m).oe = true then some ((i m).addr, (i (m + j)).sdData)
      else (y.after i (m + j)).ctl.cache) : (y.after i (m + (j + 1))).ctl.cache =
      if 7 ≤ j + 1 then ((y.after i m).store.serve (request i m)).last
      else if (i m).we then none else (y.after i m).ctl.cache := by
    rw [now, slot.cache]
    by_cases taken : j = 6 ∧ (i m).oe = true
    · rw [if_pos taken, if_pos (by omega), arrives taken.2 taken.1]
      exact (WordStore.serve_read (m := (y.after i m).store) (r := request i m) taken.2).symm
    · rw [if_neg taken]
      by_cases last : j = 6
      · have noRead : ¬ (i m).oe = true := fun read => taken ⟨last, read⟩
        rw [if_neg (show ¬ 7 ≤ j by omega), if_pos (show 7 ≤ j + 1 by omega)]
        exact (WordStore.serve_other (m := (y.after i m).store) (r := request i m) noRead).symm
      · exact if_congr (by omega) rfl rfl
  have inside : ∀ s' : Sdram, (y.after i (m + (j + 1))).ctl = s' →
      s'.oeLatch = (y.after i (m + j)).ctl.oeLatch → s'.weLatch = (y.after i (m + j)).ctl.weLatch →
      s'.addrLatch = (y.after i (m + j)).ctl.addrLatch →
      s'.cache = (if j = 6 ∧ (i m).oe = true then some ((i m).addr, (i (m + j)).sdData)
        else (y.after i (m + j)).ctl.cache) → InSlot i y m (j + 1) := by
    rintro s' rfl oe we address now
    exact ⟨next, normal, oe.trans slot.read, we.trans slot.write,
      fun asked => address.trans (slot.address asked), mem, cache now⟩
  rcases Sdram.step_cases (s := (y.after i (m + j)).ctl) (w := i (m + j)) with ⟨busy, -⟩ |
    ⟨-, first, -⟩ | ⟨-, at_, same⟩ | ⟨-, at_, same⟩ | ⟨-, -, -, other, same⟩
  · exact absurd slot.normal busy
  · omega
  · obtain ⟨oe, we, address, -⟩ := Sdram.column_keeps (s := (y.after i (m + j)).ctl) (w := i (m + j))
    refine inside _ same oe we address (Sdram.column_cache.trans ?_)
    rw [if_neg (by omega)]
  · obtain ⟨oe, we, address, -⟩ := Sdram.arrive_keeps (s := (y.after i (m + j)).ctl) (w := i (m + j))
    refine inside _ same oe we address (Sdram.arrive_cache.trans ?_)
    rw [slot.read]
    by_cases read : (i m).oe = true
    · rw [if_pos read, if_pos ⟨by omega, read⟩, slot.address (by rw [read, Bool.or_true])]
    · rw [if_neg read, if_neg fun both => read both.2]
  · refine inside _ same rfl rfl rfl ?_
    rw [if_neg (by omega)]
    rfl

/-- All clocks of a slot. -/
theorem InSlot.all (calm : Calm i m 8) {j : Nat} (here : 1 ≤ j) (in_ : j ≤ 8) : InSlot i y m j := by
  induction j, here using Nat.le_induction with
  | base => exact InSlot.first fits up clock late begins (calm 0 (by decide))
  | succ j here ih =>
    exact (ih (by omega)).next fits up clock answers one late here (by omega)
      (calm j (by omega))

/-- A slot is a step of the store, and the next one follows. -/
theorem slot_store (calm : Calm i m 8) : Begins (y.after i (m + 8)).ctl ∧
    (y.after i (m + 8)).store = (y.after i m).store.serve (request i m) := by
  have done := InSlot.all fits up clock answers one late begins calm (j := 8) (by decide) (by decide)
  obtain ⟨t, normal, -, -, -, words, last⟩ := done
  rw [if_pos (show 7 ≤ 8 by decide)] at last
  generalize y.after i (m + 8) = z at t normal words last ⊢
  exact ⟨⟨t, normal⟩, WordStore.ext (funext fun a => (words a).trans (if_pos (by decide))) last⟩

/-- A run of slots is a run of the store. -/
theorem slots_store (k : Nat) (calm : Calm i m (8 * k)) : Begins (y.after i (m + 8 * k)).ctl ∧
    (y.after i (m + 8 * k)).store =
      ((List.range k).map fun j => request i (m + 8 * j)).foldl WordStore.serve (y.after i m).store := by
  induction k with
  | zero =>
    rw [Nat.mul_zero, Nat.add_zero]
    exact ⟨begins, rfl⟩
  | succ k ih =>
    obtain ⟨next, same⟩ := ih fun j small => calm j (by omega)
    have served := slot_store fits up clock answers one (show 15 ≤ m + 8 * k by omega) next
      fun j small => by
        rw [Nat.add_assoc]
        exact calm _ (by omega)
    rw [List.range_succ, List.map_append, List.foldl_append, ← same]
    exact served

/-- Over any number of slots a word becomes what the write slots to its own address make of it,
in their order and in the bytes of their strobes. -/
theorem slots_word (k : Nat) (calm : Calm i m (8 * k)) (a : BitVec 26) :
    (y.after i (m + 8 * k)).word a =
      (((List.range k).map fun j => request i (m + 8 * j)).filter fun r =>
        r.write && r.addr == a).foldl (fun x r => r.put x) ((y.after i m).word a) :=
  word_of_served (slots_store fits up clock answers one late begins k calm).2 a

end Slot

/-- The slots from clock 8168 on leave the words at two addresses, each put together from
three writes. -/
theorem slots_word_traffic :
    (cold.after traffic (8168 + 8 * 16)).word 0x2380000 = 0x0601 ∧
      (cold.after traffic (8168 + 8 * 16)).word 0x10 = 0x0e09 := by
  have word := slots_word (k := 16) moduleTiming_fits cold_powerUp traffic_clock
    (wired_answers asked) traffic_exclusive (by decide) traffic_begins
    fun j small => beq_false_of_ne (by omega)
  exact ⟨(word _).trans (by rfl), (word _).trans (by rfl)⟩

end SdramSystem

end MacIIvi
