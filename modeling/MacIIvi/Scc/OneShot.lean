import MacIIvi.Scc.Access
import Mathlib.Data.Nat.Find

/-!
# One operation for each access

An access of the bus is processed in its first `cen`, and what it leaves to be done is done
after it. The pointers of the channels are those that the accesses before have set.
-/

namespace MacIIvi

open Scc (Channel)

namespace Scc

/-! ## The accesses -/

/-- The access of clock `t` has had a `cen`. -/
def used (w : Nat → SccIn) : Nat → Bool
  | 0 => false
  | t + 1 => (w t).cs && (used w t || (w t).cen)

/-- The select has been seen low since the last access. -/
def released (w : Nat → SccIn) : Nat → Bool
  | 0 => true
  | t + 1 => !(w t).cs && (released w t || (w t).cen)

/-- The accesses of the CPU: each stays as it is and has a `cen`, and there is one between
two of them. -/
structure Bus (w : Nat → SccIn) : Prop where
  running : ∀ t, (w t).resetHw = false
  stable : ∀ t, (w t).cs = true → (w (t + 1)).cs = true →
    (w (t + 1)).we = (w t).we ∧ (w (t + 1)).rs1 = (w t).rs1 ∧ (w (t + 1)).rs0 = (w t).rs0 ∧
      (w (t + 1)).wdata = (w t).wdata
  long : ∀ t, (w t).cs = true → used w t = false →
    ∃ u, t ≤ u ∧ (∀ x, t ≤ x → x ≤ u → (w x).cs = true) ∧ (w u).cen = true
  apart : ∀ t, (w t).cs = false → (w (t + 1)).cs = true → released w (t + 1) = true

/-- The first `cen` of an access. -/
def first (w : Nat → SccIn) (t : Nat) : Bool := (w t).cs && (w t).cen && !used w t

/-- What an access is for. -/
inductive Action where
  | pointer (c : Channel) (n : Nat)
  | write (c : Channel) (n : Nat) (data : Byte)
  | read (c : Channel) (n : Nat)
  | pop (c : Channel)
  | send (c : Channel) (data : Byte)
  deriving DecidableEq, Repr

/-- The pointers as the accesses so far have left them: set by a write to WR0, used by the
access after it. The hardware reset command takes back both. -/
def pointer (w : Nat → SccIn) : Nat → Channel → Nat
  | 0, _ => 0
  | t + 1, c =>
    if first w t && !(w t).rs1 && (w t).we && decide (pointer w t (w t).side = 9) &&
        decide ((w t).wdata.extractLsb' 6 2 = 3) then 0
    else if first w t && (w t).control c then
      if (w t).we && decide (pointer w t c = 0) then pointerOf (w t).wdata else 0
    else pointer w t c

/-- The hardware reset command of WR9. -/
def hwCommand (w : Nat → SccIn) (t : Nat) : Bool :=
  first w t && !(w t).rs1 && (w t).we && decide (pointer w t (w t).side = 9) &&
    decide ((w t).wdata.extractLsb' 6 2 = 3)

/-- What the access of a clock is for, by the pointer of its channel. -/
def action (w : Nat → SccIn) (t : Nat) : Action :=
  let c := (w t).side
  if (w t).rs1 then if (w t).we then .send c (w t).wdata else .pop c
  else if (w t).we then
    if pointer w t c = 0 then .pointer c (pointerOf (w t).wdata)
    else .write c (pointer w t c) (w t).wdata
  else .read c (pointer w t c)

/-! ## What the controller does in a clock -/

section Performs

variable (w : SccIn) (s : Scc)

/-- The operations on a channel; those but the strobes of the write registers are in the
branch without a reset. -/
def performsOn (c : Channel) : List Action :=
  (if !s.reset w && s.writesPointer w c then [.pointer c (pointerOf w.wdata)] else []) ++
    (if s.writesRegister w c (s.rindexLatch w) && decide (s.rindexLatch w ≠ 0) then
      [.write c (s.rindexLatch w) w.wdata] else []) ++
    (if !s.reset w && s.readsRegister w c then [.read c (s.rindexLatch w)] else []) ++
    (if !s.reset w && s.flagsPop w c then [.pop c] else []) ++
    (if !s.reset w && s.writesData w c then [.send c w.wdata] else [])

def performs : List Action := s.performsOn w .a ++ s.performsOn w .b

end Performs

/-- The hardware reset command in a clock without a `cen`. -/
def EarlyReset (w : SccIn) (s : Scc) : Prop := s.reset w = true ∧ w.cen = false

/-! ## The invariant -/

/-- The state against the accesses so far. -/
structure Tracks (w : Nat → SccIn) (s : Scc) (t : Nat) : Prop where
  within : (w t).cs = true → s.csAccessDone = used w t
  outside : (w t).cs = false → released w t = true → s.csAccessDone = false
  state : ∀ c, s.state c = decide (s.rindex c ≠ 0)
  owed : ∀ c, s.pendingCleanup c = true →
    released w t = false ∧ pointer w t c = 0 ∧
      ((w t).cs = true → used w t = true ∧ (w t).control c = true)
  index : ∀ c, s.pendingCleanup c = false → s.rindex c = pointer w t c

variable {w : Nat → SccIn} {s : Scc} {t : Nat} {c : Channel}

theorem pointer_succ (t : Nat) (c : Channel) : pointer w (t + 1) c =
    if hwCommand w t then 0
    else if first w t && (w t).control c then
      if (w t).we && decide (pointer w t c = 0) then pointerOf (w t).wdata else 0
    else pointer w t c := rfl

theorem dataPort_iff : (w t).dataPort c = true ↔ (w t).rs1 = true ∧ (w t).side = c := by
  simp [SccIn.dataPort]

theorem pointerOf_ne_zero (data : Byte) : pointerOf data ≠ 0 ↔
    data.extractLsb' 0 3 ≠ 0 ∨ data.extractLsb' 3 3 = 1 := by
  have low : data.extractLsb' 0 3 = 0 ↔ (data.extractLsb' 0 3).toNat = 0 := BitVec.toNat_eq
  unfold pointerOf
  by_cases high : data.extractLsb' 3 3 = 1
  · simp [high]
  · rw [if_neg high, Nat.zero_add, ne_eq, ne_eq, ← low, or_iff_left high]

namespace Tracks

variable (tracks : s.Tracks w t)

include tracks

theorem processes_eq : s.processes (w t) = first w t := by
  cases cs : (w t).cs with
  | true => rw [processes, first, cs, tracks.within cs, Bool.and_true, Bool.true_and]
  | false => rw [processes, first, cs, Bool.and_false, Bool.false_and, Bool.false_and,
      Bool.false_and]

/-- At the first `cen` of an access nothing is left of the one before. -/
theorem fresh (start : used w t = false) (cs : (w t).cs = true) (c : Channel) :
    s.pendingCleanup c = false := by
  by_contra owed
  obtain ⟨-, -, inside⟩ := tracks.owed c (Bool.eq_true_of_not_eq_false owed)
  exact absurd (start.symm.trans (inside cs).1) Bool.false_ne_true

theorem latch_eq (start : used w t = false) (cs : (w t).cs = true) (port : (w t).rs1 = false) :
    s.rindexLatch (w t) = pointer w t (w t).side := by
  rw [rindexLatch, cs, port, tracks.index _ (tracks.fresh start cs _)]
  rfl

theorem wreg_eq : s.wreg (w t) c =
    ((w t).cs && !used w t && (w t).we && (w t).control c) := by
  cases cs : (w t).cs with
  | true =>
    rw [wreg, cs, tracks.within cs]
    cases (w t).we <;> cases (w t).control c <;> cases used w t <;> rfl
  | false => simp [wreg, cs]

/-- The strobe of a write register. -/
theorem writesRegister_eq (n : Nat) : s.writesRegister (w t) c n =
    (first w t && (w t).we && (w t).control c && decide (s.rindexLatch (w t) = n)) := by
  rw [writesRegister, tracks.wreg_eq, first]
  cases (w t).cen <;> cases (w t).cs <;> cases used w t <;> simp

theorem reset_eq (bus : Bus w) (clean : ¬ EarlyReset (w t) s) :
    s.reset (w t) = hwCommand w t := by
  have side : (s.wreg (w t) .a || s.wreg (w t) .b) =
      ((w t).cs && !used w t && (w t).we && !(w t).rs1) := by
    rw [tracks.wreg_eq, tracks.wreg_eq]
    cases rs0 : (w t).rs0 <;> simp [SccIn.control, SccIn.side, rs0]
  have wire : s.reset (w t) = ((w t).cs && !used w t && (w t).we && !(w t).rs1 &&
      decide (pointer w t (w t).side = 9) && decide ((w t).wdata.extractLsb' 6 2 = 3)) := by
    rw [reset, resetCommand, side, bus.running t, Bool.or_false]
    cases cs : (w t).cs with
    | false => simp
    | true =>
      cases start : used w t with
      | true => simp
      | false =>
        cases port : (w t).rs1 with
        | true => simp
        | false => rw [tracks.latch_eq start cs port]
  rw [wire, hwCommand, first]
  cases cen : (w t).cen with
  | true =>
    cases (w t).cs <;> cases used w t <;> cases (w t).we <;> cases (w t).rs1 <;> simp
  | false =>
    rw [← wire]
    simp only [Bool.and_false, Bool.false_and]
    exact Bool.eq_false_iff.mpr fun up => clean ⟨up, cen⟩

/-! ### One clock -/

variable (bus : Bus w) (clean : ¬ EarlyReset (w t) s)

include bus clean

theorem csAccessDone_next : (s.next (w t)).csAccessDone =
    if (w t).cs then used w t || (w t).cen else !(w t).cen && s.csAccessDone := by
  change s.csAccessDoneNext (w t) = _
  rw [csAccessDoneNext, tracks.reset_eq bus clean, tracks.processes_eq, bus.running t]
  cases cs : (w t).cs with
  | false => cases cen : (w t).cen <;> simp [hwCommand, first, cleansUp, cs, cen]
  | true =>
    rw [tracks.within cs]
    cases command : hwCommand w t with
    | true =>
      have cen : (w t).cen = true := by
        simp only [hwCommand, first, Bool.and_eq_true] at command
        exact command.1.1.1.1.1.2
      simp [cen]
    | false =>
      cases cen : (w t).cen <;> cases unused : used w t <;>
        simp [first, cleansUp, cs, cen, unused]

/-- A clock in which no access is processed. -/
theorem quiet_next (idle : first w t = false) (c : Channel) :
    (s.next (w t)).rindex c = (if cleansUp (w t) && s.pendingCleanup c then 0 else s.rindex c) ∧
      (s.next (w t)).state c =
        (if cleansUp (w t) && s.pendingCleanup c then false else s.state c) ∧
      (s.next (w t)).pendingCleanup c =
        (if cleansUp (w t) && s.pendingCleanup c then false else s.pendingCleanup c) := by
  have command : hwCommand w t = false := by simp [hwCommand, idle]
  have processes : s.processes (w t) = false := tracks.processes_eq.trans idle
  have reset : s.reset (w t) = false := (tracks.reset_eq bus clean).trans command
  refine ⟨?_, ?_, ?_⟩
  · change s.rindexNext (w t) c = _
    simp [rindexNext, writesPointer, processes, reset]
  · change s.stateNext (w t) c = _
    simp [stateNext, writesPointer, processes, reset]
  · change s.pendingCleanupNext (w t) c = _
    simp [pendingCleanupNext, processes, reset]

/-- The clock in which an access is processed, but for the reset command. -/
theorem first_next (start : first w t = true) (other : hwCommand w t = false) (c : Channel) :
    (s.next (w t)).rindex c =
        (if (w t).control c && (w t).we && decide (pointer w t c = 0) then pointerOf (w t).wdata
        else pointer w t c) ∧
      (s.next (w t)).state c = decide ((s.next (w t)).rindex c ≠ 0) ∧
      (s.next (w t)).pendingCleanup c =
        ((w t).control c && decide (pointer w t c ≠ 0)) := by
  have processes : s.processes (w t) = true := tracks.processes_eq.trans start
  have reset : s.reset (w t) = false := (tracks.reset_eq bus clean).trans other
  simp only [first, Bool.and_eq_true, Bool.not_eq_true'] at start
  obtain ⟨⟨cs, cen⟩, unused⟩ := start
  have noCleanup : cleansUp (w t) = false := by simp [cleansUp, cs]
  have fresh := tracks.fresh unused cs c
  have index := tracks.index c fresh
  have state := tracks.state c
  rw [index] at state
  have rindex : (s.next (w t)).rindex c =
      if (w t).control c && (w t).we && decide (pointer w t c = 0) then pointerOf (w t).wdata
      else pointer w t c := by
    change s.rindexNext (w t) c = _
    simp [rindexNext, writesPointer, processes, reset, noCleanup, index, state]
  refine ⟨rindex, ?_, ?_⟩
  · rw [rindex]
    change s.stateNext (w t) c = _
    have set_ : decide ((w t).wdata.extractLsb' 0 3 ≠ 0 ∨ (w t).wdata.extractLsb' 3 3 = 1) =
        decide (pointerOf (w t).wdata ≠ 0) := decide_eq_decide.mpr (pointerOf_ne_zero _).symm
    rw [stateNext, writesPointer, processes, reset, noCleanup, state, set_]
    cases (w t).control c <;> cases (w t).we <;> by_cases zero : pointer w t c = 0 <;> simp [zero]
  · change s.pendingCleanupNext (w t) c = _
    rw [pendingCleanupNext, processes, reset, noCleanup, state, fresh]
    cases (w t).control c <;> by_cases zero : pointer w t c = 0 <;> simp [zero]

/-- The pointers and what is owed to them, after a clock. -/
theorem pointers_next (c : Channel) :
    (s.next (w t)).state c = decide ((s.next (w t)).rindex c ≠ 0) ∧
      ((s.next (w t)).pendingCleanup c = true →
        released w (t + 1) = false ∧ pointer w (t + 1) c = 0 ∧
          ((w (t + 1)).cs = true → used w (t + 1) = true ∧ (w (t + 1)).control c = true)) ∧
      ((s.next (w t)).pendingCleanup c = false →
        (s.next (w t)).rindex c = pointer w (t + 1) c) := by
  have follows : (w t).cs = true → (w (t + 1)).cs = true →
      (w (t + 1)).control c = (w t).control c := by
    intro cs again
    obtain ⟨-, rs1, rs0, -⟩ := bus.stable t cs again
    have side : (w (t + 1)).side = (w t).side := by rw [SccIn.side, SccIn.side, rs0]
    rw [SccIn.control, SccIn.control, rs1, side]
  cases start : first w t with
  | false =>
    have command : hwCommand w t = false := by simp [hwCommand, start]
    have same : pointer w (t + 1) c = pointer w t c := by simp [pointer_succ, start, command]
    obtain ⟨rindex, state, owed⟩ := tracks.quiet_next bus clean start c
    rw [rindex, state, owed, same]
    cases before : s.pendingCleanup c with
    | false => simpa using ⟨by simpa using tracks.state c, tracks.index c before⟩
    | true =>
      obtain ⟨held, zero, inside⟩ := tracks.owed c before
      cases clean_ : cleansUp (w t) with
      | true => simp [zero]
      | false =>
        refine ⟨by simpa using tracks.state c, fun _ => ⟨?_, zero, fun again => ?_⟩, ?_⟩
        · cases cs : (w t).cs with
          | true => simp [released, cs]
          | false =>
            have cen : (w t).cen = false := by simpa [cleansUp, cs] using clean_
            simp [released, held, cen]
        · cases cs : (w t).cs with
          | true =>
            rw [follows cs again]
            simp [used, cs, (inside cs).1, (inside cs).2]
          | false =>
            have cen : (w t).cen = false := by simpa [cleansUp, cs] using clean_
            have free := bus.apart t cs again
            simp [released, held, cen] at free
        · simp
  | true =>
    have parts := start
    simp only [first, Bool.and_eq_true, Bool.not_eq_true'] at parts
    obtain ⟨⟨cs, cen⟩, unused⟩ := parts
    cases command : hwCommand w t with
    | true =>
      have reset : s.reset (w t) = true := (tracks.reset_eq bus clean).trans command
      have rindex : (s.next (w t)).rindex c = 0 := by
        change s.rindexNext (w t) c = 0
        simp [rindexNext, reset]
      have state : (s.next (w t)).state c = false := by
        change s.stateNext (w t) c = false
        simp [stateNext, reset]
      have owed : (s.next (w t)).pendingCleanup c = false := by
        change s.pendingCleanupNext (w t) c = false
        simp [pendingCleanupNext, reset]
      simp [rindex, state, owed, pointer_succ, command]
    | false =>
      obtain ⟨rindex, state, owed⟩ := tracks.first_next bus clean start command c
      have next_ : pointer w (t + 1) c =
          if (w t).control c then
            if (w t).we && decide (pointer w t c = 0) then pointerOf (w t).wdata else 0
          else pointer w t c := by
        simp [pointer_succ, start, command]
      refine ⟨state, fun up => ?_, fun down => ?_⟩
      · rw [owed, Bool.and_eq_true, decide_eq_true_eq] at up
        refine ⟨by simp [released, cs], by simp [next_, up.1, up.2], fun again => ?_⟩
        exact ⟨by simp [used, cs, cen], (follows cs again).trans up.1⟩
      · rw [owed] at down
        rw [rindex, next_]
        cases here : (w t).control c with
        | false => simp
        | true =>
          have zero : pointer w t c = 0 := by simpa [here] using down
          simp [zero]

theorem next : (s.next (w t)).Tracks w (t + 1) where
  within := by
    intro again
    rw [tracks.csAccessDone_next bus clean]
    cases cs : (w t).cs with
    | true => simp [used, cs]
    | false =>
      have free := bus.apart t cs again
      cases cen : (w t).cen with
      | true => simp [used, cs]
      | false =>
        have before : released w t = true := by simpa [released, cs, cen] using free
        simp [used, cs, tracks.outside cs before]
  outside := by
    intro low free
    rw [tracks.csAccessDone_next bus clean]
    have cs : (w t).cs = false := by
      by_contra cs
      simp [released, cs] at free
    cases cen : (w t).cen with
    | true => simp [cs]
    | false =>
      have before : released w t = true := by simpa [released, cs, cen] using free
      simp [cs, tracks.outside cs before]
  state c := (tracks.pointers_next bus clean c).1
  owed c := (tracks.pointers_next bus clean c).2.1
  index c := (tracks.pointers_next bus clean c).2.2

theorem performs_eq :
    s.performs (w t) = if first w t then [action w t] else [] := by
  have processes : s.processes (w t) = first w t := tracks.processes_eq
  have reset : s.reset (w t) = hwCommand w t := tracks.reset_eq bus clean
  have strobe : ∀ c n, s.writesRegister (w t) c n =
      (first w t && (w t).we && (w t).control c && decide (s.rindexLatch (w t) = n)) :=
    fun c n => tracks.writesRegister_eq n
  cases start : first w t with
  | false =>
    simp [performs, performsOn, writesPointer, readsRegister, flagsPop, writesData, processes,
      strobe, start]
  | true =>
    have parts := start
    simp only [first, Bool.and_eq_true, Bool.not_eq_true'] at parts
    obtain ⟨⟨cs, cen⟩, unused⟩ := parts
    have other : ∀ c, (w t).side ≠ c → s.performsOn (w t) c = [] := by
      intro c away
      have control : (w t).control c = false := by simp [SccIn.control, away]
      have dataPort : (w t).dataPort c = false := by simp [SccIn.dataPort, away]
      simp [performsOn, writesPointer, readsRegister, flagsPop, writesData, strobe, control,
        dataPort]
    have here : s.performsOn (w t) (w t).side = [action w t] := by
      have state : s.state (w t).side = decide (pointer w t (w t).side ≠ 0) := by
        rw [tracks.state, tracks.index _ (tracks.fresh unused cs _)]
      cases port : (w t).rs1 with
      | true =>
        have command : hwCommand w t = false := by simp [hwCommand, port]
        cases dir : (w t).we <;>
          simp [performsOn, writesPointer, readsRegister, flagsPop, writesData, strobe, processes,
            start, reset, command, SccIn.control, SccIn.dataPort, port, dir, action]
      | false =>
        have latch := tracks.latch_eq unused cs port
        cases dir : (w t).we with
        | false =>
          have command : hwCommand w t = false := by simp [hwCommand, dir]
          simp [performsOn, writesPointer, readsRegister, flagsPop, writesData, strobe, processes,
            start, reset, command, SccIn.control, SccIn.dataPort, port, dir, action, latch]
        | true =>
          by_cases zero : pointer w t (w t).side = 0
          · have command : hwCommand w t = false := by simp [hwCommand, zero]
            simp [performsOn, writesPointer, readsRegister, flagsPop, writesData, strobe,
              processes, start, reset, command, SccIn.control, SccIn.dataPort, port, dir, action,
              latch, zero, state]
          · simp [performsOn, writesPointer, readsRegister, flagsPop, writesData, strobe,
              processes, start, SccIn.control, SccIn.dataPort, port, dir, action,
              latch, zero, state]
    rw [performs, if_pos rfl]
    cases side : (w t).side with
    | a => rw [other .b (by simp [side]), ← side, here, List.append_nil]
    | b => rw [other .a (by simp [side]), ← side, here, List.nil_append]

end Tracks

/-- From the reset on, the state tracks the accesses. -/
theorem tracks_run (bus : Bus w) (clean : ∀ t, ¬ EarlyReset (w t) (run w t))
    (t : Nat) : (run w t).Tracks w t := by
  induction t with
  | zero =>
    exact
      { within := fun _ => rfl
        outside := fun _ _ => rfl
        state := fun _ => rfl
        owed := fun _ up => absurd up Bool.false_ne_true
        index := fun _ _ => rfl }
  | succ t ih => exact ih.next bus (clean t)

/-! ## The register of a read -/

theorem control_stable (bus : Bus w) {a : Nat} (from_ : a ≤ t)
    (cs : ∀ x, a ≤ x → x ≤ t → (w x).cs = true) :
    (w t).we = (w a).we ∧ (w t).rs1 = (w a).rs1 ∧ (w t).rs0 = (w a).rs0 := by
  induction t, from_ using Nat.le_induction with
  | base => exact ⟨rfl, rfl, rfl⟩
  | succ t from_ ih =>
    obtain ⟨we, rs1, rs0⟩ := ih fun x ge le => cs x ge (Nat.le_succ_of_le le)
    obtain ⟨we', rs1', rs0', -⟩ :=
      bus.stable t (cs t from_ (Nat.le_succ t)) (cs (t + 1) (by omega) (Nat.le_refl _))
    exact ⟨we'.trans we, rs1'.trans rs1, rs0'.trans rs0⟩

/-- A read leaves its pointer alone while it lasts. -/
theorem rindex_read {v : SccIn} (hard : v.resetHw = false) (cs : v.cs = true) (dir : v.we = false)
    (c : Channel) : (s.next v).rindex c = s.rindex c := by
  have reset : s.reset v = false := by simp [reset, resetCommand, wreg, dir, hard]
  change s.rindexNext v c = _
  simp [rindexNext, reset, writesPointer, dir, cleansUp, cs]

theorem used_start {a : Nat} (start : a = 0 ∨ (w (a - 1)).cs = false) : used w a = false := by
  cases a with
  | zero => rfl
  | succ a =>
    have low : (w a).cs = false := by simpa using start
    simp [used, low]

/-- A control read shows, as long as it lasts, the register that the pointer selects at its
start. -/
theorem selected (bus : Bus w) (tracks : ∀ t, (run w t).Tracks w t) {a : Nat}
    (from_ : a ≤ t) (start : a = 0 ∨ (w (a - 1)).cs = false)
    (cs : ∀ x, a ≤ x → x ≤ t → (w x).cs = true) (port : (w a).rs1 = false)
    (dir : (w a).we = false) :
    (run w t).rindexLatch (w t) = pointer w a (w a).side := by
  induction t, from_ using Nat.le_induction with
  | base =>
    exact (tracks a).latch_eq (used_start start) (cs a (Nat.le_refl a) (Nat.le_refl a)) port
  | succ t from_ ih =>
    have before := ih fun x ge le => cs x ge (Nat.le_succ_of_le le)
    have now := cs t from_ (Nat.le_succ t)
    have then_ := cs (t + 1) (by omega) (Nat.le_refl _)
    obtain ⟨we, rs1, rs0⟩ := control_stable bus from_ fun x ge le => cs x ge (Nat.le_succ_of_le le)
    obtain ⟨-, rs1', rs0', -⟩ := bus.stable t now then_
    have side : (w (t + 1)).side = (w t).side := by rw [SccIn.side, SccIn.side, rs0']
    have same : (run w (t + 1)).rindex (w t).side =
        (run w t).rindex (w t).side :=
      rindex_read (bus.running t) now (we.trans dir) _
    rw [← before, rindexLatch, rindexLatch, now, then_, side, same, rs1']

/-! ## The hardware reset command -/

theorem performs_done {v : SccIn} (done : s.csAccessDone = true) : s.performs v = [] := by
  simp [performs, performsOn, writesPointer, readsRegister, flagsPop, writesData, processes,
    writesRegister, wreg, done]

/-- While the select lasts, an access stays done. -/
theorem done_next {v : SccIn} (hard : v.resetHw = false) (cs : v.cs = true)
    (done : s.csAccessDone = true ∨ v.cen = true ∨ s.reset v = true) :
    (s.next v).csAccessDone = true := by
  change s.csAccessDoneNext v = true
  rw [csAccessDoneNext, hard]
  cases reset : s.reset v with
  | true => rfl
  | false =>
    rcases done with done | cen | up
    · simp [cleansUp, cs, processes, done]
    · cases before : s.csAccessDone <;> simp [cleansUp, cs, processes, cen, before]
    · exact absurd (reset.symm.trans up) Bool.false_ne_true

theorem done_of_used (bus : Bus w) (t : Nat) (up : used w t = true) :
    (s.after w t).csAccessDone = true := by
  induction t with
  | zero => exact absurd up Bool.false_ne_true
  | succ t ih =>
    simp only [used, Bool.and_eq_true, Bool.or_eq_true] at up
    exact done_next (bus.running t) up.1 (up.2.imp ih .inl)

/-- A reset command that comes before the first `cen` of its access takes that `cen` from
it. -/
theorem not_early (bus : Bus w)
    (acts : ∀ t, (s.after w t).performs (w t) = if first w t then [action w t] else []) (t : Nat) :
    ¬ EarlyReset (w t) (s.after w t) := by
  rintro ⟨up, cen⟩
  have open_ : (w t).cs = true ∧ (s.after w t).csAccessDone = false := by
    simp only [reset, resetCommand, bus.running t, Bool.or_false, Bool.and_eq_true,
      Bool.or_eq_true, wreg, Bool.not_eq_true'] at up
    rcases up.1.1 with side | side
    · exact ⟨side.1.1.1, side.2⟩
    · exact ⟨side.1.1.1, side.2⟩
  have unused : used w t = false := by
    refine Bool.eq_false_iff.mpr fun up => ?_
    exact absurd (open_.2.symm.trans (done_of_used bus t up)) Bool.false_ne_true
  obtain ⟨u, after_, cs, last⟩ := bus.long t open_.1 unused
  have some_ : ∃ k, (w (t + k)).cen = true := ⟨u - t, by rwa [Nat.add_sub_cancel' after_]⟩
  -- the first `cen` of the access
  have least := Nat.find_spec some_
  have none_ : ∀ j < Nat.find some_, (w (t + j)).cen = false := fun j lt =>
    Bool.eq_false_iff.mpr (Nat.find_min some_ lt)
  have inside : t + Nat.find some_ ≤ u := by
    have le : Nat.find some_ ≤ u - t := Nat.find_min' some_ (by rwa [Nat.add_sub_cancel' after_])
    omega
  generalize Nat.find some_ = k at least none_ inside
  have stays : ∀ j ≤ k, used w (t + j) = false ∧
      (0 < j → (s.after w (t + j)).csAccessDone = true) := by
    intro j le
    induction j with
    | zero => exact ⟨unused, fun pos => absurd pos (Nat.lt_irrefl 0)⟩
    | succ j ih =>
      obtain ⟨still, done⟩ := ih (by omega)
      have here : (w (t + j)).cs = true :=
        cs (t + j) (Nat.le_add_right t j) (Nat.le_trans (Nat.add_le_add_left (by omega) t) inside)
      refine ⟨by simp [used, still, none_ j (by omega)], fun _ => ?_⟩
      refine done_next (bus.running (t + j)) here ?_
      rcases Nat.eq_zero_or_pos j with rfl | pos
      · exact .inr (.inr up)
      · exact .inl (done pos)
  have positive : 0 < k := by
    rcases Nat.eq_zero_or_pos k with rfl | pos
    · exact absurd (cen.symm.trans least) Bool.false_ne_true
    · exact pos
  have begins : first w (t + k) = true := by
    simp [first, least, (stays k (Nat.le_refl k)).1, cs (t + k) (Nat.le_add_right t k) inside]
  have nothing := performs_done (v := w (t + k)) ((stays k (Nat.le_refl k)).2 positive)
  rw [acts, begins, if_pos rfl] at nothing
  exact absurd nothing (List.cons_ne_nil _ _)

end Scc

end MacIIvi
