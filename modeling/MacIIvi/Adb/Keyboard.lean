import MacIIvi.Adb.Answers
import MacIIvi.Clocked.Queue
import MacIIvi.Clocked.Run
import MacIIvi.Clocked.Strobe

/-!
# Keys from the strobe to the answer

Source: `rtl/adb_device.sv`, the FIFO push and Talk register 0 of the keyboard. The
ring has eight bytes and no flag for a full ring: with seven keys in it, one more
makes both pointers equal.
-/

namespace MacIIvi

namespace Adb

open Clocked (Strobe record record_succ Queue.entries Queue.entries_zero Queue.entries_pop
  Queue.entries_add Queue.entries_push Queue.length_entries)

/-- The keys of the answer on its way. -/
def Line.keys (l : Line) : List Byte :=
  if l.kbdTalk then l.answered.filter (· != 0xff) else []

namespace Device

variable {w : DeviceIn} {s n : Device}

/-! ### The stop bit -/

/-- How many keys a Talk takes out of the ring. -/
def takes (s : Device) : Nat :=
  if s.line.kbdTalk && !s.kbdFifoEmpty then if (s.kbdFifoRd + 1) % 8 ≠ s.kbdFifoWr then 2 else 1
  else 0

/-- The keys it takes. -/
def taken (s : Device) : List Byte := Queue.entries s.kbdFifo 8 s.kbdFifoRd s.takes

/-- A Talk takes the keys that it answers with. -/
theorem talk_keys (type : s.line.cmdType = 3) (line : n.line = { s.line with respLen := 0 })
    (rd : n.kbdFifoRd = s.kbdFifoRd) (low : s.kbdFifoRd < 8) :
    (s.talk n).kbdFifoRd = (s.kbdFifoRd + s.takes) % 8 ∧
      (s.talk n).line.kbdTalk = s.line.kbdTalk ∧
      (s.line.kbdTalk = true →
        (if (s.talk n).line.respLen == 2 then [(s.talk n).line.resp0, (s.talk n).line.resp1]
          else []).filter (· != 0xff) = s.taken.filter (· != 0xff)) := by
  have stay : (s.kbdFifoRd + 0) % 8 = s.kbdFifoRd := Nat.mod_eq_of_lt low
  have same : n.line.kbdTalk = s.line.kbdTalk := by rw [line]; rfl
  have off (silent : s.line.kbdTalk = false) : s.takes = 0 := by simp [takes, silent]
  unfold talk
  by_cases addr : s.line.cmdAddr = s.line.kbdAddr
  · rw [if_pos addr]
    have talks : s.line.kbdTalk = (s.line.cmdReg == 0) := by simp [Line.kbdTalk, type, addr]
    unfold talkKbd
    split
    · rename_i reg
      have silent : s.line.kbdTalk = false := by simp [talks, reg]
      rw [off silent, silent]
      exact ⟨rd.trans stay.symm, same.trans silent, fun on => absurd on (by decide)⟩
    · rename_i reg
      have silent : s.line.kbdTalk = false := by simp [talks, reg]
      rw [off silent, silent]
      exact ⟨rd.trans stay.symm, same.trans silent, fun on => absurd on (by decide)⟩
    · rename_i reg
      have talk : s.line.kbdTalk = true := by simp [talks, reg]
      cases empty : s.kbdFifoEmpty
      · by_cases two : (s.kbdFifoRd + 1) % 8 ≠ s.kbdFifoWr
        · have takes : s.takes = 2 := by simp [takes, talk, empty, two]
          have bytes : s.taken = [s.kbdFifo s.kbdFifoRd, s.kbdFifo ((s.kbdFifoRd + 1) % 8)] := by
            rw [taken, takes, Queue.entries_pop, Queue.entries_pop, Queue.entries_zero,
              Nat.mod_mod, Nat.mod_eq_of_lt low]
          rw [takes, bytes, if_pos (by simp), if_pos two]
          exact ⟨rfl, same, fun _ => rfl⟩
        · have takes : s.takes = 1 := by simp [takes, talk, empty, two]
          have bytes : s.taken = [s.kbdFifo s.kbdFifoRd] := by
            rw [taken, takes, Queue.entries_pop, Queue.entries_zero, Nat.mod_eq_of_lt low]
          rw [takes, bytes, if_pos (by simp), if_neg two]
          refine ⟨rfl, same, fun _ => ?_⟩
          simp [Line.answer, List.filter_cons]
      · have none_ : s.takes = 0 := by simp [takes, empty]
        have bytes : s.taken = [] := by rw [taken, none_, Queue.entries_zero]
        rw [none_, bytes, if_neg (by simp)]
        refine ⟨rd.trans stay.symm, same, fun _ => ?_⟩
        simp [line]
    · rename_i other
      have silent : s.line.kbdTalk = false := by
        rw [talks]
        simpa using other
      rw [off silent, silent]
      exact ⟨rd.trans stay.symm, same.trans silent, fun on => absurd on (by decide)⟩
  · have silent : s.line.kbdTalk = false := by simp [Line.kbdTalk, addr]
    rw [if_neg addr, off silent, silent]
    have away : (s.talkMouse n).kbdFifoRd = n.kbdFifoRd ∧
        (s.talkMouse n).line.kbdTalk = n.line.kbdTalk := by
      unfold talkMouse
      repeat' split
      all_goals exact ⟨rfl, rfl⟩
    split
    · exact ⟨away.1.trans (rd.trans stay.symm), away.2.trans (same.trans silent),
        fun on => absurd on (by decide)⟩
    · exact ⟨rd.trans stay.symm, same.trans silent, fun on => absurd on (by decide)⟩

/-- What the stop bit of a command does to the keyboard. -/
theorem stop_keys (line : n.line = s.line) (rd : n.kbdFifoRd = s.kbdFifoRd)
    (low : s.kbdFifoRd < 8) :
    (s.stop n).kbdFifoRd = (s.kbdFifoRd + s.takes) % 8 ∧
      (s.stop n).line.keys = s.taken.filter (· != 0xff) := by
  by_cases type : s.line.cmdType = 3
  · have noReset : s.isReset = false := by simp [isReset, type]
    have noListen : s.isListen = false := by simp [isListen, type]
    have isTalk : s.isTalk = true := by simp [isTalk, type]
    obtain ⟨rd', talk, keys⟩ := talk_keys (n := { n with line := { n.line with respLen := 0 } })
      type (by rw [line]) rd low
    simp only [stop, noReset, noListen, isTalk, Bool.false_eq_true, if_false, if_true]
    obtain ⟨answered, same, rd'', -, -⟩ :=
      over_line s (s.talk { n with line := { n.line with respLen := 0 } })
    refine ⟨rd''.trans rd', ?_⟩
    rw [Line.keys, same.kbdTalk, talk, answered]
    cases on : s.line.kbdTalk with
    | true => exact keys on
    | false =>
      have none_ : s.takes = 0 := by simp [takes, on]
      simp [taken, none_]
  · have silent : s.line.kbdTalk = false := by simp [Line.kbdTalk, type]
    have none_ : s.takes = 0 := by simp [takes, silent]
    have off {l : Line} (command : l.command = s.line.command) : l.keys = [] := by
      simp [Line.keys, Line.kbdTalk, Line.cmdType, command] at type ⊢
      simp [type]
    have noTalk : s.isTalk = false := by simp [isTalk, type]
    rw [taken, none_, Queue.entries_zero, List.filter_nil]
    simp only [stop, noTalk, Bool.false_eq_true, if_false]
    have command : n.line.command = s.line.command := by rw [line]
    have after_ : (s.over_ { n with line := { n.line with respLen := 0 } }).line.command =
        s.line.command := by
      unfold Device.over_
      split <;> exact command
    have stay : n.kbdFifoRd = (s.kbdFifoRd + 0) % 8 := rd.trans (Nat.mod_eq_of_lt low).symm
    split
    · exact ⟨stay, off command⟩
    split
    · exact ⟨stay, off command⟩
    · exact ⟨(over_line s _).2.2.1.trans stay, off after_⟩

/-! ### One clock -/

/-- The keys taken in this clock. -/
def takenNow (w : DeviceIn) (s : Device) : List Byte := if s.stops w then s.taken else []

/-- The keys of an answer that ends in this clock. -/
def returnedNow (s : Device) : List Byte := if s.line.finishes then s.line.keys else []

/-- The key put into the ring in this clock. -/
def pushedNow (s : Device) : List Byte := if s.key.pushes then [s.key.keyData] else []

def count (s : Device) : Nat := (s.kbdFifoWr + 8 - s.kbdFifoRd) % 8

/-- The keys in the ring. -/
def queued (s : Device) : List Byte := Queue.entries s.kbdFifo 8 s.kbdFifoRd s.count

/-- The ring is about to be taken for empty. -/
def Overflows (w : DeviceIn) (s : Device) : Prop :=
  s.key.pushes = true ∧ s.count = 7 ∧ s.takenNow w = []

instance : Decidable (Overflows w s) := inferInstanceAs (Decidable (_ ∧ _))

structure Ring (s : Device) : Prop where
  rd : s.kbdFifoRd < 8
  wr : s.kbdFifoWr < 8
  keys : ∀ e ∈ s.queued, e ≠ 0xff

/-- The answers. -/
theorem next_keys (run : w.reset = false) (ring : s.Ring) :
    s.returnedNow ++ (next w s).line.keys = s.line.keys ++ (s.takenNow w).filter (· != 0xff) := by
  have flight := next_answer (w := w) (s := s) Line.keys run
    (fun l empty => by simp [Line.keys, empty])
    (fun l l' same answered => by rw [Line.keys, Line.keys, same.kbdTalk, answered])
  rw [returnedNow, flight, takenNow]
  cases stop : s.stops w with
  | true => rw [if_pos rfl, if_pos rfl, (stop_keys (stops_line stop) rfl ring.rd).2]
  | false => rfl

theorem next_rd (run : w.reset = false) (ring : s.Ring) :
    (next w s).kbdFifoRd = (s.kbdFifoRd + (s.takenNow w).length) % 8 := by
  rw [next_run run, takenNow]
  cases stop : s.stops w with
  | true =>
    rw [if_pos rfl, if_pos rfl, (stop_keys (stops_line stop) rfl ring.rd).1, taken,
      Queue.length_entries]
  | false =>
    rw [if_neg Bool.false_ne_true, if_neg Bool.false_ne_true]
    exact (Nat.mod_eq_of_lt ring.rd).symm

theorem takes_le (ring : s.Ring) : s.takes ≤ s.count := by
  have rd := ring.rd
  have wr := ring.wr
  unfold takes count
  split
  · rename_i some_
    have apart : s.kbdFifoRd ≠ s.kbdFifoWr := by
      simp only [Bool.and_eq_true, Bool.not_eq_true', kbdFifoEmpty, beq_eq_false_iff_ne] at some_
      exact some_.2
    split <;> omega
  · exact Nat.zero_le _

theorem takenNow_entries (ring : s.Ring) :
    s.takenNow w = Queue.entries s.kbdFifo 8 s.kbdFifoRd (s.takenNow w).length ∧
      (s.takenNow w).length ≤ s.count := by
  unfold takenNow
  split
  · rw [taken, Queue.length_entries]
    exact ⟨rfl, takes_le ring⟩
  · exact ⟨rfl, Nat.zero_le _⟩

/-- A pushed key is not `0xff`. -/
theorem pushed_ne {e : Byte} (mem : e ∈ s.pushedNow) : e ≠ 0xff := by
  unfold pushedNow at mem
  split at mem
  · rename_i push
    rw [List.mem_singleton] at mem
    subst mem
    intro ff
    simp [KeySync.pushes, ff] at push
  · simp at mem

/-- The ring in one clock: what is put in comes behind what is not taken out. -/
theorem next_queue (run : w.reset = false) (ring : s.Ring) :
    (next w s).Ring ∧
      (¬ Overflows w s → s.queued ++ s.pushedNow = s.takenNow w ++ (next w s).queued) ∧
      (Overflows w s → (next w s).queued = []) := by
  obtain ⟨-, -, fifo, wr, -⟩ := next_frame (s := s) run
  have rd := next_rd run ring
  obtain ⟨front, few⟩ := takenNow_entries (w := w) ring
  have low := ring.rd
  have high := ring.wr
  generalize hk : (s.takenNow w).length = k at rd front few
  obtain ⟨m, total⟩ : ∃ m, s.count = k + m := ⟨s.count - k, by omega⟩
  have parts : s.queued = s.takenNow w ++ Queue.entries s.kbdFifo 8 ((s.kbdFifoRd + k) % 8) m := by
    rw [queued, total, Queue.entries_add, ← front]
  have rest_ne : ∀ e ∈ Queue.entries s.kbdFifo 8 ((s.kbdFifoRd + k) % 8) m, e ≠ 0xff := by
    intro e mem
    exact ring.keys e (by rw [parts]; exact List.mem_append_right _ mem)
  have behind : s.kbdFifoWr = ((s.kbdFifoRd + k) % 8 + m) % 8 := by
    unfold count at total
    omega
  cases push : s.key.pushes with
  | false =>
    have fits : ¬ Overflows w s := fun ⟨on, _⟩ => by simp [push] at on
    have wr' : (next w s).kbdFifoWr = s.kbdFifoWr := by rw [wr]; simp [free, push]
    have fifo' : (next w s).kbdFifo = s.kbdFifo := by rw [fifo]; simp [free, push]
    have count' : (next w s).count = m := by
      unfold count at total ⊢
      rw [wr', rd]
      omega
    have queued' : (next w s).queued = Queue.entries s.kbdFifo 8 ((s.kbdFifoRd + k) % 8) m := by
      rw [queued, fifo', rd, count']
    refine ⟨⟨?_, ?_, ?_⟩, fun _ => ?_, fun bad => absurd bad fits⟩
    · rw [rd]
      exact Nat.mod_lt _ (by decide)
    · rwa [wr']
    · rw [queued']
      exact rest_ne
    · rw [queued', pushedNow, push, if_neg Bool.false_ne_true, List.append_nil, parts]
  | true =>
    have wr' : (next w s).kbdFifoWr = (s.kbdFifoWr + 1) % 8 := by rw [wr]; simp [free, push]
    have fifo' : (next w s).kbdFifo =
        Function.update s.kbdFifo (((s.kbdFifoRd + k) % 8 + m) % 8) s.key.keyData := by
      rw [fifo, ← behind]
      simp [free, push]
    have pushed : s.pushedNow = [s.key.keyData] := by simp [pushedNow, push]
    have rd_lt : (next w s).kbdFifoRd < 8 := by
      rw [rd]
      exact Nat.mod_lt _ (by decide)
    have wr_lt : (next w s).kbdFifoWr < 8 := by
      rw [wr']
      exact Nat.mod_lt _ (by decide)
    by_cases full : m = 7
    · have none_ : k = 0 := by
        unfold count at total
        omega
      have bad : Overflows w s := ⟨push, by omega, List.eq_nil_of_length_eq_zero (hk.trans none_)⟩
      have count' : (next w s).count = 0 := by
        unfold count at total ⊢
        rw [wr', rd]
        omega
      have empty : (next w s).queued = [] := by rw [queued, count', Queue.entries_zero]
      exact ⟨⟨rd_lt, wr_lt, by simp [empty]⟩, fun fits => absurd bad fits, fun _ => empty⟩
    · have fits : ¬ Overflows w s := by
        rintro ⟨-, seven, none_⟩
        have zero : k = 0 := by rw [← hk, none_, List.length_nil]
        omega
      have count' : (next w s).count = m + 1 := by
        unfold count at total ⊢
        rw [wr', rd]
        omega
      have queued' : (next w s).queued =
          Queue.entries s.kbdFifo 8 ((s.kbdFifoRd + k) % 8) m ++ s.pushedNow := by
        rw [queued, fifo', rd, count', pushed, Queue.entries_push]
        unfold count at total
        omega
      refine ⟨⟨rd_lt, wr_lt, ?_⟩, fun _ => ?_, fun bad => absurd bad fits⟩
      · rw [queued']
        intro e mem
        rcases List.mem_append.mp mem with old | new
        · exact rest_ne e old
        · exact pushed_ne new
      · rw [queued', parts, List.append_assoc]

/-! ### Runs -/

/-- The keyboard port in the clock of the reset and after it. -/
def sample (w : DeviceIn) (ins : Nat → DeviceIn) : Nat → BitVec 11
  | 0 => w.ps2Key
  | u + 1 => (ins u).ps2Key

end Device

/-- The key of a strobe that changes after sample `u`. The code is read one sample
behind the strobe. -/
def struck (smp : Nat → BitVec 11) (u : Nat) : Option Byte :=
  let raw := smp (u + 2)
  let code := keyCode (raw.extractLsb' 0 9)
  if (smp u).getLsbD 10 != (smp (u + 1)).getLsbD 10 && code != 0x7f then
    some (BitVec.ofBool (!raw.getLsbD 9) ++ code)
  else none

namespace Device

/-- The synchronizer shows the samples. -/
structure Synced (smp : Nat → BitVec 11) (t : Nat) (k : KeySync) : Prop where
  strobe : Strobe (fun u => (smp u).getLsbD 10) t k.kstbS1 k.kstbS2 k.kstbS3 k.kstbD
  raw1 : 1 ≤ t → k.keyRawS1 = (smp t).extractLsb' 0 10
  raw2 : 2 ≤ t → k.keyRawS2 = (smp (t - 1)).extractLsb' 0 10
  pushed : (if k.pushes then [k.keyData] else []) =
    if 4 ≤ t then (struck smp (t - 4)).toList else []

section

variable {fifo : Nat → Byte} {ins : Nat → DeviceIn} {t : Nat}

theorem Synced.next {smp : Nat → BitVec 11} {k : KeySync} (synced : Synced smp t k)
    (port : w.ps2Key = smp (t + 1)) : Synced smp (t + 1) (k.next w) := by
  have frame : (k.next w).kstbS1 = w.ps2Key.getLsbD 10 ∧ (k.next w).kstbS2 = k.kstbS1 ∧
      (k.next w).kstbS3 = k.kstbS2 ∧
      (k.next w).kstbD = (if k.kstbS3 != k.kstbD then k.kstbS3 else k.kstbD) ∧
      (k.next w).keyRawS1 = w.ps2Key.extractLsb' 0 10 ∧ (k.next w).keyRawS2 = k.keyRawS1 := by
    unfold KeySync.next KeySync.keyEdge
    cases k.kstbS3 != k.kstbD <;> exact ⟨rfl, rfl, rfl, rfl, rfl, rfl⟩
  obtain ⟨f1, f2, f3, d, r1, r2⟩ := frame
  refine ⟨?_, fun _ => ?_, fun late => ?_, ?_⟩
  · rw [f2, f3]
    exact synced.strobe.next (f1.trans (by rw [port])) d
  · rw [r1, port]
  · rw [r2, synced.raw1 (by omega)]
    rfl
  · have edge : k.keyEdge = _ := synced.strobe.edge
    by_cases late : 3 ≤ t
    · obtain ⟨u, rfl⟩ : ∃ u, t = u + 3 := ⟨t - 3, by omega⟩
      have raw : k.keyRawS2 = (smp (u + 2)).extractLsb' 0 10 := synced.raw2 (by omega)
      have sc : k.keySc = (smp (u + 2)).extractLsb' 0 9 := by
        rw [KeySync.keySc, raw]
        ext i
        simp
      have press : k.press = (smp (u + 2)).getLsbD 9 := by
        rw [KeySync.press, raw]
        simp
      have here : u + 3 + 1 - 4 = u := by omega
      rw [if_pos (by omega : 4 ≤ u + 3 + 1), here, struck]
      simp only [late, decide_true, Bool.true_and, Nat.add_sub_cancel] at edge
      simp only [KeySync.next, edge]
      cases strobe : ((smp u).getLsbD 10 != (smp (u + 1)).getLsbD 10)
      · simp [KeySync.pushes]
      · simp only [if_true, KeySync.pushes, KeySync.decoded, low_seven, sc, press, Bool.true_and]
        split <;> rfl
    · rw [if_neg (by omega : ¬ 4 ≤ t + 1)]
      simp [KeySync.next, edge, late, KeySync.pushes]

variable (fifo) in
theorem synced_after (run : ∀ u < t, (ins u).reset = false) :
    Synced (sample w ins) t (after w fifo ins t).key := by
  induction t with
  | zero => exact ⟨.start _, fun h => absurd h (by decide), fun h => absurd h (by decide), rfl⟩
  | succ t ih =>
    have here := (ih fun u low => run u (by omega)).next (w := ins t) rfl
    have frame := (next_frame (s := after w fifo ins t) (run t (Nat.lt_succ_self t))).1
    rw [after, frame]
    exact here

theorem ring_after (run : ∀ u < t, (ins u).reset = false) : (after w fifo ins t).Ring := by
  induction t with
  | zero =>
    exact ⟨Nat.succ_pos 7, Nat.succ_pos 7, fun e mem => by
      simp [after, queued, count, reset] at mem⟩
  | succ t ih =>
    exact (next_queue (run t (Nat.lt_succ_self t)) (ih fun u low => run u (by omega))).1

/-- The keys struck, as far as they have passed the decoder. -/
def decoded (w : DeviceIn) (ins : Nat → DeviceIn) (t : Nat) : List Byte :=
  record (struck (sample w ins)) 0 (t - 4)

/-- The bytes that the keyboard has returned, without `0xff`. -/
def returned (w : DeviceIn) (fifo : Nat → Byte) (ins : Nat → DeviceIn) : Nat → List Byte
  | 0 => []
  | t + 1 => returned w fifo ins t ++ (after w fifo ins t).returnedNow

/-- The keys returned, on their way and waiting. -/
def handled (w : DeviceIn) (fifo : Nat → Byte) (ins : Nat → DeviceIn) (t : Nat) : List Byte :=
  returned w fifo ins t ++ (after w fifo ins t).line.keys ++ (after w fifo ins t).queued

variable (fifo) in
theorem decoded_succ (run : ∀ u < t, (ins u).reset = false) :
    decoded w ins (t + 1) = decoded w ins t ++ (after w fifo ins t).pushedNow := by
  have pushed := (synced_after (w := w) fifo run).pushed
  rw [pushedNow, pushed, decoded, decoded]
  split
  · rename_i late
    have next : t + 1 - 4 = t - 4 + 1 := by omega
    rw [next, record_succ (Nat.zero_le _)]
  · rename_i early
    have zero : t - 4 = 0 := by omega
    have zero' : t + 1 - 4 = 0 := by omega
    rw [zero, zero', List.append_nil]

/-- One clock: a key put in comes behind everything that is under way. -/
theorem handled_succ (run : ∀ u < t + 1, (ins u).reset = false) :
    (¬ Overflows (ins t) (after w fifo ins t) →
      handled w fifo ins (t + 1) = handled w fifo ins t ++ (after w fifo ins t).pushedNow) ∧
    (Overflows (ins t) (after w fifo ins t) →
      handled w fifo ins t = handled w fifo ins (t + 1) ++ (after w fifo ins t).queued ∧
        (after w fifo ins t).queued.length = 7) := by
  have go := run t (Nat.lt_succ_self t)
  have ring : (after w fifo ins t).Ring := ring_after fun u low => run u (by omega)
  have keys := next_keys go ring
  obtain ⟨-, fits, spills⟩ := next_queue go ring
  have front : ((after w fifo ins t).takenNow (ins t)).filter (· != 0xff) =
      (after w fifo ins t).takenNow (ins t) := by
    rw [List.filter_eq_self]
    intro e mem
    obtain ⟨entries, few⟩ := takenNow_entries (w := ins t) ring
    have before : e ∈ (after w fifo ins t).queued := by
      rw [queued, ← Nat.add_sub_cancel' few, Queue.entries_add, ← entries]
      exact List.mem_append_left _ mem
    simpa using ring.keys e before
  rw [front] at keys
  simp only [handled, returned, after]
  generalize after w fifo ins t = s at *
  constructor
  · intro fit
    rw [List.append_assoc (returned w fifo ins t), keys, ← List.append_assoc,
      List.append_assoc _ _ (next (ins t) s).queued, ← fits fit, ← List.append_assoc]
  · intro spill
    have none_ := spill.2.2
    rw [none_, List.append_nil] at keys
    rw [spills spill, List.append_nil, List.append_assoc (returned w fifo ins t) s.returnedNow,
      keys]
    refine ⟨rfl, ?_⟩
    rw [queued, Queue.length_entries]
    exact spill.2.1

/-- No key before clock `t` came on a ring with seven keys, unless a Talk took some. -/
def Fits (w : DeviceIn) (fifo : Nat → Byte) (ins : Nat → DeviceIn) (t : Nat) : Prop :=
  ∀ u < t, ¬ Overflows (ins u) (after w fifo ins u)

/-- What is put in is handled, in order. -/
theorem handled_fits (run : ∀ u < t, (ins u).reset = false) (fits : Fits w fifo ins t) :
    handled w fifo ins t = decoded w ins t := by
  induction t with
  | zero => simp [handled, returned, decoded, after, reset, queued, count, Line.keys, Line.kbdTalk,
      Line.cmdType]
  | succ t ih =>
    rw [(handled_succ run).1 (fits t (Nat.lt_succ_self t)),
      ih (fun u low => run u (by omega)) (fun u low => fits u (by omega)),
      decoded_succ fifo fun u low => run u (by omega)]

/-- Once the ring has overflowed, eight keys are missing. -/
theorem handled_short (run : ∀ u < t, (ins u).reset = false) :
    (handled w fifo ins t).length ≤ (decoded w ins t).length ∧
      (¬ Fits w fifo ins t →
        (handled w fifo ins t).length + 8 ≤ (decoded w ins t).length) := by
  induction t with
  | zero => exact ⟨by rw [handled_fits run fun _ low => absurd low (Nat.not_lt_zero _)],
      fun bad => absurd (fun _ low => absurd low (Nat.not_lt_zero _)) bad⟩
  | succ t ih =>
    obtain ⟨short, eight⟩ := ih fun u low => run u (by omega)
    have before : ∀ u < t, (ins u).reset = false := fun u low => run u (by omega)
    rw [decoded_succ fifo before, List.length_append]
    by_cases spill : Overflows (ins t) (after w fifo ins t)
    · obtain ⟨lost, seven⟩ := (handled_succ run).2 spill
      have length := congrArg List.length lost
      rw [List.length_append] at length
      have one : ((after w fifo ins t).pushedNow).length = 1 := by simp [pushedNow, spill.1]
      omega
    · rw [(handled_succ run).1 spill, List.length_append]
      refine ⟨by omega, fun bad => ?_⟩
      have earlier : ¬ Fits w fifo ins t := by
        intro fits
        refine bad fun u low => ?_
        rcases Nat.lt_succ_iff_lt_or_eq.mp low with lt | rfl
        · exact fits u lt
        · exact spill
      have missing := eight earlier
      omega

/-- The keyboard reports what is struck, in order and once, and what it has been given
is not taken back. That fewer than eight keys wait needs no premise: the ring never shows
more than seven. -/
structure Reports (w : DeviceIn) (fifo : Nat → Byte) (ins : Nat → DeviceIn) (t : Nat) : Prop where
  exact_ : handled w fifo ins t = decoded w ins t
  kept : ∀ v ≤ t, ∀ u ≤ v, handled w fifo ins u <+: handled w fifo ins v

/-- **Keyboard events.** The keyboard reports the keys struck exactly when none comes
while seven wait and none is taken. -/
theorem keys_reported_iff (run : ∀ u < t, (ins u).reset = false) :
    Reports w fifo ins t ↔ Fits w fifo ins t := by
  constructor
  · intro reports
    by_contra bad
    have missing := (handled_short run).2 bad
    rw [reports.exact_] at missing
    omega
  · intro fits
    refine ⟨handled_fits run fits, fun v before u low => ?_⟩
    induction v, low using Nat.le_induction with
    | base => exact List.prefix_refl _
    | succ v low ih =>
      rw [(handled_succ fun x lt => run x (by omega)).1 (fits v (by omega))]
      exact (ih (by omega)).trans (List.prefix_append _ _)

end

end Device

/-- A host that never polls, and key A struck every sixteen clocks. -/
def typing (t : Nat) : DeviceIn :=
  { ps2Key := BitVec.ofBool (t / 16 % 2 == 1) ++ BitVec.ofBool true ++ 0x1c#9 }

/-- The eighth key that waits empties the ring. -/
theorem keys_lost : ¬ Device.Reports {} (fun _ => 0) typing 140 := by
  intro reports
  have same := congrArg List.length reports.exact_
  exact absurd same (by decide +kernel)

theorem keys_reported_typing :
    Device.Reports {} (fun _ => 0) typing 100 := by
  have run : ∀ u < 100, (typing u).reset = false := fun _ _ => rfl
  exact (Device.keys_reported_iff run).mpr (by unfold Device.Fits; decide +kernel)

end Adb

end MacIIvi
