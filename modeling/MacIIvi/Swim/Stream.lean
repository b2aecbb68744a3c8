import MacIIvi.Clocked.Queue
import MacIIvi.Swim.Controller

/-!
# The ISM read stream

The bytes that a read pops between its arm and its end, against the bytes the
drive delivered. The FIFO and the staging ring are read as one queue; each tick
appends at most the delivered byte and removes at most the popped one.
-/

namespace MacIIvi

namespace Swim

open Clocked

namespace IsmFifo

/-- The queue, oldest byte first. -/
def contents (f : IsmFifo) : List (BitVec 16) :=
  [f.entry0, f.entry1].take f.pos ++ Queue.entries f.stage 16 f.stageRd f.stageCnt

/-- The fill levels fit, and the two ring pointers are `stageCnt` apart. -/
structure Sound (f : IsmFifo) : Prop where
  pos : f.pos ≤ 2
  cnt : f.stageCnt ≤ 16
  rd : f.stageRd < 16
  wr : f.stageWr = (f.stageRd + f.stageCnt) % 16

variable {f : IsmFifo}

theorem clear_sound (f : IsmFifo) : f.clear.Sound := by
  constructor <;> simp [clear]

@[simp] theorem clear_contents (f : IsmFifo) : f.clear.contents = [] := by
  simp [clear, contents]

theorem Sound.stagePut (h : f.Sound) (free : f.stageCnt ≠ 16) (e : BitVec 16) :
    (f.stagePut e).Sound := by
  obtain ⟨pos, cnt, rd, wr⟩ := h
  constructor <;> simp only [IsmFifo.stagePut] <;> omega

theorem Sound.drain (h : f.Sound) (staged : f.stageCnt ≠ 0) (room : f.pos < 2) (e : BitVec 16) :
    (f.drain e).Sound := by
  obtain ⟨pos, cnt, rd, wr⟩ := h
  unfold IsmFifo.drain append
  split <;> constructor <;> simp only <;> omega

theorem Sound.pop (h : f.Sound) : f.pop.Sound := by
  obtain ⟨pos, cnt, rd, wr⟩ := h
  constructor <;> simp only [IsmFifo.pop] <;> omega

theorem Sound.append (h : f.Sound) (room : f.pos < 2) (e : BitVec 16) : (f.append e).Sound := by
  obtain ⟨pos, cnt, rd, wr⟩ := h
  unfold IsmFifo.append
  split <;> constructor <;> simp only <;> omega

theorem Sound.empty (h : f.Sound) : ({ f with pos := 0 } : IsmFifo).Sound := by
  obtain ⟨pos, cnt, rd, wr⟩ := h
  constructor <;> simp only <;> omega

theorem contents_stagePut (h : f.Sound) (free : f.stageCnt ≠ 16) (e : BitVec 16) :
    (f.stagePut e).contents = f.contents ++ [e] := by
  have room : f.stageCnt < 16 := by
    have := h.cnt
    omega
  have count : (f.stageCnt + 1) % 32 = f.stageCnt + 1 := by omega
  simp only [contents, IsmFifo.stagePut, count, h.wr, Queue.entries_push _ _ room, List.append_assoc]

/-- The oldest staged entry moves from the ring to the FIFO. -/
theorem contents_drain (h : f.Sound) (staged : f.stageCnt ≠ 0) (room : f.pos < 2) :
    (f.drain (f.stage f.stageRd)).contents = f.contents := by
  obtain ⟨count, hcount⟩ := Nat.exists_eq_succ_of_ne_zero staged
  have left : (f.stageCnt + 31) % 32 = count := by
    have := h.cnt
    omega
  have here : f.stageRd % 16 = f.stageRd := Nat.mod_eq_of_lt h.rd
  have pos : f.pos = 0 ∨ f.pos = 1 := by omega
  unfold contents
  rw [hcount, Queue.entries_pop, here]
  rcases pos with pos | pos <;> simp [IsmFifo.drain, append, pos, left]

theorem contents_pop (h : f.Sound) (full : f.pos ≠ 0) :
    f.contents = f.entry0 :: f.pop.contents := by
  have pos : f.pos = 1 ∨ f.pos = 2 := by
    have := h.pos
    omega
  rcases pos with pos | pos <;> simp [IsmFifo.pop, contents, pos]

end IsmFifo

/-! ### The events of a tick -/

/-- The word of the byte that the selected drive delivers. -/
def delivered (x : Tick) : Option (BitVec 16) :=
  if x.1.mfmSel.mfmStb then some (genWord x.1.mfmSel) else none

/-- The word that the CPU pops. -/
def popped (x : Tick) : Option (BitVec 16) :=
  if !x.1.rst && popReq x.1 x.2 && x.2.fifo.pos != 0 then some x.2.fifo.entry0 else none

/-- The word that enters the staging ring. -/
def staged (x : Tick) : Option (BitVec 16) :=
  if stagePush x.1 x.2 then some (genWord x.1.mfmSel) else none

/-- A delivered byte finds the ring full and is dropped. -/
def overruns (x : Tick) : Bool := genPush x.1 x.2 && x.2.fifo.stageCnt == 16

/-- The overrun bit of the error register. -/
def overrunBit (x : Tick) : Bool := x.2.ism.ismError.getLsbD 0

/-- A tick of a read: it is neither disarmed nor cleared, and the CPU neither
pushes into the FIFO nor writes the setup register. -/
structure Reads (x : Tick) : Prop where
  rst : x.1.rst = false
  arm : ismArm x.2 = true
  clear : fifoClear x.1 x.2 = false
  push : cpuPush x.1 x.2 = false
  setup : ismWrites x.1 x.2 5 = false

instance : DecidablePred Reads := fun x =>
  decidable_of_iff (x.1.rst = false ∧ ismArm x.2 = true ∧ fifoClear x.1 x.2 = false ∧
      cpuPush x.1 x.2 = false ∧ ismWrites x.1 x.2 5 = false)
    ⟨fun ⟨rst, arm, clear, push, setup⟩ => ⟨rst, arm, clear, push, setup⟩,
      fun h => ⟨h.rst, h.arm, h.clear, h.push, h.setup⟩⟩

theorem ismMode_of_arm {s : Swim} (h : ismArm s = true) : s.ism.ismMode = true := by
  simp only [ismArm, Bool.and_eq_true] at h
  exact h.1.1

theorem not_switches_of_arm {w : In} {s : Swim} (h : ismArm s = true) : switches w s = false := by
  simp [switches, ismMode_of_arm h]

theorem not_drain_of_pop {w : In} {s : Swim} (h : popReq w s = true) : stageDrain w s = false := by
  simp only [popReq, ismReads, Bool.and_eq_true, Bool.or_eq_true] at h
  have atEnd : accEnd w s = true := by tauto
  simp [stageDrain, atEnd]

/-- The popped byte is the one the Data and Mark registers show as the access ends. -/
theorem dataOutFifo_of_popped {x : Tick} {e : BitVec 16} (h : popped x = some e) :
    dataOutFifo x.2 = e.setWidth 8 := by
  simp only [popped, popReq, Option.ite_none_right_eq_some, Bool.and_eq_true, bne_iff_ne,
    Option.some.injEq] at h
  obtain ⟨⟨⟨-, -, action⟩, full⟩, rfl⟩ := h
  simp only [dataOutFifo, action, Bool.not_true, Bool.false_or, beq_iff_eq, full, if_false]

/-! ### The fill levels -/

theorem fifoPut_sound {w : In} {s : Swim} (h : s.fifo.Sound) : (fifoPut w s).Sound := by
  unfold fifoPut
  split
  case isTrue push =>
    simp only [stagePush, Bool.and_eq_true, bne_iff_ne] at push
    exact h.stagePut push.2 _
  case isFalse => exact h

/-- The delivery leaves the FIFO and the read pointer alone, and the ring does
not become empty. -/
theorem fifoPut_rest (w : In) {s : Swim} (h : s.fifo.Sound) :
    (fifoPut w s).pos = s.fifo.pos ∧ (fifoPut w s).entry0 = s.fifo.entry0 ∧
      (fifoPut w s).stageRd = s.fifo.stageRd ∧
      (s.fifo.stageCnt ≠ 0 → (fifoPut w s).stageCnt ≠ 0) := by
  have cnt := h.cnt
  unfold fifoPut
  split
  · refine ⟨rfl, rfl, rfl, ?_⟩
    simp only [IsmFifo.stagePut]
    omega
  · exact ⟨rfl, rfl, rfl, id⟩

theorem fifoMove_sound {w : In} {s : Swim} (h : s.fifo.Sound) : (fifoMove w s).Sound := by
  have put := fifoPut_sound (w := w) h
  obtain ⟨pos, -, -, staged⟩ := fifoPut_rest w h
  unfold fifoMove
  dsimp only
  split
  case isTrue drain =>
    simp only [stageDrain, Bool.and_eq_true, bne_iff_ne, decide_eq_true_eq] at drain
    exact put.drain (staged drain.1.1) (pos ▸ drain.1.2) _
  case isFalse =>
    split
    · split
      · exact put.pop
      · exact put
    · split
      · split
        case isTrue room => exact put.append (pos ▸ room) _
        case isFalse => exact put
      · exact put

/-- The fill levels stay sound over every tick. -/
theorem fifoNext_sound {w : In} {s : Swim} (h : s.fifo.Sound) : (fifoNext w s).Sound := by
  have moved := fifoMove_sound (w := w) h
  have cleared : (if fifoClear w s then (fifoMove w s).clear else fifoMove w s).Sound := by
    split
    · exact IsmFifo.clear_sound _
    · exact moved
  unfold fifoNext
  dsimp only
  split
  · exact IsmFifo.clear_sound _
  · split
    · exact cleared.empty
    · exact cleared

theorem next_sound {w : In} {s : Swim} (h : s.fifo.Sound) : (next w s).fifo.Sound := by
  unfold next
  split
  · constructor <;> simp
  · exact fifoNext_sound h

theorem next_sound_of_reset {w : In} {s : Swim} (h : w.rst = true) : (next w s).fifo.Sound := by
  unfold next
  rw [if_pos h]
  constructor <;> simp

/-! ### One tick of a read -/

/-- The byte that is drained is the oldest one, also when a delivery lands in
the same tick. -/
theorem fifoPut_oldest (w : In) {s : Swim} (h : s.fifo.Sound) (some : s.fifo.stageCnt ≠ 0) :
    (fifoPut w s).stage s.fifo.stageRd = s.fifo.stage s.fifo.stageRd := by
  unfold fifoPut
  split
  case isTrue push =>
    simp only [stagePush, Bool.and_eq_true, bne_iff_ne] at push
    obtain ⟨pos, cnt, rd, wr⟩ := h
    apply Function.update_of_ne
    omega
  case isFalse => rfl

theorem fifoPut_contents (w : In) {s : Swim} (h : s.fifo.Sound) :
    (fifoPut w s).contents = s.fifo.contents ++ (staged (w, s)).toList := by
  unfold fifoPut staged
  dsimp only
  split
  case isTrue push =>
    simp only [stagePush, Bool.and_eq_true, bne_iff_ne] at push
    exact IsmFifo.contents_stagePut h push.2 _
  case isFalse => simp

/-- A tick of a read removes the popped byte from the queue and appends the
staged one. -/
theorem fifoNext_contents {x : Tick} (h : x.2.fifo.Sound) (reads : Reads x)
    (armed : x.2.ism.ismArmD = true) :
    (popped x).toList ++ (fifoNext x.1 x.2).contents =
      x.2.fifo.contents ++ (staged x).toList := by
  obtain ⟨w, s⟩ := x
  obtain ⟨rst, arm, clear, push, -⟩ := reads
  dsimp only at *
  have put := fifoPut_contents w h
  have sound := fifoPut_sound (w := w) h
  obtain ⟨pos, entry, rd, some⟩ := fifoPut_rest w h
  have moves : fifoNext w s = fifoMove w s := by
    simp [fifoNext, clear, not_switches_of_arm arm, armEdge, armed]
  rw [moves, ← put]
  unfold fifoMove popped
  dsimp only
  by_cases drain : stageDrain w s
  · have quiet : popReq w s = false := by
      by_contra pops
      simp [not_drain_of_pop (Bool.of_not_eq_false pops)] at drain
    have parts := drain
    simp only [stageDrain, Bool.and_eq_true, bne_iff_ne, decide_eq_true_eq] at parts
    obtain ⟨⟨full, room⟩, -⟩ := parts
    rw [if_pos drain, ← fifoPut_oldest w h full, ← rd]
    simpa [quiet] using IsmFifo.contents_drain sound (some full) (pos ▸ room)
  · rw [if_neg drain]
    by_cases pops : popReq w s
    · by_cases full : s.fifo.pos = 0
      · simp [pops, full]
      · have popping := IsmFifo.contents_pop sound (pos ▸ full)
        rw [popping, entry]
        simp [pops, full, rst]
    · simp [pops, push]

/-! ### The error register -/

/-- The overrun bit, once set or being set, stays until the error register is read. -/
theorem overrunBit_next {w : In} {s : Swim} (overrun : overruns (w, s) = true)
    (arm : ismArm s = true) (unread : ismReads w s 2 = false) :
    (errorNext w s).getLsbD 0 = true := by
  have set : ((s.ism.ismError ||| 1).getLsbD 0) = true := by simp
  unfold errorNext
  simp only [not_switches_of_arm arm, unread]
  simp only [overruns] at overrun
  rw [if_pos overrun]
  simp only [Bool.false_eq_true, if_false]
  split
  · split
    · split <;> simp
    · simp
  · split <;> simp

/-! ### A whole read -/

/-- The stream from the first mark on. -/
def hunted (stream : List (BitVec 16)) : List (BitVec 16) := stream.dropWhile fun e => !isMark e

theorem hunted_append (d : List (BitVec 16)) (e : BitVec 16) :
    hunted (d ++ [e]) =
      if hunted d ≠ [] then hunted d ++ [e] else if isMark e then [e] else [] := by
  unfold hunted
  rw [List.dropWhile_append]
  by_cases none : d.dropWhile (fun e => !isMark e) = []
  · cases mark : isMark e <;> simp [none, mark]
  · simp [none]

@[simp] theorem isMark_genWord (d : DriveOut) : isMark (genWord d) = d.mfmMark := by
  unfold isMark genWord
  rw [BitVec.getLsbD_append, BitVec.getLsbD_append]
  simp

/-- The read has popped `pops` of the delivered `stream`; what it has not popped
is queued. With the GCR data path selected nothing is ever queued. -/
structure Follows (stream pops : List (BitVec 16)) (s : Swim) : Prop where
  armed : s.ism.ismArmD = true
  sound : s.fifo.Sound
  gcr : s.ism.ismSetup.getLsbD 2 = true →
    s.ism.mfmSynced = false ∧ pops ++ s.fifo.contents = []
  mfm : s.ism.ismSetup.getLsbD 2 = false →
    pops ++ s.fifo.contents = hunted stream ∧ (s.ism.mfmSynced = true ↔ hunted stream ≠ [])

theorem Follows.isPrefix {stream pops : List (BitVec 16)} {s : Swim} (h : Follows stream pops s) :
    pops <+: hunted stream := by
  cases path : s.ism.ismSetup.getLsbD 2 with
  | false => exact ⟨_, (h.mfm path).1⟩
  | true =>
    have none := (List.append_eq_nil_iff.mp (h.gcr path).2).1
    rw [none]
    exact List.nil_prefix

/-- The arm edge starts a read. -/
theorem follows_arm {w : In} {s : Swim} (rst : w.rst = false) (edge : armEdge s = true) :
    Follows [] [] (next w s) := by
  have arm : ismArm s = true := by
    simp only [armEdge, Bool.and_eq_true] at edge
    exact edge.1
  obtain ⟨f, fifo⟩ : ∃ f : IsmFifo, (next w s).fifo = f.clear := by
    simp only [next, rst, fifoNext, edge, Bool.false_eq_true, if_false, if_true]
    exact ⟨_, rfl⟩
  have synced : (next w s).ism.mfmSynced = false := by simp [next, rst, ismNext, syncedNext, edge]
  constructor
  · simp [next, rst, ismNext, arm]
  · rw [fifo]
    exact f.clear_sound
  · intro _
    rw [fifo]
    exact ⟨synced, f.clear_contents⟩
  · intro _
    rw [fifo, synced]
    exact ⟨by simp [hunted], by simp [hunted]⟩

/-- One tick of a read, if no delivered byte is dropped. -/
theorem Follows.step {stream pops : List (BitVec 16)} {x : Tick} (h : Follows stream pops x.2)
    (reads : Reads x) (kept : overruns x = false) :
    Follows (stream ++ (delivered x).toList) (pops ++ (popped x).toList) (next x.1 x.2) := by
  obtain ⟨w, s⟩ := x
  have queue := fifoNext_contents h.sound reads h.armed
  obtain ⟨rst, arm, -, -, setup⟩ := reads
  dsimp only at *
  have fifo : (next w s).fifo = fifoNext w s := by simp [next, rst]
  have same : (next w s).ism.ismSetup = s.ism.ismSetup := by simp [next, rst, ismNext, setup]
  have synced : (next w s).ism.mfmSynced =
      (s.ism.mfmSynced || (readActive s && w.mfmSel.mfmStb && w.mfmSel.mfmMark)) := by
    simp [next, rst, ismNext, syncedNext, armEdge, h.armed, not_switches_of_arm arm]
  have active : readActive s = !s.ism.ismSetup.getLsbD 2 := by simp [readActive, arm]
  have staging : staged (w, s) = if genPush w s then some (genWord w.mfmSel) else none := by
    unfold overruns at kept
    unfold staged stagePush
    cases push : genPush w s <;> simp_all
  constructor
  · simp [next, rst, ismNext, arm]
  · rw [fifo]
    exact fifoNext_sound h.sound
  · intro path
    rw [same] at path
    have off : readActive s = false := by rw [active, path]; rfl
    have idle : staged (w, s) = none := by simp [staging, genPush, off]
    obtain ⟨before, empty⟩ := h.gcr path
    rw [fifo, List.append_assoc, queue, idle, synced, before]
    exact ⟨by simp [off], by simpa using empty⟩
  · intro path
    rw [same] at path
    have on : readActive s = true := by rw [active, path]; rfl
    obtain ⟨content, sync⟩ := h.mfm path
    rw [fifo, List.append_assoc, queue, ← List.append_assoc, content, staging, synced]
    unfold genPush delivered
    cases stb : w.mfmSel.mfmStb with
    | false => simp [sync]
    | true =>
      rw [if_pos rfl, Option.toList_some, hunted_append]
      cases before : s.ism.mfmSynced with
      | true => simp [on, sync.mp before]
      | false =>
        have none : hunted stream = [] := by
          by_contra some
          simp [sync.mpr some] at before
        cases mark : w.mfmSel.mfmMark <;> simp [on, none, mark]

/-- The arm edge of a read. -/
def Arms (x : Tick) : Prop := x.1.rst = false ∧ armEdge x.2 = true

/-- The error register is read while a delivered byte is dropped: the tick sets
the overrun bit and clears it. -/
def Masks (x : Tick) : Prop := overruns x = true ∧ ismReads x.1 x.2 2 = true

instance : DecidablePred Arms := fun _ => inferInstanceAs (Decidable (_ ∧ _))

instance : DecidablePred Masks := fun _ => inferInstanceAs (Decidable (_ ∧ _))

variable {r : Run Step} {a t : Nat}

/-- A read armed at `a` follows the stream for as long as the overrun bit stays
clear and no error read masks it. -/
theorem follows_run (arms : Arms (r.state a)) (later : a < t)
    (reads : ∀ k, a < k → k < t → Reads (r.state k))
    (unmasked : ∀ k, a < k → k < t → ¬ Masks (r.state k))
    (unflagged : ∀ k, a < k → k ≤ t → overrunBit (r.state k) = false) :
    Follows (r.log delivered (a + 1) t) (r.log popped (a + 1) t) (r.state t).2 := by
  induction t, later using Nat.le_induction with
  | base =>
    rw [r.log_self, r.log_self, r.step a]
    exact follows_arm arms.1 arms.2
  | succ t later ih =>
    have here := ih (fun k hk hkt => reads k hk (by omega)) (fun k hk hkt => unmasked k hk (by omega))
      (fun k hk hkt => unflagged k hk (by omega))
    have reading := reads t later (by omega)
    have kept : overruns (r.state t) = false := by
      by_contra lost
      have lost' : overruns (r.state t) = true := by simpa using lost
      have unread : ismReads (r.state t).1 (r.state t).2 2 = false := by
        by_contra read
        exact unmasked t later (by omega) ⟨lost', by simpa using read⟩
      have flagged := overrunBit_next lost' reading.arm unread
      have set : overrunBit (r.state (t + 1)) = true := by
        rw [overrunBit, r.step t]
        simp only [next, reading.rst, Bool.false_eq_true, if_false, ismNext]
        exact flagged
      have clear := unflagged (t + 1) (by omega) (by omega)
      simp [set] at clear
    rw [r.log_succ later, r.log_succ later, r.step t]
    exact here.step reading kept

/-- Every read of a run, armed at `a` and looked at when it has lasted until `t`. -/
def Prefixes (r : Run Step) (Polite : Tick → Prop) : Prop :=
  ∀ a t, a < t → Arms (r.state a) → (∀ k, a < k → k < t → Reads (r.state k)) →
    (∀ k, a < k → k < t → Polite (r.state k)) →
    (∀ k, a < k → k ≤ t → overrunBit (r.state k) = false) →
    r.log popped (a + 1) t <+: hunted (r.log delivered (a + 1) t)

/-- In every run from reset the fill levels are sound, and the bytes popped by a
read whose overrun bit stays clear are a prefix of the delivered bytes from the
first mark on, unless a byte is dropped in the tick in which an error read ends. What is
popped is what the Data and Mark registers show. -/
theorem ism_read_stream (r : Run Step) (reset : (r.state 0).1.rst = true) :
    (∀ t, 0 < t → (r.state t).2.fifo.pos ≤ 2 ∧ (r.state t).2.fifo.stageCnt ≤ 16 ∧
      (r.state t).2.fifo.stageCnt % 16 =
        ((r.state t).2.fifo.stageWr + 16 - (r.state t).2.fifo.stageRd) % 16) ∧
    (∀ t e, popped (r.state t) = some e → dataOutFifo (r.state t).2 = e.setWidth 8) ∧
    Prefixes r fun x => ¬ Masks x := by
  refine ⟨?_, fun _ _ pop => dataOutFifo_of_popped pop, ?_⟩
  · intro t later
    have sound : (r.state t).2.fifo.Sound := by
      refine r.invariant (I := fun x => x.2.fifo.Sound) ?_ ?_ t later
      · rw [r.step 0]
        exact next_sound_of_reset reset
      · intro u _ here
        rw [r.step u]
        exact next_sound here
    obtain ⟨pos, cnt, rd, wr⟩ := sound
    exact ⟨pos, cnt, by omega⟩
  · intro a t later arms reads unmasked unflagged
    exact (follows_run arms later reads unmasked unflagged).isPrefix

/-! ### A byte lost without a trace -/

/-- A tick in which the drive delivers a byte. -/
def byteIn (mark : Bool) (d : BitVec 8) : In :=
  { driveInt := { mfmStb := true, mfmMark := mark, mfmByte := d } }

/-- Reset, the switch into ISM mode, the mode write that arms a read, and the arm edge. -/
def arming : List In :=
  [{ rst := true }, uds true 0xF 0x40, quiet, uds true 0xF 0, quiet, uds true 0xF 0x40, quiet,
    uds true 0xF 0x40, quiet, uds true 7 0x8A, quiet, quiet]

/-- `n` bytes from `d` on in every other tick, the first one a mark. -/
def bytesIn (n : Nat) (d : BitVec 8) : List In :=
  (List.range n).flatMap fun i => [byteIn (i == 0) (d + BitVec.ofNat 8 i), quiet]

/-- `n` reads of the Mark register. -/
def popsIn (n : Nat) : List In := (List.range n).flatMap fun _ => [uds false 1 0, quiet]

/-- The run of a list of ticks and quiet pins after it. -/
def ofList (script : List In) : Run Step := ofScript {} fun t => script.getD t quiet

/-- Three bytes are delivered and two are popped. -/
def shortRead : Run Step := ofList (arming ++ bytesIn 3 0xA1 ++ popsIn 2)

theorem shortRead_facts :
    ((List.range 23).all fun t => decide (11 < t →
      Reads (shortRead.state t) ∧ ¬ Masks (shortRead.state t) ∧
        overrunBit (shortRead.state t) = false)) = true ∧
      Arms (shortRead.state 11) ∧ (shortRead.log popped 12 22).length = 2 := by
  decide +kernel

/-- The theorem at that run: the two popped bytes are the first two. -/
theorem ism_read_stream_short :
    (shortRead.state 20).2.fifo.pos ≤ 2 ∧ (shortRead.log popped 12 22).length = 2 ∧
      shortRead.log popped 12 22 <+: hunted (shortRead.log delivered 12 22) := by
  obtain ⟨all, arms, two⟩ := shortRead_facts
  have at_ : ∀ k, 11 < k → k < 23 → Reads (shortRead.state k) ∧ ¬ Masks (shortRead.state k) ∧
      overrunBit (shortRead.state k) = false := by
    intro k hk hlt
    exact of_decide_eq_true (List.all_eq_true.mp all k (List.mem_range.mpr hlt)) hk
  obtain ⟨levels, -, prefixes⟩ := ism_read_stream shortRead rfl
  refine ⟨(levels 20 (by omega)).1, two, ?_⟩
  exact prefixes 11 22 (by omega) arms (fun k hk hlt => (at_ k hk (by omega)).1)
    (fun k hk hlt => (at_ k hk (by omega)).2.1) (fun k hk hle => (at_ k hk (by omega)).2.2)

/-- Eighteen bytes are not read; the nineteenth arrives as a read of the error
register ends, the twentieth after the first pop. -/
def maskedLoss : Run Step :=
  ofList <| arming ++ bytesIn 18 0xA1 ++ [uds false 2 0, byteIn false 0xB3] ++ popsIn 1 ++
    [quiet, byteIn false 0xB4] ++ popsIn 18

/-- The overrun bit is never set, and the popped bytes skip the nineteenth. -/
theorem maskedLoss_facts :
    ((List.range 91).all fun t => decide (11 < t →
      Reads (maskedLoss.state t) ∧ overrunBit (maskedLoss.state t) = false)) = true ∧
      Arms (maskedLoss.state 11) ∧
      ¬ maskedLoss.log popped 12 90 <+: hunted (maskedLoss.log delivered 12 90) := by
  decide +kernel

theorem ism_read_stream_lossy : ¬ ∀ r : Run Step, (r.state 0).1.rst = true →
    Prefixes r fun _ => True := by
  intro claim
  obtain ⟨all, arms, skips⟩ := maskedLoss_facts
  have at_ : ∀ k, 11 < k → k < 91 → Reads (maskedLoss.state k) ∧
      overrunBit (maskedLoss.state k) = false := by
    intro k hk hlt
    exact of_decide_eq_true (List.all_eq_true.mp all k (List.mem_range.mpr hlt)) hk
  exact skips (claim maskedLoss rfl 11 90 (by omega) arms
    (fun k hk hlt => (at_ k hk (by omega)).1) (fun _ _ _ => trivial)
    (fun k hk hle => (at_ k hk (by omega)).2))

end Swim

end MacIIvi
