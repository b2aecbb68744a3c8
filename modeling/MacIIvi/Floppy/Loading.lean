import MacIIvi.Floppy.Staging

/-!
# The words on their way to the staging region

Source: the same as for the region. The extra slot writes a word that waits, once or more;
the CPU and the card write outside the region. What the region holds is a function of the
words that have come, of the places they go to and of what was there before.
-/

namespace MacIIvi.Floppy

open Card (Sizes Shared SharedIn Lines Lanes)

/-- A word of the staging region. -/
def InRegion (x : Nat) : Prop := stagingBase ≤ x ∧ x < stagingBase + 2 ^ 20

/-! ## The other masters -/

section Others

variable {z : Sizes} {n : Nat} {s : Shared} {i : SharedIn}

theorem sdramWord_outside (a : Card.Access) (overlay : Bool) (n : Nat) :
    ¬ InRegion (a.sdramWord overlay n) := by
  have vram : a.addr % 2 ^ 20 / 2 < 2 ^ 19 := by omega
  simp only [InRegion, stagingBase, Card.Access.sdramWord]
  split
  · omega
  · split
    · omega
    · split <;> omega

/-- The window of the card ends where the region starts. -/
theorem extWord_outside {m : Nat → Word} {H : List Card.Access} {C : List Card.Commit}
    (small : z.totalWords ≤ 2 ^ 19) (phase : Card.Phase z m s.sys H C)
    (write : s.sys.card.portWr = true) :
    ¬ InRegion (0x0100000 + Card.Ports.extWord s.sys.card) := by
  cases phase with
  | idle _ _ wr => exact absurd (wr.symm.trans write) Bool.false_ne_true
  | read _ _ _ _ _ _ wr => exact absurd (wr.symm.trans write) Bool.false_ne_true
  | write l a _ _ target =>
    have inside := target.exists_
    rw [target.extWord, InRegion, stagingBase]
    omega

/-- Outside a download cycle nothing is written to the region. -/
theorem lines_outside {m : Nat → Word} {H : List Card.Access} {C : List Card.Commit}
    (small : z.totalWords ≤ 2 ^ 19) (phase : Card.Phase z m s.sys H C)
    (other : s.downloadCycle i = false) (write : (s.lines n i).we = true) :
    ¬ InRegion (s.lines n i).addr := by
  simp only [Shared.lines, other, Bool.false_eq_true, if_false] at write ⊢
  cases card : s.cardExtSlot i with
  | true =>
    rw [card, if_pos rfl, Bool.and_eq_true] at write
    rw [if_pos rfl]
    exact extWord_outside small phase write.1
  | false =>
    rw [card, if_neg Bool.false_ne_true, Bool.and_eq_true, Bool.and_eq_true] at write
    obtain ⟨-, -, int, ext, -⟩ := Card.Shared.free_of_cpu (i := i) write.1.1
    rw [if_neg Bool.false_ne_true, Shared.memoryAddr, int, ext]
    simp only [Bool.false_eq_true, if_false]
    split
    · simp [InRegion, stagingBase]
    · exact sdramWord_outside _ _ _

theorem lines_download (down : s.downloadCycle i = true) :
    s.lines n i = ⟨i.dioA, i.dioData, Lanes.both, i.dioWrite, false⟩ := by
  simp [Shared.lines, down]

theorem merge_both (new old : Word) : Lanes.both.merge new old = new := Card.Lanes.merge_both ..

end Others

/-! ## The run -/

section Run

variable {z : Sizes} {n : Nat} {s : Loader} {i : Nat → LoaderIn} {t d e u : Nat}

theorem dio_step (t : Nat) : (s.after z n i (t + 1)).dio =
    (s.after z n i t).dio.step (i t).ioctl (s.after z n i t).shared.slots.dioBusControl := rfl

theorem shared_run (t : Nat) : (s.after z n i t).shared =
    s.shared.after z n (fun t => (s.after z n i t).sharedIn (i t)) t := by
  induction t with
  | zero => rfl
  | succ t ih =>
    have next : (s.after z n i (t + 1)).shared = (s.after z n i t).shared.step z n
        ((s.after z n i t).sharedIn (i t)) := rfl
    rw [next, ih]
    rfl

theorem locked (start : s.Initial) (t : Nat) : (s.after z n i t).shared.Locked := by
  rw [shared_run]
  exact (Card.locked_run start.shared t).1

/-- The card is between two accesses or has one in hand. -/
theorem card_phase (start : s.Initial) (t : Nat) :
    ∃ H C, Card.Phase z (s.shared.sys.stored z) (s.after z n i t).shared.sys H C := by
  induction t with
  | zero => exact ⟨[], [], start.shared.sys.phase⟩
  | succ t ih =>
    obtain ⟨H, C, phase⟩ := ih
    exact ⟨_, _, phase.step (locked start t).bus⟩

theorem handshake (start : s.Initial) (t : Nat) :
    Handshake (s.after z n i t).shared.slots (s.after z n i t).dio := by
  induction t with
  | zero =>
    refine ⟨fun old => ?_, fun write => ?_⟩
    · exact absurd (start.oldCyc.symm.trans old) Bool.false_ne_true
    · exact absurd (start.dioWrite.symm.trans write) Bool.false_ne_true
  | succ t ih => exact ih.step

theorem download_waiting (start : s.Initial) (hps : Served z n s i)
    (waits : (s.after z n i t).dio.ioctlWait = true) :
    (i t).ioctl.download = true ∧ ∃ u, t = u + 1 ∧ (i u).ioctl.download = true :=
  download_of_wait (i := fun t => (i t).ioctl) (d := fun t => (s.after z n i t).dio)
    dio_step start.ioctlWait hps t waits

theorem no_write (hps : Served z n s i) (waits : (s.after z n i t).dio.ioctlWait = true) :
    (i t).ioctl.write = false := by
  by_contra write
  exact absurd (waits.symm.trans (hps.waits t (by simpa using write))) (by decide)

/-- A word that waits has the SDRAM in the extra slot. -/
theorem slot_lines (start : s.Initial) (hps : Served z n s i)
    (slot : (s.after z n i t).shared.slots.dioBusControl = true)
    (waits : (s.after z n i t).dio.ioctlWait = true) :
    (s.after z n i t).shared.downloadCycle ((s.after z n i t).sharedIn (i t)) = true ∧
      (s.after z n i t).lines n (i t) = ⟨(s.after z n i t).dio.dioA,
        (s.after z n i t).dio.dioData, Lanes.both, (s.after z n i t).dio.dioWrite, false⟩ := by
  have run := (download_waiting start hps waits).1
  have two : (s.after z n i t).shared.slots.busCycle = 2 := by
    simpa [Slots.dioBusControl] using slot
  have cycle : (s.after z n i t).shared.downloadCycle
      ((s.after z n i t).sharedIn (i t)) = true := by
    simp [Shared.downloadCycle, Loader.sharedIn, Shared.cpuBusControl, run, two]
  exact ⟨cycle, lines_download cycle⟩

theorem slot_of_cycle
    (cycle : (s.after z n i t).shared.downloadCycle ((s.after z n i t).sharedIn (i t)) = true) :
    (s.after z n i t).shared.slots.dioBusControl = true := by
  simp only [Shared.downloadCycle, Shared.cpuBusControl, Bool.and_eq_true, Bool.not_eq_true',
    bne_eq_false_iff_eq] at cycle
  rw [Slots.dioBusControl, cycle.2]
  rfl

/-- Inside a bus cycle the slot stays. -/
theorem slot_next (inside : (s.after z n i t).shared.slots.busPhase ≠ 3) :
    (s.after z n i (t + 1)).shared.slots.dioBusControl =
      (s.after z n i t).shared.slots.dioBusControl := by
  have next : (s.after z n i (t + 1)).shared.slots = (s.after z n i t).shared.slots.step := rfl
  rw [next, Slots.dioBusControl, Slots.step, if_neg inside]
  rfl

theorem phase_next (t : Nat) : (s.after z n i (t + 1)).shared.slots.busPhase =
    ((s.after z n i t).shared.slots.busPhase + 1) % 4 := rfl

/-- A word that waits and is not done stays. -/
theorem word_next (hps : Served z n s i)
    (waits : (s.after z n i t).dio.ioctlWait = true) :
    (s.after z n i (t + 1)).dio.dioA = (s.after z n i t).dio.dioA ∧
      (s.after z n i (t + 1)).dio.dioData = (s.after z n i t).dio.dioData := by
  have quiet := no_write hps waits
  rw [dio_step, Dio.step, quiet]
  exact ⟨rfl, rfl⟩

theorem slot_keeps_write (slot : (s.after z n i t).shared.slots.dioBusControl = true) :
    (s.after z n i (t + 1)).dio.dioWrite = (s.after z n i t).dio.dioWrite := by
  rw [dio_step, Dio.step, slot]
  rfl

theorem slot_keeps_wait (slot : (s.after z n i t).shared.slots.dioBusControl = true)
    (waits : (s.after z n i t).dio.ioctlWait = true) :
    (s.after z n i (t + 1)).dio.ioctlWait = true := by
  rw [dio_step, ioctlWait_step, slot]
  simp [waits]

/-- The row of the word that waits, taken at the clock before. -/
def RowTaken (z : Sizes) (n : Nat) (s : Loader) (i : Nat → LoaderIn) (t : Nat) : Prop :=
  ∃ u, t = u + 1 ∧ (s.after z n i u).shared.sdramT = 0 ∧
    (s.after z n i u).shared.downloadCycle ((s.after z n i u).sharedIn (i u)) = true ∧
    ((s.after z n i u).lines n (i u)).we = true ∧
    ((s.after z n i u).lines n (i u)).addr = (s.after z n i t).dio.dioA ∧
    (s.after z n i u).dio.ioctlWait = true

/-- What the controller holds when the data phase comes. -/
theorem latch_run (start : s.Initial) (small : z.totalWords ≤ 2 ^ 19)
    (column : (s.after z n i t).shared.slots.busPhase = 1)
    (write : (s.after z n i t).sdram.weLatch = true) :
    ¬ InRegion (s.after z n i t).sdram.addrLatch ∨
      (s.after z n i t).shared.slots.dioBusControl = true ∧
        (s.after z n i t).dio.dioWrite = true := by
  cases t with
  | zero => exact absurd (start.weLatch.symm.trans write) Bool.false_ne_true
  | succ t =>
    have low := (locked (z := z) (n := n) (i := i) start t).phase
    have zero : (s.after z n i t).shared.slots.busPhase = 0 := by
      rw [phase_next] at column
      omega
    have row : (s.after z n i t).shared.sdramT = 0 := by
      rw [(locked start t).locked, zero]
    have taken : (s.after z n i (t + 1)).sdram =
        { (s.after z n i t).sdram with
          weLatch := ((s.after z n i t).lines n (i t)).we
          addrLatch :=
            if ((s.after z n i t).lines n (i t)).we || ((s.after z n i t).lines n (i t)).oe then
              ((s.after z n i t).lines n (i t)).addr
            else (s.after z n i t).sdram.addrLatch } := by
      rw [Loader.after, Loader.step, Sdram.step, row, if_pos rfl]
    rw [taken] at write ⊢
    have write : ((s.after z n i t).lines n (i t)).we = true := write
    simp only [write, Bool.true_or, if_true]
    cases cycle : (s.after z n i t).shared.downloadCycle ((s.after z n i t).sharedIn (i t)) with
    | false =>
      obtain ⟨H, C, phase⟩ := card_phase (z := z) (n := n) (i := i) start t
      exact .inl (lines_outside small phase cycle write)
    | true =>
      have slot := slot_of_cycle cycle
      right
      rw [slot_next (by omega), slot_keeps_write slot]
      refine ⟨slot, ?_⟩
      have lines := lines_download (n := n) cycle
      rw [Loader.lines, lines] at write
      exact write

/-- The row of a word. -/
theorem row_taken (start : s.Initial) (hps : Served z n s i)
    (zero : (s.after z n i t).shared.slots.busPhase = 0)
    (slot : (s.after z n i t).shared.slots.dioBusControl = true)
    (write : (s.after z n i t).dio.dioWrite = true) :
    (s.after z n i (t + 1)).sdram.weLatch = true ∧
      (s.after z n i (t + 1)).sdram.addrLatch = (s.after z n i (t + 1)).dio.dioA ∧
      RowTaken z n s i (t + 1) := by
  have waits := (handshake start t).waiting slot write
  obtain ⟨cycle, lines⟩ := slot_lines start hps slot waits
  have row : (s.after z n i t).shared.sdramT = 0 := by
    rw [(locked start t).locked, zero]
  have same := (word_next hps waits).1
  have taken : (s.after z n i (t + 1)).sdram =
      { (s.after z n i t).sdram with
        weLatch := true, addrLatch := (s.after z n i t).dio.dioA } := by
    rw [Loader.after, Loader.step, Sdram.step, row, if_pos rfl, lines, write]
    rfl
  rw [taken, same]
  refine ⟨rfl, rfl, t, rfl, row, cycle, ?_, ?_, waits⟩
  · rw [lines]
    exact write
  · rw [lines, same]

/-! ## The words of the region -/

/-- A clock without a data phase into the region. -/
theorem mem_outside (start : s.Initial)
    (outside : (s.after z n i t).shared.slots.busPhase = 1 →
      (s.after z n i t).sdram.weLatch = true → ¬ InRegion (s.after z n i t).sdram.addrLatch)
    {x : Nat} (inside : InRegion x) :
    (s.after z n i (t + 1)).sdram.mem x = (s.after z n i t).sdram.mem x := by
  have clock := (locked (z := z) (n := n) (i := i) start t).locked
  rw [Loader.after, Loader.step, Sdram.step]
  split
  · rfl
  · split
    · next two =>
      have phase : (s.after z n i t).shared.slots.busPhase = 1 := by omega
      cases write : (s.after z n i t).sdram.weLatch with
      | false => rfl
      | true =>
        have other : x ≠ (s.after z n i t).sdram.addrLatch := by
          rintro rfl
          exact outside phase write inside
        simp only [if_true]
        rw [Function.update_of_ne other]
    · rfl

/-- What is there after the first `k` words, which go to `A` with `V`. -/
def filled (A : Nat → Nat) (V : Nat → Word) (m : Nat → Word) : Nat → Nat → Word
  | 0 => m
  | k + 1 => Function.update (filled A V m k) (A k) (V k)

/-- The same words in the region. -/
def Matches (m f : Nat → Word) : Prop := ∀ x, InRegion x → m x = f x

/-- The words that have come. -/
def count (i : Nat → LoaderIn) (t : Nat) : Nat := (sent (fun t => (i t).ioctl) t).length

/-- Word `k` has been written since clock `d`. -/
def Wrote (z : Sizes) (n : Nat) (s : Loader) (i : Nat → LoaderIn) (A : Nat → Nat)
    (V : Nat → Word) (d t k : Nat) : Prop :=
  ∃ u, d ≤ u ∧ u < t ∧ Writes z n s i u (A k) (V k)

/-- Word `k` waits, and may have been written. -/
structure Busy (z : Sizes) (n : Nat) (s : Loader) (i : Nat → LoaderIn) (A : Nat → Nat)
    (V m : Nat → Word) (d t k : Nat) : Prop where
  started : d < t
  last : count i t = k + 1
  addr : (s.after z n i t).dio.dioA = A k
  data : (s.after z n i t).dio.dioData = V k
  earlier : ∀ j < k, Wrote z n s i A V d t j
  mem : Matches (s.after z n i t).sdram.mem (filled A V m k) ∨
    Matches (s.after z n i t).sdram.mem (filled A V m (k + 1)) ∧ Wrote z n s i A V d t k
  row : (s.after z n i t).shared.slots.dioBusControl = true →
    (s.after z n i t).shared.slots.busPhase = 1 → (s.after z n i t).dio.dioWrite = true →
    (s.after z n i t).sdram.weLatch = true ∧
      (s.after z n i t).sdram.addrLatch = (s.after z n i t).dio.dioA ∧ RowTaken z n s i t
  done : (s.after z n i t).dio.dioWrite = true →
    (s.after z n i t).shared.slots.dioBusControl = true ∧
        2 ≤ (s.after z n i t).shared.slots.busPhase ∨
      (s.after z n i t).shared.slots.busCycle = 3 ∧
        (s.after z n i t).shared.slots.busPhase = 0 →
    Matches (s.after z n i t).sdram.mem (filled A V m (k + 1)) ∧ Wrote z n s i A V d t k

/-- A clock of a download that started at clock `d`. -/
structure Loading (z : Sizes) (n : Nat) (s : Loader) (i : Nat → LoaderIn) (A : Nat → Nat)
    (V m : Nat → Word) (d t : Nat) : Prop where
  idle : (s.after z n i t).dio.ioctlWait = false →
    Matches (s.after z n i t).sdram.mem (filled A V m (count i t)) ∧
      ∀ k < count i t, Wrote z n s i A V d t k
  busy : (s.after z n i t).dio.ioctlWait = true → ∃ k, Busy z n s i A V m d t k

variable {A : Nat → Nat} {V m : Nat → Word} {k : Nat}

theorem Wrote.later (wrote : Wrote z n s i A V d t k) : Wrote z n s i A V d (t + 1) k := by
  obtain ⟨u, from_, before, writes⟩ := wrote
  exact ⟨u, from_, by omega, writes⟩

/-- The data phase of the word that waits. -/
theorem Busy.column (start : s.Initial) (hps : Served z n s i)
    (busy : Busy z n s i A V m d t k)
    (waits : (s.after z n i t).dio.ioctlWait = true)
    (slot : (s.after z n i t).shared.slots.dioBusControl = true)
    (phase : (s.after z n i t).shared.slots.busPhase = 1)
    (write : (s.after z n i t).dio.dioWrite = true) :
    Matches (s.after z n i (t + 1)).sdram.mem (filled A V m (k + 1)) ∧
      Wrote z n s i A V d (t + 1) k := by
  obtain ⟨latch, addr, u, rfl, row, cycle, we, rowAddr, -⟩ := busy.row slot phase write
  obtain ⟨-, lines⟩ := slot_lines start hps slot waits
  have two : (s.after z n i (u + 1)).shared.sdramT = 2 := by
    rw [(locked start (u + 1)).locked, phase]
  have stored : (s.after z n i (u + 1 + 1)).sdram.mem =
      Function.update (s.after z n i (u + 1)).sdram.mem (A k) (V k) := by
    rw [Loader.after, Loader.step, Sdram.step, two, if_neg (by decide), if_pos rfl, latch,
      if_pos rfl, lines, addr, busy.addr]
    simp only [merge_both, busy.data]
  refine ⟨?_, u, Nat.le_of_lt_succ busy.started, by omega, row, cycle, we, ?_, ?_, ?_⟩
  · intro x inside
    rw [stored, filled]
    by_cases here : x = A k
    · rw [here, Function.update_self, Function.update_self]
    · rw [Function.update_of_ne here, Function.update_of_ne here]
      rcases busy.mem with before | ⟨after_, -⟩
      · exact before x inside
      · have same := after_ x inside
        rwa [filled, Function.update_of_ne here] at same
  · rw [rowAddr, busy.addr]
  · rw [lines]
    exact busy.data
  · rw [lines]

theorem cycle_run (start : s.Initial) (t : Nat) :
    (s.after z n i t).shared.slots.busCycle < 4 := by
  induction t with
  | zero => exact start.shared.cycle
  | succ t ih =>
    have next : (s.after z n i (t + 1)).shared.slots = (s.after z n i t).shared.slots.step := rfl
    rw [next, Slots.step]
    simp only
    split <;> omega

/-- A clock in which no word goes to the region. -/
theorem mem_still (start : s.Initial) (small : z.totalWords ≤ 2 ^ 19)
    (other : ¬ ((s.after z n i t).shared.slots.dioBusControl = true ∧
      (s.after z n i t).shared.slots.busPhase = 1 ∧ (s.after z n i t).dio.dioWrite = true))
    {x : Nat} (inside : InRegion x) :
    (s.after z n i (t + 1)).sdram.mem x = (s.after z n i t).sdram.mem x := by
  refine mem_outside start (fun phase write => ?_) inside
  rcases latch_run start small phase write with outside | ⟨slot, dioWrite⟩
  · exact outside
  · exact absurd ⟨slot, phase, dioWrite⟩ other

theorem wait_next (t : Nat) : (s.after z n i (t + 1)).dio.ioctlWait =
    if (s.after z n i t).dio.oldCyc && !(s.after z n i t).shared.slots.dioBusControl &&
        (s.after z n i t).dio.dioWrite then false
    else (i t).ioctl.write || (s.after z n i t).dio.ioctlWait :=
  ioctlWait_step _ _ _

/-- Nothing waits: a clock of the download, with or without a word. -/
theorem Loading.step_idle (start : s.Initial) (small : z.totalWords ≤ 2 ^ 19) (from_ : d ≤ t)
    (run : (i t).ioctl.download = true)
    (arrives : (i t).ioctl.write = true → (s.after z n i (t + 1)).dio.dioA = A (count i t) ∧
      (s.after z n i (t + 1)).dio.dioData = V (count i t))
    (here : Loading z n s i A V m d t) (quiet : (s.after z n i t).dio.ioctlWait = false) :
    Loading z n s i A V m d (t + 1) := by
  obtain ⟨same, wrote⟩ := here.idle quiet
  have hand := handshake (z := z) (n := n) (i := i) start t
  have unwritten : ¬ ((s.after z n i t).shared.slots.dioBusControl = true ∧
      (s.after z n i t).dio.dioWrite = true) := by
    rintro ⟨slot, write⟩
    exact absurd (quiet.symm.trans (hand.waiting slot write)) Bool.false_ne_true
  have same' : Matches (s.after z n i (t + 1)).sdram.mem (filled A V m (count i t)) :=
    fun x inside =>
      (mem_still start small (fun h => unwritten ⟨h.1, h.2.2⟩) inside).trans (same x inside)
  have wait := wait_next (z := z) (n := n) (s := s) (i := i) t
  rw [quiet, Bool.or_false] at wait
  cases write : (i t).ioctl.write with
  | false =>
    have count' : count i (t + 1) = count i t :=
      congrArg List.length (sent_idle (i := fun t => (i t).ioctl) run write)
    refine ⟨fun _ => ?_, fun waits => ?_⟩
    · rw [count']
      exact ⟨same', fun k low => (wrote k low).later⟩
    · rw [write, waits] at wait
      simp at wait
  | true =>
    have count' : count i (t + 1) = count i t + 1 := by
      have next := congrArg List.length (sent_write (i := fun t => (i t).ioctl) run write)
      rw [List.length_append, List.length_singleton] at next
      exact next
    have waits : (s.after z n i (t + 1)).dio.ioctlWait = true := by
      rw [wait, write]
      refine if_neg fun cleared => ?_
      simp only [Bool.and_eq_true, Bool.not_eq_true'] at cleared
      obtain ⟨⟨old, outside⟩, pending⟩ := cleared
      rcases hand.pending pending with waits | ⟨three, one⟩
      · exact absurd (quiet.symm.trans waits) Bool.false_ne_true
      · rcases hand.old old with two | ⟨-, zero⟩
        · simp [Slots.dioBusControl, two] at outside
        · omega
    have fresh : (s.after z n i (t + 1)).dio.dioWrite = false := by
      rw [dio_step, Dio.step]
      cases slot : (s.after z n i t).shared.slots.dioBusControl with
      | false => exact quiet
      | true => simpa [slot] using unwritten
    refine ⟨fun h => absurd (h.symm.trans waits) Bool.false_ne_true, fun _ => ⟨count i t, ?_⟩⟩
    exact {
      started := by omega
      last := count'
      addr := (arrives write).1
      data := (arrives write).2
      earlier := fun j low => (wrote j low).later
      mem := .inl same'
      row := fun _ _ h => absurd (fresh.symm.trans h) Bool.false_ne_true
      done := fun h => absurd (fresh.symm.trans h) Bool.false_ne_true }

/-- A word waits: its slot comes, passes and is acknowledged. -/
theorem Loading.step_busy (start : s.Initial) (hps : Served z n s i)
    (small : z.totalWords ≤ 2 ^ 19) (here : Loading z n s i A V m d t)
    (waits : (s.after z n i t).dio.ioctlWait = true) :
    Loading z n s i A V m d (t + 1) := by
  obtain ⟨k, busy⟩ := here.busy waits
  have run := (download_waiting start hps waits).1
  have quiet := no_write hps waits
  have count' : count i (t + 1) = k + 1 :=
    (congrArg List.length (sent_idle (i := fun t => (i t).ioctl) run quiet)).trans busy.last
  have low := (locked (z := z) (n := n) (i := i) start t).phase
  have phase' := phase_next (z := z) (n := n) (s := s) (i := i) t
  have mem' : Matches (s.after z n i (t + 1)).sdram.mem (filled A V m k) ∨
      Matches (s.after z n i (t + 1)).sdram.mem (filled A V m (k + 1)) ∧
        Wrote z n s i A V d (t + 1) k := by
    by_cases column : (s.after z n i t).shared.slots.dioBusControl = true ∧
        (s.after z n i t).shared.slots.busPhase = 1 ∧ (s.after z n i t).dio.dioWrite = true
    · exact .inr (busy.column start hps waits column.1 column.2.1 column.2.2)
    · rcases busy.mem with before | ⟨after_, wrote⟩
      · exact .inl fun x inside => (mem_still start small column inside).trans (before x inside)
      · exact .inr ⟨fun x inside => (mem_still start small column inside).trans (after_ x inside),
          wrote.later⟩
  have finished : (s.after z n i t).shared.slots.busPhase ≠ 1 →
      (s.after z n i t).dio.dioWrite = true →
      (s.after z n i t).shared.slots.dioBusControl = true ∧
          2 ≤ (s.after z n i t).shared.slots.busPhase ∨
        (s.after z n i t).shared.slots.busCycle = 3 ∧
          (s.after z n i t).shared.slots.busPhase = 0 →
      Matches (s.after z n i (t + 1)).sdram.mem (filled A V m (k + 1)) ∧
        Wrote z n s i A V d (t + 1) k := by
    intro other write place
    obtain ⟨same, wrote⟩ := busy.done write place
    exact ⟨fun x inside =>
      (mem_still start small (fun h => other h.2.1) inside).trans (same x inside), wrote.later⟩
  refine ⟨fun clear => ?_, fun waits' => ⟨k, ?_⟩⟩
  · have wait := wait_next (z := z) (n := n) (s := s) (i := i) t
    rw [clear, waits, Bool.or_true] at wait
    have cleared : ((s.after z n i t).dio.oldCyc &&
        !(s.after z n i t).shared.slots.dioBusControl && (s.after z n i t).dio.dioWrite) = true := by
      by_contra not_
      rw [if_neg not_] at wait
      cases wait
    simp only [Bool.and_eq_true, Bool.not_eq_true'] at cleared
    obtain ⟨⟨old, outside⟩, write⟩ := cleared
    have first : (s.after z n i t).shared.slots.busCycle = 3 ∧
        (s.after z n i t).shared.slots.busPhase = 0 := by
      rcases (handshake (z := z) (n := n) (i := i) start t).old old with two | first
      · simp [Slots.dioBusControl, two] at outside
      · exact first
    obtain ⟨same, wrote⟩ := finished (by omega) write (.inr first)
    rw [count']
    refine ⟨same, fun j before => ?_⟩
    rcases Nat.lt_or_eq_of_le (Nat.le_of_lt_succ before) with less | rfl
    · exact (busy.earlier j less).later
    · exact wrote
  · have word := word_next hps waits
    exact {
      started := Nat.lt_succ_of_lt busy.started
      last := count'
      addr := word.1.trans busy.addr
      data := word.2.trans busy.data
      earlier := fun j before => (busy.earlier j before).later
      mem := mem'
      row := by
        intro slot' one write'
        have inside : (s.after z n i t).shared.slots.busPhase = 0 := by omega
        have slot : (s.after z n i t).shared.slots.dioBusControl = true := by
          rwa [slot_next (by omega)] at slot'
        have write : (s.after z n i t).dio.dioWrite = true := by
          rwa [slot_keeps_write slot] at write'
        exact row_taken start hps inside slot write
      done := by
        intro write' place
        have slot : (s.after z n i t).shared.slots.dioBusControl = true := by
          rcases place with ⟨slot', two⟩ | ⟨three, zero⟩
          · rwa [slot_next (by omega)] at slot'
          · have last : (s.after z n i t).shared.slots.busPhase = 3 := by omega
            have next : (s.after z n i (t + 1)).shared.slots.busCycle =
                ((s.after z n i t).shared.slots.busCycle + 1) % 4 := if_pos last
            have bound := cycle_run (z := z) (n := n) (i := i) start t
            have two : (s.after z n i t).shared.slots.busCycle = 2 := by omega
            rw [Slots.dioBusControl, two]
            rfl
        have write : (s.after z n i t).dio.dioWrite = true := by
          rwa [slot_keeps_write slot] at write'
        by_cases one : (s.after z n i t).shared.slots.busPhase = 1
        · exact busy.column start hps waits slot one write
        · refine finished one write (.inl ⟨slot, ?_⟩)
          rcases place with ⟨-, two⟩ | ⟨-, zero⟩ <;> omega }

end Run

end MacIIvi.Floppy
