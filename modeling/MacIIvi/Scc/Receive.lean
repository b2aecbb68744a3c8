import MacIIvi.Scc.OneShot

/-!
# The receive queues

A read of the data port shows the oldest byte for as long as it lasts, and the byte is taken
out of the queue after it. The bytes are counted from the last reset on.
-/

namespace MacIIvi

open Scc (Channel)

namespace Scc

/-- The bytes in the queue of a channel, oldest first. -/
def queued (s : Scc) (c : Channel) : List Byte :=
  (List.range (s.rxQueuePos c)).map (s.rxQueue c)

/-- A read of the data port of a channel. -/
def reads (w : Nat → SccIn) (c : Channel) (t : Nat) : Bool :=
  (w t).cs && (w t).dataPort c && !(w t).we

/-- Its last clock, in which the CPU has the byte. -/
def ends (w : Nat → SccIn) (c : Channel) (t : Nat) : Bool := reads w c t && !(w (t + 1)).cs

section Bytes

variable (w : Nat → SccIn) (c : Channel)

/-- The received bytes that found room. -/
def accepted : Nat → List Byte
  | 0 => []
  | t + 1 =>
    if (run w t).reset (w t) then []
    else accepted t ++
      if (run w t).accepts (w t) c then [(w t).rxData c] else []

/-- The bytes of the reads that found one. -/
def returned : Nat → List Byte
  | 0 => []
  | t + 1 =>
    if (run w t).reset (w t) then []
    else returned t ++
      if ends w c t && decide (0 < (run w t).rxQueuePos c) then
        [(run w t).rdata (w t)]
      else []

/-- The bytes that have not been returned: once a read has ended, the oldest byte is no more
than waiting to be taken out. -/
def unread (t : Nat) : List Byte :=
  if (run w t).pendingDequeue c && !reads w c t then
    ((run w t).queued c).tail
  else (run w t).queued c

/-- A read begins while the byte of an earlier one has still not been taken out. -/
structure Repeats (t : Nat) : Prop where
  low : (w t).cs = false
  begins : reads w c (t + 1) = true
  owed : (run w t).pendingDequeue c = true
  some_ : 0 < (run w t).rxQueuePos c
  held : (run w t).pops (w t) c = false

/-- A byte comes into the empty queue after a read that found none, and before what that
read has left to be taken out. -/
structure Drops (t : Nat) : Prop where
  running : (run w t).reset (w t) = false
  over_ : reads w c (t + 1) = false
  owed : (run w t).pendingDequeue c = true ∨ reads w c t = true
  empty : (run w t).rxQueuePos c = 0
  arrives : (w t).rxWr c = true

end Bytes

/-- Each access is one operation, by the pointer it finds; a control read shows one register;
and the bytes that have been received are those returned and those still to be read. -/
structure Correct (w : Nat → SccIn) : Prop where
  acts : ∀ t, (run w t).performs (w t) = if first w t then [action w t] else []
  selected : ∀ a t, a ≤ t → (a = 0 ∨ (w (a - 1)).cs = false) →
    (∀ x, a ≤ x → x ≤ t → (w x).cs = true) → (w a).rs1 = false → (w a).we = false →
    (run w t).rindexLatch (w t) = pointer w a (w a).side
  bytes : ∀ c t, accepted w c t = returned w c t ++ unread w c t

variable {w : Nat → SccIn} {s : Scc} {v : SccIn} {t : Nat} {c : Channel}

/-! ## The queue -/

theorem queued_eq_nil : s.queued c = [] ↔ s.rxQueuePos c = 0 := by
  simp [queued]

theorem queued_cons (some_ : 0 < s.rxQueuePos c) :
    s.queued c = s.rxQueue c 0 :: (s.queued c).tail := by
  obtain ⟨n, pos⟩ : ∃ n, s.rxQueuePos c = n + 1 := ⟨_, (Nat.succ_pred_eq_of_pos some_).symm⟩
  simp [queued, pos, List.range_succ_eq_map]

theorem pos_le (w : Nat → SccIn) (c : Channel) (t : Nat) :
    (run w t).rxQueuePos c ≤ 3 := by
  induction t with
  | zero => exact Nat.zero_le 3
  | succ t ih =>
    change (run w t).rxQueuePosNext (w t) c ≤ 3
    unfold rxQueuePosNext
    split
    · exact Nat.zero_le 3
    · split
      · next room =>
        simp only [accepts, Bool.and_eq_true, decide_eq_true_eq] at room
        exact room.2
      · split
        · omega
        · exact ih

theorem queued_next (fits : s.rxQueuePos c ≤ 3) (running : s.reset v = false) :
    (s.next v).queued c =
      if s.accepts v c then s.queued c ++ [v.rxData c]
      else if s.pops v c then (s.queued c).tail
      else s.queued c := by
  change (List.range (s.rxQueuePosNext v c)).map (s.rxQueueNext v c) = _
  rw [rxQueuePosNext, rxQueueNext, running, if_neg Bool.false_ne_true]
  cases room : s.accepts v c with
  | true =>
    simp only [if_true, List.range_succ, List.map_append, List.map_singleton,
      Function.update_self]
    congr 1
    refine List.map_congr_left fun i low => ?_
    rw [List.mem_range] at low
    exact Function.update_of_ne (Nat.ne_of_lt low) _ _
  | false =>
    cases pop : s.pops v c with
    | false => simp [queued]
    | true =>
      unfold queued
      generalize s.rxQueuePos c = n at fits
      match n with
      | 0 | 1 | 2 | 3 => rfl
      | n + 4 => omega

theorem queued_reset (up : s.reset v = true) : (s.next v).queued c = [] := by
  refine queued_eq_nil.mpr ?_
  change s.rxQueuePosNext v c = 0
  rw [rxQueuePosNext, up, if_pos rfl]

/-! ## The reads -/

theorem reads_iff : reads w c t = true ↔
    (w t).cs = true ∧ (w t).dataPort c = true ∧ (w t).we = false := by
  simp [reads, and_assoc]

theorem reads_next (bus : Bus w) (now : (w t).cs = true) (then_ : (w (t + 1)).cs = true)
    (c : Channel) : reads w c (t + 1) = reads w c t := by
  obtain ⟨we, rs1, rs0, -⟩ := bus.stable t now then_
  have side : (w (t + 1)).side = (w t).side := by rw [SccIn.side, SccIn.side, rs0]
  rw [reads, reads, now, then_, we, SccIn.dataPort, SccIn.dataPort, rs1, side]

/-- The clock before a read that begins. -/
theorem low_before (bus : Bus w) (begins : reads w c (t + 1) = true)
    (other : reads w c t = false) : (w t).cs = false := by
  refine Bool.eq_false_iff.mpr fun now => ?_
  have same := reads_next bus now (reads_iff.mp begins).1 c
  exact absurd (other.symm.trans (same.symm.trans begins)) Bool.false_ne_true

theorem low_after (bus : Bus w) (now : reads w c t = true) (over_ : reads w c (t + 1) = false) :
    (w (t + 1)).cs = false := by
  refine Bool.eq_false_iff.mpr fun then_ => ?_
  have same := reads_next bus (reads_iff.mp now).1 then_ c
  exact absurd (over_.symm.trans (same.trans now)) Bool.false_ne_true

/-- An access that ends has had its `cen`. -/
theorem used_at_end (bus : Bus w) (now : (w t).cs = true) (over_ : (w (t + 1)).cs = false) :
    used w (t + 1) = true := by
  cases before : used w t with
  | true => simp [used, now, before]
  | false =>
    obtain ⟨u, after_, cs, cen⟩ := bus.long t now before
    have here : u = t := by
      by_contra other
      have later : (w (t + 1)).cs = true := cs (t + 1) (Nat.le_succ t) (by omega)
      exact absurd (over_.symm.trans later) Bool.false_ne_true
    rw [here] at cen
    simp [used, now, cen]

theorem reset_of_read (bus : Bus w) (now : reads w c t = true) : s.reset (w t) = false := by
  simp [reset, resetCommand, wreg, (reads_iff.mp now).2.2, bus.running t]

theorem flagsPop_of_idle (idle : reads w c t = false) : s.flagsPop (w t) c = false := by
  refine Bool.eq_false_iff.mpr fun up => ?_
  simp only [flagsPop, processes, Bool.and_eq_true, Bool.not_eq_true'] at up
  obtain ⟨⟨⟨⟨-, cs⟩, -⟩, port⟩, dir⟩ := up
  exact absurd (idle.symm.trans (reads_iff.mpr ⟨cs, port, dir⟩)) Bool.false_ne_true

theorem pops_low (pop : s.pops (w t) c = true) : (w t).cs = false ∧ (w t).rxWr c = false := by
  simp only [pops, cleansUp, Bool.and_eq_true, Bool.not_eq_true'] at pop
  exact ⟨pop.1.1.2, pop.2⟩

theorem pops_of_read (now : reads w c t = true) : s.pops (w t) c = false := by
  refine Bool.eq_false_iff.mpr fun pop => ?_
  exact absurd ((pops_low pop).1.symm.trans (reads_iff.mp now).1) Bool.false_ne_true

theorem pendingDequeue_idle (running : s.reset (w t) = false) (idle : reads w c t = false) :
    (s.next (w t)).pendingDequeue c = (s.pendingDequeue c && !s.pops (w t) c) := by
  change s.pendingDequeueNext (w t) c = _
  rw [pendingDequeueNext, running, flagsPop_of_idle idle]
  cases pop : s.pops (w t) c <;> simp

/-- A read that has had its `cen` leaves a pop to be done. -/
theorem owed_of_read (bus : Bus w) (tracks : ∀ t, (run w t).Tracks w t)
    (c : Channel) (t : Nat) (now : reads w c t = true)
    (up : (used w t || (w t).cen) = true) :
    (run w (t + 1)).pendingDequeue c = true := by
  have flags : ∀ t, reads w c t = true → used w t = false → (w t).cen = true →
      (run w t).flagsPop (w t) c = true := by
    intro t now unused cen
    obtain ⟨cs, port, dir⟩ := reads_iff.mp now
    rw [flagsPop, (tracks t).processes_eq]
    simp [first, cs, cen, unused, port, dir]
  induction t with
  | zero =>
    change (run w 0).pendingDequeueNext (w 0) c = true
    rw [pendingDequeueNext, reset_of_read bus now, flags 0 now rfl (by simpa [used] using up)]
    rfl
  | succ t ih =>
    change (run w (t + 1)).pendingDequeueNext (w (t + 1)) c = true
    rw [pendingDequeueNext, reset_of_read bus now, pops_of_read now]
    cases before : used w (t + 1) with
    | true =>
      simp only [used, Bool.and_eq_true] at before
      have earlier : reads w c t = true :=
        (reads_next bus before.1 (reads_iff.mp now).1 c).symm.trans now
      rw [ih earlier before.2]
      simp
    | false =>
      rw [before, Bool.false_or] at up
      rw [flags (t + 1) now before up]
      rfl

theorem rdata_of_read (now : reads w c t = true) : s.rdata (w t) = s.rxQueue c 0 := by
  obtain ⟨-, port, -⟩ := reads_iff.mp now
  obtain ⟨rs1, side⟩ := dataPort_iff.mp port
  rw [rdata, rs1, if_pos rfl, side]

/-! ## One clock of the bytes -/

/-- The byte that a clock brings into the queue. -/
def arriving (s : Scc) (v : SccIn) (c : Channel) : List Byte :=
  if s.accepts v c then [v.rxData c] else []

/-- The byte that a clock returns. -/
def leaving (w : Nat → SccIn) (c : Channel) (t : Nat) : List Byte :=
  if ends w c t && decide (0 < (run w t).rxQueuePos c) then
    [(run w t).rdata (w t)]
  else []

theorem arriving_empty (empty : s.rxQueuePos c = 0) : s.arriving v c = [] ↔ v.rxWr c = false := by
  cases up : v.rxWr c <;> simp [arriving, accepts, empty, up]

theorem queued_arriving (fits : s.rxQueuePos c ≤ 3) (running : s.reset v = false)
    (stays : s.pops v c = false) : (s.next v).queued c = s.queued c ++ s.arriving v c := by
  rw [queued_next fits running, stays, arriving]
  cases s.accepts v c <;> simp

/-- A pop takes out the oldest byte and nothing arrives. -/
theorem queued_popped (fits : s.rxQueuePos c ≤ 3) (running : s.reset v = false)
    (pop : s.pops v c = true) :
    (s.next v).queued c = (s.queued c).tail ∧ s.arriving v c = [] := by
  have none_ : s.accepts v c = false := by
    simp only [pops, Bool.and_eq_true, Bool.not_eq_true'] at pop
    simp [accepts, pop.2]
  constructor
  · rw [queued_next fits running, none_, pop]
    rfl
  · rw [arriving, none_]
    rfl

/-- A byte behind the oldest is kept, and one in the place of the oldest is not. -/
theorem tail_append_iff {q arr : List Byte} :
    q.tail ++ arr = (q ++ arr).tail ↔ (q = [] → arr = []) := by
  cases q with
  | cons x q => simp
  | nil => cases arr <;> simp

section Step

variable (bus : Bus w) (running : (run w t).reset (w t) = false)

include bus running

theorem balance_read (tracks : ∀ t, (run w t).Tracks w t) (now : reads w c t = true) :
    (unread w c t ++ (run w t).arriving (w t) c =
      leaving w c t ++ unread w c (t + 1)) ↔ ¬ Drops w c t := by
  have stays := pops_of_read (s := run w t) now
  have queue := queued_arriving (pos_le w c t) running stays
  have whole : unread w c t = (run w t).queued c := by simp [unread, now]
  rw [whole]
  cases over_ : reads w c (t + 1) with
  | true =>
    have cs : (w (t + 1)).cs = true := (reads_iff.mp over_).1
    have nothing : leaving w c t = [] := by simp [leaving, ends, cs]
    have rest : unread w c (t + 1) = (run w (t + 1)).queued c := by
      simp [unread, over_]
    refine iff_of_true ?_ fun drops => ?_
    · rw [nothing, rest]
      exact queue.symm
    · exact absurd (over_.symm.trans drops.over_) Bool.false_ne_true.symm
  | false =>
    have cs := low_after bus now over_
    have up : (used w t || (w t).cen) = true := by
      have used_ := used_at_end bus (reads_iff.mp now).1 cs
      simp only [used, Bool.and_eq_true] at used_
      exact used_.2
    have owed := owed_of_read bus tracks c t now up
    have rest : unread w c (t + 1) =
        ((run w t).queued c ++ (run w t).arriving (w t) c).tail := by
      rw [← queue]
      simp only [unread, owed, over_]
      rfl
    rw [rest]
    by_cases empty : (run w t).rxQueuePos c = 0
    · have nothing : leaving w c t = [] := by simp [leaving, empty]
      rw [nothing, queued_eq_nil.mpr empty]
      constructor
      · intro same drops
        have none_ : (run w t).arriving (w t) c = [] := by
          cases arr : (run w t).arriving (w t) c with
          | nil => rfl
          | cons x l => rw [arr] at same; simp at same
        exact absurd (((arriving_empty empty).mp none_).symm.trans drops.arrives)
          Bool.false_ne_true
      · intro clean
        have quiet : (w t).rxWr c = false := Bool.eq_false_iff.mpr fun arrives =>
          clean ⟨running, over_, .inr now, empty, arrives⟩
        rw [(arriving_empty empty).mpr quiet]
        rfl
    · have some_ : 0 < (run w t).rxQueuePos c := Nat.pos_of_ne_zero empty
      have byte : leaving w c t = [(run w t).rxQueue c 0] := by
        simp [leaving, ends, now, cs, some_, rdata_of_read now]
      refine iff_of_true ?_ fun drops => empty drops.empty
      rw [byte, queued_cons some_]
      rfl

theorem balance_idle (now : reads w c t = false) :
    (unread w c t ++ (run w t).arriving (w t) c =
      leaving w c t ++ unread w c (t + 1)) ↔ ¬ Repeats w c t ∧ ¬ Drops w c t := by
  have nothing : leaving w c t = [] := by simp [leaving, ends, now]
  have owedNext : (run w (t + 1)).pendingDequeue c =
      ((run w t).pendingDequeue c && !(run w t).pops (w t) c) :=
    pendingDequeue_idle running now
  have before : unread w c t =
      if (run w t).pendingDequeue c then ((run w t).queued c).tail
      else (run w t).queued c := by
    simp [unread, now]
  have after_ : unread w c (t + 1) =
      if (run w (t + 1)).pendingDequeue c && !reads w c (t + 1) then
        ((run w (t + 1)).queued c).tail
      else (run w (t + 1)).queued c := rfl
  rw [nothing, before, after_, owedNext, List.nil_append]
  cases pop : (run w t).pops (w t) c with
  | true =>
    obtain ⟨queue, none_⟩ := queued_popped (pos_le w c t) running pop
    have owed : (run w t).pendingDequeue c = true := by
      simp only [pops, Bool.and_eq_true] at pop
      exact pop.1.2
    refine iff_of_true ?_ ⟨fun repeats => ?_, fun drops => ?_⟩
    · rw [none_, owed, List.append_nil]
      exact queue.symm
    · exact absurd (repeats.held.symm.trans pop) Bool.false_ne_true
    · exact absurd ((pops_low pop).2.symm.trans drops.arrives) Bool.false_ne_true
  | false =>
    have queue : (run w (t + 1)).queued c =
        (run w t).queued c ++ (run w t).arriving (w t) c :=
      queued_arriving (pos_le w c t) running pop
    rw [queue]
    cases owed : (run w t).pendingDequeue c with
    | false =>
      refine iff_of_true rfl ⟨fun repeats => ?_, fun drops => ?_⟩
      · exact absurd (owed.symm.trans repeats.owed) Bool.false_ne_true
      · rcases drops.owed with up | up
        · exact absurd (owed.symm.trans up) Bool.false_ne_true
        · exact absurd (now.symm.trans up) Bool.false_ne_true
    | true =>
      cases begins : reads w c (t + 1) with
      | true =>
        have noDrop : ¬ Drops w c t := fun drops =>
          absurd (drops.over_.symm.trans begins) Bool.false_ne_true
        rw [and_iff_left noDrop]
        change ((run w t).queued c).tail ++ (run w t).arriving (w t) c =
          (run w t).queued c ++ (run w t).arriving (w t) c ↔ _
        rw [List.append_cancel_right_eq]
        by_cases empty : (run w t).rxQueuePos c = 0
        · refine iff_of_true ?_ fun repeats => Nat.lt_irrefl 0 (empty ▸ repeats.some_)
          rw [queued_eq_nil.mpr empty]
          rfl
        · have some_ : 0 < (run w t).rxQueuePos c := Nat.pos_of_ne_zero empty
          refine iff_of_false ?_ fun clean =>
            clean ⟨low_before bus begins now, begins, owed, some_, pop⟩
          rw [queued_cons some_]
          intro same
          have long := congrArg List.length same
          simp at long
      | false =>
        have noRepeat : ¬ Repeats w c t := fun repeats =>
          absurd (begins.symm.trans repeats.begins) Bool.false_ne_true
        rw [and_iff_right noRepeat]
        change ((run w t).queued c).tail ++ (run w t).arriving (w t) c =
          ((run w t).queued c ++ (run w t).arriving (w t) c).tail ↔ _
        rw [tail_append_iff, queued_eq_nil]
        constructor
        · intro kept drops
          have none_ := (arriving_empty drops.empty).mp (kept drops.empty)
          exact absurd (none_.symm.trans drops.arrives) Bool.false_ne_true
        · intro clean empty
          refine (arriving_empty empty).mpr (Bool.eq_false_iff.mpr fun arrives => ?_)
          exact clean ⟨running, begins, .inl owed, empty, arrives⟩

end Step

/-- One clock keeps the bytes together exactly if it neither repeats nor drops one. -/
theorem bytes_step (bus : Bus w) (tracks : ∀ t, (run w t).Tracks w t)
    (before : accepted w c t = returned w c t ++ unread w c t) :
    accepted w c (t + 1) = returned w c (t + 1) ++ unread w c (t + 1) ↔
      ¬ Repeats w c t ∧ ¬ Drops w c t := by
  cases running : (run w t).reset (w t) with
  | true =>
    have none_ : accepted w c (t + 1) = [] ∧ returned w c (t + 1) = [] := by
      simp [accepted, returned, running]
    have empty : (run w (t + 1)).queued c = [] := queued_reset running
    have rest : unread w c (t + 1) = [] := by
      unfold unread
      rw [empty]
      split <;> rfl
    refine iff_of_true ?_ ⟨fun repeats => ?_, fun drops => ?_⟩
    · rw [none_.1, none_.2, rest]
      rfl
    · simp [reset, resetCommand, wreg, repeats.low, bus.running t] at running
    · exact absurd (drops.running.symm.trans running) Bool.false_ne_true
  | false =>
    have more : accepted w c (t + 1) = accepted w c t ++ (run w t).arriving (w t) c := by
      rw [accepted, running]
      rfl
    have out : returned w c (t + 1) = returned w c t ++ leaving w c t := by
      rw [returned, running]
      rfl
    rw [more, out, before, List.append_assoc, List.append_assoc, List.append_cancel_left_eq]
    cases now : reads w c t with
    | false => exact balance_idle bus running now
    | true =>
      have noRepeat : ¬ Repeats w c t := fun repeats =>
        absurd (repeats.low.symm.trans (reads_iff.mp now).1) Bool.false_ne_true
      rw [and_iff_right noRepeat]
      exact balance_read bus running tracks now

/-- **Accesses and received bytes.** The controller does with each access and each received
byte what it should exactly if no hardware reset command comes before the first `cen` of its
access, no read begins while a byte that has been read is still in the queue, and no byte
comes into the empty queue before the pop of an earlier read. -/
theorem correct_iff (w : Nat → SccIn) (bus : Bus w) :
    Correct w ↔
      ∀ t, ¬ EarlyReset (w t) (run w t) ∧ ∀ c, ¬ Repeats w c t ∧ ¬ Drops w c t := by
  constructor
  · intro correct t
    have clean : ∀ t, ¬ EarlyReset (w t) (run w t) := not_early bus correct.acts
    have tracks := tracks_run bus clean
    exact ⟨clean t, fun c =>
      (bytes_step bus tracks (correct.bytes c t)).mp (correct.bytes c (t + 1))⟩
  · intro clean
    have tracks := tracks_run bus fun t => (clean t).1
    refine ⟨fun t => (tracks t).performs_eq bus (clean t).1, ?_, fun c t => ?_⟩
    · exact fun a t from_ start cs port dir => selected bus tracks from_ start cs port dir
    · induction t with
      | zero => simp [accepted, returned, unread, queued, run, after]
      | succ t ih => exact (bytes_step bus tracks ih).mpr ((clean t).2 c)

/-- A byte arrives on channel A, and the CPU reads the data port twice with a `cen` every
other clock; a second byte arrives in clock `second`. -/
def twoReads (second t : Nat) : SccIn where
  cen := decide (t % 2 = 1)
  cs := decide (8 ≤ t ∧ t < 16 ∨ 18 ≤ t ∧ t < 26)
  rs1 := true
  rs0 := true
  rxWr c := decide (c = .a ∧ (t = 3 ∨ t = second))
  rxData _ := if t = 3 then 0x41 else 0x42

theorem twoReads_bus (second : Nat) : Bus (twoReads second) where
  running _ := rfl
  stable _ _ _ := ⟨rfl, rfl, rfl, rfl⟩
  long t cs _ := by
    have cs : 8 ≤ t ∧ t < 16 ∨ 18 ≤ t ∧ t < 26 := of_decide_eq_true cs
    refine ⟨t + (t + 1) % 2, Nat.le_add_right .., fun x ge le => ?_, ?_⟩
    · exact decide_eq_true (by omega)
    · exact decide_eq_true (by omega)
  apart t low cs := by
    have low := of_decide_eq_false low
    have cs : 8 ≤ t + 1 ∧ t + 1 < 16 ∨ 18 ≤ t + 1 ∧ t + 1 < 26 := of_decide_eq_true cs
    have starts : t = 7 ∨ t = 17 := by omega
    rcases starts with rfl | rfl
    · rfl
    · rfl

theorem both_read : Correct (twoReads 5) := by
  refine (correct_iff (twoReads 5) (twoReads_bus 5)).mpr fun t => ⟨fun early => ?_, fun c => ?_⟩
  · have none_ : (run (twoReads 5) t).reset (twoReads 5 t) = false := by
      simp [reset, resetCommand, wreg, SccIn.control, twoReads]
    exact absurd (none_.symm.trans early.1) Bool.false_ne_true
  · have side : ∀ t, reads (twoReads 5) c t = true → c = .a := by
      intro t read
      exact (dataPort_iff.mp (reads_iff.mp read).2.1).2.symm
    constructor
    · intro repeats
      obtain rfl := side _ repeats.begins
      have starts : t = 7 ∨ t = 17 := by
        have low := of_decide_eq_false repeats.low
        have cs := of_decide_eq_true (reads_iff.mp repeats.begins).1
        omega
      rcases starts with rfl | rfl
      · exact absurd repeats.owed (by decide)
      · exact absurd repeats.held (by decide)
    · intro drops
      obtain ⟨rfl, when_⟩ := of_decide_eq_true drops.arrives
      rcases when_ with rfl | rfl
      · exact absurd drops.owed (by decide)
      · exact absurd drops.owed (by decide)

/-- The second byte meets the only `cen` between the two reads. -/
theorem byte_repeated : Bus (twoReads 17) ∧ ¬ Correct (twoReads 17) := by
  refine ⟨twoReads_bus 17, fun correct => ?_⟩
  have bytes := correct.bytes .a 27
  revert bytes
  decide

end Scc

end MacIIvi
