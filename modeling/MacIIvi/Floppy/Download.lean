import MacIIvi.Floppy.Drive

/-!
# The download of a disk image

Source: `MacIIvi.sv`, the write path of the downloads with the detection of DiskCopy
headers. `sys/hps_io.sv` counts the words, gives the next one when `ioctl_wait` is low,
and lets `ioctl_download` fall after the last one in the same way.
-/

namespace MacIIvi.Floppy

abbrev Word := BitVec 16

/-- What `hps_io` gives at a clock; `addr` is `ioctl_addr[24:1]`. -/
structure Ioctl where
  download : Bool := false
  index : Nat := 1
  write : Bool := false
  addr : Nat := 0
  data : Word := 0

structure Dio where
  dioA : Nat
  dioData : Word
  dioWrite : Bool
  ioctlWait : Bool
  oldCyc : Bool
  dc42NameOk : Bool
  dc42Skip : Bool
  dc42DiskFormat : BitVec 8

def lowByte (w : Word) : BitVec 8 := w.extractLsb' 0 8

def highByte (w : Word) : BitVec 8 := w.extractLsb' 8 8

def swap (w : Word) : Word := lowByte w ++ highByte w

/-- The word of the staging region. -/
def stagingBase : Nat := 0x180000

namespace Dio

variable (s : Dio) (w : Ioctl) (dioBusControl : Bool)

/-- `dio_flp_a` -/
def flpA : Nat :=
  if s.dc42Skip then (w.addr % 2 ^ 20 + 2 ^ 20 - 42) % 2 ^ 20 else w.addr % 2 ^ 20

/-- The length of a Pascal name. -/
def nameLength (d : Word) : Bool :=
  decide (1 ≤ (lowByte d).toNat) && decide ((lowByte d).toNat ≤ 63)

/-- The detection of a DiskCopy header. -/
def detect : Dio :=
  if w.addr % 2 ^ 20 = 0 then { s with dc42Skip := false, dc42NameOk := nameLength w.data }
  else if w.addr % 2 ^ 20 = 40 then { s with dc42DiskFormat := lowByte w.data }
  else if w.addr % 2 ^ 20 = 41 ∧ s.dc42NameOk ∧ w.data = 1 then { s with dc42Skip := true }
  else s

/-- A word comes. -/
def take : Dio :=
  let n := if w.index % 4 ≠ 0 then s.detect w else s
  { n with
    dioData := swap w.data
    dioA := if w.index % 4 = 1 then stagingBase + s.flpA w else w.addr % 2 ^ 19
    ioctlWait := true }

/-- One clock. -/
def step : Dio :=
  let n := if w.write then s.take w else s
  { n with
    oldCyc := dioBusControl
    dioWrite := if dioBusControl then s.dioWrite else s.ioctlWait
    ioctlWait := if s.oldCyc && !dioBusControl && s.dioWrite then false else n.ioctlWait }

end Dio

/-! ## The words of a download -/

/-- The words that have come in the download that clock `t` finds under way. -/
def sent (i : Nat → Ioctl) : Nat → List Word
  | 0 => []
  | t + 1 =>
    if (i t).download then sent i t ++ (if (i t).write then [(i t).data] else []) else []

/-- A download ends at this clock. -/
def Ends (i : Nat → Ioctl) (t : Nat) : Prop :=
  ∃ u, t = u + 1 ∧ (i u).download = true ∧ (i t).download = false

/-- Downloads of the floppy entry of the menu, as `hps_io` makes them. The first word has
address 0, and the end of a download counts the last one, if it is not empty. -/
structure Hps (i : Nat → Ioctl) (wait : Nat → Bool) : Prop where
  start : (i 0).download = false
  menu : ∀ t, (i t).download = true → (i t).index % 64 = 1 ∧ (i (t + 1)).index % 64 = 1
  within : ∀ t, (i t).write = true → (i t).download = true
  waits : ∀ t, (i t).write = true → wait t = false
  addr : ∀ t, (i t).write = true → (i t).addr = (sent i t).length % 2 ^ 24
  done : ∀ t, Ends i t → wait t = false ∧ (i t).addr = max (sent i t).length 1 % 2 ^ 24

section Words

variable {i : Nat → Ioctl} {wait : Nat → Bool} {t : Nat}

theorem sent_write (run : (i t).download = true) (write : (i t).write = true) :
    sent i (t + 1) = sent i t ++ [(i t).data] := by
  rw [sent, if_pos run, if_pos write]

theorem sent_idle (run : (i t).download = true) (write : (i t).write = false) :
    sent i (t + 1) = sent i t := by
  rw [sent, if_pos run, if_neg (by simp [write]), List.append_nil]

theorem sent_stop (stop : (i t).download = false) : sent i (t + 1) = [] := by
  rw [sent, if_neg (by simp [stop])]

end Words

/-! ## The header -/

/-- The words from the last multiple of `2 ^ 20` on. -/
def lastChunk (ws : List Word) : List Word := ws.drop ((ws.length - 1) / 2 ^ 20 * 2 ^ 20)

theorem lastChunk_short {ws : List Word} (short : ws.length ≤ 2 ^ 20) : lastChunk ws = ws := by
  have zero : (ws.length - 1) / 2 ^ 20 = 0 := Nat.div_eq_of_lt (by omega)
  rw [lastChunk, zero, Nat.zero_mul, List.drop_zero]

theorem lastChunk_new {ws : List Word} {d : Word} (whole : ws.length % 2 ^ 20 = 0) :
    lastChunk (ws ++ [d]) = [d] := by
  have all : (ws ++ [d]).length - 1 = ws.length := by simp
  have size : ws.length / 2 ^ 20 * 2 ^ 20 = ws.length := by omega
  rw [lastChunk, all, size, List.drop_left]

theorem lastChunk_more {ws : List Word} {d : Word} (part : ws.length % 2 ^ 20 ≠ 0) :
    lastChunk (ws ++ [d]) = lastChunk ws ++ [d] := by
  have same : ((ws ++ [d]).length - 1) / 2 ^ 20 = (ws.length - 1) / 2 ^ 20 := by
    rw [List.length_append, List.length_singleton, Nat.add_sub_cancel]
    omega
  rw [lastChunk, same, lastChunk, List.drop_append_of_le_length (by omega)]

theorem lastChunk_length {ws : List Word} (part : ws.length % 2 ^ 20 ≠ 0) :
    (lastChunk ws).length = ws.length % 2 ^ 20 := by
  rw [lastChunk, List.length_drop]
  omega

/-- Does the file start with the length of a name? -/
def nameOk (ws : List Word) : Bool :=
  match ws with
  | [] => false
  | d :: _ => Dio.nameLength d

/-- Name length and magic of a DiskCopy header. -/
def isDc42 (ws : List Word) : Bool := nameOk ws && ws[41]? == some 1

/-- Byte `0x50` of the header. -/
def formatByte (ws : List Word) : BitVec 8 := lowByte (ws.getD 40 0)

theorem nameOk_append {ws : List Word} {d : Word} (some_ : ws ≠ []) :
    nameOk (ws ++ [d]) = nameOk ws := by
  cases ws with
  | nil => exact absurd rfl some_
  | cons c ws => rfl

theorem isDc42_append {ws : List Word} {d : Word} (some_ : ws ≠ []) :
    isDc42 (ws ++ [d]) =
      if ws.length = 41 then nameOk ws && d == 1 else isDc42 ws := by
  rw [isDc42, nameOk_append some_, isDc42]
  by_cases last : ws.length = 41
  · have here : (ws ++ [d])[41]? = some d := by
      rw [← last]
      simp
    rw [if_pos last, here]
    rfl
  · rw [if_neg last]
    by_cases low : ws.length < 41
    · have none_ : (ws ++ [d])[41]? = none := by
        rw [List.getElem?_eq_none_iff, List.length_append, List.length_singleton]
        omega
      have none' : ws[41]? = none := by
        rw [List.getElem?_eq_none_iff]
        omega
      rw [none_, none']
    · rw [List.getElem?_append_left (by omega)]

/-- What the registers know of the words that have come. -/
structure Detected (ws : List Word) (s : Dio) : Prop where
  name : s.dc42NameOk = nameOk (lastChunk ws)
  skip : s.dc42Skip = isDc42 (lastChunk ws)
  format : ws.length ≤ 2 ^ 20 → 40 < ws.length → s.dc42DiskFormat = formatByte ws

namespace Dio

/-- Only a word of a floppy image changes the registers of the detection. -/
theorem step_header (s : Dio) (w : Ioctl) (busControl : Bool) :
    ((s.step w busControl).dc42NameOk, (s.step w busControl).dc42Skip,
      (s.step w busControl).dc42DiskFormat) =
    if w.write ∧ w.index % 4 ≠ 0 then
      ((s.detect w).dc42NameOk, (s.detect w).dc42Skip, (s.detect w).dc42DiskFormat)
    else (s.dc42NameOk, s.dc42Skip, s.dc42DiskFormat) := by
  simp only [step, take]
  by_cases write : w.write = true <;> by_cases floppy : w.index % 4 ≠ 0 <;> simp [write, floppy]

end Dio

section Header

variable {s : Dio} {w : Ioctl} {ws : List Word}

theorem Detected.word (known : ws ≠ [] → Detected ws s) (addr : w.addr = ws.length % 2 ^ 24) :
    Detected (ws ++ [w.data]) (s.detect w) := by
  have place : w.addr % 2 ^ 20 = ws.length % 2 ^ 20 := by omega
  unfold Dio.detect
  rw [place]
  by_cases first : ws.length % 2 ^ 20 = 0
  · rw [if_pos first]
    refine ⟨?_, ?_, ?_⟩
    · rw [lastChunk_new first]
      rfl
    · rw [lastChunk_new first]
      simp [isDc42]
    · rw [List.length_append, List.length_singleton]
      omega
  · have some_ : ws ≠ [] := by
      rintro rfl
      exact first rfl
    have chunk : lastChunk ws ≠ [] := by
      intro none_
      have size := lastChunk_length first
      rw [none_] at size
      exact first size.symm
    obtain ⟨name, skip, format⟩ := known some_
    have name' : s.dc42NameOk = nameOk (lastChunk (ws ++ [w.data])) := by
      rw [lastChunk_more first, nameOk_append chunk, name]
    have skip' : isDc42 (lastChunk (ws ++ [w.data])) =
        if ws.length % 2 ^ 20 = 41 then nameOk (lastChunk ws) && w.data == 1
        else isDc42 (lastChunk ws) := by
      rw [lastChunk_more first, isDc42_append chunk, lastChunk_length first]
    rw [if_neg first]
    by_cases byte : ws.length % 2 ^ 20 = 40
    · rw [if_pos byte]
      refine ⟨name', ?_, ?_⟩
      · rw [skip', if_neg (by omega), skip]
      · intro short long
        rw [List.length_append, List.length_singleton] at short long
        have here : ws.length = 40 := by omega
        rw [formatByte, ← here, List.getD_eq_getElem?_getD, List.getElem?_concat_length]
        rfl
    · have format' : (ws ++ [w.data]).length ≤ 2 ^ 20 → 40 < (ws ++ [w.data]).length →
          s.dc42DiskFormat = formatByte (ws ++ [w.data]) := by
        intro short long
        rw [List.length_append, List.length_singleton] at short long
        rw [format (by omega) (by omega), formatByte, formatByte, List.getD_eq_getElem?_getD,
          List.getD_eq_getElem?_getD, List.getElem?_append_left (by omega)]
      rw [if_neg byte]
      by_cases magic : ws.length % 2 ^ 20 = 41
      · have before : isDc42 (lastChunk ws) = false := by
          have size := lastChunk_length first
          have none_ : (lastChunk ws)[41]? = none := by
            rw [List.getElem?_eq_none_iff]
            omega
          simp [isDc42, none_]
        rw [if_pos magic] at skip'
        by_cases hit : nameOk (lastChunk ws) = true ∧ w.data = 1
        · rw [if_pos ⟨magic, name.trans hit.1, hit.2⟩]
          exact ⟨name', by rw [skip', hit.1, hit.2]; rfl, format'⟩
        · rw [if_neg fun found => hit ⟨name.symm.trans found.2.1, found.2.2⟩]
          refine ⟨name', ?_, format'⟩
          rw [skip', skip, before]
          by_cases named : nameOk (lastChunk ws) = true
          · have other : (w.data == 1) = false := beq_eq_false_iff_ne.mpr fun one => hit ⟨named, one⟩
            rw [other, Bool.and_false]
          · simp [named]
      · rw [if_neg fun found => magic found.1]
        refine ⟨name', ?_, format'⟩
        rw [skip', if_neg magic, skip]

/-- The registers of the detection during a download and after it. -/
theorem Detected.of_header {s' : Dio} (known : Detected ws s)
    (same : (s'.dc42NameOk, s'.dc42Skip, s'.dc42DiskFormat) =
      (s.dc42NameOk, s.dc42Skip, s.dc42DiskFormat)) : Detected ws s' := by
  obtain ⟨name, skip, format⟩ := known
  simp only [Prod.mk.injEq] at same
  obtain ⟨name', skip', format'⟩ := same
  exact ⟨name'.trans name, skip'.trans skip, fun short long => format'.trans (format short long)⟩

end Header

section Run

variable {i : Nat → Ioctl} {wait : Nat → Bool} {d : Nat → Dio} {b : Nat → Bool}

/-- What has been seen of the download under way. -/
theorem detected_run (steps : ∀ t, d (t + 1) = (d t).step (i t) (b t)) (hps : Hps i wait)
    (t : Nat) (some_ : sent i t ≠ []) : Detected (sent i t) (d t) := by
  induction t with
  | zero => exact absurd rfl some_
  | succ t ih =>
    cases down : (i t).download with
    | false => exact absurd (sent_stop down) some_
    | true =>
      have floppy : (i t).index % 4 ≠ 0 := by
        have menu := (hps.menu t down).1
        omega
      have header := Dio.step_header (d t) (i t) (b t)
      rw [← steps] at header
      cases write : (i t).write with
      | false =>
        rw [sent_idle down write] at some_ ⊢
        rw [write, if_neg (by simp)] at header
        exact (ih some_).of_header header
      | true =>
        rw [sent_write down write]
        rw [write, if_pos ⟨rfl, floppy⟩] at header
        exact (Detected.word ih (hps.addr t write)).of_header header

end Run

/-! ## The handshake and the slots -/

/-- Between two words `dio_write` stays high for one clock only, the second of bus
cycle 3. -/
structure Handshake (c : Slots) (s : Dio) : Prop where
  old : s.oldCyc = true → c.busCycle = 2 ∨ c.busCycle = 3 ∧ c.busPhase = 0
  pending : s.dioWrite = true → s.ioctlWait = true ∨ c.busCycle = 3 ∧ c.busPhase = 1

/-- The extra slot. -/
def Slots.dioBusControl (c : Slots) : Bool := c.busCycle == 2

section Handshake

variable {c : Slots} {s : Dio} {w : Ioctl}

theorem ioctlWait_step (s : Dio) (w : Ioctl) (b : Bool) : (s.step w b).ioctlWait =
    if s.oldCyc && !b && s.dioWrite then false else w.write || s.ioctlWait := by
  cases write : w.write <;> simp [Dio.step, Dio.take, write]

theorem Handshake.step (here : Handshake c s) : Handshake c.step (s.step w c.dioBusControl) := by
  have wait := ioctlWait_step s w c.dioBusControl
  refine ⟨?_, ?_⟩
  · intro old
    have slot : c.busCycle = 2 := by
      have bus : c.dioBusControl = true := old
      simpa [Slots.dioBusControl] using bus
    by_cases last : c.busPhase = 3 <;> simp [Slots.step, slot, last]
  · intro pending
    have pending' : (if c.dioBusControl then s.dioWrite else s.ioctlWait) = true := pending
    cases bus : c.dioBusControl with
    | true =>
      rw [bus, if_pos rfl] at pending'
      have slot : c.busCycle = 2 := by simpa [Slots.dioBusControl] using bus
      obtain waits | ⟨three, -⟩ := here.pending pending'
      · rw [bus] at wait
        left
        rw [wait]
        simp [waits]
      · omega
    | false =>
      rw [bus, if_neg Bool.false_ne_true] at pending'
      rw [bus] at wait
      by_cases cleared : (s.oldCyc && !false && s.dioWrite) = true
      · have old : s.oldCyc = true := by
          simp only [Bool.and_eq_true] at cleared
          exact cleared.1.1
        obtain slot | ⟨three, zero⟩ := here.old old
        · simp [Slots.dioBusControl, slot] at bus
        · right
          simp [Slots.step, three, zero]
      · left
        rw [wait, if_neg cleared, pending', Bool.or_true]

/-- In the extra slot a word is written that has not been acknowledged. -/
theorem Handshake.waiting (here : Handshake c s) (slot : c.dioBusControl = true)
    (write : s.dioWrite = true) : s.ioctlWait = true := by
  obtain waits | ⟨three, -⟩ := here.pending write
  · exact waits
  · simp [Slots.dioBusControl, three] at slot

end Handshake

section Pending

variable {i : Nat → Ioctl} {d : Nat → Dio} {b : Nat → Bool}

/-- A word that waits belongs to the download under way. -/
theorem download_of_wait (steps : ∀ t, d (t + 1) = (d t).step (i t) (b t))
    (quiet : (d 0).ioctlWait = false) (hps : Hps i fun t => (d t).ioctlWait) (t : Nat)
    (waits : (d t).ioctlWait = true) :
    (i t).download = true ∧ ∃ u, t = u + 1 ∧ (i u).download = true := by
  induction t with
  | zero => exact absurd (quiet.symm.trans waits) Bool.false_ne_true
  | succ t ih =>
    have before : (i t).download = true := by
      have wait := ioctlWait_step (d t) (i t) (b t)
      rw [← steps, waits] at wait
      split at wait
      · cases wait
      · cases write : (i t).write with
        | true => exact hps.within t write
        | false =>
          rw [write, Bool.false_or] at wait
          exact (ih wait.symm).1
    refine ⟨?_, t, rfl, before⟩
    by_contra stop
    have ends : Ends i (t + 1) := ⟨t, rfl, before, by simpa using stop⟩
    exact absurd (waits.symm.trans (hps.done _ ends).1) (by decide)

end Pending

/-! ## A word in each round of the slots -/

/-- The rounds of the download that round `r` finds under way. -/
def age (active : Nat → Bool) : Nat → Nat
  | 0 => 0
  | r + 1 => if active r then age active r + 1 else 0

/-- Their words. -/
def file (active : Nat → Bool) (word : Nat → Word) : Nat → List Word
  | 0 => []
  | r + 1 => if active r then file active word r ++ [word r] else []

/-- A word at the start of each active round of 16 clocks. -/
def play (active : Nat → Bool) (word : Nat → Word) (t : Nat) : Ioctl where
  download := active (t / 16)
  write := active (t / 16) && t % 16 == 0
  addr :=
    (if active (t / 16) then age active (t / 16) else max (age active (t / 16)) 1) % 2 ^ 24
  data := word (t / 16)

section Play

variable {active : Nat → Bool} {word : Nat → Word} {t n : Nat}

theorem file_length (r : Nat) : (file active word r).length = age active r := by
  induction r with
  | zero => rfl
  | succ r ih =>
    rw [file, age]
    split
    · rw [List.length_append, ih, List.length_singleton]
    · rfl

/-- The words of a download that starts after an idle round. -/
theorem file_span {r : Nat} (before : active r = false)
    (run : ∀ j < n, active (r + 1 + j) = true) :
    file active word (r + 1 + n) = (List.range n).map fun j => word (r + 1 + j) := by
  induction n with
  | zero => rw [Nat.add_zero, file, before]; rfl
  | succ n ih =>
    have words := ih fun j low => run j (by omega)
    rw [← Nat.add_assoc, file, run n (by omega), if_pos rfl, words, List.range_succ,
      List.map_append]
    rfl

/-- The rounds of one download of `n` words. -/
def rounds (n r : Nat) : Bool := decide (1 ≤ r ∧ r ≤ n)

theorem file_rounds (n : Nat) :
    file (rounds n) word (n + 1) = (List.range n).map fun j => word (j + 1) := by
  have span : file (rounds n) word (0 + 1 + n) = _ :=
    file_span rfl fun j low => decide_eq_true ⟨by omega, by omega⟩
  rw [show 0 + 1 + n = n + 1 by omega] at span
  rw [span]
  congr
  funext j
  rw [show 0 + 1 + j = j + 1 by omega]

theorem sent_play (t : Nat) : sent (play active word) t = file active word ((t + 15) / 16) := by
  induction t with
  | zero => rfl
  | succ t ih =>
    have after_ : (t + 1 + 15) / 16 = t / 16 + 1 := by omega
    rw [sent, ih, after_, file]
    by_cases round : t % 16 = 0
    · have here : (t + 15) / 16 = t / 16 := by omega
      cases run : active (t / 16) <;> simp [play, run, round, here]
    · have here : (t + 15) / 16 = t / 16 + 1 := by omega
      cases run : active (t / 16) <;> simp [play, run, round, here, file]

theorem sent_round (r : Nat) : sent (play active word) (16 * r) = file active word r := by
  rw [sent_play, show (16 * r + 15) / 16 = r by omega]

theorem ends_play (ends : Ends (play active word) t) :
    ∃ r, t = 16 * (r + 1) ∧ active r = true ∧ active (r + 1) = false := by
  obtain ⟨u, rfl, run, stop⟩ := ends
  have run : active (u / 16) = true := run
  have stop : active ((u + 1) / 16) = false := stop
  by_cases round : (u + 1) % 16 = 0
  · exact ⟨u / 16, by omega, run, by rwa [show u / 16 + 1 = (u + 1) / 16 by omega]⟩
  · rw [show (u + 1) / 16 = u / 16 by omega, run] at stop
    cases stop

/-- `old_cyc`, `dio_write` and `ioctl_wait` go by themselves. -/
def hand (d : Dio) : Bool × Bool × Bool := (d.oldCyc, d.dioWrite, d.ioctlWait)

def handNext (h : Bool × Bool × Bool) (b write : Bool) : Bool × Bool × Bool :=
  (b, if b then h.2.1 else h.2.2, if h.1 && !b && h.2.1 then false else write || h.2.2)

theorem hand_step (d : Dio) (w : Ioctl) (b : Bool) :
    hand (d.step w b) = handNext (hand d) b w.write := by
  rw [hand, ioctlWait_step]
  rfl

/-- The handshake in one round, which brings a word or none. -/
def handRound (write : Bool) : Nat → Bool × Bool × Bool
  | 0 => (false, false, false)
  | k + 1 => handNext (handRound write k) (k / 4 % 4 == 2) (write && k == 0)

theorem handRound_ends (write : Bool) : handRound write 16 = (false, false, false) := by
  cases write <;> decide

/-- At the start of each round nothing waits. -/
theorem hand_play {d : Nat → Dio} {c : Slots} (clear : hand (d 0) = (false, false, false))
    (slots : ∀ t, (c.after t).busCycle = t / 4 % 4)
    (steps : ∀ t, d (t + 1) = (d t).step (play active word t) (c.after t).dioBusControl)
    (r : Nat) : hand (d (16 * r)) = (false, false, false) := by
  induction r with
  | zero => exact clear
  | succ r ih =>
    have inside : ∀ k ≤ 16, hand (d (16 * r + k)) = handRound (active r) k := by
      intro k few
      induction k with
      | zero => exact ih
      | succ k before =>
        have slot : (c.after (16 * r + k)).dioBusControl = (k / 4 % 4 == 2) := by
          rw [Slots.dioBusControl, slots, show (16 * r + k) / 4 % 4 = k / 4 % 4 by omega]
        have word_ : (play active word (16 * r + k)).write = (active r && k == 0) := by
          have round : (16 * r + k) / 16 = r := by omega
          have place : (16 * r + k) % 16 = k := by omega
          rw [play]
          simp only [round, place]
        rw [← Nat.add_assoc, steps, hand_step, before (by omega), slot, word_]
        rfl
    rw [Nat.mul_succ, inside 16 (Nat.le_refl _), handRound_ends]

theorem slots_initial (t : Nat) : (Slots.initial.after t).busCycle = t / 4 % 4 ∧
    (Slots.initial.after t).busPhase = t % 4 := by
  induction t with
  | zero => exact ⟨rfl, rfl⟩
  | succ t ih =>
    simp only [Slots.after, Slots.step, ih.1, ih.2]
    split <;> omega

/-- It is a download as `hps_io` makes it. -/
theorem play_served {d : Nat → Dio} {c : Slots} (idle : active 0 = false)
    (clear : hand (d 0) = (false, false, false))
    (slots : ∀ t, (c.after t).busCycle = t / 4 % 4)
    (steps : ∀ t, d (t + 1) = (d t).step (play active word t) (c.after t).dioBusControl) :
    Hps (play active word) fun t => (d t).ioctlWait where
  start := idle
  menu := fun t run => ⟨rfl, rfl⟩
  within := by
    intro t write
    exact (Bool.and_eq_true_iff.mp write).1
  waits := by
    intro t write
    have start : t % 16 = 0 := by simpa using (Bool.and_eq_true_iff.mp write).2
    have round := hand_play clear slots steps (t / 16)
    rw [show 16 * (t / 16) = t by omega] at round
    exact congrArg (fun h => h.2.2) round
  addr := by
    intro t write
    obtain ⟨run, start⟩ := Bool.and_eq_true_iff.mp write
    have here : (t + 15) / 16 = t / 16 := by
      have start : t % 16 = 0 := by simpa using start
      omega
    rw [sent_play, here, file_length]
    simp only [play, run, if_true]
  done := by
    intro t ends
    obtain ⟨r, rfl, -, stop⟩ := ends_play ends
    have round : 16 * (r + 1) / 16 = r + 1 := by omega
    refine ⟨congrArg (fun h => h.2.2) (hand_play clear slots steps (r + 1)), ?_⟩
    rw [sent_round, file_length]
    simp only [play, round, stop, Bool.false_eq_true, if_false]

theorem sent_zeros (n : Nat) :
    sent (play (rounds n) fun _ => 0) (16 * (n + 1)) = List.replicate n 0 := by
  rw [sent_round, file_rounds, List.map_const', List.length_range]

theorem isDc42_zeros (n : Nat) : isDc42 (List.replicate n 0) = false := by
  cases n with
  | zero => rfl
  | succ n => rfl

end Play

end MacIIvi.Floppy
