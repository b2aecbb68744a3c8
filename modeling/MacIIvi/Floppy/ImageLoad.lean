import MacIIvi.Floppy.Loading

/-!
# Loading an image

Source: `MacIIvi.sv`. The place of a word depends on the header that has been seen before
it: `dc42_skip` is clear from the word after the first one to the magic, but the first word
finds what the last download has left.
-/

namespace MacIIvi.Floppy

open Card (Sizes Shared SharedIn Lines Lanes)

/-! ## Places -/

/-- Where word `k` goes, from the base of the region on. -/
def place (skip dc42 : Bool) (k : Nat) : Nat :=
  if k = 0 then (if skip then 2 ^ 20 - 42 else 0)
  else if dc42 && decide (42 ≤ k) then k - 42
  else k

def target (skip dc42 : Bool) (k : Nat) : Nat := stagingBase + place skip dc42 k

theorem target_inRegion {skip dc42 : Bool} {k : Nat} (low : k < 2 ^ 20) :
    InRegion (target skip dc42 k) := by
  have small : place skip dc42 k < 2 ^ 20 := by
    rw [place]
    split
    · split <;> omega
    · split <;> omega
  exact ⟨by rw [target]; omega, by rw [target]; omega⟩

/-- The last word for a place stays there. -/
theorem filled_last {A : Nat → Nat} {V m : Nat → Word} {k N : Nat} (low : k < N)
    (last : ∀ j, k < j → j < N → A j ≠ A k) : filled A V m N (A k) = V k := by
  induction N with
  | zero => omega
  | succ N ih =>
    rw [filled]
    by_cases here : k = N
    · rw [here, Function.update_self]
    · rw [Function.update_of_ne (Ne.symm (last N (by omega) (by omega)))]
      exact ih (by omega) fun j after_ before => last j after_ (by omega)

/-! ## The header of a part of the file -/

theorem isDc42_more {ws : List Word} (rest : List Word) (some_ : ws ≠ []) :
    isDc42 ws = (isDc42 (ws ++ rest) && decide (42 ≤ ws.length)) := by
  have name : nameOk (ws ++ rest) = nameOk ws := by
    cases ws with
    | nil => exact absurd rfl some_
    | cons c ws => rfl
  rw [isDc42, isDc42, name]
  by_cases long : 42 ≤ ws.length
  · rw [List.getElem?_append_left (by omega), decide_eq_true long, Bool.and_true]
  · have none_ : ws[41]? = none := by
      rw [List.getElem?_eq_none_iff]
      omega
    rw [none_, decide_eq_false long]
    simp

section Run

variable {z : Sizes} {n : Nat} {s : Loader} {i : Nat → LoaderIn} {t d e u : Nat}

/-- The words so far are a part of those at the end. -/
theorem sent_part (upTo : t ≤ e) (run : ∀ v, t ≤ v → v < e → (i v).ioctl.download = true) :
    ∃ rest, sent (fun t => (i t).ioctl) e = sent (fun t => (i t).ioctl) t ++ rest := by
  induction e, upTo using Nat.le_induction with
  | base => exact ⟨[], (List.append_nil _).symm⟩
  | succ e upTo ih =>
    obtain ⟨rest, words⟩ := ih fun v from_ before => run v from_ (by omega)
    have down := run e upTo (by omega)
    cases write : (i e).ioctl.write with
    | false => exact ⟨rest, (sent_idle (i := fun t => (i t).ioctl) down write).trans words⟩
    | true =>
      have next := sent_write (i := fun t => (i t).ioctl) down write
      rw [words, List.append_assoc] at next
      exact ⟨_, next⟩

/-- Without a word the registers of the detection stay. -/
theorem skip_still (quiet : (i t).ioctl.write = false) :
    (s.after z n i (t + 1)).dio.dc42Skip = (s.after z n i t).dio.dc42Skip := by
  have header := Dio.step_header (s.after z n i t).dio (i t).ioctl
    (s.after z n i t).shared.slots.dioBusControl
  rw [quiet, if_neg (by simp)] at header
  exact congrArg (fun h => h.2.1) header

theorem skip_quiet (from_ : d ≤ t) (quiet : ∀ v, d ≤ v → v < t → (i v).ioctl.write = false) :
    (s.after z n i t).dio.dc42Skip = (s.after z n i d).dio.dc42Skip := by
  induction t, from_ using Nat.le_induction with
  | base => rfl
  | succ t from_ ih =>
    rw [skip_still (quiet t from_ (by omega))]
    exact ih fun v low high => quiet v low (by omega)

/-- The first word finds the registers of the detection as they were at the start. -/
theorem skip_before (from_ : d ≤ t) (run : ∀ v, d ≤ v → v < t → (i v).ioctl.download = true)
    (none_ : sent (fun t => (i t).ioctl) t = []) :
    (s.after z n i t).dio.dc42Skip = (s.after z n i d).dio.dc42Skip := by
  refine skip_quiet from_ fun v low high => ?_
  by_contra write
  have next := sent_write (i := fun t => (i t).ioctl) (run v low high) (by simpa using write)
  obtain ⟨rest, all⟩ := sent_part (i := i) (t := v + 1) high
    fun u from_ before => run u (by omega) before
  rw [next, none_] at all
  simp at all

/-- Where a word goes, and what of it. -/
theorem word_arrives (hps : Served z n s i) (spans : Spans i d e)
    (short : (sent (fun t => (i t).ioctl) e).length < 2 ^ 20) (from_ : d ≤ t) (before : t < e)
    (write : (i t).ioctl.write = true) :
    (s.after z n i (t + 1)).dio.dioA = target (s.after z n i d).dio.dc42Skip
        (isDc42 (sent (fun t => (i t).ioctl) e)) (count i t) ∧
      (s.after z n i (t + 1)).dio.dioData =
        swap ((sent (fun t => (i t).ioctl) e).getD (count i t) 0) := by
  have down := spans.run t from_ before
  have next := sent_write (i := fun t => (i t).ioctl) down write
  obtain ⟨rest, all⟩ := sent_part (t := t + 1) before fun v low high => spans.run v (by omega) high
  rw [next, List.append_assoc] at all
  have fewer : count i t < 2 ^ 20 := by
    have total := congrArg List.length all
    simp only [List.length_append] at total
    rw [count]
    omega
  have menu : (i t).ioctl.index % 4 = 1 := by
    have menu := (hps.menu t down).1
    omega
  have addr : (i t).ioctl.addr % 2 ^ 20 = count i t := by
    have addr : (i t).ioctl.addr = count i t % 2 ^ 24 := hps.addr t write
    omega
  have shape : (s.after z n i (t + 1)).dio.dioA =
      stagingBase + (s.after z n i t).dio.flpA (i t).ioctl ∧
      (s.after z n i (t + 1)).dio.dioData = swap (i t).ioctl.data := by
    rw [dio_step, Dio.step, write]
    simp [Dio.take, menu]
  refine ⟨shape.1.trans ?_, shape.2.trans ?_⟩
  · rw [target, Dio.flpA, addr]
    congr 1
    by_cases none_ : sent (fun t => (i t).ioctl) t = []
    · have zero : count i t = 0 := congrArg List.length none_
      rw [skip_before from_ (fun v low high => spans.run v low (by omega)) none_, zero, place,
        if_pos rfl]
      simp
    · have positive : count i t ≠ 0 := fun zero => none_ (List.length_eq_zero_iff.mp zero)
      have detected := detected_run (d := fun t => (s.after z n i t).dio) dio_step hps t none_
      have skip := detected.skip
      rw [lastChunk_short (Nat.le_of_lt fewer), isDc42_more _ none_, ← all] at skip
      change (if (s.after z n i t).dio.dc42Skip = true then _ else _) = _
      rw [skip, place, if_neg positive]
      have long : decide (42 ≤ (sent (fun t => (i t).ioctl) t).length) =
          decide (42 ≤ count i t) := rfl
      rw [long]
      split
      · next both =>
        have late : 42 ≤ count i t := of_decide_eq_true (Bool.and_eq_true_iff.mp both).2
        omega
      · rfl
  · have here : (sent (fun t => (i t).ioctl) e)[count i t]? = some (i t).ioctl.data := by
      rw [all, count]
      simp
    rw [List.getD_eq_getElem?_getD, here]
    rfl

/-- The whole download. -/
theorem loading_run (start : s.Initial) (hps : Served z n s i) (small : z.totalWords ≤ 2 ^ 19)
    (spans : Spans i d e) (short : (sent (fun t => (i t).ioctl) e).length < 2 ^ 20)
    (from_ : d ≤ t) (upTo : t ≤ e) :
    Loading z n s i (target (s.after z n i d).dio.dc42Skip
        (isDc42 (sent (fun t => (i t).ioctl) e)))
      (fun k => swap ((sent (fun t => (i t).ioctl) e).getD k 0)) (s.after z n i d).sdram.mem d t := by
  induction t, from_ using Nat.le_induction with
  | base =>
    obtain ⟨u, rfl, idle⟩ := spans.before
    have none_ : count i (u + 1) = 0 :=
      congrArg List.length (sent_stop (i := fun t => (i t).ioctl) idle)
    refine ⟨fun _ => ?_, fun waits => ?_⟩
    · rw [none_]
      exact ⟨fun x _ => rfl, fun k low => absurd low (Nat.not_lt_zero k)⟩
    · obtain ⟨-, v, same, run⟩ := download_waiting start hps waits
      obtain rfl : u = v := by omega
      exact absurd (idle.symm.trans run) Bool.false_ne_true
  | succ t from_ ih =>
    have here := ih (by omega)
    cases waits : (s.after z n i t).dio.ioctlWait with
    | true => exact here.step_busy start hps small waits
    | false =>
      exact here.step_idle start small from_ (spans.run t from_ (by omega))
        (fun write => word_arrives hps spans short from_ (by omega) write) waits

theorem quiet_end (hps : Served z n s i) (spans : Spans i d e) :
    (s.after z n i e).dio.ioctlWait = false := by
  have order := spans.order
  refine (hps.done e ⟨e - 1, by omega, spans.run _ (by omega) (by omega), spans.stop⟩).1

/-- After the download the region stays as it is. -/
theorem region_still (start : s.Initial) (hps : Served z n s i)
    (small : z.totalWords ≤ 2 ^ 19) (spans : Spans i d e) (later : e ≤ t)
    (still : ∀ v, e ≤ v → v < t → (i v).ioctl.download = false) :
    (s.after z n i t).dio.ioctlWait = false ∧
      Matches (s.after z n i t).sdram.mem (s.after z n i e).sdram.mem := by
  induction t, later using Nat.le_induction with
  | base => exact ⟨quiet_end hps spans, fun x _ => rfl⟩
  | succ t later ih =>
    obtain ⟨quiet, same⟩ := ih fun v low high => still v low (by omega)
    have idle := still t later (by omega)
    have write : (i t).ioctl.write = false := by
      by_contra write
      exact absurd (idle.symm.trans (hps.within t (by simpa using write))) Bool.false_ne_true
    refine ⟨?_, fun x inside => (mem_still start small ?_ inside).trans (same x inside)⟩
    · rw [wait_next, quiet, write]
      simp
    · rintro ⟨slot, -, dioWrite⟩
      have waits := (handshake (z := z) (n := n) (i := i) start t).waiting slot dioWrite
      exact absurd (quiet.symm.trans waits) Bool.false_ne_true

/-- Each write of the download is one of its words. -/
theorem writes_word (start : s.Initial) (hps : Served z n s i)
    (small : z.totalWords ≤ 2 ^ 19) (spans : Spans i d e)
    (short : (sent (fun t => (i t).ioctl) e).length < 2 ^ 20) (from_ : d ≤ u) (before : u < e)
    {a : Nat} {v : Word} (writes : Writes z n s i u a v) :
    ∃ k, k < (sent (fun t => (i t).ioctl) e).length ∧
      a = target (s.after z n i d).dio.dc42Skip (isDc42 (sent (fun t => (i t).ioctl) e)) k ∧
      v = swap ((sent (fun t => (i t).ioctl) e).getD k 0) := by
  have slot := slot_of_cycle writes.cycle
  have write : (s.after z n i u).dio.dioWrite = true := by
    have lines := lines_download (n := n) writes.cycle
    have we := writes.we
    rw [Loader.lines, lines] at we
    exact we
  have waits := (handshake (z := z) (n := n) (i := i) start u).waiting slot write
  obtain ⟨k, busy⟩ := (loading_run start hps small spans short from_ (by omega)).busy waits
  have first : (s.after z n i u).shared.slots.busPhase = 0 := by
    have row := writes.row
    rw [(locked start u).locked] at row
    omega
  have slot' : (s.after z n i (u + 1)).shared.slots.dioBusControl = true := by
    rw [slot_next (by omega)]
    exact slot
  obtain ⟨-, lines⟩ := slot_lines start hps slot waits
  obtain ⟨-, lines'⟩ := slot_lines start hps slot' (slot_keeps_wait slot waits)
  refine ⟨k, ?_, ?_, ?_⟩
  · obtain ⟨rest, all⟩ := sent_part (i := i) (t := u) (by omega)
      fun v low high => spans.run v (by omega) high
    have last : (sent (fun t => (i t).ioctl) u).length = k + 1 := busy.last
    rw [all, List.length_append, last]
    omega
  · rw [← writes.addr, lines]
    exact busy.addr
  · rw [← writes.din, lines']
    exact (word_next hps waits).2.trans busy.data

theorem lowByte_swap (w : Word) : lowByte (swap w) = highByte w :=
  BitVec.extractLsb'_append_eq_right

theorem highByte_swap (w : Word) : highByte (swap w) = lowByte w :=
  BitVec.extractLsb'_append_eq_left

theorem words_le (f : Format) : f.words ≤ 737280 := by
  cases f <;> decide

/-- If the sector data comes from word `from_` on and each word of it is the last for its
place, it is loaded. -/
theorem loaded_of_places (start : s.Initial) (hps : Served z n s i)
    (small : z.totalWords ≤ 2 ^ 19) (spans : Spans i d e)
    (short : (sent (fun t => (i t).ioctl) e).length < 2 ^ 20) {disk : List Word} (from_ : Nat)
    (size : disk.length ≤ 737280)
    (part : ∀ k, k < disk.length → from_ + k < (sent (fun t => (i t).ioctl) e).length ∧
      (sent (fun t => (i t).ioctl) e).getD (from_ + k) 0 = disk.getD k 0)
    (here : ∀ k, k < disk.length → place (s.after z n i d).dio.dc42Skip
      (isDc42 (sent (fun t => (i t).ioctl) e)) (from_ + k) = k)
    (last : ∀ k j, k < disk.length → from_ + k < j →
      j < (sent (fun t => (i t).ioctl) e).length → place (s.after z n i d).dio.dc42Skip
        (isDc42 (sent (fun t => (i t).ioctl) e)) j ≠ k) :
    Loaded z n s i d e disk := by
  have order := spans.order
  have final := loading_run start hps small spans short (Nat.le_of_lt order) (Nat.le_refl e)
  obtain ⟨same, wrote⟩ := final.idle (quiet_end hps spans)
  have holds : ∀ t, e ≤ t → (∀ v, e ≤ v → v < t → (i v).ioctl.download = false) →
      ∀ k, k < disk.length →
        (s.after z n i t).sdram.mem (stagingBase + k) = swap (disk.getD k 0) := by
    intro t later still k low
    have inside : InRegion (stagingBase + k) := ⟨by omega, by omega⟩
    rw [(region_still start hps small spans later still).2 _ inside, same _ inside]
    obtain ⟨known, word⟩ := part k low
    have there : stagingBase + k = target (s.after z n i d).dio.dc42Skip
        (isDc42 (sent (fun t => (i t).ioctl) e)) (from_ + k) := by
      rw [target, here k low]
    have known' : from_ + k < count i e := known
    rw [there]
    refine (filled_last known' ?_).trans (congrArg swap word)
    intro j after_ before
    have other := last k j low after_ before
    rw [target, target, here k low]
    omega
  refine ⟨holds, ?_, ?_, ?_⟩
  · intro k low
    obtain ⟨known, word⟩ := part k low
    obtain ⟨u, after_, before, writes⟩ := wrote (from_ + k) known
    have writes : Writes z n s i u (target (s.after z n i d).dio.dc42Skip
        (isDc42 (sent (fun t => (i t).ioctl) e)) (from_ + k))
        (swap ((sent (fun t => (i t).ioctl) e).getD (from_ + k) 0)) := writes
    rw [word, target, here k low] at writes
    exact ⟨u, after_, before, writes⟩
  · intro u a v after_ before writes
    obtain ⟨k, low, rfl, -⟩ := writes_word start hps small spans short after_ before writes
    exact target_inRegion (by omega)
  · intro t later still a low
    have half : a % 2 ^ 22 / 2 = a / 2 := by
      rw [Nat.mod_eq_of_lt (by omega)]
    rw [dskIntSdramWord, half, holds t later still (a / 2) (by omega), demux, byteOf,
      lowByte_swap, highByte_swap]

/-- A word that goes elsewhere is missing. -/
theorem not_loaded_of_places (start : s.Initial) (hps : Served z n s i)
    (small : z.totalWords ≤ 2 ^ 19) (spans : Spans i d e)
    (short : (sent (fun t => (i t).ioctl) e).length < 2 ^ 20) {disk : List Word} {k : Nat}
    (low : k < disk.length)
    (never : ∀ j, j < (sent (fun t => (i t).ioctl) e).length →
      place (s.after z n i d).dio.dc42Skip (isDc42 (sent (fun t => (i t).ioctl) e)) j ≠ k) :
    ¬ Loaded z n s i d e disk := by
  intro loaded
  obtain ⟨u, after_, before, writes⟩ := loaded.written k low
  obtain ⟨j, inside, same, -⟩ := writes_word start hps small spans short after_ before writes
  have other := never j inside
  rw [target] at same
  omega

theorem raw_loaded_iff (start : s.Initial) (hps : Served z n s i)
    (small : z.totalWords ≤ 2 ^ 19) (spans : Spans i d e) {f : Format}
    (size : (sent (fun t => (i t).ioctl) e).length = f.words) :
    Loaded z n s i d e (sent (fun t => (i t).ioctl) e) ↔
      (s.after z n i d).dio.dc42Skip = false ∧
        isDc42 (sent (fun t => (i t).ioctl) e) = false := by
  have large := words_le f
  have long : 43 ≤ f.words := by cases f <;> decide
  have short : (sent (fun t => (i t).ioctl) e).length < 2 ^ 20 := by omega
  cases header : isDc42 (sent (fun t => (i t).ioctl) e) with
  | true =>
    -- the words after the magic go 42 places lower, and the last place gets none
    refine ⟨fun loaded => absurd loaded ?_, fun plain => absurd plain.2 (by decide)⟩
    refine not_loaded_of_places start hps small spans short
      (k := (sent (fun t => (i t).ioctl) e).length - 1) (by omega) fun j low => ?_
    rw [header, place, Bool.true_and]
    split
    · split <;> omega
    · split
      · omega
      · next inside =>
        have early : ¬ 42 ≤ j := fun late => inside (decide_eq_true late)
        omega
  | false =>
    cases skip : (s.after z n i d).dio.dc42Skip with
    | true =>
      -- the first word goes to the end of the window
      refine ⟨fun loaded => absurd loaded ?_, fun plain => absurd plain.1 (by decide)⟩
      refine not_loaded_of_places start hps small spans short (k := 0) (by omega) fun j low => ?_
      rw [skip, header, place, if_pos rfl, Bool.false_and]
      split
      · omega
      · rw [if_neg Bool.false_ne_true]
        assumption
    | false =>
      refine ⟨fun _ => ⟨rfl, rfl⟩, fun _ => ?_⟩
      have straight : ∀ j, place (s.after z n i d).dio.dc42Skip
          (isDc42 (sent (fun t => (i t).ioctl) e)) j = j := by
        intro j
        rw [skip, header, place, Bool.false_and, if_neg Bool.false_ne_true,
          if_neg Bool.false_ne_true]
        split
        · next zero => exact zero.symm
        · rfl
      refine loaded_of_places start hps small spans short 0 (by omega) ?_ ?_ ?_
      · intro k low
        rw [Nat.zero_add]
        exact ⟨low, rfl⟩
      · intro k low
        rw [Nat.zero_add, straight]
      · intro k j low after_ before
        rw [straight]
        omega

theorem diskCopy_loaded (start : s.Initial) (hps : Served z n s i)
    (small : z.totalWords ≤ 2 ^ 19) (spans : Spans i d e) {f : Format}
    {header disk tags : List Word} (ok : (Image.diskCopy f header disk tags).Ok)
    (words : sent (fun t => (i t).ioctl) e = header ++ disk ++ tags) :
    Loaded z n s i d e disk := by
  obtain ⟨length, magic, -, size, short⟩ := ok
  have large := words_le f
  have dc42 : isDc42 (header ++ disk ++ tags) = true := by
    have some_ : header ≠ [] := by
      rintro rfl
      cases length
    have part := isDc42_more (disk ++ tags) some_
    rw [magic, ← List.append_assoc] at part
    exact (Bool.and_eq_true_iff.mp part.symm).1
  have total : (header ++ disk ++ tags).length = 42 + disk.length + tags.length := by
    rw [List.length_append, List.length_append, length]
  rw [← words] at short
  refine loaded_of_places start hps small spans short 42 (by omega) ?_ ?_ ?_
  · intro k low
    rw [words, total]
    refine ⟨by omega, ?_⟩
    rw [List.append_assoc, List.getD_eq_getElem?_getD,
      List.getElem?_append_right (by omega), length, Nat.add_sub_cancel_left,
      List.getElem?_append_left low, List.getD_eq_getElem?_getD]
  · intro k low
    rw [words, dc42, place, if_neg (by omega), Bool.true_and,
      if_pos (decide_eq_true (by omega)), Nat.add_sub_cancel_left]
  · intro k j low after_ before
    rw [words, dc42, place, if_neg (by omega), Bool.true_and,
      if_pos (decide_eq_true (by omega))]
    omega

/-- An image is loaded exactly if it is a DiskCopy file, or a raw one that does not look
like one and does not follow one. -/
theorem image_loaded_iff (z : Sizes) (small : z.totalWords ≤ 2 ^ 19) (ramSize : Nat)
    (s : Loader) (start : s.Initial) (i : Nat → LoaderIn) (hps : Served z ramSize s i)
    (d e : Nat) (spans : Spans i d e) (image : Image) (ok : image.Ok)
    (words : sent (fun t => (i t).ioctl) e = image.words) :
    Loaded z ramSize s i d e image.disk ↔
      image.Plain (s.after z ramSize i d).dio.dc42Skip := by
  cases image with
  | raw f disk =>
    have words : sent (fun t => (i t).ioctl) e = disk := words
    have ok : disk.length = f.words := ok
    subst words
    exact raw_loaded_iff start hps small spans ok
  | diskCopy f header disk tags =>
    exact ⟨fun _ => trivial, fun _ => diskCopy_loaded start hps small spans ok words⟩

end Run

/-! ### A numbered image, and two files -/

/-- From reset, with nothing in memory. -/
def loaderPowerUp : Loader where
  shared := Card.sharedPowerUp
  dio := ⟨0, 0, false, false, false, false, false, 0⟩
  sdram := ⟨fun _ => 0, false, 0⟩

theorem loaderPowerUp_initial : loaderPowerUp.Initial :=
  ⟨Card.sharedPowerUp_initial, rfl, rfl, rfl, rfl⟩

/-- Downloads while the CPU is idle. -/
def downloads (active : Nat → Bool) (word : Nat → Word) (t : Nat) : LoaderIn where
  bus := Card.sharedIn none
  ioctl := play active word t
  dskReadAddrInt := 0

section Blank

variable {active : Nat → Bool} {word : Nat → Word}

theorem loader_slots (s : Loader) (i : Nat → LoaderIn) (z : Sizes) (n t : Nat) :
    (s.after z n i t).shared.slots = s.shared.slots.after t := by
  induction t with
  | zero => rfl
  | succ t ih =>
    have next : (s.after z n i (t + 1)).shared.slots =
        (s.after z n i t).shared.slots.step := rfl
    rw [next, ih]
    rfl

theorem downloads_served (idle : active 0 = false) :
    Served Card.installed 0x400000 loaderPowerUp (downloads active word) := by
  have served : Hps (play active word) fun t =>
      (loaderPowerUp.after Card.installed 0x400000 (downloads active word) t).dio.ioctlWait := by
    refine play_served
      (d := fun t => (loaderPowerUp.after Card.installed 0x400000 (downloads active word) t).dio)
      (c := Slots.initial) idle rfl (fun t => (slots_initial t).1) fun t => ?_
    rw [dio_step, loader_slots]
    rfl
  exact served

/-- The download of `n` words after the idle round `r`. -/
theorem downloads_spans {r n : Nat} (some_ : 0 < n) (before : active r = false)
    (run : ∀ j < n, active (r + 1 + j) = true) (stop : active (r + 1 + n) = false) :
    Spans (downloads active word) (16 * (r + 1)) (16 * (r + 1 + n)) where
  order := by omega
  before := by
    refine ⟨16 * (r + 1) - 1, by omega, ?_⟩
    have here : (16 * (r + 1) - 1) / 16 = r := by omega
    change active ((16 * (r + 1) - 1) / 16) = false
    rw [here, before]
  run := by
    intro t from_ upTo
    have here : t / 16 = r + 1 + (t / 16 - (r + 1)) := by omega
    change active (t / 16) = true
    rw [here]
    exact run _ (by omega)
  stop := by
    have here : 16 * (r + 1 + n) / 16 = r + 1 + n := by omega
    change active (16 * (r + 1 + n) / 16) = false
    rw [here, stop]

end Blank

/-- The word of the round `r`. -/
def numbered (r : Nat) : Word := BitVec.ofNat 16 r

/-- A disk of `n` words that are numbered from 1 on. -/
def numberedDisk (n : Nat) : List Word := (List.range n).map fun j => numbered (1 + j)

section Numbered

variable {n : Nat}

theorem numberedDisk_length : (numberedDisk n).length = n := by
  rw [numberedDisk, List.length_map, List.length_range]

theorem numberedDisk_sent :
    sent (play (rounds n) numbered) (16 * (n + 1)) = numberedDisk n := by
  rw [sent_round, file_rounds]
  exact List.map_congr_left fun j _ => by rw [Nat.add_comm]

/-- The word that would be the magic of a header is 42. -/
theorem isDc42_numberedDisk (long : 41 < n) : isDc42 (numberedDisk n) = false := by
  have word : (numberedDisk n)[41]? = some 42 := by
    rw [numberedDisk, List.getElem?_map, List.getElem?_range long]
    rfl
  rw [isDc42, word, Bool.and_eq_false_iff]
  exact .inr rfl

end Numbered

/-- A raw image of 400K. -/
theorem image_loaded_numbered :
    Loaded Card.installed 0x400000 loaderPowerUp (downloads (rounds 204800) numbered)
      (16 * (0 + 1)) (16 * (0 + 1 + 204800)) (numberedDisk 204800) := by
  -- with the words as a variable no comparison counts through them
  obtain ⟨disk, same⟩ : ∃ disk, numberedDisk 204800 = disk := ⟨_, rfl⟩
  have length := numberedDisk_length (n := 204800)
  have words := numberedDisk_sent (n := 204800)
  have plain := isDc42_numberedDisk (n := 204800) (by decide)
  rw [same] at length words plain ⊢
  refine (image_loaded_iff Card.installed (by decide) 0x400000 loaderPowerUp
    loaderPowerUp_initial (downloads (rounds 204800) numbered) (downloads_served rfl)
    (16 * (0 + 1)) (16 * (0 + 1 + 204800)) ?_ (.raw .gcr400 disk) length words).mpr ⟨?_, plain⟩
  · refine downloads_spans (by decide) rfl (fun j low => ?_) (by decide)
    exact decide_eq_true ⟨by omega, by omega⟩
  · refine skip_quiet (d := 0) (Nat.zero_le _) fun v _ before => ?_
    have idle : v / 16 = 0 := by omega
    change (rounds 204800 (v / 16) && v % 16 == 0) = false
    rw [idle]
    rfl

/-- Two downloads, of `m` words and of `n`. -/
def twice (m n r : Nat) : Bool := decide (1 ≤ r ∧ r ≤ m ∨ m + 2 ≤ r ∧ r ≤ m + 1 + n)

/-- A name of one letter and the magic. -/
def headerWord (r : Nat) : Word := if r = 1 ∨ r = 42 then 1 else 0

section Twice

variable {m n : Nat}

/-- The first file looks like a DiskCopy file. -/
theorem isDc42_headerWords (long : 42 ≤ m) :
    isDc42 ((List.range m).map fun j => headerWord (0 + 1 + j)) = true := by
  obtain ⟨k, rfl⟩ : ∃ k, m = k + 42 := ⟨m - 42, by omega⟩
  have magic : ((List.range (k + 42)).map fun j => headerWord (0 + 1 + j))[41]? = some 1 := by
    rw [List.getElem?_map, List.getElem?_range (by omega)]
    rfl
  have name : nameOk ((List.range (k + 42)).map fun j => headerWord (0 + 1 + j)) = true := by
    rw [List.range_succ_eq_map]
    rfl
  rw [isDc42, name, magic]
  rfl

/-- The flag of the first file is still there at the start of the second. -/
theorem skip_kept (long : 42 ≤ m) (short : m < 2 ^ 20) :
    (loaderPowerUp.after Card.installed 0x400000 (downloads (twice m n) headerWord)
      (16 * (m + 1 + 1))).dio.dc42Skip = true := by
  have file_ : sent (play (twice m n) headerWord) (16 * (0 + 1 + m)) =
      (List.range m).map fun j => headerWord (0 + 1 + j) := by
    rw [sent_round]
    exact file_span (by simp [twice]) fun j low => decide_eq_true (by omega)
  have header := isDc42_headerWords long
  rw [← file_] at header
  have some_ : sent (play (twice m n) headerWord) (16 * (0 + 1 + m)) ≠ [] := by
    intro none_
    rw [none_] at header
    cases header
  have size : (sent (play (twice m n) headerWord) (16 * (0 + 1 + m))).length ≤ 2 ^ 20 := by
    rw [file_, List.length_map, List.length_range]
    omega
  have detected := detected_run (i := play (twice m n) headerWord)
    (d := fun t => (loaderPowerUp.after Card.installed 0x400000
      (downloads (twice m n) headerWord) t).dio) dio_step
    (downloads_served (by simp [twice])) (16 * (0 + 1 + m)) some_
  have skip := detected.skip
  rw [lastChunk_short size, header] at skip
  refine (skip_quiet (d := 16 * (0 + 1 + m)) (by omega) fun v low high => ?_).trans skip
  have idle : v / 16 = m + 1 := by omega
  change (twice m n (v / 16) && v % 16 == 0) = false
  rw [idle, Bool.and_eq_false_iff]
  exact Or.inl (decide_eq_false (by omega))

theorem twice_sent (long : 42 ≤ m) :
    sent (play (twice m n) headerWord) (16 * (m + 1 + 1 + n)) = List.replicate n 0 := by
  have zeros : (List.range n).map (fun j => headerWord (m + 1 + 1 + j)) = List.replicate n 0 := by
    refine List.eq_replicate_iff.mpr ⟨by simp, fun w among => ?_⟩
    obtain ⟨j, -, rfl⟩ := List.mem_map.mp among
    exact if_neg (by omega)
  rw [sent_round, ← zeros]
  exact file_span (decide_eq_false (by omega)) fun j low => decide_eq_true (by omega)

theorem twice_spans (some_ : 0 < n) :
    Spans (downloads (twice m n) headerWord) (16 * (m + 1 + 1)) (16 * (m + 1 + 1 + n)) :=
  downloads_spans some_ (decide_eq_false (by omega)) (fun j low => decide_eq_true (by omega))
    (decide_eq_false (by omega))

end Twice

/-- A raw image of 400K after a DiskCopy file: its first word is written to the end of the
window. -/
theorem raw_image_not_loaded :
    Served Card.installed 0x400000 loaderPowerUp (downloads (twice 204842 204800) headerWord) ∧
    Spans (downloads (twice 204842 204800) headerWord) (16 * (204842 + 1 + 1))
      (16 * (204842 + 1 + 1 + 204800)) ∧
    sent (play (twice 204842 204800) headerWord) (16 * (204842 + 1 + 1 + 204800)) =
      List.replicate 204800 0 ∧
    (Image.raw .gcr400 (List.replicate 204800 0)).Ok ∧
    ¬ Loaded Card.installed 0x400000 loaderPowerUp (downloads (twice 204842 204800) headerWord)
      (16 * (204842 + 1 + 1)) (16 * (204842 + 1 + 1 + 204800)) (List.replicate 204800 0) := by
  have served : Served Card.installed 0x400000 loaderPowerUp
      (downloads (twice 204842 204800) headerWord) := downloads_served (by simp [twice])
  have spans := twice_spans (m := 204842) (n := 204800) (by decide)
  have words := twice_sent (m := 204842) (n := 204800) (by decide)
  have kept := skip_kept (m := 204842) (n := 204800) (by decide) (by decide)
  refine ⟨served, spans, words, List.length_replicate, fun loaded => ?_⟩
  have size : (sent (fun t => (downloads (twice 204842 204800) headerWord t).ioctl)
      (16 * (204842 + 1 + 1 + 204800))).length = Format.gcr400.words :=
    (congrArg List.length words).trans List.length_replicate
  rw [← words] at loaded
  have plain := (raw_loaded_iff loaderPowerUp_initial served (by decide) spans size).mp loaded
  exact absurd (plain.1.symm.trans kept) (by decide)

end MacIIvi.Floppy
