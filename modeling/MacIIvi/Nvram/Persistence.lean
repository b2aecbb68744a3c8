import MacIIvi.Nvram.System

/-!
# The saved PRAM and the Egret's PRAM

When the NVRAM process rests, the mounted image and `pram[]` agree unless the
dirty bit is set or a load is due. The invariant follows the process through its
states: what the buffer holds, how far a copy has come, and which session of the
HPS is open.
-/

namespace MacIIvi

open Clocked

namespace NvSystem

open Nvram

variable {s s' : NvSystem}

/-- The states of a load. -/
def loading : PState → Bool
  | .ldRd | .ldKick | .ldDat | .ldCpy => true
  | _ => false

/-- The clocks of the runs below. A firmware write does not come after the save has
copied its byte; no load is given up by its watchdog; no report of an empty slot comes
while a load is under way. -/
structure Ordinary (s : NvSystem) : Prop where
  early : s.writes = true → s.top.pramLoadWr = false →
    (s.top.pst = .fill → s.top.pcnt ≤ EgretRam.wrIdx s.egretIn) ∧
      s.top.pst ≠ .svWr ∧ s.top.pst ≠ .svDat
  served : s.top.pst = .ldRd → s.hps.ack = false → s.top.ldWd = ldWdMax → s.top.ldTry ≠ 3
  ended : s.top.pst = .ldDat → (s.top.oldPack && !s.hps.ack) = false → s.top.ldWd ≠ ldWdMax
  present : s.mounts = true → s.imgSize = 0 → loading s.top.pst = false

/-- The first `w` words of the image are in the buffer, unless another image came. -/
def Loaded (s : NvSystem) (w : Nat) : Prop :=
  s.top.loadPending = false → ∀ i, i < 256 → i / 2 < w → s.top.pramBuf i = s.image i

/-- The first `w` words of the buffer are in the image, unless another image came. -/
def Saved (s : NvSystem) (w : Nat) : Prop :=
  s.top.pramEna = true → s.top.loadPending = false →
    ∀ i, i < 256 → i / 2 < w → s.image i = s.top.pramBuf i

/-- The request lines are low and no session is open. -/
structure Quiet (s : NvSystem) : Prop where
  rd : s.top.pramRd = false
  wr : s.top.pramWrReq = false
  hps : s.hps = .idle

/-- What holds in each state of the process. -/
inductive Phase (s : NvSystem) : Prop
  | rest (pst : s.top.pst = .idle ∨ s.top.pst = .rst) (quiet : Quiet s)
      (kept : s.top.pramEna = true → s.top.pramDirty = false → s.top.loadPending = false → s.Agrees)
  | request (pst : (s.top.pst = .ldRd ∧ s.top.pramRd = true) ∨
        (s.top.pst = .ldKick ∧ s.top.pramRd = false))
      (wr : s.top.pramWrReq = false)
      (hps : s.hps = .idle ∨ (∃ l, s.hps = .latched false l) ∨
        ∃ l w, s.hps = .reading l w ∧ Loaded s w)
  | receive (pst : s.top.pst = .ldDat) (rd : s.top.pramRd = false) (wr : s.top.pramWrReq = false)
      (hps : (∃ l w, s.hps = .reading l w ∧ Loaded s w) ∨
        (s.hps = .idle ∧ s.top.oldPack = true ∧ Loaded s 256))
  | copy (pst : s.top.pst = .ldCpy) (quiet : Quiet s) (low : s.top.pcnt < 256)
      (buf : Loaded s 256) (done : ∀ i, i < s.top.pcnt → s.landed i = s.top.pramBuf i)
      (port : s.top.pcnt ≠ 0 → s.top.pramLoadWr = true)
  | fill (pst : s.top.pst = .fill) (quiet : Quiet s) (low : s.top.pcnt ≤ 256)
      (port : s.top.pramLoadWr = false) (addr : s.top.pcnt ≠ 0 → s.top.pramSaveAddr + 1 = s.top.pcnt)
      (done : ∀ i, i + 1 < s.top.pcnt → s.top.pramBuf i = s.egret.pram i)
  | offer (pst : s.top.pst = .svWr) (rd : s.top.pramRd = false)
      (buf : ∀ i, i < 256 → s.top.pramBuf i = s.landed i)
      (hps : s.hps = .idle ∨ (∃ l, s.hps = .latched true l) ∨
        ∃ l w b, s.hps = .writing l w b ∧ Saved s w)
  | send (pst : s.top.pst = .svDat) (rd : s.top.pramRd = false) (wr : s.top.pramWrReq = false)
      (buf : ∀ i, i < 256 → s.top.pramBuf i = s.landed i)
      (hps : (∃ l w b, s.hps = .writing l w b ∧ Saved s w) ∨
        (s.hps = .idle ∧ s.top.oldPack = true ∧ Saved s 256))
  | clear (pst : s.top.pst = .clr) (quiet : Quiet s)
      (done : ∀ i, i < s.top.pcnt → s.top.pramBuf i = 0)

/-- How far a clear has come: the bytes below the counter are zero in `pram[]`. -/
structure Clearing (s : NvSystem) : Prop where
  low : s.top.pst = .clr → s.top.pcnt < 256
  done : s.top.pst = .clr → ∀ i, i < s.top.pcnt → s.landed i = 0
  port : s.top.pst = .clr → s.top.pcnt ≠ 0 → s.top.pramLoadWr = true

/-! ### The memories in one clock -/

/-- A firmware write changes `pram[]` unless a load write is on its way. -/
theorem Step.pram (h : Step s s') (i : Nat) :
    s'.egret.pram i =
      if s.top.pramLoadWr = false ∧ s.writes = true ∧ EgretRam.wrIdx s.egretIn = i then
        s.egretIn.cpuDout
      else s.landed i := by
  rw [h.egret, EgretRam.next_pram]
  unfold EgretRam.pramNext landed writes
  cases load : s.top.pramLoadWr with
  | true =>
    by_cases here : i = s.top.pramLoadAddr
    · simp [here]
    · simp [Function.update_of_ne here, Ne.symm here]
  | false =>
    cases write : s.egret.regionWr s.egretIn with
    | false => simp
    | true =>
      by_cases here : i = EgretRam.wrIdx s.egretIn
      · simp [here]
      · simp [Function.update_of_ne here, Ne.symm here]

/-- Without a mount only the words of a write session change the image. -/
theorem Step.image_kept (h : Step s s') (still : s.mounts = false)
    (unwritten : ∀ l w b, s.hps ≠ .writing l w b) : s'.image = s.image := by
  rw [h.image, still]
  simp only [Bool.false_eq_true, if_false]
  unfold written
  split
  case h_1 l w b _ hps _ => exact absurd hps (unwritten l w b)
  case h_2 => rfl

/-- The registers after the latches of this clock. -/
def entry (s : NvSystem) : Top := s.top.latch s.topIn

@[simp] theorem entry_rd : s.entry.pramRd = s.top.pramRd := rfl
@[simp] theorem entry_wr : s.entry.pramWrReq = s.top.pramWrReq := rfl
@[simp] theorem entry_loadWr : s.entry.pramLoadWr = false := rfl
@[simp] theorem entry_oldPack : s.entry.oldPack = s.hps.ack := rfl
@[simp] theorem entry_pcnt : s.entry.pcnt = s.top.pcnt := rfl
@[simp] theorem entry_dirty : s.entry.pramDirty = (s.top.pramDirty || s.writes) := rfl
@[simp] theorem entry_pst : s.entry.pst = s.top.pst := rfl

theorem entry_ena : s.entry.pramEna = if s.mounts then s.imgSize != 0 else s.top.pramEna := rfl

theorem entry_load :
    s.entry.loadPending = (s.top.loadPending || (s.mounts && s.imgSize != 0)) := rfl

/-- Only a read session of the slot writes the buffer. -/
theorem Step.entry_buf (h : Step s s') (unread : ∀ l w, s.hps ≠ .reading l w) :
    s.entry.pramBuf = s.top.pramBuf := by
  have still : Top.captures s.topIn = false := by
    have allowed := h.allowed
    unfold Top.captures topIn
    cases hps : s.hps with
    | reading l w => exact absurd hps (unread l w)
    | idle | latched => simp [HpsChan.ack]
    | writing l w b =>
      rw [hps] at allowed
      cases move : s.move with
      | other a d => simp [move, HpsChan.allows] at allowed
      | wait | latch | raise | word | drop => simp [HpsChan.strobe]
  simp [entry, Top.latch, still]

/-- If the slot is still filled and no load is due after the latches, nothing was mounted. -/
theorem still_of_entry (ena : s.entry.pramEna = true) (load : s.entry.loadPending = false) :
    s.mounts = false ∧ s.top.pramEna = true ∧ s.top.loadPending = false := by
  rw [entry_ena] at ena
  rw [entry_load] at load
  cases mount : s.mounts <;> simp_all

/-- Nor during a load, where no report of an empty slot comes. -/
theorem Ordinary.still (o : Ordinary s) (busy : loading s.top.pst = true)
    (load : s.entry.loadPending = false) : s.mounts = false ∧ s.top.loadPending = false := by
  rw [entry_load] at load
  cases mount : s.mounts with
  | false =>
    rw [mount] at load
    exact ⟨rfl, by simpa using load⟩
  | true =>
    have size : s.imgSize ≠ 0 := by
      intro empty
      have := o.present mount empty
      rw [busy] at this
      cases this
    simp [mount, size] at load

/-! ### The session of the slot in one clock -/

theorem Quiet.hps_next (q : Quiet s) (h : Step s s') : s'.hps = .idle := by
  have allowed := h.allowed
  rw [h.hps, q.hps]
  rw [q.hps] at allowed
  cases move : s.move with
  | latch write => cases write <;> simp [move, HpsChan.allows, hpsReq, q.rd, q.wr] at allowed
  | wait | raise | word | drop | other => rfl

/-- A read session goes on loading the buffer until all words have moved. -/
theorem Step.reading (h : Step s s') (o : Ordinary s) (busy : loading s.top.pst = true)
    (buf : s'.top.pramBuf = s.entry.pramBuf) (load : s'.top.loadPending = s.entry.loadPending)
    {l w : Nat} (hps : s.hps = .reading l w) (part : Loaded s w) :
    (∃ l w, s'.hps = .reading l w ∧ Loaded s' w) ∨ (s'.hps = .idle ∧ Loaded s' 256) := by
  have unwritten : ∀ l w b, s.hps ≠ .writing l w b := by
    intro l w b
    rw [hps]
    simp
  have allowed := h.allowed
  have served := h.served
  have next := h.hps
  rw [hps] at allowed served next
  cases move : s.move with
  | wait =>
    rw [move] at next
    refine .inl ⟨l, w, next, ?_⟩
    intro due i hi hw
    rw [load] at due
    obtain ⟨still, before⟩ := o.still busy due
    have same : s.entry.pramBuf = s.top.pramBuf := by
      simp [entry, Top.latch, Top.captures, topIn, hps, move, HpsChan.strobe]
    rw [buf, same, h.image_kept still unwritten]
    exact part before i hi hw
  | word d =>
    rw [move] at next served
    refine .inl ⟨l, w + 1, next, ?_⟩
    intro due i hi hw
    rw [load] at due
    obtain ⟨still, before⟩ := o.still busy due
    have word : d = wordOf s.image w := served
    have low : w < 256 := by
      rw [move] at allowed
      simpa [HpsChan.allows, HpsChan.sectorWords] using allowed
    have addr : w % 256 + 256 * (w / 256 % 32) = w := by omega
    have got : s.entry.pramBuf =
        if w < 128 then putWord s.top.pramBuf w d else s.top.pramBuf := by
      simp [entry, Top.latch, Top.captures, topIn, hps, move, HpsChan.strobe, HpsChan.ack,
        HpsChan.addr, HpsChan.addrHi, HpsChan.dout, addr]
    rw [buf, got, h.image_kept still unwritten]
    by_cases inside : w < 128
    · rw [if_pos inside, word, putWord_wordOf]
      by_cases here : i / 2 = w
      · rw [if_pos here]
      · rw [if_neg here]
        exact part before i hi (by omega)
    · rw [if_neg inside]
      exact part before i hi (by omega)
  | drop =>
    rw [move] at next allowed
    have all : w = 256 := by simpa [HpsChan.allows, HpsChan.sectorWords] using allowed
    refine .inr ⟨next, ?_⟩
    intro due i hi hw
    rw [load] at due
    obtain ⟨still, before⟩ := o.still busy due
    have same : s.entry.pramBuf = s.top.pramBuf := by
      simp [entry, Top.latch, Top.captures, topIn, hps, move, HpsChan.strobe]
    rw [buf, same, h.image_kept still unwritten]
    exact part before i hi (by omega)
  | latch | raise | other =>
    rw [move] at allowed
    simp [HpsChan.allows] at allowed

/-- A write session goes on saving the buffer until all words have moved. -/
theorem Step.writing (h : Step s s') (buf : s'.top.pramBuf = s.top.pramBuf)
    (load : s'.top.loadPending = s.entry.loadPending) (ena : s'.top.pramEna = s.entry.pramEna)
    {l w : Nat} {b : Bool} (hps : s.hps = .writing l w b) (part : Saved s w) :
    (∃ l w b, s'.hps = .writing l w b ∧ Saved s' w) ∨ (s'.hps = .idle ∧ Saved s' 256) := by
  have allowed := h.allowed
  have next := h.hps
  rw [hps] at allowed next
  -- the image keeps what was saved, and gets the word that moves
  have image : s'.top.pramEna = true → s'.top.loadPending = false →
      s.top.pramEna = true ∧ s.top.loadPending = false ∧ s'.image = s.written := by
    intro filled due
    rw [ena] at filled
    rw [load] at due
    obtain ⟨still, before⟩ := still_of_entry filled due
    refine ⟨before.1, before.2, ?_⟩
    rw [h.image, still]
    rfl
  cases move : s.move with
  | wait =>
    rw [move] at next
    refine .inl ⟨l, w, true, next, ?_⟩
    intro filled due i hi hw
    obtain ⟨filled, due, written⟩ := image filled due
    have same : s.written = s.image := by simp [NvSystem.written, hps, move]
    rw [written, same, buf]
    exact part filled due i hi hw
  | word d =>
    rw [move] at next
    refine .inl ⟨l, w + 1, false, next, ?_⟩
    intro filled due i hi hw
    obtain ⟨filled, due, written⟩ := image filled due
    have put : s.written = putWord s.image w (s.top.sdBuffDin w) := by
      simp [NvSystem.written, hps, move]
    rw [written, put, buf]
    by_cases low : w < 128
    · rw [Top.sdBuffDin, if_pos low, putWord_wordOf]
      by_cases here : i / 2 = w
      · rw [if_pos here]
      · rw [if_neg here]
        exact part filled due i hi (by omega)
    · have outside : putWord s.image w (s.top.sdBuffDin w) i = s.image i := by
        unfold putWord
        rw [Function.update_of_ne (by omega), Function.update_of_ne (by omega)]
      rw [outside]
      exact part filled due i hi (by omega)
  | drop =>
    rw [move] at next allowed
    have all : w = 256 := by simpa [HpsChan.allows, HpsChan.sectorWords] using allowed
    refine .inr ⟨next, ?_⟩
    intro filled due i hi hw
    obtain ⟨filled, due, written⟩ := image filled due
    have same : s.written = s.image := by simp [NvSystem.written, hps, move]
    rw [written, same, buf]
    exact part filled due i hi (by omega)
  | latch | raise | other =>
    rw [move] at allowed
    simp [HpsChan.allows] at allowed

/-! ### What a clock does to each phase -/

theorem landed_of_low (port : s.top.pramLoadWr = false) (i : Nat) :
    s.landed i = s.egret.pram i := by
  simp [landed, port]

theorem landed_of_high (port : s.top.pramLoadWr = true) (i : Nat) :
    s.landed i = if s.top.pramLoadAddr = i then s.top.pramLoadData else s.egret.pram i := by
  simp [landed, port]

/-- While a load write is on its way, or nothing is written, `pram[]` gets just that. -/
theorem Step.pram_landed (h : Step s s') {i : Nat}
    (still : s.top.pramLoadWr = false → s.writes = true → EgretRam.wrIdx s.egretIn ≠ i) :
    s'.egret.pram i = s.landed i := by
  rw [h.pram, if_neg]
  rintro ⟨low, write, here⟩
  exact still low write here

/-- The resting state keeps its promise while the process only latches events. -/
theorem Step.kept (h : Step s s') (quiet : Quiet s)
    (kept : s.top.pramEna = true → s.top.pramDirty = false → s.top.loadPending = false → s.Agrees)
    (ena : s'.top.pramEna = s.entry.pramEna) (load : s'.top.loadPending = s.entry.loadPending)
    (dirty : s'.top.pramDirty = s.entry.pramDirty) (port : s'.top.pramLoadWr = false) :
    s'.top.pramEna = true → s'.top.pramDirty = false → s'.top.loadPending = false → s'.Agrees := by
  intro filled clean due i hi
  rw [ena] at filled
  rw [load] at due
  rw [dirty, entry_dirty, Bool.or_eq_false_iff] at clean
  obtain ⟨still, before, waiting⟩ := still_of_entry filled due
  have unwritten : ∀ l w b, s.hps ≠ .writing l w b := by
    intro l w b
    rw [quiet.hps]
    simp
  rw [h.image_kept still unwritten, landed_of_low port, h.pram_landed (fun _ write => ?_)]
  · exact kept before clean.1 waiting i hi
  · rw [clean.2] at write
    cases write

theorem Step.rest (h : Step s s') (pst : s.top.pst = .idle ∨ s.top.pst = .rst) (quiet : Quiet s)
    (kept : s.top.pramEna = true → s.top.pramDirty = false → s.top.loadPending = false → s.Agrees) :
    Phase s' := by
  have hps := quiet.hps_next h
  have rd := quiet.rd
  have wr := quiet.wr
  rcases pst with pst | pst
  · have top : s'.top = Top.stepIdle s.top s.entry := by
      rw [h.top, Top.next, pst]
      rfl
    unfold Top.stepIdle at top
    split at top
    · refine .clear (by rw [top]) ⟨by simp [top, rd], by simp [top, wr], hps⟩ ?_
      intro i hi
      simp [top] at hi
    · split at top
      · exact .request (.inl ⟨by rw [top], by rw [top]⟩) (by simp [top, wr]) (.inl hps)
      · split at top
        · refine .fill (by rw [top]) ⟨by simp [top, rd], by simp [top, wr], hps⟩ (by simp [top])
            (by simp [top]) (by simp [top]) ?_
          intro i hi
          simp [top] at hi
        · refine .rest (.inl (by simp [top, pst])) ⟨by simp [top, rd], by simp [top, wr], hps⟩ ?_
          exact h.kept quiet kept (by rw [top]) (by rw [top]) (by rw [top])
            (by simp [top])
  · have top : s'.top = Top.stepRst s.entry := by
      rw [h.top, Top.next, pst]
      rfl
    unfold Top.stepRst at top
    refine .rest (.inl (by rw [top])) ⟨by simp [top, rd], by simp [top, wr], hps⟩ ?_
    exact h.kept quiet kept (by rw [top]) (by rw [top]) (by rw [top])
      (by simp [top])

/-- What the slot does while a read is requested. -/
theorem Step.request_hps (h : Step s s') (o : Ordinary s) (busy : loading s.top.pst = true)
    (wr : s.top.pramWrReq = false) (buf : s'.top.pramBuf = s.entry.pramBuf)
    (load : s'.top.loadPending = s.entry.loadPending)
    (hps : s.hps = .idle ∨ (∃ l, s.hps = .latched false l) ∨
      ∃ l w, s.hps = .reading l w ∧ Loaded s w) :
    s'.hps = .idle ∨ (∃ l, s'.hps = .latched false l) ∨
      ∃ l w, s'.hps = .reading l w ∧ Loaded s' w := by
  have allowed := h.allowed
  have next := h.hps
  rcases hps with hps | ⟨l, hps⟩ | ⟨l, w, hps, part⟩
  · rw [hps] at allowed next
    cases move : s.move with
    | latch write =>
      rw [move] at allowed next
      cases write with
      | true => simp [HpsChan.allows, hpsReq, wr] at allowed
      | false => exact .inr (.inl ⟨_, next⟩)
    | wait | raise | word | drop | other =>
      rw [move] at next
      exact .inl next
  · rw [hps] at next
    cases move : s.move with
    | raise =>
      rw [move] at next
      refine .inr (.inr ⟨l, 0, next, ?_⟩)
      intro _ i _ none
      omega
    | wait | latch | word | drop | other =>
      rw [move] at next
      exact .inr (.inl ⟨l, next⟩)
  · rcases h.reading o busy buf load hps part with ⟨l, w, next, part⟩ | ⟨next, -⟩
    · exact .inr (.inr ⟨l, w, next, part⟩)
    · exact .inl next

theorem Step.request (h : Step s s') (o : Ordinary s)
    (pst : (s.top.pst = .ldRd ∧ s.top.pramRd = true) ∨ (s.top.pst = .ldKick ∧ s.top.pramRd = false))
    (wr : s.top.pramWrReq = false)
    (hps : s.hps = .idle ∨ (∃ l, s.hps = .latched false l) ∨
      ∃ l w, s.hps = .reading l w ∧ Loaded s w) :
    Phase s' := by
  rcases pst with ⟨pst, rd⟩ | ⟨pst, rd⟩
  · have busy : loading s.top.pst = true := by rw [pst]; rfl
    have top : s'.top = Top.stepLdRd s.topIn s.top s.entry := by
      rw [h.top, Top.next, pst]
      rfl
    have ackIs : s.topIn.pramAck = s.hps.ack := rfl
    unfold Top.stepLdRd at top
    rw [ackIs] at top
    split at top
    case isTrue ack =>
      obtain ⟨l, w, session, part⟩ : ∃ l w, s.hps = .reading l w ∧ Loaded s w := by
        rcases hps with hps | ⟨l, hps⟩ | reading
        · simp [hps, HpsChan.ack] at ack
        · simp [hps, HpsChan.ack] at ack
        · exact reading
      refine .receive (by rw [top]) (by rw [top]) (by simp [top, wr]) ?_
      rcases h.reading o busy (by rw [top]) (by rw [top]) session part with going | ⟨done, all⟩
      · exact .inl going
      · exact .inr ⟨done, by simp [top, ack], all⟩
    case isFalse ack =>
      split at top
      case isTrue expired =>
        rw [if_neg (o.served pst (by simpa using ack) expired)] at top
        exact .request (.inr ⟨by rw [top], by rw [top]⟩) (by simp [top, wr])
          (h.request_hps o busy wr (by rw [top]) (by rw [top]) hps)
      case isFalse =>
        exact .request (.inl ⟨by simp [top, pst], by simp [top, rd]⟩) (by simp [top, wr])
          (h.request_hps o busy wr (by rw [top]) (by rw [top]) hps)
  · have busy : loading s.top.pst = true := by rw [pst]; rfl
    have top : s'.top = { s.entry with pramRd := true, pst := .ldRd } := by
      rw [h.top, Top.next, pst]
      rfl
    exact .request (.inl ⟨by rw [top], by rw [top]⟩) (by simp [top, wr])
      (h.request_hps o busy wr (by rw [top]) (by rw [top]) hps)

theorem Step.receive (h : Step s s') (o : Ordinary s) (pst : s.top.pst = .ldDat)
    (rd : s.top.pramRd = false) (wr : s.top.pramWrReq = false)
    (hps : (∃ l w, s.hps = .reading l w ∧ Loaded s w) ∨
      (s.hps = .idle ∧ s.top.oldPack = true ∧ Loaded s 256)) :
    Phase s' := by
  have busy : loading s.top.pst = true := by rw [pst]; rfl
  have top : s'.top = Top.stepLdDat s.topIn s.top s.entry := by
    rw [h.top, Top.next, pst]
    rfl
  have ackIs : s.topIn.pramAck = s.hps.ack := rfl
  unfold Top.stepLdDat at top
  rw [ackIs] at top
  rcases hps with ⟨l, w, session, part⟩ | ⟨idle, old, all⟩
  · have ack : s.hps.ack = true := by rw [session]; rfl
    have open_ : (s.top.oldPack && !s.hps.ack) = false := by simp [ack]
    rw [open_, if_neg (by simp), if_neg (o.ended pst open_)] at top
    refine .receive (by simp [top, pst]) (by simp [top, rd]) (by simp [top, wr]) ?_
    rcases h.reading o busy (by rw [top]) (by rw [top]) session part with going | ⟨done, all⟩
    · exact .inl going
    · exact .inr ⟨done, by simp [top, ack], all⟩
  · have ack : s.hps.ack = false := by rw [idle]; rfl
    have closed : (s.top.oldPack && !s.hps.ack) = true := by simp [ack, old]
    rw [if_pos closed] at top
    have quiet : Quiet s := ⟨rd, wr, idle⟩
    refine .copy (by rw [top]) ⟨by simp [top, rd], by simp [top, wr], quiet.hps_next h⟩
      (by simp [top]) ?_ ?_ ?_
    · intro due i hi hw
      have due : s.entry.loadPending = false := by rw [← due, top]
      obtain ⟨still, before⟩ := o.still busy due
      have buf : s'.top.pramBuf = s.top.pramBuf := by
        rw [top]
        exact h.entry_buf (by simp [idle])
      rw [buf, h.image_kept still (by simp [idle])]
      exact all before i hi hw
    · intro i hi
      simp [top] at hi
    · simp [top]

theorem Step.copy (h : Step s s') (o : Ordinary s) (pst : s.top.pst = .ldCpy) (quiet : Quiet s)
    (low : s.top.pcnt < 256) (buf : Loaded s 256)
    (done : ∀ i, i < s.top.pcnt → s.landed i = s.top.pramBuf i)
    (port : s.top.pcnt ≠ 0 → s.top.pramLoadWr = true) : Phase s' := by
  have busy : loading s.top.pst = true := by rw [pst]; rfl
  have top : s'.top = Top.stepLdCpy s.top s.entry := by
    rw [h.top, Top.next, pst]
    rfl
  have hps := quiet.hps_next h
  have rd := quiet.rd
  have wr := quiet.wr
  have unread : ∀ l w, s.hps ≠ .reading l w := by simp [quiet.hps]
  have unwritten : ∀ l w b, s.hps ≠ .writing l w b := by simp [quiet.hps]
  have addr : s.top.pcnt % 256 = s.top.pcnt := Nat.mod_eq_of_lt low
  have same : s.entry.pramBuf = s.top.pramBuf := h.entry_buf unread
  -- what is in `pram[]` once the write of this clock has landed
  have copied : s'.top.pramLoadWr = true → s'.top.pramLoadAddr = s.top.pcnt →
      s'.top.pramLoadData = s.top.pramBuf s.top.pcnt →
      ∀ i, i < s.top.pcnt + 1 → s'.landed i = s.top.pramBuf i := by
    intro high here data i hi
    rw [landed_of_high high, here, data]
    by_cases last : s.top.pcnt = i
    · rw [if_pos last, last]
    · rw [if_neg last, h.pram_landed]
      · exact done i (by omega)
      · intro off
        rw [port (by omega)] at off
        cases off
  unfold Top.stepLdCpy at top
  dsimp only at top
  rw [addr] at top
  split at top
  case isTrue full =>
    have rested : s'.top.pst = .idle ∨ s'.top.pst = .rst := by
      split at top
      · exact .inr (by rw [top])
      · exact .inl (by rw [top])
    refine .rest rested ⟨?_, ?_, hps⟩ ?_
    · split at top <;> simp [top, rd]
    · split at top <;> simp [top, wr]
    · intro _ _ due i hi
      have due : s.entry.loadPending = false := by
        rw [← due]
        split at top <;> rw [top]
      obtain ⟨still, before⟩ := o.still busy due
      rw [h.image_kept still unwritten, ← buf before i hi (by omega)]
      refine (copied ?_ ?_ ?_ i (by omega)).symm
      all_goals
        split at top <;> rw [top]
  case isFalse more =>
    refine .copy (by simp [top, pst]) ⟨by simp [top, rd], by simp [top, wr], hps⟩ ?_ ?_ ?_ ?_
    · rw [top]
      dsimp only
      omega
    · intro due i hi hw
      have due : s.entry.loadPending = false := by rw [← due, top]
      obtain ⟨still, before⟩ := o.still busy due
      have kept : s'.top.pramBuf = s.top.pramBuf := by rw [top, ← same]
      rw [kept, h.image_kept still unwritten]
      exact buf before i hi hw
    · intro i hi
      have kept : s'.top.pramBuf = s.top.pramBuf := by rw [top, ← same]
      have count : s'.top.pcnt = s.top.pcnt + 1 := by
        rw [top]
        dsimp only
        omega
      rw [kept]
      exact copied (by rw [top]) (by rw [top]) (by rw [top]) i (by omega)
    · intro _
      rw [top]

theorem Step.fill (h : Step s s') (o : Ordinary s) (pst : s.top.pst = .fill) (quiet : Quiet s)
    (low : s.top.pcnt ≤ 256) (port : s.top.pramLoadWr = false)
    (addr : s.top.pcnt ≠ 0 → s.top.pramSaveAddr + 1 = s.top.pcnt)
    (done : ∀ i, i + 1 < s.top.pcnt → s.top.pramBuf i = s.egret.pram i) : Phase s' := by
  have top : s'.top = Top.stepFill s.topIn s.top s.entry := by
    rw [h.top, Top.next, pst]
    rfl
  have hps := quiet.hps_next h
  have rd := quiet.rd
  have wr := quiet.wr
  have same : s.entry.pramBuf = s.top.pramBuf := h.entry_buf (by simp [quiet.hps])
  have saved : s.topIn.pramSaveData = s.egret.pram s.top.pramSaveAddr := rfl
  -- the bytes copied so far, this clock's included, are not written any more
  have copied : s'.top.pramBuf =
        (if s.top.pcnt ≠ 0 then Function.update s.entry.pramBuf ((s.top.pcnt + 255) % 256)
          s.topIn.pramSaveData else s.entry.pramBuf) →
      ∀ i, i < s.top.pcnt → s'.top.pramBuf i = s'.egret.pram i := by
    intro buf i hi
    have kept : s'.egret.pram i = s.egret.pram i := by
      rw [h.pram_landed, landed_of_low port]
      intro _ write
      have := (o.early write port).1 pst
      omega
    rw [kept, buf, if_pos (by omega), same, saved]
    have ahead := addr (by omega)
    by_cases last : i = (s.top.pcnt + 255) % 256
    · have here : s.top.pramSaveAddr = i := by omega
      rw [last, Function.update_self, ← last, here]
    · rw [Function.update_of_ne last]
      exact done i (by omega)
  unfold Top.stepFill at top
  dsimp only at top
  split at top
  case isTrue full =>
    refine .offer (by rw [top]) (by simp [top, rd]) ?_ (.inl hps)
    intro i hi
    rw [landed_of_low (by simp [top])]
    exact copied (by rw [top]) i (by omega)
  case isFalse more =>
    have count : s'.top.pcnt = s.top.pcnt + 1 := by
      rw [top]
      dsimp only
      omega
    refine .fill (by simp [top, pst]) ⟨by simp [top, rd], by simp [top, wr], hps⟩ (by omega)
      (by simp [top]) ?_ ?_
    · intro _
      rw [count, top]
      dsimp only
      omega
    · intro i hi
      exact copied (by rw [top]) i (by omega)

/-- What the slot does while a write is requested. -/
theorem Step.offer_hps (h : Step s s') (rd : s.top.pramRd = false)
    (buf : s'.top.pramBuf = s.top.pramBuf) (load : s'.top.loadPending = s.entry.loadPending)
    (ena : s'.top.pramEna = s.entry.pramEna)
    (hps : s.hps = .idle ∨ (∃ l, s.hps = .latched true l) ∨
      ∃ l w b, s.hps = .writing l w b ∧ Saved s w) :
    s'.hps = .idle ∨ (∃ l, s'.hps = .latched true l) ∨
      ∃ l w b, s'.hps = .writing l w b ∧ Saved s' w := by
  have allowed := h.allowed
  have next := h.hps
  rcases hps with hps | ⟨l, hps⟩ | ⟨l, w, b, hps, part⟩
  · rw [hps] at allowed next
    cases move : s.move with
    | latch write =>
      rw [move] at allowed next
      cases write with
      | false => simp [HpsChan.allows, hpsReq, rd] at allowed
      | true => exact .inr (.inl ⟨_, next⟩)
    | wait | raise | word | drop | other =>
      rw [move] at next
      exact .inl next
  · rw [hps] at next
    cases move : s.move with
    | raise =>
      rw [move] at next
      refine .inr (.inr ⟨l, 0, false, next, ?_⟩)
      intro _ _ i _ none
      omega
    | wait | latch | word | drop | other =>
      rw [move] at next
      exact .inr (.inl ⟨l, next⟩)
  · rcases h.writing buf load ena hps part with ⟨l, w, b, next, part⟩ | ⟨next, -⟩
    · exact .inr (.inr ⟨l, w, b, next, part⟩)
    · exact .inl next

/-- While a save waits or streams, no write reaches `pram[]`. -/
theorem Step.buf_landed (h : Step s s') (o : Ordinary s)
    (pst : s.top.pst = .svWr ∨ s.top.pst = .svDat) (buf : ∀ i, i < 256 → s.top.pramBuf i = s.landed i)
    (same : s'.top.pramBuf = s.top.pramBuf) (port : s'.top.pramLoadWr = false) :
    ∀ i, i < 256 → s'.top.pramBuf i = s'.landed i := by
  intro i hi
  rw [same, buf i hi, landed_of_low port, h.pram_landed]
  intro low write
  obtain ⟨-, offer, send⟩ := o.early write low
  rcases pst with pst | pst
  · exact absurd pst offer
  · exact absurd pst send

theorem Step.offer (h : Step s s') (o : Ordinary s) (pst : s.top.pst = .svWr)
    (rd : s.top.pramRd = false) (buf : ∀ i, i < 256 → s.top.pramBuf i = s.landed i)
    (hps : s.hps = .idle ∨ (∃ l, s.hps = .latched true l) ∨
      ∃ l w b, s.hps = .writing l w b ∧ Saved s w) :
    Phase s' := by
  have top : s'.top = Top.stepSvWr s.topIn s.entry := by
    rw [h.top, Top.next, pst]
    rfl
  have unread : ∀ l w, s.hps ≠ .reading l w := by
    intro l w
    rcases hps with hps | ⟨l, hps⟩ | ⟨l, w, b, hps, -⟩ <;> simp [hps]
  have entryBuf := h.entry_buf unread
  have ackIs : s.topIn.pramAck = s.hps.ack := rfl
  unfold Top.stepSvWr at top
  rw [ackIs] at top
  have same : s'.top.pramBuf = s.top.pramBuf := by
    rw [← entryBuf]
    split at top <;> rw [top]
  have port : s'.top.pramLoadWr = false := by
    split at top <;> simp [top]
  have still := h.buf_landed o (.inl pst) buf same port
  split at top
  case isTrue ack =>
    obtain ⟨l, w, b, session, part⟩ : ∃ l w b, s.hps = .writing l w b ∧ Saved s w := by
      rcases hps with hps | ⟨l, hps⟩ | writing
      · simp [hps, HpsChan.ack] at ack
      · simp [hps, HpsChan.ack] at ack
      · exact writing
    refine .send (by rw [top]) (by simp [top, rd]) (by rw [top]) still ?_
    rcases h.writing same (by rw [top]) (by rw [top]) session part with going | ⟨done, all⟩
    · exact .inl going
    · exact .inr ⟨done, by simp [top, ack], all⟩
  case isFalse =>
    exact .offer (by simp [top, pst]) (by simp [top, rd]) still
      (h.offer_hps rd same (by rw [top]) (by rw [top]) hps)

theorem Step.send (h : Step s s') (o : Ordinary s) (pst : s.top.pst = .svDat)
    (rd : s.top.pramRd = false) (wr : s.top.pramWrReq = false)
    (buf : ∀ i, i < 256 → s.top.pramBuf i = s.landed i)
    (hps : (∃ l w b, s.hps = .writing l w b ∧ Saved s w) ∨
      (s.hps = .idle ∧ s.top.oldPack = true ∧ Saved s 256)) :
    Phase s' := by
  have top : s'.top = Top.stepSvDat s.topIn s.top s.entry := by
    rw [h.top, Top.next, pst]
    rfl
  have unread : ∀ l w, s.hps ≠ .reading l w := by
    intro l w
    rcases hps with ⟨l, w, b, hps, -⟩ | ⟨hps, -⟩ <;> simp [hps]
  have entryBuf := h.entry_buf unread
  have ackIs : s.topIn.pramAck = s.hps.ack := rfl
  unfold Top.stepSvDat at top
  rw [ackIs] at top
  rcases hps with ⟨l, w, b, session, part⟩ | ⟨idle, old, all⟩
  · have ack : s.hps.ack = true := by rw [session]; rfl
    rw [ack, Bool.not_true, Bool.and_false, if_neg (by simp)] at top
    have same : s'.top.pramBuf = s.top.pramBuf := by rw [top, ← entryBuf]
    refine .send (by simp [top, pst]) (by simp [top, rd]) (by simp [top, wr])
      (h.buf_landed o (.inr pst) buf same (by simp [top])) ?_
    rcases h.writing same (by rw [top]) (by rw [top]) session part with going | ⟨done, all⟩
    · exact .inl going
    · exact .inr ⟨done, by simp [top, ack], all⟩
  · have ack : s.hps.ack = false := by rw [idle]; rfl
    have closed : (s.top.oldPack && !s.hps.ack) = true := by simp [ack, old]
    rw [if_pos closed] at top
    have quiet : Quiet s := ⟨rd, wr, idle⟩
    have same : s'.top.pramBuf = s.top.pramBuf := by
      rw [← entryBuf]
      split at top <;> rw [top]
    have port : s'.top.pramLoadWr = false := by
      split at top <;> simp [top]
    have still := h.buf_landed o (.inr pst) buf same port
    have rested : s'.top.pst = .idle ∨ s'.top.pst = .rst := by
      split at top
      · exact .inr (by rw [top])
      · exact .inl (by rw [top])
    refine .rest rested ⟨?_, ?_, quiet.hps_next h⟩ ?_
    · split at top <;> simp [top, rd]
    · split at top <;> simp [top, wr]
    · intro filled _ due i hi
      have filled : s.entry.pramEna = true := by
        rw [← filled]
        split at top <;> rw [top]
      have due : s.entry.loadPending = false := by
        rw [← due]
        split at top <;> rw [top]
      obtain ⟨unmounted, before, waiting⟩ := still_of_entry filled due
      rw [h.image_kept unmounted (by simp [idle]), all before waiting i hi (by omega),
        ← still i hi, same]

/-- One clock of a clear. -/
theorem Step.cleared (h : Step s s') (c : Clearing s) (pst : s.top.pst = .clr) :
    s'.top.pramLoadWr = true ∧ s'.top.pramLoadData = 0 ∧
      (∀ i, i < s.top.pcnt + 1 → s'.landed i = 0) ∧
      s'.top.pramBuf = Function.update s.entry.pramBuf s.top.pcnt 0 := by
  have addr : s.top.pcnt % 256 = s.top.pcnt := Nat.mod_eq_of_lt (c.low pst)
  have port : s'.top.pramLoadWr = true ∧ s'.top.pramLoadAddr = s.top.pcnt ∧
      s'.top.pramLoadData = 0 ∧ s'.top.pramBuf = Function.update s.entry.pramBuf s.top.pcnt 0 := by
    have top : s'.top = Top.stepClr s.top s.entry := by
      rw [h.top, Top.next, pst]
      rfl
    unfold Top.stepClr at top
    dsimp only at top
    rw [addr] at top
    split at top
    · split at top <;> simp [top]
    · simp [top]
  obtain ⟨high, here, data, buf⟩ := port
  refine ⟨high, data, ?_, buf⟩
  intro i hi
  rw [landed_of_high high, here, data]
  by_cases last : s.top.pcnt = i
  · rw [if_pos last]
  · rw [if_neg last, h.pram_landed]
    · exact c.done pst i (by omega)
    · intro off
      rw [c.port pst (by omega)] at off
      cases off

theorem Step.clearing (h : Step s s') (c : Clearing s) : Clearing s' := by
  by_cases pst : s.top.pst = .clr
  · obtain ⟨high, -, zero, -⟩ := h.cleared c pst
    have low := c.low pst
    have count : s'.top.pst = .clr → s'.top.pcnt = s.top.pcnt + 1 ∧ s'.top.pcnt < 256 := by
      intro stays
      have top : s'.top = Top.stepClr s.top s.entry := by
        rw [h.top, Top.next, pst]
        rfl
      unfold Top.stepClr at top
      dsimp only at top
      split at top
      · split at top <;> simp [top] at stays
      · rw [top]
        dsimp only
        omega
    refine ⟨fun stays => (count stays).2, fun stays => ?_, fun _ _ => high⟩
    rw [(count stays).1]
    exact zero
  · -- a clear begins with the counter at zero
    have fresh : s'.top.pst = .clr → s'.top.pcnt = 0 := by
      rw [h.top]
      intro begins
      rcases Top.next_clr begins with going | ⟨-, zero⟩
      · exact absurd going pst
      · exact zero
    refine ⟨fun begins => by rw [fresh begins]; omega, fun begins i hi => ?_, fun begins more => ?_⟩
    · rw [fresh begins] at hi
      omega
    · exact absurd (fresh begins) more

theorem Step.clear (h : Step s s') (c : Clearing s) (pst : s.top.pst = .clr) (quiet : Quiet s)
    (done : ∀ i, i < s.top.pcnt → s.top.pramBuf i = 0) : Phase s' := by
  have top : s'.top = Top.stepClr s.top s.entry := by
    rw [h.top, Top.next, pst]
    rfl
  have hps := quiet.hps_next h
  have rd := quiet.rd
  have wr := quiet.wr
  have same : s.entry.pramBuf = s.top.pramBuf := h.entry_buf (by simp [quiet.hps])
  obtain ⟨-, -, zero, buf⟩ := h.cleared c pst
  have cleared : ∀ i, i < s.top.pcnt + 1 → s'.top.pramBuf i = 0 := by
    intro i hi
    rw [buf]
    by_cases last : i = s.top.pcnt
    · rw [last, Function.update_self]
    · rw [Function.update_of_ne last, same]
      exact done i (by omega)
  unfold Top.stepClr at top
  dsimp only at top
  split at top
  case isTrue full =>
    split at top
    case isTrue filled =>
      refine .offer (by rw [top]) (by simp [top, rd]) ?_ (.inl hps)
      intro i hi
      rw [cleared i (by omega), zero i (by omega)]
    case isFalse empty =>
      refine .rest (.inr (by rw [top])) ⟨by simp [top, rd], by simp [top, wr], hps⟩ ?_
      intro filled _ due
      have filled : s.entry.pramEna = true := by rw [← filled, top]
      have due : s.entry.loadPending = false := by rw [← due, top]
      exact absurd (still_of_entry filled due).2.1 empty
  case isFalse more =>
    have low := c.low pst
    have count : s'.top.pcnt = s.top.pcnt + 1 := by
      rw [top]
      dsimp only
      omega
    refine .clear (by simp [top, pst]) ⟨by simp [top, rd], by simp [top, wr], hps⟩ ?_
    rw [count]
    exact cleared

/-- Every clock keeps the phase. -/
theorem Step.phase (h : Step s s') (o : Ordinary s) (c : Clearing s) (p : Phase s) : Phase s' := by
  cases p with
  | rest pst quiet kept => exact h.rest pst quiet kept
  | request pst wr hps => exact h.request o pst wr hps
  | receive pst rd wr hps => exact h.receive o pst rd wr hps
  | copy pst quiet low buf done port => exact h.copy o pst quiet low buf done port
  | fill pst quiet low port addr done => exact h.fill o pst quiet low port addr done
  | offer pst rd buf hps => exact h.offer o pst rd buf hps
  | send pst rd wr buf hps => exact h.send o pst rd wr buf hps
  | clear pst quiet done => exact h.clear c pst quiet done

/-! ### Whole runs -/

/-- The resting process: a filled slot with nothing due and nothing dirty agrees with
`pram[]`. -/
def Kept (s : NvSystem) : Prop :=
  s.top.pst = .idle → s.top.pramEna = true → s.top.pramDirty = false →
    s.top.loadPending = false → s.Agrees

theorem Phase.kept (p : Phase s) : Kept s := by
  intro idle ena dirty load
  cases p with
  | rest _ _ kept => exact kept ena dirty load
  | request pst =>
    rcases pst with ⟨pst, -⟩ | ⟨pst, -⟩
    all_goals
      rw [idle] at pst
      cases pst
  | receive pst | copy pst | fill pst | offer pst | send pst | clear pst =>
    rw [idle] at pst
    cases pst

variable {r : Run Step}

theorem clearing_run (start : PowerUp (r.state 0)) (t : Nat) : Clearing (r.state t) := by
  induction t with
  | zero =>
    have idle : (r.state 0).top.pst ≠ .clr := by simp [start.idle]
    exact ⟨fun h => absurd h idle, fun h => absurd h idle, fun h => absurd h idle⟩
  | succ t ih => exact (r.step t).clearing ih

theorem phase_run (start : PowerUp (r.state 0)) {t : Nat}
    (ordinary : ∀ k, k < t → Ordinary (r.state k)) : Phase (r.state t) := by
  induction t with
  | zero =>
    refine .rest (.inl start.idle) ⟨start.rd, start.wr, start.hps⟩ ?_
    intro ena
    rw [start.ena] at ena
    cases ena
  | succ t ih =>
    have here := ih fun k hk => ordinary k (by omega)
    exact (r.step t).phase (ordinary t (by omega)) (clearing_run start t) here

/-! ### The boot-copy after a clear -/

/-- The last clock of a clear. -/
def clearEnds (s : NvSystem) : Prop := s.top.pst = .clr ∧ s.top.pcnt = 255

/-- The boot-copy starts in this clock. -/
def copyStarts (s : NvSystem) : Bool := s.egret.copyStarts s.egretIn s.top.pramReady

/-- The boot-copy takes its last step in this clock. -/
def copyEnds (s : NvSystem) : Bool :=
  !s.egretIn.reset && s.egret.copyBusy && s.egret.copyIdx == 259

/-- Neither a firmware write nor the copy of a load changes `pram[]`. -/
structure Undisturbed (s : NvSystem) : Prop where
  write : s.writes = true → s.top.pramLoadWr = true
  load : s.top.pst ≠ .ldCpy

/-- `pram[]` is zero, up to the last byte of a clear that is on its way. -/
structure Zeroed (s : NvSystem) : Prop where
  landed : ∀ i, i < 256 → s.landed i = 0
  port : s.top.pramLoadWr = true → s.top.pramLoadData = 0

theorem Step.zeroed (h : Step s s') (z : Zeroed s) (u : Undisturbed s) :
    Zeroed s' ∧ ∀ i, i < 256 → s'.egret.pram i = 0 := by
  have pram : ∀ i, i < 256 → s'.egret.pram i = 0 := by
    intro i hi
    rw [h.pram_landed, z.landed i hi]
    intro low write
    rw [u.write write] at low
    cases low
  have port : s'.top.pramLoadWr = true → s'.top.pramLoadData = 0 := by
    rw [h.top]
    exact fun high => Top.next_loadData high u.load
  refine ⟨⟨?_, port⟩, pram⟩
  intro i hi
  unfold landed
  split
  case isTrue high => exact port high.1
  case isFalse => exact pram i hi

/-- After a clear nothing but zero is in `pram[]` until it is disturbed. -/
theorem zeroed_run (start : PowerUp (r.state 0)) {c t : Nat} (clear : clearEnds (r.state c))
    (later : c < t) (calm : ∀ k, c < k → k < t → Undisturbed (r.state k)) : Zeroed (r.state t) := by
  induction t, later using Nat.le_induction with
  | base =>
    obtain ⟨-, data, zero, -⟩ := (r.step c).cleared (clearing_run start c) clear.1
    rw [clear.2] at zero
    exact ⟨fun i hi => zero i (by omega), fun _ => data⟩
  | succ t later ih =>
    have here := ih fun k hk hlt => calm k hk (by omega)
    exact ((r.step t).zeroed here (calm t later (by omega))).1

/-- One step of the boot-copy out of a zero `pram[]`. -/
theorem Step.copied (h : Step s s') (busy : s.egret.copyBusy = true) (still : s.egretIn.reset = false)
    (low : s.egret.copyIdx ≤ 259) (zero : ∀ i, i < 256 → s.egret.pram i = 0)
    (done : ∀ i, i < 256 → i < s.egret.copyIdx → s.egret.intram (0x70 + i) = 0) :
    (∀ i, i < 256 → i < s.egret.copyIdx + 1 → s'.egret.intram (0x70 + i) = 0) ∧
      (s.egret.copyIdx ≠ 259 → s'.egret.copyIdx = s.egret.copyIdx + 1) := by
  have running : s.egret.copyStarts s.egretIn s.top.pramReady = false := by
    simp [EgretRam.copyStarts, busy]
  have intram : s'.egret.intram = Function.update s.egret.intram
      (s.egret.copyByte s.egretIn).1 (s.egret.copyByte s.egretIn).2 := by
    rw [h.egret]
    simp only [EgretRam.next, still, running, busy, Bool.false_eq_true, if_false, if_true]
    split <;> rfl
  refine ⟨?_, ?_⟩
  · intro i hi below
    rw [intram]
    by_cases here : s.egret.copyIdx < 256
    · have byte : s.egret.copyByte s.egretIn = (s.egret.copyIdx + 0x70, 0) := by
        unfold EgretRam.copyByte
        split
        · omega
        · omega
        · omega
        · omega
        · rw [Nat.mod_eq_of_lt (by omega), Nat.mod_eq_of_lt here, zero _ here]
      rw [byte]
      by_cases last : i = s.egret.copyIdx
      · rw [last, Nat.add_comm, Function.update_self]
      · rw [Function.update_of_ne (by omega)]
        exact done i hi (by omega)
    · have seconds : (s.egret.copyByte s.egretIn).1 < 0x70 := by
        have index : s.egret.copyIdx = 256 ∨ s.egret.copyIdx = 257 ∨ s.egret.copyIdx = 258 ∨
            s.egret.copyIdx = 259 := by omega
        unfold EgretRam.copyByte
        rcases index with index | index | index | index <;> simp [index]
      rw [Function.update_of_ne (by omega)]
      exact done i hi (by omega)
  · intro more
    rw [h.egret]
    simp only [EgretRam.next, still, running, busy, more, Bool.false_eq_true, if_false, if_true]
    omega

/-- How far the boot-copy that started at `u` has come. -/
theorem copy_run (start : PowerUp (r.state 0)) {c u t : Nat} (clear : clearEnds (r.state c))
    (after : c < u) (starts : copyStarts (r.state u) = true) (later : u < t)
    (busy : ∀ k, u < k → k ≤ t → (r.state k).egret.copyBusy = true)
    (calm : ∀ k, c < k → k < t → Undisturbed (r.state k)) :
    (r.state t).egret.copyIdx ≤ 259 ∧ (∀ i, i < 256 → (r.state t).egret.pram i = 0) ∧
      ∀ i, i < 256 → i < (r.state t).egret.copyIdx → (r.state t).egret.intram (0x70 + i) = 0 := by
  induction t, later using Nat.le_induction with
  | base =>
    have zero := ((r.step u).zeroed (zeroed_run start clear after fun k hk hlt => calm k hk (by omega))
      (calm u after (by omega))).2
    have first : (r.state (u + 1)).egret.copyIdx = 0 := by
      have starts : (r.state u).egret.copyStarts (r.state u).egretIn (r.state u).top.pramReady = true :=
        starts
      have still : (r.state u).egretIn.reset = false := by
        simp only [EgretRam.copyStarts, Bool.and_eq_true, Bool.not_eq_true'] at starts
        exact starts.1.1.1.1
      rw [(r.step u).egret]
      simp only [EgretRam.next, still, starts, Bool.false_eq_true, if_false, if_true]
    refine ⟨?_, zero, ?_⟩
    · change (r.state (u + 1)).egret.copyIdx ≤ 259
      omega
    · intro i _ none
      change i < (r.state (u + 1)).egret.copyIdx at none
      omega
  | succ t later ih =>
    obtain ⟨low, zero, done⟩ := ih (fun k hk hle => busy k hk (by omega))
      (fun k hk hlt => calm k hk (by omega))
    have here := busy t later (by omega)
    have next := busy (t + 1) (by omega) (by omega)
    -- a reset, or the last step, would have ended the copy
    have still : (r.state t).egretIn.reset = false := by
      by_contra reset
      rw [(r.step t).egret] at next
      simp [EgretRam.next, Bool.of_not_eq_false reset] at next
    have more : (r.state t).egret.copyIdx ≠ 259 := by
      intro last
      rw [(r.step t).egret] at next
      simp [EgretRam.next, still, EgretRam.copyStarts, here, last] at next
    obtain ⟨copied, count⟩ := (r.step t).copied here still low zero done
    have zero := ((r.step t).zeroed (zeroed_run start clear (by omega) fun k hk hlt =>
      calm k hk (by omega)) (calm t (by omega) (by omega))).2
    have count := count more
    refine ⟨by omega, zero, ?_⟩
    intro i hi below
    exact copied i hi (by omega)

/-- **PRAM persistence.** In every run whose clocks so far are ordinary, a filled slot
with nothing due and nothing dirty agrees with `pram[]` whenever the process rests; and
a boot-copy that follows a clear seeds zero bytes if nothing disturbed `pram[]`. -/
theorem pram_persistent (r : Run Step) (start : PowerUp (r.state 0)) :
    (∀ t, (∀ k, k < t → Ordinary (r.state k)) → Kept (r.state t)) ∧
    ∀ c u t, c < u → u < t → clearEnds (r.state c) → copyStarts (r.state u) = true →
      (∀ k, u < k → k ≤ t → (r.state k).egret.copyBusy = true) → copyEnds (r.state t) = true →
      (∀ k, c < k → k ≤ t → Undisturbed (r.state k)) →
      ∀ i, i < 256 → (r.state (t + 1)).egret.intram (0x70 + i) = 0 := by
  refine ⟨fun t ordinary => (phase_run start ordinary).kept, ?_⟩
  intro c u t after later clear starts busy ends calm i hi
  obtain ⟨low, zero, done⟩ := copy_run start clear after starts later busy fun k hk hlt =>
    calm k hk (by omega)
  simp only [copyEnds, Bool.and_eq_true, Bool.not_eq_true', beq_iff_eq] at ends
  obtain ⟨⟨still, _⟩, last⟩ := ends
  exact ((r.step t).copied (busy t later (by omega)) still low zero done).1 i hi (by omega)

/-! ### A load, and one that is given up -/

instance : DecidablePred Ordinary := fun s =>
  decidable_of_iff ((s.writes = true → s.top.pramLoadWr = false →
        (s.top.pst = .fill → s.top.pcnt ≤ EgretRam.wrIdx s.egretIn) ∧
          s.top.pst ≠ .svWr ∧ s.top.pst ≠ .svDat) ∧
      (s.top.pst = .ldRd → s.hps.ack = false → s.top.ldWd = ldWdMax → s.top.ldTry ≠ 3) ∧
      (s.top.pst = .ldDat → (s.top.oldPack && !s.hps.ack) = false → s.top.ldWd ≠ ldWdMax) ∧
      (s.mounts = true → s.imgSize = 0 → loading s.top.pst = false))
    ⟨fun ⟨early, served, ended, present⟩ => ⟨early, served, ended, present⟩,
      fun o => ⟨o.early, o.served, o.ended, o.present⟩⟩

/-- An image of bytes 0x5A is mounted at clock 0; the HPS latches the request of the load
at clock 2, raises the acknowledge, and then does what `rest` says. -/
def mountScript (rest : Nat → HpsMove) (t : Nat) : NvInputs :=
  { imgMounted := t == 0
    imgSize := 512
    newImage := fun _ => 0x5A
    move := if t = 2 then .latch false else if t = 3 then .raise else rest t }

/-- The HPS moves the 256 words and drops the acknowledge. -/
def wholeLoad (t : Nat) : HpsMove :=
  if t < 4 then .wait else if t < 260 then .word 0x5A5A else if t = 260 then .drop else .wait

/-- The states of that load. -/
def loaded : Nat → NvSystem := scripted (mountScript wholeLoad)

theorem loaded_facts :
    ((List.range 518).all fun t => decide (Ordinary (loaded t) ∧ (loaded t).legal)) = true ∧
      (loaded 518).top.pst = .idle ∧ (loaded 518).top.pramEna = true ∧
      (loaded 518).top.pramDirty = false ∧ (loaded 518).top.loadPending = false := by
  decide +kernel

/-- The HPS never moves a word. -/
def stalled : Nat → NvSystem := scripted (mountScript fun _ => .wait)

/-- The load waits for its first word, and the watchdog counts. -/
structure Waiting (n : Nat) (s : NvSystem) : Prop where
  pst : s.top.pst = .ldDat
  wd : s.top.ldWd = n
  hps : ∃ l w, s.hps = .reading l w
  ena : s.top.pramEna = true
  dirty : s.top.pramDirty = false
  load : s.top.loadPending = false
  port : s.top.pramLoadWr = false
  image : s.image 0 = 0x5A
  pram : s.egret.pram 0 = 0

/-- A clock of the stalled load: the watchdog counts on, or gives the load up. -/
theorem Waiting.advance {n : Nat} (w : Waiting n s) (mount : s.imgMounted = false)
    (fw : s.egretIn.ramWrite = false) (move : s.move = .wait) (x : NvInputs) :
    (n ≠ ldWdMax → Waiting (n + 1) (s.advance x)) ∧
    (n = ldWdMax → (s.advance x).top.pst = .idle ∧ (s.advance x).top.pramEna = true ∧
      (s.advance x).top.pramDirty = false ∧ (s.advance x).top.loadPending = false ∧
      (s.advance x).image 0 ≠ (s.advance x).landed 0) := by
  obtain ⟨pst, wd, ⟨l, k, hps⟩, ena, dirty, load, port, image, pram⟩ := w
  have top : (s.advance x).top = Top.stepLdDat s.topIn s.top s.entry := by
    change Top.next s.topIn s.top = _
    rw [Top.next, pst]
    rfl
  have ack : s.topIn.pramAck = true := by simp [topIn, hps, HpsChan.ack]
  have still : s.mounts = false := by simp [mounts, Top.mounts, topIn, mount]
  have silent : s.writes = false := by simp [writes, EgretRam.regionWr, fw]
  have written : (s.advance x).image 0 = 0x5A := by
    simp only [NvSystem.advance, still, NvSystem.written, hps, Bool.false_eq_true, if_false]
    exact image
  have mirrored : (s.advance x).egret.pram 0 = 0 := by
    have next : (s.advance x).egret.pram 0 = s.egret.pram 0 := by
      simp only [NvSystem.advance, EgretRam.next_pram, EgretRam.pramNext, port]
      rw [show s.egret.regionWr s.egretIn = false from silent]
      rfl
    rw [next, pram]
  have filled : s.entry.pramEna = true := by rw [entry_ena, still]; exact ena
  have idle : s.entry.loadPending = false := by rw [entry_load, still, load]; rfl
  have clean : s.entry.pramDirty = false := by rw [entry_dirty, silent, dirty]; rfl
  rw [Top.stepLdDat, ack, wd] at top
  simp only [Bool.not_true, Bool.and_false, Bool.false_eq_true, if_false] at top
  refine ⟨?_, ?_⟩
  · intro counting
    rw [if_neg counting] at top
    refine ⟨?_, ?_, ⟨l, k, ?_⟩, ?_, ?_, ?_, ?_, written, mirrored⟩
    · rw [top]
      exact pst
    · rw [top]
    · simp only [NvSystem.advance, hps, move]
      rfl
    · rw [top]
      exact filled
    · rw [top]
      exact clean
    · rw [top]
      exact idle
    · rw [top]
      rfl
  · intro expired
    rw [if_pos expired] at top
    refine ⟨by rw [top], ?_, ?_, ?_, ?_⟩
    · rw [top]
      exact filled
    · rw [top]
      exact clean
    · rw [top]
      exact idle
    · rw [landed_of_low (by rw [top]; rfl), written, mirrored]
      decide

/-- A clock at which the HPS neither latches nor raises: it does what `rest` says. -/
theorem mountScript_rest (rest : Nat → HpsMove) {t : Nat} (first : t ≠ 2) (second : t ≠ 3) :
    (scripted (mountScript rest) t).move = rest t := by
  have inputs := scripted_inputs (mountScript rest) t
  have move : (scripted (mountScript rest) t).move = (mountScript rest t).move := by rw [inputs]
  rw [move]
  simp [mountScript, first, second]

theorem stalled_legal (t : Nat) : (stalled t).legal := by
  by_cases first : t = 2
  · subst first
    decide +kernel
  · by_cases second : t = 3
    · subst second
      decide +kernel
    · exact legal_of_wait _ (mountScript_rest _ first second)

/-- After clock 3 nothing happens any more. -/
theorem stalled_quiet (n : Nat) : (stalled (5 + n)).imgMounted = false ∧
    (stalled (5 + n)).egretIn.ramWrite = false ∧ (stalled (5 + n)).move = .wait := by
  have inputs := scripted_inputs (mountScript fun _ => .wait) (5 + n)
  have late : (5 + n == 0) = false := by simp
  refine ⟨?_, ?_, mountScript_rest _ (by omega) (by omega)⟩
  · have mount : (stalled (5 + n)).imgMounted = (mountScript (fun _ => .wait) (5 + n)).imgMounted := by
      rw [← inputs]
      rfl
    rw [mount]
    exact late
  · have fw : (stalled (5 + n)).egretIn = (mountScript (fun _ => .wait) (5 + n)).egretIn := by
      rw [← inputs]
      rfl
    rw [fw]
    rfl

/-- At clock 5 + `n` the watchdog stands at `n`. -/
theorem stalled_waiting (n : Nat) (within : n ≤ ldWdMax) : Waiting n (stalled (5 + n)) := by
  induction n with
  | zero =>
    refine ⟨?_, ?_, ⟨0, 0, ?_⟩, ?_, ?_, ?_, ?_, ?_, ?_⟩ <;> decide +kernel
  | succ n ih =>
    have here := ih (by omega)
    exact (here.advance (stalled_quiet n).1 (stalled_quiet n).2.1 (stalled_quiet n).2.2 _).1
      (by omega)

def stalledRun : Run Step := ofScript (mountScript fun _ => .wait) stalled_legal

/-- The load that the HPS does not finish is given up: the process rests with a filled
slot, nothing due and nothing dirty, and `pram[]` is not that of the image. -/
theorem pram_stale : ¬ ∀ r : Run Step, PowerUp (r.state 0) → ∀ t, Kept (r.state t) := by
  intro claim
  have waiting := stalled_waiting ldWdMax (Nat.le_refl _)
  obtain ⟨mount, fw, move⟩ := stalled_quiet ldWdMax
  obtain ⟨pst, ena, dirty, load, differs⟩ :=
    (waiting.advance mount fw move (mountScript (fun _ => .wait) (5 + ldWdMax + 1))).2 rfl
  have agrees := claim stalledRun (boot_powerUp _) (5 + ldWdMax + 1) pst ena dirty load
  exact differs (agrees 0 (by omega))

/-- The clocks of the load that the HPS does finish. -/
theorem loaded_at {t : Nat} (before : t < 518) : Ordinary (loaded t) ∧ (loaded t).legal :=
  of_decide_eq_true (List.all_eq_true.mp loaded_facts.1 t (List.mem_range.mpr before))

theorem loaded_legal (t : Nat) : (loaded t).legal := by
  by_cases before : t < 518
  · exact (loaded_at before).2
  · have wait : wholeLoad t = .wait := by
      unfold wholeLoad
      rw [if_neg (by omega), if_neg (by omega), if_neg (by omega)]
    exact legal_of_wait _ ((mountScript_rest _ (by omega) (by omega)).trans wait)

def loadedRun : Run Step := ofScript (mountScript wholeLoad) loaded_legal

/-- The theorem at that load. -/
theorem pram_persistent_loaded : (loadedRun.state 518).Agrees := by
  obtain ⟨-, pst, ena, dirty, load⟩ := loaded_facts
  have start : PowerUp (loadedRun.state 0) := boot_powerUp _
  exact (pram_persistent loadedRun start).1 518 (fun k hk => (loaded_at hk).1) pst ena dirty load

end NvSystem

end MacIIvi
