import MacIIvi.Floppy.Fetch

/-!
# Fetched bytes are fresh: the GCR path

The period of a byte opens with the delivery of the one before. An acknowledge
of its first bus cycle may carry the byte before the advance; two acknowledges
leave the right one in the latch when the period ends.
-/

namespace MacIIvi.Floppy

open Clocked

/-! ## Acknowledges -/

/-- The acknowledges of the bus cycles after `b₀`, up to `b`. -/
def acks (slot : Nat → Bool) (b₀ b : Nat) : Nat := (List.range' (b₀ + 1) (b - b₀)).countP slot

section Acks

variable (slot : Nat → Bool)

@[simp] theorem acks_self (b : Nat) : acks slot b b = 0 := by simp [acks]

theorem acks_succ {b₀ b : Nat} (h : b₀ ≤ b) :
    acks slot b₀ (b + 1) = acks slot b₀ b + (slot (b + 1)).toNat := by
  have len : b + 1 - b₀ = b - b₀ + 1 := by omega
  have here : b₀ + 1 + 1 * (b - b₀) = b + 1 := by omega
  unfold acks
  rw [len, List.range'_concat, List.countP_append, here]
  cases seen : slot (b + 1) <;> simp [seen]

/-- One bus cycle holds at most one. -/
theorem acks_first (b : Nat) : acks slot b (b + 1) ≤ 1 := by
  rw [acks_succ slot (Nat.le_refl b), acks_self, Nat.zero_add]
  exact Bool.toNat_le _

end Acks

/-! ## The byte timer block -/

section Blocks

variable (m : Media) (s : State) (i : Inputs)

/-- The side under the head, as the GCR encoder's stream sees it. -/
def Media.gcrSurface (m : Media) : Gcr.Surface := ⟨m.image, m.track, m.side, m.sides⟩

theorem gcrDelivers_spec (delivers : gcrDelivers s i = true) :
    i.cep = true ∧ s.diskDataByteTimer = 0 ∧ s.diskImageData ≠ 0 := by
  simp only [gcrDelivers, Bool.and_eq_true, decide_eq_true_eq] at delivers
  exact ⟨delivers.1.1.1, delivers.1.1.2, delivers.2⟩

theorem gcrStep_idle (idle : i.cep = false) : gcrStep m s i = s := by
  unfold gcrStep
  rw [idle]
  rfl

theorem gcrStep_delivers (delivers : gcrDelivers s i = true) :
    gcrStep m s i =
      { s with
        diskDataIn := s.diskImageData, newByteReady := true, diskDataByteTimer := 1
        diskImageData := 0, readyToAdvanceHead := true } := by
  simp only [gcrDelivers, Bool.and_eq_true, decide_eq_true_eq] at delivers
  obtain ⟨⟨⟨cep, elapsed⟩, head⟩, loaded⟩ := delivers
  unfold gcrStep
  rw [if_pos cep, if_pos ⟨elapsed, head, loaded⟩]

theorem gcrStep_waits (cep : i.cep = true) (waits : gcrDelivers s i = false) :
    gcrStep m s i =
      { s with
        diskDataByteTimer := (s.diskDataByteTimer + 1) % 2 ^ 7
        newByteReady := false
        diskImageData :=
          if i.dskReadAck then Gcr.odata s.enc.regs (encInputs m s) else s.diskImageData
        readyToAdvanceHead := s.readyToAdvanceHead || i.advanceDriveHead } := by
  unfold gcrStep
  rw [if_pos cep, if_neg]
  rintro ⟨elapsed, head, loaded⟩
  exact loaded (by simpa [gcrDelivers, cep, elapsed, head] using waits)

/-- No nibble is zero, which stands for no nibble. -/
theorem sonyToDiskByte_ne_zero : ∀ x : BitVec 6, Gcr.sonyToDiskByte x ≠ 0 := by decide +kernel

theorem odata_ne_zero (r : Gcr.Regs) (j : Gcr.Inputs) : Gcr.odata r j ≠ 0 := by
  have := sonyToDiskByte_ne_zero (Gcr.si r j)
  unfold Gcr.odata
  split <;> try split
  all_goals first | assumption | decide

/-- A clock without an enable leaves the encoder's registers alone. -/
theorem regs_idle (reset : Gcr.HeaderReset s.enc.regs) (idle : encReady s = false) :
    (step m s i).enc.regs = s.enc.regs :=
  Gcr.stepRegs_idle reset rfl idle

/-- An enable with the byte in the latch makes the stream's move. -/
theorem regs_enable (ready : encReady s = true)
    (fetched : Gcr.strobe s.enc.regs = true →
      s.dskReadDataLatch = m.image (m.gcrSurface.wanted s.enc.regs)) :
    (step m s i).enc.regs = (Gcr.stream m.gcrSurface).next s.enc.regs := by
  have inputs : encInputs m s = m.gcrSurface.enable s.dskReadDataLatch := by
    unfold encInputs
    rw [ready]
    rfl
  change Gcr.stepRegs s.enc.regs (encInputs m s) = _
  rw [inputs]
  exact Gcr.stepRegs_enable m.gcrSurface fetched

end Blocks

/-! ## The GCR path -/

section GcrPath

variable {v : Env} {s : System} {t b₀ : Nat}

/-- The byte of the image that the encoder's registers ask for. -/
def asked (v : Env) (x : System) : BitVec 8 := v.image (v.gcrSurface.wanted x.drive.enc.regs)

/-- Before the first delivery the encoder stands in the sync run. -/
structure Waiting (v : Env) (s : System) (t : Nat) : Prop where
  syn0 : (v.after s t).drive.enc.regs.state = .syn0
  head : (v.after s t).drive.readyToAdvanceHead = true
  new : (v.after s t).drive.newByteReady = false
  image : (v.after s t).drive.diskImageData = 0 ∨
    (v.after s t).drive.diskImageData =
      Gcr.odata (v.after s t).drive.enc.regs (encInputs v.toMedia (v.after s t).drive)

/-- The period that a delivery in bus cycle `b₀` opens. -/
structure Period (v : Env) (s : System) (b₀ t : Nat) : Prop where
  enough : 2 ≤ acks v.slot b₀ (b₀ + 128)
  began : b₀ < v.cycle t
  within : v.cycle t ≤ b₀ + 128
  timer : (v.after s t).drive.diskDataByteTimer = (v.cycle t - b₀) % 128
  head : (v.after s t).drive.readyToAdvanceHead = true
  new : (v.after s t).drive.newByteReady = decide (v.cycle t = b₀ + 1)
  ready : encReady (v.after s t).drive = decide (v.busPhase t = 0 ∧ v.cycle t = b₀ + 1)
  reset : Gcr.HeaderReset (v.after s t).drive.enc.regs
  enables : encReady (v.after s t).drive = true →
    Gcr.strobe (v.after s t).drive.enc.regs = true →
    (v.after s t).drive.dskReadDataLatch = asked v (v.after s t) ∧
    wanted v (v.after s t) = asked v (v.after s t)
  address : 2 ≤ v.busPhase t ∨ b₀ + 2 ≤ v.cycle t → wanted v (v.after s t) = asked v (v.after s t)
  ack : 2 ≤ v.busPhase t → (v.after s t).drive.dskReadAckD = v.slot (v.cycle t)
  fetched : (v.issue (v.cycle t) : Nat) < v.busPhase t → b₀ + 2 ≤ v.cycle t →
    (v.after s t).fetched = asked v (v.after s t)
  latch : 2 ≤ acks v.slot b₀ (v.cycle t - 1) →
    (v.after s t).drive.dskReadDataLatch = asked v (v.after s t)
  image : (v.after s t).drive.diskImageData = 0 ∨ b₀ + 2 ≤ v.cycle t ∧
    (v.after s t).drive.diskImageData =
      Gcr.odata (v.after s t).drive.enc.regs (encInputs v.toMedia (v.after s t).drive)
  loaded : 1 ≤ acks v.slot b₀ (v.cycle t - 1) → (v.after s t).drive.diskImageData ≠ 0

/-- Every period that a delivery opens has two acknowledges. -/
def TwoAcks (v : Env) (s : System) : Prop :=
  ∀ t, gcrDelivers (v.after s t).drive (v.inputs t (v.after s t)) = true →
    2 ≤ acks v.slot (v.cycle t) (v.cycle t + 128)

/-- Inside a bus cycle the byte timer rests. -/
theorem gcr_inside (inside : v.busPhase t < 3) :
    gcrStep v.toMedia (v.after s t).drive (v.inputs t (v.after s t)) = (v.after s t).drive :=
  gcrStep_idle _ _ _ (decide_eq_false (by omega))

/-- The address register follows the registers by a clock. -/
theorem wanted_next (path : v.mfmDisk = false) :
    wanted v (v.after s (t + 1)) = asked v (v.after s t) := by
  unfold wanted dskReadAddr
  rw [path]
  rfl

theorem asked_still
    (still : (v.after s (t + 1)).drive.enc.regs = (v.after s t).drive.enc.regs) :
    asked v (v.after s (t + 1)) = asked v (v.after s t) := by
  unfold asked
  rw [still]

theorem odata_still
    (still : (v.after s (t + 1)).drive.enc.regs = (v.after s t).drive.enc.regs) :
    Gcr.odata (v.after s (t + 1)).drive.enc.regs (encInputs v.toMedia (v.after s (t + 1)).drive) =
      Gcr.odata (v.after s t).drive.enc.regs (encInputs v.toMedia (v.after s t).drive) := by
  rw [still]
  rfl

/-- Only the first clock of a period enables the encoder. -/
theorem Period.still (h : Period v s b₀ t) (later : 1 ≤ v.busPhase t ∨ b₀ + 2 ≤ v.cycle t) :
    (v.after s (t + 1)).drive.enc.regs = (v.after s t).drive.enc.regs := by
  refine regs_idle _ _ _ h.reset ?_
  rw [h.ready]
  exact decide_eq_false (by omega)

/-- The byte on the data bus, once this bus cycle's command has been issued. -/
theorem Period.served (h : Period v s b₀ t) (later : b₀ + 2 ≤ v.cycle t)
    (issued : (v.issue (v.cycle t) : Nat) ≤ v.busPhase t) :
    v.served t (v.after s t) = asked v (v.after s t) := by
  unfold Env.served
  split
  · exact h.address (.inr later)
  · next earlier => exact h.fetched (by omega) later

theorem period_inside (path : v.mfmDisk = false) (inside : v.busPhase t < 3)
    (h : Period v s b₀ t) : Period v s b₀ (t + 1) := by
  obtain ⟨next, same⟩ := v.next_inside inside
  have rests := gcr_inside (s := s) inside
  have idle : (v.inputs t (v.after s t)).cep = false := decide_eq_false (by omega)
  have timer : (v.after s (t + 1)).drive.diskDataByteTimer = (v.after s t).drive.diskDataByteTimer :=
    (congrArg State.diskDataByteTimer rests :)
  have head : (v.after s (t + 1)).drive.readyToAdvanceHead = (v.after s t).drive.readyToAdvanceHead :=
    (congrArg State.readyToAdvanceHead rests :)
  have new : (v.after s (t + 1)).drive.newByteReady = (v.after s t).drive.newByteReady :=
    (congrArg State.newByteReady rests :)
  have image : (v.after s (t + 1)).drive.diskImageData = (v.after s t).drive.diskImageData :=
    (congrArg State.diskImageData rests :)
  have latch : (v.after s (t + 1)).drive.dskReadDataLatch = (v.after s t).drive.dskReadDataLatch := by
    change (if _ && _ then _ else _) = _
    rw [idle]
    rfl
  have ready : encReady (v.after s (t + 1)).drive = false := by
    change (!(v.after s t).drive.newByteReady && (v.after s (t + 1)).drive.newByteReady) = false
    rw [new, Bool.not_and_self]
  constructor
  case enough => exact h.enough
  case began => rw [same]; exact h.began
  case within => rw [same]; exact h.within
  case timer => rw [same, timer]; exact h.timer
  case head => rw [head]; exact h.head
  case new => rw [same, new]; exact h.new
  case ready =>
    rw [ready, next]
    exact (decide_eq_false (by omega)).symm
  case reset => exact Gcr.headerReset_step _ _
  case enables => simp [ready]
  case address =>
    rw [next, same]
    intro later
    rw [wanted_next path, asked_still (h.still (by omega))]
  case ack =>
    rw [next, same]
    intro late
    change (if (v.inputs t (v.after s t)).cen then v.slot (v.cycle t) else _) = _
    split
    · rfl
    · next other =>
      rw [v.cen_eq, decide_eq_true_eq] at other
      exact h.ack (by omega)
  case fetched =>
    rw [next, same]
    intro issued later
    rw [asked_still (h.still (.inr later))]
    exact h.served later (by omega)
  case latch =>
    rw [same, latch]
    intro two
    have later : b₀ + 2 ≤ v.cycle t := by
      by_contra first
      have here : v.cycle t - 1 = b₀ := by
        have := h.began
        omega
      rw [here, acks_self] at two
      omega
    rw [asked_still (h.still (.inr later))]
    exact h.latch two
  case image =>
    rw [same, image]
    refine h.image.imp id ?_
    rintro ⟨later, nibble⟩
    exact ⟨later, by rw [nibble, odata_still (h.still (.inr later))]⟩
  case loaded =>
    rw [same, image]
    exact h.loaded

/-- The last clock of a bus cycle loads the latch. -/
theorem Period.latched (h : Period v s b₀ t) (last : v.busPhase t = 3)
    (two : 2 ≤ acks v.slot b₀ (v.cycle t)) :
    (v.after s (t + 1)).drive.dskReadDataLatch = asked v (v.after s t) := by
  have cep : (v.inputs t (v.after s t)).cep = true := decide_eq_true last
  have began := h.began
  have here : v.cycle t - 1 + 1 = v.cycle t := by omega
  have count := acks_succ v.slot (by omega : b₀ ≤ v.cycle t - 1)
  rw [here] at count
  have issued : (v.issue (v.cycle t) : Nat) ≤ v.busPhase t := by
    have := (v.issue (v.cycle t)).isLt
    omega
  change (if _ && _ then v.served t (v.after s t) else _) = _
  rw [cep, h.ack (by omega), Bool.true_and]
  cases slot : v.slot (v.cycle t)
  · rw [slot, Bool.toNat_false, Nat.add_zero] at count
    exact h.latch (by omega)
  · refine h.served ?_ issued
    by_contra first
    have second : v.cycle t = b₀ + 1 := by omega
    have := acks_first v.slot b₀
    rw [second] at two
    omega

/-- A period lasts 128 bus cycles. -/
theorem Period.ends (h : Period v s b₀ t)
    (delivers : gcrDelivers (v.after s t).drive (v.inputs t (v.after s t)) = true) :
    v.cycle t = b₀ + 128 := by
  have elapsed := (gcrDelivers_spec _ _ delivers).2.1
  rw [h.timer] at elapsed
  have := h.began
  have := h.within
  omega

/-- The last clock of a bus cycle inside the period. -/
theorem period_last (path : v.mfmDisk = false) (last : v.busPhase t = 3)
    (waits : gcrDelivers (v.after s t).drive (v.inputs t (v.after s t)) = false)
    (h : Period v s b₀ t) : Period v s b₀ (t + 1) := by
  have cep : (v.inputs t (v.after s t)).cep = true := decide_eq_true last
  obtain ⟨next, same⟩ := v.next_last last
  have counts := gcrStep_waits v.toMedia _ _ cep waits
  have still := h.still (.inl (by omega))
  have began := h.began
  have count := acks_succ v.slot (by omega : b₀ ≤ v.cycle t - 1)
  rw [Nat.sub_add_cancel (by omega : 1 ≤ v.cycle t)] at count
  have previous : v.cycle t + 1 - 1 = v.cycle t := by omega
  have timer : (v.after s (t + 1)).drive.diskDataByteTimer =
      ((v.after s t).drive.diskDataByteTimer + 1) % 2 ^ 7 :=
    (congrArg State.diskDataByteTimer counts :)
  have head : (v.after s (t + 1)).drive.readyToAdvanceHead = true := by
    refine (congrArg State.readyToAdvanceHead counts).trans ?_
    rw [h.head]
    rfl
  have new : (v.after s (t + 1)).drive.newByteReady = false :=
    (congrArg State.newByteReady counts :)
  have image : (v.after s (t + 1)).drive.diskImageData =
      if v.slot (v.cycle t) then
        Gcr.odata (v.after s t).drive.enc.regs (encInputs v.toMedia (v.after s t).drive)
      else (v.after s t).drive.diskImageData := (congrArg State.diskImageData counts :)
  have ready : encReady (v.after s (t + 1)).drive = false := by
    rw [encReady, new, Bool.and_false]
  constructor
  case enough => exact h.enough
  case began => omega
  case within =>
    rw [same]
    by_contra beyond
    -- the period has run out, and a nibble was there to be delivered
    have full : v.cycle t = b₀ + 128 := by
      have := h.within
      omega
    have enough := h.enough
    have one : 1 ≤ acks v.slot b₀ (v.cycle t - 1) := by
      rw [← full, count] at enough
      have := Bool.toNat_le (v.slot (v.cycle t))
      omega
    have elapsed : (v.after s t).drive.diskDataByteTimer = 0 := by
      rw [h.timer]
      omega
    exact h.loaded one (by simpa [gcrDelivers, cep, elapsed, h.head] using waits)
  case timer =>
    rw [timer, same, h.timer]
    omega
  case head => exact head
  case new =>
    rw [new, same]
    exact (decide_eq_false (by omega)).symm
  case ready =>
    rw [ready, next, same]
    exact (decide_eq_false (by omega)).symm
  case reset => exact Gcr.headerReset_step _ _
  case enables => simp [ready]
  case address =>
    intro _
    rw [wanted_next path, asked_still still]
  case ack => omega
  case fetched => omega
  case latch =>
    rw [same, previous, asked_still still]
    exact h.latched last
  case image =>
    rw [same, image, odata_still still]
    split
    · exact .inr ⟨by omega, rfl⟩
    · exact h.image.imp id fun nibble => ⟨by omega, nibble.2⟩
  case loaded =>
    rw [same, previous, image, count]
    intro one
    split
    · exact odata_ne_zero _ _
    · next absent =>
      rw [Bool.eq_false_iff.2 absent] at one
      exact h.loaded one

/-- A delivery opens a period. -/
theorem period_opens (last : v.busPhase t = 3)
    (delivers : gcrDelivers (v.after s t).drive (v.inputs t (v.after s t)) = true)
    (enough : 2 ≤ acks v.slot (v.cycle t) (v.cycle t + 128))
    (old : (v.after s t).drive.newByteReady = false)
    (ready : encReady (v.after s (t + 1)).drive = true →
      Gcr.strobe (v.after s (t + 1)).drive.enc.regs = true →
      (v.after s (t + 1)).drive.dskReadDataLatch = asked v (v.after s (t + 1)) ∧
      wanted v (v.after s (t + 1)) = asked v (v.after s (t + 1))) :
    Period v s (v.cycle t) (t + 1) := by
  obtain ⟨next, same⟩ := v.next_last last
  have opens := gcrStep_delivers v.toMedia _ _ delivers
  have new : (v.after s (t + 1)).drive.newByteReady = true :=
    (congrArg State.newByteReady opens :)
  have none_ : acks v.slot (v.cycle t) (v.cycle (t + 1) - 1) = 0 := by
    rw [same, Nat.add_sub_cancel, acks_self]
  constructor
  case enough => exact enough
  case began => omega
  case within => omega
  case timer =>
    refine (congrArg State.diskDataByteTimer opens).trans ?_
    rw [same]
    change 1 = _
    omega
  case head => exact (congrArg State.readyToAdvanceHead opens :)
  case new =>
    rw [new]
    exact (decide_eq_true same).symm
  case ready =>
    have first : encReady (v.after s (t + 1)).drive = true := by
      change (!(v.after s t).drive.newByteReady && (v.after s (t + 1)).drive.newByteReady) = true
      rw [old, new]
      rfl
    rw [first]
    exact (decide_eq_true ⟨next, same⟩).symm
  case reset => exact Gcr.headerReset_step _ _
  case enables => exact ready
  case address => omega
  case ack => omega
  case fetched => omega
  case latch => omega
  case image => exact .inl (congrArg State.diskImageData opens :)
  case loaded => omega

theorem encReady_next : encReady (v.after s (t + 1)).drive =
    (!(v.after s t).drive.newByteReady &&
      gcrDelivers (v.after s t).drive (v.inputs t (v.after s t))) := by
  change (!(v.after s t).drive.newByteReady && (v.after s (t + 1)).drive.newByteReady) = _
  cases delivers : gcrDelivers (v.after s t).drive (v.inputs t (v.after s t))
  · cases cep : (v.inputs t (v.after s t)).cep
    · have rests := gcrStep_idle v.toMedia (v.after s t).drive _ cep
      have new : (v.after s (t + 1)).drive.newByteReady = (v.after s t).drive.newByteReady :=
        (congrArg State.newByteReady rests :)
      rw [new, Bool.not_and_self, Bool.and_false]
    · have counts := gcrStep_waits v.toMedia _ _ cep delivers
      have new : (v.after s (t + 1)).drive.newByteReady = false :=
        (congrArg State.newByteReady counts :)
      rw [new]
  · have opens := gcrStep_delivers v.toMedia _ _ delivers
    have new : (v.after s (t + 1)).drive.newByteReady = true :=
      (congrArg State.newByteReady opens :)
    rw [new]

theorem Waiting.reset (h : Waiting v s t) : Gcr.HeaderReset (v.after s t).drive.enc.regs := by
  intro header
  rw [h.syn0] at header
  cases header

theorem Waiting.still (h : Waiting v s t) :
    (v.after s (t + 1)).drive.enc.regs = (v.after s t).drive.enc.regs := by
  refine regs_idle _ _ _ h.reset ?_
  rw [encReady, h.new, Bool.and_false]

theorem not_strobe_syn0 {r : Gcr.Regs} (syn0 : r.state = .syn0) : Gcr.strobe r = false := by
  simp [Gcr.strobe, syn0]

/-- Without a delivery the path waits on. -/
theorem Waiting.waits (h : Waiting v s t)
    (waits : gcrDelivers (v.after s t).drive (v.inputs t (v.after s t)) = false) :
    Waiting v s (t + 1) := by
  have syn0 : (v.after s (t + 1)).drive.enc.regs.state = .syn0 := by rw [h.still, h.syn0]
  cases cep : (v.inputs t (v.after s t)).cep
  · have rests := gcrStep_idle v.toMedia (v.after s t).drive _ cep
    constructor
    case syn0 => exact syn0
    case head => exact (congrArg State.readyToAdvanceHead rests).trans h.head
    case new => exact (congrArg State.newByteReady rests).trans h.new
    case image =>
      have image : (v.after s (t + 1)).drive.diskImageData = (v.after s t).drive.diskImageData :=
        (congrArg State.diskImageData rests :)
      rw [image, odata_still h.still]
      exact h.image
  · have counts := gcrStep_waits v.toMedia _ _ cep waits
    constructor
    case syn0 => exact syn0
    case head =>
      refine (congrArg State.readyToAdvanceHead counts).trans ?_
      rw [h.head]
      rfl
    case new => exact (congrArg State.newByteReady counts :)
    case image =>
      have image : (v.after s (t + 1)).drive.diskImageData =
          if v.slot (v.cycle t) then
            Gcr.odata (v.after s t).drive.enc.regs (encInputs v.toMedia (v.after s t).drive)
          else (v.after s t).drive.diskImageData := (congrArg State.diskImageData counts :)
      rw [image, odata_still h.still]
      split
      · exact .inr rfl
      · exact h.image

/-- Without a delivery a period goes on. -/
theorem Period.waits (path : v.mfmDisk = false) (h : Period v s b₀ t)
    (waits : gcrDelivers (v.after s t).drive (v.inputs t (v.after s t)) = false) :
    Period v s b₀ (t + 1) := by
  have := v.busPhase_lt t
  by_cases last : v.busPhase t = 3
  · exact period_last path last waits h
  · exact period_inside path (by omega) h

/-- The GCR path waits for its first delivery, or is in some period. -/
def GcrFetch (v : Env) (s : System) (t : Nat) : Prop := Waiting v s t ∨ ∃ b₀, Period v s b₀ t

/-- A delivery opens a period, from wherever the path stands. -/
theorem GcrFetch.opens (path : v.mfmDisk = false) (enough : TwoAcks v s) (h : GcrFetch v s t)
    (delivers : gcrDelivers (v.after s t).drive (v.inputs t (v.after s t)) = true) :
    Period v s (v.cycle t) (t + 1) := by
  have last : v.busPhase t = 3 := of_decide_eq_true (gcrDelivers_spec _ _ delivers).1
  rcases h with waiting | ⟨b₀, period⟩
  · refine period_opens last delivers (enough t delivers) waiting.new ?_
    intro _ strobes
    rw [not_strobe_syn0 (waiting.still ▸ waiting.syn0)] at strobes
    cases strobes
  · have ends := period.ends delivers
    refine period_opens last delivers (enough t delivers) ?_ ?_
    · rw [period.new]
      exact decide_eq_false (by omega)
    · intro _ _
      have still := period.still (.inr (by omega))
      rw [asked_still still, wanted_next path]
      exact ⟨period.latched last (by rw [ends]; exact period.enough), rfl⟩

theorem gcrFetch (path : v.mfmDisk = false) (reset : OutOfReset s.drive) (enough : TwoAcks v s)
    (t : Nat) : GcrFetch v s t := by
  induction t with
  | zero =>
    exact .inl ⟨reset.state, reset.readyToAdvanceHead, reset.newByteReady, .inl reset.diskImageData⟩
  | succ t ih =>
    cases delivers : gcrDelivers (v.after s t).drive (v.inputs t (v.after s t))
    · rcases ih with waiting | ⟨b₀, period⟩
      · exact .inl (waiting.waits delivers)
      · exact .inr ⟨b₀, period.waits path delivers⟩
    · exact .inr ⟨_, ih.opens path enough delivers⟩

theorem GcrFetch.reset (h : GcrFetch v s t) : Gcr.HeaderReset (v.after s t).drive.enc.regs :=
  h.elim Waiting.reset fun ⟨_, period⟩ => period.reset

/-- When the encoder is enabled and takes a byte, it takes the one it asks for. -/
theorem GcrFetch.enables (h : GcrFetch v s t) (ready : encReady (v.after s t).drive = true)
    (strobes : Gcr.strobe (v.after s t).drive.enc.regs = true) :
    (v.after s t).drive.dskReadDataLatch = asked v (v.after s t) ∧
    wanted v (v.after s t) = asked v (v.after s t) := by
  rcases h with waiting | ⟨b₀, period⟩
  · rw [not_strobe_syn0 waiting.syn0] at strobes
    cases strobes
  · exact period.enables ready strobes

/-- A nibble is delivered with the encoder at rest, and is the current one. -/
theorem GcrFetch.delivery (h : GcrFetch v s t)
    (delivers : gcrDelivers (v.after s t).drive (v.inputs t (v.after s t)) = true) :
    (v.after s t).drive.newByteReady = false ∧
    (v.after s t).drive.diskImageData =
      Gcr.odata (v.after s t).drive.enc.regs (encInputs v.toMedia (v.after s t).drive) := by
  have some_ := (gcrDelivers_spec _ _ delivers).2.2
  rcases h with waiting | ⟨b₀, period⟩
  · exact ⟨waiting.new, waiting.image.resolve_left some_⟩
  · refine ⟨?_, (period.image.resolve_left some_).2⟩
    have ends := period.ends delivers
    rw [period.new]
    exact decide_eq_false (by omega)

/-- The nibbles the GCR path delivers. -/
def gcrTaken (v : Env) (s : System) (t : Nat) : Option (BitVec 8) :=
  if gcrDelivers (v.after s t).drive (v.inputs t (v.after s t)) then
    some (v.after s (t + 1)).drive.diskDataIn
  else none

/-- The nibbles of the first `t` clocks. -/
def gcrDelivered (v : Env) (s : System) (t : Nat) : List (BitVec 8) := record (gcrTaken v s) 0 t

/-- What the delivered nibbles are: those of the encoder's stream. -/
structure GcrFollows (v : Env) (s : System) (t : Nat) : Prop where
  regs : (if encReady (v.after s t).drive
      then (Gcr.stream v.gcrSurface).next (v.after s t).drive.enc.regs
      else (v.after s t).drive.enc.regs) =
    (Gcr.stream v.gcrSurface).after (gcrDelivered v s t).length s.drive.enc.regs
  said : gcrDelivered v s t =
    (Gcr.stream v.gcrSurface).emitted (gcrDelivered v s t).length s.drive.enc.regs

theorem gcrFollows_succ (fetch : GcrFetch v s t) (h : GcrFollows v s t) :
    GcrFollows v s (t + 1) := by
  have log : gcrDelivered v s (t + 1) = gcrDelivered v s t ++ (gcrTaken v s t).toList :=
    record_succ (Nat.zero_le _)
  cases delivers : gcrDelivers (v.after s t).drive (v.inputs t (v.after s t))
  · have none_ : gcrTaken v s t = none := by rw [gcrTaken, delivers]; rfl
    have ready : encReady (v.after s (t + 1)).drive = false := by
      rw [encReady_next, delivers, Bool.and_false]
    rw [none_, Option.toList_none, List.append_nil] at log
    refine ⟨?_, by rw [log]; exact h.said⟩
    rw [ready, log, ← h.regs, if_neg Bool.false_ne_true]
    cases enabled : encReady (v.after s t).drive
    · exact regs_idle _ _ _ fetch.reset enabled
    · exact regs_enable _ _ _ enabled fun strobes => (fetch.enables enabled strobes).1
  · obtain ⟨old, nibble⟩ := fetch.delivery delivers
    have ready : encReady (v.after s (t + 1)).drive = true := by
      rw [encReady_next, delivers, old]
      rfl
    have idle : encReady (v.after s t).drive = false := by rw [encReady, old, Bool.and_false]
    have still : (v.after s (t + 1)).drive.enc.regs = (v.after s t).drive.enc.regs :=
      regs_idle _ _ _ fetch.reset idle
    have opens := gcrStep_delivers v.toMedia _ _ delivers
    have some_ : gcrTaken v s t =
        some ((Gcr.stream v.gcrSurface).out (v.after s t).drive.enc.regs) := by
      have loaded : (v.after s (t + 1)).drive.diskDataIn = (v.after s t).drive.diskImageData :=
        (congrArg State.diskDataIn opens :)
      rw [gcrTaken, delivers, if_pos rfl, loaded, nibble]
      rfl
    rw [some_, Option.toList_some] at log
    have length : (gcrDelivered v s (t + 1)).length = (gcrDelivered v s t).length + 1 := by
      rw [log, List.length_append]
      rfl
    have position := h.regs
    rw [idle, if_neg Bool.false_ne_true] at position
    constructor
    · rw [ready, if_pos rfl, still, length, Source.after_succ, position]
    · rw [length, Source.emitted_add, ← h.said, log, position]
      rfl

theorem gcrFollows (path : v.mfmDisk = false) (reset : OutOfReset s.drive) (enough : TwoAcks v s)
    (t : Nat) : GcrFollows v s t := by
  induction t with
  | zero =>
    refine ⟨?_, rfl⟩
    change (if encReady s.drive then _ else s.drive.enc.regs) = s.drive.enc.regs
    rw [encReady, reset.newByteReady, Bool.and_false]
    rfl
  | succ t ih => exact gcrFollows_succ (gcrFetch path reset enough t) ih

/-- A period ends with a delivery, after 128 bus cycles. -/
theorem Period.delivers (path : v.mfmDisk = false) (h : Period v s b₀ t) :
    ∃ u ≥ t, gcrDelivers (v.after s u).drive (v.inputs u (v.after s u)) = true ∧
      v.cycle u = b₀ + 128 := by
  by_contra never
  have stays : ∀ u ≥ t, Period v s b₀ u → Period v s b₀ (u + 1) := by
    intro u later period
    refine period.waits path ?_
    by_contra delivers
    rw [Bool.not_eq_false] at delivers
    exact never ⟨u, later, delivers, period.ends delivers⟩
  have late := (kept_from stays le_rfl h (by omega : t ≤ t + 4 * 129)).within
  have began := h.began
  unfold Env.cycle at late began
  omega

/-- No fetch delays a nibble: deliveries are 128 bus cycles apart. -/
theorem gcr_delivers_again (path : v.mfmDisk = false) (reset : OutOfReset s.drive)
    (enough : TwoAcks v s)
    (delivers : gcrDelivers (v.after s t).drive (v.inputs t (v.after s t)) = true) :
    ∃ u > t, gcrDelivers (v.after s u).drive (v.inputs u (v.after s u)) = true ∧
      v.cycle u = v.cycle t + 128 :=
  ((gcrFetch path reset enough t).opens path enough delivers).delivers path

end GcrPath

/-! ## The slots of the extra bus cycles -/

namespace Slots

/-- Where the counters stand after `t` clocks. -/
theorem after_eq (t : Nat) :
    (initial.after t).busPhase = t % 4 ∧ (initial.after t).busCycle = t / 4 % 4 ∧
    (initial.after t).extraSlotCount = t / 16 % 4 ∧
    (2 ≤ t % 4 → (initial.after t).extraSlotAdvance = decide (t / 4 % 4 = 3)) := by
  induction t with
  | zero => decide
  | succ t ih =>
    obtain ⟨phase, cycle, count, advance⟩ := ih
    change (initial.after t).step.busPhase = _ ∧ (initial.after t).step.busCycle = _ ∧
      (initial.after t).step.extraSlotCount = _ ∧ (_ → (initial.after t).step.extraSlotAdvance = _)
    unfold step
    simp only [phase, cycle, count]
    refine ⟨by omega, ?_, ?_, ?_⟩
    · split <;> omega
    · by_cases last : t % 4 = 3
      · rw [advance (by omega)]
        simp only [decide_eq_true_eq]
        split <;> omega
      · rw [if_neg (fun h => last h.1)]
        omega
    · intro late
      split
      · next first => exact decide_eq_decide.2 (by omega)
      · next other =>
        rw [advance (by omega)]
        exact decide_eq_decide.2 (by omega)

/-- The internal drive has one bus cycle in sixteen. -/
theorem dskReadAckInt_eq (t : Nat) :
    (initial.after t).dskReadAckInt = decide (t / 4 % 16 = 2) := by
  obtain ⟨-, cycle, count, -⟩ := after_eq t
  unfold dskReadAckInt
  rw [cycle, count, ← Bool.decide_and]
  exact decide_eq_decide.2 (by omega)

/-- The bus cycles of the internal drive. -/
def internal (b : Nat) : Bool := (initial.after (4 * b)).dskReadAckInt

theorem internal_eq (b : Nat) : internal b = decide (b % 16 = 2) := by
  rw [internal, dskReadAckInt_eq]
  exact decide_eq_decide.2 (by omega)

end Slots

theorem acks_mono (slot : Nat → Bool) {b₀ b b' : Nat} (h : b₀ ≤ b) (later : b ≤ b') :
    acks slot b₀ b ≤ acks slot b₀ b' := by
  induction b', later using Nat.le_induction with
  | base => exact le_rfl
  | succ b' later ih =>
    rw [acks_succ slot (by omega)]
    omega

/-- The internal drive has more than two in any 128. -/
theorem two_le_acks_internal (b : Nat) : 2 ≤ acks Slots.internal b (b + 128) := by
  -- a slot within sixteen bus cycles, and the next one
  obtain ⟨k, small, hk⟩ : ∃ k < 16, (b + k + 1) % 16 = 2 := ⟨(17 - b % 16) % 16, by omega, by omega⟩
  have first := acks_succ Slots.internal (by omega : b ≤ b + k)
  rw [Slots.internal_eq, decide_eq_true hk] at first
  have second := acks_succ Slots.internal (by omega : b ≤ b + k + 16)
  rw [Slots.internal_eq, decide_eq_true (by omega)] at second
  have between := acks_mono Slots.internal (by omega : b ≤ b + k + 1)
    (by omega : b + k + 1 ≤ b + k + 16)
  have after := acks_mono Slots.internal (by omega : b ≤ b + k + 16 + 1)
    (by omega : b + k + 16 + 1 ≤ b + 128)
  simp only [Bool.toNat_true] at first second
  omega

theorem recurring_internal : Recurring Slots.internal := by
  intro b
  have slot : (16 * b + 2) % 16 = 2 := by omega
  refine ⟨16 * b + 2, by omega, ?_⟩
  rw [Slots.internal_eq]
  exact decide_eq_true slot

/-! ## Freshness -/

/-- From reset on, with the head at rest: whatever the slots of the drive, a
byte of the payload that the MFM path delivers is the byte of the image at the
address presented for it, and the bytes delivered are the track, late slots or
not; a byte that the GCR encoder takes is the byte of the image at the address
presented for it, and the nibbles delivered are the track, if every period of
128 ticks has two acknowledges. -/
theorem fetched_bytes_fresh (v : Env) (s : System) (reset : OutOfReset s.drive) :
    (v.mfmDisk = true →
      (∀ t, mfmDelivers v.toMedia (v.after s t).drive (v.inputs t (v.after s t)) = true →
        oneeds v.toMedia (v.after s t).drive = true →
        (v.after s (t + 1)).drive.mfmStb = true ∧
        (v.after s (t + 1)).drive.mfmByte = wanted v (v.after s t)) ∧
      (∀ t, mfmDelivered v s t = ((Mfm.stream v.mfmSurface).emitted
        (mfmDelivered v s t).length Mfm.initial).map shown) ∧
      ((∀ t, v.motorOn t = true) → Recurring v.slot → ∀ n, ∃ t, n ≤ (mfmDelivered v s t).length)) ∧
    (v.mfmDisk = false → TwoAcks v s →
      (∀ t, encReady (v.after s t).drive = true → Gcr.strobe (v.after s t).drive.enc.regs = true →
        (v.after s t).drive.dskReadDataLatch = wanted v (v.after s t)) ∧
      (∀ t, gcrDelivered v s t = (Gcr.stream v.gcrSurface).emitted
        (gcrDelivered v s t).length s.drive.enc.regs) ∧
      (∀ t, gcrDelivers (v.after s t).drive (v.inputs t (v.after s t)) = true →
        ∃ u > t, gcrDelivers (v.after s u).drive (v.inputs u (v.after s u)) = true ∧
          v.cycle u = v.cycle t + 128)) := by
  constructor
  · intro path
    refine ⟨?_, fun t => (mfmFollows path reset t).said, fun spins slots n => ?_⟩
    · intro t delivers payload
      obtain ⟨strobed, byte, -, -⟩ := mfmStep_delivers _ _ _ delivers
      refine ⟨strobed, byte.trans ?_⟩
      have data : (v.after s t).drive.menc.state = .data := of_decide_eq_true payload
      have fresh := (mfmDelivers_spec _ _ _ delivers).2 payload
      rw [← (mfmFetch path reset t).fresh fresh data]
      simp [Mfm.outputs, Mfm.odata, data, mencInputs]
    · exact mfm_delivers_all path spins slots n
  · intro path enough
    refine ⟨?_, fun t => (gcrFollows path reset enough t).said, fun t delivers => ?_⟩
    · intro t ready strobes
      obtain ⟨latch, address⟩ := (gcrFetch path reset enough t).enables ready strobes
      rw [latch, address]
    · exact gcr_delivers_again path reset enough delivers

/-- The internal drive at rest on track 0, with an image of counting bytes. -/
def countingDrive (mfmDisk : Bool) : Env where
  image n := BitVec.ofNat 8 n
  track := 0
  side := false
  sides := false
  hd := true
  mfmDisk := mfmDisk
  phase := 0
  slot := Slots.internal
  issue _ := 1
  motorOn _ := true
  advanceDriveHead _ := false

/-- The drive out of reset. -/
def outOfReset : System where
  drive :=
    { dskReadAckD := false, dskReadDataLatch := 0, menc := Mfm.initial, mfmReadyPulse := false
      mfmFresh := false, mfmAckSkip := false, mfmTimer := 0, mfmStb := false, mfmByte := 0
      mfmMark := false, mfmCrc0 := false
      enc := ⟨⟨.syn0, 0, 0, 0, 0, 0, false, 0, false, 0, 0, 0, 0, 0⟩, 0⟩
      oldNewByteReady := false, newByteReady := false, diskDataByteTimer := 0, diskImageData := 0
      diskDataIn := 0xFF, readyToAdvanceHead := true }
  fetched := 0

theorem countingDrive_fresh :
    (∀ n, ∃ t, n ≤ (mfmDelivered (countingDrive true) outOfReset t).length ∧
      mfmDelivered (countingDrive true) outOfReset t =
        ((Mfm.stream (countingDrive true).mfmSurface).emitted
          (mfmDelivered (countingDrive true) outOfReset t).length Mfm.initial).map shown) ∧
    ∀ t, gcrDelivered (countingDrive false) outOfReset t =
      (Gcr.stream (countingDrive false).gcrSurface).emitted
        (gcrDelivered (countingDrive false) outOfReset t).length outOfReset.drive.enc.regs := by
  have reset : OutOfReset outOfReset.drive := by constructor <;> rfl
  constructor
  · intro n
    obtain ⟨-, said, onward⟩ := (fetched_bytes_fresh (countingDrive true) outOfReset reset).1 rfl
    obtain ⟨t, many⟩ := onward (fun _ => rfl) recurring_internal n
    exact ⟨t, many, said t⟩
  · have enough : TwoAcks (countingDrive false) outOfReset :=
      fun t _ => two_le_acks_internal ((countingDrive false).cycle t)
    obtain ⟨-, said, -⟩ := (fetched_bytes_fresh (countingDrive false) outOfReset reset).2 rfl enough
    exact said

end MacIIvi.Floppy
