import MacIIvi.Clocked.Run
import MacIIvi.Floppy.Drive
import MacIIvi.Floppy.GcrRevolution

/-!
# Fetched bytes are fresh

A command may have been issued with the address before an advance and be
acknowledged after it. The MFM path skips one acknowledge after each advance;
the GCR path takes whatever has come, and needs a second one in each period.
-/

namespace MacIIvi.Floppy

open Clocked

/-! ## The clocks of a bus cycle -/

section Bus

variable (v : Env) (s : System) (t : Nat)

theorem Env.busPhase_lt : v.busPhase t < 4 := Nat.mod_lt _ (by decide)

/-- A bus cycle goes on until its fourth clock. -/
theorem Env.next_inside {t : Nat} (inside : v.busPhase t < 3) :
    v.busPhase (t + 1) = v.busPhase t + 1 ∧ v.cycle (t + 1) = v.cycle t := by
  unfold Env.busPhase Env.cycle at *
  omega

theorem Env.next_last {t : Nat} (last : v.busPhase t = 3) :
    v.busPhase (t + 1) = 0 ∧ v.cycle (t + 1) = v.cycle t + 1 := by
  unfold Env.busPhase Env.cycle at *
  omega

theorem Env.after_succ : v.after s (t + 1) =
    ⟨step v.toMedia (v.after s t).drive (v.inputs t (v.after s t)), v.served t (v.after s t)⟩ := rfl

/-- The drive acts on its enables only in the last clock of a bus cycle. -/
theorem Env.cep_eq (x : System) : (v.inputs t x).cep = decide (v.busPhase t = 3) := rfl

theorem Env.cen_eq (x : System) : (v.inputs t x).cen = decide (v.busPhase t = 1) := rfl

end Bus

/-! ## The byte-cell block -/

section Blocks

variable (m : Media) (s : State) (i : Inputs)

/-- The current MFM byte waits for its fetch. -/
def oneeds (m : Media) (s : State) : Bool := (Mfm.outputs s.menc (mencInputs m s)).oneeds

theorem oneeds_eq : oneeds m s = decide (s.menc.state = .data) := rfl

theorem mfmStep_pulse : (mfmStep m s i).mfmReadyPulse = mfmDelivers m s i := by
  unfold mfmStep mfmDelivers
  cases i.cep <;> cases mfmSpinning m i <;> simp <;> split_ifs <;> simp_all

theorem mfmStep_skip : (mfmStep m s i).mfmAckSkip =
    (mfmDelivers m s i || s.mfmAckSkip && !(i.cep && s.dskReadAckD)) := by
  unfold mfmStep mfmDelivers
  cases i.cep <;> cases mfmSpinning m i <;> simp <;> split_ifs <;> simp_all

theorem mfmStep_fresh : (mfmStep m s i).mfmFresh =
    (!mfmDelivers m s i && (s.mfmFresh || i.cep && s.dskReadAckD && !s.mfmAckSkip)) := by
  unfold mfmStep mfmDelivers
  cases i.cep <;> cases mfmSpinning m i <;> simp <;> split_ifs <;> simp_all
  all_goals grind

/-- A delivery loads the byte and its marks, and strobes them. -/
theorem mfmStep_delivers (delivers : mfmDelivers m s i = true) :
    (mfmStep m s i).mfmStb = true ∧
    (mfmStep m s i).mfmByte = (Mfm.outputs s.menc (mencInputs m s)).odata ∧
    (mfmStep m s i).mfmMark = (Mfm.outputs s.menc (mencInputs m s)).omark ∧
    (mfmStep m s i).mfmCrc0 = (Mfm.outputs s.menc (mencInputs m s)).ocrc0 := by
  simp only [mfmDelivers, Bool.and_eq_true, decide_eq_true_eq] at delivers
  obtain ⟨⟨⟨cep, spinning⟩, elapsed⟩, ready⟩ := delivers
  unfold mfmStep
  simp [cep, spinning, elapsed, ready]

/-- Without a delivery the byte-cell timer of a spinning disk runs down. -/
theorem mfmStep_timer (spinning : mfmSpinning m i = true) (waits : mfmDelivers m s i = false) :
    (mfmStep m s i).mfmTimer = if i.cep then s.mfmTimer - 1 else s.mfmTimer := by
  unfold mfmStep
  unfold mfmDelivers at waits
  cases cep : i.cep
  · rfl
  · simp only [cep, spinning, Bool.true_and, if_true] at waits ⊢
    by_cases elapsed : s.mfmTimer = 0
    · rw [decide_eq_true elapsed, Bool.true_and] at waits
      simp only [elapsed, waits]
      split_ifs <;> simp_all
    · simp [elapsed]

/-- A delivery happens in the last clock of a bus cycle, and a byte of the
payload has been fetched. -/
theorem mfmDelivers_spec (delivers : mfmDelivers m s i = true) :
    i.cep = true ∧ (oneeds m s = true → s.mfmFresh = true) := by
  simp only [mfmDelivers, Bool.and_eq_true, decide_eq_true_eq, Bool.or_eq_true,
    Bool.not_eq_true'] at delivers
  obtain ⟨⟨⟨cep, -⟩, -⟩, ready⟩ := delivers
  refine ⟨cep, ?_⟩
  intro payload
  rw [oneeds] at payload
  rw [payload] at ready
  simpa using ready

end Blocks

/-! ## The MFM path -/

section MfmPath

variable {v : Env} {s : System} {t : Nat}

/-- The byte of the image at the presented address. -/
def wanted (v : Env) (x : System) : BitVec 8 := v.image (dskReadAddr v.toMedia x.drive)

/-- Between two deliveries of the MFM path. While the encoder asks for a byte:
a fresh latch holds it, and a command issued in this bus cycle has fetched it,
unless its acknowledge is to be skipped. -/
structure MfmFetch (v : Env) (s : System) (t : Nat) : Prop where
  quiet : (v.after s t).drive.mfmReadyPulse = true → v.busPhase t = 0
  skips : (v.after s t).drive.mfmReadyPulse = true → (v.after s t).drive.mfmAckSkip = true
  stale : (v.after s t).drive.mfmAckSkip = true → (v.after s t).drive.mfmFresh = false
  taken : (v.after s t).drive.mfmReadyPulse = true → (v.after s t).drive.menc.state = .data →
    (v.after s t).drive.dskReadDataLatch = wanted v (v.after s t)
  fresh : (v.after s t).drive.mfmFresh = true → (v.after s t).drive.menc.state = .data →
    (v.after s t).drive.dskReadDataLatch = wanted v (v.after s t)
  fetched : (v.issue (v.cycle t) : Nat) < v.busPhase t → (v.after s t).drive.menc.state = .data →
    (v.after s t).drive.mfmAckSkip = false → (v.after s t).fetched = wanted v (v.after s t)

theorem MfmFetch.kept (h : MfmFetch v s t) (fresh : (v.after s t).drive.mfmFresh = true) :
    (v.after s t).drive.mfmAckSkip = false := by
  cases skips : (v.after s t).drive.mfmAckSkip
  · rfl
  · rw [h.stale skips] at fresh
    cases fresh

/-- The byte on the data bus, once this bus cycle's command has been issued. -/
theorem MfmFetch.served (h : MfmFetch v s t) (issued : (v.issue (v.cycle t) : Nat) ≤ v.busPhase t)
    (payload : (v.after s t).drive.menc.state = .data)
    (kept : (v.after s t).drive.mfmAckSkip = false) :
    v.served t (v.after s t) = wanted v (v.after s t) := by
  unfold Env.served
  split
  · rfl
  · next earlier => exact h.fetched (by omega) payload kept

/-- Without an advance the encoder asks for the same byte. -/
theorem wanted_still (path : v.mfmDisk = true)
    (idle : (v.after s t).drive.mfmReadyPulse = false) :
    (v.after s (t + 1)).drive.menc = (v.after s t).drive.menc ∧
    wanted v (v.after s (t + 1)) = wanted v (v.after s t) := by
  have still : (v.after s (t + 1)).drive.menc = (v.after s t).drive.menc := by
    change Mfm.step _ (mencInputs _ _) = _
    unfold Mfm.step mencInputs
    rw [idle]
    rfl
  refine ⟨still, ?_⟩
  unfold wanted dskReadAddr
  rw [path, if_pos rfl, if_pos rfl, still]

/-- Inside a bus cycle the MFM path only advances the encoder. -/
theorem mfmFetch_inside (path : v.mfmDisk = true) (inside : v.busPhase t < 3)
    (h : MfmFetch v s t) : MfmFetch v s (t + 1) := by
  have cep : (v.inputs t (v.after s t)).cep = false := decide_eq_false (by omega)
  obtain ⟨next, same⟩ := v.next_inside inside
  have waits : mfmDelivers v.toMedia (v.after s t).drive (v.inputs t (v.after s t)) = false := by
    unfold mfmDelivers
    rw [cep]
    rfl
  have pulse : (v.after s (t + 1)).drive.mfmReadyPulse = false :=
    (mfmStep_pulse ..).trans waits
  have skip : (v.after s (t + 1)).drive.mfmAckSkip = (v.after s t).drive.mfmAckSkip := by
    refine (mfmStep_skip ..).trans ?_
    rw [waits, cep]
    simp
  have fresh : (v.after s (t + 1)).drive.mfmFresh = (v.after s t).drive.mfmFresh := by
    refine (mfmStep_fresh ..).trans ?_
    rw [waits, cep]
    simp
  have latch : (v.after s (t + 1)).drive.dskReadDataLatch = (v.after s t).drive.dskReadDataLatch := by
    change (if _ && _ then _ else _) = _
    rw [cep]
    rfl
  cases advances : (v.after s t).drive.mfmReadyPulse
  · obtain ⟨still, asked⟩ := wanted_still path advances
    refine ⟨by simp [pulse], by simp [pulse], ?_, by simp [pulse], ?_, ?_⟩
    · rw [skip, fresh]
      exact h.stale
    · rw [fresh, latch, still, asked]
      exact h.fresh
    · rw [next, same, skip, still, asked]
      intro issued payload kept
      exact h.served (by omega) payload kept
  · have skipped := h.skips advances
    refine ⟨by simp [pulse], by simp [pulse], ?_, by simp [pulse], ?_, ?_⟩
    · rw [skip, fresh]
      exact h.stale
    · rw [fresh, h.stale skipped]
      intro impossible
      cases impossible
    · rw [skip, skipped]
      intro _ _ impossible
      cases impossible

/-- The last clock of a bus cycle loads the latch, and may deliver. -/
theorem mfmFetch_last (path : v.mfmDisk = true) (last : v.busPhase t = 3)
    (h : MfmFetch v s t) : MfmFetch v s (t + 1) := by
  have cep : (v.inputs t (v.after s t)).cep = true := decide_eq_true last
  obtain ⟨next, -⟩ := v.next_last last
  have idle : (v.after s t).drive.mfmReadyPulse = false := by
    cases pulse : (v.after s t).drive.mfmReadyPulse
    · rfl
    · have := h.quiet pulse
      omega
  obtain ⟨still, asked⟩ := wanted_still path idle
  have issued : (v.issue (v.cycle t) : Nat) ≤ v.busPhase t := by
    have := (v.issue (v.cycle t)).isLt
    omega
  -- what the latch holds, if it held the byte or takes it now
  have latched : (v.after s t).drive.menc.state = .data →
      (v.after s t).drive.mfmAckSkip = false →
      (v.after s t).drive.mfmFresh = true ∨ (v.after s t).drive.dskReadAckD = true →
      (v.after s (t + 1)).drive.dskReadDataLatch = wanted v (v.after s (t + 1)) := by
    intro payload kept fetch
    change (if _ && _ then v.served t (v.after s t) else _) = _
    rw [cep, asked, Bool.true_and]
    split
    · exact h.served issued payload kept
    · next absent => exact h.fresh (fetch.resolve_right absent) payload
  have pulse : (v.after s (t + 1)).drive.mfmReadyPulse =
      mfmDelivers v.toMedia (v.after s t).drive (v.inputs t (v.after s t)) := mfmStep_pulse ..
  have skip := mfmStep_skip v.toMedia (v.after s t).drive (v.inputs t (v.after s t))
  have fresh := mfmStep_fresh v.toMedia (v.after s t).drive (v.inputs t (v.after s t))
  change (v.after s (t + 1)).drive.mfmAckSkip = _ at skip
  change (v.after s (t + 1)).drive.mfmFresh = _ at fresh
  rw [cep, Bool.true_and] at skip fresh
  cases delivers : mfmDelivers v.toMedia (v.after s t).drive (v.inputs t (v.after s t))
  · rw [delivers] at pulse skip fresh
    simp only [Bool.false_or, Bool.not_false, Bool.true_and] at skip fresh
    refine ⟨by simp [pulse], by simp [pulse], ?_, by simp [pulse], ?_, by omega⟩
    · rw [skip, fresh]
      intro skips
      obtain ⟨skips, absent⟩ := Bool.and_eq_true_iff.1 skips
      rw [h.stale skips, skips]
      simp
    · rw [fresh, still]
      intro fetch payload
      rcases Bool.or_eq_true_iff.1 fetch with held | taken
      · exact latched payload (h.kept held) (.inl held)
      · obtain ⟨taken, kept⟩ := Bool.and_eq_true_iff.1 taken
        exact latched payload (by simpa using kept) (.inr taken)
  · rw [delivers] at pulse skip fresh
    simp only [Bool.true_or, Bool.not_true, Bool.false_and] at skip fresh
    refine ⟨fun _ => next, fun _ => skip, fun _ => fresh, ?_, by simp [fresh], by simp [skip]⟩
    rw [still]
    intro _ payload
    have fetch := (mfmDelivers_spec _ _ _ delivers).2 (by rw [oneeds_eq, payload]; rfl)
    exact latched payload (h.kept fetch) (.inl fetch)

theorem mfmFetch (path : v.mfmDisk = true) (reset : OutOfReset s.drive) (t : Nat) :
    MfmFetch v s t := by
  induction t with
  | zero =>
    have start : (v.after s 0).drive.menc.state ≠ .data := by
      change s.drive.menc.state ≠ .data
      rw [reset.menc]
      decide
    have idle : (v.after s 0).drive.mfmReadyPulse = false := reset.mfmReadyPulse
    refine ⟨by simp [idle], by simp [idle], fun _ => reset.mfmFresh, ?_, ?_, ?_⟩
    · exact fun _ payload => absurd payload start
    · exact fun _ payload => absurd payload start
    · exact fun _ payload => absurd payload start
  | succ t ih =>
    have := v.busPhase_lt t
    by_cases last : v.busPhase t = 3
    · exact mfmFetch_last path last ih
    · exact mfmFetch_inside path (by omega) ih

/-- The bytes the MFM path delivers, with their marks. -/
def mfmTaken (v : Env) (s : System) (t : Nat) : Option (BitVec 8 × Bool × Bool) :=
  if mfmDelivers v.toMedia (v.after s t).drive (v.inputs t (v.after s t)) then
    let d := (v.after s (t + 1)).drive
    some (d.mfmByte, d.mfmMark, d.mfmCrc0)
  else none

/-- The bytes of the first `t` clocks. -/
def mfmDelivered (v : Env) (s : System) (t : Nat) : List (BitVec 8 × Bool × Bool) :=
  record (mfmTaken v s) 0 t

/-- The surface under the head, as the MFM encoder's stream sees it. -/
def Media.mfmSurface (m : Media) : Mfm.Surface := ⟨m.image, m.track, m.side, m.hd⟩

/-- What is delivered of an encoder's output. -/
def shown (o : Mfm.Out) : BitVec 8 × Bool × Bool := (o.odata, o.omark, o.ocrc0)

/-- The encoder's output with the byte it asks for in the latch. -/
theorem outputs_fetched (m : Media) (d : State)
    (fetched : d.menc.state = .data → d.dskReadDataLatch = m.image (Mfm.addr d.menc m.track m.side m.hd)) :
    Mfm.outputs d.menc (mencInputs m d) = (Mfm.stream m.mfmSurface).out d.menc := by
  have odata : Mfm.odata d.menc (mencInputs m d) =
      Mfm.odata d.menc (m.mfmSurface.pull d.menc) := by
    unfold Mfm.odata
    cases state : d.menc.state
    case data => exact fetched state
    all_goals rfl
  change Mfm.Out.mk _ _ _ _ _ = Mfm.Out.mk _ _ _ _ _
  rw [odata]

theorem advance_fetched (m : Media) (d : State)
    (fetched : d.menc.state = .data → d.dskReadDataLatch = m.image (Mfm.addr d.menc m.track m.side m.hd)) :
    Mfm.advance d.menc (mencInputs m d) = (Mfm.stream m.mfmSurface).next d.menc := by
  have odata : Mfm.odata d.menc (mencInputs m d) = Mfm.odata d.menc (m.mfmSurface.pull d.menc) :=
    congrArg Mfm.Out.odata (outputs_fetched m d fetched)
  rw [Mfm.next_stream]
  unfold Mfm.advance Mfm.nextCrc
  rw [odata]
  rfl

/-- What the delivered bytes are: those of the encoder's stream. -/
structure MfmFollows (v : Env) (s : System) (t : Nat) : Prop where
  menc : (if (v.after s t).drive.mfmReadyPulse
      then (Mfm.stream v.mfmSurface).next (v.after s t).drive.menc
      else (v.after s t).drive.menc) =
    (Mfm.stream v.mfmSurface).after (mfmDelivered v s t).length Mfm.initial
  said : mfmDelivered v s t =
    ((Mfm.stream v.mfmSurface).emitted (mfmDelivered v s t).length Mfm.initial).map shown

theorem wanted_mfm (path : v.mfmDisk = true) (x : System) :
    wanted v x = v.image (Mfm.addr x.drive.menc v.track v.side v.hd) := by
  unfold wanted dskReadAddr
  rw [path]
  rfl

theorem mfmFollows_succ (path : v.mfmDisk = true) (fetch : MfmFetch v s t)
    (h : MfmFollows v s t) : MfmFollows v s (t + 1) := by
  have log : mfmDelivered v s (t + 1) = mfmDelivered v s t ++ (mfmTaken v s t).toList :=
    record_succ (Nat.zero_le _)
  have pulse : (v.after s (t + 1)).drive.mfmReadyPulse =
      mfmDelivers v.toMedia (v.after s t).drive (v.inputs t (v.after s t)) := mfmStep_pulse ..
  cases delivers : mfmDelivers v.toMedia (v.after s t).drive (v.inputs t (v.after s t))
  · have none_ : mfmTaken v s t = none := by rw [mfmTaken, delivers]; rfl
    rw [none_, Option.toList_none, List.append_nil] at log
    refine ⟨?_, by rw [log]; exact h.said⟩
    rw [pulse, delivers, log, ← h.menc]
    cases advances : (v.after s t).drive.mfmReadyPulse
    · exact (wanted_still path advances).1
    · have menc : (v.after s (t + 1)).drive.menc =
          Mfm.advance (v.after s t).drive.menc (mencInputs v.toMedia (v.after s t).drive) := by
        change Mfm.step _ (mencInputs _ _) = _
        unfold Mfm.step mencInputs
        rw [advances]
        rfl
      rw [menc]
      refine advance_fetched v.toMedia _ ?_
      rw [← wanted_mfm path]
      exact fetch.taken advances
  · have cep := (mfmDelivers_spec _ _ _ delivers).1
    have idle : (v.after s t).drive.mfmReadyPulse = false := by
      cases advances : (v.after s t).drive.mfmReadyPulse
      · rfl
      · have first := fetch.quiet advances
        have last : v.busPhase t = 3 := of_decide_eq_true cep
        omega
    have still := (wanted_still path idle).1
    have said : Mfm.outputs (v.after s t).drive.menc (mencInputs v.toMedia (v.after s t).drive) =
        (Mfm.stream v.mfmSurface).out (v.after s t).drive.menc := by
      refine outputs_fetched v.toMedia _ ?_
      intro payload
      rw [← wanted_mfm path]
      exact fetch.fresh ((mfmDelivers_spec _ _ _ delivers).2 (by rw [oneeds_eq, payload]; rfl)) payload
    have some_ : mfmTaken v s t =
        some (shown ((Mfm.stream v.mfmSurface).out (v.after s t).drive.menc)) := by
      obtain ⟨-, byte, mark, crc0⟩ := mfmStep_delivers _ _ _ delivers
      rw [mfmTaken, delivers, if_pos rfl, ← said, shown, ← byte, ← mark, ← crc0]
      rfl
    rw [some_, Option.toList_some] at log
    have length : (mfmDelivered v s (t + 1)).length = (mfmDelivered v s t).length + 1 := by
      rw [log, List.length_append]
      rfl
    have position := h.menc
    rw [idle, if_neg Bool.false_ne_true] at position
    constructor
    · rw [pulse, delivers, if_pos rfl, still, length, Source.after_succ, position]
    · rw [length, Source.emitted_add, List.map_append, ← h.said, log, position]
      rfl

/-- The MFM path delivers the encoder's stream, whatever the slots. -/
theorem mfmFollows (path : v.mfmDisk = true) (reset : OutOfReset s.drive) (t : Nat) :
    MfmFollows v s t := by
  induction t with
  | zero =>
    refine ⟨?_, rfl⟩
    change (if s.drive.mfmReadyPulse then _ else s.drive.menc) = Mfm.initial
    rw [reset.mfmReadyPulse, reset.menc]
    rfl
  | succ t ih => exact mfmFollows_succ path (mfmFetch path reset t) ih

/-! ### A late fetch only delays -/

/-- Slots come again and again. -/
def Recurring (slot : Nat → Bool) : Prop := ∀ b, ∃ b' ≥ b, slot b' = true

/-- In the last clock of each bus cycle but the first, a slot is acknowledged. -/
theorem ack_last (v : Env) (s : System) {b : Nat} (later : v.phase ≤ 4 * b) :
    v.busPhase (4 * b - v.phase + 3) = 3 ∧
    (v.after s (4 * b - v.phase + 3)).drive.dskReadAckD = v.slot b := by
  obtain ⟨t, ht⟩ : ∃ t, 4 * b = v.phase + t := ⟨4 * b - v.phase, by omega⟩
  have start : 4 * b - v.phase = t := by omega
  rw [start]
  have cycles : v.cycle (t + 1) = b := by
    unfold Env.cycle
    omega
  have phases : v.busPhase (t + 1) = 1 ∧ v.busPhase (t + 2) = 2 ∧ v.busPhase (t + 3) = 3 := by
    unfold Env.busPhase
    omega
  refine ⟨phases.2.2, ?_⟩
  have acked : (v.after s (t + 2)).drive.dskReadAckD = v.slot b := by
    change (if (v.inputs (t + 1) (v.after s (t + 1))).cen then v.slot (v.cycle (t + 1)) else _) = _
    rw [v.cen_eq, phases.1, cycles]
    rfl
  change (if (v.inputs (t + 2) (v.after s (t + 2))).cen then _ else
    (v.after s (t + 2)).drive.dskReadAckD) = _
  rw [v.cen_eq, phases.2.1, acked]
  rfl

theorem exists_ack (v : Env) (s : System) (slots : Recurring v.slot) (t : Nat) :
    ∃ u ≥ t, v.busPhase u = 3 ∧ (v.after s u).drive.dskReadAckD = true := by
  obtain ⟨b, later, slot⟩ := slots (v.phase + t)
  obtain ⟨last, acked⟩ := ack_last v s (b := b) (by omega)
  exact ⟨_, by omega, last, acked.trans slot⟩

theorem exists_last (v : Env) (t : Nat) : ∃ u ≥ t, v.busPhase u = 3 := by
  refine ⟨t + (3 - v.busPhase t), by omega, ?_⟩
  unfold Env.busPhase
  omega

/-- A disk that spins, with slots that come again, has a next delivery. -/
theorem mfm_delivers_again (path : v.mfmDisk = true) (spins : ∀ t, v.motorOn t = true)
    (slots : Recurring v.slot) (t : Nat) :
    ∃ u ≥ t, mfmDelivers v.toMedia (v.after s u).drive (v.inputs u (v.after s u)) = true := by
  by_contra never
  have waits : ∀ u ≥ t, mfmDelivers v.toMedia (v.after s u).drive (v.inputs u (v.after s u)) = false := by
    intro u later
    by_contra delivers
    exact never ⟨u, later, by simpa using delivers⟩
  have spinning : ∀ u, mfmSpinning v.toMedia (v.inputs u (v.after s u)) = true := by
    intro u
    rw [mfmSpinning, path]
    exact spins u
  have timer : ∀ u ≥ t, (v.after s (u + 1)).drive.mfmTimer =
      if (v.inputs u (v.after s u)).cep then (v.after s u).drive.mfmTimer - 1
      else (v.after s u).drive.mfmTimer :=
    fun u later => mfmStep_timer _ _ _ (spinning u) (waits u later)
  have runsDown : ∀ n, ∀ u ≥ t, (v.after s u).drive.mfmTimer ≤ n →
      (v.after s (u + 1)).drive.mfmTimer ≤ n := by
    intro n u later low
    rw [timer u later]
    split <;> omega
  have elapses : ∀ n, ∀ u ≥ t, (v.after s u).drive.mfmTimer ≤ n →
      ∃ w ≥ u, (v.after s w).drive.mfmTimer ≤ 0 := by
    intro n
    induction n with
    | zero => exact fun u _ low => ⟨u, le_rfl, low⟩
    | succ n ih =>
      intro u later low
      obtain ⟨w, after, last⟩ := exists_last v u
      have cep : (v.inputs w (v.after s w)).cep = true := decide_eq_true last
      have before := kept_from (runsDown (n + 1)) later low after
      have next := timer w (by omega)
      rw [cep, if_pos rfl] at next
      obtain ⟨x, beyond, zero⟩ := ih (w + 1) (by omega) (by omega)
      exact ⟨x, by omega, zero⟩
  have skip : ∀ u ≥ t, (v.after s u).drive.mfmAckSkip = false →
      (v.after s (u + 1)).drive.mfmAckSkip = false := by
    intro u later kept
    refine (mfmStep_skip ..).trans ?_
    rw [waits u later, kept]
    rfl
  have fresh : ∀ u ≥ t, (v.after s u).drive.mfmFresh = true →
      (v.after s (u + 1)).drive.mfmFresh = true := by
    intro u later held
    refine (mfmStep_fresh ..).trans ?_
    rw [waits u later, held]
    rfl
  -- the timer runs out, an acknowledge is skipped, and the next one is fresh
  obtain ⟨u₁, later₁, zero⟩ := elapses _ t le_rfl le_rfl
  obtain ⟨u₂, later₂, last₂, ack₂⟩ := exists_ack v s slots u₁
  have skipped : (v.after s (u₂ + 1)).drive.mfmAckSkip = false := by
    refine (mfmStep_skip ..).trans ?_
    rw [waits u₂ (by omega), v.cep_eq, last₂, ack₂]
    simp
  obtain ⟨u₃, later₃, last₃, ack₃⟩ := exists_ack v s slots (u₂ + 1)
  have kept := kept_from skip (by omega) skipped later₃
  have fetched : (v.after s (u₃ + 1)).drive.mfmFresh = true := by
    refine (mfmStep_fresh ..).trans ?_
    rw [waits u₃ (by omega), v.cep_eq, last₃, ack₃, kept]
    simp
  obtain ⟨u₄, later₄, last₄⟩ := exists_last v (u₃ + 1)
  have held := kept_from fresh (by omega) fetched later₄
  have elapsed := kept_from (runsDown 0) later₁ zero (by omega : u₁ ≤ u₄)
  have delivers := waits u₄ (by omega)
  simp [mfmDelivers, v.cep_eq, last₄, spinning u₄, held, Nat.le_zero.1 elapsed] at delivers

/-- Whatever the slots, bytes are delivered as long as slots come. -/
theorem mfm_delivers_all (path : v.mfmDisk = true) (spins : ∀ t, v.motorOn t = true)
    (slots : Recurring v.slot) (n : Nat) : ∃ t, n ≤ (mfmDelivered v s t).length := by
  induction n with
  | zero => exact ⟨0, Nat.zero_le _⟩
  | succ n ih =>
    obtain ⟨t, so_far⟩ := ih
    obtain ⟨u, later, delivers⟩ := mfm_delivers_again (s := s) path spins slots t
    have grown : mfmDelivered v s t <+: mfmDelivered v s u := record_prefix (Nat.zero_le t) later
    have grows := grown.length_le
    have log : mfmDelivered v s (u + 1) = mfmDelivered v s u ++ (mfmTaken v s u).toList :=
      record_succ (Nat.zero_le _)
    rw [mfmTaken, delivers, if_pos rfl, Option.toList_some] at log
    refine ⟨u + 1, ?_⟩
    rw [log, List.length_append, List.length_singleton]
    omega

end MfmPath

end MacIIvi.Floppy
