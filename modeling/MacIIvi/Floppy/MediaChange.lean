import MacIIvi.Floppy.Mount

/-!
# The guest sees every change of the medium

Source: `MacIIvi.sv` and `rtl/floppy.v`. A word of a download goes to the SDRAM in an extra
slot, one enable of the drive after the mount flags have fallen; the hold keeps the drive
empty after that.
-/

namespace MacIIvi.Floppy

variable {s : Bay} {i : Nat → BayIn} {t e u v w : Nat}

namespace Bay

/-- The words of the HPS, one at a time. -/
def Served (s : Bay) (i : Nat → BayIn) : Prop :=
  Hps (fun t => (i t).ioctl) fun t => (s.after i t).dio.ioctlWait

theorem dio_next (t : Nat) : (s.after i (t + 1)).dio =
    (s.after i t).dio.step (i t).ioctl (s.after i t).slots.dioBusControl := rfl

theorem mount_next (t : Nat) : (s.after i (t + 1)).mount =
    (s.after i t).mount.step (i t).ioctl (s.after i t).dio (s.after i t).sense.diskEject := rfl

theorem sense_cep (here : (s.after i t).cep = true) : (s.after i (t + 1)).sense =
    (s.after i t).sense.step (i t).control (s.after i t).mount.insertDisk := by
  rw [after, step, here, if_pos rfl]

theorem sense_still (here : (s.after i t).cep = false) :
    (s.after i (t + 1)).sense = (s.after i t).sense := by
  rw [after, step, here, if_neg Bool.false_ne_true]

theorem phase_run (start : s.Initial) (t : Nat) : (s.after i t).slots.busPhase < 4 := by
  cases t with
  | zero => exact start.phase
  | succ t => exact Nat.mod_lt _ (by decide)

theorem phase_add (start : s.Initial) (t k : Nat) :
    (s.after i (t + k)).slots.busPhase = ((s.after i t).slots.busPhase + k) % 4 := by
  induction k with
  | zero => exact (Nat.mod_eq_of_lt (phase_run start t)).symm
  | succ k ih =>
    have next : (s.after i (t + k + 1)).slots.busPhase =
        ((s.after i (t + k)).slots.busPhase + 1) % 4 := rfl
    rw [← Nat.add_assoc, next, ih]
    omega

theorem cep_within (start : s.Initial) (t : Nat) :
    ∃ w, t ≤ w ∧ w < t + 4 ∧ (s.after i w).cep = true := by
  have low := phase_run (i := i) start t
  refine ⟨t + (3 - (s.after i t).slots.busPhase), by omega, by omega, ?_⟩
  have phase := phase_add (i := i) start t (3 - (s.after i t).slots.busPhase)
  rw [cep, phase, beq_iff_eq]
  omega

theorem handshake_run (start : s.Initial) (t : Nat) :
    Handshake (s.after i t).slots (s.after i t).dio := by
  induction t with
  | zero =>
    refine ⟨fun old => ?_, fun write => ?_⟩
    · exact absurd (start.oldCyc.symm.trans old) Bool.false_ne_true
    · exact absurd (start.dioWrite.symm.trans write) Bool.false_ne_true
  | succ t ih => exact ih.step

/-! ## The hold -/

theorem emptyCy_download (hps : s.Served i) (run : (i t).ioctl.download = true) :
    (s.after i (t + 1)).mount.emptyCy = 0 := by
  have menu : Mount.dioMenu (i t).ioctl = true := by
    rw [Mount.dioMenu, beq_iff_eq]
    exact (hps.menu t run).1
  rw [mount_next, Mount.step, run, menu]
  rfl

theorem emptyCy_wait (start : s.Initial) (hps : s.Served i)
    (waits : (s.after i t).dio.ioctlWait = true) : (s.after i t).mount.emptyCy = 0 := by
  obtain ⟨-, u, rfl, run⟩ := download_of_wait dio_next start.ioctlWait hps t waits
  exact emptyCy_download hps run

theorem emptyCy_le (t k : Nat) (zero : (s.after i t).mount.emptyCy = 0) :
    (s.after i (t + k)).mount.emptyCy ≤ k := by
  induction k with
  | zero => exact Nat.le_of_eq zero
  | succ k ih =>
    rw [← Nat.add_assoc, mount_next]
    simp only [Mount.step]
    split
    · omega
    · split <;> omega

theorem insertDisk_hold (low : (s.after i t).mount.emptyCy < dskEmptyCy) :
    (s.after i t).mount.insertDisk = false := by
  have other : ((s.after i t).mount.emptyCy == dskEmptyCy) = false := by
    rw [beq_eq_false_iff_ne]
    omega
  rw [Mount.insertDisk, other, Bool.false_and]

/-- While an image is written the drive shows no disk, and knows of none. -/
theorem empty_run (start : s.Initial) (hps : s.Served i) (t : Nat)
    (slot : (s.after i t).slots.dioBusControl = true) (write : (s.after i t).dio.dioWrite = true) :
    (s.after i t).sense.cstin = true ∧ (s.after i t).sense.insertDiskD = false := by
  induction t with
  | zero => exact absurd (start.dioWrite.symm.trans write) Bool.false_ne_true
  | succ t ih =>
    have two : (s.after i t).slots.step.busCycle = 2 := by
      have slot' : (s.after i t).slots.step.dioBusControl = true := slot
      simpa [Slots.dioBusControl] using slot'
    have write' : (if (s.after i t).slots.dioBusControl then (s.after i t).dio.dioWrite
        else (s.after i t).dio.ioctlWait) = true := write
    cases before : (s.after i t).slots.dioBusControl with
    | true =>
      -- inside the slot
      rw [before, if_pos rfl] at write'
      have cycle : (s.after i t).slots.busCycle = 2 := by
        simpa [Slots.dioBusControl] using before
      have inside : (s.after i t).cep = false := by
        rw [cep, beq_eq_false_iff_ne]
        intro last
        simp [Slots.step, last, cycle] at two
      rw [sense_still inside]
      exact ih before write'
    | false =>
      -- the slot starts with an enable of the drive
      rw [before, if_neg Bool.false_ne_true] at write'
      have other : (s.after i t).slots.busCycle ≠ 2 := by
        simpa [Slots.dioBusControl] using before
      have last : (s.after i t).cep = true := by
        rw [cep, beq_iff_eq]
        by_contra inside
        simp only [Slots.step, if_neg inside] at two
        exact other two
      have gone : (s.after i t).mount.insertDisk = false := by
        apply insertDisk_hold
        rw [emptyCy_wait start hps write']
        decide
      rw [sense_cep last, gone]
      refine ⟨?_, rfl⟩
      simp [Sense.step]

/-- The line stays high while nothing is inserted. -/
theorem cstin_next (high : (s.after i t).sense.cstin = true)
    (gone : (s.after i t).mount.insertDisk = false) :
    (s.after i (t + 1)).sense.cstin = true := by
  cases here : (s.after i t).cep with
  | false => rwa [sense_still here]
  | true =>
    rw [sense_cep here, gone]
    simp [Sense.step]

theorem cstin_hold (zero : (s.after i t).mount.emptyCy = 0)
    (high : (s.after i t).sense.cstin = true) {k : Nat} (low : k ≤ dskEmptyCy) :
    (s.after i (t + k)).sense.cstin = true := by
  induction k with
  | zero => exact high
  | succ k ih =>
    have counted := emptyCy_le t k zero
    have gone : (s.after i (t + k)).mount.insertDisk = false := insertDisk_hold (by omega)
    exact cstin_next (ih (by omega)) gone

/-! ## The removal -/

theorem known_run (start : s.Initial) (t : Nat) (shown : (s.after i t).sense.cstin = false) :
    (s.after i t).sense.insertDiskD = true := by
  induction t with
  | zero => exact absurd (shown.symm.trans start.cstin) Bool.false_ne_true
  | succ t ih =>
    cases here : (s.after i t).cep with
    | false =>
      rw [sense_still here] at shown ⊢
      exact ih shown
    | true =>
      rw [sense_cep here] at shown ⊢
      simp only [Sense.step] at shown ⊢
      split at shown
      · cases shown
      · simpa using shown

theorem removal_between (known : (s.after i t).sense.insertDiskD = true) (later : t ≤ u) :
    (∃ r, t ≤ r ∧ r < u ∧ Removal s i r) ∨ (s.after i u).sense.insertDiskD = true := by
  induction u, later using Nat.le_induction with
  | base => exact .inr known
  | succ u later ih =>
    obtain ⟨r, from_, before, removal⟩ | still := ih
    · exact .inl ⟨r, from_, by omega, removal⟩
    · cases here : (s.after i u).cep with
      | false =>
        rw [sense_still here]
        exact .inr still
      | true =>
        rw [sense_cep here]
        cases insert : (s.after i u).mount.insertDisk with
        | true => exact .inr rfl
        | false =>
          refine .inl ⟨u, later, by omega, here, ?_⟩
          rw [Sense.removed, still, insert]
          rfl

theorem removal_sets (removal : Removal s i t) : (s.after i (t + 1)).sense.diskSwitched = true := by
  rw [sense_cep removal.1]
  simp only [Sense.step, removal.2, if_true]

/-- (a) of the media change. -/
theorem change_seen (start : s.Initial) (hps : s.Served i) : ChangeSeen s i := by
  intro t u v after_ before shown shown' staged
  simp only [stages, Bool.and_eq_true] at staged
  obtain ⟨⟨-, slot⟩, write⟩ := staged
  obtain ⟨high, gone⟩ := empty_run start hps u slot write
  have zero := emptyCy_wait start hps ((handshake_run start u).waiting slot write)
  have strict : t < u := by
    rcases Nat.lt_or_eq_of_le after_ with strict | same
    · exact strict
    · rw [same, high] at shown
      cases shown
  have hold : ∀ k, k ≤ dskEmptyCy → (s.after i (u + k)).sense.cstin = true :=
    fun k low => cstin_hold zero high low
  have long : u + dskEmptyCy < v := by
    by_contra short
    have still := hold (v - u) (by omega)
    rw [show u + (v - u) = v by omega, shown'] at still
    cases still
  refine ⟨⟨u, strict, long, hold⟩, ?_⟩
  obtain ⟨r, from_, upTo, removal⟩ | still := removal_between (known_run start t shown) after_
  · exact ⟨r, from_, by omega, removal, removal_sets removal⟩
  · exact absurd (gone.symm.trans still) Bool.false_ne_true

/-- (b) of the media change. -/
theorem flag_kept (s : Bay) (i : Nat → BayIn) : FlagKept s i := by
  intro r t later removal cleared
  have kept : ∀ t, r + 1 ≤ t →
      (s.after i t).sense.diskSwitched = true ∨ ∃ v, r < v ∧ v < t ∧ Clear s i v := by
    intro t from_
    induction t, from_ using Nat.le_induction with
    | base => exact .inl (removal_sets removal)
    | succ t from_ ih =>
      obtain set | ⟨v, after_, before, clear⟩ := ih
      · cases here : (s.after i t).cep with
        | false =>
          rw [sense_still here]
          exact .inl set
        | true =>
          cases clears : (s.after i t).sense.clears (i t).control with
          | true => exact .inr ⟨t, by omega, by omega, here, clears⟩
          | false =>
            rw [sense_cep here]
            left
            simp [Sense.step, clears, set]
      · exact .inr ⟨v, after_, by omega, clear⟩
  obtain set | found := kept t later
  · rw [cleared] at set
    cases set
  · exact found

/-! ## What a download leaves -/

theorem oldDown_next (t : Nat) : (s.after i (t + 1)).mount.oldDown = (i t).ioctl.download := rfl

/-- The flags after the end of a download. -/
theorem flags_end (hps : s.Served i) (ends : Ends (fun t => (i t).ioctl) e)
    (settles : Settles s i e) : (s.after i (e + 1)).mount.flags =
      flagsOf (recognised (sent (fun t => (i t).ioctl) e)) := by
  obtain ⟨u, rfl, run, stop⟩ := ends
  have run : (i u).ioctl.download = true := run
  have stop : (i (u + 1)).ioctl.download = false := stop
  have menu : Mount.dioMenu (i (u + 1)).ioctl = true := by
    rw [Mount.dioMenu, beq_iff_eq]
    exact (hps.menu u run).2
  have addr := (hps.done (u + 1) ⟨u, rfl, run, stop⟩).2
  have known : sent (fun t => (i t).ioctl) (u + 1) ≠ [] →
      Detected (sent (fun t => (i t).ioctl) (u + 1)) (s.after i (u + 1)).dio :=
    detected_run (d := fun t => (s.after i t).dio) dio_next hps (u + 1)
  have found := geometry_plain settles.plain known
  rw [mount_next, Mount.step]
  cases eject : (s.after i (u + 1)).sense.diskEject with
  | false =>
    rw [oldDown_next, run, stop, menu]
    change Mount.geometryOf (i (u + 1)).ioctl.addr _ _ = _
    rw [addr]
    exact found
  | true =>
    have none_ : recognised (sent (fun t => (i t).ioctl) (u + 1)) = none := by
      by_contra disk
      exact absurd (eject.symm.trans (settles.idle disk)) (by decide)
    rw [none_]
    rfl

/-- No eject starts. -/
def NoEject (s : Bay) (i : Nat → BayIn) (e t : Nat) : Prop :=
  ∀ v, e ≤ v → v < t → ¬ Eject s i v

theorem diskEject_next (idle : (s.after i t).sense.diskEject = false) (quiet : ¬ Eject s i t) :
    (s.after i (t + 1)).sense.diskEject = false := by
  cases here : (s.after i t).cep with
  | false => rwa [sense_still here]
  | true =>
    have none_ : (s.after i t).sense.ejects (i t).control = false := by
      cases ejects : (s.after i t).sense.ejects (i t).control with
      | false => rfl
      | true => exact absurd ⟨here, ejects⟩ quiet
    rw [sense_cep here]
    simp only [Sense.diskEject, bne_eq_false_iff_eq] at idle ⊢
    simp only [Sense.step, none_, Bool.false_eq_true, if_false, idle]

theorem diskEject_run (idle : (s.after i e).sense.diskEject = false) (later : e ≤ t)
    (quiet : NoEject s i e t) : (s.after i t).sense.diskEject = false := by
  induction t, later using Nat.le_induction with
  | base => exact idle
  | succ t later ih =>
    exact diskEject_next (ih fun v from_ before => quiet v from_ (by omega))
      (quiet t later (by omega))

theorem flags_run (hps : s.Served i) (ends : Ends (fun t => (i t).ioctl) e)
    (settles : Settles s i e) (later : e < t)
    (still : ∀ v, e < v → v < t → (i v).ioctl.download = false) (quiet : NoEject s i e t) :
    (s.after i t).mount.flags = flagsOf (recognised (sent (fun t => (i t).ioctl) e)) := by
  induction t, later using Nat.le_induction with
  | base => exact flags_end hps ends settles
  | succ t later ih =>
    have before := ih (fun v after_ low => still v after_ (by omega))
      fun v from_ low => quiet v from_ (by omega)
    have now := still t later (by omega)
    have old : (s.after i t).mount.oldDown = false := by
      obtain ⟨u, rfl⟩ : ∃ u, t = u + 1 := ⟨t - 1, by omega⟩
      rw [oldDown_next]
      rcases Nat.lt_or_eq_of_le (Nat.le_of_lt_succ later) with inside | last
      · exact still u (by omega) (by omega)
      · rw [show u = e by omega]
        obtain ⟨-, -, -, stop⟩ := ends
        exact stop
    rw [mount_next, Mount.step, now, old]
    cases eject : (s.after i t).sense.diskEject with
    | false => exact before
    | true =>
      have none_ : recognised (sent (fun t => (i t).ioctl) e) = none := by
        by_contra disk
        have idle : (s.after i t).sense.diskEject = false :=
          diskEject_run (settles.idle disk) (by omega) fun v from_ low => quiet v from_ (by omega)
        exact absurd (eject.symm.trans idle) (by decide)
      rw [none_]
      rfl

theorem emptyCy_run (ends : Ends (fun t => (i t).ioctl) e) (hps : s.Served i) (k : Nat)
    (still : ∀ v, e < v → v < e + k → (i v).ioctl.download = false) :
    (s.after i (e + k)).mount.emptyCy = min k dskEmptyCy := by
  obtain ⟨u, rfl, run, stop⟩ := ends
  induction k with
  | zero => exact emptyCy_download hps run
  | succ k ih =>
    have before := ih fun v after_ low => still v after_ (by omega)
    have now : (i (u + 1 + k)).ioctl.download = false := by
      rcases Nat.eq_zero_or_pos k with zero | positive
      · rw [zero]
        exact stop
      · exact still _ (by omega) (by omega)
    rw [← Nat.add_assoc, mount_next, Mount.step, now, before]
    simp only [Bool.false_and, Bool.false_eq_true, if_false]
    split <;> omega

theorem cstin_settled {f : Option Format} (start : s.Initial) (from_ : Nat)
    (insert : ∀ v, from_ ≤ v → v < t → (s.after i v).mount.insertDisk = f.isSome)
    (quiet : ∀ v, from_ ≤ v → v < t → ¬ Eject s i v) (long : from_ + 4 ≤ t) :
    (s.after i t).sense.cstin = f.isNone := by
  obtain ⟨w, low, high, here⟩ := cep_within (i := i) start from_
  have sampled : ∀ v, from_ ≤ v → v < t → (s.after i v).cep = true →
      (s.after i (v + 1)).sense.cstin = f.isNone := by
    intro v later before here
    have none_ : (s.after i v).sense.ejects (i v).control = false := by
      cases ejects : (s.after i v).sense.ejects (i v).control with
      | false => rfl
      | true => exact absurd ⟨here, ejects⟩ (quiet v later before)
    rw [sense_cep here]
    simp only [Sense.step, none_, Bool.false_eq_true, if_false, insert v later before]
    cases f <;> rfl
  have run : ∀ v, w + 1 ≤ v → v ≤ t → (s.after i v).sense.cstin = f.isNone := by
    intro v later
    induction v, later using Nat.le_induction with
    | base => exact fun _ => sampled w low (by omega) here
    | succ v later ih =>
      intro before
      cases tick : (s.after i v).cep with
      | true => exact sampled v (by omega) (by omega) tick
      | false =>
        rw [sense_still tick]
        exact ih (by omega)
  exact run t (by omega) (Nat.le_refl t)

/-- (c) of the media change, for a download that settles. -/
theorem presented (start : s.Initial) (hps : s.Served i)
    (ends : Ends (fun t => (i t).ioctl) e) (settles : Settles s i e) : Presented s i e := by
  intro t later still quiet
  refine ⟨flags_run hps ends settles later still quiet, fun long => ?_⟩
  refine cstin_settled start (e + dskEmptyCy) ?_ ?_ long
  · intro v from_ before
    have flags := flags_run hps ends settles (t := v) (by unfold dskEmptyCy at from_; omega)
      (fun x after_ low => still x after_ (by omega)) fun x after_ low => quiet x after_ (by omega)
    have full := emptyCy_run ends hps (v - e) fun x after_ low => still x after_ (by omega)
    rw [show e + (v - e) = v by omega, Nat.min_eq_right (by omega)] at full
    rw [Mount.insertDisk, full, flags, flagsOf_any, beq_self_eq_true, Bool.true_and]
  · exact fun v from_ before => quiet v (by omega) before

/-- Every change of the medium is seen, if no download of a disk ends while an eject is still
under way and the detection reads every file as it is. -/
theorem media_change_observable (s : Bay) (i : Nat → BayIn) (start : s.Initial)
    (hps : s.Served i) (settles : ∀ e, Ends (fun t => (i t).ioctl) e → Settles s i e) :
    MediaChange s i where
  seen := change_seen start hps
  kept := flag_kept s i
  presented := fun e ends => presented start hps ends (settles e ends)

/-! ## A raw image of 400K -/

/-- An empty drive; the strobe line may be high. -/
def emptyBay (lstrbPrev : Bool) : Bay where
  slots := Slots.initial
  dio := ⟨0, 0, false, false, false, false, false, 0⟩
  mount := ⟨Flags.empty, 0, false⟩
  sense := ⟨false, false, true, 0, lstrbPrev⟩

/-- Zeros for a single-sided disk, with the same lines to the drive all the time. -/
def blankDisk (control : Control) (t : Nat) : BayIn where
  ioctl := play (rounds 204800) (fun _ => 0) t
  control := control

variable {b : Bool} {c : Control}

theorem emptyBay_initial (b : Bool) : (emptyBay b).Initial where
  phase := (by decide : 0 < 4)
  cycle := (by decide : 0 < 4)
  oldCyc := rfl
  dioWrite := rfl
  ioctlWait := rfl
  oldDown := rfl
  cstin := rfl

theorem slots_after (s : Bay) (i : Nat → BayIn) (t : Nat) :
    (s.after i t).slots = s.slots.after t := by
  induction t with
  | zero => rfl
  | succ t ih =>
    have next : (s.after i (t + 1)).slots = (s.after i t).slots.step := rfl
    rw [next, ih]
    rfl

theorem blankDisk_served (b : Bool) (c : Control) : (emptyBay b).Served (blankDisk c) := by
  have served : Hps (play (rounds 204800) fun _ => 0)
      fun t => ((emptyBay b).after (blankDisk c) t).dio.ioctlWait := by
    refine play_served (d := fun t => ((emptyBay b).after (blankDisk c) t).dio)
      (c := Slots.initial) rfl rfl (fun t => (slots_initial t).1) fun t => ?_
    rw [dio_next, slots_after]
    rfl
  exact served

theorem blankDisk_sent (c : Control) :
    sent (fun t => (blankDisk c t).ioctl) (16 * (204800 + 1)) = List.replicate 204800 0 := by
  exact sent_zeros 204800

section Zeros

variable {n : Nat}

theorem recognised_zeros (n : Nat) : recognised (List.replicate n 0) = Format.ofWords n := by
  rw [recognised, dc42Format, isDc42_zeros, if_neg Bool.false_ne_true, List.length_replicate]
  rfl

theorem plain_zeros (some_ : 0 < n) (short : n ≤ 2 ^ 20) (d : Dio) :
    Plain (List.replicate n 0) d where
  fresh := by
    intro none_
    have zero := congrArg List.length none_
    rw [List.length_replicate, List.length_nil] at zero
    omega
  short := by
    intro long
    rw [List.length_replicate] at long
    omega
  single := by
    intro f g header
    rw [dc42Format, isDc42_zeros] at header
    cases header

end Zeros

/-- A disk that is mounted with no eject before. -/
theorem media_change_observable_blank : MediaChange (emptyBay false) (blankDisk {}) := by
  refine media_change_observable _ _ (emptyBay_initial false) (blankDisk_served false {}) ?_
  intro e ends
  obtain ⟨r, rfl, run, stop⟩ := ends_play ends
  have last : r = 204800 := by
    have inside := of_decide_eq_true run
    have outside := of_decide_eq_false stop
    omega
  subst last
  refine ⟨?_, fun _ => ?_⟩
  · rw [blankDisk_sent]
    exact plain_zeros (by decide) (by decide) _
  · refine diskEject_run (e := 0) rfl (Nat.zero_le _) ?_
    intro v _ _ eject
    have ejects := eject.2
    simp [Sense.ejects, blankDisk] at ejects

/-- The eject strobe. -/
def ejectStrobe : Control := { enableN := false, ca0 := true, ca1 := true, ca2 := true }

/-- An eject lasts for that many enables. -/
theorem eject_lasts (full : ejectClocks ≤ (s.after i t).sense.ejectIndicatorTimer) (k : Nat) :
    ejectClocks ≤ (s.after i (t + k)).sense.ejectIndicatorTimer + k := by
  induction k with
  | zero => exact full
  | succ k ih =>
    change ejectClocks ≤ (s.after i (t + k + 1)).sense.ejectIndicatorTimer + (k + 1)
    cases here : (s.after i (t + k)).cep with
    | false =>
      rw [sense_still here]
      omega
    | true =>
      rw [sense_cep here]
      simp only [Sense.step]
      split <;> omega

/-- The guest has ejected a disk within the last two seconds: the drive stays empty. -/
theorem disk_not_presented : (emptyBay true).Initial ∧
    (emptyBay true).Served (blankDisk ejectStrobe) ∧
    ¬ MediaChange (emptyBay true) (blankDisk ejectStrobe) := by
  refine ⟨emptyBay_initial true, blankDisk_served true _, fun change => ?_⟩
  have full : ejectClocks ≤
      ((emptyBay true).after (blankDisk ejectStrobe) 4).sense.ejectIndicatorTimer := by
    decide
  have ends : Ends (fun t => (blankDisk ejectStrobe t).ioctl) (16 * (204800 + 1)) :=
    ⟨16 * (204800 + 1) - 1, rfl, by decide, by decide⟩
  have flags := (change.presented _ ends (16 * (204800 + 1) + 1) (Nat.lt_succ_self _)
    (fun v after_ before => absurd before (by omega)) ?_).1
  · have under : ((emptyBay true).after (blankDisk ejectStrobe)
        (16 * (204800 + 1))).sense.diskEject = true := by
      have left := eject_lasts full (16 * (204800 + 1) - 4)
      have upTo : 4 + (16 * (204800 + 1) - 4) = 16 * (204800 + 1) := by decide
      rw [upTo] at left
      rw [Sense.diskEject, bne_iff_ne]
      intro zero
      rw [zero, ejectClocks] at left
      omega
    rw [mount_next, Mount.step, under, blankDisk_sent, recognised_zeros] at flags
    cases flags
  · intro v from_ before eject
    have here : v = 16 * (204800 + 1) := by omega
    have phase := eject.1
    rw [cep, slots_after, here, beq_iff_eq] at phase
    have slots : ((emptyBay true).slots.after (16 * (204800 + 1))).busPhase =
        16 * (204800 + 1) % 4 := (slots_initial _).2
    rw [slots] at phase
    omega

end Bay

end MacIIvi.Floppy
