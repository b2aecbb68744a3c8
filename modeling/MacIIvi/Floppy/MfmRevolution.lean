import MacIIvi.Floppy.MfmTrack

/-!
# The next revolution

Track, side and density may change while the generator runs. The bytes that
remain up to the next index are counted: a sector counter beyond the last
sector of the selected density has to wrap round before the index comes.
-/

namespace MacIIvi.Mfm

open Clocked

/-- The states of the preamble. -/
def InPreamble (S : Fsm) : Prop := S = .preGap ∨ S = .preSync ∨ S = .preIam ∨ S = .preGap1

instance : DecidablePred InPreamble := fun S => by unfold InPreamble; infer_instance

theorem inPreamble_of_succ {S : Fsm} (more : S ≠ .gap3) (pre : InPreamble S.succ) :
    InPreamble S := by
  revert more pre
  cases S <;> decide

theorem sector_not_inPreamble : ¬ InPreamble .idSync := by decide

theorem gap3_not_inPreamble : ¬ InPreamble .gap3 := by decide

/-- What holds of the registers whatever the drive selects. -/
structure Sound (s : State) : Prop where
  count : s.cnt ≤ lenM1 s.state
  sector : s.sector < 32
  before : InPreamble s.state → s.sector = 0
  pointer : s.srcOffset = if s.state = .data then s.cnt else 0

theorem sound_initial : Sound initial := by
  constructor <;> decide

theorem nextSrcOffset_inside {s : State} (sound : Sound s) (inside : s.cnt < lenM1 s.state) :
    nextSrcOffset s = if s.state = .data then s.cnt + 1 else 0 := by
  unfold nextSrcOffset
  by_cases fetching : s.state = .data
  · have short : s.cnt < 511 := by rw [fetching] at inside; exact inside
    rw [if_pos fetching, if_pos fetching, sound.pointer, if_pos fetching]
    omega
  · rw [if_neg fetching, if_neg fetching]

theorem nextSrcOffset_last {s : State} (sound : Sound s) (last : s.cnt = lenM1 s.state) :
    nextSrcOffset s = 0 := by
  unfold nextSrcOffset
  by_cases fetching : s.state = .data
  · have full : s.cnt = 511 := by rw [fetching] at last; exact last
    rw [if_pos fetching, sound.pointer, if_pos fetching, full]
    rfl
  · rw [if_neg fetching]

/-- The registers stay sound, whatever the inputs are. -/
theorem sound_advance {s : State} {i : Inputs} (sound : Sound s) : Sound (advance s i) := by
  rcases Nat.lt_or_eq_of_le sound.count with inside | last
  · rw [advance_inside inside]
    exact ⟨inside, sound.sector, sound.before, nextSrcOffset_inside sound inside⟩
  · have parked := nextSrcOffset_last sound last
    by_cases done : s.state = .gap3
    · by_cases end_ : s.sector = sptMax i.hd
      · rw [advance_index last done end_]
        exact ⟨Nat.zero_le _, Nat.zero_lt_succ _, fun _ => rfl, parked⟩
      · rw [advance_sector last done end_]
        exact ⟨Nat.zero_le _, Nat.mod_lt _ (by decide), fun pre => absurd pre sector_not_inPreamble, parked⟩
    · rw [advance_last last done]
      refine ⟨Nat.zero_le _, sound.sector, fun pre => sound.before (inPreamble_of_succ done pre), ?_⟩
      · rw [parked]
        exact (ite_self 0).symm

theorem sound_step {s : State} {i : Inputs} (sound : Sound s) : Sound (step s i) := by
  unfold step
  split
  · exact sound_initial
  · split
    · exact sound_advance sound
    · exact sound

/-- Every history leaves sound registers. -/
theorem sound_run (history : List Inputs) : Sound (run history) := by
  have kept : ∀ s, Sound s → Sound (history.foldl step s) := by
    induction history with
    | nil => exact fun _ sound => sound
    | cons i rest ih => exact fun s sound => ih (step s i) (sound_step sound)
  exact kept initial sound_initial

/-! ## Bytes to the index -/

/-- The bytes of the runs after this one, up to the end of the preamble or of
the sector. -/
def following : Fsm → Nat
  | .preGap => 66
  | .preSync => 54
  | .preIam => 50
  | .preGap1 => 0
  | .idSync => 670
  | .idA1 => 667
  | .idAm => 666
  | .idChrn => 662
  | .idCrc => 660
  | .gap2 => 638
  | .daSync => 626
  | .daA1 => 623
  | .daAm => 622
  | .data => 110
  | .daCrc => 108
  | .gap3 => 0

/-- The bytes left in the preamble or in the sector. -/
def bytesLeft (s : State) : Nat := lenM1 s.state + 1 - s.cnt + following s.state

/-- The whole sectors left after that. -/
def sectorsLeft (hd : Bool) (s : State) : Nat :=
  if InPreamble s.state then spt hd
  else if s.sector ≤ sptMax hd then sptMax hd - s.sector
  else 32 - s.sector + sptMax hd

/-- The bytes left before the index comes. -/
def toIndex (hd : Bool) (s : State) : Nat := bytesLeft s + sectorsLeft hd s * 682

theorem following_succ {S : Fsm} (more : S ≠ .gap3) (inner : S ≠ .preGap1) :
    following S = lenM1 S.succ + 1 + following S.succ := by
  revert more inner
  cases S <;> decide

theorem inPreamble_succ {S : Fsm} (more : S ≠ .gap3) (inner : S ≠ .preGap1) :
    InPreamble S.succ ↔ InPreamble S := by
  refine ⟨inPreamble_of_succ more, ?_⟩
  revert more inner
  cases S <;> decide

/-- A byte brings the index one byte nearer. -/
theorem toIndex_advance {s : State} {i : Inputs} (sound : Sound s) (more : 1 < toIndex i.hd s) :
    toIndex i.hd (advance s i) + 1 = toIndex i.hd s := by
  have count := sound.count
  rcases Nat.lt_or_eq_of_le sound.count with inside | last
  · rw [advance_inside inside]
    simp only [toIndex, bytesLeft, sectorsLeft]
    omega
  · by_cases done : s.state = .gap3
    · have wide := sound.sector
      have end_ : s.sector ≠ sptMax i.hd := by
        intro end_
        simp [toIndex, bytesLeft, sectorsLeft, gap3_not_inPreamble, last, done, end_, following]
          at more
      have next : sectorsLeft i.hd ⟨.idSync, 0, (s.sector + 1) % 2 ^ 5, nextSrcOffset s, nextCrc s i⟩ +
          1 = sectorsLeft i.hd s := by
        have short : sptMax i.hd ≤ 17 := by cases i.hd <;> decide
        simp only [sectorsLeft, done, sector_not_inPreamble, gap3_not_inPreamble, if_false]
        split_ifs <;> omega
      rw [advance_sector last done end_]
      simp only [toIndex, bytesLeft, last, done, ← next, following, lenM1]
      omega
    · rw [advance_last last done]
      by_cases inner : s.state = .preGap1
      · have first := sound.before (by rw [inner]; decide)
        have pre : InPreamble .preGap1 := by decide
        simp only [toIndex, bytesLeft, sectorsLeft, last, inner, first, Fsm.succ, spt_eq,
          sector_not_inPreamble, pre, if_false, Nat.zero_le, if_true, following, lenM1]
        omega
      · have pre := inPreamble_succ done inner
        have next := following_succ done inner
        simp only [toIndex, bytesLeft, sectorsLeft, pre, next, last]
        omega

/-- With one byte left, the index is next. -/
theorem advance_toIndex_one {s : State} {i : Inputs} (sound : Sound s) (one : toIndex i.hd s = 1) :
    advance s i = ⟨.preGap, 0, 0, 0, nextCrc s i⟩ := by
  have count := sound.count
  have some : 1 ≤ bytesLeft s := by
    unfold bytesLeft
    omega
  have none : sectorsLeft i.hd s = 0 := by
    unfold toIndex at one
    omega
  have end_ : s.state = .gap3 := by
    have ending : following s.state = 0 := by
      unfold toIndex bytesLeft at one
      omega
    have outside : ¬ InPreamble s.state := by
      intro pre
      rw [sectorsLeft, if_pos pre, spt_eq] at none
      omega
    revert ending outside
    cases s.state <;> decide
  have last : s.cnt = lenM1 s.state := by
    unfold toIndex bytesLeft at one
    omega
  have sector : s.sector = sptMax i.hd := by
    have wide := sound.sector
    rw [sectorsLeft, end_, if_neg gap3_not_inPreamble] at none
    split at none <;> omega
  rw [advance_index last end_ sector, nextSrcOffset_last sound last]

/-- The preamble is entered at the index only. -/
theorem outside_advance {s : State} {i : Inputs} (sound : Sound s)
    (outside : ¬ InPreamble s.state) (more : 1 < toIndex i.hd s) :
    ¬ InPreamble (advance s i).state := by
  rcases Nat.lt_or_eq_of_le sound.count with inside | last
  · rw [advance_inside inside]
    exact outside
  · by_cases done : s.state = .gap3
    · have end_ : s.sector ≠ sptMax i.hd := by
        intro end_
        simp [toIndex, bytesLeft, sectorsLeft, gap3_not_inPreamble, last, done, end_, following]
          at more
      rw [advance_sector last done end_]
      exact sector_not_inPreamble
    · rw [advance_last last done]
      exact fun pre => outside (inPreamble_of_succ done pre)

section Waiting

variable (d : Surface) {s : State}

theorem sound_after (sound : Sound s) (n : Nat) : Sound ((stream d).after n s) := by
  induction n with
  | zero => exact sound
  | succ n ih =>
    rw [Source.after_succ]
    exact sound_advance ih

theorem toIndex_after (sound : Sound s) (n : Nat) (before : n < toIndex d.hd s) :
    toIndex d.hd ((stream d).after n s) + n = toIndex d.hd s := by
  induction n with
  | zero => rfl
  | succ n ih =>
    have here := ih (by omega)
    have next := toIndex_advance (i := d.pull ((stream d).after n s)) (sound_after d sound n)
      (show 1 < toIndex d.hd _ by omega)
    rw [Source.after_succ, next_stream]
    change toIndex d.hd (advance _ _) + 1 = toIndex d.hd _ at next
    omega

/-- The index comes when the bytes before it are delivered. -/
theorem after_toIndex (sound : Sound s) :
    ∃ c, (stream d).after (toIndex d.hd s) s = ⟨.preGap, 0, 0, 0, c⟩ := by
  have count := sound.count
  obtain ⟨n, all⟩ : ∃ n, toIndex d.hd s = n + 1 := by
    refine ⟨toIndex d.hd s - 1, ?_⟩
    unfold toIndex bytesLeft
    omega
  have one : toIndex d.hd ((stream d).after n s) = 1 := by
    have left := toIndex_after d sound n (by omega)
    omega
  have next := advance_toIndex_one (i := d.pull ((stream d).after n s)) (sound_after d sound n) one
  rw [all, Source.after_succ, next_stream]
  exact ⟨_, next⟩

/-- Outside the preamble the index does not show before it comes. -/
theorem outside_after (sound : Sound s) (outside : ¬ InPreamble s.state) (n : Nat)
    (before : n < toIndex d.hd s) : ¬ InPreamble ((stream d).after n s).state := by
  induction n with
  | zero => exact outside
  | succ n ih =>
    have left := toIndex_after d sound n (by omega)
    rw [Source.after_succ, next_stream]
    exact outside_advance (sound_after d sound n) (ih (by omega)) (show 1 < toIndex d.hd _ by omega)

end Waiting

/-! ## Revolutions -/

/-- A stretch of bytes that is one full revolution: the track as the format has
it, with every field's check leaving zero. -/
structure FullRevolution (d : Surface) (bytes : List Out) : Prop where
  layout : bytes = trackImage d
  idChecks : ∀ r, 1 ≤ r → r ≤ spt d.hd → Codes.Crc.ccitt ((idField d r).map Out.odata) = 0
  dataChecks : ∀ r, 1 ≤ r → r ≤ spt d.hd → Codes.Crc.ccitt ((dataField d r).map Out.odata) = 0

/-- From `s` the index comes round within a revolution, and the bytes from
there on are one full revolution. -/
def Revolves (d : Surface) (s : State) : Prop :=
  ∃ n ≤ revolution d.hd,
    FullRevolution d ((stream d).emitted (revolution d.hd) ((stream d).after n s))

/-- The sector counter is within the track, or its last value before it wraps
has gone by but for a preamble's worth of bytes. -/
def InRange (hd : Bool) (s : State) : Prop :=
  s.sector ≤ sptMax hd ∨ s.sector = 31 ∧ bytesLeft s ≤ 146

theorem bytesLeft_le (s : State) : bytesLeft s ≤ if InPreamble s.state then 146 else 682 := by
  unfold bytesLeft
  cases s.state <;> simp [InPreamble, lenM1, following] <;> omega

/-- The index is within a revolution just when the sector is in range. -/
theorem toIndex_le_revolution {hd : Bool} {s : State} (sound : Sound s) :
    toIndex hd s ≤ revolution hd ↔ InRange hd s := by
  have count := sound.count
  have wide := sound.sector
  have short : sptMax hd ≤ 17 := by cases hd <;> decide
  have some : 1 ≤ bytesLeft s := by
    unfold bytesLeft
    omega
  have bound := bytesLeft_le s
  unfold InRange toIndex revolution sectorsLeft
  rw [spt_eq]
  by_cases pre : InPreamble s.state
  · have first := sound.before pre
    rw [if_pos pre] at bound ⊢
    omega
  · rw [if_neg pre] at bound ⊢
    split <;> omega

theorem fullRevolution_trackImage (d : Surface) : FullRevolution d (trackImage d) :=
  ⟨rfl, fun r _ _ => idField_check d r, fun r _ _ => dataField_check d r⟩

/-- A full revolution opens under the index hole. -/
theorem FullRevolution.opens {d : Surface} {s : State}
    (full : FullRevolution d ((stream d).emitted (revolution d.hd) s)) : s.state = .preGap := by
  have first : (trackImage d).head? = some ⟨0x4E, false, false, false, true⟩ := rfl
  have some : revolution d.hd = spt d.hd * 682 + 145 + 1 := by
    unfold revolution
    omega
  rw [← full.layout, some] at first
  have shown := congrArg (Option.map Out.oindex) first
  simpa [Source.emitted, stream, outputs] using shown

theorem emitted_index (d : Surface) (c : BitVec 16) :
    (stream d).emitted (revolution d.hd) ⟨.preGap, 0, 0, 0, c⟩ = trackImage d := by
  obtain ⟨_, said, _⟩ := emits_trackImage d c
  rw [← length_trackImage]
  exact said

/-- Whatever came before, the index comes, and from then on revolutions are
full. -/
theorem revolutions_follow (history : List Inputs) (d : Surface) (n : Nat) : ∃ c,
    (stream d).Emits ((stream d).after (toIndex d.hd (run history)) (run history))
      (List.replicate n (trackImage d)).flatten ⟨.preGap, 0, 0, 0, c⟩ := by
  obtain ⟨c, index⟩ := after_toIndex d (sound_run history)
  rw [index]
  exact emits_revolutions d c n

theorem revolves_iff {d : Surface} {s : State} (sound : Sound s) :
    Revolves d s ↔ InRange d.hd s := by
  rw [← toIndex_le_revolution sound]
  constructor
  · rintro ⟨n, soon, full⟩
    by_contra far
    have outside : ¬ InPreamble s.state := by
      intro pre
      have bound := bytesLeft_le s
      unfold toIndex revolution sectorsLeft at far
      rw [if_pos pre] at bound far
      omega
    have hidden := outside_after d sound outside n (by omega)
    exact hidden (.inl full.opens)
  · intro soon
    obtain ⟨c, index⟩ := after_toIndex d sound
    refine ⟨_, soon, ?_⟩
    rw [index, emitted_index]
    exact fullRevolution_trackImage d

/-- After any history, and whatever is then selected, the next revolution comes
in time just when the sector counter is in range for the density. -/
theorem next_revolution (history : List Inputs) (d : Surface) :
    Revolves d (run history) ↔ InRange d.hd (run history) :=
  revolves_iff (sound_run history)

/-! ## Changes of density -/

theorem sector_advance {s : State} {i : Inputs} (inside : s.sector ≤ sptMax i.hd) :
    (advance s i).sector ≤ sptMax i.hd := by
  unfold advance
  dsimp only
  split_ifs with _ _ end_
  · exact Nat.zero_le _
  · have wraps := Nat.mod_le (s.sector + 1) (2 ^ 5)
    change (s.sector + 1) % 2 ^ 5 ≤ _
    omega
  · exact inside
  · exact inside

/-- As long as the density does not change, the sector stays in range. -/
theorem sector_run {hd : Bool} {history : List Inputs} (steady : ∀ i ∈ history, i.hd = hd) :
    (run history).sector ≤ sptMax hd := by
  have kept : ∀ s : State, s.sector ≤ sptMax hd →
      (history.foldl step s).sector ≤ sptMax hd := by
    induction history with
    | nil => exact fun _ inside => inside
    | cons i rest ih =>
      intro s inside
      refine ih (fun j hj => steady j (List.mem_cons_of_mem _ hj)) (step s i) ?_
      have same := steady i (List.mem_cons_self ..)
      unfold step
      split
      · exact Nat.zero_le _
      · split
        · rw [← same] at inside ⊢
          exact sector_advance inside
        · exact inside
  exact kept initial (Nat.zero_le _)

/-- At one density the index is never more than a revolution away, and from it on the track
comes round and round. -/
theorem steady_revolutions {history : List Inputs} {d : Surface}
    (steady : ∀ i ∈ history, i.hd = d.hd) (n : Nat) :
    toIndex d.hd (run history) ≤ revolution d.hd ∧ FullRevolution d (trackImage d) ∧ ∃ c,
      (stream d).Emits ((stream d).after (toIndex d.hd (run history)) (run history))
        (List.replicate n (trackImage d)).flatten ⟨.preGap, 0, 0, 0, c⟩ :=
  ⟨(toIndex_le_revolution (sound_run history)).mpr (.inl (sector_run steady)),
    fullRevolution_trackImage d, revolutions_follow history d n⟩

/-- A blank disk. -/
def blank (hd : Bool) : Surface := ⟨fun _ => 0, 0, false, hd⟩

theorem run_blank (hd : Bool) (n : Nat) (s : State) :
    (List.replicate n ((blank hd).pull initial)).foldl step s = (stream (blank hd)).after n s := by
  induction n generalizing s with
  | zero => rfl
  | succ n ih => exact ih (step s ((blank hd).pull s))

/-- A blank high-density disk is read up to its eleventh sector. -/
def tenSectors : List Inputs := List.replicate (146 + 10 * 682) ((blank true).pull initial)

theorem run_tenSectors : ∃ c, run tenSectors = ⟨.idSync, 0, 10, 0, c⟩ := by
  obtain ⟨c, rest⟩ := emits_sectors (blank true) crcSeed 10 (by decide)
  have all := ((emits_preamble (blank true) crcSeed).append rest).2
  rw [List.length_append, length_preamble, length_sectors, ← run_blank] at all
  exact ⟨c, all⟩

theorem steady_revolutions_tenSectors :
    toIndex true (run tenSectors) ≤ revolution true ∧
      FullRevolution (blank true) (trackImage (blank true)) ∧ ∃ c,
      (stream (blank true)).Emits
        ((stream (blank true)).after (toIndex true (run tenSectors)) (run tenSectors))
        (List.replicate 3 (trackImage (blank true))).flatten ⟨.preGap, 0, 0, 0, c⟩ :=
  steady_revolutions (d := blank true) (fun i at_ => by rw [List.eq_of_mem_replicate at_]; rfl) 3

/-- If a double-density disk is selected there, the index is more than a
revolution away. -/
theorem density_change_overruns : ¬ Revolves (blank false) (run tenSectors) := by
  obtain ⟨c, state⟩ := run_tenSectors
  have sound := sound_run tenSectors
  rw [revolves_iff sound, state]
  simp [InRange, sptMax, blank]

end MacIIvi.Mfm
