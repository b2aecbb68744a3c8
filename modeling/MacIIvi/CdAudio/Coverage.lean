import MacIIvi.CdAudio.Main

/-!
# What a build of the TOC has assigned

The states from the blob header to the session page assign every item a command
reports from the TOC: the cells of the three tables, the track count, the
lead-out address and the kind of the disc. Each state assigns the items next to
those assigned before, so that the build that reaches the end has assigned all.
-/

namespace MacIIvi

namespace CdAudio

namespace MState

/-- The states from the request for the first blob block to the last byte of the
session page. -/
def acquiring : MState → Bool
  | .idle | .cmd | .ctrkRd | .apply | .refScan | .refDiva | .refDivr | .scanGo => false
  | _ => true

end MState

/-- What is built from the blob, one cell or register at a time. -/
inductive Item where
  | resp (a : Nat)
  | t43 (a : Nat)
  | t2 (a : Nat)
  | nTracks
  | leadoutLow
  | leadoutHigh
  | discAudio
  deriving DecidableEq

/-- The items a finished TOC consists of: the 0xC1 header and its 99 track
entries, the format-0 table up to its length, the format-2 table up to its
length with the session page, and the registers. -/
def Tables.has (s : Tables) : Item → Prop
  | .resp a => a < 404
  | .t43 a => a < s.toc43Len
  | .t2 a => a < s.toc2Len ∨ 496 ≤ a ∧ a < 508
  | _ => True

/-- The clock loads the port with a write to the cell. -/
def PlanePort.writes (p : PlanePort) (a : Nat) : Prop := p.we = true ∧ p.wa = a

instance (p : PlanePort) (a : Nat) : Decidable (p.writes a) :=
  inferInstanceAs (Decidable (_ ∧ _))

namespace Main

variable {w : MainIn} {s : Main}

/-- The clock from `s` to `s'` assigns the item. -/
def assigns (s s' : Main) : Item → Prop
  | .resp a => s'.tab.resp.writes a
  | .t43 a => s'.tab.t43.writes a
  | .t2 a => s'.tab.t2.writes a
  | .nTracks =>
    s.mst = .hdrRd ∧ (s.step = 4 ∧ s.tab.tocValid = true ∨ s.step = 6 ∧ s.tab.tocValid = false)
  | .leadoutLow =>
    s.mst = .hdrRd ∧ (s.step = 5 ∧ s.tab.tocValid = true ∨ s.step = 6 ∧ s.tab.tocValid = false)
  | .leadoutHigh => s.mst = .hdrRd ∧ s.step = 6
  | .discAudio => s.mst = .t2Sess ∧ 10 < s.bld.t2Ek

instance (s s' : Main) (x : Item) : Decidable (assigns s s' x) := by
  cases x <;> unfold assigns <;> infer_instance

/-- The first cells of the 0xC1 table are assigned. -/
def respTo (s : Main) : Nat :=
  match s.mst with
  | .acqReq | .acqWait | .hdrRd => 0
  | .emitH => s.bld.emitK
  | .loDiv => 4
  | .emitLo => 4 + s.bld.emitK
  | .trkRd | .trkDiv => 8 + 4 * s.bld.tIdx
  | .emitTrk => 8 + 4 * s.bld.tIdx + s.bld.emitK
  | _ => 404

/-- The first cells of the format-0 table are assigned. -/
def t43To (s : Main) : Nat :=
  match s.mst with
  | .acqReq | .acqWait | .hdrRd | .emitH | .loDiv | .emitLo | .trkRd | .trkDiv | .emitTrk
  | .built => 0
  | .t43Hdr => s.bld.emitK
  | .t43Rd => 4 + 8 * s.bld.tIdx
  | .t43Div => 4 + 8 * t43Row s
  | .t43Emit => 4 + 8 * t43Row s + s.bld.emitK
  | _ => s.tab.toc43Len

/-- The track rows of the format-2 table are written from 37 upwards, the
lead-out row and the two rows before it after them, the session page last. -/
def t2Done (s : Main) (a : Nat) : Prop :=
  match s.mst with
  | .t2Hdr => a < s.bld.t2Ek
  | .t2Rd => a < 4 ∨ 37 ≤ a ∧ a < 37 + 11 * s.bld.tIdx
  | .t2Div =>
    a < 4 ∨ 37 ≤ a ∧ a < 37 + 11 * (if s.bld.t2Lo then s.tab.t2N else s.bld.tIdx)
  | .t2Trk => a < 4 ∨ 37 ≤ a ∧ a < 37 + 11 * s.bld.tIdx + s.bld.t2Ek
  | .t2A2 => a < 4 ∨ 26 ≤ a ∧ a < 26 + s.bld.t2Ek ∨ 37 ≤ a ∧ a < 37 + 11 * s.tab.t2N
  | .t2A01 => a < 4 + s.bld.t2Ek ∨ 26 ≤ a ∧ a < 37 + 11 * s.tab.t2N
  | .t2Sess => a < 37 + 11 * s.tab.t2N ∨ 496 ≤ a ∧ a < 496 + s.bld.t2Ek
  | .idle | .cmd | .ctrkRd | .apply | .refScan | .refDiva | .refDivr | .scanGo =>
    s.tab.has (.t2 a)
  | _ => False

/-- The header of the blob has been read up to step `k`. -/
def headerFrom (s : Main) (k : Nat) : Prop :=
  match s.mst with
  | .acqReq | .acqWait => False
  | .hdrRd => k < s.step ∧ s.tab.tocValid = true
  | _ => True

/-- The item has been assigned by the build in progress, or by the last one when
none is. -/
def assigned (s : Main) : Item → Prop
  | .resp a => a < respTo s
  | .t43 a => a < t43To s
  | .t2 a => t2Done s a
  | .nTracks => headerFrom s 4
  | .leadoutLow => headerFrom s 5
  | .leadoutHigh => headerFrom s 6
  | .discAudio => s.mst.acquiring = false

/-- A build is in progress or has come to its end. -/
def live (s : Main) : Prop := s.mst.acquiring = true ∨ s.tab.tocReady = true

/-- Bytes of the format-0 table with its lead-out row. -/
def len43 (s : Main) : Nat := 4 + 8 * (s.tab.t43Nreal + 1)

/-- The loop registers of the state stay inside its table. -/
def loopOk (s : Main) : Prop :=
  match s.mst with
  | .hdrRd => s.step ≤ 6
  | .emitH | .emitLo | .t43Hdr => s.bld.emitK ≤ 3
  | .trkRd | .trkDiv => s.bld.tIdx ≤ 98
  | .emitTrk => s.bld.tIdx ≤ 98 ∧ s.bld.emitK ≤ 3
  | .t43Rd => s.tab.toc43Len = len43 s ∧ s.bld.t43Lo = false ∧ s.bld.tIdx < s.tab.t43Nreal
  | .t43Div => s.tab.toc43Len = len43 s ∧ (s.bld.t43Lo = false → s.bld.tIdx < s.tab.t43Nreal)
  | .t43Emit =>
    s.tab.toc43Len = len43 s ∧ (s.bld.t43Lo = false → s.bld.tIdx < s.tab.t43Nreal) ∧
      s.bld.emitK ≤ 7
  | .t2Hdr => s.bld.t2Ek ≤ 3 ∧ s.bld.t2Wbase = 37 ∧ s.bld.t2Lo = false
  | .t2Rd => s.bld.t2Lo = false ∧ s.bld.tIdx < s.tab.t2N ∧ s.bld.t2Wbase = 37 + 11 * s.bld.tIdx
  | .t2Div =>
    s.bld.t2Lo = false → s.bld.tIdx < s.tab.t2N ∧ s.bld.t2Wbase = 37 + 11 * s.bld.tIdx
  | .t2Trk =>
    s.bld.t2Lo = false ∧ s.bld.tIdx < s.tab.t2N ∧ s.bld.t2Wbase = 37 + 11 * s.bld.tIdx ∧
      s.bld.t2Ek ≤ 10
  | .t2A2 => s.bld.t2Ek ≤ 10
  | .t2A01 => s.bld.t2Ek ≤ 21
  | .t2Sess => s.bld.t2Ek ≤ 11
  | _ => True

structure InTable (s : Main) : Prop where
  tracks : 1 ≤ s.tab.nTracks
  unready : s.mst.acquiring = true → s.tab.tocReady = false
  loop : loopOk s

/-- What the clock leaves assigned was assigned before or is assigned in it. -/
structure Advances (s s' : Main) : Prop where
  inTable : InTable s'
  items : ∀ x, live s' → assigned s' x → live s ∧ assigned s x ∨ assigns s s' x

theorem t43Dlen_eq (t : Tables) : t.t43Dlen = 8 * (min t.nTracks 60 + 1) + 2 := by
  have : t.t43Nreal ≤ 60 := Nat.min_le_right _ _
  unfold Tables.t43Dlen
  simp only [Tables.t43Nreal] at this ⊢
  omega

theorem t2Dlen_eq (t : Tables) : t.t2Dlen = 11 * (min t.nTracks 41 + 3) + 2 := by
  have : t.t2N ≤ 41 := Nat.min_le_right _ _
  unfold Tables.t2Dlen
  simp only [Tables.t2N] at this ⊢
  omega

/-- A counter of assigned cells that moves by the cell just written. -/
theorem grown {p : PlanePort} {n n' : Nat} (move : n' ≤ n ∨ n' = n + 1 ∧ p.writes n) (a : Nat)
    (h : a < n') : a < n ∨ p.writes a := by
  rcases move with le | ⟨rfl, wr⟩
  · left; omega
  · rcases Nat.lt_succ_iff_lt_or_eq.mp h with lt | rfl
    · exact .inl lt
    · exact .inr wr

/-- A clock between two states of a build, as its tables grow. -/
theorem advances_build {s' : Main} (b : InTable s) (acq : s.mst.acquiring = true)
    (acq' : s'.mst.acquiring = true) (tracks : s'.tab.nTracks = s.tab.nTracks)
    (ready : s'.tab.tocReady = s.tab.tocReady) (loop : loopOk s')
    (resp : respTo s' ≤ respTo s ∨ respTo s' = respTo s + 1 ∧ s'.tab.resp.writes (respTo s))
    (t43 : t43To s' ≤ t43To s ∨ t43To s' = t43To s + 1 ∧ s'.tab.t43.writes (t43To s))
    (t2 : ∀ a, t2Done s' a → t2Done s a ∨ s'.tab.t2.writes a)
    (header : ∀ k, headerFrom s k) : Advances s s' where
  inTable := ⟨tracks ▸ b.tracks, fun _ => ready.trans (b.unready acq), loop⟩
  items := by
    intro x _ held
    have here : live s := .inl acq
    cases x with
    | resp a => exact (grown resp a held).imp_left (And.intro here)
    | t43 a => exact (grown t43 a held).imp_left (And.intro here)
    | t2 a => exact (t2 a held).imp_left (And.intro here)
    | nTracks => exact .inl ⟨here, header 4⟩
    | leadoutLow => exact .inl ⟨here, header 5⟩
    | leadoutHigh => exact .inl ⟨here, header 6⟩
    | discAudio => simp [assigned, acq'] at held

section

variable (b : InTable s)

include b

theorem emitH_advances (mst : s.mst = .emitH) : Advances s (stepEmitH w s) := by
  have loop := b.loop
  simp only [loopOk, mst] at loop
  unfold stepEmitH
  dsimp only
  split
  all_goals
    apply advances_build b <;>
      simp [MState.acquiring, loopOk, respTo, t43To, t2Done, headerFrom, PlanePort.writes,
        emitNext, *]
  grind

theorem loDiv_advances (mst : s.mst = .loDiv) : Advances s (stepLoDiv w s) := by
  unfold stepLoDiv stepDiv
  split
  all_goals
    apply advances_build b <;>
      simp [mst, MState.acquiring, loopOk, respTo, t43To, t2Done, headerFrom]

theorem emitLo_advances (mst : s.mst = .emitLo) : Advances s (stepEmitLo w s) := by
  have loop := b.loop
  simp only [loopOk, mst] at loop
  unfold stepEmitLo
  dsimp only
  split
  all_goals
    apply advances_build b <;>
      simp [MState.acquiring, loopOk, respTo, t43To, t2Done, headerFrom, PlanePort.writes,
        emitNext, *]
  grind

theorem trkRd_advances (mst : s.mst = .trkRd) : Advances s (stepTrkRd w s) := by
  have loop := b.loop
  simp only [loopOk, mst] at loop
  unfold stepTrkRd stepTrackRead
  dsimp only
  split
  · apply advances_build b <;>
      simp [mst, MState.acquiring, loopOk, respTo, t43To, t2Done, headerFrom, loop]
  · split
    all_goals
      apply advances_build b <;>
        simp [mst, MState.acquiring, loopOk, respTo, t43To, t2Done, headerFrom, loop]

theorem trkDiv_advances (mst : s.mst = .trkDiv) : Advances s (stepTrkDiv w s) := by
  have loop := b.loop
  simp only [loopOk, mst] at loop
  unfold stepTrkDiv stepDiv
  split
  all_goals
    apply advances_build b <;>
      simp [mst, MState.acquiring, loopOk, respTo, t43To, t2Done, headerFrom, loop]

theorem emitTrk_advances (mst : s.mst = .emitTrk) : Advances s (stepEmitTrk w s) := by
  have loop := b.loop
  simp only [loopOk, mst] at loop
  unfold stepEmitTrk
  dsimp only
  split
  case h_4 =>
    split
    all_goals
      apply advances_build b <;>
        simp [MState.acquiring, loopOk, respTo, t43To, t2Done, headerFrom, PlanePort.writes, *]
    all_goals grind
  all_goals
    apply advances_build b <;>
      simp [MState.acquiring, loopOk, respTo, t43To, t2Done, headerFrom, PlanePort.writes,
        emitNext, *]
  all_goals omega

theorem built_advances (mst : s.mst = .built) : Advances s (stepBuilt w s) := by
  apply advances_build b <;>
    simp [stepBuilt, mst, MState.acquiring, loopOk, respTo, t43To, t2Done, headerFrom]

/-! ### The format-0 table -/

theorem t43Hdr_advances (mst : s.mst = .t43Hdr) : Advances s (stepT43Hdr w s) := by
  have loop := b.loop
  have tracks := b.tracks
  simp only [loopOk, mst] at loop
  unfold stepT43Hdr
  dsimp only
  split
  all_goals
    apply advances_build b <;>
      simp [MState.acquiring, loopOk, respTo, t43To, t2Done, headerFrom, PlanePort.writes,
        emitNext, len43, t43Dlen_eq, Tables.t43Nreal, *]
  all_goals grind

theorem t43Rd_advances (mst : s.mst = .t43Rd) : Advances s (stepT43Rd w s) := by
  have loop := b.loop
  simp only [loopOk, mst, len43, Tables.t43Nreal] at loop
  unfold stepT43Rd stepTrackRead
  dsimp only
  split
  · apply advances_build b <;>
      simp [MState.acquiring, loopOk, respTo, t43To, t2Done, headerFrom, t43Row, len43,
        Tables.t43Nreal, *]
  · split
    all_goals
      apply advances_build b <;>
        simp [MState.acquiring, loopOk, respTo, t43To, t2Done, headerFrom, t43Row, len43,
          Tables.t43Nreal, *]

theorem t43Div_advances (mst : s.mst = .t43Div) : Advances s (stepT43Div w s) := by
  have loop := b.loop
  simp only [loopOk, mst, len43, Tables.t43Nreal] at loop
  unfold stepT43Div stepDiv
  split
  all_goals
    apply advances_build b <;>
      simp [MState.acquiring, loopOk, respTo, t43To, t2Done, headerFrom, t43Row, len43,
        Tables.t43Nreal, *]
  all_goals simpa using loop.2

theorem t43Emit_advances (mst : s.mst = .t43Emit) : Advances s (stepT43Emit w s) := by
  have loop := b.loop
  simp only [loopOk, mst, len43, Tables.t43Nreal] at loop
  unfold stepT43Emit
  dsimp only
  split
  case h_8 =>
    split
    · apply advances_build b <;>
        simp [MState.acquiring, loopOk, respTo, t43To, t2Done, headerFrom, t43Row,
          PlanePort.writes, Tables.t43Nreal, *]
      all_goals grind [Tables.t43Nreal]
    · split
      all_goals
        apply advances_build b <;>
          simp [MState.acquiring, loopOk, respTo, t43To, t2Done, headerFrom, t43Row, len43,
            PlanePort.writes, emitNext, Tables.t43Nreal, *]
      all_goals grind [Tables.t43Nreal]
  all_goals
    apply advances_build b <;>
      simp [MState.acquiring, loopOk, respTo, t43To, t2Done, headerFrom, t43Row, len43,
        PlanePort.writes, emitNext, Tables.t43Nreal, *]
  all_goals grind [Tables.t43Nreal]

/-! ### The format-2 table and the session page -/

theorem t2Hdr_advances (mst : s.mst = .t2Hdr) : Advances s (stepT2Hdr w s) := by
  have loop := b.loop
  have tracks := b.tracks
  simp only [loopOk, mst] at loop
  unfold stepT2Hdr putT2
  split
  all_goals
    apply advances_build b <;>
      simp [MState.acquiring, loopOk, respTo, t43To, t2Done, headerFrom, PlanePort.writes,
        ekNext, Tables.t2N, *]
  all_goals grind

theorem t2Rd_advances (mst : s.mst = .t2Rd) : Advances s (stepT2Rd w s) := by
  have loop := b.loop
  simp only [loopOk, mst, Tables.t2N] at loop
  unfold stepT2Rd stepTrackRead
  dsimp only
  split
  · apply advances_build b <;>
      simp [MState.acquiring, loopOk, respTo, t43To, t2Done, headerFrom, Tables.t2N, *]
    exact fun a here => .inl here
  · split
    all_goals
      apply advances_build b <;>
        simp [MState.acquiring, loopOk, respTo, t43To, t2Done, headerFrom, Tables.t2N, *]
    all_goals exact fun a here => .inl here

theorem t2Div_advances (mst : s.mst = .t2Div) : Advances s (stepT2Div w s) := by
  have loop := b.loop
  simp only [loopOk, mst, Tables.t2N] at loop
  unfold stepT2Div
  split
  · apply advances_build b <;>
      simp [MState.acquiring, loopOk, respTo, t43To, t2Done, headerFrom, Tables.t2N, *]
    · simpa using loop
    · exact fun a here => .inl here
  · cases lo : s.bld.t2Lo
    all_goals
      apply advances_build b <;>
        simp [MState.acquiring, loopOk, respTo, t43To, t2Done, headerFrom, Tables.t2N, *]
    all_goals grind

theorem t2Trk_advances (mst : s.mst = .t2Trk) : Advances s (stepT2Trk w s) := by
  have loop := b.loop
  simp only [loopOk, mst, Tables.t2N] at loop
  unfold stepT2Trk putT2
  dsimp only
  split
  case h_11 =>
    split
    all_goals
      apply advances_build b <;>
        simp [MState.acquiring, loopOk, respTo, t43To, t2Done, headerFrom, PlanePort.writes,
          ekNext, rowNext, Tables.t2N, *]
    all_goals grind [Tables.t2N]
  all_goals
    apply advances_build b <;>
      simp [MState.acquiring, loopOk, respTo, t43To, t2Done, headerFrom, PlanePort.writes,
        ekNext, Tables.t2N, *]
  all_goals grind

theorem t2A2_advances (mst : s.mst = .t2A2) : Advances s (stepT2A2 w s) := by
  have loop := b.loop
  simp only [loopOk, mst] at loop
  unfold stepT2A2 putT2
  dsimp only
  split
  all_goals
    apply advances_build b <;>
      simp [MState.acquiring, loopOk, respTo, t43To, t2Done, headerFrom, PlanePort.writes,
        ekNext, Tables.t2N, *]
  all_goals grind

theorem t2A01_advances (mst : s.mst = .t2A01) : Advances s (stepT2A01 w s) := by
  have loop := b.loop
  simp only [loopOk, mst] at loop
  unfold stepT2A01 putT2
  dsimp only
  split
  all_goals
    apply advances_build b <;>
      simp [MState.acquiring, loopOk, respTo, t43To, t2Done, headerFrom, PlanePort.writes,
        ekNext, Tables.t2N, *]
  all_goals grind

theorem t2Sess_advances (mst : s.mst = .t2Sess) : Advances s (stepT2Sess w s) := by
  have loop := b.loop
  simp only [loopOk, mst] at loop
  unfold stepT2Sess putT2
  dsimp only
  split
  case h_12 =>
    have acq : s.mst.acquiring = true := by rw [mst]; rfl
    refine ⟨⟨b.tracks, by simp [MState.acquiring], by simp [loopOk]⟩, fun x _ held => ?_⟩
    have here : live s := .inl acq
    have last : s.bld.t2Ek = 11 := by grind
    cases x <;>
      simp [assigned, assigns, here, respTo, t43To, t2Done, headerFrom, mst, Tables.has,
        PlanePort.writes, t2Dlen_eq, Tables.t2N, last] at held ⊢
    · exact held
    · exact held
    · omega
  all_goals
    apply advances_build b <;>
      simp [MState.acquiring, loopOk, respTo, t43To, t2Done, headerFrom, PlanePort.writes,
        ekNext, Tables.t2N, *]
  all_goals grind

/-! ### The other states -/

/-- While the header is read no table cell is assigned. -/
theorem advances_header {s' : Main} (mst : s.mst = .hdrRd)
    (mst' : s'.mst = .hdrRd ∨ s'.mst = .emitH ∧ s'.bld.emitK = 0) (tracks : 1 ≤ s'.tab.nTracks)
    (ready : s'.tab.tocReady = s.tab.tocReady) (loop : loopOk s')
    (n : headerFrom s' 4 → headerFrom s 4 ∨ assigns s s' .nTracks)
    (lo : headerFrom s' 5 → headerFrom s 5 ∨ assigns s s' .leadoutLow)
    (hi : headerFrom s' 6 → headerFrom s 6 ∨ assigns s s' .leadoutHigh) : Advances s s' where
  inTable := ⟨tracks, fun _ => ready.trans (b.unready (by rw [mst]; rfl)), loop⟩
  items := by
    intro x _ held
    have here : live s := .inl (by rw [mst]; rfl)
    cases x with
    | resp a => rcases mst' with m | ⟨m, k⟩ <;> simp [assigned, respTo, *] at held
    | t43 a => rcases mst' with m | ⟨m, -⟩ <;> simp [assigned, t43To, m] at held
    | t2 a => rcases mst' with m | ⟨m, -⟩ <;> simp [assigned, t2Done, m] at held
    | nTracks => exact (n held).imp_left (And.intro here)
    | leadoutLow => exact (lo held).imp_left (And.intro here)
    | leadoutHigh => exact (hi held).imp_left (And.intro here)
    | discAudio => rcases mst' with m | ⟨m, -⟩ <;> simp [assigned, m, MState.acquiring] at held

theorem hdrRd_advances (mst : s.mst = .hdrRd) : Advances s (stepHdrRd w s) := by
  have loop := b.loop
  have tracks := b.tracks
  simp only [loopOk, mst] at loop
  unfold stepHdrRd
  dsimp only
  split
  case h_3 =>
    split
    · apply advances_header b mst <;> simp [loopOk, headerFrom, assigns, *]
      have byte : w.b0 ≠ 0 → 0 < w.b0.toNat := fun some => by
        simpa [Nat.pos_iff_ne_zero, ← BitVec.toNat_inj] using some
      split
      · omega
      · split <;> have := byte ‹_› <;> omega
    · apply advances_header b mst <;> simp [loopOk, headerFrom, assigns, *]
  case h_4 =>
    split
    all_goals apply advances_header b mst <;> simp [loopOk, headerFrom, assigns, *]
  case h_5 =>
    split
    all_goals apply advances_header b mst <;> simp [loopOk, headerFrom, assigns, *]
  all_goals
    apply advances_header b mst <;> simp [loopOk, headerFrom, assigns, *]
  all_goals grind

end

/-- Outside a build the items assigned are those of the tables. -/
theorem assigned_rest (rest : s.mst.acquiring = false) (x : Item) :
    assigned s x ↔ s.tab.has x := by
  cases mst : s.mst <;> simp [mst, MState.acquiring] at rest
  all_goals
    cases x <;> simp [assigned, Tables.has, respTo, t43To, t2Done, headerFrom, mst,
      MState.acquiring]

/-- Outside a build the tables are left alone. -/
theorem next_rest (rst : w.rst = false) (rest : s.mst.acquiring = false) (busy : s.mst ≠ .idle) :
    (next w s).tab = s.tab.strobesLow ∧ (next w s).mst.acquiring = false := by
  simp only [next, rst, Bool.false_eq_true, if_false]
  cases mst : s.mst <;> simp [mst, MState.acquiring] at rest busy
  all_goals
    simp only [stepCmd, stepCtrkRd, stepScanGo, stepApply, stepRefScan, stepRefDiva, stepRefDivr]
    repeat' split
    all_goals exact ⟨rfl, by simp [mst, MState.acquiring]⟩

/-- Where nothing is ready, a build that has not read a header has assigned
nothing. -/
theorem advances_start {s' : Main} (tracks : 1 ≤ s'.tab.nTracks) (ready : s'.tab.tocReady = false)
    (mst' : s'.mst.acquiring = false ∨ s'.mst = .acqReq ∨ s'.mst = .acqWait ∨
      s'.mst = .hdrRd ∧ s'.step = 0) : Advances s s' where
  inTable := by
    refine ⟨tracks, fun _ => ready, ?_⟩
    rcases mst' with rest | m | m | ⟨m, k⟩
    · cases m : s'.mst <;> simp [m, MState.acquiring] at rest <;> simp [loopOk, m]
    all_goals simp [loopOk, *]
  items := by
    intro x alive held
    rcases mst' with rest | m | m | ⟨m, k⟩
    · simp [live, rest, ready] at alive
    all_goals
      cases x <;> simp [assigned, respTo, t43To, t2Done, headerFrom, MState.acquiring, *] at held

/-- Outside a build the assigned items stay. -/
theorem advances_rest {s' : Main} (b : InTable s) (rest : s.mst.acquiring = false)
    (tab : s'.tab = s.tab.strobesLow) (rest' : s'.mst.acquiring = false) : Advances s s' where
  inTable := by
    refine ⟨by rw [tab]; exact b.tracks, by simp [rest'], ?_⟩
    cases m : s'.mst <;> simp [m, MState.acquiring] at rest' <;> simp [loopOk, m]
  items := by
    intro x alive held
    have ready : s'.tab.tocReady = true := by simpa [live, rest'] using alive
    rw [assigned_rest rest', tab] at held
    rw [tab] at ready
    refine .inl ⟨.inr ready, (assigned_rest rest x).mpr ?_⟩
    cases x <;> exact held

theorem acqReq_advances (b : InTable s) (mst : s.mst = .acqReq) :
    Advances s (stepAcqReq w s) := by
  have unready := b.unready (by rw [mst]; rfl)
  unfold stepAcqReq
  split
  · exact advances_start b.tracks unready (by simp [MState.acquiring])
  · split <;> exact advances_start b.tracks unready (by simp [mst])

theorem acqWait_advances (b : InTable s) (mst : s.mst = .acqWait) :
    Advances s (stepAcqWait w s) := by
  have unready := b.unready (by rw [mst]; rfl)
  unfold stepAcqWait
  dsimp only
  split
  · split <;> exact advances_start b.tracks unready (by simp)
  · split <;> exact advances_start b.tracks unready (by simp [mst, MState.acquiring])

theorem idle_advances (b : InTable s) (mst : s.mst = .idle) : Advances s (stepIdle w s) := by
  have rest : s.mst.acquiring = false := by rw [mst]; rfl
  unfold stepIdle acquire
  dsimp only
  split
  · exact advances_start b.tracks rfl (by simp)
  · split
    · exact advances_start b.tracks rfl (by simp)
    · split
      · exact advances_rest b rest rfl rfl
      · split
        · refine advances_rest b rest rfl ?_
          split <;> rfl
        · exact advances_rest b rest rfl rest

/-- Every clock assigns the items that join the assigned ones. -/
theorem next_advances (b : InTable s) : Advances s (next w s) := by
  cases rst : w.rst with
  | true =>
    simp only [next, rst, if_true]
    exact advances_start (Nat.le_refl 1) rfl (.inl rfl)
  | false =>
    cases mst : s.mst
    case cmd | ctrkRd | apply | refScan | refDiva | refDivr | scanGo =>
      have rest : s.mst.acquiring = false := by rw [mst]; rfl
      obtain ⟨tab, rest'⟩ := next_rest rst rest (by simp [mst])
      exact advances_rest b rest tab rest'
    all_goals simp only [next, rst, mst, Bool.false_eq_true, if_false]
    case idle => exact idle_advances b mst
    case acqReq => exact acqReq_advances b mst
    case acqWait => exact acqWait_advances b mst
    case hdrRd => exact hdrRd_advances b mst
    case emitH => exact emitH_advances b mst
    case loDiv => exact loDiv_advances b mst
    case emitLo => exact emitLo_advances b mst
    case trkRd => exact trkRd_advances b mst
    case trkDiv => exact trkDiv_advances b mst
    case emitTrk => exact emitTrk_advances b mst
    case built => exact built_advances b mst
    case t43Hdr => exact t43Hdr_advances b mst
    case t43Rd => exact t43Rd_advances b mst
    case t43Div => exact t43Div_advances b mst
    case t43Emit => exact t43Emit_advances b mst
    case t2Hdr => exact t2Hdr_advances b mst
    case t2Rd => exact t2Rd_advances b mst
    case t2Div => exact t2Div_advances b mst
    case t2Trk => exact t2Trk_advances b mst
    case t2A2 => exact t2A2_advances b mst
    case t2A01 => exact t2A01_advances b mst
    case t2Sess => exact t2Sess_advances b mst

/-! ### Registers keep their values until they are assigned -/

theorem next_header (rst : w.rst = false) (away : s.mst ≠ .hdrRd) :
    (next w s).tab.nTracks = s.tab.nTracks ∧ (next w s).tab.leadoutLba = s.tab.leadoutLba := by
  simp only [next, rst, Bool.false_eq_true, if_false]
  cases mst : s.mst
  case hdrRd => exact absurd mst away
  all_goals
    simp only [stepIdle, acquire, stepAcqReq, stepAcqWait, stepEmitH, stepLoDiv, stepDiv,
      stepEmitLo, stepTrkRd, stepTrackRead, stepTrkDiv, stepEmitTrk, stepBuilt, stepT43Hdr,
      stepT43Rd, stepT43Div, stepT43Emit, stepT2Hdr, stepT2Rd, stepT2Div, stepT2Trk, stepT2A2,
      stepT2A01, stepT2Sess, stepCmd, stepCtrkRd, stepScanGo, stepApply, stepRefScan, stepRefDiva,
      stepRefDivr, putT2]
    repeat' split
    all_goals exact ⟨rfl, rfl⟩

theorem next_discAudio (rst : w.rst = false) (away : s.mst ≠ .t2Sess ∨ s.bld.t2Ek ≤ 10) :
    (next w s).tab.discAudio = s.tab.discAudio := by
  simp only [next, rst, Bool.false_eq_true, if_false]
  cases mst : s.mst
  case t2Sess =>
    simp only [stepT2Sess, putT2]
    split
    case h_12 => grind
    all_goals rfl
  all_goals
    simp only [stepIdle, acquire, stepAcqReq, stepAcqWait, stepHdrRd, stepEmitH, stepLoDiv,
      stepDiv, stepEmitLo, stepTrkRd, stepTrackRead, stepTrkDiv, stepEmitTrk, stepBuilt,
      stepT43Hdr, stepT43Rd, stepT43Div, stepT43Emit, stepT2Hdr, stepT2Rd, stepT2Div, stepT2Trk,
      stepT2A2, stepT2A01, stepCmd, stepCtrkRd, stepScanGo, stepApply, stepRefScan, stepRefDiva,
      stepRefDivr, putT2]
    repeat' split
    all_goals rfl

/-- The value of a register item. -/
def register (s : Main) : Item → Nat
  | .nTracks => s.tab.nTracks
  | .leadoutLow => s.tab.leadoutLba % 65536
  | .leadoutHigh => s.tab.leadoutLba / 65536
  | .discAudio => s.tab.discAudio.toNat
  | _ => 0

theorem register_kept (rst : w.rst = false) {x : Item} (none : ¬ assigns s (next w s) x) :
    register (next w s) x = register s x := by
  by_cases hdr : s.mst = .hdrRd
  · have disc := next_discAudio (w := w) (s := s) rst (.inl (by simp [hdr]))
    have word : w.blobQ.toNat < 65536 := w.blobQ.isLt
    cases x with
    | discAudio => simp [register, disc]
    | resp | t43 | t2 => rfl
    | nTracks | leadoutLow | leadoutHigh =>
      simp only [assigns, hdr, true_and] at none
      simp only [register, next, rst, hdr, stepHdrRd, Bool.false_eq_true, if_false]
      repeat' split
      all_goals simp_all
      all_goals omega
  · obtain ⟨n, l⟩ := next_header rst hdr
    cases x with
    | nTracks => exact n
    | leadoutLow | leadoutHigh => simp [register, l]
    | discAudio =>
      have disc := next_discAudio (w := w) (s := s) rst (by
        by_contra both
        simp only [not_or, not_not, Nat.not_le] at both
        exact none both)
      simp [register, disc]
    | resp | t43 | t2 => rfl

/-! ### The fetch a build uses -/

/-- The fetch of the blob the build in progress uses has begun. -/
def committed (s : Main) : Bool :=
  s.mst.acquiring && !(s.mst == .acqReq && !s.blob.blobBlk)

/-- The first request for the blob of a build comes up after this clock. -/
def startsFetch (s s' : Main) : Bool :=
  s.mst == .acqReq && !s.blob.blobBlk && s'.mst == .acqWait

/-- A mount that arrives now is seen: by the reset, by the idle state, or because
no table is ready and no fetch has begun. -/
def receptive (w : MainIn) (s : Main) : Bool :=
  w.rst || (s.mst == .idle && w.mounted) ||
    (!s.tab.tocReady && (!committed s || (s.mst == .acqReq && !w.mounted)))

/-- With neither a table ready nor a fetch begun, a fetch has to begin first. -/
theorem next_committed (rst : w.rst = false) (ready : s.tab.tocReady = false)
    (free : committed s = false)
    (after : committed (next w s) = true ∨ (next w s).tab.tocReady = true) :
    startsFetch s (next w s) = true := by
  by_cases rest : s.mst.acquiring = false
  · by_cases idle : s.mst = .idle
    · simp only [next, rst, idle, Bool.false_eq_true, if_false] at after
      exfalso
      revert after
      unfold stepIdle acquire
      dsimp only
      repeat' split
      all_goals simp [committed, MState.acquiring, ready, idle]
    · obtain ⟨tab, rest'⟩ := next_rest rst rest idle
      simp [committed, rest', tab, ready] at after
  · have req : s.mst = .acqReq ∧ s.blob.blobBlk = false := by
      simpa [committed, rest] using free
    revert after
    simp only [next, rst, req.1, Bool.false_eq_true, if_false]
    unfold stepAcqReq
    repeat' split
    all_goals simp [committed, startsFetch, MState.acquiring, ready, req]

/-- After a mount that is seen, a build has to fetch anew. -/
theorem next_of_receptive (pulse : w.imgMounted = true)
    (open_ : receptive w s = true)
    (after : committed (next w s) = true ∨ (next w s).tab.tocReady = true) :
    startsFetch s (next w s) = true := by
  cases rst : w.rst with
  | true =>
    simp only [next, rst, if_true] at after
    simp [committed, reset, MState.acquiring] at after
  | false =>
    simp only [receptive, rst, Bool.false_or, Bool.or_eq_true, Bool.and_eq_true, beq_iff_eq,
      Bool.not_eq_true'] at open_
    rcases open_ with ⟨idle, on⟩ | ⟨ready, free | ⟨req, off⟩⟩
    · simp only [next, rst, idle, stepIdle, pulse, on, acquire] at after
      simp [committed] at after
    · exact next_committed rst ready free after
    · simp only [next, rst, req, stepAcqReq, off] at after
      simp [committed, MState.acquiring, ready] at after

end Main

end CdAudio

end MacIIvi
