import Mathlib.Data.List.GetD
import Mathlib.Data.List.Rotate
import Mathlib.Tactic.IntervalCases
import MacIIvi.Clocked.Run
import MacIIvi.Floppy.GcrTrack

/-!
# A revolution of the GCR track

The clocks of the drive around the generator: the enable is the edge of
`newByteReady`, so that the address register has settled when a byte is taken.
Over one revolution a reader finds every sector of the track once.
-/

namespace MacIIvi.Gcr

open Clocked

/-! ## Geometry -/

/-- The sectors of a track on one side, by zones of sixteen tracks. -/
def zoneSectors (track : Nat) : Nat := 12 - min (track / 16) 4

/-- The sectors of one side on all tracks before. -/
def sideSectors : Nat → Nat
  | 0 => 0
  | track + 1 => sideSectors track + zoneSectors track

/-- The sectors of all tracks and sides before. -/
def Surface.sectorsBefore (d : Surface) : Nat :=
  (if d.sides then 2 else 1) * sideSectors d.track.toNat +
    if d.side then zoneSectors d.track.toNat else 0

theorem spt_eq {track : BitVec 7} (onDisk : track.toNat < 80) :
    spt track = zoneSectors track.toNat := by
  have zone : track.toNat / 16 ≤ 4 := by omega
  unfold spt zoneSectors
  interval_cases track.toNat / 16 <;> rfl

theorem soff_eq : ∀ track : BitVec 7, track.toNat < 80 → soff track = sideSectors track.toNat := by
  decide +kernel

theorem sideSectors_le (track : Nat) : sideSectors track ≤ 12 * track := by
  induction track with
  | zero => exact Nat.le_refl 0
  | succ track ih =>
    unfold sideSectors zoneSectors
    omega

/-- The address register counts the sectors before. -/
theorem byteAt_eq (d : Surface) (onDisk : d.track.toNat < 80) {sector offset : Nat}
    (small : sector < 16) (inside : offset < 512) :
    d.byteAt sector offset = d.image ((d.sectorsBefore + sector) * 512 + offset) := by
  have bound := sideSectors_le d.track.toNat
  have zone : zoneSectors d.track.toNat ≤ 12 := Nat.sub_le _ _
  unfold Surface.byteAt addrNext Surface.sectorsBefore
  rw [spt_eq onDisk, soff_eq _ onDisk]
  simp only [cleared]
  congr 1
  cases d.sides <;> cases d.side <;> simp <;> omega

/-- The bytes of a sector in the image. -/
def Surface.sectorBytes (d : Surface) (sector : Nat) : List (BitVec 8) :=
  (List.range 512).map fun offset => d.image ((d.sectorsBefore + sector) * 512 + offset)

theorem payload_eq (d : Surface) (onDisk : d.track.toNat < 80) {sector : Nat} (small : sector < 16) :
    payload d sector = d.sectorBytes sector := by
  unfold payload Surface.sectorBytes
  apply List.map_congr_left
  intro offset inside
  exact byteAt_eq d onDisk small (List.mem_range.mp inside)

/-! ## The order of the sectors -/

/-- Every second sector, and then the others. -/
def interleave (n : Nat) : List Nat :=
  (List.range n).filter (· % 2 = 0) ++ (List.range n).filter (· % 2 = 1)

theorem spt_range (track : BitVec 7) : 8 ≤ spt track ∧ spt track ≤ 12 := by
  unfold spt
  split <;> decide

theorem interleave_perm (n : Nat) : (interleave n).Perm (List.range n) := by
  have odd : ((List.range n).filter (· % 2 = 1)) =
      (List.range n).filter fun k => ! decide (k % 2 = 0) := by
    apply List.filter_congr
    intro k _
    rcases Nat.mod_two_eq_zero_or_one k with h | h <;> simp [h]
  rw [interleave, odd]
  exact List.filter_append_perm _ _

/-- The sector that is `k` sectors after the first in the order. -/
def sectorAt (n k : Nat) : Nat := (interleave n).getD (k % n) 0

theorem nextSector_order : ∀ n ≤ 12, 8 ≤ n → ∀ k < n, sectorAt n k < 16 ∧
    (if sectorAt n k = n - 2 ∨ sectorAt n k = n - 1 then (sectorAt n k + 1) % 2
      else (sectorAt n k + 2) % 2 ^ 4) = sectorAt n (k + 1) := by
  decide +kernel

theorem sectorAt_add (n k : Nat) : sectorAt n (k % n + 1) = sectorAt n (k + 1) := by
  unfold sectorAt
  rw [Nat.mod_add_mod]

/-- The sector machine follows the order round and round. -/
theorem nextSector_sectorAt (track : BitVec 7) (k : Nat) :
    nextSector track (sectorAt (spt track) k) = sectorAt (spt track) (k + 1) := by
  obtain ⟨low, high⟩ := spt_range track
  have inside := Nat.mod_lt k (show 0 < spt track by omega)
  have order := (nextSector_order (spt track) high low (k % spt track) inside).2
  have same : sectorAt (spt track) (k % spt track) = sectorAt (spt track) k := by
    unfold sectorAt
    rw [Nat.mod_mod]
  rw [sectorAt_add, same] at order
  exact order

theorem sectorAt_small (track : BitVec 7) (k : Nat) : sectorAt (spt track) k < 16 := by
  obtain ⟨low, high⟩ := spt_range track
  have inside := Nat.mod_lt k (show 0 < spt track by omega)
  have small := (nextSector_order (spt track) high low (k % spt track) inside).1
  unfold sectorAt at small ⊢
  rwa [Nat.mod_mod] at small

/-- One revolution of the order from its place `k` on. -/
theorem map_sectorAt (n k : Nat) :
    ((List.range n).map fun j => sectorAt n (k + j)) = (interleave n).rotate k := by
  have length : (interleave n).length = n := by
    rw [(interleave_perm n).length_eq, List.length_range]
  apply List.ext_getElem
  · rw [List.length_map, List.length_range, List.length_rotate, length]
  · intro j hj _
    rw [List.length_map, List.length_range] at hj
    rw [List.getElem_map, List.getElem_range, List.getElem_rotate, sectorAt, List.getD_eq_getElem]
    · simp only [length, Nat.add_comm]
    · rw [length]
      exact Nat.mod_lt _ (by omega)

/-! ## A revolution of the stream -/

/-- A sector begins. -/
structure Begins (r : Regs) (sector : Nat) : Prop where
  state : r.state = .syn0
  count : r.count = 0
  sector : r.sector = sector
  srcOffset : r.srcOffset = 0

/-- The nibbles of a sector. -/
def sectorStream (d : Surface) (sector : Nat) : List (BitVec 8) :=
  sectorNibbles d sector (List.replicate 12 0 ++ payload d sector)

/-- Sector after sector, in the order. -/
theorem emits_order (d : Surface) {r : Regs} {k : Nat} (start : Begins r (sectorAt (spt d.track) k))
    (n : Nat) : ∃ r', Begins r' (sectorAt (spt d.track) (k + n)) ∧
      (stream d).Emits r
        ((List.range n).flatMap fun j => sectorStream d (sectorAt (spt d.track) (k + j))) r' := by
  induction n with
  | zero => exact ⟨r, start, Source.Emits.nil⟩
  | succ n ih =>
    obtain ⟨r', begins, front⟩ := ih
    have small := sectorAt_small d.track (k + n)
    obtain ⟨r'', state, count, sector, offset, last⟩ :=
      emits_sector d begins.state begins.count begins.srcOffset (by rwa [begins.sector])
    rw [begins.sector] at sector last
    rw [nextSector_sectorAt] at sector
    refine ⟨r'', ⟨state, count, sector, offset⟩, ?_⟩
    rw [List.range_succ, List.flatMap_append, List.flatMap_singleton]
    exact front.append last

/-- A reader finds the sectors in the order they are written in. -/
theorem scan_order (d : Surface) (sectors : List Nat) (small : ∀ s ∈ sectors, s < 16) :
    scan (sectors.flatMap (sectorStream d)) =
      sectors.flatMap fun s => foundSector d s (payload d s) := by
  induction sectors with
  | nil => rfl
  | cons s rest ih =>
    have full : (payload d s).length = 512 := by rw [payload, List.length_map, List.length_range]
    have here := scan_sectorNibbles d (small s (List.mem_cons_self ..)) full
      (rest.flatMap (sectorStream d))
    rw [List.flatMap_cons, List.flatMap_cons, sectorStream, here,
      ih fun s hs => small s (List.mem_cons_of_mem _ hs)]

theorem length_sectorStream (d : Surface) (sector : Nat) : (sectorStream d sector).length = 782 := by
  have full : (payload d sector).length = 512 := by
    rw [payload, List.length_map, List.length_range]
  simp only [sectorStream, sectorNibbles, dataField, addressField, List.length_append,
    List.length_replicate, List.length_map, List.length_cons, List.length_nil, Codes.SixTwo.length_pack,
    Codes.Autokey.length_encode, full]

/-! ## The clocks -/

/-- A drive: its surface, when `newByteReady` is high, and what stands on the
data bus when no byte is taken. -/
structure Drive extends Surface where
  newByteReady : Nat → Bool
  bus : Nat → BitVec 8

/-- The generator in the drive, with `old_newByteReady`. -/
structure Clock where
  old : Bool
  enc : State
  deriving DecidableEq, Repr

/-- `~old_newByteReady & newByteReady` -/
def Drive.ready (v : Drive) (t : Nat) (c : Clock) : Bool := !c.old && v.newByteReady t

/-- The inputs of a clock: an enabled encoder has the byte at `addr`. -/
def Drive.inputs (v : Drive) (t : Nat) (c : Clock) : Inputs where
  rst := false
  ready := v.ready t c
  side := v.side
  sides := v.sides
  track := v.track
  idata := if v.ready t c then v.image c.enc.addr else v.bus t

/-- The drive after `t` clocks. -/
def Drive.after (v : Drive) (c : Clock) : Nat → Clock
  | 0 => c
  | t + 1 => ⟨v.newByteReady t, step (v.after c t).enc (v.inputs t (v.after c t))⟩

/-- The nibble that is taken at a clock. -/
def Drive.taken (v : Drive) (c : Clock) (t : Nat) : Option (BitVec 8) :=
  if v.ready t (v.after c t) then
    some (odata (v.after c t).enc.regs (v.inputs t (v.after c t)))
  else none

/-- The nibbles of the first `t` clocks. -/
def Drive.delivered (v : Drive) (c : Clock) (t : Nat) : List (BitVec 8) := record (v.taken c) 0 t

/-- The nibbler has been reset if the data header is being written. -/
def HeaderReset (r : Regs) : Prop := r.state = .dhdr → nibblerReset r = r

theorem headerReset_entered (r : Regs) : HeaderReset (entered r) := by
  unfold HeaderReset entered
  split
  · exact fun _ => rfl
  · next other => exact fun state => absurd state other

theorem headerReset_step (r : Regs) (i : Inputs) : HeaderReset (stepRegs r i) :=
  headerReset_entered _

/-- A clock without an enable leaves the registers alone. -/
theorem stepRegs_idle {r : Regs} {i : Inputs} (reset : HeaderReset r) (running : i.rst = false)
    (idle : i.ready = false) : stepRegs r i = r := by
  unfold stepRegs
  rw [running, idle]
  simp only [Bool.false_eq_true, if_false]
  split
  · next header => exact reset header
  · rfl

/-- The data bus matters to a clock that strobes only. -/
theorem stepRegs_enable (d : Surface) {r : Regs} {b : BitVec 8}
    (fetched : strobe r = true → b = d.image (d.wanted r)) :
    stepRegs r (d.enable b) = (stream d).next r := by
  have same : advance r (d.enable b) = advance r (d.enable (d.image (d.wanted r))) := by
    unfold advance
    cases strobes : strobe r
    · rfl
    · rw [fetched strobes]
  change (if (advance r (d.enable b)).state = .dhdr then _ else _) = _
  rw [same]
  rfl

/-- What the clocks make of the stream. -/
structure Follows (v : Drive) (c : Clock) (t : Nat) : Prop where
  regs : (v.after c t).enc.regs = (stream v.toSurface).after (v.delivered c t).length c.enc.regs
  said : v.delivered c t = (stream v.toSurface).emitted (v.delivered c t).length c.enc.regs
  reset : HeaderReset (v.after c t).enc.regs
  settled : (v.after c t).old = false → strobe (v.after c t).enc.regs = true →
    (v.after c t).enc.addr = v.wanted (v.after c t).enc.regs

theorem follows_succ {v : Drive} {c : Clock} {t : Nat} (h : Follows v c t) :
    Follows v c (t + 1) := by
  have log : v.delivered c (t + 1) = v.delivered c t ++ (v.taken c t).toList :=
    record_succ (Nat.zero_le _)
  have address : (v.after c (t + 1)).enc.addr = v.wanted (v.after c t).enc.regs := rfl
  cases enabled : v.ready t (v.after c t)
  · have still : (v.after c (t + 1)).enc.regs = (v.after c t).enc.regs :=
      stepRegs_idle h.reset rfl enabled
    have none_ : v.taken c t = none := by rw [Drive.taken, enabled]; rfl
    rw [none_, Option.toList_none, List.append_nil] at log
    refine ⟨?_, ?_, ?_, ?_⟩
    · rw [still, log]
      exact h.regs
    · rw [log]
      exact h.said
    · rw [still]
      exact h.reset
    · intro _ _
      rw [address, still]
  · have low : (v.after c t).old = false := by
      simp [Drive.ready] at enabled
      exact enabled.1
    have high : v.newByteReady t = true := by
      simp [Drive.ready] at enabled
      exact enabled.2
    have inputs : v.inputs t (v.after c t) = v.enable (v.image (v.after c t).enc.addr) := by
      unfold Drive.inputs
      rw [enabled]
      rfl
    have next : (v.after c (t + 1)).enc.regs =
        (stream v.toSurface).next (v.after c t).enc.regs := by
      change stepRegs (v.after c t).enc.regs (v.inputs t (v.after c t)) = _
      rw [inputs]
      exact stepRegs_enable v.toSurface fun strobes => by rw [h.settled low strobes]
    have some_ : v.taken c t = some ((stream v.toSurface).out (v.after c t).enc.regs) := by
      rw [Drive.taken, enabled, inputs]
      rfl
    rw [some_, Option.toList_some] at log
    have length : (v.delivered c (t + 1)).length = (v.delivered c t).length + 1 := by
      rw [log, List.length_append]
      rfl
    refine ⟨?_, ?_, ?_, ?_⟩
    · rw [length, Source.after_succ, next, h.regs]
    · rw [length, Source.emitted_add, log, ← h.regs, ← h.said]
      rfl
    · exact headerReset_step _ _
    · intro old
      change v.newByteReady t = false at old
      rw [high] at old
      cases old

/-- From the start of a sector on, the drive delivers the stream. -/
theorem follows (v : Drive) {c : Clock} (start : c.enc.regs.state = .syn0) (t : Nat) :
    Follows v c t := by
  induction t with
  | zero =>
    refine ⟨rfl, rfl, ?_, ?_⟩
    · intro header
      change c.enc.regs.state = .dhdr at header
      rw [start] at header
      cases header
    · intro _ strobes
      change strobe c.enc.regs = true at strobes
      simp [strobe, start] at strobes
  | succ t ih => exact follows_succ ih

/-! ## The track is read back -/

/-- Over one revolution from the start of a sector, whenever the nibbles are
taken, a reader finds each sector of the track once, every second one first,
with its number, valid checksums, an empty tag and the bytes of the image. -/
theorem track_reads_back (v : Drive) (onDisk : v.track.toNat < 80) (c : Clock) (k : Nat)
    (start : Begins c.enc.regs (sectorAt (spt v.track) k)) (t : Nat)
    (revolution : spt v.track * 782 ≤ (v.delivered c t).length) :
    ((interleave (spt v.track)).rotate k).Perm (List.range (spt v.track)) ∧
    scan ((v.delivered c t).take (spt v.track * 782)) =
      ((interleave (spt v.track)).rotate k).flatMap fun sector =>
        foundSector v.toSurface sector (v.sectorBytes sector) := by
  refine ⟨(List.rotate_perm _ _).trans (interleave_perm _), ?_⟩
  obtain ⟨r', -, said, -⟩ := emits_order v.toSurface start (spt v.track)
  have written : ((List.range (spt v.track)).flatMap fun j =>
      sectorStream v.toSurface (sectorAt (spt v.track) (k + j))) =
      ((interleave (spt v.track)).rotate k).flatMap (sectorStream v.toSurface) := by
    rw [← map_sectorAt, List.flatMap_map]
  have length : (((interleave (spt v.track)).rotate k).flatMap (sectorStream v.toSurface)).length =
      spt v.track * 782 := by
    rw [← map_sectorAt]
    simp only [List.length_flatMap, length_sectorStream, List.map_const', List.length_map,
      List.length_range, List.sum_replicate_nat]
  have front : (v.delivered c t).take (spt v.track * 782) =
      ((interleave (spt v.track)).rotate k).flatMap (sectorStream v.toSurface) := by
    rw [written, length] at said
    obtain ⟨more, total⟩ := Nat.exists_eq_add_of_le revolution
    have follow := (follows v start.state t).said
    rw [follow, total, Source.emitted_add, said]
    exact List.take_left' length
  have small : ∀ s ∈ (interleave (spt v.track)).rotate k, s < 16 := by
    intro s hs
    rw [← map_sectorAt] at hs
    obtain ⟨j, -, rfl⟩ := List.mem_map.mp hs
    exact sectorAt_small v.track (k + j)
  rw [front, scan_order v.toSurface _ small]
  apply List.flatMap_congr
  intro s hs
  rw [payload_eq v.toSurface onDisk (small s hs)]

/-- A disk whose bytes count up, read at every second clock. -/
def countingDisk : Drive where
  image n := BitVec.ofNat 8 n
  track := 20
  side := true
  sides := true
  newByteReady t := t % 2 = 0
  bus _ := 0

/-- The generator out of reset. -/
def outOfReset : Clock where
  old := false
  enc := ⟨⟨.syn0, 0, 0, 0, 0, 0, false, 0, false, 0, 0, 0, 0, 0⟩, 0⟩

theorem delivered_countingDisk (n : Nat) :
    (countingDisk.delivered outOfReset (2 * n)).length = n := by
  induction n with
  | zero => rfl
  | succ n ih =>
    have old : (countingDisk.after outOfReset (2 * n)).old = false := by
      cases n with
      | zero => rfl
      | succ n =>
        have odd : (2 * n + 1) % 2 ≠ 0 := by omega
        exact decide_eq_false odd
    have even : countingDisk.newByteReady (2 * n) = true := decide_eq_true (by omega)
    have odd : countingDisk.newByteReady (2 * n + 1) = false := decide_eq_false (by omega)
    have first : (countingDisk.taken outOfReset (2 * n)).toList.length = 1 := by
      simp [Drive.taken, Drive.ready, old, even]
    have second : (countingDisk.taken outOfReset (2 * n + 1)).toList.length = 0 := by
      simp [Drive.taken, Drive.ready, odd]
    have twice : 2 * (n + 1) = 2 * n + 1 + 1 := by omega
    unfold Drive.delivered at ih ⊢
    rw [twice, record_succ (Nat.zero_le _), record_succ (Nat.zero_le _), List.length_append,
      List.length_append, ih, first, second]

theorem countingDisk_reads_back :
    ((interleave 11).rotate 0).Perm (List.range 11) ∧
    scan ((countingDisk.delivered outOfReset (2 * 8602)).take 8602) =
      ((interleave 11).rotate 0).flatMap fun sector =>
        foundSector countingDisk.toSurface sector (countingDisk.sectorBytes sector) :=
  track_reads_back countingDisk (by decide) outOfReset 0 ⟨rfl, rfl, rfl, rfl⟩ (2 * 8602)
    (by rw [delivered_countingDisk]; decide)

end MacIIvi.Gcr
