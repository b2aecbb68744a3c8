import MacIIvi.CdAudio.Coverage
import MacIIvi.CdAudio.Scenario

/-!
# Is the TOC that of the disc in the drive?

The engine rebuilds its tables when it sees a mount in its idle state, or when a
disc is mounted and no table is ready. Every item is stamped with the clock at
which the fetch of the blob it was built from began. If every mount arrives in a
state that sees it, the stamps of a ready TOC are later than all mounts. A mount
that arrives while a fetch or a build is under way is not seen.
-/

namespace MacIIvi

open Clocked CdAudio

namespace CdAudio

namespace Engine

/-- What an item holds, a table with the write its port still carries. -/
def value (e : Engine) : Item → Nat
  | .resp a => (e.main.tab.resp.land e.resp a).toNat
  | .t43 a => (e.main.tab.t43.land e.t43 a).toNat
  | .t2 a => (e.main.tab.t2.land e.t2 a).toNat
  | x => e.main.register x

theorem land_kept {p p' : PlanePort} {mem : Nat → Byte} {a : Nat} (none : ¬ p'.writes a) :
    p'.land (p.land mem) a = p.land mem a := by
  unfold PlanePort.land
  split
  · rename_i we
    have other : a ≠ p'.wa := fun same => none ⟨we, same.symm⟩
    exact Function.update_of_ne other _ _
  · rfl

/-- An item keeps its value unless it is assigned. -/
theorem value_kept {w : EngineIn} {e : Engine} (rst : w.rst = false) {x : Item}
    (none : ¬ e.main.assigns (e.step w).main x) : value (e.step w) x = value e x := by
  have main : (e.step w).main = e.main.next (mainIn w e) := rfl
  cases x with
  | resp a | t43 a | t2 a => exact congrArg BitVec.toNat (land_kept none)
  | _ => exact Main.register_kept (w := mainIn w e) rst none

end Engine

end CdAudio

namespace CdRom

variable {P : Params} {words : Nat → Nat}

/-- When the blob behind each item, and the last one asked for, began to be
fetched. -/
structure Stamps where
  fetched : Nat := 0
  item : Item → Nat := fun _ => 0

/-- The stamps after clock `t`. -/
def Stamps.next (t : Nat) (s s' : CdRom) (x : Stamps) : Stamps where
  fetched := if s.eng.main.startsFetch s'.eng.main then t + 1 else x.fetched
  item i := if s.sysRst = false ∧ s.eng.main.assigns s'.eng.main i then x.fetched else x.item i

def stamps (state : Nat → CdRom) : Nat → Stamps
  | 0 => {}
  | t + 1 => (stamps state t).next t (state t) (state (t + 1))

/-- The mount pulse of an image is up. -/
def mounting (s : CdRom) : Bool := s.inp.imgMounted && s.inp.imgBlocks != 0

/-- An image is mounted: its pulse comes up in this clock. -/
def mounts (state : Nat → CdRom) : Nat → Bool
  | 0 => (state 0).mounting
  | t + 1 => (state (t + 1)).mounting && !(state t).mounting

/-- Every item of the TOC was built from a blob that was asked for after every
mount so far. -/
def Fresh (state : Nat → CdRom) (t : Nat) : Prop :=
  ∀ u < t, mounts state u = true →
    ∀ x, (state t).eng.main.tab.has x → u < (stamps state t).item x

/-- A mount that arrives now is seen. -/
def receptive (s : CdRom) : Bool := s.eng.main.receptive (s.eng.mainIn s.engineIn)

/-- The items assigned by a live build carry the stamp of its blob, and no mount
came after the fetch of that blob. -/
structure Traced (state : Nat → CdRom) (t : Nat) : Prop where
  inTable : (state t).eng.main.InTable
  stamp : (state t).eng.main.live → ∀ x, (state t).eng.main.assigned x →
    (stamps state t).item x = (stamps state t).fetched
  latest : (state t).eng.main.committed = true ∨ (state t).eng.main.tab.tocReady = true →
    ∀ u < t, mounts state u = true → u < (stamps state t).fetched

variable {r : Run (Step P words)}

theorem Traced.init (boot : PowerUp P (r.state 0)) : Traced r.state 0 where
  inTable := by
    rw [boot.eng]
    exact ⟨Nat.le_refl 1, fun _ => rfl, trivial⟩
  stamp := by
    intro _ x _
    rfl
  latest := by
    intro _ u before
    exact absurd before (Nat.not_lt_zero u)

theorem mounts_pulse {state : Nat → CdRom} {t : Nat} (now : mounts state t = true) :
    (state t).inp.imgMounted = true := by
  cases t <;> simp only [mounts, mounting, Bool.and_eq_true] at now
  · exact now.1
  · exact now.1.1

theorem Traced.step {t : Nat} (traced : Traced r.state t)
    (seen : mounts r.state t = true → receptive (r.state t) = true) : Traced r.state (t + 1) := by
  obtain ⟨inTable, stamp, latest⟩ := traced
  have main : (r.state (t + 1)).eng.main =
      (r.state t).eng.main.next ((r.state t).eng.mainIn (r.state t).engineIn) := by
    rw [(r.step t).eng]; rfl
  have move := Main.next_advances (w := (r.state t).eng.mainIn (r.state t).engineIn) inTable
  rw [← main] at move
  constructor
  · exact move.inTable
  · intro alive x held
    have on : (r.state t).sysRst = false := by
      by_contra off
      have off : ((r.state t).eng.mainIn (r.state t).engineIn).rst = true := by
        simpa [Engine.mainIn, engineIn] using off
      simp [Main.live, main, Main.next, off, Main.reset, MState.acquiring] at alive
    simp only [stamps, Stamps.next, on, true_and]
    cases start : (r.state t).eng.main.startsFetch (r.state (t + 1)).eng.main with
    | true =>
      -- nothing is assigned while a request for a new blob comes up
      exfalso
      simp only [Main.startsFetch, Bool.and_eq_true, beq_iff_eq] at start
      cases x <;> simp [Main.assigned, Main.respTo, Main.t43To, Main.t2Done, Main.headerFrom,
        MState.acquiring, start.2] at held
    | false =>
      simp only [Bool.false_eq_true, if_false]
      split
      · rfl
      · rcases move.items x alive held with ⟨before, had⟩ | now
        · exact stamp before x had
        · contradiction
  · intro after u before mount
    rw [main] at after
    simp only [stamps, Stamps.next]
    split
    · omega
    · rename_i none
      rw [main] at none
      have notNow : u ≠ t := by
        rintro rfl
        exact none (Main.next_of_receptive (mounts_pulse mount) (seen mount) after)
      apply latest ?_ u (by omega) mount
      by_contra neither
      simp only [not_or, Bool.not_eq_true] at neither
      cases rst : ((r.state t).eng.mainIn (r.state t).engineIn).rst with
      | true => simp [Main.next, rst, Main.reset, Main.committed, MState.acquiring] at after
      | false => exact none (Main.next_committed rst neither.2 neither.1 after)

theorem traced_of_run (r : Run (Step P words)) (boot : PowerUp P (r.state 0)) (t : Nat)
    (seen : ∀ u < t, mounts r.state u = true → receptive (r.state u) = true) :
    Traced r.state t := by
  induction t with
  | zero => exact .init boot
  | succ t ih =>
    have before := ih fun u early => seen u (by omega)
    exact before.step (seen t (by omega))

/-- As long as every mount arrives in a state that sees it, a TOC that is ready is
the one of the disc mounted last, whether the disc is still there or not. -/
theorem toc_fresh (r : Run (Step P words)) (boot : PowerUp P (r.state 0)) (t : Nat)
    (seen : ∀ u < t, mounts r.state u = true → receptive (r.state u) = true)
    (ready : (r.state t).eng.main.tab.tocReady = true) : Fresh r.state t := by
  have traced := traced_of_run r boot t seen
  have rest : (r.state t).eng.main.mst.acquiring = false := by
    by_contra acq
    have := traced.inTable.unready (by simpa using acq)
    simp [ready] at this
  intro u before mount x has
  rw [traced.stamp (.inr ready) x ((Main.assigned_rest rest x).mpr has)]
  exact traced.latest (.inr ready) u before mount

/-- No stamp is later than the last fetch. -/
theorem stamps_le (state : Nat → CdRom) {t n : Nat}
    (none : ∀ u < t, (state u).eng.main.startsFetch (state (u + 1)).eng.main = true → u < n) :
    (stamps state t).fetched ≤ n ∧ ∀ x, (stamps state t).item x ≤ n := by
  induction t with
  | zero => exact ⟨Nat.zero_le n, fun _ => Nat.zero_le n⟩
  | succ t ih =>
    obtain ⟨fetched, item⟩ := ih fun u early => none u (by omega)
    constructor
    · simp only [stamps, Stamps.next]
      split
      · exact none t (by omega) ‹_›
      · exact fetched
    · intro x
      simp only [stamps, Stamps.next]
      split
      · exact fetched
      · exact item x

/-! ### A disc change the engine does not see -/

/-- A disc is mounted and its TOC is built; the guest ejects it with START/STOP
UNIT, and the pulse of the next disc is one clock long. -/
def discChange : Segments :=
  Segments.mount 4096 ++ [(2, silent)] ++ Segments.session false 256 0 ++ [(2, silent)] ++
    Segments.session false 256 0 ++ [(681, silent)] ++
    Segments.command Params.cdromTarget [0x1b, 0, 0, 0, 2, 0] ++ [(4, silent)] ++
    Segments.mount 8192

/-- The states of that script. -/
def changed : Nat → CdRom := scripted Params.cdromTarget discChange.script

/-- What the script does, by evaluation: it is legal, the only blob fetch begins at
clock 3, the TOC is ready at 1229, and the second disc is mounted at 1234. -/
theorem changed_facts :
    ((List.range 1235).all fun t =>
        legal Params.cdromTarget HpsChan.sectorWords (changed t) &&
          (mounting (changed t) == (t == 0 || t == 1234)) &&
          ((changed t).eng.main.startsFetch (changed (t + 1)).eng.main == (t == 2))) = true ∧
      discChange.clocks = 1235 ∧
      receptive (changed 0) = true ∧
      ((changed 1229).tgt.mounted = true ∧ (changed 1229).eng.main.tab.tocReady = true) ∧
      (changed 1235).tgt.mounted = true ∧ (changed 1235).eng.main.tab.tocReady = true := by
  decide +kernel

def changedRun : Run (Step Params.cdromTarget HpsChan.sectorWords) :=
  ofScript discChange.script <| segments_legal discChange <| by
    rw [changed_facts.2.1]
    refine List.all_eq_true.mpr fun t inside => ?_
    have here := List.all_eq_true.mp changed_facts.1 t inside
    simp only [Bool.and_eq_true] at here
    exact here.1.1

theorem changedRun_state : changedRun.state = changed := rfl

theorem changed_at {t : Nat} (before : t < 1235) :
    mounting (changed t) = (t == 0 || t == 1234) ∧
      (changed t).eng.main.startsFetch (changed (t + 1)).eng.main = (t == 2) := by
  have here := List.all_eq_true.mp changed_facts.1 t (List.mem_range.mpr before)
  simp only [Bool.and_eq_true, beq_iff_eq] at here
  exact ⟨here.1.2, here.2⟩

/-- The theorem at this run: the first TOC is that of the first disc. -/
theorem toc_fresh_first : Fresh changedRun.state 1229 := by
  obtain ⟨-, -, open_, ⟨-, ready⟩, -⟩ := changed_facts
  rw [← changedRun_state] at ready
  refine toc_fresh changedRun (boot_powerUp _) 1229 (fun u before now => ?_) ready
  have pulse : mounting (changed u) = true := by
    cases u with
    | zero => exact now
    | succ u =>
      have now : (mounting (changed (u + 1)) && !mounting (changed u)) = true := now
      simp only [Bool.and_eq_true] at now
      exact now.1
  rw [(changed_at (by omega)).1] at pulse
  have first : u = 0 := by
    simp only [Bool.or_eq_true, beq_iff_eq] at pulse
    omega
  subst first
  exact open_

/-- One clock after the second mount a disc is mounted and the TOC is ready, built
from a blob that was asked for 1231 clocks before that mount. -/
theorem toc_not_fresh :
    PowerUp Params.cdromTarget (changedRun.state 0) ∧
      mounts changedRun.state 1234 = true ∧ (changedRun.state 1235).tgt.mounted = true ∧
      (changedRun.state 1235).eng.main.tab.tocReady = true ∧ ¬ Fresh changedRun.state 1235 := by
  obtain ⟨-, -, -, -, mounted, ready⟩ := changed_facts
  have mount : mounts changedRun.state 1234 = true := by
    have up : mounting (changed 1234) = true := (changed_at (t := 1234) (by omega)).1
    have low : mounting (changed 1233) = false := (changed_at (t := 1233) (by omega)).1
    rw [changedRun_state]
    simp [mounts, up, low]
  rw [← changedRun_state] at mounted ready
  refine ⟨boot_powerUp _, mount, mounted, ready, fun fresh => ?_⟩
  have late : 1234 < (stamps changedRun.state 1235).item .nTracks :=
    fresh 1234 (by omega) mount .nTracks trivial
  have early := (stamps_le changedRun.state (t := 1235) (n := 3) fun u before start => by
    have here : (changed u).eng.main.startsFetch (changed (u + 1)).eng.main = true := start
    rw [(changed_at before).2] at here
    have : u = 2 := by simpa using here
    omega).2 .nTracks
  omega

end CdRom

end MacIIvi
