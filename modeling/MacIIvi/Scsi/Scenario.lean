import MacIIvi.Scsi.Session

/-!
# Scripted runs of a disk target

A script says what the initiator and the HPS do at each clock; everything else
of the run follows. A script that does nothing illegal gives a run from
power-up, so that a concrete behaviour can be computed.
-/

namespace MacIIvi

open Clocked

/-- What the environment decides in one clock. -/
structure Stimulus where
  rst : Bool := false
  sel : Bool := false
  ack : Bool := false
  din : Byte := 0
  imgMounted : Bool := false
  imgBlocks : Nat := 0
  dmaWord : Bool := false
  dmaLowByte : Byte := 0
  move : HpsMove := .wait

/-- The environment does nothing. -/
def silent : Stimulus := {}

/-- A script in run-length form. -/
abbrev Segments := List (Nat × Stimulus)

namespace Segments

/-- The stimulus of a clock; silence after the end. -/
def script : Segments → Nat → Stimulus
  | [], _ => silent
  | (n, x) :: rest, t => if t < n then x else script rest (t - n)

/-- Number of clocks. -/
def clocks : Segments → Nat
  | [] => 0
  | (n, _) :: rest => n + clocks rest

theorem script_end {xs : Segments} {t : Nat} (h : xs.clocks ≤ t) : xs.script t = silent := by
  induction xs generalizing t with
  | nil => rfl
  | cons x rest ih =>
    simp only [clocks] at h
    simp only [script]
    rw [if_neg (by omega)]
    exact ih (by omega)

/-- What holds of silence and of each segment holds at every clock. -/
theorem script_all {Q : Stimulus → Prop} (quiet : Q silent) {xs : Segments}
    (all : ∀ x ∈ xs, Q x.2) (t : Nat) : Q (xs.script t) := by
  induction xs generalizing t with
  | nil => exact quiet
  | cons x rest ih =>
    simp only [script]
    split
    · exact all x (by simp)
    · exact ih (fun y inside => all y (by simp [inside])) _

/-- One byte of a command or message handshake by the initiator. -/
def handshake (b : Byte) : Segments := [(2, { ack := true, din := b }), (2, silent)]

/-- Select the target and send a command. -/
def command (P : Params) (cdb : List Byte) : Segments :=
  [(1, { sel := true, din := BitVec.ofNat 8 (2 ^ P.id) }), (1, silent)] ++ cdb.flatMap handshake

/-- Mount an image of `n` sectors. -/
def mount (n : Nat) : Segments := [(1, { imgMounted := true, imgBlocks := n })]

/-- One HPS session of `n` words `d`: latched, acknowledged, streamed, ended. -/
def session (write : Bool) (n : Nat) (d : BitVec 16) : Segments :=
  [(1, { move := .latch write }), (1, { move := .raise }), (n, { move := .word d }),
    (1, { move := .drop })]

end Segments

/-! ### Long runs

A register that keeps its value is traced back, each time it is read, to the
clock that wrote it. Where a run is evaluated over many clocks, the registers read
in every clock are evaluated in every clock. -/

/-- The same target, with its lasting registers evaluated. -/
def Target.evaluated (s : Target) : Target :=
  { s with
    cmd := fun k => BitVec.ofNat 8 (s.cmd k).toNat, tlen := s.tlen + 0
    rdHpsBlk := s.rdHpsBlk + 0, mounted := s.mounted && true }

theorem Target.evaluated_eq (s : Target) : s.evaluated = s := by simp [evaluated]

/-- The same session; an idle slot is evaluated. -/
def HpsChan.evaluated : HpsChan → HpsChan
  | .idle => .idle
  | c => c

theorem HpsChan.evaluated_eq (c : HpsChan) : c.evaluated = c := by cases c <;> rfl

namespace Disk

variable (P : Params) (medium : Nat → Nat → BitVec 16)

/-- The snapshot of a system state under a stimulus. -/
def drive (x : Stimulus) (s : Disk) : Disk :=
  { s with
    inp :=
      { rst := x.rst, sel := x.sel, ack := x.ack, din := x.din
        imgMounted := x.imgMounted, imgBlocks := x.imgBlocks
        ioAck := s.hps.ack && s.tgt.bsy
        sdBuffAddr := s.hps.addr x.move
        sdBuffDout := s.hps.dout x.move
        sdBuffWr := s.hps.strobe x.move && s.tgt.bsy
        dmaWord := x.dmaWord, dmaLowByte := x.dmaLowByte }
    move := x.move }

/-- The state after a snapshot; the inputs are still those of the snapshot. -/
def advance (s : Disk) : Disk :=
  { s with
    tgt := s.tgt.step P s.inp
    hps := s.hps.next (s.tgt.hpsReq s.inp) s.move
    acked := s.ackedNext P
    granted := s.grantedNext P }

def boot : Disk :=
  { tgt := Target.powerUp P, inp := {}, hps := .idle, move := .wait, acked := 0, granted := 0 }

/-- The run a script produces. -/
def scripted (script : Nat → Stimulus) : Nat → Disk
  | 0 => drive (script 0) (boot P)
  | t + 1 => drive (script (t + 1)) (advance P (scripted script t))

/-- The stimulus respects the initiator's and the HPS's rules. -/
def legal (s : Disk) : Bool :=
  (s.tgt.phase == .idle || !s.rises ||
      (decide (s.acked < s.granted) && decide (s.acked < s.tgt.offered P))) &&
    (s.tgt.phase != .idle || !s.inp.sel || (!s.inp.ack && !s.tgt.oldAck)) &&
    s.hps.allows HpsChan.sectorWords (s.tgt.hpsReq s.inp) s.move &&
    match s.hps, s.move with
    | .reading lba w, .word d => d == medium lba w
    | _, _ => true

variable {P} {medium}

theorem legal_step {s s' : Disk} (x : Stimulus) (x' : Stimulus) (state : Disk)
    (here : s = drive x state) (next : s' = drive x' (advance P s))
    (ok : legal P medium s = true) : Step P medium s s' := by
  subst next
  simp only [legal, Bool.and_eq_true] at ok
  obtain ⟨⟨⟨offer, release⟩, allowed⟩, served⟩ := ok
  refine
    { initiator := ⟨?_, ?_⟩
      wired := by subst here; exact ⟨rfl, rfl, rfl, rfl, rfl⟩
      allowed := allowed
      served := ?_
      tgt := rfl, hps := rfl, acked := rfl, granted := rfl }
  · intro active rise
    simpa [active, rise] using offer
  · intro idle sel
    simpa [idle, sel] using release
  · cases hps : s.hps <;> cases move : s.move <;> simp [hps, move, HpsChan.Serves] at served ⊢
    exact served

/-- A script that stays silent after `last` only has to be checked up to there. -/
theorem silent_legal {state : Disk} : legal P medium (drive silent state) = true := by
  cases hps : state.hps <;> simp [legal, drive, silent, Bus.rises, hps, HpsChan.allows]

/-- The run of a legal script. -/
def ofScript (script : Nat → Stimulus) (ok : ∀ t, legal P medium (scripted P script t) = true) :
    Run (Step P medium) where
  state := scripted P script
  step t := by
    cases t with
    | zero => exact legal_step (script 0) (script 1) (boot P) rfl rfl (ok 0)
    | succ t =>
      exact legal_step (script (t + 1)) (script (t + 2)) (advance P (scripted P script t)) rfl rfl
        (ok (t + 1))

theorem boot_powerUp (script : Nat → Stimulus) : PowerUp P (scripted P script 0) :=
  ⟨rfl, rfl, rfl, rfl⟩

theorem segments_legal (xs : Segments)
    (ok : (List.range xs.clocks).all fun t => legal P medium (scripted P xs.script t))
    (t : Nat) : legal P medium (scripted P xs.script t) = true := by
  by_cases inside : t < xs.clocks
  · exact List.all_eq_true.mp ok t (List.mem_range.mpr inside)
  · have quiet : xs.script t = silent := Segments.script_end (by omega)
    cases t with
    | zero => rw [scripted, quiet]; exact silent_legal
    | succ t => rw [scripted, quiet]; exact silent_legal

/-! ### Evaluation in one pass -/

/-- The state of a long run, evaluated. -/
def evaluated (s : Disk) : Disk :=
  { s with
    tgt := s.tgt.evaluated, hps := s.hps.evaluated, acked := s.acked + 0, granted := s.granted + 0 }

theorem evaluated_eq (s : Disk) : s.evaluated = s := by
  simp [evaluated, Target.evaluated_eq, HpsChan.evaluated_eq]

/-- What one pass over a script checks holds at each clock. -/
theorem scripted_passes {script : Nat → Stimulus} {ok : Nat → Disk → Bool} {n : Nat}
    (pass : passes (fun t s => (drive (script (t + 1)) (advance P s)).evaluated) ok n 0
      (drive (script 0) (boot P)) = true) : ∀ t < n, ok t (scripted P script t) = true := by
  intro t inside
  have here := of_passes (scripted P script) (fun _ => (evaluated_eq _).symm) pass t inside
  rwa [Nat.zero_add] at here

end Disk

end MacIIvi
