import MacIIvi.Video.Ramdac

/-!
# The palette controller as a register file

The registers as the software knows them, and the accesses of the bus that reach them.
-/

namespace MacIIvi

open Ramdac (Register)

/-! ## The reference -/

inductive Component where
  | red | green | blue
  deriving DecidableEq, Repr

/-- The registers: a current entry with its current component, and the palette. -/
structure ClutFile where
  addr : Ramdac.Byte
  comp : Component
  palette : Ramdac.Byte → Component → Ramdac.Byte
  ctrl : Ramdac.Byte
  keyColor : Ramdac.Byte

/-- A read or write of a register. -/
structure DacOp where
  reg : Register
  write : Bool
  data : Ramdac.Byte

namespace ClutFile

variable (f : ClutFile) (op : DacOp)

def advance : ClutFile :=
  match f.comp with
  | .red => { f with comp := .green }
  | .green => { f with comp := .blue }
  | .blue => { f with comp := .red, addr := f.addr + 1 }

/-- The current component of the current entry is replaced. -/
def put (data : Ramdac.Byte) : ClutFile :=
  { f with
    palette :=
      Function.update f.palette f.addr (Function.update (f.palette f.addr) f.comp data) }

def value : Register → Ramdac.Byte
  | .addr => f.addr
  | .palette => f.palette f.addr f.comp
  | .ctrl => f.ctrl
  | .keyColor => f.keyColor

def apply : ClutFile :=
  match op.reg with
  | .addr => { f with addr := if op.write then op.data else f.addr, comp := .red }
  | .palette => if op.write then (f.put op.data).advance else f.advance
  | .ctrl => if op.write then { f with ctrl := op.data } else f
  | .keyColor => if op.write then { f with keyColor := op.data } else f

def run (f : ClutFile) (l : List DacOp) : ClutFile := l.foldl apply f

/-- What the reads of a sequence return. -/
def answers (f : ClutFile) : List DacOp → List Ramdac.Byte
  | [] => []
  | op :: l => if op.write then answers (f.apply op) l else f.value op.reg :: answers (f.apply op) l

end ClutFile

def Component.code : Component → BitVec 2
  | .red => 0
  | .green => 1
  | .blue => 2

/-! ## The bus -/

/-- A clock of an access with a data strobe, in a slot of the CPU. -/
def DacIn.strobe (w : DacIn) : Bool := w.req && w.memLatch && (!w.udsN || !w.ldsN)

/-- One access: the clocks since the one before, and those that the address strobe is held
for, with a data strobe in one of them. -/
structure DacAccess where
  op : DacOp
  between : List DacIn
  held : List DacIn
  quiet : ∀ w ∈ between, w.reset = false ∧ w.req = false
  apart : 4 ≤ between.length
  released : ∃ w ∈ between, w.cpuAsN = true
  low : ∀ w ∈ held, w.reset = false ∧ w.cpuAsN = false
  stable : ∀ w ∈ held, w.strobe = true →
    Ramdac.byteReg w = op.reg ∧ w.we = op.write ∧ w.dataIn = op.data
  strobed : ∃ w ∈ held, w.strobe = true

def DacAccess.clocks (a : DacAccess) : List DacIn := a.between ++ a.held

/-- A reset and the clocks of the initialisation. -/
structure DacBoot where
  first : DacIn
  init : List DacIn
  resets : first.reset = true
  goes : ∀ w ∈ init, w.reset = false
  whole : init.length = 256

def DacBoot.clocks (b : DacBoot) : List DacIn := b.first :: b.init

namespace Ramdac

/-- What the CPU finds at the end of each read access. -/
def answers (s : Ramdac) : List DacAccess → List Byte
  | [] => []
  | a :: l =>
    let n := s.run a.clocks
    if a.op.write then answers n l else n.dataOut :: answers n l

/-- The registers hold what the reference holds. -/
structure Shows (s : Ramdac) (f : ClutFile) : Prop where
  addr : s.paletteAddr = f.addr
  comp : s.colorComp = f.comp.code
  palette : ∀ i c, getComp c.code (s.palette i) = f.palette i c
  ctrl : s.controlReg = f.ctrl
  keyColor : s.keyColor = f.keyColor

/-- The latch has the current entry, or will have it after so many clocks. -/
def Refilled (s : Ramdac) : Nat → Prop
  | 0 => s.latchRdPend = false ∧ s.latchRdStage = false ∧ s.paletteLatch = s.palette s.paletteAddr
  | 1 => s.latchRdPend = false ∧ s.latchRdStage = true ∧ s.palAQ = s.palette s.paletteAddr
  | _ => s.latchRdPend = true ∧ s.latchRdStage = false ∧ s.latchRdAddr = s.paletteAddr

/-- The registers between two accesses. -/
structure Serves (s : Ramdac) (f : ClutFile) : Prop where
  shows : s.Shows f
  running : s.initActive = false
  refilled : ∃ n ≤ 2, s.Refilled n

end Ramdac

/-- The registers after the initialisation. -/
def ClutFile.initial : ClutFile where
  addr := 0
  comp := .red
  palette i c := Ramdac.getComp c.code (Ramdac.ramp i)
  ctrl := 0
  keyColor := 0

namespace Ramdac

variable {s : Ramdac} {f : ClutFile} {w : DacIn}

/-! ## The components of an entry -/

theorem getComp_setComp (c e : Component) (d : Byte) (x : BitVec 24) :
    getComp c.code (setComp e.code d x) = if c = e then d else getComp c.code x := by
  apply BitVec.eq_of_getLsbD_eq
  intro i low
  cases c <;> cases e <;> simp [getComp, setComp, Component.code, low] <;> grind

/-! ## A clock without an access -/

theorem palAWe_off (running : s.initActive = false) (off : s.palACpuWr w = false) :
    s.palAWe w = false := by
  rw [palAWe, running, off, Bool.or_false]

theorem palAAddr_off (running : s.initActive = false) (off : s.palACpuWr w = false) :
    s.palAAddr w = s.latchRdAddr := by
  rw [palAAddr, running, off, if_neg Bool.false_ne_true, if_neg Bool.false_ne_true]

theorem refill_off (running : s.initActive = false) (off : s.palACpuWr w = false) :
    s.refill w =
      if s.latchRdStage then { s with paletteLatch := s.palAQ, latchRdStage := false }
      else if s.latchRdPend then { s with latchRdStage := true, latchRdPend := false }
      else s := by
  rw [refill, palAWe_off running off, Bool.not_false, Bool.and_true]

theorem palACpuWr_quiet (off : s.reqStb w = false) : s.palACpuWr w = false := by
  rw [palACpuWr, off, Bool.false_and, Bool.false_and]

section Quiet

variable (live : w.reset = false) (running : s.initActive = false) (off : s.reqStb w = false)

include live running off

theorem registers_quiet : s.registers w = s.refill w := by
  simp [registers, live, running, off]

theorem next_quiet : s.next w =
    { s.refill w with arielArmed := s.armedNext w, palAQ := s.palette s.latchRdAddr } := by
  rw [next, registers_quiet live running off, palAWe_off running (palACpuWr_quiet off),
    palAAddr_off running (palACpuWr_quiet off), if_neg Bool.false_ne_true]
  unfold refill
  split
  · rfl
  · split <;> rfl

/-- The refill comes a clock nearer. -/
theorem refilled_quiet {n : Nat} (refilled : s.Refilled n) (within : n ≤ 2) :
    (s.next w).Refilled (n - 1) := by
  rw [next_quiet live running off, refill_off running (palACpuWr_quiet off)]
  match n with
  | 0 =>
    obtain ⟨pend, stage, latch⟩ := refilled
    simp [Refilled, pend, stage, latch]
  | 1 =>
    obtain ⟨pend, stage, word⟩ := refilled
    simp [Refilled, pend, stage, word]
  | 2 =>
    obtain ⟨pend, stage, addr⟩ := refilled
    simp [Refilled, pend, stage, addr]
  | n + 3 => omega

theorem shows_quiet (shows : s.Shows f) : (s.next w).Shows f := by
  obtain ⟨addr, comp, palette, ctrl, keyColor⟩ := shows
  rw [next_quiet live running off, refill_off running (palACpuWr_quiet off)]
  split
  · exact ⟨addr, comp, palette, ctrl, keyColor⟩
  · split <;> exact ⟨addr, comp, palette, ctrl, keyColor⟩

theorem running_quiet : (s.next w).initActive = false := by
  rw [next_quiet live running off, refill_off running (palACpuWr_quiet off)]
  split
  · exact running
  · split <;> exact running

theorem dataOut_quiet : (s.next w).dataOut = s.dataOut := by
  rw [next_quiet live running off, refill_off running (palACpuWr_quiet off)]
  split
  · rfl
  · split <;> rfl

end Quiet

/-! ## The strobe of an access -/

theorem advance_shows (shows : s.Shows f) : s.advance.Shows f.advance := by
  obtain ⟨addr, comp, palette, ctrl, keyColor⟩ := shows
  cases current : f.comp with
  | red =>
    have first : s.colorComp = 0 := comp.trans (by rw [current]; rfl)
    constructor <;> simp_all [advance, ClutFile.advance, Component.code]
  | green =>
    have second : s.colorComp = 1 := comp.trans (by rw [current]; rfl)
    constructor <;> simp_all [advance, ClutFile.advance, Component.code]
  | blue =>
    have last : s.colorComp = 2 := comp.trans (by rw [current]; rfl)
    constructor <;> simp_all [advance, ClutFile.advance, Component.code]

theorem advance_refilled (refilled : s.Refilled 0) : ∃ n ≤ 2, s.advance.Refilled n := by
  obtain ⟨pend, stage, latch⟩ := refilled
  unfold advance
  split
  · exact ⟨2, Nat.le_refl 2, rfl, stage, rfl⟩
  · exact ⟨0, Nat.zero_le 2, pend, stage, latch⟩

/-- One component of the current entry changes. -/
theorem put_shows (shows : s.Shows f) (d : Byte) {n : Ramdac}
    (word : n.palette = Function.update s.palette s.paletteAddr
      (setComp s.colorComp d (s.palette s.paletteAddr)))
    (same : n.paletteAddr = s.paletteAddr ∧ n.colorComp = s.colorComp ∧
      n.controlReg = s.controlReg ∧ n.keyColor = s.keyColor) : n.Shows (f.put d) := by
  obtain ⟨addr, comp, palette, ctrl, keyColor⟩ := shows
  obtain ⟨sameAddr, sameComp, sameCtrl, sameKey⟩ := same
  refine ⟨sameAddr.trans addr, sameComp.trans comp, fun i c => ?_, sameCtrl.trans ctrl,
    sameKey.trans keyColor⟩
  rw [word, addr, comp]
  by_cases here : i = f.addr
  · subst here
    by_cases this : c = f.comp
    · simp [ClutFile.put, this, getComp_setComp]
    · simp [ClutFile.put, this, getComp_setComp, palette]
  · simp [ClutFile.put, here, palette]

theorem refill_ready (refilled : s.Refilled 0) : s.refill w = s := by
  obtain ⟨pend, stage, -⟩ := refilled
  simp [refill, pend, stage]

section Strobe

variable (live : w.reset = false) (running : s.initActive = false) (on : s.reqStb w = true)
  (refilled : s.Refilled 0)

include live running on refilled

theorem registers_strobe : s.registers w =
    if w.we then { write w s with arielWritten := true } else s.read w s := by
  rw [registers, live, running, on, refill_ready refilled]
  rfl

/-- A palette write. -/
theorem next_put (shows : s.Shows f) (dir : w.we = true) (reg : byteReg w = .palette) :
    s.next w = ({ s with
      paletteLatch := setComp s.colorComp w.dataIn s.paletteLatch
      palette := Function.update s.palette s.paletteAddr
        (setComp s.colorComp w.dataIn s.paletteLatch)
      palAQ := s.palette s.paletteAddr
      arielWritten := true
      arielArmed := s.armedNext w } : Ramdac).advance := by
  have wr : s.palACpuWr w = true := by simp [palACpuWr, on, dir, reg]
  have three : s.colorComp ≠ 3 := by
    rw [shows.comp]
    cases f.comp <;> decide
  have port : s.palAWe w = true := by simp [palAWe, wr]
  have addr : s.palAAddr w = s.paletteAddr := by simp [palAAddr, wr, running]
  have data : s.palAWdata w = setComp s.colorComp w.dataIn s.paletteLatch := by
    rw [palAWdata, running, if_neg Bool.false_ne_true, if_neg three]
  rw [next, registers_strobe live running on refilled, if_pos dir, port, if_pos rfl, addr, data]
  simp only [write, reg, advance]
  split <;> rfl

/-- A palette read. -/
theorem next_get (dir : w.we = false) (reg : byteReg w = .palette) :
    s.next w = ({ s with
      dataOut := getComp s.colorComp s.paletteLatch
      palAQ := s.palette s.latchRdAddr
      arielArmed := s.armedNext w } : Ramdac).advance := by
  have wr : s.palACpuWr w = false := by simp [palACpuWr, dir]
  rw [next, registers_strobe live running on refilled, dir, palAWe_off running wr,
    palAAddr_off running wr]
  simp only [Bool.false_eq_true, if_false, read, reg, advance]
  split <;> rfl

/-- The other registers. -/
theorem next_plain (reg : byteReg w ≠ .palette) :
    s.next w = { (if w.we then { write w s with arielWritten := true } else s.read w s) with
      arielArmed := s.armedNext w, palette := s.palette, palAQ := s.palette s.latchRdAddr } := by
  have wr : s.palACpuWr w = false := by simp [palACpuWr, reg]
  rw [next, registers_strobe live running on refilled, palAWe_off running wr,
    palAAddr_off running wr, if_neg Bool.false_ne_true]

variable (shows : s.Shows f) {op : DacOp} (reg : byteReg w = op.reg) (dir : w.we = op.write)
  (data : w.dataIn = op.data)

include shows reg dir data

theorem serves_palette (which : op.reg = .palette) :
    (s.next w).Serves (f.apply op) ∧
      (op.write = false → (s.next w).dataOut = f.value op.reg) := by
  have latch : s.paletteLatch = s.palette s.paletteAddr := refilled.2.2
  have goesOn : ∀ {n : Ramdac}, n.initActive = false → n.advance.initActive = false := by
    intro n running
    unfold advance
    split <;> exact running
  cases wr : op.write with
  | true =>
    refine ⟨?_, fun read => absurd read.symm Bool.false_ne_true⟩
    have apply_ : f.apply op = (f.put op.data).advance := by simp [ClutFile.apply, which, wr]
    rw [next_put live running on refilled shows (dir.trans wr) (reg.trans which), apply_]
    refine ⟨advance_shows (put_shows shows op.data ?_ ⟨rfl, rfl, rfl, rfl⟩), goesOn running,
      advance_refilled ⟨refilled.1, refilled.2.1, ?_⟩⟩
    · rw [← latch, ← data]
    · change setComp s.colorComp w.dataIn s.paletteLatch = Function.update s.palette
        s.paletteAddr (setComp s.colorComp w.dataIn s.paletteLatch) s.paletteAddr
      rw [Function.update_self]
  | false =>
    have apply_ : f.apply op = f.advance := by simp [ClutFile.apply, which, wr]
    rw [next_get live running on refilled (dir.trans wr) (reg.trans which), apply_]
    refine ⟨⟨advance_shows ?_, goesOn running, advance_refilled refilled⟩, fun _ => ?_⟩
    · exact ⟨shows.addr, shows.comp, shows.palette, shows.ctrl, shows.keyColor⟩
    · have value : getComp s.colorComp s.paletteLatch = f.value op.reg := by
        rw [latch, shows.addr, shows.comp, shows.palette, which]
        rfl
      rw [← value]
      unfold advance
      split <;> rfl

theorem serves_addr (which : op.reg = .addr) :
    (s.next w).Serves (f.apply op) ∧
      (op.write = false → (s.next w).dataOut = f.value op.reg) := by
  have byte : byteReg w = .addr := reg.trans which
  have first : Component.code .red = 0 := rfl
  obtain ⟨addr, comp, entries, ctrl, keyColor⟩ := shows
  rw [next_plain live running on refilled (by simp [byte]), dir]
  cases wr : op.write with
  | true =>
    refine ⟨⟨?_, ?_, 2, Nat.le_refl 2, ?_⟩, fun read => absurd read.symm Bool.false_ne_true⟩
    · constructor <;>
        simp [write, byte, ClutFile.apply, which, wr, data, entries, ctrl, keyColor, first]
    · simp [write, byte, running]
    · simp [Refilled, write, byte, refilled.2.1]
  | false =>
    refine ⟨⟨?_, ?_, 0, Nat.zero_le 2, ?_⟩, fun _ => ?_⟩
    · constructor <;>
        simp [read, byte, ClutFile.apply, which, wr, addr, entries, ctrl, keyColor, first]
    · simp [read, byte, running]
    · simpa [Refilled, read, byte] using refilled
    · simp [read, byte, ClutFile.value, which, addr]

/-- The control register and the key colour leave the palette alone. -/
theorem serves_plain (which : op.reg = .ctrl ∨ op.reg = .keyColor) :
    (s.next w).Serves (f.apply op) ∧
      (op.write = false → (s.next w).dataOut = f.value op.reg) := by
  obtain ⟨addr, comp, entries, ctrl, keyColor⟩ := shows
  rcases which with which | which
  all_goals
    have byte := reg.trans which
    rw [next_plain live running on refilled (by simp [byte]), dir]
    refine ⟨⟨?_, ?_, 0, Nat.zero_le 2, ?_⟩, fun dir => ?_⟩
    · constructor <;> cases wr : op.write <;>
        simp [write, read, byte, ClutFile.apply, which, wr, data, addr, comp, entries, ctrl, keyColor]
    · cases op.write <;> simp [write, read, byte, running]
    · cases op.write <;> simpa [Refilled, write, read, byte] using refilled
    · simp [dir, read, byte, ClutFile.value, which, ctrl, keyColor]

/-- The strobe of an access is one operation on the registers. -/
theorem serves_strobe :
    (s.next w).Serves (f.apply op) ∧
      (op.write = false → (s.next w).dataOut = f.value op.reg) := by
  cases which : op.reg with
  | palette =>
    rw [← which]
    exact serves_palette live running on refilled shows reg dir data which
  | addr =>
    rw [← which]
    exact serves_addr live running on refilled shows reg dir data which
  | ctrl =>
    rw [← which]
    exact serves_plain live running on refilled shows reg dir data (.inl which)
  | keyColor =>
    rw [← which]
    exact serves_plain live running on refilled shows reg dir data (.inr which)

end Strobe

/-! ## The clocks of an access -/

section Clocks

variable {l : List DacIn}

@[simp] theorem run_nil : s.run [] = s := rfl

@[simp] theorem run_cons : s.run (w :: l) = (s.next w).run l := rfl

@[simp] theorem run_append (l m : List DacIn) : s.run (l ++ m) = (s.run l).run m :=
  List.foldl_append

theorem reqStb_eq : s.reqStb w = (s.arielArmed && w.strobe) := by
  simp [reqStb, DacIn.strobe, Bool.and_assoc]

theorem armed_quiet (live : w.reset = false) (off : s.reqStb w = false) :
    (s.next w).arielArmed = (w.cpuAsN || s.arielArmed) := by
  change s.armedNext w = _
  cases up : w.cpuAsN <;> simp [armedNext, live, off, up]

theorem Serves.quiet (serves : s.Serves f) (live : w.reset = false) (off : s.reqStb w = false) :
    (s.next w).Serves f := by
  obtain ⟨shows, running, n, within, refilled⟩ := serves
  exact ⟨shows_quiet live running off shows, running_quiet live running off,
    n - 1, by omega, refilled_quiet live running off refilled within⟩

section Between

variable (quiet : ∀ w ∈ l, w.reset = false ∧ w.req = false)

include quiet

theorem between_serves (serves : s.Serves f) : (s.run l).Serves f := by
  induction l generalizing s with
  | nil => exact serves
  | cons w l ih =>
    obtain ⟨live, req⟩ := quiet w (List.mem_cons_self ..)
    have off : s.reqStb w = false := by simp [reqStb, req]
    exact ih (fun w at_ => quiet w (List.mem_cons_of_mem _ at_)) (serves.quiet live off)

theorem between_refilled {n : Nat} (running : s.initActive = false) (within : n ≤ 2)
    (refilled : s.Refilled n) : (s.run l).Refilled (n - l.length) := by
  induction l generalizing s n with
  | nil => exact refilled
  | cons w l ih =>
    obtain ⟨live, req⟩ := quiet w (List.mem_cons_self ..)
    have off : s.reqStb w = false := by simp [reqStb, req]
    have rest := ih (fun w at_ => quiet w (List.mem_cons_of_mem _ at_))
      (running_quiet live running off) (by omega : n - 1 ≤ 2)
      (refilled_quiet live running off refilled within)
    rw [List.length_cons, Nat.add_comm, ← Nat.sub_sub]
    exact rest

/-- The one-shot is armed once the address strobe has been released. -/
theorem between_armed (released : s.arielArmed = true ∨ ∃ w ∈ l, w.cpuAsN = true) :
    (s.run l).arielArmed = true := by
  induction l generalizing s with
  | nil =>
    rcases released with armed | ⟨w, at_, -⟩
    · exact armed
    · exact absurd at_ List.not_mem_nil
  | cons w l ih =>
    obtain ⟨live, req⟩ := quiet w (List.mem_cons_self ..)
    have off : s.reqStb w = false := by simp [reqStb, req]
    have armed : (s.next w).arielArmed = (w.cpuAsN || s.arielArmed) := armed_quiet live off
    apply ih fun w at_ => quiet w (List.mem_cons_of_mem _ at_)
    rcases released with here | ⟨v, at_, up⟩
    · exact .inl (by rw [armed, here, Bool.or_true])
    · rcases List.mem_cons.mp at_ with rfl | at_
      · exact .inl (by rw [armed, up, Bool.true_or])
      · exact .inr ⟨v, at_, up⟩

end Between

section Held

variable (low : ∀ w ∈ l, w.reset = false ∧ w.cpuAsN = false)

include low

/-- The rest of an access, once it has had its strobe. -/
theorem held_rest (serves : s.Serves f) (fired : s.arielArmed = false) :
    (s.run l).Serves f ∧ (s.run l).dataOut = s.dataOut := by
  induction l generalizing s with
  | nil => exact ⟨serves, rfl⟩
  | cons w l ih =>
    obtain ⟨live, as_⟩ := low w (List.mem_cons_self ..)
    have off : s.reqStb w = false := by simp [reqStb, fired]
    have still : (s.next w).arielArmed = false := by rw [armed_quiet live off, as_, fired]; rfl
    obtain ⟨rest, out⟩ := ih (fun w at_ => low w (List.mem_cons_of_mem _ at_))
      (serves.quiet live off) still
    exact ⟨rest, out.trans (dataOut_quiet live serves.running off)⟩

/-- An access acts once, at the first of its data strobes. -/
theorem held_run {op : DacOp} (shows : s.Shows f) (running : s.initActive = false)
    (refilled : s.Refilled 0) (armed : s.arielArmed = true)
    (stable : ∀ w ∈ l, w.strobe = true →
      byteReg w = op.reg ∧ w.we = op.write ∧ w.dataIn = op.data)
    (strobed : ∃ w ∈ l, w.strobe = true) :
    (s.run l).Serves (f.apply op) ∧
      (op.write = false → (s.run l).dataOut = f.value op.reg) := by
  induction l generalizing s with
  | nil =>
    obtain ⟨w, at_, -⟩ := strobed
    exact absurd at_ List.not_mem_nil
  | cons w l ih =>
    obtain ⟨live, as_⟩ := low w (List.mem_cons_self ..)
    have lowRest := fun w at_ => low w (List.mem_cons_of_mem _ at_)
    cases strobe : w.strobe with
    | true =>
      have on : s.reqStb w = true := by rw [reqStb_eq, armed, strobe]; rfl
      obtain ⟨reg, dir, data⟩ := stable w (List.mem_cons_self ..) strobe
      obtain ⟨serves, out⟩ := serves_strobe live running on refilled shows reg dir data
      have fired : (s.next w).arielArmed = false := by
        change s.armedNext w = false
        simp [armedNext, live, as_, on]
      obtain ⟨rest, held⟩ := held_rest lowRest serves fired
      exact ⟨rest, fun read => held.trans (out read)⟩
    | false =>
      have off : s.reqStb w = false := by rw [reqStb_eq, strobe, Bool.and_false]
      apply ih lowRest (shows_quiet live running off shows) (running_quiet live running off)
        (refilled_quiet live running off refilled (Nat.zero_le 2))
      · rw [armed_quiet live off, armed, Bool.or_true]
      · exact fun w at_ => stable w (List.mem_cons_of_mem _ at_)
      · obtain ⟨v, at_, on⟩ := strobed
        rcases List.mem_cons.mp at_ with rfl | at_
        · exact absurd (strobe.symm.trans on) Bool.false_ne_true
        · exact ⟨v, at_, on⟩

end Held

end Clocks

/-- One access is one operation. -/
theorem access_run (serves : s.Serves f) (a : DacAccess) :
    (s.run a.clocks).Serves (f.apply a.op) ∧
      (a.op.write = false → (s.run a.clocks).dataOut = f.value a.op.reg) := by
  have first : (s.run a.between).Serves f := between_serves a.quiet serves
  have armed : (s.run a.between).arielArmed = true := between_armed a.quiet (.inr a.released)
  obtain ⟨-, running, n, within, refilled⟩ := serves
  have ready : (s.run a.between).Refilled 0 := by
    have rest := between_refilled a.quiet running within refilled
    have apart := a.apart
    rwa [Nat.sub_eq_zero_of_le (by omega)] at rest
  rw [DacAccess.clocks, run_append]
  exact held_run a.low first.shows first.running ready armed a.stable a.strobed

theorem accesses_run (serves : s.Serves f) (l : List DacAccess) :
    (s.run (l.flatMap DacAccess.clocks)).Serves (f.run (l.map DacAccess.op)) ∧
      s.answers l = f.answers (l.map DacAccess.op) := by
  induction l generalizing s f with
  | nil => exact ⟨serves, rfl⟩
  | cons a l ih =>
    obtain ⟨one, value⟩ := access_run serves a
    obtain ⟨rest, answers⟩ := ih one
    rw [List.flatMap_cons, run_append]
    refine ⟨rest, ?_⟩
    cases dir : a.op.write with
    | true => simpa [Ramdac.answers, ClutFile.answers, dir] using answers
    | false => simpa [Ramdac.answers, ClutFile.answers, dir, value dir] using answers

/-! ## The initialisation -/

/-- After `k` clocks of the initialisation the entries below `k` have been filled. -/
structure Booting (s : Ramdac) (k : Nat) : Prop where
  active : s.initActive = decide (k < 256)
  count : s.initAddr = BitVec.ofNat 9 k
  filled : ∀ i : Byte, i.toNat < k → s.palette i = ramp i
  cleared : s.paletteAddr = 0 ∧ s.colorComp = 0 ∧ s.controlReg = 0 ∧ s.keyColor = 0 ∧
    s.paletteLatch = 0
  settled : s.latchRdPend = false ∧ s.latchRdStage = false

theorem booting_reset (reset : w.reset = true) : (s.next w).Booting 0 := by
  constructor <;> simp [next, registers, reset]

theorem Booting.next {k : Nat} (booting : s.Booting k) (inside : k < 256)
    (live : w.reset = false) : (s.next w).Booting (k + 1) := by
  obtain ⟨active, count, filled, cleared, settled⟩ := booting
  have active : s.initActive = true := by rw [active, decide_eq_true inside]
  have index : (s.initAddr.extractLsb' 0 8).toNat = k := by
    rw [count]
    simp
    omega
  have port : s.palAWe w = true := by rw [palAWe, active, Bool.true_or]
  have addr : s.palAAddr w = s.initAddr.extractLsb' 0 8 := by rw [palAAddr, active, if_pos rfl]
  have data : s.palAWdata w = ramp (s.initAddr.extractLsb' 0 8) := by
    rw [palAWdata, active, if_pos rfl]
  have step : s.next w =
      { s with
        initActive := decide (s.initAddr ≠ 255)
        initAddr := s.initAddr + 1
        arielArmed := s.armedNext w
        palette := Function.update s.palette (s.initAddr.extractLsb' 0 8)
          (ramp (s.initAddr.extractLsb' 0 8))
        palAQ := s.palette (s.initAddr.extractLsb' 0 8) } := by
    rw [Ramdac.next, port, if_pos rfl, addr, data]
    simp [registers, live, active]
  rw [step]
  refine ⟨?_, ?_, fun i low => ?_, cleared, settled⟩
  · change decide (s.initAddr ≠ 255) = _
    rw [count, decide_eq_decide, ne_eq, BitVec.toNat_eq]
    simp
    omega
  · change s.initAddr + 1 = _
    rw [count]
    exact (BitVec.ofNat_add k 1).symm
  · by_cases last : i = s.initAddr.extractLsb' 0 8
    · rw [last]
      exact Function.update_self _ _ _
    · refine (Function.update_of_ne last _ _).trans (filled i ?_)
      have other : i.toNat ≠ k := fun same => last (BitVec.eq_of_toNat_eq (same.trans index.symm))
      omega

theorem booting_run (l : List DacIn) {k : Nat} (booting : s.Booting k)
    (fits : k + l.length ≤ 256) (goes : ∀ w ∈ l, w.reset = false) :
    (s.run l).Booting (k + l.length) := by
  induction l generalizing s k with
  | nil => exact booting
  | cons w l ih =>
    rw [List.length_cons] at fits ⊢
    have step := booting.next (by omega) (goes w (List.mem_cons_self ..))
    have rest := ih step (by omega) fun w at_ => goes w (List.mem_cons_of_mem _ at_)
    rwa [Nat.add_assoc, Nat.add_comm 1] at rest

/-- The initialisation leaves the reference in its initial state. -/
theorem serves_boot (s : Ramdac) (b : DacBoot) : (s.run b.clocks).Serves ClutFile.initial := by
  have booted : ((s.next b.first).run b.init).Booting (0 + b.init.length) :=
    booting_run b.init (booting_reset b.resets) (by rw [b.whole]) b.goes
  rw [b.whole] at booted
  obtain ⟨active, -, filled, ⟨addr, comp, ctrl, keyColor, latch⟩, pend, stage⟩ := booted
  have entries : ∀ i, ((s.next b.first).run b.init).palette i = ramp i := fun i =>
    filled i (by have := i.isLt; omega)
  refine ⟨⟨addr, comp, fun i c => ?_, ctrl, keyColor⟩, active, 0, Nat.zero_le 2, pend, stage, ?_⟩
  · change getComp c.code (((s.next b.first).run b.init).palette i) = _
    rw [entries]
    rfl
  · change ((s.next b.first).run b.init).paletteLatch =
      ((s.next b.first).run b.init).palette ((s.next b.first).run b.init).paletteAddr
    rw [latch, addr, entries]
    rfl

/-- **Register file.** From a reset on, any sequence of accesses leaves the registers as the
same sequence of operations leaves those of the reference, and every read returns what the
reference returns. -/
theorem register_file (s : Ramdac) (b : DacBoot) (l : List DacAccess) :
    (s.run (b.clocks ++ l.flatMap DacAccess.clocks)).Shows
        (ClutFile.initial.run (l.map DacAccess.op)) ∧
      (s.run b.clocks).answers l = ClutFile.initial.answers (l.map DacAccess.op) := by
  obtain ⟨serves, answers⟩ := accesses_run (serves_boot s b) l
  rw [run_append]
  exact ⟨serves.shows, answers⟩

/-! ## A session at the bus -/

/-- The registers share a word address in pairs. -/
def Register.word : Register → BitVec 11
  | .addr | .palette => 0
  | .ctrl | .keyColor => 1

def Register.odd : Register → Bool
  | .addr | .ctrl => false
  | .palette | .keyColor => true

/-- A clock of an access with the data strobe of its byte. -/
def strobing (op : DacOp) : DacIn where
  regAddr := op.reg.word
  udsN := op.reg.odd
  ldsN := !op.reg.odd
  dataIn := op.data
  we := op.write
  req := true
  memLatch := true
  cpuAsN := false

/-- An access that is held for two slots, with the data strobe a clock after the address
strobe. -/
def busAccess (op : DacOp) : DacAccess where
  op := op
  between := List.replicate 4 {}
  held := [{ cpuAsN := false, req := true, memLatch := true }, strobing op, strobing op]
  quiet := by simp
  apart := by simp
  released := ⟨{}, by simp, rfl⟩
  low := by simp [strobing]
  stable := by
    obtain ⟨reg, write, data⟩ := op
    cases reg <;> simp [DacIn.strobe, strobing, byteReg, Register.word, Register.odd]
  strobed := ⟨strobing op, by simp, by cases op.reg <;> simp [DacIn.strobe, strobing]⟩

def powerUp : Ramdac where
  palette _ := 0
  paletteAddr := 0
  colorComp := 0
  controlReg := 0
  keyColor := 0
  dataOut := 0
  arielWritten := false
  paletteLatch := 0
  latchRdPend := false
  latchRdStage := false
  latchRdAddr := 0
  palAQ := 0
  initActive := false
  initAddr := 0
  arielArmed := false

def bootRun : DacBoot where
  first := { reset := true }
  init := List.replicate 256 {}
  resets := rfl
  goes w at_ := by rw [List.eq_of_mem_replicate at_]
  whole := List.length_replicate

/-- Entry 255 gets three components, and the control register a mode. The entry is then selected
again and read as far as into the next one, which is entry 0. -/
def colours : List DacOp :=
  [⟨.addr, true, 0xff⟩, ⟨.palette, true, 0x12⟩, ⟨.palette, true, 0x34⟩, ⟨.palette, true, 0x56⟩,
    ⟨.ctrl, true, 0x0b⟩, ⟨.addr, false, 0⟩, ⟨.addr, true, 0xff⟩, ⟨.palette, false, 0⟩,
    ⟨.palette, false, 0⟩, ⟨.palette, false, 0⟩, ⟨.palette, false, 0⟩, ⟨.addr, false, 0⟩,
    ⟨.ctrl, false, 0⟩]

theorem register_file_colours :
    (powerUp.run (bootRun.clocks ++ (colours.map busAccess).flatMap DacAccess.clocks)).Shows
        (ClutFile.initial.run ((colours.map busAccess).map DacAccess.op)) ∧
      (powerUp.run bootRun.clocks).answers (colours.map busAccess) =
        [0x00, 0x12, 0x34, 0x56, 0x00, 0x00, 0x0b] := by
  obtain ⟨shows, answers⟩ := register_file powerUp bootRun (colours.map busAccess)
  exact ⟨shows, answers.trans (by decide)⟩

end Ramdac

end MacIIvi
