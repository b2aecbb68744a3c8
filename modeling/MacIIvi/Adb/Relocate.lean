import MacIIvi.Adb.Waveform
import MacIIvi.Clocked.Run

/-!
# Listen to register 3

Source: `rtl/adb_device.sv`, `S_LRX_WAIT` to `S_LRX_DONE`. The sixteen bits behind
the start bit are shifted in; an attention before the last of them drops the packet.
-/

namespace MacIIvi

namespace Adb

open Clocked (record record_self record_succ)

namespace Device

variable {w : DeviceIn} {fifo : Nat → Byte} {ins : Nat → DeviceIn} {t u : Nat}

/-- The bits that the falls in the clocks `start, …, t - 1` sample. -/
def heardBits (w : DeviceIn) (fifo : Nat → Byte) (ins : Nat → DeviceIn) (start t : Nat) :
    List Bool :=
  record
    (fun x =>
      if (after w fifo ins x).phase.fall (ins x).hostLine then some (after w fifo ins x).phase.bit
      else none)
    start t

/-- A packet for register 3 whose command has ended in clock `u`. Since then no attention
has come, and the falls of the line have sampled `heard`. -/
structure Packet (w : DeviceIn) (fifo : Nat → Byte) (ins : Nat → DeviceIn) (u t : Nat)
    (heard : List Bool) : Prop where
  before : u < t
  stop : (after w fifo ins u).stops (ins u) = true
  listen : (after w fifo ins u).isListen = true
  quiet : ∀ x, u < x → x < t → (after w fifo ins x).phase.attention (ins x).hostLine = false
  heard : heardBits w fifo ins (u + 1) t = heard
  target : (after w fifo ins t).line.lrxTarget =
    ((after w fifo ins u).line.cmdAddr == (after w fifo ins u).line.mouseAddr)
  kbdAddr : (after w fifo ins t).line.kbdAddr = (after w fifo ins u).line.kbdAddr
  mouseAddr : (after w fifo ins t).line.mouseAddr = (after w fifo ins u).line.mouseAddr

/-- What the states of a packet know. -/
def Receiving (w : DeviceIn) (fifo : Nat → Byte) (ins : Nat → DeviceIn) (t : Nat) : Prop :=
  match (after w fifo ins t).line.st with
  | .lrxWait => ∃ u, Packet w fifo ins u t [] ∧ (after w fifo ins t).line.lrxSr = 0
  | .lrxStart => ∃ u b, Packet w fifo ins u t [b] ∧ (after w fifo ins t).line.lrxSr = 0
  | .lrxBits =>
    ∃ u b0 b1 bits, Packet w fifo ins u t (b0 :: b1 :: bits) ∧ bits.length ≤ 15 ∧
      (after w fifo ins t).line.bitcnt = bits.length ∧
      (after w fifo ins t).line.lrxSr = value bits
  | .lrxDone =>
    ∃ u b0 b1 bits, Packet w fifo ins u t (b0 :: b1 :: bits) ∧ bits.length = 16 ∧
      (after w fifo ins t).line.lrxSr = value bits
  | _ => True

theorem after_line (run : (ins t).reset = false)
    (st : (after w fifo ins t).line.st ≠ .tstop) :
    (after w fifo ins (t + 1)).line =
      (after w fifo ins t).line.step (after w fifo ins t).phase (ins t).hostLine :=
  next_line run (by simp [stops, st])

/-- What the stop bit of a command can leave. -/
theorem stop_line (s n : Device) (line : n.line = s.line) :
    (s.isListen = true ∧ (s.stop n).line.st = .lrxWait ∧
        (s.stop n).line.lrxTarget = (s.line.cmdAddr == s.line.mouseAddr) ∧
        (s.stop n).line.kbdAddr = s.line.kbdAddr ∧ (s.stop n).line.mouseAddr = s.line.mouseAddr ∧
        (s.stop n).line.lrxSr = 0) ∨
      ((s.stop n).line.st = .t1t ∨ (s.stop n).line.st = .srq) ∧
        (s.isReset = false → (s.stop n).line.kbdAddr = s.line.kbdAddr ∧
          (s.stop n).line.mouseAddr = s.line.mouseAddr) := by
  unfold stop
  simp only [line]
  split
  · rename_i reset
    exact .inr ⟨.inl rfl, fun no => absurd reset (by simp [no])⟩
  split
  · rename_i listen
    exact .inl ⟨listen, rfl, rfl, rfl, rfl, rfl⟩
  have ends (m : Device) (kbd : m.line.kbdAddr = s.line.kbdAddr)
      (mouse : m.line.mouseAddr = s.line.mouseAddr) :
      ((s.over_ m).line.st = .t1t ∨ (s.over_ m).line.st = .srq) ∧
        (s.over_ m).line.kbdAddr = s.line.kbdAddr ∧
        (s.over_ m).line.mouseAddr = s.line.mouseAddr := by
    unfold over_
    split
    · exact ⟨.inr rfl, kbd, mouse⟩
    · exact ⟨.inl rfl, kbd, mouse⟩
  split
  · have talk : ∀ m : Device, m.line.kbdAddr = s.line.kbdAddr →
        m.line.mouseAddr = s.line.mouseAddr →
        (s.talk m).line.kbdAddr = s.line.kbdAddr ∧
          (s.talk m).line.mouseAddr = s.line.mouseAddr := by
      intro m kbd mouse
      unfold talk talkKbd talkMouse
      repeat' split
      all_goals exact ⟨kbd, mouse⟩
    obtain ⟨kbd, mouse⟩ := talk { n with line := { s.line with respLen := 0 } } rfl rfl
    obtain ⟨st, kept⟩ := ends _ kbd mouse
    exact .inr ⟨st, fun _ => kept⟩
  · obtain ⟨st, kept⟩ := ends { n with line := { s.line with respLen := 0 } } rfl rfl
    exact .inr ⟨st, fun _ => kept⟩

/-- The states that receive a packet. -/
def receives (l : Line) : Bool :=
  match l.st with
  | .lrxWait | .lrxStart | .lrxBits => true
  | _ => false

/-- A clock of a packet without an attention. -/
theorem Packet.later {heard : List Bool} (packet : Packet w fifo ins u t heard)
    (run : (ins t).reset = false) (on : receives (after w fifo ins t).line = true)
    (quiet : (after w fifo ins t).phase.attention (ins t).hostLine = false) :
    Packet w fifo ins u (t + 1) (heard ++
      if (after w fifo ins t).phase.fall (ins t).hostLine then [(after w fifo ins t).phase.bit]
      else []) := by
  have tstop : (after w fifo ins t).line.st ≠ .tstop := by
    intro st
    simp [receives, st] at on
  have same : (after w fifo ins (t + 1)).line.lrxTarget = (after w fifo ins t).line.lrxTarget ∧
      (after w fifo ins (t + 1)).line.kbdAddr = (after w fifo ins t).line.kbdAddr ∧
      (after w fifo ins (t + 1)).line.mouseAddr = (after w fifo ins t).line.mouseAddr := by
    rw [after_line run tstop]
    cases st : (after w fifo ins t).line.st
    case lrxWait | lrxStart | lrxBits =>
      simp only [Line.step, st, quiet, Bool.false_eq_true, if_false]
      split <;> exact ⟨rfl, rfl, rfl⟩
    all_goals simp [receives, st] at on
  refine ⟨Nat.lt_succ_of_lt packet.before, packet.stop, packet.listen, ?_, ?_,
    same.1.trans packet.target, same.2.1.trans packet.kbdAddr, same.2.2.trans packet.mouseAddr⟩
  · intro x above below
    rcases Nat.lt_succ_iff_lt_or_eq.mp below with lt | rfl
    · exact packet.quiet x above lt
    · exact quiet
  · rw [heardBits, record_succ packet.before]
    change heardBits w fifo ins (u + 1) t ++ _ = _
    rw [packet.heard]
    split <;> rfl

theorem receiving_away (st : LState) (at_ : (after w fifo ins t).line.st = st)
    (off : st ≠ .lrxWait ∧ st ≠ .lrxStart ∧ st ≠ .lrxBits ∧ st ≠ .lrxDone) :
    Receiving w fifo ins t := by
  unfold Receiving
  rw [at_]
  cases st <;> simp at off ⊢

/-- The end of a command. -/
theorem receiving_tstop (run : (ins t).reset = false)
    (st : (after w fifo ins t).line.st = .tstop) : Receiving w fifo ins (t + 1) := by
  have step : after w fifo ins (t + 1) = _ := next_run (s := after w fifo ins t) run
  cases stop : (after w fifo ins t).stops (ins t) with
  | true =>
    rw [stop, if_pos rfl] at step
    rcases stop_line _ _ (stops_line stop) with
      ⟨listen, st', target, kbd, mouse, sr⟩ | ⟨st' | st', -⟩
    · rw [← step] at st' target kbd mouse sr
      unfold Receiving
      rw [st']
      refine ⟨t, ⟨Nat.lt_succ_self t, stop, listen, fun x above below => ?_, ?_, target, kbd,
        mouse⟩, sr⟩
      · omega
      · rw [heardBits, record_self]
    · rw [← step] at st'
      exact receiving_away _ st' (by decide)
    · rw [← step] at st'
      exact receiving_away _ st' (by decide)
  | false =>
    rw [stop, if_neg Bool.false_ne_true] at step
    refine receiving_away .tstop ?_ (by decide)
    rw [step]
    simp [free, Line.step, st]

/-- A clock with a packet under way. -/
theorem receiving_on (run : (ins t).reset = false) (here : Receiving w fifo ins t)
    (on : receives (after w fifo ins t).line = true) : Receiving w fifo ins (t + 1) := by
  have tstop : (after w fifo ins t).line.st ≠ .tstop := by
    intro st
    simp [receives, st] at on
  have line := after_line run tstop
  cases attention : (after w fifo ins t).phase.attention (ins t).hostLine with
  | true =>
    refine receiving_away .attn ?_ (by decide)
    rw [line]
    cases st : (after w fifo ins t).line.st
    case lrxWait | lrxStart | lrxBits => simp [Line.step, st, attention, Line.resync]
    all_goals simp [receives, st] at on
  | false =>
    have later {u : Nat} {heard : List Bool} (packet : Packet w fifo ins u t heard) :=
      packet.later run on attention
    unfold Receiving at here ⊢
    cases st : (after w fifo ins t).line.st
    case lrxWait =>
      simp only [st] at here
      obtain ⟨u, packet, sr⟩ := here
      have packet' := later packet
      cases fall : (after w fifo ins t).phase.fall (ins t).hostLine with
      | true =>
        rw [fall, if_pos rfl] at packet'
        have line' : (after w fifo ins (t + 1)).line =
            { (after w fifo ins t).line with st := .lrxStart } := by
          simp [line, Line.step, st, attention, fall]
        rw [line']
        exact ⟨u, _, packet', sr⟩
      | false =>
        rw [fall, if_neg Bool.false_ne_true] at packet'
        have same : (after w fifo ins (t + 1)).line = (after w fifo ins t).line := by
          simp [line, Line.step, st, attention, fall]
        rw [same, st]
        exact ⟨u, packet', sr⟩
    case lrxStart =>
      simp only [st] at here
      obtain ⟨u, b, packet, sr⟩ := here
      have packet' := later packet
      cases fall : (after w fifo ins t).phase.fall (ins t).hostLine with
      | true =>
        rw [fall, if_pos rfl] at packet'
        have line' : (after w fifo ins (t + 1)).line =
            { (after w fifo ins t).line with st := .lrxBits, bitcnt := 0 } := by
          simp [line, Line.step, st, attention, fall]
        rw [line']
        exact ⟨u, b, _, [], packet', by simp, rfl, sr⟩
      | false =>
        rw [fall, if_neg Bool.false_ne_true, List.append_nil] at packet'
        have same : (after w fifo ins (t + 1)).line = (after w fifo ins t).line := by
          simp [line, Line.step, st, attention, fall]
        rw [same, st]
        exact ⟨u, b, packet', sr⟩
    case lrxBits =>
      simp only [st] at here
      obtain ⟨u, b0, b1, bits, packet, few, bitcnt, sr⟩ := here
      have packet' := later packet
      cases fall : (after w fifo ins t).phase.fall (ins t).hostLine with
      | true =>
        rw [fall, if_pos rfl] at packet'
        have small := value_lt (bits ++ [(after w fifo ins t).phase.bit])
        have bound : 2 ^ (bits ++ [(after w fifo ins t).phase.bit]).length ≤ 2 ^ 16 := by
          apply Nat.pow_le_pow_right (by decide)
          rw [List.length_append, List.length_singleton]
          omega
        have mod : (2 * value bits + (after w fifo ins t).phase.bit.toNat) % 65536 =
            value (bits ++ [(after w fifo ins t).phase.bit]) := by
          rw [value_concat] at small ⊢
          exact Nat.mod_eq_of_lt (by omega)
        have line' : (after w fifo ins (t + 1)).line =
            { (after w fifo ins t).line with
              lrxSr := value (bits ++ [(after w fifo ins t).phase.bit])
              bitcnt := (bits.length + 1) % 16
              st := if bits.length = 15 then .lrxDone else .lrxBits } := by
          simp [line, Line.step, st, attention, fall, sr, bitcnt, mod]
        rw [line']
        by_cases last : bits.length = 15
        · rw [if_pos last]
          exact ⟨u, b0, b1, _, packet', by simp [last], rfl⟩
        · rw [if_neg last]
          refine ⟨u, b0, b1, bits ++ [(after w fifo ins t).phase.bit], packet', ?_, ?_, rfl⟩
          · rw [List.length_append, List.length_singleton]
            omega
          · rw [List.length_append, List.length_singleton]
            exact Nat.mod_eq_of_lt (by omega)
      | false =>
        rw [fall, if_neg Bool.false_ne_true, List.append_nil] at packet'
        have same : (after w fifo ins (t + 1)).line = (after w fifo ins t).line := by
          simp [line, Line.step, st, attention, fall]
        rw [same, st]
        exact ⟨u, b0, b1, bits, packet', few, bitcnt, sr⟩
    all_goals simp [receives, st] at on

/-- Only the end of a command begins a packet. -/
theorem step_away {l : Line} {p : Phases} {host : Bool} (off : receives l = false)
    (tstop : l.st ≠ .tstop) :
    receives (l.step p host) = false ∧ (l.step p host).st ≠ .lrxDone := by
  cases st : l.st
  case lrxWait | lrxStart | lrxBits => simp [receives, st] at off
  case tstop => exact absurd st tstop
  case send =>
    have next := (Line.stepSend_spec st).2
    have step : l.step p host = l.stepSend := by simp only [Line.step, st]
    rw [step, receives, next]
    cases l.finishes <;> simp
  all_goals
    simp only [Line.step, st, Line.resync, Line.stepT1t, Line.stepSrq, Line.stepLrxDone]
    repeat' split
    all_goals simp [receives, st]

variable (w fifo) in
theorem receiving_after (run : ∀ u < t, (ins u).reset = false) : Receiving w fifo ins t := by
  induction t with
  | zero => exact receiving_away .idle rfl (by decide)
  | succ t ih =>
    have here := ih fun u low => run u (by omega)
    have go := run t (Nat.lt_succ_self t)
    cases on : receives (after w fifo ins t).line with
    | true => exact receiving_on go here on
    | false =>
      by_cases tstop : (after w fifo ins t).line.st = .tstop
      · exact receiving_tstop go tstop
      · have quiet : receives ((after w fifo ins t).line.step (after w fifo ins t).phase
            (ins t).hostLine) = false ∧
            ((after w fifo ins t).line.step (after w fifo ins t).phase (ins t).hostLine).st ≠
              .lrxDone := step_away on tstop
        rw [← after_line go tstop] at quiet
        obtain ⟨off, notDone⟩ := quiet
        refine receiving_away _ rfl ⟨?_, ?_, ?_, notDone⟩ <;> intro st <;> simp [receives, st] at off

variable (w fifo) in
/-- A clock that changes an address: the end of a packet, or of a SendReset. -/
theorem address_step (run : (ins t).reset = false)
    (noReset : (after w fifo ins t).stops (ins t) = true →
      (after w fifo ins t).isReset = false)
    (change : (after w fifo ins (t + 1)).line.kbdAddr ≠ (after w fifo ins t).line.kbdAddr ∨
      (after w fifo ins (t + 1)).line.mouseAddr ≠ (after w fifo ins t).line.mouseAddr) :
    (after w fifo ins t).line.st = .lrxDone ∧
      (after w fifo ins (t + 1)).line = (after w fifo ins t).line.stepLrxDone := by
  by_cases tstop : (after w fifo ins t).line.st = .tstop
  · exfalso
    have step : after w fifo ins (t + 1) = _ := next_run (s := after w fifo ins t) run
    cases stop : (after w fifo ins t).stops (ins t) with
    | true =>
      rw [stop, if_pos rfl] at step
      rcases stop_line _ _ (stops_line stop) with ⟨-, -, -, kbd, mouse, -⟩ | ⟨-, kept⟩
      · rw [step, kbd, mouse] at change
        simp at change
      · obtain ⟨kbd, mouse⟩ := kept (noReset stop)
        rw [step, kbd, mouse] at change
        simp at change
    | false =>
      rw [stop, if_neg Bool.false_ne_true] at step
      have line : ((after w fifo ins t).free (ins t)).line = (after w fifo ins t).line := by
        simp [free, Line.step, tstop]
      rw [step, line] at change
      simp at change
  · have line := after_line run tstop
    rw [line] at change ⊢
    cases st : (after w fifo ins t).line.st
    case lrxDone => exact ⟨rfl, by simp only [Line.step, st]⟩
    case tstop => exact absurd st tstop
    case send =>
      have same := (Line.stepSend_spec st).1
      simp only [Line.step, st, same.kbdAddr, same.mouseAddr, ne_eq, not_true, or_self] at change
    all_goals
      exfalso
      simp only [Line.step, st, Line.resync, Line.stepT1t, Line.stepSrq] at change
      revert change
      repeat' split
      all_goals simp

/-- A complete packet whose payload is a valid relocation to `addr`. -/
def Relocation (w : DeviceIn) (fifo : Nat → Byte) (ins : Nat → DeviceIn) (u t addr : Nat) : Prop :=
  ∃ b0 b1 payload, Packet w fifo ins u t (b0 :: b1 :: payload) ∧ payload.length = 16 ∧
    value payload % 256 ≠ 255 ∧ value payload / 256 % 16 = addr ∧ addr ≠ 0

/-- An address changes only by a complete packet for it, or by a SendReset. -/
theorem relocated (run : ∀ u ≤ t, (ins u).reset = false)
    (noReset : (after w fifo ins t).stops (ins t) = true →
      (after w fifo ins t).isReset = false) :
    ((after w fifo ins (t + 1)).line.kbdAddr ≠ (after w fifo ins t).line.kbdAddr →
      ∃ u, (after w fifo ins u).line.cmdAddr = (after w fifo ins u).line.kbdAddr ∧
        Relocation w fifo ins u t (after w fifo ins (t + 1)).line.kbdAddr) ∧
    ((after w fifo ins (t + 1)).line.mouseAddr ≠ (after w fifo ins t).line.mouseAddr →
      ∃ u, (after w fifo ins u).line.cmdAddr = (after w fifo ins u).line.mouseAddr ∧
        Relocation w fifo ins u t (after w fifo ins (t + 1)).line.mouseAddr) := by
  have here := receiving_after w fifo fun u (low : u < t) => run u (by omega)
  have step := address_step w fifo (run t (Nat.le_refl t)) noReset
  constructor
  · intro change
    obtain ⟨done, line⟩ := step (.inl change)
    unfold Receiving at here
    rw [done] at here
    obtain ⟨u, b0, b1, payload, packet, length, sr⟩ := here
    rw [line] at change ⊢
    simp only [Line.stepLrxDone, Line.relocates, sr] at change ⊢
    split at change
    · rename_i valid
      simp only [Bool.and_eq_true, decide_eq_true_eq, Bool.not_eq_true'] at valid
      obtain ⟨⟨handler, addr⟩, target⟩ := valid
      rw [packet.target] at target
      have listen := packet.listen
      simp only [isListen, Bool.and_eq_true, Bool.or_eq_true, target, beq_iff_eq,
        Bool.false_eq_true, or_false] at listen
      refine ⟨u, listen.2, b0, b1, payload, packet, length, handler, ?_, ?_⟩ <;>
        simp [handler, addr, packet.target, target]
    · exact absurd rfl change
  · intro change
    obtain ⟨done, line⟩ := step (.inr change)
    unfold Receiving at here
    rw [done] at here
    obtain ⟨u, b0, b1, payload, packet, length, sr⟩ := here
    rw [line] at change ⊢
    simp only [Line.stepLrxDone, Line.relocates, sr] at change ⊢
    split at change
    · rename_i valid
      simp only [Bool.and_eq_true, decide_eq_true_eq] at valid
      obtain ⟨⟨handler, addr⟩, target⟩ := valid
      rw [packet.target, beq_iff_eq] at target
      refine ⟨u, target, b0, b1, payload, packet, length, handler, ?_, ?_⟩ <;>
        simp [handler, addr, packet.target, target]
    · exact absurd rfl change

end Device

/-- **Framing.** An answer is read back as its two bytes; a command is read as it is sent,
for any timing of its cells whose ones have low phases that the counter can measure; and an
address changes only by a complete packet for it, or by a SendReset. -/
theorem line_framing :
    (∀ (s : Device) (p : Phases) (ws : List DeviceIn), (∀ w ∈ ws, w.reset = false) →
      s.line.st = .t1t → s.line.sendtmr = 0 → s.line.respLen = 2 →
      ws.length = Device.answerClocks → p.hlD = true →
      p.heard (s.driven ws) =
        p.bit :: true :: (byteBits s.line.resp0 ++ byteBits s.line.resp1)) ∧
    (∀ (s : Device) (f : Command), f.Ok → s.phase.hlD = true → s.line.listens = true →
      (∀ c ∈ f.cells, c.bit = true → c.lows.length < 2 ^ 18) →
      (s.run f.samples).line.st = .tstop ∧
        (s.run f.samples).line.command = value (f.cells.map Cell.bit)) ∧
    (∀ (w : DeviceIn) (fifo : Nat → Byte) (ins : Nat → DeviceIn) (t : Nat),
      (∀ u ≤ t, (ins u).reset = false) →
      ((Device.after w fifo ins t).stops (ins t) = true →
        (Device.after w fifo ins t).isReset = false) →
      ((Device.after w fifo ins (t + 1)).line.kbdAddr ≠ (Device.after w fifo ins t).line.kbdAddr →
        ∃ u, (Device.after w fifo ins u).line.cmdAddr = (Device.after w fifo ins u).line.kbdAddr ∧
          Device.Relocation w fifo ins u t (Device.after w fifo ins (t + 1)).line.kbdAddr) ∧
      ((Device.after w fifo ins (t + 1)).line.mouseAddr ≠
          (Device.after w fifo ins t).line.mouseAddr →
        ∃ u, (Device.after w fifo ins u).line.cmdAddr =
            (Device.after w fifo ins u).line.mouseAddr ∧
          Device.Relocation w fifo ins u t
            (Device.after w fifo ins (t + 1)).line.mouseAddr)) := by
  refine ⟨fun s p ws go st timer two length high => ?_, fun s f ok high listens short => ?_,
    fun w fifo ins t run noReset => Device.relocated run noReset⟩
  · exact Device.answer_heard go st timer two length high
  · have same : f.cells.map Cell.seen = f.cells.map Cell.bit := by
      apply List.map_congr_left
      intro c mem
      refine (seen_eq_iff (ok.cells c mem).lows.some_).mpr fun one => ?_
      exact short c mem (by simpa [Cell.bit] using one)
    rw [← same]
    exact Device.command_seen ok high listens

/-- The line low or high for `n` clocks. -/
def levels (host : Bool) (n : Nat) : List DeviceIn := List.replicate n { hostLine := host }

theorem levels_level (host : Bool) {n : Nat} (some_ : 0 < n) : Level host (levels host n) where
  some_ := by simpa [levels] using some_
  run := by
    intro w mem
    rw [List.eq_of_mem_replicate mem]
  line := by
    intro w mem
    rw [List.eq_of_mem_replicate mem]

/-- Eight cells of one kind. -/
def steady (low high : Nat) : Command where
  attention := levels false 25600
  gap := levels true 2080
  cells := List.replicate 8 ⟨levels false low, levels true high⟩
  stop := levels false 2080

theorem steady_ok {low high : Nat} (some_ : 0 < low) (some' : 0 < high) : (steady low high).Ok where
  attention := levels_level _ (by decide)
  long := by
    change tAttn + 2 ≤ (levels false 25600).length
    rw [levels, List.length_replicate]
    decide
  gap := levels_level _ (by decide)
  cells := by
    intro c mem
    rw [List.eq_of_mem_replicate mem]
    exact ⟨levels_level _ some_, levels_level _ some'⟩
  eight := List.length_replicate
  stop := levels_level _ (by decide)

theorem steady_bits (low high : Nat) :
    (steady low high).cells.map Cell.bit = List.replicate 8 (decide (low < high)) ∧
      (steady low high).cells.map Cell.seen = List.replicate 8 (seen low high) := by
  constructor <;> simp only [steady, List.map_replicate, Cell.bit, Cell.seen, levels,
    List.length_replicate]

/-- Ones of eight milliseconds are read as zeros: both phases saturate the counter. -/
theorem slow_ones_misread :
    ¬ ∀ (s : Device) (f : Command), f.Ok → s.phase.hlD = true → s.line.listens = true →
      (s.run f.samples).line.command = value (f.cells.map Cell.bit) := by
  intro decodes
  have ok : (steady (2 ^ 18) (2 ^ 18 + 1)).Ok := steady_ok (by decide) (by decide)
  have sent := decodes (.reset {} fun _ => 0) _ ok rfl rfl
  have read := (Device.command_seen (s := .reset {} fun _ => 0) ok rfl rfl).2
  rw [sent, (steady_bits _ _).1, (steady_bits _ _).2] at read
  exact absurd read (by decide)

/-- Ones at the usual rate. -/
theorem line_framing_ones :
    ((Device.reset {} fun _ => 0).run (steady 1120 2080).samples).line.command = 255 := by
  have ok : (steady 1120 2080).Ok := steady_ok (by decide) (by decide)
  have short : ∀ c ∈ (steady 1120 2080).cells, c.bit = true → c.lows.length < 2 ^ 18 := by
    intro c mem _
    rw [List.eq_of_mem_replicate mem]
    change (levels false 1120).length < 2 ^ 18
    rw [levels, List.length_replicate]
    decide
  have read := (line_framing.2.1 (.reset {} fun _ => 0) _ ok rfl rfl short).2
  rw [(steady_bits _ _).1] at read
  exact read

end Adb

end MacIIvi
