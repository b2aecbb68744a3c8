import MacIIvi.Floppy.GcrFormat

/-!
# The sectors the generator delivers

The stream of the generator is put together from the runs of its states. In the
data field the nibbler works one group ahead of the output: the window in which
group `g` goes out fetches and sums up group `g + 1`.
-/

namespace MacIIvi.Gcr

open Clocked Codes

/-! ## The encoder's arithmetic -/

theorem rotated_eq (x : BitVec 8) : x.extractLsb' 0 7 ++ x.extractLsb' 7 1 = x.rotateLeft 1 := by
  ext i hi
  rw [BitVec.getElem_append, BitVec.getElem_rotateLeft]
  by_cases low : i < 1
  · simp only [low, dite_true, BitVec.getElem_extractLsb']
    exact BitVec.getLsbD_eq_getElem (by omega)
  · simp only [low, dite_false, BitVec.getElem_extractLsb', Nat.zero_add]
    exact BitVec.getLsbD_eq_getElem (by omega)

theorem toNat_zero_append {n w : Nat} (x : BitVec w) : (0#n ++ x).toNat = x.toNat := by
  rw [BitVec.toNat_append, BitVec.toNat_ofNat, Nat.zero_mod, Nat.zero_shiftLeft, Nat.zero_or]

theorem sum9_eq (x y : BitVec 8) (carry : Bool) :
    sum9 x y carry = (carryOut x y carry, sumOf x y carry) := by
  have hx := x.isLt
  have hy := y.isLt
  have hc := Bool.toNat_le carry
  have total : ((0#1 ++ x) + (0#1 ++ y) + (0#8 ++ BitVec.ofBool carry)).toNat =
      x.toNat + y.toNat + carry.toNat := by
    rw [BitVec.toNat_add, BitVec.toNat_add, toNat_zero_append, toNat_zero_append,
      toNat_zero_append, BitVec.toNat_ofBool]
    omega
  unfold sum9 carryOut sumOf
  apply Prod.ext
  · simp only [BitVec.msb_eq_decide, total]
  · apply BitVec.eq_of_toNat_eq
    simp only [BitVec.extractLsb'_toNat, total, BitVec.toNat_ofNat, Nat.shiftRight_zero]

theorem sum8_eq (x y : BitVec 8) (carry : Bool) :
    x + y + (0#7 ++ BitVec.ofBool carry) = sumOf x y carry := by
  apply BitVec.eq_of_toNat_eq
  rw [BitVec.toNat_add, BitVec.toNat_add, toNat_zero_append, BitVec.toNat_ofBool, sumOf,
    BitVec.toNat_ofNat]
  omega

theorem trackLow_eq (track : BitVec 7) :
    track.extractLsb' 0 6 = BitVec.ofNat 6 (track.toNat % 64) := by
  apply BitVec.eq_of_toNat_eq
  rw [BitVec.extractLsb'_toNat, BitVec.toNat_ofNat, Nat.shiftRight_zero, Nat.mod_mod]

theorem trackHi_eq (track : BitVec 7) (side : Bool) :
    BitVec.ofBool side ++ 0#4 ++ track.extractLsb' 6 1 =
      BitVec.ofNat 6 (side.toNat * 32 + track.toNat / 64) := by
  have narrow := track.isLt
  have bit : track.extractLsb' 6 1 = BitVec.ofNat 1 (track.toNat / 64) := by
    apply BitVec.eq_of_toNat_eq
    rw [BitVec.extractLsb'_toNat, BitVec.toNat_ofNat, Nat.shiftRight_eq_div_pow]
  rw [bit]
  rcases (show track.toNat / 64 = 0 ∨ track.toNat / 64 = 1 by omega) with h | h <;>
    rw [h] <;> cases side <;> rfl

theorem format_eq : ∀ sides : Bool,
    BitVec.ofBool sides ++ 0x2#5 = BitVec.ofNat 6 (sides.toNat * 32 + 2) := by
  decide

theorem secInTr_eq : ∀ sector < 16, 0#2 ++ BitVec.ofNat 4 sector = BitVec.ofNat 6 sector := by
  decide

/-! ## Runs outside the data field -/

/-- A state's count at its last nibble. -/
def lastCount : Fsm → Nat
  | .syn0 => 55
  | .addr => 9
  | .syn1 => 4
  | .dhdr => 3
  | .dzro => 11
  | .dpre => 3
  | .data => 682
  | .dsum => 3
  | .dtrl => 2
  | .wait => 0

/-- The state that follows. -/
def Fsm.succ : Fsm → Fsm
  | .syn0 => .addr
  | .addr => .syn1
  | .syn1 => .dhdr
  | .dhdr => .dzro
  | .dzro => .dpre
  | .dpre => .data
  | .data => .dsum
  | .dsum => .dtrl
  | .dtrl => .wait
  | .wait => .syn0

/-- The nibbler rests. -/
def Resting (S : Fsm) : Prop := S ≠ .dpre ∧ S ≠ .data ∧ S ≠ .wait

instance : DecidablePred Resting := fun S => by unfold Resting; infer_instance

/-- On entry to the data header the nibbler is reset. -/
def entered (r : Regs) : Regs := if r.state = .dhdr then nibblerReset r else r

section Runs

variable (d : Surface)

/-- While the nibbler rests, a nibble only counts. -/
theorem next_resting {r : Regs} (rest : Resting r.state) :
    (stream d).next r = entered (run r (lastCount r.state) r.state.succ) := by
  obtain ⟨notPre, notData, notWait⟩ := rest
  have still : strobe r = false := by simp [strobe, notPre, notData]
  have sequence_eq : ∀ track, sequence r track = run r (lastCount r.state) r.state.succ := by
    intro track
    unfold sequence
    rw [still]
    cases state : r.state <;> simp_all [lastCount, Fsm.succ]
  have advance_eq : ∀ i, advance r i = run r (lastCount r.state) r.state.succ := by
    intro i
    unfold advance
    rw [still, sequence_eq]
    unfold run
    split <;> simp [notPre, notData]
  change entered (advance r _) = _
  rw [advance_eq]

/-- The nibbles of a state's run. -/
def runNibbles (S : Fsm) (r : Regs) : List (BitVec 8) :=
  (List.range (lastCount S + 1)).map fun k => odata { r with state := S, count := k } (d.enable 0)

/-- A run of a state in which the nibbler rests. -/
theorem emits_run {S : Fsm} (rest : Resting S) (r : Regs) (reset : S = .dhdr → nibblerReset r = r) :
    (stream d).Emits { r with state := S, count := 0 } (runNibbles d S r)
      (entered { r with state := S.succ, count := 0 }) := by
  have counted := Source.emits_counted (m := stream d) (fun k => { r with state := S, count := k })
    (fun k => odata { r with state := S, count := k } (d.enable 0)) (lastCount S)
    (fun k hk => by
      refine ⟨rfl, ?_⟩
      have short : lastCount S ≤ 682 := by cases S <;> decide
      have wraps : (k + 1) % 2 ^ 10 = k + 1 := Nat.mod_eq_of_lt (by omega)
      rw [next_resting d (by exact rest), run, if_neg (by simp only; omega), entered]
      simp only [wraps]
      split
      · next header =>
        exact congrArg (fun r : Regs => { r with state := S, count := k + 1 }) (reset header)
      · rfl)
    rfl
  have leave : (stream d).next { r with state := S, count := lastCount S } =
      entered { r with state := S.succ, count := 0 } := by
    rw [next_resting d (by exact rest), run, if_pos rfl]
  rw [leave] at counted
  exact counted

/-- The registers of a reset nibbler. -/
def cleared (S : Fsm) (count sector srcOffset : Nat) (latch : BitVec 8) : Regs :=
  ⟨S, count, sector, srcOffset, 0, 0, false, 0, false, 0, 0, 0, 0, latch⟩

/-- From the start of a sector to the data header. -/
theorem emits_address {r : Regs} (start : r.state = .syn0) (first : r.count = 0)
    (small : r.sector < 16) :
    (stream d).Emits r
      (List.replicate 56 0xFF ++ [0xD5, 0xAA, 0x96] ++
        (addressField d r.sector).map sonyToDiskByte ++ [0xDE, 0xAA] ++ List.replicate 5 0xFF)
      (cleared .dhdr 0 r.sector r.srcOffset r.dataLatch) := by
  have here : ({ r with state := .syn0, count := 0 } : Regs) = r := by rw [← start, ← first]
  have syn0 := emits_run d (S := .syn0) (by decide) r Fsm.noConfusion
  have addr := emits_run d (S := .addr) (by decide) r Fsm.noConfusion
  have syn1 := emits_run d (S := .syn1) (by decide) r Fsm.noConfusion
  have gap0 : runNibbles d .syn0 r = List.replicate 56 0xFF := rfl
  have gap1 : runNibbles d .syn1 r = List.replicate 5 0xFF := rfl
  have field : runNibbles d .addr r =
      [0xD5, 0xAA, 0x96] ++ (addressField d r.sector).map sonyToDiskByte ++ [0xDE, 0xAA] := by
    simp only [runNibbles, lastCount, List.range_succ, List.range_zero, List.map_cons,
      List.map_nil, List.nil_append, List.cons_append, odata, si, sonyAddrIn, addressField, checksum, trackLow, trackHi, format, secInTr, Surface.enable, trackLow_eq,
      trackHi_eq, format_eq, secInTr_eq _ small]
  rw [here, gap0] at syn0
  rw [field] at addr
  rw [gap1] at syn1
  have all := (syn0.append addr).append syn1
  simp only [← List.append_assoc] at all
  exact all

/-- The rest of the header. -/
theorem emits_header (sector : Nat) (latch : BitVec 8) (small : sector < 16) :
    (stream d).Emits (cleared .dhdr 0 sector 0 latch)
      ([0xD5, 0xAA, 0xAD] ++ [sonyToDiskByte (BitVec.ofNat 6 sector)] ++
        List.replicate 12 (sonyToDiskByte 0))
      (cleared .dpre 0 sector 0 latch) := by
  have dhdr := emits_run d (S := .dhdr) (by decide) (cleared .dhdr 0 sector 0 latch) (fun _ => rfl)
  have dzro := emits_run d (S := .dzro) (by decide) (cleared .dhdr 0 sector 0 latch) Fsm.noConfusion
  have mark : runNibbles d .dhdr (cleared .dhdr 0 sector 0 latch) =
      [0xD5, 0xAA, 0xAD] ++ [sonyToDiskByte (BitVec.ofNat 6 sector)] := by
    simp only [runNibbles, lastCount, List.range_succ, List.range_zero, List.map_cons,
      List.map_nil, List.nil_append, List.cons_append, odata, si, secInTr, cleared,
      secInTr_eq _ small]
  have zeros : runNibbles d .dzro (cleared .dhdr 0 sector 0 latch) =
      List.replicate 12 (sonyToDiskByte 0) := by
    simp only [runNibbles, lastCount, odata, si, cleared, nibOut, List.map_const', List.length_range]
    rfl
  rw [mark] at dhdr
  rw [zeros] at dzro
  exact dhdr.append dzro

end Runs

/-! ## The data field -/

/-- The byte of the image that is asked for at a place of a sector. -/
def Surface.byteAt (d : Surface) (sector offset : Nat) : BitVec 8 :=
  d.image (addrNext (cleared .data 0 sector offset 0) d.side d.sides d.track)

/-- A byte is fetched at this count, unless the group is full. -/
def Fetching (S : Fsm) (n : Nat) : Prop := S = .dpre ∧ n < 3 ∨ S = .data ∧ n < 678

section Pulls

variable (d : Surface) (sector off : Nat) (c1 c2 c3 p q v latch : BitVec 8) (c2x c3x : Bool)
variable {S : Fsm} {n : Nat}

/-- The first pull of a window fetches its first byte. -/
theorem next_first (fetch : Fetching S n) :
    (stream d).next ⟨S, n, sector, off, c1, c2, c2x, c3, c3x, 0, p, q, v, latch⟩ =
      ⟨S, n + 1, sector, (off + 1) % 512, c1, c2, c2x, c3, c3x, 1, p, q, v,
        d.byteAt sector off⟩ := by
  have early : n < 679 := by rcases fetch with ⟨-, h⟩ | ⟨-, h⟩ <;> omega
  have wraps : (n + 1) % 1024 = n + 1 := by omega
  rcases fetch with ⟨rfl, fetch⟩ | ⟨rfl, fetch⟩
  · have more : n ≠ 3 := by omega
    simp [stream, stepRegs, advance, sequence, nibble, run, strobe, Surface.enable, early, more,
      wraps, Surface.byteAt, Surface.wanted, addrNext, cleared]
  · have more : n ≠ 682 := by omega
    simp [stream, stepRegs, advance, sequence, nibble, run, strobe, Surface.enable, fetch, early,
      more, wraps, Surface.byteAt, Surface.wanted, addrNext, cleared]

/-- The second sums up the first byte and fetches the second. -/
theorem next_second (fetch : Fetching S n) :
    (stream d).next ⟨S, n, sector, off, c1, c2, c2x, c3, c3x, 1, p, q, v, latch⟩ =
      ⟨S, n + 1, sector, (off + 1) % 512, c1.rotateLeft 1, c2, c2x, sumOf c3 latch c1.msb,
        carryOut c3 latch c1.msb, 2, latch ^^^ c1.rotateLeft 1, q, v, d.byteAt sector off⟩ := by
  have early : n < 679 := by rcases fetch with ⟨-, h⟩ | ⟨-, h⟩ <;> omega
  have wraps : (n + 1) % 1024 = n + 1 := by omega
  rcases fetch with ⟨rfl, fetch⟩ | ⟨rfl, fetch⟩
  · have more : n ≠ 3 := by omega
    simp [stream, stepRegs, advance, sequence, nibble, run, strobe, Surface.enable, early, more,
      wraps, Surface.byteAt, Surface.wanted, addrNext, cleared, rotated_eq, sum9_eq]
  · have more : n ≠ 682 := by omega
    simp [stream, stepRegs, advance, sequence, nibble, run, strobe, Surface.enable, fetch, early,
      more, wraps, Surface.byteAt, Surface.wanted, addrNext, cleared, rotated_eq, sum9_eq]

/-- The third sums up the second byte and fetches the third. -/
theorem next_third (fetch : Fetching S n) :
    (stream d).next ⟨S, n, sector, off, c1, c2, c2x, c3, c3x, 2, p, q, v, latch⟩ =
      ⟨S, n + 1, sector, (off + 1) % 512, c1, sumOf c2 latch c3x, carryOut c2 latch c3x, c3, false,
        3, p, latch ^^^ c3, v, d.byteAt sector off⟩ := by
  have early : n < 679 := by rcases fetch with ⟨-, h⟩ | ⟨-, h⟩ <;> omega
  have wraps : (n + 1) % 1024 = n + 1 := by omega
  rcases fetch with ⟨rfl, fetch⟩ | ⟨rfl, fetch⟩
  · have more : n ≠ 3 := by omega
    simp [stream, stepRegs, advance, sequence, nibble, run, strobe, Surface.enable, early, more,
      wraps, Surface.byteAt, Surface.wanted, addrNext, cleared, sum9_eq]
  · have more : n ≠ 682 := by omega
    simp [stream, stepRegs, advance, sequence, nibble, run, strobe, Surface.enable, fetch, early,
      more, wraps, Surface.byteAt, Surface.wanted, addrNext, cleared, sum9_eq]

/-- The fourth sums up the third byte. -/
theorem next_fourth {r : Regs} (state : r.state = .data) (fourth : r.cnt = 3)
    (early : r.count < 679) :
    (stream d).next r =
      { r with count := r.count + 1, cnt := 0, c1 := sumOf r.c1 r.dataLatch r.c2x, c2x := false
               nibXor2 := r.dataLatch ^^^ r.c2 } := by
  have more : r.count ≠ 682 := by omega
  have wraps : (r.count + 1) % 1024 = r.count + 1 := by omega
  simp [stream, stepRegs, advance, sequence, nibble, run, strobe, Surface.enable, state, fourth,
    early, more, wraps, sum8_eq]

/-- In the prefetch it leads to the payload. -/
theorem next_fourth_prefetch {r : Regs} (state : r.state = .dpre) (fourth : r.cnt = 3)
    (last : r.count = 3) :
    (stream d).next r =
      { r with state := .data, count := 0, cnt := 0, c1 := sumOf r.c1 r.dataLatch r.c2x
               c2x := false, nibXor2 := r.dataLatch ^^^ r.c2 } := by
  simp [stream, stepRegs, advance, sequence, nibble, run, strobe, Surface.enable, state, fourth,
    last, sum8_eq]

/-- The last group has two bytes: none is fetched when the second is summed up … -/
theorem next_third_last {r : Regs} (state : r.state = .data) (third : r.cnt = 2)
    (late : r.count = 678) :
    (stream d).next r =
      { r with count := 679, cnt := 3, c2 := sumOf r.c2 r.dataLatch r.c3x
               c2x := carryOut r.c2 r.dataLatch r.c3x, c3x := false
               nibXor1 := r.dataLatch ^^^ r.c3 } := by
  simp [stream, stepRegs, advance, sequence, nibble, run, strobe, Surface.enable, state, third,
    late, sum9_eq]

/-- … and a zero stands for the third. -/
theorem next_fourth_last {r : Regs} (state : r.state = .data) (fourth : r.cnt = 3)
    (late : r.count = 679) :
    (stream d).next r = { r with count := 680, cnt := 0, nibXor2 := 0 } := by
  simp [stream, stepRegs, advance, sequence, nibble, run, strobe, Surface.enable, state, fourth,
    late]

/-- While the last group goes out, nothing is summed up. -/
theorem next_idle {r : Regs} (state : r.state = .data) (open_ : r.cnt < 3) (late : 680 ≤ r.count)
    (more : r.count < 682) :
    (stream d).next r = { r with count := r.count + 1, cnt := r.cnt + 1 } := by
  have over_ : ¬ r.count < 679 := by omega
  have past : ¬ r.count < 678 := by omega
  have inner : r.count ≠ 682 := by omega
  have notThird : r.cnt ≠ 3 := by omega
  have wraps : (r.count + 1) % 1024 = r.count + 1 := by omega
  have turns : (r.cnt + 1) % 4 = r.cnt + 1 := by omega
  simp [stream, stepRegs, advance, sequence, nibble, run, strobe, Surface.enable, state, notThird,
    over_, past, inner, wraps, turns]

theorem next_payload_end {r : Regs} (state : r.state = .data) (third : r.cnt = 2)
    (last : r.count = 682) :
    (stream d).next r = { r with state := .dsum, count := 0, cnt := 3 } := by
  simp [stream, stepRegs, advance, sequence, nibble, run, strobe, Surface.enable, state, third,
    last]

end Pulls

/-- A window opens: the sums of the bytes so far, and the group that goes out. -/
def window (S : Fsm) (n sector off : Nat) (s : Sums) (p q v latch : BitVec 8) : Regs :=
  ⟨S, n, sector, off, s.c1, s.c2, false, s.c3, false, 0, p, q, v, latch⟩

/-- The sums stand between two groups. -/
def Sums.AtGroup (s : Sums) : Prop := s.phase = 0 ∧ s.carry = false

theorem atGroup_feed {s : Sums} (between : s.AtGroup) (x y z : BitVec 8) :
    (sony.feed (sony.feed (sony.feed s x) y) z).AtGroup := by
  obtain ⟨c1, c2, c3, carry, phase⟩ := s
  obtain ⟨rfl, rfl⟩ := between
  exact ⟨rfl, rfl⟩

/-- What the nibbler puts out next. -/
theorem out_nibble (d : Surface) {r : Regs} (nibbling : r.state = .dpre ∨ r.state = .data) :
    (stream d).out r = sonyToDiskByte (nibOut r) := by
  rcases nibbling with state | state <;> simp [stream, odata, si, state]

theorem Fetching.state {S : Fsm} {n : Nat} (fetch : Fetching S n) : S = .dpre ∨ S = .data :=
  fetch.imp And.left And.left

section Windows

variable (d : Surface) (sector : Nat)

/-- One pull. -/
theorem emits_one {r r' : Regs} {b : BitVec 8} (said : (stream d).out r = b)
    (reached : (stream d).next r = r') : (stream d).Emits r [b] r' := by
  rw [← said, ← reached]
  exact Source.Emits.nil.cons

/-- Three pulls of a window: the three bytes of the next group are fetched, and
two of them are summed up. -/
theorem emits_fetch {S : Fsm} {n o : Nat} {s : Sums} (between : s.AtGroup) (p q v latch : BitVec 8)
    (first : Fetching S n) (second : Fetching S (n + 1)) (third : Fetching S (n + 2))
    (room : o + 3 < 512) :
    let x := d.byteAt sector o
    let y := d.byteAt sector (o + 1)
    let s' := sony.feed (sony.feed s x) y
    (stream d).Emits (window S n sector o s p q v latch)
      ([SixTwo.upper p q v, SixTwo.lower p, SixTwo.lower q].map sonyToDiskByte)
      ⟨S, n + 3, sector, o + 3, s'.c1, s'.c2, s'.carry, s'.c3, false, 3, x ^^^ sony.key s,
        y ^^^ sony.key (sony.feed s x), v, d.byteAt sector (o + 2)⟩ := by
  obtain ⟨c1, c2, c3, carry, phase⟩ := s
  obtain ⟨rfl, rfl⟩ := between
  have wraps₁ : (o + 1) % 512 = o + 1 := Nat.mod_eq_of_lt (by omega)
  have wraps₂ : (o + 1 + 1) % 512 = o + 2 := Nat.mod_eq_of_lt (by omega)
  have wraps₃ : (o + 2 + 1) % 512 = o + 3 := Nat.mod_eq_of_lt (by omega)
  have one := next_first d sector o c1 c2 c3 p q v latch false false first
  have two := next_second d sector (o + 1) c1 c2 c3 p q v (d.byteAt sector o) false false second
  have three := next_third d sector (o + 2) (c1.rotateLeft 1) c2
    (sumOf c3 (d.byteAt sector o) c1.msb) (d.byteAt sector o ^^^ c1.rotateLeft 1) q v
    (d.byteAt sector (o + 1)) false (carryOut c3 (d.byteAt sector o) c1.msb) third
  rw [wraps₁] at one
  rw [wraps₂] at two
  rw [wraps₃] at three
  exact ((emits_one d (out_nibble d first.state) one).append
    (emits_one d (out_nibble d second.state) two)).append
    (emits_one d (out_nibble d third.state) three)

/-- A window of the payload. -/
theorem emits_window {n o : Nat} {s : Sums} (between : s.AtGroup) (p q v latch : BitVec 8)
    (early : n + 3 < 679) (room : o + 3 < 512) :
    let x := d.byteAt sector o
    let y := d.byteAt sector (o + 1)
    let z := d.byteAt sector (o + 2)
    (stream d).Emits (window .data n sector o s p q v latch)
      ((SixTwo.group p q v).map sonyToDiskByte)
      (window .data (n + 4) sector (o + 3) (sony.feed (sony.feed (sony.feed s x) y) z)
        (x ^^^ sony.key s) (y ^^^ sony.key (sony.feed s x))
        (z ^^^ sony.key (sony.feed (sony.feed s x) y)) z) := by
  have first : Fetching .data n := .inr ⟨rfl, by omega⟩
  have second : Fetching .data (n + 1) := .inr ⟨rfl, by omega⟩
  have third : Fetching .data (n + 2) := .inr ⟨rfl, by omega⟩
  have front := emits_fetch d sector between p q v latch first second third room
  have all := front.append (emits_one d (out_nibble d (.inr rfl)) (next_fourth d rfl rfl early))
  obtain ⟨c1, c2, c3, carry, phase⟩ := s
  obtain ⟨rfl, rfl⟩ := between
  exact all

/-- The prefetch: the tag ends with a group of zeros. -/
theorem emits_prefetch (latch : BitVec 8) :
    let x := d.byteAt sector 0
    let y := d.byteAt sector 1
    let z := d.byteAt sector 2
    (stream d).Emits (cleared .dpre 0 sector 0 latch) (List.replicate 4 (sonyToDiskByte 0))
      (window .data 0 sector 3 (sony.feed (sony.feed (sony.feed noSums x) y) z)
        (x ^^^ sony.key noSums) (y ^^^ sony.key (sony.feed noSums x))
        (z ^^^ sony.key (sony.feed (sony.feed noSums x) y)) z) := by
  have front := emits_fetch d sector (s := noSums) ⟨rfl, rfl⟩ 0 0 0 latch (n := 0) (o := 0)
    (.inl ⟨rfl, by decide⟩) (.inl ⟨rfl, by decide⟩) (.inl ⟨rfl, by decide⟩) (by decide)
  exact front.append (emits_one d (out_nibble d (.inl rfl)) (next_fourth_prefetch d rfl rfl rfl))

/-- The last window sums up two bytes, and they go out after it. -/
theorem emits_last {s : Sums} (between : s.AtGroup) (p q v latch : BitVec 8) :
    let x := d.byteAt sector 510
    let y := d.byteAt sector 511
    let s' := sony.feed (sony.feed s x) y
    (stream d).Emits (window .data 676 sector 510 s p q v latch)
      ((SixTwo.group p q v ++ SixTwo.pack [x ^^^ sony.key s, y ^^^ sony.key (sony.feed s x)]).map
        sonyToDiskByte)
      ⟨.dsum, 0, sector, 0, s'.c1, s'.c2, s'.carry, s'.c3, false, 3, x ^^^ sony.key s,
        y ^^^ sony.key (sony.feed s x), 0, y⟩ := by
  obtain ⟨c1, c2, c3, carry, phase⟩ := s
  obtain ⟨rfl, rfl⟩ := between
  have nib : ∀ r : Regs, r.state = .data → (stream d).out r = sonyToDiskByte (nibOut r) :=
    fun r state => out_nibble d (.inr state)
  have fetch₁ := next_first d sector 510 c1 c2 c3 p q v latch false false (S := .data) (n := 676)
    (.inr ⟨rfl, by decide⟩)
  have fetch₂ := next_second d sector 511 c1 c2 c3 p q v (d.byteAt sector 510) false false (S := .data)
    (n := 677) (.inr ⟨rfl, by decide⟩)
  have out₁ := (emits_one d (nib _ rfl) fetch₁).append (emits_one d (nib _ rfl) fetch₂)
  have out₂ := out₁.append (emits_one d (nib _ rfl) (next_third_last d rfl rfl rfl))
  have out₃ := out₂.append (emits_one d (nib _ rfl) (next_fourth_last d rfl rfl rfl))
  have out₄ := out₃.append (emits_one d (nib _ rfl)
    (next_idle d rfl (by decide : 0 < 3) (by decide : 680 ≤ 680) (by decide : 680 < 682)))
  have out₅ := out₄.append (emits_one d (nib _ rfl)
    (next_idle d rfl (by decide : 1 < 3) (by decide : 680 ≤ 681) (by decide : 681 < 682)))
  have out₆ := out₅.append (emits_one d (nib _ rfl) (next_payload_end d rfl rfl rfl))
  exact out₆

end Windows

section Sector

variable (d : Surface) (sector : Nat)

/-- The sums before a byte of the payload. -/
def sumsAt (k : Nat) : Sums := sony.registerAt noSums (d.byteAt sector) k

/-- The byte that is written for a byte of the payload. -/
def sentAt (k : Nat) : BitVec 8 := sony.sent noSums (d.byteAt sector) k

/-- The three sums after a group, and what is written for its second and third
byte. -/
theorem sumsAt_three (k : Nat) :
    sumsAt d sector (k + 1) = sony.feed (sumsAt d sector k) (d.byteAt sector k) ∧
    sumsAt d sector (k + 2) = sony.feed (sumsAt d sector (k + 1)) (d.byteAt sector (k + 1)) ∧
    sumsAt d sector (k + 3) = sony.feed (sumsAt d sector (k + 2)) (d.byteAt sector (k + 2)) :=
  ⟨sony.registerAt_succ noSums _ k, sony.registerAt_succ noSums _ (k + 1),
    sony.registerAt_succ noSums _ (k + 2)⟩

theorem sentAt_eq (k : Nat) :
    sentAt d sector k = d.byteAt sector k ^^^ sony.key (sumsAt d sector k) := rfl

theorem sumsAt_atGroup (g : Nat) : (sumsAt d sector (3 * g)).AtGroup := by
  induction g with
  | zero => exact ⟨rfl, rfl⟩
  | succ g ih =>
    obtain ⟨one, two, three⟩ := sumsAt_three d sector (3 * g)
    rw [Nat.mul_succ, three, two, one]
    exact atGroup_feed ih _ _ _

/-- The window in which group `g` goes out. -/
def groupWindow (g : Nat) : Regs :=
  window .data (4 * g) sector (3 * g + 3) (sumsAt d sector (3 * g + 3)) (sentAt d sector (3 * g))
    (sentAt d sector (3 * g + 1)) (sentAt d sector (3 * g + 2)) (d.byteAt sector (3 * g + 2))

/-- The nibbles of group `g`. -/
def groupNibbles (g : Nat) : List (BitVec 6) :=
  SixTwo.group (sentAt d sector (3 * g)) (sentAt d sector (3 * g + 1)) (sentAt d sector (3 * g + 2))

theorem emits_group {g : Nat} (inner : g < 169) :
    (stream d).Emits (groupWindow d sector g) ((groupNibbles d sector g).map sonyToDiskByte)
      (groupWindow d sector (g + 1)) := by
  have out := emits_window d sector (sumsAt_atGroup d sector (g + 1)) (sentAt d sector (3 * g))
    (sentAt d sector (3 * g + 1)) (sentAt d sector (3 * g + 2)) (d.byteAt sector (3 * g + 2))
    (n := 4 * g) (o := 3 * g + 3) (by omega) (by omega)
  obtain ⟨one, two, three⟩ := sumsAt_three d sector (3 * g + 3)
  rw [groupWindow, groupWindow, groupNibbles, Nat.mul_succ, Nat.mul_succ, three, sentAt_eq d sector (3 * g + 3),
    sentAt_eq d sector (3 * g + 3 + 1), sentAt_eq d sector (3 * g + 3 + 2), two, one]
  exact out

theorem emits_groups : (stream d).Emits (groupWindow d sector 0)
    ((List.range 169).flatMap fun g => (groupNibbles d sector g).map sonyToDiskByte)
    (groupWindow d sector 169) :=
  Source.emits_flatMap _ _ _ fun _ inner => emits_group d sector inner

/-- The payload's nibbles, group by group. -/
theorem pack_payload :
    SixTwo.pack (sony.encode noSums ((List.range 512).map (d.byteAt sector))) =
      (List.range 169).flatMap (groupNibbles d sector) ++ (groupNibbles d sector 169 ++
        SixTwo.pack [sentAt d sector 510, sentAt d sector 511]) := by
  have split : List.range 512 = List.range (3 * 170) ++ [510, 511] := by
    rw [List.range_succ (n := 511), List.range_succ (n := 510), List.append_assoc]
    rfl
  rw [Autokey.encode_range, split, List.map_append]
  change SixTwo.pack ((List.range (3 * 170)).map (sentAt d sector) ++
    [sentAt d sector 510, sentAt d sector 511]) = _
  rw [SixTwo.pack_range, List.range_succ, List.flatMap_append, List.flatMap_singleton,
    List.append_assoc]
  rfl

/-- The registers when the checksum begins. -/
def checksumStart : Regs :=
  ⟨.dsum, 0, sector, 0, (sumsAt d sector 512).c1, (sumsAt d sector 512).c2,
    (sumsAt d sector 512).carry, (sumsAt d sector 512).c3, false, 3, sentAt d sector 510,
    sentAt d sector 511, 0, d.byteAt sector 511⟩

theorem emits_payload : (stream d).Emits (groupWindow d sector 0)
    ((SixTwo.pack (sony.encode noSums ((List.range 512).map (d.byteAt sector)))).map sonyToDiskByte)
    (checksumStart d sector) := by
  have between : (sumsAt d sector 510).AtGroup := sumsAt_atGroup d sector 170
  have last := emits_last d sector between (sentAt d sector 507) (sentAt d sector 508)
    (sentAt d sector 509) (d.byteAt sector 509)
  obtain ⟨one, two, -⟩ := sumsAt_three d sector 510
  simp only [Nat.reduceAdd] at one two
  rw [pack_payload, List.map_append, List.map_flatMap]
  refine (emits_groups d sector).append ?_
  rw [checksumStart, sentAt_eq d sector 510, sentAt_eq d sector 511, two, one]
  exact last

/-- The prefetch leads to the window of the first group. -/
theorem emits_tag_end (latch : BitVec 8) :
    (stream d).Emits (cleared .dpre 0 sector 0 latch) (List.replicate 4 (sonyToDiskByte 0))
      (groupWindow d sector 0) := by
  have out := emits_prefetch d sector latch
  obtain ⟨one, two, three⟩ := sumsAt_three d sector 0
  simp only [Nat.zero_add] at one two three
  simp only [groupWindow, Nat.mul_zero, Nat.zero_add, three, sentAt_eq, two, one]
  exact out

/-- The payload of a sector as it is asked for. -/
def payload : List (BitVec 8) := (List.range 512).map (d.byteAt sector)

/-- The tag of twelve zeros leaves the sums alone. -/
theorem map_dataField : (dataField sector (List.replicate 12 0 ++ payload d sector)).map sonyToDiskByte =
    [sonyToDiskByte (BitVec.ofNat 6 sector)] ++ List.replicate 12 (sonyToDiskByte 0) ++
      List.replicate 4 (sonyToDiskByte 0) ++
      (SixTwo.pack (sony.encode noSums (payload d sector))).map sonyToDiskByte ++
      (SixTwo.group (sumsAt d sector 512).c3 (sumsAt d sector 512).c2
        (sumsAt d sector 512).c1).map sonyToDiskByte := by
  have zeros : sony.encode noSums (List.replicate 12 0) = List.replicate 12 0 := by decide +kernel
  have still : sony.register noSums (List.replicate 12 0) = noSums := by decide +kernel
  have packed : ∀ rest, SixTwo.pack (List.replicate 12 0 ++ rest) =
      List.replicate 16 0 ++ SixTwo.pack rest := by
    intro rest
    simp only [List.replicate, List.cons_append, List.nil_append, SixTwo.pack, SixTwo.group]
    rfl
  have sums : sony.register noSums (payload d sector) = sumsAt d sector 512 := rfl
  rw [dataField, Autokey.encode_append, Autokey.register_append, zeros, still, packed, sums]
  simp only [List.map_cons, List.map_append, List.map_replicate, List.cons_append, List.nil_append,
    List.append_assoc, SixTwo.pack, List.append_nil]
  rw [← List.append_assoc (List.replicate 12 _), List.replicate_append_replicate]

/-- The data field with its header, and the two states after it. -/
theorem emits_data (latch : BitVec 8) (small : sector < 16) : ∃ r' : Regs,
    r'.state = .syn0 ∧ r'.count = 0 ∧ r'.sector = nextSector d.track sector ∧ r'.srcOffset = 0 ∧
    (stream d).Emits (cleared .dhdr 0 sector 0 latch)
      ([0xD5, 0xAA, 0xAD] ++
        (dataField sector (List.replicate 12 0 ++ payload d sector)).map sonyToDiskByte ++
        [0xDE, 0xAA, 0xFF] ++ [0xFF]) r' := by
  have header := emits_header d sector latch small
  have tag := emits_tag_end d sector latch
  have body := emits_payload d sector
  have dsum := emits_run d (S := .dsum) (by decide) (checksumStart d sector) Fsm.noConfusion
  have dtrl := emits_run d (S := .dtrl) (by decide) (checksumStart d sector) Fsm.noConfusion
  have here : ({ checksumStart d sector with state := .dsum, count := 0 } : Regs) =
      checksumStart d sector := by simp only [checksumStart]
  have sums : runNibbles d .dsum (checksumStart d sector) =
      (SixTwo.group (sumsAt d sector 512).c3 (sumsAt d sector 512).c2
        (sumsAt d sector 512).c1).map sonyToDiskByte := by
    simp only [runNibbles, lastCount, List.range_succ, List.range_zero, List.map_cons,
      List.map_nil, List.nil_append, List.cons_append, odata, si, sonyDsumIn, checksumStart,
      SixTwo.group, SixTwo.upper, SixTwo.lower]
  have trailer : runNibbles d .dtrl (checksumStart d sector) = [0xDE, 0xAA, 0xFF] := rfl
  rw [here, sums] at dsum
  rw [trailer] at dtrl
  let done : Regs := { checksumStart d sector with
    state := .syn0, count := 0, srcOffset := 0, sector := nextSector d.track sector }
  have wait : (stream d).next { checksumStart d sector with state := .wait, count := 0 } = done := by
    simp [stream, stepRegs, advance, sequence, strobe, Surface.enable, checksumStart, done]
  have all := ((((header.append tag).append body).append dsum).append dtrl).append
    (emits_one d rfl wait)
  refine ⟨done, rfl, rfl, rfl, rfl, ?_⟩
  rw [map_dataField]
  simp only [List.append_assoc] at all ⊢
  exact all

/-- A sector, from its first sync nibble to the next one's. -/
theorem emits_sector {r : Regs} (start : r.state = .syn0) (first : r.count = 0)
    (parked : r.srcOffset = 0) (small : r.sector < 16) : ∃ r' : Regs,
    r'.state = .syn0 ∧ r'.count = 0 ∧ r'.sector = nextSector d.track r.sector ∧ r'.srcOffset = 0 ∧
    (stream d).Emits r
      (sectorNibbles d r.sector (List.replicate 12 0 ++ payload d r.sector)) r' := by
  have address := emits_address d start first small
  rw [parked] at address
  obtain ⟨r', state, count, sector, offset, data⟩ := emits_data d r.sector r.dataLatch small
  refine ⟨r', state, count, sector, offset, ?_⟩
  have all := address.append data
  rw [sectorNibbles]
  simp only [List.append_assoc] at all ⊢
  exact all

end Sector

end MacIIvi.Gcr
