import MacIIvi.Floppy.Mfm

/-!
# The MFM track

What a track looks like from index to index, and how the generator delivers it
when it starts at the index.
-/

namespace MacIIvi.Mfm

open Clocked Codes.Crc

/-! ## The format -/

/-- A byte that carries no flag. -/
def plain (b : BitVec 8) : Out := ⟨b, false, false, false, false⟩

/-- `n` bytes of one value without a flag. -/
def fill (n : Nat) (b : BitVec 8) : List Out := List.replicate n (plain b)

/-- The gap under the index hole. -/
def indexGap : List Out := List.replicate 80 ⟨0x4E, false, false, false, true⟩

/-- From the index to the first sector. -/
def preamble : List Out :=
  indexGap ++ fill 12 0x00 ++ [plain 0xC2, plain 0xC2, plain 0xC2, plain 0xFC] ++ fill 50 0x4E

/-- The three marks that open a field. -/
def marks : List Out := List.replicate 3 ⟨0xA1, true, false, false, false⟩

/-- The two bytes of a check. -/
def checkBytes (c : BitVec 16) : List Out :=
  [plain (c.extractLsb' 8 8), ⟨c.extractLsb' 0 8, false, true, false, false⟩]

/-- Sectors on a track. -/
def spt (hd : Bool) : Nat := if hd then 18 else 9

/-- The header of sector `r`: cylinder, head, number and size. -/
def header (d : Surface) (r : Nat) : List (BitVec 8) :=
  [0xFE, BitVec.ofNat 8 d.track.toNat, BitVec.ofNat 8 d.side.toNat, BitVec.ofNat 8 r, 2]

/-- The bytes of sector `r` in the image. -/
def payload (d : Surface) (r : Nat) : List (BitVec 8) :=
  (List.range 512).map fun k =>
    d.image (((d.track.toNat * 2 + d.side.toNat) * spt d.hd + (r - 1)) * 512 + k)

/-- The address field of sector `r`. -/
def idField (d : Surface) (r : Nat) : List Out :=
  marks ++ (header d r).map plain ++ checkBytes (ccitt ([0xA1, 0xA1, 0xA1] ++ header d r))

/-- The data field of sector `r`. -/
def dataField (d : Surface) (r : Nat) : List Out :=
  marks ++ [plain 0xFB] ++ (payload d r).map (fun b => ⟨b, false, false, true, false⟩) ++
    checkBytes (ccitt ([0xA1, 0xA1, 0xA1, 0xFB] ++ payload d r))

/-- Sector `r` with its gaps. -/
def sectorImage (d : Surface) (r : Nat) : List Out :=
  fill 12 0x00 ++ idField d r ++ fill 22 0x4E ++ fill 12 0x00 ++ dataField d r ++ fill 108 0x4E

/-- The sectors `1, …, n`. -/
def sectors (d : Surface) (n : Nat) : List Out :=
  (List.range n).flatMap fun k => sectorImage d (k + 1)

/-- The track from index to index. -/
def trackImage (d : Surface) : List Out := preamble ++ sectors d (spt d.hd)

@[simp] theorem length_fill (n : Nat) (b : BitVec 8) : (fill n b).length = n :=
  List.length_replicate

@[simp] theorem length_payload (d : Surface) (r : Nat) : (payload d r).length = 512 := by
  rw [payload, List.length_map, List.length_range]

@[simp] theorem length_idField (d : Surface) (r : Nat) : (idField d r).length = 10 := rfl

@[simp] theorem length_dataField (d : Surface) (r : Nat) : (dataField d r).length = 518 := by
  simp only [dataField, List.length_append, List.length_map, length_payload]
  rfl

theorem length_preamble : preamble.length = 146 := by
  simp only [preamble, List.length_append, length_fill, indexGap, List.length_replicate]
  rfl

theorem length_sectorImage (d : Surface) (r : Nat) : (sectorImage d r).length = 682 := by
  simp only [sectorImage, List.length_append, length_fill, length_idField, length_dataField]

theorem length_sectors (d : Surface) (n : Nat) : (sectors d n).length = n * 682 := by
  unfold sectors
  simp only [List.length_flatMap, length_sectorImage, List.map_const', List.length_range,
    List.sum_replicate_nat]

/-- The bytes of a revolution. -/
def revolution (hd : Bool) : Nat := 146 + spt hd * 682

theorem length_trackImage (d : Surface) : (trackImage d).length = revolution d.hd := by
  rw [trackImage, List.length_append, length_preamble, length_sectors, revolution]

theorem spt_eq (hd : Bool) : spt hd = sptMax hd + 1 := by cases hd <;> rfl

/-- The check over an address field leaves zero. -/
theorem idField_check (d : Surface) (r : Nat) : ccitt ((idField d r).map Out.odata) = 0 := by
  have bytes : (idField d r).map Out.odata = [0xA1, 0xA1, 0xA1] ++ header d r ++
      [(ccitt ([0xA1, 0xA1, 0xA1] ++ header d r)).extractLsb' 8 8,
        (ccitt ([0xA1, 0xA1, 0xA1] ++ header d r)).extractLsb' 0 8] := rfl
  rw [bytes]
  exact ccitt_append_self _

/-- The check over a data field leaves zero. -/
theorem dataField_check (d : Surface) (r : Nat) : ccitt ((dataField d r).map Out.odata) = 0 := by
  have bytes : (dataField d r).map Out.odata = [0xA1, 0xA1, 0xA1, 0xFB] ++ payload d r ++
      [(ccitt ([0xA1, 0xA1, 0xA1, 0xFB] ++ payload d r)).extractLsb' 8 8,
        (ccitt ([0xA1, 0xA1, 0xA1, 0xFB] ++ payload d r)).extractLsb' 0 8] := by
    unfold dataField
    simp only [List.map_append, List.map_map]
    have same : (payload d r).map (Out.odata ∘ fun b => ⟨b, false, false, true, false⟩) =
        payload d r := List.map_id _
    rw [same]
    rfl
  rw [bytes]
  exact ccitt_append_self _

/-! ## The stream, run by run -/

section Stretches

variable (d : Surface) (sector : Nat) (c : BitVec 16)

/-- A gap or a sync run. -/
theorem emits_fill {S : Fsm} {o : Out} (silent : S ≠ .data)
    (same : ∀ k ≤ lenM1 S, outputs ⟨S, k, sector, 0, c⟩ (d.pull ⟨S, k, sector, 0, c⟩) = o)
    (keep : ∀ k ≤ lenM1 S, nextCrc ⟨S, k, sector, 0, c⟩ (d.pull ⟨S, k, sector, 0, c⟩) = c) :
    (stream d).Emits ⟨S, 0, sector, 0, c⟩ (List.replicate (lenM1 S + 1) o)
      ((stream d).next ⟨S, lenM1 S, sector, 0, c⟩) := by
  have parked : ∀ k, nextSrcOffset ⟨S, k, sector, 0, c⟩ = 0 := fun k => if_neg silent
  have counted := Source.emits_counted (m := stream d) (fun k => ⟨S, k, sector, 0, c⟩)
    (fun _ => o) (lenM1 S)
    (fun k hk => by
      refine ⟨same k (by omega), ?_⟩
      rw [next_stream, advance_inside (by exact hk), parked, keep k (by omega)])
    (same _ (Nat.le_refl _))
  rw [List.map_const', List.length_range] at counted
  exact counted

theorem emits_gap {S : Fsm} {o : Out} (silent : S ≠ .data) (more : S ≠ .gap3)
    (same : ∀ k ≤ lenM1 S, outputs ⟨S, k, sector, 0, c⟩ (d.pull ⟨S, k, sector, 0, c⟩) = o)
    (keep : ∀ k ≤ lenM1 S, nextCrc ⟨S, k, sector, 0, c⟩ (d.pull ⟨S, k, sector, 0, c⟩) = c) :
    (stream d).Emits ⟨S, 0, sector, 0, c⟩ (List.replicate (lenM1 S + 1) o)
      ⟨S.succ, 0, sector, 0, c⟩ := by
  have leave : (stream d).next ⟨S, lenM1 S, sector, 0, c⟩ = ⟨S.succ, 0, sector, 0, c⟩ := by
    rw [next_stream, advance_last rfl more, keep _ (Nat.le_refl _), nextSrcOffset, if_neg silent]
  rw [← leave]
  exact emits_fill d sector c silent same keep

theorem emits_marks {S : Fsm} (opening : S = .idA1 ∨ S = .daA1) :
    (stream d).Emits ⟨S, 0, sector, 0, c⟩ marks ⟨S.succ, 0, sector, 0, crcSeed⟩ := by
  rcases opening with rfl | rfl <;> exact ⟨rfl, rfl⟩

theorem emits_check {S : Fsm} (closing : S = .idCrc ∨ S = .daCrc) :
    (stream d).Emits ⟨S, 0, sector, 0, c⟩ (checkBytes c) ⟨S.succ, 0, sector, 0, c⟩ := by
  rcases closing with rfl | rfl <;> exact ⟨rfl, rfl⟩

/-- The check over a message after the three marks. -/
theorem ccitt_marks (message : List (BitVec 8)) :
    message.foldl crc16 crcSeed = ccitt ([0xA1, 0xA1, 0xA1] ++ message) := by
  have same : crc16 = feedByte ccittPoly := by
    funext c d
    exact crc16_eq_feedByte c d
  rw [same, crcSeed_eq, ccitt, ccitt, List.foldl_append]

theorem zero_append {n w : Nat} (x : BitVec w) : 0#n ++ x = BitVec.ofNat (n + w) x.toNat := by
  have wider : 2 ^ w ≤ 2 ^ (n + w) := Nat.pow_le_pow_right (by decide) (by omega)
  have narrow := x.isLt
  apply BitVec.eq_of_toNat_eq
  rw [BitVec.toNat_append, BitVec.toNat_ofNat, BitVec.toNat_ofNat, Nat.zero_mod, Nat.zero_shiftLeft,
    Nat.zero_or, Nat.mod_eq_of_lt (by omega)]

/-- The address mark and the four bytes after it. -/
theorem emits_header (inside : sector < 31) :
    (stream d).Emits ⟨.idAm, 0, sector, 0, crcSeed⟩ ((header d (sector + 1)).map plain)
      ⟨.idCrc, 0, sector, 0, ccitt ([0xA1, 0xA1, 0xA1] ++ header d (sector + 1))⟩ := by
  have cylinder : 0#1 ++ d.track = BitVec.ofNat 8 d.track.toNat := zero_append _
  have head : 0#7 ++ BitVec.ofBool d.side = BitVec.ofNat 8 d.side.toNat := by
    cases d.side <;> rfl
  have number : 0#3 ++ BitVec.ofNat 5 (sector + 1) = BitVec.ofNat 8 (sector + 1) := by
    rw [zero_append, BitVec.toNat_ofNat, Nat.mod_eq_of_lt (by omega)]
  have emits_am : ∀ c, (stream d).Emits ⟨.idAm, 0, sector, 0, c⟩ [plain 0xFE]
      ⟨.idChrn, 0, sector, 0, crc16 c 0xFE⟩ := fun _ => ⟨rfl, rfl⟩
  have emits_c : ∀ c, (stream d).Emits ⟨.idChrn, 0, sector, 0, c⟩ [plain (0#1 ++ d.track)]
      ⟨.idChrn, 1, sector, 0, crc16 c (0#1 ++ d.track)⟩ := fun _ => ⟨rfl, rfl⟩
  have emits_h : ∀ c, (stream d).Emits ⟨.idChrn, 1, sector, 0, c⟩
      [plain (0#7 ++ BitVec.ofBool d.side)]
      ⟨.idChrn, 2, sector, 0, crc16 c (0#7 ++ BitVec.ofBool d.side)⟩ := fun _ => ⟨rfl, rfl⟩
  have emits_r : ∀ c, (stream d).Emits ⟨.idChrn, 2, sector, 0, c⟩
      [plain (0#3 ++ BitVec.ofNat 5 (sector + 1))]
      ⟨.idChrn, 3, sector, 0, crc16 c (0#3 ++ BitVec.ofNat 5 (sector + 1))⟩ :=
    fun _ => ⟨rfl, rfl⟩
  have emits_n : ∀ c, (stream d).Emits ⟨.idChrn, 3, sector, 0, c⟩ [plain 2]
      ⟨.idCrc, 0, sector, 0, crc16 c 2⟩ := fun _ => ⟨rfl, rfl⟩
  rw [← ccitt_marks, header, ← cylinder, ← head, ← number]
  exact ((((emits_am _).append (emits_c _)).append (emits_h _)).append (emits_r _)).append (emits_n _)

/-- The payload, as it is fetched. -/
theorem emits_payload (inside : sector < 32) :
    (stream d).Emits ⟨.data, 0, sector, 0, c⟩
      ((payload d (sector + 1)).map fun b => ⟨b, false, false, true, false⟩)
      ⟨.daCrc, 0, sector, 0, (payload d (sector + 1)).foldl crc16 c⟩ := by
  let byte (k : Nat) : BitVec 8 :=
    d.image (((d.track.toNat * 2 + d.side.toNat) * spt d.hd + (sector + 1 - 1)) * 512 + k)
  let check (k : Nat) : BitVec 16 := ((List.range k).map byte).foldl crc16 c
  have check_succ : ∀ k, check (k + 1) = crc16 (check k) (byte k) := by
    intro k
    simp only [check, List.range_succ, List.map_append, List.foldl_append, List.map_singleton,
      List.foldl_cons, List.foldl_nil]
  have fetched : ∀ k, d.image (addr ⟨.data, k, sector, k, check k⟩ d.track d.side d.hd) = byte k := by
    intro k
    rw [addr_eq d (by exact inside), ← spt_eq]
    rfl
  have said : ∀ k, (stream d).out ⟨.data, k, sector, k, check k⟩ =
      ⟨byte k, false, false, true, false⟩ := by
    intro k
    rw [← fetched k]
    rfl
  have fed : ∀ k, nextCrc ⟨.data, k, sector, k, check k⟩ (d.pull ⟨.data, k, sector, k, check k⟩) =
      check (k + 1) := by
    intro k
    rw [check_succ, ← fetched k]
    rfl
  have counted := Source.emits_counted (m := stream d)
    (fun k => ⟨.data, k, sector, k, check k⟩) (fun k => ⟨byte k, false, false, true, false⟩) 511
    (fun k hk => by
      refine ⟨said k, ?_⟩
      rw [next_stream, advance_inside (by exact hk), fed]
      have wraps : (k + 1) % 2 ^ 9 = k + 1 := Nat.mod_eq_of_lt (by omega)
      simp only [nextSrcOffset, if_true, wraps])
    (said 511)
  have leave : (stream d).next ⟨.data, 511, sector, 511, check 511⟩ =
      ⟨.daCrc, 0, sector, 0, check (511 + 1)⟩ := by
    have wraps : nextSrcOffset ⟨.data, 511, sector, 511, check 511⟩ = 0 := by simp [nextSrcOffset]
    rw [next_stream, advance_last rfl Fsm.noConfusion, fed, wraps]
    rfl
  rw [leave] at counted
  rw [payload, List.map_map]
  exact counted

end Stretches

/-! ## A sector and a track -/

section Sectors

variable (d : Surface) (sector : Nat) (c : BitVec 16)

/-- The address field. -/
theorem emits_idField (inside : sector < 31) :
    (stream d).Emits ⟨.idA1, 0, sector, 0, c⟩ (idField d (sector + 1))
      ⟨.gap2, 0, sector, 0, ccitt ([0xA1, 0xA1, 0xA1] ++ header d (sector + 1))⟩ := by
  have opened := emits_marks d sector c (S := .idA1) (.inl rfl)
  have named := emits_header d sector inside
  have closed := emits_check d sector (ccitt ([0xA1, 0xA1, 0xA1] ++ header d (sector + 1)))
    (S := .idCrc) (.inl rfl)
  exact (opened.append named).append closed

/-- The data field. -/
theorem emits_dataField (inside : sector < 31) :
    (stream d).Emits ⟨.daA1, 0, sector, 0, c⟩ (dataField d (sector + 1))
      ⟨.gap3, 0, sector, 0, ccitt ([0xA1, 0xA1, 0xA1, 0xFB] ++ payload d (sector + 1))⟩ := by
  have opened := emits_marks d sector c (S := .daA1) (.inr rfl)
  have marked : (stream d).Emits ⟨.daAm, 0, sector, 0, crcSeed⟩ [plain 0xFB]
      ⟨.data, 0, sector, 0, crc16 crcSeed 0xFB⟩ := ⟨rfl, rfl⟩
  have filled := emits_payload d sector (crc16 crcSeed 0xFB) (by omega)
  have check : (payload d (sector + 1)).foldl crc16 (crc16 crcSeed 0xFB) =
      ccitt ([0xA1, 0xA1, 0xA1, 0xFB] ++ payload d (sector + 1)) := by
    rw [← List.foldl_cons, ccitt_marks]
    simp only [List.cons_append, List.nil_append]
  rw [check] at filled
  have closed := emits_check d sector (ccitt ([0xA1, 0xA1, 0xA1, 0xFB] ++ payload d (sector + 1)))
    (S := .daCrc) (.inr rfl)
  exact ((opened.append marked).append filled).append closed

/-- A sector up to its last gap byte. -/
theorem emits_sectorImage (inside : sector < 31) : ∃ c',
    (stream d).Emits ⟨.idSync, 0, sector, 0, c⟩ (sectorImage d (sector + 1))
      ((stream d).next ⟨.gap3, 107, sector, 0, c'⟩) := by
  have sync := emits_gap d sector c (S := .idSync) (o := plain 0x00) (by decide) (by decide)
    (fun _ _ => rfl) (fun _ _ => rfl)
  have id := emits_idField d sector c inside
  have gap2 := emits_gap d sector (ccitt ([0xA1, 0xA1, 0xA1] ++ header d (sector + 1)))
    (S := .gap2) (o := plain 0x4E) (by decide) (by decide) (fun _ _ => rfl) (fun _ _ => rfl)
  have sync' := emits_gap d sector (ccitt ([0xA1, 0xA1, 0xA1] ++ header d (sector + 1)))
    (S := .daSync) (o := plain 0x00) (by decide) (by decide) (fun _ _ => rfl) (fun _ _ => rfl)
  have data := emits_dataField d sector (ccitt ([0xA1, 0xA1, 0xA1] ++ header d (sector + 1))) inside
  have gap3 := emits_fill d sector (ccitt ([0xA1, 0xA1, 0xA1, 0xFB] ++ payload d (sector + 1)))
    (S := .gap3) (o := plain 0x4E) (by decide) (fun _ _ => rfl) (fun _ _ => rfl)
  exact ⟨_, ((((sync.append id).append gap2).append sync').append data).append gap3⟩

/-- A sector that is not the last one leads to the next. -/
theorem emits_sector (more : sector < sptMax d.hd) : ∃ c',
    (stream d).Emits ⟨.idSync, 0, sector, 0, c⟩ (sectorImage d (sector + 1))
      ⟨.idSync, 0, sector + 1, 0, c'⟩ := by
  have short : sptMax d.hd ≤ 17 := by cases d.hd <;> decide
  obtain ⟨c', said⟩ := emits_sectorImage d sector c (by omega)
  have other : sector ≠ sptMax d.hd := by omega
  have wraps : (sector + 1) % 2 ^ 5 = sector + 1 := Nat.mod_eq_of_lt (by omega)
  rw [next_stream, advance_sector rfl rfl other, wraps] at said
  exact ⟨_, said⟩

/-- The last sector leads to the index. -/
theorem emits_last_sector : ∃ c',
    (stream d).Emits ⟨.idSync, 0, sptMax d.hd, 0, c⟩ (sectorImage d (sptMax d.hd + 1))
      ⟨.preGap, 0, 0, 0, c'⟩ := by
  have short : sptMax d.hd ≤ 17 := by cases d.hd <;> decide
  obtain ⟨c', said⟩ := emits_sectorImage d (sptMax d.hd) c (by omega)
  rw [next_stream, advance_index rfl rfl rfl] at said
  exact ⟨_, said⟩

theorem emits_sectors (n : Nat) (inside : n ≤ sptMax d.hd) : ∃ c',
    (stream d).Emits ⟨.idSync, 0, 0, 0, c⟩ (sectors d n) ⟨.idSync, 0, n, 0, c'⟩ := by
  induction n with
  | zero => exact ⟨c, Source.Emits.nil⟩
  | succ n ih =>
    obtain ⟨c', front⟩ := ih (by omega)
    obtain ⟨c'', last⟩ := emits_sector d n c' (by omega)
    refine ⟨c'', ?_⟩
    rw [sectors, List.range_succ, List.flatMap_append, List.flatMap_singleton]
    exact front.append last

theorem emits_preamble :
    (stream d).Emits ⟨.preGap, 0, 0, 0, c⟩ preamble ⟨.idSync, 0, 0, 0, c⟩ := by
  have gap := emits_gap d 0 c (S := .preGap) (o := ⟨0x4E, false, false, false, true⟩)
    (by decide) (by decide) (fun _ _ => rfl) (fun _ _ => rfl)
  have sync := emits_gap d 0 c (S := .preSync) (o := plain 0x00) (by decide) (by decide)
    (fun _ _ => rfl) (fun _ _ => rfl)
  have iam : (stream d).Emits ⟨.preIam, 0, 0, 0, c⟩
      [plain 0xC2, plain 0xC2, plain 0xC2, plain 0xFC] ⟨.preGap1, 0, 0, 0, c⟩ := ⟨rfl, rfl⟩
  have gap1 := emits_gap d 0 c (S := .preGap1) (o := plain 0x4E) (by decide) (by decide)
    (fun _ _ => rfl) (fun _ _ => rfl)
  exact ((gap.append sync).append iam).append gap1

/-- From the index the generator delivers the track and is back at the index. -/
theorem emits_trackImage : ∃ c',
    (stream d).Emits ⟨.preGap, 0, 0, 0, c⟩ (trackImage d) ⟨.preGap, 0, 0, 0, c'⟩ := by
  obtain ⟨c', front⟩ := emits_sectors d c (sptMax d.hd) (Nat.le_refl _)
  obtain ⟨c'', last⟩ := emits_last_sector d c'
  refine ⟨c'', ?_⟩
  have all := ((emits_preamble d c).append front).append last
  rw [trackImage, spt_eq, sectors, List.range_succ, List.flatMap_append, List.flatMap_singleton,
    ← List.append_assoc]
  exact all

/-- And so it goes round. -/
theorem emits_revolutions (n : Nat) : ∃ c',
    (stream d).Emits ⟨.preGap, 0, 0, 0, c⟩ (List.replicate n (trackImage d)).flatten
      ⟨.preGap, 0, 0, 0, c'⟩ := by
  induction n generalizing c with
  | zero => exact ⟨c, Source.Emits.nil⟩
  | succ n ih =>
    obtain ⟨c', once⟩ := emits_trackImage d c
    obtain ⟨c'', rest⟩ := ih c'
    exact ⟨c'', once.append rest⟩

end Sectors

end MacIIvi.Mfm
