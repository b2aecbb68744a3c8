import MacIIvi.Codes.Autokey
import MacIIvi.Codes.SixTwo
import MacIIvi.Floppy.Gcr

/-!
# The Sony format

How a Sony drive's driver reads a track: it looks for the marks in the stream of
nibbles, and reads the field behind each of them. A sector in this format reads
back as what was put into it.
-/

namespace MacIIvi.Gcr

open Codes

/-! ## Disk bytes -/

/-- A byte can be written on the disk: the top bit is set, two adjacent ones
follow it somewhere, and no more than one pair of adjacent zeros. -/
def isDiskByte (b : Nat) : Bool :=
  b.testBit 7 && (List.range 6).any (fun i => b.testBit i && b.testBit (i + 1)) &&
    (List.range 7).countP (fun i => !b.testBit i && !b.testBit (i + 1)) ≤ 1

/-- The disk bytes in ascending order: each stands for its place. -/
def diskBytes : List (BitVec 8) := ((List.range 256).filter isDiskByte).map (BitVec.ofNat 8)

/-- The six bits a disk byte stands for. -/
def fromDisk (b : BitVec 8) : Option (BitVec 6) :=
  if b ∈ diskBytes then some (BitVec.ofNat 6 (diskBytes.idxOf b)) else none

/-- The encoder table holds the disk bytes in order, so what it writes reads back
and is never the first byte of a mark. -/
theorem sonyToDiskByte_spec : sonyTable = diskBytes ∧ ∀ v : BitVec 6,
    fromDisk (sonyToDiskByte v) = some v ∧ sonyToDiskByte v ≠ 0xD5 := by
  decide +kernel

theorem mapM_fromDisk (l : List (BitVec 6)) : (l.map sonyToDiskByte).mapM fromDisk = some l := by
  induction l with
  | nil => rfl
  | cons v rest ih => simp [List.mapM_cons, (sonyToDiskByte_spec.2 v).1, ih]

/-! ## The checksums of a data field -/

/-- The three sums, the carry between them, and which of them is next. -/
structure Sums where
  c1 : BitVec 8
  c2 : BitVec 8
  c3 : BitVec 8
  carry : Bool
  phase : Nat
  deriving DecidableEq, Repr

/-- Carry out of a sum of bytes. -/
def carryOut (x y : BitVec 8) (carry : Bool) : Bool := 2 ^ 8 ≤ x.toNat + y.toNat + carry.toNat

/-- The sum of bytes and a carry. -/
def sumOf (x y : BitVec 8) (carry : Bool) : BitVec 8 :=
  BitVec.ofNat 8 (x.toNat + y.toNat + carry.toNat)

/-- The key stream of a data field. -/
def sony : Autokey Sums 8 where
  key s :=
    match s.phase with
    | 0 => s.c1.rotateLeft 1
    | 1 => s.c3
    | _ => s.c2
  feed s x :=
    match s.phase with
    | 0 => { s with c1 := s.c1.rotateLeft 1, c3 := sumOf s.c3 x s.c1.msb
                    carry := carryOut s.c3 x s.c1.msb, phase := 1 }
    | 1 => { s with c2 := sumOf s.c2 x s.carry, carry := carryOut s.c2 x s.carry, phase := 2 }
    | _ => { s with c1 := sumOf s.c1 x s.carry, carry := false, phase := 0 }

/-- The sums before a field. -/
def noSums : Sums := ⟨0, 0, 0, false, 0⟩

/-! ## Reading -/

/-- What is found on a track. -/
inductive Found where
  | address (track side sector : Nat) (format : BitVec 6) (valid : Bool)
  | data (sector : Nat) (tags bytes : List (BitVec 8)) (valid : Bool)
  deriving DecidableEq, Repr

/-- The address field behind its mark. -/
def readAddress (nibbles : List (BitVec 8)) : Option Found :=
  match (nibbles.take 5).mapM fromDisk with
  | some [low, sector, high, format, sum] =>
    some (.address (low.toNat + 64 * (high.toNat % 32)) (high.toNat / 32) sector.toNat format
      (sum = low ^^^ sector ^^^ high ^^^ format))
  | _ => none

/-- The data field behind its mark: 524 bytes in 699 nibbles, and the sums. -/
def readData (nibbles : List (BitVec 8)) : Option Found :=
  match (nibbles.take 704).mapM fromDisk with
  | some (sector :: field) =>
    let plain := sony.decode noSums (SixTwo.unpack (field.take 699))
    let sums := sony.register noSums plain
    some (.data sector.toNat (plain.take 12) (plain.drop 12)
      (SixTwo.unpack (field.drop 699) = [sums.c3, sums.c2, sums.c1]))
  | _ => none

/-- What begins here, if a mark does. -/
def readMark : List (BitVec 8) → Option Found
  | a :: b :: c :: rest =>
    if a = 0xD5 ∧ b = 0xAA ∧ c = 0x96 then readAddress rest
    else if a = 0xD5 ∧ b = 0xAA ∧ c = 0xAD then readData rest
    else none
  | _ => none

/-- All that is found in a stream of nibbles. -/
def scan : List (BitVec 8) → List Found
  | [] => []
  | b :: rest => (readMark (b :: rest)).toList ++ scan rest

theorem readMark_of_ne {b : BitVec 8} (other : b ≠ 0xD5) (rest : List (BitVec 8)) :
    readMark (b :: rest) = none := by
  match rest with
  | [] => rfl
  | [_] => rfl
  | _ :: _ :: _ =>
    rw [readMark, if_neg (fun mark => other mark.1), if_neg (fun mark => other mark.1)]

/-- Without the first byte of a mark nothing is found. -/
theorem scan_cons {b : BitVec 8} (plain : b ≠ 0xD5) (rest : List (BitVec 8)) :
    scan (b :: rest) = scan rest := by
  rw [scan, readMark_of_ne plain]
  rfl

theorem scan_append {f : List (BitVec 8)} (plain : ∀ b ∈ f, b ≠ 0xD5)
    (rest : List (BitVec 8)) : scan (f ++ rest) = scan rest := by
  induction f with
  | nil => rfl
  | cons b f ih =>
    rw [List.cons_append, scan_cons (plain b List.mem_cons_self),
      ih (fun b' hb => plain b' (List.mem_cons_of_mem _ hb))]

theorem scan_mark (b c : BitVec 8) (hb : b ≠ 0xD5) (hc : c ≠ 0xD5) (rest : List (BitVec 8)) :
    scan (0xD5 :: b :: c :: rest) = (readMark (0xD5 :: b :: c :: rest)).toList ++ scan rest := by
  rw [scan]
  congr 1
  exact scan_append (List.forall_mem_cons.mpr ⟨hb, List.forall_mem_singleton.mpr hc⟩) rest

/-! ## Writing -/

/-- The address field of a sector. -/
def addressField (d : Surface) (sector : Nat) : List (BitVec 6) :=
  let low : BitVec 6 := BitVec.ofNat 6 (d.track.toNat % 64)
  let high : BitVec 6 := BitVec.ofNat 6 (d.side.toNat * 32 + d.track.toNat / 64)
  let format : BitVec 6 := BitVec.ofNat 6 (d.sides.toNat * 32 + 2)
  [low, BitVec.ofNat 6 sector, high, format, low ^^^ BitVec.ofNat 6 sector ^^^ high ^^^ format]

/-- The data field of a sector: twelve tag bytes and the payload. -/
def dataField (sector : Nat) (plain : List (BitVec 8)) : List (BitVec 6) :=
  let sums := sony.register noSums plain
  BitVec.ofNat 6 sector :: SixTwo.pack (sony.encode noSums plain) ++
    SixTwo.pack [sums.c3, sums.c2, sums.c1]

/-- A sector with its gaps. -/
def sectorNibbles (d : Surface) (sector : Nat) (plain : List (BitVec 8)) : List (BitVec 8) :=
  List.replicate 56 0xFF ++ [0xD5, 0xAA, 0x96] ++ (addressField d sector).map sonyToDiskByte ++
    [0xDE, 0xAA] ++ List.replicate 5 0xFF ++
    [0xD5, 0xAA, 0xAD] ++ (dataField sector plain).map sonyToDiskByte ++ [0xDE, 0xAA, 0xFF] ++ [0xFF]

/-- What is to be found of a sector. -/
def foundSector (d : Surface) (sector : Nat) (payload : List (BitVec 8)) : List Found :=
  [.address d.track.toNat d.side.toNat sector (BitVec.ofNat 6 (d.sides.toNat * 32 + 2)) true,
    .data sector (List.replicate 12 0) payload true]

theorem map_sonyToDiskByte_ne (l : List (BitVec 6)) : ∀ b ∈ l.map sonyToDiskByte, b ≠ 0xD5 := by
  intro b hb
  obtain ⟨v, -, rfl⟩ := List.mem_map.mp hb
  exact (sonyToDiskByte_spec.2 v).2

theorem replicate_ne (n : Nat) : ∀ b ∈ List.replicate n (0xFF : BitVec 8), b ≠ 0xD5 := by
  intro b hb
  rw [List.eq_of_mem_replicate hb]
  decide

/-- The address field reads back. -/
theorem readAddress_addressField (d : Surface) {sector : Nat} (small : sector < 16)
    (rest : List (BitVec 8)) :
    readAddress ((addressField d sector).map sonyToDiskByte ++ rest) =
      some (.address d.track.toNat d.side.toNat sector (BitVec.ofNat 6 (d.sides.toNat * 32 + 2)) true) := by
  have track := d.track.isLt
  have side := Bool.toNat_le d.side
  have taken : ((addressField d sector).map sonyToDiskByte ++ rest).take 5 =
      (addressField d sector).map sonyToDiskByte := List.take_left' rfl
  rw [readAddress, taken, mapM_fromDisk, addressField]
  simp only [BitVec.toNat_ofNat, decide_true]
  congr 2 <;> omega

/-- The data field reads back. -/
theorem readData_dataField {sector : Nat} (small : sector < 16) {payload : List (BitVec 8)}
    (full : payload.length = 512) (rest : List (BitVec 8)) :
    readData ((dataField sector (List.replicate 12 0 ++ payload)).map sonyToDiskByte ++ rest) =
      some (.data sector (List.replicate 12 0) payload true) := by
  let plain : List (BitVec 8) := List.replicate 12 0 ++ payload
  let sums := sony.register noSums plain
  let body := SixTwo.pack (sony.encode noSums plain)
  let tail := SixTwo.pack [sums.c3, sums.c2, sums.c1]
  have bodyLength : body.length = 699 := by
    rw [SixTwo.length_pack, Autokey.length_encode, List.length_append, List.length_replicate, full]
  have taken : ((dataField sector plain).map sonyToDiskByte ++ rest).take 704 =
      (dataField sector plain).map sonyToDiskByte := by
    apply List.take_left'
    change ((_ :: body ++ tail).map sonyToDiskByte).length = 704
    rw [List.length_map, List.length_append, List.length_cons, bodyLength]
    rfl
  have front : (body ++ tail).take 699 = body := List.take_left' bodyLength
  have back : (body ++ tail).drop 699 = tail := List.drop_left' bodyLength
  have decoded : sony.decode noSums (SixTwo.unpack body) = plain := by
    rw [SixTwo.unpack_pack, Autokey.decode_encode]
  have number : (BitVec.ofNat 6 sector).toNat = sector := by
    rw [BitVec.toNat_ofNat]
    omega
  change readData ((dataField sector plain).map sonyToDiskByte ++ rest) = _
  rw [readData, taken, mapM_fromDisk]
  change some (Found.data (BitVec.ofNat 6 sector).toNat
    ((sony.decode noSums (SixTwo.unpack ((body ++ tail).take 699))).take 12)
    ((sony.decode noSums (SixTwo.unpack ((body ++ tail).take 699))).drop 12)
    (SixTwo.unpack ((body ++ tail).drop 699) =
      [(sony.register noSums (sony.decode noSums (SixTwo.unpack ((body ++ tail).take 699)))).c3,
        (sony.register noSums (sony.decode noSums (SixTwo.unpack ((body ++ tail).take 699)))).c2,
        (sony.register noSums (sony.decode noSums (SixTwo.unpack ((body ++ tail).take 699)))).c1])) = _
  rw [front, back, decoded, SixTwo.unpack_pack, number]
  have tags : plain.take 12 = List.replicate 12 0 := List.take_left' List.length_replicate
  have bytes : plain.drop 12 = payload := List.drop_left' List.length_replicate
  rw [tags, bytes, decide_eq_true rfl]

theorem readMark_addressField (d : Surface) {sector : Nat} (small : sector < 16)
    (rest : List (BitVec 8)) :
    readMark (0xD5 :: 0xAA :: 0x96 :: ((addressField d sector).map sonyToDiskByte ++ rest)) =
      some (.address d.track.toNat d.side.toNat sector (BitVec.ofNat 6 (d.sides.toNat * 32 + 2)) true) := by
  rw [readMark, if_pos ⟨rfl, rfl, rfl⟩, readAddress_addressField d small]

theorem readMark_dataField {sector : Nat} (small : sector < 16) {payload : List (BitVec 8)}
    (full : payload.length = 512) (rest : List (BitVec 8)) :
    readMark (0xD5 :: 0xAA :: 0xAD ::
      ((dataField sector (List.replicate 12 0 ++ payload)).map sonyToDiskByte ++ rest)) =
      some (.data sector (List.replicate 12 0) payload true) := by
  rw [readMark, if_neg (by decide), if_pos ⟨rfl, rfl, rfl⟩, readData_dataField small full]

/-- A sector reads back, wherever it stands in the stream. -/
theorem scan_sectorNibbles (d : Surface) {sector : Nat} (small : sector < 16)
    {payload : List (BitVec 8)} (full : payload.length = 512) (rest : List (BitVec 8)) :
    scan (sectorNibbles d sector (List.replicate 12 0 ++ payload) ++ rest) =
      foundSector d sector payload ++ scan rest := by
  have address := readMark_addressField d small
  have data := readMark_dataField small full
  unfold sectorNibbles
  simp only [List.append_assoc]
  rw [scan_append (replicate_ne 56), List.cons_append, List.cons_append, List.cons_append,
    List.nil_append, scan_mark _ _ (by decide) (by decide), address,
    scan_append (map_sonyToDiskByte_ne _), List.cons_append, List.cons_append, List.nil_append,
    scan_cons (by decide), scan_cons (by decide), scan_append (replicate_ne 5), List.cons_append,
    List.cons_append, List.cons_append, List.nil_append, scan_mark _ _ (by decide) (by decide), data,
    scan_append (map_sonyToDiskByte_ne _)]
  simp only [List.cons_append, List.nil_append]
  rw [scan_cons (by decide), scan_cons (by decide), scan_cons (by decide), scan_cons (by decide)]
  simp only [foundSector, Option.toList_some, List.cons_append, List.nil_append]

end MacIIvi.Gcr
