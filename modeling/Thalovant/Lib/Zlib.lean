import Mathlib.Data.List.Basic

/-!
# Zlib streams of stored blocks

A zlib stream is a header, blocks, and the checksum of what it inflates to. A stored block holds its
bytes as they are, after their count: with these alone there is a stream for all bytes (`inflate_store`).
-/

namespace Zlib

/-- The Adler-32 checksum. -/
def adler32 (bytes : List UInt8) : Nat :=
  let (a, b) := bytes.foldl (fun (a, b) byte =>
    ((a + byte.toNat) % 65521, (b + a + byte.toNat) % 65521)) (1, 0)
  b * 65536 + a

/-- The checksum as it ends a stream, the highest byte first. -/
def checksum (bytes : List UInt8) : List UInt8 :=
  [0x1000000, 0x10000, 0x100, 1].map fun place => UInt8.ofNat (adler32 bytes / place)

/-- A stored block, the last of its stream or not: the count of its bytes is followed by its complement. -/
def block (last : Bool) (data : List UInt8) : List UInt8 :=
  let low := UInt8.ofNat data.length
  let high := UInt8.ofNat (data.length / 256)
  (if last then 1 else 0) :: low :: high :: ~~~low :: ~~~high :: data

/-- These blocks, and an empty one to end them. -/
def blocks : List (List UInt8) → List UInt8
  | [] => block true []
  | data :: later => block false data ++ blocks later

/-- The stream of these blocks. -/
def store (datas : List (List UInt8)) : List UInt8 :=
  0x78 :: 0x01 :: (blocks datas ++ checksum datas.flatten)

/-- What the blocks hold, and what follows the last of them; no more is read at one that is cut off or
of another kind. -/
def readBlocks : Nat → List UInt8 → List UInt8 × Option (List UInt8)
  | fuel + 1, last :: low :: high :: low' :: high' :: rest =>
    let length := low.toNat + 256 * high.toNat
    if last > 1 ∨ low' ≠ ~~~low ∨ high' ≠ ~~~high ∨ rest.length < length then ([], none)
    else if last = 1 then (rest.take length, some (rest.drop length))
    else
      let (out, rest') := readBlocks fuel (rest.drop length)
      (rest.take length ++ out, rest')
  | _, _ => ([], none)

/-- What a stream inflates to, and the error that it ends with, if it does. -/
def inflate (stream : List UInt8) : List UInt8 × Option String :=
  if stream.take 2 = [0x78, 0x01] then
    let (out, after) := readBlocks stream.length (stream.drop 2)
    (out, if after.map (·.take 4) = some (checksum out) then none else some "corrupt deflate stream")
  else ([], some "corrupt deflate stream")

/-! ## The round trip -/

theorem length_checksum (bytes : List UInt8) : (checksum bytes).length = 4 := rfl

theorem length_le_blocks (datas : List (List UInt8)) : datas.length < (blocks datas).length := by
  induction datas with
  | nil => decide
  | cons data later ih =>
    simp only [blocks, block, List.length_append, List.length_cons]
    omega

/-- The count of a block is read back. -/
theorem count_eq {n : Nat} (h : n < 65536) :
    (UInt8.ofNat n).toNat + 256 * (UInt8.ofNat (n / 256)).toNat = n := by
  rw [UInt8.toNat_ofNat', UInt8.toNat_ofNat']
  omega

theorem readBlocks_cons {data : List UInt8} (h : data.length < 65536) (fuel : Nat) (rest : List UInt8) :
    readBlocks (fuel + 1) (block false data ++ rest)
      = (data ++ (readBlocks fuel rest).1, (readBlocks fuel rest).2) := by
  simp only [block, List.cons_append, readBlocks, count_eq h]
  rw [if_neg (by simp), if_neg (by decide), List.take_left, List.drop_left]

theorem readBlocks_last (fuel : Nat) (rest : List UInt8) :
    readBlocks (fuel + 1) (block true [] ++ rest) = ([], some rest) := by
  simp [block, readBlocks]

theorem readBlocks_blocks (rest : List UInt8) : ∀ (datas : List (List UInt8)),
    (∀ data ∈ datas, data.length < 65536) → ∀ fuel, datas.length < fuel →
    readBlocks fuel (blocks datas ++ rest) = (datas.flatten, some rest)
  | _, _, 0, h => absurd h (Nat.not_lt_zero _)
  | [], _, fuel + 1, _ => readBlocks_last fuel rest
  | data :: later, hcount, fuel + 1, hfuel => by
    have ih := readBlocks_blocks rest later (fun data h => hcount data (List.mem_cons_of_mem _ h)) fuel
      (Nat.lt_of_succ_lt_succ hfuel)
    rw [blocks, List.append_assoc, readBlocks_cons (hcount data List.mem_cons_self), ih]
    rfl

/-- **What is stored is inflated.** -/
theorem inflate_store {datas : List (List UInt8)} (h : ∀ data ∈ datas, data.length < 65536) :
    inflate (store datas) = (datas.flatten, none) := by
  have hfuel : datas.length < (store datas).length := by
    have hblocks := length_le_blocks datas
    simp only [store, List.length_cons, List.length_append]
    omega
  have htake : (checksum datas.flatten).take 4 = checksum datas.flatten :=
    List.take_of_length_le (Nat.le_of_eq (length_checksum _))
  have hread : readBlocks (store datas).length ((store datas).drop 2)
      = (datas.flatten, some (checksum datas.flatten)) := readBlocks_blocks _ datas h _ hfuel
  unfold inflate
  rw [if_pos (by rfl), hread]
  simp [htake]

end Zlib
