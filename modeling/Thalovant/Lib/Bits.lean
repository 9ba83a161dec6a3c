import Mathlib.Data.Nat.Bitwise
import Mathlib.Tactic.Ring

/-!
# Bits of bytes

Numbers and byte strings as lists of bits, the highest bit first: `ofNat` gives the bits of a number in
so many places and `toNat` the number, `ofBytes` and `toBytes` do so for byte strings.
-/

namespace Bits

/-! ## Numbers -/

/-- The bits of a number, in so many places. -/
def ofNat : Nat → Nat → List Bool
  | 0, _ => []
  | width + 1, n => n.testBit width :: ofNat width n

/-- The number that is `acc` and then these bits. -/
def toNatFrom (acc : Nat) : List Bool → Nat
  | [] => acc
  | b :: bs => toNatFrom (2 * acc + b.toNat) bs

def toNat (bs : List Bool) : Nat := toNatFrom 0 bs

@[simp] theorem length_ofNat (width n : Nat) : (ofNat width n).length = width := by
  induction width with
  | zero => rfl
  | succ width ih => rw [ofNat, List.length_cons, ih]

/-- The highest place of a number, and those below it. -/
theorem mod_two_pow_succ (width n : Nat) :
    n % 2 ^ (width + 1) = (n.testBit width).toNat * 2 ^ width + n % 2 ^ width := by
  rw [Nat.pow_succ, Nat.mod_mul, Nat.toNat_testBit]
  ring

theorem toNatFrom_ofNat (width n acc : Nat) :
    toNatFrom acc (ofNat width n) = acc * 2 ^ width + n % 2 ^ width := by
  induction width generalizing acc with
  | zero => simp [ofNat, toNatFrom, Nat.mod_one]
  | succ width ih =>
    rw [ofNat, toNatFrom, ih, mod_two_pow_succ, Nat.pow_succ]
    ring

@[simp] theorem toNat_ofNat (width n : Nat) : toNat (ofNat width n) = n % 2 ^ width := by
  rw [toNat, toNatFrom_ofNat, Nat.zero_mul, Nat.zero_add]

/-- The high places and the low ones. -/
theorem ofNat_add (high low n : Nat) :
    ofNat (low + high) n = ofNat high (n / 2 ^ low) ++ ofNat low n := by
  induction high with
  | zero => rfl
  | succ high ih =>
    show n.testBit (low + high) :: ofNat (low + high) n = _
    rw [ih, ofNat, Nat.testBit_div_two_pow, Nat.add_comm low high]
    rfl

/-! ## Byte strings -/

def ofBytes (bytes : List UInt8) : List Bool := bytes.flatMap fun b => ofNat 8 b.toNat

/-- The bytes of these bits, eight by eight; a rest of fewer is left. -/
def toBytes : List Bool → List UInt8
  | a :: b :: c :: d :: e :: f :: g :: h :: rest =>
    UInt8.ofNat (toNat [a, b, c, d, e, f, g, h]) :: toBytes rest
  | _ => []

@[simp] theorem ofBytes_nil : ofBytes [] = [] := rfl

@[simp] theorem ofBytes_cons (b : UInt8) (bytes : List UInt8) :
    ofBytes (b :: bytes) = ofNat 8 b.toNat ++ ofBytes bytes := rfl

theorem ofBytes_append (bytes bytes' : List UInt8) :
    ofBytes (bytes ++ bytes') = ofBytes bytes ++ ofBytes bytes' := List.flatMap_append

@[simp] theorem length_ofBytes (bytes : List UInt8) : (ofBytes bytes).length = 8 * bytes.length := by
  induction bytes with
  | nil => rfl
  | cons b bytes ih =>
    rw [ofBytes_cons, List.length_append, length_ofNat, ih, List.length_cons]
    omega

/-- Each place of a byte string, by the byte and the place in it. -/
theorem getElem?_ofBytes (bytes : List UInt8) (n : Nat) :
    (ofBytes bytes)[n]? = bytes[n / 8]?.map fun b => b.toNat.testBit (7 - n % 8) := by
  induction bytes generalizing n with
  | nil => simp
  | cons b bytes ih =>
    rw [ofBytes_cons]
    by_cases hn : n < 8
    · have hbyte : ∀ n < 8, (ofNat 8 b.toNat)[n]? = some (b.toNat.testBit (7 - n % 8)) := by
        intro n hn
        simp only [ofNat]
        match n, hn with
        | 0, _ | 1, _ | 2, _ | 3, _ | 4, _ | 5, _ | 6, _ | 7, _ => rfl
      rw [List.getElem?_append_left (by simpa using hn), hbyte n hn, Nat.div_eq_of_lt hn]
      rfl
    · have hdiv : n / 8 = (n - 8) / 8 + 1 := by omega
      have hmod : n % 8 = (n - 8) % 8 := by omega
      rw [List.getElem?_append_right (by simp; omega), length_ofNat, ih, hdiv, hmod]
      rfl

/-- Bits that fill bytes are the bits of these bytes. -/
theorem ofBytes_toBytes : ∀ {bs : List Bool}, bs.length % 8 = 0 → ofBytes (toBytes bs) = bs
  | [], _ => rfl
  | a :: b :: c :: d :: e :: f :: g :: h :: rest, hlength => by
    have hbyte : ∀ a b c d e f g h, ofNat 8 (UInt8.ofNat (toNat [a, b, c, d, e, f, g, h])).toNat
        = [a, b, c, d, e, f, g, h] := by decide
    have hrest : rest.length % 8 = 0 := by
      simp only [List.length_cons] at hlength
      omega
    rw [toBytes, ofBytes_cons, hbyte, ofBytes_toBytes hrest]
    rfl
  | [_], h | [_, _], h | [_, _, _], h | [_, _, _, _], h | [_, _, _, _, _], h
  | [_, _, _, _, _, _], h | [_, _, _, _, _, _, _], h => by simp at h

theorem toBytes_ofBytes (bytes : List UInt8) : toBytes (ofBytes bytes) = bytes := by
  induction bytes with
  | nil => rfl
  | cons b bytes ih =>
    have hbyte : toBytes (ofNat 8 b.toNat ++ ofBytes bytes)
        = UInt8.ofNat (toNat (ofNat 8 b.toNat)) :: toBytes (ofBytes bytes) := rfl
    rw [ofBytes_cons, hbyte, toNat_ofNat, ih, Nat.mod_eq_of_lt b.toNat_lt, UInt8.ofNat_toNat]

end Bits
