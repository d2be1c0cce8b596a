import Mathlib.Data.Nat.ModEq
import Mathlib.Algebra.Ring.Parity
import Mathlib.Data.Nat.Prime.Basic

/-!
# The one-at-a-time hash

The hash that the name of a variable has in bytes is known for words of any
width.  It mixes its input in one number at a time, by sums with the word
itself shifted to the left and by exclusive or with the word shifted to the
right.

Every one of these steps can be undone, in words of any width: what the word
was before can be told from what it is after.  So two inputs that differ in a
single number have different hashes, as long as the two numbers differ in a
word.

In bytes, shifts by eight bits and more leave nothing.  What remains of the
hash is `narrowHash`.
-/

namespace ReversePolish

namespace OneAtATime

variable {width : Nat}

/-- Adds to a word what a shift to the left makes of it. -/
def spread (n : Nat) (h : BitVec width) : BitVec width :=
  h + (h <<< n)

/-- Lays over a word what a shift to the right makes of it. -/
def overlay (n : Nat) (h : BitVec width) : BitVec width :=
  h ^^^ (h >>> n)

/-- Mixes one number into a hash. -/
def mix (h : BitVec width) (code : Nat) : BitVec width :=
  overlay 6 (spread 10 (h + BitVec.ofNat width code))

/-- The last three steps of the hash. -/
def finish (h : BitVec width) : BitVec width :=
  spread 15 (overlay 11 (spread 3 h))

/-- The hash of numbers in words of the given width. -/
def hash (width : Nat) (codes : List Nat) : BitVec width :=
  finish (codes.foldl mix 0)

/-- The hash of the letter `a`, as it is known in words of 32 bits. -/
example : hash 32 ("a".toList.map Char.toNat) = 0xca2e9442 := by
  decide

/-! ### Every step can be undone -/

/-- Spreading a word multiplies it by an odd number. -/
theorem toNat_spread
    (n : Nat) (h : BitVec width) :
    (spread n h).toNat = h.toNat * (1 + 2 ^ n) % 2 ^ width := by
  rw [spread, BitVec.toNat_add, BitVec.toNat_shiftLeft, Nat.add_mod_mod, Nat.shiftLeft_eq,
    Nat.mul_add, Nat.mul_one]

theorem spread_injective
    {n : Nat}
    (hn : 0 < n) :
    Function.Injective (spread n : BitVec width → BitVec width) := by
  intro x y h
  have hodd : Odd (1 + 2 ^ n) := by
    rw [add_comm, Nat.odd_add_one, Nat.not_odd_iff_even]
    exact (Nat.even_pow' hn.ne').2 even_two
  have hcoprime : Nat.Coprime (2 ^ width) (1 + 2 ^ n) :=
    Nat.Coprime.pow_left width (Nat.coprime_two_left.2 hodd)
  have hproducts : x.toNat * (1 + 2 ^ n) ≡ y.toNat * (1 + 2 ^ n) [MOD 2 ^ width] := by
    rw [Nat.ModEq, ← toNat_spread, ← toNat_spread, h]
  have hwords : x.toNat ≡ y.toNat [MOD 2 ^ width] :=
    Nat.ModEq.cancel_right_of_coprime hcoprime hproducts
  exact BitVec.eq_of_toNat_eq (hwords.eq_of_lt_of_lt x.isLt y.isLt)

/-- Only zero stays what it is when it is shifted to the right. -/
theorem eq_zero_of_ushiftRight_eq
    {n : Nat} {h : BitVec width}
    (hn : 0 < n)
    (hshift : h >>> n = h) :
    h = 0 := by
  have hquotient : h.toNat / 2 ^ n = h.toNat := by
    rw [← Nat.shiftRight_eq_div_pow, ← BitVec.toNat_ushiftRight, hshift]
  have hzero : h.toNat = 0 := by
    by_contra hne
    have hsmaller : h.toNat / 2 ^ n < h.toNat :=
      Nat.div_lt_self (Nat.pos_of_ne_zero hne) (Nat.one_lt_two_pow hn.ne')
    omega
  exact BitVec.eq_of_toNat_eq (by simpa using hzero)

theorem overlay_injective
    {n : Nat}
    (hn : 0 < n) :
    Function.Injective (overlay n : BitVec width → BitVec width) := by
  intro x y h
  -- The difference of the two words stays what it is under the shift.
  have hdifference : (x ^^^ y) >>> n = x ^^^ y := calc
    (x ^^^ y) >>> n = x ^^^ (x ^^^ x >>> n) ^^^ y >>> n := by
      rw [BitVec.ushiftRight_xor_distrib, ← BitVec.xor_assoc, BitVec.xor_self, BitVec.zero_xor]
    _ = x ^^^ (y ^^^ y >>> n) ^^^ y >>> n := by
      rw [show x ^^^ x >>> n = y ^^^ y >>> n from h]
    _ = x ^^^ y := by
      rw [BitVec.xor_assoc x, BitVec.xor_assoc y, BitVec.xor_self, BitVec.xor_zero]
  exact BitVec.xor_eq_zero_iff.1 (eq_zero_of_ushiftRight_eq hn hdifference)

theorem mix_eq_mix_iff
    {h h' : BitVec width} {code code' : Nat} :
    mix h code = mix h' code' ↔
      h + BitVec.ofNat width code = h' + BitVec.ofNat width code' :=
  ((overlay_injective (by decide)).comp (spread_injective (by decide))).eq_iff

theorem finish_injective :
    Function.Injective (finish : BitVec width → BitVec width) :=
  (spread_injective (by decide)).comp
    ((overlay_injective (by decide)).comp (spread_injective (by decide)))

/-- What is mixed in later does not make different words equal. -/
theorem foldl_mix_injective
    (codes : List Nat) :
    Function.Injective fun h : BitVec width => codes.foldl mix h := by
  induction codes with
  | nil => exact Function.injective_id
  | cons code rest ih =>
      intro h h' heq
      exact (BitVec.add_left_inj (BitVec.ofNat width code)).1 (mix_eq_mix_iff.1 (ih heq))

theorem ofNat_eq_ofNat_iff
    {code code' : Nat} :
    BitVec.ofNat width code = BitVec.ofNat width code' ↔ code ≡ code' [MOD 2 ^ width] := by
  rw [← BitVec.toNat_inj, BitVec.toNat_ofNat, BitVec.toNat_ofNat, Nat.ModEq]

/-- A single number of the input can be told from the hash, up to the width of the words. -/
theorem hash_single_change_iff
    (before after : List Nat) (code code' : Nat) :
    hash width (before ++ code :: after) = hash width (before ++ code' :: after) ↔
      code ≡ code' [MOD 2 ^ width] := by
  rw [hash, hash, finish_injective.eq_iff, List.foldl_append, List.foldl_append, List.foldl_cons,
    List.foldl_cons, (foldl_mix_injective after).eq_iff, mix_eq_mix_iff, BitVec.add_right_inj,
    ofNat_eq_ofNat_iff]

/-- The hash depends on its input only up to the width of the words. -/
theorem hash_map_mod
    (codes : List Nat) :
    hash width (codes.map (· % 2 ^ width)) = hash width codes := by
  have hmix : (fun (h : BitVec width) code => mix h (code % 2 ^ width)) = mix := by
    funext h code
    rw [mix_eq_mix_iff, ofNat_eq_ofNat_iff.2 (Nat.mod_modEq code (2 ^ width))]
  rw [hash, hash, List.foldl_map, hmix]

/-! ### Shifts that leave a byte -/

/-- Mixes one number into a byte. -/
def narrowMix (h : BitVec 8) (code : Nat) : BitVec 8 :=
  let h := h + BitVec.ofNat 8 code
  h ^^^ (h >>> 6)

/-- The hash of numbers in bytes, without the shifts that leave a byte. -/
def narrowHash (codes : List Nat) : BitVec 8 :=
  9 * codes.foldl narrowMix 0

theorem spread_of_width_le
    {n : Nat}
    (hn : width ≤ n)
    (h : BitVec width) :
    spread n h = h := by
  rw [spread, BitVec.shiftLeft_eq_zero hn, BitVec.add_zero]

theorem overlay_of_width_le
    {n : Nat}
    (hn : width ≤ n)
    (h : BitVec width) :
    overlay n h = h := by
  rw [overlay, BitVec.ushiftRight_eq_zero hn, BitVec.xor_zero]

theorem mix_eq_narrowMix
    (h : BitVec 8) (code : Nat) :
    mix h code = narrowMix h code := by
  rw [mix, spread_of_width_le (by decide), overlay, narrowMix]

theorem finish_eq_mul
    (h : BitVec 8) :
    finish h = 9 * h := by
  rw [finish, spread_of_width_le (by decide), overlay_of_width_le (by decide)]
  apply BitVec.eq_of_toNat_eq
  rw [toNat_spread, BitVec.toNat_mul, Nat.mul_comm]
  rfl

theorem hash_eq_narrowHash
    (codes : List Nat) :
    hash 8 codes = narrowHash codes := by
  have hmix : (mix : BitVec 8 → Nat → BitVec 8) = narrowMix :=
    funext fun h => funext fun code => mix_eq_narrowMix h code
  rw [hash, narrowHash, hmix, finish_eq_mul]

end OneAtATime

end ReversePolish
