import Mathlib.Data.Set.Finite.Lattice
import Mathlib.Order.Interval.Finset.Nat
import ReversePolish.Bindings.Basic
import ReversePolish.Proofs.Bindings.OneAtATime
import ReversePolish.Proofs.Word.Kind

/-!
# The hash of a name as a byte

The hash of a name is computed on natural numbers that are cut down to their
low byte after each sum, but not after the shifts to the right.  It is the
one-at-a-time hash in words of eight bits, so it is a byte, depends on the low
bytes of the characters alone, and is not changed by the large shifts.

Changing one character changes the hash, unless the two characters have the
same low byte.  Names of one letter have different hashes, then, although they
share chains.
-/

namespace ReversePolish

namespace Bindings

/-! ### Words of eight bits -/

theorem lowByte_eq
    (n : Nat) :
    lowByte n = n % 256 :=
  Nat.and_two_pow_sub_one_eq_mod n 8

theorem lowByte_add_shiftLeft
    (n : Nat) (h : BitVec 8) :
    lowByte (h.toNat + (h.toNat <<< n)) = (OneAtATime.spread n h).toNat := by
  rw [OneAtATime.spread, BitVec.toNat_add, BitVec.toNat_shiftLeft, Nat.add_mod_mod, lowByte_eq]

theorem xor_shiftRight
    (n : Nat) (h : BitVec 8) :
    h.toNat ^^^ (h.toNat >>> n) = (OneAtATime.overlay n h).toNat := by
  rw [OneAtATime.overlay, BitVec.toNat_xor, BitVec.toNat_ushiftRight]

/-- One step on a byte gives a byte, although the last operation of the step does not cut down. -/
theorem mix_toNat
    (h : BitVec 8) (code : Nat) :
    mix h.toNat code = (OneAtATime.mix h code).toNat := by
  have hsum : lowByte (h.toNat + code) = (h + BitVec.ofNat 8 code).toNat := by
    rw [BitVec.toNat_add, BitVec.toNat_ofNat, Nat.add_mod_mod, lowByte_eq]
  simp only [mix, hsum, lowByte_add_shiftLeft, xor_shiftRight, OneAtATime.mix]

theorem foldl_mix_toNat
    (h : BitVec 8) (codes : List Nat) :
    codes.foldl mix h.toNat = (codes.foldl OneAtATime.mix h).toNat := by
  induction codes generalizing h with
  | nil => rfl
  | cons code rest ih => rw [List.foldl_cons, List.foldl_cons, mix_toNat, ih]

theorem finish_toNat
    (h : BitVec 8) :
    finish h.toNat = (OneAtATime.finish h).toNat := by
  simp only [finish, lowByte_add_shiftLeft, xor_shiftRight, OneAtATime.finish]

theorem hashOfCodes_eq
    (codes : List Nat) :
    hashOfCodes codes = (OneAtATime.hash 8 codes).toNat := by
  rw [hashOfCodes, OneAtATime.hash, ← finish_toNat, ← foldl_mix_toNat]
  rfl

theorem hashOfCodes_le
    (codes : List Nat) :
    hashOfCodes codes ≤ 255 := by
  rw [hashOfCodes_eq]
  exact Nat.le_of_lt_succ (OneAtATime.hash 8 codes).isLt

theorem hashOfCodes_map_mod
    (codes : List Nat) :
    hashOfCodes (codes.map (· % 256)) = hashOfCodes codes := by
  rw [hashOfCodes_eq, hashOfCodes_eq, ← OneAtATime.hash_map_mod codes]
  rfl

/-- **The hash is the one-at-a-time hash in bytes, and its large shifts leave nothing.**  It is a
byte that depends on the low bytes of its input alone, and its remainder is the index of a chain. -/
theorem hashOfCodes_eq_oneAtATime
    (codes : List Nat) :
    hashOfCodes codes = (OneAtATime.hash 8 codes).toNat ∧
      hashOfCodes codes = (OneAtATime.narrowHash codes).toNat ∧
      hashOfCodes codes = hashOfCodes (codes.map (· % 256)) ∧
      hashOfCodes codes ≤ 255 ∧
      hashOfCodes codes % chainCount ≤ 4 ∧
      ∀ name : Text, hash name = hashOfCodes (name.map Char.toNat) ∧
        (bucket name).val = hash name % chainCount ∧
        ∀ b : Bindings,
          b.chainAt? (hash name % chainCount : Nat) = some (b.chain (bucket name)) := by
  refine ⟨hashOfCodes_eq codes, ?_, (hashOfCodes_map_mod codes).symm, hashOfCodes_le codes,
    ?_, ?_⟩
  · rw [hashOfCodes_eq, OneAtATime.hash_eq_narrowHash]
  · exact Nat.le_of_lt_succ (Nat.mod_lt _ (by decide))
  · refine fun name => ⟨rfl, val_bucket name, fun b => ?_⟩
    rw [← val_bucket, chainAt?, Position.ofIndex?_natCast (bucket name).isLt, Option.map_some]

/-! ### A single change -/

theorem hashOfCodes_single_change_iff
    (before after : List Nat) (code code' : Nat) :
    hashOfCodes (before ++ code :: after) = hashOfCodes (before ++ code' :: after) ↔
      code ≡ code' [MOD 256] := by
  rw [hashOfCodes_eq, hashOfCodes_eq, BitVec.toNat_inj]
  exact OneAtATime.hash_single_change_iff before after code code'

/-- With all other numbers fixed, the hash takes every byte once. -/
theorem bijOn_hashOfCodes
    (before after : List Nat) :
    Set.BijOn (fun code => hashOfCodes (before ++ code :: after)) (Set.Iic 255) (Set.Iic 255) := by
  have hbyte : Set.MapsTo (fun code => hashOfCodes (before ++ code :: after))
      (Set.Iic 255) (Set.Iic 255) :=
    fun code _ => hashOfCodes_le (before ++ code :: after)
  refine ((Set.finite_Iic 255).injOn_iff_bijOn_of_mapsTo hbyte).1 ?_
  intro code hcode code' hcode' h
  have hsame : code ≡ code' [MOD 256] := (hashOfCodes_single_change_iff before after _ _).1 h
  exact hsame.eq_of_lt_of_lt (Nat.lt_succ_of_le hcode) (Nat.lt_succ_of_le hcode')

/-- Lists of one length that a function tells apart in one position only look alike to it before
that position and behind it. -/
theorem exists_eq_append_of_one_difference
    {α β : Type} {f : α → β} {l l' : List α}
    (hlength : l.length = l'.length)
    (h : ∃! i : Nat, l[i]?.map f ≠ l'[i]?.map f) :
    ∃ before before' x x' after after',
      l = before ++ x :: after ∧ l' = before' ++ x' :: after' ∧
        before.map f = before'.map f ∧ f x ≠ f x' ∧ after.map f = after'.map f := by
  obtain ⟨i, hi, honly⟩ := h
  have hother : ∀ j, j ≠ i → l[j]?.map f = l'[j]?.map f := fun j hj =>
    not_not.1 fun hne => hj (honly j hne)
  have hlt : i < l.length := by
    by_contra hle
    exact hi (by rw [List.getElem?_eq_none (by omega), List.getElem?_eq_none (by omega)])
  have hlt' : i < l'.length := hlength ▸ hlt
  refine ⟨l.take i, l'.take i, l[i], l'[i], l.drop (i + 1), l'.drop (i + 1), ?_, ?_, ?_, ?_, ?_⟩
  · rw [List.cons_getElem_drop_succ, List.take_append_drop]
  · rw [List.cons_getElem_drop_succ, List.take_append_drop]
  · apply List.ext_getElem?
    intro j
    rw [List.getElem?_map, List.getElem?_map, List.getElem?_take, List.getElem?_take]
    split
    · exact hother j (by omega)
    · rfl
  · intro heq
    exact hi (by simp only [List.getElem?_eq_getElem, hlt, hlt', Option.map_some, heq])
  · apply List.ext_getElem?
    intro j
    rw [List.getElem?_map, List.getElem?_map, List.getElem?_drop, List.getElem?_drop]
    exact hother (i + 1 + j) (by omega)

theorem hashOfCodes_ne_of_one_difference
    {codes codes' : List Nat}
    (hlength : codes.length = codes'.length)
    (h : ∃! i : Nat, codes[i]?.map (· % 256) ≠ codes'[i]?.map (· % 256)) :
    hashOfCodes codes ≠ hashOfCodes codes' := by
  obtain ⟨before, before', code, code', after, after', rfl, rfl, hbefore, hne, hafter⟩ :=
    exists_eq_append_of_one_difference hlength h
  rw [← hashOfCodes_map_mod, ← hashOfCodes_map_mod (before' ++ code' :: after')]
  simp only [List.map_append, List.map_cons, hbefore, hafter]
  rw [Ne, hashOfCodes_single_change_iff, Nat.ModEq, Nat.mod_mod, Nat.mod_mod]
  exact hne

/-- **A single changed character changes the hash.**  Up to its low byte a character can be told
from the hash when all others are known, and every byte is the hash of one choice.  So inputs of one
length have different hashes if their low bytes differ in one position. -/
theorem hashOfCodes_tells_one_change :
    (∀ before after : List Nat,
        (∀ code, hashOfCodes (before ++ code :: after) =
          hashOfCodes (before ++ code % 256 :: after)) ∧
        Set.BijOn (fun code => hashOfCodes (before ++ code :: after))
          (Set.Iic 255) (Set.Iic 255)) ∧
      (∀ codes codes' : List Nat, codes.length = codes'.length →
        (∃! i : Nat, codes[i]?.map (· % 256) ≠ codes'[i]?.map (· % 256)) →
        hashOfCodes codes ≠ hashOfCodes codes') ∧
      Set.InjOn (fun letter => hash [letter]) {letter | Lexeme.isLetter letter} := by
  refine ⟨fun before after => ⟨fun code => ?_, bijOn_hashOfCodes before after⟩,
    fun codes codes' => hashOfCodes_ne_of_one_difference, ?_⟩
  · rw [hashOfCodes_single_change_iff]
    exact (Nat.mod_modEq code 256).symm
  · intro letter hletter letter' hletter' h
    have hsame : letter.toNat ≡ letter'.toNat [MOD 256] :=
      (hashOfCodes_single_change_iff [] [] _ _).1 h
    have hrange := (Lexeme.isLetter_iff letter).1 hletter
    have hrange' := (Lexeme.isLetter_iff letter').1 hletter'
    exact Char.toNat_inj.1 (hsame.eq_of_lt_of_lt (by omega) (by omega))

/-- The inputs differ in their first two numbers, of which only the second differ in their low
bytes.  `A` and `K` have different hashes and share a chain. -/
theorem hashOfCodes_tells_one_change_low_byte :
    (∃! i : Nat, [0x1f600, 0x41, 0xd800][i]?.map (· % 256) ≠
        [0x1f500, 0x42, 0xd800][i]?.map (· % 256)) ∧
      hashOfCodes [0x1f600, 0x41, 0xd800] ≠ hashOfCodes [0x1f500, 0x42, 0xd800] ∧
      hash ['A'] ≠ hash ['K'] ∧ bucket ['A'] = bucket ['K'] := by
  obtain ⟨-, hdifference, hletters⟩ := hashOfCodes_tells_one_change
  have hone : ∃! i : Nat, [0x1f600, 0x41, 0xd800][i]?.map (· % 256) ≠
      [0x1f500, 0x42, 0xd800][i]?.map (· % 256) := by
    refine ⟨1, by decide, fun i hi => ?_⟩
    match i with
    | 0 => exact absurd rfl hi
    | 1 => rfl
    | 2 => exact absurd rfl hi
    | i + 3 => exact absurd rfl hi
  have hA : 'A' ∈ {letter | Lexeme.isLetter letter} := by decide
  have hK : 'K' ∈ {letter | Lexeme.isLetter letter} := by decide
  exact ⟨hone, hdifference _ _ rfl hone, (hletters.ne_iff hA hK).2 (by decide), by decide⟩

end Bindings

end ReversePolish
