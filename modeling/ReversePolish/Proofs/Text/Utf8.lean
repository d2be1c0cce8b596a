import ReversePolish.Proofs.Outcome
import ReversePolish.Text.Utf8

/-!
# Texts and their bytes

Decoding accepts the bytes of texts and nothing else, and a text has its own
bytes: `decode_eq_ok_iff` says that decoding answers a text exactly when it is
given the bytes of that text.

The ranges that a lead byte sets for the second byte are those in which the
number is neither spelled with more bytes than it needs, nor a surrogate, nor
above 10FFFF; a number above 7F that passes is that of a character, and its
bytes are the ones that were read.
-/

namespace ReversePolish
namespace Text

/-! ### Characters by their numbers -/

theorem toNat_lt
    (c : Char) :
    c.toNat < 0x110000 := by
  rcases c.valid with h | ⟨-, h⟩
  · exact Nat.lt_trans h (by decide)
  · exact h

/-- A character is no surrogate. -/
theorem toNat_scalar
    (c : Char) :
    c.toNat < 0xd800 ∨ 0xdfff < c.toNat :=
  c.valid.imp_right And.left

theorem exists_char
    {code : Nat}
    (h : code.isValidChar) :
    ∃ c : Char, c.toNat = code :=
  ⟨Char.ofNatAux code h, rfl⟩

namespace Utf8

/-! ### The bytes of a character -/

theorem toNat_ofNat
    {n : Nat}
    (h : n < 256) :
    (UInt8.ofNat n).toNat = n :=
  UInt8.toNat_ofNat_of_lt' h

theorem ofNat_eq_iff
    {n : Nat} {b : UInt8}
    (h : n < 256) :
    UInt8.ofNat n = b ↔ n = b.toNat := by
  rw [← UInt8.toNat_inj, toNat_ofNat h]

theorem utf8EncodeChar_of_one
    {c : Char}
    (hhigh : c.toNat < 0x80) :
    String.utf8EncodeChar c = [UInt8.ofNat c.toNat] := by
  simp only [String.utf8EncodeChar, Char.toNat] at *
  rw [if_pos (by omega)]

theorem utf8EncodeChar_of_two
    {c : Char}
    (hlow : 0x80 ≤ c.toNat)
    (hhigh : c.toNat < 0x800) :
    String.utf8EncodeChar c =
      [UInt8.ofNat (c.toNat / 64 + 0xc0), UInt8.ofNat (c.toNat % 64 + 0x80)] := by
  have hfirst : c.toNat / 64 % 32 = c.toNat / 64 := by omega
  rw [← hfirst]
  simp only [String.utf8EncodeChar, Char.toNat] at *
  rw [if_neg (by omega), if_pos (by omega)]

theorem utf8EncodeChar_of_three
    {c : Char}
    (hlow : 0x800 ≤ c.toNat)
    (hhigh : c.toNat < 0x10000) :
    String.utf8EncodeChar c =
      [UInt8.ofNat (c.toNat / 4096 + 0xe0), UInt8.ofNat (c.toNat / 64 % 64 + 0x80),
        UInt8.ofNat (c.toNat % 64 + 0x80)] := by
  have hfirst : c.toNat / 4096 % 16 = c.toNat / 4096 := by omega
  rw [← hfirst]
  simp only [String.utf8EncodeChar, Char.toNat] at *
  rw [if_neg (by omega), if_neg (by omega), if_pos (by omega)]

theorem utf8EncodeChar_of_four
    {c : Char}
    (hlow : 0x10000 ≤ c.toNat) :
    String.utf8EncodeChar c =
      [UInt8.ofNat (c.toNat / 262144 + 0xf0), UInt8.ofNat (c.toNat / 4096 % 64 + 0x80),
        UInt8.ofNat (c.toNat / 64 % 64 + 0x80), UInt8.ofNat (c.toNat % 64 + 0x80)] := by
  have hhigh := toNat_lt c
  have hfirst : c.toNat / 262144 % 8 = c.toNat / 262144 := by omega
  rw [← hfirst]
  simp only [String.utf8EncodeChar, Char.toNat] at *
  rw [if_neg (by omega), if_neg (by omega), if_neg (by omega)]

/-! ### Reading a character -/

/-- The announcements of first bytes, by the number of bytes to follow. -/
theorem lead?_eq_some_iff
    {b : UInt8} {lead : Lead} :
    lead? b = some lead ↔
      (0xc2 ≤ b.toNat ∧ b.toNat ≤ 0xdf ∧ lead = ⟨b.toNat - 0xc0, 1, 0x80, 0xbf⟩) ∨
      (0xe0 ≤ b.toNat ∧ b.toNat ≤ 0xef ∧
        lead = ⟨b.toNat - 0xe0, 2, if b.toNat = 0xe0 then 0xa0 else 0x80,
          if b.toNat = 0xed then 0x9f else 0xbf⟩) ∨
      (0xf0 ≤ b.toNat ∧ b.toNat ≤ 0xf4 ∧
        lead = ⟨b.toNat - 0xf0, 3, if b.toNat = 0xf0 then 0x90 else 0x80,
          if b.toNat = 0xf4 then 0x8f else 0xbf⟩) := by
  simp only [lead?, UInt8.le_iff_toNat_le, ← UInt8.toNat_inj]
  simp only [UInt8.reduceToNat]
  grind

theorem readTail_zero_eq_complete_iff
    {low high : UInt8} {code good code' : Nat} {bytes rest : List UInt8} :
    readTail 0 low high code good bytes = .complete code' rest ↔
      code = code' ∧ bytes = rest := by
  rw [readTail, Tail.complete.injEq]

theorem readTail_succ_eq_complete_iff
    {following : Nat} {low high : UInt8} {code good code' : Nat} {bytes rest : List UInt8} :
    readTail (following + 1) low high code good bytes = .complete code' rest ↔
      ∃ b behind, bytes = b :: behind ∧ low.toNat ≤ b.toNat ∧ b.toNat ≤ high.toNat ∧
        readTail following 0x80 0xbf (code * 64 + (b.toNat - 0x80)) (good + 1) behind =
          .complete code' rest := by
  cases bytes with
  | nil =>
      refine ⟨fun h => (by cases h), ?_⟩
      rintro ⟨b, behind, h, -⟩
      cases h
  | cons b behind =>
      rw [readTail]
      simp only [UInt8.le_iff_toNat_le]
      constructor
      · intro h
        split at h
        · rename_i hrange
          exact ⟨b, behind, rfl, hrange.1, hrange.2, h⟩
        · cases h
      · rintro ⟨_, _, heq, hlow, hhigh, h⟩
        obtain ⟨rfl, rfl⟩ := List.cons.inj heq
        rw [if_pos ⟨hlow, hhigh⟩]
        exact h

/-- What is read behind a lead byte is a character, and the bytes are those of the character. -/
theorem exists_char_of_readTail
    {b : UInt8} {lead : Lead} {code : Nat} {bytes rest : List UInt8}
    (hlead : lead? b = some lead)
    (htail : readTail lead.following lead.low lead.high lead.bits 0 bytes = .complete code rest) :
    ∃ c : Char, c.toNat = code ∧ b :: bytes = String.utf8EncodeChar c ++ rest := by
  rcases lead?_eq_some_iff.1 hlead with
    ⟨hlow, hhigh, rfl⟩ | ⟨hlow, hhigh, rfl⟩ | ⟨hlow, hhigh, rfl⟩
  · simp only [readTail_succ_eq_complete_iff, readTail_zero_eq_complete_iff,
      UInt8.reduceToNat] at htail
    obtain ⟨b₁, _, rfl, hlow₁, hhigh₁, rfl, rfl⟩ := htail
    have hchar : Nat.isValidChar ((b.toNat - 0xc0) * 64 + (b₁.toNat - 0x80)) :=
      Or.inl (by omega)
    obtain ⟨c, hc⟩ := exists_char hchar
    refine ⟨c, hc, ?_⟩
    rw [utf8EncodeChar_of_two (by omega) (by omega),
      (ofNat_eq_iff (b := b) (by omega)).2 (by omega),
      (ofNat_eq_iff (b := b₁) (by omega)).2 (by omega)]
    rfl
  · simp only [readTail_succ_eq_complete_iff, readTail_zero_eq_complete_iff,
      apply_ite UInt8.toNat, UInt8.reduceToNat] at htail
    obtain ⟨b₁, _, rfl, hlow₁, hhigh₁, b₂, _, rfl, hlow₂, hhigh₂, rfl, rfl⟩ := htail
    have hshort : 0x80 ≤ b₁.toNat ∧ (b.toNat = 0xe0 → 0xa0 ≤ b₁.toNat) := by
      split at hlow₁ <;> exact ⟨by omega, by omega⟩
    have hscalar : b₁.toNat ≤ 0xbf ∧ (b.toNat = 0xed → b₁.toNat ≤ 0x9f) := by
      split at hhigh₁ <;> exact ⟨by omega, by omega⟩
    have hchar : Nat.isValidChar
        (((b.toNat - 0xe0) * 64 + (b₁.toNat - 0x80)) * 64 + (b₂.toNat - 0x80)) := by
      unfold Nat.isValidChar
      omega
    obtain ⟨c, hc⟩ := exists_char hchar
    refine ⟨c, hc, ?_⟩
    rw [utf8EncodeChar_of_three (by omega) (by omega),
      (ofNat_eq_iff (b := b) (by omega)).2 (by omega),
      (ofNat_eq_iff (b := b₁) (by omega)).2 (by omega),
      (ofNat_eq_iff (b := b₂) (by omega)).2 (by omega)]
    rfl
  · simp only [readTail_succ_eq_complete_iff, readTail_zero_eq_complete_iff,
      apply_ite UInt8.toNat, UInt8.reduceToNat] at htail
    obtain ⟨b₁, _, rfl, hlow₁, hhigh₁, b₂, _, rfl, hlow₂, hhigh₂, b₃, _, rfl, hlow₃, hhigh₃,
      rfl, rfl⟩ := htail
    have hshort : 0x80 ≤ b₁.toNat ∧ (b.toNat = 0xf0 → 0x90 ≤ b₁.toNat) := by
      split at hlow₁ <;> exact ⟨by omega, by omega⟩
    have hscalar : b₁.toNat ≤ 0xbf ∧ (b.toNat = 0xf4 → b₁.toNat ≤ 0x8f) := by
      split at hhigh₁ <;> exact ⟨by omega, by omega⟩
    have hchar : Nat.isValidChar
        ((((b.toNat - 0xf0) * 64 + (b₁.toNat - 0x80)) * 64 + (b₂.toNat - 0x80)) * 64 +
          (b₃.toNat - 0x80)) := by
      unfold Nat.isValidChar
      omega
    obtain ⟨c, hc⟩ := exists_char hchar
    refine ⟨c, hc, ?_⟩
    rw [utf8EncodeChar_of_four (by omega),
      (ofNat_eq_iff (b := b) (by omega)).2 (by omega),
      (ofNat_eq_iff (b := b₁) (by omega)).2 (by omega),
      (ofNat_eq_iff (b := b₂) (by omega)).2 (by omega),
      (ofNat_eq_iff (b := b₃) (by omega)).2 (by omega)]
    rfl

/-- The bytes of a character above 7F are a lead byte and what is read behind it. -/
theorem exists_readTail_of_char
    {c : Char} (rest : List UInt8)
    (h : 0x80 ≤ c.toNat) :
    ∃ b lead bytes, String.utf8EncodeChar c ++ rest = b :: bytes ∧ 0x80 ≤ b.toNat ∧
      lead? b = some lead ∧
      readTail lead.following lead.low lead.high lead.bits 0 bytes = .complete c.toNat rest := by
  have hlast := toNat_ofNat (n := c.toNat % 64 + 0x80) (by omega)
  have hthird := toNat_ofNat (n := c.toNat / 64 % 64 + 0x80) (by omega)
  have hsecond := toNat_ofNat (n := c.toNat / 4096 % 64 + 0x80) (by omega)
  have htop := toNat_lt c
  have hscalar := toNat_scalar c
  by_cases htwo : c.toNat < 0x800
  · have hb := toNat_ofNat (n := c.toNat / 64 + 0xc0) (by omega)
    rw [utf8EncodeChar_of_two h htwo]
    refine ⟨_, _, _, rfl, by omega, lead?_eq_some_iff.2 (Or.inl ⟨by omega, by omega, rfl⟩), ?_⟩
    simp only [readTail_succ_eq_complete_iff, readTail_zero_eq_complete_iff, UInt8.reduceToNat]
    refine ⟨_, _, rfl, ?_⟩
    rw [hb, hlast]
    exact ⟨by omega, by omega, by omega, rfl⟩
  · by_cases hthree : c.toNat < 0x10000
    · have hb := toNat_ofNat (n := c.toNat / 4096 + 0xe0) (by omega)
      rw [utf8EncodeChar_of_three (by omega) hthree]
      refine ⟨_, _, _, rfl, by omega,
        lead?_eq_some_iff.2 (Or.inr (Or.inl ⟨by omega, by omega, rfl⟩)), ?_⟩
      simp only [readTail_succ_eq_complete_iff, readTail_zero_eq_complete_iff,
        apply_ite UInt8.toNat, UInt8.reduceToNat]
      refine ⟨_, _, rfl, ?_, ?_, _, _, rfl, ?_⟩
      · rw [hb, hthird]
        split <;> omega
      · rw [hb, hthird]
        split <;> omega
      · rw [hb, hthird, hlast]
        exact ⟨by omega, by omega, by omega, rfl⟩
    · have hb := toNat_ofNat (n := c.toNat / 262144 + 0xf0) (by omega)
      rw [utf8EncodeChar_of_four (by omega)]
      refine ⟨_, _, _, rfl, by omega,
        lead?_eq_some_iff.2 (Or.inr (Or.inr ⟨by omega, by omega, rfl⟩)), ?_⟩
      simp only [readTail_succ_eq_complete_iff, readTail_zero_eq_complete_iff,
        apply_ite UInt8.toNat, UInt8.reduceToNat]
      refine ⟨_, _, rfl, ?_, ?_, _, _, rfl, ?_, ?_, _, _, rfl, ?_⟩
      · rw [hb, hsecond]
        split <;> omega
      · rw [hb, hsecond]
        split <;> omega
      · rw [hthird]
        omega
      · rw [hthird]
        omega
      · rw [hb, hsecond, hthird, hlast]
        exact ⟨by omega, by omega, by omega, rfl⟩

/-! ### Reading a text -/

theorem encode_cons
    (c : Char) (t : Text) :
    encode (c :: t) = String.utf8EncodeChar c ++ encode t := by
  rw [encode, List.flatMap_cons, encode]

/-- A character is read from its bytes, whatever follows them. -/
theorem decodeFrom_utf8EncodeChar
    (position : Nat) (c : Char) (rest : List UInt8) :
    ∃ behind, decodeFrom position (String.utf8EncodeChar c ++ rest) =
      (decodeFrom behind rest).map (c :: ·) := by
  by_cases hascii : c.toNat < 0x80
  · have hbyte := toNat_ofNat (n := c.toNat) (by omega)
    have hlow : UInt8.ofNat c.toNat < 0x80 := by
      rw [UInt8.lt_iff_toNat_lt, hbyte]
      exact hascii
    refine ⟨position + 1, ?_⟩
    rw [utf8EncodeChar_of_one hascii, List.singleton_append, decodeFrom, if_pos hlow, hbyte,
      Char.ofNat_toNat]
    cases decodeFrom (position + 1) rest <;> rfl
  · obtain ⟨b, lead, bytes, hbytes, hb, hlead, htail⟩ :=
      exists_readTail_of_char rest (Nat.not_lt.1 hascii)
    have hhigh : ¬ b < 0x80 := by
      rw [UInt8.lt_iff_toNat_lt]
      exact Nat.not_lt.2 hb
    refine ⟨position + 1 + lead.following, ?_⟩
    rw [hbytes, decodeFrom, if_neg hhigh]
    simp only [hlead]
    split
    · rename_i good hbroken
      rw [htail] at hbroken
      cases hbroken
    · rename_i hunfinished
      rw [htail] at hunfinished
      cases hunfinished
    · rename_i code behind hcomplete
      rw [htail] at hcomplete
      cases hcomplete
      rw [Char.ofNat_toNat]
      cases decodeFrom (position + 1 + lead.following) rest <;> rfl

/-- What is read first is a character, with all its bytes. -/
theorem decodeFrom_cons_eq_ok
    {position : Nat} {b : UInt8} {rest : List UInt8} {t : Text}
    (h : decodeFrom position (b :: rest) = .ok t) :
    ∃ c t' position' behind, b :: rest = String.utf8EncodeChar c ++ behind ∧ t = c :: t' ∧
      behind.length ≤ rest.length ∧ decodeFrom position' behind = .ok t' := by
  rw [decodeFrom] at h
  split at h
  · rename_i hlow
    obtain ⟨t', ht', h⟩ := Outcome.bind_eq_ok.1 h
    cases h
    have hascii : b.toNat < 0x80 := UInt8.lt_iff_toNat_lt.1 hlow
    obtain ⟨c, hc⟩ := exists_char (Or.inl (by omega) : b.toNat.isValidChar)
    refine ⟨c, t', position + 1, rest, ?_, ?_, Nat.le_refl _, ht'⟩
    · rw [utf8EncodeChar_of_one (by omega), hc, UInt8.ofNat_toNat]
      rfl
    · rw [← hc, Char.ofNat_toNat]
  · split at h
    · cases h
    · rename_i lead hlead
      split at h
      · cases h
      · cases h
      · rename_i code behind htail
        obtain ⟨t', ht', h⟩ := Outcome.bind_eq_ok.1 h
        cases h
        obtain ⟨c, rfl, hbytes⟩ := exists_char_of_readTail hlead htail
        refine ⟨c, t', _, behind, hbytes, ?_, length_of_readTail_eq_complete htail, ht'⟩
        rw [Char.ofNat_toNat]

theorem decodeFrom_encode
    (position : Nat) (t : Text) :
    decodeFrom position (encode t) = .ok t := by
  induction t generalizing position with
  | nil => rw [encode, List.flatMap_nil, decodeFrom]
  | cons c t ih =>
      obtain ⟨behind, hcons⟩ := decodeFrom_utf8EncodeChar position c (encode t)
      rw [encode_cons, hcons, ih behind]
      rfl

theorem eq_encode_of_decodeFrom
    {position : Nat} {bytes : List UInt8} {t : Text}
    (h : decodeFrom position bytes = .ok t) :
    bytes = encode t := by
  -- A character takes one byte at least, so fewer of them are left.
  induction hlength : bytes.length using Nat.strongRecOn generalizing position bytes t with
  | ind n ih =>
      cases bytes with
      | nil =>
          rw [decodeFrom] at h
          cases h
          rfl
      | cons b rest =>
          obtain ⟨c, t', position', behind, hbytes, rfl, hle, h⟩ := decodeFrom_cons_eq_ok h
          rw [List.length_cons] at hlength
          rw [hbytes, encode_cons, ← ih behind.length (by omega) h rfl]

/-- **Decoding answers the text that has the bytes.** -/
theorem decode_eq_ok_iff
    {bytes : List UInt8} {t : Text} :
    decode bytes = .ok t ↔ bytes = encode t := by
  refine ⟨eq_encode_of_decodeFrom, ?_⟩
  rintro rfl
  exact decodeFrom_encode 0 t

/-! ### The number of bytes -/

theorem length_encode
    (t : Text) :
    (encode t).length = size t := by
  induction t with
  | nil => rfl
  | cons c rest ih => rw [encode_cons, List.length_append, ih, String.length_utf8EncodeChar, size]

theorem size_append
    (t u : Text) :
    size (t ++ u) = size t + size u := by
  rw [← length_encode, encode, List.flatMap_append, List.length_append, ← encode, ← encode,
    length_encode, length_encode]

/-- Characters of one byte each take as many bytes as there are of them. -/
theorem size_eq_length
    {t : Text}
    (h : ∀ c ∈ t, c.utf8Size = 1) :
    size t = t.length := by
  induction t with
  | nil => rfl
  | cons c rest ih =>
      obtain ⟨hc, hrest⟩ := List.forall_mem_cons.1 h
      rw [size, hc, ih hrest, List.length_cons, Nat.add_comm]

end Utf8
end Text
end ReversePolish
