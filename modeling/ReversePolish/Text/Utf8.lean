import ReversePolish.Text.Basic

/-!
# UTF-8

Texts are kept in files as UTF-8.  `decode` accepts the well-formed byte
sequences only: no overlong spelling, no surrogate, nothing above 10FFFF.
For an ill-formed sequence it names the offending bytes, which are the
longest piece that could still have become a character.

A lead byte fixes how many bytes follow it and, in four cases, narrows the
range of the second one; `Lead` records both.
-/

namespace ReversePolish
namespace Text
namespace Utf8

/-- What is wrong with a byte sequence. -/
inductive Reason where
  | invalidStart
  | invalidContinuation
  | endOfData
deriving DecidableEq, Repr

/-- An ill-formed piece: its bytes from position `first` to position `last`. -/
structure Fault where
  reason : Reason
  first : Nat
  last : Nat
  /-- The byte at position `first`. -/
  byte : UInt8
deriving DecidableEq, Repr

/-- What a lead byte announces: the bits it contributes, the bytes to follow,
and the range of the second byte. -/
structure Lead where
  bits : Nat
  following : Nat
  low : UInt8
  high : UInt8

/-- The announcement of a first byte above 7F, unless no character starts with it. -/
def lead? (b : UInt8) : Option Lead :=
  if 0xc2 ≤ b ∧ b ≤ 0xdf then some ⟨b.toNat - 0xc0, 1, 0x80, 0xbf⟩
  else if b = 0xe0 then some ⟨0, 2, 0xa0, 0xbf⟩
  else if b = 0xed then some ⟨0x0d, 2, 0x80, 0x9f⟩
  else if 0xe1 ≤ b ∧ b ≤ 0xef then some ⟨b.toNat - 0xe0, 2, 0x80, 0xbf⟩
  else if b = 0xf0 then some ⟨0, 3, 0x90, 0xbf⟩
  else if b = 0xf4 then some ⟨4, 3, 0x80, 0x8f⟩
  else if 0xf1 ≤ b ∧ b ≤ 0xf3 then some ⟨b.toNat - 0xf0, 3, 0x80, 0xbf⟩
  else none

/-- The outcome of reading the bytes behind a lead byte. -/
inductive Tail where
  /-- The whole character was read; the bytes behind it remain. -/
  | complete (code : Nat) (rest : List UInt8)
  /-- After so many good bytes comes one that does not continue the character. -/
  | broken (good : Nat)
  /-- The bytes end within the character. -/
  | unfinished
deriving Repr

/-- Reads `following` continuation bytes, the first of them from the given range. -/
def readTail : (following : Nat) → (low high : UInt8) → (code good : Nat) →
    List UInt8 → Tail
  | 0, _, _, code, _, rest => .complete code rest
  | _ + 1, _, _, _, _, [] => .unfinished
  | following + 1, low, high, code, good, b :: rest =>
      if low ≤ b ∧ b ≤ high then
        readTail following 0x80 0xbf (code * 64 + (b.toNat - 0x80)) (good + 1) rest
      else .broken good

theorem length_of_readTail_eq_complete
    {following : Nat} {low high : UInt8} {code good code' : Nat}
    {bytes rest : List UInt8}
    (h : readTail following low high code good bytes = .complete code' rest) :
    rest.length ≤ bytes.length := by
  induction following generalizing low high code good bytes with
  | zero =>
      simp only [readTail, Tail.complete.injEq] at h
      simp [h.2]
  | succ following ih =>
      cases bytes with
      | nil => simp [readTail] at h
      | cons b bytes =>
          simp only [readTail] at h
          split at h
          · have := ih h
            simp only [List.length_cons]
            omega
          · simp at h

/-- The text of a byte sequence whose first byte stands at the given position. -/
def decodeFrom (position : Nat) : List UInt8 → Except Fault Text
  | [] => .ok []
  | b :: rest =>
      if b < 0x80 then do
        let text ← decodeFrom (position + 1) rest
        return Char.ofNat b.toNat :: text
      else
        match lead? b with
        | none => .error ⟨.invalidStart, position, position, b⟩
        | some lead =>
            match h : readTail lead.following lead.low lead.high lead.bits 0 rest with
            | .broken good =>
                .error ⟨.invalidContinuation, position, position + good, b⟩
            | .unfinished =>
                .error ⟨.endOfData, position, position + rest.length, b⟩
            | .complete code behind => do
                have := length_of_readTail_eq_complete h
                let text ← decodeFrom (position + 1 + lead.following) behind
                return Char.ofNat code :: text
termination_by bytes => bytes.length

/-- The text of a byte sequence. -/
def decode (bytes : List UInt8) : Except Fault Text :=
  decodeFrom 0 bytes

/-- The bytes of a text. -/
def encode (t : Text) : List UInt8 :=
  t.flatMap String.utf8EncodeChar

/-- The number of bytes of a text. -/
def size : Text → Nat
  | [] => 0
  | c :: rest => c.utf8Size + size rest

namespace Fault

/-- The reason in words. -/
def reasonText (f : Fault) : Text :=
  match f.reason with
  | .invalidStart => "invalid start byte".toList
  | .invalidContinuation => "invalid continuation byte".toList
  | .endOfData => "unexpected end of data".toList

/-- Where the fault lies and what it is; a single byte is shown by its value. -/
def message (f : Fault) : Text :=
  let place :=
    if f.first = f.last then
      "byte 0x".toList ++ hexadecimal 2 f.byte.toNat ++ " in position ".toList ++
        Nat.toDigits 10 f.first
    else
      "bytes in position ".toList ++ Nat.toDigits 10 f.first ++ ['-'] ++
        Nat.toDigits 10 f.last
  "\x27utf-8\x27 codec can\x27t decode ".toList ++ place ++ ": ".toList ++ f.reasonText

end Fault

end Utf8
end Text
end ReversePolish
