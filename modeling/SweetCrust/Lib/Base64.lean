import Mathlib

/-!
# Base 64 without padding

Three bytes are four digits to the base 64; the last one or two bytes of a text are two or three
digits.  The digits are written in the alphabet for URLs.  What is read may be written in either
alphabet, and ends at a padding character.

* `digits`, `bytes` — bytes as digits and back.
* `encode`, `decode` — the same for texts.
* `decode_encode` — decoding what was encoded gives the bytes back, with any padding.
* `decode_map` — the two alphabets are read alike.
* `notMem_encode` — what encoded texts do not hold.
-/

namespace Base64

abbrev Byte := Fin 256
abbrev Digit := Fin 64

/-! ## Bytes and digits -/

/-- The digits of a group of three bytes, or of the last two or one. -/
def digits : List Byte → List Digit
  | a :: b :: c :: l =>
    ⟨a / 4, by omega⟩ :: ⟨a % 4 * 16 + b / 16, by omega⟩ :: ⟨b % 16 * 4 + c / 64, by omega⟩ ::
      ⟨c % 64, by omega⟩ :: digits l
  | [a, b] => [⟨a / 4, by omega⟩, ⟨a % 4 * 16 + b / 16, by omega⟩, ⟨b % 16 * 4, by omega⟩]
  | [a] => [⟨a / 4, by omega⟩, ⟨a % 4 * 16, by omega⟩]
  | [] => []

/-- The bytes of a group of four digits, or of the last three or two. -/
def bytes : List Digit → List Byte
  | p :: q :: r :: s :: l =>
    ⟨p * 4 + q / 16, by omega⟩ :: ⟨q % 16 * 16 + r / 4, by omega⟩ :: ⟨r % 4 * 64 + s, by omega⟩ ::
      bytes l
  | [p, q, r] => [⟨p * 4 + q / 16, by omega⟩, ⟨q % 16 * 16 + r / 4, by omega⟩]
  | [p, q] => [⟨p * 4 + q / 16, by omega⟩]
  | _ => []

theorem bytes_digits (l : List Byte) : bytes (digits l) = l := by
  induction l using digits.induct with
  | case1 a b c l ih =>
    simp only [digits, bytes, ih, List.cons.injEq, Fin.ext_iff, and_true]
    omega
  | case2 a b =>
    simp only [digits, bytes, List.cons.injEq, Fin.ext_iff, and_true]
    omega
  | case3 a =>
    simp only [digits, bytes, List.cons.injEq, Fin.ext_iff, and_true]
    omega
  | case4 => rfl

/-! ## The alphabet -/

/-- A digit in the alphabet for URLs. -/
def charOf (d : Digit) : Char :=
  if (d : ℕ) < 26 then Char.ofNat (d + 65)
  else if (d : ℕ) < 52 then Char.ofNat (d + 71)
  else if (d : ℕ) < 62 then Char.ofNat (d - 4)
  else if (d : ℕ) = 62 then '-'
  else '_'

/-- The digit of a character of one of the two alphabets. -/
def digitOf? (c : Char) : Option Digit :=
  if h : 65 ≤ c.toNat ∧ c.toNat ≤ 90 then some ⟨c.toNat - 65, by omega⟩
  else if h : 97 ≤ c.toNat ∧ c.toNat ≤ 122 then some ⟨c.toNat - 71, by omega⟩
  else if h : 48 ≤ c.toNat ∧ c.toNat ≤ 57 then some ⟨c.toNat + 4, by omega⟩
  else if c = '-' ∨ c = '+' then some 62
  else if c = '_' ∨ c = '/' then some 63
  else none

theorem digitOf?_charOf (d : Digit) : digitOf? (charOf d) = some d := by
  revert d
  decide

/-- Neither a padding character nor a dot is a digit. -/
theorem charOf_ne (d : Digit) : charOf d ≠ '=' ∧ charOf d ≠ '.' := by
  revert d
  decide

/-! ## Texts -/

def encode (l : List Byte) : List Char := (digits l).map charOf

/-- Characters of no alphabet are skipped. -/
def decode (cs : List Char) : List Byte :=
  bytes ((cs.takeWhile fun c => c ≠ '=').filterMap digitOf?)

theorem notMem_encode (l : List Byte) : '=' ∉ encode l ∧ '.' ∉ encode l := by
  simp only [encode, List.mem_map, not_exists, not_and]
  exact ⟨fun d _ => (charOf_ne d).1, fun d _ => (charOf_ne d).2⟩

/-- Decoding what was encoded, with any number of padding characters. -/
theorem decode_encode (l : List Byte) (n : ℕ) :
    decode (encode l ++ List.replicate n '=') = l := by
  have htake : (encode l ++ List.replicate n '=').takeWhile (fun c => c ≠ '=') = encode l := by
    rw [List.takeWhile_append_of_pos]
    · cases n <;> simp [List.replicate_succ]
    · intro c hc
      have hne : c ≠ '=' := fun heq => (notMem_encode l).1 (heq ▸ hc)
      simpa using hne
  have hdigits : (encode l).filterMap digitOf? = digits l := by
    rw [encode, List.filterMap_map]
    have hsome : digitOf? ∘ charOf = some := funext digitOf?_charOf
    rw [hsome, List.filterMap_some]
  rw [decode, htake, hdigits, bytes_digits]

/-- Both alphabets are read alike. -/
theorem decode_map {f : Char → Char} (hpad : ∀ c, f c = '=' ↔ c = '=')
    (hdigit : ∀ c, digitOf? (f c) = digitOf? c) (cs : List Char) :
    decode (cs.map f) = decode cs := by
  have htake : (cs.map f).takeWhile (fun c => c ≠ '=') = (cs.takeWhile fun c => c ≠ '=').map f := by
    rw [List.takeWhile_map]
    congr 2
    funext c
    simp [hpad]
  have hcomp : digitOf? ∘ f = digitOf? := funext hdigit
  rw [decode, htake, List.filterMap_map, hcomp, decode]

end Base64
