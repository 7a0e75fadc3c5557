import SweetCrust.Lib.Rounding
import SweetCrust.Lib.Text

/-!
# Decimal text

The decimal forms in which a program writes numbers into messages and notes, and
reads them back: `str(n)` and `int(s)` for whole numbers, `f"{x:.0f}"`,
`f"{x:.2f}"`, the shortest form of an amount in whole hundredths, and `float(s)`.

* `parseInt_natText` — `int(str(n)) = n`.
* `parseFloat_fixed2_eq_round2` — `float(f"{x:.2f}")` is `x` rounded to hundredths, and
  `parseFloat_fixed2`: `x` itself when it is in whole hundredths.

Not-a-number and the infinities are no amounts: `parseFloat` has no value for the
texts that name them, and no exponent is too large for it.
-/

namespace Decimal

open Rounding Text

/-- White space as `str.split` and `int` understand it. -/
def isSpace (c : Char) : Bool :=
  (9 ≤ c.toNat && c.toNat ≤ 13) || (28 ≤ c.toNat && c.toNat ≤ 32) ||
    [0x85, 0xA0, 0x1680, 0x2028, 0x2029, 0x202F, 0x205F, 0x3000].contains c.toNat ||
    (0x2000 ≤ c.toNat && c.toNat ≤ 0x200A)

/-- The blocks of the characters that `str.isdigit` takes for digits, by first and last code. -/
def digitBlocks : List (ℕ × ℕ) :=
  [(0x30, 0x39), (0xB2, 0xB3), (0xB9, 0xB9), (0x660, 0x669), (0x6F0, 0x6F9), (0x7C0, 0x7C9),
   (0x966, 0x96F), (0x9E6, 0x9EF), (0xA66, 0xA6F), (0xAE6, 0xAEF), (0xB66, 0xB6F),
   (0xBE6, 0xBEF), (0xC66, 0xC6F), (0xCE6, 0xCEF), (0xD66, 0xD6F), (0xDE6, 0xDEF),
   (0xE50, 0xE59), (0xED0, 0xED9), (0xF20, 0xF29), (0x1040, 0x1049), (0x1090, 0x1099),
   (0x1369, 0x1371), (0x17E0, 0x17E9), (0x1810, 0x1819), (0x1946, 0x194F), (0x19D0, 0x19DA),
   (0x1A80, 0x1A89), (0x1A90, 0x1A99), (0x1B50, 0x1B59), (0x1BB0, 0x1BB9), (0x1C40, 0x1C49),
   (0x1C50, 0x1C59), (0x2070, 0x2070), (0x2074, 0x2079), (0x2080, 0x2089), (0x2460, 0x2468),
   (0x2474, 0x247C), (0x2488, 0x2490), (0x24EA, 0x24EA), (0x24F5, 0x24FD), (0x24FF, 0x24FF),
   (0x2776, 0x277E), (0x2780, 0x2788), (0x278A, 0x2792), (0xA620, 0xA629), (0xA8D0, 0xA8D9),
   (0xA900, 0xA909), (0xA9D0, 0xA9D9), (0xA9F0, 0xA9F9), (0xAA50, 0xAA59), (0xABF0, 0xABF9),
   (0xFF10, 0xFF19), (0x104A0, 0x104A9), (0x10A40, 0x10A43), (0x10D30, 0x10D39),
   (0x10E60, 0x10E68), (0x11052, 0x1105A), (0x11066, 0x1106F), (0x110F0, 0x110F9),
   (0x11136, 0x1113F), (0x111D0, 0x111D9), (0x112F0, 0x112F9), (0x11450, 0x11459),
   (0x114D0, 0x114D9), (0x11650, 0x11659), (0x116C0, 0x116C9), (0x11730, 0x11739),
   (0x118E0, 0x118E9), (0x11950, 0x11959), (0x11C50, 0x11C59), (0x11D50, 0x11D59),
   (0x11DA0, 0x11DA9), (0x11F50, 0x11F59), (0x16A60, 0x16A69), (0x16AC0, 0x16AC9),
   (0x16B50, 0x16B59), (0x1D7CE, 0x1D7FF), (0x1E140, 0x1E149), (0x1E2F0, 0x1E2F9),
   (0x1E4F0, 0x1E4F9), (0x1E950, 0x1E959), (0x1F100, 0x1F10A), (0x1FBF0, 0x1FBF9)]

/-- `c.isdigit()`: the digits of every script, and those that are raised, lowered or encircled. -/
def isdigit (c : Char) : Bool :=
  digitBlocks.any fun block => block.1 ≤ c.toNat && c.toNat ≤ block.2

/-- The zeros of all scripts; the other digits of its script follow each. -/
def zeros : List ℕ :=
  [0x30, 0x660, 0x6F0, 0x7C0, 0x966, 0x9E6, 0xA66, 0xAE6, 0xB66, 0xBE6, 0xC66, 0xCE6, 0xD66, 0xDE6,
   0xE50, 0xED0, 0xF20, 0x1040, 0x1090, 0x17E0, 0x1810, 0x1946, 0x19D0, 0x1A80, 0x1A90, 0x1B50,
   0x1BB0, 0x1C40, 0x1C50, 0xA620, 0xA8D0, 0xA900, 0xA9D0, 0xA9F0, 0xAA50, 0xABF0, 0xFF10, 0x104A0,
   0x10D30, 0x11066, 0x110F0, 0x11136, 0x111D0, 0x112F0, 0x11450, 0x114D0, 0x11650, 0x116C0,
   0x11730, 0x118E0, 0x11950, 0x11C50, 0x11D50, 0x11DA0, 0x11F50, 0x16A60, 0x16AC0, 0x16B50,
   0x1D7CE, 0x1D7D8, 0x1D7E2, 0x1D7EC, 0x1D7F6, 0x1E140, 0x1E2F0, 0x1E4F0, 0x1E950, 0x1FBF0]

/-- The decimal digit that a character is in its script. -/
def decimal? (c : Char) : Option ℕ :=
  (zeros.find? fun z => z ≤ c.toNat && c.toNat ≤ z + 9).map fun z => c.toNat - z

/-- A decimal digit of any script. -/
def isDecimal (c : Char) : Bool := (decimal? c).isSome

/-- Decimal digits of any script as those of ASCII; other characters stay. -/
def asciiDigit (c : Char) : Char := (decimal? c).elim c Nat.digitChar

theorem asciiDigit_of_lt {c : Char} (h : c.toNat < 128) : asciiDigit c = c := by
  have hall : ∀ n < 128, asciiDigit (Char.ofNat n) = Char.ofNat n := by decide
  rw [← Char.ofNat_toNat c]
  exact hall _ h

theorem map_asciiDigit {cs : List Char} (h : ∀ c ∈ cs, c.toNat < 128) : cs.map asciiDigit = cs := by
  rw [List.map_congr_left fun c hc => asciiDigit_of_lt (h c hc), List.map_id']

/-! ## Whole numbers -/

/-- `str(n)`. -/
def natText (n : ℕ) : List Char := Nat.toDigits 10 n

/-- A run of digits, in which single underscores may separate groups. -/
def parseDigits (cs : List Char) : Option ℕ :=
  let ds := cs.filter (· ≠ '_')
  if ds ≠ [] ∧ ds.all Char.isDigit ∧ cs.head? ≠ some '_' ∧ cs.getLast? ≠ some '_' ∧
      ¬ ['_', '_'] <:+: cs then
    some (Nat.ofDigitChars 10 ds 0)
  else none

/-- Digits, with a sign or without one. -/
def parseSigned : List Char → Option ℤ
  | '-' :: ds => (parseDigits ds).map fun n : ℕ => -(n : ℤ)
  | '+' :: ds => (parseDigits ds).map fun n : ℕ => (n : ℤ)
  | ds => (parseDigits ds).map fun n : ℕ => (n : ℤ)

/-- `int(s)`. -/
def parseInt (cs : List Char) : Option ℤ := parseSigned ((strip isSpace cs).map asciiDigit)

theorem isDigit_of_mem_natText {n : ℕ} {c : Char} (h : c ∈ natText n) : c.isDigit = true :=
  Nat.isDigit_of_mem_toDigits (by norm_num) (by norm_num) h

theorem natText_ne_nil (n : ℕ) : natText n ≠ [] := Nat.toDigits_ne_nil

theorem isDigit_toNat {c : Char} (h : c.isDigit = true) : 48 ≤ c.toNat ∧ c.toNat ≤ 57 := by
  simp only [Char.isDigit, Bool.and_eq_true, decide_eq_true_eq] at h
  exact ⟨h.1, h.2⟩

theorem ne_of_isDigit {c d : Char} (h : c.isDigit = true) (hd : d.isDigit = false) : c ≠ d := by
  rintro rfl
  rw [h] at hd
  exact Bool.noConfusion hd

/-- No printable character of ASCII is white space. -/
theorem isSpace_of_printable {c : Char} (h : 33 ≤ c.toNat) (h' : c.toNat ≤ 126) :
    isSpace c = false := by
  simp only [isSpace, List.contains_cons, List.contains_nil, Bool.or_eq_false_iff,
    Bool.and_eq_false_iff, decide_eq_false_iff_not, beq_eq_false_iff_ne, Bool.or_false]
  omega

theorem isSpace_of_isDigit {c : Char} (h : c.isDigit = true) : isSpace c = false := by
  obtain ⟨h1, h2⟩ := isDigit_toNat h
  exact isSpace_of_printable (by omega) (by omega)

theorem parseDigits_of_digits {cs : List Char} (hne : cs ≠ [])
    (h : ∀ c ∈ cs, c.isDigit = true) : parseDigits cs = some (Nat.ofDigitChars 10 cs 0) := by
  have hu : ∀ c ∈ cs, c ≠ '_' := fun c hc => ne_of_isDigit (h c hc) (by decide)
  have hds : cs.filter (· ≠ '_') = cs := by
    rw [List.filter_eq_self]
    exact fun c hc => by simpa using hu c hc
  unfold parseDigits
  simp only [hds]
  rw [if_pos]
  refine ⟨hne, by simpa [List.all_eq_true] using h, ?_, ?_, ?_⟩
  · exact fun hh => hu _ (List.mem_of_head? hh) rfl
  · exact fun hh => hu _ (List.mem_of_getLast? hh) rfl
  · exact fun hh => hu '_' (hh.subset (by simp)) rfl

theorem parseInt_of_digits {cs : List Char} (hne : cs ≠ []) (h : ∀ c ∈ cs, c.isDigit = true) :
    parseInt cs = some (Nat.ofDigitChars 10 cs 0 : ℤ) := by
  have hascii : ∀ c ∈ cs, c.toNat < 128 := fun c hc => by
    have hdigit := isDigit_toNat (h c hc)
    omega
  unfold parseInt
  rw [strip_eq_self fun c hc => isSpace_of_isDigit (h c hc), map_asciiDigit hascii]
  unfold parseSigned
  split
  · rename_i ds
    exact absurd rfl (ne_of_isDigit (d := '-') (h '-' (by simp)) (by decide))
  · rename_i ds
    exact absurd rfl (ne_of_isDigit (d := '+') (h '+' (by simp)) (by decide))
  · rw [parseDigits_of_digits hne h, Option.map_some]

theorem parseDigits_natText (n : ℕ) : parseDigits (natText n) = some n := by
  rw [parseDigits_of_digits (natText_ne_nil n) fun c hc => isDigit_of_mem_natText hc]
  exact congrArg some Nat.ofDigitChars_ten_toDigits

/-- `int(str(n)) = n`. -/
theorem parseInt_natText (n : ℕ) : parseInt (natText n) = some (n : ℤ) := by
  rw [parseInt_of_digits (natText_ne_nil n) fun c hc => isDigit_of_mem_natText hc]
  exact congrArg (fun n : ℕ => some (n : ℤ)) Nat.ofDigitChars_ten_toDigits

/-! ## Amounts -/

/-- Two digits. -/
def twoDigits (k : ℕ) : List Char := [Nat.digitChar (k / 10 % 10), Nat.digitChar (k % 10)]

/-- `f"{x:.0f}"`. -/
def fixed0 (x : ℚ) : List Char :=
  (if x < 0 then ['-'] else []) ++ natText (roundHalfEven x).natAbs

/-- `f"{x:.2f}"`. -/
def fixed2 (x : ℚ) : List Char :=
  let n := (roundHalfEven (x * 100)).natAbs
  (if x < 0 then ['-'] else []) ++ natText (n / 100) ++ '.' :: twoDigits (n % 100)

/-- `f"{x}"` for an amount in whole hundredths: as few decimals as needed, at least one. -/
def shortest (x : ℚ) : List Char :=
  let n := (roundHalfEven (x * 100)).natAbs
  (if x < 0 then ['-'] else []) ++ natText (n / 100) ++
    '.' :: (if n % 10 = 0 then [Nat.digitChar (n / 10 % 10)] else twoDigits (n % 100))

/-- An unsigned decimal literal, with an optional exponent. -/
def parseUnsigned (cs : List Char) : Option ℚ :=
  let ip := cs.takeWhile Char.isDigit
  let fp :=
    match cs.dropWhile Char.isDigit with
    | '.' :: t => (t.takeWhile Char.isDigit, t.dropWhile Char.isDigit)
    | r => ([], r)
  if ip = [] ∧ fp.1 = [] then none
  else
    let m : ℚ := (Nat.ofDigitChars 10 (ip ++ fp.1) 0 : ℚ) / 10 ^ fp.1.length
    match fp.2 with
    | [] => some m
    | c :: t => if c = 'e' ∨ c = 'E' then (parseSigned t).map fun e => m * 10 ^ e else none

/-- A decimal literal, with a sign or without one. -/
def parseDecimal : List Char → Option ℚ
  | '-' :: ds => (parseUnsigned ds).map fun x => -x
  | '+' :: ds => parseUnsigned ds
  | ds => parseUnsigned ds

/-- Each underscore has a digit before it, as the first one has if `before`, and one behind it. -/
def grouped : Bool → List Char → Bool
  | _, [] => true
  | before, c :: cs =>
    if c = '_' then before && cs.head?.any Char.isDigit && grouped false cs
    else grouped c.isDigit cs

/-- `float(s)`. -/
def parseFloat (cs : List Char) : Option ℚ :=
  let literal := (strip isSpace cs).map asciiDigit
  if grouped false literal then parseDecimal (literal.filter (· ≠ '_')) else none

theorem grouped_of_notMem {cs : List Char} (h : '_' ∉ cs) (before : Bool) :
    grouped before cs = true := by
  induction cs generalizing before with
  | nil => rfl
  | cons c cs ih =>
    rw [List.mem_cons, not_or] at h
    rw [grouped, if_neg (Ne.symm h.1)]
    exact ih h.2 _

/-- A literal of digits, dots and signs is read as it is. -/
theorem parseFloat_of_plain {cs : List Char} (h : ∀ c ∈ cs, c.isDigit = true ∨ c = '.' ∨ c = '-') :
    parseFloat cs = parseDecimal cs := by
  have hcode : ∀ c ∈ cs, 33 ≤ c.toNat ∧ c.toNat ≤ 126 ∧ c ≠ '_' := by
    intro c hc
    rcases h c hc with hdigit | rfl | rfl
    · have hcodes := isDigit_toNat hdigit
      exact ⟨by omega, by omega, ne_of_isDigit hdigit (by decide)⟩
    · decide
    · decide
  have hstrip : strip isSpace cs = cs :=
    strip_eq_self fun c hc => isSpace_of_printable (hcode c hc).1 (hcode c hc).2.1
  have hascii : cs.map asciiDigit = cs := map_asciiDigit fun c hc => by
    have hc := (hcode c hc).2.1
    omega
  have hgrouped : grouped false cs = true :=
    grouped_of_notMem (fun hmem => (hcode '_' hmem).2.2 rfl) false
  have hkept : cs.filter (· ≠ '_') = cs :=
    List.filter_eq_self.2 fun c hc => decide_eq_true (hcode c hc).2.2
  unfold parseFloat
  simp only [hstrip, hascii, hgrouped, hkept, if_true]

theorem isDigit_digitChar {k : ℕ} (h : k < 10) : (Nat.digitChar k).isDigit = true := by
  interval_cases k <;> decide

theorem isDigit_of_mem_twoDigits {k : ℕ} {c : Char} (h : c ∈ twoDigits k) : c.isDigit = true := by
  simp only [twoDigits, List.mem_cons, List.not_mem_nil, or_false] at h
  rcases h with rfl | rfl
  · exact isDigit_digitChar (Nat.mod_lt _ (by norm_num))
  · exact isDigit_digitChar (Nat.mod_lt _ (by norm_num))

theorem ofDigitChars_twoDigits {k : ℕ} (h : k < 100) (init : ℕ) :
    Nat.ofDigitChars 10 (twoDigits k) init = 100 * init + k := by
  unfold twoDigits
  rw [Nat.ofDigitChars_cons_digitChar_of_lt_ten (Nat.mod_lt _ (by norm_num)),
    Nat.ofDigitChars_cons_digitChar_of_lt_ten (Nat.mod_lt _ (by norm_num)),
    Nat.ofDigitChars_nil]
  omega

/-- The literal `a.bc` is read as `a + bc / 100`. -/
theorem parseUnsigned_digits (a : ℕ) {k : ℕ} (hk : k < 100) :
    parseUnsigned (natText a ++ '.' :: twoDigits k) = some (((100 * a + k : ℕ) : ℚ) / 100) := by
  have hdig : ∀ c ∈ natText a, c.isDigit = true := fun c hc => isDigit_of_mem_natText hc
  have htw : (natText a ++ '.' :: twoDigits k).takeWhile Char.isDigit = natText a := by
    rw [List.takeWhile_append_of_pos hdig, List.takeWhile_cons_of_neg (by decide), List.append_nil]
  have hdw : (natText a ++ '.' :: twoDigits k).dropWhile Char.isDigit = '.' :: twoDigits k := by
    rw [List.dropWhile_append_of_pos hdig, List.dropWhile_cons_of_neg (by decide)]
  have htw2 : (twoDigits k).takeWhile Char.isDigit = twoDigits k :=
    List.takeWhile_eq_self_iff.2 fun c hc => isDigit_of_mem_twoDigits hc
  have hdw2 : (twoDigits k).dropWhile Char.isDigit = [] :=
    List.dropWhile_eq_nil_iff.2 fun c hc => isDigit_of_mem_twoDigits hc
  have hval : Nat.ofDigitChars 10 (natText a ++ twoDigits k) 0 = 100 * a + k := by
    rw [Nat.ofDigitChars_append, ofDigitChars_twoDigits hk]
    rw [natText, Nat.ofDigitChars_ten_toDigits]
  unfold parseUnsigned
  simp only [htw, hdw, htw2, hdw2]
  rw [if_neg fun h => natText_ne_nil a h.1, hval]
  norm_num [twoDigits]

theorem char_of_mem_literal {a k : ℕ} {c : Char} (h : c ∈ natText a ++ '.' :: twoDigits k) :
    c.isDigit = true ∨ c = '.' ∨ c = '-' := by
  rcases List.mem_append.1 h with h | h
  · exact .inl (isDigit_of_mem_natText h)
  · rcases List.mem_cons.1 h with rfl | h
    · exact .inr (.inl rfl)
    · exact .inl (isDigit_of_mem_twoDigits h)

/-- A number in decimals is of digits, a dot and a sign. -/
theorem char_of_mem_signed {x : ℚ} {n : ℕ} {decimals : List Char} {c : Char}
    (hdecimals : ∀ d ∈ decimals, d.isDigit = true)
    (h : c ∈ (if x < 0 then ['-'] else []) ++ natText n ++ '.' :: decimals) :
    c.isDigit = true ∨ c = '.' ∨ c = '-' := by
  rw [List.mem_append, List.mem_append, List.mem_cons] at h
  rcases h with (hsign | hwhole) | hdot | hdecimal
  · split_ifs at hsign
    · exact Or.inr (Or.inr (List.mem_singleton.1 hsign))
    · exact absurd hsign List.not_mem_nil
  · exact Or.inl (isDigit_of_mem_natText hwhole)
  · exact Or.inr (Or.inl hdot)
  · exact Or.inl (hdecimals c hdecimal)

theorem char_of_mem_fixed2 {x : ℚ} {c : Char} (h : c ∈ fixed2 x) :
    c.isDigit = true ∨ c = '.' ∨ c = '-' :=
  char_of_mem_signed (fun _ hd => isDigit_of_mem_twoDigits hd) h

theorem char_of_mem_shortest {x : ℚ} {c : Char} (h : c ∈ shortest x) :
    c.isDigit = true ∨ c = '.' ∨ c = '-' := by
  refine char_of_mem_signed (fun d hd => ?_) h
  split_ifs at hd
  · rw [List.mem_singleton.1 hd]
    exact isDigit_digitChar (Nat.mod_lt _ (by norm_num))
  · exact isDigit_of_mem_twoDigits hd

theorem isSpace_of_mem_fixed2 {x : ℚ} {c : Char} (h : c ∈ fixed2 x) : isSpace c = false := by
  rcases char_of_mem_fixed2 h with hdigit | rfl | rfl
  · exact isSpace_of_isDigit hdigit
  · decide
  · decide

theorem fixed2_ne_nil (x : ℚ) : fixed2 x ≠ [] := by
  simp [fixed2]

/-- A literal starts with a digit. -/
theorem isDigit_head_literal {a k : ℕ} {c : Char} {ds : List Char}
    (h : natText a ++ '.' :: twoDigits k = c :: ds) : c.isDigit = true := by
  cases hnt : natText a with
  | nil => exact absurd hnt (natText_ne_nil a)
  | cons d t =>
    rw [hnt, List.cons_append, List.cons.injEq] at h
    rw [← h.1]
    exact isDigit_of_mem_natText (n := a) (by rw [hnt]; simp)

/-- The literal `a.bc` is read as `a + bc / 100` also with spaces and a sign allowed. -/
theorem parseFloat_digits (a : ℕ) {k : ℕ} (hk : k < 100) :
    parseFloat (natText a ++ '.' :: twoDigits k) = some (((100 * a + k : ℕ) : ℚ) / 100) := by
  rw [parseFloat_of_plain fun c hc => char_of_mem_literal hc]
  unfold parseDecimal
  split
  · rename_i ds heq
    exact absurd rfl (ne_of_isDigit (d := '-') (isDigit_head_literal heq) (by decide))
  · rename_i ds heq
    exact absurd rfl (ne_of_isDigit (d := '+') (isDigit_head_literal heq) (by decide))
  · exact parseUnsigned_digits a hk

/-- The literal `-a.bc` is read as the opposite of `a.bc`. -/
theorem parseFloat_neg_digits (a : ℕ) {k : ℕ} (hk : k < 100) :
    parseFloat ('-' :: (natText a ++ '.' :: twoDigits k)) =
      some (-(((100 * a + k : ℕ) : ℚ) / 100)) := by
  have hplain : ∀ c ∈ '-' :: (natText a ++ '.' :: twoDigits k),
      c.isDigit = true ∨ c = '.' ∨ c = '-' := by
    intro c hc
    rcases List.mem_cons.1 hc with rfl | hc
    · exact .inr (.inr rfl)
    · exact char_of_mem_literal hc
  rw [parseFloat_of_plain hplain]
  show (parseUnsigned (natText a ++ '.' :: twoDigits k)).map _ = _
  rw [parseUnsigned_digits a hk]
  rfl

/-- `float(f"{x:.2f}")` is `x` rounded to whole hundredths. -/
theorem parseFloat_fixed2_eq_round2 (x : ℚ) : parseFloat (fixed2 x) = some (round2 x) := by
  have hk : (roundHalfEven (x * 100)).natAbs % 100 < 100 := Nat.mod_lt _ (by norm_num)
  have hsum := Nat.div_add_mod (roundHalfEven (x * 100)).natAbs 100
  unfold fixed2
  rcases lt_or_ge x 0 with hneg | hpos
  · have hround : roundHalfEven (x * 100) ≤ 0 := by
      rw [← roundHalfEven_intCast 0]
      exact roundHalfEven_mono (by push_cast; linarith)
    have habs : (((roundHalfEven (x * 100)).natAbs : ℕ) : ℚ) = -(roundHalfEven (x * 100) : ℤ) := by
      rw [Nat.cast_natAbs, abs_of_nonpos hround, Int.cast_neg]
    simp only [if_pos hneg, List.cons_append, List.nil_append]
    rw [parseFloat_neg_digits _ hk, hsum, habs, round2]
    congr 1
    ring
  · have hround : 0 ≤ roundHalfEven (x * 100) := by
      rw [← roundHalfEven_intCast 0]
      exact roundHalfEven_mono (by push_cast; linarith)
    have habs : (((roundHalfEven (x * 100)).natAbs : ℕ) : ℚ) = (roundHalfEven (x * 100) : ℤ) := by
      rw [Nat.cast_natAbs, abs_of_nonneg hround]
    simp only [if_neg (not_lt.2 hpos), List.nil_append]
    rw [parseFloat_digits _ hk, hsum, habs, round2]

/-- `float(f"{x:.2f}") = x` for an amount in whole hundredths. -/
theorem parseFloat_fixed2 {x : ℚ} (hx : IsCents x) : parseFloat (fixed2 x) = some x := by
  rw [parseFloat_fixed2_eq_round2, round2_of_isCents hx]

end Decimal
