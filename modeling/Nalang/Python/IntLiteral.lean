import Mathlib.Data.Nat.Notation
import Mathlib.Data.Int.Notation
import Mathlib.Tactic.SplitIfs

/-!
# The built-in `int` on strings

Surrounding white space, a sign, and single underscores between decimal digits
of any script are accepted; more than 4300 digits are refused. Every refusal is
a `ValueError`, here `none`.
-/

namespace Python

/-- The zero of every run of ten decimal digits (Unicode 15, category Nd). -/
def digitZeros : List ℕ :=
  [0x30, 0x660, 0x6F0, 0x7C0, 0x966, 0x9E6, 0xA66, 0xAE6, 0xB66, 0xBE6, 0xC66, 0xCE6, 0xD66, 0xDE6,
    0xE50, 0xED0, 0xF20, 0x1040, 0x1090, 0x17E0, 0x1810, 0x1946, 0x19D0, 0x1A80, 0x1A90, 0x1B50,
    0x1BB0, 0x1C40, 0x1C50, 0xA620, 0xA8D0, 0xA900, 0xA9D0, 0xA9F0, 0xAA50, 0xABF0, 0xFF10,
    0x104A0, 0x10D30, 0x11066, 0x110F0, 0x11136, 0x111D0, 0x112F0, 0x11450, 0x114D0, 0x11650,
    0x116C0, 0x11730, 0x118E0, 0x11950, 0x11C50, 0x11D50, 0x11DA0, 0x11F50, 0x16A60, 0x16AC0,
    0x16B50, 0x1D7CE, 0x1D7D8, 0x1D7E2, 0x1D7EC, 0x1D7F6, 0x1E140, 0x1E2F0, 0x1E4F0, 0x1E950,
    0x1FBF0]

def decimalValue (c : Char) : Option ℕ :=
  (digitZeros.find? fun z => z ≤ c.toNat && c.toNat < z + 10).map (c.toNat - ·)

/-- White space that `int` strips. Of the ASCII separators only tab to return and blank count. -/
def isSpace (c : Char) : Bool :=
  let n := c.toNat
  (9 ≤ n && n ≤ 13) || n = 32 || n = 0x85 || n = 0xA0 || n = 0x1680 ||
    (0x2000 ≤ n && n ≤ 0x200A) || n = 0x2028 || n = 0x2029 || n = 0x202F || n = 0x205F || n = 0x3000

def strip (cs : List Char) : List Char :=
  ((cs.dropWhile isSpace).reverse.dropWhile isSpace).reverse

def digitRun : List Char → Option (List ℕ)
  | [] => none
  | [c] => (decimalValue c).map ([·])
  | c :: '_' :: cs =>
    match decimalValue c, digitRun cs with
    | some d, some ds => some (d :: ds)
    | _, _ => none
  | c :: cs =>
    match decimalValue c, digitRun cs with
    | some d, some ds => some (d :: ds)
    | _, _ => none

def maxStrDigits : ℕ := 4300

def natLiteral (cs : List Char) : Option ℕ :=
  match digitRun cs with
  | none => none
  | some ds => if ds.length ≤ maxStrDigits then some (ds.foldl (fun n d => 10 * n + d) 0) else none

def int (s : String) : Option ℤ :=
  match strip s.toList with
  | '+' :: cs => (natLiteral cs).map Int.ofNat
  | '-' :: cs => (natLiteral cs).map fun n => -Int.ofNat n
  | cs => (natLiteral cs).map Int.ofNat

example : int " -1_0 " = some (-10) := by decide
example : int "1__0" = none := by decide

/-! ### Decimal numerals -/

theorem decimalValue_of_isDigit {c : Char} (h : c.isDigit) :
    decimalValue c = some (c.toNat - '0'.toNat) := by
  simp only [Char.isDigit, Bool.and_eq_true, decide_eq_true_eq] at h
  have hlow : 48 ≤ c.toNat := h.1
  have hhigh : c.toNat ≤ 57 := h.2
  unfold decimalValue digitZeros
  rw [List.find?_cons_of_pos]
  · rfl
  · simp only [Bool.and_eq_true, decide_eq_true_eq]
    omega

theorem not_isSpace_of_isDigit {c : Char} (h : c.isDigit) : isSpace c = false := by
  simp only [Char.isDigit, Bool.and_eq_true, decide_eq_true_eq] at h
  have hlow : 48 ≤ c.toNat := h.1
  have hhigh : c.toNat ≤ 57 := h.2
  simp only [isSpace, Bool.or_eq_false_iff, Bool.and_eq_false_iff, decide_eq_false_iff_not]
  omega

theorem strip_of_not_space {cs : List Char} (h : ∀ c ∈ cs, isSpace c = false) : strip cs = cs := by
  have hkeep : ∀ ds : List Char, (∀ c ∈ ds, isSpace c = false) → ds.dropWhile isSpace = ds := by
    intro ds hds
    cases ds with
    | nil => rfl
    | cons d ds => simp [hds d (List.mem_cons_self ..)]
  unfold strip
  rw [hkeep cs h, hkeep cs.reverse fun c hc => h c (List.mem_reverse.mp hc), List.reverse_reverse]

theorem strip_of_digits {cs : List Char} (h : ∀ c ∈ cs, c.isDigit) : strip cs = cs :=
  strip_of_not_space fun c hc => not_isSpace_of_isDigit (h c hc)

theorem digitRun_cons {c : Char} {cs : List Char} (hc : c.isDigit) (hne : cs ≠ [])
    (h : ∀ d ∈ cs, d.isDigit) :
    digitRun (c :: cs) = (digitRun cs).map ((c.toNat - '0'.toNat) :: ·) := by
  rw [digitRun.eq_4]
  · rw [decimalValue_of_isDigit hc]
    cases digitRun cs <;> rfl
  · exact hne
  · rintro rest rfl
    exact absurd (h '_' (List.mem_cons_self ..)) (by decide)

theorem digitRun_of_digits {cs : List Char} (hne : cs ≠ []) (h : ∀ c ∈ cs, c.isDigit) :
    digitRun cs = some (cs.map fun c => c.toNat - '0'.toNat) := by
  induction cs with
  | nil => exact absurd rfl hne
  | cons c cs ih =>
    obtain ⟨hc, hcs⟩ := List.forall_mem_cons.mp h
    by_cases hnil : cs = []
    · rw [hnil, digitRun, decimalValue_of_isDigit hc]
      rfl
    · rw [digitRun_cons hc hnil hcs, ih hnil hcs]
      rfl

theorem natLiteral_of_digits {cs : List Char} (hne : cs ≠ []) (h : ∀ c ∈ cs, c.isDigit)
    (hlen : cs.length ≤ maxStrDigits) : natLiteral cs = some (Nat.ofDigitChars 10 cs 0) := by
  unfold natLiteral
  rw [digitRun_of_digits hne h]
  simp only [List.length_map, if_pos hlen, List.foldl_map, Nat.ofDigitChars_eq_foldl]

theorem int_toString {n : ℕ} (hlen : (Nat.toDigits 10 n).length ≤ maxStrDigits) :
    int (toString n) = some (n : ℤ) := by
  have hdigits : ∀ c ∈ Nat.toDigits 10 n, c.isDigit := fun c hc =>
    Nat.isDigit_of_mem_toDigits (by decide) (by decide) hc
  have hlit : natLiteral (Nat.toDigits 10 n) = some n := by
    rw [natLiteral_of_digits Nat.toDigits_ne_nil hdigits hlen, Nat.ofDigitChars_ten_toDigits]
  unfold int
  rw [Nat.toString_eq_ofList_toDigits, String.toList_ofList, strip_of_digits hdigits]
  split
  · rename_i cs hcs
    exact absurd (hdigits '+' (hcs ▸ List.mem_cons_self ..)) (by decide)
  · rename_i cs hcs
    exact absurd (hdigits '-' (hcs ▸ List.mem_cons_self ..)) (by decide)
  · rw [hlit]
    rfl

structure Decimal (text : String) (digits : List Char) : Prop where
  spelling : text.toList = digits ∨ text.toList = '+' :: digits ∨ text.toList = '-' :: digits
  nonempty : digits ≠ []
  isDigit : ∀ c ∈ digits, c.isDigit

theorem decimal_toString (n : ℕ) : Decimal (toString n) (Nat.toDigits 10 n) where
  spelling := .inl (by rw [Nat.toString_eq_ofList_toDigits, String.toList_ofList])
  nonempty := Nat.toDigits_ne_nil
  isDigit _ hc := Nat.isDigit_of_mem_toDigits (by decide) (by decide) hc

theorem natLiteral_isSome {cs : List Char} (hne : cs ≠ []) (h : ∀ c ∈ cs, c.isDigit) :
    (natLiteral cs).isSome ↔ cs.length ≤ maxStrDigits := by
  unfold natLiteral
  rw [digitRun_of_digits hne h]
  simp only [List.length_map]
  split_ifs with hlen
  · simp [hlen]
  · simp [hlen]

theorem Decimal.int_isSome {text : String} {digits : List Char} (h : Decimal text digits) :
    (int text).isSome ↔ digits.length ≤ maxStrDigits := by
  have hspace : ∀ c ∈ digits, isSpace c = false := fun c hc => not_isSpace_of_isDigit (h.isDigit c hc)
  rw [← natLiteral_isSome h.nonempty h.isDigit]
  unfold int
  rcases h.spelling with htext | htext | htext
  · rw [htext, strip_of_not_space hspace]
    split
    · next cs => exact absurd (h.isDigit '+' (List.mem_cons_self ..)) (by decide)
    · next cs => exact absurd (h.isDigit '-' (List.mem_cons_self ..)) (by decide)
    · simp
  · rw [htext, strip_of_not_space (List.forall_mem_cons.mpr ⟨by decide, hspace⟩)]
    simp
  · rw [htext, strip_of_not_space (List.forall_mem_cons.mpr ⟨by decide, hspace⟩)]
    simp

end Python
