import Mathlib.Data.List.Basic
import Nalang.Library.Binary64

/-!
# Values of JavaScript

The values that a text of JSON stands for, what an operator makes of them, and their sum. No value
here is a function, so that a `toString` of an object's own takes its conversion to a text away.
-/

namespace JavaScript
open Binary64

/-- Code units of UTF-16. -/
abbrev Text := List UInt16

def units (c : Char) : Text :=
  if c.toNat < 0x10000 then [UInt16.ofNat c.toNat]
  else
    [UInt16.ofNat (0xD800 + (c.toNat - 0x10000) / 0x400),
      UInt16.ofNat (0xDC00 + (c.toNat - 0x10000) % 0x400)]

def text (s : String) : Text := s.toList.flatMap units

inductive Primitive
  | undefined
  | null
  | bool (b : Bool)
  | number (x : Number)
  | text (units : Text)
  deriving DecidableEq

inductive Value
  | primitive (p : Primitive)
  | array (items : List Value)
  | object (members : List (Text × Value))

/-- The last member of that name, `undefined` if there is none. -/
def Value.get (name : Text) : Value → Value
  | .object members => ((members.reverse.find? fun m => m.1 = name).map Prod.snd).getD
      (.primitive .undefined)
  | _ => .primitive .undefined

def Value.equalsText (t : Text) : Value → Bool
  | .primitive p => p = .text t
  | _ => false

/-! ### Numerals -/

def natural (cs : List Char) : ℕ := cs.foldl (fun n c => 10 * n + (c.toNat - 48)) 0

def decimal (whole fraction : List Char) (exponent : ℤ) : ℚ :=
  natural (whole ++ fraction) * 10 ^ (exponent - fraction.length)

def sign : List Char → Bool × List Char
  | '+' :: cs => (false, cs)
  | '-' :: cs => (true, cs)
  | cs => (false, cs)

def exponentPart : List Char → Option ℤ
  | [] => some 0
  | e :: cs =>
    let (negative, ds) := sign cs
    if (e = 'e' ∨ e = 'E') ∧ ds ≠ [] ∧ ds.all Char.isDigit then
      some (if negative then -(natural ds) else natural ds)
    else none

/-- A numeral without a sign. JSON is strict about it: digits surround the point, and no zero
stands before other digits. -/
def unsigned (strict : Bool) (cs : List Char) : Option ℚ :=
  let whole := cs.takeWhile Char.isDigit
  let rest := cs.dropWhile Char.isDigit
  let point := rest.head? = some '.'
  let fraction := if point then rest.tail.takeWhile Char.isDigit else []
  let last := if point then rest.tail.dropWhile Char.isDigit else rest
  if whole = [] ∧ (strict ∨ fraction = []) then none
  else if strict ∧ (point ∧ fraction = [] ∨ whole.head? = some '0' ∧ whole ≠ ['0']) then none
  else (exponentPart last).map (decimal whole fraction)

def digitValue (c : Char) : ℕ :=
  if c.isDigit then c.toNat - 48
  else if 'a' ≤ c ∧ c ≤ 'z' then c.toNat - 87
  else if 'A' ≤ c ∧ c ≤ 'Z' then c.toNat - 55
  else 36

def radix (c : Char) : Option ℕ :=
  if c = 'x' ∨ c = 'X' then some 16
  else if c = 'o' ∨ c = 'O' then some 8
  else if c = 'b' ∨ c = 'B' then some 2
  else none

def inRadix (base : ℕ) (ds : List Char) : Option ℕ :=
  if ds ≠ [] ∧ ds.all (digitValue · < base) then
    some (ds.foldl (fun n c => base * n + digitValue c) 0)
  else none

def isWhiteSpace (c : Char) : Bool :=
  (0x9 ≤ c.toNat && c.toNat ≤ 0xD) || (0x2000 ≤ c.toNat && c.toNat ≤ 0x200A) ||
    [0x20, 0xA0, 0x1680, 0x2028, 0x2029, 0x202F, 0x205F, 0x3000, 0xFEFF].contains c.toNat

def trim (cs : List Char) : List Char :=
  ((cs.dropWhile isWhiteSpace).reverse.dropWhile isWhiteSpace).reverse

def signedNumeral (cs : List Char) : Number :=
  let (negative, digits) := sign cs
  if digits = "Infinity".toList then .infinity negative
  else
    match unsigned false digits with
    | none => .nan
    | some q => rounded (if negative then -q else q)

def numeral : List Char → Number
  | [] => .finite 0
  | '0' :: c :: cs =>
    match radix c with
    | none => signedNumeral ('0' :: c :: cs)
    | some base =>
      match inRadix base cs with
      | none => .nan
      | some n => rounded n
  | cs => signedNumeral cs

/-- Halves of a surrogate pair occur in no numeral. -/
def numberOfText (t : Text) : Number := numeral (trim (t.map fun u => Char.ofNat u.toNat))

/-! ### The text of a number -/

def digits (n : ℕ) : Text := (Nat.toDigits 10 n).flatMap units

/-- The decimals of `k` digits that are read back as `q`, the nearest first: a significand with the
exponent of its last digit. -/
def decimals (q : ℚ) (k : ℕ) : List (ℕ × ℤ) :=
  let exponent := Int.log 10 q + 1 - k
  let scaled := q / 10 ^ exponent
  let significands := [(nearest scaled).toNat, ⌊scaled⌋.toNat, ⌊scaled⌋.toNat + 1]
  (significands.filter fun (s : ℕ) => rounded (s * 10 ^ exponent) = .finite q).map (·, exponent)

def shortest (q : ℚ) : ℕ × ℤ :=
  match (List.range 17).flatMap fun k => decimals q (k + 1) with
  | [] => (0, 0)
  | (s, exponent) :: _ => if s = 10 then (1, exponent + 1) else (s, exponent)

def textOfPositive (q : ℚ) : Text :=
  let (s, exponent) := shortest q
  let ds := digits s
  let n := exponent + ds.length
  let zeros := fun k : ℤ => List.replicate k.toNat (UInt16.ofNat 48)
  if 0 ≤ exponent ∧ n ≤ 21 then ds ++ zeros exponent
  else if 0 < n ∧ n ≤ 21 then ds.take n.toNat ++ text "." ++ ds.drop n.toNat
  else if -6 < n ∧ n ≤ 0 then text "0." ++ zeros (-n) ++ ds
  else
    let power := text (if 0 < n then "e+" else "e-") ++ digits (n - 1).natAbs
    ds.take 1 ++ (if ds.length = 1 then [] else text "." ++ ds.drop 1) ++ power

def textOfNumber : Number → Text
  | .nan => text "NaN"
  | .infinity negative => text (if negative then "-Infinity" else "Infinity")
  | .finite q =>
    if q = 0 then text "0"
    else if q < 0 then text "-" ++ textOfPositive (-q)
    else textOfPositive q

/-! ### Conversions and the sum -/

def Primitive.toNumber : Primitive → Number
  | .undefined => .nan
  | .null => .finite 0
  | .bool b => .finite (if b then 1 else 0)
  | .number x => x
  | .text t => numberOfText t

def Primitive.toText : Primitive → Text
  | .undefined => JavaScript.text "undefined"
  | .null => JavaScript.text "null"
  | .bool b => JavaScript.text (if b then "true" else "false")
  | .number x => textOfNumber x
  | .text t => t

mutual

/-- Nothing if the conversion throws. -/
def Value.toText : Value → Option Text
  | .primitive p => some p.toText
  | .array items => (itemTexts items).map [UInt16.ofNat 44].intercalate
  | .object members =>
    if members.any fun m => m.1 = text "toString" then none else some (text "[object Object]")

/-- `null` leaves its place in an array empty. -/
def itemTexts : List Value → Option (List Text)
  | [] => some []
  | .primitive .null :: items => (itemTexts items).map ([] :: ·)
  | item :: items =>
    match item.toText, itemTexts items with
    | some t, some ts => some (t :: ts)
    | _, _ => none

end

def Value.toPrimitive : Value → Option Primitive
  | .primitive p => some p
  | value => value.toText.map .text

def Primitive.concat : Primitive → Primitive → Primitive
  | .text s, b => .text (s ++ b.toText)
  | a, .text t => .text (a.toText ++ t)
  | a, b => .number (a.toNumber.add b.toNumber)

def plus (a : Primitive) (value : Value) : Option Primitive := value.toPrimitive.map a.concat

def pred (a : Primitive) : Primitive := .number (a.toNumber.sub (.finite 1))

def Value.CountsAs (q : ℚ) (value : Value) : Prop :=
  ∃ p, value = .primitive p ∧ p.toNumber = .finite q ∧ ∀ t, p ≠ .text t

theorem concat_finite {x : ℚ} {p : Primitive} (hp : ∀ t, p ≠ .text t) :
    Primitive.concat (.number (.finite x)) p = .number (Number.add (.finite x) p.toNumber) := by
  cases p with
  | text t => exact absurd rfl (hp t)
  | undefined | null | bool | number => rfl

theorem plus_countsAs {x q : ℚ} {value : Value} (h : value.CountsAs q) :
    plus (.number (.finite x)) value = some (.number (rounded (x + q))) := by
  obtain ⟨p, rfl, hnumber, htext⟩ := h
  rw [plus, Value.toPrimitive, Option.map_some, concat_finite htext, hnumber]
  rfl

theorem toPrimitive_ne_text {value : Value} {p : Primitive} (h : value.toPrimitive = some p)
    (hp : ∀ t, p ≠ .text t) : value = .primitive p := by
  have htext : ∀ o : Option Text, o.map Primitive.text ≠ some p := by
    intro o ho
    obtain ⟨t, -, ht⟩ := Option.map_eq_some_iff.mp ho
    exact hp t ht.symm
  cases value with
  | primitive p' => rw [Option.some.inj h]
  | array items => exact absurd h (htext _)
  | object members => exact absurd h (htext _)

theorem countsAs_of_plus {x y : ℚ} {value : Value}
    (h : plus (.number (.finite x)) value = some (.number (.finite y))) :
    ∃ q, value.CountsAs q ∧ rounded (x + q) = .finite y := by
  obtain ⟨p, hvalue, hsum⟩ := Option.map_eq_some_iff.mp h
  have htext : ∀ t, p ≠ .text t := by
    rintro t rfl
    cases hsum
  rw [concat_finite htext, Primitive.number.injEq] at hsum
  cases hnumber : p.toNumber with
  | finite q =>
    rw [hnumber] at hsum
    exact ⟨q, ⟨p, toPrimitive_ne_text hvalue htext, hnumber, htext⟩, hsum⟩
  | infinity negative => simp [hnumber, Number.add] at hsum
  | nan => simp [hnumber, Number.add] at hsum

theorem pred_finite (x : ℚ) : pred (.number (.finite x)) = .number (rounded (x - 1)) := by
  rw [sub_eq_add_neg]
  rfl

end JavaScript
