import Nalang.Library.JavaScript

/-!
# JSON

`JSON.parse`: the characters give the tokens, and the tokens drive a machine with a stack of the
arrays and objects that are still open.
-/

namespace Json
open Binary64 JavaScript

inductive Token
  | literal (p : Primitive)
  | openArray
  | closeArray
  | openObject
  | closeObject
  | colon
  | comma
  deriving DecidableEq

/-! ### Tokens -/

inductive Mode
  | between
  | word (cs : List Char)
  | string (t : Text)
  | escape (t : Text)
  /-- `digits` of the four digits are left, `n` is the value of the others. -/
  | unicode (t : Text) (digits n : ℕ)

def number (cs : List Char) : Option Primitive :=
  match cs with
  | '-' :: digits => (unsigned true digits).map fun q => .number (rounded (-q))
  | digits => (unsigned true digits).map fun q => .number (rounded q)

def word (cs : List Char) : Option Primitive :=
  if cs = "null".toList then some .null
  else if cs = "true".toList then some (.bool true)
  else if cs = "false".toList then some (.bool false)
  else number cs

def isWordChar (c : Char) : Bool := c.isAlphanum || c = '-' || c = '+' || c = '.'

def plain (c : Char) : Option (List Token × Mode) :=
  if c = '[' then some ([.openArray], .between)
  else if c = ']' then some ([.closeArray], .between)
  else if c = '{' then some ([.openObject], .between)
  else if c = '}' then some ([.closeObject], .between)
  else if c = ':' then some ([.colon], .between)
  else if c = ',' then some ([.comma], .between)
  else if c = '"' then some ([], .string [])
  else if isWordChar c then some ([], .word [c])
  else if c = ' ' ∨ c = '\t' ∨ c = '\n' ∨ c = '\r' then some ([], .between)
  else none

def escaped (c : Char) : Option Char :=
  if c = '"' ∨ c = '\\' ∨ c = '/' then some c
  else if c = 'b' then some (Char.ofNat 8)
  else if c = 'f' then some (Char.ofNat 12)
  else if c = 'n' then some '\n'
  else if c = 'r' then some '\r'
  else if c = 't' then some '\t'
  else none

def read (c : Char) : Mode → Option (List Token × Mode)
  | .between => plain c
  | .word cs =>
    if isWordChar c then some ([], .word (cs ++ [c]))
    else
      match word cs, plain c with
      | some p, some (ts, mode) => some (.literal p :: ts, mode)
      | _, _ => none
  | .string t =>
    if c = '"' then some ([.literal (.text t)], .between)
    else if c = '\\' then some ([], .escape t)
    else if c.toNat < 0x20 then none
    else some ([], .string (t ++ units c))
  | .escape t =>
    if c = 'u' then some ([], .unicode t 4 0)
    else (escaped c).map fun d => ([], .string (t ++ units d))
  | .unicode t digits n =>
    if digitValue c < 16 then
      if digits = 1 then some ([], .string (t ++ [UInt16.ofNat (16 * n + digitValue c)]))
      else some ([], .unicode t (digits - 1) (16 * n + digitValue c))
    else none

def tokens : Mode → List Char → Option (List Token)
  | .between, [] => some []
  | .word cs, [] => (word cs).map fun p => [.literal p]
  | _, [] => none
  | mode, c :: cs =>
    match read c mode with
    | none => none
    | some (ts, mode') => (tokens mode' cs).map (ts ++ ·)

/-! ### Values -/

/-- An array with its items so far, or an object with its members so far and the key whose value
is being read. -/
inductive Frame
  | array (items : List Value)
  | object (members : List (Text × Value)) (key : Text)

/-- What the next token has to be. With `first` the array or object may end instead. -/
inductive Place
  | value (first : Bool)
  | key (members : List (Text × Value)) (first : Bool)
  | colon (members : List (Text × Value)) (key : Text)
  | after (value : Value)

structure Machine where
  stack : List Frame
  place : Place

namespace Machine

def start : Machine := ⟨[], .value false⟩

def step (m : Machine) (t : Token) : Option Machine :=
  match m.place, t, m.stack with
  | .value _, .literal p, stack => some ⟨stack, .after (.primitive p)⟩
  | .value _, .openArray, stack => some ⟨.array [] :: stack, .value true⟩
  | .value _, .openObject, stack => some ⟨stack, .key [] true⟩
  | .value true, .closeArray, .array items :: stack => some ⟨stack, .after (.array items)⟩
  | .key members _, .literal (.text key), stack => some ⟨stack, .colon members key⟩
  | .key members true, .closeObject, stack => some ⟨stack, .after (.object members)⟩
  | .colon members key, .colon, stack => some ⟨.object members key :: stack, .value false⟩
  | .after v, .comma, .array items :: stack => some ⟨.array (items ++ [v]) :: stack, .value false⟩
  | .after v, .closeArray, .array items :: stack => some ⟨stack, .after (.array (items ++ [v]))⟩
  | .after v, .comma, .object members key :: stack =>
    some ⟨stack, .key (members ++ [(key, v)]) false⟩
  | .after v, .closeObject, .object members key :: stack =>
    some ⟨stack, .after (.object (members ++ [(key, v)]))⟩
  | _, _, _ => none

def run (m : Machine) : List Token → Option Machine
  | [] => some m
  | t :: ts =>
    match m.step t with
    | none => none
    | some m' => m'.run ts

def result (m : Machine) : Option Value :=
  match m.place, m.stack with
  | .after v, [] => some v
  | _, _ => none

end Machine

def parse (cs : List Char) : Option Value :=
  match tokens .between cs with
  | none => none
  | some ts => (Machine.start.run ts).bind Machine.result

end Json
