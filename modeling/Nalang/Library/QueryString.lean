import Mathlib.Data.List.Basic
import Mathlib.Data.List.DropRight
import Mathlib.Tactic.IntervalCases

/-!
# Query strings

The format of `URLSearchParams` and of `parse_qsl` with `keep_blank_values`: pairs of a
name and a value, joined by `&` and `=`. What was written is read back.
-/

namespace QueryString

/-! ### Bytes -/

def following (lead : UInt8) : Option (ℕ × UInt8 × UInt8) :=
  if 0xC2 ≤ lead ∧ lead ≤ 0xDF then some (1, 0x80, 0xBF)
  else if lead = 0xE0 then some (2, 0xA0, 0xBF)
  else if lead = 0xED then some (2, 0x80, 0x9F)
  else if 0xE1 ≤ lead ∧ lead ≤ 0xEF then some (2, 0x80, 0xBF)
  else if lead = 0xF0 then some (3, 0x90, 0xBF)
  else if 0xF1 ≤ lead ∧ lead ≤ 0xF3 then some (3, 0x80, 0xBF)
  else if lead = 0xF4 then some (3, 0x80, 0x8F)
  else none

/-- How many of the bytes after `lead` still belong to the sequence that breaks off. -/
def broken (lead : UInt8) (bytes : List UInt8) : ℕ :=
  match following lead, bytes with
  | some (count, low, high), b :: rest =>
    if low ≤ b ∧ b ≤ high then
      1 + ((rest.take (count - 1)).takeWhile fun c => 0x80 ≤ c && c ≤ 0xBF).length
    else 0
  | _, _ => 0

/-- UTF-8 with a replacement character for every sequence that breaks off. -/
def decode : List UInt8 → List Char
  | [] => []
  | b :: bs =>
    match (b :: bs).toByteArray.utf8DecodeChar? 0 with
    | some c => c :: decode (bs.drop (c.utf8Size - 1))
    | none => Char.ofNat 0xFFFD :: decode (bs.drop (broken b bs))
termination_by bytes => bytes.length
decreasing_by all_goals simp only [List.length_drop, List.length_cons]; omega

theorem decode_encodeChar (c : Char) (bytes : List UInt8) :
    decode (String.utf8EncodeChar c ++ bytes) = c :: decode bytes := by
  have hlen : (String.utf8EncodeChar c).length = c.utf8Size := String.length_utf8EncodeChar c
  have hread : (String.utf8EncodeChar c ++ bytes).toByteArray.utf8DecodeChar? 0 = some c := by
    rw [List.toByteArray_append]
    exact ByteArray.utf8DecodeChar?_utf8EncodeChar_append
  cases hbytes : String.utf8EncodeChar c with
  | nil =>
    rw [hbytes] at hlen
    exact absurd hlen (Nat.ne_of_lt c.utf8Size_pos)
  | cons b bs =>
    rw [hbytes] at hlen hread
    have hrest : c.utf8Size - 1 = bs.length := by rw [← hlen, List.length_cons, Nat.add_sub_cancel]
    rw [List.cons_append] at hread ⊢
    rw [decode, hread]
    simp only [hrest, List.drop_left]

theorem decode_encode (cs : List Char) : decode (cs.flatMap String.utf8EncodeChar) = cs := by
  induction cs with
  | nil => rw [List.flatMap_nil, decode]
  | cons c cs ih => rw [List.flatMap_cons, decode_encodeChar, ih]

/-! ### One name or value -/

def unreserved (c : Char) : Bool := c.isAlphanum || c = '*' || c = '-' || c = '.' || c = '_'

def hexDigit (n : ℕ) : Char := if n < 10 then Char.ofNat (48 + n) else Char.ofNat (55 + n)

def hexValue (c : Char) : Option ℕ :=
  if '0' ≤ c ∧ c ≤ '9' then some (c.toNat - 48)
  else if 'A' ≤ c ∧ c ≤ 'F' then some (c.toNat - 55)
  else if 'a' ≤ c ∧ c ≤ 'f' then some (c.toNat - 87)
  else none

def percent (b : UInt8) : List Char := ['%', hexDigit (b.toNat / 16), hexDigit (b.toNat % 16)]

def escapeChar (c : Char) : List Char :=
  if unreserved c then [c]
  else if c = ' ' then ['+']
  else (String.utf8EncodeChar c).flatMap percent

def escape (cs : List Char) : List Char := cs.flatMap escapeChar

def unescape : List Char → List UInt8
  | [] => []
  | '+' :: cs => 0x20 :: unescape cs
  | '%' :: a :: b :: cs =>
    match hexValue a, hexValue b with
    | some x, some y => UInt8.ofNat (16 * x + y) :: unescape cs
    | _, _ => 0x25 :: unescape (a :: b :: cs)
  | c :: cs => String.utf8EncodeChar c ++ unescape cs

theorem hexValue_hexDigit {n : ℕ} (h : n < 16) : hexValue (hexDigit n) = some n := by
  interval_cases n <;> decide

theorem unescape_percent (b : UInt8) (cs : List Char) :
    unescape (percent b ++ cs) = b :: unescape cs := by
  have hb : b.toNat < 256 := b.toNat_lt
  simp only [percent, List.cons_append, List.nil_append]
  rw [unescape.eq_3, hexValue_hexDigit (by omega), hexValue_hexDigit (by omega)]
  simp only [Nat.div_add_mod, UInt8.ofNat_toNat]

theorem unescape_percents (bytes : List UInt8) (cs : List Char) :
    unescape (bytes.flatMap percent ++ cs) = bytes ++ unescape cs := by
  induction bytes with
  | nil => rfl
  | cons b bytes ih =>
    rw [List.flatMap_cons, List.append_assoc, unescape_percent, ih, List.cons_append]

theorem unescape_escapeChar (c : Char) (cs : List Char) :
    unescape (escapeChar c ++ cs) = String.utf8EncodeChar c ++ unescape cs := by
  unfold escapeChar
  split_ifs with hplain hblank
  · rw [List.singleton_append, unescape.eq_4]
    · rintro rfl
      exact absurd hplain (by decide)
    · rintro _ _ _ rfl
      exact absurd hplain (by decide)
  · rw [hblank]
    rfl
  · exact unescape_percents _ cs

theorem unescape_escape (cs : List Char) :
    unescape (escape cs) = cs.flatMap String.utf8EncodeChar := by
  induction cs with
  | nil => rfl
  | cons c cs ih =>
    unfold escape at ih ⊢
    rw [List.flatMap_cons, unescape_escapeChar, ih, List.flatMap_cons]

theorem decode_unescape_escape (cs : List Char) : decode (unescape (escape cs)) = cs := by
  rw [unescape_escape, decode_encode]

theorem escape_of_unreserved {cs : List Char} (h : ∀ c ∈ cs, unreserved c) : escape cs = cs := by
  induction cs with
  | nil => rfl
  | cons c cs ih =>
    obtain ⟨hc, hcs⟩ := List.forall_mem_cons.mp h
    have hone : escapeChar c = [c] := if_pos hc
    unfold escape at ih ⊢
    rw [List.flatMap_cons, hone, ih hcs, List.singleton_append]

def Escaped (c : Char) : Prop := unreserved c ∨ c = '+' ∨ c = '%'

theorem escaped_hexDigit {n : ℕ} (h : n < 16) : Escaped (hexDigit n) := by
  left
  interval_cases n <;> decide

theorem escaped_of_mem {cs : List Char} {c : Char} (h : c ∈ escape cs) : Escaped c := by
  obtain ⟨d, -, hd⟩ := List.mem_flatMap.mp h
  unfold escapeChar at hd
  split_ifs at hd with hplain
  · rw [List.mem_singleton.mp hd]
    exact .inl hplain
  · rw [List.mem_singleton.mp hd]
    exact .inr (.inl rfl)
  · obtain ⟨b, -, hb⟩ := List.mem_flatMap.mp hd
    have hlt : b.toNat < 256 := b.toNat_lt
    simp only [percent, List.mem_cons, List.not_mem_nil, or_false] at hb
    rcases hb with rfl | rfl | rfl
    · exact .inr (.inr rfl)
    · exact escaped_hexDigit (by omega)
    · exact escaped_hexDigit (by omega)

/-! ### Pairs -/

def pair (item : String × String) : List Char :=
  escape item.1.toList ++ '=' :: escape item.2.toList

def serialize (items : List (String × String)) : String :=
  String.ofList (['&'].intercalate (items.map pair))

def read (cs : List Char) : String := String.ofList (decode (unescape cs))

/-- The name ends at the first `=`. -/
def parsePair (piece : List Char) : String × String :=
  (read (piece.takeWhile (· ≠ '=')), read (piece.dropWhile (· ≠ '=')).tail)

def parse (text : String) : List (String × String) :=
  ((text.toList.splitOn '&').filter (· ≠ [])).map parsePair

theorem read_escape (text : String) : read (escape text.toList) = text := by
  rw [read, decode_unescape_escape, String.ofList_toList]

theorem parsePair_pair (item : String × String) : parsePair (pair item) = item := by
  have hname : ∀ c ∈ escape item.1.toList, decide (c ≠ '=') = true := by
    intro c hc
    rw [decide_eq_true_eq]
    rintro rfl
    exact absurd (escaped_of_mem hc) (by unfold Escaped; decide)
  have htake : (pair item).takeWhile (· ≠ '=') = escape item.1.toList := by
    rw [pair, List.takeWhile_append_of_pos hname]
    simp
  have hdrop : (pair item).dropWhile (· ≠ '=') = '=' :: escape item.2.toList := by
    rw [pair, List.dropWhile_append_of_pos hname]
    simp
  rw [parsePair, htake, hdrop, List.tail_cons, read_escape, read_escape]

theorem and_not_mem_pair (item : String × String) : '&' ∉ pair item := by
  unfold pair
  simp only [List.mem_append, List.mem_cons, not_or]
  have hescaped : ∀ cs, '&' ∉ escape cs := fun cs hc =>
    absurd (escaped_of_mem hc) (by unfold Escaped; decide)
  exact ⟨hescaped _, by decide, hescaped _⟩

theorem parse_serialize (items : List (String × String)) : parse (serialize items) = items := by
  unfold parse serialize
  rw [String.toList_ofList]
  cases items with
  | nil => rfl
  | cons item items =>
    have hpieces : ∀ piece ∈ (item :: items).map pair, '&' ∉ piece := by
      intro piece hpiece
      obtain ⟨item', -, rfl⟩ := List.mem_map.mp hpiece
      exact and_not_mem_pair item'
    have hnonempty : ∀ piece ∈ (item :: items).map pair, decide (piece ≠ []) = true := by
      intro piece hpiece
      obtain ⟨item', -, rfl⟩ := List.mem_map.mp hpiece
      simp [pair]
    rw [List.splitOn_intercalate '&' hpieces (by simp), List.filter_eq_self.mpr hnonempty,
      List.map_map]
    exact List.map_id'' parsePair_pair _

theorem intercalate_concat {α : Type*} (sep l : List α) {ls : List (List α)} (hne : ls ≠ []) :
    sep.intercalate (ls ++ [l]) = sep.intercalate ls ++ sep ++ l := by
  induction ls with
  | nil => exact absurd rfl hne
  | cons l₁ ls ih =>
    cases ls with
    | nil => simp
    | cons l₂ ls =>
      rw [List.cons_append, List.cons_append, List.intercalate_cons_cons, ← List.cons_append,
        ih (List.cons_ne_nil _ _), List.intercalate_cons_cons]
      simp only [List.append_assoc]

theorem serialize_concat {items : List (String × String)} (hne : items ≠ []) {name value : String}
    (hn : ∀ c ∈ name.toList, unreserved c) (hv : ∀ c ∈ value.toList, unreserved c) :
    serialize (items ++ [(name, value)]) = serialize items ++ "&" ++ name ++ "=" ++ value := by
  have hpair : pair (name, value) = name.toList ++ '=' :: value.toList := by
    rw [pair, escape_of_unreserved hn, escape_of_unreserved hv]
  apply String.toList_inj.mp
  simp only [serialize, List.map_append, List.map_cons, List.map_nil, hpair, String.toList_append,
    String.toList_ofList]
  rw [intercalate_concat _ _ (by simpa using hne)]
  simp

theorem serialize_singleton {name value : String} (hn : ∀ c ∈ name.toList, unreserved c)
    (hv : ∀ c ∈ value.toList, unreserved c) : serialize [(name, value)] = name ++ "=" ++ value := by
  apply String.toList_inj.mp
  simp [serialize, pair, escape_of_unreserved hn, escape_of_unreserved hv]

def Plain (c : Char) : Prop := Escaped c ∨ c = '&' ∨ c = '='

theorem plain_serialize (items : List (String × String)) :
    ∀ c ∈ (serialize items).toList, Plain c := by
  unfold serialize
  rw [String.toList_ofList]
  have hpair : ∀ item, ∀ c ∈ pair item, Plain c := by
    intro item c hc
    simp only [pair, List.mem_append, List.mem_cons] at hc
    rcases hc with hc | rfl | hc
    · exact .inl (escaped_of_mem hc)
    · exact .inr (.inr rfl)
    · exact .inl (escaped_of_mem hc)
  induction items with
  | nil =>
    intro c hc
    cases hc
  | cons item items ih =>
    rw [List.map_cons]
    by_cases hnil : items = []
    · rw [hnil, List.map_nil, List.intercalate_singleton]
      exact hpair item
    · rw [List.intercalate_cons_of_ne_nil (by simpa using hnil)]
      intro c hc
      simp only [List.mem_append, List.mem_singleton] at hc
      rcases hc with (hc | rfl) | hc
      · exact hpair item c hc
      · exact .inr (.inl rfl)
      · exact ih c hc

example : parse "a=1&&b=%E2%82%AC+x&c" = [("a", "1"), ("b", "€ x"), ("c", "")] := by decide +kernel

/-! ### Addresses -/

def blank (c : Char) : Bool := c.toNat ≤ 0x20

/-- What the parser of addresses does not leave in a query. -/
def encoded (c : Char) : Bool :=
  blank c || 0x7F ≤ c.toNat || c.toNat ∈ [0x22, 0x23, 0x27, 0x3C, 0x3E]

/-- The query of an address: what stands between the first `?` and a `#`. Controls and blanks
around the address are dropped, and every tab and line end. -/
def query (address : String) : String :=
  let kept := ((address.toList.dropWhile blank).rdropWhile blank).filter fun c =>
    c.toNat ∉ [0x09, 0x0A, 0x0D]
  String.ofList ((((kept.takeWhile (· ≠ '#')).dropWhile (· ≠ '?')).tail).flatMap fun c =>
    if encoded c then (String.utf8EncodeChar c).flatMap percent else [c])

theorem alphanum_range {c : Char} (h : c.isAlphanum = true) :
    0x30 ≤ c.toNat ∧ c.toNat ≤ 0x39 ∨ 0x41 ≤ c.toNat ∧ c.toNat ≤ 0x5A ∨
      0x61 ≤ c.toNat ∧ c.toNat ≤ 0x7A := by
  delta Char.isAlphanum Char.isAlpha Char.isUpper Char.isLower Char.isDigit at h
  simp only [Bool.or_eq_true, Bool.and_eq_true, decide_eq_true_eq, ge_iff_le,
    UInt32.le_iff_toNat_le, Char.toNat_val, Char.reduceToNat] at h
  omega

theorem encoded_of_plain {c : Char} (h : Plain c) : encoded c = false := by
  rcases h with (hc | rfl | rfl) | rfl | rfl
  · simp only [unreserved, Bool.or_eq_true, decide_eq_true_eq] at hc
    have hbounds : 0x2A ≤ c.toNat ∧ c.toNat ≤ 0x7A ∧ c.toNat ≠ 0x3C ∧ c.toNat ≠ 0x3E := by
      rcases hc with (((hc | rfl) | rfl) | rfl) | rfl
      · have hrange := alphanum_range hc
        omega
      all_goals decide
    simp only [encoded, blank, Bool.or_eq_false_iff, decide_eq_false_iff_not, List.mem_cons,
      List.not_mem_nil, or_false]
    omega
  all_goals decide

theorem blank_of_plain {c : Char} (h : Plain c) : blank c = false := by
  have henc := encoded_of_plain h
  simp only [encoded, Bool.or_eq_false_iff] at henc
  exact henc.1.1

theorem dropWhile_blank (base q : List Char) : ∃ start, (∀ c ∈ start, c ∈ base) ∧
    (base ++ '?' :: q).dropWhile blank = start ++ '?' :: q := by
  have hfront : ('?' :: q).dropWhile blank = '?' :: q := List.dropWhile_cons_of_neg (by decide)
  rw [List.dropWhile_append]
  split_ifs
  · exact ⟨[], by simp, hfront⟩
  · exact ⟨_, fun c hc => (List.dropWhile_suffix _).subset hc, rfl⟩

theorem rdropWhile_blank {q : List Char} (hq : ∀ c ∈ q, Plain c) (start : List Char) :
    (start ++ '?' :: q).rdropWhile blank = start ++ '?' :: q := by
  rw [List.rdropWhile_eq_self_iff]
  intro hne
  rw [List.getLast_append_of_ne_nil _ (List.cons_ne_nil _ _)]
  rcases List.mem_cons.mp (List.getLast_mem (List.cons_ne_nil '?' q)) with hlast | hlast
  · rw [hlast]
    decide
  · rw [blank_of_plain (hq _ hlast)]
    exact Bool.false_ne_true

theorem filter_of_plain {q : List Char} (hq : ∀ c ∈ q, Plain c) :
    q.filter (fun c => c.toNat ∉ [0x09, 0x0A, 0x0D]) = q := by
  rw [List.filter_eq_self]
  intro c hc
  have hno := blank_of_plain (hq c hc)
  simp only [blank, decide_eq_false_iff_not] at hno
  simp only [List.mem_cons, List.not_mem_nil, or_false, decide_eq_true_eq]
  omega

theorem search_of_plain {base q : List Char} (hbase : ∀ c ∈ base, c ≠ '?' ∧ c ≠ '#')
    (hq : ∀ c ∈ q, Plain c) :
    ((base ++ '?' :: q).takeWhile (· ≠ '#')).dropWhile (· ≠ '?') = '?' :: q := by
  have hhash : ('?' :: q).takeWhile (· ≠ '#') = '?' :: q := by
    rw [List.takeWhile_eq_self_iff]
    intro c hc
    rw [decide_eq_true_eq]
    rintro rfl
    rcases List.mem_cons.mp hc with heq | hc
    · exact absurd heq (by decide)
    · exact absurd (encoded_of_plain (hq _ hc)) (by decide)
  rw [List.takeWhile_append_of_pos (by simpa using fun c hc => (hbase c hc).2), hhash,
    List.dropWhile_append_of_pos (by simpa using fun c hc => (hbase c hc).1)]
  rfl

theorem query_of_plain {base q : String} (hbase : ∀ c ∈ base.toList, c ≠ '?' ∧ c ≠ '#')
    (hq : ∀ c ∈ q.toList, Plain c) : query (base ++ "?" ++ q) = q := by
  obtain ⟨start, hstart, hdrop⟩ := dropWhile_blank base.toList q.toList
  have hkept : ('?' :: q.toList).filter (fun c => c.toNat ∉ [0x09, 0x0A, 0x0D]) =
      '?' :: q.toList := by
    rw [List.filter_cons_of_pos (by decide), filter_of_plain hq]
  have hwritten : q.toList.flatMap (fun c =>
      if encoded c then (String.utf8EncodeChar c).flatMap percent else [c]) = q.toList := by
    rw [List.flatMap_congr fun c hc => if_neg (by rw [encoded_of_plain (hq c hc)]; simp)]
    exact List.flatMap_singleton' _
  unfold query
  simp only [String.toList_append]
  rw [show "?".toList = ['?'] from rfl, List.append_assoc, List.singleton_append, hdrop,
    rdropWhile_blank hq, List.filter_append, hkept,
    search_of_plain (fun c hc => hbase c (hstart c (List.mem_of_mem_filter hc))) hq,
    List.tail_cons, hwritten, String.ofList_toList]

example : query " ws://host/path?a=b c#d " = "a=b%20c" := by decide +kernel

end QueryString
