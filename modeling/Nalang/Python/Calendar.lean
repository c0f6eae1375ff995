import Nalang.Python.IntLiteral
import Mathlib.Data.Nat.Find
import Mathlib.Data.Prod.Lex
import Mathlib.Tactic.IntervalCases

/-!
# Dates, the text of a `datetime`, and `strptime` with the format `%Y-%m-%d`
-/

namespace Python

def isLeap (year : ℕ) : Bool := year % 4 = 0 && (year % 100 ≠ 0 || year % 400 = 0)

def daysInMonth (year month : ℕ) : ℕ :=
  match month with
  | 2 => if isLeap year then 29 else 28
  | 4 | 6 | 9 | 11 => 30
  | _ => 31

structure Date where
  year : ℕ
  month : ℕ
  day : ℕ
  year_pos : 1 ≤ year
  year_le : year ≤ 9999
  month_pos : 1 ≤ month
  month_le : month ≤ 12
  day_pos : 1 ≤ day
  day_le : day ≤ daysInMonth year month
  deriving DecidableEq

def Date.mk? (year month day : ℕ) : Option Date :=
  if h : (1 ≤ year ∧ year ≤ 9999) ∧ (1 ≤ month ∧ month ≤ 12) ∧
      1 ≤ day ∧ day ≤ daysInMonth year month then
    some ⟨year, month, day, h.1.1, h.1.2, h.2.1.1, h.2.1.2, h.2.2.1, h.2.2.2⟩
  else none

structure DateTime extends Date where
  hour : Fin 24
  minute : Fin 60
  second : Fin 60
  microsecond : Fin 1000000
  deriving DecidableEq

def zeroPadded (width n : ℕ) : String :=
  let ds := toString n
  String.ofList (List.replicate (width - ds.length) '0') ++ ds

def DateTime.str (t : DateTime) : String :=
  zeroPadded 4 t.year ++ "-" ++ zeroPadded 2 t.month ++ "-" ++ zeroPadded 2 t.day ++ " " ++
    zeroPadded 2 t.hour ++ ":" ++ zeroPadded 2 t.minute ++ ":" ++ zeroPadded 2 t.second ++
    if t.microsecond.val = 0 then "" else "." ++ zeroPadded 6 t.microsecond

def digitIn (lo hi : Char) (c : Char) : Option ℕ :=
  if lo ≤ c ∧ c ≤ hi then some (c.toNat - '0'.toNat) else none

def scanYear : List Char → Option (ℕ × List Char)
  | a :: b :: c :: d :: cs => do
    let a ← decimalValue a
    let b ← decimalValue b
    let c ← decimalValue c
    let d ← decimalValue d
    some (1000 * a + 100 * b + 10 * c + d, cs)
  | _ => none

/-- `1[0-2]|0[1-9]|[1-9]`: the first alternative that matches is taken. -/
def scanMonth (cs : List Char) : Option (ℕ × List Char) :=
  match cs with
  | '1' :: c :: rest =>
    match digitIn '0' '2' c with
    | some n => some (10 + n, rest)
    | none => some (1, c :: rest)
  | '0' :: c :: rest => (digitIn '1' '9' c).map (·, rest)
  | c :: rest => (digitIn '1' '9' c).map (·, rest)
  | [] => none

/-- `3[0-1]|[1-2]\d|0[1-9]|[1-9]| [1-9]`: the first alternative that matches is taken. -/
def scanDay (cs : List Char) : Option (ℕ × List Char) :=
  match cs with
  | '3' :: c :: rest =>
    match digitIn '0' '1' c with
    | some n => some (30 + n, rest)
    | none => some (3, c :: rest)
  | '1' :: c :: rest =>
    match decimalValue c with
    | some n => some (10 + n, rest)
    | none => some (1, c :: rest)
  | '2' :: c :: rest =>
    match decimalValue c with
    | some n => some (20 + n, rest)
    | none => some (2, c :: rest)
  | '0' :: c :: rest => (digitIn '1' '9' c).map (·, rest)
  | ' ' :: c :: rest => (digitIn '1' '9' c).map (·, rest)
  | c :: rest => (digitIn '1' '9' c).map (·, rest)
  | [] => none

/-- `datetime.strptime(s, "%Y-%m-%d")`; `none` is the `ValueError`, also for text left over. -/
def strptime (s : String) : Option Date :=
  match scanYear s.toList with
  | some (year, '-' :: cs) =>
    match scanMonth cs with
    | some (month, '-' :: cs) =>
      match scanDay cs with
      | some (day, []) => Date.mk? year month day
      | _ => none
    | _ => none
  | _ => none

/-! ### A text that is too long -/

section Scan
variable {cs rest : List Char} {n : ℕ}

theorem scanYear_length (h : scanYear cs = some (n, rest)) : cs.length = rest.length + 4 := by
  unfold scanYear at h
  split at h
  · simp only [Option.bind_eq_bind, Option.bind_eq_some_iff, Option.some.injEq, Prod.mk.injEq] at h
    obtain ⟨_, _, _, _, _, _, _, _, _, rfl⟩ := h
    rfl
  · cases h

theorem rest_of_map {f : Option ℕ} {cs' : List Char} (h : f.map (·, cs') = some (n, rest)) :
    rest = cs' := by
  simp only [Option.map_eq_some_iff, Prod.mk.injEq] at h
  obtain ⟨_, _, _, he⟩ := h
  exact he.symm

theorem scanMonth_length (h : scanMonth cs = some (n, rest)) : cs.length ≤ rest.length + 2 := by
  unfold scanMonth at h
  split at h
  · split at h
    · cases h
      simp
    · cases h
      simp
  · cases rest_of_map h
    simp
  · cases rest_of_map h
    simp
  · cases h

theorem scanDay_length (h : scanDay cs = some (n, rest)) : cs.length ≤ rest.length + 2 := by
  unfold scanDay at h
  split at h
  iterate 3
    · split at h
      · cases h
        simp
      · cases h
        simp
  iterate 3
    · cases rest_of_map h
      simp
  · cases h

end Scan

theorem strptime_of_long {s : String} (h : 10 < s.length) : strptime s = none := by
  unfold strptime
  split
  · rename_i year cs hy
    split
    · rename_i month cs' hm
      split
      · rename_i day hd
        have hyear := scanYear_length hy
        have hmonth := scanMonth_length hm
        have hday := scanDay_length hd
        rw [← String.length_toList] at h
        simp only [List.length_cons, List.length_nil] at hyear hmonth hday
        omega
      · rfl
    · rfl
  · rfl

theorem le_zeroPadded_length (width n : ℕ) : width ≤ (zeroPadded width n).length := by
  unfold zeroPadded
  dsimp only
  rw [String.length_append, String.length_ofList, List.length_replicate]
  omega

theorem str_length (t : DateTime) : 10 < t.str.length := by
  have hyear := le_zeroPadded_length 4 t.year
  have hmonth := le_zeroPadded_length 2 t.month
  have hday := le_zeroPadded_length 2 t.day
  have hhour := le_zeroPadded_length 2 t.hour
  have hblank : " ".length = 1 := rfl
  unfold DateTime.str
  simp only [String.length_append]
  omega

theorem strptime_str (t : DateTime) : strptime t.str = none := strptime_of_long (str_length t)

example : (strptime "2000-2-29").map (fun d => (d.month, d.day)) = some (2, 29) := by decide
example : strptime "2001-02-29" = none := by decide

/-! ### A text that has the format -/

def Date.isoformat (d : Date) : String :=
  zeroPadded 4 d.year ++ "-" ++ zeroPadded 2 d.month ++ "-" ++ zeroPadded 2 d.day

theorem Date.isoformat_length (d : Date) : 0 < d.isoformat.length := by
  have hyear := le_zeroPadded_length 4 d.year
  unfold Date.isoformat
  simp only [String.length_append]
  omega

theorem toList_zeroPadded (width n : ℕ) : (zeroPadded width n).toList =
    List.replicate (width - (Nat.toDigits 10 n).length) '0' ++ Nat.toDigits 10 n := by
  unfold zeroPadded
  simp only [String.toList_append, String.toList_ofList, Nat.toString_eq_ofList_toDigits,
    String.length_ofList]

theorem toList_zeroPadded_succ {width : ℕ} (h : 0 < width) (n : ℕ) :
    (zeroPadded (width + 1) n).toList =
      (zeroPadded width (n / 10)).toList ++ [Nat.digitChar (n % 10)] := by
  rw [toList_zeroPadded, toList_zeroPadded]
  by_cases hn : n < 10
  · obtain ⟨w, rfl⟩ : ∃ w, width = w + 1 := ⟨width - 1, by omega⟩
    rw [Nat.div_eq_of_lt hn, Nat.mod_eq_of_lt hn, Nat.toDigits_of_lt_base hn, Nat.toDigits_zero]
    simp only [List.length_singleton, Nat.add_sub_cancel, List.replicate_succ']
  · rw [Nat.toDigits_of_base_le (n := n) (by decide) (by omega), List.length_append,
      List.length_singleton, Nat.add_sub_add_right, List.append_assoc]

theorem toList_zeroPadded_one {n : ℕ} (h : n < 10) :
    (zeroPadded 1 n).toList = [Nat.digitChar n] := by
  rw [toList_zeroPadded, Nat.toDigits_of_lt_base h]
  rfl

theorem decimalValue_digitChar {d : ℕ} (h : d < 10) : decimalValue (Nat.digitChar d) = some d := by
  interval_cases d <;> rfl

theorem scanYear_text {n : ℕ} (h : n < 10000) (cs : List Char) :
    scanYear ((zeroPadded 4 n).toList ++ cs) = some (n, cs) := by
  rw [toList_zeroPadded_succ (by decide), toList_zeroPadded_succ (by decide),
    toList_zeroPadded_succ (by decide), toList_zeroPadded_one (by omega)]
  simp only [List.cons_append, List.nil_append, scanYear]
  rw [decimalValue_digitChar (by omega), decimalValue_digitChar (by omega),
    decimalValue_digitChar (by omega), decimalValue_digitChar (by omega)]
  simp only [Option.bind_eq_bind, Option.bind_some, Option.some.injEq, Prod.mk.injEq, and_true]
  omega

theorem scanMonth_text {n : ℕ} (h : 1 ≤ n ∧ n ≤ 12) (cs : List Char) :
    scanMonth ((zeroPadded 2 n).toList ++ '-' :: cs) = some (n, '-' :: cs) := by
  obtain ⟨hlow, hhigh⟩ := h
  interval_cases n <;> rfl

theorem scanDay_text {n : ℕ} (h : 1 ≤ n ∧ n ≤ 31) :
    scanDay (zeroPadded 2 n).toList = some (n, []) := by
  obtain ⟨hlow, hhigh⟩ := h
  interval_cases n <;> rfl

theorem daysInMonth_le (year month : ℕ) : daysInMonth year month ≤ 31 := by
  unfold daysInMonth
  split <;> try split
  all_goals omega

theorem strptime_isoformat (d : Date) : strptime d.isoformat = some d := by
  have hday := d.day_le.trans (daysInMonth_le _ _)
  have htext : d.isoformat.toList = (zeroPadded 4 d.year).toList ++
      '-' :: ((zeroPadded 2 d.month).toList ++ '-' :: (zeroPadded 2 d.day).toList) := by
    simp [Date.isoformat, String.toList_append]
  unfold strptime
  rw [htext, scanYear_text (Nat.lt_succ_of_le d.year_le)]
  simp only [scanMonth_text ⟨d.month_pos, d.month_le⟩, scanDay_text ⟨d.day_pos, hday⟩]
  exact dif_pos ⟨⟨d.year_pos, d.year_le⟩, ⟨d.month_pos, d.month_le⟩, d.day_pos, d.day_le⟩

/-! ### Age -/

def birthdayAhead (today birth : Date) : Bool :=
  today.month < birth.month || (today.month = birth.month && today.day < birth.day)

/-- `today.year - birth.year - ((today.month, today.day) < (birth.month, birth.day))`. -/
def age (today birth : Date) : ℤ :=
  today.year - birth.year - if birthdayAhead today birth then 1 else 0

/-! ### Completed years -/

def Date.lex (d : Date) : ℕ ×ₗ ℕ ×ₗ ℕ := toLex (d.year, toLex (d.month, d.day))

instance : LE Date := ⟨fun d e => d.lex ≤ e.lex⟩

instance (d e : Date) : Decidable (d ≤ e) := inferInstanceAs (Decidable (d.lex ≤ e.lex))

/-- The place of the `n`-th birthday among the dates. Of a birth on 29 February it is between
28 February and 1 March in the other years. -/
def Date.birthday (birth : Date) (n : ℕ) : ℕ ×ₗ ℕ ×ₗ ℕ :=
  toLex (birth.year + n, toLex (birth.month, birth.day))

def completedYears (birth today : Date) : ℕ :=
  Nat.findGreatest (fun n => birth.birthday n ≤ today.lex) today.year

theorem birthday_le_iff {birth today : Date} {n : ℕ} : birth.birthday n ≤ today.lex ↔
    birth.year + n < today.year ∨
      birth.year + n = today.year ∧ birthdayAhead today birth = false := by
  simp only [Date.birthday, Date.lex, Prod.Lex.toLex_le_toLex, birthdayAhead, Bool.or_eq_false_iff,
    Bool.and_eq_false_iff, decide_eq_false_iff_not]
  omega

theorem age_eq_completedYears {birth today : Date} (h : birth ≤ today) :
    age today birth = completedYears birth today := by
  have hborn : birth.birthday 0 ≤ today.lex := h
  unfold age completedYears
  cases ha : birthdayAhead today birth with
  | true =>
    simp only [birthday_le_iff, ha, Bool.true_eq_false, and_false, or_false] at hborn ⊢
    have hg : Nat.findGreatest (fun n => birth.year + n < today.year) today.year =
        today.year - birth.year - 1 := by
      rw [Nat.findGreatest_eq_iff]
      exact ⟨by omega, fun _ => by omega, fun n hn _ => by omega⟩
    rw [hg, if_pos trivial]
    omega
  | false =>
    simp only [birthday_le_iff, ha, and_true] at hborn ⊢
    have hg : Nat.findGreatest
        (fun n => birth.year + n < today.year ∨ birth.year + n = today.year) today.year =
        today.year - birth.year := by
      rw [Nat.findGreatest_eq_iff]
      exact ⟨by omega, fun _ => by omega, fun n hn _ => by omega⟩
    rw [hg, if_neg Bool.false_ne_true]
    omega

end Python
