import Mathlib.Order.Interval.Finset.Nat
import Nalang.Matchmaking.AgeFilter

/-!
# The rule behind `is_match`

Each of the three filters is optional, and a user meets them when every one that is
given holds. Ages count birthdays. On texts that `int` and `strptime` can read,
`is_match` decides this rule.
-/

namespace Nalang.Matchmaking
open Python

/-! ### Birthdays -/

/-- Whoever is born on 29 February has the birthday on 1 March in the common years. -/
def birthdayIn (birth : Date) (year : ℕ) : ℕ ×ₗ ℕ ×ₗ ℕ :=
  if birth.month = 2 ∧ birth.day = 29 ∧ isLeap year = false then toLex (year, toLex (3, 1))
  else toLex (year, toLex (birth.month, birth.day))

def birthdaysPassed (birth today : Date) : ℕ :=
  ((Finset.Ioc birth.year today.year).filter fun year => birthdayIn birth year ≤ today.lex).card

theorem birthdayIn_le_iff {birth today : Date} {year : ℕ} : birthdayIn birth year ≤ today.lex ↔
    year < today.year ∨ year = today.year ∧ birthdayAhead today birth = false := by
  have hpos := today.day_pos
  have hday := today.day_le
  unfold birthdayIn
  split_ifs with hleap
  · obtain ⟨hmonth, hborn, hcommon⟩ := hleap
    simp only [Date.lex, Prod.Lex.toLex_le_toLex, birthdayAhead, Bool.or_eq_false_iff,
      Bool.and_eq_false_iff, decide_eq_false_iff_not, hmonth, hborn]
    -- February has no 29th day in this year
    have hshort : year = today.year → today.month = 2 → today.day ≤ 28 := by
      rintro rfl htwo
      rw [htwo] at hday
      simpa [daysInMonth, hcommon] using hday
    omega
  · simp only [Date.lex, Prod.Lex.toLex_le_toLex, birthdayAhead, Bool.or_eq_false_iff,
      Bool.and_eq_false_iff, decide_eq_false_iff_not]
    omega

theorem age_eq_birthdaysPassed {birth today : Date} (h : birth ≤ today) :
    age today birth = birthdaysPassed birth today := by
  have hborn : birth.birthday 0 ≤ today.lex := h
  rw [birthday_le_iff, Nat.add_zero] at hborn
  have hlast : (Finset.Ioc birth.year today.year).filter (fun year =>
      birthdayIn birth year ≤ today.lex) =
        Finset.Ioc birth.year (today.year - if birthdayAhead today birth then 1 else 0) := by
    ext year
    simp only [Finset.mem_filter, Finset.mem_Ioc, birthdayIn_le_iff]
    cases birthdayAhead today birth with
    | true =>
      simp
      omega
    | false =>
      simp
      omega
  unfold age birthdaysPassed
  rw [hlast, Nat.card_Ioc]
  cases ha : birthdayAhead today birth with
  | true =>
    simp [ha] at hborn ⊢
    omega
  | false =>
    simp [ha] at hborn ⊢
    omega

/-! ### The rule -/

structure Meets (today : Date) (userData : UserData) (birth : Option Date) (filters : Filters) :
    Prop where
  gender : ∀ n, bound filters.genderId = some n → userData.genderId = some n
  language : ∀ n, bound filters.languageId = some n → n ∈ userData.languages
  age : ∀ d, birth = some d → InBounds filters (birthdaysPassed d today)

structure Filters.Each (filters : Filters) (P : Option String → Prop) : Prop where
  genderId : P filters.genderId
  languageId : P filters.languageId
  minAge : P filters.minAge
  maxAge : P filters.maxAge

def DecimalField (field : Option String) : Prop :=
  ∀ text, field = some text → ∃ digits, Decimal text digits

/-- Absent, or a decimal integer that is not too long to be read. -/
def ReadableField (field : Option String) : Prop :=
  ∀ text, field = some text → ∃ digits, Decimal text digits ∧ digits.length ≤ maxStrDigits

theorem given_eq_some {field : Option String} {text : String} (h : given field = some text) :
    field = some text := by
  cases field with
  | none => cases h
  | some text' =>
    change (if text' = "" then none else some text') = some text at h
    split_ifs at h
    exact h

theorem ReadableField.wellFormed {field : Option String} (h : ReadableField field) :
    WellFormedField field := by
  intro text htext
  obtain ⟨digits, hdecimal, hlength⟩ := h text (given_eq_some htext)
  exact hdecimal.int_isSome.mpr hlength

theorem genderDiffers_eq {filters : Filters} (h : WellFormedField filters.genderId)
    (userData : UserData) : genderDiffers userData filters =
      .ok ((bound filters.genderId).any fun n => decide (userData.genderId ≠ some n)) :=
  boundViolated_eq h fun n => decide (userData.genderId ≠ some n)

theorem languageMissing_eq {filters : Filters} (h : WellFormedField filters.languageId)
    (userData : UserData) : languageMissing userData filters =
      .ok ((bound filters.languageId).any fun n => decide (n ∉ userData.languages)) :=
  boundViolated_eq h fun n => decide (n ∉ userData.languages)

theorem any_eq_false {x : Option ℤ} {violates : ℤ → Prop} [DecidablePred violates] :
    x.any (fun n => decide (violates n)) = false ↔ ∀ n, x = some n → ¬ violates n := by
  cases x <;> simp

theorem ageRefused_iff {today : Date} {userData : UserData} {birth : Option Date}
    {filters : Filters} (hbirth : userData.birthDate = birth.map Date.isoformat)
    (hborn : ∀ d, birth = some d → d ≤ today) (hmin : WellFormedField filters.minAge)
    (hmax : WellFormedField filters.maxAge) : ageRefused today userData filters = false ↔
      ∀ d, birth = some d → InBounds filters (birthdaysPassed d today) := by
  cases birth with
  | none =>
    have hgiven : given userData.birthDate = none := by
      rw [hbirth]
      rfl
    simp [ageRefused, hgiven]
  | some d =>
    have hgiven : given userData.birthDate = some d.isoformat := by
      rw [hbirth]
      exact given_of_length d.isoformat_length
    have hd := hborn d rfl
    rw [ageRefused_of_date hgiven (strptime_isoformat d) hd hmin hmax,
      ← age_eq_completedYears hd, age_eq_birthdaysPassed hd]
    simp

/-- On filters that can be read `is_match` returns, and returns whether the user meets them. -/
theorem isMatch_iff_meets {today : Date} {userData : UserData} {birth : Option Date}
    {filters : Filters} (hbirth : userData.birthDate = birth.map Date.isoformat)
    (hborn : ∀ d, birth = some d → d ≤ today) (hfilters : filters.Each ReadableField) :
    ∃ b, isMatch today userData filters = .ok b ∧
      (b = true ↔ Meets today userData birth filters) := by
  have hage := ageRefused_iff hbirth hborn hfilters.minAge.wellFormed hfilters.maxAge.wellFormed
  have hg := genderDiffers_eq hfilters.genderId.wellFormed userData
  have hl := languageMissing_eq hfilters.languageId.wellFormed userData
  unfold isMatch
  rw [hg, hl]
  cases hgender : (bound filters.genderId).any fun n => decide (userData.genderId ≠ some n) with
  | true =>
    refine ⟨false, rfl, iff_of_false Bool.false_ne_true fun hmeets => ?_⟩
    rw [any_eq_false.mpr fun n hn => not_not.mpr (hmeets.gender n hn)] at hgender
    cases hgender
  | false =>
    cases hlanguage : (bound filters.languageId).any fun n => decide (n ∉ userData.languages) with
    | true =>
      refine ⟨false, rfl, iff_of_false Bool.false_ne_true fun hmeets => ?_⟩
      rw [any_eq_false.mpr fun n hn => not_not.mpr (hmeets.language n hn)] at hlanguage
      cases hlanguage
    | false =>
      refine ⟨!ageRefused today userData filters, rfl, ?_⟩
      rw [Bool.not_eq_true', hage]
      constructor
      · intro hbounds
        exact ⟨fun n hn => not_not.mp (any_eq_false.mp hgender n hn),
          fun n hn => not_not.mp (any_eq_false.mp hlanguage n hn), hbounds⟩
      · intro hmeets
        exact hmeets.age

def grownUp : UserData := ⟨.of 1, some 1, [2, 3], some bornIn2000Date.isoformat⟩

def grownUps : Filters := ⟨some "1", none, some "+18", none⟩

theorem isMatch_iff_meets_grownUps :
    ∃ b, isMatch Clock.start.today grownUp grownUps = .ok b ∧
      (b = true ↔ Meets Clock.start.today grownUp
        (some bornIn2000Date) grownUps) := by
  refine isMatch_iff_meets rfl ?_ ⟨?_, ?_, ?_, ?_⟩
  · rintro d ⟨⟩
    decide
  · rintro text ⟨⟩
    exact ⟨['1'], ⟨.inl rfl, by simp, by simp⟩, by decide⟩
  · rintro text ⟨⟩
  · rintro text ⟨⟩
    exact ⟨['1', '8'], ⟨.inr (.inl rfl), by simp, by simp⟩, by decide⟩
  · rintro text ⟨⟩

theorem isMatch_of_genderId {filters : Filters} {text : String}
    (hgiven : given filters.genderId = some text) (hunread : int text = none) (today : Date)
    (userData : UserData) :
    isMatch today userData filters = .error .valueError := by
  unfold isMatch genderDiffers intOf
  rw [hgiven]
  simp only [hunread]
  rfl

theorem given_of_decimal {text : String} {digits : List Char} (h : Decimal text digits) :
    given (some text) = some text := by
  refine given_of_length ?_
  rw [← String.length_toList]
  refine List.length_pos_iff.mpr ?_
  rcases h.spelling with htext | htext | htext
  · exact htext ▸ h.nonempty
  · exact htext ▸ List.cons_ne_nil _ _
  · exact htext ▸ List.cons_ne_nil _ _

theorem decimal_ones (n : ℕ) :
    Decimal (String.ofList (List.replicate (n + 1) '1')) (List.replicate (n + 1) '1') where
  spelling := .inl String.toList_ofList
  nonempty := List.cons_ne_nil '1' (List.replicate n '1')
  isDigit _ hc := List.eq_of_mem_replicate hc ▸ rfl

theorem not_isMatch_iff_meets :
    ¬ ∀ (today : Date) (userData : UserData) (birth : Option Date) (filters : Filters),
      userData.birthDate = birth.map Date.isoformat → (∀ d, birth = some d → d ≤ today) →
      filters.Each DecimalField →
      ∃ b, isMatch today userData filters = .ok b ∧
        (b = true ↔ Meets today userData birth filters) := by
  intro h
  have habsent : DecimalField none := fun text htext => nomatch htext
  have hones := decimal_ones maxStrDigits
  have hunread : int (String.ofList (List.replicate (maxStrDigits + 1) '1')) = none := by
    rw [← Option.not_isSome_iff_eq_none, hones.int_isSome, List.length_replicate]
    exact Nat.not_succ_le_self maxStrDigits
  have hgiven := given_of_decimal hones
  generalize String.ofList (List.replicate (maxStrDigits + 1) '1') = text at hones hunread hgiven
  have hgender : DecimalField (some text) := fun _ htext => ⟨_, Option.some.inj htext ▸ hones⟩
  obtain ⟨b, hb, -⟩ := h Clock.start.today ⟨.of 1, none, [], none⟩ none
    ⟨some text, none, none, none⟩ rfl (fun d hd => nomatch hd) ⟨hgender, habsent, habsent, habsent⟩
  rw [isMatch_of_genderId hgiven hunread] at hb
  cases hb

end Nalang.Matchmaking
