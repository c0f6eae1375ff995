import Nalang.Matchmaking.Calls

/-!
# The age filter, from the column to `is_match`

`birth_date` is a `DateTime` column, so the text that `handle_connect` keeps of
it has a time of day, and the format of `strptime` has none. The age test fails
on the birth date of every user, and a user with a birth date is refused as soon
as one bound is given.
-/

namespace Nalang.Matchmaking
open Python

def bound (field : Option String) : Option ℤ := (given field).bind int

def InBounds (filters : Filters) (years : ℤ) : Prop :=
  (∀ n, bound filters.minAge = some n → n ≤ years) ∧ ∀ n, bound filters.maxAge = some n → years ≤ n

theorem bound_eq_none {field : Option String} (h : given field = none) : bound field = none := by
  rw [bound, h, Option.bind_none]

def AsksAge (filters : Filters) : Prop :=
  (given filters.minAge).isSome ∨ (given filters.maxAge).isSome

theorem given_of_length {text : String} (h : 0 < text.length) : given (some text) = some text := by
  have hne : text ≠ "" := by
    intro he
    rw [he] at h
    exact absurd h (by decide)
  exact if_neg hne

theorem isMatch_of_asked {today : Date} {userData : UserData} {filters : Filters}
    (hg : genderDiffers userData filters = .ok false)
    (hl : languageMissing userData filters = .ok false) :
    isMatch today userData filters = .ok true ↔ ageRefused today userData filters ≠ true := by
  simp [isMatch, hg, hl]

theorem inBounds_of_not_asked {filters : Filters} (h : ¬ AsksAge filters) (years : ℤ) :
    InBounds filters years := by
  obtain ⟨hmin, hmax⟩ := not_or.mp h
  rw [Option.not_isSome_iff_eq_none] at hmin hmax
  simp [InBounds, bound_eq_none hmin, bound_eq_none hmax]

/-! ### A text that has the format -/

theorem boundViolated_eq {field : Option String} (hw : WellFormedField field) (violates : ℤ → Bool) :
    boundViolated field violates = .ok ((bound field).any violates) := by
  unfold boundViolated bound
  cases hg : given field with
  | none => rfl
  | some text =>
    obtain ⟨n, hn⟩ := Option.isSome_iff_exists.mp (hw text hg)
    simp [intOf, hn, Except.map]

theorem ageRefused_of_date {userData : UserData} {text : String} {birth today : Date}
    {filters : Filters} (ht : given userData.birthDate = some text)
    (hb : strptime text = some birth) (hborn : birth ≤ today)
    (hmin : WellFormedField filters.minAge) (hmax : WellFormedField filters.maxAge) :
    ageRefused today userData filters = false ↔ InBounds filters (completedYears birth today) := by
  have houtside : ageOutside today text filters = .ok
      ((bound filters.minAge).any (fun n => decide (age today birth < n)) ||
        (bound filters.maxAge).any fun n => decide (n < age today birth)) := by
    simp only [ageOutside, hb, boundViolated_eq hmin, boundViolated_eq hmax]
    cases (bound filters.minAge).any fun n => decide (age today birth < n) with
    | true => rfl
    | false => rfl
  have hin : InBounds filters (completedYears birth today) ↔
      ((bound filters.minAge).any (fun n => decide (age today birth < n)) ||
        (bound filters.maxAge).any fun n => decide (n < age today birth)) = false := by
    rw [InBounds, ← age_eq_completedYears hborn, Bool.or_eq_false_iff]
    cases bound filters.minAge <;> cases bound filters.maxAge <;> simp
  unfold ageRefused
  simp only [ht, houtside]
  rw [hin]
  split_ifs with hask
  · exact Iff.rfl
  · obtain ⟨hnone, hnone'⟩ : given filters.minAge = none ∧ given filters.maxAge = none := by
      simpa using hask
    simp [bound_eq_none hnone, bound_eq_none hnone']

/-! ### The text of the column -/

theorem ageOutside_str (today : Date) (t : DateTime) (filters : Filters) :
    ageOutside today t.str filters = .error .valueError := by
  unfold ageOutside
  rw [strptime_str]

theorem ageRefused_userData (today : Date) (user : User) (filters : Filters) :
    ageRefused today user.userData filters = true ↔
      (∃ birth, user.birthDate = some birth) ∧ AsksAge filters := by
  unfold ageRefused AsksAge User.userData
  cases hb : user.birthDate with
  | none => simp [given]
  | some birth =>
    have hgiven := given_of_length (Nat.zero_lt_of_lt (str_length birth))
    simp only [Option.map_some, hgiven, ageOutside_str, Option.some.injEq, exists_eq', true_and]
    split_ifs with h
    · simpa using h
    · simpa using h

/-- The age condition is right about a user with a birth date when no bound is given, and when the
user is to be refused. -/
theorem age_accepted_iff {user : User} {birth : DateTime} {today : Date} {filters : Filters}
    (hb : user.birthDate = some birth) (hg : genderDiffers user.userData filters = .ok false)
    (hl : languageMissing user.userData filters = .ok false) :
    (isMatch today user.userData filters = .ok true ↔
        InBounds filters (completedYears birth.toDate today)) ↔
      (¬ AsksAge filters ∨ ¬ InBounds filters (completedYears birth.toDate today)) := by
  have haccept : isMatch today user.userData filters = .ok true ↔ ¬ AsksAge filters := by
    rw [isMatch_of_asked hg hl, ne_eq, ageRefused_userData]
    simp [hb]
  rw [haccept]
  by_cases hask : AsksAge filters
  · simp [hask]
  · simp [hask, inBounds_of_not_asked hask]

/-! ### An adult and two lower bounds -/

def bornIn2000Date : Date :=
  ⟨2000, 3, 4, by decide, by decide, by decide, by decide, by decide, by decide⟩

def bornIn2000 : User := ⟨.of 1, [], [], some ⟨bornIn2000Date, 0, 0, 0, 0⟩⟩

def adultsOnly : Filters := ⟨none, none, some "18", none⟩

def seniorsOnly : Filters := ⟨none, none, some "60", none⟩

theorem completedYears_bornIn2000 :
    (completedYears bornIn2000Date Clock.start.today : ℤ) = 24 := by
  rw [← age_eq_completedYears (by decide)]
  decide

theorem age_accepted_iff_applied :
    ¬ InBounds seniorsOnly (completedYears bornIn2000Date Clock.start.today) ∧
      (isMatch Clock.start.today bornIn2000.userData seniorsOnly = .ok true ↔
        InBounds seniorsOnly (completedYears bornIn2000Date Clock.start.today)) := by
  have hout : ¬ InBounds seniorsOnly (completedYears bornIn2000Date Clock.start.today) := by
    intro hin
    have hmin : bound seniorsOnly.minAge = some 60 := by decide
    have hle := hin.1 60 hmin
    rw [completedYears_bornIn2000] at hle
    omega
  have hbirth : bornIn2000.birthDate = some ⟨bornIn2000Date, 0, 0, 0, 0⟩ := rfl
  exact ⟨hout, (age_accepted_iff hbirth rfl rfl).mpr (.inr hout)⟩

theorem adult_refused :
    ¬ ∀ (user : User) (birth : DateTime) (today : Date) (filters : Filters),
      user.birthDate = some birth → birth.toDate ≤ today → filters.WellFormed →
      genderDiffers user.userData filters = .ok false →
      languageMissing user.userData filters = .ok false →
      (isMatch today user.userData filters = .ok true ↔
        InBounds filters (completedYears birth.toDate today)) := by
  intro h
  have hborn : bornIn2000Date ≤ Clock.start.today := by decide
  have hin : InBounds adultsOnly (completedYears bornIn2000Date Clock.start.today) := by
    rw [completedYears_bornIn2000]
    have hmin : bound adultsOnly.minAge = some 18 := by decide
    have hmax : bound adultsOnly.maxAge = none := rfl
    simp [InBounds, hmin, hmax]
  have hmatch := (h bornIn2000 _ Clock.start.today adultsOnly rfl hborn (by decide) rfl rfl).mpr hin
  rw [isMatch_of_asked rfl rfl, ne_eq, ageRefused_userData] at hmatch
  exact hmatch ⟨⟨_, rfl⟩, .inl rfl⟩

end Nalang.Matchmaking
