import Nalang.Matchmaking.Data

/-!
# `is_match`

The gender and language tests convert their filter outside any `try`, so a
malformed filter raises there. The age test is inside a `try` whose handler
answers `False`.
-/

namespace Nalang.Matchmaking
open Python

/-- The value of a field that is tested for truth: an absent and an empty text count as `False`. -/
def given : Option String → Option String
  | none => none
  | some text => if text = "" then none else some text

def intOf (text : String) : Except PyError ℤ :=
  match int text with
  | none => .error .valueError
  | some n => .ok n

def genderDiffers (userData : UserData) (filters : Filters) : Except PyError Bool :=
  match given filters.genderId with
  | none => .ok false
  | some text => (intOf text).map fun n => decide (userData.genderId ≠ some n)

def languageMissing (userData : UserData) (filters : Filters) : Except PyError Bool :=
  match given filters.languageId with
  | none => .ok false
  | some text => (intOf text).map fun n => decide (n ∉ userData.languages)

/-- `filters.get(bound) and violates(int(filters[bound]))`. -/
def boundViolated (bound : Option String) (violates : ℤ → Bool) : Except PyError Bool :=
  match given bound with
  | none => .ok false
  | some text => (intOf text).map violates

def ageOutside (today : Date) (birthDate : String) (filters : Filters) : Except PyError Bool :=
  match strptime birthDate with
  | none => .error .valueError
  | some birth =>
    match boundViolated filters.minAge (fun n => decide (age today birth < n)) with
    | .error e => .error e
    | .ok true => .ok true
    | .ok false => boundViolated filters.maxAge (fun n => decide (n < age today birth))

def ageRefused (today : Date) (userData : UserData) (filters : Filters) : Bool :=
  match given userData.birthDate with
  | none => false
  | some birthDate =>
    if (given filters.minAge).isSome || (given filters.maxAge).isSome then
      match ageOutside today birthDate filters with
      | .error _ => true
      | .ok outside => outside
    else false

def isMatch (today : Date) (userData : UserData) (filters : Filters) : Except PyError Bool :=
  match genderDiffers userData filters with
  | .error e => .error e
  | .ok true => .ok false
  | .ok false =>
    match languageMissing userData filters with
    | .error e => .error e
    | .ok true => .ok false
    | .ok false => .ok (!ageRefused today userData filters)

def mutualMatch (today : Date) (other : CallRecord) (userData : UserData) (filters : Filters) :
    Except PyError Bool :=
  match isMatch today other.user filters with
  | .error e => .error e
  | .ok false => .ok false
  | .ok true => isMatch today userData other.filters

def WellFormedField (field : Option String) : Prop :=
  ∀ text, given field = some text → (int text).isSome

instance (field : Option String) : Decidable (WellFormedField field) :=
  match h : given field with
  | none => isTrue fun text ht => by simp [h] at ht
  | some t =>
    if hi : (int t).isSome then isTrue fun text ht => by
      rw [h, Option.some.injEq] at ht
      exact ht ▸ hi
    else isFalse fun hw => hi (hw t h)

structure Filters.WellFormed (filters : Filters) : Prop where
  genderId : WellFormedField filters.genderId
  languageId : WellFormedField filters.languageId
  minAge : WellFormedField filters.minAge
  maxAge : WellFormedField filters.maxAge

instance (filters : Filters) : Decidable filters.WellFormed :=
  decidable_of_iff (WellFormedField filters.genderId ∧ WellFormedField filters.languageId ∧
      WellFormedField filters.minAge ∧ WellFormedField filters.maxAge)
    ⟨fun h => ⟨h.1, h.2.1, h.2.2.1, h.2.2.2⟩, fun h => ⟨h.1, h.2, h.3, h.4⟩⟩

theorem intOf_of_isSome {text : String} (h : (int text).isSome) : ∃ n, intOf text = .ok n := by
  obtain ⟨n, hn⟩ := Option.isSome_iff_exists.mp h
  exact ⟨n, by simp [intOf, hn]⟩

theorem genderDiffers_of_wellFormed {filters : Filters} (hf : filters.WellFormed)
    (userData : UserData) : ∃ b, genderDiffers userData filters = .ok b := by
  unfold genderDiffers
  cases hg : given filters.genderId with
  | none => exact ⟨false, rfl⟩
  | some text =>
    obtain ⟨n, hn⟩ := intOf_of_isSome (hf.genderId text hg)
    exact ⟨_, by simp only [hn, Except.map]; rfl⟩

theorem languageMissing_of_wellFormed {filters : Filters} (hf : filters.WellFormed)
    (userData : UserData) : ∃ b, languageMissing userData filters = .ok b := by
  unfold languageMissing
  cases hg : given filters.languageId with
  | none => exact ⟨false, rfl⟩
  | some text =>
    obtain ⟨n, hn⟩ := intOf_of_isSome (hf.languageId text hg)
    exact ⟨_, by simp only [hn, Except.map]; rfl⟩

theorem isMatch_of_wellFormed {filters : Filters} (hf : filters.WellFormed) (today : Date)
    (userData : UserData) : ∃ b, isMatch today userData filters = .ok b := by
  obtain ⟨g, hg⟩ := genderDiffers_of_wellFormed hf userData
  obtain ⟨l, hl⟩ := languageMissing_of_wellFormed hf userData
  cases g with
  | true => exact ⟨false, by simp [isMatch, hg]⟩
  | false =>
    cases l with
    | true => exact ⟨false, by simp [isMatch, hg, hl]⟩
    | false => exact ⟨!ageRefused today userData filters, by simp only [isMatch, hg, hl]⟩

theorem mutualMatch_of_wellFormed {filters : Filters} (hf : filters.WellFormed)
    {other : CallRecord} (ho : other.filters.WellFormed) (today : Date) (userData : UserData) :
    ∃ b, mutualMatch today other userData filters = .ok b := by
  obtain ⟨b, hb⟩ := isMatch_of_wellFormed hf today other.user
  cases b with
  | false => exact ⟨false, by simp [mutualMatch, hb]⟩
  | true => simpa only [mutualMatch, hb] using isMatch_of_wellFormed ho today userData

theorem mutualMatch_eq_true {today : Date} {other : CallRecord} {userData : UserData}
    {filters : Filters} :
    mutualMatch today other userData filters = .ok true ↔
      isMatch today other.user filters = .ok true ∧
        isMatch today userData other.filters = .ok true := by
  unfold mutualMatch
  split <;> simp_all

end Nalang.Matchmaking
