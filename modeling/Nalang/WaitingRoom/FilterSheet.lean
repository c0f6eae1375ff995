import Nalang.Matchmaking.MatchRule
import Nalang.Profiles.Seeds
import Nalang.WaitingRoom.FilterTransport

/-!
# The filters of the home page

The sheet keeps what has been selected while it is closed, and has no way to select
nothing again. What is applied is always a filter that the matchmaking can read.
-/

namespace Nalang.WaitingRoom
open Accounts Matchmaking Profiles Transition

/-! ### `FilterBottomSheet.tsx` and `Home.tsx` -/

def JsNumber.ofInt (n : ℤ) : JsNumber :=
  if h : n.toNat < 2 ^ 53 ∧ 0 ≤ n then .int ⟨n.toNat, h.1⟩ else .other (toString n)

structure FilterBottomSheet where
  isOpen : Bool
  genders : List SetUpOption
  languages : List SetUpOption
  selectedGender : Option SetUpOption
  selectedLanguage : Option SetUpOption
  ageRange : ℕ × ℕ

structure Home where
  sheet : FilterBottomSheet
  filters : FilterValues

def minOfSlider : ℕ := 10

def maxOfSlider : ℕ := 80

/-- `react-range` hands out values within its limits, and its thumbs do not pass each other. -/
structure SliderValues where
  low : ℕ
  high : ℕ
  min_le : minOfSlider ≤ low
  ordered : low ≤ high
  le_max : high ≤ maxOfSlider

inductive HomeEvent
  | openSheet
  | closeSheet
  | gendersFetched
  | languagesFetched
  | selectGender (option : SetUpOption)
  | selectLanguage (option : SetUpOption)
  | moveSlider (values : SliderValues)
  | apply

namespace Home

def mount : Home :=
  ⟨⟨false, [], [], none, none, (minOfSlider, maxOfSlider)⟩, ⟨none, none, none, none⟩⟩

def selected (sheet : FilterBottomSheet) : FilterValues where
  genderId := sheet.selectedGender.map fun option => .ofInt option.id
  languageId := sheet.selectedLanguage.map fun option => .ofInt option.id
  minAge := some (.ofInt sheet.ageRange.1)
  maxAge := some (.ofInt sheet.ageRange.2)

/-- A list that does not come leaves a selector empty. -/
def step (db : Tables) (s : Home) : HomeEvent → Option Home
  | .openSheet =>
    if s.sheet.isOpen then some s
    else some { s with sheet := { s.sheet with isOpen := true, genders := [], languages := [] } }
  | .closeSheet => some { s with sheet := { s.sheet with isOpen := false } }
  | .gendersFetched =>
    match getGendersByLocale db korean with
    | .error _ => none
    | .ok genders =>
      if s.sheet.isOpen then some { s with sheet := { s.sheet with genders := genders } } else none
  | .languagesFetched =>
    match getLanguagesByLocale db korean with
    | .error _ => none
    | .ok languages =>
      if s.sheet.isOpen then some { s with sheet := { s.sheet with languages := languages } }
      else none
  | .selectGender option =>
    if s.sheet.isOpen ∧ option ∈ s.sheet.genders then
      some { s with sheet := { s.sheet with selectedGender := some option } }
    else none
  | .selectLanguage option =>
    if s.sheet.isOpen ∧ option ∈ s.sheet.languages then
      some { s with sheet := { s.sheet with selectedLanguage := some option } }
    else none
  | .moveSlider values =>
    if s.sheet.isOpen then
      some { s with sheet := { s.sheet with ageRange := (values.low, values.high) } }
    else none
  | .apply =>
    if s.sheet.isOpen then some ⟨{ s.sheet with isOpen := false }, selected s.sheet⟩ else none

end Home

def home (db : Tables) : Lts Home HomeEvent := Lts.ofStep (Home.step db)

/-! ### What can be applied -/

def FitColumns (db : Tables) : Prop :=
  ∀ table, ∀ c ∈ (db.choices table).choices, c.id < 2147483648

section Filters
variable {db : Tables} {s s' : Home} {e : HomeEvent}

def Lists (t : Choices) (options : List SetUpOption) : Prop :=
  ∀ option ∈ options, option ∈ t.select korean

structure Choosable (db : Tables) (sheet : FilterBottomSheet) : Prop where
  genders : Lists (db.choices .gender) sheet.genders
  languages : Lists (db.choices .language) sheet.languages
  gender : Lists (db.choices .gender) sheet.selectedGender.toList
  language : Lists (db.choices .language) sheet.selectedLanguage.toList
  ages : minOfSlider ≤ sheet.ageRange.1 ∧ sheet.ageRange.1 ≤ sheet.ageRange.2 ∧
    sheet.ageRange.2 ≤ maxOfSlider

theorem lists_nil (t : Choices) : Lists t [] := fun _ h => absurd h List.not_mem_nil

theorem lists_singleton {t : Choices} {options : List SetUpOption} {option : SetUpOption}
    (h : Lists t options) (hmem : option ∈ options) : Lists t (some option).toList := by
  intro other hother
  rw [List.mem_singleton.mp hother]
  exact h option hmem

theorem choosable_mount : Choosable db Home.mount.sheet :=
  ⟨lists_nil _, lists_nil _, lists_nil _, lists_nil _, by decide⟩

inductive Changes (db : Tables) (e : HomeEvent) (s s' : Home) : Prop
  | sheet (hother : e ≠ .apply) (hsheet : Choosable db s.sheet → Choosable db s'.sheet)
      (hgender : s.sheet.selectedGender ≠ none → s'.sheet.selectedGender ≠ none)
      (hlanguage : s.sheet.selectedLanguage ≠ none → s'.sheet.selectedLanguage ≠ none)
      (hfilters : s'.filters = s.filters)
  | applies (happly : e = .apply) (hsheet : s'.sheet = { s.sheet with isOpen := false })
      (hfilters : s'.filters = Home.selected s.sheet)

theorem changes_of_step (hs : (home db).step s e s') : Changes db e s s' := by
  change s.step db e = some s' at hs
  cases e with
  | openSheet =>
    unfold Home.step at hs
    split_ifs at hs
    · cases hs
      exact .sheet (by simp) id id id rfl
    · cases hs
      refine .sheet (by simp) (fun h => ?_) id id rfl
      exact ⟨lists_nil _, lists_nil _, h.gender, h.language, h.ages⟩
  | closeSheet =>
    cases hs
    refine .sheet (by simp) (fun h => ?_) id id rfl
    exact ⟨h.genders, h.languages, h.gender, h.language, h.ages⟩
  | gendersFetched =>
    unfold Home.step at hs
    cases hlist : getGendersByLocale db korean with
    | error e => simp [hlist] at hs
    | ok genders =>
      simp only [hlist] at hs
      obtain ⟨-, hs⟩ := Option.ite_none_right_eq_some.mp hs
      cases hs
      have hgenders : Lists (db.choices .gender) genders := by
        rw [getByLocale_ok (show getByLocale db .gender korean = _ from hlist)]
        exact fun _ h => h
      refine .sheet (by simp) (fun h => ?_) id id rfl
      exact ⟨hgenders, h.languages, h.gender, h.language, h.ages⟩
  | languagesFetched =>
    unfold Home.step at hs
    cases hlist : getLanguagesByLocale db korean with
    | error e => simp [hlist] at hs
    | ok languages =>
      simp only [hlist] at hs
      obtain ⟨-, hs⟩ := Option.ite_none_right_eq_some.mp hs
      cases hs
      have hlanguages : Lists (db.choices .language) languages := by
        rw [getByLocale_ok (show getByLocale db .language korean = _ from hlist)]
        exact fun _ h => h
      refine .sheet (by simp) (fun h => ?_) id id rfl
      exact ⟨h.genders, hlanguages, h.gender, h.language, h.ages⟩
  | selectGender option =>
    obtain ⟨⟨-, hmem⟩, hs⟩ := Option.ite_none_right_eq_some.mp hs
    cases hs
    refine .sheet (by simp) (fun h => ?_) (fun _ => Option.some_ne_none _) id rfl
    exact ⟨h.genders, h.languages, lists_singleton h.genders hmem, h.language, h.ages⟩
  | selectLanguage option =>
    obtain ⟨⟨-, hmem⟩, hs⟩ := Option.ite_none_right_eq_some.mp hs
    cases hs
    refine .sheet (by simp) (fun h => ?_) id (fun _ => Option.some_ne_none _) rfl
    exact ⟨h.genders, h.languages, h.gender, lists_singleton h.languages hmem, h.ages⟩
  | moveSlider values =>
    obtain ⟨-, hs⟩ := Option.ite_none_right_eq_some.mp hs
    cases hs
    exact .sheet (by simp) (fun h => ⟨h.genders, h.languages, h.gender, h.language, values.min_le,
      values.ordered, values.le_max⟩) id id rfl
  | apply =>
    obtain ⟨-, hs⟩ := Option.ite_none_right_eq_some.mp hs
    cases hs
    exact .applies rfl rfl rfl

/-- The sheet as it was when it was applied last. -/
def LastApplied (db : Tables) (es : List HomeEvent) (sheet : FilterBottomSheet) : Prop :=
  ∃ pre post s₀, es = pre ++ .apply :: post ∧ .apply ∉ post ∧ (home db).Run .mount pre s₀ ∧
    s₀.sheet = sheet

theorem LastApplied.snoc {es : List HomeEvent} {sheet : FilterBottomSheet}
    (h : LastApplied db es sheet) (hother : e ≠ .apply) : LastApplied db (es ++ [e]) sheet := by
  obtain ⟨pre, post, s₀, rfl, hpost, hr, hsheet⟩ := h
  refine ⟨pre, post ++ [e], s₀, List.append_assoc .., fun hmem => ?_, hr, hsheet⟩
  rcases List.mem_append.mp hmem with hmem | hmem
  · exact hpost hmem
  · exact hother (List.mem_singleton.mp hmem).symm

structure Applied (db : Tables) (es : List HomeEvent) (s : Home) : Prop where
  run : (home db).Run .mount es s
  sheet : Choosable db s.sheet
  filters : .apply ∉ es ∧ s.filters = Home.mount.filters ∨
    ∃ sheet, LastApplied db es sheet ∧ Choosable db sheet ∧ s.filters = Home.selected sheet

theorem applied_step {es : List HomeEvent} (h : Applied db es s) (hs : (home db).step s e s') :
    Applied db (es ++ [e]) s' := by
  refine ⟨h.run.snoc hs, ?_, ?_⟩
  · cases changes_of_step hs with
    | sheet _ hsheet => exact hsheet h.sheet
    | applies _ hsheet =>
      rw [hsheet]
      exact ⟨h.sheet.genders, h.sheet.languages, h.sheet.gender, h.sheet.language, h.sheet.ages⟩
  · cases changes_of_step hs with
    | sheet hother _ _ _ hfilters =>
      rw [hfilters]
      rcases h.filters with ⟨hnever, hmount⟩ | ⟨sheet, hlast, hchoosable, hsheet⟩
      · exact .inl ⟨by simpa [hnever] using hother.symm, hmount⟩
      · exact .inr ⟨sheet, hlast.snoc hother, hchoosable, hsheet⟩
    | applies happly _ hfilters =>
      have hlast : LastApplied db (es ++ [e]) s.sheet :=
        ⟨es, [], s, by rw [happly], List.not_mem_nil, h.run, rfl⟩
      exact .inr ⟨s.sheet, hlast, h.sheet, hfilters⟩

theorem applied_of_run {es : List HomeEvent} (hr : (home db).Run .mount es s) : Applied db es s :=
  hr.history (Applied db) ⟨.nil, choosable_mount, .inl ⟨List.not_mem_nil, rfl⟩⟩
    fun _ _ _ _ h hs => applied_step h hs

end Filters

/-! ### What arrives -/

section Arrives
variable {db : Tables} {sheet : FilterBottomSheet}

theorem ofInt_eq {n : ℤ} (hpos : 0 < n) (hfits : n < 2147483648) :
    ∃ sel : Selected, JsNumber.ofInt n = sel.toJs ∧ (sel.val : ℤ) = n := by
  have hsmall : n.toNat < 2 ^ 53 := by omega
  refine ⟨⟨n.toNat, by omega, hsmall⟩, ?_, Int.toNat_of_nonneg (le_of_lt hpos)⟩
  exact dif_pos ⟨hsmall, le_of_lt hpos⟩

theorem option_selected (hfit : FitColumns db) {table : LinkTable} {option : Option SetUpOption}
    (h : Lists (db.choices table) option.toList) :
    ∃ sel : Option Selected, option.map (fun o => JsNumber.ofInt o.id) = sel.map Selected.toJs ∧
      sel.map (fun n => (n.val : ℤ)) = option.map SetUpOption.id := by
  cases option with
  | none => exact ⟨none, rfl, rfl⟩
  | some o =>
    obtain ⟨c, hc, hid⟩ :=
      List.mem_map.mp (Choices.id_of_mem_select (h o (List.mem_singleton_self o)))
    obtain ⟨sel, hjs, hval⟩ := ofInt_eq (n := o.id) (hid ▸ (db.choices table).pos c hc)
      (hid ▸ hfit table c hc)
    exact ⟨some sel, congrArg some hjs, congrArg some hval⟩

theorem bound_of_conveys {sel : Option Selected} {text : Option String} (h : Conveys sel text) :
    bound text = sel.map fun n => (n.val : ℤ) := by
  cases h with
  | undefined => rfl
  | number hdecimal hint =>
    rw [bound, given_of_decimal hdecimal]
    exact hint

theorem wellFormed_of_conveys {sel : Option Selected} {text : Option String}
    (h : Conveys sel text) : WellFormedField text := by
  cases h with
  | undefined => exact fun _ h => by cases h
  | number hdecimal hint =>
    intro text' htext
    rw [given_of_decimal hdecimal] at htext
    cases htext
    exact Option.isSome_iff_exists.mpr ⟨_, hint⟩

structure AsSelected (sheet : FilterBottomSheet) (filters : Filters) : Prop where
  genderId : bound filters.genderId = sheet.selectedGender.map SetUpOption.id
  languageId : bound filters.languageId = sheet.selectedLanguage.map SetUpOption.id
  minAge : bound filters.minAge = some (sheet.ageRange.1 : ℤ)
  maxAge : bound filters.maxAge = some (sheet.ageRange.2 : ℤ)

theorem selection_of_choosable (hfit : FitColumns db) (h : Choosable db sheet) :
    ∃ sel : Selection, Home.selected sheet = sel.values ∧ ∀ filters : Filters,
      Conveys sel.genderId filters.genderId → Conveys sel.languageId filters.languageId →
      Conveys sel.minAge filters.minAge → Conveys sel.maxAge filters.maxAge →
      AsSelected sheet filters := by
  obtain ⟨gender, hgender, hgenderId⟩ := option_selected hfit h.gender
  obtain ⟨language, hlanguage, hlanguageId⟩ := option_selected hfit h.language
  have hages := h.ages
  have hmin : minOfSlider = 10 := rfl
  have hmax : maxOfSlider = 80 := rfl
  obtain ⟨low, hlow, hlowAge⟩ := ofInt_eq (n := sheet.ageRange.1) (by omega) (by omega)
  obtain ⟨high, hhigh, hhighAge⟩ := ofInt_eq (n := sheet.ageRange.2) (by omega) (by omega)
  refine ⟨⟨gender, language, some low, some high⟩, ?_, fun filters hg hl hm hx => ⟨?_, ?_, ?_, ?_⟩⟩
  · unfold Home.selected Selection.values
    rw [hgender, hlanguage, hlow, hhigh]
    rfl
  · rw [bound_of_conveys hg, hgenderId]
  · rw [bound_of_conveys hl, hlanguageId]
  · rw [bound_of_conveys hm, Option.map_some, hlowAge]
  · rw [bound_of_conveys hx, Option.map_some, hhighAge]

theorem conveys_params (sel : Selection) (token : String) :
    Conveys sel.genderId (⟨sel.params token⟩ : QueryParams).filters.genderId ∧
      Conveys sel.languageId (⟨sel.params token⟩ : QueryParams).filters.languageId ∧
      Conveys sel.minAge (⟨sel.params token⟩ : QueryParams).filters.minAge ∧
      Conveys sel.maxAge (⟨sel.params token⟩ : QueryParams).filters.maxAge := by
  rw [filters_params]
  exact ⟨conveys_carried, conveys_carried, conveys_carried, conveys_carried⟩

/-- Whatever is clicked on the home page, the filters with which somebody then waits are those of
the sheet as it was applied last, and make nobody's search fail. -/
theorem applied_filters_arrive (hfit : FitColumns db) {es : List HomeEvent} {s : Home}
    (hr : (home db).Run .mount es s) (readOther : String → JsNumber) (server : ServerUrl)
    (token : Jwt) :
    ∃ query, transport readOther server (some token.text) (some s.filters) = some query ∧
      (∀ today userData, ∃ b, isMatch today userData query.filters = .ok b) ∧
      (.apply ∉ es ∧ query.filters = ⟨none, none, none, none⟩ ∨
        ∃ sheet, LastApplied db es sheet ∧ AsSelected sheet query.filters) := by
  have hselection : ∃ sel : Selection, s.filters = sel.values ∧
      (.apply ∉ es ∧ sel = .empty ∨ ∃ sheet, LastApplied db es sheet ∧ ∀ filters : Filters,
        Conveys sel.genderId filters.genderId → Conveys sel.languageId filters.languageId →
        Conveys sel.minAge filters.minAge → Conveys sel.maxAge filters.maxAge →
        AsSelected sheet filters) := by
    rcases (applied_of_run hr).filters with ⟨hnever, hmount⟩ | ⟨sheet, hlast, hsheet, hfilters⟩
    · exact ⟨.empty, hmount, .inl ⟨hnever, rfl⟩⟩
    · obtain ⟨sel, hvalues, hsel⟩ := selection_of_choosable hfit hsheet
      exact ⟨sel, hfilters.trans hvalues, .inr ⟨sheet, hlast, hsel⟩⟩
  obtain ⟨sel, hvalues, hcases⟩ := hselection
  obtain ⟨hgender, hlanguage, hmin, hmax⟩ := conveys_params sel token.text
  refine ⟨⟨sel.params token.text⟩, ?_, ?_, ?_⟩
  · rw [hvalues]
    exact transport_params readOther server token (some sel)
  · exact isMatch_of_wellFormed ⟨wellFormed_of_conveys hgender, wellFormed_of_conveys hlanguage,
      wellFormed_of_conveys hmin, wellFormed_of_conveys hmax⟩
  · rcases hcases with ⟨hnever, rfl⟩ | ⟨sheet, hlast, hsel⟩
    · refine .inl ⟨hnever, ?_⟩
      rw [filters_params]
      rfl
    · exact .inr ⟨sheet, hlast, hsel _ hgender hlanguage hmin hmax⟩

end Arrives

/-! ### The first gender, for people up to thirty -/

def upToThirty : List HomeEvent :=
  [.openSheet, .gendersFetched, .selectGender ⟨1, "남성"⟩,
    .moveSlider ⟨18, 30, by decide, by decide, by decide⟩, .apply]

def localServer : ServerUrl := ⟨"ws://localhost", by simp⟩

def shortToken : Jwt := ⟨"h", "p", "s", by simp⟩

theorem fitColumns_seeded : FitColumns seeded := by
  intro table
  cases table <;> decide

/-- The slider is moved once more, but the sheet is closed without being applied. -/
def movedOn : List HomeEvent :=
  [.openSheet, .moveSlider ⟨40, 50, by decide, by decide, by decide⟩, .closeSheet]

theorem applied_filters_arrive_upToThirty : ∃ s query sheet,
    (home seeded).Run .mount (upToThirty ++ movedOn) s ∧ s.sheet.ageRange = (40, 50) ∧
      transport (fun _ => .int 0) localServer (some shortToken.text) (some s.filters) =
        some query ∧
      LastApplied seeded (upToThirty ++ movedOn) sheet ∧ AsSelected sheet query.filters := by
  obtain ⟨s, hexec, hages⟩ : ∃ s,
      Lts.exec (Home.step seeded) .mount (upToThirty ++ movedOn) = some s ∧
        s.sheet.ageRange = (40, 50) := ⟨_, rfl, rfl⟩
  have hr : (home seeded).Run .mount (upToThirty ++ movedOn) s := Lts.run_of_exec hexec
  have happly : HomeEvent.apply ∈ upToThirty ++ movedOn := by simp [upToThirty]
  obtain ⟨query, htransport, -, hcases⟩ :=
    applied_filters_arrive fitColumns_seeded hr (fun _ => .int 0) localServer shortToken
  obtain ⟨sheet, hlast, hselected⟩ := hcases.resolve_left fun h => h.1 happly
  exact ⟨s, query, sheet, hr, hages, htransport, hlast, hselected⟩

/-! ### What cannot be taken back -/

section Stays
variable {db : Tables} {s s' : Home} {e : HomeEvent}

theorem selected_genderId {sheet : FilterBottomSheet} :
    (Home.selected sheet).genderId ≠ none ↔ sheet.selectedGender ≠ none := by
  simp [Home.selected]

theorem selected_languageId {sheet : FilterBottomSheet} :
    (Home.selected sheet).languageId ≠ none ↔ sheet.selectedLanguage ≠ none := by
  simp [Home.selected]

structure Held (s : Home) : Prop where
  gender : s.filters.genderId ≠ none → s.sheet.selectedGender ≠ none
  language : s.filters.languageId ≠ none → s.sheet.selectedLanguage ≠ none
  ages : s.filters.minAge ≠ none → s.filters.maxAge ≠ none

structure Stays (s s' : Home) : Prop where
  gender : s.filters.genderId ≠ none → s'.filters.genderId ≠ none
  language : s.filters.languageId ≠ none → s'.filters.languageId ≠ none
  ages : s.filters.minAge ≠ none → s'.filters.minAge ≠ none ∧ s'.filters.maxAge ≠ none

theorem held_step (h : Held s) (hs : (home db).step s e s') : Held s' := by
  cases changes_of_step hs with
  | sheet _ _ hgender hlanguage hfilters =>
    refine ⟨fun hset => hgender (h.gender ?_), fun hset => hlanguage (h.language ?_), ?_⟩
    · rwa [← hfilters]
    · rwa [← hfilters]
    · rw [hfilters]
      exact h.ages
  | applies _ hsheet hfilters =>
    refine ⟨fun hset => ?_, fun hset => ?_, fun _ => ?_⟩
    · rw [hfilters] at hset
      rw [hsheet]
      exact selected_genderId.mp hset
    · rw [hfilters] at hset
      rw [hsheet]
      exact selected_languageId.mp hset
    · rw [hfilters]
      exact Option.some_ne_none _

theorem stays_step (h : Held s) (hs : (home db).step s e s') : Stays s s' := by
  cases changes_of_step hs with
  | sheet _ _ _ _ hfilters =>
    refine ⟨?_, ?_, ?_⟩
    · rw [hfilters]
      exact id
    · rw [hfilters]
      exact id
    · rw [hfilters]
      exact fun hset => ⟨hset, h.ages hset⟩
  | applies _ _ hfilters =>
    refine ⟨fun hset => ?_, fun hset => ?_, fun _ => ?_⟩
    · rw [hfilters]
      exact selected_genderId.mpr (h.gender hset)
    · rw [hfilters]
      exact selected_languageId.mpr (h.language hset)
    · rw [hfilters]
      exact ⟨Option.some_ne_none _, Option.some_ne_none _⟩

theorem Stays.trans {s₁ s₂ s₃ : Home} (h : Stays s₁ s₂) (h' : Stays s₂ s₃) : Stays s₁ s₃ :=
  ⟨fun hset => h'.gender (h.gender hset), fun hset => h'.language (h.language hset),
    fun hset => h'.ages (h.ages hset).1⟩

/-- A filter that has been applied can be replaced, but not given up. -/
theorem filters_stay {es es' : List HomeEvent} (hr : (home db).Run .mount es s)
    (hr' : (home db).Run s es' s') : Stays s s' := by
  have hmount : Held Home.mount := ⟨absurd rfl, absurd rfl, absurd rfl⟩
  have hheld : Held s := hr.invariant Held hmount fun _ _ _ h hs => held_step h hs
  have hrefl : Stays s s := ⟨id, id, fun hset => ⟨hset, hheld.ages hset⟩⟩
  refine (hr'.invariant (fun s' => Held s' ∧ Stays s s') ⟨hheld, hrefl⟩ ?_).2
  intro s₁ e s₂ ⟨h, hstays⟩ hs
  exact ⟨held_step h hs, hstays.trans (stays_step h hs)⟩

end Stays

def replaced : List HomeEvent :=
  [.openSheet, .gendersFetched, .selectGender ⟨2, "여성"⟩,
    .moveSlider ⟨10, 80, by decide, by decide, by decide⟩, .apply]

theorem filters_stay_upToThirty : ∃ s s', (home seeded).Run .mount upToThirty s ∧
    (home seeded).Run s replaced s' ∧ s'.filters.genderId ≠ s.filters.genderId ∧
      s'.filters.genderId ≠ none ∧ s'.filters.minAge ≠ none ∧ s'.filters.maxAge ≠ none := by
  obtain ⟨s, s', hexec, hexec', hfirst, hsecond, hages⟩ : ∃ s s',
      Lts.exec (Home.step seeded) .mount upToThirty = some s ∧
        Lts.exec (Home.step seeded) s replaced = some s' ∧
        s.filters.genderId = some (.ofInt 1) ∧ s'.filters.genderId = some (.ofInt 2) ∧
        s.filters.minAge ≠ none := ⟨_, _, rfl, rfl, rfl, rfl, Option.some_ne_none _⟩
  have hr : (home seeded).Run .mount upToThirty s := Lts.run_of_exec hexec
  have hr' : (home seeded).Run s replaced s' := Lts.run_of_exec hexec'
  have hstays : Stays s s' := filters_stay hr hr'
  have hgender : s.filters.genderId ≠ none := by
    rw [hfirst]
    exact Option.some_ne_none _
  refine ⟨s, s', hr, hr', ?_, hstays.gender hgender, hstays.ages hages⟩
  rw [hfirst, hsecond]
  decide

end Nalang.WaitingRoom
