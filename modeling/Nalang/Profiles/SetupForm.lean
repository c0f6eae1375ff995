import Nalang.Accounts.Lifetimes
import Nalang.Profiles.Seeds

/-!
# The form that sets a profile up

The form offers what the lists of the server hold, in Korean. A click on an
interest or a language selects it or gives it up again, a click on a gender
replaces the one before. What is sent at the end can always be saved, and the
profile then shows the names that were on the buttons.
-/

namespace Nalang.Profiles
open Accounts Localisation Transition

/-! ### `ProfileSetup.tsx` and its selectors -/

structure ImageFile where
  name : String
  type : String
  size : ℕ
  deriving DecidableEq

structure SetupState where
  options : LinkTable → List SetUpOption
  loading : Bool
  error : Option String

def SetupState.initial : SetupState := ⟨fun _ => [], false, none⟩

structure ProfileSetup where
  setup : SetupState
  /-- The calls of `fetchSetupData` that have not been answered. -/
  pending : ℕ
  selectedInterests : List ℤ
  selectedLanguages : List ℤ
  selectedGenderId : Option ℤ
  imageFile : Option ImageFile

def toggle (selected : List ℤ) (id : ℤ) : List ℤ :=
  if id ∈ selected then selected.filter (· ≠ id) else selected ++ [id]

def validImageTypes : List String :=
  ["image/jpeg", "image/png", "image/gif", "image/jpg", "image/webp"]

def maxSizeImage : ℕ := 10 * 1024 * 1024

/-- A file that is refused leaves the one that was chosen before. -/
def handleImageChange (before : Option ImageFile) : Option ImageFile → Option ImageFile
  | none => before
  | some file =>
    if file.type ∉ validImageTypes then before
    else if maxSizeImage < file.size then before
    else some file

inductive FormEvent
  | mount
  /-- The effect dispatches `fetchSetupData("ko")`. -/
  | fetch
  | fulfilled
  | rejected
  | toggleInterest (id : ℤ)
  | toggleLanguage (id : ℤ)
  | chooseGender (id : ℤ)
  | chooseImage (file : Option ImageFile)
  deriving DecidableEq

namespace ProfileSetup

def mount (setup : SetupState) (pending : ℕ) : ProfileSetup :=
  ⟨setup, pending, [], [], none, none⟩

def shown (f : ProfileSetup) : Bool := !f.setup.loading && (f.setup.error.getD "" = "")

def offers (f : ProfileSetup) (table : LinkTable) (id : ℤ) : Bool :=
  f.shown && ((f.setup.options table).map SetUpOption.id).contains id

def fetchSetupData (db : Tables) : Except HttpError (LinkTable → List SetUpOption) := do
  let interests ← getInterestsByLocale db (getLocale (some "ko".toList))
  let languages ← getLanguagesByLocale db (getLocale (some "ko".toList))
  let genders ← getGendersByLocale db (getLocale (some "ko".toList))
  return fun table => match table with
    | .interest => interests
    | .language => languages
    | .gender => genders

def step (db : Tables) (f : ProfileSetup) : FormEvent → Option ProfileSetup
  | .mount => some (mount f.setup f.pending)
  | .fetch => some { f with
      setup := { f.setup with loading := true, error := none }
      pending := f.pending + 1 }
  | .fulfilled =>
    if f.pending = 0 then none
    else
      match fetchSetupData db with
      | .error _ => none
      | .ok options => some { f with
          setup := { f.setup with options := options, loading := false }
          pending := f.pending - 1 }
  | .rejected =>
    if f.pending = 0 then none
    else some { f with
      setup := { f.setup with loading := false, error := some "설정 데이터 불러오기 실패" }
      pending := f.pending - 1 }
  | .toggleInterest id =>
    if f.offers .interest id then
      some { f with selectedInterests := toggle f.selectedInterests id }
    else none
  | .toggleLanguage id =>
    if f.offers .language id then
      some { f with selectedLanguages := toggle f.selectedLanguages id }
    else none
  | .chooseGender id =>
    if f.offers .gender id then some { f with selectedGenderId := some id } else none
  | .chooseImage file =>
    if f.shown then some { f with imageFile := handleImageChange f.imageFile file } else none

def submittable (f : ProfileSetup) : Bool := f.shown && f.selectedGenderId.getD 0 ≠ 0

def payload (f : ProfileSetup) : UserProfileUpdate :=
  ⟨f.selectedInterests, f.selectedLanguages, f.selectedGenderId⟩

end ProfileSetup

def setupForm (db : Tables) : Lts ProfileSetup FormEvent := Lts.ofStep (ProfileSetup.step db)

/-! ### What is selected has been offered -/

structure Offered (t : Choices) (selected : List ℤ) : Prop where
  distinct : selected.Nodup
  listed : ∀ id ∈ selected, ∃ name, ⟨id, name⟩ ∈ t.select korean

theorem Offered.toggle {t : Choices} {selected : List ℤ} {id : ℤ} (h : Offered t selected)
    (hid : ∃ name, ⟨id, name⟩ ∈ t.select korean) : Offered t (toggle selected id) := by
  unfold Nalang.Profiles.toggle
  split_ifs with hmem
  · exact ⟨h.distinct.filter _, fun i hi => h.listed i (List.mem_of_mem_filter hi)⟩
  · refine ⟨?_, fun i hi => ?_⟩
    · rw [List.nodup_append]
      refine ⟨h.distinct, List.nodup_singleton id, fun a ha b hb hab => ?_⟩
      rw [List.mem_singleton.mp hb] at hab
      exact hmem (hab ▸ ha)
    · rcases List.mem_append.mp hi with hi | hi
      · exact h.listed i hi
      · rw [List.mem_singleton.mp hi]
        exact hid

theorem Offered.options {t : Choices} {selected : List ℤ} (h : Offered t selected) :
    ∃ options : List SetUpOption, options.map SetUpOption.id = selected ∧
      ∀ option ∈ options, option ∈ t.select korean := by
  have hlisted := h.listed
  induction selected with
  | nil => exact ⟨[], rfl, by simp⟩
  | cons id rest ih =>
    obtain ⟨name, hname⟩ := hlisted id List.mem_cons_self
    have hrest : ∀ i ∈ rest, ∃ name, ⟨i, name⟩ ∈ t.select korean := fun i hi =>
      hlisted i (List.mem_cons_of_mem _ hi)
    obtain ⟨options, hids, hoptions⟩ := ih ⟨(List.nodup_cons.mp h.distinct).2, hrest⟩ hrest
    exact ⟨⟨id, name⟩ :: options, by rw [List.map_cons, hids],
      List.forall_mem_cons.mpr ⟨hname, hoptions⟩⟩

structure FromLists (db : Tables) (f : ProfileSetup) : Prop where
  options : ∀ table, ∀ option ∈ f.setup.options table, option ∈ (db.choices table).select korean
  interests : Offered (db.choices .interest) f.selectedInterests
  languages : Offered (db.choices .language) f.selectedLanguages
  gender : Offered (db.choices .gender) f.selectedGenderId.toList

theorem offered_nil (t : Choices) : Offered t [] := ⟨List.nodup_nil, by simp⟩

theorem options_of_fetch {db : Tables} {options : LinkTable → List SetUpOption}
    (h : ProfileSetup.fetchSetupData db = .ok options) (table : LinkTable) :
    options table = (db.choices table).select korean := by
  have hko : getLocale (some "ko".toList) = korean := by decide
  unfold ProfileSetup.fetchSetupData at h
  rw [hko] at h
  obtain ⟨interests, hinterests, h⟩ := ok_of_bind h
  obtain ⟨languages, hlanguages, h⟩ := ok_of_bind h
  obtain ⟨genders, hgenders, h⟩ := ok_of_bind h
  cases h
  cases table with
  | interest => exact getByLocale_ok (show getByLocale db .interest korean = _ from hinterests)
  | language => exact getByLocale_ok (show getByLocale db .language korean = _ from hlanguages)
  | gender => exact getByLocale_ok (show getByLocale db .gender korean = _ from hgenders)

theorem FromLists.listed {db : Tables} {f : ProfileSetup} (h : FromLists db f) {table : LinkTable}
    {id : ℤ} (hoffers : f.offers table id = true) :
    ∃ name, ⟨id, name⟩ ∈ (db.choices table).select korean := by
  unfold ProfileSetup.offers at hoffers
  have hmem := (Bool.and_eq_true_iff.mp hoffers).2
  rw [List.contains_iff_mem] at hmem
  obtain ⟨option, hoption, rfl⟩ := List.mem_map.mp hmem
  exact ⟨option.name, h.options table option hoption⟩

theorem fromLists_step {db : Tables} {f f' : ProfileSetup} {e : FormEvent} (h : FromLists db f)
    (hs : (setupForm db).step f e f') : FromLists db f' := by
  change f.step db e = some f' at hs
  cases e with
  | mount =>
    cases hs
    exact ⟨h.options, offered_nil _, offered_nil _, offered_nil _⟩
  | fetch =>
    cases hs
    exact ⟨h.options, h.interests, h.languages, h.gender⟩
  | fulfilled =>
    simp only [ProfileSetup.step] at hs
    split_ifs at hs with hpending
    cases hfetch : ProfileSetup.fetchSetupData db with
    | error e => simp [hfetch] at hs
    | ok options =>
      rw [hfetch] at hs
      cases hs
      refine ⟨fun table option hoption => ?_, h.interests, h.languages, h.gender⟩
      change option ∈ options table at hoption
      rwa [options_of_fetch hfetch table] at hoption
  | rejected =>
    simp only [ProfileSetup.step] at hs
    split_ifs at hs
    cases hs
    exact ⟨h.options, h.interests, h.languages, h.gender⟩
  | toggleInterest id =>
    simp only [ProfileSetup.step] at hs
    split_ifs at hs with hoffers
    cases hs
    exact ⟨h.options, h.interests.toggle (h.listed hoffers), h.languages, h.gender⟩
  | toggleLanguage id =>
    simp only [ProfileSetup.step] at hs
    split_ifs at hs with hoffers
    cases hs
    exact ⟨h.options, h.interests, h.languages.toggle (h.listed hoffers), h.gender⟩
  | chooseGender id =>
    simp only [ProfileSetup.step] at hs
    split_ifs at hs with hoffers
    cases hs
    refine ⟨h.options, h.interests, h.languages, List.nodup_singleton id, ?_⟩
    intro i hi
    rw [List.mem_singleton.mp hi]
    exact h.listed hoffers
  | chooseImage file =>
    simp only [ProfileSetup.step] at hs
    split_ifs at hs
    cases hs
    exact ⟨h.options, h.interests, h.languages, h.gender⟩

theorem fromLists_of_run {db : Tables} {f : ProfileSetup} {es : List FormEvent}
    (hr : (setupForm db).Run (.mount .initial 0) es f) : FromLists db f :=
  hr.invariant (FromLists db)
    ⟨fun _ _ h => absurd h List.not_mem_nil, offered_nil _, offered_nil _, offered_nil _⟩
    fun _ _ _ h hs => fromLists_step h hs

/-! ### What is saved and shown again -/

theorem Offered.known {t : Choices} {selected : List ℤ} (h : Offered t selected) :
    ∀ id ∈ selected, id ∈ t.choices.map Choice.id := by
  intro id hid
  obtain ⟨name, hname⟩ := h.listed id hid
  exact Choices.id_of_mem_select hname

variable {db : Tables} {f : ProfileSetup}

theorem FromLists.known (h : FromLists db f) : f.payload.Exists db.catalog :=
  ⟨h.interests.known, h.languages.known,
    fun id hid => h.gender.known id (Option.mem_toList.mpr hid)⟩

theorem FromLists.distinct (h : FromLists db f) : f.payload.asked.Nodup := by
  have hmap : ∀ table : LinkTable, Function.Injective (Prod.mk table : ℤ → LinkTable × ℤ) :=
    fun table => Prod.mk_right_injective table
  unfold UserProfileUpdate.asked
  refine List.nodup_append.mpr ⟨List.nodup_append.mpr ⟨?_, ?_, ?_⟩, ?_, ?_⟩
  · exact h.interests.distinct.map (hmap .interest)
  · exact h.languages.distinct.map (hmap .language)
  · intro a ha b hb hab
    obtain ⟨_, -, rfl⟩ := List.mem_map.mp ha
    obtain ⟨_, -, rfl⟩ := List.mem_map.mp hb
    cases hab
  · refine List.Nodup.map (hmap .gender) ?_
    exact Option.toList_nodup _
  · intro a ha b hb hab
    obtain ⟨_, -, rfl⟩ := List.mem_map.mp hb
    rcases List.mem_append.mp ha with ha | ha
    · obtain ⟨_, -, rfl⟩ := List.mem_map.mp ha
      cases hab
    · obtain ⟨_, -, rfl⟩ := List.mem_map.mp ha
      cases hab

theorem FromLists.saves (h : FromLists db f) {save : Save} (hdata : save.data = f.payload)
    (rows₀ : OrderedDict Link ℕ) :
    ∃ st, RunsAlone db.catalog (fun _ => save) () (.start (fun _ => save) rows₀) st ∧
      st.phase () = .committed ∧ HasLinks st.table.rows save.user (f.payload.links save.user) := by
  obtain ⟨links, st, hr, hends⟩ := ends_of_start db.catalog (fun _ => save) () rows₀
  have hall := (exists_iff.mp h.known).1
  rcases firstError_updateUserProfile db.catalog save.flushOrder save.user links save.data with
    ⟨hnone, -, -⟩ | ⟨e, -, hfails⟩
  · unfold Save.sql at hends
    rw [hnone] at hends
    obtain ⟨hphase, hlinks⟩ := hends
    change HasLinks st.table.rows save.user (save.data.appended save.user) at hlinks
    rw [hdata, appended_eq_links h.known] at hlinks
    exact ⟨st, hr, hphase, hlinks⟩
  · -- nothing that is asked for is missing or repeated
    rw [hdata] at hfails
    cases hfails with
    | missing split exist distinct absent =>
      refine absurd (hall _ ?_) absent
      rw [split]
      exact List.mem_append_right _ List.mem_cons_self
    | repeated split exist double =>
      have hdistinct := h.distinct
      rw [split] at hdistinct
      exact absurd (List.nodup_append.mp hdistinct).1 double

def Named (t : Choices) (ids : List ℤ) (names : List String) : Prop :=
  List.Forall₂ (fun id name => ⟨id, name⟩ ∈ t.select korean) ids names

theorem named_options {t : Choices} {options : List SetUpOption}
    (h : ∀ option ∈ options, option ∈ t.select korean) :
    Named t (options.map SetUpOption.id) (options.map SetUpOption.name) := by
  unfold Named
  rw [List.forall₂_map_left_iff, List.forall₂_map_right_iff, List.forall₂_same]
  exact h

structure Shows (db : Tables) (f : ProfileSetup) (profile : UserProfileOut) : Prop where
  interests : ∃ names, Named (db.choices .interest) f.selectedInterests names ∧
    profile.interests.Perm names
  languages : ∃ names, Named (db.choices .language) f.selectedLanguages names ∧
    profile.languages.Perm names
  gender : Named (db.choices .gender) f.selectedGenderId.toList profile.gender.toList

theorem mem_links_interest {data : UserProfileUpdate} {user : ℕ} {id : ℤ} :
    ⟨user, .interest, id⟩ ∈ data.links user ↔ id ∈ data.interests := by
  simp [UserProfileUpdate.links]

theorem mem_links_language {data : UserProfileUpdate} {user : ℕ} {id : ℤ} :
    ⟨user, .language, id⟩ ∈ data.links user ↔ id ∈ data.languages := by
  simp [UserProfileUpdate.links]

theorem mem_links_gender {data : UserProfileUpdate} {user : ℕ} {id : ℤ} :
    ⟨user, .gender, id⟩ ∈ data.links user ↔ id ∈ data.genderId.toList := by
  simp [UserProfileUpdate.links]

section Shown
variable {rows : OrderedDict Link ℕ} {user : ℕ} {links : List Link} {selected : List ℤ}
  {table : LinkTable}

theorem Offered.shown (h : Offered (db.choices table) selected) (o : LoadOrder)
    (hlinks : HasLinks rows user links) (hmem : ∀ id, ⟨user, table, id⟩ ∈ links ↔ id ∈ selected) :
    ∃ names, Named (db.choices table) selected names ∧
      ((loadLinks o db rows user table).map fun link =>
        Localisation.translate link.translations korean).Perm names := by
  obtain ⟨options, rfl, hoptions⟩ := h.options
  exact ⟨_, named_options hoptions, names_of_links o hlinks h.distinct hmem hoptions⟩

theorem gender_of_perm {t : Choices} {gender : Option ℤ} {user : Localisation.User}
    {names : List String} (hnamed : Named t gender.toList names)
    (hperm : (user.genderLinks.map fun link =>
      Localisation.translate link.translations korean).Perm names) :
    Named t gender.toList (getUserProfile user korean).gender.toList := by
  unfold getUserProfile
  cases gender with
  | none =>
    cases hnamed
    have hnone : user.genderLinks = [] := by simpa using hperm
    rw [hnone]
    exact .nil
  | some id =>
    obtain ⟨name, rest, hname, hrest, rfl⟩ := List.forall₂_cons_left_iff.mp hnamed
    cases hrest
    obtain ⟨link, hone, rfl⟩ := List.map_eq_singleton_iff.mp (List.perm_singleton.mp hperm)
    rw [hone]
    exact hnamed

theorem FromLists.shows (h : FromLists db f) (o : LoadOrder) {users : Users} {row : Accounts.User}
    (hrow : users.getUserById row.id = some row)
    (hlinks : HasLinks rows row.id (f.payload.links row.id)) :
    ∃ user, getFullUserWithRelations o db rows users row.id = .ok user ∧
      Shows db f (getUserProfile user korean) := by
  unfold getFullUserWithRelations
  rw [hrow]
  refine ⟨_, rfl, h.interests.shown o hlinks fun _ => mem_links_interest,
    h.languages.shown o hlinks fun _ => mem_links_language, ?_⟩
  obtain ⟨names, hnamed, hperm⟩ := h.gender.shown o hlinks fun _ => mem_links_gender
  exact gender_of_perm hnamed hperm

end Shown

theorem user_of_getCurrentUser {env : Env} {users : Users} {now : ℕ} {token : Option String}
    {row : Accounts.User} (h : getCurrentUser env users now token = .ok row) :
    users.getUserById row.id = some row := by
  obtain ⟨_, _, _, _, -, -, -, -, hfound⟩ := getCurrentUser_ok h
  exact Users.getUserById_of_mem (Users.getUserById_eq_some hfound).1

/-- Whatever has been clicked, a request that the form sends stores all of it, and the profile
then shows the names that were on the buttons, in every order that rows may be loaded in. -/
theorem saved_profile_shows_choices {es : List FormEvent}
    (hr : (setupForm db).Run (.mount .initial 0) es f) (hsubmit : f.submittable = true)
    {save : Save} (hdata : save.data = f.payload) (rows₀ : OrderedDict Link ℕ) :
    ∃ st, RunsAlone db.catalog (fun _ => save) () (.start (fun _ => save) rows₀) st ∧
      st.phase () = .committed ∧
      (∀ st', RunsAlone db.catalog (fun _ => save) () (.start (fun _ => save) rows₀) st' →
        (st'.phase ()).Ended → st' = st) ∧
      ∀ env o users now token acceptLanguage row, getCurrentUser env users now token = .ok row →
        row.id = save.user → getLocale acceptLanguage = korean →
        ∃ profile, getMe env o db st.table.rows users now token acceptLanguage = .ok profile ∧
          Shows db f profile ∧ profile.gender ≠ none := by
  have hform := fromLists_of_run hr
  obtain ⟨st, hrun, hphase, hlinks⟩ := hform.saves hdata rows₀
  refine ⟨st, hrun, hphase, fun st' hrun' hended => ?_, ?_⟩
  · exact ended_unique hrun' hrun hended (hphase ▸ trivial)
  · intro env o users now token acceptLanguage row hcurrent huser hlocale
    rw [← huser] at hlinks
    obtain ⟨user, hload, hshows⟩ := hform.shows o (user_of_getCurrentUser hcurrent) hlinks
    refine ⟨getUserProfile user korean, ?_, hshows, fun hnone => ?_⟩
    · unfold getMe
      rw [hcurrent, ok_bind, hload, ok_bind, hlocale]
      rfl
    · have hgender := hshows.gender
      rw [hnone] at hgender
      unfold ProfileSetup.submittable at hsubmit
      cases hid : f.selectedGenderId with
      | none => simp [hid] at hsubmit
      | some id =>
        rw [hid] at hgender
        cases hgender

def asStored : LoadOrder := ⟨id, fun _ => .refl _, id, fun _ => .refl _⟩

def clicks : List FormEvent := [.fetch, .fulfilled, .toggleInterest 1, .toggleInterest 3,
  .toggleInterest 1, .chooseGender 1, .chooseGender 2]

theorem saved_profile_shows_choices_applied : ∃ f st profile access,
    (setupForm seeded).Run (.mount .initial 0) clicks f ∧
      RunsAlone seeded.catalog (fun _ => saveOf f.payload) ()
        (.start (fun _ => saveOf f.payload) noLinks) st ∧
      getMe (serverAt (fun _ => 0) 7) asStored seeded st.table.rows oneUser 0 (some access) none =
        .ok profile ∧
      Shows seeded f profile ∧ f.payload = ⟨[3], [], some 2⟩ := by
  obtain ⟨f, hexec, hsubmit, hpayload⟩ : ∃ f, Lts.exec (ProfileSetup.step seeded)
      (.mount .initial 0) clicks = some f ∧ f.submittable = true ∧
        f.payload = ⟨[3], [], some 2⟩ := ⟨_, rfl, rfl, rfl⟩
  have hr : (setupForm seeded).Run (.mount .initial 0) clicks f := Lts.run_of_exec hexec
  obtain ⟨access, ha⟩ : ∃ access,
      createAccessToken (serverAt (fun _ => 0) 7) 0 (some (toString kim.id)) = some access := ⟨_, rfl⟩
  have hcurrent : getCurrentUser (serverAt (fun _ => 0) 7) oneUser 0 (some access) = .ok kim :=
    (getCurrentUser_issued plainJose_lawful rfl (List.mem_singleton_self _) (by decide) ha
      kim).mpr ⟨rfl, by decide⟩
  obtain ⟨st, hrun, -, -, hall⟩ :=
    saved_profile_shows_choices hr hsubmit (rfl : (saveOf f.payload).data = _) noLinks
  obtain ⟨profile, hme, hshows, -⟩ :=
    hall (serverAt (fun _ => 0) 7) asStored oneUser 0 (some access) none kim hcurrent rfl (by decide)
  exact ⟨f, st, profile, access, hr, hrun, hme, hshows, hpayload⟩

end Nalang.Profiles
