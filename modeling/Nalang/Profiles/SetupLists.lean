import Mathlib.Data.List.Sort
import Nalang.Accounts.Auth
import Nalang.Profiles.Localisation
import Nalang.Profiles.Undisturbed

/-!
# What a user may choose

The interests, languages and genders have a table each, and each has a table of
names by locale. The lists of `GET /setup/..` are inner joins of the two, in the
order of the ids. `init_seed.py` fills the tables in one transaction.
-/

namespace Nalang.Profiles
open Accounts Localisation

structure Choice where
  id : ℤ
  code : String
  deriving DecidableEq

structure TranslationRow where
  owner : ℤ
  locale : List Char
  name : String
  deriving DecidableEq

structure Choices where
  choices : List Choice
  rows : List TranslationRow
  nextId : ℤ
  ids : (choices.map Choice.id).Nodup
  codes : (choices.map Choice.code).Nodup
  pos : ∀ c ∈ choices, 0 < c.id
  fresh : ∀ c ∈ choices, c.id < nextId
  started : 0 < nextId
  /-- `uq_interest_locale` and its like -/
  unique : (rows.map fun t => (t.owner, t.locale)).Nodup
  owned : ∀ t ∈ rows, t.owner ∈ choices.map Choice.id

structure Tables where
  choices : LinkTable → Choices

def Tables.catalog (db : Tables) : Catalog where
  ids table := (db.choices table).choices.map Choice.id
  pos table id hid := by
    obtain ⟨c, hc, rfl⟩ := List.mem_map.mp hid
    exact (db.choices table).pos c hc

def korean : List Char := "ko".toList

/-! ### `services/setup.py` -/

structure SetUpOption where
  id : ℤ
  name : String
  deriving DecidableEq

namespace Choices

def sortedIds (t : Choices) : List ℤ := (t.choices.map Choice.id).insertionSort (· ≤ ·)

/-- The join, of which a locale keeps at most one row for an id. -/
def select (t : Choices) (locale : List Char) : List SetUpOption :=
  t.sortedIds.flatMap fun id =>
    (t.rows.filter fun row => row.owner = id ∧ row.locale = locale).map fun row => ⟨id, row.name⟩

end Choices

def orMissing (missing : HttpError) (rows : List SetUpOption) : Except HttpError (List SetUpOption) :=
  if rows = [] then .error missing else .ok rows

def getInterestsByLocale (db : Tables) (locale : List Char) : Except HttpError (List SetUpOption) :=
  orMissing (.httpException 404 "No Interests List") ((db.choices .interest).select locale)

def getLanguagesByLocale (db : Tables) (locale : List Char) : Except HttpError (List SetUpOption) :=
  orMissing (.httpException 400 "No Languages List") ((db.choices .language).select locale)

def getGendersByLocale (db : Tables) (locale : List Char) : Except HttpError (List SetUpOption) :=
  orMissing (.httpException 404 "No genders found") ((db.choices .gender).select locale)

def getByLocale (db : Tables) : LinkTable → List Char → Except HttpError (List SetUpOption)
  | .interest => getInterestsByLocale db
  | .language => getLanguagesByLocale db
  | .gender => getGendersByLocale db

theorem getByLocale_ok {db : Tables} {table : LinkTable} {locale : List Char}
    {options : List SetUpOption} (h : getByLocale db table locale = .ok options) :
    options = (db.choices table).select locale := by
  cases table with
  | interest =>
    simp only [getByLocale, getInterestsByLocale, orMissing] at h
    split_ifs at h
    exact (Except.ok.inj h).symm
  | language =>
    simp only [getByLocale, getLanguagesByLocale, orMissing] at h
    split_ifs at h
    exact (Except.ok.inj h).symm
  | gender =>
    simp only [getByLocale, getGendersByLocale, orMissing] at h
    split_ifs at h
    exact (Except.ok.inj h).symm

namespace Choices
variable {t : Choices} {locale : List Char} {option : SetUpOption}

theorem mem_select : option ∈ t.select locale ↔ ⟨option.id, locale, option.name⟩ ∈ t.rows := by
  unfold select sortedIds
  simp only [List.mem_flatMap, List.mem_insertionSort, List.mem_map, List.mem_filter,
    decide_eq_true_eq]
  constructor
  · rintro ⟨id, -, row, ⟨hrow, howner, hlocale⟩, rfl⟩
    obtain ⟨owner, rowLocale, name⟩ := row
    cases howner
    cases hlocale
    exact hrow
  · intro h
    obtain ⟨c, hc, hid⟩ := List.mem_map.mp (t.owned _ h)
    exact ⟨option.id, ⟨c, hc, hid⟩, _, ⟨h, rfl, rfl⟩, rfl⟩

theorem id_of_mem_select (h : option ∈ t.select locale) : option.id ∈ t.choices.map Choice.id :=
  t.owned _ (mem_select.mp h)

theorem select_sorted : (t.select locale).Pairwise fun a b => a.id < b.id := by
  have hlt : t.sortedIds.Pairwise (· < ·) := by
    have hle : t.sortedIds.Pairwise (· ≤ ·) := List.pairwise_insertionSort _ _
    have hnodup : t.sortedIds.Nodup := (List.perm_insertionSort _ _).nodup_iff.mpr t.ids
    exact (hle.and hnodup).imp fun h => lt_of_le_of_ne h.1 h.2
  have hkeys : t.rows.Pairwise fun a b => (a.owner, a.locale) ≠ (b.owner, b.locale) :=
    List.pairwise_map.mp t.unique
  unfold select
  refine List.pairwise_flatMap.mpr ⟨fun id _ => ?_, hlt.imp fun hid a ha b hb => ?_⟩
  · -- two rows for one id and one locale are the same row
    rw [List.pairwise_map]
    refine (hkeys.sublist List.filter_sublist).imp_of_mem fun ha hb hne => absurd ?_ hne
    have ha' := (List.mem_filter.mp ha).2
    have hb' := (List.mem_filter.mp hb).2
    rw [decide_eq_true_eq] at ha' hb'
    rw [ha'.1, ha'.2, hb'.1, hb'.2]
  · obtain ⟨_, _, rfl⟩ := List.mem_map.mp ha
    obtain ⟨_, _, rfl⟩ := List.mem_map.mp hb
    exact hid

end Choices

/-! ### `get_full_user_with_relations` -/

/-- The rows of a join come in an order that the query leaves to the database. -/
structure LoadOrder where
  links : List Link → List Link
  links_perm : ∀ ls, (links ls).Perm ls
  translations : List Translation → List Translation
  translations_perm : ∀ ts, (translations ts).Perm ts

def Choices.translations (t : Choices) (id : ℤ) : List Translation :=
  (t.rows.filter fun row => row.owner = id).map fun row => ⟨row.locale, row.name⟩

theorem Choices.translations_unique (t : Choices) (id : ℤ) :
    ((t.translations id).map Translation.locale).Nodup := by
  have hkeys : t.rows.Pairwise fun a b => (a.owner, a.locale) ≠ (b.owner, b.locale) :=
    List.pairwise_map.mp t.unique
  unfold translations
  rw [List.map_map]
  refine List.pairwise_map.mpr ((hkeys.sublist List.filter_sublist).imp_of_mem ?_)
  intro a b ha hb hne heq
  have ha' := (List.mem_filter.mp ha).2
  have hb' := (List.mem_filter.mp hb).2
  rw [decide_eq_true_eq] at ha' hb'
  exact hne (Prod.ext (ha'.trans hb'.symm) heq)

def linked (o : LoadOrder) (t : Choices) (id : ℤ) : Linked where
  translations := o.translations (t.translations id)
  unique := ((o.translations_perm _).map _).nodup_iff.mpr (t.translations_unique id)

def loadLinks (o : LoadOrder) (db : Tables) (rows : OrderedDict Link ℕ) (user : ℕ)
    (table : LinkTable) : List Linked :=
  (o.links (rows.keys.filter fun l => l.user = user ∧ l.table = table)).map fun l =>
    linked o (db.choices table) l.id

/-- `scalar_one` raises when there is no such row. -/
def getFullUserWithRelations (o : LoadOrder) (db : Tables) (rows : OrderedDict Link ℕ)
    (users : Users) (id : ℤ) : Except HttpError Localisation.User :=
  match users.getUserById id with
  | none => .error .serverError
  | some user => .ok {
      id := user.id
      name := user.name
      email := user.email.val
      interestLinks := loadLinks o db rows user.id .interest
      languageLinks := loadLinks o db rows user.id .language
      genderLinks := loadLinks o db rows user.id .gender
      profileImage := user.profileImage }

/-- `GET /me` with the headers `Authorization` and `Accept-Language`. -/
def getMe (env : Env) (o : LoadOrder) (db : Tables) (rows : OrderedDict Link ℕ) (users : Users)
    (now : ℕ) (token : Option String) (acceptLanguage : Option (List Char)) :
    Except HttpError UserProfileOut := do
  let currentUser ← getCurrentUser env users now token
  let userWithRelations ← getFullUserWithRelations o db rows users currentUser.id
  return getUserProfile userWithRelations (getLocale acceptLanguage)

/-- `GET /{id}`, which does not ask who is calling. -/
def getPartner (o : LoadOrder) (db : Tables) (rows : OrderedDict Link ℕ) (users : Users) (id : ℤ)
    (acceptLanguage : Option (List Char)) : Except HttpError UserProfileOut := do
  let userWithRelations ← getFullUserWithRelations o db rows users id
  return getUserProfile userWithRelations (getLocale acceptLanguage)

theorem translate_of_mem {translations : List Translation} {t : Translation}
    (hunique : (translations.map Translation.locale).Nodup) (h : t ∈ translations) :
    Localisation.translate translations t.locale = t.name := by
  unfold Localisation.translate
  cases hfind : translations.find? fun t' => t'.locale = t.locale with
  | none => exact absurd (decide_eq_true rfl) (List.find?_eq_none.mp hfind t h)
  | some t' =>
    have hlocale : t'.locale = t.locale := by simpa using List.find?_some hfind
    rw [List.inj_on_of_nodup_map hunique (List.mem_of_find?_eq_some hfind) h hlocale]

theorem translate_linked (o : LoadOrder) {t : Choices} {locale : List Char} {option : SetUpOption}
    (h : option ∈ t.select locale) :
    Localisation.translate (linked o t option.id).translations locale = option.name := by
  have hrow := Choices.mem_select.mp h
  have hmem : ⟨locale, option.name⟩ ∈ (linked o t option.id).translations := by
    refine (o.translations_perm _).mem_iff.mpr ?_
    exact List.mem_map.mpr ⟨_, List.mem_filter.mpr ⟨hrow, decide_eq_true rfl⟩, rfl⟩
  exact translate_of_mem (linked o t option.id).unique hmem

section Loading
variable {db : Tables} {rows : OrderedDict Link ℕ} {user : ℕ} {links : List Link}
  {table : LinkTable}
  {options : List SetUpOption} {locale : List Char}

theorem names_of_links (o : LoadOrder) (hlinks : HasLinks rows user links)
    (hnodup : (options.map SetUpOption.id).Nodup)
    (hids : ∀ id, ⟨user, table, id⟩ ∈ links ↔ id ∈ options.map SetUpOption.id)
    (hoptions : ∀ option ∈ options, option ∈ (db.choices table).select locale) :
    ((loadLinks o db rows user table).map fun link =>
      Localisation.translate link.translations locale).Perm
      (options.map SetUpOption.name) := by
  have hstored : (rows.keys.filter fun l => l.user = user ∧ l.table = table).Perm
      (options.map fun option => ⟨user, table, option.id⟩) := by
    have hright : (options.map fun option => (⟨user, table, option.id⟩ : Link)).Nodup := by
      have hmap := hnodup.map (f := fun id => (⟨user, table, id⟩ : Link)) fun a b h => by
        cases h
        rfl
      rwa [List.map_map] at hmap
    refine (List.perm_ext_iff_of_nodup (rows.nodup.filter _) hright).mpr fun l => ?_
    rw [List.mem_filter, decide_eq_true_eq]
    constructor
    · rintro ⟨hmem, huser, htable⟩
      have hlink := (hlinks l huser).mp hmem
      obtain ⟨u, tab, id⟩ := l
      cases huser
      cases htable
      obtain ⟨option, hoption, hid⟩ := List.mem_map.mp ((hids id).mp hlink)
      exact List.mem_map.mpr ⟨option, hoption, by rw [hid]⟩
    · intro hl
      obtain ⟨option, hoption, rfl⟩ := List.mem_map.mp hl
      have hlink := (hids option.id).mpr (List.mem_map_of_mem hoption)
      exact ⟨(hlinks _ rfl).mpr hlink, rfl, rfl⟩
  have hload := ((o.links_perm _).trans hstored).map fun l =>
    Localisation.translate (linked o (db.choices table) l.id).translations locale
  unfold loadLinks
  rw [List.map_map]
  refine hload.trans ?_
  rw [List.map_map]
  have hnames : options.map ((fun l : Link =>
      Localisation.translate (linked o (db.choices table) l.id).translations locale) ∘
        fun option => ⟨user, table, option.id⟩) = options.map SetUpOption.name :=
    List.map_congr_left fun option hoption => translate_linked o (hoptions option hoption)
  rw [hnames]

end Loading

end Nalang.Profiles
