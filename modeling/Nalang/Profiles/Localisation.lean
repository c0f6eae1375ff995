import Mathlib.Data.List.Forall2
import Mathlib.Data.List.Nodup
import Nalang.Library.AcceptLanguage
import Nalang.Python.Text

/-!
# The language of a profile

`get_locale` takes the first element of the header as it stands, and `translate`
looks for a translation with exactly that locale.
-/

namespace Nalang.Localisation
open AcceptLanguage Python

/-! ### `deps.py` -/

def supportedLocales : List (List Char) := ["en".toList, "ko".toList, "ja".toList]

def getLocale (acceptLanguage : Option (List Char)) : List Char :=
  let locale := lower (strStrip (splitHead ',' (acceptLanguage.getD "ko".toList)))
  if locale ∈ supportedLocales then locale else "ko".toList

/-! ### Profiles -/

structure Translation where
  locale : List Char
  name : String
  deriving DecidableEq

/-- The interest, language or gender of a link. There is one translation for a locale. -/
structure Linked where
  translations : List Translation
  unique : (translations.map Translation.locale).Nodup

structure User where
  id : ℕ
  name : String
  email : String
  interestLinks : List Linked
  languageLinks : List Linked
  genderLinks : List Linked
  profileImage : Option String

structure UserProfileOut where
  id : ℕ
  name : String
  email : String
  interests : List String
  languages : List String
  gender : Option String
  imagePath : Option String
  deriving DecidableEq

def translate (translations : List Translation) (locale : List Char) : String :=
  match translations.find? fun t => t.locale = locale with
  | some t => t.name
  | none =>
    match translations with
    | t :: _ => t.name
    | [] => ""

def getUserProfile (user : User) (lang : List Char) : UserProfileOut where
  id := user.id
  name := user.name
  email := user.email
  interests := user.interestLinks.map fun link => translate link.translations lang
  languages := user.languageLinks.map fun link => translate link.translations lang
  gender :=
    match user.genderLinks with
    | [] => none
    | link :: _ => some (translate link.translations lang)
  imagePath := user.profileImage

/-! ### What the browser asks for -/

inductive Language
  | en
  | ko
  | ja
  deriving DecidableEq

namespace Language

def code : Language → List Char
  | .en => "en".toList
  | .ko => "ko".toList
  | .ja => "ja".toList

def all : List Language := [.en, .ko, .ja]

def ofCode (code : List Char) : Option Language := all.find? fun lang => lang.code = code

/-- The language of a primary subtag, in which capitals do not matter. -/
def ofSubtag (subtag : List Char) : Option Language := ofCode (subtag.map Char.toLower)

def preferred (ranges : List LanguageRange) : Language :=
  (AcceptLanguage.preferred ofSubtag ranges).getD .ko

end Language

def Linked.NamedIn (link : Linked) (lang : Language) (name : String) : Prop :=
  ⟨lang.code, name⟩ ∈ link.translations

def User.shown (user : User) : List Linked :=
  user.interestLinks ++ user.languageLinks ++ user.genderLinks.head?.toList

def User.Translated (user : User) : Prop :=
  ∀ link ∈ user.shown, ∀ lang, ∃ name, link.NamedIn lang name

structure Localised (user : User) (lang : Language) (profile : UserProfileOut) : Prop where
  interests : List.Forall₂ (fun link name => link.NamedIn lang name) user.interestLinks
    profile.interests
  languages : List.Forall₂ (fun link name => link.NamedIn lang name) user.languageLinks
    profile.languages
  gender : List.Forall₂ (fun link name => link.NamedIn lang name) user.genderLinks.head?.toList
    profile.gender.toList

/-! ### What the header says to `get_locale` -/

def exact : List LanguageRange → Option Language
  | [] => none
  | r :: _ => if r.Bare then Language.ofSubtag r.primary else none

section Locales
variable {r : LanguageRange} {rs : List LanguageRange} {cs : List Char} {c : Char}

theorem ascii_of_isAlpha (h : c.isAlpha = true) : c.toNat < 128 := by
  rcases Bool.or_eq_true_iff.mp h with h | h
  · have hhigh : c.val ≤ 90 := by
      delta Char.isUpper at h
      exact (of_decide_eq_true h).2
    exact Nat.lt_of_le_of_lt (UInt32.le_iff_toNat_le.mp hhigh) (by decide)
  · have hhigh : c.val ≤ 122 := by
      delta Char.isLower at h
      exact of_decide_eq_true (Bool.and_eq_true_iff.mp h).2
    exact Nat.lt_of_le_of_lt (UInt32.le_iff_toNat_le.mp hhigh) (by decide)

theorem lowerChar_of_isAlpha (h : c.isAlpha = true) : lowerChar c = c.toLower := by
  have hall : ∀ n < 128, lowerChar (Char.ofNat n) = (Char.ofNat n).toLower := by decide
  have hc := hall c.toNat (ascii_of_isAlpha h)
  rwa [Char.ofNat_toNat] at hc

theorem not_isspace_of_isAlpha (h : c.isAlpha = true) : isspace c = false := by
  have hall : ∀ n < 128, (Char.ofNat n).isAlpha = true → isspace (Char.ofNat n) = false := by decide
  have hc := hall c.toNat (ascii_of_isAlpha h)
  rw [Char.ofNat_toNat] at hc
  exact hc h

theorem isspace_of_blank (h : Blank c) : isspace c = true := by
  rcases h with rfl | rfl <;> rfl

theorem lower_primary (r : LanguageRange) : lower r.primary = r.primary.map Char.toLower := by
  rcases r.letters with h | h
  · rw [h]
    rfl
  · exact List.map_congr_left fun c hc => lowerChar_of_isAlpha (h c hc)

theorem strStrip_bare (h : r.Bare) : strStrip r.text = r.primary := by
  rw [text_of_bare h]
  refine strStrip_padded (fun c hc => ?_) (fun c hc => ?_) (fun c hc => ?_) r.nonempty
  · exact isspace_of_blank (r.blank c (List.mem_append_left _ hc))
  · exact isspace_of_blank (r.blank c (List.mem_append_right _ hc))
  · rcases r.letters with hstar | halpha
    · rw [hstar] at hc
      rw [List.mem_singleton.mp hc]
      rfl
    · exact not_isspace_of_isAlpha (halpha c hc)

theorem splitHead_text (r : LanguageRange) (rs : List LanguageRange) :
    splitHead ',' (text (r :: rs)) = r.text := by
  rcases text_cons r rs with h | ⟨rest, h⟩
  · rw [h, splitHead_of_not_mem (comma_not_mem_text r)]
  · rw [h, splitHead_append_sep (comma_not_mem_text r)]

theorem supported_eq (cs : List Char) :
    (if cs ∈ supportedLocales then cs else "ko".toList) = ((Language.ofCode cs).getD .ko).code := by
  have hcodes : supportedLocales = Language.all.map Language.code := rfl
  have hall : ∀ lang : Language, lang ∈ Language.all := by
    intro lang
    cases lang <;> decide
  have hmem : cs ∈ supportedLocales ↔ ∃ lang : Language, lang.code = cs := by
    rw [hcodes, List.mem_map]
    exact exists_congr fun lang => and_iff_right (hall lang)
  unfold Language.ofCode
  cases hfind : Language.all.find? fun lang => lang.code = cs with
  | none =>
    have hnot : ¬ ∃ lang : Language, lang.code = cs := by
      rintro ⟨lang, hlang⟩
      exact List.find?_eq_none.mp hfind lang (hall lang) (decide_eq_true hlang)
    rw [if_neg (fun h => hnot (hmem.mp h))]
    rfl
  | some lang =>
    have hcode : lang.code = cs := by simpa using List.find?_some hfind
    rw [if_pos (hmem.mpr ⟨lang, hcode⟩)]
    exact hcode.symm

theorem ofCode_of_mark (h : '-' ∈ cs ∨ ';' ∈ cs) : Language.ofCode (lower (strStrip cs)) = none := by
  have hmark : ∃ c ∈ lower (strStrip cs), ∀ lang : Language, c ∉ lang.code := by
    rcases h with h | h
    · refine ⟨'-', List.mem_map.mpr ⟨'-', mem_strStrip h rfl, rfl⟩, fun lang => ?_⟩
      cases lang <;> decide
    · refine ⟨';', List.mem_map.mpr ⟨';', mem_strStrip h rfl, rfl⟩, fun lang => ?_⟩
      cases lang <;> decide
  obtain ⟨c, hc, hcode⟩ := hmark
  refine List.find?_eq_none.mpr fun lang _ hlang => hcode lang ?_
  rw [of_decide_eq_true hlang]
  exact hc

theorem getLocale_text (ranges : List LanguageRange) :
    getLocale (some (text ranges)) = ((exact ranges).getD .ko).code := by
  unfold getLocale
  dsimp only
  rw [supported_eq, Option.getD_some]
  cases ranges with
  | nil => rfl
  | cons r rs =>
    rw [splitHead_text, exact]
    split_ifs with hbare
    · rw [strStrip_bare hbare, lower_primary]
      rfl
    · rw [ofCode_of_mark (mark_of_not_bare hbare)]

theorem exact_isSome {ranges : List LanguageRange} : (exact ranges).isSome ↔
    ∃ r ∈ ranges.head?, r.Bare ∧ (Language.ofSubtag r.primary).isSome := by
  cases ranges with
  | nil => simp [exact]
  | cons r rs =>
    rw [exact]
    split_ifs with hbare
    · simp [hbare]
    · simp [hbare]

theorem preferred_of_exact {ranges : List LanguageRange} {lang : Language}
    (h : exact ranges = some lang) : Language.preferred ranges = lang := by
  cases ranges with
  | nil => cases h
  | cons r rs =>
    rw [exact] at h
    split_ifs at h with hbare
    unfold Language.preferred
    rw [preferred_of_first (by rw [h]; rfl) hbare.2, h]
    rfl

end Locales

/-! ### What the profile shows -/

section Names
variable {user : User} {link : Linked} {lang lang' : Language} {name : String}

theorem translate_named (h : link.NamedIn lang name) :
    translate link.translations lang.code = name := by
  unfold translate
  cases hfind : link.translations.find? fun t => t.locale = lang.code with
  | none => exact absurd (decide_eq_true rfl) (List.find?_eq_none.mp hfind _ h)
  | some t =>
    have hlocale : t.locale = lang.code := by simpa using List.find?_some hfind
    have ht : t = ⟨lang.code, name⟩ :=
      List.inj_on_of_nodup_map link.unique (List.mem_of_find?_eq_some hfind) h hlocale
    rw [ht]

theorem localised_iff_shown (user : User) (lang : Language) (locale : List Char) :
    Localised user lang (getUserProfile user locale) ↔
      ∀ link ∈ user.shown, link.NamedIn lang (translate link.translations locale) := by
  have hmap : ∀ links : List Linked,
      List.Forall₂ (fun link name => link.NamedIn lang name) links
        (links.map fun link => translate link.translations locale) ↔
          ∀ link ∈ links, link.NamedIn lang (translate link.translations locale) := by
    intro links
    rw [List.forall₂_map_right_iff, List.forall₂_same]
  have hgender : (getUserProfile user locale).gender.toList =
      user.genderLinks.head?.toList.map fun link => translate link.translations locale := by
    unfold getUserProfile
    cases user.genderLinks <;> rfl
  have hshown : (∀ link ∈ user.shown, link.NamedIn lang (translate link.translations locale)) ↔
      (∀ link ∈ user.interestLinks, link.NamedIn lang (translate link.translations locale)) ∧
      (∀ link ∈ user.languageLinks, link.NamedIn lang (translate link.translations locale)) ∧
      ∀ link ∈ user.genderLinks.head?.toList,
        link.NamedIn lang (translate link.translations locale) := by
    unfold User.shown
    rw [List.forall_mem_append, List.forall_mem_append, and_assoc]
  rw [hshown]
  constructor
  · rintro ⟨hinterests, hlanguages, hgenders⟩
    rw [hgender] at hgenders
    exact ⟨(hmap _).mp hinterests, (hmap _).mp hlanguages, (hmap _).mp hgenders⟩
  · rintro ⟨hinterests, hlanguages, hgenders⟩
    exact ⟨(hmap _).mpr hinterests, (hmap _).mpr hlanguages, hgender ▸ (hmap _).mpr hgenders⟩

theorem localised_iff_same (hu : user.Translated) :
    Localised user lang (getUserProfile user lang'.code) ↔
      ∀ link ∈ user.shown, ∃ name, link.NamedIn lang' name ∧ link.NamedIn lang name := by
  rw [localised_iff_shown]
  refine forall₂_congr fun link hlink => ?_
  obtain ⟨name, hname⟩ := hu link hlink lang'
  rw [translate_named hname]
  constructor
  · intro h
    exact ⟨name, hname, h⟩
  · rintro ⟨name', hname', h⟩
    rw [← translate_named hname, translate_named hname']
    exact h

end Names

/-- The names are those the browser asks for if the header begins with the code of a supported
language, or asks for Korean, or where the Korean names are also the names asked for. -/
theorem localised_iff {user : User} (hu : user.Translated) (ranges : List LanguageRange) :
    Localised user (Language.preferred ranges)
        (getUserProfile user (getLocale (some (text ranges)))) ↔
      (∃ r ∈ ranges.head?, r.Bare ∧ (Language.ofSubtag r.primary).isSome) ∨
        Language.preferred ranges = .ko ∨
          ∀ link ∈ user.shown,
            ∃ name, link.NamedIn .ko name ∧ link.NamedIn (Language.preferred ranges) name := by
  have hsame : ∀ lang : Language,
      ∀ link ∈ user.shown, ∃ name, link.NamedIn lang name ∧ link.NamedIn lang name := by
    intro lang link hlink
    obtain ⟨name, hname⟩ := hu link hlink lang
    exact ⟨name, hname, hname⟩
  rw [← exact_isSome, getLocale_text, localised_iff_same hu]
  cases hexact : exact ranges with
  | some lang =>
    rw [preferred_of_exact hexact]
    exact iff_of_true (hsame lang) (.inl rfl)
  | none =>
    simp only [Option.isSome_none, Bool.false_eq_true, false_or, Option.getD_none]
    constructor
    · exact .inr
    · rintro (hko | hnames)
      · rw [hko]
        exact hsame .ko
      · exact hnames

/-! ### A browser that prefers English -/

def music : Linked where
  translations := [⟨Language.code .ko, "음악"⟩, ⟨Language.code .en, "music"⟩, ⟨Language.code .ja, "音楽"⟩]
  unique := by decide

def listener : User := ⟨1, "listener", "listener@example.com", [music], [], [], none⟩

theorem listener_translated : listener.Translated := by
  intro link hlink lang
  rw [List.mem_singleton.mp hlink]
  cases lang with
  | en => exact ⟨"music", by simp [Linked.NamedIn, music]⟩
  | ko => exact ⟨"음악", by simp [Linked.NamedIn, music]⟩
  | ja => exact ⟨"音楽", by simp [Linked.NamedIn, music]⟩

def english : LanguageRange where
  before := []
  primary := "en".toList
  subtags := []
  weight := none
  after := []
  blank := List.forall_mem_nil _
  nonempty := by decide
  letters := .inr (by simp)
  alphanum := List.forall_mem_nil _

def americanEnglish : LanguageRange :=
  { english with
    subtags := ["US".toList]
    alphanum := List.forall_mem_singleton.mpr (by simp) }

def weighted : Weight where
  before := []
  after := []
  name := 'q'
  value := ⟨false, some [9], fun h => by cases h⟩
  blank := List.forall_mem_nil _
  name_q := .inl rfl

def englishBrowser : List LanguageRange :=
  [americanEnglish, { english with weight := some weighted }]

example : text englishBrowser = "en-US,en;q=0.9".toList := rfl

def korean : LanguageRange where
  before := []
  primary := "ko".toList
  subtags := ["KR".toList]
  weight := none
  after := []
  blank := List.forall_mem_nil _
  nonempty := by decide
  letters := .inr (by simp)
  alphanum := List.forall_mem_singleton.mpr (by simp)

def koreanBrowser : List LanguageRange := [korean, { english with weight := some weighted }]

example : text koreanBrowser = "ko-KR,en;q=0.9".toList := rfl

theorem localised_korean : Language.preferred koreanBrowser = .ko ∧
    Localised listener (Language.preferred koreanBrowser)
      (getUserProfile listener (getLocale (some (text koreanBrowser)))) := by
  have hpreferred : Language.preferred koreanBrowser = .ko := by decide +kernel
  exact ⟨hpreferred, (localised_iff listener_translated koreanBrowser).mpr (.inr (.inl hpreferred))⟩

theorem preferred_englishBrowser : Language.preferred englishBrowser = .en := by
  decide +kernel

theorem browser_not_localised : ¬ ∀ user ranges, user.Translated →
    Localised user (Language.preferred ranges)
      (getUserProfile user (getLocale (some (text ranges)))) := by
  intro hall
  have hlocalised := hall listener englishBrowser listener_translated
  rw [preferred_englishBrowser, localised_iff_shown] at hlocalised
  have hname := hlocalised music (List.mem_singleton_self _)
  have htranslated : translate music.translations (getLocale (some (text englishBrowser))) = "음악" :=
    rfl
  rw [htranslated] at hname
  simp [Linked.NamedIn, music, Language.code] at hname

end Nalang.Localisation
