import Nalang.Profiles.SetupLists

/-!
# The rows that the lists start with

`init_seed.py` inserts three interests, three genders and three languages with
their names in one transaction. It does not look whether they are there: a second
run meets the unique columns, raises, and is rolled back.
-/

namespace Nalang.Profiles
open Accounts Localisation

structure SeedItem where
  code : String
  translations : List (List Char × String)
  keys : (translations.map Prod.fst).Nodup

def SeedItem.rows (item : SeedItem) (owner : ℤ) : List TranslationRow :=
  item.translations.map fun tr => ⟨owner, tr.1, tr.2⟩

namespace Choices
variable {t : Choices}

/-- A sequence does not go back when a transaction does. -/
def moved (t : Choices) (next : ℤ) : Choices where
  choices := t.choices
  rows := t.rows
  nextId := max t.nextId next
  ids := t.ids
  codes := t.codes
  pos := t.pos
  fresh c hc := lt_max_of_lt_left (t.fresh c hc)
  started := lt_max_of_lt_left t.started
  unique := t.unique
  owned := t.owned

def withChoice (t : Choices) (code : String) (h : code ∉ t.choices.map Choice.code) : Choices where
  choices := t.choices ++ [⟨t.nextId, code⟩]
  rows := t.rows
  nextId := t.nextId + 1
  ids := by
    rw [List.map_append, List.nodup_append]
    refine ⟨t.ids, List.nodup_singleton _, fun a ha b hb hab => ?_⟩
    obtain ⟨c, hc, rfl⟩ := List.mem_map.mp ha
    rw [List.mem_singleton.mp hb] at hab
    exact absurd hab (ne_of_lt (t.fresh c hc))
  codes := by
    rw [List.map_append, List.nodup_append]
    refine ⟨t.codes, List.nodup_singleton _, fun a ha b hb hab => ?_⟩
    rw [hab, List.mem_singleton.mp hb] at ha
    exact h ha
  pos := by
    intro c hc
    rcases List.mem_append.mp hc with hc | hc
    · exact t.pos c hc
    · rw [List.mem_singleton.mp hc]
      exact t.started
  fresh := by
    intro c hc
    rcases List.mem_append.mp hc with hc | hc
    · exact lt_trans (t.fresh c hc) (lt_add_one _)
    · rw [List.mem_singleton.mp hc]
      exact lt_add_one _
  started := lt_trans t.started (lt_add_one _)
  unique := t.unique
  owned := fun row hrow => by
    rw [List.map_append]
    exact List.mem_append_left _ (t.owned row hrow)

/-- The `INSERT` of a flush. It leaves what the sequence has reached when it raises. -/
def insert (t : Choices) (code : String) : Except ℤ Choices :=
  if h : code ∈ t.choices.map Choice.code then .error (t.nextId + 1) else .ok (t.withChoice code h)

def withRow (t : Choices) (row : TranslationRow) (howner : row.owner ∈ t.choices.map Choice.id)
    (hnew : (row.owner, row.locale) ∉ t.rows.map fun r => (r.owner, r.locale)) : Choices where
  choices := t.choices
  rows := t.rows ++ [row]
  nextId := t.nextId
  ids := t.ids
  codes := t.codes
  pos := t.pos
  fresh := t.fresh
  started := t.started
  unique := by
    rw [List.map_append, List.nodup_append]
    refine ⟨t.unique, List.nodup_singleton _, fun a ha b hb hab => hnew ?_⟩
    rw [hab, List.mem_singleton.mp hb] at ha
    exact ha
  owned := fun r hr => by
    rcases List.mem_append.mp hr with hr | hr
    · exact t.owned r hr
    · rw [List.mem_singleton.mp hr]
      exact howner

def addTranslation (t : Choices) (row : TranslationRow) : Except ℤ Choices :=
  if h : row.owner ∈ t.choices.map Choice.id ∧
      (row.owner, row.locale) ∉ t.rows.map fun r => (r.owner, r.locale) then
    .ok (t.withRow row h.1 h.2)
  else .error t.nextId

def addTranslations (t : Choices) : List TranslationRow → Except ℤ Choices
  | [] => .ok t
  | row :: rest => t.addTranslation row >>= fun t' => t'.addTranslations rest

/-- The loop of `seed_languages`, `seed_interests` and `seed_genders`. -/
def seed (t : Choices) : List SeedItem → Except ℤ Choices
  | [] => .ok t
  | item :: rest => do
    let inserted ← t.insert item.code
    let named ← inserted.addTranslations (item.rows t.nextId)
    named.seed rest

end Choices

/-! ### `init_seed.py` -/

def seedItem (code en ko ja : String) : SeedItem where
  code := code
  translations := [("en".toList, en), ("ko".toList, ko), ("ja".toList, ja)]
  keys := by
    change ["en".toList, "ko".toList, "ja".toList].Nodup
    decide

def seedLanguages : List SeedItem := [
  seedItem "en" "English" "영어" "英語",
  seedItem "ko" "Korean" "한국어" "韓国語",
  seedItem "ja" "Japanese" "일본어" "日本語"]

/-- The unique column of an interest is its English name. -/
def seedInterests : List SeedItem := [
  seedItem "Travel" "Travel" "여행" "旅行",
  seedItem "Music" "Music" "음악" "音楽",
  seedItem "Sports" "Sports" "스포츠" "スポーツ"]

def seedGenders : List SeedItem := [
  seedItem "male" "Male" "남성" "男性",
  seedItem "female" "Female" "여성" "女性",
  seedItem "other" "Other" "기타" "その他"]

def seeding : LinkTable → List SeedItem
  | .interest => seedInterests
  | .language => seedLanguages
  | .gender => seedGenders

def Tables.set (db : Tables) (table : LinkTable) (t : Choices) : Tables :=
  ⟨Function.update db.choices table t⟩

def Tables.seed (db : Tables) : List LinkTable → Bool × Tables
  | [] => (true, db)
  | table :: rest =>
    match (db.choices table).seed (seeding table) with
    | .error next => (false, db.set table ((db.choices table).moved next))
    | .ok t => (db.set table t).seed rest

/-- A run of the script, which tells whether it has not raised. -/
def main (db : Tables) : Bool × Tables :=
  match db.seed [.interest, .gender, .language] with
  | (true, seeded) => (true, seeded)
  | (false, raised) =>
    (false, ⟨fun table => (db.choices table).moved (raised.choices table).nextId⟩)

/-! ### One list -/

def SeedItem.nameIn (item : SeedItem) (locale : List Char) : List String :=
  (item.translations.filter fun tr => tr.1 = locale).map Prod.snd

namespace Choices
variable {t t' : Choices} {locale : List Char} {rows : List TranslationRow} {item : SeedItem}
  {items : List SeedItem}

structure Grown (t : Choices) (items : List SeedItem) (t' : Choices) : Prop where
  codes : t'.choices.map Choice.code = t.choices.map Choice.code ++ items.map SeedItem.code
  names : ∀ locale, (t'.select locale).map SetUpOption.name =
    (t.select locale).map SetUpOption.name ++ items.flatMap fun item => item.nameIn locale

theorem grown_nil (t : Choices) : t.Grown [] t := ⟨by simp, by simp⟩

theorem Grown.cons {t₁ : Choices} (h : t.Grown [item] t₁) (hrest : t₁.Grown items t') :
    t.Grown (item :: items) t' := by
  refine ⟨?_, fun locale => ?_⟩
  · rw [hrest.codes, h.codes, List.append_assoc, ← List.map_append, List.singleton_append]
  · rw [hrest.names, h.names, List.append_assoc, ← List.flatMap_append, List.singleton_append]

theorem addTranslations_ok (howned : ∀ row ∈ rows, row.owner ∈ t.choices.map Choice.id)
    (hnew : ((t.rows ++ rows).map fun r => (r.owner, r.locale)).Nodup) :
    ∃ t', t.addTranslations rows = .ok t' ∧ t'.choices = t.choices ∧ t'.rows = t.rows ++ rows := by
  induction rows generalizing t with
  | nil => exact ⟨t, rfl, rfl, (List.append_nil _).symm⟩
  | cons row rest ih =>
    obtain ⟨hrow, hrest⟩ := List.forall_mem_cons.mp howned
    have hsplit : t.rows ++ row :: rest = t.rows ++ [row] ++ rest := by simp
    have hfresh : (row.owner, row.locale) ∉ t.rows.map fun r => (r.owner, r.locale) := by
      intro hmem
      rw [List.map_append] at hnew
      exact (List.nodup_append.mp hnew).2.2 _ hmem _ List.mem_cons_self rfl
    rw [hsplit] at hnew
    obtain ⟨t', hadd, hchoices, hrows⟩ := ih (t := t.withRow row hrow hfresh) hrest hnew
    refine ⟨t', ?_, hchoices, by rw [hrows, hsplit]; rfl⟩
    unfold addTranslations addTranslation
    rw [dif_pos ⟨hrow, hfresh⟩]
    exact hadd

theorem sortedIds_snoc {c : Choice} (hchoices : t'.choices = t.choices ++ [c])
    (hlast : ∀ id ∈ t.choices.map Choice.id, id < c.id) :
    t'.sortedIds = t.sortedIds ++ [c.id] := by
  have hperm : t'.sortedIds.Perm (t.sortedIds ++ [c.id]) := by
    unfold sortedIds
    rw [hchoices, List.map_append]
    exact (List.perm_insertionSort _ _).trans
      (((List.perm_insertionSort _ _).symm).append_right _)
  refine hperm.eq_of_pairwise (fun a b _ _ (hab : a ≤ b) hba => le_antisymm hab hba) ?_ ?_
  · exact List.pairwise_insertionSort _ _
  · refine List.pairwise_append.mpr
      ⟨List.pairwise_insertionSort _ _, List.pairwise_singleton _ _, ?_⟩
    intro a ha b hb
    rw [List.mem_singleton.mp hb]
    exact le_of_lt (hlast a ((List.mem_insertionSort _).mp ha))

theorem select_grown {id : ℤ} (hids : t'.sortedIds = t.sortedIds ++ [id])
    (hrows : t'.rows = t.rows ++ item.rows id)
    (hnew : id ∉ t.choices.map Choice.id) (locale : List Char) :
    (t'.select locale).map SetUpOption.name =
      (t.select locale).map SetUpOption.name ++ item.nameIn locale := by
  have hold : ∀ row ∈ t.rows, row.owner ≠ id := fun row hrow heq => hnew (heq ▸ t.owned row hrow)
  have hbefore : ∀ a ∈ t.sortedIds,
      (t'.rows.filter fun row => row.owner = a ∧ row.locale = locale) =
        t.rows.filter fun row => row.owner = a ∧ row.locale = locale := by
    intro a ha
    have hne : id ≠ a := fun heq => hnew (heq ▸ (List.mem_insertionSort _).mp ha)
    rw [hrows, List.filter_append, List.append_right_eq_self, List.filter_eq_nil_iff]
    intro row hrow
    obtain ⟨tr, -, rfl⟩ := List.mem_map.mp hrow
    simp [hne]
  have hlast : (t'.rows.filter fun row => row.owner = id ∧ row.locale = locale).map
      TranslationRow.name = item.nameIn locale := by
    have hnone : (t.rows.filter fun row => row.owner = id ∧ row.locale = locale) = [] := by
      rw [List.filter_eq_nil_iff]
      intro row hrow
      simp [hold row hrow]
    unfold SeedItem.nameIn
    rw [hrows, List.filter_append, hnone, List.nil_append, SeedItem.rows, List.filter_map,
      List.map_map]
    congr 1
    apply List.filter_congr
    intro tr _
    simp
  have hold' : t'.select locale = t.select locale ++
      (t'.rows.filter fun row => row.owner = id ∧ row.locale = locale).map
        fun row => ⟨id, row.name⟩ := by
    unfold select
    rw [hids, List.flatMap_append, List.flatMap_singleton]
    congr 1
    apply List.flatMap_congr
    intro a ha
    rw [hbefore a ha]
  rw [hold', List.map_append, List.map_map, ← hlast]
  rfl

theorem nextId_not_mem (t : Choices) : t.nextId ∉ t.choices.map Choice.id := by
  intro hmem
  obtain ⟨c, hc, hid⟩ := List.mem_map.mp hmem
  exact absurd hid (ne_of_lt (t.fresh c hc))

theorem insert_grown (hcode : item.code ∉ t.choices.map Choice.code) :
    ∃ t₁ t', t.insert item.code = .ok t₁ ∧
      t₁.addTranslations (item.rows t.nextId) = .ok t' ∧ t.Grown [item] t' := by
  have hid : t.nextId ∈ (t.withChoice item.code hcode).choices.map Choice.id := by
    simp [withChoice]
  have howned : ∀ row ∈ item.rows t.nextId,
      row.owner ∈ (t.withChoice item.code hcode).choices.map Choice.id := by
    intro row hrow
    obtain ⟨tr, -, rfl⟩ := List.mem_map.mp hrow
    exact hid
  have hkeys : (((t.withChoice item.code hcode).rows ++ item.rows t.nextId).map
      fun r => (r.owner, r.locale)).Nodup := by
    rw [List.map_append, SeedItem.rows, List.map_map]
    refine List.nodup_append.mpr ⟨t.unique, ?_, ?_⟩
    · have hmap := item.keys.map (Prod.mk_right_injective t.nextId)
      rwa [List.map_map] at hmap
    · intro a ha b hb hab
      obtain ⟨row, hrow, rfl⟩ := List.mem_map.mp ha
      obtain ⟨tr, -, rfl⟩ := List.mem_map.mp hb
      have howner : row.owner = t.nextId := congrArg Prod.fst hab
      exact nextId_not_mem t (howner ▸ t.owned row hrow)
  obtain ⟨t', hadd, hchoices, hrows⟩ := addTranslations_ok howned hkeys
  refine ⟨_, t', dif_neg hcode, hadd, ?_, fun locale => ?_⟩
  · rw [hchoices]
    simp [withChoice]
  · have hlast : ∀ id ∈ t.choices.map Choice.id, id < t.nextId := by
      intro id hid
      obtain ⟨c, hc, rfl⟩ := List.mem_map.mp hid
      exact t.fresh c hc
    rw [select_grown (sortedIds_snoc hchoices hlast) hrows (nextId_not_mem t) locale]
    simp

theorem seed_ok (hcodes : ∀ item ∈ items, item.code ∉ t.choices.map Choice.code)
    (hdistinct : (items.map SeedItem.code).Nodup) :
    ∃ t', t.seed items = .ok t' ∧ t.Grown items t' := by
  induction items generalizing t with
  | nil => exact ⟨t, rfl, grown_nil t⟩
  | cons item rest ih =>
    obtain ⟨hitem, hrest⟩ := List.forall_mem_cons.mp hcodes
    obtain ⟨hnot, hdistinct⟩ := List.nodup_cons.mp hdistinct
    obtain ⟨t₁, t₂, hinsert, hadd, hgrown⟩ := insert_grown hitem
    have hrest' : ∀ other ∈ rest, other.code ∉ t₂.choices.map Choice.code := by
      intro other hother
      rw [hgrown.codes, List.mem_append, not_or]
      refine ⟨hrest other hother, fun heq => hnot ?_⟩
      rw [← List.mem_singleton.mp heq]
      exact List.mem_map_of_mem hother
    obtain ⟨t', hseed, hgrown'⟩ := ih hrest' hdistinct
    refine ⟨t', ?_, hgrown.cons hgrown'⟩
    rw [seed, hinsert]
    change t₁.addTranslations _ >>= _ = _
    rw [hadd]
    exact hseed

theorem seed_error (h : ∃ item ∈ items, item.code ∈ t.choices.map Choice.code) :
    ∃ next, t.seed items = .error next := by
  induction items generalizing t with
  | nil =>
    obtain ⟨_, hmem, -⟩ := h
    cases hmem
  | cons item rest ih =>
    by_cases hitem : item.code ∈ t.choices.map Choice.code
    · refine ⟨t.nextId + 1, ?_⟩
      rw [seed, insert, dif_pos hitem]
      rfl
    · obtain ⟨other, hother, hcode⟩ := h
      rcases List.mem_cons.mp hother with rfl | hother
      · exact absurd hcode hitem
      obtain ⟨t₁, t₂, hinsert, hadd, hgrown⟩ := insert_grown hitem
      have hcode' : other.code ∈ t₂.choices.map Choice.code := by
        rw [hgrown.codes]
        exact List.mem_append_left _ hcode
      obtain ⟨next, hseed⟩ := ih ⟨other, hother, hcode'⟩
      refine ⟨next, ?_⟩
      rw [seed, hinsert]
      change t₁.addTranslations _ >>= _ = _
      rw [hadd]
      exact hseed

end Choices

/-! ### The whole script -/

def Tables.Unseeded (db : Tables) : Prop :=
  ∀ table, ∀ item ∈ seeding table, item.code ∉ (db.choices table).choices.map Choice.code

section Script
variable {db : Tables} {tables : List LinkTable} {table : LinkTable} {locale : List Char}

theorem seeding_distinct (table : LinkTable) : ((seeding table).map SeedItem.code).Nodup := by
  cases table <;> decide

theorem Tables.seed_ok
    (h : ∀ table ∈ tables, ∀ item ∈ seeding table,
      item.code ∉ (db.choices table).choices.map Choice.code) (hdistinct : tables.Nodup) :
    ∃ db', db.seed tables = (true, db') ∧
      (∀ table ∈ tables, (db.choices table).Grown (seeding table) (db'.choices table)) ∧
      ∀ table ∉ tables, db'.choices table = db.choices table := by
  induction tables generalizing db with
  | nil => exact ⟨db, rfl, by simp, fun _ _ => rfl⟩
  | cons first rest ih =>
    obtain ⟨hfirst, hrest⟩ := List.forall_mem_cons.mp h
    obtain ⟨hnot, hdistinct⟩ := List.nodup_cons.mp hdistinct
    obtain ⟨t, hseed, hgrown⟩ := Choices.seed_ok hfirst (seeding_distinct first)
    have hother : ∀ table, table ≠ first → (db.set first t).choices table = db.choices table :=
      fun table hne => Function.update_of_ne hne ..
    have hrest' : ∀ table ∈ rest, ∀ item ∈ seeding table,
        item.code ∉ ((db.set first t).choices table).choices.map Choice.code := by
      intro table htable
      rw [hother table fun heq => hnot (heq ▸ htable)]
      exact hrest table htable
    obtain ⟨db', hrun, hin, hout⟩ := ih hrest' hdistinct
    refine ⟨db', ?_, ?_, ?_⟩
    · rw [Tables.seed, hseed]
      exact hrun
    · intro table htable
      rcases List.mem_cons.mp htable with rfl | htable
      · rw [hout table hnot]
        simpa [Tables.set] using hgrown
      · rw [← hother table fun heq => hnot (heq ▸ htable)]
        exact hin table htable
    · intro table htable
      rw [List.mem_cons, not_or] at htable
      rw [hout table htable.2, hother table htable.1]

theorem Tables.seed_raises
    (h : ∃ table ∈ tables, ∃ item ∈ seeding table,
      item.code ∈ (db.choices table).choices.map Choice.code) (hdistinct : tables.Nodup) :
    (db.seed tables).1 = false := by
  induction tables generalizing db with
  | nil =>
    obtain ⟨_, hmem, -⟩ := h
    cases hmem
  | cons first rest ih =>
    obtain ⟨hnot, hdistinct⟩ := List.nodup_cons.mp hdistinct
    rw [Tables.seed]
    cases hseed : (db.choices first).seed (seeding first) with
    | error next => rfl
    | ok t =>
      refine ih ?_ hdistinct
      obtain ⟨table, htable, hcode⟩ := h
      rcases List.mem_cons.mp htable with rfl | htable
      · obtain ⟨next, herror⟩ := Choices.seed_error hcode
        rw [hseed] at herror
        cases herror
      · refine ⟨table, htable, ?_⟩
        have hne : table ≠ first := fun heq => hnot (heq ▸ htable)
        have hsame : (db.set first t).choices table = db.choices table :=
          Function.update_of_ne hne ..
        rwa [hsame]

theorem main_of_unseeded (h : db.Unseeded) :
    (main db).1 = true ∧
      ∀ table, (db.choices table).Grown (seeding table) ((main db).2.choices table) := by
  obtain ⟨db', hseed, hgrown, -⟩ := Tables.seed_ok
    (fun table (_ : table ∈ [.interest, .gender, .language]) => h table) (by decide)
  unfold main
  rw [hseed]
  exact ⟨rfl, fun table => hgrown table (by cases table <;> decide)⟩

theorem main_of_seeded (h : ¬ db.Unseeded) :
    (main db).1 = false ∧ ∀ table,
      ((main db).2.choices table).choices = (db.choices table).choices ∧
        ((main db).2.choices table).rows = (db.choices table).rows := by
  have hcode : ∃ table ∈ [LinkTable.interest, .gender, .language], ∃ item ∈ seeding table,
      item.code ∈ (db.choices table).choices.map Choice.code := by
    unfold Tables.Unseeded at h
    push Not at h
    obtain ⟨table, item, hitem, hcode⟩ := h
    exact ⟨table, by cases table <;> decide, item, hitem, hcode⟩
  have hraises := Tables.seed_raises hcode (by decide)
  unfold main
  cases hseed : db.seed [.interest, .gender, .language] with
  | mk ok raised =>
    rw [hseed] at hraises
    cases hraises
    exact ⟨rfl, fun _ => ⟨rfl, rfl⟩⟩

theorem select_congr {t t' : Choices} (hchoices : t'.choices = t.choices)
    (hrows : t'.rows = t.rows) :
    t'.select = t.select := by
  funext locale
  unfold Choices.select Choices.sortedIds
  rw [hchoices, hrows]

theorem not_unseeded_of_codes {db' : Tables}
    (h : ∀ table, (db.choices table).Grown (seeding table) (db'.choices table)) :
    ¬ db'.Unseeded := by
  intro hno
  refine hno .interest (seedItem "Travel" "Travel" "여행" "旅行") (.head _) ?_
  rw [(h .interest).codes]
  exact List.mem_append_right _ (.head _)

theorem lists_of_seeded (h : ¬ db.Unseeded) (n : ℕ) (table : LinkTable) :
    (((fun db => (main db).2)^[n] db).choices table).select = (db.choices table).select := by
  induction n generalizing db with
  | zero => rfl
  | succ n ih =>
    have hsame := (main_of_seeded h).2
    have hstill : ¬ (main db).2.Unseeded := by
      intro hno
      refine h fun table item hitem hcode => hno table item hitem ?_
      rwa [(hsame table).1]
    rw [Function.iterate_succ_apply, ih hstill]
    exact select_congr (hsame table).1 (hsame table).2

theorem names_of_seeds (table : LinkTable) (acceptLanguage : Option (List Char)) :
    (seeding table).flatMap (fun item => item.nameIn (getLocale acceptLanguage)) ≠ [] := by
  have hlocale : getLocale acceptLanguage ∈ supportedLocales := by
    unfold getLocale
    dsimp only
    split_ifs with hmem
    · exact hmem
    · decide
  generalize getLocale acceptLanguage = locale at hlocale
  revert locale
  cases table <;> decide

theorem getByLocale_of_ne_nil (h : (db.choices table).select locale ≠ []) :
    getByLocale db table locale = .ok ((db.choices table).select locale) := by
  cases table <;> exact if_neg h

/-- The script adds its entries to the lists, in the language of any header, or it changes none of
them. Only its first run can do the former, and no list is missing then. -/
theorem seeded_at_most_once (db : Tables) :
    ((main db).1 = true ↔ db.Unseeded) ∧
      (db.Unseeded → ∀ n table acceptLanguage, ∃ options,
        getByLocale ((fun db => (main db).2)^[n + 1] db) table (getLocale acceptLanguage) =
            .ok options ∧
          options.map SetUpOption.name =
            ((db.choices table).select (getLocale acceptLanguage)).map SetUpOption.name ++
              (seeding table).flatMap fun item => item.nameIn (getLocale acceptLanguage)) ∧
      (¬ db.Unseeded → ∀ n table locale,
        (((fun db => (main db).2)^[n] db).choices table).select locale =
          (db.choices table).select locale) := by
  refine ⟨⟨fun htrue => ?_, fun h => (main_of_unseeded h).1⟩, fun h n table acceptLanguage => ?_,
    fun h n table locale => congrFun (lists_of_seeded h n table) locale⟩
  · by_contra hno
    rw [(main_of_seeded hno).1] at htrue
    cases htrue
  · have hgrown := (main_of_unseeded h).2
    have hlists := lists_of_seeded (not_unseeded_of_codes hgrown) n table
    have hnames := (hgrown table).names (getLocale acceptLanguage)
    rw [← hlists] at hnames
    rw [Function.iterate_succ_apply]
    refine ⟨_, getByLocale_of_ne_nil fun hnil => ?_, hnames⟩
    rw [hnil, List.map_nil] at hnames
    exact names_of_seeds table acceptLanguage (List.append_eq_nil_iff.mp hnames.symm).2

end Script

def emptyTables : Tables where
  choices _ := ⟨[], [], 1, List.nodup_nil, List.nodup_nil, by simp, by simp, by decide,
    List.nodup_nil, by simp⟩

def seeded : Tables := (main emptyTables).2

end Nalang.Profiles
