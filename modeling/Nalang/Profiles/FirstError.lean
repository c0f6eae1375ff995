import Mathlib.Data.List.Nodup
import Nalang.Profiles.Saves

/-!
# The first statement that fails

When a request runs by itself, its statements fail at the first id that does not exist, or
when they insert a link that they have inserted before.
-/

namespace Nalang.Profiles
open Accounts ReadCommitted Transition

def Sql.inserted? : Sql → Option Link
  | .insert link => some link
  | _ => none

def inserts (sql : List Sql) : List Link := sql.filterMap Sql.inserted?

/-- What a statement raises after the statements `done` of a request that runs by itself. -/
def refusal (catalog : Catalog) (done : List Sql) : Sql → Option HttpError
  | .lookup table id => if id ∈ catalog.ids table then none else some (lookupError table id)
  | .insert link => if .insert link ∈ done then some .serverError else none
  | .delete _ | .commit => none

def firstError (catalog : Catalog) : List Sql → List Sql → Option HttpError
  | _, [] => none
  | done, first :: rest =>
    (refusal catalog done first).or (firstError catalog (done ++ [first]) rest)

section FirstError
variable {catalog : Catalog} {done sql more : List Sql} {link : Link} {e : HttpError}

theorem mem_inserts : link ∈ inserts sql ↔ .insert link ∈ sql := by
  unfold inserts
  rw [List.mem_filterMap]
  constructor
  · rintro ⟨first, hmem, hlink⟩
    cases first with
    | insert l =>
      cases hlink
      exact hmem
    | _ => cases hlink
  · exact fun hmem => ⟨_, hmem, rfl⟩

theorem inserts_append : inserts (sql ++ more) = inserts sql ++ inserts more :=
  List.filterMap_append ..

theorem inserts_map_insert (links : List Link) : inserts (links.map .insert) = links := by
  simp [inserts, List.filterMap_map, Function.comp_def, Sql.inserted?]

theorem inserts_map_delete (links : List Link) : inserts (links.map .delete) = [] := by
  simp [inserts, List.filterMap_map, Function.comp_def, Sql.inserted?]

theorem firstError_append : firstError catalog done (sql ++ more) =
    (firstError catalog done sql).or (firstError catalog (done ++ sql) more) := by
  induction sql generalizing done with
  | nil => simp [firstError]
  | cons first rest ih =>
    rw [List.cons_append, firstError, firstError, ih, Option.or_assoc, List.append_assoc,
      List.singleton_append]

theorem firstError_flushed
    (hsql : ∀ first ∈ sql, ∃ link, first = .insert link ∨ first = .delete link)
    (hdone : (inserts done).Nodup) :
    firstError catalog done sql =
      if (inserts (done ++ sql)).Nodup then none else some .serverError := by
  induction sql generalizing done with
  | nil =>
    rw [List.append_nil, if_pos hdone]
    rfl
  | cons first rest ih =>
    obtain ⟨⟨link, hfirst⟩, hrest⟩ := List.forall_mem_cons.mp hsql
    have hsplit : done ++ first :: rest = done ++ [first] ++ rest := by simp
    rw [firstError, hsplit]
    rcases hfirst with rfl | rfl
    · by_cases hmem : .insert link ∈ done
      · have hdup : ¬ (inserts (done ++ [.insert link] ++ rest)).Nodup := by
          intro hnodup
          rw [inserts_append, inserts_append] at hnodup
          exact (List.nodup_append.mp (List.nodup_append.mp hnodup).1).2.2 link
            (mem_inserts.mpr hmem) link (mem_inserts.mpr (List.mem_singleton_self _)) rfl
        rw [refusal, if_pos hmem, if_neg hdup]
        rfl
      · have hnext : (inserts (done ++ [.insert link])).Nodup := by
          rw [inserts_append]
          refine List.nodup_append.mpr ⟨hdone, List.nodup_singleton link, ?_⟩
          rintro l hl l' hl' rfl
          rw [List.mem_singleton.mp hl'] at hl
          exact hmem (mem_inserts.mp hl)
        rw [refusal, if_neg hmem, Option.none_or, ih hrest hnext]
    · have hnext : (inserts (done ++ [.delete link])).Nodup := by
        have hnone : inserts [.delete link] = [] := rfl
        rw [inserts_append, hnone, List.append_nil]
        exact hdone
      rw [refusal, Option.none_or, ih hrest hnext]

end FirstError

/-! ### The ids that are asked for -/

def Catalog.Has (catalog : Catalog) (item : LinkTable × ℤ) : Prop := item.2 ∈ catalog.ids item.1

instance (catalog : Catalog) (item : LinkTable × ℤ) : Decidable (catalog.Has item) :=
  inferInstanceAs (Decidable (item.2 ∈ catalog.ids item.1))

def UserProfileUpdate.asked (data : UserProfileUpdate) : List (LinkTable × ℤ) :=
  data.interests.map (LinkTable.interest, ·) ++ data.languages.map (LinkTable.language, ·) ++
    (data.genderId.filter (· ≠ 0)).toList.map (LinkTable.gender, ·)

def linkOf (user : ℕ) (item : LinkTable × ℤ) : Link := ⟨user, item.1, item.2⟩

theorem linkOf_injective (user : ℕ) : Function.Injective (linkOf user) := by
  rintro ⟨table, id⟩ ⟨table', id'⟩ h
  cases h
  rfl

inductive Fails (catalog : Catalog) (asked : List (LinkTable × ℤ)) : HttpError → Prop
  | missing {before after : List (LinkTable × ℤ)} {table : LinkTable} {id : ℤ}
      (split : asked = before ++ (table, id) :: after) (exist : ∀ item ∈ before, catalog.Has item)
      (distinct : before.Nodup) (absent : ¬ catalog.Has (table, id)) :
      Fails catalog asked (lookupError table id)
  | repeated {before after : List (LinkTable × ℤ)} (split : asked = before ++ after)
      (exist : ∀ item ∈ before, catalog.Has item) (double : ¬ before.Nodup) :
      Fails catalog asked .serverError

theorem Fails.append {catalog : Catalog} {asked more : List (LinkTable × ℤ)} {e : HttpError}
    (h : Fails catalog asked e) : Fails catalog (asked ++ more) e := by
  cases h with
  | missing split exist distinct absent =>
    exact .missing (by rw [split, List.append_assoc, List.cons_append]) exist distinct absent
  | repeated split exist double =>
    exact .repeated (by rw [split, List.append_assoc]) exist double

namespace Session
variable {catalog : Catalog} {o : FlushOrder} {user : ℕ} {asked : List (LinkTable × ℤ)}
  {s : Session} {table : LinkTable} {id : ℤ}

structure Passing (catalog : Catalog) (user : ℕ) (asked : List (LinkTable × ℤ)) (s : Session) :
    Prop where
  sent : firstError catalog [] s.sent = none
  distinct : (inserts s.sent).Nodup
  all : (inserts s.sent ++ s.new).Perm (asked.map (linkOf user))
  exist : ∀ item ∈ asked, catalog.Has item
  read : ∀ item ∈ s.identityMap, item ∈ asked
  unmixed : s.deleted = [] ∨ (s.new = [] ∧ s.identityMap = [])

inductive Meets (catalog : Catalog) (user : ℕ) (asked : List (LinkTable × ℤ)) (s : Session) : Prop
  | passing (h : s.Passing catalog user asked)
  | failing {e : HttpError} (sent : firstError catalog [] s.sent = some e)
      (fails : Fails catalog asked e)

theorem Passing.flush (h : s.Passing catalog user asked) :
    (inserts (s.flush o).sent).Perm (asked.map (linkOf user)) ∧
      firstError catalog [] (s.flush o).sent =
        if asked.Nodup then none else some .serverError := by
  obtain ⟨sql, hsent, hperm⟩ : ∃ sql, (s.flush o).sent = s.sent ++ sql ∧
      sql.Perm (s.new.map .insert ++ s.deleted.map .delete) := by
    refine ⟨_, rfl, ?_⟩
    rcases h.unmixed with hdeleted | ⟨hnew, -⟩
    · simpa [hdeleted] using o.perm _
    · simpa [hnew] using o.perm _
  have hall : (inserts (s.flush o).sent).Perm (asked.map (linkOf user)) := by
    have hinserts : (inserts sql).Perm s.new := by
      have hmapped := hperm.filterMap Sql.inserted?
      change (inserts sql).Perm (inserts _) at hmapped
      rwa [inserts_append, inserts_map_insert, inserts_map_delete, List.append_nil] at hmapped
    rw [hsent, inserts_append]
    exact (hinserts.append_left _).trans h.all
  have hflushed : ∀ first ∈ sql, ∃ link, first = .insert link ∨ first = .delete link := by
    intro first hfirst
    have hmem := hperm.mem_iff.mp hfirst
    simp only [List.mem_append, List.mem_map] at hmem
    rcases hmem with ⟨link, -, rfl⟩ | ⟨link, -, rfl⟩
    · exact ⟨link, .inl rfl⟩
    · exact ⟨link, .inr rfl⟩
  have hnodup : (inserts (s.sent ++ sql)).Nodup ↔ asked.Nodup := by
    rw [← hsent, hall.nodup_iff, List.nodup_map_iff (linkOf_injective user)]
  refine ⟨hall, ?_⟩
  rw [hsent, firstError_append, h.sent, Option.none_or, List.nil_append,
    firstError_flushed hflushed h.distinct]
  simp only [hnodup]

theorem get_sent (o : FlushOrder) (s : Session) (table : LinkTable) (id : ℤ) :
    ∃ more, (s.get o table id).sent = s.sent ++ more := by
  unfold Session.get
  split_ifs
  · exact ⟨[], (List.append_nil _).symm⟩
  · exact ⟨_, List.append_assoc ..⟩

theorem Passing.addLink_loaded (h : s.Passing catalog user asked)
    (hread : (table, id) ∈ s.identityMap) :
    (s.addLink o user table id).Passing catalog user (asked ++ [(table, id)]) := by
  have hsession : s.addLink o user table id = s.append ⟨user, table, id⟩ := by
    rw [Session.addLink, Session.get, if_pos hread]
  rw [hsession]
  refine ⟨h.sent, h.distinct, ?_, ?_, ?_, ?_⟩
  · rw [List.map_append]
    exact (List.append_assoc .. ▸ h.all.append_right _ :)
  · intro item hitem
    rcases List.mem_append.mp hitem with hitem | hitem
    · exact h.exist item hitem
    · rw [List.mem_singleton.mp hitem]
      exact h.exist _ (h.read _ hread)
  · exact fun item hitem => List.mem_append_left _ (h.read item hitem)
  · rcases h.unmixed with hdeleted | ⟨-, hnone⟩
    · exact .inl hdeleted
    · rw [hnone] at hread
      cases hread

theorem addLink_of_not_loaded (hread : (table, id) ∉ s.identityMap) :
    s.addLink o user table id = ⟨(table, id) :: s.identityMap, [], [⟨user, table, id⟩],
      (s.flush o).sent ++ [.lookup table id]⟩ := by
  rw [Session.addLink, Session.get, if_neg hread]
  rfl

theorem Passing.addLink_found (h : s.Passing catalog user asked) (hdistinct : asked.Nodup)
    (hread : (table, id) ∉ s.identityMap) (hid : id ∈ catalog.ids table)
    (hsent : firstError catalog [] ((s.flush o).sent ++ [.lookup table id]) = none) :
    (s.addLink o user table id).Passing catalog user (asked ++ [(table, id)]) := by
  have hall := (h.flush (o := o)).1
  have hsame : inserts ((s.flush o).sent ++ [.lookup table id]) = inserts (s.flush o).sent := by
    rw [inserts_append]
    exact List.append_nil _
  rw [addLink_of_not_loaded hread]
  refine ⟨hsent, ?_, ?_, ?_, ?_, .inl rfl⟩
  · rw [hsame, hall.nodup_iff, List.nodup_map_iff (linkOf_injective user)]
    exact hdistinct
  · rw [hsame, List.map_append]
    exact hall.append_right _
  · intro item hitem
    rcases List.mem_append.mp hitem with hitem | hitem
    · exact h.exist item hitem
    · rw [List.mem_singleton.mp hitem]
      exact hid
  · intro item hitem
    rcases List.mem_cons.mp hitem with rfl | hitem
    · exact List.mem_append_right _ (List.mem_singleton_self _)
    · exact List.mem_append_left _ (h.read item hitem)

theorem Passing.addLink (h : s.Passing catalog user asked) :
    (s.addLink o user table id).Meets catalog user (asked ++ [(table, id)]) := by
  by_cases hread : (table, id) ∈ s.identityMap
  · exact .passing (h.addLink_loaded hread)
  · have hflushed := (h.flush (o := o)).2
    by_cases hdistinct : asked.Nodup
    · rw [if_pos hdistinct] at hflushed
      have hlookup : firstError catalog [] ((s.flush o).sent ++ [.lookup table id]) =
          if id ∈ catalog.ids table then none else some (lookupError table id) := by
        rw [firstError_append, hflushed, Option.none_or]
        simp [firstError, refusal]
      by_cases hid : id ∈ catalog.ids table
      · exact .passing (h.addLink_found hdistinct hread hid (by rw [hlookup, if_pos hid]))
      · refine .failing ?_ (.missing rfl h.exist hdistinct hid)
        rw [addLink_of_not_loaded hread, hlookup, if_neg hid]
    · rw [if_neg hdistinct] at hflushed
      refine .failing (e := .serverError) ?_ (.repeated rfl h.exist hdistinct)
      rw [addLink_of_not_loaded hread, firstError_append, hflushed]
      rfl

theorem Meets.addLink (h : s.Meets catalog user asked) (o : FlushOrder) (table : LinkTable)
    (id : ℤ) : (s.addLink o user table id).Meets catalog user (asked ++ [(table, id)]) := by
  cases h with
  | passing h => exact h.addLink
  | failing sent fails =>
    obtain ⟨more, hmore⟩ := get_sent o s table id
    refine .failing ?_ fails.append
    change firstError catalog [] (s.get o table id).sent = _
    rw [hmore, firstError_append, sent]
    rfl

theorem Meets.addLinks (h : s.Meets catalog user asked) (o : FlushOrder) (table : LinkTable)
    (ids : List ℤ) :
    (ids.foldl (Session.addLink o user table) s).Meets catalog user
      (asked ++ ids.map (table, ·)) := by
  induction ids generalizing s asked with
  | nil => simpa using h
  | cons id ids ih => simpa using ih (h.addLink o table id)

theorem Meets.commit (h : s.Meets catalog user asked) (o : FlushOrder) :
    (firstError catalog [] ((s.flush o).sent ++ [.commit]) = none ∧ asked.Nodup ∧
        ∀ item ∈ asked, catalog.Has item) ∨
      ∃ e, firstError catalog [] ((s.flush o).sent ++ [.commit]) = some e ∧
        Fails catalog asked e := by
  cases h with
  | passing h =>
    have hflushed := (h.flush (o := o)).2
    by_cases hdistinct : asked.Nodup
    · rw [if_pos hdistinct] at hflushed
      refine .inl ⟨?_, hdistinct, h.exist⟩
      rw [firstError_append, hflushed]
      rfl
    · rw [if_neg hdistinct] at hflushed
      refine .inr ⟨_, ?_, .repeated (List.append_nil _).symm h.exist hdistinct⟩
      rw [firstError_append, hflushed]
      rfl
  | @failing e sent fails =>
    refine .inr ⟨e, ?_, fails⟩
    change firstError catalog [] (s.sent ++ _ ++ _) = _
    rw [List.append_assoc, firstError_append, sent]
    rfl

end Session

theorem firstError_updateUserProfile (catalog : Catalog) (o : FlushOrder) (user : ℕ)
    (links : LinkTable → List Link) (data : UserProfileUpdate) :
    (firstError catalog [] (updateUserProfile o user links data) = none ∧ data.asked.Nodup ∧
        ∀ item ∈ data.asked, catalog.Has item) ∨
      ∃ e, firstError catalog [] (updateUserProfile o user links data) = some e ∧
        Fails catalog data.asked e := by
  have hmarked : Session.Meets catalog user []
      ((links .gender).foldl Session.delete ((links .language).foldl Session.delete
        ((links .interest).foldl Session.delete .start))) := by
    refine .passing ⟨?_, ?_, ?_, ?_, ?_, .inr ⟨?_, ?_⟩⟩
    all_goals simp [Session.foldl_delete, Session.start, firstError, inserts]
  have hlanguages := (hmarked.addLinks o .interest data.interests).addLinks o .language
    data.languages
  unfold updateUserProfile UserProfileUpdate.asked
  cases data.genderId with
  | none => simpa using hlanguages.commit o
  | some id =>
    by_cases hid : id = 0
    · simpa [Option.filter, hid] using hlanguages.commit o
    · simpa [Option.filter, hid] using (hlanguages.addLink o .gender id).commit o

end Nalang.Profiles
