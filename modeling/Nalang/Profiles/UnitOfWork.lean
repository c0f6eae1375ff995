import Mathlib.Data.Int.Notation
import Mathlib.Data.List.Basic
import Mathlib.Data.List.Perm.Basic
import Nalang.Accounts.Data

/-!
# The statements of a profile update

`update_user_profile` works on the objects of its session. The statements it sends
are those of the flushes: one before every `SELECT` and one at the commit.
-/

namespace Nalang.Profiles
open Accounts

inductive LinkTable
  | interest
  | language
  | gender
  deriving DecidableEq

structure Link where
  user : ℕ
  table : LinkTable
  id : ℤ
  deriving DecidableEq

structure UserProfileUpdate where
  interests : List ℤ
  languages : List ℤ
  genderId : Option ℤ

def UserProfileUpdate.links (data : UserProfileUpdate) (user : ℕ) : List Link :=
  data.interests.map (Link.mk user .interest) ++ data.languages.map (Link.mk user .language) ++
    data.genderId.toList.map (Link.mk user .gender)

inductive Sql
  | lookup (table : LinkTable) (id : ℤ)
  | delete (link : Link)
  | insert (link : Link)
  | commit
  deriving DecidableEq

def LinkTable.name : LinkTable → String
  | .interest => "Interest"
  | .language => "Language"
  | .gender => "Gender"

def notFound (table : LinkTable) (id : ℤ) : HttpError :=
  .httpException 404 (table.name ++ " ID " ++ toString id ++ " not found")

/-- What the lookup of an id without a row raises: the driver refuses an id that does not fit the
column. -/
def lookupError (table : LinkTable) (id : ℤ) : HttpError :=
  if id < -2147483648 ∨ 2147483648 ≤ id then .serverError else notFound table id

/-- The order in which SQLAlchemy sends the statements of one flush. -/
structure FlushOrder where
  order : List Sql → List Sql
  perm : ∀ sql, (order sql).Perm sql

structure Session where
  identityMap : List (LinkTable × ℤ)
  deleted : List Link
  new : List Link
  sent : List Sql

namespace Session

def start : Session := ⟨[], [], [], []⟩

def delete (s : Session) (link : Link) : Session := { s with deleted := s.deleted ++ [link] }

def append (s : Session) (link : Link) : Session := { s with new := s.new ++ [link] }

/-- A row that is deleted and inserted in one flush is left as it is. -/
def flush (o : FlushOrder) (s : Session) : Session :=
  { s with
    deleted := []
    new := []
    sent := s.sent ++ o.order
      ((s.new.diff s.deleted).map .insert ++ (s.deleted.diff s.new).map .delete) }

def get (o : FlushOrder) (s : Session) (table : LinkTable) (id : ℤ) : Session :=
  if (table, id) ∈ s.identityMap then s
  else
    let s := s.flush o
    { s with
      identityMap := (table, id) :: s.identityMap
      sent := s.sent ++ [.lookup table id] }

def addLink (o : FlushOrder) (user : ℕ) (table : LinkTable) (s : Session) (id : ℤ) : Session :=
  (s.get o table id).append ⟨user, table, id⟩

end Session

def updateUserProfile (o : FlushOrder) (user : ℕ) (links : LinkTable → List Link)
    (data : UserProfileUpdate) : List Sql :=
  let s := (links .interest).foldl Session.delete .start
  let s := (links .language).foldl Session.delete s
  let s := (links .gender).foldl Session.delete s
  let s := data.interests.foldl (Session.addLink o user .interest) s
  let s := data.languages.foldl (Session.addLink o user .language) s
  let s :=
    match data.genderId with
    | none => s
    | some id => if id = 0 then s else s.addLink o user .gender id
  (s.flush o).sent ++ [.commit]

/-! ### Deletions come first -/

/-- What the loops append: a `gender_id` of zero counts as none. -/
def UserProfileUpdate.appended (data : UserProfileUpdate) (user : ℕ) : List Link :=
  data.interests.map (Link.mk user .interest) ++ data.languages.map (Link.mk user .language) ++
    (data.genderId.filter (· ≠ 0)).toList.map (Link.mk user .gender)

structure Sends (loaded asked : List Link) (sql : List Sql) : Prop where
  split : ∃ front rest, sql = front ++ rest ∧ front.Perm (loaded.map .delete) ∧
    (∀ link, .delete link ∉ rest) ∧ .commit ∉ rest ∧ ∀ link, .insert link ∈ rest ↔ link ∈ asked

theorem Sends.append {loaded asked asked' : List Link} {sql : List Sql}
    (h : Sends loaded asked sql) {more : List Sql} (hdelete : ∀ link, .delete link ∉ more)
    (hcommit : .commit ∉ more)
    (hinsert : ∀ link, link ∈ asked ∨ .insert link ∈ more ↔ link ∈ asked') :
    Sends loaded asked' (sql ++ more) := by
  obtain ⟨front, rest, rfl, hfront, hrest, hno, hasked⟩ := h.split
  refine ⟨front, rest ++ more, List.append_assoc .., hfront, ?_, ?_, ?_⟩
  · intro link hmem
    rcases List.mem_append.mp hmem with hmem | hmem
    · exact hrest link hmem
    · exact hdelete link hmem
  · simp [hno, hcommit]
  · intro link
    rw [List.mem_append, hasked, hinsert]

namespace Session
variable {o : FlushOrder} {loaded asked : List Link} {s : Session}

inductive Holds (loaded asked : List Link) (s : Session) : Prop
  | fresh (deleted : s.deleted = loaded) (new : s.new = []) (sent : s.sent = [])
      (read : s.identityMap = []) (none : asked = [])
  | under (sentLinks : List Link) (deleted : s.deleted = []) (sent : Sends loaded sentLinks s.sent)
      (all : ∀ link, link ∈ sentLinks ∨ link ∈ s.new ↔ link ∈ asked)

theorem Holds.flush (h : s.Holds loaded asked) : Sends loaded asked (s.flush o).sent := by
  cases h with
  | fresh deleted new sent read none =>
    have hsql : (s.flush o).sent = o.order (loaded.map .delete) ++ [] := by
      simp [Session.flush, deleted, new, sent]
    refine ⟨_, [], hsql, o.perm _, ?_, ?_, ?_⟩
    all_goals simp [none]
  | under sentLinks deleted sent all =>
    have hsql : (s.flush o).sent = s.sent ++ o.order (s.new.map .insert) := by
      simp [Session.flush, deleted]
    rw [hsql]
    refine sent.append ?_ ?_ ?_
    · intro link hmem
      simpa using (o.perm _).mem_iff.mp hmem
    · intro hmem
      simpa using (o.perm _).mem_iff.mp hmem
    · intro link
      rw [(o.perm _).mem_iff, ← all]
      simp

theorem Holds.get (h : s.Holds loaded asked) (table : LinkTable) (id : ℤ) :
    (s.get o table id).deleted = [] ∧ ∃ sentLinks, Sends loaded sentLinks (s.get o table id).sent ∧
      ∀ link, link ∈ sentLinks ∨ link ∈ (s.get o table id).new ↔ link ∈ asked := by
  by_cases hread : (table, id) ∈ s.identityMap
  · rw [Session.get, if_pos hread]
    cases h with
    | fresh deleted new sent read none =>
      rw [read] at hread
      cases hread
    | under sentLinks deleted sent all => exact ⟨deleted, sentLinks, sent, all⟩
  · have hsent : Sends loaded asked ((s.flush o).sent ++ [.lookup table id]) :=
      h.flush.append (by simp) (by simp) (by simp)
    rw [Session.get, if_neg hread]
    exact ⟨rfl, asked, hsent, by simp [Session.flush]⟩

theorem Holds.addLink (h : s.Holds loaded asked) (user : ℕ) (table : LinkTable) (id : ℤ) :
    (s.addLink o user table id).Holds loaded (asked ++ [⟨user, table, id⟩]) := by
  obtain ⟨hdeleted, sentLinks, hsent, hall⟩ := h.get (o := o) table id
  refine .under sentLinks hdeleted hsent fun link => ?_
  rw [List.mem_append, ← hall, Session.addLink, Session.append, List.mem_append, or_assoc]

theorem Holds.addLinks (h : s.Holds loaded asked) (user : ℕ) (table : LinkTable) (ids : List ℤ) :
    (ids.foldl (Session.addLink o user table) s).Holds loaded
      (asked ++ ids.map (Link.mk user table)) := by
  induction ids generalizing s asked with
  | nil => simpa using h
  | cons id ids ih => simpa using ih (h.addLink user table id)

theorem foldl_delete (links : List Link) (s : Session) :
    links.foldl Session.delete s = { s with deleted := s.deleted ++ links } := by
  induction links generalizing s with
  | nil => simp
  | cons link links ih => simp [ih, Session.delete]

end Session

def allLinks (links : LinkTable → List Link) : List Link :=
  links .interest ++ links .language ++ links .gender

theorem updateUserProfile_sends (o : FlushOrder) (user : ℕ) (links : LinkTable → List Link)
    (data : UserProfileUpdate) :
    ∃ sql, updateUserProfile o user links data = sql ++ [.commit] ∧
      Sends (allLinks links) (data.appended user) sql := by
  have hmarked : Session.Holds (allLinks links) []
      ((links .gender).foldl Session.delete ((links .language).foldl Session.delete
        ((links .interest).foldl Session.delete .start))) := by
    apply Session.Holds.fresh <;> simp [Session.foldl_delete, Session.start, allLinks]
  have hlanguages := (hmarked.addLinks (o := o) user .interest data.interests).addLinks
    (o := o) user .language data.languages
  refine ⟨_, rfl, ?_⟩
  cases hgender : data.genderId with
  | none => simpa [UserProfileUpdate.appended, hgender] using hlanguages.flush (o := o)
  | some id =>
    by_cases hid : id = 0
    · simpa [UserProfileUpdate.appended, hgender, Option.filter, hid] using hlanguages.flush (o := o)
    · simpa [UserProfileUpdate.appended, hgender, Option.filter, hid] using
        (hlanguages.addLink (o := o) user .gender id).flush (o := o)

/-! ### Reading the statements of a request in order -/

section Statements
variable {o : FlushOrder} {user : ℕ} {links : LinkTable → List Link} {data : UserProfileUpdate}
  {done rest : List Sql} {link : Link}

theorem UserProfileUpdate.user_of_appended (h : link ∈ data.appended user) : link.user = user := by
  simp only [UserProfileUpdate.appended, List.mem_append, List.mem_map] at h
  rcases h with (⟨id, -, rfl⟩ | ⟨id, -, rfl⟩) | ⟨id, -, rfl⟩
  all_goals rfl

theorem mem_of_insert (h : updateUserProfile o user links data = done ++ .insert link :: rest) :
    link ∈ data.appended user := by
  have hmem : .insert link ∈ updateUserProfile o user links data := by simp [h]
  obtain ⟨sql, hsql, hsends⟩ := updateUserProfile_sends o user links data
  obtain ⟨front, later, rfl, hfront, -, -, hasked⟩ := hsends.split
  simp only [hsql, List.mem_append, List.mem_singleton, hfront.mem_iff, List.mem_map, reduceCtorEq,
    and_false, exists_false, false_or, or_false] at hmem
  exact (hasked link).mp hmem

theorem mem_of_delete (h : updateUserProfile o user links data = done ++ .delete link :: rest) :
    link ∈ allLinks links := by
  have hmem : .delete link ∈ updateUserProfile o user links data := by simp [h]
  obtain ⟨sql, hsql, hsends⟩ := updateUserProfile_sends o user links data
  obtain ⟨front, later, rfl, hfront, hlater, -, -⟩ := hsends.split
  simp only [hsql, List.mem_append, List.mem_singleton, hfront.mem_iff, List.mem_map, hlater,
    reduceCtorEq, Sql.delete.injEq, exists_eq_right, or_false] at hmem
  exact hmem

theorem not_inserted_before_delete
    (h : updateUserProfile o user links data = done ++ .delete link :: rest) (k : Link) :
    .insert k ∉ done := by
  obtain ⟨sql, hsql, hsends⟩ := updateUserProfile_sends o user links data
  obtain ⟨front, later, rfl, hfront, hlater, -, -⟩ := hsends.split
  rw [hsql, List.append_assoc] at h
  rcases List.append_eq_append_iff.mp h with ⟨more, rfl, htail⟩ | ⟨more, rfl, -⟩
  · -- the deletion would stand behind the deletions
    have hmem : .delete link ∈ later ++ [Sql.commit] := by
      rw [htail]
      simp
    simp [hlater] at hmem
  · intro hk
    have hmem := hfront.mem_iff.mp (List.mem_append_left more hk)
    simp at hmem

theorem done_at_commit (h : updateUserProfile o user links data = done ++ .commit :: rest) :
    rest = [] ∧ Sends (allLinks links) (data.appended user) done := by
  obtain ⟨sql, hsql, hsends⟩ := updateUserProfile_sends o user links data
  have hno : Sql.commit ∉ sql := by
    obtain ⟨front, later, rfl, hfront, -, hno, -⟩ := hsends.split
    simp [hfront.mem_iff, hno]
  rw [hsql] at h
  rcases List.append_eq_append_iff.mp h with ⟨more, rfl, htail⟩ | ⟨more, rfl, htail⟩
  · cases more with
    | nil => exact ⟨by simpa using htail.symm, by simpa using hsends⟩
    | cons first more => simp at htail
  · cases more with
    | nil => exact ⟨by simpa using htail, by simpa using hsends⟩
    | cons first more =>
      obtain ⟨rfl, -⟩ := List.cons.inj htail
      simp at hno

theorem Sends.insert_mem {loaded asked : List Link} {sql : List Sql} (h : Sends loaded asked sql)
    (link : Link) : .insert link ∈ sql ↔ link ∈ asked := by
  obtain ⟨front, later, rfl, hfront, -, -, hasked⟩ := h.split
  simp [hfront.mem_iff, hasked]

theorem Sends.delete_mem {loaded asked : List Link} {sql : List Sql} (h : Sends loaded asked sql)
    (link : Link) : .delete link ∈ sql ↔ link ∈ loaded := by
  obtain ⟨front, later, rfl, hfront, hlater, -, -⟩ := h.split
  simp [hfront.mem_iff, hlater]

end Statements

end Nalang.Profiles
