import Nalang.Library.ReadCommitted
import Nalang.Library.Transition
import Nalang.Profiles.UnitOfWork

/-!
# Profile updates that run side by side

Every request loads the links of its user with one `SELECT` a table, sends the
statements of `update_user_profile`, and commits. Between two statements of one
request, any number of statements of others may run.
-/

namespace Nalang.Profiles
open Accounts ReadCommitted Transition

/-- The rows of the tables that links refer to. Their keys come from sequences. -/
structure Catalog where
  ids : LinkTable → List ℤ
  pos : ∀ table, ∀ id ∈ ids table, 0 < id

/-- A request `POST /me/profile`, with the orders SQLAlchemy chooses for it. -/
structure Save where
  user : ℕ
  data : UserProfileUpdate
  loadOrder : List LinkTable
  loadsAll : ∀ table, table ∈ loadOrder
  flushOrder : FlushOrder

def Save.sql (save : Save) (links : LinkTable → List Link) : List Sql :=
  updateUserProfile save.flushOrder save.user links save.data

inductive Phase
  | loading (tables : List LinkTable) (links : LinkTable → List Link)
  | sending (sql : List Sql)
  | deleting (link : Link) (target : Option ℕ) (rest : List Sql)
  | raised (e : HttpError)
  | committed
  | failed (e : HttpError)

structure State (Tx : Type) where
  table : Table Link Tx
  phase : Tx → Phase

inductive Label (Tx : Type)
  | runs (tx : Tx)
  /-- The database refuses the statement, to resolve a deadlock for instance. -/
  | fails (tx : Tx)

variable {Tx : Type} [DecidableEq Tx]

def State.start (saves : Tx → Save) (rows : OrderedDict Link ℕ) : State Tx :=
  ⟨.ofRows rows, fun tx => .loading (saves tx).loadOrder fun _ => []⟩

def State.select (st : State Tx) (user : ℕ) (table : LinkTable) : List Link :=
  st.table.rows.keys.filter fun l => l.user = user ∧ l.table = table

def State.next (st : State Tx) (tx : Tx) (table : Table Link Tx) (phase : Phase) : State Tx :=
  ⟨table, Function.update st.phase tx phase⟩

/-- The next step of a request, unless it waits for another one or has ended. -/
def advance (catalog : Catalog) (save : Save) (st : State Tx) (tx : Tx) : Option (State Tx) :=
  match st.phase tx with
  | .loading (table :: tables) links =>
    let loaded := Function.update links table (st.select save.user table)
    some (st.next tx st.table (.loading tables loaded))
  | .loading [] links => some (st.next tx st.table (.sending (save.sql links)))
  | .sending (.lookup table id :: rest) =>
    some (st.next tx st.table
      (if id ∈ catalog.ids table then .sending rest else .raised (lookupError table id)))
  | .sending (.delete link :: rest) =>
    some (st.next tx st.table (.deleting link (st.table.rows.get? link) rest))
  | .sending (.insert link :: rest) =>
    match st.table.insert tx link with
    | .waits => none
    | .duplicateKey => some (st.next tx st.table (.raised .serverError))
    | .done table => some (st.next tx table (.sending rest))
  | .sending (.commit :: _) => some (st.next tx (st.table.commit tx) .committed)
  | .sending [] => none
  | .deleting link target rest =>
    match st.table.delete tx link target with
    | none => none
    | some table => some (st.next tx table (.sending rest))
  | .raised e => some (st.next tx (st.table.rollback tx) (.failed e))
  | .committed => none
  | .failed _ => none

def Phase.Open : Phase → Bool
  | .loading _ _ | .sending _ | .deleting _ _ _ => true
  | .raised _ | .committed | .failed _ => false

def step (catalog : Catalog) (saves : Tx → Save) (st : State Tx) : Label Tx → Option (State Tx)
  | .runs tx => advance catalog (saves tx) st tx
  | .fails tx =>
    if (st.phase tx).Open then some (st.next tx st.table (.raised .serverError)) else none

def saving (catalog : Catalog) (saves : Tx → Save) : Lts (State Tx) (Label Tx) :=
  .ofStep (step catalog saves)

/-! ### What a step does -/

def Label.tx : Label Tx → Tx
  | .runs tx | .fails tx => tx

inductive Effect (save : Save) (st : State Tx) (tx : Tx) : State Tx → Prop
  | loads {table tables links} (h : st.phase tx = .loading (table :: tables) links) :
      Effect save st tx (st.next tx st.table
        (.loading tables (Function.update links table (st.select save.user table))))
  | starts {links} (h : st.phase tx = .loading [] links) :
      Effect save st tx (st.next tx st.table (.sending (save.sql links)))
  | finds {table id rest} (h : st.phase tx = .sending (.lookup table id :: rest)) :
      Effect save st tx (st.next tx st.table (.sending rest))
  | seeks {link rest} (h : st.phase tx = .sending (.delete link :: rest)) :
      Effect save st tx (st.next tx st.table (.deleting link (st.table.rows.get? link) rest))
  | passes {link target rest} (h : st.phase tx = .deleting link target rest)
      (gone : target = none ∨ st.table.rows.get? link ≠ target) :
      Effect save st tx (st.next tx st.table (.sending rest))
  | deletes {link target rest} (h : st.phase tx = .deleting link target rest)
      (free : st.table.Free tx link) :
      Effect save st tx (st.next tx (st.table.write tx link .deleted) (.sending rest))
  | inserts {link rest} (h : st.phase tx = .sending (.insert link :: rest))
      (free : st.table.Free tx link) :
      Effect save st tx (st.next tx (st.table.write tx link .inserted) (.sending rest))
  | raises {e} (h : (st.phase tx).Open) : Effect save st tx (st.next tx st.table (.raised e))
  | commits {rest} (h : st.phase tx = .sending (.commit :: rest)) :
      Effect save st tx (st.next tx (st.table.commit tx) .committed)
  | ends {e} (h : st.phase tx = .raised e) :
      Effect save st tx (st.next tx (st.table.rollback tx) (.failed e))

theorem effect_of_advance {catalog : Catalog} {save : Save} {st st' : State Tx} {tx : Tx}
    (h : advance catalog save st tx = some st') : Effect save st tx st' := by
  unfold advance at h
  cases hphase : st.phase tx with
  | loading tables links =>
    cases tables with
    | nil =>
      simp only [hphase, Option.some.injEq] at h
      exact h ▸ .starts hphase
    | cons table tables =>
      simp only [hphase, Option.some.injEq] at h
      exact h ▸ .loads hphase
  | sending sql =>
    cases sql with
    | nil => simp [hphase] at h
    | cons first rest =>
      cases first with
      | lookup table id =>
        simp only [hphase, Option.some.injEq] at h
        split_ifs at h
        · exact h ▸ .finds hphase
        · exact h ▸ .raises (by rw [hphase]; rfl)
      | delete link =>
        simp only [hphase, Option.some.injEq] at h
        exact h ▸ .seeks hphase
      | insert link =>
        cases hins : st.table.insert tx link with
        | waits => simp [hphase, hins] at h
        | duplicateKey =>
          simp only [hphase, hins, Option.some.injEq] at h
          exact h ▸ .raises (by rw [hphase]; rfl)
        | done table =>
          obtain ⟨rfl, hfree⟩ := Table.insert_done hins
          simp only [hphase, hins, Option.some.injEq] at h
          exact h ▸ .inserts hphase hfree
      | commit =>
        simp only [hphase, Option.some.injEq] at h
        exact h ▸ .commits hphase
  | deleting link target rest =>
    cases hdel : st.table.delete tx link target with
    | none => simp [hphase, hdel] at h
    | some table =>
      simp only [hphase, hdel, Option.some.injEq] at h
      rcases Table.delete_cases hdel with ⟨rfl, hgone⟩ | ⟨rfl, hfree⟩
      · exact h ▸ .passes hphase hgone
      · exact h ▸ .deletes hphase hfree
  | raised e =>
    simp only [hphase, Option.some.injEq] at h
    exact h ▸ .ends hphase
  | committed => simp [hphase] at h
  | failed e => simp [hphase] at h

theorem effect_of_step {catalog : Catalog} {saves : Tx → Save} {st st' : State Tx} {l : Label Tx}
    (h : step catalog saves st l = some st') : Effect (saves l.tx) st l.tx st' := by
  cases l with
  | runs tx => exact effect_of_advance h
  | fails tx =>
    simp only [step] at h
    split_ifs at h with hopen
    cases h
    exact .raises hopen

end Nalang.Profiles
