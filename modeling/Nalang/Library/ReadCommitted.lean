import Nalang.Library.OrderedDict

/-!
# A table under READ COMMITTED

The rows are their own primary keys. A statement sees the rows that are committed
when it starts, and its transaction's own. What a transaction writes locks the key
until the transaction ends, and a statement of another one that needs the key waits.
A `DELETE` that has waited deletes the version of the row it saw when it started, or
nothing when that version is gone.
-/

set_option linter.unusedSectionVars false

namespace ReadCommitted
variable {Key Tx : Type*}

inductive Change
  | deleted
  | inserted
  deriving DecidableEq

/-- What a transaction has written to a key and not committed. -/
structure Write (Tx : Type*) where
  writer : Tx
  change : Change

/-- Every committed row stands with the number of the commit that wrote it. -/
structure Table (Key Tx : Type*) where
  rows : OrderedDict Key ℕ
  writes : OrderedDict Key (Write Tx)
  commits : ℕ

inductive Inserted (Key Tx : Type*)
  | waits
  | duplicateKey
  | done (t : Table Key Tx)

namespace Table

def ofRows (rows : OrderedDict Key ℕ) : Table Key Tx := ⟨rows, OrderedDict.empty, 0⟩

variable [DecidableEq Key] [DecidableEq Tx] {t t' : Table Key Tx} {tx tx' : Tx} {k j : Key}
  {c : Change}

def write (t : Table Key Tx) (tx : Tx) (k : Key) (c : Change) : Table Key Tx :=
  { t with writes := t.writes.set k ⟨tx, c⟩ }

/-- A `DELETE` that saw the version `target` when it started. It waits, or ends. -/
def delete (t : Table Key Tx) (tx : Tx) (k : Key) (target : Option ℕ) : Option (Table Key Tx) :=
  let gone := target = none ∨ t.rows.get? k ≠ target
  match t.writes.get? k with
  | none => some (if gone then t else t.write tx k .deleted)
  | some w =>
    if w.writer = tx then some (t.write tx k .deleted)
    else if gone then some t
    else none

def insert (t : Table Key Tx) (tx : Tx) (k : Key) : Inserted Key Tx :=
  match t.writes.get? k with
  | none => if k ∈ t.rows then .duplicateKey else .done (t.write tx k .inserted)
  | some w =>
    if w.writer = tx then
      match w.change with
      | .deleted => .done (t.write tx k .inserted)
      | .inserted => .duplicateKey
    else .waits

def applyWrite (commit : ℕ) (rows : OrderedDict Key ℕ) (e : Key × Write Tx) : OrderedDict Key ℕ :=
  match e.2.change with
  | .deleted => rows.erase e.1
  | .inserted => rows.set e.1 commit

def own (t : Table Key Tx) (tx : Tx) : List (Key × Write Tx) :=
  t.writes.entries.filter fun e => e.2.writer = tx

def release (t : Table Key Tx) (tx : Tx) : OrderedDict Key (Write Tx) :=
  t.writes.eraseAll ((t.own tx).map Prod.fst)

def commit (t : Table Key Tx) (tx : Tx) : Table Key Tx :=
  ⟨(t.own tx).foldl (applyWrite t.commits) t.rows, t.release tx, t.commits + 1⟩

def rollback (t : Table Key Tx) (tx : Tx) : Table Key Tx := { t with writes := t.release tx }

/-! ### What one statement changes -/

def Wrote (t : Table Key Tx) (tx : Tx) (k : Key) (c : Change) : Prop :=
  t.writes.get? k = some ⟨tx, c⟩

def Free (t : Table Key Tx) (tx : Tx) (k : Key) : Prop :=
  ∀ w, t.writes.get? k = some w → w.writer = tx

@[simp] theorem write_rows (t : Table Key Tx) (tx : Tx) (k : Key) (c : Change) :
    (t.write tx k c).rows = t.rows := rfl

theorem not_wrote_ofRows (rows : OrderedDict Key ℕ) (tx : Tx) (k : Key) (c : Change) :
    ¬ (ofRows rows).Wrote tx k c := by
  intro h
  cases h

theorem wrote_write_self {d : Change} :
    (t.write tx k c).Wrote tx j d ↔ (j = k ∧ d = c) ∨ (j ≠ k ∧ t.Wrote tx j d) := by
  simp only [Wrote, write, OrderedDict.get?_set_eq_some, Write.mk.injEq, true_and]

theorem wrote_write_other {d : Change} (hfree : t.Free tx k) (h : tx' ≠ tx) :
    (t.write tx k c).Wrote tx' j d ↔ t.Wrote tx' j d := by
  simp only [Wrote, write, OrderedDict.get?_set_eq_some, Write.mk.injEq]
  constructor
  · rintro (⟨-, heq, -⟩ | ⟨-, hw⟩)
    · exact absurd heq h
    · exact hw
  · intro hw
    by_cases hj : j = k
    · exact absurd (hfree _ (hj ▸ hw)) h
    · exact .inr ⟨hj, hw⟩

theorem delete_cases {target : Option ℕ} (h : t.delete tx k target = some t') :
    (t' = t ∧ (target = none ∨ t.rows.get? k ≠ target)) ∨
      (t' = t.write tx k .deleted ∧ t.Free tx k) := by
  simp only [delete] at h
  cases hw : t.writes.get? k with
  | none =>
    have hfree : t.Free tx k := by
      intro w hget
      rw [hw] at hget
      cases hget
    rw [hw] at h
    split_ifs at h with hgone <;> cases h
    · exact .inl ⟨rfl, hgone⟩
    · exact .inr ⟨rfl, hfree⟩
  | some w =>
    simp only [hw] at h
    split_ifs at h with hown hgone <;> cases h
    · refine .inr ⟨rfl, fun w' hget => ?_⟩
      rw [hw] at hget
      cases hget
      exact hown
    · exact .inl ⟨rfl, hgone⟩

theorem insert_done (h : t.insert tx k = .done t') :
    t' = t.write tx k .inserted ∧ t.Free tx k := by
  simp only [insert] at h
  cases hw : t.writes.get? k with
  | none =>
    simp only [hw] at h
    split_ifs at h
    cases h
    refine ⟨rfl, fun w hget => ?_⟩
    rw [hw] at hget
    cases hget
  | some w =>
    obtain ⟨writer, change⟩ := w
    simp only [hw] at h
    split_ifs at h with hown
    cases change with
    | deleted =>
      cases h
      refine ⟨rfl, fun w hget => ?_⟩
      rw [hw] at hget
      cases hget
      exact hown
    | inserted => cases h

/-! ### The end of a transaction -/

theorem mem_own {e : Key × Write Tx} :
    e ∈ t.own tx ↔ t.Wrote tx e.1 e.2.change ∧ e.2.writer = tx := by
  obtain ⟨j, writer, change⟩ := e
  simp only [own, Wrote, List.mem_filter, decide_eq_true_eq, OrderedDict.get?_eq_some]
  constructor
  · rintro ⟨hmem, rfl⟩
    exact ⟨hmem, rfl⟩
  · rintro ⟨hmem, rfl⟩
    exact ⟨hmem, rfl⟩

theorem mem_own_keys : k ∈ (t.own tx).map Prod.fst ↔ ∃ c, t.Wrote tx k c := by
  rw [List.mem_map]
  constructor
  · rintro ⟨e, he, rfl⟩
    exact ⟨_, (mem_own.mp he).1⟩
  · rintro ⟨c, hc⟩
    exact ⟨(k, ⟨tx, c⟩), mem_own.mpr ⟨hc, rfl⟩, rfl⟩

theorem wrote_release {writes : OrderedDict Key (Write Tx)} (h : writes = t.release tx) :
    writes.get? k = some ⟨tx', c⟩ ↔ t.Wrote tx' k c ∧ tx' ≠ tx := by
  rw [h, release, OrderedDict.get?_eq_some, OrderedDict.mem_entries_eraseAll,
    ← OrderedDict.get?_eq_some, mem_own_keys]
  constructor
  · rintro ⟨hw, hnot⟩
    refine ⟨hw, fun heq => hnot ⟨c, ?_⟩⟩
    rw [← heq]
    exact hw
  · rintro ⟨hw, hne⟩
    refine ⟨hw, ?_⟩
    rintro ⟨c', hc'⟩
    rw [Wrote] at hw hc'
    rw [hw] at hc'
    cases hc'
    exact hne rfl

@[simp] theorem wrote_commit : (t.commit tx).Wrote tx' k c ↔ t.Wrote tx' k c ∧ tx' ≠ tx :=
  wrote_release rfl

@[simp] theorem wrote_rollback : (t.rollback tx).Wrote tx' k c ↔ t.Wrote tx' k c ∧ tx' ≠ tx :=
  wrote_release rfl

theorem get?_applyWrite_ne {n : ℕ} {rows : OrderedDict Key ℕ} {e : Key × Write Tx} (h : k ≠ e.1) :
    (applyWrite n rows e).get? k = rows.get? k := by
  unfold applyWrite
  cases e.2.change with
  | deleted => exact OrderedDict.get?_erase_ne rows h
  | inserted => exact OrderedDict.get?_set_ne rows n h

theorem get?_applyWrites_of_not_mem {n : ℕ} {ws : List (Key × Write Tx)} {rows : OrderedDict Key ℕ}
    (h : k ∉ ws.map Prod.fst) : (ws.foldl (applyWrite n) rows).get? k = rows.get? k := by
  induction ws generalizing rows with
  | nil => rfl
  | cons e ws ih =>
    rw [List.map_cons, List.mem_cons, not_or] at h
    rw [List.foldl_cons, ih h.2, get?_applyWrite_ne h.1]

theorem mem_applyWrites_of_mem {n : ℕ} {ws : List (Key × Write Tx)} {rows : OrderedDict Key ℕ}
    (hn : (ws.map Prod.fst).Nodup) {e : Key × Write Tx} (he : e ∈ ws) :
    e.1 ∈ ws.foldl (applyWrite n) rows ↔ e.2.change = .inserted := by
  induction ws generalizing rows with
  | nil => cases he
  | cons e' ws ih =>
    rw [List.map_cons, List.nodup_cons] at hn
    rw [List.foldl_cons]
    rcases List.mem_cons.mp he with rfl | he
    · have hrest : (ws.foldl (applyWrite n) (applyWrite n rows e)).get? e.1 =
          (applyWrite n rows e).get? e.1 := get?_applyWrites_of_not_mem hn.1
      rw [← not_iff_not, ← OrderedDict.get?_eq_none, hrest, OrderedDict.get?_eq_none, applyWrite]
      cases e.2.change with
      | deleted => simp
      | inserted => simp
    · exact ih hn.2 he

theorem own_nodup (t : Table Key Tx) (tx : Tx) : ((t.own tx).map Prod.fst).Nodup :=
  t.writes.nodup.sublist (List.filter_sublist.map Prod.fst)

theorem get?_commit_of_not_wrote (h : ∀ c, ¬ t.Wrote tx k c) :
    (t.commit tx).rows.get? k = t.rows.get? k := by
  refine get?_applyWrites_of_not_mem fun hmem => ?_
  obtain ⟨c, hc⟩ := mem_own_keys.mp hmem
  exact h c hc

theorem mem_commit_of_wrote (h : t.Wrote tx k c) : k ∈ (t.commit tx).rows ↔ c = .inserted :=
  mem_applyWrites_of_mem (t.own_nodup tx) (mem_own.mpr ⟨h, rfl⟩ : (k, ⟨tx, c⟩) ∈ t.own tx)

theorem mem_commit : k ∈ (t.commit tx).rows ↔
    t.Wrote tx k .inserted ∨ (k ∈ t.rows ∧ ∀ c, ¬ t.Wrote tx k c) := by
  by_cases hw : ∃ c, t.Wrote tx k c
  · obtain ⟨c, hc⟩ := hw
    rw [mem_commit_of_wrote hc]
    constructor
    · rintro rfl
      exact .inl hc
    · rintro (hins | ⟨-, hnot⟩)
      · rw [Wrote] at hins hc
        rw [hc] at hins
        cases hins
        rfl
      · exact absurd hc (hnot c)
  · have hnot : ∀ c, ¬ t.Wrote tx k c := fun c hc => hw ⟨c, hc⟩
    rw [← not_iff_not, ← OrderedDict.get?_eq_none, get?_commit_of_not_wrote hnot,
      OrderedDict.get?_eq_none]
    simp [hnot]

end Table
end ReadCommitted
