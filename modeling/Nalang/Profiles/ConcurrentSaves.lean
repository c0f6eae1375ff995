import Nalang.Profiles.Saves

/-!
# What concurrent profile updates leave behind

A request deletes the links it loaded. Links that another request has committed in
the meantime stay beside its own ones, so the stored profile is one that was asked for
as long as every commit finds only links that its own request has written to.
-/

namespace Nalang.Profiles
open Accounts ReadCommitted Transition

variable {Tx : Type} [DecidableEq Tx] {catalog : Catalog} {saves : Tx → Save} {save : Save}
  {st st' : State Tx} {tx tx' : Tx} {u : ℕ}

/-! ### What a request has written -/

structure Sent (save : Save) (wrote : Link → Change → Prop) (sql : List Sql) : Prop where
  soFar : ∃ links done, save.sql links = done ++ sql ∧
    (∀ link ∈ allLinks links, link.user = save.user) ∧
    ∀ link, wrote link .inserted ↔ .insert link ∈ done
  own : ∀ link c, wrote link c → link.user = save.user

def Kept (save : Save) (wrote : Link → Change → Prop) : Phase → Prop
  | .loading _ links =>
    (∀ table, ∀ link ∈ links table, link.user = save.user) ∧ ∀ link c, ¬ wrote link c
  | .sending sql => Sent save wrote sql
  | .deleting link _ rest => Sent save wrote (.delete link :: rest)
  | .raised _ => ∀ link c, wrote link c → link.user = save.user
  | .committed | .failed _ => ∀ link c, ¬ wrote link c

theorem Kept.own {wrote : Link → Change → Prop} {phase : Phase} (h : Kept save wrote phase)
    {link : Link} {c : Change} (hw : wrote link c) : link.user = save.user := by
  cases phase with
  | loading tables links => exact absurd hw (h.2 link c)
  | sending sql => exact Sent.own h link c hw
  | deleting target seen rest => exact Sent.own h link c hw
  | raised e => exact h link c hw
  | committed => exact absurd hw (h link c)
  | failed e => exact absurd hw (h link c)

theorem mem_allLinks {links : LinkTable → List Link} {link : Link} :
    link ∈ allLinks links ↔ ∃ table, link ∈ links table := by
  simp only [allLinks, List.mem_append]
  constructor
  · rintro ((h | h) | h)
    all_goals exact ⟨_, h⟩
  · rintro ⟨table, h⟩
    cases table with
    | interest => exact .inl (.inl h)
    | language => exact .inl (.inr h)
    | gender => exact .inr h

section Sent
variable {wrote wrote' : Link → Change → Prop} {first : Sql} {rest : List Sql} {link : Link}

theorem Sent.skip (h : Sent save wrote (first :: rest)) (hfirst : ∀ l, first ≠ .insert l) :
    Sent save wrote rest := by
  obtain ⟨links, done, hsql, hloaded, hins⟩ := h.soFar
  refine ⟨⟨links, done ++ [first], by simpa using hsql, hloaded, fun l => ?_⟩, h.own⟩
  rw [hins, List.mem_append, List.mem_singleton]
  constructor
  · exact .inl
  · rintro (hl | hl)
    · exact hl
    · exact absurd hl.symm (hfirst l)

theorem Sent.user_of_delete (h : Sent save wrote (.delete link :: rest)) :
    link.user = save.user := by
  obtain ⟨links, done, hsql, hloaded, -⟩ := h.soFar
  exact hloaded link (mem_of_delete hsql)

theorem Sent.user_of_insert (h : Sent save wrote (.insert link :: rest)) :
    link.user = save.user := by
  obtain ⟨links, done, hsql, hloaded, -⟩ := h.soFar
  exact UserProfileUpdate.user_of_appended (mem_of_insert hsql)

theorem Sent.deleted (h : Sent save wrote (.delete link :: rest))
    (hwrote : ∀ l c, wrote' l c ↔ (l = link ∧ c = .deleted) ∨ (l ≠ link ∧ wrote l c)) :
    Sent save wrote' rest := by
  have huser := h.user_of_delete
  obtain ⟨links, done, hsql, hloaded, hins⟩ := h.soFar
  refine ⟨⟨links, done ++ [.delete link], by simpa using hsql, hloaded, fun l => ?_⟩, ?_⟩
  · have hnot := not_inserted_before_delete hsql
    rw [hwrote, hins]
    simp [hnot]
  · intro l c hw
    rcases (hwrote l c).mp hw with ⟨rfl, -⟩ | ⟨-, hw⟩
    · exact huser
    · exact h.own l c hw

theorem Sent.inserted (h : Sent save wrote (.insert link :: rest))
    (hwrote : ∀ l c, wrote' l c ↔ (l = link ∧ c = .inserted) ∨ (l ≠ link ∧ wrote l c)) :
    Sent save wrote' rest := by
  have huser := h.user_of_insert
  obtain ⟨links, done, hsql, hloaded, hins⟩ := h.soFar
  refine ⟨⟨links, done ++ [.insert link], by simpa using hsql, hloaded, fun l => ?_⟩, ?_⟩
  · rw [hwrote, hins, List.mem_append, List.mem_singleton, Sql.insert.injEq]
    by_cases hl : l = link
    · simp [hl]
    · simp [hl]
  · intro l c hw
    rcases (hwrote l c).mp hw with ⟨rfl, -⟩ | ⟨-, hw⟩
    · exact huser
    · exact h.own l c hw

theorem Sent.asked (h : Sent save wrote (.commit :: rest)) (l : Link) :
    wrote l .inserted ↔ l ∈ save.data.appended save.user := by
  obtain ⟨links, done, hsql, -, hins⟩ := h.soFar
  rw [hins, (done_at_commit hsql).2.insert_mem]

end Sent

/-! ### One step -/

theorem Effect.other (h : Effect save st tx st') (hne : tx' ≠ tx) :
    st'.phase tx' = st.phase tx' ∧ st'.table.Wrote tx' = st.table.Wrote tx' := by
  have hphase : ∀ table phase, (st.next tx table phase).phase tx' = st.phase tx' :=
    fun table phase => Function.update_of_ne hne _ _
  cases h with
  | deletes _ free =>
    exact ⟨hphase _ _, funext fun l => funext fun c => propext (Table.wrote_write_other free hne)⟩
  | inserts _ free =>
    exact ⟨hphase _ _, funext fun l => funext fun c => propext (Table.wrote_write_other free hne)⟩
  | commits _ =>
    refine ⟨hphase _ _, funext fun l => funext fun c => propext ?_⟩
    exact Table.wrote_commit.trans (and_iff_left hne)
  | ends _ =>
    refine ⟨hphase _ _, funext fun l => funext fun c => propext ?_⟩
    exact Table.wrote_rollback.trans (and_iff_left hne)
  | _ => exact ⟨hphase _ _, rfl⟩

@[simp] theorem next_phase_self (st : State Tx) (tx : Tx) (table : Table Link Tx) (phase : Phase) :
    (st.next tx table phase).phase tx = phase := Function.update_self ..

@[simp] theorem next_table (st : State Tx) (tx : Tx) (table : Table Link Tx) (phase : Phase) :
    (st.next tx table phase).table = table := rfl

omit [DecidableEq Tx] in
theorem mem_select {user : ℕ} {table : LinkTable} {link : Link} :
    link ∈ st.select user table ↔ link ∈ st.table.rows ∧ link.user = user ∧ link.table = table := by
  simp [State.select, OrderedDict.mem_def]

theorem Effect.kept_self (h : Effect save st tx st')
    (hk : Kept save (st.table.Wrote tx) (st.phase tx)) :
    Kept save (st'.table.Wrote tx) (st'.phase tx) := by
  cases h with
  | @loads table tables links h =>
    rw [h] at hk
    rw [next_phase_self]
    refine ⟨fun t link hlink => ?_, hk.2⟩
    by_cases ht : t = table
    · rw [ht, Function.update_self] at hlink
      exact (mem_select.mp hlink).2.1
    · rw [Function.update_of_ne ht] at hlink
      exact hk.1 t link hlink
  | @starts links h =>
    rw [h] at hk
    rw [next_phase_self]
    refine ⟨⟨links, [], rfl, fun link hlink => ?_, fun link => ?_⟩, fun link c hw => ?_⟩
    · obtain ⟨table, hlink⟩ := mem_allLinks.mp hlink
      exact hk.1 table link hlink
    · simpa using hk.2 link .inserted
    · exact absurd hw (hk.2 link c)
  | finds h =>
    rw [h] at hk
    rw [next_phase_self]
    exact Sent.skip hk (by simp)
  | seeks h =>
    rw [h] at hk
    rw [next_phase_self]
    exact hk
  | passes h gone =>
    rw [h] at hk
    rw [next_phase_self]
    exact Sent.skip hk (by simp)
  | deletes h free =>
    rw [h] at hk
    rw [next_phase_self]
    exact Sent.deleted hk fun l c => Table.wrote_write_self
  | inserts h free =>
    rw [h] at hk
    rw [next_phase_self]
    exact Sent.inserted hk fun l c => Table.wrote_write_self
  | raises h =>
    rw [next_phase_self]
    exact fun link c hw => hk.own hw
  | commits h =>
    rw [next_phase_self]
    exact fun link c hw => (Table.wrote_commit.mp hw).2 rfl
  | ends h =>
    rw [next_phase_self]
    exact fun link c hw => (Table.wrote_rollback.mp hw).2 rfl

def AllKept (saves : Tx → Save) (st : State Tx) : Prop :=
  ∀ tx, Kept (saves tx) (st.table.Wrote tx) (st.phase tx)

theorem allKept_start (saves : Tx → Save) (rows : OrderedDict Link ℕ) :
    AllKept saves (.start saves rows) := by
  intro tx
  refine ⟨fun table link hlink => ?_, fun link c => Table.not_wrote_ofRows rows tx link c⟩
  cases hlink

theorem Effect.allKept (h : Effect (saves tx) st tx st') (hk : AllKept saves st) :
    AllKept saves st' := by
  intro tx'
  by_cases htx : tx' = tx
  · rw [htx]
    exact h.kept_self (hk tx)
  · obtain ⟨hphase, hwrote⟩ := h.other htx
    rw [hphase, hwrote]
    exact hk tx'

/-! ### Before the first profile is replaced -/

section Unspoilt
variable {rows rows' : OrderedDict Link ℕ} {wrote wrote' : Link → Change → Prop}

def Covered (save : Save) (rows : OrderedDict Link ℕ) (wrote : Link → Change → Prop)
    (sql : List Sql) : Prop :=
  ∃ links done, save.sql links = done ++ sql ∧
    (∀ link, link ∈ allLinks links ↔ link.user = save.user ∧ link ∈ rows) ∧
    ∀ link, .delete link ∈ done → ∃ c, wrote link c

def Unspoilt (save : Save) (rows : OrderedDict Link ℕ) (wrote : Link → Change → Prop) :
    Phase → Prop
  | .loading tables links =>
    (∀ table, ∀ link ∈ links table, link.user = save.user ∧ link ∈ rows) ∧
      ∀ link, link.user = save.user → link ∈ rows → link.table ∉ tables → link ∈ links link.table
  | .sending sql => Covered save rows wrote sql
  | .deleting link target rest =>
    target = rows.get? link ∧ Covered save rows wrote (.delete link :: rest)
  | .raised _ | .committed | .failed _ => True

theorem mem_congr_get? {link : Link} (h : rows'.get? link = rows.get? link) :
    link ∈ rows' ↔ link ∈ rows := by
  rw [← not_iff_not, ← OrderedDict.get?_eq_none, h, OrderedDict.get?_eq_none]

theorem Covered.congr {sql : List Sql} (h : Covered save rows wrote sql)
    (hrows : ∀ link, link.user = save.user → rows'.get? link = rows.get? link) :
    Covered save rows' wrote sql := by
  obtain ⟨links, done, hsql, hall, hdone⟩ := h
  refine ⟨links, done, hsql, fun link => ?_, hdone⟩
  rw [hall]
  exact and_congr_right fun huser => (mem_congr_get? (hrows link huser)).symm

theorem Covered.user_of_delete {link : Link} {rest : List Sql}
    (h : Covered save rows wrote (.delete link :: rest)) :
    link.user = save.user ∧ link ∈ rows := by
  obtain ⟨links, done, hsql, hall, -⟩ := h
  exact (hall link).mp (mem_of_delete hsql)

theorem Unspoilt.congr {phase : Phase} (h : Unspoilt save rows wrote phase)
    (hrows : ∀ link, link.user = save.user → rows'.get? link = rows.get? link) :
    Unspoilt save rows' wrote phase := by
  cases phase with
  | loading tables links =>
    refine ⟨fun table link hlink => ?_, fun link huser hmem => ?_⟩
    · obtain ⟨huser, hmem⟩ := h.1 table link hlink
      exact ⟨huser, (mem_congr_get? (hrows link huser)).mpr hmem⟩
    · exact h.2 link huser ((mem_congr_get? (hrows link huser)).mp hmem)
  | sending sql => exact Covered.congr h hrows
  | deleting link target rest =>
    obtain ⟨htarget, hcovered⟩ := h
    refine ⟨?_, hcovered.congr hrows⟩
    rw [htarget, hrows link hcovered.user_of_delete.1]
  | raised e => trivial
  | committed => trivial
  | failed e => trivial

theorem Covered.next {first : Sql} {rest : List Sql} (h : Covered save rows wrote (first :: rest))
    (hkeep : ∀ link, (∃ c, wrote link c) → ∃ c, wrote' link c)
    (hfirst : ∀ link, first = .delete link → ∃ c, wrote' link c) : Covered save rows wrote' rest := by
  obtain ⟨links, done, hsql, hall, hdone⟩ := h
  refine ⟨links, done ++ [first], by simpa using hsql, hall, fun link hlink => ?_⟩
  rcases List.mem_append.mp hlink with hlink | hlink
  · exact hkeep link (hdone link hlink)
  · exact hfirst link (List.mem_singleton.mp hlink).symm

end Unspoilt

theorem wrote_write {link : Link} {c : Change} (l : Link) :
    ((∃ d, st.table.Wrote tx l d) → ∃ d, (st.table.write tx link c).Wrote tx l d) := by
  rintro ⟨d, hd⟩
  by_cases hl : l = link
  · exact ⟨c, Table.wrote_write_self.mpr (.inl ⟨hl, rfl⟩)⟩
  · exact ⟨d, Table.wrote_write_self.mpr (.inr ⟨hl, hd⟩)⟩

omit [DecidableEq Tx] in
theorem unspoilt_loads {wrote : Link → Change → Prop} {table : LinkTable} {tables : List LinkTable}
    {links : LinkTable → List Link}
    (hu : Unspoilt save st.table.rows wrote (.loading (table :: tables) links)) :
    Unspoilt save st.table.rows wrote
      (.loading tables (Function.update links table (st.select save.user table))) := by
  refine ⟨fun t link hlink => ?_, fun link huser hmem hnot => ?_⟩
  · by_cases ht : t = table
    · rw [ht, Function.update_self] at hlink
      obtain ⟨hmem, huser, -⟩ := mem_select.mp hlink
      exact ⟨huser, hmem⟩
    · rw [Function.update_of_ne ht] at hlink
      exact hu.1 t link hlink
  · by_cases ht : link.table = table
    · rw [ht, Function.update_self]
      exact mem_select.mpr ⟨hmem, huser, ht⟩
    · rw [Function.update_of_ne ht]
      refine hu.2 link huser hmem ?_
      rw [List.mem_cons, not_or]
      exact ⟨ht, hnot⟩

theorem mem_loaded {rows : OrderedDict Link ℕ} {wrote : Link → Change → Prop}
    {links : LinkTable → List Link} (hu : Unspoilt save rows wrote (.loading [] links))
    (link : Link) : link ∈ allLinks links ↔ link.user = save.user ∧ link ∈ rows := by
  rw [mem_allLinks]
  constructor
  · rintro ⟨table, hlink⟩
    exact hu.1 table link hlink
  · rintro ⟨huser, hmem⟩
    exact ⟨_, hu.2 link huser hmem List.not_mem_nil⟩

theorem covered_starts {rows : OrderedDict Link ℕ} {wrote : Link → Change → Prop}
    {links : LinkTable → List Link} (hu : Unspoilt save rows wrote (.loading [] links)) :
    Covered save rows wrote (save.sql links) := by
  refine ⟨links, [], rfl, mem_loaded hu, fun link hlink => ?_⟩
  cases hlink

theorem Effect.unspoilt_self (h : Effect save st tx st')
    (hu : Unspoilt save st.table.rows (st.table.Wrote tx) (st.phase tx))
    (hrows : ∀ link, link.user = save.user → st'.table.rows.get? link = st.table.rows.get? link) :
    Unspoilt save st'.table.rows (st'.table.Wrote tx) (st'.phase tx) := by
  refine Unspoilt.congr ?_ hrows
  cases h with
  | @loads table tables links h =>
    rw [h] at hu
    rw [next_phase_self]
    exact unspoilt_loads hu
  | @starts links h =>
    rw [h] at hu
    rw [next_phase_self]
    exact covered_starts hu
  | finds h =>
    rw [h] at hu
    rw [next_phase_self]
    exact Covered.next hu (fun _ hw => hw) (by simp)
  | seeks h =>
    rw [h] at hu
    rw [next_phase_self]
    exact ⟨rfl, hu⟩
  | @passes link target rest h gone =>
    rw [h] at hu
    obtain ⟨htarget, hcovered⟩ := hu
    rcases gone with hnone | hother
    · rw [htarget, OrderedDict.get?_eq_none] at hnone
      exact absurd hcovered.user_of_delete.2 hnone
    · exact absurd htarget.symm hother
  | deletes h free =>
    rw [h] at hu
    rw [next_phase_self]
    refine Covered.next hu.2 wrote_write fun link hlink => ?_
    cases hlink
    exact ⟨.deleted, Table.wrote_write_self.mpr (.inl ⟨rfl, rfl⟩)⟩
  | inserts h free =>
    rw [h] at hu
    rw [next_phase_self]
    exact Covered.next hu wrote_write (by simp)
  | raises h =>
    rw [next_phase_self]
    trivial
  | commits h =>
    rw [next_phase_self]
    trivial
  | ends h =>
    rw [next_phase_self]
    trivial

/-! ### Whole runs -/

def OwnLinks (saves : Tx → Save) (st : State Tx) (tx : Tx) : Prop :=
  (∀ link, link.user = (saves tx).user → link ∈ st.table.rows → ∃ c, st.table.Wrote tx link c) ∨
    ∀ link c, ¬ st.table.Wrote tx link c

def CommitsOwnLinks (saves : Tx → Save) (st : State Tx) : Label Tx → Prop
  | .fails _ => True
  | .runs tx => ∀ rest, st.phase tx = .sending (.commit :: rest) → OwnLinks saves st tx

def HasLinks (rows : OrderedDict Link ℕ) (u : ℕ) (links : List Link) : Prop :=
  ∀ link, link.user = u → (link ∈ rows ↔ link ∈ links)

def Stored (saves : Tx → Save) (st : State Tx) (u : ℕ) (tx : Tx) : Prop :=
  (saves tx).user = u ∧ st.phase tx = .committed ∧
    HasLinks st.table.rows u ((saves tx).data.appended u)

inductive Saved (saves : Tx → Save) (rows₀ : OrderedDict Link ℕ) (u : ℕ) (st : State Tx) : Prop
  | untouched (rows : ∀ link, link.user = u → st.table.rows.get? link = rows₀.get? link)
      (requests : ∀ tx, (saves tx).user = u →
        Unspoilt (saves tx) st.table.rows (st.table.Wrote tx) (st.phase tx))
      (ended : ∀ tx, (saves tx).user = u → st.phase tx = .committed → Stored saves st u tx)
  | replaced (tx : Tx) (stored : Stored saves st u tx)

theorem HasLinks.congr {rows rows' : OrderedDict Link ℕ} {links : List Link}
    (h : HasLinks rows u links) (hrows : ∀ link, link.user = u → rows'.get? link = rows.get? link) :
    HasLinks rows' u links := by
  intro link huser
  rw [mem_congr_get? (hrows link huser), h link huser]

theorem Effect.committed (h : Effect save st tx st') (hc : st.phase tx' = .committed) :
    st'.phase tx' = .committed := by
  by_cases htx : tx' = tx
  · rw [htx] at hc
    cases h with
    | raises h => simp [hc, Phase.Open] at h
    | loads h | starts h | finds h | seeks h | passes h | deletes h | inserts h | commits h | ends h =>
      simp [hc] at h
  · rw [(h.other htx).1, hc]

theorem Stored.effect (h : Stored saves st u tx') (he : Effect save st tx st')
    (hrows : ∀ link, link.user = u → st'.table.rows.get? link = st.table.rows.get? link) :
    Stored saves st' u tx' := by
  obtain ⟨huser, hphase, hlinks⟩ := h
  exact ⟨huser, he.committed hphase, hlinks.congr hrows⟩

theorem Saved.effect {rows₀ : OrderedDict Link ℕ} (h : Saved saves rows₀ u st)
    (he : Effect (saves tx) st tx st')
    (hrows : ∀ link, link.user = u → st'.table.rows.get? link = st.table.rows.get? link)
    (hended : Unspoilt (saves tx) st.table.rows (st.table.Wrote tx) (st.phase tx) →
      (saves tx).user = u → st'.phase tx = .committed → Stored saves st' u tx) :
    Saved saves rows₀ u st' := by
  cases h with
  | untouched rows requests ended =>
    refine .untouched (fun link huser => ?_) (fun tx' huser => ?_) fun tx' huser hphase => ?_
    · rw [hrows link huser, rows link huser]
    · by_cases htx : tx' = tx
      · rw [htx] at huser ⊢
        exact he.unspoilt_self (requests tx huser) fun link hlink => hrows link (hlink.trans huser)
      · obtain ⟨hphase, hwrote⟩ := he.other htx
        rw [hphase, hwrote]
        exact (requests tx' huser).congr fun link hlink => hrows link (hlink.trans huser)
    · by_cases htx : tx' = tx
      · rw [htx] at huser hphase ⊢
        exact hended (requests tx huser) huser hphase
      · rw [(he.other htx).1] at hphase
        exact (ended tx' huser hphase).effect he hrows
  | replaced tx' stored => exact .replaced tx' (stored.effect he hrows)

theorem stored_of_commit {rest : List Sql}
    (hs : Sent (saves tx) (st.table.Wrote tx) (.commit :: rest)) (huser : (saves tx).user = u)
    (hall : ∀ link, link.user = u → link ∈ st.table.rows → ∃ c, st.table.Wrote tx link c) :
    Stored saves (st.next tx (st.table.commit tx) .committed) u tx := by
  refine ⟨huser, next_phase_self .., fun link hlink => ?_⟩
  rw [next_table, Table.mem_commit, hs.asked, huser, or_iff_left]
  rintro ⟨hmem, hnot⟩
  obtain ⟨c, hc⟩ := hall link hlink hmem
  exact hnot c hc

theorem stored_of_first_commit {rest : List Sql}
    (hs : Sent (saves tx) (st.table.Wrote tx) (.commit :: rest)) (huser : (saves tx).user = u)
    (hcovered : Covered (saves tx) st.table.rows (st.table.Wrote tx) (.commit :: rest)) :
    Stored saves (st.next tx (st.table.commit tx) .committed) u tx := by
  refine stored_of_commit hs huser fun link hlink hmem => ?_
  obtain ⟨links, done, hsql, hall, hdone⟩ := hcovered
  have hloaded : link ∈ allLinks links := (hall link).mpr ⟨hlink.trans huser.symm, hmem⟩
  exact hdone link (((done_at_commit hsql).2.delete_mem link).mpr hloaded)

theorem Saved.next {rows₀ : OrderedDict Link ℕ} (h : Saved saves rows₀ u st)
    (hk : AllKept saves st) (he : Effect (saves tx) st tx st')
    (hown : ∀ rest, st.phase tx = .sending (.commit :: rest) → st'.phase tx = .committed →
      OwnLinks saves st tx) : Saved saves rows₀ u st' := by
  have hstep := he
  cases he with
  | @commits rest hphase =>
    have hs := hk tx
    rw [hphase] at hs
    by_cases huser : (saves tx).user = u
    · rcases hown rest hphase (next_phase_self ..) with hall | hidle
      · exact .replaced tx (stored_of_commit hs huser (huser ▸ hall))
      · refine h.effect hstep (fun link _ => Table.get?_commit_of_not_wrote (hidle link)) ?_
        intro hcovered _ _
        rw [hphase] at hcovered
        exact stored_of_first_commit hs huser hcovered
    · refine h.effect hstep (fun link hlink => Table.get?_commit_of_not_wrote fun c hc => ?_)
        fun _ heq => absurd heq huser
      exact huser ((Sent.own hs link c hc).symm.trans hlink)
  | _ => exact h.effect hstep (fun _ _ => rfl) fun _ _ hc => by simp at hc

omit [DecidableEq Tx] in
theorem saved_start (saves : Tx → Save) (rows₀ : OrderedDict Link ℕ) (u : ℕ) :
    Saved saves rows₀ u (.start saves rows₀) := by
  refine .untouched (fun _ _ => rfl) (fun tx _ => ?_) fun tx _ hphase => ?_
  · refine ⟨fun table link hlink => ?_, fun link _ _ hnot => absurd ((saves tx).loadsAll _) hnot⟩
    cases hlink
  · cases hphase

theorem saved_run {rows₀ : OrderedDict Link ℕ} {ls : List (Label Tx)}
    (hr : ((saving catalog saves).guard (CommitsOwnLinks saves)).Run (.start saves rows₀) ls st)
    (u : ℕ) : AllKept saves st ∧ Saved saves rows₀ u st := by
  refine hr.invariant (fun st => AllKept saves st ∧ Saved saves rows₀ u st) ?_ ?_
  · exact ⟨allKept_start saves rows₀, saved_start saves rows₀ u⟩
  · intro st l st' hi hstep
    obtain ⟨hown, hnext⟩ := hstep
    have he := effect_of_step hnext
    refine ⟨he.allKept hi.1, hi.2.next hi.1 he ?_⟩
    cases l with
    | runs tx => exact fun rest hphase _ => hown rest hphase
    | fails tx =>
      intro rest hphase hc
      have hraised : step catalog saves st (.fails tx) = some st' := hnext
      simp only [step] at hraised
      split_ifs at hraised
      cases hraised
      simp [Label.tx] at hc

/-! ### The profile that is stored -/

def UserProfileUpdate.Exists (catalog : Catalog) (data : UserProfileUpdate) : Prop :=
  (∀ id ∈ data.interests, id ∈ catalog.ids .interest) ∧
    (∀ id ∈ data.languages, id ∈ catalog.ids .language) ∧
    ∀ id ∈ data.genderId, id ∈ catalog.ids .gender

def OneGender (rows : OrderedDict Link ℕ) (u : ℕ) : Prop :=
  ∀ link ∈ rows, ∀ link' ∈ rows, link.user = u → link'.user = u → link.table = .gender →
    link'.table = .gender → link = link'

theorem appended_eq_links {data : UserProfileUpdate} (h : data.Exists catalog) (u : ℕ) :
    data.appended u = data.links u := by
  unfold UserProfileUpdate.appended UserProfileUpdate.links
  cases hid : data.genderId with
  | none => rfl
  | some id =>
    have hpos := catalog.pos .gender id (h.2.2 id hid)
    simp [Option.filter, show id ≠ 0 by omega]

theorem HasLinks.oneGender {rows : OrderedDict Link ℕ} {data : UserProfileUpdate}
    (h : HasLinks rows u (data.links u)) : OneGender rows u := by
  have hgender : ∀ link ∈ rows, link.user = u → link.table = .gender →
      data.genderId = some link.id := by
    intro link hmem huser htable
    have hlink := (h link huser).mp hmem
    simp only [UserProfileUpdate.links, List.mem_append, List.mem_map, Option.mem_toList] at hlink
    rcases hlink with (⟨id, -, rfl⟩ | ⟨id, -, rfl⟩) | ⟨id, hid, rfl⟩
    · cases htable
    · cases htable
    · exact hid
  intro link hmem link' hmem' huser huser' htable htable'
  have hid := (hgender link hmem huser htable).symm.trans (hgender link' hmem' huser' htable')
  obtain ⟨user, table, id⟩ := link
  obtain ⟨user', table', id'⟩ := link'
  cases hid
  rw [Link.mk.injEq]
  exact ⟨huser.trans huser'.symm, htable.trans htable'.symm, rfl⟩

theorem OneGender.congr {rows rows' : OrderedDict Link ℕ} (h : OneGender rows u)
    (hrows : ∀ link, link.user = u → (link ∈ rows' ↔ link ∈ rows)) : OneGender rows' u := by
  intro link hmem link' hmem' huser huser'
  exact h link ((hrows link huser).mp hmem) link' ((hrows link' huser').mp hmem') huser huser'

/-- A commit leaves what its request asked for, unless a stored link is not the request's own. -/
theorem commit_exact_iff {rest : List Sql}
    (hs : Sent (saves tx) (st.table.Wrote tx) (.commit :: rest)) :
    HasLinks (st.table.commit tx).rows (saves tx).user
        ((saves tx).data.appended (saves tx).user) ↔
      ∀ link, link.user = (saves tx).user → link ∈ st.table.rows →
        ∃ c, st.table.Wrote tx link c := by
  constructor
  · intro h link huser hmem
    by_contra hnot
    have hkept : link ∈ (st.table.commit tx).rows :=
      Table.mem_commit.mpr (.inr ⟨hmem, fun c hc => hnot ⟨c, hc⟩⟩)
    exact hnot ⟨.inserted, (hs.asked link).mpr ((h link huser).mp hkept)⟩
  · intro hall
    exact (stored_of_commit hs rfl hall).2.2

theorem stored_as_requested {rows₀ : OrderedDict Link ℕ} {ls : List (Label Tx)}
    (hexist : ∀ tx, (saves tx).data.Exists catalog)
    (hr : ((saving catalog saves).guard (CommitsOwnLinks saves)).Run (.start saves rows₀) ls st)
    (u : ℕ) :
    (((∀ tx, (saves tx).user = u → st.phase tx ≠ .committed) ∧
        ∀ link, link.user = u → (link ∈ st.table.rows ↔ link ∈ rows₀)) ∨
      ∃ tx, (saves tx).user = u ∧ st.phase tx = .committed ∧
        HasLinks st.table.rows u ((saves tx).data.links u)) ∧
    (OneGender rows₀ u → OneGender st.table.rows u) := by
  have hstored : ∀ tx, Stored saves st u tx → ∃ tx, (saves tx).user = u ∧
      st.phase tx = .committed ∧ HasLinks st.table.rows u ((saves tx).data.links u) := by
    rintro tx ⟨huser, hphase, hlinks⟩
    exact ⟨tx, huser, hphase, appended_eq_links (hexist tx) u ▸ hlinks⟩
  have hcases : ((∀ tx, (saves tx).user = u → st.phase tx ≠ .committed) ∧
        ∀ link, link.user = u → (link ∈ st.table.rows ↔ link ∈ rows₀)) ∨
      ∃ tx, (saves tx).user = u ∧ st.phase tx = .committed ∧
        HasLinks st.table.rows u ((saves tx).data.links u) := by
    cases (saved_run hr u).2 with
    | replaced tx stored => exact .inr (hstored tx stored)
    | untouched rows requests ended =>
      by_cases hsome : ∃ tx, (saves tx).user = u ∧ st.phase tx = .committed
      · obtain ⟨tx, huser, hphase⟩ := hsome
        exact .inr (hstored tx (ended tx huser hphase))
      · refine .inl ⟨fun tx huser hphase => hsome ⟨tx, huser, hphase⟩, fun link huser => ?_⟩
        exact mem_congr_get? (rows link huser)
  refine ⟨hcases, fun hone => ?_⟩
  rcases hcases with ⟨-, hrows⟩ | ⟨tx, -, -, hlinks⟩
  · exact hone.congr hrows
  · exact hlinks.oneGender

/-! ### Two requests for one user -/

def seeds : Catalog where
  ids
    | .interest => [1, 2]
    | .language => [1]
    | .gender => [1, 2]
  pos
    | .interest => by decide
    | .language => by decide
    | .gender => by decide

def saveOf (data : UserProfileUpdate) : Save where
  user := 1
  data := data
  loadOrder := [.interest, .language, .gender]
  loadsAll table := by cases table <;> decide
  flushOrder := ⟨id, fun _ => .refl _⟩

def twoGenders : Bool → Save
  | false => saveOf ⟨[], [], some 1⟩
  | true => saveOf ⟨[], [], some 2⟩

def noLinks : OrderedDict Link ℕ := .empty

theorem oneGender_noLinks (u : ℕ) : OneGender noLinks u := by
  intro link hlink
  cases hlink

theorem twoGenders_exist (tx : Bool) : (twoGenders tx).data.Exists seeds := by
  cases tx <;> simp [twoGenders, saveOf, UserProfileUpdate.Exists, seeds]

def oneByOne : List (Label Bool) :=
  List.replicate 7 (.runs false) ++ List.replicate 9 (.runs true)

def commitsOwnLinks (st : State Tx) : Label Tx → Bool
  | .fails _ => true
  | .runs tx =>
    match st.phase tx with
    | .sending (.commit :: _) => st.table.rows.keys.all fun link =>
        (st.table.writes.get? link).any fun w => w.writer = tx
    | _ => true

theorem commitsOwnLinks_sound (l : Label Tx) (h : commitsOwnLinks st l = true) :
    CommitsOwnLinks saves st l := by
  cases l with
  | fails tx => trivial
  | runs tx =>
    intro rest hphase
    refine .inl fun link huser hmem => ?_
    simp only [commitsOwnLinks, hphase, List.all_eq_true] at h
    have hany := h link hmem
    cases hw : st.table.writes.get? link with
    | none => simp [hw] at hany
    | some w =>
      obtain ⟨writer, c⟩ := w
      simp only [hw, Option.any_some, decide_eq_true_eq] at hany
      exact ⟨c, hany ▸ hw⟩

theorem stored_as_requested_applied : ∃ st,
    ((saving seeds twoGenders).guard (CommitsOwnLinks twoGenders)).Run
      (.start twoGenders noLinks) oneByOne st ∧ st.phase true = .committed ∧
    (((∀ tx, (twoGenders tx).user = 1 → st.phase tx ≠ .committed) ∧
        ∀ link, link.user = 1 → (link ∈ st.table.rows ↔ link ∈ noLinks)) ∨
      ∃ tx, (twoGenders tx).user = 1 ∧ st.phase tx = .committed ∧
        HasLinks st.table.rows 1 ((twoGenders tx).data.links 1)) ∧
    OneGender st.table.rows 1 := by
  obtain ⟨st, hexec, hphase⟩ : ∃ st, Lts.exec (Lts.checked (step seeds twoGenders)
      commitsOwnLinks) (.start twoGenders noLinks) oneByOne = some st ∧
        st.phase true = .committed := ⟨_, rfl, rfl⟩
  have hsound : ∀ st l, commitsOwnLinks st l = true → CommitsOwnLinks twoGenders st l :=
    fun _ l => commitsOwnLinks_sound l
  have hr := Lts.guard_run_of_checked hsound hexec
  obtain ⟨hcases, hone⟩ := stored_as_requested twoGenders_exist hr 1
  exact ⟨st, hr, hphase, hcases, hone (oneGender_noLinks 1)⟩

def overlapping : List (Label Bool) :=
  List.replicate 6 (.runs false) ++ List.replicate 6 (.runs true) ++ [.runs false, .runs true]

theorem two_genders_stored :
    ¬ ∀ (Tx : Type) [DecidableEq Tx] (catalog : Catalog) (saves : Tx → Save)
      (rows₀ : OrderedDict Link ℕ) (ls : List (Label Tx)) (st : State Tx),
      (∀ tx, (saves tx).data.interests.Nodup ∧ (saves tx).data.languages.Nodup ∧
        (saves tx).data.Exists catalog) →
      (∀ u, OneGender rows₀ u) → (saving catalog saves).Run (.start saves rows₀) ls st →
      (∀ tx, st.phase tx = .committed) →
      ∀ u, (∃ tx, (saves tx).user = u) →
        (∃ tx, (saves tx).user = u ∧ HasLinks st.table.rows u ((saves tx).data.links u)) ∧
          OneGender st.table.rows u := by
  intro h
  obtain ⟨st, hexec, hfalse, htrue, h₁, h₂⟩ : ∃ st,
      Lts.exec (step seeds twoGenders) (.start twoGenders noLinks) overlapping = some st ∧
        st.phase false = .committed ∧ st.phase true = .committed ∧
        Link.mk 1 .gender 1 ∈ st.table.rows ∧ Link.mk 1 .gender 2 ∈ st.table.rows :=
    ⟨_, rfl, rfl, rfl, by decide, by decide⟩
  have hvalid : ∀ tx, (twoGenders tx).data.interests.Nodup ∧
      (twoGenders tx).data.languages.Nodup ∧ (twoGenders tx).data.Exists seeds := by
    intro tx
    refine ⟨?_, ?_, twoGenders_exist tx⟩
    all_goals cases tx <;> exact List.nodup_nil
  have hone := (h Bool seeds twoGenders noLinks overlapping st hvalid oneGender_noLinks
    (Lts.run_of_exec hexec) (fun tx => by cases tx <;> assumption) 1 ⟨true, rfl⟩).2
  have heq := hone _ h₁ _ h₂ rfl rfl rfl rfl
  cases heq

end Nalang.Profiles
