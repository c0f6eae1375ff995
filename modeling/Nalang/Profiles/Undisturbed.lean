import Mathlib.Data.List.TakeWhile
import Mathlib.Logic.Relation
import Nalang.Profiles.FirstError
import Nalang.Profiles.Outcomes

/-!
# A profile update that runs by itself

It commits the links it asks for when every id exists and none is repeated, and otherwise
it fails at the first statement that the database or the lookup refuses.
-/

namespace Nalang.Profiles
open Accounts ReadCommitted Transition

variable {Tx : Type} [DecidableEq Tx] {catalog : Catalog} {saves : Tx → Save} {save : Save}
  {st st' : State Tx} {tx : Tx} {rows₀ : OrderedDict Link ℕ} {links : LinkTable → List Link}
  {done rest : List Sql} {link : Link}

def RunsAlone (catalog : Catalog) (saves : Tx → Save) (tx : Tx) : State Tx → State Tx → Prop :=
  Relation.ReflTransGen fun st st' => (saving catalog saves).step st (.runs tx) st'

def Phase.Ended : Phase → Prop
  | .committed | .failed _ => True
  | _ => False

theorem not_step_of_ended (h : (st.phase tx).Ended) :
    ¬ (saving catalog saves).step st (.runs tx) st' := by
  intro hstep
  change advance catalog (saves tx) st tx = some st' at hstep
  cases hphase : st.phase tx with
  | committed => simp [advance, hphase] at hstep
  | failed e => simp [advance, hphase] at hstep
  | _ =>
    rw [hphase] at h
    exact absurd h id

theorem ended_unique {s : State Tx} (h : RunsAlone catalog saves tx s st)
    (h' : RunsAlone catalog saves tx s st') (hend : (st.phase tx).Ended)
    (hend' : (st'.phase tx).Ended) : st = st' := by
  have hunique : Relator.RightUnique fun s s' => (saving catalog saves).step s (.runs tx) s' := by
    intro s₁ s₂ s₃ h₂ h₃
    have heq : some s₂ = some s₃ := h₂.symm.trans h₃
    exact Option.some.inj heq
  have hstuck : ∀ s₁ s₂ : State Tx, (s₁.phase tx).Ended → RunsAlone catalog saves tx s₁ s₂ →
      s₁ = s₂ := by
    intro s₁ s₂ hs hr
    rcases hr.cases_head with heq | ⟨s₃, hstep, -⟩
    · exact heq
    · exact absurd hstep (not_step_of_ended hs)
  rcases h.total_of_right_unique hunique h' with hr | hr
  · exact hstuck _ _ hend hr
  · exact (hstuck _ _ hend' hr).symm

/-! ### The statements in turn -/

structure Ready (saves : Tx → Save) (tx : Tx) (rows₀ : OrderedDict Link ℕ)
    (links : LinkTable → List Link) (done rest : List Sql) (st : State Tx) : Prop where
  phase : st.phase tx = .sending rest
  rows : st.table.rows = rows₀
  writers : ∀ link, st.table.Free tx link
  sql : (saves tx).sql links = done ++ rest
  loaded : ∀ link, link ∈ allLinks links ↔ link.user = (saves tx).user ∧ link ∈ rows₀
  inserted : ∀ link, st.table.Wrote tx link .inserted ↔ .insert link ∈ done
  deleted : ∀ link, .delete link ∈ done → ∃ c, st.table.Wrote tx link c

omit [DecidableEq Tx] in
theorem free_write {t : Table Link Tx} {c : Change} (h : ∀ l, t.Free tx l) (l : Link) :
    (t.write tx link c).Free tx l := by
  intro w hw
  rcases OrderedDict.get?_set_eq_some.mp hw with ⟨-, rfl⟩ | ⟨-, hold⟩
  · rfl
  · exact h l w hold

theorem Ready.lookup {table : LinkTable} {id : ℤ}
    (h : Ready saves tx rows₀ links done (.lookup table id :: rest) st) :
    Ready saves tx rows₀ links (done ++ [.lookup table id]) rest
      (st.next tx st.table (.sending rest)) where
  phase := next_phase_self ..
  rows := h.rows
  writers := h.writers
  sql := by rw [h.sql, List.append_assoc, List.singleton_append]
  loaded := h.loaded
  inserted l := by
    rw [next_table, h.inserted]
    simp
  deleted l hl := h.deleted l (by simpa using hl)

theorem Ready.delete (h : Ready saves tx rows₀ links done (.delete link :: rest) st) :
    Ready saves tx rows₀ links (done ++ [.delete link]) rest
      (st.next tx (st.table.write tx link .deleted) (.sending rest)) where
  phase := next_phase_self ..
  rows := h.rows
  writers := free_write h.writers
  sql := by rw [h.sql, List.append_assoc, List.singleton_append]
  loaded := h.loaded
  inserted l := by
    have hbefore := not_inserted_before_delete h.sql l
    rw [next_table, Table.wrote_write_self, h.inserted]
    simp [hbefore]
  deleted l hl := by
    rw [List.mem_append, List.mem_singleton, Sql.delete.injEq] at hl
    rcases hl with hl | rfl
    · exact wrote_write l (h.deleted l hl)
    · exact ⟨.deleted, Table.wrote_write_self.mpr (.inl ⟨rfl, rfl⟩)⟩

theorem Ready.insert (h : Ready saves tx rows₀ links done (.insert link :: rest) st) :
    Ready saves tx rows₀ links (done ++ [.insert link]) rest
      (st.next tx (st.table.write tx link .inserted) (.sending rest)) where
  phase := next_phase_self ..
  rows := h.rows
  writers := free_write h.writers
  sql := by rw [h.sql, List.append_assoc, List.singleton_append]
  loaded := h.loaded
  inserted l := by
    rw [next_table, Table.wrote_write_self, h.inserted, List.mem_append, List.mem_singleton,
      Sql.insert.injEq]
    by_cases hl : l = link
    · simp [hl]
    · simp [hl]
  deleted l hl := by
    rw [List.mem_append, List.mem_singleton] at hl
    rcases hl with hl | hl
    · exact wrote_write l (h.deleted l hl)
    · cases hl

theorem Ready.delete_passes (h : Ready saves tx rows₀ links done (.delete link :: rest) st) :
    st.table.delete tx link (st.table.rows.get? link) =
      some (st.table.write tx link .deleted) := by
  have hstored : st.table.rows.get? link ≠ none := by
    rw [Ne, OrderedDict.get?_eq_none, h.rows, not_not]
    exact ((h.loaded link).mp (mem_of_delete h.sql)).2
  simp only [Table.delete, ne_eq, not_true_eq_false, or_false, if_neg hstored]
  cases hw : st.table.writes.get? link with
  | none => rfl
  | some w => simp only [h.writers link w hw, if_true]

theorem Ready.insert_result (h : Ready saves tx rows₀ links done (.insert link :: rest) st) :
    st.table.insert tx link =
      if .insert link ∈ done then .duplicateKey else .done (st.table.write tx link .inserted) := by
  have hcases : ∀ w, st.table.writes.get? link = some w → w = ⟨tx, w.change⟩ := by
    intro w hw
    rw [← h.writers link w hw]
  split_ifs with hmem
  · have hw : st.table.writes.get? link = some ⟨tx, .inserted⟩ := (h.inserted link).mpr hmem
    simp [Table.insert, hw]
  · cases hw : st.table.writes.get? link with
    | none =>
      have hnew : link ∉ st.table.rows := by
        intro hstored
        have huser := UserProfileUpdate.user_of_appended (mem_of_insert h.sql)
        have hloaded : link ∈ allLinks links := (h.loaded link).mpr ⟨huser, h.rows ▸ hstored⟩
        obtain ⟨sql, hsql, hsends⟩ := updateUserProfile_sends (saves tx).flushOrder (saves tx).user
          links (saves tx).data
        have hdelete : .delete link ∈ done ++ Sql.insert link :: rest := by
          rw [← h.sql]
          unfold Save.sql
          rw [hsql]
          exact List.mem_append_left _ ((hsends.delete_mem link).mpr hloaded)
        rcases List.mem_append.mp hdelete with hbefore | hafter
        · obtain ⟨c, hc⟩ := h.deleted link hbefore
          rw [Table.Wrote, hw] at hc
          cases hc
        · -- a deletion does not stand behind an insertion
          rcases List.mem_cons.mp hafter with heq | hafter
          · cases heq
          · obtain ⟨between, later, rfl⟩ := List.append_of_mem hafter
            have hsplit : (saves tx).sql links =
                (done ++ .insert link :: between) ++ .delete link :: later := by
              rw [h.sql, List.append_assoc, List.cons_append]
            exact not_inserted_before_delete hsplit link (by simp)
      simp [Table.insert, hw, hnew]
    | some w =>
      obtain ⟨writer, change⟩ := w
      cases hcases _ hw
      cases change with
      | deleted => simp [Table.insert, hw]
      | inserted => exact absurd ((h.inserted link).mp hw) hmem

/-! ### The end of the request -/

def EndsWith (saves : Tx → Save) (tx : Tx) (rows₀ : OrderedDict Link ℕ) (st : State Tx) :
    Option HttpError → Prop
  | none => st.phase tx = .committed ∧ HasLinks st.table.rows (saves tx).user
      ((saves tx).data.appended (saves tx).user)
  | some e => st.phase tx = .failed e ∧ st.table.rows = rows₀

theorem runsAlone_head {s : State Tx} (h : advance catalog (saves tx) s tx = some st)
    (hr : RunsAlone catalog saves tx st st') : RunsAlone catalog saves tx s st' :=
  Relation.ReflTransGen.head h hr

theorem ends_of_raise {e : HttpError}
    (h : advance catalog (saves tx) st tx = some (st.next tx st.table (.raised e)))
    (hrows : st.table.rows = rows₀) :
    ∃ st', RunsAlone catalog saves tx st st' ∧ EndsWith saves tx rows₀ st' (some e) := by
  have hend : advance catalog (saves tx) (st.next tx st.table (.raised e)) tx =
      some ((st.next tx st.table (.raised e)).next tx (st.table.rollback tx) (.failed e)) := by
    simp only [advance, next_phase_self, next_table]
  exact ⟨_, runsAlone_head h (runsAlone_head hend .refl), next_phase_self .., hrows⟩

theorem Ready.commit (h : Ready saves tx rows₀ links done (.commit :: rest) st) :
    HasLinks (st.table.commit tx).rows (saves tx).user
      ((saves tx).data.appended (saves tx).user) := by
  have hsends := (done_at_commit h.sql).2
  intro l huser
  rw [Table.mem_commit, h.inserted, hsends.insert_mem, or_iff_left]
  rintro ⟨hmem, hnot⟩
  have hloaded : l ∈ allLinks links := (h.loaded l).mpr ⟨huser, h.rows ▸ hmem⟩
  obtain ⟨c, hc⟩ := h.deleted l ((hsends.delete_mem l).mpr hloaded)
  exact hnot c hc

theorem Ready.ends (h : Ready saves tx rows₀ links done rest st) (hcommit : .commit ∈ rest) :
    ∃ st', RunsAlone catalog saves tx st st' ∧
      EndsWith saves tx rows₀ st' (firstError catalog done rest) := by
  induction rest generalizing done st with
  | nil => cases hcommit
  | cons first rest ih =>
    cases first with
    | lookup table id =>
      have hrest : .commit ∈ rest := by simpa using hcommit
      rw [firstError, refusal]
      by_cases hid : id ∈ catalog.ids table
      · have hstep : advance catalog (saves tx) st tx =
            some (st.next tx st.table (.sending rest)) := by
          simp only [advance, h.phase, if_pos hid]
        obtain ⟨st', hr, hends⟩ := ih h.lookup hrest
        rw [if_pos hid]
        exact ⟨st', runsAlone_head hstep hr, hends⟩
      · rw [if_neg hid]
        exact ends_of_raise (by simp only [advance, h.phase, if_neg hid]) h.rows
    | delete link =>
      have hrest : .commit ∈ rest := by simpa using hcommit
      let st₁ := st.next tx st.table (.deleting link (st.table.rows.get? link) rest)
      have hseeks : advance catalog (saves tx) st tx = some st₁ := by
        simp only [advance, h.phase]
        rfl
      have hdeletes : advance catalog (saves tx) st₁ tx =
          some (st.next tx (st.table.write tx link .deleted) (.sending rest)) := by
        simp only [advance, st₁, next_phase_self, next_table, h.delete_passes]
        simp [State.next]
      obtain ⟨st', hr, hends⟩ := ih h.delete hrest
      exact ⟨st', runsAlone_head hseeks (runsAlone_head hdeletes hr), hends⟩
    | insert link =>
      have hrest : .commit ∈ rest := by simpa using hcommit
      have hresult := h.insert_result
      rw [firstError, refusal]
      by_cases hmem : .insert link ∈ done
      · rw [if_pos hmem] at hresult ⊢
        exact ends_of_raise (by simp only [advance, h.phase, hresult]) h.rows
      · rw [if_neg hmem] at hresult ⊢
        have hstep : advance catalog (saves tx) st tx =
            some (st.next tx (st.table.write tx link .inserted) (.sending rest)) := by
          simp only [advance, h.phase, hresult]
        obtain ⟨st', hr, hends⟩ := ih h.insert hrest
        exact ⟨st', runsAlone_head hstep hr, hends⟩
    | commit =>
      have hstep : advance catalog (saves tx) st tx =
          some (st.next tx (st.table.commit tx) .committed) := by
        simp only [advance, h.phase]
      rw [(done_at_commit h.sql).1]
      exact ⟨_, runsAlone_head hstep .refl, next_phase_self .., h.commit⟩

theorem ends_of_loading {tables : List LinkTable} (hphase : st.phase tx = .loading tables links)
    (htable : st.table = .ofRows rows₀)
    (hloaded : Unspoilt (saves tx) rows₀ (st.table.Wrote tx) (.loading tables links)) :
    ∃ links st', RunsAlone catalog saves tx st st' ∧
      EndsWith saves tx rows₀ st' (firstError catalog [] ((saves tx).sql links)) := by
  induction tables generalizing links st with
  | nil =>
    have hstep : advance catalog (saves tx) st tx =
        some (st.next tx st.table (.sending ((saves tx).sql links))) := by
      simp only [advance, hphase]
    have hnothing : ∀ link c, ¬ st.table.Wrote tx link c := by
      rw [htable]
      exact Table.not_wrote_ofRows rows₀ tx
    have hready : Ready saves tx rows₀ links [] ((saves tx).sql links)
        (st.next tx st.table (.sending ((saves tx).sql links))) := by
      refine ⟨next_phase_self .., ?_, fun link w hw => ?_, rfl, mem_loaded hloaded, fun link => ?_,
        fun link hlink => ?_⟩
      · rw [next_table, htable]
        rfl
      · rw [next_table, htable] at hw
        cases hw
      · exact iff_of_false (hnothing link _) List.not_mem_nil
      · cases hlink
    have hcommit : .commit ∈ (saves tx).sql links := by
      unfold Save.sql updateUserProfile
      exact List.mem_append_right _ (List.mem_singleton_self _)
    obtain ⟨st', hr, hends⟩ := hready.ends hcommit
    exact ⟨links, st', runsAlone_head hstep hr, hends⟩
  | cons table tables ih =>
    have hstep : advance catalog (saves tx) st tx = some (st.next tx st.table
        (.loading tables (Function.update links table (st.select (saves tx).user table)))) := by
      simp only [advance, hphase]
    have hrows : st.table.rows = rows₀ := by rw [htable]; rfl
    rw [← hrows] at hloaded
    obtain ⟨links', st', hr, hends⟩ := ih (next_phase_self ..) htable
      (hrows ▸ unspoilt_loads hloaded)
    exact ⟨links', st', runsAlone_head hstep hr, hends⟩

theorem ends_of_start (catalog : Catalog) (saves : Tx → Save) (tx : Tx)
    (rows₀ : OrderedDict Link ℕ) :
    ∃ links st', RunsAlone catalog saves tx (.start saves rows₀) st' ∧
      EndsWith saves tx rows₀ st' (firstError catalog [] ((saves tx).sql links)) := by
  refine ends_of_loading rfl rfl ⟨fun table link hlink => ?_, fun link _ _ hnot => ?_⟩
  · cases hlink
  · exact absurd ((saves tx).loadsAll _) hnot

/-! ### When the outcome is the one that was asked for -/

structure UpdatesExactly (catalog : Catalog) (save : Save) (tx : Tx) (st : State Tx) : Prop where
  succeeds : st.phase tx = .committed ↔ save.data.Exists catalog
  stored : st.phase tx = .committed → HasLinks st.table.rows save.user (save.data.links save.user)
  unknown : ¬ save.data.Exists catalog → ∃ table id, st.phase tx = .failed (notFound table id)

/-- No id is repeated before the first that does not exist, which fits its column, and a gender of
zero is not the only thing that does not exist. -/
structure Orderly (catalog : Catalog) (data : UserProfileUpdate) : Prop where
  distinct : (data.asked.takeWhile (catalog.Has ·)).Nodup
  fits : ∀ item, data.asked.find? (¬ catalog.Has ·) = some item →
    ¬ (item.2 < -2147483648 ∨ 2147483648 ≤ item.2)
  gender : data.genderId = some 0 → ∃ item ∈ data.asked, ¬ catalog.Has item

theorem exists_iff {data : UserProfileUpdate} :
    data.Exists catalog ↔ (∀ item ∈ data.asked, catalog.Has item) ∧ data.genderId ≠ some 0 := by
  have hzero : (0 : ℤ) ∉ catalog.ids .gender := fun hmem => lt_irrefl _ (catalog.pos _ _ hmem)
  have hasked : (∀ item ∈ data.asked, catalog.Has item) ↔
      (∀ id ∈ data.interests, id ∈ catalog.ids .interest) ∧
        (∀ id ∈ data.languages, id ∈ catalog.ids .language) ∧
        ∀ id ∈ data.genderId, id ≠ 0 → id ∈ catalog.ids .gender := by
    simp only [UserProfileUpdate.asked, Catalog.Has, List.forall_mem_append, List.forall_mem_map,
      and_assoc, Option.mem_toList, Option.mem_def, Option.filter_eq_some_iff, decide_eq_true_eq,
      and_imp, ne_eq]
  rw [hasked, UserProfileUpdate.Exists, and_assoc, and_assoc]
  refine and_congr_right fun _ => and_congr_right fun _ => ⟨fun h => ⟨?_, ?_⟩, ?_⟩
  · exact fun id hid _ => h id hid
  · exact fun hgender => hzero (h 0 hgender)
  · rintro ⟨h, hne⟩ id hid
    refine h id hid ?_
    rintro rfl
    exact hne hid

theorem Fails.answer {asked : List (LinkTable × ℤ)} {e : HttpError} (h : Fails catalog asked e) :
    (∃ item ∈ asked, ¬ catalog.Has item ∧ (asked.takeWhile (catalog.Has ·)).Nodup ∧
        asked.find? (¬ catalog.Has ·) = some item ∧ e = lookupError item.1 item.2) ∨
      (¬ (asked.takeWhile (catalog.Has ·)).Nodup ∧ e = .serverError) := by
  cases h with
  | @missing before after table id split exist distinct absent =>
    refine .inl ⟨(table, id), by simp [split], absent, ?_, ?_, rfl⟩
    · rw [split, List.takeWhile_append_of_pos (by simpa using exist),
        List.takeWhile_cons_of_neg (by simpa using absent), List.append_nil]
      exact distinct
    · rw [split, List.find?_append, List.find?_eq_none.mpr (by simpa using exist), Option.none_or,
        List.find?_cons_of_pos (by simpa using absent)]
  | @repeated before after split exist double =>
    refine .inr ⟨fun hnodup => double ?_, rfl⟩
    rw [split, List.takeWhile_append_of_pos (by simpa using exist)] at hnodup
    exact (List.nodup_append.mp hnodup).1

theorem lookupError_eq_notFound (table : LinkTable) (id : ℤ) :
    (∃ table' id', lookupError table id = notFound table' id') ↔
      ¬ (id < -2147483648 ∨ 2147483648 ≤ id) := by
  unfold lookupError
  split_ifs with hout
  · exact iff_of_false (by rintro ⟨_, _, h⟩; cases h) (not_not.mpr hout)
  · exact iff_of_true ⟨table, id, rfl⟩ hout

omit [DecidableEq Tx] in
theorem exact_iff_of_committed (hends : EndsWith saves tx rows₀ st none)
    (hdistinct : (saves tx).data.asked.Nodup)
    (hall : ∀ item ∈ (saves tx).data.asked, catalog.Has item) :
    UpdatesExactly catalog (saves tx) tx st ↔ Orderly catalog (saves tx).data := by
  obtain ⟨hphase, hlinks⟩ := hends
  by_cases hzero : (saves tx).data.genderId = some 0
  · -- nothing tells that a gender has been asked for
    refine iff_of_false (fun h => ?_) fun h => ?_
    · exact (exists_iff.mp (h.succeeds.mp hphase)).2 hzero
    · obtain ⟨item, hmem, hno⟩ := h.gender hzero
      exact hno (hall item hmem)
  · have hexists : (saves tx).data.Exists catalog := exists_iff.mpr ⟨hall, hzero⟩
    refine iff_of_true ⟨iff_of_true hphase hexists, fun _ => ?_, fun hno => absurd hexists hno⟩
      ⟨?_, fun item hfind => ?_, fun h => absurd h hzero⟩
    · rw [← appended_eq_links hexists]
      exact hlinks
    · rwa [List.takeWhile_eq_self_iff.mpr (by simpa using hall)]
    · have hno := List.find?_some hfind
      exact absurd (hall item (List.mem_of_find?_eq_some hfind)) (by simpa using hno)

omit [DecidableEq Tx] in
theorem exact_iff_of_failed {e : HttpError} (hends : EndsWith saves tx rows₀ st (some e))
    (hfails : Fails catalog (saves tx).data.asked e) :
    UpdatesExactly catalog (saves tx) tx st ↔ Orderly catalog (saves tx).data := by
  obtain ⟨hphase, -⟩ := hends
  have hno : st.phase tx ≠ .committed := by simp [hphase]
  rcases hfails.answer with ⟨item, hmem, habsent, hdistinct, hfind, rfl⟩ | ⟨hdouble, rfl⟩
  · have hmissing : ¬ (saves tx).data.Exists catalog := fun h =>
      habsent ((exists_iff.mp h).1 item hmem)
    have hanswer := lookupError_eq_notFound item.1 item.2
    constructor
    · intro h
      obtain ⟨table, id, hfound⟩ := h.unknown hmissing
      rw [hphase, Phase.failed.injEq] at hfound
      have hfits := hanswer.mp ⟨table, id, hfound⟩
      refine ⟨hdistinct, fun item' hfind' => ?_, fun _ => ⟨item, hmem, habsent⟩⟩
      rw [hfind, Option.some.injEq] at hfind'
      exact hfind' ▸ hfits
    · intro h
      refine ⟨iff_of_false hno hmissing, fun hc => absurd hc hno, fun _ => ?_⟩
      obtain ⟨table, id, hfound⟩ := hanswer.mpr (h.fits item hfind)
      exact ⟨table, id, by rw [hphase, hfound]⟩
  · refine iff_of_false (fun h => ?_) fun h => hdouble h.distinct
    by_cases hexists : (saves tx).data.Exists catalog
    · exact hno (h.succeeds.mpr hexists)
    · obtain ⟨table, id, hfound⟩ := h.unknown hexists
      rw [hphase] at hfound
      cases hfound

/-- The request ends in one way only. It is the one that was asked for, if and only if the ids are
given in order. -/
theorem update_exact_iff (catalog : Catalog) (saves : Tx → Save) (tx : Tx)
    (rows₀ : OrderedDict Link ℕ) :
    ∃ st, RunsAlone catalog saves tx (.start saves rows₀) st ∧ (st.phase tx).Ended ∧
      (∀ st', RunsAlone catalog saves tx (.start saves rows₀) st' → (st'.phase tx).Ended →
        st' = st) ∧
      (UpdatesExactly catalog (saves tx) tx st ↔ Orderly catalog (saves tx).data) := by
  obtain ⟨links, st, hr, hends⟩ := ends_of_start catalog saves tx rows₀
  have hended : (st.phase tx).Ended := by
    revert hends
    cases firstError catalog [] ((saves tx).sql links) with
    | none => exact fun h => h.1 ▸ trivial
    | some e => exact fun h => h.1 ▸ trivial
  refine ⟨st, hr, hended, fun st' hr' hended' => ended_unique hr' hr hended' hended, ?_⟩
  rcases firstError_updateUserProfile catalog (saves tx).flushOrder (saves tx).user links
    (saves tx).data with ⟨hnone, hdistinct, hall⟩ | ⟨e, herror, hfails⟩
  · exact exact_iff_of_committed (hnone ▸ hends) hdistinct hall
  · exact exact_iff_of_failed (herror ▸ hends) hfails

/-! ### An interest asked for twice -/

theorem runsAlone_of_run {ls : List (Label Tx)} (hr : (saving catalog saves).Run st ls st')
    (hown : ∀ l ∈ ls, l = .runs tx) : RunsAlone catalog saves tx st st' := by
  induction hr with
  | nil => exact .refl
  | @snoc ls s s' l hr hstep ih =>
    rw [hown l (List.mem_append_right _ (List.mem_singleton_self l))] at hstep
    exact (ih fun m hm => hown m (List.mem_append_left _ hm)).tail hstep

theorem repeated_interest_fails : ¬ ∀ (catalog : Catalog) (save : Save) (rows₀ : OrderedDict Link ℕ)
    (st : State Unit), RunsAlone catalog (fun _ => save) () (.start (fun _ => save) rows₀) st →
      (st.phase ()).Ended → UpdatesExactly catalog save () st := by
  intro h
  let save := saveOf ⟨[1, 1], [], none⟩
  obtain ⟨st, hexec, hphase⟩ : ∃ st, Lts.exec (step seeds fun _ => save)
      (.start (fun _ => save) noLinks) (List.replicate 8 (.runs ())) = some st ∧
        st.phase () = .failed .serverError := ⟨_, rfl, rfl⟩
  have hr : RunsAlone seeds (fun _ => save) () (.start (fun _ => save) noLinks) st :=
    runsAlone_of_run (Lts.run_of_exec hexec) fun _ hl => List.eq_of_mem_replicate hl
  have hexists : save.data.Exists seeds := by
    simp [save, saveOf, UserProfileUpdate.Exists, seeds]
  have hcommitted := (h seeds save noLinks st hr (hphase ▸ trivial)).succeeds.mpr hexists
  rw [hphase] at hcommitted
  cases hcommitted

end Nalang.Profiles
