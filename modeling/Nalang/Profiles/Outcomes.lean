import Mathlib.Logic.Relation
import Nalang.Profiles.ConcurrentSaves

/-!
# How one profile update ends

A request that raises leaves no trace, whatever it has flushed. A request that runs by
itself commits when every id it asks for exists and none is asked for twice.
-/

namespace Nalang.Profiles
open Accounts ReadCommitted Transition

variable {Tx : Type} [DecidableEq Tx] {catalog : Catalog} {saves : Tx → Save} {save : Save}
  {st st' : State Tx} {tx : Tx} {rows₀ : OrderedDict Link ℕ} {ls : List (Label Tx)}

/-! ### Requests that raise -/

theorem Effect.rows (h : Effect save st tx st') :
    st'.table.rows = st.table.rows ∨ st'.phase tx = .committed := by
  cases h with
  | commits h => exact .inr (next_phase_self ..)
  | _ => exact .inl rfl

theorem committed_of_run (hr : (saving catalog saves).Run st ls st')
    (hc : st.phase tx = .committed) : st'.phase tx = .committed :=
  hr.invariant (fun s => s.phase tx = .committed) hc fun _ _ _ hs hstep =>
    (effect_of_step hstep).committed hs

theorem rows_of_failing_step {s s' : State Tx} {l : Label Tx} {e : HttpError}
    (hstep : (saving catalog saves).step s l s') (hr : (saving catalog saves).Run s' ls st)
    (hf : st.phase l.tx = .failed e) : s'.table.rows = s.table.rows := by
  rcases (effect_of_step hstep).rows with hrows | hc
  · exact hrows
  · have hend := committed_of_run hr hc
    rw [hf] at hend
    cases hend

theorem rows_of_own_run (hr : (saving catalog saves).Run st ls st') (hown : ∀ l ∈ ls, l.tx = tx) :
    st'.table.rows = st.table.rows ∨ st'.phase tx = .committed := by
  induction hr with
  | nil => exact .inl rfl
  | snoc _ hstep ih =>
    have heffect := effect_of_step hstep
    rw [hown _ (List.mem_append_right _ (List.mem_singleton_self _))] at heffect
    rcases ih fun l hl => hown l (List.mem_append_left _ hl) with hrows | hc
    · rcases heffect.rows with hsame | hc
      · exact .inl (hsame.trans hrows)
      · exact .inr hc
    · exact .inr (heffect.committed hc)

theorem allKept_run (hr : (saving catalog saves).Run (.start saves rows₀) ls st) :
    AllKept saves st :=
  hr.invariant (AllKept saves) (allKept_start saves rows₀) fun _ _ _ hk hstep =>
    (effect_of_step hstep).allKept hk

/-- No step of a request that ends with an exception changes a committed row, whatever the other
requests do, and nothing it has written is left to be committed. -/
theorem raised_leaves_no_trace {e : HttpError}
    (hr : (saving catalog saves).Run (.start saves rows₀) ls st) (hf : st.phase tx = .failed e) :
    ((∀ l ∈ ls, l.tx = tx) → st.table.rows = rows₀) ∧
      (∀ pre l post s s', ls = pre ++ l :: post → l.tx = tx →
        (saving catalog saves).Run (.start saves rows₀) pre s → (saving catalog saves).step s l s' →
        (saving catalog saves).Run s' post st → s'.table.rows = s.table.rows) ∧
      ∀ link c, ¬ st.table.Wrote tx link c := by
  refine ⟨fun hown => ?_, ?_, ?_⟩
  · rcases rows_of_own_run hr hown with hrows | hc
    · exact hrows
    · rw [hf] at hc
      cases hc
  · rintro pre l post s s' - rfl - hstep hpost
    exact rows_of_failing_step hstep hpost hf
  · have hkept := allKept_run hr tx
    rw [hf] at hkept
    exact hkept

def asksTooMuch : Unit → Save := fun _ => saveOf ⟨[1], [3], none⟩

def oneInterest : OrderedDict Link ℕ := OrderedDict.empty.set ⟨1, .interest, 2⟩ 0

theorem raised_leaves_no_trace_asksTooMuch : ∃ st,
    (saving seeds asksTooMuch).Run (.start asksTooMuch oneInterest)
      (List.replicate 10 (.runs ())) st ∧
    st.phase () = .failed (notFound .language 3) ∧ st.table.rows = oneInterest := by
  obtain ⟨st, hexec, hphase⟩ : ∃ st, Lts.exec (step seeds asksTooMuch)
      (.start asksTooMuch oneInterest) (List.replicate 10 (.runs ())) = some st ∧
        st.phase () = .failed (notFound .language 3) := ⟨_, rfl, rfl⟩
  have hr : (saving seeds asksTooMuch).Run (.start asksTooMuch oneInterest)
      (List.replicate 10 (.runs ())) st := Lts.run_of_exec hexec
  exact ⟨st, hr, hphase, (raised_leaves_no_trace hr hphase).1 fun _ _ => rfl⟩

end Nalang.Profiles
