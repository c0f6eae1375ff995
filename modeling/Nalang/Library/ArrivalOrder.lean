import Nalang.Library.Transition
import Mathlib.Data.List.TakeWhile

/-!
# Queues in the order of arrival

A queue moves by steps in which some elements leave, wherever they stand, and new
ones come to the end. The history of the queue tells how long an element has been
in it without a break, and by this the queue is ordered.
-/

namespace ArrivalOrder
open Transition

section Queues
variable {α : Type*}

/-- Some elements leave and others, which were not there, come to the end. -/
structure Moves (q q' : List α) : Prop where
  append : ∃ kept new, q' = kept ++ new ∧ kept.Sublist q ∧ ∀ a ∈ new, a ∉ q

theorem moves_of_sublist {q q' : List α} (h : q'.Sublist q) : Moves q q' :=
  ⟨q', [], by simp, h, by simp⟩

theorem moves_append {q new : List α} (h : ∀ a ∈ new, a ∉ q) : Moves q (q ++ new) :=
  ⟨q, new, rfl, List.Sublist.refl q, h⟩

variable [DecidableEq α]

/-- In how many of the latest queues of the history the element is, without a break. -/
def stay (history : List (List α)) (a : α) : ℕ :=
  (history.reverse.takeWhile fun q => decide (a ∈ q)).length

@[simp] theorem stay_snoc (history : List (List α)) (q : List α) (a : α) :
    stay (history ++ [q]) a = if a ∈ q then stay history a + 1 else 0 := by
  unfold stay
  rw [List.reverse_append, List.reverse_singleton, List.singleton_append, List.takeWhile_cons]
  by_cases h : a ∈ q
  · simp [h]
  · simp [h]

/-- Nobody stands before somebody who has been there for longer. -/
def Ordered (history : List (List α)) (q : List α) : Prop :=
  q.Pairwise fun a b => stay history b ≤ stay history a

theorem ordered_start (q : List α) : Ordered [q] q := by
  apply List.pairwise_of_forall_mem_list
  intro a ha b hb
  have h := stay_snoc [] q
  rw [List.nil_append] at h
  rw [h a, h b, if_pos ha, if_pos hb]
  exact le_refl 1

theorem Ordered.move {history : List (List α)} {q q' : List α}
    (h : Ordered (history ++ [q]) q) (hm : Moves q q') :
    Ordered (history ++ [q] ++ [q']) q' := by
  obtain ⟨kept, new, rfl, hkept, hnew⟩ := hm.append
  have hstay : ∀ a ∈ kept ++ new, stay (history ++ [q] ++ [kept ++ new]) a =
      stay (history ++ [q]) a + 1 := by
    intro a ha
    rw [stay_snoc, if_pos ha]
  have hzero : ∀ a ∈ new, stay (history ++ [q]) a = 0 := by
    intro a ha
    rw [stay_snoc, if_neg (hnew a ha)]
  have hall : (kept ++ new).Pairwise fun a b =>
      stay (history ++ [q]) b ≤ stay (history ++ [q]) a := by
    refine List.pairwise_append.mpr ⟨h.sublist hkept, ?_, ?_⟩
    · apply List.pairwise_of_forall_mem_list
      intro a _ b hb
      rw [hzero b hb]
      exact Nat.zero_le _
    · intro a _ b hb
      rw [hzero b hb]
      exact Nat.zero_le _
  refine List.Pairwise.imp_of_mem ?_ hall
  intro a b ha hb hab
  rw [hstay a ha, hstay b hb]
  exact Nat.succ_le_succ hab

theorem Ordered.longest {history : List (List α)} {q pre post : List α} {a : α} {P : α → Prop}
    (h : Ordered history q) (hq : q = pre ++ a :: post) (hpre : ∀ b ∈ pre, ¬ P b) :
    ∀ b ∈ q, P b → stay history b ≤ stay history a := by
  intro b hb hp
  subst hq
  rcases List.mem_append.mp hb with hb | hb
  · exact absurd hp (hpre b hb)
  rcases List.mem_cons.mp hb with rfl | hb
  · exact le_refl _
  · exact (List.pairwise_cons.mp (List.pairwise_append.mp h).2.1).1 b hb

end Queues

section Runs
variable {σ ℓ α : Type*} [DecidableEq α] {T : Lts σ ℓ}

def history (queue : σ → List α) (s : List (σ × ℓ) × σ) : List (List α) :=
  s.1.map (fun e => queue e.1) ++ [queue s.2]

/-- Where every step moves the queue, it is ordered by arrival in every state of every run. -/
theorem ordered_of_run {queue : σ → List α} (I : σ → Prop) {s₀ : σ} (h₀ : I s₀)
    (hinv : ∀ s l s', I s → T.step s l s' → I s')
    (hmoves : ∀ s l s', I s → T.step s l s' → Moves (queue s) (queue s')) {ls : List ℓ}
    {s : List (σ × ℓ) × σ} (hr : T.recorded.Run ([], s₀) ls s) :
    Ordered (history queue s) (queue s.2) := by
  refine (hr.invariant (fun s => I s.2 ∧ Ordered (history queue s) (queue s.2)) ?_ ?_).2
  · exact ⟨h₀, ordered_start (queue s₀)⟩
  · intro s l s' ih hstep
    obtain ⟨hlog, hnext⟩ := hstep
    refine ⟨hinv _ _ _ ih.1 hnext, ?_⟩
    have hmove := ih.2.move (hmoves _ _ _ ih.1 hnext)
    unfold history
    rw [hlog, List.map_append, List.map_singleton]
    exact hmove

end Runs
end ArrivalOrder
