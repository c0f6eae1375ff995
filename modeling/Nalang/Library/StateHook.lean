import Mathlib.Algebra.BigOperators.Group.List.Basic

/-!
# State hooks

A view keeps a value as it was last rendered, and a queue of the updates since then.
The next render applies them in their order.
-/

structure StateHook (σ υ : Type*) where
  rendered : σ
  queue : List υ

namespace StateHook
variable {σ υ : Type*}

def dispatch (h : StateHook σ υ) (u : υ) : StateHook σ υ := { h with queue := h.queue ++ [u] }

def value (reduce : σ → υ → σ) (h : StateHook σ υ) : σ := h.queue.foldl reduce h.rendered

def render (reduce : σ → υ → σ) (h : StateHook σ υ) : StateHook σ υ := ⟨h.value reduce, []⟩

variable {reduce : σ → υ → σ} {h : StateHook σ υ}

@[simp] theorem value_dispatch (u : υ) : (h.dispatch u).value reduce = reduce (h.value reduce) u := by
  simp [value, dispatch]

@[simp] theorem value_render : (h.render reduce).value reduce = h.value reduce := rfl

@[simp] theorem dispatch_rendered (u : υ) : (h.dispatch u).rendered = h.rendered := rfl

@[simp] theorem dispatch_queue (u : υ) : (h.dispatch u).queue = h.queue ++ [u] := rfl

theorem value_eq_add_sum [AddMonoid σ] (weight : υ → σ) (hadd : ∀ s u, reduce s u = s + weight u) :
    h.value reduce = h.rendered + (h.queue.map weight).sum := by
  have hfold : ∀ (us : List υ) (s : σ), us.foldl reduce s = s + (us.map weight).sum := by
    intro us
    induction us with
    | nil => simp
    | cons u us ih =>
      intro s
      simp only [List.foldl_cons, List.map_cons, List.sum_cons]
      rw [ih, hadd, add_assoc]
  exact hfold h.queue h.rendered

end StateHook
