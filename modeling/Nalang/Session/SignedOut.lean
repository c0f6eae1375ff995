import Nalang.Session.Client

/-!
# What a logout leaves

A logout removes the tokens and the user, but nothing that is under way. A token that is
refreshed or a user that is fetched meanwhile is stored all the same.
-/

namespace Nalang.Session
open Transition

section Watching
variable {υ : Type*}

def Task.signsIn : Task → Bool
  | .registerUser => true
  | .request .login _ => true
  | _ => false

def Task.signsOut : Task → Bool
  | .logoutUser _ => true
  | _ => false

def Client.signsIn (s : Client υ) : ClientEvent υ → Bool
  | .socialCallback accessToken refreshToken =>
    (truthy accessToken).isSome && (truthy refreshToken).isSome
  | .answer index (.ok _) => s.pending[index]?.any Task.signsIn
  | _ => false

def Client.signsOut (s : Client υ) : ClientEvent υ → Bool
  | .logoutThunk => (truthy s.storage.refreshToken).isNone
  | .answer index (.ok _) => s.pending[index]?.any Task.signsOut
  | _ => false

structure Visit (υ : Type*) where
  client : Client υ
  signedOut : Bool

namespace Visit

def start : Visit υ := ⟨.start, false⟩

def watch (v : Visit υ) (e : ClientEvent υ) : Bool :=
  v.client.signsOut e || (v.signedOut && !v.client.signsIn e)

def step (v : Visit υ) (e : ClientEvent υ) : Option (Visit υ) :=
  (v.client.step e).map fun s => ⟨s, v.watch e⟩

structure StaysOut (v : Visit υ) : Prop where
  paired : v.client.storage.accessToken ≠ none → v.client.storage.refreshToken ≠ none
  out : v.signedOut = true → v.client.storage = .empty ∧ v.client.auth.user = none

/-- A task whose success is still wanted. -/
def Wants (v : Visit υ) : Task → Prop
  | .refresh _ _ _ => v.client.storage.refreshToken ≠ none
  | .request .fetchMe _ => v.signedOut = false
  | _ => True

/-- No token is refreshed when there is no refresh token any more, and no user is fetched after
a logout. -/
def Current (v : Visit υ) (e : ClientEvent υ) : Prop :=
  ∀ index body task, e = .answer index (.ok body) → v.client.pending[index]? = some task →
    v.Wants task

inductive Effect (v : Visit υ) (e : ClientEvent υ) (v' : Visit υ) : Prop
  | signsIn (haccess : v'.client.storage.accessToken ≠ none)
      (hrefresh : v'.client.storage.refreshToken ≠ none) (hout : v'.signedOut = false)
      (hcurrent : v.Current e)
  | signsOut (hstorage : v'.client.storage = .empty) (huser : v'.client.auth.user = none)
      (hcurrent : v.Current e)
  | revoked (hstorage : v'.client.storage = .empty)
      (huser : v'.client.auth.user = v.client.auth.user) (hout : v'.signedOut = v.signedOut)
      (hcurrent : v.Current e)
  | refreshed (haccess : v'.client.storage.accessToken ≠ none)
      (hrefresh : v'.client.storage.refreshToken = v.client.storage.refreshToken)
      (huser : v'.client.auth.user = v.client.auth.user) (hout : v'.signedOut = v.signedOut)
      (hcurrent : v.Current e ↔ v.client.storage.refreshToken ≠ none)
  | fetched (hstorage : v'.client.storage = v.client.storage)
      (huser : v'.client.auth.user ≠ none) (hout : v'.signedOut = v.signedOut)
      (hcurrent : v.Current e ↔ v.signedOut = false)
  | quiet (hstorage : v'.client.storage = v.client.storage)
      (huser : v.client.auth.user = none → v'.client.auth.user = none)
      (hout : v'.signedOut = v.signedOut) (hcurrent : v.Current e)

section Steps
variable {v v' : Visit υ} {e : ClientEvent υ}

theorem current_of_call (h : ∀ index body, e ≠ .answer index (.ok body)) : v.Current e :=
  fun index body _ he _ => absurd he (h index body)

theorem current_answer {index : ℕ} {task : Task} (body : Body υ)
    (htask : v.client.pending[index]? = some task) :
    v.Current (.answer index (.ok body)) ↔ v.Wants task := by
  constructor
  · intro h
    exact h index body task rfl htask
  · intro h index' body' task' he htask'
    cases he
    rw [htask] at htask'
    cases htask'
    exact h

theorem watch_failed {index : ℕ} {status : Option ℕ} :
    v.watch (.answer index (.failed status)) = v.signedOut := by
  simp [watch, Client.signsOut, Client.signsIn]

theorem watch_ok {index : ℕ} {task : Task} (body : Body υ)
    (htask : v.client.pending[index]? = some task) :
    v.watch (.answer index (.ok body)) = (task.signsOut || (v.signedOut && !task.signsIn)) := by
  simp [watch, Client.signsOut, Client.signsIn, htask]

theorem watch_signsIn {index : ℕ} {task : Task} {body : Body υ}
    (htask : v.client.pending[index]? = some task) (hout : task.signsOut = false)
    (hin : task.signsIn = true) : v.watch (.answer index (.ok body)) = false := by
  rw [watch_ok body htask, hout, hin]
  simp

theorem watch_neither {index : ℕ} {task : Task} {body : Body υ}
    (htask : v.client.pending[index]? = some task) (hout : task.signsOut = false)
    (hin : task.signsIn = false) : v.watch (.answer index (.ok body)) = v.signedOut := by
  rw [watch_ok body htask, hout, hin]
  simp

section Answers
variable {index : ℕ} {task : Task} {pending : List Task} {s : Client υ}

theorem effect_of_failed {status : Option ℕ}
    (hs : Client.settle { v.client with pending := pending } task (.failed status) = some s) :
    Effect v (.answer index (.failed status)) ⟨s, v.watch (.answer index (.failed status))⟩ := by
  have hcurrent : v.Current (.answer index (.failed status)) :=
    current_of_call fun index' body he => by cases he
  cases task with
  | registerUser =>
    cases hs
    exact .quiet rfl id watch_failed hcurrent
  | logoutUser refreshToken =>
    cases hs
    exact .quiet rfl id watch_failed hcurrent
  | request caller config =>
    cases hs
    refine .quiet (Client.interceptError_storage _ _ _ _) (fun hnone => ?_) watch_failed hcurrent
    rw [Client.interceptError_user]
    exact hnone
  | refresh refreshToken caller config =>
    cases hs
    exact .revoked (Client.reject_storage _ _) (Client.reject_user _ _) watch_failed hcurrent

theorem effect_of_ok {body : Body υ} (htask : v.client.pending[index]? = some task)
    (hs : Client.settle { v.client with pending := pending } task (.ok body) = some s) :
    Effect v (.answer index (.ok body)) ⟨s, v.watch (.answer index (.ok body))⟩ := by
  have hcurrent := current_answer body htask
  cases task with
  | registerUser =>
    cases body <;> cases hs
    exact .signsIn (Option.some_ne_none _) (Option.some_ne_none _) (watch_signsIn htask rfl rfl)
      (hcurrent.mpr trivial)
  | logoutUser refreshToken =>
    cases body <;> cases hs
    exact .signsOut rfl rfl (hcurrent.mpr trivial)
  | request caller config =>
    cases caller with
    | login =>
      cases body <;> cases hs
      exact .signsIn (Option.some_ne_none _) (Option.some_ne_none _) (watch_signsIn htask rfl rfl)
        (hcurrent.mpr trivial)
    | fetchMe =>
      cases body <;> cases hs
      exact .fetched rfl (Option.some_ne_none _) (watch_neither htask rfl rfl) hcurrent
    | other =>
      cases body <;> cases hs
      exact .quiet rfl id (watch_neither htask rfl rfl) (hcurrent.mpr trivial)
  | refresh refreshToken caller config =>
    cases body <;> cases hs
    exact .refreshed (Option.some_ne_none _) rfl rfl (watch_neither htask rfl rfl) hcurrent

end Answers

theorem quiet_of_call {s : Client υ} (hcall : ∀ index body, e ≠ .answer index (.ok body))
    (hin : v.client.signsIn e = false) (hout : v.client.signsOut e = false)
    (hstorage : s.storage = v.client.storage)
    (huser : v.client.auth.user = none → s.auth.user = none) : Effect v e ⟨s, v.watch e⟩ :=
  .quiet hstorage huser (by simp [watch, hin, hout]) (current_of_call hcall)

theorem effect_of_step (hstep : v.step e = some v') : Effect v e v' := by
  obtain ⟨s, hs, rfl⟩ := Option.map_eq_some_iff.mp hstep
  cases e with
  | registerThunk =>
    cases hs
    exact quiet_of_call (by simp) rfl rfl rfl id
  | loginThunk =>
    cases hs
    exact quiet_of_call (by simp) rfl rfl rfl id
  | logoutThunk =>
    cases hs
    cases htoken : truthy v.client.storage.refreshToken with
    | none =>
      have hnow : v.client.logoutThunk = v.client.logout := by simp [Client.logoutThunk, htoken]
      rw [hnow]
      exact .signsOut rfl rfl (current_of_call (by simp))
    | some refreshToken =>
      refine quiet_of_call (by simp) rfl ?_ ?_ fun hnone => ?_
      · simp [Client.signsOut, htoken]
      · simp [Client.logoutThunk, htoken]
      · simpa [Client.logoutThunk, htoken] using hnone
  | fetchMeThunk =>
    cases hs
    refine quiet_of_call (by simp) rfl rfl v.client.fetchMeThunk_storage fun hnone => ?_
    rw [Client.fetchMeThunk_user]
    exact hnone
  | call =>
    cases hs
    exact quiet_of_call (by simp) rfl rfl rfl id
  | socialCallback accessToken refreshToken =>
    cases hs
    unfold Client.socialCallback
    cases haccess : truthy accessToken with
    | none => exact quiet_of_call (by simp) (by simp [Client.signsIn, haccess]) rfl rfl id
    | some access =>
      cases hrefresh : truthy refreshToken with
      | none => exact quiet_of_call (by simp) (by simp [Client.signsIn, hrefresh]) rfl rfl id
      | some refresh =>
        refine .signsIn (Option.some_ne_none _) (Option.some_ne_none _) ?_
          (current_of_call (by simp))
        simp [watch, Client.signsOut, Client.signsIn, haccess, hrefresh]
  | answer index answer =>
    simp only [Client.step] at hs
    cases htask : v.client.pending[index]? with
    | none => simp [htask] at hs
    | some task =>
      simp only [htask] at hs
      cases answer with
      | ok body => exact effect_of_ok htask hs
      | failed status => exact effect_of_failed hs
  | load =>
    cases hs
    exact quiet_of_call (by simp) rfl rfl rfl fun _ => rfl

theorem staysOut_step (h : v.StaysOut) (hs : v.step e = some v') : v'.StaysOut ↔ v.Current e := by
  cases effect_of_step hs with
  | signsIn haccess hrefresh hout hcurrent =>
    refine iff_of_true ⟨fun _ => hrefresh, fun hnow => ?_⟩ hcurrent
    rw [hout] at hnow
    cases hnow
  | signsOut hstorage huser hcurrent =>
    refine iff_of_true ⟨fun haccess => ?_, fun _ => ⟨hstorage, huser⟩⟩ hcurrent
    rw [hstorage] at haccess
    exact absurd rfl haccess
  | revoked hstorage huser hout hcurrent =>
    refine iff_of_true ⟨fun haccess => ?_, fun hnow => ⟨hstorage, ?_⟩⟩ hcurrent
    · rw [hstorage] at haccess
      exact absurd rfl haccess
    · rw [huser]
      exact (h.out (hout ▸ hnow)).2
  | refreshed haccess hrefresh huser hout hcurrent =>
    rw [hcurrent]
    constructor
    · intro h'
      rw [← hrefresh]
      exact h'.paired haccess
    · intro hheld
      refine ⟨fun _ => hrefresh ▸ hheld, fun hnow => ?_⟩
      -- who still has a refresh token has not logged out
      rw [(h.out (hout ▸ hnow)).1] at hheld
      exact absurd rfl hheld
  | fetched hstorage huser hout hcurrent =>
    rw [hcurrent]
    constructor
    · intro h'
      cases hnow : v.signedOut with
      | false => rfl
      | true => exact absurd (h'.out (hout ▸ hnow)).2 huser
    · intro hin
      refine ⟨hstorage ▸ h.paired, fun hnow => ?_⟩
      rw [hout, hin] at hnow
      cases hnow
  | quiet hstorage huser hout hcurrent =>
    refine iff_of_true ⟨hstorage ▸ h.paired, fun hnow => ?_⟩ hcurrent
    obtain ⟨hempty, hnone⟩ := h.out (hout ▸ hnow)
    exact ⟨hstorage ▸ hempty, huser hnone⟩

end Steps

end Visit

def client : Lts (Visit υ) (ClientEvent υ) := Lts.ofStep Visit.step

/-- Exactly the runs in which nothing stale succeeds keep who has logged out signed out. -/
theorem stays_out_iff {es : List (ClientEvent υ)} {v : Visit υ} :
    (client.within Visit.StaysOut).Run .start es v ↔
      (client.guard Visit.Current).Run .start es v := by
  refine Lts.run_within_iff (fun _ => True) trivial (fun _ _ _ _ _ => trivial) ?_ ?_
  · exact ⟨fun h => absurd rfl h, fun h => nomatch h⟩
  · exact fun _ _ _ _ h hs => Visit.staysOut_step h hs

end Watching

/-! ### Signed in again -/

def refreshedLate : List (ClientEvent String) :=
  [.socialCallback (some "access") (some "refresh"), .call, .answer 0 (.failed (some 401)),
    .logoutThunk, .answer 1 (.ok .other), .answer 0 (.ok (.refreshResponse "access'"))]

def fetchedLate : List (ClientEvent String) :=
  [.socialCallback (some "access") (some "refresh"), .fetchMeThunk, .logoutThunk,
    .answer 1 (.ok .other), .answer 0 (.ok (.profile "user"))]

def remains (es : List (ClientEvent String)) : Option (Bool × Storage × Option String) :=
  (Lts.exec Visit.step .start es).map fun v => (v.signedOut, v.client.storage, v.client.auth.user)

theorem remains_late : remains refreshedLate = some (true, ⟨some "access'", none⟩, none) ∧
    remains fetchedLate = some (true, .empty, some "user") := by
  decide

theorem signed_in_again : ¬ ∀ (es : List (ClientEvent String)) v,
    client.Run .start es v → v.StaysOut := by
  intro hall
  obtain ⟨v, hv, heq⟩ := Option.map_eq_some_iff.mp remains_late.1
  obtain ⟨hout, hleft⟩ := Prod.mk.inj heq
  obtain ⟨hempty, -⟩ := (hall _ _ (Lts.run_of_exec hv)).out hout
  rw [hempty] at hleft
  exact absurd (Prod.mk.inj hleft).1 (by decide)

end Nalang.Session
