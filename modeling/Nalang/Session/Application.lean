import Mathlib.Data.List.Count
import Nalang.Session.Client

/-!
# The pages of the application

A path is displayed when `RequireAuth` finds an access token, and otherwise the login
page is. `App` is rendered once for a page that is loaded: where `/` leads and whether
the user is fetched is settled then, and a login that comes later does not change it.
-/

namespace Nalang.Session
open Transition

/-! ### `router.tsx` -/

inductive Route
  | index
  | home
  | register
  | profileSetup
  | login
  | callback
  | voiceRoom (roomName : String)
  | feed
  | chat
  | community
  | profile
  | waiting
  | history
  | other
  deriving DecidableEq

def Route.requireAuth : Route → Bool
  | .index | .login | .callback | .other => false
  | _ => true

def Route.isVoiceRoom : Route → Bool
  | .voiceRoom _ => true
  | _ => false

/-- A path and the tokens in its query, which only the callback reads. -/
structure Location where
  route : Route
  accessToken : Option String
  refreshToken : Option String

def Route.location (route : Route) : Location := ⟨route, none, none⟩

def Location.signsIn (location : Location) : Bool :=
  location.route = .callback && (truthy location.accessToken).isSome &&
    (truthy location.refreshToken).isSome

/-! ### `App.tsx` -/

section
variable {υ : Type*}

structure Application (υ : Type*) where
  client : Client υ
  /-- What `isAuthenticated` has given when `App` was rendered. -/
  authenticated : Bool
  route : Route
  /-- The submits of `ProfileSetup` that have not come to `fetchMeThunk`. -/
  saving : ℕ

inductive AppEvent (υ : Type*)
  | load (location : Location)
  | visit (location : Location)
  | login
  | register
  | logout
  | saveProfile
  | saved
  | call
  | answer (index : ℕ) (answer : Answer υ)

def Task.ofLogin : Task → Bool
  | .request .login _ | .refresh _ .login _ => true
  | _ => false

def Task.isLogin : Task → Bool
  | .request .login _ => true
  | _ => false

namespace Application

def signedIn (s : Application υ) : Bool := (truthy s.client.storage.accessToken).isSome

def requireAuth (s : Application υ) (route : Route) : Route :=
  if s.signedIn then route else .login

/-- What is rendered for a path after the redirects. -/
def display (s : Application υ) (route : Route) : Route :=
  match route with
  | .index => if s.authenticated then s.requireAuth .home else .login
  | .other => .login
  | _ => if route.requireAuth then s.requireAuth route else route

def render (s : Application υ) (route : Route) : Application υ :=
  { s with route := s.display route }

def redirectRegistered (s : Application υ) : Application υ :=
  if s.route = .register ∧ s.client.auth.user.isSome then s.render .profileSetup else s

/-- The effect of `SocialCallbackPage`, which runs when the page is mounted. -/
def readCallback (s : Application υ) (location : Location) : Application υ :=
  let s := { s with client := s.client.socialCallback location.accessToken location.refreshToken }
  if location.signsIn then s.render .home else s.render .login

def arrive (s : Application υ) (location : Location) : Application υ :=
  let s := s.render location.route
  if s.route = .callback then s.readCallback location else s.redirectRegistered

/-- The element of a route stays as it is when only its parameter changes, and then only the effect
of `VoiceCallRoom` looks for the token. -/
def visit (s : Application υ) (location : Location) : Application υ :=
  if s.route = location.route then s
  else if s.route.isVoiceRoom && location.route.isVoiceRoom then
    if s.signedIn then { s with route := location.route } else s.render .index
  else s.arrive location

/-- The effects of the page run before the one of `App`. -/
def load (storage : Storage) (location : Location) : Application υ :=
  let blank : Application υ := ⟨.load storage, (truthy storage.accessToken).isSome, .other, 0⟩
  let s := blank.arrive location
  if s.signedIn then { s with client := s.client.fetchMeThunk } else s

/-- The `then` of `handleLogin` goes to the home page however the login has ended. -/
def afterAnswer (s : Application υ) (client : Client υ) : Application υ :=
  let before := s.client.pending.countP Task.ofLogin
  let s := { s with client := client }
  let s := if client.pending.countP Task.ofLogin < before then s.visit Route.home.location else s
  s.redirectRegistered

def step (s : Application υ) : AppEvent υ → Option (Application υ)
  | .load location => some (load s.client.storage location)
  | .visit location => some (s.visit location)
  | .login =>
    if s.route = .login ∧ s.client.auth.loading = false then
      some { s with client := s.client.loginThunk }
    else none
  | .register =>
    if s.route = .register ∧ s.client.auth.loading = false then
      some { s with client := s.client.registerThunk }
    else none
  | .logout =>
    if s.route = .profile then
      some ({ s with client := s.client.logoutThunk }.visit Route.login.location)
    else none
  | .saveProfile =>
    if s.route = .profileSetup ∧ s.signedIn then
      some { s with client := s.client.call, saving := s.saving + 1 }
    else none
  | .saved =>
    if 0 < s.saving then
      some { s with client := s.client.fetchMeThunk, saving := s.saving - 1 }
    else none
  | .call => some { s with client := s.client.call }
  | .answer index answer => (s.client.step (.answer index answer)).map s.afterAnswer

def signsIn (s : Application υ) : AppEvent υ → Bool
  | .load location | .visit location => location.signsIn
  | .answer index (.ok _) => s.client.pending[index]?.any Task.isLogin
  | _ => false

end Application

def application : Lts (Application υ) (AppEvent υ) := Lts.ofStep Application.step

/-! ### Before anybody has signed in -/

namespace Application

def Anonymous : Task → Prop
  | .request .login _ | .request .other _ => True
  | _ => False

structure SignedOut (s : Application υ) : Prop where
  storage : s.client.storage = .empty
  user : s.client.auth.user = none
  pending : ∀ task ∈ s.client.pending, Anonymous task
  route : s.route = .login
  saving : s.saving = 0

variable {s s' : Application υ} {location : Location} {e : AppEvent υ}

theorem signedIn_eq_false (h : s.client.storage = .empty) : s.signedIn = false := by
  unfold signedIn
  rw [h]
  rfl

theorem display_of_signedOut (h : s.signedIn = false) (route : Route) :
    s.display route = .login ∨ s.display route = .callback ∧ route = .callback := by
  have hguard : ∀ r, s.requireAuth r = .login := by
    intro r
    simp [requireAuth, h]
  cases route with
  | index =>
    unfold display
    split_ifs <;> simp [hguard]
  | callback => exact .inr ⟨rfl, rfl⟩
  | other => exact .inl rfl
  | login => exact .inl rfl
  | _ => exact .inl (hguard _)

theorem socialCallback_of_not_signsIn {client : Client υ} (hroute : location.route = .callback)
    (h : location.signsIn = false) :
    client.socialCallback location.accessToken location.refreshToken = client := by
  unfold Location.signsIn at h
  unfold Client.socialCallback
  rw [hroute] at h
  cases haccess : truthy location.accessToken with
  | none => rfl
  | some access =>
    cases hrefresh : truthy location.refreshToken with
    | none => rfl
    | some refresh => simp [haccess, hrefresh] at h

theorem arrive_of_signedOut (h : s.signedIn = false) (hloc : location.signsIn = false) :
    s.arrive location = { s with route := .login } := by
  unfold arrive
  rcases display_of_signedOut h location.route with hroute | ⟨hcallback, hroute⟩
  · have hrender : s.render location.route = { s with route := .login } := by
      unfold render
      rw [hroute]
    simp only [hrender]
    rfl
  · have hrender : s.render location.route = { s with route := .callback } := by
      unfold render
      rw [hcallback]
    simp only [hrender, if_true]
    unfold readCallback
    simp only [socialCallback_of_not_signsIn hroute hloc, hloc]
    rfl

theorem visit_of_login (hroute : s.route = .login) (h : s.signedIn = false)
    (hloc : location.signsIn = false) : s.visit location = s := by
  have hnot : s.route.isVoiceRoom = false := by rw [hroute]; rfl
  unfold visit
  rw [hnot, Bool.false_and, if_neg Bool.false_ne_true, arrive_of_signedOut h hloc, ← hroute]
  exact ite_self _

theorem load_of_empty (hloc : location.signsIn = false) :
    (load .empty location : Application υ) = ⟨.load .empty, false, .login, 0⟩ := by
  unfold load
  simp only [arrive_of_signedOut (s := (⟨.load .empty, _, .other, 0⟩ : Application υ)) rfl hloc]
  rfl

theorem signedOut_load (hloc : location.signsIn = false) :
    (load .empty location : Application υ).SignedOut := by
  rw [load_of_empty hloc]
  exact ⟨rfl, rfl, fun _ h => absurd h List.not_mem_nil, rfl, rfl⟩

theorem SignedOut.settle (h : s.SignedOut) {task : Task} {pending : List Task} {answer : Answer υ}
    {client : Client υ} (htask : Anonymous task)
    (hlogin : task.isLogin = true → ∀ body, answer ≠ .ok body)
    (hs : Client.settle { s.client with pending := pending } task answer = some client) :
    client.storage = .empty ∧ client.auth.user = none ∧ client.pending = pending := by
  cases task with
  | request caller config =>
    cases answer with
    | ok body =>
      cases caller with
      | login => exact absurd rfl (hlogin rfl body)
      | fetchMe => exact htask.elim
      | other =>
        cases body <;> cases hs
        exact ⟨h.storage, h.user, rfl⟩
    | failed status =>
      cases hs
      refine ⟨?_, ?_, ?_⟩
      · rw [Client.interceptError_storage]
        exact h.storage
      · rw [Client.interceptError_user]
        exact h.user
      · have hrefresh : truthy s.client.storage.refreshToken = none := by
          rw [h.storage]
          rfl
        unfold Client.interceptError
        simp only [hrefresh]
        split_ifs <;> cases caller <;> rfl
  | registerUser => exact htask.elim
  | logoutUser refreshToken => exact htask.elim
  | refresh refreshToken caller config => exact htask.elim

theorem afterAnswer_of_login (hroute : s.route = .login) {client : Client υ}
    (h : client.storage = .empty) : s.afterAnswer client = { s with client := client } := by
  have hvisit : Application.visit { s with client := client } Route.home.location =
      { s with client := client } :=
    visit_of_login hroute (signedIn_eq_false h) rfl
  unfold afterAnswer
  simp only [hvisit, ite_self]
  refine if_neg fun hregister => ?_
  have hsame := hregister.1
  rw [hroute] at hsame
  cases hsame

theorem signedOut_step (h : s.SignedOut) (hquiet : s.signsIn e = false)
    (hs : application.step s e s') : s'.SignedOut ∧ e ≠ .register := by
  change s.step e = some s' at hs
  cases e with
  | load location =>
    cases hs
    refine ⟨?_, nofun⟩
    rw [h.storage]
    exact signedOut_load hquiet
  | visit location =>
    cases hs
    refine ⟨?_, nofun⟩
    rw [visit_of_login h.route (signedIn_eq_false h.storage) hquiet]
    exact h
  | login =>
    obtain ⟨-, hs⟩ := Option.ite_none_right_eq_some.mp hs
    cases hs
    refine ⟨⟨h.storage, h.user, fun task htask => ?_, h.route, h.saving⟩, nofun⟩
    rcases List.mem_append.mp htask with htask | htask
    · exact h.pending task htask
    · rw [List.mem_singleton.mp htask]
      trivial
  | register =>
    obtain ⟨⟨hroute, -⟩, -⟩ := Option.ite_none_right_eq_some.mp hs
    rw [h.route] at hroute
    cases hroute
  | logout =>
    obtain ⟨hroute, -⟩ := Option.ite_none_right_eq_some.mp hs
    rw [h.route] at hroute
    cases hroute
  | saveProfile =>
    obtain ⟨⟨hroute, -⟩, -⟩ := Option.ite_none_right_eq_some.mp hs
    rw [h.route] at hroute
    cases hroute
  | saved =>
    obtain ⟨hsaving, -⟩ := Option.ite_none_right_eq_some.mp hs
    rw [h.saving] at hsaving
    cases hsaving
  | call =>
    cases hs
    refine ⟨⟨h.storage, h.user, fun task htask => ?_, h.route, h.saving⟩, nofun⟩
    rcases List.mem_append.mp htask with htask | htask
    · exact h.pending task htask
    · rw [List.mem_singleton.mp htask]
      trivial
  | answer index answer =>
    obtain ⟨client, hclient, rfl⟩ := Option.map_eq_some_iff.mp hs
    refine ⟨?_, nofun⟩
    unfold Client.step at hclient
    cases htask : s.client.pending[index]? with
    | none => simp [htask] at hclient
    | some task =>
      simp only [htask] at hclient
      have hlogin : task.isLogin = true → ∀ body, answer ≠ .ok body := by
        intro hin body hok
        simp [signsIn, hok, htask, hin] at hquiet
      obtain ⟨hstorage, huser, hpending⟩ :=
        h.settle (h.pending task (List.mem_of_getElem? htask)) hlogin hclient
      rw [afterAnswer_of_login h.route hstorage]
      refine ⟨hstorage, huser, fun t ht => h.pending t ?_, h.route, h.saving⟩
      rw [hpending] at ht
      exact List.mem_of_mem_eraseIdx ht

/-- Until a login by the form succeeds or a social login comes back, a page that has been loaded
without tokens displays the login page only, and nobody can register. -/
theorem login_page_until_signed_in {es : List (AppEvent υ)} (hloc : location.signsIn = false)
    (hr : (application.guard fun s e => s.signsIn e = false).Run (.load .empty location) es s) :
    s.SignedOut ∧ .register ∉ es := by
  refine hr.history (fun es s => s.SignedOut ∧ .register ∉ es) ⟨signedOut_load hloc, by simp⟩ ?_
  intro es s e s' ⟨h, hes⟩ hs
  obtain ⟨hnext, he⟩ := signedOut_step h hs.1 hs.2
  refine ⟨hnext, fun hmem => ?_⟩
  rcases List.mem_append.mp hmem with hmem | hmem
  · exact hes hmem
  · exact he (List.mem_singleton.mp hmem).symm

end Application

end

def turnedAway : List (AppEvent String) :=
  [.visit Route.register.location, .login, .answer 0 (.failed (some 400)),
    .visit Route.profile.location]

def loadedWithoutTokens (route : Route) : Application String := .load .empty route.location

theorem login_page_until_signed_in_applied : ∃ s,
    application.Run (loadedWithoutTokens .register) turnedAway s ∧ s.route = .login ∧
      s.client.auth.error = some "Login Failed" := by
  obtain ⟨s, hexec, herror⟩ : ∃ s,
      Lts.exec (Lts.checked Application.step fun s e => !s.signsIn e)
        (loadedWithoutTokens .register) turnedAway = some s ∧
      s.client.auth.error = some "Login Failed" := ⟨_, rfl, rfl⟩
  have hr : (application.guard fun s e => s.signsIn e = false).Run (loadedWithoutTokens .register)
      turnedAway s :=
    Lts.guard_run_of_checked (fun _ _ h => by simpa using h) hexec
  exact ⟨s, hr.of_guard, (Application.login_page_until_signed_in rfl hr).1.route, herror⟩

end Nalang.Session
