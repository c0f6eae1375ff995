import Mathlib.Data.Option.Basic
import Nalang.Library.Transition

/-!
# The session of a client

A page keeps its tokens in `localStorage` and its user in the store. Both are written
when the answers to its requests come, and the answers come in any order. A request that
is refused with 401 waits for a new access token and is sent again.
-/

namespace Nalang.Session
open Transition

structure Storage where
  accessToken : Option String
  refreshToken : Option String
  deriving DecidableEq

def Storage.empty : Storage := ⟨none, none⟩

/-- A text that counts as true is neither missing nor empty. -/
def truthy (text : Option String) : Option String := text.filter (· ≠ "")

/-! ### The slice of the store -/

section Slice
variable {υ : Type*}

structure AuthState (υ : Type*) where
  user : Option υ
  loading : Bool
  error : Option String

def AuthState.initial : AuthState υ := ⟨none, false, none⟩

inductive AuthAction (υ : Type*)
  | logout
  | registerPending
  | registerFulfilled (user : υ)
  | registerRejected (payload : String)
  | loginPending
  | loginFulfilled
  | loginRejected (payload : String)
  | fetchMePending
  | fetchMeFulfilled (user : υ)
  | fetchMeRejected (payload : String)

/-- `authSlice`. The actions of `logoutThunk` itself have no case. -/
def AuthState.reduce (state : AuthState υ) : AuthAction υ → AuthState υ
  | .logout => { state with user := none, loading := false, error := none }
  | .registerPending | .loginPending | .fetchMePending =>
    { state with loading := true, error := none }
  | .registerFulfilled user | .fetchMeFulfilled user =>
    { state with loading := false, user := some user }
  | .loginFulfilled => { state with loading := false }
  | .registerRejected payload | .loginRejected payload | .fetchMeRejected payload =>
    { state with loading := false, error := some payload }

end Slice

/-! ### Requests -/

structure Config where
  authorization : Option String
  skipAuth : Bool
  retry : Bool
  deriving DecidableEq

def bearer (token : String) : String := "Bearer " ++ token

def Config.intercept (storage : Storage) (config : Config) : Config :=
  let config := match truthy storage.accessToken with
    | some token =>
      if config.skipAuth then config else { config with authorization := some (bearer token) }
    | none => config
  { config with skipAuth := false }

inductive Caller
  | login
  | fetchMe
  | other

inductive Task
  | registerUser
  | logoutUser (refreshToken : String)
  | request (caller : Caller) (config : Config)
  /-- The call of `/refresh` for a request that has been refused. -/
  | refresh (refreshToken : String) (caller : Caller) (config : Config)

inductive Body (υ : Type*)
  | userResponse (accessToken refreshToken : String) (user : υ)
  | tokenResponse (accessToken refreshToken : String)
  | refreshResponse (accessToken : String)
  | profile (user : υ)
  | other

/-- Without a status the request has not reached the server. -/
inductive Answer (υ : Type*)
  | ok (body : Body υ)
  | failed (status : Option ℕ)

/-! ### The client -/

structure Client (υ : Type*) where
  storage : Storage
  auth : AuthState υ
  /-- The header `Authorization` in the defaults of `axiosInstance`. -/
  authorization : Option String
  pending : List Task
  href : Option String

inductive ClientEvent (υ : Type*)
  | registerThunk
  | loginThunk
  | logoutThunk
  | fetchMeThunk
  | call
  | socialCallback (accessToken refreshToken : Option String)
  | answer (index : ℕ) (answer : Answer υ)
  | load

namespace Client
variable {υ : Type*}

def load (storage : Storage) : Client υ := ⟨storage, .initial, none, [], none⟩

def start : Client υ := .load .empty

def dispatch (s : Client υ) (action : AuthAction υ) : Client υ :=
  { s with auth := s.auth.reduce action }

/-- The header of the request goes before the one of the defaults. -/
def send (s : Client υ) (caller : Caller) (config : Config) : Client υ :=
  let merged := { config with authorization := config.authorization.or s.authorization }
  { s with pending := s.pending ++ [.request caller (merged.intercept s.storage)] }

def setTokens (s : Client υ) (accessToken refreshToken : String) : Client υ :=
  { s with storage := ⟨some accessToken, some refreshToken⟩ }

def removeTokens (s : Client υ) : Client υ := { s with storage := .empty }

def registerThunk (s : Client υ) : Client υ :=
  { s.dispatch .registerPending with pending := s.pending ++ [.registerUser] }

def loginThunk (s : Client υ) : Client υ := (s.dispatch .loginPending).send .login ⟨none, true, false⟩

def logout (s : Client υ) : Client υ := s.removeTokens.dispatch .logout

def logoutThunk (s : Client υ) : Client υ :=
  match truthy s.storage.refreshToken with
  | some refreshToken => { s with pending := s.pending ++ [.logoutUser refreshToken] }
  | none => s.logout

def fetchMeThunk (s : Client υ) : Client υ :=
  match truthy s.storage.accessToken with
  | none => (s.dispatch .fetchMePending).dispatch (.fetchMeRejected "Failed to Fetch user")
  | some token => (s.dispatch .fetchMePending).send .fetchMe ⟨some (bearer token), false, false⟩

def call (s : Client υ) : Client υ := s.send .other ⟨none, false, false⟩

def socialCallback (s : Client υ) (accessToken refreshToken : Option String) : Client υ :=
  match truthy accessToken, truthy refreshToken with
  | some accessToken, some refreshToken => s.setTokens accessToken refreshToken
  | _, _ => s

def resolve (s : Client υ) : Caller → Body υ → Option (Client υ)
  | .login, .tokenResponse accessToken refreshToken =>
    some ((s.setTokens accessToken refreshToken).dispatch .loginFulfilled)
  | .fetchMe, .profile user => some (s.dispatch (.fetchMeFulfilled user))
  | .other, .other => some s
  | _, _ => none

def reject (s : Client υ) : Caller → Client υ
  | .login => s.dispatch (.loginRejected "Login Failed")
  | .fetchMe => s.dispatch (.fetchMeRejected "Failed to Fetch user")
  | .other => s

def redirect (s : Client υ) : Client υ := { s with href := some "/login" }

def interceptError (s : Client υ) (caller : Caller) (config : Config) (status : Option ℕ) :
    Client υ :=
  if status = some 401 ∧ config.retry = false then
    match truthy s.storage.refreshToken with
    | some refreshToken =>
      { s with pending := s.pending ++ [.refresh refreshToken caller { config with retry := true }] }
    | none => s.redirect.reject caller
  else s.reject caller

def refreshed (s : Client υ) (caller : Caller) (config : Config) (accessToken : String) :
    Client υ :=
  let s := { s with
    storage := { s.storage with accessToken := some accessToken }
    authorization := some (bearer accessToken) }
  s.send caller { config with authorization := some (bearer accessToken) }

def refreshFailed (s : Client υ) (caller : Caller) : Client υ :=
  s.removeTokens.redirect.reject caller

/-- An answer and what is done with it. A `logoutUser` that fails changes nothing. -/
def settle (s : Client υ) : Task → Answer υ → Option (Client υ)
  | .registerUser, .ok (.userResponse accessToken refreshToken user) =>
    some ((s.setTokens accessToken refreshToken).dispatch (.registerFulfilled user))
  | .registerUser, .failed _ => some (s.dispatch (.registerRejected "Register Failed"))
  | .logoutUser _, .ok .other => some s.logout
  | .logoutUser _, .failed _ => some s
  | .request caller _, .ok body => s.resolve caller body
  | .request caller config, .failed status => some (s.interceptError caller config status)
  | .refresh _ caller config, .ok (.refreshResponse accessToken) =>
    some (s.refreshed caller config accessToken)
  | .refresh _ caller _, .failed _ => some (s.refreshFailed caller)
  | _, _ => none

def step (s : Client υ) : ClientEvent υ → Option (Client υ)
  | .registerThunk => some s.registerThunk
  | .loginThunk => some s.loginThunk
  | .logoutThunk => some s.logoutThunk
  | .fetchMeThunk => some s.fetchMeThunk
  | .call => some s.call
  | .socialCallback accessToken refreshToken => some (s.socialCallback accessToken refreshToken)
  | .answer index answer =>
    match s.pending[index]? with
    | none => none
    | some task => { s with pending := s.pending.eraseIdx index }.settle task answer
  | .load => some (.load s.storage)

/-! ### What the parts leave alone -/

section Frames
variable (s : Client υ) (caller : Caller) (config : Config)

@[simp] theorem redirect_storage : s.redirect.storage = s.storage := rfl
@[simp] theorem redirect_auth : s.redirect.auth = s.auth := rfl

@[simp] theorem reject_storage : (s.reject caller).storage = s.storage := by cases caller <;> rfl

@[simp] theorem reject_user : (s.reject caller).auth.user = s.auth.user := by cases caller <;> rfl

@[simp] theorem interceptError_storage (status : Option ℕ) :
    (s.interceptError caller config status).storage = s.storage := by
  unfold interceptError
  split_ifs with h
  · cases truthy s.storage.refreshToken with
    | some refreshToken => rfl
    | none => simp
  · simp

@[simp] theorem interceptError_user (status : Option ℕ) :
    (s.interceptError caller config status).auth.user = s.auth.user := by
  unfold interceptError
  split_ifs with h
  · cases truthy s.storage.refreshToken with
    | some refreshToken => rfl
    | none => simp
  · simp

@[simp] theorem fetchMeThunk_storage : s.fetchMeThunk.storage = s.storage := by
  unfold fetchMeThunk
  cases truthy s.storage.accessToken <;> rfl

@[simp] theorem fetchMeThunk_user : s.fetchMeThunk.auth.user = s.auth.user := by
  unfold fetchMeThunk
  cases truthy s.storage.accessToken <;> rfl

end Frames

end Client

end Nalang.Session
