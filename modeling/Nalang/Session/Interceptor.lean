import Nalang.Library.Program
import Nalang.Session.Client

/-!
# One request of `axiosInstance`

The interceptor of failures calls `axiosInstance` again, which has the same interceptor.
The flag `_retry` on the config is what ends this. The second promise is returned from
the `try` block and not awaited there, so its failure does not reach the `catch`.
-/

namespace Nalang.Session
open Interaction Transition

inductive Key
  | accessToken
  | refreshToken
  deriving DecidableEq

inductive Op
  | getItem (key : Key)
  | setItem (key : Key) (value : String)
  | removeItem (key : Key)
  | getDefault
  | setDefault (authorization : String)
  | assignHref (path : String)
  | request (config : Config)
  /-- The call of `/refresh`, which goes around the interceptors. -/
  | refresh (refreshToken : String)

section
variable {ρ : Type}

/-- A failure without a status has not reached the server. -/
abbrev Reply (ρ : Type) := Except (Option ℕ) ρ

variable (ρ) in
/-- An answer of `/refresh` carries an access token. -/
abbrev Op.Answer : Op → Type
  | .getItem _ => Option String
  | .getDefault => Option String
  | .request _ => Reply ρ
  | .refresh _ => Reply String
  | _ => Unit

inductive Failure
  | request (status : Option ℕ)
  | refresh (status : Option ℕ)
  deriving DecidableEq

def Config.authorize (config : Config) (token : Option String) : Config :=
  let config := match truthy token with
    | some token =>
      if config.skipAuth then config else { config with authorization := some (bearer token) }
    | none => config
  { config with skipAuth := false }

@[simp] theorem authorize_retry (config : Config) (token : Option String) :
    (config.authorize token).retry = config.retry := by
  unfold Config.authorize
  cases truthy token with
  | none => rfl
  | some token =>
    dsimp only
    split_ifs <;> rfl

/-- The defaults of the instance give way to the config. -/
def Config.merge (config : Config) (defaults : Option String) : Config :=
  { config with authorization := config.authorization.or defaults }

abbrev perform (op : Op) : Program (Op.Answer ρ) (op.Answer ρ) := .perform op

mutual

def axiosInstance (config : Config) : Program (Op.Answer ρ) (Except Failure ρ) := do
  let defaults : Option String ← perform .getDefault
  let token : Option String ← perform (.getItem .accessToken)
  let originalRequest := (config.merge defaults).authorize token
  let reply : Reply ρ ← perform (.request originalRequest)
  match reply with
  | .ok response => return .ok response
  | .error status => interceptError originalRequest status
termination_by (if config.retry then 0 else 1, 1)

def interceptError (originalRequest : Config) (status : Option ℕ) :
    Program (Op.Answer ρ) (Except Failure ρ) := do
  if _h : status = some 401 ∧ originalRequest.retry = false then
    let item : Option String ← perform (.getItem .refreshToken)
    match truthy item with
    | some refreshToken =>
      let res : Reply String ← perform (.refresh refreshToken)
      match res with
      | .ok newAccessToken =>
        let _ ← perform (.setItem .accessToken newAccessToken)
        let _ ← perform (.setDefault (bearer newAccessToken))
        axiosInstance
          { originalRequest with retry := true, authorization := some (bearer newAccessToken) }
      | .error refreshError =>
        let _ ← perform (.removeItem .accessToken)
        let _ ← perform (.removeItem .refreshToken)
        let _ ← perform (.assignHref "/login")
        return .error (.refresh refreshError)
    | none =>
      let _ ← perform (.assignHref "/login")
      return .error (.request status)
  else return .error (.request status)
termination_by (if originalRequest.retry then 0 else 1, 0)
decreasing_by exact .left _ _ (by simp [_h.2])

end

/-! ### Between the answers -/

def respond (config : Config) : Reply ρ → Program (Op.Answer ρ) (Except Failure ρ)
  | .ok response => .ret (.ok response)
  | .error status => interceptError config status

def recover (config : Config) : Reply String → Program (Op.Answer ρ) (Except Failure ρ)
  | .ok newAccessToken =>
    .call (.setItem .accessToken newAccessToken) fun _ =>
      .call (.setDefault (bearer newAccessToken)) fun _ =>
        axiosInstance { config with retry := true, authorization := some (bearer newAccessToken) }
  | .error refreshError =>
    .call (.removeItem .accessToken) fun _ => .call (.removeItem .refreshToken) fun _ =>
      .call (.assignHref "/login") fun _ => .ret (.error (.refresh refreshError))

theorem axiosInstance_eq (config : Config) : axiosInstance (ρ := ρ) config =
    .call .getDefault fun defaults => .call (.getItem .accessToken) fun token =>
      .call (.request ((config.merge defaults).authorize token))
        (respond ((config.merge defaults).authorize token)) := by
  rw [axiosInstance]
  rfl

theorem interceptError_eq {config : Config} (hretry : config.retry = false) :
    interceptError (ρ := ρ) config (some 401) = .call (.getItem .refreshToken) fun item =>
      match truthy item with
      | some token => .call (.refresh token) (recover config)
      | none => .call (.assignHref "/login") fun _ => .ret (.error (.request (some 401))) := by
  rw [interceptError, dif_pos ⟨rfl, hretry⟩]
  rfl

theorem interceptError_final {config : Config} {status : Option ℕ}
    (hfinal : ¬ (status = some 401 ∧ config.retry = false)) :
    interceptError (ρ := ρ) config status = .ret (.error (.request status)) := by
  rw [interceptError, dif_neg hfinal]
  rfl

end

/-! ### The browser -/

structure Browser where
  accessToken : Option String
  refreshToken : Option String
  authorization : Option String
  href : Option String

namespace Browser

def item (s : Browser) : Key → Option String
  | .accessToken => s.accessToken
  | .refreshToken => s.refreshToken

def setItem (s : Browser) (value : Option String) : Key → Browser
  | .accessToken => { s with accessToken := value }
  | .refreshToken => { s with refreshToken := value }

end Browser

section
variable {ρ : Type}

/-- While a request waits, other requests and other pages may do anything. -/
def answers : Semantics Browser (Op.Answer ρ)
  | .getItem key, s, answer, s' => answer = s.item key ∧ s' = s
  | .setItem key value, s, _, s' => s' = s.setItem (some value) key
  | .removeItem key, s, _, s' => s' = s.setItem none key
  | .getDefault, s, answer, s' => answer = s.authorization ∧ s' = s
  | .setDefault authorization, s, _, s' => s' = { s with authorization := some authorization }
  | .assignHref path, s, _, s' => s' = { s with href := some path }
  | .request _, _, _, _ => True
  | .refresh _, _, _, _ => True

theorem answers_total : Total (answers (ρ := ρ)) := by
  intro op s
  cases op with
  | getItem key => exact ⟨_, _, rfl, rfl⟩
  | setItem key value => exact ⟨(), _, rfl⟩
  | removeItem key => exact ⟨(), _, rfl⟩
  | getDefault => exact ⟨_, _, rfl, rfl⟩
  | setDefault authorization => exact ⟨(), _, rfl⟩
  | assignHref path => exact ⟨(), _, rfl⟩
  | request config => exact ⟨.error none, s, trivial⟩
  | refresh refreshToken => exact ⟨.error none, s, trivial⟩

/-! ### The histories of a request -/

def opening (config : Config) (s : Browser) (reply : Reply ρ) : List (Event (Op.Answer ρ)) :=
  [⟨.getDefault, s.authorization⟩, ⟨.getItem .accessToken, s.accessToken⟩,
    ⟨.request ((config.merge s.authorization).authorize s.accessToken), reply⟩]

inductive Recovery (s : Browser) :
    List (Event (Op.Answer ρ)) → Browser → Except Failure ρ → Prop
  | anonymous (h : truthy s.refreshToken = none) :
      Recovery s [⟨.getItem .refreshToken, s.refreshToken⟩, ⟨.assignHref "/login", ()⟩]
        { s with href := some "/login" } (.error (.request (some 401)))
  | refused (s₁ : Browser) (token : String) (status : Option ℕ)
      (h : truthy s.refreshToken = some token) :
      Recovery s
        [⟨.getItem .refreshToken, s.refreshToken⟩, ⟨.refresh token, .error status⟩,
          ⟨.removeItem .accessToken, ()⟩, ⟨.removeItem .refreshToken, ()⟩,
          ⟨.assignHref "/login", ()⟩]
        { s₁ with accessToken := none, refreshToken := none, href := some "/login" }
        (.error (.refresh status))
  | retried (s₁ s' : Browser) (token newAccessToken : String) (config : Config) (reply : Reply ρ)
      (h : truthy s.refreshToken = some token) (htoken : s₁.accessToken = some newAccessToken)
      (hauth : config.authorization = some (bearer newAccessToken)) :
      Recovery s
        ([⟨.getItem .refreshToken, s.refreshToken⟩, ⟨.refresh token, .ok newAccessToken⟩,
          ⟨.setItem .accessToken newAccessToken, ()⟩,
          ⟨.setDefault (bearer newAccessToken), ()⟩] ++ opening config s₁ reply)
        s' (reply.mapError .request)

section Histories
variable {config : Config} {s s' : Browser} {es : List (Event (Op.Answer ρ))}
  {outcome : Except Failure ρ}

theorem ends_opening (h : Ends answers (axiosInstance config) s es s' outcome) :
    (∃ response, es = opening config s (.ok response) ∧ outcome = .ok response) ∨
      ∃ status s₁ es', es = opening config s (.error status) ++ es' ∧
        Ends answers (interceptError ((config.merge s.authorization).authorize s.accessToken) status)
          s₁ es' s' outcome := by
  rw [axiosInstance_eq] at h
  simp only [ends_call, answers] at h
  obtain ⟨_, _, _, rfl, ⟨rfl, rfl⟩, _, _, _, rfl, ⟨rfl, rfl⟩, reply, s₁, es', rfl, -, hrest⟩ := h
  cases reply with
  | ok response =>
    obtain ⟨rfl, -, rfl⟩ := ends_ret.mp hrest
    exact .inl ⟨response, rfl, rfl⟩
  | error status => exact .inr ⟨status, s₁, es', rfl, hrest⟩

theorem ends_interceptError_final {status : Option ℕ}
    (hfinal : ¬ (status = some 401 ∧ config.retry = false))
    (h : Ends answers (interceptError config status) s es s' outcome) :
    es = [] ∧ outcome = .error (.request status) := by
  rw [interceptError_final hfinal] at h
  obtain ⟨rfl, -, rfl⟩ := ends_ret.mp h
  exact ⟨rfl, rfl⟩

theorem ends_retried (hretry : config.retry = true)
    (h : Ends answers (axiosInstance config) s es s' outcome) :
    ∃ reply, es = opening config s reply ∧ outcome = reply.mapError .request := by
  rcases ends_opening h with ⟨response, rfl, rfl⟩ | ⟨status, s₁, es', rfl, hrest⟩
  · exact ⟨.ok response, rfl, rfl⟩
  · have hfinal : ¬ (status = some 401 ∧
        ((config.merge s.authorization).authorize s.accessToken).retry = false) := by
      simp [Config.merge, hretry]
    obtain ⟨rfl, rfl⟩ := ends_interceptError_final hfinal hrest
    exact ⟨.error status, List.append_nil _, rfl⟩

theorem recovery_of_ends (hretry : config.retry = false)
    (h : Ends answers (interceptError config (some 401)) s es s' outcome) :
    Recovery s es s' outcome := by
  rw [interceptError_eq hretry] at h
  simp only [ends_call, answers] at h
  obtain ⟨_, _, es₁, rfl, ⟨rfl, hsame⟩, h⟩ := h
  rw [hsame] at h
  cases hitem : truthy (s.item .refreshToken) with
  | none =>
    simp only [hitem, ends_call, answers, ends_ret] at h
    obtain ⟨_, _, _, rfl, rfl, rfl, rfl, rfl⟩ := h
    exact .anonymous hitem
  | some token =>
    simp only [hitem, ends_call, answers] at h
    obtain ⟨res, s₁, es₂, rfl, -, h⟩ := h
    cases res with
    | error status =>
      simp only [recover, ends_call, answers, ends_ret] at h
      obtain ⟨_, _, _, rfl, rfl, _, _, _, rfl, rfl, _, _, _, rfl, rfl, rfl, rfl, rfl⟩ := h
      exact .refused s₁ token status hitem
    | ok newAccessToken =>
      simp only [recover, ends_call, answers] at h
      obtain ⟨_, _, _, rfl, rfl, _, _, _, rfl, rfl, h⟩ := h
      obtain ⟨reply, rfl, rfl⟩ := ends_retried rfl h
      exact .retried _ s' token newAccessToken _ reply hitem rfl rfl

theorem history_of_ends (h : Ends answers (axiosInstance config) s es s' outcome) :
    ∃ reply es', es = opening config s reply ++ es' ∧
      (es' = [] ∨ ∃ s₁, Recovery s₁ es' s' outcome) := by
  rcases ends_opening h with ⟨response, rfl, rfl⟩ | ⟨status, s₁, es', rfl, hrest⟩
  · exact ⟨.ok response, [], (List.append_nil _).symm, .inl rfl⟩
  · refine ⟨.error status, es', rfl, ?_⟩
    by_cases hfirst : status = some 401 ∧
        ((config.merge s.authorization).authorize s.accessToken).retry = false
    · obtain ⟨rfl, hretry⟩ := hfirst
      exact .inr ⟨s₁, recovery_of_ends hretry hrest⟩
    · exact .inl (ends_interceptError_final hfirst hrest).1

end Histories

/-! ### What holds of all histories -/

def isRequest (e : Event (Op.Answer ρ)) : Bool :=
  match e.op with
  | .request _ => true
  | _ => false

def isRefresh (e : Event (Op.Answer ρ)) : Bool :=
  match e.op with
  | .refresh _ => true
  | _ => false

def Refreshed (es : List (Event (Op.Answer ρ))) (newAccessToken : String) : Prop :=
  ∃ token, ⟨.refresh token, .ok newAccessToken⟩ ∈ es

def RefreshFailed (es : List (Event (Op.Answer ρ))) : Prop :=
  ∃ token status, ⟨.refresh token, .error status⟩ ∈ es

def Justified (before : List (Event (Op.Answer ρ))) (e : Event (Op.Answer ρ)) : Prop :=
  match e.op with
  | .request config => before.any isRequest →
    ∃ newAccessToken, Refreshed before newAccessToken ∧
      config.authorization = some (bearer newAccessToken)
  | .removeItem _ => RefreshFailed before
  | _ => True

section Properties
variable {config : Config} {s s' : Browser} {es : List (Event (Op.Answer ρ))}
  {outcome : Except Failure ρ}

theorem authorize_same {token : String} (h : config.authorization = some (bearer token))
    (defaults : Option String) :
    ((config.merge defaults).authorize (some token)).authorization = some (bearer token) := by
  have hmerge : (config.merge defaults).authorization = some (bearer token) := by
    simp [Config.merge, h]
  unfold Config.authorize
  cases htruthy : truthy (some token) with
  | none => exact hmerge
  | some token' =>
    have heq : token = token' := Option.some.inj (Option.filter_eq_some_iff.mp htruthy).1
    dsimp only
    split_ifs
    · exact hmerge
    · rw [heq]

theorem counts_of_ends (h : Ends answers (axiosInstance config) s es s' outcome) :
    es.countP isRequest ≤ 2 ∧ es.countP isRefresh ≤ 1 := by
  obtain ⟨reply, es', rfl, rfl | ⟨s₁, hrecovery⟩⟩ := history_of_ends h
  · simp [opening, List.countP_cons, isRequest, isRefresh]
  · cases hrecovery with
    | anonymous h => simp [opening, List.countP_cons, isRequest, isRefresh]
    | refused s₂ token status h => simp [opening, List.countP_cons, isRequest, isRefresh]
    | retried s₂ s' token newAccessToken config' reply' h htoken hauth =>
      simp [opening, List.countP_cons, isRequest, isRefresh]

theorem justified_of_ends (h : Ends answers (axiosInstance config) s es s' outcome) :
    Throughout Justified [] es := by
  obtain ⟨reply, es', rfl, rfl | ⟨s₁, hrecovery⟩⟩ := history_of_ends h
  · simp [opening, Justified, isRequest]
  · cases hrecovery with
    | anonymous h => simp [opening, Justified, isRequest]
    | refused s₂ token status h => simp [opening, Justified, isRequest, RefreshFailed]
    | retried s₂ s' token newAccessToken config' reply' h htoken hauth =>
      simp [opening, Justified, isRequest, Refreshed, htoken, authorize_same hauth]

theorem removed_of_ends (h : Ends answers (axiosInstance config) s es s' outcome)
    (hfailed : RefreshFailed es) :
    (∀ key, ⟨.removeItem key, ()⟩ ∈ es) ∧ s'.accessToken = none ∧ s'.refreshToken = none := by
  obtain ⟨token, status, hin⟩ := hfailed
  obtain ⟨reply, es', rfl, rfl | ⟨s₁, hrecovery⟩⟩ := history_of_ends h
  · simp [opening] at hin
  · cases hrecovery with
    | anonymous h => simp [opening] at hin
    | refused s₂ token status h =>
      refine ⟨fun key => ?_, rfl, rfl⟩
      cases key <;> simp
    | retried s₂ s' token newAccessToken config' reply' h htoken hauth => simp [opening] at hin

end Properties

/-- The promise of a request is settled after at most two requests and one refresh call. The second
request carries the new token, and the tokens are removed if and only if the refresh call fails. -/
theorem axiosInstance_settles (config : Config) (s : Browser) :
    Settles answers (axiosInstance (ρ := ρ) config) s ∧
      ∀ es c, (steps (Except Failure ρ) answers).Run (axiosInstance config, s) es c →
        es.countP isRequest ≤ 2 ∧ es.countP isRefresh ≤ 1 ∧ Throughout Justified [] es ∧
          ∀ outcome, c.1 = .ret outcome →
            (RefreshFailed es ↔ ∀ key, ⟨.removeItem key, ()⟩ ∈ es) ∧
              (RefreshFailed es → c.2.accessToken = none ∧ c.2.refreshToken = none) := by
  refine ⟨settles answers_total _ s, fun es c hr => ?_⟩
  obtain ⟨es', s', outcome, hends⟩ := exists_ends_of_run answers_total hr
  obtain ⟨hrequests, hrefreshes⟩ := counts_of_ends hends
  rw [List.countP_append] at hrequests hrefreshes
  have hjustified : Throughout Justified [] es :=
    throughout_of_ends answers_total (fun _ _ _ => justified_of_ends) hr
  refine ⟨by omega, by omega, hjustified, ?_⟩
  intro outcome hret
  have hends : Ends answers (axiosInstance config) s (es ++ []) c.2 outcome :=
    ends_of_run hr (hret ▸ .ret outcome c.2)
  rw [List.append_nil] at hends
  refine ⟨⟨fun hfailed => (removed_of_ends hends hfailed).1, fun hremoved => ?_⟩,
    fun hfailed => (removed_of_ends hends hfailed).2⟩
  obtain ⟨pre, hpre, token, status, hin⟩ := hjustified.mem (hremoved .accessToken)
  exact ⟨token, status, hpre.subset hin⟩

/-! ### One request among many -/

theorem recover_retry (config : Config) :
    recover (ρ := ρ) { config with retry := true } = recover config := by
  funext res
  cases res <;> rfl

def Waits (p : Program (Op.Answer ρ) (Except Failure ρ)) : Task → Prop
  | .request _ config => p = .call (.request config) (respond config)
  | .refresh token _ config => p = .call (.refresh token) (recover config)
  | _ => False

def Continues (p : Program (Op.Answer ρ) (Except Failure ρ)) (pending pending' : List Task) : Prop :=
  (∃ outcome, p = .ret outcome ∧ pending' = pending) ∨
    ∃ task, Waits p task ∧ pending' = pending ++ [task]

namespace Client
variable {υ : Type*}

def browser (s : Client υ) : Browser :=
  ⟨s.storage.accessToken, s.storage.refreshToken, s.authorization, s.href⟩

/-- Between two answers the program does what the client does. -/
def Simulates (p : Program (Op.Answer ρ) (Except Failure ρ)) (s s' : Client υ) : Prop :=
  ∃ es p', (steps (Except Failure ρ) answers).Run (p, s.browser) es (p', s'.browser) ∧
    Continues p' s.pending s'.pending

section Simulation
variable {s s' s'' : Client υ}

theorem step_perform {op : Op} {answer : op.Answer ρ} {b b' : Browser}
    {next : op.Answer ρ → Program (Op.Answer ρ) (Except Failure ρ)} (h : answers op b answer b') :
    (steps (Except Failure ρ) answers).step (.call op next, b) ⟨op, answer⟩ (next answer, b') :=
  ⟨next, rfl, rfl, h⟩

theorem simulates_ret {outcome : Except Failure ρ} (hbrowser : s'.browser = s.browser)
    (hpending : s'.pending = s.pending) : Simulates (.ret outcome) s s' :=
  ⟨[], _, hbrowser ▸ .nil, .inl ⟨outcome, rfl, hpending⟩⟩

theorem simulates_call {op : Op} (s' : Client υ) (answer : op.Answer ρ)
    {next : op.Answer ρ → Program (Op.Answer ρ) (Except Failure ρ)}
    (h : answers op s.browser answer s'.browser) (hpending : s'.pending = s.pending)
    (hnext : Simulates (next answer) s' s'') : Simulates (.call op next) s s'' := by
  obtain ⟨es, p', hr, hcontinues⟩ := hnext
  exact ⟨_, p', Lts.Run.cons (step_perform h) hr, hpending ▸ hcontinues⟩

theorem simulates_send (s : Client υ) (caller : Caller) (config : Config) :
    Simulates (axiosInstance (ρ := ρ) config) s (s.send caller config) := by
  rw [axiosInstance_eq]
  refine simulates_call s _ ⟨rfl, rfl⟩ rfl (simulates_call s _ ⟨rfl, rfl⟩ rfl ?_)
  exact ⟨[], _, .nil, .inr ⟨.request caller _, rfl, rfl⟩⟩

theorem simulates_interceptError (s : Client υ) (caller : Caller) (config : Config)
    (status : Option ℕ) : Simulates (Session.interceptError (ρ := ρ) config status) s
      (s.interceptError caller config status) := by
  unfold Client.interceptError
  split_ifs with hfirst
  · obtain ⟨rfl, hretry⟩ := hfirst
    rw [interceptError_eq hretry]
    refine simulates_call s _ ⟨rfl, rfl⟩ rfl ?_
    have hitem : s.browser.item .refreshToken = s.storage.refreshToken := rfl
    rw [hitem]
    cases truthy s.storage.refreshToken with
    | some token =>
      have hwaits : Waits (.call (.refresh token) (recover (ρ := ρ) config))
          (.refresh token caller { config with retry := true }) := by
        rw [Waits, recover_retry]
      exact ⟨[], _, .nil, .inr ⟨_, hwaits, rfl⟩⟩
    | none =>
      refine simulates_call s.redirect () rfl rfl (simulates_ret ?_ ?_)
      · cases caller <;> rfl
      · cases caller <;> rfl
  · rw [interceptError_final hfirst]
    refine simulates_ret ?_ ?_
    · cases caller <;> rfl
    · cases caller <;> rfl

theorem simulates_refreshed (s : Client υ) (caller : Caller) {config : Config}
    (hretry : config.retry = true) (newAccessToken : String) :
    Simulates (recover (ρ := ρ) config (.ok newAccessToken)) s
      (s.refreshed caller config newAccessToken) := by
  have hconfig : { config with retry := true, authorization := some (bearer newAccessToken) } =
      { config with authorization := some (bearer newAccessToken) } := by
    rw [← hretry]
  let stored : Client υ := { s with storage.accessToken := some newAccessToken }
  let authorized : Client υ := { stored with authorization := some (bearer newAccessToken) }
  unfold recover
  refine simulates_call stored () rfl rfl (simulates_call authorized () rfl rfl ?_)
  rw [hconfig]
  exact simulates_send authorized caller _

theorem simulates_refreshFailed (s : Client υ) (caller : Caller) (config : Config)
    (status : Option ℕ) :
    Simulates (recover (ρ := ρ) config (.error status)) s (s.refreshFailed caller) := by
  let removed : Client υ := { s with storage.accessToken := none }
  unfold recover
  refine simulates_call removed () rfl rfl (simulates_call s.removeTokens () rfl rfl ?_)
  refine simulates_call s.removeTokens.redirect () rfl rfl (simulates_ret ?_ ?_)
  · cases caller <;> rfl
  · cases caller <;> rfl

end Simulation

end Client

/-! ### A session that has expired -/

def signedIn : Browser := ⟨some "old", some "refresh", none, none⟩

def renewedBrowser : Browser := ⟨some "new", some "refresh", some (bearer "new"), none⟩

def plainConfig : Config := ⟨none, false, false⟩

def renewed : Config := ⟨some (bearer "new"), false, true⟩

def refusedTwice : List (Event (Op.Answer Unit)) :=
  opening plainConfig signedIn (.error (some 401)) ++
    [⟨.getItem .refreshToken, some "refresh"⟩, ⟨.refresh "refresh", .ok "new"⟩,
      ⟨.setItem .accessToken "new", ()⟩, ⟨.setDefault (bearer "new"), ()⟩] ++
    opening renewed renewedBrowser (.error (some 401))

theorem refusedTwice_ends : Ends answers (axiosInstance plainConfig) signedIn refusedTwice
    renewedBrowser (.error (.request (some 401))) := by
  rw [axiosInstance_eq]
  refine .call ⟨rfl, rfl⟩ (.call ⟨rfl, rfl⟩ (ends_call.mpr ⟨_, signedIn, _, rfl, trivial, ?_⟩))
  change Ends answers (interceptError ⟨some (bearer "old"), false, false⟩ (some 401)) _ _ _ _
  rw [interceptError_eq rfl]
  refine .call ⟨rfl, rfl⟩ (ends_call.mpr ⟨_, signedIn, _, rfl, trivial, ?_⟩)
  refine .call rfl (.call rfl ?_)
  rw [axiosInstance_eq]
  refine .call ⟨rfl, rfl⟩ (.call ⟨rfl, rfl⟩ (ends_call.mpr ⟨_, renewedBrowser, _, rfl, trivial, ?_⟩))
  change Ends answers (interceptError renewed (some 401)) _ _ _ _
  rw [interceptError_final (fun h => by cases h.2)]
  exact .ret _ _

theorem expired_settles : (steps (Except Failure Unit) answers).Run
    (axiosInstance plainConfig, signedIn) refusedTwice
      (.ret (.error (.request (some 401))), renewedBrowser) ∧ ¬ RefreshFailed refusedTwice := by
  have hr := run_of_ends refusedTwice_ends
  have hkept : ⟨.removeItem .accessToken, ()⟩ ∉ refusedTwice := by
    simp [refusedTwice, opening]
  have hsettles := ((axiosInstance_settles plainConfig signedIn).2 _ _ hr).2.2.2 _ rfl
  exact ⟨hr, fun hfailed => hkept (hsettles.1.mp hfailed .accessToken)⟩

end

end Nalang.Session
