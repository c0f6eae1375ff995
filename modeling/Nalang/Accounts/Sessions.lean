import Nalang.Accounts.Lifetimes

/-!
# Two sessions of one user

The refresh token of a login is at the same time the key of its session in Redis. It
is made of the user's id and an expiry in whole seconds.
-/

namespace Nalang.Accounts
open Transition

/-- Once `gone` has been logged out, `kept` is accepted, as long as it is not logged out itself,
whenever it would be if only time had passed. -/
def Survives (env : Env) (st : State) (gone kept : String) : Prop :=
  ∀ ls st', (routes env).Run (logoutUser gone st) ls st' → (∀ l ∈ ls, l.1 ≠ .logout kept) →
    Accepted env { st with now := st'.now } kept → Accepted env st' kept

section Sessions
variable {env : Env} {h : List Entry} {st st' : State} {e : Entry} {user : User}
  {refresh sub : String} {issued read : ℕ}

def Env.refreshClaims (env : Env) (issued : ℕ) (sub : String) : Claims :=
  ⟨some sub, env.settings.localNow issued + env.settings.refreshLifetime⟩

theorem claims_of_decode (hj : env.jose.Lawful) {claims : Claims}
    (hr : createRefreshToken env issued (some sub) = some refresh)
    (hdec : env.jose.decode env.settings.jwtRefreshSecretKey read refresh = .ok claims) :
    claims = env.refreshClaims issued sub :=
  hj.faithful _ _ _ _ hr _ _ _ hdec

theorem Entry.LogsIn.created (hl : e.LogsIn user refresh)
    (he : Effect env e.1 e.2.1 e.2.2 st') :
    createRefreshToken env e.1.now (some (toString user.id)) = some refresh := by
  obtain ⟨tokens, hans, _, rfl⟩ := hl
  rw [hans] at he
  exact (createTokens_ok (createTokens_of_effect he)).2

theorem holds_of_history (hnames : env.Names refresh sub) {st₀ : State}
    {ls : List (Request × Answer)} (hr : (routes env).recorded.Run ([], st₀) ls (h, st))
    (he : e ∈ h) (hl : e.LogsIn user refresh) :
    st.Holds refresh sub 0 ∨ st.redis.slot refresh = none := by
  refine hr.invariant (fun s => (∃ e ∈ s.1, ∃ user, e.LogsIn user refresh) →
    s.2.Holds refresh sub 0 ∨ s.2.redis.slot refresh = none) ?_ ?_ ⟨e, he, user, hl⟩
  · rintro ⟨_, hnil, _⟩
    cases hnil
  · rintro ⟨h, st⟩ l ⟨h', st'⟩ ih hstep ⟨e', he', user', hl'⟩
    obtain ⟨hlog, hnext⟩ := hstep
    simp only at hlog hnext ih he' ⊢
    cases slot_of_effect refresh (effect_of_step hnext) with
    | written _ hissued hslot hnow =>
      rw [hnames _ _ hissued] at hslot
      exact .inl ⟨_, hslot, Nat.zero_le _, by rw [hnow]⟩
    | deleted _ _ hslot => exact .inr hslot
    | kept hnot hslot hnow =>
      rw [hlog, List.mem_append, List.mem_singleton] at he'
      rcases he' with he' | rfl
      · rcases ih ⟨e', he', user', hl'⟩ with hholds | hgone
        · exact .inl (hholds.kept hslot hnow)
        · exact .inr (hslot.trans hgone)
      · exact absurd hl' (hnot user')

theorem held_of_accepted (hj : env.jose.Lawful)
    (hr : createRefreshToken env issued (some sub) = some refresh)
    (hacc : Accepted env st refresh) :
    env.Names refresh sub ∧
      ∃ expiry, st.redis.slot refresh = some (sub, expiry) ∧ st.now < expiry := by
  obtain ⟨tokens, hok⟩ := hacc
  obtain ⟨payload, hdec, hget, -⟩ := refreshAccessToken_ok.mp hok
  have hpayload := claims_of_decode hj hr hdec
  subst hpayload
  exact ⟨names_of_decode hj hdec rfl, ExpiringStore.get_eq_some.mp hget⟩

theorem Accepted.later (hj : env.jose.Lawful)
    (hr : createRefreshToken env issued (some sub) = some refresh)
    (hacc : Accepted env st refresh) (hnow : st'.now = st.now) {expiry expiry' : ℕ}
    (hslot : st.redis.slot refresh = some (sub, expiry))
    (hslot' : st'.redis.slot refresh = some (sub, expiry')) (hle : expiry ≤ expiry') :
    Accepted env st' refresh := by
  obtain ⟨tokens, hok⟩ := hacc
  obtain ⟨payload, hdec, hget, hacc, href⟩ := refreshAccessToken_ok.mp hok
  have hpayload := claims_of_decode hj hr hdec
  subst hpayload
  obtain ⟨_, hsome, hlt⟩ := ExpiringStore.get_eq_some.mp hget
  rw [hslot] at hsome
  cases hsome
  refine ⟨tokens, refreshAccessToken_ok.mpr ⟨_, hnow ▸ hdec, ?_, hnow ▸ hacc, href⟩⟩
  rw [hnow]
  exact ExpiringStore.get_eq_some.mpr ⟨_, hslot', hlt.trans_le hle⟩

/-! ### Independence -/

theorem not_survives_self (hj : env.jose.Lawful)
    (hr : createRefreshToken env issued (some sub) = some refresh)
    (hacc : Accepted env st refresh) : ¬ Survives env st refresh refresh := by
  intro hsurvives
  obtain ⟨tokens, hok⟩ := hsurvives [] _ .nil (fun l hl => absurd hl List.not_mem_nil) hacc
  obtain ⟨payload, hdec, hget, -⟩ := refreshAccessToken_ok.mp hok
  rw [claims_of_decode hj hr hdec] at hget
  simp [logoutUser, Env.refreshClaims] at hget

variable {e₁ e₂ : Entry} {user₁ user₂ : User} {refresh₁ refresh₂ : String} {st₀ : State}
  {ls : List (Request × Answer)}

/-- Of two logins of one user whose tokens are accepted, one session survives the logout of the
other exactly when the logins were not in the same second of the local clock. -/
theorem sessions_independent_iff (hj : env.jose.Lawful)
    (hr : (routes env).recorded.Run ([], st₀) ls (h, st)) (he₁ : e₁ ∈ h) (he₂ : e₂ ∈ h)
    (hl₁ : e₁.LogsIn user₁ refresh₁) (hl₂ : e₂.LogsIn user₂ refresh₂)
    (huser : user₁.id = user₂.id) (hacc : Accepted env st refresh₂) :
    Survives env st refresh₁ refresh₂ ↔
      env.settings.localNow e₁.1.now ≠ env.settings.localNow e₂.1.now := by
  obtain ⟨s₁, hs₁⟩ := hr.steps_recorded e₁ he₁
  obtain ⟨s₂, hs₂⟩ := hr.steps_recorded e₂ he₂
  have hc₁ := hl₁.created (effect_of_step hs₁)
  have hc₂ := hl₂.created (effect_of_step hs₂)
  constructor
  · intro hsurvives hclock
    have hsame : refresh₁ = refresh₂ := by
      unfold createRefreshToken at hc₁ hc₂
      rw [hclock, huser, hc₂, Option.some.injEq] at hc₁
      exact hc₁.symm
    subst hsame
    exact not_survives_self hj hc₂ hacc hsurvives
  · intro hclock ls' st' hrun hlogout haccepted
    have hne : refresh₂ ≠ refresh₁ := by
      rintro rfl
      obtain ⟨tokens, hok⟩ := hacc
      obtain ⟨payload, hdec, -⟩ := refreshAccessToken_ok.mp hok
      have hclaims := claims_of_decode hj hc₁ hdec
      rw [claims_of_decode hj hc₂ hdec, Env.refreshClaims, Env.refreshClaims, Claims.mk.injEq]
        at hclaims
      omega
    obtain ⟨hnames, expiry, hslot, -⟩ := held_of_accepted hj hc₂ hacc
    have hholds : st.Holds refresh₂ (toString user₂.id) expiry := by
      rcases holds_of_history hnames hr he₂ hl₂ with ⟨expiry', hslot', -, hbound⟩ | hgone
      · rw [hslot] at hslot'
        cases hslot'
        exact ⟨expiry, hslot, le_refl _, hbound⟩
      · rw [hgone] at hslot
        cases hslot
    have hkept : (logoutUser refresh₁ st).Holds refresh₂ (toString user₂.id) expiry :=
      hholds.kept (Function.update_of_ne hne _ _) (le_refl _)
    obtain ⟨expiry', hslot', hle, -⟩ := holds_of_run hnames hrun hlogout hkept
    exact haccepted.later hj hc₂ rfl hslot hslot' hle

end Sessions

/-! ### Logins one second apart, within one second and in a repeated hour -/

def answerAll (env : Env) : List Entry × State → List Request → List Entry × State
  | s, [] => s
  | s, req :: reqs =>
    answerAll env (s.1 ++ [(s.2, req, (handle env s.2 req).1)], (handle env s.2 req).2) reqs

theorem run_answerAll (env : Env) (s : List Entry × State) (reqs : List Request) :
    ∃ ls, (routes env).recorded.Run s ls (answerAll env s reqs) := by
  induction reqs generalizing s with
  | nil => exact ⟨[], .nil⟩
  | cons req reqs ih =>
    have hstep : (routes env).recorded.step s (req, (handle env s.2 req).1)
        (s.1 ++ [(s.2, req, (handle env s.2 req).1)], (handle env s.2 req).2) := ⟨rfl, rfl⟩
    obtain ⟨ls, hls⟩ := ih _
    exact ⟨_, Lts.Run.cons hstep hls⟩

def kimLogsIn : Request := .login "kim@mail.com" "password"

section Kim
variable (utcOffset : ℕ → ℤ)

def kimsAccess (now : ℕ) : String :=
  (createAccessToken (serverAt utcOffset 7) now (some (toString kim.id))).getD ""

def kimsRefresh (now : ℕ) : String :=
  (createRefreshToken (serverAt utcOffset 7) now (some (toString kim.id))).getD ""

theorem kim_logsIn (redis : ExpiringStore String String) (now : ℕ) :
    Entry.LogsIn (⟨oneUser, redis, now⟩, kimLogsIn,
      (handle (serverAt utcOffset 7) ⟨oneUser, redis, now⟩ kimLogsIn).1) kim
        (kimsRefresh utcOffset now) :=
  ⟨⟨kimsAccess utcOffset now, kimsRefresh utcOffset now⟩, rfl, id, rfl⟩

theorem kim_accepted (redis : ExpiringStore String String) (now : ℕ) (h : 0 ≤ utcOffset now) :
    Accepted (serverAt utcOffset 7) ⟨oneUser,
      redis.set now (kimsRefresh utcOffset now) (toString kim.id) refreshTtl, now⟩
        (kimsRefresh utcOffset now) := by
  have hr : createRefreshToken (serverAt utcOffset 7) now (some (toString kim.id)) =
      some (kimsRefresh utcOffset now) := rfl
  refine (accepted_issued plainJose_lawful rfl hr (Function.update_self ..)).mpr ⟨?_, ?_⟩
  · change (now : ℤ) ≤ now + utcOffset now + 24 * 60 * 60 * 7
    omega
  · exact Nat.lt_add_of_pos_right (by decide)

end Kim

def summer (now : ℕ) : ℤ := if now < 3600 then 3600 else 0

def logins (utcOffset : ℕ → ℤ) (seconds : ℕ) : List Entry × State :=
  answerAll (serverAt utcOffset 7) ([], loggedOut) [kimLogsIn, .elapse seconds, kimLogsIn]

theorem logins_run (utcOffset : ℕ → ℤ) (seconds : ℕ) (h : 0 ≤ utcOffset (0 + seconds)) :
    ∃ ls, (routes (serverAt utcOffset 7)).recorded.Run ([], loggedOut) ls
        (logins utcOffset seconds) ∧
      Accepted (serverAt utcOffset 7) (logins utcOffset seconds).2
        (kimsRefresh utcOffset (0 + seconds)) := by
  obtain ⟨ls, hr⟩ := run_answerAll (serverAt utcOffset 7) ([], loggedOut)
    [kimLogsIn, .elapse seconds, kimLogsIn]
  exact ⟨ls, hr, kim_accepted utcOffset _ _ h⟩

theorem sessions_independent_iff_secondApart :
    Survives (serverAt (fun _ => 0) 7) (logins (fun _ => 0) 1).2 (kimsRefresh (fun _ => 0) 0)
        (kimsRefresh (fun _ => 0) 1) ∧
      ¬ Survives (serverAt summer 7) (logins summer 3600).2 (kimsRefresh summer 0)
        (kimsRefresh summer 3600) := by
  obtain ⟨ls, hr, hacc⟩ := logins_run (fun _ => 0) 1 (le_refl 0)
  obtain ⟨ls', hr', hacc'⟩ := logins_run summer 3600 (by decide)
  refine ⟨(sessions_independent_iff plainJose_lawful hr (List.mem_cons_self ..)
    (List.mem_cons_of_mem _ (List.mem_cons_of_mem _ (List.mem_singleton_self _)))
    (kim_logsIn _ _ 0) (kim_logsIn _ _ 1) rfl hacc).mpr (by decide), fun hsurvives => ?_⟩
  exact (sessions_independent_iff plainJose_lawful hr' (List.mem_cons_self ..)
    (List.mem_cons_of_mem _ (List.mem_cons_of_mem _ (List.mem_singleton_self _)))
    (kim_logsIn _ _ 0) (kim_logsIn _ _ 3600) rfl hacc').mp hsurvives (by decide)

theorem second_login_logged_out :
    ¬ ∀ env : Env, env.jose.Lawful → ∀ (st₀ st : State) (ls : List (Request × Answer))
      (h : List Entry) (i j : ℕ) (e₁ e₂ : Entry) (user₁ user₂ : User) (refresh₁ refresh₂ : String),
      (routes env).recorded.Run ([], st₀) ls (h, st) → i ≠ j → h[i]? = some e₁ → h[j]? = some e₂ →
      e₁.LogsIn user₁ refresh₁ → e₂.LogsIn user₂ refresh₂ → user₁.id = user₂.id →
      Accepted env st refresh₂ → Survives env st refresh₁ refresh₂ := by
  intro hall
  obtain ⟨ls, hr, hacc⟩ := logins_run (fun _ => 0) 0 (le_refl 0)
  have hissued : createRefreshToken (serverAt (fun _ => 0) 7) 0 (some (toString kim.id)) =
      some (kimsRefresh (fun _ => 0) 0) := rfl
  exact not_survives_self plainJose_lawful hissued hacc
    (hall _ plainJose_lawful loggedOut _ ls _ 0 2 _ _ kim kim _ _ hr (by decide) rfl rfl
      (kim_logsIn _ _ 0) (kim_logsIn _ _ 0) rfl hacc)

end Nalang.Accounts
