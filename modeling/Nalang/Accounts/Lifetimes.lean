import Nalang.Accounts.RefreshTokens

/-!
# How long tokens are accepted

The expiry written into a token is read off the server's naive local clock, and is
compared with UTC. Redis drops a refresh token after seven days, whatever the
settings say.
-/

namespace Nalang.Accounts
open Transition

def Settings.accessLifetime (s : Settings) : ℤ := 60 * s.accessTokenExpireMinutes

def Settings.refreshLifetime (s : Settings) : ℤ := 24 * 60 * 60 * s.refreshTokenExpireDays

/-- An access token issued in the state stands for its holder for the configured time. -/
def AccessKept (env : Env) (st : State) (holder : User) (access : String) : Prop :=
  ∀ ls st', (routes env).Run st ls st' → ∀ user,
    getCurrentUser env st'.users st'.now (some access) = .ok user ↔
      user = holder ∧ (st'.now : ℤ) ≤ st.now + env.settings.accessLifetime

/-- A refresh token issued in the state and never logged out is accepted for the configured time.
Nothing is said about the exempt instants. -/
def RefreshKept (env : Env) (st : State) (refresh : String) (exempt : Set ℤ) : Prop :=
  ∀ ls st', (routes env).Run st ls st' → (∀ l ∈ ls, l.1 ≠ .logout refresh) →
    (st'.now : ℤ) ∉ exempt →
      (Accepted env st' refresh ↔ (st'.now : ℤ) ≤ st.now + env.settings.refreshLifetime)

section Tokens
variable {env : Env} {issued : ℕ}

theorem decode_access (hj : env.jose.Lawful) (halg : env.settings.algorithm = "HS256")
    {sub : Option String} {access : String} (ha : createAccessToken env issued sub = some access)
    (now : ℕ) : env.jose.decode env.settings.jwtSecretKey now access =
      if (now : ℤ) ≤ env.settings.localNow issued + env.settings.accessLifetime then
        .ok ⟨sub, env.settings.localNow issued + env.settings.accessLifetime⟩
      else .error .jwtError := by
  unfold createAccessToken at ha
  rw [halg] at ha
  exact hj.decodes _ _ _ ha now

theorem decode_refresh (hj : env.jose.Lawful) (halg : env.settings.algorithm = "HS256")
    {sub : Option String} {refresh : String}
    (hr : createRefreshToken env issued sub = some refresh) (now : ℕ) :
    env.jose.decode env.settings.jwtRefreshSecretKey now refresh =
      if (now : ℤ) ≤ env.settings.localNow issued + env.settings.refreshLifetime then
        .ok ⟨sub, env.settings.localNow issued + env.settings.refreshLifetime⟩
      else .error .jwtError := by
  unfold createRefreshToken at hr
  rw [halg] at hr
  exact hj.decodes _ _ _ hr now

theorem getCurrentUser_ok {users : Users} {now : ℕ} {token : Option String} {user : User}
    (h : getCurrentUser env users now token = .ok user) : ∃ text claims sub id,
      token = some text ∧ env.jose.decode env.settings.jwtSecretKey now text = .ok claims ∧
        claims.sub = some sub ∧ Python.int sub = some id ∧ users.getUserById id = some user := by
  cases token with
  | none => cases h
  | some text =>
    unfold getCurrentUser at h
    cases hdec : env.jose.decode env.settings.jwtSecretKey now text with
    | error e => cases e <;> simp [hdec] at h
    | ok claims =>
      simp only [hdec] at h
      split at h
      · cases h
      · next sub hsub =>
        split at h
        · cases h
        · next id hint =>
          split_ifs at h
          split at h
          · cases h
          · next user' hfound =>
            cases h
            exact ⟨text, claims, sub, id, rfl, hdec, hsub, hint, hfound⟩

theorem getCurrentUser_issued (hj : env.jose.Lawful) (halg : env.settings.algorithm = "HS256")
    {users : Users} {holder : User} (hmem : holder ∈ users.rows) (hid : holder.id < 2147483648)
    {now : ℕ} {access : String}
    (ha : createAccessToken env issued (some (toString holder.id)) = some access)
    (user : User) :
    getCurrentUser env users now (some access) = .ok user ↔
      user = holder ∧
        (now : ℤ) ≤ env.settings.localNow issued + env.settings.accessLifetime := by
  have hlen : (Nat.toDigits 10 holder.id).length ≤ 10 :=
    (Nat.length_toDigits_le_iff (by decide) (by decide)).mpr (by omega)
  have hint : Python.int (toString holder.id) = some (holder.id : ℤ) :=
    Python.int_toString (hlen.trans (by decide))
  have hfits : ¬ ((holder.id : ℤ) < -2147483648 ∨ 2147483648 ≤ (holder.id : ℤ)) := by omega
  unfold getCurrentUser
  simp only [decode_access hj halg ha now]
  by_cases hlive : (now : ℤ) ≤ env.settings.localNow issued + env.settings.accessLifetime
  · simp only [if_pos hlive, hint, if_neg hfits, Users.getUserById_of_mem hmem, Except.ok.injEq]
    exact ⟨fun h => ⟨h.symm, hlive⟩, fun h => h.1.symm⟩
  · simp only [if_neg hlive]
    constructor
    · intro h
      cases h
    · exact fun h => absurd h.2 hlive

theorem getCurrentUser_refused (hj : env.jose.Lawful) (halg : env.settings.algorithm ≠ "HS256")
    {sub : Option String} {access : String} (ha : createAccessToken env issued sub = some access)
    (users : Users) (now : ℕ) (user : User) :
    getCurrentUser env users now (some access) ≠ .ok user := by
  intro hok
  obtain ⟨text, claims, _, _, htext, hdec, -⟩ := getCurrentUser_ok hok
  cases htext
  rw [hj.refuses _ _ _ _ halg ha] at hdec
  cases hdec

theorem accepted_issued (hj : env.jose.Lawful) (halg : env.settings.algorithm = "HS256")
    {sub refresh : String} (hr : createRefreshToken env issued (some sub) = some refresh)
    {st : State} {expiry : ℕ} (hslot : st.redis.slot refresh = some (sub, expiry)) :
    Accepted env st refresh ↔
      (st.now : ℤ) ≤ env.settings.localNow issued + env.settings.refreshLifetime ∧
        st.now < expiry := by
  have hdec := decode_refresh hj halg hr st.now
  constructor
  · rintro ⟨tokens, hok⟩
    obtain ⟨payload, hpayload, hget, -⟩ := refreshAccessToken_ok.mp hok
    rw [hdec] at hpayload
    split_ifs at hpayload with hlive
    cases hpayload
    obtain ⟨expiry', hslot', hlt⟩ := ExpiringStore.get_eq_some.mp hget
    rw [hslot] at hslot'
    cases hslot'
    exact ⟨hlive, hlt⟩
  · rintro ⟨hlive, hlt⟩
    rw [if_pos hlive] at hdec
    obtain ⟨access, hacc⟩ : ∃ access, createAccessToken env st.now (some sub) = some access := by
      unfold createAccessToken
      rw [halg]
      exact Option.ne_none_iff_exists'.mp (hj.encodes _ _)
    exact ⟨⟨access, refresh⟩, refreshAccessToken_ok.mpr
      ⟨_, hdec, ExpiringStore.get_eq_some.mpr ⟨_, hslot, hlt⟩, hacc, rfl⟩⟩

def Env.Names (env : Env) (refresh sub : String) : Prop :=
  ∀ issued sub', createRefreshToken env issued (some sub') = some refresh → sub' = sub

theorem names_of_decode (hj : env.jose.Lawful) {sub refresh : String} {read : ℕ} {claims : Claims}
    (hdec : env.jose.decode env.settings.jwtRefreshSecretKey read refresh = .ok claims)
    (hsub : claims.sub = some sub) : env.Names refresh sub := by
  intro issued sub' hr
  have hclaims := hj.faithful _ _ _ _ hr _ _ _ hdec
  rw [hclaims] at hsub
  exact Option.some.inj hsub

theorem names_issued (hj : env.jose.Lawful) (halg : env.settings.algorithm = "HS256")
    {sub refresh : String} (hr : createRefreshToken env issued (some sub) = some refresh)
    (hlive : 0 ≤ env.settings.localNow issued + env.settings.refreshLifetime) :
    env.Names refresh sub := by
  have hdec := decode_refresh hj halg hr 0
  rw [if_pos (show ((0 : ℕ) : ℤ) ≤ _ from hlive)] at hdec
  exact names_of_decode hj hdec rfl

end Tokens

section Runs
variable {env : Env} {st st' : State}

theorem run_elapse (env : Env) (st : State) (seconds : ℕ) :
    (routes env).Run st [(.elapse seconds, .ok .done)] { st with now := st.now + seconds } :=
  Lts.Run.single rfl

theorem rows_of_effect {req : Request} {answer : Answer} (he : Effect env st req answer st')
    {user : User} (hmem : user ∈ st.users.rows) : user ∈ st'.users.rows := by
  have hobt : ∀ {account found t}, Obtains st.users account found t → user ∈ t.rows := by
    intro account found t ho
    cases ho with
    | found => exact hmem
    | added _ _ _ _ hrows =>
      rw [hrows]
      exact List.mem_append_left _ hmem
  cases he with
  | refused _ hrows => exact hrows ▸ hmem
  | tokenless _ ho => exact hobt ho
  | registers _ _ ho => exact hobt ho
  | signsIn _ _ ho => exact hobt ho
  | refreshes => exact hmem
  | logsOut => exact hmem
  | elapses => exact hmem

theorem rows_of_run {ls : List (Request × Answer)} (hr : (routes env).Run st ls st') {user : User}
    (hmem : user ∈ st.users.rows) : user ∈ st'.users.rows :=
  hr.invariant (fun s => user ∈ s.users.rows) hmem
    fun _ _ _ ih hstep => rows_of_effect (effect_of_step hstep) ih

/-! ### The Redis key of a session -/

def Entry.LogsIn (e : Entry) (user : User) (refresh : String) : Prop :=
  ∃ tokens, e.2.2 = .ok (.granted user tokens) ∧ ¬ e.2.1.IsRegister ∧ tokens.refresh = refresh

inductive SlotAfter (env : Env) (st : State) (req : Request) (answer : Answer) (st' : State)
    (refresh : String) : Prop
  | written {user : User} (hl : Entry.LogsIn (st, req, answer) user refresh)
      (hr : createRefreshToken env st.now (some (toString user.id)) = some refresh)
      (hslot : st'.redis.slot refresh = some (toString user.id, st.now + refreshTtl))
      (hnow : st'.now = st.now)
  | kept (hnot : ∀ user, ¬ Entry.LogsIn (st, req, answer) user refresh)
      (hslot : st'.redis.slot refresh = st.redis.slot refresh) (hnow : st.now ≤ st'.now)
  | deleted (hnot : ∀ user, ¬ Entry.LogsIn (st, req, answer) user refresh)
      (hreq : req = .logout refresh) (hslot : st'.redis.slot refresh = none)

section Slot
variable {sub refresh : String} {least : ℕ} {req : Request} {answer : Answer}

theorem slot_of_effect (refresh : String) (he : Effect env st req answer st') :
    SlotAfter env st req answer st' refresh := by
  cases he with
  | refused => exact .kept (fun _ ⟨_, h, _⟩ => by cases h) rfl (le_refl _)
  | tokenless => exact .kept (fun _ ⟨_, h, _⟩ => by cases h) rfl (le_refl _)
  | registers hreq => exact .kept (fun _ ⟨_, _, hnot, _⟩ => hnot hreq) rfl (le_refl _)
  | @signsIn _ _ user t tokens hreq _ _ ht =>
    by_cases hsame : refresh = tokens.refresh
    · subst hsame
      exact .written ⟨tokens, rfl, hreq, rfl⟩ (createTokens_ok ht).2 (Function.update_self ..) rfl
    · refine .kept ?_ (Function.update_of_ne hsame _ _) (le_refl _)
      rintro _ ⟨_, ⟨⟩, _, rfl⟩
      exact hsame rfl
  | refreshes => exact .kept (fun _ ⟨_, h, _⟩ => by cases h) rfl (le_refl _)
  | @logsOut token =>
    by_cases hsame : refresh = token
    · subst hsame
      exact .deleted (fun _ ⟨_, h, _⟩ => by cases h) rfl (Function.update_self ..)
    · exact .kept (fun _ ⟨_, h, _⟩ => by cases h) (Function.update_of_ne hsame _ _) (le_refl _)
  | elapses => exact .kept (fun _ ⟨_, h, _⟩ => by cases h) rfl (Nat.le_add_right ..)

def State.Holds (st : State) (refresh sub : String) (least : ℕ) : Prop :=
  ∃ expiry, st.redis.slot refresh = some (sub, expiry) ∧ least ≤ expiry ∧
    expiry ≤ st.now + refreshTtl

theorem State.Holds.kept (h : st.Holds refresh sub least)
    (hslot : st'.redis.slot refresh = st.redis.slot refresh) (hnow : st.now ≤ st'.now) :
    st'.Holds refresh sub least := by
  obtain ⟨expiry, hsome, hle, hbound⟩ := h
  exact ⟨expiry, hslot.trans hsome, hle, by omega⟩

/-- A login that gets the same token puts its expiry off. -/
theorem holds_of_effect (hnames : env.Names refresh sub) (he : Effect env st req answer st')
    (hlogout : req ≠ .logout refresh) (h : st.Holds refresh sub least) :
    st'.Holds refresh sub least := by
  cases slot_of_effect refresh he with
  | written _ hr hslot hnow =>
    obtain ⟨expiry, _, hle, hbound⟩ := h
    rw [hnames _ _ hr] at hslot
    exact ⟨_, hslot, hle.trans hbound, by rw [hnow]⟩
  | kept _ hslot hnow => exact h.kept hslot hnow
  | deleted _ hreq => exact absurd hreq hlogout

theorem holds_of_run (hnames : env.Names refresh sub) {ls : List (Request × Answer)}
    (hrun : (routes env).Run st ls st') (hlogout : ∀ l ∈ ls, l.1 ≠ .logout refresh)
    (h : st.Holds refresh sub least) : st'.Holds refresh sub least := by
  refine (hrun.guard_labels hlogout).invariant (fun s => s.Holds refresh sub least) h ?_
  intro s l s' ih hstep
  exact holds_of_effect hnames (effect_of_step hstep.2) hstep.1 ih

end Slot

theorem login_issues {email password : String} {user : User} {tokens : Tokens}
    (hlogin : loginUser env email password st = (.ok (user, tokens), st')) :
    st'.now = st.now ∧
      createRefreshToken env st'.now (some (toString user.id)) = some tokens.refresh ∧
      st'.redis.slot tokens.refresh = some (toString user.id, st'.now + refreshTtl) := by
  have hanswer : handle env st (.login email password) = (.ok (.granted user tokens), st') := by
    change granted (loginUser env email password st) = _
    rw [hlogin]
    rfl
  have he := effect_of_handle env st (.login email password)
  rw [hanswer] at he
  cases he with
  | registers hreq => exact hreq.elim
  | signsIn _ _ _ ht => exact ⟨rfl, (createTokens_ok ht).2, Function.update_self ..⟩

end Runs

section Lifetimes
variable {env : Env} {st₁ st₂ st₃ : State} {holder user : User} {tokens : Tokens}
  {access email password : String}

theorem accessKept_iff (hj : env.jose.Lawful) (hmin : 1 ≤ env.settings.accessTokenExpireMinutes)
    (hmem : holder ∈ st₁.users.rows) (hid : holder.id < 2147483648)
    (ha : createAccessToken env st₁.now (some (toString holder.id)) = some access) :
    AccessKept env st₁ holder access ↔
      env.settings.algorithm = "HS256" ∧ env.settings.utcOffset st₁.now = 0 := by
  constructor
  · intro hkept
    have halg : env.settings.algorithm = "HS256" := by
      by_contra halg
      refine getCurrentUser_refused hj halg ha st₁.users _ holder ((hkept [] st₁ .nil holder).mpr ?_)
      unfold Settings.accessLifetime
      exact ⟨rfl, by omega⟩
    refine ⟨halg, ?_⟩
    -- the first instant at which the two clocks disagree about the token
    have hsame : ∀ seconds : ℕ,
        ((st₁.now + seconds : ℕ) : ℤ) ≤ env.settings.localNow st₁.now +
            env.settings.accessLifetime ↔
          ((st₁.now + seconds : ℕ) : ℤ) ≤ st₁.now + env.settings.accessLifetime := by
      intro seconds
      have hk := hkept _ _ (run_elapse env st₁ seconds) holder
      rw [getCurrentUser_issued hj halg hmem hid ha] at hk
      simpa only [true_and] using hk
    have hearly := hsame env.settings.accessLifetime.toNat
    have hlate := hsame (env.settings.accessLifetime + env.settings.utcOffset st₁.now).toNat
    unfold Settings.accessLifetime Settings.localNow at hearly hlate
    omega
  · rintro ⟨halg, hoffset⟩ ls st' hrun user
    rw [getCurrentUser_issued hj halg (rows_of_run hrun hmem) hid ha, Settings.localNow, hoffset,
      Int.add_zero]

theorem refreshKept_iff (hj : env.jose.Lawful) (halg : env.settings.algorithm = "HS256")
    (hoffset : env.settings.utcOffset st₃.now = 0) (hdays : 1 ≤ env.settings.refreshTokenExpireDays)
    (hlogin : loginUser env email password st₂ = (.ok (user, tokens), st₃)) (exempt : Set ℤ) :
    RefreshKept env st₃ tokens.refresh exempt ↔
      ∀ now : ℕ, st₃.now + refreshTtl ≤ now → (now : ℤ) ∉ exempt →
        st₃.now + env.settings.refreshLifetime < (now : ℤ) := by
  obtain ⟨-, hr, hslot⟩ := login_issues hlogin
  have hclock : env.settings.localNow st₃.now = st₃.now := by
    rw [Settings.localNow, hoffset, Int.add_zero]
  constructor
  · intro hkept now hle hexempt
    have hrun := run_elapse env st₃ (now - st₃.now)
    rw [Nat.add_sub_cancel' (by omega)] at hrun
    have hslot' : ({ st₃ with now := now } : State).redis.slot tokens.refresh = _ := hslot
    have hk := hkept _ _ hrun (by simp) hexempt
    rw [accepted_issued hj halg hr hslot'] at hk
    by_contra hlt
    exact absurd (hk.mpr (not_lt.mp hlt)).2 (not_lt.mpr hle)
  · intro hall ls st' hrun hlogout hexempt
    have hnames : env.Names tokens.refresh (toString user.id) := by
      refine names_issued hj halg hr ?_
      unfold Settings.refreshLifetime
      omega
    have hholds : st₃.Holds tokens.refresh (toString user.id) (st₃.now + refreshTtl) :=
      ⟨_, hslot, le_refl _, le_refl _⟩
    obtain ⟨expiry, hslot', hle, -⟩ := holds_of_run hnames hrun hlogout hholds
    rw [accepted_issued hj halg hr hslot', hclock]
    constructor
    · exact And.left
    · intro hlive
      refine ⟨hlive, ?_⟩
      by_contra hlt
      exact absurd hlive (not_le.mpr (hall st'.now (by omega) hexempt))

/-- The configured lifetimes hold on a server whose clock shows UTC, for refresh tokens of at most
six days. With seven days a refresh token is lost in its last second. The clock has one offset when
the tokens are issued. -/
theorem lifetimes_configured_iff (hj : env.jose.Lawful)
    (hmin : 1 ≤ env.settings.accessTokenExpireMinutes)
    (hdays : 1 ≤ env.settings.refreshTokenExpireDays)
    (hmem : holder ∈ st₁.users.rows) (hid : holder.id < 2147483648)
    (ha : createAccessToken env st₁.now (some (toString holder.id)) = some access)
    (hlogin : loginUser env email password st₂ = (.ok (user, tokens), st₃))
    (hclock : env.settings.utcOffset st₂.now = env.settings.utcOffset st₁.now) :
    (AccessKept env st₁ holder access ∧ RefreshKept env st₃ tokens.refresh ∅ ↔
      env.settings.algorithm = "HS256" ∧ env.settings.utcOffset st₁.now = 0 ∧
        env.settings.refreshTokenExpireDays ≤ 6) ∧
    (AccessKept env st₁ holder access ∧
        RefreshKept env st₃ tokens.refresh {st₃.now + env.settings.refreshLifetime} ↔
      env.settings.algorithm = "HS256" ∧ env.settings.utcOffset st₁.now = 0 ∧
        env.settings.refreshTokenExpireDays ≤ 7) := by
  rw [← (login_issues hlogin).1] at hclock
  have hboth : ∀ (exempt : Set ℤ) (days : ℤ),
      ((∀ now : ℕ, st₃.now + refreshTtl ≤ now → (now : ℤ) ∉ exempt →
        st₃.now + env.settings.refreshLifetime < (now : ℤ)) ↔
          env.settings.refreshTokenExpireDays ≤ days) →
      (AccessKept env st₁ holder access ∧ RefreshKept env st₃ tokens.refresh exempt ↔
        env.settings.algorithm = "HS256" ∧ env.settings.utcOffset st₁.now = 0 ∧
          env.settings.refreshTokenExpireDays ≤ days) := by
    intro exempt days hiff
    rw [accessKept_iff hj hmin hmem hid ha, and_assoc]
    refine and_congr_right fun halg => and_congr_right fun hoffset => ?_
    rw [refreshKept_iff hj halg (hclock.trans hoffset) hdays hlogin, hiff]
  refine ⟨hboth _ _ ⟨fun h => ?_, fun h now hle _ => ?_⟩,
    hboth _ _ ⟨fun h => ?_, fun h now hle hne => ?_⟩⟩
  · have hlast := h (st₃.now + refreshTtl) (le_refl _) (Set.notMem_empty _)
    unfold Settings.refreshLifetime refreshTtl at hlast
    omega
  · unfold Settings.refreshLifetime
    unfold refreshTtl at hle
    omega
  · by_contra hdays
    have hlast := h (st₃.now + refreshTtl) (le_refl _)
    unfold Settings.refreshLifetime refreshTtl at hlast
    simp only [Set.mem_singleton_iff] at hlast
    omega
  · unfold Settings.refreshLifetime at hne ⊢
    unfold refreshTtl at hle
    simp only [Set.mem_singleton_iff] at hne
    omega

end Lifetimes

/-! ### Clocks -/

def kim : User := ⟨1, kimsEmail, some "password", "Kim", none, some "local", none⟩

def oneUser : Users where
  rows := [kim]
  nextId := 2
  ids := List.nodup_singleton _
  emails := List.nodup_singleton _
  fresh _ hu := List.mem_singleton.mp hu ▸ Nat.lt_succ_self 1

def serverAt (utcOffset : ℕ → ℤ) (days : ℤ) : Env :=
  { plainEnv with settings := { plainEnv.settings with
      utcOffset := utcOffset
      refreshTokenExpireDays := days } }

def loggedOut : State := ⟨oneUser, .empty, 0⟩

theorem lifetimes_configured_iff_applied : ∃ access user tokens st,
    loginUser (serverAt (fun _ => 0) 6) "kim@mail.com" "password" loggedOut =
        (.ok (user, tokens), st) ∧
      AccessKept (serverAt (fun _ => 0) 6) loggedOut kim access ∧
        RefreshKept (serverAt (fun _ => 0) 6) st tokens.refresh ∅ := by
  obtain ⟨access, ha⟩ : ∃ access,
      createAccessToken (serverAt (fun _ => 0) 6) loggedOut.now (some (toString kim.id)) =
        some access := ⟨_, rfl⟩
  obtain ⟨user, tokens, st, hlogin⟩ : ∃ user tokens st,
      loginUser (serverAt (fun _ => 0) 6) "kim@mail.com" "password" loggedOut =
        (.ok (user, tokens), st) := ⟨_, _, _, rfl⟩
  exact ⟨access, user, tokens, st, hlogin,
    (lifetimes_configured_iff plainJose_lawful (by decide) (by decide) (List.mem_singleton_self _)
      (by decide) ha hlogin rfl).1.mpr ⟨rfl, rfl, by decide⟩⟩

/-- Nine hours ahead of UTC, a token for half an hour is accepted after two. -/
theorem token_outlives_settings :
    ¬ ∀ env : Env, env.jose.Lawful → env.settings.algorithm = "HS256" →
      1 ≤ env.settings.accessTokenExpireMinutes → 1 ≤ env.settings.refreshTokenExpireDays →
      ∀ (st₁ st₂ st₃ : State) (holder user : User) (access email password : String)
        (tokens : Tokens), holder ∈ st₁.users.rows → holder.id < 2147483648 →
        createAccessToken env st₁.now (some (toString holder.id)) = some access →
        loginUser env email password st₂ = (.ok (user, tokens), st₃) →
          AccessKept env st₁ holder access ∧ RefreshKept env st₃ tokens.refresh ∅ := by
  intro hall
  obtain ⟨access, ha⟩ : ∃ access,
      createAccessToken (serverAt (fun _ => 32400) 7) loggedOut.now (some (toString kim.id)) =
        some access := ⟨_, rfl⟩
  obtain ⟨user, tokens, st, hlogin⟩ : ∃ user tokens st,
      loginUser (serverAt (fun _ => 32400) 7) "kim@mail.com" "password" loggedOut =
        (.ok (user, tokens), st) := ⟨_, _, _, rfl⟩
  have hkept := (hall (serverAt (fun _ => 32400) 7) plainJose_lawful rfl (by decide) (by decide)
    loggedOut loggedOut st kim user access _ _ tokens (List.mem_singleton_self _) (by decide) ha
    hlogin).1
  have haccepted : getCurrentUser (serverAt (fun _ => 32400) 7) oneUser 7200 (some access) =
      .ok kim := (getCurrentUser_issued plainJose_lawful rfl (List.mem_singleton_self _) (by decide) ha
      kim).mpr ⟨rfl, by decide⟩
  have hlate := (hkept _ _ (run_elapse _ _ 7200) kim).mp haccepted
  exact absurd hlate.2 (by decide)

end Nalang.Accounts
