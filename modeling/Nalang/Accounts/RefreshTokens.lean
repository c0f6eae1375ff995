import Nalang.Accounts.Requests

/-!
# The life of a refresh token

A refresh token is accepted while Redis maps it to its user. Login and the
callbacks write that entry, for seven days, `register_user` does not.
-/

namespace Nalang.Accounts
open Transition

def Entry.handedOut (e : Entry) : Option String :=
  match e.2.2 with
  | .ok (.granted _ tokens) => some tokens.refresh
  | _ => none

def Distinct (h : List Entry) : Prop := (h.filterMap Entry.handedOut).Nodup

def LiveFrom (h : List Entry) (e : Entry) (token : String) : Prop :=
  ∃ before after, h = before ++ e :: after ∧ e.handedOut = some token ∧
    ∀ e' ∈ after, e'.2.1 ≠ .logout token

def Live (h : List Entry) (token : String) : Prop := ∃ e, LiveFrom h e token

/-- The token is in an answer of the server. -/
def Signed (h : List Entry) (token : String) : Prop :=
  ∃ e ∈ h, (∃ user tokens, e.2.2 = .ok (.granted user tokens) ∧
      (token = tokens.access ∨ token = tokens.refresh)) ∨
    ∃ tokens, e.2.2 = .ok (.refreshed tokens) ∧ token = tokens.access

/-- A string that bears a valid signature was signed by the server. -/
def Genuine (env : Env) (h : List Entry) (now : ℕ) (token : String) : Prop :=
  (∃ claims, env.jose.decode env.settings.jwtRefreshSecretKey now token = .ok claims) →
    Signed h token

def Accepted (env : Env) (st : State) (token : String) : Prop :=
  ∃ tokens, refreshAccessToken env token st = .ok tokens

def unforged (env : Env) : Lts (List Entry × State) (Request × Answer) :=
  (routes env).recorded.guard fun s l =>
    ∀ token, l.1 = .refresh token → Genuine env s.1 s.2.now token

/-- The entry in Redis that a login or a callback makes. -/
def Entry.Whitelists (e : Entry) (token : String) (x : String × ℕ) : Prop :=
  ∃ user tokens, e.2.2 = .ok (.granted user tokens) ∧ ¬ e.2.1.IsRegister ∧
    tokens.refresh = token ∧ x = (toString user.id, e.1.now + refreshTtl)

section Entries
variable {env : Env} {h : List Entry} {e x : Entry} {token : String}

theorem liveFrom_snoc : LiveFrom (h ++ [x]) e token ↔
    LiveFrom h e token ∧ x.2.1 ≠ .logout token ∨ e = x ∧ x.handedOut = some token := by
  constructor
  · rintro ⟨before, after, heq, hout, hafter⟩
    rcases List.eq_nil_or_concat after with rfl | ⟨rest, last, rfl⟩
    · obtain ⟨-, hx⟩ := List.append_inj' heq rfl
      cases hx
      exact .inr ⟨rfl, hout⟩
    · rw [List.concat_eq_append, ← List.cons_append, ← List.append_assoc] at heq
      obtain ⟨hpre, hx⟩ := List.append_inj' heq rfl
      cases hx
      exact .inl ⟨⟨before, rest, hpre, hout, fun e' he' => hafter e' (by simp [he'])⟩,
        hafter x (by simp)⟩
  · rintro (⟨⟨before, after, rfl, hout, hafter⟩, hx⟩ | ⟨rfl, hout⟩)
    · refine ⟨before, after ++ [x], by simp, hout, ?_⟩
      intro e' he'
      rcases List.mem_append.mp he' with he' | he'
      · exact hafter e' he'
      · rw [List.mem_singleton.mp he']
        exact hx
    · exact ⟨h, [], rfl, hout, by simp⟩

theorem LiveFrom.mem (hl : LiveFrom h e token) : e ∈ h ∧ e.handedOut = some token := by
  obtain ⟨before, after, rfl, hout, -⟩ := hl
  exact ⟨by simp, hout⟩

theorem Distinct.of_snoc (hd : Distinct (h ++ [x])) : Distinct h := by
  unfold Distinct at hd
  rw [List.filterMap_append] at hd
  exact (List.nodup_append.mp hd).1

theorem Distinct.fresh (hd : Distinct (h ++ [x])) (hx : x.handedOut = some token) :
    ∀ e ∈ h, e.handedOut ≠ some token := by
  intro e he hout
  unfold Distinct at hd
  rw [List.filterMap_append, List.nodup_append] at hd
  exact hd.2.2 token (List.mem_filterMap.mpr ⟨e, he, hout⟩) token
    (List.mem_filterMap.mpr ⟨x, List.mem_singleton_self x, hx⟩) rfl

theorem createTokens_ok {now : ℕ} {user : User} {tokens : Tokens}
    (h : createTokens env now user = .ok tokens) :
    createAccessToken env now (some (toString user.id)) = some tokens.access ∧
      createRefreshToken env now (some (toString user.id)) = some tokens.refresh := by
  unfold createTokens at h
  split at h
  · cases h
  · rename_i access ha
    split at h
    · cases h
    · rename_i refresh hr
      cases h
      exact ⟨ha, hr⟩

theorem refreshAccessToken_ok {st : State} {tokens : Tokens} :
    refreshAccessToken env token st = .ok tokens ↔ ∃ payload,
      env.jose.decode env.settings.jwtRefreshSecretKey st.now token = .ok payload ∧
      st.redis.get st.now token = payload.sub ∧
      createAccessToken env st.now payload.sub = some tokens.access ∧ tokens.refresh = token := by
  unfold refreshAccessToken
  cases env.jose.decode env.settings.jwtRefreshSecretKey st.now token with
  | error e => cases e <;> simp
  | ok payload =>
    by_cases hget : st.redis.get st.now token = payload.sub
    · cases hacc : createAccessToken env st.now payload.sub with
      | none => simp [hget, hacc]
      | some access =>
        cases tokens with
        | mk a r => simp [hget, hacc, eq_comm]
    · simp [hget]

theorem signed_snoc : Signed (h ++ [x]) token ↔ Signed h token ∨ Signed [x] token := by
  unfold Signed
  simp only [List.mem_append, List.mem_singleton, or_and_right, exists_or]

end Entries

/-! ### What Redis holds -/

structure Tracked (env : Env) (h : List Entry) (st : State) : Prop where
  signed : ∀ token, Signed h token → ∃ key claims,
    env.jose.encode env.settings.algorithm key claims = some token ∧ claims.sub ≠ none
  stored : ∀ token x, st.redis.slot token = some x ↔
    ∃ e, LiveFrom h e token ∧ e.Whitelists token x

section Steps
variable {env : Env} {h : List Entry} {st st' : State} {req : Request} {answer : Answer}

theorem signed_error {e : HttpError} {token : String} :
    ¬ Signed [(st, req, .error e)] token := by
  rintro ⟨_, he, ⟨_, _, hans, _⟩ | ⟨_, hans, _⟩⟩ <;> rw [List.mem_singleton.mp he] at hans <;>
    cases hans

theorem signed_done {token : String} : ¬ Signed [(st, req, .ok .done)] token := by
  rintro ⟨_, he, ⟨_, _, hans, _⟩ | ⟨_, hans, _⟩⟩ <;> rw [List.mem_singleton.mp he] at hans <;>
    cases hans

theorem stored_frame (hi : Tracked env h st) (hredis : st'.redis = st.redis)
    (hout : Entry.handedOut (st, req, answer) = none) (hlogout : ∀ token, req ≠ .logout token)
    (token : String) (x : String × ℕ) : st'.redis.slot token = some x ↔
      ∃ e, LiveFrom (h ++ [(st, req, answer)]) e token ∧ e.Whitelists token x := by
  rw [hredis, hi.stored]
  constructor
  · rintro ⟨e, hl, hw⟩
    exact ⟨e, liveFrom_snoc.mpr (.inl ⟨hl, hlogout token⟩), hw⟩
  · rintro ⟨e, hl, hw⟩
    rcases liveFrom_snoc.mp hl with ⟨hl, -⟩ | ⟨-, hsome⟩
    · exact ⟨e, hl, hw⟩
    · rw [hout] at hsome
      cases hsome

theorem signed_granted {user : User} {tokens : Tokens} (hi : Tracked env h st)
    (ht : createTokens env st.now user = .ok tokens) :
    ∀ token, Signed (h ++ [(st, req, .ok (.granted user tokens))]) token → ∃ key claims,
      env.jose.encode env.settings.algorithm key claims = some token ∧ claims.sub ≠ none := by
  intro token hs
  rcases signed_snoc.mp hs with hs | ⟨_, he, hs⟩
  · exact hi.signed token hs
  · rw [List.mem_singleton.mp he] at hs
    obtain ⟨hacc, href⟩ := createTokens_ok ht
    obtain ⟨_, _, hans, htok⟩ | ⟨_, hans, _⟩ := hs
    · cases hans
      rcases htok with rfl | rfl
      · exact ⟨_, _, hacc, Option.some_ne_none _⟩
      · exact ⟨_, _, href, Option.some_ne_none _⟩
    · cases hans

theorem AsksFor.ne_logout {t : Users} {account : Account} (h : AsksFor env t req account)
    (token : String) : req ≠ .logout token := by
  rintro rfl
  cases h with
  | callback h => cases h

theorem stored_granted {user : User} {tokens : Tokens} (hi : Tracked env h st)
    (hlogout : ∀ token, req ≠ .logout token)
    (hd : Distinct (h ++ [(st, req, .ok (.granted user tokens))])) {token : String}
    {x : String × ℕ} : (∃ e, LiveFrom (h ++ [(st, req, .ok (.granted user tokens))]) e token ∧
        e.Whitelists token x) ↔
      token ≠ tokens.refresh ∧ st.redis.slot token = some x ∨
        token = tokens.refresh ∧ ¬ req.IsRegister ∧ x = (toString user.id, st.now + refreshTtl) := by
  have hfresh : ∀ e, ¬ LiveFrom h e tokens.refresh :=
    fun e hl => hd.fresh rfl e hl.mem.1 hl.mem.2
  rw [hi.stored]
  constructor
  · rintro ⟨e, hl, hw⟩
    rcases liveFrom_snoc.mp hl with ⟨hl, -⟩ | ⟨rfl, hout⟩
    · refine .inl ⟨?_, e, hl, hw⟩
      rintro rfl
      exact hfresh e hl
    · obtain ⟨_, _, hans, hreq, htok, hx⟩ := hw
      cases hans
      exact .inr ⟨htok.symm, hreq, hx⟩
  · rintro (⟨hne, e, hl, hw⟩ | ⟨rfl, hreq, hx⟩)
    · exact ⟨e, liveFrom_snoc.mpr (.inl ⟨hl, hlogout token⟩), hw⟩
    · exact ⟨_, liveFrom_snoc.mpr (.inr ⟨rfl, rfl⟩), user, tokens, rfl, hreq, rfl, hx⟩

theorem stored_logsOut (hi : Tracked env h st) (token token' : String) (x : String × ℕ) :
    (st.redis.delete token).slot token' = some x ↔
      ∃ e, LiveFrom (h ++ [(st, .logout token, .ok .done)]) e token' ∧ e.Whitelists token' x := by
  constructor
  · intro hslot
    have hne : token' ≠ token := by
      rintro rfl
      simp [ExpiringStore.delete] at hslot
    obtain ⟨e, hl, hw⟩ := (hi.stored _ _).mp (ExpiringStore.slot_of_delete hslot)
    refine ⟨e, liveFrom_snoc.mpr (.inl ⟨hl, ?_⟩), hw⟩
    intro he
    exact hne (Request.logout.inj he).symm
  · rintro ⟨e, hl, hw⟩
    rcases liveFrom_snoc.mp hl with ⟨hl, hlogout⟩ | ⟨-, hsome⟩
    · have hne : token' ≠ token := by
        rintro rfl
        exact hlogout rfl
      simpa [ExpiringStore.delete, hne] using (hi.stored _ _).mpr ⟨e, hl, hw⟩
    · cases hsome

theorem tracked_step (hj : env.jose.Lawful) (hi : Tracked env h st)
    (hgen : ∀ token, req = .refresh token → Genuine env h st.now token)
    (hd : Distinct (h ++ [(st, req, answer)])) (he : Effect env st req answer st') :
    Tracked env (h ++ [(st, req, answer)]) st' := by
  cases he with
  | refused hlogout hrows =>
    refine ⟨fun token hs => ?_, stored_frame hi rfl rfl hlogout⟩
    exact hi.signed token ((signed_snoc.mp hs).resolve_right signed_error)
  | tokenless hask hobt ht =>
    refine ⟨fun token hs => ?_, stored_frame hi rfl rfl hask.ne_logout⟩
    exact hi.signed token ((signed_snoc.mp hs).resolve_right signed_error)
  | @registers _ _ user t tokens hreq hask hobt ht =>
    refine ⟨signed_granted hi ht, fun token x => ?_⟩
    rw [stored_granted hi hask.ne_logout hd]
    constructor
    · intro hslot
      refine .inl ⟨?_, hslot⟩
      rintro rfl
      obtain ⟨e, hl, -⟩ := (hi.stored _ _).mp hslot
      exact hd.fresh rfl e hl.mem.1 hl.mem.2
    · rintro (⟨-, hslot⟩ | ⟨-, hnot, -⟩)
      · exact hslot
      · exact absurd hreq hnot
  | @signsIn _ _ user t tokens hreq hask hobt ht =>
    refine ⟨signed_granted hi ht, fun token x => ?_⟩
    rw [stored_granted hi hask.ne_logout hd, ExpiringStore.slot_set]
    simp only [hreq, not_false_eq_true, true_and]
  | @refreshes token tokens hok =>
    refine ⟨fun token' hs => ?_, stored_frame hi rfl rfl fun _ => Request.noConfusion⟩
    rcases signed_snoc.mp hs with hs | ⟨_, hin, hs⟩
    · exact hi.signed token' hs
    · rw [List.mem_singleton.mp hin] at hs
      obtain ⟨_, _, hans, _⟩ | ⟨_, hans, htok⟩ := hs
      · cases hans
      · cases hans
        obtain ⟨payload, hdec, -, hacc, -⟩ := refreshAccessToken_ok.mp hok
        -- the claims of the new token are those of the old one, which the server has signed
        have hsigned := hgen token rfl ⟨payload, hdec⟩
        obtain ⟨key, claims, henc, hsub⟩ := hi.signed token hsigned
        rw [hj.faithful _ _ _ _ henc _ _ _ hdec] at hacc
        rw [htok]
        exact ⟨_, _, hacc, hsub⟩
  | @logsOut token =>
    refine ⟨fun token' hs => ?_, stored_logsOut hi token⟩
    exact hi.signed token' ((signed_snoc.mp hs).resolve_right signed_done)
  | elapses =>
    refine ⟨fun token hs => ?_, stored_frame hi rfl rfl fun _ => Request.noConfusion⟩
    exact hi.signed token ((signed_snoc.mp hs).resolve_right signed_done)

theorem tracked_run (hj : env.jose.Lawful) {users : Users} {now : ℕ} {s : List Entry × State}
    {ls : List (Request × Answer)} (hr : (unforged env).Run ([], ⟨users, .empty, now⟩) ls s)
    (hd : Distinct s.1) : Tracked env s.1 s.2 := by
  refine hr.invariant (fun s => Distinct s.1 → Tracked env s.1 s.2) ?_ ?_ hd
  · intro _
    refine ⟨?_, ?_⟩
    · rintro token ⟨_, he, _⟩
      cases he
    · intro token x
      constructor
      · intro hslot
        cases hslot
      · rintro ⟨e, hl, _⟩
        cases hl.mem.1
  · rintro ⟨h, st⟩ ⟨req, answer⟩ ⟨h', st'⟩ ih hstep hd'
    obtain ⟨hgen, hlog, hnext⟩ := hstep
    simp only at hgen hlog hnext ih hd' ⊢
    rw [hlog] at hd' ⊢
    exact tracked_step hj (ih hd'.of_snoc) hgen hd' (effect_of_step hnext)

end Steps

/-! ### Which tokens are accepted -/

section Acceptance
variable {env : Env} {h : List Entry} {st : State} {token : String}

def Unexpired (env : Env) (h : List Entry) (now : ℕ) (token : String) : Prop :=
  ∀ e ∈ h, e.handedOut = some token → (now : ℤ) ≤ env.settings.localNow e.1.now +
    24 * 60 * 60 * env.settings.refreshTokenExpireDays

/-- Handed out by a login or a callback, not logged out since, and still in Redis. -/
def Whitelisted (h : List Entry) (now : ℕ) (token : String) : Prop :=
  ∃ e, LiveFrom h e token ∧ ¬ e.2.1.IsRegister ∧ now < e.1.now + refreshTtl

theorem granted_of_handedOut {e : Entry} (he : e.handedOut = some token) :
    ∃ user tokens, e.2.2 = .ok (.granted user tokens) ∧ tokens.refresh = token := by
  unfold Entry.handedOut at he
  split at he
  · rename_i user tokens hans
    exact ⟨user, tokens, hans, Option.some.inj he⟩
  · cases he

theorem createTokens_of_effect {req : Request} {st' : State} {user : User} {tokens : Tokens}
    (he : Effect env st req (.ok (.granted user tokens)) st') :
    createTokens env st.now user = .ok tokens := by
  cases he with
  | registers _ _ _ ht => exact ht
  | signsIn _ _ _ ht => exact ht

theorem get_iff_whitelisted (hi : Tracked env h st) :
    (∃ v, st.redis.get st.now token = some v) ↔ Whitelisted h st.now token := by
  constructor
  · rintro ⟨v, hget⟩
    obtain ⟨expiry, hslot, hlt⟩ := ExpiringStore.get_eq_some.mp hget
    obtain ⟨e, hl, _, _, _, hreq, _, hx⟩ := (hi.stored _ _).mp hslot
    cases hx
    exact ⟨e, hl, hreq, hlt⟩
  · rintro ⟨e, hl, hreq, hlt⟩
    obtain ⟨user, tokens, hans, href⟩ := granted_of_handedOut hl.mem.2
    exact ⟨toString user.id, ExpiringStore.get_eq_some.mpr ⟨_, (hi.stored _ _).mpr
      ⟨e, hl, user, tokens, hans, hreq, href, rfl⟩, hlt⟩⟩

theorem sub_of_decode (hj : env.jose.Lawful) (hi : Tracked env h st)
    (hgen : Genuine env h st.now token) {payload : Claims}
    (hdec : env.jose.decode env.settings.jwtRefreshSecretKey st.now token = .ok payload) :
    env.settings.algorithm = "HS256" ∧ ∃ sub, payload.sub = some sub := by
  obtain ⟨key, claims, henc, hsub⟩ :=
    hi.signed token (hgen ⟨payload, hdec⟩)
  rw [hj.faithful _ _ _ _ henc _ _ _ hdec]
  refine ⟨?_, Option.ne_none_iff_exists'.mp hsub⟩
  by_contra halg
  rw [hj.refuses _ _ _ _ halg henc] at hdec
  cases hdec

theorem accepted_iff_whitelisted (hj : env.jose.Lawful) (hi : Tracked env h st)
    (hsteps : ∀ e ∈ h, ∃ st', Effect env e.1 e.2.1 e.2.2 st')
    (hgen : Genuine env h st.now token) (hlife : Unexpired env h st.now token) :
    Accepted env st token ↔ env.settings.algorithm = "HS256" ∧ Whitelisted h st.now token := by
  constructor
  · rintro ⟨tokens, hok⟩
    obtain ⟨payload, hdec, hget, -⟩ := refreshAccessToken_ok.mp hok
    obtain ⟨halg, sub, hsub⟩ := sub_of_decode hj hi hgen hdec
    exact ⟨halg, (get_iff_whitelisted hi).mp ⟨sub, hget.trans hsub⟩⟩
  · rintro ⟨halg, hwhite⟩
    obtain ⟨e, hl, hreq, hlt⟩ := hwhite
    obtain ⟨user, tokens, hans, href⟩ := granted_of_handedOut hl.mem.2
    obtain ⟨st', heff⟩ := hsteps e hl.mem.1
    rw [hans] at heff
    have henc := (createTokens_ok (createTokens_of_effect heff)).2
    unfold createRefreshToken at henc
    rw [halg, href] at henc
    have hdec := hj.decodes _ _ _ henc st.now
    rw [if_pos (hlife e hl.mem.1 hl.mem.2)] at hdec
    have hget : st.redis.get st.now token = some (toString user.id) :=
      ExpiringStore.get_eq_some.mpr ⟨_, (hi.stored _ _).mpr
        ⟨e, hl, user, tokens, hans, hreq, href, rfl⟩, hlt⟩
    obtain ⟨access, hacc⟩ : ∃ access,
        createAccessToken env st.now (some (toString user.id)) = some access := by
      unfold createAccessToken
      rw [halg]
      exact Option.ne_none_iff_exists'.mp (hj.encodes _ _)
    exact ⟨⟨access, token⟩, refreshAccessToken_ok.mpr ⟨_, hdec, hget, hacc, rfl⟩⟩

/-- Accepted are the tokens that were handed out and not logged out since. The new access token is
for the same user, and no token is accepted or refused because of it. -/
def FollowsLifecycle (env : Env) (h : List Entry) (st : State) (token : String) : Prop :=
  (Accepted env st token ↔ Live h token) ∧
    ∀ tokens, refreshAccessToken env token st = .ok tokens → tokens.refresh = token ∧
      (∃ sub exp exp', env.jose.decode env.settings.jwtRefreshSecretKey st.now token =
          .ok ⟨some sub, exp⟩ ∧
        env.jose.encode env.settings.algorithm env.settings.jwtSecretKey ⟨some sub, exp'⟩ =
          some tokens.access) ∧
      ∀ token', Accepted env (handle env st (.refresh token)).2 token' ↔ Accepted env st token'

theorem refresh_keeps_user (hj : env.jose.Lawful) (hi : Tracked env h st)
    (hgen : Genuine env h st.now token) {tokens : Tokens}
    (hok : refreshAccessToken env token st = .ok tokens) : tokens.refresh = token ∧
      ∃ sub exp exp', env.jose.decode env.settings.jwtRefreshSecretKey st.now token =
          .ok ⟨some sub, exp⟩ ∧
        env.jose.encode env.settings.algorithm env.settings.jwtSecretKey ⟨some sub, exp'⟩ =
          some tokens.access := by
  obtain ⟨payload, hdec, -, hacc, href⟩ := refreshAccessToken_ok.mp hok
  obtain ⟨-, sub, hsub⟩ := sub_of_decode hj hi hgen hdec
  cases payload
  cases hsub
  exact ⟨href, sub, _, _, hdec, hacc⟩

/-- A token lives as long as it is neither logged out nor expired, unless it comes from a
registration or has been dropped by Redis. -/
theorem follows_lifecycle_iff (hj : env.jose.Lawful) {users : Users} {now : ℕ}
    {ls : List (Request × Answer)} (hr : (unforged env).Run ([], ⟨users, .empty, now⟩) ls (h, st))
    (hd : Distinct h) (hgen : Genuine env h st.now token)
    (hlife : Unexpired env h st.now token) :
    FollowsLifecycle env h st token ↔
      (Live h token → env.settings.algorithm = "HS256" ∧ Whitelisted h st.now token) := by
  have hi := tracked_run hj hr hd
  have hsteps : ∀ e ∈ h, ∃ st', Effect env e.1 e.2.1 e.2.2 st' := by
    intro e he
    obtain ⟨st', hs⟩ := hr.of_guard.steps_recorded e he
    exact ⟨st', effect_of_step hs⟩
  have hacc := accepted_iff_whitelisted hj hi hsteps hgen hlife
  have hlive : Whitelisted h st.now token → Live h token := by
    rintro ⟨e, hl, -⟩
    exact ⟨e, hl⟩
  constructor
  · rintro ⟨hiff, -⟩ hl
    exact hacc.mp (hiff.mpr hl)
  · intro hwhite
    refine ⟨⟨fun ha => hlive (hacc.mp ha).2, fun hl => hacc.mpr (hwhite hl)⟩, ?_⟩
    intro tokens hok
    obtain ⟨href, hsub⟩ := refresh_keeps_user hj hi hgen hok
    exact ⟨href, hsub, fun _ => Iff.rfl⟩

end Acceptance

/-! ### A registration and a callback -/

def kimsLine : Exchange LineProfile :=
  ⟨some "code", 200, some "token", 200, some ⟨.text "U1", .text "Kim", .text "kim.png"⟩⟩

def kimsForm : RegisterRequest :=
  ⟨kimsEmail, "Kim", some "password", some "local", none, by decide, by decide⟩

def start : State := ⟨.empty, .empty, 0⟩

def first (env : Env) (req : Request) : Entry := (start, req, (handle env start req).1)

theorem run_first {env : Env} {req : Request} (hreq : ∀ token, req ≠ .refresh token) :
    (unforged env).Run ([], start) [(first env req).2] ([first env req], (handle env start req).2) :=
  Lts.Run.single ⟨fun token he => absurd he (hreq token), rfl, rfl⟩

theorem distinct_first (e : Entry) : Distinct [e] := by
  unfold Distinct
  cases h : e.handedOut <;> simp [h]

theorem follows_lifecycle_iff_applied : ∃ user tokens,
    (handle plainEnv start (.line "" kimsLine)).1 = .ok (.granted user tokens) ∧
      FollowsLifecycle plainEnv [first plainEnv (.line "" kimsLine)]
        (handle plainEnv start (.line "" kimsLine)).2 tokens.refresh := by
  obtain ⟨user, tokens, hans⟩ : ∃ user tokens,
      (handle plainEnv start (.line "" kimsLine)).1 = .ok (.granted user tokens) := ⟨_, _, rfl⟩
  have hnow : (handle plainEnv start (.line "" kimsLine)).2.now = 0 := rfl
  have hout : (first plainEnv (.line "" kimsLine)).handedOut = some tokens.refresh := by
    unfold Entry.handedOut first
    rw [hans]
  refine ⟨user, tokens, hans, (follows_lifecycle_iff plainJose_lawful
    (run_first fun _ => Request.noConfusion) (distinct_first _) ?_ ?_).mpr fun _ => ⟨rfl, ?_⟩⟩
  · intro _
    exact ⟨_, List.mem_singleton_self _, .inl ⟨user, tokens, hans, .inr rfl⟩⟩
  · intro e he _
    rw [List.mem_singleton.mp he, hnow]
    decide
  · refine ⟨_, ⟨[], [], rfl, hout, by simp⟩, id, ?_⟩
    rw [hnow]
    decide

theorem registered_token_refused :
    ¬ ∀ env : Env, env.jose.Lawful → env.settings.algorithm = "HS256" →
      ∀ users now ls h st, (unforged env).Run ([], ⟨users, .empty, now⟩) ls (h, st) → Distinct h →
      ∀ token, Genuine env h st.now token → Unexpired env h st.now token →
        FollowsLifecycle env h st token := by
  intro hall
  obtain ⟨user, tokens, hans, hredis⟩ : ∃ user tokens,
      (handle plainEnv start (.register "" kimsForm)).1 = .ok (.granted user tokens) ∧
      (handle plainEnv start (.register "" kimsForm)).2.redis.slot tokens.refresh = none :=
    ⟨_, _, rfl, rfl⟩
  have hnow : (handle plainEnv start (.register "" kimsForm)).2.now = 0 := rfl
  have hout : (first plainEnv (.register "" kimsForm)).handedOut = some tokens.refresh := by
    unfold Entry.handedOut first
    rw [hans]
  have hrun : (unforged plainEnv).Run ([], start) [(first plainEnv (.register "" kimsForm)).2]
      ([first plainEnv (.register "" kimsForm)],
        (handle plainEnv start (.register "" kimsForm)).2) :=
    run_first fun _ => Request.noConfusion
  have hgen : Genuine plainEnv [first plainEnv (.register "" kimsForm)]
      (handle plainEnv start (.register "" kimsForm)).2.now tokens.refresh := fun _ =>
    ⟨_, List.mem_singleton_self _, .inl ⟨user, tokens, hans, .inr rfl⟩⟩
  have hfollows := hall plainEnv plainJose_lawful rfl _ _ _ _ _ hrun (distinct_first _)
    tokens.refresh hgen (by
      intro e he _
      rw [List.mem_singleton.mp he, hnow]
      decide)
  obtain ⟨_, hok⟩ := hfollows.1.mpr ⟨_, [], [], rfl, hout, by simp⟩
  have hi := tracked_run plainJose_lawful hrun (distinct_first _)
  obtain ⟨payload, hdec, hget, -⟩ := refreshAccessToken_ok.mp hok
  obtain ⟨-, sub, hsub⟩ := sub_of_decode plainJose_lawful hi hgen hdec
  obtain ⟨_, hslot, -⟩ := ExpiringStore.get_eq_some.mp (hget.trans hsub)
  rw [hredis] at hslot
  cases hslot

end Nalang.Accounts
