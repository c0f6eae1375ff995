import Nalang.Accounts.Lifetimes

/-!
# The four social callbacks side by side

Each callback reads an e-mail, a name and a picture from the answer of its provider.
Three of them check these as a form only if they have to create the user, Google's
checks them for a returning user too.
-/

namespace Nalang.Accounts

inductive Request.Yields (email name image : JsonField) : Request → String → Prop
  | google {salt : String} {x : Exchange GoogleProfile} {profile : GoogleProfile}
      (hx : x.checked = .ok profile) (he : profile.email.item = .ok email)
      (hn : profile.name.item = .ok name) (hi : profile.picture.item = .ok image) :
      Yields email name image (.google salt x) "google"
  | line {salt : String} {x : Exchange LineProfile} {profile : LineProfile} {userId : JsonField}
      (hx : x.fetched = .ok profile) (hu : profile.userId.item = .ok userId)
      (he : email = .text (lineEmail userId)) (hn : profile.displayName.item = .ok name)
      (hi : profile.pictureUrl.item = .ok image) : Yields email name image (.line salt x) "line"
  | kakao {salt : String} {x : Exchange KakaoProfile} {profile : KakaoProfile} {id : JsonField}
      (hx : x.fetched = .ok profile) (hid : profile.id.item = .ok id)
      (he : profile.account.email.getD (.text (kakaoEmail id)) = email)
      (hn : profile.account.nickname.getD (.text "Unknown") = name)
      (hi : profile.account.profileImageUrl.getD .null = image) :
      Yields email name image (.kakao salt x) "kakao"
  | naver {salt : String} {x : Exchange NaverProfile} {profile : NaverProfile}
      (hx : x.fetched = .ok profile) (he : profile.email.item = .ok email)
      (hn : profile.name.item = .ok name) (hi : profile.profileImage.item = .ok image) :
      Yields email name image (.naver salt x) "naver"

def Request.salt : Request → String
  | .register salt _ | .google salt _ | .line salt _ | .kakao salt _ | .naver salt _ => salt
  | _ => ""

/-! ### What a callback may do -/

def Issues (env : Env) (st : State) (user : User) (r : Answer × State) : Prop :=
  ∃ tokens, createTokens env st.now user = .ok tokens ∧
    r = (.ok (.granted user tokens),
      { st with redis := st.redis.set st.now tokens.refresh (toString user.id) refreshTtl })

def RegisterRequest.row (userIn : RegisterRequest) (id : ℕ) : User :=
  ⟨id, userIn.email, none, userIn.name, userIn.profileImage, userIn.provider,
    none⟩

def CreatesFrom (env : Env) (st : State) (userIn : RegisterRequest) (r : Answer × State) : Prop :=
  ∃ t : Users, t.rows = st.users.rows ++ [userIn.row st.users.nextId] ∧
    Issues env { st with users := t } (userIn.row st.users.nextId) r

def Fails (st : State) (r : Answer × State) : Prop :=
  (∃ e, r.1 = .error e) ∧ r.2.users.rows = st.users.rows ∧ r.2.redis = st.redis

/-- The callbacks of all providers do the same with this e-mail, name and picture. -/
structure SameOperation (env : Env) (st : State) (email name image : JsonField) : Prop where
  returning : ∀ user, st.users.getUserByField email = .ok (some user) →
    ∀ req provider, req.Yields email name image provider → Issues env st user (handle env st req)
  new : (∀ user, st.users.getUserByField email ≠ .ok (some user)) →
    (∀ req provider, req.Yields email name image provider →
      ∃ userIn, RegisterRequest.validate env provider email name image = .ok userIn ∧
        CreatesFrom env st userIn (handle env st req)) ∨
    ∀ req provider, req.Yields email name image provider → Fails st (handle env st req)

/-! ### The condition -/

def Valid (env : Env) (email name image : JsonField) : Prop :=
  ∃ userIn, RegisterRequest.validate env "google" email name image = .ok userIn

def Signs (env : Env) (now : ℕ) (id : ℕ) : Prop :=
  createAccessToken env now (some (toString id)) ≠ none ∧
    createRefreshToken env now (some (toString id)) ≠ none

def Insertable (env : Env) (t : Users) (email name image : JsonField) : Prop :=
  t.getUserByField email = .ok none ∧ ∃ userIn,
    RegisterRequest.validate env "google" email name image = .ok userIn ∧
      t.getUserByEmail userIn.email.val = none ∧ userIn.storable = true

section Specs
variable {env : Env} {st : State} {email name image : JsonField} {req : Request} {provider : String}

theorem signs_iff {now : ℕ} {user : User} :
    (∃ tokens, createTokens env now user = .ok tokens) ↔ Signs env now user.id := by
  unfold createTokens Signs
  cases createAccessToken env now (some (toString user.id)) with
  | none => simp
  | some access =>
    cases createRefreshToken env now (some (toString user.id)) with
    | none => simp
    | some refresh => simp

theorem issueTokens_issues {user : User} (h : Signs env st.now user.id) :
    Issues env st user (granted (issueTokens env user st)) := by
  obtain ⟨tokens, htokens⟩ := signs_iff.mpr h
  refine ⟨tokens, htokens, ?_⟩
  unfold issueTokens
  rw [htokens]
  rfl

theorem Issues.signs {user : User} {r : Answer × State} (h : Issues env st user r) :
    Signs env st.now user.id := by
  obtain ⟨tokens, htokens, _⟩ := h
  exact signs_iff.mp ⟨tokens, htokens⟩

theorem Issues.not_fails {user : User} {st' : State} {r : Answer × State}
    (h : Issues env st' user r) : ¬ Fails st r := by
  obtain ⟨tokens, _, rfl⟩ := h
  rintro ⟨⟨e, he⟩, _⟩
  cases he

theorem validate_provider (provider provider' : String) :
    RegisterRequest.validate env provider email name image =
      (RegisterRequest.validate env provider' email name image).map
        fun userIn => { userIn with provider := some provider } := by
  unfold RegisterRequest.validate
  cases email with
  | text address =>
    cases name with
    | text nickname =>
      dsimp only
      cases env.emailStr address with
      | none => rfl
      | some normal =>
        dsimp only
        split_ifs with hlen
        · cases image <;> rfl
        · rfl
    | absent => rfl
    | null => rfl
    | other str => rfl
  | absent => rfl
  | null => rfl
  | other str => rfl

theorem password_of_validate {userIn : RegisterRequest}
    (h : RegisterRequest.validate env provider email name image = .ok userIn) :
    userIn.password = none := by
  obtain ⟨_, _, _, hpassword⟩ := validate_ok h
  exact hpassword

theorem valid_iff (provider : String) : Valid env email name image ↔
    ∃ userIn, RegisterRequest.validate env provider email name image = .ok userIn := by
  unfold Valid
  rw [validate_provider provider "google"]
  cases RegisterRequest.validate env "google" email name image with
  | error e => simp [Except.map]
  | ok userIn => simp [Except.map]

theorem item_eq_ok {v : JsonField} (h : v ≠ .absent) : v.item = .ok v := by
  cases v with
  | absent => exact absurd rfl h
  | null => rfl
  | text s => rfl
  | other str => rfl

/-! ### The callbacks as one sign-in -/

/-- The order of Google's callback: the form comes before the decision. -/
def checkedFirst (env : Env) (email name image : JsonField) (t : Users) :
    Except HttpError Account := do
  let user ← t.getUserByField email
  let userData ← RegisterRequest.validate env "google" email name image
  match user with
  | some user => return .inl user
  | none => return .inr userData

theorem checkedFirst_of_valid (h : Valid env email name image) (t : Users) :
    checkedFirst env email name image t = existingOr env "google" email name image t := by
  obtain ⟨userIn, hvalid⟩ := h
  unfold checkedFirst existingOr
  rw [hvalid]
  cases t.getUserByField email with
  | error e => rfl
  | ok found => cases found <;> rfl

theorem checkedFirst_of_new {t : Users} (h : ∀ user, t.getUserByField email ≠ .ok (some user)) :
    checkedFirst env email name image t = existingOr env "google" email name image t := by
  unfold checkedFirst existingOr
  cases hfound : t.getUserByField email with
  | error e => rfl
  | ok found =>
    cases found with
    | none => rfl
    | some user => exact absurd hfound (h user)

theorem googleAccount_checkedFirst {x : Exchange GoogleProfile} {profile : GoogleProfile}
    (hx : x.checked = .ok profile) (he : profile.email.item = .ok email)
    (hn : profile.name.item = .ok name) (hi : profile.picture.item = .ok image) (t : Users) :
    googleAccount env x t = checkedFirst env email name image t := by
  unfold googleAccount
  rw [hx, ok_bind, he, ok_bind, hn, ok_bind, hi, ok_bind]
  rfl

theorem account_of_yields {t : Users} (hy : req.Yields email name image provider)
    (h : provider = "google" →
      Valid env email name image ∨ ∀ user, t.getUserByField email ≠ .ok (some user)) :
    req.account env t = some (existingOr env provider email name image t) := by
  cases hy with
  | @google salt x profile hx he hn hi =>
    change some (googleAccount env x t) = _
    rw [googleAccount_checkedFirst hx he hn hi]
    rcases h rfl with hvalid | hnew
    · rw [checkedFirst_of_valid hvalid]
    · rw [checkedFirst_of_new hnew]
  | @line salt x profile userId hx hu he hn hi =>
    refine congrArg some ?_
    unfold lineAccount
    rw [hx, ok_bind, hu, ok_bind, hn, ok_bind, hi, ok_bind, he]
  | @kakao salt x profile id hx hid he hn hi =>
    refine congrArg some ?_
    unfold kakaoAccount
    rw [hx, ok_bind, hid, ok_bind]
    dsimp only
    rw [he, hn, hi]
  | @naver salt x profile hx he hn hi =>
    refine congrArg some ?_
    unfold naverAccount
    rw [hx, ok_bind, he, ok_bind, hn, ok_bind, hi, ok_bind]

theorem handle_of_account {asked : Except HttpError Account}
    (h : req.account env st.users = some asked) :
    handle env st req = granted (signIn env req.salt asked st) := by
  cases req with
  | google salt x =>
    cases h
    rfl
  | line salt x =>
    cases h
    rfl
  | kakao salt x =>
    cases h
    rfl
  | naver salt x =>
    cases h
    rfl
  | register salt userIn => cases h
  | login username password => cases h
  | refresh token => cases h
  | logout token => cases h
  | elapse seconds => cases h

theorem existingOr_returning {user : User} {t : Users}
    (h : t.getUserByField email = .ok (some user)) :
    existingOr env provider email name image t = .ok (.inl user) := by
  unfold existingOr
  rw [h]
  rfl

theorem existingOr_new {t : Users} (h : t.getUserByField email = .ok none) :
    existingOr env provider email name image t =
      (RegisterRequest.validate env provider email name image).map .inr := by
  unfold existingOr
  rw [h]
  cases RegisterRequest.validate env provider email name image <;> rfl

theorem createUser_row {salt : String} {userIn : RegisterRequest} {t : Users}
    (hpassword : userIn.password = none) :
    (t.getUserByEmail userIn.email.val = none ∧ userIn.storable = true → ∃ t' : Users,
      t'.rows = t.rows ++ [userIn.row t.nextId] ∧
        createUser env salt userIn t = (.ok (userIn.row t.nextId), t')) ∧
    (¬ (t.getUserByEmail userIn.email.val = none ∧ userIn.storable = true) → ∃ t' : Users,
      t'.rows = t.rows ∧ createUser env salt userIn t = (.error .serverError, t')) := by
  have hadd : createUser env salt userIn t = t.add userIn none := by
    unfold createUser
    rw [hpassword]
  rw [hadd]
  unfold Users.add Users.insert
  constructor
  · rintro ⟨hfree, hstorable⟩
    rw [if_pos hstorable, dif_pos hfree]
    exact ⟨_, rfl, rfl⟩
  · intro hno
    by_cases hstorable : userIn.storable = true
    · rw [if_pos hstorable, dif_neg fun hfree => hno ⟨hfree, hstorable⟩]
      exact ⟨{ t with
        nextId := t.nextId + 1
        fresh := fun v hv => Nat.lt_succ_of_lt (t.fresh v hv) }, rfl, rfl⟩
    · rw [if_neg hstorable]
      exact ⟨t, rfl, rfl⟩

theorem storable_provider {userIn : RegisterRequest} (h : userIn.storable = true)
    (hp : fitsText provider = true) :
    RegisterRequest.storable { userIn with provider := some provider } = true := by
  simp only [RegisterRequest.storable, Bool.and_eq_true] at h ⊢
  exact ⟨h.1, hp⟩

theorem Request.Yields.provider_fits (h : req.Yields email name image provider) :
    fitsText provider = true := by
  cases h <;> decide

theorem signIn_creates {salt : String} {userIn : RegisterRequest}
    (hvalid : RegisterRequest.validate env provider email name image = .ok userIn)
    (hfound : st.users.getUserByField email = .ok none)
    (hfree : st.users.getUserByEmail userIn.email.val = none ∧ userIn.storable = true)
    (hsigns : Signs env st.now st.users.nextId) :
    CreatesFrom env st userIn (granted (signIn env salt
      (existingOr env provider email name image st.users) st)) := by
  obtain ⟨t, hrows, hcreate⟩ := (@createUser_row env salt userIn st.users
    (password_of_validate hvalid)).1 hfree
  rw [existingOr_new hfound, hvalid]
  simp only [Except.map, signIn, hcreate]
  exact ⟨t, hrows, issueTokens_issues hsigns⟩

theorem signIn_fails {salt : String}
    (hnew : ∀ user, st.users.getUserByField email ≠ .ok (some user))
    (h : ¬ Insertable env st.users email name image) :
    Fails st (granted (signIn env salt
      (existingOr env provider email name image st.users) st)) := by
  cases hfound : st.users.getUserByField email with
  | error e =>
    unfold existingOr
    rw [hfound]
    exact ⟨⟨e, rfl⟩, rfl, rfl⟩
  | ok found =>
    cases found with
    | some user => exact absurd hfound (hnew user)
    | none =>
      rw [existingOr_new hfound]
      cases hvalid : RegisterRequest.validate env provider email name image with
      | error e => exact ⟨⟨e, rfl⟩, rfl, rfl⟩
      | ok userIn =>
        have hno : ¬ (st.users.getUserByEmail userIn.email.val = none ∧
            userIn.storable = true) := by
          rintro ⟨hfree, hstorable⟩
          unfold Insertable at h
          rw [validate_provider "google" provider, hvalid] at h
          exact h ⟨hfound, _, rfl, hfree, storable_provider hstorable (by decide)⟩
        obtain ⟨t, hrows, hcreate⟩ := (@createUser_row env salt userIn st.users
          (password_of_validate hvalid)).2 hno
        simp only [Except.map, signIn, hcreate]
        exact ⟨⟨_, rfl⟩, hrows, rfl⟩

/-! ### When the four are one operation -/

theorem google_yields (he : email ≠ .absent) (hn : name ≠ .absent) (hi : image ≠ .absent) :
    (Request.google "" ⟨some "code", 200, some "token", 200, some ⟨email, name, image⟩⟩).Yields
      email name image "google" :=
  .google rfl (item_eq_ok he) (item_eq_ok hn) (item_eq_ok hi)

theorem valid_of_google {user : User} {salt : String} {x : Exchange GoogleProfile}
    (hy : (Request.google salt x).Yields email name image provider)
    (hfound : st.users.getUserByField email = .ok (some user))
    (h : Issues env st user (handle env st (.google salt x))) : Valid env email name image := by
  cases hy with
  | google hx he hn hi =>
    have hask : (Request.google salt x).account env st.users =
        some (checkedFirst env email name image st.users) :=
      congrArg some (googleAccount_checkedFirst hx he hn hi st.users)
    rw [handle_of_account hask] at h
    unfold checkedFirst at h
    rw [hfound, ok_bind] at h
    unfold Valid
    cases hvalid : RegisterRequest.validate env "google" email name image with
    | ok userIn => exact ⟨userIn, rfl⟩
    | error e =>
      rw [hvalid] at h
      have hfails : Fails st (granted (signIn env salt (.error e) st)) := ⟨⟨e, rfl⟩, rfl, rfl⟩
      exact absurd hfails h.not_fails

theorem returning_iff (he : email ≠ .absent) (hn : name ≠ .absent) (hi : image ≠ .absent)
    {user : User} (hfound : st.users.getUserByField email = .ok (some user)) :
    (∀ req provider, req.Yields email name image provider →
      Issues env st user (handle env st req)) ↔
      Valid env email name image ∧ Signs env st.now user.id := by
  constructor
  · intro h
    have hy := google_yields he hn hi
    have hissues := h _ _ hy
    exact ⟨valid_of_google hy hfound hissues, hissues.signs⟩
  · rintro ⟨hvalid, hsigns⟩ req provider hy
    rw [handle_of_account (account_of_yields hy fun _ => .inl hvalid), existingOr_returning hfound]
    exact issueTokens_issues hsigns

theorem new_iff (he : email ≠ .absent) (hn : name ≠ .absent) (hi : image ≠ .absent)
    (hnew : ∀ user, st.users.getUserByField email ≠ .ok (some user)) :
    ((∀ req provider, req.Yields email name image provider →
        ∃ userIn, RegisterRequest.validate env provider email name image = .ok userIn ∧
          CreatesFrom env st userIn (handle env st req)) ∨
      ∀ req provider, req.Yields email name image provider → Fails st (handle env st req)) ↔
    (Insertable env st.users email name image → Signs env st.now st.users.nextId) := by
  have hhandle : ∀ req provider, req.Yields email name image provider → handle env st req =
      granted (signIn env req.salt (existingOr env provider email name image st.users) st) :=
    fun req provider hy => handle_of_account (account_of_yields hy fun _ => .inr hnew)
  constructor
  · rintro (hcreates | hfails) ⟨hfound, userIn, hvalid, hfree⟩
    · obtain ⟨_, _, _, _, hissues⟩ := hcreates _ _ (google_yields he hn hi)
      exact hissues.signs
    · -- a row that can be inserted is inserted
      have hsame := hhandle _ _ (google_yields he hn hi)
      have hfail := (hfails _ _ (google_yields he hn hi)).2.1
      obtain ⟨t, hrows, hcreate⟩ := (@createUser_row env "" userIn st.users
        (password_of_validate hvalid)).1 hfree
      rw [hsame, existingOr_new hfound, hvalid] at hfail
      simp only [Except.map, signIn, Request.salt, hcreate] at hfail
      have hkept : (granted (issueTokens env (userIn.row st.users.nextId)
          { st with users := t })).2.users = t := by
        unfold issueTokens granted
        cases createTokens env st.now (userIn.row st.users.nextId) with
        | error e => rfl
        | ok tokens => rfl
      rw [hkept, hrows] at hfail
      simp at hfail
  · intro hsigns
    by_cases hins : Insertable env st.users email name image
    · refine .inl fun req provider hy => ?_
      obtain ⟨hfound, userIn, hvalid, hfree⟩ := hins
      have hprovider : RegisterRequest.validate env provider email name image =
          .ok { userIn with provider := some provider } := by
        rw [validate_provider provider "google", hvalid]
        rfl
      refine ⟨_, hprovider, ?_⟩
      rw [hhandle req provider hy]
      exact signIn_creates hprovider hfound
        ⟨hfree.1, storable_provider hfree.2 hy.provider_fits⟩
        (hsigns ⟨hfound, userIn, hvalid, hfree⟩)
    · refine .inr fun req provider hy => ?_
      rw [hhandle req provider hy]
      exact signIn_fails hnew hins

/-- For an e-mail, a name and a picture that are there, the four callbacks do the same exactly when
a returning user's data pass as a form, and the tokens that come due can be signed. -/
theorem same_operation_iff (he : email ≠ .absent) (hn : name ≠ .absent) (hi : image ≠ .absent) :
    SameOperation env st email name image ↔
      (∀ user, st.users.getUserByField email = .ok (some user) →
        Valid env email name image ∧ Signs env st.now user.id) ∧
      (Insertable env st.users email name image → Signs env st.now st.users.nextId) := by
  constructor
  · intro h
    refine ⟨fun user hfound => (returning_iff he hn hi hfound).mp (h.returning user hfound), ?_⟩
    intro hins
    refine (new_iff he hn hi ?_).mp (h.new ?_) hins
    · simp [hins.1]
    · simp [hins.1]
  · rintro ⟨hreturning, hnew⟩
    exact ⟨fun user hfound => (returning_iff he hn hi hfound).mpr (hreturning user hfound),
      fun hnone => (new_iff he hn hi hnone).mpr hnew⟩

end Specs

/-! ### A returning user, with a name of three letters and of one -/

theorem same_operation_iff_kim :
    SameOperation plainEnv loggedOut (.text "kim@mail.com") (.text "Kim") (.text "kim.png") := by
  refine (same_operation_iff JsonField.noConfusion JsonField.noConfusion
    JsonField.noConfusion).mpr ⟨?_, ?_⟩
  · rintro user ⟨⟩
    exact ⟨⟨_, rfl⟩, by decide, by decide⟩
  · rintro ⟨⟨⟩, _⟩

theorem short_name_locked_out :
    ¬ SameOperation plainEnv loggedOut (.text "kim@mail.com") (.text "K") (.text "kim.png") := by
  intro h
  obtain ⟨⟨userIn, hvalid⟩, _⟩ := (returning_iff JsonField.noConfusion JsonField.noConfusion
    JsonField.noConfusion rfl).mp (h.returning kim rfl)
  cases hvalid

end Nalang.Accounts
