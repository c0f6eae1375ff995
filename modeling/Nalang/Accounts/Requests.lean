import Nalang.Accounts.Auth
import Nalang.Library.Transition

/-!
# Sequences of requests to the authentication routes

Every request is answered in one piece. `Effect` says what a request can do, and
all later proofs are case analyses over it.
-/

namespace Nalang.Accounts
open Transition

inductive Request
  | register (salt : String) (userIn : RegisterRequest)
  | login (username password : String)
  | google (salt : String) (x : Exchange GoogleProfile)
  | line (salt : String) (x : Exchange LineProfile)
  | kakao (salt : String) (x : Exchange KakaoProfile)
  | naver (salt : String) (x : Exchange NaverProfile)
  | refresh (refreshToken : String)
  | logout (refreshToken : String)
  | elapse (seconds : ℕ)

/-- Of a `granted` answer the client gets the tokens, and after a registration the user. -/
inductive Response
  | granted (user : User) (tokens : Tokens)
  | refreshed (tokens : Tokens)
  | done

abbrev Answer := Except HttpError Response

def granted (r : Except HttpError (User × Tokens) × State) : Answer × State :=
  (r.1.map fun g => .granted g.1 g.2, r.2)

def handle (env : Env) (st : State) : Request → Answer × State
  | .register salt userIn => granted (registerUser env salt userIn st)
  | .login username password => granted (loginUser env username password st)
  | .google salt x => granted (handleGoogleCallback env salt x st)
  | .line salt x => granted (handleLineCallback env salt x st)
  | .kakao salt x => granted (handleKakaoCallback env salt x st)
  | .naver salt x => granted (handleNaverCallback env salt x st)
  | .refresh refreshToken => ((refreshAccessToken env refreshToken st).map .refreshed, st)
  | .logout refreshToken => (.ok .done, logoutUser refreshToken st)
  | .elapse seconds => (.ok .done, { st with now := st.now + seconds })

def routes (env : Env) : Lts State (Request × Answer) :=
  ⟨fun st l st' => handle env st l.1 = (l.2, st')⟩

/-- A request as it was answered, with the state it came in. -/
abbrev Entry := State × (Request × Answer)

def Request.account (env : Env) (t : Users) : Request → Option (Except HttpError Account)
  | .google _ x => some (googleAccount env x t)
  | .line _ x => some (lineAccount env x t)
  | .kakao _ x => some (kakaoAccount env x t)
  | .naver _ x => some (naverAccount env x t)
  | _ => none

inductive Obtains (t : Users) : Account → User → Users → Prop
  | found {user : User} : user ∈ t.rows → Obtains t (.inl user) user t
  | added {userIn : RegisterRequest} {user : User} {t' : Users} :
      t.getUserByEmail userIn.email.val = none → user.email = userIn.email → user.id = t.nextId →
      user.birthDate = none → t'.rows = t.rows ++ [user] → Obtains t (.inr userIn) user t'

inductive AsksFor (env : Env) (t : Users) : Request → Account → Prop
  | register {salt : String} {userIn : RegisterRequest} :
      AsksFor env t (.register salt userIn) (.inr userIn)
  | login {username password : String} {user : User} :
      t.getUserByEmail username = some user → AsksFor env t (.login username password) (.inl user)
  | callback {req : Request} {account : Account} :
      req.account env t = some (.ok account) → AsksFor env t req account

def Request.IsRegister : Request → Prop
  | .register _ _ => True
  | _ => False

inductive Effect (env : Env) (st : State) : Request → Answer → State → Prop
  | refused {req : Request} {e : HttpError} {t : Users} :
      (∀ token, req ≠ .logout token) → t.rows = st.users.rows →
      Effect env st req (.error e) { st with users := t }
  | tokenless {req : Request} {account : Account} {user : User} {t : Users} :
      AsksFor env st.users req account → Obtains st.users account user t →
      createTokens env st.now user = .error .serverError →
      Effect env st req (.error .serverError) { st with users := t }
  | registers {req : Request} {account : Account} {user : User} {t : Users} {tokens : Tokens} :
      req.IsRegister → AsksFor env st.users req account → Obtains st.users account user t →
      createTokens env st.now user = .ok tokens →
      Effect env st req (.ok (.granted user tokens)) { st with users := t }
  | signsIn {req : Request} {account : Account} {user : User} {t : Users} {tokens : Tokens} :
      ¬ req.IsRegister → AsksFor env st.users req account → Obtains st.users account user t →
      createTokens env st.now user = .ok tokens →
      Effect env st req (.ok (.granted user tokens)) { st with
        users := t
        redis := st.redis.set st.now tokens.refresh (toString user.id) refreshTtl }
  | refreshes {token : String} {tokens : Tokens} :
      refreshAccessToken env token st = .ok tokens →
      Effect env st (.refresh token) (.ok (.refreshed tokens)) st
  | logsOut {token : String} :
      Effect env st (.logout token) (.ok .done) { st with redis := st.redis.delete token }
  | elapses {seconds : ℕ} :
      Effect env st (.elapse seconds) (.ok .done) { st with now := st.now + seconds }

section Specs
variable {env : Env} {st st' : State} {t : Users} {req : Request} {account : Account}

def Created (t : Users) (userIn : RegisterRequest) (r : Except HttpError User × Users) : Prop :=
  (∃ user, r.1 = .ok user ∧ Obtains t (.inr userIn) user r.2) ∨
    r.1 = .error .serverError ∧ r.2.rows = t.rows

theorem add_created (t : Users) (userIn : RegisterRequest) (hashedPwd : Option String) :
    Created t userIn (t.add userIn hashedPwd) := by
  unfold Users.add
  split
  · split
    · rename_i t' h
      have hrows := Users.insert_eq_none (congrArg Prod.fst h)
      rw [h] at hrows
      exact .inr ⟨rfl, hrows⟩
    · rename_i newUser t' h
      obtain ⟨hnone, hrow, hrows⟩ := Users.insert_eq_some (congrArg Prod.fst h)
      rw [h] at hrows
      refine .inl ⟨newUser, rfl, .added hnone ?_ ?_ ?_ hrows⟩
      · rw [hrow]
      · rw [hrow]
      · rw [hrow]
  · exact .inr ⟨rfl, rfl⟩

theorem createUser_created (env : Env) (salt : String) (userIn : RegisterRequest) (t : Users) :
    Created t userIn (createUser env salt userIn t) := by
  unfold createUser
  split
  · exact add_created _ _ _
  · split_ifs
    · exact add_created _ _ _
    · split
      · exact .inr ⟨rfl, rfl⟩
      · exact add_created _ _ _

theorem createTokens_error {env : Env} {now : ℕ} {user : User} {e : HttpError}
    (h : createTokens env now user = .error e) : e = .serverError := by
  unfold createTokens at h
  split at h
  · cases h
    rfl
  · split at h
    · cases h
      rfl
    · cases h

theorem issueTokens_effect {user : User} (hreq : ¬ req.IsRegister)
    (hask : AsksFor env st.users req account) (hobt : Obtains st.users account user t) :
    Effect env st req (granted (issueTokens env user { st with users := t })).1
      (granted (issueTokens env user { st with users := t })).2 := by
  unfold issueTokens
  cases h : createTokens env st.now user with
  | error e =>
    cases createTokens_error h
    exact .tokenless hask hobt h
  | ok tokens => exact .signsIn hreq hask hobt h

theorem registerUser_effect (env : Env) (st : State) (salt : String) (userIn : RegisterRequest) :
    Effect env st (.register salt userIn) (granted (registerUser env salt userIn st)).1
      (granted (registerUser env salt userIn st)).2 := by
  unfold registerUser
  split
  · exact .refused (t := st.users) (fun _ => Request.noConfusion) rfl
  · have hc := createUser_created env salt userIn st.users
    split
    · rename_i e t' h
      rw [h] at hc
      obtain ⟨_, hok, _⟩ | ⟨_, hrows⟩ := hc
      · cases hok
      · exact .refused (fun _ => Request.noConfusion) hrows
    · rename_i user t' h
      rw [h] at hc
      obtain ⟨_, hok, hobt⟩ | ⟨herr, _⟩ := hc
      · cases hok
        cases ht : createTokens env st.now user with
        | error e =>
          cases createTokens_error ht
          exact .tokenless .register hobt ht
        | ok tokens => exact .registers trivial .register hobt ht
      · cases herr

theorem loginUser_effect (env : Env) (st : State) (username password : String) :
    Effect env st (.login username password) (granted (loginUser env username password st)).1
      (granted (loginUser env username password st)).2 := by
  have hrefused : ∀ e, Effect env st (.login username password) (granted (.error e, st)).1
      (granted (.error e, st)).2 :=
    fun e => .refused (t := st.users) (fun _ => Request.noConfusion) rfl
  unfold loginUser
  split_ifs
  case neg => exact hrefused _
  cases hu : st.users.getUserByEmail username with
  | none => exact hrefused _
  | some user =>
    cases hh : user.hashedPassword with
    | none => simpa only [hh] using hrefused _
    | some hashed =>
      cases hv : env.crypt.verify password hashed with
      | none => simpa only [hh, hv] using hrefused _
      | some right =>
        cases right with
        | false => simpa only [hh, hv] using hrefused _
        | true =>
          simpa only [hh, hv] using issueTokens_effect (t := st.users) id (.login hu)
            (.found (Users.getUserByEmail_eq_some hu).1)

/-! ### The accounts of the callbacks -/

theorem ok_of_bind {ε α β : Type} {x : Except ε α} {f : α → Except ε β} {b : β}
    (h : x >>= f = .ok b) : ∃ a, x = .ok a ∧ f a = .ok b := by
  cases x with
  | error e => cases h
  | ok a => exact ⟨a, rfl, h⟩

theorem getUserByField_text {s : String} {found : Option User}
    (h : t.getUserByField (.text s) = .ok found) :
    fitsText s = true ∧ t.getUserByEmail s = found := by
  by_cases hfits : fitsText s = true
  · exact ⟨hfits, Except.ok.inj ((if_pos hfits).symm.trans h)⟩
  · cases (if_neg hfits).symm.trans h

theorem getUserByField_eq_some {field : JsonField} {user : User}
    (h : t.getUserByField field = .ok (some user)) :
    ∃ email, field = .text email ∧ t.getUserByEmail email = some user := by
  cases field with
  | text email => exact ⟨email, rfl, (getUserByField_text h).2⟩
  | absent => cases h
  | null => cases h
  | other str => cases h

theorem existingOr_ok {provider : String} {email name image : JsonField}
    (h : existingOr env provider email name image t = .ok account) :
    (∃ user, account = .inl user ∧ t.getUserByField email = .ok (some user)) ∨
      ∃ userData, account = .inr userData ∧ t.getUserByField email = .ok none ∧
        RegisterRequest.validate env provider email name image = .ok userData := by
  obtain ⟨found, hfound, h⟩ := ok_of_bind h
  cases found with
  | some user =>
    cases h
    exact .inl ⟨user, rfl, hfound⟩
  | none =>
    obtain ⟨userData, hdata, h⟩ := ok_of_bind h
    cases h
    exact .inr ⟨userData, rfl, hfound, hdata⟩

theorem validate_ok {provider : String} {email name image : JsonField} {userData : RegisterRequest}
    (h : RegisterRequest.validate env provider email name image = .ok userData) :
    ∃ s, email = .text s ∧ env.emailStr s = some userData.email ∧ userData.password = none := by
  unfold RegisterRequest.validate at h
  split at h
  · rename_i s name
    split at h
    · cases h
    · rename_i e he
      split_ifs at h
      split at h
      · cases h
        exact ⟨s, rfl, he, rfl⟩
      · cases h
        exact ⟨s, rfl, he, rfl⟩
      · cases h
  · cases h

theorem profile_of_fetched {π : Type} {x : Exchange π} {profile : π}
    (h : x.fetched = .ok profile) : x.profile = some profile := by
  unfold Exchange.fetched at h
  split at h
  · rename_i hp
    cases h
    exact hp
  · cases h

theorem profile_of_checked {π : Type} {x : Exchange π} {profile : π}
    (h : x.checked = .ok profile) : x.profile = some profile := by
  unfold Exchange.checked at h
  split_ifs at h
  exact profile_of_fetched h

theorem eq_of_item {v w : JsonField} (h : v.item = .ok w) : w = v := by
  cases v <;> cases h <;> rfl

theorem ok_bind {ε α β : Type} (a : α) (f : α → Except ε β) : Except.ok a >>= f = f a := rfl

theorem getUserByField_of_fits {s : String} (h : fitsText s = true) :
    t.getUserByField (.text s) = .ok (t.getUserByEmail s) := if_pos h

theorem getUserByField_of_found {s : String} {user : User} (h : t.getUserByEmail s = some user) :
    t.getUserByField (.text s) = .ok (some user) := by
  rw [getUserByField_of_fits (Users.fits_of_getUserByEmail h), h]

theorem existingOr_text {s : String} (h : fitsText s = true) (provider : String)
    (name image : JsonField) :
    existingOr env provider (.text s) name image t =
      match t.getUserByEmail s with
      | some user => .ok (.inl user)
      | none => (RegisterRequest.validate env provider (.text s) name image).map .inr := by
  unfold existingOr
  rw [getUserByField_of_fits h, ok_bind]
  cases t.getUserByEmail s with
  | some user => rfl
  | none => cases RegisterRequest.validate env provider (.text s) name image <;> rfl

theorem googleAccount_eq (env : Env) (x : Exchange GoogleProfile) :
    (∀ t, ∃ e, googleAccount env x t = .error e) ∨ ∃ profile name image,
      x.profile = some profile ∧
      ∀ t, googleAccount env x t = existingOr env "google" profile.email name image t := by
  unfold googleAccount
  cases hx : x.checked with
  | error e => exact .inl fun _ => ⟨e, rfl⟩
  | ok profile =>
    simp only [ok_bind]
    cases hemail : profile.email.item with
    | error e => exact .inl fun _ => ⟨e, rfl⟩
    | ok email =>
      simp only [ok_bind]
      cases profile.name.item with
      | error e => exact .inl fun _ => ⟨e, rfl⟩
      | ok name =>
        simp only [ok_bind]
        cases profile.picture.item with
        | error e => exact .inl fun _ => ⟨e, rfl⟩
        | ok image =>
          simp only [ok_bind]
          cases hdata : RegisterRequest.validate env "google" email name image with
          | error e =>
            refine .inl fun t => ?_
            cases t.getUserByField email with
            | error e' => exact ⟨e', rfl⟩
            | ok found => exact ⟨e, rfl⟩
          | ok userData =>
            refine .inr ⟨profile, name, image, profile_of_checked hx, fun t => ?_⟩
            rw [← eq_of_item hemail]
            unfold existingOr
            rw [hdata]
            cases t.getUserByField email with
            | error e => rfl
            | ok found => cases found <;> rfl

theorem lineAccount_eq (env : Env) (x : Exchange LineProfile) :
    (∀ t, ∃ e, lineAccount env x t = .error e) ∨ ∃ profile name image, x.profile = some profile ∧
      ∀ t, lineAccount env x t =
        existingOr env "line" (.text (lineEmail profile.userId)) name image t := by
  unfold lineAccount
  cases hx : x.fetched with
  | error e => exact .inl fun _ => ⟨e, rfl⟩
  | ok profile =>
    simp only [ok_bind]
    cases huser : profile.userId.item with
    | error e => exact .inl fun _ => ⟨e, rfl⟩
    | ok userId =>
      simp only [ok_bind]
      cases profile.displayName.item with
      | error e => exact .inl fun _ => ⟨e, rfl⟩
      | ok name =>
        simp only [ok_bind]
        cases profile.pictureUrl.item with
        | error e => exact .inl fun _ => ⟨e, rfl⟩
        | ok image =>
          refine .inr ⟨profile, name, image, profile_of_fetched hx, fun t => ?_⟩
          rw [← eq_of_item huser]
          rfl

theorem kakaoAccount_eq (env : Env) (x : Exchange KakaoProfile) :
    (∀ t, ∃ e, kakaoAccount env x t = .error e) ∨ ∃ profile name image, x.profile = some profile ∧
      ∀ t, kakaoAccount env x t = existingOr env "kakao"
        (profile.account.email.getD (.text (kakaoEmail profile.id))) name image t := by
  unfold kakaoAccount
  cases hx : x.fetched with
  | error e => exact .inl fun _ => ⟨e, rfl⟩
  | ok profile =>
    simp only [ok_bind]
    cases hid : profile.id.item with
    | error e => exact .inl fun _ => ⟨e, rfl⟩
    | ok id =>
      refine .inr ⟨profile, profile.account.nickname.getD (.text "Unknown"),
        profile.account.profileImageUrl.getD .null, profile_of_fetched hx, fun t => ?_⟩
      rw [← eq_of_item hid]
      rfl

theorem naverAccount_eq (env : Env) (x : Exchange NaverProfile) :
    (∀ t, ∃ e, naverAccount env x t = .error e) ∨ ∃ profile name image, x.profile = some profile ∧
      ∀ t, naverAccount env x t = existingOr env "naver" profile.email name image t := by
  unfold naverAccount
  cases hx : x.fetched with
  | error e => exact .inl fun _ => ⟨e, rfl⟩
  | ok profile =>
    simp only [ok_bind]
    cases hemail : profile.email.item with
    | error e => exact .inl fun _ => ⟨e, rfl⟩
    | ok email =>
      simp only [ok_bind]
      cases profile.name.item with
      | error e => exact .inl fun _ => ⟨e, rfl⟩
      | ok name =>
        simp only [ok_bind]
        cases profile.profileImage.item with
        | error e => exact .inl fun _ => ⟨e, rfl⟩
        | ok image =>
          refine .inr ⟨profile, name, image, profile_of_fetched hx, fun t => ?_⟩
          rw [← eq_of_item hemail]
          rfl

inductive Request.LooksUp : Request → String → JsonField → Prop
  | google {salt : String} {x : Exchange GoogleProfile} {profile : GoogleProfile} :
      x.profile = some profile → LooksUp (.google salt x) "google" profile.email
  | line {salt : String} {x : Exchange LineProfile} {profile : LineProfile} :
      x.profile = some profile →
      LooksUp (.line salt x) "line" (.text (lineEmail profile.userId))
  | kakao {salt : String} {x : Exchange KakaoProfile} {profile : KakaoProfile} :
      x.profile = some profile →
      LooksUp (.kakao salt x) "kakao" (profile.account.email.getD (.text (kakaoEmail profile.id)))
  | naver {salt : String} {x : Exchange NaverProfile} {profile : NaverProfile} :
      x.profile = some profile → LooksUp (.naver salt x) "naver" profile.email

theorem account_eq (env : Env) (req : Request) :
    (∀ t, req.account env t = none) ∨ (∀ t, ∃ e, req.account env t = some (.error e)) ∨
      ∃ provider email name image, req.LooksUp provider email ∧
        ∀ t, req.account env t = some (existingOr env provider email name image t) := by
  cases req with
  | google salt x =>
    refine .inr ((googleAccount_eq env x).imp ?_ ?_)
    · exact fun h t => (h t).imp fun _ he => congrArg some he
    · rintro ⟨profile, name, image, hprofile, h⟩
      exact ⟨_, _, name, image, .google hprofile, fun t => congrArg some (h t)⟩
  | line salt x =>
    refine .inr ((lineAccount_eq env x).imp ?_ ?_)
    · exact fun h t => (h t).imp fun _ he => congrArg some he
    · rintro ⟨profile, name, image, hprofile, h⟩
      exact ⟨_, _, name, image, .line hprofile, fun t => congrArg some (h t)⟩
  | kakao salt x =>
    refine .inr ((kakaoAccount_eq env x).imp ?_ ?_)
    · exact fun h t => (h t).imp fun _ he => congrArg some he
    · rintro ⟨profile, name, image, hprofile, h⟩
      exact ⟨_, _, name, image, .kakao hprofile, fun t => congrArg some (h t)⟩
  | naver salt x =>
    refine .inr ((naverAccount_eq env x).imp ?_ ?_)
    · exact fun h t => (h t).imp fun _ he => congrArg some he
    · rintro ⟨profile, name, image, hprofile, h⟩
      exact ⟨_, _, name, image, .naver hprofile, fun t => congrArg some (h t)⟩
  | _ => exact .inl fun _ => rfl

theorem account_ok (h : req.account env t = some (.ok account)) :
    ∃ provider email name image, req.LooksUp provider email ∧
      (∀ t, req.account env t = some (existingOr env provider email name image t)) ∧
      existingOr env provider email name image t = .ok account := by
  obtain hnone | herr | ⟨provider, email, name, image, hlooks, heq⟩ := account_eq env req
  · rw [hnone t] at h
    cases h
  · obtain ⟨e, he⟩ := herr t
    rw [he] at h
    cases h
  · refine ⟨provider, email, name, image, hlooks, heq, ?_⟩
    rw [heq t] at h
    exact Option.some.inj h

/-! ### What a request does -/

theorem signIn_effect {salt : String} {asked : Except HttpError Account}
    (hreq : ¬ req.IsRegister) (hask : req.account env st.users = some asked) :
    Effect env st req (granted (signIn env salt asked st)).1
      (granted (signIn env salt asked st)).2 := by
  have hlogout : ∀ token, req ≠ .logout token := by
    intro token he
    subst he
    cases hask
  cases asked with
  | error e => exact .refused (t := st.users) hlogout rfl
  | ok account =>
    cases account with
    | inl user =>
      obtain ⟨_, _, _, _, _, _, h⟩ := account_ok hask
      obtain ⟨_, heq, hfound⟩ | ⟨_, heq, _⟩ := existingOr_ok h
      · cases heq
        obtain ⟨_, _, hu⟩ := getUserByField_eq_some hfound
        exact issueTokens_effect (t := st.users) hreq (.callback hask)
          (.found (Users.getUserByEmail_eq_some hu).1)
      · cases heq
    | inr userData =>
      have hc := createUser_created env salt userData st.users
      unfold signIn
      cases hcreate : createUser env salt userData st.users with
      | mk r t =>
        rw [hcreate] at hc
        obtain ⟨user, hok, hobt⟩ | ⟨herr, hrows⟩ := hc
        · cases hok
          simpa only [hcreate] using issueTokens_effect hreq (.callback hask) hobt
        · cases herr
          have hrefused : Effect env st req (granted (.error .serverError, { st with users := t })).1
              (granted (.error .serverError, { st with users := t })).2 := .refused hlogout hrows
          simpa only [hcreate] using hrefused

/-- Every later proof about a request is a case analysis over its effect. -/
theorem effect_of_handle (env : Env) (st : State) (req : Request) :
    Effect env st req (handle env st req).1 (handle env st req).2 := by
  cases req with
  | register salt userIn => exact registerUser_effect env st salt userIn
  | login username password => exact loginUser_effect env st username password
  | google salt x => exact signIn_effect id rfl
  | line salt x => exact signIn_effect id rfl
  | kakao salt x => exact signIn_effect id rfl
  | naver salt x => exact signIn_effect id rfl
  | refresh refreshToken =>
    change Effect env st _ ((refreshAccessToken env refreshToken st).map .refreshed) st
    cases h : refreshAccessToken env refreshToken st with
    | error e => exact .refused (t := st.users) (fun _ => Request.noConfusion) rfl
    | ok tokens => exact .refreshes h
  | logout refreshToken => exact .logsOut
  | elapse seconds => exact .elapses

theorem effect_of_step {l : Request × Answer} (h : (routes env).step st l st') :
    Effect env st l.1 l.2 st' := by
  have he := effect_of_handle env st l.1
  rwa [show handle env st l.1 = (l.2, st') from h] at he

end Specs

end Nalang.Accounts
