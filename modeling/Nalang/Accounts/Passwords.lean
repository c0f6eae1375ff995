import Nalang.Accounts.Identities
import Nalang.Accounts.RefreshTokens

/-!
# Who can log in with a password

The hash in a row is that of the registration which has created the row. A callback
creates rows without a password, and nothing writes a hash later.
-/

namespace Nalang.Accounts
open Transition

/-- What the handlers rely on: a hash accepts the passwords that read like the one it was made
of. -/
def Crypt.Verifies {α : Type*} (crypt : Crypt) (reads : String → α) : Prop :=
  ∀ salt password hashed, crypt.hash salt password = some hashed →
    ∀ plain, crypt.verify plain hashed = some true ↔ reads plain = reads password

inductive Stores (env : Env) : Request → Option String → Prop
  | hash {salt given hashed : String} {userIn : RegisterRequest} :
      userIn.password = some given → env.crypt.hash salt given = some hashed →
      Stores env (.register salt userIn) (some hashed)
  | passwordless {salt : String} {userIn : RegisterRequest} :
      userIn.password = none → Stores env (.register salt userIn) none
  | callback {req : Request} : ¬ req.IsRegister → Stores env req none

section Table
variable {env : Env} {st : State} {t : Users} {req : Request}

inductive Adds (env : Env) (t : Users) (req : Request) (t' : Users) : Prop
  | same : t'.rows = t.rows → Adds env t req t'
  | added (user : User) : t'.rows = t.rows ++ [user] → user ∉ t.rows →
      Stores env req user.hashedPassword → Adds env t req t'

theorem adds_add {userIn : RegisterRequest} {hashedPwd : Option String}
    (h : Stores env req hashedPwd) : Adds env t req (t.add userIn hashedPwd).2 := by
  unfold Users.add
  split
  · split
    · next t' hinsert =>
      have hrows := Users.insert_eq_none (congrArg Prod.fst hinsert)
      rw [hinsert] at hrows
      exact .same hrows
    · next newUser t' hinsert =>
      obtain ⟨hnone, hrow, hrows⟩ := Users.insert_eq_some (congrArg Prod.fst hinsert)
      rw [hinsert] at hrows
      refine .added newUser hrows (fun hmem => ?_) (hrow ▸ h)
      exact Users.getUserByEmail_eq_none.mp hnone newUser hmem (by rw [hrow])
  · exact .same rfl

theorem adds_register {salt : String} {userIn : RegisterRequest} :
    Adds env t (.register salt userIn) (createUser env salt userIn t).2 := by
  unfold createUser
  cases hpassword : userIn.password with
  | none => exact adds_add (.passwordless hpassword)
  | some password =>
    have hne : password ≠ "" := by
      rintro rfl
      exact absurd (userIn.password_length "" hpassword) (by decide)
    simp only [if_neg hne]
    cases hhash : env.crypt.hash salt password with
    | none => exact .same rfl
    | some hashedPwd => exact adds_add (.hash hpassword hhash)

theorem adds_signIn (hreq : ¬ req.IsRegister) {salt : String} {asked : Except HttpError Account}
    (hask : req.account env st.users = some asked) :
    Adds env st.users req (signIn env salt asked st).2.users := by
  cases asked with
  | error e => exact .same rfl
  | ok account =>
    cases account with
    | inl user => exact .same (congrArg Users.rows (issueTokens_users env user st))
    | inr userData =>
      obtain ⟨_, _, _, _, -, -, hok⟩ := account_ok hask
      obtain ⟨_, heq, -⟩ | ⟨_, heq, -, hdata⟩ := existingOr_ok hok
      · cases heq
      · cases heq
        obtain ⟨_, -, -, hpassword⟩ := validate_ok hdata
        have hadd : Adds env st.users req (createUser env salt userData st.users).2 := by
          rw [createUser_passwordless salt hpassword]
          exact adds_add (.callback hreq)
        unfold signIn
        cases hcreate : createUser env salt userData st.users with
        | mk r t =>
          rw [hcreate] at hadd
          cases r with
          | error e => simpa only [hcreate] using hadd
          | ok user =>
            simp only [hcreate, issueTokens_users]
            exact hadd

theorem adds_of_handle (env : Env) (st : State) (req : Request) :
    Adds env st.users req (handle env st req).2.users := by
  cases req with
  | register salt userIn =>
    have hadd : Adds env st.users (.register salt userIn) (createUser env salt userIn st.users).2 :=
      adds_register
    change Adds _ _ _ (registerUser env salt userIn st).2.users
    unfold registerUser
    split
    · exact .same rfl
    · split
      · next e t hcreate =>
        rw [hcreate] at hadd
        exact hadd
      · next user t hcreate =>
        rw [hcreate] at hadd
        exact hadd
  | google salt x => exact adds_signIn id rfl
  | line salt x => exact adds_signIn id rfl
  | kakao salt x => exact adds_signIn id rfl
  | naver salt x => exact adds_signIn id rfl
  | login username password =>
    exact .same (congrArg Users.rows (loginUser_users env username password st))
  | refresh refreshToken => exact .same rfl
  | logout refreshToken => exact .same rfl
  | elapse seconds => exact .same rfl

end Table

/-! ### Over a run -/

section Run
variable {env : Env} {h : List Entry} {st st' : State} {user : User}

structure Hashed (env : Env) (h : List Entry) (st : State) : Prop where
  created : ∀ user ∈ st.users.rows, ∃ e ∈ h, Creates env e user
  kept : ∀ e ∈ h, ∀ user, Creates env e user →
    user ∈ st.users.rows ∧ Stores env e.2.1 user.hashedPassword

theorem hashed_step (hi : Hashed env h st) {l : Request × Answer}
    (hs : (routes env).step st l st') : Hashed env (h ++ [(st, l)]) st' := by
  have hst : (handle env st l.1).2 = st' := congrArg Prod.snd hs
  have hadds := adds_of_handle env st l.1
  rw [hst] at hadds
  have hgrows : ∀ u ∈ st.users.rows, u ∈ st'.users.rows := by
    intro u hu
    cases hadds with
    | same hrows => exact hrows ▸ hu
    | added user hrows => exact hrows ▸ List.mem_append_left _ hu
  have hnew : ∀ u, Creates env (st, l) u → Stores env l.1 u.hashedPassword := by
    intro u hu
    obtain ⟨hnot, hin⟩ := (creates_iff hst).mp hu
    cases hadds with
    | same hrows => exact absurd (hrows ▸ hin) hnot
    | added user hrows _ hhashed =>
      rw [hrows, List.mem_append, List.mem_singleton] at hin
      rw [hin.resolve_left hnot]
      exact hhashed
  constructor
  case created =>
    intro u hu
    by_cases hold : u ∈ st.users.rows
    · obtain ⟨e, he, hc⟩ := hi.created u hold
      exact ⟨e, List.mem_append_left _ he, hc⟩
    · exact ⟨_, List.mem_append_right _ List.mem_cons_self, (creates_iff hst).mpr ⟨hold, hu⟩⟩
  case kept =>
    intro e he u hc
    rcases List.mem_append.mp he with he | he
    · obtain ⟨hu, hhashed⟩ := hi.kept e he u hc
      exact ⟨hgrows u hu, hhashed⟩
    · rw [List.mem_singleton.mp he] at hc ⊢
      exact ⟨((creates_iff hst).mp hc).2, hnew u hc⟩

theorem hashed_run {now : ℕ} {redis : ExpiringStore String String} {ls : List (Request × Answer)}
    {s : List Entry × State} (hr : (routes env).recorded.Run ([], ⟨.empty, redis, now⟩) ls s) :
    Hashed env s.1 s.2 := by
  refine hr.invariant (fun s => Hashed env s.1 s.2) ⟨?_, ?_⟩ ?_
  · intro user hu
    cases hu
  · intro e he
    cases he
  · rintro s l s' ih ⟨hlog, hnext⟩
    rw [hlog]
    exact hashed_step ih hnext

end Run

section Login
variable {env : Env} {st : State} {user : User} {username password : String}

theorem exists_createTokens (hj : env.jose.Lawful) (halg : env.settings.algorithm = "HS256")
    (now : ℕ) (user : User) : ∃ tokens, createTokens env now user = .ok tokens := by
  unfold createTokens createAccessToken createRefreshToken
  rw [halg]
  cases haccess : env.jose.encode "HS256" env.settings.jwtSecretKey _ with
  | none => exact absurd haccess (hj.encodes _ _)
  | some access =>
    cases hrefresh : env.jose.encode "HS256" env.settings.jwtRefreshSecretKey _ with
    | none => exact absurd hrefresh (hj.encodes _ _)
    | some refresh => exact ⟨⟨access, refresh⟩, rfl⟩

theorem loginUser_ok_iff (hj : env.jose.Lawful) (halg : env.settings.algorithm = "HS256") :
    (∃ tokens st', loginUser env username password st = (.ok (user, tokens), st')) ↔
      st.users.getUserByEmail username = some user ∧
        ∃ hashed, user.hashedPassword = some hashed ∧
          env.crypt.verify password hashed = some true := by
  unfold loginUser
  by_cases hfits : fitsText username = true
  case neg =>
    rw [if_neg hfits]
    refine iff_of_false (fun h => ?_) fun h => hfits (Users.fits_of_getUserByEmail h.1)
    obtain ⟨tokens, st', h⟩ := h
    cases h
  rw [if_pos hfits]
  cases hfound : st.users.getUserByEmail username with
  | none => simp
  | some row =>
    cases hhashed : row.hashedPassword with
    | none =>
      simp only [hhashed, Prod.mk.injEq, reduceCtorEq, false_and, exists_false, false_iff]
      rintro ⟨hrow, hashed, h, -⟩
      rw [← Option.some.inj hrow, hhashed] at h
      cases h
    | some hashed =>
      simp only [hhashed]
      constructor
      · rintro ⟨tokens, st', h⟩
        split at h
        · cases h
        · cases h
        · next hverify =>
          have huser : row = user := by
            unfold issueTokens at h
            split at h
            · cases h
            · cases h
              rfl
          exact ⟨congrArg some huser, hashed, huser ▸ hhashed, hverify⟩
      · rintro ⟨hrow, hashed', h, hverify⟩
        cases hrow
        rw [hhashed] at h
        cases h
        obtain ⟨tokens, htokens⟩ := exists_createTokens hj halg st.now user
        simp only [hverify, issueTokens]
        rw [htokens]
        exact ⟨tokens, _, rfl⟩

theorem getUserByEmail_iff {t : Users} : t.getUserByEmail username = some user ↔
    user ∈ t.rows ∧ user.email.val = username := by
  refine ⟨Users.getUserByEmail_eq_some, ?_⟩
  rintro ⟨hmem, rfl⟩
  cases hfound : t.getUserByEmail user.email.val with
  | none => exact absurd rfl (Users.getUserByEmail_eq_none.mp hfound user hmem)
  | some row =>
    obtain ⟨hrow, hemail⟩ := Users.getUserByEmail_eq_some hfound
    rw [List.inj_on_of_nodup_map t.emails hrow hmem hemail]

/-- After any requests, a password opens an account exactly if it reads like the one of the
registration that has created the account. -/
theorem password_login_iff {α : Type*} {reads : String → α} (hj : env.jose.Lawful)
    (halg : env.settings.algorithm = "HS256") (hcrypt : env.crypt.Verifies reads) {now : ℕ}
    {redis : ExpiringStore String String} {ls : List (Request × Answer)} {s : List Entry × State}
    (hr : (routes env).recorded.Run ([], ⟨.empty, redis, now⟩) ls s)
    (username password : String) (user : User) :
    (∃ tokens st', loginUser env username password s.2 = (.ok (user, tokens), st')) ↔
      user.email.val = username ∧ ∃ e ∈ s.1, Creates env e user ∧ ∃ salt userIn given,
        e.2.1 = .register salt userIn ∧ userIn.password = some given ∧
          reads password = reads given := by
  have hrun := hashed_run hr
  rw [loginUser_ok_iff hj halg, getUserByEmail_iff]
  constructor
  · rintro ⟨⟨hmem, hemail⟩, hashed, hhashed, hverify⟩
    obtain ⟨e, he, hc⟩ := hrun.created user hmem
    have hstores := (hrun.kept e he user hc).2
    rw [hhashed] at hstores
    refine ⟨hemail, e, he, hc, ?_⟩
    generalize e.2.1 = req at hstores
    cases hstores with
    | hash hgiven hhash => exact ⟨_, _, _, rfl, hgiven, (hcrypt _ _ _ hhash password).mp hverify⟩
  · rintro ⟨hemail, e, he, hc, salt, userIn, given, hreq, hgiven, hreads⟩
    obtain ⟨hmem, hstores⟩ := hrun.kept e he user hc
    refine ⟨⟨hmem, hemail⟩, ?_⟩
    rw [hreq] at hstores
    generalize user.hashedPassword = stored at hstores
    cases hstores with
    | hash hpassword hhash =>
      cases hgiven.symm.trans hpassword
      exact ⟨_, rfl, (hcrypt _ _ _ hhash password).mpr hreads⟩
    | passwordless hpassword =>
      cases hgiven.symm.trans hpassword
    | callback hnot => exact absurd trivial hnot

end Login

theorem plainEnv_verifies : plainEnv.crypt.Verifies (id : String → String) := by
  intro salt password hashed hhash plain
  cases hhash
  change some (decide (plain = password)) = some true ↔ plain = password
  simp

def kimRegisters : Request := .register "" kimsForm

theorem password_login_iff_applied : ∃ s user,
    (routes plainEnv).recorded.Run ([], start) [(first plainEnv kimRegisters).2] s ∧
      ∃ tokens st', loginUser plainEnv "kim@mail.com" "password" s.2 = (.ok (user, tokens), st') := by
  let st := (handle plainEnv start kimRegisters).2
  obtain ⟨user, hrows, hemail⟩ : ∃ user, st.users.rows = [user] ∧ user.email.val = "kim@mail.com" :=
    ⟨_, rfl, rfl⟩
  have hr : (routes plainEnv).recorded.Run ([], start) [(first plainEnv kimRegisters).2]
      ([first plainEnv kimRegisters], st) := Lts.Run.single ⟨rfl, rfl⟩
  have hcreates : Creates plainEnv (first plainEnv kimRegisters) user := by
    refine ⟨List.not_mem_nil, ?_⟩
    change user ∈ st.users.rows
    rw [hrows]
    exact List.mem_singleton_self user
  exact ⟨_, user, hr, (password_login_iff plainJose_lawful rfl plainEnv_verifies hr "kim@mail.com"
    "password" user).mpr ⟨hemail, _, List.mem_singleton_self _, hcreates, "", kimsForm, "password",
      rfl, rfl, rfl⟩⟩

end Nalang.Accounts
