import Nalang.Accounts.Requests

/-!
# Whose account a callback signs into

LINE gives no e-mail address, and Kakao not always. The callbacks make one up
from the id at the provider, and look the account up by it, whoever has created
the row with that address.
-/

namespace Nalang.Accounts
open Transition

/-- A person as the provider knows them. An id counts as the text it is formatted to. -/
inductive Identity
  | line (userId : String)
  | kakao (id : String)

def Identity.address : Identity → String
  | line userId => userId ++ "@line.com"
  | kakao id => id ++ "@kakao.com"

/-- The provider vouches for the identity: LINE, or Kakao for a profile without an e-mail. -/
inductive Request.Proves : Request → Identity → Prop
  | line {salt : String} {x : Exchange LineProfile} {profile : LineProfile} :
      x.profile = some profile → Proves (.line salt x) (.line profile.userId.format)
  | kakao {salt : String} {x : Exchange KakaoProfile} {profile : KakaoProfile} :
      x.profile = some profile → profile.account.email = .absent →
      Proves (.kakao salt x) (.kakao profile.id.format)

theorem Request.Proves.looksUp {req : Request} {who : Identity} {provider : String}
    {email : JsonField} (hp : req.Proves who) (hl : req.LooksUp provider email) :
    email = .text who.address := by
  cases hp with
  | line hprofile =>
    cases hl with
    | line hprofile' =>
      cases hprofile.symm.trans hprofile'
      rfl
  | kakao hprofile habsent =>
    cases hl with
    | kakao hprofile' =>
      cases hprofile.symm.trans hprofile'
      rw [habsent]
      rfl

/-- The address of the account that the request creates when there is none yet. -/
def Request.claims (env : Env) : Request → Option String
  | .register salt userIn =>
    match (createUser env salt userIn .empty).1 with
    | .ok user => some user.email.val
    | .error _ => none
  | req =>
    match req.account env .empty with
    | some (.ok (.inr userData)) => if userData.storable then some userData.email.val else none
    | _ => none

def Request.Validated (env : Env) (req : Request) : Prop :=
  ∀ salt userIn, req = .register salt userIn → env.emailStr userIn.email.val = some userIn.email

def validated (env : Env) : Lts (List Entry × State) (Request × Answer) :=
  (routes env).recorded.guard fun _ l => l.1.Validated env

def Creates (env : Env) (e : Entry) (user : User) : Prop :=
  user ∉ e.1.users.rows ∧ user ∈ (handle env e.1 e.2.1).2.users.rows

def firstClaim (env : Env) (h : List Entry) (address : String) : Option Entry :=
  h.find? fun e => e.2.1.claims env = some address

/-! ### What a request does to the table -/

section Table
variable {env : Env} {st : State} {t : Users} {req : Request}

inductive Fills (env : Env) (t : Users) (req : Request) (t' : Users) : Prop
  | had : t'.rows = t.rows → (∀ address, req.claims env = some address →
      ∃ user ∈ t.rows, user.email.val = address) → Fills env t req t'
  | adds (user : User) : t'.rows = t.rows ++ [user] → req.claims env = some user.email.val →
      t.getUserByEmail user.email.val = none → env.emailStr user.email.val = some user.email →
      Fills env t req t'

theorem fills_nothing (h : ∀ address, req.claims env ≠ some address) : Fills env t req t :=
  .had rfl fun address hc => absurd hc (h address)

theorem add_unstorable {userIn : RegisterRequest} (h : ¬ userIn.storable = true)
    (hashedPwd : Option String) : t.add userIn hashedPwd = (.error .serverError, t) := if_neg h

theorem add_empty {userIn : RegisterRequest} (h : userIn.storable = true)
    (hashedPwd : Option String) :
    ∃ user, (Users.empty.add userIn hashedPwd).1 = .ok user ∧ user.email = userIn.email := by
  unfold Users.add
  rw [if_pos h]
  exact ⟨_, rfl, rfl⟩

theorem fills_add {userIn : RegisterRequest} {hashedPwd : Option String}
    (hclaims : req.claims env = if userIn.storable then some userIn.email.val else none)
    (hnormal : env.emailStr userIn.email.val = some userIn.email) :
    Fills env t req (t.add userIn hashedPwd).2 := by
  by_cases hstorable : userIn.storable = true
  case neg =>
    rw [add_unstorable hstorable]
    rw [if_neg hstorable] at hclaims
    refine fills_nothing fun address h => ?_
    cases hclaims.symm.trans h
  rw [if_pos hstorable] at hclaims
  have hc := add_created t userIn hashedPwd
  obtain ⟨user, -, hobt⟩ | ⟨herr, hrows⟩ := hc
  · cases hobt with
    | added hnone hemail _ _ hrows =>
      refine .adds user hrows ?_ ?_ ?_
      · rw [hclaims, hemail]
      · rw [hemail]
        exact hnone
      · rw [hemail]
        exact hnormal
  · refine .had hrows fun address h => ?_
    cases hclaims.symm.trans h
    by_contra hno
    have hnone : t.getUserByEmail userIn.email.val = none :=
      Users.getUserByEmail_eq_none.mpr fun u hu he => hno ⟨u, hu, he⟩
    unfold Users.add Users.insert at herr
    simp only [hstorable, hnone, if_true, dite_true] at herr
    cases herr

theorem createUser_eq (env : Env) (salt : String) (userIn : RegisterRequest) :
    (∀ t, createUser env salt userIn t = (.error .serverError, t)) ∨
      ∃ hashedPwd, ∀ t, createUser env salt userIn t = t.add userIn hashedPwd := by
  unfold createUser
  cases userIn.password with
  | none => exact .inr ⟨none, fun _ => rfl⟩
  | some password =>
    by_cases hempty : password = ""
    · exact .inr ⟨none, fun _ => if_pos hempty⟩
    · simp only [hempty, if_false]
      cases env.crypt.hash salt password with
      | none => exact .inl fun _ => rfl
      | some hashedPwd => exact .inr ⟨some hashedPwd, fun _ => rfl⟩

theorem issueTokens_users (env : Env) (user : User) (st : State) :
    (issueTokens env user st).2.users = st.users := by
  unfold issueTokens
  split <;> rfl

theorem fills_register {salt : String} {userIn : RegisterRequest}
    (hv : (Request.register salt userIn).Validated env) :
    Fills env st.users (.register salt userIn)
      (handle env st (.register salt userIn)).2.users := by
  change Fills _ _ _ (registerUser env salt userIn st).2.users
  have hclaims : ∀ hashedPwd, (∀ t, createUser env salt userIn t = t.add userIn hashedPwd) →
      (Request.register salt userIn).claims env =
        if userIn.storable then some userIn.email.val else none := by
    intro hashedPwd heq
    unfold Request.claims
    by_cases hstorable : userIn.storable = true
    · obtain ⟨user, hok, hemail⟩ := add_empty hstorable hashedPwd
      rw [if_pos hstorable]
      simp only [heq, hok, hemail]
    · rw [if_neg hstorable]
      simp only [heq, add_unstorable hstorable]
  unfold registerUser
  cases hfound : st.users.getUserByEmail userIn.email.val with
  | some user =>
    refine .had rfl fun address h => ?_
    obtain hfail | ⟨hashedPwd, heq⟩ := createUser_eq env salt userIn
    · simp [Request.claims, hfail] at h
    · rw [hclaims hashedPwd heq] at h
      split_ifs at h
      cases h
      obtain ⟨hu, he⟩ := Users.getUserByEmail_eq_some hfound
      exact ⟨user, hu, he⟩
  | none =>
    obtain hfail | ⟨hashedPwd, heq⟩ := createUser_eq env salt userIn
    · simp only [hfail]
      refine .had rfl fun address h => ?_
      simp [Request.claims, hfail] at h
    · simp only [heq]
      have hadd : Fills env st.users (.register salt userIn) (st.users.add userIn hashedPwd).2 :=
        fills_add (hclaims hashedPwd heq) (hv _ _ rfl)
      cases hr : st.users.add userIn hashedPwd with
      | mk r t =>
        rw [hr] at hadd
        cases r with
        | error e => exact hadd
        | ok user => exact hadd

theorem claims_eq_some (hreq : ¬ req.IsRegister) {address : String} :
    req.claims env = some address ↔
      ∃ userData, req.account env .empty = some (.ok (.inr userData)) ∧
        userData.storable = true ∧ userData.email.val = address := by
  have hcallback : ∀ asked : Except HttpError Account,
      (match some asked with
        | some (.ok (.inr userData)) => if userData.storable then some userData.email.val else none
        | _ => none) = some address ↔
      ∃ userData, some asked = some (.ok (.inr userData)) ∧ userData.storable = true ∧
        userData.email.val = address := by
    intro asked
    rcases asked with e | user | userData <;> simp
  cases req with
  | register salt userIn => exact absurd trivial hreq
  | google salt x => exact hcallback _
  | line salt x => exact hcallback _
  | kakao salt x => exact hcallback _
  | naver salt x => exact hcallback _
  | _ => simp [Request.claims, Request.account]

theorem createUser_passwordless (salt : String) {userIn : RegisterRequest}
    (h : userIn.password = none) : createUser env salt userIn t = t.add userIn none := by
  unfold createUser
  rw [h]

theorem claims_of_lookup (hreq : ¬ req.IsRegister) {provider : String}
    {email name image : JsonField} (heq : ∀ t, req.account env t =
      some (existingOr env provider email name image t))
    {address : String} (hc : req.claims env = some address) :
    ∃ s userData, email = .text s ∧ fitsText s = true ∧ env.emailStr s = some userData.email ∧
      userData.email.val = address ∧
      RegisterRequest.validate env provider email name image = .ok userData := by
  obtain ⟨userData, hacc, -, haddress⟩ := (claims_eq_some hreq).mp hc
  rw [heq] at hacc
  obtain ⟨_, heq', _⟩ | ⟨_, heq', hnew, hdata⟩ := existingOr_ok (Option.some.inj hacc)
  · cases heq'
  · cases heq'
    obtain ⟨s, rfl, hstr, -⟩ := validate_ok hdata
    exact ⟨s, userData, rfl, (getUserByField_text hnew).1, hstr, haddress, hdata⟩

theorem claims_of_account (hreq : ¬ req.IsRegister) {userData : RegisterRequest}
    (h : req.account env .empty = some (.ok (.inr userData))) :
    req.claims env = if userData.storable then some userData.email.val else none := by
  cases req with
  | register salt userIn => exact absurd trivial hreq
  | _ => simp only [Request.claims, h]

theorem fills_callback (hnorm : env.Normalises)
    (hn : ∀ user ∈ st.users.rows, env.emailStr user.email.val = some user.email)
    (hreq : ¬ req.IsRegister) {salt : String} {asked : Except HttpError Account}
    (hask : req.account env st.users = some asked) :
    Fills env st.users req (signIn env salt asked st).2.users := by
  obtain hnone | herr | ⟨provider, email, name, image, -, heq⟩ := account_eq env req
  · rw [hnone] at hask
    cases hask
  · obtain ⟨e, he⟩ := herr st.users
    cases he.symm.trans hask
    refine fills_nothing fun address hc => ?_
    obtain ⟨userData, hacc, -⟩ := (claims_eq_some hreq).mp hc
    obtain ⟨e', he'⟩ := herr .empty
    rw [hacc] at he'
    cases he'
  · cases (heq st.users).symm.trans hask
    cases hex : existingOr env provider email name image st.users with
    | error e =>
      refine fills_nothing fun address hc => ?_
      obtain ⟨s, userData, htext, hfits, -, -, hdata⟩ := claims_of_lookup hreq heq hc
      rw [htext] at hex hdata
      rw [existingOr_text hfits, hdata] at hex
      split at hex <;> cases hex
    | ok account =>
      obtain ⟨user, haccount, hfound⟩ | ⟨userData, haccount, hmissing, hdata⟩ :=
        existingOr_ok hex
      · cases haccount
        change Fills _ _ _ (issueTokens env user st).2.users
        rw [issueTokens_users]
        refine .had rfl fun address hc => ?_
        obtain ⟨s, userData, htext, -, hstr, haddress, -⟩ := claims_of_lookup hreq heq hc
        obtain ⟨_, htext', hu⟩ := getUserByField_eq_some hfound
        cases htext.symm.trans htext'
        obtain ⟨hmem, hs⟩ := Users.getUserByEmail_eq_some hu
        have hsame := hn user hmem
        rw [hs, hstr] at hsame
        exact ⟨user, hmem, by rw [← haddress, Option.some.inj hsame]⟩
      · cases haccount
        obtain ⟨s, rfl, hstr, hpassword⟩ := validate_ok hdata
        have hclaims : req.claims env =
            if userData.storable then some userData.email.val else none := by
          refine claims_of_account hreq ?_
          rw [heq, existingOr_text (getUserByField_text hmissing).1, hdata]
          rfl
        have hadd : Fills env st.users req (st.users.add userData none).2 :=
          fills_add hclaims (hnorm _ _ hstr)
        unfold signIn
        simp only [createUser_passwordless salt hpassword]
        cases hr : st.users.add userData none with
        | mk r t =>
          rw [hr] at hadd
          cases r with
          | error e => exact hadd
          | ok user =>
            simp only [issueTokens_users]
            exact hadd

theorem loginUser_users (env : Env) (username password : String) (st : State) :
    (loginUser env username password st).2.users = st.users := by
  unfold loginUser
  dsimp only
  split_ifs
  case neg => rfl
  split
  · rfl
  · split
    · rfl
    · split
      · rfl
      · rfl
      · exact issueTokens_users _ _ _

theorem fills_of_handle (hnorm : env.Normalises)
    (hn : ∀ user ∈ st.users.rows, env.emailStr user.email.val = some user.email)
    (hv : req.Validated env) : Fills env st.users req (handle env st req).2.users := by
  cases req with
  | register salt userIn => exact fills_register hv
  | google salt x => exact fills_callback hnorm hn id rfl
  | line salt x => exact fills_callback hnorm hn id rfl
  | kakao salt x => exact fills_callback hnorm hn id rfl
  | naver salt x => exact fills_callback hnorm hn id rfl
  | login username password =>
    change Fills _ _ _ (loginUser env username password st).2.users
    rw [loginUser_users]
    exact fills_nothing fun _ h => by cases h
  | refresh refreshToken => exact fills_nothing fun _ h => by cases h
  | logout refreshToken => exact fills_nothing fun _ h => by cases h
  | elapse seconds => exact fills_nothing fun _ h => by cases h

end Table

/-! ### Who has created the accounts -/

section Run
variable {env : Env} {h : List Entry} {st st' : State} {e x : Entry}

theorem firstClaim_snoc (address : String) : firstClaim env (h ++ [x]) address =
    (firstClaim env h address).or (firstClaim env [x] address) := List.find?_append

theorem firstClaim_single {address : String} :
    firstClaim env [x] address = some e ↔ e = x ∧ x.2.1.claims env = some address := by
  unfold firstClaim
  by_cases hx : x.2.1.claims env = some address
  · simp [hx, eq_comm]
  · simp [hx]

structure Owned (env : Env) (h : List Entry) (st : State) : Prop where
  normal : ∀ user ∈ st.users.rows, env.emailStr user.email.val = some user.email
  claimed : ∀ address e, firstClaim env h address = some e →
    ∃ user ∈ st.users.rows, user.email.val = address
  rows : ∀ user ∈ st.users.rows, ∃ e ∈ h, Creates env e user
  created : ∀ e ∈ h, ∀ user, Creates env e user →
    user ∈ st.users.rows ∧ firstClaim env h user.email.val = some e

theorem creates_iff {l : Request × Answer} (hst : (handle env st l.1).2 = st') {user : User} :
    Creates env (st, l) user ↔ user ∉ st.users.rows ∧ user ∈ st'.users.rows := by
  unfold Creates
  rw [hst]

theorem owned_had {l : Request × Answer} (hi : Owned env h st)
    (hst : (handle env st l.1).2 = st') (hrows : st'.users.rows = st.users.rows)
    (hhad : ∀ address, l.1.claims env = some address →
      ∃ user ∈ st.users.rows, user.email.val = address) :
    Owned env (h ++ [(st, l)]) st' := by
  constructor
  case normal =>
    rw [hrows]
    exact hi.normal
  case claimed =>
    intro address e he
    rw [hrows]
    rw [firstClaim_snoc, Option.or_eq_some_iff] at he
    rcases he with he | ⟨-, he⟩
    · exact hi.claimed address e he
    · exact hhad address (firstClaim_single.mp he).2
  case rows =>
    intro user hu
    rw [hrows] at hu
    obtain ⟨e, he, hc⟩ := hi.rows user hu
    exact ⟨e, List.mem_append_left _ he, hc⟩
  case created =>
    intro e he user hc
    rcases List.mem_append.mp he with he | he
    · obtain ⟨hu, hfirst⟩ := hi.created e he user hc
      rw [hrows, firstClaim_snoc, hfirst]
      exact ⟨hu, rfl⟩
    · rw [List.mem_singleton.mp he] at hc
      obtain ⟨hnot, hin⟩ := (creates_iff hst).mp hc
      rw [hrows] at hin
      exact absurd hin hnot

theorem owned_adds {l : Request × Answer} {added : User} (hi : Owned env h st)
    (hst : (handle env st l.1).2 = st') (hrows : st'.users.rows = st.users.rows ++ [added])
    (hclaims : l.1.claims env = some added.email.val)
    (hnone : st.users.getUserByEmail added.email.val = none)
    (hnormal : env.emailStr added.email.val = some added.email) :
    Owned env (h ++ [(st, l)]) st' := by
  have hmem : ∀ user, user ∈ st'.users.rows ↔ user ∈ st.users.rows ∨ user = added := by
    intro user
    rw [hrows, List.mem_append, List.mem_singleton]
  have hnew : added ∉ st.users.rows :=
    fun hin => Users.getUserByEmail_eq_none.mp hnone added hin rfl
  -- nobody has claimed the address before
  have hfree : firstClaim env h added.email.val = none := by
    cases hfirst : firstClaim env h added.email.val with
    | none => rfl
    | some e =>
      obtain ⟨user, hu, he⟩ := hi.claimed _ e hfirst
      exact absurd he (Users.getUserByEmail_eq_none.mp hnone user hu)
  have hfirst : firstClaim env (h ++ [(st, l)]) added.email.val = some (st, l) := by
    rw [firstClaim_snoc, hfree, Option.none_or]
    exact firstClaim_single.mpr ⟨rfl, hclaims⟩
  constructor
  case normal =>
    intro user hu
    rcases (hmem user).mp hu with hu | rfl
    · exact hi.normal user hu
    · exact hnormal
  case claimed =>
    intro address e he
    rw [firstClaim_snoc, Option.or_eq_some_iff] at he
    rcases he with he | ⟨-, he⟩
    · obtain ⟨user, hu, heq⟩ := hi.claimed address e he
      exact ⟨user, (hmem user).mpr (.inl hu), heq⟩
    · cases hclaims.symm.trans (firstClaim_single.mp he).2
      exact ⟨added, (hmem added).mpr (.inr rfl), rfl⟩
  case rows =>
    intro user hu
    rcases (hmem user).mp hu with hu | rfl
    · obtain ⟨e, he, hc⟩ := hi.rows user hu
      exact ⟨e, List.mem_append_left _ he, hc⟩
    · exact ⟨_, List.mem_append_right _ List.mem_cons_self,
        (creates_iff hst).mpr ⟨hnew, (hmem _).mpr (.inr rfl)⟩⟩
  case created =>
    intro e he user hc
    rcases List.mem_append.mp he with he | he
    · obtain ⟨hu, hfirst⟩ := hi.created e he user hc
      rw [firstClaim_snoc, hfirst]
      exact ⟨(hmem user).mpr (.inl hu), rfl⟩
    · rw [List.mem_singleton.mp he] at hc ⊢
      obtain ⟨hnot, hin⟩ := (creates_iff hst).mp hc
      obtain rfl := ((hmem user).mp hin).resolve_left hnot
      exact ⟨hin, hfirst⟩

theorem owned_step (hnorm : env.Normalises) (hi : Owned env h st) {l : Request × Answer}
    (hv : l.1.Validated env) (hs : (routes env).step st l st') :
    Owned env (h ++ [(st, l)]) st' := by
  have hst : (handle env st l.1).2 = st' := congrArg Prod.snd hs
  have hfills := fills_of_handle hnorm hi.normal hv
  rw [hst] at hfills
  cases hfills with
  | had hrows hhad => exact owned_had hi hst hrows hhad
  | adds added hrows hclaims hnone hnormal =>
    exact owned_adds hi hst hrows hclaims hnone hnormal

theorem owned_run (hnorm : env.Normalises) {now : ℕ} {redis : ExpiringStore String String}
    {ls : List (Request × Answer)} {s : List Entry × State}
    (hr : (validated env).Run ([], ⟨.empty, redis, now⟩) ls s) : Owned env s.1 s.2 := by
  refine hr.invariant (fun s => Owned env s.1 s.2) ?_ ?_
  · refine ⟨?_, ?_, ?_, ?_⟩
    · intro user hu
      cases hu
    · intro address e he
      cases he
    · intro user hu
      cases hu
    · intro e he
      cases he
  · rintro s l s' ih ⟨hv, hlog, hnext⟩
    rw [hlog]
    exact owned_step hnorm ih hv hnext

theorem Request.Proves.asks {req : Request} {who : Identity} {account : Account} {t : Users}
    (hp : req.Proves who) (hask : AsksFor env t req account) :
    (∃ user, account = .inl user ∧ user ∈ t.rows ∧ user.email.val = who.address) ∨
      ∃ userData, account = .inr userData ∧ t.getUserByEmail who.address = none := by
  have hacc : req.account env t = some (.ok account) := by
    cases hp with
    | line => cases hask with | callback h => exact h
    | kakao => cases hask with | callback h => exact h
  obtain ⟨provider, email, name, image, hlooks, -, hex⟩ := account_ok hacc
  rw [hp.looksUp hlooks] at hex
  have hfits : fitsText who.address = true := by
    obtain ⟨_, -, hfound⟩ | ⟨_, -, hfound, -⟩ := existingOr_ok hex
    · exact (getUserByField_text hfound).1
    · exact (getUserByField_text hfound).1
  rw [existingOr_text hfits] at hex
  cases hu : t.getUserByEmail who.address with
  | none =>
    cases hv : RegisterRequest.validate env provider (.text who.address) name image with
    | error e =>
      rw [hu, hv] at hex
      cases hex
    | ok userData =>
      rw [hu, hv] at hex
      cases hex
      exact .inr ⟨userData, rfl, rfl⟩
  | some user =>
    rw [hu] at hex
    cases hex
    exact .inl ⟨user, rfl, Users.getUserByEmail_eq_some hu⟩

theorem account_of_proves {req : Request} {who : Identity} {user : User} {tokens : Tokens}
    (hp : req.Proves who) (he : Effect env st req (.ok (.granted user tokens)) st') :
    user ∈ st.users.rows ∧ user.email.val = who.address ∨
      st.users.getUserByEmail who.address = none ∧ user ∉ st.users.rows ∧
        user ∈ st'.users.rows := by
  cases he with
  | registers hreq => cases hp <;> cases hreq
  | signsIn _ hask hobt =>
    obtain ⟨found, rfl, hmem, haddress⟩ | ⟨userData, rfl, hnone⟩ := hp.asks hask
    · cases hobt
      exact .inl ⟨hmem, haddress⟩
    · cases hobt with
      | added hnew hemail _ _ hrows =>
        refine .inr ⟨hnone, fun hmem => ?_, ?_⟩
        · exact Users.getUserByEmail_eq_none.mp hnew user hmem (congrArg EmailStr.val hemail)
        · simp [hrows]

/-- A callback signs somebody into an account that was created for them exactly when the first
request for their address came from them. -/
theorem own_account_iff (hnorm : env.Normalises) {now : ℕ} {redis : ExpiringStore String String}
    {ls : List (Request × Answer)} (hr : (validated env).Run ([], ⟨.empty, redis, now⟩) ls (h, st))
    {before after : List Entry} (he : h = before ++ e :: after) {who : Identity}
    (hp : e.2.1.Proves who) {user : User} {tokens : Tokens}
    (hg : e.2.2 = .ok (.granted user tokens)) :
    (∃ e' ∈ before ++ [e], e'.2.1.Proves who ∧ Creates env e' user) ↔
      ∀ e', firstClaim env (before ++ [e]) who.address = some e' → e'.2.1.Proves who := by
  obtain ⟨ls', st', hbefore, hstep⟩ := hr.before_recorded he
  have hi := owned_run hnorm hbefore
  have hi' := owned_run hnorm (hbefore.snoc hstep)
  have hnext := hstep.2.2
  have heff := effect_of_step hnext
  rw [hg] at heff
  rcases account_of_proves hp heff with ⟨hmem, haddress⟩ | ⟨hnone, hnot, hin⟩
  · constructor
    · rintro ⟨e', he', hproves, hcreates⟩ e'' hfirst
      have hfirst' := (hi'.created e' he' user hcreates).2
      rw [haddress] at hfirst'
      cases hfirst'.symm.trans hfirst
      exact hproves
    · intro hall
      obtain ⟨e₀, he₀, hcreates⟩ := hi.rows user hmem
      have hfirst := (hi'.created e₀ (List.mem_append_left _ he₀) user hcreates).2
      rw [haddress] at hfirst
      exact ⟨e₀, List.mem_append_left _ he₀, hall e₀ hfirst, hcreates⟩
  · have hcreates : Creates env e user := by
      refine ⟨hnot, ?_⟩
      rw [show (handle env e.1 e.2.1).2 = st' from congrArg Prod.snd hnext]
      exact hin
    constructor
    · intro _ e' hfirst
      rw [firstClaim_snoc, Option.or_eq_some_iff] at hfirst
      rcases hfirst with hfirst | ⟨-, hfirst⟩
      · obtain ⟨other, hmem, heq⟩ := hi.claimed _ _ hfirst
        exact absurd heq (Users.getUserByEmail_eq_none.mp hnone other hmem)
      · rw [(firstClaim_single.mp hfirst).1]
        exact hp
    · intro _
      exact ⟨e, by simp, hp, hcreates⟩

end Run

/-! ### A LINE user, and somebody who was earlier -/

def lineProfile : LineProfile := ⟨.text "U1", .text "Kim", .text "kim.png"⟩

def lineUser : Request := .line "" ⟨some "code", 200, some "token", 200, some lineProfile⟩

theorem lineUser_proves : lineUser.Proves (.line "U1") :=
  .line (show Exchange.profile _ = some lineProfile from rfl)

def squatter : Request :=
  .register "" ⟨⟨"U1@line.com", by decide, by decide⟩, "Lee", some "secret word", some "local",
    none, by decide, by decide⟩

def neighbour : Request :=
  .register "" ⟨leesEmail, "Lee", some "secret word", some "local", none, by decide, by decide⟩

theorem own_account_iff_applied : ∃ e₁ e₂ e₃ st user tokens,
    (validated plainEnv).Run ([], ⟨.empty, .empty, 0⟩) [e₁.2, e₂.2, e₃.2] ([e₁, e₂, e₃], st) ∧
    [e₁, e₂, e₃].map (fun e => e.2.1) = [lineUser, neighbour, lineUser] ∧
    e₃.2.2 = .ok (.granted user tokens) ∧
    ∃ e' ∈ [e₁, e₂, e₃], e'.2.1.Proves (.line "U1") ∧ Creates plainEnv e' user := by
  let s₀ : State := ⟨.empty, .empty, 0⟩
  let s₁ := (handle plainEnv s₀ lineUser).2
  let s₂ := (handle plainEnv s₁ neighbour).2
  let e₁ : Entry := (s₀, lineUser, (handle plainEnv s₀ lineUser).1)
  let e₂ : Entry := (s₁, neighbour, (handle plainEnv s₁ neighbour).1)
  let e₃ : Entry := (s₂, lineUser, (handle plainEnv s₂ lineUser).1)
  obtain ⟨user, tokens, hans⟩ : ∃ user tokens,
      (handle plainEnv s₂ lineUser).1 = .ok (.granted user tokens) := ⟨_, _, rfl⟩
  have hr₁ : (validated plainEnv).Run ([], s₀) [e₁.2] ([e₁], s₁) := by
    refine Lts.Run.single ⟨?_, rfl, rfl⟩
    intro _ _ h
    cases h
  have hr₂ : (validated plainEnv).Run ([], s₀) [e₁.2, e₂.2] ([e₁, e₂], s₂) := by
    refine hr₁.snoc ⟨?_, rfl, rfl⟩
    intro salt userIn h
    cases h
    rfl
  have hr₃ : (validated plainEnv).Run ([], s₀) [e₁.2, e₂.2, e₃.2]
      ([e₁, e₂, e₃], (handle plainEnv s₂ lineUser).2) := by
    refine hr₂.snoc ⟨?_, rfl, rfl⟩
    intro _ _ h
    cases h
  refine ⟨e₁, e₂, e₃, _, user, tokens, hr₃, rfl, hans, (own_account_iff plainEnv_normalises hr₃
    (show [e₁, e₂, e₃] = [e₁, e₂] ++ e₃ :: [] from rfl) lineUser_proves hans).mpr ?_⟩
  intro e' hfirst
  have hclaims : lineUser.claims plainEnv = some "U1@line.com" := by decide
  have hfirst' : firstClaim plainEnv ([e₁, e₂] ++ [e₃]) "U1@line.com" = some e₁ :=
    List.find?_cons_of_pos (decide_eq_true hclaims)
  cases hfirst'.symm.trans hfirst
  exact lineUser_proves

theorem account_created_in_advance :
    ¬ ∀ env : Env, env.Normalises → ∀ ls h st,
      (validated env).Run ([], ⟨.empty, .empty, 0⟩) ls (h, st) → ∀ before after e,
      h = before ++ e :: after → ∀ who, e.2.1.Proves who → ∀ user tokens,
      e.2.2 = .ok (.granted user tokens) →
      ∃ e' ∈ before ++ [e], e'.2.1.Proves who ∧ Creates env e' user := by
  intro hall
  let s₀ : State := ⟨.empty, .empty, 0⟩
  let s₁ := (handle plainEnv s₀ squatter).2
  let e₁ : Entry := (s₀, squatter, (handle plainEnv s₀ squatter).1)
  let e₂ : Entry := (s₁, lineUser, (handle plainEnv s₁ lineUser).1)
  obtain ⟨user, tokens, hans, hrows⟩ : ∃ user tokens,
      (handle plainEnv s₁ lineUser).1 = .ok (.granted user tokens) ∧ s₁.users.rows = [user] :=
    ⟨_, _, rfl, rfl⟩
  have hr₁ : (validated plainEnv).Run ([], s₀) [e₁.2] ([e₁], s₁) := by
    refine Lts.Run.single ⟨?_, rfl, rfl⟩
    intro salt userIn h
    cases h
    rfl
  have hr₂ : (validated plainEnv).Run ([], s₀) [e₁.2, e₂.2]
      ([e₁, e₂], (handle plainEnv s₁ lineUser).2) := by
    refine hr₁.snoc ⟨?_, rfl, rfl⟩
    intro _ _ h
    cases h
  obtain ⟨e', hin, hproves, hnot, -⟩ := hall plainEnv plainEnv_normalises _ _ _ hr₂ [e₁] [] e₂ rfl
    _ lineUser_proves user tokens hans
  rcases List.mem_cons.mp hin with rfl | hin
  · cases hproves
  · rw [List.mem_singleton.mp hin] at hnot
    exact hnot (by rw [hrows]; exact List.mem_singleton_self user)

end Nalang.Accounts
