import Nalang.Accounts.SocialLogin

/-!
# Sign-ups that run side by side

A registration and a social callback look the e-mail up, insert a row if there is none,
and issue tokens. Between these steps any other request may take its own, so a row may be
there by the time of the insert. Only the unique index notices that.
-/

namespace Nalang.Accounts
open Transition

/-! ### The steps of a sign-up -/

section Steps
variable (env : Env)

def Request.lookUp (t : Users) : Request → Option (Except HttpError Account)
  | .register _ userIn =>
    match t.getUserByEmail userIn.email.val with
    | some _ => some (.error (.httpException 400 "Existing Email"))
    | none => some (.ok (.inr userIn))
  | req => req.account env t

/-- A registration does not store its refresh token. -/
def Request.issue (user : User) (st : State) : Request → Answer × State
  | .register _ _ => granted ((createTokens env st.now user).map (user, ·), st)
  | _ => granted (issueTokens env user st)

inductive Stage
  | asked
  | creating (userIn : RegisterRequest)
  | issuing (user : User)
  | answered (answer : Answer)

def Stage.advance (req : Request) (st : State) : Stage → Option (State × Stage)
  | .asked =>
    match req.lookUp env st.users with
    | none => none
    | some (.error e) => some (st, .answered (.error e))
    | some (.ok (.inl user)) => some (st, .issuing user)
    | some (.ok (.inr userIn)) => some (st, .creating userIn)
  | .creating userIn =>
    match createUser env req.salt userIn st.users with
    | (.error e, t) => some ({ st with users := t }, .answered (.error e))
    | (.ok user, t) => some ({ st with users := t }, .issuing user)
  | .issuing user => some ((req.issue env user st).2, .answered (req.issue env user st).1)
  | .answered _ => none

/-- At most `n` steps of one request, with nothing in between. -/
def Stage.finish (req : Request) : ℕ → State × Stage → State × Stage
  | 0, s => s
  | n + 1, s =>
    match s.2.advance env req s.1 with
    | none => s
    | some s' => Stage.finish req n s'

end Steps

section Uninterrupted
variable {env : Env} {st : State} {req : Request}

theorem lookUp_of_callback (h : ¬ req.IsRegister) (t : Users) :
    req.lookUp env t = req.account env t := by
  cases req with
  | register salt userIn => exact absurd trivial h
  | _ => rfl

theorem issue_of_callback (h : ¬ req.IsRegister) (user : User) :
    req.issue env user st = granted (issueTokens env user st) := by
  cases req with
  | register salt userIn => exact absurd trivial h
  | _ => rfl

theorem finish_register (salt : String) (userIn : RegisterRequest) :
    Stage.finish env (.register salt userIn) 3 (st, .asked) =
      ((handle env st (.register salt userIn)).2,
        .answered (handle env st (.register salt userIn)).1) := by
  cases hfound : st.users.getUserByEmail userIn.email.val with
  | some user =>
    simp [Stage.finish, Stage.advance, Request.lookUp, handle, registerUser, hfound, granted,
      Except.map]
  | none =>
    rcases hcreate : createUser env salt userIn st.users with ⟨created, t⟩
    cases created with
    | error e =>
      simp [Stage.finish, Stage.advance, Request.lookUp, Request.salt, handle, registerUser, hfound,
        hcreate, granted, Except.map]
    | ok user =>
      simp [Stage.finish, Stage.advance, Request.lookUp, Request.salt, Request.issue, handle,
        registerUser, hfound, hcreate, granted]

theorem finish_callback {asked : Except HttpError Account} (hreg : ¬ req.IsRegister)
    (h : req.account env st.users = some asked) :
    Stage.finish env req 3 (st, .asked) =
      ((handle env st req).2, .answered (handle env st req).1) := by
  have hlook : req.lookUp env st.users = some asked := (lookUp_of_callback hreg _).trans h
  rw [handle_of_account h]
  cases asked with
  | error e =>
    simp [Stage.finish, Stage.advance, hlook, signIn, granted, Except.map]
  | ok account =>
    cases account with
    | inl user =>
      simp [Stage.finish, Stage.advance, hlook, signIn, issue_of_callback hreg]
    | inr userIn =>
      rcases hcreate : createUser env req.salt userIn st.users with ⟨created, t⟩
      cases created with
      | error e =>
        simp [Stage.finish, Stage.advance, hlook, signIn, hcreate, granted, Except.map]
      | ok user =>
        simp [Stage.finish, Stage.advance, hlook, signIn, hcreate, issue_of_callback hreg]

theorem finish_eq_handle (h : req.lookUp env st.users ≠ none) :
    Stage.finish env req 3 (st, .asked) =
      ((handle env st req).2, .answered (handle env st req).1) := by
  cases req with
  | register salt userIn => exact finish_register salt userIn
  | _ =>
    obtain ⟨asked, hasked⟩ := Option.ne_none_iff_exists'.mp h
    exact finish_callback id hasked

end Uninterrupted

/-! ### Many requests -/

structure Traffic (Tx : Type) where
  state : State
  stage : Tx → Stage

inductive TrafficLabel (Tx : Type)
  | goes (tx : Tx)
  | elapse (seconds : ℕ)

namespace Traffic
variable {Tx : Type} [DecidableEq Tx]

def start (st : State) : Traffic Tx := ⟨st, fun _ => .asked⟩

def step (env : Env) (reqs : Tx → Request) (s : Traffic Tx) :
    TrafficLabel Tx → Option (Traffic Tx)
  | .goes tx => ((s.stage tx).advance env (reqs tx) s.state).map fun r =>
      ⟨r.1, Function.update s.stage tx r.2⟩
  | .elapse seconds => some { s with state := { s.state with now := s.state.now + seconds } }

end Traffic

def signUps {Tx : Type} [DecidableEq Tx] (env : Env) (reqs : Tx → Request) :
    Lts (Traffic Tx) (TrafficLabel Tx) := .ofStep (Traffic.step env reqs)

/-! ### What every sign-up is owed -/

inductive Request.SignsUp (email : String) : Request → Prop
  | register {salt : String} {userIn : RegisterRequest} (h : userIn.email.val = email) :
      SignsUp email (.register salt userIn)
  | callback {req : Request} {name image : JsonField} {provider : String}
      (h : req.Yields (.text email) name image provider) : SignsUp email req

def Users.Sole (t : Users) (email : String) (user : User) : Prop :=
  user ∈ t.rows ∧ user.email.val = email ∧ ∀ v ∈ t.rows, v.email.val = email → v = user

inductive Stage.Fine (env : Env) (t : Users) (email : String) (req : Request) : Stage → Prop
  | asked : Fine env t email req .asked
  | creating {userIn : RegisterRequest} (h : userIn.email.val = email) :
      Fine env t email req (.creating userIn)
  | issuing {user : User} (h : t.Sole email user) : Fine env t email req (.issuing user)
  | granted {user : User} {tokens : Tokens} {now : ℕ} (h : t.Sole email user)
      (ht : createTokens env now user = .ok tokens) :
      Fine env t email req (.answered (.ok (.granted user tokens)))
  | refused {user : User} (hr : req.IsRegister) (h : t.Sole email user) :
      Fine env t email req (.answered (.error (.httpException 400 "Existing Email")))

def Stage.Won (stage : Stage) : Prop :=
  ∃ user, stage = .issuing user ∨ ∃ tokens, stage = .answered (.ok (.granted user tokens))

structure SignedUp {Tx : Type} (env : Env) (reqs : Tx → Request) (email : String)
    (s : Traffic Tx) : Prop where
  fine : ∀ tx, (reqs tx).SignsUp email → (s.stage tx).Fine env s.state.users email (reqs tx)
  winner : ∀ tx tx', (reqs tx).SignsUp email → (reqs tx').SignsUp email → (reqs tx).IsRegister →
    (reqs tx').IsRegister → (s.stage tx).Won → (s.stage tx').Won → tx = tx'

def Stage.Told (stage : Stage) : Prop :=
  stage = .answered (.error (.httpException 400 "Existing Email"))

def Stage.Granted (env : Env) (user : User) (stage : Stage) : Prop :=
  ∃ tokens now, createTokens env now user = .ok tokens ∧
    stage = .answered (.ok (.granted user tokens))

/-- One row, tokens for it to every callback, and a 400 to all registrations but the one that has
created it. -/
def Settled {Tx : Type} (env : Env) (reqs : Tx → Request) (email : String) (s : Traffic Tx) :
    Prop :=
  ∃ user, s.state.users.Sole email user ∧
    (∀ tx, (reqs tx).SignsUp email → ¬ (reqs tx).IsRegister → (s.stage tx).Granted env user) ∧
    ∀ tx, (reqs tx).SignsUp email → (reqs tx).IsRegister → (s.stage tx).Told ∨
      ((s.stage tx).Granted env user ∧ ∀ tx', (reqs tx').SignsUp email → (reqs tx').IsRegister →
        tx' ≠ tx → (s.stage tx').Told)

/-! ### The condition -/

def Readable (env : Env) (t : Users) (email : String) (name image : JsonField)
    (provider : String) : Prop :=
  (t.getUserByEmail email = none ∨ provider = "google" → Valid env (.text email) name image) ∧
    (t.getUserByEmail email = none → ∀ e, env.emailStr email = some e → e.val = email)

def Hashable (env : Env) (salt : String) (userIn : RegisterRequest) : Prop :=
  ∀ password ∈ userIn.password, password ≠ "" → env.crypt.hash salt password ≠ none

/-- Nobody has inserted the address since the lookup, and nothing else is in the way. -/
def Stage.Fits (env : Env) (email : String) (req : Request) (st : State) : Stage → Prop
  | .asked => ∀ name image provider, req.Yields (.text email) name image provider →
      Readable env st.users email name image provider
  | .creating userIn =>
      st.users.getUserByEmail userIn.email.val = none ∧ userIn.storable = true ∧
        Hashable env req.salt userIn
  | .issuing user => Signs env st.now user.id
  | .answered _ => True

def InTurn {Tx : Type} (env : Env) (reqs : Tx → Request) (email : String) (s : Traffic Tx) :
    TrafficLabel Tx → Prop
  | .goes tx => (reqs tx).SignsUp email → (s.stage tx).Fits env email (reqs tx) s.state
  | .elapse _ => True

/-! ### One step of a sign-up -/

section OneStep
variable {env : Env} {st st' : State} {req : Request} {stage stage' : Stage} {t t' : Users}
  {email : String} {user : User} {userIn : RegisterRequest} {name image name' image' : JsonField}
  {provider provider' : String}

theorem sole_of_mem (hmem : user ∈ t.rows) (he : user.email.val = email) : t.Sole email user := by
  refine ⟨hmem, he, fun v hv hve => ?_⟩
  exact List.inj_on_of_nodup_map t.emails hv hmem (hve.trans he.symm)

theorem Users.Sole.mono (h : t.Sole email user) (hsub : ∀ v ∈ t.rows, v ∈ t'.rows) :
    t'.Sole email user := sole_of_mem (hsub user h.1) h.2.1

theorem Stage.Fine.mono (h : stage.Fine env t email req) (hsub : ∀ v ∈ t.rows, v ∈ t'.rows) :
    stage.Fine env t' email req := by
  cases h with
  | asked => exact .asked
  | creating h => exact .creating h
  | issuing h => exact .issuing (h.mono hsub)
  | granted h ht => exact .granted (h.mono hsub) ht
  | refused hr h => exact .refused hr (h.mono hsub)

theorem Request.Yields.unique {address address' : JsonField}
    (h : req.Yields address name image provider)
    (h' : req.Yields address' name' image' provider') :
    name' = name ∧ image' = image ∧ provider' = provider := by
  cases h with
  | google hx he hn hi =>
    cases h' with
    | google hx' he' hn' hi' =>
      cases hx.symm.trans hx'
      exact ⟨Except.ok.inj (hn'.symm.trans hn), Except.ok.inj (hi'.symm.trans hi), rfl⟩
  | line hx hu he hn hi =>
    cases h' with
    | line hx' hu' he' hn' hi' =>
      cases hx.symm.trans hx'
      exact ⟨Except.ok.inj (hn'.symm.trans hn), Except.ok.inj (hi'.symm.trans hi), rfl⟩
  | kakao hx hid he hn hi =>
    cases h' with
    | kakao hx' hid' he' hn' hi' =>
      cases hx.symm.trans hx'
      exact ⟨hn'.symm.trans hn, hi'.symm.trans hi, rfl⟩
  | naver hx he hn hi =>
    cases h' with
    | naver hx' he' hn' hi' =>
      cases hx.symm.trans hx'
      exact ⟨Except.ok.inj (hn'.symm.trans hn), Except.ok.inj (hi'.symm.trans hi), rfl⟩

theorem Request.Yields.not_register {address : JsonField}
    (h : req.Yields address name image provider) : ¬ req.IsRegister := by
  cases h <;> exact id

theorem createUser_ok_iff {salt : String} :
    (∃ user, (createUser env salt userIn t).1 = .ok user) ↔
      t.getUserByEmail userIn.email.val = none ∧ userIn.storable = true ∧
        Hashable env salt userIn := by
  have hadd : ∀ hashed, (∃ user, (t.add userIn hashed).1 = .ok user) ↔
      t.getUserByEmail userIn.email.val = none ∧ userIn.storable = true := by
    intro hashed
    unfold Users.add Users.insert
    by_cases hstorable : userIn.storable = true
    · by_cases hfree : t.getUserByEmail userIn.email.val = none
      · simp [hstorable, hfree]
      · simp [hstorable, hfree]
    · simp [hstorable]
  unfold createUser Hashable
  cases hpassword : userIn.password with
  | none => simp [hadd]
  | some password =>
    by_cases hempty : password = ""
    · simp [hempty, hadd]
    · cases hhash : env.crypt.hash salt password with
      | none => simp [hempty, hhash]
      | some hashed => simp [hempty, hhash, hadd]

theorem lookUp_found (hy : req.Yields (.text email) name image provider)
    (hfound : t.getUserByEmail email = some user)
    (hvalid : provider = "google" → Valid env (.text email) name image) :
    req.lookUp env t = some (.ok (.inl user)) := by
  have hfield := getUserByField_of_found hfound
  rw [lookUp_of_callback hy.not_register, account_of_yields hy fun hg => .inl (hvalid hg),
    existingOr_returning hfield]

theorem lookUp_invalid (hy : req.Yields (.text email) name image provider)
    (hgoogle : provider = "google") (hfound : t.getUserByEmail email = some user)
    (hno : ¬ Valid env (.text email) name image) :
    ∃ e, req.lookUp env t = some (.error e) := by
  have hfield := getUserByField_of_found hfound
  rw [lookUp_of_callback hy.not_register]
  cases hy with
  | @google salt x profile hx he hn hi =>
    cases hvalid : RegisterRequest.validate env "google" (.text email) name image with
    | ok userIn => exact absurd ⟨userIn, hvalid⟩ hno
    | error e =>
      refine ⟨e, ?_⟩
      change some (googleAccount env x t) = _
      rw [googleAccount_checkedFirst hx he hn hi, checkedFirst, hfield, hvalid]
      rfl
  | line | kakao | naver => exact absurd hgoogle (by decide)

theorem lookUp_unfit (hy : req.Yields (.text email) name image provider)
    (hfits : ¬ fitsText email = true) : req.lookUp env t = some (.error .serverError) := by
  have hfield : t.getUserByField (.text email) = .error .serverError := if_neg hfits
  rw [lookUp_of_callback hy.not_register, account_of_yields hy fun _ => .inr (by simp [hfield])]
  unfold existingOr
  rw [hfield]
  rfl

theorem lookUp_new (hy : req.Yields (.text email) name image provider)
    (hfits : fitsText email = true) (hnew : t.getUserByEmail email = none) :
    req.lookUp env t =
      some ((RegisterRequest.validate env provider (.text email) name image).map .inr) := by
  have hfield : t.getUserByField (.text email) = .ok none := by
    rw [getUserByField_of_fits hfits, hnew]
  rw [lookUp_of_callback hy.not_register, account_of_yields hy fun _ => .inr (by simp [hfield]),
    existingOr_new hfield]

theorem readable_iff (hy : req.Yields (.text email) name image provider) :
    Stage.Fits env email req st .asked ↔ Readable env st.users email name image provider := by
  constructor
  · exact fun h => h name image provider hy
  · intro h name' image' provider' hy'
    obtain ⟨rfl, rfl, rfl⟩ := hy.unique hy'
    exact h

theorem not_fine_error {e : HttpError} (hreg : ¬ req.IsRegister) :
    ¬ Stage.Fine env t email req (.answered (.error e)) := by
  intro h
  cases h with
  | refused hr _ => exact hreg hr

theorem fine_asked_callback (hy : req.Yields (.text email) name image provider)
    (h : Stage.advance env req st .asked = some (st', stage')) :
    stage'.Fine env st'.users email req ↔ Readable env st.users email name image provider := by
  have hreg := hy.not_register
  cases hfound : st.users.getUserByEmail email with
  | some user =>
    have hsole : st.users.Sole email user :=
      sole_of_mem (Users.getUserByEmail_eq_some hfound).1 (Users.getUserByEmail_eq_some hfound).2
    by_cases hvalid : provider = "google" → Valid env (.text email) name image
    · simp only [Stage.advance, lookUp_found hy hfound hvalid, Option.some.injEq] at h
      cases h
      refine iff_of_true (.issuing hsole) ⟨?_, ?_⟩
      · simpa [hfound] using hvalid
      · simp [hfound]
    · rw [Classical.not_imp] at hvalid
      obtain ⟨e, he⟩ := lookUp_invalid hy hvalid.1 hfound hvalid.2
      simp only [Stage.advance, he, Option.some.injEq] at h
      cases h
      exact iff_of_false (not_fine_error hreg) fun hr => hvalid.2 (hr.1 (.inr hvalid.1))
  | none =>
    by_cases hfits : fitsText email = true
    case neg =>
      simp only [Stage.advance, lookUp_unfit hy hfits, Option.some.injEq] at h
      cases h
      refine iff_of_false (not_fine_error hreg) fun hr => hfits ?_
      -- an address that passes as a form is what the table would hold
      obtain ⟨userIn, hok⟩ := hr.1 (.inl hfound)
      obtain ⟨_, hemail, hnormal, -⟩ := validate_ok hok
      cases hemail
      rw [← hr.2 hfound _ hnormal]
      exact userIn.email.fits
    have hlook := @lookUp_new env req st.users email name image provider hy hfits hfound
    cases hvalid : RegisterRequest.validate env provider (.text email) name image with
    | error e =>
      rw [hvalid] at hlook
      simp only [Stage.advance, hlook, Except.map, Option.some.injEq] at h
      cases h
      refine iff_of_false (not_fine_error hreg) fun hr => ?_
      obtain ⟨userIn, hok⟩ := (valid_iff provider).mp (hr.1 (.inl hfound))
      rw [hvalid] at hok
      cases hok
    | ok userIn =>
      rw [hvalid] at hlook
      simp only [Stage.advance, hlook, Except.map, Option.some.injEq] at h
      cases h
      obtain ⟨_, hemail, hnormal, -⟩ := validate_ok hvalid
      cases hemail
      constructor
      · intro hfine
        refine ⟨fun _ => (valid_iff provider).mpr ⟨userIn, hvalid⟩, fun _ e hemail => ?_⟩
        rw [hnormal, Option.some.injEq] at hemail
        cases hfine with
        | creating he => rw [← hemail, he]
      · exact fun hr => .creating (hr.2 hfound _ hnormal)

theorem fine_asked_register {salt : String} (he : userIn.email.val = email)
    (h : Stage.advance env (.register salt userIn) st .asked = some (st', stage')) :
    stage'.Fine env st'.users email (.register salt userIn) := by
  cases hfound : st.users.getUserByEmail userIn.email.val with
  | some user =>
    simp only [Stage.advance, Request.lookUp, hfound, Option.some.injEq] at h
    cases h
    obtain ⟨hmem, hu⟩ := Users.getUserByEmail_eq_some hfound
    exact .refused trivial (sole_of_mem hmem (hu.trans he))
  | none =>
    simp only [Stage.advance, Request.lookUp, hfound, Option.some.injEq] at h
    cases h
    exact .creating he

theorem fine_creating (he : userIn.email.val = email)
    (h : Stage.advance env req st (.creating userIn) = some (st', stage')) :
    stage'.Fine env st'.users email req ↔
      st.users.getUserByEmail userIn.email.val = none ∧ userIn.storable = true ∧
        Hashable env req.salt userIn := by
  have hcreated := createUser_created env req.salt userIn st.users
  have hok := @createUser_ok_iff env st.users userIn req.salt
  rcases hcreate : createUser env req.salt userIn st.users with ⟨created, t⟩
  rw [hcreate] at hcreated hok
  simp only [Stage.advance, hcreate] at h
  cases created with
  | error e =>
    cases h
    obtain ⟨user, herror, -⟩ | ⟨herror, -⟩ := hcreated
    · cases herror
    · cases herror
      refine iff_of_false (fun hfine => by cases hfine) fun hfits => ?_
      obtain ⟨user, herror⟩ := hok.mpr hfits
      cases herror
  | ok user =>
    cases h
    obtain ⟨user', hsame, hobtains⟩ | ⟨herror, -⟩ := hcreated
    · cases hsame
      cases hobtains with
      | added hfree hemail hid _ hrows =>
        have hrows' : t.rows = st.users.rows ++ [user] := hrows
        refine iff_of_true (.issuing (sole_of_mem ?_ ?_)) (hok.mp ⟨user, rfl⟩)
        · rw [hrows']
          exact List.mem_append_right _ (List.mem_singleton_self user)
        · rw [hemail, he]
    · cases herror

theorem issue_state (user : User) : (req.issue env user st).2.users = st.users := by
  cases req with
  | register salt userIn => rfl
  | _ =>
    change (issueTokens env user st).2.users = st.users
    unfold issueTokens
    cases createTokens env st.now user <;> rfl

theorem issue_answer (user : User) : (req.issue env user st).1 =
    (createTokens env st.now user).map (.granted user ·) := by
  cases req with
  | register salt userIn =>
    change ((createTokens env st.now user).map (user, ·)).map _ = _
    cases createTokens env st.now user <;> rfl
  | _ =>
    change (issueTokens env user st).1.map _ = _
    unfold issueTokens
    cases createTokens env st.now user <;> rfl

theorem fine_issuing (hs : st.users.Sole email user)
    (h : Stage.advance env req st (.issuing user) = some (st', stage')) :
    stage'.Fine env st'.users email req ↔ Signs env st.now user.id := by
  simp only [Stage.advance, Option.some.injEq, Prod.mk.injEq] at h
  obtain ⟨rfl, rfl⟩ := h
  rw [issue_state, issue_answer, ← signs_iff]
  cases htokens : createTokens env st.now user with
  | error e =>
    cases createTokens_error htokens
    refine iff_of_false (fun hfine => by cases hfine) ?_
    rintro ⟨tokens, hok⟩
    cases hok
  | ok tokens => exact iff_of_true (.granted hs htokens) ⟨tokens, rfl⟩

theorem fine_step (hs : req.SignsUp email) (hf : stage.Fine env st.users email req)
    (h : stage.advance env req st = some (st', stage')) :
    stage'.Fine env st'.users email req ↔ stage.Fits env email req st := by
  cases hf with
  | asked =>
    cases hs with
    | @register salt userIn he =>
      refine iff_of_true (fine_asked_register he h) fun name image provider hy => ?_
      exact absurd trivial hy.not_register
    | callback hy => rw [readable_iff hy, fine_asked_callback hy h]
  | creating he => exact fine_creating he h
  | issuing hsole => exact fine_issuing hsole h
  | granted hsole ht => cases h
  | refused hr hsole => cases h

theorem rows_kept (h : stage.advance env req st = some (st', stage')) :
    ∀ v ∈ st.users.rows, v ∈ st'.users.rows := by
  cases stage with
  | asked =>
    have hstate : st' = st := by
      simp only [Stage.advance] at h
      split at h <;> cases h <;> rfl
    exact fun v hv => hstate ▸ hv
  | creating userIn =>
    have hcreated := createUser_created env req.salt userIn st.users
    rcases hcreate : createUser env req.salt userIn st.users with ⟨created, t⟩
    rw [hcreate] at hcreated
    have hrows : ∀ v ∈ st.users.rows, v ∈ t.rows := by
      intro v hv
      obtain ⟨user, -, hobtains⟩ | ⟨-, hsame⟩ := hcreated
      · cases hobtains with
        | added hfree hemail hid _ hadded =>
          have hadded' : t.rows = st.users.rows ++ [user] := hadded
          rw [hadded']
          exact List.mem_append_left _ hv
      · have hsame' : t.rows = st.users.rows := hsame
        rw [hsame']
        exact hv
    simp only [Stage.advance, hcreate] at h
    cases created <;> cases h <;> exact hrows
  | issuing user =>
    simp only [Stage.advance, Option.some.injEq, Prod.mk.injEq] at h
    obtain ⟨rfl, rfl⟩ := h
    rw [issue_state]
    exact fun v hv => hv
  | answered answer => cases h

end OneStep

/-! ### Whole runs -/

section Runs
variable {Tx : Type} [DecidableEq Tx] {env : Env} {reqs : Tx → Request} {email : String}
  {s s' : Traffic Tx} {tx tx' : Tx} {st₀ : State} {ls : List (TrafficLabel Tx)}

omit [DecidableEq Tx] in
theorem signedUp_start : SignedUp env reqs email (.start st₀) where
  fine _ _ := .asked
  winner _ _ _ _ _ _ hw _ := by
    obtain ⟨user, hissuing | ⟨tokens, hgranted⟩⟩ := hw
    · cases hissuing
    · cases hgranted

theorem Stage.Fine.sole {t : Users} {req : Request} {stage : Stage}
    (hf : stage.Fine env t email req) (hw : stage.Won) : ∃ user, t.Sole email user := by
  obtain ⟨user, rfl | ⟨tokens, rfl⟩⟩ := hw
  · cases hf with
    | issuing h => exact ⟨user, h⟩
  · cases hf with
    | granted h ht => exact ⟨user, h⟩

theorem not_free_of_sole {t : Users} {user : User} (h : t.Sole email user) :
    t.getUserByEmail email ≠ none := fun hfree =>
  Users.getUserByEmail_eq_none.mp hfree user h.1 h.2.1

theorem won_before {req : Request} {st st' : State} {stage stage' : Stage} (hreg : req.IsRegister)
    (h : stage.advance env req st = some (st', stage')) (hw : stage'.Won) :
    stage.Won ∨ ∃ userIn, stage = .creating userIn := by
  cases stage with
  | asked =>
    cases req with
    | register salt userIn =>
      simp only [Stage.advance, Request.lookUp] at h
      obtain ⟨user, hissuing | ⟨tokens, hgranted⟩⟩ := hw
      · cases hfound : st.users.getUserByEmail userIn.email.val <;> simp [hfound, hissuing] at h
      · cases hfound : st.users.getUserByEmail userIn.email.val <;> simp [hfound, hgranted] at h
    | _ => exact absurd hreg id
  | creating userIn => exact .inr ⟨userIn, rfl⟩
  | issuing user => exact .inl ⟨user, .inl rfl⟩
  | answered answer => cases h

omit [DecidableEq Tx] in
theorem SignedUp.taken (h : SignedUp env reqs email s) (hsign : (reqs tx).SignsUp email)
    (hw : (s.stage tx).Won) : s.state.users.getUserByEmail email ≠ none := by
  obtain ⟨user, hsole⟩ := (h.fine tx hsign).sole hw
  exact not_free_of_sole hsole

theorem won_goes {st' : State} {stage' : Stage} (h : SignedUp env reqs email s)
    (hadv : (s.stage tx).advance env (reqs tx) s.state = some (st', stage'))
    (hturn : InTurn env reqs email s (.goes tx)) (hsign : (reqs tx').SignsUp email)
    (hreg : (reqs tx').IsRegister) (hw : (Function.update s.stage tx stage' tx').Won) :
    (s.stage tx').Won ∨ (tx' = tx ∧ s.state.users.getUserByEmail email = none) := by
  by_cases htx : tx' = tx
  · subst htx
    rw [Function.update_self] at hw
    rcases won_before hreg hadv hw with hold | ⟨userIn, hcreating⟩
    · exact .inl hold
    · have hfits := hturn hsign
      have hfine := h.fine tx' hsign
      rw [hcreating] at hfits hfine
      cases hfine with
      | creating he => exact .inr ⟨rfl, he ▸ hfits.1⟩
  · rw [Function.update_of_ne htx] at hw
    exact .inl hw

theorem signedUp_goes {st' : State} {stage' : Stage} (h : SignedUp env reqs email s)
    (hadv : (s.stage tx).advance env (reqs tx) s.state = some (st', stage')) :
    SignedUp env reqs email ⟨st', Function.update s.stage tx stage'⟩ ↔
      InTurn env reqs email s (.goes tx) := by
  constructor
  · intro hs' hsign
    have hfine := hs'.fine tx hsign
    simp only [Function.update_self] at hfine
    exact (fine_step hsign (h.fine tx hsign) hadv).mp hfine
  · intro hturn
    refine ⟨fun t hsign => ?_, fun t t' hsign hsign' hreg hreg' hw hw' => ?_⟩
    · by_cases ht : t = tx
      · subst ht
        simp only [Function.update_self]
        exact (fine_step hsign (h.fine t hsign) hadv).mpr (hturn hsign)
      · simp only [Function.update_of_ne ht]
        exact (h.fine t hsign).mono (rows_kept hadv)
    · rcases won_goes h hadv hturn hsign hreg hw with hold | ⟨rfl, hfree⟩
      · rcases won_goes h hadv hturn hsign' hreg' hw' with hold' | ⟨rfl, hfree⟩
        · exact h.winner t t' hsign hsign' hreg hreg' hold hold'
        · exact absurd hfree (h.taken hsign hold)
      · rcases won_goes h hadv hturn hsign' hreg' hw' with hold' | ⟨rfl, -⟩
        · exact absurd hfree (h.taken hsign' hold')
        · rfl

theorem signedUp_step {l : TrafficLabel Tx} (h : SignedUp env reqs email s)
    (hstep : (signUps env reqs).step s l s') :
    SignedUp env reqs email s' ↔ InTurn env reqs email s l := by
  have hstep' : s.step env reqs l = some s' := hstep
  cases l with
  | goes tx =>
    simp only [Traffic.step, Option.map_eq_some_iff] at hstep'
    obtain ⟨⟨st', stage'⟩, hadv, rfl⟩ := hstep'
    exact signedUp_goes h hadv
  | elapse seconds =>
    cases hstep'
    exact iff_of_true ⟨h.fine, h.winner⟩ trivial

omit [DecidableEq Tx] in
theorem SignedUp.settled (h : SignedUp env reqs email s) (htx : (reqs tx).SignsUp email)
    (hend : ∀ tx, (reqs tx).SignsUp email → ∃ answer, s.stage tx = .answered answer) :
    Settled env reqs email s := by
  have hcases : ∀ tx, (reqs tx).SignsUp email → ∃ user, s.state.users.Sole email user ∧
      ((s.stage tx).Granted env user ∨ ((reqs tx).IsRegister ∧ (s.stage tx).Told)) := by
    intro tx hsign
    obtain ⟨answer, hanswer⟩ := hend tx hsign
    have hfine := h.fine tx hsign
    rw [hanswer] at hfine ⊢
    cases hfine with
    | granted hsole ht => exact ⟨_, hsole, .inl ⟨_, _, ht, rfl⟩⟩
    | refused hr hsole => exact ⟨_, hsole, .inr ⟨hr, rfl⟩⟩
  obtain ⟨user, hsole, -⟩ := hcases tx htx
  have hone : ∀ tx, (reqs tx).SignsUp email →
      (s.stage tx).Granted env user ∨ ((reqs tx).IsRegister ∧ (s.stage tx).Told) := by
    intro tx hsign
    obtain ⟨user', hsole', hanswer⟩ := hcases tx hsign
    cases hsole.2.2 user' hsole'.1 hsole'.2.1
    exact hanswer
  refine ⟨user, hsole, fun tx hsign hreg => ?_, fun tx hsign hreg => ?_⟩
  · exact (hone tx hsign).resolve_right fun ht => hreg ht.1
  · rcases hone tx hsign with hgranted | ⟨-, htold⟩
    · refine .inr ⟨hgranted, fun tx' hsign' hreg' hne => ?_⟩
      rcases hone tx' hsign' with hgranted' | ⟨-, htold'⟩
      · obtain ⟨tokens, now, -, hstage⟩ := hgranted
        obtain ⟨tokens', now', -, hstage'⟩ := hgranted'
        exact absurd (h.winner tx' tx hsign' hsign hreg' hreg ⟨user, .inr ⟨tokens', hstage'⟩⟩
          ⟨user, .inr ⟨tokens, hstage⟩⟩) hne
      · exact htold'
    · exact .inl htold

/-- All sign-ups get what they are owed, in every state of a run, exactly when each of its steps is
in turn. At the end of such a run the address is settled. -/
theorem sign_ups_iff :
    (((signUps env reqs).within (SignedUp env reqs email)).Run (.start st₀) ls s ↔
      ((signUps env reqs).guard (InTurn env reqs email)).Run (.start st₀) ls s) ∧
    (((signUps env reqs).guard (InTurn env reqs email)).Run (.start st₀) ls s →
      (∃ tx, (reqs tx).SignsUp email) →
      (∀ tx, (reqs tx).SignsUp email → ∃ answer, s.stage tx = .answered answer) →
        Settled env reqs email s) := by
  have hiff : ((signUps env reqs).within (SignedUp env reqs email)).Run (.start st₀) ls s ↔
      ((signUps env reqs).guard (InTurn env reqs email)).Run (.start st₀) ls s :=
    Lts.run_within_iff (fun _ => True) trivial (fun _ _ _ _ _ => trivial) signedUp_start
      fun _ _ _ _ h hstep => signedUp_step h hstep
  refine ⟨hiff, fun hr hsome hend => ?_⟩
  obtain ⟨tx, htx⟩ := hsome
  exact ((hiff.mpr hr).within_good signedUp_start).settled htx hend

end Runs

/-! ### Two registrations with one address -/

def kimTwice : Bool → Request := fun _ => .register "salt" kimsForm

def bothLookUp : List (TrafficLabel Bool) :=
  [.goes false, .goes true, .goes false, .goes false, .goes true]

theorem second_registration_fails : ¬ ∀ (env : Env) (reqs : Bool → Request) (email : String)
    (st₀ : State) (ls : List (TrafficLabel Bool)) (s : Traffic Bool),
    (∀ tx, (reqs tx).SignsUp email) → (signUps env reqs).Run (.start st₀) ls s →
      (∀ tx, ∃ answer, s.stage tx = .answered answer) → Settled env reqs email s := by
  intro h
  obtain ⟨s, hexec, hfalse, htrue⟩ : ∃ s,
      Lts.exec (Traffic.step plainEnv kimTwice) (.start start) bothLookUp = some s ∧
        (∃ answer, s.stage false = .answered answer) ∧
          s.stage true = .answered (.error .serverError) := ⟨_, rfl, ⟨_, rfl⟩, rfl⟩
  have hsign : ∀ tx, (kimTwice tx).SignsUp "kim@mail.com" := fun _ => .register rfl
  have hend : ∀ tx, ∃ answer, s.stage tx = .answered answer := by
    rintro (_ | _)
    · exact hfalse
    · exact ⟨_, htrue⟩
  obtain ⟨user, -, -, hregisters⟩ :=
    h plainEnv kimTwice "kim@mail.com" start bothLookUp s hsign (Lts.run_of_exec hexec) hend
  rcases hregisters true (hsign true) trivial with htold | ⟨⟨tokens, now, -, hgranted⟩, -⟩
  · rw [Stage.Told, htrue] at htold
    cases htold
  · rw [htrue] at hgranted
    cases hgranted

end Nalang.Accounts
