import Nalang.Accounts.Lifetimes

/-!
# Authentication over HTTP and over WebSocket

`get_current_user` decodes with `HS256`, `get_current_user_ws` with the configured
algorithm, and the one converts the subject to a number outside of its `try`, the
other inside of one that catches only what `jose` raises.
-/

namespace Nalang.Accounts

/-- `jose.jwt.decode` with a list of one algorithm. The header of a token names one algorithm, and
the empty text is no token. -/
structure Decoder (jose : Jose) where
  decodeWith : (algorithm key : String) → (now : ℕ) → (token : String) → Except DecodeError Claims
  hs256 : decodeWith "HS256" = jose.decode
  exclusive : ∀ {algorithm algorithm' key now token claims claims'},
    decodeWith algorithm key now token = .ok claims →
    decodeWith algorithm' key now token = .ok claims' → algorithm = algorithm'
  nonempty : ∀ algorithm key now, decodeWith algorithm key now "" = .error .jwtError

/-- `token` is the query parameter. The driver refuses an id that does not fit the column. -/
def getCurrentUserWs (env : Env) (d : Decoder env.jose) (users : Users) (now : ℕ)
    (token : Option String) : Except HttpError User :=
  match token with
  | none => .error (.httpException 403 "Missing Token")
  | some token =>
    if token = "" then .error (.httpException 403 "Missing Token")
    else
      match d.decodeWith env.settings.algorithm env.settings.jwtSecretKey now token with
      | .error .jwtError => .error (.httpException 403 "Invalid Token")
      | .error .other => .error .serverError
      | .ok payload =>
        match payload.sub with
        -- `int(None)` is a `TypeError`
        | none => .error .serverError
        | some sub =>
          match Python.int sub with
          | none => .error .serverError
          | some userId =>
            if userId < -2147483648 ∨ 2147483648 ≤ userId then .error .serverError
            else
              match users.getUserById userId with
              | none => .error (.httpException 404 "User not Found")
              | some user => .ok user

/-! ### The property -/

def IsHttpException (e : HttpError) : Prop := ∃ status detail, e = .httpException status detail

/-- Both accept the same user, or refuse by an `HTTPException`. -/
structure Agree (http ws : Except HttpError User) : Prop where
  same : ∀ user, http = .ok user ↔ ws = .ok user
  http_refuses : ∀ e, http = .error e → IsHttpException e
  ws_refuses : ∀ e, ws = .error e → IsHttpException e

/-! ### The subject of a token -/

def Claims.userId (claims : Claims) : Option ℤ :=
  match claims.sub with
  | none => none
  | some sub =>
    match Python.int sub with
    | none => none
    | some id => if id < -2147483648 ∨ 2147483648 ≤ id then none else some id

/-- The two decoders raise nothing but a `JWTError`, what they read can be taken for a user's id,
and with two different algorithms it is the id of nobody. -/
structure Reliable (env : Env) (d : Decoder env.jose) (users : Users) (now : ℕ) (token : String) :
    Prop where
  raises : env.jose.decode env.settings.jwtSecretKey now token ≠ .error .other ∧
    d.decodeWith env.settings.algorithm env.settings.jwtSecretKey now token ≠ .error .other
  http : ∀ claims, env.jose.decode env.settings.jwtSecretKey now token = .ok claims →
    claims.sub ≠ none → claims.userId ≠ none
  ws : ∀ claims, d.decodeWith env.settings.algorithm env.settings.jwtSecretKey now token =
    .ok claims → claims.userId ≠ none
  algorithm : env.settings.algorithm ≠ "HS256" → ∀ claims id,
    (env.jose.decode env.settings.jwtSecretKey now token = .ok claims ∨
      d.decodeWith env.settings.algorithm env.settings.jwtSecretKey now token = .ok claims) →
    claims.userId = some id → users.getUserById id = none

/-- What becomes of an exception of the decoder where a `JWTError` is answered by a refusal. -/
def DecodeError.becomes (refusal : HttpError) : DecodeError → HttpError
  | .jwtError => refusal
  | .other => .serverError

section Agreement
variable {env : Env} {d : Decoder env.jose} {users : Users} {now : ℕ} {token : String}
  {claims : Claims} {id : ℤ} {e : DecodeError}

theorem Claims.userId_eq_some (h : claims.userId = some id) :
    ∃ sub, claims.sub = some sub ∧ Python.int sub = some id ∧
      ¬ (id < -2147483648 ∨ 2147483648 ≤ id) := by
  unfold Claims.userId at h
  cases hsub : claims.sub with
  | none =>
    rw [hsub] at h
    cases h
  | some sub =>
    cases hint : Python.int sub with
    | none => simp [hsub, hint] at h
    | some n =>
      simp only [hsub, hint] at h
      split_ifs at h with hfits
      cases h
      exact ⟨sub, rfl, hint, hfits⟩

theorem getCurrentUser_of_undecoded
    (h : env.jose.decode env.settings.jwtSecretKey now token = .error e) :
    getCurrentUser env users now (some token) =
      .error (e.becomes (.httpException 401 "Could not validate Credentials")) := by
  simp only [getCurrentUser, h]
  cases e <;> rfl

theorem getCurrentUser_of_id (users : Users)
    (h : env.jose.decode env.settings.jwtSecretKey now token = .ok claims)
    (hid : claims.userId = some id) :
    (∀ user, users.getUserById id = some user →
        getCurrentUser env users now (some token) = .ok user) ∧
      (users.getUserById id = none → getCurrentUser env users now (some token) =
        .error (.httpException 401 "Could not validate Credentials")) := by
  obtain ⟨sub, hsub, hint, hfits⟩ := Claims.userId_eq_some hid
  constructor
  · intro user hfound
    simp only [getCurrentUser, h, hsub, hint, if_neg hfits, hfound]
  · intro hnone
    simp only [getCurrentUser, h, hsub, hint, if_neg hfits, hnone]

theorem getCurrentUser_of_no_id (users : Users)
    (h : env.jose.decode env.settings.jwtSecretKey now token = .ok claims)
    (hid : claims.userId = none) :
    getCurrentUser env users now (some token) =
      if claims.sub = none then .error (.httpException 401 "Could not validate Credentials")
      else .error .serverError := by
  unfold Claims.userId at hid
  cases hsub : claims.sub with
  | none => simp [getCurrentUser, h, hsub]
  | some sub =>
    cases hint : Python.int sub with
    | none => simp [getCurrentUser, h, hsub, hint]
    | some n =>
      simp only [hsub, hint] at hid
      split_ifs at hid with hfits
      simp [getCurrentUser, h, hsub, hint, hfits]

theorem getCurrentUserWs_of_undecoded (users : Users)
    (h : d.decodeWith env.settings.algorithm env.settings.jwtSecretKey now token = .error e) :
    ∃ detail, getCurrentUserWs env d users now (some token) =
      .error (e.becomes (.httpException 403 detail)) := by
  unfold getCurrentUserWs
  dsimp only
  split_ifs with hempty
  · rw [hempty, d.nonempty] at h
    cases h
    exact ⟨_, rfl⟩
  · rw [h]
    cases e with
    | jwtError => exact ⟨_, rfl⟩
    | other => exact ⟨"Invalid Token", rfl⟩

theorem ne_empty_of_decoded {algorithm key : String}
    (h : d.decodeWith algorithm key now token = .ok claims) : token ≠ "" := by
  rintro rfl
  rw [d.nonempty] at h
  cases h

theorem getCurrentUserWs_of_id (users : Users)
    (h : d.decodeWith env.settings.algorithm env.settings.jwtSecretKey now token = .ok claims)
    (hid : claims.userId = some id) :
    (∀ user, users.getUserById id = some user →
        getCurrentUserWs env d users now (some token) = .ok user) ∧
      (users.getUserById id = none → getCurrentUserWs env d users now (some token) =
        .error (.httpException 404 "User not Found")) := by
  obtain ⟨sub, hsub, hint, hfits⟩ := Claims.userId_eq_some hid
  have hne := ne_empty_of_decoded h
  constructor
  · intro user hfound
    simp only [getCurrentUserWs, if_neg hne, h, hsub, hint, if_neg hfits, hfound]
  · intro hnone
    simp only [getCurrentUserWs, if_neg hne, h, hsub, hint, if_neg hfits, hnone]

theorem getCurrentUserWs_of_no_id
    (h : d.decodeWith env.settings.algorithm env.settings.jwtSecretKey now token = .ok claims)
    (hid : claims.userId = none) :
    getCurrentUserWs env d users now (some token) = .error .serverError := by
  have hne := ne_empty_of_decoded h
  unfold Claims.userId at hid
  cases hsub : claims.sub with
  | none => simp [getCurrentUserWs, hne, h, hsub]
  | some sub =>
    cases hint : Python.int sub with
    | none => simp [getCurrentUserWs, hne, h, hsub, hint]
    | some n =>
      simp only [hsub, hint] at hid
      split_ifs at hid with hfits
      simp [getCurrentUserWs, hne, h, hsub, hint, hfits]

theorem not_isHttpException_serverError : ¬ IsHttpException .serverError := by
  rintro ⟨status, detail, h⟩
  cases h

theorem isHttpException_becomes {refusal : HttpError} (h : IsHttpException (e.becomes refusal)) :
    e ≠ .other := by
  rintro rfl
  exact not_isHttpException_serverError h

/-! ### One direction -/

theorem reliable_of_agree (h : Agree (getCurrentUser env users now (some token))
    (getCurrentUserWs env d users now (some token))) : Reliable env d users now token where
  raises := by
    refine ⟨fun hdec => ?_, fun hdec => ?_⟩
    · have hraise := h.http_refuses _ (getCurrentUser_of_undecoded hdec)
      exact isHttpException_becomes hraise rfl
    · obtain ⟨detail, hws⟩ := getCurrentUserWs_of_undecoded users hdec
      exact isHttpException_becomes (h.ws_refuses _ hws) rfl
  http claims hdec hsub hid := by
    have hraise := getCurrentUser_of_no_id users hdec hid
    rw [if_neg hsub] at hraise
    exact not_isHttpException_serverError (h.http_refuses _ hraise)
  ws claims hdec hid :=
    not_isHttpException_serverError (h.ws_refuses _ (getCurrentUserWs_of_no_id hdec hid))
  algorithm halg claims id hdec hid := by
    by_contra hfound
    obtain ⟨user, hfound⟩ := Option.ne_none_iff_exists'.mp hfound
    rcases hdec with hdec | hdec
    · -- the WebSocket side does not read it
      have hok := (h.same user).mp ((getCurrentUser_of_id users hdec hid).1 user hfound)
      rw [← d.hs256] at hdec
      cases hws : d.decodeWith env.settings.algorithm env.settings.jwtSecretKey now token with
      | ok claims' => exact halg (d.exclusive hws hdec)
      | error e =>
        obtain ⟨detail, hrefuse⟩ := getCurrentUserWs_of_undecoded users hws
        rw [hrefuse] at hok
        cases hok
    · have hok := (h.same user).mpr ((getCurrentUserWs_of_id users hdec hid).1 user hfound)
      cases hhttp : env.jose.decode env.settings.jwtSecretKey now token with
      | ok claims' =>
        rw [← d.hs256] at hhttp
        exact halg (d.exclusive hdec hhttp)
      | error e =>
        rw [getCurrentUser_of_undecoded hhttp] at hok
        cases hok

/-! ### The other direction -/

theorem agree_of_refused {http ws : Except HttpError User} {e e' : HttpError}
    (hhttp : http = .error e) (hws : ws = .error e') (he : IsHttpException e)
    (he' : IsHttpException e') : Agree http ws := by
  subst hhttp hws
  refine ⟨fun user => iff_of_false ?_ ?_, ?_, ?_⟩
  · rintro ⟨⟩
  · rintro ⟨⟩
  · rintro _ ⟨⟩
    exact he
  · rintro _ ⟨⟩
    exact he'

theorem agree_of_accepted {http ws : Except HttpError User} {user : User} (hhttp : http = .ok user)
    (hws : ws = .ok user) : Agree http ws := by
  subst hhttp hws
  refine ⟨fun _ => Iff.rfl, ?_, ?_⟩
  · rintro _ ⟨⟩
  · rintro _ ⟨⟩

theorem agree_of_hs256 (h : Reliable env d users now token)
    (halg : env.settings.algorithm = "HS256") :
    Agree (getCurrentUser env users now (some token))
      (getCurrentUserWs env d users now (some token)) := by
  have hsame : d.decodeWith env.settings.algorithm env.settings.jwtSecretKey now token =
      env.jose.decode env.settings.jwtSecretKey now token := by
    rw [halg, d.hs256]
  cases hdec : env.jose.decode env.settings.jwtSecretKey now token with
  | error e =>
    obtain ⟨detail, hws⟩ := getCurrentUserWs_of_undecoded users (hsame.trans hdec)
    cases e with
    | jwtError =>
      exact agree_of_refused (getCurrentUser_of_undecoded hdec) hws ⟨_, _, rfl⟩ ⟨_, _, rfl⟩
    | other => exact absurd hdec h.raises.1
  | ok claims =>
    have hws := hsame.trans hdec
    obtain ⟨id, hid⟩ := Option.ne_none_iff_exists'.mp (h.ws claims hws)
    obtain ⟨haccept, hrefuse⟩ := getCurrentUser_of_id users hdec hid
    obtain ⟨haccept', hrefuse'⟩ := getCurrentUserWs_of_id users hws hid
    cases hfound : users.getUserById id with
    | some user => exact agree_of_accepted (haccept user hfound) (haccept' user hfound)
    | none => exact agree_of_refused (hrefuse hfound) (hrefuse' hfound) ⟨_, _, rfl⟩ ⟨_, _, rfl⟩

theorem agree_of_reliable (h : Reliable env d users now token) :
    Agree (getCurrentUser env users now (some token))
      (getCurrentUserWs env d users now (some token)) := by
  by_cases halg : env.settings.algorithm = "HS256"
  · exact agree_of_hs256 h halg
  -- with two algorithms nobody is accepted on either side
  have hhttp : ∃ e, getCurrentUser env users now (some token) = .error e ∧ IsHttpException e := by
    cases hdec : env.jose.decode env.settings.jwtSecretKey now token with
    | error e =>
      cases e with
      | jwtError => exact ⟨_, getCurrentUser_of_undecoded hdec, _, _, rfl⟩
      | other => exact absurd hdec h.raises.1
    | ok claims =>
      cases hid : claims.userId with
      | some id =>
        have hnone := h.algorithm halg claims id (.inl hdec) hid
        exact ⟨_, (getCurrentUser_of_id users hdec hid).2 hnone, _, _, rfl⟩
      | none =>
        have hsub : claims.sub = none := by
          by_contra hsub
          exact h.http claims hdec hsub hid
        have hrefuse := getCurrentUser_of_no_id users hdec hid
        rw [if_pos hsub] at hrefuse
        exact ⟨_, hrefuse, _, _, rfl⟩
  have hws : ∃ e, getCurrentUserWs env d users now (some token) = .error e ∧ IsHttpException e := by
    cases hdec : d.decodeWith env.settings.algorithm env.settings.jwtSecretKey now token with
    | error e =>
      obtain ⟨detail, hrefuse⟩ := getCurrentUserWs_of_undecoded users hdec
      cases e with
      | jwtError => exact ⟨_, hrefuse, _, _, rfl⟩
      | other => exact absurd hdec h.raises.2
    | ok claims =>
      obtain ⟨id, hid⟩ := Option.ne_none_iff_exists'.mp (h.ws claims hdec)
      have hnone := h.algorithm halg claims id (.inr hdec) hid
      exact ⟨_, (getCurrentUserWs_of_id users hdec hid).2 hnone, _, _, rfl⟩
  obtain ⟨e, hhttp, he⟩ := hhttp
  obtain ⟨e', hws, he'⟩ := hws
  exact agree_of_refused hhttp hws he he'

/-! ### Tokens of `create_access_token` -/

theorem eq_of_int_toString {n : ℕ} (h : Python.int (toString n) = some id) : id = n := by
  have hsome : (Python.int (toString n)).isSome := h ▸ rfl
  rw [Python.int_toString ((Python.decimal_toString n).int_isSome.mp hsome), Option.some.injEq] at h
  exact h.symm

theorem Claims.userId_toString {n : ℕ} {exp : ℤ} :
    Claims.userId ⟨some (toString n), exp⟩ ≠ none ↔ n < 2147483648 := by
  constructor
  · intro h
    obtain ⟨id, hid⟩ := Option.ne_none_iff_exists'.mp h
    obtain ⟨sub, hsub, hint, hfits⟩ := Claims.userId_eq_some hid
    cases hsub
    have heq := eq_of_int_toString hint
    omega
  · intro hn
    have hlen : (Nat.toDigits 10 n).length ≤ 10 :=
      (Nat.length_toDigits_le_iff (by decide) (by decide)).mpr (by omega)
    have hint := Python.int_toString (hlen.trans (by decide))
    have hfits : ¬ ((n : ℤ) < -2147483648 ∨ 2147483648 ≤ (n : ℤ)) := by omega
    simp only [Claims.userId, hint, if_neg hfits]
    exact Option.some_ne_none _

theorem reliable_of_hs256 (halg : env.settings.algorithm = "HS256")
    (hraises : env.jose.decode env.settings.jwtSecretKey now token ≠ .error .other)
    (h : ∀ claims, env.jose.decode env.settings.jwtSecretKey now token = .ok claims →
      claims.userId ≠ none) : Reliable env d users now token := by
  have hsame : d.decodeWith env.settings.algorithm env.settings.jwtSecretKey now token =
      env.jose.decode env.settings.jwtSecretKey now token := by
    rw [halg, d.hs256]
  exact ⟨⟨hraises, hsame ▸ hraises⟩, fun claims hclaims _ => h claims hclaims,
    fun claims hclaims => h claims (hsame ▸ hclaims), fun hne => absurd halg hne⟩

theorem both_accept_iff (hj : env.jose.Lawful) {user : User} (hmem : user ∈ users.rows)
    {issued : ℕ} {access : String}
    (ha : createAccessToken env issued (some (toString user.id)) = some access) :
    (getCurrentUser env users now (some access) = .ok user ∧
        getCurrentUserWs env d users now (some access) = .ok user) ↔
      env.settings.algorithm = "HS256" ∧ user.id < 2147483648 ∧
        (now : ℤ) ≤ env.settings.localNow issued + env.settings.accessLifetime := by
  constructor
  · rintro ⟨hhttp, -⟩
    have halg : env.settings.algorithm = "HS256" := by
      by_contra halg
      exact getCurrentUser_refused hj halg ha users now user hhttp
    have hdec := decode_access hj halg ha now
    split_ifs at hdec with hlive
    · have hread : Claims.userId ⟨some (toString user.id),
          env.settings.localNow issued + env.settings.accessLifetime⟩ ≠ none := by
        intro hid
        have hraise := getCurrentUser_of_no_id users hdec hid
        rw [hhttp] at hraise
        cases hraise
      exact ⟨halg, Claims.userId_toString.mp hread, hlive⟩
    · rw [getCurrentUser_of_undecoded hdec] at hhttp
      cases hhttp
  · rintro ⟨halg, hid, hlive⟩
    have hhttp := (getCurrentUser_issued hj halg hmem hid ha user).mpr ⟨rfl, hlive⟩
    have hreliable : Reliable env d users now access := by
      have hdec := decode_access hj halg ha now
      rw [if_pos hlive] at hdec
      refine reliable_of_hs256 halg (fun hother => ?_) fun claims hclaims => ?_
      · rw [hdec] at hother
        cases hother
      · rw [hdec] at hclaims
        cases hclaims
        exact Claims.userId_toString.mpr hid
    exact ⟨hhttp, ((agree_of_reliable hreliable).same user).mp hhttp⟩

/-- The two agree on a token exactly when its subject, read under either algorithm, is in order,
and both accept what `create_access_token` issues exactly under `HS256`. -/
theorem authentication_agrees_iff (hj : env.jose.Lawful) :
    (Agree (getCurrentUser env users now (some token))
        (getCurrentUserWs env d users now (some token)) ↔ Reliable env d users now token) ∧
      ∀ user ∈ users.rows, ∀ issued access,
        createAccessToken env issued (some (toString user.id)) = some access →
        ((getCurrentUser env users now (some access) = .ok user ∧
            getCurrentUserWs env d users now (some access) = .ok user) ↔
          env.settings.algorithm = "HS256" ∧ user.id < 2147483648 ∧
            (now : ℤ) ≤ env.settings.localNow issued + env.settings.accessLifetime) :=
  ⟨⟨reliable_of_agree, agree_of_reliable⟩, fun _ hmem _ _ ha => both_accept_iff hj hmem ha⟩

end Agreement

/-! ### Two algorithms -/

def decodeMarked (algorithm key : String) (now : ℕ) (token : String) : Except DecodeError Claims :=
  match token.toList with
  | [] => .error .jwtError
  | '5' :: cs =>
    if algorithm = "HS512" then plainDecode key now (String.ofList cs) else .error .jwtError
  | '!' :: _ => .error .other
  | _ :: _ => if algorithm = "HS256" then plainDecode key now token else .error .jwtError

def markedJose : Jose where
  encode algorithm key claims :=
    if algorithm = "HS256" then some (String.ofList (plainText key claims))
    else if algorithm = "HS512" then some (String.ofList ('5' :: plainText key claims))
    else none
  decode := decodeMarked "HS256"

theorem decodeMarked_plain (algorithm key key' : String) (now : ℕ) (claims : Claims) :
    decodeMarked algorithm key' now (String.ofList (plainText key claims)) =
      if algorithm = "HS256" then plainDecode key' now (String.ofList (plainText key claims))
      else .error .jwtError := by
  unfold decodeMarked
  rw [String.toList_ofList]
  unfold plainText
  by_cases hneg : claims.exp < 0
  · rw [if_pos hneg]
    rfl
  · rw [if_neg hneg]
    rfl

theorem decodeMarked_marked (algorithm key key' : String) (now : ℕ) (claims : Claims) :
    decodeMarked algorithm key' now (String.ofList ('5' :: plainText key claims)) =
      if algorithm = "HS512" then plainDecode key' now (String.ofList (plainText key claims))
      else .error .jwtError := by
  unfold decodeMarked
  rw [String.toList_ofList]
  rfl

theorem markedJose_lawful : markedJose.Lawful where
  encodes key claims := by simp [markedJose]
  decodes key claims token h now := by
    cases h
    change decodeMarked "HS256" key now _ = _
    rw [decodeMarked_plain, if_pos rfl, plainDecode_text]
    simp
  refuses algorithm key claims token halg h key' now := by
    change (if algorithm = "HS256" then _ else if algorithm = "HS512" then _ else none) = _ at h
    rw [if_neg halg] at h
    split_ifs at h
    cases h
    exact decodeMarked_marked "HS256" key key' now claims
  faithful algorithm key claims token h key' now claims' hdec := by
    change (if algorithm = "HS256" then _ else if algorithm = "HS512" then _ else none) = _ at h
    change decodeMarked "HS256" key' now token = _ at hdec
    split_ifs at h
    · cases h
      rw [decodeMarked_plain, if_pos rfl, plainDecode_text] at hdec
      split_ifs at hdec
      exact (Except.ok.inj hdec).symm
    · cases h
      rw [decodeMarked_marked] at hdec
      cases hdec

theorem decodeMarked_algorithm {algorithm key token : String} {now : ℕ} {claims : Claims}
    (h : decodeMarked algorithm key now token = .ok claims) :
    algorithm = if token.toList.head? = some '5' then "HS512" else "HS256" := by
  unfold decodeMarked at h
  split at h
  · cases h
  · next hlist =>
    rw [hlist]
    split_ifs at h with halg
    exact halg
  · cases h
  · next hmark _ hlist =>
    split_ifs at h with halg
    rw [hlist, if_neg]
    · exact halg
    · exact fun hhead => hmark (Option.some.inj hhead)

def markedDecoder : Decoder markedJose where
  decodeWith := decodeMarked
  hs256 := rfl
  exclusive h h' := (decodeMarked_algorithm h).trans (decodeMarked_algorithm h').symm
  nonempty _ _ _ := rfl

def signingWith (algorithm : String) : Env :=
  { plainEnv with
    jose := markedJose
    settings := { plainEnv.settings with algorithm := algorithm } }

theorem authentication_agrees_iff_kim : ∃ access,
    createAccessToken (signingWith "HS256") 0 (some (toString kim.id)) = some access ∧
      getCurrentUser (signingWith "HS256") oneUser 0 (some access) = .ok kim ∧
      getCurrentUserWs (signingWith "HS256") markedDecoder oneUser 0 (some access) = .ok kim := by
  obtain ⟨access, ha⟩ : ∃ access,
      createAccessToken (signingWith "HS256") 0 (some (toString kim.id)) = some access := ⟨_, rfl⟩
  exact ⟨access, ha, ((@authentication_agrees_iff (signingWith "HS256") markedDecoder oneUser 0
    access markedJose_lawful).2 kim (List.mem_singleton_self _) 0 access ha).mpr
      ⟨rfl, by decide, by decide⟩⟩

theorem hs512_disagrees : ∃ access,
    createAccessToken (signingWith "HS512") 0 (some (toString kim.id)) = some access ∧
      ¬ Agree (getCurrentUser (signingWith "HS512") oneUser 0 (some access))
        (getCurrentUserWs (signingWith "HS512") markedDecoder oneUser 0 (some access)) := by
  obtain ⟨access, ha⟩ : ∃ access,
      createAccessToken (signingWith "HS512") 0 (some (toString kim.id)) = some access := ⟨_, rfl⟩
  refine ⟨access, ha, fun h => ?_⟩
  have hdec : markedDecoder.decodeWith "HS512" "access" 0 access =
      .ok ⟨some (toString kim.id), 1800⟩ := by
    cases ha
    change decodeMarked "HS512" "access" 0 (String.ofList ('5' :: plainText "access"
      ⟨some (toString kim.id), 1800⟩)) = _
    rw [decodeMarked_marked, if_pos rfl, plainDecode_text]
    rfl
  have hnobody := (reliable_of_agree h).algorithm (by decide) _ 1 (.inr hdec) (by decide)
  cases hnobody

end Nalang.Accounts
