import Nalang.Accounts.Data
import Nalang.Python.IntLiteral

/-!
# The authentication routes

Registration, login and the four social callbacks hand out an access token and a
refresh token. Redis maps a refresh token to the user it belongs to.
-/

namespace Nalang.Accounts

structure State where
  users : Users
  redis : ExpiringStore String String
  /-- UTC, in seconds -/
  now : ℕ

structure RegisterRequest where
  email : EmailStr
  name : String
  password : Option String
  provider : Option String
  profileImage : Option String
  name_length : 2 ≤ name.length ∧ name.length ≤ 30
  password_length : ∀ p ∈ password, 8 ≤ p.length

/-- The database takes the texts. The e-mail and a hash always fit. -/
def RegisterRequest.storable (userIn : RegisterRequest) : Bool :=
  fitsText userIn.name && userIn.profileImage.all fitsText && userIn.provider.all fitsText

structure Tokens where
  access : String
  refresh : String
  deriving DecidableEq

/-! ### What the providers answer -/

/-- The value of a key of a JSON object. `str` is what a value that is no string is formatted to. -/
inductive JsonField
  | absent
  | null
  | text (s : String)
  | other (str : String)
  deriving DecidableEq

namespace JsonField

def item : JsonField → Except HttpError JsonField
  | absent => .error .serverError
  | v => .ok v

def getD (v default : JsonField) : JsonField :=
  match v with
  | absent => default
  | v => v

def format : JsonField → String
  | text s => s
  | other str => str
  | _ => "None"

end JsonField

/-- A code turned into a profile. Without an access token, or where the answer is no object, the
handler fails. -/
structure Exchange (π : Type) where
  code : Option String
  tokenStatus : ℕ
  accessToken : Option String
  profileStatus : ℕ
  profile : Option π

structure GoogleProfile where
  email : JsonField
  name : JsonField
  picture : JsonField

structure LineProfile where
  userId : JsonField
  displayName : JsonField
  pictureUrl : JsonField

structure KakaoAccount where
  email : JsonField
  nickname : JsonField
  profileImageUrl : JsonField

structure KakaoProfile where
  id : JsonField
  account : KakaoAccount

structure NaverProfile where
  email : JsonField
  name : JsonField
  profileImage : JsonField

section Handlers
variable (env : Env)

/-! ### `core.security` -/

def createAccessToken (now : ℕ) (sub : Option String) : Option String :=
  env.jose.encode env.settings.algorithm env.settings.jwtSecretKey
    ⟨sub, env.settings.localNow now + 60 * env.settings.accessTokenExpireMinutes⟩

def createRefreshToken (now : ℕ) (sub : Option String) : Option String :=
  env.jose.encode env.settings.algorithm env.settings.jwtRefreshSecretKey
    ⟨sub, env.settings.localNow now + 24 * 60 * 60 * env.settings.refreshTokenExpireDays⟩

/-- `token` is what the `Authorization` header carries. The driver refuses an id that does not fit
the column. -/
def getCurrentUser (users : Users) (now : ℕ) (token : Option String) : Except HttpError User :=
  let credentialsException := .httpException 401 "Could not validate Credentials"
  match token with
  | none => .error (.httpException 401 "Not authenticated")
  | some token =>
    match env.jose.decode env.settings.jwtSecretKey now token with
    | .error .jwtError => .error credentialsException
    | .error .other => .error .serverError
    | .ok payload =>
      match payload.sub with
      | none => .error credentialsException
      | some userId =>
        match Python.int userId with
        | none => .error .serverError
        | some id =>
          if id < -2147483648 ∨ 2147483648 ≤ id then .error .serverError
          else
            match users.getUserById id with
            | none => .error credentialsException
            | some user => .ok user

/-! ### `user.crud` and `auth.routes` -/

def Users.add (t : Users) (userIn : RegisterRequest) (hashedPwd : Option String) :
    Except HttpError User × Users :=
  if userIn.storable then
    match t.insert ⟨0, userIn.email, hashedPwd, userIn.name, userIn.profileImage,
        userIn.provider, none⟩ with
    | (none, t') => (.error .serverError, t')
    | (some newUser, t') => (.ok newUser, t')
  else (.error .serverError, t)

def createUser (salt : String) (userIn : RegisterRequest) (t : Users) :
    Except HttpError User × Users :=
  match userIn.password with
  | none => t.add userIn none
  | some password =>
    if password = "" then t.add userIn none
    else
      match env.crypt.hash salt password with
      | none => (.error .serverError, t)
      | some hashedPwd => t.add userIn (some hashedPwd)

def createTokens (now : ℕ) (user : User) : Except HttpError Tokens :=
  match createAccessToken env now (some (toString user.id)) with
  | none => .error .serverError
  | some access =>
    match createRefreshToken env now (some (toString user.id)) with
    | none => .error .serverError
    | some refresh => .ok ⟨access, refresh⟩

def registerUser (salt : String) (userIn : RegisterRequest) (st : State) :
    Except HttpError (User × Tokens) × State :=
  match st.users.getUserByEmail userIn.email.val with
  | some _ => (.error (.httpException 400 "Existing Email"), st)
  | none =>
    match createUser env salt userIn st.users with
    | (.error e, t) => (.error e, { st with users := t })
    | (.ok user, t) =>
      ((createTokens env st.now user).map (user, ·), { st with users := t })

/-! ### `auth.services` -/

def refreshTtl : ℕ := 7 * 24 * 60 * 60

/-- The end of `login_user` and of the callbacks. The row is the one whose id the tokens carry. -/
def issueTokens (user : User) (st : State) : Except HttpError (User × Tokens) × State :=
  match createTokens env st.now user with
  | .error e => (.error e, st)
  | .ok tokens =>
    (.ok (user, tokens),
      { st with redis := st.redis.set st.now tokens.refresh (toString user.id) refreshTtl })

def loginUser (email password : String) (st : State) : Except HttpError (User × Tokens) × State :=
  let invalid := .error (.httpException 400 "Invalid Credential")
  if fitsText email then
    match st.users.getUserByEmail email with
    | none => (invalid, st)
    | some user =>
      match user.hashedPassword with
      | none => (invalid, st)
      | some hashed =>
        match env.crypt.verify password hashed with
        | none => (.error .serverError, st)
        | some false => (invalid, st)
        | some true => issueTokens env user st
  else (.error .serverError, st)

def refreshAccessToken (refreshToken : String) (st : State) : Except HttpError Tokens :=
  match env.jose.decode env.settings.jwtRefreshSecretKey st.now refreshToken with
  | .error .jwtError => .error (.httpException 401 "Unauthorized")
  | .error .other => .error .serverError
  | .ok payload =>
    if st.redis.get st.now refreshToken = payload.sub then
      match createAccessToken env st.now payload.sub with
      | none => .error .serverError
      | some access => .ok ⟨access, refreshToken⟩
    else .error (.httpException 401 "Mismatch Refresh Token")

def logoutUser (refreshToken : String) (st : State) : State :=
  { st with redis := st.redis.delete refreshToken }

/-! ### The callbacks -/

def Exchange.fetched {π : Type} (x : Exchange π) : Except HttpError π :=
  match x.accessToken, x.profile with
  | some _, some profile => .ok profile
  | _, _ => .error .serverError

def Exchange.checked {π : Type} (x : Exchange π) : Except HttpError π :=
  if x.code.getD "" = "" then .error (.httpException 400 "Code not Provided")
  else if x.tokenStatus ≠ 200 then .error (.httpException 400 "Google Token request Failed")
  else if x.accessToken = none then .error .serverError
  else if x.profileStatus ≠ 200 then .error (.httpException 400 "Google userinfo fetch Failed")
  else x.fetched

def Users.getUserByField (t : Users) : JsonField → Except HttpError (Option User)
  | .text s => if fitsText s then .ok (t.getUserByEmail s) else .error .serverError
  | .other _ => .error .serverError
  | _ => .ok none

/-- pydantic's check of the fields; a `ValidationError` is not caught by the callbacks. -/
def RegisterRequest.validate (provider : String) (email name profileImage : JsonField) :
    Except HttpError RegisterRequest :=
  match email, name with
  | .text email, .text name =>
    match env.emailStr email with
    | none => .error .serverError
    | some email =>
      if h : 2 ≤ name.length ∧ name.length ≤ 30 then
        match profileImage with
        | .text image => .ok ⟨email, name, none, provider, image, h, fun _ h => by cases h⟩
        | .null => .ok ⟨email, name, none, provider, none, h, fun _ h => by cases h⟩
        | _ => .error .serverError
      else .error .serverError
  | _, _ => .error .serverError

abbrev Account := User ⊕ RegisterRequest

def existingOr (provider : String) (email name profileImage : JsonField) (t : Users) :
    Except HttpError Account := do
  match ← t.getUserByField email with
  | some user => return .inl user
  | none => return .inr (← RegisterRequest.validate env provider email name profileImage)

/-- The request to register is built for an existing user too. -/
def googleAccount (x : Exchange GoogleProfile) (t : Users) : Except HttpError Account := do
  let userInfo ← x.checked
  let email ← userInfo.email.item
  let name ← userInfo.name.item
  let profileImage ← userInfo.picture.item
  let user ← t.getUserByField email
  let userData ← RegisterRequest.validate env "google" email name profileImage
  match user with
  | some user => return .inl user
  | none => return .inr userData

def lineEmail (userId : JsonField) : String := userId.format ++ "@line.com"

def lineAccount (x : Exchange LineProfile) (t : Users) : Except HttpError Account := do
  let profile ← x.fetched
  let userId ← profile.userId.item
  let name ← profile.displayName.item
  let profileImage ← profile.pictureUrl.item
  existingOr env "line" (.text (lineEmail userId)) name profileImage t

def kakaoEmail (id : JsonField) : String := id.format ++ "@kakao.com"

def kakaoAccount (x : Exchange KakaoProfile) (t : Users) : Except HttpError Account := do
  let profile ← x.fetched
  let id ← profile.id.item
  let email := profile.account.email.getD (.text (kakaoEmail id))
  let name := profile.account.nickname.getD (.text "Unknown")
  let profileImage := profile.account.profileImageUrl.getD .null
  existingOr env "kakao" email name profileImage t

def naverAccount (x : Exchange NaverProfile) (t : Users) : Except HttpError Account := do
  let userInfo ← x.fetched
  let email ← userInfo.email.item
  let name ← userInfo.name.item
  let profileImage ← userInfo.profileImage.item
  existingOr env "naver" email name profileImage t

def signIn (salt : String) (account : Except HttpError Account) (st : State) :
    Except HttpError (User × Tokens) × State :=
  match account with
  | .error e => (.error e, st)
  | .ok (.inl user) => issueTokens env user st
  | .ok (.inr userData) =>
    match createUser env salt userData st.users with
    | (.error e, t) => (.error e, { st with users := t })
    | (.ok user, t) => issueTokens env user { st with users := t }

def handleGoogleCallback (salt : String) (x : Exchange GoogleProfile) (st : State) :
    Except HttpError (User × Tokens) × State :=
  signIn env salt (googleAccount env x st.users) st

def handleLineCallback (salt : String) (x : Exchange LineProfile) (st : State) :
    Except HttpError (User × Tokens) × State :=
  signIn env salt (lineAccount env x st.users) st

def handleKakaoCallback (salt : String) (x : Exchange KakaoProfile) (st : State) :
    Except HttpError (User × Tokens) × State :=
  signIn env salt (kakaoAccount env x st.users) st

def handleNaverCallback (salt : String) (x : Exchange NaverProfile) (st : State) :
    Except HttpError (User × Tokens) × State :=
  signIn env salt (naverAccount env x st.users) st

end Handlers

end Nalang.Accounts
