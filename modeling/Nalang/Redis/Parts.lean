import Nalang.Accounts.Requests
import Nalang.CallRoutes.CallSocket
import Nalang.Library.StoreViews

/-!
# The keys in Redis

The refresh tokens, the records of the matchmaking and the marks of the users who wait for a
call are kept in one Redis. A token is its own key; the other keys begin with `call:`. The routes
do the same whether or not the other keys are there.
-/

namespace Nalang.Redis
open Transition
open Matchmaking (UserId Socket CallRecord PyError)

/-! ### The keys -/

/-- `f"call:user:{id}"` -/
def userKey (id : UserId) : String := "call:user:" ++ toString id.val

def waitingKey (id : ℕ) : String := "call:waiting:" ++ toString id

def IsCallKey (key : String) : Prop := "call:".toList <+: key.toList

def IsTokenKey (key : String) : Prop := ¬ IsCallKey key

def IsWaitingKey (key : String) : Prop := "call:waiting:".toList <+: key.toList

instance : DecidablePred IsCallKey := fun _ => inferInstanceAs (Decidable (_ <+: _))

instance : DecidablePred IsTokenKey := fun _ => inferInstanceAs (Decidable (¬ _))

instance : DecidablePred IsWaitingKey := fun _ => inferInstanceAs (Decidable (_ <+: _))

theorem isCallKey_userKey (id : UserId) : IsCallKey (userKey id) := by
  unfold IsCallKey userKey
  rw [String.toList_append]
  exact List.IsPrefix.trans (by decide) (List.prefix_append _ _)

theorem isWaitingKey_waitingKey (id : ℕ) : IsWaitingKey (waitingKey id) := by
  unfold IsWaitingKey waitingKey
  rw [String.toList_append]
  exact List.prefix_append _ _

theorem isCallKey_of_waiting {key : String} (h : IsWaitingKey key) : IsCallKey key :=
  List.IsPrefix.trans (by decide) h

theorem not_isWaitingKey_userKey (id : UserId) : ¬ IsWaitingKey (userKey id) := by
  intro h
  have hlong : "call:user:".toList <+: (userKey id).toList := by
    unfold userKey
    rw [String.toList_append]
    exact List.prefix_append _ _
  have hboth := List.prefix_of_prefix_length_le hlong h (by decide)
  revert hboth
  decide

theorem userKey_inj : Function.Injective userKey := by
  intro u v h
  have hl := congrArg String.toList h
  unfold userKey at hl
  simp only [String.toList_append, Nat.toString_eq_repr, Nat.toList_repr] at hl
  have hdigits := List.append_cancel_left hl
  have hn := congrArg (fun ds => Nat.ofDigitChars 10 ds 0) hdigits
  apply Matchmaking.UserId.ext_val
  simpa only [Nat.ofDigitChars_ten_toDigits] using hn

/-- `json.dumps` and `json.loads` as the matchmaking uses them: they lose nothing, and an empty text
is no JSON. -/
structure RecordText where
  dumps : CallRecord → String
  loads : String → Option CallRecord
  loads_dumps : ∀ record, loads (dumps record) = some record
  loads_empty : loads "" = none

def RecordText.codec (json : RecordText) : ExpiringStore.Codec UserId CallRecord String String :=
  ⟨userKey, json.dumps, json.loads, userKey_inj, json.loads_dumps⟩

/-- Tokens are not taken for the other keys, and what begins like them is no token. -/
structure TokensApart (jose : Accounts.Jose) : Prop where
  encodes : ∀ algorithm key claims token, jose.encode algorithm key claims = some token →
    IsTokenKey token
  decodes : ∀ key now token claims, jose.decode key now token = .ok claims → IsTokenKey token

end Nalang.Redis

/-! ### The refresh tokens -/

namespace Nalang.Accounts
open Redis

def State.apart (st : State) : State :=
  { st with redis := st.redis.restrict IsTokenKey }

section Apart
variable {env : Env} (h : TokensApart env.jose)
include h

theorem createTokens_apart {now : ℕ} {user : User} {tokens : Tokens}
    (htokens : createTokens env now user = .ok tokens) : IsTokenKey tokens.refresh := by
  unfold createTokens at htokens
  cases haccess : createAccessToken env now (some (toString user.id)) with
  | none =>
    rw [haccess] at htokens
    cases htokens
  | some access =>
    rw [haccess] at htokens
    cases hrefresh : createRefreshToken env now (some (toString user.id)) with
    | none =>
      rw [hrefresh] at htokens
      cases htokens
    | some refresh =>
      rw [hrefresh] at htokens
      cases htokens
      exact h.encodes _ _ _ _ hrefresh

theorem issueTokens_apart (user : User) (st : State) :
    issueTokens env user st.apart =
      ((issueTokens env user st).1, (issueTokens env user st).2.apart) := by
  have hnow : st.apart.now = st.now := rfl
  unfold issueTokens
  rw [hnow]
  cases htokens : createTokens env st.now user with
  | error e => rfl
  | ok tokens =>
    unfold State.apart
    rw [ExpiringStore.restrict_set (createTokens_apart h htokens)]

theorem loginUser_apart (email password : String) (st : State) :
    loginUser env email password st.apart =
      ((loginUser env email password st).1, (loginUser env email password st).2.apart) := by
  have husers : st.apart.users = st.users := rfl
  unfold loginUser
  rw [husers]
  split_ifs
  case neg => rfl
  cases st.users.getUserByEmail email with
  | none => rfl
  | some user =>
    dsimp only
    cases user.hashedPassword with
    | none => rfl
    | some hashed =>
      dsimp only
      cases env.crypt.verify password hashed with
      | none => rfl
      | some verified =>
        cases verified with
        | false => rfl
        | true => exact issueTokens_apart h user st

theorem signIn_apart (salt : String) (account : Except HttpError Account) (st : State) :
    signIn env salt account st.apart =
      ((signIn env salt account st).1, (signIn env salt account st).2.apart) := by
  unfold signIn
  cases account with
  | error e => rfl
  | ok account =>
    cases account with
    | inl user => exact issueTokens_apart h user st
    | inr userData =>
      have husers : st.apart.users = st.users := rfl
      dsimp only
      rw [husers]
      obtain ⟨created, t⟩ := createUser env salt userData st.users
      cases created with
      | error e => rfl
      | ok user => exact issueTokens_apart h user { st with users := t }

theorem refreshAccessToken_apart (refreshToken : String) (st : State) :
    refreshAccessToken env refreshToken st.apart = refreshAccessToken env refreshToken st := by
  have hnow : st.apart.now = st.now := rfl
  unfold refreshAccessToken
  rw [hnow]
  cases hdecode : env.jose.decode env.settings.jwtRefreshSecretKey st.now refreshToken with
  | error e => cases e <;> rfl
  | ok payload =>
    have hget : st.apart.redis.get st.now refreshToken = st.redis.get st.now refreshToken :=
      ExpiringStore.restrict_get (h.decodes _ _ _ _ hdecode)
    dsimp only
    rw [hget]

omit h in
theorem registerUser_apart (salt : String) (userIn : RegisterRequest) (st : State) :
    registerUser env salt userIn st.apart =
      ((registerUser env salt userIn st).1, (registerUser env salt userIn st).2.apart) := by
  have husers : st.apart.users = st.users := rfl
  unfold registerUser
  rw [husers]
  cases st.users.getUserByEmail userIn.email.val with
  | some user => rfl
  | none =>
    obtain ⟨created, t⟩ := createUser env salt userIn st.users
    cases created with
    | error e => rfl
    | ok user => rfl

theorem handle_apart (st : State) (req : Request) :
    handle env st.apart req = ((handle env st req).1, (handle env st req).2.apart) := by
  cases req with
  | register salt userIn => exact congrArg granted (registerUser_apart salt userIn st)
  | login username password => exact congrArg granted (loginUser_apart h username password st)
  | google salt x => exact congrArg granted (signIn_apart h salt _ st)
  | line salt x => exact congrArg granted (signIn_apart h salt _ st)
  | kakao salt x => exact congrArg granted (signIn_apart h salt _ st)
  | naver salt x => exact congrArg granted (signIn_apart h salt _ st)
  | refresh refreshToken =>
    have hsame := refreshAccessToken_apart h refreshToken st
    exact congrArg (fun r : Except HttpError Tokens => (r.map Response.refreshed, st.apart)) hsame
  | logout refreshToken =>
    have hdelete : (logoutUser refreshToken st).apart = logoutUser refreshToken st.apart := by
      unfold logoutUser State.apart
      dsimp only
      rw [ExpiringStore.restrict_delete]
    exact congrArg (fun st' : State => (Except.ok Response.done, st')) hdelete.symm
  | elapse seconds => rfl

theorem handle_frame {st st' : State} {req : Request} {answer : Answer}
    (hreq : ∀ seconds, req ≠ .elapse seconds) (hlogout : ∀ token, req = .logout token →
      IsTokenKey token) (hst : handle env st req = (answer, st')) :
    st.redis.AgreeOff IsTokenKey st'.redis ∧ st'.now = st.now := by
  have heffect := effect_of_handle env st req
  rw [hst] at heffect
  cases heffect with
  | refused _ _ => exact ⟨.refl _, rfl⟩
  | tokenless _ _ _ => exact ⟨.refl _, rfl⟩
  | registers _ _ _ _ => exact ⟨.refl _, rfl⟩
  | signsIn _ _ _ htokens =>
    exact ⟨ExpiringStore.agreeOff_set (createTokens_apart h htokens), rfl⟩
  | refreshes _ => exact ⟨.refl _, rfl⟩
  | logsOut => exact ⟨ExpiringStore.agreeOff_delete (hlogout _ rfl), rfl⟩
  | elapses => exact absurd rfl (hreq _)

end Apart

end Nalang.Accounts

/-! ### The marks -/

namespace Nalang.CallRoutes
open Redis

def State.apart (st : State) : State := { st with redis := st.redis.restrict IsWaitingKey }

def CallServer.apart (s : CallServer) : CallServer := { s with state := s.state.apart }

section Apart
variable {env : Accounts.Env} {st : State}

theorem registerForCallQueue_apart (now userId : ℕ) (st : State) :
    registerForCallQueue now userId st.apart =
      ((registerForCallQueue now userId st).1, (registerForCallQueue now userId st).2.apart) := by
  have hkey : IsWaitingKey ("call:waiting:" ++ toString userId) := isWaitingKey_waitingKey userId
  unfold registerForCallQueue State.apart
  dsimp only
  rw [ExpiringStore.restrict_get hkey]
  cases st.redis.get now ("call:waiting:" ++ toString userId) with
  | some mark => rfl
  | none =>
    dsimp only
    rw [ExpiringStore.restrict_set hkey]

theorem createCallHistoryWithCheck_apart (createdAt : Timestamp) (data : CallHistoryCreate)
    (st : State) : createCallHistoryWithCheck createdAt data st.apart =
      ((createCallHistoryWithCheck createdAt data st).1,
        (createCallHistoryWithCheck createdAt data st).2.apart) := by
  unfold createCallHistoryWithCheck createCallHistory
  have husers : st.apart.users = st.users := rfl
  rw [husers]
  split_ifs <;> rfl

theorem updateAudioUrl_apart (data : AudioUrlUpdate) (st : State) :
    updateAudioUrl data st.apart =
      ((updateAudioUrl data st).1, (updateAudioUrl data st).2.apart) := by
  unfold updateAudioUrl
  split_ifs <;> rfl

theorem handle_apart (st : State) (req : Request) :
    handle env st.apart req = ((handle env st req).1, (handle env st req).2.apart) := by
  have husers : st.apart.users = st.users := rfl
  unfold handle
  rw [husers]
  cases req.route with
  | token room => cases req.currentUser env st.users <;> rfl
  | waiting =>
    cases req.currentUser env st.users with
    | error e => rfl
    | ok user =>
      dsimp only
      rw [registerForCallQueue_apart]
  | deleteRoom roomName livekit => rfl
  | roomTest => rfl
  | record data =>
    dsimp only
    rw [createCallHistoryWithCheck_apart]
  | recordAudio data =>
    dsimp only
    rw [updateAudioUrl_apart]
  | history => cases req.currentUser env st.users <;> rfl

theorem setMark_apart (now userId : ℕ) (st : State) :
    setMark now userId st.apart = (setMark now userId st).apart := by
  have hkey : IsWaitingKey ("call:waiting:" ++ toString userId) := isWaitingKey_waitingKey userId
  unfold setMark State.apart
  dsimp only
  rw [ExpiringStore.restrict_set hkey]

theorem deleteMark_apart (userId : ℕ) (st : State) :
    deleteMark userId st.apart = (deleteMark userId st).apart := by
  unfold deleteMark State.apart
  dsimp only
  rw [ExpiringStore.restrict_delete]

theorem handle_agreeOff (st : State) (req : Request) :
    st.redis.AgreeOff IsWaitingKey (handle env st req).2.redis := by
  unfold handle
  cases req.route with
  | token room => cases req.currentUser env st.users <;> exact .refl _
  | waiting =>
    cases req.currentUser env st.users with
    | error e => exact .refl _
    | ok user =>
      dsimp only
      unfold registerForCallQueue
      dsimp only
      split
      · exact .refl _
      · exact ExpiringStore.agreeOff_set (isWaitingKey_waitingKey user.id)
  | deleteRoom roomName livekit => exact .refl _
  | roomTest => exact .refl _
  | record data =>
    dsimp only
    unfold createCallHistoryWithCheck createCallHistory
    split_ifs <;> exact .refl _
  | recordAudio data => exact (updateAudioUrl_frame data st).2.1 ▸ .refl _
  | history => cases req.currentUser env st.users <;> exact .refl _

theorem CallServer.step_frame {s s' : CallServer} {e : CallEvent}
    (husers : ∀ t, e ≠ .users t) (hs : s.step env e = some s') :
    s.state.redis.AgreeOff IsWaitingKey s'.state.redis ∧ s'.state.users = s.state.users := by
  have hdelete : ∀ id st, State.redis st = s.state.redis → s.state.redis.AgreeOff IsWaitingKey
      (deleteMark id st).redis := by
    intro id st hst
    exact hst ▸ ExpiringStore.agreeOff_delete (isWaitingKey_waitingKey id)
  cases e with
  | request req =>
    cases hs
    exact ⟨handle_agreeOff _ _, handle_users _ _ _⟩
  | users t => exact absurd rfl (husers t)
  | connect ws userId now =>
    unfold CallServer.step at hs
    dsimp only at hs
    split_ifs at hs
    cases hs
    exact ⟨ExpiringStore.agreeOff_set (isWaitingKey_waitingKey userId), rfl⟩
  | close ws =>
    unfold CallServer.step at hs
    dsimp only at hs
    cases hu : s.sockets.get? ws with
    | none =>
      rw [hu] at hs
      cases hs
    | some userId =>
      rw [hu] at hs
      cases hs
      exact ⟨hdelete userId _ rfl, rfl⟩
  | text ws data failure =>
    unfold CallServer.step at hs
    dsimp only at hs
    cases hu : s.sockets.get? ws with
    | none =>
      rw [hu] at hs
      cases hs
    | some userId =>
      rw [hu] at hs
      dsimp only at hs
      have hcancel : s.state.redis.AgreeOff IsWaitingKey
          (if data = "cancel" then deleteMark userId s.state else s.state).redis ∧
          (if data = "cancel" then deleteMark userId s.state else s.state).users =
            s.state.users := by
        split_ifs
        · exact ⟨hdelete userId _ rfl, rfl⟩
        · exact ⟨.refl _, rfl⟩
      cases failure with
      | none =>
        cases hs
        exact hcancel
      | some e =>
        have hgone := hcancel.1.trans (ExpiringStore.agreeOff_delete
          (isWaitingKey_waitingKey userId))
        cases e <;> cases hs <;> first | exact hcancel | exact ⟨hgone, hcancel.2⟩

theorem CallServer.step_apart (s : CallServer) (e : CallEvent) :
    s.apart.step env e = (s.step env e).map CallServer.apart := by
  cases e with
  | request req =>
    change some { s.apart with state := (handle env s.state.apart req).2 } = _
    rw [handle_apart]
    rfl
  | users t => rfl
  | connect ws userId now =>
    unfold CallServer.step CallServer.apart
    dsimp only
    rw [setMark_apart]
    split_ifs <;> rfl
  | text ws data failure =>
    unfold CallServer.step CallServer.apart
    dsimp only
    cases s.sockets.get? ws with
    | none => rfl
    | some userId =>
      dsimp only
      have hcancel : (if data = "cancel" then deleteMark userId s.state.apart else s.state.apart) =
          (if data = "cancel" then deleteMark userId s.state else s.state).apart := by
        split_ifs
        · exact deleteMark_apart userId s.state
        · rfl
      rw [hcancel]
      cases failure with
      | none => rfl
      | some e =>
        cases e <;> first | rfl | (dsimp only; rw [deleteMark_apart]; rfl)
  | close ws =>
    unfold CallServer.step CallServer.apart
    dsimp only
    cases s.sockets.get? ws with
    | none => rfl
    | some userId =>
      dsimp only
      rw [deleteMark_apart]
      rfl

end Apart

end Nalang.CallRoutes
