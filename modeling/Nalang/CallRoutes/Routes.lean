import Mathlib.Data.List.Sort
import Nalang.Accounts.Auth

/-!
# The routes under `/call`

Join tokens for LiveKit rooms, the waiting mark in Redis, and the call history.
`POST /record` and `PUT /record` do not ask who is calling.
-/

namespace Nalang.CallRoutes
open Accounts

/-- What a `timestamptz` column holds, in microseconds. -/
abbrev Timestamp := ℤ

structure CallHistoryCreate where
  userId : ℤ
  partnerId : ℤ
  roomName : String
  startedAt : Timestamp
  endedAt : Timestamp
  durationSec : ℤ
  recordingUrl : Option String
  transcriptUrl : Option String
  summaryText : Option String
  deriving DecidableEq

structure CallHistory extends CallHistoryCreate where
  id : ℕ
  createdAt : Timestamp
  deriving DecidableEq

structure AudioUrlUpdate where
  roomName : String
  recordingUrl : Option String
  deriving DecidableEq

structure PartnerInfo where
  id : ℕ
  name : String
  profileImage : Option String
  deriving DecidableEq

structure CallHistoryList where
  id : ℕ
  roomName : String
  startedAt : Timestamp
  endedAt : Timestamp
  durationSec : ℤ
  partner : PartnerInfo
  deriving DecidableEq

structure State where
  users : Users
  histories : List CallHistory
  nextId : ℕ
  redis : ExpiringStore String String

/-- `livekit` tells how LiveKit answers, with the text of the exception if it raises one. -/
inductive Route
  | token (room : String)
  | waiting
  | deleteRoom (roomName : String) (livekit : Option String)
  | roomTest
  | record (historyData : CallHistoryCreate)
  | recordAudio (audioData : AudioUrlUpdate)
  | history

structure Request where
  now : ℕ
  createdAt : Timestamp
  bearer : Option String
  route : Route

inductive Response
  | accessToken (token : JoinToken)
  | status (status : String)
  | deleted (roomName : String)
  | null
  | recorded (row : CallHistory)
  | updated (count : ℕ)
  | history (items : List CallHistoryList)

/-! ### `livekit_service` and `crud` -/

def createAccessToken (env : Env) (identity roomName : String) : Except HttpError JoinToken :=
  let token : JoinToken := ⟨identity, identity, ⟨true, roomName, true, true, true⟩⟩
  if env.livekit.refuses token then .error .serverError else .ok token

def registerForCallQueue (now : ℕ) (userId : ℕ) (st : State) : String × State :=
  let key := "call:waiting:" ++ toString userId
  match st.redis.get now key with
  | some _ => ("already_waiting", st)
  | none => ("waiting", { st with redis := st.redis.set now key "waiting" 600 })

def deleteRoomInLivekit (roomName : String) (livekit : Option String) : Except HttpError Response :=
  match livekit with
  | none => .ok (.deleted roomName)
  | some e => .error (.httpException 500 ("Failed to delete room: " ++ e))

def fitsInteger (n : ℤ) : Bool := -2147483648 ≤ n && n < 2147483648

def CallHistoryCreate.texts (data : CallHistoryCreate) : List String :=
  data.roomName :: [data.recordingUrl, data.transcriptUrl, data.summaryText].reduceOption

def CallHistoryCreate.fits (data : CallHistoryCreate) : Bool :=
  fitsInteger data.userId && fitsInteger data.partnerId && fitsInteger data.durationSec &&
    data.texts.all fitsText

/-- The database takes the row: the numbers and texts fit their columns and both users exist. -/
def Storable (users : Users) (data : CallHistoryCreate) : Bool :=
  data.fits && (users.getUserById data.userId).isSome && (users.getUserById data.partnerId).isSome

def createCallHistory (createdAt : Timestamp) (historyData : CallHistoryCreate) (st : State) :
    Except HttpError CallHistory × State :=
  if Storable st.users historyData then
    let row : CallHistory := { historyData with id := st.nextId, createdAt := createdAt }
    (.ok row, { st with histories := st.histories ++ [row], nextId := st.nextId + 1 })
  else if historyData.fits then
    -- the foreign keys are checked when the sequence has moved on
    (.error .serverError, { st with nextId := st.nextId + 1 })
  else (.error .serverError, st)

def createCallHistoryWithCheck (createdAt : Timestamp) (historyData : CallHistoryCreate)
    (st : State) : Except HttpError CallHistory × State :=
  if historyData.durationSec ≤ 0 then
    (.error (.httpException 404 "Failed create record, 0초 이상 필요"), st)
  else createCallHistory createdAt historyData st

def AudioUrlUpdate.storable (data : AudioUrlUpdate) : Bool :=
  fitsText data.roomName && data.recordingUrl.all fitsText

def AudioUrlUpdate.write (data : AudioUrlUpdate) (ch : CallHistory) : CallHistory :=
  if ch.roomName = data.roomName then { ch with recordingUrl := data.recordingUrl } else ch

def updateAudioUrl (data : AudioUrlUpdate) (st : State) : Except HttpError ℕ × State :=
  if data.storable then
    (.ok (st.histories.countP fun ch => ch.roomName = data.roomName),
      { st with histories := st.histories.map data.write })
  else (.error .serverError, st)

def CallHistory.item (ch : CallHistory) (p : User) : CallHistoryList :=
  ⟨ch.id, ch.roomName, ch.startedAt, ch.endedAt, ch.durationSec, ⟨p.id, p.name, p.profileImage⟩⟩

/-- The join of the user's rows with their partners, the latest first. -/
def getHistoryList (user : User) (st : State) : List CallHistoryList :=
  let rows := (st.histories.filter fun ch => ch.userId = (user.id : ℤ)).flatMap fun ch =>
    (st.users.rows.filter fun p => ch.partnerId = (p.id : ℤ)).map (ch, ·)
  (rows.mergeSort fun a b => b.1.createdAt ≤ a.1.createdAt).map fun r => r.1.item r.2

/-! ### `call.routes` -/

section Handlers
variable (env : Env)

def Request.currentUser (users : Users) (req : Request) : Except HttpError User :=
  getCurrentUser env users req.now req.bearer

def getCallToken (room : String) (user : User) : Except HttpError Response :=
  (createAccessToken env user.email.val room).map .accessToken

def handle (st : State) (req : Request) : Except HttpError Response × State :=
  match req.route with
  | .token room =>
    match req.currentUser env st.users with
    | .error e => (.error e, st)
    | .ok user => (getCallToken env room user, st)
  | .waiting =>
    match req.currentUser env st.users with
    | .error e => (.error e, st)
    | .ok user =>
      let r := registerForCallQueue req.now user.id st
      (.ok (.status r.1), r.2)
  | .deleteRoom roomName livekit => (deleteRoomInLivekit roomName livekit, st)
  | .roomTest => (.ok .null, st)
  | .record historyData =>
    let r := createCallHistoryWithCheck req.createdAt historyData st
    (r.1.map .recorded, r.2)
  | .recordAudio audioData =>
    let r := updateAudioUrl audioData st
    (r.1.map .updated, r.2)
  | .history =>
    match req.currentUser env st.users with
    | .error e => (.error e, st)
    | .ok user => (.ok (.history (getHistoryList user st)), st)

def run (st : State) (reqs : List Request) : State :=
  reqs.foldl (fun st req => (handle env st req).2) st

end Handlers

/-! ### What a request does to the history -/

section Specs
variable {env : Env} {st : State} {req : Request}

@[simp] theorem run_nil : run env st [] = st := rfl

@[simp] theorem run_cons {reqs : List Request} :
    run env st (req :: reqs) = run env (handle env st req).2 reqs := rfl

theorem run_append {reqs reqs' : List Request} :
    run env st (reqs ++ reqs') = run env (run env st reqs) reqs' := List.foldl_append

def Request.Stores (users : Users) (req : Request) (data : CallHistoryCreate) : Prop :=
  req.route = .record data ∧ 0 < data.durationSec ∧ Storable users data

/-- A request stores a row, changes the recordings of a room, or leaves the table alone. -/
inductive Effect (st : State) (req : Request) (st' : State) : Prop
  | stores (data : CallHistoryCreate) (row : CallHistory) : req.Stores st.users data →
      row.toCallHistoryCreate = data → st'.histories = st.histories ++ [row] →
      Effect st req st'
  | records (data : AudioUrlUpdate) : req.route = .recordAudio data → data.storable = true →
      st'.histories = st.histories.map data.write → Effect st req st'
  | leaves : (∀ data, ¬ req.Stores st.users data) →
      (∀ data, req.route = .recordAudio data → data.storable = false) →
      st'.histories = st.histories → Effect st req st'

theorem registerForCallQueue_frame (now userId : ℕ) (st : State) :
    (registerForCallQueue now userId st).2.users = st.users ∧
      (registerForCallQueue now userId st).2.histories = st.histories := by
  unfold registerForCallQueue
  dsimp only
  split <;> exact ⟨rfl, rfl⟩

theorem createCallHistoryWithCheck_users (createdAt : Timestamp) (data : CallHistoryCreate)
    (st : State) : (createCallHistoryWithCheck createdAt data st).2.users = st.users := by
  unfold createCallHistoryWithCheck createCallHistory
  split_ifs <;> rfl

theorem updateAudioUrl_frame (data : AudioUrlUpdate) (st : State) :
    (updateAudioUrl data st).2.users = st.users ∧
      (updateAudioUrl data st).2.redis = st.redis ∧
        (updateAudioUrl data st).2.nextId = st.nextId := by
  unfold updateAudioUrl
  split_ifs <;> exact ⟨rfl, rfl, rfl⟩

theorem handle_users (env : Env) (st : State) (req : Request) :
    (handle env st req).2.users = st.users := by
  unfold handle
  cases req.route with
  | token room => cases req.currentUser env st.users <;> rfl
  | waiting =>
    cases req.currentUser env st.users with
    | error e => rfl
    | ok user => exact (registerForCallQueue_frame _ _ _).1
  | deleteRoom roomName livekit => rfl
  | roomTest => rfl
  | record data => exact createCallHistoryWithCheck_users _ _ _
  | recordAudio data => exact (updateAudioUrl_frame data st).1
  | history => cases req.currentUser env st.users <;> rfl

theorem handle_histories (env : Env) (st : State) (req : Request)
    (hrecord : ∀ data, req.route ≠ .record data) (haudio : ∀ data, req.route ≠ .recordAudio data) :
    (handle env st req).2.histories = st.histories := by
  unfold handle
  cases hr : req.route with
  | token room => cases req.currentUser env st.users <;> rfl
  | waiting =>
    cases req.currentUser env st.users with
    | error e => rfl
    | ok user => exact (registerForCallQueue_frame _ _ _).2
  | deleteRoom roomName livekit => rfl
  | roomTest => rfl
  | record data => exact absurd hr (hrecord data)
  | recordAudio data => exact absurd hr (haudio data)
  | history => cases req.currentUser env st.users <;> rfl

theorem run_users (env : Env) (st : State) (reqs : List Request) :
    (run env st reqs).users = st.users := by
  induction reqs generalizing st with
  | nil => rfl
  | cons req reqs ih => rw [run_cons, ih, handle_users]

theorem effect_of_record {data : CallHistoryCreate} (hr : req.route = .record data) :
    Effect st req (createCallHistoryWithCheck req.createdAt data st).2 := by
  have haudio : ∀ audio, req.route = .recordAudio audio → audio.storable = false := by
    intro audio h
    rw [hr] at h
    cases h
  have hsame : ∀ data', req.Stores st.users data' → data' = data := by
    rintro data' ⟨hr', -⟩
    rw [hr] at hr'
    exact (Route.record.inj hr').symm
  unfold createCallHistoryWithCheck createCallHistory
  split_ifs with hdur hstorable hfits
  · refine .leaves (fun data' hs => ?_) haudio rfl
    cases hsame data' hs
    exact absurd hs.2.1 (not_lt.mpr hdur)
  · exact .stores data _ ⟨hr, not_le.mp hdur, hstorable⟩ rfl rfl
  · refine .leaves (fun data' hs => ?_) haudio rfl
    cases hsame data' hs
    exact hstorable hs.2.2
  · refine .leaves (fun data' hs => ?_) haudio rfl
    cases hsame data' hs
    exact hstorable hs.2.2

theorem effect_of_handle (env : Env) (st : State) (req : Request) :
    Effect st req (handle env st req).2 := by
  by_cases hrecord : ∃ data, req.route = .record data
  · obtain ⟨data, hr⟩ := hrecord
    unfold handle
    rw [hr]
    exact effect_of_record hr
  · by_cases haudio : ∃ data, req.route = .recordAudio data
    · obtain ⟨data, hr⟩ := haudio
      unfold handle
      rw [hr]
      dsimp only
      unfold updateAudioUrl
      split_ifs with hfits
      · exact .records data hr hfits rfl
      · refine .leaves (fun data' hs => hrecord ⟨data', hs.1⟩) (fun data' hr' => ?_) rfl
        cases hr.symm.trans hr'
        exact Bool.not_eq_true _ ▸ hfits
    · have hrecord' : ∀ data, req.route ≠ .record data := fun data h => hrecord ⟨data, h⟩
      have haudio' : ∀ data, req.route ≠ .recordAudio data := fun data h => haudio ⟨data, h⟩
      exact .leaves (fun data hs => hrecord' data hs.1) (fun data hr => absurd hr (haudio' data))
        (handle_histories env st req hrecord' haudio')

end Specs

end Nalang.CallRoutes
