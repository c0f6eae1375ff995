import Mathlib.Algebra.Order.Field.Rat
import Mathlib.Data.List.DropRight
import Nalang.Library.Program

/-!
# The recording of a job

`agent.py` asks the egress service for a recording and asks again after a failure that
may pass. Such a failure does not tell whether the recording has been started. An
answer of the service is given here with this hidden part, which no program reads.
-/

namespace Nalang.Agent
open Interaction Transition

inductive RpcError
  | twirp (code : String)
  | other
  deriving DecidableEq

def retryableCodes : List String := ["unavailable", "internal", "deadline_exceeded"]

def RpcError.retryable : RpcError → Bool
  | .twirp code => code ∈ retryableCodes
  | .other => false

structure EgressInfo where
  egressId : String
  deriving DecidableEq

/-- A call of the service, and whether it has started an egress. It has not if the service has
refused the call. -/
structure Attempt where
  outcome : Except RpcError EgressInfo
  effect : Bool
  effect_of_ok : ∀ info, outcome = .ok info → effect = true
  no_effect : ∀ code, outcome = .error (.twirp code) → code ∉ retryableCodes → effect = false

def Attempt.Failed (a : Attempt) : Prop := ∃ error, a.outcome = .error error

structure S3Upload where
  bucket : String
  region : String
  accessKey : String
  secret : String

structure EgressRequest where
  roomName : String
  audioOnly : Bool
  audioCodec : String
  audioBitrate : ℕ
  fileType : String
  filepath : String
  s3 : S3Upload

structure ShutdownCallback where
  roomName : String
  audioS3Key : String

structure Payload where
  roomName : String
  recordingUrl : String

inductive Op
  | connect
  | waitForParticipant
  | strftime
  | startRoomCompositeEgress (req : EgressRequest)
  | sleep (seconds : ℚ)
  | addShutdownCallback (callback : ShutdownCallback)
  | waitS3ObjectExists (bucket key : String)
  | put (url : String) (payload : Payload)

abbrev Op.Answer : Op → Type
  | .connect => Except String Unit
  | .waitForParticipant => Except String Unit
  | .strftime => String
  | .startRoomCompositeEgress _ => Attempt
  | .waitS3ObjectExists _ _ => Except String Bool
  | _ => Unit

abbrev perform (op : Op) : Program Op.Answer op.Answer := .perform op

/-! ### `start_egress_with_retry` -/

def egressLoop (req : EgressRequest) :
    ℕ → ℚ → Program Op.Answer (Except RpcError (Option EgressInfo))
  | 0, _ => return .ok none
  | left + 1, delay => do
    let attempt : Attempt ← perform (.startRoomCompositeEgress req)
    match attempt.outcome with
    | .ok res => return .ok (some res)
    | .error e =>
      if e.retryable ∧ 0 < left then
        let _ ← perform (.sleep delay)
        egressLoop req left (delay * 1.5)
      else return .error e

def startEgressWithRetry (req : EgressRequest) (retries : ℕ) :
    Program Op.Answer (Except RpcError (Option EgressInfo)) :=
  egressLoop req retries 1

/-! ### `entrypoint` -/

structure Env where
  s3Bucket : String
  s3Region : String
  s3AccessKey : String
  s3SecretKey : String
  audioPrefix : String
  waitForParticipant : Bool
  callRecordApi : String

namespace Env

def missing (env : Env) : Option String :=
  ([("S3_BUCKET_NAME", env.s3Bucket), ("S3_REGION", env.s3Region),
    ("S3_ACCESS_KEY", env.s3AccessKey), ("S3_SECRET_KEY", env.s3SecretKey)].find?
      fun x => x.2 = "").map Prod.fst

def strippedPrefix (env : Env) : String :=
  let slash : Char → Bool := (· = '/')
  String.ofList ((env.audioPrefix.toList.dropWhile slash).rdropWhile slash)

def audioS3Key (env : Env) (roomName ts : String) : String :=
  let basename := roomName ++ "_" ++ ts ++ ".ogg"
  if env.strippedPrefix = "" then basename else env.strippedPrefix ++ "/" ++ basename

def egressRequest (env : Env) (roomName audioS3Key : String) : EgressRequest where
  roomName := roomName
  audioOnly := true
  audioCodec := "OPUS"
  audioBitrate := 24
  fileType := "OGG"
  filepath := audioS3Key
  s3 := ⟨env.s3Bucket, env.s3Region, env.s3AccessKey, env.s3SecretKey⟩

def payload (env : Env) (roomName audioS3Key : String) : Payload where
  roomName := roomName
  recordingUrl :=
    "https://" ++ env.s3Bucket ++ ".s3." ++ env.s3Region ++ ".amazonaws.com/" ++ audioS3Key

end Env

def recordRoom (env : Env) (roomName ts : String) (retries : ℕ) :
    Program Op.Answer (Except String Unit) := do
  let key := env.audioS3Key roomName ts
  let res ← startEgressWithRetry (env.egressRequest roomName key) retries
  match res with
  | .error _ => return .ok ()
  | .ok none => return .error "'NoneType' object has no attribute 'egress_id'"
  | .ok (some _) =>
    let _ ← perform (.addShutdownCallback ⟨roomName, key⟩)
    return .ok ()

def enter (env : Env) (roomName : String) (retries : ℕ) (joined : Except String Unit) :
    Program Op.Answer (Except String Unit) :=
  match joined with
  | .error e => return .error e
  | .ok () => do
    let ts : String ← perform .strftime
    recordRoom env roomName ts retries

/-- The number of retries is the default of `start_egress_with_retry` in the source, 3. -/
def entrypoint (env : Env) (roomName : String) (retries : ℕ) :
    Program Op.Answer (Except String Unit) :=
  match env.missing with
  | some key => return .error ("Missing env var: " ++ key)
  | none => do
    let connected : Except String Unit ← perform .connect
    match connected with
    | .error e => return .error e
    | .ok () =>
      if env.waitForParticipant then
        let joined : Except String Unit ← perform .waitForParticipant
        enter env roomName retries joined
      else enter env roomName retries (.ok ())

/-! ### The service -/

structure Egress where
  roomName : String
  filepath : String

structure Job where
  egresses : List Egress
  callbacks : List ShutdownCallback

def Job.initial : Job := ⟨[], []⟩

def Job.started (s : Job) (req : EgressRequest) (attempt : Attempt) : Job :=
  if attempt.effect then { s with egresses := s.egresses ++ [⟨req.roomName, req.filepath⟩] } else s

def serves : Semantics Job Op.Answer
  | .startRoomCompositeEgress req, s, attempt, s' => s' = s.started req attempt
  | .addShutdownCallback callback, s, _, s' => s' = { s with callbacks := s.callbacks ++ [callback] }
  | _, s, _, s' => s' = s

def told (env : Env) (callback : ShutdownCallback) : Event Op.Answer :=
  ⟨.put env.callRecordApi (env.payload callback.roomName callback.audioS3Key), ()⟩

def attemptOf (e : Event Op.Answer) : Option Attempt :=
  match e with
  | ⟨.startRoomCompositeEgress _, attempt⟩ => some attempt
  | _ => none

def attempts (es : List (Event Op.Answer)) : List Attempt := es.filterMap attemptOf

def recordings (req : EgressRequest) (as : List Attempt) : List Egress :=
  (as.filter Attempt.effect).map fun _ => ⟨req.roomName, req.filepath⟩

inductive Concludes : List Attempt → Except RpcError (Option EgressInfo) → Prop
  | exhausted : Concludes [] (.ok none)
  | started {failures : List Attempt} {a : Attempt} {info : EgressInfo}
      (hfailed : ∀ a ∈ failures, a.Failed) (h : a.outcome = .ok info) :
      Concludes (failures ++ [a]) (.ok (some info))
  | raised {failures : List Attempt} {a : Attempt} {error : RpcError}
      (hfailed : ∀ a ∈ failures, a.Failed) (h : a.outcome = .error error) :
      Concludes (failures ++ [a]) (.error error)

section Loop
variable {req : EgressRequest} {retries : ℕ} {s s' : Job} {es : List (Event Op.Answer)}
  {as : List Attempt} {a : Attempt} {outcome : Except RpcError (Option EgressInfo)}

theorem recordings_cons (a : Attempt) (as : List Attempt) :
    recordings req (a :: as) =
      (if a.effect then [⟨req.roomName, req.filepath⟩] else []) ++ recordings req as := by
  unfold recordings
  cases ha : a.effect <;> simp [ha]

theorem started_egresses (s : Job) (a : Attempt) (as : List Attempt) :
    (s.started req a).egresses ++ recordings req as = s.egresses ++ recordings req (a :: as) := by
  rw [recordings_cons]
  unfold Job.started
  cases a.effect <;> simp

theorem started_callbacks (s : Job) (a : Attempt) : (s.started req a).callbacks = s.callbacks := by
  unfold Job.started
  split_ifs <;> rfl

theorem Concludes.cons (ha : a.Failed) (h : Concludes as outcome) (hne : outcome ≠ .ok none) :
    Concludes (a :: as) outcome := by
  cases h with
  | exhausted => exact absurd rfl hne
  | started hfailed h => exact .started (List.forall_mem_cons.mpr ⟨ha, hfailed⟩) h
  | raised hfailed h => exact .raised (List.forall_mem_cons.mpr ⟨ha, hfailed⟩) h

theorem ends_egressLoop {left : ℕ} {delay : ℚ}
    (h : Ends serves (egressLoop req left delay) s es s' outcome) :
    s'.egresses = s.egresses ++ recordings req (attempts es) ∧ s'.callbacks = s.callbacks ∧
      Concludes (attempts es) outcome ∧ (0 < left → outcome ≠ .ok none) := by
  induction left generalizing s es delay with
  | zero =>
    obtain ⟨rfl, rfl, rfl⟩ := ends_ret.mp h
    exact ⟨(List.append_nil _).symm, rfl, .exhausted, fun hpos => absurd hpos (Nat.lt_irrefl 0)⟩
  | succ left ih =>
    simp only [egressLoop, perform, Program.bind_eq, Program.perform_bind, ends_call, serves] at h
    obtain ⟨a, _, es', rfl, rfl, h⟩ := h
    have hattempts : attempts (⟨.startRoomCompositeEgress req, a⟩ :: es') = a :: attempts es' := rfl
    rw [hattempts, ← started_egresses]
    cases ha : a.outcome with
    | ok info =>
      simp only [ha, Program.pure_eq_ret, ends_ret] at h
      obtain ⟨rfl, rfl, rfl⟩ := h
      exact ⟨by simp [attempts, recordings], started_callbacks s a,
        .started (List.forall_mem_nil _) ha, fun _ => by simp⟩
    | error e =>
      simp only [ha] at h
      split_ifs at h with hretry
      · simp only [ends_call, serves] at h
        obtain ⟨_, _, es'', rfl, rfl, h⟩ := h
        obtain ⟨hegresses, hcallbacks, hconcludes, hne⟩ := ih h
        exact ⟨hegresses, hcallbacks.trans (started_callbacks s a),
          hconcludes.cons ⟨e, ha⟩ (hne hretry.2), fun _ => hne hretry.2⟩
      · simp only [Program.pure_eq_ret, ends_ret] at h
        obtain ⟨rfl, rfl, rfl⟩ := h
        exact ⟨by simp [attempts, recordings], started_callbacks s a,
          .raised (List.forall_mem_nil _) ha, fun _ => by simp⟩

end Loop

/-! ### Jobs -/

def registered (callback : ShutdownCallback) :
    Except RpcError (Option EgressInfo) → List ShutdownCallback
  | .ok (some _) => [callback]
  | _ => []

def Reports (env : Env) (callback : ShutdownCallback) (egress : Egress) : Prop :=
  env.payload callback.roomName callback.audioS3Key = env.payload egress.roomName egress.filepath

def Raised (es : List (Event Op.Answer)) : Prop := ∃ a ∈ (attempts es).getLast?, a.Failed

/-- There is one recording at most, and none that nobody tells of because the job has given up. -/
def AtMostOneRecording (env : Env) (es : List (Event Op.Answer)) (s : Job) : Prop :=
  s.egresses.length ≤ 1 ∧ (Raised es → ∀ egress ∈ s.egresses,
    ∃ callback ∈ s.callbacks, Reports env callback egress)

section Jobs
variable {env : Env} {roomName ts : String} {retries : ℕ} {s s' : Job}
  {es : List (Event Op.Answer)} {as : List Attempt} {outcome : Except RpcError (Option EgressInfo)}
  {result : Except String Unit}

theorem ends_recordRoom (h : Ends serves (recordRoom env roomName ts retries) s es s' result) :
    ∃ outcome, Concludes (attempts es) outcome ∧
      s'.egresses = s.egresses ++
        recordings (env.egressRequest roomName (env.audioS3Key roomName ts)) (attempts es) ∧
      s'.callbacks = s.callbacks ++ registered ⟨roomName, env.audioS3Key roomName ts⟩ outcome := by
  unfold recordRoom at h
  simp only [Program.bind_eq] at h
  obtain ⟨es₁, s₁, outcome, es₂, rfl, hloop, hrest⟩ := ends_bind.mp h
  obtain ⟨hegresses, hcallbacks, hconcludes, -⟩ := ends_egressLoop hloop
  refine ⟨outcome, ?_⟩
  cases outcome with
  | error e =>
    obtain ⟨rfl, rfl, -⟩ := ends_ret.mp hrest
    rw [List.append_nil]
    exact ⟨hconcludes, hegresses, by simp [hcallbacks, registered]⟩
  | ok res =>
    cases res with
    | none =>
      obtain ⟨rfl, rfl, -⟩ := ends_ret.mp hrest
      rw [List.append_nil]
      exact ⟨hconcludes, hegresses, by simp [hcallbacks, registered]⟩
    | some info =>
      simp only [perform, Program.perform_bind, ends_call, serves] at hrest
      obtain ⟨_, _, _, rfl, rfl, hrest⟩ := hrest
      obtain ⟨rfl, rfl, -⟩ := ends_ret.mp hrest
      have hattempts : attempts (es₁ ++ [⟨.addShutdownCallback
          ⟨roomName, env.audioS3Key roomName ts⟩, ()⟩]) = attempts es₁ := by
        simp [attempts, attemptOf]
      rw [hattempts]
      exact ⟨hconcludes, hegresses, by simp [hcallbacks, registered]⟩

theorem recordings_length (req : EgressRequest) (as : List Attempt) :
    (recordings req as).length = as.countP Attempt.effect := by
  unfold recordings
  rw [List.length_map, List.countP_eq_length_filter]

/-- No attempt that has failed has started an egress. -/
def Unambiguous (as : List Attempt) : Prop := ∀ a ∈ as, a.Failed → a.effect = false

theorem unambiguous_iff_countP (hfailed : ∀ a ∈ as, a.Failed) :
    Unambiguous as ↔ as.countP Attempt.effect = 0 := by
  rw [List.countP_eq_zero]
  refine forall₂_congr fun a ha => ?_
  rw [forall_prop_of_true (hfailed a ha), Bool.not_eq_true]

theorem recorded_iff {req : EgressRequest} {callback : ShutdownCallback} (s : Job)
    (hconcludes : Concludes (attempts es) outcome)
    (hegresses : s.egresses = recordings req (attempts es))
    (hcallbacks : s.callbacks = registered callback outcome) :
    AtMostOneRecording env es s ↔ Unambiguous (attempts es) := by
  unfold AtMostOneRecording Raised
  rw [hegresses, hcallbacks, recordings_length]
  generalize attempts es = as at hconcludes
  cases hconcludes with
  | exhausted => simp [recordings, Unambiguous]
  | @started failures a info hfailed h =>
    have hnot : ¬ a.Failed := by
      rintro ⟨error, herror⟩
      rw [h] at herror
      cases herror
    have hlast : Unambiguous (failures ++ [a]) ↔ Unambiguous failures := by
      unfold Unambiguous
      rw [List.forall_mem_append, List.forall_mem_singleton]
      exact and_iff_left fun hfail => absurd hfail hnot
    rw [hlast, unambiguous_iff_countP hfailed]
    simp [a.effect_of_ok info h, hnot]
  | @raised failures a error hfailed h =>
    have hall : ∀ a' ∈ failures ++ [a], a'.Failed :=
      List.forall_mem_append.mpr ⟨hfailed, List.forall_mem_singleton.mpr ⟨error, h⟩⟩
    have hlast : ∃ a' ∈ (failures ++ [a]).getLast?, a'.Failed :=
      ⟨a, List.getLast?_concat, ⟨error, h⟩⟩
    rw [unambiguous_iff_countP hall, ← recordings_length req]
    constructor
    · rintro ⟨-, hreported⟩
      by_contra hne
      obtain ⟨egress, hin⟩ := List.exists_mem_of_length_pos (Nat.pos_of_ne_zero hne)
      obtain ⟨callback, hcallback, -⟩ := hreported hlast egress hin
      exact List.not_mem_nil hcallback
    · intro hnone
      rw [List.length_eq_zero_iff] at hnone
      simp [hnone]

theorem recordRoom_iff (h : Ends serves (recordRoom env roomName ts retries) .initial es s' result) :
    AtMostOneRecording env es s' ↔ Unambiguous (attempts es) := by
  obtain ⟨outcome, hconcludes, hegresses, hcallbacks⟩ := ends_recordRoom h
  exact recorded_iff s' hconcludes hegresses hcallbacks

theorem nothing_recorded (hnone : attempts es = []) :
    AtMostOneRecording env es .initial ↔ Unambiguous (attempts es) := by
  have hinitial : AtMostOneRecording env es .initial :=
    ⟨Nat.zero_le 1, fun _ _ hin => absurd hin List.not_mem_nil⟩
  refine iff_of_true hinitial ?_
  rw [hnone]
  exact List.forall_mem_nil _

end Jobs

theorem joined_iff {env : Env} {roomName : String} {retries : ℕ} {s' : Job}
    {es : List (Event Op.Answer)} {result : Except String Unit} {joined : Except String Unit}
    (h : Ends serves (enter env roomName retries joined) .initial es s' result) :
    AtMostOneRecording env es s' ↔ Unambiguous (attempts es) := by
  unfold enter at h
  cases joined with
  | error e =>
    obtain ⟨rfl, rfl, -⟩ := ends_ret.mp h
    exact nothing_recorded rfl
  | ok _ =>
    simp only [perform, Program.bind_eq, Program.perform_bind, ends_call, serves] at h
    obtain ⟨ts, _, es', rfl, rfl, h⟩ := h
    have hrest := recordRoom_iff h
    exact hrest

/-- A job has at most one recording, and does not give up one that has been started, if and only if
no attempt that has failed has started one. -/
theorem at_most_one_recording_iff {env : Env} {roomName : String} {retries : ℕ} {s' : Job}
    {es : List (Event Op.Answer)} {result : Except String Unit}
    (h : Ends serves (entrypoint env roomName retries) .initial es s' result) :
    AtMostOneRecording env es s' ↔ Unambiguous (attempts es) := by
  unfold entrypoint at h
  cases hmissing : env.missing with
  | some key =>
    rw [hmissing] at h
    obtain ⟨rfl, rfl, -⟩ := ends_ret.mp h
    exact nothing_recorded rfl
  | none =>
    simp only [hmissing, perform, Program.bind_eq, Program.perform_bind, ends_call, serves] at h
    obtain ⟨connected, _, es₁, rfl, rfl, h⟩ := h
    cases connected with
    | error e =>
      obtain ⟨rfl, rfl, -⟩ := ends_ret.mp h
      exact nothing_recorded rfl
    | ok _ =>
      dsimp only at h
      split_ifs at h
      · simp only [ends_call, serves] at h
        obtain ⟨joined, _, es₂, rfl, rfl, h⟩ := h
        have hrest := joined_iff h
        exact hrest
      · have hrest := joined_iff h
        exact hrest

/-! ### A recording that is started twice -/

def jobEnv : Env := ⟨"bucket", "region", "access", "secret", "recordings/", true, ""⟩

def jobKey : String := jobEnv.audioS3Key "room" "20250101_000000"

def granted : Attempt := ⟨.ok ⟨"EG_1"⟩, true, fun _ _ => rfl, nofun⟩

/-- The service has started the egress, and the answer comes too late. -/
def timedOut : Attempt where
  outcome := .error (.twirp "deadline_exceeded")
  effect := true
  effect_of_ok := nofun
  no_effect _ h hnot := absurd (by cases h; decide) hnot

def jobEvents (as : List (Event Op.Answer)) : List (Event Op.Answer) :=
  [⟨.connect, .ok ()⟩, ⟨.waitForParticipant, .ok ()⟩, ⟨.strftime, "20250101_000000"⟩] ++ as ++
    [⟨.addShutdownCallback ⟨"room", jobKey⟩, ()⟩]

def attempted (a : Attempt) : Event Op.Answer :=
  ⟨.startRoomCompositeEgress (jobEnv.egressRequest "room" jobKey), a⟩

def unreachable : Attempt where
  outcome := .error (.twirp "unavailable")
  effect := false
  effect_of_ok _ h := nomatch h
  no_effect _ _ _ := rfl

theorem unreachable_ends : Ends serves (entrypoint jobEnv "room" 3) .initial
    (jobEvents [attempted unreachable, ⟨.sleep 1, ()⟩, attempted granted])
      ⟨[⟨"room", jobKey⟩], [⟨"room", jobKey⟩]⟩ (.ok ()) := by
  have hmissing : jobEnv.missing = none := by decide
  unfold entrypoint
  rw [hmissing]
  refine .call rfl (.call rfl (.call rfl (.call rfl (.call rfl (.call rfl (.call rfl ?_))))))
  exact .ret _ _

theorem granted_recorded : AtMostOneRecording jobEnv
    (jobEvents [attempted unreachable, ⟨.sleep 1, ()⟩, attempted granted])
      ⟨[⟨"room", jobKey⟩], [⟨"room", jobKey⟩]⟩ := by
  refine (at_most_one_recording_iff unreachable_ends).mpr fun a ha hfailed => ?_
  have hattempts : a ∈ [unreachable, granted] := ha
  rcases List.mem_cons.mp hattempts with rfl | ha
  · rfl
  · obtain ⟨error, herror⟩ := hfailed
    cases List.mem_singleton.mp ha
    cases herror

theorem timedOut_ends : Ends serves (entrypoint jobEnv "room" 3) .initial
    (jobEvents [attempted timedOut, ⟨.sleep 1, ()⟩, attempted granted])
      ⟨[⟨"room", jobKey⟩, ⟨"room", jobKey⟩], [⟨"room", jobKey⟩]⟩ (.ok ()) := by
  have hmissing : jobEnv.missing = none := by decide
  unfold entrypoint
  rw [hmissing]
  refine .call rfl (.call rfl (.call rfl (.call rfl (.call rfl (.call rfl (.call rfl ?_))))))
  exact .ret _ _

theorem started_twice : ¬ ∀ env roomName retries es s' result,
    Ends serves (entrypoint env roomName retries) .initial es s' result →
      AtMostOneRecording env es s' := by
  intro hall
  obtain ⟨hcount, -⟩ := hall _ _ _ _ _ _ timedOut_ends
  exact absurd hcount (by decide)

end Nalang.Agent
