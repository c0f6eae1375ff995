import Nalang.Accounts.Requests
import Nalang.CallRoutes.Routes
import Nalang.Matchmaking.Calls
import Nalang.Matchmaking.Interleaving

/-!
# Who may join a room

The matchmaking runs beside the HTTP routes. `POST /call/token` takes the name of
the room from the request, and never looks at the rooms of the matchmaking.
-/

namespace Nalang.CallRoutes
open Accounts Transition

structure Site where
  sys : Matchmaking.Sys
  users : Users
  redis : ExpiringStore String String
  histories : List CallHistory
  nextId : ℕ
  now : ℕ

def Site.accounts (s : Site) : Accounts.State := ⟨s.users, s.redis, s.now⟩

def Site.calls (s : Site) : State := ⟨s.users, s.histories, s.nextId, s.redis⟩

inductive SiteLabel
  | matchmaking (l : Matchmaking.Label)
  | auth (req : Accounts.Request) (answer : Answer)
  | call (req : Request) (answer : Except HttpError Response)

inductive SiteStep (env : Env) (s : Site) : SiteLabel → Site → Prop
  | matchmaking {l : Matchmaking.Label} {sys' : Matchmaking.Sys} :
      Matchmaking.interleaved.step s.sys l sys' →
      SiteStep env s (.matchmaking l) { s with sys := sys' }
  | auth {req : Accounts.Request} {answer : Answer} {st : Accounts.State} :
      Accounts.handle env s.accounts req = (answer, st) →
      SiteStep env s (.auth req answer)
        { s with users := st.users, redis := st.redis, now := st.now }
  | call {req : Request} {answer : Except HttpError Response} {st : State} :
      req.now = s.now → handle env s.calls req = (answer, st) →
      SiteStep env s (.call req answer)
        { s with redis := st.redis, histories := st.histories, nextId := st.nextId }

def site (env : Env) : Lts Site SiteLabel := ⟨SiteStep env⟩

def Site.initial (clock : Matchmaking.Clock) (users : Users) (now : ℕ) : Site :=
  ⟨Matchmaking.Sys.initial clock, users, .empty, [], 1, now⟩

theorem site_run_matchmaking (env : Env) (s : Site) {ls : List Matchmaking.Label}
    {sys : Matchmaking.Sys} (hr : Matchmaking.interleaved.Run s.sys ls sys) :
    (site env).Run s (ls.map .matchmaking) { s with sys := sys } := by
  induction hr with
  | nil => exact .nil
  | snoc _ hs ih =>
    rw [List.map_append]
    exact ih.snoc (.matchmaking hs)

def joinToken (user : User) (room : String) : JoinToken :=
  ⟨user.email.val, user.email.val, ⟨true, room, true, true, true⟩⟩

theorem createAccessToken_eq {env : Env} (h : env.livekit.Strict) (user : User) (room : String) :
    createAccessToken env user.email.val room =
      if room = "" then .error .serverError else .ok (joinToken user room) := by
  have hrefuses : env.livekit.refuses (joinToken user room) = true ↔ room = "" := by
    rw [h]
    simp [joinToken, user.email.ne_empty]
  change (if env.livekit.refuses (joinToken user room) then _ else _) = _
  simp only [hrefuses]
  rfl

/-- What a request has to show for the token it gets. -/
def Request.Joins (env : Env) (users : Users) (req : Request) (user : User) (token : JoinToken) :
    Prop :=
  req.route = .token token.grants.room ∧ req.currentUser env users = .ok user ∧
    token.grants.room ≠ "" ∧ token = joinToken user token.grants.room

theorem getCallToken_ok {env : Env} (h : env.livekit.Strict) {room : String} {user : User}
    {token : JoinToken} :
    getCallToken env room user = .ok (.accessToken token) ↔
      room ≠ "" ∧ token = joinToken user room := by
  unfold getCallToken
  rw [createAccessToken_eq h]
  split_ifs with hroom
  · simp [hroom, Except.map]
  · simp [hroom, Except.map, eq_comm]

theorem answer_accessToken_iff {env : Env} (h : env.livekit.Strict) (st : State) (req : Request)
    (token : JoinToken) :
    (handle env st req).1 = .ok (.accessToken token) ↔
      ∃ user, req.Joins env st.users user token := by
  unfold Request.Joins handle
  cases hr : req.route with
  | token room =>
    cases hu : req.currentUser env st.users with
    | error e => simp
    | ok user =>
      simp only [getCallToken_ok h]
      constructor
      · rintro ⟨hroom, rfl⟩
        exact ⟨user, rfl, rfl, hroom, rfl⟩
      · rintro ⟨_, hroom, huser, hne, htoken⟩
        cases hroom
        cases huser
        exact ⟨hne, htoken⟩
  | waiting => cases req.currentUser env st.users <;> simp
  | deleteRoom roomName livekit => cases livekit <;> simp [deleteRoomInLivekit]
  | roomTest => simp
  | record data =>
    dsimp only
    cases (createCallHistoryWithCheck req.createdAt data st).1 <;> simp [Except.map]
  | recordAudio data =>
    dsimp only
    cases (updateAudioUrl data st).1 <;> simp [Except.map]
  | history => cases req.currentUser env st.users <;> simp

/-- In every run a join token is the answer to an authenticated request for just this room, whatever
the matchmaking has done, and nothing in the matchmaking changes by it. -/
theorem join_tokens_of_run {env : Env} (h : env.livekit.Strict) {start : Site}
    {ls : List SiteLabel}
    {s : List (Site × SiteLabel) × Site} (hr : (site env).recorded.Run ([], start) ls s)
    {before : Site} {req : Request} {answer : Except HttpError Response}
    (hin : (before, .call req answer) ∈ s.1) (token : JoinToken) :
    (answer = .ok (.accessToken token) ↔ ∃ user, req.Joins env before.users user token) ∧
      ∀ after, (site env).step before (.call req answer) after → after.sys = before.sys := by
  obtain ⟨_, hstep⟩ := hr.steps_recorded _ hin
  constructor
  · cases hstep with
    | call _ hhandle =>
      rw [show answer = _ from (congrArg Prod.fst hhandle).symm]
      exact answer_accessToken_iff h before.calls req token
  · intro after hafter
    cases hafter with
    | call => rfl

/-! ### A room of two, and a third user -/

def threeUsers : Users :=
  [(kimsEmail, "kim"), (leesEmail, "lee"), (⟨"cho@mail.com", by decide, by decide⟩, "cho")].foldl
    (fun t (email, name) => (t.insert ⟨0, email, none, name, none, some "local", none⟩).2) .empty

def third : User := ⟨1, kimsEmail, none, "kim", none, some "local", none⟩

def matching : List Matchmaking.Label :=
  [.connect ⟨1⟩ (.plain (.of 1)) .empty, .act ⟨1⟩ (.serve none), .act ⟨1⟩ .goesOn,
    .connect ⟨2⟩ (.plain (.of 2)) .empty] ++
  (List.replicate 6 [Matchmaking.Action.serve none, .goesOn]).flatten.map (.act ⟨2⟩)

def thirdJoins : Request :=
  ⟨0, 0, Accounts.createAccessToken plainEnv 0 (some "1"), .token "room_3_2_b"⟩

theorem third_joins : thirdJoins.Joins plainEnv threeUsers third (joinToken third "room_3_2_b") :=
  ⟨rfl, rfl, by decide, rfl⟩

def isClaim : Matchmaking.Note → Bool
  | .did _ (.claimed _ _ _ _) => true
  | _ => false

theorem third_joins_run : ∃ log, ∃ before after : Site,
    (site plainEnv).recorded.Run ([], Site.initial .start threeUsers 0)
      (matching.map .matchmaking ++
        [.call thirdJoins (.ok (.accessToken (joinToken third "room_3_2_b")))])
      (log ++ [(before, .call thirdJoins (.ok (.accessToken (joinToken third "room_3_2_b"))))],
        after) ∧
      before.users = threeUsers ∧ before.sys.log.filter isClaim =
        [.did ⟨2⟩ (.claimed (.of 2) (.of 1) ⟨1⟩ "room_3_2_b")] := by
  obtain ⟨sys, hsys, hlog⟩ : ∃ sys,
      Lts.exec Matchmaking.Sys.step (Matchmaking.Sys.initial .start) matching = some sys ∧
      sys.log.filter isClaim = [.did ⟨2⟩ (.claimed (.of 2) (.of 1) ⟨1⟩ "room_3_2_b")] :=
    ⟨_, rfl, rfl⟩
  let before : Site := { Site.initial .start threeUsers 0 with sys := sys }
  obtain ⟨log, hrec⟩ := (site_run_matchmaking plainEnv (Site.initial .start threeUsers 0)
    (Lts.run_of_exec hsys)).logged
  refine ⟨log, before, before, hrec.snoc ⟨rfl, ?_⟩, rfl, hlog⟩
  have hhandle : handle plainEnv before.calls thirdJoins =
      (.ok (.accessToken (joinToken third "room_3_2_b")), before.calls) :=
    Prod.ext ((answer_accessToken_iff plainEnv_strict _ _ _).mpr ⟨third, third_joins⟩) rfl
  exact SiteStep.call rfl hhandle

theorem join_tokens_of_run_applied : ∃ log, ∃ before after : Site,
    (site plainEnv).recorded.Run ([], Site.initial .start threeUsers 0)
      (matching.map .matchmaking ++
        [.call thirdJoins (.ok (.accessToken (joinToken third "room_3_2_b")))]) (log, after) ∧
      ∃ user, thirdJoins.Joins plainEnv before.users user (joinToken third "room_3_2_b") := by
  obtain ⟨log, before, after, hr, -, -⟩ := third_joins_run
  have hin : (before, SiteLabel.call thirdJoins
      (.ok (.accessToken (joinToken third "room_3_2_b")))) ∈ log ++ [(before, SiteLabel.call
        thirdJoins (.ok (.accessToken (joinToken third "room_3_2_b"))))] := by simp
  exact ⟨_, before, after, hr, (join_tokens_of_run plainEnv_strict hr hin _).1.mp rfl⟩

theorem stranger_gets_token :
    ¬ ∀ env : Env, env.livekit.Strict → ∀ clock users now ls s,
      (site env).recorded.Run ([], Site.initial clock users now) ls s → ∀ before req token,
      (before, .call req (.ok (.accessToken token))) ∈ s.1 → ∀ user,
      req.currentUser env before.users = .ok user →
      ∃ ws id partner ws2, .did ws (.claimed id partner ws2 token.grants.room) ∈ before.sys.log ∧
        (user.id = id.val ∨ user.id = partner.val) := by
  intro h
  obtain ⟨log, before, after, hr, husers, hlog⟩ := third_joins_run
  have hu : thirdJoins.currentUser plainEnv before.users = .ok third := by
    rw [husers]
    exact third_joins.2.1
  obtain ⟨ws, id, partner, ws2, hin, hid⟩ := h _ plainEnv_strict _ _ _ _ _ hr before thirdJoins
    (joinToken third "room_3_2_b") (by simp) third hu
  have hclaim : Matchmaking.Note.did ws (.claimed id partner ws2 "room_3_2_b") ∈
      before.sys.log.filter isClaim := List.mem_filter.mpr ⟨hin, rfl⟩
  rw [hlog, List.mem_singleton] at hclaim
  cases hclaim
  exact absurd hid (by decide)

end Nalang.CallRoutes
