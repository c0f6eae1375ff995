import Nalang.CallRoutes.Routes

/-!
# Recordings and the order of requests

The browsers post the rows of a call, the agent puts the address of its
recording. The update reaches the rows that are there already, so a row that is
posted after it keeps no recording.
-/

namespace Nalang.CallRoutes
open Accounts

def State.data (st : State) (rooms : String → Bool) : List CallHistoryCreate :=
  (st.histories.filter fun ch => rooms ch.roomName).map CallHistory.toCallHistoryCreate

def Request.about (rooms : String → Bool) (req : Request) : Bool :=
  match req.route with
  | .record data => rooms data.roomName
  | .recordAudio data => rooms data.roomName
  | _ => false

def Request.stored (users : Users) (req : Request) : Option CallHistoryCreate :=
  match req.route with
  | .record data => if 0 < data.durationSec ∧ Storable users data then some data else none
  | _ => none

theorem stored_eq_some {users : Users} {req : Request} {data : CallHistoryCreate} :
    req.stored users = some data ↔ req.Stores users data := by
  unfold Request.stored Request.Stores
  split
  · rename_i data' hr
    constructor
    · intro h
      split_ifs at h with hd
      cases h
      exact ⟨hr, hd⟩
    · rintro ⟨hr', hd⟩
      cases hr.symm.trans hr'
      exact if_pos hd
  · rename_i hr
    constructor
    · intro h
      cases h
    · rintro ⟨hr', -⟩
      exact absurd hr' (hr data)

def withUrl (url : Option String) (data : CallHistoryCreate) : CallHistoryCreate :=
  { data with recordingUrl := url }

section Frame
variable {env : Env} {st : State} {req : Request} {rooms : String → Bool}

def updated (rooms : String → Bool) (audio : AudioUrlUpdate) (rows : List CallHistoryCreate) :
    List CallHistoryCreate :=
  if rooms audio.roomName ∧ audio.storable then
    rows.map fun d => if d.roomName = audio.roomName then withUrl audio.recordingUrl d else d
  else rows

theorem data_write {audio : AudioUrlUpdate} (hfits : audio.storable = true) (st : State) :
    State.data { st with histories := st.histories.map audio.write } rooms =
      updated rooms audio (st.data rooms) := by
  unfold State.data updated AudioUrlUpdate.write
  simp only [hfits, and_true]
  induction st.histories with
  | nil => simp
  | cons ch rest ih =>
    by_cases hch : ch.roomName = audio.roomName
    · by_cases hr : rooms audio.roomName
      · simp only [hr, if_true] at ih
        simp [hch, hr, ih, withUrl]
      · simp only [hr, if_false, Bool.false_eq_true] at ih
        simp [hch, hr, ih]
    · by_cases hr : rooms ch.roomName <;> by_cases ha : rooms audio.roomName
      · simp only [ha, if_true] at ih
        simp [hch, hr, ha, ih]
      · simp only [ha, if_false, Bool.false_eq_true] at ih
        simp [hch, hr, ha, ih]
      · simp only [ha, if_true] at ih
        simp [hch, hr, ha, ih]
      · simp only [ha, if_false, Bool.false_eq_true] at ih
        simp [hch, hr, ha, ih]

theorem data_handle (env : Env) (st : State) (req : Request) :
    (handle env st req).2.data rooms = match req.route with
      | .recordAudio audio => updated rooms audio (st.data rooms)
      | _ => st.data rooms ++ (req.stored st.users).toList.filter fun d => rooms d.roomName := by
  cases effect_of_handle env st req with
  | stores data row hs hrow hhist =>
    have hstored := stored_eq_some.mpr hs
    unfold State.data
    rw [hhist, hs.1, hstored, List.filter_append, List.map_append]
    have hroom : row.roomName = data.roomName := congrArg CallHistoryCreate.roomName hrow
    by_cases hr : rooms data.roomName <;> simp [hr, hrow]
  | records audio hr hfits hhist =>
    rw [hr]
    refine Eq.trans ?_ (data_write hfits st)
    unfold State.data
    rw [hhist]
  | leaves hrecord haudio hhist =>
    have hstored : req.stored st.users = none := by
      cases hs : req.stored st.users with
      | none => rfl
      | some data => exact absurd (stored_eq_some.mp hs) (hrecord data)
    unfold State.data
    rw [hhist, hstored]
    split
    · rename_i audio hr
      have hfits : ¬ (rooms audio.roomName = true ∧ audio.storable = true) := by
        rw [haudio audio hr]
        exact fun h => Bool.false_ne_true h.2
      exact (if_neg hfits).symm
    · simp

theorem data_run_filter (env : Env) (reqs : List Request) {st st' : State}
    (husers : st.users = st'.users) (hdata : st.data rooms = st'.data rooms) :
    (run env st reqs).data rooms = (run env st' (reqs.filter (Request.about rooms))).data rooms := by
  induction reqs generalizing st st' with
  | nil => exact hdata
  | cons req reqs ih =>
    rw [run_cons]
    by_cases habout : req.about rooms
    · rw [List.filter_cons_of_pos habout, run_cons]
      refine ih ?_ ?_
      · rw [handle_users, handle_users, husers]
      · rw [data_handle, data_handle, hdata, husers]
    · rw [List.filter_cons_of_neg habout]
      refine ih ?_ ?_
      · rw [handle_users, husers]
      · rw [data_handle, ← hdata]
        unfold Request.about at habout
        split
        · rename_i audio hr
          rw [hr] at habout
          exact if_neg fun h => habout h.1
        · rename_i hr
          have hnone : (req.stored st.users).toList.filter (fun d => rooms d.roomName) = [] := by
            rw [List.filter_eq_nil_iff]
            intro data hdata'
            obtain ⟨hr', -⟩ := stored_eq_some.mp (Option.mem_toList.mp hdata')
            rw [hr'] at habout
            exact habout
          rw [hnone, List.append_nil]

theorem data_run_posts (env : Env) (st : State) {posts : List Request}
    (hposts : ∀ req ∈ posts, ∃ data, req.route = .record data ∧ rooms data.roomName) :
    (run env st posts).data rooms = st.data rooms ++ posts.filterMap (·.stored st.users) := by
  induction posts generalizing st with
  | nil => simp
  | cons req posts ih =>
    obtain ⟨data, hr, hroom⟩ := hposts req List.mem_cons_self
    have hone : (handle env st req).2.data rooms =
        st.data rooms ++ (req.stored st.users).toList := by
      rw [data_handle, hr]
      refine congrArg (st.data rooms ++ ·) ?_
      rw [List.filter_eq_self]
      intro data' hdata'
      obtain ⟨hr', -⟩ := stored_eq_some.mp (Option.mem_toList.mp hdata')
      cases hr.symm.trans hr'
      exact hroom
    rw [run_cons, ih _ fun req' hin => hposts req' (List.mem_cons_of_mem _ hin), handle_users, hone,
      List.append_assoc]
    cases hs : req.stored st.users <;> simp [hs]

end Frame

/-! ### One room, its posts and its recording -/

section Room
variable {env : Env} {st : State} {room : String} {url : String} {put : Request}

def isRoom (room : String) : String → Bool := fun r => r = room

def OnlyPosts (room : String) (reqs : List Request) : Prop :=
  ∀ req ∈ reqs, req.about (isRoom room) →
    ∃ data, req.route = .record data ∧ data.recordingUrl = none

/-- The posts, the recording, then whatever is not about the room. -/
def canonical (room : String) (put : Request) (reqs posts : List Request) : List Request :=
  posts ++ put :: reqs.filter fun req => !req.about (isRoom room)

def SameTable (st st' : State) : Prop :=
  (st.histories.map CallHistory.toCallHistoryCreate).Perm
    (st'.histories.map CallHistory.toCallHistoryCreate)

/-- Nothing of the recording is lost to the order of the requests: the table is the one that is left
when the agent comes after all posts, in any order of these. -/
structure RecordingKept (env : Env) (st : State) (room url : String) (put : Request)
    (before after : List Request) : Prop where
  same : ∀ posts, posts.Perm ((before ++ after).filter (Request.about (isRoom room))) →
    SameTable (run env st (before ++ put :: after))
      (run env st (canonical room put (before ++ put :: after) posts))
  recorded : ∀ ch ∈ (run env st (before ++ put :: after)).histories, ch.roomName = room →
    ch.recordingUrl = some url
  again : (run env st (before ++ put :: after ++ [put])).histories =
    (run env st (before ++ put :: after)).histories

theorem isRoom_iff {r : String} : isRoom room r = true ↔ r = room := by
  unfold isRoom
  exact decide_eq_true_iff

theorem mem_data {rooms : String → Bool} {d : CallHistoryCreate} :
    d ∈ st.data rooms ↔ ∃ ch ∈ st.histories, ch.toCallHistoryCreate = d ∧ rooms d.roomName := by
  unfold State.data
  simp only [List.mem_map, List.mem_filter]
  constructor
  · rintro ⟨ch, ⟨hch, hr⟩, rfl⟩
    exact ⟨ch, hch, rfl, hr⟩
  · rintro ⟨ch, hch, rfl, hr⟩
    exact ⟨ch, ⟨hch, hr⟩, rfl⟩

def recordedAs (room : String) (url : Option String) (rows : List CallHistoryCreate) :
    List CallHistoryCreate :=
  if AudioUrlUpdate.storable ⟨room, url⟩ then rows.map (withUrl url) else rows

theorem recordedAs_perm {url : Option String} {rows rows' : List CallHistoryCreate}
    (h : rows.Perm rows') : (recordedAs room url rows).Perm (recordedAs room url rows') := by
  unfold recordedAs
  split_ifs
  · exact h.map _
  · exact h

theorem updated_room (url : Option String) (st : State) :
    updated (isRoom room) ⟨room, url⟩ (st.data (isRoom room)) =
      recordedAs room url (st.data (isRoom room)) := by
  unfold updated recordedAs
  simp only [isRoom_iff.mpr rfl, true_and]
  split_ifs
  · refine List.map_congr_left fun d hd => ?_
    obtain ⟨_, _, _, hr⟩ := mem_data.mp hd
    rw [if_pos (isRoom_iff.mp hr)]
  · rfl

theorem perm_of_data (rooms : String → Bool) {st st' : State}
    (h : (st.data rooms).Perm (st'.data rooms))
    (h' : (st.data fun r => !rooms r).Perm (st'.data fun r => !rooms r)) :
    SameTable st st' := by
  have hsplit : ∀ st : State, (st.data rooms ++ st.data fun r => !rooms r).Perm
      (st.histories.map CallHistory.toCallHistoryCreate) := by
    intro st
    unfold State.data
    rw [← List.map_append]
    exact (List.filter_append_perm (fun ch => rooms ch.roomName) st.histories).map _
  exact (hsplit st).symm.trans ((h.append h').trans (hsplit st'))

theorem OnlyPosts.records {reqs : List Request} (h : OnlyPosts room reqs) :
    ∀ req ∈ reqs.filter (Request.about (isRoom room)),
      ∃ data, req.route = .record data ∧ isRoom room data.roomName := by
  intro req hin
  obtain ⟨hmem, habout⟩ := List.mem_filter.mp hin
  obtain ⟨data, hr, -⟩ := h req hmem habout
  unfold Request.about at habout
  rw [hr] at habout
  exact ⟨data, hr, habout⟩

theorem data_run_recorded (env : Env) (st : State)
    (hput : put.route = .recordAudio ⟨room, some url⟩)
    {before after : List Request}
    (hbefore : ∀ req ∈ before, ∃ data, req.route = .record data ∧ isRoom room data.roomName)
    (hafter : ∀ req ∈ after, ∃ data, req.route = .record data ∧ isRoom room data.roomName) :
    (run env st (before ++ put :: after)).data (isRoom room) =
      recordedAs room (some url) (st.data (isRoom room) ++ before.filterMap (·.stored st.users)) ++
        after.filterMap (·.stored st.users) := by
  rw [run_append, run_cons, data_run_posts env _ hafter, handle_users, run_users, data_handle, hput]
  simp only
  rw [updated_room, data_run_posts env _ hbefore]

theorem about_put (hput : put.route = .recordAudio ⟨room, some url⟩) :
    put.about (isRoom room) = true := by
  unfold Request.about
  rw [hput]
  exact isRoom_iff.mpr rfl

theorem not_about_elsewhere {req : Request} (h : req.about (fun r => !isRoom room r) = true) :
    (!req.about (isRoom room)) = true := by
  unfold Request.about at h ⊢
  split at h <;> first | exact h | exact rfl

theorem data_elsewhere (env : Env) (st : State) (hput : put.route = .recordAudio ⟨room, some url⟩)
    (reqs : List Request) {posts : List Request}
    (hposts : ∀ req ∈ posts, req.about (isRoom room)) :
    (run env st reqs).data (fun r => !isRoom room r) =
      (run env st (canonical room put reqs posts)).data (fun r => !isRoom room r) := by
  have hno : ∀ req : Request, req.about (isRoom room) = true →
      ¬ req.about (fun r => !isRoom room r) = true := by
    intro req h h'
    have hnot := not_about_elsewhere h'
    rw [h] at hnot
    cases hnot
  rw [data_run_filter env _ rfl rfl, data_run_filter env (canonical room put reqs posts) rfl rfl]
  refine congrArg (fun l => State.data (run env st l) fun r => !isRoom room r) ?_
  unfold canonical
  rw [List.filter_append, List.filter_eq_nil_iff.mpr fun req hin => hno req (hposts req hin),
    List.filter_cons_of_neg (hno put (about_put hput)), List.filter_filter, List.nil_append]
  refine List.filter_congr fun req _ => ?_
  rw [Bool.eq_iff_iff, Bool.and_eq_true]
  exact ⟨fun h => ⟨h, not_about_elsewhere h⟩, And.left⟩

theorem filter_canonical (hput : put.route = .recordAudio ⟨room, some url⟩) (reqs : List Request)
    {posts : List Request} (hposts : ∀ req ∈ posts, req.about (isRoom room)) :
    (canonical room put reqs posts).filter (Request.about (isRoom room)) = posts ++ [put] := by
  unfold canonical
  rw [List.filter_append, List.filter_eq_self.mpr hposts, List.filter_cons_of_pos (about_put hput),
    List.filter_filter]
  simp

def storedIn (users : Users) (room : String) (reqs : List Request) : List CallHistoryCreate :=
  (reqs.filter (Request.about (isRoom room))).filterMap (·.stored users)

theorem mem_storedIn {users : Users} {reqs : List Request} {data : CallHistoryCreate} :
    data ∈ storedIn users room reqs ↔ data.roomName = room ∧ ∃ req ∈ reqs, req.Stores users data := by
  unfold storedIn
  simp only [List.mem_filterMap, List.mem_filter, stored_eq_some]
  constructor
  · rintro ⟨req, ⟨hin, habout⟩, hs⟩
    unfold Request.about at habout
    rw [hs.1] at habout
    exact ⟨isRoom_iff.mp habout, req, hin, hs⟩
  · rintro ⟨hroom, req, hin, hs⟩
    refine ⟨req, ⟨hin, ?_⟩, hs⟩
    unfold Request.about
    rw [hs.1]
    exact isRoom_iff.mpr hroom

theorem data_run_order (env : Env) (st : State) (hput : put.route = .recordAudio ⟨room, some url⟩)
    {before after : List Request} (hposts : OnlyPosts room (before ++ after)) :
    (run env st (before ++ put :: after)).data (isRoom room) =
      recordedAs room (some url) (st.data (isRoom room) ++ storedIn st.users room before) ++
        storedIn st.users room after := by
  rw [data_run_filter env _ rfl rfl, List.filter_append, List.filter_cons_of_pos (about_put hput)]
  refine data_run_recorded env st hput ?_ ?_
  · exact OnlyPosts.records fun req hin => hposts req (List.mem_append_left _ hin)
  · exact OnlyPosts.records fun req hin => hposts req (List.mem_append_right _ hin)

theorem data_run_canonical (env : Env) (st : State)
    (hput : put.route = .recordAudio ⟨room, some url⟩) (reqs : List Request) {posts : List Request}
    (hposts : ∀ req ∈ posts, req.about (isRoom room))
    (hrecords : ∀ req ∈ posts, ∃ data, req.route = .record data ∧ isRoom room data.roomName) :
    (run env st (canonical room put reqs posts)).data (isRoom room) =
      recordedAs room (some url)
        (st.data (isRoom room) ++ posts.filterMap (·.stored st.users)) := by
  rw [data_run_filter env _ rfl rfl, filter_canonical hput reqs hposts,
    data_run_recorded env st hput hrecords (List.forall_mem_nil _)]
  exact List.append_nil _

theorem same_table (hput : put.route = .recordAudio ⟨room, some url⟩) {before after : List Request}
    (hposts : OnlyPosts room (before ++ after)) (hlate : storedIn st.users room after = [])
    {posts : List Request}
    (hperm : posts.Perm ((before ++ after).filter (Request.about (isRoom room)))) :
    SameTable (run env st (before ++ put :: after))
      (run env st (canonical room put (before ++ put :: after) posts)) := by
  have habout : ∀ req ∈ posts, req.about (isRoom room) :=
    fun req hin => (List.mem_filter.mp (hperm.mem_iff.mp hin)).2
  have hrecords : ∀ req ∈ posts, ∃ data, req.route = .record data ∧ isRoom room data.roomName :=
    fun req hin => hposts.records req (hperm.mem_iff.mp hin)
  have hstored : (storedIn st.users room before).Perm (posts.filterMap (·.stored st.users)) := by
    have h := hperm.filterMap (·.stored st.users)
    rw [List.filter_append, List.filterMap_append] at h
    rw [show (after.filter (Request.about (isRoom room))).filterMap (·.stored st.users) = []
      from hlate, List.append_nil] at h
    exact h.symm
  refine perm_of_data (isRoom room) ?_ ?_
  · rw [data_run_order env st hput hposts, hlate, List.append_nil,
      data_run_canonical env st hput _ habout hrecords]
    exact recordedAs_perm (hstored.append_left _)
  · rw [data_elsewhere env st hput _ habout]

theorem repeated_of_recorded (hput : put.route = .recordAudio ⟨room, some url⟩)
    (h : ∀ ch ∈ st.histories, ch.roomName = room → ch.recordingUrl = some url) :
    (handle env st put).2.histories = st.histories := by
  unfold handle
  rw [hput]
  dsimp only
  unfold updateAudioUrl
  split_ifs
  · refine (List.map_congr_left fun ch hch => ?_).trans (List.map_id _)
    unfold AudioUrlUpdate.write
    split_ifs with hroom
    · rw [← h ch hch hroom]
      rfl
    · rfl
  · rfl

/-- The database takes the recording, or no row that it is for lacks it. -/
def Taken (st : State) (room url : String) (before : List Request) : Prop :=
  AudioUrlUpdate.storable ⟨room, some url⟩ = true ∨
    (∀ ch ∈ st.histories, ch.roomName = room → ch.recordingUrl = some url) ∧
      ∀ req ∈ before, ∀ data, data.roomName = room → ¬ req.Stores st.users data

theorem recordedAs_recorded {before : List Request} {d : CallHistoryCreate}
    (htaken : Taken st room url before)
    (hd : d ∈ recordedAs room (some url) (st.data (isRoom room) ++ storedIn st.users room before)) :
    d.recordingUrl = some url := by
  unfold recordedAs at hd
  split_ifs at hd with hfits
  · obtain ⟨_, -, rfl⟩ := List.mem_map.mp hd
    rfl
  · obtain ⟨hrows, hbefore⟩ := htaken.resolve_left hfits
    rcases List.mem_append.mp hd with hd | hd
    · obtain ⟨ch, hch, rfl, hr⟩ := mem_data.mp hd
      exact hrows ch hch (isRoom_iff.mp hr)
    · obtain ⟨hroom, req, hin, hs⟩ := mem_storedIn.mp hd
      exact absurd hs (hbefore req hin d hroom)

/-- The recording is kept exactly when it is taken and no post for the room is stored after it. -/
theorem recording_kept_iff (hput : put.route = .recordAudio ⟨room, some url⟩)
    {before after : List Request} (hposts : OnlyPosts room (before ++ after)) :
    RecordingKept env st room url put before after ↔
      Taken st room url before ∧
        ∀ req ∈ after, ∀ data, data.roomName = room → ¬ req.Stores st.users data := by
  have hdata := data_run_order env st hput hposts
  -- a post that is stored in the room brings a row without a recording
  have hunrecorded : ∀ req ∈ before ++ after, ∀ data, data.roomName = room →
      req.Stores st.users data → data.recordingUrl = none := by
    intro req hin data hroom hs
    have habout : req.about (isRoom room) := by
      unfold Request.about
      rw [hs.1]
      exact isRoom_iff.mpr hroom
    obtain ⟨data', hr, hnone⟩ := hposts req hin habout
    cases hs.1.symm.trans hr
    exact hnone
  constructor
  · intro hkept
    have hrow : ∀ d ∈ (run env st (before ++ put :: after)).data (isRoom room), d.roomName = room →
        d.recordingUrl = some url := by
      intro d hd hroom
      obtain ⟨ch, hch, rfl, -⟩ := mem_data.mp hd
      exact hkept.recorded ch hch hroom
    rw [hdata] at hrow
    refine ⟨?_, fun req hin data hroom hs => ?_⟩
    · by_cases hfits : AudioUrlUpdate.storable ⟨room, some url⟩ = true
      · exact .inl hfits
      · have hsame : recordedAs room (some url) (st.data (isRoom room) ++
            storedIn st.users room before) = st.data (isRoom room) ++
              storedIn st.users room before := if_neg hfits
        rw [hsame] at hrow
        refine .inr ⟨fun ch hch hroom => ?_, fun req hin data hroom hs => ?_⟩
        · have hd : ch.toCallHistoryCreate ∈ st.data (isRoom room) :=
            mem_data.mpr ⟨ch, hch, rfl, isRoom_iff.mpr hroom⟩
          exact hrow _ (List.mem_append_left _ (List.mem_append_left _ hd)) hroom
        · have hd : data ∈ storedIn st.users room before := mem_storedIn.mpr ⟨hroom, req, hin, hs⟩
          have hurl := hrow _ (List.mem_append_left _ (List.mem_append_right _ hd)) hroom
          rw [hunrecorded req (List.mem_append_left _ hin) data hroom hs] at hurl
          cases hurl
    · have hd : data ∈ storedIn st.users room after := mem_storedIn.mpr ⟨hroom, req, hin, hs⟩
      have hurl := hrow _ (List.mem_append_right _ hd) hroom
      rw [hunrecorded req (List.mem_append_right _ hin) data hroom hs] at hurl
      cases hurl
  · rintro ⟨htaken, hnone⟩
    have hlate : storedIn st.users room after = [] := by
      refine List.eq_nil_iff_forall_not_mem.mpr fun data hin => ?_
      obtain ⟨hroom, req, hreq, hs⟩ := mem_storedIn.mp hin
      exact hnone req hreq data hroom hs
    have hrecorded : ∀ ch ∈ (run env st (before ++ put :: after)).histories, ch.roomName = room →
        ch.recordingUrl = some url := by
      intro ch hch hroom
      have hmem : ch.toCallHistoryCreate ∈
          (run env st (before ++ put :: after)).data (isRoom room) :=
        mem_data.mpr ⟨ch, hch, rfl, isRoom_iff.mpr hroom⟩
      rw [hdata, hlate, List.append_nil] at hmem
      exact recordedAs_recorded htaken hmem
    refine ⟨fun posts hperm => same_table hput hposts hlate hperm, hrecorded, ?_⟩
    rw [run_append]
    exact repeated_of_recorded hput hrecorded

end Room

/-! ### A call of two users -/

def caller (email : EmailStr) (name : String) : User :=
  ⟨0, email, none, name, none, some "local", none⟩

def twoUsers : Users :=
  ((Users.empty.insert (caller kimsEmail "Kim")).2.insert (caller leesEmail "Lee")).2

def beforeCalls : State := ⟨twoUsers, [], 1, .empty⟩

def postOf (userId partnerId : ℤ) : Request :=
  ⟨0, 0, none, .record ⟨userId, partnerId, "room_1_2_a", 0, 60, 60, none, none, none⟩⟩

def agentPut : Request := ⟨0, 0, none, .recordAudio ⟨"room_1_2_a", some "call.ogg"⟩⟩

theorem onlyPosts_two : OnlyPosts "room_1_2_a" [postOf 1 2, postOf 2 1] := by
  intro req hin _
  simp only [List.mem_cons, List.not_mem_nil, or_false] at hin
  rcases hin with rfl | rfl
  · exact ⟨_, rfl, rfl⟩
  · exact ⟨_, rfl, rfl⟩

theorem recording_kept_iff_applied :
    RecordingKept plainEnv beforeCalls "room_1_2_a" "call.ogg" agentPut
        [postOf 1 2, postOf 2 1] [] ∧
      (run plainEnv beforeCalls [postOf 1 2, postOf 2 1, agentPut]).histories.length = 2 := by
  refine ⟨(recording_kept_iff rfl onlyPosts_two).mpr ⟨.inl (by decide), ?_⟩, rfl⟩
  intro req hin
  cases hin

theorem late_post_unrecorded :
    ¬ ∀ env st room url put before after, put.route = .recordAudio ⟨room, some url⟩ →
      OnlyPosts room (before ++ after) →
      (∀ req ∈ before ++ after, ∃ data, data.roomName = room ∧ req.Stores st.users data) →
      RecordingKept env st room url put before after := by
  intro h
  have hstores : ∀ req ∈ [postOf 1 2] ++ [postOf 2 1], ∃ data, data.roomName = "room_1_2_a" ∧
      req.Stores twoUsers data := by
    intro req hin
    simp only [List.cons_append, List.nil_append, List.mem_cons, List.not_mem_nil, or_false] at hin
    rcases hin with rfl | rfl
    · exact ⟨_, rfl, rfl, by decide, by decide⟩
    · exact ⟨_, rfl, rfl, by decide, by decide⟩
  have hkept := h plainEnv beforeCalls "room_1_2_a" "call.ogg" agentPut [postOf 1 2] [postOf 2 1]
    rfl onlyPosts_two hstores
  obtain ⟨row, hrow, hroom, hurl⟩ : ∃ row ∈
      (run plainEnv beforeCalls [postOf 1 2, agentPut, postOf 2 1]).histories,
      row.roomName = "room_1_2_a" ∧ row.recordingUrl = none :=
    ⟨_, List.mem_of_getElem? (i := 1) rfl, rfl, rfl⟩
  have hsome := hkept.recorded row hrow hroom
  rw [hurl] at hsome
  cases hsome

end Nalang.CallRoutes
