import Nalang.Profiles.SetupForm
import Nalang.VoiceCall.CallRecord
import Nalang.WaitingRoom.Leaving

/-!
# The partner that goes with a room

For every proposal it takes up, the page asks the server for the profile of the
partner. `partnerData` is the last answer that has come, whatever proposal it belongs
to. It is neither cleared nor compared with `matchInfo` when the room is entered, and
the call is recorded with it.
-/

namespace Nalang.WaitingRoom
open Matchmaking Transition Profiles Localisation VoiceCall

/-- A page with its calls of `getPartnerData` that have not come back. -/
structure Visit where
  world : World
  partnerData : Option UserProfileOut
  lookups : List UserId
  /-- For every room in `entering`, what the closure of `enterVoiceRoom` has captured. -/
  carried : List (Proposal × Option UserProfileOut)
  /-- The rooms navigated to, with the state of the location. -/
  navigated : List (Proposal × Option UserProfileOut)

inductive VisitLabel
  | page (l : PageLabel)
  | partner (index : ℕ) (answer : Option UserProfileOut)

def Component.asks (c : Component) : Option UserId :=
  match c.action with
  | some (.matchProposal _ partnerId) => some partnerId
  | _ => none

def Component.carries (c : Component) (accessToken : Bool) (partnerData : Option UserProfileOut) :
    Option (Proposal × Option UserProfileOut) :=
  (c.starts accessToken).bind fun _ => c.matchInfo.map fun p => (p, partnerData)

namespace Visit

def effects (v : Visit) (c : Component) (ws : Option Socket) : Visit :=
  { v with
    lookups := v.lookups ++ c.asks.toList
    carried := v.carried ++ (c.carries ws.isSome v.partnerData).toList }

def after (v : Visit) (c : Component) : PageLabel → Visit
  | .render ws => v.effects c ws
  | .reject ws => v.effects c.rejecting ws
  | .callToken index granted =>
    { v with
      carried := v.carried.eraseIdx index
      navigated := v.navigated ++ if granted then v.carried[index]?.toList else [] }
  | _ => v

def step (id : ℕ) (v : Visit) : VisitLabel → Option Visit
  | .page l =>
    match v.world.components id with
    | none => none
    | some c => (v.world.pageStep id l).map fun w => { v.after c l with world := w }
  | .partner index answer =>
    if index < v.lookups.length then
      some { v with
        lookups := v.lookups.eraseIdx index
        partnerData := answer.or v.partnerData }
    else none

def arrived (clock : Clock) (id : ℕ) (user : UserId) (ws : Option Socket) : Visit :=
  ⟨.arrived clock id user ws, none, [], [], []⟩

end Visit

def visits (id : ℕ) : Lts Visit VisitLabel := Lts.ofStep (Visit.step id)

/-- What `GET /{id}` may answer, at some state of the server. -/
def AnswersFor (partnerId : UserId) (profile : UserProfileOut) : Prop :=
  ∃ o db rows users acceptLanguage,
    getPartner o db rows users partnerId.val acceptLanguage = .ok profile

/-- The calls come back with a profile, in their order, and before the countdown has ended. -/
def Visit.Prompt (id : ℕ) (v : Visit) : VisitLabel → Prop
  | .page (.render ws) => ∀ c, v.world.components id = some c → c.starts ws.isSome ≠ none →
      v.lookups = []
  | .page _ => True
  | .partner index answer => index = 0 ∧
      ∃ profile, answer = some profile ∧ ∀ partnerId ∈ v.lookups.head?, AnswersFor partnerId profile

theorem getPartner_id {o : LoadOrder} {db : Tables} {rows : OrderedDict Profiles.Link ℕ}
    {users : Accounts.Users} {id : ℤ} {acceptLanguage : Option (List Char)}
    {profile : UserProfileOut}
    (h : getPartner o db rows users id acceptLanguage = .ok profile) : (profile.id : ℤ) = id := by
  unfold getPartner getFullUserWithRelations at h
  cases huser : users.getUserById id with
  | none =>
    rw [huser] at h
    cases h
  | some user =>
    rw [huser] at h
    cases h
    have hfound := List.find?_some huser
    exact of_decide_eq_true hfound

/-! ### The proposal on a page -/

def Component.infoAfter (c : Component) : PageLabel → Option Proposal
  | .render _ => c.shows
  | .reject _ => c.rejecting.shows
  | _ => c.matchInfo

section Proposals
variable {w w' : World} {id : ℕ} {c : Component} {l : PageLabel}

theorem handleReject_matchInfo (c : Component) (p : Proposal) (ws : Option Socket) :
    ∃ c', (w.handleReject id c p ws).components id = some c' ∧
      c'.matchInfo = c.rejecting.shows := by
  obtain ⟨c', hc', -, -, -, hinfo⟩ :=
    World.rendered_component (w := w.send id (World.eventOf "rejected" p.room)) id c.rejecting ws
  exact ⟨c', hc', hinfo⟩

theorem entered_matchInfo {c₀ c₁ : Component} (hc : w.components id = some c₀)
    (hinfo : c₀.matchInfo = c.matchInfo) :
    ∃ c', (w.entered id c₁).components id = some c' ∧ c'.matchInfo = c.matchInfo := by
  have hleft : ((w.disconnect id).modify id fun c' =>
      { c' with hasEnteredRoom := true }).components id =
        some { c₀ with hasEnteredRoom := true } := by
    rw [World.modify_components_self, World.disconnect_components, hc]
    rfl
  unfold World.entered
  dsimp only
  split_ifs
  · exact ⟨_, World.unmounted_component hleft, hinfo⟩
  · exact ⟨_, hleft, hinfo⟩

theorem pageStep_matchInfo (hc : w.components id = some c) (h : w.pageStep id l = some w') :
    ∃ c', w'.components id = some c' ∧ c'.matchInfo = c.infoAfter l := by
  cases World.pageEffect_of_step h with
  | receives hc' hm =>
    cases hc.symm.trans hc'
    simp [World.onmessage, hc, hm, Component.infoAfter]
  | renders hc' _ _ =>
    cases hc.symm.trans hc'
    obtain ⟨c', hc', -, -, -, hinfo⟩ := World.rendered_component (w := w) id c _
    exact ⟨c', hc', hinfo⟩
  | rejects hc' _ _ _ =>
    cases hc.symm.trans hc'
    exact handleReject_matchInfo c _ _
  | ticks hc' _ _ =>
    cases hc.symm.trans hc'
    exact ⟨_, World.setComponent_self, rfl⟩
  | locates hc' _ _ =>
    cases hc.symm.trans hc'
    obtain ⟨c', hc', -, -, -, hinfo, -⟩ := World.located_component _ hc
    exact ⟨c', hc', hinfo⟩
  | refused hc' _ =>
    cases hc.symm.trans hc'
    exact ⟨_, World.setComponent_self, rfl⟩
  | enters hc' _ =>
    cases hc.symm.trans hc'
    exact entered_matchInfo World.setComponent_self rfl
  | opens _ _ _ => exact ⟨c, hc, rfl⟩
  | closes _ _ _ =>
    cases hm : c.mounted with
    | false => simp [World.onclose, hc, hm, Component.infoAfter]
    | true => simp [World.onclose, hc, hm, Component.infoAfter]

end Proposals

/-! ### The partner of the proposal -/

def VisitLabel.frame? : VisitLabel → Option ServerEvent
  | .page (.frame event) => some event
  | _ => none

def framesOf (es : List VisitLabel) : List ServerEvent := es.filterMap VisitLabel.frame?

def Proposed (frames : List ServerEvent) (p : Proposal) : Prop :=
  .matchProposal p.room p.partnerId ∈ frames

def Visit.Expects (v : Visit) (partnerId : UserId) : Prop :=
  v.lookups.getLast? = some partnerId ∨
    v.lookups = [] ∧ ∃ profile, v.partnerData = some profile ∧ profile.id = partnerId.val

def Accompanied (frames : List ServerEvent) (x : Proposal × Option UserProfileOut) : Prop :=
  Proposed frames x.1 ∧ ∃ profile, x.2 = some profile ∧ profile.id = x.1.partnerId.val

structure Component.Informed (c : Component) (frames : List ServerEvent) (v : Visit) : Prop where
  message : ∀ event, c.message = some event → event ∈ frames
  proposal : ∀ p, c.matchInfo = some p → Proposed frames p ∧ v.Expects p.partnerId

structure Escorted (id : ℕ) (frames : List ServerEvent) (v : Visit) : Prop where
  informed : ∃ c, v.world.components id = some c ∧ c.Informed frames v
  carried : ∀ x ∈ v.carried, Accompanied frames x
  navigated : ∀ x ∈ v.navigated, Accompanied frames x

section Escort
variable {id : ℕ} {frames : List ServerEvent} {v v' : Visit} {c c' : Component} {w' : World}
  {p : Proposal} {ws : Option Socket}

theorem shows_cases (h : c.shows = some p) :
    c.asks = some p.partnerId ∧ c.message = some (.matchProposal p.room p.partnerId) ∨
      c.asks = none ∧ c.matchInfo = some p := by
  unfold Component.shows at h
  unfold Component.asks Component.action
  cases hmessage : c.message with
  | none =>
    rw [hmessage] at h
    exact .inr ⟨rfl, h⟩
  | some event =>
    rw [hmessage] at h
    cases event with
    | matchProposal room partnerId =>
      dsimp only at h ⊢
      split_ifs at h ⊢ with hroom
      · exact .inr ⟨rfl, h⟩
      · cases h
        exact .inl ⟨rfl, rfl⟩
    | matched room => exact .inr ⟨rfl, h⟩
    | rejected => cases h
    | disconnected => cases h

theorem carries_eq_some {accessToken : Bool} {data : Option UserProfileOut}
    {x : Proposal × Option UserProfileOut} (h : c.carries accessToken data = some x) :
    c.starts accessToken ≠ none ∧ c.matchInfo = some x.1 ∧ x.2 = data := by
  obtain ⟨room, hstarts, hmatch⟩ := Option.bind_eq_some_iff.mp h
  obtain ⟨p, hp, rfl⟩ := Option.map_eq_some_iff.mp hmatch
  exact ⟨hstarts ▸ Option.some_ne_none room, hp, rfl⟩

theorem rejecting_carries {accessToken : Bool} {data : Option UserProfileOut} :
    c.rejecting.carries accessToken data = none := by
  unfold Component.carries
  cases c.rejecting.starts accessToken <;> rfl

theorem Accompanied.mono {frames' : List ServerEvent} {x : Proposal × Option UserProfileOut}
    (h : Accompanied frames x) (hsub : frames ⊆ frames') : Accompanied frames' x :=
  ⟨hsub h.1, h.2⟩

theorem Component.Informed.mono {frames' : List ServerEvent} (h : c.Informed frames v)
    (hsub : frames ⊆ frames') : c.Informed frames' v where
  message event hevent := hsub (h.message event hevent)
  proposal p hp := ⟨hsub (h.proposal p hp).1, (h.proposal p hp).2⟩

theorem informed_effects {c₁ : Component} (h : c.Informed frames v)
    (hmessage : c₁.message = c.message) (hinfo : ∀ p, c₁.matchInfo = some p → c.matchInfo = some p)
    (hmessage' : c'.message = c.message) (hinfo' : c'.matchInfo = c₁.shows) :
    c'.Informed frames { v.effects c₁ ws with world := w' } := by
  refine ⟨fun event hevent => h.message event (hmessage' ▸ hevent), fun p hp => ?_⟩
  rcases shows_cases (hinfo' ▸ hp) with ⟨hasks, hframe⟩ | ⟨hasks, hold⟩
  · refine ⟨h.message _ (hmessage ▸ hframe), .inl ?_⟩
    change (v.lookups ++ c₁.asks.toList).getLast? = _
    rw [hasks, Option.toList_some, List.getLast?_concat]
  · obtain ⟨hproposed, hexpects⟩ := h.proposal p (hinfo p hold)
    refine ⟨hproposed, ?_⟩
    unfold Visit.Expects Visit.effects
    rw [hasks, Option.toList_none, List.append_nil]
    exact hexpects

theorem accompanied_of_carries (h : c.Informed frames v) {accessToken : Bool}
    {x : Proposal × Option UserProfileOut} (hx : c.carries accessToken v.partnerData = some x)
    (hprompt : c.starts accessToken ≠ none → v.lookups = []) : Accompanied frames x := by
  obtain ⟨hstarts, hmatch, hdata⟩ := carries_eq_some hx
  obtain ⟨hproposed, hexpects⟩ := h.proposal x.1 hmatch
  rcases hexpects with hlast | ⟨-, hprofile⟩
  · rw [hprompt hstarts] at hlast
    cases hlast
  · exact ⟨hproposed, hdata ▸ hprofile⟩

theorem informed_answer (h : c.Informed frames v) {partnerId : UserId} {rest : List UserId}
    {profile : UserProfileOut} (hlookups : v.lookups = partnerId :: rest)
    (hprofile : profile.id = partnerId.val) :
    c.Informed frames { v with lookups := rest, partnerData := some profile } := by
  refine ⟨h.message, fun p hp => ?_⟩
  obtain ⟨hproposed, hexpects⟩ := h.proposal p hp
  refine ⟨hproposed, ?_⟩
  rw [Visit.Expects, hlookups] at hexpects
  rcases hexpects with hlast | ⟨hnil, -⟩
  · cases rest with
    | nil =>
      cases hlast
      exact .inr ⟨rfl, profile, rfl, hprofile⟩
    | cons next rest => exact .inl (by simpa using hlast)
  · cases hnil

theorem escorted_effects {c₁ : Component} (h : Escorted id frames v)
    (hc : v.world.components id = some c) (hmessage : c₁.message = c.message)
    (hinfo : ∀ p, c₁.matchInfo = some p → c.matchInfo = some p)
    (hcarries : ∀ x, c₁.carries ws.isSome v.partnerData = some x → Accompanied frames x)
    (hc' : w'.components id = some c') (hmessage' : c'.message = c.message)
    (hinfo' : c'.matchInfo = c₁.shows) :
    Escorted id frames { v.effects c₁ ws with world := w' } := by
  obtain ⟨c₀, hc₀, hinformed⟩ := h.informed
  cases hc.symm.trans hc₀
  refine ⟨⟨c', hc', informed_effects hinformed hmessage hinfo hmessage' hinfo'⟩, ?_, h.navigated⟩
  intro x hx
  rcases List.mem_append.mp hx with hx | hx
  · exact h.carried x hx
  · exact hcarries x (Option.mem_toList.mp hx)

theorem escorted_other (h : Escorted id frames v) (hc : v.world.components id = some c)
    (hc' : w'.components id = some c') (hmessage : c'.message = c.message)
    (hinfo : c'.matchInfo = c.matchInfo) : Escorted id frames { v with world := w' } := by
  obtain ⟨c₀, hc₀, hinformed⟩ := h.informed
  cases hc.symm.trans hc₀
  refine ⟨⟨c', hc', ?_, ?_⟩, h.carried, h.navigated⟩
  · exact fun event hevent => hinformed.message event (hmessage ▸ hevent)
  · exact fun p hp => hinformed.proposal p (hinfo ▸ hp)

theorem escorted_frame (h : Escorted id frames v) (hc : v.world.components id = some c)
    {event : ServerEvent} (hc' : w'.components id = some c') (hmessage : c'.message = some event)
    (hinfo : c'.matchInfo = c.matchInfo) :
    Escorted id (frames ++ [event]) { v with world := w' } := by
  have hsub : frames ⊆ frames ++ [event] := List.subset_append_left _ _
  obtain ⟨c₀, hc₀, hinformed⟩ := h.informed
  cases hc.symm.trans hc₀
  refine ⟨⟨c', hc', ?_, ?_⟩, fun x hx => (h.carried x hx).mono hsub,
    fun x hx => (h.navigated x hx).mono hsub⟩
  · intro event' hevent
    cases hmessage.symm.trans hevent
    exact List.mem_append_right _ (List.mem_singleton_self event)
  · exact fun p hp => (hinformed.mono hsub).proposal p (hinfo ▸ hp)

theorem escorted_callToken (h : Escorted id frames v) (index : ℕ) (granted : Bool) :
    Escorted id frames (v.after c (.callToken index granted)) := by
  obtain ⟨c₀, hc₀, hinformed⟩ := h.informed
  refine ⟨⟨c₀, hc₀, hinformed.message, hinformed.proposal⟩,
    fun x hx => h.carried x (List.mem_of_mem_eraseIdx hx), fun x hx => ?_⟩
  rcases List.mem_append.mp hx with hx | hx
  · exact h.navigated x hx
  · cases granted with
    | false => cases hx
    | true => exact h.carried x (List.mem_of_getElem? (Option.mem_toList.mp hx))

theorem visit_page_eq_some {l : PageLabel} (h : v.step id (.page l) = some v') :
    ∃ c w', v.world.components id = some c ∧ v.world.pageStep id l = some w' ∧
      v' = { v.after c l with world := w' } := by
  unfold Visit.step at h
  cases hc : v.world.components id with
  | none => simp [hc] at h
  | some c =>
    simp only [hc] at h
    obtain ⟨w', hw, heq⟩ := Option.map_eq_some_iff.mp h
    exact ⟨c, w', rfl, hw, heq.symm⟩

theorem escorted_page {l : PageLabel} (h : Escorted id frames v) (hp : v.Prompt id (.page l))
    (hs : v.step id (.page l) = some v') :
    Escorted id (frames ++ framesOf [.page l]) v' := by
  obtain ⟨c, w', hc, hw, rfl⟩ := visit_page_eq_some hs
  obtain ⟨c₀, hc₀, hinformed⟩ := h.informed
  cases hc.symm.trans hc₀
  obtain ⟨c', hc', hinfo⟩ := pageStep_matchInfo hc hw
  obtain ⟨c'', hc'', hmessage, -⟩ := World.pageStep_component hc hw
  cases hc'.symm.trans hc''
  cases l with
  | frame event => exact escorted_frame h hc hc' hmessage hinfo
  | render ws =>
    refine (List.append_nil frames).symm ▸ escorted_effects h hc rfl (fun _ hp => hp) ?_ hc'
      hmessage hinfo
    intro x hx
    exact accompanied_of_carries hinformed hx (hp c hc)
  | reject ws =>
    refine (List.append_nil frames).symm ▸ escorted_effects h hc rfl ?_ ?_ hc' hmessage hinfo
    · intro p hp
      cases hp
    · intro x hx
      rw [rejecting_carries] at hx
      cases hx
  | callToken index granted =>
    exact (List.append_nil frames).symm ▸
      escorted_other (escorted_callToken h index granted) hc hc' hmessage hinfo
  | tick => exact (List.append_nil frames).symm ▸ escorted_other h hc hc' hmessage hinfo
  | locate ws => exact (List.append_nil frames).symm ▸ escorted_other h hc hc' hmessage hinfo
  | opens s => exact (List.append_nil frames).symm ▸ escorted_other h hc hc' hmessage hinfo
  | closes s => exact (List.append_nil frames).symm ▸ escorted_other h hc hc' hmessage hinfo

theorem escorted_partner {index : ℕ} {answer : Option UserProfileOut} (h : Escorted id frames v)
    (hp : v.Prompt id (.partner index answer)) (hs : v.step id (.partner index answer) = some v') :
    Escorted id frames v' := by
  obtain ⟨rfl, profile, rfl, hserved⟩ := hp
  obtain ⟨hindex, hs⟩ := Option.ite_none_right_eq_some.mp hs
  obtain ⟨partnerId, rest, hlookups⟩ := List.exists_cons_of_length_pos hindex
  obtain ⟨o, db, rows, users, acceptLanguage, hanswer⟩ := hserved partnerId (by simp [hlookups])
  have hprofile : profile.id = partnerId.val := by exact_mod_cast getPartner_id hanswer
  obtain ⟨c, hc, hinformed⟩ := h.informed
  cases hs
  rw [hlookups]
  exact ⟨⟨c, hc, informed_answer hinformed hlookups hprofile⟩, h.carried, h.navigated⟩

theorem escorted_step {e : VisitLabel} (h : Escorted id frames v) (hp : v.Prompt id e)
    (hs : v.step id e = some v') : Escorted id (frames ++ framesOf [e]) v' := by
  cases e with
  | page l => exact escorted_page h hp hs
  | partner index answer =>
    exact (List.append_nil frames).symm ▸ escorted_partner h hp hs

end Escort

/-! ### The rooms and what goes with them -/

section Rooms
variable {id : ℕ} {v v' : Visit} {c : Component}

theorem carries_room (c : Component) (accessToken : Bool) (data : Option UserProfileOut) :
    (c.carries accessToken data).map (fun x => x.1.room) = c.starts accessToken := by
  have hroom : ∀ room, c.starts accessToken = some room →
      c.matchInfo.map Proposal.room = some room := by
    intro room hstarts
    unfold Component.starts at hstarts
    split_ifs at hstarts
    exact hstarts
  unfold Component.carries
  cases hstarts : c.starts accessToken with
  | none => rfl
  | some room =>
    rw [Option.bind_some, Option.map_map, ← hroom room hstarts]
    rfl

theorem carried_step {e : VisitLabel} (hc : v.world.components id = some c)
    (h : v.carried.map (fun x => x.1.room) = c.entering) (hs : v.step id e = some v') :
    ∃ c', v'.world.components id = some c' ∧
      v'.carried.map (fun x => x.1.room) = c'.entering := by
  cases e with
  | page l =>
    obtain ⟨c₀, w', hc₀, hw, rfl⟩ := visit_page_eq_some hs
    cases hc.symm.trans hc₀
    obtain ⟨c', hc', -, hentering⟩ := World.pageStep_component hc hw
    refine ⟨c', hc', ?_⟩
    rw [hentering]
    cases l with
    | render ws =>
      change (v.carried ++ (c.carries ws.isSome v.partnerData).toList).map _ = _
      rw [List.map_append, h, ← Option.toList_map, carries_room]
      rfl
    | reject ws =>
      change (v.carried ++ (c.rejecting.carries ws.isSome v.partnerData).toList).map _ = _
      rw [rejecting_carries, Option.toList_none, List.append_nil, h]
      rfl
    | callToken index granted =>
      change (v.carried.eraseIdx index).map _ = _
      rw [← List.eraseIdx_map, h]
      rfl
    | _ => exact h
  | partner index answer =>
    obtain ⟨-, hs⟩ := Option.ite_none_right_eq_some.mp hs
    cases hs
    exact ⟨c, hc, h⟩

end Rooms

/-! ### From the proposal to the record of the call -/

structure RecordsOnly (partnerData : Option ℤ) (roomName : String) (s : CallPage) : Prop where
  partner : s.partnerData = partnerData
  room : s.roomName = roomName
  recorded : ∀ d ∈ s.recorded, d.roomName = roomName ∧ partnerData = some d.partnerId

section Calls
variable {partnerData : Option ℤ} {roomName : String} {s s' : CallPage}

theorem recordsOnly_leave (h : RecordsOnly partnerData roomName s) (user : Option ℤ)
    (endedAt : ℤ) : RecordsOnly partnerData roomName (s.leave user endedAt) := by
  refine ⟨h.partner, h.room, fun d hd => ?_⟩
  rcases List.mem_append.mp hd with hd | hd
  · exact h.recorded d hd
  · have hsaved := Option.mem_toList.mp hd
    unfold CallPage.saveHistory at hsaved
    cases user with
    | none => cases hsaved
    | some userId =>
      cases hpartner : s.partnerData with
      | none => simp [hpartner] at hsaved
      | some partnerId =>
        simp only [hpartner, Option.some.injEq] at hsaved
        rw [← hsaved, ← h.partner, hpartner]
        exact ⟨h.room, rfl⟩

theorem recordsOnly_step {e : CallEvent} (h : RecordsOnly partnerData roomName s)
    (hs : s.step e = some s') : RecordsOnly partnerData roomName s' := by
  have hstay : ∀ {c : Prop} [Decidable c] {t : CallPage}, (if c then some t else none) = some s' →
      t.partnerData = s.partnerData → t.roomName = s.roomName → t.recorded = s.recorded →
        RecordsOnly partnerData roomName s' := by
    intro c _ t ht hpartner hroom hrecorded
    obtain ⟨-, ht⟩ := Option.ite_none_right_eq_some.mp ht
    cases ht
    exact ⟨hpartner.trans h.partner, hroom.trans h.room, fun d hd => h.recorded d (hrecorded ▸ hd)⟩
  cases e with
  | load user => exact hstay hs rfl rfl rfl
  | render => exact hstay hs rfl rfl rfl
  | clickLeave => exact hstay hs rfl rfl rfl
  | timeout => exact hstay hs rfl rfl rfl
  | participantDisconnected now =>
    obtain ⟨-, hs⟩ := Option.ite_none_right_eq_some.mp hs
    cases hs
    exact recordsOnly_leave h s.subscribed now
  | roomDeleted index ok now =>
    unfold CallPage.step at hs
    cases huser : s.deleting[index]? with
    | none => simp [huser] at hs
    | some user =>
      simp only [huser, Option.some.injEq] at hs
      rw [← hs]
      have hcame : RecordsOnly partnerData roomName
          { s with deleting := s.deleting.eraseIdx index } := ⟨h.partner, h.room, h.recorded⟩
      exact recordsOnly_leave hcame user now
  | unmount => exact hstay hs rfl rfl rfl

end Calls

section Runs
variable {clock : Clock} {id : ℕ} {user : UserId} {ws : Option Socket} {es : List VisitLabel}
  {v : Visit} {p : Proposal} {partnerData : Option UserProfileOut} {startedAt : ℤ}
  {stored : Option ℤ} {ces : List CallEvent} {s : CallPage}

theorem escorted_arrived : Escorted id [] (.arrived clock id user ws) := by
  obtain ⟨c, hc, hinfo⟩ : ∃ c, (World.arrived clock id user ws).components id = some c ∧
      c.message = none ∧ c.matchInfo = none := by
    unfold World.arrived World.locationEffect
    cases ws with
    | none => simp [opened_component, Component.mount]
    | some s => simp [opened_component, Component.mount, World.connect]
  refine ⟨⟨c, hc, ?_, ?_⟩, fun x hx => absurd hx List.not_mem_nil,
    fun x hx => absurd hx List.not_mem_nil⟩
  · intro event hevent
    rw [hinfo.1] at hevent
    cases hevent
  · intro p hp
    rw [hinfo.2] at hp
    cases hp

theorem escorted_run
    (hr : ((visits id).guard (Visit.Prompt id)).Run (.arrived clock id user ws) es v) :
    Escorted id (framesOf es) v := by
  refine hr.history (fun es v => Escorted id (framesOf es) v) escorted_arrived ?_
  intro es v e v' h hs
  unfold framesOf
  rw [List.filterMap_append]
  exact escorted_step h hs.1 hs.2

theorem carried_rooms (hr : (visits id).Run (.arrived clock id user ws) es v) :
    ∃ c, v.world.components id = some c ∧ v.carried.map (fun x => x.1.room) = c.entering := by
  refine hr.invariant (fun v => ∃ c, v.world.components id = some c ∧
    v.carried.map (fun x => x.1.room) = c.entering) ?_ ?_
  · obtain ⟨c, hc, -, hentering⟩ := arrived_component clock id user ws
    exact ⟨c, hc, hentering.symm⟩
  · rintro v e v' ⟨c, hc, h⟩ hs
    exact carried_step hc h hs

/-- If the calls of `getPartnerData` come back in their order and before the countdown has ended, a
call in a room is recorded, if it is, with the partner whom the server has proposed for the room. -/
theorem recorded_with_proposed_partner
    (hr : ((visits id).guard (Visit.Prompt id)).Run (.arrived clock id user ws) es v)
    (hp : (p, partnerData) ∈ v.navigated)
    (hcall : callPage.Run (.mount (partnerData.map fun profile => (profile.id : ℤ)) p.room
      startedAt stored) ces s) :
    .matchProposal p.room p.partnerId ∈ framesOf es ∧
      ∀ d ∈ s.recorded, d.roomName = p.room ∧ d.partnerId = p.partnerId.val := by
  obtain ⟨hproposed, profile, hdata, hid⟩ := (escorted_run hr).navigated _ hp
  dsimp only at hproposed hdata hid
  have hs : RecordsOnly (partnerData.map fun profile => (profile.id : ℤ)) p.room s := by
    refine hcall.invariant (RecordsOnly _ p.room) ?_ ?_
    · exact ⟨rfl, rfl, fun d hd => absurd hd List.not_mem_nil⟩
    · exact fun _ _ _ h hstep => recordsOnly_step h hstep
  refine ⟨hproposed, fun d hd => ?_⟩
  obtain ⟨hroom, hpartner⟩ := hs.recorded d hd
  rw [hdata, Option.map_some, Option.some.injEq, hid] at hpartner
  exact ⟨hroom, hpartner.symm⟩

end Runs

/-! ### Answers in time and answers too late -/

def profileOf (id : ℕ) (name : String) : UserProfileOut :=
  ⟨id, name, "kim@mail.com", [], [], none, none⟩

def lookedUp : List VisitLabel :=
  [.page (.frame (.matchProposal "room" (.of 0))), .page (.render (some ⟨2⟩)),
    .partner 0 (some (profileOf 1 "Kim")), .page (.render (some ⟨2⟩))] ++
    (List.replicate 5 [.page .tick, .page (.render (some ⟨2⟩))]).flatten ++
    [.page (.callToken 0 true)]

/-- The first of two partners is gone, and their profile comes last. -/
def crossed : List VisitLabel :=
  [.page (.frame (.matchProposal "first" (.of 0))), .page (.render (some ⟨2⟩)),
    .page (.frame .rejected), .page (.render (some ⟨2⟩)),
    .page (.frame (.matchProposal "second" (.of 2))), .page (.render (some ⟨3⟩)),
    .partner 1 (some (profileOf 3 "Lee")), .partner 0 (some (profileOf 1 "Kim")),
    .page (.render (some ⟨3⟩))] ++
    (List.replicate 5 [.page .tick, .page (.render (some ⟨3⟩))]).flatten ++
    [.page (.callToken 0 true)]

def promptly (v : Visit) : VisitLabel → Bool
  | .page (.render ws) =>
    v.lookups = [] ∨ ((v.world.components 0).bind fun c => c.starts ws.isSome) = none
  | .page _ => true
  | .partner index answer =>
    index = 0 ∧ answer = some (profileOf 1 "Kim") ∧ v.lookups.head? = some (.of 0)

theorem answersFor_kim : AnswersFor (.of 0) (profileOf 1 "Kim") :=
  ⟨asStored, seeded, .empty, Accounts.oneUser, none, rfl⟩

theorem prompt_of_promptly (v : Visit) (e : VisitLabel) (h : promptly v e = true) :
    v.Prompt 0 e := by
  cases e with
  | page l =>
    cases l with
    | render ws =>
      intro c hc hstarts
      unfold promptly at h
      rw [hc] at h
      rcases of_decide_eq_true h with hnil | hnone
      · exact hnil
      · exact absurd hnone hstarts
    | _ => trivial
  | partner index answer =>
    obtain ⟨hindex, hanswer, hhead⟩ := of_decide_eq_true h
    refine ⟨hindex, _, hanswer, fun partnerId hpartner => ?_⟩
    cases hhead.symm.trans hpartner
    exact answersFor_kim

def start : Visit := .arrived .start 0 (.of 1) (some ⟨1⟩)

theorem recorded_with_proposed_partner_applied : ∃ v s,
    ((visits 0).guard (Visit.Prompt 0)).Run start lookedUp v ∧
      v.navigated = [(⟨"room", .of 0⟩, some (profileOf 1 "Kim"))] ∧
      callPage.Run (.mount (some 1) "room" 0 (some 2)) [.participantDisconnected 60000] s ∧
      s.recorded = [⟨2, 1, "room", 0, 60000, 60⟩] ∧
      .matchProposal "room" (.of 0) ∈ framesOf lookedUp := by
  obtain ⟨v, hexec, hnavigated⟩ : ∃ v, Lts.exec (Lts.checked (Visit.step 0) promptly) start
      lookedUp = some v ∧ v.navigated = [(⟨"room", .of 0⟩, some (profileOf 1 "Kim"))] :=
    ⟨_, rfl, rfl⟩
  obtain ⟨s, hcall, hrecorded⟩ : ∃ s, Lts.exec CallPage.step (.mount (some 1) "room" 0 (some 2))
      [.participantDisconnected 60000] = some s ∧
        s.recorded = [⟨2, 1, "room", 0, 60000, 60⟩] := ⟨_, rfl, rfl⟩
  have hr := Lts.guard_run_of_checked prompt_of_promptly hexec
  have hp : (⟨"room", .of 0⟩, some (profileOf 1 "Kim")) ∈ v.navigated := by
    rw [hnavigated]
    exact List.mem_singleton_self _
  have hc := Lts.run_of_exec hcall
  exact ⟨v, s, hr, hnavigated, hc, hrecorded, (recorded_with_proposed_partner hr hp hc).1⟩

theorem partner_mistaken : ∃ v, (visits 0).Run start crossed v ∧
    v.navigated = [(⟨"second", .of 2⟩, some (profileOf 1 "Kim"))] := by
  obtain ⟨v, hexec, hnavigated⟩ : ∃ v, Lts.exec (Visit.step 0) start crossed = some v ∧
      v.navigated = [(⟨"second", .of 2⟩, some (profileOf 1 "Kim"))] := ⟨_, rfl, rfl⟩
  exact ⟨v, Lts.run_of_exec hexec, hnavigated⟩

end Nalang.WaitingRoom
