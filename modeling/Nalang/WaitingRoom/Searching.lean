import Nalang.WaitingRoom.Service

/-!
# Whoever searches is searched for

When nothing is under way, a page whose view is the search has its user in the
queue, if all steps were careful. A page that is opened again while the server has
not yet seen the end of its first connection is lost from the queue.
-/

namespace Nalang.WaitingRoom
open Matchmaking Transition

namespace World

theorem coherent_step {w w' : World} {l : Label} (h : w.Coherent) (hcareful : w.Careful l)
    (hstep : w.step l = some w') : w'.Coherent := by
  cases l with
  | mount id user ws =>
    simp only [step] at hstep
    split_ifs at hstep with hnew
    cases hstep
    exact coherent_mount h (Option.isNone_iff_eq_none.mp hnew.1) user hnew.2
  | locate id ws =>
    obtain ⟨c, hc, hm, hstep⟩ := inComponent_eq_some hstep
    split_ifs at hstep with hf
    cases hstep
    exact coherent_locate h hc hm hf hcareful
  | unmount id =>
    obtain ⟨c, hc, _, hstep⟩ := inComponent_eq_some hstep
    cases hstep
    exact coherent_unmount h hc
  | render id ws =>
    obtain ⟨c, hc, hm, hstep⟩ := inComponent_eq_some hstep
    split_ifs at hstep with hf
    cases hstep
    exact coherent_render h hc hm hf hcareful
  | tick id =>
    obtain ⟨c, hc, _, hstep⟩ := inComponent_eq_some hstep
    split_ifs at hstep
    cases hstep
    exact coherent_tick h hc _
  | reject id ws =>
    obtain ⟨c, hc, hm, hstep⟩ := inComponent_eq_some hstep
    split at hstep
    · cases hstep
    · next p _ =>
      split_ifs at hstep with hf
      cases hstep
      exact coherent_reject h hc hm p hf hcareful
  | callToken id index granted =>
    simp only [step] at hstep
    split at hstep
    · cases hstep
    · next c hc =>
      obtain ⟨_, hstep⟩ := Option.ite_none_right_eq_some.mp hstep
      cases hstep
      exact coherent_callToken h hc (c.entering.eraseIdx index) granted
  | opens s =>
    simp only [step] at hstep
    split at hstep
    · cases hstep
    · next l hl =>
      split_ifs at hstep with hready
      cases hstep
      have hlive : l.Live := .inl hready.1
      exact coherent_setLink h hl ⟨rfl, ⟨fun _ => hlive, fun _ => .inr rfl⟩, id⟩
        (fun _ he => he) rfl
  | message s =>
    simp only [step] at hstep
    split at hstep
    · cases hstep
    · next l hl =>
      split at hstep
      · next event rest _ hevents =>
        cases hstep
        exact coherent_message h hl hevents
      · cases hstep
  | closes s =>
    simp only [step] at hstep
    split at hstep
    · cases hstep
    · next l hl =>
      split_ifs at hstep
      cases hstep
      exact coherent_close h hl hcareful
  | accept s user query =>
    simp only [step] at hstep
    split at hstep
    · cases hstep
    · next l hl =>
      split at hstep
      · cases hstep
      · next c hc =>
        split_ifs at hstep with hrequested
        split at hstep
        · cases hstep
        · next sys hsys =>
          cases hstep
          exact coherent_accept h hl hc hrequested.2 hsys
  | refuse s =>
    simp only [step] at hstep
    split at hstep
    · cases hstep
    · next l hl =>
      split_ifs at hstep
      cases hstep
      exact coherent_setLink h hl ⟨rfl, Iff.rfl, id⟩ (fun _ he => he) rfl
  | receive s =>
    simp only [step] at hstep
    split at hstep
    · cases hstep
    · next l hl =>
      split at hstep
      · cases hstep
      · next msg rest hmsgs => exact coherent_receive h hl hmsgs hstep
  | serve s failure =>
    simp only [step] at hstep
    split at hstep
    · cases hstep
    · next conn hc => exact coherent_serve h hc hstep hcareful
  | resume s hex drift => exact coherent_resume h hcareful hstep
  | hangup s =>
    simp only [step] at hstep
    split at hstep
    · cases hstep
    · next l hl => exact coherent_hangup h hl hcareful hstep
  | elapse seconds today =>
    cases hstep
    exact coherent_elapse h seconds today

theorem coherent_initial (clock : Clock) : (initial clock).Coherent where
  owned := {
    owner := fun _ _ h => by cases h
    socketRef := fun _ _ _ h => by cases h
    conn := fun _ _ h => by cases h
    toClient := fun _ _ h => by cases h
    toServer := fun _ _ h => by cases h }
  shown _ _ h := by cases h
  regular _ _ h := by cases h
  paired _ h := by cases h
  attended _ _ h := by cases h

theorem coherent_run {clock : Clock} {ls : List Label} {w : World}
    (hr : (world.guard Careful).Run (initial clock) ls w) : w.Coherent := by
  refine hr.invariant Coherent (coherent_initial clock) ?_
  intro w l w' h hstep
  exact coherent_step h hstep.1 hstep.2

theorem not_announces_of_idle {s : Status} (h : s = .idle ∨ ∃ failed, s = .finished failed)
    (t : Socket) : ¬ s.Announces t := by
  rcases h with rfl | ⟨failed, rfl⟩
  · exact id
  · exact id

/-- In every run of careful steps, whenever nothing is under way, a mounted page that has an open
socket and shows the search belongs to a waiting user. -/
theorem searching_user_waits {clock : Clock} {ls : List Label} {w : World}
    (hr : (world.guard Careful).Run (initial clock) ls w) (hq : w.Quiet) {id : ℕ} {c : Component}
    {s : Socket} {l : Link} (hc : w.components id = some c) (hm : c.mounted)
    (hinfo : c.matchInfo = none) (hl : w.links s = some l) (howner : l.owner = id)
    (hopen : l.ready = .open) : c.user ∈ w.sys.state.waitingUsers := by
  have hsearch : w.Searches id c := ⟨hm, hinfo, s, l, hl, howner, .inr hopen⟩
  rcases (coherent_run hr).attended id c hc hsearch with hreg | hup | hu
  · exact hreg
  · have hstale := hq.rendered id c hc hm
    rw [hup.1] at hstale
    cases hstale
  · obtain ⟨t, l', hl', _, hlive, _, hp⟩ := hu
    obtain ⟨_, conn, hconn, hidle⟩ : l'.ready = .open ∧
        ∃ conn, w.sys.conns.get? t = some conn ∧ conn.status = .idle := by
      refine (hq.sockets t l' hl').resolve_right fun hclosed => ?_
      rcases hlive with hlive | hlive <;> rw [hclosed.1] at hlive <;> cases hlive
    cases hp with
    | frame hne => exact absurd (hq.frames t l' hl').2.1 hne
    | unanswered hout => exact absurd (OrderedDict.mem_of_get? hconn) hout
    | unsettled hc' hun =>
      rw [hconn, Option.some.injEq] at hc'
      rw [← hc', hidle] at hun
      exact absurd hun fun h => h
    | announced hc' hann _ => exact absurd hann (not_announces_of_idle (hq.handlers _ _ hc') t)

/-! ### A rejected page, and a page that is opened again -/

def gentle (w : World) : Label → Bool
  | .serve _ failure => failure.isNone
  | .resume s _ _ =>
    match w.sys.conns.get? s with
    | none => true
    | some conn =>
      match conn.status with
      | .ready (.connect (.reading _ _)) (.ok value) => value.isNone
      | .ready (.connect _) (.ok _) => true
      | .ready (.event p) _ => p.room ∈ w.sys.state.matchingCandidates
      | _ => false
  | .hangup _ => false
  | .closes _ => false
  | .render _ ws => ws.isSome
  | .reject _ ws => ws.isSome
  | .locate _ ws => ws.isSome
  | _ => true

theorem not_departs_of_gentle {w : World} {s : Socket} {hex : String}
    {drift : OrderedDict.Drift String} {conn : Conn} (hc : w.sys.conns.get? s = some conn)
    (h : w.gentle (.resume s hex drift)) : ¬ conn.Departs w.sys.state (.resume hex drift) ∧
      ∀ otherId, ¬ conn.Claims w.sys.state otherId (.resume hex drift) := by
  simp only [gentle, hc] at h
  unfold Conn.Departs Conn.Claims
  split at h
  · next value hs =>
    rw [Option.isNone_iff_eq_none] at h
    rw [hs, h]
    simp
  · next p value hp hs =>
    rw [hs]
    cases p with
    | reading otherId rest => exact absurd rfl (hp otherId rest)
    | _ => cases value <;> simp
  · next p reply hs =>
    rw [hs]
    simpa using h
  · cases h

theorem careful_resume {w : World} {s : Socket} {hex : String} {drift : OrderedDict.Drift String}
    (h : ∀ conn, w.sys.conns.get? s = some conn → Considerate w s conn (.resume hex drift)) :
    w.Careful (.resume s hex drift) where
  departure ws action conn hl hc := by
    cases hl
    exact (h conn hc).departure
  claim ws action conn otherId ws2 hl hc := by
    cases hl
    exact (h conn hc).claim otherId ws2
  failure _ _ _ _ hl := by cases hl
  closing _ hl := by cases hl
  token _ _ hl := by rcases hl with hl | hl <;> cases hl
  relocation _ _ hl := by cases hl

theorem careful_of_gentle (w : World) (l : Label) (h : w.gentle l) : w.Careful l := by
  by_cases hresume : ∃ s hex drift, l = .resume s hex drift
  · obtain ⟨s, hex, drift, rfl⟩ := hresume
    refine careful_resume fun conn hc =>
      ⟨fun hd => ?_, fun otherId _ hclaim => ?_, fun _ _ he => ?_⟩
    · exact absurd hd (not_departs_of_gentle hc h).1
    · exact absurd hclaim ((not_departs_of_gentle hc h).2 otherId)
    · cases he
  · -- the other reactions neither begin a cleanup nor claim anybody
    have hserve : ∀ ws action, l.reacts = some (ws, action) →
        ∃ failure, action = .serve failure := by
      intro ws action hl
      cases l with
      | serve s failure =>
        cases hl
        exact ⟨failure, rfl⟩
      | resume s hex drift => exact absurd ⟨s, hex, drift, rfl⟩ hresume
      | hangup s => cases h
      | _ => cases hl
    constructor
    case departure =>
      intro ws action conn hl hc hd
      obtain ⟨failure, rfl⟩ := hserve ws action hl
      exact absurd hd id
    case claim =>
      intro ws action conn otherId ws2 hl hc hclaim
      obtain ⟨failure, rfl⟩ := hserve ws action hl
      exact absurd hclaim id
    case failure =>
      intro ws e conn s hl
      subst hl
      cases h
    case closing =>
      intro s hl
      subst hl
      cases h
    case token =>
      rintro id c (hl | hl)
      · subst hl
        cases h
      · subst hl
        cases h
    case relocation =>
      intro id c hl
      subst hl
      cases h

def rests (w : World) (s : Socket) (l : Link) : Bool :=
  !l.requested && l.toClient.isEmpty && l.toServer.isEmpty &&
    match l.ready, (w.sys.conns.get? s).map Conn.status with
    | .open, some .idle => true
    | .closed, none => true
    | .closed, some (.finished _) => true
    | _, _ => false

def atRest (w : World) (n m : ℕ) : Bool :=
  (w.sys.conns.entries.all fun e => (w.links e.1).isSome) &&
    ((List.range n).all fun k => (w.links ⟨k⟩).all (w.rests ⟨k⟩)) &&
      (List.range m).all fun id => (w.components id).all fun c => !c.mounted || !c.stale

theorem quiet_of_atRest {w : World} {n m : ℕ} (h : w.atRest n m)
    (hlinks : ∀ k, w.links ⟨k + n⟩ = none) (hcomponents : ∀ k, w.components (k + m) = none) :
    w.Quiet := by
  simp only [atRest, Bool.and_eq_true, List.all_eq_true, List.mem_range] at h
  obtain ⟨⟨hconns, hrest⟩, hstale⟩ := h
  have hrests : ∀ s l, w.links s = some l →
      (l.requested = false ∧ l.toClient = [] ∧ l.toServer = []) ∧
      ((l.ready = .open ∧ ∃ conn, w.sys.conns.get? s = some conn ∧ conn.status = .idle) ∨
        l.ready = .closed ∧ ∀ conn, w.sys.conns.get? s = some conn →
          ∃ failed, conn.status = .finished failed) := by
    intro s l hl
    have hlt : s.id < n := by
      by_contra hge
      have hnone := hlinks (s.id - n)
      rw [Nat.sub_add_cancel (by omega), hl] at hnone
      cases hnone
    have h := hrest s.id hlt
    rw [hl, Option.all_some] at h
    simp only [rests, Bool.and_eq_true, Bool.not_eq_true', List.isEmpty_iff] at h
    obtain ⟨⟨⟨hrequested, hclient⟩, hserver⟩, hboth⟩ := h
    refine ⟨⟨hrequested, hclient, hserver⟩, ?_⟩
    split at hboth
    · next hready hstatus =>
      exact .inl ⟨hready, Option.map_eq_some_iff.mp hstatus⟩
    · next hready hstatus =>
      refine .inr ⟨hready, fun conn hc => ?_⟩
      rw [hc] at hstatus
      cases hstatus
    · next failed hready hstatus =>
      refine .inr ⟨hready, fun conn hc => ⟨failed, ?_⟩⟩
      rw [hc] at hstatus
      exact Option.some.inj hstatus
    · cases hboth
  refine ⟨?_, fun s l hl => (hrests s l hl).1, fun s l hl => (hrests s l hl).2, ?_⟩
  · intro s conn hc
    obtain ⟨l, hl⟩ := Option.isSome_iff_exists.mp (hconns _ (OrderedDict.get?_eq_some.mp hc))
    rcases (hrests s l hl).2 with ⟨_, conn', hc', hidle⟩ | ⟨_, hfinished⟩
    · rw [hc, Option.some.injEq] at hc'
      exact .inl (hc' ▸ hidle)
    · exact .inr (hfinished conn hc)
  · intro id c hc hmounted
    have hlt : id < m := by
      by_contra hge
      have hnone := hcomponents (id - m)
      rw [Nat.sub_add_cancel (by omega), hc] at hnone
      cases hnone
    have h := hstale id hlt
    rw [hc, Option.all_some] at h
    simpa [hmounted] using h

def goesOn (s : Socket) : List Label := [.serve s none, .resume s "b" ⟨[], false⟩]

def registers (id : UserId) (s : Socket) : List Label :=
  .accept s (.plain id) .empty :: goesOn s ++ [.opens s]

def isProposed (id : ℕ) (s : Socket) : List Label :=
  [.message s, .render id (some ⟨0⟩), .render id (some ⟨0⟩)]

def beforeProposal : List Label :=
  .mount 0 (.of 1) (some ⟨1⟩) :: registers (.of 1) ⟨1⟩ ++
    [.mount 1 (.of 2) (some ⟨2⟩), .accept ⟨2⟩ (.plain (.of 2)) .empty, .opens ⟨2⟩] ++ goesOn ⟨2⟩ ++
      [.serve ⟨2⟩ none]

def afterProposal : List Label :=
  goesOn ⟨2⟩ ++ goesOn ⟨2⟩ ++ goesOn ⟨2⟩ ++ goesOn ⟨2⟩ ++ isProposed 1 ⟨2⟩ ++ isProposed 0 ⟨1⟩ ++
    [.reject 1 (some ⟨0⟩), .render 1 (some ⟨0⟩), .receive ⟨2⟩] ++ goesOn ⟨2⟩ ++
      [.message ⟨1⟩, .render 0 (some ⟨3⟩), .render 0 (some ⟨4⟩)] ++
        registers (.of 1) ⟨3⟩ ++ registers (.of 1) ⟨4⟩

set_option maxRecDepth 2000 in
theorem searching_user_waits_applied :
    ∃ ls w c, world.Run (initial .start) ls w ∧ w.components 0 = some c ∧
      c.message = some .rejected ∧ c.user ∈ w.sys.state.waitingUsers := by
  obtain ⟨w₀, w₁, w, h₀, h₁, h₂, ⟨conn, parsed, hconn, hstatus, hmatch⟩, hqueue, hlink, hcomp₁,
      hcomps, hrest, hlinks, hcomponents, ⟨c, hc, hmounted, hinfo, hmessage⟩, hopen⟩ :
      ∃ w₀ w₁ w, Lts.exec (Lts.checked step gentle) (initial .start) beforeProposal = some w₀ ∧
        w₀.step (.resume ⟨2⟩ "b" ⟨[], false⟩) = some w₁ ∧
        Lts.exec (Lts.checked step gentle) w₁ afterProposal = some w ∧
        (∃ conn parsed, w₀.sys.conns.get? ⟨2⟩ = some conn ∧
          conn.status = .ready (.connect (.reading (.of 1) [])) (.ok (some parsed)) ∧
          mutualMatch w₀.sys.state.clock.today parsed conn.user.userData conn.query.filters =
            .ok true) ∧
        w₀.sys.state.waitingUsers.get? (.of 1) = some ⟨1⟩ ∧
        w₀.links ⟨1⟩ = some ⟨0, .open, false, [], []⟩ ∧
        (w₀.components 1).map Component.user = some (.of 2) ∧
        (∀ n, w₀.components (n + 2) = none) ∧ w.atRest 5 2 ∧ (∀ n, w.links ⟨n + 5⟩ = none) ∧
        (∀ n, w.components (n + 2) = none) ∧ (∃ c, w.components 0 = some c ∧ c.mounted ∧
          c.matchInfo = none ∧ c.message = some .rejected) ∧
        w.links ⟨4⟩ = some ⟨0, .open, false, [], []⟩ :=
    ⟨_, _, _, rfl, rfl, rfl, ⟨_, _, rfl, rfl, rfl⟩, rfl, rfl, rfl, fun _ => rfl, rfl, fun _ => rfl,
      fun _ => rfl, ⟨_, rfl, rfl, rfl, rfl⟩, rfl⟩
  have hcareful : w₀.Careful (.resume ⟨2⟩ "b" ⟨[], false⟩) := by
    refine careful_resume fun conn' hc' => ⟨fun hd => ?_, ?_, fun _ _ he => ?_⟩
    · rw [hconn, Option.some.injEq] at hc'
      simp only [Conn.Departs, ← hc', hstatus, hmatch] at hd
      exact absurd (OrderedDict.mem_of_get? hqueue) hd.2
    · -- the first user is claimed on the socket of the page that shows the search
      intro otherId ws2 hclaim hget id c hcomp _ huser
      rw [hconn, Option.some.injEq] at hc'
      obtain ⟨rest, parsed', hstatus', _⟩ := hclaim
      rw [← hc', hstatus] at hstatus'
      cases hstatus'
      rw [hqueue, Option.some.injEq] at hget
      refine .inl ?_
      rw [← hget]
      rcases id with _ | _ | n
      · exact ⟨_, hlink, rfl, .inr rfl⟩
      · rw [hcomp, Option.map_some, Option.some.injEq, huser] at hcomp₁
        cases hcomp₁
      · rw [hcomps n] at hcomp
        cases hcomp
    · cases he
  have hr : (world.guard Careful).Run (initial .start) _ w :=
    ((Lts.guard_run_of_checked careful_of_gentle h₀).snoc ⟨hcareful, h₁⟩).append
      (Lts.guard_run_of_checked careful_of_gentle h₂)
  exact ⟨_, w, c, hr.of_guard, hc, hmessage, searching_user_waits hr
    (quiet_of_atRest hrest hlinks hcomponents) hc hmounted hinfo hopen rfl rfl⟩

/-- The page is opened again before the server has seen the end of the first connection. -/
def openedAgain : List Label :=
  .mount 0 (.of 1) (some ⟨1⟩) :: registers (.of 1) ⟨1⟩ ++ [.unmount 0, .mount 1 (.of 1) (some ⟨2⟩),
    .render 1 (some ⟨0⟩)] ++ registers (.of 1) ⟨2⟩ ++ [.hangup ⟨1⟩] ++ goesOn ⟨1⟩ ++ [.closes ⟨1⟩]

theorem openedAgain_forgotten :
    ¬ ∀ clock ls w, world.Run (initial clock) ls w → w.Quiet → ∀ id c s l,
      w.components id = some c → c.mounted → c.matchInfo = none → w.links s = some l →
        l.owner = id → l.ready = .open → c.user ∈ w.sys.state.waitingUsers := by
  intro h
  obtain ⟨w, hw, hrest, hlinks, hcomponents, hqueue, ⟨c, hc, hmounted, hinfo⟩, hopen⟩ :
      ∃ w, Lts.exec step (initial .start) openedAgain = some w ∧ w.atRest 3 2 ∧
        (∀ n, w.links ⟨n + 3⟩ = none) ∧ (∀ n, w.components (n + 2) = none) ∧
        w.sys.state.waitingUsers.entries = [] ∧
        (∃ c, w.components 1 = some c ∧ c.mounted ∧ c.matchInfo = none) ∧
        w.links ⟨2⟩ = some ⟨1, .open, false, [], []⟩ :=
    ⟨_, rfl, rfl, fun _ => rfl, fun _ => rfl, rfl, ⟨_, rfl, rfl, rfl⟩, rfl⟩
  have hin := h .start _ w (Lts.run_of_exec hw) (quiet_of_atRest hrest hlinks hcomponents) 1 c
    ⟨2⟩ _ hc hmounted hinfo hopen rfl rfl
  obtain ⟨ws, hmem⟩ := OrderedDict.mem_iff_exists.mp hin
  rw [hqueue] at hmem
  cases hmem

end World
end Nalang.WaitingRoom
