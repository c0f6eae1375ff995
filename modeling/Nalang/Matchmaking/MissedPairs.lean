import Nalang.Matchmaking.AgeFilter
import Nalang.Matchmaking.ConnectRace

/-!
# Pairs that overlapping connects miss

A connect compares its user with a copy of the queue and registers it after all
awaits. Two users whose connects overlap may each be missing in the copy of the
other. Where nobody who matches enters the queue between the copy of a connect
and its registration, and the records of the copy can be read, no matching pair
is left.
-/

namespace Nalang.Matchmaking
open Python Transition

def Conn.record (conn : Conn) : CallRecord := recordOf conn.user conn.query

def Matching (today : Date) (a b : CallRecord) : Prop :=
  isMatch today a.user b.filters = .ok true ∧ isMatch today b.user a.filters = .ok true

instance (today : Date) (a b : CallRecord) : Decidable (Matching today a b) :=
  inferInstanceAs (Decidable (_ ∧ _))

def Unmatched (sys : Sys) : Prop :=
  ∀ id ws conn id' ws' conn', (id, ws) ∈ sys.state.waitingUsers.entries →
    (id', ws') ∈ sys.state.waitingUsers.entries → id ≠ id' →
    sys.conns.get? ws = some conn → sys.conns.get? ws' = some conn' →
    ¬ Matching sys.state.clock.today conn.record conn'.record

/-! ### Copies and registrations -/

def Conn.copies (conn : Conn) : Bool :=
  match conn.status with
  | .ready (.connect .storing) (.ok _) => true
  | _ => false

/-- The connect is at the end of its copy and has found nobody. -/
def Conn.exhausts (conn : Conn) (st : State) : Bool :=
  match conn.status with
  | .ready (.connect .storing) (.ok _) =>
    st.waitingUsers.entries.all fun e => e.1 = conn.user.id
  | .ready (.connect (.reading _ rest)) (.ok none) => rest.all fun e => e.1 = conn.user.id
  | .ready (.connect (.reading _ rest)) (.ok (some parsed)) =>
    (rest.all fun e => e.1 = conn.user.id) &&
      mutualMatch st.clock.today parsed conn.user.userData conn.query.filters = .ok false
  | _ => false

def resumed : Sys × Label → Option (Socket × Conn)
  | (sys, .act ws (.resume _ _)) => (sys.conns.get? ws).map (ws, ·)
  | _ => none

def copier (p : Sys × Label) : Option Socket :=
  ((resumed p).filter fun c => c.2.copies).map Prod.fst

def registrant (p : Sys × Label) : Option Conn :=
  ((resumed p).filter fun c => c.2.exhausts p.1.state).map Prod.snd

/-- The connects that have registered their users since the one on the socket copied the queue. -/
def enteredSince (ws : Socket) : List (Sys × Label) → List Conn
  | [] => []
  | p :: h => if copier p = some ws then h.filterMap registrant else enteredSince ws h

/-- Nobody who matches with the user that a connect registers has entered the queue since the
connect copied it. -/
def NobodyBetween (s : List (Sys × Label) × Sys) (l : Label) : Prop :=
  ∀ ws conn, resumed (s.2, l) = some (ws, conn) → conn.exhausts s.2.state = true →
    ∀ conn' ∈ enteredSince ws s.1, ¬ Matching s.2.state.clock.today conn.record conn'.record

instance (s : List (Sys × Label) × Sys) (l : Label) : Decidable (NobodyBetween s l) :=
  decidable_of_iff (∀ c ∈ resumed (s.2, l), c.2.exhausts s.2.state = true →
    ∀ conn' ∈ enteredSince c.1 s.1, ¬ Matching s.2.state.clock.today c.2.record conn'.record)
    ⟨fun h ws conn hr => h (ws, conn) hr, fun h c hc => h c.1 c.2 hc⟩

def Status.asksFor : Status → Option UserId
  | .waiting (.connect (.reading otherId _)) _ => some otherId
  | _ => none

def served : Sys × Label → Option Conn
  | (sys, .act ws (.serve _)) => sys.conns.get? ws
  | _ => none

/-- The record of a user of the copy who is still waiting is there when it is read. -/
def Readable (sys : Sys) (l : Label) : Prop :=
  ∀ conn, served (sys, l) = some conn → ∀ otherId, conn.status.asksFor = some otherId →
    otherId ∈ sys.state.waitingUsers → (sys.state.getRecord otherId).isSome

instance (sys : Sys) (l : Label) : Decidable (Readable sys l) :=
  decidable_of_iff (∀ conn ∈ served (sys, l), ∀ otherId ∈ conn.status.asksFor,
    otherId ∈ sys.state.waitingUsers → (sys.state.getRecord otherId).isSome = true) Iff.rfl

structure Peaceful (sys : Sys) (l : Label) : Prop where
  admitted : l.Admitted
  staying : ∀ ws, l ≠ .act ws .hangup
  distinct : ∀ ws user query, l = .connect ws user query →
    ∀ ws' conn, sys.conns.get? ws' = some conn → conn.user.id ≠ user.id

/-! ### A match does not depend on the day -/

theorem isMatch_userData_today (today today' : Date) (user : User) (filters : Filters) :
    isMatch today user.userData filters = isMatch today' user.userData filters := by
  have hage : ageRefused today user.userData filters = ageRefused today' user.userData filters := by
    rw [Bool.eq_iff_iff, ageRefused_userData, ageRefused_userData]
  unfold isMatch
  rw [hage]

theorem matching_today {today : Date} (today' : Date) {conn conn' : Conn}
    (h : ¬ Matching today conn.record conn'.record) :
    ¬ Matching today' conn.record conn'.record := by
  have hrecord : ∀ conn : Conn, conn.record.user = conn.user.userData := fun _ => rfl
  unfold Matching at h ⊢
  rwa [hrecord, hrecord, isMatch_userData_today today' today conn.user,
    isMatch_userData_today today' today conn'.user, ← hrecord, ← hrecord]

theorem matching_of_mutual {today : Date} {conn conn' : Conn}
    (h : mutualMatch today conn'.record conn.user.userData conn.query.filters ≠ .ok true) :
    ¬ Matching today conn.record conn'.record := by
  intro hm
  exact h (mutualMatch_eq_true.mpr ⟨hm.2, hm.1⟩)

section Since
variable {ws : Socket} {conn : Conn} {h : List (Sys × Label)} {p : Sys × Label}

theorem enteredSince_snoc (hc : ∃ q ∈ h, copier q = some ws) :
    enteredSince ws (h ++ [p]) = enteredSince ws h ++ (registrant p).toList := by
  induction h with
  | nil =>
    obtain ⟨q, hq, _⟩ := hc
    exact absurd hq List.not_mem_nil
  | cons q h ih =>
    rw [List.cons_append, enteredSince, enteredSince]
    split_ifs with hq
    · rw [List.filterMap_append]
      cases hr : registrant p <;> simp [hr]
    · obtain ⟨q', hq', he⟩ := hc
      refine ih ⟨q', (List.mem_cons.mp hq').resolve_left fun hqq => hq (hqq ▸ he), he⟩

theorem mem_enteredSince_snoc (hc : ∃ q ∈ h, copier q = some ws) (hm : conn ∈ enteredSince ws h) :
    conn ∈ enteredSince ws (h ++ [p]) := by
  rw [enteredSince_snoc hc]
  exact List.mem_append_left _ hm

theorem copied_snoc (hc : ∃ q ∈ h, copier q = some ws) : ∃ q ∈ h ++ [p], copier q = some ws := by
  obtain ⟨q, hq, he⟩ := hc
  exact ⟨q, List.mem_append_left _ hq, he⟩

theorem resumed_act {sys : Sys} {hex : String} {drift : OrderedDict.Drift String}
    (hc : sys.conns.get? ws = some conn) :
    resumed (sys, .act ws (.resume hex drift)) = some (ws, conn) := by
  simp only [resumed, hc, Option.map_some]

end Since

/-! ### The loop over the rest of the copy -/

theorem connectScan_cases (ws : Socket) (user : User) (st : State) (es : List (UserId × Socket)) :
    ((∀ e ∈ es, e.1 = user.id) ∧ connectScan ws user st es =
      ⟨register st user.id ws, [.registered user.id ws], .returns⟩) ∨
    ∃ otherId rest, (∀ id ∈ otherId :: rest.map Prod.fst, ∃ s, (id, s) ∈ es) ∧
      (∀ e ∈ es, e.1 = user.id ∨ e.1 ∈ otherId :: rest.map Prod.fst) ∧
      connectScan ws user st es =
        ⟨st, [], .awaits (.redisGet otherId) (.reading otherId rest)⟩ := by
  induction es with
  | nil => exact .inl ⟨fun _ he => absurd he List.not_mem_nil, rfl⟩
  | cons e es ih =>
    obtain ⟨otherId, s⟩ := e
    unfold connectScan
    split_ifs with hself
    · rcases ih with ⟨hall, hscan⟩ | ⟨next, rest, hin, hcover, hscan⟩
      · exact .inl ⟨List.forall_mem_cons.mpr ⟨hself, hall⟩, hscan⟩
      · refine .inr ⟨next, rest, fun id hid => ?_,
          List.forall_mem_cons.mpr ⟨.inl hself, hcover⟩, hscan⟩
        obtain ⟨s', hs'⟩ := hin id hid
        exact ⟨s', List.mem_cons_of_mem _ hs'⟩
    · refine .inr ⟨otherId, es, fun id hid => ?_, fun e he => .inr ?_, rfl⟩
      · rcases List.mem_cons.mp hid with rfl | hid
        · exact ⟨s, List.mem_cons_self⟩
        · obtain ⟨e, he, rfl⟩ := List.mem_map.mp hid
          exact ⟨e.2, List.mem_cons_of_mem _ he⟩
      · exact List.mem_map_of_mem (f := Prod.fst) he

theorem connectScan_registers_iff (ws : Socket) (user : User) (st : State)
    (es : List (UserId × Socket)) :
    connectScan ws user st es = ⟨register st user.id ws, [.registered user.id ws], .returns⟩ ↔
      (es.all fun e => e.1 = user.id) = true := by
  induction es with
  | nil => simp [connectScan]
  | cons e es ih =>
    unfold connectScan
    split_ifs with hself
    · simp [hself, ih]
    · simp [hself]

theorem registers_iff_exhausts (hex : String) {ws : Socket} {conn : Conn} {st : State}
    {p : ConnectPoint} {reply : Reply} (hs : conn.status = .ready (.connect p) reply) :
    connectResume hex ws conn.user conn.query p reply st =
        ⟨register st conn.user.id ws, [.registered conn.user.id ws], .returns⟩ ↔
      conn.exhausts st = true := by
  unfold Conn.exhausts
  rw [hs]
  cases reply with
  | error e => simp [connectResume]
  | ok value =>
    cases p with
    | storing => exact connectScan_registers_iff ws conn.user st _
    | reading otherId rest =>
      cases value with
      | none => exact connectScan_registers_iff ws conn.user st rest
      | some parsed =>
        rcases hm : mutualMatch st.clock.today parsed conn.user.userData conn.query.filters with
          e | b
        · simp [connectResume, hm]
        cases b with
        | false =>
          simp only [connectResume, hm, decide_true, Bool.and_true]
          exact connectScan_registers_iff ws conn.user st rest
        | true =>
          simp only [connectResume, hm, connectClaim]
          cases st.waitingUsers.get? otherId <;> simp
    | proposing partner ws2 room => simp [connectResume]
    | proposingPartner partner => simp [connectResume]
    | deleting partner => simp [connectResume]
    | deletingPartner => simp [connectResume]

/-! ### What a connect knows of the queue -/

namespace Status

def Stored : Status → Prop
  | .waiting (.connect (.reading _ _)) _ => True
  | .ready (.connect .storing) _ => True
  | .ready (.connect (.reading _ _)) _ => True
  | _ => False

def Comparing : Status → Prop
  | .waiting (.connect (.reading _ _)) _ => True
  | .ready (.connect (.reading _ _)) _ => True
  | _ => False

def ahead : Status → List UserId
  | .waiting (.connect (.reading otherId rest)) _ => otherId :: rest.map Prod.fst
  | .ready (.connect (.reading otherId rest)) _ => otherId :: rest.map Prod.fst
  | _ => []

theorem Stored.undecided {s : Status} (h : s.Stored) : s.Undecided := by
  cases s with
  | idle => exact absurd h id
  | waiting task request =>
    cases task with
    | connect p => cases p <;> trivial
    | event p => exact absurd h id
    | onExcept p => exact absurd h id
    | onFinally failed p => exact absurd h id
  | ready task reply =>
    cases task with
    | connect p => cases p <;> trivial
    | event p => exact absurd h id
    | onExcept p => exact absurd h id
    | onFinally failed p => exact absurd h id
  | finished failed => exact absurd h id

theorem Comparing.stored {s : Status} (h : s.Comparing) : s.Stored := by
  unfold Comparing at h
  split at h
  · trivial
  · trivial
  · exact absurd h id

end Status

def Conn.Asks (conn : Conn) : Prop :=
  match conn.status with
  | .waiting (.connect .storing) request => request = .redisSet conn.user.id conn.record
  | .waiting (.connect (.reading otherId _)) request => request = .redisGet otherId
  | .waiting (.connect _) request => ∀ id record, request ≠ .redisSet id record
  | .waiting _ _ => False
  | .ready (.connect _) _ => True
  | .ready _ _ => False
  | .finished _ => False
  | .idle => True

structure Informed (h : List (Sys × Label)) (sys : Sys) : Prop where
  distinct : ∀ ws conn, sys.conns.get? ws = some conn → conn.status.Undecided →
    ∀ ws' conn', sys.conns.get? ws' = some conn' → ws' ≠ ws → conn'.user.id ≠ conn.user.id
  asks : ∀ ws conn, sys.conns.get? ws = some conn → conn.Asks
  own : ∀ ws conn, sys.conns.get? ws = some conn →
    (conn.user.id, ws) ∈ sys.state.waitingUsers.entries ∨ conn.status.Stored →
    ∀ record, sys.state.getRecord conn.user.id = some record → record = conn.record
  waiting : ∀ e ∈ sys.state.waitingUsers.entries, Settled sys e.2 e.1
  ahead : ∀ ws conn, sys.conns.get? ws = some conn →
    ∀ id ∈ conn.status.ahead, ∃ s, Settled sys s id
  replied : ∀ ws conn otherId rest value, sys.conns.get? ws = some conn →
    conn.status = .ready (.connect (.reading otherId rest)) (.ok value) →
    ∀ s conn', (otherId, s) ∈ sys.state.waitingUsers.entries → sys.conns.get? s = some conn' →
      value = some conn'.record
  copied : ∀ ws conn, sys.conns.get? ws = some conn → conn.status.Comparing →
    ∃ p ∈ h, copier p = some ws
  compared : ∀ ws conn, sys.conns.get? ws = some conn → conn.status.Comparing →
    ∀ id s conn', (id, s) ∈ sys.state.waitingUsers.entries → sys.conns.get? s = some conn' →
      ∀ today, Matching today conn.record conn'.record →
        id ∈ conn.status.ahead ∨ ∃ c ∈ enteredSince ws h, c.record = conn'.record
  unmatched : Unmatched sys

/-! ### A step of one connect -/

section Step
variable {h : List (Sys × Label)} {sys : Sys} {ws : Socket} {conn : Conn} {r : Reaction}

theorem before_reacted (hc : sys.conns.get? ws = some conn) {ws' : Socket} {conn' : Conn}
    (hc' : (sys.reacted ws conn r).conns.get? ws' = some conn') :
    ∃ old, sys.conns.get? ws' = some old ∧ old.user = conn'.user ∧ old.record = conn'.record := by
  obtain ⟨rfl, rfl⟩ | ⟨_, hc'⟩ := get?_reacted.mp hc'
  · exact ⟨conn, hc, rfl, rfl⟩
  · exact ⟨conn', hc', rfl, rfl⟩

theorem distinct_reacted (hi : Informed h sys) (hc : sys.conns.get? ws = some conn)
    (hmono : r.status.Undecided → conn.status.Undecided) {ws₁ ws₂ : Socket} {conn₁ conn₂ : Conn}
    (hc₁ : (sys.reacted ws conn r).conns.get? ws₁ = some conn₁) (hu : conn₁.status.Undecided)
    (hc₂ : (sys.reacted ws conn r).conns.get? ws₂ = some conn₂) (hne : ws₂ ≠ ws₁) :
    conn₂.user.id ≠ conn₁.user.id := by
  obtain ⟨old, hold, huser, _⟩ := before_reacted hc hc₂
  rw [← huser]
  obtain ⟨rfl, rfl⟩ | ⟨_, hc₁⟩ := get?_reacted.mp hc₁
  · exact hi.distinct _ conn hc (hmono hu) ws₂ old hold hne
  · exact hi.distinct ws₁ conn₁ hc₁ hu ws₂ old hold hne

theorem asks_reacted (hi : Informed h sys) (hasks : ({ conn with status := r.status } : Conn).Asks)
    {ws' : Socket} {conn' : Conn} (hc' : (sys.reacted ws conn r).conns.get? ws' = some conn') :
    conn'.Asks := by
  obtain ⟨rfl, rfl⟩ | ⟨_, hc'⟩ := get?_reacted.mp hc'
  · exact hasks
  · exact hi.asks ws' conn' hc'

theorem ahead_reacted (hi : Informed h sys) (hc : sys.conns.get? ws = some conn)
    (hmono : r.status.Undecided → conn.status.Undecided)
    (hahead : ∀ id ∈ r.status.ahead, ∃ s, Settled sys s id) {ws' : Socket} {conn' : Conn}
    (hc' : (sys.reacted ws conn r).conns.get? ws' = some conn') {id : UserId}
    (hid : id ∈ conn'.status.ahead) : ∃ s, Settled (sys.reacted ws conn r) s id := by
  have hset : ∃ s, Settled sys s id := by
    obtain ⟨rfl, rfl⟩ | ⟨_, hc'⟩ := get?_reacted.mp hc'
    · exact hahead id hid
    · exact hi.ahead ws' conn' hc' id hid
  obtain ⟨s, hs⟩ := hset
  exact ⟨s, settled_reacted hc hs hmono⟩

theorem informed_step {action : Action} (hi : Informed h sys) (hc : sys.conns.get? ws = some conn)
    (hw : ∀ e ∈ r.state.waitingUsers.entries, e ∈ sys.state.waitingUsers.entries)
    (hmono : r.status.Undecided → conn.status.Undecided)
    (hasks : ({ conn with status := r.status } : Conn).Asks)
    (hrec : ∀ id record, r.state.getRecord id = some record →
      sys.state.getRecord id = some record ∨
        id = conn.user.id ∧ record = conn.record ∧ conn.status.Undecided)
    (hstored : r.status.Stored → ∀ record, r.state.getRecord conn.user.id = some record →
      record = conn.record)
    (hahead : ∀ id ∈ r.status.ahead, ∃ s, Settled sys s id)
    (hreplied : ∀ otherId rest value,
      r.status = .ready (.connect (.reading otherId rest)) (.ok value) →
      ∀ s conn', (otherId, s) ∈ sys.state.waitingUsers.entries → sys.conns.get? s = some conn' →
        value = some conn'.record)
    (hcopied : r.status.Comparing →
      conn.status.Comparing ∨ copier (sys, .act ws action) = some ws)
    (hcompared : r.status.Comparing → ∀ id s conn', (id, s) ∈ sys.state.waitingUsers.entries →
      sys.conns.get? s = some conn' → ∀ today, Matching today conn.record conn'.record →
        id ∈ r.status.ahead ∨
          conn.status.Comparing ∧ ∃ c ∈ enteredSince ws h, c.record = conn'.record) :
    Informed (h ++ [(sys, .act ws action)]) (sys.reacted ws conn r) := by
  constructor
  case distinct =>
    exact fun ws₁ conn₁ hc₁ hu ws₂ conn₂ hc₂ hne => distinct_reacted hi hc hmono hc₁ hu hc₂ hne
  case asks => exact fun ws' conn' hc' => asks_reacted hi hasks hc'
  case own =>
    intro ws' conn' hc' hin record hget
    obtain ⟨rfl, rfl⟩ | ⟨hne, hc'⟩ := get?_reacted.mp hc'
    · rcases hin with hin | hin
      · rcases hrec _ record hget with hget | ⟨_, hrecord, _⟩
        · exact hi.own _ conn hc (.inl (hw _ hin)) record hget
        · exact hrecord
      · exact hstored hin record hget
    · rcases hrec _ record hget with hget | ⟨hid, _, hu⟩
      · exact hi.own ws' conn' hc' (hin.imp_left (hw _)) record hget
      · exact absurd hid (hi.distinct ws conn hc hu ws' conn' hc' hne)
  case waiting =>
    intro e he
    exact settled_reacted hc (hi.waiting e (hw e he)) hmono
  case ahead => exact fun ws' conn' hc' id hid => ahead_reacted hi hc hmono hahead hc' hid
  case replied =>
    intro ws' conn' otherId rest value hc' hs s conn'' hin hc''
    obtain ⟨old, hold', _, hrecord⟩ := before_reacted hc hc''
    rw [← hrecord]
    obtain ⟨rfl, rfl⟩ | ⟨_, hc'⟩ := get?_reacted.mp hc'
    · exact hreplied otherId rest value hs s old (hw _ hin) hold'
    · exact hi.replied ws' conn' otherId rest value hc' hs s old (hw _ hin) hold'
  case copied =>
    intro ws' conn' hc' hs
    obtain ⟨rfl, rfl⟩ | ⟨_, hc'⟩ := get?_reacted.mp hc'
    · rcases hcopied hs with hs | hnow
      · exact copied_snoc (hi.copied _ conn hc hs)
      · exact ⟨_, List.mem_append_right _ List.mem_cons_self, hnow⟩
    · exact copied_snoc (hi.copied ws' conn' hc' hs)
  case compared =>
    intro ws' conn' hc' hs id s conn'' hin hc'' today hm
    obtain ⟨old, hold', _, hrecord⟩ := before_reacted hc hc''
    rw [← hrecord] at hm ⊢
    obtain ⟨rfl, rfl⟩ | ⟨_, hc'⟩ := get?_reacted.mp hc'
    · refine (hcompared hs id s old (hw _ hin) hold' today hm).imp_right fun hsince => ?_
      obtain ⟨hs', c, hcs, he⟩ := hsince
      exact ⟨c, mem_enteredSince_snoc (hi.copied _ conn hc hs') hcs, he⟩
    · refine (hi.compared ws' conn' hc' hs id s old (hw _ hin) hold' today hm).imp_right
        fun hsince => ?_
      obtain ⟨c, hcs, he⟩ := hsince
      exact ⟨c, mem_enteredSince_snoc (hi.copied ws' conn' hc' hs) hcs, he⟩
  case unmatched =>
    intro id ws₁ conn₁ id' ws₂ conn₂ hin hin' hne hc₁ hc₂
    obtain ⟨old₁, hold₁, _, hrecord₁⟩ := before_reacted hc hc₁
    obtain ⟨old₂, hold₂, _, hrecord₂⟩ := before_reacted hc hc₂
    rw [← hrecord₁, ← hrecord₂]
    exact matching_today _
      (hi.unmatched id ws₁ old₁ id' ws₂ old₂ (hw _ hin) (hw _ hin') hne hold₁ hold₂)

theorem not_settled_own (hi : Informed h sys) (hc : sys.conns.get? ws = some conn)
    (hu : conn.status.Undecided) (s : Socket) : ¬ Settled sys s conn.user.id := by
  intro hs
  obtain ⟨conn', hc', hid, hnot⟩ := hs
  by_cases he : s = ws
  · rw [he, hc, Option.some.injEq] at hc'
    exact hnot (hc' ▸ hu)
  · exact hi.distinct ws conn hc hu s conn' hc' he hid

/-- The step that puts the user into the queue. Nobody who was compared before has its id. -/
theorem informed_registers {action : Action} (hi : Informed h sys)
    (hc : sys.conns.get? ws = some conn) (hreg : registrant (sys, .act ws action) = some conn)
    (hstored : conn.status.Stored)
    (hw : r.state.waitingUsers = sys.state.waitingUsers.set conn.user.id ws)
    (hr : r.status = .idle)
    (hrec : ∀ id record, r.state.getRecord id = some record → sys.state.getRecord id = some record)
    (hsees : ∀ id s conn', (id, s) ∈ sys.state.waitingUsers.entries →
      sys.conns.get? s = some conn' → ∀ today, ¬ Matching today conn.record conn'.record) :
    Informed (h ++ [(sys, .act ws action)]) (sys.reacted ws conn r) := by
  have hu := hstored.undecided
  have hnot : ¬ r.status.Undecided := by
    rw [hr]
    exact id
  have hmono : r.status.Undecided → conn.status.Undecided := fun hru => absurd hru hnot
  have hfresh := not_settled_own hi hc hu
  have hentry : ∀ e ∈ (sys.reacted ws conn r).state.waitingUsers.entries,
      e = (conn.user.id, ws) ∨ e ∈ sys.state.waitingUsers.entries := by
    intro e he
    have he' : e ∈ (sys.state.waitingUsers.set conn.user.id ws).entries := hw ▸ he
    exact (OrderedDict.mem_entries_set.mp he').imp_right And.left
  have hother : ∀ ws' conn', ws' ≠ ws → (sys.reacted ws conn r).conns.get? ws' = some conn' →
      sys.conns.get? ws' = some conn' := by
    intro ws' conn' hne hc'
    exact (get?_reacted.mp hc').elim (fun he => absurd he.1 hne) And.right
  have hself : ∀ conn', (sys.reacted ws conn r).conns.get? ws = some conn' →
      conn' = { conn with status := r.status } := by
    intro conn' hc'
    exact (get?_reacted.mp hc').elim And.right fun he => absurd rfl he.1
  -- an entry that was there before has the socket of another connection
  have hsocket : ∀ id s, (id, s) ∈ sys.state.waitingUsers.entries → s ≠ ws := by
    intro id s hin he
    obtain ⟨conn', hc', _, hdecided⟩ := hi.waiting _ hin
    rw [show ((id, s) : UserId × Socket).2 = ws from he, hc, Option.some.injEq] at hc'
    exact hdecided (hc' ▸ hu)
  constructor
  case distinct =>
    exact fun ws₁ conn₁ hc₁ hu₁ ws₂ conn₂ hc₂ hne => distinct_reacted hi hc hmono hc₁ hu₁ hc₂ hne
  case asks =>
    have hasks : ({ conn with status := r.status } : Conn).Asks := by
      unfold Conn.Asks
      rw [hr]
      trivial
    exact fun ws' conn' hc' => asks_reacted hi hasks hc'
  case own =>
    intro ws' conn' hc' hin record hget
    obtain ⟨rfl, rfl⟩ | ⟨hne, hc'⟩ := get?_reacted.mp hc'
    · exact hi.own _ conn hc (.inr hstored) record (hrec _ record hget)
    · refine hi.own ws' conn' hc' (hin.imp_left fun hin => ?_) record (hrec _ record hget)
      rcases hentry _ hin with he | hin
      · exact absurd (Prod.mk.inj he).2 hne
      · exact hin
  case waiting =>
    intro e he
    rcases hentry e he with rfl | hin
    · exact ⟨_, OrderedDict.get?_set_self _ _ _, rfl, hnot⟩
    · exact settled_reacted hc (hi.waiting e hin) hmono
  case ahead =>
    have hahead : ∀ id ∈ r.status.ahead, ∃ s, Settled sys s id := by
      rw [hr]
      exact fun id hid => absurd hid List.not_mem_nil
    exact fun ws' conn' hc' id hid => ahead_reacted hi hc hmono hahead hc' hid
  case replied =>
    intro ws' conn' otherId rest value hc' hs s conn'' hin hc''
    obtain ⟨rfl, rfl⟩ | ⟨_, hc'⟩ := get?_reacted.mp hc'
    · rw [hr] at hs
      cases hs
    · rcases hentry _ hin with he | hin
      · obtain ⟨s', hs'⟩ := hi.ahead ws' conn' hc' otherId (by rw [hs]; exact List.mem_cons_self)
        exact absurd ((Prod.mk.inj he).1 ▸ hs') (hfresh s')
      · exact hi.replied ws' conn' otherId rest value hc' hs s conn'' hin
          (hother s conn'' (hsocket _ s hin) hc'')
  case copied =>
    intro ws' conn' hc' hs
    obtain ⟨rfl, rfl⟩ | ⟨_, hc'⟩ := get?_reacted.mp hc'
    · exact absurd hs.stored.undecided hnot
    · exact copied_snoc (hi.copied ws' conn' hc' hs)
  case compared =>
    intro ws' conn' hc' hs id s conn'' hin hc'' today hm
    obtain ⟨rfl, rfl⟩ | ⟨_, hc'⟩ := get?_reacted.mp hc'
    · exact absurd hs.stored.undecided hnot
    · have hcopied := hi.copied ws' conn' hc' hs
      rcases hentry _ hin with he | hin
      · -- the user that enters now is among those that have entered since
        obtain ⟨rfl, rfl⟩ := Prod.mk.inj he
        refine .inr ⟨conn, ?_, by rw [hself conn'' hc'']; rfl⟩
        rw [enteredSince_snoc hcopied, hreg]
        exact List.mem_append_right _ List.mem_cons_self
      · refine (hi.compared ws' conn' hc' hs id s conn'' hin
          (hother s conn'' (hsocket _ s hin) hc'') today hm).imp_right fun hsince => ?_
        obtain ⟨c, hcs, he⟩ := hsince
        exact ⟨c, mem_enteredSince_snoc hcopied hcs, he⟩
  case unmatched =>
    intro id ws₁ conn₁ id' ws₂ conn₂ hin hin' hne hc₁ hc₂
    rcases hentry _ hin with he | hold
    · obtain ⟨rfl, rfl⟩ := Prod.mk.inj he
      rcases hentry _ hin' with he' | hold'
      · exact absurd (Prod.mk.inj he').1.symm hne
      · rw [hself conn₁ hc₁]
        exact hsees id' ws₂ conn₂ hold' (hother ws₂ conn₂ (hsocket _ _ hold') hc₂) _
    · have hc₁' := hother ws₁ conn₁ (hsocket _ _ hold) hc₁
      rcases hentry _ hin' with he' | hold'
      · obtain ⟨rfl, rfl⟩ := Prod.mk.inj he'
        rw [hself conn₂ hc₂]
        exact fun hm => hsees id ws₁ conn₁ hold hc₁' _ hm.symm
      · exact matching_today _ (hi.unmatched id ws₁ conn₁ id' ws₂ conn₂ hold hold' hne hc₁'
          (hother ws₂ conn₂ (hsocket _ _ hold') hc₂))

theorem informed_decided {action : Action} (hi : Informed h sys)
    (hc : sys.conns.get? ws = some conn)
    (hw : ∀ e ∈ r.state.waitingUsers.entries, e ∈ sys.state.waitingUsers.entries)
    (hasks : ({ conn with status := r.status } : Conn).Asks) (hnot : ¬ r.status.Undecided)
    (hahead : r.status.ahead = [])
    (hrec : ∀ id record, r.state.getRecord id = some record →
      sys.state.getRecord id = some record) :
    Informed (h ++ [(sys, .act ws action)]) (sys.reacted ws conn r) := by
  refine informed_step hi hc hw (fun hu => absurd hu hnot) hasks
    (fun id record hget => .inl (hrec id record hget)) (fun hs => absurd hs.undecided hnot) ?_ ?_
    (fun hs => absurd hs.stored.undecided hnot) (fun hs => absurd hs.stored.undecided hnot)
  · rw [hahead]
    exact fun _ hid => absurd hid List.not_mem_nil
  · intro otherId rest parsed hs
    exact absurd (hs ▸ trivial) hnot

theorem informed_scan {hex : String} {drift : OrderedDict.Drift String} {p : ConnectPoint}
    {reply : Reply} (hi : Informed h sys) (hc : sys.conns.get? ws = some conn)
    (hnobody : NobodyBetween (h, sys) (.act ws (.resume hex drift)))
    (hs : conn.status = .ready (.connect p) reply) (hstored : conn.status.Stored)
    {es : List (UserId × Socket)} (hturn : connectResume hex ws conn.user conn.query p reply
      sys.state = connectScan ws conn.user sys.state es)
    (hes : ∀ id s, (id, s) ∈ es → ∃ s, Settled sys s id)
    (hcopied : conn.status.Comparing ∨ copier (sys, .act ws (.resume hex drift)) = some ws)
    (hcover : ∀ id s conn', (id, s) ∈ sys.state.waitingUsers.entries →
      sys.conns.get? s = some conn' → ∀ today, Matching today conn.record conn'.record →
        (∃ e ∈ es, e.1 = id) ∨
          conn.status.Comparing ∧ ∃ c ∈ enteredSince ws h, c.record = conn'.record) :
    Informed (h ++ [(sys, .act ws (.resume hex drift))]) (sys.reacted ws conn
      (settle conn.user.id ws .connect (connectScan ws conn.user sys.state es))) := by
  have hnotown : ∀ id s, (id, s) ∈ sys.state.waitingUsers.entries → id ≠ conn.user.id :=
    fun id s hin he => not_settled_own hi hc hstored.undecided s (he ▸ hi.waiting _ hin)
  rcases connectScan_cases ws conn.user sys.state es with
    ⟨hall, hscan⟩ | ⟨otherId, rest, hin, hrest, hscan⟩
  · have hend : conn.exhausts sys.state = true :=
      (registers_iff_exhausts hex hs).mp (hturn.trans hscan)
    rw [hscan]
    have hreg : registrant (sys, .act ws (.resume hex drift)) = some conn := by
      simp only [registrant, resumed_act hc, Option.filter_some, hend, if_true, Option.map_some]
    refine informed_registers hi hc hreg hstored rfl rfl (fun _ _ hget => hget) ?_
    intro id s conn' hin hc' today hm
    rcases hcover id s conn' hin hc' today hm with ⟨e, he, rfl⟩ | ⟨_, c, hcs, he⟩
    · exact hnotown _ s hin (hall e he)
    · refine matching_today today (hnobody ws conn (resumed_act hc) hend c hcs) ?_
      exact he ▸ hm
  · rw [hscan]
    refine informed_step hi hc (fun _ he => he) (fun _ => hstored.undecided) rfl
      (fun _ _ hget => .inl hget) (fun _ => hi.own ws conn hc (.inr hstored)) ?_ ?_
      (fun _ => hcopied) ?_
    · intro id hid
      obtain ⟨s, hs⟩ := hin id hid
      exact hes id s hs
    · intro _ _ _ hs
      cases hs
    · intro _ id s conn' hin' hc' today hm
      refine (hcover id s conn' hin' hc' today hm).imp_left fun hcopy => ?_
      obtain ⟨e, he, rfl⟩ := hcopy
      exact (hrest e he).resolve_left (hnotown _ s hin')

theorem informed_serve (hi : Informed h sys) (hc : sys.conns.get? ws = some conn)
    (hread : Readable sys (.act ws (.serve none))) {task : Task} {request : Request}
    (hs : conn.status = .waiting task request) :
    Informed (h ++ [(sys, .act ws (.serve none))]) (sys.reacted ws conn
      ⟨(request.perform none sys.state).1, .ready task (request.perform none sys.state).2,
        request.notes ws none⟩) := by
  have hasks := hi.asks ws conn hc
  unfold Conn.Asks at hasks
  rw [hs] at hasks
  cases task with
  | event p => exact absurd hasks id
  | onExcept p => exact absurd hasks id
  | onFinally failed p => exact absurd hasks id
  | connect p =>
    cases p with
    | storing =>
      obtain rfl : request = .redisSet conn.user.id conn.record := hasks
      have hu : conn.status.Undecided := by
        rw [hs]
        trivial
      refine informed_step hi hc (fun _ he => he) (fun _ => hu) trivial ?_ ?_ ?_ ?_
        (fun hs => absurd hs id) (fun hs => absurd hs id)
      · intro id record hget
        change (sys.state.redis.set _ conn.user.id conn.record 600).get _ id = some record at hget
        by_cases he : id = conn.user.id
        · subst he
          exact .inr ⟨rfl, ExpiringStore.get_of_set hget, hu⟩
        · rw [ExpiringStore.get_set_ne _ _ _ _ _ he] at hget
          exact .inl hget
      · exact fun _ record hget => ExpiringStore.get_of_set hget
      · exact fun _ hid => absurd hid List.not_mem_nil
      · intro _ _ _ hstatus
        cases hstatus
    | reading otherId rest =>
      obtain rfl : request = .redisGet otherId := hasks
      have hstored : conn.status.Stored := by
        rw [hs]
        trivial
      have hcomparing : conn.status.Comparing := by
        rw [hs]
        trivial
      refine informed_step hi hc (fun _ he => he) (fun _ => hstored.undecided) trivial
        (fun _ _ hget => .inl hget) (fun _ => hi.own ws conn hc (.inr hstored)) ?_ ?_
        (fun _ => .inl hcomparing) ?_
      · intro id hid
        exact hi.ahead ws conn hc id (by rw [hs]; exact hid)
      · intro otherId' rest' value hstatus s conn' hin hc'
        injection hstatus with htask hreply
        cases htask
        injection hreply with hget
        obtain ⟨conn'', hc'', hid, _⟩ := hi.waiting _ hin
        rw [hc', Option.some.injEq] at hc''
        subst hc''
        -- the record is there, and it is that of the waiting user
        have hasked : conn.status.asksFor = some otherId := by
          rw [hs]
          rfl
        obtain ⟨record, hrecord⟩ := Option.isSome_iff_exists.mp
          (hread conn hc otherId hasked (OrderedDict.mem_iff_exists.mpr ⟨s, hin⟩))
        obtain rfl := hi.own s conn' hc' (.inl (hid ▸ hin)) record (hid ▸ hrecord)
        rw [← hget, hrecord]
      · intro _ id s conn' hin hc' today hm
        refine (hi.compared ws conn hc hcomparing id s conn' hin hc' today hm).imp (fun hid => ?_)
          fun hsince => ⟨hcomparing, hsince⟩
        rw [hs] at hid
        exact hid
    | proposing | proposingPartner | deleting | deletingPartner =>
      have hrec : ∀ id record, (request.perform none sys.state).1.getRecord id = some record →
          sys.state.getRecord id = some record := by
        intro id record hget
        cases request with
        | redisSet id' record' => exact absurd rfl (hasks id' record')
        | redisGet id' => exact hget
        | send sock event => exact hget
        | redisDelete id' =>
          change (sys.state.redis.delete id').get _ id = some record at hget
          by_cases he : id = id'
          · rw [he, ExpiringStore.get_delete_self] at hget
            cases hget
          · rwa [ExpiringStore.get_delete_ne _ _ he] at hget
      have hw : (request.perform none sys.state).1.waitingUsers = sys.state.waitingUsers := by
        cases request <;> rfl
      refine informed_decided hi hc ?_ trivial id rfl hrec
      rw [hw]
      exact fun _ he => he

theorem informed_readOn {hex : String} {drift : OrderedDict.Drift String} (hi : Informed h sys)
    (hc : sys.conns.get? ws = some conn)
    (hnobody : NobodyBetween (h, sys) (.act ws (.resume hex drift))) {otherId : UserId}
    {rest : List (UserId × Socket)} {value : Option CallRecord}
    (hs : conn.status = .ready (.connect (.reading otherId rest)) (.ok value))
    (hno : ∀ parsed, value = some parsed → mutualMatch sys.state.clock.today parsed
      conn.user.userData conn.query.filters = .ok false) :
    Informed (h ++ [(sys, .act ws (.resume hex drift))]) (sys.reacted ws conn
      (settle conn.user.id ws .connect (connectScan ws conn.user sys.state rest))) := by
  have hturn : connectResume hex ws conn.user conn.query (.reading otherId rest) (.ok value)
      sys.state = connectScan ws conn.user sys.state rest := by
    cases value with
    | none => rfl
    | some parsed => simp only [connectResume, hno parsed rfl]
  have hstored : conn.status.Stored := by
    rw [hs]
    trivial
  have hcomparing : conn.status.Comparing := by
    rw [hs]
    trivial
  have hahead : conn.status.ahead = otherId :: rest.map Prod.fst := by
    rw [hs]
    rfl
  refine informed_scan hi hc hnobody hs hstored hturn ?_ (.inl hcomparing) ?_
  · intro id s hin
    refine hi.ahead ws conn hc id ?_
    rw [hahead]
    exact List.mem_cons_of_mem _ (List.mem_map_of_mem hin)
  · intro id s conn' hin hc' today hm
    refine (hi.compared ws conn hc hcomparing id s conn' hin hc' today hm).imp (fun hid => ?_)
      fun hsince => ⟨hcomparing, hsince⟩
    rw [hahead] at hid
    rcases List.mem_cons.mp hid with rfl | hid
    · -- the record that was read is that of the user, who therefore does not match
      have hmutual := hno _ (hi.replied ws conn id rest value hc hs s conn' hin hc')
      have hne : mutualMatch sys.state.clock.today conn'.record conn.user.userData
          conn.query.filters ≠ .ok true := by
        rw [hmutual]
        intro hf
        cases hf
      exact absurd hm (matching_today today (matching_of_mutual hne))
    · exact List.mem_map.mp hid

theorem informed_resume {hex : String} {drift : OrderedDict.Drift String} (hi : Informed h sys)
    (hc : sys.conns.get? ws = some conn)
    (hnobody : NobodyBetween (h, sys) (.act ws (.resume hex drift))) {task : Task} {reply : Reply}
    (hs : conn.status = .ready task reply)
    (hun : ∀ e, .raised ws e ∉ (resumeTask hex drift ws conn reply sys.state task).notes) :
    Informed (h ++ [(sys, .act ws (.resume hex drift))]) (sys.reacted ws conn
      (resumeTask hex drift ws conn reply sys.state task)) := by
  have hasks := hi.asks ws conn hc
  unfold Conn.Asks at hasks
  rw [hs] at hasks
  cases task with
  | event p => exact absurd hasks id
  | onExcept p => exact absurd hasks id
  | onFinally failed p => exact absurd hasks id
  | connect p =>
    have hraise : ∀ {st : State} {e : PyError},
        connectResume hex ws conn.user conn.query p reply sys.state ≠ ⟨st, [], .raises e⟩ := by
      intro st e he
      refine hun e ?_
      change _ ∈ (settle _ ws Task.connect (connectResume hex ws conn.user conn.query p reply
        sys.state)).notes
      rw [he]
      exact List.mem_singleton_self _
    change Informed _ (sys.reacted ws conn (settle conn.user.id ws .connect
      (connectResume hex ws conn.user conn.query p reply sys.state)))
    cases reply with
    | error e => exact absurd rfl hraise
    | ok value =>
      cases p with
      | storing =>
        have hstored : conn.status.Stored := by
          rw [hs]
          trivial
        refine informed_scan hi hc hnobody hs hstored rfl ?_ (.inr ?_) ?_
        · intro id s hin
          exact ⟨s, hi.waiting _ hin⟩
        · have hcopies : conn.copies = true := by
            unfold Conn.copies
            rw [hs]
          simp only [copier, resumed_act hc, Option.filter_some, hcopies, if_true, Option.map_some]
        · exact fun id s conn' hin _ _ _ => .inl ⟨_, hin, rfl⟩
      | reading otherId rest =>
        have hscan := informed_readOn hi hc hnobody hs
        cases value with
        | none =>
          refine hscan fun _ hv => ?_
          cases hv
        | some parsed =>
          rcases hm : mutualMatch sys.state.clock.today parsed conn.user.userData
              conn.query.filters with e | b
          · exact absurd (by simp only [connectResume, hm]; rfl) hraise
          cases b with
          | false =>
            simp only [connectResume, hm]
            refine hscan fun parsed' hv => ?_
            cases hv
            exact hm
          | true =>
            cases hg : sys.state.waitingUsers.get? otherId with
            | none => exact absurd (by simp only [connectResume, hm, connectClaim, hg]; rfl) hraise
            | some ws2 =>
              simp only [connectResume, hm, connectClaim, hg]
              refine informed_decided hi hc ?_ ?_ id rfl fun _ _ hget => hget
              · exact fun e he => (OrderedDict.mem_entries_erase.mp he).1
              · rintro _ _ ⟨⟩
      | proposing partner ws2 room =>
        exact informed_decided hi hc (fun _ he => he) (by rintro _ _ ⟨⟩) id rfl
          fun _ _ hget => hget
      | proposingPartner partner =>
        exact informed_decided hi hc (fun _ he => he) (by rintro _ _ ⟨⟩) id rfl
          fun _ _ hget => hget
      | deleting partner =>
        exact informed_decided hi hc (fun _ he => he) (by rintro _ _ ⟨⟩) id rfl
          fun _ _ hget => hget
      | deletingPartner =>
        exact informed_decided hi hc (fun _ he => he) trivial id rfl fun _ _ hget => hget

end Step

/-! ### Every run -/

section Run
variable {h : List (Sys × Label)} {sys sys' : Sys}

theorem informed_connects {ws : Socket} {user : User} {query : QueryParams} (hi : Informed h sys)
    (hnew : ¬ ws ∈ sys.conns)
    (hd : ∀ ws' conn, sys.conns.get? ws' = some conn → conn.user.id ≠ user.id) :
    Informed (h ++ [(sys, .connect ws user query)]) { sys with
      conns := sys.conns.set ws ⟨user, query,
        .waiting (.connect .storing) (.redisSet user.id (recordOf user query))⟩ } := by
  have hget : ∀ {ws' : Socket} {conn' : Conn}, (sys.conns.set ws ⟨user, query,
      .waiting (.connect .storing) (.redisSet user.id (recordOf user query))⟩).get? ws' =
        some conn' →
      (ws' = ws ∧ conn' = ⟨user, query,
        .waiting (.connect .storing) (.redisSet user.id (recordOf user query))⟩) ∨
      (ws' ≠ ws ∧ sys.conns.get? ws' = some conn') := OrderedDict.get?_set_eq_some.mp
  have hne : ∀ {ws' : Socket} {conn' : Conn}, sys.conns.get? ws' = some conn' → ws' ≠ ws :=
    fun hc he => hnew (he ▸ OrderedDict.mem_of_get? hc)
  have hsettled : ∀ {s : Socket} {id : UserId}, Settled sys s id → Settled { sys with
      conns := sys.conns.set ws ⟨user, query,
        .waiting (.connect .storing) (.redisSet user.id (recordOf user query))⟩ } s id := by
    intro s id hs
    obtain ⟨conn, hc, hid, hdec⟩ := hs
    exact ⟨conn, OrderedDict.get?_set_eq_some.mpr (.inr ⟨hne hc, hc⟩), hid, hdec⟩
  -- a waiting user has a connection, and it is not the new one
  have hwaiting : ∀ {id : UserId} {s : Socket} {conn' : Conn},
      (id, s) ∈ sys.state.waitingUsers.entries → (sys.conns.set ws ⟨user, query,
        .waiting (.connect .storing) (.redisSet user.id (recordOf user query))⟩).get? s =
          some conn' →
      sys.conns.get? s = some conn' := by
    intro id s conn' hin hc'
    obtain ⟨conn, hc, _⟩ := hi.waiting _ hin
    exact ((hget hc').resolve_left fun he => hne hc he.1).2
  constructor
  case distinct =>
    intro ws₁ conn₁ hc₁ hu₁ ws₂ conn₂ hc₂ hne'
    rcases hget hc₁ with ⟨rfl, rfl⟩ | ⟨_, hold₁⟩
    · exact hd ws₂ conn₂ ((hget hc₂).resolve_left fun he => hne' he.1).2
    · rcases hget hc₂ with ⟨rfl, rfl⟩ | ⟨_, hold₂⟩
      · exact (hd ws₁ conn₁ hold₁).symm
      · exact hi.distinct ws₁ conn₁ hold₁ hu₁ ws₂ conn₂ hold₂ hne'
  case asks =>
    intro ws' conn' hc'
    rcases hget hc' with ⟨_, rfl⟩ | ⟨_, hc'⟩
    · rfl
    · exact hi.asks ws' conn' hc'
  case own =>
    intro ws' conn' hc' hin
    rcases hget hc' with ⟨rfl, rfl⟩ | ⟨_, hc'⟩
    · rcases hin with hin | hin
      · obtain ⟨conn, hc, _⟩ := hi.waiting _ hin
        exact absurd rfl (hne hc)
      · exact absurd hin id
    · exact hi.own ws' conn' hc' hin
  case waiting => exact fun e he => hsettled (hi.waiting e he)
  case ahead =>
    intro ws' conn' hc' id hid
    rcases hget hc' with ⟨_, rfl⟩ | ⟨_, hc'⟩
    · exact absurd hid List.not_mem_nil
    · obtain ⟨s, hs⟩ := hi.ahead ws' conn' hc' id hid
      exact ⟨s, hsettled hs⟩
  case replied =>
    intro ws' conn' otherId rest value hc' hs s conn'' hin hc''
    rcases hget hc' with ⟨_, rfl⟩ | ⟨_, hc'⟩
    · cases hs
    · exact hi.replied ws' conn' otherId rest value hc' hs s conn'' hin (hwaiting hin hc'')
  case copied =>
    intro ws' conn' hc' hs
    rcases hget hc' with ⟨_, rfl⟩ | ⟨_, hc'⟩
    · exact absurd hs id
    · exact copied_snoc (hi.copied ws' conn' hc' hs)
  case compared =>
    intro ws' conn' hc' hs id s conn'' hin hc'' today hm
    rcases hget hc' with ⟨_, rfl⟩ | ⟨_, hc'⟩
    · cases hs
    · refine (hi.compared ws' conn' hc' hs id s conn'' hin (hwaiting hin hc'') today hm).imp_right
        fun hsince => ?_
      obtain ⟨c, hcs, he⟩ := hsince
      exact ⟨c, mem_enteredSince_snoc (hi.copied ws' conn' hc' hs) hcs, he⟩
  case unmatched =>
    intro id ws₁ conn₁ id' ws₂ conn₂ hin hin' hne' hc₁ hc₂
    exact hi.unmatched id ws₁ conn₁ id' ws₂ conn₂ hin hin' hne' (hwaiting hin hc₁)
      (hwaiting hin' hc₂)

theorem informed_elapse {seconds : ℕ} {today : Date} (hi : Informed h sys) :
    Informed (h ++ [(sys, .elapse seconds today)])
      { sys with state := { sys.state with clock := ⟨sys.state.clock.now + seconds, today⟩ } } := by
  refine ⟨hi.distinct, hi.asks, ?_, hi.waiting, hi.ahead, hi.replied, ?_, ?_, ?_⟩
  · intro ws conn hc hin record hget
    exact hi.own ws conn hc hin record (ExpiringStore.get_of_later (Nat.le_add_right _ _) hget)
  · exact fun ws conn hc hs => copied_snoc (hi.copied ws conn hc hs)
  · intro ws conn hc hs id s conn' hin hc' today' hm
    refine (hi.compared ws conn hc hs id s conn' hin hc' today' hm).imp_right fun hsince => ?_
    obtain ⟨c, hcs, he⟩ := hsince
    exact ⟨c, mem_enteredSince_snoc (hi.copied ws conn hc hs) hcs, he⟩
  · intro id ws conn id' ws' conn' hin hin' hne hc hc'
    exact matching_today _ (hi.unmatched id ws conn id' ws' conn' hin hin' hne hc hc')

/-- The queue that the connects find: its records are those of the waiting users. -/
structure Known (start : Sys) : Prop where
  opening : Opening start
  records : ∀ e ∈ start.state.waitingUsers.entries, ∀ conn, start.conns.get? e.2 = some conn →
    ∀ record, start.state.getRecord e.1 = some record → record = conn.record

theorem informed_start {start : Sys} (hk : Known start) (hu : Unmatched start) :
    Informed [] start := by
  have hidle : ∀ {ws conn}, start.conns.get? ws = some conn → conn.status = .idle :=
    fun hc => hk.opening.idle _ _ hc
  have hnone : ∀ {ws conn}, start.conns.get? ws = some conn → ¬ conn.status.Comparing := by
    intro ws conn hc
    rw [hidle hc]
    exact id
  refine ⟨?_, ?_, ?_, ?_, ?_, ?_, fun _ _ hc hs => absurd hs (hnone hc),
    fun _ _ hc hs => absurd hs (hnone hc), hu⟩
  · intro ws conn hc hund
    rw [hidle hc] at hund
    exact absurd hund id
  · intro ws conn hc
    unfold Conn.Asks
    rw [hidle hc]
    trivial
  · intro ws conn hc hin record hget
    rcases hin with hin | hin
    · exact hk.records _ hin conn hc record hget
    · rw [hidle hc] at hin
      exact absurd hin id
  · intro e he
    obtain ⟨conn, hc, hid⟩ := hk.opening.waiting e he
    exact ⟨conn, hc, hid, by rw [hidle hc]; exact id⟩
  · intro ws conn hc id hid
    rw [hidle hc] at hid
    cases hid
  · intro ws conn otherId rest value hc hs
    rw [hidle hc] at hs
    cases hs

theorem informed_next {l : Label} (hi : Informed h sys) (hp : Peaceful sys l)
    (hnobody : NobodyBetween (h, sys) l) (hread : Readable sys l)
    (hstep : interleaved.step sys l sys')
    (hun : ∀ ws e, .raised ws e ∉ sys'.log) : Informed (h ++ [(sys, l)]) sys' := by
  cases steps_of_step hstep with
  | connects hnew => exact informed_connects hi hnew (hp.distinct _ _ _ rfl)
  | elapses => exact informed_elapse hi
  | @acts ws action conn r hc hr =>
    have hnotes : ∀ e, .raised ws e ∉ r.notes :=
      fun e hmem => hun ws e (List.mem_append_right _ hmem)
    cases reacts_of_react hr with
    | message hs => exact absurd hp.admitted id
    | hangup hs => exact absurd rfl (hp.staying ws)
    | @serve failure task request hs =>
      obtain rfl : failure = none := hp.admitted
      exact informed_serve hi hc hread hs
    | resume hs => exact informed_resume hi hc hnobody hs hnotes

/-- In every run in which nobody who matches enters between a copy and a registration, the records
of the copies can be read and no connect raises, no matching pair is left in the queue. -/
theorem no_pair_missed {start : Sys} (hk : Known start) (hu : Unmatched start) {ls : List Label}
    {s : List (Sys × Label) × Sys}
    (hr : (interleaved.recorded.guard fun s l =>
      Peaceful s.2 l ∧ NobodyBetween s l ∧ Readable s.2 l).Run ([], start) ls s)
    (hun : ∀ ws e, .raised ws e ∉ s.2.log) : Unmatched s.2 := by
  have hinv : (∀ ws e, .raised ws e ∉ s.2.log) → Informed s.1 s.2 := by
    refine hr.invariant (fun s => (∀ ws e, .raised ws e ∉ s.2.log) → Informed s.1 s.2)
      (fun _ => informed_start hk hu) ?_
    intro s l s' ih hstep hun'
    obtain ⟨⟨hp, hnobody, hread⟩, hlog, hnext⟩ := hstep
    obtain ⟨notes, hnotes⟩ := log_of_step hnext
    have hi := ih fun ws e hmem => hun' ws e (hnotes ▸ List.mem_append_left _ hmem)
    rw [hlog]
    exact informed_next hi hp hnobody hread hnext hun'
  exact (hinv hun).unmatched

end Run

/-! ### Two connects that overlap -/

def onlyWomen : QueryParams := ⟨[("filter_gender_id", "1")]⟩

def pickyWaiting : Sys :=
  ⟨{ (State.initial .start).setRecord (.of 1) (recordOf (.plain (.of 1)) onlyWomen) with
      waitingUsers := OrderedDict.empty.set (.of 1) ⟨1⟩ },
    OrderedDict.empty.set ⟨1⟩ ⟨.plain (.of 1), onlyWomen, .idle⟩, []⟩

theorem known_pickyWaiting : Known pickyWaiting := by
  have hrecord : ∀ id record, pickyWaiting.state.getRecord id = some record →
      record = recordOf (.plain (.of 1)) onlyWomen := by
    intro id record hrec
    by_cases he : id = .of 1
    · rw [he] at hrec
      exact ExpiringStore.get_of_set hrec
    · exact absurd ((ExpiringStore.get_set_ne _ _ _ _ _ he).symm.trans hrec) (by rintro ⟨⟩)
  refine ⟨⟨rfl, ?_, ?_, ?_⟩, ?_⟩
  · intro ws conn hc
    cases List.mem_singleton.mp (OrderedDict.get?_eq_some.mp hc)
    rfl
  · intro id record hrec
    rw [hrecord id record hrec]
    decide
  · intro e he
    rw [List.mem_singleton.mp he]
    exact ⟨_, rfl, rfl⟩
  · intro e he conn hc record hrec
    rw [List.mem_singleton.mp he] at hc
    cases hc
    exact hrecord _ record hrec

theorem unmatched_pickyWaiting : Unmatched pickyWaiting := by
  intro id ws conn id' ws' conn' hin hin' hne
  cases List.mem_singleton.mp hin
  cases List.mem_singleton.mp hin'
  exact absurd rfl hne

def Sys.quiet (sys : Sys) : Label → Bool
  | .connect _ user query =>
    decide query.filters.WellFormed && sys.conns.entries.all fun e => e.2.user.id ≠ user.id
  | .act _ (.message _) => false
  | .act _ .hangup => false
  | .act _ (.serve failure) => failure.isNone
  | .act _ (.resume _ _) => true
  | .elapse _ _ => false

theorem peaceful_of_quiet (sys : Sys) (l : Label) (hl : sys.quiet l = true) :
    Peaceful sys l ∧ ∀ seconds today, l ≠ .elapse seconds today := by
  cases l with
  | connect ws user query =>
    have hl' := (Bool.and_eq_true _ _).mp hl
    refine ⟨⟨of_decide_eq_true (p := query.filters.WellFormed) hl'.1, fun _ he => ?_, ?_⟩,
      fun _ _ he => ?_⟩
    · cases he
    · intro ws' user' query' he ws conn hc
      cases he
      exact of_decide_eq_true (List.all_eq_true.mp hl'.2 _ (OrderedDict.get?_eq_some.mp hc))
    · cases he
  | elapse seconds today => exact absurd hl Bool.false_ne_true
  | act ws action =>
    cases action with
    | message msg => exact absurd hl Bool.false_ne_true
    | hangup => exact absurd hl Bool.false_ne_true
    | serve failure =>
      refine ⟨⟨Option.isNone_iff_eq_none.mp hl, fun _ he => ?_, fun _ _ _ he => ?_⟩,
        fun _ _ he => ?_⟩ <;> cases he
    | resume hex drift =>
      refine ⟨⟨trivial, fun _ he => ?_, fun _ _ _ he => ?_⟩, fun _ _ he => ?_⟩ <;> cases he

def overlapsApart : List Label :=
  [.connect ⟨2⟩ (.plain (.of 2)) .empty, .connect ⟨4⟩ (.plain (.of 4)) onlyWomen] ++
  [Action.serve none, .goesOn].map (.act ⟨2⟩) ++ [Action.serve none, .goesOn].map (.act ⟨4⟩) ++
  [Action.serve none, .goesOn].map (.act ⟨2⟩) ++ [Action.serve none, .goesOn].map (.act ⟨4⟩) ++
  .connect ⟨3⟩ (.plain (.of 3)) .empty ::
    (List.replicate 7 [Action.serve none, .goesOn]).flatten.map (.act ⟨3⟩)

theorem no_pair_missed_applied :
    ∃ sys, interleaved.Run pickyWaiting overlapsApart sys ∧
      sys.state.waitingUsers.keys = [.of 1, .of 4] ∧ Unmatched sys := by
  obtain ⟨s, hs, hlog, hkeys⟩ : ∃ s,
      Lts.exec (Lts.checked (Lts.logStep Sys.step) fun s l => s.2.quiet l &&
        decide (NobodyBetween s l) && decide (Readable s.2 l)) ([], pickyWaiting)
        overlapsApart = some s ∧
      s.2.log = [.did ⟨2⟩ (.registered (.of 2) ⟨2⟩), .did ⟨4⟩ (.registered (.of 4) ⟨4⟩),
        .did ⟨3⟩ (.claimed (.of 3) (.of 2) ⟨2⟩ (roomName (.of 3) (.of 2) "b")),
        .sent ⟨3⟩ ⟨3⟩ (.matchProposal (roomName (.of 3) (.of 2) "b") (.of 2)),
        .sent ⟨3⟩ ⟨2⟩ (.matchProposal (roomName (.of 3) (.of 2) "b") (.of 3))] ∧
      s.2.state.waitingUsers.keys = [.of 1, .of 4] := ⟨_, rfl, rfl, rfl⟩
  have hr := Lts.guard_run_of_checked
    (P := fun s l => Peaceful s.2 l ∧ NobodyBetween s l ∧ Readable s.2 l) (fun s l hl => by
      simp only [Bool.and_eq_true, decide_eq_true_eq] at hl
      exact ⟨(peaceful_of_quiet s.2 l hl.1.1).1, hl.1.2, hl.2⟩) hs
  rw [← Lts.recorded_ofStep] at hr
  refine ⟨s.2, hr.of_guard.of_recorded, hkeys,
    no_pair_missed known_pickyWaiting unmatched_pickyWaiting hr fun ws e hmem => ?_⟩
  rw [hlog] at hmem
  simp only [List.mem_cons, List.not_mem_nil, or_false, reduceCtorEq] at hmem

/-- Both connects copy the queue before one of them registers its user. -/
def overlap : List Label :=
  [.connect ⟨2⟩ (.plain (.of 2)) .empty, .connect ⟨3⟩ (.plain (.of 3)) .empty] ++
  [Action.serve none, .goesOn].map (.act ⟨2⟩) ++ [Action.serve none, .goesOn].map (.act ⟨3⟩) ++
  [Action.serve none, .goesOn].map (.act ⟨2⟩) ++ [Action.serve none, .goesOn].map (.act ⟨3⟩)

theorem overlapping_connects_miss :
    ¬ ∀ start, Known start → Unmatched start →
      (∀ id ∈ start.state.waitingUsers, ∃ record, start.state.getRecord id = some record) →
      ∀ ls sys, (interleaved.guard fun sys l => Peaceful sys l ∧
          ∀ seconds today, l ≠ .elapse seconds today).Run start ls sys →
        (∀ ws e, .raised ws e ∉ sys.log) → (∀ ws conn, sys.conns.get? ws = some conn →
          conn.status = .idle) → Unmatched sys := by
  intro h
  obtain ⟨sys, hsys, hlog, hconns, hqueue⟩ : ∃ sys,
      Lts.exec (Lts.checked Sys.step Sys.quiet) pickyWaiting overlap = some sys ∧
      sys.log = [.did ⟨2⟩ (.registered (.of 2) ⟨2⟩), .did ⟨3⟩ (.registered (.of 3) ⟨3⟩)] ∧
      sys.conns.entries = [(⟨1⟩, ⟨.plain (.of 1), onlyWomen, .idle⟩),
        (⟨2⟩, ⟨.plain (.of 2), .empty, .idle⟩), (⟨3⟩, ⟨.plain (.of 3), .empty, .idle⟩)] ∧
      sys.state.waitingUsers.entries = [(.of 1, ⟨1⟩), (.of 2, ⟨2⟩), (.of 3, ⟨3⟩)] :=
    ⟨_, rfl, rfl, rfl, rfl⟩
  have hrecords : ∀ id ∈ pickyWaiting.state.waitingUsers, ∃ record,
      pickyWaiting.state.getRecord id = some record := by
    intro id hid
    obtain ⟨ws, hmem⟩ := OrderedDict.mem_iff_exists.mp hid
    cases List.mem_singleton.mp hmem
    exact ⟨recordOf (.plain (.of 1)) onlyWomen, by decide +kernel⟩
  have hun := h pickyWaiting known_pickyWaiting unmatched_pickyWaiting hrecords _ _
    (Lts.guard_run_of_checked peaceful_of_quiet hsys) ?_ ?_
  · refine hun (.of 2) ⟨2⟩ ⟨.plain (.of 2), .empty, .idle⟩ (.of 3) ⟨3⟩
      ⟨.plain (.of 3), .empty, .idle⟩ ?_ ?_ (by decide) ?_ ?_ ⟨rfl, rfl⟩
    · rw [hqueue]
      simp
    · rw [hqueue]
      simp
    · rw [OrderedDict.get?_eq_some, hconns]
      simp
    · rw [OrderedDict.get?_eq_some, hconns]
      simp
  · intro ws e hmem
    rw [hlog] at hmem
    simp only [List.mem_cons, List.not_mem_nil, or_false, reduceCtorEq] at hmem
  · intro ws conn hc
    rw [OrderedDict.get?_eq_some, hconns] at hc
    simp only [List.mem_cons, List.not_mem_nil, or_false, Prod.mk.injEq] at hc
    obtain ⟨-, rfl⟩ | ⟨-, rfl⟩ | ⟨-, rfl⟩ := hc <;> rfl

end Nalang.Matchmaking
