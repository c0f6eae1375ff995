import Nalang.WaitingRoom.Pages

/-!
# The sockets of one page

All sockets of a page share `socketRef` and `connected`, and a socket clears both
when it closes, whether or not it is still the current one. `Books` is what the
hook knows beside the sockets that are in use.
-/

namespace Nalang.WaitingRoom
open Matchmaking Transition

inductive HookLabel
  | connect (s : Socket)
  | send (data : Json)
  | disconnect
  | opens (s : Socket)
  | closes (s : Socket)

namespace World

def hookStep (id : ℕ) (w : World) : HookLabel → Option World
  | .connect s => if w.Fresh (some s) then some (w.connect id s) else none
  | .send data => some (w.send id data)
  | .disconnect => some (w.disconnect id)
  | .opens s =>
    match w.links s with
    | none => none
    | some l =>
      if l.owner = id ∧ l.ready = .connecting then some (w.setLink s { l with ready := .open })
      else none
  | .closes s =>
    match w.links s with
    | none => none
    | some l =>
      if l.owner = id ∧ l.ready ≠ .closed then
        some ((w.setLink s { l with ready := .closed, toClient := [] }).onclose id)
      else none

end World

/-! ### The books of the hook -/

structure Books where
  alive : Set Socket
  socketRef : Option Socket
  connected : Bool

def Books.after (b : Books) : HookLabel → Books
  | .connect s => ⟨insert s b.alive, some s, true⟩
  | .send _ => b
  | .disconnect => { b with alive := {s ∈ b.alive | b.socketRef ≠ some s} }
  | .opens _ => b
  | .closes s => ⟨b.alive \ {s}, none, false⟩

/-- The socket in use is the one the hook refers to. There is at most one. -/
def Books.Referenced (b : Books) : Prop := ∀ s ∈ b.alive, b.socketRef = some s

def Books.Flagged (b : Books) : Prop := b.connected = true ↔ b.alive.Nonempty

/-- A socket is created or closes only while no other is in use. -/
def Books.Sequential (b : Books) : HookLabel → Prop
  | .connect s | .closes s => b.alive ⊆ {s}
  | _ => True

/-- Besides, the socket in use is never closed from this side. -/
def Books.Patient (b : Books) (l : HookLabel) : Prop :=
  b.Sequential l ∧ (l = .disconnect → b.alive = ∅)

section Books
variable {b : Books}

theorem Books.alive_disconnect (h : b.Referenced) : (b.after .disconnect).alive = ∅ := by
  apply Set.eq_empty_of_forall_notMem
  intro s hs
  exact hs.2 (h s hs.1)

theorem Books.referenced_after (h : b.Referenced) (l : HookLabel) :
    (b.after l).Referenced ↔ b.Sequential l := by
  cases l with
  | connect s =>
    constructor
    · intro hr s' hs'
      exact (Option.some.inj (hr s' (Set.mem_insert_of_mem s hs'))).symm
    · intro hsub s' hs'
      rcases hs' with rfl | hs'
      · rfl
      · rw [hsub hs']
        rfl
  | send data => exact iff_of_true h trivial
  | disconnect =>
    refine iff_of_true ?_ trivial
    intro s hs
    exact h s hs.1
  | opens s => exact iff_of_true h trivial
  | closes s =>
    constructor
    · intro hr s' hs'
      by_contra hne
      cases hr s' ⟨hs', hne⟩
    · intro hsub s' hs'
      exact absurd (hsub hs'.1) hs'.2

theorem Books.kept_after (h : b.Referenced) (hf : b.Flagged) (l : HookLabel) :
    (b.after l).Referenced ∧ (b.after l).Flagged ↔ b.Patient l := by
  rw [Books.referenced_after h]
  refine and_congr_right fun hs => ?_
  cases l with
  | connect s => exact iff_of_true (iff_of_true rfl ⟨s, Set.mem_insert _ _⟩) HookLabel.noConfusion
  | send data => exact iff_of_true hf HookLabel.noConfusion
  | disconnect =>
    unfold Books.Flagged at hf ⊢
    rw [Books.alive_disconnect h]
    simp only [Books.after, Set.not_nonempty_empty, iff_false, hf, Set.not_nonempty_iff_eq_empty,
      forall_const]
  | opens s => exact iff_of_true hf HookLabel.noConfusion
  | closes s =>
    refine iff_of_true (iff_of_false Bool.false_ne_true ?_) HookLabel.noConfusion
    rintro ⟨s', hs', hne⟩
    exact hne (hs hs')

end Books

namespace World

def books (w : World) (id : ℕ) : Books where
  alive := {s | w.Owns id s}
  socketRef := (w.components id).bind Component.socketRef
  connected := (w.components id).any Component.connected

section Refinement
variable {w w' : World} {id : ℕ} {c : Component} {s : Socket} {l l' : Link}

theorem books_retained {own : Socket → Prop} (h : Retains own w w') (hown : ∀ s, own s)
    (hcomp : w'.components = w.components) : w'.books id = w.books id := by
  unfold books
  simp only [h.owns (hown _), hcomp]

theorem owns_connect (s' : Socket) :
    (w.connect id s).Owns id s' ↔ s' = s ∨ w.Owns id s' := by
  by_cases hs : s' = s
  · rw [hs]
    exact iff_of_true ⟨_, connect_links_self, rfl, .inl rfl⟩ (.inl rfl)
  · unfold Owns
    simp [connect_links hs, hs]

theorem books_connect (hc : w.components id = some c) :
    (w.connect id s).books id = (w.books id).after (.connect s) := by
  unfold books Books.after
  simp only [owns_connect, Set.insert_def]
  simp [connect, hc]

theorem owns_disconnect (hc : w.components id = some c) (s : Socket) :
    (w.disconnect id).Owns id s ↔ w.Owns id s ∧ c.socketRef ≠ some s := by
  by_cases hs : c.socketRef = some s
  · refine iff_of_false ?_ fun h => h.2 hs
    rintro ⟨l, hl, -, hlive⟩
    exact disconnect_not_live hc hs hl hlive
  · rw [(retains_disconnect hc).owns hs]
    simp [hs]

theorem books_disconnect (hc : w.components id = some c) :
    (w.disconnect id).books id = (w.books id).after .disconnect := by
  unfold books Books.after
  simp only [owns_disconnect hc, disconnect_components, hc]
  rfl

theorem owns_closed (hdead : ¬ l'.Live) (s' : Socket) :
    ((w.setLink s l').onclose id).Owns id s' ↔ w.Owns id s' ∧ s' ≠ s := by
  unfold Owns onclose
  rw [modify_links]
  by_cases hs : s' = s
  · simp [hs, hdead]
  · simp [setLink_links_ne hs, hs]

theorem books_onclose (hc : w.components id = some c) (hm : c.mounted = true)
    (hdead : ¬ l'.Live) :
    ((w.setLink s l').onclose id).books id = (w.books id).after (.closes s) := by
  unfold books Books.after
  simp only [owns_closed hdead]
  simp [onclose, hc, hm, Set.sdiff_eq]
  rfl

theorem hookStep_opens : w.hookStep id (.opens s) = some w' ↔ ∃ l, w.links s = some l ∧
    (l.owner = id ∧ l.ready = .connecting) ∧ w.setLink s { l with ready := .open } = w' := by
  unfold hookStep
  cases hl : w.links s with
  | none => simp [hl]
  | some l => simp [hl]

theorem hookStep_closes : w.hookStep id (.closes s) = some w' ↔ ∃ l, w.links s = some l ∧
    (l.owner = id ∧ l.ready ≠ .closed) ∧
      (w.setLink s { l with ready := .closed, toClient := [] }).onclose id = w' := by
  unfold hookStep
  cases hl : w.links s with
  | none => simp [hl]
  | some l => simp [hl]

theorem books_of_step (hc : w.components id = some c) (hm : c.mounted = true) {l : HookLabel}
    (h : w.hookStep id l = some w') : w'.books id = (w.books id).after l := by
  cases l with
  | connect s =>
    simp only [hookStep, Option.ite_none_right_eq_some, Option.some.injEq] at h
    rw [← h.2]
    exact books_connect hc
  | send data =>
    cases h
    exact books_retained retains_send (fun _ => trivial) send_components
  | disconnect =>
    cases h
    exact books_disconnect hc
  | opens s =>
    obtain ⟨l, hl, ⟨-, hready⟩, rfl⟩ := hookStep_opens.mp h
    refine books_retained (retains_setLink hl ⟨rfl, ?_, fun hne => hne⟩) (fun _ => trivial) rfl
    exact iff_of_true (.inr rfl) (.inl hready)
  | closes s =>
    obtain ⟨l, hl, -, rfl⟩ := hookStep_closes.mp h
    refine books_onclose hc hm ?_
    rintro (hlive | hlive) <;> cases hlive

theorem mounted_of_step (hc : w.components id = some c) (hm : c.mounted = true) {l : HookLabel}
    (h : w.hookStep id l = some w') : ∃ c', w'.components id = some c' ∧ c'.mounted = true := by
  cases l with
  | connect s =>
    simp only [hookStep, Option.ite_none_right_eq_some, Option.some.injEq] at h
    rw [← h.2]
    simp [connect, hc, hm]
  | send data =>
    cases h
    exact ⟨c, by rw [send_components, hc], hm⟩
  | disconnect =>
    cases h
    exact ⟨c, by rw [disconnect_components, hc], hm⟩
  | opens s =>
    obtain ⟨l, hl, -, rfl⟩ := hookStep_opens.mp h
    exact ⟨c, hc, hm⟩
  | closes s =>
    obtain ⟨l, hl, -, rfl⟩ := hookStep_closes.mp h
    simp [onclose, hc, hm]

theorem current_of_referenced (hr : (w.books id).Referenced) (hl : w.links s = some l)
    (howner : l.owner = id) (hlive : l.Live) : w.current id = some (s, l) := by
  have hs : (w.components id).bind Component.socketRef = some s := hr s ⟨l, hl, howner, hlive⟩
  obtain ⟨c, hc, hsock⟩ := Option.bind_eq_some_iff.mp hs
  unfold current
  simp [hc, hsock, hl]

end Refinement

structure Tracked (w : World) (id : ℕ) : Prop where
  referenced : (w.books id).Referenced
  sends : ∀ data s l, w.links s = some l → l.owner = id → l.ready = .open →
    (w.send id data).links s = some { l with toServer := l.toServer ++ [data] }
  disconnects : ∀ s, ¬ (w.disconnect id).Owns id s

theorem tracked_iff {w : World} {id : ℕ} {c : Component} (hc : w.components id = some c) :
    w.Tracked id ↔ (w.books id).Referenced := by
  refine ⟨Tracked.referenced, fun hr => ⟨hr, ?_, ?_⟩⟩
  · intro data s l hl howner hopen
    unfold send
    rw [current_of_referenced hr hl howner (.inr hopen)]
    simp [hopen]
  · intro s hs
    have hdead := Books.alive_disconnect hr
    rw [← books_disconnect hc] at hdead
    exact absurd hs (Set.eq_empty_iff_forall_notMem.mp hdead s)

def opened (clock : Clock) (id : ℕ) (user : UserId) : World :=
  (initial clock).setComponent id (Component.mount user)

end World

def callWebSocket (id : ℕ) : Lts World HookLabel := Lts.ofStep (World.hookStep id)

section Runs
variable {clock : Clock} {id : ℕ} {user : UserId} {ls : List HookLabel} {w : World}

theorem books_opened : (World.opened clock id user).books id = ⟨∅, none, false⟩ := by
  unfold World.books World.opened World.setComponent World.Owns World.initial
  simp [Component.mount]

theorem opened_component :
    (World.opened clock id user).components id = some (Component.mount user) :=
  Function.update_self ..

theorem mounted_of_run (hr : (callWebSocket id).Run (.opened clock id user) ls w) :
    ∃ c, w.components id = some c ∧ c.mounted = true := by
  refine hr.invariant (fun w => ∃ c, w.components id = some c ∧ c.mounted = true)
    ⟨_, opened_component, rfl⟩ ?_
  rintro w l w' ⟨c, hc, hm⟩ hstep
  exact World.mounted_of_step hc hm hstep

theorem books_of_run (hr : (callWebSocket id).Run (.opened clock id user) ls w) :
    w.books id = ls.foldl Books.after ⟨∅, none, false⟩ := by
  induction hr with
  | nil => exact books_opened
  | snoc hr hs ih =>
    obtain ⟨c, hc, hm⟩ := mounted_of_run hr
    rw [World.books_of_step hc hm hs, ih, List.foldl_append]
    rfl

/-- The bookkeeping holds as long as a socket is created or closes only while no other is in use.
The flag is right as long as, besides, no socket in use is closed from this side. -/
theorem bookkeeping_iff :
    (((callWebSocket id).within fun w => w.Tracked id).Run (.opened clock id user) ls w ↔
      ((callWebSocket id).guard fun w l => (w.books id).Sequential l).Run
        (.opened clock id user) ls w) ∧
    (((callWebSocket id).within fun w => w.Tracked id ∧ (w.books id).Flagged).Run
        (.opened clock id user) ls w ↔
      ((callWebSocket id).guard fun w l => (w.books id).Patient l).Run
        (.opened clock id user) ls w) := by
  have hkeeps : ∀ w l w', (∃ c, w.components id = some c ∧ c.mounted = true) →
      (callWebSocket id).step w l w' → ∃ c, w'.components id = some c ∧ c.mounted = true := by
    rintro w l w' ⟨c, hc, hm⟩ hstep
    exact World.mounted_of_step hc hm hstep
  have hstart : (World.opened clock id user).Tracked id := by
    rw [World.tracked_iff opened_component, books_opened]
    intro s hs
    cases hs
  constructor
  · refine Lts.run_within_iff (fun w => ∃ c, w.components id = some c ∧ c.mounted = true)
      ⟨_, opened_component, rfl⟩ hkeeps hstart ?_
    rintro w l w' ⟨c, hc, hm⟩ ht hstep
    obtain ⟨c', hc', -⟩ := hkeeps w l w' ⟨c, hc, hm⟩ hstep
    rw [World.tracked_iff hc', World.books_of_step hc hm hstep]
    exact Books.referenced_after ht.referenced l
  · refine Lts.run_within_iff (fun w => ∃ c, w.components id = some c ∧ c.mounted = true)
      ⟨_, opened_component, rfl⟩ hkeeps ⟨hstart, ?_⟩ ?_
    · rw [books_opened]
      simp [Books.Flagged]
    · rintro w l w' ⟨c, hc, hm⟩ ⟨ht, hf⟩ hstep
      obtain ⟨c', hc', -⟩ := hkeeps w l w' ⟨c, hc, hm⟩ hstep
      rw [World.tracked_iff hc', World.books_of_step hc hm hstep]
      exact Books.kept_after ht.referenced hf l

end Runs

/-! ### The first of two sockets closes -/

def overlapping : List HookLabel := [.connect ⟨1⟩, .opens ⟨1⟩, .connect ⟨2⟩, .closes ⟨1⟩]

theorem overlapping_run : ∃ w,
    (callWebSocket 0).Run (.opened .start 0 (.of 1)) overlapping w := by
  have hexec : (Lts.exec (World.hookStep 0) (.opened .start 0 (.of 1)) overlapping).isSome :=
    rfl
  obtain ⟨w, hw⟩ := Option.isSome_iff_exists.mp hexec
  exact ⟨w, Lts.run_of_exec hw⟩

theorem socket_forgotten : ¬ ∀ clock id user ls w,
    (callWebSocket id).Run (.opened clock id user) ls w →
      w.Tracked id ∧ (w.books id).Flagged := by
  intro hall
  obtain ⟨w, hr⟩ := overlapping_run
  have hbooks := books_of_run hr
  have hkept := (hall _ _ _ _ _ hr).1.referenced ⟨2⟩
  rw [hbooks] at hkept
  simp [overlapping, Books.after] at hkept

end Nalang.WaitingRoom
