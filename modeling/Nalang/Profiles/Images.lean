import Nalang.Accounts.Lifetimes
import Nalang.Library.OrderedDict
import Nalang.Library.Transition

/-!
# Profile images

`upload_profile_image` puts the file into the bucket under a new key and then commits
the address in the row of the user. Between the two, other requests may do the same,
also for that user. The bucket has no versions: a key that is used again replaces the object.
-/

namespace Nalang.Profiles
open Accounts Transition

/-! ### `core/utils.py` and `user/routes.py` -/

structure UploadFile where
  filename : String
  contentType : Option String
  content : List UInt8

/-- `filename.split(".")[-1]` -/
def extension (filename : String) : List Char :=
  (filename.toList.reverse.takeWhile (· ≠ '.')).reverse

/-- `f"{folder}/{uuid4()}.{extension}"` -/
def objectKey (uuid filename : String) : String :=
  "profile_image/" ++ uuid ++ "." ++ String.ofList (extension filename)

def imageUrl (bucketName key : String) : String :=
  "https://" ++ bucketName ++ ".s3.amazonaws.com/" ++ key

def allowedTypes : List String := ["image/jpeg", "image/png", "image/gif", "image/webp"]

def notAnImage : HttpError := .httpException 400 "이미지 파일만 업로드할 수 있습니다."

structure Upload where
  user : ℕ
  file : UploadFile

def UploadFile.allowed (file : UploadFile) : Prop :=
  ∃ type ∈ allowedTypes, file.contentType = some type

instance (file : UploadFile) : Decidable file.allowed := by
  unfold UploadFile.allowed
  infer_instance

def withImage (id : ℕ) (url : String) (user : User) : User :=
  if user.id = id then { user with profileImage := some url } else user

@[simp] theorem withImage_id (id : ℕ) (url : String) (user : User) :
    (withImage id url user).id = user.id := by
  unfold withImage
  split_ifs <;> rfl

@[simp] theorem withImage_email (id : ℕ) (url : String) (user : User) :
    (withImage id url user).email = user.email := by
  unfold withImage
  split_ifs <;> rfl

def updateImage (t : Users) (id : ℕ) (url : String) : Users where
  rows := t.rows.map (withImage id url)
  nextId := t.nextId
  ids := by simpa [List.map_map, Function.comp_def] using t.ids
  emails := by simpa [List.map_map, Function.comp_def] using t.emails
  fresh user hmem := by
    obtain ⟨old, hold, rfl⟩ := List.mem_map.mp hmem
    rw [withImage_id]
    exact t.fresh old hold

/-! ### Requests side by side -/

inductive UploadPhase
  | started
  | uploaded (url : String)
  | done (url : String)
  | failed (e : HttpError)

structure ImageState (Tx : Type) where
  users : Users
  /-- Of an object, the request that has put it. -/
  bucket : OrderedDict String Tx
  drawn : List String
  phase : Tx → UploadPhase

inductive ImageLabel (Tx : Type)
  | uploads (tx : Tx) (uuid : String)
  /-- S3 raises, before or after it has stored the object. -/
  | s3Fails (tx : Tx) (uuid : String) (stored : Bool)
  | commits (tx : Tx)
  | commitFails (tx : Tx)

section Steps
variable {Tx : Type} [DecidableEq Tx] (bucketName : String) (uploads : Tx → Upload)

namespace ImageState

def start (users : Users) : ImageState Tx := ⟨users, .empty, [], fun _ => .started⟩

def next (s : ImageState Tx) (tx : Tx) (phase : UploadPhase) : ImageState Tx :=
  { s with phase := Function.update s.phase tx phase }

def put (s : ImageState Tx) (tx : Tx) (uuid : String) : ImageState Tx :=
  { s with
    bucket := s.bucket.set (objectKey uuid (uploads tx).file.filename) tx
    drawn := s.drawn ++ [uuid] }

def urlOf (tx : Tx) (uuid : String) : String :=
  imageUrl bucketName (objectKey uuid (uploads tx).file.filename)

/-- The type is checked before anything is drawn or put. -/
def step (s : ImageState Tx) : ImageLabel Tx → Option (ImageState Tx)
  | .uploads tx uuid =>
    match s.phase tx with
    | .started =>
      if (uploads tx).file.allowed then
        some ((s.put uploads tx uuid).next tx (.uploaded (urlOf bucketName uploads tx uuid)))
      else some (s.next tx (.failed notAnImage))
    | _ => none
  | .s3Fails tx uuid stored =>
    match s.phase tx with
    | .started =>
      if (uploads tx).file.allowed then
        let s' := if stored then s.put uploads tx uuid else { s with drawn := s.drawn ++ [uuid] }
        some (s'.next tx (.failed .serverError))
      else none
    | _ => none
  | .commits tx =>
    match s.phase tx with
    | .uploaded url =>
      some ({ s with users := updateImage s.users (uploads tx).user url }.next tx (.done url))
    | _ => none
  | .commitFails tx =>
    match s.phase tx with
    | .uploaded _ => some (s.next tx (.failed .serverError))
    | _ => none

end ImageState

def imageUploads : Lts (ImageState Tx) (ImageLabel Tx) :=
  Lts.ofStep (ImageState.step bucketName uploads)

/-- The identifiers have the length of a UUID, and none comes twice. -/
def FreshUuid (s : ImageState Tx) : ImageLabel Tx → Prop
  | .uploads _ uuid | .s3Fails _ uuid _ => uuid.length = 36 ∧ uuid ∉ s.drawn
  | .commits _ | .commitFails _ => True

instance (s : ImageState Tx) : (l : ImageLabel Tx) → Decidable (FreshUuid s l)
  | .uploads _ uuid | .s3Fails _ uuid _ =>
    inferInstanceAs (Decidable (uuid.length = 36 ∧ uuid ∉ s.drawn))
  | .commits _ | .commitFails _ => inferInstanceAs (Decidable True)

end Steps

/-! ### The keys -/

theorem objectKey_inj {uuid uuid' filename filename' : String} (h : uuid.length = 36)
    (h' : uuid'.length = 36) (hkey : objectKey uuid filename = objectKey uuid' filename') :
    uuid = uuid' := by
  have hl := congrArg String.toList hkey
  simp only [objectKey, String.toList_append, List.append_assoc] at hl
  have hrest := List.append_cancel_left hl
  have hlen : uuid.toList.length = uuid'.toList.length := by
    rw [String.length_toList, String.length_toList, h, h']
  exact String.toList_inj.mp (List.append_inj hrest hlen).1

/-! ### What a row shows -/

section Runs
variable {Tx : Type} {bucketName : String} {uploads : Tx → Upload}
  {s s' : ImageState Tx} {l : ImageLabel Tx} {es : List (ImageLabel Tx)} {tx : Tx} {user : ℕ}

def ImageLabel.committed? : ImageLabel Tx → Option Tx
  | .commits tx => some tx
  | _ => none

/-- The upload of the user that has been committed last. -/
def latest (uploads : Tx → Upload) (user : ℕ) (es : List (ImageLabel Tx)) : Option Tx :=
  ((es.filterMap ImageLabel.committed?).filter fun tx => (uploads tx).user = user).getLast?

theorem latest_snoc_commits : latest uploads user (es ++ [.commits tx]) =
    if (uploads tx).user = user then some tx else latest uploads user es := by
  unfold latest
  rw [List.filterMap_append, List.filter_append]
  change (_ ++ [tx].filter _).getLast? = _
  split_ifs with huser
  · rw [List.filter_cons_of_pos (by simpa using huser)]
    exact List.getLast?_append_of_ne_nil _ (List.cons_ne_nil _ _)
  · rw [List.filter_cons_of_neg (by simpa using huser), List.filter_nil, List.append_nil]

theorem latest_snoc (h : l.committed? = none) :
    latest uploads user (es ++ [l]) = latest uploads user es := by
  unfold latest
  have hnone : [l].filterMap ImageLabel.committed? = [] := by simp [h]
  rw [List.filterMap_append, hnone, List.append_nil]

structure Leads (bucketName : String) (uploads : Tx → Upload) (bucket : OrderedDict String Tx)
    (tx : Tx) (url : String) : Prop where
  allowed : (uploads tx).file.allowed
  object : ∃ uuid, url = ImageState.urlOf bucketName uploads tx uuid ∧
    bucket.get? (objectKey uuid (uploads tx).file.filename) = some tx

inductive Shown (bucketName : String) (uploads : Tx → Upload) (bucket : OrderedDict String Tx)
    (row : User) : Option Tx → User → Prop
  | before : Shown bucketName uploads bucket row none row
  | latest {tx : Tx} {url : String} (hurl : Leads bucketName uploads bucket tx url) :
      Shown bucketName uploads bucket row (some tx) { row with profileImage := some url }

def Extends (bucket bucket' : OrderedDict String Tx) : Prop :=
  ∀ key tx, bucket.get? key = some tx → bucket'.get? key = some tx

theorem Leads.mono {bucket bucket' : OrderedDict String Tx} {url : String}
    (h : Leads bucketName uploads bucket tx url) (hext : Extends bucket bucket') :
    Leads bucketName uploads bucket' tx url := by
  obtain ⟨uuid, hurl, hget⟩ := h.object
  exact ⟨h.allowed, uuid, hurl, hext _ _ hget⟩

theorem Shown.mono {bucket bucket' : OrderedDict String Tx} {row row' : User} {last : Option Tx}
    (h : Shown bucketName uploads bucket row last row') (hext : Extends bucket bucket') :
    Shown bucketName uploads bucket' row last row' := by
  cases h with
  | before => exact .before
  | latest hurl => exact .latest (hurl.mono hext)

theorem Shown.withImage {bucket : OrderedDict String Tx} {row row' : User} {last : Option Tx}
    {url : String} (h : Shown bucketName uploads bucket row last row')
    (hurl : Leads bucketName uploads bucket tx url) :
    Shown bucketName uploads bucket row (if (uploads tx).user = row.id then some tx else last)
      (withImage (uploads tx).user url row') := by
  have hid : row'.id = row.id := by
    cases h <;> rfl
  unfold Nalang.Profiles.withImage
  rw [hid]
  by_cases huser : (uploads tx).user = row.id
  · rw [if_pos huser, if_pos huser.symm]
    cases h with
    | before => exact .latest hurl
    | latest => exact .latest hurl
  · rw [if_neg huser, if_neg fun heq => huser heq.symm]
    exact h

structure ImagesKept (bucketName : String) (uploads : Tx → Upload) (rows₀ : List User)
    (es : List (ImageLabel Tx)) (s : ImageState Tx) : Prop where
  keys : ∀ key tx, s.bucket.get? key = some tx → ∃ uuid ∈ s.drawn, uuid.length = 36 ∧
    key = objectKey uuid (uploads tx).file.filename
  phases : ∀ tx url, s.phase tx = .uploaded url ∨ s.phase tx = .done url →
    Leads bucketName uploads s.bucket tx url
  rows : List.Forall₂ (fun row row' => Shown bucketName uploads s.bucket row
    (latest uploads row.id es) row') rows₀ s.users.rows

theorem imagesKept_start (users : Users) :
    ImagesKept bucketName uploads users.rows [] (.start users) := by
  refine ⟨fun key tx hget => ?_, fun tx url hphase => ?_, ?_⟩
  · exact absurd (OrderedDict.mem_of_get? hget) (OrderedDict.not_mem_empty key)
  · rcases hphase with hphase | hphase <;> cases hphase
  · exact List.forall₂_same.mpr fun row _ => .before

namespace ImagesKept
variable {rows₀ : List User} {uuid : String} {phase : UploadPhase}

theorem extends_put (h : ImagesKept bucketName uploads rows₀ es s)
    (hfresh : uuid.length = 36 ∧ uuid ∉ s.drawn) :
    Extends s.bucket (s.put uploads tx uuid).bucket := by
  intro key tx' hget
  obtain ⟨uuid', hdrawn, hlen, hkey⟩ := h.keys key tx' hget
  refine OrderedDict.get?_set_eq_some.mpr (.inr ⟨fun heq => hfresh.2 ?_, hget⟩)
  rw [heq] at hkey
  rwa [objectKey_inj hfresh.1 hlen hkey]

theorem put (h : ImagesKept bucketName uploads rows₀ es s)
    (hfresh : uuid.length = 36 ∧ uuid ∉ s.drawn) :
    ImagesKept bucketName uploads rows₀ es (s.put uploads tx uuid) := by
  have hext : Extends s.bucket (s.put uploads tx uuid).bucket := h.extends_put hfresh
  refine ⟨fun key tx' hget => ?_, fun tx' url hphase => (h.phases tx' url hphase).mono hext,
    h.rows.imp fun _ _ hshown => hshown.mono hext⟩
  rcases OrderedDict.get?_set_eq_some.mp hget with ⟨rfl, rfl⟩ | ⟨-, hold⟩
  · exact ⟨uuid, List.mem_append_right _ (List.mem_singleton_self uuid), hfresh.1, rfl⟩
  · obtain ⟨uuid', hdrawn, hlen, hkey⟩ := h.keys key tx' hold
    exact ⟨uuid', List.mem_append_left _ hdrawn, hlen, hkey⟩

theorem draw (h : ImagesKept bucketName uploads rows₀ es s) (uuid : String) :
    ImagesKept bucketName uploads rows₀ es { s with drawn := s.drawn ++ [uuid] } := by
  refine ⟨fun key tx' hget => ?_, h.phases, h.rows⟩
  obtain ⟨uuid', hdrawn, hlen, hkey⟩ := h.keys key tx' hget
  exact ⟨uuid', List.mem_append_left _ hdrawn, hlen, hkey⟩

theorem label (h : ImagesKept bucketName uploads rows₀ es s) (hl : l.committed? = none) :
    ImagesKept bucketName uploads rows₀ (es ++ [l]) s := by
  refine ⟨h.keys, h.phases, h.rows.imp fun row row' hshown => ?_⟩
  rwa [latest_snoc hl]

variable [DecidableEq Tx]

theorem next (h : ImagesKept bucketName uploads rows₀ es s)
    (hphase : ∀ url, phase = .uploaded url ∨ phase = .done url →
      Leads bucketName uploads s.bucket tx url) :
    ImagesKept bucketName uploads rows₀ es (s.next tx phase) := by
  refine ⟨h.keys, fun tx' url hurl => ?_, h.rows⟩
  unfold ImageState.next at hurl
  by_cases htx : tx' = tx
  · subst htx
    exact hphase url (by simpa using hurl)
  · exact h.phases tx' url (by simpa [Function.update_of_ne htx] using hurl)

theorem fail (h : ImagesKept bucketName uploads rows₀ es s) (tx : Tx) (e : HttpError) :
    ImagesKept bucketName uploads rows₀ es (s.next tx (.failed e)) := by
  refine h.next fun url hphase => ?_
  rcases hphase with hphase | hphase <;> cases hphase

theorem commit (h : ImagesKept bucketName uploads rows₀ es s) {url : String}
    (hphase : s.phase tx = .uploaded url) :
    ImagesKept bucketName uploads rows₀ (es ++ [.commits tx])
      ({ s with users := updateImage s.users (uploads tx).user url }.next tx (.done url)) := by
  have hleads := h.phases tx url (.inl hphase)
  have hcommitted : ImagesKept bucketName uploads rows₀ (es ++ [.commits tx])
      { s with users := updateImage s.users (uploads tx).user url } := by
    refine ⟨h.keys, h.phases, List.forall₂_map_right_iff.mpr (h.rows.imp fun row row' hshown => ?_)⟩
    rw [latest_snoc_commits]
    exact hshown.withImage hleads
  refine hcommitted.next fun url' hdone => ?_
  rcases hdone with hdone | hdone <;> cases hdone
  exact hleads

theorem step (h : ImagesKept bucketName uploads rows₀ es s) (hfresh : FreshUuid s l)
    (hs : (imageUploads bucketName uploads).step s l s') :
    ImagesKept bucketName uploads rows₀ (es ++ [l]) s' := by
  change s.step bucketName uploads l = some s' at hs
  unfold ImageState.step at hs
  cases l with
  | uploads tx uuid =>
    cases hphase : s.phase tx with
    | started =>
      simp only [hphase] at hs
      split_ifs at hs with hallowed
      · cases hs
        refine ((h.put hfresh).next fun url hurl => ?_).label rfl
        rcases hurl with hurl | hurl <;> cases hurl
        exact ⟨hallowed, uuid, rfl, OrderedDict.get?_set_self ..⟩
      · cases hs
        exact (h.fail tx _).label rfl
    | _ => simp [hphase] at hs
  | s3Fails tx uuid stored =>
    cases hphase : s.phase tx with
    | started =>
      simp only [hphase] at hs
      obtain ⟨-, hs⟩ := Option.ite_none_right_eq_some.mp hs
      cases hs
      cases stored with
      | true => exact ((h.put hfresh).fail tx _).label rfl
      | false => exact ((h.draw uuid).fail tx _).label rfl
    | _ => simp [hphase] at hs
  | commits tx =>
    cases hphase : s.phase tx with
    | uploaded url =>
      simp only [hphase, Option.some.injEq] at hs
      cases hs
      exact h.commit hphase
    | _ => simp [hphase] at hs
  | commitFails tx =>
    cases hphase : s.phase tx with
    | uploaded url =>
      simp only [hphase, Option.some.injEq] at hs
      cases hs
      exact (h.fail tx _).label rfl
    | _ => simp [hphase] at hs

end ImagesKept

/-- However the requests are interleaved, the image of a user is the one that came with the row or
the file of the upload of that user which has been committed last, and that file is still there. -/
theorem image_is_latest_upload [DecidableEq Tx] {users : Users}
    (hr : ((imageUploads bucketName uploads).guard FreshUuid).Run (.start users) es s) :
    List.Forall₂ (fun row row' => Shown bucketName uploads s.bucket row
        (latest uploads row.id es) row') users.rows s.users.rows ∧
      ∀ tx url, s.phase tx = .done url → Leads bucketName uploads s.bucket tx url := by
  have h : ImagesKept bucketName uploads users.rows es s := by
    refine hr.history (ImagesKept bucketName uploads users.rows) (imagesKept_start users) ?_
    intro es s l s' h hs
    exact h.step hs.1 hs.2
  exact ⟨h.rows, fun tx url hphase => h.phases tx url (.inr hphase)⟩

end Runs

def twoPictures (first : Bool) : Upload :=
  ⟨1, ⟨if first then "seoul.png" else "busan.jpg", some "image/png", []⟩⟩

def crossing : List (ImageLabel Bool) :=
  [.uploads true "6f1c2f6e-0d5c-4b59-9a45-0a3a1c6a7e11",
    .uploads false "0b9a3f52-7d3e-4d0f-8d2b-5b1d8a1f4c22", .commits false, .commits true]

theorem image_is_latest_upload_applied : ∃ s : ImageState Bool,
    ((imageUploads "nalang" twoPictures).guard FreshUuid).Run (.start oneUser) crossing s ∧
      s.users.rows.map User.profileImage = [some ("https://nalang.s3.amazonaws.com/" ++
        "profile_image/6f1c2f6e-0d5c-4b59-9a45-0a3a1c6a7e11.png")] ∧
      List.Forall₂ (fun row row' => Shown "nalang" twoPictures s.bucket row
        (latest twoPictures row.id crossing) row') oneUser.rows s.users.rows := by
  obtain ⟨s, hexec, himage⟩ : ∃ s, Lts.exec (Lts.checked (ImageState.step "nalang" twoPictures)
      fun s l => decide (FreshUuid s l)) (.start oneUser) crossing = some s ∧
        s.users.rows.map User.profileImage = [some ("https://nalang.s3.amazonaws.com/" ++
          "profile_image/6f1c2f6e-0d5c-4b59-9a45-0a3a1c6a7e11.png")] := ⟨_, rfl, rfl⟩
  have hr : ((imageUploads "nalang" twoPictures).guard FreshUuid).Run (.start oneUser) crossing s :=
    Lts.guard_run_of_checked (fun _ _ h => of_decide_eq_true h) hexec
  exact ⟨s, hr, himage, (image_is_latest_upload hr).1⟩

end Nalang.Profiles
