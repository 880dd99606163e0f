import Efdi.Alerts.CommunityTracks
import Efdi.Base.Runs

/-!
# Polls of the community feed

`publish_community` publishes the tracks of both kinds, an event for each uid that it has not
announced, and a tombstone for each uid that left the feed.  A failed fetch keeps the tracks of its
kind.  The uids that count as announced are those of the last poll in which both fetches
succeeded, whatever single fetches said since.

`Feed` carries the polls so far beside the state: for each kind the last fetch that succeeded, and
both kinds at the last complete poll.
-/

namespace Efdi.Alerts

open List Option PyDict

/-! ## One poll -/

/-- A value of `state["tracks"]`. -/
structure Shown where
  kind : Kind
  pfx : String
  track : CommunityTrack
deriving DecidableEq

/-- `community_state`. -/
structure CommunityState where
  tracks : PyDict String Shown
  seen : Option (List String)

/-- A poll: the clock, and what each fetch gave, which is nothing when it failed. -/
structure Poll where
  now : Rat
  fetched : Kind → Option PyJson

/-- What a poll sends.  The topic of a tombstone is read off the prefix and the track. -/
inductive Put where
  | track (pfx : String) (track : CommunityTrack)
  | event (uid : String) (ts : Rat) (lat lon : PyFloat) (about : About)
  | tombstone (uid : String) (ts : Rat) (pfx : String) (track : CommunityTrack)
deriving DecidableEq

def Put.eventUid? : Put → Option String
  | event uid .. => some uid
  | _ => none

def Put.tombstoneUid? : Put → Option String
  | tombstone uid .. => some uid
  | _ => none

/-- `COMMUNITY_REPORT_PREFIX` and `COMMUNITY_INCIDENT_PREFIX`. -/
def communityPrefix (topicRoot : String) : Kind → String
  | .report => topicRoot ++ "/air/dangausakis/community/unknown/uav"
  | .incident => topicRoot ++ "/land/dangausakis/incident/unknown/unit"

section

variable (py : PyBuiltins) (iso : Rat → String) (topicRoot : String)

/-- One round of the loop over `fetched`. -/
def addKind (state : CommunityState) (poll : Poll) (current : PyDict String Shown) (kind : Kind) :
    Except PyError (PyDict String Shown) :=
  match poll.fetched kind with
  | none => .ok (current.update (state.tracks.filter fun _ shown => decide (shown.kind = kind)))
  | some data =>
    (build py iso kind data poll.now).map fun tracks =>
      current.updateWith (⟨kind, communityPrefix topicRoot kind, ·⟩) tracks

/-- `current`. -/
def gather (state : CommunityState) (poll : Poll) : Except PyError (PyDict String Shown) := do
  let current ← addKind py iso topicRoot state poll .empty .report
  addKind py iso topicRoot state poll current .incident

/-- `state["seen"] is not None and uid not in state["seen"]`. -/
def CommunityState.isNew (state : CommunityState) (uid : String) : Bool :=
  match state.seen with
  | none => false
  | some seen => decide (uid ∉ seen)

/-- What is sent of an entry of `current`. -/
def announce (state : CommunityState) (now : Rat) (entry : String × Shown) : List Put :=
  let track := entry.2.track
  .track entry.2.pfx track ::
    if state.isNew entry.1 then
      [.event entry.1 now track.latDeg track.lonDeg track.about]
    else []

/-- The tombstones of a poll. -/
def retract (state : CommunityState) (now : Rat) (current : PyDict String Shown) : List Put :=
  (state.tracks.entries.filter fun entry => !current.contains entry.1).map fun entry =>
    .tombstone entry.1 now entry.2.pfx entry.2.track

/-- `all(data is not None for _, _, data, _ in fetched)`. -/
def Poll.complete (poll : Poll) : Bool :=
  (poll.fetched .report).isSome && (poll.fetched .incident).isSome

/-- `publish_community`.  A poll that raises does so before it sends anything. -/
def publishCommunity (state : CommunityState) (poll : Poll) :
    Except PyError (CommunityState × List Put) :=
  (gather py iso topicRoot state poll).map fun current =>
    ({ tracks := current, seen := if poll.complete then some current.keys else state.seen },
      current.entries.flatMap (announce state poll.now) ++ retract state poll.now current)

/-! ## Runs -/

/-- The uids that a fetch of a kind gave. -/
def Poll.uids (poll : Poll) (kind : Kind) : Option (List String) :=
  (poll.fetched kind).bind fun data => (build py iso kind data poll.now).toOption.map PyDict.keys

/-- The state of the bridge, the uids of each kind's last fetch that succeeded, and those of the
last poll in which both did. -/
structure Feed where
  state : CommunityState
  last : Kind → List String
  complete : Option (Kind → List String)

/-- `{"tracks": {}, "seen": None}`. -/
def Feed.start : Feed where
  state := { tracks := .empty, seen := none }
  last _ := []
  complete := none

/-- The last fetches after a poll. -/
def Feed.lastAfter (feed : Feed) (poll : Poll) (kind : Kind) : List String :=
  (poll.uids py iso kind).getD (feed.last kind)

def Feed.step (feed : Feed) (poll : Poll) : Feed :=
  match publishCommunity py iso topicRoot feed.state poll with
  | .error _ => feed
  | .ok (state, _) =>
    { state, last := feed.lastAfter py iso poll
      complete := if poll.complete then some (feed.lastAfter py iso poll) else feed.complete }

/-- Some uids have something sent for them, each once. -/
def SentFor (uid? : Put → Option String) (puts : List Put) (Due : String → Prop) : Prop :=
  (puts.filterMap uid?).Nodup ∧ ∀ uid, uid ∈ puts.filterMap uid? ↔ Due uid

/-- A fetch of its kind contains the uid, and the last one did not. -/
def Feed.IsNew (feed : Feed) (poll : Poll) (uid : String) : Prop :=
  ∃ kind uids, poll.uids py iso kind = some uids ∧ uid ∈ uids ∧ uid ∉ feed.last kind

/-- A fetch of its kind no longer contains the uid. -/
def Feed.HasLeft (feed : Feed) (poll : Poll) (uid : String) : Prop :=
  ∃ kind uids, poll.uids py iso kind = some uids ∧ uid ∉ uids ∧ uid ∈ feed.last kind

/-- What a poll should send. -/
def Feed.Announces (feed : Feed) (poll : Poll) : Prop :=
  match publishCommunity py iso topicRoot feed.state poll with
  | .error _ => True
  | .ok (_, puts) =>
    SentFor Put.tombstoneUid? puts (feed.HasLeft py iso poll) ∧
      (feed.complete.isSome → SentFor Put.eventUid? puts (feed.IsNew py iso poll))

/-- A fetch that the poll cannot read. -/
def Poll.Raises (poll : Poll) : Prop :=
  ∃ kind data raised, poll.fetched kind = some data ∧
    build py iso kind data poll.now = .error raised

/-- What the last complete poll said of the uids in question is what the last fetch of their kind
said: of those that a fetch gives now, and of those that a failed fetch keeps. -/
def Feed.InStep (feed : Feed) (poll : Poll) : Prop :=
  poll.Raises py iso ∨ ∀ complete, feed.complete = some complete → ∀ kind,
    match poll.uids py iso kind with
    | some uids => ∀ uid ∈ uids, uid ∈ complete kind ↔ uid ∈ feed.last kind
    | none => ∀ uid ∈ feed.last kind, uid ∈ complete kind

end

/-! ## The entries of a poll -/

section

variable {py : PyBuiltins} {iso : Rat → String} {topicRoot : String}

/-- An entry of the kind. -/
def Listed (tracks : PyDict String Shown) (kind : Kind) (uid : String) : Prop :=
  ∃ shown, tracks.get? uid = some shown ∧ shown.kind = kind

/-- The uids are those of their kinds. -/
def Headed (tracks : PyDict String Shown) : Prop :=
  ∀ kind uid, Listed tracks kind uid → PyStr.startsWith uid kind.uidHead = true

variable {tracks current after : PyDict String Shown} {uid : String} {kind : Kind} {poll : Poll}
  {state : CommunityState} {feed : Feed} {complete : Kind → List String}

theorem mem_keys_iff_listed :
    uid ∈ tracks.keys ↔ ∃ kind, Listed tracks kind uid := by
  rw [PyDict.mem_keys]
  constructor
  · rintro ⟨shown, hshown⟩
    exact ⟨shown.kind, shown, hshown, rfl⟩
  · rintro ⟨kind, shown, hshown, -⟩
    exact ⟨shown, hshown⟩

theorem listed_empty : ¬ Listed .empty kind uid := by
  rintro ⟨shown, hshown, -⟩
  cases hshown

/-- The entries of a kind after a poll. -/
def Poll.ListedAfter (py : PyBuiltins) (iso : Rat → String) (poll : Poll)
    (tracks : PyDict String Shown) (kind : Kind) (uid : String) : Prop :=
  match poll.uids py iso kind with
  | some uids => uid ∈ uids
  | none => Listed tracks kind uid

theorem uids_startsWith {uids : List String} (h : poll.uids py iso kind = some uids)
    (huid : uid ∈ uids) :
    PyStr.startsWith uid kind.uidHead = true := by
  obtain ⟨data, -, hdata⟩ := bind_eq_some_iff.mp h
  obtain ⟨tracks, htracks, rfl⟩ := map_eq_some_iff.mp hdata
  obtain ⟨value, hvalue⟩ := PyDict.mem_keys.mp huid
  cases hbuild : build py iso kind data poll.now with
  | error raised =>
    rw [hbuild] at htracks
    cases htracks
  | ok built =>
    rw [hbuild] at htracks
    obtain rfl := some.inj htracks
    exact build_uids hbuild uid (contains_of_get? hvalue)

theorem ListedAfter.startsWith (hheaded : Headed tracks)
    (h : poll.ListedAfter py iso tracks kind uid) :
    PyStr.startsWith uid kind.uidHead = true := by
  rw [Poll.ListedAfter] at h
  split at h
  next uids huids => exact uids_startsWith huids h
  next _ => exact hheaded kind uid h

/-- Entries of one kind are laid over those of the other. -/
theorem listed_of_or {added : String → Option Shown}
    (hafter : ∀ uid, after.get? uid = (added uid).or (current.get? uid))
    (hadded : ∀ uid shown, added uid = some shown →
      shown.kind = kind ∧ PyStr.startsWith uid kind.uidHead = true) (hcurrent : Headed current)
    (hother : ∀ uid, ¬ Listed current kind uid) (k : Kind) (uid : String) :
    Listed after k uid ↔ if k = kind then (added uid).isSome = true else Listed current k uid := by
  cases hfound : added uid with
  | none =>
    have hget : after.get? uid = current.get? uid := by rw [hafter, hfound, none_or]
    have hsame : Listed after k uid ↔ Listed current k uid := by rw [Listed, hget, Listed]
    rw [hsame]
    split
    next hk =>
      rw [hk]
      exact iff_of_false (hother uid) Bool.false_ne_true
    next _ => exact Iff.rfl
  | some shown =>
    obtain ⟨hkind, hhead⟩ := hadded uid shown hfound
    have hget : after.get? uid = some shown := by rw [hafter, hfound, some_or]
    have hsame : Listed after k uid ↔ k = kind := by
      rw [Listed, hget]
      constructor
      · rintro ⟨other, hother', rfl⟩
        rw [← some.inj hother', hkind]
      · rintro rfl
        exact ⟨shown, rfl, hkind⟩
    rw [hsame]
    split
    next hk => exact iff_of_true hk rfl
    next hk =>
      refine iff_of_false hk fun hlisted => hk ?_
      exact uidHead_disjoint (hcurrent k uid hlisted) hhead

theorem uids_eq_none (h : poll.fetched kind = none) :
    poll.uids py iso kind = none := by
  rw [Poll.uids, h, bind_none]

theorem uids_eq_some {data : PyJson} {tracks : PyDict String CommunityTrack}
    (h : poll.fetched kind = some data) (hbuild : build py iso kind data poll.now = .ok tracks) :
    poll.uids py iso kind = some tracks.keys := by
  rw [Poll.uids, h, bind_some, hbuild]
  rfl

/-- A round of the loop lists the uids of its kind and leaves those of the other. -/
theorem listed_addKind (hheaded : Headed state.tracks) (hcurrent : Headed current)
    (hother : ∀ uid, ¬ Listed current kind uid)
    (h : addKind py iso topicRoot state poll current kind = .ok after) (k : Kind) (uid : String) :
    Listed after k uid ↔
      if k = kind then poll.ListedAfter py iso state.tracks kind uid else Listed current k uid := by
  rw [addKind] at h
  cases hdata : poll.fetched kind with
  | none =>
    rw [hdata] at h
    obtain rfl := Except.ok.inj h
    have hkept : ∀ uid shown,
        (state.tracks.filter fun _ shown => decide (shown.kind = kind)).get? uid = some shown ↔
          state.tracks.get? uid = some shown ∧ shown.kind = kind := by
      intro uid shown
      rw [get?_filter, filter_eq_some_iff, decide_eq_true_iff]
    rw [listed_of_or (get?_update _ _) ?_ hcurrent hother, Poll.ListedAfter,
      uids_eq_none hdata]
    · simp only [isSome_iff_exists, hkept]
      rfl
    · intro uid shown hshown
      obtain ⟨hget, hkind⟩ := (hkept uid shown).mp hshown
      exact ⟨hkind, hheaded kind uid ⟨shown, hget, hkind⟩⟩
  | some data =>
    rw [hdata] at h
    dsimp only at h
    cases hbuild : build py iso kind data poll.now with
    | error raised =>
      rw [hbuild] at h
      cases h
    | ok tracks =>
      rw [hbuild] at h
      obtain rfl := Except.ok.inj h
      rw [listed_of_or (get?_updateWith _ _ _) ?_ hcurrent hother, Poll.ListedAfter,
        uids_eq_some hdata hbuild]
      · simp only [isSome_map, PyDict.mem_keys, isSome_iff_exists]
      · intro uid shown hshown
        obtain ⟨track, htrack, rfl⟩ := map_eq_some_iff.mp hshown
        exact ⟨rfl, build_uids hbuild uid (contains_of_get? htrack)⟩

theorem headed_addKind (hheaded : Headed state.tracks) (hcurrent : Headed current)
    (hother : ∀ uid, ¬ Listed current kind uid)
    (h : addKind py iso topicRoot state poll current kind = .ok after) : Headed after := by
  intro k uid hlisted
  rw [listed_addKind hheaded hcurrent hother h] at hlisted
  split at hlisted
  next hk =>
    rw [hk]
    exact ListedAfter.startsWith hheaded hlisted
  next _ => exact hcurrent k uid hlisted

/-- The entries after a poll are those of a fetch, and of a failed one those before. -/
theorem listed_gather (hheaded : Headed state.tracks)
    (h : gather py iso topicRoot state poll = .ok current) (kind : Kind) (uid : String) :
    Listed current kind uid ↔ poll.ListedAfter py iso state.tracks kind uid := by
  obtain ⟨reports, hreports, h⟩ := PyError.bind_eq_ok h
  have hstart : Headed .empty := fun k uid hlisted => absurd hlisted listed_empty
  have hfirst := listed_addKind hheaded hstart (fun _ => listed_empty) hreports
  have hincidents : ∀ uid, ¬ Listed reports .incident uid := by
    intro uid hlisted
    rw [hfirst, if_neg (by decide)] at hlisted
    exact listed_empty hlisted
  rw [listed_addKind hheaded (headed_addKind hheaded hstart (fun _ => listed_empty) hreports)
    hincidents h, hfirst]
  cases kind with
  | report => rw [if_neg (by decide), if_pos rfl]
  | incident => rw [if_pos rfl]

theorem headed_gather (hheaded : Headed state.tracks)
    (h : gather py iso topicRoot state poll = .ok current) :
    Headed current := by
  intro kind uid hlisted
  exact ListedAfter.startsWith hheaded ((listed_gather hheaded h kind uid).mp hlisted)

/-! ## What is sent -/

theorem addKind_eq_error_iff (topicRoot : String) (state : CommunityState)
    (current : PyDict String Shown) :
    (∃ raised, addKind py iso topicRoot state poll current kind = .error raised) ↔
      ∃ data raised, poll.fetched kind = some data ∧
        build py iso kind data poll.now = .error raised := by
  rw [addKind]
  cases poll.fetched kind with
  | none => simp
  | some data =>
    cases hbuild : build py iso kind data poll.now with
    | error raised =>
      refine iff_of_true ⟨raised, ?_⟩ ⟨data, raised, rfl, hbuild⟩
      dsimp only
      rw [hbuild]
      rfl
    | ok tracks =>
      refine iff_of_false ?_ ?_
      · rintro ⟨raised, hraised⟩
        dsimp only at hraised
        rw [hbuild] at hraised
        cases hraised
      · rintro ⟨other, raised, hdata, hraised⟩
        obtain rfl := some.inj hdata
        cases hbuild.symm.trans hraised

/-- A poll raises when it cannot read a fetch. -/
theorem gather_eq_error_iff (topicRoot : String) (state : CommunityState) :
    (∃ raised, gather py iso topicRoot state poll = .error raised) ↔ poll.Raises py iso := by
  rw [gather]
  cases hreports : addKind py iso topicRoot state poll .empty .report with
  | error raised =>
    obtain ⟨data, raised', hdata, hbuild⟩ := (addKind_eq_error_iff _ _ _).mp ⟨raised, hreports⟩
    exact iff_of_true ⟨raised, rfl⟩ ⟨.report, data, raised', hdata, hbuild⟩
  | ok current =>
    have hread : ¬ ∃ data raised, poll.fetched .report = some data ∧
        build py iso .report data poll.now = .error raised := by
      rw [← addKind_eq_error_iff topicRoot state .empty, hreports]
      rintro ⟨raised, hraised⟩
      cases hraised
    show (∃ raised, addKind py iso topicRoot state poll current .incident = .error raised) ↔ _
    rw [addKind_eq_error_iff]
    constructor
    · exact fun h => ⟨.incident, h⟩
    · rintro ⟨kind, h⟩
      cases kind with
      | report => exact absurd h hread
      | incident => exact h

theorem CommunityState.isNew_iff (state : CommunityState) :
    state.isNew uid = true ↔ ∃ seen, state.seen = some seen ∧ uid ∉ seen := by
  rw [CommunityState.isNew]
  cases state.seen with
  | none => simp
  | some seen => simp

theorem filterMap_announce_event (state : CommunityState) (now : Rat) :
    ∀ entries : List (String × Shown),
      (entries.flatMap (announce state now)).filterMap Put.eventUid? =
        (entries.filter fun entry => state.isNew entry.1).map Prod.fst
  | [] => rfl
  | entry :: entries => by
    rw [flatMap_cons, filterMap_append, filterMap_announce_event state now entries,
      announce]
    by_cases hnew : state.isNew entry.1 = true
    · rw [if_pos hnew, filter_cons, if_pos hnew]
      rfl
    · rw [if_neg hnew, filter_cons, if_neg hnew]
      rfl

theorem filterMap_announce_tombstone (state : CommunityState) (now : Rat)
    (entries : List (String × Shown)) :
    (entries.flatMap (announce state now)).filterMap Put.tombstoneUid? = [] := by
  rw [filterMap_eq_nil_iff]
  intro put hput
  obtain ⟨entry, -, hput⟩ := mem_flatMap.mp hput
  rw [announce, mem_cons] at hput
  rcases hput with rfl | hput
  · rfl
  · split at hput
    next _ =>
      rw [mem_singleton] at hput
      rw [hput]
      rfl
    next _ => cases hput

theorem filterMap_retract_event (state : CommunityState) (now : Rat)
    (current : PyDict String Shown) :
    (retract state now current).filterMap Put.eventUid? = [] := by
  rw [retract, filterMap_map]
  exact filterMap_eq_nil_iff.mpr fun _ _ => rfl

theorem filterMap_retract_tombstone (state : CommunityState) (now : Rat)
    (current : PyDict String Shown) :
    (retract state now current).filterMap Put.tombstoneUid? =
      (state.tracks.entries.filter fun entry => !current.contains entry.1).map Prod.fst := by
  rw [retract, filterMap_map]
  exact congrFun filterMap_eq_map' _

theorem nodup_filter_keys (p : String × Shown → Bool) :
    ((tracks.entries.filter p).map Prod.fst).Nodup :=
  tracks.nodup.sublist (filter_sublist.map Prod.fst)

theorem mem_filter_keys {p : String → Bool} :
    uid ∈ (tracks.entries.filter fun entry => p entry.1).map Prod.fst ↔
      (∃ kind, Listed tracks kind uid) ∧ p uid = true := by
  rw [← mem_keys_iff_listed, PyDict.keys, List.mem_map, List.mem_map]
  constructor
  · rintro ⟨entry, hentry, rfl⟩
    obtain ⟨hmem, hp⟩ := List.mem_filter.mp hentry
    exact ⟨⟨entry, hmem, rfl⟩, hp⟩
  · rintro ⟨⟨entry, hmem, rfl⟩, hp⟩
    exact ⟨entry, List.mem_filter.mpr ⟨hmem, hp⟩, rfl⟩

/-- The events and the tombstones of a poll that does not raise. -/
structure Sends (state : CommunityState) (current : PyDict String Shown) (puts : List Put) :
    Prop where
  events : SentFor Put.eventUid? puts fun uid =>
    (∃ kind, Listed current kind uid) ∧ ∃ seen, state.seen = some seen ∧ uid ∉ seen
  tombstones : SentFor Put.tombstoneUid? puts fun uid =>
    (∃ kind, Listed state.tracks kind uid) ∧ ¬ ∃ kind, Listed current kind uid

theorem sends (state : CommunityState) (now : Rat) (current : PyDict String Shown) :
    Sends state current
      (current.entries.flatMap (announce state now) ++ retract state now current) where
  events := by
    rw [SentFor, List.filterMap_append, filterMap_announce_event, filterMap_retract_event,
      List.append_nil]
    refine ⟨nodup_filter_keys _, fun uid => ?_⟩
    rw [mem_filter_keys (p := state.isNew), state.isNew_iff]
  tombstones := by
    rw [SentFor, List.filterMap_append, filterMap_announce_tombstone, filterMap_retract_tombstone,
      List.nil_append]
    refine ⟨nodup_filter_keys _, fun uid => ?_⟩
    have hgone : (!current.contains uid) = true ↔ ¬ ∃ kind, Listed current kind uid := by
      rw [← mem_keys_iff_listed, PyDict.keys, ← PyDict.contains_iff, Bool.not_eq_true',
        Bool.not_eq_true]
    rw [mem_filter_keys (p := fun uid => !current.contains uid), hgone]

/-! ## Along a run -/

/-- The announced uids are those of the last complete poll. -/
def Agree : Option (List String) → Option (Kind → List String) → Prop
  | none, none => True
  | some seen, some complete => ∀ uid, uid ∈ seen ↔ ∃ kind, uid ∈ complete kind
  | _, _ => False

/-- What the state holds of the polls so far. -/
structure Feed.Kept (feed : Feed) : Prop where
  headed : Headed feed.state.tracks
  last : ∀ kind uid, uid ∈ feed.last kind ↔ Listed feed.state.tracks kind uid
  seen : Agree feed.state.seen feed.complete
  complete : ∀ complete, feed.complete = some complete →
    ∀ kind, ∀ uid ∈ complete kind, PyStr.startsWith uid kind.uidHead = true

theorem Feed.kept_start : Feed.start.Kept where
  headed := fun _ _ hlisted => absurd hlisted listed_empty
  last := fun _ _ => iff_of_false not_mem_nil listed_empty
  seen := trivial
  complete := by
    intro complete h
    cases h

theorem Feed.Kept.mem_lastAfter (h : feed.Kept) (poll : Poll) (kind : Kind) (uid : String) :
    uid ∈ feed.lastAfter py iso poll kind ↔
      poll.ListedAfter py iso feed.state.tracks kind uid := by
  rw [Feed.lastAfter, Poll.ListedAfter]
  cases poll.uids py iso kind with
  | none => exact h.last kind uid
  | some uids => exact Iff.rfl

/-- A uid is of one kind. -/
theorem exists_kind_iff {P : Kind → Prop} (hhead : PyStr.startsWith uid kind.uidHead = true)
    (hP : ∀ k, P k → PyStr.startsWith uid k.uidHead = true) : (∃ k, P k) ↔ P kind := by
  constructor
  · rintro ⟨k, hk⟩
    rwa [uidHead_disjoint hhead (hP k hk)]
  · exact fun h => ⟨kind, h⟩

theorem publishCommunity_eq_ok {after : CommunityState} {puts : List Put}
    (h : publishCommunity py iso topicRoot state poll = .ok (after, puts)) :
    ∃ current, gather py iso topicRoot state poll = .ok current ∧ Sends state current puts ∧
      after = { tracks := current
                seen := if poll.complete then some current.keys else state.seen } := by
  rw [publishCommunity] at h
  cases hgather : gather py iso topicRoot state poll with
  | error raised =>
    rw [hgather] at h
    cases h
  | ok current =>
    rw [hgather] at h
    obtain ⟨rfl, rfl⟩ := Prod.mk.inj (Except.ok.inj h)
    exact ⟨current, rfl, sends state poll.now current, rfl⟩

theorem Feed.Kept.step {feed : Feed} (h : feed.Kept) (poll : Poll) :
    (feed.step py iso topicRoot poll).Kept := by
  rw [Feed.step]
  cases hpublish : publishCommunity py iso topicRoot feed.state poll with
  | error raised => exact h
  | ok sent =>
    obtain ⟨after, puts⟩ := sent
    obtain ⟨current, hgather, -, rfl⟩ := publishCommunity_eq_ok hpublish
    have hheaded := headed_gather h.headed hgather
    have hlast : ∀ kind uid, uid ∈ feed.lastAfter py iso poll kind ↔ Listed current kind uid := by
      intro kind uid
      rw [h.mem_lastAfter, listed_gather h.headed hgather]
    by_cases hcomplete : poll.complete = true
    · rw [if_pos hcomplete, if_pos hcomplete]
      refine ⟨hheaded, hlast, fun uid => ?_, ?_⟩
      · exact mem_keys_iff_listed.trans (exists_congr fun kind => (hlast kind uid).symm)
      · intro complete hsame kind uid huid
        cases hsame
        exact hheaded kind uid ((hlast kind uid).mp huid)
    · rw [if_neg hcomplete, if_neg hcomplete]
      exact ⟨hheaded, hlast, h.seen, h.complete⟩

theorem SentFor.congr_iff {uid? : Put → Option String} {puts : List Put} {Due Other : String → Prop}
    (h : SentFor uid? puts Due) : SentFor uid? puts Other ↔ ∀ uid, Due uid ↔ Other uid := by
  constructor
  · intro hother uid
    rw [← h.2, hother.2]
  · intro hsame
    exact ⟨h.1, fun uid => (h.2 uid).trans (hsame uid)⟩

/-- A tombstone is sent for what has left. -/
theorem Feed.Kept.hasLeft_iff (h : feed.Kept)
    (hgather : gather py iso topicRoot feed.state poll = .ok current) (uid : String) :
    ((∃ kind, Listed feed.state.tracks kind uid) ∧ ¬ ∃ kind, Listed current kind uid) ↔
      feed.HasLeft py iso poll uid := by
  rw [Feed.HasLeft]
  constructor
  · rintro ⟨⟨kind, hlisted⟩, hgone⟩
    have hnow : ¬ poll.ListedAfter py iso feed.state.tracks kind uid := fun hnow =>
      hgone ⟨kind, (listed_gather h.headed hgather kind uid).mpr hnow⟩
    rw [Poll.ListedAfter] at hnow
    cases huids : poll.uids py iso kind with
    | none =>
      rw [huids] at hnow
      exact absurd hlisted hnow
    | some uids =>
      rw [huids] at hnow
      exact ⟨kind, uids, huids, hnow, (h.last kind uid).mpr hlisted⟩
  · rintro ⟨kind, uids, huids, hmissing, hlast⟩
    have hlisted := (h.last kind uid).mp hlast
    have hhead := h.headed kind uid hlisted
    refine ⟨⟨kind, hlisted⟩, ?_⟩
    rw [exists_kind_iff hhead (fun k hk => headed_gather h.headed hgather k uid hk),
      listed_gather h.headed hgather, Poll.ListedAfter, huids]
    exact hmissing

/-- An event is sent for a uid that the last complete poll did not have, and one is due for a uid
that the last fetch of its kind did not have. -/
theorem Feed.Kept.isNew_iff (h : feed.Kept)
    (hgather : gather py iso topicRoot feed.state poll = .ok current)
    (hcomplete : feed.complete = some complete) {seen : List String}
    (hseen : feed.state.seen = some seen) (hhead : PyStr.startsWith uid kind.uidHead = true) :
    (((∃ kind, Listed current kind uid) ∧ ∃ seen, feed.state.seen = some seen ∧ uid ∉ seen) ↔
        poll.ListedAfter py iso feed.state.tracks kind uid ∧ uid ∉ complete kind) ∧
      (feed.IsNew py iso poll uid ↔
        ∃ uids, poll.uids py iso kind = some uids ∧ uid ∈ uids ∧ uid ∉ feed.last kind) := by
  have hagree := h.seen
  rw [hcomplete, hseen] at hagree
  constructor
  · have hannounced : (∃ seen, feed.state.seen = some seen ∧ uid ∉ seen) ↔ uid ∉ complete kind := by
      rw [hseen, ← exists_kind_iff hhead (fun k hk => h.complete complete hcomplete k uid hk),
        ← hagree]
      simp
    rw [hannounced, exists_kind_iff hhead (fun k hk => headed_gather h.headed hgather k uid hk),
      listed_gather h.headed hgather]
  · exact exists_kind_iff hhead fun k hk => by
      obtain ⟨uids, huids, hmem, -⟩ := hk
      exact uids_startsWith huids hmem

/-- What is sent is what is due when the two histories agree on every uid in question. -/
theorem Feed.Kept.events_iff (h : feed.Kept)
    (hgather : gather py iso topicRoot feed.state poll = .ok current)
    (hcomplete : feed.complete = some complete) {seen : List String}
    (hseen : feed.state.seen = some seen) :
    (∀ uid, ((∃ kind, Listed current kind uid) ∧
        ∃ seen, feed.state.seen = some seen ∧ uid ∉ seen) ↔ feed.IsNew py iso poll uid) ↔
      ∀ kind, match poll.uids py iso kind with
        | some uids => ∀ uid ∈ uids, uid ∈ complete kind ↔ uid ∈ feed.last kind
        | none => ∀ uid ∈ feed.last kind, uid ∈ complete kind := by
  constructor
  · intro hevents kind
    cases huids : poll.uids py iso kind with
    | none =>
      intro uid hlast
      by_contra hmissing
      have hlisted := (h.last kind uid).mp hlast
      obtain ⟨hsent, hdue⟩ := h.isNew_iff hgather hcomplete hseen (h.headed kind uid hlisted)
      have heither := hevents uid
      rw [hsent, hdue, Poll.ListedAfter, huids] at heither
      obtain ⟨uids, hnone, -⟩ := heither.mp ⟨hlisted, hmissing⟩
      cases hnone
    | some uids =>
      intro uid huid
      obtain ⟨hsent, hdue⟩ := h.isNew_iff hgather hcomplete hseen (uids_startsWith huids huid)
      have heither := hevents uid
      rw [hsent, hdue, Poll.ListedAfter, huids] at heither
      refine not_iff_not.mp ⟨fun hmissing => ?_, fun hmissing => ?_⟩
      · obtain ⟨_, -, -, hnew⟩ := heither.mp ⟨huid, hmissing⟩
        exact hnew
      · exact (heither.mpr ⟨uids, rfl, huid, hmissing⟩).2
  · intro hstep uid
    by_cases hkind : ∃ kind : Kind, PyStr.startsWith uid kind.uidHead = true
    · obtain ⟨kind, hhead⟩ := hkind
      have hof := hstep kind
      obtain ⟨hsent, hdue⟩ := h.isNew_iff hgather hcomplete hseen hhead
      rw [hsent, hdue, Poll.ListedAfter]
      cases huids : poll.uids py iso kind with
      | none =>
        rw [huids] at hof
        refine iff_of_false ?_ ?_
        · rintro ⟨hlisted, hmissing⟩
          exact hmissing (hof uid ((h.last kind uid).mpr hlisted))
        · rintro ⟨uids, hnone, -⟩
          cases hnone
      | some uids =>
        rw [huids] at hof
        constructor
        · rintro ⟨huid, hmissing⟩
          exact ⟨uids, rfl, huid, fun hlast => hmissing ((hof uid huid).mpr hlast)⟩
        · rintro ⟨_, hsame, huid, hnew⟩
          obtain rfl := some.inj hsame
          exact ⟨huid, fun hmem => hnew ((hof uid huid).mp hmem)⟩
    · refine iff_of_false ?_ ?_
      · rintro ⟨⟨kind, hlisted⟩, -⟩
        exact hkind ⟨kind, headed_gather h.headed hgather kind uid hlisted⟩
      · rintro ⟨kind, uids, huids, huid, -⟩
        exact hkind ⟨kind, uids_startsWith huids huid⟩

theorem Feed.Kept.exists_seen (h : feed.Kept) (hcomplete : feed.complete = some complete) :
    ∃ seen, feed.state.seen = some seen := by
  have hagree := h.seen
  rw [hcomplete] at hagree
  cases hseen : feed.state.seen with
  | none =>
    rw [hseen] at hagree
    exact hagree.elim
  | some seen => exact ⟨seen, rfl⟩

/-- A poll sends what it should when the last complete poll and the last fetches agree. -/
theorem Feed.Kept.announces_iff (h : feed.Kept) (poll : Poll) :
    feed.Announces py iso topicRoot poll ↔ feed.InStep py iso poll := by
  rw [Feed.Announces, Feed.InStep, ← gather_eq_error_iff topicRoot feed.state]
  cases hgather : gather py iso topicRoot feed.state poll with
  | error raised =>
    have hpublish : publishCommunity py iso topicRoot feed.state poll = .error raised := by
      rw [publishCommunity, hgather]
      rfl
    rw [hpublish]
    exact iff_of_true trivial (Or.inl ⟨raised, rfl⟩)
  | ok current =>
    obtain ⟨⟨after, puts⟩, hpublish⟩ : ∃ sent,
        publishCommunity py iso topicRoot feed.state poll = .ok sent := by
      rw [publishCommunity, hgather]
      exact ⟨_, rfl⟩
    obtain ⟨current', hgather', hsends, -⟩ := publishCommunity_eq_ok hpublish
    obtain rfl := Except.ok.inj (hgather.symm.trans hgather')
    have hreads : ¬ ∃ raised, (Except.ok current : Except PyError _) = .error raised := by
      rintro ⟨raised, hraised⟩
      cases hraised
    rw [hpublish, or_iff_right hreads]
    dsimp only
    rw [and_iff_right (hsends.tombstones.congr_iff.mpr (h.hasLeft_iff hgather))]
    cases hcomplete : feed.complete with
    | none => exact iff_of_true (fun h => absurd h Bool.false_ne_true) (fun _ h => nomatch h)
    | some complete =>
      obtain ⟨seen, hseen⟩ := h.exists_seen hcomplete
      have hevents := hsends.events.congr_iff.trans (h.events_iff hgather hcomplete hseen)
      constructor
      · rintro hsent _ ⟨⟩
        exact hevents.mp (hsent rfl)
      · intro hstep _
        exact hevents.mpr (hstep complete rfl)

/-- Over any polls, each sends one event for what is new and one tombstone for what has left when,
at each, the last complete poll and the last fetches agree on the uids in question. -/
theorem announces_iff_inStep (polls : List Poll) :
    Runs.Guarded (Feed.step py iso topicRoot) (Feed.Announces py iso topicRoot) .start polls ↔
      Runs.Guarded (Feed.step py iso topicRoot) (Feed.InStep py iso) .start polls :=
  Runs.guarded_congr (P := Feed.Kept) (fun _ poll h => ⟨h.step poll, h.announces_iff poll⟩)
    Feed.kept_start

end

/-! ## A report that is announced twice -/

section

def someReport : PyJson := .dict
  [("id", .str "0123456789abcdef0123456789abcdef"), ("latitude", .int 55), ("longitude", .int 25),
    ("expiresAt", .str "2026-01-01T00:20:00Z")]

/-- A poll that reads both feeds, without a report. -/
def quietPoll : Poll where
  now := 1767225600
  fetched _ := some (.dict [])

/-- A poll that reads the reports only. -/
def reportPoll : Poll where
  now := 1767225630
  fetched
    | .report => some (.dict [("reports", .list [someReport])])
    | .incident => none

def someIso : Rat → String := fun _ => "2026-01-01T00:20:00Z"

/-- Both polls that read the report announce it. -/
theorem report_announced_again :
    ¬ Runs.Guarded (Feed.step .plain someIso "lt") (Feed.Announces .plain someIso "lt")
      .start [quietPoll, reportPoll, reportPoll] := by
  rintro ⟨-, -, hthird, -⟩
  have hsent := ((hthird.2 rfl).2 "DA-REPORT-0123456789abcdef").mp List.mem_cons_self
  obtain ⟨kind, uids, huids, -, hnew⟩ := hsent
  cases kind with
  | report => exact hnew List.mem_cons_self
  | incident => cases huids

end

end Efdi.Alerts
