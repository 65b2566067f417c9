import Helix.ScanRecovery
import Mathlib.Data.List.Infix

/-!
The index of the scanner over whole runs. Its entries are filed under a user and an
asset, while the vault has one position for a user: a run keeps one entry for a
user, the one fetched last, as long as no event files a position under another
asset than the one that the index has for its user (`one_position_iff`). In a vault
with one asset that the scanner learns first, none does (`single_asset_files`).
-/
namespace Helix.Bot
open Process
open Vault (Position)

/-! ### What an event does to the index -/

/-- The name of an event and the user it is about. -/
def event_user (event : Event) : Option (String × String) :=
  match event.topic with
  | .symbol name :: _ =>
    match user_topic name event.topic with
    | some (.address user) => some (name, user)
    | _ => none
  | _ => none

/-- The asset that the position of a user is filed under. -/
def filed_asset (event_name user : String) (event : Event) (state : ScannerState) : Option String :=
  if event_name = "deposit" then
    match event.value with
    | .vec (.address asset :: _) => some asset
    | _ => none
  else some (((state.user_assets.get user).or state.primary_asset).getD PRIMARY_ASSET_PLACEHOLDER)

/-- The scanner fetches the position of a user: the event is new and names the user
    and an asset to file it under, and the vault tells it. -/
structure Fetches (config : Config) (rpc : Rpc) (event : Event) (state : ScannerState) (user asset : String)
    (position : Option Position) : Prop where
  new : event.id ∉ state.seen_event_ids
  names : ∃ name, event_user event = some (name, user) ∧ filed_asset name user event state = some asset
  told : rpc.get_position event config.vault_contract_id user = some position

/-- What becomes of an event with a position that was fetched. -/
def taken (event : Event) (user asset : String) : Option Position → Handling
  | some position => .updated ⟨⟨user,asset⟩,position,event.ledger⟩
  | none => .removed user

/-- Nothing was fetched. -/
def Handling.Idle : Handling → Prop
  | .seen | .untitled | .nameless => True
  | .updated _ | .removed _ => False

/-- The index after an event that was handled so. -/
def indexed (positions : List TrackedPosition) : Except ScanError Handling → List TrackedPosition
  | .ok (.updated tracked) => positions.filter (fun other => other.key ≠ tracked.key) ++ [tracked]
  | .ok (.removed user) => positions.filter (fun tracked => tracked.key.user ≠ user)
  | _ => positions

/-- A program leaves the index that its result tells. -/
def Indexes (x : Scanning Handling) : Prop := ∀ s, (x s).2.positions = indexed s.positions (x s).1

theorem Indexes.bind {α : Type} {x : Scanning α} {f : α → Scanning Handling}
    (first : Keeps (fun state : ScannerState => state.positions) x) (later : ∀ a, Indexes (f a)) : Indexes (x >>= f) := by
  intro s
  have kept := first s
  rcases ran : x s with ⟨result,u⟩
  rw [ran] at kept
  cases result with
  | error e =>
    have stopped : (x >>= f) s = (.error e, u) := by simp only [Bind.bind,ran]
    rw [stopped]
    exact kept
  | ok a =>
    have went : (x >>= f) s = f a u := by simp only [Bind.bind,ran]
    rw [went,later a u]
    exact congrArg (fun positions => indexed positions (f a u).1) kept

section Events
variable {config : Config} {rpc : Rpc} {event : Event} {event_name user asset : String} {s t : ScannerState}
  {handling : Handling} {position : Option Position}

theorem track_indexes : Indexes (track config rpc event event_name user) := by
  refine Indexes.bind (event_asset_keeps fun _ _ => rfl) (fun asset => Indexes.bind Keeps.expect (fun position => ?_))
  intro s
  cases position with
  | some position => rfl
  | none => rfl

/-- An event changes the index as its handling tells. -/
theorem scan_event_indexes : Indexes (scan_event config rpc event) := by
  refine Indexes.bind Keeps.look (fun seen => ?_)
  split
  · exact fun s => rfl
  · refine Indexes.bind (Keeps.change fun _ => rfl) (fun _ => ?_)
    split
    · exact fun s => rfl
    · refine Indexes.bind parse_event_name_keeps (fun event_name => ?_)
      split
      · exact fun s => rfl
      · exact Indexes.bind parse_address_keeps (fun user => track_indexes)

/-- The asset of an event is the one its position is filed under. -/
theorem event_asset_iff : (∃ t, event_asset event_name user event s = (.ok asset, t)) ↔
    filed_asset event_name user event s = some asset := by
  unfold event_asset filed_asset
  by_cases deposit : event_name = "deposit"
  · simp only [if_pos deposit,bind_ok,parse_vec_ok,expect_ok,parse_address_ok,change_ok,pure_ok]
    constructor
    · rintro ⟨_,values,_,⟨body,rfl⟩,first,_,⟨head,rfl⟩,_,_,⟨rfl,rfl⟩,_,_,rfl,rfl,_⟩
      cases values with
      | nil => cases head
      | cons value rest =>
        cases head
        rw [body]
    · intro filed
      split at filed
      · rename_i text rest body
        cases filed
        exact ⟨_,_,_,⟨body,rfl⟩,_,_,⟨rfl,rfl⟩,_,_,⟨rfl,rfl⟩,(),_,rfl,rfl,rfl⟩
      · cases filed
  · simp only [if_neg deposit,look_ok,Option.some.injEq,exists_eq_right']

theorem track_iff : (∃ t, track config rpc event event_name user s = (.ok handling, t)) ↔
    ∃ asset position, filed_asset event_name user event s = some asset ∧
      rpc.get_position event config.vault_contract_id user = some position ∧ handling = taken event user asset position := by
  simp only [track,bind_ok,expect_ok]
  constructor
  · rintro ⟨t,asset,u,found,position,_,⟨told,rfl⟩,ran⟩
    refine ⟨asset,position,event_asset_iff.mp ⟨_,found⟩,told,?_⟩
    cases position with
    | none =>
      simp only [bind_ok,change_ok,pure_ok] at ran
      obtain ⟨_,_,_,_,_,_,rfl,_⟩ := ran
      rfl
    | some position =>
      simp only [bind_ok,change_ok,pure_ok] at ran
      obtain ⟨_,_,_,_,_,_,rfl,_⟩ := ran
      rfl
  · rintro ⟨asset,position,filed,told,rfl⟩
    obtain ⟨u,found⟩ := event_asset_iff.mpr filed
    cases position with
    | none =>
      refine ⟨{ u.remove_user user with last_seen_ledger := some event.ledger },asset,u,found,none,u,⟨told,rfl⟩,?_⟩
      simp only [bind_ok,change_ok,pure_ok]
      exact ⟨(),_,rfl,(),_,rfl,rfl,rfl⟩
    | some position =>
      refine ⟨{ u.insert ⟨⟨user,asset⟩,position,event.ledger⟩ with last_seen_ledger := some event.ledger },asset,u,found,
        some position,u,⟨told,rfl⟩,?_⟩
      simp only [bind_ok,change_ok,pure_ok]
      exact ⟨(),_,rfl,(),_,rfl,rfl,rfl⟩

theorem event_user_some {name : String} : event_user event = some (name, user) ↔
    ∃ rest, event.topic = .symbol name :: rest ∧ user_topic name event.topic = some (.address user) := by
  unfold event_user
  constructor
  · intro names
    split at names
    · rename_i name' rest topic
      split at names
      · rename_i user' named
        cases names
        exact ⟨rest,topic,named⟩
      · cases names
    · cases names
  · rintro ⟨rest,topic,named⟩
    simp only [topic] at named ⊢
    simp only [named]

theorem handle_iff (busy : ¬ handling.Idle) : (∃ t, handle config rpc event s = (.ok handling, t)) ↔
    ∃ name user, event_user event = some (name, user) ∧
      ∃ t, track config rpc event name user s = (.ok handling, t) := by
  unfold handle
  constructor
  · rintro ⟨t,ran⟩
    cases topic : event.topic with
    | nil =>
      simp only [topic,pure_ok] at ran
      rw [← ran.1] at busy
      exact absurd trivial busy
    | cons first rest =>
      simp only [topic,bind_ok] at ran
      obtain ⟨name,_,parsed,ran⟩ := ran
      obtain ⟨rfl,rfl⟩ := parse_event_name_ok.mp parsed
      cases named : user_topic name (.symbol name :: rest) with
      | none =>
        simp only [named,pure_ok] at ran
        rw [← ran.1] at busy
        exact absurd trivial busy
      | some value =>
        simp only [named,bind_ok] at ran
        obtain ⟨user,_,parsed,ran⟩ := ran
        obtain ⟨rfl,rfl⟩ := parse_address_ok.mp parsed
        exact ⟨name,user,event_user_some.mpr ⟨rest,topic,topic ▸ named⟩,t,ran⟩
  · rintro ⟨name,user,names,t,ran⟩
    obtain ⟨rest,topic,named⟩ := event_user_some.mp names
    rw [topic] at named
    refine ⟨t,?_⟩
    simp only [topic,bind_ok]
    refine ⟨name,s,parse_event_name_ok.mpr ⟨rfl,rfl⟩,?_⟩
    simp only [named,bind_ok]
    exact ⟨user,s,parse_address_ok.mpr ⟨rfl,rfl⟩,ran⟩

/-- What is handled otherwise than by passing it over is what a position was fetched
    for. -/
theorem fetches_iff (busy : ¬ handling.Idle) : (∃ t, scan_event config rpc event s = (.ok handling, t)) ↔
    ∃ user asset position, Fetches config rpc event s user asset position ∧
      handling = taken event user asset position := by
  constructor
  · rintro ⟨t,ran⟩
    have new : event.id ∉ s.seen_event_ids := by
      intro seen
      rw [scan_event_seen seen] at ran
      cases ran
      exact busy trivial
    rw [scan_event_new new] at ran
    obtain ⟨name,user,names,tracks⟩ := (handle_iff busy).mp ⟨t,ran⟩
    obtain ⟨asset,position,filed,told,out⟩ := track_iff.mp tracks
    exact ⟨user,asset,position,⟨new,⟨name,names,filed⟩,told⟩,out⟩
  · rintro ⟨user,asset,position,⟨new,⟨name,names,filed⟩,told⟩,out⟩
    rw [scan_event_new new]
    exact (handle_iff busy).mpr ⟨name,user,names,track_iff.mpr ⟨asset,position,filed,told,out⟩⟩

end Events

/-! ### The events of a run -/

/-- The body of the loop as a step, with the client that answers during it. -/
def visit (config : Config) (s : ScannerState) (input : Rpc × Event) : Except ScanError Handling × ScannerState :=
  scan_event config input.1 input.2 s

/-- The body of the loop at an event, and the states around it. -/
abbrev Visit : Type := Transition ScannerState (Rpc × Event) (Except ScanError Handling)

/-- The events of a page, up to the first at which the scan stops. -/
def page_visits (config : Config) (rpc : Rpc) : ScannerState → List Event → List Visit
  | _, [] => []
  | s, event :: rest =>
    transition (visit config) s (rpc,event) ::
      match visit config s (rpc,event) with
      | (.ok _, t) => page_visits config rpc t rest
      | (.error _, _) => []

/-- The events that a scan comes to. -/
def scan_visits (config : Config) (rpc : Rpc) (s : ScannerState) : List Visit :=
  match opening config rpc s with
  | (.ok (_, events), t) => page_visits config rpc t events
  | (.error _, _) => []

/-- The events that the scans of a run come to, in order. -/
def visits (config : Config) : ScannerState → List Rpc → List Visit
  | _, [] => []
  | s, rpc :: polls => scan_visits config rpc s ++ visits config (scan config rpc s).2 polls

section Histories
variable {config : Config} {rpc : Rpc} {s : ScannerState}

theorem scan_events_went {event : Event} {rest : List Event} {handling : Handling} {t : ScannerState}
    (ran : scan_event config rpc event s = (.ok handling, t)) :
    (scan_events config rpc (event :: rest) s).2 = (scan_events config rpc rest t).2 := by
  rcases later : scan_events config rpc rest t with ⟨handled | error,u⟩ <;>
    simp only [scan_events,bind,look,pure,ran,later,id_eq]

theorem scan_events_stopped {event : Event} {rest : List Event} {error : ScanError} {t : ScannerState}
    (ran : scan_event config rpc event s = (.error error, t)) : (scan_events config rpc (event :: rest) s).2 = t := by
  simp only [scan_events,bind,look,ran,id_eq]

/-- What the events of a page extend from state to state holds after the page. -/
theorem page_history (config : Config) (rpc : Rpc) (s : ScannerState) (page : List Event)
    (keeps : List Visit → ScannerState → Prop) (past : List Visit) (held : keeps past s)
    (extend : ∀ past r, r ∈ page_visits config rpc s page → Makes (visit config) r → keeps past r.before →
      keeps (past ++ [r]) r.after) :
    keeps (past ++ page_visits config rpc s page) (scan_events config rpc page s).2 := by
  induction page generalizing s past with
  | nil =>
    rw [page_visits,List.append_nil]
    exact held
  | cons event rest ih =>
    have makes : Makes (visit config) (transition (visit config) s (rpc,event)) := transition_makes s (rpc,event)
    have moved := extend past _ List.mem_cons_self makes held
    rcases ran : visit config s (rpc,event) with ⟨error | handling,t⟩
    · have single : page_visits config rpc s (event :: rest) = [transition (visit config) s (rpc,event)] := by
        rw [page_visits,ran]
      rw [single,scan_events_stopped ran]
      have after : (transition (visit config) s (rpc,event)).after = t := congrArg Prod.snd ran
      rwa [after] at moved
    · have cons : page_visits config rpc s (event :: rest) =
          transition (visit config) s (rpc,event) :: page_visits config rpc t rest := by rw [page_visits,ran]
      have after : (transition (visit config) s (rpc,event)).after = t := congrArg Prod.snd ran
      rw [after] at moved
      rw [cons,scan_events_went ran,List.append_cons]
      refine ih _ _ moved (fun past r member => extend past r ?_)
      rw [cons]
      exact List.mem_cons_of_mem _ member

/-- A scan that stops before its page comes to no event. -/
theorem scan_unopened {error : ScanError} {t : ScannerState} (opened : opening config rpc s = (.error error, t)) :
    scan_visits config rpc s = [] ∧ (scan config rpc s).2 = t := by
  refine ⟨by rw [scan_visits,opened],?_⟩
  rw [scan_opening]
  simp only [bind,opened]

/-- After its page a scan moves its cursor only. -/
theorem scan_opened {latest : Nat} {events : List Event} {t : ScannerState}
    (opened : opening config rpc s = (.ok (latest,events), t)) :
    scan_visits config rpc s = page_visits config rpc t events ∧
      ∃ last, (scan config rpc s).2 = { (scan_events config rpc events t).2 with last_seen_ledger := last } := by
  refine ⟨by rw [scan_visits,opened],?_⟩
  rw [scan_opening]
  rcases handled : scan_events config rpc events t with ⟨error | handled,u⟩
  · exact ⟨u.last_seen_ledger,by simp only [bind,opened,handled]⟩
  · exact ⟨u.last_seen_ledger.or (some latest),by simp only [bind,opened,handled,change,pure]⟩

/-- What the events of a scan extend from index to index holds after the scan, whether
    it fails or not. -/
theorem scan_history (config : Config) (rpc : Rpc) (s : ScannerState)
    (keeps : List Visit → List TrackedPosition → Prop) (past : List Visit) (held : keeps past s.positions)
    (extend : ∀ past r, r ∈ scan_visits config rpc s → Makes (visit config) r → keeps past r.before.positions →
      keeps (past ++ [r]) r.after.positions) :
    keeps (past ++ scan_visits config rpc s) (scan config rpc s).2.positions := by
  have same : (opening config rpc s).2.positions = s.positions := opening_keeps (fun _ _ => rfl) s
  rcases opened : opening config rpc s with ⟨error | ⟨latest,events⟩,t⟩
  · rw [opened] at same
    obtain ⟨nothing,stopped⟩ := scan_unopened opened
    rw [nothing,List.append_nil,stopped,same]
    exact held
  · rw [opened] at same
    obtain ⟨page,last,left⟩ := scan_opened opened
    rw [page] at extend ⊢
    rw [left]
    exact page_history config rpc t events (fun past state => keeps past state.positions) past (by rwa [same]) extend

/-- The same after a run. -/
theorem visits_history (config : Config) (s : ScannerState) (polls : List Rpc)
    (keeps : List Visit → List TrackedPosition → Prop) (past : List Visit) (held : keeps past s.positions)
    (extend : ∀ past r, r ∈ visits config s polls → Makes (visit config) r → keeps past r.before.positions →
      keeps (past ++ [r]) r.after.positions) :
    keeps (past ++ visits config s polls) (run (fun s rpc => scan config rpc s) s polls).positions := by
  induction polls generalizing s past with
  | nil =>
    rw [visits,List.append_nil]
    exact held
  | cons rpc polls ih =>
    have scanned := scan_history config rpc s keeps past held (fun past r member =>
      extend past r (List.mem_append_left _ member))
    rw [visits,← List.append_assoc]
    exact ih _ _ scanned (fun past r member => extend past r (List.mem_append_right _ member))

theorem visits_makes {polls : List Rpc} {r : Visit} (member : r ∈ visits config s polls) : Makes (visit config) r := by
  have made := visits_history config s polls (fun past _ => ∀ r ∈ past, Makes (visit config) r) [] (by simp)
    (fun past r _ makes held =>
      List.forall_mem_append.mpr ⟨held,List.forall_mem_singleton.mpr makes⟩)
  exact made r member

theorem visits_append (first second : List Rpc) : visits config s (first ++ second) =
    visits config s first ++ visits config (run (fun s rpc => scan config rpc s) s first) second := by
  induction first generalizing s with
  | nil => rfl
  | cons rpc first ih =>
    rw [List.cons_append,visits,visits,ih,List.append_assoc]
    rfl

end Histories

/-! ### One position for a user -/

/-- The scanner fetches a position at an event of a run. -/
abbrev FetchedAt (config : Config) (r : Visit) (user asset : String) (position : Option Position) : Prop :=
  Fetches config r.input.1 r.input.2 r.before user asset position

/-- The last time that a user's position was fetched, it was this one. -/
def LastFetched (config : Config) (past : List Visit) (user : String) (position : Position) : Prop :=
  ∃ earlier r later asset, past = earlier ++ r :: later ∧ FetchedAt config r user asset (some position) ∧
    ∀ q ∈ later, ∀ asset position, ¬ FetchedAt config q user asset position

/-- There is one entry for a user, the position fetched last. -/
structure OnePerUser (config : Config) (past : List Visit) (positions : List TrackedPosition) : Prop where
  single : positions.Pairwise (fun a b => a.key.user ≠ b.key.user)
  latest : ∀ tracked ∈ positions, LastFetched config past tracked.key.user tracked.position

/-- A position that is fetched at an event is filed under the asset that the index
    has for its user, if it has one. -/
def FiledAlike (config : Config) (r : Visit) : Prop :=
  ∀ user asset position, FetchedAt config r user asset (some position) →
    ∀ other ∈ r.before.positions, other.key.user = user → other.key.asset = asset

section Users
variable {config : Config} {past : List Visit} {r : Visit} {user asset : String} {position : Position}

theorem LastFetched.grow (held : LastFetched config past user position)
    (other : ∀ asset position, ¬ FetchedAt config r user asset position) : LastFetched config (past ++ [r]) user position := by
  obtain ⟨earlier,q,later,asset,rfl,fetched,rest⟩ := held
  refine ⟨earlier,q,later ++ [r],asset,by simp,fetched,?_⟩
  exact List.forall_mem_append.mpr ⟨rest,List.forall_mem_singleton.mpr other⟩

theorem LastFetched.now (fetched : FetchedAt config r user asset (some position)) :
    LastFetched config (past ++ [r]) user position :=
  ⟨past,r,[],asset,rfl,fetched,by simp⟩

/-- An event fetches the position of one user, once. -/
theorem Fetches.unique {rpc : Rpc} {event : Event} {s : ScannerState} {user' asset' : String}
    {position position' : Option Position} (one : Fetches config rpc event s user asset position)
    (other : Fetches config rpc event s user' asset' position') :
    user = user' ∧ asset = asset' ∧ position = position' := by
  obtain ⟨name,names,filed⟩ := one.names
  obtain ⟨name',names',filed'⟩ := other.names
  rw [names] at names'
  cases names'
  rw [filed] at filed'
  cases filed'
  have told := one.told.symm.trans other.told
  cases told
  exact ⟨rfl,rfl,rfl⟩

/-- What an event does to the index. -/
theorem visit_effect (makes : Makes (visit config) r) :
    (∃ user asset position, FetchedAt config r user asset position ∧
      r.after.positions = indexed r.before.positions (.ok (taken r.input.2 user asset position))) ∨
    (∀ user asset position, ¬ FetchedAt config r user asset position) ∧ r.after.positions = r.before.positions := by
  have ran : scan_event config r.input.1 r.input.2 r.before = (r.output, r.after) := makes
  have index : r.after.positions = indexed r.before.positions r.output := by
    have left : (scan_event config r.input.1 r.input.2 r.before).2.positions =
      indexed r.before.positions (scan_event config r.input.1 r.input.2 r.before).1 := scan_event_indexes r.before
    rwa [ran] at left
  have busy : ∀ user asset position, ¬ (taken r.input.2 user asset position).Idle := by
    intro user asset position
    cases position <;> exact not_false
  have out : ∀ user asset position, FetchedAt config r user asset position →
      r.output = .ok (taken r.input.2 user asset position) := by
    intro user asset position fetched
    obtain ⟨t,handled⟩ := (fetches_iff (busy user asset position)).mpr ⟨user,asset,position,fetched,rfl⟩
    rw [ran] at handled
    exact congrArg Prod.fst handled
  by_cases fetches : ∃ user asset position, FetchedAt config r user asset position
  · obtain ⟨user,asset,position,fetched⟩ := fetches
    exact .inl ⟨user,asset,position,fetched,by rw [index,out _ _ _ fetched]⟩
  · have passed : indexed r.before.positions r.output = r.before.positions := by
      cases output : r.output with
      | error error => rfl
      | ok handling =>
        have idle : handling.Idle := by
          by_contra busy
          rw [output] at ran
          obtain ⟨user,asset,position,fetched,_⟩ := (fetches_iff busy).mp ⟨r.after,ran⟩
          exact fetches ⟨user,asset,position,fetched⟩
        cases handling with
        | seen | untitled | nameless => rfl
        | updated | removed => exact idle.elim
    exact .inr ⟨fun user asset position fetched => fetches ⟨user,asset,position,fetched⟩,index.trans passed⟩

/-- An event keeps one entry for a user if it files a position as the index does. -/
theorem OnePerUser.step (makes : Makes (visit config) r) (alike : FiledAlike config r)
    (held : OnePerUser config past r.before.positions) : OnePerUser config (past ++ [r]) r.after.positions := by
  rcases visit_effect makes with ⟨user,asset,position,fetched,index⟩ | ⟨idle,same⟩
  · have others : ∀ user', user' ≠ user → ∀ asset position, ¬ FetchedAt config r user' asset position :=
      fun user' differs asset position other => differs (other.unique fetched).1
    rw [index]
    cases position with
    | none =>
      refine ⟨held.single.filter _,?_⟩
      intro tracked member
      obtain ⟨before,other⟩ := List.mem_filter.mp member
      exact (held.latest tracked before).grow (others _ (by simpa using other))
    | some position =>
      -- an entry of the same user is the one that is replaced
      have apart : ∀ tracked ∈ r.before.positions.filter (fun other => other.key ≠ ⟨user,asset⟩),
          tracked.key.user ≠ user := by
        intro tracked member own
        obtain ⟨before,other⟩ := List.mem_filter.mp member
        have filed := alike user asset position fetched tracked before own
        exact of_decide_eq_true other (congrArg₂ PositionKey.mk own filed)
      refine ⟨?_,?_⟩
      · refine List.pairwise_append.mpr ⟨held.single.filter _,List.pairwise_singleton _ _,?_⟩
        intro tracked member new same
        rw [List.mem_singleton.mp same]
        exact apart tracked member
      · refine List.forall_mem_append.mpr ⟨?_,List.forall_mem_singleton.mpr (.now fetched)⟩
        intro tracked member
        exact (held.latest tracked (List.mem_filter.mp member).1).grow (others _ (apart tracked member))
  · rw [same]
    exact ⟨held.single,fun tracked member => (held.latest tracked member).grow (idle _)⟩

/-- An event that leaves one entry for a user filed its position as the index did. -/
theorem filed_alike (makes : Makes (visit config) r)
    (single : r.after.positions.Pairwise (fun a b => a.key.user ≠ b.key.user)) : FiledAlike config r := by
  intro user asset position fetched other member own
  by_contra differs
  rcases visit_effect makes with ⟨user',asset',position',fetched',index⟩ | ⟨idle,_⟩
  · obtain ⟨rfl,rfl,rfl⟩ := fetched.unique fetched'
    rw [index] at single
    have kept : other ∈ r.before.positions.filter (fun tracked => tracked.key ≠ ⟨user,asset⟩) := by
      refine List.mem_filter.mpr ⟨member,decide_eq_true ?_⟩
      intro same
      exact differs (congrArg PositionKey.asset same)
    exact (List.pairwise_append.mp single).2.2 other kept _ List.mem_cons_self own
  · exact idle user asset _ fetched

end Users

/-- In every state that a run reaches, after each event and between its scans, the
    index has one entry for a user, the position fetched last. -/
structure OnePerUserThroughout (config : Config) (polls : List Rpc) : Prop where
  events : ∀ past r rest, visits config ScannerState.default polls = past ++ r :: rest →
    OnePerUser config (past ++ [r]) r.after.positions
  scans : ∀ earlier later, polls = earlier ++ later → OnePerUser config (visits config ScannerState.default earlier)
    (run (fun s rpc => scan config rpc s) ScannerState.default earlier).positions

theorem one_per_user_throughout {config : Config} {polls : List Rpc}
    (alike : ∀ r ∈ visits config ScannerState.default polls, FiledAlike config r) : OnePerUserThroughout config polls := by
  have start : OnePerUser config [] ScannerState.default.positions := ⟨.nil,by simp [ScannerState.default]⟩
  refine ⟨?_,?_⟩
  · have through := visits_history config ScannerState.default polls (fun past positions =>
        OnePerUser config past positions ∧
          ∀ earlier q later, past = earlier ++ q :: later → OnePerUser config (earlier ++ [q]) q.after.positions)
      [] ⟨start,by simp⟩ (by
        rintro past r member makes ⟨held,earlier_held⟩
        have moved := held.step makes (alike r member)
        refine ⟨moved,?_⟩
        intro earlier q later split
        rcases List.eq_nil_or_concat later with rfl | ⟨between,last,rfl⟩
        · obtain ⟨rfl,same⟩ := List.append_inj' split rfl
          cases same
          exact moved
        · rw [List.concat_eq_append,← List.cons_append,← List.append_assoc] at split
          exact earlier_held earlier q between (List.append_inj' split rfl).1)
    exact through.2
  · rintro earlier later rfl
    exact visits_history config _ earlier (OnePerUser config) [] start (fun past r member makes held =>
      held.step makes (alike r (by rw [visits_append]; exact List.mem_append_left _ member)))

/-- A run keeps one entry for a user exactly if every event of it files its position
    under the asset that the index has for the user. -/
theorem one_position_iff (config : Config) (polls : List Rpc) : OnePerUserThroughout config polls ↔
    ∀ r ∈ visits config ScannerState.default polls, FiledAlike config r := by
  refine ⟨?_,one_per_user_throughout⟩
  intro throughout r member
  obtain ⟨past,rest,split⟩ := List.append_of_mem member
  exact filed_alike (visits_makes member) (throughout.events past r rest split).single

/-! ### A vault with one asset -/

/-- A server of a vault with one asset: it tells that asset for the first supported
    one, and lists no deposit of another. -/
structure SingleAsset (config : Config) (asset : String) (rpc : Rpc) : Prop where
  primary : ∀ answer, rpc.read_supported_asset config.vault_contract_id = some answer → answer = some asset
  deposits : ∀ start page, rpc.get_events start config.vault_contract_id TRACKED_EVENTS EVENT_PAGE_LIMIT = some page →
    ∀ event ∈ page, ∀ deposited rest, event.value = .vec (.address deposited :: rest) → deposited = asset

/-- What the scanner knows is about one asset, whether it has learned that one for the
    primary asset or not. -/
structure FiledUnder (asset : String) (primary : Option String) (s : ScannerState) : Prop where
  primary : s.primary_asset = primary
  users : ∀ user other, s.user_assets.get user = some other → other = asset
  positions : ∀ tracked ∈ s.positions, tracked.key.asset = asset

section SingleAsset
variable {config : Config} {rpc : Rpc} {event : Event} {event_name user asset : String} {s : ScannerState}

/-- Once the primary asset is known, every position is filed under it. -/
theorem FiledUnder.filed (filed : FiledUnder asset (some asset) s)
    (deposits : ∀ deposited rest, event.value = .vec (.address deposited :: rest) → deposited = asset) {other : String}
    (names : filed_asset event_name user event s = some other) : other = asset := by
  unfold filed_asset at names
  by_cases deposit : event_name = "deposit"
  · rw [if_pos deposit] at names
    split at names
    · rename_i rest body
      cases names
      exact deposits _ rest body
    · cases names
  · rw [if_neg deposit,filed.primary] at names
    cases assets : s.user_assets.get user with
    | none =>
      rw [assets] at names
      exact (Option.some.inj names).symm
    | some own =>
      rw [assets] at names
      rw [← filed.users user own assets]
      exact (Option.some.inj names).symm

theorem event_asset_files (deposits : ∀ deposited rest, event.value = .vec (.address deposited :: rest) → deposited = asset) :
    Preserves (FiledUnder asset (some asset)) (event_asset event_name user event) := by
  unfold event_asset
  split
  · refine Preserves.bind_gives (.of_still parse_vec_keeps) (fun _ values _ _ ran => (parse_vec_ok.mp ran).1)
      (fun values body => ?_)
    refine Preserves.bind_gives (.of_still Keeps.expect) (fun _ first _ _ ran => (expect_ok.mp ran).1)
      (fun first head => ?_)
    refine Preserves.bind_gives (.of_still parse_address_keeps) (fun _ text _ _ ran => (parse_address_ok.mp ran).1)
      (fun text address => ?_)
    refine Preserves.bind (Preserves.change fun state filed => ⟨filed.primary,?_,filed.positions⟩)
      (fun _ => .of_still Keeps.pure)
    intro user' other found
    cases values with
    | nil => cases head
    | cons value rest =>
      cases head
      rw [address] at body
      by_cases own : user' = user
      · rw [own,Store.get_set_same] at found
        cases found
        exact deposits _ rest body
      · rw [Store.get_set_other _ _ own] at found
        exact filed.users user' other found
  · exact .of_still Keeps.look

theorem track_files (deposits : ∀ deposited rest, event.value = .vec (.address deposited :: rest) → deposited = asset) :
    Preserves (FiledUnder asset (some asset)) (track config rpc event event_name user) := by
  have files : ∀ state other t, FiledUnder asset (some asset) state →
      event_asset event_name user event state = (.ok other, t) → other = asset :=
    fun state other t filed ran => filed.filed deposits (event_asset_iff.mp ⟨t,ran⟩)
  refine Preserves.bind_gives (event_asset_files deposits) files (fun other same => ?_)
  subst same
  refine Preserves.bind (.of_still Keeps.expect) (fun position => ?_)
  cases position with
  | some position =>
    refine Preserves.bind (Preserves.change fun state filed => ⟨filed.primary,filed.users,?_⟩) (fun _ =>
      Preserves.bind (Preserves.change fun state filed => ⟨filed.primary,filed.users,filed.positions⟩) (fun _ =>
        .of_still Keeps.pure))
    refine List.forall_mem_append.mpr ⟨?_,List.forall_mem_singleton.mpr rfl⟩
    intro tracked member
    exact filed.positions tracked (List.mem_filter.mp member).1
  | none =>
    refine Preserves.bind (Preserves.change fun state filed => ⟨filed.primary,?_,?_⟩) (fun _ =>
      Preserves.bind (Preserves.change fun state filed => ⟨filed.primary,filed.users,filed.positions⟩) (fun _ =>
        .of_still Keeps.pure))
    · intro user' kept found
      by_cases own : user' = user
      · simp only [ScannerState.remove_user,own,Store.get_remove_same,reduceCtorEq] at found
      · rw [ScannerState.remove_user,Store.get_remove_other _ own] at found
        exact filed.users user' kept found
    · intro tracked member
      exact filed.positions tracked (List.mem_filter.mp member).1

theorem scan_event_files (deposits : ∀ deposited rest, event.value = .vec (.address deposited :: rest) → deposited = asset) :
    Preserves (FiledUnder asset (some asset)) (scan_event config rpc event) := by
  refine Preserves.bind (.of_still Keeps.look) (fun seen => ?_)
  split
  · exact .of_still Keeps.pure
  · refine Preserves.bind (Preserves.change fun state filed => ⟨filed.primary,filed.users,filed.positions⟩) (fun _ => ?_)
    split
    · exact .of_still Keeps.pure
    · refine Preserves.bind (.of_still parse_event_name_keeps) (fun event_name => ?_)
      split
      · exact .of_still Keeps.pure
      · exact Preserves.bind (.of_still parse_address_keeps) (fun user => track_files deposits)

/-- The scanner knows this asset or none. -/
def Learning (asset : String) (s : ScannerState) : Prop :=
  ∃ primary, (primary = none ∨ primary = some asset) ∧ FiledUnder asset primary s

theorem opening_learning (single : SingleAsset config asset rpc) : Preserves (Learning asset) (opening config rpc) := by
  refine Preserves.bind (Preserves.bind (.of_still Keeps.look) (fun primary_asset => ?_)) (fun _ => .of_still ?_)
  · split
    · refine Preserves.bind_gives (.of_still Keeps.expect) (fun _ answer _ _ ran => (expect_ok.mp ran).1)
        (fun answer told => ?_)
      refine Preserves.change ?_
      rintro state ⟨primary,_,filed⟩
      exact ⟨some asset,.inr rfl,single.primary answer told,filed.users,filed.positions⟩
    · exact .of_still Keeps.pure
  · exact Keeps.bind Keeps.expect (fun latest => Keeps.bind Keeps.look (fun start =>
      Keeps.bind (Keeps.bind Keeps.expect (fun _ => Keeps.expect)) (fun events => Keeps.pure)))

/-- A scan has learned the asset when it comes to its page. -/
theorem opening_learned (single : SingleAsset config asset rpc) (learning : Learning asset s) {latest : Nat}
    {events : List Event} {u : ScannerState} (opened : opening config rpc s = (.ok (latest,events), u)) :
    FiledUnder asset (some asset) u ∧
      ∃ start, rpc.get_events start config.vault_contract_id TRACKED_EVENTS EVENT_PAGE_LIMIT = some events := by
  simp only [opening,get_events,bind_ok,expect_ok,look_ok,pure_ok] at opened
  obtain ⟨_,v,asked,_,_,⟨_,rfl⟩,_,_,⟨rfl,rfl⟩,_,_,⟨_,_,⟨_,rfl⟩,listed,rfl⟩,same,rfl⟩ := opened
  cases same
  refine ⟨?_,_,listed⟩
  obtain ⟨primary,known,filed⟩ := learning
  simp only [read_primary_asset,bind_ok,look_ok] at asked
  obtain ⟨_,_,⟨rfl,rfl⟩,asked⟩ := asked
  by_cases unknown : s.primary_asset = none
  · simp only [unknown,↓reduceIte,bind_ok,expect_ok,change_ok] at asked
    obtain ⟨answer,_,⟨told,rfl⟩,rfl⟩ := asked
    exact ⟨single.primary answer told,filed.users,filed.positions⟩
  · rw [if_neg unknown,pure_ok] at asked
    obtain ⟨_,rfl⟩ := asked
    rcases known with rfl | rfl
    · exact absurd filed.primary unknown
    · exact filed

theorem page_visits_input {page : List Event} {r : Visit} (member : r ∈ page_visits config rpc s page) :
    r.input.2 ∈ page := by
  induction page generalizing s with
  | nil => cases member
  | cons event rest ih =>
    rcases List.mem_cons.mp member with rfl | later
    · exact List.mem_cons_self
    · rcases ran : visit config s (rpc,event) with ⟨error | handling,t⟩
      · rw [ran] at later
        cases later
      · rw [ran] at later
        exact List.mem_cons_of_mem _ (ih later)

/-- A scan of a vault with one asset files every position under it. -/
theorem scan_files (single : SingleAsset config asset rpc) (learning : Learning asset s) :
    (∀ r ∈ scan_visits config rpc s, FiledAlike config r) ∧ Learning asset (scan config rpc s).2 := by
  rcases opened : opening config rpc s with ⟨error | ⟨latest,events⟩,u⟩
  · obtain ⟨nothing,stopped⟩ := scan_unopened opened
    have left := opening_learning single s learning
    rw [opened] at left
    rw [nothing,stopped]
    exact ⟨by simp,left⟩
  · obtain ⟨filed,start,listed⟩ := opening_learned single learning opened
    obtain ⟨page,last,after⟩ := scan_opened opened
    have through := page_history config rpc u events (fun past state =>
        FiledUnder asset (some asset) state ∧ ∀ r ∈ past, FiledAlike config r) [] ⟨filed,by simp⟩ (by
      rintro past r member makes ⟨filed,alike⟩
      have deposits := single.deposits start events listed r.input.2 (page_visits_input member)
      have left : r.after = (scan_event config r.input.1 r.input.2 r.before).2 := (congrArg Prod.snd makes).symm
      refine ⟨left ▸ scan_event_files deposits r.before filed,List.forall_mem_append.mpr ⟨alike,?_⟩⟩
      refine List.forall_mem_singleton.mpr (fun user other position fetched tracked member own => ?_)
      obtain ⟨name,_,names⟩ := fetched.names
      rw [filed.filed deposits names]
      exact filed.positions tracked member)
    rw [page,after]
    exact ⟨through.2,some asset,.inr rfl,through.1.primary,through.1.users,through.1.positions⟩

/-- In a vault with one asset every run keeps one entry for a user. -/
theorem single_asset_files (polls : List Rpc) (single : ∀ rpc ∈ polls, SingleAsset config asset rpc) :
    OnePerUserThroughout config polls := by
  apply one_per_user_throughout
  have start : Learning asset ScannerState.default :=
    ⟨none,.inl rfl,rfl,by simp [ScannerState.default],by simp [ScannerState.default]⟩
  generalize ScannerState.default = s at start
  induction polls generalizing s with
  | nil =>
    intro r member
    cases member
  | cons rpc polls ih =>
    obtain ⟨alike,learning⟩ := scan_files (single rpc List.mem_cons_self) start
    exact List.forall_mem_append.mpr ⟨alike,ih (fun rpc member => single rpc (List.mem_cons_of_mem _ member)) _ learning⟩

end SingleAsset

namespace Small

/-- A deposit of another asset by the same user. -/
def otherDeposit : Event where
  id := "1"
  ledger := 6
  topic := [.symbol "deposit",.address (spell user)]
  value := .vec [.address "other",.other,.other]

/-- A server that lists both deposits; the position grows from one to the other. -/
def both : Rpc :=
  { listing [deposit,otherDeposit] 9 with get_position := fun event _ _ => some (some ⟨event.ledger,1,0⟩) }

end Small

/-- After both deposits the index has two entries for the user, and the first is not
    the position fetched last. -/
theorem two_deposits_two_entries :
    (run (fun s rpc => scan Small.config rpc s) ScannerState.default [Small.both]).positions =
      [⟨⟨Small.spell Small.user,"asset"⟩,⟨5,1,0⟩,5⟩,⟨⟨Small.spell Small.user,"other"⟩,⟨6,1,0⟩,6⟩] ∧
    ¬ OnePerUserThroughout Small.config [Small.both] := by
  have entries : (run (fun s rpc => scan Small.config rpc s) ScannerState.default [Small.both]).positions =
      [⟨⟨Small.spell Small.user,"asset"⟩,⟨5,1,0⟩,5⟩,⟨⟨Small.spell Small.user,"other"⟩,⟨6,1,0⟩,6⟩] := by decide +kernel
  refine ⟨entries,?_⟩
  intro throughout
  have single := (throughout.scans [Small.both] [] rfl).single
  rw [entries] at single
  exact (List.pairwise_cons.mp single).1 _ List.mem_cons_self rfl

end Helix.Bot
