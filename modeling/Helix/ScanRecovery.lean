import Helix.ScannerPages

/-!
What a scan that fails leaves for the next one. The scanner marks an event as
seen before it reads it and asks for the position of its user, and moves its
cursor only behind what it finished: so the event it stopped at is listed again
and passed over (`failed_scan_loses`). Of the other events none is lost.
-/
namespace Helix.Bot
open Process

/-! ### The ids that are marked -/

section Marks
variable {config : Config} {rpc : Rpc} {event : Event} {event_name user : String} {s t : ScannerState}
  {handling : Handling} {error : ScanError}

/-! Reading a value changes nothing. -/

theorem parse_address_keeps {ν : Type} {view : ScannerState → ν} {value : ScVal} : Keeps view (parse_address value) := by
  cases value with
  | address text => exact Keeps.pure
  | symbol | vec | other => exact Keeps.expect

theorem parse_vec_keeps {ν : Type} {view : ScannerState → ν} {value : ScVal} : Keeps view (parse_vec error value) := by
  cases value with
  | vec values => exact Keeps.pure
  | symbol | address | other => exact Keeps.expect

theorem parse_event_name_keeps {ν : Type} {view : ScannerState → ν} {value : ScVal} :
    Keeps view (parse_event_name error value) := by
  cases value with
  | symbol name => exact Keeps.pure
  | address | vec | other => exact Keeps.expect

/-- Finding the asset of an event changes the known assets only. -/
theorem event_asset_keeps {ν : Type} {view : ScannerState → ν}
    (same : ∀ (state : ScannerState) user_assets, view { state with user_assets := user_assets } = view state) :
    Keeps view (event_asset event_name user event) := by
  unfold event_asset
  split
  · exact Keeps.bind parse_vec_keeps (fun values => Keeps.bind Keeps.expect (fun first =>
      Keeps.bind parse_address_keeps (fun deposit_asset => Keeps.bind (Keeps.change fun state => same state _) (fun _ =>
        Keeps.pure))))
  · exact Keeps.look

/-- Tracking a user marks nothing. -/
theorem track_keeps_seen :
    Keeps (fun state : ScannerState => state.seen_event_ids) (track config rpc event event_name user) := by
  refine Keeps.bind (event_asset_keeps fun _ _ => rfl) (fun asset => Keeps.bind Keeps.expect (fun position => ?_))
  cases position with
  | some position =>
    exact Keeps.bind (Keeps.change fun _ => rfl) (fun _ => Keeps.bind (Keeps.change fun _ => rfl) (fun _ => Keeps.pure))
  | none =>
    exact Keeps.bind (Keeps.change fun _ => rfl) (fun _ => Keeps.bind (Keeps.change fun _ => rfl) (fun _ => Keeps.pure))

/-- What is done with an event that was not seen before. -/
def handle (config : Config) (rpc : Rpc) (event : Event) : Scanning Handling :=
  match event.topic with
  | [] => pure .untitled
  | name :: _ => do
    let event_name ← parse_event_name (.event_name event.id) name
    match user_topic event_name event.topic with
    | none => pure .nameless
    | some topic => do
      let user ← parse_address topic
      track config rpc event event_name user

theorem handle_keeps_seen : Keeps (fun state : ScannerState => state.seen_event_ids) (handle config rpc event) := by
  unfold handle
  split
  · exact Keeps.pure
  · refine Keeps.bind parse_event_name_keeps (fun event_name => ?_)
    split
    · exact Keeps.pure
    · exact Keeps.bind parse_address_keeps (fun user => track_keeps_seen)

/-- An event that was seen before is passed over. -/
theorem scan_event_seen (seen : event.id ∈ s.seen_event_ids) : scan_event config rpc event s = (.ok .seen, s) := by
  simp only [scan_event,bind_ok,look_ok]
  refine ⟨true,s,⟨decide_eq_true seen,rfl⟩,?_⟩
  rw [if_pos rfl,pure_ok]
  exact ⟨rfl,rfl⟩

/-- An event is marked first and handled then. -/
theorem scan_event_new (new : event.id ∉ s.seen_event_ids) : scan_event config rpc event s =
    handle config rpc event { s with seen_event_ids := insert event.id s.seen_event_ids } := by
  show (if decide (event.id ∈ s.seen_event_ids) = true then _ else _ : Scanning Handling) s = _
  rw [if_neg (by simpa using new)]
  rfl

/-- Whatever becomes of an event, its id is marked afterwards. -/
theorem scan_event_marks {result : Except ScanError Handling} (ran : scan_event config rpc event s = (result, t)) :
    t.seen_event_ids = insert event.id s.seen_event_ids := by
  have left : t = (scan_event config rpc event s).2 := by rw [ran]
  rw [left]
  by_cases seen : event.id ∈ s.seen_event_ids
  · rw [scan_event_seen seen,Finset.insert_eq_of_mem seen]
  · rw [scan_event_new seen]
    exact handle_keeps_seen _

/-- What is handled is not passed over. -/
theorem handle_not_seen (ran : handle config rpc event s = (.ok handling, t)) : handling ≠ .seen := by
  unfold handle at ran
  cases topics : event.topic with
  | nil =>
    simp only [topics,pure_ok] at ran
    rw [← ran.1]
    simp
  | cons name rest =>
    simp only [topics,bind_ok] at ran
    obtain ⟨event_name,u,_,ran⟩ := ran
    cases named : user_topic event_name (name :: rest) with
    | none =>
      simp only [named,pure_ok] at ran
      rw [← ran.1]
      simp
    | some topic =>
      simp only [named,bind_ok] at ran
      obtain ⟨user,v,_,ran⟩ := ran
      have processed : Processed config rpc user ⟨s,event,handling,t⟩ := (track_ok ran).1
      cases processed with
      | updated tracked out =>
        rw [show handling = _ from out]
        simp
      | removed out =>
        rw [show handling = _ from out]
        simp

/-- The events passed over are the marked ones. -/
theorem seen_iff (ran : scan_event config rpc event s = (.ok handling, t)) :
    handling = .seen ↔ event.id ∈ s.seen_event_ids := by
  by_cases seen : event.id ∈ s.seen_event_ids
  · rw [scan_event_seen seen] at ran
    cases ran
    simp [seen]
  · rw [scan_event_new seen] at ran
    simp [seen,handle_not_seen ran]

end Marks

/-! ### Pages -/

section Pages
variable {config : Config} {rpc : Rpc} {page : List Event} {handled : List Handled} {s t : ScannerState}
  {error : ScanError}

/-- A page that fails was handled up to the event it fails at. -/
theorem scan_events_stops (ran : scan_events config rpc page s = (.error error, t)) :
    ∃ finished event rest handled u, page = finished ++ event :: rest ∧
      scan_events config rpc finished s = (.ok handled, u) ∧ scan_event config rpc event u = (.error error, t) := by
  induction page generalizing s with
  | nil => simp [scan_events] at ran
  | cons event rest ih =>
    simp only [scan_events,bind_error,look_error,look_ok,false_or,pure_error,and_false,exists_false,or_false] at ran
    obtain ⟨_,_,⟨rfl,rfl⟩,stopped | ⟨handling,u,ran,_,_,⟨rfl,rfl⟩,later⟩⟩ := ran
    · exact ⟨[],event,rest,[],s,rfl,rfl,stopped⟩
    · obtain ⟨finished,other,behind,handled,v,rfl,before,stopped⟩ := ih later
      refine ⟨event :: finished,other,behind,⟨s,event,handling,u⟩ :: handled,v,rfl,?_,stopped⟩
      simp only [scan_events,bind_ok,look_ok,pure_ok]
      exact ⟨s,s,⟨rfl,rfl⟩,handling,u,ran,u,u,⟨rfl,rfl⟩,handled,v,before,rfl,rfl⟩

/-- A page marks the ids of its events. -/
theorem scan_events_marks (ran : scan_events config rpc page s = (.ok handled, t)) (id : String) :
    id ∈ t.seen_event_ids ↔ id ∈ s.seen_event_ids ∨ ∃ event ∈ page, event.id = id := by
  induction page generalizing s handled with
  | nil =>
    simp only [scan_events,pure_ok] at ran
    rw [← ran.2]
    simp
  | cons event rest ih =>
    simp only [scan_events,bind_ok,look_ok,pure_ok] at ran
    obtain ⟨_,_,⟨rfl,rfl⟩,handling,u,ran,_,_,⟨rfl,rfl⟩,later,v,ranLater,rfl,rfl⟩ := ran
    rw [ih ranLater,scan_event_marks ran,Finset.mem_insert]
    simp only [List.mem_cons,exists_eq_or_imp,eq_comm (a := id)]
    tauto

/-- An event that was marked before the page is passed over. -/
theorem scan_events_passes (ran : scan_events config rpc page s = (.ok handled, t)) {id : String}
    (marked : id ∈ s.seen_event_ids) : ∀ r ∈ handled, r.input.id = id → r.output = .seen := by
  induction page generalizing s handled with
  | nil =>
    simp only [scan_events,pure_ok] at ran
    rw [← ran.1]
    simp
  | cons event rest ih =>
    simp only [scan_events,bind_ok,look_ok,pure_ok] at ran
    obtain ⟨_,_,⟨rfl,rfl⟩,handling,u,ran,_,_,⟨rfl,rfl⟩,later,v,ranLater,rfl,rfl⟩ := ran
    have kept : id ∈ u.seen_event_ids := by
      rw [scan_event_marks ran]
      exact Finset.mem_insert_of_mem marked
    intro r member same
    rcases List.mem_cons.mp member with rfl | inRest
    · exact (seen_iff ran).mpr (show event.id ∈ s.seen_event_ids from same ▸ marked)
    · exact ih ranLater kept r inRest same

/-- An event that was not marked before is handled where ids are distinct. -/
theorem scan_events_handles (ran : scan_events config rpc page s = (.ok handled, t))
    (distinct : page.Pairwise (fun a b => a.id ≠ b.id)) {event : Event} (member : event ∈ page)
    (new : event.id ∉ s.seen_event_ids) : ∃ r ∈ handled, r.input = event ∧ r.output ≠ .seen := by
  induction page generalizing s handled with
  | nil => cases member
  | cons first rest ih =>
    simp only [scan_events,bind_ok,look_ok,pure_ok] at ran
    obtain ⟨_,_,⟨rfl,rfl⟩,handling,u,ran,_,_,⟨rfl,rfl⟩,later,v,ranLater,rfl,rfl⟩ := ran
    obtain ⟨different,distinctRest⟩ := List.pairwise_cons.mp distinct
    rcases List.mem_cons.mp member with rfl | inRest
    · exact ⟨_,List.mem_cons_self,rfl,fun passed => new ((seen_iff ran).mp passed)⟩
    · have kept : event.id ∉ u.seen_event_ids := by
        rw [scan_event_marks ran,Finset.mem_insert,not_or]
        exact ⟨(different event inRest).symm,new⟩
      obtain ⟨r,listed,input,done⟩ := ih ranLater distinctRest inRest kept
      exact ⟨r,List.mem_cons_of_mem _ listed,input,done⟩

end Pages

/-! ### A scan that fails, and the next one -/

/-- An event that cannot be read, or a position that is not answered. -/
def ScanError.OfPage : ScanError → Prop
  | .event_name _ | .address | .deposit_body _ | .deposit_asset | .position => True
  | .supported_asset | .latest_ledger | .start_ledger_range | .events => False

section Recovery
variable (config : Config) (rpc retry : Rpc) (s : ScannerState) (page finished : List Event) (event : Event)
  (rest unfinished : List Event) (error : ScanError) (result : Nat × List Handled) (t t' : ScannerState)

/-- The page a scan receives. -/
def Receives : Prop :=
  ∃ latest, rpc.latest_ledger = some latest ∧ rpc.get_events (from_ledger config latest s.last_seen_ledger)
    config.vault_contract_id TRACKED_EVENTS EVENT_PAGE_LIMIT = some page

/-- A scan finishes some events of its page and fails at the next one. -/
structure FailsAt : Prop where
  received : Receives config rpc s page
  failed : scan config rpc s = (.error error, t)
  split : page = finished ++ event :: rest
  stopped : ∃ asset handled u, scan_events config rpc finished { s with primary_asset := asset } = (.ok handled, u) ∧
    scan_event config rpc event u = (.error error, t)

/-- A scan without failures makes up for one that failed: it handles what the
    other did not finish, and its index is the one of a scan of the page from
    where the other started. -/
structure Recovers : Prop where
  handles : ∀ event ∈ unfinished, ∃ r ∈ result.2, r.input = event ∧ r.output ≠ .seen
  index : ∀ other u, Receives config retry s page → scan config retry s = (.ok other, u) → t'.positions = u.positions

variable {config rpc retry s page finished event rest unfinished error result t t'}

/-- The page that a scan receives is the one it handles. -/
theorem Receives.unique {other : List Event} (received : Receives config rpc s page)
    (again : Receives config rpc s other) : page = other := by
  obtain ⟨latest,told,listed⟩ := received
  obtain ⟨latest',told',listed'⟩ := again
  rw [told] at told'
  cases told'
  rw [listed] at listed'
  exact Option.some.inj listed'

theorem read_primary_asset_error (failed : read_primary_asset config rpc s = (.error error, t)) :
    error = .supported_asset := by
  simp only [read_primary_asset,bind_error,look_error,look_ok,false_or] at failed
  obtain ⟨_,_,⟨rfl,rfl⟩,failed⟩ := failed
  by_cases unknown : s.primary_asset = none
  · simp only [unknown,↓reduceIte,bind_error,expect_error,expect_ok,change_error,and_false,exists_false,
      or_false] at failed
    exact failed.2.1.symm
  · rw [if_neg unknown,pure_error] at failed
    exact failed.elim

/-- A failure that is one of the page happens at an event of it. -/
theorem fails_at (received : Receives config rpc s page) (failed : scan config rpc s = (.error error, t))
    (ofPage : error.OfPage) : ∃ finished event rest, FailsAt config rpc s page finished event rest error t := by
  have scanned : ∃ asset, scan_events config rpc page { s with primary_asset := asset } = (.error error, t) := by
    have ran := failed
    simp only [scan,get_events,bind_error,bind_ok,expect_ok,expect_error,look_ok,look_error,change_error,pure_error,
      false_or] at ran
    rcases ran with opening | ⟨_,v,opened,asking | ⟨latest,_,⟨told,rfl⟩,_,_,⟨rfl,rfl⟩,listing | ⟨listed,_,found,ran⟩⟩⟩
    · rw [read_primary_asset_error opening] at ofPage
      exact ofPage.elim
    · rw [← asking.2.1] at ofPage
      exact ofPage.elim
    · rcases listing with ⟨_,same,_⟩ | ⟨_,_,_,_,same,_⟩
      · rw [← same] at ofPage
        exact ofPage.elim
      · rw [← same] at ofPage
        exact ofPage.elim
    · obtain ⟨asset,rfl⟩ := read_primary_asset_ok opened
      obtain ⟨_,_,⟨_,rfl⟩,listed_eq,rfl⟩ := found
      have same : page = listed := received.unique ⟨latest,told,listed_eq⟩
      rcases ran with stopped | ⟨_,_,_,_,_,_,never⟩
      · exact ⟨asset,same ▸ stopped⟩
      · exact never.elim
  obtain ⟨asset,scanned⟩ := scanned
  obtain ⟨finished,event,rest,handled,u,split,before,stopped⟩ := scan_events_stops scanned
  exact ⟨finished,event,rest,received,failed,split,asset,handled,u,before,stopped⟩

/-- What a failed scan finished and failed at is marked when it stops. -/
theorem FailsAt.marks (fails : FailsAt config rpc s page finished event rest error t) (id : String) :
    id ∈ t.seen_event_ids ↔ id ∈ s.seen_event_ids ∨ ∃ other ∈ finished ++ [event], other.id = id := by
  obtain ⟨asset,handled,u,before,stopped⟩ := fails.stopped
  rw [scan_event_marks stopped,Finset.mem_insert,scan_events_marks before]
  simp only [List.mem_append,List.mem_singleton,or_and_right,exists_or,exists_eq_left,eq_comm (a := id)]
  exact or_comm.trans or_assoc

/-- The next scan passes over the event the failed one stopped at. -/
theorem FailsAt.passed (fails : FailsAt config rpc s page finished event rest error t)
    (ran : scan config retry t = (.ok result, t')) : ∀ r ∈ result.2, r.input.id = event.id → r.output = .seen := by
  obtain ⟨count,handled⟩ := result
  obtain ⟨asset,latest,listed,u,told,_,found,scanned,_⟩ := scan_ok ran
  have marked : event.id ∈ t.seen_event_ids := (fails.marks event.id).mpr (.inr ⟨event,by simp,rfl⟩)
  exact scan_events_passes scanned (s := { t with primary_asset := asset }) marked

/-! ### The scans after it -/

/-- An id is marked as seen. -/
def Marked (id : String) (state : ScannerState) : Prop := id ∈ state.seen_event_ids

theorem Marked.preserved {α : Type} {id : String} {x : Scanning α}
    (keeps : Keeps (fun state : ScannerState => state.seen_event_ids) x) : Preserves (Marked id) x :=
  .of_keeps (fun ids => id ∈ ids) keeps

theorem scan_events_preserves {id : String} (page : List Event) :
    Preserves (Marked id) (scan_events config rpc page) := by
  induction page with
  | nil => exact Marked.preserved Keeps.pure
  | cons event rest ih =>
    refine Preserves.bind (Marked.preserved Keeps.look) (fun before => Preserves.bind ?_ (fun handling =>
      Preserves.bind (Marked.preserved Keeps.look) (fun after => Preserves.bind ih (fun handled =>
        Marked.preserved Keeps.pure))))
    intro u held
    rcases ran : scan_event config rpc event u with ⟨handling,v⟩
    show id ∈ v.seen_event_ids
    rw [scan_event_marks ran]
    exact Finset.mem_insert_of_mem held

/-- An id that is marked stays marked, whatever a scan meets. -/
theorem scan_preserves {id : String} : Preserves (Marked id) (scan config rpc) := by
  rw [scan_opening]
  refine Preserves.bind (Marked.preserved (opening_keeps fun _ _ => rfl)) (fun opened =>
    Preserves.bind (scan_events_preserves opened.2) (fun handled => Marked.preserved ?_))
  exact Keeps.bind (Keeps.change fun _ => rfl) (fun _ => Keeps.pure)

/-- No later scan handles the event a scan failed at. -/
theorem FailsAt.lost (fails : FailsAt config rpc s page finished event rest error t) (polls : List Rpc) :
    ∀ q ∈ trace (fun s rpc => scan config rpc s) t polls, ∀ result, q.output = .ok result →
      ∀ r ∈ result.2, r.input.id = event.id → r.output = .seen := by
  have marked : event.id ∈ t.seen_event_ids := (fails.marks event.id).mpr (.inr ⟨event,by simp,rfl⟩)
  intro q member result out
  have before : event.id ∈ q.before.seen_event_ids :=
    trace_invariant (fun s rpc => scan config rpc s) (Marked event.id) polls marked
      (fun r _ makes held => by
        have left : r.after = (scan config r.input r.before).2 := (congrArg Prod.snd makes).symm
        rw [left]
        exact scan_preserves r.before held) q member
  obtain ⟨count,handled⟩ := result
  have ran : scan config q.input q.before = (.ok (count,handled), q.after) := by
    rw [← out]
    exact trace_makes member
  obtain ⟨asset,latest,listed,u,told,_,found,scanned,_⟩ := scan_ok ran
  exact scan_events_passes scanned before

/-- A scan that fails at its page is never recovered from: the next scan that
    receives the page passes over the event at which the failed one stopped.
    It is the only one that is lost, where ids are distinct and new. -/
theorem failed_scan_loses (received : Receives config rpc s page) (failed : scan config rpc s = (.error error, t))
    (ofPage : error.OfPage) (again : Receives config retry t page) (ran : scan config retry t = (.ok result, t')) :
    ∃ finished event rest, FailsAt config rpc s page finished event rest error t ∧
      ¬ Recovers config retry s page (event :: rest) result t' ∧
      (page.Pairwise (fun a b => a.id ≠ b.id) → (∀ other ∈ page, other.id ∉ s.seen_event_ids) →
        ∀ other ∈ page, (∃ r ∈ result.2, r.input = other ∧ r.output ≠ .seen) ↔ other ∈ rest) := by
  obtain ⟨finished,event,rest,fails⟩ := fails_at received failed ofPage
  obtain ⟨count,handled⟩ := result
  obtain ⟨asset,latest,listed,u,told,_,found,scanned,_⟩ := scan_ok ran
  have same : listed = page := Receives.unique ⟨latest,told,found⟩ again
  rw [same] at scanned
  refine ⟨finished,event,rest,fails,?_,?_⟩
  · intro recovers
    obtain ⟨r,member,input,handled⟩ := recovers.handles event List.mem_cons_self
    exact handled (fails.passed ran r member (by rw [input]))
  · intro distinct new other member
    constructor
    · rintro ⟨r,listed,rfl,handled⟩
      by_contra outside
      have early : r.input ∈ finished ++ [event] := by
        have split := fails.split ▸ member
        simp only [List.mem_append,List.mem_cons] at split ⊢
        tauto
      have marked : r.input.id ∈ t.seen_event_ids := (fails.marks _).mpr (.inr ⟨_,early,rfl⟩)
      exact handled (scan_events_passes scanned marked r listed rfl)
    · intro later
      refine scan_events_handles scanned distinct member ?_
      intro marked
      rcases (fails.marks other.id).mp marked with before | ⟨earlier,inside,same⟩
      · exact new other member before
      · have ordered := distinct
        rw [fails.split,List.append_cons] at ordered
        exact (List.pairwise_append.mp ordered).2.2 earlier inside other later same

end Recovery

namespace Small

/-- A deposit of the user. -/
def deposit : Event where
  id := "0"
  ledger := 5
  topic := [.symbol "deposit",.address (spell user)]
  value := .vec [.address "asset",.other,.other]

/-- A server that has no answer for a position. -/
def failing : Rpc := { listing [deposit] 5 with get_position := fun _ _ _ => none }

/-- What the failing scan leaves, and what the one after it does. -/
def stopped : ScannerState := (scan config failing ScannerState.default).2
def resumed : ScannerState := (scan config (listing [deposit] 5) stopped).2

end Small

/-- The deposit's position is never asked for again: the index stays empty, where
    a scan without the failure has the position in it. -/
theorem deposit_lost :
    scan Small.config Small.failing ScannerState.default = (.error .position, Small.stopped) ∧
      Receives Small.config (listing [Small.deposit] 5) Small.stopped [Small.deposit] ∧
      ∃ result, scan Small.config (listing [Small.deposit] 5) Small.stopped = (.ok result, Small.resumed) ∧
        Small.resumed.positions = [] ∧
        (scan Small.config (listing [Small.deposit] 5) ScannerState.default).2.positions =
          [⟨⟨Small.spell Small.user,"asset"⟩,⟨1,1,0⟩,5⟩] ∧
        ¬ Recovers Small.config (listing [Small.deposit] 5) ScannerState.default [Small.deposit] [Small.deposit] result
          Small.resumed := by
  have empty : Small.resumed.positions = [] := by decide +kernel
  have full : (scan Small.config (listing [Small.deposit] 5) ScannerState.default).2.positions =
      [⟨⟨Small.spell Small.user,"asset"⟩,⟨1,1,0⟩,5⟩] := by decide +kernel
  have received : Receives Small.config (listing [Small.deposit] 5) ScannerState.default [Small.deposit] := ⟨5,rfl,rfl⟩
  refine ⟨rfl,⟨5,rfl,rfl⟩,_,rfl,empty,full,?_⟩
  intro recovers
  have index := recovers.index _ (scan Small.config (listing [Small.deposit] 5) ScannerState.default).2 received rfl
  rw [empty,full] at index
  cases index

theorem failed_scan_loses_deposit :
    ∃ result finished event rest, FailsAt Small.config Small.failing ScannerState.default [Small.deposit] finished event
        rest .position Small.stopped ∧
      ¬ Recovers Small.config (listing [Small.deposit] 5) ScannerState.default [Small.deposit] (event :: rest) result
        Small.resumed ∧
      ∀ other ∈ [Small.deposit], (∃ r ∈ result.2, r.input = other ∧ r.output ≠ .seen) ↔ other ∈ rest := by
  obtain ⟨finished,event,rest,fails,never,exact⟩ := failed_scan_loses
    (show Receives Small.config Small.failing ScannerState.default [Small.deposit] from ⟨5,rfl,rfl⟩)
    (show scan Small.config Small.failing ScannerState.default = (.error .position, Small.stopped) from rfl) trivial
    (show Receives Small.config (listing [Small.deposit] 5) Small.stopped [Small.deposit] from ⟨5,rfl,rfl⟩)
    (show scan Small.config (listing [Small.deposit] 5) Small.stopped = (.ok (_,_), Small.resumed) from rfl)
  exact ⟨_,finished,event,rest,fails,never,exact (by simp) (by simp [ScannerState.default])⟩

end Helix.Bot
