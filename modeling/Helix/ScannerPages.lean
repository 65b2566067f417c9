import Helix.Scanner
import Helix.Pages
import Helix.Strkey

/-!
What the scanner sees of the events of the vault. It goes on behind the ledger of
the last event it handled, so it handles every event up to there in every run
whose pages do not stop inside a ledger (`scanner_complete`); a page that does
loses the rest of that ledger for good (`scanner_skips`).
-/
namespace Helix.Bot
open Process

/-- The position of an event's user was fetched and the index took it over, or
    forgot a user that has none. -/
inductive Processed (config : Config) (rpc : Rpc) (user : String) (r : Handled) : Prop
  | updated (tracked : TrackedPosition) : r.output = .updated tracked →
      rpc.get_position r.input config.vault_contract_id user = some (some tracked.position) →
      tracked.key.user = user → tracked.last_event_ledger = r.input.ledger →
      (∀ other, other ∈ r.after.positions ∧ other.key = tracked.key ↔ other = tracked) → Processed config rpc user r
  | removed : r.output = .removed user → rpc.get_position r.input config.vault_contract_id user = some none →
      (∀ tracked ∈ r.after.positions, tracked.key.user ≠ user) → Processed config rpc user r

section Events
variable {config : Config} {rpc : Rpc} {text : Address → String} {event : Event} {event_name user asset : String}
  {s t : ScannerState} {handling : Handling}

/-- Finding the asset of an event touches nothing but the known assets. -/
theorem event_asset_ok (ran : event_asset event_name user event s = (.ok asset, t)) :
    t.positions = s.positions ∧ t.seen_event_ids = s.seen_event_ids ∧ t.last_seen_ledger = s.last_seen_ledger := by
  unfold event_asset at ran
  by_cases deposit : event_name = "deposit"
  · rw [if_pos deposit] at ran
    simp only [bind_ok,parse_vec_ok,expect_ok,parse_address_ok,change_ok,pure_ok] at ran
    obtain ⟨_,_,⟨_,rfl⟩,_,_,⟨_,rfl⟩,_,_,⟨_,rfl⟩,_,_,rfl,_,rfl⟩ := ran
    exact ⟨rfl,rfl,rfl⟩
  · rw [if_neg deposit,look_ok] at ran
    rw [← ran.2]
    exact ⟨rfl,rfl,rfl⟩

/-- What tracking a user leaves. -/
theorem track_ok (ran : track config rpc event event_name user s = (.ok handling, t)) {before : ScannerState} :
    Processed config rpc user ⟨before,event,handling,t⟩ ∧ t.last_seen_ledger = some event.ledger ∧
      t.seen_event_ids = s.seen_event_ids := by
  simp only [track,bind_ok,expect_ok] at ran
  obtain ⟨asset,u,found,position,_,⟨fetched,rfl⟩,rest⟩ := ran
  obtain ⟨_,seen,_⟩ := event_asset_ok found
  cases position with
  | some position =>
    simp only [bind_ok,change_ok,pure_ok] at rest
    obtain ⟨_,_,rfl,_,_,rfl,rfl,rfl⟩ := rest
    refine ⟨.updated ⟨⟨user,asset⟩,position,event.ledger⟩ rfl fetched rfl rfl ?_,rfl,seen⟩
    intro other
    simp only [ScannerState.insert,List.mem_append,List.mem_filter,List.mem_singleton,decide_eq_true_eq]
    constructor
    · rintro ⟨⟨_,different⟩ | same,key⟩
      · exact absurd key different
      · exact same
    · rintro rfl
      exact ⟨.inr rfl,rfl⟩
  | none =>
    simp only [bind_ok,change_ok,pure_ok] at rest
    obtain ⟨_,_,rfl,_,_,rfl,rfl,rfl⟩ := rest
    refine ⟨.removed rfl fetched ?_,rfl,seen⟩
    intro tracked member
    have kept := (List.mem_filter.mp member).2
    simpa using kept

/-- An event of the vault that was not seen before is processed, and the scanner
    moves on to its ledger. -/
theorem scan_event_ok (tracks : Tracks text event user) (fresh : event.id ∉ s.seen_event_ids)
    (ran : scan_event config rpc event s = (.ok handling, t)) :
    Processed config rpc user ⟨s,event,handling,t⟩ ∧ t.last_seen_ledger = some event.ledger ∧
      t.seen_event_ids = insert event.id s.seen_event_ids := by
  obtain ⟨published_event,address,shown,names,rfl⟩ := tracks
  simp only [scan_event,bind_ok,look_ok,decide_eq_false fresh] at ran
  obtain ⟨_,_,⟨rfl,rfl⟩,ran⟩ := ran
  simp only [Bool.false_eq_true,↓reduceIte,bind_ok,change_ok] at ran
  obtain ⟨_,_,rfl,ran⟩ := ran
  have topic : event.topic = (published text published_event).1 := by rw [shown]
  rw [topic] at ran
  cases published_event with
  | pause | unpause | config_update => cases names
  | _ =>
    cases names
    simp only [published,bind_ok,parse_event_name_ok,ScVal.symbol.injEq] at ran
    obtain ⟨_,_,⟨rfl,rfl⟩,ran⟩ := ran
    simp only [user_topic,List.mem_cons,List.not_mem_nil,or_false,String.reduceEq,or_self,or_true,↓reduceIte,
      List.getElem?_cons_succ,List.getElem?_cons_zero,bind_ok,parse_address_ok,ScVal.address.injEq] at ran
    obtain ⟨_,_,⟨rfl,rfl⟩,ran⟩ := ran
    exact track_ok ran

/-- A page of events of the vault, none of which was seen before, is processed. -/
theorem scan_events_ok {page : List Event} {handled : List Handled} (tracks : ∀ event ∈ page, ∃ user, Tracks text event user)
    (fresh : ∀ event ∈ page, event.id ∉ s.seen_event_ids) (distinct : page.Pairwise (fun a b => a.id ≠ b.id))
    (ran : scan_events config rpc page s = (.ok handled, t)) :
    (∀ event ∈ page, ∀ user, Tracks text event user → ∃ r ∈ handled, r.input = event ∧ Processed config rpc user r) ∧
      (∀ id, id ∈ t.seen_event_ids → id ∈ s.seen_event_ids ∨ ∃ event ∈ page, event.id = id) ∧
      t.last_seen_ledger = (page.getLast?.map Event.ledger).or s.last_seen_ledger := by
  induction page generalizing s handled with
  | nil =>
    simp only [scan_events,pure_ok] at ran
    obtain ⟨rfl,rfl⟩ := ran
    exact ⟨by simp,fun id member => .inl member,rfl⟩
  | cons event rest ih =>
    simp only [scan_events,bind_ok,look_ok,pure_ok,id_eq] at ran
    obtain ⟨_,_,⟨rfl,rfl⟩,handling,u,ran,_,_,⟨rfl,rfl⟩,later,w,ranLater,rfl,rfl⟩ := ran
    have new := fresh event List.mem_cons_self
    obtain ⟨different,distinctRest⟩ := List.pairwise_cons.mp distinct
    obtain ⟨user,own⟩ := tracks event List.mem_cons_self
    obtain ⟨_,moved,seen⟩ := scan_event_ok own new ran
    have freshRest : ∀ other ∈ rest, other.id ∉ u.seen_event_ids := by
      intro other member
      rw [seen,Finset.mem_insert,not_or]
      exact ⟨(different other member).symm,fresh other (List.mem_cons_of_mem _ member)⟩
    obtain ⟨processed,ids,last⟩ := ih (fun other member => tracks other (List.mem_cons_of_mem _ member)) freshRest
      distinctRest ranLater
    refine ⟨?_,?_,?_⟩
    · intro other member user other_tracks
      rcases List.mem_cons.mp member with same | inRest
      · subst same
        exact ⟨_,List.mem_cons_self,rfl,(scan_event_ok other_tracks new ran).1⟩
      · obtain ⟨r,listed,input,done⟩ := processed other inRest user other_tracks
        exact ⟨r,List.mem_cons_of_mem _ listed,input,done⟩
    · intro id member
      rcases ids id member with earlier | ⟨other,inRest,same⟩
      · rw [seen,Finset.mem_insert] at earlier
        rcases earlier with same | before
        · exact .inr ⟨event,List.mem_cons_self,same.symm⟩
        · exact .inl before
      · exact .inr ⟨other,List.mem_cons_of_mem _ inRest,same⟩
    · rw [last,moved,List.getLast?_cons]
      cases rest.getLast? with
      | none => rfl
      | some _ => rfl

end Events

/-! ### Scans -/

/-- One scan of a run. -/
abbrev Scan : Type := Transition ScannerState Rpc (Except ScanError (Nat × List Handled))

/-- The ledger a scan starts at. -/
def begins (config : Config) (q : Scan) : Option Nat :=
  q.input.latest_ledger.map (fun latest => from_ledger config latest q.before.last_seen_ledger)

/-- What the server lists from a ledger on: the first events of the stream, up to
    a ledger that has closed, which is not before the latest one it told. -/
def Serves (config : Config) (stream : List Event) (rpc : Rpc) : Prop :=
  ∀ latest, rpc.latest_ledger = some latest → ∃ tip, latest ≤ tip ∧ ∀ start page,
    rpc.get_events start config.vault_contract_id TRACKED_EVENTS EVENT_PAGE_LIMIT = some page →
      page = Pages.page Event.ledger start EVENT_PAGE_LIMIT (stream.filter (fun event => decide (event.ledger ≤ tip)))

/-- The page of a scan does not stop inside a ledger. -/
def TakesWholeLedgers (config : Config) (stream : List Event) (q : Scan) : Prop :=
  ∀ start page, begins config q = some start →
    q.input.get_events start config.vault_contract_id TRACKED_EVENTS EVENT_PAGE_LIMIT = some page →
      Pages.Whole Event.ledger stream page

/-- A scan processed an event. -/
def Covers (config : Config) (q : Scan) (event : Event) (user : String) : Prop :=
  ∃ count handled, q.output = .ok (count,handled) ∧ ∃ r ∈ handled, r.input = event ∧ Processed config q.input user r

/-- Every event from where the first scan started up to the last ledger seen was
    processed. -/
def Complete (config : Config) (text : Address → String) (stream : List Event) (past : List Scan) (s : ScannerState) :
    Prop :=
  ∀ first ∈ past.head?, ∀ start, begins config first = some start → ∀ last, s.last_seen_ledger = some last →
    ∀ event ∈ stream, start ≤ event.ledger → event.ledger ≤ last → ∀ user, Tracks text event user →
      ∃ q ∈ past, Covers config q event user

/-- Events of the vault in the order of their ledgers, each with an id of its own. -/
structure Stream (text : Address → String) (stream : List Event) : Prop where
  sorted : stream.Pairwise (fun a b => a.ledger ≤ b.ledger)
  distinct : (stream.map Event.id).Nodup
  tracked : ∀ event ∈ stream, ∃ user, Tracks text event user

section Scans
variable {config : Config} {text : Address → String} {stream : List Event}

/-- Asking for the primary asset touches nothing else. -/
theorem read_primary_asset_ok {rpc : Rpc} {s t : ScannerState} {u : Unit}
    (opened : read_primary_asset config rpc s = (.ok u, t)) : ∃ asset, t = { s with primary_asset := asset } := by
  simp only [read_primary_asset,bind_ok,look_ok] at opened
  obtain ⟨_,_,⟨rfl,rfl⟩,opened⟩ := opened
  by_cases unknown : s.primary_asset = none
  · simp only [unknown,↓reduceIte,bind_ok,expect_ok,change_ok] at opened
    obtain ⟨asset,_,⟨_,rfl⟩,rfl⟩ := opened
    exact ⟨asset,rfl⟩
  · rw [if_neg unknown,pure_ok] at opened
    exact ⟨s.primary_asset,opened.2.symm⟩

/-- What a scan does before it comes to its page. -/
def opening (config : Config) (rpc : Rpc) : Scanning (Nat × List Event) := do
  read_primary_asset config rpc
  let latest_ledger ← expect rpc.latest_ledger .latest_ledger
  let start ← look (fun state => from_ledger config latest_ledger state.last_seen_ledger)
  let events ← get_events config rpc start
  pure (latest_ledger,events)

theorem scan_opening {rpc : Rpc} : scan config rpc = opening config rpc >>= (fun opened => do
    let handled ← scan_events config rpc opened.2
    change (fun state => { state with last_seen_ledger := state.last_seen_ledger.or (some opened.1) })
    pure (updates handled,handled)) := by
  simp only [opening,scan,Process.bind_assoc,Process.pure_bind]

theorem opening_keeps {rpc : Rpc} {ν : Type} {view : ScannerState → ν}
    (same : ∀ (state : ScannerState) primary_asset, view { state with primary_asset := primary_asset } = view state) :
    Keeps view (opening config rpc) := by
  refine Keeps.bind (Keeps.bind Keeps.look (fun primary_asset => ?_)) (fun _ => Keeps.bind Keeps.expect (fun latest =>
    Keeps.bind Keeps.look (fun start => Keeps.bind (Keeps.bind Keeps.expect (fun _ => Keeps.expect)) (fun events =>
      Keeps.pure))))
  split
  · exact Keeps.bind Keeps.expect (fun asset => Keeps.change fun state => same state asset)
  · exact Keeps.pure

/-- What a scan that succeeded did. -/
theorem scan_ok {rpc : Rpc} {s t : ScannerState} {count : Nat} {handled : List Handled}
    (ran : scan config rpc s = (.ok (count,handled), t)) :
    ∃ asset latest page u, rpc.latest_ledger = some latest ∧
      from_ledger config latest s.last_seen_ledger < 2 ^ 32 ∧
      rpc.get_events (from_ledger config latest s.last_seen_ledger) config.vault_contract_id TRACKED_EVENTS
        EVENT_PAGE_LIMIT = some page ∧
      scan_events config rpc page { s with primary_asset := asset } = (.ok handled, u) ∧
      t = { u with last_seen_ledger := u.last_seen_ledger.or (some latest) } := by
  simp only [scan,bind_ok,expect_ok,look_ok,get_events,change_ok,pure_ok] at ran
  obtain ⟨_,v,opened,latest,_,⟨told,rfl⟩,_,_,⟨rfl,rfl⟩,page,_,⟨_,_,⟨range,rfl⟩,listed,rfl⟩,handled',u,scanned,_,_,rfl,
    out,rfl⟩ := ran
  cases out
  have inside : from_ledger config latest v.last_seen_ledger < 2 ^ 32 := by
    by_contra outside
    rw [if_neg outside] at range
    cases range
  have asset : ∃ asset, v = { s with primary_asset := asset } := read_primary_asset_ok opened
  obtain ⟨asset,rfl⟩ := asset
  exact ⟨asset,latest,page,u,told,inside,listed,scanned,rfl⟩

/-- What holds between the scans of a run that takes whole ledgers. -/
structure Caught (config : Config) (text : Address → String) (stream : List Event) (past : List Scan)
    (s : ScannerState) : Prop where
  complete : Complete config text stream past s
  seen : ∀ event ∈ stream, event.id ∈ s.seen_event_ids → ∃ last, s.last_seen_ledger = some last ∧ event.ledger ≤ last
  started : s.last_seen_ledger = none → past = []

/-- What is listed after the ledgers seen was not seen before. -/
theorem Caught.fresh {past : List Scan} {s : ScannerState} (caught : Caught config text stream past s) {latest : Nat}
    (inside : from_ledger config latest s.last_seen_ledger < 2 ^ 32) {event : Event} (member : event ∈ stream)
    (later : from_ledger config latest s.last_seen_ledger ≤ event.ledger) : event.id ∉ s.seen_event_ids := by
  intro seen
  obtain ⟨last,known,below⟩ := caught.seen event member seen
  rw [known,from_ledger] at inside later
  omega

/-- A page that a scan read from the stream and handled. -/
structure Read (config : Config) (text : Address → String) (stream : List Event) (q : Scan) (start latest tip : Nat)
    (page : List Event) : Prop where
  starts : begins config q = some start
  behind : ∀ last, q.before.last_seen_ledger = some last → start = last + 1
  closed : latest ≤ tip
  listed : q.input.get_events start config.vault_contract_id TRACKED_EVENTS EVENT_PAGE_LIMIT = some page
  lists : page = Pages.page Event.ledger start EVENT_PAGE_LIMIT (stream.filter (fun event => decide (event.ledger ≤ tip)))
  covers : ∀ event ∈ page, ∀ user, Tracks text event user → Covers config q event user
  ids : ∀ id ∈ q.after.seen_event_ids, id ∈ q.before.seen_event_ids ∨ ∃ event ∈ page, event.id = id
  moved : q.after.last_seen_ledger =
    ((page.getLast?.map Event.ledger).or q.before.last_seen_ledger).or (some latest)

namespace Read
variable {q : Scan} {start latest tip : Nat} {page : List Event}

theorem mem_stream (read : Read config text stream q start latest tip page) {event : Event} (member : event ∈ page) :
    event ∈ stream ∧ event.ledger ≤ tip ∧ start ≤ event.ledger := by
  rw [read.lists] at member
  obtain ⟨visible,later⟩ := Pages.mem_of_mem_page member
  obtain ⟨found,below⟩ := List.mem_filter.mp visible
  exact ⟨found,by simpa using below,later⟩

theorem le_last (events : Stream text stream) (read : Read config text stream q start latest tip page)
    {event final : Event} (ends : page.getLast? = some final) (member : event ∈ page) : event.ledger ≤ final.ledger := by
  rw [read.lists] at ends member
  exact Pages.le_last (events.sorted.filter _) ends member

/-- A page that takes whole ledgers holds every event from its start up to the
    last ledger seen after it. -/
theorem mem_page (events : Stream text stream) (read : Read config text stream q start latest tip page)
    (whole : TakesWholeLedgers config stream q) {event : Event} (member : event ∈ stream)
    (new : start ≤ event.ledger) {last : Nat} (seen : q.after.last_seen_ledger = some last)
    (below : event.ledger ≤ last) : event ∈ page := by
  have moved := read.moved
  cases ends : page.getLast? with
  | none =>
    have empty := List.getLast?_eq_none_iff.mp ends
    rw [ends,Option.map_none,Option.none_or,seen] at moved
    cases before : q.before.last_seen_ledger with
    | none =>
      -- Nothing was seen yet, so the cursor moves to a ledger that has closed.
      rw [before,Option.none_or] at moved
      cases moved
      have visible : event ∈ stream.filter (fun event => decide (event.ledger ≤ tip)) :=
        List.mem_filter.mpr ⟨member,decide_eq_true (below.trans read.closed)⟩
      have outside := Pages.page_empty (by decide) (read.lists.symm.trans empty) visible
      omega
    | some ledger =>
      rw [before,Option.some_or] at moved
      cases moved
      have next := read.behind _ before
      omega
  | some final =>
    rw [ends,Option.map_some,Option.some_or,Option.some_or,seen] at moved
    cases moved
    have shown := read.mem_stream (List.mem_of_getLast? ends)
    have visible : event ∈ stream.filter (fun event => decide (event.ledger ≤ tip)) :=
      List.mem_filter.mpr ⟨member,decide_eq_true (below.trans shown.2.1)⟩
    have page_whole := whole _ page read.starts read.listed
    rw [read.lists] at ends page_whole ⊢
    refine Pages.mem_page_of_whole (events.sorted.filter _) ?_ ends visible new below
    intro other same a inside
    exact page_whole other same a (List.mem_filter.mp inside).1

end Read

/-- Before the first scan there is nothing to have processed. -/
theorem Caught.nothing : Caught config text stream [] ScannerState.default := by
  refine ⟨?_,?_,fun _ => rfl⟩
  · intro first headed
    cases headed
  · intro event member seen
    cases seen

/-- A scan that succeeds reads a page and handles all of it. -/
theorem read_of_makes {past : List Scan} {q : Scan} (events : Stream text stream)
    (caught : Caught config text stream past q.before) (makes : Makes (fun s rpc => scan config rpc s) q)
    (serves : Serves config stream q.input) {count : Nat} {handled : List Handled}
    (out : q.output = .ok (count,handled)) : ∃ start latest tip page, Read config text stream q start latest tip page := by
  have ran : scan config q.input q.before = (.ok (count,handled), q.after) := by
    rw [← out]
    exact makes
  obtain ⟨asset,latest,page,u,told,inside,listed,scanned,after⟩ := scan_ok ran
  obtain ⟨tip,closed,lists⟩ := serves latest told
  have page_eq := lists _ _ listed
  have in_page : ∀ event ∈ page, event ∈ stream ∧ from_ledger config latest q.before.last_seen_ledger ≤ event.ledger := by
    intro event member
    rw [page_eq] at member
    obtain ⟨visible,later⟩ := Pages.mem_of_mem_page member
    exact ⟨(List.mem_filter.mp visible).1,later⟩
  have distinct : page.Pairwise (fun a b => a.id ≠ b.id) := by
    rw [page_eq]
    exact (((List.pairwise_map.mp events.distinct).filter _).filter _).take
  have fresh : ∀ event ∈ page, event.id ∉ q.before.seen_event_ids := by
    intro event member
    exact caught.fresh inside (in_page event member).1 (in_page event member).2
  obtain ⟨processed,ids,moved⟩ := scan_events_ok (s := { q.before with primary_asset := asset })
    (fun event member => events.tracked event (in_page event member).1) fresh distinct scanned
  refine ⟨_,latest,tip,page,?_,?_,closed,listed,page_eq,?_,?_,?_⟩
  · rw [begins,told]
    rfl
  · intro last known
    rw [known,from_ledger] at inside ⊢
    omega
  · intro event member user tracks
    exact ⟨count,handled,out,processed event member user tracks⟩
  · rw [after]
    exact ids
  · rw [after,moved]

/-- A scan that takes whole ledgers leaves nothing behind. -/
theorem Caught.scan {past : List Scan} {q : Scan} {start latest tip : Nat} {page : List Event}
    (events : Stream text stream) (caught : Caught config text stream past q.before)
    (read : Read config text stream q start latest tip page) (whole : TakesWholeLedgers config stream q) :
    Caught config text stream (past ++ [q]) q.after := by
  refine ⟨?_,?_,?_⟩
  · intro first headed first_start first_begins last known event member above below user tracks
    by_cases new : start ≤ event.ledger
    · have inside := read.mem_page events whole member new known below
      exact ⟨q,by simp,read.covers event inside user tracks⟩
    · cases past with
      | nil =>
        simp only [List.nil_append,List.head?_cons,Option.mem_some_iff] at headed
        rw [← headed,read.starts] at first_begins
        cases first_begins
        exact absurd above new
      | cons earliest rest =>
        cases seen : q.before.last_seen_ledger with
        | none => cases caught.started seen
        | some before =>
          have next := read.behind before seen
          obtain ⟨q',earlier,covers⟩ := caught.complete first headed first_start first_begins before seen event member
            above (by omega) user tracks
          exact ⟨q',List.mem_append_left _ earlier,covers⟩
  · intro event member seen
    have moved := read.moved
    rcases read.ids _ seen with before | ⟨other,listed,same⟩
    · obtain ⟨last,known,below⟩ := caught.seen event member before
      have next := read.behind last known
      cases ends : page.getLast? with
      | none => exact ⟨last,by rw [moved,ends,known]; rfl,below⟩
      | some final =>
        have shown := read.mem_stream (List.mem_of_getLast? ends)
        exact ⟨final.ledger,by rw [moved,ends]; rfl,by omega⟩
    · have itself := List.inj_on_of_nodup_map events.distinct (read.mem_stream listed).1 member same
      subst itself
      cases ends : page.getLast? with
      | none =>
        rw [List.getLast?_eq_none_iff.mp ends] at listed
        cases listed
      | some final => exact ⟨final.ledger,by rw [moved,ends]; rfl,read.le_last events ends listed⟩
  · intro none_seen
    rw [read.moved] at none_seen
    simp at none_seen

/-- In every run of scans that succeed over a stream of events of the vault, where
    the server lists the events in order and no page stops inside a ledger: after
    every scan, each event from where the first scan started up to the last ledger
    seen has been processed. -/
theorem scanner_complete (config : Config) (text : Address → String) (stream : List Event) (events : Stream text stream)
    (polls : List Rpc) (serves : ∀ rpc ∈ polls, Serves config stream rpc)
    (succeed : ∀ q ∈ trace (fun s rpc => scan config rpc s) ScannerState.default polls, ∃ result, q.output = .ok result)
    (whole : ∀ q ∈ trace (fun s rpc => scan config rpc s) ScannerState.default polls,
      TakesWholeLedgers config stream q) :
    Complete config text stream (trace (fun s rpc => scan config rpc s) ScannerState.default polls)
      (run (fun s rpc => scan config rpc s) ScannerState.default polls) := by
  have caught : Caught config text stream (trace (fun s rpc => scan config rpc s) ScannerState.default polls)
      (run (fun s rpc => scan config rpc s) ScannerState.default polls) := by
    apply run_history (fun s rpc => scan config rpc s) (Caught config text stream) polls
    · exact Caught.nothing
    · intro past q member makes held
      obtain ⟨⟨count,handled⟩,out⟩ := succeed q member
      obtain ⟨start,latest,tip,page,read⟩ := read_of_makes events held makes (serves _ (trace_input member)) out
      exact held.scan events read (whole q member)
  exact caught.complete

end Scans

/-! ### Servers that answer -/

section Answers
variable {config : Config} {text : Address → String} {stream : List Event} {event : Event}
  {event_name user : String} {s : ScannerState}

/-- A server that lists the events of the ledgers up to the latest one, and has a
    position for everybody. -/
def listing (stream : List Event) (latest : Nat) : Rpc where
  read_supported_asset _ := some none
  latest_ledger := some latest
  get_events start _ _ limit :=
    some (Pages.page Event.ledger start limit (stream.filter (fun event => decide (event.ledger ≤ latest))))
  get_position _ _ _ := some (some ⟨1,1,0⟩)

theorem listing_serves (latest : Nat) : Serves config stream (listing stream latest) := by
  intro told same
  cases same
  refine ⟨latest,le_rfl,?_⟩
  intro start page listed
  cases listed
  rfl

/-- A page long enough for the whole stream does not stop inside a ledger. -/
theorem listing_whole {q : Scan} {latest : Nat} (input : q.input = listing stream latest)
    (short : stream.length ≤ EVENT_PAGE_LIMIT) : TakesWholeLedgers config stream q := by
  intro start page _ listed
  rw [input] at listed
  cases listed
  intro last ends event member same
  have shown := (List.mem_filter.mp (Pages.mem_of_mem_page (List.mem_of_getLast? ends)).1).2
  have visible : event ∈ stream.filter (fun event => decide (event.ledger ≤ latest)) :=
    List.mem_filter.mpr ⟨member,by rw [same]; exact shown⟩
  exact Pages.whole_of_short ((List.length_filter_le _ _).trans short) last ends event visible same

theorem event_asset_succeeds
    (body : event_name = "deposit" → ∃ first rest, event.value = .vec (.address first :: rest)) :
    ∃ asset t, event_asset event_name user event s = (.ok asset, t) := by
  unfold event_asset
  by_cases deposit : event_name = "deposit"
  · obtain ⟨first,rest,value⟩ := body deposit
    simp only [if_pos deposit,bind_ok,parse_vec_ok,expect_ok,parse_address_ok,change_ok,pure_ok]
    exact ⟨first,_,_,_,⟨value,rfl⟩,_,_,⟨rfl,rfl⟩,first,_,⟨rfl,rfl⟩,(),_,rfl,rfl,rfl⟩
  · rw [if_neg deposit]
    exact ⟨_,s,rfl⟩

theorem track_succeeds {latest : Nat}
    (body : event_name = "deposit" → ∃ first rest, event.value = .vec (.address first :: rest)) :
    ∃ handling t, track config (listing stream latest) event event_name user s = (.ok handling, t) := by
  obtain ⟨asset,u,found⟩ : ∃ asset u, event_asset event_name user event s = (.ok asset, u) :=
    event_asset_succeeds body
  simp only [track,bind_ok,expect_ok]
  exact ⟨_,_,asset,u,found,_,_,⟨rfl,rfl⟩,rfl⟩

/-- An event whose topic names a user stops no scan. -/
theorem scan_event_of_topic {latest : Nat} {topics : List ScVal} (topic : event.topic = .symbol event_name :: topics)
    (names : user_topic event_name event.topic = some (.address user))
    (body : event_name = "deposit" → ∃ first rest, event.value = .vec (.address first :: rest)) :
    ∃ handling t, scan_event config (listing stream latest) event s = (.ok handling, t) := by
  simp only [scan_event,bind_ok,look_ok]
  by_cases seen : event.id ∈ s.seen_event_ids
  · refine ⟨.seen,s,_,_,⟨rfl,rfl⟩,?_⟩
    rw [if_pos (decide_eq_true seen),pure_ok]
    exact ⟨rfl,rfl⟩
  · have unseen : ¬ decide (event.id ∈ s.seen_event_ids) = true := by simpa using seen
    have tracked : ∃ handling t, track config (listing stream latest) event event_name user
        { s with seen_event_ids := insert event.id s.seen_event_ids } = (.ok handling, t) := track_succeeds body
    obtain ⟨handling,t,ran⟩ := tracked
    rw [topic] at names
    refine ⟨handling,t,_,_,⟨rfl,rfl⟩,?_⟩
    simp only [if_neg unseen,bind_ok,change_ok,topic,parse_event_name_ok]
    refine ⟨(),_,rfl,event_name,_,⟨rfl,rfl⟩,?_⟩
    simp only [names,bind_ok,parse_address_ok]
    exact ⟨user,_,⟨rfl,rfl⟩,ran⟩

/-- An event of the vault stops no scan. -/
theorem scan_event_succeeds {latest : Nat} (tracks : Tracks text event user) :
    ∃ handling t, scan_event config (listing stream latest) event s = (.ok handling, t) := by
  obtain ⟨published_event,address,shown,names,_⟩ := tracks
  have topic : event.topic = (published text published_event).1 := by rw [shown]
  have value : event.value = (published text published_event).2 := by rw [shown]
  cases published_event with
  | deposit user token amount position =>
    exact scan_event_of_topic topic (by rw [topic]; simp [published,user_topic]; rfl) (fun _ => ⟨_,_,value⟩)
  | pause | unpause | config_update => cases names
  | _ => exact scan_event_of_topic topic (by rw [topic]; simp [published,user_topic]; rfl) (by simp)

/-- A page of events of the vault stops no scan, and every event of it is handled
    in turn. -/
theorem scan_events_succeeds {latest : Nat} {page : List Event} (tracks : ∀ event ∈ page, ∃ user, Tracks text event user) :
    ∃ handled t, scan_events config (listing stream latest) page s = (.ok handled, t) := by
  induction page generalizing s with
  | nil => exact ⟨[],s,rfl⟩
  | cons event rest ih =>
    obtain ⟨user,own⟩ := tracks event List.mem_cons_self
    have first : ∃ handling t, scan_event config (listing stream latest) event s = (.ok handling, t) :=
      scan_event_succeeds own
    obtain ⟨handling,u,ran⟩ := first
    have later : ∃ handled t, scan_events config (listing stream latest) rest u = (.ok handled, t) :=
      ih (fun other member => tracks other (List.mem_cons_of_mem _ member))
    obtain ⟨handled,t,ranLater⟩ := later
    refine ⟨⟨s,event,handling,u⟩ :: handled,t,?_⟩
    simp only [scan_events,bind_ok,look_ok,pure_ok,id_eq]
    exact ⟨s,s,⟨rfl,rfl⟩,handling,u,ran,u,u,⟨rfl,rfl⟩,handled,t,ranLater,rfl,rfl⟩

/-- What is handled is the page. -/
theorem handled_inputs {rpc : Rpc} {page : List Event} {handled : List Handled} {t : ScannerState}
    (ran : scan_events config rpc page s = (.ok handled, t)) : handled.map (fun r => r.input) = page := by
  induction page generalizing s t handled with
  | nil =>
    simp only [scan_events,pure_ok] at ran
    rw [← ran.1]
    rfl
  | cons event rest ih =>
    simp only [scan_events,bind_ok,look_ok,pure_ok] at ran
    obtain ⟨_,_,_,handling,u,_,_,v,_,later,w,ranLater,rfl,_⟩ := ran
    rw [List.map_cons,ih ranLater]

/-- A scan of such a server succeeds where its start is a ledger number. -/
theorem listing_succeeds {latest : Nat} (tracks : ∀ event ∈ stream, ∃ user, Tracks text event user)
    (range : from_ledger config latest s.last_seen_ledger < 2 ^ 32) :
    ∃ result t, scan config (listing stream latest) s = (.ok result, t) := by
  have opened : ∃ asset, read_primary_asset config (listing stream latest) s =
      (.ok (), { s with primary_asset := asset }) := by
    simp only [read_primary_asset,bind_ok,look_ok]
    by_cases unknown : s.primary_asset = none
    · refine ⟨none,_,_,⟨rfl,rfl⟩,?_⟩
      simp only [if_pos unknown,bind_ok,expect_ok,change_ok]
      exact ⟨none,s,⟨rfl,rfl⟩,rfl⟩
    · refine ⟨s.primary_asset,_,_,⟨rfl,rfl⟩,?_⟩
      rw [if_neg unknown,pure_ok]
      exact ⟨rfl,rfl⟩
  obtain ⟨asset,opened⟩ := opened
  have page_tracks : ∀ event ∈ Pages.page Event.ledger (from_ledger config latest s.last_seen_ledger) EVENT_PAGE_LIMIT
      (stream.filter (fun event => decide (event.ledger ≤ latest))), ∃ user, Tracks text event user := by
    intro event member
    exact tracks event (List.mem_filter.mp (Pages.mem_of_mem_page member).1).1
  have scanned : ∃ handled t, scan_events config (listing stream latest) _ { s with primary_asset := asset } =
    (.ok handled, t) := scan_events_succeeds page_tracks
  obtain ⟨handled,t,scanned⟩ := scanned
  refine ⟨(updates handled,handled),{ t with last_seen_ledger := t.last_seen_ledger.or (some latest) },?_⟩
  simp only [scan,bind_ok,expect_ok,look_ok,get_events,change_ok,pure_ok]
  exact ⟨(),_,opened,latest,_,⟨rfl,rfl⟩,_,_,⟨rfl,rfl⟩,_,_,⟨(),_,⟨if_pos range,rfl⟩,rfl,rfl⟩,handled,t,scanned,(),_,rfl,rfl,
    rfl⟩

/-- An event that is not listed is not covered. -/
theorem covers_listed {q : Scan} {start : Nat} {page : List Event} (makes : Makes (fun s rpc => scan config rpc s) q)
    (starts : begins config q = some start)
    (listed : q.input.get_events start config.vault_contract_id TRACKED_EVENTS EVENT_PAGE_LIMIT = some page)
    (covers : Covers config q event user) : event ∈ page := by
  obtain ⟨count,handled,out,r,member,input,_⟩ := covers
  have ran : scan config q.input q.before = (.ok (count,handled), q.after) := by
    rw [← out]
    exact makes
  obtain ⟨asset,latest,page',u,told,_,listed',scanned,_⟩ := scan_ok ran
  have same : from_ledger config latest q.before.last_seen_ledger = start := by
    simpa [begins,told] using starts
  rw [same,listed] at listed'
  cases listed'
  rw [← handled_inputs scanned,← input]
  exact List.mem_map_of_mem member

end Answers

namespace Small

def config : Config := ⟨"vault","oracle","token",none,0,10⟩

/-- Addresses spelled as contracts. -/
def spell : Address → String
  | .account key => Strkey.contract_id_to_strkey key
  | .contract id => Strkey.contract_id_to_strkey id

def user : Address := .contract (BytesN.fill 32 1)

/-- A repayment of the user at a ledger. -/
def repayment (number ledger : Nat) : Event where
  id := String.ofList (List.replicate number '0')
  ledger := ledger
  topic := [.symbol "repay",.address (spell user)]
  value := .vec [.other,.other]

theorem repayment_tracks (number ledger : Nat) : Tracks spell (repayment number ledger) (spell user) :=
  ⟨.repay user 0 0,user,rfl,rfl,rfl⟩

/-- Repayments one after the other, each at the ledger a function gives. -/
def repayments (count : Nat) (ledger : Nat → Nat) : List Event :=
  (List.range count).map (fun number => repayment number (ledger number))

theorem repayments_stream {count : Nat} {ledger : Nat → Nat} (grows : Monotone ledger) :
    Stream spell (repayments count ledger) where
  sorted := by
    rw [repayments,List.pairwise_map]
    exact List.pairwise_lt_range.imp (fun below => grows below.le)
  distinct := by
    rw [repayments,List.map_map]
    refine List.Nodup.map ?_ List.nodup_range
    intro a b same
    have lists := String.ofList_injective same
    simpa using congrArg List.length lists
  tracked := by
    intro event member
    obtain ⟨number,_,rfl⟩ := List.mem_map.mp member
    exact ⟨spell user,repayment_tracks _ _⟩

/-- Two ledgers with one and two repayments, read in two scans. -/
def quiet : List Event := repayments 3 (fun number => 5 + number.min 1)
def quietPolls : List Rpc := [listing quiet 5,listing quiet 9]

theorem scanner_complete_quiet :
    Complete config spell quiet (trace (fun s rpc => scan config rpc s) ScannerState.default quietPolls)
      (run (fun s rpc => scan config rpc s) ScannerState.default quietPolls) ∧
    (run (fun s rpc => scan config rpc s) ScannerState.default quietPolls).last_seen_ledger = some 6 := by
  have grows : Monotone (fun number : Nat => 5 + number.min 1) := by
    intro a b below
    show 5 + min a 1 ≤ 5 + min b 1
    omega
  have polled : ∀ rpc ∈ quietPolls, ∃ latest, rpc = listing quiet latest := by
    intro rpc member
    simp only [quietPolls,List.mem_cons,List.not_mem_nil,or_false] at member
    rcases member with rfl | rfl
    · exact ⟨5,rfl⟩
    · exact ⟨9,rfl⟩
  refine ⟨scanner_complete config spell quiet (repayments_stream grows) quietPolls ?_ ?_ ?_,by decide +kernel⟩
  · intro rpc member
    obtain ⟨latest,rfl⟩ := polled rpc member
    exact listing_serves latest
  · have answered : ∀ q ∈ trace (fun s rpc => scan config rpc s) ScannerState.default quietPolls,
        q.output.isOk = true := by decide +kernel
    intro q member
    have ok := answered q member
    cases out : q.output with
    | error e => simp [out,Except.isOk,Except.toBool] at ok
    | ok result => exact ⟨result,rfl⟩
  · intro q member
    obtain ⟨latest,same⟩ := polled q.input (trace_input member)
    exact listing_whole same (by decide)

/-- One repayment more in a ledger than a page holds. -/
def crowded : List Event := repayments 201 (fun _ => 7)

/-- The last repayment of a crowded ledger is behind the cursor after the first
    scan, and was not processed. -/
theorem scanner_skips :
    Stream spell crowded ∧ Serves config crowded (listing crowded 9) ∧
      (∀ q ∈ trace (fun s rpc => scan config rpc s) ScannerState.default [listing crowded 9],
        ∃ result, q.output = .ok result) ∧
      ¬ Complete config spell crowded (trace (fun s rpc => scan config rpc s) ScannerState.default [listing crowded 9])
        (run (fun s rpc => scan config rpc s) ScannerState.default [listing crowded 9]) := by
  have events : Stream spell crowded := repayments_stream monotone_const
  have serves : Serves config crowded (listing crowded 9) := listing_serves 9
  have ran : ∃ result t, scan config (listing crowded 9) ScannerState.default = (.ok result, t) :=
    listing_succeeds events.tracked (by decide)
  obtain ⟨⟨count,handled⟩,t,ran⟩ := ran
  have first : transition (fun s rpc => scan config rpc s) ScannerState.default (listing crowded 9) =
      (⟨ScannerState.default,listing crowded 9,.ok (count,handled),t⟩ : Scan) := by
    simp only [transition,ran]
  rw [trace_single,run_single,first]
  refine ⟨events,serves,List.forall_mem_singleton.mpr ⟨_,rfl⟩,?_⟩
  intro complete
  have makes : Makes (fun s rpc => scan config rpc s)
      (⟨ScannerState.default,listing crowded 9,.ok (count,handled),t⟩ : Scan) := ran
  obtain ⟨start,latest,tip,page,read⟩ := read_of_makes events Caught.nothing makes serves rfl
  have zero : start = 0 := by
    have starts := read.starts
    simp only [begins,listing,from_ledger,ScannerState.default,Option.map_some,Option.some.injEq] at starts
    rw [← starts]
    rfl
  subst zero
  have everything : page = repayments 200 (fun _ => 7) := by
    have listed := read.listed
    simp only [listing,Option.some.injEq] at listed
    have visible : crowded.filter (fun event => decide (event.ledger ≤ 9)) = crowded := by
      rw [List.filter_eq_self]
      intro event member
      obtain ⟨_,_,rfl⟩ := List.mem_map.mp member
      rfl
    have later : crowded.filter (fun event => decide (0 ≤ event.ledger)) = crowded := by
      rw [List.filter_eq_self]
      exact fun event _ => decide_eq_true (Nat.zero_le _)
    rw [← listed,visible,Pages.page,later,crowded,repayments,← List.map_take,List.take_range]
    rfl
  have seen : t.last_seen_ledger = some 7 := by
    rw [read.moved,everything,repayments,List.getLast?_map,List.getLast?_range]
    rfl
  have lost : repayment 200 7 ∈ crowded := List.mem_map.mpr ⟨200,by simp,rfl⟩
  obtain ⟨q,member,covers⟩ := complete _ rfl 0 read.starts 7 seen (repayment 200 7) lost (by decide) (by decide)
    (spell user) (repayment_tracks _ _)
  rw [List.mem_singleton.mp member] at covers
  have listed := covers_listed makes read.starts read.listed covers
  rw [everything] at listed
  obtain ⟨number,below,same⟩ := List.mem_map.mp listed
  have length := congrArg List.length (String.ofList_injective (congrArg Event.id same))
  simp only [List.length_replicate] at length
  rw [length] at below
  simp at below

end Small

end Helix.Bot
