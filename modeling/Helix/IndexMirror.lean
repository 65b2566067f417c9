import Helix.ScanIndex
import Helix.PositionFeed

/-!
The scanner's index against the vault. The scanner is a reader of the vault's log of
positions (`feed`): while the chain moves on, during a scan or between two, the index
has the present position of every user without an event that is still to be read
(`index_mirrors`). Once the vault is quiet, scans that go through catch up with it
(`scans_catch_up`).
-/
namespace Helix.Bot
open Process
open Vault (Position VaultEvent Served Action State serve)

/-! ### What a scan does to the positions it watches -/

/-- The position that the index has for a user. -/
def ScannerState.watched (s : ScannerState) (user : String) : Option Position :=
  (s.positions.find? (fun tracked => tracked.key.user = user)).map TrackedPosition.position

section Watching
variable {config : Config} {rpc : Rpc} {text : Address → String} {event : Event} {user asset : String}
  {s t : ScannerState} {visited : List Visit} {r : Visit} {answer : Option Position}

/-- An entry of another user may be left out. -/
theorem find_filter {kept : TrackedPosition → Bool} {positions : List TrackedPosition}
    (keeps : ∀ tracked ∈ positions, tracked.key.user = user → kept tracked = true) :
    (positions.filter kept).find? (fun tracked => decide (tracked.key.user = user)) =
      positions.find? (fun tracked => decide (tracked.key.user = user)) := by
  induction positions with
  | nil => rfl
  | cons tracked rest ih =>
    have later := ih (fun other member => keeps other (List.mem_cons_of_mem _ member))
    by_cases own : tracked.key.user = user
    · rw [List.filter_cons_of_pos (keeps tracked List.mem_cons_self own),List.find?_cons_of_pos (by simpa using own),
        List.find?_cons_of_pos (by simpa using own)]
    · rw [List.find?_cons_of_neg (by simpa using own),← later]
      by_cases stays : kept tracked = true
      · rw [List.filter_cons_of_pos stays,List.find?_cons_of_neg (by simpa using own)]
      · rw [List.filter_cons_of_neg stays]

/-- The position that is fetched for a user is the one that the index has then. -/
theorem visit_watched (makes : Makes (visit config) r) (alike : FiledAlike config r)
    (fetched : FetchedAt config r user asset answer) : r.after.watched user = answer := by
  rcases visit_effect makes with ⟨user',asset',answer',fetched',index⟩ | ⟨idle,_⟩
  · obtain ⟨rfl,rfl,rfl⟩ := fetched.unique fetched'
    rw [ScannerState.watched,index]
    cases answer with
    | none =>
      have gone : (r.before.positions.filter (fun tracked => tracked.key.user ≠ user)).find?
          (fun tracked => decide (tracked.key.user = user)) = none := by
        rw [List.find?_eq_none]
        intro tracked member own
        have other := (List.mem_filter.mp member).2
        simp only [decide_eq_true_eq] at other own
        exact other own
      simp only [taken,indexed,gone,Option.map_none]
    | some position =>
      have replaced : (r.before.positions.filter (fun other => other.key ≠ ⟨user,asset⟩)).find?
          (fun tracked => decide (tracked.key.user = user)) = none := by
        rw [List.find?_eq_none]
        intro tracked member own
        obtain ⟨before,other⟩ := List.mem_filter.mp member
        simp only [decide_eq_true_eq] at other own
        exact other (congrArg₂ PositionKey.mk own (alike user asset position fetched tracked before own))
      simp only [taken,indexed,List.find?_append,replaced,List.find?_singleton,decide_true,Option.none_or,
        if_true,Option.map_some]
  · exact absurd fetched (idle user asset answer)

/-- The position of a user that is not fetched stays. -/
theorem visit_watched_other (makes : Makes (visit config) r) (other : ∀ asset answer, ¬ FetchedAt config r user asset answer) :
    r.after.watched user = r.before.watched user := by
  rcases visit_effect makes with ⟨user',asset,answer,fetched,index⟩ | ⟨_,same⟩
  · have differ : user' ≠ user := by
      rintro rfl
      exact other asset answer fetched
    rw [ScannerState.watched,ScannerState.watched,index]
    cases answer with
    | none =>
      have kept : ∀ tracked ∈ r.before.positions, tracked.key.user = user →
          decide (tracked.key.user ≠ user') = true := by
        rintro tracked _ rfl
        exact decide_eq_true differ.symm
      simp only [taken,indexed,find_filter kept]
    | some position =>
      have kept : ∀ tracked ∈ r.before.positions, tracked.key.user = user →
          decide (tracked.key ≠ ⟨user',asset⟩) = true := by
        rintro tracked _ rfl
        exact decide_eq_true (fun same => differ (congrArg PositionKey.user same).symm)
      simp only [taken,indexed,List.find?_append,find_filter kept,List.find?_singleton,decide_eq_false differ,
        Bool.false_eq_true,if_false,Option.or_none]
  · rw [ScannerState.watched,ScannerState.watched,same]

/-- A tracked event names its user. -/
theorem tracks_names (tracks : Tracks text event user) : ∃ name, event_user event = some (name,user) := by
  obtain ⟨published_event,address,shown,names,rfl⟩ := tracks
  have topic : event.topic = (published text published_event).1 := by rw [shown]
  cases published_event with
  | pause | unpause | config_update => cases names
  | _ =>
    cases names
    exact ⟨_,event_user_some.mpr ⟨_,topic,by rw [topic]; simp [published,user_topic]⟩⟩

theorem tracks_unique {user' : String} (one : Tracks text event user) (other : Tracks text event user') : user = user' := by
  obtain ⟨name,names⟩ := tracks_names one
  obtain ⟨name',names'⟩ := tracks_names other
  rw [names] at names'
  cases names'
  rfl

/-- At a new event that is tracked the position of its user is fetched. -/
theorem tracked_fetches {handling : Handling} (tracks : Tracks text event user) (fresh : event.id ∉ s.seen_event_ids)
    (ran : scan_event config rpc event s = (.ok handling, t)) :
    ∃ asset answer, Fetches config rpc event s user asset answer := by
  obtain ⟨processed,_,_⟩ := scan_event_ok tracks fresh ran
  have busy : ¬ handling.Idle := by
    cases processed with
    | updated tracked out =>
      rw [show handling = _ from out]
      exact not_false
    | removed out =>
      rw [show handling = _ from out]
      exact not_false
  obtain ⟨user',asset,answer,fetches,_⟩ := (fetches_iff busy).mp ⟨t,ran⟩
  obtain ⟨name,names⟩ := tracks_names tracks
  obtain ⟨name',names',_⟩ := fetches.names
  rw [names] at names'
  cases names'
  exact ⟨asset,answer,fetches⟩

/-- What a page leaves of a user: the position that was told at one of the user's
    events, or what was there if the page has none. -/
theorem page_watched {page : List Event} {handled : List Handled} (tracks : ∀ event ∈ page, ∃ user, Tracks text event user)
    (fresh : ∀ event ∈ page, event.id ∉ s.seen_event_ids) (distinct : page.Pairwise (fun a b => a.id ≠ b.id))
    (ran : scan_events config rpc page s = (.ok handled, t)) (held : OnePerUser config visited s.positions)
    (alike : ∀ r ∈ page_visits config rpc s page, FiledAlike config r) (user : String) :
    (∃ event ∈ page, Tracks text event user ∧
      rpc.get_position event config.vault_contract_id user = some (t.watched user)) ∨
    (∀ event ∈ page, ¬ Tracks text event user) ∧ t.watched user = s.watched user := by
  induction page generalizing s visited handled with
  | nil =>
    simp only [scan_events,pure_ok] at ran
    rw [← ran.2]
    exact .inr ⟨by simp,rfl⟩
  | cons event rest ih =>
    simp only [scan_events,bind_ok,look_ok,pure_ok,id_eq] at ran
    obtain ⟨_,_,⟨rfl,rfl⟩,handling,u,ran,_,_,⟨rfl,rfl⟩,later,w,ranLater,rfl,rfl⟩ := ran
    have makes : Makes (visit config) (⟨s,(rpc,event),.ok handling,u⟩ : Visit) := ran
    have visits_cons : page_visits config rpc s (event :: rest) =
        ⟨s,(rpc,event),.ok handling,u⟩ :: page_visits config rpc u rest := by
      have went : visit config s (rpc,event) = (.ok handling, u) := ran
      rw [page_visits,transition,went]
    rw [visits_cons] at alike
    obtain ⟨first_alike,rest_alike⟩ := List.forall_mem_cons.mp alike
    obtain ⟨different,distinct_rest⟩ := List.pairwise_cons.mp distinct
    have new := fresh event List.mem_cons_self
    obtain ⟨own,tracks_own⟩ := tracks event List.mem_cons_self
    obtain ⟨asset,answer,fetched⟩ := tracked_fetches tracks_own new ran
    have fresh_rest : ∀ other ∈ rest, other.id ∉ u.seen_event_ids := by
      intro other member
      rw [scan_event_marks ran,Finset.mem_insert,not_or]
      exact ⟨(different other member).symm,fresh other (List.mem_cons_of_mem _ member)⟩
    have rest_watched := ih (fun other member => tracks other (List.mem_cons_of_mem _ member)) fresh_rest distinct_rest
      ranLater (held.step makes first_alike) rest_alike
    rcases rest_watched with ⟨other,member,names,told⟩ | ⟨nothing,same⟩
    · exact .inl ⟨other,List.mem_cons_of_mem _ member,names,told⟩
    · rw [same]
      by_cases named : Tracks text event user
      · have one := tracks_unique named tracks_own
        subst one
        have now := visit_watched makes first_alike fetched
        exact .inl ⟨event,List.mem_cons_self,named,now ▸ fetched.told⟩
      · refine .inr ⟨List.forall_mem_cons.mpr ⟨named,nothing⟩,visit_watched_other makes (fun asset' answer' other => ?_)⟩
        exact named ((other.unique fetched).1 ▸ tracks_own)

/-- A scan opens with the page that it reads. -/
theorem opened_page {stream : List Event} {q : Scan} {start latest tip told : Nat} {page listed : List Event} {u : ScannerState}
    (read : Read config text stream q start latest tip page)
    (opened : opening config q.input q.before = (.ok (told,listed), u)) :
    listed = page ∧ from_ledger config told q.before.last_seen_ledger = start ∧
      from_ledger config told q.before.last_seen_ledger < 2 ^ 32 ∧
      ∃ asset, u = { q.before with primary_asset := asset } := by
  simp only [opening,get_events,bind_ok,expect_ok,look_ok,pure_ok] at opened
  obtain ⟨_,v,asked,latest',_,⟨shown,rfl⟩,_,_,⟨rfl,rfl⟩,_,_,⟨_,_,⟨range,rfl⟩,lists,rfl⟩,same,rfl⟩ := opened
  cases same
  obtain ⟨asset,rfl⟩ := read_primary_asset_ok asked
  have inside : from_ledger config told q.before.last_seen_ledger < 2 ^ 32 := by
    by_contra outside
    rw [if_neg outside] at range
    cases range
  have starts : from_ledger config told q.before.last_seen_ledger = start := by
    have begun := read.starts
    rw [begins,shown] at begun
    exact Option.some.inj begun
  have both := read.listed
  rw [← starts] at both
  exact ⟨Option.some.inj (lists.symm.trans both),starts,inside,asset,rfl⟩

/-- What a scan leaves of a user. -/
theorem scan_watched {stream : List Event} {past : List Scan} {q : Scan} {start latest tip : Nat} {page : List Event}
    {result : Nat × List Handled} (events : Stream text stream) (caught : Caught config text stream past q.before)
    (makes : Makes (fun s rpc => scan config rpc s) q) (read : Read config text stream q start latest tip page)
    (out : q.output = .ok result) (held : OnePerUser config visited q.before.positions)
    (alike : ∀ r ∈ scan_visits config q.input q.before, FiledAlike config r) (user : String) :
    (∃ event ∈ page, Tracks text event user ∧
      q.input.get_position event config.vault_contract_id user = some (q.after.watched user)) ∨
    (∀ event ∈ page, ¬ Tracks text event user) ∧ q.after.watched user = q.before.watched user := by
  have ran : scan config q.input q.before = (.ok result, q.after) := by
    rw [← out]
    exact makes
  rw [scan_opening,bind_ok] at ran
  obtain ⟨⟨told,listed⟩,u,opened,ran⟩ := ran
  obtain ⟨own_page,_⟩ := scan_opened opened
  rw [own_page] at alike
  simp only [bind_ok,change_ok,pure_ok] at ran
  obtain ⟨handled,t,scanned,_,_,rfl,_,after⟩ := ran
  obtain ⟨rfl,starts,inside,asset,rfl⟩ := opened_page read opened
  have distinct : listed.Pairwise (fun a b => a.id ≠ b.id) := by
    rw [read.lists]
    exact (((List.pairwise_map.mp events.distinct).filter _).filter _).take
  have fresh : ∀ event ∈ listed, event.id ∉ q.before.seen_event_ids := by
    intro event member
    obtain ⟨found,_,later⟩ := read.mem_stream member
    exact caught.fresh inside found (starts ▸ later)
  have tracks : ∀ event ∈ listed, ∃ user, Tracks text event user :=
    fun event member => events.tracked event (read.mem_stream member).1
  rw [← after]
  exact page_watched (s := { q.before with primary_asset := asset }) tracks fresh distinct scanned held alike user

end Watching

/-- In a vault with one asset every position is filed as the index has it. -/
theorem single_asset_alike {config : Config} {asset : String} {polls : List Rpc}
    (single : ∀ rpc ∈ polls, SingleAsset config asset rpc) : ∀ r ∈ visits config ScannerState.default polls, FiledAlike config r := by
  intro r member
  obtain ⟨past,rest,split⟩ := List.append_of_mem member
  exact filed_alike (visits_makes member) ((single_asset_files polls single).events past r rest split).single

/-! ### Scans while the chain moves on -/

/-- `RpcClient::get_position`: a position that the vault does not find is none. -/
def told_position {W : Type} (user : Address) (s : State W) : Option (Option Position) :=
  match s.own with
  | none => none
  | some own =>
    match (Vault.get_position user : Vault.Contract W Position) ⟨own,s.rest⟩ with
    | .ok (position, _) => some (some position)
    | .error (.error .PositionNotFound) => some none
    | .error _ => none

theorem told_position_some {W : Type} {user : Address} {c : Chain (State W)} {answer : Option Position}
    (told : told_position user c.state = some answer) : answer = (Vault.book c).positions.get user := by
  unfold told_position at told
  cases deployed : c.state.own with
  | none => simp [deployed] at told
  | some own =>
    have book : Vault.book c = own.book := by rw [Vault.book,deployed]
    rw [book]
    simp only [deployed] at told
    cases answered : (Vault.get_position user : Vault.Contract W Position) ⟨own,c.state.rest⟩ with
    | error e =>
      obtain ⟨missing,rfl⟩ := Vault.get_position_error.mp answered
      rw [answered] at told
      cases told
      exact missing.symm
    | ok r =>
      rw [answered] at told
      cases told
      exact (Vault.get_position_ok.mp answered).1.symm

/-- A scan of a run: what the server answers in it, and the times on the chain from
    the listing of its page to its last answer. -/
structure Poll where
  rpc : Rpc
  opens : Nat
  closes : Nat

/-- What the scanner is past, of the events from a ledger on. -/
def Passed (start : Nat) (s : ScannerState) (entry : Event × Address) : Prop :=
  start ≤ entry.1.ledger ∧ ∃ last, s.last_seen_ledger = some last ∧ entry.1.ledger ≤ last

section Mirror
variable {W : Type} (spelling : Spelling) (clients : Vault.Clients W) (vault : Address) (clock : Clock) (w : W)
  (calls : List (Origin × Action W)) (config : Config)

/-- A server of this vault: a page has the events of closed ledgers, and a position
    is the one that the vault has when it is asked for. -/
structure Honest (poll : Poll) : Prop where
  ordered : poll.opens ≤ poll.closes
  inside : poll.closes ≤ calls.length
  lists : ∀ latest, poll.rpc.latest_ledger = some latest → ∃ tip, latest ≤ tip ∧
    (∀ r ∈ trace (serve clients vault) (chainAt clients vault clock w calls poll.opens) (calls.drop poll.opens),
      tip < (Delivery.clock r).sequence) ∧
    ∀ start page, poll.rpc.get_events start config.vault_contract_id TRACKED_EVENTS EVENT_PAGE_LIMIT = some page →
      page = Pages.page Event.ledger start EVENT_PAGE_LIMIT
        ((streamAt spelling clients vault clock w calls poll.opens).filter (fun event => decide (event.ledger ≤ tip)))
  tells : ∀ event user answer,
    poll.rpc.get_position event config.vault_contract_id (spelling.text user) = some answer →
      ∃ n, poll.opens ≤ n ∧ n ≤ poll.closes ∧
        told_position user (chainAt clients vault clock w calls n).state = some answer

/-- What the scanner has between two scans of a run. -/
structure Mirrored (past : List Scan) (visited : List Visit) (n : Nat) (s : ScannerState) : Prop where
  caught : Caught config spelling.text (streamAt spelling clients vault clock w calls calls.length) past s
  held : OnePerUser config visited s.positions
  named : ∀ tracked ∈ s.positions, ∃ user, tracked.key.user = spelling.text user
  behind : ∀ last, s.last_seen_ledger = some last →
    ∀ entry ∈ (feed spelling clients vault clock w calls).between n calls.length, last < entry.1.ledger
  current : ∀ start, (∀ first ∈ past.head?, begins config first = some start) →
    Changelog.Current (feed spelling clients vault clock w calls) n (Passed start s)
      (fun user => s.watched (spelling.text user))

variable {spelling clients vault clock w calls config}

/-- What is logged after a time is the event of a call after it. -/
theorem between_calls {n : Nat} (inside : n ≤ calls.length) {entry : Event × Address}
    (member : entry ∈ (feed spelling clients vault clock w calls).between n calls.length) :
    ∃ r ∈ trace (serve clients vault) (chainAt clients vault clock w calls n) (calls.drop n),
      entry.1.ledger = (Delivery.clock r).sequence := by
  have later : callsBetween calls n calls.length = calls.drop n := by rw [callsBetween,List.take_length]
  have whole : (feed spelling clients vault clock w calls).log calls.length =
      (feed spelling clients vault clock w calls).log n ++ _ := log_between spelling inside
  rw [Changelog.Feed.between,whole,List.drop_left,later] at member
  obtain ⟨⟨r,number⟩,numbered,shown⟩ := List.mem_filterMap.mp member
  exact ⟨r,List.fst_mem_of_mem_zipIdx numbered,(listed_some shown).2.2⟩

namespace Honest
variable {poll : Poll}

/-- The whole stream up to a closed ledger is what was published by then. -/
theorem closed (honest : Honest spelling clients vault clock w calls config poll) {tip : Nat}
    (after : ∀ r ∈ trace (serve clients vault) (chainAt clients vault clock w calls poll.opens) (calls.drop poll.opens),
      tip < (Delivery.clock r).sequence) :
    (streamAt spelling clients vault clock w calls calls.length).filter (fun event => decide (event.ledger ≤ tip)) =
      (streamAt spelling clients vault clock w calls poll.opens).filter (fun event => decide (event.ledger ≤ tip)) := by
  have inside := Nat.le_trans honest.ordered honest.inside
  rw [streamAt,streamAt,Changelog.Feed.log_between inside,List.map_append,List.filter_append]
  have later : ((Changelog.Feed.between (feed spelling clients vault clock w calls) poll.opens calls.length).map
      Prod.fst).filter (fun event => decide (event.ledger ≤ tip)) = [] := by
    rw [List.filter_eq_nil_iff]
    intro event member
    obtain ⟨entry,logged,rfl⟩ := List.mem_map.mp member
    obtain ⟨r,served,ledger⟩ := between_calls inside logged
    have above := after r served
    simp only [decide_eq_true_eq]
    omega
  rw [later,List.append_nil]

theorem serves (honest : Honest spelling clients vault clock w calls config poll) :
    Serves config (streamAt spelling clients vault clock w calls calls.length) poll.rpc := by
  intro latest told
  obtain ⟨tip,closed,after,lists⟩ := honest.lists latest told
  refine ⟨tip,closed,?_⟩
  intro start page listed
  rw [honest.closed after]
  exact lists start page listed

/-- A page that has room for everything stops inside no ledger. -/
theorem whole (honest : Honest spelling clients vault clock w calls config poll)
    (short : (streamAt spelling clients vault clock w calls calls.length).length ≤ EVENT_PAGE_LIMIT) {q : Scan}
    (asked : q.input = poll.rpc) :
    TakesWholeLedgers config (streamAt spelling clients vault clock w calls calls.length) q := by
  intro start page begun listed
  obtain ⟨latest,told,_⟩ := Option.map_eq_some_iff.mp begun
  rw [asked] at told listed
  obtain ⟨tip,_,after,lists⟩ := honest.lists latest told
  have same := lists start page listed
  rw [← honest.closed after] at same
  subst same
  intro last ends event member same
  have shown := (List.mem_filter.mp (Pages.mem_of_mem_page (List.mem_of_getLast? ends)).1).2
  have visible : event ∈ (streamAt spelling clients vault clock w calls calls.length).filter
      (fun event => decide (event.ledger ≤ tip)) :=
    List.mem_filter.mpr ⟨member,by rw [same]; exact shown⟩
  exact Pages.whole_of_short (Nat.le_trans (List.length_filter_le _ _) short) last ends event visible same

end Honest

variable {past : List Scan} {visited : List Visit} {n : Nat} {q : Scan} {poll : Poll} {start latest tip : Nat}
  {page : List Event}

/-- A page lists what was published by the time of its listing. -/
theorem page_logged (honest : Honest spelling clients vault clock w calls config poll) (asked : q.input = poll.rpc)
    (read : Read config spelling.text (streamAt spelling clients vault clock w calls calls.length) q start latest tip page) :
    ∀ event ∈ page, ∃ user, (event,user) ∈ (feed spelling clients vault clock w calls).log poll.opens := by
  intro event member
  obtain ⟨told,shown,_⟩ := Option.map_eq_some_iff.mp read.starts
  rw [asked] at shown
  obtain ⟨_,_,_,lists⟩ := honest.lists told shown
  have listed := read.listed
  rw [asked] at listed
  rw [lists start page listed] at member
  exact mem_streamAt.mp (List.mem_filter.mp (Pages.mem_of_mem_page member).1).1

/-- What is published after the listing of a page is behind the cursor that the scan
    leaves. -/
theorem cursor_behind (mirrored : Mirrored spelling clients vault clock w calls config past visited n q.before)
    (honest : Honest spelling clients vault clock w calls config poll) (asked : q.input = poll.rpc)
    (later : n ≤ poll.opens) (makes : Makes (fun s rpc => scan config rpc s) q) {result : Nat × List Handled}
    (out : q.output = .ok result) {last : Nat} (seen : q.after.last_seen_ledger = some last) :
    ∀ entry ∈ (feed spelling clients vault clock w calls).between poll.opens calls.length, last < entry.1.ledger := by
  intro entry logged
  have inside := Nat.le_trans honest.ordered honest.inside
  obtain ⟨start,latest,tip,page,read⟩ := read_of_makes (streamAt_stream _) mirrored.caught makes
    (asked ▸ honest.serves) out
  have ran : scan config q.input q.before = (.ok result, q.after) := by
    rw [← out]
    exact makes
  obtain ⟨asset,told,listed,u,shown,_,lists,scanned,after⟩ := scan_ok ran
  rw [asked] at shown
  obtain ⟨bound,below,closed,honest_lists⟩ := honest.lists told shown
  obtain ⟨r,served,ledger⟩ := between_calls inside logged
  have above := closed r served
  have moved := read.moved
  rw [seen] at moved
  cases ends : page.getLast? with
  | some final =>
    rw [ends,Option.map_some,Option.some_or,Option.some_or] at moved
    cases moved
    have member := List.mem_of_getLast? ends
    have page_listed := read.listed
    rw [asked] at page_listed
    rw [honest_lists start page page_listed] at member
    have visible := (List.mem_filter.mp (Pages.mem_of_mem_page member).1).2
    simp only [decide_eq_true_eq] at visible
    omega
  | none =>
    rw [ends,Option.map_none,Option.none_or] at moved
    cases before : q.before.last_seen_ledger with
    | some earlier =>
      rw [before,Option.some_or] at moved
      cases moved
      exact mirrored.behind last before entry (Changelog.Feed.between_of_later later inside logged)
    | none =>
      -- the page is empty, so the cursor moves to the ledger that was told
      have empty : listed = [] := by
        have starts := read.starts
        rw [begins,asked,shown,Option.map_some] at starts
        have same := read.listed
        rw [← Option.some.inj starts] at same
        rw [Option.some.inj (lists.symm.trans same)]
        exact List.getLast?_eq_none_iff.mp ends
      rw [empty] at scanned
      simp only [scan_events,pure_ok] at scanned
      rw [after,← scanned.2,before,Option.none_or] at seen
      cases seen
      omega

/-- The events that a scan comes to are of its page. -/
theorem scan_visits_input {r : Visit} {stream : List Event}
    (read : Read config spelling.text stream q start latest tip page) (member : r ∈ scan_visits config q.input q.before) :
    r.input.2 ∈ page := by
  rcases opened : opening config q.input q.before with ⟨error | ⟨told,listed⟩,u⟩
  · rw [(scan_unopened opened).1] at member
    cases member
  · rw [(scan_opened opened).1] at member
    obtain ⟨rfl,_⟩ := opened_page read opened
    exact page_visits_input member

/-- An event about a user of the vault files positions of users of the vault. -/
theorem visit_named {r : Visit} (logged : ∀ event ∈ page, ∃ user, Tracks spelling.text event (spelling.text user))
    (member : r.input.2 ∈ page) (makes : Makes (visit config) r)
    (named : ∀ tracked ∈ r.before.positions, ∃ user, tracked.key.user = spelling.text user) :
    ∀ tracked ∈ r.after.positions, ∃ user, tracked.key.user = spelling.text user := by
  rcases visit_effect makes with ⟨user,asset,answer,fetched,index⟩ | ⟨_,same⟩
  · rw [index]
    cases answer with
    | none => exact fun tracked kept => named tracked (List.mem_filter.mp kept).1
    | some position =>
      refine List.forall_mem_append.mpr ⟨fun tracked kept => named tracked (List.mem_filter.mp kept).1,?_⟩
      refine List.forall_mem_singleton.mpr ?_
      obtain ⟨own,tracks⟩ := logged r.input.2 member
      obtain ⟨name,names⟩ := tracks_names tracks
      obtain ⟨name',names',_⟩ := fetched.names
      rw [names] at names'
      cases names'
      exact ⟨own,rfl⟩
  · rw [same]
    exact named

/-- A scan keeps the index a mirror of the vault, while the chain moves on. -/
theorem Mirrored.polled (mirrored : Mirrored spelling clients vault clock w calls config past visited n q.before)
    (honest : Honest spelling clients vault clock w calls config poll) (asked : q.input = poll.rpc)
    (later : n ≤ poll.opens) (makes : Makes (fun s rpc => scan config rpc s) q) {result : Nat × List Handled}
    (out : q.output = .ok result)
    (whole : TakesWholeLedgers config (streamAt spelling clients vault clock w calls calls.length) q)
    (alike : ∀ r ∈ scan_visits config q.input q.before, FiledAlike config r) :
    Mirrored spelling clients vault clock w calls config (past ++ [q])
      (visited ++ scan_visits config q.input q.before) poll.closes q.after := by
  have events : Stream spelling.text (streamAt spelling clients vault clock w calls calls.length) := streamAt_stream _
  obtain ⟨start,latest,tip,page,read⟩ := read_of_makes events mirrored.caught makes (asked ▸ honest.serves) out
  have ahead : ∀ last, q.after.last_seen_ledger = some last →
      ∀ entry ∈ (feed spelling clients vault clock w calls).between poll.opens calls.length, last < entry.1.ledger :=
    fun last seen => cursor_behind mirrored honest asked later makes out seen
  have left : (scan config q.input q.before).2 = q.after := congrArg Prod.snd makes
  refine ⟨mirrored.caught.scan events read whole,?_,?_,?_,?_⟩
  · have through := scan_history config q.input q.before (OnePerUser config) visited mirrored.held
      (fun past r member makes held => held.step makes (alike r member))
    rwa [left] at through
  · have through := scan_history config q.input q.before
      (fun _ positions => ∀ tracked ∈ positions, ∃ user, tracked.key.user = spelling.text user) visited mirrored.named
      (fun past r member makes named => visit_named (fun event inside => by
        obtain ⟨user,logged⟩ := page_logged honest asked read event inside
        exact ⟨user,logged_tracks logged⟩) (scan_visits_input read member) makes named)
    rwa [left] at through
  · intro last seen entry member
    exact ahead last seen entry (Changelog.Feed.between_of_later honest.ordered honest.inside member)
  · intro from_start begun
    have opened := (mirrored.current from_start (fun first head => begun first (by
      obtain ⟨_,rfl⟩ := List.head?_eq_some_iff.mp head
      rfl))).wait later (by
        rintro entry member ⟨_,last,seen,below⟩
        have above := mirrored.behind last seen entry (Changelog.Feed.between_of_earlier later
          (Nat.le_trans honest.ordered honest.inside) member)
        omega)
    have scanned := scan_watched events mirrored.caught makes read out mirrored.held alike
    refine opened.refresh honest.ordered ?_ ?_ ?_
    · rintro entry member ⟨_,last,seen,below⟩
      have above := ahead last seen entry (Changelog.Feed.between_of_earlier honest.ordered honest.inside member)
      omega
    · rintro ⟨event,user⟩ member ⟨from_begin,last,seen,below⟩ unread
      have new : start ≤ event.ledger := by
        cases before : q.before.last_seen_ledger with
        | some earlier =>
          have next := read.behind earlier before
          have not_below : ¬ event.ledger ≤ earlier := fun low => unread ⟨from_begin,earlier,before,low⟩
          omega
        | none =>
          have nothing := mirrored.caught.started before
          subst nothing
          have same := (begun q rfl).symm.trans read.starts
          cases same
          exact from_begin
      have found : event ∈ streamAt spelling clients vault clock w calls calls.length := by
        obtain ⟨rest,grown⟩ := (feed spelling clients vault clock w calls).grows
          (Nat.le_trans honest.ordered honest.inside)
        exact mem_streamAt.mpr ⟨user,grown ▸ List.mem_append_left _ member⟩
      have listed := read.mem_page events whole found new seen below
      rcases scanned (spelling.text user) with ⟨other,_,_,told⟩ | ⟨nothing,_⟩
      · rw [asked] at told
        obtain ⟨n,first,last,answer⟩ := honest.tells other user _ told
        exact ⟨n,first,last,told_position_some answer⟩
      · exact absurd (logged_tracks member) (nothing event listed)
    · intro user all
      rcases scanned (spelling.text user) with ⟨event,listed,names,_⟩ | ⟨_,same⟩
      · obtain ⟨own,logged⟩ := page_logged honest asked read event listed
        have one : own = user := spelling.text_injective (tracks_unique (logged_tracks logged) names)
        subst one
        obtain ⟨_,earlier,before,below⟩ := all _ logged rfl
        have next := read.behind earlier before
        have new := (read.mem_stream listed).2.2
        exact absurd (Nat.le_trans new below) (by omega)
      · exact same

/-! ### Runs of scans -/

/-- The scanner before its first scan, and before the vault has done anything. -/
theorem Mirrored.nothing : Mirrored spelling clients vault clock w calls config [] [] 0 ScannerState.default := by
  refine ⟨Caught.nothing,⟨.nil,by simp [ScannerState.default]⟩,by simp [ScannerState.default],?_,?_⟩
  · intro last seen
    cases seen
  · intro _ _ user _
    show (none : Option Position) = (Store.get Store.empty user : Option Position)
    rw [Store.get_empty]

/-- The scans of a run are made one after the other, each by an honest server, with
    success and without stopping inside a ledger, and every position is filed as the
    index has it. -/
structure Scanned (spelling : Spelling) (clients : Vault.Clients W) (vault : Address) (clock : Clock) (w : W)
    (calls : List (Origin × Action W)) (config : Config) (s : ScannerState) (polls : List Poll) : Prop where
  honest : ∀ poll ∈ polls, Honest spelling clients vault clock w calls config poll
  ordered : polls.Pairwise (fun earlier later => earlier.closes ≤ later.opens)
  succeed : ∀ q ∈ trace (fun s rpc => scan config rpc s) s (polls.map Poll.rpc), ∃ result, q.output = .ok result
  whole : ∀ q ∈ trace (fun s rpc => scan config rpc s) s (polls.map Poll.rpc),
    TakesWholeLedgers config (streamAt spelling clients vault clock w calls calls.length) q
  alike : ∀ r ∈ visits config s (polls.map Poll.rpc), FiledAlike config r

/-- What every such scan extends holds after a run of them. -/
theorem Scanned.history {polls : List Poll} {s : ScannerState}
    (scanned : Scanned spelling clients vault clock w calls config s polls)
    (keeps : List Scan → List Visit → Nat → ScannerState → Prop) (start : keeps past visited n s)
    (later : ∀ poll ∈ polls, n ≤ poll.opens)
    (extend : ∀ poll ∈ polls, Honest spelling clients vault clock w calls config poll → ∀ past visited n q,
      keeps past visited n q.before → q.input = poll.rpc → n ≤ poll.opens → Makes (fun s rpc => scan config rpc s) q →
      (∃ result, q.output = .ok result) →
      TakesWholeLedgers config (streamAt spelling clients vault clock w calls calls.length) q →
      (∀ r ∈ scan_visits config q.input q.before, FiledAlike config r) →
      keeps (past ++ [q]) (visited ++ scan_visits config q.input q.before) poll.closes q.after) :
    ∃ m, (∀ t, n ≤ t → (∀ poll ∈ polls, poll.closes ≤ t) → m ≤ t) ∧
      keeps (past ++ trace (fun s rpc => scan config rpc s) s (polls.map Poll.rpc))
        (visited ++ visits config s (polls.map Poll.rpc)) m
        (run (fun s rpc => scan config rpc s) s (polls.map Poll.rpc)) := by
  induction polls generalizing s past visited n with
  | nil => exact ⟨n,fun t after _ => after,by simpa [trace,visits,run] using start⟩
  | cons poll rest ih =>
    obtain ⟨first_honest,rest_honest⟩ := List.forall_mem_cons.mp scanned.honest
    obtain ⟨first_ordered,rest_ordered⟩ := List.pairwise_cons.mp scanned.ordered
    have succeed := scanned.succeed
    have whole := scanned.whole
    have alike := scanned.alike
    rw [List.map_cons,trace] at succeed whole
    rw [List.map_cons,visits] at alike
    obtain ⟨first_succeeds,rest_succeed⟩ := List.forall_mem_cons.mp succeed
    obtain ⟨first_whole,rest_whole⟩ := List.forall_mem_cons.mp whole
    obtain ⟨first_alike,rest_alike⟩ := List.forall_mem_append.mp alike
    have moved := extend poll List.mem_cons_self first_honest past visited n _ start rfl (later poll List.mem_cons_self)
      (transition_makes s poll.rpc) first_succeeds first_whole first_alike
    obtain ⟨m,ends,kept⟩ := ih ⟨rest_honest,rest_ordered,rest_succeed,rest_whole,rest_alike⟩ moved first_ordered
      (fun other member => extend other (List.mem_cons_of_mem _ member))
    refine ⟨m,?_,?_⟩
    · intro t _ closed
      exact ends t (closed poll List.mem_cons_self) (fun other member => closed other (List.mem_cons_of_mem _ member))
    · rw [List.map_cons,trace,visits,run,← List.append_assoc,List.append_cons]
      exact kept

/-- A run of scans keeps the index a mirror. -/
theorem Scanned.mirrored {polls : List Poll}
    (scanned : Scanned spelling clients vault clock w calls config ScannerState.default polls) :
    ∃ m, (∀ t, (∀ poll ∈ polls, poll.closes ≤ t) → m ≤ t) ∧
      Mirrored spelling clients vault clock w calls config
        (trace (fun s rpc => scan config rpc s) ScannerState.default (polls.map Poll.rpc))
        (visits config ScannerState.default (polls.map Poll.rpc)) m
        (run (fun s rpc => scan config rpc s) ScannerState.default (polls.map Poll.rpc)) := by
  obtain ⟨m,ends,kept⟩ := scanned.history (Mirrored spelling clients vault clock w calls config) Mirrored.nothing
    (fun _ _ => Nat.zero_le _) (by
      rintro poll _ honest past visited n q mirrored asked later makes ⟨result,out⟩ whole alike
      exact mirrored.polled honest asked later makes out whole alike)
  exact ⟨m,fun t closed => ends t (Nat.zero_le t) closed,kept⟩

/-- The entries that the index has for a user, with one at most. -/
theorem entries_of_single {positions : List TrackedPosition} (single : positions.Pairwise (fun a b => a.key.user ≠ b.key.user))
    (user : String) : (positions.filter (fun tracked => tracked.key.user = user)).map TrackedPosition.position =
      ((positions.find? (fun tracked => tracked.key.user = user)).map TrackedPosition.position).toList := by
  induction positions with
  | nil => rfl
  | cons tracked rest ih =>
    obtain ⟨different,single_rest⟩ := List.pairwise_cons.mp single
    by_cases own : tracked.key.user = user
    · have others : rest.filter (fun other => decide (other.key.user = user)) = [] := by
        rw [List.filter_eq_nil_iff]
        intro other member same
        exact different other member (own.trans (of_decide_eq_true same).symm)
      rw [List.filter_cons_of_pos (by simpa using own),List.find?_cons_of_pos (by simpa using own),others]
      rfl
    · rw [List.filter_cons_of_neg (by simpa using own),List.find?_cons_of_neg (by simpa using own)]
      exact ih single_rest

/-- What the index has for a user of whom the scanner is past every event. -/
theorem Mirrored.shows {s : ScannerState} {m : Nat} (mirrored : Mirrored spelling clients vault clock w calls config past visited m s)
    (later : m ≤ n) (inside : n ≤ calls.length) (begun : ∀ first ∈ past.head?, begins config first = some start)
    {user : Address} (past_events : ∀ event, (event,user) ∈ events spelling (pastAt clients vault clock w calls n) →
      Passed start s (event,user)) :
    (s.positions.filter (fun tracked => tracked.key.user = spelling.text user)).map TrackedPosition.position =
      ((Vault.book (chainAt clients vault clock w calls n)).positions.get user).toList := by
  have current := (mirrored.current start begun).wait later (by
    rintro entry member ⟨_,last,seen,below⟩
    have above := mirrored.behind last seen entry (Changelog.Feed.between_of_earlier later inside member)
    omega)
  have shown := current user (by
    rintro ⟨event,own⟩ member rfl
    exact past_events event member)
  rw [entries_of_single mirrored.held.single]
  exact congrArg Option.toList shown

/-- The events that the cursor has not passed. -/
def unread (s : ScannerState) (stream : List Event) : List Event :=
  stream.filter (fun event => match s.last_seen_ledger with
    | some last => decide (last < event.ledger)
    | none => true)

theorem unread_nil {s : ScannerState} {stream : List Event} (nothing : unread s stream = []) :
    ∀ event ∈ stream, ∃ last, s.last_seen_ledger = some last ∧ event.ledger ≤ last := by
  intro event member
  have passed := List.filter_eq_nil_iff.mp nothing event member
  cases seen : s.last_seen_ledger with
  | some last =>
    rw [seen] at passed
    simp only [decide_eq_true_eq] at passed
    exact ⟨last,rfl,by omega⟩
  | none =>
    rw [seen] at passed
    exact absurd rfl passed

/-- A page of everything that there is takes so many events, or all of them. -/
theorem read_unread {stream : List Event} (read : Read config spelling.text stream q start latest tip page)
    (events : Stream spelling.text stream) (lists : page = Pages.page Event.ledger start EVENT_PAGE_LIMIT stream)
    (from_begin : q.before.last_seen_ledger = none → ∀ event ∈ stream, start ≤ event.ledger) :
    (unread q.after stream).length ≤ (unread q.before stream).length - EVENT_PAGE_LIMIT := by
  have before : unread q.before stream = stream.filter (fun event => decide (start ≤ event.ledger)) := by
    refine List.filter_congr (fun event member => ?_)
    cases seen : q.before.last_seen_ledger with
    | some last => simp only [read.behind last seen,Nat.succ_le_iff]
    | none => exact (decide_eq_true (from_begin seen event member)).symm
  have moved := read.moved
  cases ends : page.getLast? with
  | some final =>
    rw [ends,Option.map_some,Option.some_or,Option.some_or] at moved
    rw [before,unread,moved]
    rw [lists] at ends
    exact Pages.behind_page events.sorted ends
  | none =>
    have empty := List.getLast?_eq_none_iff.mp ends
    have low : ∀ event ∈ stream, event.ledger < start := by
      intro event member
      exact Pages.page_empty (by decide) (lists.symm.trans empty) member
    have nothing : unread q.after stream = [] := by
      refine List.filter_eq_nil_iff.mpr (fun event member => ?_)
      have below := low event member
      cases seen : q.before.last_seen_ledger with
      | some last =>
        have next := read.behind last seen
        rw [ends,seen,Option.map_none,Option.none_or,Option.some_or] at moved
        simp only [moved,decide_eq_true_eq]
        omega
      | none =>
        have above := from_begin seen event member
        omega
    rw [nothing]
    exact Nat.zero_le _

/-- The two parts of a run. -/
theorem Scanned.append {earlier later : List Poll} {s : ScannerState}
    (scanned : Scanned spelling clients vault clock w calls config s (earlier ++ later)) :
    Scanned spelling clients vault clock w calls config s earlier ∧
      Scanned spelling clients vault clock w calls config
        (run (fun s rpc => scan config rpc s) s (earlier.map Poll.rpc)) later ∧
      ∀ poll ∈ earlier, ∀ after ∈ later, poll.closes ≤ after.opens := by
  obtain ⟨honest,ordered,succeed,whole,alike⟩ := scanned
  rw [List.map_append,trace_append] at succeed whole
  rw [List.map_append,visits_append] at alike
  obtain ⟨ordered_earlier,ordered_later,between⟩ := List.pairwise_append.mp ordered
  obtain ⟨honest_earlier,honest_later⟩ := List.forall_mem_append.mp honest
  obtain ⟨succeed_earlier,succeed_later⟩ := List.forall_mem_append.mp succeed
  obtain ⟨whole_earlier,whole_later⟩ := List.forall_mem_append.mp whole
  obtain ⟨alike_earlier,alike_later⟩ := List.forall_mem_append.mp alike
  exact ⟨⟨honest_earlier,ordered_earlier,succeed_earlier,whole_earlier,alike_earlier⟩,
    ⟨honest_later,ordered_later,succeed_later,whole_later,alike_later⟩,between⟩

/-- What is left by scans that began at a ledger: at most what was left by the first
    of them, less a page for each scan since. -/
structure Left (config : Config) (stream : List Event) (start total first : Nat) (past : List Scan) (s : ScannerState) :
    Prop where
  since : first ≤ past.length
  bound : (∀ q ∈ past.head?, begins config q = some start) →
    (unread s stream).length ≤ total - EVENT_PAGE_LIMIT * (past.length - first)

/-- A scan of a quiet vault takes a page of what is left. -/
theorem Left.polled {total first : Nat}
    (left : Left config (streamAt spelling clients vault clock w calls calls.length) start total first past q.before)
    (mirrored : Mirrored spelling clients vault clock w calls config past visited n q.before)
    (honest : Honest spelling clients vault clock w calls config poll) (asked : q.input = poll.rpc)
    (makes : Makes (fun s rpc => scan config rpc s) q) {result : Nat × List Handled} (out : q.output = .ok result)
    (from_begin : ∀ event ∈ streamAt spelling clients vault clock w calls calls.length, start ≤ event.ledger)
    (quiet : streamAt spelling clients vault clock w calls poll.opens =
      streamAt spelling clients vault clock w calls calls.length)
    (closed : ∀ latest, poll.rpc.latest_ledger = some latest →
      ∀ event ∈ streamAt spelling clients vault clock w calls calls.length, event.ledger ≤ latest) :
    Left config (streamAt spelling clients vault clock w calls calls.length) start total first (past ++ [q]) q.after := by
  have longer : (past ++ [q]).length = past.length + 1 := by simp
  refine ⟨by rw [longer]; exact Nat.le_succ_of_le left.since,fun begun => ?_⟩
  obtain ⟨begin,latest,tip,page,read⟩ := read_of_makes (streamAt_stream _) mirrored.caught makes
    (asked ▸ honest.serves) out
  -- the server lists everything that there is
  have lists : page = Pages.page Event.ledger begin EVENT_PAGE_LIMIT
      (streamAt spelling clients vault clock w calls calls.length) := by
    obtain ⟨told,shown,_⟩ := Option.map_eq_some_iff.mp read.starts
    rw [asked] at shown
    obtain ⟨bound,below,_,listing⟩ := honest.lists told shown
    have listed := read.listed
    rw [asked] at listed
    have everything : (streamAt spelling clients vault clock w calls calls.length).filter
        (fun event => decide (event.ledger ≤ bound)) = streamAt spelling clients vault clock w calls calls.length := by
      refine List.filter_eq_self.mpr (fun event member => decide_eq_true ?_)
      exact Nat.le_trans (closed told shown event member) below
    rw [listing begin page listed,quiet,everything]
  have first_begins : q.before.last_seen_ledger = none →
      ∀ event ∈ streamAt spelling clients vault clock w calls calls.length, begin ≤ event.ledger := by
    intro none_seen event member
    have nothing := mirrored.caught.started none_seen
    subst nothing
    have same := (begun q rfl).symm.trans read.starts
    cases same
    exact from_begin event member
  have earlier := left.bound (fun first head => begun first (by
    obtain ⟨_,rfl⟩ := List.head?_eq_some_iff.mp head
    rfl))
  have taken := read_unread read (streamAt_stream _) lists first_begins
  have since := left.since
  rw [longer,Nat.succ_sub since,Nat.mul_succ]
  omega

/-- The index has the positions of a vault: one entry for each user with a position,
    and no other. -/
structure Mirrors (spelling : Spelling) (index : List TrackedPosition) (stored : Store Address Position) : Prop where
  single : index.Pairwise (fun a b => a.key.user ≠ b.key.user)
  every : ∀ user position, stored.get user = some position →
    ∃ tracked ∈ index, tracked.key.user = spelling.text user ∧ tracked.position = position
  only : ∀ tracked ∈ index, ∃ user, tracked.key.user = spelling.text user ∧ stored.get user = some tracked.position

theorem Mirrored.mirrors {s : ScannerState} {m : Nat}
    (mirrored : Mirrored spelling clients vault clock w calls config past visited m s) (later : m ≤ n)
    (inside : n ≤ calls.length) (begun : ∀ first ∈ past.head?, begins config first = some start)
    (past_events : ∀ entry ∈ events spelling (pastAt clients vault clock w calls n), Passed start s entry) :
    Mirrors spelling s.positions (Vault.book (chainAt clients vault clock w calls n)).positions := by
  have shows (user : Address) := mirrored.shows later inside begun
    (fun event (member : (event,user) ∈ events spelling (pastAt clients vault clock w calls n)) => past_events _ member)
  refine ⟨mirrored.held.single,?_,?_⟩
  · intro user position found
    have entry : position ∈ (s.positions.filter (fun tracked => tracked.key.user = spelling.text user)).map
        TrackedPosition.position := by
      rw [shows user,found]
      exact List.mem_singleton_self position
    obtain ⟨tracked,kept,same⟩ := List.mem_map.mp entry
    obtain ⟨member,own⟩ := List.mem_filter.mp kept
    exact ⟨tracked,member,of_decide_eq_true own,same⟩
  · intro tracked member
    obtain ⟨user,own⟩ := mirrored.named tracked member
    have entry : tracked.position ∈ (s.positions.filter (fun tracked => tracked.key.user = spelling.text user)).map
        TrackedPosition.position := List.mem_map_of_mem (List.mem_filter.mpr ⟨member,decide_eq_true own⟩)
    rw [shows user,Option.mem_toList] at entry
    exact ⟨user,own,entry⟩

end Mirror

namespace Small

/-- Addresses spelled by their kind and their bytes, and events numbered in ones. -/
def spelling : Spelling where
  text
    | .account key => String.ofList ('G' :: key.val.map Char.ofUInt8)
    | .contract id => String.ofList ('C' :: id.val.map Char.ofUInt8)
  name number := String.ofList (List.replicate number '1')
  text_injective := by
    have bytes : Function.Injective Char.ofUInt8 := fun a b same => by
      have values := congrArg Char.val same
      exact UInt8.toUInt32_inj.mp values
    intro a b same
    cases a <;> cases b <;> simp only [String.ofList_inj,List.cons.injEq,Char.reduceEq,false_and,true_and] at same
    · exact congrArg Address.account (Subtype.ext (List.map_injective_iff.mpr bytes same))
    · exact congrArg Address.contract (Subtype.ext (List.map_injective_iff.mpr bytes same))
  name_injective a b same := by simpa using congrArg List.length (String.ofList_injective same)

/-- What the vault of the small chain has and lists after so many calls of the loan. -/
def loanAt (n : Nat) : Chain (State Vault.Small.Purse) :=
  chainAt Vault.Small.clients Vault.Small.vault ⟨0,0⟩ Vault.Small.purse Vault.Small.loan n

def loanStream (n : Nat) : List Event :=
  streamAt spelling Vault.Small.clients Vault.Small.vault ⟨0,0⟩ Vault.Small.purse Vault.Small.loan n

/-- A server of the loan that tells the latest ledger when a scan opens, and the
    position that the user has when it closes. -/
def serving (opens closes : Nat) : Poll where
  rpc :=
    { read_supported_asset := fun _ => some (some (spelling.text Vault.Small.tokenA))
      latest_ledger := some opens
      get_events := fun start _ _ limit => some (Pages.page Event.ledger start limit
        ((loanStream opens).filter (fun event => decide (event.ledger ≤ opens))))
      get_position := fun _ _ user =>
        if user = spelling.text Vault.Small.userA then told_position Vault.Small.userA (loanAt closes).state else none }
  opens := opens
  closes := closes

/-- Calls that come after a ledger. -/
def After (n : Nat) : Prop := ∀ r ∈ trace (serve Vault.Small.clients Vault.Small.vault) (loanAt n) (Vault.Small.loan.drop n),
  n < (Delivery.clock r).sequence

instance (n : Nat) : Decidable (After n) := inferInstanceAs (Decidable (∀ r ∈ _, _))

theorem serving_honest {opens closes : Nat} (ordered : opens ≤ closes) (inside : closes ≤ 5) (after : After opens) :
    Honest spelling Vault.Small.clients Vault.Small.vault ⟨0,0⟩ Vault.Small.purse Vault.Small.loan config
      (serving opens closes) where
  ordered := ordered
  inside := inside
  lists := by
    intro latest told
    cases told
    refine ⟨opens,Nat.le_refl _,after,?_⟩
    intro start page listed
    cases listed
    rfl
  tells := by
    intro event user answer told
    refine ⟨closes,ordered,Nat.le_refl _,?_⟩
    simp only [serving] at told
    split at told
    · rename_i same
      rw [spelling.text_injective same]
      exact told
    · cases told

/-- Scans of the loan: in the first one the user borrows after the page was listed. -/
def loanPolls : List Poll := [serving 3 4,serving 4 4]

theorem serving_single (opens closes : Nat) (listed : ∀ event ∈ loanStream opens, ∀ deposited rest,
    event.value = .vec (.address deposited :: rest) → deposited = spelling.text Vault.Small.tokenA) :
    SingleAsset config (spelling.text Vault.Small.tokenA) (serving opens closes).rpc where
  primary := by
    intro answer told
    cases told
    rfl
  deposits := by
    intro start page shown event member
    cases shown
    exact listed event (List.mem_filter.mp (Pages.mem_of_mem_page member).1).1

/-- The asset that a deposit tells. -/
def told_asset (event : Event) : Option String :=
  match event.value with
  | .vec (.address asset :: _) => some asset
  | _ => none

theorem single_of_told {n : Nat} (told : ∀ event ∈ loanStream n, ∀ asset ∈ told_asset event,
    asset = spelling.text Vault.Small.tokenA) : ∀ event ∈ loanStream n, ∀ deposited rest,
    event.value = .vec (.address deposited :: rest) → deposited = spelling.text Vault.Small.tokenA := by
  intro event member deposited rest value
  exact told event member deposited (by rw [told_asset,value]; rfl)

theorem loan_scanned : Scanned spelling Vault.Small.clients Vault.Small.vault ⟨0,0⟩ Vault.Small.purse Vault.Small.loan
    config ScannerState.default (loanPolls ++ [serving 5 5]) where
  honest := by
    simp only [loanPolls,List.cons_append,List.nil_append,List.forall_mem_cons,List.not_mem_nil,false_imp_iff,
      implies_true,and_true]
    exact ⟨serving_honest (by decide) (by decide) (by decide +kernel),
      serving_honest (by decide) (by decide) (by decide +kernel),serving_honest (by decide) (by decide) (by decide +kernel)⟩
  ordered := by simp [loanPolls,serving]
  succeed := by
    have answered : ∀ q ∈ trace (fun s rpc => scan config rpc s) ScannerState.default
        ((loanPolls ++ [serving 5 5]).map Poll.rpc), q.output.isOk = true := by decide +kernel
    intro q member
    have ok := answered q member
    cases out : q.output with
    | error e => simp [out,Except.isOk,Except.toBool] at ok
    | ok result => exact ⟨result,rfl⟩
  whole := by
    intro q member
    have asked := trace_input member
    simp only [loanPolls,List.cons_append,List.nil_append,List.map_cons,List.map_nil,List.mem_cons,List.not_mem_nil,
      or_false] at asked
    have short : (loanStream 5).length ≤ EVENT_PAGE_LIMIT := by decide +kernel
    rcases asked with asked | asked | asked
    · exact (serving_honest (by decide) (by decide) (by decide +kernel)).whole short asked
    · exact (serving_honest (by decide) (by decide) (by decide +kernel)).whole short asked
    · exact (serving_honest (by decide) (by decide) (by decide +kernel)).whole short asked
  alike := by
    have single : ∀ rpc ∈ (loanPolls ++ [serving 5 5]).map Poll.rpc,
        SingleAsset config (spelling.text Vault.Small.tokenA) rpc := by
      simp only [loanPolls,List.cons_append,List.nil_append,List.map_cons,List.map_nil,List.forall_mem_cons,
        List.not_mem_nil,false_imp_iff,implies_true,and_true]
      exact ⟨serving_single 3 4 (single_of_told (by decide +kernel)),
        serving_single 4 4 (single_of_told (by decide +kernel)),serving_single 5 5 (single_of_told (by decide +kernel))⟩
    exact single_asset_alike single

end Small

end Helix.Bot
