import Helix.ScannerPages
import Helix.VaultDebt
import Helix.Changelog

/-!
The events of the vault as a log of its positions. With every change of a user's
position the vault publishes an event about the user (`position_announced`), so its
positions over time are a store with a log (`feed`), and what the server lists is
that log with the ledgers and the numbers of the events (`streamAt`).
-/
namespace Helix.Bot
open Process
open Vault (Position VaultEvent Served Action State serve)

/-! ### The events of the vault as a log of its positions -/

/-- How addresses are spelled and events are numbered: never two alike. -/
structure Spelling where
  text : Address → String
  name : Nat → String
  text_injective : Function.Injective text
  name_injective : Function.Injective name

section Log
variable {W : Type} (spelling : Spelling)

/-- What the server lists for a transition of the vault, and the user it is about. -/
def listed (number : Nat) (r : Served W) : Option (Event × Address) :=
  (Vault.published r).bind (fun published_event => (published_user published_event).map (fun user =>
    (⟨spelling.name number,r.clock.sequence,(published spelling.text published_event).1,
      (published spelling.text published_event).2⟩,user)))

/-- The events of a history of the vault. -/
def events (past : List (Served W)) : List (Event × Address) :=
  past.zipIdx.filterMap (fun numbered => listed spelling numbered.2 numbered.1)

variable {spelling} {past : List (Served W)}

theorem events_append (past later : List (Served W)) : events spelling (past ++ later) =
    events spelling past ++ (later.zipIdx past.length).filterMap (fun numbered => listed spelling numbered.2 numbered.1) := by
  rw [events,List.zipIdx_append,List.filterMap_append,Nat.zero_add]
  rfl

theorem mem_events {entry : Event × Address} : entry ∈ events spelling past ↔
    ∃ number r, past[number]? = some r ∧ listed spelling number r = some entry := by
  simp only [events,List.mem_filterMap,Prod.exists,List.mem_zipIdx_iff_getElem?]
  constructor
  · rintro ⟨r,number,found,shown⟩
    exact ⟨number,r,found,shown⟩
  · rintro ⟨number,r,found,shown⟩
    exact ⟨r,number,found,shown⟩

theorem listed_some {number : Nat} {r : Served W} {entry : Event × Address} (shown : listed spelling number r = some entry) :
    Tracks spelling.text entry.1 (spelling.text entry.2) ∧ entry.1.id = spelling.name number ∧
      entry.1.ledger = (Delivery.clock r).sequence := by
  obtain ⟨published_event,_,named⟩ := Option.bind_eq_some_iff.mp shown
  obtain ⟨user,names,rfl⟩ := Option.map_eq_some_iff.mp named
  exact ⟨⟨published_event,user,rfl,names,rfl⟩,rfl,rfl⟩

/-- The user that a transition of the vault publishes an event about. -/
def about (r : Served W) : Option Address := (Vault.published r).bind published_user

theorem about_listed {r : Served W} {user : Address} (told : about r = some user) (number : Nat) :
    ∃ event, listed spelling number r = some (event,user) := by
  obtain ⟨published_event,shown,names⟩ := Option.bind_eq_some_iff.mp told
  exact ⟨_,by rw [listed,shown,Option.bind_some,names]; rfl⟩

/-- A transition that publishes nothing about a user leaves the user's position. -/
theorem position_announced {r : Served W} {user : Address} (kept : Vault.Kept r) (quiet : about r ≠ some user) :
    (Vault.book r.after).positions.get user = (Vault.book r.before).positions.get user := by
  cases kept with
  | posted p posted _ moved _ =>
    obtain ⟨published_event,told,posting⟩ := Option.bind_eq_some_iff.mp posted
    have names : published_user published_event = some p.user := by
      cases published_event with
      | pause | unpause | config_update => cases posting
      | _ =>
        cases posting
        rfl
    have different : user ≠ p.user := by
      rintro rfl
      exact quiet (by rw [about,told,Option.bind_some,names])
    rw [moved,Vault.Book.post_other different]
  | idle _ _ same => rw [same]

end Log

section Feed
variable {W : Type} (spelling : Spelling) (clients : Vault.Clients W) (vault : Address) (clock : Clock) (w : W)
  (calls : List (Origin × Action W))

/-- The chain after so many calls. -/
def chainAt (n : Nat) : Chain (State W) := run (serve clients vault) (Vault.undeployed clock w) (calls.take n)
/-- What happened on it by then. -/
def pastAt (n : Nat) : List (Served W) := trace (serve clients vault) (Vault.undeployed clock w) (calls.take n)

/-- The calls of a run between two times. -/
def callsBetween (a b : Nat) : List (Origin × Action W) := (calls.take b).drop a

variable {calls}

theorem take_between {a b : Nat} (later : a ≤ b) : calls.take b = calls.take a ++ callsBetween calls a b := by
  have parts := List.take_append_drop a (calls.take b)
  rw [List.take_take,Nat.min_eq_left later] at parts
  exact parts.symm

variable {clients vault clock w}

theorem chainAt_between {a b : Nat} (later : a ≤ b) : chainAt clients vault clock w calls b =
    run (serve clients vault) (chainAt clients vault clock w calls a) (callsBetween calls a b) := by
  rw [chainAt,take_between later]
  exact run_append _ _ _

theorem pastAt_between {a b : Nat} (later : a ≤ b) : pastAt clients vault clock w calls b =
    pastAt clients vault clock w calls a ++
      trace (serve clients vault) (chainAt clients vault clock w calls a) (callsBetween calls a b) := by
  rw [pastAt,take_between later]
  exact trace_append _ _ _

theorem log_between {a b : Nat} (later : a ≤ b) :
    events spelling (pastAt clients vault clock w calls b) = events spelling (pastAt clients vault clock w calls a) ++
      ((trace (serve clients vault) (chainAt clients vault clock w calls a) (callsBetween calls a b)).zipIdx
        (pastAt clients vault clock w calls a).length).filterMap (fun numbered => listed spelling numbered.2 numbered.1) := by
  rw [pastAt_between later]
  exact events_append _ _

/-- A position that differs later was changed by a call that published an event. -/
theorem change_announced {a b : Nat} (later : a ≤ b) {user : Address}
    (changed : (Vault.book (chainAt clients vault clock w calls b)).positions.get user ≠
      (Vault.book (chainAt clients vault clock w calls a)).positions.get user) :
    ∃ r ∈ trace (serve clients vault) (chainAt clients vault clock w calls a) (callsBetween calls a b),
      about r = some user := by
  by_contra quiet
  apply changed
  rw [chainAt_between later]
  apply run_invariant (serve clients vault) (fun c => (Vault.book c).positions.get user =
    (Vault.book (chainAt clients vault clock w calls a)).positions.get user) _ rfl
  intro r member _ held
  have whole : r ∈ pastAt clients vault clock w calls b := by
    rw [pastAt_between later]
    exact List.mem_append_right _ member
  have kept := Vault.serve_kept clients vault clock w (calls.take b) r whole
  exact (position_announced kept (fun told => quiet ⟨r,member,told⟩)).trans held

variable (clients vault clock w calls)

/-- The positions of the vault over its calls, with its events for a log. -/
def feed : Changelog.Feed (Event × Address) Address (Option Position) where
  key := Prod.snd
  value n user := (Vault.book (chainAt clients vault clock w calls n)).positions.get user
  log n := events spelling (pastAt clients vault clock w calls n)
  grows later := by
    rw [log_between spelling later]
    exact List.prefix_append _ _
  announces := by
    intro a b later user changed
    obtain ⟨r,member,told⟩ := change_announced later changed
    obtain ⟨place,found⟩ := List.mem_iff_getElem?.mp member
    obtain ⟨event,shown⟩ : ∃ event, listed spelling ((pastAt clients vault clock w calls a).length + place) r =
      some (event,user) := about_listed told _
    refine ⟨(event,user),?_,rfl⟩
    rw [log_between spelling later,List.drop_left]
    refine List.mem_filterMap.mpr ⟨(r,(pastAt clients vault clock w calls a).length + place),?_,shown⟩
    exact List.mk_add_mem_zipIdx_iff_getElem?.mpr found

end Feed

/-! ### The stream of a run -/

section Streams
variable {W : Type} (spelling : Spelling) (clients : Vault.Clients W) (vault : Address) (clock : Clock) (w : W)
  (calls : List (Origin × Action W))

/-- The events that the vault publishes by a time, as the server lists them. -/
def streamAt (n : Nat) : List Event := ((feed spelling clients vault clock w calls).log n).map Prod.fst

variable {spelling clients vault clock w calls}

theorem mem_streamAt {n : Nat} {event : Event} : event ∈ streamAt spelling clients vault clock w calls n ↔
    ∃ user, (event,user) ∈ (feed spelling clients vault clock w calls).log n := by
  simp [streamAt]

/-- What is logged for a user tells the user. -/
theorem logged_tracks {n : Nat} {entry : Event × Address}
    (member : entry ∈ (feed spelling clients vault clock w calls).log n) :
    Tracks spelling.text entry.1 (spelling.text entry.2) := by
  obtain ⟨number,r,_,shown⟩ := mem_events.mp member
  exact (listed_some shown).1

theorem streamAt_stream (n : Nat) : Stream spelling.text (streamAt spelling clients vault clock w calls n) where
  sorted := by
    have clocks : (trace (Vault.serve clients vault) (Vault.undeployed clock w) (calls.take n)).Pairwise
        (fun r q => (Delivery.clock r).Earlier (Delivery.clock q)) := (deliver_clocks (calls.take n)).1
    rw [← List.zipIdx_map_fst 0 (trace _ _ _),List.pairwise_map] at clocks
    rw [streamAt,List.pairwise_map]
    refine List.pairwise_filterMap.mpr (clocks.imp ?_)
    intro a b earlier entry shown later shown'
    rw [(listed_some shown).2.2,(listed_some shown').2.2]
    exact earlier.sequence
  distinct := by
    have numbers : (List.range' 0 (pastAt clients vault clock w calls n).length).Pairwise (· < ·) :=
      List.pairwise_lt_range'
    rw [← List.zipIdx_map_snd,List.pairwise_map] at numbers
    rw [streamAt,List.map_map]
    refine List.pairwise_map.mpr (List.pairwise_filterMap.mpr (numbers.imp ?_))
    intro a b earlier entry shown later shown' same
    simp only [Function.comp_apply,(listed_some shown).2.1,(listed_some shown').2.1] at same
    exact absurd (spelling.name_injective same) (Nat.ne_of_lt earlier)
  tracked := by
    intro event member
    obtain ⟨user,logged⟩ := mem_streamAt.mp member
    exact ⟨_,logged_tracks logged⟩

end Streams

end Helix.Bot
