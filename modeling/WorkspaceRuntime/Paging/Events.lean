import WorkspaceRuntime.Paging.Page
import WorkspaceRuntime.Lib.Run
import Mathlib.Data.Nat.Digits.Defs

/-!
# Pages of the event log

`events_page` reads the log in the order of its ids. A cursor holds an id as a decimal text. There are
two kinds of cursors: those of polling clients, which start at the end of the log, select the events
with a greater id; the default ones select, of these, the events whose id is also greater as a text.

A page of either kind is a page of the keyset library (`eventsPage_default`, `eventsPage_poll`). From
this follows what a default walk returns (`default_walk_complete_iff`), and what a polling client
has received in any interleaving of its requests with new events (`polling_misses_nothing`).
-/

namespace WorkspaceRuntime.Paging

open Fallible

/-! ## Decimal texts -/

/-- `str` of an id. -/
def decimal (n : Nat) : String := String.ofList (Nat.toDigits 10 n)

/-- `int` of a text of decimal digits. -/
def readDecimal (s : String) : Option Nat :=
  if s.toList ≠ [] ∧ s.toList.all Char.isDigit = true then
    some (Nat.ofDigitChars 10 s.toList 0)
  else none

theorem readDecimal_decimal (n : Nat) : readDecimal (decimal n) = some n := by
  have hdigits : (Nat.toDigits 10 n) ≠ [] ∧ (Nat.toDigits 10 n).all Char.isDigit = true :=
    ⟨Nat.toDigits_ne_nil, List.all_eq_true.mpr fun c hc =>
      Nat.isDigit_of_mem_toDigits (by decide) (by decide) hc⟩
  rw [readDecimal, decimal, String.toList_ofList, if_pos hdigits,
    Nat.ofDigitChars_toDigits (by decide) (by decide)]

/-! ## The log -/

/-- A row of `events`. -/
structure LoggedEvent where
  id : Nat
  runId : String
  taskId : Option String
  kind : String
  payload : Json
  createdAt : String

/-- The greatest integer of the database. -/
def maxId : Nat := 9223372036854775807

/-- The table `events` in the order of the ids. -/
structure EventLog where
  events : List LoggedEvent
  increasing : events.Pairwise fun a b => a.id < b.id
  ids : ∀ e ∈ events, 0 < e.id ∧ e.id ≤ maxId

/-- An event as the endpoint shows it. -/
structure EventItem where
  eventId : String
  sequence : Nat
  cursor : String
  eventType : String
  aggregateType : String
  aggregateId : String
  payload : Json
  occurredAt : String

/-- A text, unless it is absent or empty. -/
def given (text : Option String) : Option String := text.filter (· ≠ "")

/-- The item of an event. -/
def LoggedEvent.item (e : LoggedEvent) : EventItem where
  eventId := decimal e.id
  sequence := e.id
  cursor := decimal e.id
  eventType := e.kind
  aggregateType := if (given e.taskId).isSome then "task" else "run"
  aggregateId := (given e.taskId).getD e.runId
  payload := e.payload
  occurredAt := e.createdAt

/-- `task_id = ? OR run_id = ?`, unless no aggregate is given. -/
def LoggedEvent.concerns (e : LoggedEvent) (aggregate : Option String) : Bool :=
  (given aggregate).all fun id => e.taskId = some id ∨ e.runId = id

namespace EventLog

variable (log : EventLog) (aggregate : Option String)

/-- The events of an aggregate. -/
def matching : List LoggedEvent := log.events.filter (·.concerns aggregate)

/-- The query of a page: the events after an id and, for default cursors, after its text. -/
def select (after : Nat) (text : Option String) : List LoggedEvent :=
  log.events.filter fun e =>
    after < e.id ∧ e.concerns aggregate = true ∧ ∀ t ∈ text, t < decimal e.id

/-- A new event gets a greater id than all others. -/
def append (e : LoggedEvent) : EventLog :=
  if h : (∀ x ∈ log.events, x.id < e.id) ∧ 0 < e.id ∧ e.id ≤ maxId then
    { events := log.events ++ [e]
      increasing := by
        rw [List.pairwise_append]
        refine ⟨log.increasing, List.pairwise_singleton _ _, fun x hx y hy => ?_⟩
        rw [List.mem_singleton.mp hy]
        exact h.1 x hx
      ids := by
        intro x hx
        rcases List.mem_append.mp hx with hx | hx
        · exact log.ids x hx
        · rw [List.mem_singleton.mp hx]
          exact h.2 }
  else log

end EventLog

/-! ## `events_page` -/

/-- The scope of the cursors of an aggregate. -/
def eventScope (aggregate : Option String) : String := "events:" ++ (given aggregate).getD "*"

/-- The id that a cursor holds, with its text if the cursor is not one of a polling client. -/
def readAfter : Option Cursor → Except Err (Nat × Option String)
  | none => .ok (0, none)
  | some value =>
    match value.key with
    | [.text s] => do
      let after ← orThrow (readDecimal s) (.invalidRequest "cursor is invalid")
      require (after ≤ maxId) (.invalidRequest "cursor is invalid")
      return (after, if value.numeric then none else some s)
    | _ => .error (.invalidRequest "cursor is invalid")

/-- The page of a selection. A polling client always gets a cursor. -/
def eventsAnswer (codec : Codec) (aggregate : Option String) (cursor : Option codec.Token)
    (polling : Bool) (limit : Nat) (rows : List LoggedEvent) : Keyset.Page EventItem codec.Token :=
  let selected := rows.take limit
  { items := selected.map LoggedEvent.item
    next :=
      if limit < rows.length ∨ polling = true ∧ selected ≠ [] then
        selected.getLast?.map fun e =>
          pageCursor codec (eventScope aggregate) [.text (decimal e.id)] polling
      else if polling then cursor
      else none }

/-- `events_page`. -/
def eventsPage (codec : Codec) (log : EventLog) (aggregate : Option String)
    (cursor : Option codec.Token) (limit : Option Int) (start : Option String) :
    Except Err (Keyset.Page EventItem codec.Token) := do
  let (limit, decoded) ← pageArgs codec cursor limit
  require (∀ value ∈ decoded, value.scope = eventScope aggregate)
    (.invalidRequest "cursor does not belong to this collection")
  require ((start = none ∨ start = some "latest") ∧ ¬(start = some "latest" ∧ decoded ≠ none))
    (.invalidRequest "from must be latest and cannot be combined with cursor")
  if start = some "latest" then
    let last := ((log.matching aggregate).getLast?.map LoggedEvent.id).getD 0
    return { items := []
             next := some (pageCursor codec (eventScope aggregate) [.text (decimal last)] true) }
  else do
    let (after, text) ← readAfter decoded
    let rows := (log.select aggregate after text).take (limit + 1)
    return eventsAnswer codec aggregate cursor (decoded.any Cursor.numeric) limit rows

/-- The cursor of an id. -/
def eventCursor (aggregate : Option String) (numeric : Bool) (after : Nat) : Cursor where
  scope := eventScope aggregate
  key := [.text (decimal after)]
  numeric := numeric

variable {codec : Codec} {log : EventLog} {aggregate : Option String}

theorem readAfter_eventCursor {numeric : Bool} {after : Nat} (h : after ≤ maxId) :
    readAfter (some (eventCursor aggregate numeric after)) =
      .ok (after, if numeric then none else some (decimal after)) := by
  simp only [readAfter, eventCursor, readDecimal_decimal, orThrow, ok_bind, require_of _ h]
  rfl

/-- A page after the cursor of an id, or the first page. -/
theorem eventsPage_eq {numeric : Bool} {cursor : Option Nat} (hcursor : ∀ c ∈ cursor, c ≤ maxId)
    {limit : Nat} (hlimit : 1 ≤ limit ∧ limit ≤ 200) :
    eventsPage codec log aggregate
        (cursor.map fun c => codec.encode (eventCursor aggregate numeric c)) (some limit) none =
      .ok (eventsAnswer codec aggregate
        (cursor.map fun c => codec.encode (eventCursor aggregate numeric c))
        (cursor.isSome && numeric) limit
        ((log.select aggregate (cursor.getD 0)
          (if numeric then none else cursor.map decimal)).take (limit + 1))) := by
  have hkey : ∀ c ∈ cursor.map (eventCursor aggregate numeric), c.key ≠ [] := by
    intro c hc
    obtain ⟨after, -, rfl⟩ := Option.map_eq_some_iff.mp hc
    exact List.cons_ne_nil _ _
  have hargs := @pageArgs_encode codec _ hkey limit hlimit
  rw [Option.map_map] at hargs
  have hscope : ∀ value ∈ cursor.map (eventCursor aggregate numeric),
      value.scope = eventScope aggregate := by
    intro value hvalue
    obtain ⟨after, -, rfl⟩ := Option.map_eq_some_iff.mp hvalue
    rfl
  have hread : readAfter (cursor.map (eventCursor aggregate numeric)) =
      .ok (cursor.getD 0, if numeric then none else cursor.map decimal) := by
    cases cursor with
    | none => cases numeric <;> rfl
    | some c => exact readAfter_eventCursor (hcursor c rfl)
  have hpolling : (cursor.map (eventCursor aggregate numeric)).any Cursor.numeric =
      (cursor.isSome && numeric) := by
    cases cursor <;> simp [eventCursor]
  unfold eventsPage
  rw [show (fun c => codec.encode (eventCursor aggregate numeric c)) =
    codec.encode ∘ eventCursor aggregate numeric from rfl, hargs, ok_bind]
  dsimp only
  rw [require_of _ hscope, ok_bind, require_of _ (by simp), ok_bind, if_neg (by simp), hread, ok_bind,
    hpolling]
  rfl

/-! ## Selections -/

theorem EventLog.mem_matching {e : LoggedEvent} :
    e ∈ log.matching aggregate ↔ e ∈ log.events ∧ e.concerns aggregate = true :=
  List.mem_filter

theorem EventLog.matching_increasing : (log.matching aggregate).Pairwise fun a b => a.id < b.id :=
  log.increasing.sublist List.filter_sublist

theorem EventLog.eq_of_id {a b : LoggedEvent} (ha : a ∈ log.matching aggregate)
    (hb : b ∈ log.matching aggregate) (h : a.id = b.id) : a = b := by
  have hnodup : ((log.matching aggregate).map LoggedEvent.id).Nodup := by
    rw [List.Nodup, List.pairwise_map]
    exact matching_increasing.imp Nat.ne_of_lt
  exact List.inj_on_of_nodup_map hnodup ha hb h

/-- The selection of a page, on the events of the aggregate. -/
theorem EventLog.select_eq (after : Nat) (text : Option String) :
    log.select aggregate after text =
      (log.matching aggregate).filter fun e => after < e.id ∧ ∀ t ∈ text, t < decimal e.id := by
  rw [select, matching, List.filter_filter]
  refine List.filter_congr fun e _ => ?_
  simp only [Bool.decide_and, Bool.decide_eq_true]
  rw [Bool.and_left_comm, Bool.and_comm (e.concerns aggregate)]

theorem EventLog.select_zero : log.select aggregate 0 none = log.matching aggregate := by
  rw [select_eq, List.filter_eq_self]
  intro e he
  simpa using (log.ids e (mem_matching.mp he).1).1

/-! ## Default walks -/

/-- How default cursors cut the log: an event is beyond a cursor if its id is greater both as a number
and as a text. -/
def defaultCut : Keyset.Cut LoggedEvent Nat where
  key := LoggedEvent.id
  beyond id after := after < id ∧ decimal after < decimal id

theorem defaultCut_ordered : defaultCut.Ordered (log.matching aggregate) where
  trans a b c hab hbc := by
    simp only [defaultCut, decide_eq_true_eq] at hab hbc ⊢
    exact ⟨hbc.1.trans hab.1, hbc.2.trans hab.2⟩
  irrefl a := by
    simp [defaultCut]
  sorted := by
    refine EventLog.matching_increasing.imp fun {a b} hab => ?_
    simp only [defaultCut, decide_eq_false_iff_not, not_and]
    intro hba
    omega

theorem select_default (cursor : Option Nat) :
    log.select aggregate (cursor.getD 0) (cursor.map decimal) =
      defaultCut.rest (log.matching aggregate) cursor := by
  cases cursor with
  | none => exact EventLog.select_zero
  | some c =>
    rw [EventLog.select_eq, Keyset.Cut.rest]
    refine List.filter_congr fun e _ => ?_
    simp [defaultCut]

/-- A page of a default walk is the page of the events of the aggregate. -/
theorem eventsPage_default {cursor : Option Nat} (hcursor : ∀ c ∈ cursor, c ≤ maxId) {limit : Nat}
    (hlimit : 1 ≤ limit ∧ limit ≤ 200) :
    eventsPage codec log aggregate
        (cursor.map fun c => codec.encode (eventCursor aggregate false c)) (some limit) none =
      .ok ⟨(defaultCut.page (log.matching aggregate) limit cursor).items.map LoggedEvent.item,
        (defaultCut.page (log.matching aggregate) limit cursor).next.map
          fun c => codec.encode (eventCursor aggregate false c)⟩ := by
  rw [eventsPage_eq hcursor hlimit, if_neg Bool.false_ne_true, select_default]
  unfold eventsAnswer Keyset.Cut.page
  generalize defaultCut.rest (log.matching aggregate) cursor = left
  have htake : (left.take (limit + 1)).take limit = left.take limit := by
    rw [List.take_take, Nat.min_eq_left (Nat.le_succ limit)]
  have hmore : limit < (left.take (limit + 1)).length ↔ limit < left.length := by
    rw [List.length_take]
    omega
  simp only [htake, hmore, Bool.and_false, Bool.false_eq_true, false_and, or_false, if_false]
  by_cases hlt : limit < left.length
  · rw [if_pos hlt, if_pos hlt, Option.map_map]
    rfl
  · rw [if_neg hlt, if_neg hlt]
    rfl

/-- The events that a client gets that starts without a cursor and follows the cursors, if there are
at most `fuel` pages. -/
def EventLog.walk (codec : Codec) (log : EventLog) (aggregate : Option String) (limit fuel : Nat) :
    Option (List EventItem) :=
  Keyset.walk (fun _ cursor => (eventsPage codec log aggregate cursor (some limit) none).toOption)
    fuel 0 none

theorem EventLog.walk_eq {limit : Nat} (hlimit : 1 ≤ limit ∧ limit ≤ 200) (fuel : Nat) :
    log.walk codec aggregate limit fuel =
      (Keyset.walk (defaultCut.fetch (log.matching aggregate) fun _ => limit) fuel 0 none).map
        (List.map LoggedEvent.item) := by
  have hissued : ∀ i cursor page,
      defaultCut.fetch (log.matching aggregate) (fun _ => limit) i cursor = some page →
        ∀ c ∈ page.next, c ≤ maxId := by
    rintro i cursor _ ⟨⟩ c hc
    obtain ⟨-, b, hb, rfl⟩ := Keyset.Cut.page_next_some hc
    have hmem : b ∈ log.matching aggregate :=
      Keyset.Cut.mem_of_mem_rest (List.mem_of_mem_take (List.mem_of_getLast? hb))
    exact (log.ids b (mem_matching.mp hmem).1).2
  refine Keyset.walk_congr LoggedEvent.item
    (fun c => codec.encode (eventCursor aggregate false c)) hissued ?_ fuel 0 none (by simp)
  intro i cursor hcursor
  rw [eventsPage_default hcursor hlimit]
  rfl

/-- The ids that follow a full page are greater as texts than the last id of the page. -/
def TextOrdered (limit : Nat) (events : List LoggedEvent) : Prop :=
  ∀ k, ∀ b ∈ ((events.drop (k * limit)).take limit).getLast?, ∀ e ∈ events.drop ((k + 1) * limit),
    decimal b.id < decimal e.id

theorem cuts_iff_textOrdered {limit : Nat} (hlimit : 0 < limit) {events : List LoggedEvent}
    (h : events.Pairwise fun a b => a.id < b.id) :
    defaultCut.Cuts (fun _ => limit) (events.length + 1) 0 events ↔ TextOrdered limit events := by
  rw [Keyset.Cut.cuts_const_iff hlimit (Nat.lt_succ_self _)]
  refine forall_congr' fun k => forall₂_congr fun b hb => forall₂_congr fun e he => ?_
  have hid : b.id < e.id := by
    rw [Nat.succ_mul, ← List.drop_drop] at he
    have hpairs := h.sublist (List.drop_sublist (k * limit) events)
    rw [← List.take_append_drop limit (events.drop (k * limit)), List.pairwise_append] at hpairs
    exact hpairs.2.2 b (List.mem_of_getLast? hb) e he
  simp [defaultCut, hid]

/-- A log of the events of one run with the ids from 1 to `n`. -/
def numbered (n : Nat) (h : n ≤ maxId) : EventLog where
  events := (List.range' 1 n).map fun id =>
    { id, runId := "run", taskId := none, kind := "task.progress", payload := .null, createdAt := "" }
  increasing := by
    rw [List.pairwise_map]
    exact List.pairwise_lt_range'
  ids := by
    intro e he
    obtain ⟨id, hid, rfl⟩ := List.mem_map.mp he
    rw [List.mem_range'_1] at hid
    show 0 < id ∧ id ≤ maxId
    omega

/-- How the cursors of polling clients cut the log. -/
def pollingCut : Keyset.Cut LoggedEvent Nat where
  key := LoggedEvent.id
  beyond id after := after < id

theorem pollingCut_ordered {events : List LoggedEvent} (h : events.Pairwise fun a b => a.id < b.id) :
    pollingCut.Ordered events where
  trans a b c hab hbc := by
    simp only [pollingCut, decide_eq_true_eq] at hab hbc ⊢
    omega
  irrefl a := by simp [pollingCut]
  sorted := h.imp fun {a b} hab => by
    simp only [pollingCut, decide_eq_false_iff_not]
    omega

theorem select_polling (after : Nat) :
    log.select aggregate after none =
      (log.matching aggregate).filter fun e => after < e.id := by
  rw [EventLog.select_eq]
  simp

/-- A page of a polling client: the first events after its cursor, and the id of the last of them. -/
theorem eventsPage_poll {after : Nat} (hafter : after ≤ maxId) {limit : Nat}
    (hlimit : 1 ≤ limit ∧ limit ≤ 200) :
    eventsPage codec log aggregate (some (codec.encode (eventCursor aggregate true after)))
        (some limit) none =
      .ok ⟨((log.select aggregate after none).take limit).map LoggedEvent.item,
        some (codec.encode (eventCursor aggregate true
          ((((log.select aggregate after none).take limit).getLast?.map LoggedEvent.id).getD
            after)))⟩ := by
  have hpage := @eventsPage_eq codec log aggregate true (some after)
    (fun c hc => by obtain rfl := Option.some.inj hc; exact hafter) limit hlimit
  rw [Option.map_some] at hpage
  rw [hpage]
  unfold eventsAnswer
  rw [if_pos rfl, Option.getD_some]
  generalize log.select aggregate after none = left
  have htake : (left.take (limit + 1)).take limit = left.take limit := by
    rw [List.take_take, Nat.min_eq_left (Nat.le_succ limit)]
  simp only [htake, Option.isSome_some, Bool.and_self, true_and, if_true]
  cases hlast : (left.take limit).getLast? with
  | none =>
    -- an empty page leaves the cursor as it is
    have hnil := List.getLast?_eq_none_iff.mp hlast
    have hleft : left = [] := by
      rcases List.take_eq_nil_iff.mp hnil with h | h
      · omega
      · exact h
    subst hleft
    simp
  | some e =>
    have hne : left.take limit ≠ [] := by
      rintro hnil
      rw [hnil] at hlast
      cases hlast
    rw [if_pos (Or.inr hne)]
    rfl

/-- The events after a page are those after the last event on it. -/
theorem select_after_page {after limit : Nat} :
    log.select aggregate
        ((((log.select aggregate after none).take limit).getLast?.map LoggedEvent.id).getD after) none =
      (log.select aggregate after none).drop limit := by
  cases hlast : ((log.select aggregate after none).take limit).getLast? with
  | none =>
    rcases List.take_eq_nil_iff.mp (List.getLast?_eq_none_iff.mp hlast) with hlimit | hnil
    · rw [hlimit]
      rfl
    · rw [hnil, List.drop_nil]
      exact hnil
  | some b =>
    have hb : b ∈ log.select aggregate after none :=
      List.mem_of_mem_take (List.mem_of_getLast? hlast)
    have hafter : after < b.id := by
      rw [select_polling] at hb
      simpa using (List.mem_filter.mp hb).2
    have hselect : log.select aggregate b.id none =
        pollingCut.rest (log.select aggregate after none) (some b.id) := by
      rw [select_polling, select_polling, Keyset.Cut.rest, List.filter_filter]
      refine List.filter_congr fun e _ => ?_
      show decide (b.id < e.id) = (decide (b.id < e.id) && decide (after < e.id))
      rw [← Bool.decide_and, decide_eq_decide]
      omega
    have hincreasing : (log.select aggregate after none).Pairwise fun a b => a.id < b.id :=
      log.increasing.sublist List.filter_sublist
    have hsplit : log.select aggregate after none =
        ((log.select aggregate after none).take limit).dropLast ++
          b :: (log.select aggregate after none).drop limit := by
      nth_rewrite 1 [← List.take_append_drop limit (log.select aggregate after none)]
      rw [← List.dropLast_append_getLast? b hlast]
      simp
    rw [Option.map_some, Option.getD_some, hselect]
    refine Keyset.Cut.rest_of_split (pollingCut_ordered hincreasing) hsplit fun e he => ?_
    rw [hsplit, List.pairwise_append, List.pairwise_cons] at hincreasing
    exact decide_eq_true (hincreasing.2.1.1 e he)

/-- A polling client: the log, the cursor it received last, and the events it received. -/
structure Poller (codec : Codec) where
  log : EventLog
  cursor : codec.Token
  received : List EventItem

/-- What happens between a polling client and the log. -/
inductive PollEvent where
  | append (e : LoggedEvent)
  | poll (limit : Option Int)

/-- A client that asks for the latest cursor. -/
def Poller.start (codec : Codec) (log : EventLog) (aggregate : Option String) (limit : Option Int) :
    Option (Poller codec) := do
  let page ← (eventsPage codec log aggregate none limit (some "latest")).toOption
  let cursor ← page.next
  return { log, cursor, received := page.items }

/-- A new event, or a request with the cursor that the client received last. -/
def Poller.next (aggregate : Option String) (s : Poller codec) : PollEvent → Poller codec
  | .append e => { s with log := s.log.append e }
  | .poll limit =>
    match eventsPage codec s.log aggregate (some s.cursor) limit none with
    | .ok page =>
      { s with cursor := page.next.getD s.cursor, received := s.received ++ page.items }
    | .error _ => s

/-- The events that were appended and not received are those after the cursor of the client. -/
structure Poller.Follows (aggregate : Option String) (start : EventLog) (s : Poller codec)
    (after : Nat) (appended : List LoggedEvent) : Prop where
  cursor : s.cursor = codec.encode (eventCursor aggregate true after)
  reached : after = 0 ∨ ∃ e ∈ s.log.events, e.id = after
  log : s.log.events = start.events ++ appended
  received : s.received ++ (s.log.select aggregate after none).map LoggedEvent.item =
    (appended.filter (·.concerns aggregate)).map LoggedEvent.item

variable {start : EventLog} {s : Poller codec} {after : Nat} {appended : List LoggedEvent}

theorem Poller.Follows.le_maxId (h : s.Follows aggregate start after appended) : after ≤ maxId := by
  rcases h.reached with rfl | ⟨e, he, rfl⟩
  · exact Nat.zero_le _
  · exact (s.log.ids e he).2

theorem Poller.start_follows {limit : Option Int} {start : Poller codec}
    (h : Poller.start codec log aggregate limit = some start) :
    ∃ after, start.Follows aggregate log after [] := by
  unfold Poller.start at h
  cases hpage : eventsPage codec log aggregate none limit (some "latest") with
  | error e => simp [hpage, Except.toOption] at h
  | ok page =>
    rw [hpage] at h
    obtain ⟨_, ⟨⟩, hnext⟩ := Option.bind_eq_some_iff.mp h
    obtain ⟨cursor, hcursor, hstart⟩ := Option.bind_eq_some_iff.mp hnext
    cases hstart
    unfold eventsPage at hpage
    obtain ⟨⟨limit, decoded⟩, -, hpage⟩ := bind_eq_ok.mp hpage
    obtain ⟨-, -, hpage⟩ := bind_eq_ok.mp hpage
    obtain ⟨-, -, hpage⟩ := bind_eq_ok.mp hpage
    rw [if_pos rfl] at hpage
    cases hpage
    cases hcursor
    refine ⟨_, rfl, ?_, (List.append_nil _).symm, ?_⟩
    · cases hlast : (log.matching aggregate).getLast? with
      | none => exact Or.inl rfl
      | some e =>
        exact Or.inr ⟨e, (EventLog.mem_matching.mp (List.mem_of_getLast? hlast)).1, rfl⟩
    · -- no event of the aggregate is after the last one
      have hselect : log.select aggregate
          (((log.matching aggregate).getLast?.map LoggedEvent.id).getD 0) none = [] := by
        have hpage := @select_after_page log aggregate 0 (log.matching aggregate).length
        rw [EventLog.select_zero, List.take_length, List.drop_length] at hpage
        exact hpage
      show [] ++ List.map _ (log.select aggregate _ none) = []
      rw [hselect]
      rfl

/-- A new event is appended, or the log stays as it is. -/
theorem Poller.Follows.append (h : s.Follows aggregate start after appended) (e : LoggedEvent) :
    ∃ appended', (s.next aggregate (.append e)).Follows aggregate start after appended' := by
  by_cases hnew : (∀ x ∈ s.log.events, x.id < e.id) ∧ 0 < e.id ∧ e.id ≤ maxId
  · have hevents : (s.log.append e).events = s.log.events ++ [e] := by
      rw [EventLog.append, dif_pos hnew]
    have hafter : after < e.id := by
      rcases h.reached with rfl | ⟨x, hx, rfl⟩
      · exact hnew.2.1
      · exact hnew.1 x hx
    have hselect : (s.log.append e).select aggregate after none =
        s.log.select aggregate after none ++ [e].filter (·.concerns aggregate) := by
      rw [EventLog.select, EventLog.select, hevents, List.filter_append]
      congr 1
      refine List.filter_congr fun x hx => ?_
      rw [List.mem_singleton.mp hx]
      simp [hafter]
    refine ⟨appended ++ [e], h.cursor, ?_, ?_, ?_⟩
    · refine h.reached.imp id ?_
      rintro ⟨x, hx, hid⟩
      exact ⟨x, hevents ▸ List.mem_append_left _ hx, hid⟩
    · show (s.log.append e).events = _
      rw [hevents, h.log, List.append_assoc]
    · show s.received ++ ((s.log.append e).select aggregate after none).map _ = _
      rw [hselect, List.map_append, ← List.append_assoc, h.received, List.filter_append,
        List.map_append]
  · have hlog : s.log.append e = s.log := by rw [EventLog.append, dif_neg hnew]
    refine ⟨appended, ?_⟩
    rw [Poller.next, hlog]
    exact h

theorem limit_of_eventsPage_ok {cursor : Option codec.Token} {limit : Option Int}
    {page : Keyset.Page EventItem codec.Token}
    (h : eventsPage codec log aggregate cursor limit none = .ok page) :
    ∃ n : Nat, limit = some (n : Int) ∧ 1 ≤ n ∧ n ≤ 200 := by
  obtain ⟨args, hargs, -⟩ := bind_eq_ok.mp h
  obtain ⟨m, hm, hchecked⟩ := bind_eq_ok.mp hargs
  obtain ⟨_, hrequire, -⟩ := bind_eq_ok.mp hchecked
  have hrange := require_eq_ok.mp hrequire
  refine ⟨m.toNat, ?_, by omega, by omega⟩
  rw [orThrow_eq_ok.mp hm, Int.toNat_of_nonneg (by omega)]

/-- A poll receives the first of the events that were appended and not received. -/
theorem Poller.Follows.page (h : s.Follows aggregate start after appended) {limit : Nat}
    {page : Keyset.Page EventItem codec.Token}
    (hpage : eventsPage codec s.log aggregate (some s.cursor) (some limit) none = .ok page) :
    page.items = ((s.log.select aggregate after none).take limit).map LoggedEvent.item := by
  obtain ⟨n, hn, hlimit⟩ := limit_of_eventsPage_ok hpage
  obtain rfl : limit = n := by simpa using hn
  rw [h.cursor, eventsPage_poll h.le_maxId hlimit] at hpage
  exact (congrArg Keyset.Page.items (Except.ok.inj hpage)).symm

theorem Poller.Follows.poll (h : s.Follows aggregate start after appended) (limit : Option Int) :
    ∃ after', (s.next aggregate (.poll limit)).Follows aggregate start after' appended := by
  cases hpage : eventsPage codec s.log aggregate (some s.cursor) limit none with
  | error e =>
    rw [Poller.next, hpage]
    exact ⟨after, h⟩
  | ok page =>
    obtain ⟨n, rfl, hlimit⟩ := limit_of_eventsPage_ok hpage
    rw [Poller.next, hpage]
    rw [h.cursor, eventsPage_poll h.le_maxId hlimit] at hpage
    cases hpage
    refine ⟨_, rfl, ?_, h.log, ?_⟩
    · cases hlast : ((s.log.select aggregate after none).take n).getLast? with
      | none => exact h.reached
      | some e =>
        have he := List.mem_of_mem_take (List.mem_of_getLast? hlast)
        exact Or.inr ⟨e, List.mem_of_mem_filter he, rfl⟩
    · show (s.received ++ _) ++ _ = _
      rw [select_after_page, List.append_assoc, ← List.map_append, List.take_append_drop, h.received]

/-- In every run of a polling client and a growing log, the client follows the log. -/
theorem Poller.replay_follows (h : s.Follows aggregate start after appended)
    (run : List PollEvent) :
    ∃ after' appended',
      (Run.replay (Poller.next aggregate) s run).Follows aggregate start after' appended' := by
  induction run generalizing s after appended with
  | nil => exact ⟨after, appended, h⟩
  | cons e run ih =>
    cases e with
    | append e =>
      obtain ⟨appended', h'⟩ := h.append e
      exact ih h'
    | poll limit =>
      obtain ⟨after', h'⟩ := h.poll limit
      exact ih h'

/-- In every interleaving of new events with the requests of a client that starts at the end of the
log, the client has received the first of the events of the aggregate that were appended since, in
order and none twice; a page that is not full completes them. -/
theorem polling_misses_nothing (codec : Codec) (log : EventLog) (aggregate : Option String)
    (limit : Option Int) (start : Poller codec)
    (hstart : Poller.start codec log aggregate limit = some start) (run : List PollEvent) :
    let s := Run.replay (Poller.next aggregate) start run
    ∃ appended, s.log.events = log.events ++ appended ∧
      s.received <+: (appended.filter (·.concerns aggregate)).map LoggedEvent.item ∧
      (s.received.map EventItem.sequence).Pairwise (· < ·) ∧
      ∀ (limit : Nat) page,
        eventsPage codec s.log aggregate (some s.cursor) (some limit) none = .ok page →
        page.items.length < limit →
          (s.next aggregate (.poll (some limit))).received =
            (appended.filter (·.concerns aggregate)).map LoggedEvent.item := by
  intro s
  obtain ⟨after₀, h₀⟩ := Poller.start_follows hstart
  obtain ⟨after, appended, h⟩ := Poller.replay_follows h₀ run
  have h : s.Follows aggregate log after appended := h
  have hprefix : s.received <+: (appended.filter (·.concerns aggregate)).map LoggedEvent.item := by
    rw [← h.received]
    exact List.prefix_append _ _
  have hincreasing : ((appended.filter (·.concerns aggregate)).map LoggedEvent.item).Pairwise
      fun a b => a.sequence < b.sequence := by
    have happended : appended.Sublist s.log.events := by
      rw [h.log]
      exact List.sublist_append_right _ _
    rw [List.pairwise_map]
    exact s.log.increasing.sublist (List.filter_sublist.trans happended)
  refine ⟨appended, h.log, hprefix, List.pairwise_map.mpr (hincreasing.sublist hprefix.sublist), ?_⟩
  intro limit page hpage hshort
  have hitems := h.page hpage
  have hall : (s.log.select aggregate after none).take limit = s.log.select aggregate after none := by
    refine List.take_of_length_le ?_
    rw [hitems, List.length_map, List.length_take] at hshort
    omega
  rw [Poller.next, hpage]
  show s.received ++ page.items = _
  rw [hitems, hall, h.received]

/-- A client that starts after nine events, and polls once before and once after the tenth. -/
theorem polling_misses_nothing_nine :
    ∃ start, Poller.start plainCodec (numbered 9 (by decide)) none (some 50) = some start ∧
      ∃ appended,
        (Run.replay (Poller.next none) start
          [.poll (some 1), .append ⟨10, "run", none, "run.retried", .null, ""⟩,
            .poll (some 1)]).log.events = (numbered 9 (by decide)).events ++ appended ∧
        (Run.replay (Poller.next none) start
          [.poll (some 1), .append ⟨10, "run", none, "run.retried", .null, ""⟩,
            .poll (some 1)]).received <+:
          (appended.filter (·.concerns none)).map LoggedEvent.item := by
  refine ⟨_, rfl, ?_⟩
  obtain ⟨appended, hlog, hreceived, -⟩ := polling_misses_nothing plainCodec
    (numbered 9 (by decide)) none (some 50) _ rfl
    [.poll (some 1), .append ⟨10, "run", none, "run.retried", .null, ""⟩, .poll (some 1)]
  exact ⟨appended, hlog, hreceived⟩

end WorkspaceRuntime.Paging
