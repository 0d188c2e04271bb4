/-
# Replies against the timeout tick

The receiving thread handles a reply in three critical sections and two stretches between
them: `dm_msg_cache_search` returns a pointer to the node and releases the mutex, the handler
reads the node's fields and queues the reply event, and `dm_msg_cache_remove` looks the id up
again. The dispatching thread's `dm_msg_cache_tick` is one critical section. It sends a
timeout for every expired node, unlinks it and frees it.

So a tick may fall between the search and the removal and free the node that the receiving
thread holds. Nothing else can: as long as no tick finds the held node expired, every read
is of a linked node, and no request gets both a reply event and a timeout event.
-/

import EnosDeviceSdk.DevModel.MessageCache
import Mathlib.Data.List.Nodup

namespace EnosDeviceSdk.DevModel.ReplyRace

open EnosDeviceSdk.Infra EnosDeviceSdk.Library

/-! ## The two threads -/

/-- A node of the cache with the identity of its allocation. An identity is never used
again, even where the allocator hands out the same address. -/
structure Entry where
  serial : Nat
  node : DmMsgCacheNode
  deriving DecidableEq

/-- The reply handlers that search the cache. -/
inductive ReplyHandler
  | dmMsgThingReply
  | dmMsgThingTopoAddReply
  | dmMsgThingTopoDeleteReply
  deriving DecidableEq

/-- How often a handler reads the node it found, for a reply with this code. Each reads
`node->devid` for the event, and the topology handlers once more to set the device's
status. -/
def nodeReads : ReplyHandler → Int → Nat
  | .dmMsgThingReply, _ => 1
  | .dmMsgThingTopoAddReply, code => if code = iotxDmErrCodeSuccess then 2 else 1
  | .dmMsgThingTopoDeleteReply, code => if code = iotxDmErrCodeSuccess then 2 else 1

/-- Where the receiving thread stands: between two replies; past a search that found a node,
with so many reads to go before the event; or before the removal, with the request whose
reply event it has queued. -/
inductive Receiver
  | idle
  | handling (serial : Nat) (id : Int) (reads : Nat)
  | removing (id : Int) (replied : Option Nat)
  deriving DecidableEq

/-- The node that the receiving thread relies on. -/
def Receiver.held : Receiver → Option Nat
  | .idle => none
  | .handling serial _ _ => some serial
  | .removing _ replied => replied

/-- A read of a node's field, and whether the node was linked at that moment. -/
structure NodeRead where
  serial : Nat
  linked : Bool
  deriving DecidableEq

/-- The message cache and the receiving thread, with the reads and the events so far. -/
structure State where
  dmcListSize : Int
  nodes : List Entry
  allocated : Nat
  receiver : Receiver
  reads : List NodeRead
  replyEvents : List Nat
  timeoutEvents : List Nat

/-- The cache as the other functions see it. -/
def State.ctx (state : State) : DmMsgCacheCtx :=
  { dmcListSize := state.dmcListSize
    dmcList := state.nodes.map Entry.node }

/-- The identities of the linked nodes. -/
def linked (nodes : List Entry) : List Nat := nodes.map Entry.serial

/-- The first node with this id, in link order. -/
def lookup (nodes : List Entry) (id : Int) : Option Entry :=
  nodes.find? fun entry => entry.node.msgid = id

/-- `dm_msg_cache_insert` -/
def insert (state : State) (msgid devid : Int) (type : Nat) (mallocOk : Bool) (uptime : Nat) :
    State :=
  if state.dmcListSize ≥ configMsgcacheQueueMaxlen then state
  else if !mallocOk then state
  else
    { state with
      dmcListSize := state.dmcListSize + 1
      nodes := state.nodes ++ [⟨state.allocated, ⟨msgid, devid, type, none, uptime⟩⟩]
      allocated := state.allocated + 1 }

/-- `dm_msg_cache_search`, with which a handler begins. -/
def search (state : State) (handler : ReplyHandler) (code id : Int) : State :=
  match if id < 0 then none else lookup state.nodes id with
  | some entry => { state with receiver := .handling entry.serial id (nodeReads handler code) }
  | none => { state with receiver := .removing id none }

/-- `dm_msg_cache_remove`, with which the processing of a reply ends. -/
def remove (state : State) (id : Int) : State :=
  match lookup state.nodes id with
  | some _ =>
      { state with
        dmcListSize := state.dmcListSize - 1
        nodes := state.nodes.eraseP fun entry => entry.node.msgid = id
        receiver := .idle }
  | none => { state with receiver := .idle }

/-- The next step of the receiving thread on the reply in hand. -/
def proceed (state : State) (sendOk : Bool) : State :=
  match state.receiver with
  | .idle => state
  | .handling serial id (reads + 1) =>
      { state with
        receiver := .handling serial id reads
        reads := state.reads ++ [⟨serial, decide (serial ∈ linked state.nodes)⟩] }
  | .handling serial id 0 =>
      if sendOk then
        { state with
          receiver := .removing id (some serial)
          replyEvents := state.replyEvents ++ [serial] }
      else { state with receiver := .removing id none }
  | .removing id _ => remove state id

/-- `dm_msg_cache_tick`. `sendOk` says whose timeouts get into the queue. -/
def tick (state : State) (uptime : Nat) (sendOk : Nat → Bool) : State :=
  { state with
    nodes := (state.nodes.filter fun entry => !entry.node.expired uptime).map fun entry =>
      { entry with node := entry.node.clamp uptime }
    timeoutEvents := state.timeoutEvents ++
      (linked (state.nodes.filter fun entry => entry.node.expired uptime)).filter sendOk }

/-- What the threads may do next. -/
inductive Action
  | insert (msgid devid : Int) (type : Nat) (mallocOk : Bool) (uptime : Nat)
  | reply (handler : ReplyHandler) (code id : Int)
  | proceed (sendOk : Bool)
  | tick (uptime : Nat) (sendOk : Nat → Bool)

/-- The state after it. A reply is taken up when the last one is done with. -/
def raceStep (state : State) : Action → State
  | .insert msgid devid type mallocOk uptime => insert state msgid devid type mallocOk uptime
  | .reply handler code id =>
      match state.receiver with
      | .idle => search state handler code id
      | _ => state
  | .proceed sendOk => proceed state sendOk
  | .tick uptime sendOk => tick state uptime sendOk

/-- Both threads before the first request. -/
def init : State := ⟨0, [], 0, .idle, [], [], []⟩

/-- A node's fields are read only while the node is linked. -/
def ReadsLinked (state : State) : Prop := ∀ read ∈ state.reads, read.linked = true

/-- No request gives rise to both a reply event and a timeout event. -/
def OneEvent (state : State) : Prop :=
  ∀ serial ∈ state.replyEvents, serial ∉ state.timeoutEvents

/-- Reply processing and ticks do not get in each other's way. -/
def Orderly (state : State) : Prop := ReadsLinked state ∧ OneEvent state

/-- The step is not a tick that finds the held node expired. -/
def SparesHeld (state : State) : Action → Prop
  | .tick uptime _ => ∀ entry ∈ state.nodes, state.receiver.held = some entry.serial →
      entry.node.expired uptime = false
  | _ => True

instance : ∀ (state : State) (action : Action), Decidable (SparesHeld state action)
  | state, .tick uptime _ =>
      inferInstanceAs (Decidable (∀ entry ∈ state.nodes,
        state.receiver.held = some entry.serial → entry.node.expired uptime = false))
  | _, .insert .. => .isTrue trivial
  | _, .reply .. => .isTrue trivial
  | _, .proceed _ => .isTrue trivial

/-! ## The machine's cache is the message cache -/

/-- The call on the cache that a step makes. -/
def cacheCall (state : State) : Action → Option CacheCall
  | .insert msgid devid type mallocOk uptime =>
      some (.insert msgid devid type none mallocOk uptime)
  | .reply .. => none
  | .proceed _ =>
      match state.receiver with
      | .removing id _ => some (.remove id)
      | _ => none
  | .tick uptime _ => some (.tick uptime)

theorem dmMsgCacheUnlink_map (nodes : List Entry) (id : Int) :
    dmMsgCacheUnlink id (nodes.map Entry.node) =
      (lookup nodes id).map fun _ =>
        (nodes.eraseP fun entry => entry.node.msgid = id).map Entry.node := by
  unfold lookup
  induction nodes with
  | nil => rfl
  | cons entry rest ih =>
      by_cases hfound : entry.node.msgid = id
      · simp [dmMsgCacheUnlink, hfound]
      · simp only [List.map_cons, dmMsgCacheUnlink, hfound, if_false, ih, Option.map_map,
          decide_false, Bool.false_eq_true, not_false_eq_true, List.find?_cons_of_neg,
          List.eraseP_cons_of_neg]
        rfl

theorem ctx_remove (state : State) (id : Int) :
    (remove state id).ctx = (dmMsgCacheRemove state.ctx id).2 := by
  unfold remove dmMsgCacheRemove
  rw [show state.ctx.dmcList = state.nodes.map Entry.node from rfl, dmMsgCacheUnlink_map]
  cases lookup state.nodes id with
  | none => rfl
  | some entry => rfl

/-- Every step of the two threads is a call on the message cache, or leaves it alone. -/
theorem ctx_raceStep (state : State) (action : Action) :
    (raceStep state action).ctx =
      match cacheCall state action with
      | some call => cacheStep state.ctx call
      | none => state.ctx := by
  cases action with
  | insert msgid devid type mallocOk uptime =>
      by_cases hfull : state.dmcListSize ≥ configMsgcacheQueueMaxlen
      · simp [raceStep, cacheCall, cacheStep, insert, dmMsgCacheInsert, State.ctx, hfull]
      · cases mallocOk <;>
          simp [raceStep, cacheCall, cacheStep, insert, dmMsgCacheInsert, State.ctx, hfull]
  | reply handler code id =>
      simp only [raceStep, cacheCall]
      split
      next =>
        unfold search
        split <;> rfl
      next => rfl
  | proceed sendOk =>
      cases hreceiver : state.receiver with
      | idle => simp [raceStep, cacheCall, proceed, hreceiver]
      | handling serial id reads =>
          cases reads <;> cases sendOk <;>
            simp [raceStep, cacheCall, proceed, hreceiver, State.ctx]
      | removing id replied =>
          simpa [raceStep, cacheCall, cacheStep, proceed, hreceiver] using ctx_remove state id
  | tick uptime sendOk =>
      simp [raceStep, cacheCall, cacheStep, tick, dmMsgCacheTick, State.ctx,
        dmMsgCacheTickLoop_kept, List.filter_map, Function.comp_def]

/-! ## What keeps the threads apart -/

/-- The node that the receiving thread relies on is the first linked one with the id of
the reply. -/
def HoldsFirst (nodes : List Entry) : Receiver → Prop
  | .idle => True
  | .handling serial id _ => ∃ entry, lookup nodes id = some entry ∧ entry.serial = serial
  | .removing id (some serial) => ∃ entry, lookup nodes id = some entry ∧ entry.serial = serial
  | .removing _ none => True

/-- The invariant. Identities are fresh and distinct; the held node is linked and first in
line for the removal; a request with a reply event is either held or unlinked; and one with
a timeout event is unlinked. -/
structure Apart (state : State) : Prop where
  linked_lt : ∀ serial ∈ linked state.nodes, serial < state.allocated
  nodup : (linked state.nodes).Nodup
  holdsFirst : HoldsFirst state.nodes state.receiver
  replied_lt : ∀ serial ∈ state.replyEvents, serial < state.allocated
  replied_spent : ∀ serial ∈ state.replyEvents, serial ∈ linked state.nodes →
    ∃ id, state.receiver = .removing id (some serial)
  timedOut_lt : ∀ serial ∈ state.timeoutEvents, serial < state.allocated
  timedOut_unlinked : ∀ serial ∈ state.timeoutEvents, serial ∉ linked state.nodes
  readsLinked : ReadsLinked state
  oneEvent : OneEvent state

theorem lookup_mem {nodes : List Entry} {id : Int} {entry : Entry}
    (hlookup : lookup nodes id = some entry) : entry ∈ nodes ∧ entry.node.msgid = id := by
  have hid := List.find?_some hlookup
  exact ⟨List.mem_of_find?_eq_some hlookup, by simpa using hid⟩

theorem mem_linked_of_lookup {nodes : List Entry} {id : Int} {entry : Entry}
    (hlookup : lookup nodes id = some entry) : entry.serial ∈ linked nodes :=
  List.mem_map.mpr ⟨entry, (lookup_mem hlookup).1, rfl⟩

/-- The first node with an id stays the first when others are appended. -/
theorem lookup_append {nodes more : List Entry} {id : Int} {entry : Entry}
    (hlookup : lookup nodes id = some entry) : lookup (nodes ++ more) id = some entry := by
  rw [lookup, List.find?_append, show nodes.find? _ = some entry from hlookup]
  rfl

/-- It also stays the first in a tick that does not expire it. -/
theorem lookup_tick {nodes : List Entry} {id : Int} {entry : Entry} (uptime : Nat)
    (hlookup : lookup nodes id = some entry) (hfresh : entry.node.expired uptime = false) :
    ∃ clamped, lookup ((nodes.filter fun other => !other.node.expired uptime).map fun other =>
        { other with node := other.node.clamp uptime }) id = some clamped ∧
      clamped.serial = entry.serial := by
  unfold lookup at hlookup ⊢
  induction nodes with
  | nil => simp at hlookup
  | cons first rest ih =>
      by_cases hfound : first.node.msgid = id
      · simp only [hfound, decide_true, List.find?_cons_of_pos, Option.some.injEq] at hlookup
        subst hlookup
        simp [hfresh, hfound]
      · simp only [hfound, decide_false, Bool.false_eq_true, not_false_eq_true,
          List.find?_cons_of_neg] at hlookup
        obtain ⟨clamped, hclamped, hserial⟩ := ih hlookup
        refine ⟨clamped, ?_, hserial⟩
        by_cases hexpired : first.node.expired uptime
        · simpa [hexpired] using hclamped
        · simpa [hexpired, hfound] using hclamped

/-- The nodes that a tick leaves keep their identities. -/
theorem linked_tick (nodes : List Entry) (uptime : Nat) :
    linked ((nodes.filter fun entry => !entry.node.expired uptime).map fun entry =>
        { entry with node := entry.node.clamp uptime }) =
      linked (nodes.filter fun entry => !entry.node.expired uptime) := by
  simp [linked, Function.comp_def]

theorem linked_filter_subset (nodes : List Entry) (keep : Entry → Bool) :
    linked (nodes.filter keep) ⊆ linked nodes :=
  List.map_subset _ (List.filter_subset_self nodes)

/-- Removing the first node with an id takes its identity out. -/
theorem linked_eraseP {nodes : List Entry} {id : Int} {entry : Entry}
    (hlookup : lookup nodes id = some entry) (hnodup : (linked nodes).Nodup) :
    entry.serial ∉ linked (nodes.eraseP fun other => other.node.msgid = id) := by
  unfold lookup linked at *
  induction nodes with
  | nil => simp at hlookup
  | cons first rest ih =>
      rw [List.map_cons, List.nodup_cons] at hnodup
      by_cases hfound : first.node.msgid = id
      · simp only [hfound, decide_true, List.find?_cons_of_pos, Option.some.injEq] at hlookup
        subst hlookup
        simpa [hfound] using hnodup.1
      · simp only [hfound, decide_false, Bool.false_eq_true, not_false_eq_true,
          List.find?_cons_of_neg] at hlookup
        have hmem : entry.serial ∈ rest.map Entry.serial := mem_linked_of_lookup hlookup
        simp only [hfound, decide_false, Bool.false_eq_true, not_false_eq_true,
          List.eraseP_cons_of_neg, List.map_cons, List.mem_cons, not_or]
        constructor
        · intro hsame
          exact hnodup.1 (hsame ▸ hmem)
        · exact ih hlookup hnodup.2

theorem holdsFirst_append {nodes more : List Entry} {receiver : Receiver}
    (hholds : HoldsFirst nodes receiver) : HoldsFirst (nodes ++ more) receiver := by
  cases receiver with
  | idle => trivial
  | handling serial id reads =>
      obtain ⟨entry, hlookup, hserial⟩ := hholds
      exact ⟨entry, lookup_append hlookup, hserial⟩
  | removing id replied =>
      cases replied with
      | none => trivial
      | some serial =>
          obtain ⟨entry, hlookup, hserial⟩ := hholds
          exact ⟨entry, lookup_append hlookup, hserial⟩

/-- A new request is a new identity at the end of the list. -/
theorem apart_insert (state : State) (msgid devid : Int) (type : Nat) (mallocOk : Bool)
    (uptime : Nat) (hapart : Apart state) :
    Apart (insert state msgid devid type mallocOk uptime) := by
  unfold insert
  split
  next => exact hapart
  next =>
    split
    next => exact hapart
    next =>
      have hunused : state.allocated ∉ linked state.nodes := by
        intro hmem
        exact absurd (hapart.linked_lt _ hmem) (lt_irrefl _)
      have hlinked : ∀ entry : Entry, ∀ serial, serial ∈ linked (state.nodes ++ [entry]) ↔
          serial ∈ linked state.nodes ∨ serial = entry.serial := by
        intro entry serial
        simp [linked]
      exact
        { linked_lt := by
            intro serial hserial
            rcases (hlinked _ serial).mp hserial with hold | rfl
            · exact (hapart.linked_lt serial hold).trans (Nat.lt_succ_self _)
            · exact Nat.lt_succ_self _
          nodup := by
            rw [linked, List.map_append, List.nodup_append]
            refine ⟨hapart.nodup, List.nodup_singleton _, ?_⟩
            intro serial hold other hnew hsame
            rw [List.map_singleton, List.mem_singleton] at hnew
            subst hsame hnew
            exact hunused hold
          holdsFirst := holdsFirst_append hapart.holdsFirst
          replied_lt := fun serial hreplied =>
            (hapart.replied_lt serial hreplied).trans (Nat.lt_succ_self _)
          replied_spent := by
            intro serial hreplied hserial
            rcases (hlinked _ serial).mp hserial with hold | rfl
            · exact hapart.replied_spent serial hreplied hold
            · exact absurd (hapart.replied_lt _ hreplied) (lt_irrefl _)
          timedOut_lt := fun serial htimedOut =>
            (hapart.timedOut_lt serial htimedOut).trans (Nat.lt_succ_self _)
          timedOut_unlinked := by
            intro serial htimedOut hserial
            rcases (hlinked _ serial).mp hserial with hold | rfl
            · exact hapart.timedOut_unlinked serial htimedOut hold
            · exact absurd (hapart.timedOut_lt _ htimedOut) (lt_irrefl _)
          readsLinked := hapart.readsLinked
          oneEvent := hapart.oneEvent }

/-- With the receiving thread idle, no request with a reply event is linked. -/
theorem Apart.replied_unlinked {state : State} (hapart : Apart state)
    (hreceiver : ∀ id serial, state.receiver ≠ .removing id (some serial)) {serial : Nat}
    (hreplied : serial ∈ state.replyEvents) : serial ∉ linked state.nodes := by
  intro hlinked
  obtain ⟨id, hremoving⟩ := hapart.replied_spent serial hreplied hlinked
  exact hreceiver id serial hremoving

/-- A search that finds a node finds the first one with the id. -/
theorem apart_search (state : State) (handler : ReplyHandler) (code id : Int)
    (hidle : state.receiver = .idle) (hapart : Apart state) :
    Apart (search state handler code id) := by
  have hspent : ∀ serial ∈ state.replyEvents, serial ∉ linked state.nodes := by
    intro serial hreplied
    exact hapart.replied_unlinked (by simp [hidle]) hreplied
  unfold search
  split
  next entry hfound =>
    have hlookup : lookup state.nodes id = some entry := by
      split at hfound
      next => exact absurd hfound (by simp)
      next => exact hfound
    exact
      { hapart with
        holdsFirst := ⟨entry, hlookup, rfl⟩
        replied_spent := fun serial hreplied hlinked => absurd hlinked (hspent serial hreplied) }
  next =>
    exact
      { hapart with
        holdsFirst := trivial
        replied_spent := fun serial hreplied hlinked => absurd hlinked (hspent serial hreplied) }

/-- The removal unlinks the request whose reply event was queued. -/
theorem apart_remove (state : State) (id : Int) (replied : Option Nat)
    (hremoving : state.receiver = .removing id replied) (hapart : Apart state) :
    Apart (remove state id) := by
  have hholds := hapart.holdsFirst
  rw [hremoving] at hholds
  unfold remove
  split
  next entry hlookup =>
    have hsublist : (linked (state.nodes.eraseP fun other => other.node.msgid = id)).Sublist
        (linked state.nodes) := (List.eraseP_sublist).map Entry.serial
    exact
      { hapart with
        linked_lt := fun serial hserial => hapart.linked_lt serial (hsublist.subset hserial)
        nodup := hapart.nodup.sublist hsublist
        holdsFirst := trivial
        replied_spent := by
          intro serial hreplied hlinked
          obtain ⟨other, hother⟩ :=
            hapart.replied_spent serial hreplied (hsublist.subset hlinked)
          rw [hremoving] at hother
          obtain ⟨rfl, rfl⟩ : id = other ∧ replied = some serial := by simpa using hother
          obtain ⟨first, hfirst, rfl⟩ := hholds
          exact absurd hlinked (linked_eraseP hfirst hapart.nodup)
        timedOut_unlinked := fun serial htimedOut hlinked =>
          hapart.timedOut_unlinked serial htimedOut (hsublist.subset hlinked) }
  next hlookup =>
    exact
      { hapart with
        holdsFirst := trivial
        replied_spent := by
          intro serial hreplied hlinked
          obtain ⟨other, hother⟩ := hapart.replied_spent serial hreplied hlinked
          rw [hremoving] at hother
          obtain ⟨rfl, rfl⟩ : id = other ∧ replied = some serial := by simpa using hother
          obtain ⟨first, hfirst, _⟩ := hholds
          simp [hlookup] at hfirst }

/-- Between search and removal the receiving thread reads the node it holds, and then
queues the event of a request that has had none. -/
theorem apart_proceed (state : State) (sendOk : Bool) (hapart : Apart state) :
    Apart (proceed state sendOk) := by
  have hholds := hapart.holdsFirst
  unfold proceed
  split
  next => exact hapart
  next serial id reads hreceiver =>
    rw [hreceiver] at hholds
    have hspent : ∀ other ∈ state.replyEvents, other ∉ linked state.nodes := by
      intro other hreplied
      exact hapart.replied_unlinked (by simp [hreceiver]) hreplied
    exact
      { hapart with
        holdsFirst := hholds
        replied_spent := fun other hreplied hlinked => absurd hlinked (hspent other hreplied)
        readsLinked := by
          obtain ⟨entry, hlookup, rfl⟩ := hholds
          intro read hread
          rcases List.mem_append.mp hread with hold | hnew
          · exact hapart.readsLinked read hold
          · rw [List.mem_singleton.mp hnew]
            exact decide_eq_true (mem_linked_of_lookup hlookup) }
  next serial id hreceiver =>
    rw [hreceiver] at hholds
    have hspent : ∀ other ∈ state.replyEvents, other ∉ linked state.nodes := by
      intro other hreplied
      exact hapart.replied_unlinked (by simp [hreceiver]) hreplied
    have hlinked : serial ∈ linked state.nodes := by
      obtain ⟨entry, hlookup, rfl⟩ := hholds
      exact mem_linked_of_lookup hlookup
    split
    next =>
      exact
        { hapart with
          holdsFirst := hholds
          replied_lt := by
            intro other hreplied
            rcases List.mem_append.mp hreplied with hold | hnew
            · exact hapart.replied_lt other hold
            · rw [List.mem_singleton.mp hnew]
              exact hapart.linked_lt serial hlinked
          replied_spent := by
            intro other hreplied hother
            rcases List.mem_append.mp hreplied with hold | hnew
            · exact absurd hother (hspent other hold)
            · rw [List.mem_singleton.mp hnew]
              exact ⟨id, rfl⟩
          oneEvent := by
            intro other hreplied htimedOut
            rcases List.mem_append.mp hreplied with hold | hnew
            · exact hapart.oneEvent other hold htimedOut
            · rw [List.mem_singleton.mp hnew] at htimedOut
              exact hapart.timedOut_unlinked serial htimedOut hlinked }
    next =>
      exact
        { hapart with
          holdsFirst := trivial
          replied_spent := fun other hreplied hother => absurd hother (hspent other hreplied) }
  next id replied hreceiver => exact apart_remove state id replied hreceiver hapart

/-- Among nodes with different identities, one that expires is not among those that stay. -/
theorem expired_not_kept {nodes : List Entry} (hnodup : (linked nodes).Nodup) {uptime : Nat}
    {serial : Nat}
    (hexpired : serial ∈ linked (nodes.filter fun entry => entry.node.expired uptime)) :
    serial ∉ linked (nodes.filter fun entry => !entry.node.expired uptime) := by
  intro hkept
  obtain ⟨gone, hgone, hserial⟩ := List.mem_map.mp hexpired
  obtain ⟨stays, hstays, hsame⟩ := List.mem_map.mp hkept
  rw [List.mem_filter] at hgone hstays
  have heq : gone = stays :=
    List.inj_on_of_nodup_map hnodup hgone.1 hstays.1 (hserial.trans hsame.symm)
  rw [← heq, hgone.2] at hstays
  exact absurd hstays.2 (by decide)

/-- The held node is among those that stay in a tick that spares it. -/
theorem holdsFirst_tick {state : State} {uptime : Nat} {sendOk : Nat → Bool}
    (hspares : SparesHeld state (.tick uptime sendOk))
    (hholds : HoldsFirst state.nodes state.receiver) :
    HoldsFirst (tick state uptime sendOk).nodes state.receiver := by
  unfold SparesHeld at hspares
  cases hreceiver : state.receiver with
  | idle => trivial
  | handling serial id reads =>
      rw [hreceiver] at hholds hspares
      obtain ⟨entry, hlookup, rfl⟩ := hholds
      exact lookup_tick uptime hlookup (hspares entry (lookup_mem hlookup).1 rfl)
  | removing id replied =>
      cases replied with
      | none => trivial
      | some serial =>
          rw [hreceiver] at hholds hspares
          obtain ⟨entry, hlookup, rfl⟩ := hholds
          exact lookup_tick uptime hlookup (hspares entry (lookup_mem hlookup).1 rfl)

/-- A tick that spares the held node expires none whose reply event was queued. -/
theorem apart_tick (state : State) (uptime : Nat) (sendOk : Nat → Bool)
    (hspares : SparesHeld state (.tick uptime sendOk)) (hapart : Apart state) :
    Apart (tick state uptime sendOk) := by
  have hkept : linked (tick state uptime sendOk).nodes ⊆ linked state.nodes := by
    rw [tick, linked_tick]
    exact linked_filter_subset state.nodes _
  have htimedOut : ∀ serial ∈ (tick state uptime sendOk).timeoutEvents,
      serial ∈ state.timeoutEvents ∨
        serial ∈ linked (state.nodes.filter fun entry => entry.node.expired uptime) := by
    intro serial hserial
    rcases List.mem_append.mp hserial with hold | hnew
    · exact Or.inl hold
    · exact Or.inr (List.mem_of_mem_filter hnew)
  exact
    { linked_lt := fun serial hserial => hapart.linked_lt serial (hkept hserial)
      nodup := by
        rw [tick, linked_tick]
        exact hapart.nodup.sublist (List.filter_sublist.map Entry.serial)
      holdsFirst := holdsFirst_tick hspares hapart.holdsFirst
      replied_lt := hapart.replied_lt
      replied_spent := fun serial hreplied hserial =>
        hapart.replied_spent serial hreplied (hkept hserial)
      timedOut_lt := by
        intro serial hserial
        rcases htimedOut serial hserial with hold | hnew
        · exact hapart.timedOut_lt serial hold
        · exact hapart.linked_lt serial (linked_filter_subset state.nodes _ hnew)
      timedOut_unlinked := by
        intro serial hserial hlinked
        rcases htimedOut serial hserial with hold | hnew
        · exact hapart.timedOut_unlinked serial hold (hkept hlinked)
        · rw [tick, linked_tick] at hlinked
          exact expired_not_kept hapart.nodup hnew hlinked
      readsLinked := hapart.readsLinked
      oneEvent := by
        intro serial hreplied hserial
        rcases htimedOut serial hserial with hold | hnew
        · exact hapart.oneEvent serial hreplied hold
        · obtain ⟨id, hremoving⟩ := hapart.replied_spent serial hreplied
            (linked_filter_subset state.nodes _ hnew)
          obtain ⟨entry, hentry, rfl⟩ := List.mem_map.mp hnew
          rw [List.mem_filter] at hentry
          have hspared := hspares entry hentry.1 (by rw [hremoving]; rfl)
          rw [hspared] at hentry
          exact absurd hentry.2 (by decide) }

theorem apart_init : Apart init :=
  { linked_lt := fun _ hserial => absurd hserial List.not_mem_nil
    nodup := List.nodup_nil
    holdsFirst := trivial
    replied_lt := fun _ hserial => absurd hserial List.not_mem_nil
    replied_spent := fun _ hserial => absurd hserial List.not_mem_nil
    timedOut_lt := fun _ hserial => absurd hserial List.not_mem_nil
    timedOut_unlinked := fun _ hserial => absurd hserial List.not_mem_nil
    readsLinked := fun _ hread => absurd hread List.not_mem_nil
    oneEvent := fun _ hserial => absurd hserial List.not_mem_nil }

/-- Every step that spares the held node keeps the threads apart. -/
theorem apart_raceStep (state : State) (action : Action) (hapart : Apart state)
    (hspares : SparesHeld state action) : Apart (raceStep state action) := by
  cases action with
  | insert msgid devid type mallocOk uptime =>
      exact apart_insert state msgid devid type mallocOk uptime hapart
  | reply handler code id =>
      unfold raceStep
      dsimp only
      split
      next hidle => exact apart_search state handler code id hidle hapart
      next => exact hapart
  | proceed sendOk => exact apart_proceed state sendOk hapart
  | tick uptime sendOk => exact apart_tick state uptime sendOk hspares hapart

/-! ## Whole runs -/

/-- Whatever the interleaving, as long as no tick finds the held node expired, nodes are
read while they are linked and no request gets two kinds of event. -/
theorem orderly_of_sparesHeld (actions : List Action)
    (hspares : StepsMeet raceStep SparesHeld init actions) :
    Always raceStep Orderly init actions := by
  have halways := always_of_stepsMeet apart_raceStep apart_init hspares
  exact halways.mono fun state hapart => ⟨hapart.readsLinked, hapart.oneEvent⟩

/-- A reply that comes well before the timeout, and a second one that finds nothing. -/
theorem orderly_early_reply :
    Always raceStep Orderly init
      [.insert 0 1 30 true 0, .reply .dmMsgThingReply 200 0, .tick 9999 fun _ => true,
        .proceed true, .proceed true, .proceed true, .tick 20000 fun _ => true,
        .reply .dmMsgThingReply 200 0, .proceed true] :=
  orderly_of_sparesHeld _ (by decide)

/-- A reply that comes at the timeout: the tick frees the node between the search and the
read of its device id, and the request gets both events. -/
theorem reply_at_timeout_not_orderly :
    (¬Always raceStep Orderly init
      [.insert 0 1 30 true 0, .reply .dmMsgThingReply 200 0, .tick 10000 fun _ => true,
        .proceed true, .proceed true]) ∧
    ¬Always raceStep OneEvent init
      [.insert 0 1 30 true 0, .reply .dmMsgThingReply 200 0, .tick 10000 fun _ => true,
        .proceed true, .proceed true] := by
  constructor
  · intro halways
    have hreads : ReadsLinked _ := halways.finish.1
    revert hreads
    unfold ReadsLinked
    decide
  · intro halways
    have hevents := halways.finish
    revert hevents
    unfold OneEvent
    decide

end EnosDeviceSdk.DevModel.ReplyRace
