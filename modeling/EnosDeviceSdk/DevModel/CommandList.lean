/-
# The list of commands that wait for the user's reply

A command from the cloud is linked into `downstream_command_list`, and the user's callback gets
the node's address as its context. `IOT_EnOS_CommandReply` searches the list for the address,
copies the id from the node, publishes the response and deletes the node. Only the search and the
deletion hold the list's mutex. The overtime pass deletes old nodes in one critical section, and
an arriving command looks at the counter before it takes the mutex.

Any number of threads may be in these functions. A node is safe in the hands of a reply as long
as nobody else deletes it, which neither the mutex nor the search ensures: a second reply for the
same context finds the node too, and the overtime pass asks nobody.
-/

import EnosDeviceSdk.Library.Keyed
import EnosDeviceSdk.Library.Run
import EnosDeviceSdk.Infra.Memory
import EnosDeviceSdk.Infra.State
import Mathlib.Logic.Function.Basic

namespace EnosDeviceSdk.DevModel.CommandList

open EnosDeviceSdk.Infra EnosDeviceSdk.Library

universe u v

variable {ι : Type u} {τ : Type v}

/-- `CONFIG_COMMAND_LIST_MAXLEN` -/
def configCommandListMaxlen : Int := 30

/-- `CONFIG_SERVICE_REQUEST_TIMEOUT` -/
def configServiceRequestTimeout : Nat := 20000

/-- `iotx_command_ctx_node_t` at its address, with the number of its allocation. All nodes are of
the general type and carry no context of their own. -/
structure CommandNode (ι : Type u) where
  address : ι
  serial : Nat
  msgid : List UInt8
  ctime : Nat
  deriving DecidableEq

/-- A clock that went backwards resets the creation time of a node. -/
def CommandNode.clamp (node : CommandNode ι) (currentTime : Nat) : CommandNode ι :=
  if currentTime < node.ctime then { node with ctime := currentTime } else node

/-- The timeout test that an overtime pass makes on a clamped node. -/
def CommandNode.expired (node : CommandNode ι) (currentTime : Nat) : Bool :=
  currentTime - (node.clamp currentTime).ctime ≥ configServiceRequestTimeout

/-- Where a call of `IOT_EnOS_CommandReply` stands: outside; past the search that found its node;
with the id copied; or with the response published. The serial is that of the command whose node
it has read last. -/
inductive ReplyPc (ι : Type u)
  | idle
  | found (node : ι) (serial : Nat)
  | copied (node : ι) (serial : Nat) (msgid : List UInt8)
  | published (node : ι) (serial : Nat)
  deriving DecidableEq

/-- The node that a call is about to use, and the command it takes it for. -/
def ReplyPc.held : ReplyPc ι → Option (ι × Nat)
  | .idle => none
  | .found node serial | .copied node serial _ | .published node serial => some (node, serial)

/-- A read of a node's id, and whether the node was linked at that moment. -/
structure IdRead where
  serial : Nat
  linked : Bool
  deriving DecidableEq

/-- A response, for the command that the call took the node for. -/
structure Response where
  serial : Nat
  msgid : List UInt8
  deriving DecidableEq

/-- The list with its counter; the threads that are between the check of the counter and the
linking of a command, and those inside `IOT_EnOS_CommandReply`; and what has happened so far: how
many commands were linked, how often each was unlinked, the reads and the responses. -/
structure World (τ : Type v) (ι : Type u) where
  commandListNum : Int
  downstreamCommandList : List (CommandNode ι)
  arriving : τ → Option (List UInt8)
  replying : τ → ReplyPc ι
  allocated : Nat
  unlinkings : Nat → Nat
  reads : List IdRead
  responses : List Response

section Steps

variable [DecidableEq ι] [DecidableEq τ]

/-- The linked node at an address. -/
def World.nodeAt (world : World τ ι) (address : ι) : Option (CommandNode ι) :=
  world.downstreamCommandList.find? fun node => node.address = address

/-- The counter after a deletion: it stops at zero. -/
def decrement (commandListNum : Int) : Int :=
  if commandListNum > 0 then commandListNum - 1 else commandListNum

/-- One more unlinking of a command. -/
def unlinkOnce (unlinkings : Nat → Nat) (serial : Nat) : Nat → Nat :=
  Function.update unlinkings serial (unlinkings serial + 1)

/-- `_enos_command_list_insert` up to the mutex. -/
def arrive (world : World τ ι) (thread : τ) (msgid : List UInt8) : World τ ι :=
  if world.commandListNum ≥ configCommandListMaxlen then world
  else { world with arriving := Function.update world.arriving thread (some msgid) }

/-- `_enos_command_list_insert` from the mutex on. A node is linked in front, at an address that no
linked node has. -/
def link (allocator : HeapAllocator ι) (world : World τ ι) (thread : τ)
    (moment uptime : Nat) : World τ ι :=
  match world.arriving thread with
  | none => world
  | some msgid =>
      let left := Function.update world.arriving thread none
      match allocator.malloc moment
          (world.downstreamCommandList.map CommandNode.address) with
      | none => { world with arriving := left }
      | some address =>
          { world with
            arriving := left
            commandListNum := world.commandListNum + 1
            downstreamCommandList :=
              ⟨address, world.allocated, msgid, uptime⟩ :: world.downstreamCommandList
            allocated := world.allocated + 1 }

/-- `_enos_command_list_search`, with which a reply for a context begins. -/
def search (world : World τ ι) (thread : τ) (context : ι) : World τ ι :=
  match world.nodeAt context with
  | some node =>
      { world with
        replying := Function.update world.replying thread (.found context node.serial) }
  | none => world

/-- The copy of the id. `stale` is what lies in memory where the node is gone. -/
def copyId (world : World τ ι) (thread : τ) (context : ι) (serial : Nat)
    (stale : List UInt8) : World τ ι :=
  match world.nodeAt context with
  | some node =>
      { world with
        replying := Function.update world.replying thread
          (.copied context node.serial node.msgid)
        reads := world.reads ++ [⟨node.serial, true⟩] }
  | none =>
      { world with
        replying := Function.update world.replying thread (.copied context serial stale)
        reads := world.reads ++ [⟨serial, false⟩] }

/-- `_enos_command_list_delete`, with which a reply ends. A node that is gone is unlinked a second
time. -/
def delete (world : World τ ι) (thread : τ) (context : ι) (serial : Nat) : World τ ι :=
  let left := Function.update world.replying thread .idle
  match world.nodeAt context with
  | some node =>
      { world with
        replying := left
        commandListNum := decrement world.commandListNum
        downstreamCommandList :=
          world.downstreamCommandList.filter fun other => other.address ≠ context
        unlinkings := unlinkOnce world.unlinkings node.serial }
  | none =>
      { world with
        replying := left
        commandListNum := decrement world.commandListNum
        unlinkings := unlinkOnce world.unlinkings serial }

/-- The next step of a thread inside `IOT_EnOS_CommandReply`. It goes on to the deletion whether or
not the response was sent. -/
def proceed (world : World τ ι) (thread : τ) (stale : List UInt8) (sent : Bool) : World τ ι :=
  match world.replying thread with
  | .idle => world
  | .found context serial => copyId world thread context serial stale
  | .copied context serial msgid =>
      { world with
        replying := Function.update world.replying thread (.published context serial)
        responses := if sent then world.responses ++ [⟨serial, msgid⟩] else world.responses }
  | .published context serial => delete world thread context serial

/-- The loop of `iotx_enos_service_list_overtime_handle`: the nodes that stay, the counter, and
the unlinkings. -/
def overtimeLoop (currentTime : Nat) : List (CommandNode ι) → Int × (Nat → Nat) →
    List (CommandNode ι) × Int × (Nat → Nat)
  | [], counts => ([], counts)
  | node :: rest, (commandListNum, unlinkings) =>
      if node.expired currentTime then
        overtimeLoop currentTime rest
          (decrement commandListNum, unlinkOnce unlinkings node.serial)
      else
        let (kept, counts) := overtimeLoop currentTime rest (commandListNum, unlinkings)
        (node.clamp currentTime :: kept, counts)

/-- `iotx_enos_service_list_overtime_handle` -/
def overtimeHandle (world : World τ ι) (uptime : Nat) : World τ ι :=
  let (kept, commandListNum, unlinkings) :=
    overtimeLoop uptime world.downstreamCommandList (world.commandListNum, world.unlinkings)
  { world with
    commandListNum := commandListNum
    downstreamCommandList := kept
    unlinkings := unlinkings }

/-- What may happen next: a command arrives in a thread, and the thread goes on to link it; a
thread replies for a context, and goes on; or the overtime pass runs. -/
inductive Event (τ : Type v) (ι : Type u)
  | arrive (thread : τ) (msgid : List UInt8)
  | link (thread : τ) (moment uptime : Nat)
  | reply (thread : τ) (context : ι)
  | proceed (thread : τ) (stale : List UInt8) (sent : Bool)
  | overtime (uptime : Nat)

/-- The world after it. A thread replies when it is done with its last reply. -/
def step (allocator : HeapAllocator ι) (world : World τ ι) : Event τ ι → World τ ι
  | .arrive thread msgid => arrive world thread msgid
  | .link thread moment uptime => link allocator world thread moment uptime
  | .reply thread context =>
      match world.replying thread with
      | .idle => search world thread context
      | _ => world
  | .proceed thread stale sent => proceed world thread stale sent
  | .overtime uptime => overtimeHandle world uptime

end Steps

/-- Before the first command. -/
def start : World τ ι where
  commandListNum := 0
  downstreamCommandList := []
  arriving := fun _ => none
  replying := fun _ => .idle
  allocated := 0
  unlinkings := fun _ => 0
  reads := []
  responses := []

/-- The serials of the linked nodes. -/
def World.linked (world : World τ ι) : List Nat :=
  world.downstreamCommandList.map CommandNode.serial

/-- What the list promises: the counter is its length, within the limit; a command that was linked
is linked still or was unlinked once; ids are read from linked nodes only; and no command gets
two responses. -/
structure Orderly (world : World τ ι) : Prop where
  counted : world.commandListNum = world.downstreamCommandList.length
  bounded : world.commandListNum ≤ configCommandListMaxlen
  unlinkedOnce : ∀ serial < world.allocated,
    world.unlinkings serial = if serial ∈ world.linked then 0 else 1
  readsLinked : ∀ read ∈ world.reads, read.linked = true
  oneResponse : (world.responses.map Response.serial).Nodup

/-- Nobody else gets at a node that a reply holds: a command is linked where there is room, a reply
does not begin for a node that another one holds, and no overtime pass finds a held node
expired. -/
def Exclusive (world : World τ ι) : Event τ ι → Prop
  | .arrive .. | .proceed .. => True
  | .link thread .. => world.arriving thread ≠ none →
      world.commandListNum < configCommandListMaxlen
  | .reply _ context => ∀ other serial, (world.replying other).held ≠ some (context, serial)
  | .overtime uptime => ∀ node ∈ world.downstreamCommandList, node.expired uptime = true →
      ∀ other serial, (world.replying other).held ≠ some (node.address, serial)

/-! ## The invariant -/

/-- The list is in order, and every reply inside the function holds a linked node of its own. A
command that has its response is being deleted or is gone. -/
structure Safe (world : World τ ι) : Prop extends Orderly world where
  addresses_distinct : (world.downstreamCommandList.map CommandNode.address).Nodup
  serials_distinct : world.linked.Nodup
  serials_lt : ∀ serial ∈ world.linked, serial < world.allocated
  holds_linked : ∀ thread context serial, (world.replying thread).held = some (context, serial) →
    ∃ node ∈ world.downstreamCommandList, node.address = context ∧ node.serial = serial
  apart : ∀ first second context serial other,
    (world.replying first).held = some (context, serial) →
    (world.replying second).held = some (context, other) → first = second
  unlinked_lt : ∀ serial, world.allocated ≤ serial → world.unlinkings serial = 0
  answered_lt : ∀ response ∈ world.responses, response.serial < world.allocated
  answered_spent : ∀ response ∈ world.responses, response.serial ∈ world.linked →
    ∃ thread context, world.replying thread = .published context response.serial

theorem safe_start : Safe (start : World τ ι) where
  counted := rfl
  bounded := by simp [start, configCommandListMaxlen]
  unlinkedOnce := fun _ hserial => absurd hserial (Nat.not_lt_zero _)
  readsLinked := fun _ hread => absurd hread List.not_mem_nil
  oneResponse := List.nodup_nil
  addresses_distinct := List.nodup_nil
  serials_distinct := List.nodup_nil
  serials_lt := fun _ hserial => absurd hserial List.not_mem_nil
  holds_linked := fun _ _ _ hheld => absurd hheld (by simp [start, ReplyPc.held])
  apart := fun _ _ _ _ _ hheld => absurd hheld (by simp [start, ReplyPc.held])
  unlinked_lt := fun _ _ => rfl
  answered_lt := fun _ hresponse => absurd hresponse List.not_mem_nil
  answered_spent := fun _ hresponse => absurd hresponse List.not_mem_nil

section Decidable

variable [DecidableEq ι]

/-- The search by address finds exactly the linked nodes. -/
theorem Safe.nodeAt_iff {world : World τ ι} (hsafe : Safe world) (address : ι)
    (node : CommandNode ι) :
    world.nodeAt address = some node ↔
      node ∈ world.downstreamCommandList ∧ node.address = address :=
  find?_key_iff hsafe.addresses_distinct address node

/-- What a reply holds, the search by address finds. -/
theorem Safe.nodeAt_of_held {world : World τ ι} (hsafe : Safe world) {thread : τ} {context : ι}
    {serial : Nat} (hheld : (world.replying thread).held = some (context, serial)) :
    ∃ node, world.nodeAt context = some node ∧ node.serial = serial := by
  obtain ⟨node, hmem, haddress, hserial⟩ := hsafe.holds_linked thread context serial hheld
  exact ⟨node, (hsafe.nodeAt_iff context node).mpr ⟨hmem, haddress⟩, hserial⟩

/-! ## Arrivals -/

variable [DecidableEq τ]

omit [DecidableEq ι] in
theorem safe_arrive {world : World τ ι} (hsafe : Safe world) (thread : τ)
    (msgid : List UInt8) : Safe (arrive world thread msgid) := by
  unfold arrive
  split
  · exact hsafe
  · exact { hsafe with }

omit [DecidableEq ι] in
theorem safe_link (allocator : HeapAllocator ι) {world : World τ ι} (hsafe : Safe world)
    (thread : τ) (moment uptime : Nat)
    (hroom : world.arriving thread ≠ none → world.commandListNum < configCommandListMaxlen) :
    Safe (link allocator world thread moment uptime) := by
  unfold link
  cases harriving : world.arriving thread with
  | none => exact hsafe
  | some msgid =>
      dsimp only
      cases hmalloc : allocator.malloc moment
          (world.downstreamCommandList.map CommandNode.address) with
      | none => exact { hsafe with }
      | some address =>
          have hless := hroom (by simp [harriving])
          have hnew : address ∉ world.downstreamCommandList.map CommandNode.address :=
            allocator.fresh _ _ _ hmalloc
          have hserial : world.allocated ∉ world.linked := fun hmem =>
            absurd (hsafe.serials_lt _ hmem) (Nat.lt_irrefl _)
          exact
            { counted := by
                simp only [List.length_cons, hsafe.counted]
                push_cast
                rfl
              bounded := by
                simp only
                omega
              unlinkedOnce := by
                intro serial hlt
                simp only [World.linked, List.map_cons, List.mem_cons]
                rcases Nat.lt_succ_iff_lt_or_eq.mp hlt with hold | rfl
                · have hne : serial ≠ world.allocated := Nat.ne_of_lt hold
                  simpa [hne, World.linked] using hsafe.unlinkedOnce serial hold
                · simpa using hsafe.unlinked_lt world.allocated Nat.le.refl
              readsLinked := hsafe.readsLinked
              oneResponse := hsafe.oneResponse
              addresses_distinct := List.nodup_cons.mpr ⟨hnew, hsafe.addresses_distinct⟩
              serials_distinct := List.nodup_cons.mpr ⟨hserial, hsafe.serials_distinct⟩
              serials_lt := by
                intro serial hmem
                rcases List.mem_cons.mp hmem with rfl | hold
                · exact Nat.lt_succ_self _
                · exact Nat.lt_succ_of_lt (hsafe.serials_lt serial hold)
              holds_linked := by
                intro holder context serial hheld
                obtain ⟨node, hmem, hnode⟩ := hsafe.holds_linked holder context serial hheld
                exact ⟨node, List.mem_cons_of_mem _ hmem, hnode⟩
              apart := hsafe.apart
              unlinked_lt := fun serial hle =>
                hsafe.unlinked_lt serial (Nat.le_of_succ_le hle)
              answered_lt := fun response hresponse =>
                Nat.lt_succ_of_lt (hsafe.answered_lt response hresponse)
              answered_spent := by
                intro response hresponse hmem
                rcases List.mem_cons.mp hmem with hsame | hold
                · have hlt := hsafe.answered_lt response hresponse
                  exact absurd (hsame ▸ hlt) (Nat.lt_irrefl _)
                · exact hsafe.answered_spent response hresponse hold }

/-! ## Replies -/

omit [DecidableEq ι] in
/-- A thread that changes its place: what it holds now is linked, nobody else holds it, and it was
not the thread that was to delete an answered command. -/
theorem Safe.moved {world : World τ ι} (hsafe : Safe world) {thread : τ} {pc : ReplyPc ι}
    (hlinked : ∀ context serial, pc.held = some (context, serial) →
      ∃ node ∈ world.downstreamCommandList, node.address = context ∧ node.serial = serial)
    (halone : ∀ context serial, pc.held = some (context, serial) → ∀ other, other ≠ thread →
      ∀ theirs, (world.replying other).held ≠ some (context, theirs))
    (hunpublished : ∀ context serial, world.replying thread ≠ .published context serial) :
    Safe { world with replying := Function.update world.replying thread pc } where
  counted := hsafe.counted
  bounded := hsafe.bounded
  unlinkedOnce := hsafe.unlinkedOnce
  readsLinked := hsafe.readsLinked
  oneResponse := hsafe.oneResponse
  addresses_distinct := hsafe.addresses_distinct
  serials_distinct := hsafe.serials_distinct
  serials_lt := hsafe.serials_lt
  holds_linked := by
    intro holder context serial hheld
    dsimp only at hheld
    by_cases hsame : holder = thread
    · subst hsame
      rw [Function.update_self] at hheld
      exact hlinked context serial hheld
    · rw [Function.update_of_ne hsame] at hheld
      exact hsafe.holds_linked holder context serial hheld
  apart := by
    intro first second context serial other hfirst hsecond
    dsimp only at hfirst hsecond
    by_cases hone : first = thread <;> by_cases htwo : second = thread
    · rw [hone, htwo]
    · rw [hone, Function.update_self] at hfirst
      rw [Function.update_of_ne htwo] at hsecond
      exact absurd hsecond (halone context serial hfirst second htwo other)
    · rw [Function.update_of_ne hone] at hfirst
      rw [htwo, Function.update_self] at hsecond
      exact absurd hfirst (halone context other hsecond first hone serial)
    · rw [Function.update_of_ne hone] at hfirst
      rw [Function.update_of_ne htwo] at hsecond
      exact hsafe.apart first second context serial other hfirst hsecond
  unlinked_lt := hsafe.unlinked_lt
  answered_lt := hsafe.answered_lt
  answered_spent := by
    intro response hresponse hmem
    obtain ⟨holder, context, hholder⟩ := hsafe.answered_spent response hresponse hmem
    have hother : holder ≠ thread := by
      rintro rfl
      exact hunpublished context response.serial hholder
    exact ⟨holder, context, (Function.update_of_ne hother ..).trans hholder⟩

theorem safe_search {world : World τ ι} (hsafe : Safe world) {thread : τ} {context : ι}
    (hidle : world.replying thread = .idle)
    (hfree : ∀ other serial, (world.replying other).held ≠ some (context, serial)) :
    Safe (search world thread context) := by
  unfold search
  cases hfound : world.nodeAt context with
  | none => exact hsafe
  | some node =>
      obtain ⟨hmem, haddress⟩ := (hsafe.nodeAt_iff context node).mp hfound
      apply hsafe.moved
      · rintro _ _ ⟨⟩
        exact ⟨node, hmem, haddress, rfl⟩
      · rintro _ _ ⟨⟩ other _ theirs
        exact hfree other theirs
      · intro _ _ hpublished
        rw [hidle] at hpublished
        exact absurd hpublished (by simp)

theorem safe_copyId {world : World τ ι} (hsafe : Safe world) {thread : τ} {context : ι}
    {serial : Nat} (hfound : world.replying thread = .found context serial)
    (stale : List UInt8) : Safe (copyId world thread context serial stale) := by
  have hheld : (world.replying thread).held = some (context, serial) := by
    rw [hfound]
    rfl
  obtain ⟨node, hnode, rfl⟩ := hsafe.nodeAt_of_held hheld
  have hmoved : Safe { world with
      replying := Function.update world.replying thread
        (.copied context node.serial node.msgid) } := by
    apply hsafe.moved
    · rintro _ _ ⟨⟩
      exact hsafe.holds_linked thread context node.serial hheld
    · rintro _ _ ⟨⟩ other hother theirs htheirs
      exact hother (hsafe.apart other thread context theirs node.serial htheirs hheld)
    · intro _ _ hpublished
      rw [hfound] at hpublished
      exact absurd hpublished (by simp)
  unfold copyId
  rw [hnode]
  exact
    { hmoved with
      readsLinked := by
        intro read hread
        rcases List.mem_append.mp hread with hold | hnew
        · exact hsafe.readsLinked read hold
        · rw [List.mem_singleton] at hnew
          rw [hnew] }

omit [DecidableEq ι] [DecidableEq τ] in
/-- No response has been published for the command that a reply is about to answer. -/
theorem Safe.not_answered {world : World τ ι} (hsafe : Safe world) {thread : τ} {context : ι}
    {serial : Nat} {msgid : List UInt8}
    (hcopied : world.replying thread = .copied context serial msgid) :
    serial ∉ world.responses.map Response.serial := by
  intro hmem
  obtain ⟨response, hresponse, rfl⟩ := List.mem_map.mp hmem
  have hheld : (world.replying thread).held = some (context, response.serial) := by
    rw [hcopied]
    rfl
  obtain ⟨node, hnode, haddress, hserial⟩ := hsafe.holds_linked thread context _ hheld
  have hlinked : response.serial ∈ world.linked := hserial ▸ List.mem_map_of_mem hnode
  obtain ⟨other, theirs, hother⟩ := hsafe.answered_spent response hresponse hlinked
  have htheirs : (world.replying other).held = some (theirs, response.serial) := by
    rw [hother]
    rfl
  obtain ⟨node', hnode', haddress', hserial'⟩ := hsafe.holds_linked other theirs _ htheirs
  have hsame : node' = node :=
    List.inj_on_of_nodup_map hsafe.serials_distinct hnode' hnode (hserial'.trans hserial.symm)
  rw [← haddress', hsame, haddress] at htheirs
  obtain rfl : other = thread := hsafe.apart other thread context _ _ htheirs hheld
  rw [hcopied] at hother
  exact absurd hother (by simp)

omit [DecidableEq ι] in
theorem safe_publish {world : World τ ι} (hsafe : Safe world) {thread : τ} {context : ι}
    {serial : Nat} {msgid : List UInt8}
    (hcopied : world.replying thread = .copied context serial msgid) (sent : Bool) :
    Safe { world with
      replying := Function.update world.replying thread (.published context serial)
      responses := if sent then world.responses ++ [⟨serial, msgid⟩] else world.responses } := by
  have hheld : (world.replying thread).held = some (context, serial) := by
    rw [hcopied]
    rfl
  have hmoved : Safe { world with
      replying := Function.update world.replying thread (.published context serial) } := by
    apply hsafe.moved
    · rintro _ _ ⟨⟩
      exact hsafe.holds_linked thread context serial hheld
    · rintro _ _ ⟨⟩ other hother theirs htheirs
      exact hother (hsafe.apart other thread context theirs serial htheirs hheld)
    · intro _ _ hpublished
      rw [hcopied] at hpublished
      exact absurd hpublished (by simp)
  have hserial : serial < world.allocated := by
    obtain ⟨node, hnode, _, rfl⟩ := hsafe.holds_linked thread context serial hheld
    exact hsafe.serials_lt _ (List.mem_map_of_mem hnode)
  cases sent with
  | false => exact hmoved
  | true =>
      rw [if_pos rfl]
      exact
        { hmoved with
          oneResponse := by
            rw [List.map_append, List.nodup_append]
            refine ⟨hsafe.oneResponse, List.nodup_singleton _, ?_⟩
            intro answered hanswered other hother hsame
            rw [List.map_singleton, List.mem_singleton] at hother
            rw [hsame, hother] at hanswered
            exact hsafe.not_answered hcopied hanswered
          answered_lt := by
            intro response hresponse
            rcases List.mem_append.mp hresponse with hold | hnew
            · exact hsafe.answered_lt response hold
            · rw [List.mem_singleton] at hnew
              rw [hnew]
              exact hserial
          answered_spent := by
            intro response hresponse hlinked
            rcases List.mem_append.mp hresponse with hold | hnew
            · exact hmoved.answered_spent response hold hlinked
            · rw [List.mem_singleton] at hnew
              exact ⟨thread, context, by rw [hnew]; exact Function.update_self ..⟩ }

/-! ## Deletions -/

omit [DecidableEq ι] [DecidableEq τ] in
/-- Serials tell the nodes that stay from those that go. -/
theorem Safe.mem_kept_iff {world : World τ ι} (hsafe : Safe world)
    (drop : CommandNode ι → Bool) (serial : Nat) :
    serial ∈ (world.downstreamCommandList.filter fun node => !drop node).map
        CommandNode.serial ↔
      serial ∈ world.linked ∧
        serial ∉ (world.downstreamCommandList.filter drop).map CommandNode.serial := by
  constructor
  · intro hmem
    obtain ⟨node, hnode, rfl⟩ := List.mem_map.mp hmem
    rw [List.mem_filter] at hnode
    refine ⟨List.mem_map_of_mem hnode.1, fun hdropped => ?_⟩
    obtain ⟨other, hother, hserial⟩ := List.mem_map.mp hdropped
    rw [List.mem_filter] at hother
    have hsame : other = node :=
      List.inj_on_of_nodup_map hsafe.serials_distinct hother.1 hnode.1 hserial
    rw [hsame] at hother
    simp [hother.2] at hnode
  · rintro ⟨hlinked, hkept⟩
    obtain ⟨node, hnode, rfl⟩ := List.mem_map.mp hlinked
    refine List.mem_map_of_mem (List.mem_filter.mpr ⟨hnode, ?_⟩)
    cases hdrop : drop node with
    | false => rfl
    | true => exact absurd (List.mem_map_of_mem (List.mem_filter.mpr ⟨hnode, hdrop⟩)) hkept

/-- The list behind a deletion: the nodes that stay, each changed. -/
def remaining (list : List (CommandNode ι)) (drop : CommandNode ι → Bool)
    (change : CommandNode ι → CommandNode ι) : List (CommandNode ι) :=
  (list.filter fun node => !drop node).map change

/-- The serials of the nodes that a deletion unlinks. -/
def droppedSerials (list : List (CommandNode ι)) (drop : CommandNode ι → Bool) : List Nat :=
  (list.filter drop).map CommandNode.serial

/-- Each thread either goes on and holds no node that is unlinked, or leaves the function, and
what it has published is unlinked. -/
def LetsGo (world : World τ ι) (drop : CommandNode ι → Bool) (replying : τ → ReplyPc ι) : Prop :=
  ∀ thread,
    (replying thread = world.replying thread ∧
      ∀ node ∈ world.downstreamCommandList, drop node = true →
        ∀ serial, (world.replying thread).held ≠ some (node.address, serial)) ∨
    (replying thread = .idle ∧ ∀ context serial,
      world.replying thread = .published context serial →
        serial ∈ droppedSerials world.downstreamCommandList drop)

omit [DecidableEq ι] in
/-- What a change leaves alone is the same along the nodes that stay. -/
theorem map_remaining {β : Type*} (list : List (CommandNode ι)) (drop : CommandNode ι → Bool)
    {change : CommandNode ι → CommandNode ι} {field : CommandNode ι → β}
    (hfield : ∀ node, field (change node) = field node) :
    (remaining list drop change).map field = (list.filter fun node => !drop node).map field := by
  rw [remaining, List.map_map]
  exact List.map_congr_left fun node _ => hfield node

omit [DecidableEq ι] [DecidableEq τ] in
/-- What a thread holds behind a deletion it held before, and the node stays. -/
theorem LetsGo.held {world : World τ ι} {drop : CommandNode ι → Bool} {replying : τ → ReplyPc ι}
    (hgo : LetsGo world drop replying) {thread : τ} {context : ι} {serial : Nat}
    (hheld : (replying thread).held = some (context, serial)) :
    (world.replying thread).held = some (context, serial) ∧
      ∀ node ∈ world.downstreamCommandList, drop node = true → node.address ≠ context := by
  rcases hgo thread with ⟨hsame, hothers⟩ | ⟨hidle, _⟩
  · rw [hsame] at hheld
    refine ⟨hheld, fun node hnode hdrop hcontext => ?_⟩
    exact hothers node hnode hdrop serial (by rw [hheld, hcontext])
  · rw [hidle] at hheld
    exact absurd hheld (by simp [ReplyPc.held])

omit [DecidableEq ι] [DecidableEq τ] in
/-- A serial of the past is either linked or was unlinked once. -/
theorem Safe.unlinkedOnce_remaining {world : World τ ι} (hsafe : Safe world)
    (drop : CommandNode ι → Bool) {unlinkings : Nat → Nat}
    (hunlinkings : ∀ serial, unlinkings serial =
      if serial ∈ droppedSerials world.downstreamCommandList drop then
        world.unlinkings serial + 1
      else world.unlinkings serial) {serial : Nat} (hlt : serial < world.allocated) :
    unlinkings serial =
      if serial ∈ (world.downstreamCommandList.filter fun node => !drop node).map
        CommandNode.serial then 0 else 1 := by
  have hbefore := hsafe.unlinkedOnce serial hlt
  rw [hunlinkings serial, hbefore]
  by_cases hdropped : serial ∈ droppedSerials world.downstreamCommandList drop
  · have hlinked : serial ∈ world.linked :=
      (List.filter_sublist.map CommandNode.serial).subset hdropped
    have hgone : serial ∈
        (world.downstreamCommandList.filter drop).map CommandNode.serial := hdropped
    simp only [hsafe.mem_kept_iff drop serial, hgone, hdropped, hlinked, if_true,
      not_true_eq_false, and_false, if_false]
  · have hstays : serial ∉
        (world.downstreamCommandList.filter drop).map CommandNode.serial := hdropped
    simp only [hsafe.mem_kept_iff drop serial, hstays, hdropped, not_false_eq_true, and_true,
      if_false]

omit [DecidableEq ι] [DecidableEq τ] in
/-- The node that a thread holds behind a deletion is linked. -/
theorem Safe.holds_remaining {world : World τ ι} (hsafe : Safe world)
    {drop : CommandNode ι → Bool} {change : CommandNode ι → CommandNode ι}
    {replying : τ → ReplyPc ι} (hgo : LetsGo world drop replying)
    (haddress : ∀ node, (change node).address = node.address)
    (hserial : ∀ node, (change node).serial = node.serial) {thread : τ} {context : ι}
    {serial : Nat} (hheld : (replying thread).held = some (context, serial)) :
    ∃ node ∈ remaining world.downstreamCommandList drop change,
      node.address = context ∧ node.serial = serial := by
  obtain ⟨hbefore, hspared⟩ := hgo.held hheld
  obtain ⟨node, hnode, hcontext, hnodeSerial⟩ :=
    hsafe.holds_linked thread context serial hbefore
  refine ⟨change node, List.mem_map_of_mem (List.mem_filter.mpr ⟨hnode, ?_⟩), ?_, ?_⟩
  · cases hdrop : drop node with
    | false => rfl
    | true => exact absurd hcontext (hspared node hnode hdrop)
  · rw [haddress, hcontext]
  · rw [hserial, hnodeSerial]

omit [DecidableEq ι] [DecidableEq τ] in
/-- Nodes are unlinked, counted as often as they are, and each thread either holds none of them or
leaves the function. -/
theorem Safe.dropped {world : World τ ι} (hsafe : Safe world) (drop : CommandNode ι → Bool)
    {change : CommandNode ι → CommandNode ι} {commandListNum : Int} {unlinkings : Nat → Nat}
    {replying : τ → ReplyPc ι}
    (haddress : ∀ node, (change node).address = node.address)
    (hserial : ∀ node, (change node).serial = node.serial)
    (hcounted : commandListNum =
      (world.downstreamCommandList.filter fun node => !drop node).length)
    (hunlinkings : ∀ serial, unlinkings serial =
      if serial ∈ droppedSerials world.downstreamCommandList drop then
        world.unlinkings serial + 1
      else world.unlinkings serial)
    (hgo : LetsGo world drop replying) :
    Safe { world with
      commandListNum := commandListNum
      downstreamCommandList := remaining world.downstreamCommandList drop change
      replying := replying
      unlinkings := unlinkings } := by
  have hkept : List.Sublist (world.downstreamCommandList.filter fun node => !drop node)
      world.downstreamCommandList := List.filter_sublist
  have hserials := map_remaining world.downstreamCommandList drop hserial
  exact
    { counted := by rw [hcounted, remaining, List.length_map]
      bounded := by
        have hlength := hkept.length_le
        have hbounded := hsafe.bounded
        rw [hsafe.counted] at hbounded
        simp only [hcounted]
        omega
      unlinkedOnce := by
        intro serial hlt
        rw [World.linked, hserials]
        exact hsafe.unlinkedOnce_remaining drop hunlinkings hlt
      readsLinked := hsafe.readsLinked
      oneResponse := hsafe.oneResponse
      addresses_distinct := by
        rw [map_remaining world.downstreamCommandList drop haddress]
        exact hsafe.addresses_distinct.sublist (hkept.map _)
      serials_distinct := by
        rw [World.linked, hserials]
        exact hsafe.serials_distinct.sublist (hkept.map _)
      serials_lt := by
        intro serial hmem
        rw [World.linked, hserials] at hmem
        exact hsafe.serials_lt serial ((hsafe.mem_kept_iff drop serial).mp hmem).1
      holds_linked := fun _ _ _ hheld => hsafe.holds_remaining hgo haddress hserial hheld
      apart := fun first second context serial other hfirst hsecond =>
        hsafe.apart first second context serial other (hgo.held hfirst).1 (hgo.held hsecond).1
      unlinked_lt := by
        intro serial hle
        have hstays : serial ∉ droppedSerials world.downstreamCommandList drop := by
          intro hdropped
          have hlinked : serial ∈ world.linked :=
            (List.filter_sublist.map CommandNode.serial).subset hdropped
          exact absurd (hsafe.serials_lt serial hlinked) (Nat.not_lt.mpr hle)
        exact (hunlinkings serial).trans
          ((if_neg hstays).trans (hsafe.unlinked_lt serial hle))
      answered_lt := hsafe.answered_lt
      answered_spent := by
        intro response hresponse hmem
        rw [World.linked, hserials, hsafe.mem_kept_iff] at hmem
        obtain ⟨thread, context, hthread⟩ := hsafe.answered_spent response hresponse hmem.1
        rcases hgo thread with ⟨hsame, _⟩ | ⟨_, hgone⟩
        · exact ⟨thread, context, hsame.trans hthread⟩
        · exact absurd (hgone context response.serial hthread) hmem.2 }

theorem safe_delete {world : World τ ι} (hsafe : Safe world) {thread : τ} {context : ι}
    {serial : Nat} (hpublished : world.replying thread = .published context serial) :
    Safe (delete world thread context serial) := by
  have hheld : (world.replying thread).held = some (context, serial) := by
    rw [hpublished]
    rfl
  obtain ⟨node, hnode, rfl⟩ := hsafe.nodeAt_of_held hheld
  obtain ⟨hmem, rfl⟩ := (hsafe.nodeAt_iff context node).mp hnode
  have hlength := length_filter_key_ne hsafe.addresses_distinct hmem
  have hpositive : world.commandListNum > 0 := by
    rw [hsafe.counted]
    omega
  have hfilter : (world.downstreamCommandList.filter fun other =>
      other.address ≠ node.address) =
        (world.downstreamCommandList.filter fun other =>
          !decide (other.address = node.address)).map id := by
    rw [List.map_id]
    exact List.filter_congr fun other _ => decide_not
  have honly : ∀ serial, serial ∈ droppedSerials world.downstreamCommandList
      (fun other => decide (other.address = node.address)) ↔ serial = node.serial := by
    intro serial
    constructor
    · intro hserial
      obtain ⟨other, hother, rfl⟩ := List.mem_map.mp hserial
      rw [List.mem_filter, decide_eq_true_iff] at hother
      rw [List.inj_on_of_nodup_map hsafe.addresses_distinct hother.1 hmem hother.2]
    · rintro rfl
      exact List.mem_map_of_mem (List.mem_filter.mpr ⟨hmem, decide_eq_true rfl⟩)
  unfold delete
  rw [hnode]
  dsimp only
  rw [hfilter]
  apply hsafe.dropped (fun other => decide (other.address = node.address)) (fun _ => rfl)
    (fun _ => rfl)
  · have hcounted := hsafe.counted
    rw [List.map_id] at hfilter
    rw [← hfilter]
    simp only [decrement, hpositive, if_true]
    omega
  · intro serial
    rw [unlinkOnce, Function.update_apply]
    simp only [honly]
    split
    · rename_i hsame
      rw [hsame]
    · rfl
  · intro other
    by_cases hsame : other = thread
    · subst hsame
      refine Or.inr ⟨Function.update_self .., fun context serial hother => ?_⟩
      rw [hpublished] at hother
      injection hother with _ hserial
      exact (honly serial).mpr hserial.symm
    · refine Or.inl ⟨Function.update_of_ne hsame .., fun dropped _ hdrop serial hother => ?_⟩
      rw [of_decide_eq_true hdrop] at hother
      exact hsame (hsafe.apart other thread _ _ _ hother hheld)

omit [DecidableEq ι] [DecidableEq τ] in
/-- The overtime pass drops the expired nodes, counts each, and leaves the others in place. -/
theorem overtimeLoop_eq (currentTime : Nat) (list : List (CommandNode ι))
    (commandListNum : Int) (unlinkings : Nat → Nat)
    (hdistinct : (list.map CommandNode.serial).Nodup)
    (hcount : (list.length : Int) ≤ commandListNum) :
    (overtimeLoop currentTime list (commandListNum, unlinkings)).1 =
        (list.filter fun node => !node.expired currentTime).map (·.clamp currentTime) ∧
      (overtimeLoop currentTime list (commandListNum, unlinkings)).2.1 =
        commandListNum - (list.filter fun node => node.expired currentTime).length ∧
      ∀ serial, (overtimeLoop currentTime list (commandListNum, unlinkings)).2.2 serial =
        if serial ∈ (list.filter fun node => node.expired currentTime).map CommandNode.serial
        then unlinkings serial + 1 else unlinkings serial := by
  induction list generalizing commandListNum unlinkings with
  | nil => simp [overtimeLoop]
  | cons node rest ih =>
      rw [List.map_cons, List.nodup_cons] at hdistinct
      rw [List.length_cons] at hcount
      push_cast at hcount
      by_cases hexpired : node.expired currentTime
      · have hpositive : commandListNum > 0 := by omega
        have hdecrement : decrement commandListNum = commandListNum - 1 := if_pos hpositive
        obtain ⟨hkept, hnum, hunlinkings⟩ := ih (decrement commandListNum)
          (unlinkOnce unlinkings node.serial) hdistinct.2 (by omega)
        simp only [overtimeLoop, hexpired, if_true, Bool.not_true, Bool.false_eq_true,
          not_false_eq_true, List.filter_cons_of_neg, List.filter_cons_of_pos, List.length_cons,
          List.map_cons, List.mem_cons]
        refine ⟨hkept, ?_, fun serial => ?_⟩
        · rw [hnum, hdecrement]
          push_cast
          omega
        · rw [hunlinkings]
          by_cases hsame : serial = node.serial
          · subst hsame
            have habsent : node.serial ∉
                (rest.filter fun node => node.expired currentTime).map CommandNode.serial :=
              fun hmem => hdistinct.1
                ((List.filter_sublist.map CommandNode.serial).subset hmem)
            simp [habsent, unlinkOnce]
          · rw [unlinkOnce, Function.update_of_ne hsame]
            simp only [hsame, false_or]
      · obtain ⟨hkept, hnum, hunlinkings⟩ := ih commandListNum unlinkings hdistinct.2 (by omega)
        simp only [overtimeLoop, hexpired, if_false, Bool.not_false, not_false_eq_true,
          Bool.false_eq_true, List.filter_cons_of_pos, List.filter_cons_of_neg, List.map_cons]
        exact ⟨by rw [hkept], hnum, hunlinkings⟩

omit [DecidableEq ι] [DecidableEq τ] in
theorem safe_overtimeHandle {world : World τ ι} (hsafe : Safe world) (uptime : Nat)
    (hspares : ∀ node ∈ world.downstreamCommandList, node.expired uptime = true →
      ∀ other serial, (world.replying other).held ≠ some (node.address, serial)) :
    Safe (overtimeHandle world uptime) := by
  have hlength : (world.downstreamCommandList.length : Int) ≤ world.commandListNum :=
    Int.le_of_eq hsafe.counted.symm
  obtain ⟨hkept, hnum, hunlinkings⟩ := overtimeLoop_eq uptime world.downstreamCommandList
    world.commandListNum world.unlinkings hsafe.serials_distinct hlength
  have hsplit := List.length_eq_length_filter_add
    (l := world.downstreamCommandList) fun node => node.expired uptime
  unfold overtimeHandle
  dsimp only
  rw [hkept]
  apply hsafe.dropped (fun node => node.expired uptime)
  · intro node
    unfold CommandNode.clamp
    split <;> rfl
  · intro node
    unfold CommandNode.clamp
    split <;> rfl
  · rw [hnum, hsafe.counted]
    omega
  · exact hunlinkings
  · intro thread
    refine Or.inl ⟨rfl, fun node hnode hexpired serial => ?_⟩
    exact hspares node hnode hexpired thread serial

/-! ## Runs -/

/-- Every step that leaves held nodes to those who hold them keeps the list safe. -/
theorem safe_step (allocator : HeapAllocator ι) (world : World τ ι) (event : Event τ ι)
    (hsafe : Safe world) (hexclusive : Exclusive world event) :
    Safe (step allocator world event) := by
  cases event with
  | arrive thread msgid => exact safe_arrive hsafe thread msgid
  | link thread moment uptime =>
      exact safe_link allocator hsafe thread moment uptime hexclusive
  | reply thread context =>
      unfold step
      dsimp only
      split
      next hidle => exact safe_search hsafe hidle hexclusive
      next => exact hsafe
  | proceed thread stale sent =>
      unfold step proceed
      dsimp only
      split
      next => exact hsafe
      next hfound => exact safe_copyId hsafe hfound stale
      next hcopied => exact safe_publish hsafe hcopied sent
      next hpublished => exact safe_delete hsafe hpublished
  | overtime uptime => exact safe_overtimeHandle hsafe uptime hexclusive

/-- Whatever the interleaving, as long as commands are linked where there is room and nobody else
deletes a node that a reply holds, the list is in order in every state of the run. -/
theorem orderly_of_exclusive (allocator : HeapAllocator ι) (events : List (Event τ ι))
    (hexclusive : StepsMeet (step allocator) Exclusive start events) :
    Always (step allocator) Orderly (start : World τ ι) events :=
  (always_of_stepsMeet (safe_step allocator) safe_start hexclusive).mono
    fun _ hsafe => hsafe.toOrderly

end Decidable

/-- An allocator that hands out the addresses from zero up. -/
def countingAllocator : HeapAllocator Nat where
  malloc := fun _ inUse => some (inUse.foldr (fun block top => max (block + 1) top) 0)
  fresh := by
    intro moment inUse block hmalloc
    have hbelow : ∀ list : List Nat, ∀ used ∈ list,
        used < list.foldr (fun block top => max (block + 1) top) 0 := by
      intro list
      induction list with
      | nil => simp
      | cons first rest ih =>
          intro used hused
          rw [List.foldr_cons]
          rcases List.mem_cons.mp hused with rfl | hrest
          · exact Nat.lt_of_lt_of_le (Nat.lt_succ_self _) (Nat.le_max_left ..)
          · exact Nat.lt_of_lt_of_le (ih used hrest) (Nat.le_max_right ..)
    intro hmem
    have hlt := hbelow inUse block hmem
    rw [Option.some.inj hmalloc] at hlt
    exact Nat.lt_irrefl _ hlt

/-- A command arrives and is answered; another one arrives and times out. -/
def orderlyRun : List (Event Bool Nat) :=
  [.arrive false [49], .link false 0 100, .reply true 0, .proceed true [] true,
    .proceed true [] true, .proceed true [] true, .arrive false [50], .link false 1 200,
    .overtime 20200]

theorem orderly_of_exclusive_run :
    StepsMeet (step countingAllocator) Exclusive start orderlyRun ∧
      Always (step countingAllocator) Orderly start orderlyRun := by
  have hmeet : StepsMeet (step countingAllocator) Exclusive start orderlyRun := by
    refine ⟨trivial, fun _ => by decide, ?_, trivial, trivial, trivial, trivial,
      fun _ => by decide, ?_, trivial⟩
    · intro other serial
      cases other <;> exact nofun
    · intro _ _ _ other serial
      cases other <;> exact nofun
  exact ⟨hmeet, orderly_of_exclusive countingAllocator orderlyRun hmeet⟩

/-- Two replies for one context, both past the search before either copies the id; and an overtime
pass between the search and the copy. -/
theorem disorderly_after_shared_node :
    (¬Always (step countingAllocator) Orderly start
      [.arrive false [49], .link false 0 100, .reply false 0, .reply true 0,
        .proceed false [] true, .proceed false [] true, .proceed false [] true,
        .proceed true [] true]) ∧
    ¬Always (step countingAllocator) Orderly start
      [.arrive false [49], .link false 0 100, .reply true 0, .overtime 20100,
        .proceed true [] true] := by
  constructor
  · intro halways
    have hread := halways.finish.readsLinked ⟨0, false⟩ (by decide)
    exact absurd hread (by decide)
  · intro halways
    have hread := halways.finish.readsLinked ⟨0, false⟩ (by decide)
    exact absurd hread (by decide)

end EnosDeviceSdk.DevModel.CommandList
