/-
# The message queue between the receiving side and the user's callback

`dm_ipc.c` links the messages for the user into an intrusive list and counts them separately.
Insertion appends a node and removal takes the first one off, each under the queue's mutex.
`iotx_dm_dispatch` takes messages out one at a time and hands each to the event callback, with
the mutex released in between.

The list is modelled as it is in memory, by link fields at addresses. Every run of insertions
and removals keeps a ledger: the ring of nodes stands for a bounded queue, and what was
accepted is what was returned followed by what still waits.

Nothing keeps a second thread out of `iotx_dm_dispatch`, so any number of threads may be in it.
Each is one more place a message can be, between the queue and the user. Whatever the threads
do, no message is lost or handed over twice. The user sees the messages in their order as long
as no thread acts in a pass while another has taken a message and not yet handed it over, as
it is where passes follow each other, or where a pass is run inside the callback of another.
-/

import Mathlib.Algebra.BigOperators.Group.Finset.Piecewise
import Mathlib.Algebra.Order.Group.Multiset
import EnosDeviceSdk.Library.Run
import EnosDeviceSdk.Library.LinkRing
import EnosDeviceSdk.Library.BoundedQueue
import EnosDeviceSdk.Infra.Memory
import EnosDeviceSdk.Infra.State

namespace EnosDeviceSdk.DevModel

open EnosDeviceSdk.Infra EnosDeviceSdk.Library

universe u v w

namespace Ipc

variable {ι : Type u} {μ : Type v} {κ : Type w} [DecidableEq ι]

/-- `dm_ipc_t`, with the memory it lies in: `messageList` is the address of the list head, `data`
the field of the nodes, and `inUse` the blocks that are not free. -/
structure DmIpc (ι : Type u) (μ : Type v) where
  maxSize : Int
  size : Int
  messageList : ι
  links : Links ι
  data : ι → μ
  inUse : List ι

/-- `dm_ipc_init`, in whatever memory it finds. -/
def dmIpcInit (maxSize : Int) (messageList : ι) (links : Links ι) (data : ι → μ) : DmIpc ι μ where
  maxSize := maxSize
  size := 0
  messageList := messageList
  links := links.initHead messageList
  data := data
  inUse := [messageList]

/-- `dm_ipc_msg_insert`. A null pointer is no message. -/
def dmIpcMsgInsert (allocator : HeapAllocator ι) (ctx : DmIpc ι μ) (data : Option μ)
    (moment : Nat) : Int × DmIpc ι μ :=
  match data with
  | none => (stateUserInputInvalid, ctx)
  | some message =>
      if ctx.size ≥ ctx.maxSize then (stateDevModelMsgqFull, ctx)
      else
        match allocator.malloc moment ctx.inUse with
        | none => (stateSysDependMalloc, ctx)
        | some node =>
            (successReturn,
              { ctx with
                data := Function.update ctx.data node message
                links := (ctx.links.initHead node).addTail node ctx.messageList
                size := ctx.size + 1
                inUse := node :: ctx.inUse })

/-- `dm_ipc_msg_next`. The argument is the caller's pointer variable: `none` where no variable
is passed, `some none` where it holds the null pointer. -/
def dmIpcMsgNext (ctx : DmIpc ι μ) (data : Option (Option μ)) :
    Int × Option (Option μ) × DmIpc ι μ :=
  match data with
  | some none =>
      if ctx.links.isEmpty ctx.messageList then (stateDevModelMsgqEmpty, data, ctx)
      else
        let node := ctx.links.next ctx.messageList
        (successReturn, some (some (ctx.data node)),
          { ctx with
            links := ctx.links.del node
            size := ctx.size - 1
            inUse := ctx.inUse.erase node })
  | _ => (stateUserInputInvalid, data, ctx)

/-! ## The queue that the ring stands for -/

/-- The context holds a queue: the ring stands for nodes whose messages are the waiting ones, the
counter is their number, and all of them and the head are blocks in use. -/
structure Holds {capacity : Nat} (ctx : DmIpc ι μ) (queue : BoundedQueue μ capacity)
    (nodes : List ι) : Prop where
  rings : Rings ctx.links ctx.messageList nodes
  items : nodes.map ctx.data = queue.items
  size : ctx.size = nodes.length
  maxSize : ctx.maxSize = capacity
  inUse : ∀ block ∈ ctx.messageList :: nodes, block ∈ ctx.inUse

theorem holds_dmIpcInit (capacity : Nat) (messageList : ι) (links : Links ι) (data : ι → μ) :
    Holds (dmIpcInit capacity messageList links data)
      (BoundedQueue.empty : BoundedQueue μ capacity) [] where
  rings := rings_initHead links messageList
  items := rfl
  size := rfl
  maxSize := rfl
  inUse := fun _ hblock => hblock

variable {capacity : Nat} {ctx : DmIpc ι μ} {queue : BoundedQueue μ capacity} {nodes : List ι}

omit [DecidableEq ι] in
theorem Holds.length_eq (hholds : Holds ctx queue nodes) :
    nodes.length = queue.items.length := by
  rw [← hholds.items, List.length_map]

omit [DecidableEq ι] in
/-- The counter never passes the limit. -/
theorem Holds.size_le (hholds : Holds ctx queue nodes) : ctx.size ≤ ctx.maxSize := by
  have hlength := queue.length_le
  rw [← hholds.length_eq] at hlength
  rw [hholds.size, hholds.maxSize]
  exact Int.ofNat_le.mpr hlength

/-- What an insertion can do: refuse and leave everything, or append. -/
theorem Holds.insert_cases (hholds : Holds ctx queue nodes) (allocator : HeapAllocator ι)
    (data : Option μ) (moment : Nat) :
    ((dmIpcMsgInsert allocator ctx data moment).1 ≠ successReturn ∧
        (dmIpcMsgInsert allocator ctx data moment).2 = ctx) ∨
      ∃ message node, ∃ hroom : queue.items.length < capacity,
        data = some message ∧
        (dmIpcMsgInsert allocator ctx data moment).1 = successReturn ∧
        Holds (dmIpcMsgInsert allocator ctx data moment).2 (queue.push message hroom)
          (nodes ++ [node]) := by
  cases data with
  | none => exact Or.inl ⟨by simp [dmIpcMsgInsert, stateUserInputInvalid, successReturn], rfl⟩
  | some message =>
      by_cases hfull : ctx.size ≥ ctx.maxSize
      · refine Or.inl ?_
        simp [dmIpcMsgInsert, hfull, stateDevModelMsgqFull, successReturn]
      · cases hmalloc : allocator.malloc moment ctx.inUse with
        | none =>
            refine Or.inl ?_
            simp [dmIpcMsgInsert, hfull, hmalloc, stateSysDependMalloc, successReturn]
        | some node =>
            have hroom : queue.items.length < capacity := by
              rw [hholds.size, hholds.maxSize] at hfull
              rw [← hholds.length_eq]
              omega
            have hnew : node ∉ ctx.inUse := allocator.fresh _ _ _ hmalloc
            have houtside : node ∉ ctx.messageList :: nodes := fun hmem =>
              hnew (hholds.inUse node hmem)
            have hkept : nodes.map (Function.update ctx.data node message) =
                nodes.map ctx.data := by
              apply List.map_congr_left
              intro member hmember
              apply Function.update_of_ne
              intro hsame
              exact houtside (hsame ▸ List.mem_cons_of_mem _ hmember)
            refine Or.inr ⟨message, node, hroom, rfl, ?_, ?_⟩
            · simp [dmIpcMsgInsert, hfull, hmalloc]
            · simp only [dmIpcMsgInsert, hfull, hmalloc, if_false]
              exact
                { rings := (hholds.rings.initHead_outside houtside).addTail houtside
                  items := by simp [hkept, hholds.items, BoundedQueue.push]
                  size := by simp [hholds.size]
                  maxSize := hholds.maxSize
                  inUse := by
                    intro block hblock
                    rw [← List.cons_append, List.mem_append, List.mem_singleton] at hblock
                    rcases hblock with hold | rfl
                    · exact List.mem_cons_of_mem _ (hholds.inUse block hold)
                    · exact List.mem_cons_self }

/-- What a removal can do: refuse and leave everything, or hand out the oldest message. -/
theorem Holds.next_cases (hholds : Holds ctx queue nodes) (data : Option (Option μ)) :
    ((dmIpcMsgNext ctx data).1 ≠ successReturn ∧ (dmIpcMsgNext ctx data).2.2 = ctx ∧
        (data = some none → queue.items = [])) ∨
      ∃ message rest node later, ∃ hitems : queue.items = message :: rest,
        data = some none ∧ nodes = node :: later ∧
        (dmIpcMsgNext ctx data).1 = successReturn ∧
        (dmIpcMsgNext ctx data).2.1 = some (some message) ∧
        Holds (dmIpcMsgNext ctx data).2.2 (queue.pop hitems) later := by
  match data with
  | none => exact Or.inl ⟨by simp [dmIpcMsgNext, stateUserInputInvalid, successReturn], rfl, nofun⟩
  | some (some held) =>
      exact Or.inl ⟨by simp [dmIpcMsgNext, stateUserInputInvalid, successReturn], rfl, nofun⟩
  | some none =>
      cases nodes with
      | nil =>
          have hempty : ctx.links.isEmpty ctx.messageList = true :=
            hholds.rings.isEmpty_iff.mpr rfl
          refine Or.inl ⟨?_, ?_, fun _ => hholds.items.symm⟩
          · simp [dmIpcMsgNext, hempty, stateDevModelMsgqEmpty, successReturn]
          · simp [dmIpcMsgNext, hempty]
      | cons node later =>
          have hsome : ctx.links.isEmpty ctx.messageList = false := by
            rw [Bool.eq_false_iff]
            intro hempty
            exact List.cons_ne_nil node later (hholds.rings.isEmpty_iff.mp hempty)
          have hfirst : ctx.links.next ctx.messageList = node := hholds.rings.next_head
          have hitems : queue.items = ctx.data node :: later.map ctx.data :=
            hholds.items.symm
          have hapart : ∀ block ∈ ctx.messageList :: later, block ≠ node := by
            intro block hblock hsame
            have hdistinct := hholds.rings.distinct
            subst hsame
            simp only [List.nodup_cons, List.mem_cons, not_or] at hdistinct hblock
            tauto
          refine Or.inr ⟨ctx.data node, later.map ctx.data, node, later, hitems, rfl, rfl, ?_,
            ?_, ?_⟩
          · simp [dmIpcMsgNext, hsome]
          · simp [dmIpcMsgNext, hsome, hfirst]
          · simp only [dmIpcMsgNext, hsome, hfirst, Bool.false_eq_true, if_false]
            exact
              { rings := by simpa using @Rings.del _ _ _ _ _ [] _ hholds.rings
                items := rfl
                size := by
                  have hsize := hholds.size
                  simp only [List.length_cons] at hsize
                  simp only
                  omega
                maxSize := hholds.maxSize
                inUse := by
                  intro block hblock
                  rw [List.mem_erase_of_ne (hapart block hblock)]
                  apply hholds.inUse
                  rw [List.mem_cons] at hblock ⊢
                  exact hblock.imp_right (List.mem_cons_of_mem node) }

/-! ## How the context answers -/

/-- The ring stands for nodes with the waiting messages, the counter is their number, and it is
within the limit. -/
def Represents (capacity : Nat) (ctx : DmIpc ι μ) (waiting : List μ) : Prop :=
  ∃ nodes, Rings ctx.links ctx.messageList nodes ∧ nodes.map ctx.data = waiting ∧
    ctx.size = nodes.length ∧ ctx.maxSize = capacity ∧ ctx.size ≤ ctx.maxSize

omit [DecidableEq ι] in
theorem Holds.represents (hholds : Holds ctx queue nodes) :
    Represents capacity ctx queue.items :=
  ⟨nodes, hholds.rings, hholds.items, hholds.size, hholds.maxSize, hholds.size_le⟩

/-- The context answers every call as a bounded queue in which these messages wait. -/
structure AnswersAsQueue (allocator : HeapAllocator ι) (capacity : Nat) (ctx : DmIpc ι μ)
    (waiting : List μ) : Prop where
  represents : Represents capacity ctx waiting
  /-- A null pointer is refused. -/
  noMessage : ∀ moment,
    dmIpcMsgInsert allocator ctx none moment = (stateUserInputInvalid, ctx)
  /-- A full queue refuses and stays as it is. -/
  full : capacity ≤ waiting.length → ∀ message moment,
    dmIpcMsgInsert allocator ctx (some message) moment = (stateDevModelMsgqFull, ctx)
  /-- So does a queue for whose node there is no memory. -/
  noMemory : waiting.length < capacity → ∀ message moment,
    allocator.malloc moment ctx.inUse = none →
      dmIpcMsgInsert allocator ctx (some message) moment = (stateSysDependMalloc, ctx)
  /-- With room and memory the message is accepted, behind the waiting ones. -/
  accepts : waiting.length < capacity → ∀ message moment,
    allocator.malloc moment ctx.inUse ≠ none →
      (dmIpcMsgInsert allocator ctx (some message) moment).1 = successReturn ∧
        Represents capacity (dmIpcMsgInsert allocator ctx (some message) moment).2
          (waiting ++ [message])
  /-- Only a variable that holds the null pointer is filled. -/
  noVariable : ∀ data, data ≠ some none →
    dmIpcMsgNext ctx data = (stateUserInputInvalid, data, ctx)
  /-- From an empty queue nothing is taken. -/
  empty : waiting = [] →
    dmIpcMsgNext ctx (some none) = (stateDevModelMsgqEmpty, some none, ctx)
  /-- From any other queue the oldest message is. -/
  front : ∀ message rest, waiting = message :: rest →
    (dmIpcMsgNext ctx (some none)).1 = successReturn ∧
      (dmIpcMsgNext ctx (some none)).2.1 = some (some message) ∧
      Represents capacity (dmIpcMsgNext ctx (some none)).2.2 rest

omit [DecidableEq ι] in
/-- The counter has reached the limit exactly where as many messages wait. -/
theorem Holds.reached_iff (hholds : Holds ctx queue nodes) :
    ctx.size ≥ ctx.maxSize ↔ capacity ≤ queue.items.length := by
  rw [hholds.size, hholds.maxSize, hholds.length_eq]
  exact Int.ofNat_le

/-- An insertion with room and memory succeeds. -/
theorem Holds.insert_accepts (hholds : Holds ctx queue nodes) (allocator : HeapAllocator ι)
    (hroom : queue.items.length < capacity) (message : μ) {moment : Nat}
    (hmemory : allocator.malloc moment ctx.inUse ≠ none) :
    (dmIpcMsgInsert allocator ctx (some message) moment).1 = successReturn := by
  have hbelow : ¬ ctx.size ≥ ctx.maxSize := by
    rw [hholds.reached_iff]
    omega
  obtain ⟨node, hnode⟩ := Option.ne_none_iff_exists'.mp hmemory
  rw [dmIpcMsgInsert, if_neg hbelow, hnode]

/-- A context that holds a queue answers as that queue. -/
theorem Holds.answersAsQueue (hholds : Holds ctx queue nodes) (allocator : HeapAllocator ι) :
    AnswersAsQueue allocator capacity ctx queue.items where
  represents := hholds.represents
  noMessage := fun _ => rfl
  full := by
    intro hfull message moment
    rw [dmIpcMsgInsert, if_pos (hholds.reached_iff.mpr hfull)]
  noMemory := by
    intro hroom message moment hnone
    have hbelow : ¬ ctx.size ≥ ctx.maxSize := by
      rw [hholds.reached_iff]
      omega
    rw [dmIpcMsgInsert, if_neg hbelow, hnone]
  accepts := by
    intro hroom message moment hmemory
    have hsuccess := hholds.insert_accepts allocator hroom message hmemory
    refine ⟨hsuccess, ?_⟩
    rcases hholds.insert_cases allocator (some message) moment with
      ⟨hrefused, _⟩ | ⟨accepted, node, _, hsame, _, hpushed⟩
    · exact absurd hsuccess hrefused
    · cases hsame
      exact hpushed.represents
  noVariable := by
    intro data hdata
    match data, hdata with
    | none, _ => rfl
    | some (some held), _ => rfl
    | some none, hnull => exact absurd rfl hnull
  empty := by
    intro hnone
    have hnodes : nodes = [] := by
      rw [← List.length_eq_zero_iff, hholds.length_eq, hnone, List.length_nil]
    have hempty : ctx.links.isEmpty ctx.messageList = true :=
      hholds.rings.isEmpty_iff.mpr hnodes
    rw [dmIpcMsgNext, if_pos hempty]
  front := by
    intro message rest hwaiting
    rcases hholds.next_cases (some none) with
      ⟨_, _, hempty⟩ | ⟨first, later, node, nodes', hitems, _, _, hcode, hout, hpopped⟩
    · rw [hempty rfl] at hwaiting
      cases hwaiting
    · have hsame : first = message ∧ later = rest := by
        rw [hitems] at hwaiting
        exact List.cons.inj hwaiting
      obtain ⟨rfl, rfl⟩ := hsame
      exact ⟨hcode, hout, hpopped.represents⟩

/-! ## Runs of insertions and removals -/

/-- A call on the queue. An insertion brings a pointer and the moment at which it asks for
memory, a removal the caller's pointer variable. -/
inductive IpcCall (μ : Type v)
  | insert (data : Option μ) (moment : Nat)
  | next (data : Option (Option μ))

/-- The queue beside the messages that it has accepted and returned. -/
structure IpcHistory (ι : Type u) (μ : Type v) where
  ctx : DmIpc ι μ
  accepted : List μ
  returned : List μ

/-- The queue after a call, which any thread may make. The mutex makes calls atomic. -/
def ipcStep (allocator : HeapAllocator ι) (history : IpcHistory ι μ) :
    IpcCall μ → IpcHistory ι μ
  | .insert data moment =>
      let (code, ctx) := dmIpcMsgInsert allocator history.ctx data moment
      { history with
        ctx := ctx
        accepted :=
          if code = successReturn then history.accepted ++ data.toList else history.accepted }
  | .next data =>
      let (code, out, ctx) := dmIpcMsgNext history.ctx data
      { history with
        ctx := ctx
        returned :=
          if code = successReturn then history.returned ++ out.join.toList
          else history.returned }

/-- The ledger is the history of the context's queue. -/
structure Accounts (history : IpcHistory ι μ) (ledger : QueueLedger μ capacity)
    (nodes : List ι) : Prop where
  holds : Holds history.ctx ledger.queue nodes
  accepted : history.accepted = ledger.accepted
  returned : history.returned = ledger.returned

/-- Some ledger is the history of the context's queue. -/
def Accounted (capacity : Nat) (history : IpcHistory ι μ) : Prop :=
  ∃ (ledger : QueueLedger μ capacity) (nodes : List ι), Accounts history ledger nodes

theorem accounted_start (capacity : Nat) (messageList : ι) (links : Links ι) (data : ι → μ) :
    Accounted capacity ⟨dmIpcInit capacity messageList links data, [], []⟩ :=
  ⟨QueueLedger.start, [], holds_dmIpcInit capacity messageList links data, rfl, rfl⟩

/-- A call moves the ledger along or leaves it. -/
theorem accounted_ipcStep (allocator : HeapAllocator ι) (history : IpcHistory ι μ)
    (call : IpcCall μ) (haccounted : Accounted capacity history) :
    Accounted capacity (ipcStep allocator history call) := by
  obtain ⟨ledger, nodes, hholds, haccepted, hreturned⟩ := haccounted
  cases call with
  | insert data moment =>
      rcases hholds.insert_cases allocator data moment with
        ⟨hcode, hsame⟩ | ⟨message, node, hroom, rfl, hcode, hpushed⟩
      · refine ⟨ledger, nodes, ?_, ?_, hreturned⟩
        · simpa only [ipcStep, hsame] using hholds
        · simpa only [ipcStep, hcode, if_false] using haccepted
      · refine ⟨ledger.accept message hroom, nodes ++ [node], hpushed, ?_, hreturned⟩
        simp [ipcStep, hcode, haccepted, QueueLedger.accept]
  | next data =>
      rcases hholds.next_cases data with
        ⟨hcode, hsame, _⟩ | ⟨message, rest, node, later, hitems, rfl, rfl, hcode, hout, hpopped⟩
      · refine ⟨ledger, nodes, ?_, haccepted, ?_⟩
        · simpa only [ipcStep, hsame] using hholds
        · simpa only [ipcStep, hcode, if_false] using hreturned
      · refine ⟨ledger.handOut hitems, later, hpopped, haccepted, ?_⟩
        simp [ipcStep, hcode, hout, hreturned, QueueLedger.handOut]

/-! ## The queue after any calls -/

/-- The messages that were accepted and not yet returned. -/
def IpcHistory.waiting (history : IpcHistory ι μ) : List μ :=
  history.accepted.drop history.returned.length

/-- The queue before any call. -/
def IpcHistory.start (capacity : Nat) (messageList : ι) (links : Links ι) (data : ι → μ) :
    IpcHistory ι μ :=
  ⟨dmIpcInit capacity messageList links data, [], []⟩

/-- The context is a bounded first-in first-out queue with this history: the accepted messages
are the returned ones followed by the waiting ones, and it answers as a queue of the latter. -/
structure BoundedFifo (allocator : HeapAllocator ι) (capacity : Nat)
    (history : IpcHistory ι μ) : Prop where
  balanced : history.accepted = history.returned ++ history.waiting
  answers : AnswersAsQueue allocator capacity history.ctx history.waiting

omit [DecidableEq ι] in
/-- What waits in the ledger's queue is what was accepted and not returned. -/
theorem Accounts.waiting_eq {history : IpcHistory ι μ} {ledger : QueueLedger μ capacity}
    (haccounts : Accounts history ledger nodes) : history.waiting = ledger.queue.items := by
  rw [IpcHistory.waiting, haccounts.accepted, haccounts.returned, ledger.balanced,
    List.drop_left]

theorem Accounted.boundedFifo {history : IpcHistory ι μ}
    (haccounted : Accounted capacity history) (allocator : HeapAllocator ι) :
    BoundedFifo allocator capacity history := by
  obtain ⟨ledger, nodes, haccounts⟩ := haccounted
  have hwaiting := haccounts.waiting_eq
  refine ⟨?_, ?_⟩
  · rw [hwaiting, haccounts.accepted, haccounts.returned]
    exact ledger.balanced
  · rw [hwaiting]
    exact haccounts.holds.answersAsQueue allocator

/-! ## Dispatch passes -/

/-- Where a thread is: outside `iotx_dm_dispatch`, at the head of its loop, or with a message
that it has taken and not yet handed to the callback. -/
inductive DispatchPc (μ : Type v)
  | idle
  | looping (count : Nat)
  | holding (count : Nat) (msg : μ)

/-- The message in the thread's hands. -/
def DispatchPc.inHand : DispatchPc μ → List μ
  | .holding _ msg => [msg]
  | _ => []

@[simp]
theorem DispatchPc.inHand_idle : (DispatchPc.idle : DispatchPc μ).inHand = [] := rfl

@[simp]
theorem DispatchPc.inHand_looping (count : Nat) :
    (DispatchPc.looping count : DispatchPc μ).inHand = [] := rfl

@[simp]
theorem DispatchPc.inHand_holding (count : Nat) (msg : μ) :
    (DispatchPc.holding count msg).inHand = [msg] := rfl

/-- The queue, the threads, the messages that the event callback has seen, and the number that
each thread has taken in its current pass. -/
structure DispatchWorld (ι : Type u) (μ : Type v) (κ : Type w) where
  history : IpcHistory ι μ
  pc : κ → DispatchPc μ
  seen : List μ
  drained : κ → Nat

/-- No message was inserted, and no thread is in `iotx_dm_dispatch`. -/
def DispatchWorld.start (capacity : Nat) (messageList : ι) (links : Links ι) (data : ι → μ) :
    DispatchWorld ι μ κ :=
  ⟨IpcHistory.start capacity messageList links data, fun _ => .idle, [], fun _ => 0⟩

/-- A message is inserted by some thread, or a thread takes a step in `iotx_dm_dispatch`. -/
inductive DispatchEvent (μ : Type v) (κ : Type w)
  | insert (data : Option μ) (moment : Nat)
  | dispatch (thread : κ)

variable [DecidableEq κ]

/-- A thread goes on to a point in `iotx_dm_dispatch`. -/
def DispatchWorld.goTo (world : DispatchWorld ι μ κ) (thread : κ) (pc : DispatchPc μ) :
    DispatchWorld ι μ κ :=
  { world with pc := Function.update world.pc thread pc }

/-- The head of the loop. `maxlen` is `CONFIG_DISPATCH_QUEUE_MAXLEN`; where it is zero the loop
condition does not count. The thread takes a message and holds it, or leaves. -/
def takeStep (allocator : HeapAllocator ι) (maxlen : Nat) (world : DispatchWorld ι μ κ)
    (thread : κ) (count : Nat) : DispatchWorld ι μ κ :=
  if maxlen = 0 ∨ count < maxlen then
    let (code, data, _) := dmIpcMsgNext world.history.ctx (some none)
    let after := { world with history := ipcStep allocator world.history (.next (some none)) }
    match if code = successReturn then data.join else none with
    | some msg =>
        { after with
          drained := Function.update world.drained thread (world.drained thread + 1) }.goTo
          thread (.holding (if maxlen = 0 then count else count + 1) msg)
    | none => after.goTo thread .idle
  else world.goTo thread .idle

/-- A step of the world. The insertions that `dm_msg_cache_tick` makes at the start of a pass are
insertions like any other. -/
def dispatchStep (allocator : HeapAllocator ι) (maxlen : Nat) (world : DispatchWorld ι μ κ) :
    DispatchEvent μ κ → DispatchWorld ι μ κ
  | .insert data moment =>
      { world with history := ipcStep allocator world.history (.insert data moment) }
  | .dispatch thread =>
      match world.pc thread with
      | .idle =>
          { world with drained := Function.update world.drained thread 0 }.goTo thread
            (.looping 0)
      | .looping count => takeStep allocator maxlen world thread count
      | .holding count msg =>
          { world with seen := world.seen ++ [msg] }.goTo thread (.looping count)

/-- A thread takes a message only while no thread has one in its hands. -/
def TakesInTurn (world : DispatchWorld ι μ κ) : DispatchEvent μ κ → Prop
  | .insert _ _ => True
  | .dispatch thread =>
      match world.pc thread with
      | .looping _ => ∀ other, (world.pc other).inHand = []
      | _ => True

instance [Fintype κ] (world : DispatchWorld ι μ κ) (event : DispatchEvent μ κ) :
    Decidable (TakesInTurn world event) := by
  unfold TakesInTurn
  split
  · infer_instance
  · split <;> infer_instance

/-- At the head of the loop a message is there to be taken and the limit not reached, and then
the oldest one is taken; or the thread leaves. -/
theorem takeStep_cases (allocator : HeapAllocator ι) (maxlen : Nat)
    {world : DispatchWorld ι μ κ} (haccounted : Accounted capacity world.history) (thread : κ)
    (count : Nat) :
    (takeStep allocator maxlen world thread count = world.goTo thread .idle ∧
        (maxlen ≠ 0 ∧ maxlen ≤ count ∨ world.history.waiting = [])) ∨
      ∃ msg rest, world.history.waiting = msg :: rest ∧ (maxlen = 0 ∨ count < maxlen) ∧
        ∃ history, Accounted capacity history ∧
          history.accepted = world.history.accepted ∧
          history.returned = world.history.returned ++ [msg] ∧
          takeStep allocator maxlen world thread count =
            { world with
              history := history
              drained := Function.update world.drained thread
                (world.drained thread + 1) }.goTo thread
              (.holding (if maxlen = 0 then count else count + 1) msg) := by
  by_cases hmore : maxlen = 0 ∨ count < maxlen
  · have hanswers := (haccounted.boundedFifo allocator).answers
    have hnext := accounted_ipcStep allocator _ (.next (some none)) haccounted
    cases hwaiting : world.history.waiting with
    | nil =>
        have hempty := hanswers.empty hwaiting
        refine Or.inl ⟨?_, Or.inr rfl⟩
        have hcode : (stateDevModelMsgqEmpty : Int) ≠ successReturn := by decide
        simp [takeStep, hmore, hempty, ipcStep, hcode]
    | cons msg rest =>
        obtain ⟨hcode, hout, _⟩ := hanswers.front msg rest hwaiting
        refine Or.inr ⟨msg, rest, rfl, hmore, _, hnext, rfl, ?_, ?_⟩
        · simp [ipcStep, hcode, hout]
        · simp only [takeStep, hmore, if_true, hcode, hout, Option.join_some]
  · refine Or.inl ⟨?_, Or.inl ?_⟩
    · rw [takeStep, if_neg hmore]
    · omega

/-! ## No message is lost, and none is handed over twice -/

/-- The loop's counter is the number of messages taken, within the limit. -/
def DispatchPc.Counts (maxlen drained : Nat) : DispatchPc μ → Prop
  | .idle => drained ≤ maxlen
  | .looping count => drained = count ∧ count ≤ maxlen
  | .holding count _ => drained = count ∧ count ≤ maxlen

theorem DispatchPc.Counts.le {maxlen drained : Nat} {pc : DispatchPc μ}
    (hcounts : pc.Counts maxlen drained) : drained ≤ maxlen := by
  cases pc with
  | idle => exact hcounts
  | looping count => exact hcounts.1 ▸ hcounts.2
  | holding count msg => exact hcounts.1 ▸ hcounts.2

variable [Fintype κ]

/-- The messages in the hands of all threads. -/
def DispatchWorld.inHands (world : DispatchWorld ι μ κ) : Multiset μ :=
  ∑ thread, ((world.pc thread).inHand : Multiset μ)

omit [DecidableEq ι] in
/-- A thread that goes on exchanges the message in its hands. -/
theorem inHands_goTo (world : DispatchWorld ι μ κ) (thread : κ) (pc : DispatchPc μ) :
    (world.goTo thread pc).inHands + (world.pc thread).inHand = world.inHands + pc.inHand := by
  have hafter : (world.goTo thread pc).inHands =
      ∑ other, Function.update (fun other => ((world.pc other).inHand : Multiset μ)) thread
        pc.inHand other := by
    apply Finset.sum_congr rfl
    intro other _
    rcases eq_or_ne other thread with rfl | hother
    · simp [DispatchWorld.goTo]
    · simp [DispatchWorld.goTo, hother]
  have hbefore : world.inHands =
      ((world.pc thread).inHand : Multiset μ) +
        ∑ other ∈ Finset.univ \ {thread}, ((world.pc other).inHand : Multiset μ) := by
    rw [DispatchWorld.inHands, Finset.sum_eq_add_sum_sdiff_singleton_of_mem
      (Finset.mem_univ thread)]
  rw [hafter, Finset.sum_update_of_mem (Finset.mem_univ thread), hbefore]
  ac_rfl

omit [DecidableEq ι] in
/-- A thread with empty hands that goes on adds what it takes. -/
theorem inHands_goTo_of_empty {world : DispatchWorld ι μ κ} {thread : κ}
    (hempty : (world.pc thread).inHand = []) (pc : DispatchPc μ) :
    (world.goTo thread pc).inHands = world.inHands + pc.inHand := by
  have hgo := inHands_goTo world thread pc
  rwa [hempty, Multiset.coe_nil, add_zero] at hgo

omit [DecidableEq ι] in
/-- A thread that hands its message over has empty hands. -/
theorem inHands_handOver {world : DispatchWorld ι μ κ} {thread : κ} {msg : μ} {count : Nat}
    (hpc : world.pc thread = .holding count msg) :
    world.inHands = (world.goTo thread (.looping count)).inHands + {msg} := by
  have hgo := inHands_goTo world thread (.looping count)
  rw [hpc] at hgo
  simpa using hgo.symm

/-- What was returned was seen or is in the hands of a thread, and no pass has taken more than
its loop has counted. -/
structure Dispatching (capacity maxlen : Nat) (world : DispatchWorld ι μ κ) : Prop where
  accounted : Accounted capacity world.history
  returned : (world.history.returned : Multiset μ) = world.seen + world.inHands
  counted : maxlen ≠ 0 → ∀ thread, (world.pc thread).Counts maxlen (world.drained thread)

omit [Fintype κ] in
/-- The counters of the threads, after one thread has gone on. -/
theorem counts_update {maxlen : Nat} {pcs : κ → DispatchPc μ} {drained : κ → Nat}
    (hcounted : ∀ thread, (pcs thread).Counts maxlen (drained thread)) (thread : κ)
    {pc : DispatchPc μ} {taken : Nat} (hcounts : pc.Counts maxlen taken) (other : κ) :
    (Function.update pcs thread pc other).Counts maxlen
      (Function.update drained thread taken other) := by
  rcases eq_or_ne other thread with rfl | hother
  · simpa using hcounts
  · simpa [hother] using hcounted other

omit [DecidableEq ι] [Fintype κ] in
/-- The same where the thread takes no message. -/
theorem counts_goTo {maxlen : Nat} {world : DispatchWorld ι μ κ}
    (hcounted : ∀ thread, (world.pc thread).Counts maxlen (world.drained thread)) (thread : κ)
    (pc : DispatchPc μ) (hcounts : pc.Counts maxlen (world.drained thread)) (other : κ) :
    ((world.goTo thread pc).pc other).Counts maxlen (world.drained other) := by
  have hupdated := counts_update hcounted thread hcounts other
  rwa [Function.update_eq_self] at hupdated

theorem dispatching_dispatchStep (allocator : HeapAllocator ι) {maxlen : Nat}
    (world : DispatchWorld ι μ κ) (event : DispatchEvent μ κ)
    (hdispatching : Dispatching capacity maxlen world) :
    Dispatching capacity maxlen (dispatchStep allocator maxlen world event) := by
  obtain ⟨haccounted, hreturned, hcounted⟩ := hdispatching
  cases event with
  | insert data moment =>
      exact ⟨accounted_ipcStep allocator _ (.insert data moment) haccounted, hreturned, hcounted⟩
  | dispatch thread =>
      cases hpc : world.pc thread with
      | idle =>
          have hhands : (world.goTo thread (.looping 0)).inHands = world.inHands := by
            rw [inHands_goTo_of_empty (by rw [hpc, DispatchPc.inHand_idle])]
            simp
          simp only [dispatchStep, hpc]
          refine ⟨haccounted, ?_, fun hlimit => ?_⟩
          · exact hreturned.trans (congrArg (_ + ·) hhands.symm)
          · exact counts_update (hcounted hlimit) thread ⟨rfl, Nat.zero_le maxlen⟩
      | holding count msg =>
          have hhands := inHands_handOver hpc
          simp only [dispatchStep, hpc]
          refine ⟨haccounted, ?_, fun hlimit other => ?_⟩
          · change (world.history.returned : Multiset μ) =
              ↑(world.seen ++ [msg]) + (world.goTo thread (.looping count)).inHands
            rw [hreturned, hhands, ← Multiset.coe_add, Multiset.coe_singleton]
            ac_rfl
          · have hcounts := hcounted hlimit thread
            rw [hpc] at hcounts
            exact counts_goTo (hcounted hlimit) thread (.looping count) hcounts other
      | looping count =>
          have hempty : (world.pc thread).inHand = [] := by rw [hpc, DispatchPc.inHand_looping]
          simp only [dispatchStep, hpc]
          rcases takeStep_cases allocator maxlen haccounted thread count with
            ⟨hleft, _⟩ | ⟨msg, rest, _, hmore, history, hlater, _, hmoved, htaken⟩
          · rw [hleft]
            refine ⟨haccounted, ?_, fun hlimit other => ?_⟩
            · rw [inHands_goTo_of_empty hempty]
              simpa [DispatchWorld.goTo] using hreturned
            · have hcounts := hcounted hlimit thread
              rw [hpc] at hcounts
              exact counts_goTo (hcounted hlimit) thread .idle hcounts.le other
          · rw [htaken]
            refine ⟨hlater, ?_, fun hlimit => ?_⟩
            · have hhands := inHands_goTo_of_empty hempty
                (.holding (if maxlen = 0 then count else count + 1) msg)
              change (history.returned : Multiset μ) = _ + (world.goTo thread _).inHands
              rw [hmoved, hhands, ← Multiset.coe_add, hreturned, add_assoc]
              rfl
            · have hcounts := hcounted hlimit thread
              rw [hpc] at hcounts
              refine counts_update (hcounted hlimit) thread ?_
              rw [if_neg hlimit]
              exact ⟨congrArg (· + 1) hcounts.1, hmore.resolve_left hlimit⟩

/-! ## The order in which the user sees the messages -/

/-- At most one message is between the queue and the user: what was returned is what was seen and
that message. -/
def InOrder (world : DispatchWorld ι μ κ) : Prop :=
  ∃ hand : List μ, hand.length ≤ 1 ∧ world.inHands = hand ∧
    world.history.returned = world.seen ++ hand

omit [DecidableEq ι] [DecidableEq κ] in
theorem inHands_eq_zero {world : DispatchWorld ι μ κ}
    (hnone : ∀ thread, (world.pc thread).inHand = []) : world.inHands = 0 := by
  apply Finset.sum_eq_zero
  intro thread _
  rw [hnone thread, Multiset.coe_nil]

theorem inOrder_dispatchStep (allocator : HeapAllocator ι) {maxlen : Nat}
    (world : DispatchWorld ι μ κ) (event : DispatchEvent μ κ)
    (hdispatching : Dispatching capacity maxlen world) (horder : InOrder world)
    (hturn : TakesInTurn world event) :
    InOrder (dispatchStep allocator maxlen world event) := by
  obtain ⟨hand, hone, hhands, hreturned⟩ := horder
  cases event with
  | insert data moment => exact ⟨hand, hone, hhands, hreturned⟩
  | dispatch thread =>
      cases hpc : world.pc thread with
      | idle =>
          simp only [dispatchStep, hpc]
          refine ⟨hand, hone, ?_, hreturned⟩
          change (world.goTo thread (.looping 0)).inHands = hand
          rw [inHands_goTo_of_empty (by rw [hpc, DispatchPc.inHand_idle]), hhands]
          simp
      | holding count msg =>
          -- the message in hand is this one
          have hsplit := inHands_handOver hpc
          rw [hhands] at hsplit
          have hcard := congrArg Multiset.card hsplit
          rw [Multiset.card_add, Multiset.coe_card, Multiset.card_singleton] at hcard
          have hempty : (world.goTo thread (.looping count)).inHands = 0 := by
            rw [← Multiset.card_eq_zero]
            omega
          have hmsg : hand = [msg] := by
            rw [hempty, zero_add, ← Multiset.coe_singleton, Multiset.coe_eq_coe] at hsplit
            exact List.perm_singleton.mp hsplit
          simp only [dispatchStep, hpc]
          refine ⟨[], Nat.zero_le 1, hempty, ?_⟩
          simp [DispatchWorld.goTo, hreturned, hmsg]
      | looping count =>
          have hfree : ∀ other, (world.pc other).inHand = [] := by
            simpa only [TakesInTurn, hpc] using hturn
          have hnone : hand = [] := by
            rw [inHands_eq_zero hfree] at hhands
            exact (Multiset.coe_eq_zero hand).mp hhands.symm
          simp only [dispatchStep, hpc]
          rcases takeStep_cases allocator maxlen hdispatching.accounted thread count with
            ⟨hleft, _⟩ | ⟨msg, rest, _, _, history, _, _, hmoved, htaken⟩
          · rw [hleft]
            refine ⟨hand, hone, ?_, hreturned⟩
            rw [inHands_goTo_of_empty (hfree thread), hhands]
            simp
          · rw [htaken]
            refine ⟨[msg], Nat.le_refl 1, ?_, ?_⟩
            · change (world.goTo thread _).inHands = _
              rw [inHands_goTo_of_empty (hfree thread), hhands, hnone, Multiset.coe_nil, zero_add,
                DispatchPc.inHand_holding]
            · simp [DispatchWorld.goTo, hmoved, hreturned, hnone]

/-! ## A pass on its own -/

/-- The number of messages that a pass takes out of so many. -/
def passLength (maxlen waiting : Nat) : Nat :=
  if maxlen = 0 then waiting else min maxlen waiting

/-- A pass of the thread with nothing in between takes out the first messages, as many as it may,
hands them to the callback in their order and comes to an end. -/
def Drains (allocator : HeapAllocator ι) (maxlen : Nat) (world : DispatchWorld ι μ κ)
    (thread : κ) : Prop :=
  let taken := passLength maxlen world.history.waiting.length
  let after := runFrom (dispatchStep allocator maxlen) world
    (List.replicate (2 * taken + 2) (.dispatch thread))
  after.pc thread = .idle ∧ after.seen = world.seen ++ world.history.waiting.take taken ∧
    after.history.waiting = world.history.waiting.drop taken ∧
    after.history.accepted = world.history.accepted

omit [Fintype κ] in
/-- A message is taken and handed over in two steps. -/
theorem dispatchStep_twice (allocator : HeapAllocator ι) (maxlen : Nat) {count : Nat}
    {world : DispatchWorld ι μ κ} {thread : κ} (hpc : world.pc thread = .looping count)
    (haccounted : Accounted capacity world.history) (hmore : maxlen = 0 ∨ count < maxlen) {msg : μ}
    {rest : List μ} (hwaiting : world.history.waiting = msg :: rest) :
    let after := dispatchStep allocator maxlen
      (dispatchStep allocator maxlen world (.dispatch thread)) (.dispatch thread)
    Accounted capacity after.history ∧ after.history.waiting = rest ∧
      after.history.accepted = world.history.accepted ∧ after.seen = world.seen ++ [msg] ∧
      after.pc thread = .looping (if maxlen = 0 then count else count + 1) := by
  have htake : dispatchStep allocator maxlen world (.dispatch thread) =
      takeStep allocator maxlen world thread count := by
    simp only [dispatchStep, hpc]
  rcases takeStep_cases allocator maxlen haccounted thread count with
    ⟨_, hover | hempty⟩ | ⟨first, later, hfirst, _, history, hlater, haccepted, hmoved, htaken⟩
  · omega
  · rw [hempty] at hwaiting
    cases hwaiting
  · rw [hwaiting] at hfirst
    cases hfirst
    have hbalanced := (haccounted.boundedFifo allocator).balanced
    have hrest : history.waiting = rest := by
      rw [IpcHistory.waiting, haccepted, hmoved, hbalanced, hwaiting]
      simp
    rw [htake, htaken]
    simp only [dispatchStep, DispatchWorld.goTo, Function.update_self]
    exact ⟨hlater, hrest, haccepted, trivial, trivial⟩

omit [Fintype κ] in
/-- So many messages are taken and handed over in twice as many steps. -/
theorem dispatchStep_drains (allocator : HeapAllocator ι) {maxlen : Nat} {thread : κ}
    (taken : Nat) {world : DispatchWorld ι μ κ} {count : Nat}
    (hpc : world.pc thread = .looping count) (haccounted : Accounted capacity world.history)
    (hwithin : maxlen = 0 ∨ count + taken ≤ maxlen)
    (henough : taken ≤ world.history.waiting.length) :
    let after := runFrom (dispatchStep allocator maxlen) world
      (List.replicate (2 * taken) (.dispatch thread))
    Accounted capacity after.history ∧
      after.history.waiting = world.history.waiting.drop taken ∧
      after.history.accepted = world.history.accepted ∧
      after.seen = world.seen ++ world.history.waiting.take taken ∧
      after.pc thread = .looping (if maxlen = 0 then count else count + taken) := by
  induction taken generalizing world count with
  | zero => simp [haccounted, hpc]
  | succ taken ih =>
      cases hwaiting : world.history.waiting with
      | nil =>
          rw [hwaiting] at henough
          simp at henough
      | cons msg rest =>
          rw [hwaiting, List.length_cons] at henough
          obtain ⟨hlater, hrest, haccepted, hseen, hnext⟩ :=
            dispatchStep_twice allocator maxlen hpc haccounted (by omega) hwaiting
          obtain ⟨hdone, hleft, haccepted', hseen', hpc'⟩ := ih hnext hlater
            (by split <;> omega) (by rw [hrest]; omega)
          rw [Nat.mul_succ, List.replicate_succ, List.replicate_succ, runFrom_cons, runFrom_cons]
          refine ⟨hdone, ?_, haccepted'.trans haccepted, ?_, ?_⟩
          · rw [hleft, hrest, List.drop_succ_cons]
          · rw [hseen', hseen, hrest, List.take_succ_cons, List.append_assoc,
              List.singleton_append]
          · rw [hpc']
            split
            · rfl
            · rw [Nat.add_assoc, Nat.add_comm 1]

omit [Fintype κ] in
theorem drains_of_idle (allocator : HeapAllocator ι) (maxlen : Nat)
    {world : DispatchWorld ι μ κ} (haccounted : Accounted capacity world.history) {thread : κ}
    (hidle : world.pc thread = .idle) : Drains allocator maxlen world thread := by
  have hstart : dispatchStep allocator maxlen world (.dispatch thread) =
      { world with drained := Function.update world.drained thread 0 }.goTo thread
        (.looping 0) := by
    simp only [dispatchStep, hidle]
  set started := { world with drained := Function.update world.drained thread 0 }.goTo thread
    (.looping 0) with hstarted
  have hpc : started.pc thread = .looping 0 := by simp [hstarted, DispatchWorld.goTo]
  set taken := passLength maxlen world.history.waiting.length with htaken
  have hwithin : maxlen = 0 ∨ 0 + taken ≤ maxlen := by
    rw [htaken, passLength]
    split <;> omega
  have henough : taken ≤ world.history.waiting.length := by
    rw [htaken, passLength]
    split <;> omega
  obtain ⟨hdone, hleft, haccepted, hseen, hlooping⟩ :=
    dispatchStep_drains allocator taken hpc haccounted hwithin henough
  have hsplit :
      List.replicate (2 * taken + 2) (DispatchEvent.dispatch thread : DispatchEvent μ κ) =
        .dispatch thread ::
          (List.replicate (2 * taken) (.dispatch thread) ++ [.dispatch thread]) := by
    rw [List.replicate_succ, List.replicate_succ']
  simp only [Drains, ← htaken, hsplit, runFrom_cons, runFrom_append, runFrom_nil, hstart]
  set drained := runFrom (dispatchStep allocator maxlen) started
    (List.replicate (2 * taken) (.dispatch thread))
  have hleave : dispatchStep allocator maxlen drained (.dispatch thread) =
      drained.goTo thread .idle := by
    have htake : dispatchStep allocator maxlen drained (.dispatch thread) =
        takeStep allocator maxlen drained thread (if maxlen = 0 then 0 else 0 + taken) := by
      simp only [dispatchStep, hlooping]
    rw [htake]
    rcases takeStep_cases allocator maxlen hdone thread (if maxlen = 0 then 0 else 0 + taken) with
      ⟨hleaves, _⟩ | ⟨msg, rest, hwaiting, hmore, _⟩
    · exact hleaves
    · -- the pass has taken all it may
      have hlength := congrArg List.length hleft
      have hbefore : started.history.waiting.length = world.history.waiting.length := rfl
      rw [hwaiting, List.length_drop, List.length_cons, hbefore, htaken, passLength] at hlength
      rw [htaken, passLength] at hmore
      split at hlength
      · omega
      · rename_i hlimit
        rw [if_neg hlimit, if_neg hlimit] at hmore
        omega
  rw [hleave]
  exact ⟨by simp [DispatchWorld.goTo], hseen, hleft, haccepted⟩

/-- The queue is a bounded first-in first-out queue after every sequence of insertions and
removals. With insertions falling anywhere between the steps of dispatch passes in any number of
threads it stays one, every message that it has returned has been seen by the event callback once
or is in the hands of one thread, a pass takes at most the configured number of messages, and on
its own it takes that many, or all. Where a message is taken only while no thread has one in its
hands, the callback sees the accepted messages in the order of their acceptance. -/
theorem dmIpc_boundedFifo (allocator : HeapAllocator ι) (capacity maxlen : Nat)
    (messageList : ι) (links : Links ι) (data : ι → μ) :
    (∀ calls : List (IpcCall μ),
      BoundedFifo allocator capacity
        (runFrom (ipcStep allocator) (IpcHistory.start capacity messageList links data) calls)) ∧
    ∀ events : List (DispatchEvent μ κ),
      let start : DispatchWorld ι μ κ := DispatchWorld.start capacity messageList links data
      let world := runFrom (dispatchStep allocator maxlen) start events
      BoundedFifo allocator capacity world.history ∧
        (world.history.returned : Multiset μ) = world.seen + world.inHands ∧
        (maxlen ≠ 0 → ∀ thread, world.drained thread ≤ maxlen) ∧
        (∀ thread, world.pc thread = .idle → Drains allocator maxlen world thread) ∧
        (StepsMeet (dispatchStep allocator maxlen) TakesInTurn start events →
          ∃ hand : List μ, hand.length ≤ 1 ∧ world.inHands = hand ∧
            world.history.accepted = world.seen ++ hand ++ world.history.waiting) := by
  have hstart : Accounted capacity (IpcHistory.start capacity messageList links data) :=
    accounted_start capacity messageList links data
  refine ⟨fun calls => ?_, fun events => ?_⟩
  · have haccounted := invariant_runFrom (accounted_ipcStep allocator) hstart calls
    exact haccounted.boundedFifo allocator
  · have hnone : (DispatchWorld.start capacity messageList links data :
        DispatchWorld ι μ κ).inHands = 0 := inHands_eq_zero fun _ => rfl
    have hidle : Dispatching capacity maxlen
        (DispatchWorld.start capacity messageList links data : DispatchWorld ι μ κ) :=
      ⟨hstart, by rw [hnone]; rfl, fun _ _ => Nat.zero_le maxlen⟩
    have hdispatching := invariant_runFrom (dispatching_dispatchStep allocator) hidle events
    obtain ⟨haccounted, hreturned, hcounted⟩ := hdispatching
    have hfifo := haccounted.boundedFifo allocator
    refine ⟨hfifo, hreturned, ?_, ?_, ?_⟩
    · exact fun hlimit thread => (hcounted hlimit thread).le
    · exact fun thread hthread => drains_of_idle allocator maxlen haccounted hthread
    · intro hturns
      have halways : Always (dispatchStep allocator maxlen)
          (fun world => Dispatching capacity maxlen world ∧ InOrder world)
          (DispatchWorld.start capacity messageList links data : DispatchWorld ι μ κ) events := by
        refine always_of_stepsMeet ?_ ⟨hidle, [], Nat.zero_le 1, hnone, rfl⟩ hturns
        intro world event hworld hturn
        exact ⟨dispatching_dispatchStep allocator world event hworld.1,
          inOrder_dispatchStep allocator world event hworld.1 hworld.2 hturn⟩
      obtain ⟨_, hand, hone, hhands, horder⟩ := halways.finish
      refine ⟨hand, hone, hhands, ?_⟩
      rw [← horder]
      exact hfifo.balanced

/-- Three messages and two threads, whose passes overlap without a message being taken while the
other thread has one in its hands. -/
def twoPasses : List (DispatchEvent Nat Bool) :=
  [.insert (some 5) 1, .insert (some 6) 2, .dispatch true, .dispatch true, .dispatch false,
    .insert (some 7) 1, .dispatch true, .dispatch false, .dispatch false, .dispatch true,
    .insert none 3, .insert (some 8) 3, .dispatch true]

/-- The three messages are seen in their order, and the fourth waits. -/
theorem dmIpc_boundedFifo_twoPasses :
    let world := runFrom (dispatchStep countingAllocator 50)
      (DispatchWorld.start 50 0 ⟨id, id⟩ fun _ => 0) twoPasses
    world.seen = [5, 6, 7] ∧ world.history.waiting = [8] ∧ ∃ hand : List Nat, hand.length ≤ 1 ∧
      world.inHands = hand ∧
        world.history.accepted = world.seen ++ hand ++ world.history.waiting :=
  ⟨by decide, by decide,
    ((dmIpc_boundedFifo countingAllocator 50 50 0 ⟨id, id⟩ fun _ => 0).2 twoPasses).2.2.2.2
      (by decide)⟩

end Ipc

end EnosDeviceSdk.DevModel
