/-
# Logging sub-devices in and out, and waiting for the reply

`_iotx_enos_subdev_login`, `_iotx_enos_subdev_login_batch` and `_iotx_enos_subdev_logout` send a
request, link a node for its id into `upstream_sync_callback_list`, and wait for the node's
semaphore. Other threads receive the replies and dispatch their events. Any number of callers may
be inside these functions at once.

The request is out before the node is linked, and the dispatcher looks an id up only once. A reply
whose event is dispatched in between is lost, and so is the reply to a batch login, for which the
dispatcher has no case. Every other reply reaches its caller.
-/

import EnosDeviceSdk.DevModel.UpstreamSync
import EnosDeviceSdk.Library.Run
import Mathlib.Logic.Function.Basic

namespace EnosDeviceSdk.DevModel.SubdevSync

open EnosDeviceSdk.Infra EnosDeviceSdk.Library

universe v

variable {τ : Type v}

/-- The requests that a caller waits for. -/
inductive Request
  | login
  | loginBatch
  | logout
  deriving DecidableEq

/-- What `HAL_SemaphoreWait` returns when the time is up. -/
def halSemaphoreWaitFailure : Int := -1

/-- What a caller returns when its wait fails: a login passes the failure on. -/
def Request.timeoutResult : Request → Int
  | .login | .loginBatch => halSemaphoreWaitFailure
  | .logout => stateSysDependSemaphoreWait

/-- Where a caller stands: outside; with the request sent; in `HAL_SemaphoreWait`; past it, with
or without a post; past the removal of its node, on its way to `iotx_dm_subscribe`; or back. -/
inductive Pc
  | idle
  | sent (request : Request) (msgid : Int)
  | waiting (request : Request) (msgid : Int)
  | woken (request : Request) (msgid : Int)
  | timedOut (request : Request) (msgid : Int)
  | subscribing
  | returned (result : Int)
  deriving DecidableEq

/-- The id of the node that a caller has in the list. -/
def Pc.linkedId : Pc → Option Int
  | .waiting _ msgid | .woken _ msgid | .timedOut _ msgid => some msgid
  | .idle | .sent .. | .subscribing | .returned _ => none

/-- The id of the request that a caller expects the reply to: it has been sent, the wait for the
reply has not failed, and the reply's code has not been read. -/
def Pc.expectedId : Pc → Option Int
  | .sent _ msgid | .waiting _ msgid | .woken _ msgid => some msgid
  | .idle | .timedOut .. | .subscribing | .returned _ => none

/-- A caller, with the code of the last reply event that was dispatched for the request that it
expected the reply to. -/
structure Caller where
  pc : Pc
  heard : Option Int
  deriving DecidableEq

/-- The list and the callers. -/
structure World (τ : Type v) where
  list : List SyncNode
  caller : τ → Caller

/-- What may happen next. A caller that is outside, or back, sends a request, for which it gets
`res`: an error or the id. It goes on, finds its semaphore posted or its time up, reads the code,
subscribes. Or a reply event is dispatched. -/
inductive Event (τ : Type v)
  | send (thread : τ) (request : Request) (res : Int)
  | link (thread : τ) (semaphoreOk mallocOk : Bool)
  | wake (thread : τ)
  | timeOut (thread : τ)
  | collect (thread : τ)
  | subscribe (thread : τ) (res : Int)
  | dispatch (event : ReplyEvent) (id code : Int)

section Steps

variable [DecidableEq τ]

/-- A caller moves on. -/
def World.move (world : World τ) (thread : τ) (pc : Pc) : World τ :=
  { world with
    caller := Function.update world.caller thread { world.caller thread with pc := pc } }

/-- The request is sent, unless that fails. -/
def send (world : World τ) (thread : τ) (request : Request) (res : Int) : World τ :=
  let pc := if res < successReturn then .returned res else .sent request res
  { world with caller := Function.update world.caller thread ⟨pc, none⟩ }

/-- The semaphore is created and the node linked. -/
def link (world : World τ) (thread : τ) (request : Request) (msgid : Int)
    (semaphoreOk mallocOk : Bool) : World τ :=
  if !semaphoreOk then world.move thread (.returned stateSysDependSemaphoreCreate)
  else
    let (res, list) := upstreamSyncCallbackListInsert world.list msgid mallocOk
    if res ≠ successReturn then world.move thread (.returned res)
    else { world.move thread (.waiting request msgid) with list := list }

/-- `HAL_SemaphoreWait` takes a post. -/
def wake (world : World τ) (thread : τ) (request : Request) (msgid : Int) : World τ :=
  match upstreamSyncCallbackListSearch world.list msgid with
  | some ⟨_, _ + 1, _⟩ =>
      { world.move thread (.woken request msgid) with
        list := writeFirst SyncNode.msgid msgid SyncNode.takePost world.list }
  | _ => world

/-- `HAL_SemaphoreWait` fails: there is no post to take until the time is up. -/
def timeOut (world : World τ) (thread : τ) (request : Request) (msgid : Int) : World τ :=
  match upstreamSyncCallbackListSearch world.list msgid with
  | some ⟨_, 0, _⟩ => world.move thread (.timedOut request msgid)
  | _ => world

/-- The code is read from the node, and the node removed. -/
def collect (world : World τ) (thread : τ) (request : Request) (msgid : Int) : World τ :=
  match upstreamSyncCallbackListSearch world.list msgid with
  | some node =>
      let pc :=
        if node.code ≠ successReturn then .returned stateDevModelRefusedByCloud
        else
          match request with
          | .login | .loginBatch => .subscribing
          | .logout => .returned successReturn
      { world.move thread pc with list := (upstreamSyncCallbackListRemove world.list msgid).2 }
  | none => world

/-- After a failed wait the node is removed. -/
def giveUp (world : World τ) (thread : τ) (request : Request) (msgid : Int) : World τ :=
  { world.move thread (.returned request.timeoutResult) with
    list := (upstreamSyncCallbackListRemove world.list msgid).2 }

/-- A caller that expects the reply to the request hears of it. -/
def Caller.hear (caller : Caller) (id code : Int) : Caller :=
  if caller.pc.expectedId = some id then { caller with heard := some code } else caller

/-- The world after the event. A caller whose turn it is not stays where it is. -/
def step (world : World τ) : Event τ → World τ
  | .send thread request res =>
      match (world.caller thread).pc with
      | .idle | .returned _ => send world thread request res
      | _ => world
  | .link thread semaphoreOk mallocOk =>
      match (world.caller thread).pc with
      | .sent request msgid => link world thread request msgid semaphoreOk mallocOk
      | _ => world
  | .wake thread =>
      match (world.caller thread).pc with
      | .waiting request msgid => wake world thread request msgid
      | _ => world
  | .timeOut thread =>
      match (world.caller thread).pc with
      | .waiting request msgid => timeOut world thread request msgid
      | _ => world
  | .collect thread =>
      match (world.caller thread).pc with
      | .woken request msgid => collect world thread request msgid
      | .timedOut request msgid => giveUp world thread request msgid
      | _ => world
  | .subscribe thread res =>
      match (world.caller thread).pc with
      | .subscribing => world.move thread (.returned res)
      | _ => world
  | .dispatch event id code =>
      { list := handleReplyEvent world.list event id code
        caller := fun thread => (world.caller thread).hear id code }

/-- Nobody has called yet. -/
def start : World τ where
  list := []
  caller := fun _ => ⟨.idle, none⟩

/-- What is left for a caller that has been posted to do on its own. -/
def ownSteps (thread : τ) : List (Event τ) :=
  [.wake thread, .collect thread, .subscribe thread successReturn]

/-- A caller for whose request a reply event has been dispatched in time needs nothing but its own
steps to return what the reply's code says. A caller that is back has returned that. -/
def Answered (world : World τ) : Prop :=
  ∀ thread code, (world.caller thread).heard = some code →
    ((runFrom step world (ownSteps thread)).caller thread).pc = .returned (replyResult code)

end Steps

/-- The step loses no reply: an event for a request that a caller expects the reply to is
dispatched when that caller has linked its node, and is not the one that has no case; and the
subscription after a login succeeds. -/
def LosesNothing (world : World τ) : Event τ → Prop
  | .dispatch event id _ => ∀ thread, (world.caller thread).pc.expectedId = some id →
      (world.caller thread).pc.linkedId = some id ∧ event ≠ .combineLoginBatchReply
  | .subscribe thread res => (world.caller thread).pc = .subscribing → res = successReturn
  | .send .. | .link .. | .wake _ | .timeOut _ | .collect _ => True

/-! ## The invariant -/

/-- What a caller may rely on. Before its node is linked, and once its wait has failed, there has
been no reply; a reply that it waits for has posted its semaphore and stands in its node. -/
def Caller.Informed (list : List SyncNode) (caller : Caller) : Prop :=
  ∀ code, caller.heard = some code →
    match caller.pc with
    | .idle | .sent .. | .timedOut .. => False
    | .waiting _ msgid => ∃ node, upstreamSyncCallbackListSearch list msgid = some node ∧
        0 < node.semaphore ∧ node.code = replyResult code
    | .woken _ msgid => ∃ node, upstreamSyncCallbackListSearch list msgid = some node ∧
        node.code = replyResult code
    | .subscribing => replyResult code = successReturn
    | .returned result => result = replyResult code

/-- Every caller with a linked node finds it, no two callers have the same one, and every caller is
informed. -/
structure Consistent (world : World τ) : Prop where
  linked : ∀ thread msgid, (world.caller thread).pc.linkedId = some msgid →
    msgid ∈ world.list.map SyncNode.msgid
  apart : ∀ first second msgid, (world.caller first).pc.linkedId = some msgid →
    (world.caller second).pc.linkedId = some msgid → first = second
  informed : ∀ thread, (world.caller thread).Informed world.list

theorem consistent_start : Consistent (start : World τ) where
  linked := fun _ _ hlinked => absurd hlinked (by simp [start, Pc.linkedId])
  apart := fun _ _ _ hlinked => absurd hlinked (by simp [start, Pc.linkedId])
  informed := fun _ _ hheard => absurd hheard (by simp [start])

theorem Consistent.search {world : World τ} (hconsistent : Consistent world) {thread : τ}
    {msgid : Int} (hlinked : (world.caller thread).pc.linkedId = some msgid) :
    ∃ node, upstreamSyncCallbackListSearch world.list msgid = some node :=
  Option.isSome_iff_exists.mp
    ((search_isSome_iff _ _).mpr (hconsistent.linked thread msgid hlinked))

/-- A caller is informed by its own node only. -/
theorem Caller.Informed.congr {list other : List SyncNode} {caller : Caller}
    (hinformed : caller.Informed list)
    (hsame : ∀ msgid, caller.pc.linkedId = some msgid →
      upstreamSyncCallbackListSearch other msgid = upstreamSyncCallbackListSearch list msgid) :
    caller.Informed other := by
  intro code hheard
  have hbefore := hinformed code hheard
  cases hpc : caller.pc with
  | idle | sent | timedOut => simp [hpc] at hbefore
  | subscribing | returned => simpa [hpc] using hbefore
  | waiting request msgid | woken request msgid =>
      have hown := hsame msgid (by rw [hpc]; rfl)
      simpa [hpc, hown] using hbefore

section Moves

variable [DecidableEq τ]

/-- One caller moves, and the list changes at most at the node that it has or had. -/
theorem Consistent.moved {world : World τ} (hconsistent : Consistent world) {thread : τ}
    {caller : Caller} {list : List SyncNode}
    (hlinked : ∀ msgid, caller.pc.linkedId = some msgid →
      msgid ∈ list.map SyncNode.msgid ∧
        ∀ other, other ≠ thread → (world.caller other).pc.linkedId ≠ some msgid)
    (hothers : ∀ other msgid, other ≠ thread → (world.caller other).pc.linkedId = some msgid →
      upstreamSyncCallbackListSearch list msgid =
        upstreamSyncCallbackListSearch world.list msgid)
    (hinformed : caller.Informed list) :
    Consistent
      { list := list, caller := Function.update world.caller thread caller } where
  linked := by
    intro other msgid hother
    dsimp only at hother ⊢
    by_cases hsame : other = thread
    · subst hsame
      rw [Function.update_self] at hother
      exact (hlinked msgid hother).1
    · rw [Function.update_of_ne hsame] at hother
      rw [← search_isSome_iff, hothers other msgid hsame hother, search_isSome_iff]
      exact hconsistent.linked other msgid hother
  apart := by
    intro first second msgid hfirst hsecond
    dsimp only at hfirst hsecond
    by_cases hone : first = thread <;> by_cases htwo : second = thread
    · rw [hone, htwo]
    · rw [hone, Function.update_self] at hfirst
      rw [Function.update_of_ne htwo] at hsecond
      exact absurd hsecond ((hlinked msgid hfirst).2 second htwo)
    · rw [Function.update_of_ne hone] at hfirst
      rw [htwo, Function.update_self] at hsecond
      exact absurd hfirst ((hlinked msgid hsecond).2 first hone)
    · rw [Function.update_of_ne hone] at hfirst
      rw [Function.update_of_ne htwo] at hsecond
      exact hconsistent.apart first second msgid hfirst hsecond
  informed := by
    intro other
    dsimp only
    by_cases hsame : other = thread
    · subst hsame
      rw [Function.update_self]
      exact hinformed
    · rw [Function.update_of_ne hsame]
      apply (hconsistent.informed other).congr
      intro msgid hother
      exact hothers other msgid hsame hother

/-- A caller that has no node any more, or never had one, changes nothing for the others. -/
theorem Consistent.left {world : World τ} (hconsistent : Consistent world) {thread : τ}
    {caller : Caller} (hnone : caller.pc.linkedId = none)
    (hinformed : caller.Informed world.list) :
    Consistent { world with caller := Function.update world.caller thread caller } := by
  apply hconsistent.moved
  · intro msgid hlinked
    rw [hnone] at hlinked
    exact absurd hlinked (by simp)
  · intro _ _ _ _
    rfl
  · exact hinformed

omit [DecidableEq τ] in
/-- The node of another caller is none of the caller's business. -/
theorem Consistent.other_msgid_ne {world : World τ} (hconsistent : Consistent world)
    {thread other : τ} {msgid theirs : Int}
    (hlinked : (world.caller thread).pc.linkedId = some msgid) (hother : other ≠ thread)
    (htheirs : (world.caller other).pc.linkedId = some theirs) : theirs ≠ msgid := by
  rintro rfl
  exact hother (hconsistent.apart other thread theirs htheirs hlinked)

/-! ## Steps -/

omit [DecidableEq τ] in
/-- A caller without a linked node, on its way to one or outside, has heard nothing. -/
theorem Consistent.unheard {world : World τ} (hconsistent : Consistent world) {thread : τ}
    {request : Request} {msgid : Int} (hsent : (world.caller thread).pc = .sent request msgid) :
    (world.caller thread).heard = none := by
  cases hheard : (world.caller thread).heard with
  | none => rfl
  | some code =>
      have hinformed := hconsistent.informed thread code hheard
      simp [hsent] at hinformed

theorem consistent_send {world : World τ} (hconsistent : Consistent world) (thread : τ)
    (request : Request) (res : Int) : Consistent (send world thread request res) := by
  unfold send
  apply hconsistent.left
  · dsimp only
    split <;> rfl
  · intro code hheard
    exact absurd hheard (by simp)

theorem consistent_link {world : World τ} (hconsistent : Consistent world) {thread : τ}
    {request : Request} {msgid : Int} (hsent : (world.caller thread).pc = .sent request msgid)
    (semaphoreOk mallocOk : Bool) :
    Consistent (link world thread request msgid semaphoreOk mallocOk) := by
  have hunheard := hconsistent.unheard hsent
  have hinformed : ∀ pc list, Caller.Informed list { world.caller thread with pc := pc } := by
    intro pc list code hheard
    exact absurd (hunheard.symm.trans hheard) (by simp)
  unfold link
  split
  · exact hconsistent.left rfl (hinformed _ _)
  · unfold upstreamSyncCallbackListInsert
    by_cases hdup : (upstreamSyncCallbackListSearch world.list msgid).isSome
    · simp only [hdup, if_true, stateDevModelDupUpstreamMsg, successReturn]
      exact hconsistent.left rfl (hinformed _ _)
    · have hnew : msgid ∉ world.list.map SyncNode.msgid := fun hmem =>
        hdup ((search_isSome_iff _ _).mpr hmem)
      cases mallocOk with
      | false =>
          simp only [hdup, stateSysDependMalloc, successReturn]
          exact hconsistent.left rfl (hinformed _ _)
      | true =>
          simp only [hdup]
          apply hconsistent.moved
          · rintro _ ⟨⟩
            refine ⟨List.mem_cons_self, fun other _ htheirs => ?_⟩
            exact hnew (hconsistent.linked other msgid htheirs)
          · intro other theirs _ htheirs
            have hne : msgid ≠ theirs := by
              rintro rfl
              exact hnew (hconsistent.linked other _ htheirs)
            simp [upstreamSyncCallbackListSearch, hne]
          · exact hinformed _ _

/-- Taking a post from a node does not change its code. -/
theorem consistent_wake {world : World τ} (hconsistent : Consistent world) {thread : τ}
    {request : Request} {msgid : Int}
    (hwaiting : (world.caller thread).pc = .waiting request msgid) :
    Consistent (wake world thread request msgid) := by
  have hown : (world.caller thread).pc.linkedId = some msgid := by
    rw [hwaiting]
    rfl
  unfold wake
  split
  next found semaphore code hfound =>
    apply hconsistent.moved
    · rintro _ ⟨⟩
      refine ⟨?_, fun other hother htheirs => ?_⟩
      · rw [map_writeFirst SyncNode.takePost_msgid]
        exact hconsistent.linked thread msgid hown
      · exact hother (hconsistent.apart other thread msgid htheirs hown)
    · intro other theirs hother htheirs
      exact find?_writeFirst_of_ne SyncNode.takePost_msgid
        (hconsistent.other_msgid_ne hown hother htheirs) _
    · intro heard hheard
      have hbefore := hconsistent.informed thread heard hheard
      simp only [hwaiting] at hbefore
      obtain ⟨node, hnode, _, hcode⟩ := hbefore
      refine ⟨node.takePost, ?_, hcode⟩
      refine (find?_writeFirst_self SyncNode.takePost_msgid msgid world.list).trans ?_
      exact congrArg (Option.map SyncNode.takePost) hnode
  next => exact hconsistent

/-- A wait fails only if nothing has been heard. -/
theorem consistent_timeOut {world : World τ} (hconsistent : Consistent world) {thread : τ}
    {request : Request} {msgid : Int}
    (hwaiting : (world.caller thread).pc = .waiting request msgid) :
    Consistent (timeOut world thread request msgid) := by
  have hown : (world.caller thread).pc.linkedId = some msgid := by
    rw [hwaiting]
    rfl
  unfold timeOut
  split
  next found code hfound =>
    apply hconsistent.moved
    · rintro _ ⟨⟩
      refine ⟨hconsistent.linked thread msgid hown, fun other hother htheirs => ?_⟩
      exact hother (hconsistent.apart other thread msgid htheirs hown)
    · intro _ _ _ _
      rfl
    · intro heard hheard
      have hbefore := hconsistent.informed thread heard hheard
      simp only [hwaiting] at hbefore
      obtain ⟨node, hnode, hposted, _⟩ := hbefore
      rw [hfound] at hnode
      rw [← Option.some.inj hnode] at hposted
      exact absurd hposted (Nat.lt_irrefl _)
  next => exact hconsistent

/-- The removal of a caller's own node, on its way out. -/
theorem Consistent.removed {world : World τ} (hconsistent : Consistent world) {thread : τ}
    {msgid : Int} (hown : (world.caller thread).pc.linkedId = some msgid) {pc : Pc}
    (hnone : pc.linkedId = none)
    (hinformed : Caller.Informed (upstreamSyncCallbackListRemove world.list msgid).2
      { world.caller thread with pc := pc }) :
    Consistent { world.move thread pc with
      list := (upstreamSyncCallbackListRemove world.list msgid).2 } := by
  apply hconsistent.moved
  · intro other hlinked
    dsimp only at hlinked
    rw [hnone] at hlinked
    exact absurd hlinked (by simp)
  · intro other theirs hother htheirs
    exact search_remove_of_ne _ (hconsistent.other_msgid_ne hown hother htheirs)
  · exact hinformed

theorem consistent_collect {world : World τ} (hconsistent : Consistent world) {thread : τ}
    {request : Request} {msgid : Int}
    (hwoken : (world.caller thread).pc = .woken request msgid) :
    Consistent (collect world thread request msgid) := by
  have hown : (world.caller thread).pc.linkedId = some msgid := by
    rw [hwoken]
    rfl
  unfold collect
  split
  next node hfound =>
    have hcode : ∀ heard, (world.caller thread).heard = some heard →
        node.code = replyResult heard := by
      intro heard hheard
      have hbefore := hconsistent.informed thread heard hheard
      simp only [hwoken] at hbefore
      obtain ⟨other, hother, hcode⟩ := hbefore
      rw [hfound] at hother
      rwa [Option.some.inj hother]
    apply hconsistent.removed hown
    · split
      · rfl
      · cases request <;> rfl
    · intro heard hheard
      have hresult := hcode heard hheard
      by_cases hrefused : node.code = successReturn
      · rw [hrefused] at hresult
        cases request with
        | login | loginBatch => simpa [hrefused] using hresult.symm
        | logout => simpa [hrefused] using hresult
      · simp only [ne_eq, hrefused, not_false_eq_true, if_true]
        unfold replyResult at hresult ⊢
        split at hresult
        · exact absurd hresult hrefused
        · rename_i hcode
          rw [if_neg hcode]
  next => exact hconsistent

theorem consistent_giveUp {world : World τ} (hconsistent : Consistent world) {thread : τ}
    {request : Request} {msgid : Int}
    (htimedOut : (world.caller thread).pc = .timedOut request msgid) :
    Consistent (giveUp world thread request msgid) := by
  apply hconsistent.removed (by rw [htimedOut]; rfl) rfl
  intro heard hheard
  have hbefore := hconsistent.informed thread heard hheard
  simp [htimedOut] at hbefore

theorem consistent_subscribe {world : World τ} (hconsistent : Consistent world) {thread : τ}
    (hsubscribing : (world.caller thread).pc = .subscribing) :
    Consistent (world.move thread (.returned successReturn)) := by
  apply hconsistent.left rfl
  intro heard hheard
  have hbefore := hconsistent.informed thread heard hheard
  simp only [hsubscribing] at hbefore
  exact hbefore.symm

theorem Caller.hear_pc (caller : Caller) (id code : Int) :
    (caller.hear id code).pc = caller.pc := by
  unfold Caller.hear
  split <;> rfl

/-- The dispatch of a reply that nobody misses. -/
theorem consistent_dispatch {world : World τ} (hconsistent : Consistent world)
    (event : ReplyEvent) (id code : Int)
    (hmissed : ∀ thread, (world.caller thread).pc.expectedId = some id →
      (world.caller thread).pc.linkedId = some id ∧ event ≠ .combineLoginBatchReply) :
    Consistent (step world (.dispatch event id code)) where
  linked := by
    intro thread msgid hlinked
    simp only [step, Caller.hear_pc] at hlinked ⊢
    rw [map_msgid_handleReplyEvent]
    exact hconsistent.linked thread msgid hlinked
  apart := by
    intro first second msgid hfirst hsecond
    simp only [step, Caller.hear_pc] at hfirst hsecond
    exact hconsistent.apart first second msgid hfirst hsecond
  informed := by
    intro thread
    simp only [step]
    by_cases hexpected : (world.caller thread).pc.expectedId = some id
    · -- The caller has its node in the list, and the event is written into it.
      obtain ⟨hlinked, hcase⟩ := hmissed thread hexpected
      obtain ⟨node, hnode⟩ := hconsistent.search hlinked
      have hanswered : upstreamSyncCallbackListSearch
          (handleReplyEvent world.list event id code) id = some (node.answer code) := by
        rw [handleReplyEvent_of_ne hcase]
        refine (find?_writeFirst_self (SyncNode.answer_msgid · code) id world.list).trans ?_
        exact congrArg (Option.map (SyncNode.answer · code)) hnode
      rw [Caller.hear, if_pos hexpected]
      rintro _ ⟨⟩
      cases hpc : (world.caller thread).pc with
      | idle | sent | timedOut | subscribing | returned =>
          simp [hpc, Pc.expectedId, Pc.linkedId] at hexpected hlinked
      | waiting request msgid =>
          obtain rfl : msgid = id := by simpa [hpc, Pc.expectedId] using hexpected
          exact ⟨node.answer code, hanswered, Nat.succ_pos _, rfl⟩
      | woken request msgid =>
          obtain rfl : msgid = id := by simpa [hpc, Pc.expectedId] using hexpected
          exact ⟨node.answer code, hanswered, rfl⟩
    · rw [Caller.hear, if_neg hexpected]
      intro heard hheard
      have hbefore := hconsistent.informed thread heard hheard
      cases hpc : (world.caller thread).pc with
      | idle | sent | timedOut => simp [hpc] at hbefore
      | subscribing | returned => simpa [hpc] using hbefore
      | waiting request msgid | woken request msgid =>
          have hother : msgid ≠ id := fun hsame =>
            hexpected (by rw [hpc, hsame]; rfl)
          simpa [hpc, search_handleReplyEvent_of_ne _ _ _ hother] using hbefore

/-! ## Runs -/

theorem consistent_step (world : World τ) (event : Event τ) (hconsistent : Consistent world)
    (hloses : LosesNothing world event) : Consistent (step world event) := by
  cases event with
  | send thread request res =>
      unfold step
      dsimp only
      split
      next => exact consistent_send hconsistent thread request res
      next => exact consistent_send hconsistent thread request res
      next => exact hconsistent
  | link thread semaphoreOk mallocOk =>
      unfold step
      dsimp only
      split
      next hsent => exact consistent_link hconsistent hsent semaphoreOk mallocOk
      next => exact hconsistent
  | wake thread =>
      unfold step
      dsimp only
      split
      next hwaiting => exact consistent_wake hconsistent hwaiting
      next => exact hconsistent
  | timeOut thread =>
      unfold step
      dsimp only
      split
      next hwaiting => exact consistent_timeOut hconsistent hwaiting
      next => exact hconsistent
  | collect thread =>
      unfold step
      dsimp only
      split
      next hwoken => exact consistent_collect hconsistent hwoken
      next htimedOut => exact consistent_giveUp hconsistent htimedOut
      next => exact hconsistent
  | subscribe thread res =>
      unfold step
      dsimp only
      split
      next hsubscribing =>
        rw [hloses hsubscribing]
        exact consistent_subscribe hconsistent hsubscribing
      next => exact hconsistent
  | dispatch event id code => exact consistent_dispatch hconsistent event id code hloses

/-! ## What is left to do -/

/-- The pc of a caller after it has moved. -/
@[simp]
theorem World.move_pc (world : World τ) (thread : τ) (pc : Pc) :
    ((world.move thread pc).caller thread).pc = pc := by
  simp [World.move]

theorem subscribe_pc (world : World τ) (thread : τ) (res : Int) :
    ((step world (.subscribe thread res)).caller thread).pc =
      if (world.caller thread).pc = .subscribing then .returned res
      else (world.caller thread).pc := by
  unfold step
  dsimp only
  split
  next hsubscribing => rw [if_pos hsubscribing, World.move_pc]
  next hother => rw [if_neg hother]

/-- From the code in its node on, a caller returns what the code says. -/
theorem finish_of_woken {world : World τ} {thread : τ} {request : Request} {msgid : Int}
    {node : SyncNode} {code : Int} (hwoken : (world.caller thread).pc = .woken request msgid)
    (hfound : upstreamSyncCallbackListSearch world.list msgid = some node)
    (hcode : node.code = replyResult code) :
    ((runFrom step world [.collect thread, .subscribe thread successReturn]).caller thread).pc =
      .returned (replyResult code) := by
  rw [runFrom_cons, runFrom_cons, runFrom_nil, subscribe_pc]
  simp only [step, hwoken, collect, hfound, World.move_pc]
  by_cases hsuccess : code = iotxDmErrCodeSuccess
  · have haccepted : node.code = successReturn := hcode.trans (if_pos hsuccess)
    cases request <;> simp [haccepted, replyResult, hsuccess]
  · have hrefused : node.code = stateDevModelRefusedByCloud := hcode.trans (if_neg hsuccess)
    have hresult : replyResult code = stateDevModelRefusedByCloud := if_neg hsuccess
    simp [hrefused, hresult, stateDevModelRefusedByCloud, successReturn]

/-- Every caller that has heard of its reply has only its own steps left to return what the
reply says. -/
theorem answered_of_consistent {world : World τ} (hconsistent : Consistent world) :
    Answered world := by
  intro thread code hheard
  have hinformed := hconsistent.informed thread code hheard
  unfold ownSteps
  cases hpc : (world.caller thread).pc with
  | idle | sent | timedOut => simp [hpc] at hinformed
  | subscribing =>
      simp only [hpc] at hinformed
      simp [step, hpc, hinformed]
  | returned result =>
      simp only [hpc] at hinformed
      simp [step, hpc, hinformed]
  | woken request msgid =>
      simp only [hpc] at hinformed
      obtain ⟨node, hfound, hcode⟩ := hinformed
      have hstay : step world (.wake thread) = world := by simp [step, hpc]
      rw [runFrom_cons, hstay]
      exact finish_of_woken hpc hfound hcode
  | waiting request msgid =>
      simp only [hpc] at hinformed
      obtain ⟨⟨id, semaphore, stored⟩, hfound, hposted, hcode⟩ := hinformed
      obtain ⟨posts, rfl⟩ := Nat.exists_eq_succ_of_ne_zero (Nat.ne_of_gt hposted)
      let taken := writeFirst SyncNode.msgid msgid SyncNode.takePost world.list
      have hwake : step world (.wake thread) =
          { world.move thread (.woken request msgid) with list := taken } := by
        simp only [step, hpc, wake, hfound, taken]
      have hwoken : (((step world (.wake thread)).caller thread).pc) =
          .woken request msgid := by
        rw [hwake]
        exact World.move_pc world thread _
      have hnode : upstreamSyncCallbackListSearch (step world (.wake thread)).list msgid =
          some ⟨id, posts, stored⟩ := by
        rw [hwake]
        refine (find?_writeFirst_self SyncNode.takePost_msgid msgid world.list).trans ?_
        exact congrArg (Option.map SyncNode.takePost) hfound
      rw [runFrom_cons]
      exact finish_of_woken hwoken hnode hcode

/-- Whatever the interleaving, as long as no reply event is dispatched before its caller is in the
list and none is of the kind without a case, every caller returns what its reply says. -/
theorem answered_of_losesNothing (events : List (Event τ))
    (hloses : StepsMeet step LosesNothing start events) :
    Always step Answered (start : World τ) events :=
  (always_of_stepsMeet consistent_step consistent_start hloses).mono
    fun _ hconsistent => answered_of_consistent hconsistent

end Moves

/-- A login and a logout at the same time. The replies come in the other order, and one is a
refusal. -/
def answeredRun : List (Event Bool) :=
  [.send true .login 7, .link true true true, .send false .logout 8, .link false true true,
    .dispatch .combineLogoutReply 8 500, .dispatch .combineLoginReply 7 200, .wake true,
    .wake false, .collect false, .collect true, .subscribe true successReturn]

theorem answered_of_losesNothing_run :
    StepsMeet step LosesNothing start answeredRun ∧ Always step Answered start answeredRun := by
  have hmeet : StepsMeet step LosesNothing start answeredRun := by
    refine ⟨trivial, trivial, trivial, trivial, ?_, ?_, trivial, trivial, trivial, trivial,
      fun _ => rfl, trivial⟩
    · intro thread
      cases thread <;> decide
    · intro thread
      cases thread <;> decide
  exact ⟨hmeet, answered_of_losesNothing answeredRun hmeet⟩

/-- A reply whose event is dispatched before the caller has linked its node, and one to a batch
login: either caller times out. -/
theorem reply_lost :
    (¬Always step Answered start
      [.send true .login 7, .dispatch .combineLoginReply 7 200, .link true true true,
        .timeOut true, .collect true]) ∧
    ¬Always step Answered start
      [.send true .loginBatch 7, .link true true true, .dispatch .combineLoginBatchReply 7 200,
        .timeOut true, .collect true] := by
  constructor
  · intro halways
    have hanswer := halways.finish true 200 (by decide)
    exact absurd hanswer (by decide)
  · intro halways
    have hanswer := halways.finish true 200 (by decide)
    exact absurd hanswer (by decide)

end EnosDeviceSdk.DevModel.SubdevSync
