/-
# Opening and closing beside the yield threads

In a gateway build, a connect creates a thread that yields the connections in turn while
`inited_conn_num` is positive. It locks `fd_lock` for every slot, and what it receives is
handled under the mutexes of the modules. `iotx_cm_close` waits for `yield_task_leave` before
it goes on, but a thread that was created and has not run yet has not cleared that flag.

The thread that makes the calls and the yield threads take turns. A call is the list of its
marks: nothing that it reads is written by a yield thread but `yield_task_leave`. A step is one
mark of the call under way, or one access of a yield thread to what the threads share.
-/

import EnosDeviceSdk.DevModel.UnwindMarks

namespace EnosDeviceSdk.DevModel.UnwindThreads

open EnosDeviceSdk.Infra EnosDeviceSdk.Library EnosDeviceSdk.Library.Handles
open EnosDeviceSdk.DevModel.Connection (ConnectionTable cmMaxFdNum)
open EnosDeviceSdk.DevModel.Unwind

/-! ## The yield threads -/

/-- Where a yield thread stands in `_iotx_cm_yield_thread_func` and `_iotx_cm_yield`. At
`yielding` it is inside `yield_func`, with the mutexes that a handler holds there. -/
inductive ThreadPoint
  | unstarted
  | testCount
  | testLock
  | lockSlot (slot : Nat)
  | unlockSlot (slot : Nat)
  | yielding (slot : Nat) (held : List MutexVar)
  | leaving
  | left
  deriving DecidableEq

/-- What is left open of a thread's step: whether the slot that it read is taken, and what a
handler inside `yield_func` does. -/
inductive Choice
  | proceed
  | enter
  | handle (operation : DmOperation)
  deriving DecidableEq

/-- What the calls have made of the static variables, the marks that are left of the call under
way, what was performed by whom, `inited_conn_num`, `yield_task_leave`, and the threads. -/
structure System where
  world : World
  pending : List Mark
  events : List (Agent × DmOperation)
  initedConnNum : Int
  yieldTaskLeave : Bool
  threads : List ThreadPoint

/-- Before the first call. -/
def System.initial : System where
  world := World.initial
  pending := []
  events := []
  initedConnNum := 0
  yieldTaskLeave := true
  threads := []

/-- The mutexes and the lists after the operations of all threads so far. -/
def System.memory (sys : System) : Memory MutexVar DmList Agent :=
  runFrom Memory.act Memory.zero sys.events

/-- Every operation so far was allowed to its thread in the memory that it found. -/
def Lawful (sys : System) : Prop :=
  StepsMeet Memory.act Memory.Permits Memory.zero sys.events

/-- An operation is performed. -/
def System.perform (sys : System) (agent : Agent) (operation : DmOperation) : System :=
  { sys with events := sys.events ++ [(agent, operation)] }

/-- A yield thread goes on to a point. -/
def System.move (sys : System) (index : Nat) (point : ThreadPoint) : System :=
  { sys with threads := sys.threads.set index point }

/-- Locking a mutex that another thread holds has to wait. -/
def System.waits (sys : System) (agent : Agent) (var : MutexVar) : Bool :=
  match (sys.memory.handle var).map sys.memory.mutexes with
  | some (.held owner) => owner ≠ agent
  | _ => false

/-- The next mark of the call under way. -/
def callerStep (sys : System) : System :=
  match sys.pending with
  | [] => sys
  | .operation (.lock var) :: rest =>
      if sys.waits .caller var then sys
      else { sys.perform .caller (.lock var) with pending := rest }
  | .operation operation :: rest => { sys.perform .caller operation with pending := rest }
  | .connNum count :: rest => { sys with pending := rest, initedConnNum := count }
  | .createThread :: rest =>
      { sys with pending := rest, threads := sys.threads ++ [.unstarted] }
  | .awaitLeave :: rest => if sys.yieldTaskLeave then { sys with pending := rest } else sys

/-- The loop of `_iotx_cm_yield` behind a slot. -/
def nextSlot (slot : Nat) : ThreadPoint :=
  if slot + 1 < cmMaxFdNum then .lockSlot (slot + 1) else .testCount

/-- A step inside `yield_func`: a handler locks a mutex of the modules or unlocks one, or
traverses a list of theirs, or `yield_func` returns. -/
def handlerStep (sys : System) (index slot : Nat) (held : List MutexVar) : Choice → System
  | .handle (.lock var) =>
      if var ∈ moduleVars ∧ var ∉ held ∧ sys.waits (.thread index) var = false then
        (sys.perform (.thread index) (.lock var)).move index (.yielding slot (var :: held))
      else sys
  | .handle (.unlock var) =>
      if var ∈ held then
        (sys.perform (.thread index) (.unlock var)).move index
          (.yielding slot (held.filter (· ≠ var)))
      else sys
  | .handle (.traverse list) =>
      if list ∈ moduleLists then
        (sys.perform (.thread index) (.traverse list)).move index (.yielding slot held)
      else sys
  | .proceed => if held = [] then sys.move index (nextSlot slot) else sys
  | _ => sys

/-- The next step of a yield thread. -/
def threadStep (sys : System) (index : Nat) (choice : Choice) : System :=
  match sys.threads[index]? with
  | none | some .left => sys
  | some .unstarted => { sys.move index .testCount with yieldTaskLeave := false }
  | some .testCount => sys.move index (if 0 < sys.initedConnNum then .testLock else .leaving)
  | some .testLock =>
      sys.move index (if sys.memory.handle .fdLock = none then .testCount else .lockSlot 0)
  | some (.lockSlot slot) =>
      if sys.waits (.thread index) .fdLock then sys
      else (sys.perform (.thread index) (.lock .fdLock)).move index (.unlockSlot slot)
  | some (.unlockSlot slot) =>
      (sys.perform (.thread index) (.unlock .fdLock)).move index
        (if choice = .enter then .yielding slot [] else nextSlot slot)
  | some (.yielding slot held) => handlerStep sys index slot held choice
  | some .leaving => { sys.move index .left with yieldTaskLeave := true }

/-- Who takes the next step. A call begins when the one before it has returned. -/
inductive Action
  | call (call : EnosCall)
  | caller
  | thread (index : Nat) (choice : Choice)

/-- The system after a step. -/
def step (sys : System) : Action → System
  | .call call =>
      if sys.pending = [] then
        let world := Unwind.step sys.world call
        { sys with world := world, pending := world.log.drop sys.world.log.length }
      else sys
  | .caller => callerStep sys
  | .thread index choice => threadStep sys index choice

/-! ## The ledger -/

/-- The ledger after the operations of all threads so far. -/
def System.ledger (sys : System) : DmLedger :=
  runFrom Ledger.act Memory.zero.ledger sys.events

theorem ledger_memory (sys : System) : sys.memory.ledger = sys.ledger :=
  (Memory.stepsMeet_ledger apart_zero sys.events).2

theorem lawful_iff (sys : System) :
    Lawful sys ↔ StepsMeet Ledger.act Ledger.Permits Memory.zero.ledger sys.events :=
  (Memory.stepsMeet_ledger apart_zero sys.events).1

instance (sys : System) : Decidable (Lawful sys) := decidable_of_iff _ (lawful_iff sys).symm

@[simp]
theorem lawful_perform (sys : System) (agent : Agent) (operation : DmOperation) :
    Lawful (sys.perform agent operation) ↔ Lawful sys ∧ sys.ledger.Allows agent operation := by
  rw [lawful_iff, lawful_iff, System.perform, stepsMeet_append]
  exact and_congr_right fun _ => and_iff_left trivial

@[simp]
theorem ledger_perform (sys : System) (agent : Agent) (operation : DmOperation) :
    (sys.perform agent operation).ledger = sys.ledger.step agent operation := by
  rw [System.ledger, System.perform, runFrom_append]
  rfl

/-- A lock waits for whoever else holds the mutex. -/
theorem waits_iff (sys : System) (agent : Agent) (var : MutexVar) :
    sys.waits agent var = true ↔
      ∃ owner, owner ≠ agent ∧ sys.ledger.state var = some (.held owner) := by
  have hstate : (sys.memory.handle var).map sys.memory.mutexes = sys.ledger.state var := by
    rw [← ledger_memory]
    rfl
  rw [System.waits, hstate]
  cases sys.ledger.state var with
  | none => simp
  | some state => cases state <;> simp

/-! ## What the threads hold -/

/-- The mutexes that a thread holds at a point. -/
def ThreadPoint.held : ThreadPoint → List MutexVar
  | .unlockSlot _ => [.fdLock]
  | .yielding _ held => held
  | _ => []

/-- The thread is in the body of its loop, where it locks `fd_lock` and handles messages. -/
def ThreadPoint.inBody : ThreadPoint → Bool
  | .testLock | .lockSlot _ | .unlockSlot _ | .yielding _ _ => true
  | _ => false

/-- A yield thread holds a mutex. -/
def Holds (sys : System) (var : MutexVar) (agent : Agent) : Prop :=
  ∃ index point, agent = .thread index ∧ sys.threads[index]? = some point ∧ var ∈ point.held

/-- A thread that goes on holds what its new point says, and the others what they held. -/
theorem holds_move {sys : System} {index : Nat} {old : ThreadPoint}
    (hold : sys.threads[index]? = some old) (point : ThreadPoint) (var : MutexVar)
    (agent : Agent) :
    Holds (sys.move index point) var agent ↔
      Holds sys var agent ∧ agent ≠ .thread index ∨ agent = .thread index ∧ var ∈ point.held := by
  have hlength : index < sys.threads.length := (List.getElem?_eq_some_iff.mp hold).1
  have hself : (sys.threads.set index point)[index]? = some point := by
    rw [List.getElem?_set_self hlength]
  constructor
  · rintro ⟨other, found, rfl, hfound, hheld⟩
    by_cases hsame : index = other
    · subst hsame
      obtain rfl : found = point := Option.some.inj (hfound.symm.trans hself)
      exact Or.inr ⟨rfl, hheld⟩
    · change (sys.threads.set index point)[other]? = some found at hfound
      rw [List.getElem?_set_ne hsame] at hfound
      exact Or.inl ⟨⟨other, found, rfl, hfound, hheld⟩,
        fun hagent => hsame (Agent.thread.inj hagent).symm⟩
  · rintro (⟨⟨other, found, rfl, hfound, hheld⟩, hother⟩ | ⟨rfl, hheld⟩)
    · have hdistinct : index ≠ other := fun hsame => hother (congrArg Agent.thread hsame.symm)
      refine ⟨other, found, rfl, ?_, hheld⟩
      exact (List.getElem?_set_ne hdistinct).trans hfound
    · exact ⟨index, point, rfl, hself, hheld⟩

/-- A thread that goes on without an operation holds what it held. -/
theorem holds_move_same {sys : System} {index : Nat} {old : ThreadPoint}
    (hold : sys.threads[index]? = some old) {point : ThreadPoint} (hheld : point.held = old.held)
    (var : MutexVar) (agent : Agent) :
    Holds (sys.move index point) var agent ↔ Holds sys var agent := by
  rw [holds_move hold, hheld]
  constructor
  · rintro (⟨hholds, -⟩ | ⟨rfl, hmem⟩)
    · exact hholds
    · exact ⟨index, old, rfl, hold, hmem⟩
  · intro hholds
    by_cases hagent : agent = .thread index
    · obtain ⟨other, found, hother, hfound, hmem⟩ := hholds
      obtain rfl : index = other := Agent.thread.inj (hagent.symm.trans hother)
      obtain rfl : found = old := Option.some.inj (hfound.symm.trans hold)
      exact Or.inr ⟨hagent, hmem⟩
    · exact Or.inl ⟨hholds, hagent⟩

/-- At most one thread has not left, and the flag is set only where none has begun. -/
structure Disciplined (sys : System) : Prop where
  one : ∀ (first second : Nat) (point other : ThreadPoint), sys.threads[first]? = some point →
    sys.threads[second]? = some other → point ≠ .left → other ≠ .left → first = second
  leave : sys.yieldTaskLeave = true → ∀ (index : Nat) (point : ThreadPoint),
    sys.threads[index]? = some point → point = .unstarted ∨ point = .left

/-- The threads that have not left are the same or fewer. -/
theorem Disciplined.move {sys : System} (hsys : Disciplined sys) {index : Nat}
    {old : ThreadPoint} (hold : sys.threads[index]? = some old) (hactive : old ≠ .left)
    (point : ThreadPoint) {leave : Bool}
    (hleave : leave = true → point = .left ∨
      sys.yieldTaskLeave = true ∧ (point = .unstarted ∨ point = .left)) :
    Disciplined { sys.move index point with yieldTaskLeave := leave } := by
  have hlength : index < sys.threads.length := (List.getElem?_eq_some_iff.mp hold).1
  have hself : (sys.threads.set index point)[index]? = some point := by
    rw [List.getElem?_set_self hlength]
  have hothers : ∀ other, other ≠ index →
      (sys.threads.set index point)[other]? = sys.threads[other]? :=
    fun other hother => List.getElem?_set_ne hother.symm
  have hleft : ∀ other found, other ≠ index → sys.threads[other]? = some found →
      found = .left := by
    intro other found hother hfound
    by_contra hstays
    exact hother (hsys.one other index found old hfound hold hstays hactive)
  have halone : ∀ other found, (sys.threads.set index point)[other]? = some found →
      found ≠ .left → other = index := by
    intro other found hfound hstays
    by_contra hother
    rw [hothers other hother] at hfound
    exact hstays (hleft other found hother hfound)
  constructor
  · intro first second found other hfirst hsecond hfound hother
    rw [halone first found hfirst hfound, halone second other hsecond hother]
  · intro hset other found hfound
    change (sys.threads.set index point)[other]? = some found at hfound
    by_cases hsame : other = index
    · subst hsame
      obtain rfl : point = found := Option.some.inj (hself.symm.trans hfound)
      exact (hleave hset).elim Or.inr And.right
    · rw [hothers other hsame] at hfound
      exact Or.inr (hleft other found hsame hfound)

/-! ## The stages of a run -/

/-- The mutexes of the modules are there and free but for the caller, and their lists are
initialised. -/
structure Solid (l : DmLedger) : Prop where
  free : ∀ var ∈ moduleVars, l.state var = some .free ∨ l.state var = some (.held .caller)
  ready : ∀ list ∈ moduleLists, l.ready list = true

/-- No thread is in its loop, and none gets there. -/
structure Idle (sys : System) : Prop where
  count : sys.initedConnNum ≤ 0
  outside : ∀ (index : Nat) (point : ThreadPoint), sys.threads[index]? = some point →
    point.inBody = false

theorem Idle.not_inBody {sys : System} (hidle : Idle sys) {index : Nat} {point : ThreadPoint}
    (hpoint : sys.threads[index]? = some point) (hbody : point.inBody = true) : False := by
  have houtside := hidle.outside index point hpoint
  rw [hbody] at houtside
  cases houtside

/-- How far the call under way is. While the master stays open, or a close has not waited yet,
the modules are there for the yield thread. Otherwise no thread is in its loop. -/
inductive Stage (l : DmLedger) (sys : System) : Prop
  | steady (hopened : Opened sys.world) (hsolid : Solid l)
      (hplain : ∀ mark ∈ sys.pending, plain mark = true)
  | leaving (before rest : List Mark) (hsolid : Solid l)
      (hpending : sys.pending = before ++ .awaitLeave :: rest)
      (hplain : ∀ mark ∈ before, plain mark = true)
      (hcount : runFrom countStep sys.initedConnNum before = 0)
      (hcalm : ∀ mark ∈ rest, calm mark = true)
  | still (hidle : Idle sys) (hcalm : ∀ mark ∈ sys.pending, calm mark = true)

/-- The invariant: the calls leave the master open or closed, and the threads have borrowed
mutexes from what the calls have done so far. -/
structure Inv (sys : System) : Prop where
  world : Closed sys.world ∨ Opened sys.world
  kept : Kept sys.world
  count : runFrom countStep sys.initedConnNum sys.pending = sys.world.table.initedConnNum
  lawful : Lawful sys
  disciplined : Disciplined sys
  done : ∃ l : DmLedger,
    StepsMeet (Ledger.step Agent.caller) (Ledger.Allows Agent.caller) l
        (operationsOf sys.pending) ∧
      runFrom (Ledger.step Agent.caller) l (operationsOf sys.pending) = sys.world.ledger ∧
      Lends l sys.ledger (Holds sys) ∧ Stage l sys

/-! ## A yield thread goes on -/

/-- A stage is told by the call and, while nothing may run, by the threads. -/
theorem Stage.of_thread {l : DmLedger} {sys sys' : System} (hstage : Stage l sys)
    (hworld : sys'.world = sys.world) (hpending : sys'.pending = sys.pending)
    (hcount : sys'.initedConnNum = sys.initedConnNum) (hidle : Idle sys → Idle sys') :
    Stage l sys' := by
  cases hstage with
  | steady hopened hsolid hplain =>
      exact .steady (hworld ▸ hopened) hsolid (hpending ▸ hplain)
  | leaving before rest hsolid hparted hplain hzero hcalm =>
      exact .leaving before rest hsolid (hpending.trans hparted) hplain (hcount ▸ hzero) hcalm
  | still hquiet hcalm => exact .still (hidle hquiet) (hpending ▸ hcalm)

theorem Idle.move {sys : System} (hidle : Idle sys) {point : ThreadPoint}
    (hpoint : point.inBody = false) (index : Nat) (leave : Bool) :
    Idle { sys.move index point with yieldTaskLeave := leave } := by
  refine ⟨hidle.count, ?_⟩
  intro other found hfound
  change (sys.threads.set index point)[other]? = some found at hfound
  rw [List.getElem?_set] at hfound
  split at hfound
  · split at hfound
    · exact Option.some.inj hfound ▸ hpoint
    · cases hfound
  · exact hidle.outside other found hfound

/-- A thread goes on without an operation. -/
theorem Inv.goesOn {sys : System} (hsys : Inv sys) {index : Nat} {old : ThreadPoint}
    (hold : sys.threads[index]? = some old) (hactive : old ≠ .left) {point : ThreadPoint}
    (hheld : point.held = old.held) (hbody : Idle sys → point.inBody = false) {leave : Bool}
    (hleave : leave = true → point = .left ∨
      sys.yieldTaskLeave = true ∧ (point = .unstarted ∨ point = .left)) :
    Inv { sys.move index point with yieldTaskLeave := leave } := by
  obtain ⟨l, hmeet, hreach, hlends, hstage⟩ := hsys.done
  refine ⟨hsys.world, hsys.kept, hsys.count, hsys.lawful,
    hsys.disciplined.move hold hactive point hleave, l, hmeet, hreach,
    hlends.of_holds (holds_move_same hold hheld), ?_⟩
  exact hstage.of_thread rfl rfl rfl fun hidle => hidle.move (hbody hidle) index leave

/-- While a thread is in its loop, the modules are there for it. -/
theorem Stage.solid {l : DmLedger} {sys : System} (hstage : Stage l sys) {index : Nat}
    {point : ThreadPoint} (hpoint : sys.threads[index]? = some point)
    (hbody : point.inBody = true) : Solid l := by
  cases hstage with
  | steady _ hsolid _ => exact hsolid
  | leaving _ _ hsolid _ _ _ _ => exact hsolid
  | still hidle _ => exact (hidle.not_inBody hpoint hbody).elim

/-- A thread in its loop performs an operation and goes on. -/
theorem Inv.acts {sys : System} (hsys : Inv sys) {index : Nat} {old : ThreadPoint}
    (hold : sys.threads[index]? = some old) (hbody : old.inBody = true) {point : ThreadPoint}
    {operation : DmOperation}
    (hacts : ∀ l, Solid l → Lends l sys.ledger (Holds sys) →
      sys.ledger.Allows (.thread index) operation ∧
        Lends l (sys.ledger.step (.thread index) operation) (Holds (sys.move index point))) :
    Inv ((sys.perform (.thread index) operation).move index point) := by
  have hactive : old ≠ .left := by
    rintro rfl
    cases hbody
  have hleave : sys.yieldTaskLeave = true → point = .left ∨
      sys.yieldTaskLeave = true ∧ (point = .unstarted ∨ point = .left) := by
    intro hset
    rcases hsys.disciplined.leave hset index old hold with rfl | rfl <;> cases hbody
  obtain ⟨l, hmeet, hreach, hlends, hstage⟩ := hsys.done
  have hsolid := hstage.solid hold hbody
  obtain ⟨hallows, hafter⟩ := hacts l hsolid hlends
  have hmoved := hsys.disciplined.move hold hactive point hleave
  refine ⟨hsys.world, hsys.kept, hsys.count,
    (lawful_perform sys (.thread index) operation).mpr ⟨hsys.lawful, hallows⟩,
    ⟨hmoved.one, hmoved.leave⟩, l, hmeet, hreach, ?_, ?_⟩
  · have hledger : ((sys.perform (.thread index) operation).move index point).ledger =
        sys.ledger.step (.thread index) operation := ledger_perform sys _ operation
    rw [hledger]
    exact hafter
  · exact hstage.of_thread rfl rfl rfl fun hidle => (hidle.not_inBody hold hbody).elim

/-- A thread locks a mutex that nobody else holds. -/
theorem Inv.locks {sys : System} (hsys : Inv sys) {index : Nat} {old : ThreadPoint}
    (hold : sys.threads[index]? = some old) (hbody : old.inBody = true) {var : MutexVar}
    (hvar : var ∈ moduleVars) (hfresh : var ∉ old.held)
    (hwaits : sys.waits (.thread index) var = false) {point : ThreadPoint}
    (hheld : ∀ other, other ∈ point.held ↔ other ∈ old.held ∨ other = var) :
    Inv ((sys.perform (.thread index) (.lock var)).move index point) := by
  apply hsys.acts hold hbody
  intro l hsolid hlends
  have hothers : ∀ owner, sys.ledger.state var = some (.held owner) → owner = .thread index := by
    intro owner hstate
    by_contra hother
    rw [(waits_iff sys (.thread index) var).mpr ⟨owner, hother, hstate⟩] at hwaits
    cases hwaits
  have hnone : ∀ other, ¬ Holds sys var other := by
    intro other hholds
    obtain rfl := hothers other (hlends.held var other hholds).2
    obtain ⟨holder, found, hagent, hfound, hmem⟩ := hholds
    obtain rfl : index = holder := Agent.thread.inj hagent
    obtain rfl : found = old := Option.some.inj (hfound.symm.trans hold)
    exact hfresh hmem
  have hfree : l.state var = some .free := by
    refine (hsolid.free var hvar).resolve_right fun hcaller => ?_
    have hstate := (hlends.rest var hnone).trans hcaller
    cases hothers .caller hstate
  apply hlends.lock hfree hnone
  intro other borrower
  rw [holds_move hold, hheld]
  constructor
  · rintro (⟨hholds, -⟩ | ⟨rfl, hbefore | rfl⟩)
    · exact Or.inl hholds
    · exact Or.inl ⟨index, old, rfl, hold, hbefore⟩
    · exact Or.inr ⟨rfl, rfl⟩
  · rintro (hholds | ⟨rfl, rfl⟩)
    · by_cases hagent : borrower = .thread index
      · obtain ⟨holder, found, hother, hfound, hmem⟩ := hholds
        obtain rfl : index = holder := Agent.thread.inj (hagent.symm.trans hother)
        obtain rfl : found = old := Option.some.inj (hfound.symm.trans hold)
        exact Or.inr ⟨hagent, Or.inl hmem⟩
      · exact Or.inl ⟨hholds, hagent⟩
    · exact Or.inr ⟨rfl, Or.inr rfl⟩

/-- A thread unlocks a mutex that it holds. -/
theorem Inv.unlocks {sys : System} (hsys : Inv sys) {index : Nat} {old : ThreadPoint}
    (hold : sys.threads[index]? = some old) (hbody : old.inBody = true) {var : MutexVar}
    (hholding : var ∈ old.held) {point : ThreadPoint}
    (hheld : ∀ other, other ∈ point.held ↔ other ∈ old.held ∧ other ≠ var) :
    Inv ((sys.perform (.thread index) (.unlock var)).move index point) := by
  apply hsys.acts hold hbody
  intro l _ hlends
  have hholds : Holds sys var (.thread index) := ⟨index, old, rfl, hold, hholding⟩
  apply hlends.unlock hholds
  intro other borrower
  rw [holds_move hold, hheld]
  constructor
  · rintro (⟨hother, hagent⟩ | ⟨rfl, hbefore, hdistinct⟩)
    · refine ⟨hother, ?_⟩
      rintro rfl
      have hstate := (hlends.held other borrower hother).2
      rw [(hlends.held other _ hholds).2] at hstate
      exact hagent (MutexState.held.inj (Option.some.inj hstate)).symm
    · exact ⟨⟨index, old, rfl, hold, hbefore⟩, hdistinct⟩
  · rintro ⟨hother, hdistinct⟩
    by_cases hagent : borrower = .thread index
    · obtain ⟨holder, found, hsame, hfound, hmem⟩ := hother
      obtain rfl : index = holder := Agent.thread.inj (hagent.symm.trans hsame)
      obtain rfl : found = old := Option.some.inj (hfound.symm.trans hold)
      exact Or.inr ⟨hagent, hmem, hdistinct⟩
    · exact Or.inl ⟨hother, hagent⟩

/-- A thread traverses a list of the modules. -/
theorem Inv.traverses {sys : System} (hsys : Inv sys) {index : Nat} {old : ThreadPoint}
    (hold : sys.threads[index]? = some old) (hbody : old.inBody = true) {list : DmList}
    (hlist : list ∈ moduleLists) :
    Inv ((sys.perform (.thread index) (.traverse list)).move index old) := by
  apply hsys.acts hold hbody
  intro l hsolid hlends
  refine ⟨?_, hlends.of_holds (holds_move_same hold rfl)⟩
  exact (congrFun hlends.ready list).trans (hsolid.ready list hlist)

theorem held_nextSlot (slot : Nat) : (nextSlot slot).held = [] := by
  rw [nextSlot]
  split <;> rfl

theorem inv_handlerStep {sys : System} (hsys : Inv sys) {index slot : Nat}
    {held : List MutexVar} (hold : sys.threads[index]? = some (.yielding slot held))
    (choice : Choice) : Inv (handlerStep sys index slot held choice) := by
  cases choice with
  | proceed =>
      rw [handlerStep]
      split
      next hempty =>
        apply hsys.goesOn hold ThreadPoint.noConfusion
        · rw [held_nextSlot, hempty]
          rfl
        · exact fun hidle => (hidle.not_inBody hold rfl).elim
        · intro hset
          rcases hsys.disciplined.leave hset index _ hold with hpoint | hpoint <;> cases hpoint
      · exact hsys
  | enter => exact hsys
  | handle operation =>
      cases operation with
      | lock var =>
          rw [handlerStep]
          split
          next hmay =>
            obtain ⟨hvar, hfresh, hwaits⟩ := hmay
            apply hsys.locks hold rfl hvar hfresh hwaits
            intro other
            exact List.mem_cons.trans or_comm
          · exact hsys
      | unlock var =>
          rw [handlerStep]
          split
          next hmay =>
            apply hsys.unlocks hold rfl hmay
            intro other
            simp [ThreadPoint.held]
          · exact hsys
      | traverse list =>
          rw [handlerStep]
          split
          next hmay => exact hsys.traverses hold rfl hmay
          · exact hsys
      | _ => exact hsys

/-- Every step of a yield thread keeps the invariant. -/
theorem inv_threadStep {sys : System} (hsys : Inv sys) (index : Nat) (choice : Choice) :
    Inv (threadStep sys index choice) := by
  have hflag : ∀ {point}, sys.threads[index]? = some point → point ≠ .unstarted →
      point ≠ .left → sys.yieldTaskLeave = false := by
    intro point hpoint hbegun hactive
    rw [Bool.eq_false_iff]
    intro hset
    exact (hsys.disciplined.leave hset index point hpoint).elim hbegun hactive
  rw [threadStep]
  split
  · exact hsys
  · exact hsys
  next hold =>
    -- the thread clears the flag before it tests the count
    apply hsys.goesOn hold ThreadPoint.noConfusion
    · rfl
    · exact fun _ => rfl
    · exact fun hset => absurd hset Bool.false_ne_true
  next hold =>
    have hcleared := hflag hold ThreadPoint.noConfusion ThreadPoint.noConfusion
    apply hsys.goesOn hold ThreadPoint.noConfusion
    · split <;> rfl
    · intro hidle
      rw [if_neg (not_lt.mpr hidle.count)]
      rfl
    · exact fun hset => (Bool.noConfusion (hset.symm.trans hcleared))
  next hold =>
    have hcleared := hflag hold ThreadPoint.noConfusion ThreadPoint.noConfusion
    apply hsys.goesOn hold ThreadPoint.noConfusion
    · split <;> rfl
    · exact fun hidle => (hidle.not_inBody hold rfl).elim
    · exact fun hset => (Bool.noConfusion (hset.symm.trans hcleared))
  next slot hold =>
    split
    · exact hsys
    next hwaits =>
      apply hsys.locks hold rfl (by decide) List.not_mem_nil (Bool.eq_false_iff.mpr hwaits)
      simp [ThreadPoint.held]
  next slot hold =>
    apply hsys.unlocks hold rfl (List.mem_singleton.mpr rfl)
    intro other
    have hnone : ∀ point : ThreadPoint, point.held = [] →
        (other ∈ point.held ↔
          other ∈ (ThreadPoint.unlockSlot slot).held ∧ other ≠ .fdLock) := by
      intro point hheld
      have hlocked : (ThreadPoint.unlockSlot slot).held = [.fdLock] := rfl
      simp [hheld, hlocked]
    split
    · exact hnone _ rfl
    · exact hnone _ (held_nextSlot slot)
  next slot held hold => exact inv_handlerStep hsys hold choice
  next hold =>
    apply hsys.goesOn hold ThreadPoint.noConfusion
    · rfl
    · exact fun _ => rfl
    · exact fun _ => Or.inl rfl

/-! ## The caller goes on -/

/-- Nobody holds anything while no thread is in its loop. -/
theorem Idle.not_holds {sys : System} (hidle : Idle sys) (var : MutexVar) (agent : Agent) :
    ¬ Holds sys var agent := by
  rintro ⟨index, point, -, hpoint, hmem⟩
  have houtside := hidle.outside index point hpoint
  cases point with
  | unlockSlot slot => cases houtside
  | yielding slot held => cases houtside
  | _ => cases hmem

/-- The caller's next operation is about no mutex that a yield thread holds. -/
theorem Stage.not_lent {l : DmLedger} {sys : System} (hstage : Stage l sys)
    (hlends : Lends l sys.ledger (Holds sys)) {operation : DmOperation} {rest : List Mark}
    (hpending : sys.pending = .operation operation :: rest)
    (hallows : l.Allows .caller operation)
    (hwaits : ∀ var, operation = .lock var → sys.waits .caller var = false) :
    ∀ var, operation.var = some var → ∀ agent, ¬ Holds sys var agent := by
  have hplain : plain (.operation operation) = true →
      ∀ var, operation.var = some var → ∀ agent, ¬ Holds sys var agent := by
    intro hoperation var hvar agent hholds
    obtain ⟨hfree, hheld⟩ := hlends.held var agent hholds
    obtain ⟨index, -, rfl, -⟩ := id hholds
    cases operation with
    | lock named =>
        obtain rfl := Option.some.inj hvar
        have hfree := hwaits named rfl
        rw [(waits_iff sys .caller named).mpr ⟨_, Agent.noConfusion, hheld⟩] at hfree
        cases hfree
    | unlock named =>
        obtain rfl := Option.some.inj hvar
        rcases hallows with hnone | hcaller
        · rw [hfree] at hnone
          cases hnone
        · rw [hfree] at hcaller
          cases hcaller
    | traverse list => cases hvar
    | _ => cases hoperation
  cases hstage with
  | steady _ _ hall =>
      exact hplain (hall _ (hpending ▸ List.mem_cons_self))
  | leaving before _ _ hparted hall _ _ =>
      cases before with
      | nil => cases hpending.symm.trans hparted
      | cons mark before =>
          obtain ⟨rfl, -⟩ := List.cons.inj (hpending.symm.trans hparted)
          exact hplain (hall _ List.mem_cons_self)
  | still hidle _ => exact fun var _ agent => hidle.not_holds var agent

/-- A plain operation leaves the modules there. -/
theorem Solid.step {l : DmLedger} (hsolid : Solid l) {operation : DmOperation}
    (hplain : plain (.operation operation) = true) : Solid (l.step .caller operation) := by
  cases operation with
  | lock named =>
      refine ⟨fun var hvar => ?_, hsolid.ready⟩
      by_cases hsame : var = named
      · subst hsame
        right
        rcases hsolid.free var hvar with hstate | hstate <;>
          simp [Ledger.step, Ledger.turn, hstate]
      · rw [(Ledger.state_lock_of_ne hsame).1]
        exact hsolid.free var hvar
  | unlock named =>
      refine ⟨fun var hvar => ?_, hsolid.ready⟩
      by_cases hsame : var = named
      · subst hsame
        left
        rcases hsolid.free var hvar with hstate | hstate <;>
          simp [Ledger.step, Ledger.turn, hstate]
      · rw [(Ledger.state_lock_of_ne hsame).2]
        exact hsolid.free var hvar
  | traverse list => exact hsolid
  | _ => cases hplain

/-- A mark goes by that does not part a close. -/
theorem Stage.passes {l l' : DmLedger} {sys sys' : System} (hstage : Stage l sys) {mark : Mark}
    {rest : List Mark} (hpending : sys.pending = mark :: rest) (hwait : mark ≠ .awaitLeave)
    (hworld : sys'.world = sys.world) (hrest : sys'.pending = rest)
    (hcount : sys'.initedConnNum = countStep sys.initedConnNum mark)
    (hsolid : plain mark = true → Solid l → Solid l')
    (hidle : calm mark = true → Idle sys → Idle sys') : Stage l' sys' := by
  cases hstage with
  | steady hopened hbefore hall =>
      obtain ⟨hplain, hplains⟩ := List.forall_mem_cons.mp (hpending ▸ hall)
      exact .steady (hworld ▸ hopened) (hsolid hplain hbefore) (hrest ▸ hplains)
  | leaving before behind hbefore hparted hall hzero hcalm =>
      cases before with
      | nil => exact absurd (List.cons.inj (hpending.symm.trans hparted)).1 hwait
      | cons first before =>
          obtain ⟨rfl, rfl⟩ := List.cons.inj (hpending.symm.trans hparted)
          obtain ⟨hplain, hplains⟩ := List.forall_mem_cons.mp hall
          exact .leaving before behind (hsolid hplain hbefore) hrest hplains (hcount ▸ hzero) hcalm
  | still hquiet hall =>
      obtain ⟨hcalm, hcalms⟩ := List.forall_mem_cons.mp (hpending ▸ hall)
      exact .still (hidle hcalm hquiet) (hrest ▸ hcalms)

/-- The caller performs an operation. -/
theorem Inv.callerActs {sys : System} (hsys : Inv sys) {operation : DmOperation}
    {rest : List Mark} (hpending : sys.pending = .operation operation :: rest)
    (hwaits : ∀ var, operation = .lock var → sys.waits .caller var = false) :
    Inv { sys.perform .caller operation with pending := rest } := by
  obtain ⟨l, hmeet, hreach, hlends, hstage⟩ := hsys.done
  have hoperations : operationsOf sys.pending = operation :: operationsOf rest := by
    rw [hpending]
    rfl
  rw [hoperations] at hmeet hreach
  obtain ⟨hallows, hmeets⟩ := hmeet
  have hfree := hstage.not_lent hlends hpending hallows hwaits
  have hcount := hsys.count
  rw [hpending] at hcount
  refine ⟨hsys.world, hsys.kept, hcount,
    (lawful_perform sys .caller operation).mpr ⟨hsys.lawful, hlends.allows hfree hallows⟩,
    ⟨hsys.disciplined.one, hsys.disciplined.leave⟩,
    l.step .caller operation, hmeets, hreach, ?_, ?_⟩
  · have hledger : System.ledger { sys.perform .caller operation with pending := rest } =
        sys.ledger.step .caller operation := ledger_perform sys .caller operation
    rw [hledger]
    exact hlends.step hfree
  · exact hstage.passes hpending Mark.noConfusion rfl rfl rfl
      (fun hplain hsolid => hsolid.step hplain) fun _ hidle => ⟨hidle.count, hidle.outside⟩

/-- The caller counts. -/
theorem Inv.counts {sys : System} (hsys : Inv sys) {count : Int} {rest : List Mark}
    (hpending : sys.pending = .connNum count :: rest) :
    Inv { sys with pending := rest, initedConnNum := count } := by
  obtain ⟨l, hmeet, hreach, hlends, hstage⟩ := hsys.done
  have hcount := hsys.count
  rw [hpending] at hcount hmeet hreach
  exact ⟨hsys.world, hsys.kept, hcount, hsys.lawful,
    ⟨hsys.disciplined.one, hsys.disciplined.leave⟩, l, hmeet, hreach, hlends,
    hstage.passes hpending Mark.noConfusion rfl rfl rfl (fun _ hsolid => hsolid)
      (fun hcalm => Bool.noConfusion hcalm)⟩

/-- A thread is created where every other one has left. -/
theorem Inv.creates {sys : System} (hsys : Inv sys) {rest : List Mark}
    (hpending : sys.pending = .createThread :: rest)
    (hleft : ∀ point ∈ sys.threads, point = .left) :
    Inv { sys with pending := rest, threads := sys.threads ++ [.unstarted] } := by
  have hthreads : ∀ (index : Nat) (point : ThreadPoint),
      (sys.threads ++ [.unstarted])[index]? = some point →
        sys.threads[index]? = some point ∧ point = .left ∨
          index = sys.threads.length ∧ point = .unstarted := by
    intro index point hpoint
    rw [List.getElem?_append] at hpoint
    split at hpoint
    · exact Or.inl ⟨hpoint, hleft point (List.mem_of_getElem? hpoint)⟩
    · right
      rw [List.getElem?_singleton] at hpoint
      split at hpoint
      · exact ⟨by omega, (Option.some.inj hpoint).symm⟩
      · cases hpoint
  obtain ⟨l, hmeet, hreach, hlends, hstage⟩ := hsys.done
  have hcount := hsys.count
  rw [hpending] at hcount hmeet hreach
  refine ⟨hsys.world, hsys.kept, hcount, hsys.lawful, ⟨?_, ?_⟩, l, hmeet, hreach, ?_, ?_⟩
  · intro first second point other hfirst hsecond hpoint hother
    rcases hthreads first point hfirst with ⟨-, rfl⟩ | ⟨rfl, -⟩
    · exact absurd rfl hpoint
    · rcases hthreads second other hsecond with ⟨-, rfl⟩ | ⟨rfl, -⟩
      · exact absurd rfl hother
      · rfl
  · intro _ index point hpoint
    rcases hthreads index point hpoint with ⟨-, rfl⟩ | ⟨-, rfl⟩
    · exact Or.inr rfl
    · exact Or.inl rfl
  · -- neither a thread that has left nor a new one holds a mutex
    apply hlends.of_holds
    intro var agent
    constructor
    · rintro ⟨index, point, -, hpoint, hmem⟩
      rcases hthreads index point hpoint with ⟨-, rfl⟩ | ⟨-, rfl⟩ <;> cases hmem
    · rintro ⟨index, point, -, hpoint, hmem⟩
      obtain rfl := hleft point (List.mem_of_getElem? hpoint)
      cases hmem
  · exact hstage.passes hpending Mark.noConfusion rfl rfl rfl (fun _ hsolid => hsolid)
      (fun hcalm => Bool.noConfusion hcalm)

/-- The wait ends. Where it parts a close, the count is zero and no thread has begun that has
not left. -/
theorem Inv.awaits {sys : System} (hsys : Inv sys) {rest : List Mark}
    (hpending : sys.pending = .awaitLeave :: rest) (hset : sys.yieldTaskLeave = true) :
    Inv { sys with pending := rest } := by
  obtain ⟨l, hmeet, hreach, hlends, hstage⟩ := hsys.done
  have hcount := hsys.count
  rw [hpending] at hcount hmeet hreach
  refine ⟨hsys.world, hsys.kept, hcount, hsys.lawful,
    ⟨hsys.disciplined.one, hsys.disciplined.leave⟩, l, hmeet, hreach, hlends, ?_⟩
  cases hstage with
  | steady _ _ hall => exact Bool.noConfusion (hall _ (hpending ▸ List.mem_cons_self))
  | leaving before behind _ hparted hall hzero hcalm =>
      cases before with
      | cons first before =>
          obtain ⟨rfl, -⟩ := List.cons.inj (hpending.symm.trans hparted)
          exact Bool.noConfusion (hall _ List.mem_cons_self)
      | nil =>
          obtain ⟨-, rfl⟩ := List.cons.inj (hpending.symm.trans hparted)
          refine .still ⟨hzero.le, ?_⟩ hcalm
          intro index point hpoint
          rcases hsys.disciplined.leave hset index point hpoint with rfl | rfl <;> rfl
  | still hidle hall =>
      exact .still ⟨hidle.count, hidle.outside⟩
        (List.forall_mem_cons.mp (hpending ▸ hall)).2

/-! ## Every run -/

/-- The call is a close that goes on. -/
def isClose : EnosCall → Bool
  | .close isYieldRunning _ => !isYieldRunning
  | _ => false

/-- What a step must find: a call is orderly, a close of an open master finds at most one
connect counted, and a thread is created where every earlier one has left. -/
def Orderly (sys : System) : Action → Prop
  | .call call =>
      sys.pending = [] →
        Unwind.Orderly sys.world call ∧
          (isClose call = true → sys.world.isOpened = true → sys.initedConnNum ≤ 1)
  | .caller =>
      sys.pending.head? = some .createThread → ∀ point ∈ sys.threads, point = .left
  | .thread _ _ => True

instance (sys : System) : DecidablePred (Orderly sys)
  | .call call =>
      inferInstanceAs (Decidable (sys.pending = [] →
        Unwind.Orderly sys.world call ∧
          (isClose call = true → sys.world.isOpened = true → sys.initedConnNum ≤ 1)))
  | .caller =>
      inferInstanceAs (Decidable (sys.pending.head? = some .createThread →
        ∀ point ∈ sys.threads, point = .left))
  | .thread _ _ => .isTrue trivial

theorem inv_callerStep {sys : System} (hsys : Inv sys) (horderly : Orderly sys .caller) :
    Inv (callerStep sys) := by
  rw [callerStep]
  split
  · exact hsys
  next var rest hpending =>
    split
    · exact hsys
    next hfree =>
      apply hsys.callerActs hpending
      intro named hlock
      obtain rfl := Operation.lock.inj hlock
      exact Bool.eq_false_iff.mpr hfree
  next operation rest hother hpending =>
    apply hsys.callerActs hpending
    intro var hlock
    exact (hother var hlock).elim
  next count rest hpending => exact hsys.counts hpending
  next rest hpending => exact hsys.creates hpending (horderly (by rw [hpending]; rfl))
  next rest hpending =>
    split
    next hset => exact hsys.awaits hpending hset
    · exact hsys

/-- While the master is open, the modules are there. -/
theorem solid_of_opened {w : World} (hw : Opened w) (hkept : Kept w) : Solid w.ledger := by
  refine ⟨fun var hvar => Or.inl ?_, fun list _ => hw.usable.ready list⟩
  by_cases hlock : var = .fdLock
  · rw [hlock]
    exact hw.usable.matched.free (lock_of_valid (hkept.opened hw.isOpened))
  · refine hw.usable.free var ?_ hlock
    rintro rfl
    exact absurd hvar (by decide)

/-- A call begins: its marks are to be performed on what the calls before it have done. -/
theorem Inv.begins {sys : System} (hsys : Inv sys) (hpending : sys.pending = []) {w : World}
    (hworld : Closed w ∨ Opened w) (hkept : Kept w) {marks : List Mark}
    (hlog : w.log = sys.world.log ++ marks)
    (hcount : runFrom countStep sys.world.table.initedConnNum marks = w.table.initedConnNum)
    (hstage : Stage sys.world.ledger { sys with world := w, pending := marks }) :
    Inv { sys with world := w, pending := w.log.drop sys.world.log.length } := by
  obtain ⟨l, -, hreach, hlends, -⟩ := hsys.done
  have hbefore := hsys.count
  rw [hpending] at hreach hbefore
  obtain rfl : l = sys.world.ledger := hreach
  have hdrop : w.log.drop sys.world.log.length = marks := by
    rw [hlog, List.drop_left]
  have hlawful : Unwind.Lawful w := hworld.elim (·.lawful) (·.usable.lawful)
  have hwrite : w.log = (sys.world.write marks).log := hlog
  have hledger : w.ledger = (sys.world.write marks).ledger := by
    rw [World.ledger, hwrite, World.ledger]
  rw [Unwind.Lawful, hwrite] at hlawful
  rw [hdrop]
  exact ⟨hworld, hkept, (congrArg (runFrom countStep · marks) hbefore).trans hcount,
    hsys.lawful, ⟨hsys.disciplined.one, hsys.disciplined.leave⟩, sys.world.ledger,
    ((lawful_write sys.world marks).mp hlawful).2,
    ((ledger_write sys.world marks).symm.trans hledger.symm), hlends, hstage⟩

/-- Between two calls, the threads are idle where the master is not open. -/
theorem Inv.idle {sys : System} (hsys : Inv sys) (hpending : sys.pending = [])
    (hclosed : Closed sys.world) : Idle sys := by
  obtain ⟨l, -, -, -, hstage⟩ := hsys.done
  cases hstage with
  | steady hopened _ _ =>
      exact Bool.noConfusion (hclosed.isOpened.symm.trans hopened.isOpened)
  | leaving before rest _ hparted _ _ _ =>
      rw [hpending] at hparted
      exact absurd hparted (by simp)
  | still hidle _ => exact hidle

/-- A call that only adds calm marks begins while the threads are idle. -/
theorem Inv.begins_calm {sys : System} (hsys : Inv sys) (hpending : sys.pending = [])
    (hclosed : Closed sys.world) {w : World} (hworld : Closed w ∨ Opened w) (hkept : Kept w)
    (hadds : Adds calm sys.world w) :
    Inv { sys with world := w, pending := w.log.drop sys.world.log.length } := by
  obtain ⟨marks, hlog, hcalm, hcount⟩ := hadds
  have hidle := hsys.idle hpending hclosed
  exact hsys.begins hpending hworld hkept hlog hcount
    (.still ⟨hidle.count, hidle.outside⟩ hcalm)

/-- A call that only adds plain marks begins beside the yield threads of an open master. -/
theorem Inv.begins_plain {sys : System} (hsys : Inv sys) (hpending : sys.pending = [])
    (hopened : Opened sys.world) {w : World} (hworld : Opened w) (hkept : Kept w)
    (hadds : Adds plain sys.world w) :
    Inv { sys with world := w, pending := w.log.drop sys.world.log.length } := by
  obtain ⟨marks, hlog, hplain, hcount⟩ := hadds
  exact hsys.begins hpending (Or.inr hworld) hkept hlog hcount
    (.steady hworld (solid_of_opened hopened hsys.kept) hplain)

/-- A call that logs nothing and leaves the table alone begins anywhere. -/
theorem Inv.begins_same {sys : System} (hsys : Inv sys) (hpending : sys.pending = [])
    {w : World} (hisOpened : w.isOpened = sys.world.isOpened)
    (htable : w.table = sys.world.table) (hfd : w.fd = sys.world.fd)
    (hlog : w.log = sys.world.log) (hworld : Closed w ∨ Opened w) :
    Inv { sys with world := w, pending := w.log.drop sys.world.log.length } := by
  have hkept := hsys.kept.of_table hisOpened htable hfd
  have hcount := congrArg ConnectionTable.initedConnNum htable
  rcases hsys.world with hclosed | hopened
  · exact hsys.begins_calm hpending hclosed hworld hkept (adds_of_log _ hlog hcount)
  · refine hsys.begins_plain hpending hopened (hworld.resolve_left fun hclosed => ?_) hkept
      (adds_of_log _ hlog hcount)
    exact Bool.noConfusion (hclosed.isOpened.symm.trans (hisOpened.trans hopened.isOpened))

/-- A close begins: of a master that is not open while the threads are idle, and of one that is
open with a wait for them. -/
theorem Inv.closes {sys : System} (hsys : Inv sys) (hpending : sys.pending = [])
    {answered : Nat} (hcall : Unwind.Orderly sys.world (.close false answered))
    (hone : sys.world.isOpened = true → sys.initedConnNum ≤ 1) :
    Inv { sys with
      world := (iotxEnosMasterClose sys.world false answered).2
      pending := (iotxEnosMasterClose sys.world false answered).2.log.drop
        sys.world.log.length } := by
  have hcondition := hcall.resolve_left Bool.false_ne_true
  rcases hsys.world with hclosed | hopened
  · have hadds := calm_masterClose hclosed.isOpened answered
    rw [if_neg (by simp [hclosed.isOpened]), handle_eq_none_iff] at hcondition
    have hafter := (hclosed.masterClose answered).2 hcondition
    have hzero := hadds.count.trans (hsys.kept.closed hclosed.isOpened)
    exact hsys.begins_calm hpending hclosed (Or.inl hafter) (kept_of_closed hafter hzero) hadds
  · have hsame : sys.initedConnNum = sys.world.table.initedConnNum := by
      have hcount := hsys.count
      rw [hpending] at hcount
      exact hcount
    rw [if_pos hopened.isOpened] at hcondition
    have hafter := (hopened.masterClose answered).2 hcondition
    obtain ⟨before, rest, hlog, hplain, hbefore, hcalm, hzero⟩ := close_awaits hopened.isOpened
      (hsys.kept.opened hopened.isOpened) hsys.kept.nonneg (hsame ▸ hone hopened.isOpened) answered
    refine hsys.begins hpending (Or.inl hafter) (kept_of_closed hafter hzero) hlog ?_
      (.leaving before rest (solid_of_opened hopened hsys.kept) rfl hplain ?_ hcalm)
    · rw [runFrom_append, hbefore, runFrom_cons, hzero]
      exact count_calm hcalm 0
    · change runFrom countStep sys.initedConnNum before = 0
      rw [hsame, hbefore]

theorem inv_call {sys : System} (hsys : Inv sys) (hpending : sys.pending = []) {call : EnosCall}
    (horderly : Orderly sys (.call call)) :
    Inv { sys with
      world := Unwind.step sys.world call
      pending := (Unwind.step sys.world call).log.drop sys.world.log.length } := by
  obtain ⟨hcall, hconnects⟩ := horderly hpending
  have hworld := orderly_step hsys.world hcall
  cases call with
  | openMaster outcome =>
      rcases hsys.world with hclosed | hopened
      · have hinits := hcall.resolve_left (by simp [hclosed.isOpened])
        exact hsys.begins_calm hpending hclosed hworld
          (kept_masterOpen hclosed hsys.kept hinits)
          (calm_masterOpen (hsys.kept.closed hclosed.isOpened) outcome)
      · have hsame : Unwind.step sys.world (.openMaster outcome) = sys.world := by
          rw [Unwind.step, iotxEnosMasterOpen, if_pos hopened.isOpened]
        rw [hsame]
        exact hsys.begins_same hpending rfl rfl rfl rfl hsys.world
  | connect outcome =>
      rcases hsys.world with hclosed | hopened
      · have hsame : Unwind.step sys.world (.connect outcome) = sys.world := by
          rw [Unwind.step, iotEnosConnect, if_pos (by simp [hclosed.isOpened])]
        rw [hsame]
        exact hsys.begins_same hpending rfl rfl rfl rfl hsys.world
      · exact hsys.begins_plain hpending hopened (hopened.connect outcome)
          (kept_connect hopened hsys.kept outcome) (adds_connect sys.world outcome)
  | close isYieldRunning answered =>
      cases isYieldRunning with
      | true => exact hsys.begins_same hpending rfl rfl rfl rfl hworld
      | false => exact hsys.closes hpending hcall (hconnects rfl)
  | traffic cached =>
      rw [Unwind.step] at hworld ⊢
      by_cases hopened : sys.world.isOpened
      · rw [if_pos hopened] at hworld ⊢
        exact hsys.begins_same hpending rfl rfl rfl rfl hworld
      · rw [if_neg hopened] at hworld ⊢
        exact hsys.begins_same hpending rfl rfl rfl rfl hworld

theorem inv_step {sys : System} (hsys : Inv sys) {action : Action}
    (horderly : Orderly sys action) : Inv (step sys action) := by
  cases action with
  | call call =>
      rw [step]
      split
      next hpending => exact inv_call hsys hpending horderly
      · exact hsys
  | caller => exact inv_callerStep hsys horderly
  | thread index choice => exact inv_threadStep hsys index choice

theorem inv_initial : Inv System.initial := by
  refine ⟨Or.inl closed_initial, kept_of_closed closed_initial rfl, rfl, trivial,
    ⟨?_, ?_⟩, Memory.zero.ledger, trivial, rfl, ?_, .still ⟨le_rfl, ?_⟩ ?_⟩
  · exact fun _ _ _ _ hfirst => by simp [System.initial] at hfirst
  · exact fun _ _ _ hpoint => by simp [System.initial] at hpoint
  · apply lends_refl
    rintro var agent ⟨index, point, -, hpoint, -⟩
    simp [System.initial] at hpoint
  · exact fun _ _ hpoint => by simp [System.initial] at hpoint
  · exact fun _ hmark => by simp [System.initial] at hmark

/-- In every run of calls and yield threads whose steps are orderly, the mutexes and the lists
are used as they may. -/
theorem lawful_always_of_orderly {actions : List Action}
    (horderly : StepsMeet step Orderly System.initial actions) :
    Always step Lawful System.initial actions := by
  refine (always_of_stepsMeet ?_ inv_initial horderly).mono fun _ hsys => hsys.lawful
  exact fun _ _ hsys hstep => inv_step hsys hstep

/-- The caller goes on with a call for some marks. -/
def calls (call : EnosCall) (marks : Nat) : List Action :=
  .call call :: List.replicate marks .caller

/-- A yield thread goes on for some steps, with every slot empty. -/
def yields (index steps : Nat) : List Action := List.replicate steps (.thread index .proceed)

/-- An open in which everything is created. -/
def openAll : EnosCall := .openMaster ⟨fun _ => true, true, true, true⟩

/-- A connect that succeeds. -/
def connectAll : EnosCall := .connect ⟨true, true, true, true, 0⟩

/-- A close waits for a yield thread that has begun, and frees everything behind it. -/
theorem lawful_always_closed :
    Always step Lawful System.initial (calls openAll 23 ++ calls connectAll 14 ++ yields 0 5 ++
      calls (.close false 0) 5 ++ yields 0 7 ++ List.replicate 31 .caller) :=
  lawful_always_of_orderly (by decide +kernel)

/-- An open in which the mutex of the message cache cannot be created unwinds a manager whose
list was never initialised. -/
theorem not_lawful_failedOpen :
    ¬ Always step Lawful System.initial
      (calls (.openMaster ⟨fun var => var ≠ .dmMsgCache, true, true, true⟩) 22) :=
  mt Always.finish (by decide +kernel)

/-- A thread that has not run when its connection is closed enters the loop of the next
connection, whose close waits for the other thread only and destroys `fd_lock` before it. -/
theorem not_lawful_lateThread :
    ¬ Always step Lawful System.initial
      (calls openAll 23 ++ calls connectAll 14 ++ calls (.close false 0) 35 ++
        calls openAll 23 ++ calls connectAll 14 ++ yields 0 3 ++ yields 1 3 ++
        calls (.close false 0) 5 ++ yields 1 8 ++ List.replicate 6 .caller ++ yields 0 1) :=
  mt Always.finish (by decide +kernel)

end EnosDeviceSdk.DevModel.UnwindThreads
