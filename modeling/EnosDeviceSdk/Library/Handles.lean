/-
# Mutex handles and list heads in static variables

A program creates mutexes and keeps their handles in variables, and it keeps the heads of its
lists in variables too. A mutex may be destroyed once and is not touched afterwards, whoever
unlocks one holds it, and a list is traversed only when its head was initialised.

What an operation may do depends on the mutex that a variable refers to. As long as every
handle is in one variable only, it is enough to know, for each variable, in which state its
mutex is. That is the ledger, and a program may be run on it instead of the memory. The
operations of several agents make one run in which each comes with its agent.
-/

import EnosDeviceSdk.Library.Run
import Mathlib.Logic.Function.Basic

namespace EnosDeviceSdk.Library.Handles

universe u v w

variable {ν : Type u} {κ : Type v} {τ : Type w} [DecidableEq ν] [DecidableEq κ]

/-- The state of a mutex that was created, with the agent that holds it. -/
inductive MutexState (τ : Type w)
  | free
  | held (owner : τ)
  | destroyed
  deriving DecidableEq

/-- What a program does with its variables. Locking, unlocking and destroying do nothing
where the variable is null. -/
inductive Operation (ν : Type u) (κ : Type v)
  | clear (var : ν)
  | create (var : ν) (succeeds : Bool)
  | lock (var : ν)
  | unlock (var : ν)
  | destroy (var : ν)
  | wipe (list : κ)
  | initList (list : κ)
  | traverse (list : κ)
  deriving DecidableEq

/-- The variables and the mutexes. A mutex is known by the number of its creation. -/
structure Memory (ν : Type u) (κ : Type v) (τ : Type w) where
  handle : ν → Option Nat
  mutexes : Nat → MutexState τ
  created : Nat
  ready : κ → Bool

/-- Nothing is created, and every variable is zero. -/
def Memory.zero : Memory ν κ τ := ⟨fun _ => none, fun _ => .free, 0, fun _ => false⟩

/-- The mutex of a variable in another state. -/
def Memory.turn (m : Memory ν κ τ) (var : ν) (state : MutexState τ) : Memory ν κ τ :=
  match m.handle var with
  | none => m
  | some handle => { m with mutexes := Function.update m.mutexes handle state }

/-- The memory after an operation of an agent. -/
def Memory.step (agent : τ) (m : Memory ν κ τ) : Operation ν κ → Memory ν κ τ
  | .clear var => { m with handle := Function.update m.handle var none }
  | .create var succeeds =>
      if succeeds then
        { m with
          handle := Function.update m.handle var (some m.created)
          mutexes := Function.update m.mutexes m.created .free
          created := m.created + 1 }
      else { m with handle := Function.update m.handle var none }
  | .lock var => m.turn var (.held agent)
  | .unlock var => m.turn var .free
  | .destroy var => m.turn var .destroyed
  | .wipe list => { m with ready := Function.update m.ready list false }
  | .initList list => { m with ready := Function.update m.ready list true }
  | .traverse _ => m

/-- No mutex is used or destroyed after its destruction or unlocked by an agent that does not
hold it, and no list is traversed before its initialization. -/
def Memory.Allows (agent : τ) (m : Memory ν κ τ) : Operation ν κ → Prop
  | .lock var | .destroy var =>
      ∀ handle, m.handle var = some handle → m.mutexes handle ≠ .destroyed
  | .unlock var => ∀ handle, m.handle var = some handle → m.mutexes handle = .held agent
  | .traverse list => m.ready list = true
  | _ => True

/-! ## The ledger -/

/-- The state of each variable's mutex, and the lists that were initialised. -/
@[ext]
structure Ledger (ν : Type u) (κ : Type v) (τ : Type w) where
  state : ν → Option (MutexState τ)
  ready : κ → Bool

/-- The ledger of a memory. -/
def Memory.ledger (m : Memory ν κ τ) : Ledger ν κ τ :=
  ⟨fun var => (m.handle var).map m.mutexes, m.ready⟩

/-- A variable's mutex in another state, where it has one. -/
def Ledger.turn (l : Ledger ν κ τ) (var : ν) (state : MutexState τ) : Ledger ν κ τ :=
  { l with state := Function.update l.state var ((l.state var).map fun _ => state) }

/-- The ledger after an operation of an agent. -/
def Ledger.step (agent : τ) (l : Ledger ν κ τ) : Operation ν κ → Ledger ν κ τ
  | .clear var => { l with state := Function.update l.state var none }
  | .create var succeeds =>
      { l with state := Function.update l.state var (if succeeds then some .free else none) }
  | .lock var => l.turn var (.held agent)
  | .unlock var => l.turn var .free
  | .destroy var => l.turn var .destroyed
  | .wipe list => { l with ready := Function.update l.ready list false }
  | .initList list => { l with ready := Function.update l.ready list true }
  | .traverse _ => l

/-- What the ledger allows an agent. -/
def Ledger.Allows (agent : τ) (l : Ledger ν κ τ) : Operation ν κ → Prop
  | .lock var | .destroy var => l.state var ≠ some .destroyed
  | .unlock var => l.state var = none ∨ l.state var = some (.held agent)
  | .traverse list => l.ready list = true
  | _ => True

instance [DecidableEq τ] (agent : τ) (l : Ledger ν κ τ) :
    ∀ operation, Decidable (l.Allows agent operation)
  | .lock var | .destroy var => inferInstanceAs (Decidable (l.state var ≠ some .destroyed))
  | .unlock var =>
      inferInstanceAs (Decidable (l.state var = none ∨ l.state var = some (.held agent)))
  | .traverse list => inferInstanceAs (Decidable (l.ready list = true))
  | .clear _ | .create _ _ | .wipe _ | .initList _ => .isTrue trivial

/-- Every handle is that of a created mutex, and it is in one variable only. -/
structure Memory.Apart (m : Memory ν κ τ) : Prop where
  created : ∀ var handle, m.handle var = some handle → handle < m.created
  once : ∀ first second handle, m.handle first = some handle → m.handle second = some handle →
    first = second

omit [DecidableEq ν] [DecidableEq κ] in
theorem apart_zero : (Memory.zero : Memory ν κ τ).Apart :=
  ⟨fun _ _ hhandle => (nomatch hhandle), fun _ _ _ hhandle => (nomatch hhandle)⟩

omit [DecidableEq ν] [DecidableEq κ] in
theorem Memory.turn_handle (m : Memory ν κ τ) (var : ν) (state : MutexState τ) :
    (m.turn var state).handle = m.handle ∧ (m.turn var state).created = m.created := by
  rw [Memory.turn]
  split <;> exact ⟨rfl, rfl⟩

omit [DecidableEq ν] [DecidableEq κ] in
theorem Memory.Apart.turn {m : Memory ν κ τ} (hm : m.Apart) (var : ν) (state : MutexState τ) :
    (m.turn var state).Apart := by
  obtain ⟨hhandle, hcreated⟩ := m.turn_handle var state
  constructor
  · rw [hhandle, hcreated]
    exact hm.created
  · rw [hhandle]
    exact hm.once

omit [DecidableEq κ] in
theorem Memory.Apart.clear {m : Memory ν κ τ} (hm : m.Apart) (var : ν) :
    Memory.Apart { m with handle := Function.update m.handle var none } := by
  have hold : ∀ other handle, Function.update m.handle var none other = some handle →
      m.handle other = some handle := by
    intro other handle hother
    by_cases hsame : other = var
    · rw [hsame, Function.update_self] at hother
      cases hother
    · rwa [Function.update_of_ne hsame] at hother
  exact ⟨fun other handle hother => hm.created other handle (hold other handle hother),
    fun first second handle hfirst hsecond =>
      hm.once first second handle (hold first handle hfirst) (hold second handle hsecond)⟩

/-- A new handle is in no variable yet. -/
theorem Memory.Apart.create {m : Memory ν κ τ} (hm : m.Apart) (agent : τ) (var : ν) :
    (m.step agent (.create var true)).Apart := by
  have hold : ∀ other handle,
      Function.update m.handle var (some m.created) other = some handle →
        other = var ∧ handle = m.created ∨ m.handle other = some handle := by
    intro other handle hother
    by_cases hsame : other = var
    · rw [hsame, Function.update_self] at hother
      exact Or.inl ⟨hsame, (Option.some.inj hother).symm⟩
    · rw [Function.update_of_ne hsame] at hother
      exact Or.inr hother
  constructor
  · intro other handle hother
    rcases hold other handle hother with ⟨_, rfl⟩ | hbefore
    · exact Nat.lt_succ_self _
    · exact Nat.lt_succ_of_lt (hm.created other handle hbefore)
  · intro first second handle hfirst hsecond
    rcases hold first handle hfirst with ⟨hfirstVar, hfresh⟩ | hfirstOld <;>
      rcases hold second handle hsecond with ⟨hsecondVar, hfresh'⟩ | hsecondOld
    · rw [hfirstVar, hsecondVar]
    · exact absurd (hm.created second handle hsecondOld) (by omega)
    · exact absurd (hm.created first handle hfirstOld) (by omega)
    · exact hm.once first second handle hfirstOld hsecondOld

theorem Memory.Apart.step {m : Memory ν κ τ} (hm : m.Apart) (agent : τ)
    (operation : Operation ν κ) : (m.step agent operation).Apart := by
  cases operation with
  | clear var => exact hm.clear var
  | create var succeeds =>
      cases succeeds with
      | false => exact hm.clear var
      | true => exact hm.create agent var
  | lock var => exact hm.turn var (.held agent)
  | unlock var => exact hm.turn var .free
  | destroy var => exact hm.turn var .destroyed
  | wipe list => exact ⟨hm.created, hm.once⟩
  | initList list => exact ⟨hm.created, hm.once⟩
  | traverse list => exact hm

/-! ## The ledger follows the memory -/

omit [DecidableEq κ] in
theorem Memory.ledger_turn {m : Memory ν κ τ} (hm : m.Apart) (var : ν) (state : MutexState τ) :
    (m.turn var state).ledger = m.ledger.turn var state := by
  rw [Memory.turn]
  cases hhandle : m.handle var with
  | none =>
      ext other : 2
      · by_cases hsame : other = var
        · rw [hsame]
          simp [Memory.ledger, Ledger.turn, hhandle]
        · simp [Ledger.turn, hsame]
      · rfl
  | some handle =>
      ext other : 2
      · by_cases hsame : other = var
        · rw [hsame]
          simp [Memory.ledger, Ledger.turn, hhandle]
        · cases hother : m.handle other with
          | none => simp [Memory.ledger, Ledger.turn, hsame, hother]
          | some otherHandle =>
              have hdistinct : otherHandle ≠ handle := by
                rintro rfl
                exact hsame (hm.once other var otherHandle hother hhandle)
              simp [Memory.ledger, Ledger.turn, hsame, hother, hdistinct]
      · rfl

omit [DecidableEq κ] in
theorem Memory.ledger_clear (m : Memory ν κ τ) (var : ν) :
    Memory.ledger { m with handle := Function.update m.handle var none } =
      { m.ledger with state := Function.update m.ledger.state var none } := by
  ext other : 2
  · by_cases hsame : other = var
    · rw [hsame]
      simp [Memory.ledger]
    · simp [Memory.ledger, hsame]
  · rfl

theorem Memory.ledger_create {m : Memory ν κ τ} (hm : m.Apart) (agent : τ) (var : ν) :
    (m.step agent (.create var true)).ledger = m.ledger.step agent (.create var true) := by
  ext other : 2
  · by_cases hsame : other = var
    · rw [hsame]
      simp [Memory.step, Memory.ledger, Ledger.step]
    · cases hother : m.handle other with
      | none => simp [Memory.step, Memory.ledger, Ledger.step, hsame, hother]
      | some handle =>
          have hold := Nat.ne_of_lt (hm.created other handle hother)
          simp [Memory.step, Memory.ledger, Ledger.step, hsame, hother, hold]
  · rfl

theorem Memory.ledger_step {m : Memory ν κ τ} (hm : m.Apart) (agent : τ)
    (operation : Operation ν κ) :
    (m.step agent operation).ledger = m.ledger.step agent operation := by
  cases operation with
  | clear var => exact m.ledger_clear var
  | create var succeeds =>
      cases succeeds with
      | false => exact m.ledger_clear var
      | true => exact Memory.ledger_create hm agent var
  | lock var => exact Memory.ledger_turn hm var (.held agent)
  | unlock var => exact Memory.ledger_turn hm var .free
  | destroy var => exact Memory.ledger_turn hm var .destroyed
  | wipe list => rfl
  | initList list => rfl
  | traverse list => rfl

omit [DecidableEq ν] [DecidableEq κ] in
theorem Memory.allows_iff (agent : τ) (m : Memory ν κ τ) (operation : Operation ν κ) :
    m.Allows agent operation ↔ m.ledger.Allows agent operation := by
  cases operation with
  | lock var => cases hhandle : m.handle var <;> simp [Memory.Allows, Ledger.Allows,
      Memory.ledger, hhandle]
  | unlock var => cases hhandle : m.handle var <;> simp [Memory.Allows, Ledger.Allows,
      Memory.ledger, hhandle]
  | destroy var => cases hhandle : m.handle var <;> simp [Memory.Allows, Ledger.Allows,
      Memory.ledger, hhandle]
  | _ => rfl

/-! ## Several agents -/

/-- The memory after the operation of the agent that comes with it. -/
def Memory.act (m : Memory ν κ τ) (event : τ × Operation ν κ) : Memory ν κ τ :=
  m.step event.1 event.2

/-- The operation is allowed to the agent that comes with it. -/
def Memory.Permits (m : Memory ν κ τ) (event : τ × Operation ν κ) : Prop :=
  m.Allows event.1 event.2

/-- The ledger after the operation of the agent that comes with it. -/
def Ledger.act (l : Ledger ν κ τ) (event : τ × Operation ν κ) : Ledger ν κ τ :=
  l.step event.1 event.2

/-- The ledger allows the operation to the agent that comes with it. -/
def Ledger.Permits (l : Ledger ν κ τ) (event : τ × Operation ν κ) : Prop :=
  l.Allows event.1 event.2

instance [DecidableEq τ] (l : Ledger ν κ τ) (event : τ × Operation ν κ) :
    Decidable (l.Permits event) :=
  inferInstanceAs (Decidable (l.Allows event.1 event.2))

/-- A run of several agents is as good on the ledger as it is on the memory. -/
theorem Memory.stepsMeet_ledger {m : Memory ν κ τ} (hm : m.Apart)
    (events : List (τ × Operation ν κ)) :
    (StepsMeet Memory.act Memory.Permits m events ↔
        StepsMeet Ledger.act Ledger.Permits m.ledger events) ∧
      (runFrom Memory.act m events).ledger = runFrom Ledger.act m.ledger events := by
  induction events generalizing m with
  | nil => exact ⟨Iff.rfl, rfl⟩
  | cons event rest ih =>
      obtain ⟨agent, operation⟩ := event
      obtain ⟨hmeet, hledger⟩ := ih (hm.step agent operation)
      rw [Memory.ledger_step hm agent operation] at hmeet hledger
      exact ⟨and_congr (m.allows_iff agent operation) hmeet, hledger⟩

/-- So is a program of one agent. -/
theorem Memory.stepsMeet_ledger_one {m : Memory ν κ τ} (hm : m.Apart) (agent : τ)
    (operations : List (Operation ν κ)) :
    (StepsMeet (Memory.step agent) (Memory.Allows agent) m operations ↔
        StepsMeet (Ledger.step agent) (Ledger.Allows agent) m.ledger operations) ∧
      (runFrom (Memory.step agent) m operations).ledger =
        runFrom (Ledger.step agent) m.ledger operations := by
  obtain ⟨hmeet, hledger⟩ := Memory.stepsMeet_ledger hm (operations.map fun op => (agent, op))
  rw [stepsMeet_map, stepsMeet_map] at hmeet
  rw [runFrom_map, runFrom_map] at hledger
  exact ⟨hmeet, hledger⟩

/-! ## What a program leaves alone -/

/-- The variable that an operation is about. -/
def Operation.var : Operation ν κ → Option ν
  | .clear var | .create var _ | .lock var | .unlock var | .destroy var => some var
  | .wipe _ | .initList _ | .traverse _ => none

/-- The list head that an operation writes. -/
def Operation.list : Operation ν κ → Option κ
  | .wipe list | .initList list => some list
  | _ => none

theorem Ledger.state_step {agent : τ} {l : Ledger ν κ τ} {operation : Operation ν κ} {var : ν}
    (hvar : operation.var ≠ some var) : (l.step agent operation).state var = l.state var := by
  cases operation with
  | wipe list => rfl
  | initList list => rfl
  | traverse list => rfl
  | _ =>
      apply Function.update_of_ne
      intro hsame
      exact hvar (congrArg some hsame.symm)

theorem Ledger.ready_step {agent : τ} {l : Ledger ν κ τ} {operation : Operation ν κ} {list : κ}
    (hlist : operation.list ≠ some list) :
    (l.step agent operation).ready list = l.ready list := by
  cases operation with
  | wipe other =>
      apply Function.update_of_ne
      exact fun hsame => hlist (congrArg some hsame.symm)
  | initList other =>
      apply Function.update_of_ne
      exact fun hsame => hlist (congrArg some hsame.symm)
  | _ => rfl

/-- A lock and an unlock leave the other mutexes alone. -/
theorem Ledger.state_lock_of_ne {agent : τ} {l : Ledger ν κ τ} {var other : ν}
    (hother : other ≠ var) :
    (l.step agent (.lock var)).state other = l.state other ∧
      (l.step agent (.unlock var)).state other = l.state other := by
  have hvar : (some var : Option ν) ≠ some other := fun hsame =>
    hother (Option.some.inj hsame).symm
  exact ⟨Ledger.state_step hvar, Ledger.state_step hvar⟩

/-- What becomes of a mutex depends on its own state only. -/
theorem Ledger.state_step_congr {agent : τ} {l c : Ledger ν κ τ} {var : ν}
    (hsame : c.state var = l.state var) (operation : Operation ν κ) :
    (c.step agent operation).state var = (l.step agent operation).state var := by
  by_cases hvar : operation.var = some var
  · cases operation with
    | wipe list => cases hvar
    | initList list => cases hvar
    | traverse list => cases hvar
    | _ =>
        obtain rfl := Option.some.inj hvar
        simp [Ledger.step, Ledger.turn, hsame]
  · rw [Ledger.state_step hvar, Ledger.state_step hvar, hsame]

theorem Ledger.ready_step_congr {agent : τ} {l c : Ledger ν κ τ} (hsame : c.ready = l.ready)
    (operation : Operation ν κ) :
    (c.step agent operation).ready = (l.step agent operation).ready := by
  cases operation <;> simp [Ledger.step, Ledger.turn, hsame]

/-- The state of a mutex is only changed by operations on its variable. -/
theorem Ledger.state_runFrom {agent : τ} {l : Ledger ν κ τ} {operations : List (Operation ν κ)}
    {var : ν} (hvar : ∀ operation ∈ operations, operation.var ≠ some var) :
    (runFrom (Ledger.step agent) l operations).state var = l.state var := by
  induction operations generalizing l with
  | nil => rfl
  | cons operation rest ih =>
      obtain ⟨hfirst, hrest⟩ := List.forall_mem_cons.mp hvar
      rw [runFrom_cons, ih hrest, Ledger.state_step hfirst]

theorem Ledger.ready_runFrom {agent : τ} {l : Ledger ν κ τ} {operations : List (Operation ν κ)}
    {list : κ} (hlist : ∀ operation ∈ operations, operation.list ≠ some list) :
    (runFrom (Ledger.step agent) l operations).ready list = l.ready list := by
  induction operations generalizing l with
  | nil => rfl
  | cons operation rest ih =>
      obtain ⟨hfirst, hrest⟩ := List.forall_mem_cons.mp hlist
      rw [runFrom_cons, ih hrest, Ledger.ready_step hfirst]

/-! ## Sections -/

omit [DecidableEq κ] in
/-- Nothing happens to a mutex that is not there. -/
theorem Ledger.turn_null {l : Ledger ν κ τ} {var : ν} (hnone : l.state var = none)
    (state : MutexState τ) : l.turn var state = l := by
  have hsame : Function.update l.state var none = l.state := by
    rw [← hnone, Function.update_eq_self]
  simp [Ledger.turn, hnone, hsame]

/-- A section of a free mutex leaves the ledger as it was where the inner operations do. -/
theorem Ledger.section_around {agent : τ} {l : Ledger ν κ τ} {var : ν}
    {inner : List (Operation ν κ)} (hfree : l.state var = some .free)
    (hinner : StepsMeet (Ledger.step agent) (Ledger.Allows agent) (l.turn var (.held agent)) inner ∧
      runFrom (Ledger.step agent) (l.turn var (.held agent)) inner = l.turn var (.held agent)) :
    StepsMeet (Ledger.step agent) (Ledger.Allows agent) l (.lock var :: (inner ++ [.unlock var])) ∧
      runFrom (Ledger.step agent) l (.lock var :: (inner ++ [.unlock var])) = l := by
  have hheld : (l.turn var (.held agent)).state var = some (.held agent) := by
    simp [Ledger.turn, hfree]
  have hback : (l.turn var (.held agent)).turn var .free = l := by
    have hsame : Function.update l.state var (some .free) = l.state := by
      rw [← hfree, Function.update_eq_self]
    simp [Ledger.turn, hfree, hsame]
  rw [stepsMeet_cons, runFrom_cons]
  change (l.state var ≠ some .destroyed ∧
      StepsMeet (Ledger.step agent) (Ledger.Allows agent) (l.turn var (.held agent)) _) ∧
    runFrom (Ledger.step agent) (l.turn var (.held agent)) _ = l
  rw [stepsMeet_append, runFrom_append, hinner.2]
  exact ⟨⟨by simp [hfree], hinner.1, Or.inr hheld, trivial⟩, hback⟩

/-- A section of a mutex that is free, or of none at all, leaves the ledger as it was. -/
theorem Ledger.section_free {agent : τ} {l : Ledger ν κ τ} {var : ν}
    (hfree : l.state var = none ∨ l.state var = some .free) :
    StepsMeet (Ledger.step agent) (Ledger.Allows agent) l [.lock var, .unlock var] ∧
      runFrom (Ledger.step agent) l [.lock var, .unlock var] = l := by
  rcases hfree with hnone | hfree
  · simp [Ledger.step, Ledger.Allows, Ledger.turn_null hnone, hnone]
  · exact @Ledger.section_around _ _ _ _ _ agent l var [] hfree ⟨trivial, rfl⟩

/-- Unlocking nothing does nothing. -/
theorem Ledger.replicate_unlock_null {agent : τ} {l : Ledger ν κ τ} {var : ν}
    (hnone : l.state var = none) (count : Nat) :
    StepsMeet (Ledger.step agent) (Ledger.Allows agent) l (List.replicate count (.unlock var)) ∧
      runFrom (Ledger.step agent) l (List.replicate count (.unlock var)) = l := by
  have hsame : l.step agent (.unlock var) = l := Ledger.turn_null hnone .free
  induction count with
  | zero => exact ⟨trivial, rfl⟩
  | succ count ih =>
      rw [List.replicate_succ, stepsMeet_cons, runFrom_cons, hsame]
      exact ⟨⟨Or.inl hnone, ih.1⟩, ih.2⟩

/-! ## Mutexes on loan

One agent owns the variables: it creates and destroys. Others lock a mutex for a while. What
the owner's own program says about a mutex then holds but for the mutexes on loan, which are
free in that program.
-/

/-- The second ledger is the first but for the mutexes that others hold. -/
structure Lends (l c : Ledger ν κ τ) (holds : ν → τ → Prop) : Prop where
  ready : c.ready = l.ready
  held : ∀ var agent, holds var agent →
    l.state var = some .free ∧ c.state var = some (.held agent)
  rest : ∀ var, (∀ agent, ¬ holds var agent) → c.state var = l.state var

omit [DecidableEq ν] [DecidableEq κ] in
theorem Lends.of_holds {l c : Ledger ν κ τ} {holds holds' : ν → τ → Prop}
    (hlends : Lends l c holds) (hsame : ∀ var agent, holds' var agent ↔ holds var agent) :
    Lends l c holds' := by
  refine ⟨hlends.ready, ?_, ?_⟩
  · intro var agent hheld
    exact hlends.held var agent ((hsame var agent).mp hheld)
  · intro var hnone
    exact hlends.rest var fun agent hheld => hnone agent ((hsame var agent).mpr hheld)

omit [DecidableEq ν] [DecidableEq κ] in
theorem lends_refl {l : Ledger ν κ τ} {holds : ν → τ → Prop}
    (hnone : ∀ var agent, ¬ holds var agent) : Lends l l holds :=
  ⟨rfl, fun var agent hheld => absurd hheld (hnone var agent), fun _ _ => rfl⟩

omit [DecidableEq ν] [DecidableEq κ] in
/-- What is allowed to the owner is allowed in spite of the loans where the mutex is not
lent. -/
theorem Lends.allows {l c : Ledger ν κ τ} {holds : ν → τ → Prop} (hlends : Lends l c holds)
    {owner : τ} {operation : Operation ν κ}
    (hfree : ∀ var, operation.var = some var → ∀ agent, ¬ holds var agent)
    (hallows : l.Allows owner operation) : c.Allows owner operation := by
  cases operation with
  | lock var =>
      rw [Ledger.Allows, hlends.rest var (hfree var rfl)]
      exact hallows
  | unlock var =>
      rw [Ledger.Allows, hlends.rest var (hfree var rfl)]
      exact hallows
  | destroy var =>
      rw [Ledger.Allows, hlends.rest var (hfree var rfl)]
      exact hallows
  | traverse list =>
      rw [Ledger.Allows, hlends.ready]
      exact hallows
  | _ => trivial

/-- An operation of the owner leaves the loans as they were. -/
theorem Lends.step {l c : Ledger ν κ τ} {holds : ν → τ → Prop} (hlends : Lends l c holds)
    {owner : τ} {operation : Operation ν κ}
    (hfree : ∀ var, operation.var = some var → ∀ agent, ¬ holds var agent) :
    Lends (l.step owner operation) (c.step owner operation) holds := by
  refine ⟨Ledger.ready_step_congr hlends.ready operation, ?_, ?_⟩
  · intro var agent hheld
    have hother : operation.var ≠ some var := fun hvar => hfree var hvar agent hheld
    rw [Ledger.state_step hother, Ledger.state_step hother]
    exact hlends.held var agent hheld
  · intro var hnone
    exact Ledger.state_step_congr (hlends.rest var hnone) operation

/-- A free mutex that is not lent may be borrowed. -/
theorem Lends.lock {l c : Ledger ν κ τ} {holds holds' : ν → τ → Prop}
    (hlends : Lends l c holds) {var : ν} {agent : τ} (hstate : l.state var = some .free)
    (hnone : ∀ other, ¬ holds var other)
    (hholds : ∀ other borrower,
      holds' other borrower ↔ holds other borrower ∨ other = var ∧ borrower = agent) :
    c.Allows agent (.lock var) ∧ Lends l (c.step agent (.lock var)) holds' := by
  have hsame : c.state var = some .free := (hlends.rest var hnone).trans hstate
  refine ⟨?_, hlends.ready, ?_, ?_⟩
  · simp [Ledger.Allows, hsame]
  · intro other borrower hheld
    rcases (hholds other borrower).mp hheld with hbefore | ⟨rfl, rfl⟩
    · have hother : other ≠ var := by
        rintro rfl
        exact hnone borrower hbefore
      obtain ⟨hfree, hlent⟩ := hlends.held other borrower hbefore
      exact ⟨hfree, (Ledger.state_lock_of_ne hother).1.trans hlent⟩
    · exact ⟨hstate, by simp [Ledger.step, Ledger.turn, hsame]⟩
  · intro other hothers
    have hother : other ≠ var := by
      rintro rfl
      exact hothers agent ((hholds other agent).mpr (Or.inr ⟨rfl, rfl⟩))
    rw [(Ledger.state_lock_of_ne hother).1]
    exact hlends.rest other fun borrower hheld =>
      hothers borrower ((hholds other borrower).mpr (Or.inl hheld))

/-- A borrower may give its mutex back. -/
theorem Lends.unlock {l c : Ledger ν κ τ} {holds holds' : ν → τ → Prop}
    (hlends : Lends l c holds) {var : ν} {agent : τ} (hheld : holds var agent)
    (hholds : ∀ other borrower,
      holds' other borrower ↔ holds other borrower ∧ other ≠ var) :
    c.Allows agent (.unlock var) ∧ Lends l (c.step agent (.unlock var)) holds' := by
  obtain ⟨hstate, hlent⟩ := hlends.held var agent hheld
  refine ⟨Or.inr hlent, hlends.ready, ?_, ?_⟩
  · intro other borrower hother
    obtain ⟨hbefore, hdistinct⟩ := (hholds other borrower).mp hother
    rw [(Ledger.state_lock_of_ne hdistinct).2]
    exact hlends.held other borrower hbefore
  · intro other hothers
    by_cases hsame : other = var
    · subst hsame
      simp [Ledger.step, Ledger.turn, hlent, hstate]
    · rw [(Ledger.state_lock_of_ne hsame).2]
      exact hlends.rest other fun borrower hother =>
        hothers borrower ((hholds other borrower).mpr ⟨hother, hsame⟩)

end EnosDeviceSdk.Library.Handles
