/-
# Closing the device model under a yielding thread

One thread calls `IOT_EnOS_Yield` again and again. Another calls `IOT_EnOS_Close(0)` until
it is not told any more that a yield is running. They share four plain flags: `close` asks
for the end of yielding in `yield_running` and then looks at `is_yield_running`, while
`yield` looks at `yield_running` and then announces itself in `is_yield_running`.

A step is one access to a flag, or one of the calls `iotx_dm_yield`, `iotx_dm_dispatch`
and `iotx_dm_close`. A thread is the point in the source at which it is about to act. The
calls are logged in the order in which they are made.
-/

import EnosDeviceSdk.Infra.State
import EnosDeviceSdk.Library.Run

namespace EnosDeviceSdk.DevModel.YieldHandshake

open EnosDeviceSdk.Infra EnosDeviceSdk.Library

/-- The calls into the device model. -/
inductive DmCall
  | yield | dispatch | close
  deriving DecidableEq

/-- Where the thread in `IOT_EnOS_Yield` stands. It carries its timeout until the last test
of it, and the code that it is going to return. -/
inductive YieldPoint
  | testYieldRunning
  | setYieldRunning (timeoutMs : Int)
  | testOpened
  | testConnected
  | dmYield
  | dmDispatch (res : Int)
  | clearYieldRunning (res : Int)
  deriving DecidableEq

/-- Where the thread in `_iotx_enos_master_close` stands. The four points behind
`iotx_dm_close` are those of the `memset` of the context. -/
inductive ClosePoint
  | clearYieldRunning
  | testYieldRunning
  | testOpened
  | clearOpened
  | dmClose
  | wipeOpened
  | wipeConnected
  | wipeIsYieldRunning
  | wipeYieldRunning
  | finished
  deriving DecidableEq

/-- The flags of `iotx_enos_ctx_t`, the two threads, the calls they have made, and the
codes that `IOT_EnOS_Yield` and `IOT_EnOS_Close` have returned. -/
structure State where
  isOpened : Bool
  isConnected : Bool
  isYieldRunning : Bool
  yieldRunning : Bool
  yielder : YieldPoint
  closer : ClosePoint
  log : List DmCall
  yieldCodes : List Int
  closeCodes : List Int

/-- Neither thread has started. -/
def State.initial (isOpened isConnected yieldRunning : Bool) : State :=
  ⟨isOpened, isConnected, false, yieldRunning, .testYieldRunning, .clearYieldRunning, [], [], []⟩

/-- Which thread takes the next step. The yielding thread starts a call with the given
timeout, and `iotx_dm_yield` returns the given code. -/
inductive Action
  | yielder (timeoutMs res : Int)
  | closer
  deriving DecidableEq

/-- The next step in `IOT_EnOS_Yield`. -/
def yieldStep (s : State) (timeoutMs res : Int) : State :=
  match s.yielder with
  | .testYieldRunning =>
      if s.yieldRunning then { s with yielder := .setYieldRunning timeoutMs }
      else { s with yieldCodes := s.yieldCodes ++ [stateDevModelYieldStopped] }
  | .setYieldRunning timeoutMs =>
      { s with
        isYieldRunning := true
        yielder :=
          if timeoutMs ≤ 0 then .clearYieldRunning stateUserInputInvalid else .testOpened }
  | .testOpened =>
      { s with
        yielder :=
          if s.isOpened then .testConnected
          else .clearYieldRunning stateDevModelMasterNotConnectYet }
  | .testConnected =>
      { s with
        yielder :=
          if s.isConnected then .dmYield
          else .clearYieldRunning stateDevModelMasterNotConnectYet }
  | .dmYield => { s with log := s.log ++ [.yield], yielder := .dmDispatch res }
  | .dmDispatch res => { s with log := s.log ++ [.dispatch], yielder := .clearYieldRunning res }
  | .clearYieldRunning res =>
      { s with
        isYieldRunning := false
        yielder := .testYieldRunning
        yieldCodes := s.yieldCodes ++ [res] }

/-- `_iotx_enos_master_close` returns. -/
def State.closed (s : State) (res : Int) (closer : ClosePoint) : State :=
  { s with closer := closer, closeCodes := s.closeCodes ++ [res] }

/-- The next step in `_iotx_enos_master_close`, which is called again while a yield is
running. -/
def closeStep (s : State) : State :=
  match s.closer with
  | .clearYieldRunning => { s with yieldRunning := false, closer := .testYieldRunning }
  | .testYieldRunning =>
      if s.isYieldRunning then s.closed stateDevModelYieldRunning .clearYieldRunning
      else { s with closer := .testOpened }
  | .testOpened =>
      if s.isOpened then { s with closer := .clearOpened }
      else s.closed stateDevModelMasterNotOpenYet .finished
  | .clearOpened => { s with isOpened := false, closer := .dmClose }
  | .dmClose => { s with log := s.log ++ [.close], closer := .wipeOpened }
  | .wipeOpened => { s with isOpened := false, closer := .wipeConnected }
  | .wipeConnected => { s with isConnected := false, closer := .wipeIsYieldRunning }
  | .wipeIsYieldRunning => { s with isYieldRunning := false, closer := .wipeYieldRunning }
  | .wipeYieldRunning =>
      { s with yieldRunning := false }.closed successReturn .finished
  | .finished => s

/-- One step. -/
def step (s : State) : Action → State
  | .yielder timeoutMs res => yieldStep s timeoutMs res
  | .closer => closeStep s

/-! ## What is asked of a run -/

/-- `iotx_dm_close` is not called between an `iotx_dm_yield` and its `iotx_dm_dispatch`,
and neither is called after it. -/
def Separated (log : List DmCall) : Prop :=
  ∀ before after, log = before ++ .close :: after →
    before.count .yield = before.count .dispatch ∧ .yield ∉ after ∧ .dispatch ∉ after

/-- `close` does not look at `is_yield_running` after a yield that will go on has looked at
`yield_running` and before it has announced itself. -/
def TestsApart (s : State) : Action → Prop
  | .yielder .. => True
  | .closer =>
      s.closer = .testYieldRunning → ∀ timeoutMs, s.yielder = .setYieldRunning timeoutMs →
        timeoutMs ≤ 0 ∨ s.isOpened = false ∨ s.isConnected = false

/-- The yielding thread is on its way into `iotx_dm_yield`, or has not left
`iotx_dm_dispatch` yet. -/
def State.entering (s : State) : Bool :=
  match s.yielder with
  | .testYieldRunning | .clearYieldRunning _ => false
  | .setYieldRunning timeoutMs => decide (0 < timeoutMs) && s.isOpened && s.isConnected
  | .testOpened => s.isOpened && s.isConnected
  | .testConnected => s.isConnected
  | .dmYield | .dmDispatch _ => true

/-- The yielding thread has announced itself and not yet signed off. -/
def YieldPoint.announced : YieldPoint → Bool
  | .testYieldRunning | .setYieldRunning _ => false
  | _ => true

/-- The closing thread has found no yield running. -/
def ClosePoint.passed : ClosePoint → Bool
  | .clearYieldRunning | .testYieldRunning => false
  | _ => true

/-- A yield whose dispatch has not been made yet. -/
def YieldPoint.pending : YieldPoint → Nat
  | .dmDispatch _ => 1
  | _ => 0

/-- The invariant of runs that meet the condition. Once the closing thread has passed its
test, no yield is on its way and none can start. -/
structure Guarded (s : State) : Prop where
  announced : s.closer.passed = false → s.yielder.announced = true → s.isYieldRunning = true
  stopped : s.closer ≠ .clearYieldRunning → s.yieldRunning = false
  apart : s.closer.passed = true → s.entering = false
  unclosed : s.closer.passed = false → .close ∉ s.log
  balanced : s.log.count .yield = s.log.count .dispatch + s.yielder.pending
  separated : Separated s.log

/-- A log without a `close` is separated. -/
theorem separated_of_not_mem {log : List DmCall} (hunclosed : .close ∉ log) : Separated log := by
  intro before after hlog
  rw [hlog] at hunclosed
  exact absurd (List.mem_append_right before List.mem_cons_self) hunclosed

/-- A `close` may follow when every yield has had its dispatch. -/
theorem Separated.close {log : List DmCall} (hseparated : Separated log)
    (hbalanced : log.count .yield = log.count .dispatch) : Separated (log ++ [.close]) := by
  intro before after hlog
  rcases List.eq_nil_or_concat after with rfl | ⟨after, last, rfl⟩
  · have hsame : log = before := List.append_inj_left' hlog rfl
    rw [← hsame]
    exact ⟨hbalanced, List.not_mem_nil, List.not_mem_nil⟩
  · rw [List.concat_eq_append] at hlog ⊢
    have hsplit : log ++ [.close] = (before ++ .close :: after) ++ [last] := by
      rw [hlog, List.append_assoc, List.cons_append]
    obtain ⟨hsame, hlast⟩ := List.append_inj' hsplit rfl
    obtain ⟨hcount, hyield, hdispatch⟩ := hseparated before after hsame
    rw [← hlast]
    exact ⟨hcount, by simp [hyield], by simp [hdispatch]⟩

theorem guarded_initial (isOpened isConnected yieldRunning : Bool) :
    Guarded (State.initial isOpened isConnected yieldRunning) where
  announced := fun _ hannounced => nomatch hannounced
  stopped := fun hstarted => absurd rfl hstarted
  apart := fun hpassed => nomatch hpassed
  unclosed := fun _ => List.not_mem_nil
  balanced := rfl
  separated := separated_of_not_mem List.not_mem_nil

/-- A step of the yielding thread that makes no call. -/
theorem Guarded.of_yielder {s after : State} (hs : Guarded s) (hlog : after.log = s.log)
    (hcloser : after.closer = s.closer) (hyieldRunning : after.yieldRunning = s.yieldRunning)
    (hannounced : s.closer.passed = false → after.yielder.announced = true →
      after.isYieldRunning = true)
    (hentering : s.entering = false → s.closer.passed = true → after.entering = false)
    (hpending : after.yielder.pending = s.yielder.pending) : Guarded after where
  announced := by
    rw [hcloser]
    exact hannounced
  stopped := by
    rw [hcloser, hyieldRunning]
    exact hs.stopped
  apart := by
    rw [hcloser]
    exact fun hpassed => hentering (hs.apart hpassed) hpassed
  unclosed := by
    rw [hcloser, hlog]
    exact hs.unclosed
  balanced := by
    rw [hlog, hpending]
    exact hs.balanced
  separated := by
    rw [hlog]
    exact hs.separated

/-- A call of the yielding thread, which the closing thread's test has not missed. -/
theorem Guarded.of_call {s after : State} (hs : Guarded s) (call : DmCall)
    (hcall : call ≠ .close) (hentering : s.entering = true)
    (hrunning : s.yielder.announced = true) (hlog : after.log = s.log ++ [call])
    (hcloser : after.closer = s.closer) (hyieldRunning : after.yieldRunning = s.yieldRunning)
    (hisYieldRunning : after.isYieldRunning = s.isYieldRunning)
    (hbalanced : after.log.count .yield = after.log.count .dispatch + after.yielder.pending) :
    Guarded after := by
  have hbefore : s.closer.passed = false := by
    rw [← Bool.not_eq_true]
    intro hpassed
    rw [hs.apart hpassed] at hentering
    cases hentering
  have hunclosed : .close ∉ after.log := by
    rw [hlog, List.mem_append, List.mem_singleton, not_or]
    exact ⟨hs.unclosed hbefore, hcall.symm⟩
  refine ⟨fun _ _ => ?_, ?_, fun hpassed => ?_, fun _ => hunclosed, hbalanced,
    separated_of_not_mem hunclosed⟩
  · rw [hisYieldRunning]
    exact hs.announced hbefore hrunning
  · rw [hcloser, hyieldRunning]
    exact hs.stopped
  · rw [hcloser, hbefore] at hpassed
    cases hpassed

/-- The yielding thread begins: behind the test of a closing thread it finds `yield_running`
taken back. -/
theorem Guarded.testYieldRunning {s : State} (hs : Guarded s)
    (hpoint : s.yielder = .testYieldRunning) (timeoutMs res : Int) :
    Guarded (yieldStep s timeoutMs res) := by
  rw [yieldStep, hpoint]
  dsimp only
  split
  · next hrunning =>
      refine hs.of_yielder rfl rfl rfl ?_ ?_ ?_
      · intro _ hannounced
        cases hannounced
      · intro _ hpassed
        have hstopped : s.yieldRunning = false := by
          apply hs.stopped
          intro hcloser
          rw [hcloser] at hpassed
          cases hpassed
        rw [hrunning] at hstopped
        cases hstopped
      · rw [hpoint]
        rfl
  · refine hs.of_yielder rfl rfl rfl ?_ ?_ ?_
    · intro _ hannounced
      cases hannounced
    · intro _ _
      rfl
    · rw [hpoint]

/-- It announces itself, and enters where it would have entered before. -/
theorem Guarded.setYieldRunning {s : State} (hs : Guarded s) {begun : Int}
    (hpoint : s.yielder = .setYieldRunning begun) (timeoutMs res : Int) :
    Guarded (yieldStep s timeoutMs res) := by
  rw [yieldStep, hpoint]
  dsimp only
  refine hs.of_yielder rfl rfl rfl ?_ ?_ ?_
  · intro _ _
    rfl
  · intro hentering _
    rw [State.entering, hpoint] at hentering
    rw [State.entering]
    dsimp only at hentering ⊢
    by_cases hpositive : 0 < begun
    · rw [decide_eq_true hpositive, Bool.true_and] at hentering
      rw [if_neg (Int.not_le.mpr hpositive)]
      exact hentering
    · rw [if_pos (Int.not_lt.mp hpositive)]
  · rw [hpoint]
    dsimp only
    split <;> rfl

theorem Guarded.testOpened {s : State} (hs : Guarded s) (hpoint : s.yielder = .testOpened)
    (timeoutMs res : Int) : Guarded (yieldStep s timeoutMs res) := by
  rw [yieldStep, hpoint]
  dsimp only
  refine hs.of_yielder rfl rfl rfl ?_ ?_ ?_
  · intro hbefore _
    exact hs.announced hbefore (hpoint ▸ rfl)
  · intro hentering _
    rw [State.entering, hpoint] at hentering
    rw [State.entering]
    dsimp only at hentering ⊢
    cases hopened : s.isOpened with
    | false => rfl
    | true =>
        rw [hopened, Bool.true_and] at hentering
        exact hentering
  · rw [hpoint]
    dsimp only
    split <;> rfl

theorem Guarded.testConnected {s : State} (hs : Guarded s) (hpoint : s.yielder = .testConnected)
    (timeoutMs res : Int) : Guarded (yieldStep s timeoutMs res) := by
  rw [yieldStep, hpoint]
  dsimp only
  refine hs.of_yielder rfl rfl rfl ?_ ?_ ?_
  · intro hbefore _
    exact hs.announced hbefore (hpoint ▸ rfl)
  · intro hentering _
    rw [State.entering, hpoint] at hentering
    dsimp only at hentering
    rw [hentering]
    rfl
  · rw [hpoint]
    dsimp only
    split <;> rfl

theorem guarded_yieldStep {s : State} (hs : Guarded s) (timeoutMs res : Int) :
    Guarded (yieldStep s timeoutMs res) := by
  cases hpoint : s.yielder with
  | testYieldRunning => exact hs.testYieldRunning hpoint timeoutMs res
  | setYieldRunning begun => exact hs.setYieldRunning hpoint timeoutMs res
  | testOpened => exact hs.testOpened hpoint timeoutMs res
  | testConnected => exact hs.testConnected hpoint timeoutMs res
  | dmYield =>
      have hbalanced := hs.balanced
      rw [hpoint] at hbalanced
      rw [yieldStep, hpoint]
      refine hs.of_call .yield (by decide) (by rw [State.entering, hpoint]) (hpoint ▸ rfl)
        rfl rfl rfl rfl ?_
      simp only [YieldPoint.pending] at hbalanced ⊢
      simp [hbalanced]
  | dmDispatch code =>
      have hbalanced := hs.balanced
      rw [hpoint] at hbalanced
      rw [yieldStep, hpoint]
      refine hs.of_call .dispatch (by decide) (by rw [State.entering, hpoint]) (hpoint ▸ rfl)
        rfl rfl rfl rfl ?_
      simp only [YieldPoint.pending] at hbalanced ⊢
      simp [hbalanced]
  | clearYieldRunning code =>
      rw [yieldStep, hpoint]
      refine hs.of_yielder rfl rfl rfl ?_ ?_ ?_
      · intro _ hannounced
        cases hannounced
      · intro _ _
        rfl
      · rw [hpoint]
        rfl

/-- Flags that only go down keep the yielding thread out. -/
theorem entering_mono {s after : State} (hyielder : after.yielder = s.yielder)
    (hopened : after.isOpened = true → s.isOpened = true)
    (hconnected : after.isConnected = true → s.isConnected = true)
    (hout : s.entering = false) : after.entering = false := by
  rw [← Bool.not_eq_true] at hout ⊢
  intro hentering
  apply hout
  rw [State.entering, hyielder] at hentering
  rw [State.entering]
  cases hpoint : s.yielder with
  | testYieldRunning | clearYieldRunning res =>
      rw [hpoint] at hentering
      cases hentering
  | dmYield | dmDispatch res => rfl
  | setYieldRunning timeoutMs =>
      rw [hpoint] at hentering
      dsimp only at hentering ⊢
      rw [Bool.and_eq_true, Bool.and_eq_true] at hentering ⊢
      exact ⟨⟨hentering.1.1, hopened hentering.1.2⟩, hconnected hentering.2⟩
  | testOpened =>
      rw [hpoint] at hentering
      dsimp only at hentering ⊢
      rw [Bool.and_eq_true] at hentering ⊢
      exact ⟨hopened hentering.1, hconnected hentering.2⟩
  | testConnected =>
      rw [hpoint] at hentering
      exact hconnected hentering

/-- A step of the closing thread behind its test that makes no call. -/
theorem Guarded.of_closer {s after : State} (hs : Guarded s) (hpassed : s.closer.passed = true)
    (hlater : after.closer.passed = true) (hyielder : after.yielder = s.yielder)
    (hopened : after.isOpened = true → s.isOpened = true)
    (hconnected : after.isConnected = true → s.isConnected = true)
    (hyieldRunning : after.yieldRunning = true → s.yieldRunning = true)
    (hlog : after.log = s.log) : Guarded after where
  announced := by
    rw [hlater]
    intro hbefore
    cases hbefore
  stopped := by
    intro _
    rw [← Bool.not_eq_true]
    intro hrunning
    have hstopped : s.yieldRunning = false := by
      apply hs.stopped
      intro hcloser
      rw [hcloser] at hpassed
      cases hpassed
    rw [hyieldRunning hrunning] at hstopped
    cases hstopped
  apart := fun _ => entering_mono hyielder hopened hconnected (hs.apart hpassed)
  unclosed := by
    rw [hlater]
    intro hbefore
    cases hbefore
  balanced := by
    rw [hlog, hyielder]
    exact hs.balanced
  separated := by
    rw [hlog]
    exact hs.separated

/-- A thread that is not entering has no dispatch left to make. -/
theorem pending_eq_zero {s : State} (hout : s.entering = false) : s.yielder.pending = 0 := by
  rw [State.entering] at hout
  cases hpoint : s.yielder with
  | dmDispatch res =>
      rw [hpoint] at hout
      cases hout
  | _ => rfl

theorem guarded_closeStep {s : State} (hs : Guarded s) (hapart : TestsApart s .closer) :
    Guarded (closeStep s) := by
  cases hpoint : s.closer with
  | clearYieldRunning =>
      have hbefore : s.closer.passed = false := by
        rw [hpoint]
        rfl
      rw [closeStep, hpoint]
      exact ⟨fun _ => hs.announced hbefore, fun _ => rfl, fun hpassed => (nomatch hpassed),
        fun _ => hs.unclosed hbefore, hs.balanced, hs.separated⟩
  | testYieldRunning =>
      have hbefore : s.closer.passed = false := by
        rw [hpoint]
        rfl
      have hstopped : s.yieldRunning = false := by
        apply hs.stopped
        rw [hpoint]
        decide
      rw [closeStep, hpoint]
      dsimp only
      split
      · exact ⟨fun _ => hs.announced hbefore, fun _ => hstopped,
          fun hpassed => (nomatch hpassed), fun _ => hs.unclosed hbefore, hs.balanced,
          hs.separated⟩
      · next hquiet =>
          have hout : s.entering = false := by
            rw [State.entering]
            cases hyielder : s.yielder with
            | testYieldRunning | clearYieldRunning res => rfl
            | setYieldRunning timeoutMs =>
                rcases hapart hpoint timeoutMs hyielder with hshort | hclosed | hoffline
                · simp [Int.not_lt.mpr hshort]
                · simp [hclosed]
                · simp [hoffline]
            | testOpened | testConnected | dmYield | dmDispatch res =>
                exact absurd (hs.announced hbefore (hyielder ▸ rfl)) hquiet
          exact ⟨fun hlater => (nomatch hlater), fun _ => hstopped, fun _ => hout,
            fun hlater => (nomatch hlater), hs.balanced, hs.separated⟩
  | testOpened =>
      rw [closeStep, hpoint]
      dsimp only
      split
      · exact hs.of_closer (hpoint ▸ rfl) rfl rfl id id id rfl
      · exact hs.of_closer (hpoint ▸ rfl) rfl rfl id id id rfl
  | dmClose =>
      have hpassed : s.closer.passed = true := by
        rw [hpoint]
        rfl
      have hout := hs.apart hpassed
      have hbalanced := hs.balanced
      rw [pending_eq_zero hout, Nat.add_zero] at hbalanced
      rw [closeStep, hpoint]
      refine ⟨fun hlater => (nomatch hlater), fun _ => ?_, fun _ => hout,
        fun hlater => (nomatch hlater), ?_, hs.separated.close hbalanced⟩
      · apply hs.stopped
        rw [hpoint]
        decide
      · simpa [pending_eq_zero hout] using hbalanced
  | clearOpened | wipeOpened =>
      rw [closeStep, hpoint]
      exact hs.of_closer (hpoint ▸ rfl) rfl rfl (fun hset => nomatch hset) id id rfl
  | wipeConnected =>
      rw [closeStep, hpoint]
      exact hs.of_closer (hpoint ▸ rfl) rfl rfl id (fun hset => nomatch hset) id rfl
  | wipeIsYieldRunning =>
      rw [closeStep, hpoint]
      exact hs.of_closer (hpoint ▸ rfl) rfl rfl id id id rfl
  | wipeYieldRunning =>
      rw [closeStep, hpoint]
      exact hs.of_closer (hpoint ▸ rfl) rfl rfl id id (fun hset => nomatch hset) rfl
  | finished =>
      rw [closeStep, hpoint]
      exact hs

/-- The step lemma. -/
theorem guarded_step (s : State) (action : Action) (hs : Guarded s)
    (hapart : TestsApart s action) : Guarded (step s action) := by
  cases action with
  | yielder timeoutMs res => exact guarded_yieldStep hs timeoutMs res
  | closer => exact guarded_closeStep hs hapart

/-- In a run in which `close` never looks at `is_yield_running` while a yield stands between
its test and its announcement, `iotx_dm_close` stays apart from the yields at any time. -/
theorem separated_always {isOpened isConnected yieldRunning : Bool} {actions : List Action}
    (hapart : StepsMeet step TestsApart (State.initial isOpened isConnected yieldRunning)
      actions) :
    Always step (fun s => Separated s.log) (State.initial isOpened isConnected yieldRunning)
      actions := by
  have halways := always_of_stepsMeet guarded_step
    (guarded_initial isOpened isConnected yieldRunning) hapart
  exact halways.mono fun s hs => hs.separated

instance (s : State) : DecidablePred (TestsApart s)
  | .yielder .. => .isTrue trivial
  | .closer =>
      match hyielder : s.yielder with
      | .setYieldRunning timeoutMs =>
          decidable_of_iff (s.closer = .testYieldRunning →
            timeoutMs ≤ 0 ∨ s.isOpened = false ∨ s.isConnected = false) (by
              simp only [TestsApart, hyielder, YieldPoint.setYieldRunning.injEq]
              exact ⟨fun hcase hpoint _ hsame => hsame ▸ hcase hpoint,
                fun hcase hpoint => hcase hpoint timeoutMs rfl⟩)
      | .testYieldRunning | .testOpened | .testConnected | .dmYield | .dmDispatch _
      | .clearYieldRunning _ => .isTrue (by simp [TestsApart, hyielder])

/-- A call of `IOT_EnOS_Yield` that goes through, and then one of `IOT_EnOS_Close`. -/
def yieldThenClose : List Action :=
  List.replicate 7 (.yielder 10 0) ++ List.replicate 9 .closer

/-- The yield and its dispatch come before the close. -/
theorem separated_yieldThenClose :
    Always step (fun s => Separated s.log) (State.initial true true true) yieldThenClose ∧
      (runFrom step (State.initial true true true) yieldThenClose).log =
        [.yield, .dispatch, .close] :=
  ⟨separated_always (by decide), by decide⟩

/-- A yield that has passed its test is missed by the test of the close, and the close
tears the device model down between the yield and its dispatch. -/
theorem not_separated_between :
    ¬ Always step (fun s => Separated s.log) (State.initial true true true)
      ([.yielder 10 0, .closer, .closer, .yielder 10 0, .yielder 10 0, .yielder 10 0,
        .yielder 10 0] ++ List.replicate 3 .closer) := by
  intro halways
  have hcounts := (halways.finish [.yield] [] (by decide)).1
  revert hcounts
  decide

end EnosDeviceSdk.DevModel.YieldHandshake
