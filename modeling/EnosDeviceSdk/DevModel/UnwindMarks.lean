/-
# What opening, connecting and closing mark

While a yield thread runs, the caller may lock and unlock, traverse lists and count; this is
all that a connect does. A close does no more until it has waited, and an open does what it
wants since there is no yield thread then. So much is said here of the marks of each call, with
what they make of `inited_conn_num` and of the descriptor.
-/

import EnosDeviceSdk.DevModel.Unwind

namespace EnosDeviceSdk.DevModel.Unwind

open EnosDeviceSdk.Infra EnosDeviceSdk.Library EnosDeviceSdk.Library.Handles
open EnosDeviceSdk.DevModel.Connection (ConnectionTable getFd iotxCmOpenMqtt iotxCmOpen
  iotxCmConnect iotxCmClose mqttClose mqttConnect recycleFd fdIsValid)

/-! ## Marks -/

/-- `inited_conn_num` after a mark. -/
def countStep (count : Int) : Mark → Int
  | .connNum value => value
  | _ => count

/-- What may happen while a yield thread runs. -/
def plain : Mark → Bool
  | .operation (.lock _) | .operation (.unlock _) | .operation (.traverse _) => true
  | .connNum _ | .createThread => true
  | _ => false

/-- A mark that neither counts nor creates a thread. -/
def calm : Mark → Bool
  | .operation _ | .awaitLeave => true
  | _ => false

/-- From one world to the next only such marks are logged, and they give the count. -/
def Adds (kind : Mark → Bool) (w w' : World) : Prop :=
  ∃ marks, w'.log = w.log ++ marks ∧ (∀ mark ∈ marks, kind mark = true) ∧
    runFrom countStep w.table.initedConnNum marks = w'.table.initedConnNum

theorem adds_of_log (kind : Mark → Bool) {w w' : World} (hlog : w'.log = w.log)
    (hcount : w'.table.initedConnNum = w.table.initedConnNum) : Adds kind w w' :=
  ⟨[], by rw [hlog, List.append_nil], by simp, hcount.symm⟩

theorem Adds.trans {kind : Mark → Bool} {first second third : World}
    (hfirst : Adds kind first second) (hsecond : Adds kind second third) :
    Adds kind first third := by
  obtain ⟨marks, hlog, hkind, hcount⟩ := hfirst
  obtain ⟨marks', hlog', hkind', hcount'⟩ := hsecond
  refine ⟨marks ++ marks', ?_, List.forall_mem_append.mpr ⟨hkind, hkind'⟩, ?_⟩
  · rw [hlog', hlog, List.append_assoc]
  · rw [runFrom_append, hcount, hcount']

/-- Calm marks leave the count as it was. -/
theorem count_calm {marks : List Mark} (hcalm : ∀ mark ∈ marks, calm mark = true)
    (count : Int) : runFrom countStep count marks = count := by
  induction marks with
  | nil => rfl
  | cons mark rest ih =>
      obtain ⟨hfirst, hrest⟩ := List.forall_mem_cons.mp hcalm
      cases mark with
      | operation operation => exact ih hrest
      | awaitLeave => exact ih hrest
      | _ => cases hfirst

theorem count_operations (count : Int) (operations : List DmOperation) :
    runFrom countStep count (operations.map .operation) = count :=
  count_calm (List.forall_mem_map.mpr fun _ _ => rfl) count

theorem adds_perform {kind : Mark → Bool} (w : World) {operations : List DmOperation}
    (hkind : ∀ operation ∈ operations, kind (.operation operation) = true) :
    Adds kind w (w.perform operations) := by
  refine ⟨operations.map .operation, rfl, ?_, count_operations _ _⟩
  exact List.forall_mem_map.mpr hkind

/-- Operations are calm. -/
theorem calm_perform (w : World) (operations : List DmOperation) :
    Adds calm w (w.perform operations) :=
  adds_perform w fun _ _ => rfl

theorem Adds.count {w w' : World} (hadds : Adds calm w w') :
    w'.table.initedConnNum = w.table.initedConnNum := by
  obtain ⟨marks, -, hcalm, hcount⟩ := hadds
  rw [← hcount, count_calm hcalm]

/-! ## Connecting -/

theorem plain_lookup (table : ConnectionTable) (fd : Int) :
    ∀ operation ∈ cmLookupOperations table fd, plain (.operation operation) = true := by
  have hsection : ∀ operation ∈ fdSection, plain (.operation operation) = true := by decide
  rw [cmLookupOperations]
  split
  · refine List.forall_mem_append.mpr ⟨hsection, ?_⟩
    split
    · exact hsection
    · simp
  · simp

/-- The marks of a connect say how it is counted. -/
theorem count_cmConnectMarks (table : ConnectionTable) (fd : Int) (connectOk threadOk : Bool) :
    runFrom countStep table.initedConnNum (cmConnectMarks table fd connectOk threadOk) =
      (iotxCmConnect table fd connectOk threadOk).2.initedConnNum := by
  rw [cmConnectMarks, iotxCmConnect]
  cases hvalid : fdIsValid table fd with
  | none => simp
  | some slot =>
      by_cases hret : mqttConnect table connectOk = 0
      · by_cases hfirst : table.initedConnNum + 1 = 1
        · cases threadOk <;> simp [hret, hfirst, countStep]
          omega
        · simp [hret, hfirst, countStep]
      · simp [hret]

theorem plain_cmConnectMarks (table : ConnectionTable) (fd : Int) (connectOk threadOk : Bool) :
    ∀ mark ∈ cmConnectMarks table fd connectOk threadOk, plain mark = true := by
  rw [cmConnectMarks]
  split
  · split
    · cases threadOk <;> simp [plain]
    · simp [plain]
  · simp

theorem adds_dmConnect (w : World) (outcome : ConnectOutcome) :
    Adds plain w (iotxDmConnect w outcome).2 := by
  have hperform : ∀ {connected : World} {marks : List Mark},
      connected.log = w.log ++ marks → (∀ mark ∈ marks, plain mark = true) →
      runFrom countStep w.table.initedConnNum marks = w.table.initedConnNum →
      connected.table = (iotxCmConnect w.table w.fd outcome.connectOk outcome.threadOk).2 →
      Adds plain w (connected.write
        (cmConnectMarks w.table w.fd outcome.connectOk outcome.threadOk)) := by
    intro connected marks hlog hplain hcount htable
    refine ⟨marks ++ cmConnectMarks w.table w.fd outcome.connectOk outcome.threadOk, ?_, ?_, ?_⟩
    · rw [World.write, hlog, List.append_assoc]
    · exact List.forall_mem_append.mpr ⟨hplain, plain_cmConnectMarks _ _ _ _⟩
    · rw [runFrom_append, hcount, count_cmConnectMarks, World.write, htable]
  have hlookup := plain_lookup w.table w.fd
  rw [iotxDmConnect]
  dsimp only
  split
  · rw [perform_perform]
    refine hperform rfl (List.forall_mem_map.mpr ?_) (count_operations _ _) rfl
    exact List.forall_mem_append.mpr ⟨hlookup, by decide⟩
  · exact hperform rfl (List.forall_mem_map.mpr hlookup) (count_operations _ _) rfl

theorem adds_dmSubscribe (w : World) (outcome : ConnectOutcome) :
    Adds plain w (iotxDmSubscribe w outcome).2 := by
  have hlookups : ∀ operation ∈
      (List.replicate outcome.subscriptions (cmLookupOperations w.table w.fd)).flatten,
      plain (.operation operation) = true := by
    intro operation hmem
    obtain ⟨lookup, hlookup, hinner⟩ := List.mem_flatten.mp hmem
    rw [List.eq_of_mem_replicate hlookup] at hinner
    exact plain_lookup w.table w.fd operation hinner
  rw [iotxDmSubscribe]
  dsimp only
  split
  · refine (((adds_perform w ?_).trans (adds_perform _ ?_)).trans (adds_perform _ hlookups)).trans
      (adds_perform _ ?_) <;> decide
  · refine (adds_perform w ?_).trans (adds_perform _ ?_) <;> decide

/-- A connect may run beside a yield thread. -/
theorem adds_connect (w : World) (outcome : ConnectOutcome) :
    Adds plain w (iotEnosConnect w outcome).2 := by
  have hmaster : ∀ w, Adds plain w (iotxEnosMasterConnect w outcome).2 := by
    intro w
    have hconnected := adds_dmConnect w outcome
    have hsubscribed := hconnected.trans (adds_dmSubscribe (iotxDmConnect w outcome).2 outcome)
    rw [iotxEnosMasterConnect]
    split
    · exact adds_of_log _ rfl rfl
    · dsimp only
      split
      · exact hconnected
      · split
        · exact hsubscribed
        · exact hsubscribed.trans (adds_of_log _ rfl rfl)
  rw [iotEnosConnect]
  split
  · exact adds_of_log _ rfl rfl
  · refine ((adds_perform w ?_).trans (hmaster _)).trans (adds_perform _ ?_) <;> decide

/-! ## Opening and unwinding -/

theorem calm_dmMsgCacheInit (w : World) (mutexOk : Bool) :
    Adds calm w (dmMsgCacheInit w mutexOk).2 := by
  have hzeroed : Adds calm w { w with cached := 0 } := adds_of_log _ rfl rfl
  rw [dmMsgCacheInit]
  split
  · exact (hzeroed.trans (calm_perform _ _)).trans (calm_perform _ _)
  · exact hzeroed.trans (calm_perform _ _)

theorem calm_dmIpcInit (w : World) (mutexOk : Bool) : Adds calm w (dmIpcInit w mutexOk).2 := by
  rw [dmIpcInit]
  split
  · exact (calm_perform _ _).trans (calm_perform _ _)
  · exact calm_perform _ _

theorem calm_dmMgrInit (w : World) (mutexOk deviceOk : Bool) :
    Adds calm w (dmMgrInit w mutexOk deviceOk).2 := by
  rw [dmMgrInit]
  split
  · split
    · exact (calm_perform _ _).trans (calm_perform _ _)
    · exact ((calm_perform _ _).trans (calm_perform _ _)).trans (calm_perform _ _)
  · exact (calm_perform _ _).trans (calm_perform _ _)

theorem iotxCmOpenMqtt_count (table : ConnectionTable) (mallocOk paramOk : Bool) :
    (iotxCmOpenMqtt table mallocOk paramOk).2.initedConnNum = table.initedConnNum := by
  rw [iotxCmOpenMqtt]
  split
  · rfl
  · split <;> rfl

theorem getFd_count (table : ConnectionTable) (handle : Nat) (mutexOk : Bool) :
    (getFd table handle mutexOk).2.initedConnNum = table.initedConnNum := by
  rw [getFd]
  split
  · rfl
  · split <;> rfl

theorem mqttClose_count (table : ConnectionTable) :
    (mqttClose table).2.initedConnNum = table.initedConnNum := by
  rw [mqttClose]
  split <;> rfl

theorem iotxCmOpen_count (table : ConnectionTable) (mallocOk paramOk mutexOk : Bool) :
    (iotxCmOpen table mallocOk paramOk mutexOk).2.initedConnNum = table.initedConnNum := by
  have hsame := iotxCmOpenMqtt_count table mallocOk paramOk
  rw [iotxCmOpen]
  cases hopened : iotxCmOpenMqtt table mallocOk paramOk with
  | mk connection opened =>
      rw [hopened] at hsame
      cases connection with
      | none => exact hsame
      | some handle =>
          have hentered := (getFd_count opened handle mutexOk).trans hsame
          dsimp only
          split
          · exact (mqttClose_count _).trans hentered
          · exact hentered

theorem calm_dmClientOpen (w : World) (mallocOk paramOk mutexOk : Bool) :
    Adds calm w (dmClientOpen w mallocOk paramOk mutexOk).2 := by
  have hcount := iotxCmOpen_count w.table mallocOk paramOk mutexOk
  have hopened : Adds calm w
      (World.perform { w with table := (iotxCmOpen w.table mallocOk paramOk mutexOk).2 }
        (cmOpenOperations w.table mallocOk paramOk mutexOk)) :=
    (@adds_of_log calm w { w with table := (iotxCmOpen w.table mallocOk paramOk mutexOk).2 }
      rfl hcount).trans (calm_perform _ _)
  rw [dmClientOpen]
  dsimp only
  split
  · exact hopened.trans (adds_of_log _ rfl rfl)
  · exact hopened.trans (adds_of_log _ rfl rfl)

/-- The count behind a close. -/
def uncounted (table : ConnectionTable) : Int :=
  if table.initedConnNum > 0 then table.initedConnNum - 1 else table.initedConnNum

theorem iotxCmClose_count (table : ConnectionTable) (fd : Int) :
    (iotxCmClose table fd true).2.initedConnNum =
      if (fdIsValid table fd).isSome then uncounted table else table.initedConnNum := by
  rw [iotxCmClose]
  cases hvalid : fdIsValid table fd with
  | none => rfl
  | some slot =>
      have hclosed := mqttClose_count { table with initedConnNum := uncounted table }
      have hrecycled : ∀ table : ConnectionTable,
          (recycleFd table fd true).2.initedConnNum = table.initedConnNum := by
        intro table
        rw [recycleFd]
        split
        · rfl
        · split <;> rfl
      have hfold : (if table.initedConnNum > 0 then table.initedConnNum - 1
          else table.initedConnNum) = uncounted table := rfl
      rw [if_pos (Option.isSome_some), hfold]
      dsimp only
      split
      · exact hclosed
      · split
        · exact (hrecycled _).trans hclosed
        · split <;> exact (hrecycled _).trans hclosed

/-- With no connect counted, a close does not count either. -/
theorem calm_dmClientClose {w : World} (hcount : w.table.initedConnNum = 0) :
    Adds calm w (dmClientClose w) := by
  refine ⟨cmCloseMarks w.table w.fd, rfl, ?_, ?_⟩
  · have hsection : ∀ operations : List DmOperation,
        ∀ mark ∈ operations.map Mark.operation, calm mark = true :=
      fun operations => List.forall_mem_map.mpr fun _ _ => rfl
    refine List.forall_mem_append.mpr ⟨hsection _, ?_⟩
    split
    · refine List.forall_mem_append.mpr ⟨?_, hsection _⟩
      simp [cmUncountMarks, hcount, calm]
    · simp
  · have hclosed := iotxCmClose_count w.table w.fd
    rw [uncounted, hcount] at hclosed
    have hzero : (dmClientClose w).table.initedConnNum = 0 := by
      refine hclosed.trans ?_
      split <;> rfl
    rw [hzero, hcount, cmCloseMarks, runFrom_append, count_operations]
    split
    · rw [runFrom_append, cmUncountMarks, hcount]
      exact count_operations _ _
    · rfl

theorem calm_dmMgrDeinit (w : World) : Adds calm w (dmMgrDeinit w) := calm_perform _ _

theorem calm_dmIpcDeinit (w : World) : Adds calm w (dmIpcDeinit w) := calm_perform _ _

theorem calm_dmMsgCacheDeinit (w : World) : Adds calm w (dmMsgCacheDeinit w) := by
  have hemptied : Adds calm w { w with cached := 0 } := adds_of_log _ rfl rfl
  exact ((hemptied.trans (calm_perform _ _)).trans (calm_perform _ _)).trans (calm_perform _ _)

/-- What unwinding does behind the client. -/
theorem calm_unwind (w : World) :
    Adds calm w ((dmMsgCacheDeinit (dmIpcDeinit (dmMgrDeinit w))).perform [.destroy .dmApi]) :=
  (((calm_dmMgrDeinit w).trans (calm_dmIpcDeinit _)).trans (calm_dmMsgCacheDeinit _)).trans
    (calm_perform _ _)

theorem calm_dmOpenError {w : World} (hcount : w.table.initedConnNum = 0) :
    Adds calm w (dmOpenError w) :=
  (calm_dmClientClose hcount).trans (calm_unwind _)

theorem calm_iotxDmOpen {w : World} (hcount : w.table.initedConnNum = 0)
    (outcome : OpenOutcome) : Adds calm w (iotxDmOpen w outcome).2 := by
  have hunwound : ∀ {reached : World}, Adds calm w reached →
      Adds calm w (dmOpenError reached) := by
    intro reached hreached
    exact hreached.trans (calm_dmOpenError (hreached.count.trans hcount))
  have hbegun := calm_perform w [.clear .dmApi, .create .dmApi (outcome.mutexOk .dmApi)]
  have hcache := hbegun.trans (calm_dmMsgCacheInit _ (outcome.mutexOk .dmMsgCache))
  have hipc := hcache.trans (calm_dmIpcInit _ (outcome.mutexOk .dmIpc))
  have hmgr := hipc.trans (calm_dmMgrInit _ (outcome.mutexOk .dmMgr) outcome.deviceOk)
  have hclient := hmgr.trans
    (calm_dmClientOpen _ outcome.mallocOk outcome.paramOk (outcome.mutexOk .fdLock))
  rw [iotxDmOpen]
  dsimp only
  split
  · exact hbegun
  · split
    · exact hunwound hcache
    · split
      · exact hunwound hipc
      · split
        · exact hunwound hmgr
        · split
          · exact hunwound hclient
          · exact hclient

/-- An open, whether it succeeds or unwinds, neither counts nor creates a thread. -/
theorem calm_masterOpen {w : World} (hcount : w.table.initedConnNum = 0)
    (outcome : OpenOutcome) : Adds calm w (iotxEnosMasterOpen w outcome).2 := by
  have hmutex := calm_perform w [.create .mutex (outcome.mutexOk .mutex)]
  have hupstream := hmutex.trans
    (calm_perform _ [.create .upstreamMutex (outcome.mutexOk .upstreamMutex)])
  have hcommand := hupstream.trans
    (calm_perform _ [.create .commandListMutex (outcome.mutexOk .commandListMutex)])
  have hopened := hcommand.trans (calm_iotxDmOpen (hcommand.count.trans hcount) outcome)
  rw [iotxEnosMasterOpen]
  dsimp only
  split
  · exact adds_of_log _ rfl rfl
  · split
    · exact hmutex
    · split
      · exact hupstream.trans (calm_perform _ _)
      · split
        · exact hcommand.trans (calm_perform _ _)
        · split
          · exact hopened.trans (calm_perform _ _)
          · exact (hopened.trans (adds_of_log _ rfl rfl)).trans (calm_perform _ _)

/-! ## Closing -/

/-- The wait of a close parts its marks: those before it may run beside a yield thread and
leave no connect counted, and those behind it do not count. -/
theorem close_awaits {w : World} (hopened : w.isOpened = true)
    (hvalid : (fdIsValid w.table w.fd).isSome) (hnonneg : 0 ≤ w.table.initedConnNum)
    (hone : w.table.initedConnNum ≤ 1) (answered : Nat) :
    ∃ before rest, (iotxEnosMasterClose w false answered).2.log =
        w.log ++ (before ++ .awaitLeave :: rest) ∧
      (∀ mark ∈ before, plain mark = true) ∧
      runFrom countStep w.table.initedConnNum before = 0 ∧
      (∀ mark ∈ rest, calm mark = true) ∧
      (iotxEnosMasterClose w false answered).2.table.initedConnNum = 0 := by
  let locked := World.perform
    { w with yieldRunning := false, cached := w.cached - answered } [.lock .mutex]
  have hzero : uncounted w.table = 0 := by
    rw [uncounted]
    omega
  have hclosed : Adds calm (dmClientClose locked)
      (iotxEnosMasterClose w false answered).2 := by
    have hisOpened : (!w.isOpened) = false := by rw [hopened]; rfl
    rw [iotxEnosMasterClose, if_neg (by decide)]
    dsimp only
    rw [hisOpened, if_neg (by decide)]
    exact ((calm_unwind _).trans (adds_of_log _ rfl rfl)).trans (calm_perform _ _)
  have hcount : (dmClientClose locked).table.initedConnNum = 0 :=
    (iotxCmClose_count w.table w.fd).trans ((if_pos hvalid).trans hzero)
  have hmarks : cmCloseMarks w.table w.fd =
      (fdSection.map .operation ++
        if w.table.initedConnNum > 0 then [.connNum 0] else []) ++
        .awaitLeave :: (cmReleaseOperations w.table w.fd).map .operation := by
    have huncount : cmUncountMarks w.table =
        (if w.table.initedConnNum > 0 then [.connNum 0] else []) ++ [.awaitLeave] := by
      change (if w.table.initedConnNum > 0 then [Mark.connNum (uncounted w.table)] else []) ++
        (if uncounted w.table = 0 then [Mark.awaitLeave] else []) = _
      rw [hzero, if_pos rfl]
    rw [cmCloseMarks, if_pos (lock_of_valid hvalid), if_pos hvalid, huncount]
    simp only [List.append_assoc, List.cons_append, List.nil_append]
  obtain ⟨marks, hlog, hcalm, -⟩ := id hclosed
  refine ⟨.operation (.lock .mutex) :: (fdSection.map .operation ++
      if w.table.initedConnNum > 0 then [.connNum 0] else []),
    (cmReleaseOperations w.table w.fd).map .operation ++ marks, ?_, ?_, ?_, ?_, ?_⟩
  · have hclient : (dmClientClose locked).log =
        w.log ++ [.operation (.lock .mutex)] ++ cmCloseMarks w.table w.fd := rfl
    rw [hlog, hclient, hmarks]
    simp only [List.append_assoc, List.cons_append, List.nil_append]
  · refine List.forall_mem_cons.mpr ⟨rfl, List.forall_mem_append.mpr ⟨by decide, ?_⟩⟩
    split <;> simp [plain]
  · rw [runFrom_cons, runFrom_append]
    change runFrom countStep (runFrom countStep w.table.initedConnNum _) _ = 0
    rw [count_operations]
    split
    · rfl
    · change w.table.initedConnNum = 0
      omega
  · exact List.forall_mem_append.mpr ⟨List.forall_mem_map.mpr fun _ _ => rfl, hcalm⟩
  · exact hclosed.count.trans hcount

/-- A close of a master that is not open adds calm marks. -/
theorem calm_masterClose {w : World} (hclosed : w.isOpened = false) (answered : Nat) :
    Adds calm w (iotxEnosMasterClose w false answered).2 := by
  have hisOpened : (!w.isOpened) = true := by rw [hclosed]; rfl
  have hstopped : Adds calm w
      { w with yieldRunning := false, cached := w.cached - answered } := adds_of_log _ rfl rfl
  rw [iotxEnosMasterClose, if_neg (by decide)]
  dsimp only
  rw [hisOpened, if_pos rfl]
  exact (hstopped.trans (calm_perform _ _)).trans (calm_perform _ _)

/-! ## Count and descriptor -/

/-- The count is that of an open master, whose descriptor is valid. -/
structure Kept (w : World) : Prop where
  nonneg : 0 ≤ w.table.initedConnNum
  closed : w.isOpened = false → w.table.initedConnNum = 0
  opened : w.isOpened = true → (fdIsValid w.table w.fd).isSome

/-- A world with the flags, the table and the log of another is kept. -/
theorem Kept.of_table {w w' : World} (hkept : Kept w) (hisOpened : w'.isOpened = w.isOpened)
    (htable : w'.table = w.table) (hfd : w'.fd = w.fd) : Kept w' := by
  refine ⟨?_, ?_, ?_⟩
  · rw [htable]
    exact hkept.nonneg
  · rw [htable, hisOpened]
    exact hkept.closed
  · rw [htable, hisOpened, hfd]
    exact hkept.opened

theorem kept_of_closed {w : World} (hclosed : Closed w) (hzero : w.table.initedConnNum = 0) :
    Kept w :=
  ⟨hzero.ge, fun _ => hzero,
    fun hopened => Bool.noConfusion (hclosed.isOpened.symm.trans hopened)⟩

/-- A descriptor that is returned is valid. -/
theorem getFd_valid {table : ConnectionTable} {handle : Nat} {mutexOk : Bool}
    (hfd : ¬ (getFd table handle mutexOk).1 < 0) :
    (fdIsValid (getFd table handle mutexOk).2 (getFd table handle mutexOk).1).isSome := by
  have hmutex : stateSysDependMutexCreate < 0 := by decide
  have hfound : stateDevModelCmFdNotFound < 0 := by decide
  revert hfd
  rw [getFd]
  split
  · exact fun hfd => absurd hmutex hfd
  · split
    · intro _
      simp [fdIsValid]
    · exact fun hfd => absurd hfound hfd

theorem iotxCmOpen_valid {table : ConnectionTable} {mallocOk paramOk mutexOk : Bool}
    (hfd : ¬ (iotxCmOpen table mallocOk paramOk mutexOk).1 < 0) :
    (fdIsValid (iotxCmOpen table mallocOk paramOk mutexOk).2
      (iotxCmOpen table mallocOk paramOk mutexOk).1).isSome := by
  have hfailed : stateDevModelCmOpenFailed < 0 := by decide
  revert hfd
  rw [iotxCmOpen]
  cases hopened : iotxCmOpenMqtt table mallocOk paramOk with
  | mk connection opened =>
      cases connection with
      | none => exact fun hfd => absurd hfailed hfd
      | some handle =>
          dsimp only
          split
          next hnegative => exact fun hfd => absurd hnegative hfd
          next hentered => exact fun _ => getFd_valid hentered

theorem dmClientOpen_valid {w : World} {mallocOk paramOk mutexOk : Bool}
    (hres : ¬ (dmClientOpen w mallocOk paramOk mutexOk).1 < successReturn) :
    (fdIsValid (dmClientOpen w mallocOk paramOk mutexOk).2.table
      (dmClientOpen w mallocOk paramOk mutexOk).2.fd).isSome := by
  revert hres
  rw [dmClientOpen]
  dsimp only
  split
  next hfailed => exact fun hres => absurd hfailed hres
  next hopened => exact fun _ => iotxCmOpen_valid hopened

theorem iotxDmOpen_valid {w : World} {outcome : OpenOutcome}
    (hres : (iotxDmOpen w outcome).1 = successReturn) :
    (fdIsValid (iotxDmOpen w outcome).2.table (iotxDmOpen w outcome).2.fd).isSome := by
  have hmutex : stateSysDependMutexCreate ≠ successReturn := by decide
  revert hres
  rw [iotxDmOpen]
  dsimp only
  split
  · exact fun hres => absurd hres hmutex
  · split
    next hcache => exact fun hres => absurd hres hcache
    · split
      next hipc => exact fun hres => absurd hres hipc
      · split
        next hmgr => exact fun hres => absurd hres hmgr
        · split
          next hclient => exact fun hres => absurd hclient hres.not_lt
          next hclient => exact fun _ => dmClientOpen_valid hclient

theorem kept_masterOpen {w : World} (hw : Closed w) (hkept : Kept w) {outcome : OpenOutcome}
    (hinits : outcome.CreatesMutexes → outcome.mutexOk .dmApi = true → outcome.InitsModules) :
    Kept (iotxEnosMasterOpen w outcome).2 := by
  have hzero := hkept.closed hw.isOpened
  have hcount := (calm_masterOpen hzero outcome).count.trans hzero
  refine ⟨hcount.ge, fun _ => hcount, ?_⟩
  by_cases hcreates : outcome.CreatesMutexes
  · obtain ⟨hlawful, hcreated, -⟩ := mutexesCreated_spec w
    have hopen := iotxDmOpen_opened (hlawful.mpr hw.lawful) (hcreated.matched hw.matched)
      (hw.spent.frame hcreated (by decide) (by decide)) (hinits hcreates)
    have hclosed : (iotxDmOpen (mutexesCreated w) outcome).2.isOpened = false :=
      hopen.frame.isOpened.trans (hcreated.isOpened.trans hw.isOpened)
    rw [masterOpen_creates hw.isOpened hcreates]
    dsimp only
    split
    next hfailed => exact fun hopened => absurd (hclosed.symm.trans hopened) (by decide)
    next hdone => exact fun _ => iotxDmOpen_valid (not_not.mp hdone)
  · have hclosed := (hw.masterOpen_fails hcreates).isOpened
    exact fun hopened => absurd (hclosed.symm.trans hopened) (by decide)

theorem fdIsValid_connect (table : ConnectionTable) (fd other : Int) (connectOk threadOk : Bool) :
    fdIsValid (iotxCmConnect table fd connectOk threadOk).2 other = fdIsValid table other := by
  rw [iotxCmConnect]
  split
  · rfl
  · dsimp only
    split
    · split
      · split <;> rfl
      · rfl
    · rfl

theorem iotxCmConnect_nonneg {table : ConnectionTable} (hnonneg : 0 ≤ table.initedConnNum)
    (fd : Int) (connectOk threadOk : Bool) :
    0 ≤ (iotxCmConnect table fd connectOk threadOk).2.initedConnNum := by
  rw [iotxCmConnect]
  split
  · exact hnonneg
  · dsimp only
    split
    · split
      · split
        · change 0 ≤ table.initedConnNum + 1
          omega
        · change 0 ≤ table.initedConnNum + 1 - 1
          omega
      · change 0 ≤ table.initedConnNum + 1
        omega
    · exact hnonneg

/-- A connect changes the table in `iotx_cm_connect` only. -/
theorem connect_table (w : World) (outcome : ConnectOutcome) :
    (iotEnosConnect w outcome).2.fd = w.fd ∧
      ((iotEnosConnect w outcome).2.table = w.table ∨
        (iotEnosConnect w outcome).2.table =
          (iotxCmConnect w.table w.fd outcome.connectOk outcome.threadOk).2) := by
  have hconnect : ∀ w, (iotxDmConnect w outcome).2.fd = w.fd ∧
      (iotxDmConnect w outcome).2.table =
        (iotxCmConnect w.table w.fd outcome.connectOk outcome.threadOk).2 := by
    intro w
    rw [iotxDmConnect]
    dsimp only
    split <;> exact ⟨rfl, rfl⟩
  have hsubscribe : ∀ w, (iotxDmSubscribe w outcome).2.fd = w.fd ∧
      (iotxDmSubscribe w outcome).2.table = w.table := by
    intro w
    rw [iotxDmSubscribe]
    dsimp only
    split <;> exact ⟨rfl, rfl⟩
  obtain ⟨hfd, htable⟩ := hconnect (w.perform [.lock .mutex])
  obtain ⟨hfd', htable'⟩ := hsubscribe (iotxDmConnect (w.perform [.lock .mutex]) outcome).2
  rw [iotEnosConnect]
  split
  · exact ⟨rfl, Or.inl rfl⟩
  · rw [iotxEnosMasterConnect]
    split
    · exact ⟨rfl, Or.inl rfl⟩
    · dsimp only
      split
      · exact ⟨hfd, Or.inr htable⟩
      · split <;> exact ⟨hfd'.trans hfd, Or.inr (htable'.trans htable)⟩

theorem kept_connect {w : World} (hw : Opened w) (hkept : Kept w) (outcome : ConnectOutcome) :
    Kept (iotEnosConnect w outcome).2 := by
  obtain ⟨hfd, htable⟩ := connect_table w outcome
  have hopened := (hw.connect outcome).isOpened
  have hvalid := hkept.opened hw.isOpened
  refine ⟨?_, fun hclosed => absurd (hclosed.symm.trans hopened) (by decide), fun _ => ?_⟩
  · rcases htable with hsame | hconnected
    · rw [hsame]
      exact hkept.nonneg
    · rw [hconnected]
      exact iotxCmConnect_nonneg hkept.nonneg _ _ _
  · rw [hfd]
    rcases htable with hsame | hconnected
    · rw [hsame]
      exact hvalid
    · rw [hconnected, fdIsValid_connect]
      exact hvalid

end EnosDeviceSdk.DevModel.Unwind
