/-
# Walking a list that others edit

A walker goes through a linked list with a cursor and visits the selected entries.
While it holds the list it moves from the cursor to the next selected entry; then it
lets go, visits the entry, and takes the list up again at the cursor's link. In
between, others append entries and erase entries. An entry is an identity: one that
was erased never comes back.

The link of an erased entry is nothing to go on from, so reading it makes the walk
undefined. The central fact is that one discipline decides everything: as long as
nobody erases the entry under the cursor, the walk is defined and visits every
selected entry that stays in the list exactly once.
-/

import EnosDeviceSdk.Library.Run
import Mathlib.Data.List.Nodup

namespace EnosDeviceSdk.Library

universe u v

variable {κ : Type u}

/-- Where the walker stands. At `reached` it has let go of the list in front of a
visit, at `visiting` behind it. -/
inductive WalkPhase (κ : Type u)
  | idle
  | reached (key : κ)
  | visiting (key : κ)
  | finished
  | undefined
  deriving DecidableEq

/-- The list, all entries it has ever had, the walker and its visits so far. -/
structure Walk (κ : Type u) where
  entries : List κ
  seen : List κ
  phase : WalkPhase κ
  visits : List κ
  deriving DecidableEq

/-- A step of the walker (`begin`, `visit`, `resume`) or of somebody else. -/
inductive WalkStep (κ : Type u)
  | begin
  | visit
  | resume
  | insert (key : κ)
  | erase (keep : κ → Bool)

/-- The entry under the cursor. -/
def WalkPhase.cursor : WalkPhase κ → Option κ
  | .reached key => some key
  | .visiting key => some key
  | _ => none

/-- Moving on to the first selected entry of a rest of the list. -/
def seek (selected : κ → Bool) (rest : List κ) : WalkPhase κ :=
  match rest.find? selected with
  | some key => .reached key
  | none => .finished

/-- An entry in the middle of a list without repetitions is nowhere else in it. -/
theorem not_mem_of_nodup_middle {front back : List κ} {key : κ}
    (hnodup : (front ++ key :: back).Nodup) : key ∉ front ∧ key ∉ back := by
  rw [List.nodup_middle, List.nodup_cons, List.mem_append, not_or] at hnodup
  exact hnodup.1

variable [DecidableEq κ]

/-- The entries linked behind an entry. -/
def behind (key : κ) (entries : List κ) : List κ := (entries.dropWhile (· ≠ key)).tail

/-- One step. An entry that the list has had before is not inserted again. -/
def walkStep (selected : κ → Bool) (walk : Walk κ) : WalkStep κ → Walk κ
  | .begin =>
      match walk.phase with
      | .idle => { walk with phase := seek selected walk.entries }
      | _ => walk
  | .visit =>
      match walk.phase with
      | .reached key =>
          if key ∈ walk.entries then
            { walk with phase := .visiting key, visits := walk.visits ++ [key] }
          else { walk with phase := .undefined }
      | _ => walk
  | .resume =>
      match walk.phase with
      | .visiting key =>
          if key ∈ walk.entries then
            { walk with phase := seek selected (behind key walk.entries) }
          else { walk with phase := .undefined }
      | _ => walk
  | .insert key =>
      if key ∈ walk.seen then walk
      else { walk with entries := walk.entries ++ [key], seen := walk.seen ++ [key] }
  | .erase keep => { walk with entries := walk.entries.filter keep }

/-- A walk that has not begun, over a list without repetitions. -/
def walkFrom (entries : List κ) : Walk κ := ⟨entries, entries, .idle, []⟩

/-- The step does not erase the entry under the cursor. -/
def KeepsCursor (walk : Walk κ) : WalkStep κ → Prop
  | .erase keep => ∀ key, walk.phase.cursor = some key → keep key = true
  | _ => True

theorem behind_append (front back : List κ) {key : κ} (hfront : key ∉ front) :
    behind key (front ++ key :: back) = back := by
  rw [behind, List.dropWhile_append_of_pos]
  · simp
  · intro other hother
    simpa using fun heq : other = key => hfront (heq ▸ hother)

/-- The list as the part the walker has passed, the entry under the cursor and the
part ahead, with the number of visits that each part has had. -/
def Passed (selected : κ → Bool) (walk : Walk κ) (key : κ) (count : Nat) : Prop :=
  ∃ front back, walk.entries = front ++ key :: back ∧
    (∀ entry ∈ front, selected entry → walk.visits.count entry = 1) ∧
    walk.visits.count key = count ∧
    ∀ entry ∈ back, walk.visits.count entry = 0

/-- How far a defined walk has come: entries passed have been visited once, entries
ahead not at all, and at the end nothing is left out of the entries it started with. -/
def Progress (selected : κ → Bool) (start : List κ) (walk : Walk κ) : Prop :=
  match walk.phase with
  | .idle => walk.visits = []
  | .reached key => Passed selected walk key 0
  | .visiting key => Passed selected walk key 1
  | .finished => ∀ entry ∈ walk.entries, entry ∈ start → selected entry →
      walk.visits.count entry = 1
  | .undefined => False

/-- The invariant of a walk whose cursor is never erased. -/
structure WalkInvariant (selected : κ → Bool) (start : List κ) (walk : Walk κ) : Prop where
  nodup : walk.entries.Nodup
  entries_seen : ∀ entry ∈ walk.entries, entry ∈ walk.seen
  visits_seen : ∀ entry ∈ walk.visits, entry ∈ walk.seen
  start_seen : ∀ entry ∈ start, entry ∈ walk.seen
  progress : Progress selected start walk

section Steps

variable {selected : κ → Bool} {start : List κ} {walk : Walk κ}

theorem walkInvariant_walkFrom {entries : List κ} (hnodup : entries.Nodup) :
    WalkInvariant selected entries (walkFrom entries) :=
  ⟨hnodup, fun _ hentry => hentry, by simp [walkFrom], fun _ hentry => hentry, rfl⟩

/-- Moving on through a rest of the list behind passed entries. -/
theorem seek_progress {front rest : List κ} (hentries : walk.entries = front ++ rest)
    (hfront : ∀ entry ∈ front, selected entry → walk.visits.count entry = 1)
    (hrest : ∀ entry ∈ rest, walk.visits.count entry = 0) :
    Progress selected start { walk with phase := seek selected rest } := by
  rw [seek]
  cases hfind : rest.find? selected with
  | some key =>
      obtain ⟨_, skipped, back, rfl, hskipped⟩ := List.find?_eq_some_iff_append.mp hfind
      refine ⟨front ++ skipped, back, by rw [hentries, List.append_assoc], ?_, ?_, ?_⟩
      · intro entry hentry hselected
        rcases List.mem_append.mp hentry with hpassed | hskip
        · exact hfront entry hpassed hselected
        · exact absurd hselected (by simpa using hskipped entry hskip)
      · exact hrest key (by simp)
      · exact fun entry hentry => hrest entry (by simp [hentry])
  | none =>
      intro entry hentry _ hselected
      simp only [hentries] at hentry
      rcases List.mem_append.mp hentry with hpassed | hlater
      · exact hfront entry hpassed hselected
      · exact absurd hselected (List.find?_eq_none.mp hfind entry hlater)

/-- The walker leaves list and history alone and moves on. -/
theorem WalkInvariant.withPhase (hinvariant : WalkInvariant selected start walk)
    {phase : WalkPhase κ}
    (hprogress : Progress selected start { walk with phase := phase }) :
    WalkInvariant selected start { walk with phase := phase } :=
  ⟨hinvariant.nodup, hinvariant.entries_seen, hinvariant.visits_seen, hinvariant.start_seen,
    hprogress⟩

theorem walkInvariant_begin (hinvariant : WalkInvariant selected start walk) :
    WalkInvariant selected start (walkStep selected walk .begin) := by
  rw [walkStep]
  cases hphase : walk.phase with
  | idle =>
      have hprogress := hinvariant.progress
      rw [Progress, hphase] at hprogress
      refine hinvariant.withPhase (seek_progress (List.nil_append _).symm (by simp) ?_)
      intro entry _
      simp [show walk.visits = [] from hprogress]
  | _ => exact hinvariant

theorem walkInvariant_visit (hinvariant : WalkInvariant selected start walk) :
    WalkInvariant selected start (walkStep selected walk .visit) := by
  rw [walkStep]
  cases hphase : walk.phase with
  | reached key =>
      have hprogress := hinvariant.progress
      rw [Progress, hphase] at hprogress
      obtain ⟨front, back, hentries, hfront, hkey, hback⟩ := hprogress
      have hmem : key ∈ walk.entries := by simp [hentries]
      have hapart := not_mem_of_nodup_middle (hentries ▸ hinvariant.nodup)
      simp only [hmem, if_true]
      refine ⟨hinvariant.nodup, hinvariant.entries_seen, ?_, hinvariant.start_seen,
        front, back, hentries, ?_, ?_, ?_⟩
      · intro entry hentry
        rcases List.mem_append.mp hentry with hold | hnew
        · exact hinvariant.visits_seen entry hold
        · exact List.mem_singleton.mp hnew ▸ hinvariant.entries_seen key hmem
      · intro entry hentry hselected
        have hne : key ≠ entry := fun heq => hapart.1 (heq ▸ hentry)
        simp [List.count_append, hfront entry hentry hselected, hne]
      · simp [List.count_append, hkey]
      · intro entry hentry
        have hne : key ≠ entry := fun heq => hapart.2 (heq ▸ hentry)
        simp [List.count_append, hback entry hentry, hne]
  | _ => exact hinvariant

theorem walkInvariant_resume (hinvariant : WalkInvariant selected start walk) :
    WalkInvariant selected start (walkStep selected walk .resume) := by
  rw [walkStep]
  cases hphase : walk.phase with
  | visiting key =>
      have hprogress := hinvariant.progress
      rw [Progress, hphase] at hprogress
      obtain ⟨front, back, hentries, hfront, hkey, hback⟩ := hprogress
      have hmem : key ∈ walk.entries := by simp [hentries]
      have hapart := not_mem_of_nodup_middle (hentries ▸ hinvariant.nodup)
      have hbehind : behind key walk.entries = back := by
        rw [hentries, behind_append front back hapart.1]
      simp only [hmem, if_true, hbehind]
      have hsplit : walk.entries = (front ++ [key]) ++ back := by simp [hentries]
      refine hinvariant.withPhase (seek_progress hsplit ?_ hback)
      intro entry hentry hselected
      rcases List.mem_append.mp hentry with hpassed | hcursor
      · exact hfront entry hpassed hselected
      · exact List.mem_singleton.mp hcursor ▸ hkey
  | _ => exact hinvariant

theorem walkInvariant_insert (hinvariant : WalkInvariant selected start walk) (key : κ) :
    WalkInvariant selected start (walkStep selected walk (.insert key)) := by
  rw [walkStep]
  by_cases hseen : key ∈ walk.seen
  · rwa [if_pos hseen]
  · rw [if_neg hseen]
    have hfresh : key ∉ walk.entries := fun hmem => hseen (hinvariant.entries_seen key hmem)
    have hnever : walk.visits.count key = 0 :=
      List.count_eq_zero.mpr fun hmem => hseen (hinvariant.visits_seen key hmem)
    have hpassed {cursor : κ} {count : Nat} (hold : Passed selected walk cursor count) :
        Passed selected
          { walk with entries := walk.entries ++ [key], seen := walk.seen ++ [key] } cursor
          count := by
      obtain ⟨front, back, hentries, hfront, hcursor, hback⟩ := hold
      refine ⟨front, back ++ [key], by simp [hentries], hfront, hcursor, ?_⟩
      intro entry hentry
      rcases List.mem_append.mp hentry with hlater | hnew
      · exact hback entry hlater
      · exact List.mem_singleton.mp hnew ▸ hnever
    refine ⟨?_, ?_, ?_, ?_, ?_⟩
    · rw [← List.concat_eq_append]
      exact hinvariant.nodup.concat hfresh
    · intro entry hentry
      simp only [List.mem_append, List.mem_singleton] at hentry ⊢
      exact hentry.imp (hinvariant.entries_seen entry) id
    · exact fun entry hentry => List.mem_append_left _ (hinvariant.visits_seen entry hentry)
    · exact fun entry hentry => List.mem_append_left _ (hinvariant.start_seen entry hentry)
    · have hprogress := hinvariant.progress
      rw [Progress] at hprogress ⊢
      cases hphase : walk.phase with
      | idle => simpa [hphase] using hprogress
      | reached cursor => simp only [hphase] at hprogress; exact hpassed hprogress
      | visiting cursor => simp only [hphase] at hprogress; exact hpassed hprogress
      | finished =>
          simp only [hphase] at hprogress
          intro entry hentry hstart hselected
          rcases List.mem_append.mp hentry with hold | hnew
          · exact hprogress entry hold hstart hselected
          · exact absurd (hinvariant.start_seen entry hstart)
              (List.mem_singleton.mp hnew ▸ hseen)
      | undefined => simp [hphase] at hprogress

theorem walkInvariant_erase (hinvariant : WalkInvariant selected start walk)
    {keep : κ → Bool} (hkeeps : KeepsCursor walk (.erase keep)) :
    WalkInvariant selected start (walkStep selected walk (.erase keep)) := by
  rw [walkStep]
  have hpassed {cursor : κ} {count : Nat} (hcursor : walk.phase.cursor = some cursor)
      (hold : Passed selected walk cursor count) :
      Passed selected { walk with entries := walk.entries.filter keep } cursor count := by
    obtain ⟨front, back, hentries, hfront, hkey, hback⟩ := hold
    refine ⟨front.filter keep, back.filter keep, ?_, ?_, hkey, ?_⟩
    · simp only [hentries, List.filter_append]
      rw [List.filter_cons_of_pos (hkeeps cursor hcursor)]
    · exact fun entry hentry => hfront entry (List.mem_of_mem_filter hentry)
    · exact fun entry hentry => hback entry (List.mem_of_mem_filter hentry)
  refine ⟨hinvariant.nodup.filter keep,
    fun entry hentry => hinvariant.entries_seen entry (List.mem_of_mem_filter hentry),
    hinvariant.visits_seen, hinvariant.start_seen, ?_⟩
  have hprogress := hinvariant.progress
  rw [Progress] at hprogress ⊢
  cases hphase : walk.phase with
  | idle => simpa [hphase] using hprogress
  | reached cursor =>
      simp only [hphase] at hprogress
      exact hpassed (by rw [hphase]; rfl) hprogress
  | visiting cursor =>
      simp only [hphase] at hprogress
      exact hpassed (by rw [hphase]; rfl) hprogress
  | finished =>
      simp only [hphase] at hprogress
      exact fun entry hentry => hprogress entry (List.mem_of_mem_filter hentry)
  | undefined => simp [hphase] at hprogress

/-- Every step that keeps the entry under the cursor keeps the invariant. -/
theorem walkInvariant_step (step : WalkStep κ) (hinvariant : WalkInvariant selected start walk)
    (hkeeps : KeepsCursor walk step) :
    WalkInvariant selected start (walkStep selected walk step) := by
  cases step with
  | begin => exact walkInvariant_begin hinvariant
  | visit => exact walkInvariant_visit hinvariant
  | resume => exact walkInvariant_resume hinvariant
  | insert key => exact walkInvariant_insert hinvariant key
  | erase keep => exact walkInvariant_erase hinvariant hkeeps

/-- The walk is defined, and once it is over it has visited every selected entry it
started with and that is still in the list exactly once. -/
def WalkRight (selected : κ → Bool) (start : List κ) (walk : Walk κ) : Prop :=
  walk.phase ≠ .undefined ∧
    (walk.phase = .finished → ∀ entry ∈ walk.entries, entry ∈ start → selected entry →
      walk.visits.count entry = 1)

theorem WalkInvariant.walkRight (hinvariant : WalkInvariant selected start walk) :
    WalkRight selected start walk := by
  have hprogress := hinvariant.progress
  refine ⟨fun hphase => ?_, fun hphase => ?_⟩
  · rwa [Progress, hphase] at hprogress
  · rwa [Progress, hphase] at hprogress

/-! ## A lost cursor -/

/-- The entry under the cursor has been erased, or the walk has gone on from it. -/
def Lost (walk : Walk κ) : Prop :=
  walk.phase = .undefined ∨
    ∃ key, walk.phase.cursor = some key ∧ key ∉ walk.entries ∧ key ∈ walk.seen

/-- A lost cursor stays lost. -/
theorem lost_step (step : WalkStep κ) (hlost : Lost walk) :
    Lost (walkStep selected walk step) := by
  rcases hlost with hundefined | ⟨key, hcursor, hgone, hseen⟩
  · refine Or.inl ?_
    cases step with
    | insert other =>
        rw [walkStep]
        split
        · exact hundefined
        · exact hundefined
    | erase keep => exact hundefined
    | _ => simp [walkStep, hundefined]
  · cases step with
    | insert other =>
        rw [walkStep]
        split
        · exact Or.inr ⟨key, hcursor, hgone, hseen⟩
        · next hnew =>
            have hne : key ≠ other := fun heq => hnew (heq ▸ hseen)
            exact Or.inr ⟨key, hcursor, by simp [hgone, hne], by simp [hseen]⟩
    | erase keep =>
        exact Or.inr ⟨key, hcursor, fun hmem => hgone (List.mem_of_mem_filter hmem), hseen⟩
    | _ =>
        cases hphase : walk.phase with
        | reached other =>
            obtain rfl : other = key := by simpa [hphase, WalkPhase.cursor] using hcursor
            simp [walkStep, hphase, hgone, Lost, WalkPhase.cursor, hseen]
        | visiting other =>
            obtain rfl : other = key := by simpa [hphase, WalkPhase.cursor] using hcursor
            simp [walkStep, hphase, hgone, Lost, WalkPhase.cursor, hseen]
        | _ => simp [hphase, WalkPhase.cursor] at hcursor

/-- Under the invariant the entry under the cursor is in the list. -/
theorem WalkInvariant.cursor_mem (hinvariant : WalkInvariant selected start walk) {key : κ}
    (hcursor : walk.phase.cursor = some key) : key ∈ walk.entries := by
  have hprogress := hinvariant.progress
  cases hphase : walk.phase with
  | reached other =>
      obtain rfl : other = key := by simpa [hphase, WalkPhase.cursor] using hcursor
      rw [Progress, hphase] at hprogress
      obtain ⟨front, back, hentries, _⟩ := hprogress
      simp [hentries]
  | visiting other =>
      obtain rfl : other = key := by simpa [hphase, WalkPhase.cursor] using hcursor
      rw [Progress, hphase] at hprogress
      obtain ⟨front, back, hentries, _⟩ := hprogress
      simp [hentries]
  | _ => simp [hphase, WalkPhase.cursor] at hcursor

/-- A step that does not keep the entry under the cursor loses it. -/
theorem lost_of_not_keepsCursor (step : WalkStep κ)
    (hinvariant : WalkInvariant selected start walk) (hbreaks : ¬ KeepsCursor walk step) :
    Lost (walkStep selected walk step) := by
  cases step with
  | erase keep =>
      simp only [KeepsCursor, not_forall] at hbreaks
      obtain ⟨key, hcursor, hkeep⟩ := hbreaks
      refine Or.inr ⟨key, hcursor, fun hmem => hkeep (List.of_mem_filter hmem), ?_⟩
      exact hinvariant.entries_seen key (hinvariant.cursor_mem hcursor)
  | _ => exact absurd trivial hbreaks

end Steps

/-! ## Runs -/

/-- The walker is done, one way or the other. -/
def WalkPhase.Over (phase : WalkPhase κ) : Prop := phase = .finished ∨ phase = .undefined

/-- A machine whose steps are steps of a walk, or change nothing. `keeps` says which of
its steps keep the entry under the cursor. -/
def StepsAsWalk {α : Type v} (selected : κ → Bool) (step : Walk κ → α → Walk κ)
    (keeps : Walk κ → α → Prop) : Prop :=
  ∀ walk action, step walk action = walk ∧ keeps walk action ∨
    ∃ walkAction, step walk action = walkStep selected walk walkAction ∧
      (keeps walk action ↔ KeepsCursor walk walkAction)

section Runs

variable {α : Type v} {selected : κ → Bool} {start : List κ} {walk : Walk κ}
  {step : Walk κ → α → Walk κ} {keeps : Walk κ → α → Prop}

theorem StepsAsWalk.invariant (hstep : StepsAsWalk selected step keeps) (walk : Walk κ)
    (action : α) (hinvariant : WalkInvariant selected start walk)
    (hkeeps : keeps walk action) : WalkInvariant selected start (step walk action) := by
  rcases hstep walk action with ⟨hsame, _⟩ | ⟨walkAction, hwalk, hkeepsIff⟩
  · rwa [hsame]
  · rw [hwalk]
    exact walkInvariant_step walkAction hinvariant (hkeepsIff.mp hkeeps)

theorem StepsAsWalk.lost (hstep : StepsAsWalk selected step keeps) (walk : Walk κ)
    (action : α) (hlost : Lost walk) : Lost (step walk action) := by
  rcases hstep walk action with ⟨hsame, _⟩ | ⟨walkAction, hwalk, _⟩
  · rwa [hsame]
  · rw [hwalk]
    exact lost_step walkAction hlost

/-- A run in which some step erases the entry under the cursor ends with a lost one. -/
theorem StepsAsWalk.lost_of_not_stepsMeet (hstep : StepsAsWalk selected step keeps)
    (hinvariant : WalkInvariant selected start walk) {actions : List α}
    (hbreaks : ¬ StepsMeet step keeps walk actions) : Lost (runFrom step walk actions) := by
  induction actions generalizing walk with
  | nil => exact absurd trivial hbreaks
  | cons action rest ih =>
      by_cases hkeeps : keeps walk action
      · refine ih (hstep.invariant walk action hinvariant hkeeps) fun hrest => ?_
        exact hbreaks ⟨hkeeps, hrest⟩
      · have hlost : Lost (step walk action) := by
          rcases hstep walk action with ⟨_, hmeets⟩ | ⟨walkAction, hwalk, hkeepsIff⟩
          · exact absurd hmeets hkeeps
          · rw [hwalk]
            exact lost_of_not_keepsCursor walkAction hinvariant (mt hkeepsIff.mpr hkeeps)
        exact invariant_runFrom hstep.lost hlost rest

/-- The walk is right throughout a run that never erases the entry under the cursor. -/
theorem StepsAsWalk.walkRight_always (hstep : StepsAsWalk selected step keeps)
    {entries : List κ} (hnodup : entries.Nodup) {actions : List α}
    (hmeet : StepsMeet step keeps (walkFrom entries) actions) :
    Always step (WalkRight selected entries) (walkFrom entries) actions :=
  (always_of_stepsMeet hstep.invariant (walkInvariant_walkFrom hnodup) hmeet).mono
    fun _ => WalkInvariant.walkRight

/-- Conversely, a walk that is over and right never had its cursor erased. -/
theorem StepsAsWalk.stepsMeet_of_walkRight (hstep : StepsAsWalk selected step keeps)
    {entries : List κ} (hnodup : entries.Nodup) {actions : List α}
    (hover : (runFrom step (walkFrom entries) actions).phase.Over)
    (hright : WalkRight selected entries (runFrom step (walkFrom entries) actions)) :
    StepsMeet step keeps (walkFrom entries) actions := by
  by_contra hbreaks
  have hlost := hstep.lost_of_not_stepsMeet
    (@walkInvariant_walkFrom _ _ selected _ hnodup) hbreaks
  rcases hlost with hundefined | ⟨key, hcursor, _⟩
  · exact hright.1 hundefined
  · rcases hover with hfinished | hundefined
    · simp [hfinished, WalkPhase.cursor] at hcursor
    · exact hright.1 hundefined

end Runs

end EnosDeviceSdk.Library
