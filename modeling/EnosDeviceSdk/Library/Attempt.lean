/-
# Code over a state that may give up

A piece of code works on a state. It comes to a result, or it gives up and leaves the state as it
is at that moment, or it goes astray. A caller goes on with a result only.

The contract of a piece says what holds of the state in either case, and what must be the matter
if it goes astray. The contract of a sequence comes from those of its parts.
-/

import EnosDeviceSdk.Library.Reading

namespace EnosDeviceSdk.Library

universe u

/-- Code over a state that may give up. -/
def Attempt (σ α : Type u) : Type u := σ → Outcome (Option α × σ)

namespace Attempt

variable {σ α β : Type u}

/-- What comes next is done with the result, if there is one. -/
protected def bind (first : Attempt σ α) (next : α → Attempt σ β) : Attempt σ β := fun state =>
  first state >>= fun
    | (some value, after) => next value after
    | (none, after) => .ok (none, after)

instance : Monad (Attempt σ) where
  pure value := fun state => .ok (some value, state)
  bind := Attempt.bind

/-- The code gives up. -/
def giveUp : Attempt σ α := fun state => .ok (none, state)

/-- The state is looked at. -/
def look : Attempt σ σ := fun state => .ok (some state, state)

/-- The state is changed. -/
def change (update : σ → σ) : Attempt σ PUnit := fun state => .ok (some ⟨⟩, update state)

/-- The state is changed by something that may go astray. -/
def attempt (update : σ → Outcome (α × σ)) : Attempt σ α := fun state => do
  let (value, after) ← update state
  return (some value, after)

/-- What the code leaves: a result and a state as promised, a state to drop, or nothing to speak
of. -/
def Meets (code : Attempt σ α) (state : σ) (done : α → σ → Prop) (dropped : σ → Prop)
    (astray : Prop) : Prop :=
  match code state with
  | .ok (some value, after) => done value after
  | .ok (none, after) => dropped after
  | .stray => astray
  | .failed => False
  | .running => False

variable {state : σ} {done : α → σ → Prop} {dropped : σ → Prop} {astray : Prop}

theorem meets_of_eq {code : Attempt σ α} {value : α} {after : σ}
    (hcode : code state = .ok (some value, after)) (hdone : done value after) :
    code.Meets state done dropped astray := by
  rw [Meets, hcode]
  exact hdone

theorem meets_pure {value : α} (hdone : done value state) :
    (pure value : Attempt σ α).Meets state done dropped astray := hdone

theorem meets_giveUp (hdropped : dropped state) :
    (giveUp : Attempt σ α).Meets state done dropped astray := hdropped

theorem meets_change {update : σ → σ} {done : PUnit → σ → Prop} (hdone : done ⟨⟩ (update state)) :
    (change update).Meets state done dropped astray := hdone

/-- The contract of a sequence, from the contracts of its parts. -/
theorem Meets.bind {between : α → σ → Prop} {done : β → σ → Prop} {first : Attempt σ α}
    {next : α → Attempt σ β} (hfirst : first.Meets state between dropped astray)
    (hnext : ∀ value after, between value after → (next value).Meets after done dropped astray) :
    (first >>= next).Meets state done dropped astray := by
  have hbind : (first >>= next) state = first state >>= fun
      | (some value, after) => next value after
      | (none, after) => .ok (none, after) := rfl
  unfold Meets at hfirst ⊢
  rw [hbind]
  cases hcode : first state with
  | ok result =>
      obtain ⟨_ | value, after⟩ := result
      · rw [hcode] at hfirst
        exact hfirst
      · rw [hcode] at hfirst
        exact hnext value after hfirst
  | failed | stray | running =>
      rw [hcode] at hfirst
      exact hfirst

/-- A part whose result is known. -/
theorem meets_bind_of_eq {done : β → σ → Prop} {first : Attempt σ α} {next : α → Attempt σ β}
    {value : α} {after : σ} (hfirst : first state = .ok (some value, after))
    (hnext : (next value).Meets after done dropped astray) :
    (first >>= next).Meets state done dropped astray := by
  have hbetween : first.Meets state (fun found there => found = value ∧ there = after) dropped
      astray := meets_of_eq hfirst ⟨rfl, rfl⟩
  apply hbetween.bind
  rintro _ _ ⟨rfl, rfl⟩
  exact hnext

/-- A part that goes astray. -/
theorem meets_bind_of_stray {done : β → σ → Prop} {first : Attempt σ α} {next : α → Attempt σ β}
    (hfirst : first state = .stray) (hastray : astray) :
    (first >>= next).Meets state done dropped astray := by
  have hbetween : first.Meets state (fun _ _ => False) dropped astray := by
    rw [Meets, hfirst]
    exact hastray
  exact hbetween.bind fun _ _ hnone => hnone.elim

/-- A contract that promises less. -/
theorem Meets.mono {done' : α → σ → Prop} {dropped' : σ → Prop} {astray' : Prop}
    {code : Attempt σ α} (hcode : code.Meets state done dropped astray)
    (hdone : ∀ value after, done value after → done' value after)
    (hdropped : ∀ after, dropped after → dropped' after) (hastray : astray → astray') :
    code.Meets state done' dropped' astray' := by
  unfold Meets at hcode ⊢
  cases hresult : code state with
  | ok result =>
      obtain ⟨_ | value, after⟩ := result
      · rw [hresult] at hcode
        exact hdropped after hcode
      · rw [hresult] at hcode
        exact hdone value after hcode
  | stray =>
      rw [hresult] at hcode
      exact hastray hcode
  | failed | running =>
      rw [hresult] at hcode
      exact hcode

/-- The promise about a result may be weaker. -/
theorem Meets.imp {done' : α → σ → Prop} {code : Attempt σ α}
    (hcode : code.Meets state done dropped astray)
    (hdone : ∀ value after, done value after → done' value after) :
    code.Meets state done' dropped astray :=
  hcode.mono hdone (fun _ hdropped => hdropped) id

/-- The state is looked at, and the code goes on with what it saw. -/
theorem meets_look_bind {next : σ → Attempt σ α}
    (hnext : (next state).Meets state done dropped astray) :
    (look >>= next).Meets state done dropped astray := hnext

end Attempt

end EnosDeviceSdk.Library
