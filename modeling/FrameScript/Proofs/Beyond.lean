import FrameScript.Proofs.Origins
import FrameScript.Proofs.Steps

set_option autoImplicit false

/-!
# Results beyond those declared

A frame has room for the declared results of its callable and no more. Only storing a result can
find that there is no room for it: neither the other uses of a frame nor any operation complains of
that. So a run that ends so comes to a task that is about to store a result, and finds no room.

## Main definitions

* `Task.StoresBeyond` — a task that is about to store a result for which there is no room.

## Main results

* `Task.Fails.storesBeyond` — a run that ends so comes to such a task.
-/

namespace FrameScript

open Exec

/-- The handlers of the native units of a program never complain of a result beyond those
declared. -/
def Program.NativesWithinReturns (p : Program) : Prop :=
  ∀ name unit, p.find? name = some (.native unit) → unit.handler.Has fun _ run => WithinReturns run

namespace Task

/-- The task is about to store a result, and there is no room for it. -/
inductive StoresBeyond : Task → Machine → Prop
  /-- A result of a body. -/
  | finish {s : Site} {index : Nat} {v w : Value} {vs : List Value} {m m' : Machine} {t : Stop}
    (h : (Exec.setReturn index w).on m = (.error t, m')) :
    StoresBeyond (.finish s index (v :: vs)) m
  /-- A result of a native unit. -/
  | store {unit : NativeUnit} {index : Nat} {v w : Value} {vs : List Value} {ty : Ty}
    {tys : List Ty} {m m' : Machine} {t : Stop}
    (h : (Exec.setReturn index w).on m = (.error t, m')) :
    StoresBeyond (.store unit index (v :: vs) (ty :: tys)) m

variable {p : Program} {rounds : Nat} {m m' : Machine} {f : Fault}

/-- A failure in a task that is begun on behalf of the task, if it is about a result. -/
theorem onBehalf_of_tracedWithin {task : Task} (hf : f.isBeyond = true)
    (h : task.TracedWithin p rounds m (.fault f) m') :
    ∃ task₂ m₂, Step p rounds task m task₂ m₂ ∧ task₂.Fails p rounds m₂ (.fault f) m' := by
  cases h with
  | itself hx hstack _ =>
    cases hx
    rw [Fault.isBeyond_of_isOfStack hstack] at hf
    cases hf
  | onFrame _ _ hwithin h =>
    rw [hwithin _ _ _ h] at hf
    cases hf
  | onBehalf hstep h => exact ⟨_, _, hstep, h⟩

section Beyond

variable (hf : f.isBeyond = true)

include hf

/-- What never complains of a result does not end so. -/
theorem not_withinReturns {α : Type} {x : Exec α} (hx : WithinReturns x) {m₁ : Machine}
    (h : x.on m₁ = (.error (.failed (.fault f)), m')) : False := by
  rw [hx m₁ m' f h] at hf
  cases hf

theorem finish_beyond {s : Site} {index : Nat} {vs : List Value}
    (h : (Task.finish s index vs).Fails p rounds m (.fault f) m') :
    (Task.finish s index vs).StoresBeyond m ∨
      ∃ task₂ m₂, Step p rounds (.finish s index vs) m task₂ m₂ ∧
        task₂.Fails p rounds m₂ (.fault f) m' := by
  change (writeResults s.function.sig.returns index vs).on m = _ at h
  cases vs with
  | nil => cases h
  | cons v vs =>
    rcases (bind_error m).mp h with h | ⟨w, m₁, hw, h⟩
    · exact (not_withinReturns hf (.ofExcept (OfOperations.bindAs _ v).stackFree) h).elim
    obtain ⟨hbind, rfl⟩ := (ofExcept_ok m).mp hw
    rcases (bind_error m).mp h with h | ⟨_, m₁, hset, h⟩
    · exact .inl (.finish h)
    · exact .inr ⟨_, _, .finished hbind hset, h⟩

theorem store_beyond {unit : NativeUnit} {index : Nat} {vs : List Value} {tys : List Ty}
    (h : (Task.store unit index vs tys).Fails p rounds m (.fault f) m') :
    (Task.store unit index vs tys).StoresBeyond m ∨
      ∃ task₂ m₂, Step p rounds (.store unit index vs tys) m task₂ m₂ ∧
        task₂.Fails p rounds m₂ (.fault f) m' := by
  change (storeResults unit index vs tys).on m = _ at h
  obtain _ | ⟨v, vs⟩ := vs
  · cases h
  obtain _ | ⟨ty, tys⟩ := tys
  · cases h
  rcases (bind_error m).mp h with h | ⟨w, m₁, hw, h⟩
  · exact (not_withinReturns hf (.ofExcept (OfCalls.nativeResult unit ty v).stackFree) h).elim
  obtain ⟨hresult, rfl⟩ := (ofExcept_ok m).mp hw
  rcases (bind_error m).mp h with h | ⟨_, m₁, hset, h⟩
  · exact .inl (.store h)
  · exact .inr ⟨_, _, .stored hresult hset, h⟩

/-- The last steps of a definition do not complain of a result. -/
theorem define_within {name : String} {ty : Ty} {slot? : Option Nat} {v : Value} {m₁ : Machine}
    (h : (do
      let slot ← slotOf name slot?
      let _ ← Exec.frame
      let w ← Exec.ofExcept (v.bind ty)
      setSlot slot w
      pure Flow.onward : Exec Flow).on m₁ = (.error (.failed (.fault f)), m')) : False := by
  rcases define_error h with ⟨y, -, hwithin, h⟩ | ⟨e, he, hx, -⟩
  · exact not_withinReturns hf hwithin h
  · cases hx
    rw [Fault.isBeyond_of_isOfStack ((OfOperations.valueBind ty v).stackFree f he)] at hf
    cases hf

/-- A task that fails because of its frame, and that about a result, is about to store it, or one
that is begun on its behalf fails so. -/
theorem UsesFrame.beyond {task : Task} {m₁ : Machine} (huses : task.UsesFrame p rounds m m₁)
    (h : task.Fails p rounds m (.fault f) m') :
    task.StoresBeyond m ∨
      ∃ task₂ m₂, Step p rounds task m task₂ m₂ ∧ task₂.Fails p rounds m₂ (.fault f) m' := by
  cases huses with
  | @read s x =>
    have hread : WithinReturns (slotOf x.name x.slot? >>= fun slot => getSlot slot) :=
      .bind (WithinReturns.slotOf _ _) fun _ => WithinReturns.getSlot _
    exact (not_withinReturns hf hread (drop_error.mp h)).elim
  | @write s v x =>
    have hwrite : WithinReturns (Target.write (s.code p rounds) v (.var x)) :=
      .bind (WithinReturns.slotOf _ _) fun _ =>
        .bind (WithinReturns.ofExcept (OfOperations.bindAs _ v).stackFree) fun _ =>
          WithinReturns.setSlot _ _
    exact (not_withinReturns hf hwrite h).elim
  | define => exact (define_within hf (drop_error.mp h)).elim
  | finish => exact finish_beyond hf h
  | store => exact store_beyond hf h
  | start =>
    rcases (bind_error m).mp (drop_error.mp h) with h | ⟨v, m₁, -, h⟩
    · exact .inr ⟨_, _, .start, drop_error.mpr h⟩
    · exact (define_within hf h).elim
  | result => exact .inr (onBehalf_of_tracedWithin hf (result_tracedWithin (drop_error.mp h)))
  | @handled levels unit run vs _ _ hrun hvs =>
    change unit.run.on m = _ at h
    rw [NativeUnit.run, hrun] at h
    replace h := (on_bind_ok hvs).symm.trans h
    rcases (bind_error _).mp h with h | ⟨g, m₂, hg, h⟩
    · exact (not_withinReturns hf .frame h).elim
    rw [on_frame] at hg
    split at hg <;> cases hg
    next hframes =>
    split at h
    · cases h
      cases hf
    next hcount => exact .inr ⟨_, _, .handled hrun hvs hframes (Nat.le_of_not_lt hcount), h⟩
  | callArg | callArgs | target | actionArg | actionArgs =>
    exact .inr (onBehalf_of_tracedWithin hf (results_tracedWithin h))

/-- A failure about a result comes up where the result is stored, or is one of a task on behalf of
the task. -/
theorem Fails.beyond {task : Task} (hnatives : p.NativesWithinReturns) (hlinked : task.Linked p)
    (h : task.Fails p rounds m (.fault f) m') :
    task.StoresBeyond m ∨
      ∃ task₂ m₂ m₂', Step p rounds task m task₂ m₂ ∧ task₂.Fails p rounds m₂ (.fault f) m₂' := by
  rcases fails_cases h with ⟨m₁, harises⟩ | ⟨task₂, m₂, m₂', hstep, hfails⟩
  · cases harises.onStack (Fault.isOfStack_of_isBeyond hf) with
    | frame hfails huses _ =>
      refine (huses.beyond hf hfails).imp_right fun ⟨task₂, m₂, hstep, hfails⟩ => ?_
      exact ⟨task₂, m₂, _, hstep, hfails⟩
    | frameGone | tooDeep => cases hf
    | @native _ unit _ _ _ hraises =>
      obtain ⟨name, hunit⟩ := hlinked
      have hwithin := hnatives name unit hunit
      refine absurd ?_ hraises
      cases hrun : unit.handler <;> rw [hrun] at hwithin <;>
        exact fun m' => not_withinReturns hf hwithin
  · exact .inr ⟨task₂, m₂, m₂', hstep, hfails⟩

/-- **A run that fails because of a result beyond those declared comes to a task that is about to
store one.**

**Proof sketch.** A task that fails so is about to store a result, or fails because of one on its
behalf (`Task.Fails.beyond`). Chains of such tasks are finite. -/
theorem Fails.storesBeyond {task : Task} (hnatives : p.NativesWithinReturns)
    (hlinked : task.Linked p) (h : task.Fails p rounds m (.fault f) m') :
    ∃ task₀ m₀, Reaches p rounds task m task₀ m₀ ∧ task₀.StoresBeyond m₀ := by
  induction task using step_induction p rounds generalizing m m' with
  | behalf task ih =>
    rcases h.beyond hf hnatives hlinked with hstores | ⟨task₂, m₂, m₂', hstep, hfails⟩
    · exact ⟨task, m, .start, hstores⟩
    · obtain ⟨task₀, m₀, hr, hstores⟩ := ih hstep (hstep.linked hlinked) hfails
      exact ⟨task₀, m₀, .of_step hstep hr, hstores⟩

end Beyond

end Task

end FrameScript
