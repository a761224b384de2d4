import FrameScript.Proofs.Closed
import FrameScript.Proofs.Loading
import FrameScript.Proofs.Run

set_option autoImplicit false

/-!
# Properties that every task has

What holds of all steps of bodies and of the native units of a program holds of every task of its
runs: of the computation that does the task, and of the way from the state in which a task is begun
to the states in which others are begun on its behalf.

## Main definitions

* `Task.levels?` — how many levels the calls of a task have left.
* `Task.Linked` — a task that calls or runs a callable of the program.

## Main results

* `Exec.Closed.exec_task` — a closed property of all calls is one of every task.
* `Task.Step.leads` — what relates the two ends of all computations with a closed property relates
  the two states of a step.
-/

namespace FrameScript

open Exec

namespace Task

/-- How many levels the calls made on behalf of a task have left, the task itself if it is one. -/
def levels? : Task → Option Nat
  | .call levels _ _ | .dispatch levels _ => some levels
  | .store _ _ _ _ => none
  | .block s _ | .stmt s _ | .loop s _ _ _ | .finish s _ _ | .write s _ _ | .eval s _
  | .results s _ => some s.levels

/-- The callable that a task calls or runs is one of the program. -/
def Linked (p : Program) : Task → Prop
  | .call _ unit _ | .dispatch _ unit => ∃ name, p.find? name = some unit
  | _ => True

variable {p : Program} {rounds : Nat}

/-- Tasks that are begun on behalf of others call and run callables of the program. -/
theorem Step.linked {task₁ task₂ : Task} {m₁ m₂ : Machine} (h : Step p rounds task₁ m₁ task₂ m₂)
    (hlinked : task₁.Linked p) : task₂.Linked p := by
  cases h with
  | call => exact hlinked
  | called hunit => exact ⟨_, Program.find?_of_resolve hunit⟩
  | acted _ _ _ _ hunit => exact ⟨_, Program.find?_of_resolve hunit⟩
  | _ => trivial

theorem Reaches.linked {task task' : Task} {m m' : Machine}
    (h : Reaches p rounds task m task' m') (hlinked : task.Linked p) : task'.Linked p :=
  h.invariant (fun _ _ _ _ hlinked hstep => hstep.linked hlinked) (I := fun task _ => task.Linked p)
    hlinked

end Task

section

variable {P : (α : Type) → Exec α → Prop} (h : Closed P) {p : Program} {rounds : Nat}
  (hhandler : ∀ name unit, p.find? name = some (.native unit) → unit.handler.Has P)
  {task : Task} (hlinked : task.Linked p)
  (hcall : ∀ levels, task.levels? = some levels → ∀ name unit, p.find? name = some unit →
    ∀ args, P (List Value) (FrameScript.call p rounds levels unit args))

include h hhandler hlinked hcall

/-- A closed property of the calls and of the native units is one of the computation of every
task. -/
theorem Exec.Closed.exec_task (hframe : P Frame frame) : P Unit (task.exec p rounds) := by
  have hserved {s : Site} (hs : task.levels? = some s.levels) :
      ∀ name unit, p.resolve name = .ok unit →
        ∀ args, P (List Value) ((s.code p rounds).call unit args) :=
    fun name unit hunit args => hcall s.levels hs name unit (Program.find?_of_resolve hunit) args
  cases task with
  | call levels unit args =>
    obtain ⟨name, hunit⟩ := hlinked
    exact h.bind (hcall levels rfl name unit hunit args) fun _ => h.pure ()
  | dispatch levels unit =>
    obtain ⟨name, hunit⟩ := hlinked
    cases unit with
    | native u => exact h.native_run hframe (hhandler name u hunit)
    | function f => exact h.run (hserved (s := ⟨levels, f⟩) rfl)
  | store unit index vs tys => exact h.congruence.storeResults unit index vs tys
  | block s ss => exact h.bind (h.execBlock (hserved rfl) ss) fun _ => h.pure ()
  | stmt s st => exact h.bind (h.exec (hserved rfl) st) fun _ => h.pure ()
  | loop s cond body n => exact h.bind (h.runLoop (hserved rfl) cond body n) fun _ => h.pure ()
  | finish s index vs => exact h.congruence.writeResults _ index vs
  | write s v target => exact h.write (hserved rfl) v target
  | eval s e => exact h.bind (h.eval (hserved rfl) e) fun _ => h.pure ()
  | results s e => exact h.bind (h.results (hserved rfl) e) fun _ => h.pure ()

/-- What relates the two ends of every computation with a closed property relates the states in
which a task that is no call and one on its behalf are begun. -/
theorem Task.Step.leads {r : Machine → Machine → Prop}
    (hr : ∀ {α : Type} {x : Exec α} {m m' : Machine} {a : α}, P α x → x.on m = (.ok a, m') → r m m')
    (hrefl : ∀ m, r m m) (htrans : ∀ {m₁ m₂ m₃}, r m₁ m₂ → r m₂ m₃ → r m₁ m₃)
    {task' : Task} {m m' : Machine} (hstep : Task.Step p rounds task m task' m')
    (hnot : ∀ levels unit args, task ≠ .call levels unit args) : r m m' := by
  have hserved {s : Site} (hs : task.levels? = some s.levels) :
      ∀ name unit, p.resolve name = .ok unit →
        ∀ args, P (List Value) ((s.code p rounds).call unit args) :=
    fun name unit hunit args => hcall s.levels hs name unit (Program.find?_of_resolve hunit) args
  have hset {index : Nat} {v : Value} {m m' : Machine}
      (hset : (Exec.setTemp index v).on m = (.ok (), m')) : r m m' :=
    hr (h.setTemp trivial v) hset
  have htake {stage count : Nat} {vs : List Value} {m m' : Machine}
      (hvs : (takeStaged stage count).on m = (.ok vs, m')) : r m m' :=
    hr (h.congruence.takeStaged stage count fun _ _ => trivial) hvs
  cases hstep with
  | call => exact absurd rfl (hnot _ _ _)
  | handled hrun hvs | mapped hrun hvs =>
    obtain ⟨name, hunit⟩ := hlinked
    have hhas := hhandler name _ hunit
    rw [hrun] at hhas
    exact hr hhas hvs
  | stored _ hset | finished _ hset => exact hr (h.setReturn _ _) hset
  | inBlock hbefore => exact hr (h.execBlock (hserved rfl) _) hbefore
  | written hv => exact hr (h.eval (hserved rfl) _) hv
  | writtenEach _ hvalues _ _ hwritten =>
    exact htrans (hr (h.results (hserved rfl) _) hvalues)
      (hr (h.writeAll (hserved rfl) _ _) hwritten)
  | chosen hcond | roundBody hcond => exact hr (h.holds (hserved rfl) _) hcond
  | round hcond hbody =>
    exact htrans (hr (h.holds (hserved rfl) _) hcond) (hr (h.execBlock (hserved rfl) _) hbody)
  | resultEach _ hbefore | connectorArg hbefore =>
    exact hr (h.evalArgs (hserved rfl) _) hbefore
  | result hvs => exact hr (h.resultValues (hserved rfl) _) hvs
  | writeKey hbase | key hbase => exact hr (h.eval (hserved rfl) _) hbase
  | callArg _ hbefore => exact hr (h.stageArgs (hserved rfl) _ _) hbefore
  | called _ hargs hvs => exact htrans (hr (h.stageArgs (hserved rfl) _ _) hargs) (htake hvs)
  | actionArg htarget _ hstaged hbefore =>
    have hconnector := htrans (hr (h.eval (hserved rfl) _) htarget) (hset hstaged)
    exact htrans hconnector (hr (h.stageArgs (hserved rfl) _ _) hbefore)
  | acted htarget _ hstaged hargs _ hvs =>
    have hconnector := htrans (hr (h.eval (hserved rfl) _) htarget) (hset hstaged)
    exact htrans hconnector (htrans (hr (h.stageArgs (hserved rfl) _ _) hargs) (htake hvs))
  | item hbefore => exact hr (h.evalItems (hserved rfl) _ _) hbefore
  | entry hbefore => exact hr (h.evalEntries (hserved rfl) _) hbefore
  | fieldValue _ hbefore => exact hr (h.evalFields (hserved rfl) _ _ _) hbefore
  | right hleft => exact hr (h.eval (hserved rfl) _) hleft
  | _ => exact hrefl _

end

end FrameScript
