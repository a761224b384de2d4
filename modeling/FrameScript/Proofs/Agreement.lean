import FrameScript.Proofs.Placement
import FrameScript.Proofs.Simulates

set_option autoImplicit false
set_option linter.unusedSectionVars false

/-!
# Bodies on frames and reference runs

A placed body that runs on a frame ends as the reference run of the body does, in any way to keep
variables that follows the slots of the frame. The arguments that a call stages in the frame are, in
the end, the list that the reference run hands over.

## Main definitions

* `Frame.RestagedFrom` — a frame with other staged values from some place on.
* `Mirrors` — environments whose variables have the values of the slots.
* `Tracking` — a way to keep variables that follows the slots through all changes.

## Main results

* `eval_simulates`, `results_simulates` — expressions.
* `exec_simulates`, `run_simulates` — statements and whole bodies.

## Design

An expression leaves the slots alone, so what is said about it needs no more than that variables can
be read. Its calls stage from some place on; staged values below belong to calls that wait, and they
are still there afterwards.
-/

namespace FrameScript

open Exec

variable {α β γ δ σ : Type}

/-! ## Staged values -/

/-- The frame is another one with other staged values from `base` on, and as many of them. -/
def Frame.RestagedFrom (g : Frame) (base : Nat) (f : Frame) : Prop :=
  ∃ temps, g = { f with temps } ∧ temps.length = f.temps.length ∧
    ∀ i < base, temps[i]? = f.temps[i]?

namespace Frame.RestagedFrom

variable {f g h : Frame} {base base' : Nat}

theorem refl (base : Nat) (f : Frame) : f.RestagedFrom base f :=
  ⟨f.temps, rfl, rfl, fun _ _ => rfl⟩

theorem trans (hg : g.RestagedFrom base f) (hh : h.RestagedFrom base g) :
    h.RestagedFrom base f := by
  obtain ⟨temps, rfl, hlength, hbelow⟩ := hg
  obtain ⟨temps', rfl, hlength', hbelow'⟩ := hh
  exact ⟨temps', rfl, hlength'.trans hlength, fun i hi => (hbelow' i hi).trans (hbelow i hi)⟩

theorem weaken (hg : g.RestagedFrom base' f) (hbase : base ≤ base') : g.RestagedFrom base f := by
  obtain ⟨temps, rfl, hlength, hbelow⟩ := hg
  exact ⟨temps, rfl, hlength, fun i hi => hbelow i (Nat.lt_of_lt_of_le hi hbase)⟩

theorem length (hg : g.RestagedFrom base f) : g.temps.length = f.temps.length := by
  obtain ⟨temps, rfl, hlength, -⟩ := hg
  exact hlength

theorem getElem? (hg : g.RestagedFrom base f) {i : Nat} (hi : i < base) :
    g.temps[i]? = f.temps[i]? := by
  obtain ⟨temps, rfl, -, hbelow⟩ := hg
  exact hbelow i hi

/-- A change at one place is a change from there on. -/
theorem set (f : Frame) {index : Nat} (hindex : base ≤ index) (v? : Option Value) :
    ({ f with temps := f.temps.set index v? } : Frame).RestagedFrom base f :=
  ⟨_, rfl, List.length_set, fun i hi => List.getElem?_set_ne (by omega)⟩

end Frame.RestagedFrom

/-- A list that starts as another one does from a place on has its first element there. -/
theorem cons_prefix_drop_of {a : α} {as bs : List α} {n : Nat} (ha : bs[n]? = some a)
    (h : as <+: bs.drop (n + 1)) : a :: as <+: bs.drop n := by
  obtain ⟨hn, ha⟩ := List.getElem?_eq_some_iff.mp ha
  rw [List.drop_eq_getElem_cons hn, ha]
  exact (List.prefix_cons_inj a).mpr h

/-- The relation of equal values that come with other staged values from `base` on. -/
def Evaluated (base : Nat) (f f' : Frame) (a b : α) (g g' : Frame) : Prop :=
  a = b ∧ g.RestagedFrom base f ∧ g' = f'

/-- The relation of a number of values with a frame in which they are staged from `stage` on. -/
def StagedAs (stage count : Nat) (f f' : Frame) (_ : Unit) (vs : List Value) (g g' : Frame) :
    Prop :=
  g.RestagedFrom stage f ∧ vs.length = count ∧ vs.map some <+: g.temps.drop stage ∧ g' = f'

namespace Simulates

variable {E : Stop → Prop} {f f' : Frame} {base : Nat}

theorem evaluated {x y : Exec α} (h : Simulates E f f' x y (Unchanged f f')) :
    Simulates E f f' x y (Evaluated base f f') := by
  refine h.weaken fun a b g g' hab => ?_
  obtain ⟨rfl, rfl, rfl⟩ := hab
  exact ⟨rfl, .refl base g, rfl⟩

/-- Evaluations follow one another. -/
theorem andThen {x y : Exec α} {F G : α → Exec β}
    (hxy : Simulates E f f' x y (Evaluated base f f'))
    (hFG : ∀ a g, g.RestagedFrom base f → Simulates E g f' (F a) (G a) (Evaluated base g f')) :
    Simulates E f f' (x >>= F) (y >>= G) (Evaluated base f f') := by
  refine hxy.bind fun a b g g' hab => ?_
  obtain ⟨rfl, hg, rfl⟩ := hab
  refine (hFG a g hg).weaken fun c d h h' hcd => ?_
  obtain ⟨rfl, hh, rfl⟩ := hcd
  exact ⟨rfl, hg.trans hh, rfl⟩

/-- What is staged from a place on can be taken out again. -/
theorem takeTemps_bind {stage : Nat} {vs : List Value} {F : List Value → Exec α} {y : Exec β}
    {Q : α → β → Frame → Frame → Prop} (hvs : vs.map some <+: f.temps.drop stage)
    (h : ∀ g, g.RestagedFrom stage f → Simulates E g f' (F vs) y Q) :
    Simulates E f f' (takeTemps stage vs.length >>= F) y Q := by
  induction vs generalizing stage f F with
  | nil =>
    rw [List.length_nil, takeTemps, pure_bind]
    exact h f (.refl stage f)
  | cons v vs ih =>
    rw [List.map_cons] at hvs
    obtain ⟨hv, hrest⟩ := cons_prefix_drop hvs
    simp only [List.length_cons, takeTemps, bind_assoc, pure_bind]
    refine takeTemp_bind hv (ih ?_ fun g hg => h g ?_)
    · rw [List.drop_set_of_lt (Nat.lt_succ_self stage)]
      exact hrest
    · exact (Frame.RestagedFrom.set f (Nat.le_refl stage) none).trans
        (hg.weaken (Nat.le_succ stage))

/-- A value that is staged in front of others is in front of them afterwards. -/
theorem setTemp_staged {stage count : Nat} {v : Value} {x : Exec Unit} {y : Exec (List Value)}
    (hroom : stage < f.temps.length)
    (h : ∀ g : Frame, g.RestagedFrom stage f →
      Simulates E g f' x y (StagedAs (stage + 1) count g f')) :
    Simulates E f f' (setTemp stage v >>= fun _ => x) (y >>= fun vs => Pure.pure (v :: vs))
      (StagedAs stage (count + 1) f f') := by
  have hset : ({ f with temps := f.temps.set stage (some v) } : Frame).RestagedFrom stage f :=
    .set f (Nat.le_refl stage) _
  refine .setTemp_bind hroom (Simulates.weaken (Simulates.right_map (h _ hset)) ?_)
  rintro _ _ g g' ⟨vs, rfl, hg, hlength, hvs, rfl⟩
  have hv : g.temps[stage]? = some (some v) := by
    rw [hg.getElem? (Nat.lt_succ_self stage)]
    exact List.getElem?_set_self hroom
  refine ⟨hset.trans (hg.weaken (Nat.le_succ stage)), ?_, cons_prefix_drop_of hv hvs, rfl⟩
  rw [List.length_cons, hlength]

/-- What is staged from a place on is what `takeStaged` takes. -/
theorem takeStaged_bind {stage count : Nat} {vs : List Value} {F : List Value → Exec α}
    {y : Exec β} {Q : α → β → Frame → Frame → Prop} (hcount : vs.length = count)
    (hvs : vs.map some <+: f.temps.drop stage)
    (h : ∀ g, g.RestagedFrom stage f → Simulates E g f' (F vs) y Q) :
    Simulates E f f' (takeStaged stage count >>= F) y Q := by
  subst hcount
  rw [takeStaged, bind_assoc]
  exact frame_bind (takeTemps_bind hvs h)

end Simulates

/-! ## Expressions -/

/-- The same knowledge of a body, with other callees. -/
def Code.calling (code : Code) (call : Callable → List Value → Exec (List Value)) : Code :=
  { code with call }

@[simp] theorem Code.calling_program (code : Code)
    (call : Callable → List Value → Exec (List Value)) :
    (code.calling call).program = code.program := rfl

@[simp] theorem Code.calling_function (code : Code)
    (call : Callable → List Value → Exec (List Value)) :
    (code.calling call).function = code.function := rfl

@[simp] theorem Code.calling_rounds (code : Code)
    (call : Callable → List Value → Exec (List Value)) :
    (code.calling call).rounds = code.rounds := rfl

/-- An environment whose variables, as far as `slot?` knows their names, have the values of the
slots of a frame. The frames in question are those related by `R`. -/
structure Mirrors (E : Stop → Prop) (V : Variables σ) (env : σ) (slot? : String → Option Nat)
    (slots : Nat) (R : Frame → Frame → Prop) : Prop where
  staged : ∀ {f f' : Frame} (temps : List (Option Value)), R f f' → R { f with temps } f'
  read : ∀ {f f' : Frame} {x : Variable} {slot : Nat}, R f f' → x.slot? = some slot →
    slot? x.name = some slot → slot < slots →
      Simulates E f f' (getSlot slot) (V.read env x) (Unchanged f f')

/-- Related frames, the first of which has a number of temporary slots. -/
def Ready (R : Frame → Frame → Prop) (temps : Nat) (f f' : Frame) : Prop :=
  R f f' ∧ f.temps.length = temps

section Expressions

variable {E : Stop → Prop} (hE : ∀ s, s.isStorage = false → E s) {V : Variables σ} {code : Code}
  {call' : Callable → List Value → Exec (List Value)}
  (hcall : ∀ name unit, code.program.resolve name = .ok unit → ∀ args,
    CallsAlike E (code.call unit args) (call' unit args))
  {env : σ} {slot? : String → Option Nat} {slots temps : Nat} {R : Frame → Frame → Prop}
  (hR : Mirrors E V env slot? slots R) {f f' : Frame} {base : Nat}

include hR in
theorem Mirrors.ready (hf : Ready R temps f f') {g : Frame} (hg : g.RestagedFrom base f) :
    Ready R temps g f' := by
  have hlength := hg.length
  obtain ⟨temps', rfl, -, -⟩ := hg
  exact ⟨hR.staged temps' hf.1, hlength.trans hf.2⟩

include hE hcall

/-! ### Calls -/

/-- A call hands over what its arguments have evaluated to, if these are staged in order. -/
theorem callNamed_simulates (callee : String) {stage count : Nat} (hstage : base ≤ stage)
    {stageArgs : Exec Unit} {args : Exec (List Value)}
    (hargs : Simulates E f f' stageArgs args (StagedAs stage count f f')) :
    Simulates E f f' (callNamed code callee stage count stageArgs)
      (Reference.callNamed (code.calling call') callee args) (Evaluated base f f') := by
  refine .ofExcept_bind hE (OfCalls.resolve _ _).stackFree fun unit hunit => ?_
  refine hargs.bind fun _ vs g g' hstaged => ?_
  obtain ⟨hg, hcount, hvs, rfl⟩ := hstaged
  refine .takeStaged_bind hcount hvs fun h hh => ?_
  refine ((hcall callee unit hunit vs).simulates h g').weaken fun a b i i' hab => ?_
  obtain ⟨rfl, rfl, rfl⟩ := hab
  exact ⟨rfl, (hg.trans hh).weaken hstage, rfl⟩

/-- An action hands over its connector in front of what its arguments have evaluated to. -/
theorem callAction_simulates (target : Value) (action : String) {stage count : Nat}
    (hstage : base ≤ stage) (hroom : stage < f.temps.length) {stageArgs : Exec Unit}
    {args : Exec (List Value)}
    (hargs : ∀ g : Frame, g.RestagedFrom stage f →
      Simulates E g f' stageArgs args (StagedAs (stage + 1) count g f')) :
    Simulates E f f' (callAction code target action stage count stageArgs)
      (Reference.callAction (code.calling call') target action args) (Evaluated base f f') := by
  refine .ofExcept_bind hE (OfValues.connectorName _ _).stackFree fun name _ => ?_
  -- one run stages the connector in front of the values, the other puts it in front of the list
  have hstaged := Simulates.setTemp_staged (v := target) hroom hargs
  rw [← bind_assoc]
  refine hstaged.bind_map (G := fun all => do
    let unit ← Exec.ofExcept (code.program.resolve (name ++ "." ++ action))
    call' unit all) fun _ all g g' hall => ?_
  obtain ⟨hg, hcount, hall, rfl⟩ := hall
  refine .ofExcept_bind hE (OfCalls.resolve _ _).stackFree fun unit hunit => ?_
  refine .takeStaged_bind hcount hall fun h hh => ?_
  refine ((hcall _ unit hunit all).simulates h g').weaken fun a b i i' hab => ?_
  obtain ⟨rfl, rfl, rfl⟩ := hab
  exact ⟨rfl, (hg.trans hh).weaken hstage, rfl⟩

omit hcall in
theorem firstResult_simulates (vs : List Value) :
    Simulates E f f' (firstResult vs) (firstResult vs) (Evaluated base f f') := by
  cases vs with
  | nil => exact .fault (hE _ rfl)
  | cons v vs => exact .pure ⟨rfl, .refl base f, rfl⟩

omit hcall in
theorem makeMessage_simulates (payload : Value) :
    Simulates E f f' (makeMessage payload) (makeMessage payload) (Evaluated base f f') := by
  unfold makeMessage
  split
  · exact (Simulates.make _).evaluated
  · exact .fault (hE _ rfl)

include hR

/-! ### Evaluation -/

mutual

/-- **Expressions**: a placed expression that is evaluated on a frame ends as in a reference run,
and below its place the staged values stay as they are. -/
theorem eval_simulates (e : Expr) {f f' : Frame} {base : Nat} (hf : Ready R temps f f')
    (he : e.Placed slot? slots temps base) :
    Simulates E f f' (e.eval code) (Reference.eval V (code.calling call') env e)
      (Evaluated base f f') := by
  cases e with
  | int n => simpa only [Expr.eval, Reference.eval] using .pure ⟨rfl, .refl base f, rfl⟩
  | float x => simpa only [Expr.eval, Reference.eval] using .pure ⟨rfl, .refl base f, rfl⟩
  | bool b => simpa only [Expr.eval, Reference.eval] using .pure ⟨rfl, .refl base f, rfl⟩
  | str s => simpa only [Expr.eval, Reference.eval] using .pure ⟨rfl, .refl base f, rfl⟩
  | null => simpa only [Expr.eval, Reference.eval] using .pure ⟨rfl, .refl base f, rfl⟩
  | json doc => simpa only [Expr.eval, Reference.eval] using .pure ⟨rfl, .refl base f, rfl⟩
  | xml text => simpa only [Expr.eval, Reference.eval] using .pure ⟨rfl, .refl base f, rfl⟩
  | var v =>
    simp only [Expr.Placed] at he
    obtain ⟨slot, hslot, hname, hlt⟩ := he
    simp only [Expr.eval, Reference.eval, slotOf, hslot, pure_bind]
    exact (hR.read hf.1 hslot hname hlt).evaluated
  | array elem items =>
    simp only [Expr.Placed] at he
    simp only [Expr.eval, Reference.eval]
    exact (evalItems_simulates elem items hf he).andThen fun vs g _ =>
      (Simulates.make _).evaluated
  | map entries =>
    simp only [Expr.Placed] at he
    simp only [Expr.eval, Reference.eval]
    exact (evalEntries_simulates entries hf he).andThen fun vs g _ =>
      (Simulates.make _).evaluated
  | struct name fields =>
    simp only [Expr.Placed] at he
    simp only [Expr.eval, Reference.eval, Code.calling_program]
    cases code.program.struct? name with
    | none => exact .fault (hE _ rfl)
    | some decl =>
      exact (evalFields_simulates decl _ fields hf he).andThen fun vs g _ =>
        (Simulates.make _).evaluated
  | connector name args =>
    simp only [Expr.Placed] at he
    simp only [Expr.eval, Reference.eval]
    exact (evalArgs_simulates args hf he).andThen fun vs g _ => (Simulates.make _).evaluated
  | message payload =>
    simp only [Expr.Placed] at he
    simp only [Expr.eval, Reference.eval]
    exact (eval_simulates payload hf he).andThen fun v g _ => makeMessage_simulates hE v
  | index b key =>
    simp only [Expr.Placed] at he
    simp only [Expr.eval, Reference.eval]
    refine (eval_simulates b hf he.1).andThen fun container g hg => ?_
    refine (eval_simulates key (hR.ready hf hg) he.2).andThen fun key h _ => ?_
    refine Simulates.heap.evaluated.andThen fun heap i _ => ?_
    exact (Simulates.ofExcept hE (OfValues.element _ _ _ _).stackFree).evaluated
  | field b name =>
    simp only [Expr.Placed] at he
    simp only [Expr.eval, Reference.eval]
    refine (eval_simulates b hf he).andThen fun target g _ => ?_
    refine Simulates.heap.evaluated.andThen fun heap i _ => ?_
    exact (Simulates.ofExcept hE (.fieldOf _ _ _ _ _)).evaluated
  | unary op operand =>
    simp only [Expr.Placed] at he
    simp only [Expr.eval, Reference.eval]
    refine (eval_simulates operand hf he).andThen fun v g _ => ?_
    exact (Simulates.ofExcept hE (OfOperations.unaryApply _ _).stackFree).evaluated
  | binary op left right =>
    simp only [Expr.Placed] at he
    simp only [Expr.eval, Reference.eval]
    refine (eval_simulates left hf he.1).andThen fun l g hg => ?_
    cases shortCircuit? op l with
    | some v => exact .pure ⟨rfl, .refl base g, rfl⟩
    | none =>
      refine (eval_simulates right (hR.ready hf hg) he.2).andThen fun r h _ => ?_
      refine Simulates.heap.evaluated.andThen fun heap i _ => ?_
      exact (Simulates.ofExcept hE (OfOperations.binaryApply _ _ _ _).stackFree).evaluated
  | cast operand target =>
    simp only [Expr.Placed] at he
    simp only [Expr.eval, Reference.eval]
    refine (eval_simulates operand hf he).andThen fun v g _ => ?_
    exact (Simulates.ofExcept hE (OfOperations.cast _ _).stackFree).evaluated
  | call callee args stage =>
    simp only [Expr.Placed] at he
    simp only [Expr.eval, Reference.eval]
    have hargs := stageArgs_simulates args hf he.2.1 he.2.2
    exact (callNamed_simulates hE hcall callee he.1 hargs).andThen fun vs g _ =>
      firstResult_simulates hE vs
  | action target name args stage =>
    simp only [Expr.Placed] at he
    obtain ⟨htarget, hstage, hroom, hargs⟩ := he
    simp only [Expr.eval, Reference.eval]
    refine (eval_simulates target hf htarget).andThen fun v g hg => ?_
    have hready := hR.ready hf hg
    refine (callAction_simulates hE hcall v name hstage (by rw [hready.2]; omega)
      fun h hh => ?_).andThen fun vs g _ => firstResult_simulates hE vs
    exact stageArgs_simulates args (hR.ready hready hh) hroom hargs

theorem evalItems_simulates (elem : Ty) (items : List Expr) {f f' : Frame} {base : Nat}
    (hf : Ready R temps f f') (hitems : EachPlaced slot? slots temps base items) :
    Simulates E f f' (evalItems code elem items)
      (Reference.evalItems V (code.calling call') env elem items) (Evaluated base f f') := by
  cases items with
  | nil => simpa only [evalItems, Reference.evalItems] using .pure ⟨rfl, .refl base f, rfl⟩
  | cons e es =>
    simp only [EachPlaced] at hitems
    simp only [evalItems, Reference.evalItems]
    refine (eval_simulates e hf hitems.1).andThen fun v g hg => ?_
    refine .ofExcept_bind hE (OfOperations.valueBind _ _).stackFree fun w _ => ?_
    refine (evalItems_simulates elem es (hR.ready hf hg) hitems.2).andThen fun ws h _ => ?_
    exact .pure ⟨rfl, .refl base h, rfl⟩

theorem evalEntries_simulates (entries : List (String × Expr)) {f f' : Frame} {base : Nat}
    (hf : Ready R temps f f') (hentries : NamedPlaced slot? slots temps base entries) :
    Simulates E f f' (evalEntries code entries)
      (Reference.evalEntries V (code.calling call') env entries) (Evaluated base f f') := by
  cases entries with
  | nil => simpa only [evalEntries, Reference.evalEntries] using .pure ⟨rfl, .refl base f, rfl⟩
  | cons entry entries =>
    obtain ⟨key, e⟩ := entry
    simp only [NamedPlaced] at hentries
    simp only [evalEntries, Reference.evalEntries]
    refine (eval_simulates e hf hentries.1).andThen fun v g hg => ?_
    refine (evalEntries_simulates entries (hR.ready hf hg) hentries.2).andThen fun vs h _ => ?_
    exact .pure ⟨rfl, .refl base h, rfl⟩

theorem evalFields_simulates (decl : StructDecl) (fields : List (String × Value))
    (given : List (String × Expr)) {f f' : Frame} {base : Nat} (hf : Ready R temps f f')
    (hgiven : NamedPlaced slot? slots temps base given) :
    Simulates E f f' (evalFields code decl fields given)
      (Reference.evalFields V (code.calling call') env decl fields given)
      (Evaluated base f f') := by
  cases given with
  | nil => simpa only [evalFields, Reference.evalFields] using .pure ⟨rfl, .refl base f, rfl⟩
  | cons entry rest =>
    obtain ⟨name, e⟩ := entry
    simp only [NamedPlaced] at hgiven
    simp only [evalFields, Reference.evalFields]
    refine (eval_simulates e hf hgiven.1).andThen fun v g hg => ?_
    refine .ofExcept_bind hE (OfOperations.initField _ _ _ _).stackFree fun fields _ => ?_
    exact evalFields_simulates decl fields rest (hR.ready hf hg) hgiven.2

theorem evalArgs_simulates (args : List Expr) {f f' : Frame} {base : Nat}
    (hf : Ready R temps f f') (hargs : EachPlaced slot? slots temps base args) :
    Simulates E f f' (evalArgs code args) (Reference.evalArgs V (code.calling call') env args)
      (Evaluated base f f') := by
  cases args with
  | nil => simpa only [evalArgs, Reference.evalArgs] using .pure ⟨rfl, .refl base f, rfl⟩
  | cons e es =>
    simp only [EachPlaced] at hargs
    simp only [evalArgs, Reference.evalArgs]
    refine (eval_simulates e hf hargs.1).andThen fun v g hg => ?_
    refine (evalArgs_simulates es (hR.ready hf hg) hargs.2).andThen fun vs h _ => ?_
    exact .pure ⟨rfl, .refl base h, rfl⟩

/-- Arguments that are staged one after the other are, in the end, the list of their values: the
calls inside an argument leave alone what is staged in front of it. -/
theorem stageArgs_simulates (args : List Expr) {f f' : Frame} {stage : Nat}
    (hf : Ready R temps f f') (hroom : stage + args.length ≤ temps)
    (hargs : StagedPlaced slot? slots temps stage args) :
    Simulates E f f' (stageArgs code stage args)
      (Reference.evalArgs V (code.calling call') env args)
      (StagedAs stage args.length f f') := by
  cases args with
  | nil =>
    simp only [stageArgs, Reference.evalArgs]
    exact .pure ⟨.refl stage f, rfl, List.nil_prefix, rfl⟩
  | cons e es =>
    simp only [StagedPlaced] at hargs
    simp only [List.length_cons] at hroom
    simp only [stageArgs, Reference.evalArgs]
    refine (eval_simulates e hf hargs.1).bind fun v _ g g' hv => ?_
    obtain ⟨rfl, hg, rfl⟩ := hv
    have hready := hR.ready hf hg
    have hlt : stage < g.temps.length := by
      rw [hready.2]
      omega
    refine (Simulates.setTemp_staged hlt fun h hh =>
      stageArgs_simulates es (hR.ready hready hh) (by omega) hargs.2).weaken fun _ vs h h' hvs => ?_
    exact ⟨hg.trans hvs.1, hvs.2⟩

end

theorem results_simulates (e : Expr) {f f' : Frame} {base : Nat} (hf : Ready R temps f f')
    (he : e.Placed slot? slots temps base) :
    Simulates E f f' (e.results code) (Reference.results V (code.calling call') env e)
      (Evaluated base f f') := by
  have hvalue : Simulates E f f' (do let v ← e.eval code; pure [v])
      (do let v ← Reference.eval V (code.calling call') env e; pure [v])
      (Evaluated base f f') :=
    (eval_simulates hE hcall hR e hf he).andThen fun v g _ => .pure ⟨rfl, .refl base g, rfl⟩
  cases e with
  | call callee args stage =>
    simp only [Expr.Placed] at he
    have hargs := stageArgs_simulates hE hcall hR args hf he.2.1 he.2.2
    exact callNamed_simulates hE hcall callee he.1 hargs
  | action target name args stage =>
    simp only [Expr.Placed] at he
    obtain ⟨htarget, hstage, hroom, hargs⟩ := he
    refine (eval_simulates hE hcall hR target hf htarget).andThen fun v g hg => ?_
    have hready := hR.ready hf hg
    refine callAction_simulates hE hcall v name hstage (by rw [hready.2]; omega) fun h hh => ?_
    exact stageArgs_simulates hE hcall hR args (hR.ready hready hh) hroom hargs
  | _ => exact hvalue

theorem holds_simulates (cond : Expr) {f f' : Frame} {base : Nat} (hf : Ready R temps f f')
    (hcond : cond.Placed slot? slots temps base) :
    Simulates E f f' (cond.holds code) (Reference.holds V (code.calling call') env cond)
      (Evaluated base f f') := by
  refine (eval_simulates hE hcall hR cond hf hcond).andThen fun v g _ => ?_
  cases v with
  | bool b => exact .pure ⟨rfl, .refl base g, rfl⟩
  | _ => exact .fault (hE _ rfl)

theorem resultValues_simulates (values : List Expr) {f f' : Frame} {base : Nat}
    (hf : Ready R temps f f') (hvalues : EachPlaced slot? slots temps base values) :
    Simulates E f f' (resultValues code values)
      (Reference.resultValues V (code.calling call') env values) (Evaluated base f f') := by
  have hargs := evalArgs_simulates hE hcall hR values hf hvalues
  unfold resultValues Reference.resultValues
  rw [Code.calling_function]
  rcases values with _ | ⟨single, _ | ⟨second, rest⟩⟩
  · exact hargs
  · simp only [EachPlaced] at hvalues
    rcases code.function.sig.returns with _ | ⟨ty, _ | ⟨ty', tys⟩⟩
    · exact hargs
    · exact hargs
    · exact results_simulates hE hcall hR single hf hvalues.1
  · exact hargs

end Expressions

/-! ## Statements -/

/-- A way to keep variables that follows the slots of a frame, the types of which are `slots`. The
environment is related to the frames under the names in sight, block by block with the innermost
first: its variables can be read, written and defined as slots can, and a block that is left takes
the names with it that came with it. -/
structure Tracking (E : Stop → Prop) (V : Variables σ) (slots : List Ty)
    (Follows : List (List (String × Nat)) → σ → Frame → Frame → Prop) : Prop where
  staged : ∀ {blocks env f f'} (temps : List (Option Value)), Follows blocks env f f' →
    Follows blocks env { f with temps } f'
  result : ∀ {blocks env f f'} (returns : List Value), Follows blocks env f f' →
    Follows blocks env { f with returns } { f' with returns }
  read : ∀ {blocks env f f'} {scope : Scope} {x : Variable} {slot : Nat},
    Follows blocks env f f' → scope.bindings = blocks.flatten → x.slot? = some slot →
      scope.slot? x.name = some slot → slot < slots.length →
        Simulates E f f' (getSlot slot) (V.read env x) (Unchanged f f')
  write : ∀ {blocks env f f'} {scope : Scope} {x : Variable} {slot : Nat} (v : Value),
    Follows blocks env f f' → scope.bindings = blocks.flatten → x.slot? = some slot →
      scope.slot? x.name = some slot → slot < slots.length →
        Simulates E f f' (do let v ← ofExcept (bindAs slots[slot]? v); setSlot slot v)
          (V.write env x v) fun _ env' g g' => g.temps = f.temps ∧ Follows blocks env' g g'
  define : ∀ {block blocks env f f'} {slot : Nat} {name : String} {ty : Ty} (v : Value),
    Follows (block :: blocks) env f f' →
      (∀ binding ∈ (block :: blocks).flatten, binding.2 < slot) → slots[slot]? = some ty →
        Simulates E f f' (do let v ← ofExcept (v.bind ty); setSlot slot v)
          (V.define env name ty (some slot) v) fun _ env' g g' =>
            g.temps = f.temps ∧ Follows (((name, slot) :: block) :: blocks) env' g g'
  enter : ∀ {blocks env f f'}, Follows blocks env f f' → Follows ([] :: blocks) (V.enter env) f f'
  leave : ∀ {block blocks env f f'}, Follows (block :: blocks) env f f' →
    Follows blocks (V.leave env) f f'

namespace Tracking

variable {E : Stop → Prop} (hE : ∀ s, s.isStorage = false → E s) {V : Variables σ} {code : Code}
  {call' : Callable → List Value → Exec (List Value)}
  (hcall : ∀ name unit, code.program.resolve name = .ok unit → ∀ args,
    CallsAlike E (code.call unit args) (call' unit args))
  {Follows : List (List (String × Nat)) → σ → Frame → Frame → Prop}
  (hT : Tracking E V code.function.layout.slots Follows) {temps : Nat}

/-- Under the names of a scope the environment has the values of the slots. -/
theorem mirrors {slots : List Ty} (hT : Tracking E V slots Follows) {scope : Scope}
    {blocks : List (List (String × Nat))} (hscope : scope.bindings = blocks.flatten) (env : σ) :
    Mirrors E V env scope.slot? slots.length (Follows blocks env) where
  staged temps hf := hT.staged temps hf
  read hf hx hname hlt := hT.read hf hscope hx hname hlt

/-! ### Assignments -/

include hE

theorem storeElement_simulates (elem : Ty) (id : Nat) (index : Int64) (v : Value) {f f' : Frame} :
    Simulates E f f' (storeElement elem id index v) (storeElement elem id index v)
      (Unchanged f f') := by
  unfold storeElement
  split
  · exact .modifyHeap _
  · exact Simulates.heap.bind fun _ _ _ _ h => by
      obtain ⟨rfl, rfl, rfl⟩ := h
      exact .fault (hE _ rfl)

theorem writeField_simulates (p : Program) (struct : String) (id : Nat) (name : String) (v : Value)
    {f f' : Frame} :
    Simulates E f f' (writeField p struct id name v) (writeField p struct id name v)
      (Unchanged f f') := by
  refine .ofExcept_bind hE (OfOperations.bindAs _ _).stackFree fun w _ => ?_
  refine Simulates.heap.bind fun _ _ _ _ h => ?_
  obtain ⟨rfl, rfl, rfl⟩ := h
  split
  · exact .modifyHeap _
  · exact .fault (hE _ rfl)

include hcall hT

/-- An assignment leads to an environment that follows the slots afterwards. -/
theorem write_simulates (v : Value) (target : Target) {scope : Scope}
    {blocks : List (List (String × Nat))} (hscope : scope.bindings = blocks.flatten) {env : σ}
    {f f' : Frame} (hf : Ready (Follows blocks env) temps f f')
    (htarget : target.Placed scope.slot? code.function.layout.slots.length temps) :
    Simulates E f f' (target.write code v) (Reference.write V (code.calling call') env v target)
      fun _ env' g g' => Ready (Follows blocks env') temps g g' := by
  have hR := hT.mirrors hscope env
  -- what changes objects only leaves the environment and the frames as they are
  have hkept {g : Frame} (hg : Ready (Follows blocks env) temps g f') {x y : Exec Unit}
      (hxy : Simulates E g f' x y (Unchanged g f')) :
      Simulates E g f' x (y >>= fun _ => pure env) fun _ env' h h' =>
        Ready (Follows blocks env') temps h h' := by
    refine Simulates.weaken hxy.right_map ?_
    rintro _ _ h h' ⟨_, rfl, -, rfl, rfl⟩
    exact hg
  cases target with
  | var x =>
    obtain ⟨slot, hslot, hname, hlt⟩ := htarget
    simp only [Target.write, Reference.write, slotOf, hslot, pure_bind]
    refine (hT.write v hf.1 hscope hslot hname hlt).weaken fun _ env' g g' h => ?_
    exact ⟨h.2, by rw [h.1, hf.2]⟩
  | index base key =>
    obtain ⟨hbase, hkey⟩ := htarget
    simp only [Target.write, Reference.write]
    refine (eval_simulates hE hcall hR base hf hbase).bind fun container _ g g' hc => ?_
    obtain ⟨rfl, hg, rfl⟩ := hc
    have hf := hR.ready hf hg
    refine (eval_simulates hE hcall hR key hf hkey).bind fun key _ h h' hk => ?_
    obtain ⟨rfl, hh, rfl⟩ := hk
    have hf := hR.ready hf hh
    cases container with
    | null tag =>
      have hstack := Fault.isOfStack_of_isOfValues (OfValues.nullFault base)
      exact .fault (hE _ (Fault.isStorage_of_isOfStack hstack))
    | array elem id =>
      refine .ofExcept_bind hE (OfOperations.arrayIndex _).stackFree fun index _ => ?_
      refine hkept hf (.ofExcept_bind hE (OfOperations.valueBind _ _).stackFree fun w _ => ?_)
      exact storeElement_simulates hE elem id index w
    | map id =>
      refine .ofExcept_bind hE (OfOperations.mapKey _).stackFree fun key _ => ?_
      exact hkept hf (.modifyHeap _)
    | _ => exact .fault (hE _ rfl)
  | field base name =>
    simp only [Target.write, Reference.write]
    refine (eval_simulates hE hcall hR base hf htarget).bind fun container _ g g' hc => ?_
    obtain ⟨rfl, hg, rfl⟩ := hc
    have hf := hR.ready hf hg
    cases container with
    | null tag =>
      have hstack := Fault.isOfStack_of_isOfValues (OfValues.nullFault base)
      exact .fault (hE _ (Fault.isStorage_of_isOfStack hstack))
    | struct struct id => exact hkept hf (writeField_simulates hE _ struct id name v)
    | _ => exact .fault (hE _ rfl)

theorem writeAll_simulates (targets : List Target) (vs : List Value) {scope : Scope}
    {blocks : List (List (String × Nat))} (hscope : scope.bindings = blocks.flatten) {env : σ}
    {f f' : Frame} (hf : Ready (Follows blocks env) temps f f')
    (htargets : ∀ target ∈ targets,
      target.Placed scope.slot? code.function.layout.slots.length temps) :
    Simulates E f f' (writeAll code targets vs)
      (Reference.writeAll V (code.calling call') env targets vs)
      fun _ env' g g' => Ready (Follows blocks env') temps g g' := by
  induction targets generalizing vs env f f' with
  | nil => exact .pure hf
  | cons t ts ih =>
    cases vs with
    | nil => exact .pure hf
    | cons v vs =>
      have hfirst := write_simulates hE hcall hT v t hscope hf (htargets t List.mem_cons_self)
      refine hfirst.bind fun _ env' g g' hg => ?_
      exact ih vs hg fun target hmem => htargets target (List.mem_cons_of_mem t hmem)

theorem assign_simulates (targets : List Target) (value : Expr) {scope : Scope}
    {blocks : List (List (String × Nat))} (hscope : scope.bindings = blocks.flatten) {env : σ}
    {f f' : Frame} (hf : Ready (Follows blocks env) temps f f')
    (htargets : ∀ target ∈ targets,
      target.Placed scope.slot? code.function.layout.slots.length temps)
    (hvalue : value.Placed scope.slot? code.function.layout.slots.length temps 0) :
    Simulates E f f' (assign code targets value)
      (Reference.assign V (code.calling call') env targets value)
      fun _ env' g g' => Ready (Follows blocks env') temps g g' := by
  have hR := hT.mirrors hscope env
  have hall : Simulates E f f'
      (do
        let vs ← value.results code
        if vs.length != targets.length then
          fault (.analyzerDefect (.assignmentCount targets.length vs.length))
        else writeAll code targets vs)
      (do
        let vs ← Reference.results V (code.calling call') env value
        if vs.length != targets.length then
          fault (.analyzerDefect (.assignmentCount targets.length vs.length))
        else Reference.writeAll V (code.calling call') env targets vs)
      fun _ env' g g' => Ready (Follows blocks env') temps g g' := by
    refine (results_simulates hE hcall hR value hf hvalue).bind fun vs _ g g' hvs => ?_
    obtain ⟨rfl, hg, rfl⟩ := hvs
    split
    · exact .fault (hE _ rfl)
    · exact writeAll_simulates hE hcall hT targets vs hscope (hR.ready hf hg) htargets
  rcases targets with _ | ⟨target, _ | ⟨second, rest⟩⟩
  · exact hall
  · refine (eval_simulates hE hcall hR value hf hvalue).bind fun v _ g g' hv => ?_
    obtain ⟨rfl, hg, rfl⟩ := hv
    exact write_simulates hE hcall hT v target hscope (hR.ready hf hg)
      (htargets target List.mem_cons_self)
  · exact hall

/-! ### Running -/

omit hcall hT in
theorem writeResults_simulates {slots : List Ty} (hT : Tracking E V slots Follows)
    (returns : List Ty) (index : Nat) (vs : List Value) (blocks : List (List (String × Nat)))
    (env : σ) {f f' : Frame}
    (hf : Ready (Follows blocks env) temps f f') :
    Simulates E f f' (writeResults returns index vs) (writeResults returns index vs)
      fun _ _ g g' => Ready (Follows blocks env) temps g g' := by
  induction vs generalizing index f f' with
  | nil => exact .pure hf
  | cons v vs ih =>
    refine .ofExcept_bind hE (OfOperations.bindAs _ _).stackFree fun w _ => ?_
    refine (Simulates.setReturn hE index w).bind fun _ _ g g' h => ?_
    obtain ⟨returns, rfl, rfl⟩ := h
    exact ih (index + 1) ⟨hT.result returns hf.1, hf.2⟩

/-- The rounds of a loop, if the body keeps frames and environments related. -/
theorem loop_simulates (cond : Expr) (body : List Stmt) {scope : Scope}
    {blocks : List (List (String × Nat))} (hscope : scope.bindings = blocks.flatten) {base : Nat}
    (hcond : cond.Placed scope.slot? code.function.layout.slots.length temps base)
    (hbody : ∀ {env : σ} {f f' : Frame}, Ready (Follows blocks env) temps f f' →
      Simulates E f f' (execBlock code body)
        (do
          let (flow, env) ← Reference.execAll V (code.calling call') (V.enter env) body
          pure (flow, V.leave env))
        fun flow r g g' => flow = r.1 ∧ Ready (Follows blocks r.2) temps g g')
    (rounds : Nat) {env : σ} {f f' : Frame} (hf : Ready (Follows blocks env) temps f f') :
    Simulates E f f' (runLoop (cond.holds code) (execBlock code body) rounds)
      (Reference.runLoop (fun env => Reference.holds V (code.calling call') env cond)
        (fun env => do
          let (flow, env) ← Reference.execAll V (code.calling call') (V.enter env) body
          pure (flow, V.leave env))
        rounds env)
      fun flow r g g' => flow = r.1 ∧ Ready (Follows blocks r.2) temps g g' := by
  induction rounds generalizing env f f' with
  | zero => exact .throw (hE _ rfl)
  | succ rounds ih =>
    have hR := hT.mirrors hscope env
    refine (holds_simulates hE hcall hR cond hf hcond).bind fun b _ g g' hb => ?_
    obtain ⟨rfl, hg, rfl⟩ := hb
    have hf := hR.ready hf hg
    cases b with
    | false => exact .pure ⟨rfl, hf⟩
    | true =>
      refine (hbody hf).bind fun flow r h h' hr => ?_
      obtain ⟨flow', env'⟩ := r
      obtain ⟨rfl, hh⟩ := hr
      cases flow with
      | onward => exact ih hh
      | leave => exact .pure ⟨rfl, hh⟩
      | next => exact ih hh
      | done => exact .pure ⟨rfl, hh⟩

/-- A definition evaluates its start value with the names in sight before it, and puts its own name
in front of them. -/
theorem define_simulates (name : String) {ty : Ty} {init? : Option Expr} {scope : Scope}
    {block : List (String × Nat)} {blocks : List (List (String × Nat))}
    (hscope : scope.bindings = (block :: blocks).flatten) (hbelow : scope.Below)
    (hinit : ∀ init, init? = some init →
      init.Placed scope.slot? code.function.layout.slots.length temps 0)
    (hty : code.function.layout.slots[scope.next]? = some ty) {env : σ} {f f' : Frame}
    (hf : Ready (Follows (block :: blocks) env) temps f f') :
    Simulates E f f' ((Stmt.define name ty init? (some scope.next)).exec code)
      (Reference.exec V (code.calling call') env (.define name ty init? (some scope.next)))
      fun flow r g g' => flow = r.1 ∧
        Ready (Follows (((name, scope.next) :: block) :: blocks) r.2) temps g g' := by
  have hR := hT.mirrors hscope env
  have hfresh : ∀ binding ∈ (block :: blocks).flatten, binding.2 < scope.next := by
    rw [← hscope]
    exact hbelow
  have hdefine (v : Value) {g : Frame} (hg : Ready (Follows (block :: blocks) env) temps g f') :
      Simulates E g f'
        (do
          let slot ← slotOf name (some scope.next)
          let _ ← frame
          let v ← ofExcept (v.bind ty)
          setSlot slot v
          pure Flow.onward)
        (do
          let env ← V.define env name ty (some scope.next) v
          pure (Flow.onward, env))
        fun flow r h h' => flow = r.1 ∧
          Ready (Follows (((name, scope.next) :: block) :: blocks) r.2) temps h h' := by
    simp only [slotOf, pure_bind]
    refine .frame_bind ?_
    rw [← bind_assoc]
    refine (hT.define v hg.1 hfresh hty).bind fun _ env' h h' hh => .pure ⟨rfl, ?_⟩
    exact ⟨hh.2, by rw [hh.1, hg.2]⟩
  simp only [Stmt.exec, Reference.exec]
  cases init? with
  | none => exact hdefine ty.default hf
  | some init =>
    refine (eval_simulates hE hcall hR init hf (hinit init rfl)).bind fun v _ g g' hv => ?_
    obtain ⟨rfl, hg, rfl⟩ := hv
    exact hdefine v (hR.ready hf hg)

/-- A result ends the body, whatever blocks are around it. -/
theorem result_simulates {scope : Scope} {blocks : List (List (String × Nat))}
    (hscope : scope.bindings = blocks.flatten) (values : List Expr)
    (hvalues : EachPlaced scope.slot? code.function.layout.slots.length temps 0 values) {env : σ}
    {f f' : Frame} (hf : Ready (Follows blocks env) temps f f') :
    Simulates E f f' ((Stmt.result values).exec code)
      (Reference.exec V (code.calling call') env (.result values))
      fun flow r g g' => flow = r.1 ∧ flow = .done ∧ Ready (Follows blocks r.2) temps g g' := by
  have hR := hT.mirrors hscope env
  simp only [Stmt.exec, Reference.exec]
  refine (resultValues_simulates hE hcall hR values hf hvalues).bind fun vs _ g g' hvs => ?_
  obtain ⟨rfl, hg, rfl⟩ := hvs
  refine .frame_bind ?_
  refine (writeResults_simulates hE hT _ 0 vs _ env (hR.ready hf hg)).bind fun _ _ h h' hh => ?_
  exact .pure ⟨rfl, rfl, hh⟩

omit hE hcall in
/-- A block that is entered begins with no names of its own. -/
theorem entered {blocks : List (List (String × Nat))} {env : σ} {f f' : Frame}
    (hf : Ready (Follows blocks env) temps f f') :
    Ready (Follows ([] :: blocks) (V.enter env)) temps f f' :=
  ⟨hT.enter hf.1, hf.2⟩

omit hE hcall in
/-- A block that is left, however it ends, leaves the names in sight as they were. -/
theorem left {x : Exec Flow} {y : Exec (Flow × σ)} {block : List (String × Nat)}
    {blocks : List (List (String × Nat))} {f f' : Frame}
    (h : Simulates E f f' x y fun flow r g g' => flow = r.1 ∧ ∃ added,
      Ready (Follows ((added ++ block) :: blocks) r.2) temps g g') :
    Simulates E f f' x (do let (flow, env) ← y; pure (flow, V.leave env))
      fun flow r g g' => flow = r.1 ∧ Ready (Follows blocks r.2) temps g g' := by
  refine Simulates.weaken h.right_map ?_
  rintro flow _ g g' ⟨r, rfl, hflow, added, hg⟩
  exact ⟨hflow, hT.leave hg.1, hg.2⟩

mutual

/-- **Statements**: a placed statement that runs on a frame ends as in a reference run. The names
in sight behind it are those before and some that the statement defines; if it goes on, these are
the names of the scope behind it. -/
theorem exec_simulates (s : Stmt) (scope : Scope) (block : List (String × Nat))
    (blocks : List (List (String × Nat))) (hscope : scope.bindings = (block :: blocks).flatten)
    (hbelow : scope.Below) (hs : s.Placed code.function.layout.slots temps scope) {env : σ}
    {f f' : Frame} (hf : Ready (Follows (block :: blocks) env) temps f f') :
    Simulates E f f' (s.exec code) (Reference.exec V (code.calling call') env s)
      fun flow r g g' => flow = r.1 ∧ ∃ added,
        Ready (Follows ((added ++ block) :: blocks) r.2) temps g g' ∧
          (flow = .onward → (s.scopeAfter scope).bindings = added ++ scope.bindings) := by
  have hR := hT.mirrors hscope env
  cases s with
  | define name ty init? slot? =>
    simp only [Stmt.Placed] at hs
    obtain ⟨hinit, rfl, hty⟩ := hs
    refine (define_simulates hE hcall hT name hscope hbelow hinit hty hf).weaken
      fun flow r g g' hr => ?_
    exact ⟨hr.1, [(name, scope.next)], hr.2, fun _ => rfl⟩
  | assign targets value =>
    simp only [Stmt.Placed] at hs
    simp only [Stmt.exec, Reference.exec]
    refine (assign_simulates hE hcall hT targets value hscope hf hs.1 hs.2).bind
      fun _ env' g g' hg => ?_
    exact .pure ⟨rfl, [], hg, fun _ => rfl⟩
  | branch cond yes no =>
    simp only [Stmt.Placed] at hs
    simp only [Stmt.exec, Reference.exec]
    refine (holds_simulates hE hcall hR cond hf hs.1).bind fun b _ g g' hb => ?_
    obtain ⟨rfl, hg, rfl⟩ := hb
    have hf := hR.ready hf hg
    cases b with
    | true =>
      have hrun := execBlock_simulates yes scope [] (block :: blocks) hscope hbelow hs.2.1
        (hT.entered hf)
      refine (hT.left hrun).weaken fun flow r h h' hr => ?_
      exact ⟨hr.1, [], hr.2, fun _ => rfl⟩
    | false =>
      have hrun := execBlock_simulates no (scope.skip (definedTypesIn yes).length) []
        (block :: blocks) hscope (hbelow.skip _) hs.2.2 (hT.entered hf)
      refine (hT.left hrun).weaken fun flow r h h' hr => ?_
      exact ⟨hr.1, [], hr.2, fun _ => rfl⟩
  | loop cond body =>
    simp only [Stmt.Placed] at hs
    simp only [Stmt.exec, Reference.exec]
    have hround {env : σ} {g g' : Frame} (hg : Ready (Follows (block :: blocks) env) temps g g') :=
      hT.left (execBlock_simulates body scope [] (block :: blocks) hscope hbelow hs.2
        (hT.entered hg))
    refine (loop_simulates hE hcall hT cond body hscope hs.1 hround code.rounds hf).weaken
      fun flow r h h' hr => ?_
    exact ⟨hr.1, [], hr.2, fun _ => rfl⟩
  | leave =>
    simp only [Stmt.exec, Reference.exec]
    exact .pure ⟨rfl, [], hf, fun h => by cases h⟩
  | next =>
    simp only [Stmt.exec, Reference.exec]
    exact .pure ⟨rfl, [], hf, fun h => by cases h⟩
  | result values =>
    simp only [Stmt.Placed] at hs
    refine (result_simulates hE hcall hT hscope values hs hf).weaken fun flow r g g' hr => ?_
    obtain ⟨rfl, hdone, hg⟩ := hr
    exact ⟨rfl, [], hg, fun honward => by rw [hdone] at honward; cases honward⟩
  | run e =>
    simp only [Stmt.Placed] at hs
    simp only [Stmt.exec, Reference.exec]
    refine (results_simulates hE hcall hR e hf hs).bind fun vs _ g g' hvs => ?_
    obtain ⟨rfl, hg, rfl⟩ := hvs
    exact .pure ⟨rfl, [], hR.ready hf hg, fun _ => rfl⟩
  | block body =>
    simp only [Stmt.Placed] at hs
    simp only [Stmt.exec, Reference.exec]
    have hrun := execBlock_simulates body scope [] (block :: blocks) hscope hbelow hs
      (hT.entered hf)
    refine (hT.left hrun).weaken fun flow r h h' hr => ?_
    exact ⟨hr.1, [], hr.2, fun _ => rfl⟩

/-- The statements of a block, up to the first that ends it early. -/
theorem execBlock_simulates (ss : List Stmt) (scope : Scope) (block : List (String × Nat))
    (blocks : List (List (String × Nat))) (hscope : scope.bindings = (block :: blocks).flatten)
    (hbelow : scope.Below) (hss : BlockPlaced code.function.layout.slots temps scope ss) {env : σ}
    {f f' : Frame} (hf : Ready (Follows (block :: blocks) env) temps f f') :
    Simulates E f f' (execBlock code ss) (Reference.execAll V (code.calling call') env ss)
      fun flow r g g' => flow = r.1 ∧ ∃ added,
        Ready (Follows ((added ++ block) :: blocks) r.2) temps g g' := by
  cases ss with
  | nil =>
    simp only [execBlock, Reference.execAll]
    exact .pure ⟨rfl, [], hf⟩
  | cons s ss =>
    simp only [BlockPlaced] at hss
    simp only [execBlock, Reference.execAll]
    refine (exec_simulates s scope block blocks hscope hbelow hss.1 hf).bind
      fun flow r g g' hr => ?_
    obtain ⟨flow', env'⟩ := r
    obtain ⟨rfl, added, hg, honward⟩ := hr
    cases flow with
    | onward =>
      have hafter : (s.scopeAfter scope).bindings = ((added ++ block) :: blocks).flatten := by
        rw [honward rfl, hscope]
        simp
      refine (execBlock_simulates ss (s.scopeAfter scope) (added ++ block) blocks hafter
        (hbelow.scopeAfter s) hss.2 hg).weaken fun flow r h h' hr => ?_
      obtain ⟨hflow, added', hh⟩ := hr
      refine ⟨hflow, added' ++ added, ?_⟩
      rw [List.append_assoc]
      exact hh
    | leave => exact .pure ⟨rfl, added, hg⟩
    | next => exact .pure ⟨rfl, added, hg⟩
    | done => exact .pure ⟨rfl, added, hg⟩

end

/-- A block that is entered and left again ends alike, and the names in sight are as they were. -/
theorem block_simulates (ss : List Stmt) (scope : Scope) (blocks : List (List (String × Nat)))
    (hscope : scope.bindings = blocks.flatten) (hbelow : scope.Below)
    (hss : BlockPlaced code.function.layout.slots temps scope ss) {env : σ} {f f' : Frame}
    (hf : Ready (Follows blocks env) temps f f') :
    Simulates E f f' (execBlock code ss)
      (do
        let (flow, env) ← Reference.execAll V (code.calling call') (V.enter env) ss
        pure (flow, V.leave env))
      fun flow r g g' => flow = r.1 ∧ Ready (Follows blocks r.2) temps g g' :=
  hT.left (execBlock_simulates hE hcall hT ss scope [] blocks hscope hbelow hss (hT.entered hf))

/-- A placed body that runs on a frame ends as the reference run of the body does. -/
theorem run_simulates (scope : Scope) (hbelow : scope.Below)
    (hbody : BlockPlaced code.function.layout.slots temps scope code.function.body) {env : σ}
    {f f' : Frame} (hf : Ready (Follows [scope.bindings] env) temps f f') :
    Simulates E f f' (Function.run code)
      (Reference.run V (code.calling call') env code.function.body) fun _ _ _ _ => True := by
  have hscope : scope.bindings = [scope.bindings].flatten := by simp
  refine (execBlock_simulates hE hcall hT code.function.body scope scope.bindings [] hscope hbelow
    hbody hf).bind fun flow r g g' hr => ?_
  obtain ⟨flow', env'⟩ := r
  obtain ⟨rfl, -⟩ := hr
  cases flow with
  | onward => exact .pure trivial
  | done => exact .pure trivial
  | leave => exact .fault (hE _ rfl)
  | next => exact .fault (hE _ rfl)

end Tracking

end FrameScript
