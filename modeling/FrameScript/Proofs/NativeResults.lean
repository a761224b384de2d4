import FrameScript.Proofs.Discipline

set_option autoImplicit false

/-!
# The results of native units

A native unit hands over values, and these are stored in the result slots of its frame. The slots
start at the defaults of their types, so a unit may hand over fewer values than it declares. It may
not hand over more, and no null for a result of a value type.

## Main definitions

* `LeavesResults` — a computation that leaves the result slots of its frame alone.
* `NullForValue` — values with a null where a value type is declared.
* `filled` — results that are filled with values from the front.

## Main results

* `storeResults_fills`, `storeResults_refuses` — what storing values does to the frame.
* `on_unwinding_fills`, `on_unwinding_refuses` — what becomes of a call once its values are being
  stored.
* `native_results` — how calls of native units end.
-/

namespace FrameScript

open Exec

variable {α : Type}

/-! ## Filled results -/

/-- A computation that leaves the result slots of its frame alone, if it ends with a value. -/
def LeavesResults (x : Exec α) : Prop :=
  ∀ (m : Machine) (f : Frame) (fs : List Frame) (a : α) (m' : Machine),
    m.context.frames = f :: fs → x.on m = (.ok a, m') →
      ∃ g gs, m'.context.frames = g :: gs ∧ g.returns = f.returns

/-- A computation that changes nothing leaves the result slots alone. -/
theorem LeavesResults.pure (a : α) : LeavesResults (pure a) := by
  intro m f fs b m' hm hrun
  cases hrun
  exact ⟨f, fs, hm, rfl⟩

/-- Some value is a null where a value type is declared. -/
def NullForValue (tys : List Ty) (vs : List Value) : Prop :=
  ∃ (i : Nat) (ty : Ty) (v : Value),
    tys[i]? = some ty ∧ vs[i]? = some v ∧ ty.isValueType = true ∧ v.isNull = true

/-- The results of the given types that are filled with values from the front: each value as it is
declared, and defaults behind them. -/
def filled (tys : List Ty) (vs : List Value) : List Value :=
  List.zipWith (fun ty v => v.declaredAs ty) tys vs ++ (tys.drop vs.length).map Ty.default

@[simp] theorem filled_nil_left (vs : List Value) : filled [] vs = [] := by
  simp [filled]

@[simp] theorem filled_nil_right (tys : List Ty) : filled tys [] = tys.map Ty.default := by
  simp [filled]

@[simp] theorem filled_cons (ty : Ty) (tys : List Ty) (v : Value) (vs : List Value) :
    filled (ty :: tys) (v :: vs) = v.declaredAs ty :: filled tys vs := by
  simp [filled]

theorem not_nullForValue_nil_left (vs : List Value) : ¬ NullForValue [] vs := by
  rintro ⟨i, ty, v, hty, -⟩
  cases hty

theorem not_nullForValue_nil_right (tys : List Ty) : ¬ NullForValue tys [] := by
  rintro ⟨i, ty, v, -, hv, -⟩
  cases hv

theorem nullForValue_cons {ty : Ty} {tys : List Ty} {v : Value} {vs : List Value} :
    NullForValue (ty :: tys) (v :: vs) ↔
      (ty.isValueType = true ∧ v.isNull = true) ∨ NullForValue tys vs := by
  constructor
  · rintro ⟨_ | i, ty', v', hty, hv, hnull⟩
    · cases hty
      cases hv
      exact .inl hnull
    · exact .inr ⟨i, ty', v', hty, hv, hnull⟩
  · rintro (hnull | ⟨i, ty', v', hty, hv, hnull⟩)
    · exact ⟨0, ty, v, rfl, rfl, hnull⟩
    · exact ⟨i + 1, ty', v', hty, hv, hnull⟩

/-! ## Storing results -/

section Storing

variable (unit : NativeUnit) {m : Machine} {f : Frame} {fs : List Frame}

theorem nativeResult_of_not_null {ty : Ty} {v : Value}
    (h : ¬ (ty.isValueType = true ∧ v.isNull = true)) :
    nativeResult unit ty v = .ok (v.declaredAs ty) := by
  unfold nativeResult
  rw [if_neg (by rwa [Bool.and_eq_true])]

theorem nativeResult_of_null {ty : Ty} {v : Value} (hty : ty.isValueType = true)
    (hv : v.isNull = true) :
    nativeResult unit ty v = .error (.wiring (.nullResult unit.sig.qualifiedName ty)) := by
  unfold nativeResult
  rw [if_pos (by rw [hty, hv]; rfl)]

/-- The result behind those that are stored is stored next. -/
theorem on_setReturn_append {done rest : List Value} {w w' : Value} (hm : m.context.frames = f :: fs)
    (hreturns : f.returns = done ++ w :: rest) :
    (setReturn done.length w').on m =
      (.ok (), m.withFrames ({ f with returns := done ++ w' :: rest } :: fs)) := by
  have hindex : done.length < f.returns.length := by
    rw [hreturns]
    simp
  rw [on_setReturn hm hindex, hreturns]
  simp

/-- A value that is no null for a value type fills the next result. -/
theorem on_storeResults_cons {ty : Ty} {tys : List Ty} {v : Value} {vs done : List Value}
    (hm : m.context.frames = f :: fs)
    (hreturns : f.returns = done ++ (ty :: tys).map Ty.default)
    (hfirst : ¬ (ty.isValueType = true ∧ v.isNull = true)) :
    (storeResults unit done.length (v :: vs) (ty :: tys)).on m =
      (storeResults unit (done ++ [v.declaredAs ty]).length vs tys).on (m.withFrames
        ({ f with returns := (done ++ [v.declaredAs ty]) ++ tys.map Ty.default } :: fs)) := by
  rw [storeResults, on_ofExcept_bind (nativeResult_of_not_null unit hfirst),
    on_bind_ok (on_setReturn_append hm hreturns)]
  simp

/-- Values without a null for a value type fill the results they are stored in. -/
theorem storeResults_fills {tys : List Ty} {vs : List Value} (done : List Value)
    (hm : m.context.frames = f :: fs) (hreturns : f.returns = done ++ tys.map Ty.default)
    (hclear : ¬ NullForValue tys vs) :
    (storeResults unit done.length vs tys).on m =
      (.ok (), m.withFrames ({ f with returns := done ++ filled tys vs } :: fs)) := by
  induction vs generalizing tys done f m with
  | nil =>
    rw [filled_nil_right, ← hreturns, ← hm]
    rfl
  | cons v vs ih =>
    cases tys with
    | nil =>
      have hsame : done ++ filled [] (v :: vs) = f.returns := by
        rw [hreturns, filled_nil_left, List.map_nil]
      rw [hsame, ← hm]
      rfl
    | cons ty tys =>
      obtain ⟨hfirst, hrest⟩ := not_or.mp (mt nullForValue_cons.mpr hclear)
      rw [on_storeResults_cons unit hm hreturns hfirst, ih _ rfl rfl hrest]
      simp

/-- Values with a null for a value type are not all stored. -/
theorem storeResults_refuses {tys : List Ty} {vs : List Value} (done : List Value)
    (hm : m.context.frames = f :: fs) (hreturns : f.returns = done ++ tys.map Ty.default)
    (hnull : NullForValue tys vs) :
    ∃ ty g, (storeResults unit done.length vs tys).on m =
      (.error (.failed (.fault (.wiring (.nullResult unit.sig.qualifiedName ty)))),
        m.withFrames (g :: fs)) := by
  induction vs generalizing tys done f m with
  | nil => exact absurd hnull (not_nullForValue_nil_right tys)
  | cons v vs ih =>
    cases tys with
    | nil => exact absurd hnull (not_nullForValue_nil_left _)
    | cons ty tys =>
      by_cases hfirst : ty.isValueType = true ∧ v.isNull = true
      · refine ⟨ty, f, ?_⟩
        rw [storeResults, nativeResult_of_null unit hfirst.1 hfirst.2, ← hm]
        rfl
      · rw [on_storeResults_cons unit hm hreturns hfirst]
        exact ih _ rfl rfl ((nullForValue_cons.mp hnull).resolve_left hfirst)

end Storing

/-! ## Runs of native units -/

section Runs

variable {unit : NativeUnit} {m m' : Machine} {g : Frame} {gs : List Frame}

/-- More values than there are result slots are refused. -/
theorem on_run_tooMany {run : Exec (List Value)} (hunit : unit.handler = .function run)
    {vs : List Value} (hrun : run.on m = (.ok vs, m')) (hm' : m'.context.frames = g :: gs)
    (hmany : g.returns.length < vs.length) :
    unit.run.on m = (.error (.failed (.fault (.wiring
      (.tooManyResults unit.sig.qualifiedName vs.length g.returns.length)))), m') := by
  have hframe : frame.on m' = (.ok g, m') := by rw [on_frame, hm']
  unfold NativeUnit.run
  rw [hunit]
  simp only
  rw [on_bind_ok hrun, on_bind_ok hframe, if_pos hmany]
  rfl

/-- As many values as there are result slots, or fewer, are stored. -/
theorem on_run_function {run : Exec (List Value)} (hunit : unit.handler = .function run)
    {vs : List Value} (hrun : run.on m = (.ok vs, m')) (hm' : m'.context.frames = g :: gs)
    (hfew : vs.length ≤ g.returns.length) :
    unit.run.on m = (storeResults unit 0 vs unit.sig.returns).on m' := by
  have hframe : frame.on m' = (.ok g, m') := by rw [on_frame, hm']
  unfold NativeUnit.run
  rw [hunit]
  simp only
  rw [on_bind_ok hrun, on_bind_ok hframe, if_neg (Nat.not_lt.mpr hfew)]

/-- The value of a type mapper is stored like one value of a function. -/
theorem on_run_typeMapper {run : Exec Value} (hunit : unit.handler = .typeMapper run)
    {v : Value} (hrun : run.on m = (.ok v, m')) :
    unit.run.on m = (storeResults unit 0 [v] unit.sig.returns).on m' := by
  unfold NativeUnit.run
  rw [hunit]
  simp only
  rw [on_bind_ok hrun]
  cases unit.sig.returns with
  | nil => rfl
  | cons ty tys =>
    simp only [storeResults, on_bind]
    rcases (ofExcept (nativeResult unit ty v)).on m' with ⟨_ | w, m₁⟩
    · rfl
    · simp only
      rcases (setReturn 0 w).on m₁ with ⟨_ | _, m₂⟩ <;> rfl

/-- A run that stores values without a null for a value type gives them as results. -/
theorem on_unwinding_fills {run : Exec Unit} {vs : List Value}
    (hrun : run.on m = (storeResults unit 0 vs unit.sig.returns).on m')
    (hm' : m'.context.frames = g :: gs) (hg : g.returns = unit.sig.returns.map Ty.default)
    (hclear : ¬ NullForValue unit.sig.returns vs) :
    (unwinding run).on m = (.ok (filled unit.sig.returns vs), m'.withFrames gs) := by
  have hstored := storeResults_fills unit [] hm' hg hclear
  exact on_unwinding_ok (hrun.trans hstored) rfl

/-- A run that stores values with a null for a value type fails. -/
theorem on_unwinding_refuses {run : Exec Unit} {vs : List Value}
    (hrun : run.on m = (storeResults unit 0 vs unit.sig.returns).on m')
    (hm' : m'.context.frames = g :: gs) (hg : g.returns = unit.sig.returns.map Ty.default)
    (hnull : NullForValue unit.sig.returns vs) :
    ∃ cause, ((unwinding run).on m).1 = .error (.failed (.fault (.wiring cause))) := by
  obtain ⟨ty, g', hstored⟩ := storeResults_refuses unit [] hm' hg hnull
  exact ⟨_, by rw [on_unwinding_failed (hrun.trans hstored) rfl]⟩

end Runs

/-! ## Calls of native units -/

/-- The ending is a complaint about the wiring of a native unit. -/
def FailsWired (ending : Except Stop (List Value)) : Prop :=
  ∃ cause, ending = .error (.failed (.fault (.wiring cause)))

/-- The ending of a call whose handler has handed over values for its results: a complaint about the
wiring exactly if one of them is a null where a value type is declared, and otherwise the results
that the values fill. -/
structure Fills (tys : List Ty) (vs : List Value) (ending : Except Stop (List Value)) : Prop where
  fails_iff : FailsWired ending ↔ NullForValue tys vs
  results : ¬ NullForValue tys vs → ending = .ok (filled tys vs)

/-- The slots of a native unit are its parameters. -/
theorem NativeUnit.wellShaped (unit : NativeUnit) : (Callable.native unit).WellShaped :=
  ⟨⟨0, rfl⟩, List.prefix_refl _⟩

/-- The result slots of a fresh frame of a native unit. -/
theorem returns_of_prepare_native {unit : NativeUnit} {args : List Value} {g : Frame}
    (h : prepare (.native unit) args = .ok g) : g.returns = unit.sig.returns.map Ty.default := by
  obtain ⟨-, temps, -, rfl⟩ := prepare_ok unit.wellShaped h
  rfl

/-- A call of a native unit that is admitted and finds room runs the unit on a new frame. -/
theorem on_call_native {unit : NativeUnit} {args : List Value} {g : Frame}
    (hprepare : prepare (.native unit) args = .ok g) {m : Machine}
    (hroom : m.context.depth < m.context.maxDepth) (p : Program) (rounds levels : Nat) :
    (call p rounds (levels + 1) (.native unit) args).on m =
      (unwinding unit.run).on (m.withFrames (g :: m.context.frames)) :=
  on_call_room rounds hprepare hroom

/-- **Native results.** Let a native unit have a handler that leaves the result slots alone, and let
a call of it be admitted and find room.

* If its handler is a function and hands over more values than the unit declares, the call fails
  with a complaint about the wiring. If it hands over as many or fewer, the call does so exactly if
  one of them is a null where a value type is declared; otherwise there are as many results as are
  declared: the values in front, each null as the null of its declared reference type, and defaults
  behind.
* The one value of a type mapper goes into the first result in the same way, with defaults behind
  it, and goes nowhere if no result is declared.

A result that is declared to have the type of the bare null takes any null as it is.

**Proof sketch.** The frame has a slot for each declared result, which starts at the default of its
type (`returns_of_prepare_native`), and the handler leaves it so. The values are stored one after
the other: those that are stored stand in front of the slots that are still at their defaults
(`storeResults_fills`), up to the first null for a value type (`storeResults_refuses`). -/
theorem native_results {unit : NativeUnit} (hleaves : unit.handler.Has fun _ => LeavesResults)
    {args : List Value} {g : Frame} (hprepare : prepare (.native unit) args = .ok g)
    {m : Machine} (hroom : m.context.depth < m.context.maxDepth) (p : Program)
    (rounds levels : Nat) :
    (∀ run vs m', unit.handler = .function run →
      run.on (m.withFrames (g :: m.context.frames)) = (.ok vs, m') →
      (unit.sig.returns.length < vs.length →
        ((call p rounds (levels + 1) (.native unit) args).on m).1 = .error (.failed (.fault (.wiring
          (.tooManyResults unit.sig.qualifiedName vs.length unit.sig.returns.length))))) ∧
      (vs.length ≤ unit.sig.returns.length → Fills unit.sig.returns vs
        ((call p rounds (levels + 1) (.native unit) args).on m).1)) ∧
    ∀ run v m', unit.handler = .typeMapper run →
      run.on (m.withFrames (g :: m.context.frames)) = (.ok v, m') →
      Fills unit.sig.returns [v] ((call p rounds (levels + 1) (.native unit) args).on m).1 := by
  have hcall := on_call_native hprepare hroom p rounds levels
  have hfresh := returns_of_prepare_native hprepare
  -- what becomes of values once they are being stored
  have hfills {vs m' g' gs} (hm' : m'.context.frames = g' :: gs) (hg' : g'.returns = g.returns)
      (hrun : unit.run.on (m.withFrames (g :: m.context.frames)) =
        (storeResults unit 0 vs unit.sig.returns).on m') :
      Fills unit.sig.returns vs ((call p rounds (levels + 1) (.native unit) args).on m).1 := by
    rw [hcall]
    by_cases hnull : NullForValue unit.sig.returns vs
    · exact ⟨iff_of_true (on_unwinding_refuses hrun hm' (hg'.trans hfresh) hnull) hnull,
        fun hclear => absurd hnull hclear⟩
    · have hon := on_unwinding_fills hrun hm' (hg'.trans hfresh) hnull
      refine ⟨iff_of_false ?_ hnull, fun _ => by rw [hon]⟩
      rintro ⟨cause, hfailed⟩
      rw [hon] at hfailed
      cases hfailed
  constructor
  · intro run vs m' hunit hrun
    rw [hunit] at hleaves
    obtain ⟨g', gs, hm', hg'⟩ := hleaves _ g _ vs m' rfl hrun
    have hlen : g'.returns.length = unit.sig.returns.length := by
      rw [hg', hfresh, List.length_map]
    constructor
    · intro hmany
      rw [← hlen] at hmany ⊢
      rw [hcall, on_unwinding_failed (on_run_tooMany hunit hrun hm' hmany) hm']
    · intro hfew
      exact hfills hm' hg' (on_run_function hunit hrun hm' (hlen ▸ hfew))
  · intro run v m' hunit hrun
    rw [hunit] at hleaves
    obtain ⟨g', gs, hm', hg'⟩ := hleaves _ g _ v m' rfl hrun
    exact hfills hm' hg' (on_run_typeMapper hunit hrun)

/-- A native unit that hands over fewer values than it declares, a null among them. -/
def partialUnit : NativeUnit :=
  .function "host" "partial" [] [.int, .ref .json, .ref .map] (pure [.int 7, .null .null])

/-- A type mapper that hands over a null for a number. -/
def blankUnit : NativeUnit :=
  .typeMapper "host" "blank" .any .int (pure (.null .null))

/-- The results of the first unit are filled up, and a call of the second one fails. -/
theorem native_results_partial :
    ((call {} maxRounds 1 (.native partialUnit) []).on { context := { maxDepth := 1 } }).1 =
      .ok [.int 7, .null .json, .null .map] ∧
    FailsWired
      ((call {} maxRounds 1 (.native blankUnit) [.int 1]).on { context := { maxDepth := 1 } }).1 := by
  let start : Machine := { context := { maxDepth := 1 } }
  have hroom : start.context.depth < start.context.maxDepth := Nat.zero_lt_one
  constructor
  · have hleaves : partialUnit.handler.Has fun _ => LeavesResults := LeavesResults.pure _
    obtain ⟨g, hprepare⟩ : ∃ g, prepare (.native partialUnit) [] = .ok g := ⟨_, rfl⟩
    have hfills := ((native_results hleaves hprepare hroom {} maxRounds 0).1
      _ _ _ rfl rfl).2 (by decide)
    refine hfills.results ?_
    simp [partialUnit, NativeUnit.function, nullForValue_cons, not_nullForValue_nil_right,
      Value.isNull, Ty.isValueType]
  · have hleaves : blankUnit.handler.Has fun _ => LeavesResults := LeavesResults.pure _
    obtain ⟨g, hprepare⟩ : ∃ g, prepare (.native blankUnit) [.int 1] = .ok g := ⟨_, rfl⟩
    have hfills := (native_results hleaves hprepare hroom {} maxRounds 0).2
      _ _ _ rfl rfl
    exact hfills.fails_iff.mpr ⟨0, .int, .null .null, rfl, rfl, rfl, rfl⟩

end FrameScript
