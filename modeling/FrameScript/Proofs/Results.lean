import FrameScript.Proofs.Nulls
import FrameScript.Proofs.Room

set_option autoImplicit false

/-!
# Results as they are declared

The results of a call lie in slots of its frame from its beginning on. They start at the defaults of
their types, and a body writes to them only what their types may hold as far as nulls are concerned.
So the values that a call ends with are as its callee declares them, whatever the arguments, the
objects and the values of expressions are.

## Main definitions

* `Frame.HoldsResults` — result slots that hold what their types declare.
* `KeepsResults` — a computation that leaves result slots so.
* `Callable.KeepsResults` — a function, or a native unit whose handler leaves result slots so.

## Main results

* `call_heldAs` — the values of a call are held as its callee declares them.
* `Library.standard_keepsResults` — the standard library does not touch result slots.
-/

namespace FrameScript

open Exec

variable {α β : Type} {tys : List Ty}

/-! ## Values that are held as declared -/

/-- A value that a place may hold is bound to it as it is. -/
theorem Value.HeldAs.bind_eq {ty : Ty} {v : Value} (h : v.HeldAs ty) : v.bind ty = .ok v := by
  unfold Value.bind
  rw [if_neg]
  · congr 1
    cases v with
    | null tag =>
      cases ty with
      | ref r =>
        cases r with
        | null => rfl
        | _ => rw [h.tagged _ tag rfl (by simp) rfl]; rfl
      | _ => rfl
    | _ => cases ty with
      | ref r => cases r <;> rfl
      | _ => rfl
  · rw [Bool.and_eq_true]
    rintro ⟨hvalue, hnull⟩
    rw [h.present hvalue] at hnull
    cases hnull

/-- What a native unit stores as a result is something that the place may hold. -/
theorem Value.heldAs_of_nativeResult {unit : NativeUnit} {ty : Ty} {v w : Value}
    (h : nativeResult unit ty v = .ok w) : w.HeldAs ty := by
  refine Value.heldAs_of_bind (v := v) ?_
  unfold nativeResult at h
  unfold Value.bind
  split at h
  · cases h
  next hfits => rw [if_neg hfits, ← h]

/-! ## Result slots -/

/-- The results of the frame are as the types declare them. -/
def Frame.HoldsResults (tys : List Ty) (f : Frame) : Prop :=
  List.Forall₂ (fun ty v => v.HeldAs ty) tys f.returns

/-- Results start as their types declare them. -/
theorem heldAs_default (tys : List Ty) :
    List.Forall₂ (fun ty (v : Value) => v.HeldAs ty) tys (tys.map Ty.default) := by
  induction tys with
  | nil => exact .nil
  | cons ty tys ih => exact .cons (nullDiscipline.default ty) ih

/-- A computation that leaves the results of its frame as the types declare them, if it ends with a
value and finds them so. -/
def KeepsResults (tys : List Ty) (x : Exec α) : Prop :=
  ∀ (m : Machine) (f : Frame) (fs : List Frame) (a : α) (m' : Machine),
    m.context.frames = f :: fs → f.HoldsResults tys → x.on m = (.ok a, m') →
      ∃ f' fs', m'.context.frames = f' :: fs' ∧ f'.HoldsResults tys

namespace KeepsResults

theorem of_frames {x : Exec α} (hx : ∀ m : Machine, (x.on m).2.context.frames = m.context.frames) :
    KeepsResults tys x := by
  intro m f fs a m' hm hf hrun
  have hframes := hx m
  rw [hrun, hm] at hframes
  exact ⟨f, fs, hframes, hf⟩

theorem throw (s : Stop) : KeepsResults tys (throw s : Exec α) :=
  of_frames fun _ => rfl

theorem bind {x : Exec α} {k : α → Exec β} (hx : KeepsResults tys x)
    (hk : ∀ a, KeepsResults tys (k a)) : KeepsResults tys (x >>= k) := by
  intro m f fs b m' hm hf hrun
  obtain ⟨a, m₁, hfirst, hrest⟩ := (bind_ok m).mp hrun
  obtain ⟨f₁, fs₁, hm₁, hf₁⟩ := hx m f fs a m₁ hm hf hfirst
  exact hk a m₁ f₁ fs₁ b m' hm₁ hf₁ hrest

theorem ofExcept (r : Except Fault α) : KeepsResults tys (ofExcept r) := by
  cases r with
  | ok a => exact of_frames fun _ => rfl
  | error f => exact throw _

theorem frame : KeepsResults tys frame := by
  refine of_frames fun m => ?_
  rw [on_frame]
  split <;> rfl

/-- A change of the frame that leaves its results as the types declare them. -/
theorem modifyFrame {change : Frame → Except Fault Frame}
    (hchange : ∀ f g, change f = .ok g → f.HoldsResults tys → g.HoldsResults tys) :
    KeepsResults tys (modifyFrame change) := by
  intro m f fs a m' hm hf hrun
  rw [on_modifyFrame, hm] at hrun
  rcases hg : change f with e | g
  · simp only [hg] at hrun
    cases hrun
  · simp only [hg] at hrun
    cases hrun
    exact ⟨g, fs, rfl, hchange f g hg hf⟩

theorem setSlot (index : Nat) (v : Value) : KeepsResults tys (setSlot index v) := by
  refine modifyFrame fun f g hg hf => ?_
  unfold Frame.set at hg
  split at hg
  · cases hg
    exact hf
  · cases hg

theorem setTemp (index : Nat) (v : Value) : KeepsResults tys (setTemp index v) := by
  refine modifyFrame fun f g hg hf => ?_
  unfold Frame.setTemp at hg
  split at hg
  · cases hg
    exact hf
  · cases hg

theorem takeTemp (index : Nat) : KeepsResults tys (takeTemp index) := by
  intro m f fs v m' hm hf hrun
  rw [on_takeTemp, hm] at hrun
  unfold Frame.takeTemp at hrun
  rcases hw : f.temps[index]? with _ | _ | w <;> simp only [hw] at hrun <;> cases hrun
  exact ⟨_, fs, rfl, hf⟩

/-- A result that its place may hold is one that may be stored. -/
theorem setReturn {index : Nat} {v : Value} (hv : ∀ ty, tys[index]? = some ty → v.HeldAs ty) :
    KeepsResults tys (setReturn index v) := by
  refine modifyFrame fun f g hg hf => ?_
  unfold Frame.setReturn at hg
  split at hg
  · cases hg
    exact forall₂_set hf hv
  · cases hg

/-- What follows a result that may be a fault only matters for results that are none. -/
theorem ofExcept_bind {r : Except Fault α} {k : α → Exec β}
    (hk : ∀ a, r = .ok a → KeepsResults tys (k a)) : KeepsResults tys (Exec.ofExcept r >>= k) := by
  cases r with
  | ok a => exact hk a rfl
  | error f => exact throw _

/-- Results are written as the types declare them. -/
theorem writeResults (index : Nat) (vs : List Value) :
    KeepsResults tys (writeResults tys index vs) := by
  induction vs generalizing index with
  | nil => exact of_frames fun _ => rfl
  | cons v vs ih =>
    refine ofExcept_bind fun w hw => bind (setReturn fun ty hty => ?_) fun _ => ih (index + 1)
    rw [hty] at hw
    exact Value.heldAs_of_bind hw

/-- The results of a native unit are stored as the types declare them. -/
theorem storeResults (unit : NativeUnit) (index : Nat) (vs : List Value) {rest : List Ty}
    (hrest : rest = tys.drop index) : KeepsResults tys (storeResults unit index vs rest) := by
  induction vs generalizing index rest with
  | nil => exact of_frames fun _ => rfl
  | cons v vs ih =>
    cases rest with
    | nil => exact of_frames fun _ => rfl
    | cons ty rest =>
      obtain ⟨hty, -⟩ := cons_prefix_drop ⟨[], (List.append_nil _).trans hrest⟩
      refine ofExcept_bind fun w hw => bind (setReturn fun ty' hty' => ?_) fun _ => ?_
      · obtain rfl := Option.some.inj (hty.symm.trans hty')
        exact Value.heldAs_of_nativeResult hw
      · exact ih (index + 1) (by rw [← List.drop_drop, ← hrest]; rfl)

/-- A computation that is confined to no frame leaves all frames as they are. -/
theorem of_confined {x : Exec α} (hx : Confined 0 x) : KeepsResults tys x := by
  intro m f fs a m' hm hf hrun
  obtain ⟨r, m₁, top, hr, h⟩ := hx m [] _ rfl
  have hon := h m.context.frames rfl
  rw [List.nil_append, Machine.withFrames_self, hrun] at hon
  cases hon
  obtain rfl : top = [] := List.length_eq_zero_iff.mp (hr.resolve_left nofun)
  exact ⟨f, fs, hm, hf⟩

/-- Leaving results as the types declare them is a property that the steps of bodies have. -/
theorem congruence : CongruenceOf tys fun _ x _ => KeepsResults tys x where
  pure _ := of_frames fun _ => rfl
  bind := bind
  fault _ := throw _
  heap := of_frames fun _ => rfl
  frame h := bind frame fun _ => h
  getSlot _ := bind frame fun _ => ofExcept _
  setSlot := setSlot
  setTemp _ v := setTemp _ v
  takeTemp _ := takeTemp _
  writeResults := writeResults
  newArray _ _ := of_frames fun _ => rfl
  newMap _ := of_frames fun _ => rfl
  newStruct _ _ := of_frames fun _ => rfl
  newConnector _ _ := of_frames fun _ => rfl
  newMessage _ := of_frames fun _ => rfl
  withElement _ _ _ _ := of_frames fun _ => rfl
  setEntry _ _ _ := of_frames fun _ => rfl
  withField _ _ _ := of_frames fun _ => rfl

/-- Leaving results as the types declare them is a property that the steps of the standard library
have. -/
theorem closed_library : Library.Closed fun _ x => KeepsResults tys x where
  pure _ := of_frames fun _ => rfl
  bind := bind
  hostError _ := throw _
  defect _ := throw _
  argument _ := bind frame fun _ => ofExcept _
  heap := of_frames fun _ => rfl
  newArray _ _ := of_frames fun _ => rfl
  eraseEntry _ _ := of_frames fun _ => rfl
  print _ := of_frames fun _ => rfl
  property? _ := of_frames fun _ => rfl

end KeepsResults

/-! ## Native units -/

/-- A native unit whose handler leaves in the result slots what their types may hold. -/
def NativeUnit.KeepsResults (unit : NativeUnit) : Prop :=
  unit.handler.Has fun _ run => FrameScript.KeepsResults unit.sig.returns run

/-- A function, or a native unit whose handler leaves in the result slots what their types may
hold. -/
def Callable.KeepsResults : Callable → Prop
  | .function _ => True
  | .native unit => unit.KeepsResults

theorem NativeUnit.KeepsResults.run {unit : NativeUnit} (h : unit.KeepsResults) :
    FrameScript.KeepsResults unit.sig.returns unit.run := by
  unfold NativeUnit.KeepsResults Handler.Has at h
  unfold NativeUnit.run
  split <;> rename_i run hrun <;> rw [hrun] at h
  · refine .bind h fun vs => .bind .frame fun f => ?_
    split
    · exact .throw _
    · exact .storeResults unit 0 vs rfl
  · refine .bind h fun v => ?_
    split
    next ty tys hreturns =>
      refine .ofExcept_bind fun w hw => .setReturn fun ty' hty => ?_
      rw [hreturns] at hty
      cases hty
      exact Value.heldAs_of_nativeResult hw
    · exact .of_frames fun _ => rfl

/-- No unit of the standard library touches the result slots. -/
theorem Library.standard_keepsResults {key : String} {unit : NativeUnit}
    (h : (key, unit) ∈ standard.units) : unit.KeepsResults := by
  obtain ⟨package, hpackage, hmem⟩ := mem_standard h
  exact KeepsResults.closed_library.handler hpackage hmem

/-! ## Calls -/

/-- The results of a fresh frame are at their defaults. -/
theorem Frame.holdsResults_of_prepare {unit : Callable} {args : List Value} {f : Frame}
    (h : prepare unit args = .ok f) : f.HoldsResults unit.sig.returns := by
  obtain ⟨_, -, h⟩ := bind_eq_ok.mp h
  obtain ⟨shape, -, h⟩ := bind_eq_ok.mp h
  dsimp only [Frame.make?] at h
  split at h
  · cases h
  · cases h
    exact heldAs_default unit.sig.returns

/-- **Results are held as declared.** If a call ends with values, these are as many as its callee
declares and held as it declares them, whatever the arguments and the state are. -/
theorem call_heldAs {p : Program} (hp : p.NativesConfined) {rounds levels : Nat} {name : String}
    {unit : Callable} (hunit : p.find? name = some unit) (hkeeps : unit.KeepsResults)
    {args vs : List Value} {m m' : Machine}
    (hrun : (call p rounds levels unit args).on m = (.ok vs, m')) :
    List.Forall₂ (fun ty v => v.HeldAs ty) unit.sig.returns vs := by
  have hbody (levels : Nat) :
      KeepsResults unit.sig.returns (dispatch p rounds (call p rounds levels) unit) := by
    cases unit with
    | native u => exact NativeUnit.KeepsResults.run hkeeps
    | function function =>
      refine KeepsResults.congruence.run (.refl _) (fun name unit hunit args => ?_) rfl
        fun _ _ _ => KeepsResults.congruence.loopsAlike (.throw _) rounds
      exact .of_confined (call_confined hp rounds levels (Program.find?_of_resolve hunit) args)
  rcases hprepare : prepare unit args with e | g
  · rw [on_call_refused rounds _ hprepare] at hrun
    cases hrun
  · by_cases hfull : m.context.maxDepth ≤ m.context.depth
    · rw [on_call_full rounds _ hprepare hfull] at hrun
      cases hrun
    · cases levels with
      | zero =>
        rw [on_call_zero, hprepare] at hrun
        cases hrun
      | succ levels =>
        rw [on_call_room rounds hprepare (Nat.not_le.mp hfull), on_unwinding] at hrun
        split at hrun
        next m₁ hx =>
          obtain ⟨f, fs, hfs, hf⟩ := hbody levels _ g m.context.frames () m₁ rfl
            (Frame.holdsResults_of_prepare hprepare) hx
          rw [hfs] at hrun
          cases hrun
          exact hf
        · split at hrun <;> cases hrun
        · cases hrun

end FrameScript
