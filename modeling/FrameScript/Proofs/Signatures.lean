import FrameScript.Proofs.Closed
import FrameScript.Proofs.Entry
import FrameScript.Proofs.NativeResults
import FrameScript.Proofs.Standard
import FrameScript.Proofs.Typing

set_option autoImplicit false

/-!
# The signatures of the standard library

Nothing checks at run time that the values of a native unit are of the types that the unit declares,
or that it reads its arguments as what they are declared as. Here both are shown of all units of the
standard library: a call that is admitted gives what the signature says, or fails for a null that
stands in for a reference, or for a text that is no document.

## Main definitions

* `Ty.Promises` — a result that a declared type promises.
* `NativeUnit.MayFail` — the failures that a signature leaves room for.
* `NativeUnit.MayChange` — what a unit may do to the objects.
* `NativeUnit.Honours` — a call that ends as the signature says.

## Main results

* `on_argument_prepared` — how an argument is read on the frame that is made for it.
* `NativeUnit.Delivers.call` — a unit whose handler delivers honours its signature.
* `Library.standard_honours` — the units of the standard library honour their signatures.

## Design

All units read their arguments before they do anything else. So whether a handler delivers is a
question about one state, and only the last step of a handler changes it.
-/

namespace FrameScript

open Exec

/-! ## What signatures say -/

/-- A value that a declared type of a result promises: one of a type that it accepts, and no
null. -/
structure Ty.Promises (ty : Ty) (v : Value) : Prop where
  accepts : ty.accepts v.ty = true
  present : v.isNull = false

/-- The failures that a signature leaves room for. -/
inductive NativeUnit.MayFail (unit : NativeUnit) (args : List Value) : Failure → Prop
  /-- A null argument for a parameter of a reference type. -/
  | nullArgument {i : Nat} {param : Param} {v : Value} (hparam : unit.sig.params[i]? = some param)
    (href : param.ty.isValueType = false) (hv : args[i]? = some v) (hnull : v.isNull = true) :
    MayFail unit args (.fault (.nullArgument i))
  /-- A text that is no document where one is to be read. -/
  | invalidJson {s : String}
    (hname : unit.sig.qualifiedName = "ballerina.lang.convertors:stringToJson")
    (hargs : args = [.str s]) (hs : Json.parse? s = none) :
    MayFail unit args (.host "stringToJson: invalid JSON")

/-- The objects are as before, except that a map may have lost an entry of the given key. -/
structure Heap.LosesAtMost (id : Nat) (key : String) (h h' : Heap) : Prop where
  arrays : h'.arrays = h.arrays
  structs : h'.structs = h.structs
  connectors : h'.connectors = h.connectors
  messages : h'.messages = h.messages
  size : h'.maps.size = h.maps.size
  others : ∀ id' ≠ id, h'.map id' = h.map id'
  fewer : (h'.map id).Sublist (h.map id)
  kept : ∀ entry ∈ h.map id, entry.1 ≠ key → entry ∈ h'.map id

/-- What a unit may do to the objects. -/
inductive NativeUnit.MayChange (unit : NativeUnit) (args : List Value) (h : Heap) : Heap → Prop
  /-- They stay as they are. -/
  | same : MayChange unit args h h
  /-- The array of the keys of a map is new, and all that was there before stays. -/
  | made (items : Array Value) (hname : unit.sig.qualifiedName = "ballerina.lang.maps:keys") :
    MayChange unit args h (h.newArray .string items).2
  /-- A key is removed from a map. -/
  | removed {id : Nat} {key : String} {h' : Heap}
    (hname : unit.sig.qualifiedName = "ballerina.lang.maps:remove")
    (hargs : args = [.map id, .str key]) (hloses : h.LosesAtMost id key h') :
    MayChange unit args h h'

/-- A call of a native unit that ends as its signature says: with as many values as are declared,
each of them as promised, or with a failure that the signature leaves room for and the objects as
they were. -/
inductive NativeUnit.Honours (unit : NativeUnit) (args : List Value) (h : Heap) :
    Except Stop (List Value) × Machine → Prop
  | returned {vs : List Value} {m' : Machine}
    (hvs : List.Forall₂ Ty.Promises unit.sig.returns vs)
    (hheap : unit.MayChange args h m'.heap) : Honours unit args h (.ok vs, m')
  | failed {e : Failure} {m' : Machine} (he : unit.MayFail args e) (hheap : m'.heap = h) :
    Honours unit args h (.error (.failed e), m')

/-! ## Removing keys -/

theorem Dict.erase_sublist {α : Type} (key : String) (d : Dict α) : (erase key d).Sublist d := by
  induction d with
  | nil => exact .slnil
  | cons entry d ih =>
    obtain ⟨k, v⟩ := entry
    unfold erase
    split
    · exact List.sublist_cons_self _ _
    · exact ih.cons_cons _

theorem Dict.mem_erase_of_ne {α : Type} {key : String} {entry : String × α} {d : Dict α}
    (h : entry ∈ d) (hne : entry.1 ≠ key) : entry ∈ erase key d := by
  induction d with
  | nil => cases h
  | cons first d ih =>
    obtain ⟨k, v⟩ := first
    unfold erase
    rcases List.mem_cons.mp h with rfl | hrest
    · rw [if_neg (by simpa using hne)]
      exact List.mem_cons_self
    · split
      · exact hrest
      · exact List.mem_cons_of_mem _ (ih hrest)

/-- Removing a key from a map takes at most that key out of it, and touches nothing else. -/
theorem Heap.losesAtMost_erase (h : Heap) (id : Nat) (key : String) :
    h.LosesAtMost id key (h.setMap id (Dict.erase key)) where
  arrays := rfl
  structs := rfl
  connectors := rfl
  messages := rfl
  size := by simp [Heap.setMap]
  others id' hne := by rw [Heap.map_setMap, if_neg fun hsame => hne hsame.1.symm]
  fewer := by
    rw [Heap.map_setMap]
    split
    · exact Dict.erase_sublist _ _
    · exact List.Sublist.refl _
  kept entry hentry hne := by
    rw [Heap.map_setMap]
    split
    · exact Dict.mem_erase_of_ne hentry hne
    · exact hentry

/-! ## Reading arguments -/

/-- Storing a value makes no null of it, and no other value of a null. -/
theorem Value.isNull_declaredAs (ty : Ty) (v : Value) : (v.declaredAs ty).isNull = v.isNull := by
  unfold Value.declaredAs
  split <;> rfl

section Reading

variable {unit : NativeUnit} {args : List Value} {g : Frame} {m : Machine} {fs : List Frame}
  (hprepare : prepare (.native unit) args = .ok g) (hm : m.context.frames = g :: fs)

include hprepare

/-- A call that is prepared is admitted. -/
theorem admits_of_prepare : unit.sig.Admits args :=
  (exists_prepare_iff unit.wellShaped args).mp ⟨g, hprepare⟩

/-- The frame of a call has each argument in the slot of its parameter. -/
theorem argument_of_prepare {i : Nat} {param : Param} (hparam : unit.sig.params[i]? = some param)
    {v : Value} (hv : args[i]? = some v) :
    g.argument i = if v.isNull then .error (.nullArgument i) else .ok v := by
  obtain ⟨-, temps, -, rfl⟩ := prepare_ok unit.wellShaped hprepare
  have hi : i < args.length := (List.getElem?_eq_some_iff.mp hv).1
  have hty : unit.sig.paramTypes[i]? = some param.ty := by
    rw [Signature.paramTypes, List.getElem?_map, hparam]
    rfl
  have hpassed : (args.zip unit.sig.paramTypes)[i]? = some (v, param.ty) :=
    List.getElem?_zip_eq_some.mpr ⟨hv, hty⟩
  have hfront := (List.getElem?_eq_some_iff.mp hpassed).1
  simp only [Frame.argument, Frame.nullableArgument, Frame.get, if_pos hi, Callable.slotTypes]
  rw [List.getElem?_append_left (by rwa [List.length_map]), List.getElem?_map, hpassed]
  simp only [Option.map_some, Value.isNull_declaredAs]
  cases hnull : v.isNull with
  | true => rfl
  | false => rw [Value.declaredAs_of_not_isNull hnull]

include hm

/-- An argument that is no null is read as it was passed. -/
theorem on_argument_given {i : Nat} {param : Param} (hparam : unit.sig.params[i]? = some param)
    {v : Value} (hv : args[i]? = some v) (hpresent : v.isNull = false) :
    (argument i).on m = (.ok v, m) := by
  rw [on_argument_of_frames hm, argument_of_prepare hprepare hparam hv, hpresent]
  rfl

theorem on_stringArgument {i : Nat} {param : Param} (hparam : unit.sig.params[i]? = some param)
    {s : String} (hv : args[i]? = some (.str s)) : (stringArgument i).on m = (.ok s, m) := by
  rw [stringArgument, argumentAs, on_bind_ok (on_argument_given hprepare hm hparam hv rfl)]
  rfl

theorem on_mapArgument {i : Nat} {param : Param} (hparam : unit.sig.params[i]? = some param)
    {id : Nat} (hv : args[i]? = some (.map id)) : (Library.mapArgument i).on m = (.ok id, m) := by
  rw [Library.mapArgument, on_bind_ok (on_argument_given hprepare hm hparam hv rfl)]
  rfl

/-- An argument of a parameter is read on the frame that is made for it: if it is a null then its
parameter is one of a reference type and there is nothing to read, and otherwise it is read as it
was passed and of a type that the parameter accepts. -/
theorem on_argument_prepared {i : Nat} {param : Param}
    (hparam : unit.sig.params[i]? = some param) :
    ∃ v, args[i]? = some v ∧
      ((v.isNull = true ∧ param.ty.isValueType = false ∧
        (argument i).on m = (.error (.failed (.fault (.nullArgument i))), m)) ∨
      (v.isNull = false ∧ param.ty.accepts v.ty = true ∧ (argument i).on m = (.ok v, m))) := by
  have hadmits := admits_of_prepare hprepare
  have hi : i < args.length := by
    rw [hadmits.count]
    exact (List.getElem?_eq_some_iff.mp hparam).1
  have hv := List.getElem?_eq_getElem hi
  have htakes := hadmits.takes i param _ hparam hv
  refine ⟨args[i], hv, ?_⟩
  cases hnull : args[i].isNull with
  | true =>
    refine .inl ⟨rfl, htakes.1 hnull, ?_⟩
    rw [on_argument_of_frames hm, argument_of_prepare hprepare hparam hv, hnull]
    rfl
  | false => exact .inr ⟨rfl, htakes.2 hnull, on_argument_given hprepare hm hparam hv hnull⟩

end Reading

/-! ## Handlers that deliver -/

section Delivering

variable {α β : Type}

/-- A computation on the frame of a call gives what is promised, with the frames as they were and
the objects changed as the unit may change them, or fails as the unit may fail before it has done
anything. -/
inductive Delivers (unit : NativeUnit) (args : List Value) (m : Machine) (x : Exec α)
    (promised : α → Prop) : Prop
  | gives {a : α} {m' : Machine} (hx : x.on m = (.ok a, m'))
    (hframes : m'.context.frames = m.context.frames)
    (hheap : unit.MayChange args m.heap m'.heap) (ha : promised a)
  | fails {e : Failure} (hx : x.on m = (.error (.failed e), m)) (he : unit.MayFail args e)

namespace Delivers

variable {unit : NativeUnit} {args : List Value} {g : Frame} {m : Machine} {fs : List Frame}

/-- What is computed without touching anything. -/
theorem pure {promised : α → Prop} {a : α} (ha : promised a) :
    Delivers unit args m (pure a) promised :=
  .gives rfl rfl .same ha

/-- A first step that changes nothing. -/
theorem bind {promised : β → Prop} {x : Exec α} {k : α → Exec β} {a : α}
    (hx : x.on m = (.ok a, m)) (hk : Delivers unit args m (k a) promised) :
    Delivers unit args m (x >>= k) promised := by
  cases hk with
  | gives hk hframes hheap ha => exact .gives ((on_bind_ok hx).trans hk) hframes hheap ha
  | fails hk he => exact .fails ((on_bind_ok hx).trans hk) he

section Reading

variable (hprepare : prepare (.native unit) args = .ok g) (hm : m.context.frames = g :: fs)

include hprepare hm

/-- What follows an argument is asked about values that the parameter accepts, no null among
them. -/
theorem argument {promised : β → Prop} {k : Value → Exec β} {i : Nat} {param : Param}
    (hparam : unit.sig.params[i]? = some param)
    (hk : ∀ v, args[i]? = some v → v.isNull = false → param.ty.accepts v.ty = true →
      Delivers unit args m (k v) promised) :
    Delivers unit args m (argument i >>= k) promised := by
  obtain ⟨v, hv, ⟨hnull, href, hon⟩ | ⟨hpresent, haccepts, hon⟩⟩ :=
    on_argument_prepared hprepare hm hparam
  · exact .fails (on_bind_error hon) (.nullArgument hparam href hv hnull)
  · exact .bind hon (hk v hv hpresent haccepts)

/-- What follows an argument of a value type is asked about what is read, for there always is
something to read. -/
theorem argumentAs {promised : β → Prop} {read : Value → Option α} {k : α → Exec β} {i : Nat}
    {param : Param} (hparam : unit.sig.params[i]? = some param)
    (hvalue : param.ty.isValueType = true)
    (hread : ∀ v, v.ty = param.ty → (read v).isSome = true)
    (hk : ∀ v a, args[i]? = some v → read v = some a → Delivers unit args m (k a) promised) :
    Delivers unit args m (Exec.argumentAs read param.ty i >>= k) promised := by
  obtain ⟨v, hv, ⟨-, href, -⟩ | ⟨-, haccepts, hon⟩⟩ := on_argument_prepared hprepare hm hparam
  · rw [hvalue] at href
    cases href
  · obtain ⟨a, ha⟩ := Option.isSome_iff_exists.mp (hread v (Ty.eq_of_accepts hvalue haccepts))
    have hread : (Exec.argumentAs read param.ty i).on m = (.ok a, m) := by
      rw [Exec.argumentAs, on_bind_ok hon, ha]
      rfl
    exact .bind hread (hk v a hv ha)

theorem stringArgument {promised : β → Prop} {k : String → Exec β} {i : Nat} {name : String}
    (hparam : unit.sig.params[i]? = some ⟨name, .string⟩)
    (hk : ∀ s, args[i]? = some (.str s) → Delivers unit args m (k s) promised) :
    Delivers unit args m (stringArgument i >>= k) promised := by
  refine argumentAs hprepare hm hparam rfl (fun _ => Value.isSome_str?) fun v s hv hs => hk s ?_
  cases v <;> simp_all [Value.str?]

theorem intArgument {promised : β → Prop} {k : Int64 → Exec β} {i : Nat} {name : String}
    (hparam : unit.sig.params[i]? = some ⟨name, .int⟩)
    (hk : ∀ n, Delivers unit args m (k n) promised) :
    Delivers unit args m (intArgument i >>= k) promised :=
  argumentAs hprepare hm hparam rfl (fun _ => Value.isSome_int?) fun _ n _ _ => hk n

theorem floatArgument {promised : β → Prop} {k : Float → Exec β} {i : Nat} {name : String}
    (hparam : unit.sig.params[i]? = some ⟨name, .float⟩)
    (hk : ∀ x, Delivers unit args m (k x) promised) :
    Delivers unit args m (floatArgument i >>= k) promised :=
  argumentAs hprepare hm hparam rfl (fun _ => isSome_exactFloat?) fun _ x _ _ => hk x

theorem boolArgument {promised : β → Prop} {k : Bool → Exec β} {i : Nat} {name : String}
    (hparam : unit.sig.params[i]? = some ⟨name, .boolean⟩)
    (hk : ∀ b, Delivers unit args m (k b) promised) :
    Delivers unit args m (boolArgument i >>= k) promised :=
  argumentAs hprepare hm hparam rfl (fun _ => Value.isSome_bool?) fun _ b _ _ => hk b

/-- What follows the identity of a map is asked about a map that was passed. -/
theorem mapArgument {promised : β → Prop} {k : Nat → Exec β} {i : Nat} {name : String}
    (hparam : unit.sig.params[i]? = some ⟨name, .ref .map⟩)
    (hk : ∀ id, args[i]? = some (.map id) → Delivers unit args m (k id) promised) :
    Delivers unit args m (Library.mapArgument i >>= k) promised := by
  rw [Library.mapArgument, bind_assoc]
  refine argument hprepare hm hparam fun v hv hpresent haccepts => ?_
  obtain ⟨id, rfl⟩ : ∃ id, v = .map id := by
    cases v <;> simp_all [Value.ty, Value.isNull, Ty.accepts]
  rw [pure_bind]
  exact hk id hv

end Reading

end Delivers

end Delivering

/-- The handler of the unit delivers what its signature promises, whichever kind it is of. -/
def NativeUnit.Delivers (unit : NativeUnit) (args : List Value) (m : Machine) : Prop :=
  match unit.handler with
  | .function run => FrameScript.Delivers unit args m run (List.Forall₂ Ty.Promises unit.sig.returns)
  | .typeMapper run =>
    FrameScript.Delivers unit args m run fun v => List.Forall₂ Ty.Promises unit.sig.returns [v]

/-- Promised values are stored as they are, without a null for a value type. -/
theorem filled_of_promises {tys : List Ty} {vs : List Value}
    (h : List.Forall₂ Ty.Promises tys vs) : filled tys vs = vs ∧ ¬ NullForValue tys vs := by
  induction h with
  | nil => exact ⟨rfl, not_nullForValue_nil_left _⟩
  | cons hfirst _ ih =>
    rw [filled_cons, Value.declaredAs_of_not_isNull hfirst.present, ih.1, nullForValue_cons,
      hfirst.present]
    exact ⟨rfl, by simp [ih.2]⟩

section Calls

variable {unit : NativeUnit} {args : List Value} {g : Frame}
  (hprepare : prepare (.native unit) args = .ok g) {m m' : Machine}
  (hroom : m.context.depth < m.context.maxDepth)
  (hframes : m'.context.frames = g :: m.context.frames)

include hprepare hroom hframes

/-- A call whose handler has handed over promised values gives these, with the frames of the caller
back in place. -/
theorem on_call_promised {vs : List Value} (hvs : List.Forall₂ Ty.Promises unit.sig.returns vs)
    (hrun : unit.run.on (m.withFrames (g :: m.context.frames)) =
      (storeResults unit 0 vs unit.sig.returns).on m') (p : Program) (rounds levels : Nat) :
    (call p rounds (levels + 1) (.native unit) args).on m =
      (.ok vs, m'.withFrames m.context.frames) := by
  obtain ⟨hfilled, hclear⟩ := filled_of_promises hvs
  rw [on_call_native hprepare hroom,
    on_unwinding_fills hrun hframes (returns_of_prepare_native hprepare) hclear, hfilled]

/-- A call of a function gives what its handler gives, if that is promised. -/
theorem on_call_function {run : Exec (List Value)} (hunit : unit.handler = .function run)
    {vs : List Value} (hrun : run.on (m.withFrames (g :: m.context.frames)) = (.ok vs, m'))
    (hvs : List.Forall₂ Ty.Promises unit.sig.returns vs) (p : Program) (rounds levels : Nat) :
    (call p rounds (levels + 1) (.native unit) args).on m =
      (.ok vs, m'.withFrames m.context.frames) := by
  have hfew : vs.length ≤ g.returns.length := by
    rw [returns_of_prepare_native hprepare, List.length_map]
    exact Nat.le_of_eq hvs.length_eq.symm
  exact on_call_promised hprepare hroom hframes hvs (on_run_function hunit hrun hframes hfew) p
    rounds levels

/-- A call of a type mapper gives what its handler gives, if that is promised. -/
theorem on_call_typeMapper {run : Exec Value} (hunit : unit.handler = .typeMapper run) {v : Value}
    (hrun : run.on (m.withFrames (g :: m.context.frames)) = (.ok v, m'))
    (hv : List.Forall₂ Ty.Promises unit.sig.returns [v]) (p : Program) (rounds levels : Nat) :
    (call p rounds (levels + 1) (.native unit) args).on m =
      (.ok [v], m'.withFrames m.context.frames) :=
  on_call_promised hprepare hroom hframes hv (on_run_typeMapper hunit hrun) p rounds levels

end Calls

/-- A call that ends with results has found room. -/
theorem room_of_call {p : Program} {rounds levels : Nat} {unit : Callable} {args vs : List Value}
    {m m' : Machine} (h : (call p rounds levels unit args).on m = (.ok vs, m')) :
    (∃ n, levels = n + 1) ∧ m.context.depth < m.context.maxDepth := by
  cases levels with
  | zero =>
    rw [on_call_zero] at h
    split at h <;> cases h
  | succ n =>
    refine ⟨⟨n, rfl⟩, Nat.not_le.mp fun hfull => ?_⟩
    rw [on_call_succ] at h
    split at h
    · cases h
    · rw [if_pos hfull] at h
      cases h

/-- A unit whose handler delivers on the frame of a call honours its signature in that call. -/
theorem NativeUnit.Delivers.call {unit : NativeUnit} {args : List Value} {g : Frame}
    (hprepare : prepare (.native unit) args = .ok g) {m : Machine}
    (hroom : m.context.depth < m.context.maxDepth)
    (h : unit.Delivers args (m.withFrames (g :: m.context.frames))) (p : Program)
    (rounds levels : Nat) :
    unit.Honours args m.heap ((call p rounds (levels + 1) (.native unit) args).on m) := by
  have hfailed {e : Failure} (he : unit.MayFail args e)
      (hrun : unit.run.on (m.withFrames (g :: m.context.frames)) =
        (.error (.failed e), m.withFrames (g :: m.context.frames))) :
      unit.Honours args m.heap
        ((FrameScript.call p rounds (levels + 1) (.native unit) args).on m) := by
    rw [on_call_native hprepare hroom, on_unwinding_failed hrun rfl]
    exact .failed he rfl
  unfold NativeUnit.Delivers at h
  split at h
  next run hunit =>
    cases h with
    | gives hx hframes hheap hvs =>
      rw [on_call_function hprepare hroom hframes hunit hx hvs]
      exact .returned hvs hheap
    | fails hx he =>
      refine hfailed he ?_
      rw [NativeUnit.run, hunit]
      exact on_bind_error hx
  next run hunit =>
    cases h with
    | gives hx hframes hheap hv =>
      rw [on_call_typeMapper hprepare hroom hframes hunit hx hv]
      exact .returned hv hheap
    | fails hx he =>
      refine hfailed he ?_
      rw [NativeUnit.run, hunit]
      exact on_bind_error hx

/-! ## The units of the standard library -/

namespace Library

section Units

variable {unit : NativeUnit} {args : List Value} {g : Frame} {m : Machine} {fs : List Frame}

theorem delivers_strings (hunit : unit ∈ strings.units)
    (hprepare : prepare (.native unit) args = .ok g) (hm : m.context.frames = g :: fs) :
    unit.Delivers args m := by
  simp only [strings, List.mem_cons, List.not_mem_nil, or_false] at hunit
  rcases hunit with rfl | rfl | rfl | rfl | rfl | rfl | rfl
  · exact .intArgument hprepare hm rfl fun n => .pure (.cons ⟨rfl, rfl⟩ .nil)
  · exact .floatArgument hprepare hm rfl fun x => .pure (.cons ⟨rfl, rfl⟩ .nil)
  · exact .boolArgument hprepare hm rfl fun b => .pure (.cons ⟨rfl, rfl⟩ .nil)
  · exact .stringArgument hprepare hm rfl fun s _ => .pure (.cons ⟨rfl, rfl⟩ .nil)
  · exact .stringArgument hprepare hm rfl fun s _ => .pure (.cons ⟨rfl, rfl⟩ .nil)
  · exact .stringArgument hprepare hm rfl fun s _ => .pure (.cons ⟨rfl, rfl⟩ .nil)
  · exact .stringArgument hprepare hm rfl fun s _ => .stringArgument hprepare hm rfl fun part _ =>
      .pure (.cons ⟨rfl, rfl⟩ .nil)

theorem delivers_arrays (hunit : unit ∈ arrays.units)
    (hprepare : prepare (.native unit) args = .ok g) (hm : m.context.frames = g :: fs) :
    unit.Delivers args m := by
  simp only [arrays, List.mem_cons, List.not_mem_nil, or_false] at hunit
  subst hunit
  refine .argument hprepare hm rfl fun v hv hpresent haccepts => ?_
  obtain ⟨elem, id, rfl⟩ : ∃ elem id, v = .array elem id := by
    cases v <;> simp_all [Value.ty, Value.isNull, Ty.accepts]
  exact .bind (on_heap m) (.pure (.cons ⟨rfl, rfl⟩ .nil))

theorem delivers_maps (hunit : unit ∈ maps.units)
    (hprepare : prepare (.native unit) args = .ok g) (hm : m.context.frames = g :: fs) :
    unit.Delivers args m := by
  have hcount := (admits_of_prepare hprepare).count
  simp only [maps, List.mem_cons, List.not_mem_nil, or_false] at hunit
  rcases hunit with rfl | rfl | rfl
  · refine .mapArgument hprepare hm rfl fun id _ => .bind (on_heap m) ?_
    exact .gives rfl rfl (.made _ rfl) (.cons ⟨rfl, rfl⟩ .nil)
  · exact .mapArgument hprepare hm rfl fun id _ => .stringArgument hprepare hm rfl fun key _ =>
      .bind (on_heap m) (.pure (.cons ⟨rfl, rfl⟩ .nil))
  · refine .mapArgument hprepare hm rfl fun id hid => .stringArgument hprepare hm rfl
      fun key hkey => .gives rfl rfl (.removed rfl ?_ (Heap.losesAtMost_erase _ _ _)) .nil
    obtain ⟨v, w, rfl⟩ := List.length_eq_two.mp hcount
    cases hid
    cases hkey
    rfl

theorem delivers_system (hunit : unit ∈ system.units)
    (hprepare : prepare (.native unit) args = .ok g) (hm : m.context.frames = g :: fs) :
    unit.Delivers args m := by
  simp only [system, List.mem_cons, List.not_mem_nil, or_false] at hunit
  rcases hunit with rfl | rfl | rfl
  · exact .stringArgument hprepare hm rfl fun s _ => .gives rfl rfl .same .nil
  · exact .stringArgument hprepare hm rfl fun s _ => .gives rfl rfl .same .nil
  · exact .stringArgument hprepare hm rfl fun s _ => .gives rfl rfl .same (.cons ⟨rfl, rfl⟩ .nil)

theorem delivers_convertors (hunit : unit ∈ convertors.units)
    (hprepare : prepare (.native unit) args = .ok g) (hm : m.context.frames = g :: fs) :
    unit.Delivers args m := by
  have hcount := (admits_of_prepare hprepare).count
  simp only [convertors, List.mem_cons, List.not_mem_nil, or_false] at hunit
  rcases hunit with rfl | rfl | rfl | rfl
  · refine .argument hprepare hm rfl fun v hv hpresent haccepts => ?_
    obtain ⟨doc, rfl⟩ : ∃ doc, v = .json doc := by
      cases v <;> simp_all [Value.ty, Value.isNull, Ty.accepts, NativeUnit.typeMapper]
    exact .pure (.cons ⟨rfl, rfl⟩ .nil)
  · refine .argument hprepare hm rfl fun v hv hpresent haccepts => ?_
    obtain ⟨text, rfl⟩ : ∃ text, v = .xml text := by
      cases v <;> simp_all [Value.ty, Value.isNull, Ty.accepts, NativeUnit.typeMapper]
    exact .pure (.cons ⟨rfl, rfl⟩ .nil)
  · refine .stringArgument hprepare hm rfl fun s hs => ?_
    split
    · exact .pure (.cons ⟨rfl, rfl⟩ .nil)
    next hnone =>
      refine .fails (on_hostError m _) (.invalidJson rfl ?_ hnone)
      obtain ⟨v, rfl⟩ := List.length_eq_one_iff.mp hcount
      cases hs
      rfl
  · exact .stringArgument hprepare hm rfl fun s _ => .pure (.cons ⟨rfl, rfl⟩ .nil)

end Units

/-- **The standard library honours its signatures.** A call of a unit of the standard library that
is admitted and finds room, whatever the objects hold, gives as many values as the unit declares,
each of a type that the declared one accepts and none of them null; or it fails, and then for a null
argument of a parameter of a reference type, or because `stringToJson` got a text that is no
document. It changes no object there is, except that `remove` takes at most the given key out of the
given map, and leaves all objects as they are if it fails.

**Proof sketch.** The frame of the call has each argument in the slot of its parameter. An argument
of a value type is no null and of just that type, so that reading it as what it is declared as finds
something (`Delivers.argumentAs`); one of a reference type is a null or of a type that the parameter
accepts (`Delivers.argument`). From there each unit computes what it declares. -/
theorem standard_honours {key : String} {unit : NativeUnit} (h : (key, unit) ∈ standard.units)
    {args : List Value} {g : Frame} (hprepare : prepare (.native unit) args = .ok g) {m : Machine}
    (hroom : m.context.depth < m.context.maxDepth) (p : Program) (rounds levels : Nat) :
    unit.Honours args m.heap ((call p rounds (levels + 1) (.native unit) args).on m) := by
  obtain ⟨package, hpackage, hunit⟩ := mem_standard h
  refine NativeUnit.Delivers.call hprepare hroom ?_ p rounds levels
  simp only [packages, List.mem_cons, List.not_mem_nil, or_false] at hpackage
  rcases hpackage with rfl | rfl | rfl | rfl | rfl
  · exact delivers_strings hunit hprepare rfl
  · exact delivers_arrays hunit hprepare rfl
  · exact delivers_maps hunit hprepare rfl
  · exact delivers_system hunit hprepare rfl
  · exact delivers_convertors hunit hprepare rfl

/-- A state with one map. -/
def mapState : Machine where
  context := { maxDepth := 1 }
  heap := { maps := #[[("a", .int 1), ("b", .null .json)]] }

/-- A key is removed from a map as the signature says. -/
theorem standard_honours_remove :
    ∃ unit, ("ballerina.lang.maps:remove", unit) ∈ standard.units ∧
      unit.Honours [.map 0, .str "a"] mapState.heap
        ((call {} maxRounds 1 (.native unit) [.map 0, .str "a"]).on mapState) := by
  have hmem : ("ballerina.lang.maps:remove", unitAt 10) ∈ standard.units := by
    rw [standard_units]
    exact List.mem_map.mpr ⟨("ballerina.lang.maps:remove", 10), by simp [order], rfl⟩
  obtain ⟨g, hprepare⟩ : ∃ g, prepare (.native (unitAt 10)) [.map 0, .str "a"] = .ok g := ⟨_, rfl⟩
  have hroom : mapState.context.depth < mapState.context.maxDepth := Nat.zero_lt_one
  exact ⟨_, hmem, standard_honours hmem hprepare hroom {} maxRounds 0⟩

end Library

end FrameScript
