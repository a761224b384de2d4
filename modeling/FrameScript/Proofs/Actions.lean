import FrameScript.Proofs.Progress
import FrameScript.Proofs.Staging
import FrameScript.Proofs.Standard

set_option autoImplicit false

/-!
# Actions

An action of a connector is called by the name of the connector and its own, with the connector in
front of its arguments. The analysis compares the arguments with the parameters of the callable of
that name, from the second parameter on. The first one it never looks at, and any callable may have
the name of an action. So an action is always found and its arguments are always admitted, but the
connector in front of them may be refused.

## Main definitions

* `Signature.admitSelf` — what a callable makes of the value in front of its other arguments.
* `Callable.IsActionOf` — callables that are declared as actions of a connector.
* `Source.PlainlyNamed` — sources in which nothing but actions is named as actions are.

## Main results

* `Program.isActionOf_of_find?` — in a plainly named source, the name of an action is that of an
  action that is declared.
* `Site.Under.acted` — what a callable is handed on behalf of an action.
* `action_refuses_only_connector` — actions are refused for their connectors only, and not in
  plainly named sources.
* `action_refuses_connector` — actions in which the analysis finds nothing, and that are refused.
-/

namespace FrameScript

open Checker Exec

/-! ## Admission -/

/-- What a callable makes of a value of the type in front of its other arguments, which it admits:
it complains if it has no parameters, or if the first of them takes other values. -/
def Signature.admitSelf (sig : Signature) (self : Ty) : Except Fault Unit :=
  match sig.params with
  | [] => .error (.arityMismatch sig.qualifiedName 0 1)
  | param :: _ =>
    if param.ty.accepts self then .ok ()
    else .error (.argumentType sig.qualifiedName 0 param.ty self)

/-- If the parameters behind the first admit their arguments, all depends on the first. -/
theorem checkArguments_cons {sig : Signature} {v : Value} {vs : List Value}
    (hv : v.isNull = false)
    (hvs : List.Forall₂ (fun ty v => refused? ty v = none) (sig.paramTypes.drop 1) vs) :
    checkArguments sig (v :: vs) = sig.admitSelf v.ty := by
  unfold checkArguments Signature.admitSelf
  unfold Signature.paramTypes at hvs
  cases hparams : sig.params with
  | nil =>
    rw [hparams] at hvs
    cases hvs
    rfl
  | cons param params =>
    rw [hparams] at hvs
    have hlen : (v :: vs).length = (param :: params).length := by
      simpa using hvs.length_eq.symm
    have hrest : checkTypes sig.qualifiedName 1 params vs = .ok () := checkTypes_eq_ok hvs
    rw [if_neg (by simpa using hlen)]
    simp only [checkTypes, refused?, hv, Bool.false_eq_true, if_false]
    cases param.ty.accepts v.ty with
    | true => exact hrest
    | false => rfl

/-! ## Names of actions -/

/-- The callable is built from the declaration of an action in a connector of the name. -/
def Callable.IsActionOf (source : Source) (connector : String) (unit : Callable) : Prop :=
  ∃ conn ∈ source.connectors, conn.name = connector ∧ ∃ action ∈ conn.actions, ∃ f,
    (conn.actionDecl action).build source.package = .ok f ∧ unit = .function f

/-- What is declared as an action admits its connector. -/
theorem Callable.IsActionOf.admitSelf {source : Source} {connector : String} {unit : Callable}
    (h : unit.IsActionOf source connector) :
    unit.sig.admitSelf (.ref (.connector connector)) = .ok () := by
  obtain ⟨conn, _, rfl, action, _, f, hbuild, rfl⟩ := h
  obtain ⟨_, rfl⟩ := Function.eq_of_build hbuild
  exact if_pos (Ty.accepts_self _)

/-- A source in which no function is named as an action of a connector is, and no connector as an
action or as something in a package. -/
structure Source.PlainlyNamed (source : Source) : Prop where
  functions : ∀ decl ∈ source.functions, '.' ∉ decl.name.toList
  connectors : ∀ conn ∈ source.connectors, '.' ∉ conn.name.toList ∧ ':' ∉ conn.name.toList

/-- Two lists with the same item behind parts in which it does not occur have the same parts. -/
theorem append_cons_inj {α : Type} {a : α} {xs xs' ys ys' : List α} (hxs : a ∉ xs)
    (hxs' : a ∉ xs') (h : xs ++ a :: ys = xs' ++ a :: ys') : xs = xs' ∧ ys = ys' := by
  induction xs generalizing xs' with
  | nil =>
    cases xs' with
    | nil => exact ⟨rfl, (List.cons.inj h).2⟩
    | cons x' xs' => exact absurd ((List.cons.inj h).1 ▸ List.mem_cons_self) hxs'
  | cons x xs ih =>
    cases xs' with
    | nil => exact absurd ((List.cons.inj h).1 ▸ List.mem_cons_self) hxs
    | cons x' xs' =>
      obtain ⟨rfl, htail⟩ := List.cons.inj h
      obtain ⟨rfl, rfl⟩ := ih (mt (List.mem_cons_of_mem _) hxs) (mt (List.mem_cons_of_mem _) hxs')
        htail
      exact ⟨rfl, rfl⟩

/-- Names of actions that are the same are names in the same connector. -/
theorem eq_of_append_dot {a a' b b' : String} (ha : '.' ∉ a.toList) (ha' : '.' ∉ a'.toList)
    (h : a ++ "." ++ b = a' ++ "." ++ b') : a = a' := by
  have h := congrArg String.toList h
  simp only [String.toList_append, List.append_assoc] at h
  exact String.toList_injective (append_cons_inj ha ha' h).1

/-- What is the same in packages has the same names, if these are not in packages themselves. -/
theorem eq_of_append_colon {a a' b b' : String} (hb : ':' ∉ b.toList) (hb' : ':' ∉ b'.toList)
    (h : a ++ ":" ++ b = a' ++ ":" ++ b') : b = b' := by
  have h := congrArg (fun s => s.toList.reverse) h
  simp only [String.toList_append, List.reverse_append] at h
  have hrev := append_cons_inj (mt List.mem_reverse.mp hb) (mt List.mem_reverse.mp hb') h
  exact String.toList_injective (List.reverse_injective hrev.1)

/-- Names without a colon are not in packages. -/
theorem qualify_eq {package name key : String} (h : qualify package name = key)
    (hkey : ':' ∉ key.toList) : package = "" ∧ name = key := by
  unfold qualify at h
  split at h
  next hempty => exact ⟨by simpa using hempty, h⟩
  · subst h
    simp at hkey

theorem qualify_inj {package name name' : String}
    (h : qualify package name = qualify package name') : name = name' := by
  unfold qualify at h
  split at h
  · exact h
  · simpa using h

/-- The native units of the standard library are not named as actions are. -/
theorem Library.plainlyNamed : ∀ package ∈ packages, ∀ unit ∈ package.units,
    unit.sig.package ≠ "" ∧ '.' ∉ unit.sig.name.toList ∧ ':' ∉ unit.sig.name.toList := by
  decide +kernel

/-- No native unit of the standard library is found under the name of an action. -/
theorem Program.Linked.not_mem_of_native {p : Program} (hp : p.Linked Library.standard)
    {name : String} {unit : NativeUnit} (hname : ':' ∉ name.toList)
    (h : p.find? name = some (.native unit)) : '.' ∉ name.toList := by
  obtain ⟨package, hpackage, hunit⟩ := hp.mem_packages h
  obtain ⟨hin, hdot, hcolon⟩ := Library.plainlyNamed package hpackage unit hunit
  rcases Provides.qualifiedName_of_find? hp h with heq | ⟨hpack, heq⟩
  · exact absurd (qualify_eq heq hname).1 hin
  · have heq : qualify unit.sig.package unit.sig.name = qualify p.package name := heq
    rw [qualify, qualify, if_neg (by simpa using hin), if_neg (by simpa using hpack)] at heq
    exact eq_of_append_colon hcolon hname heq ▸ hdot

/-- A function that is found under a name without a colon is declared under this name. -/
theorem Program.name_of_find? {source : Source} {natives : Registry} {p : Program}
    (hload : Program.load source natives = .ok p) {name : String} {f : Function}
    (hname : ':' ∉ name.toList) (h : p.find? name = some (.function f)) :
    ∃ decl ∈ source.declarations, decl.name = name ∧ decl.build source.package = .ok f := by
  obtain ⟨decl, hdecl, hbuild⟩ := Program.load_built hload h
  have hsig : f.sig.qualifiedName = qualify source.package decl.name := by
    rw [(Function.eq_of_build hbuild).2]
    rfl
  refine ⟨decl, hdecl, ?_, hbuild⟩
  rcases Provides.qualifiedName_of_find? (Program.load_linked hload) h with heq | ⟨-, heq⟩
  · exact (qualify_eq (hsig.symm.trans heq) hname).2
  · exact qualify_inj (hsig.symm.trans (load_package hload ▸ heq))

/-- **The name of an action is that of an action**: let a program load with the standard library,
and let its source be plainly named. Then what is found under the name of an action in a connector,
if no part of that name is a package, is declared as an action in that connector. -/
theorem Program.isActionOf_of_find? {source : Source} {p : Program}
    (hload : Program.load source Library.standard = .ok p) (hplain : source.PlainlyNamed)
    {connector name : String} {unit : Callable} (hdot : '.' ∉ connector.toList)
    (hcolon : ':' ∉ connector.toList) (hname : ':' ∉ name.toList)
    (hunit : p.find? (connector ++ "." ++ name) = some unit) :
    unit.IsActionOf source connector := by
  have hkey : ':' ∉ (connector ++ "." ++ name).toList := by simp [hcolon, hname]
  cases unit with
  | native u =>
    have hnoDot := (Program.load_linked hload).not_mem_of_native hkey hunit
    simp at hnoDot
  | function f =>
    obtain ⟨decl, hdecl, hdeclName, hbuild⟩ := Program.name_of_find? hload hkey hunit
    rcases List.mem_append.mp hdecl with haction | hfunction
    · obtain ⟨conn, hconn, hmem⟩ := List.mem_flatMap.mp haction
      obtain ⟨action, hdeclared, rfl⟩ := List.mem_map.mp hmem
      have heq : conn.name = connector :=
        eq_of_append_dot (hplain.connectors conn hconn).1 hdot hdeclName
      exact ⟨conn, hconn, heq, action, hdeclared, f, hbuild, rfl⟩
    · have hnoDot := hplain.functions decl hfunction
      simp [hdeclName] at hnoDot

/-! ## What callees are handed -/

section Accepted

variable {p : Program} (hp : p.Linked Library.standard) (hcheck : p.check = [])
  (hany : p.ConfinesAny) {rounds : Nat} {s : Site} {target : Expr} {name : String}
  {args : List Expr} {stage : Nat} {m m' : Machine}

include hp hcheck hany

/-- What an action means is known before it is evaluated: its connector, and a callable that has a
parameter for every argument behind the first. -/
theorem Site.Under.resolves {names : List String} (hs : s.Under p names)
    (he : Expr.action target name args stage ∈ s.function.exprs) :
    ∃ connector unit,
      (target.infer (s.function.checker p)).1 = .ref (.connector connector) ∧
      p.find? (connector ++ "." ++ name) = some unit ∧
      List.Forall₂ (fun ty e => (s.function.checker p).expecting ty
        (e.infer (s.function.checker p)) = []) (unit.sig.paramTypes.drop 1) args := by
  have hclean := hs.expr_clean hcheck he
  have hne := hs.part_ne_any hp hcheck hany he rfl (x := target) List.mem_cons_self
  obtain ⟨_, _, hconnector⟩ := actionTypes_clean (by simpa only [Expr.inferAll] using hclean)
  exact hconnector hne

/-- **A callable gets its connector and arguments that it admits** on behalf of an action. -/
theorem Site.Under.acted {t : HeapTyping} (hs : s.Under p m.context.names)
    (hm : m.Obeys typeDiscipline p t)
    (he : Expr.action target name args stage ∈ s.function.exprs)
    (hplaced : (Task.results s (.action target name args stage)).PlacedAt p m)
    {levels : Nat} {unit : Callable} {vs : List Value}
    (hstep : Task.Step p rounds (.results s (.action target name args stage)) m
      (.call levels unit vs) m') :
    ∃ connector id ws,
      (target.infer (s.function.checker p)).1 = .ref (.connector connector) ∧
      p.find? (connector ++ "." ++ name) = some unit ∧
      (∃ params, p.connectorParams? connector = some params) ∧
      vs = .connector connector id :: ws ∧
      List.Forall₂ (fun ty v => refused? ty v = none) (unit.sig.paramTypes.drop 1) ws := by
  have hD := typeDiscipline_judges_of_confinesAny hp hcheck hany
  have hconfined := hp.nativesConfined fun _ _ => Library.standard_confined
  have htarget : target ∈ s.function.exprs :=
    s.function.mem_exprs_of_part he (x := target) List.mem_cons_self
  have hpart {e : Expr} (hmem : e ∈ args) : e ∈ (Expr.action target name args stage).parts :=
    List.mem_cons_of_mem _ hmem
  obtain ⟨connector, unit', hty, hfound, hclean⟩ := hs.resolves hp hcheck hany he
  -- the connector and the arguments are evaluated one after the other
  obtain ⟨v, m₁, ws, m₂, hv, hws, rfl, -⟩ := hplaced.acted hp hconfined hstep
  obtain ⟨u, hm₁, hs₁, hknows, hgives⟩ := hs.gives hp hcheck hany hm htarget hv
  obtain ⟨_, _, _, _, _, hyields⟩ := hs₁.afterArgs hD hm₁
    (fun e hmem => s.function.mem_exprs_of_part he (hpart hmem)) hws
  have haccepts := acceptsAll_of_ne_any hclean fun e hmem =>
    hs.part_ne_any hp hcheck hany he rfl (hpart hmem)
  have hfits := fitsAll_of_accepts haccepts (hyields.imp fun _ _ h => h.fits)
  -- the connector is one of the connector type that is inferred for it
  cases hstep with
  | @acted _ _ _ connector' _ _ _ v' _ _ _ _ _ _ hv' hconnector _ _ hunit =>
    obtain rfl : v = v' := Except.ok.inj (congrArg Prod.fst (hv.symm.trans hv'))
    obtain ⟨id, rfl⟩ := exists_of_connectorName hconnector
    obtain rfl : connector = connector' := by
      have hnominal := (hty ▸ hgives.fits).nominal (s := .connector connector') rfl rfl rfl
      simpa using hnominal
    obtain rfl : unit' = unit :=
      Option.some.inj (hfound.symm.trans (Program.find?_of_resolve hunit))
    obtain ⟨params, hparams, _⟩ := (hm₁.heap.connector id connector hknows).builds
    exact ⟨connector, id, ws, hty, hfound, ⟨params, hparams⟩, rfl,
      hfits.imp fun _ _ h => h.refused?_eq_none⟩

end Accepted

/-! ## Runs -/

/-- **Actions are refused for their connectors only.** Let a program load with the standard library,
let the analysis find nothing in it, and let the top type be neither written in it nor inferred for
anything but operands of conversions. Let a call with values read from documents at any types come
to an action. Then there is a callable of the name that the analysis has looked up, and it is this
callable that is called, with the connector in front of arguments. It is refused exactly if its
first parameter is missing or does not take the connector. An action that is declared in the
connector is never refused. If the source is plainly named, and no package is part of the name of
the action, the callable is such an action.

**Proof sketch.** The connector is of the type that is inferred for it, so its name is the one that
the analysis has seen (`Site.Under.acted`). The arguments are of the types inferred for them, which
are compatible with the parameters behind the first. The first parameter of a declared action is of
the type of its connector, and all connectors of a run are declared. -/
theorem action_refuses_only_connector {source : Source} {e : Engine}
    (hload : Program.load source Library.standard = .ok e.program)
    (hcheck : e.program.check = []) (hany : e.program.ConfinesAny)
    {inputs : List (Json × Ty)} {args : List Value} {heap : Heap}
    (hread : (e.program.readInputs inputs).run {} = .ok (args, heap))
    {entry : String} {unit : Callable} (hunit : e.program.find? entry = some unit)
    (properties : Dict String) (rounds levels : Nat) :
    ∀ s target name es stage m₀,
      Task.Reaches e.program rounds (.call levels unit args) (e.machine heap properties)
        (.results s (.action target name es stage)) m₀ →
      ∃ connector callee,
        (target.infer (s.function.checker e.program)).1 = .ref (.connector connector) ∧
        e.program.resolve (connector ++ "." ++ name) = .ok callee ∧
        ∀ levels' callee' vs m₁,
          Task.Step e.program rounds (.results s (.action target name es stage)) m₀
            (.call levels' callee' vs) m₁ →
          callee' = callee ∧ (∃ id ws, vs = .connector connector id :: ws) ∧
          (∀ f, prepare callee vs = .error f ↔
            callee.sig.admitSelf (.ref (.connector connector)) = .error f) ∧
          (callee.IsActionOf source connector → ∃ frame, prepare callee vs = .ok frame) ∧
          (source.PlainlyNamed → ':' ∉ name.toList → callee.IsActionOf source connector) := by
  intro s target name es stage m₀ hr
  have hp := Program.load_linked hload
  have hconfined := hp.nativesConfined fun _ _ => Library.standard_confined
  obtain ⟨⟨t, hm, hs, he⟩, -⟩ := hr.checked hp hcheck hany
    (Task.begunWell_of_inputs hread hunit (fun _ _ _ _ _ => trivial) properties levels) trivial
  have hplaced : (Task.call levels unit args).PlacedAt e.program (e.machine heap properties) :=
    ⟨entry, hunit⟩
  have hplaced := Task.Reaches.placedAt hp hconfined hplaced hr
  obtain ⟨connector, callee, hty, hfound, -⟩ := hs.resolves hp hcheck hany he
  refine ⟨connector, callee, hty, by rw [Program.resolve, hfound], ?_⟩
  intro levels' callee' vs m₁ hstep
  obtain ⟨connector', id, ws, hty', hfound', ⟨params, hparams⟩, rfl, hadmitted⟩ :=
    hs.acted hp hcheck hany hm he hplaced hstep
  obtain rfl : connector = connector' := by simpa using hty.symm.trans hty'
  obtain rfl : callee = callee' := Option.some.inj (hfound.symm.trans hfound')
  have hrefused (f : Fault) : prepare callee (.connector connector id :: ws) = .error f ↔
      callee.sig.admitSelf (.ref (.connector connector)) = .error f := by
    rw [prepare_eq_error (hp.wellShaped hfound), checkArguments_cons rfl hadmitted]
    rfl
  refine ⟨rfl, ⟨id, ws, rfl⟩, hrefused, fun haction => ?_, fun hplain hname => ?_⟩
  · rcases hframe : prepare callee (.connector connector id :: ws) with f | frame
    · cases haction.admitSelf.symm.trans ((hrefused f).mp hframe)
    · exact ⟨frame, rfl⟩
  · obtain ⟨conn, hconn, rfl⟩ := Program.load_connectors hload hparams
    obtain ⟨hdot, hcolon⟩ := hplain.connectors conn hconn
    exact Program.isActionOf_of_find? hload hplain hdot hcolon hname hfound

/-- A plainly named program with an action that adds its argument to what its connector holds. -/
def meterSource : Source where
  connectors := [⟨"meter", [⟨"offset", .int⟩], [
    { name := "shift"
      params := [⟨"n", .int⟩]
      returns := [.int]
      body := [.result [.binary .add (.field (.var ⟨"self", none⟩) "offset")
        (.var ⟨"n", none⟩)]] }]⟩]
  functions := [
    { name := "main"
      params := [⟨"n", .int⟩]
      returns := [.int]
      body := [.result [.action (.connector "meter" [.int 40]) "shift" [.var ⟨"n", none⟩] 0]] }]

theorem meterSource_plainlyNamed : meterSource.PlainlyNamed where
  functions := by decide
  connectors := by decide

/-- The theorem applies to this program: its call ends well, and no action is refused. -/
theorem action_refuses_only_connector_meter :
    ∃ (e : Engine) (unit : Callable), Program.load meterSource Library.standard = .ok e.program ∧
      e.program.check = [] ∧ e.program.ConfinesAny ∧ e.program.find? "main" = some unit ∧
      (e.program.readInputs [(.int 2, .int)]).run {} = .ok ([.int 2], {}) ∧
      (∃ m, (call e.program 10 5 unit [.int 2]).on (e.machine {} []) = (.ok [.int 42], m)) ∧
      ∀ s target name es stage m₀ levels callee vs m₁, ':' ∉ name.toList →
        Task.Reaches e.program 10 (.call 5 unit [.int 2]) (e.machine {} [])
          (.results s (.action target name es stage)) m₀ →
        Task.Step e.program 10 (.results s (.action target name es stage)) m₀
          (.call levels callee vs) m₁ →
        ∃ frame, prepare callee vs = .ok frame := by
  have hloads : Program.loadsTo meterSource Library.standard (fun p =>
      p.check.isEmpty && decide p.ConfinesAny && (p.find? "main").any fun unit =>
        intOf? ((call p 10 5 unit [.int 2]).on (Engine.machine ⟨p, {}⟩ {} [])).1 == some 42) =
          true := by
    rw [Program.loadsTo_standard]
    decide +kernel
  obtain ⟨p, hload, htest⟩ := Program.exists_of_loadsTo hloads
  simp only [Bool.and_eq_true, List.isEmpty_iff, decide_eq_true_eq, Option.any_eq_true,
    beq_iff_eq] at htest
  obtain ⟨⟨hcheck, hany⟩, unit, hunit, hvalue⟩ := htest
  let e : Engine := ⟨p, {}⟩
  have hread : (e.program.readInputs [(.int 2, .int)]).run {} = .ok ([.int 2], {}) := rfl
  refine ⟨e, unit, hload, hcheck, hany, hunit, hread, ⟨_, on_of_intOf? _ hvalue⟩, ?_⟩
  intro s target name es stage m₀ levels callee vs m₁ hname hr hstep
  obtain ⟨_, _, _, _, hcallee⟩ := action_refuses_only_connector (e := e) hload hcheck hany hread
    hunit [] 10 5 s target name es stage m₀ hr
  obtain ⟨rfl, _, _, hadmitted, haction⟩ := hcallee levels callee vs m₁ hstep
  exact hadmitted (haction meterSource_plainlyNamed hname)

/-! ## Actions that are refused -/

/-- A program in which callables that do not take a connector have the names of its actions. -/
def mistakenSource : Source where
  connectors := [
    ⟨"box", [], [
      { name := "lid.open"
        params := []
        returns := [.boolean]
        body := [.result [.bool true]] }]⟩,
    ⟨"box.lid", [], []⟩]
  functions := [
    { name := "box.label"
      params := [⟨"n", .int⟩]
      returns := [.int]
      body := [.result [.var ⟨"n", none⟩]] },
    { name := "box.size"
      params := []
      returns := [.int]
      body := [.result [.int 1]] },
    { name := "label"
      params := []
      returns := [.int]
      body := [.result [.action (.connector "box" []) "label" [] 0]] },
    { name := "size"
      params := []
      returns := [.int]
      body := [.result [.action (.connector "box" []) "size" [] 0]] },
    { name := "open"
      params := []
      returns := [.boolean]
      body := [.result [.action (.connector "box.lid" []) "open" [] 0]] }]

/-- Functions of the program, and what the callees of their actions complain of. -/
def mistakenRuns : List (String × Fault) := [
  ("label", .argumentType "box.label" 0 .int (.ref (.connector "box"))),
  ("size", .arityMismatch "box.size" 0 1),
  ("open", .argumentType "box.lid.open" 0 (.ref (.connector "box"))
    (.ref (.connector "box.lid")))]

/-- **The analysis does not look at the connector**: although it finds nothing in this program, and
the top type does not occur in it, each of the functions ends with a complaint of the callee of its
action, of the number of its arguments or of the type of the connector. -/
theorem action_refuses_connector :
    ∃ e : Engine, Program.load mistakenSource Library.standard = .ok e.program ∧
      e.program.check = [] ∧ e.program.ConfinesAny ∧
      ∀ run ∈ mistakenRuns, ∃ (unit : Callable) (m : Machine),
        e.program.find? run.1 = some unit ∧
        (call e.program 10 5 unit []).on (e.machine {} []) =
          (.error (.failed (.fault run.2)), m) := by
  have hloads : Program.loadsTo mistakenSource Library.standard (fun p =>
      p.check.isEmpty && decide p.ConfinesAny && mistakenRuns.all fun run =>
        (p.find? run.1).any fun unit =>
          faultOf? ((call p 10 5 unit []).on (Engine.machine ⟨p, {}⟩ {} [])).1 == some run.2) =
            true := by
    rw [Program.loadsTo_standard]
    decide +kernel
  obtain ⟨p, hload, htest⟩ := Program.exists_of_loadsTo hloads
  simp only [Bool.and_eq_true, List.isEmpty_iff, decide_eq_true_eq, List.all_eq_true,
    Option.any_eq_true, beq_iff_eq] at htest
  obtain ⟨⟨hcheck, hany⟩, hruns⟩ := htest
  refine ⟨⟨p, {}⟩, hload, hcheck, hany, fun run hrun => ?_⟩
  obtain ⟨unit, hunit, hfault⟩ := hruns run hrun
  exact ⟨unit, _, hunit, on_of_faultOf? _ hfault⟩

end FrameScript
