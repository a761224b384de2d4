import FrameScript.Proofs.Preservation
import FrameScript.Proofs.TopType
import FrameScript.Proofs.Typing

set_option autoImplicit false

/-!
# Soundness of the analysis

In a program that the analysis has nothing to say against, every expression evaluates to a value of
the type that is inferred for it, and every place holds values of its declared type, as long as
values of the top type are not stored under other types and nothing is assigned through them. All
programs are such in which the top type is neither written nor inferred for anything but operands of
conversions.

## Main definitions

* `Function.WellTyped` — what has to be known of a function for inferred types to mean something.
* `typeJudgement` — the judgement that expressions have values of their inferred types.
* `Machine.HoldsTypesAsDeclared` — states in which every place holds values of its type.

## Main results

* `typeJudgement_sound` — the judgement is sound.
* `typeDiscipline_judges` — the discipline of types judges programs that guard the top type.
* `holdsTypesAsDeclared_of_visits` — every state of every run of a program that confines the top
  type holds values of the declared types, and every expression evaluates to values of its inferred
  types.
-/

namespace FrameScript

open Checker

/-! ## Values and places -/

section Places

variable {c : Checker} {place found : Ty} {e : Expr}

/-- A place accepts the types that are compatible with it, if the top type is stored under itself
only. -/
theorem accepts_of_guarded (hany : found = .any → place = .any)
    (hcompatible : compatible place found = []) : place.accepts found = true := by
  by_cases hfound : found = .any
  · rw [hany hfound]
    exact Ty.accepts_of_any found
  · exact accepts_of_compatible hcompatible hfound

/-- A place accepts the type of an expression that is meant for it, if the top type is stored under
itself only. -/
theorem accepts_of_expecting (hany : (e.infer c).1 = .any → place = .any)
    (hclean : c.expecting place (e.infer c) = []) : place.accepts (e.infer c).1 = true :=
  accepts_of_guarded hany (expecting_eq_nil.mp hclean).2

/-- Places accept the types that are compatible with them one by one, if the top type is stored
under itself only. -/
theorem acceptsAll_of_compatible {places found : List Ty}
    (hcompatible : List.Forall₂ (fun place found => compatible place found = []) places found)
    (hany : ∀ store ∈ places.zip found, store.2 = .any → store.1 = .any) :
    List.Forall₂ (fun place found => place.accepts found = true) places found := by
  induction hcompatible with
  | nil => exact .nil
  | cons hfirst _ ih =>
    rw [List.zip_cons_cons, List.forall_mem_cons] at hany
    exact .cons (accepts_of_guarded hany.1 hfirst) (ih hany.2)

/-- Places accept the types of several expressions that are meant for them, if the top type is
stored under itself only. -/
theorem acceptsAll_of_expecting {places : List Ty} {es : List Expr}
    (hclean : List.Forall₂ (fun place e => c.expecting place (e.infer c) = []) places es)
    (hany : ∀ store ∈ places.zip (es.map fun e => (e.infer c).1),
      store.2 = .any → store.1 = .any) :
    List.Forall₂ (fun place e => place.accepts (e.infer c).1 = true) places es := by
  refine List.forall₂_map_right_iff.mp (acceptsAll_of_compatible ?_ hany)
  exact List.forall₂_map_right_iff.mpr (hclean.imp fun _ _ h => (expecting_eq_nil.mp h).2)

/-- Places accept the types of several expressions that are meant for them, if none of these is the
top type. -/
theorem acceptsAll_of_ne_any {places : List Ty} {es : List Expr}
    (hclean : List.Forall₂ (fun place e => c.expecting place (e.infer c) = []) places es)
    (hne : ∀ e ∈ es, (e.infer c).1 ≠ .any) :
    List.Forall₂ (fun place e => place.accepts (e.infer c).1 = true) places es := by
  refine acceptsAll_of_expecting hclean fun store hstore hany => ?_
  obtain ⟨e, he, heq⟩ := List.mem_map.mp (List.of_mem_zip hstore).2
  exact absurd (heq.trans hany) (hne e he)

/-- Values of several expressions are of the types of places that accept the types of these. -/
theorem fitsAll_of_accepts {places : List Ty} {es : List Expr} {vs : List Value}
    (haccepts : List.Forall₂ (fun place e => place.accepts (e.infer c).1 = true) places es)
    (hvs : List.Forall₂ (fun e v => Value.Fits (e.infer c).1 v) es vs) :
    List.Forall₂ (fun ty v => Value.Fits ty v) places vs :=
  forall₂_comp (fun _ _ _ haccepts hv => hv.mono haccepts) haccepts hvs

/-- The first parameter of a name is the one at its index. -/
theorem find?_of_findIdx? {params : List Param} {name : String} {i : Nat}
    (h : params.findIdx? (·.name == name) = some i) :
    ∃ param, params[i]? = some param ∧ params.find? (·.name == name) = some param := by
  induction params generalizing i with
  | nil => cases h
  | cons param params ih =>
    rw [List.findIdx?_cons] at h
    rw [List.find?_cons]
    split at h
    next hname =>
      cases h
      exact ⟨param, rfl, by rw [hname]⟩
    next hname =>
      obtain ⟨j, hj, rfl⟩ := Option.map_eq_some_iff.mp h
      obtain ⟨param', hparam', hfind⟩ := ih hj
      refine ⟨param', by simpa using hparam', ?_⟩
      rwa [Bool.eq_false_iff.mpr hname]

theorem ty_documentPart (doc : Json) (key : Value) : (documentPart doc key).ty = .ref .json := by
  unfold documentPart
  dsimp only
  split <;> rfl

end Places

/-! ## The judgement -/

/-- The places of a function are laid out, nothing is found in its body, and the top type is
guarded. -/
structure Function.WellTyped (p : Program) (f : Function) : Prop where
  slotted : ∀ s ∈ statementsOf f.body, s.Slotted f.layout.slots
  exprs : ∀ e ∈ f.exprs, (e.inferAll (f.checker p)).2 = []
  stmts : ∀ s ∈ statementsOf f.body, ∃ inLoop, s.check (f.checker p) f.sig.returns inLoop = []
  guards : f.GuardsAny p

/-- A laid out function in which nothing is found is well typed if it guards the top type. -/
theorem Function.wellTyped {p : Program} {f : Function}
    (hslotted : BlockSlotted f.layout.slots f.body)
    (hclean : checkBlock (f.checker p) f.sig.returns false f.body = []) (hguards : f.GuardsAny p) :
    f.WellTyped p where
  slotted :=
    forall_statementsOf (fun _ hs _ hinner => hs.inner hinner) fun _ hs => hslotted.of_mem hs
  exprs := Function.exprs_clean hclean
  stmts := statementsOf_clean hclean
  guards := hguards

/-- Whether a type is one of connectors. -/
def Ty.isConnector : Ty → Bool
  | .ref (.connector _) => true
  | _ => false

/-- Whether nothing is known of the tags of the nulls that an expression may have as its value: it
is not just a null, but has the type of one, or it is a field of a connector. -/
def Expr.straysTags (c : Checker) : Expr → Bool
  | .null => false
  | .field base name =>
    (base.infer c).1.isConnector || ((Expr.field base name).infer c).1.isNullLiteral
  | e => (e.infer c).1.isNullLiteral

/-- The value is one of the type that is inferred for the expression, and tagged with it where this
can be known. -/
structure Expr.Gives (c : Checker) (e : Expr) (v : Value) : Prop where
  fits : v.Fits (e.infer c).1
  tagged : e.straysTags c = false → v.TaggedAs (e.infer c).1

namespace Expr

variable {c : Checker} {e : Expr} {v : Value}

theorem straysTags_of_infer (he : e ≠ .null) (h : (e.infer c).1 = .ref .null) :
    e.straysTags c = true := by
  cases e with
  | null => exact absurd rfl he
  | _ => simp [straysTags, h, Ty.isNullLiteral]

namespace Gives

/-- A value of a type other than null may be had by an expression of the type. -/
theorem of_present (h : v.Fits (e.infer c).1) (hv : v.isNull = false) : e.Gives c v :=
  ⟨h, fun _ => Value.taggedAs_of_not_isNull hv _⟩

/-- A value of a type with its tag may be had by an expression of the type. -/
theorem of_tagged (h : v.Fits (e.infer c).1) (htag : v.TaggedAs (e.infer c).1) : e.Gives c v :=
  ⟨h, fun _ => htag⟩

/-- What a place of the type of an expression holds may be had by the expression. -/
theorem of_stored (he : e ≠ .null) (h : v.StoredAs (e.infer c).1) : e.Gives c v :=
  ⟨h.fits, fun hstray => h.tagged fun hnull => by simp [straysTags_of_infer he hnull] at hstray⟩

/-- All values may be had by an expression of the top type. -/
theorem of_any (h : (e.infer c).1 = .any) (v : Value) : e.Gives c v :=
  of_tagged (h ▸ .of_any v) fun tag r _ hty => by simp [h] at hty

/-- A value may be had by an expression of its runtime type. -/
theorem of_ty (h : v.ty = (e.infer c).1) : e.Gives c v := by
  refine of_tagged (.of_ty h) ?_
  rintro tag r rfl hty
  rw [← h] at hty
  cases hty
  exact .inl rfl

end Gives

end Expr

/-- Expressions have values of the types that are inferred for them. Of the results of an action
nothing is known where the connector is of the top type. -/
def typeJudgement (p : Program) (f : Function) : Judgement where
  Admits e := e ∈ f.exprs
  Yields e v := e.Gives (f.checker p) v
  YieldsAll e vs :=
    (e.isCall = true → e.isDynamic (f.checker p) = false →
      List.Forall₂ (fun ty v => v.StoredAs ty) (e.inferAll (f.checker p)).1 vs) ∧
    (e.isCall = false → ∃ v, vs = [v] ∧ e.Gives (f.checker p) v)
  Takes target v := (∃ s ∈ statementsOf f.body, target ∈ s.targets) ∧
    v.Fits (target.infer (f.checker p)).1
  Runs s := s ∈ statementsOf f.body

section Sound

variable {p : Program} {f : Function} (hf : f.WellTyped p)

include hf

/-! ### Expressions -/

/-- A new array accepts the types of its elements. -/
theorem accepts_item {elem : Ty} {items : List Expr} {e : Expr}
    (he : Expr.array elem items ∈ f.exprs) (hmem : e ∈ items) :
    elem.accepts (e.infer (f.checker p)).1 = true := by
  have hitems : inferItems (f.checker p) elem items = [] := by
    simpa only [Expr.inferAll, Expr.infer] using hf.exprs _ he
  refine accepts_of_expecting (fun hany => ?_) (mem_inferItems hitems e hmem)
  exact hf.guards.parts _ he (elem, _) (List.mem_map_of_mem hmem) hany

/-- The fields of a new struct accept the types of what is given for them. -/
theorem accepts_given {name field : String} {fields : List (String × Expr)} {e : Expr}
    {decl : StructDecl} {ty : Ty} (he : Expr.struct name fields ∈ f.exprs)
    (hmem : (field, e) ∈ fields) (hdecl : p.struct? name = some decl)
    (hty : decl.fieldType? field = some ty) : ty.accepts (e.infer (f.checker p)).1 = true := by
  have hdecl' : (f.checker p).program.struct? name = some decl := hdecl
  have hfields := hf.exprs _ he
  simp only [Expr.inferAll, Expr.infer, hdecl'] at hfields
  obtain ⟨ty', hty', hclean⟩ := mem_inferFields hfields (field, e) hmem
  obtain rfl : ty' = ty := Option.some.inj (hty'.symm.trans hty)
  refine accepts_of_expecting (fun hany => hf.guards.parts _ he (ty', _) ?_ hany) hclean
  exact List.mem_filterMap.mpr ⟨_, hmem, by simp [hdecl', hty]⟩

/-- The parameters of a connector accept the types of what it is built from. -/
theorem accepts_built {name : String} {args : List Expr}
    (he : Expr.connector name args ∈ f.exprs) :
    ∃ params, p.connectorParams? name = some params ∧ List.Forall₂ (fun (param : Param) e =>
      param.ty.accepts (Expr.infer (f.checker p) e).1 = true) params args := by
  obtain ⟨params, hparams, hargs⟩ := Expr.connector_clean (hf.exprs _ he)
  have hguard := hf.guards.parts _ he
  simp only [Expr.stores, hparams, Option.getD_some] at hguard
  exact ⟨params, hparams, List.forall₂_map_left_iff.mp (acceptsAll_of_expecting hargs hguard)⟩

/-- The elements of a new array are of its element type. -/
theorem fits_item {elem : Ty} {items : List Expr} {e : Expr} {v : Value}
    (he : Expr.array elem items ∈ f.exprs) (hmem : e ∈ items)
    (hv : v.Fits (e.infer (f.checker p)).1) : v.Fits elem :=
  hv.mono (accepts_item hf he hmem)

/-- The given fields of a new struct are of their types. -/
theorem fits_given {name field : String} {fields : List (String × Expr)} {e : Expr}
    {decl : StructDecl} {ty : Ty} {v : Value} (he : Expr.struct name fields ∈ f.exprs)
    (hmem : (field, e) ∈ fields) (hdecl : p.struct? name = some decl)
    (hty : decl.fieldType? field = some ty) (hv : v.Fits (e.infer (f.checker p)).1) :
    v.Fits ty :=
  hv.mono (accepts_given hf he hmem hdecl hty)

/-- The values a connector is built from are of the types of its parameters. -/
theorem fits_built {name : String} {args : List Expr} {vs : List Value}
    (he : Expr.connector name args ∈ f.exprs)
    (hvs : List.Forall₂ (fun e v => Value.Fits (e.infer (f.checker p)).1 v) args vs) :
    ∃ params, p.connectorParams? name = some params ∧
      List.Forall₂ (fun (param : Param) v => v.Fits param.ty) params vs := by
  obtain ⟨params, hparams, haccepts⟩ := accepts_built hf he
  exact ⟨params, hparams, forall₂_comp (fun _ _ _ haccepts hv => hv.mono haccepts) haccepts hvs⟩

omit hf in
/-- All the values of an expression are of the types that are inferred for it. -/
theorem fitsAll_of_yieldsAll {e : Expr} {vs : List Value}
    (h : (typeJudgement p f).YieldsAll e vs) (hknown : e.isDynamic (f.checker p) = false) :
    List.Forall₂ (fun ty v => Value.Fits ty v) (e.inferAll (f.checker p)).1 vs := by
  cases he : e.isCall with
  | true => exact (h.1 he hknown).imp fun _ _ hv => hv.fits
  | false =>
    obtain ⟨v, rfl, hv⟩ := h.2 he
    rw [Expr.inferAll_of_not_isCall he]
    exact .cons hv.fits .nil

omit hf in
/-- Nothing is known of an element, or it may be held where the inferred type is declared, or it is
of the inferred type itself. -/
theorem element_cases {D : Discipline} {base key : Expr} {container k v : Value}
    (hbase : container.Fits (base.infer (f.checker p)).1) (helement : D.Element k container v) :
    ((Expr.index base key).infer (f.checker p)).1 = .any ∨
      D.Holds ((Expr.index base key).infer (f.checker p)).1 v ∨
      v.ty = ((Expr.index base key).infer (f.checker p)).1 := by
  cases helement with
  | @array elem id _ hv =>
    rcases hbase.array with hty | hty | hty
    · exact .inl (by simp only [Expr.infer, indexType, hty])
    · exact .inl (by simp only [Expr.infer, indexType, hty, Ty.arrayOf])
    · exact .inr (.inl (by simpa only [Expr.infer, indexType, hty] using hv))
  | map =>
    rcases hbase.nominal rfl rfl rfl with hty | hty <;>
      exact .inl (by simp only [Expr.infer, indexType, hty])
  | document =>
    rcases hbase.nominal rfl rfl rfl with hty | hty
    · exact .inl (by simp only [Expr.infer, indexType, hty])
    · exact .inr (.inr (by simp only [Expr.infer, indexType, hty, ty_documentPart]))

omit hf in
/-- Nothing is known of a field, or it may be held where the inferred type is declared, or it is of
the inferred type itself, or it is what a connector was built from. -/
theorem member_cases {D : Discipline} {base : Expr} {name : String} {target v : Value}
    (hbase : target.Fits (base.infer (f.checker p)).1) (hmember : D.Member p name target v) :
    ((Expr.field base name).infer (f.checker p)).1 = .any ∨
      D.Holds ((Expr.field base name).infer (f.checker p)).1 v ∨
      v.ty = ((Expr.field base name).infer (f.checker p)).1 ∨
      ∃ connector i args, (base.infer (f.checker p)).1 = .ref (.connector connector) ∧
        ((p.connectorParams? connector).getD []).findIdx? (·.name == name) = some i ∧
        D.Builds p connector args ∧ args[i]? = some v := by
  cases hmember with
  | @struct struct id decl ty _ hdecl hty hv =>
    rcases hbase.nominal rfl rfl rfl with hbase | hbase
    · exact .inl (by simp only [Expr.infer, fieldType, hbase])
    · have hdecl : (f.checker p).program.struct? struct = some decl := hdecl
      exact .inr (.inl (by simpa only [Expr.infer, hbase, fieldType, hdecl, hty] using hv))
  | @connector connector id i args _ hi hbuilds hv =>
    rcases hbase.nominal rfl rfl rfl with hbase | hbase
    · exact .inl (by simp only [Expr.infer, fieldType, hbase])
    · exact .inr (.inr (.inr ⟨connector, i, args, hbase, hi, hbuilds, hv⟩))
  | document =>
    rcases hbase.nominal rfl rfl rfl with hbase | hbase
    · exact .inl (by simp only [Expr.infer, fieldType, hbase])
    · exact .inr (.inr (.inl (by simp only [Expr.infer, hbase, fieldType, ty_documentPart])))

omit hf in
/-- What is inferred for a field of a connector is the type of the parameter of the name. -/
theorem infer_connectorField {base : Expr} {name connector : String} {params : List Param} {i : Nat}
    (hbase : (base.infer (f.checker p)).1 = .ref (.connector connector))
    (hparams : p.connectorParams? connector = some params)
    (hi : ((p.connectorParams? connector).getD []).findIdx? (·.name == name) = some i) :
    ∃ param, params[i]? = some param ∧
      ((Expr.field base name).infer (f.checker p)).1 = param.ty := by
  obtain ⟨param, hparam, hfind⟩ := find?_of_findIdx? hi
  refine ⟨param, by simpa only [hparams, Option.getD_some] using hparam, ?_⟩
  simp only [Expr.infer, hbase, fieldType, show (f.checker p).program = p from rfl, hfind]

omit hf in
/-- An element is one of the type that is inferred for it. -/
theorem gives_element {base key : Expr} {container k v : Value}
    (hbase : base.Gives (f.checker p) container)
    (helement : typeDiscipline.Element k container v) :
    (Expr.index base key).Gives (f.checker p) v := by
  rcases element_cases hbase.fits helement with hany | hv | hty
  · exact .of_any hany v
  · exact .of_stored (by simp) hv
  · exact .of_ty hty

omit hf in
/-- A field is a value of the type that is inferred for it. -/
theorem gives_member {base : Expr} {name : String} {target v : Value}
    (hbase : base.Gives (f.checker p) target)
    (hmember : typeDiscipline.Member p name target v) :
    (Expr.field base name).Gives (f.checker p) v := by
  rcases member_cases hbase.fits hmember with
    hany | hv | hty | ⟨connector, i, args, hbase, hi, ⟨params, hparams, hargs⟩, hv⟩
  · exact .of_any hany v
  · exact .of_stored (by simp) hv
  · exact .of_ty hty
  · obtain ⟨param, hparam, hty⟩ := infer_connectorField hbase hparams hi
    obtain ⟨param', hparam', hfits⟩ := forall₂_getElem? hargs hv
    obtain rfl : param' = param := Option.some.inj (hparam'.symm.trans hparam)
    refine ⟨hty ▸ hfits, fun hstray => ?_⟩
    simp [Expr.straysTags, hbase, Ty.isConnector] at hstray

/-- The types of expressions are those of their values. -/
theorem typeJudgement_soundOnExprs : (typeJudgement p f).SoundOnExprs typeDiscipline p f where
  part he hx := f.mem_exprs_of_part he hx
  own := by
    intro e v he hown
    refine Expr.Gives.of_ty ?_
    cases e <;> simp only [Expr.ownType?, reduceCtorEq, Option.some.injEq] at hown <;>
      simp only [Expr.infer, ← hown]
  var := by
    intro x slot ty v _ hslot hty hv
    have hx : Expr.var x ≠ .null := by simp
    refine Expr.Gives.of_stored hx ?_
    simp only [Expr.infer, hslot, slotType, show (f.checker p).slots[slot]? = some ty from hty]
    exact hv
  item he hmem hv := (fits_item hf he hmem hv.fits).binds
  given he hmem hdecl hty hv := (fits_given hf he hmem hdecl hty hv.fits).binds
  built he hvs := fits_built hf he (hvs.imp fun _ _ h => h.fits)
  element _ hbase helement := gives_element hbase helement
  member _ hbase hmember := gives_member hbase hmember
  unary := by
    intro op e v w he hv hw
    have hclean := hf.exprs _ he
    simp only [Expr.inferAll, Expr.infer, List.append_eq_nil_iff] at hclean
    obtain ⟨_, hvalue, _⟩ := UnaryOp.ty_of_apply hw
    exact Expr.Gives.of_present (Value.Fits.unary hv.fits hw hclean.2)
      (Value.isNull_of_isValueType hvalue)
  decided := by
    intro op left right l v _ hv
    have hfits : v.Fits ((Expr.binary op left right).infer (f.checker p)).1 :=
      Value.Fits.decided hv
    refine .of_present hfits ?_
    unfold shortCircuit? at hv
    split at hv <;> cases hv <;> rfl
  binary := by
    intro op left right h l r v he hl hr hv
    have hclean := hf.exprs _ he
    simp only [Expr.inferAll, Expr.infer, List.append_eq_nil_iff] at hclean
    refine Expr.Gives.of_present (Value.Fits.binary hl.fits hr.fits hv hclean.2) ?_
    exact Value.isNull_of_isValueType (BinaryOp.isValueType_of_apply hv)
  cast _ hw := Expr.Gives.of_tagged (Value.fits_of_cast hw) (Value.taggedAs_of_cast hw)
  call := by
    intro callee args stage unit vs he hunit hvs
    refine ⟨fun _ _ => ?_, fun hcall => by cases hcall⟩
    have hunit : (f.checker p).program.find? callee = some unit := Program.find?_of_resolve hunit
    simp only [Expr.inferAll, callTypes, hunit]
    exact hvs
  action := by
    intro target name args stage connector id unit vs he htarget hunit hvs
    refine ⟨fun _ hknown => ?_, fun hcall => by cases hcall⟩
    have hunit : (f.checker p).program.find? (connector ++ "." ++ name) = some unit :=
      Program.find?_of_resolve hunit
    have hany : (target.infer (f.checker p)).1 ≠ .any := by simpa [Expr.isDynamic] using hknown
    have hty := (Value.Fits.nominal htarget.fits rfl rfl rfl).resolve_left hany
    simp only [Expr.inferAll, actionTypes, hty, hunit]
    exact hvs
  first := by
    intro e v vs _ hvs
    cases he : e.isCall with
    | false =>
      obtain ⟨w, heq, hw⟩ := hvs.2 he
      cases heq
      exact hw
    | true =>
      cases hknown : e.isDynamic (f.checker p) with
      | true =>
        have hany := Expr.infer_eq_of_inferAll (Expr.inferAll_of_isDynamic hknown)
        exact Expr.Gives.of_any hany v
      | false =>
        obtain ⟨ty, tys, hv, _, htys⟩ := List.forall₂_cons_right_iff.mp (hvs.1 he hknown)
        have hnull : e ≠ .null := by
          rintro rfl
          cases he
        refine Expr.Gives.of_stored hnull ?_
        rw [Expr.infer_eq_of_inferAll htys]
        exact hv
  only he hv := ⟨fun hcall => by simp [he] at hcall, fun _ => ⟨_, rfl, hv⟩⟩

/-! ### Assignments -/

/-- The container of an element that is assigned to is typed as what it is. -/
theorem elem_eq_of_target {s : Stmt} {base key : Expr} {elem : Ty} {id : Nat}
    (hs : s ∈ statementsOf f.body) (ht : Target.index base key ∈ s.targets)
    (hbase : (Value.array elem id).Fits (base.infer (f.checker p)).1) :
    (base.infer (f.checker p)).1 = .arrayOf elem := by
  have htyped := hf.guards.targets s hs _ ht
  simp only [Target.isTyped, Bool.and_eq_true, bne_iff_ne] at htyped
  exact (hbase.array.resolve_left htyped.1).resolve_left htyped.2

/-- What a field is assigned to is typed as what it is. -/
theorem struct_eq_of_target {s : Stmt} {base : Expr} {name struct : String} {id : Nat}
    (hs : s ∈ statementsOf f.body) (ht : Target.field base name ∈ s.targets)
    (hbase : (Value.struct struct id).Fits (base.infer (f.checker p)).1) :
    (base.infer (f.checker p)).1 = .ref (.struct struct) := by
  have htyped := hf.guards.targets s hs _ ht
  simp only [Target.isTyped, Bool.and_eq_true, bne_iff_ne] at htyped
  exact (hbase.nominal rfl rfl rfl).resolve_left htyped.1

/-- The types of targets are those of what is written to them. -/
theorem typeJudgement_soundOnTargets : (typeJudgement p f).SoundOnTargets typeDiscipline p f where
  target htakes he := by
    obtain ⟨⟨s, hs, ht⟩, _⟩ := htakes
    exact f.mem_exprs_of_top (f.mem_topExprs hs (Stmt.mem_exprs_of_target ht he))
  slot := by
    intro x v slot ty htakes hslot hty
    have hv := htakes.2
    simp only [Target.infer, slotType, hslot, show (f.checker p).slots[slot]? = some ty from hty,
      Option.getD_some] at hv
    exact hv.binds
  item := by
    intro base key v elem id htakes hbase
    obtain ⟨⟨s, hs, ht⟩, hv⟩ := htakes
    simp only [Target.infer, indexType, elem_eq_of_target hf hs ht hbase.fits] at hv
    exact hv.binds
  field := by
    intro base name v struct id decl ty htakes hbase hdecl hty
    obtain ⟨⟨s, hs, ht⟩, hv⟩ := htakes
    have hdecl : (f.checker p).program.struct? struct = some decl := hdecl
    simp only [Target.infer, fieldType, struct_eq_of_target hf hs ht hbase.fits, hdecl, hty] at hv
    exact hv.binds

/-! ### Statements -/

/-- A variable accepts the type of its start value. -/
theorem accepts_start {name : String} {ty : Ty} {init : Expr} {slot? : Option Nat}
    (hs : Stmt.define name ty (some init) slot? ∈ statementsOf f.body) :
    ty.accepts (init.infer (f.checker p)).1 = true := by
  obtain ⟨inLoop, hclean⟩ := hf.stmts _ hs
  refine accepts_of_expecting (fun hany => ?_) (by simpa only [Stmt.check] using hclean)
  exact hf.guards.stmts _ hs (ty, _) (List.mem_singleton_self _) hany

/-- A target accepts the type of what is assigned to it. -/
theorem accepts_assigned {target : Target} {value : Expr}
    (hs : Stmt.assign [target] value ∈ statementsOf f.body) :
    (target.infer (f.checker p)).1.accepts (value.infer (f.checker p)).1 = true := by
  obtain ⟨inLoop, hclean⟩ := hf.stmts _ hs
  obtain ⟨_, _, hone, _⟩ := checkAssign_clean (by simpa only [Stmt.check] using hclean)
  refine accepts_of_expecting (fun hany => ?_) (hone target rfl)
  exact hf.guards.stmts _ hs (_, _) (List.mem_singleton_self _) hany

/-- Several targets accept the types of what is assigned to them, and these types are known. -/
theorem accepts_assignedAll {targets : List Target} {value : Expr}
    (hs : Stmt.assign targets value ∈ statementsOf f.body) (hlen : targets.length ≠ 1) :
    value.isDynamic (f.checker p) = false ∧ List.Forall₂ (fun (target : Target) ty =>
      (target.infer (f.checker p)).1.accepts ty = true) targets
        (value.inferAll (f.checker p)).1 := by
  obtain ⟨inLoop, hclean⟩ := hf.stmts _ hs
  obtain ⟨_, _, _, hmany⟩ := checkAssign_clean (by simpa only [Stmt.check] using hclean)
  have hcompatible := hmany hlen
  have hguard := hf.guards.stmts _ hs
  rw [Stmt.stores_assign hlen] at hguard
  refine ⟨?_, List.forall₂_map_left_iff.mp
    (acceptsAll_of_compatible (List.forall₂_map_left_iff.mpr hcompatible) hguard)⟩
  by_contra hdynamic
  rw [Expr.inferAll_of_isDynamic (by simpa using hdynamic)] at hcompatible
  exact hlen hcompatible.length_eq

/-- The results of the function accept the types of the values of a result. -/
theorem accepts_returns {values : List Expr} (hs : Stmt.result values ∈ statementsOf f.body)
    (hone : values.length = 1 → f.sig.returns.length < 2) :
    List.Forall₂ (fun ty e => ty.accepts (Expr.infer (f.checker p) e).1 = true) f.sig.returns
      values := by
  obtain ⟨inLoop, hclean⟩ := hf.stmts _ hs
  have hguard := hf.guards.stmts _ hs
  rw [Stmt.stores_result hone] at hguard
  exact acceptsAll_of_expecting
    ((checkResult_clean (by simpa only [Stmt.check] using hclean)).2.1 hone) hguard

/-- The results of the function accept the types of all values of one expression, and these types
are known. -/
theorem accepts_returnsAll {value : Expr} (hs : Stmt.result [value] ∈ statementsOf f.body)
    (htwo : 2 ≤ f.sig.returns.length) :
    value.isDynamic (f.checker p) = false ∧ List.Forall₂ (fun ty found => ty.accepts found = true)
      f.sig.returns (value.inferAll (f.checker p)).1 := by
  obtain ⟨inLoop, hclean⟩ := hf.stmts _ hs
  have hguard := hf.guards.stmts _ hs
  rw [Stmt.stores_resultAll htwo] at hguard
  have hall := (checkResult_clean (by simpa only [Stmt.check] using hclean)).2.2 value rfl htwo
  refine ⟨?_, acceptsAll_of_compatible hall hguard⟩
  by_contra hdynamic
  rw [Expr.inferAll_of_isDynamic (by simpa using hdynamic)] at hall
  have hlen := hall.length_eq
  simp only [List.length_singleton] at hlen
  omega

/-- The start value of a variable is of its type. -/
theorem fits_start {name : String} {ty : Ty} {init : Expr} {slot? : Option Nat} {v : Value}
    (hs : Stmt.define name ty (some init) slot? ∈ statementsOf f.body)
    (hv : v.Fits (init.infer (f.checker p)).1) : v.Fits ty :=
  hv.mono (accepts_start hf hs)

/-- An assigned value is of the type of its target. -/
theorem fits_assigned {target : Target} {value : Expr} {v : Value}
    (hs : Stmt.assign [target] value ∈ statementsOf f.body)
    (hv : v.Fits (value.infer (f.checker p)).1) : v.Fits (target.infer (f.checker p)).1 :=
  hv.mono (accepts_assigned hf hs)

/-- Several assigned values are of the types of their targets. -/
theorem fits_assignedAll {targets : List Target} {value : Expr} {vs : List Value}
    (hs : Stmt.assign targets value ∈ statementsOf f.body) (hlen : targets.length ≠ 1)
    (hvs : (typeJudgement p f).YieldsAll value vs) :
    List.Forall₂ (fun (target : Target) v => v.Fits (target.infer (f.checker p)).1) targets vs := by
  obtain ⟨hknown, haccepts⟩ := accepts_assignedAll hf hs hlen
  exact forall₂_comp (fun _ _ _ haccepts hv => hv.mono haccepts) haccepts
    (fitsAll_of_yieldsAll hvs hknown)

/-- The values of a result are of the types of the results. -/
theorem fits_returns {values : List Expr} {vs : List Value}
    (hs : Stmt.result values ∈ statementsOf f.body)
    (hone : values.length = 1 → f.sig.returns.length < 2)
    (hvs : List.Forall₂ (fun e v => Value.Fits (e.infer (f.checker p)).1 v) values vs) :
    List.Forall₂ (fun ty v => Value.Fits ty v) f.sig.returns vs :=
  fitsAll_of_accepts (accepts_returns hf hs hone) hvs

/-- The values that one expression has for all results are of the types of the results. -/
theorem fits_returnsAll {value : Expr} {vs : List Value}
    (hs : Stmt.result [value] ∈ statementsOf f.body) (htwo : 2 ≤ f.sig.returns.length)
    (hvs : (typeJudgement p f).YieldsAll value vs) :
    List.Forall₂ (fun ty v => Value.Fits ty v) f.sig.returns vs := by
  obtain ⟨hknown, haccepts⟩ := accepts_returnsAll hf hs htwo
  exact forall₂_comp (fun _ _ _ haccepts hv => hv.mono haccepts) haccepts
    (fitsAll_of_yieldsAll hvs hknown)

/-- The types of statements are those of what they store. -/
theorem typeJudgement_soundOnStmts : (typeJudgement p f).SoundOnStmts typeDiscipline f where
  body s hs := mem_statementsOf hs s.mem_withInner_self
  expr hs he := f.mem_exprs_of_top (f.mem_topExprs hs he)
  inner hs hinner := inner_mem_statementsOf hs hinner
  place hs := by simpa only [Stmt.Slotted] using hf.slotted _ hs
  start hs hv := (fits_start hf hs hv.fits).binds
  assigned hs hv := ⟨⟨_, hs, List.mem_singleton_self _⟩, fits_assigned hf hs hv.fits⟩
  assignedAll hs hlen hvs _ := (List.forall₂_and_left _ _).mpr
    ⟨fun _ ht => ⟨_, hs, ht⟩, fits_assignedAll hf hs hlen hvs⟩
  returns hs hone hvs :=
    Discipline.bindsAll_of_forall₂ ((fits_returns hf hs hone (hvs.imp fun _ _ h => h.fits)).imp
      fun _ _ h => h.binds)
  returnsAll hs htwo hvs :=
    Discipline.bindsAll_of_forall₂ ((fits_returnsAll hf hs htwo hvs).imp fun _ _ h => h.binds)

/-- In a well typed function the types that are inferred are those of the values. -/
theorem typeJudgement_sound : (typeJudgement p f).Sound typeDiscipline p f where
  exprs := typeJudgement_soundOnExprs hf
  targets := typeJudgement_soundOnTargets hf
  stmts := typeJudgement_soundOnStmts hf

end Sound

/-! ## Programs -/

/-- The functions of a linked program in which nothing is found are well typed if the program guards
the top type. -/
theorem Program.Linked.wellTyped {p : Program} (hp : p.Linked Library.standard)
    (hcheck : p.check = []) (hguards : p.GuardsAny) {name : String} {f : Function}
    (hfound : p.find? name = some (.function f)) : f.WellTyped p := by
  obtain ⟨decl, hlaid⟩ := hp.laidOut hfound
  have hf := Program.mem_functions hfound
  exact Function.wellTyped hlaid.slotted (Program.checkBlock_clean hcheck hf) (hguards f hf)

/-- The discipline of types judges every linked program that the analysis accepts and that guards
the top type. -/
theorem typeDiscipline_judges {p : Program} (hp : p.Linked Library.standard)
    (hcheck : p.check = []) (hguards : p.GuardsAny) :
    typeDiscipline.Judges (typeJudgement p) Library.standard p where
  linked := hp
  natives := by
    intro key u hu
    obtain ⟨package, hpackage, hmem⟩ := Library.mem_standard hu
    exact Library.keeps hpackage hmem
  sound _ _ hfound := typeJudgement_sound (hp.wellTyped hcheck hguards hfound)
  handsOver _ _ _ _ := .of_all fun _ _ => trivial

/-! ## States -/

/-- All slots and results of the active calls, and the elements, the fields and the arguments of
everything that occurs in the state, are values of their declared types. -/
structure Machine.HoldsTypesAsDeclared (p : Program) (m : Machine) : Prop where
  frames : ∀ f ∈ m.context.frames, ∃ unit, Dict.find? f.unit p.units = some unit ∧
    List.Forall₂ (fun ty v => v.Fits ty) unit.slotTypes f.slots ∧
      List.Forall₂ (fun ty v => v.Fits ty) unit.sig.returns f.returns
  elements : ∀ elem id, m.Mentions (.array elem id) → ∀ v ∈ m.heap.array id, v.Fits elem
  fields : ∀ name id, m.Mentions (.struct name id) → ∃ decl, p.struct? name = some decl ∧
    List.Forall₂ (fun (param : Param) (field : String × Value) =>
      field.1 = param.name ∧ field.2.Fits param.ty) decl.fields (m.heap.struct id)
  arguments : ∀ name id, m.Mentions (.connector name id) → ∃ params,
    p.connectorParams? name = some params ∧
      List.Forall₂ (fun (param : Param) v => v.Fits param.ty) params (m.heap.connector id)

/-- A state that obeys the discipline holds values of the declared types. -/
theorem Machine.Obeys.holdsTypesAsDeclared {p : Program} {t : HeapTyping} {m : Machine}
    (hm : m.Obeys typeDiscipline p t) : m.HoldsTypesAsDeclared p where
  frames f hf := by
    obtain ⟨unit, hunit, hf⟩ := hm.frames f hf
    exact ⟨unit, hunit, hf.slots.imp fun _ _ h => h.holds.fits,
      hf.returns.imp fun _ _ h => h.holds.fits⟩
  elements elem id h v hv := (hm.heap.array id elem (h.knows hm) v hv).holds.fits
  fields name id h := by
    obtain ⟨decl, hdecl, hfields⟩ := hm.heap.struct id name (h.knows hm)
    exact ⟨decl, hdecl, List.Forall₂.imp (fun _ _ h => ⟨h.1, h.2.holds.fits⟩) hfields⟩
  arguments name id h := (hm.heap.connector id name (h.knows hm)).builds

/-- **Types are preserved.** Let a program load with the standard library, let the analysis find
nothing in it, and let the top type be neither written in it nor inferred for anything but operands
of conversions. Let a run start with values read from documents at any types. Then in each state of
the run, each slot, result, element, field and argument of a connector is a value of its declared
type: it has a runtime type that is accepted, or is a null under a reference type. Each expression
that is evaluated to a value is evaluated to one of the type that is inferred for it, and a call in
the place of several values to values of all the types that are inferred.

**Proof sketch.** The inputs lie in a heap that obeys the discipline of types. Each step keeps the
discipline, because the judgement that expressions have values of their inferred types is sound: by
the rules of the analysis, whatever a body stores anywhere fits there. -/
theorem holdsTypesAsDeclared_of_visits {source : Source} {e : Engine}
    (hload : Program.load source Library.standard = .ok e.program)
    (hcheck : e.program.check = []) (hany : e.program.ConfinesAny)
    {inputs : List (Json × Ty)} {args : List Value} {heap : Heap}
    (hread : (e.program.readInputs inputs).run {} = .ok (args, heap))
    {name : String} {unit : Callable} (hunit : e.program.find? name = some unit)
    (properties : Dict String) (rounds levels : Nat) :
    (∀ m, Task.Visits e.program rounds (.call levels unit args) (e.machine heap properties) m →
      m.HoldsTypesAsDeclared e.program) ∧
    (∀ s x m v m',
      Task.Reaches e.program rounds (.call levels unit args) (e.machine heap properties)
        (.eval s x) m →
      (x.eval (s.code e.program rounds)).on m = (.ok v, m') →
      v.Fits (x.infer (s.function.checker e.program)).1) ∧
    ∀ s x m vs m',
      Task.Reaches e.program rounds (.call levels unit args) (e.machine heap properties)
        (.results s x) m →
      (x.results (s.code e.program rounds)).on m = (.ok vs, m') →
      List.Forall₂ (fun ty v => v.Fits ty) (x.inferAll (s.function.checker e.program)).1 vs := by
  have hp := Program.load_linked hload
  have hD := typeDiscipline_judges hp hcheck (hany.guardsAny hp hcheck)
  have hbegun : (Task.call levels unit args).BegunWell typeDiscipline (typeJudgement e.program)
      e.program (e.machine heap properties) :=
    Task.begunWell_of_inputs hread hunit (fun _ _ _ _ _ => trivial) properties levels
  refine ⟨fun m hvisits => ?_, fun s x m v m' hr hrun => ?_, fun s x m vs m' hr hrun => ?_⟩
  · obtain ⟨u, hm⟩ := hvisits.obeys hD hbegun
    exact hm.holdsTypesAsDeclared
  · obtain ⟨u, hm, hs, hx⟩ := hr.begunWell hD hbegun
    obtain ⟨_, _, _, _, hv⟩ := hs.after hm (fun _ =>
      eval_keeps (Site.code_keeps hD rounds hs) (hs.sound hD).exprs x hx u) hrun
    exact hv.2.fits
  · obtain ⟨u, hm, hs, hx⟩ := hr.begunWell hD hbegun
    obtain ⟨_, _, _, _, hvs⟩ := hs.after hm (fun _ =>
      results_keeps (Site.code_keeps hD rounds hs) (hs.sound hD).exprs x hx u) hrun
    obtain ⟨callee, hcallee⟩ := hs.found
    exact fitsAll_of_yieldsAll hvs.2
      (hany.isDynamic_eq_false hcheck (Program.mem_functions hcallee) hx)

/-- A program that puts numbers into a struct and a map, and takes one of them out again. -/
def countersSource : Source where
  structs := [⟨"counter", [⟨"name", .string⟩, ⟨"counts", .arrayOf .int⟩]⟩]
  functions := [{
    name := "first"
    params := [⟨"ns", .arrayOf .int⟩]
    returns := [.int]
    body := [
      .define "c" (.ref (.struct "counter"))
        (some (.struct "counter" [("counts", .var ⟨"ns", none⟩)])) none,
      .assign [.field (.var ⟨"c", none⟩) "name"] (.str "first"),
      .define "m" (.ref .map)
        (some (.map [("n", .index (.field (.var ⟨"c", none⟩) "counts") (.int 0))])) none,
      .result [.cast (.index (.var ⟨"m", none⟩) (.str "n")) .int]] }]

/-- The theorem applies to this program with an array of two numbers. -/
theorem holdsTypesAsDeclared_counters :
    ∃ (e : Engine) (unit : Callable) (heap : Heap) (args : List Value),
      Program.load countersSource Library.standard = .ok e.program ∧
      e.program.check = [] ∧ e.program.ConfinesAny ∧
      e.program.find? "first" = some unit ∧
      (e.program.readInputs [(.arr [.int 2, .int 3], .arrayOf .int)]).run {} = .ok (args, heap) ∧
      ∀ m, Task.Visits e.program 10 (.call 5 unit args) (e.machine heap []) m →
        m.HoldsTypesAsDeclared e.program := by
  have hloads : Program.loadsTo countersSource Library.standard (fun p =>
      p.check.isEmpty && decide p.ConfinesAny && (p.find? "first").isSome) = true := by
    decide +kernel
  obtain ⟨p, hload, htest⟩ := Program.exists_of_loadsTo hloads
  simp only [Bool.and_eq_true, List.isEmpty_iff, decide_eq_true_eq] at htest
  obtain ⟨⟨hcheck, hany⟩, hfound⟩ := htest
  obtain ⟨unit, hunit⟩ := Option.isSome_iff_exists.mp hfound
  let e : Engine := ⟨p, {}⟩
  have hread : (e.program.readInputs [(.arr [.int 2, .int 3], .arrayOf .int)]).run {} =
      .ok ([.array .int 0], { arrays := #[#[.int 2, .int 3]] }) := rfl
  exact ⟨e, unit, _, _, hload, hcheck, hany, hunit, hread,
    (holdsTypesAsDeclared_of_visits (e := e) hload hcheck hany hread hunit [] 10 5).1⟩

end FrameScript
