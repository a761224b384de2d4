import FrameScript.Proofs.Loading
import FrameScript.Proofs.Subterms
import FrameScript.Proofs.TypeText
import FrameScript.Source.Decode

set_option autoImplicit false

/-!
# What a reader of sources leaves behind

A source that was read from a document has no places for its variables and no stages for its calls
yet, its types are those that their written forms stand for, the members of its free-form documents
are in the order of their names, and its sizes are words.

## Main definitions

* `Decoder.Yields` — a postcondition of a reader.
* `Json.Canonical` — a free-form document with ordered members throughout.
* `Expr.IsRaw`, `Target.IsRaw`, `Stmt.IsRaw` — a node that was read from a document.
* `Expr.AllRaw`, `Stmt.AllRaw`, `FunctionDecl.IsRaw`, `Source.IsRaw` — trees and declarations of
  such nodes.

## Main results

* `Source.isRaw_of_decode?` — every source that was read from a document is raw.
-/

namespace FrameScript

variable {α β : Type}

/-! ## Readers -/

namespace Document

open Decoder

theorem run_value (reading : Document → Option α) (d : Document) (scope : Decoder.Scope)
    (jumps : Nat) :
    ((d.value reading).run scope).run jumps =
      (((follow d).run scope).run jumps).bind fun (d, jumps) =>
        (reading d).bind fun a => some (a, jumps) := by
  simp only [value, ReaderT.run_bind, StateT.run_bind]
  rfl

theorem run_nested (inside : Decoder α) (scope : Decoder.Scope) (jumps : Nat) :
    ((nested inside).run scope).run jumps = match scope.room? with
      | none => (inside.run scope).run jumps
      | some 0 => none
      | some (room + 1) => (inside.run { scope with room? := some room }).run jumps := by
  obtain ⟨targets, maxJumps, room?, reach⟩ := scope
  unfold nested
  rcases room? with _ | _ | room <;> rfl

theorem run_map (f : α → β) (x : Decoder α) (scope : Decoder.Scope) (jumps : Nat) :
    ((f <$> x).run scope).run jumps =
      ((x.run scope).run jumps).map fun (a, jumps) => (f a, jumps) := by
  simp [ReaderT.run_map, StateT.run_map]

end Document

namespace Decoder

open Document

/-- What the computation reads satisfies the postcondition. -/
def Yields (x : Decoder α) (post : α → Prop) : Prop :=
  ∀ scope jumps a jumps', (x.run scope).run jumps = some (a, jumps') → post a

namespace Yields

variable {x : Decoder α} {post : α → Prop}

theorem any (x : Decoder α) : Yields x fun _ => True :=
  fun _ _ _ _ _ => True.intro

theorem pure {a : α} (ha : post a) : Yields (pure a) post := by
  intro scope jumps b jumps' h
  cases h
  exact ha

theorem failure : Yields (failure : Decoder α) post :=
  fun _ _ _ _ h => by cases h

theorem bind {f : α → Decoder β} {mid : α → Prop} {post : β → Prop} (hx : Yields x mid)
    (hf : ∀ a, mid a → Yields (f a) post) : Yields (x >>= f) post := by
  intro scope jumps b jumps' h
  obtain ⟨⟨a, jumps₁⟩, hfirst, hrest⟩ := Option.bind_eq_some_iff.mp h
  exact hf a (hx scope jumps a jumps₁ hfirst) scope jumps₁ b jumps' hrest

theorem map {f : α → β} {post : β → Prop} (hx : Yields x fun a => post (f a)) :
    Yields (f <$> x) post := by
  intro scope jumps b jumps' h
  rw [run_map] at h
  obtain ⟨⟨a, jumps₁⟩, hfirst, hrest⟩ := Option.map_eq_some_iff.mp h
  exact (Prod.mk.inj hrest).1 ▸ hx scope jumps a jumps₁ hfirst

theorem value {reading : Document → Option α} {d : Document}
    (h : ∀ d a, reading d = some a → post a) : Yields (d.value reading) post := by
  intro scope jumps a jumps' hrun
  rw [run_value] at hrun
  obtain ⟨⟨d', jumps₁⟩, _, hrun⟩ := Option.bind_eq_some_iff.mp hrun
  obtain ⟨a', hread, heq⟩ := Option.bind_eq_some_iff.mp hrun
  cases heq
  exact h d' a hread

theorem nested {inside : Decoder α} (h : Yields inside post) : Yields (nested inside) post := by
  intro scope jumps a jumps' hrun
  rw [run_nested] at hrun
  split at hrun
  · exact h _ _ _ _ hrun
  · cases hrun
  · exact h _ _ _ _ hrun

theorem required {decode : Document → Decoder α} (h : ∀ d, Yields (decode d) post) :
    ∀ part?, Yields (required decode part?) post
  | none => .failure
  | some d => h d

theorem orDefault {default : α} {decode : Document → Decoder α} (hdefault : post default)
    (h : ∀ d, Yields (decode d) post) : ∀ part?, Yields (orDefault default decode part?) post
  | none => .pure hdefault
  | some d => h d

theorem orAbsent {decode : Document → Decoder α} (h : ∀ d, Yields (decode d) post) :
    ∀ part?, Yields (orAbsent decode part?) fun a? => ∀ a, a? = some a → post a
  | none => .pure nofun
  | some d => by
    refine .bind (.any _) fun d' _ => ?_
    split
    · exact .pure nofun
    · exact .map fun scope jumps a jumps' hrun b hb => by
        cases hb
        exact h d' scope jumps a jumps' hrun

theorem mapM {decode : Document → Decoder α} (h : ∀ d, Yields (decode d) post)
    (ds : List Document) : Yields (ds.mapM decode) fun as => ∀ a ∈ as, post a := by
  induction ds with
  | nil => exact .pure (by simp)
  | cons d ds ih =>
    rw [List.mapM_cons]
    exact .bind (h d) fun a ha => .bind ih fun as has =>
      .pure (List.forall_mem_cons.mpr ⟨ha, has⟩)

theorem items {inside : List Document → Decoder α} (h : ∀ ds, Yields (inside ds) post)
    (d : Document) : Yields (d.items inside) post :=
  .bind (.any _) fun ds _ => .nested (h ds)

theorem listOf {decode : Document → Decoder α} (h : ∀ d, Yields (decode d) post) (d : Document) :
    Yields (d.listOf decode) fun as => ∀ a ∈ as, post a :=
  .items (.mapM h) d

theorem named {decode : Document → Decoder α} (h : ∀ d, Yields (decode d) post) (d : Document) :
    Yields (d.named decode) fun entry => post entry.2 := by
  refine .items (fun ds => ?_) d
  split
  · exact .bind (.any _) fun name _ => .bind (h _) fun a ha => .pure ha
  · exact .failure

theorem record {names : List String} {inside : List (Option Document) → Decoder α}
    (h : ∀ parts, Yields (inside parts) post) (d : Document) :
    Yields (d.record names inside) post := by
  refine .bind (.any _) fun d' _ => ?_
  split
  · split
    · exact .nested (h _)
    · exact .failure
  · refine .nested (.bind (.any _) fun keyed _ => ?_)
    split
    · exact .failure
    · exact h _
  · exact .failure

end Yields

end Decoder

/-! ## Free-form documents -/

/-- The members of the objects in a document are in ascending order of their names. -/
inductive Json.Canonical : Json → Prop
  | null : Canonical .null
  | bool (b : Bool) : Canonical (.bool b)
  | int (n : Int) : Canonical (.int n)
  | float (x : FiniteFloat) : Canonical (.float x)
  | str (s : String) : Canonical (.str s)
  | arr {items : List Json} (hitems : ∀ item ∈ items, Canonical item) : Canonical (.arr items)
  | obj {members : List (String × Json)} (hsorted : members.Pairwise fun m m' => m.1 < m'.1)
    (hmembers : ∀ member ∈ members, Canonical member.2) : Canonical (.obj members)

namespace Dict

/-- A new entry goes to its place. -/
theorem pairwise_insert {key : String} {value : α} {d : Dict α}
    (hd : d.Pairwise fun e e' => e.1 < e'.1) :
    (insert key value d).Pairwise fun e e' => e.1 < e'.1 := by
  induction d with
  | nil => exact List.pairwise_singleton _ _
  | cons entry rest ih =>
    obtain ⟨k, v⟩ := entry
    obtain ⟨hfirst, hrest⟩ := List.pairwise_cons.mp hd
    simp only [insert]
    split
    next heq =>
      obtain rfl : key = k := by simpa using heq
      exact List.pairwise_cons.mpr ⟨hfirst, hrest⟩
    next hne =>
      split
      next hlt =>
        exact List.pairwise_cons.mpr
          ⟨List.forall_mem_cons.mpr ⟨hlt, fun e he => String.lt_trans hlt (hfirst e he)⟩, hd⟩
      next hnot =>
        have hlt : k < key := by
          rcases Decidable.em (k < key) with hlt | hge
          · exact hlt
          · exact absurd (String.le_antisymm hge hnot) (by simpa using hne)
        refine List.pairwise_cons.mpr ⟨fun e he => ?_, ih hrest⟩
        rcases mem_of_mem_insert he with hold | rfl
        · exact hfirst e hold
        · exact hlt

theorem pairwise_foldl_insert {d : Dict α} (hd : d.Pairwise fun e e' => e.1 < e'.1)
    (entries : List (String × α)) :
    (entries.foldl (fun d (key, value) => insert key value d) d).Pairwise
      fun e e' => e.1 < e'.1 := by
  induction entries generalizing d with
  | nil => exact hd
  | cons entry entries ih => exact ih (pairwise_insert hd)

theorem pairwise_ofList (entries : List (String × α)) :
    (ofList entries).Pairwise fun e e' => e.1 < e'.1 :=
  pairwise_foldl_insert .nil entries

end Dict

mutual

theorem Document.canonical_of_toJson? (d : Document) :
    ∀ j, d.toJson? = some j → j.Canonical := by
  cases d with
  | leaf l =>
    intro j hj
    obtain ⟨v, -, rfl⟩ := Option.map_eq_some_iff.mp hj
    cases v with
    | null => exact .null
    | bool b => exact .bool b
    | int n => exact .int n
    | str s => exact .str s
    | float x =>
      rw [scalarToJson, Json.ofFloat]
      split
      · exact .float _
      · exact .null
  | list items =>
    intro j hj
    obtain ⟨js, hjs, rfl⟩ := Option.map_eq_some_iff.mp hj
    exact .arr (canonical_of_itemsToJson? items js hjs)
  | table entries =>
    intro j hj
    obtain ⟨members, hmembers, rfl⟩ := Option.map_eq_some_iff.mp hj
    refine .obj (Dict.pairwise_ofList members) fun member hmember => ?_
    exact canonical_of_entriesToJson? entries members hmembers member
      (Dict.mem_of_mem_ofList hmember)
  | reference target => nofun

theorem Document.canonical_of_itemsToJson? (items : List Document) :
    ∀ js, itemsToJson? items = some js → ∀ j ∈ js, j.Canonical := by
  cases items with
  | nil =>
    rintro js ⟨⟩
    simp
  | cons item items =>
    intro js hjs
    rw [itemsToJson?] at hjs
    split at hjs
    next j js' hj hjs' =>
      cases hjs
      exact List.forall_mem_cons.mpr
        ⟨canonical_of_toJson? item j hj, canonical_of_itemsToJson? items js' hjs'⟩
    · cases hjs

theorem Document.canonical_of_entriesToJson? (entries : List (Document × Document)) :
    ∀ members, entriesToJson? entries = some members → ∀ m ∈ members, m.2.Canonical := by
  cases entries with
  | nil =>
    rintro members ⟨⟩
    simp
  | cons entry entries =>
    intro members hmembers
    rw [entriesToJson?] at hmembers
    split at hmembers
    next name j rest _ hj hrest =>
      cases hmembers
      exact List.forall_mem_cons.mpr
        ⟨canonical_of_toJson? entry.2 j hj, canonical_of_entriesToJson? entries rest hrest⟩
    · cases hmembers

end

theorem Decoder.Yields.json (d : Document) : Yields d.json Json.Canonical := by
  unfold Document.json
  refine .bind (.any _) fun reach _ => .bind (.any _) fun d' _ => ?_
  intro scope jumps j jumps' hrun
  obtain ⟨j', hj, heq⟩ := Option.bind_eq_some_iff.mp hrun
  cases heq
  exact Document.canonical_of_toJson? d' j hj

/-! ## Expressions -/

namespace Expr

/-- What holds of everything inside an expression holds of the expression and of everything inside
its parts. -/
theorem forall_subterms_iff {P : Expr → Prop} {e : Expr} :
    (∀ x ∈ e.subterms, P x) ↔ P e ∧ ∀ part ∈ e.parts, ∀ x ∈ part.subterms, P x := by
  refine ⟨fun h => ⟨h e List.mem_cons_self, fun part hpart x hx => h x (mem_subterms hpart hx)⟩, ?_⟩
  rintro ⟨he, hparts⟩ x hx
  rcases List.mem_cons.mp hx with rfl | hinside
  · exact he
  · obtain ⟨part, hpart, hx⟩ := exists_part hinside
    exact hparts part hpart x hx

/-- A node of an expression as it was read. -/
def IsRaw : Expr → Prop
  | .json doc => doc.Canonical
  | .var v => v.slot? = none
  | .array elem _ => elem.IsWritten
  | .cast _ target => target.IsWritten
  | .call _ _ stage => stage = 0
  | .action _ _ _ stage => stage = 0
  | _ => True

/-- An expression as it was read, throughout. -/
def AllRaw (e : Expr) : Prop :=
  ∀ x ∈ e.subterms, x.IsRaw

theorem AllRaw.mk {e : Expr} (he : e.IsRaw) (hparts : ∀ part ∈ e.parts, part.AllRaw) : e.AllRaw :=
  forall_subterms_iff.mpr ⟨he, hparts⟩

end Expr

theorem Decoder.Yields.ty (d : Document) : Yields (Ty.decode d) Ty.IsWritten := by
  refine .value fun d ty h => ?_
  obtain ⟨s, -, hparse⟩ := Option.bind_eq_some_iff.mp h
  exact Ty.isWritten_of_parse? hparse

open Decoder

namespace Expr

/-- The content of an expression is raw if the expressions in it are. -/
theorem yields_decodeForm {expr : Document → Decoder Expr} (hexpr : ∀ d, Yields (expr d) AllRaw)
    (form : String) (d : Document) : Yields (decodeForm expr form d) AllRaw := by
  unfold decodeForm
  split
  · exact .bind (.any _) fun n _ => .pure (.mk trivial nofun)
  · exact .bind (.any _) fun n _ => .pure (.mk trivial nofun)
  · exact .bind (.any _) fun n _ => .pure (.mk trivial nofun)
  · exact .bind (.any _) fun n _ => .pure (.mk trivial nofun)
  · exact .bind (.any _) fun n _ => .pure (.mk trivial nofun)
  · exact .bind (.json d) fun doc hdoc => .pure (.mk hdoc nofun)
  · exact .bind (.any _) fun n _ => .pure (.mk trivial nofun)
  · exact .bind (.any _) fun n _ => .pure (.mk rfl nofun)
  · refine .record (fun parts => ?_) d
    split
    · refine .bind (.required .ty _) fun elem helem => ?_
      refine .bind (.orDefault (by simp) (.listOf hexpr) _) fun items hitems => ?_
      exact .pure (.mk helem hitems)
    · exact .failure
  · refine .bind (.listOf (.named hexpr) d) fun entries hentries => ?_
    exact .pure (.mk trivial (List.forall_mem_map.mpr hentries))
  · refine .record (fun parts => ?_) d
    split
    · refine .bind (.any _) fun name _ => ?_
      refine .bind (.orDefault (by simp) (.listOf (.named hexpr)) _) fun fields hfields => ?_
      exact .pure (.mk trivial (List.forall_mem_map.mpr hfields))
    · exact .failure
  · refine .record (fun parts => ?_) d
    split
    · refine .bind (.any _) fun name _ => ?_
      refine .bind (.orDefault (by simp) (.listOf hexpr) _) fun args hargs => ?_
      exact .pure (.mk trivial hargs)
    · exact .failure
  · exact .bind (hexpr d) fun payload hpayload => .pure (.mk trivial (by simpa [parts]))
  · refine .record (fun parts => ?_) d
    split
    · refine .bind (.required hexpr _) fun base hbase => ?_
      refine .bind (.required hexpr _) fun key hkey => ?_
      exact .pure (.mk trivial (by simpa [parts] using ⟨hbase, hkey⟩))
    · exact .failure
  · refine .record (fun parts => ?_) d
    split
    · refine .bind (.required hexpr _) fun base hbase => .bind (.any _) fun name _ => ?_
      exact .pure (.mk trivial (by simpa [parts]))
    · exact .failure
  · refine .record (fun parts => ?_) d
    split
    · refine .bind (.any _) fun op _ => .bind (.required hexpr _) fun operand hoperand => ?_
      exact .pure (.mk trivial (by simpa [parts]))
    · exact .failure
  · refine .record (fun parts => ?_) d
    split
    · refine .bind (.any _) fun op _ => .bind (.required hexpr _) fun left hleft => ?_
      refine .bind (.required hexpr _) fun right hright => ?_
      exact .pure (.mk trivial (by simpa [parts] using ⟨hleft, hright⟩))
    · exact .failure
  · refine .record (fun parts => ?_) d
    split
    · refine .bind (.required hexpr _) fun operand hoperand => ?_
      refine .bind (.required .ty _) fun target htarget => ?_
      exact .pure (.mk htarget (by simpa [parts]))
    · exact .failure
  · refine .record (fun parts => ?_) d
    split
    · refine .bind (.any _) fun callee _ => ?_
      refine .bind (.orDefault (by simp) (.listOf hexpr) _) fun args hargs => ?_
      exact .pure (.mk rfl hargs)
    · exact .failure
  · refine .record (fun parts => ?_) d
    split
    · refine .bind (.required hexpr _) fun target htarget => .bind (.any _) fun name _ => ?_
      refine .bind (.orDefault (by simp) (.listOf hexpr) _) fun args hargs => ?_
      exact .pure (.mk rfl (List.forall_mem_cons.mpr ⟨htarget, hargs⟩))
    · exact .failure
  · exact .failure

theorem yields_decodeWith (fuel : Nat) (d : Document) : Yields (decodeWith fuel d) AllRaw := by
  induction fuel generalizing d with
  | zero => exact .failure
  | succ fuel ih =>
    refine .bind (.any _) fun variant _ => ?_
    split
    · exact yields_decodeForm ih _ _
    · exact .pure (.mk trivial nofun)
    · exact .failure

theorem yields_decode (d : Document) : Yields (decode d) AllRaw :=
  .bind (.any _) fun fuel _ => yields_decodeWith fuel d

end Expr

/-! ## Statements -/

namespace Target

/-- A target as it was read. -/
def IsRaw : Target → Prop
  | .var v => v.slot? = none
  | _ => True

theorem yields_decode (d : Document) :
    Yields (decode d) fun target => target.IsRaw ∧ ∀ e ∈ target.parts, e.AllRaw := by
  refine .bind (.any _) fun variant _ => ?_
  split
  · exact .bind (.any _) fun name _ => .pure ⟨rfl, nofun⟩
  · refine .record (fun parts => ?_) _
    split
    · refine .bind (.required Expr.yields_decode _) fun base hbase => ?_
      refine .bind (.required Expr.yields_decode _) fun key hkey => ?_
      exact .pure ⟨trivial, by simpa [parts] using ⟨hbase, hkey⟩⟩
    · exact .failure
  · refine .record (fun parts => ?_) _
    split
    · refine .bind (.required Expr.yields_decode _) fun base hbase => ?_
      refine .bind (.any _) fun name _ => ?_
      exact .pure ⟨trivial, by simpa [parts]⟩
    · exact .failure
  · exact .failure

end Target

namespace Stmt

/-- What holds of everything inside a statement holds of the statement and of everything inside the
statements in it. -/
theorem forall_withInner_iff {P : Stmt → Prop} {s : Stmt} :
    (∀ s' ∈ s.withInner, P s') ↔ P s ∧ ∀ inner ∈ s.inner, ∀ s' ∈ inner.withInner, P s' := by
  refine ⟨fun h => ⟨h s s.mem_withInner_self, fun inner hinner s' hs' =>
    h s' (mem_withInner hinner hs')⟩, ?_⟩
  rintro ⟨hs, hinner⟩ s' hs'
  rcases eq_or_exists_inner hs' with rfl | ⟨inner, hmem, hs'⟩
  · exact hs
  · exact hinner inner hmem s' hs'

/-- A statement as it was read, apart from what lies in it. -/
def IsRaw : Stmt → Prop
  | .define _ ty _ slot? => ty.IsWritten ∧ slot? = none
  | .assign targets _ => ∀ target ∈ targets, target.IsRaw
  | _ => True

/-- A statement as it was read, throughout. -/
def AllRaw (s : Stmt) : Prop :=
  ∀ s' ∈ s.withInner, s'.IsRaw ∧ ∀ e ∈ s'.exprs, e.AllRaw

theorem AllRaw.mk {s : Stmt} (hs : s.IsRaw) (hexprs : ∀ e ∈ s.exprs, e.AllRaw)
    (hinner : ∀ inner ∈ s.inner, inner.AllRaw) : s.AllRaw :=
  forall_withInner_iff.mpr ⟨⟨hs, hexprs⟩, hinner⟩

/-- The content of a statement is raw if the statements in it are. -/
theorem yields_decodeForm {stmt : Document → Decoder Stmt} (hstmt : ∀ d, Yields (stmt d) AllRaw)
    (form : String) (d : Document) : Yields (decodeForm stmt form d) AllRaw := by
  unfold decodeForm
  split
  · refine .record (fun parts => ?_) d
    split
    · refine .bind (.any _) fun name _ => .bind (.required .ty _) fun ty hty => ?_
      refine .bind (.orAbsent Expr.yields_decode _) fun init? hinit => ?_
      exact .pure (.mk ⟨hty, rfl⟩ (by simpa [exprs] using hinit) nofun)
    · exact .failure
  · refine .record (fun parts => ?_) d
    split
    · refine .bind (.required (.listOf Target.yields_decode) _) fun targets htargets => ?_
      refine .bind (.required Expr.yields_decode _) fun value hvalue => ?_
      refine .pure (.mk (fun target h => (htargets target h).1) (fun e he => ?_) nofun)
      rcases List.mem_append.mp he with hpart | hlast
      · obtain ⟨target, htarget, hpart⟩ := List.mem_flatMap.mp hpart
        exact (htargets target htarget).2 e hpart
      · obtain rfl := List.mem_singleton.mp hlast
        exact hvalue
    · exact .failure
  · refine .record (fun parts => ?_) d
    split
    · refine .bind (.required Expr.yields_decode _) fun cond hcond => ?_
      refine .bind (.required (.listOf hstmt) _) fun yes hyes => ?_
      refine .bind (.orDefault (by simp) (.listOf hstmt) _) fun no hno => ?_
      refine .pure (.mk trivial (by simpa [exprs]) fun inner hinner => ?_)
      exact (List.mem_append.mp hinner).elim (hyes inner) (hno inner)
    · exact .failure
  · refine .record (fun parts => ?_) d
    split
    · refine .bind (.required Expr.yields_decode _) fun cond hcond => ?_
      refine .bind (.required (.listOf hstmt) _) fun body hbody => ?_
      exact .pure (.mk trivial (by simpa [exprs]) hbody)
    · exact .failure
  · exact .bind (.any _) fun _ _ => .pure (.mk trivial nofun nofun)
  · exact .bind (.any _) fun _ _ => .pure (.mk trivial nofun nofun)
  · refine .bind (.listOf Expr.yields_decode d) fun values hvalues => ?_
    exact .pure (.mk trivial hvalues nofun)
  · exact .bind (Expr.yields_decode d) fun e he => .pure (.mk trivial (by simpa [exprs]) nofun)
  · exact .bind (.listOf hstmt d) fun body hbody => .pure (.mk trivial nofun hbody)
  · exact .failure

theorem yields_decodeWith (fuel : Nat) (d : Document) : Yields (decodeWith fuel d) AllRaw := by
  induction fuel generalizing d with
  | zero => exact .failure
  | succ fuel ih =>
    refine .bind (.any _) fun variant _ => ?_
    split
    · exact yields_decodeForm ih _ _
    · exact .pure (.mk trivial nofun nofun)
    · exact .pure (.mk trivial nofun nofun)
    · exact .failure

theorem yields_decode (d : Document) : Yields (decode d) AllRaw :=
  .bind (.any _) fun fuel _ => yields_decodeWith fuel d

end Stmt

/-! ## Declarations -/

theorem Param.yields_decode (d : Document) : Yields (Param.decode d) fun p => p.ty.IsWritten := by
  refine .record (fun parts => ?_) d
  split
  · exact .bind (.any _) fun name _ => .bind (.required .ty _) fun ty hty => .pure hty
  · exact .failure

/-- A struct declaration as it was read. -/
def StructDecl.IsRaw (decl : StructDecl) : Prop :=
  ∀ p ∈ decl.fields, p.ty.IsWritten

theorem StructDecl.yields_decode (d : Document) :
    Yields (StructDecl.decode d) StructDecl.IsRaw := by
  refine .record (fun parts => ?_) d
  split
  · refine .bind (.any _) fun name _ => ?_
    exact .bind (.orDefault (by simp) (.listOf Param.yields_decode) _) fun fields hfields =>
      .pure hfields
  · exact .failure

/-- A function declaration as it was read. -/
structure FunctionDecl.IsRaw (decl : FunctionDecl) : Prop where
  /-- Its parameters have written types. -/
  params : ∀ p ∈ decl.params, p.ty.IsWritten
  /-- So have its results. -/
  returns : ∀ ty ∈ decl.returns, ty.IsWritten
  /-- Its body is as it was read. -/
  body : ∀ s ∈ decl.body, s.AllRaw
  /-- The number of slots is a word. -/
  stackSize : ∀ n, decl.stackSize? = some n → n < UInt64.size
  /-- So is that of temporary slots. -/
  tempSize : ∀ n, decl.tempSize? = some n → n < UInt64.size

theorem Document.yields_wordSize (d : Document) : Yields d.wordSize (· < UInt64.size) := by
  refine .value fun d n h => ?_
  obtain ⟨-, hlt⟩ := Option.filter_eq_some_iff.mp h
  simpa using hlt

theorem FunctionDecl.yields_decode (d : Document) :
    Yields (FunctionDecl.decode d) FunctionDecl.IsRaw := by
  refine .record (fun parts => ?_) d
  split
  · refine .bind (.any _) fun name _ => .bind (.any _) fun visibility _ => ?_
    refine .bind (.orDefault (by simp) (.listOf Param.yields_decode) _) fun params hparams => ?_
    refine .bind (.orDefault (by simp) (.listOf .ty) _) fun returns hreturns => ?_
    refine .bind (.orDefault (by simp) (.listOf Stmt.yields_decode) _) fun body hbody => ?_
    refine .bind (.orAbsent Document.yields_wordSize _) fun stackSize? hstack => ?_
    refine .bind (.orAbsent Document.yields_wordSize _) fun tempSize? htemp => ?_
    exact .pure ⟨hparams, hreturns, hbody, hstack, htemp⟩
  · exact .failure

/-- A connector declaration as it was read. -/
structure ConnectorDecl.IsRaw (decl : ConnectorDecl) : Prop where
  /-- Its parameters have written types. -/
  params : ∀ p ∈ decl.params, p.ty.IsWritten
  /-- Its actions are as they were read. -/
  actions : ∀ action ∈ decl.actions, action.IsRaw

theorem ConnectorDecl.yields_decode (d : Document) :
    Yields (ConnectorDecl.decode d) ConnectorDecl.IsRaw := by
  refine .record (fun parts => ?_) d
  split
  · refine .bind (.any _) fun name _ => ?_
    refine .bind (.orDefault (by simp) (.listOf Param.yields_decode) _) fun params hparams => ?_
    refine .bind (.orDefault (by simp) (.listOf FunctionDecl.yields_decode) _)
      fun actions hactions => ?_
    exact .pure ⟨hparams, hactions⟩
  · exact .failure

namespace Source

/-- A source as it was read. -/
structure IsRaw (source : Source) : Prop where
  /-- Its struct types are as they were read. -/
  structs : ∀ decl ∈ source.structs, decl.IsRaw
  /-- So are its connectors. -/
  connectors : ∀ decl ∈ source.connectors, decl.IsRaw
  /-- So are its functions. -/
  functions : ∀ decl ∈ source.functions, decl.IsRaw

theorem yields_decode (d : Document) : Yields (decode d) IsRaw := by
  refine .record (fun parts => ?_) d
  split
  · refine .bind (.any _) fun package _ => ?_
    refine .bind (.orDefault (by simp) (.listOf StructDecl.yields_decode) _)
      fun structs hstructs => ?_
    refine .bind (.orDefault (by simp) (.listOf ConnectorDecl.yields_decode) _)
      fun connectors hconnectors => ?_
    refine .bind (.orDefault (by simp) (.listOf FunctionDecl.yields_decode) _)
      fun functions hfunctions => ?_
    exact .pure ⟨hstructs, hconnectors, hfunctions⟩
  · exact .failure

/-- Every source that was read from a document is raw. -/
theorem isRaw_of_decode? {d : LinkedDocument} {source : Source}
    (h : d.decode? decode = some source) : source.IsRaw := by
  obtain ⟨⟨source', jumps⟩, hrun, rfl⟩ := Option.map_eq_some_iff.mp h
  exact yields_decode d.root _ 0 source' jumps hrun

end Source

end FrameScript
